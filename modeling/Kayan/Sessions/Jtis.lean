import Kayan.Sessions.Tokens

/-!
# The rows of the refresh tokens

While every `jti` that is saved is fresh, each has one row at most, and a row that is used up,
revoked or expired does not come back (`Spent`).
-/
namespace Kayan.Sessions
open RowStore Interleave Auth

/-- A version of a row: the committed one, or one that an open transaction has inserted. -/
def Has (t : Table Client RefreshToken) (i : Nat) (r : RefreshToken) : Prop :=
  t.committed i = some r ∨ ∃ c v, t.own c i = some (v, some r)

/-- What a statement of client `c` can do to the rows, where it saves no `jti` that was saved:
whether it leaves the client with a pending row, where it decides that, and the new row. -/
inductive TokenWrite (c : Client) (t : Table Client RefreshToken) :
    Option Bool → Option RefreshToken → Table Client RefreshToken → Prop
  | same : TokenWrite c t none none t
  | insert {token : RefreshToken} : TokenWrite c t (some true) (some token) (t.insert c token)
  | append {token : RefreshToken} : TokenWrite c t none (some token) (t.append token)
  | remove {i : Nat} {r : RefreshToken} (hc : t.committed i = some r) (hh : (t.cell i).held = none) :
      TokenWrite c t none none (t.store i none)
  | revoke {i now : Nat} {r : RefreshToken} (hc : t.committed i = some r) (hh : (t.cell i).held = none) :
      TokenWrite c t none none (t.store i (some { r with revokedAt := some now }))
  | commit : TokenWrite c t (some false) none (t.commit c)
  | rollback : TokenWrite c t (some false) none (t.rollback c)

/-- No row of the `jti` can be used any more. -/
def Spent (jti : String) (d : Db) : Prop :=
  jti ∈ d.saved ∧ ∀ i r, Has d.auth.tokens i r → r.jti = jti → r.revokedAt.isSome ∨ r.expiresAt ≤ d.auth.clock

variable {env : Env} {m : Move} {draw : Nat} {b c : Client} {d d' : Db} {t t' : Table Client RefreshToken}
  {i : Nat} {r : RefreshToken} {pend : Option Bool} {new : Option RefreshToken} {jti : String}

section Writes

/-- Rows that are not there before a write: the new one, and the revoked form of an old one. -/
theorem TokenWrite.has (hw : TokenWrite c t pend new t') (h : Has t' i r) :
    Has t i r ∨ (∃ r₀ now, Has t i r₀ ∧ r = { r₀ with revokedAt := some now }) ∨ (new = some r ∧ i = t.next) := by
  cases hw with
  | same => exact Or.inl h
  | @insert token =>
    rcases h with h | ⟨b, v, h⟩
    · rw [Table.committed_insert] at h
      exact Or.inl (Or.inl h)
    · by_cases hb : b = c
      · subst hb
        rw [Table.own_insert] at h
        split at h
        · rename_i hi
          cases h
          exact Or.inr (Or.inr ⟨rfl, hi⟩)
        · exact Or.inl (Or.inr ⟨b, v, h⟩)
      · rw [Table.own_insert_ne hb] at h
        exact Or.inl (Or.inr ⟨b, v, h⟩)
  | append =>
    rcases h with h | ⟨b, v, h⟩
    · rw [Table.committed_append] at h
      split at h
      · rename_i hi
        cases h
        exact Or.inr (Or.inr ⟨rfl, hi⟩)
      · exact Or.inl (Or.inl h)
    · rw [Table.own_append] at h
      exact Or.inl (Or.inr ⟨b, v, h⟩)
  | remove hc hh =>
    rcases h with h | ⟨b, v, h⟩
    · rw [Table.committed_store (Table.lt_of_committed hc)] at h
      split at h
      · cases h
      · exact Or.inl (Or.inl h)
    · rw [Table.own_store hh] at h
      exact Or.inl (Or.inr ⟨b, v, h⟩)
  | revoke hc hh =>
    rcases h with h | ⟨b, v, h⟩
    · rw [Table.committed_store (Table.lt_of_committed hc)] at h
      split at h
      · rename_i hi
        subst hi
        cases h
        exact Or.inr (Or.inl ⟨_, _, Or.inl hc, rfl⟩)
      · exact Or.inl (Or.inl h)
    · rw [Table.own_store hh] at h
      exact Or.inl (Or.inr ⟨b, v, h⟩)
  | rollback =>
    rcases h with h | ⟨b, v, h⟩
    · rw [Table.committed_rollback] at h
      exact Or.inl (Or.inl h)
    · by_cases hb : b = c
      · subst hb
        rw [Table.own_rollback_self] at h
        cases h
      · rw [Table.own_rollback_ne hb] at h
        exact Or.inl (Or.inr ⟨b, v, h⟩)
  | commit =>
    rcases h with h | ⟨b, v, h⟩
    · rw [Table.committed_commit] at h
      rcases ho : t.own c i with _ | ⟨v, w⟩
      · rw [ho] at h
        exact Or.inl (Or.inl h)
      · rw [ho] at h
        obtain rfl : w = some r := h
        exact Or.inl (Or.inr ⟨c, v, ho⟩)
    · by_cases hb : b = c
      · subst hb
        rw [Table.own_commit_self] at h
        cases h
      · rw [Table.own_commit_ne hb] at h
        exact Or.inl (Or.inr ⟨b, v, h⟩)

/-- The versions that are there after a write: the old ones, those of a client that ends its
transaction apart, and the new row. -/
theorem TokenWrite.own {v : Option RefreshToken × Option RefreshToken} (hw : TokenWrite c t pend new t')
    (h : t'.own b i = some v) : (t.own b i = some v ∧ (b = c → pend ≠ some false)) ∨
      (b = c ∧ pend = some true ∧ ∃ token, new = some token ∧ v = (none, some token)) := by
  have hnone : b = c → (none : Option Bool) ≠ some false := by
    intro _ hfalse
    cases hfalse
  cases hw with
  | same => exact Or.inl ⟨h, hnone⟩
  | @insert token =>
    by_cases hb : b = c
    · subst hb
      rw [Table.own_insert] at h
      split at h
      · cases h
        exact Or.inr ⟨rfl, rfl, token, rfl, rfl⟩
      · exact Or.inl ⟨h, fun _ hfalse => by cases hfalse⟩
    · rw [Table.own_insert_ne hb] at h
      exact Or.inl ⟨h, fun _ hfalse => by cases hfalse⟩
  | append =>
    rw [Table.own_append] at h
    exact Or.inl ⟨h, hnone⟩
  | remove hc hh | revoke hc hh =>
    rw [Table.own_store hh] at h
    exact Or.inl ⟨h, hnone⟩
  | rollback =>
    by_cases hb : b = c
    · subst hb
      rw [Table.own_rollback_self] at h
      cases h
    · rw [Table.own_rollback_ne hb] at h
      exact Or.inl ⟨h, fun hbc => absurd hbc hb⟩
  | commit =>
    by_cases hb : b = c
    · subst hb
      rw [Table.own_commit_self] at h
      cases h
    · rw [Table.own_commit_ne hb] at h
      exact Or.inl ⟨h, fun hbc => absurd hbc hb⟩

/-- A spent `jti` stays spent while it is not saved again. -/
theorem Spent.write (hs : Spent jti d)
    (hw : TokenWrite c d.auth.tokens pend new d'.auth.tokens) (hnew : ∀ r, new = some r → r.jti ≠ jti)
    (hsaved : d.saved ⊆ d'.saved) (hclock : d.auth.clock ≤ d'.auth.clock) : Spent jti d' := by
  refine ⟨hsaved hs.1, fun i r hr hj => ?_⟩
  rcases hw.has hr with hr | ⟨r₀, now, hr, rfl⟩ | ⟨hn, -⟩
  · rcases hs.2 i r hr hj with h | h
    · exact Or.inl h
    · exact Or.inr (Nat.le_trans h hclock)
  · exact Or.inl rfl
  · exact absurd hj (hnew r hn)

end Writes

section Statements

/-- No version of any row has the `jti`. -/
def Unused (jti : String) (t : Table Client RefreshToken) : Prop := ∀ i r, Has t i r → r.jti ≠ jti

theorem findKey_unused (h : Unused jti t) : findKey c (fun r => decide (r.jti = jti)) t = none := by
  by_contra hne
  obtain ⟨i, hk⟩ := Option.ne_none_iff_exists'.mp hne
  obtain ⟨r, hv, hr⟩ := findKey_some hk
  have hi : Has t i r := by
    rcases ho : t.own c i with _ | ⟨v, w⟩
    · exact Or.inl ((Table.view_of_not_own ho).symm.trans hv)
    · obtain rfl : w = some r := (Table.view_of_own ho).symm.trans hv
      exact Or.inr ⟨c, v, ho⟩
  exact h i r hi (of_decide_eq_true hr)

theorem committedKey_unused (h : Unused jti t) : committedKey (fun r => decide (r.jti = jti)) t = none := by
  by_contra hne
  obtain ⟨i, hk⟩ := Option.ne_none_iff_exists'.mp hne
  obtain ⟨r, hc, hr⟩ := committedKey_some hk
  exact h i r (Or.inl hc) (of_decide_eq_true hr)

/-- A consumption takes away a live row, or finds none. -/
theorem consumeToken_cases {now : Nat} {owner : Option Nat} (h : consumeToken now jti t = some (owner, t')) :
    (owner = none ∧ t' = t) ∨ ∃ i r, t.committed i = some r ∧ (t.cell i).held = none ∧ r.jti = jti ∧
      r.revokedAt = none ∧ now < r.expiresAt ∧ owner = some r.userId ∧ t' = t.store i none := by
  unfold consumeToken at h
  split at h
  · cases h
    exact Or.inl ⟨rfl, rfl⟩
  · rename_i i hk
    obtain ⟨r, hc, hr⟩ := committedKey_some hk
    simp only [Bool.and_eq_true, decide_eq_true_eq, Option.isNone_iff_eq_none] at hr
    split at h
    · cases h
    · rename_i hh
      cases h
      refine Or.inr ⟨i, r, hc, by simpa using hh, hr.1.1, hr.1.2, hr.2, ?_, rfl⟩
      rw [hc]
      rfl

/-- A revocation marks a row of the `jti`, or finds none. -/
theorem revokeToken_cases {now : Nat} (h : revokeToken now jti t = some t') :
    ((∀ i r, t.committed i = some r → r.jti ≠ jti) ∧ t' = t) ∨
      ∃ i r, t.committed i = some r ∧ (t.cell i).held = none ∧ r.jti = jti ∧
        t' = t.store i (some { r with revokedAt := some now }) := by
  unfold revokeToken at h
  split at h
  · rename_i hk
    cases h
    refine Or.inl ⟨fun i r hc hr => ?_, rfl⟩
    simpa [hr] using committedKey_none hk hc
  · rename_i i hk
    obtain ⟨r, hc, hr⟩ := committedKey_some hk
    split at h
    · cases h
    · rename_i hh
      cases h
      refine Or.inr ⟨i, r, hc, by simpa using hh, by simpa using hr, ?_⟩
      rw [hc]
      rfl

/-- A write of a statement, whose new row has the `jti` that the statement saves. -/
def Writes (c : Client) (q : Stmt) (r : Answer q) (t t' : Table Client RefreshToken) : Prop :=
  ∃ new, TokenWrite c t (q.pending r) new t' ∧ ∀ row, new = some row → q.stored r = some row.jti

theorem Writes.same {q : Stmt} {r : Answer q} (h : q.pending r = none) : Writes c q r t t :=
  ⟨none, h ▸ .same, nofun⟩

/-- The statements of the OTP flows that write refresh tokens. -/
def tokenStatement : Auth.Stmt → Bool
  | .insertRefreshToken _ _ _ => true
  | .commit => true
  | .rollback => true
  | _ => false

theorem otp_tokens_same {q : Auth.Stmt} {r : Auth.Answer q} {ad ad' : Auth.Db} {env : Auth.Env}
    (h : Auth.exec env draw c q ad = some (r, ad')) (hq : tokenStatement q = false) : ad'.tokens = ad.tokens := by
  cases q with
  | commit | rollback | insertRefreshToken => cases hq
  | insertUser name phone email address passwordHash =>
    simp only [Auth.exec, insertUser] at h
    split at h
    · cases h
      rfl
    split at h
    · cases h
    · cases h
      rfl
  | updatePassword hash i =>
    simp only [Auth.exec] at h
    split at h
    · cases h
      rfl
    · split at h
      · cases h
        rfl
      · cases h
  | upsertPending | selectPendingForUpdate | deletePending | deleteExpiredPending =>
    obtain ⟨p, w, rfl⟩ := exec_pendingOnly rfl h
    rfl
  | _ =>
    cases h
    rfl

theorem otp_tokens {q : Auth.Stmt} {r : Auth.Answer q} {ad ad' : Auth.Db} {env : Auth.Env}
    (h : Auth.exec env draw c q ad = some (r, ad'))
    (hf : ∀ jti, (Stmt.auth q).saves = some jti → Unused jti ad.tokens) :
    Writes c (.auth q) r ad.tokens ad'.tokens := by
  cases q with
  | commit =>
    cases h
    exact ⟨none, .commit, nofun⟩
  | rollback =>
    cases h
    exact ⟨none, .rollback, nofun⟩
  | insertRefreshToken jti userId ttlSeconds =>
    simp only [Auth.exec, insertRefreshToken, findKey_unused (hf jti rfl)] at h
    split at h
    · cases h
    · cases h
      refine ⟨_, .insert, ?_⟩
      rintro _ ⟨⟩
      rfl
  | _ =>
    rw [otp_tokens_same h rfl]
    exact Writes.same rfl

theorem exec_tokens {q : Stmt} {r : Answer q} (h : exec env draw c q d = some (r, d'))
    (hf : ∀ jti, q.saves = some jti → Unused jti d.auth.tokens) :
    Writes c q r d.auth.tokens d'.auth.tokens := by
  cases q with
  | auth q => cases h
  | insertRefreshToken jti userId ttlSeconds =>
    obtain ⟨t, hx, he⟩ := Option.map_eq_some_iff.mp h
    cases he
    simp only [saveToken, committedKey_unused (hf jti rfl)] at hx
    split at hx
    · cases hx
    · cases hx
      refine ⟨_, .append, ?_⟩
      rintro _ ⟨⟩
      rfl
  | consumeRefreshToken jti =>
    obtain ⟨⟨owner, t⟩, hx, he⟩ := Option.map_eq_some_iff.mp h
    cases he
    rcases consumeToken_cases hx with ⟨-, rfl⟩ | ⟨i, row, hc, hh, -, -, -, -, rfl⟩
    · exact Writes.same rfl
    · exact ⟨none, .remove hc hh, nofun⟩
  | revokeRefreshToken jti =>
    obtain ⟨t, hx, he⟩ := Option.map_eq_some_iff.mp h
    cases he
    rcases revokeToken_cases hx with ⟨-, rfl⟩ | ⟨i, row, hc, hh, -, rfl⟩
    · exact Writes.same rfl
    · exact ⟨none, .revoke hc hh, nofun⟩
  | updateIsAdmin | updateStatus | deleteUser =>
    obtain ⟨x, -, he⟩ := Option.map_eq_some_iff.mp h
    cases he
    exact Writes.same rfl
  | _ =>
    cases h
    exact Writes.same rfl

/-- What a statement does to the rows, where it saves no `jti` that a row has. -/
theorem act_tokens {q : Stmt} {r : Answer q} (h : act env m c q d = some (r, d'))
    (hf : ∀ jti, q.saves = some jti → Unused jti d.auth.tokens) :
    Writes c q r d.auth.tokens d'.auth.tokens := by
  obtain ⟨d₁, ha, rfl⟩ := act_acted h
  cases ha with
  | @otp _ q _ _ ha =>
    cases m with
    | run wait draw =>
      obtain ⟨ad₁, hx, rfl⟩ := act_run ha
      have hs := otp_tokens hx hf
      exact hs
    | fail e =>
      obtain ⟨rfl, rfl⟩ := act_fail ha
      refine Writes.same ?_
      cases q <;> rfl
  | run hx =>
    have hs := exec_tokens hx hf
    exact hs
  | fail hq =>
    refine Writes.same ?_
    cases q with
    | auth q => exact absurd rfl (hq q)
    | _ => rfl

theorem exec_saved {q : Stmt} {r : Answer q} (h : exec env draw c q d = some (r, d')) :
    d'.saved = d.saved ∧ d'.auth.clock = d.auth.clock := by
  cases q with
  | auth q => cases h
  | insertRefreshToken | consumeRefreshToken | revokeRefreshToken | updateIsAdmin | updateStatus | deleteUser =>
    obtain ⟨x, -, he⟩ := Option.map_eq_some_iff.mp h
    cases he
    exact ⟨rfl, rfl⟩
  | _ =>
    cases h
    exact ⟨rfl, rfl⟩

/-- The history and the clock. -/
theorem act_saved {q : Stmt} {r : Answer q} (h : act env m c q d = some (r, d')) :
    d'.saved = (q.stored r).toList ++ d.saved ∧ d.auth.clock ≤ d'.auth.clock := by
  obtain ⟨d₁, ha, rfl⟩ := act_acted h
  have hst : (q.stored r).toList = if r.isOk then q.saves.toList else [] := by
    unfold Stmt.stored
    cases q.saves <;> cases r <;> rfl
  rw [hst]
  cases ha with
  | otp ha => exact ⟨rfl, (act_rely ha (Nat.succ_ne_self c)).clock⟩
  | run hx =>
    obtain ⟨hs, hc⟩ := exec_saved hx
    exact ⟨by rw [hs], by rw [hc]; exact Nat.le_add_right _ _⟩
  | fail hq => exact ⟨rfl, Nat.le_refl _⟩

/-- Time goes on. -/
theorem clock_run {s t : State} {xs : List Taken} (hr : Trace.Run (Step (act env)) s xs t) :
    s.db.auth.clock ≤ t.db.auth.clock := by
  induction hr with
  | refl => exact Nat.le_refl _
  | step hs _ ih => exact Nat.le_trans (act_saved hs.acted).2 ih

/-- A token that is used up had a live row, which is gone. -/
theorem act_consumed {q : Stmt} {r : Answer q} (h : act env m c q d = some (r, d'))
    (hc : q.consumed r = some jti) :
    ∃ i row, d.auth.tokens.committed i = some row ∧ (d.auth.tokens.cell i).held = none ∧ row.jti = jti ∧
      row.revokedAt = none ∧ d'.auth.clock < row.expiresAt ∧ d'.auth.tokens = d.auth.tokens.store i none := by
  obtain ⟨d₁, ha, rfl⟩ := act_acted h
  cases ha with
  | otp ha => cases hc
  | run hx =>
    cases q with
    | consumeRefreshToken jti' =>
      obtain ⟨⟨owner, t⟩, hy, he⟩ := Option.map_eq_some_iff.mp hx
      cases he
      rcases consumeToken_cases hy with ⟨rfl, -⟩ | ⟨i, row, hcm, hh, hj, hr, hlt, rfl, rfl⟩
      · cases hc
      · cases hc
        exact ⟨i, row, hcm, hh, hj, hr, hlt, rfl⟩
    | auth q => cases hx
    | _ => cases hc
  | fail hq => cases q <;> cases hc

/-- A token that is revoked has no committed row, or a revoked one. -/
theorem act_revoked {q : Stmt} {r : Answer q} (h : act env m c q d = some (r, d'))
    (hc : q.revoked r = some jti) :
    ((∀ i row, d.auth.tokens.committed i = some row → row.jti ≠ jti) ∧ d'.auth.tokens = d.auth.tokens) ∨
      ∃ i row now, d.auth.tokens.committed i = some row ∧ (d.auth.tokens.cell i).held = none ∧ row.jti = jti ∧
        d'.auth.tokens = d.auth.tokens.store i (some { row with revokedAt := some now }) := by
  obtain ⟨d₁, ha, rfl⟩ := act_acted h
  cases ha with
  | otp ha => cases hc
  | run hx =>
    cases q with
    | revokeRefreshToken jti' =>
      obtain ⟨t, hy, he⟩ := Option.map_eq_some_iff.mp hx
      cases he
      cases hc
      rcases revokeToken_cases hy with ⟨hn, rfl⟩ | ⟨i, row, hcm, hh, hj, rfl⟩
      · exact Or.inl ⟨hn, rfl⟩
      · exact Or.inr ⟨i, row, _, hcm, hh, hj, rfl⟩
    | auth q => cases hx
    | _ => cases hc
  | fail hq => cases q <;> cases hc

/-- A token that is found invalid is so at this time. -/
theorem act_refused {q : Stmt} {r : Answer q} (h : act env m c q d = some (r, d')) (hc : q.refused r = true) :
    ∃ token secret, q = .verifyAsync token secret ∧ env.verifyAsync token secret d'.auth.clock = none := by
  obtain ⟨d₁, ha, rfl⟩ := act_acted h
  cases ha with
  | otp ha => cases hc
  | run hx =>
    cases q with
    | verifyAsync token secret =>
      cases hx
      rcases hp : env.verifyAsync token secret (tick _ d.auth).clock with _ | payload
      · exact ⟨token, secret, rfl, hp⟩
      · rw [hp] at hc
        cases hc
    | auth q => cases hx
    | _ => cases hc
  | fail hq => cases q <;> cases hc

/-- The statements of Redis. -/
def Stmt.redis : Stmt → Bool
  | .redisSet _ _ _ => true
  | .redisDel _ => true
  | _ => false

/-- Where only Redis fails, no check and no revocation does. -/
theorem act_broken {q : Stmt} {r : Answer q} (h : act env m c q d = some (r, d'))
    (hm : ∀ e, m = .fail e → q.redis = true) : q.broken r = false := by
  obtain ⟨d₁, ha, rfl⟩ := act_acted h
  cases ha with
  | otp ha => rfl
  | run hx =>
    cases q with
    | verifyAsync token secret =>
      cases hx
      rfl
    | revokeRefreshToken jti =>
      obtain ⟨t, -, he⟩ := Option.map_eq_some_iff.mp hx
      cases he
      rfl
    | auth q => cases hx
    | _ => rfl
  | fail hq =>
    have hredis := hm _ rfl
    cases q <;> first | rfl | cases hredis

end Statements

section Freshness

/-- A `jti` that is saved is fresh. -/
def Fresh (q : Stmt) (d : Db) : Prop := ∀ jti, q.saves = some jti → jti ∉ d.saved

/-- All rows have `jti`s that were saved. -/
def Known (d : Db) : Prop := ∀ i r, Has d.auth.tokens i r → r.jti ∈ d.saved

variable {q : Stmt} {r : Answer q}

theorem saves_of_stored (h : q.stored r = some jti) : q.saves = some jti :=
  (Option.filter_eq_some_iff.mp h).1

theorem act_saves (h : act env m c q d = some (r, d')) : d.saved ⊆ d'.saved := by
  rw [(act_saved h).1]
  exact List.subset_append_right _ _

theorem act_stored (hf : Fresh q d) (h : act env m c q d = some (r, d')) (hj : q.stored r = some jti) :
    jti ∉ d.saved ∧ jti ∈ d'.saved := by
  refine ⟨hf jti (saves_of_stored hj), ?_⟩
  rw [(act_saved h).1, hj]
  exact List.mem_cons_self

/-- The write of a statement. -/
theorem Known.writes (hk : Known d) (hf : Fresh q d) (h : act env m c q d = some (r, d')) :
    Writes c q r d.auth.tokens d'.auth.tokens :=
  act_tokens h fun jti hj i row hrow he => hf jti hj (he ▸ hk i row hrow)

/-- A row after a statement: its `jti` is that of a row before, or it was saved now. -/
theorem Known.has {row : RefreshToken} (hk : Known d) (hf : Fresh q d) (h : act env m c q d = some (r, d'))
    (hrow : Has d'.auth.tokens i row) : (∃ row₀, Has d.auth.tokens i row₀ ∧ row₀.jti = row.jti) ∨
      (q.stored r = some row.jti ∧ i = d.auth.tokens.next) := by
  obtain ⟨new, hw, hnew⟩ := hk.writes hf h
  rcases hw.has hrow with hrow | ⟨row₀, now, hrow₀, rfl⟩ | ⟨hn, hi⟩
  · exact Or.inl ⟨row, hrow, rfl⟩
  · exact Or.inl ⟨row₀, hrow₀, rfl⟩
  · exact Or.inr ⟨hnew row hn, hi⟩

theorem Known.act (hk : Known d) (hf : Fresh q d) (h : act env m c q d = some (r, d')) : Known d' := by
  intro i row hrow
  rcases hk.has hf h hrow with ⟨row₀, hrow₀, hj⟩ | ⟨hj, -⟩
  · rw [← hj]
    exact act_saves h (hk i row₀ hrow₀)
  · exact (act_stored hf h hj).2

/-- What is spent stays spent. -/
theorem Spent.act (hs : Spent jti d) (hk : Known d) (hf : Fresh q d) (h : act env m c q d = some (r, d')) :
    Spent jti d' := by
  obtain ⟨new, hw, hnew⟩ := hk.writes hf h
  refine hs.write hw (fun row hrow he => ?_) (act_saves h) (act_saved h).2
  have hst := hnew row hrow
  rw [he] at hst
  exact (act_stored hf h hst).1 hs.1

/-- A live row shows that its `jti` is not spent. -/
theorem Spent.not_live {row : RefreshToken} {now : Nat} (h : Spent jti d) (hc : d.auth.tokens.committed i = some row)
    (hj : row.jti = jti) (hr : row.revokedAt = none) (hlt : now < row.expiresAt) (hnow : d.auth.clock ≤ now) : False := by
  rcases h.2 i row (Or.inl hc) hj with h | h
  · rw [hr] at h
    cases h
  · omega

end Freshness

end Kayan.Sessions
