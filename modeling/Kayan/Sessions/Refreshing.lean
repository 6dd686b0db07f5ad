import Kayan.Lib.Results
import Kayan.Sessions.Admins
import Kayan.Sessions.Jtis

/-!
# Refresh tokens are used once

A refresh takes the row of its token away, and a logout marks it. What holds of the rows and
the calls in every run where each `jti` is fresh and only Redis fails (`Jtis`), and from it:
one refresh for each token, none after its expiry and none after a logout.
-/
namespace Kayan.Sessions
open RowStore Interleave Auth

/-- The steps of a run where no token is forged, each `jti` is fresh, and only Redis fails. -/
structure Careful (env : Env) (s : State) (e : Taken) (t : State) : Prop where
  step : Step (act env) s e t
  genuine : Genuine s e
  fresh : ∀ jti, e.stmt.saves = some jti → jti ∉ s.db.saved
  steady : ∀ err, e.move = .fail err → e.stmt.redis = true

/-- What holds of the rows of the refresh tokens and of the calls that use them. -/
structure Jtis (env : Env) (s : State) (ph : Client → Seen) : Prop where
  known : ∀ i r, Has s.db.auth.tokens i r → r.jti ∈ s.db.saved
  single : ∀ i j r r', Has s.db.auth.tokens i r → Has s.db.auth.tokens j r' → r.jti = r'.jti → i = j
  pending : ∀ c i v r, s.db.auth.tokens.own c i = some (v, some r) →
    (ph c).stored = some r.jti ∧ (ph c).pending = true
  stored : ∀ c jti, (ph c).stored = some jti → jti ∈ s.db.saved
  alone : ∀ b c jti, (ph b).stored = some jti → (ph c).stored = some jti → b = c
  used : ∀ c jti, (ph c).consumed = some jti → Spent jti s.db
  once : ∀ b c jti, (ph b).consumed = some jti → (ph c).consumed = some jti → b = c
  revoked : ∀ c jti, (ph c).revoked = some jti → Spent jti s.db
  sure : ∀ c, (ph c).broken = false
  refused : ∀ c, (ph c).refused = true → ∃ token secret now, (ph c).presents env token secret ∧
    now ≤ s.db.auth.clock ∧ env.verifyAsync token secret now = none

variable {env : Env} {req : Client → Request} {b c : Client} {d : Db} {s t : State} {e : Taken} {xs : List Taken}
  {ph : Client → Seen} {x : Seen} {q : Stmt} {r : Answer q} {jti : String} {i : Nat}

section Steps

theorem Jtis.has (h : Jtis env s ph) (hs : Careful env s e t) {r : RefreshToken} (hr : Has t.db.auth.tokens i r) :
    (∃ r₀, Has s.db.auth.tokens i r₀ ∧ r₀.jti = r.jti) ∨
      (e.stmt.stored e.reply = some r.jti ∧ i = s.db.auth.tokens.next) :=
  Known.has h.known hs.fresh hs.step.acted hr

theorem Careful.stored (hs : Careful env s e t) (hj : e.stmt.stored e.reply = some jti) :
    jti ∉ s.db.saved ∧ jti ∈ t.db.saved :=
  act_stored hs.fresh hs.step.acted hj

theorem Jtis.spent (h : Jtis env s ph) (hs : Careful env s e t) (hj : Spent jti s.db) : Spent jti t.db :=
  hj.act h.known hs.fresh hs.step.acted

/-- A call saves one token at most. -/
theorem stored_of_may (hm : x.may env q) (h : q.stored r = some jti) : x.stored = none := by
  have hs := saves_of_stored h
  obtain ⟨-, hm⟩ := hm
  cases q with
  | auth q =>
    cases q with
    | insertRefreshToken => exact hm
    | _ => cases hs
  | insertRefreshToken => exact hm
  | _ => cases hs

/-- A call revokes the token that it has verified. -/
theorem revoked_of_may (hm : x.may env q) (h : q.revoked r = some jti) :
    ∃ v, x.verified = some v ∧ jtiOf v.2 = some jti := by
  obtain ⟨-, hm⟩ := hm
  cases q with
  | revokeRefreshToken jti' =>
    cases r with
    | ok u =>
      cases h
      exact hm
    | error err => cases h
  | _ => cases h

theorem jti_of_claims {p : TokenPayload} (h : jtiOf (claims p) = some jti) : p.jti = some jti := by
  obtain ⟨sub, email, isAdmin, tokenVersion, _ | k⟩ := p
  · cases h
  · by_cases hk : k = ""
    · subst hk
      cases h
    · have hj : jtiOf (claims ⟨sub, email, isAdmin, tokenVersion, some k⟩) = some k := if_neg hk
      exact hj.symm.trans h

/-- A verified token names the `jti` that an ended call has saved. -/
theorem Sound.saver {v : String × JwtPayload} (h : Sound env s ph x v) (hj : jtiOf v.2 = some jti) :
    ∃ b, (ph b).stored = some jti ∧ (ph b).pending = false := by
  obtain ⟨b, r, a, jti', secret, ttl, issued, -, -, -, hp, hs, -, hc⟩ := h.issued
  rw [hc] at hj
  obtain rfl : jti' = some jti := jti_of_claims hj
  rcases hs with hs | hs
  · cases hs
  · exact ⟨b, hs.symm, hp⟩

theorem Jtis.single_step (h : Jtis env s ph) (hs : Careful env s e t) (i j : Nat) (r r' : RefreshToken)
    (hr : Has t.db.auth.tokens i r) (hr' : Has t.db.auth.tokens j r') (hjti : r.jti = r'.jti) : i = j := by
  rcases h.has hs hr with ⟨r₀, hr₀, hj⟩ | ⟨hj, hi⟩
  · rcases h.has hs hr' with ⟨r₁, hr₁, hj'⟩ | ⟨hj', -⟩
    · exact h.single i j r₀ r₁ hr₀ hr₁ (hj.trans (hjti.trans hj'.symm))
    · refine absurd ?_ (hs.stored hj').1
      rw [← hjti, ← hj]
      exact h.known i r₀ hr₀
  · rcases h.has hs hr' with ⟨r₁, hr₁, hj'⟩ | ⟨-, hi'⟩
    · refine absurd ?_ (hs.stored hj).1
      rw [hjti, ← hj']
      exact h.known j r₁ hr₁
    · exact hi.trans hi'.symm

/-- A pending row belongs to the call that has saved its `jti`. -/
theorem Jtis.pending_step (hi : Inv env req s ph) (h : Jtis env s ph) (hs : Careful env s e t) (c : Client)
    (i : Nat) (v : Option RefreshToken) (r : RefreshToken)
    (hr : t.db.auth.tokens.own c i = some (v, some r)) :
    (noted Seen.after ph e c).stored = some r.jti ∧ (noted Seen.after ph e c).pending = true := by
  obtain ⟨new, hw, hnew⟩ := Known.writes h.known hs.fresh hs.step.acted
  have hm := (hi.phase.noted hs.step).1
  rcases noted_or Seen.after ph e c with ⟨rfl, hn⟩ | ⟨hc, hn⟩
  · rw [hn]
    rcases hw.own hr with ⟨hr, hp⟩ | ⟨-, hp, token, ht, he⟩
    · obtain ⟨hst, hpend⟩ := h.pending _ i v r hr
      have hnone : e.stmt.stored e.reply = none := by
        by_contra hne
        obtain ⟨jti, hj⟩ := Option.ne_none_iff_exists'.mp hne
        cases hst.symm.trans (stored_of_may hm hj)
      simp only [Seen.after, hnone, hst, hpend]
      refine ⟨rfl, ?_⟩
      have hne := hp rfl
      revert hne
      rcases e.stmt.pending e.reply with _ | _ | _ <;> simp
    · cases he
      simp only [Seen.after, hp, hnew r ht]
      exact ⟨rfl, rfl⟩
  · rw [hn]
    rcases hw.own hr with ⟨hr, -⟩ | ⟨he, -⟩
    · exact h.pending c i v r hr
    · exact absurd he hc

theorem Jtis.stored_step (h : Jtis env s ph) (hs : Careful env s e t) (c : Client) (jti : String)
    (hst : (noted Seen.after ph e c).stored = some jti) : jti ∈ t.db.saved := by
  rcases noted_field Seen.stored Stmt.stored (fun _ _ _ => rfl) hst with hold | ⟨-, hnew⟩
  · exact act_saves hs.step.acted (h.stored c jti hold)
  · exact (hs.stored hnew).2

theorem Jtis.alone_step (h : Jtis env s ph) (hs : Careful env s e t) (b c : Client) (jti : String)
    (hb : (noted Seen.after ph e b).stored = some jti) (hc : (noted Seen.after ph e c).stored = some jti) :
    b = c := by
  rcases noted_field Seen.stored Stmt.stored (fun _ _ _ => rfl) hb with hb | ⟨hb, hnew⟩
  · rcases noted_field Seen.stored Stmt.stored (fun _ _ _ => rfl) hc with hc | ⟨-, hnew⟩
    · exact h.alone b c jti hb hc
    · exact absurd (h.stored b jti hb) (hs.stored hnew).1
  · rcases noted_field Seen.stored Stmt.stored (fun _ _ _ => rfl) hc with hc | ⟨hc, -⟩
    · exact absurd (h.stored c jti hc) (hs.stored hnew).1
    · exact hb.trans hc.symm

/-- A step that uses a token up finds it unspent and leaves it spent. -/
theorem Jtis.consumes (h : Jtis env s ph) (hs : Careful env s e t) (hj : e.stmt.consumed e.reply = some jti) :
    ¬ Spent jti s.db ∧ Spent jti t.db := by
  obtain ⟨i, row, hc, hh, rfl, hrev, hlt, ht⟩ := act_consumed hs.step.acted hj
  refine ⟨fun hsp => hsp.not_live hc rfl hrev hlt (act_saved hs.step.acted).2, ?_⟩
  refine ⟨act_saves hs.step.acted (h.known i row (Or.inl hc)), fun j r hr hjti => ?_⟩
  have hold : Has s.db.auth.tokens j r ∧ j ≠ i := by
    rw [ht] at hr
    rcases hr with hr | ⟨b, v, hr⟩
    · rw [Table.committed_store (Table.lt_of_committed hc)] at hr
      split at hr
      · cases hr
      · rename_i hne
        exact ⟨Or.inl hr, hne⟩
    · rw [Table.own_store hh] at hr
      refine ⟨Or.inr ⟨b, v, hr⟩, ?_⟩
      rintro rfl
      simp [Table.own, Cell.own, hh] at hr
  exact absurd (h.single j i r row hold.1 (Or.inl hc) hjti) hold.2

/-- A step that revokes a token leaves it spent. -/
theorem Jtis.revokes (hi : Inv env req s ph) (h : Jtis env s ph) (hs : Careful env s e t)
    (hj : e.stmt.revoked e.reply = some jti) : Spent jti t.db := by
  obtain ⟨v, hv, hjv⟩ := revoked_of_may (hi.phase.noted hs.step).1 hj
  obtain ⟨b, hb, hpb⟩ := (hi.sound _ v hv).saver hjv
  -- no open transaction holds a row of the `jti`: its call has ended
  have hfree : ∀ c i v r, s.db.auth.tokens.own c i = some (v, some r) → r.jti ≠ jti := by
    rintro c i v r hr rfl
    obtain ⟨hst, hpend⟩ := h.pending c i v r hr
    cases h.alone b c _ hb hst
    cases hpb.symm.trans hpend
  refine ⟨act_saves hs.step.acted (h.stored b jti hb), fun j r hr hjti => ?_⟩
  rcases act_revoked hs.step.acted hj with ⟨hnone, ht⟩ | ⟨i, row, now, hc, hh, hrow, ht⟩
  · rw [ht] at hr
    rcases hr with hr | ⟨c, v, hr⟩
    · exact absurd hjti (hnone j r hr)
    · exact absurd hjti (hfree c j v r hr)
  · rw [ht] at hr
    rcases hr with hr | ⟨c, v, hr⟩
    · rw [Table.committed_store (Table.lt_of_committed hc)] at hr
      split at hr
      · cases hr
        exact Or.inl rfl
      · rename_i hne
        exact absurd (h.single j i r row (Or.inl hr) (Or.inl hc) (hjti.trans hrow.symm)) hne
    · rw [Table.own_store hh] at hr
      exact absurd hjti (hfree c j v r hr)

theorem Jtis.once_step (h : Jtis env s ph) (hs : Careful env s e t) (b c : Client) (jti : String)
    (hb : (noted Seen.after ph e b).consumed = some jti) (hc : (noted Seen.after ph e c).consumed = some jti) :
    b = c := by
  rcases noted_field Seen.consumed Stmt.consumed (fun _ _ _ => rfl) hb with hb | ⟨hb, hnew⟩
  · rcases noted_field Seen.consumed Stmt.consumed (fun _ _ _ => rfl) hc with hc | ⟨-, hnew⟩
    · exact h.once b c jti hb hc
    · exact absurd (h.used b jti hb) (h.consumes hs hnew).1
  · rcases noted_field Seen.consumed Stmt.consumed (fun _ _ _ => rfl) hc with hc | ⟨hc, -⟩
    · exact absurd (h.used c jti hc) (h.consumes hs hnew).1
    · exact hb.trans hc.symm

theorem Jtis.refused_step (hi : Inv env req s ph) (h : Jtis env s ph) (hs : Careful env s e t) (c : Client)
    (hc : (noted Seen.after ph e c).refused = true) : ∃ token secret now,
      (noted Seen.after ph e c).presents env token secret ∧ now ≤ t.db.auth.clock ∧
        env.verifyAsync token secret now = none := by
  have hle := (act_saved hs.step.acted).2
  have hm := (hi.phase.noted hs.step).1
  rcases noted_or Seen.after ph e c with ⟨rfl, hn⟩ | ⟨-, hn⟩
  · rw [hn] at hc ⊢
    rcases Bool.or_eq_true_iff.mp hc with hq | hold
    · obtain ⟨token, secret, hstmt, hv⟩ := act_refused hs.step.acted hq
      rw [hstmt] at hm
      exact ⟨token, secret, _, hm.2, Nat.le_refl _, hv⟩
    · obtain ⟨token, secret, now, hp, hnow, hv⟩ := h.refused _ hold
      exact ⟨token, secret, now, hp, Nat.le_trans hnow hle, hv⟩
  · rw [hn] at hc ⊢
    obtain ⟨token, secret, now, hp, hnow, hv⟩ := h.refused c hc
    exact ⟨token, secret, now, hp, Nat.le_trans hnow hle, hv⟩

theorem Jtis.step (hi : Inv env req s ph) (h : Jtis env s ph) (hs : Careful env s e t) :
    Jtis env t (noted Seen.after ph e) where
  known := Known.act h.known hs.fresh hs.step.acted
  single := h.single_step hs
  pending := h.pending_step hi hs
  stored := h.stored_step hs
  alone := h.alone_step hs
  used c jti hc := by
    rcases noted_field Seen.consumed Stmt.consumed (fun _ _ _ => rfl) hc with hc | ⟨-, hnew⟩
    · exact h.spent hs (h.used c jti hc)
    · exact (h.consumes hs hnew).2
  once := h.once_step hs
  revoked c jti hc := by
    rcases noted_field Seen.revoked Stmt.revoked (fun _ _ _ => rfl) hc with hc | ⟨-, hnew⟩
    · exact h.spent hs (h.revoked c jti hc)
    · exact h.revokes hi hs hnew
  sure c := by
    rcases noted_or Seen.after ph e c with ⟨rfl, hn⟩ | ⟨-, hn⟩
    · rw [hn]
      exact Bool.or_eq_false_iff.mpr ⟨act_broken hs.step.acted hs.steady, h.sure _⟩
    · rw [hn]
      exact h.sure c
  refused := h.refused_step hi hs

end Steps

section Runs

/-- A token that verifies has verified since it was signed. -/
def Lasting (env : Env) : Prop :=
  ∀ p secret ttl issued secret' now later, now ≤ later →
    env.verifyAsync (env.signAsync p secret ttl issued) secret' now = none →
    env.verifyAsync (env.signAsync p secret ttl issued) secret' later = none

/-- The call has succeeded. -/
def Succeeded (c : Client) (s : State) : Prop := ∃ r, s.prog c = .ret (.ok r)

/-- The step takes away a row of the `jti` that is neither revoked nor expired. -/
def UsesUp (jti : String) (s t : State) : Prop :=
  ∃ i row, s.db.auth.tokens.committed i = some row ∧ row.jti = jti ∧ row.revokedAt = none ∧
    t.db.auth.clock < row.expiresAt ∧ t.db.auth.tokens.committed i = none

theorem Careful.honest (hs : Careful env s e t) : Honest env s e t := ⟨hs.step, hs.genuine⟩

theorem Jtis.start (hd : Starting d) : Jtis env (initial env req d) (Sessions.start req) := by
  have hnone : ∀ i r, ¬ Has d.auth.tokens i r := by
    rintro i r (h | ⟨c, v, h⟩)
    · simp [Table.committed, hd.unissued] at h
    · simp [Table.own, Cell.own, hd.unissued] at h
  exact
    { known := fun i r h => absurd h (hnone i r)
      single := fun i j r r' h => absurd h (hnone i r)
      pending := fun c i v r h => absurd (Or.inr ⟨c, v, h⟩) (hnone i r)
      stored := fun c jti h => by cases h
      alone := fun b c jti h => by cases h
      used := fun c jti h => by cases h
      once := fun b c jti h => by cases h
      revoked := fun c jti h => by cases h
      sure := fun c => rfl
      refused := fun c h => by cases h }

/-- Both invariants over whole runs. -/
theorem Jtis.run (hdec : Decodes env) (hi : Inv env req s ph) (h : Jtis env s ph)
    (hr : Trace.Run (Careful env) s xs t) :
    Inv env req t (xs.foldl (noted Seen.after) ph) ∧ Jtis env t (xs.foldl (noted Seen.after) ph) := by
  refine (kept_run Seen.after hr ph).preserves
    (I := fun u => Inv env req u.1 u.2 ∧ Jtis env u.1 u.2) ?_ ⟨hi, h⟩
  rintro ⟨s, ph⟩ e ⟨t, ph'⟩ ⟨hs, rfl⟩ ⟨hi, h⟩
  exact ⟨hi.step hdec hs.honest, h.step hi hs⟩

theorem Jtis.reached (hdec : Decodes env) (hd : Starting d)
    (hr : Trace.Run (Careful env) (initial env req d) xs t) :
    Inv env req t (seen req xs) ∧ Jtis env t (seen req xs) :=
  (Jtis.start hd).run hdec (Inv.start hd) hr

/-- What is spent stays spent over whole runs, and time goes on. -/
theorem Jtis.spent_run (hdec : Decodes env) (hi : Inv env req s ph) (h : Jtis env s ph)
    (hr : Trace.Run (Careful env) s xs t) (hj : Spent jti s.db) : Spent jti t.db := by
  refine ((kept_run Seen.after hr ph).preserves
    (I := fun u => Inv env req u.1 u.2 ∧ Jtis env u.1 u.2 ∧ Spent jti u.1.db) ?_ ⟨hi, h, hj⟩).2.2
  rintro ⟨s, ph⟩ e ⟨t, ph'⟩ ⟨hs, rfl⟩ ⟨hi, h, hj⟩
  exact ⟨hi.step hdec hs.honest, h.step hi hs, h.spent hs hj⟩

/-- All checks of one token show the same payload. -/
theorem Sound.payload {y : Seen} {ph' : Client → Seen} {token : String} {p p' : JwtPayload}
    (hdec : Decodes env) (h : Sound env s ph x (token, p)) (h' : Sound env t ph' y (token, p')) : p' = p := by
  obtain ⟨b, r, a, jti, secret, ttl, issued, -, -, -, -, -, htoken, hp⟩ := h.issued
  obtain ⟨secret', now, -, hv⟩ := h'.checked
  have htoken : token = env.signAsync (payloadOf a jti) secret ttl issued := htoken
  rw [htoken] at hv
  exact (hdec _ _ _ _ _ _ _ hv).trans hp.symm

/-- A refresh checks its token with the secret of refresh tokens. -/
theorem presents_refresh {token secret : String} (h : x.presents env token secret) (hx : x.req = .refresh token) :
    secret = env.config.jwtRefreshSecret := by
  rcases h with ⟨-, hs⟩ | ⟨hp, -⟩
  · exact hs
  · cases hx.symm.trans hp

/-- A refresh that has succeeded has used up the token that it was given. -/
theorem Inv.refreshed {token : String} (hi : Inv env req t ph) (hq : req c = .refresh token)
    (hc : Succeeded c t) : ∃ payload jti, (ph c).verified = some (token, payload) ∧
      Sound env t ph (ph c) (token, payload) ∧ jtiOf payload = some jti ∧ (ph c).consumed = some jti := by
  obtain ⟨r, hr⟩ := hc
  obtain ⟨-, -, hs⟩ := hi.phase.result hr r rfl
  have hasked := (hi.asked c).trans hq
  simp only [Seen.settles, hasked] at hs
  obtain ⟨payload, jti, -, -, hv, hj, hcons, -⟩ := hs
  exact ⟨payload, jti, hv, hi.sound c _ hv, hj, hcons⟩

/-- Two refreshes with one token are one. -/
theorem Jtis.refreshed_once {token : String} (hdec : Decodes env) (hi : Inv env req t ph) (h : Jtis env t ph)
    (hb : req b = .refresh token) (hc : req c = .refresh token) (hsb : Succeeded b t) (hsc : Succeeded c t) :
    b = c := by
  obtain ⟨p, jti, -, hp, hj, hcons⟩ := hi.refreshed hb hsb
  obtain ⟨p', jti', -, hp', hj', hcons'⟩ := hi.refreshed hc hsc
  obtain rfl := hp.payload hdec hp'
  cases hj.symm.trans hj'
  exact h.once b c jti hcons hcons'

/-- A logout does not throw. -/
theorem logout_returns {token : String} {res : Except Failure Result}
    (h : Yields ((Request.logout token).code env).run res) : ∃ r, res = .ok r := by
  obtain ⟨o, hy, ho⟩ := yields_bind h
  have hbody : ∃ body, o = .ok body := by
    obtain ⟨o', hy', ho'⟩ := yields_bind hy
    obtain ⟨o'', -, ho''⟩ := yields_bind hy'
    cases o'' with
    | ok u =>
      obtain rfl := yields_ret ho''
      exact ⟨_, (yields_ret ho').symm⟩
    | error err =>
      obtain rfl := yields_ret ho''
      exact ⟨_, (yields_ret ho').symm⟩
  obtain ⟨body, rfl⟩ := hbody
  exact ⟨_, (yields_ret ho).symm⟩

/-- What a completed logout shows of its token: it had become invalid, or its `jti` is spent. -/
theorem Jtis.logged_out {token : String} (hi : Inv env req s ph) (h : Jtis env s ph)
    (hb : req b = .logout token) {r : Result} (hr : s.prog b = .ret (.ok r)) :
    (∃ now, now ≤ s.db.auth.clock ∧ env.verifyAsync token env.config.jwtRefreshSecret now = none) ∨
      ∃ payload, Sound env s ph (ph b) (token, payload) ∧ ∀ jti, jtiOf payload = some jti → Spent jti s.db := by
  obtain ⟨-, -, hs⟩ := hi.phase.result hr r rfl
  have hasked := (hi.asked b).trans hb
  simp only [Seen.settles, hasked] at hs
  rcases hs with hs | hs | ⟨payload, hv, hrev⟩
  · obtain ⟨token', secret, now, hp, hle, hv⟩ := h.refused b hs
    left
    rcases hp with ⟨hp | hp, rfl⟩ | ⟨hp, -⟩
    · cases hasked.symm.trans hp
    · cases hasked.symm.trans hp
      exact ⟨now, hle, hv⟩
    · cases hasked.symm.trans hp
  · rw [h.sure b] at hs
    cases hs
  · exact Or.inr ⟨payload, hi.sound b _ hv, fun jti hj => h.revoked b jti (hrev jti hj)⟩

/-- No refresh that begins after a logout with its token has completed succeeds. -/
theorem Jtis.no_refresh_after {token : String} {ys zs : List Taken} (hdec : Decodes env)
    (hlast : Lasting env) (hd : Starting d) (hys : Trace.Run (Careful env) (initial env req d) ys s)
    (hzs : Trace.Run (Careful env) s zs t) (hb : req b = .logout token) (hended : (s.prog b).ended = true)
    (hc : req c = .refresh token) (hidle : ∀ e ∈ ys, e.client ≠ c) : ¬ Succeeded c t := by
  intro hsc
  obtain ⟨hi, h⟩ := Jtis.reached hdec hd hys
  obtain ⟨ht, -⟩ := h.run hdec hi hzs
  obtain ⟨payload, jti, hverified, hsound, hj, hcons⟩ := ht.refreshed hc hsc
  -- the refresh has checked its token after the logout
  have hstart : seen req ys c = Seen.start (req c) := notes_of_idle _ _ hidle
  have hver : ∃ now, s.db.auth.clock ≤ now ∧
      env.verifyAsync token env.config.jwtRefreshSecret now = some payload := by
    obtain ⟨ys', e, zs', u, w, -, hu, hs, -, hce, hq⟩ := noted_trace Seen.verified Stmt.verified
      (fun _ _ _ => rfl) hzs (by rw [hstart]; nofun) hverified
    obtain ⟨hiu, -⟩ := h.run hdec hi hu
    obtain ⟨secret, hstmt, hv⟩ := act_verified hs.step.acted hq
    have hm := (hiu.phase.noted hs.step).1
    rw [hstmt, hce] at hm
    refine ⟨_, Nat.le_trans (clock_run (hu.mono fun _ _ _ hs => hs.step)) (act_saved hs.step.acted).2, ?_⟩
    rw [← presents_refresh hm.2 ((hiu.asked c).trans hc)]
    exact hv
  obtain ⟨res, hres⟩ := Prog.ended_ret hended
  obtain ⟨r, rfl⟩ : ∃ r, res = .ok r := by
    have hy := yields_of_run (hys.mono fun _ _ _ hs => hs.step) hres
    have hprog : (initial env req d).prog b = ((Request.logout token).code env).run := by
      rw [← hb]
      rfl
    rw [hprog] at hy
    exact logout_returns hy
  rcases h.logged_out hi hb hres with ⟨now, hle, hnone⟩ | ⟨payload', hsound', hspent⟩
  · obtain ⟨later, hlater, hsome⟩ := hver
    obtain ⟨b', r', a, jti', secret, ttl, issued, -, -, -, -, -, htoken, -⟩ := hsound.issued
    have htoken : token = env.signAsync (payloadOf a jti') secret ttl issued := htoken
    rw [htoken] at hnone hsome
    have hbad := hlast _ _ _ _ _ _ _ (Nat.le_trans hle hlater) hnone
    rw [hbad] at hsome
    cases hsome
  · obtain rfl := hsound'.payload hdec hsound
    have hsp := hspent jti hj
    -- its `DELETE` comes after the logout as well, when the `jti` is spent
    obtain ⟨ys', e, zs', u, v, -, hu, hs, -, -, hused⟩ := noted_trace Seen.consumed Stmt.consumed
      (fun _ _ _ => rfl) hzs (c := c) (b := jti) (by rw [hstart]; nofun) hcons
    obtain ⟨hiu, hu'⟩ := h.run hdec hi hu
    exact (hu'.consumes hs hused).1 (h.spent_run hdec hi hu hsp)

/-- In every run where no token is forged, each `jti` is fresh and only Redis fails: a refresh
token leads to one successful refresh at most, which takes its row away while that is neither
revoked nor expired, and to none that begins after a logout with the token has completed. -/
theorem refresh_tokens_single_use (hdec : Decodes env) (hlast : Lasting env) (hd : Starting d)
    (hr : Trace.Run (Careful env) (initial env req d) xs t) :
    (∀ token b c, req b = .refresh token → req c = .refresh token → Succeeded b t → Succeeded c t → b = c) ∧
    (∀ token c, req c = .refresh token → Succeeded c t → ∃ payload jti now ys e zs u v,
      env.verifyAsync token env.config.jwtRefreshSecret now = some payload ∧ jtiOf payload = some jti ∧
      xs = ys ++ e :: zs ∧ Trace.Run (Careful env) (initial env req d) ys u ∧ Careful env u e v ∧
      Trace.Run (Careful env) v zs t ∧ e.client = c ∧ UsesUp jti u v) ∧
    ∀ token b c ys zs s, Trace.Run (Careful env) (initial env req d) ys s → Trace.Run (Careful env) s zs t →
      req b = .logout token → (s.prog b).ended = true → req c = .refresh token →
      (∀ e ∈ ys, e.client ≠ c) → ¬ Succeeded c t := by
  obtain ⟨hi, h⟩ := Jtis.reached hdec hd hr
  refine ⟨fun token b c hb hc hsb hsc => h.refreshed_once hdec hi hb hc hsb hsc, fun token c hc hsc => ?_,
    fun token b c ys zs s hys hzs hb hended hc hidle =>
      Jtis.no_refresh_after hdec hlast hd hys hzs hb hended hc hidle⟩
  obtain ⟨payload, jti, -, hsound, hj, hcons⟩ := hi.refreshed hc hsc
  obtain ⟨ys, e, zs, u, v, hxs, hu, hs, hz, hce, hused⟩ := noted_trace Seen.consumed Stmt.consumed
    (fun _ _ _ => rfl) hr (by nofun) hcons
  obtain ⟨i, row, hcm, -, hrow, hrev, hlt, ht⟩ := act_consumed hs.step.acted hused
  obtain ⟨secret, now, hp, hv⟩ := hsound.checked
  refine ⟨payload, jti, now, ys, e, zs, u, v, ?_, hj, hxs, hu, hs, hz, hce, i, row, hcm, hrow, hrev, hlt, ?_⟩
  · rw [← presents_refresh hp ((hi.asked c).trans hc)]
    exact hv
  · rw [ht, Table.committed_store (Table.lt_of_committed hcm), if_pos rfl]

end Runs

section Fixtures

theorem openEnv_lasting {b : Bool} : Lasting (openEnv b) := by
  intro p secret ttl issued secret' now later hle hnow
  rw [verify_openEnv] at hnow ⊢
  split at hnow
  · cases hnow
  · rename_i hn
    refine if_neg fun hl => hn ⟨hl.1, ?_⟩
    omega

/-- A step of a careful run. -/
def carefulBy (n : Nat) (s : State) (e : Taken) : Bool :=
  genuineBy n s e && e.stmt.saves.all (fun jti => jti ∉ s.db.saved) &&
    match e.move with
    | .fail _ => e.stmt.redis
    | .run _ _ => true

theorem carefulBy_careful {n : Nat} (hs : Step (act env) s e t) (h : carefulBy n s e = true) :
    Careful env s e t := by
  simp only [carefulBy, Bool.and_eq_true] at h
  obtain ⟨⟨hg, hf⟩, hm⟩ := h
  refine ⟨hs, genuineBy_genuine hg, fun jti hj => ?_, fun err he => ?_⟩
  · rw [hj] at hf
    exact of_decide_eq_true hf
  · rw [he] at hm
    exact hm

/-- Mona logs in; two calls refresh with her token; one of the new tokens is used to log out and
then to refresh. -/
def refreshes : Client → Request
  | 0 => .login "mona@shop.eg" "Secret123"
  | 1 | 2 => .refresh (refreshOf mona (hexOf 1))
  | 3 => .logout (refreshOf mona (hexOf 2))
  | _ => .refresh (refreshOf mona (hexOf 2))

/-- Redis fails when the first token is saved, and works from then on. -/
def refreshing : List (Client × Move) :=
  List.replicate 4 (0, .run 0 1) ++ [(0, .fail .connection), (0, .run 0 1)] ++ List.replicate 9 (1, .run 0 2) ++
    List.replicate 3 (2, .run 0 0) ++ List.replicate 3 (3, .run 0 0) ++ List.replicate 3 (4, .run 0 0)

/-- A call has returned a response. -/
def responded (c : Client) (t : State) : Bool :=
  match t.prog c with
  | .ret (.ok _) => true
  | _ => false

theorem responded_succeeded {t : State} (h : responded c t = true) : Succeeded c t := by
  unfold responded at h
  split at h
  · rename_i r hp
    exact ⟨r, hp⟩
  · cases h

/-- The first refresh with Mona's token and the logout succeed; the second refresh has run and
has not succeeded. -/
theorem refresh_tokens_single_use_replayed : ∃ xs t,
    Trace.Run (Careful (openEnv true)) (initial (openEnv true) refreshes shop) xs t ∧ Succeeded 1 t ∧
      Succeeded 3 t ∧ (t.prog 2).ended = true ∧ ¬ Succeeded 2 t := by
  have hplay : (replay (act (openEnv true)) (carefulBy 5) refreshing (initial (openEnv true) refreshes shop)).map
      (fun t => (responded 1 t, responded 3 t, (t.prog 2).ended)) = some (true, true, true) := by
    decide +kernel
  obtain ⟨xs, t, hr, ht⟩ := replay_run hplay
  simp only [Prod.mk.injEq] at ht
  obtain ⟨h₁, h₃, h₂⟩ := ht
  have hr := hr.mono fun _ _ _ h => carefulBy_careful h.1 h.2
  have h₁ := responded_succeeded h₁
  refine ⟨xs, t, hr, h₁, responded_succeeded h₃, h₂, fun hsc => ?_⟩
  have hsame := (refresh_tokens_single_use openEnv_decodes openEnv_lasting shop_starting hr).1
    (refreshOf mona (hexOf 1)) 1 2 rfl rfl h₁ hsc
  cases hsame

end Fixtures

end Kayan.Sessions
