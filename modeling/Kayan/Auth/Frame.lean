import Kayan.Auth.Service

/-!
# What the statements of the OTP flows change

`Change c d d'` lists what a statement of client `c`, `COMMIT` and `ROLLBACK` apart, can do
to the store. From it follows what the others keep: the time only goes on, and a client's
own versions, events and registrations stay as they are (`Rely`).
-/
namespace Kayan.Auth
open RowStore Interleave

/-- The pending registration that a statement may write. -/
def Stmt.written (env : Env) (d : Db) : Stmt → Option PendingRegistration
  | .upsertPending email phone name address passwordHash ttlMinutes =>
    some { email := env.lower email, phone := some phone, name, address, passwordHash,
           expiresAt := d.clock + ttlMinutes * minute, createdAt := d.clock }
  | _ => none

/-- The effects of the statements of `c` other than `COMMIT` and `ROLLBACK`, where `w` is
the pending registration that may be written. -/
inductive Change (c : Client) (w : Option PendingRegistration) (d : Db) : Db → Prop
  | same : Change c w d d
  | began {t : Nat} : Change c w d { d with began := Function.update d.began c t }
  | otps {rows : List AuthOtp} {next : Nat} (hr : ∀ r ∈ rows, r ∈ d.otps ∨ r.usedAt = none) :
      Change c w d { d with otps := rows, nextOtp := next }
  | attempts {f : String → OtpPurpose → Option OtpAttempts} : Change c w d { d with attempts := f }
  | appendPending {row : PendingRegistration} (hw : w = some row)
      (he : ∀ i r, d.pending.committed i = some r → r.email ≠ row.email) :
      Change c w d { d with pending := d.pending.append row, writes := ⟨c, row⟩ :: d.writes }
  | storePending {i : Nat} {r row : PendingRegistration} (hw : w = some row)
      (hc : d.pending.committed i = some r) (he : r.email = row.email) (hh : (d.pending.cell i).held = none) :
      Change c w d { d with pending := d.pending.store i (some row), writes := ⟨c, row⟩ :: d.writes }
  | lockPending {i : Nat} {r : PendingRegistration} (hv : d.pending.view c i = some r)
      (hf : d.pending.free c i = true) : Change c w d { d with pending := d.pending.lock c i }
  | deletePending {i : Nat} {r : PendingRegistration} (hv : d.pending.view c i = some r)
      (hf : d.pending.free c i = true) : Change c w d { d with pending := d.pending.write c i none }
  | insertUser {user : User} : Change c w d { d with users := d.users.insert c user }
  | writeUser {i : Nat} {user user' : User} (hv : d.users.view c i = some user)
      (hf : d.users.free c i = true) : Change c w d { d with users := d.users.write c i (some user') }
  | tokens {t : Table Client RefreshToken} : Change c w d { d with tokens := t }

variable {env : Env} {m : Move} {draw : Nat} {b c : Client} {d d' d'' : Db} {V : Type}
  {w : Option PendingRegistration}

theorem findKey_some {p : V → Bool} {t : Table Client V} {i : Nat} (h : findKey c p t = some i) :
    ∃ v, t.view c i = some v ∧ p v = true := by
  have hi := List.find?_some h
  rcases hv : t.view c i with _ | v
  · simp [hv] at hi
  · exact ⟨v, rfl, by simpa [hv] using hi⟩

theorem committedKey_some {p : V → Bool} {t : Table Client V} {i : Nat} (h : committedKey p t = some i) :
    ∃ v, t.committed i = some v ∧ p v = true := by
  have hi := List.find?_some h
  rcases hc : t.committed i with _ | v
  · simp [hc] at hi
  · exact ⟨v, rfl, by simpa [hc] using hi⟩

theorem committedKey_none {p : V → Bool} {t : Table Client V} {i : Nat} {v : V}
    (h : committedKey p t = none) (hc : t.committed i = some v) : p v = false := by
  have hi := List.find?_eq_none.mp h i (List.mem_range.mpr (Table.lt_of_committed hc))
  simpa [hc] using hi

theorem pick_mem {rows : List V} {v : V} (h : pick draw rows = some v) : v ∈ rows := List.mem_of_getElem? h

theorem pick_isSome {rows : List V} : (pick draw rows).isSome = true ↔ rows ≠ [] := by
  unfold pick
  cases rows with
  | nil => simp
  | cons a rows =>
    have hlt : draw % (rows.length + 1) < rows.length + 1 := Nat.mod_lt _ (Nat.succ_pos _)
    simp [hlt]

/-- The upsert fails and changes nothing, inserts a row for a new email, or replaces the
row of the email, which nobody holds. -/
theorem upsertPending_cases {row : PendingRegistration} {r : Except PgError Unit}
    (h : upsertPending c row d = some (r, d')) :
    d' = d ∨
      ((∀ i r, d.pending.committed i = some r → r.email ≠ row.email) ∧
        d' = { d with pending := d.pending.append row, writes := ⟨c, row⟩ :: d.writes }) ∨
      ∃ i r, d.pending.committed i = some r ∧ r.email = row.email ∧ (d.pending.cell i).held = none ∧
        d' = { d with pending := d.pending.store i (some row), writes := ⟨c, row⟩ :: d.writes } := by
  unfold upsertPending at h
  simp only at h
  split at h
  · cases h
  rename_i hfree
  split at h
  · cases h
  split at h
  · cases h
    exact Or.inl rfl
  split at h
  · rename_i i hk
    cases h
    obtain ⟨r', hc, he⟩ := committedKey_some hk
    exact Or.inr (Or.inr ⟨i, r', hc, by simpa using he, by simpa [hk] using hfree, rfl⟩)
  · rename_i hk
    cases h
    exact Or.inr (Or.inl ⟨fun i r' hc he => by simpa [he] using committedKey_none hk hc, rfl⟩)

theorem upsertPending_change {row : PendingRegistration} {r : Except PgError Unit}
    (h : upsertPending c row d = some (r, d')) : Change c (some row) d d' := by
  rcases upsertPending_cases h with rfl | ⟨he, rfl⟩ | ⟨i, r', hc, he, hh, rfl⟩
  · exact .same
  · exact .appendPending rfl he
  · exact .storePending rfl hc he hh

theorem insertUser_change {user : User} {r : Except PgError User}
    (h : insertUser env c user d = some (r, d')) : Change c w d d' := by
  unfold insertUser at h
  split at h
  · cases h
    exact .same
  split at h
  · cases h
  · cases h
    exact .insertUser

theorem insertRefreshToken_change {token : RefreshToken} {r : Except PgError Unit}
    (h : insertRefreshToken c token d = some (r, d')) : ∃ t, d' = { d with tokens := t } := by
  unfold insertRefreshToken at h
  split at h
  · cases h
  split at h <;>
  · cases h
    exact ⟨_, rfl⟩

theorem deletePendingRow_change {key : Option Nat} {r : Except PgError Unit}
    (hk : ∀ i, key = some i → ∃ row, d.pending.view c i = some row)
    (h : deletePendingRow c key d = some (r, d')) : Change c w d d' := by
  cases key with
  | none =>
    cases h
    exact .same
  | some i =>
    obtain ⟨row, hv⟩ := hk i rfl
    simp only [deletePendingRow] at h
    split at h
    · rename_i hf
      cases h
      exact .deletePending hv hf
    · cases h

theorem exec_change {q : Stmt} {r : Answer q} (h : exec env draw c q d = some (r, d'))
    (hc : q ≠ .commit) (hb : q ≠ .rollback) : Change c (q.written env d) d d' := by
  cases q with
  | commit => exact absurd rfl hc
  | rollback => exact absurd rfl hb
  | dateNow | randomInt | randomBytes | hash | selectOtp | selectUser | selectPending
  | selectPendingLive | selectUserId | selectAccount | snapshotExpiredPending =>
    cases h
    exact .same
  | begin =>
    cases h
    exact .began
  | insertOtp =>
    cases h
    refine .otps fun r hr => ?_
    rcases List.mem_cons.mp hr with rfl | hr
    · exact Or.inr rfl
    · exact Or.inl hr
  | purgeOtps =>
    cases h
    exact .otps fun r hr => Or.inl (List.mem_of_mem_filter hr)
  | upsertOtpAttempts | deleteOtpAttempts =>
    cases h
    exact .attempts
  | upsertPending => exact upsertPending_change h
  | selectPendingForUpdate email =>
    simp only [exec] at h
    split at h
    · rename_i i hk
      split at h
      · rename_i hf
        cases h
        obtain ⟨row, hv, -⟩ := findKey_some hk
        exact .lockPending hv hf
      · cases h
    · cases h
      exact .same
  | insertUser => exact insertUser_change h
  | deletePending email =>
    refine deletePendingRow_change (fun i hk => ?_) h
    obtain ⟨row, hv, -⟩ := findKey_some hk
    exact ⟨row, hv⟩
  | insertRefreshToken =>
    obtain ⟨t, rfl⟩ := insertRefreshToken_change h
    exact .tokens
  | updatePassword hash i =>
    simp only [exec] at h
    split at h
    · cases h
      exact .same
    · rename_i row hv
      split at h
      · rename_i hf
        cases h
        exact .writeUser hv hf
      · cases h
  | deleteExpiredPending i =>
    refine deletePendingRow_change (fun j hk => ?_) h
    split at hk
    · rename_i hx
      cases hk
      rcases hv : d.pending.view c i with _ | row
      · simp [hv] at hx
      · exact ⟨row, rfl⟩
    · cases hk

/-- What the statements of other clients leave to `c`. -/
structure Rely (c : Client) (d d' : Db) : Prop where
  clock : d.clock ≤ d'.clock
  pending : ∀ i, d'.pending.own c i = d.pending.own c i
  users : ∀ i, d'.users.own c i = d.users.own c i
  events : eventsOf c d'.history = eventsOf c d.history
  registrations : d.registrations ⊆ d'.registrations

theorem Rely.refl : Rely c d d := ⟨Nat.le_refl _, fun _ => rfl, fun _ => rfl, rfl, fun _ => id⟩

theorem Rely.trans (h : Rely c d d') (h' : Rely c d' d'') : Rely c d d'' where
  clock := Nat.le_trans h.clock h'.clock
  pending i := (h'.pending i).trans (h.pending i)
  users i := (h'.users i).trans (h.users i)
  events := h'.events.trans h.events
  registrations _ hr := h'.registrations (h.registrations hr)

theorem Rely.tick {wait : Nat} : Rely c d (tick wait d) :=
  { Rely.refl with clock := Nat.le_add_right _ _ }

theorem Change.rely (h : Change c w d d') (hb : b ≠ c) : Rely b d d' := by
  cases h with
  | same | began | otps | attempts | tokens => exact { Rely.refl with }
  | appendPending => exact { Rely.refl with pending := fun _ => Table.own_append }
  | storePending _ _ _ hh => exact { Rely.refl with pending := fun _ => Table.own_store hh }
  | lockPending _ hf | deletePending _ hf =>
    exact { Rely.refl with pending := fun _ => Table.own_write_ne hb hf }
  | insertUser => exact { Rely.refl with users := fun _ => Table.own_insert_ne hb }
  | writeUser _ hf => exact { Rely.refl with users := fun _ => Table.own_write_ne hb hf }

theorem exec_rely {q : Stmt} {r : Answer q} (h : exec env draw c q d = some (r, d')) (hb : b ≠ c) :
    Rely b d d' := by
  by_cases hc : q = .commit
  · subst hc
    cases h
    exact { Rely.refl with
      pending := fun _ => Table.own_commit_ne hb
      users := fun _ => Table.own_commit_ne hb
      registrations := List.subset_append_right _ _ }
  by_cases hr : q = .rollback
  · subst hr
    cases h
    exact { Rely.refl with
      pending := fun _ => Table.own_rollback_ne hb
      users := fun _ => Table.own_rollback_ne hb }
  · exact (exec_change h hc hr).rely hb

/-- An upsert of a pending registration holds no lock afterwards. -/
theorem upsertPending_rely {row : PendingRegistration} {r : Except PgError Unit}
    (h : upsertPending c row d = some (r, d')) : Rely b d d' := by
  rcases upsertPending_cases h with rfl | ⟨-, rfl⟩ | ⟨i, r', -, -, hh, rfl⟩
  · exact .refl
  · exact { Rely.refl with pending := fun _ => Table.own_append }
  · exact { Rely.refl with pending := fun _ => Table.own_store hh }

/-- No statement touches the history of checks; `act` adds its event to it. -/
theorem exec_history {q : Stmt} {r : Answer q} (h : exec env draw c q d = some (r, d')) :
    d'.history = d.history := by
  by_cases hc : q = .commit
  · subst hc
    cases h
    rfl
  by_cases hr : q = .rollback
  · subst hr
    cases h
    rfl
  · cases exec_change h hc hr <;> rfl

theorem otpEvent_client {q : Stmt} {r : Answer q} {e : OtpEvent} (h : otpEvent c q r d = some e) :
    e.client = c := by
  unfold otpEvent at h
  split at h
  · obtain ⟨otp, -, rfl⟩ := Option.map_eq_some_iff.mp h
    rfl
  · obtain ⟨f, -, rfl⟩ := Option.map_eq_some_iff.mp h
    rfl
  · obtain ⟨f, -, rfl⟩ := Option.map_eq_some_iff.mp h
    split <;> rfl
  · cases h

/-- No statement sets `used_at`: OTPs are inserted without it and never updated. -/
theorem exec_otps {q : Stmt} {r : Answer q} (h : exec env draw c q d = some (r, d')) :
    ∀ row ∈ d'.otps, row ∈ d.otps ∨ row.usedAt = none := by
  by_cases hc : q = .commit
  · subst hc
    cases h
    exact fun _ => Or.inl
  by_cases hr : q = .rollback
  · subst hr
    cases h
    exact fun _ => Or.inl
  · cases exec_change h hc hr with
    | otps hr => exact hr
    | _ => exact fun _ => Or.inl

/-- A statement that runs: time goes on, the statement is executed, its event is noted. -/
theorem act_run {wait : Nat} {q : Stmt} {r : Answer q}
    (h : act env (.run wait draw) c q d = some (r, d')) :
    ∃ e, exec env draw c q (tick wait d) = some (r, e) ∧
      d' = { e with history := (otpEvent c q r (tick wait d)).toList ++ e.history } := by
  obtain ⟨⟨r', e⟩, he, heq⟩ := Option.map_eq_some_iff.mp h
  cases heq
  exact ⟨e, he, rfl⟩

theorem act_fail {e : PgError} {q : Stmt} {r : Answer q} (h : act env (.fail e) c q d = some (r, d')) :
    r = .error e ∧ d' = d := by
  cases q <;> cases h <;> exact ⟨rfl, rfl⟩

/-- What any statement of `c` leaves to the others. -/
theorem act_rely {q : Stmt} {r : Answer q} (h : act env m c q d = some (r, d')) (hb : b ≠ c) :
    Rely b d d' := by
  cases m with
  | fail e =>
    obtain ⟨-, rfl⟩ := act_fail h
    exact .refl
  | run wait draw =>
    obtain ⟨e, he, rfl⟩ := act_run h
    refine Rely.tick.trans ((exec_rely he hb).trans { Rely.refl with events := ?_ })
    rcases hev : otpEvent c q r (tick wait d) with _ | f
    · rfl
    · have hf : f.client ≠ b := fun hfb => hb (hfb.symm.trans (otpEvent_client hev))
      exact List.filter_cons_of_neg (by simpa using hf)

end Kayan.Auth
