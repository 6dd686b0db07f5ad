import Kayan.Auth.Frame

/-!
# The invariant of the OTP flows

The history of checks is one that `checkVerification` can produce, each committed pending
registration is the one that was written last for its email, and each registered user was
copied from the pending registration that was current at the time. `d₀` is the store at
the start.
-/
namespace Kayan.Auth
open RowStore Interleave

section Definitions
variable (env : Env) (req : Client → Request) (d₀ : Db)

/-- The code that a call presents is the one of the OTP. -/
def rightCode (c : Client) (otp : AuthOtp) : Bool :=
  (req c).presented.any fun x => hashOtp env x.2.1 otp.salt = otp.codeHash

/-- The events that a check may add to the history: what it has done until then, and why. -/
inductive Follows (history : List OtpEvent) : OtpEvent → Prop
  | lookedUp {c : Client} {otp : AuthOtp} {t : Nat} {code : String}
      (hp : (req c).presented = some (otp.email, code, otp.purpose))
      (he : eventsOf c history = []) : Follows history ⟨c, otp, .lookedUp t⟩
  | counted {c : Client} {otp : AuthOtp} {t n : Nat}
      (he : eventsOf c history = [⟨c, otp, .lookedUp t⟩]) (hw : rightCode env req c otp = false)
      (ht : t ≤ otp.expiresAt) : Follows history ⟨c, otp, .counted n⟩
  | lockedOut {c : Client} {otp : AuthOtp} {t n issued : Nat}
      (he : eventsOf c history = [⟨c, otp, .counted n⟩, ⟨c, otp, .lookedUp t⟩])
      (hn : otpMaxAttempts ≤ n + 1) : Follows history ⟨c, otp, .lockedOut issued⟩
  | accepted {c : Client} {otp : AuthOtp} {t : Nat} (he : eventsOf c history = [⟨c, otp, .lookedUp t⟩])
      (hr : rightCode env req c otp = true) (ht : t ≤ otp.expiresAt) :
      Follows history ⟨c, otp, .accepted⟩

/-- Histories of checks whose events all satisfy `cond` when they happen. -/
inductive Recorded (cond : List OtpEvent → OtpEvent → Bool) : List OtpEvent → Prop
  | nil : Recorded cond []
  | cons {e : OtpEvent} {history : List OtpEvent} (h : Recorded cond history)
      (hf : Follows env req history e) (hc : cond history e = true) : Recorded cond (e :: history)

/-- The write comes from a registration request and has its data. -/
def Requested (w : PendingWrite) : Prop :=
  ∃ dto salt, req w.client = .requestRegistrationOtp dto ∧ w.row.email = env.lower dto.email ∧
    w.row.name = dto.name ∧ w.row.phone = some dto.phone ∧ w.row.address = dto.address ∧
    w.row.passwordHash = env.bcrypt dto.password bcryptRounds salt

/-- The last write for an email. -/
def lastWrite (email : String) (writes : List PendingWrite) : Option PendingWrite :=
  writes.find? fun w => w.row.email = email

/-- The user is the one of the pending registration. -/
def User.copies (user : User) (row : PendingRegistration) : Prop :=
  user.name = row.name ∧ user.phone = row.phone ∧ user.address = row.address ∧
    user.passwordHash = row.passwordHash

/-- The row was written last for its email, or was there at the start and not overwritten. -/
def Current (writes : List PendingWrite) (row : PendingRegistration) : Prop :=
  (∃ c, lastWrite row.email writes = some ⟨c, row⟩) ∨
    lastWrite row.email writes = none ∧ ∃ i, d₀.pending.committed i = some row

/-- The user was registered by a verification, from the row that was current for its email. -/
def Verified (r : Registration) : Prop :=
  ∃ email otp row, req r.client = .verifyRegistrationOtp email otp ∧ row.email = env.lower email ∧
    Current d₀ r.writes row ∧ r.user.copies row

structure Pendings (d : Db) : Prop where
  writes : ∀ w ∈ d.writes, Requested env req w
  lowered : ∀ i row, d.pending.committed i = some row → env.lower row.email = row.email
  current : ∀ i row, d.pending.committed i = some row → Current d₀ d.writes row
  unique : ∀ i j r r', d.pending.committed i = some r → d.pending.committed j = some r' →
    r.email = r'.email → i = j
  held : ∀ c i v w, d.pending.own c i = some (v, w) → w = none ∨ w = v
  registrations : ∀ r ∈ d.registrations, Verified env req d₀ r ∧ r.writes <:+ d.writes

structure Inv (cond : List OtpEvent → OtpEvent → Bool) (d : Db) : Prop where
  history : Recorded env req cond d.history
  pendings : Pendings env req d₀ d

end Definitions

variable {env : Env} {req : Client → Request} {cond : List OtpEvent → OtpEvent → Bool} {c : Client}
  {d₀ d d' : Db} {row : PendingRegistration} {i : Nat}

/-- A write makes its row current. -/
theorem current_self (writes : List PendingWrite) : Current d₀ (⟨c, row⟩ :: writes) row :=
  Or.inl ⟨c, List.find?_cons_of_pos (by simp)⟩

/-- The rows of other emails stay current. -/
theorem Current.cons {r : PendingRegistration} {writes : List PendingWrite} (h : Current d₀ writes r)
    (he : r.email ≠ row.email) : Current d₀ (⟨c, row⟩ :: writes) r := by
  have hl : lastWrite r.email (⟨c, row⟩ :: writes) = lastWrite r.email writes :=
    List.find?_cons_of_neg (by simpa using Ne.symm he)
  unfold Current
  rw [hl]
  exact h

theorem Requested.lowered (h : Requested env req ⟨c, row⟩) : env.lower row.email = row.email := by
  obtain ⟨dto, salt, -, he, -⟩ := h
  simp only at he
  rw [he, env.lower_lower]

/-- A client reads the committed version of a pending registration, or none. -/
theorem Pendings.view_committed (h : Pendings env req d₀ d) (hv : d.pending.view c i = some row) :
    d.pending.committed i = some row := by
  rcases ho : d.pending.own c i with _ | ⟨v, w⟩
  · rwa [Table.view_of_not_own ho] at hv
  · obtain rfl := Table.view_of_own ho ▸ hv
    rcases h.held c i v _ ho with hw | hw
    · cases hw
    · rw [Table.own_committed ho, hw]

/-- Statements that leave the committed pending registrations alone keep what is known of them. -/
theorem Pendings.of_committed (h : Pendings env req d₀ d)
    (hc : ∀ j, d'.pending.committed j = d.pending.committed j)
    (hh : ∀ b j v w, d'.pending.own b j = some (v, w) → w = none ∨ w = v)
    (hw : d'.writes = d.writes) (hr : d'.registrations = d.registrations) : Pendings env req d₀ d' where
  writes w hm := h.writes w (hw ▸ hm)
  lowered j r hj := h.lowered j r (hc j ▸ hj)
  current j r hj := by
    rw [hw]
    exact h.current j r (hc j ▸ hj)
  unique j k r r' hj hk := h.unique j k r r' (hc j ▸ hj) (hc k ▸ hk)
  held := hh
  registrations r hm := by
    rw [hw]
    exact h.registrations r (hr ▸ hm)

theorem Pendings.lock (h : Pendings env req d₀ d) (hv : d.pending.view c i = some row)
    (hf : d.pending.free c i = true) : Pendings env req d₀ { d with pending := d.pending.lock c i } := by
  refine h.of_committed (fun j => Table.committed_lock) (fun b j v w ho => ?_) rfl rfl
  by_cases hb : b = c
  · subst hb
    simp only [Table.own_lock (Table.lt_of_view hv)] at ho
    split at ho
    · cases ho
      rw [hv, h.view_committed hv]
      exact Or.inr rfl
    · exact h.held b j v w ho
  · simp only [Table.lock, Table.own_write_ne hb hf] at ho
    exact h.held b j v w ho

theorem Pendings.delete (h : Pendings env req d₀ d) (hv : d.pending.view c i = some row)
    (hf : d.pending.free c i = true) :
    Pendings env req d₀ { d with pending := d.pending.write c i none } := by
  refine h.of_committed (fun j => Table.committed_write) (fun b j v w ho => ?_) rfl rfl
  by_cases hb : b = c
  · subst hb
    simp only [Table.own_write (Table.lt_of_view hv)] at ho
    split at ho
    · cases ho
      exact Or.inl rfl
    · exact h.held b j v w ho
  · simp only [Table.own_write_ne hb hf] at ho
    exact h.held b j v w ho

/-- A new write becomes the last one for its email; other emails keep theirs. -/
theorem Pendings.write {t : Table Client PendingRegistration} (h : Pendings env req d₀ d)
    (hq : Requested env req ⟨c, row⟩)
    (hc : ∀ j r, t.committed j = some r → r = row ∨ d.pending.committed j = some r ∧ r.email ≠ row.email)
    (hu : ∀ j k, t.committed j = some row → t.committed k = some row → j = k)
    (ho : ∀ b j, t.own b j = d.pending.own b j) :
    Pendings env req d₀ { d with pending := t, writes := ⟨c, row⟩ :: d.writes } where
  writes w hm := by
    rcases List.mem_cons.mp hm with rfl | hm
    · exact hq
    · exact h.writes w hm
  lowered j r hj := by
    rcases hc j r hj with rfl | ⟨hj, -⟩
    · exact hq.lowered
    · exact h.lowered j r hj
  current j r hj := by
    rcases hc j r hj with rfl | ⟨hj, he⟩
    · exact current_self d.writes
    · exact (h.current j r hj).cons he
  unique j k r r' hj hk he := by
    rcases hc j r hj with rfl | ⟨hj', hne⟩
    · rcases hc k r' hk with rfl | ⟨-, hne⟩
      · exact hu j k hj hk
      · exact absurd he.symm hne
    · rcases hc k r' hk with rfl | ⟨hk', -⟩
      · exact absurd he hne
      · exact h.unique j k r r' hj' hk' he
  held b j v w hb := h.held b j v w ((ho b j).symm.trans hb)
  registrations r hm := by
    obtain ⟨hv, hs⟩ := h.registrations r hm
    exact ⟨hv, hs.trans (List.suffix_cons _ _)⟩

theorem Pendings.append (h : Pendings env req d₀ d) (hq : Requested env req ⟨c, row⟩)
    (he : ∀ i r, d.pending.committed i = some r → r.email ≠ row.email) :
    Pendings env req d₀ { d with pending := d.pending.append row, writes := ⟨c, row⟩ :: d.writes } := by
  have hlast : ∀ j, (d.pending.append row).committed j = some row → j = d.pending.next := by
    intro j hj
    by_contra hne
    rw [Table.committed_append, if_neg hne] at hj
    exact he j row hj rfl
  refine h.write hq (fun j r hj => ?_) (fun j k hj hk => ?_) fun b j => Table.own_append
  · rw [Table.committed_append] at hj
    split at hj
    · exact Or.inl (Option.some.inj hj).symm
    · exact Or.inr ⟨hj, he j r hj⟩
  · rw [hlast j hj, hlast k hk]

theorem Pendings.store {r : PendingRegistration} (h : Pendings env req d₀ d)
    (hq : Requested env req ⟨c, row⟩) (hc : d.pending.committed i = some r) (he : r.email = row.email)
    (hh : (d.pending.cell i).held = none) :
    Pendings env req d₀
      { d with pending := d.pending.store i (some row), writes := ⟨c, row⟩ :: d.writes } := by
  have hother : ∀ j r', d.pending.committed j = some r' → j ≠ i → r'.email ≠ row.email :=
    fun j r' hj hne heq => hne (h.unique j i r' r hj hc (heq.trans he.symm))
  have hlast : ∀ j, (d.pending.store i (some row)).committed j = some row → j = i := by
    intro j hj
    by_contra hne
    rw [Table.committed_store (Table.lt_of_committed hc), if_neg hne] at hj
    exact hother j row hj hne rfl
  refine h.write hq (fun j r' hj => ?_) (fun j k hj hk => ?_) fun b j => Table.own_store hh
  · rw [Table.committed_store (Table.lt_of_committed hc)] at hj
    split at hj
    · exact Or.inl (Option.some.inj hj).symm
    · exact Or.inr ⟨hj, hother j r' hj ‹_›⟩
  · rw [hlast j hj, hlast k hk]

/-- Statements other than `COMMIT` and `ROLLBACK` keep what is known of the pending
registrations, if those that are written come from requests. -/
theorem Change.pendings {w : Option PendingRegistration} (hx : Change c w d d') (h : Pendings env req d₀ d)
    (hq : ∀ row, w = some row → Requested env req ⟨c, row⟩) :
    Pendings env req d₀ d' := by
  cases hx with
  | same => exact h
  | began | otps | attempts | insertUser | writeUser | tokens =>
    exact h.of_committed (fun _ => rfl) h.held rfl rfl
  | appendPending hw he => exact h.append (hq _ hw) he
  | storePending hw hc he hh => exact h.store (hq _ hw) hc he hh
  | lockPending hv hf => exact h.lock hv hf
  | deletePending hv hf => exact h.delete hv hf

theorem Pendings.rollback (h : Pendings env req d₀ d) : Pendings env req d₀ (d.rollback c) := by
  refine h.of_committed (fun j => Table.committed_rollback) (fun b j v w ho => ?_) rfl rfl
  by_cases hb : b = c
  · subst hb
    rw [Db.rollback, Table.own_rollback_self] at ho
    cases ho
  · rw [Db.rollback, Table.own_rollback_ne hb] at ho
    exact h.held b j v w ho

/-- A commit deletes pending registrations and adds none. -/
theorem Pendings.commit (h : Pendings env req d₀ d) (hr : ∀ r ∈ d.registered c, Verified env req d₀ r) :
    Pendings env req d₀ (d.commit c) := by
  have hsub : ∀ j r, (d.pending.commit c).committed j = some r → d.pending.committed j = some r := by
    intro j r hj
    rw [Table.committed_commit] at hj
    rcases ho : d.pending.own c j with _ | ⟨v, w⟩
    · simpa [ho] using hj
    · obtain rfl : w = some r := by simpa [ho] using hj
      rcases h.held c j v _ ho with hw | hw
      · cases hw
      · rw [Table.own_committed ho, hw]
  refine ⟨h.writes, fun j r hj => h.lowered j r (hsub j r hj), fun j r hj => h.current j r (hsub j r hj),
    fun j k r r' hj hk => h.unique j k r r' (hsub j r hj) (hsub k r' hk), fun b j v w ho => ?_, ?_⟩
  · by_cases hb : b = c
    · subst hb
      rw [Db.commit, Table.own_commit_self] at ho
      cases ho
    · rw [Db.commit, Table.own_commit_ne hb] at ho
      exact h.held b j v w ho
  · intro r hm
    rcases List.mem_append.mp hm with hm | hm
    · obtain ⟨user, -, rfl⟩ := List.mem_map.mp hm
      exact ⟨hr _ hm, List.suffix_refl _⟩
    · exact h.registrations r hm

theorem Inv.tick {wait : Nat} (h : Inv env req d₀ cond d) : Inv env req d₀ cond (tick wait d) :=
  ⟨h.history, h.pendings.of_committed (fun _ => rfl) h.pendings.held rfl rfl⟩

end Kayan.Auth
