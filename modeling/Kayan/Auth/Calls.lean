import Kayan.Auth.Checks

/-!
# The calls of the OTP flows

Each call is safe among all others, so the invariant holds in every run: a call that
returns has had its code accepted, and a verification has registered a user.
-/
namespace Kayan.Auth
open RowStore Interleave

variable {env : Env} {req : Client → Request} {cond : List OtpEvent → OtpEvent → Bool} {c : Client}
  {d₀ d d' : Db} {evs : List OtpEvent} {us : List User} {row : PendingRegistration} {α : Type}

section Senders
variable {P : Db → Prop}

theorem startVerification_does (email : String) (purpose : OtpPurpose) (userId : Option Nat)
    (hp : Steady env req d₀ cond c P) :
    Does env req d₀ cond c P (startVerification env email purpose userId) fun _ => P := by
  refine bind_does (Q := fun _ => P) ?_ fun otp => ?_
  · unfold drawOtp
    split
    · exact pure_does hp fun _ => id
    · exact bind_does (light_does rfl hp) fun n => pure_does hp fun _ => id
  refine bind_does (light_does rfl hp) fun salt => ?_
  exact bind_does (light_does rfl hp) fun _ => pure_does hp fun _ => id

theorem generateTokens_does (userId : Nat) (email : Option String) (isAdmin : Bool) (tokenVersion : Nat)
    (hp : Steady env req d₀ cond c P) :
    Does env req d₀ cond c P (generateTokens env userId email isAdmin tokenVersion) fun _ => P := by
  refine bind_does (light_does rfl hp) fun jti => ?_
  refine bind_does (light_does rfl hp) fun issued => ?_
  refine bind_does (light_does rfl hp) fun reissued => ?_
  exact bind_does (light_does rfl hp) fun _ => pure_does hp fun _ => id

theorem hash_does (password : String) (rounds : Nat) (hp : Steady env req d₀ cond c P) :
    Does env req d₀ cond c P (query (.hash password rounds))
      (fun v d => (∃ salt, (v : String) = env.bcrypt password rounds salt) ∧ P d) := by
  refine plain_does rfl hp (fun v d d' hr hi h => ⟨h.1, hp d d' hr hi h.2⟩) fun draw d v d' _ hd hx => ?_
  cases hx
  exact ⟨⟨_, rfl⟩, hd⟩

theorem resendRegistrationOtp_does (email : String) (hp : Steady env req d₀ cond c P) :
    Does env req d₀ cond c P (resendRegistrationOtp env email) fun _ => P := by
  refine bind_does (light_does rfl hp) fun pending => ?_
  split
  · exact throw_does
  · exact bind_does (startVerification_does email _ _ hp) fun otp => pure_does hp fun _ => id

theorem requestPasswordResetOtp_does (email : String) (hp : Steady env req d₀ cond c P) :
    Does env req d₀ cond c P (requestPasswordResetOtp env email) fun _ => P := by
  refine bind_does (light_does rfl hp) fun userId => ?_
  cases userId with
  | none => exact pure_does hp fun _ => id
  | some userId => exact bind_does (startVerification_does email _ _ hp) fun otp => pure_does hp fun _ => id

/-- A registration request writes a pending registration with its own data. -/
theorem upsertPending_does {dto : RequestRegistrationOtpDto} {passwordHash : String}
    (hreq : req c = .requestRegistrationOtp dto)
    (hh : ∃ salt, passwordHash = env.bcrypt dto.password bcryptRounds salt)
    (hp : Steady env req d₀ cond c P) :
    Does env req d₀ cond c P
      (query (.upsertPending dto.email dto.phone dto.name dto.address passwordHash env.config.otpTtlMinutes))
      fun _ => P := by
  refine query_does hp (fun _ => hp) fun draw d v e hi hd hx => ?_
  have hpe : Pendings env req d₀ e := by
    refine (upsertPending_change hx).pendings hi.pendings fun row hw => ?_
    obtain ⟨salt, hs⟩ := hh
    cases hw
    exact ⟨dto, salt, hreq, rfl, rfl, rfl, rfl, hs⟩
  have hh : e.history = d.history := exec_history hx
  refine ⟨hpe, fun f hf => (by cases hf), fun w _ => ?_⟩
  refine hp d _ ?_ ⟨hi.history, hpe.of_committed (fun _ => rfl) hpe.held rfl rfl⟩ hd
  exact (upsertPending_rely hx).trans { Rely.refl with events := by rw [hh]; rfl }

theorem requestRegistrationOtp_does {dto : RequestRegistrationOtpDto}
    (hreq : req c = .requestRegistrationOtp dto) (hp : Steady env req d₀ cond c P) :
    Does env req d₀ cond c P (requestRegistrationOtp env dto) fun _ => P := by
  refine bind_does (light_does rfl hp) fun existingUser => ?_
  split
  · exact throw_does
  refine bind_does (light_does rfl hp) fun existingPending => ?_
  split
  · exact throw_does
  refine bind_does (hash_does dto.password bcryptRounds hp) fun passwordHash => Triple.fact fun hh => ?_
  refine bind_does (Q := fun _ => P) ?_ fun _ => ?_
  · exact Triple.catch (upsertPending_does hreq hh hp) (fun _ => throw_does) fun _ => hp
  · exact bind_does (startVerification_does dto.email _ _ hp) fun otp => pure_does hp fun _ => id

end Senders

section Transactions

/-- What a commit publishes has to be right; an exception leaves nothing to show. -/
theorem withTransaction_does {callback : Code α} {P : Db → Prop} {Q R : α → Db → Prop}
    (hp : Steady env req d₀ cond c P) (h : Does env req d₀ cond c P callback Q)
    (hs : ∀ a, Steady env req d₀ cond c (Q a)) (hr : ∀ a, Steady env req d₀ cond c (R a))
    (hq : ∀ a d, Pendings env req d₀ d → Q a d →
      (∀ r ∈ d.registered c, Verified env req d₀ r) ∧ R a (d.commit c)) :
    Does env req d₀ cond c P (withTransaction callback) R := by
  refine Triple.transaction (light_does rfl hp) h (fun a => ?_) ?_ hr true_steady true_steady
  · refine query_does (hs a) (fun _ => hr a) fun draw d v e hi hd hx => ?_
    cases hx
    obtain ⟨hv, hw⟩ := hq a d hi.pendings hd
    exact ⟨hi.pendings.commit hv, fun f hf => (by cases hf), fun w _ => hw⟩
  · exact plain_does rfl true_steady (fun _ => true_steady) fun _ _ _ _ _ _ _ => trivial

/-- A transaction that inserts no user registers none. -/
theorem At.registers_none (h : At c evs [] d) : ∀ r ∈ d.registered c, Verified env req d₀ r := by
  rw [Db.registered, h.users]
  exact fun r hr => absurd hr List.not_mem_nil

/-- The events of the check stay when its transaction ends. -/
theorem events_steady : Steady env req d₀ cond c fun d => eventsOf c d.history = evs :=
  fun _ _ hr _ h => hr.events.trans h

theorem deleteExpiredRows_does (ids : List Nat) :
    Does env req d₀ cond c (At c evs us) (deleteExpiredRows ids) fun _ => At c evs us := by
  induction ids with
  | nil => exact pure_does At.steady fun _ => id
  | cons i ids ih =>
    refine bind_does (Q := fun _ => At c evs us) ?_ fun _ => ih
    refine plain_does rfl At.steady (fun _ => At.steady) fun draw d v d' hi hd hx => ?_
    simp only [exec, deletePendingRow] at hx
    split at hx
    · split at hx <;> cases hx
      exact ⟨hd.events, hd.users⟩
    · cases hx
      exact hd

theorem purgeExpiredOtps_does :
    Does env req d₀ cond c (At c evs []) purgeExpiredOtps fun _ d => eventsOf c d.history = evs := by
  refine bind_does (light_does rfl At.steady) fun _ => ?_
  refine withTransaction_does At.steady (Q := fun _ => At c evs []) ?_ (fun _ => At.steady)
    (fun _ => events_steady) fun _ d _ h => ⟨h.registers_none, h.events⟩
  exact bind_does (light_does rfl At.steady) fun ids => deleteExpiredRows_does ids

/-- Writing a user that is there inserts none. -/
theorem At.writeUser {i : Nat} {user user' : User} (h : At c evs [] d)
    (hv : d.users.view c i = some user) :
    At c evs [] { d with users := d.users.write c i (some user') } := by
  have hnone : ∀ j r, d.users.own c j ≠ some (none, some r) := fun j r hj => by
    have hm := Table.mem_pending.mpr ⟨j, hj⟩
    rw [h.users] at hm
    cases hm
  have hcommitted : d.users.committed i ≠ none := by
    intro hc
    rcases ho : d.users.own c i with _ | ⟨v, w⟩
    · rw [Table.view_of_not_own ho, hc] at hv
      cases hv
    · obtain rfl : v = none := (Table.own_committed ho).symm.trans hc
      obtain rfl : w = some user := (Table.view_of_own ho).symm.trans hv
      exact hnone i user ho
  refine ⟨h.events, List.eq_nil_iff_forall_not_mem.mpr fun r hr => ?_⟩
  obtain ⟨j, hj⟩ := Table.mem_pending.mp hr
  simp only [Table.own_write (Table.lt_of_view hv)] at hj
  split at hj
  · simp only [Option.some.injEq, Prod.mk.injEq] at hj
    exact hcommitted hj.1
  · exact hnone j r hj

theorem changePassword_does (email newPassword : String) :
    Does env req d₀ cond c (At c evs []) (changePassword env email newPassword) fun _ => At c evs [] := by
  refine bind_does (light_does rfl At.steady) fun account => ?_
  cases account with
  | none => exact throw_does
  | some user =>
    simp only
    split
    · exact throw_does
    refine bind_does (light_does rfl At.steady) fun passwordHash => ?_
    refine bind_does (Q := fun _ => At c evs []) ?_ fun updatedUser => ?_
    · refine plain_does rfl At.steady (fun _ => At.steady) fun draw d v d' hi hd hx => ?_
      simp only [exec] at hx
      split at hx
      · cases hx
        exact hd
      · rename_i r hv
        split at hx
        · cases hx
          exact hd.writeUser hv
        · cases hx
    · cases updatedUser with
      | none => exact throw_does
      | some updated =>
        exact bind_does (generateTokens_does _ _ _ _ At.steady) fun tokens => pure_does At.steady fun _ => id

end Transactions

section Registrations

/-- The transaction of `c` holds the row of a committed pending registration. -/
def Holds (c : Client) (row : PendingRegistration) (d : Db) : Prop :=
  ∃ i w, d.pending.own c i = some (some row, w)

theorem Holds.of_rely (h : Holds c row d) (hr : Rely c d d') : Holds c row d' := by
  obtain ⟨i, w, ho⟩ := h
  exact ⟨i, w, (hr.pending i).trans ho⟩

/-- The pending registration is held, and the users `us` are inserted. -/
def Registers (c : Client) (evs : List OtpEvent) (row : PendingRegistration) (us : List User) (d : Db) :
    Prop :=
  At c evs us d ∧ Holds c row d

theorem Registers.steady : Steady env req d₀ cond c (Registers c evs row us) :=
  fun _ _ hr _ ⟨h, hh⟩ => ⟨h.of_rely hr, hh.of_rely hr⟩

theorem selectPendingForUpdate_does (email : String) :
    Does env req d₀ cond c (At c evs us) (query (.selectPendingForUpdate email))
      (fun v d => ∀ row, (v : Option PendingRegistration) = some row →
        env.lower row.email = env.lower email ∧ Registers c evs row us d) := by
  refine plain_does rfl At.steady ?_ fun draw d v d' hi hd hx => ?_
  · intro v d d' hr hi h row hv
    exact ⟨(h row hv).1, Registers.steady d d' hr hi (h row hv).2⟩
  · simp only [exec] at hx
    split at hx
    · rename_i i hk
      split at hx
      · cases hx
        intro row hv
        obtain ⟨row', hv', hp⟩ := findKey_some hk
        obtain rfl : row' = row := Option.some.inj (hv'.symm.trans hv)
        have hc := hi.pendings.view_committed hv
        refine ⟨by simp_all, ⟨hd.events, hd.users⟩, i, some row', ?_⟩
        rw [Table.own_lock (Table.lt_of_view hv), if_pos rfl, hc, hv]
      · cases hx
    · cases hx
      intro row hv
      cases hv

theorem insertUser_does (row : PendingRegistration) :
    Does env req d₀ cond c (Registers c evs row [])
      (query (.insertUser row.name row.phone row.email row.address row.passwordHash))
      (fun user d => User.copies user row ∧ Registers c evs row [(user : User)] d) := by
  refine plain_does rfl Registers.steady ?_ fun draw d v d' hi hd hx => ?_
  · exact fun v d d' hr hi h => ⟨h.1, Registers.steady d d' hr hi h.2⟩
  · simp only [exec, insertUser] at hx
    split at hx
    · cases hx
    split at hx
    · cases hx
    · cases hx
      refine ⟨⟨rfl, rfl, rfl, rfl⟩, ⟨hd.1.events, ?_⟩, hd.2⟩
      rw [Table.pending_insert, hd.1.users, List.nil_append]

theorem deletePending_does (email : String) :
    Does env req d₀ cond c (Registers c evs row us) (query (.deletePending email))
      (fun _ => Registers c evs row us) := by
  refine plain_does rfl Registers.steady (fun _ => Registers.steady) fun draw d v d' hi hd hx => ?_
  obtain ⟨hat, i, w, ho⟩ := hd
  simp only [exec, deletePendingRow] at hx
  split at hx
  · rename_i k hk
    split at hx <;> cases hx
    obtain ⟨row', hv, -⟩ := findKey_some hk
    refine ⟨⟨hat.events, hat.users⟩, i, if i = k then none else w, ?_⟩
    rw [Table.own_write (Table.lt_of_view hv)]
    split
    · rename_i heq
      rw [← heq, Table.own_committed ho]
    · exact ho
  · cases hx
    exact ⟨hat, i, w, ho⟩

theorem registerPending_does (email : String) :
    Does env req d₀ cond c (At c evs []) (registerPending env email)
      (fun v d => ∃ row user tokens, env.lower row.email = env.lower email ∧ user.copies row ∧
        v = registrationResponse user tokens ∧ Registers c evs row [user] d) := by
  refine bind_does (selectPendingForUpdate_does email) fun pendingRow => ?_
  cases pendingRow with
  | none => exact throw_does
  | some row =>
    refine Triple.pre (P := fun d => env.lower row.email = env.lower email ∧ Registers c evs row [] d)
      (Triple.fact fun hemail => ?_) fun d h => h row rfl
    refine bind_does (Triple.catch (insertUser_does row) (fun _ => throw_does) ?_) fun user => ?_
    · exact fun v d d' hr hi h => ⟨h.1, Registers.steady d d' hr hi h.2⟩
    refine Triple.fact fun hcopy => ?_
    refine bind_does (deletePending_does email) fun _ => ?_
    refine bind_does (generateTokens_does _ _ _ _ Registers.steady) fun tokens => ?_
    refine pure_does ?_ fun d h => ⟨row, user, tokens, hemail, hcopy, rfl, h⟩
    rintro d d' hr hi ⟨row, user, tokens, he, hc, hv, h⟩
    exact ⟨row, user, tokens, he, hc, hv, Registers.steady d d' hr hi h⟩

/-- A held pending registration is the last write for its email. -/
theorem Registers.verified {user : User} {email otp : String} (h : Registers c evs row [user] d)
    (hi : Pendings env req d₀ d) (hreq : req c = .verifyRegistrationOtp email otp)
    (he : env.lower row.email = env.lower email) (hc : user.copies row) :
    ∀ r ∈ d.registered c, Verified env req d₀ r := by
  obtain ⟨hat, i, w, ho⟩ := h
  have hrow := Table.own_committed ho
  rw [Db.registered, hat.users]
  intro r hr
  obtain rfl := List.mem_singleton.mp hr
  exact ⟨email, otp, row, hreq, (hi.lowered i row hrow).symm.trans he, hi.current i row hrow, hc⟩

/-- The call has registered the user that it returns. -/
def Registered (c : Client) (v : Payload) (d : Db) : Prop :=
  ∃ r ∈ d.registrations, r.client = c ∧ ∃ tokens, v = registrationResponse r.user tokens

theorem Registers.commit {user : User} {tokens : Tokens} (h : Registers c evs row [user] d) :
    Registered c (registrationResponse user tokens) (d.commit c) := by
  refine ⟨⟨c, user, d.writes⟩, List.mem_append_left _ ?_, rfl, tokens, rfl⟩
  rw [Db.registered, h.1.users]
  exact List.mem_singleton_self _

end Registrations

section Runs

/-- The check of `c` has looked up an OTP and accepted it. -/
def Passed (c : Client) (d : Db) : Prop :=
  ∃ otp t, eventsOf c d.history = [⟨c, otp, .accepted⟩, ⟨c, otp, .lookedUp t⟩]

theorem Accepted.passed (h : Accepted c us d) : Passed c d := by
  obtain ⟨otp, t, h⟩ := h
  exact ⟨otp, t, h.events⟩

theorem passed_steady : Steady env req d₀ cond c (Passed c) :=
  fun _ _ hr _ ⟨otp, t, h⟩ => ⟨otp, t, hr.events.trans h⟩

theorem registered_steady {v : Payload} : Steady env req d₀ cond c (Registered c v) :=
  fun _ _ hr _ ⟨r, hm, h⟩ => ⟨r, hr.registrations hm, h⟩

theorem verifyRegistrationOtp_does {email otp : String} (hreq : req c = .verifyRegistrationOtp email otp) :
    Does env req d₀ cond c (At c [] []) (verifyRegistrationOtp env email otp)
      (fun v d => Passed c d ∧ Registered c v d) := by
  have hp : (req c).presented = some (email, otp, .registration) := by rw [hreq]; rfl
  refine bind_does (checkVerification_does hp) fun _ => Triple.exists fun row => Triple.exists fun t => ?_
  refine withTransaction_does At.steady (registerPending_does email) ?_ ?_ ?_
  · rintro v d d' hr hi ⟨row, user, tokens, he, hc, hv, h⟩
    exact ⟨row, user, tokens, he, hc, hv, Registers.steady d d' hr hi h⟩
  · exact fun v d d' hr hi h => ⟨passed_steady d d' hr hi h.1, registered_steady d d' hr hi h.2⟩
  · rintro v d hi ⟨pending, user, tokens, he, hc, rfl, h⟩
    exact ⟨h.verified hi hreq he hc, ⟨row, t, h.1.events⟩, h.commit⟩

theorem resetPassword_does {dto : ResetPasswordDto} (hreq : req c = .resetPassword dto) :
    Does env req d₀ cond c (At c [] []) (resetPassword env dto) (fun _ => Passed c) := by
  have hp : (req c).presented = some (dto.email, dto.otp, .passwordReset) := by rw [hreq]; rfl
  unfold resetPassword
  split
  · exact throw_does
  refine bind_does (checkVerification_does hp) fun _ => Triple.exists fun row => Triple.exists fun t => ?_
  refine withTransaction_does At.steady (changePassword_does dto.email dto.newPassword)
    (fun _ => At.steady) (fun _ => passed_steady) fun _ d _ h => ⟨h.registers_none, row, t, h.events⟩

/-- What a call that has returned leaves: one that presents a code has had it accepted, and
a verification has registered its user. -/
def Settled (req : Client → Request) (c : Client) : Except Failure Payload → Db → Prop :=
  outcome (fun v d => ((req c).presented.isSome → Passed c d) ∧
    ∀ email otp, req c = .verifyRegistrationOtp email otp → Registered c v d) fun _ => True

/-- A call that presents no code owes nothing. -/
theorem settles {x : Code Payload} {Q : Db → Prop} (h : Does env req d₀ cond c (At c [] []) x fun _ => Q)
    (hreq : (req c).presented = none) :
    Does env req d₀ cond c (At c [] []) x (fun v d => ((req c).presented.isSome → Passed c d) ∧
      ∀ email otp, req c = .verifyRegistrationOtp email otp → Registered c v d) := by
  refine h.conseq (fun _ _ => id) (fun v d _ => ⟨fun hs => ?_, fun email otp hr => ?_⟩) fun _ => id
  · rw [hreq] at hs
    cases hs
  · rw [hr] at hreq
    cases hreq

theorem code_does (env : Env) (c : Client) :
    Does env req d₀ cond c (At c [] []) ((req c).code env)
      (fun v d => ((req c).presented.isSome → Passed c d) ∧
        ∀ email otp, req c = .verifyRegistrationOtp email otp → Registered c v d) := by
  rcases hreq : req c with ⟨email, purpose, u⟩ | ⟨email, code, purpose⟩ | dto | email | ⟨email, otp⟩ |
    email | dto | _
  · rw [← hreq]
    refine settles (Q := At c [] []) ?_ (by rw [hreq]; rfl)
    rw [hreq]
    exact bind_does (startVerification_does email purpose u At.steady) fun _ => pure_does At.steady fun _ => id
  · have hp : (req c).presented = some (email, code, purpose) := by rw [hreq]; rfl
    refine bind_does (checkVerification_does hp) fun _ => pure_does ?_ fun d h => ⟨fun _ => h.passed, ?_⟩
    · exact fun d d' hr hi h => ⟨fun hs => passed_steady d d' hr hi (h.1 hs),
        fun email otp he => registered_steady d d' hr hi (h.2 email otp he)⟩
    · exact fun email otp he => by cases he
  · rw [← hreq]
    refine settles (Q := At c [] []) ?_ (by rw [hreq]; rfl)
    rw [hreq]
    exact requestRegistrationOtp_does hreq At.steady
  · rw [← hreq]
    refine settles (Q := At c [] []) ?_ (by rw [hreq]; rfl)
    rw [hreq]
    exact resendRegistrationOtp_does email At.steady
  · exact (verifyRegistrationOtp_does hreq).conseq (fun _ _ => id)
      (fun v d h => ⟨fun _ => h.1, fun _ _ _ => h.2⟩) fun _ => id
  · rw [← hreq]
    refine settles (Q := At c [] []) ?_ (by rw [hreq]; rfl)
    rw [hreq]
    exact requestPasswordResetOtp_does email At.steady
  · refine (resetPassword_does hreq).conseq (fun _ _ => id) (fun v d h => ⟨fun _ => h, ?_⟩) fun _ => id
    exact fun email otp he => by cases he
  · rw [← hreq]
    refine settles (Q := fun d => eventsOf c d.history = []) ?_ (by rw [hreq]; rfl)
    rw [hreq]
    exact bind_does purgeExpiredOtps_does fun _ => pure_does events_steady fun _ => id

/-- A store between calls, whatever users, OTPs and pending registrations there are: no
lock is held, pending registrations have distinct lower-case emails, and the history
variables are empty. -/
structure Quiet (env : Env) (d : Db) : Prop where
  pending : ∀ i, (d.pending.cell i).held = none
  users : ∀ i, (d.users.cell i).held = none
  lowered : ∀ i row, d.pending.committed i = some row → env.lower row.email = row.email
  unique : ∀ i j r r', d.pending.committed i = some r → d.pending.committed j = some r' →
    r.email = r'.email → i = j
  history : d.history = []
  writes : d.writes = []
  registrations : d.registrations = []

theorem own_of_quiet {V : Type} {t : Table Client V} (h : ∀ i, (t.cell i).held = none) (i : Nat) :
    t.own c i = none := by
  simp [Table.own, Cell.own, h i]

theorem Quiet.at (h : Quiet env d) : At c [] [] d where
  events := by rw [h.history]; rfl
  users := Table.pending_eq_nil (own_of_quiet h.users)

theorem Quiet.inv (h : Quiet env d) : Inv env req d cond d where
  history := by
    rw [h.history]
    exact .nil
  pendings := by
    refine ⟨?_, h.lowered, fun i r hi => ?_, h.unique, fun c i v w ho => ?_, ?_⟩
    · rw [h.writes]
      exact fun w hw => absurd hw List.not_mem_nil
    · rw [h.writes]
      exact Or.inr ⟨rfl, i, hi⟩
    · rw [own_of_quiet h.pending] at ho
      cases ho
    · rw [h.registrations]
      exact fun r hr => absurd hr List.not_mem_nil

variable {xs : List Taken} {s t : State}

/-- Taking statements whose events satisfy `cond`. -/
def Meeting (env : Env) (cond : List OtpEvent → OtpEvent → Bool) (s : State) (e : Taken) (t : State) :
    Prop :=
  Step (act env) s e t ∧ meets env cond e.move e.client e.stmt s.db

theorem run_safe (hq : Quiet env d₀) (hr : Trace.Run (Meeting env cond) (initial env req d₀) xs t) :
    AllSafe (rules env req d₀ cond) (Settled req) t := by
  have hs : AllSafe (rules env req d₀ cond) (Settled req) (initial env req d₀) :=
    ⟨hq.inv, fun c => code_does env c d₀ hq.inv hq.at⟩
  exact hs.run hr

/-- Any run is one that meets no condition. -/
theorem any_run_safe (hq : Quiet env d₀) (hr : Trace.Run (Step (act env)) (initial env req d₀) xs t) :
    AllSafe (rules env req d₀ fun _ _ => true) (Settled req) t := by
  refine run_safe hq (hr.mono fun s e t h => ⟨h, ?_⟩)
  unfold meets
  split
  · simp
  · rfl

end Runs
end Kayan.Auth
