import Kayan.Auth.Invariant
import Kayan.Lib.SoleClient
import Kayan.Lib.TwoRuns

/-!
# Requests for a registration

What `requestRegistrationOtp` can come to: it sends an OTP exactly if no user has the email or the phone and no
pending registration is in the way, be it expired or not.
-/
namespace Kayan.Auth
open RowStore Interleave

variable {env : Env} {c : Client} {dto : RequestRegistrationOtpDto} {d d' : Db}

section Definitions
variable (env : Env) (dto : RequestRegistrationOtpDto)

/-- What the indexes of `pending_registrations` and `LOWER` keep, while no transaction is open. -/
structure Indexed (t : Table Client PendingRegistration) : Prop where
  unlocked : t.Unlocked
  lowered : ∀ i row, t.committed i = some row → env.lower row.email = row.email
  unique : ∀ i j r r', t.committed i = some r → t.committed j = some r' → r.email = r'.email → i = j

/-- A user has the email or the phone. -/
def HasUser (d : Db) : Prop :=
  ∃ r ∈ d.users.committedRows, (∃ e, r.email = some e ∧ env.lower e = env.lower dto.email) ∨ r.phone = some dto.phone

/-- The pending registration is in the way: it has the email in a spelling that `toLowerCase` tells apart, or the
phone with another email. -/
def Blocks (row : PendingRegistration) : Prop :=
  (env.lower row.email = env.lower dto.email ∧ env.toLowerCase row.email ≠ env.toLowerCase dto.email) ∨
    (row.phone = some dto.phone ∧ row.email ≠ env.lower dto.email)

def Blocked (d : Db) : Prop := ∃ i row, d.pending.committed i = some row ∧ Blocks env dto row

/-- What is answered when an OTP is sent. -/
def otpSent : Payload := buildOtpSentResponse (if env.config.otpDevMode then some "000000" else none)

end Definitions

section Statements
variable {q : Stmt}

/-- Users and pending registrations are as they were. -/
def Untouched (d d' : Db) : Prop := d'.users = d.users ∧ d'.pending = d.pending

/-- The reply of a statement that only reads, and the store afterwards. -/
theorem read_cases {value : Nat → Nat → Reply q} {v : Answer q}
    (hq : ∀ wait draw, exec env draw c q (tick wait d) = some (.ok (value wait draw), tick wait d))
    (h : anyMove (act env) c q d v d') :
    ((∃ wait draw, v = .ok (value wait draw)) ∨ ∃ e, v = .error e) ∧ Untouched d d' := by
  obtain ⟨m, hact⟩ := h
  cases m with
  | run wait draw =>
    obtain ⟨e, hexec, rfl⟩ := act_run hact
    rw [hq] at hexec
    cases hexec
    exact ⟨.inl ⟨wait, draw, rfl⟩, rfl, rfl⟩
  | fail err =>
    obtain ⟨rfl, rfl⟩ := act_fail hact
    exact ⟨.inr ⟨err, rfl⟩, rfl, rfl⟩

theorem selectUser_cases {found : Bool} (h : anyMove (act env) c (.selectUser dto.email dto.phone) d (.ok found) d') :
    (found = true ↔ HasUser env dto d) ∧ Untouched d d' := by
  obtain ⟨⟨wait, draw, hv⟩ | ⟨e, hv⟩, hd⟩ := read_cases (fun _ _ => rfl) h
  · cases hv
    refine ⟨?_, hd⟩
    simp [HasUser, tick, List.any_eq_true, Option.any_eq_true]
  · cases hv

/-- The rows that the check for a conflict selects from. -/
def Matches (env : Env) (dto : RequestRegistrationOtpDto) (row : PendingRegistration) : Prop :=
  env.lower row.email = env.lower dto.email ∨ row.phone = some dto.phone

theorem selectPending_cases {found : Option PendingRegistration}
    (h : anyMove (act env) c (.selectPending dto.email dto.phone) d (.ok found) d') :
    (∀ row, found = some row → Matches env dto row ∧ ∃ i, d.pending.committed i = some row) ∧
      (found = none → ∀ i row, d.pending.committed i = some row → ¬ Matches env dto row) ∧ Untouched d d' := by
  obtain ⟨⟨wait, draw, hv⟩ | ⟨e, hv⟩, hd⟩ := read_cases (fun _ _ => rfl) h
  · cases hv
    refine ⟨fun row hrow => ?_, fun hnone i row hi hmatch => ?_, hd⟩
    · obtain ⟨hmem, hmatch⟩ := List.mem_filter.mp (pick_mem hrow)
      obtain ⟨i, hi⟩ := Table.mem_committedRows.mp hmem
      exact ⟨by simpa [Matches] using hmatch, i, hi⟩
    · have hempty := mt (@pick_isSome draw _ _).mpr (Option.not_isSome_iff_eq_none.mpr hnone)
      have hmem : row ∈ d.pending.committedRows.filter fun r =>
          env.lower r.email = env.lower dto.email || r.phone = some dto.phone :=
        List.mem_filter.mpr ⟨Table.mem_committedRows.mpr ⟨i, hi⟩, by simpa [Matches] using hmatch⟩
      exact hempty (List.ne_nil_of_mem hmem)
  · cases hv

/-- The row that is upserted. -/
def requestedRow (env : Env) (dto : RequestRegistrationOtpDto) (passwordHash : String) (now : Nat) : PendingRegistration where
  email := env.lower dto.email
  phone := some dto.phone
  name := dto.name
  address := dto.address
  passwordHash := passwordHash
  expiresAt := now + env.config.otpTtlMinutes * minute
  createdAt := now

theorem upsertPending_users {row : PendingRegistration} {v : Except PgError Unit} (h : upsertPending c row d = some (v, d')) :
    d'.users = d.users := by
  obtain rfl | ⟨-, rfl⟩ | ⟨i, r, -, -, -, rfl⟩ := upsertPending_cases h <;> rfl

/-- An upsert that succeeds finds no other row with the phone. -/
theorem upsertPending_ok {row : PendingRegistration} (h : upsertPending c row d = some (.ok (), d')) :
    ∀ i r, d.pending.committed i = some r → r.phone = row.phone → row.phone.isSome = true → r.email = row.email := by
  intro i r hi hphone hsome
  by_contra hemail
  obtain ⟨phone, hp⟩ := Option.isSome_iff_exists.mp hsome
  have hkey : (committedKey (fun r => r.email ≠ row.email && row.phone.any fun p => r.phone = some p) d.pending).isSome = true := by
    rcases hk : committedKey (fun r => r.email ≠ row.email && row.phone.any fun p => r.phone = some p) d.pending with _ | j
    · have hfalse := committedKey_none hk hi
      simp [hemail, hp, hphone] at hfalse
    · exact Option.isSome_iff_exists.mpr ⟨j, hk⟩
  unfold upsertPending at h
  simp only [hkey, if_true] at h
  split at h
  · cases h
  · split at h <;> cases h

/-- An upsert that nobody is in the way of succeeds. -/
theorem upsertPending_runs (hu : d.pending.Unlocked) (row : PendingRegistration)
    (h : ∀ i r, d.pending.committed i = some r → r.phone = row.phone → r.email = row.email) :
    ∃ d', upsertPending c row d = some (.ok (), d') := by
  have hkey : committedKey (fun r => r.email ≠ row.email && row.phone.any fun p => r.phone = some p) d.pending = none := by
    rcases hk : committedKey (fun r => r.email ≠ row.email && row.phone.any fun p => r.phone = some p) d.pending with _ | j
    · exact hk
    · obtain ⟨r, hi, hr⟩ := committedKey_some hk
      simp only [ne_eq, Bool.and_eq_true, decide_eq_true_eq] at hr
      obtain ⟨p, hp, hphone⟩ := Option.any_eq_true _ _ |>.mp hr.2
      exact absurd (h j r hi ((of_decide_eq_true hphone).trans hp.symm)) (by simpa using hr.1)
  have hfree : ∀ key : Option Nat, (key.any fun i => (d.pending.cell i).held.isSome) = false := by
    intro key
    cases key with
    | none => rfl
    | some i => simp [hu i]
  unfold upsertPending
  simp only [hkey, hfree]
  cases committedKey (fun r => r.email = row.email) d.pending with
  | none => exact ⟨_, rfl⟩
  | some i => exact ⟨_, rfl⟩

end Statements

section Sending
variable {email : String} {purpose : OtpPurpose} {userId : Option Nat} {α : Type}

theorem query_error {q : Stmt} {e : Failure} (h : Runs (anyMove (act env) c) (query q).run d (.error e) d') :
    ∃ err, e = .database err := by
  obtain ⟨v, -, hv⟩ := Runs.of_await h
  cases v with
  | ok v => cases hv
  | error err => exact ⟨err, Except.error.inj hv⟩

theorem query_ok {q : Stmt} {v : Reply q} (h : Runs (anyMove (act env) c) (query q).run d (.ok v) d') :
    anyMove (act env) c q d (.ok v) d' := by
  obtain ⟨v', hact, hv⟩ := Runs.of_await h
  cases v' with
  | ok v' =>
    cases hv
    exact hact
  | error err => cases hv

/-- A statement that can run. -/
theorem query_runs {q : Stmt} {v : Reply q} {e : Db} (h : exec env 0 c q (tick 0 d) = some (.ok v, e)) :
    ∃ d', Runs (anyMove (act env) c) (query q).run d (.ok v) d' ∧ d'.users = e.users ∧ d'.pending = e.pending := by
  have hact : act env (.run 0 0) c q d =
      some (.ok v, { e with history := (otpEvent c q (.ok v) (tick 0 d)).toList ++ e.history }) :=
    congrArg (Option.map _) h
  have hmove : anyMove (act env) c q d (.ok v)
      { e with history := (otpEvent c q (.ok v) (tick 0 d)).toList ++ e.history } := ⟨.run 0 0, hact⟩
  exact ⟨_, .await hmove, rfl, rfl⟩

/-- A draw in development mode has one result. -/
theorem drawOtp_cases {r : Except Failure String} (h : Runs (anyMove (act env) c) (drawOtp env).run d r d') :
    (∃ otp, r = .ok otp ∧ (env.config.otpDevMode = true → otp = "000000")) ∨ ∃ e, r = .error (.database e) := by
  by_cases hdev : env.config.otpDevMode = true
  · rw [drawOtp, if_pos hdev] at h
    cases h
    exact .inl ⟨_, rfl, fun _ => rfl⟩
  · rw [drawOtp, if_neg hdev] at h
    obtain ⟨n, d₁, -, hret⟩ | ⟨e, hquery, rfl⟩ := Runs.of_then h
    · cases hret
      exact .inl ⟨_, rfl, fun h => absurd h hdev⟩
    · obtain ⟨err, rfl⟩ := query_error hquery
      exact .inr ⟨err, rfl⟩

theorem startVerification_cases {r : Except Failure (Option String)}
    (h : Runs (anyMove (act env) c) (startVerification env email purpose userId).run d r d') :
    r = .ok (if env.config.otpDevMode then some "000000" else none) ∨ ∃ e, r = .error (.database e) := by
  obtain ⟨otp, d₁, hdraw, hrest⟩ | ⟨e, hdraw, rfl⟩ := Runs.of_then h
  · obtain ⟨otp', hotp, hdev⟩ | ⟨e, hotp⟩ := drawOtp_cases hdraw
    · cases hotp
      obtain ⟨salt, d₂, -, hrest⟩ | ⟨e, hquery, rfl⟩ := Runs.of_then hrest
      · obtain ⟨_, d₃, -, hret⟩ | ⟨e, hquery, rfl⟩ := Runs.of_then hrest
        · cases hret
          left
          by_cases h : env.config.otpDevMode = true
          · simp [h, hdev h]
          · simp [h]
        · obtain ⟨err, rfl⟩ := query_error hquery
          exact .inr ⟨err, rfl⟩
      · obtain ⟨err, rfl⟩ := query_error hquery
        exact .inr ⟨err, rfl⟩
    · cases hotp
  · obtain ⟨otp', hotp, -⟩ | ⟨err, hotp⟩ := drawOtp_cases hdraw
    · cases hotp
    · cases hotp
      exact .inr ⟨err, rfl⟩

theorem startVerification_runs (env : Env) (c : Client) (email : String) (purpose : OtpPurpose) (userId : Option Nat) (d : Db) :
    ∃ d', Runs (anyMove (act env) c) (startVerification env email purpose userId).run d
      (.ok (if env.config.otpDevMode then some "000000" else none)) d' := by
  have hdraw : ∃ otp d₁, Runs (anyMove (act env) c) (drawOtp env).run d (.ok otp) d₁ ∧
      (env.config.otpDevMode = true → otp = "000000") := by
    by_cases hdev : env.config.otpDevMode = true
    · rw [drawOtp, if_pos hdev]
      exact ⟨_, d, .ret, fun _ => rfl⟩
    · rw [drawOtp, if_neg hdev]
      obtain ⟨d₁, hrun, -⟩ := @query_runs env c d (.randomInt otpRangeMin otpRangeMax) _ _ rfl
      exact ⟨_, d₁, .then hrun .ret, fun h => absurd h hdev⟩
  obtain ⟨otp, d₁, hdraw, hdev⟩ := hdraw
  obtain ⟨d₂, hsalt, -⟩ := @query_runs env c d₁ .randomBytes _ _ rfl
  obtain ⟨d₃, hinsert, -⟩ := @query_runs env c d₂
    (.insertOtp userId email (hashOtp env otp (hexOf 0)) (hexOf 0) purpose env.config.otpTtlMinutes) _ _ rfl
  refine ⟨d₃, .then hdraw (.then hsalt (.then hinsert ?_))⟩
  have hsent : (if env.config.otpDevMode then some otp else none) = if env.config.otpDevMode then some "000000" else none := by
    by_cases h : env.config.otpDevMode = true
    · simp [h, hdev h]
    · simp [h]
  rw [hsent]
  exact .ret

end Sending

section Requests
variable {r : Except Failure Payload} {d₁ : Db}

/-- The answer that the email or the phone is in use. -/
def alreadyExists : Except Failure Payload := .error (.conflict "Email or phone already exists")

theorem hash_read {password : String} {rounds : Nat} {v : Answer (.hash password rounds)}
    (h : anyMove (act env) c (.hash password rounds) d v d') : Untouched d d' :=
  (read_cases (fun _ _ => rfl) h).2

/-- No pending registration was in the way of an upsert that succeeds after the check. -/
theorem unblocked_of_upsert (hi : Indexed env d.pending) {found : Option PendingRegistration} {passwordHash : String}
    (hsome : ∀ row, found = some row → Matches env dto row ∧ ∃ i, d.pending.committed i = some row)
    (hnone : found = none → ∀ i row, d.pending.committed i = some row → ¬ Matches env dto row)
    (hcheck : ∀ row, found = some row → env.toLowerCase row.email = env.toLowerCase dto.email)
    (hupsert : anyMove (act env) c
      (.upsertPending dto.email dto.phone dto.name dto.address passwordHash env.config.otpTtlMinutes) d₁ (.ok ()) d')
    (hd : d₁.pending = d.pending) : ¬ Blocked env dto d := by
  have hphone : ∀ i row, d.pending.committed i = some row → row.phone = some dto.phone → row.email = env.lower dto.email := by
    obtain ⟨m, hact⟩ := hupsert
    cases m with
    | fail err =>
      obtain ⟨hv, -⟩ := act_fail hact
      cases hv
    | run wait draw =>
      obtain ⟨e, hexec, -⟩ := act_run hact
      intro i row hrow hphone
      refine upsertPending_ok hexec i row ?_ hphone rfl
      exact (congrArg (Table.committed · i) hd).trans hrow
  have hemail : ∀ i row, d.pending.committed i = some row → Matches env dto row → row.email = env.lower dto.email := by
    intro i row hrow hmatch
    rcases hmatch with hlower | hsame
    · rw [← hlower, hi.lowered i row hrow]
    · exact hphone i row hrow hsame
  rintro ⟨i, row, hrow, ⟨hlower, hcase⟩ | ⟨hsame, hother⟩⟩
  · rcases hfound : found with _ | other
    · exact hnone hfound i row hrow (.inl hlower)
    · obtain ⟨hmatch, j, hj⟩ := hsome other hfound
      have hsame : other.email = row.email :=
        (hemail j other hj hmatch).trans (hemail i row hrow (.inl hlower)).symm
      rw [← hsame] at hcase
      exact hcase (hcheck other hfound)
  · exact hother (hphone i row hrow hsame)

/-- What a request can come to. -/
theorem request_cases (hi : Indexed env d.pending)
    (h : Runs (anyMove (act env) c) (requestRegistrationOtp env dto).run d r d') :
    r = alreadyExists ∨ (∃ e, r = .error (.database e)) ∨
      (r = .ok (otpSent env) ∧ ¬ HasUser env dto d ∧ ¬ Blocked env dto d) := by
  have hfailed : ∀ {q : Stmt} {e : Failure} {d₁ d₂ : Db}, Runs (anyMove (act env) c) (query q).run d₁ (.error e) d₂ →
      (.error e : Except Failure Payload) = alreadyExists ∨ (∃ err, (.error e : Except Failure Payload) = .error (.database err)) ∨
        ((.error e : Except Failure Payload) = .ok (otpSent env) ∧ ¬ HasUser env dto d ∧ ¬ Blocked env dto d) := by
    intro q e d₁ d₂ hquery
    obtain ⟨err, rfl⟩ := query_error hquery
    exact .inr (.inl ⟨err, rfl⟩)
  obtain ⟨existingUser, d₁, hselect, hrest⟩ | ⟨e, hselect, rfl⟩ := Runs.of_then h
  · obtain ⟨huser, -, hpending₁⟩ := selectUser_cases (query_ok hselect)
    cases existingUser with
    | true =>
      cases hrest
      exact .inl rfl
    | false =>
      have hnouser : ¬ HasUser env dto d := fun h => Bool.false_ne_true (huser.mpr h)
      obtain ⟨found, d₂, hselect, hrest⟩ | ⟨e, hselect, rfl⟩ := Runs.of_then (x := query _) hrest
      · obtain ⟨hsome, hnone, -, hpending₂⟩ := selectPending_cases (query_ok hselect)
        rw [hpending₁] at hsome hnone
        by_cases hcheck : (found.any fun row => env.toLowerCase row.email ≠ env.toLowerCase dto.email) = true
        · simp only [hcheck, if_true] at hrest
          cases hrest
          exact .inl rfl
        · have hchecked : ∀ row, found = some row → env.toLowerCase row.email = env.toLowerCase dto.email := by
            intro row hrow
            simpa [hrow] using hcheck
          simp only [hcheck] at hrest
          obtain ⟨passwordHash, d₃, hhash, hrest⟩ | ⟨e, hhash, rfl⟩ := Runs.of_then (x := query _) hrest
          · have hpending₃ := (hash_read (query_ok hhash)).2
            have hpending : d₃.pending = d.pending := hpending₃.trans (hpending₂.trans hpending₁)
            obtain ⟨_, d₄, hupsert, hrest⟩ | ⟨e, hupsert, rfl⟩ := Runs.of_then hrest
            · obtain ⟨o, d₅, hquery, hcaught⟩ := Runs.of_bind hupsert
              cases o with
              | error e => cases hcaught
              | ok v =>
                have hunblocked := unblocked_of_upsert hi hsome hnone hchecked (query_ok hquery) hpending
                obtain ⟨otp, d₆, hstart, hret⟩ | ⟨e, hstart, rfl⟩ := Runs.of_then hrest
                · cases hret
                  obtain hotp | ⟨e, hotp⟩ := startVerification_cases hstart
                  · cases hotp
                    exact .inr (.inr ⟨rfl, hnouser, hunblocked⟩)
                  · cases hotp
                · obtain hotp | ⟨err, hotp⟩ := startVerification_cases hstart
                  · cases hotp
                  · cases hotp
                    exact .inr (.inl ⟨err, rfl⟩)
            · obtain ⟨o, d₅, -, hcaught⟩ := Runs.of_bind hupsert
              cases o with
              | ok v => cases hcaught
              | error err =>
                cases hcaught
                exact .inl rfl
          · exact hfailed hhash
      · exact hfailed hselect
  · exact hfailed hselect

/-- What follows the checks of a request. -/
def upsertAndSend (env : Env) (dto : RequestRegistrationOtpDto) (passwordHash : String) : Code Payload := do
  tryCatch
    (query (.upsertPending dto.email dto.phone dto.name dto.address passwordHash env.config.otpTtlMinutes))
    fun _ => conflict "Email or phone already exists"
  let otp ← startVerification env dto.email .registration none
  pure (buildOtpSentResponse otp)

/-- A request that is not delayed is refused, or passes its checks. -/
theorem request_checks (env : Env) (c : Client) (dto : RequestRegistrationOtpDto) (d : Db) :
    ((HasUser env dto d ∨ Blocked env dto d) ∧
        ∃ d', Runs (anyMove (act env) c) (requestRegistrationOtp env dto).run d alreadyExists d') ∨
      ∃ passwordHash d₃, d₃.pending = d.pending ∧ ∀ r d', Runs (anyMove (act env) c) (upsertAndSend env dto passwordHash).run d₃ r d' →
        Runs (anyMove (act env) c) (requestRegistrationOtp env dto).run d r d' := by
  obtain ⟨d₁, hselect, -⟩ := @query_runs env c d (.selectUser dto.email dto.phone) _ _ rfl
  obtain ⟨huser, -, hpending₁⟩ := selectUser_cases (query_ok hselect)
  generalize (tick 0 d).users.committedRows.any _ = existingUser at hselect huser
  cases existingUser with
  | true => exact .inl ⟨.inl (huser.mp rfl), d₁, .then hselect .ret⟩
  | false =>
    obtain ⟨d₂, hfind, -⟩ := @query_runs env c d₁ (.selectPending dto.email dto.phone) _ _ rfl
    obtain ⟨hsome, -, -, hpending₂⟩ := selectPending_cases (query_ok hfind)
    generalize pick 0 _ = found at hfind hsome
    by_cases hcheck : (found.any fun row => env.toLowerCase row.email ≠ env.toLowerCase dto.email) = true
    · left
      refine ⟨.inr ?_, d₂, .then hselect (.then hfind ?_)⟩
      · obtain ⟨row, hrow, hcase⟩ := (Option.any_eq_true _ _).mp hcheck
        obtain ⟨hmatch, i, hi⟩ := hsome row hrow
        rw [hpending₁] at hi
        refine ⟨i, row, hi, ?_⟩
        by_cases hemail : row.email = env.lower dto.email
        · exact .inl ⟨by rw [hemail, env.lower_lower], of_decide_eq_true hcase⟩
        · rcases hmatch with hlower | hphone
          · exact .inl ⟨hlower, of_decide_eq_true hcase⟩
          · exact .inr ⟨hphone, hemail⟩
      · simp only [hcheck, if_true]
        exact .ret
    · right
      obtain ⟨d₃, hhash, -⟩ := @query_runs env c d₂ (.hash dto.password bcryptRounds) _ _ rfl
      have hpending₃ := (hash_read (query_ok hhash)).2
      refine ⟨env.bcrypt dto.password bcryptRounds (hexOf 0), d₃, hpending₃.trans (hpending₂.trans hpending₁), fun r d' hrest => .then hselect (.then hfind ?_)⟩
      simp only [hcheck]
      exact .then hhash hrest

/-- A request that nobody is in the way of sends an OTP. -/
theorem request_runs (hi : Indexed env d.pending) (huser : ¬ HasUser env dto d) (hblocked : ¬ Blocked env dto d) :
    ∃ d', Runs (anyMove (act env) c) (requestRegistrationOtp env dto).run d (.ok (otpSent env)) d' := by
  obtain ⟨h, -⟩ | ⟨passwordHash, d₃, hpending, hrest⟩ := request_checks env c dto d
  · exact absurd h (not_or.mpr ⟨huser, hblocked⟩)
  · have hunlocked : (tick 0 d₃).pending.Unlocked := by
      intro i
      exact (congrArg (fun t => (t.cell i).held) hpending).trans (hi.unlocked i)
    have hfree : ∀ i row, (tick 0 d₃).pending.committed i = some row → row.phone = some dto.phone →
        row.email = env.lower dto.email := by
      intro i row hrow hphone
      by_contra hemail
      exact hblocked ⟨i, row, (congrArg (Table.committed · i) hpending).symm.trans hrow, .inr ⟨hphone, hemail⟩⟩
    obtain ⟨e, hexec⟩ := upsertPending_runs (c := c) hunlocked (requestedRow env dto passwordHash (tick 0 d₃).clock) hfree
    obtain ⟨d₄, hupsert, -⟩ := @query_runs env c d₃
      (.upsertPending dto.email dto.phone dto.name dto.address passwordHash env.config.otpTtlMinutes) _ _ hexec
    have hcaught : Runs (anyMove (act env) c) (tryCatch
        (query (.upsertPending dto.email dto.phone dto.name dto.address passwordHash env.config.otpTtlMinutes))
        fun _ => conflict "Email or phone already exists" : Code Unit).run d₃ (.ok ()) d₄ := Runs.bind hupsert .ret
    obtain ⟨d₅, hstart⟩ := startVerification_runs env c dto.email .registration none d₄
    exact ⟨d₅, hrest _ d₅ (.then hcaught (.then hstart .ret))⟩

/-- Every request may be refused: its statements may fail. -/
theorem request_refused (env : Env) (c : Client) (dto : RequestRegistrationOtpDto) (d : Db) :
    ∃ d', Runs (anyMove (act env) c) (requestRegistrationOtp env dto).run d alreadyExists d' := by
  obtain ⟨-, hrefused⟩ | ⟨passwordHash, d₃, -, hrest⟩ := request_checks env c dto d
  · exact hrefused
  · have hfail : anyMove (act env) c
        (.upsertPending dto.email dto.phone dto.name dto.address passwordHash env.config.otpTtlMinutes) d₃
        (.error .uniqueViolation) d₃ := ⟨.fail .uniqueViolation, rfl⟩
    have hcaught : Runs (anyMove (act env) c) (tryCatch
        (query (.upsertPending dto.email dto.phone dto.name dto.address passwordHash env.config.otpTtlMinutes))
        fun _ => conflict "Email or phone already exists" : Code Unit).run d₃
          (.error (.conflict "Email or phone already exists")) d₃ := .caught (.await hfail) .ret
    exact ⟨d₃, hrest _ d₃ (Runs.bind hcaught .ret)⟩

theorem request_failed (env : Env) (c : Client) (dto : RequestRegistrationOtpDto) (d : Db) (e : PgError) :
    Runs (anyMove (act env) c) (requestRegistrationOtp env dto).run d (.error (.database e)) d := by
  have hfail : anyMove (act env) c (.selectUser dto.email dto.phone) d (.error e) d := ⟨.fail e, rfl⟩
  exact .call hfail .ret

/-- The statements of a request. -/
def Stmt.requests : Stmt → Bool
  | .selectUser _ _ => true
  | .selectPending _ _ => true
  | .hash _ _ => true
  | .upsertPending _ _ _ _ _ _ => true
  | .randomInt _ _ => true
  | .randomBytes => true
  | .insertOtp _ _ _ _ _ _ => true
  | _ => false

theorem startVerification_requests {email : String} {purpose : OtpPurpose} {userId : Option Nat} :
    Confined (fun q => q.requests = true) (startVerification env email purpose userId) := by
  refine Confined.bind ?_ fun otp => Confined.bind (Confined.await rfl) fun salt =>
    Confined.bind (Confined.await rfl) fun _ => Confined.pure
  unfold drawOtp
  split
  · exact Confined.pure
  · exact Confined.bind (Confined.await rfl) fun _ => Confined.pure

theorem request_requests (env : Env) (dto : RequestRegistrationOtpDto) :
    Confined (fun q => q.requests = true) (requestRegistrationOtp env dto) := by
  refine Confined.bind (Confined.await rfl) fun existingUser => ?_
  cases existingUser with
  | true => exact Confined.throw
  | false =>
    refine Confined.bind (x := query _) (Confined.await rfl) fun found => ?_
    split
    · exact Confined.throw
    · refine Confined.bind (Confined.await rfl) fun passwordHash => ?_
      refine Confined.bind (Confined.catch (Confined.await rfl) fun _ => Confined.throw) fun _ => ?_
      exact Confined.bind startVerification_requests fun _ => Confined.pure

theorem exec_requests {draw : Nat} {q : Stmt} {v : Answer q} (hq : q.requests = true)
    (h : exec env draw c q d = some (v, d')) : d'.users = d.users := by
  cases q with
  | upsertPending => exact upsertPending_users h
  | selectUser | selectPending | hash | randomInt | randomBytes | insertOtp =>
    cases h
    rfl
  | _ => cases hq

theorem request_users (h : Runs (anyMove (act env) c) (requestRegistrationOtp env dto).run d r d') : d'.users = d.users := by
  refine Issues.runs (I := fun e => e.users = d.users) (request_requests env dto) (fun q d₁ v d₂ hq hact hd₁ => ?_) h rfl
  obtain ⟨m, hact⟩ := hact
  cases m with
  | run wait draw =>
    obtain ⟨e, hexec, rfl⟩ := act_run hact
    exact (exec_requests hq hexec).trans hd₁
  | fail err =>
    obtain ⟨-, rfl⟩ := act_fail hact
    exact hd₁

/-- What a request comes to depends on whether a user or a pending registration is in the way. -/
theorem request_outcomes (hi : Indexed env d.pending) {users : Table Client User} :
    (r, users) ∈ Outcomes (anyMove (act env) c) Db.users (requestRegistrationOtp env dto).run d ↔
      users = d.users ∧ (r = alreadyExists ∨ (∃ e, r = .error (.database e)) ∨
        (r = .ok (otpSent env) ∧ ¬ HasUser env dto d ∧ ¬ Blocked env dto d)) := by
  constructor
  · rintro ⟨d', hrun, rfl⟩
    exact ⟨request_users hrun, request_cases hi hrun⟩
  · rintro ⟨rfl, rfl | ⟨e, rfl⟩ | ⟨rfl, huser, hblocked⟩⟩
    · obtain ⟨d', hrun⟩ := request_refused env c dto d
      exact ⟨d', hrun, request_users hrun⟩
    · exact ⟨d, request_failed env c dto d e, rfl⟩
    · obtain ⟨d', hrun⟩ := request_runs (c := c) hi huser hblocked
      exact ⟨d', hrun, request_users hrun⟩

end Requests

end Kayan.Auth
