import Kayan.Auth.Otp
import Kayan.Lib.RowVersions
import Kayan.Lib.TwoRuns

/-!
# Spellings of an email

Accounts and pending registrations are found by `LOWER(email)`, and OTPs and attempts by the email as it was
received. So a code is asked for and presented in one spelling, and each spelling has attempts of its own.
-/
namespace Kayan.Auth
open RowStore Interleave

variable {env : Env} {c : Client} {e e' email code : String} {purpose : OtpPurpose} {d d' d₁ : Db}

section Definitions
variable (env : Env)

/-- The requests for an OTP, with the purpose that it is for. -/
inductive Asks (email : String) : OtpPurpose → Code Payload → Prop
  | registration {dto : RequestRegistrationOtpDto} (h : dto.email = email) :
      Asks email .registration (requestRegistrationOtp env dto)
  | resend : Asks email .registration (resendRegistrationOtp env email)
  | passwordReset : Asks email .passwordReset (requestPasswordResetOtp env email)

/-- The call that a code is for. -/
def presenting (purpose : OtpPurpose) (email code newPassword confirmPassword : String) : Code Payload :=
  match purpose with
  | .registration => verifyRegistrationOtp env email code
  | .passwordReset => resetPassword env ⟨email, code, newPassword, confirmPassword⟩

/-- The code was issued between the two stores. -/
def IssuedCode (email : String) (purpose : OtpPurpose) (code : String) (d d' : Db) : Prop :=
  ∃ otp, d'.otps = otp :: d.otps ∧ otp.email = email ∧ otp.purpose = purpose ∧ otp.codeHash = hashOtp env code otp.salt

/-- The attempts that wrong codes make, under one spelling after the other. -/
def attemptAll (purpose : OtpPurpose) : List String → Code (List IncrementOtpResult)
  | [] => pure []
  | email :: emails => do
    let result ← incrementOtpAttempts email purpose otpMaxAttempts otpAttemptsTtlSeconds
    let results ← attemptAll purpose emails
    pure (result :: results)

/-- Attempts count alike under both spellings. -/
def SameLimit (c : Client) (purpose : OtpPurpose) (e e' : String) (d : Db) : Prop :=
  ∀ l l' : List String, (∀ x ∈ l, x = e ∨ x = e') → (∀ x ∈ l', x = e ∨ x = e') → l.length = l'.length →
    Results (anyMove (act env) c) (attemptAll purpose l).run d = Results (anyMove (act env) c) (attemptAll purpose l').run d

/-- The spelling in which an issued code is presented does not matter, nor that of attempts. -/
structure CaseBlind (c : Client) (e e' : String) (d : Db) : Prop where
  outcome : ∀ {purpose : OtpPurpose} {request : Code Payload} {r : Except Failure Payload} {d₁ : Db} {code : String},
    Asks env e purpose request → Runs (anyMove (act env) c) request.run d r d₁ → IssuedCode env e purpose code d d₁ →
    ∀ c' newPassword confirmPassword,
      Results (anyMove (act env) c') (presenting env purpose e' code newPassword confirmPassword).run d₁ =
        Results (anyMove (act env) c') (presenting env purpose e code newPassword confirmPassword).run d₁
  limit : ∀ purpose, SameLimit env c purpose e e' d

end Definitions

section Attempts
variable {result : IncrementOtpResult} {r : Except Failure IncrementOtpResult} {wait : Nat}

/-- A count either goes on or has lapsed. -/
theorem liveAttempts_tick : (tick wait d).liveAttempts email purpose = 0 ∨
    (tick wait d).liveAttempts email purpose = d.liveAttempts email purpose := by
  unfold Db.liveAttempts tick
  cases hrow : d.attempts email purpose with
  | none => exact .inl rfl
  | some row =>
    by_cases hlapsed : row.expiresAt ≤ d.clock + wait
    · simp [hlapsed]
    · have hlive : ¬ row.expiresAt ≤ d.clock := by omega
      simp [hlapsed, hlive]

theorem liveAttempts_later (hclock : d.clock ≤ d'.clock) (hrow : d'.attempts email purpose = d.attempts email purpose) :
    d'.liveAttempts email purpose = 0 ∨ d'.liveAttempts email purpose = d.liveAttempts email purpose := by
  have hwait : d.clock + (d'.clock - d.clock) = d'.clock := by omega
  have htick := @liveAttempts_tick email purpose d (d'.clock - d.clock)
  simp only [Db.liveAttempts, tick, hwait, hrow] at htick ⊢
  exact htick

theorem nextAttempts_expiresAt {now ttlSeconds : Nat} {row : Option OtpAttempts} (httl : 0 < ttlSeconds) :
    now < (nextAttempts now ttlSeconds row).expiresAt := by
  unfold nextAttempts
  cases row with
  | none =>
    simp only
    omega
  | some row =>
    by_cases h : row.expiresAt ≤ now
    · simp only [h, if_true]
      omega
    · simp only [h, if_false]
      omega

/-- A statement that has replied, and the store without what the history notes of it. -/
theorem anyMove_ok {q : Stmt} {v : Reply q} (h : anyMove (act env) c q d (.ok v) d') : ∃ wait draw e,
    exec env draw c q (tick wait d) = some (.ok v, e) ∧ d'.attempts = e.attempts ∧ d'.clock = e.clock := by
  obtain ⟨m, hact⟩ := h
  cases m with
  | run wait draw =>
    obtain ⟨e, he, rfl⟩ := act_run hact
    exact ⟨wait, draw, e, he, rfl, rfl⟩
  | fail err =>
    obtain ⟨hv, -⟩ := act_fail hact
    cases hv

/-- Only the attempts of the spelling are touched, and time goes on. -/
def Apart (email : String) (purpose : OtpPurpose) (d d' : Db) : Prop :=
  (∀ x, x ≠ email → d'.attempts x purpose = d.attempts x purpose) ∧ d.clock ≤ d'.clock

theorem Apart.trans {d'' : Db} (h : Apart email purpose d d') (h' : Apart email purpose d' d'') :
    Apart email purpose d d'' :=
  ⟨fun x hx => (h'.1 x hx).trans (h.1 x hx), h.2.trans h'.2⟩

theorem upsert_cases {attempts ttlSeconds : Nat}
    (h : anyMove (act env) c (.upsertOtpAttempts email purpose ttlSeconds) d (.ok attempts) d') :
    (attempts = 1 ∨ attempts = d.liveAttempts email purpose + 1) ∧ Apart email purpose d d' := by
  obtain ⟨wait, draw, e, hexec, hrows, hclock⟩ := anyMove_ok h
  obtain ⟨hv, he⟩ := Prod.mk.inj (Option.some.inj hexec)
  have hattempts := Except.ok.inj hv
  have hnext := @nextAttempts_live email purpose ttlSeconds (tick wait d)
  have htick := @liveAttempts_tick email purpose d wait
  refine ⟨?_, fun x hx => ?_, ?_⟩
  · rw [← hattempts, hnext]
    omega
  · rw [hrows, ← he]
    simp [hx, tick]
  · rw [hclock, ← he]
    exact Nat.le_add_right _ _

theorem delete_cases {v : Unit} (h : anyMove (act env) c (.deleteOtpAttempts email purpose) d (.ok v) d') :
    d'.attempts email purpose = none ∧ Apart email purpose d d' := by
  obtain ⟨wait, draw, e, hexec, hrows, hclock⟩ := anyMove_ok h
  obtain ⟨-, he⟩ := Prod.mk.inj (Option.some.inj hexec)
  refine ⟨?_, fun x hx => ?_, ?_⟩
  · rw [hrows, ← he]
    simp
  · rw [hrows, ← he]
    simp [hx, tick]
  · rw [hclock, ← he]
    exact Nat.le_add_right _ _

/-- What a successful attempt has counted, and for whom. -/
theorem increment_cases
    (h : Runs (anyMove (act env) c) (incrementOtpAttempts email purpose otpMaxAttempts otpAttemptsTtlSeconds).run d (.ok result) d₁) :
    (result.attempts = 1 ∨ result.attempts = d.liveAttempts email purpose + 1) ∧
      (otpMaxAttempts ≤ result.attempts → d₁.attempts email purpose = none) ∧ Apart email purpose d d₁ := by
  obtain ⟨attempts, d₂, hquery, hrest⟩ | ⟨e, -, hr⟩ := Runs.of_then h
  · obtain ⟨v, hupsert, hv⟩ := Runs.of_await hquery
    cases v with
    | error e => cases hv
    | ok v =>
      cases hv
      obtain ⟨hcount, hapart⟩ := upsert_cases hupsert
      by_cases hlimit : otpMaxAttempts ≤ attempts
      · rw [if_pos hlimit] at hrest
        obtain ⟨u, d₃, hclear, hret⟩ | ⟨e, -, hr⟩ := Runs.of_then hrest
        · obtain ⟨v, hdelete, hv⟩ := Runs.of_await hclear
          cases v with
          | error e => cases hv
          | ok v =>
            cases hret
            obtain ⟨hnone, hapart'⟩ := delete_cases hdelete
            exact ⟨hcount, fun _ => hnone, hapart.trans hapart'⟩
        · cases hr
      · rw [if_neg hlimit] at hrest
        cases hrest
        exact ⟨hcount, fun h => absurd h hlimit, hapart⟩
  · cases hr

theorem upsert_runs (env : Env) (c : Client) (email : String) (purpose : OtpPurpose) (d : Db) : ∃ row d',
    anyMove (act env) c (.upsertOtpAttempts email purpose otpAttemptsTtlSeconds) d (.ok row.attempts) d' ∧
      row.attempts = d.liveAttempts email purpose + 1 ∧ d'.attempts email purpose = some row ∧ d'.clock < row.expiresAt ∧
      d'.clock = d.clock := by
  refine ⟨nextAttempts d.clock otpAttemptsTtlSeconds (d.attempts email purpose), _, ⟨.run 0 0, rfl⟩, ?_, ?_, ?_, rfl⟩
  · exact nextAttempts_live otpAttemptsTtlSeconds d
  · simp [tick]
  · exact nextAttempts_expiresAt (by decide)

theorem delete_runs (env : Env) (c : Client) (email : String) (purpose : OtpPurpose) (d : Db) : ∃ d',
    anyMove (act env) c (.deleteOtpAttempts email purpose) d (.ok ()) d' ∧ d'.attempts email purpose = none ∧
      d'.clock = d.clock := by
  refine ⟨_, ⟨.run 0 0, rfl⟩, ?_, rfl⟩
  simp [tick]

/-- An attempt that is made at once. -/
theorem increment_runs (env : Env) (c : Client) (email : String) (purpose : OtpPurpose) (d : Db) : ∃ result d₁,
    Runs (anyMove (act env) c) (incrementOtpAttempts email purpose otpMaxAttempts otpAttemptsTtlSeconds).run d (.ok result) d₁ ∧
      result.attempts = d.liveAttempts email purpose + 1 ∧
      d₁.liveAttempts email purpose = (if otpMaxAttempts ≤ result.attempts then 0 else result.attempts) ∧
      d₁.clock = d.clock := by
  obtain ⟨row, d₂, hupsert, hcount, hrow, hlive, hclock⟩ := upsert_runs env c email purpose d
  by_cases hlimit : otpMaxAttempts ≤ row.attempts
  · obtain ⟨d₃, hdelete, hnone, hclock'⟩ := delete_runs env c email purpose d₂
    have hlocked : Runs (anyMove (act env) c) (clearOtpAttempts email purpose >>= fun _ =>
        pure ⟨row.attempts, true⟩ : Code IncrementOtpResult).run d₂ (.ok ⟨row.attempts, true⟩) d₃ :=
      .then (.await hdelete) .ret
    refine ⟨⟨row.attempts, true⟩, d₃, .then (.await hupsert) ?_, hcount, ?_, hclock'.trans hclock⟩
    · rw [if_pos hlimit]
      exact hlocked
    · simp [Db.liveAttempts, hnone, hlimit]
  · refine ⟨⟨row.attempts, false⟩, d₂, .then (.await hupsert) ?_, hcount, ?_, hclock⟩
    · rw [if_neg hlimit]
      exact .ret
    · simp [Db.liveAttempts, hrow, hlimit, Nat.not_le.mpr hlive]

end Attempts

section Limit

theorem attemptAll_cons {emails : List String} {results : List IncrementOtpResult} :
    .ok results ∈ Results (anyMove (act env) c) (attemptAll purpose (email :: emails)).run d ↔ ∃ r rs d₁, results = r :: rs ∧
      Runs (anyMove (act env) c) (incrementOtpAttempts email purpose otpMaxAttempts otpAttemptsTtlSeconds).run d (.ok r) d₁ ∧
      .ok rs ∈ Results (anyMove (act env) c) (attemptAll purpose emails).run d₁ := by
  constructor
  · rintro ⟨d', hrun⟩
    obtain ⟨r, d₁, hfirst, hrest⟩ | ⟨e, -, hr⟩ := Runs.of_then hrun
    · obtain ⟨rs, d₂, hemails, hret⟩ | ⟨e, -, hr⟩ := Runs.of_then hrest
      · cases hret
        exact ⟨r, rs, d₁, rfl, hfirst, _, hemails⟩
      · cases hr
    · cases hr
  · rintro ⟨r, rs, d₁, rfl, hfirst, d', hemails⟩
    exact ⟨d', .then hfirst (.then hemails .ret)⟩

theorem attemptAll_nil : .ok [] ∈ Results (anyMove (act env) c) (attemptAll purpose []).run d := ⟨d, .ret⟩

theorem attemptAll_pair {x y : String} {r s : IncrementOtpResult} :
    .ok [r, s] ∈ Results (anyMove (act env) c) (attemptAll purpose [x, y]).run d ↔ ∃ d₁ d₂,
      Runs (anyMove (act env) c) (incrementOtpAttempts x purpose otpMaxAttempts otpAttemptsTtlSeconds).run d (.ok r) d₁ ∧
      Runs (anyMove (act env) c) (incrementOtpAttempts y purpose otpMaxAttempts otpAttemptsTtlSeconds).run d₁ (.ok s) d₂ := by
  rw [attemptAll_cons]
  constructor
  · rintro ⟨_, _, d₁, heq, hfirst, hrest⟩
    cases heq
    obtain ⟨_, _, d₂, heq, hsecond, -⟩ := attemptAll_cons.mp hrest
    cases heq
    exact ⟨d₁, d₂, hfirst, hsecond⟩
  · rintro ⟨d₁, d₂, hfirst, hsecond⟩
    exact ⟨r, [s], d₁, rfl, hfirst, attemptAll_cons.mpr ⟨s, [], d₂, rfl, hsecond, attemptAll_nil⟩⟩

/-- Two spellings with attempts that count alike are one. -/
theorem SameLimit.eq (h : SameLimit env c purpose e e' d) : e = e' := by
  by_contra hne
  have hother : e' ≠ e := Ne.symm hne
  obtain ⟨r, d₁, hfirst, hcount, hlive, hclock⟩ := increment_runs env c e purpose d
  obtain ⟨s, d₂, hfirst', hcount', -⟩ := increment_runs env c e' purpose d
  -- one attempt: the counts are the same, unless they lapse
  have hone : r.attempts = 1 ∨ r.attempts = d.liveAttempts e' purpose + 1 := by
    have hmem := attemptAll_cons.mpr ⟨r, [], d₁, rfl, hfirst, attemptAll_nil⟩
    rw [h [e] [e'] (by simp) (by simp) rfl] at hmem
    obtain ⟨_, _, _, heq, hrun, -⟩ := attemptAll_cons.mp hmem
    cases heq
    exact (increment_cases hrun).1
  have hone' : s.attempts = 1 ∨ s.attempts = d.liveAttempts e purpose + 1 := by
    have hmem := attemptAll_cons.mpr ⟨s, [], d₂, rfl, hfirst', attemptAll_nil⟩
    rw [h [e'] [e] (by simp) (by simp) rfl] at hmem
    obtain ⟨_, _, _, heq, hrun, -⟩ := attemptAll_cons.mp hmem
    cases heq
    exact (increment_cases hrun).1
  by_cases hlimit : otpMaxAttempts ≤ r.attempts
  · -- the attempts of the other spelling are not cleared
    obtain ⟨t, d₃, hsecond, hcount₂, -⟩ := increment_runs env c e' purpose d₁
    have hkept : d₁.liveAttempts e' purpose = d.liveAttempts e' purpose := by
      simp only [Db.liveAttempts, hclock, (increment_cases hfirst).2.2.1 e' hother]
    have hmem := attemptAll_pair.mpr ⟨d₁, d₃, hfirst, hsecond⟩
    rw [h [e, e'] [e, e] (by simp) (by simp) rfl] at hmem
    obtain ⟨d₄, d₅, hrun, hrun'⟩ := attemptAll_pair.mp hmem
    have hcleared : d₄.liveAttempts e purpose = 0 := by
      simp only [Db.liveAttempts, (increment_cases hrun).2.1 hlimit]
    have hagain := (increment_cases hrun').1
    have hmax : otpMaxAttempts = 5 := rfl
    omega
  · -- the attempt is not counted for the other spelling
    obtain ⟨t, d₃, hsecond, hcount₂, -⟩ := increment_runs env c e purpose d₁
    have hmem := attemptAll_pair.mpr ⟨d₁, d₃, hfirst, hsecond⟩
    rw [h [e, e] [e, e'] (by simp) (by simp) rfl] at hmem
    obtain ⟨d₄, d₅, hrun, hrun'⟩ := attemptAll_pair.mp hmem
    obtain ⟨-, -, hothers, hlater⟩ := increment_cases hrun
    have hkept := liveAttempts_later hlater (hothers e' hother)
    have hagain := (increment_cases hrun').1
    rw [if_neg hlimit] at hlive
    omega

end Limit

section Outcome

theorem latestOtp_none {draw : Nat} {otps : List AuthOtp}
    (hnone : ∀ row ∈ otps, ¬ (row.email = email ∧ row.purpose = purpose)) : latestOtp draw email purpose otps = none := by
  have hempty : (otps.filter fun r => r.email = email ∧ r.purpose = purpose) = [] :=
    List.filter_eq_nil_iff.mpr fun row hrow => by simpa using hnone row hrow
  rw [latestOtp, hempty]
  rfl

/-- A code that is presented in a spelling without OTPs is not found. -/
theorem unissued (hnone : ∀ row ∈ d.otps, ¬ (row.email = email ∧ row.purpose = purpose)) {r : Except Failure Nat}
    (h : Runs (anyMove (act env) c) (checkVerification env email code purpose).run d r d') :
    r = .error (.badRequest "OTP not found") ∨ ∃ e, r = .error (.database e) := by
  obtain ⟨row, d₁, hselect, hrest⟩ | ⟨e, hselect, rfl⟩ := Runs.of_then h
  · obtain ⟨v, ⟨m, hact⟩, hv⟩ := Runs.of_await hselect
    have hrow : row = none := by
      cases m with
      | run wait draw =>
        obtain ⟨d₂, hexec, -⟩ := act_run hact
        obtain ⟨hfound, -⟩ := Prod.mk.inj (Option.some.inj hexec)
        rw [← hfound] at hv
        cases hv
        exact latestOtp_none hnone
      | fail err =>
        obtain ⟨rfl, -⟩ := act_fail hact
        cases hv
    subst hrow
    cases hrest
    exact .inl rfl
  · obtain ⟨v, -, hv⟩ := Runs.of_await hselect
    cases v with
    | ok v => cases hv
    | error err =>
      cases hv
      exact .inr ⟨err, rfl⟩

/-- The call that the code is for fails the same way. -/
theorem presenting_unissued (hnone : ∀ row ∈ d.otps, ¬ (row.email = email ∧ row.purpose = purpose)) {password : String}
    {r : Except Failure Payload}
    (h : r ∈ Results (anyMove (act env) c) (presenting env purpose email code password password).run d) :
    r = .error (.badRequest "OTP not found") ∨ ∃ e, r = .error (.database e) := by
  obtain ⟨d', hrun⟩ := h
  have hchecked : ∀ {f : Nat → Code Payload}, Runs (anyMove (act env) c) (checkVerification env email code purpose >>= f).run d r d' →
      r = .error (.badRequest "OTP not found") ∨ ∃ e, r = .error (.database e) := by
    intro f hrun
    obtain ⟨id, d₁, hcheck, -⟩ | ⟨e, hcheck, rfl⟩ := Runs.of_then hrun
    · obtain h | ⟨e, h⟩ := unissued hnone hcheck <;> cases h
    · obtain h | ⟨e, h⟩ := unissued hnone hcheck
      · cases h
        exact .inl rfl
      · cases h
        exact .inr ⟨e, rfl⟩
  cases purpose with
  | registration => exact hchecked hrun
  | passwordReset =>
    have hreset : resetPassword env ⟨email, code, password, password⟩ =
        checkVerification env email code .passwordReset >>= fun _ => withTransaction (changePassword env email password) :=
      if_neg (not_not.mpr rfl)
    rw [presenting, hreset] at hrun
    exact hchecked hrun

end Outcome

/-- Spellings are alike in a store exactly if they are the same, whether `LOWER` tells them apart or not. -/
theorem caseBlind_iff (env : Env) (c : Client) (e e' : String) (d : Db) : CaseBlind env c e e' d ↔ e = e' := by
  constructor
  · intro hblind
    exact (hblind.limit .registration).eq
  · rintro rfl
    refine ⟨fun _ _ _ _ _ _ => rfl, fun purpose l l' hl hl' hlength => ?_⟩
    have hsame : ∀ l : List String, (∀ x ∈ l, x = e ∨ x = e) → l = List.replicate l.length e := by
      intro l hl
      exact List.eq_replicate_iff.mpr ⟨rfl, fun x hx => or_self_iff.mp (hl x hx)⟩
    rw [hsame l hl, hsame l' hl', hlength]

section Mona

theorem toLower_toLower (c : Char) : c.toLower.toLower = c.toLower := by
  by_cases h : c.val ≥ 'A'.val ∧ c.val ≤ 'Z'.val
  · obtain ⟨hA, hZ⟩ := h
    have hA' : 65 ≤ c.val.toNat := hA
    have hZ' : c.val.toNat ≤ 90 := hZ
    have hval : c.toLower.val.toNat = c.val.toNat + 32 := by
      have hstep : ('a'.val - 'A'.val).toNat = 32 := rfl
      have hshift : c.toLower.val = c.val + ('a'.val - 'A'.val) := by
        unfold Char.toLower
        rw [dif_pos ⟨hA, hZ⟩]
      rw [hshift, UInt32.toNat_add, hstep]
      omega
    have hlower : ¬ (c.toLower.val ≥ 'A'.val ∧ c.toLower.val ≤ 'Z'.val) := by
      rintro ⟨-, hupper⟩
      have hupper' : c.toLower.val.toNat ≤ 90 := hupper
      omega
    exact dif_neg hlower
  · have hsame : c.toLower = c := dif_neg h
    rw [hsame, hsame]

/-- `LOWER` of ASCII text. -/
def lowerAscii (s : String) : String := String.ofList (s.toList.map Char.toLower)

theorem lowerAscii_lowerAscii (s : String) : lowerAscii (lowerAscii s) = lowerAscii s := by
  have hmap : (s.toList.map Char.toLower).map Char.toLower = s.toList.map Char.toLower := by
    rw [List.map_map]
    exact List.map_congr_left fun c _ => toLower_toLower c
  rw [lowerAscii, lowerAscii, String.toList_ofList, hmap]

def asciiEnv : Env :=
  { plainEnv with toLowerCase := lowerAscii, lower := lowerAscii, lower_lower := lowerAscii_lowerAscii }

/-- A store with one account. -/
def monaAlone : Db :=
  { accounts [] with
    users := .numbered [{ id := 1, name := "Mona", phone := none, email := some "mona@shop.eg", address := none,
                          passwordHash := "old" }] }

/-- One call, each statement of which is taken at once. -/
def atOnce {α : Type} (c : Client) (code : Code α) (d : Db) : Option (Except Failure α × Db) :=
  code.run.alone (act asciiEnv (.run 0 0) c) d

theorem atOnce_runs {α : Type} {code : Code α} {r : Except Failure α} (h : atOnce c code d = some (r, d')) :
    Runs (anyMove (act asciiEnv) c) code.run d r d' :=
  Runs.of_alone (fun _ _ _ _ hact => ⟨_, hact⟩) h

/-- A reset with the code that was sent, in the spelling of the account. -/
theorem mona_not_found : asciiEnv.lower "Mona@shop.eg" = asciiEnv.lower "mona@shop.eg" ∧
    ¬ CaseBlind asciiEnv 1 "Mona@shop.eg" "mona@shop.eg" monaAlone := by
  refine ⟨by decide, fun hblind => ?_⟩
  have hrequest : (atOnce 1 (requestPasswordResetOtp asciiEnv "Mona@shop.eg") monaAlone).map (fun x => x.2.otps) =
      some [⟨0, some 1, "Mona@shop.eg", hashOtp asciiEnv "000000" (hexOf 0), hexOf 0, .passwordReset, 600000, none, 0⟩] := by
    decide +kernel
  have hreset : ((atOnce 1 (requestPasswordResetOtp asciiEnv "Mona@shop.eg") monaAlone).bind fun x =>
      (atOnce 2 (presenting asciiEnv .passwordReset "Mona@shop.eg" "000000" "Secret123" "Secret123") x.2).map
        fun y => y.1.toOption.isSome) = some true := by
    decide +kernel
  obtain ⟨⟨r, d₁⟩, halone, hotps⟩ := Option.map_eq_some_iff.mp hrequest
  rw [halone] at hreset
  obtain ⟨⟨r', d₂⟩, halone', hok⟩ := Option.map_eq_some_iff.mp hreset
  have hissued : IssuedCode asciiEnv "Mona@shop.eg" .passwordReset "000000" monaAlone d₁ :=
    ⟨_, hotps, rfl, rfl, rfl⟩
  have hmem : r' ∈ Results (anyMove (act asciiEnv) 2)
      (presenting asciiEnv .passwordReset "Mona@shop.eg" "000000" "Secret123" "Secret123").run d₁ :=
    ⟨d₂, atOnce_runs halone'⟩
  rw [← hblind.outcome .passwordReset (atOnce_runs halone) hissued] at hmem
  have hnone : ∀ row ∈ d₁.otps, ¬ (row.email = "mona@shop.eg" ∧ row.purpose = .passwordReset) := by
    intro row hrow
    rw [hotps, List.mem_singleton] at hrow
    subst hrow
    simp
  obtain rfl | ⟨e, rfl⟩ := presenting_unissued hnone hmem <;> cases hok

end Mona

end Kayan.Auth
