import Kayan.Auth.Calls

/-!
# One-time passwords

What the history of checks says in every run. Nothing consumes an OTP and nothing
invalidates it, so single use and the bound on guesses hold only while the calls
themselves do not ask for more.
-/
namespace Kayan.Auth
open RowStore Interleave

variable {env : Env} {req : Client → Request} {cond : List OtpEvent → OtpEvent → Bool} {c : Client}
  {d₀ d d' : Db} {history earlier later : List OtpEvent} {e f : OtpEvent} {xs : List Taken} {s t : State}

section Trails
variable (env req)

/-- What the check of `c` has done: nothing, a lookup, a wrong guess, a lockout after it, or
an acceptance after the lookup of a live OTP with its right code. -/
inductive Trail (c : Client) : List OtpEvent → Prop
  | idle : Trail c []
  | lookedUp {otp : AuthOtp} {t : Nat} : Trail c [⟨c, otp, .lookedUp t⟩]
  | counted {otp : AuthOtp} {t n : Nat} (hw : rightCode env req c otp = false) :
      Trail c [⟨c, otp, .counted n⟩, ⟨c, otp, .lookedUp t⟩]
  | lockedOut {otp : AuthOtp} {t n issued : Nat} (hn : otpMaxAttempts ≤ n + 1) :
      Trail c [⟨c, otp, .lockedOut issued⟩, ⟨c, otp, .counted n⟩, ⟨c, otp, .lookedUp t⟩]
  | accepted {otp : AuthOtp} {t : Nat} (hr : rightCode env req c otp = true) (ht : t ≤ otp.expiresAt) :
      Trail c [⟨c, otp, .accepted⟩, ⟨c, otp, .lookedUp t⟩]

variable {env req}

theorem Follows.trail (h : Follows env req history e) : Trail env req e.client (e :: eventsOf e.client history) := by
  cases h with
  | lookedUp hp he =>
    rw [he]
    exact .lookedUp
  | counted he hw ht =>
    rw [he]
    exact .counted hw
  | lockedOut he hn =>
    rw [he]
    exact .lockedOut hn
  | accepted he hr ht =>
    rw [he]
    exact .accepted hr ht

theorem Recorded.trail (h : Recorded env req cond history) (c : Client) :
    Trail env req c (eventsOf c history) := by
  induction h with
  | nil => exact .idle
  | @cons e history h hf _ ih =>
    by_cases he : e.client = c
    · subst he
      rw [eventsOf_cons_self]
      exact hf.trail
    · rw [eventsOf, List.filter_cons_of_neg (by simpa using he)]
      exact ih

/-- Every event satisfied its condition when it happened. -/
theorem Recorded.split (h : Recorded env req cond (later ++ e :: earlier)) : cond earlier e = true := by
  induction later with
  | nil =>
    cases h with
    | cons _ _ hc => exact hc
  | cons x later ih =>
    cases h with
    | cons h _ _ => exact ih h

theorem mem_eventsOf : e ∈ eventsOf c history ↔ e ∈ history ∧ e.client = c := by
  simp [eventsOf]

/-- A check that has accepted an OTP has looked it up while it was live, with its right
code, and has looked up nothing else. -/
theorem Recorded.accepted (h : Recorded env req cond history) (he : e ∈ history) (ha : e.act = .accepted) :
    rightCode env req e.client e.otp = true ∧ ∃ t ≤ e.otp.expiresAt,
      eventsOf e.client history = [e, ⟨e.client, e.otp, .lookedUp t⟩] := by
  have hm := mem_eventsOf.mpr ⟨he, rfl⟩
  have ht := h.trail e.client
  generalize eventsOf e.client history = evs at hm ht ⊢
  cases ht with
  | idle => cases hm
  | lookedUp =>
    rw [List.mem_singleton.mp hm] at ha
    cases ha
  | counted =>
    simp only [List.mem_cons, List.not_mem_nil, or_false] at hm
    rcases hm with hm | hm <;> (rw [hm] at ha; cases ha)
  | lockedOut =>
    simp only [List.mem_cons, List.not_mem_nil, or_false] at hm
    rcases hm with hm | hm | hm <;> (rw [hm] at ha; cases ha)
  | @accepted otp t hr ht =>
    simp only [List.mem_cons, List.not_mem_nil, or_false] at hm
    rcases hm with hm | hm
    · have hotp : e.otp = otp := by rw [hm]
      rw [hotp]
      exact ⟨hr, t, ht, by rw [← hm]⟩
    · rw [hm] at ha
      cases ha

theorem Recorded.lookup_of_accepted (h : Recorded env req cond history) (he : e ∈ history)
    (ha : e.act = .accepted) (hf : f ∈ history) (hc : f.client = e.client) {t : Nat}
    (hl : f.act = .lookedUp t) :
    f.otp = e.otp ∧ t ≤ e.otp.expiresAt ∧ rightCode env req e.client e.otp = true := by
  obtain ⟨hr, t', ht, hevs⟩ := h.accepted he ha
  have hm := mem_eventsOf.mpr ⟨hf, hc⟩
  rw [hevs] at hm
  simp only [List.mem_cons, List.not_mem_nil, or_false] at hm
  rcases hm with rfl | rfl
  · rw [ha] at hl
    cases hl
  · cases hl
    exact ⟨rfl, ht, hr⟩

end Trails

section Fixtures

/-- An environment with a readable hash, for lower-case emails, that sends back its codes. -/
def plainEnv : Env where
  config :=
    { jwtAccessSecret := "access", jwtRefreshSecret := "refresh", jwtAccessTtl := "15m", jwtRefreshTtl := "30d",
      otpSigningSecret := "otp-secret", otpTtlMinutes := 10, otpDevMode := true }
  createHmac secret text := secret ++ "/" ++ text
  bcrypt password _ salt := password ++ "/" ++ salt
  signAsync payload secret _ now := secret ++ toString payload.sub ++ payload.jti.getD "" ++ toString now
  toLowerCase := id
  lower := id
  lower_lower _ := rfl

/-- A store with the given users and nothing else. -/
def accounts (users : List User) : Db where
  clock := 0
  began _ := 0
  otps := []
  nextOtp := 0
  attempts _ _ := none
  pending := .ofRows []
  users := .ofRows users
  tokens := .ofRows []
  history := []
  writes := []
  registrations := []

theorem accounts_quiet (users : List User) : Quiet env (accounts users) where
  pending _ := rfl
  users _ := rfl
  lowered i row hi := by cases hi
  unique i j r r' hi := by cases hi
  history := rfl
  writes := rfl
  registrations := rfl

/-- So many statements of a client in a row, for each entry. -/
def turns (l : List (Client × Nat)) : List (Client × Move) :=
  l.flatMap fun x => List.replicate x.2 (x.1, .run 0 0)

/-- Plays the turns as long as their events satisfy `cond`. -/
def playTurns (cond : List OtpEvent → OtpEvent → Bool) (req : Client → Request) (d : Db)
    (l : List (Client × Nat)) : Option State :=
  play (act plainEnv) (meets plainEnv cond) (turns l) (initial plainEnv req d)

theorem playTurns_run {l : List (Client × Nat)} {β : Type} {g : State → β} {b : β}
    (h : (playTurns cond req d l).map g = some b) :
    ∃ xs t, Trace.Run (Meeting plainEnv cond) (initial plainEnv req d) xs t ∧ g t = b :=
  play_run h

/-- What the call of a client has come to: nothing yet, no error, or an error. -/
def answer (c : Client) (t : State) : Option (Option Failure) :=
  match t.prog c with
  | .ret (.ok _) => some none
  | .ret (.error e) => some (some e)
  | _ => none

end Fixtures

section SingleUse
variable (env req)

/-- A lookup of a live OTP by a check that presents its right code. -/
def claims (e : OtpEvent) : Bool :=
  match e.act with
  | .lookedUp t => t ≤ e.otp.expiresAt && rightCode env req e.client e.otp
  | _ => false

/-- The OTP that is looked up has not been accepted, and is not claimed twice. -/
def unclaimed (history : List OtpEvent) (e : OtpEvent) : Bool :=
  match e.act with
  | .lookedUp _ => history.all fun f =>
    f.otp.id ≠ e.otp.id || (f.act ≠ .accepted && !(claims env req f && claims env req e))
  | _ => true

/-- The times an OTP has been accepted. -/
def acceptances (id : Nat) (history : List OtpEvent) : List OtpEvent :=
  history.filter fun e => e.act = .accepted ∧ e.otp.id = id

/-- Every OTP has been accepted once at most, and a check that looked it up after that, if
it has ended, was told that the OTP is used. -/
structure SingleUse (t : State) : Prop where
  once : ∀ id, (acceptances id t.db.history).length ≤ 1
  spent : ∀ later e earlier f, t.db.history = later ++ e :: earlier → e.act = .accepted → f ∈ later →
    (∃ time, f.act = .lookedUp time) → f.otp.id = e.otp.id →
    ∀ r, t.prog f.client = .ret r → r = .error (.badRequest "OTP already used")

variable {env req}

theorem claims_lookedUp (h : claims env req e = true) : ∃ t, e.act = .lookedUp t := by
  unfold claims at h
  split at h
  · exact ⟨_, ‹_›⟩
  · cases h

/-- Where no OTP is claimed twice there is one claim for each. -/
theorem Recorded.claim_unique (h : Recorded env req (unclaimed env req) history) (he : e ∈ history)
    (hf : f ∈ history) (hce : claims env req e = true) (hcf : claims env req f = true)
    (hid : f.otp.id = e.otp.id) : f = e := by
  induction h with
  | nil => cases he
  | @cons x history h _ hx ih =>
    have hne : ∀ y ∈ history, claims env req x = true → claims env req y = true → y.otp.id ≠ x.otp.id := by
      intro y hy hcx hcy heq
      obtain ⟨t, ht⟩ := claims_lookedUp hcx
      simp only [unclaimed, ht, List.all_eq_true] at hx
      simpa [heq, hcx, hcy] using hx y hy
    rcases List.mem_cons.mp he with rfl | he'
    · rcases List.mem_cons.mp hf with rfl | hf'
      · rfl
      · exact absurd hid (hne f hf' hce hcf)
    · rcases List.mem_cons.mp hf with rfl | hf'
      · exact absurd hid.symm (hne e he' hcf hce)
      · exact ih he' hf'

/-- An acceptance goes back to a claim of the same client. -/
theorem Recorded.claim_of_accepted (h : Recorded env req cond history) (he : e ∈ history)
    (ha : e.act = .accepted) :
    ∃ f ∈ history, f.client = e.client ∧ f.otp = e.otp ∧ claims env req f = true := by
  obtain ⟨hr, t, ht, hevs⟩ := h.accepted he ha
  have hm : (⟨e.client, e.otp, .lookedUp t⟩ : OtpEvent) ∈ eventsOf e.client history := by
    rw [hevs]
    exact List.mem_cons_of_mem _ (List.mem_singleton_self _)
  exact ⟨_, (mem_eventsOf.mp hm).1, rfl, rfl, by simp [claims, ht, hr]⟩

theorem Recorded.accepted_once (h : Recorded env req (unclaimed env req) history) (id : Nat) :
    (acceptances id history).length ≤ 1 := by
  induction h with
  | nil => exact Nat.zero_le 1
  | @cons e history h hf hc ih =>
    have hall := Recorded.cons h hf hc
    unfold acceptances
    by_cases he : e.act = .accepted ∧ e.otp.id = id
    · have hnone : acceptances id history = [] := by
        refine List.filter_eq_nil_iff.mpr fun f hm hp => ?_
        simp only [decide_eq_true_eq] at hp
        obtain ⟨a, hma, hac, hao, hca⟩ := hall.claim_of_accepted List.mem_cons_self he.1
        obtain ⟨b, hmb, hbc, hbo, hcb⟩ := h.claim_of_accepted hm hp.1
        have hsame : a = b :=
          hall.claim_unique (List.mem_cons_of_mem e hmb) hma hcb hca (by rw [hao, hbo, he.2, hp.2])
        have hclient : f.client = e.client := by rw [← hbc, ← hsame, hac]
        -- a check that accepts an OTP has no acceptance behind it
        cases hf with
        | accepted hevs _ _ =>
          have hmf := mem_eventsOf.mpr ⟨hm, hclient⟩
          rw [hevs, List.mem_singleton] at hmf
          rw [hmf] at hp
          cases hp.1
        | _ => cases he.1
      rw [List.filter_cons_of_pos (by simpa using he)]
      exact Nat.le_of_eq (congrArg (fun l => l.length + 1) hnone)
    · rw [List.filter_cons_of_neg (by simpa using he)]
      exact ih

/-- As long as no check looks up an OTP that has been accepted, and no two checks look up
the same live OTP with its right code, every OTP is used once. -/
theorem otp_single_use (hq : Quiet env d₀)
    (hr : Trace.Run (Meeting env (unclaimed env req)) (initial env req d₀) xs t) : SingleUse t := by
  have hrec : Recorded env req (unclaimed env req) t.db.history := (run_safe hq hr).1.history
  refine ⟨hrec.accepted_once, fun later e earlier f heq ha hf ⟨time, hl⟩ hid r _ => ?_⟩
  obtain ⟨l₁, l₂, rfl⟩ := List.append_of_mem hf
  rw [heq, List.append_assoc, List.cons_append] at hrec
  have hc := hrec.split
  simp only [unclaimed, hl, List.all_eq_true] at hc
  have hbad := hc e (List.mem_append_right _ List.mem_cons_self)
  simp [hid, ha] at hbad

/-- An OTP that is marked as used was so at the start. -/
theorem usedAt_from_start (hr : Trace.Run (Step (act env)) (initial env req d₀) xs t) :
    ∀ row ∈ t.db.otps, row ∈ d₀.otps ∨ row.usedAt = none := by
  refine hr.preserves (I := fun s => ∀ row ∈ s.db.otps, row ∈ d₀.otps ∨ row.usedAt = none) ?_
    fun row => Or.inl
  intro s e t hs hi
  cases hs with
  | @call m c q k r d hp ha =>
    cases m with
    | fail err =>
      obtain ⟨-, rfl⟩ := act_fail ha
      exact hi
    | run wait draw =>
      obtain ⟨d', he, rfl⟩ := act_run ha
      intro row hrow
      rcases exec_otps he row hrow with hrow | hnone
      · exact hi row hrow
      · exact Or.inr hnone

/-- One user, and two resets with the code that was sent for the first. -/
def resets : Client → Request
  | 0 => .requestPasswordResetOtp "mona@shop.eg"
  | 1 => .resetPassword ⟨"mona@shop.eg", "111111", "Secret123", "Secret123"⟩
  | 2 => .resetPassword ⟨"mona@shop.eg", "000000", "Secret123", "Secret123"⟩
  | _ => .resetPassword ⟨"mona@shop.eg", "000000", "Changed456", "Changed456"⟩

def mona : Db :=
  accounts [{ id := 0, name := "Mona", phone := none, email := some "mona@shop.eg", address := none,
              passwordHash := "old" }]

/-- A wrong guess and one reset. -/
theorem otp_single_use_resets : ∃ xs t,
    Trace.Run (Meeting plainEnv (unclaimed plainEnv resets)) (initial plainEnv resets mona) xs t ∧
      answer 1 t = some (some (.badRequest "Invalid OTP")) ∧ answer 2 t = some none ∧ SingleUse t := by
  have hplay : (playTurns (unclaimed plainEnv resets) resets mona [(0, 3), (1, 3), (2, 12)]).map
      (fun t => (answer 1 t, answer 2 t)) =
      some (some (some (.badRequest "Invalid OTP")), some none) := by
    decide +kernel
  obtain ⟨xs, t, hr, ho⟩ := playTurns_run hplay
  simp only [Prod.mk.injEq] at ho
  exact ⟨xs, t, hr, ho.1, ho.2, otp_single_use (accounts_quiet _) hr⟩

/-- Two concurrent resets with one code succeed, and so does a third one later. -/
theorem otp_used_thrice : ∃ xs t,
    Trace.Run (Step (act plainEnv)) (initial plainEnv resets mona) xs t ∧
      answer 2 t = some none ∧ answer 3 t = some none ∧ answer 4 t = some none ∧
      (acceptances 0 t.db.history).map (·.client) = [4, 2, 3] ∧ ¬ SingleUse t := by
  have hplay : (playTurns (fun _ _ => true) resets mona [(0, 3), (2, 2), (3, 3), (2, 1), (2, 9), (3, 9), (4, 12)]).map
      (fun t => ((answer 2 t, answer 3 t, answer 4 t), (acceptances 0 t.db.history).map (·.client))) =
      some ((some none, some none, some none), [4, 2, 3]) := by
    decide +kernel
  obtain ⟨xs, t, hr, ho⟩ := playTurns_run hplay
  simp only [Prod.mk.injEq] at ho
  refine ⟨xs, t, hr.mono fun _ _ _ h => h.1, ho.1.1, ho.1.2.1, ho.1.2.2, ho.2, fun h => ?_⟩
  have hlen := congrArg List.length ho.2
  have honce := h.once 0
  simp only [List.length_map, List.length_cons, List.length_nil] at hlen
  omega

end SingleUse

section Lockout
variable (env req)

/-- The wrong guesses that were counted against an OTP. -/
def wrongGuesses (id : Nat) (history : List OtpEvent) : Nat :=
  (history.filter fun e => e.otp.id = id && e.act matches .counted _).length

/-- The event is a lockout of the OTP's email and purpose, issued after the OTP. -/
def locks (otp : AuthOtp) (f : OtpEvent) : Bool :=
  match f.act with
  | .lockedOut issued => otp.id < issued && f.otp.email = otp.email && f.otp.purpose = otp.purpose
  | _ => false

/-- The right code of a live OTP is not presented after a lockout; and a wrong guess is
counted while the attempts are below the limit and cover all guesses at its OTP. -/
def bounded (history : List OtpEvent) (e : OtpEvent) : Bool :=
  match e.act with
  | .lookedUp _ => !(claims env req e && history.any (locks e.otp))
  | .counted n => wrongGuesses e.otp.id history ≤ n && n < otpMaxAttempts
  | _ => true

/-- No check that begins after a lockout accepts an OTP of that email and purpose issued
before it, and no OTP has more wrong guesses than the limit. -/
structure LockoutHolds (history : List OtpEvent) : Prop where
  final : ∀ later f earlier issued, history = later ++ f :: earlier → f.act = .lockedOut issued →
    ∀ look ∈ later, (∃ time, look.act = .lookedUp time) → ∀ e ∈ history, e.client = look.client →
      e.act = .accepted → e.otp.email = f.otp.email → e.otp.purpose = f.otp.purpose → issued ≤ e.otp.id
  guesses : ∀ id, wrongGuesses id history ≤ otpMaxAttempts

variable {env req}

theorem Recorded.guesses_bounded (h : Recorded env req (bounded env req) history) (id : Nat) :
    wrongGuesses id history ≤ otpMaxAttempts := by
  induction h with
  | nil => exact Nat.zero_le _
  | @cons e history h _ hc ih =>
    rcases e with ⟨b, otp, time | n | issued | _⟩
    · simpa [wrongGuesses] using ih
    · by_cases hid : otp.id = id
      · subst hid
        simp only [bounded, Bool.and_eq_true, decide_eq_true_eq] at hc
        have hcount : wrongGuesses otp.id (⟨b, otp, .counted n⟩ :: history) =
            wrongGuesses otp.id history + 1 := by simp [wrongGuesses]
        omega
      · simpa [wrongGuesses, hid] using ih
    · simpa [wrongGuesses] using ih
    · simpa [wrongGuesses] using ih

theorem Recorded.lockout_final (h : Recorded env req (bounded env req) history) {issued time : Nat}
    {look : OtpEvent} (heq : history = later ++ f :: earlier) (hf : f.act = .lockedOut issued)
    (hlook : look ∈ later) (hl : look.act = .lookedUp time) (he : e ∈ history)
    (hc : e.client = look.client) (ha : e.act = .accepted) (hemail : e.otp.email = f.otp.email)
    (hpurpose : e.otp.purpose = f.otp.purpose) : issued ≤ e.otp.id := by
  obtain ⟨l₁, l₂, rfl⟩ := List.append_of_mem hlook
  have hmem : look ∈ history := by
    rw [heq]
    exact List.mem_append_left _ hlook
  obtain ⟨hotp, hlive, hright⟩ := h.lookup_of_accepted he ha hmem hc.symm hl
  have hclaims : claims env req look = true := by
    simp [claims, hl, hotp, hlive, ← hc, hright]
  rw [heq, List.append_assoc, List.cons_append] at h
  have hb := h.split
  simp only [bounded, hl, hclaims, Bool.true_and, Bool.not_eq_true', List.any_eq_false] at hb
  have hno := hb f (List.mem_append_right _ List.mem_cons_self)
  simp only [locks, hf, hotp, hemail, hpurpose] at hno
  simpa using hno

/-- One sign-up, whose code is guessed by all but the last call. -/
def guesses : Client → Request
  | 0 => .startVerification "omar@shop.eg" .registration none
  | 7 => .checkVerification "omar@shop.eg" "000000" .registration
  | _ => .checkVerification "omar@shop.eg" "123456" .registration

/-- The OTP that is sent there. -/
def sent : AuthOtp where
  id := 0
  userId := none
  email := "omar@shop.eg"
  codeHash := "otp-secret/000000:00000000000000000000000000000000"
  salt := "00000000000000000000000000000000"
  purpose := .registration
  expiresAt := 600000
  createdAt := 0

end Lockout

end Kayan.Auth
