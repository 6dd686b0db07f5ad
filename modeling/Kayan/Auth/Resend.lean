import Kayan.Auth.Otp
import Kayan.Lib.Protocol

/-!
# Delivery by e-mail

`ResendOtpSender` issues a code as `ConsoleOtpSender` does and mails what that returns. A mailed code
passes the check in development mode only: the console sender returns no code otherwise.
-/
namespace Kayan.Auth
open Interleave
variable {env : Env} {c : Client} {email code : String} {purpose : OtpPurpose} {userId : Option Nat} {d d' : Db}

section Sender

/-- A message as the API takes it. -/
structure Email where
  sender : String
  recipient : String
  subject : String
  text : String

/-- The response of the API; its body may be unreadable. -/
structure Delivery where
  ok : Bool
  statusText : String
  body : Option String

/-- The part of the configuration that only this sender reads. -/
structure ResendConfig where
  resendFromEmail : String
  resendOtpSubject : String

/-- A statement of the console sender, or a message to the API. -/
inductive ResendStmt where
  | db (q : Stmt)
  | fetch (mail : Email)

def ResendReply : ResendStmt → Type
  | .db q => Reply q
  | .fetch _ => Delivery

abbrev ResendCode (α : Type) := Interleave.Code ResendStmt ResendReply PgError Failure α

/-- Code of the console sender. -/
def ofConsole {α : Type} (code : Code α) : ResendCode α := ExceptT.mk (code.run.embed ResendStmt.db)

/-- A request that gets no response throws a `TypeError`. -/
def fetch (mail : Email) : ResendCode Delivery := await (fun _ => Failure.typeError) (ResendStmt.fetch mail)

variable (env) (resend : ResendConfig)

def otpText (otp : String) : String :=
  s!"Your verification code is: {otp}. It expires in {env.config.otpTtlMinutes} minutes."

def otpMail (email otp : String) : Email where
  sender := resend.resendFromEmail
  recipient := email
  subject := resend.resendOtpSubject
  text := otpText env otp

/-- `ResendOtpSender.startVerification`. -/
def resendStartVerification (email : String) (purpose : OtpPurpose) (userId : Option Nat) :
    ResendCode (Option String) := do
  let result ← ofConsole (startVerification env email purpose userId)
  match result with
  | none => throw (.serviceUnavailable "OTP is unavailable for email delivery")
  | some otp =>
    let response ← fetch (otpMail env resend email otp)
    if response.ok then pure result
    else throw (.serviceUnavailable s!"Failed to send OTP email: {response.body.getD response.statusText}")

/-- `ResendOtpSender.checkVerification`. -/
def resendCheckVerification (email code : String) (purpose : OtpPurpose) : ResendCode Nat :=
  ofConsole (checkVerification env email code purpose)

end Sender

section World

/-- What goes on around a call: how each of its statements is resolved, what other calls have done to
the store when it is its turn, and what the API answers. -/
structure World where
  move : Stmt → Db → Move
  others : Stmt → Db → Db
  answer : Email → Delivery

/-- The store, the messages that the API accepted or refused and the OTPs that were issued, newest first. -/
structure Site where
  db : Db
  outbox : List Email
  issued : List AuthOtp

/-- The OTP that a statement issues. -/
def issuedBy (q : Stmt) (d : Db) : List AuthOtp :=
  match q with
  | .insertOtp _ _ _ _ _ _ => d.otps.head?.toList
  | _ => []

/-- A statement of the console sender. -/
def consoleAct (env : Env) (world : World) (c : Client) (q : Stmt) (s : Site) : Option (Answer q × Site) :=
  (act env (world.move q (world.others q s.db)) c q (world.others q s.db)).map fun x =>
    (x.1, { s with db := x.2, issued := issuedBy q x.2 ++ s.issued })

def resendAct (env : Env) (world : World) (c : Client) :
    (q : ResendStmt) → Site → Option (Except PgError (ResendReply q) × Site)
  | .db q, s => consoleAct env world c q s
  | .fetch mail, s => some (.ok (world.answer mail), { s with outbox := mail :: s.outbox })

/-- No statement fails, and the API answers ok. -/
structure World.Works (world : World) : Prop where
  runs : ∀ q d, ∃ wait draw, world.move q d = .run wait draw
  delivers : ∀ mail, (world.answer mail).ok = true

/-- The OTP is there, and it is newer than every other one of its email and purpose. -/
def Newest (otp : AuthOtp) (d : Db) : Prop :=
  otp ∈ d.otps ∧ ∀ r ∈ d.otps, r.email = otp.email → r.purpose = otp.purpose → r = otp ∨ r.createdAt < otp.createdAt

/-- The delivery round trip of a payload: in every world that works the code is issued and mailed, and a
check of the mailed code, before any newer issue and over before expiry, succeeds. -/
def RoundTrip (env : Env) (resend : ResendConfig) (c : Client) (email : String) (purpose : OtpPurpose)
    (userId : Option Nat) : Prop :=
  ∀ world s, world.Works → ∃ result s' otp code,
    (resendStartVerification env resend email purpose userId).run.alone (resendAct env world c) s =
        some (.ok result, s') ∧
      s'.outbox = otpMail env resend email code :: s.outbox ∧ s'.issued = otp :: s.issued ∧
      ∀ world' c' t, world'.Works → Newest otp t.db → (∀ q d, Newest otp d → Newest otp (world'.others q d)) →
        (∀ out t', (resendCheckVerification env email code purpose).run.alone (resendAct env world' c') t =
          some (out, t') → t'.db.clock ≤ otp.expiresAt) →
        ∃ t', (resendCheckVerification env email code purpose).run.alone (resendAct env world' c') t =
          some (.ok otp.id, t')

end World

section Runs
variable {world : World} {s t : Site} {otp : AuthOtp}

variable (env) in
/-- A statement runs at the store that the other calls have left. -/
theorem consoleAct_run (hw : world.Works) (c : Client) (q : Stmt) (s : Site) : ∃ wait draw,
    consoleAct env world c q s = (exec env draw c q (tick wait (world.others q s.db))).map fun x =>
      (x.1, { s with
        db := { x.2 with history := (otpEvent c q x.1 (tick wait (world.others q s.db))).toList ++ x.2.history }
        issued := issuedBy q x.2 ++ s.issued }) := by
  obtain ⟨wait, draw, hmove⟩ := hw.runs q (world.others q s.db)
  refine ⟨wait, draw, ?_⟩
  unfold consoleAct act
  rw [hmove, Option.map_map]
  cases q <;> rfl

theorem query_run {q : Stmt} {r : Reply q} {β : Type} {f : Reply q → Code β} {s s' : Site}
    (h : consoleAct env world c q s = some (.ok r, s')) :
    (query q >>= f).run.alone (consoleAct env world c) s = (f r).run.alone (consoleAct env world c) s' :=
  await_alone h

/-- The console sender's statements after the code is drawn. -/
theorem issue_run (hw : world.Works) (code : String) (s : Site) : ∃ otp s',
    (do
      let salt : String ← query .randomBytes
      query (.insertOtp userId email (hashOtp env code salt) salt purpose env.config.otpTtlMinutes)
      pure (if env.config.otpDevMode then some code else none) : Code (Option String)).run.alone
        (consoleAct env world c) s = some (.ok (if env.config.otpDevMode then some code else none), s') ∧
      s'.outbox = s.outbox ∧ s'.issued = otp :: s.issued ∧ otp.email = email ∧ otp.purpose = purpose ∧
      otp.usedAt = none ∧ otp.codeHash = hashOtp env code otp.salt := by
  obtain ⟨wait, draw, hbytes⟩ := consoleAct_run env hw c .randomBytes s
  obtain ⟨wait', draw', hinsert⟩ := consoleAct_run env hw c
    (.insertOtp userId email (hashOtp env code (hexOf draw)) (hexOf draw) purpose env.config.otpTtlMinutes) _
  exact ⟨_, _, (query_run hbytes).trans ((query_run hinsert).trans rfl), rfl, rfl, rfl, rfl, rfl, rfl⟩

theorem drawOtp_run (hw : world.Works) (s : Site) : ∃ code s',
    (drawOtp env).run.alone (consoleAct env world c) s = some (.ok code, s') ∧ s'.outbox = s.outbox ∧
      s'.issued = s.issued := by
  by_cases hdev : env.config.otpDevMode = true
  · refine ⟨"000000", s, ?_, rfl, rfl⟩
    rw [drawOtp, if_pos hdev]
    rfl
  · obtain ⟨wait, draw, hdraw⟩ := consoleAct_run env hw c (.randomInt otpRangeMin otpRangeMax) s
    have hdrawn : drawOtp env = query (.randomInt otpRangeMin otpRangeMax) >>= fun n : Nat => pure (toString n) := by
      rw [drawOtp, if_neg hdev]
      rfl
    rw [hdrawn]
    exact ⟨_, _, (query_run hdraw).trans rfl, rfl, rfl⟩

/-- The console sender issues a code, and returns it in development mode. -/
theorem startVerification_run (hw : world.Works) (s : Site) : ∃ code otp s',
    (startVerification env email purpose userId).run.alone (consoleAct env world c) s =
        some (.ok (if env.config.otpDevMode then some code else none), s') ∧
      s'.outbox = s.outbox ∧ s'.issued = otp :: s.issued ∧ otp.email = email ∧ otp.purpose = purpose ∧
      otp.usedAt = none ∧ otp.codeHash = hashOtp env code otp.salt := by
  obtain ⟨code, s₁, hdraw, houtbox, hissued⟩ := @drawOtp_run env c world hw s
  obtain ⟨otp, s', hrun, houtbox', hissued', hotp⟩ := issue_run hw code s₁
  exact ⟨code, otp, s', (bind_alone hdraw).trans hrun, houtbox'.trans houtbox, by rw [hissued', hissued], hotp⟩

/-- The sender with the API: the code is mailed in development mode, and otherwise there is none. -/
theorem resendStartVerification_run (hw : world.Works) (resend : ResendConfig) (s : Site) : ∃ code otp s',
    (resendStartVerification env resend email purpose userId).run.alone (resendAct env world c) s =
        some (if env.config.otpDevMode then .ok (some code)
          else .error (.serviceUnavailable "OTP is unavailable for email delivery"), s') ∧
      (env.config.otpDevMode → s'.outbox = otpMail env resend email code :: s.outbox) ∧ s'.issued = otp :: s.issued ∧
      otp.email = email ∧ otp.purpose = purpose ∧ otp.usedAt = none ∧ otp.codeHash = hashOtp env code otp.salt := by
  obtain ⟨code, otp, s₁, hstart, houtbox, hissued, hotp⟩ := @startVerification_run env c email purpose userId world hw s
  have hconsole : (ofConsole (startVerification env email purpose userId)).run.alone (resendAct env world c) s =
      some (.ok (if env.config.otpDevMode then some code else none), s₁) := (embed_alone _ s).trans hstart
  by_cases hdev : env.config.otpDevMode = true
  · rw [if_pos hdev] at hconsole
    have hfetch : resendAct env world c (.fetch (otpMail env resend email code)) s₁ =
        some (.ok (world.answer (otpMail env resend email code)),
          { s₁ with outbox := otpMail env resend email code :: s₁.outbox }) := rfl
    have hsent : (if (world.answer (otpMail env resend email code)).ok then pure (some code)
        else throw (.serviceUnavailable s!"Failed to send OTP email: {(world.answer (otpMail env resend email code)).body.getD
          (world.answer (otpMail env resend email code)).statusText}") : ResendCode (Option String)) = pure (some code) :=
      if_pos (hw.delivers _)
    refine ⟨code, otp, { s₁ with outbox := otpMail env resend email code :: s₁.outbox },
      (bind_alone hconsole).trans ((await_alone hfetch).trans ?_), fun _ => by rw [houtbox], hissued, hotp⟩
    rw [if_pos hdev]
    exact congrArg (fun code : ResendCode (Option String) => code.run.alone (resendAct env world c) _) hsent
  · rw [if_neg hdev] at hconsole
    refine ⟨code, otp, s₁, (bind_alone hconsole).trans ?_, fun h => absurd h hdev, hissued, hotp⟩
    rw [if_neg hdev]
    rfl

/-- The newest OTP is the one that a check looks up. -/
theorem latestOtp_newest {draw : Nat} (h : Newest otp d) : latestOtp draw otp.email otp.purpose d.otps = some otp := by
  have hpick : ∀ rows : List AuthOtp, otp ∈ rows → (∀ r ∈ rows, r = otp) → pick draw rows = some otp := by
    intro rows hmem hall
    have hlt : draw % rows.length < rows.length := Nat.mod_lt _ (List.length_pos_of_mem hmem)
    rw [pick, List.getElem?_eq_getElem hlt, hall _ (List.getElem_mem hlt)]
  have hall : ∀ r ∈ ((d.otps.filter fun r => r.email = otp.email ∧ r.purpose = otp.purpose).filter fun r =>
      (d.otps.filter fun r => r.email = otp.email ∧ r.purpose = otp.purpose).all fun r' => r'.createdAt ≤ r.createdAt),
      r = otp := by
    intro r hr
    obtain ⟨hr, hlast⟩ := List.mem_filter.mp hr
    obtain ⟨hmem, hkey⟩ := List.mem_filter.mp hr
    simp only [decide_eq_true_eq] at hkey
    obtain heq | hlt := h.2 r hmem hkey.1 hkey.2
    · exact heq
    · have hotp := List.all_eq_true.mp hlast otp (List.mem_filter.mpr ⟨h.1, by simp⟩)
      simp only [decide_eq_true_eq] at hotp
      omega
  have hmem : otp ∈ ((d.otps.filter fun r => r.email = otp.email ∧ r.purpose = otp.purpose).filter fun r =>
      (d.otps.filter fun r => r.email = otp.email ∧ r.purpose = otp.purpose).all fun r' => r'.createdAt ≤ r.createdAt) := by
    refine List.mem_filter.mpr ⟨List.mem_filter.mpr ⟨h.1, by simp⟩, List.all_eq_true.mpr fun r hr => ?_⟩
    obtain ⟨hr, hkey⟩ := List.mem_filter.mp hr
    simp only [decide_eq_true_eq] at hkey
    obtain rfl | hlt := h.2 r hr hkey.1 hkey.2
    · simp
    · simpa using hlt.le
  exact hpick _ hmem hall

/-- The rest of a check of the right code, once it has read the clock. -/
def inTime (otp : AuthOtp) (now : Nat) : Code Nat :=
  if otp.expiresAt < now then badRequest "OTP expired"
  else clearOtpAttempts otp.email otp.purpose >>= fun _ => pure otp.id

/-- A check of the right code, before any newer issue and over before expiry. -/
theorem checkVerification_run (hw : world.Works) (hnewest : Newest otp s.db)
    (hothers : ∀ q d, Newest otp d → Newest otp (world.others q d)) (hunused : otp.usedAt = none)
    (hhash : otp.codeHash = hashOtp env code otp.salt)
    (hexpiry : ∀ out t, (checkVerification env otp.email code otp.purpose).run.alone (consoleAct env world c) s =
      some (out, t) → t.db.clock ≤ otp.expiresAt) :
    ∃ t, (checkVerification env otp.email code otp.purpose).run.alone (consoleAct env world c) s = some (.ok otp.id, t) := by
  obtain ⟨wait, draw, hselect⟩ := consoleAct_run env hw c (.selectOtp otp.email otp.purpose) s
  have hfound : latestOtp draw otp.email otp.purpose (tick wait (world.others (.selectOtp otp.email otp.purpose) s.db)).otps =
      some otp := latestOtp_newest (hothers _ _ hnewest)
  simp only [exec, hfound, Option.map_some] at hselect
  have hchecked : ∀ s₁ : Site, (∀ out t, (checkOtp env otp.email code otp.purpose otp).run.alone (consoleAct env world c) s₁ = some (out, t) →
        t.db.clock ≤ otp.expiresAt) →
      ∃ t, (checkOtp env otp.email code otp.purpose otp).run.alone (consoleAct env world c) s₁ = some (.ok otp.id, t) := by
    intro s₁ hexpiry
    have hopen : checkOtp env otp.email code otp.purpose otp = query .dateNow >>= inTime otp := by
      rw [checkOtp, if_neg (by simp [hunused])]
      refine congrArg (query .dateNow >>= ·) (funext fun now : Nat => ?_)
      rw [if_neg (show ¬ hashOtp env code otp.salt ≠ otp.codeHash from not_not.mpr hhash.symm)]
      rfl
    obtain ⟨wait', draw', hnow⟩ := consoleAct_run env hw c .dateNow s₁
    have hrun := (congrArg (fun code : Code Nat => code.run.alone (consoleAct env world c) s₁) hopen).trans (query_run hnow)
    by_cases hlate : otp.expiresAt < (tick wait' (world.others .dateNow s₁.db)).clock
    · -- a check that finds the code expired is over after expiry
      have hthrown : inTime otp (tick wait' (world.others .dateNow s₁.db)).clock = badRequest "OTP expired" := if_pos hlate
      rw [hthrown] at hrun
      exact absurd (hexpiry _ _ (hrun.trans rfl)) (Nat.not_le.mpr hlate)
    · have hcleared : inTime otp (tick wait' (world.others .dateNow s₁.db)).clock =
          clearOtpAttempts otp.email otp.purpose >>= fun _ => pure otp.id := if_neg hlate
      rw [hcleared] at hrun
      obtain ⟨wait'', draw'', hclear⟩ := consoleAct_run env hw c (.deleteOtpAttempts otp.email otp.purpose) _
      exact ⟨_, hrun.trans ((query_run hclear).trans rfl)⟩
  have hrun : (checkVerification env otp.email code otp.purpose).run.alone (consoleAct env world c) s = _ :=
    query_run hselect
  rw [hrun] at hexpiry ⊢
  exact hchecked _ hexpiry

theorem resendCheck_run (s : Site) : (resendCheckVerification env email code purpose).run.alone (resendAct env world c) s =
    (checkVerification env email code purpose).run.alone (consoleAct env world c) s := embed_alone _ s

end Runs

/-- A world in which nothing else happens. -/
def quietWorld : World where
  move _ _ := .run 0 0
  others _ d := d
  answer _ := ⟨true, "OK", none⟩

theorem quietWorld_works : quietWorld.Works := ⟨fun _ _ => ⟨0, 0, rfl⟩, fun _ => rfl⟩

/-- Outside development mode no code is ever mailed. -/
theorem not_roundTrip (resend : ResendConfig) (hdev : env.config.otpDevMode = false) :
    ¬ RoundTrip env resend c email purpose userId := by
  intro h
  obtain ⟨result, s', otp, code, hrun, -⟩ := h quietWorld ⟨accounts [], [], []⟩ quietWorld_works
  obtain ⟨_, _, _, hrun', -⟩ := @resendStartVerification_run env c email purpose userId quietWorld quietWorld_works resend
    ⟨accounts [], [], []⟩
  rw [hrun, if_neg (by simp [hdev])] at hrun'
  cases hrun'

/-- The round trip of a payload holds exactly in development mode. -/
theorem resend_round_trip_iff (env : Env) (resend : ResendConfig) (c : Client) (email : String) (purpose : OtpPurpose)
    (userId : Option Nat) : RoundTrip env resend c email purpose userId ↔ env.config.otpDevMode = true := by
  constructor
  · intro h
    by_contra hdev
    exact not_roundTrip resend (Bool.eq_false_iff.mpr hdev) h
  · intro hdev world s hw
    obtain ⟨code, otp, s', hrun, houtbox, hissued, rfl, rfl, hunused, hhash⟩ :=
      @resendStartVerification_run env c email purpose userId world hw resend s
    rw [if_pos hdev] at hrun
    refine ⟨some code, s', otp, code, hrun, houtbox hdev, hissued, ?_⟩
    intro world' c' t hw' hnewest hothers hexpiry
    simp only [resendCheck_run] at hexpiry ⊢
    exact checkVerification_run hw' hnewest hothers hunused hhash hexpiry

/-- The configuration that is deployed. -/
def deliveringEnv : Env := { plainEnv with config := { plainEnv.config with otpDevMode := false } }

/-- A registration code is not delivered. -/
theorem code_undelivered :
    ¬ RoundTrip deliveringEnv ⟨"no-reply@kayan.example", "Your verification code"⟩ 1 "mona@shop.eg" .registration none :=
  not_roundTrip _ rfl

end Kayan.Auth
