import Kayan.Auth.Resend
import Kayan.Lib.TwoRuns

/-!
# What a password-reset request tells

`requestPasswordResetOtp` with any provider. An unknown email is answered by a neutral message, and the email of an
account by the message that an OTP was sent.
-/
namespace Kayan.Auth
open RowStore Interleave

variable {env : Env} {c : Client} {answer : Email → Delivery} {email : String} {d d' : Db}

section Provider

/-- `OtpVerificationProvider.startVerification`. -/
abbrev StartVerification : Type := String → OtpPurpose → Option Nat → ResendCode (Option String)

def consoleProvider (env : Env) : StartVerification := fun email purpose userId =>
  ofConsole (startVerification env email purpose userId)

def resendProvider (env : Env) (resend : ResendConfig) : StartVerification := resendStartVerification env resend

def neutralResponse : Payload := .obj [("message", .str "If this email is registered, an OTP has been sent")]

/-- `requestPasswordResetOtp` with a provider. -/
def requestPasswordResetOtpBy (start : StartVerification) (email : String) : ResendCode Payload := do
  let userId : Option Nat ← ofConsole (query (.selectUserId email))
  match userId with
  | none => pure neutralResponse
  | some userId =>
    let otp ← start email .passwordReset (some userId)
    pure (buildOtpSentResponse otp)

theorem embed_bind {σ τ : Type} {ρ : τ → Type} {α β : Type} {f : σ → τ} (p : Prog σ (fun q => ρ (f q)) α)
    (g : α → Prog σ (fun q => ρ (f q)) β) :
    ((p.bind g).embed f : Prog τ ρ β) = (p.embed f).bind fun a => (g a).embed f := by
  induction p with
  | ret a => rfl
  | call q k ih => exact congrArg (Prog.call (f q)) (funext ih)

theorem ofConsole_bind {α β : Type} (x : Code α) (f : α → Code β) :
    ofConsole (x >>= f) = ofConsole x >>= fun a => ofConsole (f a) := by
  refine (@embed_bind Stmt ResendStmt (fun q => Except PgError (ResendReply q)) _ _ ResendStmt.db x.run _).trans ?_
  refine congrArg (Prog.bind _) (funext fun r => ?_)
  cases r <;> rfl

/-- With the console sender it is the method itself. -/
theorem requestPasswordResetOtpBy_console :
    requestPasswordResetOtpBy (consoleProvider env) email = ofConsole (requestPasswordResetOtp env email) := by
  refine Eq.trans ?_ (ofConsole_bind _ _).symm
  refine congrArg (ofConsole (query (.selectUserId email)) >>= ·) (funext fun userId => ?_)
  cases userId with
  | none => rfl
  | some userId =>
    exact (ofConsole_bind (startVerification env email .passwordReset (some userId)) fun otp =>
      pure (buildOtpSentResponse otp)).symm

end Provider

section Responses

/-- The email is that of an account. -/
def HasAccount (env : Env) (email : String) (d : Db) : Prop :=
  ∃ r ∈ d.users.committedRows, (∃ e, r.email = some e ∧ env.lower e = env.lower email) ∧ r.deleted = false

/-- Statements that do not fail, and an API that answers. -/
def sending (env : Env) (c : Client) (answer : Email → Delivery) :
    Acts ResendStmt (fun q => Except PgError (ResendReply q)) Db
  | .db q, d, r, d' => ∃ wait draw, act env (.run wait draw) c q d = some (r, d')
  | .fetch mail, d, r, d' => r = .ok (answer mail) ∧ d' = d

/-- An account is found for the emails of accounts. -/
theorem selectUserId_sending {r : Answer (.selectUserId email)} (h : sending env c answer (.db (.selectUserId email)) d r d') :
    ∃ userId : Option Nat, r = .ok userId ∧ (userId.isSome = true ↔ HasAccount env email d) := by
  obtain ⟨wait, draw, hact⟩ := h
  obtain ⟨rfl, -⟩ := Prod.mk.inj (Option.some.inj hact)
  refine ⟨_, rfl, ?_⟩
  rw [Option.isSome_map, pick_isSome, ne_eq, List.filter_eq_nil_iff]
  simp only [HasAccount, tick, Option.any_eq_true, Bool.and_eq_true, decide_eq_true_eq, Bool.not_eq_true', not_forall,
    not_not, exists_prop]

variable {start : StartVerification} {r : Except Failure Payload}

/-- What is said of an OTP that was sent is not the neutral message. -/
theorem buildOtpSentResponse_ne (otp : Option String) : buildOtpSentResponse otp ≠ neutralResponse := by
  intro heq
  have hmessage : some (Payload.str "OTP sent") = some (.str "If this email is registered, an OTP has been sent") :=
    congrArg (Payload.field "message") heq
  simp at hmessage

/-- The email of an account is not answered by the neutral message. -/
theorem reset_registered (h : HasAccount env email d)
    (hrun : Runs (sending env c answer) (requestPasswordResetOtpBy start email).run d r d') : r ≠ .ok neutralResponse := by
  cases hrun with
  | call hq hk =>
    obtain ⟨userId, rfl, hiff⟩ := selectUserId_sending hq
    obtain ⟨userId, rfl⟩ := Option.isSome_iff_exists.mp (hiff.mpr h)
    have hsend : Runs (sending env c answer) (start email .passwordReset (some userId) >>= fun otp =>
        pure (buildOtpSentResponse otp)).run _ r d' := hk
    obtain ⟨otp, d₁, -, hret⟩ := Runs.of_bind hsend
    cases otp with
    | error e =>
      cases hret
      nofun
    | ok otp =>
      cases hret
      exact fun heq => buildOtpSentResponse_ne otp (Except.ok.inj heq)

/-- Any other email is answered by the neutral message. -/
theorem reset_unregistered (h : ¬ HasAccount env email d) :
    Results (sending env c answer) (requestPasswordResetOtpBy start email).run d = {.ok neutralResponse} := by
  ext r
  constructor
  · rintro ⟨d', hrun⟩
    cases hrun with
    | call hq hk =>
      obtain ⟨userId, rfl, hiff⟩ := selectUserId_sending hq
      obtain rfl := Option.not_isSome_iff_eq_none.mp fun hsome => h (hiff.mp hsome)
      cases hk
      rfl
  · rintro rfl
    have hact : ∃ r e, sending env c answer (.db (.selectUserId email)) d r e := ⟨_, _, 0, 0, rfl⟩
    obtain ⟨r, e, hq⟩ := hact
    obtain ⟨userId, rfl, hiff⟩ := selectUserId_sending hq
    obtain rfl := Option.not_isSome_iff_eq_none.mp fun hsome => h (hiff.mp hsome)
    exact ⟨e, .call hq .ret⟩

/-- Whichever the provider is, the responses to an email that is registered in one of two states only differ. -/
theorem reset_reveals (h : HasAccount env email d) (h' : ¬ HasAccount env email d') :
    Results (sending env c answer) (requestPasswordResetOtpBy start email).run d ≠
      Results (sending env c answer) (requestPasswordResetOtpBy start email).run d' := by
  intro heq
  have hneutral : .ok neutralResponse ∈ Results (sending env c answer) (requestPasswordResetOtpBy start email).run d := by
    rw [heq, reset_unregistered h']
    exact Set.mem_singleton _
  obtain ⟨e, hrun⟩ := hneutral
  exact reset_registered h hrun rfl

end Responses

section Deployed

/-- A store with one account. -/
def monaRegistered : Db :=
  accounts [{ id := 1, name := "Mona", phone := none, email := some "mona@shop.eg", address := none,
              passwordHash := "old" }]

theorem registered_has : HasAccount deliveringEnv "mona@shop.eg" monaRegistered :=
  ⟨_, List.mem_singleton.mpr rfl, ⟨_, rfl, rfl⟩, rfl⟩

theorem unregistered_has : ¬ HasAccount deliveringEnv "mona@shop.eg" (accounts []) := nofun

/-- The API accepts everything. -/
def accepted : Email → Delivery := fun _ => ⟨true, "OK", none⟩

theorem mona_revealed : Results (sending deliveringEnv 1 accepted)
      (requestPasswordResetOtpBy (consoleProvider deliveringEnv) "mona@shop.eg").run monaRegistered ≠
    Results (sending deliveringEnv 1 accepted)
      (requestPasswordResetOtpBy (consoleProvider deliveringEnv) "mona@shop.eg").run (accounts []) :=
  reset_reveals registered_has unregistered_has

/-- A turn in which nothing is waited for. -/
def sendNow (env : Env) (c : Client) (answer : Email → Delivery) :
    (q : ResendStmt) → Db → Option (Except PgError (ResendReply q) × Db)
  | .db q, d => act env (.run 0 0) c q d
  | .fetch mail, d => some (.ok (answer mail), d)

theorem sendNow_sending (q : ResendStmt) (d : Db) (r : Except PgError (ResendReply q)) (d' : Db)
    (h : sendNow env c answer q d = some (r, d')) : sending env c answer q d r d' := by
  cases q with
  | db q => exact ⟨0, 0, h⟩
  | fetch mail =>
    cases h
    exact ⟨rfl, rfl⟩

/-- The message that an OTP was sent is the answer to a registered email alone. -/
theorem sent_reveals :
    .ok (.obj [("message", .str "OTP sent")]) ∈ Results (sending deliveringEnv 1 accepted)
        (requestPasswordResetOtpBy (consoleProvider deliveringEnv) "mona@shop.eg").run monaRegistered ∧
      .ok (.obj [("message", .str "OTP sent")]) ∉ Results (sending deliveringEnv 1 accepted)
        (requestPasswordResetOtpBy (consoleProvider deliveringEnv) "mona@shop.eg").run (accounts []) := by
  constructor
  · have hrun : ((requestPasswordResetOtpBy (consoleProvider deliveringEnv) "mona@shop.eg").run.alone
        (sendNow deliveringEnv 1 accepted) monaRegistered).map Prod.fst = some (.ok (.obj [("message", .str "OTP sent")])) := rfl
    obtain ⟨⟨r, d'⟩, halone, rfl⟩ := Option.map_eq_some_iff.mp hrun
    exact ⟨d', Runs.of_alone sendNow_sending halone⟩
  · rw [reset_unregistered unregistered_has]
    exact fun h => buildOtpSentResponse_ne none (Except.ok.inj (Set.mem_singleton_iff.mp h))

end Deployed

end Kayan.Auth
