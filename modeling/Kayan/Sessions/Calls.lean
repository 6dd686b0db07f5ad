import Kayan.Sessions.Seen

/-!
# The calls keep to their protocol

Statement by statement: what each call has seen when it ends, whatever its statements reply.
-/
namespace Kayan.Sessions
open Interleave Auth

/-- The protocol over the statements of the OTP flows. -/
abbrev otpCalls (env : Env) : Protocol Auth.Stmt Auth.Answer Seen := fun x q r y => calls env x (.auth q) r y

/-- The same where the tokens are saved outside any transaction. -/
def poolCalls (env : Env) : Protocol Auth.Stmt Auth.Answer Seen
  | x, .insertRefreshToken jti userId ttlSeconds, r, y =>
    calls env x (.insertRefreshToken jti userId ttlSeconds) r y
  | x, q, r, y => calls env x (.auth q) r y

variable {env : Env} {x : Seen} {α : Type} {Q : α → Seen → Prop} {E : Seen → Prop}

section Rules

/-- A statement that may be issued: its reply decides where the call is. -/
theorem keeps_query {q : Stmt} {Q : Reply q → Seen → Prop} (hm : x.may env q)
    (h : ∀ r, outcome Q E r (x.after q r)) : Keeps (calls env) x (query q) Q E :=
  Keeps.await fun r => ⟨x.after q r, ⟨hm, rfl⟩, h r⟩

theorem keeps_otp {q : Auth.Stmt} {Q : Auth.Reply q → Seen → Prop} (hm : x.may env (.auth q))
    (h : ∀ r, outcome Q E r (x.after (.auth q) r)) : Keeps (otpCalls env) x (Auth.query q) Q E :=
  Keeps.await fun r => ⟨x.after (.auth q) r, ⟨hm, rfl⟩, h r⟩

/-- A statement that tells nothing. -/
theorem still_query {q : Stmt} (hm : x.may env q) (h : ∀ r, x.after q r = x) :
    Still (calls env) x (query q) :=
  Still.await fun r => ⟨hm, (h r).symm⟩

theorem still_otp {q : Auth.Stmt} (hm : x.may env (.auth q)) (h : ∀ r, x.after (.auth q) r = x) :
    Still (otpCalls env) x (Auth.query q) :=
  Still.await fun r => ⟨hm, (h r).symm⟩

theorem tryRedisSet_still {op : Stmt} (hm : x.may env op) (h : ∀ r, x.after op r = x) :
    Follows (calls env) (fun _ y => y = x) (tryRedisSet env op) x := by
  unfold tryRedisSet
  split
  · exact fun r => ⟨x, ⟨hm, (h r).symm⟩, rfl⟩
  · exact rfl

/-- Saving a token: what counts is the `INSERT`. -/
theorem saveRefreshTokenJti_follows {jti : String} {userId ttlSeconds : Nat} {insert : Stmt}
    {C : Answer insert → Seen → Prop} (hm : x.may env insert) (h : ∀ r, C r (x.after insert r)) :
    Follows (calls env) C (saveRefreshTokenJti env jti userId ttlSeconds insert) x := by
  refine Follows.bind (tryRedisSet_still ⟨hm.1, trivial⟩ fun _ => rfl) fun _ y hy => ?_
  subst hy
  exact fun r => ⟨y.after insert r, ⟨hm, rfl⟩, h r⟩

/-- Code of the OTP flows keeps to the protocol here where it does over its own statements. -/
theorem ofOtp_keeps {code : Auth.Code α} (h : Keeps (otpCalls env) x code Q E) :
    Keeps (calls env) x (ofOtp env code) Q E := by
  refine Follows.translate h fun q x C hq => ?_
  cases q with
  | insertRefreshToken jti userId ttlSeconds =>
    obtain ⟨y, ⟨hm, -⟩, -⟩ := hq (.ok ())
    refine saveRefreshTokenJti_follows hm fun r => ?_
    obtain ⟨y, ⟨-, rfl⟩, hc⟩ := hq r
    exact hc
  | _ => exact hq

end Rules

section Tokens
variable {userId : Nat} {email : Option String} {isAdmin : Bool} {tokenVersion : Nat}

/-- Issuing tokens is saving the refresh token; the rest reads the clock and draws a `jti`. -/
theorem signing_keeps {P : Protocol Auth.Stmt Auth.Answer Seen} {env : Auth.Env} {Q : Tokens → Seen → Prop}
    (hdraw : ∀ r, P x .randomBytes r x) (hclock : ∀ r, P x .dateNow r x) (he : E x)
    (hsave : ∀ (jti : String) (issued reissued : Nat) r, ∃ y,
      P x (.insertRefreshToken jti userId (parseTtlSeconds env.config.jwtRefreshTtl)) r y ∧
      outcome (fun _ => Q
        ⟨env.signAsync ⟨userId, email, isAdmin, tokenVersion, none⟩ env.config.jwtAccessSecret
          env.config.jwtAccessTtl issued,
         env.signAsync ⟨userId, email, isAdmin, tokenVersion, some jti⟩ env.config.jwtRefreshSecret
          env.config.jwtRefreshTtl reissued⟩) E r y) :
    Keeps P x (Auth.generateTokens env userId email isAdmin tokenVersion) Q E := by
  refine Keeps.after (Still.await hdraw) (fun jti => ?_) he
  refine Keeps.after (Still.await hclock) (fun issued => ?_) he
  refine Keeps.after (Still.await hclock) (fun reissued => ?_) he
  refine Keeps.bind (Keeps.await (hsave jti issued reissued)) fun _ y hy => ?_
  exact Keeps.pure hy

/-- The tokens that are signed for an account. -/
def SignedFor (env : Env) (a : Account) (jti : String) (tokens : Tokens) : Prop :=
  ∃ issued reissued, tokens =
    ⟨env.signAsync (payloadOf a none) env.config.jwtAccessSecret env.config.jwtAccessTtl issued,
     env.signAsync (payloadOf a (some jti)) env.config.jwtRefreshSecret env.config.jwtRefreshTtl reissued⟩

/-- In a transaction the saved token is pending. -/
theorem otpTokens_keeps (hx : x.shown = none) (hs : x.stored = none) :
    Keeps (otpCalls env) x (Auth.generateTokens env.toEnv userId email isAdmin tokenVersion)
      (fun tokens y => ∃ jti, y = { x with stored := some jti, pending := true } ∧
        ∀ a, payloadOf a none = ⟨userId, email, isAdmin, tokenVersion, none⟩ → SignedFor env a jti tokens)
      fun y => y.shown = none := by
  refine signing_keeps (fun _ => ⟨⟨hx, trivial⟩, rfl⟩) (fun _ => ⟨⟨hx, trivial⟩, rfl⟩) hx
    fun jti issued reissued r => ⟨_, ⟨⟨hx, hs⟩, rfl⟩, ?_⟩
  cases r with
  | ok v =>
    refine ⟨jti, rfl, fun a ha => ⟨issued, reissued, ?_⟩⟩
    cases a
    cases ha
    rfl
  | error e => exact hx

theorem poolTokens_keeps {a : Account} (hx : x.shown = none) (hs : x.stored = none) :
    Keeps (calls env) x (generateTokens env a)
      (fun tokens y => ∃ jti, y = { x with stored := some jti } ∧ SignedFor env a jti tokens) fun _ => True := by
  refine Follows.translate (P := poolCalls env) (signing_keeps (fun _ => ⟨⟨hx, trivial⟩, rfl⟩)
    (fun _ => ⟨⟨hx, trivial⟩, rfl⟩) trivial fun jti issued reissued r => ⟨_, ⟨⟨hx, hs⟩, rfl⟩, ?_⟩)
    fun q x C hq => ?_
  · cases r with
    | ok v => exact ⟨jti, rfl, issued, reissued, rfl⟩
    | error e => trivial
  · cases q with
    | insertRefreshToken jti userId ttlSeconds =>
      obtain ⟨y, ⟨hm, -⟩, -⟩ := hq (.ok ())
      refine saveRefreshTokenJti_follows hm fun r => ?_
      obtain ⟨y, ⟨-, rfl⟩, hc⟩ := hq r
      exact hc
    | _ => exact hq

end Tokens

section Ends
variable {body : Payload} {a : Account} {jti : String} {tokens : Tokens}

theorem token_response {key token : String} (h : (Result.response body).token key = some token) :
    body.field key = some (.str token) := by
  simp only [Result.token] at h
  split at h
  · rename_i hf
    rw [hf, Option.some.inj h]
  · cases h

/-- A body without tokens. -/
def Bare (body : Payload) : Prop := body.field "accessToken" = none ∧ body.field "refreshToken" = none

/-- A response without tokens. -/
theorem ends_bare (hb : Bare body) (hs : x.settles) : ends env (.ok (.response body)) x := by
  obtain ⟨ha, hr⟩ := hb
  rintro _ ⟨⟩
  refine ⟨fun token ht => ?_, trivial, hs⟩
  rcases ht with h | h
  · cases ha.symm.trans (token_response h)
  · cases hr.symm.trans (token_response h)

/-- A response with the tokens that were signed for the account of the call. -/
theorem ends_tokens (ha : body.field "accessToken" = some (.str tokens.accessToken))
    (hr : body.field "refreshToken" = some (.str tokens.refreshToken)) (hx : x.account = some a)
    (hact : a.status = .active) (hj : x.stored = some jti) (hp : x.pending = false)
    (ht : SignedFor env a jti tokens) (hs : x.settles) : ends env (.ok (.response body)) x := by
  obtain ⟨issued, reissued, rfl⟩ := ht
  rintro _ ⟨⟩
  refine ⟨fun token ht => ?_, trivial, hs⟩
  rcases ht with h | h
  · cases ha.symm.trans (token_response h)
    exact ⟨a, none, _, _, issued, hx, hact, hp, Or.inl rfl, rfl⟩
  · cases hr.symm.trans (token_response h)
    exact ⟨a, some jti, _, _, reissued, hx, hact, hp, Or.inr hj.symm, rfl⟩

/-- Code whose results may end the call, as a call. -/
theorem ends_call {code : Code α} {f : α → Result} (h : Keeps (calls env) x code
    (fun a y => ends env (.ok (f a)) y) fun _ => True) : Follows (calls env) (ends env) (f <$> code).run x := by
  refine Follows.mono (Keeps.bind h fun a y hy => Keeps.pure (Q := fun r y => ends env (.ok r) y) hy) ?_
  intro r y hy
  cases r with
  | ok a => exact hy
  | error e => rintro _ ⟨⟩

end Ends

section Session
variable {req : Request}

/-- The notes of a call before its first statement. -/
def Seen.start (req : Request) : Seen := { req }

theorem verifyToken_keeps {token secret message : String} (hx : x.shown = none)
    (hp : x.presents env token secret) :
    Keeps (calls env) x (verifyToken token secret message)
      (fun payload y => y = { x with verified := some (token, payload) })
      fun y => y = { x with refused := true } ∨ y = { x with broken := true } := by
  refine Keeps.bind (Q := fun r y => (r = none ∧ y = { x with refused := true }) ∨
    ∃ payload, r = some payload ∧ y = { x with verified := some (token, payload) }) ?_ fun r y hy => ?_
  · refine Keeps.catch (E := fun y => y = { x with broken := true }) (keeps_query ⟨hx, hp⟩ fun r => ?_)
      fun _ y hy => Keeps.throw (Or.inr hy)
    rcases r with e | _ | payload
    · exact rfl
    · exact Or.inl ⟨rfl, rfl⟩
    · exact Or.inr ⟨payload, rfl, rfl⟩
  · rcases hy with ⟨rfl, rfl⟩ | ⟨payload, rfl, rfl⟩
    · exact Keeps.throw (Or.inl rfl)
    · exact Keeps.pure rfl

theorem login_keeps {email password : String} :
    Keeps (calls env) (Seen.start (.login email password)) (login env email password)
      (fun body y => ends env (.ok (.response body)) y) fun _ => True := by
  refine Keeps.bind (E := fun _ => True) (Q := fun r y => ∀ user, r = some user →
    y = { Seen.start (.login email password) with account := some (accountOf user) })
    (keeps_query ⟨rfl, trivial⟩ fun r => ?_) fun r y hy => ?_
  · rcases r with e | _ | user
    · trivial
    · rintro _ ⟨⟩
    · rintro _ ⟨⟩
      rfl
  · cases r with
    | none => exact Keeps.throw trivial
    | some user =>
      cases hy user rfl
      dsimp only
      split
      · exact Keeps.throw trivial
      · rename_i hact
        split
        · exact Keeps.throw trivial
        · refine Keeps.bind (poolTokens_keeps rfl rfl) fun tokens y hy => ?_
          obtain ⟨jti, rfl, ht⟩ := hy
          exact Keeps.pure (ends_tokens (by rfl) (by rfl) rfl (not_not.mp hact) rfl rfl ht trivial)

theorem consumeRefreshTokenJti_keeps {jti : String} (hx : x.shown = none) :
    Keeps (calls env) x (consumeRefreshTokenJti env jti)
      (fun owner y => ∀ id, owner = some id → y = { x with consumed := some jti }) fun _ => True := by
  refine Keeps.bind (Keeps.lift (Q := fun _ y => y = x) (tryRedisSet_still ⟨hx, trivial⟩ fun _ => rfl))
    fun _ y hy => ?_
  subst hy
  refine keeps_query ⟨hx, trivial⟩ fun r => ?_
  rcases r with e | _ | owner
  · trivial
  · rintro _ ⟨⟩
  · exact fun _ _ => rfl

theorem refresh_keeps {token : String} :
    Keeps (calls env) (Seen.start (.refresh token)) (refresh env token)
      (fun body y => ends env (.ok (.response body)) y) fun _ => True := by
  refine Keeps.bind (Keeps.mono (verifyToken_keeps rfl (Or.inl ⟨Or.inl rfl, rfl⟩)) (fun _ _ => id)
    fun _ _ => trivial) fun payload y hy => ?_
  subst hy
  split
  · exact Keeps.throw trivial
  · rename_i jti hj
    refine Keeps.bind (consumeRefreshTokenJti_keeps rfl) fun owner y hy => ?_
    cases owner with
    | none => exact Keeps.throw trivial
    | some id =>
      cases hy id rfl
      dsimp only
      split
      · exact Keeps.throw trivial
      · rename_i hsub
        refine Keeps.bind (E := fun _ => True) (Q := fun r y => ∀ user, r = some user → y =
          { Seen.start (.refresh token) with
            verified := some (token, payload), consumed := some jti, account := some user,
            found := some (id, user) })
          (keeps_query ⟨rfl, trivial⟩ fun r => ?_) fun r y hy => ?_
        · rcases r with e | _ | user
          · trivial
          · rintro _ ⟨⟩
          · rintro _ ⟨⟩
            rfl
        · cases r with
          | none => exact Keeps.throw trivial
          | some user =>
            cases hy user rfl
            dsimp only
            split
            · exact Keeps.throw trivial
            · rename_i hgood
              refine Keeps.bind (poolTokens_keeps rfl rfl) fun tokens y hy => ?_
              obtain ⟨jti', rfl, ht⟩ := hy
              simp only [ne_eq, not_or, not_not, Bool.not_eq_true', Bool.not_eq_false] at hgood hsub
              exact Keeps.pure (ends_tokens (by rfl) (by rfl) rfl hgood.1 rfl rfl ht
                ⟨payload, jti, id, user, rfl, hj, rfl, rfl, hsub, hgood.2⟩)

theorem logout_keeps {token : String} :
    Keeps (calls env) (Seen.start (.logout token)) (logout env token)
      (fun body y => ends env (.ok (.response body)) y) fun _ => True := by
  refine Keeps.bind (Keeps.catch (Q := fun _ y => y.settles) (E := fun y => y.settles) ?_ fun _ y hy =>
    Keeps.pure hy) fun _ y hy => Keeps.pure (ends_bare ⟨rfl, rfl⟩ hy)
  refine Keeps.bind (Keeps.mono (verifyToken_keeps rfl (Or.inl ⟨Or.inr rfl, rfl⟩)) (fun _ _ => id)
    fun y hy => ?_) fun payload y hy => ?_
  · rcases hy with rfl | rfl
    · exact Or.inl rfl
    · exact Or.inr (Or.inl rfl)
  · subst hy
    split
    · rename_i jti hj
      refine Keeps.bind (Keeps.lift (tryRedisSet_still ⟨rfl, trivial⟩ fun _ => rfl)) fun _ y hy => ?_
      subst hy
      refine keeps_query ⟨rfl, _, rfl, hj⟩ fun r => ?_
      cases r with
      | ok v =>
        refine Or.inr (Or.inr ⟨payload, rfl, fun jti' hj' => ?_⟩)
        exact hj.symm.trans hj'
      | error e => exact Or.inr (Or.inl rfl)
    · rename_i hj
      refine Keeps.pure (Or.inr (Or.inr ⟨payload, rfl, fun jti' hj' => ?_⟩))
      rw [hj] at hj'
      cases hj'

theorem authenticate_keeps {token : String} :
    Keeps (calls env) (Seen.start (.authenticate token)) (authenticate env token)
      (fun user y => ends env (.ok (.user user)) y) fun _ => True := by
  refine Keeps.bind (Keeps.mono (verifyToken_keeps rfl (Or.inr ⟨rfl, rfl⟩)) (fun _ _ => id)
    fun _ _ => trivial) fun payload y hy => ?_
  subst hy
  unfold validate
  split
  · split
    · exact Keeps.throw trivial
    · rename_i id hid
      refine Keeps.bind (E := fun _ => True) (Q := fun r y => ∀ row, r = some row → y =
        { Seen.start (.authenticate token) with
          verified := some (token, payload), shown := some (id, row) })
        (keeps_query ⟨rfl, trivial⟩ fun r => ?_) fun r y hy => ?_
      · rcases r with e | _ | row
        · trivial
        · rintro _ ⟨⟩
        · rintro _ ⟨⟩
          rfl
      · cases r with
        | none => exact Keeps.throw trivial
        | some row =>
          cases hy row rfl
          dsimp only
          split
          · exact Keeps.throw trivial
          · rename_i hv
            refine Keeps.pure ?_
            rintro _ ⟨⟩
            refine ⟨fun _ ht => ?_, ⟨token, payload, row, rfl, rfl, hid, rfl, ?_, rfl⟩, trivial⟩
            · rcases ht with ht | ht <;> cases ht
            · simpa using hv
  · exact Keeps.throw trivial

end Session

section Plain
variable {σ : Type} {ρ : σ → Type} {P : Protocol σ (fun q => Except PgError (ρ q)) Seen}

/-- Code that tells nothing and answers without tokens. -/
def Plain (P : Protocol σ (fun q => Except PgError (ρ q)) Seen) (x : Seen)
    (code : Interleave.Code σ ρ PgError Failure Payload) : Prop :=
  Keeps P x code (fun body y => y = x ∧ Bare body) fun y => y = x

theorem Plain.after {code : Interleave.Code σ ρ PgError Failure α}
    {f : α → Interleave.Code σ ρ PgError Failure Payload} (h : Still P x code)
    (hf : ∀ a, Plain P x (f a)) : Plain P x (code >>= f) := Keeps.after h hf rfl

theorem Plain.throw {e : Failure} :
    Plain P x (throw e : Interleave.Code σ ρ PgError Failure Payload) := Keeps.throw rfl

theorem Plain.ends {code : Interleave.Code σ ρ PgError Failure Payload} (h : Plain P x code)
    (hs : x.settles) :
    Keeps P x code (fun body y => Sessions.ends env (.ok (.response body)) y) fun _ => True := by
  refine Keeps.mono h (fun body y hy => ?_) fun _ _ => trivial
  obtain ⟨rfl, hb⟩ := hy
  exact ends_bare hb hs

end Plain

section Accounts
variable {adminId userId : Nat}

theorem logAdminAction_still {action : String} (hx : x.shown = none) :
    Still (calls env) x (logAdminAction adminId action userId) :=
  Still.catch (still_query ⟨hx, trivial⟩ fun _ => rfl) fun _ => Still.pure

theorem dropStatus_still (hx : x.shown = none) : Still (calls env) x (dropStatus env userId) := by
  unfold dropStatus
  refine iteInduction (fun _ => ?_) fun _ => Still.pure
  exact still_query ⟨hx, trivial⟩ fun _ => rfl

theorem setAdmin_plain {isAdmin : Bool} {action : String} (hx : x.shown = none) :
    Plain (calls env) x (setAdmin adminId userId isAdmin action) := by
  refine Plain.after (still_query ⟨hx, trivial⟩ fun _ => rfl) fun row => ?_
  refine Plain.after (logAdminAction_still hx) fun _ => ?_
  cases row with
  | none => exact Plain.throw
  | some user => exact Keeps.pure ⟨rfl, rfl, rfl⟩

theorem promoteAdmin_plain (hx : x.shown = none) : Plain (calls env) x (promoteAdmin adminId userId) := by
  refine Plain.after (still_query ⟨hx, trivial⟩ fun _ => rfl) fun row => ?_
  cases row with
  | none => exact Plain.throw
  | some isAdmin =>
    cases isAdmin with
    | true => exact Plain.throw
    | false => exact setAdmin_plain hx

theorem demoteAdmin_plain (hx : x.shown = none) : Plain (calls env) x (demoteAdmin adminId userId) := by
  unfold demoteAdmin
  split
  · exact Plain.throw
  · refine Plain.after (still_query ⟨hx, trivial⟩ fun _ => rfl) fun row => ?_
    cases row with
    | none => exact Plain.throw
    | some isAdmin =>
      cases isAdmin with
      | true => exact setAdmin_plain hx
      | false => exact Plain.throw

theorem updateUserStatus_plain {status : UserStatus} (hx : x.shown = none) :
    Plain (calls env) x (updateUserStatus env adminId userId status) := by
  refine Plain.after (still_query ⟨hx, trivial⟩ fun _ => rfl) fun row => ?_
  cases row with
  | none => exact Plain.throw
  | some user =>
    refine Plain.after (logAdminAction_still hx) fun _ => ?_
    refine Plain.after (dropStatus_still hx) fun _ => ?_
    exact Keeps.pure ⟨rfl, rfl, rfl⟩

theorem deleteUser_plain (hx : x.shown = none) : Plain (calls env) x (deleteUser env adminId userId) := by
  refine Plain.after (still_query ⟨hx, trivial⟩ fun _ => rfl) fun deleted => ?_
  cases deleted with
  | false => exact Plain.throw
  | true =>
    refine Plain.after (logAdminAction_still hx) fun _ => ?_
    refine Plain.after (dropStatus_still hx) fun _ => ?_
    exact Keeps.pure ⟨rfl, rfl, rfl⟩

theorem deleteMe_plain (hx : x.shown = none) : Plain (calls env) x (deleteMe userId) := by
  refine Plain.after (still_query ⟨hx, trivial⟩ fun _ => rfl) fun deleted => ?_
  cases deleted with
  | false => exact Plain.throw
  | true => exact Keeps.pure ⟨rfl, rfl, rfl⟩

end Accounts

section Otp
variable {email : String} {purpose : OtpPurpose}

theorem startVerification_still {userId : Option Nat} (hx : x.shown = none) :
    Still (otpCalls env) x (Auth.startVerification env.toEnv email purpose userId) := by
  have hdraw : Still (otpCalls env) x (drawOtp env.toEnv) := by
    unfold drawOtp
    split
    · exact Still.pure
    · exact Still.bind (still_otp ⟨hx, trivial⟩ fun _ => rfl) fun _ => Still.pure
  refine Still.bind hdraw fun otp => ?_
  refine Still.bind (still_otp ⟨hx, trivial⟩ fun _ => rfl) fun salt => ?_
  exact Still.bind (still_otp ⟨hx, trivial⟩ fun _ => rfl) fun _ => Still.pure

theorem checkVerification_still {code : String} (hx : x.shown = none) :
    Still (otpCalls env) x (Auth.checkVerification env.toEnv email code purpose) := by
  have hclear : Still (otpCalls env) x (clearOtpAttempts email purpose) :=
    still_otp ⟨hx, trivial⟩ fun _ => rfl
  refine Still.bind (still_otp ⟨hx, trivial⟩ fun _ => rfl) fun row => ?_
  cases row with
  | none => exact Still.throw
  | some otpRow =>
    dsimp only [checkOtp]
    split
    · exact Still.throw
    · refine Still.bind (still_otp ⟨hx, trivial⟩ fun _ => rfl) fun now => ?_
      split
      · exact Still.throw
      · split
        · refine Still.bind (Still.bind (still_otp ⟨hx, trivial⟩ fun _ => rfl) fun attempts => ?_)
            fun result => ?_
          · split
            · exact Still.bind hclear fun _ => Still.pure
            · exact Still.pure
          · split
            · exact Still.throw
            · exact Still.throw
        · exact Still.bind hclear fun _ => Still.pure

theorem bare_otpSent {otp : Option String} : Bare (buildOtpSentResponse otp) := by
  cases otp <;> exact ⟨rfl, rfl⟩

theorem sendOtp_plain {userId : Option Nat} (hx : x.shown = none) :
    Plain (otpCalls env) x (do
      let otp ← Auth.startVerification env.toEnv email purpose userId
      pure (buildOtpSentResponse otp)) :=
  Plain.after (startVerification_still hx) fun _ => Keeps.pure ⟨rfl, bare_otpSent⟩

theorem requestRegistrationOtp_plain {dto : RequestRegistrationOtpDto} (hx : x.shown = none) :
    Plain (otpCalls env) x (Auth.requestRegistrationOtp env.toEnv dto) := by
  refine Plain.after (still_otp ⟨hx, trivial⟩ fun _ => rfl) fun existing => ?_
  cases existing with
  | true => exact Plain.throw
  | false =>
    refine Plain.after (still_otp ⟨hx, trivial⟩ fun _ => rfl) fun pending => ?_
    refine iteInduction (fun _ => Plain.throw) fun _ => ?_
    refine Plain.after (still_otp ⟨hx, trivial⟩ fun _ => rfl) fun passwordHash => ?_
    refine Plain.after (Still.catch (still_otp ⟨hx, trivial⟩ fun _ => rfl) fun _ => Still.throw) fun _ => ?_
    exact sendOtp_plain hx

theorem resendRegistrationOtp_plain (hx : x.shown = none) :
    Plain (otpCalls env) x (Auth.resendRegistrationOtp env.toEnv email) := by
  refine Plain.after (still_otp ⟨hx, trivial⟩ fun _ => rfl) fun pending => ?_
  cases pending with
  | false => exact Plain.throw
  | true => exact sendOtp_plain hx

theorem requestPasswordResetOtp_plain (hx : x.shown = none) :
    Plain (otpCalls env) x (Auth.requestPasswordResetOtp env.toEnv email) := by
  refine Plain.after (still_otp ⟨hx, trivial⟩ fun _ => rfl) fun userId => ?_
  cases userId with
  | none => exact Keeps.pure ⟨rfl, rfl, rfl⟩
  | some userId => exact sendOtp_plain hx

/-- A transaction ends in what its commit makes of its result. -/
theorem otpTransaction_keeps {code : Auth.Code α} {R : α → Seen → Prop} (hx : x.shown = none)
    (h : Keeps (otpCalls env) x code Q fun y => y.shown = none)
    (hcommit : ∀ a y, Q a y → y.shown = none ∧ R a { y with pending := false }) :
    Keeps (otpCalls env) x (Auth.withTransaction code) R fun _ => True := by
  refine Keeps.transaction (E := fun y => y.shown = none) (fun r => ⟨x, ⟨⟨hx, trivial⟩, rfl⟩, ?_⟩) h
    (fun a y hy r => ?_) fun y hy r => ?_
  · cases r with
    | ok v => exact rfl
    | error e => exact hx
  · obtain ⟨hs, hr⟩ := hcommit a y hy
    refine ⟨y.after (.auth .commit) r, ⟨⟨hs, trivial⟩, rfl⟩, ?_⟩
    cases r with
    | ok v => exact hr
    | error e => exact hs
  · exact ⟨y.after (.auth .rollback) r, ⟨⟨hy, trivial⟩, rfl⟩, trivial⟩

theorem deleteExpiredRows_still {ids : List Nat} (hx : x.shown = none) :
    Still (otpCalls env) x (deleteExpiredRows ids) := by
  induction ids with
  | nil => exact Still.pure
  | cons i ids ih => exact Still.bind (still_otp ⟨hx, trivial⟩ fun _ => rfl) fun _ => ih

theorem purgeExpiredOtps_keeps (hx : x.shown = none) :
    Keeps (otpCalls env) x purgeExpiredOtps (fun _ y => y = { x with pending := false }) fun _ => True := by
  refine Keeps.after (still_otp ⟨hx, trivial⟩ fun _ => rfl) (fun _ => ?_) trivial
  refine otpTransaction_keeps (Q := fun _ y => y = x) hx (Still.keeps ?_ (fun _ => rfl) hx) ?_
  · refine Still.bind (still_otp ⟨hx, trivial⟩ fun _ => rfl) fun ids => ?_
    exact deleteExpiredRows_still hx
  · rintro _ _ rfl
    exact ⟨hx, rfl⟩

/-- What a transaction that issues tokens has come to. -/
def Issued (env : Env) (x : Seen) (body : Payload) (y : Seen) : Prop :=
  ∃ a jti tokens, y = { x with account := some a, stored := some jti, pending := true } ∧
    a.status = .active ∧ SignedFor env a jti tokens ∧
    body.field "accessToken" = some (.str tokens.accessToken) ∧
    body.field "refreshToken" = some (.str tokens.refreshToken)

/-- Its commit ends the call. -/
theorem Issued.ends {body : Payload} {y : Seen} (h : Issued env x body y) (hx : x.shown = none)
    (hs : Seen.settles { y with pending := false }) :
    y.shown = none ∧ Sessions.ends env (.ok (.response body)) { y with pending := false } := by
  obtain ⟨a, jti, tokens, rfl, hact, ht, ha, hr⟩ := h
  exact ⟨hx, ends_tokens ha hr rfl hact rfl rfl ht hs⟩

theorem registerPending_keeps (hx : x.shown = none) (hs : x.stored = none) :
    Keeps (otpCalls env) x (registerPending env.toEnv email) (Issued env x) fun y => y.shown = none := by
  refine Keeps.after (still_otp ⟨hx, trivial⟩ fun _ => rfl) (fun row => ?_) hx
  cases row with
  | none => exact Keeps.throw hx
  | some pending =>
    refine Keeps.bind (Q := fun user y => y = { x with account := some ⟨user.id, user.email, .active, false, 0⟩ })
      (Keeps.catch (E := fun y => y = x) (keeps_otp ⟨hx, trivial⟩ fun r => ?_)
        fun _ y hy => Keeps.throw (hy ▸ hx)) fun user y hy => ?_
    · cases r <;> rfl
    · subst hy
      refine Keeps.after (still_otp ⟨hx, trivial⟩ fun _ => rfl) (fun _ => ?_) hx
      refine Keeps.bind (otpTokens_keeps hx hs) fun tokens y hy => ?_
      obtain ⟨jti, rfl, ht⟩ := hy
      exact Keeps.pure ⟨_, jti, tokens, rfl, rfl, ht _ rfl, rfl, rfl⟩

theorem changePassword_keeps {newPassword : String} (hx : x.shown = none) (hs : x.stored = none) :
    Keeps (otpCalls env) x (changePassword env.toEnv email newPassword) (Issued env x)
      fun y => y.shown = none := by
  refine Keeps.bind (Q := fun r y => y.shown = none ∧ ∀ a, r = some a → y = { x with account := some a })
    (keeps_otp ⟨hx, trivial⟩ fun r => ?_) fun row y hy => ?_
  · rcases r with e | _ | a
    · exact hx
    · refine ⟨hx, ?_⟩
      rintro _ ⟨⟩
    · refine ⟨hx, ?_⟩
      rintro _ ⟨⟩
      rfl
  · cases row with
    | none => exact Keeps.throw hy.1
    | some user =>
      cases hy.2 user rfl
      dsimp only
      split
      · exact Keeps.throw hx
      · rename_i hact
        refine Keeps.after (still_otp ⟨hx, trivial⟩ fun _ => rfl) (fun passwordHash => ?_) hx
        refine Keeps.bind (Q := fun r y => y.shown = none ∧
          ∀ name, r = some name → y = { x with account := some (relabel name user) })
          (keeps_otp ⟨hx, user, rfl, rfl⟩ fun r => ?_) fun row y hy => ?_
        · rcases r with e | _ | name
          · exact hx
          · refine ⟨hx, ?_⟩
            rintro _ ⟨⟩
          · refine ⟨hx, ?_⟩
            rintro _ ⟨⟩
            rfl
        · cases row with
          | none => exact Keeps.throw hy.1
          | some name =>
            cases hy.2 name rfl
            refine Keeps.bind (otpTokens_keeps hx hs) fun tokens y hy => ?_
            obtain ⟨jti, rfl, ht⟩ := hy
            exact Keeps.pure ⟨_, jti, tokens, rfl, not_not.mp hact, ht _ rfl, rfl, rfl⟩

/-- The OTP flows. -/
theorem otpRequest_keeps {req : Auth.Request} :
    Keeps (otpCalls env) (Seen.start (.otp req)) (req.code env.toEnv)
      (fun body y => ends env (.ok (.response body)) y) fun _ => True := by
  cases req with
  | startVerification email purpose userId => exact Plain.ends (sendOtp_plain rfl) trivial
  | checkVerification email code purpose =>
    refine Plain.ends (Plain.after (checkVerification_still rfl) fun id => ?_) trivial
    exact Keeps.pure ⟨rfl, rfl, rfl⟩
  | requestRegistrationOtp dto => exact Plain.ends (requestRegistrationOtp_plain rfl) trivial
  | resendRegistrationOtp email => exact Plain.ends (resendRegistrationOtp_plain rfl) trivial
  | requestPasswordResetOtp email => exact Plain.ends (requestPasswordResetOtp_plain rfl) trivial
  | verifyRegistrationOtp email otp =>
    refine Keeps.after (checkVerification_still rfl) (fun _ => ?_) trivial
    refine otpTransaction_keeps rfl (registerPending_keeps rfl rfl) fun body y hy => ?_
    refine hy.ends rfl ?_
    obtain ⟨a, jti, tokens, rfl, -⟩ := hy
    trivial
  | resetPassword dto =>
    simp only [Auth.Request.code, Auth.resetPassword]
    split
    · exact Keeps.throw trivial
    refine Keeps.after (checkVerification_still rfl) (fun _ => ?_) trivial
    refine otpTransaction_keeps rfl (changePassword_keeps rfl rfl) fun body y hy => ?_
    refine hy.ends rfl ?_
    obtain ⟨a, jti, tokens, rfl, -⟩ := hy
    trivial
  | purgeExpiredOtps =>
    refine Keeps.bind (purgeExpiredOtps_keeps rfl) fun _ y hy => ?_
    subst hy
    exact Keeps.pure (ends_bare ⟨rfl, rfl⟩ trivial)

end Otp

/-- Every call keeps to the protocol, and ends with what it may. -/
theorem request_keeps (req : Request) :
    Follows (calls env) (ends env) (req.code env).run (Seen.start req) := by
  cases req with
  | otp req => exact ends_call (ofOtp_keeps otpRequest_keeps)
  | login email password => exact ends_call login_keeps
  | refresh token => exact ends_call refresh_keeps
  | logout token => exact ends_call logout_keeps
  | authenticate token => exact ends_call authenticate_keeps
  | promoteAdmin adminId userId => exact ends_call (Plain.ends (promoteAdmin_plain rfl) trivial)
  | demoteAdmin adminId userId => exact ends_call (Plain.ends (demoteAdmin_plain rfl) trivial)
  | updateUserStatus adminId userId status => exact ends_call (Plain.ends (updateUserStatus_plain rfl) trivial)
  | deleteUser adminId userId => exact ends_call (Plain.ends (deleteUser_plain rfl) trivial)
  | deleteMe userId => exact ends_call (Plain.ends (deleteMe_plain rfl) trivial)

end Kayan.Sessions
