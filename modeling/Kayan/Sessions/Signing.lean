import Kayan.Auth.Otp
import Kayan.Lib.Netstrings
import Kayan.Sessions.Tokens

/-!
# A signing that can be run

Tokens as netstrings: the payload, the secret and the time of expiry. Who does not know the
secret could forge one, but the runs below only present tokens that were issued.
-/
namespace Kayan.Sessions
open Interleave Auth Netstrings RowStore

/-- What a token holds. -/
structure Signed where
  payload : TokenPayload
  secret : String
  expiresAt : Nat

/-- Absent text is empty, and present text has a mark before it. -/
def optional : Option String → List Char
  | none => []
  | some s => '+' :: s.toList

def ofOptional : List Char → Option String
  | [] => none
  | _ :: cs => some (String.ofList cs)

def Signed.texts (x : Signed) : List (List Char) :=
  [x.secret.toList, Nat.toDigits 10 x.expiresAt, Nat.toDigits 10 x.payload.sub, optional x.payload.email,
   if x.payload.isAdmin then ['1'] else [], Nat.toDigits 10 x.payload.tokenVersion, optional x.payload.jti]

def Signed.token (x : Signed) : String := String.ofList (x.texts.flatMap net)

def readToken (token : String) : Option Signed :=
  match readNets 7 token.toList with
  | some [secret, expiresAt, sub, email, isAdmin, tokenVersion, jti] =>
    some ⟨⟨Nat.ofDigitChars 10 sub 0, ofOptional email, isAdmin = ['1'], Nat.ofDigitChars 10 tokenVersion 0,
      ofOptional jti⟩, String.ofList secret, Nat.ofDigitChars 10 expiresAt 0⟩
  | _ => none

theorem ofOptional_optional {s : Option String} : ofOptional (optional s) = s := by
  cases s with
  | none => rfl
  | some s => simp [optional, ofOptional]

/-- A token is read back. -/
theorem readToken_token {x : Signed} : readToken x.token = some x := by
  have hread : readNets 7 x.token.toList = some x.texts := by
    rw [Signed.token, String.toList_ofList]
    exact @readNets_nets x.texts
  simp only [readToken, hread, Signed.texts, ofOptional_optional, Nat.ofDigitChars_ten_toDigits,
    String.ofList_toList]
  cases hb : x.payload.isAdmin <;> simp [← hb]

/-- The lifetimes that are configured below. -/
def lifetime (ttl : String) : Nat := if ttl = "30 days" then 30 * day else 15 * minute

/-- The library functions, with tokens that can be read. -/
def openEnv (redisEnabled : Bool) : Env where
  toEnv := { Auth.plainEnv with
    config := { Auth.plainEnv.config with jwtRefreshTtl := "30 days" }
    signAsync := fun payload secret ttl now => Signed.token ⟨payload, secret, now + lifetime ttl⟩ }
  redisEnabled
  compare password hash := (password ++ "/").isPrefixOf hash
  verifyAsync token secret now :=
    (readToken token).bind fun x => if x.secret = secret ∧ now < x.expiresAt then some (claims x.payload) else none

theorem verify_openEnv {b : Bool} {p : TokenPayload} {secret ttl secret' : String} {issued now : Nat} :
    (openEnv b).verifyAsync ((openEnv b).signAsync p secret ttl issued) secret' now =
      if secret = secret' ∧ now < issued + lifetime ttl then some (claims p) else none := by
  simp only [openEnv, readToken_token, Option.bind_some]

theorem openEnv_decodes {b : Bool} : Decodes (openEnv b) := by
  intro p secret ttl issued secret' now payload h
  rw [verify_openEnv] at h
  split at h
  · exact (Option.some.inj h).symm
  · cases h

instance {r : Result} {token : String} : Decidable (r.bears token) := inferInstanceAs (Decidable (_ ∨ _))

/-- The token was returned by one of the first `n` calls. -/
def outBy (n : Nat) (s : State) (token : String) : Bool :=
  (List.range n).any fun b =>
    match s.prog b with
    | .ret (.ok r) => r.bears token
    | _ => false

/-- A token that is found valid is out. -/
def genuineBy (n : Nat) (s : State) (e : Taken) : Bool :=
  match e.stmt.verified e.reply with
  | some v => outBy n s v.1
  | none => true

theorem outBy_out {n : Nat} {s : State} {token : String} (h : outBy n s token = true) :
    ∃ b r, s.prog b = .ret (.ok r) ∧ r.bears token := by
  obtain ⟨b, -, hb⟩ := List.any_eq_true.mp h
  split at hb
  · rename_i r hr
    exact ⟨b, r, hr, of_decide_eq_true hb⟩
  · cases hb

theorem genuineBy_genuine {n : Nat} {s : State} {e : Taken} (h : genuineBy n s e = true) : Genuine s e := by
  intro v hv
  simp only [genuineBy, hv] at h
  exact outBy_out h

/-- An admin and another user. -/
def omar : User :=
  { id := 0, name := "Omar", phone := none, email := some "omar@shop.eg", address := none,
    passwordHash := "Secret123/", isAdmin := true }

def mona : User :=
  { id := 1, name := "Mona", phone := none, email := some "mona@shop.eg", address := none,
    passwordHash := "Secret123/" }

/-- A store with these users and nothing else. -/
def shop : Db := ⟨accounts [omar, mona], fun _ => none, []⟩

theorem shop_starting : Starting shop where
  keyed i r hr := by
    match i with
    | 0 | 1 =>
      cases hr
      rfl
    | _ + 2 => cases hr
  idle _ _ := rfl
  unissued _ := rfl
  unsaved := rfl

/-- The tokens of a user, signed at time 0. -/
def accessOf (user : User) : String :=
  (openEnv false).signAsync (payloadOf (accountOf user) none) "access" "15m" 0

def refreshOf (user : User) (jti : String) : String :=
  (openEnv false).signAsync (payloadOf (accountOf user) (some jti)) "refresh" "30 days" 0

/-- Plays the turns where no token is forged. -/
def playGenuine (redisEnabled : Bool) (req : Client → Request) (l : List (Client × Nat)) : Option State :=
  replay (act (openEnv redisEnabled)) (genuineBy 8) (turns l) (initial (openEnv redisEnabled) req shop)

theorem playGenuine_last {b : Bool} {req : Client → Request} {l : List (Client × Nat)} {c : Client} {β : Type}
    {f : State → β} {y : β} (h : (playGenuine b req (l ++ [(c, 1)])).map f = some y) :
    ∃ xs s e t, Trace.Run (Honest (openEnv b)) (initial (openEnv b) req shop) xs s ∧ Honest (openEnv b) s e t ∧
      e.client = c ∧ f t = y := by
  have hturns : turns (l ++ [(c, 1)]) = turns l ++ [(c, .run 0 0)] := by simp [turns]
  rw [playGenuine, hturns] at h
  obtain ⟨xs, s, e, t, hr, hs, hok, hc, ht⟩ := replay_last h
  exact ⟨xs, s, e, t, hr.mono fun _ _ _ h => ⟨h.1, genuineBy_genuine h.2⟩, ⟨hs, genuineBy_genuine hok⟩, hc, ht⟩

/-- The user that a call has got. -/
def userOf (c : Client) (t : State) : Option AuthUser :=
  match t.prog c with
  | .ret (.ok (.user u)) => some u
  | _ => none

theorem userOf_some {c : Client} {t : State} {u : AuthUser} (h : userOf c t = some u) :
    t.prog c = .ret (.ok (.user u)) := by
  unfold userOf at h
  split at h
  · rename_i hp
    cases h
    exact hp
  · cases h

end Kayan.Sessions
