import Kayan.Sessions.Admins

/-!
# Authentication over HTTP and over WebSockets

`ChatGateway.handleConnection` beside `JwtStrategy.validate`, at one moment. The gateway never
reads the user: it takes every payload whose `sub` is a positive integer by `Number`.
-/
namespace Kayan.Sessions
open Interleave Auth RowStore

section Gateway
variable (env : Env)

/-- What a connecting socket sends: `handshake.auth.token` and the `Authorization` header. -/
structure Handshake where
  authToken : Option Payload
  authorization : Option String

/-- `replace(/^Bearer\s+/i, '')`. -/
def stripBearer (header : String) : String :=
  let rest := header.toList.drop 6
  if (header.toList.take 6).map Char.toLower = "bearer".toList ∧ rest.head?.any isSpace then
    String.ofList (rest.dropWhile isSpace)
  else header

def extractToken (client : Handshake) : Option String :=
  match client.authToken, client.authorization with
  | some (.str token), header =>
    if token ≠ "" then some (stripBearer token)
    else (header.filter fun h => h ≠ "").map stripBearer
  | _, header => (header.filter fun h => h ≠ "").map stripBearer

/-- An open connection: `client.data.user`, and the user id that its socket is registered under. -/
structure Connection where
  user : Fields
  userId : Nat

/-- `Number(payload.sub)`; a missing `sub` yields `NaN`. -/
def normalizedSub (payload : JwtPayload) : Option Nat :=
  ((Fields.get "sub" payload).bind number).bind positiveInteger

def connect (client : Handshake) : Code Connection :=
  match extractToken client with
  | none => throw (.error "Missing token")
  | some token => do
    let payload ← verifyToken token env.config.jwtAccessSecret "Invalid token"
    match normalizedSub payload with
    | none => throw (.error "Invalid token subject")
    | some sub => pure ⟨Fields.put "sub" (.num sub) payload, sub⟩

/-- A connection that fails for whatever reason is closed. -/
def handleConnection (client : Handshake) : Prog Stmt Answer (Option Connection) := do
  let result ← (connect env client).run
  match result with
  | .ok connection => pure (some connection)
  | .error _ => pure none

end Gateway

section Verdicts
variable {env : Env} {c : Client} {d : Db} {payload : JwtPayload} {token : String} {n : Nat}

/-- The user whose row admits the payload: it is there, is not deleted and has its version. -/
def holder (payload : JwtPayload) (users : Table Client User) : Option Nat :=
  (toPositiveInt (Fields.get "sub" payload)).filter fun n =>
    (liveUser n users).any fun row => hasVersion row.tokenVersion payload

/-- The user that an HTTP request with the token gets now, if it is accepted. -/
def admitted (env : Env) (c : Client) (token : String) (d : Db) : Option Nat :=
  match (authenticate env token).run.alone (act env (.run 0 0) c) d with
  | some (.ok user, _) => some user.sub
  | _ => none

/-- The user that a connection is opened for now, if it is accepted. -/
def connected (env : Env) (c : Client) (client : Handshake) (d : Db) : Option Nat :=
  match (handleConnection env client).alone (act env (.run 0 0) c) d with
  | some (some connection, _) => some connection.userId
  | _ => none

/-- A statement that replies at once. -/
theorem query_alone {q : Stmt} {r : Reply q} {β : Type} {f : Reply q → Code β}
    (h : act env (.run 0 0) c q d = some (.ok r, d)) :
    (query q >>= f).run.alone (act env (.run 0 0) c) d = (f r).run.alone (act env (.run 0 0) c) d := by
  change (act env (.run 0 0) c q d).bind _ = _
  rw [h]
  rfl

/-- A token that is valid now is found valid. -/
theorem verifyToken_alone {secret message : String} {β : Type} {f : JwtPayload → Code β}
    (hv : env.verifyAsync token secret d.auth.clock = some payload) :
    (verifyToken token secret message >>= f).run.alone (act env (.run 0 0) c) d =
      (f payload).run.alone (act env (.run 0 0) c) d := by
  have hact : act env (.run 0 0) c (.verifyAsync token secret) d = some (.ok (some payload), d) := by
    rw [← hv]
    rfl
  change (act env (.run 0 0) c (.verifyAsync token secret) d).bind _ = _
  rw [hact]
  rfl

theorem hasVersion_not_num (h : ∀ v, Fields.get "tokenVersion" payload ≠ some (.num v)) :
    hasVersion n payload = false := by
  unfold hasVersion
  split
  · rename_i v hv
    exact absurd hv (h v)
  · rfl

/-- What `validate` reads of a user. -/
theorem act_selectTokenVersion : act env (.run 0 0) c (.selectTokenVersion n) d =
    some (.ok ((liveUser n d.auth.users).map fun r => ⟨r.id, r.email, r.tokenVersion⟩), d) := rfl

/-- `validate` on its own: it gets the holder of the payload, or throws. -/
theorem validate_alone : ∃ r, (validate payload).run.alone (act env (.run 0 0) c) d = some (r, d) ∧
    (match r with | .ok user => some user.sub | .error _ => none) = holder payload d.auth.users := by
  unfold validate holder
  split
  · rcases hsub : toPositiveInt (Fields.get "sub" payload) with _ | n
    · exact ⟨_, rfl, rfl⟩
    · have hact := @act_selectTokenVersion env c d n
      rcases hl : liveUser n d.auth.users with _ | row
      · rw [hl] at hact
        exact ⟨_, query_alone hact, by simp [Option.filter, hl]⟩
      · rw [hl] at hact
        rcases hv : hasVersion row.tokenVersion payload with _ | _
        · refine ⟨.error (.unauthorized "Token is stale"), (query_alone hact).trans ?_,
            by simp [Option.filter, hl, hv]⟩
          dsimp only [Option.map]
          rw [hv]
          rfl
        · refine ⟨.ok ⟨n, row.email, Fields.get "isAdmin" payload, row.tokenVersion⟩,
            (query_alone hact).trans ?_, by simp [Option.filter, hl, hv]⟩
          dsimp only [Option.map]
          rw [hv]
          rfl
  · rename_i hne
    refine ⟨_, rfl, ?_⟩
    cases toPositiveInt (Fields.get "sub" payload) <;> simp [Option.filter, hasVersion_not_num hne]

theorem admitted_eq (hv : env.verifyAsync token env.config.jwtAccessSecret d.auth.clock = some payload) :
    admitted env c token d = holder payload d.auth.users := by
  obtain ⟨r, hr, hh⟩ := @validate_alone env c d payload
  have hrun : (authenticate env token).run.alone (act env (.run 0 0) c) d = some (r, d) :=
    (verifyToken_alone hv).trans hr
  rw [admitted, hrun, ← hh]
  cases r <;> rfl

/-- A connection gets the number that its `sub` is, and no row is read. -/
theorem connected_eq {client : Handshake} (ht : extractToken client = some token)
    (hv : env.verifyAsync token env.config.jwtAccessSecret d.auth.clock = some payload) :
    connected env c client d = normalizedSub payload := by
  have hconnect : ∃ r, (connect env client).run.alone (act env (.run 0 0) c) d = some (r, d) ∧
      (match r with | .ok connection => some connection.userId | .error _ => none) = normalizedSub payload := by
    unfold connect
    rw [ht]
    rcases hs : normalizedSub payload with _ | sub
    · refine ⟨.error (.error "Invalid token subject"), (verifyToken_alone hv).trans ?_, rfl⟩
      rw [hs]
      rfl
    · refine ⟨.ok ⟨Fields.put "sub" (.num sub) payload, sub⟩, (verifyToken_alone hv).trans ?_, rfl⟩
      rw [hs]
      rfl
  obtain ⟨r, hr, hsub⟩ := hconnect
  have hrun : (handleConnection env client).alone (act env (.run 0 0) c) d =
      ((connect env client).run.alone (act env (.run 0 0) c) d).bind fun x =>
        (match x.1 with
          | .ok connection => pure (some connection)
          | .error _ => pure none : Prog Stmt Answer (Option Connection)).alone (act env (.run 0 0) c) x.2 :=
    alone_bind _ _
  rw [connected, hrun, hr, ← hsub]
  cases r <;> rfl

theorem hasVersion_iff : hasVersion n payload = true ↔ Fields.get "tokenVersion" payload = some (.num n) := by
  unfold hasVersion
  split
  · rename_i v hv
    rw [hv]
    simp
  · rename_i hne
    refine ⟨nofun, fun h => absurd h (hne _)⟩

/-- `toPositiveInt` takes the numbers and the texts that `Number` makes a positive integer. -/
theorem toPositiveInt_iff {value : Option Payload} : toPositiveInt value = some n ↔
    (value.bind number).bind positiveInteger = some n ∧
      ((∃ q, value = some (.num q)) ∨ ∃ s, value = some (.str s)) := by
  rcases value with _ | v
  · simp [toPositiveInt]
  · cases v with
    | num q => simp [toPositiveInt, number]
    | str s =>
      simp only [toPositiveInt, Option.bind_some, number]
      split
      · rename_i hs
        simp [stringToNumber, hs, positiveInteger]
      · simp
    | _ => simp [toPositiveInt]

theorem holder_iff {users : Table Client User} : holder payload users = some n ↔
    toPositiveInt (Fields.get "sub" payload) = some n ∧ ∃ row, users.committed n = some row ∧
      row.deleted = false ∧ Fields.get "tokenVersion" payload = some (.num row.tokenVersion) := by
  simp only [holder, liveUser, Option.filter_eq_some_iff, Option.any_eq_true, hasVersion_iff, Bool.not_eq_true',
    and_assoc]

end Verdicts

section Fixtures

/-- A socket that connects with Mona's token. -/
def monaSocket : Handshake := ⟨some (.str ("Bearer " ++ accessOf mona)), none⟩

theorem monaSocket_token : extractToken monaSocket = some (accessOf mona) := by decide +kernel

theorem accessOf_valid {b : Bool} {d : Db} (hd : d.auth.clock = 0) :
    (openEnv b).verifyAsync (accessOf mona) (openEnv b).config.jwtAccessSecret d.auth.clock =
      some (claims (payloadOf (accountOf mona) none)) := by
  rw [hd]
  exact verify_openEnv.trans (if_pos ⟨rfl, by decide +kernel⟩)

/-- Mona logs in and deletes her account. -/
def deletion : Client → Request
  | 0 => .login "mona@shop.eg" "Secret123"
  | _ => .deleteMe 1

end Fixtures

end Kayan.Sessions
