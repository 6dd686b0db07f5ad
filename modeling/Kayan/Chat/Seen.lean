import Kayan.Chat.Service
import Kayan.Lib.Monitor

/-!
# What a chat call has seen

The notes beside a call, and what they permit: a socket may join a room once the notes show that
its user takes part in the conversation.
-/
namespace Kayan.Chat
open Interleave
open Sessions (JwtPayload extractToken normalizedSub toPositiveInt)

namespace Stmt

/-- The own socket is open. -/
def opens : (q : Stmt) → Answer q → Bool
  | .openSocket, .ok _ => true
  | _, _ => false

/-- A token that was found valid, with its payload. -/
def verified : (q : Stmt) → Answer q → Option (String × JwtPayload)
  | .verifyAsync token _, .ok (some payload) => some (token, payload)
  | _, _ => none

/-- The user that the own socket is registered under. -/
def registered : (q : Stmt) → Answer q → Option Nat
  | .register sub, .ok _ => some sub
  | _, _ => none

/-- The user of a socket. -/
def user : (q : Stmt) → Answer q → Option (Client × Nat)
  | .getUser socket, .ok user => (user : Option Nat).map fun sub => (socket, sub)
  | .nextSocket userId _, .ok socket => (socket : Option Client).map fun k => (k, userId)
  | _, _ => none

/-- The participants of a conversation, as they arrive. -/
def row : (q : Stmt) → Answer q → Option (Nat × Payload × Payload)
  | .selectParticipants id, .ok row => (row : Option (Payload × Payload)).map fun r => (id, r)
  | _, _ => none

/-- A message and its conversation. -/
def read : (q : Stmt) → Answer q → List (Nat × Nat)
  | .selectMessage id, .ok row => ((row : Option Message).map fun m => (id, m.conversationId)).toList
  | .updateRead id, .ok row => ((row : Option Message).map fun m => (id, m.conversationId)).toList
  | _, _ => []

/-- The message whose conversation is still to point at it, where the statement decides that. -/
def due : (q : Stmt) → Answer q → Option (Option (Nat × Nat))
  | .insertMessage conversationId _ _, .ok m => some (some ((m : Message).id, conversationId))
  | .updateLastMessage _ _, _ => some none
  | _, _ => none

end Stmt

/-- What a call has seen. -/
structure Seen where
  req : Request
  opened : Bool := false
  verified : Option (String × JwtPayload) := none
  registered : Option Nat := none
  users : List (Client × Nat) := []
  row : Option (Nat × Payload × Payload) := none
  read : List (Nat × Nat) := []
  due : Option (Nat × Nat) := none

namespace Seen

/-- What the reply of a statement adds. -/
def after (x : Seen) (q : Stmt) (r : Answer q) : Seen where
  req := x.req
  opened := q.opens r || x.opened
  verified := (q.verified r).or x.verified
  registered := (q.registered r).or x.registered
  users := (q.user r).toList ++ x.users
  row := (q.row r).or x.row
  read := q.read r ++ x.read
  due := (q.due r).getD x.due

/-- The last conversation that was looked up has this participant. -/
def participant (x : Seen) (conversationId userId : Nat) : Prop :=
  ∃ a b, x.row = some (conversationId, a, b) ∧
    (toPositiveInt (some a) = some userId ∨ toPositiveInt (some b) = some userId)

/-- The two ids are one, or those that a message was read with. -/
def same (x : Seen) (id conversationId : Nat) : Prop :=
  id = conversationId ∨ ∃ m, (m, id) ∈ x.read ∧ (m, conversationId) ∈ x.read

/-- Which statements a call may issue. -/
def may (env : Env) (x : Seen) (q : Stmt) : Prop :=
  match q with
  | .verifyAsync token secret => ∃ h, x.req = .connect h ∧ extractToken h = some token ∧ secret = env.jwtAccessSecret
  | .register sub => x.opened = true ∧ x.registered = none ∧ ∃ v, x.verified = some v ∧ normalizedSub v.2 = some sub
  | .join k room => ∃ id conversationId userId, room = roomName (toString id) ∧ x.same id conversationId ∧
      x.participant conversationId userId ∧ (k, userId) ∈ x.users
  | .insertMessage _ _ _ => x.due = none
  | .updateLastMessage m conversationId => x.due = some (m, conversationId)
  | .insertFollowupMessage _ _ _ => ∃ userId conversationId text scope,
    x.req = .sendFollowup userId conversationId text scope
  | _ => True

end Seen

/-- The protocol of the calls. -/
abbrev calls (env : Env) : Protocol Stmt Answer Seen := monitored (Seen.may env) Seen.after

/-- A call ends with no message left to point at. -/
def ends (_ : Except Failure Payload) (x : Seen) : Prop := x.due = none

/-- The notes of a call before its first statement. -/
def Seen.start (req : Request) : Seen := { req }

end Kayan.Chat
