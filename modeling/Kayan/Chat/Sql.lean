import Kayan.Reads.Schema
import Kayan.Sessions.Gateway

/-!
# The store behind the chats

The tables of both chats, the sockets of the `/chat` namespace with their rooms, and the registry
of `ChatSocketRegistryService`. No statement belongs to a transaction: each one takes effect at
once. What a handler does between two of its awaits is one statement as well.
-/
namespace Kayan.Chat
open Reads (ItemType)
open Sessions (JwtPayload Handshake)

abbrev Client := Nat

structure User where
  id : Nat
  isAdmin : Bool := false
  deleted : Bool := false
  status : Auth.UserStatus := .active

inductive ProductStatus where
  | available
  | sold
  | archived
  deriving DecidableEq

structure Product where
  id : Nat
  ownerId : Nat
  status : ProductStatus := .available
  deleted : Bool := false

structure Conversation where
  id : Nat
  userAId : Nat
  userBId : Nat
  productId : Option Nat := none
  lastMessageId : Option Nat := none
  createdAt : Nat

structure Message where
  id : Nat
  conversationId : Nat
  senderId : Nat
  text : String
  sentAt : Nat
  readAt : Option Nat := none

structure FollowupConversation where
  id : Nat
  itemType : ItemType
  itemId : Nat
  userId : Nat
  adminId : Nat
  createdAt : Nat

structure FollowupMessage where
  id : Nat
  conversationId : Nat
  senderId : Nat
  text : String
  sentAt : Nat
  deriving DecidableEq

/-- Rows with ids of an identity column, in the order of their insertion. -/
structure Rows (V : Type) where
  rows : List V := []
  next : Nat := 1

inductive Phase where
  | unborn
  | opened
  | closed
  deriving DecidableEq

/-- A socket: `client.data.user.sub`, and the rooms that it is in. -/
structure Socket where
  phase : Phase := .unborn
  user : Option Nat := none
  rooms : List String := []

/-- The store. A socket is named by the client that opens it. -/
structure Db where
  clock : Nat
  users : List User
  products : List Product
  /-- The `user_id` of orders, faults and services. -/
  owners : ItemType → Nat → Option Nat
  conversations : Rows Conversation
  messages : Rows Message
  followups : Rows FollowupConversation
  followupMessages : Rows FollowupMessage
  sockets : Client → Socket
  /-- `socketsByUserId`. -/
  registry : Nat → Option (List Client)

/-- What the code runs with: `jwtService.verifyAsync` at a time, `Date.prototype.toISOString`,
whether `join` still adds a socket that has closed, and a bound on the rounds of an iteration. -/
structure Env where
  jwtAccessSecret : String
  verifyAsync : String → String → Nat → Option JwtPayload
  iso : Nat → String
  lateJoin : Bool
  rounds : Nat

inductive Stmt where
  | verifyAsync (token secret : String)
  | selectUserExists (userId : Nat)
  | selectProduct (productId : Nat)
  | selectPair (userAId userBId : Nat)
  | updateProduct (productId conversationId : Nat)
  | insertConversation (userAId userBId : Nat) (productId : Option Nat)
  | selectParticipants (conversationId : Nat)
  | selectConversation (userId conversationId : Nat)
  | insertMessage (conversationId senderId : Nat) (text : String)
  | updateLastMessage (messageId conversationId : Nat)
  | selectMessage (messageId : Nat)
  | updateRead (messageId : Nat)
  | selectOwner (itemType : ItemType) (itemId : Nat)
  | selectAnyAdmin
  | selectActiveAdmin (userId : Nat)
  | upsertFollowup (itemType : ItemType) (itemId userId adminId : Nat)
  | selectFollowupAccess (conversationId : Nat)
  | selectFollowupScope (conversationId : Nat) (itemType : ItemType) (itemId : Nat)
  | selectFollowupMessages (conversationId : Nat)
  | insertFollowupMessage (conversationId senderId : Nat) (text : String)
  /-- The connection event of the client's own socket. -/
  | openSocket
  /-- `client.data.user = ...` and `registerUserSocket`, for the client's own socket. -/
  | register (sub : Nat)
  /-- `client.disconnect(true)`, for the client's own socket. -/
  | kick
  /-- The disconnect event of a socket, with `handleDisconnect`. -/
  | disconnect (socket : Client)
  /-- An event of a socket arrives. -/
  | deliver (socket : Client)
  /-- `client.data.user`. -/
  | getUser (socket : Client)
  | join (socket : Client) (room : String)
  | emit (room event : String)
  /-- The next socket in the iteration over `socketsByUserId.get(userId)`. The code looks the set up
  once: where its last socket leaves and another socket of the user comes, the code's iteration ends
  and this one goes on. -/
  | nextSocket (userId : Nat) (visited : List Client)

/-- What `getConversationById` reads of a conversation. -/
structure ConversationView where
  conversation : Conversation
  lastMessage : Option Message
  peerUserId : Nat
  unreadCount : Nat

/-- The rows that a statement returns. A `BIGINT` arrives as text. -/
def Reply : Stmt → Type
  | .verifyAsync _ _ => Option JwtPayload
  | .selectUserExists _ => Bool
  | .selectProduct _ => Option (Payload × ProductStatus)
  | .selectPair _ _ => Option (Nat × Option Nat)
  | .insertConversation _ _ _ => Nat
  | .selectParticipants _ => Option (Payload × Payload)
  | .selectConversation _ _ => Option ConversationView
  | .insertMessage _ _ _ => Message
  | .selectMessage _ => Option Message
  | .updateRead _ => Option Message
  | .selectOwner _ _ => Option Nat
  | .selectAnyAdmin => Option Nat
  | .selectActiveAdmin _ => Bool
  | .upsertFollowup _ _ _ _ => FollowupConversation
  | .selectFollowupAccess _ => Option (Nat × Nat)
  | .selectFollowupScope _ _ _ => Bool
  | .selectFollowupMessages _ => List FollowupMessage
  | .insertFollowupMessage _ _ _ => FollowupMessage
  | .getUser _ => Option Nat
  | .nextSocket _ _ => Option Client
  | _ => Unit

/-- The reply of a statement: its rows, or the error it raised. -/
abbrev Answer (q : Stmt) : Type := Except PgError (Reply q)

/-- A `BIGINT` value of the driver. -/
def bigint (n : Nat) : Payload := .str (toString n)

/-- `registerUserSocket`. -/
def registerUserSocket (userId : Nat) (socket : Client) (registry : Nat → Option (List Client)) :
    Nat → Option (List Client) :=
  let sockets := (registry userId).getD []
  Function.update registry userId (some (if socket ∈ sockets then sockets else sockets ++ [socket]))

/-- `unregisterUserSocket`. -/
def unregisterUserSocket (userId : Nat) (socket : Client) (registry : Nat → Option (List Client)) :
    Nat → Option (List Client) :=
  match registry userId with
  | none => registry
  | some sockets =>
    let rest := sockets.filter (· ≠ socket)
    Function.update registry userId (if rest = [] then none else some rest)

/-- A socket closes: it leaves its rooms, and `handleDisconnect` runs. -/
def closeSocket (k : Client) (d : Db) : Db :=
  { d with
    sockets := Function.update d.sockets k { d.sockets k with phase := .closed, rooms := [] }
    registry := match (d.sockets k).user with
      | some sub => if sub = 0 then d.registry else unregisterUserSocket sub k d.registry
      | none => d.registry }

/-- `client.join(room)`. -/
def joinRoom (env : Env) (k : Client) (room : String) (d : Db) : Db :=
  if (d.sockets k).phase = .opened ∨ env.lateJoin = true then
    { d with sockets := Function.update d.sockets k { d.sockets k with rooms := room :: (d.sockets k).rooms } }
  else d

section Tables
variable (d : Db)

def Db.conversation (id : Nat) : Option Conversation := d.conversations.rows.find? (·.id = id)

def Db.pair (userAId userBId : Nat) : Option Conversation :=
  d.conversations.rows.find? fun r => r.userAId = userAId ∧ r.userBId = userBId

def Db.message (id : Nat) : Option Message := d.messages.rows.find? (·.id = id)

def Db.liveUser (id : Nat) : Bool := d.users.any fun r => r.id = id ∧ r.deleted = false

def Db.updateConversation (id : Nat) (f : Conversation → Conversation) : Db :=
  { d with conversations := { d.conversations with
      rows := d.conversations.rows.map fun r => if r.id = id then f r else r } }

/-- The row of `getConversationById`: the peer has to be a row of `users`. -/
def Db.conversationView (userId id : Nat) : Option ConversationView :=
  match d.conversation id with
  | none => none
  | some r =>
    let peer := if r.userAId = userId then r.userBId else r.userAId
    if d.users.any (·.id = peer) then
      some ⟨r, r.lastMessageId.bind d.message, peer,
        d.messages.rows.countP fun m => m.conversationId = id ∧ m.senderId ≠ userId ∧ m.readAt.isNone⟩
    else none

end Tables

/-- `LENGTH(BTRIM(message_text)) > 0`: `BTRIM` trims blanks only. -/
def blank (text : String) : Bool := text.toList.all (· = ' ')

/-- What a statement of client `c` does, and its reply; `none` while it has to wait. -/
def exec (env : Env) (c : Client) : (q : Stmt) → Db → Option (Answer q × Db)
  | .verifyAsync token secret, d => some (.ok (env.verifyAsync token secret d.clock), d)
  | .selectUserExists userId, d => some (.ok (d.liveUser userId), d)
  | .selectProduct productId, d =>
    some (.ok ((d.products.find? fun r => r.id = productId ∧ r.deleted = false).map fun r =>
      (bigint r.ownerId, r.status)), d)
  | .selectPair userAId userBId, d => some (.ok ((d.pair userAId userBId).map fun r => (r.id, r.productId)), d)
  | .updateProduct productId conversationId, d =>
    some (.ok (), d.updateConversation conversationId fun r => { r with productId := some productId })
  | .insertConversation userAId userBId productId, d =>
    -- the sequence goes on whether or not the row is inserted
    let failed := { d with conversations := { d.conversations with next := d.conversations.next + 1 } }
    if userBId ≤ userAId then some (.error .checkViolation, failed)
    else if (d.pair userAId userBId).isSome then some (.error .uniqueViolation, failed)
    else if !(d.users.any (·.id = userAId) && d.users.any (·.id = userBId) &&
        productId.all fun p => d.products.any (·.id = p)) then some (.error .foreignKeyViolation, failed)
    else
      let row : Conversation := { id := d.conversations.next, userAId, userBId, productId, createdAt := d.clock }
      some (.ok row.id, { d with conversations := ⟨d.conversations.rows ++ [row], d.conversations.next + 1⟩ })
  | .selectParticipants conversationId, d =>
    some (.ok ((d.conversation conversationId).map fun r => (bigint r.userAId, bigint r.userBId)), d)
  | .selectConversation userId conversationId, d => some (.ok (d.conversationView userId conversationId), d)
  | .insertMessage conversationId senderId text, d =>
    let failed := { d with messages := { d.messages with next := d.messages.next + 1 } }
    if blank text then some (.error .checkViolation, failed)
    else if !((d.conversation conversationId).isSome && d.users.any (·.id = senderId)) then
      some (.error .foreignKeyViolation, failed)
    else
      let row : Message := { id := d.messages.next, conversationId, senderId, text, sentAt := d.clock }
      some (.ok row, { d with messages := ⟨d.messages.rows ++ [row], d.messages.next + 1⟩ })
  | .updateLastMessage messageId conversationId, d =>
    some (.ok (), d.updateConversation conversationId fun r => { r with lastMessageId := some messageId })
  | .selectMessage messageId, d => some (.ok (d.message messageId), d)
  | .updateRead messageId, d =>
    let read := fun r : Message => { r with readAt := r.readAt.or (some d.clock) }
    some (.ok ((d.message messageId).map read),
      { d with messages := { d.messages with
          rows := d.messages.rows.map fun r => if r.id = messageId then read r else r } })
  | .selectOwner itemType itemId, d => some (.ok (d.owners itemType itemId), d)
  | .selectAnyAdmin, d =>
    some (.ok ((d.users.filter fun r => r.isAdmin ∧ r.deleted = false).map (·.id)).min?, d)
  | .selectActiveAdmin userId, d =>
    some (.ok (d.users.any fun r => r.id = userId ∧ r.isAdmin ∧ r.deleted = false), d)
  | .upsertFollowup itemType itemId userId adminId, d =>
    match d.followups.rows.find? fun r => r.itemType = itemType ∧ r.itemId = itemId ∧ r.userId = userId with
    | some row =>
      let row : FollowupConversation := { row with adminId }
      some (.ok row, { d with followups := ⟨d.followups.rows.map (fun r => if r.id = row.id then row else r),
        d.followups.next + 1⟩ })
    | none =>
      let row : FollowupConversation := { id := d.followups.next, itemType, itemId, userId, adminId, createdAt := d.clock }
      some (.ok row, { d with followups := ⟨d.followups.rows ++ [row], d.followups.next + 1⟩ })
  | .selectFollowupAccess conversationId, d =>
    some (.ok ((d.followups.rows.find? (·.id = conversationId)).map fun r => (r.userId, r.adminId)), d)
  | .selectFollowupScope conversationId itemType itemId, d =>
    some (.ok (d.followups.rows.any fun r => r.id = conversationId ∧ r.itemType = itemType ∧ r.itemId = itemId), d)
  | .selectFollowupMessages conversationId, d =>
    some (.ok (d.followupMessages.rows.filter (·.conversationId = conversationId)), d)
  | .insertFollowupMessage conversationId senderId text, d =>
    let failed := { d with followupMessages := { d.followupMessages with next := d.followupMessages.next + 1 } }
    if blank text then some (.error .checkViolation, failed)
    else if !(d.followups.rows.any (·.id = conversationId) && d.users.any (·.id = senderId)) then
      some (.error .foreignKeyViolation, failed)
    else
      let row : FollowupMessage := { id := d.followupMessages.next, conversationId, senderId, text, sentAt := d.clock }
      some (.ok row, { d with followupMessages := ⟨d.followupMessages.rows ++ [row], d.followupMessages.next + 1⟩ })
  | .openSocket, d =>
    if (d.sockets c).phase = .unborn then
      some (.ok (), { d with sockets := Function.update d.sockets c { d.sockets c with phase := .opened } })
    else none
  | .register sub, d =>
    some (.ok (), { d with
      sockets := Function.update d.sockets c { d.sockets c with user := some sub }
      registry := registerUserSocket sub c d.registry })
  | .kick, d => some (.ok (), if (d.sockets c).phase = .opened then closeSocket c d else d)
  | .disconnect socket, d =>
    if (d.sockets socket).phase = .opened then some (.ok (), closeSocket socket d) else none
  | .deliver socket, d =>
    if (d.sockets socket).phase = .opened then some (.ok (), d) else none
  | .getUser socket, d => some (.ok (d.sockets socket).user, d)
  | .join socket room, d => some (.ok (), joinRoom env socket room d)
  | .emit _ _, d => some (.ok (), d)
  | .nextSocket userId visited, d =>
    some (.ok (((d.registry userId).getD []).find? (· ∉ visited)), d)

/-- The statements that cannot fail: they only touch the memory of the server. -/
def Stmt.inMemory : Stmt → Bool
  | .openSocket | .register _ | .kick | .disconnect _ | .deliver _ | .getUser _ | .join _ _ | .emit _ _
  | .nextSocket _ _ => true
  | _ => false

/-- What resolves a statement: it runs after a wait, or it fails. -/
inductive Move where
  | run (wait : Nat)
  | fail (e : PgError)

/-- What the store does for a statement; one that fails changes nothing. -/
def act (env : Env) (m : Move) (c : Client) (q : Stmt) (d : Db) : Option (Answer q × Db) :=
  match m with
  | .run wait => exec env c q { d with clock := d.clock + wait }
  | .fail e => if q.inMemory then none else some (.error e, d)

end Kayan.Chat
