import Kayan.Chat.Sql

/-!
# The chats

`ChatService`, `ChatGateway`, the registry's emit, `ChatController.createConversation`, and the
follow-up chat of `KayanService`.
-/
namespace Kayan.Chat
open Interleave
open Reads (ItemType)
open Sessions (JwtPayload Handshake extractToken normalizedSub toPositiveInt)

/-- Code of the services: statements, a result or an exception. -/
abbrev Code (α : Type) := Interleave.Code Stmt Reply PgError Failure α

/-- Awaits one statement; its error is thrown. -/
def query (q : Stmt) : Code (Reply q) := await Failure.database q

section ChatService

def assertConversationParticipant (conversationId userId : Nat) : Code Unit := do
  let conversation : Option (Payload × Payload) ← query (.selectParticipants conversationId)
  match conversation with
  | none => throw (.notFound "Conversation not found")
  | some (userA, userB) =>
    match toPositiveInt (some userA), toPositiveInt (some userB) with
    | some userAId, some userBId =>
      if userAId ≠ userId ∧ userBId ≠ userId then
        throw (.forbidden "Not a participant of this conversation")
      else pure ()
    | _, _ => throw (.notFound "Conversation participants are invalid")

def getConversationParticipants (conversationId : Nat) : Code (Nat × Nat) := do
  let conversation : Option (Payload × Payload) ← query (.selectParticipants conversationId)
  match conversation with
  | none => throw (.notFound "Conversation not found")
  | some (userA, userB) =>
    match toPositiveInt (some userA), toPositiveInt (some userB) with
    | some userAId, some userBId => pure (userAId, userBId)
    | _, _ => throw (.notFound "Conversation participants are invalid")

def optional {α : Type} (f : α → Payload) : Option α → Payload
  | some a => f a
  | none => .null

variable (env : Env)

/-- `normalizeMessageRow`. -/
def messageFields (m : Message) : Fields :=
  [("id", bigint m.id), ("conversation_id", bigint m.conversationId), ("sender_id", bigint m.senderId),
   ("message_text", .str m.text), ("sent_at", .str (env.iso m.sentAt)),
   ("read_at", optional (fun t => .str (env.iso t)) m.readAt)]

/-- `normalizeConversationRow`. -/
def conversationFields (v : ConversationView) : Fields :=
  [("id", bigint v.conversation.id), ("product_id", optional bigint v.conversation.productId),
   ("created_at", .str (env.iso v.conversation.createdAt)),
   ("last_message_id", optional (fun m : Message => bigint m.id) v.lastMessage),
   ("last_message_text", optional (fun m : Message => .str m.text) v.lastMessage),
   ("last_message_sent_at", optional (fun m : Message => .str (env.iso m.sentAt)) v.lastMessage),
   ("peer_user_id", bigint v.peerUserId), ("unread_count", .num v.unreadCount)]

def getConversationById (userId conversationId : Nat) : Code Payload := do
  assertConversationParticipant conversationId userId
  let row : Option ConversationView ← query (.selectConversation userId conversationId)
  match row with
  | none => throw (.notFound "Conversation not found")
  | some v => pure (.obj [("conversation", .obj (conversationFields env v))])

/-- The check of the product that a conversation is about. The owner's id arrives as text, and text
is never `===` a number: a participant who owns the product is not recognised. -/
def validateProduct (productId : Nat) : Code Unit := do
  let product : Option (Payload × ProductStatus) ← query (.selectProduct productId)
  match product with
  | none => throw (.notFound "Product not found")
  | some (_, status) =>
    if status ≠ .available then throw (.forbidden "Product is not available for conversation") else pure ()

/-- The `INSERT` of a conversation: a foreign key violation is answered as not found. -/
def insertConversation (userAId userBId : Nat) (productId : Option Nat) : Code Nat :=
  tryCatch (query (.insertConversation userAId userBId productId)) fun e =>
    if e = .database .foreignKeyViolation then throw (.notFound "Participant or product not found") else throw e

def getOrCreateConversation (userId participantId : Nat) (productId : Option Nat) : Code Payload :=
  if userId = participantId then throw (.badRequest "Cannot start conversation with yourself")
  else do
    let participantExists : Bool ← query (.selectUserExists participantId)
    if !participantExists then throw (.notFound "Participant not found")
    else
      let userAId := if userId < participantId then userId else participantId
      let userBId := if userId < participantId then participantId else userId
      let validatedProductId := productId.filter (· ≠ 0)
      match validatedProductId with
      | some productId => validateProduct productId
      | none => pure ()
      let existing : Option (Nat × Option Nat) ← query (.selectPair userAId userBId)
      match existing with
      | some (id, product) =>
        match validatedProductId, product with
        | some productId, none => query (.updateProduct productId id)
        | _, _ => pure ()
        getConversationById env userId id
      | none =>
        let id ← insertConversation userAId userBId validatedProductId
        getConversationById env userId id

/-- The `INSERT` of a message: a foreign key violation is answered as not found. -/
def insertMessage (conversationId userId : Nat) (text : String) : Code Message :=
  tryCatch (query (.insertMessage conversationId userId text)) fun e =>
    if e = .database .foreignKeyViolation then throw (.notFound "Conversation not found") else throw e

def sendMessage (userId conversationId : Nat) (text : String) : Code Message := do
  assertConversationParticipant conversationId userId
  let message ← insertMessage conversationId userId text
  query (.updateLastMessage message.id conversationId)
  pure message

def markRead (userId messageId : Nat) : Code Message := do
  let message : Option Message ← query (.selectMessage messageId)
  match message with
  | none => throw (.notFound "Message not found")
  | some message =>
    match toPositiveInt (some (bigint message.conversationId)), toPositiveInt (some (bigint message.senderId)) with
    | some conversationId, some senderId => do
      assertConversationParticipant conversationId userId
      if senderId = userId then throw (.forbidden "Only recipients can mark messages as read")
      else
        let updated : Option Message ← query (.updateRead messageId)
        match updated with
        | none => throw .typeError
        | some message => pure message
    | _, _ => throw (.notFound "Message has invalid ownership data")

end ChatService

section Gateway
variable (env : Env)

/-- A room of a conversation, by the text of its id. -/
def roomName (conversationId : String) : String := "conversation:" ++ conversationId

/-- An event of a socket arrives, and the validation pipe lets its payload through. -/
def arrive (socket : Client) (valid : Bool) : Code Unit := do
  query (.deliver socket)
  if valid then pure () else throw (.badRequest "Invalid payload")

def getUser (socket : Client) : Code Nat := do
  let user : Option Nat ← query (.getUser socket)
  match user with
  | none => throw (.unauthorized "Unauthorized")
  | some sub => pure sub

/-- The last of the gateway's steps: the socket joins the room, and the event is broadcast there. -/
def broadcast (socket : Client) (room event : String) : Code Unit := do
  query (.join socket room)
  query (.emit room event)

def joinConversation (socket : Client) (conversationId : Nat) : Code Payload := do
  arrive socket (1 ≤ conversationId)
  let user ← getUser socket
  assertConversationParticipant conversationId user
  let _ ← getConversationById env user conversationId
  let room := roomName (toString conversationId)
  broadcast socket room "conversation.joined"
  pure (.obj [("success", .bool true), ("room", .str room)])

def sendMessageEvent (socket : Client) (conversationId : Nat) (text : String) : Code Payload := do
  arrive socket (1 ≤ conversationId && 1 ≤ text.length && text.length ≤ 4000)
  let user ← getUser socket
  let message ← sendMessage user conversationId text
  broadcast socket (roomName (toString conversationId)) "message.received"
  pure (.obj [("success", .bool true), ("message", .obj (messageFields env message))])

def markReadEvent (socket : Client) (messageId : Nat) : Code Payload := do
  arrive socket (1 ≤ messageId)
  let user ← getUser socket
  let message ← markRead user messageId
  broadcast socket (roomName (toString message.conversationId)) "message.read"
  pure (.obj [("success", .bool true), ("message", .obj (messageFields env message))])

/-- `handleConnection` for the client's own socket. -/
def handleConnection (handshake : Handshake) : Code Payload := do
  query .openSocket
  tryCatch
    (match extractToken handshake with
    | none => throw (.error "Missing token")
    | some token => do
      let payload : Option JwtPayload ← query (.verifyAsync token env.jwtAccessSecret)
      match payload with
      | none => throw (.unauthorized "Invalid token")
      | some payload =>
        match normalizedSub payload with
        | none => throw (.error "Invalid token subject")
        | some sub => query (.register sub))
    fun _ => query .kick
  pure .null

/-- The iteration over the sockets of one user; each joins the room before the next is taken. -/
def joinSockets (room : String) (userId : Nat) : Nat → List Client → Code Unit
  | 0, _ => pure ()
  | n + 1, visited => do
    let next : Option Client ← query (.nextSocket userId visited)
    match next with
    | none => pure ()
    | some socket =>
      query (.join socket room)
      joinSockets room userId n (socket :: visited)

def joinUsers (room : String) : List Nat → Code Unit
  | [] => pure ()
  | userId :: userIds => do
    joinSockets room userId env.rounds []
    joinUsers room userIds

def emitConversationJoinedToParticipants (conversationId : Nat) (userIds : List Nat) : Code Unit := do
  let room := roomName (toString conversationId)
  joinUsers env room (userIds.filter (0 < ·)).dedup
  query (.emit room "conversation.joined")

/-- `Number(conversation?.id)` of a response, where it is a positive integer. -/
def conversationIdOf (response : Payload) : Option Nat :=
  (((response.field "conversation").bind (Payload.field "id")).bind number).bind positiveInteger

/-- `POST /chat/conversations`. -/
def createConversation (userId participantId : Nat) (productId : Option Nat) : Code Payload := do
  let response ← getOrCreateConversation env userId participantId productId
  match conversationIdOf response with
  | none => pure ()
  | some conversationId =>
    let (userAId, userBId) ← getConversationParticipants conversationId
    emitConversationJoinedToParticipants env conversationId [userAId, userBId]
  pure response

end Gateway

section Followups
variable (env : Env)

structure CreateFollowupConversationDto where
  itemType : ItemType
  itemId : Nat
  adminId : Option Nat := none

def followupFields (f : FollowupConversation) : Fields :=
  [("id", bigint f.id), ("item_type", .str f.itemType.text), ("item_id", bigint f.itemId),
   ("user_id", bigint f.userId), ("admin_id", bigint f.adminId), ("created_at", .date (env.iso f.createdAt))]

/-- A row of `followup_messages`; its `sent_at` is cast to text. -/
def followupMessageFields (m : FollowupMessage) : Fields :=
  [("id", bigint m.id), ("conversation_id", bigint m.conversationId), ("sender_id", bigint m.senderId),
   ("message_text", .str m.text), ("sent_at", .str (env.iso m.sentAt))]

def assertUserOwnsItem (userId : Nat) (isAdmin : Bool) (itemType : ItemType) (itemId : Nat) : Code Unit := do
  let ownership : Option Nat ← query (.selectOwner itemType itemId)
  match ownership with
  | none => throw (.notFound "Item not found")
  | some owner => if isAdmin || owner = userId then pure () else throw (.forbidden "Not allowed")

def createFollowupConversation (userId : Nat) (isAdmin : Bool) (dto : CreateFollowupConversationDto) :
    Code FollowupConversation := do
  assertUserOwnsItem userId isAdmin dto.itemType dto.itemId
  let adminId : Option Nat ←
    match dto.adminId with
    | some adminId => pure (some adminId)
    | none => query .selectAnyAdmin
  match adminId.filter (· ≠ 0) with
  | none => throw (.badRequest "No admin account available")
  | some adminId =>
    let active : Bool ← query (.selectActiveAdmin adminId)
    if !active then throw (.badRequest "Admin not found")
    else query (.upsertFollowup dto.itemType dto.itemId userId adminId)

def assertFollowupConversationAccess (userId conversationId : Nat) : Code Unit := do
  let row : Option (Nat × Nat) ← query (.selectFollowupAccess conversationId)
  match row with
  | none => throw (.notFound "Conversation not found")
  | some (owner, admin) =>
    if owner ≠ userId ∧ admin ≠ userId then throw (.forbidden "Not allowed") else pure ()

def assertFollowupConversationItemScope (conversationId : Nat) : Option (ItemType × Nat) → Code Unit
  | none => pure ()
  | some (itemType, itemId) => do
    let found : Bool ← query (.selectFollowupScope conversationId itemType itemId)
    if !found then throw (.notFound "Conversation not found") else pure ()

def listFollowupMessages (userId conversationId : Nat) (scope : Option (ItemType × Nat)) :
    Code (List FollowupMessage) := do
  assertFollowupConversationAccess userId conversationId
  assertFollowupConversationItemScope conversationId scope
  query (.selectFollowupMessages conversationId)

def sendFollowupMessage (userId conversationId : Nat) (text : String) (scope : Option (ItemType × Nat)) :
    Code FollowupMessage := do
  assertFollowupConversationAccess userId conversationId
  assertFollowupConversationItemScope conversationId scope
  query (.insertFollowupMessage conversationId userId text)

end Followups

/-- The calls: what happens to sockets, what they send, and the requests over REST. -/
inductive Request where
  | connect (handshake : Handshake)
  | disconnect (socket : Client)
  | join (socket : Client) (conversationId : Nat)
  | send (socket : Client) (conversationId : Nat) (text : String)
  | read (socket : Client) (messageId : Nat)
  | createConversation (userId participantId : Nat) (productId : Option Nat)
  | createFollowup (userId : Nat) (isAdmin : Bool) (dto : CreateFollowupConversationDto)
  | listFollowup (userId conversationId : Nat) (scope : Option (ItemType × Nat))
  | sendFollowup (userId conversationId : Nat) (text : String) (scope : Option (ItemType × Nat))

/-- The program of a call. -/
def Request.code (env : Env) : Request → Code Payload
  | .connect handshake => handleConnection env handshake
  | .disconnect socket => do
    query (.disconnect socket)
    pure .null
  | .join socket conversationId => joinConversation env socket conversationId
  | .send socket conversationId text => sendMessageEvent env socket conversationId text
  | .read socket messageId => markReadEvent env socket messageId
  | .createConversation userId participantId productId => Chat.createConversation env userId participantId productId
  | .createFollowup userId isAdmin dto => do
    let conversation ← createFollowupConversation userId isAdmin dto
    pure (.obj [("conversation", .obj (followupFields env conversation))])
  | .listFollowup userId conversationId scope => do
    let messages ← listFollowupMessages userId conversationId scope
    pure (.obj [("items", .arr (messages.map fun m => .obj (followupMessageFields env m)))])
  | .sendFollowup userId conversationId text scope => do
    let message ← sendFollowupMessage userId conversationId text scope
    pure (.obj [("message", .obj (followupMessageFields env message))])

/-- The calls while they run: the store, and what is left of each client's call. -/
abbrev State := Config Client Stmt Answer (Except Failure Payload) Db

/-- Every client has its request still to run. -/
def initial (env : Env) (req : Client → Request) (d : Db) : State :=
  ⟨d, fun c => ((req c).code env).run⟩

/-- One statement of one client, taken with its move and its reply. -/
abbrev Taken := Event Client Move Stmt Answer

end Kayan.Chat
