import Kayan.Chat.Rooms
import Kayan.Lib.Confined

/-!
# What a chat call may write

The notes of a call beside its statements: a message is written for the socket's own user, who takes
part in its conversation, and it is marked for a participant who has not sent it. A follow-up message
is written for a user who has access to its conversation.
-/
namespace Kayan.Chat.Transcripts
open Interleave
open Reads (ItemType)
open Sessions (JwtPayload Handshake extractToken normalizedSub toPositiveInt)

section Notes

/-- The message that a statement writes. -/
def posted : (q : Stmt) → Answer q → Option Message
  | .insertMessage _ _ _, .ok m => some m
  | _, _ => none

/-- The follow-up message that a statement writes. -/
def postedFollowup : (q : Stmt) → Answer q → Option FollowupMessage
  | .insertFollowupMessage _ _ _, .ok m => some m
  | _, _ => none

/-- A message that is read, under its id. -/
def found : (q : Stmt) → Answer q → Option (Nat × Message)
  | .selectMessage i, .ok m => (m : Option Message).map fun m => (i, m)
  | _, _ => none

/-- A follow-up conversation, with its user and its admin. -/
def granted : (q : Stmt) → Answer q → Option (Nat × Nat × Nat)
  | .selectFollowupAccess id, .ok row => (row : Option (Nat × Nat)).map fun r => (id, r)
  | _, _ => none

/-- What a call has learned. -/
structure Learned where
  req : Request
  users : List (Client × Nat) := []
  row : Option (Nat × Payload × Payload) := none
  message : Option (Nat × Message) := none
  access : Option (Nat × Nat × Nat) := none
  posted : Option Message := none

namespace Learned

/-- What the reply of a statement adds. -/
def after (x : Learned) (q : Stmt) (r : Answer q) : Learned where
  req := x.req
  users := (q.user r).toList ++ x.users
  row := (q.row r).or x.row
  message := (found q r).or x.message
  access := (granted q r).or x.access
  posted := (Transcripts.posted q r).or x.posted

/-- The last conversation that was looked up has this participant. -/
def participant (x : Learned) (conversationId userId : Nat) : Prop :=
  ∃ a b, x.row = some (conversationId, a, b) ∧
    (toPositiveInt (some a) = some userId ∨ toPositiveInt (some b) = some userId)

/-- Which statements a call may issue. -/
def may (x : Learned) (q : Stmt) : Prop :=
  match q with
  | .insertMessage id userId text => x.posted = none ∧ x.participant id userId ∧
      ∃ socket, x.req = .send socket id text ∧ (socket, userId) ∈ x.users
  | .updateRead i => ∃ socket userId m, x.req = .read socket i ∧ (socket, userId) ∈ x.users ∧
      x.message = some (i, m) ∧ m.senderId ≠ userId ∧ x.participant m.conversationId userId
  | .insertFollowupMessage id userId text => ∃ scope owner admin, x.req = .sendFollowup userId id text scope ∧
      x.access = some (id, owner, admin) ∧ (userId = owner ∨ userId = admin)
  | _ => True

end Learned

/-- The protocol of the calls. -/
abbrev protocol : Protocol Stmt Answer Learned := monitored Learned.may Learned.after

variable (env : Env)

/-- What the sender of a message is answered. -/
def acknowledgement (m : Message) : Payload :=
  .obj [("success", .bool true), ("message", .obj (messageFields env m))]

/-- Whoever sends a message and is answered has written it. -/
def ends (r : Except Failure Payload) (x : Learned) : Prop :=
  ∀ socket id text, x.req = .send socket id text → ∀ ack, r = .ok ack →
    ∃ m, x.posted = some m ∧ ack = acknowledgement env m

/-- The statements that write no message. -/
def Silent : Stmt → Prop
  | .insertMessage _ _ _ | .updateRead _ | .insertFollowupMessage _ _ _ => False
  | _ => True

end Notes

section Confined
variable {env : Env} {α : Type} {conversationId userId : Nat} {socket : Client}

theorem assertConversationParticipant_silent : Confined Silent (assertConversationParticipant conversationId userId) := by
  refine Confined.bind (Confined.await trivial) fun row => ?_
  rcases row with - | ⟨a, b⟩
  · exact Confined.throw
  · dsimp only
    split
    · split
      · exact Confined.throw
      · exact Confined.pure
    · exact Confined.throw

theorem getConversationParticipants_silent : Confined Silent (getConversationParticipants conversationId) := by
  refine Confined.bind (Confined.await trivial) fun row => ?_
  rcases row with - | ⟨a, b⟩
  · exact Confined.throw
  · dsimp only
    split
    · exact Confined.pure
    · exact Confined.throw

theorem getConversationById_silent : Confined Silent (getConversationById env userId conversationId) := by
  refine Confined.bind assertConversationParticipant_silent fun _ => ?_
  refine Confined.bind (Confined.await trivial) fun view => ?_
  rcases view with - | v
  · exact Confined.throw
  · exact Confined.pure

theorem arrive_silent {valid : Bool} : Confined Silent (arrive socket valid) := by
  refine Confined.bind (Confined.await trivial) fun _ => ?_
  split
  · exact Confined.pure
  · exact Confined.throw

theorem getUser_silent : Confined Silent (getUser socket) := by
  refine Confined.bind (Confined.await trivial) fun user => ?_
  rcases user with - | sub
  · exact Confined.throw
  · exact Confined.pure

theorem broadcast_silent {room event : String} : Confined Silent (broadcast socket room event) :=
  Confined.bind (Confined.await trivial) fun _ => Confined.await trivial

theorem joinConversation_silent : Confined Silent (joinConversation env socket conversationId) :=
  Confined.bind arrive_silent fun _ => Confined.bind getUser_silent fun _ =>
    Confined.bind assertConversationParticipant_silent fun _ =>
      Confined.bind getConversationById_silent fun _ => Confined.bind broadcast_silent fun _ => Confined.pure

theorem handleConnection_silent {handshake : Handshake} : Confined Silent (handleConnection env handshake) := by
  refine Confined.bind (Confined.await trivial) fun _ => ?_
  refine Confined.bind (Confined.catch ?_ fun _ => Confined.await trivial) fun _ => Confined.pure
  split
  · exact Confined.throw
  · refine Confined.bind (Confined.await trivial) fun payload => ?_
    rcases payload with - | payload
    · exact Confined.throw
    · dsimp only
      split
      · exact Confined.throw
      · exact Confined.await trivial

theorem validateProduct_silent {productId : Nat} : Confined Silent (validateProduct productId) := by
  refine Confined.bind (Confined.await trivial) fun product => ?_
  rcases product with - | ⟨owner, status⟩
  · exact Confined.throw
  · dsimp only
    split
    · exact Confined.throw
    · exact Confined.pure

theorem insertConversation_silent {userAId userBId : Nat} {productId : Option Nat} :
    Confined Silent (insertConversation userAId userBId productId) := by
  refine Confined.catch (Confined.await trivial) fun e => ?_
  split <;> exact Confined.throw

theorem getOrCreateConversation_silent {participantId : Nat} {productId : Option Nat} :
    Confined Silent (getOrCreateConversation env userId participantId productId) := by
  unfold getOrCreateConversation
  split
  · exact Confined.throw
  refine Confined.bind (Confined.await trivial) fun participantExists => ?_
  split
  · exact Confined.throw
  generalize productId.filter (· ≠ 0) = validatedProductId
  rcases validatedProductId with - | productId
  on_goal 2 => refine Confined.bind validateProduct_silent fun _ => ?_
  all_goals
    refine Confined.bind (Confined.await trivial) fun existing => ?_
    rcases existing with - | ⟨id, - | product⟩
  on_goal 5 => exact Confined.bind (Confined.await trivial) fun _ => getConversationById_silent
  · exact Confined.bind insertConversation_silent fun _ => getConversationById_silent
  · exact getConversationById_silent
  · exact getConversationById_silent
  · exact Confined.bind insertConversation_silent fun _ => getConversationById_silent
  · exact getConversationById_silent

theorem joinSockets_silent {room : String} {n : Nat} {visited : List Client} :
    Confined Silent (joinSockets room userId n visited) := by
  induction n generalizing visited with
  | zero => exact Confined.pure
  | succ n ih =>
    refine Confined.bind (Confined.await trivial) fun next => ?_
    rcases next with - | k
    · exact Confined.pure
    · exact Confined.bind (Confined.await trivial) fun _ => ih

theorem joinUsers_silent {room : String} {userIds : List Nat} : Confined Silent (joinUsers env room userIds) := by
  induction userIds with
  | nil => exact Confined.pure
  | cons u us ih => exact Confined.bind joinSockets_silent fun _ => ih

theorem createConversation_silent {participantId : Nat} {productId : Option Nat} :
    Confined Silent (createConversation env userId participantId productId) := by
  refine Confined.bind getOrCreateConversation_silent fun response => ?_
  dsimp only
  split
  · exact Confined.pure
  · refine Confined.bind getConversationParticipants_silent fun users => ?_
    refine Confined.bind (Confined.bind joinUsers_silent fun _ => Confined.await trivial) fun _ => Confined.pure

theorem upsertFollowup_silent {dto : CreateFollowupConversationDto} (adminId : Option Nat) :
    Confined Silent (match adminId.filter (· ≠ 0) with
      | none => throw (.badRequest "No admin account available")
      | some adminId => do
        let active : Bool ← query (.selectActiveAdmin adminId)
        if !active then throw (.badRequest "Admin not found")
        else query (.upsertFollowup dto.itemType dto.itemId userId adminId)) := by
  split
  · exact Confined.throw
  · refine Confined.bind (Confined.await trivial) fun active => ?_
    cases active with
    | false => exact Confined.throw
    | true => exact Confined.await trivial

theorem createFollowupConversation_silent {isAdmin : Bool} {dto : CreateFollowupConversationDto} :
    Confined Silent (createFollowupConversation userId isAdmin dto) := by
  refine Confined.bind (Confined.bind (Confined.await trivial) fun ownership => ?_) fun _ => ?_
  · rcases ownership with - | owner
    · exact Confined.throw
    · dsimp only
      split
      · exact Confined.pure
      · exact Confined.throw
  · rcases dto.adminId with - | adminId
    · exact Confined.bind (Confined.await trivial) upsertFollowup_silent
    · exact upsertFollowup_silent (some adminId)

variable {scope : Option (ItemType × Nat)}

theorem assertFollowupConversationAccess_silent : Confined Silent (assertFollowupConversationAccess userId conversationId) := by
  refine Confined.bind (Confined.await trivial) fun row => ?_
  rcases row with - | ⟨owner, admin⟩
  · exact Confined.throw
  · dsimp only
    split
    · exact Confined.throw
    · exact Confined.pure

theorem assertFollowupConversationItemScope_silent :
    Confined Silent (assertFollowupConversationItemScope conversationId scope) := by
  rcases scope with - | ⟨itemType, itemId⟩
  · exact Confined.pure
  · refine Confined.bind (Confined.await trivial) fun found => ?_
    cases found with
    | false => exact Confined.throw
    | true => exact Confined.pure

theorem listFollowupMessages_silent : Confined Silent (listFollowupMessages userId conversationId scope) :=
  Confined.bind assertFollowupConversationAccess_silent fun _ =>
    Confined.bind assertFollowupConversationItemScope_silent fun _ => Confined.await trivial

end Confined

section Protocol
variable {env : Env} {x : Learned} {α : Type} {E : Learned → Prop} {conversationId userId : Nat} {socket : Client}

theorem keeps_query {q : Stmt} {Q : Reply q → Learned → Prop} (hm : x.may q) (h : ∀ r, outcome Q E r (x.after q r)) :
    Keeps protocol x (query q) Q E :=
  Keeps.await fun r => ⟨x.after q r, ⟨hm, rfl⟩, h r⟩

theorem still_query {q : Stmt} (hm : x.may q) (h : ∀ r, x.after q r = x) : Still protocol x (query q) :=
  Still.await fun r => ⟨hm, (h r).symm⟩

/-- A call that writes no message. -/
theorem silent_follows {code : Code Payload} (h : Confined Silent code)
    (hreq : ∀ socket id text, x.req ≠ .send socket id text) : Follows protocol (ends env) code.run x := by
  refine Follows.mono (Issues.within (I := fun y => y.req = x.req) h (fun y q r hy hq => ?_) rfl) fun r y hy => ?_
  · refine ⟨y.after q r, ⟨?_, rfl⟩, hy⟩
    cases q with
    | insertMessage | updateRead | insertFollowupMessage => exact hq.elim
    | _ => trivial
  · intro socket id text hsend
    rw [hy] at hsend
    exact absurd hsend (hreq socket id text)

/-- Who passes takes part in the conversation. -/
theorem assertConversationParticipant_keeps :
    Keeps protocol x (assertConversationParticipant conversationId userId)
      (fun _ y => y.participant conversationId userId ∧ ∃ row, y = { x with row }) fun _ => True := by
  refine Keeps.bind (Q := fun row y => y = { x with row := (row.map fun r => (conversationId, r)).or x.row })
    (keeps_query trivial fun r => ?_) fun row y hy => ?_
  · cases r with
    | ok row => rfl
    | error e => trivial
  · subst hy
    rcases row with - | ⟨a, b⟩
    · exact Keeps.throw trivial
    · dsimp only
      split
      · rename_i userAId userBId ha hb
        split
        · exact Keeps.throw trivial
        · rename_i hne
          refine Keeps.pure ⟨⟨a, b, rfl, ?_⟩, _, rfl⟩
          rw [ha, hb, Option.some.injEq, Option.some.injEq]
          omega
      · exact Keeps.throw trivial

theorem arrive_still {valid : Bool} : Still protocol x (arrive socket valid) := by
  refine Still.bind (still_query trivial fun _ => rfl) fun _ => ?_
  split
  · exact Still.pure
  · exact Still.throw

theorem broadcast_still {room event : String} : Still protocol x (broadcast socket room event) :=
  Still.bind (still_query trivial fun _ => rfl) fun _ => still_query trivial fun _ => rfl

/-- The user of the socket is noted for it. -/
theorem getUser_keeps : Keeps protocol x (getUser socket)
    (fun user y => y = { x with users := (socket, user) :: x.users }) fun _ => True := by
  refine Keeps.bind (Q := fun user y => y = { x with users := (user.map fun u => (socket, u)).toList ++ x.users })
    (keeps_query trivial fun r => ?_) fun user y hy => ?_
  · cases r with
    | ok user => rfl
    | error e => trivial
  · subst hy
    rcases user with - | sub
    · exact Keeps.throw trivial
    · exact Keeps.pure rfl

/-- A message is written once, for the socket's user, and it is what the sender is answered. -/
theorem sendMessageEvent_keeps {text : String} (hreq : x.req = .send socket conversationId text)
    (hx : x.posted = none) : Keeps protocol x (sendMessageEvent env socket conversationId text)
      (fun ack y => ∃ m, y.posted = some m ∧ ack = acknowledgement env m) fun _ => True := by
  refine Keeps.after arrive_still (fun _ => ?_) trivial
  refine Keeps.bind getUser_keeps fun user y hy => ?_
  subst hy
  refine Keeps.bind (Q := fun m y => y.posted = some m) ?_ fun m y hy => ?_
  · refine Keeps.bind assertConversationParticipant_keeps fun _ y hy => ?_
    obtain ⟨hp, row, rfl⟩ := hy
    refine Keeps.bind (Q := fun m y => y.posted = some m) ?_ fun m y hy => ?_
    · refine Keeps.catch (E := fun _ => True) (keeps_query ⟨hx, hp, socket, hreq, List.mem_cons_self⟩ fun r => ?_)
        fun e y hy => ?_
      · cases r with
        | ok m => rfl
        | error e => trivial
      · split <;> exact Keeps.throw trivial
    · exact Keeps.after (still_query trivial fun _ => rfl) (fun _ => Keeps.pure hy) trivial
  · exact Keeps.after broadcast_still (fun _ => Keeps.pure ⟨m, hy, rfl⟩) trivial

/-- A message is marked for the socket's user, who has not sent it. -/
theorem markReadEvent_keeps {messageId : Nat} (hreq : x.req = .read socket messageId) :
    Keeps protocol x (markReadEvent env socket messageId) (fun _ y => y.req = x.req) fun _ => True := by
  refine Keeps.after arrive_still (fun _ => ?_) trivial
  refine Keeps.bind getUser_keeps fun user y hy => ?_
  subst hy
  refine Keeps.bind (Q := fun _ y => y.req = x.req) ?_ fun m y hy => ?_
  · refine Keeps.bind (Q := fun m y => y = { x with
        users := (socket, user) :: x.users, message := (m.map fun m => (messageId, m)).or x.message })
      (keeps_query trivial fun r => ?_) fun message y hy => ?_
    · cases r with
      | ok m => rfl
      | error e => trivial
    subst hy
    rcases message with - | message
    · exact Keeps.throw trivial
    dsimp only
    split
    · rename_i id senderId hc hs
      obtain rfl := bigint_id hc
      obtain rfl := bigint_id hs
      refine Keeps.bind assertConversationParticipant_keeps fun _ y hy => ?_
      obtain ⟨hp, row, rfl⟩ := hy
      split
      · exact Keeps.throw trivial
      · rename_i hne
        refine Keeps.bind (Q := fun _ y => y.req = x.req)
          (keeps_query ⟨socket, user, message, hreq, List.mem_cons_self, rfl, hne, hp⟩ fun r => ?_) fun updated y hy => ?_
        · cases r with
          | ok updated => rfl
          | error e => trivial
        · rcases updated with - | updated
          · exact Keeps.throw trivial
          · exact Keeps.pure hy
    · exact Keeps.throw trivial
  · exact Keeps.after broadcast_still (fun _ => Keeps.pure hy) trivial

theorem assertFollowupConversationItemScope_still {scope : Option (ItemType × Nat)} :
    Still protocol x (assertFollowupConversationItemScope conversationId scope) := by
  rcases scope with - | ⟨itemType, itemId⟩
  · exact Still.pure
  · refine Still.bind (still_query trivial fun _ => rfl) fun found => ?_
    cases found with
    | false => exact Still.throw
    | true => exact Still.pure

/-- A follow-up message is written for a user that has access to its conversation. -/
theorem sendFollowupMessage_keeps {text : String} {scope : Option (ItemType × Nat)}
    (hreq : x.req = .sendFollowup userId conversationId text scope) :
    Keeps protocol x (sendFollowupMessage userId conversationId text scope) (fun _ y => y.req = x.req) fun _ => True := by
  refine Keeps.bind (Q := fun _ y => y.req = x.req ∧ ∃ owner admin, y.access = some (conversationId, owner, admin) ∧
    (userId = owner ∨ userId = admin)) ?_ fun _ y hy => ?_
  · refine Keeps.bind (Q := fun row y => y = { x with access := (row.map fun r => (conversationId, r)).or x.access })
      (keeps_query trivial fun r => ?_) fun row y hy => ?_
    · cases r with
      | ok row => rfl
      | error e => trivial
    subst hy
    rcases row with - | ⟨owner, admin⟩
    · exact Keeps.throw trivial
    dsimp only
    split
    · exact Keeps.throw trivial
    · exact Keeps.pure ⟨rfl, owner, admin, rfl, by omega⟩
  · obtain ⟨hy, owner, admin, haccess, hu⟩ := hy
    refine Keeps.after assertFollowupConversationItemScope_still (fun _ => ?_) trivial
    refine keeps_query ⟨scope, owner, admin, hy.trans hreq, haccess, hu⟩ fun r => ?_
    cases r with
    | ok m => exact hy
    | error e => trivial

/-- A call that is no send may end as it likes. -/
theorem ends_other {r : Except Failure Payload} {req : Request}
    (hr : outcome (fun _ y => y.req = req) (fun _ => True) r x) (hreq : ∀ socket id text, req ≠ .send socket id text) :
    ends env r x := by
  intro socket id text hsend ack hack
  subst hack
  exact absurd (hr.symm.trans hsend) (hreq socket id text)

/-- Every call keeps to the protocol. -/
theorem request_follows (req : Request) : Follows protocol (ends env) (req.code env).run { req } := by
  cases req with
  | connect handshake => exact silent_follows handleConnection_silent fun _ _ _ h => by cases h
  | disconnect socket =>
    exact silent_follows (Confined.bind (Confined.await trivial) fun _ => Confined.pure) fun _ _ _ h => by cases h
  | join socket conversationId => exact silent_follows joinConversation_silent fun _ _ _ h => by cases h
  | send socket conversationId text =>
    refine Follows.mono (sendMessageEvent_keeps rfl rfl) fun r y hr => ?_
    intro _ _ _ _ ack hack
    subst hack
    exact hr
  | read socket messageId =>
    exact Follows.mono (markReadEvent_keeps rfl) fun r y hr => ends_other hr fun _ _ _ h => by cases h
  | createConversation userId participantId productId =>
    exact silent_follows createConversation_silent fun _ _ _ h => by cases h
  | createFollowup userId isAdmin dto =>
    exact silent_follows (Confined.bind createFollowupConversation_silent fun _ => Confined.pure) fun _ _ _ h => by cases h
  | listFollowup userId conversationId scope =>
    exact silent_follows (Confined.bind listFollowupMessages_silent fun _ => Confined.pure) fun _ _ _ h => by cases h
  | sendFollowup userId conversationId text scope =>
    refine Follows.mono (Keeps.bind (R := fun _ y => y.req = .sendFollowup userId conversationId text scope)
      (sendFollowupMessage_keeps rfl) fun m y hy => Keeps.pure hy) fun r y hr => ?_
    exact ends_other hr fun _ _ _ h => by cases h

theorem initial_follows {req : Client → Request} {d : Db} :
    InPhase protocol (ends env) (fun c => { req := req c }) (initial env req d) :=
  fun c => request_follows (req c)

end Protocol

end Kayan.Chat.Transcripts
