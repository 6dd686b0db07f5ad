import Kayan.Chat.Pairs
import Kayan.Chat.Unread

/-!
# What `conversation.joined` says

A join and `POST /chat/conversations` select the conversation for their caller and broadcast what they
have selected to the room, where sockets of both participants may be. The notes beside a call hold the
conversation that it has selected.
-/
namespace Kayan.Chat.Joined
open Interleave
open Sessions (toPositiveInt Handshake extractToken normalizedSub)
open Unread (participants Peers TakesPart unreadCount)

section Payloads

/-- `buildConversationJoinedPayload`, before the ids in it are replaced by the rows that they name. -/
def conversationJoined (env : Env) (v : ConversationView) : Payload :=
  .obj [("success", .bool true), ("statusCode", .num 200), ("data", .obj (conversationFields env v))]

/-- The open sockets in a room. -/
def Receives (d : Db) (room : String) (k : Client) : Prop := k ∈ d.room room ∧ (d.sockets k).phase = .opened

instance (d : Db) (room : String) (k : Client) : Decidable (Receives d room k) :=
  inferInstanceAs (Decidable (room ∈ (d.sockets k).rooms ∧ (d.sockets k).phase = .opened))

/-- A payload tells every receiver of a broadcast about his own peer, and his own unread messages. -/
def Describes (d : Db) (id : Nat) (payload : Payload) : Prop :=
  ∀ k u, Receives d (roomName (toString id)) k → (d.sockets k).user = some u → ∃ peer, Peers d id u peer ∧ u ≠ peer ∧
    (payload.field "data").bind (Payload.field "peer_user_id") = some (bigint peer) ∧
    (payload.field "data").bind (Payload.field "unread_count") = some (.num (unreadCount d u id))

/-- The user and the conversation of a selected row. -/
def selectedBy : (q : Stmt) → Answer q → Option (Nat × Nat × ConversationView)
  | .selectConversation userId id, .ok v => (v : Option ConversationView).map fun v => (userId, id, v)
  | _, _ => none

/-- A call has selected a conversation for a user in the run. -/
def Selected (xs : List Taken) (c : Client) (userId id : Nat) (v : ConversationView) : Prop :=
  ∃ e ∈ xs, e.client = c ∧ selectedBy e.stmt e.reply = some (userId, id, v)

end Payloads

section Notes

/-- What a call has seen. -/
structure Heard where
  row : Option (Nat × Payload × Payload) := none
  view : Option (Nat × Nat × ConversationView) := none

namespace Heard

def after (x : Heard) (q : Stmt) (r : Answer q) : Heard where
  row := (q.row r).or x.row
  view := (selectedBy q r).or x.view

/-- The last conversation that was looked up has this participant. -/
def participant (x : Heard) (conversationId userId : Nat) : Prop :=
  ∃ a b, x.row = some (conversationId, a, b) ∧
    (toPositiveInt (some a) = some userId ∨ toPositiveInt (some b) = some userId)

/-- A conversation is selected once, for a participant, and broadcast to its room. -/
def may (x : Heard) (q : Stmt) : Prop :=
  match q with
  | .selectConversation userId id => x.view = none ∧ x.participant id userId
  | .emit room event => event = "conversation.joined" →
    ∃ userId id v, x.view = some (userId, id, v) ∧ (room = roomName (toString id) ∨ room = roomName (toString v.conversation.id))
  | _ => True

end Heard

/-- The protocol of the calls. -/
abbrev protocol : Protocol Stmt Answer Heard := monitored Heard.may Heard.after

variable {x : Heard} {env : Env} {α β : Type} {Q : α → Heard → Prop} {E : Heard → Prop} {conversationId userId : Nat}

theorem keeps_query {q : Stmt} {Q : Reply q → Heard → Prop} (hm : x.may q) (h : ∀ r, outcome Q E r (x.after q r)) :
    Keeps protocol x (query q) Q E :=
  Keeps.await fun r => ⟨x.after q r, ⟨hm, rfl⟩, h r⟩

/-- Code that neither selects a conversation nor broadcasts one, wherever it begins. -/
def Plain (code : Code α) : Prop := ∀ x, Keeps protocol x code (fun _ y => y.view = x.view) fun y => y.view = x.view

theorem Plain.pure {a : α} : Plain (Pure.pure a : Code α) := fun _ => Keeps.pure rfl

theorem Plain.throw {e : Failure} : Plain (MonadExcept.throw e : Code α) := fun _ => Keeps.throw rfl

theorem Plain.query {q : Stmt} (h : ∀ x : Heard, x.may q) (hq : ∀ r, selectedBy q r = none) : Plain (Chat.query q) :=
  fun x => keeps_query (h x) fun r => by
    have hview : (x.after q r).view = x.view := by rw [Heard.after, hq r, Option.none_or]
    cases r <;> exact hview

theorem Plain.bind {code : Code α} {f : α → Code β} (h : Plain code) (hf : ∀ a, Plain (f a)) : Plain (code >>= f) :=
  fun x => Keeps.bind (h x) fun a y hy => hy ▸ hf a y

theorem Plain.catch {code : Code α} {handler : Failure → Code α} (h : Plain code) (hh : ∀ e, Plain (handler e)) :
    Plain (tryCatch code handler) :=
  fun x => Keeps.catch (h x) fun e y hy => hy ▸ hh e y

section Plain

theorem assertConversationParticipant_plain : Plain (assertConversationParticipant conversationId userId) := by
  refine Plain.bind (Plain.query (fun _ => trivial) fun _ => rfl) fun row => ?_
  rcases row with - | ⟨a, b⟩
  · exact Plain.throw
  · dsimp only
    split
    · split
      · exact Plain.throw
      · exact Plain.pure
    · exact Plain.throw

theorem insertMessage_plain {text : String} : Plain (insertMessage conversationId userId text) := by
  refine Plain.catch (Plain.query (fun _ => trivial) fun _ => rfl) fun e => ?_
  split <;> exact Plain.throw

theorem sendMessage_plain {text : String} : Plain (sendMessage userId conversationId text) :=
  Plain.bind assertConversationParticipant_plain fun _ => Plain.bind insertMessage_plain fun _ =>
    Plain.bind (Plain.query (fun _ => trivial) fun _ => rfl) fun _ => Plain.pure

theorem markRead_plain {messageId : Nat} : Plain (markRead userId messageId) := by
  refine Plain.bind (Plain.query (fun _ => trivial) fun _ => rfl) fun message => ?_
  rcases message with - | message
  · exact Plain.throw
  · dsimp only
    split
    · refine Plain.bind assertConversationParticipant_plain fun _ => ?_
      split
      · exact Plain.throw
      · refine Plain.bind (Plain.query (fun _ => trivial) fun _ => rfl) fun updated => ?_
        rcases updated with - | updated
        · exact Plain.throw
        · exact Plain.pure
    · exact Plain.throw

variable {socket : Client}

theorem arrive_plain {valid : Bool} : Plain (arrive socket valid) := by
  refine Plain.bind (Plain.query (fun _ => trivial) fun _ => rfl) fun _ => ?_
  split
  · exact Plain.pure
  · exact Plain.throw

theorem getUser_plain : Plain (getUser socket) := by
  refine Plain.bind (Plain.query (fun _ => trivial) fun _ => rfl) fun user => ?_
  rcases user with - | sub
  · exact Plain.throw
  · exact Plain.pure

/-- Every other event is not `conversation.joined`. -/
theorem broadcast_plain {room event : String} (h : event ≠ "conversation.joined") : Plain (broadcast socket room event) :=
  Plain.bind (Plain.query (fun _ => trivial) fun _ => rfl) fun _ => Plain.query (fun _ hevent => absurd hevent h) fun _ => rfl

theorem handleConnection_plain {handshake : Handshake} : Plain (handleConnection env handshake) := by
  refine Plain.bind (Plain.query (fun _ => trivial) fun _ => rfl) fun _ => ?_
  refine Plain.bind (Plain.catch ?_ fun _ => Plain.query (fun _ => trivial) fun _ => rfl) fun _ => Plain.pure
  split
  · exact Plain.throw
  · refine Plain.bind (Plain.query (fun _ => trivial) fun _ => rfl) fun payload => ?_
    rcases payload with - | payload
    · exact Plain.throw
    · dsimp only
      split
      · exact Plain.throw
      · exact Plain.query (fun _ => trivial) fun _ => rfl

theorem joinSockets_plain {room : String} {n : Nat} {visited : List Client} : Plain (joinSockets room userId n visited) := by
  induction n generalizing visited with
  | zero => exact Plain.pure
  | succ n ih =>
    refine Plain.bind (Plain.query (fun _ => trivial) fun _ => rfl) fun next => ?_
    rcases next with - | k
    · exact Plain.pure
    · exact Plain.bind (Plain.query (fun _ => trivial) fun _ => rfl) fun _ => ih

theorem upsertFollowup_plain {dto : CreateFollowupConversationDto} (adminId : Option Nat) :
    Plain (match adminId.filter (· ≠ 0) with
      | none => throw (.badRequest "No admin account available")
      | some adminId => do
        let active : Bool ← query (.selectActiveAdmin adminId)
        if !active then throw (.badRequest "Admin not found")
        else query (.upsertFollowup dto.itemType dto.itemId userId adminId)) := by
  split
  · exact Plain.throw
  · refine Plain.bind (Plain.query (fun _ => trivial) fun _ => rfl) fun active => ?_
    cases active with
    | false => exact Plain.throw
    | true => exact Plain.query (fun _ => trivial) fun _ => rfl

theorem createFollowupConversation_plain {isAdmin : Bool} {dto : CreateFollowupConversationDto} :
    Plain (createFollowupConversation userId isAdmin dto) := by
  refine Plain.bind (Plain.bind (Plain.query (fun _ => trivial) fun _ => rfl) fun ownership => ?_) fun _ => ?_
  · rcases ownership with - | owner
    · exact Plain.throw
    · dsimp only
      split
      · exact Plain.pure
      · exact Plain.throw
  · rcases dto.adminId with - | adminId
    · exact Plain.bind (Plain.query (fun _ => trivial) fun _ => rfl) upsertFollowup_plain
    · exact upsertFollowup_plain (some adminId)

variable {scope : Option (Reads.ItemType × Nat)}

theorem assertFollowupConversationAccess_plain : Plain (assertFollowupConversationAccess userId conversationId) := by
  refine Plain.bind (Plain.query (fun _ => trivial) fun _ => rfl) fun row => ?_
  rcases row with - | ⟨owner, admin⟩
  · exact Plain.throw
  · dsimp only
    split
    · exact Plain.throw
    · exact Plain.pure

theorem assertFollowupConversationItemScope_plain : Plain (assertFollowupConversationItemScope conversationId scope) := by
  rcases scope with - | ⟨itemType, itemId⟩
  · exact Plain.pure
  · refine Plain.bind (Plain.query (fun _ => trivial) fun _ => rfl) fun found => ?_
    cases found with
    | false => exact Plain.throw
    | true => exact Plain.pure

theorem validateProduct_plain {productId : Nat} : Plain (validateProduct productId) := by
  refine Plain.bind (Plain.query (fun _ => trivial) fun _ => rfl) fun product => ?_
  rcases product with - | ⟨owner, status⟩
  · exact Plain.throw
  · dsimp only
    split
    · exact Plain.throw
    · exact Plain.pure

theorem insertConversation_plain {userAId userBId : Nat} {productId : Option Nat} :
    Plain (insertConversation userAId userBId productId) := by
  refine Plain.catch (Plain.query (fun _ => trivial) fun _ => rfl) fun e => ?_
  split <;> exact Plain.throw

theorem getConversationParticipants_plain : Plain (getConversationParticipants conversationId) := by
  refine Plain.bind (Plain.query (fun _ => trivial) fun _ => rfl) fun row => ?_
  rcases row with - | ⟨a, b⟩
  · exact Plain.throw
  · dsimp only
    split
    · exact Plain.pure
    · exact Plain.throw

theorem joinUsers_plain {room : String} {userIds : List Nat} : Plain (joinUsers env room userIds) := by
  induction userIds with
  | nil => exact Plain.pure
  | cons u us ih => exact Plain.bind joinSockets_plain fun _ => ih

end Plain

section Selecting

/-- Who passes takes part in the conversation. -/
theorem assertConversationParticipant_keeps (hx : x.view = none) :
    Keeps protocol x (assertConversationParticipant conversationId userId)
      (fun _ y => y.participant conversationId userId ∧ y.view = none) fun _ => True := by
  refine Keeps.bind (Q := fun row y => y.row = (row.map fun r => (conversationId, r)).or x.row ∧ y.view = none)
    (keeps_query trivial fun r => ?_) fun row y hy => ?_
  · cases r with
    | ok row => exact ⟨rfl, hx⟩
    | error e => trivial
  · obtain ⟨hrow, hview⟩ := hy
    rcases row with - | ⟨a, b⟩
    · exact Keeps.throw trivial
    · dsimp only
      split
      · rename_i userAId userBId ha hb
        split
        · exact Keeps.throw trivial
        · rename_i hne
          refine Keeps.pure ⟨⟨a, b, hrow, ?_⟩, hview⟩
          rw [ha, hb, Option.some.injEq, Option.some.injEq]
          omega
      · exact Keeps.throw trivial

variable (env) in
/-- A call has selected a conversation for a user, and answers with it. -/
def Answered (userId id : Nat) (response : Payload) (y : Heard) : Prop :=
  ∃ v, y.view = some (userId, id, v) ∧ response = .obj [("conversation", .obj (conversationFields env v))]

theorem getConversationById_keeps (hx : x.view = none) :
    Keeps protocol x (getConversationById env userId conversationId) (Answered env userId conversationId) fun _ => True := by
  refine Keeps.bind (assertConversationParticipant_keeps hx) fun _ y hy => ?_
  refine Keeps.bind (Q := fun row z => z.view = (row : Option ConversationView).map fun v => (userId, conversationId, v))
    (keeps_query ⟨hy.2, hy.1⟩ fun r => ?_) fun row z hz => ?_
  · cases r with
    | ok row => exact (congrArg _ hy.2).trans (Option.or_none ..)
    | error e => trivial
  · rcases row with - | v
    · exact Keeps.throw trivial
    · exact Keeps.pure ⟨v, hz, rfl⟩

theorem Plain.then_keeps {code : Code α} {f : α → Code β} {R : β → Heard → Prop} (h : Plain code)
    (hf : ∀ a y, y.view = x.view → Keeps protocol y (f a) R fun _ => True) :
    Keeps protocol x (code >>= f) R fun _ => True :=
  Keeps.bind (Keeps.mono (h x) (fun _ _ hy => hy) fun _ _ => trivial) hf

theorem getOrCreateConversation_keeps {participantId : Nat} {productId : Option Nat} (hx : x.view = none) :
    Keeps protocol x (getOrCreateConversation env userId participantId productId)
      (fun response y => ∃ id, Answered env userId id response y) fun _ => True := by
  unfold getOrCreateConversation
  split
  · exact Keeps.throw trivial
  refine Plain.then_keeps (Plain.query (fun _ => trivial) fun _ => rfl) fun participantExists y hy => ?_
  dsimp only
  split
  · exact Keeps.throw trivial
  have hfound {y : Heard} (hy : y.view = x.view) (id : Nat) : Keeps protocol y (getConversationById env userId id)
      (fun response y => ∃ id, Answered env userId id response y) fun _ => True :=
    Keeps.mono (getConversationById_keeps (hy.trans hx)) (fun _ _ h => ⟨id, h⟩) fun _ h => h
  have hinserted {y : Heard} (hy : y.view = x.view) {userAId userBId : Nat} {product : Option Nat} :
      Keeps protocol y (insertConversation userAId userBId product >>= fun id => getConversationById env userId id)
        (fun response y => ∃ id, Answered env userId id response y) fun _ => True :=
    Plain.then_keeps insertConversation_plain fun id z hz => hfound (hz.trans hy) id
  generalize productId.filter (· ≠ 0) = validatedProductId
  rcases validatedProductId with - | productId
  · refine Plain.then_keeps (Plain.query (fun _ => trivial) fun _ => rfl) fun existing z hz => ?_
    rcases existing with - | ⟨id, - | product⟩
    · exact hinserted (hz.trans hy)
    · exact hfound (hz.trans hy) id
    · exact hfound (hz.trans hy) id
  · refine Plain.then_keeps validateProduct_plain fun _ z hz => ?_
    refine Plain.then_keeps (Plain.query (fun _ => trivial) fun _ => rfl) fun existing w hw => ?_
    have hstill := hw.trans (hz.trans hy)
    rcases existing with - | ⟨id, - | product⟩
    · exact hinserted hstill
    · refine Plain.then_keeps (Plain.query (fun _ => trivial) fun _ => rfl) fun _ v hv => ?_
      exact hfound (hv.trans hstill) id
    · exact hfound hstill id

/-- The answer to a join and to a request goes to the room of the conversation that was selected. -/
theorem joinConversation_keeps {socket : Client} (hx : x.view = none) :
    Keeps protocol x (joinConversation env socket conversationId) (fun _ _ => True) fun _ => True := by
  refine Plain.then_keeps arrive_plain fun _ y hy => ?_
  refine Plain.then_keeps getUser_plain fun user z hz => ?_
  refine Plain.then_keeps assertConversationParticipant_plain fun _ w hw => ?_
  refine Keeps.bind (getConversationById_keeps (hw.trans (hz.trans (hy.trans hx)))) fun response y hy => ?_
  obtain ⟨v, hview, rfl⟩ := hy
  refine Keeps.bind (Q := fun _ _ => True) ?_ fun _ _ _ => Keeps.pure trivial
  refine Plain.then_keeps (Plain.query (fun _ => trivial) fun _ => rfl) fun _ u hu => ?_
  refine keeps_query (fun _ => ⟨user, conversationId, v, hu.trans hview, .inl rfl⟩) fun r => ?_
  cases r <;> trivial

theorem conversationIdOf_eq {v : ConversationView} {id : Nat}
    (h : conversationIdOf (.obj [("conversation", .obj (conversationFields env v))]) = some id) :
    id = v.conversation.id := by
  have hnumber : (number (bigint v.conversation.id)).bind positiveInteger = some id := h
  rw [bigint, number, stringToNumber_toString, Option.bind_some] at hnumber
  rcases Nat.eq_zero_or_pos v.conversation.id with hzero | hpos
  · rw [hzero] at hnumber
    cases hnumber
  · rw [positiveInteger_natCast hpos] at hnumber
    exact (Option.some.inj hnumber).symm

theorem createConversation_keeps {participantId : Nat} {productId : Option Nat} (hx : x.view = none) :
    Keeps protocol x (createConversation env userId participantId productId) (fun _ _ => True) fun _ => True := by
  refine Keeps.bind (getOrCreateConversation_keeps hx) fun response y hy => ?_
  obtain ⟨id, v, hview, rfl⟩ := hy
  dsimp only
  split
  · exact Keeps.pure trivial
  · rename_i conversationId hid
    obtain rfl := conversationIdOf_eq hid
    refine Plain.then_keeps getConversationParticipants_plain fun users z hz => ?_
    refine Keeps.bind (Q := fun _ _ => True) ?_ fun _ _ _ => Keeps.pure trivial
    refine Plain.then_keeps joinUsers_plain fun _ w hw => ?_
    refine keeps_query (fun _ => ⟨userId, id, v, hw.trans (hz.trans hview), .inr rfl⟩) fun r => ?_
    cases r <;> trivial

end Selecting

/-- Every call keeps to the protocol. -/
theorem request_follows (req : Request) : Follows protocol (fun _ _ => True) (req.code env).run {} := by
  have hplain {code : Code Payload} (h : Plain code) :
      Keeps protocol ({} : Heard) code (fun _ _ => True) fun _ => True :=
    Keeps.mono (h _) (fun _ _ _ => trivial) fun _ _ => trivial
  have hk : Keeps protocol ({} : Heard) (req.code env) (fun _ _ => True) fun _ => True := by
    cases req with
    | connect handshake => exact hplain handleConnection_plain
    | disconnect socket =>
      exact hplain (Plain.bind (Plain.query (fun _ => trivial) fun _ => rfl) fun _ => Plain.pure)
    | join socket conversationId => exact joinConversation_keeps rfl
    | send socket conversationId text =>
      exact hplain (Plain.bind arrive_plain fun _ => Plain.bind getUser_plain fun _ => Plain.bind sendMessage_plain
        fun _ => Plain.bind (broadcast_plain (by decide)) fun _ => Plain.pure)
    | read socket messageId =>
      exact hplain (Plain.bind arrive_plain fun _ => Plain.bind getUser_plain fun _ => Plain.bind markRead_plain
        fun _ => Plain.bind (broadcast_plain (by decide)) fun _ => Plain.pure)
    | createConversation userId participantId productId => exact createConversation_keeps rfl
    | createFollowup userId isAdmin dto =>
      exact hplain (Plain.bind createFollowupConversation_plain fun _ => Plain.pure)
    | listFollowup userId conversationId scope =>
      exact hplain (Plain.bind (Plain.bind assertFollowupConversationAccess_plain fun _ =>
        Plain.bind assertFollowupConversationItemScope_plain fun _ => Plain.query (fun _ => trivial) fun _ => rfl)
        fun _ => Plain.pure)
    | sendFollowup userId conversationId text scope =>
      exact hplain (Plain.bind (Plain.bind assertFollowupConversationAccess_plain fun _ =>
        Plain.bind assertFollowupConversationItemScope_plain fun _ => Plain.query (fun _ => trivial) fun _ => rfl)
        fun _ => Plain.pure)
  refine Follows.mono hk fun r y _ => trivial


end Notes

section Truth
variable {env : Env} {req : Client → Request} {s t t' : State} {e : Taken} {xs : List Taken} {ph : Client → Heard}
  {d d' : Db} {c : Client} {m : Move} {q : Stmt} {r : Answer q} {u id : Nat} {v : ConversationView}

/-- What the calls have noted is true, whatever happens later. -/
structure Truth (d : Db) (ph : Client → Heard) : Prop where
  conversations : Conversations d
  row : ∀ c id a b, (ph c).row = some (id, a, b) → ∃ userAId userBId, participants d id = some (userAId, userBId) ∧
    a = bigint userAId ∧ b = bigint userBId
  view : ∀ c u id v, (ph c).view = some (u, id, v) → Peers d id u v.peerUserId ∧ v.conversation.id = id

theorem act_participants {p : Nat × Nat} (h : act env m c q d = some (r, d')) (hp : participants d id = some p) :
    participants d' id = some p := by
  obtain ⟨row, hrow, rfl⟩ := Option.map_eq_some_iff.mp hp
  obtain ⟨row', hrow', ha, hb⟩ := (act_conversations h).found hrow
  rw [participants, hrow', Option.map_some, ha, hb]

theorem act_peers {peer : Nat} (h : act env m c q d = some (r, d')) (hp : Peers d id u peer) : Peers d' id u peer :=
  hp.imp (act_participants h) (act_participants h)

/-- A conversation is selected with the other user of it as the peer. -/
theorem act_selected (h : act env m c q d = some (r, d')) (hr : selectedBy q r = some (u, id, v)) :
    q = .selectConversation u id ∧ d.conversationView u id = some v := by
  cases q with
  | selectConversation userId i =>
    cases m with
    | fail e =>
      obtain ⟨-, rfl, -⟩ := act_fail h
      cases hr
    | run wait =>
      cases h
      obtain ⟨w, hw, heq⟩ := Option.map_eq_some_iff.mp hr
      cases heq
      exact ⟨rfl, hw⟩
  | _ => cases hr

theorem view_peers (hu : TakesPart d id u) (hv : d.conversationView u id = some v) :
    Peers d id u v.peerUserId ∧ v.conversation.id = id := by
  obtain ⟨a, b, hparts, hab⟩ := hu
  obtain ⟨row, hrow, heq⟩ := Option.map_eq_some_iff.mp hparts
  obtain ⟨rfl, rfl⟩ := Prod.mk.inj heq
  unfold Db.conversationView at hv
  rw [hrow] at hv
  dsimp only at hv
  rw [Option.ite_none_right_eq_some] at hv
  rw [← Option.some.inj hv.2]
  refine ⟨?_, (conversation_some hrow).2⟩
  dsimp only
  split
  · rename_i ha
    exact .inl (ha ▸ hparts)
  · rename_i ha
    have hb : u = row.userBId := by omega
    exact .inr (hb ▸ hparts)

/-- Who has been found to take part in a conversation does. -/
theorem Truth.takesPart (h : Truth d ph) (hp : (ph c).participant id u) : TakesPart d id u := by
  obtain ⟨a, b, hrow, hab⟩ := hp
  obtain ⟨userAId, userBId, hparts, rfl, rfl⟩ := h.row c id a b hrow
  exact ⟨userAId, userBId, hparts, hab.imp bigint_id bigint_id⟩

theorem Truth.step (h : Truth s.db ph) (hm : (ph e.client).may e.stmt) (hs : Step (act env) s e t) :
    Truth t.db (noted Heard.after ph e) := by
  have ha := hs.acted
  refine ⟨(act_conversations ha).conversations h.conversations, fun c id a b hrow => ?_, fun c u id v hview => ?_⟩
  · have hold : ∃ userAId userBId, participants s.db id = some (userAId, userBId) ∧ a = bigint userAId ∧
        b = bigint userBId := by
      rcases noted_field Heard.row Stmt.row (fun _ _ _ => rfl) hrow with hold | ⟨rfl, hnew⟩
      · exact h.row c id a b hold
      · obtain ⟨row, hfound, rfl, rfl⟩ := act_row ha hnew
        exact ⟨row.userAId, row.userBId, by rw [participants, hfound]; rfl, rfl, rfl⟩
    obtain ⟨userAId, userBId, hparts, hab⟩ := hold
    exact ⟨userAId, userBId, act_participants ha hparts, hab⟩
  · have hold : Peers s.db id u v.peerUserId ∧ v.conversation.id = id := by
      rcases noted_field Heard.view selectedBy (fun _ _ _ => rfl) hview with hold | ⟨rfl, hnew⟩
      · exact h.view c u id v hold
      · obtain ⟨hq, hv⟩ := act_selected ha hnew
        rw [hq] at hm
        exact view_peers (h.takesPart hm.2) hv
    exact ⟨act_peers ha hold.1, hold.2⟩

/-- The notes beside a run. -/
theorem Truth.run (h : Truth s.db ph) (hp : InPhase protocol (fun _ _ => True) ph s)
    (hr : Trace.Run (Step (act env)) s xs t) : Truth t.db (xs.foldl (noted Heard.after) ph) ∧
      InPhase protocol (fun _ _ => True) (xs.foldl (noted Heard.after) ph) t := by
  refine (kept_run Heard.after hr ph).preserves
    (I := fun u => Truth u.1.db u.2 ∧ InPhase protocol (fun _ _ => True) u.2 u.1) ?_ ⟨h, hp⟩
  rintro ⟨u, ph⟩ e ⟨v, ph'⟩ ⟨hs, rfl⟩ ⟨ht, hf⟩
  obtain ⟨hm, hf'⟩ := hf.noted hs
  exact ⟨ht.step hm hs, hf'⟩

/-- What a call has selected stays noted: it selects nothing else. -/
theorem view_stays (hp : InPhase protocol (fun _ _ => True) ph s) (hr : Trace.Run (Step (act env)) s xs t)
    {w : Nat × Nat × ConversationView} (hw : (ph c).view = some w) : (xs.foldl (noted Heard.after) ph c).view = some w := by
  have hall := (kept_run Heard.after hr ph).preserves
    (I := fun u => InPhase protocol (fun _ _ => True) u.2 u.1 ∧ (u.2 c).view = some w) ?_ ⟨hp, hw⟩
  · exact hall.2
  · rintro ⟨u, ph⟩ e ⟨v, ph'⟩ ⟨hs, rfl⟩ ⟨hf, hw⟩
    obtain ⟨hm, hf'⟩ := hf.noted hs
    refine ⟨hf', ?_⟩
    rcases noted_or Heard.after ph e c with ⟨rfl, hn⟩ | ⟨-, hn⟩
    · change (noted Heard.after ph e e.client).view = some w
      rw [hn]
      rcases hq : selectedBy e.stmt e.reply with - | w'
      · rw [Heard.after, hq, Option.none_or]
        exact hw
      · obtain ⟨hstmt, -⟩ := act_selected (v := w'.2.2) hs.acted hq
        rw [hstmt] at hm
        have hnone := hm.1
        rw [hw] at hnone
        cases hnone
    · change (noted Heard.after ph e c).view = some w
      rw [hn]
      exact hw

theorem phase_run (hp : InPhase protocol (fun _ _ => True) ph s) (hr : Trace.Run (Step (act env)) s xs t) :
    InPhase protocol (fun _ _ => True) (xs.foldl (noted Heard.after) ph) t :=
  (kept_run Heard.after hr ph).preserves (I := fun u => InPhase protocol (fun _ _ => True) u.2 u.1)
    (fun u e v huv hu => by
      obtain ⟨-, hv⟩ := hu.noted huv.1
      rwa [← huv.2] at hv) hp

theorem Selected.noted (hp : InPhase protocol (fun _ _ => True) ph s) (hr : Trace.Run (Step (act env)) s xs t)
    (h : Selected xs c u id v) : (xs.foldl (Interleave.noted Heard.after) ph c).view = some (u, id, v) := by
  obtain ⟨e, he, rfl, hsel⟩ := h
  obtain ⟨ys, zs, rfl⟩ := List.append_of_mem he
  obtain ⟨s', hys, hrest⟩ := hr.split
  cases hrest with
  | step hs hzs =>
    obtain ⟨-, hphase⟩ := (phase_run hp hys).noted hs
    rw [List.foldl_append, List.foldl_cons]
    refine view_stays hphase hzs ?_
    rw [noted_self, Heard.after, hsel, Option.some_or]

/-- The room of a conversation that a call broadcasts to is that of the conversation that it has selected. -/
theorem Truth.emits (h : Truth d ph) (hm : (ph c).may (.emit (roomName (toString id)) "conversation.joined")) :
    ∃ u v, (ph c).view = some (u, id, v) ∧ Peers d id u v.peerUserId := by
  obtain ⟨u, id', v, hview, hroom⟩ := hm rfl
  obtain ⟨hpeers, hid⟩ := h.view c u id' v hview
  have heq : id = id' := by
    rcases hroom with hroom | hroom
    · exact roomName_inj hroom
    · rw [hid] at hroom
      exact roomName_inj hroom
  subst heq
  exact ⟨u, v, hview, hpeers⟩

end Truth

section Receivers
variable {env : Env} {req : Client → Request} {s t t' : State} {e : Taken} {xs : List Taken} {d : Db} {id u : Nat}
  {v : ConversationView}

theorem conversationJoined_peer : ((conversationJoined env v).field "data").bind (Payload.field "peer_user_id") =
    some (bigint v.peerUserId) := rfl

theorem conversationJoined_unread : ((conversationJoined env v).field "data").bind (Payload.field "unread_count") =
    some (.num v.unreadCount) := rfl

theorem bigint_injective {m n : Nat} (h : bigint m = bigint n) : m = n := by
  have hnumber := congrArg stringToNumber (Payload.str.inj h)
  rw [stringToNumber_toString, stringToNumber_toString, Option.some.injEq] at hnumber
  exact_mod_cast hnumber

theorem Peers.ne (hd : Conversations d) {peer : Nat} (h : Peers d id u peer) : u ≠ peer := by
  have hpair {a b : Nat} (hp : participants d id = some (a, b)) : a < b := by
    obtain ⟨row, hrow, heq⟩ := Option.map_eq_some_iff.mp hp
    have hlt := hd.ordered row (conversation_some hrow).1
    cases heq
    exact hlt
  rcases h with h | h
  · exact (hpair h).ne
  · exact (hpair h).ne'

/-- A payload that was selected for a user describes the view of every receiver exactly when all of them are
sockets of this user, and his unread messages are still those that were counted. -/
theorem describes_iff (hd : Conversations d) (hpeers : Peers d id u v.peerUserId)
    (hmembers : ∀ k ∈ d.room (roomName (toString id)), ∃ u', (d.sockets k).user = some u' ∧ TakesPart d id u') :
    Describes d id (conversationJoined env v) ↔ ∀ k, Receives d (roomName (toString id)) k →
      (d.sockets k).user = some u ∧ v.unreadCount = unreadCount d u id := by
  constructor
  · intro h k hk
    obtain ⟨u', huser, hpart⟩ := hmembers k hk.1
    obtain ⟨peer, -, hne, hpeer, hunread⟩ := h k u' hk huser
    have hsame := bigint_injective (Option.some.inj (conversationJoined_peer.symm.trans hpeer))
    have hu := hpeers.takesPart hpart
    obtain rfl : u' = u := by omega
    have hcount : Payload.num v.unreadCount = .num (unreadCount d u' id) :=
      Option.some.inj (conversationJoined_unread.symm.trans hunread)
    exact ⟨huser, by exact_mod_cast Payload.num.inj hcount⟩
  · intro h k u' hk huser
    obtain ⟨hu, hcount⟩ := h k hk
    obtain rfl : u' = u := Option.some.inj (huser.symm.trans hu)
    refine ⟨v.peerUserId, hpeers, Peers.ne hd hpeers, conversationJoined_peer, ?_⟩
    rw [conversationJoined_unread, hcount]

/-- A call that broadcasts `conversation.joined` has selected the conversation. -/
theorem emit_selected (hd : Conversations d) (hr : Trace.Run (Step (act env)) (initial env req d) xs t)
    (he : Step (act env) t e t') (hstmt : e.stmt = .emit (roomName (toString id)) "conversation.joined") :
    Conversations t.db ∧ ∃ u v, Selected xs e.client u id v ∧ Peers t.db id u v.peerUserId ∧
      ∀ u' id' v', Selected xs e.client u' id' v' → (u', id', v') = (u, id, v) := by
  have hstart : InPhase protocol (fun _ _ => True) (fun _ => {}) (initial env req d) := fun c => request_follows (req c)
  have htruth : Truth (initial env req d).db fun _ => {} := ⟨hd, nofun, nofun⟩
  obtain ⟨ht, hphase⟩ := htruth.run hstart hr
  obtain ⟨hm, -⟩ := hphase.noted he
  rw [hstmt] at hm
  obtain ⟨u, v, hview, hpeers⟩ := ht.emits hm
  refine ⟨ht.conversations, u, v, ?_, hpeers, fun u' id' v' hsel => ?_⟩
  · obtain ⟨ys, e', zs, -, -, rfl, -, -, -, hc, hsel⟩ :=
      noted_trace Heard.view selectedBy (fun _ _ _ => rfl) hr (by simp) hview
    exact ⟨e', by simp, hc, hsel⟩
  · exact Option.some.inj ((hsel.noted hstart hr).symm.trans hview)

end Receivers

section Fixtures

theorem quiet_conversations : Conversations quiet := ⟨List.nodup_nil, nofun, List.nodup_nil, nofun⟩

/-- A program is about to broadcast to a room. -/
def broadcasting (p : Prog Stmt Answer (Except Failure Payload)) (room event : String) : Bool :=
  match p with
  | .call (.emit room' event') _ => room' == room && event' == event
  | _ => false

theorem emit_step {t : State} {c : Client} {room event : String} (h : broadcasting (t.prog c) room event = true) :
    ∃ e t', Step (act openEnv) t e t' ∧ e.client = c ∧ e.stmt = .emit room event := by
  unfold broadcasting at h
  split at h
  · rename_i room' event' k hp
    obtain ⟨hroom, hevent⟩ := Bool.and_eq_true_iff.mp h
    obtain rfl := eq_of_beq hroom
    obtain rfl := eq_of_beq hevent
    exact ⟨_, _, .call (m := .run 0) hp rfl, rfl, rfl⟩
  · cases h

/-- The first user is connected, and opens a conversation with the second. -/
def alone : Client → Request
  | 0 => .connect (bearer "1")
  | _ => .createConversation 1 2 none

end Fixtures

end Kayan.Chat.Joined
