import Mathlib
import Kayan.Chat.Calls
import Kayan.Lib.Cursor
import Kayan.Listing.Pages

/-!
# Messages with a cursor

`ChatService.listMessages`, and a client that reads page after page with the `sent_at` of the last message
as the next cursor. A message is stored with its microseconds and shown without them.
-/
namespace Kayan.Listing
open Fk Payload Paging
open Chat (Conversation Message)
open Sessions (toPositiveInt)

section Service
variable (rd : Reader) (timestamptz : String → Option Nat) (s : Store)

def assertConversationParticipant (conversationId userId : Nat) : Except Failure Unit :=
  match s.conversations.find? fun c => c.id = conversationId with
  | none => .error (.notFound "Conversation not found")
  | some c =>
    match toPositiveInt (some (rd.bigint c.userAId)), toPositiveInt (some (rd.bigint c.userBId)) with
    | some userAId, some userBId =>
      if userAId ≠ userId ∧ userBId ≠ userId then .error (.forbidden "Not a participant of this conversation")
      else .ok ()
    | _, _ => .error (.notFound "Conversation participants are invalid")

def messagesOf (conversationId : Nat) : List Message := s.messages.filter fun m => m.conversationId = conversationId

def matchingMessages (conversationId : Nat) (before : Option Nat) : List Message :=
  (messagesOf s conversationId).filter fun m => before.all fun t => m.sentAt < t

/-- `normalizeMessageRow`. -/
def messageRow (m : Message) : Payload :=
  .obj
    [("id", rd.bigint m.id), ("conversation_id", rd.bigint m.conversationId), ("sender_id", rd.bigint m.senderId),
     ("message_text", .str m.text), ("sent_at", .str (rd.iso m.sentAt)), ("read_at", .ofText (m.readAt.map rd.iso))]

def listMessages (userId conversationId limit : Nat) (before : Option String)
    (scan : (before : Option Nat) → Scan (matchingMessages s conversationId before)) : Except Failure Payload := do
  assertConversationParticipant rd s conversationId userId
  let bound ← timestampParam timestamptz before
  let rows := ((scan bound).orderBy (descending fun m => m.sentAt)).take limit
  pure (.obj [("messages", .arr (rows.map (messageRow rd)))])

/-- The `sent_at` of the last message of a response. -/
def lastSentAt (response : Except Failure Payload) : Option String :=
  ((rowsUnder "messages" response).bind List.getLast?).bind fun row =>
    match field "sent_at" row with
    | some (.str text) => some text
    | _ => none

/-- The cursor of request `k`, for the orders in which the queries find their rows. -/
def beforeAt (userId conversationId limit : Nat)
    (scans : Nat → (before : Option Nat) → Scan (matchingMessages s conversationId before)) : Nat → Option String
  | 0 => none
  | k + 1 => lastSentAt (listMessages rd timestamptz s userId conversationId limit
      (beforeAt userId conversationId limit scans k) (scans k))

/-- Reading page after page gives each message of the conversation once. -/
def MessagesComplete (userId conversationId limit : Nat) : Prop :=
  ∀ scans : Nat → (before : Option Nat) → Scan (matchingMessages s conversationId before),
    ReadsAll "messages" (fun k => listMessages rd timestamptz s userId conversationId limit
        (beforeAt rd timestamptz s userId conversationId limit scans k) (scans k))
      ((messagesOf s conversationId).map (messageRow rd))

end Service

section Cursor

/-- A cursor holds the whole milliseconds of a message. -/
def messageCursor : Cursor Message Nat Natᵒᵈ where
  next m := m.sentAt / 1000 * 1000
  follows t m := m.sentAt < t
  coarse := descending fun m => m.sentAt / 1000
  follows_next last m := by
    simp only [decide_eq_true_eq, descending, OrderDual.toDual_lt_toDual]
    omega

theorem sentAt_coarse (a b : Message) (h : descending (fun m : Message => m.sentAt) a ≤ descending (fun m => m.sentAt) b) :
    messageCursor.coarse a ≤ messageCursor.coarse b :=
  OrderDual.toDual_le_toDual.mpr (Nat.div_le_div_right (OrderDual.toDual_le_toDual.mp h))

variable {rd : Reader} {timestamptz : String → Option Nat} {s : Store} {userId conversationId limit : Nat}
  (hiso : ∀ m ∈ s.messages, timestamptz (rd.iso m.sentAt) = some (m.sentAt / 1000 * 1000))
  (hjoined : assertConversationParticipant rd s conversationId userId = .ok ())
  (scans : Scans messageCursor (messagesOf s conversationId))

/-- The rows that request `k` returns. -/
abbrev pageRows (limit : Nat) (scans : Scans messageCursor (messagesOf s conversationId)) (k : Nat) : List Message :=
  cursorPages messageCursor (descending fun m => m.sentAt) limit scans k

include hjoined in
theorem listMessages_page {k : Nat} {before : Option String}
    (hbefore : timestampParam timestamptz before =
      .ok (cursorAt messageCursor (descending fun m => m.sentAt) limit scans k)) :
    listMessages rd timestamptz s userId conversationId limit before (scans k) =
      .ok (.obj [("messages", .arr ((pageRows limit scans k).map (messageRow rd)))]) := by
  unfold listMessages
  rw [hjoined, hbefore]
  rfl

include hiso hjoined

theorem readBefore_at (k : Nat) :
    timestampParam timestamptz (beforeAt rd timestamptz s userId conversationId limit scans k) =
      .ok (cursorAt messageCursor (descending fun m => m.sentAt) limit scans k) := by
  induction k with
  | zero => rfl
  | succ k ih =>
    have hlast : beforeAt rd timestamptz s userId conversationId limit scans (k + 1) =
        (pageRows limit scans k).getLast?.map fun m => rd.iso m.sentAt := by
      change lastSentAt (listMessages rd timestamptz s userId conversationId limit _ (scans k)) = _
      rw [listMessages_page hjoined scans ih]
      change (((pageRows limit scans k).map (messageRow rd)).getLast?).bind _ = _
      rw [List.getLast?_map]
      cases (pageRows limit scans k).getLast? <;> rfl
    rw [hlast]
    cases h : (pageRows limit scans k).getLast? with
    | none =>
      rw [cursorAt]
      exact congrArg Except.ok (congrArg (Option.map messageCursor.next) h).symm
    | some m =>
      have hmem : m ∈ s.messages := by
        have hpage := List.mem_of_mem_take (List.mem_of_getLast? h)
        exact List.mem_of_mem_filter (List.mem_of_mem_filter (((scans k _).orderBy_perm _).mem_iff.mp hpage))
      rw [cursorAt_succ h, Option.map_some, timestampParam, hiso m hmem]
      rfl

/-- Reading page after page gives each message once exactly when no page ends between two messages
of one millisecond. -/
theorem messages_complete_iff (hid : Function.Injective rd.bigintText) (hlimit : 0 < limit) :
    MessagesComplete rd timestamptz s userId conversationId limit ↔
      Unsplit (descending fun m : Message => m.sentAt / 1000) limit (messagesOf s conversationId) := by
  have hnodup : ((messagesOf s conversationId).map (messageRow rd)).Nodup :=
    items_nodup (filter_keyed s.messagesKeyed _) (bigint_injective rd hid) fun _ => rfl
  have hpages (scans : Scans messageCursor (messagesOf s conversationId)) :
      ReadsAll "messages" (fun k => listMessages rd timestamptz s userId conversationId limit
          (beforeAt rd timestamptz s userId conversationId limit scans k) (scans k))
          ((messagesOf s conversationId).map (messageRow rd)) ↔
        Unsplit messageCursor.coarse limit (messagesOf s conversationId) := by
    rw [← cursor_complete_iff sentAt_coarse (messageRow rd) hlimit hnodup scans]
    refine readsAll_iff fun k => ?_
    rw [listMessages_page hjoined scans (readBefore_at hiso hjoined scans k)]
    rfl
  constructor
  · intro h
    exact (hpages fun _ before => ⟨_, .refl _⟩).mp (h fun _ before => ⟨_, .refl _⟩)
  · intro h scans
    exact (hpages scans).mpr h

end Cursor

section Replies

/-- Two messages of one millisecond, and one of a later second. -/
def question : Message := { id := 1, conversationId := 1, senderId := 1, text := "Still there?", sentAt := 5000100 }

def answer : Message := { id := 2, conversationId := 1, senderId := 2, text := "Yes", sentAt := 5000900 }

def thanks : Message := { id := 3, conversationId := 1, senderId := 1, text := "Thanks", sentAt := 7250000 }

theorem both_keyed : ([mona, ali].map (·.id)).Nodup := by decide

theorem noProducts_keyed : (([] : List Product).map (·.id)).Nodup := by decide

def quickReplies : Store where
  users := [mona, ali]
  conversations := [{ id := 1, userAId := 1, userBId := 2, createdAt := 0 }]
  messages := [question, answer, thanks]
  usersKeyed := both_keyed
  productsKeyed := noProducts_keyed

/-- The driver and the database, for the times of these messages. -/
def quickReader : Reader :=
  { textReader with iso := fun t => if t / 1000 = 5000 then "1970-01-01T00:00:05.000Z" else "1970-01-01T00:00:07.250Z" }

def quickTime (text : String) : Option Nat :=
  if text = "1970-01-01T00:00:05.000Z" then some 5000000
  else if text = "1970-01-01T00:00:07.250Z" then some 7250000
  else none

theorem quickTime_iso : ∀ m ∈ quickReplies.messages, quickTime (quickReader.iso m.sentAt) = some (m.sentAt / 1000 * 1000) := by
  intro m hm
  simp only [quickReplies, List.mem_cons, List.not_mem_nil, or_false] at hm
  obtain rfl | rfl | rfl := hm <;> rfl

theorem mona_joined : assertConversationParticipant quickReader quickReplies 1 1 = .ok () := by
  have hone : toPositiveInt (some (quickReader.bigint 1)) = some 1 := Chat.bigint_toPositiveInt (by decide)
  have htwo : toPositiveInt (some (quickReader.bigint 2)) = some 2 := Chat.bigint_toPositiveInt (by decide)
  simp [assertConversationParticipant, quickReplies, hone, htwo]

theorem messages_complete_replies : MessagesComplete quickReader quickTime quickReplies 1 1 3 := by
  rw [messages_complete_iff quickTime_iso mona_joined (fun _ _ => Nat.repr_injective) (by decide)]
  intro k m hm
  have hgroup : upto (descending fun m : Message => m.sentAt / 1000) (messagesOf quickReplies 1) m ≤ 3 :=
    List.countP_le_length
  omega

/-- With one message a page, the cursor after "Yes" passes over the question of that millisecond. -/
theorem question_lost : ¬ MessagesComplete quickReader quickTime quickReplies 1 1 1 := by
  intro h
  let scans : Scans messageCursor (messagesOf quickReplies 1) := fun _ before => ⟨_, .refl _⟩
  obtain ⟨pages, hpages, out, hwalk, hout⟩ := h scans
  have hrows (k : Nat) : pages k = (pageRows 1 scans k).map (messageRow quickReader) := by
    have hresponse : listMessages quickReader quickTime quickReplies 1 1 1 _ (scans k) =
        .ok (.obj [("messages", .arr ((pageRows 1 scans k).map (messageRow quickReader)))]) :=
      listMessages_page mona_joined scans (readBefore_at quickTime_iso mona_joined scans k)
    exact Option.some_inj.mp ((hpages k).symm.trans (congrArg (rowsUnder "messages") hresponse))
  have hread : Walk pages [messageRow quickReader thanks, messageRow quickReader answer] := by
    have h0 : pages 0 = [messageRow quickReader thanks] := hrows 0
    have h1 : pages 1 = [messageRow quickReader answer] := hrows 1
    have h2 : pages 2 = [] := hrows 2
    refine ⟨2, h2, fun k hk => ?_, ?_⟩
    · obtain rfl | rfl : k = 0 ∨ k = 1 := by omega
      · simp [h0]
      · simp [h1]
    · change _ = pages 0 ++ (pages 1 ++ [])
      rw [h0, h1]
      rfl
  rw [hwalk.unique hread] at hout
  exact absurd hout.length_eq (by decide)

end Replies

end Kayan.Listing
