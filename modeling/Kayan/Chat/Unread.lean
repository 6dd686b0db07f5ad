import Kayan.Chat.Rooms

/-!
# Unread counts

Calls of `sendMessage` and `markRead` by any users, in any interleaving of their statements. A message
that a call inserts is unread until a call of its recipient marks it, and stays read from then on.
-/
namespace Kayan.Chat.Unread
open Interleave
open Sessions (toPositiveInt)

section Runs

inductive Call where
  | sendMessage (userId conversationId : Nat) (text : String)
  | markRead (userId messageId : Nat)

def Call.code : Call → Code Message
  | .sendMessage userId conversationId text => Chat.sendMessage userId conversationId text
  | .markRead userId messageId => Chat.markRead userId messageId

/-- The store, and what is left of each client's call. -/
abbrev Calls := Config Client Stmt Answer (Except Failure Message) Db

/-- Every client has its call still to run. -/
def start (call : Client → Call) (d : Db) : Calls := ⟨d, fun c => (call c).code.run⟩

/-- A call of the user has marked the message, and has returned. -/
def Marked (call : Client → Call) (s : Calls) (userId messageId : Nat) : Prop :=
  ∃ c, call c = .markRead userId messageId ∧ ∃ m, s.prog c = .ret (.ok m)

/-- `COUNT(*)` of the messages that are unread for a user. -/
def unreadCount (d : Db) (userId id : Nat) : Nat :=
  d.messages.rows.countP fun m => m.conversationId = id ∧ m.senderId ≠ userId ∧ m.readAt.isNone

/-- The two users of a conversation. -/
def participants (d : Db) (id : Nat) : Option (Nat × Nat) := (d.conversation id).map fun row => (row.userAId, row.userBId)

/-- The user takes part in a conversation with the peer. -/
def Peers (d : Db) (id userId peer : Nat) : Prop :=
  participants d id = some (userId, peer) ∨ participants d id = some (peer, userId)

open Classical in
/-- The messages of the peer that no successful call of the user has marked. -/
noncomputable def unmarked (call : Client → Call) (s : Calls) (id userId peer : Nat) : Nat :=
  s.db.messages.rows.countP fun m => m.conversationId = id ∧ m.senderId = peer ∧ ¬ Marked call s userId m.id

theorem conversationView_unread {d : Db} {userId id : Nat} {v : ConversationView}
    (h : d.conversationView userId id = some v) : v.unreadCount = unreadCount d userId id := by
  unfold Db.conversationView at h
  split at h
  · cases h
  · dsimp only at h
    rw [Option.ite_none_right_eq_some] at h
    rw [← Option.some.inj h.2]
    rfl

end Runs

section Notes

/-- What a call has seen. -/
structure Glance where
  call : Call
  message : Option (Nat × Message) := none
  row : Option (Nat × Payload × Payload) := none
  marked : Option Message := none

namespace Glance

def after (x : Glance) : (q : Stmt) → Answer q → Glance
  | .selectMessage i, .ok m => { x with message := (m : Option Message).map fun m => (i, m) }
  | .selectParticipants id, .ok row => { x with row := (row : Option (Payload × Payload)).map fun r => (id, r) }
  | .updateRead _, .ok m => { x with marked := (m : Option Message) }
  | _, _ => x

/-- The conversation that was looked up has this participant. -/
def participant (x : Glance) (conversationId userId : Nat) : Prop :=
  ∃ a b, x.row = some (conversationId, a, b) ∧
    (toPositiveInt (some a) = some userId ∨ toPositiveInt (some b) = some userId)

/-- Which statements a call may issue. A message is marked last. -/
def may (x : Glance) (q : Stmt) : Prop :=
  x.marked = none ∧
    match q with
    | .selectMessage _ | .selectParticipants _ | .updateLastMessage _ _ => True
    | .insertMessage conversationId userId text => x.call = .sendMessage userId conversationId text ∧
        x.participant conversationId userId
    | .updateRead i => ∃ userId m, x.call = .markRead userId i ∧ x.message = some (i, m) ∧ m.senderId ≠ userId ∧
        x.participant m.conversationId userId
    | _ => False

end Glance

/-- The protocol of the calls. -/
abbrev protocol : Protocol Stmt Answer Glance := monitored Glance.may Glance.after

/-- `markRead` returns the message that it has marked. -/
def ends (r : Except Failure Message) (x : Glance) : Prop :=
  match x.call with
  | .sendMessage _ _ _ => x.marked = none
  | .markRead _ _ => ∀ m, r = .ok m ↔ x.marked = some m

variable {x : Glance} {α : Type} {E : Glance → Prop} {conversationId userId : Nat}

theorem keeps_query {q : Stmt} {Q : Reply q → Glance → Prop} (hm : x.may q) (h : ∀ r, outcome Q E r (x.after q r)) :
    Keeps protocol x (query q) Q E :=
  Keeps.await fun r => ⟨x.after q r, ⟨hm, rfl⟩, h r⟩

/-- Who passes takes part in the conversation, and the notes on the message stay. -/
theorem assertConversationParticipant_keeps (hx : x.marked = none) :
    Keeps protocol x (assertConversationParticipant conversationId userId)
      (fun _ y => y.participant conversationId userId ∧ ∃ row, y = { x with row := row }) fun y => ∃ row, y = { x with row := row } := by
  refine Keeps.bind (Q := fun row y => y = { x with row := row.map fun r => (conversationId, r) })
    (keeps_query ⟨hx, trivial⟩ fun r => ?_) fun row y hy => ?_
  · cases r with
    | ok row => rfl
    | error e => exact ⟨x.row, rfl⟩
  · subst hy
    rcases row with - | ⟨a, b⟩
    · exact Keeps.throw ⟨_, rfl⟩
    · dsimp only
      split
      · rename_i userAId userBId ha hb
        split
        · exact Keeps.throw ⟨_, rfl⟩
        · rename_i hne
          refine Keeps.pure ⟨⟨a, b, rfl, ?_⟩, _, rfl⟩
          rw [ha, hb, Option.some.injEq, Option.some.injEq]
          omega
      · exact Keeps.throw ⟨_, rfl⟩

theorem sendMessage_keeps {text : String} (hcall : x.call = .sendMessage userId conversationId text) (hx : x.marked = none) :
    Keeps protocol x (sendMessage userId conversationId text) (fun _ y => y.marked = none ∧ y.call = x.call)
      fun y => y.marked = none ∧ y.call = x.call := by
  have hend {row : Option (Nat × Payload × Payload)} :
      ({ x with row := row } : Glance).marked = none ∧ ({ x with row := row } : Glance).call = x.call := ⟨hx, rfl⟩
  refine Keeps.bind (Keeps.mono (assertConversationParticipant_keeps hx) (fun _ _ h => h) ?_) fun _ y hy => ?_
  · rintro y ⟨row, rfl⟩
    exact hend
  obtain ⟨hp, row, rfl⟩ := hy
  refine Keeps.bind (Q := fun _ y => y = { x with row := row }) ?_ fun m y hy => ?_
  · refine Keeps.catch (E := fun y => y = { x with row := row }) (keeps_query ⟨hx, hcall, hp⟩ fun r => ?_) fun e y hy => ?_
    · cases r <;> rfl
    · subst hy
      split <;> exact Keeps.throw hend
  · subst hy
    refine Keeps.bind (Q := fun _ y => y = { x with row := row }) (keeps_query ⟨hx, trivial⟩ fun r => ?_) fun _ y hy => ?_
    · cases r with
      | ok v => rfl
      | error e => exact hend
    · subst hy
      exact Keeps.pure hend

/-- A message is marked by a participant who has not sent it. -/
theorem markRead_keeps {messageId : Nat} (hcall : x.call = .markRead userId messageId) (hx : x.marked = none) :
    Keeps protocol x (markRead userId messageId) (fun m y => y.call = x.call ∧ y.marked = some m)
      fun y => y.call = x.call ∧ y.marked = none := by
  refine Keeps.bind (Q := fun m y => y = { x with message := m.map fun m => (messageId, m) })
    (keeps_query ⟨hx, trivial⟩ fun r => ?_) fun message y hy => ?_
  · cases r with
    | ok m => rfl
    | error e => exact ⟨rfl, hx⟩
  subst hy
  rcases message with - | message
  · exact Keeps.throw ⟨rfl, hx⟩
  dsimp only
  split
  · rename_i id senderId hc hs
    obtain rfl := bigint_id hc
    obtain rfl := bigint_id hs
    refine Keeps.bind (Keeps.mono (assertConversationParticipant_keeps hx) (fun _ _ h => h) ?_) fun _ y hy => ?_
    · rintro y ⟨row, rfl⟩
      exact ⟨rfl, hx⟩
    obtain ⟨hp, row, rfl⟩ := hy
    split
    · exact Keeps.throw ⟨rfl, hx⟩
    · rename_i hne
      refine Keeps.bind (Q := fun updated y => y.call = x.call ∧ y.marked = updated)
        (keeps_query ⟨hx, userId, message, hcall, rfl, hne, hp⟩ fun r => ?_) fun updated y hy => ?_
      · cases r with
        | ok updated => exact ⟨rfl, rfl⟩
        | error e => exact ⟨rfl, hx⟩
      · rcases updated with - | updated
        · exact Keeps.throw hy
        · exact Keeps.pure hy
  · exact Keeps.throw ⟨rfl, hx⟩

/-- Every call keeps to the protocol. -/
theorem code_follows (call : Call) : Follows protocol ends call.code.run { call } := by
  cases call with
  | sendMessage userId conversationId text =>
    refine Follows.mono (sendMessage_keeps (x := { call := .sendMessage userId conversationId text }) rfl rfl)
      fun r y hr => ?_
    obtain ⟨hmarked, hcall⟩ : y.marked = none ∧ y.call = _ := by cases r <;> exact hr
    unfold ends
    rw [hcall]
    exact hmarked
  | markRead userId messageId =>
    refine Follows.mono (markRead_keeps (x := { call := .markRead userId messageId }) rfl rfl) fun r y hr => ?_
    cases r with
    | ok m =>
      obtain ⟨hcall, hmarked⟩ := hr
      unfold ends
      rw [hcall]
      intro m'
      rw [hmarked, Except.ok.injEq, Option.some.injEq]
    | error e =>
      obtain ⟨hcall, hmarked⟩ := hr
      unfold ends
      rw [hcall]
      intro m'
      simp [hmarked]

theorem start_follows (call : Client → Call) (d : Db) :
    InPhase protocol ends (fun c => { call := call c }) (start call d) :=
  fun c => code_follows (call c)

end Notes

section Effects
variable {env : Env} {m : Move} {c : Client} {q : Stmt} {d d' : Db} {r : Answer q}

/-- `read_at = COALESCE(read_at, NOW())`. -/
def mark (time : Nat) (m : Message) : Message := { m with readAt := m.readAt.or (some time) }

theorem mark_read {time : Nat} {m : Message} (h : m.readAt.isSome) : mark time m = m := by
  obtain ⟨t, ht⟩ := Option.isSome_iff_exists.mp h
  rw [mark, ht, Option.some_or, ← ht]

/-- What the statements of the calls do to the messages. -/
inductive Effect (d d' : Db) : (q : Stmt) → Answer q → Prop
  | failed {q : Stmt} {e : PgError} (hrows : d'.messages.rows = d.messages.rows)
      (hnext : d.messages.next ≤ d'.messages.next) : Effect d d' q (.error e)
  | selectMessage {i : Nat} (hd : d'.messages = d.messages) : Effect d d' (.selectMessage i) (.ok (d.message i))
  | selectParticipants {id : Nat} (hd : d'.messages = d.messages) :
      Effect d d' (.selectParticipants id) (.ok ((participants d id).map fun p => (bigint p.1, bigint p.2)))
  | updateLastMessage {i id : Nat} (hd : d'.messages = d.messages) : Effect d d' (.updateLastMessage i id) (.ok ())
  | insertMessage {id userId : Nat} {text : String} {row : Message} (hid : row.id = d.messages.next)
      (hconversation : row.conversationId = id) (hsender : row.senderId = userId) (hunread : row.readAt = none)
      (hd : d'.messages = ⟨d.messages.rows ++ [row], d.messages.next + 1⟩) :
      Effect d d' (.insertMessage id userId text) (.ok row)
  | updateRead {i time : Nat}
      (hd : d'.messages = ⟨d.messages.rows.map fun m => if m.id = i then mark time m else m, d.messages.next⟩) :
      Effect d d' (.updateRead i) (.ok ((d.message i).map (mark time)))

theorem act_effect {x : Glance} (hm : x.may q) (h : act env m c q d = some (r, d')) : Effect d d' q r := by
  cases m with
  | fail e =>
    obtain ⟨-, rfl, rfl⟩ := act_fail h
    exact .failed rfl le_rfl
  | run wait =>
    cases q with
    | selectMessage i =>
      cases h
      exact .selectMessage rfl
    | selectParticipants id =>
      simp only [act, exec, Option.some.injEq, Prod.mk.injEq] at h
      obtain ⟨rfl, rfl⟩ := h
      have hrow : Effect d { d with clock := d.clock + wait } (.selectParticipants id) _ := .selectParticipants rfl
      rwa [participants, Option.map_map] at hrow
    | updateLastMessage i id =>
      cases h
      exact .updateLastMessage rfl
    | insertMessage id userId text =>
      simp only [act, exec] at h
      split at h
      on_goal 2 => split at h
      case isFalse.isFalse =>
        cases h
        exact .insertMessage rfl rfl rfl rfl rfl
      all_goals
        cases h
        exact .failed rfl (Nat.le_succ _)
    | updateRead i =>
      cases h
      exact .updateRead rfl
    | _ => exact hm.2.elim

theorem act_participants {x : Glance} (hm : x.may q) (h : act env m c q d = some (r, d')) (id : Nat) :
    participants d' id = participants d id := by
  cases m with
  | fail e =>
    obtain ⟨-, -, rfl⟩ := act_fail h
    rfl
  | run wait =>
    cases q with
    | selectMessage | selectParticipants | updateRead =>
      cases h
      rfl
    | insertMessage =>
      simp only [act, exec] at h
      repeat' split at h
      all_goals
        cases h
        rfl
    | updateLastMessage i conversationId =>
      cases h
      have hid : ((fun row : Conversation => decide (row.id = id)) ∘ fun row =>
          if row.id = conversationId then { row with lastMessageId := some i } else row) = fun row => decide (row.id = id) := by
        funext row
        rw [Function.comp_apply]
        split <;> rfl
      have husers : ((fun row : Conversation => (row.userAId, row.userBId)) ∘ fun row =>
          if row.id = conversationId then { row with lastMessageId := some i } else row) =
            fun row => (row.userAId, row.userBId) := by
        funext row
        rw [Function.comp_apply]
        split <;> rfl
      simp only [participants, Db.conversation, Db.updateConversation, List.find?_map, hid, Option.map_map, husers]
    | _ => exact hm.2.elim

/-- A message keeps what the calls do not write, and one that is read stays as it is. -/
theorem Effect.carries (h : Effect d d' q r) {m : Message} (hm : m ∈ d.messages.rows) :
    ∃ m' ∈ d'.messages.rows, m'.id = m.id ∧ m'.conversationId = m.conversationId ∧ m'.senderId = m.senderId ∧
      (m.readAt.isSome → m' = m) := by
  cases h with
  | failed hrows => exact ⟨m, hrows ▸ hm, rfl, rfl, rfl, fun _ => rfl⟩
  | selectMessage hd | selectParticipants hd | updateLastMessage hd => exact ⟨m, hd ▸ hm, rfl, rfl, rfl, fun _ => rfl⟩
  | insertMessage _ _ _ _ hd =>
    rw [hd]
    exact ⟨m, List.mem_append_left _ hm, rfl, rfl, rfl, fun _ => rfl⟩
  | @updateRead i time hd =>
    rw [hd]
    refine ⟨_, List.mem_map_of_mem hm, ?_⟩
    split
    · exact ⟨rfl, rfl, rfl, mark_read⟩
    · exact ⟨rfl, rfl, rfl, fun _ => rfl⟩

end Effects

section Invariant
variable {env : Env} {call : Client → Call} {s t : Calls} {e : Taken} {xs : List Taken} {ph : Client → Glance} {d : Db}

/-- A participant of a conversation. -/
def TakesPart (d : Db) (id userId : Nat) : Prop := ∃ a b, participants d id = some (a, b) ∧ (userId = a ∨ userId = b)

/-- The messages, and what the calls have noted of them. -/
structure Told (d : Db) (ph : Client → Glance) : Prop where
  keyed : (d.messages.rows.map (·.id)).Nodup
  fresh : ∀ m ∈ d.messages.rows, m.id < d.messages.next
  sender : ∀ m ∈ d.messages.rows, TakesPart d m.conversationId m.senderId
  read : ∀ m ∈ d.messages.rows,
    m.readAt.isSome ↔ ∃ c u, (ph c).call = .markRead u m.id ∧ (ph c).marked.isSome
  seen : ∀ c i m, (ph c).message = some (i, m) → ∃ m' ∈ d.messages.rows, m'.id = i ∧
    m'.conversationId = m.conversationId ∧ m'.senderId = m.senderId
  users : ∀ c id a b, (ph c).row = some (id, a, b) → ∃ userAId userBId,
    participants d id = some (userAId, userBId) ∧ a = bigint userAId ∧ b = bigint userBId
  marked : ∀ c u i m, (ph c).call = .markRead u i → (ph c).marked = some m → m ∈ d.messages.rows ∧ m.id = i ∧
    m.readAt.isSome ∧ m.senderId ≠ u ∧ TakesPart d m.conversationId u

/-- Whoever a call has found to be a participant is one. -/
theorem Told.takesPart (h : Told d ph) {c : Client} {id u : Nat} (hp : (ph c).participant id u) : TakesPart d id u := by
  obtain ⟨a, b, hrow, hu⟩ := hp
  obtain ⟨userAId, userBId, hpart, rfl, rfl⟩ := h.users c id a b hrow
  exact ⟨userAId, userBId, hpart, hu.imp bigint_id bigint_id⟩

theorem Told.unique (h : Told d ph) {m m' : Message} (hm : m ∈ d.messages.rows) (hm' : m' ∈ d.messages.rows)
    (hid : m.id = m'.id) : m = m' :=
  List.inj_on_of_nodup_map h.keyed hm hm' hid

theorem TakesPart.of_eq {d d' : Db} (h : ∀ id, participants d' id = participants d id) {id u : Nat} :
    TakesPart d' id u ↔ TakesPart d id u := by
  unfold TakesPart
  rw [h id]

/-- A field that the new notes of a client leave alone. -/
theorem update_field {β : Type} (f : Glance → β) {c : Client} {y : Glance} (h : f y = f (ph c)) (b : Client) :
    f (Function.update ph c y b) = f (ph b) := by
  by_cases hb : b = c
  · subst hb
    rw [Function.update_self, h]
  · rw [Function.update_of_ne hb]

variable {d' : Db} {c : Client} {x : Glance} {i time : Nat}

theorem Told.same (h : Told d ph) (hrows : d'.messages.rows = d.messages.rows)
    (hnext : d.messages.next ≤ d'.messages.next) (hparts : ∀ id, participants d' id = participants d id) :
    Told d' ph where
  keyed := hrows ▸ h.keyed
  fresh m hm := Nat.lt_of_lt_of_le (h.fresh m (hrows ▸ hm)) hnext
  sender m hm := (TakesPart.of_eq hparts).mpr (h.sender m (hrows ▸ hm))
  read m hm := h.read m (hrows ▸ hm)
  seen b i m hb := hrows ▸ h.seen b i m hb
  users b id a a' hb := hparts id ▸ h.users b id a a' hb
  marked b u i m hcall hb := by
    obtain ⟨hm, hid, hread, hne, hpart⟩ := h.marked b u i m hcall hb
    exact ⟨hrows ▸ hm, hid, hread, hne, (TakesPart.of_eq hparts).mpr hpart⟩

/-- A call notes what it has read. -/
theorem Told.note (h : Told d ph) {y : Glance} (hcall : y.call = (ph c).call) (hmarked : y.marked = (ph c).marked)
    (hmessage : ∀ i m, y.message = some (i, m) → ∃ m' ∈ d.messages.rows, m'.id = i ∧
      m'.conversationId = m.conversationId ∧ m'.senderId = m.senderId)
    (hrow : ∀ id a b, y.row = some (id, a, b) → ∃ userAId userBId,
      participants d id = some (userAId, userBId) ∧ a = bigint userAId ∧ b = bigint userBId) :
    Told d (Function.update ph c y) where
  keyed := h.keyed
  fresh := h.fresh
  sender := h.sender
  read m hm := by
    simp only [update_field Glance.call hcall, update_field Glance.marked hmarked]
    exact h.read m hm
  seen b i m hb := by
    by_cases hbc : b = c
    · subst hbc
      rw [Function.update_self] at hb
      exact hmessage i m hb
    · rw [Function.update_of_ne hbc] at hb
      exact h.seen b i m hb
  users b id a a' hb := by
    by_cases hbc : b = c
    · subst hbc
      rw [Function.update_self] at hb
      exact hrow id a a' hb
    · rw [Function.update_of_ne hbc] at hb
      exact h.users b id a a' hb
  marked b u i m hb hb' := by
    rw [update_field Glance.call hcall] at hb
    rw [update_field Glance.marked hmarked] at hb'
    exact h.marked b u i m hb hb'

/-- A participant inserts a message. -/
theorem Told.insert (h : Told d ph) {row : Message} (hid : row.id = d.messages.next) (hunread : row.readAt = none)
    (hsender : TakesPart d row.conversationId row.senderId)
    (hd : d'.messages = ⟨d.messages.rows ++ [row], d.messages.next + 1⟩)
    (hparts : ∀ id, participants d' id = participants d id) : Told d' ph where
  keyed := by
    rw [hd, List.map_append, List.nodup_append]
    refine ⟨h.keyed, by simp, fun j hj k hk => ?_⟩
    obtain ⟨m, hm, rfl⟩ := List.mem_map.mp hj
    have hlt := h.fresh m hm
    simp only [List.map_cons, List.map_nil, List.mem_cons, List.not_mem_nil, or_false] at hk
    omega
  fresh m hm := by
    rw [hd] at hm ⊢
    rcases List.mem_append.mp hm with hm | hm
    · exact Nat.lt_succ_of_lt (h.fresh m hm)
    · rw [List.mem_singleton.mp hm, hid]
      exact Nat.lt_succ_self _
  sender m hm := by
    rw [hd] at hm
    rw [TakesPart.of_eq hparts]
    rcases List.mem_append.mp hm with hm | hm
    · exact h.sender m hm
    · rw [List.mem_singleton.mp hm]
      exact hsender
  read m hm := by
    rw [hd] at hm
    rcases List.mem_append.mp hm with hm | hm
    · exact h.read m hm
    · rw [List.mem_singleton.mp hm, hunread]
      refine iff_of_false (by simp) ?_
      rintro ⟨b, u, hcall, hmarked⟩
      obtain ⟨m', hm'⟩ := Option.isSome_iff_exists.mp hmarked
      obtain ⟨hmem, hid', -⟩ := h.marked b u row.id m' hcall hm'
      have hlt := h.fresh m' hmem
      omega
  seen b j m hb := by
    obtain ⟨m', hm', hrest⟩ := h.seen b j m hb
    rw [hd]
    exact ⟨m', List.mem_append_left _ hm', hrest⟩
  users b id a a' hb := hparts id ▸ h.users b id a a' hb
  marked b u j m hcall hb := by
    obtain ⟨hm, hrest⟩ := h.marked b u j m hcall hb
    rw [hd, TakesPart.of_eq hparts]
    exact ⟨List.mem_append_left _ hm, hrest⟩

/-- A participant marks a message of the other. -/
theorem Told.mark (h : Told d ph) {y : Glance} {u : Nat} (hmarks : y.marked = (d.message i).map (Unread.mark time))
    (hsame : y.call = (ph c).call ∧ y.message = (ph c).message ∧ y.row = (ph c).row) (hcall : (ph c).call = .markRead u i) (hunmarked : (ph c).marked = none)
    (hsender : ∀ m ∈ d.messages.rows, m.id = i → m.senderId ≠ u ∧ TakesPart d m.conversationId u)
    (hd : d'.messages = ⟨d.messages.rows.map fun m => if m.id = i then Unread.mark time m else m, d.messages.next⟩)
    (hparts : ∀ id, participants d' id = participants d id) : Told d' (Function.update ph c y) where
  keyed := by
    have hids : (fun m : Message => (if m.id = i then Unread.mark time m else m).id) = fun m => m.id := by
      funext m
      split <;> rfl
    rw [hd, List.map_map]
    exact (congrArg (fun f => (d.messages.rows.map f).Nodup) hids).mpr h.keyed
  fresh m hm := by
    rw [hd] at hm ⊢
    obtain ⟨m', hm', rfl⟩ := List.mem_map.mp hm
    have hlt := h.fresh m' hm'
    split <;> exact hlt
  sender m hm := by
    rw [hd] at hm
    obtain ⟨m', hm', rfl⟩ := List.mem_map.mp hm
    have hold := (TakesPart.of_eq hparts).mpr (h.sender m' hm')
    split <;> exact hold
  read m hm := by
    rw [hd] at hm
    obtain ⟨m', hm', rfl⟩ := List.mem_map.mp hm
    simp only [update_field Glance.call hsame.1]
    by_cases hid : m'.id = i
    · subst hid
      rw [if_pos rfl]
      refine iff_of_true (by simp [Unread.mark]) ⟨c, u, hcall, ?_⟩
      rw [Function.update_self, hmarks, Option.isSome_map, Db.message, List.find?_isSome]
      exact ⟨m', hm', by simp⟩
    · rw [if_neg hid, h.read m' hm']
      have hother {b : Client} {u' : Nat} (hb : (ph b).call = .markRead u' m'.id) : b ≠ c := by
        rintro rfl
        rw [hcall] at hb
        cases hb
        exact hid rfl
      constructor
      · rintro ⟨b, u', hb, hmarked⟩
        exact ⟨b, u', hb, by rwa [Function.update_of_ne (hother hb)]⟩
      · rintro ⟨b, u', hb, hmarked⟩
        exact ⟨b, u', hb, by rwa [Function.update_of_ne (hother hb)] at hmarked⟩
  seen b j m hb := by
    rw [update_field Glance.message hsame.2.1] at hb
    obtain ⟨m', hm', hrest⟩ := h.seen b j m hb
    rw [hd]
    refine ⟨_, List.mem_map_of_mem hm', ?_⟩
    split <;> exact hrest
  users b id a a' hb := by
    rw [update_field Glance.row hsame.2.2] at hb
    exact hparts id ▸ h.users b id a a' hb
  marked b u' j m hb hb' := by
    rw [update_field Glance.call hsame.1] at hb
    by_cases hbc : b = c
    · subst hbc
      rw [Function.update_self, hmarks] at hb'
      obtain ⟨m', hm', rfl⟩ := Option.map_eq_some_iff.mp hb'
      rw [hcall] at hb
      cases hb
      have hmem := List.mem_of_find?_eq_some hm'
      have hid : m'.id = i := by simpa using List.find?_some hm'
      obtain ⟨hne, hpart⟩ := hsender m' hmem hid
      refine ⟨?_, hid, by simp [Unread.mark], hne, (TakesPart.of_eq hparts).mpr hpart⟩
      rw [hd]
      exact List.mem_map.mpr ⟨m', hmem, if_pos hid⟩
    · rw [Function.update_of_ne hbc] at hb'
      obtain ⟨hm, hid, hread, hne, hpart⟩ := h.marked b u' j m hb hb'
      refine ⟨?_, hid, hread, hne, (TakesPart.of_eq hparts).mpr hpart⟩
      rw [hd]
      refine List.mem_map.mpr ⟨m, hm, ?_⟩
      split
      · exact mark_read hread
      · rfl

theorem Told.step (h : Told s.db ph) (hm : (ph e.client).may e.stmt) (hs : Step (act env) s e t) :
    Told t.db (noted Glance.after ph e) := by
  have ha := hs.acted
  obtain ⟨c, move, q, r⟩ := e
  have heffect : Effect s.db t.db q r := act_effect hm ha
  have hparts := act_participants hm ha
  change Told t.db (Function.update ph c ((ph c).after q r))
  cases heffect with
  | @failed _ e hrows hnext =>
    have hafter : (ph c).after q (.error e) = ph c := by cases q <;> rfl
    rw [hafter, Function.update_eq_self]
    exact h.same hrows hnext hparts
  | @selectMessage i hd =>
    refine Told.same (h.note rfl rfl (fun j m hb => ?_) (h.users c)) (by rw [hd]) (by rw [hd]) hparts
    obtain ⟨m', hm', heq⟩ := Option.map_eq_some_iff.mp hb
    cases heq
    exact ⟨m, List.mem_of_find?_eq_some hm', by simpa using List.find?_some hm', rfl, rfl⟩
  | @selectParticipants id hd =>
    refine Told.same (h.note rfl rfl (h.seen c) (fun id' a b hb => ?_)) (by rw [hd]) (by rw [hd]) hparts
    obtain ⟨⟨userAId, userBId⟩, hp, heq⟩ := Option.map_eq_some_iff.mp ((Option.map_map ..).symm.trans hb)
    cases heq
    exact ⟨userAId, userBId, hp, rfl, rfl⟩
  | updateLastMessage hd =>
    refine Told.same (h.note rfl rfl (h.seen c) (h.users c)) (by rw [hd]) (by rw [hd]) hparts
  | insertMessage hid hconversation hsender hunread hd =>
    have hpart := h.takesPart hm.2.2
    rw [← hconversation, ← hsender] at hpart
    exact (h.note rfl rfl (h.seen c) (h.users c)).insert hid hunread hpart hd hparts
  | @updateRead i time hd =>
    obtain ⟨hunmarked, u, m, hcall, hseen, hne, hpart⟩ := hm
    obtain ⟨m', hm', hid, hconv, hsend⟩ := h.seen c i m hseen
    refine h.mark rfl ⟨rfl, rfl, rfl⟩ hcall hunmarked (fun m'' hm'' hid'' => ?_) hd hparts
    rw [h.unique hm'' hm' (hid''.trans hid.symm), hsend, hconv]
    exact ⟨hne, h.takesPart hpart⟩

/-- A call has returned a message exactly when its notes hold the message as marked. -/
theorem marked_iff (hp : InPhase protocol ends ph s) (hcall : ∀ c, (ph c).call = call c) {u i : Nat} :
    Marked call s u i ↔ ∃ c, (ph c).call = .markRead u i ∧ (ph c).marked.isSome := by
  constructor
  · rintro ⟨c, hc, m, hm⟩
    have hend := hp.result hm
    rw [← hcall c] at hc
    unfold ends at hend
    rw [hc] at hend
    exact ⟨c, hc, Option.isSome_iff_exists.mpr ⟨m, (hend m).mp rfl⟩⟩
  · rintro ⟨c, hc, hmarked⟩
    obtain ⟨m, hm⟩ := Option.isSome_iff_exists.mp hmarked
    refine ⟨c, (hcall c).symm.trans hc, m, ?_⟩
    cases hprog : s.prog c with
    | ret r =>
      have hend := hp.result hprog
      unfold ends at hend
      rw [hc] at hend
      rw [(hend m).mpr hm]
    | call q k =>
      have hmay := hp.permitted ⟨k, hprog⟩ (.error .outOfRange)
      rw [hmay.1] at hm
      cases hm

/-- Before the first message: each conversation has two users. -/
structure Quiet (d : Db) : Prop where
  messages : d.messages.rows = []
  pairs : ∀ row ∈ d.conversations.rows, row.userAId < row.userBId

/-- What holds in a run of the calls, with their notes beside it. -/
structure Noted (call : Client → Call) (s : Calls) (ph : Client → Glance) : Prop where
  told : Told s.db ph
  phase : InPhase protocol ends ph s
  calls : ∀ c, (ph c).call = call c
  pairs : ∀ id a b, participants s.db id = some (a, b) → a ≠ b

theorem Quiet.noted (hd : Quiet d) (call : Client → Call) : Noted call (start call d) fun c => { call := call c } where
  told := by
    have hnone {m : Message} : ¬ m ∈ (start call d).db.messages.rows := by
      change ¬ m ∈ d.messages.rows
      rw [hd.messages]
      exact List.not_mem_nil
    have hrows : (start call d).db.messages.rows = [] := hd.messages
    exact ⟨by rw [hrows]; exact List.nodup_nil, fun _ hm => absurd hm hnone, fun _ hm => absurd hm hnone,
      fun _ hm => absurd hm hnone, nofun, nofun, nofun⟩
  phase := start_follows call d
  calls _ := rfl
  pairs id a b h := by
    obtain ⟨row, hrow, heq⟩ := Option.map_eq_some_iff.mp h
    have hlt := hd.pairs row (List.mem_of_find?_eq_some hrow)
    cases heq
    exact hlt.ne

theorem Noted.step (h : Noted call s ph) (hs : Step (act env) s e t) : Noted call t (noted Glance.after ph e) := by
  obtain ⟨hm, hphase⟩ := h.phase.noted hs
  refine ⟨h.told.step hm hs, hphase, fun c => ?_, fun id a b hpart => ?_⟩
  · have hafter : ((ph e.client).after e.stmt e.reply).call = (ph e.client).call := by
      rcases e with ⟨_, _, q, r⟩
      cases q <;> cases r <;> rfl
    exact (update_field Glance.call hafter c).trans (h.calls c)
  · rw [act_participants hm hs.acted] at hpart
    exact h.pairs id a b hpart

theorem Noted.run (h : Noted call s ph) (hr : Trace.Run (Step (act env)) s xs t) :
    Noted call t (xs.foldl (noted Glance.after) ph) :=
  (kept_run Glance.after hr ph).preserves (I := fun u => Noted call u.1 u.2)
    (fun u e v huv hu => by
      have hv := hu.step huv.1
      rwa [← huv.2] at hv) h

theorem Peers.takesPart {id u u' peer : Nat} (h : Peers d id u peer) (hu : TakesPart d id u') : u' = u ∨ u' = peer := by
  obtain ⟨a, b, hp, hor⟩ := hu
  rcases h with h | h <;>
  · rw [h] at hp
    cases hp
    omega

theorem Noted.ne (h : Noted call s ph) {id u peer : Nat} (hpeers : Peers s.db id u peer) : u ≠ peer := by
  rcases hpeers with hp | hp
  · exact h.pairs _ _ _ hp
  · exact (h.pairs _ _ _ hp).symm

/-- A message of the peer is read exactly when a call of the user has marked it. -/
theorem Noted.read_iff (h : Noted call s ph) {u peer : Nat} {m : Message} (hpeers : Peers s.db m.conversationId u peer)
    (hm : m ∈ s.db.messages.rows) (hsender : m.senderId = peer) : m.readAt.isSome ↔ Marked call s u m.id := by
  rw [h.told.read m hm, marked_iff h.phase h.calls]
  constructor
  · rintro ⟨c, u', hcall, hmarked⟩
    obtain ⟨m', hm'⟩ := Option.isSome_iff_exists.mp hmarked
    obtain ⟨hmem, hid, -, hne, hpart⟩ := h.told.marked c u' m.id m' hcall hm'
    obtain rfl := h.told.unique hmem hm hid
    have hu := hpeers.takesPart hpart
    obtain rfl : u' = u := by omega
    exact ⟨c, hcall, hmarked⟩
  · rintro ⟨c, hcall, hmarked⟩
    exact ⟨c, u, hcall, hmarked⟩

/-- The count of the unread messages is that of the messages that have not been marked. -/
theorem Noted.unread (h : Noted call s ph) {id u peer : Nat} (hpeers : Peers s.db id u peer) :
    unreadCount s.db u id = unmarked call s id u peer := by
  refine List.countP_congr fun m hm => ?_
  simp only [decide_eq_true_eq]
  refine and_congr_right fun hid => ?_
  subst hid
  have hpart := hpeers.takesPart (h.told.sender m hm)
  have hne := h.ne hpeers
  by_cases hsender : m.senderId = peer
  · rw [← h.read_iff hpeers hm hsender]
    simp only [hsender, hne.symm, ne_eq, not_false_eq_true, true_and, Option.isNone_iff_eq_none]
    simp
  · have hu : m.senderId = u := by omega
    simp [hu, hne]

/-- A call that succeeds has marked a message that another participant sent. -/
theorem Noted.success (h : Noted call s ph) {c : Client} {u i : Nat} {m : Message} (hcall : call c = .markRead u i)
    (hm : s.prog c = .ret (.ok m)) : m ∈ s.db.messages.rows ∧ m.id = i ∧ m.readAt.isSome ∧ m.senderId ≠ u ∧
      TakesPart s.db m.conversationId u := by
  have hend := h.phase.result hm
  have hnotes := (h.calls c).trans hcall
  unfold ends at hend
  rw [hnotes] at hend
  exact h.told.marked c u i m hnotes ((hend m).mp rfl)

/-- No statement of `markRead` makes a message unread. -/
theorem Noted.mark_step (h : Noted call s ph) (hs : Step (act env) s e t) {u i : Nat}
    (hcall : call e.client = .markRead u i) (v id : Nat) : unreadCount t.db v id ≤ unreadCount s.db v id := by
  obtain ⟨hm, -⟩ := h.phase.noted hs
  have ha := hs.acted
  have hnotes := (h.calls e.client).trans hcall
  obtain ⟨c, move, q, r⟩ := e
  have heffect : Effect s.db t.db q r := act_effect hm ha
  unfold unreadCount
  cases heffect with
  | failed hrows => rw [hrows]
  | selectMessage hd | selectParticipants hd | updateLastMessage hd => rw [hd]
  | insertMessage =>
    cases hnotes.symm.trans hm.2.1
  | @updateRead i time hd =>
    rw [hd, List.countP_map]
    refine List.countP_mono_left fun m _ hunread => ?_
    rw [Function.comp_apply] at hunread
    split at hunread
    · simp [mark] at hunread
    · exact hunread

/-- A message that is read stays as it is. -/
theorem Noted.kept (h : Noted call s ph) (hr : Trace.Run (Step (act env)) s xs t) {m : Message}
    (hm : m ∈ s.db.messages.rows) (hread : m.readAt.isSome) : m ∈ t.db.messages.rows := by
  have hall := (kept_run Glance.after hr ph).preserves
    (I := fun u => Noted call u.1 u.2 ∧ m ∈ u.1.db.messages.rows) ?_ ⟨h, hm⟩
  · exact hall.2
  · rintro ⟨s, ph⟩ e ⟨t, ph'⟩ ⟨hs, rfl⟩ ⟨hu, hm⟩
    obtain ⟨hmay, -⟩ := hu.phase.noted hs
    obtain ⟨m', hm', -, -, -, hsame⟩ := (act_effect hmay hs.acted).carries hm
    rw [hsame hread] at hm'
    exact ⟨hu.step hs, hm'⟩

end Invariant

section Fixtures

/-- Two users with a conversation. -/
def paired : Db := { quiet with conversations := ⟨[{ id := 1, userAId := 1, userBId := 2, createdAt := 0 }], 2⟩ }

theorem paired_quiet : Quiet paired := ⟨rfl, by decide⟩

/-- The first user sends two messages. Both users mark the first of them. -/
def chatter : Client → Call
  | 0 => .sendMessage 1 1 "Hello"
  | 1 => .sendMessage 1 1 "Are you there?"
  | 2 => .markRead 2 1
  | _ => .markRead 1 1

end Fixtures

end Kayan.Chat.Unread
