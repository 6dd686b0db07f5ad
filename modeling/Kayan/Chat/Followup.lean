import Kayan.Chat.Rooms

/-!
# The follow-up chat over REST and over the socket

The follow-ups have tables of their own, and the socket's events read and write the tables of the
other chat: what is sent over the socket does not get into a follow-up conversation.
-/
namespace Kayan.Chat
open Interleave

variable {env : Env} {c k : Client} {d d' : Db} {α : Type}

section Alone

/-- What code returns and leaves when it runs alone; nothing where it throws or has to wait. -/
def accepted (env : Env) (c : Client) (code : Code α) (d : Db) : Option (α × Db) :=
  match code.run.alone (act env (.run 0) c) d with
  | some (.ok a, d') => some (a, d')
  | _ => none

/-- The follow-up conversation is the one that the events of a socket are about: its participant
`userId` joins and sends, the message that is sent comes into its messages, and both events are
rejected for everyone else. -/
structure OneConversation (env : Env) (c : Client) (d : Db) (f : FollowupConversation) (userId : Nat)
    (socket : Client) (text : String) : Prop where
  join : (accepted env c (joinConversation env socket f.id) d).isSome
  send : ∃ ack d', accepted env c (sendMessageEvent env socket f.id text) d = some (ack, d') ∧
    ∃ before after, (accepted env c (listFollowupMessages userId f.id none) d).map Prod.fst = some before ∧
      (accepted env c (listFollowupMessages userId f.id none) d').map Prod.fst = some after ∧
      ∃ m ∈ after, m ∉ before ∧ m.senderId = userId ∧ m.text = text
  others : ∀ k v, (d.sockets k).user = some v → v ≠ f.userId → v ≠ f.adminId →
    accepted env c (joinConversation env k f.id) d = none ∧
    accepted env c (sendMessageEvent env k f.id text) d = none

theorem alone_of_accepted {code : Code α} {a : α} (h : accepted env c code d = some (a, d')) :
    code.run.alone (act env (.run 0) c) d = some (.ok a, d') := by
  unfold accepted at h
  split at h
  · rename_i hp
    cases h
    exact hp
  · cases h

end Alone

section Tables
variable {m : Move} {q : Stmt} {r : Answer q}

/-- Only a follow-up message that is sent as such is added to them. -/
theorem act_followupMessages (hq : ∀ id u t, q ≠ .insertFollowupMessage id u t)
    (h : act env m c q d = some (r, d')) : d'.followupMessages = d.followupMessages := by
  cases m with
  | fail e =>
    obtain ⟨-, -, rfl⟩ := act_fail h
    rfl
  | run wait =>
    cases q with
    | insertFollowupMessage id u t => exact absurd rfl (hq id u t)
    | insertConversation | insertMessage | upsertFollowup | openSocket | disconnect | deliver =>
      simp only [act, exec] at h
      repeat' split at h
      all_goals
        cases h
        try rfl
    | kick =>
      cases h
      split <;> rfl
    | join k room =>
      cases h
      unfold joinRoom
      split <;> rfl
    | _ =>
      cases h
      rfl

/-- The message event writes no follow-up message. -/
theorem sendMessageEvent_followups {id : Nat} {text : String} {ack : Payload}
    (h : accepted env c (sendMessageEvent env k id text) d = some (ack, d')) :
    d'.followupMessages = d.followupMessages := by
  have hf := @request_keeps env (.send k id text)
  have hkeep : ∀ (x : Seen) (q : Stmt) (r : Answer q) (y : Seen) (e e' : Db), calls env x q r y →
      act env (.run 0) c q e = some (r, e') →
      x.req = .send k id text ∧ e.followupMessages = d.followupMessages →
      y.req = .send k id text ∧ e'.followupMessages = d.followupMessages := by
    rintro x q r y e e' ⟨hm, rfl⟩ ha ⟨hreq, he⟩
    refine ⟨hreq, (act_followupMessages ?_ ha).trans he⟩
    rintro id u t rfl
    obtain ⟨_, _, _, _, hsend⟩ := hm
    rw [hreq] at hsend
    cases hsend
  obtain ⟨y, -, -, hy⟩ := hf.alone hkeep (alone_of_accepted h) ⟨rfl, rfl⟩
  exact hy

/-- The check of the access replies at once. -/
theorem assertFollowupConversationAccess_alone {userId id : Nat} :
    ∃ r, (assertFollowupConversationAccess userId id).run.alone (act env (.run 0) c) d = some (r, d) := by
  have hact : act env (.run 0) c (.selectFollowupAccess id) d =
    some (.ok ((d.followups.rows.find? (·.id = id)).map fun r => (r.userId, r.adminId)), d) := rfl
  unfold assertFollowupConversationAccess query
  rcases hf : d.followups.rows.find? (·.id = id) with _ | row
  · rw [hf] at hact
    exact ⟨_, await_alone hact⟩
  · rw [hf] at hact
    refine ⟨if row.userId ≠ userId ∧ row.adminId ≠ userId then .error (.forbidden "Not allowed") else .ok (),
      (await_alone hact).trans ?_⟩
    dsimp only [Option.map]
    split <;> rfl

/-- What is listed are the follow-up messages of the conversation. -/
theorem listFollowupMessages_accepted {userId id : Nat} {messages : List FollowupMessage}
    (h : accepted env c (listFollowupMessages userId id none) d = some (messages, d')) :
    messages = d.followupMessages.rows.filter (·.conversationId = id) := by
  have hp := alone_of_accepted h
  obtain ⟨r, hr⟩ := @assertFollowupConversationAccess_alone env c d userId id
  have hb := (alone_bind (assertFollowupConversationAccess userId id).run d).symm.trans hp
  rw [hr] at hb
  cases r with
  | error e => cases hb
  | ok v =>
    obtain ⟨hm, -⟩ := Prod.mk.inj (Option.some.inj hb)
    exact (Except.ok.inj hm).symm

end Tables

/-- A follow-up conversation is never one with what the socket's events are about: a message that
is sent over the socket does not come into its messages. -/
theorem followup_never_one (env : Env) (c : Client) (d : Db) (f : FollowupConversation) (userId : Nat)
    (socket : Client) (text : String) : ¬ OneConversation env c d f userId socket text := by
  intro h
  obtain ⟨ack, d', hsend, before, after, hbefore, hafter, m, hm, hnew, -⟩ := h.send
  obtain ⟨⟨old, e⟩, hb, rfl⟩ := Option.map_eq_some_iff.mp hbefore
  obtain ⟨⟨new, e'⟩, ha, rfl⟩ := Option.map_eq_some_iff.mp hafter
  have hlist := listFollowupMessages_accepted ha
  rw [sendMessageEvent_followups hsend, ← listFollowupMessages_accepted hb] at hlist
  exact hnew (hlist ▸ hm)

section Fixtures

/-- The first user connects and opens a follow-up conversation about the own order. -/
def asking : Client → Request
  | 0 => .connect (bearer "1")
  | _ => .createFollowup 1 false { itemType := .order, itemId := 9 }

/-- What code throws when it runs alone. -/
def rejected (env : Env) (c : Client) (code : Code α) (d : Db) : Option Failure :=
  match code.run.alone (act env (.run 0) c) d with
  | some (.error e, _) => some e
  | _ => none

theorem not_accepted {code : Code α} {e : Failure} (h : rejected env c code d = some e) :
    accepted env c code d = none := by
  unfold rejected at h
  unfold accepted
  split at h
  · rename_i hp
    rw [hp]
  · cases h

/-- The user of the follow-up conversation is not let into it over the socket. -/
theorem followup_not_joined : ∃ xs t, Trace.Run (Step (act openEnv)) (initial openEnv asking quiet) xs t ∧
    ∃ f ∈ t.db.followups.rows, f.userId = 1 ∧ (t.db.sockets 0).phase = .opened ∧
      (t.db.sockets 0).user = some 1 ∧
      rejected openEnv 2 (joinConversation openEnv 0 f.id) t.db = some (.notFound "Conversation not found") ∧
      ¬ OneConversation openEnv 2 t.db f 1 0 "hello" := by
  have hplay : (replay (act openEnv) (fun _ _ => true) (inOrder 0 3 ++ inOrder 1 4)
      (initial openEnv asking quiet)).map (fun t => ((t.db.followups.rows.map fun f => (f.id, f.userId),
        (t.db.sockets 0).phase), ((t.db.sockets 0).user,
        rejected openEnv 2 (joinConversation openEnv 0 1) t.db))) =
        some (([(1, 1)], .opened), (some 1, some (.notFound "Conversation not found"))) := by
    decide +kernel
  obtain ⟨xs, t, hr, ht⟩ := replay_run hplay
  simp only [Prod.mk.injEq] at ht
  obtain ⟨⟨hrows, hphase⟩, huser, hjoin⟩ := ht
  have hmem : (1, 1) ∈ t.db.followups.rows.map fun f => (f.id, f.userId) := by
    rw [hrows]
    exact List.mem_cons_self
  obtain ⟨f, hf, heq⟩ := List.mem_map.mp hmem
  obtain ⟨hid, hu⟩ := Prod.mk.inj heq
  rw [← hid] at hjoin
  refine ⟨xs, t, hr.mono fun _ _ _ h => h.1, f, hf, hu, hphase, huser, hjoin, fun h => ?_⟩
  have hjoined := h.join
  rw [not_accepted hjoin] at hjoined
  cases hjoined

end Fixtures

end Kayan.Chat
