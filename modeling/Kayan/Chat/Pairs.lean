import Kayan.Chat.LastMessage
import Kayan.Lib.Triple

/-!
# One conversation for two users

`getOrCreateConversation` looks for the row of the two users and inserts it where there is none. Among
calls none of which comes too late with its `INSERT`, each one succeeds with that one row.
-/
namespace Kayan.Chat
open Interleave
open Sessions (toPositiveInt)

variable {env : Env} {m : Move} {c : Client} {q : Stmt} {d d' : Db} {r : Answer q} {a b id : Nat}
  {p : Option Nat}

section Tables

/-- The keys of the conversations, and their `CHECK`. -/
structure Conversations (d : Db) : Prop where
  ids : (d.conversations.rows.map (·.id)).Nodup
  fresh : ∀ row ∈ d.conversations.rows, row.id < d.conversations.next
  pairs : (d.conversations.rows.map fun row => (row.userAId, row.userBId)).Nodup
  ordered : ∀ row ∈ d.conversations.rows, row.userAId < row.userBId

theorem Conversations.found (h : Conversations d) {row : Conversation} (hp : d.pair a b = some row) :
    d.conversation row.id = some row ∧ row.userAId = a ∧ row.userBId = b := by
  obtain ⟨hmem, hab⟩ := pair_some hp
  refine ⟨?_, hab⟩
  rcases hf : d.conversation row.id with _ | other
  · have hnone := List.find?_eq_none.mp hf row hmem
    simp at hnone
  · obtain ⟨hother, hid⟩ := conversation_some hf
    rw [List.inj_on_of_nodup_map h.ids hother hmem hid]

/-- The row of two users is the only one, in whichever order they are taken. -/
theorem Conversations.one (h : Conversations d) {row : Conversation} (hp : d.pair a b = some row) :
    d.conversations.rows.countP (fun r =>
      (r.userAId = a ∧ r.userBId = b) ∨ (r.userAId = b ∧ r.userBId = a)) = 1 := by
  obtain ⟨hmem, ha, hb⟩ := pair_some hp
  have hlt : a < b := by
    rw [← ha, ← hb]
    exact h.ordered row hmem
  have hcount : d.conversations.rows.countP (fun r =>
      (r.userAId = a ∧ r.userBId = b) ∨ (r.userAId = b ∧ r.userBId = a)) =
      (d.conversations.rows.map fun r => (r.userAId, r.userBId)).count (a, b) := by
    rw [List.count, List.countP_map]
    refine List.countP_congr fun r hr => ?_
    have hrlt := h.ordered r hr
    simp only [decide_eq_true_eq, Function.comp_apply, beq_iff_eq, Prod.mk.injEq]
    omega
  rw [hcount]
  refine List.count_eq_one_of_mem h.pairs ?_
  exact List.mem_map.mpr ⟨row, hmem, by rw [ha, hb]⟩

theorem ConversationWrite.conversations (hw : ConversationWrite d d' q r) (h : Conversations d) :
    Conversations d' := by
  have hids := hw.ids_lt h.fresh
  have hmap : ∀ (i : Nat) (f : Conversation → Conversation), (∀ r, (f r).id = r.id) →
      (∀ r, (f r).userAId = r.userAId ∧ (f r).userBId = r.userBId) →
      d'.conversations = (d.updateConversation i f).conversations → Conversations d' := by
    intro i f hid hf hd
    have hkeep : ∀ {β : Type} (g : Conversation → β), (∀ r, g (f r) = g r) →
        d'.conversations.rows.map g = d.conversations.rows.map g := by
      intro β g hg
      rw [hd, Db.updateConversation, List.map_map]
      refine List.map_congr_left fun r _ => ?_
      rw [Function.comp_apply]
      split
      · exact hg r
      · rfl
    have hpairs := hkeep (fun r => (r.userAId, r.userBId)) fun r => by rw [(hf r).1, (hf r).2]
    refine ⟨?_, hids, ?_, fun row hrow => ?_⟩
    · rw [hkeep (·.id) hid]
      exact h.ids
    · rw [hpairs]
      exact h.pairs
    · have hmem := List.mem_map_of_mem (f := fun r : Conversation => (r.userAId, r.userBId)) hrow
      rw [hpairs] at hmem
      obtain ⟨old, ho, heq⟩ := List.mem_map.mp hmem
      obtain ⟨ha, hb⟩ := Prod.mk.inj heq
      rw [← ha, ← hb]
      exact h.ordered old ho
  cases hw with
  | same hq hr hn =>
    refine ⟨?_, hids, ?_, fun row hrow => ?_⟩
    · rw [hr]
      exact h.ids
    · rw [hr]
      exact h.pairs
    · exact h.ordered row (hr ▸ hrow)
  | product hd =>
    refine hmap _ _ ?_ ?_ hd
    · exact fun _ => rfl
    · exact fun _ => ⟨rfl, rfl⟩
  | lastMessage hd =>
    refine hmap _ _ ?_ ?_ hd
    · exact fun _ => rfl
    · exact fun _ => ⟨rfl, rfl⟩
  | insert new ha hb hid hl hlt hfree hd =>
    have hfresh : new.id ∉ d.conversations.rows.map (·.id) := by
      intro hmem
      obtain ⟨old, ho, heq⟩ := List.mem_map.mp hmem
      have hlt := h.fresh old ho
      omega
    have hnew : (new.userAId, new.userBId) ∉ d.conversations.rows.map fun r => (r.userAId, r.userBId) := by
      intro hmem
      obtain ⟨old, ho, heq⟩ := List.mem_map.mp hmem
      obtain ⟨hoa, hob⟩ := Prod.mk.inj heq
      have hnot := List.find?_eq_none.mp hfree old ho
      exact hnot (decide_eq_true ⟨hoa.trans ha, hob.trans hb⟩)
    refine ⟨?_, hids, ?_, fun row hrow => ?_⟩
    · rw [hd, List.map_append, List.nodup_append_comm]
      exact List.nodup_cons.mpr ⟨hfresh, h.ids⟩
    · rw [hd, List.map_append, List.nodup_append_comm]
      exact List.nodup_cons.mpr ⟨hnew, h.pairs⟩
    · rw [hd] at hrow
      rcases List.mem_append.mp hrow with hrow | hrow
      · exact h.ordered row hrow
      · obtain rfl := List.mem_singleton.mp hrow
        rw [ha, hb]
        exact hlt

end Tables

section Rules

/-- A product that a conversation can be about, also for those who do not own it. -/
def Available (d : Db) (productId : Nat) : Prop :=
  ∃ row, d.products.find? (fun r => r.id = productId ∧ r.deleted = false) = some row ∧ row.status = .available

/-- Two users and the products that they name. -/
structure Talkers (a b : Nat) (given : Nat → Prop) (d : Db) : Prop extends Conversations d where
  pos : 0 < a
  lt : a < b
  lower : d.liveUser a = true
  upper : d.liveUser b = true
  available : ∀ p, given p → Available d p

/-- The row of the two users has this id. -/
def Paired (a b id : Nat) (d : Db) : Prop := ∃ row, d.pair a b = some row ∧ row.id = id

variable {given : Nat → Prop}

theorem Talkers.act (h : Talkers a b given d) (ha : act env m c q d = some (r, d')) : Talkers a b given d' := by
  obtain ⟨hu, hp⟩ := act_users ha
  refine ⟨(act_conversations ha).conversations h.toConversations, h.pos, h.lt, ?_, ?_, fun p hg => ?_⟩
  · rw [Db.liveUser, hu]
    exact h.lower
  · rw [Db.liveUser, hu]
    exact h.upper
  · rw [Available, hp]
    exact h.available p hg

/-- Statements that run, and no `INSERT` of a row that is there. -/
def OnTime (m : Move) (q : Stmt) (d : Db) : Prop :=
  m.runs = true ∧ ∀ x y p, q = .insertConversation x y p → d.pair x y = none

/-- The others keep the row of the two users. -/
def pairRules (env : Env) (a b : Nat) (given : Nat → Prop) : Rules Client Move Stmt Answer Db where
  act := act env
  inv := Talkers a b given
  rely _ d d' := ∀ id, Paired a b id d → Paired a b id d'
  allow m _ q d := OnTime m q d
  guar _ _ _ _ _ := True
  rely_refl _ _ _ hp := hp
  rely_trans _ _ _ _ h h' id hp := h' id (h id hp)
  frame m c q d r d' _ ha b _ id hp := by
    obtain ⟨row, hrow, hid⟩ := hp
    obtain ⟨row', hrow', hid'⟩ := (act_conversations ha).pair hrow
    exact ⟨row', hrow', hid'.trans hid⟩

variable {α : Type} {P : Db → Prop} {Q : α → Db → Prop}

/-- What code does among the others: it never throws. -/
abbrev Succeeds (env : Env) (a b : Nat) (given : Nat → Prop) (c : Client) (P : Db → Prop) (code : Code α)
    (Q : α → Db → Prop) : Prop :=
  Triple (pairRules env a b given) c P code Q fun _ => False

theorem stable_true : Stable (pairRules env a b given) c fun _ => True := fun _ _ _ _ _ => trivial

theorem stable_paired : Stable (pairRules env a b given) c (Paired a b id) := fun _ _ hr _ hp => hr id hp

theorem stable_false : Stable (pairRules env a b given) c fun _ => False := fun _ _ _ _ => id

theorem succeeds_pure {x : α} (hq : Stable (pairRules env a b given) c (Q x)) (h : ∀ d, P d → Q x d) :
    Succeeds env a b given c P (pure x) Q :=
  (Triple.pure hq).pre h

/-- A statement that always succeeds. -/
theorem succeeds_query {q : Stmt} {Q : Reply q → Db → Prop} (hp : Stable (pairRules env a b given) c P)
    (hq : ∀ v, Stable (pairRules env a b given) c (Q v))
    (h : ∀ wait d, Talkers a b given d → OnTime (.run wait) q d → P d →
      ∃ v d', act env (.run wait) c q d = some (.ok v, d') ∧ Q v d') :
    Succeeds env a b given c P (query q) Q := by
  refine Triple.await hp hq stable_false fun m d r d' hi hal hd ha => ?_
  refine ⟨Talkers.act hi ha, trivial, ?_⟩
  cases m with
  | fail e => cases hal.1
  | run wait =>
    obtain ⟨v, d'', hact, hv⟩ := h wait d hi hal hd
    obtain ⟨rfl, rfl⟩ := Prod.mk.inj (Option.some.inj (hact.symm.trans ha))
    exact hv

end Rules

section Calls
variable {given : Nat → Prop} {userId : Nat}

/-- The id of the conversation in a response. -/
def returnedId (response : Payload) : Option Payload := (response.field "conversation").bind (Payload.field "id")

theorem liveUser_any (h : d.liveUser userId = true) : d.users.any (·.id = userId) = true := by
  obtain ⟨u, hu, he⟩ := List.any_eq_true.mp h
  refine List.any_eq_true.mpr ⟨u, hu, ?_⟩
  simp only [decide_eq_true_eq] at he ⊢
  exact he.1

theorem Talkers.conversation (h : Talkers a b given d) (hp : Paired a b id d) :
    ∃ row, d.conversation id = some row ∧ row.id = id ∧ row.userAId = a ∧ row.userBId = b := by
  obtain ⟨row, hrow, rfl⟩ := hp
  obtain ⟨hf, hab⟩ := h.found hrow
  exact ⟨row, hf, rfl, hab⟩

theorem assertConversationParticipant_succeeds (hpos : 0 < a) (hlt : a < b) (hu : userId = a ∨ userId = b) :
    Succeeds env a b given c (Paired a b id) (assertConversationParticipant id userId)
      fun _ => Paired a b id := by
  refine Triple.bind (Q := fun row d => row = some (bigint a, bigint b) ∧ Paired a b id d)
    (succeeds_query stable_paired ?_ ?_) (fun row => Triple.fact fun hrow => ?_) stable_false
  · exact fun row d d' hr hi hp => ⟨hp.1, hr id hp.2⟩
  · intro wait d hi _ hp
    obtain ⟨row, hf, -, rfl, rfl⟩ := hi.conversation hp
    refine ⟨_, _, rfl, ?_, hp⟩
    exact congrArg (Option.map fun r => (bigint r.userAId, bigint r.userBId)) hf
  · subst hrow
    have ha := bigint_toPositiveInt hpos
    have hb := bigint_toPositiveInt (Nat.lt_trans hpos hlt)
    dsimp only
    rw [ha, hb]
    dsimp only
    rw [if_neg (by omega)]
    exact succeeds_pure stable_paired fun _ hp => hp

theorem getConversationById_succeeds (hpos : 0 < a) (hlt : a < b) (hu : userId = a ∨ userId = b) :
    Succeeds env a b given c (Paired a b id) (getConversationById env userId id)
      fun response d => returnedId response = some (bigint id) ∧ Paired a b id d := by
  refine Triple.bind (assertConversationParticipant_succeeds hpos hlt hu) (fun _ => ?_) stable_false
  refine Triple.bind (Q := fun view d => (∃ v : ConversationView, view = some v ∧ v.conversation.id = id) ∧
    Paired a b id d) (succeeds_query stable_paired ?_ ?_) (fun view => Triple.fact ?_) stable_false
  · exact fun view d d' hr hi hp => ⟨hp.1, hr id hp.2⟩
  · intro wait d hi _ hp
    obtain ⟨row, hf, hid, ha, hb⟩ := hi.conversation hp
    have hpeer : d.users.any (·.id = if row.userAId = userId then row.userBId else row.userAId) = true := by
      rw [ha, hb]
      split
      · exact liveUser_any hi.upper
      · exact liveUser_any hi.lower
    have hview : d.conversationView userId id = some ⟨row, row.lastMessageId.bind d.message,
        if row.userAId = userId then row.userBId else row.userAId,
        d.messages.rows.countP fun m => m.conversationId = id ∧ m.senderId ≠ userId ∧ m.readAt.isNone⟩ := by
      rw [Db.conversationView, hf]
      exact if_pos hpeer
    exact ⟨_, _, rfl, ⟨_, hview, hid⟩, hp⟩
  · rintro ⟨v, rfl, hid⟩
    refine succeeds_pure (fun d d' hr hi hp => ⟨hp.1, hr id hp.2⟩) fun d hp => ⟨?_, hp⟩
    rw [← hid]
    rfl

theorem validateProduct_succeeds {productId : Nat} (hp : given productId) :
    Succeeds env a b given c (fun _ => True) (validateProduct productId) fun _ _ => True := by
  refine Triple.bind (Q := fun product _ => ∃ owner, product = some (owner, ProductStatus.available))
    (succeeds_query stable_true (fun v d d' _ _ h => h) ?_) (fun product => ?_) stable_false
  · intro wait d hi _ _
    obtain ⟨row, hrow, hstatus⟩ := hi.available productId hp
    refine ⟨_, _, rfl, bigint row.ownerId, ?_⟩
    rw [← hstatus]
    exact congrArg (Option.map fun r => (bigint r.ownerId, r.status)) hrow
  · rintro d hi ⟨owner, rfl⟩
    exact (succeeds_pure stable_true fun _ h => h) d hi trivial

/-- The row that an `INSERT` adds. -/
def newConversation (d : Db) (wait a b : Nat) (p : Option Nat) : Conversation :=
  { id := d.conversations.next, userAId := a, userBId := b, productId := p, createdAt := d.clock + wait }

theorem act_insertConversation {wait : Nat} (hlt : a < b) (hfree : d.pair a b = none)
    (hkeys : (d.users.any (·.id = a) && d.users.any (·.id = b) &&
      p.all fun i => d.products.any (·.id = i)) = true) :
    act env (.run wait) c (.insertConversation a b p) d =
      some (.ok (newConversation d wait a b p).id, { d with
        clock := d.clock + wait
        conversations := ⟨d.conversations.rows ++ [newConversation d wait a b p], d.conversations.next + 1⟩ }) := by
  simp only [act, exec]
  refine (if_neg (Nat.not_le.mpr hlt)).trans ((if_neg (Option.not_isSome_iff_eq_none.mpr hfree)).trans (if_neg ?_))
  intro h
  rw [hkeys] at h
  cases h

/-- On time the `INSERT` finds nothing in its way. -/
theorem insertConversation_succeeds (hp : ∀ i, p = some i → given i) :
    Succeeds env a b given c (fun _ => True) (insertConversation a b p) fun id => Paired a b id := by
  refine Triple.catch (E := fun _ => False) (succeeds_query stable_true (fun id => stable_paired) ?_)
    (fun e d hi h => h.elim) fun id => stable_paired
  intro wait d hi hon _
  have hfree := hon.2 a b p rfl
  have hkeys : (d.users.any (·.id = a) && d.users.any (·.id = b) &&
      p.all fun i => d.products.any (·.id = i)) = true := by
    rw [liveUser_any hi.lower, liveUser_any hi.upper]
    rcases p with _ | i
    · rfl
    · obtain ⟨row, hrow, -⟩ := hi.available i (hp i rfl)
      have hid := List.find?_some hrow
      refine List.any_eq_true.mpr ⟨row, List.mem_of_find?_eq_some hrow, ?_⟩
      simp only [decide_eq_true_eq] at hid ⊢
      exact hid.1
  refine ⟨_, _, act_insertConversation hi.lt hfree hkeys, newConversation d wait a b p, ?_, rfl⟩
  rw [Db.pair, List.find?_append, Option.or_eq_some_iff]
  refine Or.inr ⟨hfree, ?_⟩
  simp [newConversation]

theorem updateProduct_succeeds {productId : Nat} :
    Succeeds env a b given c (Paired a b id) (query (.updateProduct productId id)) fun _ => Paired a b id := by
  refine succeeds_query stable_paired (fun _ => stable_paired) fun wait d _ _ hp => ⟨_, _, rfl, ?_⟩
  obtain ⟨row, hrow, hid⟩ := hp
  have hact : act env (.run wait) c (.updateProduct productId id) d = some (.ok (), _) := rfl
  obtain ⟨row', hrow', hid'⟩ := (act_conversations hact).pair hrow
  exact ⟨row', hrow', hid'.trans hid⟩

/-- A call of one of the two users for the other, about a product that is given or none. -/
structure Between (a b : Nat) (given : Nat → Prop) (userId participantId : Nat) (productId : Option Nat) :
    Prop where
  users : (userId = a ∧ participantId = b) ∨ (userId = b ∧ participantId = a)
  product : ∀ i, productId = some i → i ≠ 0 → given i

theorem getOrCreateConversation_succeeds {participantId : Nat} (hpos : 0 < a) (hlt : a < b)
    (hc : Between a b given userId participantId p) :
    Succeeds env a b given c (fun _ => True) (getOrCreateConversation env userId participantId p)
      fun response d => ∃ id, returnedId response = some (bigint id) ∧ Paired a b id d := by
  have hu : userId = a ∨ userId = b := hc.users.imp And.left And.left
  have hkeys : (if userId < participantId then userId else participantId) = a ∧
      (if userId < participantId then participantId else userId) = b := by
    rcases hc.users with ⟨rfl, rfl⟩ | ⟨rfl, rfl⟩
    · rw [if_pos hlt, if_pos hlt]
      exact ⟨rfl, rfl⟩
    · have hnot := Nat.not_lt.mpr (Nat.le_of_lt hlt)
      rw [if_neg hnot, if_neg hnot]
      exact ⟨rfl, rfl⟩
  have hne : userId ≠ participantId := by
    have := hc.users
    omega
  have hgiven : ∀ i, p.filter (· ≠ 0) = some i → given i := by
    intro i hi
    obtain ⟨hp, hne⟩ := Option.filter_eq_some_iff.mp hi
    exact hc.product i hp (of_decide_eq_true hne)
  have hget : ∀ id, Succeeds env a b given c (Paired a b id) (getConversationById env userId id)
      fun response d => ∃ id, returnedId response = some (bigint id) ∧ Paired a b id d := fun id =>
    (getConversationById_succeeds hpos hlt hu).conseq (fun _ _ h => h) (fun _ _ h => ⟨id, h⟩) fun _ h => h
  unfold getOrCreateConversation
  rw [if_neg hne, hkeys.1, hkeys.2]
  refine Triple.bind (Q := fun found _ => found = true ∧ True) (succeeds_query stable_true ?_ ?_)
    (fun found => Triple.fact fun hfound => ?_) stable_false
  · exact fun v d d' _ _ h => h
  · intro wait d hi _ _
    refine ⟨_, _, rfl, ?_, trivial⟩
    rcases hc.users with ⟨-, rfl⟩ | ⟨-, rfl⟩
    · exact hi.upper
    · exact hi.lower
  subst hfound
  generalize p.filter (· ≠ 0) = validatedProductId at hgiven ⊢
  rcases validatedProductId with _ | productId
  on_goal 2 => refine Triple.bind (validateProduct_succeeds (hgiven productId rfl)) (fun _ => ?_) stable_false
  all_goals
    refine Triple.bind (Q := fun existing d => ∀ x, existing = some x → Paired a b x.1 d)
      (succeeds_query stable_true ?_ ?_) (fun existing => ?_) stable_false
    · exact fun v d d' hr _ h x hx => hr x.1 (h x hx)
    · intro wait d hi _ _
      refine ⟨_, _, rfl, fun x hx => ?_⟩
      obtain ⟨row, hrow, rfl⟩ := Option.map_eq_some_iff.mp hx
      exact ⟨row, hrow, rfl⟩
    rcases existing with _ | ⟨id, product⟩
    · refine Triple.bind ((insertConversation_succeeds hgiven).pre fun _ _ => trivial) (fun id => hget id)
        stable_false
  · exact (hget id).pre fun d h => h _ rfl
  · rcases product with _ | product
    · exact Triple.bind (updateProduct_succeeds.pre fun d h => h _ rfl) (fun _ => hget id) stable_false
    · exact (hget id).pre fun d h => h _ rfl

/-- A call of `getOrCreateConversation`. -/
structure Opening where
  userId : Nat
  participantId : Nat
  productId : Option Nat := none

/-- Any number of such calls. -/
def opening (env : Env) (calls : Client → Opening) (d : Db) : State :=
  ⟨d, fun c => (getOrCreateConversation env (calls c).userId (calls c).participantId (calls c).productId).run⟩

/-- Where no call comes too late with its `INSERT`, every call that has ended has succeeded, all of
them with the id of the one conversation of the two users. -/
theorem conversation_race_free {calls : Client → Opening} {t : State} {xs : List Taken}
    (hd : Talkers a b given d)
    (hcalls : ∀ c, Between a b given (calls c).userId (calls c).participantId (calls c).productId)
    (hr : Trace.Run (fun s e t => Step (act env) s e t ∧ OnTime e.move e.stmt s.db) (opening env calls d) xs t)
    (c : Client) {r : Except Failure Payload} (hc : t.prog c = .ret r) :
    ∃ row response, r = .ok response ∧ returnedId response = some (bigint row.id) ∧
      t.db.pair a b = some row ∧ t.db.conversations.rows.countP (fun r =>
        (r.userAId = a ∧ r.userBId = b) ∨ (r.userAId = b ∧ r.userBId = a)) = 1 := by
  have hsafe : AllSafe (pairRules env a b given) (fun _ => outcome
      (fun response d => ∃ id, returnedId response = some (bigint id) ∧ Paired a b id d) fun _ => False)
      (opening env calls d) :=
    ⟨hd, fun c => getOrCreateConversation_succeeds hd.pos hd.lt (hcalls c) d hd trivial⟩
  have ht := hsafe.run (hr.mono fun _ _ _ h => h)
  have hpost := ht.result hc
  cases r with
  | ok response =>
    obtain ⟨id, hid, row, hrow, rfl⟩ := hpost
    exact ⟨row, response, rfl, hid, hrow, Conversations.one (Talkers.toConversations ht.1) hrow⟩
  | error e => exact hpost.elim

end Calls

section Fixtures

/-- The first user writes to the second, and the second to the first. -/
def both : Client → Opening
  | 0 => ⟨1, 2, none⟩
  | _ => ⟨2, 1, none⟩

theorem quiet_talkers : Talkers 1 2 (fun _ => False) quiet where
  ids := List.nodup_nil
  fresh := nofun
  pairs := List.nodup_nil
  ordered := nofun
  pos := by decide
  lt := by decide
  lower := by decide
  upper := by decide
  available _ h := h.elim

theorem both_between (c : Client) :
    Between 1 2 (fun _ => False) (both c).userId (both c).participantId (both c).productId := by
  rcases c with _ | c
  · exact ⟨Or.inl ⟨rfl, rfl⟩, nofun⟩
  · exact ⟨Or.inr ⟨rfl, rfl⟩, nofun⟩

/-- The call has failed on the unique key. -/
def failedUnique (t : State) (c : Client) : Bool :=
  match t.prog c with
  | .ret (.error e) => e = .database .uniqueViolation
  | _ => false

/-- One after the other they get the same conversation. -/
theorem conversation_race_free_both : ∃ xs t, Trace.Run (Step (act openEnv)) (opening openEnv both quiet) xs t ∧
    ∀ c ∈ [0, 1], ∃ row response, t.prog c = .ret (.ok response) ∧
      returnedId response = some (bigint row.id) ∧ t.db.pair 1 2 = some row := by
  have hplay : (replay (act openEnv) (fun s e => e.move.runs && match e.stmt with
      | .insertConversation x y _ => (s.db.pair x y).isNone
      | _ => true) (inOrder 0 5 ++ inOrder 1 4) (opening openEnv both quiet)).map (fun t =>
        [0, 1].all fun c => (t.prog c).ended) = some true := by
    decide +kernel
  obtain ⟨xs, t, hr, ht⟩ := replay_run hplay
  have htime : Trace.Run (fun s e t => Step (act openEnv) s e t ∧ OnTime e.move e.stmt s.db)
      (opening openEnv both quiet) xs t := by
    refine hr.mono fun s e t h => ⟨h.1, ?_⟩
    obtain ⟨hruns, hfree⟩ := Bool.and_eq_true_iff.mp h.2
    refine ⟨hruns, fun x y p hq => ?_⟩
    rw [hq] at hfree
    exact Option.isNone_iff_eq_none.mp hfree
  refine ⟨xs, t, htime.mono fun _ _ _ h => h.1, fun c hc => ?_⟩
  obtain ⟨r, hp⟩ := Prog.ended_ret (List.all_eq_true.mp ht c hc)
  obtain ⟨row, response, rfl, hid, hrow, -⟩ := conversation_race_free quiet_talkers both_between htime c hp
  exact ⟨row, response, hp, hid, hrow⟩

/-- Both look for the row before either inserts it: one of the calls fails. -/
theorem conversation_race : ∃ xs t, Trace.Run (fun s e t => Step (act openEnv) s e t ∧ e.move.runs = true)
    (opening openEnv both quiet) xs t ∧ t.prog 1 = .ret (.error (.database .uniqueViolation)) := by
  have hplay : (replay (act openEnv) (fun _ e => e.move.runs) (inOrder 0 2 ++ inOrder 1 2 ++ inOrder 0 3 ++ inOrder 1 1)
      (opening openEnv both quiet)).map (fun t => failedUnique t 1) = some true := by
    decide +kernel
  obtain ⟨xs, t, hr, ht⟩ := replay_run hplay
  refine ⟨xs, t, hr, ?_⟩
  unfold failedUnique at ht
  split at ht
  · rename_i e hp
    rw [hp, of_decide_eq_true ht]
  · cases ht

end Fixtures

end Kayan.Chat
