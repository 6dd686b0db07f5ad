import Kayan.Chat.Service

/-!
# What the statements of the chats change

One inversion lemma for the sockets with their registry, one for the conversations and one for the
messages.
-/
namespace Kayan.Chat

variable {env : Env} {m : Move} {c : Client} {q : Stmt} {d d' : Db} {r : Answer q}

/-- What a statement of client `c` can do to the sockets and to the registry. -/
inductive Wired (env : Env) (c : Client) (d d' : Db) : Stmt → Prop
  | same {q : Stmt} (hq : ∀ sub, q ≠ .register sub) (hs : d'.sockets = d.sockets)
      (hr : d'.registry = d.registry) : Wired env c d d' q
  | opened (hp : (d.sockets c).phase = .unborn)
      (hs : d'.sockets = Function.update d.sockets c { d.sockets c with phase := .opened })
      (hr : d'.registry = d.registry) : Wired env c d d' .openSocket
  | registered {sub : Nat}
      (hs : d'.sockets = Function.update d.sockets c { d.sockets c with user := some sub })
      (hr : d'.registry = registerUserSocket sub c d.registry) : Wired env c d d' (.register sub)
  | closed {k : Client} {q : Stmt} (hq : ∀ sub, q ≠ .register sub) (hp : (d.sockets k).phase = .opened)
      (hs : d'.sockets = (closeSocket k d).sockets) (hr : d'.registry = (closeSocket k d).registry) :
      Wired env c d d' q
  | joined {k : Client} {room : String} (hs : d'.sockets = (joinRoom env k room d).sockets)
      (hr : d'.registry = d.registry) : Wired env c d d' (.join k room)

/-- What a statement can do to the conversations. -/
inductive ConversationWrite (d d' : Db) : (q : Stmt) → Answer q → Prop
  | same {q : Stmt} {r : Answer q} (hq : ∀ m id, q = .updateLastMessage m id → r.isOk = false)
      (hr : d'.conversations.rows = d.conversations.rows)
      (hn : d.conversations.next ≤ d'.conversations.next) : ConversationWrite d d' q r
  | product {p id : Nat} {r : Answer (.updateProduct p id)}
      (hd : d'.conversations =
        (d.updateConversation id fun r => { r with productId := some p }).conversations) :
      ConversationWrite d d' (.updateProduct p id) r
  | lastMessage {m id : Nat} (hd : d'.conversations =
        (d.updateConversation id fun r => { r with lastMessageId := some m }).conversations) :
      ConversationWrite d d' (.updateLastMessage m id) (.ok ())
  | insert {userAId userBId : Nat} {p : Option Nat} (row : Conversation) (ha : row.userAId = userAId)
      (hb : row.userBId = userBId) (hid : row.id = d.conversations.next) (hl : row.lastMessageId = none)
      (hlt : userAId < userBId) (hfree : d.pair userAId userBId = none)
      (hd : d'.conversations = ⟨d.conversations.rows ++ [row], d.conversations.next + 1⟩) :
      ConversationWrite d d' (.insertConversation userAId userBId p) (.ok row.id)

/-- What a statement can do to the messages. -/
inductive MessageWrite (d d' : Db) : (q : Stmt) → Answer q → Prop
  | same {q : Stmt} {r : Answer q} (hq : ∀ id s t, q = .insertMessage id s t → r.isOk = false)
      (hr : d'.messages.rows = d.messages.rows) : MessageWrite d d' q r
  | read {id : Nat} {r : Answer (.updateRead id)} {f : Message → Message} (hid : ∀ m, (f m).id = m.id)
      (hc : ∀ m, (f m).conversationId = m.conversationId)
      (hr : d'.messages.rows = d.messages.rows.map f) : MessageWrite d d' (.updateRead id) r
  | insert {id senderId : Nat} {text : String} {row : Message} (hc : row.conversationId = id)
      (hex : (d.conversation id).isSome) (hr : d'.messages.rows = d.messages.rows ++ [row]) :
      MessageWrite d d' (.insertMessage id senderId text) (.ok row)

theorem act_fail {e : PgError} (h : act env (.fail e) c q d = some (r, d')) :
    q.inMemory = false ∧ r = .error e ∧ d' = d := by
  change (if q.inMemory then none else some (.error e, d)) = some (r, d') at h
  split at h
  · cases h
  · rename_i hm
    simp only [Option.some.injEq, Prod.mk.injEq] at h
    exact ⟨by simpa using hm, h.1.symm, h.2.symm⟩

/-- The statements that write the sockets or the registry. -/
def Stmt.wires : Stmt → Bool
  | .openSocket | .register _ | .kick | .disconnect _ | .join _ _ => true
  | _ => false

/-- The statements that write conversations. -/
def Stmt.talks : Stmt → Bool
  | .insertConversation _ _ _ | .updateProduct _ _ | .updateLastMessage _ _ => true
  | _ => false

/-- The statements that write messages. -/
def Stmt.says : Stmt → Bool
  | .insertMessage _ _ _ | .updateRead _ => true
  | _ => false

/-- What a statement leaves as it is. -/
structure Framed (q : Stmt) (d d' : Db) : Prop where
  wires : q.wires = false → d'.sockets = d.sockets ∧ d'.registry = d.registry
  conversations : q.talks = false → d'.conversations = d.conversations
  messages : q.says = false → d'.messages = d.messages
  frozen : d'.users = d.users ∧ d'.products = d.products ∧ d'.owners = d.owners

theorem act_framed (h : act env m c q d = some (r, d')) : Framed q d d' := by
  cases m with
  | fail e =>
    obtain ⟨-, -, rfl⟩ := act_fail h
    exact ⟨fun _ => ⟨rfl, rfl⟩, fun _ => rfl, fun _ => rfl, rfl, rfl, rfl⟩
  | run wait =>
    cases q with
    | insertConversation =>
      simp only [act, exec] at h
      repeat' split at h
      all_goals
        cases h
        exact ⟨fun _ => ⟨rfl, rfl⟩, fun hq => (by cases hq), fun _ => rfl, rfl, rfl, rfl⟩
    | insertMessage =>
      simp only [act, exec] at h
      repeat' split at h
      all_goals
        cases h
        exact ⟨fun _ => ⟨rfl, rfl⟩, fun _ => rfl, fun hq => (by cases hq), rfl, rfl, rfl⟩
    | insertFollowupMessage | upsertFollowup | deliver =>
      simp only [act, exec] at h
      repeat' split at h
      all_goals
        cases h
        try exact ⟨fun _ => ⟨rfl, rfl⟩, fun _ => rfl, fun _ => rfl, rfl, rfl, rfl⟩
    | openSocket | disconnect =>
      simp only [act, exec] at h
      split at h
      · cases h
        exact ⟨fun hq => (by cases hq), fun _ => rfl, fun _ => rfl, rfl, rfl, rfl⟩
      · cases h
    | kick =>
      cases h
      split <;> exact ⟨fun hq => (by cases hq), fun _ => rfl, fun _ => rfl, rfl, rfl, rfl⟩
    | join k room =>
      cases h
      unfold joinRoom
      split <;> exact ⟨fun hq => (by cases hq), fun _ => rfl, fun _ => rfl, rfl, rfl, rfl⟩
    | register sub =>
      cases h
      exact ⟨fun hq => (by cases hq), fun _ => rfl, fun _ => rfl, rfl, rfl, rfl⟩
    | updateProduct | updateLastMessage =>
      cases h
      exact ⟨fun _ => ⟨rfl, rfl⟩, fun hq => (by cases hq), fun _ => rfl, rfl, rfl, rfl⟩
    | updateRead =>
      cases h
      exact ⟨fun _ => ⟨rfl, rfl⟩, fun _ => rfl, fun hq => (by cases hq), rfl, rfl, rfl⟩
    | _ =>
      cases h
      exact ⟨fun _ => ⟨rfl, rfl⟩, fun _ => rfl, fun _ => rfl, rfl, rfl, rfl⟩

theorem act_wired (h : act env m c q d = some (r, d')) : Wired env c d d' q := by
  have hframe := act_framed h
  cases m with
  | fail e =>
    obtain ⟨hm, -, rfl⟩ := act_fail h
    refine .same (fun sub hq => ?_) rfl rfl
    subst hq
    cases hm
  | run wait =>
    cases q with
    | openSocket =>
      simp only [act, exec] at h
      split at h
      · rename_i hp
        cases h
        exact .opened hp rfl rfl
      · cases h
    | register sub =>
      cases h
      exact .registered rfl rfl
    | kick =>
      simp only [act, exec] at h
      split at h
      · rename_i hp
        cases h
        exact .closed (fun _ hq => by cases hq) hp rfl rfl
      · cases h
        exact .same (fun _ hq => by cases hq) rfl rfl
    | disconnect k =>
      simp only [act, exec] at h
      split at h
      · rename_i hp
        cases h
        exact .closed (fun _ hq => by cases hq) hp rfl rfl
      · cases h
    | join k room =>
      cases h
      refine .joined ?_ ?_
      · unfold joinRoom
        split <;> rfl
      · unfold joinRoom
        split <;> rfl
    | _ =>
      obtain ⟨hs, hr⟩ := hframe.wires rfl
      exact .same (fun _ hq => by cases hq) hs hr

theorem act_conversations (h : act env m c q d = some (r, d')) : ConversationWrite d d' q r := by
  have hframe := act_framed h
  cases m with
  | fail e =>
    obtain ⟨hm, rfl, rfl⟩ := act_fail h
    exact .same (fun _ _ _ => rfl) rfl le_rfl
  | run wait =>
    cases q with
    | insertConversation =>
      simp only [act, exec] at h
      split at h
      on_goal 2 => split at h
      on_goal 3 => split at h
      case isFalse.isFalse.isFalse hle hpair _ =>
        cases h
        exact .insert { id := _, userAId := _, userBId := _, productId := _, createdAt := _ } rfl rfl rfl rfl
          (Nat.lt_of_not_le hle) (Option.not_isSome_iff_eq_none.mp hpair) rfl
      all_goals
        cases h
        exact .same (fun _ _ hq => by cases hq) rfl (Nat.le_succ _)
    | updateProduct p id =>
      cases h
      exact .product rfl
    | updateLastMessage m id =>
      cases h
      exact .lastMessage rfl
    | _ =>
      have hsame := hframe.conversations rfl
      exact .same (fun _ _ hq => by cases hq) (congrArg _ hsame) (le_of_eq (congrArg _ hsame.symm))

theorem act_messages (h : act env m c q d = some (r, d')) : MessageWrite d d' q r := by
  have hframe := act_framed h
  cases m with
  | fail e =>
    obtain ⟨hm, rfl, rfl⟩ := act_fail h
    exact .same (fun _ _ _ _ => rfl) rfl
  | run wait =>
    cases q with
    | insertMessage =>
      simp only [act, exec] at h
      split at h
      on_goal 2 => split at h
      case isFalse.isFalse hex =>
        cases h
        refine .insert rfl ?_ rfl
        simp only [Bool.not_eq_true', Bool.and_eq_false_iff, not_or, Bool.not_eq_false] at hex
        exact hex.1
      all_goals
        cases h
        exact .same (fun _ _ _ _ => rfl) rfl
    | updateRead id =>
      cases h
      exact .read (fun m => by dsimp only; split <;> rfl) (fun m => by dsimp only; split <;> rfl) rfl
    | _ => exact .same (fun _ _ _ hq => by cases hq) (congrArg _ (hframe.messages rfl))

/-- Users, products and items stay as they are. -/
theorem act_frozen (h : act env m c q d = some (r, d')) :
    d'.users = d.users ∧ d'.products = d.products ∧ d'.owners = d.owners :=
  (act_framed h).frozen

theorem act_users (h : act env m c q d = some (r, d')) : d'.users = d.users ∧ d'.products = d.products :=
  ⟨(act_frozen h).1, (act_frozen h).2.1⟩

section Found
variable {id : Nat}

theorem conversation_some {row : Conversation} (h : d.conversation id = some row) :
    row ∈ d.conversations.rows ∧ row.id = id := by
  have hp := List.find?_some h
  exact ⟨List.mem_of_find?_eq_some h, by simpa using hp⟩

theorem pair_some {a b : Nat} {row : Conversation} (h : d.pair a b = some row) :
    row ∈ d.conversations.rows ∧ row.userAId = a ∧ row.userBId = b := by
  have hp := List.find?_some h
  exact ⟨List.mem_of_find?_eq_some h, by simpa using hp⟩

end Found

section Persistence
variable {k : Client}

/-- The first conversation with a property of its ids stays the first one. -/
theorem ConversationWrite.find (hw : ConversationWrite d d' q r) {p : Conversation → Bool}
    (hp : ∀ row product last, p { row with productId := product, lastMessageId := last } = p row)
    {row : Conversation} (h : d.conversations.rows.find? p = some row) :
    ∃ row', d'.conversations.rows.find? p = some row' ∧ row'.id = row.id ∧ row'.userAId = row.userAId ∧
      row'.userBId = row.userBId := by
  have hmap : ∀ (i : Nat) (f : Conversation → Conversation), (∀ r, p (f r) = p r) →
      (∀ r, (f r).id = r.id ∧ (f r).userAId = r.userAId ∧ (f r).userBId = r.userBId) →
      d'.conversations = (d.updateConversation i f).conversations →
      ∃ row', d'.conversations.rows.find? p = some row' ∧ row'.id = row.id ∧ row'.userAId = row.userAId ∧
        row'.userBId = row.userBId := by
    intro i f hpf hf hd
    refine ⟨if row.id = i then f row else row, ?_, ?_⟩
    · have hcomp : (p ∘ fun r => if r.id = i then f r else r) = p := by
        funext r
        rw [Function.comp_apply]
        split
        · exact hpf r
        · rfl
      rw [hd, Db.updateConversation, List.find?_map, hcomp]
      exact congrArg (Option.map _) h
    · split
      · exact hf row
      · exact ⟨rfl, rfl, rfl⟩
  cases hw with
  | same hq hr hn => exact ⟨row, hr ▸ h, rfl, rfl, rfl⟩
  | product hd =>
    refine hmap _ _ ?_ ?_ hd
    · exact fun r => hp r _ r.lastMessageId
    · exact fun _ => ⟨rfl, rfl, rfl⟩
  | lastMessage hd =>
    refine hmap _ _ ?_ ?_ hd
    · exact fun r => hp r r.productId _
    · exact fun _ => ⟨rfl, rfl, rfl⟩
  | insert new ha hb hid hl hlt hfree hd =>
    refine ⟨row, ?_, rfl, rfl, rfl⟩
    rw [hd, List.find?_append, Option.or_eq_some_iff]
    exact Or.inl h

theorem ConversationWrite.found (hw : ConversationWrite d d' q r) {id : Nat} {row : Conversation}
    (h : d.conversation id = some row) :
    ∃ row', d'.conversation id = some row' ∧ row'.userAId = row.userAId ∧ row'.userBId = row.userBId := by
  obtain ⟨row', hrow, -, hab⟩ := hw.find (fun _ _ _ => rfl) h
  exact ⟨row', hrow, hab⟩

theorem ConversationWrite.pair (hw : ConversationWrite d d' q r) {a b : Nat} {row : Conversation}
    (h : d.pair a b = some row) : ∃ row', d'.pair a b = some row' ∧ row'.id = row.id := by
  obtain ⟨row', hrow, hid, -⟩ := hw.find (fun _ _ _ => rfl) h
  exact ⟨row', hrow, hid⟩

theorem MessageWrite.found (hw : MessageWrite d d' q r) {id : Nat} {row : Message} (h : d.message id = some row) :
    ∃ row', d'.message id = some row' ∧ row'.conversationId = row.conversationId := by
  cases hw with
  | same hq hr =>
    rw [Db.message] at h ⊢
    exact ⟨row, hr ▸ h, rfl⟩
  | @read i r f hid hc hr =>
    refine ⟨f row, ?_, hc row⟩
    have hp : (fun m : Message => decide (m.id = id)) ∘ f = fun m => decide (m.id = id) := by
      funext m
      rw [Function.comp_apply, hid]
    rw [Db.message, hr, List.find?_map, hp]
    exact congrArg (Option.map f) h
  | insert hc hex hr =>
    refine ⟨row, ?_, rfl⟩
    rw [Db.message, hr, List.find?_append, Option.or_eq_some_iff]
    exact Or.inl h

/-- The user of a socket changes by its own registration only. -/
theorem Wired.user (hw : Wired env c d d' q) :
    (d'.sockets k).user = (d.sockets k).user ∨
      (k = c ∧ ∃ sub, q = .register sub ∧ (d'.sockets k).user = some sub) := by
  cases hw with
  | same hq hs hr =>
    rw [hs]
    exact Or.inl rfl
  | opened hp hs hr =>
    rw [hs]
    by_cases hk : k = c
    · subst hk
      simp
    · simp [hk]
  | @registered sub hs hr =>
    rw [hs]
    by_cases hk : k = c
    · subst hk
      simp
    · simp [hk]
  | @closed k' q hq hp hs hr =>
    rw [hs]
    by_cases hk : k = k'
    · subst hk
      simp [closeSocket]
    · simp [closeSocket, hk]
  | @joined k' room hs hr =>
    rw [hs, joinRoom]
    split
    · by_cases hk : k = k'
      · subst hk
        simp
      · simp [hk]
    · exact Or.inl rfl

/-- A socket is in a room that it was in before, or that it joins. -/
theorem Wired.room (hw : Wired env c d d' q) {room : String} (h : room ∈ (d'.sockets k).rooms) :
    room ∈ (d.sockets k).rooms ∨ q = .join k room := by
  cases hw with
  | same hq hs hr =>
    rw [hs] at h
    exact Or.inl h
  | opened hp hs hr | registered hs hr =>
    rw [hs] at h
    by_cases hk : k = c
    · subst hk
      rw [Function.update_self] at h
      exact Or.inl h
    · rw [Function.update_of_ne hk] at h
      exact Or.inl h
  | @closed k' q hq hp hs hr =>
    rw [hs, closeSocket] at h
    by_cases hk : k = k'
    · subst hk
      simp at h
    · dsimp only at h
      rw [Function.update_of_ne hk] at h
      exact Or.inl h
  | @joined k' room' hs hr =>
    rw [hs, joinRoom] at h
    split at h
    · by_cases hk : k = k'
      · subst hk
        dsimp only at h
        rw [Function.update_self] at h
        rcases List.mem_cons.mp h with rfl | h
        · exact Or.inr rfl
        · exact Or.inl h
      · dsimp only at h
        rw [Function.update_of_ne hk] at h
        exact Or.inl h
    · exact Or.inl h

/-- The sockets that are registered under a user. -/
def Db.socketsOf (d : Db) (userId : Nat) : List Client := (d.registry userId).getD []

theorem mem_registerUserSocket {u v : Nat} {registry : Nat → Option (List Client)} :
    k ∈ (registerUserSocket u c registry v).getD [] ↔ k ∈ (registry v).getD [] ∨ (k = c ∧ v = u) := by
  unfold registerUserSocket
  by_cases hv : v = u
  · subst hv
    rw [Function.update_self, Option.getD_some]
    split
    · rename_i hc
      constructor
      · exact Or.inl
      · rintro (h | ⟨rfl, -⟩)
        · exact h
        · exact hc
    · simp
  · simp [hv]

theorem mem_unregisterUserSocket {u v : Nat} {registry : Nat → Option (List Client)} :
    k ∈ (unregisterUserSocket u c registry v).getD [] ↔
      k ∈ (registry v).getD [] ∧ ¬ (k = c ∧ v = u) := by
  unfold unregisterUserSocket
  rcases hu : registry u with _ | sockets
  · dsimp only
    constructor
    · intro h
      refine ⟨h, ?_⟩
      rintro ⟨rfl, rfl⟩
      simp [hu] at h
    · exact And.left
  · by_cases hv : v = u
    · subst hv
      have hrest : k ∈ (if sockets.filter (· ≠ c) = [] then none else some (sockets.filter (· ≠ c))).getD [] ↔
          k ∈ sockets.filter (· ≠ c) := by
        split
        · rename_i hnil
          rw [hnil]
          rfl
        · rfl
      dsimp only
      rw [Function.update_self, hu, Option.getD_some, hrest, List.mem_filter]
      simp
    · simp [hv]

/-- A socket that closes is no longer found under its user. -/
theorem mem_closeSocket {k' : Client} {u : Nat} : k ∈ ((closeSocket k' d).registry u).getD [] ↔
    k ∈ d.socketsOf u ∧ ¬ (k = k' ∧ (d.sockets k').user = some u ∧ u ≠ 0) := by
  unfold closeSocket Db.socketsOf
  rcases hu : (d.sockets k').user with _ | sub
  · simp
  · by_cases hz : sub = 0
    · subst hz
      simp
      omega
    · simp only [hz, if_false, mem_unregisterUserSocket, Option.some.injEq]
      constructor
      · rintro ⟨hk, hne⟩
        exact ⟨hk, fun h => hne ⟨h.1, h.2.1.symm⟩⟩
      · rintro ⟨hk, hne⟩
        exact ⟨hk, fun h => hne ⟨h.1, h.2.symm, h.2 ▸ hz⟩⟩

/-- A socket is found under a user that it was under before, or that it registers under. -/
theorem Wired.registry (hw : Wired env c d d' q) {u : Nat} (h : k ∈ d'.socketsOf u) :
    k ∈ d.socketsOf u ∨ (k = c ∧ q = .register u) := by
  cases hw with
  | same hq hs hr | opened hp hs hr | joined hs hr =>
    rw [Db.socketsOf, hr] at h
    exact Or.inl h
  | registered hs hr =>
    rw [Db.socketsOf, hr] at h
    rcases mem_registerUserSocket.mp h with h | ⟨rfl, rfl⟩
    · exact Or.inl h
    · exact Or.inr ⟨rfl, rfl⟩
  | closed hq hp hs hr =>
    rw [Db.socketsOf, hr] at h
    exact Or.inl (mem_closeSocket.mp h).1

end Persistence

end Kayan.Chat
