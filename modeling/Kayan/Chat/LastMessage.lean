import Kayan.Chat.Rooms

/-!
# The last message of a conversation

`sendMessage` inserts a message and then points its conversation at it, in two statements. While a
conversation does not point at its newest message, the call that inserted this message has still
to write it: that lasts while no call writes in the wrong order and the newest write succeeds.
-/
namespace Kayan.Chat
open Interleave

variable {env : Env} {req : Client → Request} {m : Move} {c : Client} {q : Stmt} {d d' : Db} {r : Answer q}
  {s t : State} {e : Taken} {xs : List Taken} {ph : Client → Seen} {id n : Nat}

/-- The message of the conversation that was inserted last. -/
def Db.newest (d : Db) (id : Nat) : Option Nat :=
  (d.messages.rows.reverse.find? (·.conversationId = id)).map (·.id)

/-- Every conversation with messages points at the newest one. -/
def Settled (d : Db) : Prop :=
  ∀ row ∈ d.conversations.rows, ∀ n, d.newest row.id = some n → row.lastMessageId = some n

/-- The keys of the tables: an id that is still to come has no row, and no message. -/
structure Keyed (d : Db) : Prop where
  ids : ∀ row ∈ d.conversations.rows, row.id < d.conversations.next
  messages : ∀ m ∈ d.messages.rows, ∃ row ∈ d.conversations.rows, row.id = m.conversationId

def Move.runs : Move → Bool
  | .run _ => true
  | .fail _ => false

/-- The `UPDATE` for the newest message of a conversation does not fail, and one for an earlier
message does not run on a conversation that points at its newest message. -/
def InTurn (s : State) (e : Taken) : Prop :=
  ∀ i id, e.stmt = .updateLastMessage i id →
    (s.db.newest id = some i → e.move.runs = true) ∧
    (s.db.newest id ≠ some i → e.move.runs = true →
      ∀ row ∈ s.db.conversations.rows, row.id = id → row.lastMessageId ≠ s.db.newest id)

/-- A conversation points at its newest message, or a call is to write that. -/
def Pointed (d : Db) (ph : Client → Seen) : Prop :=
  ∀ row ∈ d.conversations.rows, ∀ n, d.newest row.id = some n →
    row.lastMessageId = some n ∨ ∃ c, (ph c).due = some (n, row.id)

section Writes

/-- The newest message changes by an insertion, which its call has noted. -/
theorem MessageWrite.newest (hw : MessageWrite d d' q r) :
    d'.newest id = d.newest id ∨ ∃ n, q.due r = some (some (n, id)) ∧ d'.newest id = some n := by
  cases hw with
  | same hq hr =>
    rw [Db.newest, hr]
    exact Or.inl rfl
  | @read i r f hid hc hr =>
    refine Or.inl ?_
    have hp : (fun m : Message => decide (m.conversationId = id)) ∘ f = fun m => decide (m.conversationId = id) := by
      funext m
      rw [Function.comp_apply, hc]
    have hi : (fun m : Message => m.id) ∘ f = fun m => m.id := funext hid
    rw [Db.newest, hr, ← List.map_reverse, List.find?_map, hp, Option.map_map, hi]
    rfl
  | @insert i senderId text row hc hex hr =>
    rw [Db.newest, hr, List.reverse_concat, List.find?_cons]
    by_cases hi : i = id
    · subst hi
      rw [hc, decide_eq_true rfl]
      exact Or.inr ⟨row.id, rfl, rfl⟩
    · rw [hc, decide_eq_false hi]
      exact Or.inl rfl

/-- A row after a write is one before it, up to the message that it points at, or a new one. -/
theorem ConversationWrite.mem (hw : ConversationWrite d d' q r) {row : Conversation}
    (h : row ∈ d'.conversations.rows) :
    (∃ old ∈ d.conversations.rows, old.id = row.id ∧ (row.lastMessageId = old.lastMessageId ∨
      ∃ i, q = .updateLastMessage i row.id ∧ r.isOk = true ∧ row.lastMessageId = some i)) ∨
    row.id = d.conversations.next := by
  cases hw with
  | same hq hr hn => exact Or.inl ⟨row, hr ▸ h, rfl, Or.inl rfl⟩
  | product hd =>
    rw [hd] at h
    obtain ⟨old, ho, rfl⟩ := List.mem_map.mp h
    refine Or.inl ⟨old, ho, ?_, Or.inl ?_⟩
    · split <;> rfl
    · split <;> rfl
  | @lastMessage i id hd =>
    rw [hd] at h
    obtain ⟨old, ho, rfl⟩ := List.mem_map.mp h
    refine Or.inl ⟨old, ho, ?_⟩
    split
    · rename_i hid
      subst hid
      exact ⟨rfl, Or.inr ⟨i, rfl, rfl, rfl⟩⟩
    · exact ⟨rfl, Or.inl rfl⟩
  | insert new ha hb hid hl hlt hfree hd =>
    rw [hd] at h
    rcases List.mem_append.mp h with h | h
    · exact Or.inl ⟨row, h, rfl, Or.inl rfl⟩
    · obtain rfl := List.mem_singleton.mp h
      exact Or.inr hid

/-- An `UPDATE` that runs writes every row of the conversation. -/
theorem act_updateLastMessage {i : Nat} (hq : q = .updateLastMessage i id) (h : act env m c q d = some (r, d'))
    (hm : m.runs = true) {row : Conversation} (hrow : row ∈ d'.conversations.rows) (hid : row.id = id) :
    row.lastMessageId = some i := by
  subst hq
  cases m with
  | fail e => cases hm
  | run wait =>
    cases h
    obtain ⟨old, ho, rfl⟩ := List.mem_map.mp hrow
    split
    · rfl
    · rename_i hne
      rw [if_neg hne] at hid
      exact absurd hid hne

theorem act_isOk (h : act env m c q d = some (r, d')) (hr : r.isOk = true) : m.runs = true := by
  cases m with
  | run wait => rfl
  | fail e =>
    obtain ⟨-, rfl, -⟩ := act_fail h
    cases hr

theorem ConversationWrite.ids (hw : ConversationWrite d d' q r) (id : Nat)
    (h : ∃ row ∈ d.conversations.rows, row.id = id) : ∃ row ∈ d'.conversations.rows, row.id = id := by
  obtain ⟨row, hrow, rfl⟩ := h
  cases hw with
  | same hq hr hn => exact ⟨row, hr ▸ hrow, rfl⟩
  | product hd | lastMessage hd =>
    rw [hd]
    refine ⟨_, List.mem_map_of_mem hrow, ?_⟩
    split <;> rfl
  | insert new ha hb hid hl hlt hfree hd =>
    rw [hd]
    exact ⟨row, List.mem_append_left _ hrow, rfl⟩

/-- A new row has the id that was next. -/
theorem ConversationWrite.ids_lt (hw : ConversationWrite d d' q r)
    (h : ∀ row ∈ d.conversations.rows, row.id < d.conversations.next) :
    ∀ row ∈ d'.conversations.rows, row.id < d'.conversations.next := by
  intro row hrow
  cases hw with
  | same hq hr hn => exact Nat.lt_of_lt_of_le (h row (hr ▸ hrow)) hn
  | product hd | lastMessage hd =>
    rw [hd] at hrow ⊢
    obtain ⟨old, ho, rfl⟩ := List.mem_map.mp hrow
    have hold := h old ho
    split <;> exact hold
  | insert new ha hb hid hl hlt hfree hd =>
    rw [hd] at hrow ⊢
    rcases List.mem_append.mp hrow with hrow | hrow
    · exact Nat.lt_succ_of_lt (h row hrow)
    · obtain rfl := List.mem_singleton.mp hrow
      rw [hid]
      exact Nat.lt_succ_self _

theorem Keyed.step (h : Keyed d) (ha : act env m c q d = some (r, d')) : Keyed d' := by
  have hw := act_conversations ha
  refine ⟨hw.ids_lt h.ids, fun i hi => ?_⟩
  have hold : ∃ row ∈ d.conversations.rows, row.id = i.conversationId := by
    cases act_messages ha with
    | same hq hr => exact h.messages i (hr ▸ hi)
    | read hid hc hr =>
      rw [hr] at hi
      obtain ⟨old, ho, rfl⟩ := List.mem_map.mp hi
      rw [hc]
      exact h.messages old ho
    | insert hc hex hr =>
      rw [hr] at hi
      rcases List.mem_append.mp hi with hi | hi
      · exact h.messages i hi
      · obtain rfl := List.mem_singleton.mp hi
        obtain ⟨row, hrow⟩ := Option.isSome_iff_exists.mp hex
        rw [hc]
        exact ⟨row, conversation_some hrow⟩
  exact hw.ids _ hold

/-- A conversation with a message has a row. -/
theorem Keyed.newest_lt (h : Keyed d) (hn : d.newest id = some n) : id < d.conversations.next := by
  obtain ⟨i, hi, -⟩ := Option.map_eq_some_iff.mp hn
  obtain ⟨row, hrow, hid⟩ := h.messages i (List.mem_reverse.mp (List.mem_of_find?_eq_some hi))
  have hc : i.conversationId = id := by simpa using List.find?_some hi
  rw [← hc, ← hid]
  exact h.ids row hrow

end Writes

section Steps

/-- Where a statement decides what is to be written, it inserts a message or writes one. -/
theorem due_cases {x : Seen} {w : Option (Nat × Nat)} (hm : x.may env q) (hq : q.due r = some w) :
    x.due = none ∨ ∃ i id, q = .updateLastMessage i id ∧ x.due = some (i, id) := by
  cases q with
  | insertMessage => exact Or.inl hm
  | updateLastMessage i id => exact Or.inr ⟨i, id, rfl, hm⟩
  | _ => cases r <;> cases hq

/-- A step in turn keeps what waits to be written. -/
theorem Pointed.step (h : Pointed s.db ph) (hk : Keyed s.db) (hm : (ph e.client).may env e.stmt)
    (hs : Step (act env) s e t) (hturn : InTurn s e) : Pointed t.db (noted Seen.after ph e) := by
  have ha := hs.acted
  intro row hrow n hn
  have hself : (noted Seen.after ph e e.client).due = (e.stmt.due e.reply).getD (ph e.client).due := by
    rw [noted_self]
    rfl
  have hnewest : t.db.newest row.id = s.db.newest row.id ∨ _ := (act_messages ha).newest
  rcases hnewest with hsame | ⟨n', hdue, hnew⟩
  · rw [hsame] at hn
    rcases (act_conversations ha).mem hrow with ⟨old, ho, hid, hlast⟩ | hnext
    · rcases h old ho n (hid ▸ hn) with hpoints | ⟨b, hb⟩
      · -- a conversation that points at its newest message is written for that one only
        rcases hlast with hlast | ⟨i, hq, hok, hlast⟩
        · exact Or.inl (hlast.trans hpoints)
        · refine Or.inl (hlast.trans ?_)
          by_contra hne
          have hother : s.db.newest row.id ≠ some i := fun hi => hne (hi.symm.trans hn)
          refine (hturn i row.id hq).2 hother (act_isOk ha hok) old ho hid ?_
          rw [hpoints, hn]
      · -- the call that is to write the newest message goes on to do that, or has just done it
        by_cases hbc : b = e.client
        · subst hbc
          rcases hdue : e.stmt.due e.reply with _ | w
          · refine Or.inr ⟨e.client, ?_⟩
            rw [hself, hdue, ← hid]
            exact hb
          · rcases due_cases hm hdue with hnone | ⟨i, id, hq, hdue⟩
            · rw [hb] at hnone
              cases hnone
            · rw [hb] at hdue
              cases hdue
              have hruns := (hturn n old.id hq).1 (hid ▸ hn)
              exact Or.inl (act_updateLastMessage hq ha hruns hrow hid.symm)
        · refine Or.inr ⟨b, ?_⟩
          rw [noted_of_ne hbc, ← hid]
          exact hb
    · have hlt := hk.newest_lt hn
      omega
  · rw [hnew] at hn
    cases hn
    refine Or.inr ⟨e.client, ?_⟩
    rw [hself, hdue]
    rfl

theorem Pointed.run (h : Pointed s.db ph) (hk : Keyed s.db) (hp : InPhase (calls env) ends ph s)
    (hr : Trace.Run (fun s e t => Step (act env) s e t ∧ InTurn s e) s xs t) :
    Pointed t.db (xs.foldl (noted Seen.after) ph) ∧
      InPhase (calls env) ends (xs.foldl (noted Seen.after) ph) t := by
  have hall := (kept_run Seen.after hr ph).preserves
    (I := fun u => Pointed u.1.db u.2 ∧ InPhase (calls env) ends u.2 u.1 ∧ Keyed u.1.db) ?_ ⟨h, hp, hk⟩
  · exact ⟨hall.1, hall.2.1⟩
  · rintro ⟨s, ph⟩ e ⟨t, ph'⟩ ⟨⟨hs, hturn⟩, rfl⟩ ⟨h, hp, hk⟩
    obtain ⟨hm, hp'⟩ := hp.noted hs
    exact ⟨h.step hk hm hs hturn, hp', hk.step hs.acted⟩

/-- A call that has not begun, or has ended, is to write nothing. -/
theorem idle_of_rested (hrest : Rested xs t)
    (hp : InPhase (calls env) ends (xs.foldl (noted Seen.after) fun c => Seen.start (req c)) t) (c : Client) :
    (xs.foldl (noted Seen.after) (fun c => Seen.start (req c)) c).due = none := by
  by_cases hbegun : ∃ e ∈ xs, e.client = c
  · obtain ⟨e, he, rfl⟩ := hbegun
    obtain ⟨a, ha⟩ := Prog.ended_ret (hrest e he)
    exact hp.result ha
  · have hidle := notes_of_idle Seen.after (fun c => Seen.start (req c))
      fun e he hec => hbegun ⟨e, he, hec⟩
    exact congrArg Seen.due hidle

/-- When no call is in progress, every conversation points at its newest message: in every run in
which the newest message is always written, and an earlier one never over it. -/
theorem last_message_newest (hk : Keyed d) (hd : Settled d)
    (hr : Trace.Run (fun s e t => Step (act env) s e t ∧ InTurn s e) (initial env req d) xs t)
    (hrest : Rested xs t) : Settled t.db := by
  have hstart : Pointed (initial env req d).db fun c => Seen.start (req c) :=
    fun row hrow n hn => Or.inl (hd row hrow n hn)
  obtain ⟨hp, hphase⟩ := hstart.run hk initial_follows hr
  intro row hrow n hn
  rcases hp row hrow n hn with hlast | ⟨c, hc⟩
  · exact hlast
  · have hnone := idle_of_rested hrest hphase c
    rw [hc] at hnone
    cases hnone

end Steps

section Fixtures

theorem quiet_keyed : Keyed quiet := ⟨nofun, nofun⟩

theorem quiet_settled : Settled quiet := nofun

/-- The two users connect, the first opens a conversation, and the second sends a message twice. -/
def inTurns : List (Client × Move) :=
  inOrder 0 3 ++ inOrder 1 3 ++ inOrder 2 13 ++ inOrder 3 7 ++ inOrder 4 7

theorem last_message_newest_meeting : ∃ xs t, Trace.Run (Step (act openEnv)) (initial openEnv meeting quiet) xs t ∧
    t.db.newest 1 = some 2 ∧ Settled t.db := by
  have hplay : (replay (act openEnv) (fun s e => match e.stmt with
      | .updateLastMessage i id => s.db.newest id == some i && e.move.runs
      | _ => true) inTurns (initial openEnv meeting quiet)).map (fun t => (t.db.newest 1,
          inTurns.all fun x => (t.prog x.1).ended)) = some (some 2, true) := by
    decide +kernel
  obtain ⟨xs, t, hr, hms, ht⟩ := replay_trace hplay
  obtain ⟨hnewest, hended⟩ := Prod.mk.inj ht
  have hturn : Trace.Run (fun s e t => Step (act openEnv) s e t ∧ InTurn s e)
      (initial openEnv meeting quiet) xs t := by
    refine hr.mono fun s e t h => ⟨h.1, fun i id hq => ?_⟩
    have hok := h.2
    rw [hq] at hok
    obtain ⟨hi, hruns⟩ := Bool.and_eq_true_iff.mp hok
    exact ⟨fun _ => hruns, fun hne => absurd (eq_of_beq hi) hne⟩
  exact ⟨xs, t, hturn.mono fun _ _ _ h => h.1, hnewest,
    last_message_newest quiet_keyed quiet_settled hturn (Rested.of_schedule hms hended)⟩

/-- The second user sends the message twice at once. -/
def crossing : List (Client × Move) :=
  inOrder 0 3 ++ inOrder 1 3 ++ inOrder 2 13 ++ inOrder 3 4 ++ inOrder 4 7 ++ inOrder 3 3

/-- Two messages are sent at once, and the `UPDATE` for the first one comes last. -/
theorem last_message_overwritten : ∃ xs t,
    Trace.Run (Step (act openEnv)) (initial openEnv meeting quiet) xs t ∧ Rested xs t ∧ ¬ Settled t.db := by
  have hplay : (play (act openEnv) (fun _ _ _ _ => true) crossing (initial openEnv meeting quiet)).map
      (fun t => (crossing.all fun x => (t.prog x.1).ended,
        (t.db.conversations.rows.map fun row => (row.id, row.lastMessageId), t.db.newest 1))) =
        some (true, ([(1, some 1)], some 2)) := by
    decide +kernel
  obtain ⟨xs, t, hr, hms, ht⟩ := play_trace hplay
  simp only [Prod.mk.injEq] at ht
  obtain ⟨hended, hrows, hnewest⟩ := ht
  refine ⟨xs, t, hr.mono fun _ _ _ h => h.1, Rested.of_schedule hms hended, fun hsettled => ?_⟩
  have hmem : (1, some 1) ∈ t.db.conversations.rows.map fun row => (row.id, row.lastMessageId) := by
    rw [hrows]
    exact List.mem_cons_self
  obtain ⟨row, hrow, heq⟩ := List.mem_map.mp hmem
  obtain ⟨hid, hlast⟩ := Prod.mk.inj heq
  have hpoints := hsettled row hrow 2 (hid ▸ hnewest)
  rw [hlast] at hpoints
  cases hpoints

end Fixtures

end Kayan.Chat
