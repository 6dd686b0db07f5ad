import Kayan.Chat.Seen

/-!
# The chat calls keep to their protocol

Statement by statement: what each call has seen when it ends, whatever its statements reply.
-/
namespace Kayan.Chat
open Interleave
open Sessions (JwtPayload Handshake extractToken normalizedSub toPositiveInt toPositiveInt_iff)

variable {env : Env} {x : Seen} {α : Type} {E : Seen → Prop}

section Rules

/-- A statement that may be issued: its reply decides where the call is. -/
theorem keeps_query {q : Stmt} {Q : Reply q → Seen → Prop} (hm : x.may env q)
    (h : ∀ r, outcome Q E r (x.after q r)) : Keeps (calls env) x (query q) Q E :=
  Keeps.await fun r => ⟨x.after q r, ⟨hm, rfl⟩, h r⟩

/-- A statement that tells nothing. -/
theorem still_query {q : Stmt} (hm : x.may env q) (h : ∀ r, x.after q r = x) :
    Still (calls env) x (query q) :=
  Still.await fun r => ⟨hm, (h r).symm⟩

/-- An id that arrives as text is the id that it is the text of. -/
theorem bigint_id {n k : Nat} (h : toPositiveInt (some (bigint n)) = some k) : k = n := by
  obtain ⟨hk, -⟩ := toPositiveInt_iff.mp h
  have hn : positiveInteger (n : ℚ) = some k := by
    rw [← hk, bigint, Option.bind_some, number, stringToNumber_toString, Option.bind_some]
  rcases Nat.eq_zero_or_pos n with rfl | hpos
  · cases hn
  · rw [positiveInteger_natCast hpos] at hn
    exact (Option.some.inj hn).symm

theorem bigint_toPositiveInt {n : Nat} (h : 0 < n) : toPositiveInt (some (bigint n)) = some n := by
  refine toPositiveInt_iff.mpr ⟨?_, Or.inr ⟨_, rfl⟩⟩
  rw [bigint, Option.bind_some, number, stringToNumber_toString, Option.bind_some,
    positiveInteger_natCast h]

end Rules

section Participants
variable {conversationId userId : Nat}

/-- What the lookup of the participants leaves. -/
def lookedUp (x : Seen) (conversationId : Nat) (row : Payload × Payload) : Seen :=
  { x with row := some (conversationId, row) }

/-- The lookup of the participants, before what follows from its reply. -/
theorem keeps_participants {Q : α → Seen → Prop} {f : Option (Payload × Payload) → Code α} (he : E x)
    (hnone : Keeps (calls env) x (f none) Q E)
    (hsome : ∀ row, Keeps (calls env) (lookedUp x conversationId row) (f (some row)) Q E) :
    Keeps (calls env) x (query (.selectParticipants conversationId) >>= f) Q E := by
  refine Keeps.bind (Q := fun row y => Keeps (calls env) y (f row) Q E) (keeps_query trivial fun r => ?_)
    fun _ _ h => h
  cases r with
  | error e => exact he
  | ok row =>
    rcases row with _ | row
    · exact hnone
    · exact hsome row

/-- Who passes takes part in the conversation. -/
theorem assertConversationParticipant_keeps (he : E x) (hl : ∀ row, E (lookedUp x conversationId row)) :
    Keeps (calls env) x (assertConversationParticipant conversationId userId)
      (fun _ y => y.participant conversationId userId ∧ ∃ row, y = lookedUp x conversationId row) E := by
  refine keeps_participants he (Keeps.throw he) fun row => ?_
  obtain ⟨a, b⟩ := row
  dsimp only
  split
  · rename_i userAId userBId ha hb
    split
    · exact Keeps.throw (hl _)
    · rename_i hne
      refine Keeps.pure ⟨⟨a, b, rfl, ?_⟩, _, rfl⟩
      rw [ha, hb, Option.some.injEq, Option.some.injEq]
      omega
  · exact Keeps.throw (hl _)

theorem getConversationParticipants_keeps (he : E x) (hl : ∀ row, E (lookedUp x conversationId row)) :
    Keeps (calls env) x (getConversationParticipants conversationId)
      (fun users y => (∀ u ∈ [users.1, users.2], y.participant conversationId u) ∧
        ∃ row, y = lookedUp x conversationId row) E := by
  refine keeps_participants he (Keeps.throw he) fun row => ?_
  obtain ⟨a, b⟩ := row
  dsimp only
  split
  · rename_i userAId userBId ha hb
    refine Keeps.pure ⟨fun u hu => ⟨a, b, rfl, ?_⟩, _, rfl⟩
    rcases List.mem_pair.mp hu with rfl | rfl
    · exact Or.inl ha
    · exact Or.inr hb
  · exact Keeps.throw (hl _)

theorem getConversationById_keeps (he : E x) (hl : ∀ row, E (lookedUp x conversationId row)) :
    Keeps (calls env) x (getConversationById env userId conversationId)
      (fun _ y => y.participant conversationId userId ∧ ∃ row, y = lookedUp x conversationId row) E := by
  refine Keeps.bind (assertConversationParticipant_keeps he hl) fun _ y hy => ?_
  obtain ⟨hp, row, rfl⟩ := hy
  refine Keeps.after (still_query trivial fun _ => rfl) (fun view => ?_) (hl row)
  rcases view with _ | v
  · exact Keeps.throw (hl row)
  · exact Keeps.pure ⟨hp, row, rfl⟩

end Participants

section Service
variable {conversationId userId : Nat}

/-- No message waits to be pointed at. -/
def Seen.idle (x : Seen) : Prop := x.due = none

theorem validateProduct_still {productId : Nat} : Still (calls env) x (validateProduct productId) := by
  refine Still.bind (still_query trivial fun _ => rfl) fun product => ?_
  rcases product with _ | ⟨owner, status⟩
  · exact Still.throw
  · dsimp only
    split
    · exact Still.throw
    · exact Still.pure

theorem insertConversation_still {userAId userBId : Nat} {productId : Option Nat} :
    Still (calls env) x (insertConversation userAId userBId productId) := by
  refine Still.catch (still_query trivial fun _ => rfl) fun e => ?_
  split <;> exact Still.throw

theorem getOrCreateConversation_keeps {participantId : Nat} {productId : Option Nat} (hx : x.idle) :
    Keeps (calls env) x (getOrCreateConversation env userId participantId productId)
      (fun _ => Seen.idle) Seen.idle := by
  unfold getOrCreateConversation
  split
  · exact Keeps.throw hx
  refine Keeps.after (still_query trivial fun _ => rfl) (fun participantExists => ?_) hx
  dsimp only
  split
  · exact Keeps.throw hx
  have hfound : ∀ id, Keeps (calls env) x (getConversationById env userId id) (fun _ => Seen.idle) Seen.idle := by
    intro id
    refine Keeps.mono (getConversationById_keeps hx fun _ => hx) (fun _ y hy => ?_) fun _ hy => hy
    obtain ⟨-, row, rfl⟩ := hy
    exact hx
  generalize productId.filter (· ≠ 0) = validatedProductId
  rcases validatedProductId with _ | productId
  on_goal 2 => refine Keeps.after validateProduct_still (fun _ => ?_) hx
  all_goals
    refine Keeps.after (still_query trivial fun _ => rfl) (fun existing => ?_) hx
    rcases existing with _ | ⟨id, _ | product⟩
  -- a product is written to a conversation that has none
  on_goal 5 => exact Keeps.after (still_query trivial fun _ => rfl) (fun _ => hfound id) hx
  · exact Keeps.after insertConversation_still (fun id => hfound id) hx
  · exact hfound id
  · exact hfound id
  · exact Keeps.after insertConversation_still (fun id => hfound id) hx
  · exact hfound id

/-- A message is inserted, and its conversation points at it: nothing else is seen. -/
theorem sendMessage_keeps {text : String} (hx : x.idle) :
    Keeps (calls env) x (sendMessage userId conversationId text)
      (fun _ y => y.participant conversationId userId ∧ y.users = x.users ∧ y.idle) Seen.idle := by
  refine Keeps.bind (assertConversationParticipant_keeps hx fun _ => hx) fun _ y hy => ?_
  obtain ⟨hp, row, rfl⟩ := hy
  have hinsert : Keeps (calls env) (lookedUp x conversationId row) (insertMessage conversationId userId text)
      (fun m y => y = { lookedUp x conversationId row with due := some (m.id, conversationId) }) Seen.idle := by
    refine Keeps.catch (E := Seen.idle) (keeps_query hx fun r => ?_) fun e y hy => ?_
    · cases r with
      | ok m => exact rfl
      | error e => exact hx
    · split <;> exact Keeps.throw hy
  refine Keeps.bind hinsert fun m y hy => ?_
  subst hy
  refine Keeps.bind (Q := fun _ y => y = lookedUp x conversationId row) (keeps_query rfl fun r => ?_)
    fun _ y hy => ?_
  · cases r with
    | ok v => exact congrArg (fun due => { lookedUp x conversationId row with due }) hx.symm
    | error e => exact rfl
  · subst hy
    exact Keeps.pure ⟨hp, rfl, hx⟩

/-- What the message that is marked was read with stays noted beside its participants. -/
theorem markRead_keeps {messageId : Nat} (hx : x.idle) :
    Keeps (calls env) x (markRead userId messageId)
      (fun m y => (∃ id, y.same m.conversationId id ∧ y.participant id userId) ∧
        (∀ u ∈ x.users, u ∈ y.users) ∧ y.idle) Seen.idle := by
  refine Keeps.bind (Q := fun m y => y = { x with
    read := (m.map fun m : Message => (messageId, m.conversationId)).toList ++ x.read })
    (keeps_query trivial fun r => ?_) fun message y hy => ?_
  · cases r with
    | ok m => exact rfl
    | error e => exact hx
  · subst hy
    rcases message with _ | message
    · exact Keeps.throw hx
    dsimp only
    split
    · rename_i conversationId senderId hc hs
      obtain rfl := bigint_id hc
      refine Keeps.bind (assertConversationParticipant_keeps hx fun _ => hx) fun _ y hy => ?_
      obtain ⟨hp, row, rfl⟩ := hy
      split
      · exact Keeps.throw hx
      refine Keeps.bind (Q := fun updated y => Keeps (calls env) y _ _ _) (keeps_query trivial fun r => ?_)
        fun _ _ h => h
      cases r with
      | error e => exact hx
      | ok updated =>
        rcases updated with _ | updated
        · exact Keeps.throw hx
        · refine Keeps.pure ⟨⟨_, Or.inr ⟨messageId, List.mem_cons_self, ?_⟩, hp⟩, fun u hu => hu, hx⟩
          exact List.mem_cons_of_mem _ List.mem_cons_self
    · exact Keeps.throw hx

end Service

section Gateway
variable {socket : Client} {conversationId userId : Nat}

theorem arrive_still {valid : Bool} : Still (calls env) x (arrive socket valid) := by
  refine Still.bind (still_query trivial fun _ => rfl) fun _ => ?_
  split
  · exact Still.pure
  · exact Still.throw

theorem getUser_keeps (hx : x.idle) : Keeps (calls env) x (getUser socket)
    (fun user y => y = { x with users := (socket, user) :: x.users }) Seen.idle := by
  refine Keeps.bind (Q := fun user y => Keeps (calls env) y _ _ _) (keeps_query trivial fun r => ?_)
    fun _ _ h => h
  cases r with
  | error e => exact hx
  | ok user =>
    rcases user with _ | sub
    · exact Keeps.throw hx
    · exact Keeps.pure rfl

variable (env) in
/-- A socket may join the room of a conversation that a user noted for it takes part in. -/
theorem may_join {id : Nat} (hs : x.same id conversationId) (hp : x.participant conversationId userId)
    (hu : (socket, userId) ∈ x.users) : x.may env (.join socket (roomName (toString id))) :=
  ⟨id, conversationId, userId, rfl, hs, hp, hu⟩

theorem broadcast_still {room event : String} (hm : x.may env (.join socket room)) :
    Still (calls env) x (broadcast socket room event) :=
  Still.bind (still_query hm fun _ => rfl) fun _ => still_query trivial fun _ => rfl

theorem joinConversation_keeps (hx : x.idle) :
    Keeps (calls env) x (joinConversation env socket conversationId) (fun _ => Seen.idle) Seen.idle := by
  refine Keeps.after arrive_still (fun _ => ?_) hx
  refine Keeps.bind (getUser_keeps hx) fun user y hy => ?_
  subst hy
  refine Keeps.bind (assertConversationParticipant_keeps hx fun _ => hx) fun _ y hy => ?_
  obtain ⟨-, row, rfl⟩ := hy
  refine Keeps.bind (getConversationById_keeps hx fun _ => hx) fun _ y hy => ?_
  obtain ⟨hp, row, rfl⟩ := hy
  have hm := may_join env (Or.inl rfl) hp List.mem_cons_self
  exact Keeps.after (broadcast_still hm) (fun _ => Keeps.pure hx) hx

theorem sendMessageEvent_keeps {text : String} (hx : x.idle) :
    Keeps (calls env) x (sendMessageEvent env socket conversationId text) (fun _ => Seen.idle) Seen.idle := by
  refine Keeps.after arrive_still (fun _ => ?_) hx
  refine Keeps.bind (getUser_keeps hx) fun user y hy => ?_
  subst hy
  refine Keeps.bind (sendMessage_keeps hx) fun message y hy => ?_
  obtain ⟨hp, hu, hi⟩ := hy
  have hmem : (socket, user) ∈ y.users := hu ▸ List.mem_cons_self
  have hm := may_join env (Or.inl rfl) hp hmem
  exact Keeps.after (broadcast_still hm) (fun _ => Keeps.pure hi) hi

theorem markReadEvent_keeps {messageId : Nat} (hx : x.idle) :
    Keeps (calls env) x (markReadEvent env socket messageId) (fun _ => Seen.idle) Seen.idle := by
  refine Keeps.after arrive_still (fun _ => ?_) hx
  refine Keeps.bind (getUser_keeps hx) fun user y hy => ?_
  subst hy
  refine Keeps.bind (markRead_keeps hx) fun message y hy => ?_
  obtain ⟨⟨id, hs, hp⟩, hu, hi⟩ := hy
  have hm := may_join env hs hp (hu _ List.mem_cons_self)
  exact Keeps.after (broadcast_still hm) (fun _ => Keeps.pure hi) hi

/-- The rest of a connection, with the user of its token. -/
theorem register_keeps {payload : JwtPayload} {y : Seen}
    (hidle : y.idle) (hregister : ∀ sub, normalizedSub payload = some sub →
      Keeps (calls env) y (query (.register sub)) (fun _ => Seen.idle) Seen.idle) :
    Keeps (calls env) y (match normalizedSub payload with
      | none => throw (Failure.error "Invalid token subject")
      | some sub => query (.register sub)) (fun _ => Seen.idle) Seen.idle := by
  split
  · exact Keeps.throw hidle
  · rename_i sub hsub
    exact hregister sub hsub

/-- A socket is registered once, under the subject of its valid token. -/
theorem handleConnection_keeps {handshake : Handshake} (hx : x.idle) (hreq : x.req = .connect handshake)
    (hr : x.registered = none) :
    Keeps (calls env) x (handleConnection env handshake) (fun _ => Seen.idle) Seen.idle := by
  refine Keeps.bind (Q := fun _ y => y = { x with opened := true }) (keeps_query trivial fun r => ?_)
    fun _ y hy => ?_
  · cases r with
    | error e => exact hx
    | ok v => exact rfl
  subst hy
  refine Keeps.bind (Q := fun _ => Seen.idle) (Keeps.catch (E := Seen.idle) ?_ fun e y hy => ?_)
    fun _ y hy => Keeps.pure hy
  · split
    · exact Keeps.throw hx
    rename_i token ht
    refine Keeps.bind (Q := fun payload y => Keeps (calls env) y _ _ _)
      (keeps_query ⟨handshake, hreq, ht, rfl⟩ fun r => ?_) fun _ _ h => h
    cases r with
    | error e => exact hx
    | ok payload =>
      rcases payload with _ | payload
      · exact Keeps.throw hx
      refine register_keeps hx fun sub hsub => ?_
      exact keeps_query ⟨rfl, hr, _, rfl, hsub⟩ fun r => by cases r <;> exact hx
  · exact keeps_query trivial fun r => by cases r <;> exact hy

/-- Every socket joins for the user that it was found under. -/
theorem joinSockets_keeps {n : Nat} {visited : List Client} (hx : x.idle) (hp : x.participant conversationId userId) :
    Keeps (calls env) x (joinSockets (roomName (toString conversationId)) userId n visited)
      (fun _ y => y.row = x.row ∧ y.idle) Seen.idle := by
  induction n generalizing x visited with
  | zero => exact Keeps.pure ⟨rfl, hx⟩
  | succ n ih =>
    refine Keeps.bind (Q := fun next y => Keeps (calls env) y _ _ _) (keeps_query trivial fun r => ?_)
      fun _ _ h => h
    cases r with
    | error e => exact hx
    | ok next =>
      rcases next with _ | k
      · exact Keeps.pure ⟨rfl, hx⟩
      · have hm := may_join (x := x.after (.nextSocket userId visited) (.ok (some k))) env
          (Or.inl rfl) hp List.mem_cons_self
        exact Keeps.after (still_query hm fun _ => rfl) (fun _ => ih hx hp) hx

theorem participant_of_row {y : Seen} (hr : y.row = x.row) (hp : x.participant conversationId userId) :
    y.participant conversationId userId := by
  obtain ⟨a, b, hrow, hab⟩ := hp
  exact ⟨a, b, hr.trans hrow, hab⟩

theorem joinUsers_keeps {userIds : List Nat} (hx : x.idle)
    (hp : ∀ u ∈ userIds, x.participant conversationId u) :
    Keeps (calls env) x (joinUsers env (roomName (toString conversationId)) userIds)
      (fun _ => Seen.idle) Seen.idle := by
  induction userIds generalizing x with
  | nil => exact Keeps.pure hx
  | cons u us ih =>
    obtain ⟨hu, hus⟩ := List.forall_mem_cons.mp hp
    refine Keeps.bind (joinSockets_keeps hx hu) fun _ y hy => ?_
    obtain ⟨hr, hi⟩ := hy
    exact ih hi fun v hv => participant_of_row hr (hus v hv)

theorem createConversation_keeps {participantId : Nat} {productId : Option Nat} (hx : x.idle) :
    Keeps (calls env) x (createConversation env userId participantId productId)
      (fun _ => Seen.idle) Seen.idle := by
  refine Keeps.bind (getOrCreateConversation_keeps hx) fun response y hy => ?_
  dsimp only
  split
  · exact Keeps.pure hy
  · rename_i conversationId hc
    refine Keeps.bind (getConversationParticipants_keeps hy fun _ => hy) fun users z hz => ?_
    obtain ⟨hp, row, rfl⟩ := hz
    refine Keeps.bind (Q := fun _ => Seen.idle) ?_ fun _ z hz => Keeps.pure hz
    refine Keeps.bind (joinUsers_keeps hy fun u hu => hp u ?_) fun _ z hz => ?_
    · exact (List.mem_filter.mp (List.mem_dedup.mp hu)).1
    · exact keeps_query trivial fun r => by cases r <;> exact hz

end Gateway

section Followups
variable {userId conversationId : Nat} {scope : Option (Reads.ItemType × Nat)}

theorem upsertFollowup_still {dto : CreateFollowupConversationDto} (adminId : Option Nat) :
    Still (calls env) x (match adminId.filter (· ≠ 0) with
      | none => throw (.badRequest "No admin account available")
      | some adminId => do
        let active : Bool ← query (.selectActiveAdmin adminId)
        if !active then throw (.badRequest "Admin not found")
        else query (.upsertFollowup dto.itemType dto.itemId userId adminId)) := by
  split
  · exact Still.throw
  · refine Still.bind (still_query trivial fun _ => rfl) fun active => ?_
    cases active with
    | false => exact Still.throw
    | true => exact still_query trivial fun _ => rfl

theorem createFollowupConversation_still {isAdmin : Bool} {dto : CreateFollowupConversationDto} :
    Still (calls env) x (createFollowupConversation userId isAdmin dto) := by
  refine Still.bind (Still.bind (still_query trivial fun _ => rfl) fun ownership => ?_) fun _ => ?_
  · rcases ownership with _ | owner
    · exact Still.throw
    · dsimp only
      split
      · exact Still.pure
      · exact Still.throw
  · rcases dto.adminId with _ | adminId
    · exact Still.bind (still_query trivial fun _ => rfl) upsertFollowup_still
    · exact upsertFollowup_still (some adminId)

theorem assertFollowupConversationAccess_still :
    Still (calls env) x (assertFollowupConversationAccess userId conversationId) := by
  refine Still.bind (still_query trivial fun _ => rfl) fun row => ?_
  rcases row with _ | ⟨owner, admin⟩
  · exact Still.throw
  · dsimp only
    split
    · exact Still.throw
    · exact Still.pure

theorem assertFollowupConversationItemScope_still :
    Still (calls env) x (assertFollowupConversationItemScope conversationId scope) := by
  rcases scope with _ | ⟨itemType, itemId⟩
  · exact Still.pure
  · refine Still.bind (still_query trivial fun _ => rfl) fun found => ?_
    cases found with
    | false => exact Still.throw
    | true => exact Still.pure

theorem listFollowupMessages_still : Still (calls env) x (listFollowupMessages userId conversationId scope) :=
  Still.bind assertFollowupConversationAccess_still fun _ =>
    Still.bind assertFollowupConversationItemScope_still fun _ => still_query trivial fun _ => rfl

theorem sendFollowupMessage_still {text : String} (hx : x.req = .sendFollowup userId conversationId text scope) :
    Still (calls env) x (sendFollowupMessage userId conversationId text scope) :=
  Still.bind assertFollowupConversationAccess_still fun _ =>
    Still.bind assertFollowupConversationItemScope_still fun _ =>
      still_query ⟨userId, conversationId, text, scope, hx⟩ fun _ => rfl

end Followups

/-- Every call keeps to the protocol. -/
theorem request_keeps (req : Request) : Follows (calls env) ends (req.code env).run (Seen.start req) := by
  have hx : (Seen.start req).idle := rfl
  have hk : Keeps (calls env) (Seen.start req) (req.code env) (fun _ => Seen.idle) Seen.idle := by
    cases req with
    | connect handshake => exact handleConnection_keeps hx rfl rfl
    | disconnect socket => exact Keeps.after (still_query trivial fun _ => rfl) (fun _ => Keeps.pure hx) hx
    | join socket conversationId => exact joinConversation_keeps hx
    | send socket conversationId text => exact sendMessageEvent_keeps hx
    | read socket messageId => exact markReadEvent_keeps hx
    | createConversation userId participantId productId => exact createConversation_keeps hx
    | createFollowup userId isAdmin dto =>
      exact Keeps.after createFollowupConversation_still (fun _ => Keeps.pure hx) hx
    | listFollowup userId conversationId scope =>
      exact Keeps.after listFollowupMessages_still (fun _ => Keeps.pure hx) hx
    | sendFollowup userId conversationId text scope =>
      exact Keeps.after (sendFollowupMessage_still rfl) (fun _ => Keeps.pure hx) hx
  refine Follows.mono hk fun r y hr => ?_
  cases r <;> exact hr

theorem initial_follows {req : Client → Request} {d : Db} :
    InPhase (calls env) ends (fun c => Seen.start (req c)) (initial env req d) :=
  fun c => request_keeps (req c)

end Kayan.Chat
