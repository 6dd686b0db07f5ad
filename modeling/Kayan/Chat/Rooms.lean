import Kayan.Chat.Calls
import Kayan.Chat.Frame

/-!
# Who is in a room

Whatever the calls do, a socket in the room of a conversation was authenticated as one of its two
participants. What a call has noted stays true: a socket keeps its user, a conversation its
participants, and a message its conversation.
-/
namespace Kayan.Chat
open Interleave
open Sessions (JwtPayload Handshake extractToken normalizedSub toPositiveInt)

variable {env : Env} {req : Client → Request} {m : Move} {c k : Client} {q : Stmt} {d d' : Db} {r : Answer q}

section Replies

theorem act_verified {v : String × JwtPayload} (h : act env m c q d = some (r, d')) (hv : q.verified r = some v) :
    ∃ secret now, q = .verifyAsync v.1 secret ∧ env.verifyAsync v.1 secret now = some v.2 := by
  cases q with
  | verifyAsync token secret =>
    cases m with
    | fail e =>
      obtain ⟨-, rfl, -⟩ := act_fail h
      cases hv
    | run wait =>
      obtain ⟨rfl, -⟩ := Prod.mk.inj (Option.some.inj h)
      rcases hp : env.verifyAsync token secret (d.clock + wait) with _ | payload
      · rw [hp] at hv
        cases hv
      · rw [hp] at hv
        cases hv
        exact ⟨secret, _, rfl, hp⟩
  | _ => cases hv

/-- A registration is noted, and nothing else is noted as one. -/
theorem act_registered (h : act env m c q d = some (r, d')) :
    (d'.sockets k).user = (if k = c then (q.registered r).or (d.sockets k).user else (d.sockets k).user) := by
  cases q with
  | register sub =>
    cases m with
    | fail e => cases h
    | run wait =>
      cases h
      by_cases hk : k = c
      · subst hk
        simp [Stmt.registered]
      · simp [hk]
  | _ =>
    rcases (act_wired h).user (k := k) with hu | ⟨-, sub, hq, -⟩
    · rw [hu]
      exact (ite_self _).symm
    · cases hq

theorem act_register {sub : Nat} (hq : q = .register sub) (h : act env m c q d = some (r, d')) :
    (d'.sockets c).user = some sub := by
  subst hq
  cases m with
  | fail e => cases h
  | run wait =>
    cases h
    simp

/-- The user that a statement tells of a socket is its user, or it was found under that user. -/
theorem act_user {u : Nat} (h : act env m c q d = some (r, d')) (hu : q.user r = some (k, u)) :
    (d.sockets k).user = some u ∨ k ∈ d.socketsOf u := by
  cases q with
  | getUser socket =>
    cases m with
    | fail e => cases h
    | run wait =>
      cases h
      obtain ⟨sub, hsub, hk⟩ := Option.map_eq_some_iff.mp hu
      cases hk
      exact Or.inl hsub
  | nextSocket userId visited =>
    cases m with
    | fail e => cases h
    | run wait =>
      cases h
      obtain ⟨socket, hs, hk⟩ := Option.map_eq_some_iff.mp hu
      cases hk
      exact Or.inr (List.mem_of_find?_eq_some hs)
  | _ => cases hu

theorem act_row {id : Nat} {a b : Payload} (h : act env m c q d = some (r, d')) (hr : q.row r = some (id, a, b)) :
    ∃ row, d.conversation id = some row ∧ a = bigint row.userAId ∧ b = bigint row.userBId := by
  cases q with
  | selectParticipants i =>
    cases m with
    | fail e =>
      obtain ⟨-, rfl, -⟩ := act_fail h
      cases hr
    | run wait =>
      cases h
      obtain ⟨ab, hab, he⟩ := Option.map_eq_some_iff.mp hr
      obtain ⟨row, hrow, hv⟩ := Option.map_eq_some_iff.mp hab
      cases hv
      cases he
      exact ⟨row, hrow, rfl, rfl⟩
  | _ => cases hr

theorem act_read {i id : Nat} (h : act env m c q d = some (r, d')) (hr : (i, id) ∈ q.read r) :
    ∃ row, d.message i = some row ∧ row.conversationId = id := by
  cases q with
  | selectMessage j =>
    cases m with
    | fail e =>
      obtain ⟨-, rfl, -⟩ := act_fail h
      cases hr
    | run wait =>
      cases h
      obtain ⟨row, hrow, he⟩ := Option.map_eq_some_iff.mp (Option.mem_toList.mp hr)
      cases he
      exact ⟨row, hrow, rfl⟩
  | updateRead j =>
    cases m with
    | fail e =>
      obtain ⟨-, rfl, -⟩ := act_fail h
      cases hr
    | run wait =>
      cases h
      obtain ⟨marked, hm, he⟩ := Option.map_eq_some_iff.mp (Option.mem_toList.mp hr)
      obtain ⟨row, hrow, rfl⟩ := Option.map_eq_some_iff.mp hm
      cases he
      exact ⟨row, hrow, rfl⟩
  | _ => cases hr

end Replies

section Members

/-- The client's handshake carries a token of this user that was found valid. -/
def Authenticated (env : Env) (req : Client → Request) (k : Client) (userId : Nat) : Prop :=
  ∃ handshake token payload now, req k = .connect handshake ∧ extractToken handshake = some token ∧
    env.verifyAsync token env.jwtAccessSecret now = some payload ∧ normalizedSub payload = some userId

/-- The socket was authenticated as a participant of the conversation. -/
def Member (env : Env) (req : Client → Request) (d : Db) (conversationId : Nat) (k : Client) : Prop :=
  ∃ row userId, d.conversation conversationId = some row ∧ (d.sockets k).user = some userId ∧
    Authenticated env req k userId ∧ (userId = row.userAId ∨ userId = row.userBId)

/-- The sockets that a broadcast to the room reaches. -/
def Db.room (d : Db) (room : String) : Set Client := fun k => room ∈ (d.sockets k).rooms

/-- No socket is there yet. -/
structure Starting (d : Db) : Prop where
  phase : ∀ k, (d.sockets k).phase = .unborn
  user : ∀ k, (d.sockets k).user = none
  rooms : ∀ k, (d.sockets k).rooms = []
  registry : ∀ u, d.registry u = none

/-- What the notes of the calls say about the store. -/
structure Inv (env : Env) (req : Client → Request) (d : Db) (ph : Client → Seen) : Prop where
  asked : ∀ c, (ph c).req = req c
  registered : ∀ k, (d.sockets k).user = (ph k).registered
  verified : ∀ k v, (ph k).verified = some v → ∃ handshake now, req k = .connect handshake ∧
    extractToken handshake = some v.1 ∧ env.verifyAsync v.1 env.jwtAccessSecret now = some v.2
  genuine : ∀ k u, (d.sockets k).user = some u → Authenticated env req k u
  users : ∀ c k u, (k, u) ∈ (ph c).users → (d.sockets k).user = some u
  row : ∀ c id a b, (ph c).row = some (id, a, b) →
    ∃ row, d.conversation id = some row ∧ a = bigint row.userAId ∧ b = bigint row.userBId
  read : ∀ c i id, (i, id) ∈ (ph c).read → ∃ row, d.message i = some row ∧ row.conversationId = id
  registry : ∀ k u, k ∈ d.socketsOf u → (d.sockets k).user = some u
  rooms : ∀ k room, room ∈ (d.sockets k).rooms → ∃ id, room = roomName (toString id) ∧ Member env req d id k

theorem roomName_inj {i j : Nat} (h : roomName (toString i) = roomName (toString j)) : i = j := by
  have hl := congrArg String.toList h
  simp only [roomName, String.toList_append, List.append_cancel_left_eq] at hl
  have hn := congrArg stringToNumber (String.toList_injective hl)
  rw [stringToNumber_toString, stringToNumber_toString, Option.some.injEq] at hn
  exact_mod_cast hn

end Members

section Steps
variable {ph : Client → Seen} {s t : State} {xs : List Taken}

theorem Inv.start (hd : Starting d) : Inv env req d fun c => Seen.start (req c) where
  asked _ := rfl
  registered := hd.user
  verified _ _ h := nomatch h
  genuine k u h := by
    rw [hd.user] at h
    cases h
  users _ _ _ h := nomatch h
  row _ _ _ _ h := nomatch h
  read _ _ _ h := nomatch h
  registry k u h := by
    rw [Db.socketsOf, hd.registry] at h
    cases h
  rooms k room h := by
    rw [hd.rooms] at h
    cases h

/-- A socket that has a user keeps it. -/
theorem Inv.user_stays (h : Inv env req d ph) (hm : (ph c).may env q) (ha : act env m c q d = some (r, d'))
    {u : Nat} (hu : (d.sockets k).user = some u) : (d'.sockets k).user = some u := by
  rcases (act_wired ha).user (k := k) with hsame | ⟨rfl, sub, rfl, -⟩
  · rw [hsame]
    exact hu
  · have hnone := hm.2.1
    rw [← h.registered, hu] at hnone
    cases hnone

theorem Inv.member_stays (h : Inv env req d ph) (hm : (ph c).may env q) (ha : act env m c q d = some (r, d'))
    {id : Nat} (hk : Member env req d id k) : Member env req d' id k := by
  obtain ⟨row, u, hrow, hu, hauth, hp⟩ := hk
  obtain ⟨row', hrow', hra, hrb⟩ := (act_conversations ha).found hrow
  refine ⟨row', u, hrow', h.user_stays hm ha hu, hauth, ?_⟩
  rw [hra, hrb]
  exact hp

/-- Where a call may let a socket join, the socket is a member. -/
theorem Inv.joins (h : Inv env req d ph) {room : String} (hm : (ph c).may env (.join k room)) :
    ∃ id, room = roomName (toString id) ∧ Member env req d id k := by
  obtain ⟨id, conversationId, u, rfl, hsame, ⟨a, b, hrow, hab⟩, hu⟩ := hm
  obtain ⟨row, hfound, rfl, rfl⟩ := h.row c conversationId a b hrow
  have hid : id = conversationId := by
    rcases hsame with hid | ⟨i, hi, hj⟩
    · exact hid
    · obtain ⟨mi, hmi, rfl⟩ := h.read c i id hi
      obtain ⟨mj, hmj, rfl⟩ := h.read c i conversationId hj
      rw [hmi] at hmj
      exact congrArg Message.conversationId (Option.some.inj hmj)
  subst hid
  have huser := h.users c k u hu
  refine ⟨id, rfl, row, u, hfound, huser, h.genuine k u huser, ?_⟩
  exact hab.imp bigint_id bigint_id

theorem Inv.registers (h : Inv env req d ph) {sub : Nat} (hm : (ph c).may env (.register sub)) :
    Authenticated env req c sub := by
  obtain ⟨-, -, v, hv, hsub⟩ := hm
  obtain ⟨handshake, now, hreq, htoken, hvalid⟩ := h.verified c v hv
  exact ⟨handshake, v.1, v.2, now, hreq, htoken, hvalid, hsub⟩

theorem Inv.step {e : Taken} (h : Inv env req s.db ph) (hm : (ph e.client).may env e.stmt)
    (hs : Step (act env) s e t) : Inv env req t.db (noted Seen.after ph e) := by
  have ha := hs.acted
  have hrow : ∀ id row, s.db.conversation id = some row → ∃ row', t.db.conversation id = some row' ∧
      bigint row.userAId = bigint row'.userAId ∧ bigint row.userBId = bigint row'.userBId := by
    intro id row hf
    obtain ⟨row', hf', hra, hrb⟩ := (act_conversations ha).found hf
    exact ⟨row', hf', by rw [hra], by rw [hrb]⟩
  have hread : ∀ i id row, s.db.message i = some row → row.conversationId = id →
      ∃ row, t.db.message i = some row ∧ row.conversationId = id := by
    intro i id row hf hc
    obtain ⟨row', hf', hc'⟩ := (act_messages ha).found hf
    exact ⟨row', hf', hc'.trans hc⟩
  constructor
  case asked =>
    intro c
    rcases noted_or Seen.after ph e c with ⟨-, hn⟩ | ⟨-, hn⟩
    · rw [hn]
      exact h.asked c
    · rw [hn]
      exact h.asked c
  case registered =>
    intro k
    rw [act_registered ha]
    rcases noted_or Seen.after ph e k with ⟨rfl, hn⟩ | ⟨hk, hn⟩
    · rw [hn, if_pos rfl, h.registered]
      rfl
    · rw [hn, if_neg hk]
      exact h.registered k
  case verified =>
    intro k v hv
    rcases noted_field Seen.verified Stmt.verified (fun _ _ _ => rfl) hv with hold | ⟨rfl, hnew⟩
    · exact h.verified k v hold
    · obtain ⟨secret, now, hq, hvalid⟩ := act_verified ha hnew
      rw [hq] at hm
      obtain ⟨handshake, hreq, htoken, rfl⟩ := hm
      exact ⟨handshake, now, (h.asked _).symm.trans hreq, htoken, hvalid⟩
  case genuine =>
    intro k u hu
    rcases (act_wired ha).user (k := k) with hsame | ⟨rfl, sub, hq, hsub⟩
    · rw [hsame] at hu
      exact h.genuine k u hu
    · rw [hsub] at hu
      cases hu
      rw [hq] at hm
      exact h.registers hm
  case users =>
    intro c k u hu
    rcases noted_or Seen.after ph e c with ⟨rfl, hn⟩ | ⟨-, hn⟩
    · rw [hn] at hu
      rcases List.mem_append.mp hu with hnew | hold
      · rcases act_user ha (Option.mem_toList.mp hnew) with hk | hk
        · exact h.user_stays hm ha hk
        · exact h.user_stays hm ha (h.registry k u hk)
      · exact h.user_stays hm ha (h.users _ k u hold)
    · rw [hn] at hu
      exact h.user_stays hm ha (h.users c k u hu)
  case row =>
    intro c id a b hr
    have hfound : ∃ row, s.db.conversation id = some row ∧ a = bigint row.userAId ∧ b = bigint row.userBId := by
      rcases noted_field Seen.row Stmt.row (fun _ _ _ => rfl) hr with hold | ⟨rfl, hnew⟩
      · exact h.row c id a b hold
      · exact act_row ha hnew
    obtain ⟨row, hf, rfl, rfl⟩ := hfound
    exact hrow id row hf
  case read =>
    intro c i id hi
    rcases noted_or Seen.after ph e c with ⟨rfl, hn⟩ | ⟨-, hn⟩
    · rw [hn] at hi
      rcases List.mem_append.mp hi with hnew | hold
      · obtain ⟨row, hf, hc⟩ := act_read ha hnew
        exact hread i id row hf hc
      · obtain ⟨row, hf, hc⟩ := h.read _ i id hold
        exact hread i id row hf hc
    · rw [hn] at hi
      obtain ⟨row, hf, hc⟩ := h.read c i id hi
      exact hread i id row hf hc
  case registry =>
    intro k u hk
    rcases (act_wired ha).registry hk with hold | ⟨rfl, hq⟩
    · exact h.user_stays hm ha (h.registry k u hold)
    · exact act_register hq ha
  case rooms =>
    intro k room hk
    rcases (act_wired ha).room hk with hold | hq
    · obtain ⟨id, rfl, hmem⟩ := h.rooms k room hold
      exact ⟨id, rfl, h.member_stays hm ha hmem⟩
    · have hjoin := hm
      rw [hq] at hjoin
      obtain ⟨id, rfl, hmem⟩ := h.joins hjoin
      exact ⟨id, rfl, h.member_stays hm ha hmem⟩

/-- The notes beside a run, and what they say of the store at its end. -/
theorem Inv.run (h : Inv env req s.db ph) (hp : InPhase (calls env) ends ph s)
    (hr : Trace.Run (Step (act env)) s xs t) : Inv env req t.db (xs.foldl (noted Seen.after) ph) ∧
      InPhase (calls env) ends (xs.foldl (noted Seen.after) ph) t := by
  refine (kept_run Seen.after hr ph).preserves
    (I := fun u => Inv env req u.1.db u.2 ∧ InPhase (calls env) ends u.2 u.1) ?_ ⟨h, hp⟩
  rintro ⟨u, ph⟩ e ⟨v, ph'⟩ ⟨hs, rfl⟩ ⟨hi, hf⟩
  obtain ⟨hm, hf'⟩ := hf.noted hs
  exact ⟨hi.step hm hs, hf'⟩

end Steps

section Fixtures

/-- A token is valid while its text names a user. -/
def openEnv : Env where
  jwtAccessSecret := "secret"
  verifyAsync token secret _ := if secret = "secret" then some [("sub", .str token)] else none
  iso t := toString t
  lateJoin := true
  rounds := 4

/-- Three users, one of them an admin, and no chat. -/
def quiet : Db where
  clock := 0
  users := [{ id := 1 }, { id := 2 }, { id := 3, isAdmin := true }]
  products := [{ id := 5, ownerId := 2 }]
  owners := fun _ i => if i = 9 then some 1 else none
  conversations := {}
  messages := {}
  followups := {}
  followupMessages := {}
  sockets := fun _ => {}
  registry := fun _ => none

theorem quiet_starting : Starting quiet := ⟨fun _ => rfl, fun _ => rfl, fun _ => rfl, fun _ => rfl⟩

def bearer (token : String) : Handshake := ⟨some (.str token), none⟩

/-- Both users connect, the first opens a conversation, and the second sends a message. -/
def meeting : Client → Request
  | 0 => .connect (bearer "1")
  | 1 => .connect (bearer "2")
  | 2 => .createConversation 1 2 none
  | _ => .send 1 1 "hello"

/-- Every statement in order. -/
def inOrder (c : Client) (n : Nat) : List (Client × Move) := List.replicate n (c, .run 0)

end Fixtures

end Kayan.Chat
