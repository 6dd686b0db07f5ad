import Kayan.Chat.Followup

/-!
# Whom a follow-up conversation connects

Users, admins and items do not change while conversations are created, so each call acts on what is true from the
beginning. Where every call comes from the owner of its item and is given another, active admin, each
conversation connects the owner with an active admin.
-/
namespace Kayan.Chat
open Interleave
open Reads (ItemType)

variable {env : Env} {m : Move} {c : Client} {q : Stmt} {d d' d₀ : Db} {r : Answer q} {x : Prop}

section Conversations

/-- The admin that is found where none is given. -/
def Db.anyAdmin (d : Db) : Option Nat := ((d.users.filter fun r => r.isAdmin ∧ r.deleted = false).map (·.id)).min?

/-- An admin whose account is active. -/
def Db.ActiveAdmin (d : Db) (adminId : Nat) : Prop :=
  ∃ u ∈ d.users, u.id = adminId ∧ u.isAdmin = true ∧ u.deleted = false ∧ u.status = .active

/-- The conversation connects the owner of the item with an active admin. -/
structure Connects (d : Db) (f : FollowupConversation) : Prop where
  owner : d.owners f.itemType f.itemId = some f.userId
  admin : d.ActiveAdmin f.adminId
  apart : f.userId ≠ f.adminId

/-- A call of `createFollowupConversation`, by a user or by an admin. -/
structure FollowupCall where
  userId : Nat
  isAdmin : Bool := false
  dto : CreateFollowupConversationDto

def FollowupCall.request (o : FollowupCall) : Request := .createFollowup o.userId o.isAdmin o.dto

/-- The admin that the conversation is to have. -/
def FollowupCall.assigned (o : FollowupCall) (d : Db) : Option Nat :=
  match o.dto.adminId with
  | some adminId => some adminId
  | none => d.anyAdmin

/-- An admin who calls owns the item, and the admin that the conversation is to have is another one, with an active
account. -/
structure FollowupCall.Sound (d : Db) (o : FollowupCall) : Prop where
  owner : o.isAdmin = true → d.owners o.dto.itemType o.dto.itemId = some o.userId
  other : o.assigned d ≠ some o.userId
  active : ∀ u ∈ d.users, o.assigned d = some u.id → u.status = .active

end Conversations

section Statements

/-- What a call is told of items and admins is what the tables say. -/
def Truthful (d : Db) : (q : Stmt) → Answer q → Prop
  | .selectOwner itemType itemId, .ok owner => owner = d.owners itemType itemId
  | .selectAnyAdmin, .ok adminId => adminId = d.anyAdmin
  | .selectActiveAdmin adminId, .ok active =>
    active = d.users.any fun r => r.id = adminId ∧ r.isAdmin ∧ r.deleted = false
  | _, _ => True

/-- What is written to a conversation connects the owner with an active admin. -/
def Stmt.Connecting (d : Db) : Stmt → Prop
  | .upsertFollowup itemType itemId userId adminId =>
    d.owners itemType itemId = some userId ∧ d.ActiveAdmin adminId ∧ userId ≠ adminId
  | _ => True

theorem Truthful.of_error {e : PgError} : Truthful d q (.error e) := by
  cases q <;> trivial

theorem act_truthful (h : act env m c q d = some (r, d')) (hu : d.users = d₀.users) (ho : d.owners = d₀.owners) :
    Truthful d₀ q r := by
  cases m with
  | fail e =>
    obtain ⟨-, rfl, -⟩ := act_fail h
    exact Truthful.of_error
  | run wait =>
    cases q with
    | selectOwner itemType itemId =>
      cases h
      exact congrFun (congrFun ho itemType) itemId
    | selectAnyAdmin =>
      cases h
      exact congrArg (fun users => ((users.filter fun r => r.isAdmin ∧ r.deleted = false).map User.id).min?) hu
    | selectActiveAdmin adminId =>
      cases h
      exact congrArg (fun users => users.any fun r => r.id = adminId ∧ r.isAdmin ∧ r.deleted = false) hu
    | _ => trivial

/-- A conversation after a statement was there before, or is what the statement has written. -/
theorem act_followups (h : act env m c q d = some (r, d')) {f : FollowupConversation}
    (hf : f ∈ d'.followups.rows) :
    f ∈ d.followups.rows ∨ q = .upsertFollowup f.itemType f.itemId f.userId f.adminId := by
  cases m with
  | fail e =>
    obtain ⟨-, -, rfl⟩ := act_fail h
    exact Or.inl hf
  | run wait =>
    cases q with
    | upsertFollowup itemType itemId userId adminId =>
      simp only [act, exec] at h
      split at h
      · rename_i row hrow
        cases h
        obtain ⟨old, hold, rfl⟩ := List.mem_map.mp hf
        by_cases hid : old.id = row.id
        · right
          obtain ⟨rfl, rfl, rfl⟩ : row.itemType = itemType ∧ row.itemId = itemId ∧ row.userId = userId := by
            simpa using List.find?_some hrow
          simp [hid]
        · left
          simpa [hid] using hold
      · cases h
        rcases List.mem_append.mp hf with hold | hnew
        · exact Or.inl hold
        · right
          rw [List.mem_singleton.mp hnew]
    | insertConversation | insertMessage | insertFollowupMessage | openSocket | disconnect | deliver =>
      simp only [act, exec] at h
      repeat' split at h
      all_goals
        cases h
        try exact Or.inl hf
    | kick =>
      cases h
      left
      split at hf <;> exact hf
    | join k room =>
      cases h
      left
      unfold joinRoom at hf
      split at hf <;> exact hf
    | _ =>
      cases h
      exact Or.inl hf

end Statements

section Calls
variable {o : FollowupCall}

/-- A statement of a call keeps conversations connecting, as long as what the call was told is true. -/
abbrev followupCalls (d : Db) : Protocol Stmt Answer Prop :=
  monitored (fun x q => x → q.Connecting d) fun x q r => x ∧ Truthful d q r

theorem followupCalls_query {Q : Reply q → Prop → Prop} {E : Prop → Prop} (hq : x → q.Connecting d)
    (h : ∀ r, outcome Q E r (x ∧ Truthful d q r)) : Keeps (followupCalls d) x (query q) Q E :=
  Keeps.await fun r => ⟨_, ⟨hq, rfl⟩, h r⟩

theorem assertUserOwnsItem_connects (h : o.Sound d) :
    Keeps (followupCalls d) x (assertUserOwnsItem o.userId o.isAdmin o.dto.itemType o.dto.itemId)
      (fun _ y => y → d.owners o.dto.itemType o.dto.itemId = some o.userId) fun _ => True := by
  refine Keeps.bind (Q := fun owner y => y → owner = d.owners o.dto.itemType o.dto.itemId) ?_ fun owner y hy => ?_
  · refine followupCalls_query (fun _ => trivial) fun r => ?_
    cases r with
    | error e => trivial
    | ok owner => exact And.right
  · cases owner with
    | none => exact Keeps.throw trivial
    | some owner =>
      dsimp only
      split
      · rename_i hmay
        refine Keeps.pure fun htrue => ?_
        rcases Bool.or_eq_true_iff.mp hmay with hadmin | howner
        · exact h.owner hadmin
        · rw [← hy htrue, of_decide_eq_true howner]
      · exact Keeps.throw trivial

/-- An admin that is found not to be deleted is an active admin, where the account is active. -/
theorem activeAdmin_of_any {adminId : Nat} (h : ∀ u ∈ d.users, u.id = adminId → u.status = .active)
    (hany : (d.users.any fun r => r.id = adminId ∧ r.isAdmin ∧ r.deleted = false) = true) : d.ActiveAdmin adminId := by
  obtain ⟨u, hu, hp⟩ := List.any_eq_true.mp hany
  obtain ⟨hid, hadmin, hdeleted⟩ := of_decide_eq_true hp
  exact ⟨u, hu, hid, hadmin, hdeleted, h u hu hid⟩

/-- The rest of a call once the admin is chosen. -/
theorem assigned_connects {adminId : Option Nat} (h : o.Sound d)
    (hx : x → d.owners o.dto.itemType o.dto.itemId = some o.userId ∧ adminId = o.assigned d) :
    Keeps (followupCalls d) x (match adminId.filter (· ≠ 0) with
      | none => throw (.badRequest "No admin account available")
      | some adminId => do
        let active : Bool ← query (.selectActiveAdmin adminId)
        if !active then throw (.badRequest "Admin not found")
        else query (.upsertFollowup o.dto.itemType o.dto.itemId o.userId adminId))
      (fun _ _ => True) fun _ => True := by
  split
  · exact Keeps.throw trivial
  · rename_i a ha
    obtain ⟨hsome, -⟩ := Option.filter_eq_some_iff.mp ha
    have hassigned : x → o.assigned d = some a := fun htrue => (hx htrue).2.symm.trans hsome
    refine Keeps.bind (Q := fun active y => y → x ∧
      active = d.users.any fun r => r.id = a ∧ r.isAdmin ∧ r.deleted = false) ?_ fun active y hy => ?_
    · refine followupCalls_query (fun _ => trivial) fun r => ?_
      cases r with
      | error e => trivial
      | ok active => exact id
    · cases active with
      | false => exact Keeps.throw trivial
      | true =>
        refine followupCalls_query (fun htrue => ?_) fun r => ?_
        · obtain ⟨hx', hany⟩ := hy htrue
          refine ⟨(hx hx').1, activeAdmin_of_any (fun u hu hid => h.active u hu ?_) hany.symm, fun heq => ?_⟩
          · rw [hassigned hx', hid]
          · exact h.other (by rw [hassigned hx', heq])
        · cases r <;> trivial

theorem createFollowupConversation_connects (h : o.Sound d) :
    Keeps (followupCalls d) x (createFollowupConversation o.userId o.isAdmin o.dto) (fun _ _ => True) fun _ => True := by
  refine Keeps.bind (assertUserOwnsItem_connects h) fun _ y hy => ?_
  rcases hdto : o.dto.adminId with - | adminId
  · refine Keeps.bind (Q := fun adminId z => z → y ∧ adminId = d.anyAdmin) ?_ fun adminId z hz => ?_
    · refine followupCalls_query (fun _ => trivial) fun r => ?_
      cases r with
      | error e => trivial
      | ok adminId => exact id
    · refine assigned_connects h fun htrue => ⟨hy (hz htrue).1, ?_⟩
      rw [(hz htrue).2, FollowupCall.assigned, hdto]
  · refine assigned_connects h fun htrue => ⟨hy htrue, ?_⟩
    rw [FollowupCall.assigned, hdto]

theorem followupCalls_follows (h : o.Sound d) : Follows (followupCalls d) (fun _ _ => True) (o.request.code env).run x := by
  have hcode : Keeps (followupCalls d) x (o.request.code env) (fun _ _ => True) fun _ => True :=
    Keeps.bind (createFollowupConversation_connects h) fun _ _ _ => Keeps.pure trivial
  exact Follows.mono hcode fun _ _ _ => trivial

end Calls

section Runs
variable {calls : Client → FollowupCall} {s t : State} {e : Taken} {xs : List Taken}

/-- While the calls run, nobody has been told anything wrong, and every conversation connects. -/
structure Connecting (d : Db) (s : State) : Prop where
  users : s.db.users = d.users
  owners : s.db.owners = d.owners
  rows : ∀ f ∈ s.db.followups.rows, Connects d f
  told : ∃ ph : Client → Prop, (∀ c, ph c) ∧ InPhase (followupCalls d) (fun _ _ => True) ph s

theorem Connecting.step (h : Connecting d s) (hs : Step (act env) s e t) : Connecting d t := by
  obtain ⟨ph, htrue, hphase⟩ := h.told
  obtain ⟨hmay, hphase'⟩ := hphase.noted hs
  have hact := hs.acted
  obtain ⟨husers, -, howners⟩ := act_frozen hact
  refine ⟨husers.trans h.users, howners.trans h.owners, fun f hf => ?_, _, fun c => ?_, hphase'⟩
  · rcases act_followups hact hf with hold | hnew
    · exact h.rows f hold
    · have hconnects := hmay (htrue e.client)
      rw [hnew] at hconnects
      exact ⟨hconnects.1, hconnects.2.1, hconnects.2.2⟩
  · rcases noted_or (fun (x : Prop) q r => x ∧ Truthful d q r) ph e c with ⟨rfl, hn⟩ | ⟨-, hn⟩
    · rw [hn]
      exact ⟨htrue _, act_truthful hact h.users h.owners⟩
    · rw [hn]
      exact htrue c

/-- Where each call is sound for the tables that it starts from, every follow-up conversation connects the owner of its
item with an active admin, whatever the order of the statements of the calls. -/
theorem followups_connect_run (hd : ∀ f ∈ d.followups.rows, Connects d f) (hcalls : ∀ c, (calls c).Sound d)
    (hr : Trace.Run (Step (act env)) (initial env (fun c => (calls c).request) d) xs t) :
    ∀ f ∈ t.db.followups.rows, Connects t.db f := by
  have hstart : Connecting d (initial env (fun c => (calls c).request) d) :=
    ⟨rfl, rfl, hd, fun _ => True, fun _ => trivial, fun c => followupCalls_follows (hcalls c)⟩
  have hend : Connecting d t := hr.preserves (fun _ _ _ hs h => h.step hs) hstart
  intro f hf
  obtain ⟨howner, hadmin, hapart⟩ := hend.rows f hf
  refine ⟨?_, ?_, hapart⟩
  · rw [hend.owners]
    exact howner
  · unfold Db.ActiveAdmin
    rw [hend.users]
    exact hadmin

end Runs

section Fixtures

/-- Everyone's call is the same: the owner of the order asks for a conversation. -/
def ownersCall : FollowupCall := { userId := 1, dto := { itemType := .order, itemId := 9 } }

/-- An admin asks for a conversation about the order of a user. -/
def adminsCall : FollowupCall := { userId := 3, isAdmin := true, dto := { itemType := .order, itemId := 9 } }

theorem ownersCall_sound : ownersCall.Sound quiet where
  owner _ := rfl
  other := by decide
  active := by decide

theorem followups_connect_owner : ∃ xs t,
    Trace.Run (Step (act openEnv)) (initial openEnv (fun _ => ownersCall.request) quiet) xs t ∧
    t.db.followups.rows ≠ [] ∧ ∀ f ∈ t.db.followups.rows, Connects t.db f := by
  have hplay : (replay (act openEnv) (fun _ _ => true) (inOrder 0 4)
      (initial openEnv (fun _ => ownersCall.request) quiet)).map (fun t => t.db.followups.rows.isEmpty) = some false := by
    decide +kernel
  obtain ⟨xs, t, hr, hempty⟩ := replay_run hplay
  have hrun := hr.mono fun _ _ _ h => h.1
  refine ⟨xs, t, hrun, fun h => ?_, followups_connect_run (List.forall_mem_nil _) (fun _ => ownersCall_sound) hrun⟩
  rw [h] at hempty
  cases hempty

/-- The conversation that an admin asks for is one of the admin with the admin. -/
theorem admin_alone_connected : ∃ xs t,
    Trace.Run (Step (act openEnv)) (initial openEnv (fun _ => adminsCall.request) quiet) xs t ∧
    ∃ f ∈ t.db.followups.rows, t.db.owners f.itemType f.itemId = some 1 ∧ f.userId = 3 ∧ f.adminId = 3 ∧
      ¬ Connects t.db f := by
  have hplay : (replay (act openEnv) (fun _ _ => true) (inOrder 0 4)
      (initial openEnv (fun _ => adminsCall.request) quiet)).map (fun t => t.db.followups.rows.any fun f =>
        t.db.owners f.itemType f.itemId = some 1 ∧ f.userId = 3 ∧ f.adminId = 3) = some true := by
    decide +kernel
  obtain ⟨xs, t, hr, hany⟩ := replay_run hplay
  obtain ⟨f, hf, hp⟩ := List.any_eq_true.mp hany
  obtain ⟨howner, huser, hadmin⟩ := of_decide_eq_true hp
  exact ⟨xs, t, hr.mono fun _ _ _ h => h.1, f, hf, howner, huser, hadmin, fun h => h.apart (huser.trans hadmin.symm)⟩

end Fixtures

end Kayan.Chat
