import Kayan.Sessions.Admins

/-!
# The last admin

An admin with a valid session promotes, demotes, suspends and deletes accounts, and every user
deletes the own one. Of these only a demotion is refused for the own account; whether another
admin is left is never asked.
-/
namespace Kayan.Sessions
open Interleave Auth RowStore

section Guard
variable (env : Env)

/-- `AdminGuard.canActivate`. -/
def canActivate (user : AuthUser) : Code Unit := do
  let isAdmin : Option Bool ← query (.selectAdminCheck user.sub)
  if isAdmin = some true then pure () else throw (.forbidden "Admin privileges required")

/-- The requests that change who is an active admin. -/
inductive Action where
  | promoteAdmin (userId : Nat)
  | demoteAdmin (userId : Nat)
  | updateUserStatus (userId : Nat) (status : UserStatus)
  | deleteUser (userId : Nat)
  | deleteMe

/-- An action of an authenticated user, behind `AdminGuard` where it is one of the admin's. -/
def Action.perform (user : AuthUser) : Action → Code Payload
  | .promoteAdmin userId => do
    canActivate user
    Sessions.promoteAdmin user.sub userId
  | .demoteAdmin userId => do
    canActivate user
    Sessions.demoteAdmin user.sub userId
  | .updateUserStatus userId status => do
    canActivate user
    Sessions.updateUserStatus env user.sub userId status
  | .deleteUser userId => do
    canActivate user
    Sessions.deleteUser env user.sub userId
  | .deleteMe => Sessions.deleteMe user.sub

/-- A request with a bearer token. -/
def Action.code (accessToken : String) (action : Action) : Code Result := do
  let user ← authenticate env accessToken
  let body ← action.perform env user
  pure (.response body)

/-- Every client has a token and an action still to run. -/
def administration (calls : Client → String × Action) (d : Db) : State :=
  ⟨d, fun c => ((calls c).2.code env (calls c).1).run⟩

end Guard

/-- An active admin: not deleted, not suspended, with the flag. -/
def Standing.rules (s : Standing) : Prop := s.creds.value = true ∧ s.status = .active ∧ s.deleted = false

instance (s : Standing) : Decidable s.rules := inferInstanceAs (Decidable (_ ∧ _ ∧ _))

/-- There is an active admin. -/
def HasAdmin (d : Db) : Prop := ∃ u, (d.standing u).rules

/-- The user whom a statement demotes, suspends or deletes. -/
def Stmt.strips : Stmt → Option Nat
  | .updateIsAdmin false userId => some userId
  | .updateStatus status userId => if status = .active then none else some userId
  | .deleteUser userId => some userId
  | _ => none

/-- An active admin is demoted, suspended or deleted only while there is another one. -/
def Spares (s : State) (e : Taken) : Prop :=
  ∀ u, e.stmt.strips = some u → (∀ err, e.move ≠ .fail err) → (s.db.standing u).rules →
    ∃ v, v ≠ u ∧ (s.db.standing v).rules

variable {env : Env} {m : Move} {c : Client} {q : Stmt} {r : Answer q} {d d' : Db} {u : Nat}
  {s t : State} {e : Taken} {xs : List Taken}

section Steps

/-- An `UPDATE` of account administration finds the row of an active admin. -/
theorem updateUser_found {f : User → User} {users users' : Table Client User} {x : Option User} {row : User}
    (hc : users.committed u = some row) (hd : row.deleted = false) (h : updateUser u f users = some (x, users')) :
    x = some (f row) := by
  unfold updateUser at h
  rw [hc] at h
  dsimp only at h
  rw [hd] at h
  rw [if_neg Bool.false_ne_true] at h
  split at h
  · cases h
    rfl
  · cases h

theorem rules_row (h : (d.standing u).rules) :
    ∃ row, d.auth.users.committed u = some row ∧ row.deleted = false := by
  unfold Db.standing at h
  rcases hc : d.auth.users.committed u with _ | row
  · rw [hc] at h
    cases h.1
  · rw [hc] at h
    exact ⟨row, rfl, h.2.2⟩

/-- What strips an active admin, and runs, leaves no active admin there. -/
theorem act_strips (h : act env m c q d = some (r, d')) (hq : q.strips = some u) (hm : ∀ err, m ≠ .fail err)
    (hu : (d.standing u).rules) : ∃ f, q.restands r = some (u, f) ∧ ∀ x, ¬ (f x).rules := by
  obtain ⟨row, hc, hd⟩ := rules_row hu
  obtain ⟨d₁, ha, rfl⟩ := act_acted h
  cases ha with
  | otp ha => cases hq
  | fail hf => exact absurd rfl (hm _)
  | run hx =>
    cases q with
    | updateIsAdmin isAdmin i =>
      cases isAdmin with
      | true => cases hq
      | false =>
        cases hq
        obtain ⟨⟨x, users⟩, hupdate, he⟩ := Option.map_eq_some_iff.mp hx
        cases he
        obtain rfl := updateUser_found hc hd hupdate
        exact ⟨_, rfl, fun x hx => nomatch hx.1⟩
    | updateStatus status i =>
      by_cases hs : status = .active
      · cases (if_pos hs).symm.trans hq
      · cases (if_neg hs).symm.trans hq
        obtain ⟨⟨x, users⟩, hupdate, he⟩ := Option.map_eq_some_iff.mp hx
        cases he
        obtain rfl := updateUser_found hc hd hupdate
        exact ⟨_, rfl, fun x hx => hs hx.2.1⟩
    | deleteUser i =>
      cases hq
      obtain ⟨⟨x, users⟩, hupdate, he⟩ := Option.map_eq_some_iff.mp hx
      cases he
      obtain rfl := updateUser_found hc hd hupdate
      exact ⟨_, rfl, fun x hx => nomatch hx.2.2⟩
    | _ => cases hq

/-- A statement that takes an active admin away is one that strips it. -/
theorem restands_strips {f : Standing → Standing} {x : Standing} (h : q.restands r = some (u, f)) (hx : x.rules) :
    (f x).rules ∨ q.strips = some u := by
  cases q with
  | updateIsAdmin isAdmin i =>
    rcases r with e | _ | row
    · cases h
    · cases h
    · cases h
      cases isAdmin with
      | true => exact Or.inl ⟨rfl, hx.2⟩
      | false => exact Or.inr rfl
  | updateStatus status i =>
    rcases r with e | _ | row
    · cases h
    · cases h
    · cases h
      by_cases hs : status = .active
      · exact Or.inl ⟨hx.1, hs, hx.2.2⟩
      · exact Or.inr (if_neg hs)
  | deleteUser i =>
    rcases r with e | _ | _
    · cases h
    · cases h
    · cases h
      exact Or.inr rfl
  | _ => cases h

theorem restands_runs (h : act env m c q d = some (r, d')) {x : Nat × (Standing → Standing)}
    (hq : q.restands r = some x) : ∀ err, m ≠ .fail err := by
  rintro err rfl
  obtain ⟨d₁, ha, rfl⟩ := act_acted h
  cases ha with
  | otp ha => cases hq
  | fail hf =>
    rw [restands_error] at hq
    cases hq

/-- One step keeps that there is an active admin exactly where it spares the last one. -/
theorem hasAdmin_step (hs : Step (act env) s e t) (hu : Users s.db.auth.users) (hd : HasAdmin s.db) :
    HasAdmin t.db ↔ Spares s e := by
  obtain ⟨-, hstand⟩ := act_standing hs.acted hu
  constructor
  · rintro ⟨v, hv⟩ u hq hm hrules
    obtain ⟨f, hf, hnot⟩ := act_strips hs.acted hq hm hrules
    rw [hstand, hf] at hv
    by_cases hvu : v = u
    · rw [restand, if_pos hvu] at hv
      exact absurd hv (hnot _)
    · rw [restand, if_neg hvu] at hv
      exact ⟨v, hvu, hv⟩
  · intro hspares
    obtain ⟨u, hu⟩ := hd
    rcases hr : e.stmt.restands e.reply with _ | ⟨i, f⟩
    · refine ⟨u, ?_⟩
      rw [hstand, hr]
      exact hu
    · have hother : ∀ v, v ≠ i → (s.db.standing v).rules → HasAdmin t.db := by
        intro v hne hv
        refine ⟨v, ?_⟩
        rw [hstand, hr, restand, if_neg hne]
        exact hv
      by_cases hui : u = i
      · subst hui
        rcases restands_strips hr hu with hstays | hstrips
        · refine ⟨u, ?_⟩
          rw [hstand, hr, restand, if_pos rfl]
          exact hstays
        · obtain ⟨v, hne, hv⟩ := hspares u hstrips (restands_runs hs.acted hr) hu
          exact hother v hne hv
      · exact hother u hui hu

/-- From a state with an active admin, the runs in which there always is one are the runs in which
no statement demotes, suspends or deletes the last one. -/
theorem last_admin_stays_iff {calls : Client → String × Action} (hu : Users d.auth.users) (hd : HasAdmin d) :
    Trace.Run (fun s e t => Step (act env) s e t ∧ HasAdmin t.db) (administration env calls d) xs t ↔
      Trace.Run (fun s e t => Step (act env) s e t ∧ Spares s e) (administration env calls d) xs t :=
  Trace.Run.stays_iff (J := fun s : State => Users s.db.auth.users) (I := fun s : State => HasAdmin s.db)
    (fun _ _ _ hs hu => (act_standing hs.acted hu).1) (fun _ _ _ hs hu hd => hasAdmin_step hs hu hd) ⟨hu, hd⟩

end Steps

section Fixtures

/-- Mona is the only admin. -/
def ruling : User := { mona with isAdmin := true }

def ruled : Db := ⟨accounts [{ omar with isAdmin := false }, ruling], fun _ => none, []⟩

theorem ruled_users : Users ruled.auth.users where
  keyed i r hr := by
    match i with
    | 0 | 1 =>
      cases hr
      rfl
    | _ + 2 => cases hr
  drafts c i v w hv := by cases hv

theorem ruled_hasAdmin : HasAdmin ruled := ⟨1, by decide⟩

/-- She promotes Omar and deletes her account. -/
def succession : Client → String × Action
  | 0 => (accessOf ruling, .promoteAdmin 0)
  | _ => (accessOf ruling, .deleteMe)

def administer (ok : State → Taken → Bool) (calls : Client → String × Action) (l : List (Client × Nat)) :
    Option State :=
  replay (act (openEnv false)) ok (turns l) (administration (openEnv false) calls ruled)

/-- What takes an administrator leaves the first user another. -/
def sparesFirst (s : State) (e : Taken) : Bool :=
  match e.stmt.strips with
  | some u => u ≠ 0 && (s.db.standing 0).rules
  | none => true

theorem last_admin_stays_succession : ∃ xs t,
    Trace.Run (fun s e t => Step (act (openEnv false)) s e t ∧ HasAdmin t.db)
      (administration (openEnv false) succession ruled) xs t ∧ ¬ (t.db.standing 1).rules := by
  have hplay : (administer sparesFirst succession [(0, 6), (1, 3)]).map
      (fun t => decide (t.db.standing 1).rules) = some false := by
    decide +kernel
  obtain ⟨xs, t, hr, ht⟩ := replay_run hplay
  have hspares : Trace.Run (fun s e t => Step (act (openEnv false)) s e t ∧ Spares s e)
      (administration (openEnv false) succession ruled) xs t := by
    refine hr.mono fun s e t h => ⟨h.1, fun u hq _ _ => ?_⟩
    have hok := h.2
    rw [sparesFirst, hq] at hok
    obtain ⟨hne, hrules⟩ := Bool.and_eq_true_iff.mp hok
    exact ⟨0, fun hu => of_decide_eq_true hne hu.symm, of_decide_eq_true hrules⟩
  exact ⟨xs, t, (last_admin_stays_iff ruled_users ruled_hasAdmin).mpr hspares, of_decide_eq_false ht⟩

/-- She deletes her account as an admin. -/
def abdication : Client → String × Action
  | _ => (accessOf ruling, .deleteUser 1)

/-- The only admin is authenticated, passes `AdminGuard`, and deletes the own account. -/
theorem last_admin_deleted : ∃ xs t, Trace.Run (Step (act (openEnv false)))
    (administration (openEnv false) abdication ruled) xs t ∧ HasAdmin ruled ∧ ¬ HasAdmin t.db := by
  have hplay : (administer (fun _ _ => true) abdication [(0, 4)]).map (fun t =>
      (decide (t.db.standing 0).rules, decide (t.db.standing 1).rules, t.db.auth.users.next)) =
        some (false, false, 2) := by
    decide +kernel
  obtain ⟨xs, t, hr, ht⟩ := replay_run hplay
  simp only [Prod.mk.injEq, decide_eq_false_iff_not] at ht
  obtain ⟨hzero, hone, hnext⟩ := ht
  refine ⟨xs, t, hr.mono fun _ _ _ h => h.1, ruled_hasAdmin, ?_⟩
  rintro ⟨u, hu⟩
  obtain ⟨row, hrow, -⟩ := rules_row hu
  have hlt := Table.lt_of_committed hrow
  rw [hnext] at hlt
  match u, hlt with
  | 0, _ => exact hzero hu
  | 1, _ => exact hone hu

end Fixtures

end Kayan.Sessions
