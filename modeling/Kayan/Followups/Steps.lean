import Kayan.Products.Schema
import Kayan.Reads.Service
import Kayan.Shop.Stock

/-!
# The steps of a follow-up

`adminUpdateFollowupStep` and `adminDeleteFollowupStep` of `KayanService`, with their routes. A route names an item
and a step; what the service is given is the step alone.
-/
namespace Kayan.Followups
open Reads

/-- `followup_steps`, and the ids of `files`. -/
structure Store where
  now : Nat
  files : List Nat
  steps : List FollowupStep
  keyed : (steps.map (·.id)).Nodup

namespace Store

/-- The row with a key. -/
def step (s : Store) (id : Nat) : Option FollowupStep := s.steps.find? (·.id = id)

/-- The store with a new version of a row. -/
def replace (s : Store) (step : FollowupStep) : Store where
  now := s.now
  files := s.files
  steps := s.steps.map fun row => if row.id = step.id then step else row
  keyed := by
    have hid : ∀ row : FollowupStep, (if row.id = step.id then step else row).id = row.id := by
      intro row
      split
      · rename_i h
        exact h.symm
      · rfl
    simpa only [List.map_map, Function.comp_def, hid] using s.keyed

/-- The store without a row. -/
def remove (s : Store) (id : Nat) : Store where
  now := s.now
  files := s.files
  steps := s.steps.filter fun row => row.id ≠ id
  keyed := s.keyed.sublist (List.filter_sublist.map _)

end Store

/-- The parameters of a route. -/
structure FollowupStepParamDto where
  itemType : ItemType
  itemId : Nat
  id : Nat
  itemId_min : 1 ≤ itemId
  id_min : 1 ≤ id

/-- The body of an update. A field that is `null` counts as absent. -/
structure UpdateFollowupStepDto where
  title : Option String := none
  stepImageFileId : Option Nat := none
  sortOrder : Option Nat := none
  title_notEmpty : title ≠ some "" := by decide
  stepImageFileId_min : ∀ fileId ∈ stepImageFileId, 1 ≤ fileId := by decide

section Statements

/-- What the columns and the key cannot take. -/
def UpdateFollowupStepDto.parameters (dto : UpdateFollowupStepDto) (stepId : Nat) : Except PgError Unit :=
  if dto.title.any fun title => !Payload.textStorable title then .error .characterNotInRepertoire
  else if Fk.bigintMax < stepId ∨ dto.stepImageFileId.any (Fk.bigintMax < ·) ∨
      dto.sortOrder.any (Products.integerMax < ·) then
    .error .outOfRange
  else .ok ()

/-- `title = COALESCE($1, title), ...`. -/
def UpdateFollowupStepDto.apply (now : Nat) (dto : UpdateFollowupStepDto) (step : FollowupStep) : FollowupStep :=
  { step with
    title := dto.title.getD step.title
    stepImageFileId := dto.stepImageFileId.or step.stepImageFileId
    sortOrder := dto.sortOrder.getD step.sortOrder
    updatedAt := now }

/-- `UPDATE followup_steps SET ... WHERE id = $4 RETURNING *`. -/
def updateStep (dto : UpdateFollowupStepDto) (stepId : Nat) (s : Store) : Except PgError (Option FollowupStep) × Store :=
  match dto.parameters stepId with
  | .error e => (.error e, s)
  | .ok () =>
    match s.step stepId with
    | none => (.ok none, s)
    | some step =>
      if dto.stepImageFileId.all (· ∈ s.files) then
        (.ok (some (dto.apply s.now step)), s.replace (dto.apply s.now step))
      else (.error .foreignKeyViolation, s)

/-- `DELETE FROM followup_steps WHERE id = $1 RETURNING id`: whether a row is deleted. -/
def deleteStep (stepId : Nat) (s : Store) : Except PgError Bool × Store :=
  if Fk.bigintMax < stepId then (.error .outOfRange, s)
  else (.ok (s.step stepId).isSome, s.remove stepId)

end Statements

section Service
variable (drv : Driver)

abbrev Code (α : Type) := ExceptT Failure (StateM Store) α

/-- Awaits one statement; its error is thrown. -/
def query {α : Type} (statement : Store → Except PgError α × Store) : Code α :=
  ExceptT.mk fun s => ((statement s).1.mapError Failure.database, (statement s).2)

def adminUpdateFollowupStep (stepId : Nat) (dto : UpdateFollowupStepDto) : Code Payload := do
  let row : Option FollowupStep ← query (updateStep dto stepId)
  match row with
  | none => throw (.notFound "Step not found")
  | some step => pure (.obj [("step", .obj (createdStepFields drv step))])

def adminDeleteFollowupStep (stepId : Nat) : Code Payload := do
  let deleted : Bool ← query (deleteStep stepId)
  if !deleted then throw (.notFound "Step not found")
  else pure (.obj [("message", .str "Step deleted")])

/-- The requests on `admin/followups/:itemType/:itemId/steps/:id`. -/
inductive Request where
  | updateStep (dto : UpdateFollowupStepDto)
  | deleteStep

/-- The handlers of the controller. -/
def Request.handle (params : FollowupStepParamDto) : Request → Code Payload
  | .updateStep dto => adminUpdateFollowupStep drv params.id dto
  | .deleteStep => adminDeleteFollowupStep params.id

/-- The response to a request, and the store after it. -/
def Request.serve (req : Request) (params : FollowupStepParamDto) (s : Store) : Except Failure Payload × Store :=
  (req.handle drv params).run.run s

end Service

section Rows
variable {s : Store} {id : Nat} {step row : FollowupStep}

theorem step_eq_some : s.step id = some step ↔ step ∈ s.steps ∧ step.id = id := by
  constructor
  · intro h
    exact ⟨List.mem_of_find?_eq_some h, by simpa using List.find?_some h⟩
  · rintro ⟨hmem, hid⟩
    rcases hf : s.step id with - | row
    · have hnone := List.find?_eq_none.mp hf step hmem
      simp [hid] at hnone
    · have hrow : row.id = id := by simpa using List.find?_some hf
      have hsame : row = step := List.inj_on_of_nodup_map s.keyed (List.mem_of_find?_eq_some hf) hmem (hrow.trans hid.symm)
      rw [hsame]

theorem step_eq_none : s.step id = none ↔ ∀ step ∈ s.steps, step.id ≠ id := by
  simp [Store.step]

theorem mem_replace (h : row.id ≠ step.id) : row ∈ (s.replace step).steps ↔ row ∈ s.steps := by
  simp only [Store.replace, List.mem_map]
  constructor
  · rintro ⟨old, hold, heq⟩
    split at heq
    · exact absurd (congrArg FollowupStep.id heq.symm) h
    · exact heq ▸ hold
  · intro hrow
    exact ⟨row, hrow, if_neg h⟩

theorem mem_remove : row ∈ (s.remove id).steps ↔ row ∈ s.steps ∧ row.id ≠ id := by
  simp [Store.remove]

end Rows

section Scope
variable {drv : Driver} {req : Request} {p : FollowupStepParamDto} {s : Store} {step : FollowupStep}

/-- The step is one of the item of the route. -/
def FollowupStepParamDto.Scopes (p : FollowupStepParamDto) (step : FollowupStep) : Prop :=
  step.itemType = p.itemType ∧ step.itemId = p.itemId

/-- At most the step of the route is changed or removed, and only if it is one of the item of the route. -/
structure Scoped (p : FollowupStepParamDto) (s : Store) (x : Except Failure Payload × Store) : Prop where
  others : ∀ step, step.id ≠ p.id → (step ∈ x.2.steps ↔ step ∈ s.steps)
  refused : (∀ step ∈ s.steps, step.id = p.id → ¬ p.Scopes step) →
    x.1 = .error (.notFound "Step not found") ∧ x.2.steps = s.steps

/-- The parameters of the request fit their columns. -/
def Request.Fits (req : Request) (stepId : Nat) : Prop :=
  match req with
  | .updateStep dto => dto.parameters stepId = .ok ()
  | .deleteStep => stepId ≤ Fk.bigintMax

/-- What a request can come to. -/
inductive Served (drv : Driver) (req : Request) (p : FollowupStepParamDto) (s : Store) :
    Except Failure Payload × Store → Prop
  | missing (hnone : s.step p.id = none) (hfits : req.Fits p.id) (s' : Store) (hs : s'.steps = s.steps) :
      Served drv req p s (.error (.notFound "Step not found"), s')
  | failed (e : PgError) (hcause : ¬ req.Fits p.id ∨ (s.step p.id).isSome) :
      Served drv req p s (.error (.database e), s)
  | updated (step : FollowupStep) (hstep : s.step p.id = some step) (new : FollowupStep) (hid : new.id = step.id)
      (response : Payload) : Served drv req p s (.ok response, s.replace new)
  | removed (step : FollowupStep) (hstep : s.step p.id = some step) (response : Payload) :
      Served drv req p s (.ok response, s.remove p.id)

theorem run_query {α β : Type} {statement : Store → Except PgError α × Store} {f : α → Code β} :
    (query statement >>= f).run.run s =
      match statement s with
      | (.error e, s') => (.error (.database e), s')
      | (.ok a, s') => (f a).run.run s' := by
  change ExceptT.bindCont f ((statement s).1.mapError Failure.database) (statement s).2 = _
  rcases statement s with ⟨r, s'⟩
  cases r with
  | error e => rfl
  | ok a => rfl

theorem served_update {dto : UpdateFollowupStepDto} :
    Served drv (.updateStep dto) p s ((adminUpdateFollowupStep drv p.id dto).run.run s) := by
  rw [adminUpdateFollowupStep, run_query, updateStep]
  rcases hparams : dto.parameters p.id with e | ⟨⟩
  · refine .failed e (Or.inl fun h => ?_)
    cases hparams.symm.trans h
  · have hfits : (Request.updateStep dto).Fits p.id := hparams
    rcases hstep : s.step p.id with - | step
    · exact .missing hstep hfits s rfl
    · by_cases hfile : dto.stepImageFileId.all (· ∈ s.files) = true
      · simp only [hfile, if_true]
        exact .updated step hstep (dto.apply s.now step) rfl _
      · simp only [hfile]
        exact .failed .foreignKeyViolation (Or.inr (by simp [hstep]))

theorem served_delete : Served drv .deleteStep p s ((adminDeleteFollowupStep p.id).run.run s) := by
  rw [adminDeleteFollowupStep, run_query, deleteStep]
  by_cases hid : Fk.bigintMax < p.id
  · rw [if_pos hid]
    exact .failed .outOfRange (Or.inl (Nat.not_le_of_lt hid))
  · have hfits : Request.deleteStep.Fits p.id := Nat.le_of_not_lt hid
    rw [if_neg hid]
    rcases hstep : s.step p.id with - | step
    · refine .missing hstep hfits (s.remove p.id) (List.filter_eq_self.mpr fun row hrow => ?_)
      simpa using step_eq_none.mp hstep row hrow
    · exact .removed step hstep _

theorem served : Served drv req p s (req.serve drv p s) := by
  cases req with
  | updateStep dto => exact served_update
  | deleteStep => exact served_delete

/-- A row that is found is the only one with its id. -/
theorem scopes_of_step (h : s.step p.id = some step) (hp : p.Scopes step) :
    ∀ row ∈ s.steps, row.id = p.id → p.Scopes row := by
  intro row hrow hid
  have hsame : step = row := Option.some.inj (h.symm.trans (step_eq_some.mpr ⟨hrow, hid⟩))
  exact hsame ▸ hp

theorem Served.others {x : Except Failure Payload × Store} (h : Served drv req p s x) :
    ∀ step, step.id ≠ p.id → (step ∈ x.2.steps ↔ step ∈ s.steps) := by
  intro row hrow
  cases h with
  | missing hnone hfits s' hs => rw [hs]
  | failed e hcause => exact Iff.rfl
  | updated step hstep new hid response =>
    apply mem_replace
    rw [hid, (step_eq_some.mp hstep).2]
    exact hrow
  | removed step hstep response => simp [mem_remove, hrow]

/-- Where a row with the id exists, the answer is not that it was not found. -/
theorem Served.not_refused {x : Except Failure Payload × Store} (h : Served drv req p s x)
    (hstep : s.step p.id = some step) : x.1 ≠ .error (.notFound "Step not found") := by
  cases h with
  | missing hnone hfits s' hs => cases hnone.symm.trans hstep
  | failed e hcause => nofun
  | updated step hstep new hid response => nofun
  | removed step hstep response => nofun

/-- A request keeps to its item exactly where the row with its id is one of that item, or there is no such row and
its parameters fit. -/
theorem stepRoute_scoped_iff : Scoped p s (req.serve drv p s) ↔
    (∀ step ∈ s.steps, step.id = p.id → p.Scopes step) ∧ ((∀ step ∈ s.steps, step.id ≠ p.id) → req.Fits p.id) := by
  have h : Served drv req p s (req.serve drv p s) := served
  constructor
  · intro hscoped
    rcases hstep : s.step p.id with - | step
    · have hnone := step_eq_none.mp hstep
      have hrefused := hscoped.refused fun step hmem hid => absurd hid (hnone step hmem)
      refine ⟨fun step hmem hid => absurd hid (hnone step hmem), fun _ => ?_⟩
      generalize req.serve drv p s = x at h hrefused
      cases h with
      | missing hnone hfits s' hs => exact hfits
      | failed e hcause => cases hrefused.1
      | updated step hstep' new hid response => cases hrefused.1
      | removed step hstep' response => cases hrefused.1
    · obtain ⟨hmem, hid⟩ := step_eq_some.mp hstep
      refine ⟨?_, fun hnone => absurd hid (hnone step hmem)⟩
      by_cases hp : p.Scopes step
      · exact scopes_of_step hstep hp
      · have hrefused := hscoped.refused fun row hrow hrowid hrowp =>
          hp (scopes_of_step (step_eq_some.mpr ⟨hrow, hrowid⟩) hrowp step hmem hid)
        exact absurd hrefused.1 (h.not_refused hstep)
  · rintro ⟨hscope, hfits⟩
    refine ⟨h.others, fun hout => ?_⟩
    have hnone : ∀ step ∈ s.steps, step.id ≠ p.id := fun step hmem hid => hout step hmem hid (hscope step hmem hid)
    generalize req.serve drv p s = x at h
    cases h with
    | missing hnone' hfits' s' hs => exact ⟨rfl, hs⟩
    | failed e hcause =>
      rcases hcause with hcause | hcause
      · exact absurd (hfits hnone) hcause
      · rw [step_eq_none.mpr hnone] at hcause
        cases hcause
    | updated step hstep new hid response => cases (step_eq_none.mpr hnone).symm.trans hstep
    | removed step hstep response => cases (step_eq_none.mpr hnone).symm.trans hstep

end Scope

section Fixtures

/-- The first order has a step. -/
def ordered : Store where
  now := 1
  files := []
  steps := [{ id := 1, itemType := .order, itemId := 1, title := "Packed", stepImageFileId := none, sortOrder := 0,
              createdBy := some 1, createdAt := 0, updatedAt := 0 }]
  keyed := List.nodup_singleton _

/-- A step of the first order is changed and deleted through the routes of a fault. -/
theorem stepRoute_unscoped : ∃ p : FollowupStepParamDto, p.itemType = .fault ∧ p.itemId = 5 ∧ p.id = 1 ∧
    ¬ Scoped p ordered ((Request.updateStep { title := some "Lost" }).serve Shop.plainDriver p ordered) ∧
    ¬ Scoped p ordered (Request.deleteStep.serve Shop.plainDriver p ordered) := by
  have hout : ∀ p : FollowupStepParamDto, p.itemType = .fault → ∀ step ∈ ordered.steps, step.id = p.id → ¬ p.Scopes step := by
    intro p hp step hstep _ hscopes
    have htype := hscopes.1
    rw [List.mem_singleton.mp hstep, hp] at htype
    cases htype
  refine ⟨⟨.fault, 5, 1, by decide, by decide⟩, rfl, rfl, rfl, fun h => ?_, fun h => ?_⟩
  · cases (h.refused (hout _ rfl)).1
  · cases (h.refused (hout _ rfl)).2

end Fixtures

end Kayan.Followups
