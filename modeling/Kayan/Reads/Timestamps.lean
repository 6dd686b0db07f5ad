import Kayan.Fk.Serialise
import Kayan.Reads.Service

/-!
# Timestamps in responses

The service lists and the rows that an `INSERT` returns carry their timestamps as `Date`
objects. Expansion rebuilds each of them as an object without entries.
-/
namespace Kayan.Reads
open Fk Payload
variable {rd : Reader} {dir : Directory} {look : Resolver} {drv : Driver} {p out : Payload}

/-- The responses with rows whose timestamp columns are not cast to text. -/
inductive Dated (drv : Driver) : Payload → Prop
  | createService (id now userId : Nat) (dto : CreateServiceOrderDto) :
      Dated drv (createService drv id now userId dto)
  | listMyServices (s : Store) (user : AuthUser) (query : ListServicesQueryDto) :
      Dated drv (listMyServices drv s user query)
  | getServiceForUser {s : Store} {userId serviceId : Nat} {allowAdmin : Bool} {p : Payload}
      (h : getServiceForUser drv s userId serviceId allowAdmin = .ok p) : Dated drv p
  | publicListServices (s : Store) (query : ListServicesQueryDto) :
      Dated drv (publicListServices drv s query)
  | adminListServices (s : Store) (query : ListServicesQueryDto) :
      Dated drv (adminListServices drv s query)
  | adminCreateFollowupStep {s : Store} {id now adminId : Nat} {dto : CreateFollowupStepDto} {p : Payload}
      (h : adminCreateFollowupStep drv s id now adminId dto = .ok p) : Dated drv p

/-- Each timestamp column of the row is shown as a text, or is `null`. -/
def TimestampsShown (row : Payload) : Prop :=
  ∀ column ∈ ["cancelled_at", "created_at", "updated_at"], ∀ value, field column row = some value →
    value = .null ∨ ∃ text, value = .str text

theorem not_timestampsShown {row : Payload} (h : field "created_at" row = some (.obj [])) :
    ¬ TimestampsShown row := by
  intro hshown
  obtain hnull | ⟨text, htext⟩ := hshown "created_at" (by simp) _ h
  · cases hnull
  · cases htext

/-- The `created_at` of an expanded service is an object without entries. -/
theorem service_created_at (look : Resolver) (drv : Driver) (so : ServiceOrder) :
    field "created_at" (transformNode look (.obj (serviceFields drv so))) = some (.obj []) := rfl

theorem adminService_created_at (look : Resolver) (drv : Driver) (s : Store) (so : ServiceOrder) :
    field "created_at" (transformNode look (adminServicePayload drv s so)) = some (.obj []) := rfl

theorem step_created_at (look : Resolver) (drv : Driver) (step : FollowupStep) :
    field "created_at" (transformNode look (.obj (createdStepFields drv step))) = some (.obj []) := rfl

/-- Rows that lose their `created_at` show their timestamps only if there are none. -/
theorem items_shown_iff {rows : List Payload}
    (h : ∀ row ∈ rows, field "created_at" (transformNode look row) = some (.obj [])) :
    (∀ row ∈ transformItems look rows, TimestampsShown row) ↔ rows = [] := by
  constructor
  · intro hshown
    cases rows with
    | nil => rfl
    | cons row rest =>
      have hmem : transformNode look row ∈ transformItems look (row :: rest) := List.mem_cons_self
      exact absurd (hshown _ hmem) (not_timestampsShown (h row List.mem_cons_self))
  · rintro rfl row hrow
    cases hrow

/-- The same for a page of services. -/
theorem servicesPage_shown_iff {query : ListServicesQueryDto} {toItem : ServiceOrder → Payload}
    {listed : List ServiceOrder}
    (h : ∀ so, field "created_at" (transformNode look (toItem so)) = some (.obj [])) :
    (∀ row ∈ (transformNode look (servicesPage query toItem listed)).rows, TimestampsShown row) ↔
      (servicesPage query toItem listed).rows = [] := by
  refine items_shown_iff fun row hrow => ?_
  obtain ⟨so, _, rfl⟩ := List.mem_map.mp hrow
  exact h so

/-- The same for a response that holds one service. -/
theorem service_shown_iff (so : ServiceOrder) :
    (∀ row ∈ (transformNode look (.obj [("service", .obj (serviceFields drv so))])).rows,
        TimestampsShown row) ↔
      (Payload.obj [("service", .obj (serviceFields drv so))]).rows = [] := by
  refine items_shown_iff (List.forall_mem_singleton.mpr ?_)
  exact service_created_at look drv so

/-- No response with uncast timestamps shows them, unless it has no rows. -/
theorem dated_shown_iff (h : Dated drv p) :
    (∀ row ∈ (transformNode look p).rows, TimestampsShown row) ↔ p.rows = [] := by
  cases h with
  | createService id now userId dto => exact service_shown_iff _
  | listMyServices s user query => exact servicesPage_shown_iff (service_created_at look drv)
  | publicListServices s query => exact servicesPage_shown_iff (service_created_at look drv)
  | adminListServices s query => exact servicesPage_shown_iff (adminService_created_at look drv s)
  | getServiceForUser h =>
    unfold Reads.getServiceForUser at h
    split at h
    · cases h
    · rename_i so hfind
      split at h
      · cases h
      · injection h with h
        subst h
        exact service_shown_iff so
  | @adminCreateFollowupStep s id now adminId dto _ h =>
    unfold Reads.adminCreateFollowupStep at h
    cases hexists : assertItemExists s dto.itemType dto.itemId with
    | error e => rw [hexists] at h; cases h
    | ok _ =>
      rw [hexists] at h
      injection h with h
      subst h
      refine items_shown_iff (List.forall_mem_singleton.mpr ?_)
      exact step_created_at look drv _

/-- Expansion keeps the JSON of a payload exactly when it can be moved past serialisation,
and none of the responses with uncast timestamps shows the timestamps of its rows. -/
theorem expansion_keeps_content (rd : Reader) (dir : Directory) (p : Payload) :
    ((expand rd dir p).map json = (expand rd dir (ofJson p.json)).map json ↔ Commutes rd dir p) ∧
      ∀ out, Dated rd.toDriver p → expand rd dir p = some out →
        ((∀ row ∈ out.rows, TimestampsShown row) ↔ p.rows = []) := by
  refine ⟨expand_json_iff rd dir p, fun out hp hout => ?_⟩
  rw [expand_some hout]
  exact dated_shown_iff hp

/-- A driver with one timestamp, and links that are the object keys. -/
def plainReader : Reader where
  bigintText := toString
  timestampText := fun _ => "2026-01-05 10:00:00+00"
  iso := fun _ => "2026-01-05T10:00:00.000Z"
  buildReadUrl := fun objectKey _ => objectKey

/-- A directory with one user. -/
def monaOnly : Directory where
  users := [{ id := 7, name := "Mona", phone := none, status := "active", avatar := none, contactInfo := none, rate := "0.00" }]
  products := []
  messages := []
  conversations := []
  files := []
  categories := none

/-- Mona orders a renewal. -/
def renewal : Payload := createService plainReader.toDriver 1 0 7 ⟨.renewal, "Paint the hall", "12 Nile St"⟩

/-- The response to `renewal`, as it is sent. -/
def renewalShown (createdAt updatedAt : Json) : Json :=
  .obj [("service", .obj
    [("id", .str "1"),
     ("user", .obj
       [("id", .num 7), ("name", .str "Mona"), ("phone", .str ""), ("email", .str ""),
        ("profileState", .str "active"), ("rate", .str "0.00"), ("contactInfo", .null), ("avatar", .null)]),
     ("service_type", .str "renewal"), ("description", .str "Paint the hall"), ("address", .str "12 Nile St"),
     ("status", .str "not_started"), ("cancelled_at", .null), ("created_at", createdAt),
     ("updated_at", updatedAt)])]

theorem expansion_keeps_content_renewal :
    ∃ out, expand plainReader monaOnly renewal = some out ∧
      ((∀ row ∈ out.rows, TimestampsShown row) ↔ renewal.rows = []) := by
  obtain ⟨out, hout⟩ : ∃ out, expand plainReader monaOnly renewal = some out := ⟨_, rfl⟩
  exact ⟨out, hout, (expansion_keeps_content plainReader monaOnly renewal).2 out (.createService ..) hout⟩

/-- The `Date`s of a created service are sent as empty objects; expanding the serialised
response keeps their text. -/
theorem renewal_dates_lost :
    (expand plainReader monaOnly renewal).map json = some (renewalShown (.obj []) (.obj [])) ∧
      (expand plainReader monaOnly (ofJson renewal.json)).map json =
        some (renewalShown (.str "2026-01-05T10:00:00.000Z") (.str "2026-01-05T10:00:00.000Z")) ∧
      (expand plainReader monaOnly renewal).map json ≠
        (expand plainReader monaOnly (ofJson renewal.json)).map json := by
  have hlive : (expand plainReader monaOnly renewal).map json = some (renewalShown (.obj []) (.obj [])) := rfl
  have hjson : (expand plainReader monaOnly (ofJson renewal.json)).map json =
      some (renewalShown (.str "2026-01-05T10:00:00.000Z") (.str "2026-01-05T10:00:00.000Z")) := rfl
  refine ⟨hlive, hjson, ?_⟩
  rw [hlive, hjson]
  simp [renewalShown]

end Kayan.Reads
