import Mathlib
import Kayan.Listing.Service

/-!
# Pages of users, products and conversations

None of the lists breaks ties of its sort column. Their pages hold every row once, in whatever order
rows with equal timestamps come, exactly when no page ends between two such rows.
-/
namespace Kayan.Listing
open Fk Payload Paging
open Chat (Conversation ProductStatus)
open Reads (OffsetPaginationQuery resolveOffsetPagination)

/-- A `limit` that a query accepts. -/
structure Limit (maxLimit : Nat) where
  value : Option Nat
  accepted : ∀ limit ∈ value, 1 ≤ limit ∧ limit ≤ maxLimit

/-- The query of page `k + 1`. -/
def Limit.page {maxLimit : Nat} (limit : Limit maxLimit) (k : Nat) : OffsetPaginationQuery :=
  { limit := limit.value, page := some (k + 1) }

/-- The number of rows of a page. -/
def Limit.size {maxLimit : Nat} (limit : Limit maxLimit) (defaultLimit : Nat) : Nat := limit.value.getD defaultLimit

/-- The rows of a response. -/
def rowsUnder (key : String) : Except Failure Payload → Option (List Payload)
  | .ok (.obj fs) =>
    match Fields.get key fs with
    | some (.arr rows) => some rows
    | _ => none
  | _ => none

/-- The responses, up to the first without rows, hold each of the rows once. -/
def ReadsAll (key : String) (responses : Nat → Except Failure Payload) (rows : List Payload) : Prop :=
  ∃ pages : Nat → List Payload, (∀ k, rowsUnder key (responses k) = some (pages k)) ∧ Complete pages rows

section General
variable {key : String} {responses : Nat → Except Failure Payload} {pages : Nat → List Payload} {rows : List Payload}

theorem readsAll_iff (h : ∀ k, rowsUnder key (responses k) = some (pages k)) :
    ReadsAll key responses rows ↔ Complete pages rows := by
  constructor
  · rintro ⟨pages', hpages', hcomplete⟩
    have hsame : pages' = pages := funext fun k => Option.some_inj.mp ((hpages' k).symm.trans (h k))
    exact hsame ▸ hcomplete
  · intro hcomplete
    exact ⟨pages, h, hcomplete⟩

theorem not_readsAll (h : rowsUnder key (responses 0) = none) : ¬ ReadsAll key responses rows := by
  rintro ⟨pages, hpages, -⟩
  cases h.symm.trans (hpages 0)

variable {maxLimit d : Nat} (limit : Limit maxLimit)

theorem Limit.size_pos (hd : 0 < d) : 0 < limit.size d := by
  unfold Limit.size
  cases h : limit.value with
  | none => exact hd
  | some value => exact (limit.accepted value h).1

theorem resolve_page (hd : d ≤ maxLimit) (k : Nat) :
    resolveOffsetPagination (limit.page k) d maxLimit = (limit.size d, k * limit.size d) := by
  have hle : limit.size d ≤ maxLimit := by
    unfold Limit.size
    cases h : limit.value with
    | none => exact hd
    | some value => exact (limit.accepted value h).2
  simp only [resolveOffsetPagination, Limit.page, Option.getD_some, Option.getD_none, Nat.add_sub_cancel]
  rw [show limit.value.getD d = limit.size d from rfl, Nat.min_eq_left hle]

theorem page_rows {Row : Type} (hd : d ≤ maxLimit) (k : Nat) (rows : List Row) :
    Reads.page (resolveOffsetPagination (limit.page k) d maxLimit) rows = Paging.page (limit.size d) k rows := by
  rw [resolve_page limit hd]
  rfl

/-- Rows with different ids are shown differently. -/
theorem items_nodup {Row : Type} {ids : Row → Nat} {item : Row → Payload} {shown : Nat → Payload} {rows : List Row}
    (hkeyed : (rows.map ids).Nodup) (hshown : Function.Injective shown)
    (hitem : ∀ row, field "id" (item row) = some (shown (ids row))) : (rows.map item).Nodup := by
  have hids : (rows.map fun row => field "id" (item row)).Nodup := by
    have hcomp : (rows.map fun row => field "id" (item row)) = (rows.map ids).map fun id => some (shown id) := by
      rw [List.map_map]
      exact List.map_congr_left fun row _ => hitem row
    rw [hcomp]
    exact hkeyed.map fun a b hab => hshown (Option.some_inj.mp hab)
  refine List.Nodup.of_map (field "id") ?_
  rwa [List.map_map]

theorem filter_keyed {Row : Type} {ids : Row → Nat} {rows : List Row} (h : (rows.map ids).Nodup) (p : Row → Bool) :
    ((rows.filter p).map ids).Nodup :=
  h.sublist (List.filter_sublist.map ids)

end General

section Lists
variable (rd : Reader) (f : Like.Folding) (s : Store)

/-- The pages of `listUsers` hold each user who matches once. -/
def UsersComplete (limit : Limit 100) (status : Option UserStatus) (q : Option String) : Prop :=
  ∀ scans : Nat → Scan (matchingUsers f s status q),
    ReadsAll "users" (fun k => listUsers rd f s ⟨limit.page k, status, q⟩ (scans k))
      ((matchingUsers f s status q).map (listedUser rd s))

def AdminsComplete (limit : Limit 100) : Prop :=
  ∀ scans : Nat → Scan (matchingAdmins s),
    ReadsAll "admins" (fun k => listAdmins rd s (limit.page k) (scans k)) ((matchingAdmins s).map (listedAdmin rd))

def ListingsComplete (user : LiveUser s) (limit : Limit 100) (status : Option ProductStatus) : Prop :=
  ∀ scans : Nat → Scan (matchingListings s user.id status),
    ReadsAll "items" (fun k => listUserListings rd s user.id ⟨limit.page k, status⟩ (scans k))
      ((matchingListings s user.id status).map (listedProduct rd s))

def ProfileComplete (user : LiveUser s) (limit : Limit 50) : Prop :=
  ∀ scans : Nat → Scan (profileProducts s user.id),
    ReadsAll "products" (fun k => getPublicProfile rd s user.id (limit.page k) (scans k))
      ((profileProducts s user.id).map (profileProduct rd s))

def ConversationsComplete (userId : Nat) (scope : Scope) (limit : Limit 100) : Prop :=
  ∀ scans : Nat → Scan (matchingConversations s userId scope),
    ReadsAll "conversations" (fun k => listConversations rd s userId scope (limit.page k) (scans k))
      ((matchingConversations s userId scope).map (listedConversation rd s userId))

theorem num_injective : Function.Injective fun id : Nat => Payload.num id := fun _ _ h => by simpa using h

theorem bigint_injective (hid : Function.Injective rd.bigintText) : Function.Injective rd.bigint :=
  fun _ _ h => hid (Payload.str.inj h)

theorem listUsers_iff (limit : Limit 100) (status : Option UserStatus) (q : Option String) :
    UsersComplete rd f s limit status q ↔
      q.all textStorable = true ∧
        Unsplit (descending fun user : User => user.createdAt) (limit.size 50) (matchingUsers f s status q) := by
  have hnodup : ((matchingUsers f s status q).map (listedUser rd s)).Nodup :=
    items_nodup (filter_keyed s.usersKeyed _) num_injective fun _ => rfl
  by_cases hq : q.all textStorable = true
  · rw [and_iff_right hq, ← complete_iff _ _ (limit.size_pos (by decide)) hnodup]
    refine forall_congr' fun scans => readsAll_iff fun k => ?_
    rw [listUsers, if_pos hq, page_rows limit (by decide)]
    rfl
  · refine iff_of_false (fun h => ?_) fun h => hq h.1
    refine not_readsAll ?_ (h fun _ => ⟨_, .refl _⟩)
    rw [listUsers, if_neg hq]
    rfl

theorem listAdmins_iff (limit : Limit 100) :
    AdminsComplete rd s limit ↔
      Unsplit (descending fun user : User => rd.timestampText user.createdAt) (limit.size 20) (matchingAdmins s) := by
  have hnodup : ((matchingAdmins s).map (listedAdmin rd)).Nodup :=
    items_nodup (filter_keyed s.usersKeyed _) num_injective fun _ => rfl
  rw [← complete_iff _ _ (limit.size_pos (by decide)) hnodup]
  refine forall_congr' fun scans => readsAll_iff fun k => ?_
  rw [listAdmins, page_rows limit (by decide)]
  rfl

variable (hid : Function.Injective rd.bigintText)
include hid

theorem listUserListings_iff (user : LiveUser s) (limit : Limit 100) (status : Option ProductStatus) :
    ListingsComplete rd s user limit status ↔
      Unsplit (descending fun product : Product => product.createdAt) (limit.size 20)
        (matchingListings s user.id status) := by
  have hnodup : ((matchingListings s user.id status).map (listedProduct rd s)).Nodup :=
    items_nodup (filter_keyed s.productsKeyed _) (bigint_injective rd hid) fun _ => rfl
  have hexists : assertUserExists s user.id = .ok () := if_pos user.live
  rw [← complete_iff _ _ (limit.size_pos (by decide)) hnodup]
  refine forall_congr' fun scans => readsAll_iff fun k => ?_
  rw [listUserListings, hexists, page_rows limit (by decide)]
  rfl

theorem getPublicProfile_iff (user : LiveUser s) (limit : Limit 50) :
    ProfileComplete rd s user limit ↔
      Unsplit (descending fun product : Product => product.createdAt) (limit.size 20) (profileProducts s user.id) := by
  have hnodup : ((profileProducts s user.id).map (profileProduct rd s)).Nodup :=
    items_nodup (filter_keyed s.productsKeyed _) (bigint_injective rd hid) fun _ => rfl
  obtain ⟨row, hrow⟩ : ∃ row, s.users.find? (fun row => row.id = user.id && row.deletedAt.isNone) = some row := by
    rw [← Option.isSome_iff_exists, List.find?_isSome]
    simpa using List.any_eq_true.mp user.live
  rw [← complete_iff _ _ (limit.size_pos (by decide)) hnodup]
  refine forall_congr' fun scans => readsAll_iff fun k => ?_
  simp only [getPublicProfile, hrow]
  rw [page_rows limit (by decide)]
  rfl

theorem listConversations_iff (userId : Nat) (scope : Scope) (limit : Limit 100) :
    ConversationsComplete rd s userId scope limit ↔
      Unsplit (descending (lastActivity s)) (limit.size 20) (matchingConversations s userId scope) := by
  have hnodup : ((matchingConversations s userId scope).map (listedConversation rd s userId)).Nodup :=
    items_nodup (filter_keyed s.conversationsKeyed _) (bigint_injective rd hid) fun _ => rfl
  rw [← complete_iff _ _ (limit.size_pos (by decide)) hnodup]
  refine forall_congr' fun scans => readsAll_iff fun k => ?_
  rw [listConversations, page_rows limit (by decide)]
  rfl

/-- The pages of each list hold every row once, whatever the orders of rows with equal timestamps,
exactly when the search text can be sent and no page ends between two rows with equal timestamps. -/
theorem pages_complete_iff :
    (∀ limit status q, UsersComplete rd f s limit status q ↔
      q.all textStorable = true ∧
        Unsplit (descending fun user : User => user.createdAt) (limit.size 50) (matchingUsers f s status q)) ∧
    (∀ limit, AdminsComplete rd s limit ↔
      Unsplit (descending fun user : User => rd.timestampText user.createdAt) (limit.size 20) (matchingAdmins s)) ∧
    (∀ user limit status, ListingsComplete rd s user limit status ↔
      Unsplit (descending fun product : Product => product.createdAt) (limit.size 20)
        (matchingListings s user.id status)) ∧
    (∀ user limit, ProfileComplete rd s user limit ↔
      Unsplit (descending fun product : Product => product.createdAt) (limit.size 20) (profileProducts s user.id)) ∧
    ∀ userId scope limit, ConversationsComplete rd s userId scope limit ↔
      Unsplit (descending (lastActivity s)) (limit.size 20) (matchingConversations s userId scope) :=
  ⟨listUsers_iff rd f s, listAdmins_iff rd s, listUserListings_iff rd s hid, getPublicProfile_iff rd s hid,
    listConversations_iff rd s hid⟩

end Lists

section Twins

def mona : User := { id := 1, name := "Mona", isAdmin := true, createdAt := 0, updatedAt := 0 }

def ali : User := { id := 2, name := "Ali", isAdmin := true, createdAt := 0, updatedAt := 0 }

/-- Two administrators with one `created_at`. -/
def twins : Store := { users := [mona, ali] }

def Limit.of (n : Nat) (h : 1 ≤ n ∧ n ≤ 100) : Limit 100 where
  value := some n
  accepted := fun _ hlimit => Option.mem_some_iff.mp hlimit ▸ h

theorem pages_complete_twins : UsersComplete textReader .none twins (.of 2 (by decide)) none none := by
  rw [(pages_complete_iff textReader .none twins fun _ _ => Nat.repr_injective).1]
  refine ⟨rfl, fun k user huser => ?_⟩
  have hgroup : upto (descending fun user : User => user.createdAt) (matchingUsers .none twins none none) user ≤ 2 :=
    List.countP_le_length
  rcases Nat.eq_zero_or_pos k with rfl | hk
  · exact .inl (by omega)
  · right
    change _ ≤ k * 2
    omega

/-- Mona comes first in the query of the first page, and second in that of the second: she is listed
twice, and Ali not at all. -/
theorem user_listed_twice : ¬ UsersComplete textReader .none twins (.of 1 (by decide)) none none := by
  intro h
  obtain ⟨pages, hpages, out, hwalk, hout⟩ :=
    h fun k => if k = 0 then ⟨[mona, ali], .refl _⟩ else ⟨[ali, mona], .swap _ _ _⟩
  have h0 : pages 0 = [listedUser textReader twins mona] := Option.some_inj.mp (hpages 0).symm
  have h1 : pages 1 = [listedUser textReader twins mona] := Option.some_inj.mp (hpages 1).symm
  have h2 : pages 2 = [] := Option.some_inj.mp (hpages 2).symm
  have htwice : Walk pages [listedUser textReader twins mona, listedUser textReader twins mona] := by
    refine ⟨2, h2, fun k hk => ?_, ?_⟩
    · obtain rfl | rfl : k = 0 ∨ k = 1 := by omega
      · simp [h0]
      · simp [h1]
    · change _ = pages 0 ++ (pages 1 ++ [])
      rw [h0, h1]
      rfl
  rw [hwalk.unique htwice] at hout
  have hali : listedUser textReader twins ali ∈ [listedUser textReader twins mona, listedUser textReader twins mona] :=
    hout.mem_iff.mpr (List.mem_cons_of_mem _ List.mem_cons_self)
  simp [listedUser, mapToAppUser, mona, ali] at hali

end Twins

end Kayan.Listing
