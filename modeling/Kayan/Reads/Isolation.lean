import Kayan.Reads.References

/-!
# Owner isolation

What a user who is no admin can read of the orders, faults, services and follow-ups, in two
states of the database that agree on what belongs to the user.
-/
namespace Kayan.Reads
open Shop Fk Payload
variable {rd : Reader} {drv : Driver} {s t : Store} {user : AuthUser} {u : Nat} {p : Payload}

/-- The read requests of users. -/
inductive ReadRequest where
  | listMyOrders (query : ListOrdersQueryDto)
  | getOrder (id : Nat)
  | listMyFaults (query : ListMyFaultsQueryDto)
  | getFault (id : Nat)
  | listServices (query : ListServicesQueryDto)
  | listMyServices (query : ListServicesQueryDto)
  | getService (id : Nat)
  | listFollowupSteps (itemType : ItemType) (itemId : Nat) (query : ListFollowupStepsQueryDto)
  | listMessages (itemType : ItemType) (itemId id : Nat)

/-- The routes of the controllers. -/
def serve (drv : Driver) (s : Store) (user : AuthUser) : ReadRequest → Except Failure Payload
  | .listMyOrders query => .ok (listMyOrders drv s user query)
  | .getOrder id => getOrderForUser drv s user.sub id false
  | .listMyFaults query => .ok (listMyFaults drv s user query)
  | .getFault id => getFaultForUser drv s user.sub id false
  | .listServices query => .ok (publicListServices drv s query)
  | .listMyServices query => .ok (listMyServices drv s user query)
  | .getService id => getServiceForUser drv s user.sub id false
  | .listFollowupSteps itemType itemId query => listFollowupSteps drv s user itemType itemId query
  | .listMessages itemType itemId id => listFollowupMessages drv s user id itemType itemId

/-- The response that is sent: `none` in place of a payload whose expansion fails. -/
def respond (rd : Reader) (s : Store) (user : AuthUser) (request : ReadRequest) : Except Failure (Option Payload) :=
  (serve rd.toDriver s user request).map (expand rd s.directory)

def ownOrder (s : Store) (u orderId : Nat) : Bool := s.orders.any fun po => po.id = orderId && po.userId = u

def ownFault (s : Store) (u faultId : Nat) : Bool := s.faults.any fun fr => fr.id = faultId && fr.userId = u

/-- A participant of the conversation. -/
def ownConversation (u : Nat) (fc : FollowupConversation) : Bool := fc.userId = u || fc.adminId = u

def ownChat (s : Store) (u conversationId : Nat) : Bool :=
  s.conversations.any fun fc => fc.id = conversationId && ownConversation u fc

/-- The states agree on the catalog, the public profiles and reviews, and on the account,
orders, faults, services and follow-up data of `u`. -/
structure Agree (u : Nat) (s t : Store) : Prop where
  catalog : s.catalog = t.catalog
  profiles : s.directory.users = t.directory.users
  reviews : s.ratings = t.ratings
  account : s.accounts u = t.accounts u
  orders : (s.orders.filter fun po => po.userId = u) = t.orders.filter fun po => po.userId = u
  items : (s.items.filter fun r => ownOrder s u r.orderId) = t.items.filter fun r => ownOrder t u r.orderId
  faults : (s.faults.filter fun fr => fr.userId = u) = t.faults.filter fun fr => fr.userId = u
  faultAssets : (s.faultAssets.filter fun fa => ownFault s u fa.faultId) =
    t.faultAssets.filter fun fa => ownFault t u fa.faultId
  services : (s.services.filter fun so => so.userId = u) = t.services.filter fun so => so.userId = u
  steps : (s.steps.filter fun step => resolveOwnership s step.itemType step.itemId = some u) =
    t.steps.filter fun step => resolveOwnership t step.itemType step.itemId = some u
  conversations : s.conversations.filter (ownConversation u) = t.conversations.filter (ownConversation u)
  messages : (s.messages.filter fun fm => ownChat s u fm.conversationId) =
    t.messages.filter fun fm => ownChat t u fm.conversationId

/-- The same ids are in use, whosever the rows are. -/
structure SameIds (s t : Store) : Prop where
  orders : ∀ id, (∃ po ∈ s.orders, po.id = id) ↔ ∃ po ∈ t.orders, po.id = id
  faults : ∀ id, (∃ fr ∈ s.faults, fr.id = id) ↔ ∃ fr ∈ t.faults, fr.id = id
  services : ∀ id, (∃ so ∈ s.services, so.id = id) ↔ ∃ so ∈ t.services, so.id = id
  conversations : ∀ id, (∃ fc ∈ s.conversations, fc.id = id) ↔ ∃ fc ∈ t.conversations, fc.id = id

/-- The product, file and conversation ids in the data of `u` are looked up to the same records. -/
structure SameRecords (rd : Reader) (u : Nat) (s t : Store) : Prop where
  products : ∀ r ∈ s.items, ownOrder s u r.orderId →
    lookup rd s.directory .product r.productId = lookup rd t.directory .product r.productId
  files : ∀ fa ∈ s.faultAssets, ownFault s u fa.faultId →
    lookup rd s.directory .file fa.fileId = lookup rd t.directory .file fa.fileId
  conversations : ∀ fc ∈ s.conversations, ownConversation u fc → ∀ id, toPositiveInt (rd.bigint fc.id) = some id →
    lookup rd s.directory .conversation id = lookup rd t.directory .conversation id

section Lists
variable {Row : Type} {xs ys : List Row} {k : Row → Nat} {own : Row → Bool} {id : Nat}

/-- A row found by its key, in two keyed lists that agree on the own rows and on the keys. -/
theorem find_cases (hx : (xs.map k).Nodup) (hy : (ys.map k).Nodup) (hown : xs.filter own = ys.filter own)
    (hids : (∃ x ∈ xs, k x = id) ↔ ∃ y ∈ ys, k y = id) :
    (xs.find? (fun x => k x = id) = none ∧ ys.find? (fun y => k y = id) = none) ∨
    (∃ r, xs.find? (fun x => k x = id) = some r ∧ ys.find? (fun y => k y = id) = some r ∧ own r = true) ∨
    ∃ x y, xs.find? (fun x => k x = id) = some x ∧ ys.find? (fun y => k y = id) = some y ∧
      own x = false ∧ own y = false := by
  have hfind : ∀ {zs : List Row} {z : Row}, (zs.map k).Nodup → z ∈ zs → k z = id →
      zs.find? (fun w => k w = id) = some z := by
    intro zs z hz hmem hk
    have hsome : (zs.find? fun w => k w = id).isSome := by
      rw [List.find?_isSome]
      exact ⟨z, hmem, by simpa using hk⟩
    obtain ⟨w, hw⟩ := Option.isSome_iff_exists.mp hsome
    have hkw : k w = id := by
      have hp := List.find?_some hw
      simpa using hp
    rw [hw, List.inj_on_of_nodup_map hz (List.mem_of_find?_eq_some hw) hmem (hkw.trans hk.symm)]
  by_cases hex : ∃ x ∈ xs, k x = id
  · obtain ⟨x, hxm, hkx⟩ := hex
    obtain ⟨y, hym, hky⟩ := hids.mp ⟨x, hxm, hkx⟩
    right
    cases hox : own x with
    | true =>
      have hxy : x ∈ ys := (List.mem_filter.mp (hown ▸ List.mem_filter.mpr ⟨hxm, hox⟩)).1
      exact Or.inl ⟨x, hfind hx hxm hkx, hfind hy hxy hkx, hox⟩
    | false =>
      refine Or.inr ⟨x, y, hfind hx hxm hkx, hfind hy hym hky, hox, ?_⟩
      cases hoy : own y with
      | false => rfl
      | true =>
        have hyx : y ∈ xs := (List.mem_filter.mp (hown.symm ▸ List.mem_filter.mpr ⟨hym, hoy⟩)).1
        have heq := List.inj_on_of_nodup_map hx hxm hyx (hkx.trans hky.symm)
        rw [heq, hoy] at hox
        cases hox
  · have hey : ¬ ∃ y ∈ ys, k y = id := fun h => hex (hids.mpr h)
    refine Or.inl ⟨List.find?_eq_none.mpr fun x hxm => ?_, List.find?_eq_none.mpr fun y hym => ?_⟩
    · simpa using fun hk => hex ⟨x, hxm, hk⟩
    · simpa using fun hk => hey ⟨y, hym, hk⟩

/-- A test of the row with some key is a test of the row that is found. -/
theorem any_of_find {q : Row → Prop} [DecidablePred q] {r : Row} (hx : (xs.map k).Nodup)
    (h : xs.find? (fun x => k x = id) = some r) : (xs.any fun x => decide (k x = id ∧ q x)) = decide (q r) := by
  have hmem := List.mem_of_find?_eq_some h
  have hkey : k r = id := by
    have hp := List.find?_some h
    simpa using hp
  rw [Bool.eq_iff_iff, List.any_eq_true, decide_eq_true_iff]
  constructor
  · rintro ⟨x, hxm, hxq⟩
    obtain ⟨hxk, hq⟩ := of_decide_eq_true hxq
    rwa [List.inj_on_of_nodup_map hx hmem hxm (hkey.trans hxk.symm)]
  · exact fun hq => ⟨r, hmem, decide_eq_true ⟨hkey, hq⟩⟩

/-- Rows selected among the own ones are the same where the own rows are. -/
theorem filter_of_own {q : Row → Bool} (hown : xs.filter own = ys.filter own) :
    (xs.filter fun x => own x && q x) = ys.filter fun x => own x && q x := by
  have h := congrArg (List.filter q) hown
  rw [List.filter_filter, List.filter_filter] at h
  simpa only [Bool.and_comm] using h

/-- The same, where the selected rows are own in each list. -/
theorem filter_of_owned {own' q : Row → Bool} (hown : xs.filter own = ys.filter own')
    (hx : ∀ x ∈ xs, q x = true → own x = true) (hy : ∀ y ∈ ys, q y = true → own' y = true) :
    xs.filter q = ys.filter q := by
  have h := congrArg (List.filter q) hown
  rw [List.filter_filter, List.filter_filter] at h
  calc xs.filter q = xs.filter fun x => q x && own x :=
        List.filter_congr fun x hxm => by cases hq : q x <;> simp [hq, hx x hxm]
    _ = ys.filter fun y => q y && own' y := h
    _ = ys.filter q := List.filter_congr fun y hym => by cases hq : q y <;> simp [hq, hy y hym]

end Lists

section Rows
variable {Row : Type} {rows : List Row} {bounds : Nat × Nat} {r : Row}

theorem mem_of_mem_page (h : r ∈ page bounds rows) : r ∈ rows :=
  List.mem_of_mem_drop (List.mem_of_mem_take h)

theorem mem_byCreation {createdAt id : Row → Nat} {direction : Option SortDirection} :
    r ∈ byCreation createdAt id direction rows ↔ r ∈ rows := List.mem_insertionSort _

end Rows

theorem mem_listedOrders {own : ProductOrder → Bool} {query : ListOrdersQueryDto} {po : ProductOrder}
    (h : po ∈ listedOrders s own query) : po ∈ s.orders ∧ own po = true := by
  have hmem := List.mem_filter.mp (mem_byCreation.mp h)
  simp only [Bool.and_eq_true] at hmem
  exact ⟨hmem.1, hmem.2.1.1⟩

theorem mem_sortFaults {sortBy : FaultSortBy} {direction : Option SortDirection} {rows : List FaultReport}
    {fr : FaultReport} : fr ∈ sortFaults sortBy direction rows ↔ fr ∈ rows := by
  cases sortBy
  · exact mem_byCreation
  · exact List.mem_insertionSort _

section Serve

theorem listedOrders_eq (h : Agree u s t) (query : ListOrdersQueryDto) :
    listedOrders s (fun po => po.userId = u) query = listedOrders t (fun po => po.userId = u) query := by
  unfold listedOrders
  simp only [Bool.and_assoc]
  rw [filter_of_own h.orders]

theorem listedServices_eq (h : Agree u s t) (query : ListServicesQueryDto) :
    listedServices s (fun so => so.userId = u) query = listedServices t (fun so => so.userId = u) query := by
  unfold listedServices
  simp only [Bool.and_assoc]
  rw [filter_of_own h.services]

/-- The items of own orders are the same. -/
theorem orderItems_eq (h : Agree u s t) {rows : List ProductOrder}
    (hs : ∀ po ∈ rows, po ∈ s.orders ∧ po.userId = u) (ht : ∀ po ∈ rows, po ∈ t.orders ∧ po.userId = u) :
    orderItems s rows = orderItems t rows := by
  have hitems : (s.items.filter fun r => decide (r.orderId ∈ rows.map (·.id))) =
      t.items.filter fun r => decide (r.orderId ∈ rows.map (·.id)) := by
    refine filter_of_owned h.items (fun r _ hr => ?_) (fun r _ hr => ?_)
    · obtain ⟨po, hpo, hid⟩ := List.mem_map.mp (of_decide_eq_true hr)
      exact List.any_eq_true.mpr ⟨po, (hs po hpo).1, by simp [hid, (hs po hpo).2]⟩
    · obtain ⟨po, hpo, hid⟩ := List.mem_map.mp (of_decide_eq_true hr)
      exact List.any_eq_true.mpr ⟨po, (ht po hpo).1, by simp [hid, (ht po hpo).2]⟩
  unfold orderItems orderItemRows
  rw [hitems, h.catalog]

theorem listMyOrders_eq (h : Agree user.sub s t) (query : ListOrdersQueryDto) :
    listMyOrders drv s user query = listMyOrders drv t user query := by
  have hlisted := listedOrders_eq h query
  have hitems : orderItems s (page (resolveOffsetPagination query.toOffsetPaginationQuery 20 100)
        (listedOrders t (fun po => po.userId = user.sub) query)) =
      orderItems t (page (resolveOffsetPagination query.toOffsetPaginationQuery 20 100)
        (listedOrders t (fun po => po.userId = user.sub) query)) := by
    refine orderItems_eq h (fun po hpo => ?_) (fun po hpo => ?_)
    · obtain ⟨hmem, hown⟩ := mem_listedOrders (hlisted.symm ▸ mem_of_mem_page hpo)
      exact ⟨hmem, of_decide_eq_true hown⟩
    · obtain ⟨hmem, hown⟩ := mem_listedOrders (mem_of_mem_page hpo)
      exact ⟨hmem, of_decide_eq_true hown⟩
  simp only [listMyOrders, hlisted, hitems]

theorem getOrder_eq (h : Agree u s t) (hi : SameIds s t) (id : Nat) :
    getOrderForUser drv s u id false = getOrderForUser drv t u id false := by
  unfold getOrderForUser
  rcases find_cases s.ordersKeyed t.ordersKeyed h.orders (hi.orders id) with
    ⟨hs, ht⟩ | ⟨po, hs, ht, hown⟩ | ⟨po, po', hs, ht, hown, hown'⟩
  · rw [hs, ht]
  · have hu : po.userId = u := of_decide_eq_true hown
    have hitems : orderItems s [po] = orderItems t [po] := by
      refine orderItems_eq h (fun q hq => ?_) (fun q hq => ?_)
      · rw [List.mem_singleton.mp hq]
        exact ⟨List.mem_of_find?_eq_some hs, hu⟩
      · rw [List.mem_singleton.mp hq]
        exact ⟨List.mem_of_find?_eq_some ht, hu⟩
    rw [hs, ht]
    simp only [hitems, hu, h.account]
  · rw [hs, ht]
    simp only [decide_eq_false_iff_not] at hown hown'
    simp [hown, hown']

/-- The assets of an own fault are the same. -/
theorem attachFaultAssets_eq (h : Agree u s t) {fr : FaultReport} (hs : fr ∈ s.faults) (ht : fr ∈ t.faults)
    (hu : fr.userId = u) (fields : Fields) : attachFaultAssets s fr fields = attachFaultAssets t fr fields := by
  have hassets : (s.faultAssets.filter fun fa => decide (fa.faultId = fr.id)) =
      t.faultAssets.filter fun fa => decide (fa.faultId = fr.id) := by
    refine filter_of_owned h.faultAssets (fun fa _ hfa => ?_) (fun fa _ hfa => ?_)
    · exact List.any_eq_true.mpr ⟨fr, hs, by simp [of_decide_eq_true hfa, hu]⟩
    · exact List.any_eq_true.mpr ⟨fr, ht, by simp [of_decide_eq_true hfa, hu]⟩
  unfold attachFaultAssets
  rw [hassets]

theorem faultFields_eq (h : Agree u s t) (userId : Nat) (fr : FaultReport) :
    faultFields drv s userId fr = faultFields drv t userId fr := by
  unfold faultFields
  rw [h.reviews]

theorem listMyFaults_eq (h : Agree user.sub s t) (query : ListMyFaultsQueryDto) :
    listMyFaults drv s user query = listMyFaults drv t user query := by
  have hlisted : (s.faults.filter fun fr => decide (fr.userId = user.sub) && columnIs query.status fr.status &&
        columnIs query.severity fr.severity && createdWithin query.fromDate query.toDate fr.createdAt) =
      t.faults.filter fun fr => decide (fr.userId = user.sub) && columnIs query.status fr.status &&
        columnIs query.severity fr.severity && createdWithin query.fromDate query.toDate fr.createdAt := by
    simp only [Bool.and_assoc]
    exact filter_of_own h.faults
  simp only [listMyFaults]
  refine congrArg (fun items => Payload.obj [("items", .arr items)]) ?_
  rw [hlisted]
  refine List.map_congr_left fun fr hfr => ?_
  have hmem := mem_sortFaults.mp (mem_of_mem_page hfr)
  have ht := List.mem_filter.mp hmem
  have hs := List.mem_filter.mp (hlisted.symm ▸ hmem)
  have hu : fr.userId = user.sub := by
    simp only [Bool.and_eq_true] at ht
    exact of_decide_eq_true ht.2.1.1.1
  rw [faultFields_eq h, attachFaultAssets_eq h hs.1 ht.1 hu]

theorem getFault_eq (h : Agree u s t) (hi : SameIds s t) (id : Nat) :
    getFaultForUser drv s u id false = getFaultForUser drv t u id false := by
  unfold getFaultForUser
  rcases find_cases s.faultsKeyed t.faultsKeyed h.faults (hi.faults id) with
    ⟨hs, ht⟩ | ⟨fr, hs, ht, hown⟩ | ⟨fr, fr', hs, ht, hown, hown'⟩
  · rw [hs, ht]
  · rw [hs, ht]
    simp only [faultFields_eq h, attachFaultAssets_eq h (List.mem_of_find?_eq_some hs)
      (List.mem_of_find?_eq_some ht) (of_decide_eq_true hown)]
  · rw [hs, ht]
    simp only [decide_eq_false_iff_not] at hown hown'
    simp [hown, hown']

theorem getService_eq (h : Agree u s t) (hi : SameIds s t) (id : Nat) :
    getServiceForUser drv s u id false = getServiceForUser drv t u id false := by
  unfold getServiceForUser
  rcases find_cases s.servicesKeyed t.servicesKeyed h.services (hi.services id) with
    ⟨hs, ht⟩ | ⟨so, hs, ht, hown⟩ | ⟨so, so', hs, ht, hown, hown'⟩
  · rw [hs, ht]
  · rw [hs, ht]
  · rw [hs, ht]
    simp only [decide_eq_false_iff_not] at hown hown'
    simp [hown, hown']

/-- The owner of an item is the same or, in both states, another user. -/
theorem resolveOwnership_cases (h : Agree u s t) (hi : SameIds s t) (itemType : ItemType) (itemId : Nat) :
    resolveOwnership s itemType itemId = resolveOwnership t itemType itemId ∨
      ∃ a b, resolveOwnership s itemType itemId = some a ∧ resolveOwnership t itemType itemId = some b ∧
        a ≠ u ∧ b ≠ u := by
  cases itemType with
  | order =>
    rcases find_cases s.ordersKeyed t.ordersKeyed h.orders (hi.orders itemId) with
      ⟨hs, ht⟩ | ⟨po, hs, ht, -⟩ | ⟨po, po', hs, ht, hown, hown'⟩
    · exact Or.inl (by simp only [resolveOwnership, hs, ht])
    · exact Or.inl (by simp only [resolveOwnership, hs, ht])
    · exact Or.inr ⟨po.userId, po'.userId, by simp only [resolveOwnership, hs, Option.map_some],
        by simp only [resolveOwnership, ht, Option.map_some], of_decide_eq_false hown, of_decide_eq_false hown'⟩
  | fault =>
    rcases find_cases s.faultsKeyed t.faultsKeyed h.faults (hi.faults itemId) with
      ⟨hs, ht⟩ | ⟨fr, hs, ht, -⟩ | ⟨fr, fr', hs, ht, hown, hown'⟩
    · exact Or.inl (by simp only [resolveOwnership, hs, ht])
    · exact Or.inl (by simp only [resolveOwnership, hs, ht])
    · exact Or.inr ⟨fr.userId, fr'.userId, by simp only [resolveOwnership, hs, Option.map_some],
        by simp only [resolveOwnership, ht, Option.map_some], of_decide_eq_false hown, of_decide_eq_false hown'⟩
  | service =>
    rcases find_cases s.servicesKeyed t.servicesKeyed h.services (hi.services itemId) with
      ⟨hs, ht⟩ | ⟨so, hs, ht, -⟩ | ⟨so, so', hs, ht, hown, hown'⟩
    · exact Or.inl (by simp only [resolveOwnership, hs, ht])
    · exact Or.inl (by simp only [resolveOwnership, hs, ht])
    · exact Or.inr ⟨so.userId, so'.userId, by simp only [resolveOwnership, hs, Option.map_some],
        by simp only [resolveOwnership, ht, Option.map_some], of_decide_eq_false hown, of_decide_eq_false hown'⟩

theorem assertUserOwnsItem_ok {itemType : ItemType} {itemId : Nat} (hu : user.isAdmin = false)
    (h : assertUserOwnsItem s user itemType itemId = .ok ()) :
    resolveOwnership s itemType itemId = some user.sub := by
  unfold assertUserOwnsItem at h
  cases howner : resolveOwnership s itemType itemId with
  | none => simp [howner] at h
  | some a =>
    simp only [howner, hu, Bool.false_eq_true, if_false] at h
    split at h
    · cases h
    · rename_i ha
      simpa using ha

theorem assertUserOwnsItem_eq (hu : user.isAdmin = false) (h : Agree user.sub s t) (hi : SameIds s t)
    (itemType : ItemType) (itemId : Nat) :
    assertUserOwnsItem s user itemType itemId = assertUserOwnsItem t user itemType itemId := by
  unfold assertUserOwnsItem
  rcases resolveOwnership_cases h hi itemType itemId with heq | ⟨a, b, hs, ht, ha, hb⟩
  · rw [heq]
  · rw [hs, ht]
    simp [hu, ha, hb]

theorem listFollowupSteps_eq (hu : user.isAdmin = false) (h : Agree user.sub s t) (hi : SameIds s t)
    (itemType : ItemType) (itemId : Nat) (query : ListFollowupStepsQueryDto) :
    listFollowupSteps drv s user itemType itemId query = listFollowupSteps drv t user itemType itemId query := by
  have hassert := assertUserOwnsItem_eq hu h hi itemType itemId
  unfold listFollowupSteps
  rw [hassert]
  cases howned : assertUserOwnsItem t user itemType itemId with
  | error e => rfl
  | ok _ =>
    have hs := assertUserOwnsItem_ok hu (hassert.trans howned)
    have ht := assertUserOwnsItem_ok hu howned
    have hsteps : (s.steps.filter fun step => decide (step.itemType = itemType ∧ step.itemId = itemId)) =
        t.steps.filter fun step => decide (step.itemType = itemType ∧ step.itemId = itemId) := by
      refine filter_of_owned h.steps (fun step _ hstep => ?_) (fun step _ hstep => ?_)
      · obtain ⟨rfl, rfl⟩ := of_decide_eq_true hstep
        exact decide_eq_true hs
      · obtain ⟨rfl, rfl⟩ := of_decide_eq_true hstep
        exact decide_eq_true ht
    rw [hsteps]

theorem listFollowupMessages_eq (h : Agree user.sub s t) (hi : SameIds s t) (id : Nat) (itemType : ItemType)
    (itemId : Nat) :
    listFollowupMessages drv s user id itemType itemId = listFollowupMessages drv t user id itemType itemId := by
  unfold listFollowupMessages assertFollowupConversationAccess
  rcases find_cases s.conversationsKeyed t.conversationsKeyed h.conversations (hi.conversations id) with
    ⟨hs, ht⟩ | ⟨fc, hs, ht, hown⟩ | ⟨fc, fc', hs, ht, hown, hown'⟩
  · rw [hs, ht]
    rfl
  · have hscope : assertFollowupConversationItemScope s id itemType itemId =
        assertFollowupConversationItemScope t id itemType itemId := by
      unfold assertFollowupConversationItemScope
      rw [any_of_find s.conversationsKeyed hs, any_of_find t.conversationsKeyed ht]
    have hmessages : (s.messages.filter fun fm => decide (fm.conversationId = id)) =
        t.messages.filter fun fm => decide (fm.conversationId = id) := by
      have hid : fc.id = id := by
        have hp := List.find?_some hs
        simpa using hp
      refine filter_of_owned h.messages (fun fm _ hfm => ?_) (fun fm _ hfm => ?_)
      · exact List.any_eq_true.mpr
          ⟨fc, List.mem_of_find?_eq_some hs, by simp [of_decide_eq_true hfm, hid, hown]⟩
      · exact List.any_eq_true.mpr
          ⟨fc, List.mem_of_find?_eq_some ht, by simp [of_decide_eq_true hfm, hid, hown]⟩
    rw [hs, ht, hscope, hmessages]
  · rw [hs, ht]
    simp only [ownConversation, Bool.or_eq_false_iff, decide_eq_false_iff_not] at hown hown'
    simp [hown, hown']
    rfl

end Serve

/-! ## The ids in the responses -/

theorem toPositiveInt_natCast {n id : Nat} (h : toPositiveInt (.num n) = some id) : id = n := by
  unfold toPositiveInt at h
  simp only at h
  split at h
  · simpa using (Option.some.inj h).symm
  · cases h

theorem mem_ids_of_reference {entity : EntityType} {value : Payload} {x : EntityType × Nat}
    (h : x ∈ ((toPositiveInt value).map (entity, ·)).toList) : x.1 = entity ∧ toPositiveInt value = some x.2 := by
  cases hid : toPositiveInt value with
  | none => simp [hid] at h
  | some id =>
    simp only [hid, Option.map_some, Option.toList_some, List.mem_singleton] at h
    simp [h]

theorem mem_collectIds_item {row : OrderItemRow} {x : EntityType × Nat}
    (h : x ∈ collectIds (orderItemPayload row)) : x = (.product, row.item.productId) := by
  have hcollect : collectIds (orderItemPayload row) =
      ((toPositiveInt (.num row.item.productId)).map (EntityType.product, ·)).toList ++ [] ++ [] := by
    obtain ⟨item, title, isActive⟩ := row
    cases title <;> cases isActive <;> rfl
  rw [hcollect, List.append_nil, List.append_nil] at h
  obtain ⟨hentity, hid⟩ := mem_ids_of_reference h
  exact Prod.ext hentity (toPositiveInt_natCast hid)

theorem mem_collectIds_items {rows : List OrderItemRow} {orderId : Nat} {x : EntityType × Nat}
    (h : x ∈ collectItems (itemsByOrderId rows orderId)) :
    ∃ r ∈ rows, r.item.orderId = orderId ∧ x = (.product, r.item.productId) := by
  rw [itemsByOrderId_eq] at h
  obtain ⟨item, hitem, hx⟩ := mem_collectItems.mp h
  obtain ⟨r, hr, rfl⟩ := List.mem_map.mp hitem
  obtain ⟨hmem, hid⟩ := List.mem_filter.mp hr
  exact ⟨r, hmem, of_decide_eq_true hid, mem_collectIds_item hx⟩

/-- The ids of an order: its user, and the products of its items. -/
theorem mem_collectIds_order {rows : List OrderItemRow} {po : ProductOrder} {x : EntityType × Nat}
    (h : x ∈ collectIds (orderPayload rows false (orderRecord drv po))) :
    x.1 = .user ∨ x ∈ collectItems (itemsByOrderId rows po.id) := by
  have hcollect : collectIds (orderPayload rows false (orderRecord drv po)) =
    ((toPositiveInt (drv.bigint po.userId)).map (EntityType.user, ·)).toList ++ [] ++
      (collectItems (itemsByOrderId rows po.id) ++ []) := rfl
  rw [hcollect, List.append_nil, List.append_nil] at h
  exact (List.mem_append.mp h).imp (fun hx => (mem_ids_of_reference hx).1) id

theorem mem_collectIds_orderRow {rows : List OrderItemRow} {row : OrderRow} {x : EntityType × Nat}
    (h : x ∈ collectIds (orderPayload rows true (orderRowRecord drv row))) :
    x.1 = .user ∨ x ∈ collectItems (itemsByOrderId rows row.order.id) := by
  have hcollect : collectIds (orderPayload rows true (orderRowRecord drv row)) =
      ((toPositiveInt (drv.bigint row.order.userId)).map (EntityType.user, ·)).toList ++ [] ++
        (collectItems (itemsByOrderId rows row.order.id) ++ []) := by
    obtain ⟨po, _ | ⟨name, email, _ | phone⟩⟩ := row <;> rfl
  rw [hcollect, List.append_nil, List.append_nil] at h
  exact (List.mem_append.mp h).imp (fun hx => (mem_ids_of_reference hx).1) id

theorem mem_orderItems {rows : List ProductOrder} {r : OrderItemRow} (h : r ∈ orderItems s rows) :
    r.item ∈ s.items ∧ ∃ po ∈ rows, po.id = r.item.orderId := by
  obtain ⟨item, hitem, rfl⟩ := List.mem_map.mp h
  obtain ⟨hmem, hid⟩ := List.mem_filter.mp ((List.mem_insertionSort _).mp hitem)
  exact ⟨hmem, List.mem_map.mp (of_decide_eq_true hid)⟩

/-- The product ids of own orders refer to the same records. -/
theorem sameRef_items (hr : SameRecords rd u s t) {rows : List ProductOrder} {orderId : Nat}
    (hown : ∀ po ∈ rows, po ∈ s.orders ∧ po.userId = u) {x : EntityType × Nat}
    (hx : x ∈ collectItems (itemsByOrderId (orderItems s rows) orderId)) :
    SameRef rd s.directory t.directory x := by
  obtain ⟨r, hrow, -, rfl⟩ := mem_collectIds_items hx
  obtain ⟨hitem, po, hpo, hid⟩ := mem_orderItems hrow
  have hmine : ownOrder s u r.item.orderId :=
    List.any_eq_true.mpr ⟨po, (hown po hpo).1, by simp [hid, (hown po hpo).2]⟩
  exact ⟨by simp, hr.products r.item hitem hmine⟩

theorem sameRef_of_user (h : Agree u s t) {x : EntityType × Nat} (hx : x.1 = .user) :
    SameRef rd s.directory t.directory x := by
  obtain ⟨entity, id⟩ := x
  cases hx
  exact sameRef_user h.profiles

theorem mem_collectIds_fault {userId : Nat} {fr : FaultReport} {x : EntityType × Nat}
    (h : x ∈ collectIds (attachFaultAssets s fr (faultFields drv s userId fr))) :
    x.1 = .user ∨ ∃ fa ∈ s.faultAssets, fa.faultId = fr.id ∧ x = (.file, fa.fileId) := by
  have hcollect : collectIds (attachFaultAssets s fr (faultFields drv s userId fr)) =
      ((toPositiveInt (drv.bigint fr.userId)).map (EntityType.user, ·)).toList ++ [] ++
        (collectItems ((s.faultAssets.filter fun fa => fa.faultId = fr.id).map faultAssetPayload) ++ []) := by
    obtain ⟨id, userId, title, description, severity, address, status, _ | cancelledAt, createdAt, updatedAt⟩ := fr <;>
      rfl
  rw [hcollect, List.append_nil, List.append_nil] at h
  refine (List.mem_append.mp h).imp (fun hx => (mem_ids_of_reference hx).1) fun hx => ?_
  obtain ⟨image, himage, hx⟩ := mem_collectItems.mp hx
  obtain ⟨fa, hfa, rfl⟩ := List.mem_map.mp himage
  obtain ⟨hmem, hid⟩ := List.mem_filter.mp hfa
  have hasset : collectIds (faultAssetPayload fa) =
      ((toPositiveInt (.num fa.fileId)).map (EntityType.file, ·)).toList ++ [] ++ [] := by
    obtain ⟨faultId, fileId, sortOrder, _ | objectKey, _ | originalFilename, _ | mimeType, _ | status⟩ := fa <;> rfl
  rw [hasset, List.append_nil, List.append_nil] at hx
  obtain ⟨hentity, hfile⟩ := mem_ids_of_reference hx
  exact ⟨fa, hmem, of_decide_eq_true hid, Prod.ext hentity (toPositiveInt_natCast hfile)⟩

theorem mem_collectIds_service {so : ServiceOrder} {x : EntityType × Nat}
    (h : x ∈ collectIds (.obj (serviceFields drv so))) : x.1 = .user := by
  have hcollect : collectIds (.obj (serviceFields drv so)) =
      ((toPositiveInt (drv.bigint so.userId)).map (EntityType.user, ·)).toList ++ [] ++ [] := by
    obtain ⟨id, userId, serviceType, description, address, status, _ | cancelledAt, createdAt, updatedAt⟩ := so <;> rfl
  rw [hcollect, List.append_nil, List.append_nil] at h
  exact (mem_ids_of_reference h).1

theorem collectIds_step (step : FollowupStep) : collectIds (.obj (stepFields drv step)) = [] := by
  obtain ⟨id, itemType, itemId, title, _ | file, sortOrder, createdBy, createdAt, updatedAt⟩ := step <;> rfl

theorem mem_collectIds_message {fm : FollowupMessage} {x : EntityType × Nat}
    (h : x ∈ collectIds (.obj (messageFields drv fm))) :
    x.1 = .user ∨ (x.1 = .conversation ∧ toPositiveInt (drv.bigint fm.conversationId) = some x.2) := by
  have hcollect : collectIds (.obj (messageFields drv fm)) =
    ((toPositiveInt (drv.bigint fm.conversationId)).map (EntityType.conversation, ·)).toList ++ [] ++
      (((toPositiveInt (drv.bigint fm.senderId)).map (EntityType.user, ·)).toList ++ [] ++ []) := rfl
  rw [hcollect, List.append_nil, List.append_nil, List.append_nil] at h
  rcases List.mem_append.mp h with hx | hx
  · exact Or.inr (mem_ids_of_reference hx)
  · exact Or.inl (mem_ids_of_reference hx).1

/-- The ids in a page of rows and its total. -/
theorem collectIds_page (items : List Payload) (total : ℚ) :
    collectIds (.obj [("items", .arr items), ("total", .num total)]) = collectItems items ++ [] := rfl

section Responses
variable (hu : user.isAdmin = false) (h : Agree user.sub s t) (hr : SameRecords rd user.sub s t)
include h hr

theorem sameRef_orders (query : ListOrdersQueryDto) {x : EntityType × Nat}
    (hx : x ∈ collectIds (listMyOrders rd.toDriver s user query)) : SameRef rd s.directory t.directory x := by
  obtain ⟨rows, hrows⟩ : ∃ rows, rows = page (resolveOffsetPagination query.toOffsetPaginationQuery 20 100)
    (listedOrders s (fun po => po.userId = user.sub) query) := ⟨_, rfl⟩
  have hown : ∀ po ∈ rows, po ∈ s.orders ∧ po.userId = user.sub := by
    intro po hpo
    obtain ⟨hmem, howner⟩ := mem_listedOrders (mem_of_mem_page (hrows ▸ hpo))
    exact ⟨hmem, of_decide_eq_true howner⟩
  unfold listMyOrders at hx
  simp only [← hrows] at hx
  rw [collectIds_single rfl] at hx
  obtain ⟨order, horder, hx⟩ := mem_collectItems.mp hx
  obtain ⟨record, hrecord, rfl⟩ := List.mem_map.mp horder
  obtain ⟨po, hpo, rfl⟩ := List.mem_map.mp hrecord
  rcases mem_collectIds_order hx with huser | hitem
  · exact sameRef_of_user h huser
  · exact sameRef_items hr hown hitem

theorem sameRef_order {id : Nat} (hp : getOrderForUser rd.toDriver s user.sub id false = .ok p)
    {x : EntityType × Nat} (hx : x ∈ collectIds p) : SameRef rd s.directory t.directory x := by
  unfold getOrderForUser at hp
  split at hp
  · cases hp
  · rename_i po hfind
    split at hp
    · cases hp
    · rename_i howner
      have hown : ∀ q ∈ [po], q ∈ s.orders ∧ q.userId = user.sub := by
        intro q hq
        rw [List.mem_singleton.mp hq]
        exact ⟨List.mem_of_find?_eq_some hfind, by simpa using howner⟩
      injection hp with hp
      subst hp
      rw [collectIds_single rfl] at hx
      rcases mem_collectIds_orderRow hx with huser | hitem
      · exact sameRef_of_user h huser
      · exact sameRef_items hr hown hitem

/-- The ids of an own fault refer to the same records. -/
theorem sameRef_fault {fr : FaultReport} (hfr : fr ∈ s.faults) (hown : fr.userId = user.sub) {x : EntityType × Nat}
    (hx : x ∈ collectIds (attachFaultAssets s fr (faultFields rd.toDriver s user.sub fr))) :
    SameRef rd s.directory t.directory x := by
  rcases mem_collectIds_fault hx with huser | ⟨fa, hfa, hid, rfl⟩
  · exact sameRef_of_user h huser
  · have hmine : ownFault s user.sub fa.faultId := List.any_eq_true.mpr ⟨fr, hfr, by simp [hid, hown]⟩
    exact ⟨by simp, hr.files fa hfa hmine⟩

theorem sameRef_faults (query : ListMyFaultsQueryDto) {x : EntityType × Nat}
    (hx : x ∈ collectIds (listMyFaults rd.toDriver s user query)) : SameRef rd s.directory t.directory x := by
  unfold listMyFaults at hx
  rw [collectIds_single rfl] at hx
  obtain ⟨fault, hfault, hx⟩ := mem_collectItems.mp hx
  obtain ⟨fr, hfr, rfl⟩ := List.mem_map.mp hfault
  obtain ⟨hmem, hq⟩ := List.mem_filter.mp (mem_sortFaults.mp (mem_of_mem_page hfr))
  simp only [Bool.and_eq_true] at hq
  exact sameRef_fault h hr hmem (of_decide_eq_true hq.1.1.1) hx

theorem sameRef_getFault {id : Nat} (hp : getFaultForUser rd.toDriver s user.sub id false = .ok p)
    {x : EntityType × Nat} (hx : x ∈ collectIds p) : SameRef rd s.directory t.directory x := by
  unfold getFaultForUser at hp
  split at hp
  · cases hp
  · rename_i fr hfind
    split at hp
    · cases hp
    · rename_i howner
      injection hp with hp
      subst hp
      rw [collectIds_single rfl] at hx
      exact sameRef_fault h hr (List.mem_of_find?_eq_some hfind) (by simpa using howner) hx

omit hr in
theorem sameRef_services (query : ListServicesQueryDto) {x : EntityType × Nat}
    (hx : x ∈ collectIds (listMyServices rd.toDriver s user query)) : SameRef rd s.directory t.directory x := by
  unfold listMyServices servicesPage at hx
  rw [collectIds_page, List.append_nil] at hx
  obtain ⟨service, hservice, hx⟩ := mem_collectItems.mp hx
  obtain ⟨so, -, rfl⟩ := List.mem_map.mp hservice
  exact sameRef_of_user h (mem_collectIds_service hx)

omit hr in
theorem sameRef_service {id : Nat} (hp : getServiceForUser rd.toDriver s user.sub id false = .ok p)
    {x : EntityType × Nat} (hx : x ∈ collectIds p) : SameRef rd s.directory t.directory x := by
  unfold getServiceForUser at hp
  split at hp
  · cases hp
  · split at hp
    · cases hp
    · injection hp with hp
      subst hp
      rw [collectIds_single rfl] at hx
      exact sameRef_of_user h (mem_collectIds_service hx)

omit h hr in
theorem collectIds_steps {itemType : ItemType} {itemId : Nat} {query : ListFollowupStepsQueryDto}
    (hp : listFollowupSteps drv s user itemType itemId query = .ok p) : collectIds p = [] := by
  unfold listFollowupSteps at hp
  cases howned : assertUserOwnsItem s user itemType itemId with
  | error e => rw [howned] at hp; cases hp
  | ok _ =>
    rw [howned] at hp
    injection hp with hp
    subst hp
    rw [collectIds_page, List.append_nil, List.eq_nil_iff_forall_not_mem]
    intro x hx
    obtain ⟨row, hrow, hx⟩ := mem_collectItems.mp hx
    obtain ⟨step, -, rfl⟩ := List.mem_map.mp hrow
    rw [collectIds_step] at hx
    cases hx

theorem sameRef_messages {id : Nat} {itemType : ItemType} {itemId : Nat}
    (hp : listFollowupMessages rd.toDriver s user id itemType itemId = .ok p) {x : EntityType × Nat}
    (hx : x ∈ collectIds p) : SameRef rd s.directory t.directory x := by
  unfold listFollowupMessages assertFollowupConversationAccess at hp
  cases hfind : s.conversations.find? fun fc => fc.id = id with
  | none => rw [hfind] at hp; cases hp
  | some fc =>
    by_cases hown : fc.userId ≠ user.sub ∧ fc.adminId ≠ user.sub
    · simp only [hfind, if_pos hown] at hp
      cases hp
    · simp only [hfind, if_neg hown] at hp
      cases hscope : assertFollowupConversationItemScope s id itemType itemId with
      | error e => rw [hscope] at hp; cases hp
      | ok _ =>
        rw [hscope] at hp
        injection hp with hp
        subst hp
        rw [collectIds_single rfl] at hx
        obtain ⟨row, hrow, hx⟩ := mem_collectItems.mp hx
        obtain ⟨fm, hfm, rfl⟩ := List.mem_map.mp hrow
        have hconv := of_decide_eq_true (List.mem_filter.mp ((List.mem_insertionSort _).mp hfm)).2
        have hid : fc.id = id := by
          have hp := List.find?_some hfind
          simpa using hp
        obtain ⟨entity, i⟩ := x
        rcases mem_collectIds_message hx with huser | ⟨rfl, hvalue⟩
        · exact sameRef_of_user h huser
        · have hmine : ownConversation user.sub fc := by
            simp only [ownConversation, Bool.or_eq_true, decide_eq_true_eq]
            by_contra hnot
            exact hown (not_or.mp hnot)
          rw [hconv, ← hid] at hvalue
          exact ⟨by simp, hr.conversations fc (List.mem_of_find?_eq_some hfind) hmine i hvalue⟩

include hu

/-- What a user reads on any route but `GET /services` is the same in two states that agree
on what belongs to the user, on the ids in use and on the records that ids refer to. -/
theorem owner_isolation (hi : SameIds s t) (request : ReadRequest)
    (hpublic : ∀ query, request ≠ .listServices query) : respond rd s user request = respond rd t user request := by
  have hserve : serve rd.toDriver s user request = serve rd.toDriver t user request := by
    cases request with
    | listMyOrders query => exact congrArg _ (listMyOrders_eq h query)
    | getOrder id => exact getOrder_eq h hi id
    | listMyFaults query => exact congrArg _ (listMyFaults_eq h query)
    | getFault id => exact getFault_eq h hi id
    | listServices query => exact absurd rfl (hpublic query)
    | listMyServices query =>
      simp only [serve, listMyServices, listedServices_eq h query]
    | getService id => exact getService_eq h hi id
    | listFollowupSteps itemType itemId query => exact listFollowupSteps_eq hu h hi itemType itemId query
    | listMessages itemType itemId id => exact listFollowupMessages_eq h hi id itemType itemId
  unfold respond
  rw [← hserve]
  cases hp : serve rd.toDriver s user request with
  | error e => rfl
  | ok p =>
    refine congrArg Except.ok (expand_congr fun x hx => ?_)
    cases request with
    | listMyOrders query => cases hp; exact sameRef_orders h hr query hx
    | getOrder id => exact sameRef_order h hr hp hx
    | listMyFaults query => cases hp; exact sameRef_faults h hr query hx
    | getFault id => exact sameRef_getFault h hr hp hx
    | listServices query => exact absurd rfl (hpublic query)
    | listMyServices query => cases hp; exact sameRef_services h query hx
    | getService id => exact sameRef_service h hp hx
    | listFollowupSteps itemType itemId query =>
      rw [collectIds_steps hp] at hx
      cases hx
    | listMessages itemType itemId id => exact sameRef_messages h hr hp hx

end Responses

/-- The lamp store with an order of another user, for an address. -/
def withStranger (address : String) : Store :=
  { lampStore with
    orders := lampStore.orders ++ [{ id := 2, userId := 8, deliveryAddress := address, createdAt := 0, updatedAt := 0 }]
    ordersKeyed := by simp [lampStore] }

theorem strangers_agree (a b : String) : Agree 7 (withStranger a) (withStranger b) := by
  constructor <;> rfl

theorem owner_isolation_stranger :
    respond plainReader (withStranger "3 Sea St") mona (.getOrder 2) =
      respond plainReader (withStranger "5 Hill St") mona (.getOrder 2) := by
  have hids : SameIds (withStranger "3 Sea St") (withStranger "5 Hill St") := by
    constructor <;> simp [withStranger, lampStore]
  have hrecords : SameRecords plainReader 7 (withStranger "3 Sea St") (withStranger "5 Hill St") :=
    ⟨fun _ _ _ => rfl, fun _ _ _ => rfl, fun _ _ _ _ _ => rfl⟩
  exact owner_isolation rfl (strangers_agree _ _) hrecords hids (.getOrder 2) (by simp)

/-- The lamp store with a service order of another user. -/
def withRenovation : Store :=
  { lampStore with
    services := [{ id := 1, userId := 8, serviceType := .renewal, description := "Paint the hall", address := "3 Sea St",
                   createdAt := 0, updatedAt := 0 }]
    servicesKeyed := by decide }

/-- The lamp store without the chat conversation that has the id of Mona's follow-up. -/
def withoutChat : Store := { lampStore with directory := { lampStore.directory with conversations := [] } }

/-- How many services a response counts, and what conversations its rows show. -/
def reading (response : Except Failure (Option Payload)) : Option (Option Payload × List (Option Payload)) :=
  match response with
  | .ok (some p) => some (field "total" p, p.rows.map (field "conversation"))
  | _ => none

/-- States that agree on what belongs to Mona can be told apart: by the public list of
services, by the order ids of others, and by the chat with the id of her follow-up. -/
theorem strangers_can_be_told :
    (Agree 7 lampStore withRenovation ∧
      respond plainReader lampStore mona (.listServices {}) ≠
        respond plainReader withRenovation mona (.listServices {})) ∧
    (Agree 7 lampStore (withStranger "3 Sea St") ∧
      respond plainReader lampStore mona (.getOrder 2) = .error (.notFound "Order not found") ∧
      respond plainReader (withStranger "3 Sea St") mona (.getOrder 2) = .error (.forbidden "Not allowed")) ∧
    (Agree 7 lampStore withoutChat ∧
      respond plainReader lampStore mona (.listMessages .order 1 4) ≠
        respond plainReader withoutChat mona (.listMessages .order 1 4)) := by
  refine ⟨⟨by constructor <;> rfl, fun h => ?_⟩, ⟨by constructor <;> rfl, rfl, rfl⟩,
    ⟨by constructor <;> rfl, fun h => ?_⟩⟩
  · have hnone : reading (respond plainReader lampStore mona (.listServices {})) = some (some (.num 0), []) := rfl
    have hone : reading (respond plainReader withRenovation mona (.listServices {})) =
      some (some (.num 1), [none]) := rfl
    rw [h, hone] at hnone
    simp at hnone
  · have hchat : reading (respond plainReader lampStore mona (.listMessages .order 1 4)) =
      some (none, [some (conversationPayload plainReader ⟨4, "2024-03-02 08:00:00+00"⟩)]) := rfl
    have hnone : reading (respond plainReader withoutChat mona (.listMessages .order 1 4)) =
      some (none, [some .null]) := rfl
    rw [h, hnone] at hchat
    simp [conversationPayload] at hchat

end Kayan.Reads
