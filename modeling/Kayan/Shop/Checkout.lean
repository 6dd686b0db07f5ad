import Kayan.Shop.Orders

/-!
# Buying the cart that is shown

`listCart` leaves out the rows whose products have been deleted, and `checkoutCart` does not.
What is bought is what is shown exactly when no row is left out.
-/
namespace Kayan.Shop
open RowStore Interleave

section Rows
variable {d : Db} {u : Nat} {r : CartItem}

/-- The cart of a user, in the order in which a checkout locks its rows. -/
def cartOf (d : Db) (userId : Nat) : List CartItem :=
  (d.cart.committedRows.filter fun r => r.userId = userId).insertionSort fun a b => a.before b

theorem mem_cartOf (hid : ∀ i r, d.cart.committed i = some r → r.id = i) :
    r ∈ cartOf d u ↔ d.cart.committed r.id = some r ∧ r.userId = u := by
  rw [cartOf, List.mem_insertionSort, List.mem_filter, Table.mem_committedRows, decide_eq_true_eq]
  refine and_congr_left fun _ => ⟨fun ⟨i, hi⟩ => ?_, fun h => ⟨r.id, h⟩⟩
  rw [hid i r hi]
  exact hi

theorem cartOf_nodup (hid : ∀ i r, d.cart.committed i = some r → r.id = i) :
    ((cartOf d u).map (·.id)).Nodup := by
  have hrows : (d.cart.committedRows.map (·.id)).Nodup := Table.nodup_of_keys hid d.cart.next
  refine ((List.perm_insertionSort _ _).map _).nodup_iff.mpr ?_
  exact (List.filter_sublist.map _).nodup hrows

theorem Still.cartId (h : Still d) : ∀ i r, d.cart.committed i = some r → r.id = i :=
  fun i r hr => (h.cartRow i r hr).1

/-- A cart has each product in one row. -/
theorem Still.cart_products (h : Still d) : ((cartOf d u).map (·.productId)).Nodup := by
  refine (List.Nodup.of_map (·.id) (cartOf_nodup h.cartId)).map_on fun r hr r' hr' hp => ?_
  obtain ⟨hi, hu⟩ := (mem_cartOf h.cartId).mp hr
  obtain ⟨hj, hu'⟩ := (mem_cartOf h.cartId).mp hr'
  have hid := h.cartOnce r.id r'.id r r' hi hj (hu.trans hu'.symm) hp
  rw [hid, hj] at hi
  exact (Option.some.inj hi).symm

theorem lineQuantity_of_nodup {lines : List OrderLine} (h : (lines.map (·.productId)).Nodup) {l : OrderLine}
    (hl : l ∈ lines) : lineQuantity l.productId lines = l.quantity := by
  induction lines with
  | nil => cases hl
  | cons m lines ih =>
    rw [List.map_cons, List.nodup_cons] at h
    have hsplit : lineQuantity l.productId (m :: lines) =
        lineQuantity l.productId [m] + lineQuantity l.productId lines :=
      @lineQuantity_append _ [m] lines
    rcases List.mem_cons.mp hl with rfl | hl
    · have hzero : lineQuantity l.productId lines = 0 :=
        lineQuantity_eq_zero fun k hk he => h.1 (he ▸ List.mem_map_of_mem hk)
      rw [hsplit, hzero, lineQuantity_singleton, if_pos rfl, Int.add_zero]
    · have hne : m.productId ≠ l.productId := fun he => h.1 (he ▸ List.mem_map_of_mem hl)
      rw [hsplit, ih h.2 hl, lineQuantity_singleton, if_neg hne, Int.zero_add]

/-- The lines of a cart fit when each row does. -/
theorem Still.fits_cart (h : Still d) : Fits d ((cartOf d u).map CartItem.line) ↔
    ∀ r ∈ cartOf d u, ∃ row, d.catalog.committed r.productId = some row ∧ row.deleted = false ∧
      row.isActive = true ∧ r.quantity ≤ row.amount := by
  have hproducts : (((cartOf d u).map CartItem.line).map (·.productId)).Nodup := by
    rw [List.map_map]
    exact h.cart_products
  have hone : ∀ r ∈ cartOf d u, lineQuantity r.productId ((cartOf d u).map CartItem.line) = r.quantity :=
    fun r hr => lineQuantity_of_nodup hproducts (List.mem_map_of_mem hr)
  constructor
  · intro hf r hr
    obtain ⟨row, hrow, hdel, hact, hle⟩ := hf r.line (List.mem_map_of_mem hr)
    exact ⟨row, hrow, hdel, hact, (hone r hr) ▸ hle⟩
  · intro hall l hl
    obtain ⟨r, hr, rfl⟩ := List.mem_map.mp hl
    obtain ⟨row, hrow, hdel, hact, hle⟩ := hall r hr
    exact ⟨row, hrow, hdel, hact, (hone r hr).le.trans hle⟩

end Rows

section Alone
variable {c : Client} {d₀ d d' : Db} {u : Nat} {clock : Clock} {drv : Driver}

/-- What `listCart` reads. -/
def shownRows (d : Db) (userId : Nat) : List CartRow :=
  ((d.cart.committedRows.filter fun r => r.userId = userId).insertionSort fun a b => b.before a).filterMap fun r =>
    match d.catalog.committed r.productId with
    | some row => if row.deleted then none else some ⟨r, row⟩
    | none => none

theorem mem_shownRows {row : CartRow} (h : row ∈ shownRows d u) :
    row.item ∈ cartOf d u ∧ d.catalog.committed row.item.productId = some row.product ∧
      row.product.deleted = false := by
  obtain ⟨r, hr, hrow⟩ := List.mem_filterMap.mp h
  rw [List.mem_insertionSort] at hr
  rcases hp : d.catalog.committed r.productId with _ | product
  · simp [hp] at hrow
  · by_cases hdel : product.deleted = true
    · simp [hp, hdel] at hrow
    · simp only [hp] at hrow
      rw [if_neg hdel] at hrow
      cases hrow
      exact ⟨(List.mem_insertionSort _).mpr hr, hp, by simpa using hdel⟩

/-- A row whose product is there is shown. -/
theorem shownRows_of_mem {r : CartItem} {row : CatalogProduct} (hr : r ∈ cartOf d u)
    (hrow : d.catalog.committed r.productId = some row) (hdel : row.deleted = false) :
    ⟨r, row⟩ ∈ shownRows d u := by
  rw [cartOf, List.mem_insertionSort] at hr
  refine List.mem_filterMap.mpr ⟨r, (List.mem_insertionSort _).mpr hr, ?_⟩
  simp [hrow, hdel]

/-- When no row is left out, the rows shown are those of the cart. -/
theorem shownRows_perm (h : ∀ r ∈ cartOf d u, ∃ row, d.catalog.committed r.productId = some row ∧ row.deleted = false) :
    ((shownRows d u).map (·.item)).Perm (cartOf d u) := by
  have hmap : (shownRows d u).map (·.item) =
      (d.cart.committedRows.filter fun r => r.userId = u).insertionSort fun a b => b.before a := by
    rw [shownRows, List.map_filterMap]
    conv_rhs => rw [← List.filterMap_some (l := List.insertionSort _ _)]
    refine List.filterMap_congr fun r hr => ?_
    obtain ⟨row, hrow, hdel⟩ := h r ((List.mem_insertionSort _).mpr ((List.mem_insertionSort _).mp hr))
    simp [hrow, hdel]
  rw [hmap]
  exact (List.perm_insertionSort _ _).trans (List.perm_insertionSort _ _).symm

variable (c u clock drv d) in
/-- `listCart` run alone. -/
theorem listCart_alone : ∃ assets, alone clock c (listCart drv u) d =
    some (.ok (.obj [("items", .arr ((shownRows d u).map (cartItemPayload drv assets)))]), d) := by
  have hsel : exec (clock (.selectCart u) d) c (.selectCart u) d = some (.ok (shownRows d u), d) := rfl
  by_cases hempty : (shownRows d u).isEmpty = true
  · refine ⟨[], (query_alone hsel).trans ?_⟩
    rw [List.isEmpty_iff.mp hempty]
    rfl
  · refine ⟨d.assets.filter fun a => a.productId ∈ (shownRows d u).map fun row => row.item.productId,
      (query_alone hsel).trans ?_⟩
    conv_lhs => simp only [hempty]
    exact (query_alone (q := .selectProductAssets _) rfl).trans rfl

theorem Opened.lockCart {i : Nat} (h : Opened c d₀ d) (hi : i < d.cart.next) :
    Opened c d₀ { d with cart := d.cart.lock c i } :=
  { h with
    sole := { h.sole with cart := h.sole.cart.lock }
    same := { h.same with cart := fun i => Table.committed_lock.trans (h.same.cart i) }
    cart := fun i => (Table.view_lock hi).trans (h.cart i) }

variable (clock) in
/-- The rows of a cart are locked one after the other. -/
theorem lockCartRows_alone {rows : List CartItem} (h : Opened c d₀ d)
    (hrows : ∀ r ∈ rows, d₀.cart.committed r.id = some r ∧ r.userId = u) :
    ∃ d', alone clock c (lockCartRows u (rows.map (·.id))) d = some (.ok rows, d') ∧ Opened c d₀ d' := by
  induction rows generalizing d with
  | nil => exact ⟨d, rfl, h⟩
  | cons r rows ih =>
    obtain ⟨hr, hu⟩ := hrows r List.mem_cons_self
    have hview : d.cart.view c r.id = some r := (h.cart r.id).trans hr
    have hlock : exec (clock (.lockCartRow r.id u) d) c (.lockCartRow r.id u) d =
        some (.ok (some r), { d with cart := d.cart.lock c r.id }) := by
      simp only [exec, h.sole.cart r.id, hview, hu, not_true, if_true, if_false]
    obtain ⟨d', hd', hopen⟩ := ih (h.lockCart (Table.lt_of_view hview)) fun r hr =>
      hrows r (List.mem_cons_of_mem _ hr)
    refine ⟨d', (query_alone hlock).trans ?_, hopen⟩
    exact (bind_alone hd').trans rfl

/-- The table after some rows of the user's cart have been deleted by `c`. -/
structure Deleted (c : Client) (u : Nat) (ids : List Nat) (t t' : Table Client CartItem) : Prop where
  sole : t'.Sole c
  view : ∀ i, t'.view c i = if i ∈ ids then (t.view c i).filter fun r => r.userId ≠ u else t.view c i

variable (clock c u) in
theorem deleteCartRow_alone {i : Nat} (hs : d.cart.Sole c) : ∃ t,
    exec (clock (.deleteCartRow i u) d) c (.deleteCartRow i u) d = some (.ok (), { d with cart := t }) ∧
      Deleted c u [i] d.cart t := by
  have hfree : d.cart.free c i = true := hs i
  rcases hv : d.cart.view c i with _ | r
  · refine ⟨d.cart, by simp [exec, hfree, hv], hs, fun j => ?_⟩
    by_cases hj : j = i
    · subst hj
      simp [hv]
    · simp [hj]
  · by_cases hu : r.userId = u
    · refine ⟨d.cart.write c i none, by simp [exec, hfree, hv, hu], hs.write, fun j => ?_⟩
      rw [Table.view_write (Table.lt_of_view hv)]
      by_cases hj : j = i
      · subst hj
        simp [hv, hu, Option.filter]
      · simp [hj]
    · refine ⟨d.cart, by simp [exec, hfree, hv, hu], hs, fun j => ?_⟩
      by_cases hj : j = i
      · subst hj
        simp [hv, hu, Option.filter]
      · simp [hj]

variable (clock u) in
theorem deleteCartRows_alone {ids : List Nat} (hs : d.cart.Sole c) : ∃ t,
    alone clock c (deleteCartRows u ids) d = some (.ok (), { d with cart := t }) ∧ Deleted c u ids d.cart t := by
  induction ids generalizing d with
  | nil => exact ⟨d.cart, rfl, hs, fun i => by simp⟩
  | cons i ids ih =>
    obtain ⟨t, ht, hdel⟩ := deleteCartRow_alone c u clock (i := i) hs
    obtain ⟨t', ht', hdel'⟩ := ih (d := { d with cart := t }) hdel.sole
    refine ⟨t', (query_alone ht).trans ht', hdel'.sole, fun j => ?_⟩
    rw [hdel'.view, hdel.view]
    by_cases hj : j = i <;> by_cases hmem : j ∈ ids <;> simp [hj, hmem]

theorem mem_cartRows (hid : ∀ i r, d.cart.view c i = some r → r.id = i) {i : Nat} {r : CartItem}
    (hv : d.cart.view c i = some r) (hu : r.userId = u) : i ∈ (cartRows c u d).map (·.id) := by
  refine List.mem_map.mpr ⟨r, List.mem_filter.mpr ⟨Table.mem_rows.mpr ⟨i, hv⟩, ?_⟩, hid i r hv⟩
  exact decide_eq_true hu

variable (clock u) in
/-- Deleting a cart leaves no row of the user. -/
theorem deleteCart_alone (hs : d.cart.Sole c) (hid : ∀ i r, d.cart.view c i = some r → r.id = i) : ∃ t,
    alone clock c (deleteCart u) d = some (.ok (), { d with cart := t }) ∧ t.Sole c ∧
      ∀ i, t.view c i = (d.cart.view c i).filter fun r => r.userId ≠ u := by
  have hsnap : exec (clock (.snapshotDelete u) d) c (.snapshotDelete u) d =
      some (.ok ((cartRows c u d).map (·.id)), d) := rfl
  obtain ⟨t, ht, hdel⟩ := @deleteCartRows_alone c d u clock ((cartRows c u d).map (·.id)) hs
  refine ⟨t, (query_alone hsnap).trans ht, hdel.sole, fun i => ?_⟩
  rw [hdel.view]
  split
  · rfl
  · rename_i hmem
    rcases hv : d.cart.view c i with _ | r
    · rfl
    · have hne : r.userId ≠ u := fun hu => hmem (mem_cartRows hid hv hu)
      simp [Option.filter, hne]

/-- Nothing is shown where no row of the user is left. -/
theorem shownRows_eq_nil (h : ∀ i r, d.cart.committed i = some r → r.userId ≠ u) : shownRows d u = [] := by
  have hnone : (d.cart.committedRows.filter fun r => r.userId = u) = [] := by
    refine List.filter_eq_nil_iff.mpr fun r hr hu => ?_
    obtain ⟨i, hi⟩ := Table.mem_committedRows.mp hr
    exact h i r hi (by simpa using hu)
  rw [shownRows, hnone]
  rfl

end Alone

section Buying
variable {c : Client} {d d' : Db} {u : Nat} {deliveryAddress : String} {clock : Clock} {drv : Driver}

variable (c u clock) in
/-- The rows of a user's cart, locked. -/
theorem selectCartForUpdate_alone (hd : Still d) : ∃ d',
    alone clock c (selectCartForUpdate u) d = some (.ok (cartOf d u), d') ∧ Opened c d d' := by
  have hids : ((cartRows c u d).insertionSort fun a b => a.before b) = cartOf d u := by
    rw [cartRows, hd.unlocked.cart.rows, cartOf]
  have hsnap : exec (clock (.snapshotCart u) d) c (.snapshotCart u) d =
      some (.ok ((cartOf d u).map (·.id)), d) := by
    rw [← hids]
    rfl
  obtain ⟨d', hd', hopen⟩ := @lockCartRows_alone c d d u clock (cartOf d u)
    (hd.unlocked.opened (c := c)) fun r hr => (mem_cartOf hd.cartId).mp hr
  exact ⟨d', (query_alone hsnap).trans hd', hopen⟩

/-- No row of the user's cart is left. -/
def Emptied (u : Nat) (d : Db) : Prop := ∀ i r, d.cart.committed i = some r → r.userId ≠ u

variable (c u deliveryAddress clock drv) in
/-- `checkoutCart` run alone: the whole cart is ordered and gone when it fits, and the call fails otherwise. -/
theorem checkoutCart_alone (hd : Still d) :
    ((cartOf d u ≠ [] ∧ Fits d ((cartOf d u).map CartItem.line)) ∧ ∃ a o d',
      alone clock c (checkoutCart drv u deliveryAddress) d = some (.ok a, d') ∧ o.placedBy u deliveryAddress ∧
      Ordered d o ((cartOf d u).map CartItem.line) d' ∧ Still d' ∧ Emptied u d' ∧
      ((orderItems a).map itemPair).Perm (((cartOf d u).map CartItem.line).map OrderLine.ordered)) ∨
    ¬ (cartOf d u ≠ [] ∧ Fits d ((cartOf d u).map CartItem.line)) ∧ ∃ e d',
      alone clock c (checkoutCart drv u deliveryAddress) d = some (.error e, d') ∧ Same d d' ∧ Unlocked d' := by
  obtain ⟨d₁, hsel, hopen⟩ := selectCartForUpdate_alone c u clock hd
  by_cases hnil : cartOf d u = []
  · rw [hnil] at hsel ⊢
    exact Or.inr ⟨fun h => h.1 rfl, _, _, withTransaction_alone_error ((bind_alone hsel).trans rfl),
      hopen.same.trans same_rollback, hopen.sole.rollback⟩
  · have hpos : ∀ l ∈ (cartOf d u).map CartItem.line, 0 < l.quantity := by
      intro l hl
      obtain ⟨r, hr, rfl⟩ := List.mem_map.mp hl
      exact (hd.cartRow r.id r ((mem_cartOf hd.cartId).mp hr).1).2
    have hrows : checkoutRows drv u deliveryAddress (cartOf d u) = (do
        let order ← createOrderRecord drv u deliveryAddress ((cartOf d u).map CartItem.line)
        deleteCart u
        pure order) := if_neg (by simpa using hnil)
    rcases createOrderRecord_alone u deliveryAddress clock drv hd hopen hpos with
      ⟨hfit, a, o, d₂, hrun, hplaced, hdone, -, hitems⟩ | ⟨hno, e, d₂, he, hs, hsame⟩
    · have hid : ∀ i r, d₂.cart.view c i = some r → r.id = i := fun i r hr =>
        hd.cartId i r ((hdone.cart i).symm.trans hr)
      obtain ⟨t, ht, hsole, hview⟩ := deleteCart_alone u clock hdone.sole.cart hid
      have hcode : alone clock c (do
          let cart ← selectCartForUpdate u
          checkoutRows drv u deliveryAddress cart) d = some (.ok a, { d₂ with cart := t }) := by
        refine (bind_alone hsel).trans ?_
        rw [hrows]
        exact (bind_alone hrun).trans ((bind_alone ht).trans rfl)
      have hord : Ordered d o ((cartOf d u).map CartItem.line) (d₂.commit c) := by
        obtain ⟨rfl, -, -⟩ := hplaced
        exact hdone.ordered
      have hleft : ∀ i r, t.view c i = some r → d.cart.committed i = some r ∧ r.userId ≠ u := by
        intro i r hi
        rw [hview, hdone.cart, Option.filter_eq_some_iff] at hi
        simpa using hi
      refine Or.inl ⟨⟨hnil, hfit⟩, a, o, _, withTransaction_alone hcode, hplaced, ?_, ?_, ?_, hitems⟩
      · exact ⟨hord.catalog, hord.others, hord.fresh, hord.orders, hord.items, hord.history⟩
      · exact hdone.still hd hfit hpos hsole fun i r hi => (hleft i r hi).1
      · exact fun i r hi => (hleft i r (Table.committed_commit_eq_view.symm.trans hi)).2
    · have hcode : alone clock c (do
          let cart ← selectCartForUpdate u
          checkoutRows drv u deliveryAddress cart) d = some (.error e, d₂) := by
        refine (bind_alone hsel).trans ?_
        rw [hrows]
        exact bind_alone_error he
      exact Or.inr ⟨fun h => hno h.2, e, _, withTransaction_alone_error hcode, hsame.trans same_rollback, hs.rollback⟩

/-- An item that `listCart` returns: its product is active, and there is enough of it. -/
def Buyable (x : Payload) : Prop :=
  ∃ product quantity amount, x.field "product" = some product ∧ x.field "quantity" = some (.num quantity) ∧
    product.field "is_active" = some (.bool true) ∧ product.field "amount" = some (.num amount) ∧ quantity ≤ amount

theorem buyable_iff {assets : List ProductAssetRow} {row : CartRow} : Buyable (cartItemPayload drv assets row) ↔
    row.product.isActive = true ∧ row.item.quantity ≤ row.product.amount := by
  constructor
  · rintro ⟨product, quantity, amount, hp, hq, hact, hamount, hle⟩
    cases hp
    cases hq
    cases hamount
    have hactive : some (Payload.bool row.product.isActive) = some (.bool true) := hact
    simp only [Option.some.injEq, Payload.bool.injEq] at hactive
    exact ⟨hactive, by exact_mod_cast hle⟩
  · rintro ⟨hact, hle⟩
    refine ⟨_, _, row.product.amount, rfl, rfl, ?_, rfl, by exact_mod_cast hle⟩
    rw [← hact]
    rfl

/-- A line as `listCart` shows it. -/
def OrderLine.shown (drv : Driver) (l : OrderLine) : Option Payload × Option Payload :=
  (some (drv.bigint l.productId), some (.num l.quantity))

/-- `checkoutCart` succeeds with an order whose items are those shown, and the cart is then shown as empty. -/
def BuysShown (c : Client) (u : Nat) (deliveryAddress : String) (clock : Clock) (drv : Driver) (d : Db)
    (shown : List Payload) : Prop :=
  ∃ a o d' lines, alone clock c (checkoutCart drv u deliveryAddress) d = some (.ok a, d') ∧
    o.placedBy u deliveryAddress ∧ Ordered d o lines d' ∧ (lines.map (OrderLine.shown drv)).Perm (shown.map itemPair) ∧
    ((orderItems a).map itemPair).Perm (lines.map OrderLine.ordered) ∧
    alone clock c (listCart drv u) d' = some (.ok (.obj [("items", .arr [])]), d')

/-- No row of the user's cart is for a product that has been deleted. -/
def NoneDeleted (d : Db) (u : Nat) : Prop :=
  ∀ r ∈ cartOf d u, ∃ row, d.catalog.committed r.productId = some row ∧ row.deleted = false

theorem shown_pairs (h : NoneDeleted d u) {assets : List ProductAssetRow} :
    (((cartOf d u).map CartItem.line).map (OrderLine.shown drv)).Perm
      (((shownRows d u).map (cartItemPayload drv assets)).map itemPair) := by
  have hperm := ((shownRows_perm h).map CartItem.line).map (OrderLine.shown drv)
  refine hperm.symm.trans (.of_eq ?_)
  rw [List.map_map, List.map_map, List.map_map]
  rfl

end Buying

section Bags

/-- A shop with products and carts. -/
def filled (products : List CatalogProduct) (cart : List CartItem) : Db :=
  { stocked products with cart := .ofRows cart }

theorem filled_still {products : List CatalogProduct} {cart : List CartItem}
    (hp : ∀ row ∈ products, 0 ≤ row.amount ∧ int4 row.amount) (hid : cart.map (·.id) = List.range cart.length)
    (hq : ∀ r ∈ cart, 0 < r.quantity) (hn : (cart.map fun r => (r.userId, r.productId)).Nodup) :
    Still (filled products cart) := by
  have hrow : ∀ (i : Nat) (r : CartItem), cart[i]? = some r → r.id = i := by
    intro i r hi
    have hget : (cart.map (·.id))[i]? = some r.id := by rw [List.getElem?_map, hi, Option.map_some]
    rw [hid, List.getElem?_range (List.getElem?_eq_some_iff.mp hi).1] at hget
    exact (Option.some.inj hget).symm
  refine { stocked_still hp with
    unlocked := { (stocked_still hp).unlocked with cart := ofRows_unlocked _ }
    cartRow := fun i r hi => ⟨hrow i r hi, hq r (List.mem_of_getElem? hi)⟩
    cartOnce := fun i j r r' hi hj hu hprod => ?_ }
  have hi : cart[i]? = some r := hi
  have hj : cart[j]? = some r' := hj
  have hlt : i < (cart.map fun r => (r.userId, r.productId)).length := by
    rw [List.length_map]
    exact (List.getElem?_eq_some_iff.mp hi).1
  refine (List.getElem?_inj hlt hn).mp ?_
  rw [List.getElem?_map, List.getElem?_map, hi, hj, Option.map_some, Option.map_some, hu, hprod]

/-- A lamp and two bulbs in the cart of user 1, and the bulb either on sale or deleted. -/
def bag (deleted : Bool) : Db := filled
  [{ title := "Shade", description := "", amount := 5, price := "4.00" },
   { title := "Lamp", description := "", amount := 5, price := "10.00" },
   { title := "Bulb", description := "", amount := 5, price := "2.50", deleted }]
  [⟨0, 1, 1, 1, 0, 0⟩, ⟨1, 1, 2, 2, 0, 0⟩]

theorem bag_still (deleted : Bool) : Still (bag deleted) := by
  refine filled_still ?_ rfl (by decide) (by decide)
  cases deleted <;> decide

theorem bag_shown (deleted : Bool) : ∃ a, alone (fun _ _ => 0) 0 (listCart plainDriver 1) (bag deleted) =
    some (.ok a, bag deleted) ∧ a.rows ≠ [] ∧ ∀ x ∈ a.rows, Buyable x := by
  obtain ⟨assets, h⟩ := listCart_alone 0 (bag deleted) 1 (fun _ _ => 0) plainDriver
  have hrows : (shownRows (bag deleted) 1).length ≠ 0 ∧ ∀ row ∈ shownRows (bag deleted) 1,
      row.product.isActive = true ∧ row.item.quantity ≤ row.product.amount := by
    cases deleted <;> decide +kernel
  refine ⟨_, h, fun hnil => hrows.1 ?_, fun x hx => ?_⟩
  · have hempty : (shownRows (bag deleted) 1).map (cartItemPayload plainDriver assets) = [] := hnil
    rw [List.map_eq_nil_iff.mp hempty]
    rfl
  · obtain ⟨row, hrow, rfl⟩ := List.mem_map.mp hx
    exact buyable_iff.mpr (hrows.2 row hrow)

/-- What a call has thrown. -/
def refusal {α : Type} : Except Failure α → Option Failure
  | .ok _ => none
  | .error e => some e

end Bags
end Kayan.Shop
