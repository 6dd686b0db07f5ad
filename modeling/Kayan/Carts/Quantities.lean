import Kayan.Carts.Service
import Kayan.Shop.Checkout
import Kayan.Shop.Frame

/-!
# Quantities of cart rows

`addCartItem` checks the quantity that it adds against the stock, and `updateCartItem` the one
that it sets. They agree exactly when the sum fits, or when the add is refused as well.
-/
namespace Kayan.Carts
open Interleave RowStore Shop

section Rows
variable {d d' : Db} {u p : Nat} {q : Int} {r : CartItem}

/-- The quantity of the product in the user's cart. -/
def inCart (d : Db) (userId productId : Nat) : Int :=
  (((cartKey userId productId d.cart).bind d.cart.committed).map (·.quantity)).getD 0

/-- The product is on sale, and there is enough of it. -/
def Sellable (d : Db) (productId : Nat) (quantity : Int) : Prop :=
  ∃ row, d.catalog.committed productId = some row ∧ row.deleted = false ∧ row.isActive = true ∧ quantity ≤ row.amount

/-- `d'` is `d` with the cart row `r`, the only one of its user for its product. -/
structure Put (d : Db) (r : CartItem) (d' : Db) : Prop where
  catalog : d'.catalog = d.catalog
  orders : d'.orders = d.orders
  items : d'.items = d.items
  history : d'.history = d.history
  unlocked : d'.cart.Unlocked
  cart : ∀ j, d'.cart.committed j = if j = r.id then some r else d.cart.committed j
  once : ∀ j r', d.cart.committed j = some r' → r'.userId = r.userId → r'.productId = r.productId → j = r.id

theorem Put.row (h : Put d r d') : d'.cart.committed r.id = some r := by
  rw [h.cart, if_pos rfl]

theorem Put.still (h : Put d r d') (hd : Still d) (hq : 0 < r.quantity) : Still d' where
  unlocked :=
    ⟨h.catalog ▸ hd.unlocked.catalog, h.orders ▸ hd.unlocked.orders, h.items ▸ hd.unlocked.items,
      h.history ▸ hd.unlocked.history, h.unlocked⟩
  amount := h.catalog ▸ hd.amount
  orderRef := by
    rw [h.items, h.orders]
    exact hd.orderRef
  cartRow i r' hi := by
    rw [h.cart] at hi
    split at hi
    · rename_i he
      cases hi
      exact ⟨he.symm, hq⟩
    · exact hd.cartRow i r' hi
  cartOnce i j r₁ r₂ hi hj hu hp := by
    rw [h.cart] at hi hj
    split at hi <;> split at hj
    · rename_i hi' hj'
      rw [hi', hj']
    · rename_i hi' hj'
      cases hi
      exact absurd (h.once j r₂ hj hu.symm hp.symm) hj'
    · rename_i hi' hj'
      cases hj
      exact absurd (h.once i r₁ hi hu hp) hi'
    · exact hd.cartOnce i j r₁ r₂ hi hj hu hp

/-- In a store between calls a row of the pair is the one that an upsert finds. -/
theorem cartKey_eq (hd : Still d) {i : Nat} (hi : d.cart.committed i = some r) :
    cartKey r.userId r.productId d.cart = some i := by
  rcases hk : cartKey r.userId r.productId d.cart with _ | j
  · exact absurd ⟨rfl, rfl⟩ (cartKey_none hk hi)
  · obtain ⟨r', hj, hu, hp⟩ := cartKey_some hk
    rw [hd.cartOnce j i r' r hj hi hu hp]

theorem inCart_eq (hd : Still d) {i : Nat} (hi : d.cart.committed i = some r) :
    inCart d r.userId r.productId = r.quantity := by
  rw [inCart, cartKey_eq hd hi, Option.bind_some, hi, Option.map_some, Option.getD_some]

theorem inCart_eq_zero (h : Emptied u d) : inCart d u p = 0 := by
  rcases hk : cartKey u p d.cart with _ | i
  · rw [inCart, hk]
    rfl
  · obtain ⟨r, hi, hu, -⟩ := cartKey_some hk
    exact absurd hu (h i r hi)

end Rows

section Upsert
variable {c : Client} {d d' : Db} {u p now : Nat} {q : Int} {r : CartItem}

/-- What an upsert makes of the rows: the row of the pair, if there is one, has its new quantity. -/
def Upserts (d : Db) (u p : Nat) (n : Int) (r : CartItem) : Prop :=
  r.userId = u ∧ r.productId = p ∧ r.quantity = n ∧
    ∀ i r₀, d.cart.committed i = some r₀ → r₀.userId = u → r₀.productId = p →
      ∃ t, r = { r₀ with quantity := n, updatedAt := t }

variable (now) in
theorem upsert_refused (hd : Still d) (h : ¬ (0 < inCart d u p + q ∧ int4 (inCart d u p + q) = true)) :
    ∃ e, upsertCartItem now u p q d = some (.error e, d) := by
  rcases hk : cartKey u p d.cart with _ | i
  · have hzero : inCart d u p = 0 := by rw [inCart, hk]; rfl
    rw [hzero, Int.zero_add] at h
    by_cases hq : q ≤ 0
    · exact ⟨.checkViolation, by simp [upsertCartItem, hk, hq]⟩
    · have hr : int4 q = false := by simpa [Int.not_le.mp hq] using h
      exact ⟨.outOfRange, by simp [upsertCartItem, hk, hq, hr]⟩
  · obtain ⟨r, hi, rfl, rfl⟩ := cartKey_some hk
    have hheld : (d.cart.cell i).held = none := hd.unlocked.cart i
    rw [inCart_eq hd hi] at h
    by_cases hq : r.quantity + q ≤ 0
    · exact ⟨.checkViolation, by simp [upsertCartItem, hk, hi, hheld, hq]⟩
    · have hr : int4 (r.quantity + q) = false := by simpa [Int.not_le.mp hq] using h
      exact ⟨.outOfRange, by simp [upsertCartItem, hk, hi, hheld, hq, hr]⟩

variable (now) in
theorem upsert_puts (hd : Still d) (hq : 0 < inCart d u p + q) (hr : int4 (inCart d u p + q) = true) :
    ∃ d' r, upsertCartItem now u p q d = some (.ok (), d') ∧ Put d r d' ∧ Upserts d u p (inCart d u p + q) r := by
  rcases hk : cartKey u p d.cart with _ | i
  · have hzero : inCart d u p = 0 := by rw [inCart, hk]; rfl
    rw [hzero, Int.zero_add] at hq hr ⊢
    refine ⟨_, ⟨d.cart.next, u, p, q, now, now⟩, by simp [upsertCartItem, hk, Int.not_le.mpr hq, hr]; rfl, ?_, ?_⟩
    · exact ⟨rfl, rfl, rfl, rfl, hd.unlocked.cart.append, fun j => Table.committed_append,
        fun j r' hj hu hp => absurd ⟨hu, hp⟩ (cartKey_none hk hj)⟩
    · exact ⟨rfl, rfl, rfl, fun i r₀ hi hu hp => absurd ⟨hu, hp⟩ (cartKey_none hk hi)⟩
  · obtain ⟨r, hi, rfl, rfl⟩ := cartKey_some hk
    have hheld : (d.cart.cell i).held = none := hd.unlocked.cart i
    obtain ⟨hid, -⟩ := hd.cartRow i r hi
    rw [inCart_eq hd hi] at hq hr ⊢
    refine ⟨_, { r with quantity := r.quantity + q, updatedAt := now },
      by simp [upsertCartItem, hk, hi, hheld, Int.not_le.mpr hq, hr]; rfl, ?_, ?_⟩
    · refine ⟨rfl, rfl, rfl, rfl, hd.unlocked.cart.store, fun j => ?_, fun j r' hj hu hp => ?_⟩
      · rw [Table.committed_store (Table.lt_of_committed hi), hid]
      · exact (hd.cartOnce j i r' r hj hi hu hp).trans hid.symm
    · refine ⟨rfl, rfl, rfl, fun j r₀ hj hu hp => ⟨now, ?_⟩⟩
      cases hd.cartOnce j i r₀ r hj hi hu hp
      cases hj.symm.trans hi
      rfl

end Upsert

section Operations
variable {c : Client} {d d' : Db} {u p i : Nat} {q : Int} {r : CartItem} {drv : Driver}

theorem assert_passes {clock : Shop.Clock} (h : Sellable d p q) :
    Shop.alone clock c (assertCartProductState p q) d = some (.ok (), d) := by
  obtain ⟨row, hrow, hdel, hact, hle⟩ := h
  have hsel : Shop.exec (clock (.selectProduct p) d) c (.selectProduct p) d = some (.ok (some row), d) := by
    simp [Shop.exec, hrow, hdel, Option.filter]
  refine (Shop.query_alone hsel).trans ?_
  conv_lhs => simp only [hact, Bool.not_true, if_neg (Int.not_lt.mpr hle)]
  rfl

variable (c) in
theorem assert_refuses (clock : Shop.Clock) (h : ¬ Sellable d p q) :
    ∃ e, Shop.alone clock c (assertCartProductState p q) d = some (.error e, d) := by
  rcases hrow : (d.catalog.committed p).filter fun row => !row.deleted with _ | row
  · have hsel : Shop.exec (clock (.selectProduct p) d) c (.selectProduct p) d = some (.ok none, d) := by
      simp only [Shop.exec, hrow]
    exact ⟨_, Shop.query_alone hsel⟩
  · have hsel : Shop.exec (clock (.selectProduct p) d) c (.selectProduct p) d = some (.ok (some row), d) := by
      simp only [Shop.exec, hrow]
    rw [Option.filter_eq_some_iff] at hrow
    by_cases hact : row.isActive = true
    · have hless : row.amount < q := by
        by_contra hle
        exact h ⟨row, hrow.1, by simpa using hrow.2, hact, Int.not_lt.mp hle⟩
      exact ⟨_, (Shop.query_alone hsel).trans (by simp only [hact, hless, if_true, Bool.not_true]; rfl)⟩
    · exact ⟨_, (Shop.query_alone hsel).trans (by simp only [hact, Bool.not_false, if_true]; rfl)⟩

variable (c d u drv) in
theorem listCart_returns (clock : Shop.Clock) : ∃ a, Shop.alone clock c (Shop.listCart drv u) d = some (.ok a, d) := by
  obtain ⟨assets, h⟩ := listCart_alone c d u clock drv
  exact ⟨_, h⟩

/-- An operation that fails leaves the store as it was. -/
def Refused (clock : Clock) (c : Client) (code : Code Payload) (d : Db) : Prop :=
  ∃ e, alone clock c code d = some (.error e, d)

/-- What `addCartItem` needs to succeed. -/
def Addable (d : Db) (u p : Nat) (q : Int) : Prop :=
  Sellable d p q ∧ 0 < inCart d u p + q ∧ int4 (inCart d u p + q) = true

variable (clock : Clock)

variable (c u p q drv) in
theorem addCartItem_alone (hd : Still d) :
    (Addable d u p q ∧ ∃ a d' r, alone clock c ((Call.addCartItem u p q).code drv) d = some (.ok a, d') ∧
      Put d r d' ∧ Upserts d u p (inCart d u p + q) r) ∨
    ¬ Addable d u p q ∧ Refused clock c ((Call.addCartItem u p q).code drv) d := by
  by_cases hs : Sellable d p q
  · by_cases hn : 0 < inCart d u p + q ∧ int4 (inCart d u p + q) = true
    · obtain ⟨d', r, hup, hput, hr⟩ := upsert_puts (clock (.shop (.upsertCartItem u p q)) d) hd hn.1 hn.2
      obtain ⟨a, hlist⟩ := listCart_returns c d' u drv fun q => clock (.shop q)
      have hexec : Shop.exec (clock (.shop (.upsertCartItem u p q)) d) c (.upsertCartItem u p q) d =
          some (.ok (), d') := hup
      refine Or.inl ⟨⟨hs, hn⟩, a, d', r, ofShop_alone.trans ?_, hput, hr⟩
      exact (bind_alone (assert_passes hs)).trans ((Shop.query_alone hexec).trans hlist)
    · obtain ⟨e, he⟩ := upsert_refused (clock (.shop (.upsertCartItem u p q)) d) hd hn
      have hexec : Shop.exec (clock (.shop (.upsertCartItem u p q)) d) c (.upsertCartItem u p q) d =
          some (.error e, d) := he
      refine Or.inr ⟨fun h => hn h.2, .database e, ofShop_alone.trans ?_⟩
      exact (bind_alone (assert_passes hs)).trans (Shop.query_alone_error hexec)
  · obtain ⟨e, he⟩ := assert_refuses c (fun q => clock (.shop q)) hs
    exact Or.inr ⟨fun h => hs h.1, e, ofShop_alone.trans (bind_alone_error he)⟩

theorem Sellable.int4 (hd : Still d) (h : Sellable d p q) (hq : 0 < q) : int4 q = true := by
  obtain ⟨row, hrow, -, -, hle⟩ := h
  have hmax := (hd.amount p row hrow).2
  simp only [Shop.int4, decide_eq_true_eq] at hmax ⊢
  omega

variable (c) in
theorem updateQuantity_sets (now : Nat) (hd : Still d) (hi : d.cart.committed i = some r) (hq : 0 < q)
    (hr : int4 q = true) : ∃ d', exec now c (.updateQuantity q i) d = some (.ok (), d') ∧
      Put d { r with quantity := q, updatedAt := now } d' := by
  have hheld : (d.cart.cell i).held = none := hd.unlocked.cart i
  obtain ⟨hid, -⟩ := hd.cartRow i r hi
  refine ⟨_, by simp [exec, hi, hheld, Int.not_le.mpr hq, hr]; rfl, ?_⟩
  refine ⟨rfl, rfl, rfl, rfl, hd.unlocked.cart.store, fun j => ?_, fun j r' hj hu hp => ?_⟩
  · rw [Table.committed_store (Table.lt_of_committed hi), hid]
  · exact (hd.cartOnce j i r' r hj hi hu hp).trans hid.symm

variable (c) in
theorem updateQuantity_refused (now : Nat) (hd : Still d) (hi : d.cart.committed i = some r) (hq : q ≤ 0) :
    ∃ e, exec now c (.updateQuantity q i) d = some (.error e, d) := by
  have hheld : (d.cart.cell i).held = none := hd.unlocked.cart i
  by_cases hr : int4 q = true
  · exact ⟨.checkViolation, by simp [exec, hi, hheld, hq, hr]⟩
  · exact ⟨.outOfRange, by simp [exec, hr]⟩

variable (c u q drv) in
/-- Setting the quantity of a row of the user's cart. -/
theorem updateCartItem_alone (hd : Still d) (hi : d.cart.committed i = some r) (hu : r.userId = u) :
    ((Sellable d r.productId q ∧ 0 < q) ∧ ∃ a d' t,
      alone clock c ((Call.updateCartItem u i q).code drv) d = some (.ok a, d') ∧
      Put d { r with quantity := q, updatedAt := t } d') ∨
    ¬ (Sellable d r.productId q ∧ 0 < q) ∧ Refused clock c ((Call.updateCartItem u i q).code drv) d := by
  have hsel : exec (clock (.selectCartItem i u) d) c (.selectCartItem i u) d = some (.ok (some r.productId), d) := by
    simp [exec, hi, hu, Option.filter]
  by_cases hs : Sellable d r.productId q
  · have hassert : alone clock c (ofShop (assertCartProductState r.productId q)) d = some (.ok (), d) :=
      ofShop_alone.trans (assert_passes hs)
    by_cases hq : 0 < q
    · obtain ⟨d', hset, hput⟩ := updateQuantity_sets c (clock (.updateQuantity q i) d) hd hi hq
        (hs.int4 hd hq)
      obtain ⟨a, hlist⟩ := listCart_returns c d' u drv fun q => clock (.shop q)
      refine Or.inl ⟨⟨hs, hq⟩, a, d', _, (query_alone hsel).trans ?_, hput⟩
      exact (bind_alone hassert).trans ((query_alone hset).trans (ofShop_alone.trans hlist))
    · obtain ⟨e, he⟩ := updateQuantity_refused c (clock (.updateQuantity q i) d) hd hi (Int.not_lt.mp hq)
      refine Or.inr ⟨fun h => hq h.2, .database e, (query_alone hsel).trans ?_⟩
      exact (bind_alone hassert).trans (query_alone_error he)
  · obtain ⟨e, he⟩ := assert_refuses c (fun q => clock (.shop q)) hs
    refine Or.inr ⟨fun h => hs h.1, e, (query_alone hsel).trans ?_⟩
    exact bind_alone_error (ofShop_alone.trans he)

variable (c u i q drv d) in
theorem updateCartItem_missing (h : (d.cart.committed i).filter (fun r => r.userId = u) = none) :
    Refused clock c ((Call.updateCartItem u i q).code drv) d := by
  have hsel : exec (clock (.selectCartItem i u) d) c (.selectCartItem i u) d = some (.ok none, d) := by
    simp only [exec, h, Option.map_none]
  exact ⟨_, (query_alone hsel).trans rfl⟩

variable (c u i d) in
/-- Deleting a row: it is gone, or nothing has changed. -/
theorem deleteCartItem_alone (hd : Still d) :
    (∃ a d', alone clock c (deleteCartItem u i) d = some (.ok a, d') ∧ Still d') ∨
      Refused clock c (deleteCartItem u i) d := by
  rcases hr : (d.cart.committed i).filter fun r => r.userId = u with _ | r
  · have hdel : exec (clock (.deleteCartItem i u) d) c (.deleteCartItem i u) d = some (.ok false, d) := by
      simp only [exec, hr]
    exact Or.inr ⟨_, (query_alone hdel).trans rfl⟩
  · have hheld : (d.cart.cell i).held = none := hd.unlocked.cart i
    have hdel : exec (clock (.deleteCartItem i u) d) c (.deleteCartItem i u) d =
        some (.ok true, { d with cart := d.cart.store i none }) := by
      simp only [exec, hr, hheld]
    have hlt : i < d.cart.next := Table.lt_of_committed (Option.filter_eq_some_iff.mp hr).1
    have hleft : ∀ j r', (d.cart.store i none).committed j = some r' → d.cart.committed j = some r' := by
      intro j r' hj
      rw [Table.committed_store hlt] at hj
      split at hj
      · cases hj
      · exact hj
    refine Or.inl ⟨_, _, (query_alone hdel).trans rfl, ?_⟩
    exact { hd with
      unlocked := { hd.unlocked with cart := hd.unlocked.cart.store }
      cartRow := fun j r' hj => hd.cartRow j r' (hleft j r' hj)
      cartOnce := fun j k r₁ r₂ hj hk => hd.cartOnce j k r₁ r₂ (hleft j r₁ hj) (hleft k r₂ hk) }

end Operations

section Runs
variable {d d' : Db} {drv : Driver} {u p i : Nat} {q : Int}

/-- Operations that run alone leave a store between calls. -/
theorem Step.still {e : Call × Except Failure Payload} (hd : Still d) (h : Step drv d e d') : Still d' := by
  obtain ⟨call, result⟩ := e
  obtain ⟨clock, c, h⟩ := h
  dsimp only at h
  cases call with
  | listCart u =>
    obtain ⟨a, hlist⟩ := listCart_returns c d u drv fun q => clock (.shop q)
    cases h.symm.trans (ofShop_alone.trans hlist)
    exact hd
  | addCartItem u p q =>
    rcases addCartItem_alone c u p q drv clock hd with ⟨hadd, a, d₁, r, hrun, hput, hr⟩ | ⟨-, e, he⟩
    · cases h.symm.trans hrun
      exact hput.still hd (hr.2.2.1 ▸ hadd.2.1)
    · cases h.symm.trans he
      exact hd
  | updateCartItem u i q =>
    rcases hi : (d.cart.committed i).filter fun r => r.userId = u with _ | r
    · obtain ⟨e, he⟩ := updateCartItem_missing c d u i q drv clock hi
      cases h.symm.trans he
      exact hd
    · rw [Option.filter_eq_some_iff] at hi
      rcases updateCartItem_alone c u q drv clock hd hi.1 (by simpa using hi.2) with
        ⟨hset, a, d₁, t, hrun, hput⟩ | ⟨-, e, he⟩
      · cases h.symm.trans hrun
        exact hput.still hd hset.2
      · cases h.symm.trans he
        exact hd
  | deleteCartItem u i =>
    rcases deleteCartItem_alone c d u i clock hd with ⟨a, d₁, hrun, hd₁⟩ | ⟨e, he⟩
    · cases h.symm.trans hrun
      exact hd₁
    · cases h.symm.trans he
      exact hd
  | checkoutCart u deliveryAddress =>
    have hshop : Shop.alone (fun q => clock (.shop q)) c (Shop.checkoutCart drv u deliveryAddress) d = some (result, d') :=
      ofShop_alone.symm.trans h
    rcases checkoutCart_alone c u deliveryAddress (fun q => clock (.shop q)) drv hd with
      ⟨-, a, o, d₁, hrun, -, -, hd₁, -⟩ | ⟨-, e, d₁, he, hs, hu⟩
    · cases hshop.symm.trans hrun
      exact hd₁
    · cases hshop.symm.trans he
      exact hd.of_same hs hu

/-- After a successful add or update the row of the operation has at most the amount of its product. -/
def Within (e : Call × Except Failure Payload) (d : Db) : Prop :=
  match e with
  | (.addCartItem u p _, .ok _) => ∃ i r row, d.cart.committed i = some r ∧ r.userId = u ∧ r.productId = p ∧
      d.catalog.committed p = some row ∧ r.quantity ≤ row.amount
  | (.updateCartItem _ i _, .ok _) => ∃ r row, d.cart.committed i = some r ∧
      d.catalog.committed r.productId = some row ∧ r.quantity ≤ row.amount
  | _ => True

/-- An add that is not refused anyway finds the sum of the quantities within the amount. -/
def HasRoom (d : Db) : Call → Prop
  | .addCartItem u p q => Addable d u p q →
      ∀ row, d.catalog.committed p = some row → inCart d u p + q ≤ row.amount
  | _ => True

/-- The row is within the amount after an operation exactly when there was room for it. -/
theorem Step.within_iff {e : Call × Except Failure Payload} (hd : Still d) (h : Step drv d e d') :
    Within e d' ↔ HasRoom d e.1 := by
  obtain ⟨call, result⟩ := e
  obtain ⟨clock, c, h⟩ := h
  dsimp only at h
  cases call with
  | addCartItem u p q =>
    rcases addCartItem_alone c u p q drv clock hd with ⟨hadd, a, d₁, r, hrun, hput, hu, hp, hr, -⟩ | ⟨hno, e, he⟩
    · cases h.symm.trans hrun
      obtain ⟨row, hrow, -⟩ := hadd.1
      constructor
      · rintro ⟨i, r', row', hi, hu', hp', hrow', hle⟩ - row₂ hrow₂
        rw [hput.catalog] at hrow'
        cases hrow'.symm.trans hrow₂
        have hid := (hput.still hd (hr ▸ hadd.2.1)).cartOnce i r.id r' r hi hput.row (hu'.trans hu.symm) (hp'.trans hp.symm)
        rw [hid, hput.row] at hi
        cases hi
        exact hr ▸ hle
      · intro hroom
        refine ⟨r.id, r, row, hput.row, hu, hp, ?_, ?_⟩
        · rw [hput.catalog, hrow]
        · rw [hr]
          exact hroom hadd row hrow
    · cases h.symm.trans he
      exact iff_of_true trivial fun hadd => absurd hadd hno
  | updateCartItem u i q =>
    refine iff_of_true ?_ trivial
    rcases hi : (d.cart.committed i).filter fun r => r.userId = u with _ | r
    · obtain ⟨e, he⟩ := updateCartItem_missing c d u i q drv clock hi
      cases h.symm.trans he
      trivial
    · rw [Option.filter_eq_some_iff] at hi
      rcases updateCartItem_alone c u q drv clock hd hi.1 (by simpa using hi.2) with
        ⟨⟨⟨row, hrow, -, -, hle⟩, -⟩, a, d₁, t, hrun, hput⟩ | ⟨-, e, he⟩
      · cases h.symm.trans hrun
        have hid : r.id = i := (hd.cartRow i r hi.1).1
        refine ⟨_, row, hid ▸ hput.row, ?_, hle⟩
        rw [hput.catalog]
        exact hrow
      · cases h.symm.trans he
        trivial
  | listCart | deleteCartItem | checkoutCart => cases result <;> exact Iff.rfl

theorem addCartItem_succeeds_iff (hd : Still d) :
    (∃ a d', Step drv d (.addCartItem u p q, .ok a) d') ↔ Addable d u p q := by
  constructor
  · rintro ⟨a, d', clock, c, h⟩
    rcases addCartItem_alone c u p q drv clock hd with ⟨hadd, -⟩ | ⟨-, e, he⟩
    · exact hadd
    · cases h.symm.trans he
  · intro hadd
    rcases addCartItem_alone 0 u p q drv (fun _ _ => 0) hd with ⟨-, a, d', r, hrun, -⟩ | ⟨hno, -⟩
    · exact ⟨a, d', _, 0, hrun⟩
    · exact absurd hadd hno

theorem updateCartItem_succeeds_iff (hd : Still d) {r : CartItem} (hi : d.cart.committed i = some r)
    (hu : r.userId = u) :
    (∃ a d', Step drv d (.updateCartItem u i q, .ok a) d') ↔ Sellable d r.productId q ∧ 0 < q := by
  constructor
  · rintro ⟨a, d', clock, c, h⟩
    rcases updateCartItem_alone c u q drv clock hd hi hu with ⟨hset, -⟩ | ⟨-, e, he⟩
    · exact hset
    · cases h.symm.trans he
  · intro hset
    rcases updateCartItem_alone 0 u q drv (fun _ _ => 0) hd hi hu with ⟨-, a, d', t, hrun, -⟩ | ⟨hno, -⟩
    · exact ⟨a, d', _, 0, hrun⟩
    · exact absurd hset hno

/-- A row that differs at most in the time of its last change. -/
def SameRow (i : Nat) (d d' : Db) : Prop :=
  ∃ r t, d.cart.committed i = some r ∧ d'.cart.committed i = some { r with updatedAt := t }

/-- An add and an update that both succeed leave the same row when they make for the same quantity. -/
theorem same_row {d₁ d₂ : Db} {r : CartItem} {a b : Payload} {n : Int} (hd : Still d)
    (hi : d.cart.committed i = some r) (hn : n = r.quantity + q)
    (hadd : Step drv d (.addCartItem r.userId r.productId q, .ok a) d₁)
    (hset : Step drv d (.updateCartItem r.userId i n, .ok b) d₂) : SameRow i d₁ d₂ := by
  obtain ⟨clock, c, h⟩ := hadd
  obtain ⟨clock', c', h'⟩ := hset
  have hid : r.id = i := (hd.cartRow i r hi).1
  rcases addCartItem_alone c r.userId r.productId q drv clock hd with ⟨-, a', d', r', hrun, hput, -, -, -, hsame⟩ | ⟨-, e, he⟩
  · cases h.symm.trans hrun
    rcases updateCartItem_alone c' r.userId n drv clock' hd hi rfl with ⟨-, b', d', t', hrun', hput'⟩ | ⟨-, e, he⟩
    · cases h'.symm.trans hrun'
      obtain ⟨t, rfl⟩ := hsame i r hi rfl rfl
      rw [inCart_eq hd hi, ← hn] at hput
      exact ⟨_, t', hid ▸ hput.row, hid ▸ hput'.row⟩
    · cases h'.symm.trans he
  · cases h.symm.trans he

/-- Adding to the user's row for the product and setting it to the sum succeed both, with the same
row, or fail both. -/
def AddsLikeSetting (drv : Driver) (d : Db) (u p : Nat) (q n : Int) : Prop :=
  ∃ i r, d.cart.committed i = some r ∧ r.userId = u ∧ r.productId = p ∧
    ((∃ a d', Step drv d (.addCartItem u p q, .ok a) d') ↔ ∃ a d', Step drv d (.updateCartItem u i n, .ok a) d') ∧
    ∀ a b d₁ d₂, Step drv d (.addCartItem u p q, .ok a) d₁ → Step drv d (.updateCartItem u i n, .ok b) d₂ →
      SameRow i d₁ d₂

/-- What the first add to an empty cart leaves. -/
theorem added_once {a : Payload} (hd : Still d) (he : Emptied u d) (h : Step drv d (.addCartItem u p q, .ok a) d') :
    ∃ r, d'.cart.committed r.id = some r ∧ r.userId = u ∧ r.productId = p ∧ r.quantity = q ∧
      inCart d' u p = q ∧ d'.catalog = d.catalog ∧ Sellable d p q := by
  have hd' := h.still hd
  obtain ⟨clock, c, h⟩ := h
  rcases addCartItem_alone c u p q drv clock hd with ⟨hadd, a', d₁, r, hrun, hput, hu, hp, hr, -⟩ | ⟨-, e, he⟩
  · cases h.symm.trans hrun
    rw [inCart_eq_zero he, Int.zero_add] at hr
    subst hu hp
    exact ⟨r, hput.row, rfl, rfl, hr, (inCart_eq hd' hput.row).trans hr, hput.catalog, hadd.1⟩
  · cases h.symm.trans he

theorem addsLikeSetting_iff {q₁ q₂ : Int} {a : Payload} (hd : Still d) (he : Emptied u d) (hq₁ : 1 ≤ q₁) (hq₂ : 1 ≤ q₂)
    (h : Step drv d (.addCartItem u p q₁, .ok a) d') : AddsLikeSetting drv d' u p q₂ (q₁ + q₂) ↔
      ∀ row, d.catalog.committed p = some row → q₁ + q₂ ≤ row.amount ∨ row.amount < q₂ ∨ 2147483647 < q₁ + q₂ := by
  have hd' := h.still hd
  obtain ⟨r, hi, rfl, rfl, hr, hin, hcat, row, hrow, hdel, hact, -⟩ := added_once hd he h
  have hmax := (hd.amount _ row hrow).2
  have hsell : ∀ n, Sellable d' r.productId n ↔ n ≤ row.amount := by
    intro n
    rw [Sellable, hcat]
    refine ⟨fun ⟨row', hrow', _, _, hle⟩ => ?_, fun hle => ⟨row, hrow, hdel, hact, hle⟩⟩
    cases hrow.symm.trans hrow'
    exact hle
  have hadd : Addable d' r.userId r.productId q₂ ↔ q₂ ≤ row.amount ∧ q₁ + q₂ ≤ 2147483647 := by
    rw [Addable, hsell, hin]
    simp only [int4, decide_eq_true_eq]
    omega
  have hset : Sellable d' r.productId (q₁ + q₂) ∧ 0 < q₁ + q₂ ↔ q₁ + q₂ ≤ row.amount := by
    rw [hsell]
    omega
  simp only [int4, decide_eq_true_eq] at hmax
  constructor
  · rintro ⟨i, r', hi', hu, hp, hiff, -⟩ row' hrow'
    cases hrow.symm.trans hrow'
    obtain rfl : i = r.id := hd'.cartOnce i r.id r' r hi' hi hu hp
    rw [addCartItem_succeeds_iff hd', updateCartItem_succeeds_iff hd' hi rfl, hadd, hset] at hiff
    omega
  · intro hcond
    refine ⟨r.id, r, hi, rfl, rfl, ?_, fun a b d₁ d₂ h₁ h₂ => same_row hd' hi (by rw [hr]) h₁ h₂⟩
    rw [addCartItem_succeeds_iff hd', updateCartItem_succeeds_iff hd' hi rfl, hadd, hset]
    have hcond := hcond row hrow
    omega

/-- After a first add a second one agrees with setting the sum exactly when the sum is within the
amount, or the second add fails as well. The rows of all successful adds and updates of a run are
within the amounts exactly when there was room for every add. -/
theorem cart_additions_iff (hd : Still d) :
    (∀ u p q₁ q₂ a d₁, 1 ≤ q₁ → 1 ≤ q₂ → Emptied u d → Step drv d (.addCartItem u p q₁, .ok a) d₁ →
      (AddsLikeSetting drv d₁ u p q₂ (q₁ + q₂) ↔ ∀ row, d.catalog.committed p = some row →
        q₁ + q₂ ≤ row.amount ∨ row.amount < q₂ ∨ 2147483647 < q₁ + q₂)) ∧
    ∀ xs d', Trace.Run (fun s e t => Step drv s e t ∧ Within e t) d xs d' ↔
      Trace.Run (fun s e t => Step drv s e t ∧ HasRoom s e.1) d xs d' :=
  ⟨fun _ _ _ _ _ _ hq₁ hq₂ he h => addsLikeSetting_iff hd he hq₁ hq₂ h, fun _ _ =>
    Trace.Run.where_iff (fun _ _ _ h hs => h.still hs) (fun _ _ _ h hs => h.within_iff hs) hd⟩

end Runs

section Shelf

/-- A shade and five lamps, and no carts. -/
def shelf : Db := stocked
  [{ title := "Shade", description := "", amount := 5, price := "4.00" },
   { title := "Lamp", description := "", amount := 5, price := "10.00" }]

theorem shelf_still : Still shelf := stocked_still (by decide)

theorem shelf_empty : Emptied 1 shelf := by
  intro i r hi
  cases hi

theorem shelf_lamp {q : Int} (hq : 0 < q) (hle : q ≤ 5) : ∃ a d, Step plainDriver shelf (.addCartItem 1 1 q, .ok a) d := by
  refine (addCartItem_succeeds_iff shelf_still).mpr ⟨⟨_, rfl, rfl, rfl, hle⟩, ?_⟩
  rw [inCart_eq_zero shelf_empty, Int.zero_add]
  simp only [int4, decide_eq_true_eq]
  omega

/-- Two lamps and three lamps are five; the run of the two adds keeps within the amount. -/
theorem cart_additions_shelf : ∃ a d, Step plainDriver shelf (.addCartItem 1 1 2, .ok a) d ∧
    AddsLikeSetting plainDriver d 1 1 3 (2 + 3) ∧
    Trace.Run (fun s e t => Step plainDriver s e t ∧ Within e t) shelf [(.addCartItem 1 1 2, .ok a)] d := by
  obtain ⟨a, d, h⟩ := shelf_lamp (q := 2) (by decide) (by decide)
  obtain ⟨hlaw, hrun⟩ := @cart_additions_iff _ plainDriver shelf_still
  refine ⟨a, d, h, (hlaw 1 1 2 3 a d (by decide) (by decide) shelf_empty h).mpr fun row hrow => ?_,
    (hrun _ _).mpr (.step ⟨h, fun _ row hrow => ?_⟩ .refl)⟩
  · cases hrow
    exact Or.inl (by decide)
  · cases hrow
    rw [inCart_eq_zero shelf_empty]
    decide

/-- Three lamps are added twice: both adds succeed and six are in the cart, more than there are. Setting
the row to six fails. -/
theorem lamps_added_twice : ∃ a b d₁ d₂, Step plainDriver shelf (.addCartItem 1 1 3, .ok a) d₁ ∧
    Step plainDriver d₁ (.addCartItem 1 1 3, .ok b) d₂ ∧ ¬ Within (.addCartItem 1 1 3, .ok b) d₂ ∧
    ¬ AddsLikeSetting plainDriver d₁ 1 1 3 (3 + 3) := by
  obtain ⟨a, d₁, h₁⟩ := shelf_lamp (q := 3) (by decide) (by decide)
  have hd₁ := h₁.still shelf_still
  obtain ⟨r, -, -, -, -, hin, hcat, -⟩ := added_once shelf_still shelf_empty h₁
  have hlamp : d₁.catalog.committed 1 = some { title := "Lamp", description := "", amount := 5, price := "10.00" } := by
    rw [hcat]
    rfl
  have hadd : Addable d₁ 1 1 3 := by
    refine ⟨⟨_, hlamp, rfl, rfl, by decide⟩, ?_⟩
    rw [hin]
    decide
  obtain ⟨b, d₂, h₂⟩ := (@addCartItem_succeeds_iff _ plainDriver _ _ _ hd₁).mpr hadd
  refine ⟨a, b, d₁, d₂, h₁, h₂, fun hw => ?_, fun hlike => ?_⟩
  · have hroom := (h₂.within_iff hd₁).mp hw hadd _ hlamp
    rw [hin] at hroom
    exact absurd hroom (by decide)
  · have hsum := (addsLikeSetting_iff shelf_still shelf_empty (by decide) (by decide) h₁).mp hlike _ rfl
    exact absurd hsum (by decide)

end Shelf
end Kayan.Carts
