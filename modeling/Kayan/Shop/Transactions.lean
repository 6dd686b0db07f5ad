import Kayan.Shop.Invariant

/-!
# The transactions of the shop

Each call, run among all others, keeps the invariant: when its transaction commits, what
it has written is ready to be published, and when it fails nothing of it remains.
-/
namespace Kayan.Shop
open RowStore Interleave

/-- A `DELETE` removes only cart rows that its own transaction has locked before. -/
def deletesLocked (_ : Move) (c : Client) (q : Stmt) (d : Db) : Bool :=
  match q with
  | .deleteCartRow i userId => (d.cart.view c i).all fun r => r.userId ≠ userId || (d.cart.own c i).isSome
  | _ => true

/-- What the proof of a call may use and has to keep. Under `strict` checkouts delete
only what they have locked; a commit always publishes cart deletions only. -/
def rules (req : Client → Request) (d₀ : Db) (strict : Prop) : Rules Client Move Stmt Answer Db where
  act := act
  inv := Inv req d₀ strict
  rely := Rely
  allow m c q d := strict → deletesLocked m c q d
  guar c q d _ _ := q = .commit → ∀ i v w, d.cart.own c i = some (v, w) → w = none
  rely_refl _ _ := Rely.refl
  rely_trans _ _ _ _ h h' := h.trans h'
  frame _ _ _ _ _ _ _ h _ hb := act_rely h hb

variable {req : Client → Request} {d₀ : Db} {strict : Prop} {c : Client} {d d' : Db}

section Assertions

/-- The version of each cart row that a transaction has of its own. -/
abbrev OwnCart := Nat → Option (Option CartItem × Option CartItem)

/-- The transaction of `c` has written nothing but cart rows, and those satisfy `K`. -/
structure Unordered (c : Client) (K : OwnCart → Prop) (d : Db) : Prop where
  catalog : ∀ i, d.catalog.own c i = none
  orders : ∀ i, d.orders.own c i = none
  items : ∀ i, d.items.own c i = none
  cart : K (d.cart.own c)
  amountSet : d.amountSet c = []
  commits : d.commits c = []

/-- `c` holds no version of any row. -/
def NoCart (own : OwnCart) : Prop := ∀ i, own i = none

/-- The transaction of `c` has inserted the order `o` with items for `lines`; `off` of
their quantities are not decremented yet. -/
structure Placing (c : Client) (o : ProductOrder) (lines : List OrderLine) (off : Nat → Int)
    (K : OwnCart → Prop) (d : Db) : Prop where
  balanced : Balanced c off d
  amountSet : d.amountSet c = []
  orderRow : d.orders.own c o.id = some (none, some o)
  orders : d.orders.pending c = [o]
  insertsOrders : d.orders.Inserts c
  insertsItems : d.items.Inserts c
  lines : (d.items.pending c).map OrderItem.line = lines
  orderId : ∀ r ∈ d.items.pending c, r.orderId = o.id
  cart : K (d.cart.own c)
  commits : d.commits c = []

/-- `c` holds the lock of a product and reads `row` there. -/
def Holding (c : Client) (p : Nat) (row : CatalogProduct) (d : Db) : Prop :=
  ∃ v, d.catalog.own c p = some (v, some row)

/-- Exactly the given cart rows are locked. -/
def Held (rows : List CartItem) (own : OwnCart) : Prop :=
  (∀ r ∈ rows, own r.id = some (some r, some r)) ∧ ∀ i, own i ≠ none → i ∈ rows.map (·.id)

/-- Cart rows are being deleted: of the given locked ones, those in `ids` are still to come. -/
structure Deleting (strict : Prop) (rows : List CartItem) (ids : List Nat) (own : OwnCart) : Prop where
  locked : ∀ r ∈ rows, ∃ w, own r.id = some (some r, w)
  rest : ∀ i v w, own i = some (v, w) → w = none ∨ i ∈ ids ∧ ∃ r ∈ rows, r.id = i ∧ w = some r
  only : strict → ∀ i, own i ≠ none → i ∈ rows.map (·.id)

end Assertions

section Stability
variable {K : OwnCart → Prop} {o : ProductOrder} {lines : List OrderLine} {off : Nat → Int}
  {p : Nat} {row : CatalogProduct}

theorem Rely.ownCart (h : Rely c d d') : d'.cart.own c = d.cart.own c := funext h.cart

theorem Balanced.of_rely (hb : Balanced c off d) (h : Rely c d d') : Balanced c off d' := by
  intro p
  have hp := hb p
  rw [← Table.pending_congr h.items, ← h.catalog, ← h.amountSet] at hp
  exact hp

theorem Unordered.of_rely (hu : Unordered c K d) (h : Rely c d d') : Unordered c K d' where
  catalog i := (h.catalog i).trans (hu.catalog i)
  orders i := (h.orders i).trans (hu.orders i)
  items i := (h.items i).trans (hu.items i)
  cart := by simpa only [h.ownCart] using hu.cart
  amountSet := h.amountSet.trans hu.amountSet
  commits := h.commits.trans hu.commits

theorem Placing.of_rely (hp : Placing c o lines off K d) (h : Rely c d d') :
    Placing c o lines off K d' where
  balanced := hp.balanced.of_rely h
  amountSet := h.amountSet.trans hp.amountSet
  orderRow := (h.orders o.id).trans hp.orderRow
  orders := (Table.pending_congr h.orders).trans hp.orders
  insertsOrders i v w hi := hp.insertsOrders i v w ((h.orders i).symm.trans hi)
  insertsItems i v w hi := hp.insertsItems i v w ((h.items i).symm.trans hi)
  lines := by simpa only [Table.pending_congr h.items] using hp.lines
  orderId := by simpa only [Table.pending_congr h.items] using hp.orderId
  cart := by simpa only [h.ownCart] using hp.cart
  commits := h.commits.trans hp.commits

theorem Holding.of_rely (hh : Holding c p row d) (h : Rely c d d') : Holding c p row d' := by
  obtain ⟨v, hv⟩ := hh
  exact ⟨v, (h.catalog p).trans hv⟩

end Stability

section Rules
variable {α : Type} {P : Db → Prop} {E : Db → Prop}

/-- What code of client `c` does under the rules of the shop. -/
abbrev Does (req : Client → Request) (d₀ : Db) (strict : Prop) (c : Client) (P : Db → Prop)
    (x : Code α) (Q : α → Db → Prop) (E : Db → Prop) : Prop :=
  Triple (rules req d₀ strict) c P x Q E

/-- Stable under what the others may do. -/
abbrev Steady (req : Client → Request) (d₀ : Db) (strict : Prop) (c : Client) (P : Db → Prop) : Prop :=
  Stable (rules req d₀ strict) c P

theorem Unordered.steady {K : OwnCart → Prop} : Steady req d₀ strict c (Unordered c K) :=
  fun _ _ hr _ h => h.of_rely hr

theorem Placing.steady {o : ProductOrder} {lines : List OrderLine} {off : Nat → Int}
    {K : OwnCart → Prop} : Steady req d₀ strict c (Placing c o lines off K) :=
  fun _ _ hr _ h => h.of_rely hr

theorem uncommitted_steady : Steady req d₀ strict c fun d => d.commits c = [] :=
  fun _ _ hr _ h => hr.commits.trans h

/-- A statement other than `COMMIT`. -/
theorem query_does {q : Stmt} {Q : Reply q → Db → Prop} (hc : q ≠ .commit)
    (hp : Steady req d₀ strict c P) (hq : ∀ v, Steady req d₀ strict c (Q v))
    (he : Steady req d₀ strict c E) (herr : ∀ d, P d → E d)
    (h : ∀ now d v d', Inv req d₀ strict d → (strict → deletesLocked (.run now) c q d) → P d →
      exec now c q d = some (.ok v, d') → Q v d') :
    Does req d₀ strict c P (query q) Q E := by
  refine Triple.await hp hq he fun m d r d' hi hal hd ha => ?_
  have ha : act m c q d = some (r, d') := ha
  refine ⟨Inv.act hi ha hc, fun hcm => absurd hcm hc, ?_⟩
  cases r with
  | error e =>
    obtain rfl : d' = d := act_error ha
    exact herr d' hd
  | ok v =>
    cases m with
    | fail e => cases (act_fail ha).1
    | run now => exact h now d v d' hi hal hd ha

/-- A statement that leaves the versions of its own client as they are. -/
theorem query_keeps {q : Stmt} (hc : q ≠ .commit) (hp : Steady req d₀ strict c P)
    (he : Steady req d₀ strict c E) (herr : ∀ d, P d → E d)
    (h : ∀ now d v d', exec now c q d = some (.ok v, d') → Rely c d d') :
    Does req d₀ strict c P (query q) (fun _ => P) E := by
  refine query_does hc hp (fun _ => hp) he herr fun now d v d' hi hal hd hx => ?_
  exact hp d d' (h now d v d' hx) (Inv.act (m := .run now) hi hx hc) hd

/-- A statement that only reads. -/
theorem query_reads {q : Stmt} (hc : q ≠ .commit) (hp : Steady req d₀ strict c P)
    (he : Steady req d₀ strict c E) (herr : ∀ d, P d → E d)
    (h : ∀ now d v d', exec now c q d = some (.ok v, d') → d = d') :
    Does req d₀ strict c P (query q) (fun _ => P) E := by
  refine query_keeps hc hp he herr fun now d v d' hx => ?_
  rw [← h now d v d' hx]
  exact Rely.refl

theorem throw_does {e : Failure} {Q : α → Db → Prop} (he : Steady req d₀ strict c E)
    (h : ∀ d, P d → E d) : Does req d₀ strict c P (throw e) Q E :=
  (Triple.throw he).pre h

theorem pure_does {a : α} {Q : α → Db → Prop} (hq : Steady req d₀ strict c (Q a))
    (h : ∀ d, P d → Q a d) : Does req d₀ strict c P (pure a) Q E :=
  (Triple.pure hq).pre h

end Rules

section Ordering
variable {K : OwnCart → Prop} {o : ProductOrder} {lines : List OrderLine} {p : Nat}
  {row : CatalogProduct} {q : Int}

theorem quantityOf_singleton (r : OrderItem) :
    quantityOf p [r] = if r.productId = p then r.quantity else 0 := by
  simp [quantityOf]

/-- Locking a product row reads what is committed or what the client has written. -/
theorem Balanced.lock (hb : Balanced c (fun _ => 0) d) (hi : Inv req d₀ strict d)
    (hv : d.catalog.view c p = some row) :
    Balanced c (fun _ => 0) { d with catalog := d.catalog.lock c p } ∧
      Holding c p row { d with catalog := d.catalog.lock c p } := by
  have hlt := Table.lt_of_view hv
  have hown : ∀ j, (d.catalog.lock c p).own c j =
      if j = p then some (d.catalog.committed p, some row) else d.catalog.own c j := by
    intro j
    rw [Table.own_lock hlt, hv]
  refine ⟨fun j => ?_, ⟨d.catalog.committed p, by simpa using hown p⟩⟩
  have hj := hb j
  by_cases he : j = p
  · subst he
    simp only [hown, if_true]
    rcases ho : d.catalog.own c j with _ | ⟨v, w⟩
    · rw [Table.view_of_not_own ho] at hv
      simp only [ho] at hj
      obtain ⟨hpos, -⟩ := hi.stock j row hv
      exact ⟨row, row.amount, rfl, hpos, by simp [hj.1, hv], by omega⟩
    · obtain rfl := Table.view_of_own ho ▸ hv
      simp only [ho] at hj
      rw [Table.own_committed ho]
      exact hj
  · simp only [hown, if_neg he]
    exact hj

theorem Balanced.insertItem {r : OrderItem} (hb : Balanced c (fun _ => 0) d)
    (hh : Holding c r.productId row d) :
    Balanced c (fun j => if j = r.productId then r.quantity else 0)
      { d with items := d.items.insert c r } := by
  intro j
  have hj := hb j
  have hq : quantityOf j ((d.items.insert c r).pending c) =
      quantityOf j (d.items.pending c) + if r.productId = j then r.quantity else 0 := by
    rw [Table.pending_insert, quantityOf_append, quantityOf_singleton]
  simp only [hq]
  obtain ⟨v, hv⟩ := hh
  by_cases he : j = r.productId
  · subst he
    simp only [hv, if_true] at hj ⊢
    obtain ⟨row', a, hw, hpos, ha, hamt⟩ := hj
    exact ⟨row', a, hw, hpos, ha, by omega⟩
  · have hne : ¬ r.productId = j := fun h => he h.symm
    simp only [if_neg he, if_neg hne, Int.add_zero] at hj ⊢
    exact hj

theorem Balanced.decrement (hb : Balanced c (fun j => if j = p then q else 0) d)
    (hh : Holding c p row d) (hq : 0 ≤ row.amount - q) :
    Balanced c (fun _ => 0)
      { d with catalog := d.catalog.write c p (some { row with amount := row.amount - q }) } := by
  obtain ⟨v, hv⟩ := hh
  have hlt : p < d.catalog.next := Table.lt_of_own (c := c) (by simp [hv])
  intro j
  have hj := hb j
  by_cases he : j = p
  · subst he
    simp only [hv, if_true] at hj
    simp only [Table.own_write hlt, if_true, Table.own_committed hv]
    obtain ⟨row', a, hw, -, ha, hamt⟩ := hj
    cases hw
    exact ⟨_, a, rfl, hq, ha, by simp only; omega⟩
  · simp only [Table.own_write hlt, if_neg he] at hj ⊢
    exact hj

theorem Placing.lock (hp : Placing c o lines (fun _ => 0) K d) (hi : Inv req d₀ strict d)
    (hv : d.catalog.view c p = some row) :
    Placing c o lines (fun _ => 0) K { d with catalog := d.catalog.lock c p } :=
  { hp with balanced := (hp.balanced.lock hi hv).1 }

theorem Placing.insertItem {r : OrderItem} (hp : Placing c o lines (fun _ => 0) K d)
    (hh : Holding c r.productId row d) (hr : r.orderId = o.id) :
    Placing c o (lines ++ [r.line]) (fun j => if j = r.productId then r.quantity else 0) K
      { d with items := d.items.insert c r } := by
  refine { hp with balanced := hp.balanced.insertItem hh, insertsItems := hp.insertsItems.insert,
                   lines := ?_, orderId := ?_ }
  · simp [Table.pending_insert, hp.lines]
  · intro x hx
    rw [Table.pending_insert, List.mem_append, List.mem_singleton] at hx
    rcases hx with hx | rfl
    · exact hp.orderId x hx
    · exact hr

theorem Placing.decrement (hp : Placing c o lines (fun j => if j = p then q else 0) K d)
    (hh : Holding c p row d) (hq : 0 ≤ row.amount - q) :
    Placing c o lines (fun _ => 0) K
      { d with catalog := d.catalog.write c p (some { row with amount := row.amount - q }) } :=
  { hp with balanced := hp.balanced.decrement hh hq }

/-- Inserting the order row starts the order. -/
theorem Unordered.insertOrder (hu : Unordered c K d) (ho : o.id = d.orders.next) :
    Placing c o [] (fun _ => 0) K { d with orders := d.orders.insert c o } where
  balanced p := by
    simp only [hu.catalog, hu.amountSet, Table.pending_eq_nil hu.items]
    exact ⟨rfl, rfl⟩
  amountSet := hu.amountSet
  orderRow := by rw [Table.own_insert, if_pos ho]
  orders := by rw [Table.pending_insert, Table.pending_eq_nil hu.orders, List.nil_append]
  insertsOrders := by
    refine Table.Inserts.insert fun i v w hi => ?_
    rw [hu.orders] at hi
    cases hi
  insertsItems i v w hi := by
    rw [hu.items] at hi
    cases hi
  lines := by rw [Table.pending_eq_nil hu.items, List.map_nil]
  orderId := by
    rw [Table.pending_eq_nil hu.items]
    exact fun r hr => absurd hr List.not_mem_nil
  cart := hu.cart
  commits := hu.commits

theorem selectProductForUpdate_does (p : Nat) :
    Does req d₀ strict c (Placing c o lines (fun _ => 0) K) (query (.selectProductForUpdate p))
      (fun v d => Placing c o lines (fun _ => 0) K d ∧
        ∀ row, (v : Option CatalogProduct) = some row → Holding c p row d)
      (fun d => d.commits c = []) := by
  refine query_does (by simp) Placing.steady ?_ uncommitted_steady (fun d h => h.commits) ?_
  · intro v d d' hr _ ⟨hp, hh⟩
    exact ⟨hp.of_rely hr, fun row hv => (hh row hv).of_rely hr⟩
  · intro now d v d' hi _ hp hx
    simp only [exec] at hx
    split at hx
    · cases hx
      exact ⟨hp, fun row hv => by cases hv⟩
    · rename_i row hv
      split at hx
      · cases hx
        exact ⟨hp, fun row hv => by cases hv⟩
      · split at hx
        · cases hx
          refine ⟨hp.lock hi hv, fun row' he => ?_⟩
          cases he
          exact (hp.balanced.lock hi hv).2
        · cases hx

variable (K lines row) in
theorem insertOrderItem_does (item : OrderLine) (price : String) :
    Does req d₀ strict c
      (fun d => Placing c o lines (fun _ => 0) K d ∧ Holding c item.productId row d)
      (query (.insertOrderItem o.id item.productId item.quantity price))
      (fun _ d => Placing c o (lines ++ [item])
        (fun j => if j = item.productId then item.quantity else 0) K d ∧
        Holding c item.productId row d)
      (fun d => d.commits c = []) := by
  refine query_does (by simp) ?_ (fun _ => ?_) uncommitted_steady (fun d h => h.1.commits) ?_
  · exact fun d d' hr _ h => ⟨h.1.of_rely hr, h.2.of_rely hr⟩
  · exact fun d d' hr _ h => ⟨h.1.of_rely hr, h.2.of_rely hr⟩
  · intro now d v d' _ _ ⟨hp, hh⟩ hx
    simp only [exec] at hx
    split at hx
    · cases hx
    · split at hx
      · cases hx
      · cases hx
        have hins := hp.insertItem (r := ⟨d.items.next, o.id, item.productId, item.quantity, price⟩) hh rfl
        exact ⟨hins, hh⟩

variable (row) in
theorem decrementAmount_does (p : Nat) (q : Int) :
    Does req d₀ strict c
      (fun d => Placing c o lines (fun j => if j = p then q else 0) K d ∧ Holding c p row d)
      (query (.decrementAmount q p)) (fun _ => Placing c o lines (fun _ => 0) K)
      (fun d => d.commits c = []) := by
  refine query_does (by simp) ?_ (fun _ => Placing.steady) uncommitted_steady
    (fun d h => h.1.commits) ?_
  · exact fun d d' hr _ h => ⟨h.1.of_rely hr, h.2.of_rely hr⟩
  · intro now d v d' _ _ ⟨hp, hh⟩ hx
    obtain ⟨w, hw⟩ := hh
    have hv : d.catalog.view c p = some row := Table.view_of_own hw
    simp only [exec, hv] at hx
    split at hx
    · cases hx
    · split at hx
      · cases hx
      · rename_i hq
        cases hx
        exact hp.decrement ⟨w, hw⟩ (by omega)

/-- The loop: each round locks a product, inserts an item and decrements the amount. -/
theorem orderLines_does (items : List OrderLine) :
    Does req d₀ strict c (Placing c o lines (fun _ => 0) K) (orderLines o.id items)
      (fun _ => Placing c o (lines ++ items) (fun _ => 0) K) (fun d => d.commits c = []) := by
  revert lines
  induction items with
  | nil =>
    intro lines
    rw [List.append_nil]
    exact pure_does Placing.steady fun _ => id
  | cons item rest ih =>
    intro lines
    refine Triple.bind (selectProductForUpdate_does item.productId) (fun product => ?_)
      uncommitted_steady
    cases product with
    | none => exact throw_does uncommitted_steady fun d h => h.1.commits
    | some row =>
      simp only
      split
      · exact throw_does uncommitted_steady fun d h => h.1.commits
      · split
        · exact throw_does uncommitted_steady fun d h => h.1.commits
        · refine Triple.bind ((insertOrderItem_does K lines row item row.price).pre ?_)
            (fun _ => ?_) uncommitted_steady
          · exact fun d h => ⟨h.1, h.2 row rfl⟩
          refine Triple.bind (decrementAmount_does row item.productId item.quantity)
            (fun _ => ?_) uncommitted_steady
          have hrest := @ih (lines ++ [item])
          rw [List.append_assoc] at hrest
          exact hrest

/-- `createOrderRecord` leaves one order of the user with an item for each line. -/
theorem createOrderRecord_does (drv : Driver) (userId : Nat) (deliveryAddress : String)
    (items : List OrderLine) :
    Does req d₀ strict c (Unordered c K) (createOrderRecord drv userId deliveryAddress items)
      (fun _ d => ∃ o, o.userId = userId ∧ Placing c o items (fun _ => 0) K d)
      (fun d => d.commits c = []) := by
  refine Triple.bind (Q := fun v d => ∃ o, o.id = v ∧ o.userId = userId ∧ Placing c o [] (fun _ => 0) K d)
    ?_ (fun orderId => ?_) uncommitted_steady
  · refine query_does (by simp) Unordered.steady ?_ uncommitted_steady (fun d h => h.commits) ?_
    · rintro v d d' hr _ ⟨o, hid, hu, hp⟩
      exact ⟨o, hid, hu, hp.of_rely hr⟩
    · intro now d v d' _ _ hu hx
      cases hx
      exact ⟨_, rfl, rfl, hu.insertOrder rfl⟩
  refine Triple.exists fun o => Triple.fact fun hid => Triple.fact fun hu => ?_
  subst hid
  refine Triple.bind (orderLines_does items) (fun _ => ?_) uncommitted_steady
  rw [List.nil_append]
  refine Triple.bind (Q := fun _ => Placing c o items (fun _ => 0) K) ?_ (fun _ => ?_) uncommitted_steady
  · refine query_keeps (by simp) Placing.steady uncommitted_steady (fun d h => h.commits) ?_
    intro now d v d' hx
    cases hx
    exact { Rely.refl with }
  refine Triple.bind (query_reads (by simp) Placing.steady uncommitted_steady
    (fun d h => h.commits) ?_) (fun _ => ?_) uncommitted_steady
  · intro now d v d' hx
    cases hx
    rfl
  refine Triple.bind (query_reads (by simp) Placing.steady uncommitted_steady
    (fun d h => h.commits) ?_) (fun _ => ?_) uncommitted_steady
  · intro now d v d' hx
    cases hx
    rfl
  refine Triple.bind (query_reads (by simp) Placing.steady uncommitted_steady
    (fun d h => h.commits) ?_) (fun _ => ?_) uncommitted_steady
  · intro now d v d' hx
    cases hx
    rfl
  refine pure_does ?_ fun d h => ⟨o, hu, h⟩
  exact fun d d' hr _ ⟨o, hu, hp⟩ => ⟨o, hu, hp.of_rely hr⟩

end Ordering
end Kayan.Shop
