import Kayan.Shop.Calls

/-!
# Stock

Amounts in every run: what was last set, less what was sold since. Nothing gives stock
back, so cancelled orders keep counting.
-/
namespace Kayan.Shop
open RowStore Interleave

variable {drv : Driver} {req : Client → Request} {d₀ : Db} {xs : List Taken} {s t : State}

/-- A shop with the given products, no orders and empty carts. -/
def stocked (products : List CatalogProduct) : Db where
  catalog := .ofRows products
  orders := .ofRows []
  items := .ofRows []
  history := .ofRows []
  cart := .ofRows []
  users _ := none
  assets := []
  amountSet _ := []
  log := []
  added _ _ := 0

theorem stocked_quiet {products : List CatalogProduct} (h : ∀ row ∈ products, 0 ≤ row.amount) :
    Quiet (stocked products) where
  catalog _ := rfl
  orders _ := rfl
  items _ := rfl
  cart _ := rfl
  amount p row hp := h row (List.mem_of_getElem? hp)
  orderRef r hr := absurd hr List.not_mem_nil
  cartRow i r hi := by cases hi
  amountSet _ := rfl
  log := rfl
  added _ _ := rfl

/-- The committed tables are those of the initial store and of the committed transactions:
every amount is nonnegative and is what was set last less the quantities of the order items
committed since, and there are no other items and orders than those published. -/
structure Accounted (req : Client → Request) (d₀ d : Db) : Prop where
  stock : ∀ p row, d.catalog.committed p = some row → 0 ≤ row.amount ∧
    ∃ a, lastSet ((d₀.catalog.committed p).map (·.amount)) p d.log = some a ∧
      row.amount = a - soldSince p d.log
  items : d.items.committedRows.Perm (d.log.flatMap (·.items) ++ d₀.items.committedRows)
  orders : (d.orders.committedRows.map fun o => (o.id, o.userId)).Perm
    ((d.log.flatMap (·.orders) ++ d₀.orders.committedRows).map fun o => (o.id, o.userId))
  published : ∀ x ∈ d.log, Published req False x

theorem accounted_run (hq : Quiet d₀) (hr : Trace.Run (Step act) (initial drv req d₀) xs t) :
    Accounted req d₀ t.db := by
  have hi : Inv req d₀ False t.db := (run_safe hq hr).1
  exact ⟨hi.stock, hi.items, hi.orders, hi.published⟩

/-- A call that failed is not among the committed transactions. -/
theorem failed_not_logged (hq : Quiet d₀) (hr : Trace.Run (Step act) (initial drv req d₀) xs t)
    {c : Client} {e : Failure} (hp : t.prog c = .ret (.error e)) : ∀ x ∈ t.db.log, x.client ≠ c := by
  intro x hx hc
  have hmem : x ∈ t.db.commits c := List.mem_filter.mpr ⟨hx, by simpa using hc⟩
  rw [(run_failed hq hr hp).commits] at hmem
  cases hmem

/-- Whatever calls run and however their statements interleave, the committed tables are
accounted for by the committed transactions, and a call that failed is none of them. -/
theorem stock_conserved (hq : Quiet d₀) (hr : Trace.Run (Step act) (initial drv req d₀) xs t) :
    Accounted req d₀ t.db ∧ ∀ c e, t.prog c = .ret (.error e) → ∀ x ∈ t.db.log, x.client ≠ c :=
  ⟨accounted_run hq hr, fun _ _ hp => failed_not_logged hq hr hp⟩

/-- So many statements of a client in a row, for each entry. -/
def turns (l : List (Client × Nat)) : List (Client × Move) :=
  l.flatMap fun x => List.replicate x.2 (x.1, .run 0)

def plainDriver : Driver := ⟨fun n => toString n, fun _ => "", fun _ => ""⟩

/-- Plays the turns from the initial state. -/
def playTurns (req : Client → Request) (d : Db) (l : List (Client × Nat)) : Option State :=
  play act (fun _ _ _ _ => true) (turns l) (initial plainDriver req d)

theorem playTurns_run {d : Db} {l : List (Client × Nat)} {β : Type} {f : State → β} {b : β}
    (h : (playTurns req d l).map f = some b) :
    ∃ xs t, Trace.Run (Step act) (initial plainDriver req d) xs t ∧ f t = b := by
  obtain ⟨xs, t, hr, hb⟩ := play_run h
  exact ⟨xs, t, hr.mono fun _ _ _ h => h.1, hb⟩

/-- Five lamps. -/
def lamps : Db := stocked [{ title := "Lamp", description := "", amount := 5, price := "10.00" }]

theorem lamps_quiet : Quiet lamps := stocked_quiet (by decide)

/-- Two orders that compete for the lamps, and two calls that cancel the first order. -/
def rush : Client → Request
  | 0 => .createOrder 1 "Giza" [⟨0, 2⟩, ⟨0, 1⟩]
  | 1 => .createOrder 2 "Cairo" [⟨0, 4⟩]
  | 2 => .cancelOrder 1 0
  | _ => .adminUpdateOrderStatus 9 0 .cancelled

/-- The call of a client has returned a result. -/
def succeeded (c : Client) (t : State) : Bool :=
  match t.prog c with
  | .ret (.ok _) => true
  | _ => false

/-- What the call of a client has thrown. -/
def failure (c : Client) (t : State) : Option Failure :=
  match t.prog c with
  | .ret (.error e) => some e
  | _ => none

/-- What is left of the lamps, and the state of each order. -/
def outlook (t : State) : Option Int × List OrderStatus :=
  ((t.db.catalog.committed 0).map (·.amount), t.db.orders.committedRows.map (·.status))

/-- The second order finds the lamps locked, reads the amount again and is rolled back. -/
theorem stock_conserved_rush :
    ∃ xs t, Trace.Run (Step act) (initial plainDriver rush lamps) xs t ∧
      outlook t = (some 2, [.received]) ∧ succeeded 0 t ∧
      failure 1 t = some (.badRequest "Insufficient product amount for 0") ∧
      Accounted rush lamps t.db := by
  have hplay : (playTurns rush lamps [(0, 2), (1, 2), (0, 11), (1, 2)]).map
      (fun t => (outlook t, succeeded 0 t, failure 1 t)) =
      some ((some 2, [.received]), true, some (.badRequest "Insufficient product amount for 0")) := by
    decide +kernel
  obtain ⟨xs, t, hr, ho⟩ := playTurns_run hplay
  simp only [Prod.mk.injEq] at ho
  exact ⟨xs, t, hr, ho.1, ho.2.1, ho.2.2, (stock_conserved lamps_quiet hr).1⟩

/-- The quantity of a product in the items of orders that are not cancelled. -/
def liveQuantity (p : Nat) (d : Db) : Int :=
  quantityOf p (d.items.committedRows.filter fun r =>
    (d.orders.committed r.orderId).any fun o => o.status ≠ .cancelled)

/-- Three of the five lamps are ordered, and the order is cancelled: then no live order has a lamp,
and still only two are left. -/
def LeavesTwo (canceller : Client) : Prop := ∃ xs t,
  Trace.Run (Step act) (initial plainDriver rush lamps) xs t ∧
    (lamps.catalog.committed 0).map (·.amount) = some 5 ∧ succeeded 0 t ∧ succeeded canceller t ∧
    outlook t = (some 2, [.cancelled]) ∧ liveQuantity 0 t.db = 0 ∧
    ¬ ∀ row, t.db.catalog.committed 0 = some row → row.amount = 5 - liveQuantity 0 t.db

theorem leavesTwo_of_mem {canceller : Client} (hmem : canceller ∈ [2, 3]) : LeavesTwo canceller := by
  have hplay : ((playTurns rush lamps [(0, 13), (canceller, 7 - canceller)]).map
      fun t => ((succeeded 0 t, succeeded canceller t), outlook t, liveQuantity 0 t.db)) =
      some ((true, true), (some 2, [.cancelled]), 0) := by
    revert canceller
    decide +kernel
  obtain ⟨xs, t, hr, ho⟩ := playTurns_run hplay
  simp only [Prod.mk.injEq, outlook] at ho
  refine ⟨xs, t, hr, rfl, ho.1.1, ho.1.2, by simp [outlook, ho], ho.2.2, fun h => ?_⟩
  obtain ⟨row, hrow, hamount⟩ := Option.map_eq_some_iff.mp ho.2.1.1
  have hrow := h row hrow
  omega

/-- The order may be cancelled by its user or by the admin. -/
theorem cancelled_order_keeps_stock : LeavesTwo 2 ∧ LeavesTwo 3 :=
  ⟨leavesTwo_of_mem (by decide), leavesTwo_of_mem (by decide)⟩

section Cancellation

/-- The calls that set an amount. -/
def Request.setsAmount : Request → Bool
  | .adminCreateProduct _ | .adminUpdateProduct _ _ => true
  | _ => false

theorem lastSet_of_orders (start : Option Int) (p : Nat) {log : List Commit}
    (h : ∀ x ∈ log, x.sets = []) :
    lastSet start p log = start ∧ soldSince p log = quantityOf p (log.flatMap (·.items)) := by
  induction log with
  | nil => exact ⟨rfl, rfl⟩
  | cons x log ih =>
    obtain ⟨hset, hsold⟩ := ih fun y hy => h y (List.mem_cons_of_mem x hy)
    have hx := h x List.mem_cons_self
    refine ⟨by simpa [lastSet, hx] using hset, ?_⟩
    rw [soldSince, hx, List.flatMap_cons, quantityOf_append, hsold]
    simp

theorem sets_of_published {strict : Prop} {x : Commit} (h : Published req strict x)
    (hreq : (req x.client).setsAmount = false) : x.sets = [] := by
  unfold Published at h
  rcases hx : req x.client with ⟨u, a, items⟩ | ⟨u, a⟩ | ⟨u, p, q⟩ | dto | ⟨p, dto⟩ | ⟨u, o⟩ | ⟨a, o, st⟩ <;>
    simp only [hx] at h hreq
  · exact h.1
  · exact h.1
  · cases hreq
  · cases hreq

theorem quantityOf_perm {p : Nat} {items items' : List OrderItem} (h : items.Perm items') :
    quantityOf p items = quantityOf p items' :=
  (h.map _).sum_eq

/-- An order's state is written and nothing else. -/
theorem updateOrderRow_frame {i : Nat} {f : ProductOrder → ProductOrder} {d d' : Db} {x : Bool}
    (h : updateOrderRow i f d = some (x, d')) : ∃ orders, d' = { d with orders } := by
  unfold updateOrderRow at h
  split at h
  · cases h
    exact ⟨d.orders, rfl⟩
  · split at h <;> cases h
    exact ⟨_, rfl⟩

/-- Without admin edits, the amount of a product falls by every quantity that is ordered,
whatever becomes of the order; the statements that cancel an order write no amount. -/
theorem stock_never_released (hq : Quiet d₀) (hreq : ∀ c, (req c).setsAmount = false)
    (hr : Trace.Run (Step act) (initial drv req d₀) xs t) :
    (∀ p row, t.db.catalog.committed p = some row → ∃ row₀, d₀.catalog.committed p = some row₀ ∧
      row.amount = row₀.amount -
        (quantityOf p t.db.items.committedRows - quantityOf p d₀.items.committedRows)) ∧
    ∀ (s s' : State) (e : Taken) (i : Nat) (st : OrderStatus), Step act s e s' →
      e.stmt = .cancelOrderRow i ∨ e.stmt = .updateOrderStatus st i →
      s'.db.catalog = s.db.catalog ∧ s'.db.items = s.db.items := by
  have hi : Inv req d₀ False t.db := (run_safe hq hr).1
  have hsets : ∀ x ∈ t.db.log, x.sets = [] := fun x hx =>
    sets_of_published (hi.published x hx) (hreq x.client)
  refine ⟨fun p row hp => ?_, ?_⟩
  · obtain ⟨-, a, ha, he⟩ := hi.stock p row hp
    obtain ⟨hset, hsold⟩ := lastSet_of_orders ((d₀.catalog.committed p).map (·.amount)) p hsets
    rw [hset, Option.map_eq_some_iff] at ha
    obtain ⟨row₀, hrow, rfl⟩ := ha
    have hitems := quantityOf_perm (p := p) hi.items
    rw [quantityOf_append] at hitems
    exact ⟨row₀, hrow, by omega⟩
  · intro s s' e i st hs he
    cases hs with
    | @call m c q k r d hp ha =>
      cases m with
      | fail err =>
        obtain ⟨-, rfl⟩ := act_fail ha
        exact ⟨rfl, rfl⟩
      | run now =>
        rcases he with rfl | rfl
        · obtain ⟨⟨y, e⟩, hy, he⟩ := Option.map_eq_some_iff.mp ha
          cases he
          obtain ⟨orders, rfl⟩ := updateOrderRow_frame hy
          exact ⟨rfl, rfl⟩
        · obtain ⟨⟨y, e⟩, hy, he⟩ := Option.map_eq_some_iff.mp ha
          cases he
          obtain ⟨orders, rfl⟩ := updateOrderRow_frame hy
          exact ⟨rfl, rfl⟩

theorem stock_never_released_lamps : ∃ xs t,
    Trace.Run (Step act) (initial plainDriver rush lamps) xs t ∧ outlook t = (some 2, [.cancelled]) ∧
      ∀ p row, t.db.catalog.committed p = some row → ∃ row₀, lamps.catalog.committed p = some row₀ ∧
        row.amount = row₀.amount -
          (quantityOf p t.db.items.committedRows - quantityOf p lamps.items.committedRows) := by
  have hplay : ((playTurns rush lamps [(0, 13), (2, 5)]).map outlook) =
      some (some 2, [.cancelled]) := by decide +kernel
  obtain ⟨xs, t, hr, ho⟩ := playTurns_run hplay
  have hreq : ∀ c, (rush c).setsAmount = false := by
    intro c
    rcases c with _ | _ | _ | c <;> rfl
  exact ⟨xs, t, hr, ho, (stock_never_released lamps_quiet hreq hr).1⟩

end Cancellation
end Kayan.Shop
