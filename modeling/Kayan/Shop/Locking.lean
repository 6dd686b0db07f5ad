import Kayan.Lib.Monitor
import Kayan.Shop.Orders

/-!
# The locks of an order

Where a call that places an order is: which cart rows and products it has locked, and for which
it asks next. `createOrder` locks the products of its lines, `checkoutCart` first the rows of
the cart.
-/
namespace Kayan.Shop
open RowStore Interleave

/-- The user whose cart a call locks. -/
def Request.cartOwner : Request → Option Nat
  | .checkoutCart userId _ => some userId
  | _ => none

/-- How far a transaction is. -/
inductive Phase where
  /-- No transaction is open. -/
  | closed
  | opened
  /-- The cart rows that are locked, and the ids of those to come. -/
  | carting (rows : List CartItem) (todo : List Nat)
  /-- Between two rounds of the loop: the lines that are done, and those to come. -/
  | choosing (done rest : List OrderLine)
  /-- The product of the line is locked. -/
  | taking (done : List OrderLine) (item : OrderLine) (rest : List OrderLine)
  /-- The item of the line is inserted as well. -/
  | paying (done : List OrderLine) (item : OrderLine) (rest : List OrderLine)
  | deleting (done : List OrderLine) (ids : List Nat)
  /-- A line has been refused. -/
  | refused

/-- A call and how far it is. -/
structure Stage where
  req : Request
  phase : Phase := .closed

/-- The phase after a statement has replied. -/
def Phase.next (req : Request) : Phase → (q : Stmt) → Reply q → Phase
  | _, .rollback, _ => .closed
  | _, .commit, _ => .closed
  | .closed, .begin, _ => .opened
  | .opened, .snapshotCart _, ids => .carting [] ids
  | .opened, .insertOrder _ _, _ =>
    match req with
    | .createOrder _ _ items => .choosing [] items
    | _ => .choosing [] []
  | .carting rows todo, .lockCartRow _ _, row => .carting (rows ++ Option.toList row) todo.tail
  | .carting rows _, .insertOrder _ _, _ => .choosing [] (rows.map CartItem.line)
  | .choosing done (item :: rest), .selectProductForUpdate _, product =>
    if refuses item product then .refused else .taking done item rest
  | .taking done item rest, .insertOrderItem _ _ _ _, _ => .paying done item rest
  | .paying done item rest, .decrementAmount _ _, _ => .choosing (done ++ [item]) rest
  | .choosing done _, .snapshotDelete _, ids => .deleting done ids
  | .deleting done ids, .deleteCartRow _ _, _ => .deleting done ids.tail
  | phase, _, _ => phase

/-- A statement that fails leaves the call where it is. -/
def Stage.after (x : Stage) (q : Stmt) : Answer q → Stage
  | .ok v => { x with phase := x.phase.next x.req q v }
  | .error _ => x

/-- The statements that a call may issue. -/
inductive Phase.May (req : Request) : Phase → Stmt → Prop
  | rollback {x : Phase} : May req x .rollback
  | begin : May req .closed .begin
  | insertOrder {userId : Nat} {deliveryAddress : String} (h : req.cartOwner = none) :
      May req .opened (.insertOrder userId deliveryAddress)
  | snapshotCart {userId : Nat} (h : req.cartOwner = some userId) : May req .opened (.snapshotCart userId)
  | lockCartRow {rows : List CartItem} {i : Nat} {ids : List Nat} {userId : Nat} (h : req.cartOwner = some userId) :
      May req (.carting rows (i :: ids)) (.lockCartRow i userId)
  | orderCart {rows : List CartItem} {userId : Nat} {deliveryAddress : String} (h : rows ≠ []) :
      May req (.carting rows []) (.insertOrder userId deliveryAddress)
  | selectProduct {done rest : List OrderLine} {item : OrderLine} :
      May req (.choosing done (item :: rest)) (.selectProductForUpdate item.productId)
  | insertOrderItem {done rest : List OrderLine} {item : OrderLine} {orderId : Nat} {price : String} :
      May req (.taking done item rest) (.insertOrderItem orderId item.productId item.quantity price)
  | decrementAmount {done rest : List OrderLine} {item : OrderLine} :
      May req (.paying done item rest) (.decrementAmount item.quantity item.productId)
  | insertHistory {done : List OrderLine} {orderId changedBy : Nat} {status : OrderStatus} :
      May req (.choosing done []) (.insertOrderHistory .client orderId status changedBy)
  | selectOrderItems {done : List OrderLine} {ids : List Nat} : May req (.choosing done []) (.selectOrderItems .client ids)
  | dateNow {done : List OrderLine} : May req (.choosing done []) .dateNow
  | commit {done : List OrderLine} (h : req.cartOwner = none) : May req (.choosing done []) .commit
  | snapshotDelete {done : List OrderLine} {userId : Nat} (h : req.cartOwner = some userId) :
      May req (.choosing done []) (.snapshotDelete userId)
  | deleteCartRow {done : List OrderLine} {i : Nat} {ids : List Nat} {userId : Nat} (h : req.cartOwner = some userId) :
      May req (.deleting done (i :: ids)) (.deleteCartRow i userId)
  | commitCart {done : List OrderLine} (h : req.cartOwner ≠ none) : May req (.deleting done []) .commit

/-- The protocol of the calls that place orders. -/
abbrev placing : Protocol Stmt Answer Stage := monitored (fun x => x.phase.May x.req) Stage.after

section Keeps
variable {x : Stage} {req : Request} {α : Type} {E : Stage → Prop} {drv : Driver} {userId orderId : Nat}
  {deliveryAddress : String} {done rest items : List OrderLine} {rows : List CartItem} {ids : List Nat}

/-- The call is at some phase. -/
def Runs (req : Request) (x : Stage) : Prop := x.req = req

/-- The call has reached a phase. -/
def Reaches (req : Request) (p : Phase) (_ : α) (x : Stage) : Prop := x = ⟨req, p⟩

/-- A statement that may be issued leads to the phase after its reply. -/
theorem query_follows {p : Phase} {q : Stmt} {f : Reply q → Code α} {Q : α → Stage → Prop} (hm : p.May req q)
    (h : ∀ v, Keeps placing ⟨req, p.next req q v⟩ (f v) Q (Runs req)) :
    Keeps placing ⟨req, p⟩ (query q >>= f) Q (Runs req) := by
  refine Keeps.bind (Q := fun v y => y = ⟨req, p.next req q v⟩) (Keeps.await fun r => ?_) fun v y hy => ?_
  · refine ⟨Stage.after ⟨req, p⟩ q r, ⟨hm, rfl⟩, ?_⟩
    cases r with
    | ok v => exact rfl
    | error e => exact rfl
  · subst hy
    exact h v

/-- The loop locks the products of its lines one after the other. -/
theorem orderLines_follows : Keeps placing ⟨req, .choosing done rest⟩ (orderLines orderId rest)
    (Reaches req (.choosing (done ++ rest) [])) (Runs req) := by
  induction rest generalizing done with
  | nil =>
    rw [List.append_nil]
    exact Keeps.pure rfl
  | cons item rest ih =>
    refine query_follows .selectProduct fun product => ?_
    cases product with
    | none => exact Keeps.throw rfl
    | some row =>
      dsimp only
      split
      · exact Keeps.throw rfl
      · rename_i hact
        split
        · exact Keeps.throw rfl
        · rename_i hless
          have hpass : refuses item (some row) = false := by
            rw [refuses, Bool.or_eq_false_iff, decide_eq_false_iff_not]
            exact ⟨by simpa using hact, hless⟩
          have hnext : Phase.next req (.choosing done (item :: rest)) (.selectProductForUpdate item.productId)
              (some row) = .taking done item rest := if_neg (by simp [hpass])
          rw [hnext]
          refine query_follows .insertOrderItem fun _ => ?_
          refine query_follows .decrementAmount fun _ => ?_
          have hrest := @ih (done ++ [item])
          rw [List.append_assoc] at hrest
          exact hrest

/-- `createOrderRecord`, from where its order row is to be inserted. -/
theorem createOrderRecord_follows {p : Phase} (hm : p.May req (.insertOrder userId deliveryAddress))
    (hn : ∀ v, p.next req (.insertOrder userId deliveryAddress) v = .choosing [] items) :
    Keeps placing ⟨req, p⟩ (createOrderRecord drv userId deliveryAddress items)
      (Reaches req (.choosing items [])) (Runs req) := by
  refine query_follows hm fun orderId => ?_
  rw [hn orderId]
  refine Keeps.bind orderLines_follows fun _ y hy => ?_
  cases hy
  refine query_follows .insertHistory fun _ => ?_
  refine query_follows .selectOrderItems fun _ => ?_
  refine query_follows .dateNow fun _ => ?_
  exact query_follows .dateNow fun _ => Keeps.pure rfl

theorem lockCartRows_follows (h : req.cartOwner = some userId) :
    Keeps placing ⟨req, .carting rows ids⟩ (lockCartRows userId ids)
      (fun more => Reaches req (.carting (rows ++ more) []) more) (Runs req) := by
  induction ids generalizing rows with
  | nil => exact Keeps.pure (by rw [Reaches, List.append_nil])
  | cons i ids ih =>
    refine query_follows (.lockCartRow h) fun row => ?_
    refine Keeps.bind ih fun more y hy => ?_
    cases hy
    exact Keeps.pure (by rw [Reaches, List.append_assoc])

theorem deleteCartRows_follows (h : req.cartOwner = some userId) :
    Keeps placing ⟨req, .deleting done ids⟩ (deleteCartRows userId ids)
      (Reaches req (.deleting done [])) (Runs req) := by
  induction ids with
  | nil => exact Keeps.pure rfl
  | cons i ids ih => exact query_follows (.deleteCartRow h) fun _ => ih

/-- A transaction may commit where its code ends. -/
def Commits (req : Request) (_ : α) (x : Stage) : Prop := ∃ p : Phase, x = ⟨req, p⟩ ∧ p.May req .commit

theorem withTransaction_follows {code : Code α} (h : Keeps placing ⟨req, .opened⟩ code (Commits req) (Runs req)) :
    Keeps placing ⟨req, .closed⟩ (withTransaction code) (fun _ => Runs req) (Runs req) := by
  have hbody : Keeps placing ⟨req, .closed⟩ (do
      query .begin
      let result ← code
      query .commit
      pure result : Code α) (fun _ => Runs req) (Runs req) := by
    refine query_follows .begin fun _ => ?_
    refine Keeps.bind h fun a y hy => ?_
    obtain ⟨p, rfl, hm⟩ := hy
    exact query_follows hm fun _ => Keeps.pure rfl
  refine Keeps.catch hbody fun e y hy => ?_
  obtain ⟨r, p⟩ := y
  cases hy
  exact query_follows .rollback fun _ => Keeps.throw rfl

theorem createOrder_follows : Keeps placing ⟨.createOrder userId deliveryAddress items, .closed⟩
    (createOrder drv userId deliveryAddress items) (fun _ => Runs (.createOrder userId deliveryAddress items))
    (Runs (.createOrder userId deliveryAddress items)) := by
  unfold createOrder
  split
  · exact Keeps.throw rfl
  · refine withTransaction_follows (Keeps.mono (createOrderRecord_follows (.insertOrder rfl) fun _ => rfl) ?_ fun _ => id)
    exact fun a y hy => ⟨_, hy, .commit rfl⟩

theorem checkoutRows_follows (h : req.cartOwner = some userId) :
    Keeps placing ⟨req, .carting rows []⟩ (checkoutRows drv userId deliveryAddress rows) (Commits req) (Runs req) := by
  unfold checkoutRows
  split
  · exact Keeps.throw rfl
  · rename_i hne
    refine Keeps.bind (createOrderRecord_follows (.orderCart (by simpa using hne)) fun _ => rfl) fun order y hy => ?_
    cases hy
    refine Keeps.bind (Q := Reaches req (.deleting (rows.map CartItem.line) []))
      (query_follows (.snapshotDelete h) fun ids => deleteCartRows_follows h) fun _ y hy => ?_
    cases hy
    exact Keeps.pure ⟨_, rfl, .commitCart (by simp [h])⟩

theorem checkoutCart_follows : Keeps placing ⟨.checkoutCart userId deliveryAddress, .closed⟩
    (checkoutCart drv userId deliveryAddress) (fun _ => Runs (.checkoutCart userId deliveryAddress))
    (Runs (.checkoutCart userId deliveryAddress)) := by
  refine withTransaction_follows ?_
  refine Keeps.bind (Q := fun rows => Reaches (.checkoutCart userId deliveryAddress) (.carting rows []) rows) ?_
    fun rows y hy => ?_
  · exact query_follows (.snapshotCart rfl) fun ids => lockCartRows_follows rfl
  · cases hy
    exact checkoutRows_follows rfl

end Keeps

/-- Calls that place orders keep to the protocol. -/
theorem initial_placing {drv : Driver} {req : Client → Request} {d : Db} (hreq : ∀ c, (req c).buyer.isSome) :
    InPhase placing (fun _ _ => True) (fun c => ⟨req c, .closed⟩) (initial drv req d) := by
  intro c
  have hc := hreq c
  change Follows placing _ ((req c).code drv).run ⟨req c, .closed⟩
  rcases hr : req c with ⟨u, a, items⟩ | ⟨u, a⟩ | _ | _ | _ | _ | _ <;>
    simp only [hr, Request.buyer, Option.isSome, Bool.false_eq_true] at hc
  · exact Follows.mono createOrder_follows fun _ _ _ => trivial
  · exact Follows.mono checkoutCart_follows fun _ _ _ => trivial

end Kayan.Shop
