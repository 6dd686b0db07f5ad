import Kayan.Items.Settled
import Kayan.Lib.Confined

/-!
# Which calls set which statuses

Apart from cancellations, the one status that a call sets is the one that its admin asks for. An item that no
longer has its first status therefore keeps it in every call by which no admin gives it another one.
-/
namespace Kayan.Items
open Interleave RowStore Shop Reads Bookkeeping

variable {drv : Driver} {α : Type}

/-- The item and the status that an admin asks for. -/
def Request.sets : Request → Option (Item × Status)
  | .shop (.adminUpdateOrderStatus _ orderId status) => some (⟨.order, orderId⟩, .order status)
  | .adminUpdateFaultStatus _ faultId status => some (⟨.fault, faultId⟩, .fault status)
  | .adminUpdateServiceStatus _ serviceId status => some (⟨.service, serviceId⟩, .service status)
  | _ => none

/-- A statement that sets no status, except for a cancellation. -/
def Stmt.Unset (q : Stmt) : Prop := ∀ x s, q.sets ≠ some (x, s, false)

section Shop

theorem unset_orderLines {orderId : Nat} {items : List OrderLine} :
    Confined (fun q => (Stmt.shop q).Unset) (orderLines orderId items) := by
  induction items with
  | nil => exact Confined.pure
  | cons item rest ih =>
    refine Confined.bind (Confined.await nofun) fun product => ?_
    rcases product with - | row
    · exact Confined.throw
    · dsimp only
      split
      · exact Confined.throw
      · split
        · exact Confined.throw
        · exact Confined.bind (Confined.await nofun) fun _ => Confined.bind (Confined.await nofun) fun _ => ih

theorem unset_createOrderRecord {userId : Nat} {deliveryAddress : String} {items : List OrderLine} :
    Confined (fun q => (Stmt.shop q).Unset) (createOrderRecord drv userId deliveryAddress items) := by
  refine Confined.bind (Confined.await nofun) fun orderId => ?_
  refine Confined.bind unset_orderLines fun _ => ?_
  refine Confined.bind (Confined.await nofun) fun _ => Confined.bind (Confined.await nofun) fun rows => ?_
  exact Confined.bind (Confined.await nofun) fun _ => Confined.bind (Confined.await nofun) fun _ => Confined.pure

theorem unset_lockCartRows {userId : Nat} {ids : List Nat} :
    Confined (fun q => (Stmt.shop q).Unset) (lockCartRows userId ids) := by
  induction ids with
  | nil => exact Confined.pure
  | cons i ids ih => exact Confined.bind (Confined.await nofun) fun _ => Confined.bind ih fun _ => Confined.pure

theorem unset_deleteCartRows {userId : Nat} {ids : List Nat} :
    Confined (fun q => (Stmt.shop q).Unset) (deleteCartRows userId ids) := by
  induction ids with
  | nil => exact Confined.pure
  | cons i ids ih => exact Confined.bind (Confined.await nofun) fun _ => ih

theorem unset_getOrder {userId orderId : Nat} {allowAdmin : Bool} :
    Confined (fun q => (Stmt.shop q).Unset) (Shop.getOrderForUser drv userId orderId allowAdmin) := by
  refine Confined.bind (Confined.await nofun) fun row => ?_
  rcases row with - | row
  · exact Confined.throw
  · dsimp only
    split
    · exact Confined.throw
    · exact Confined.bind (Confined.await nofun) fun _ => Confined.pure

theorem unset_shopTransaction {code : Shop.Code α} (h : Confined (fun q => (Stmt.shop q).Unset) code) :
    Confined (fun q => (Stmt.shop q).Unset) (Shop.withTransaction code) :=
  Confined.transaction nofun nofun nofun h

theorem unset_createOrder {userId : Nat} {deliveryAddress : String} {items : List OrderLine} :
    Confined (fun q => (Stmt.shop q).Unset) (Shop.createOrder drv userId deliveryAddress items) := by
  unfold Shop.createOrder
  split
  · exact Confined.throw
  · exact unset_shopTransaction unset_createOrderRecord

theorem unset_checkoutCart {userId : Nat} {deliveryAddress : String} :
    Confined (fun q => (Stmt.shop q).Unset) (Shop.checkoutCart drv userId deliveryAddress) := by
  refine unset_shopTransaction (Confined.bind ?_ fun cart => ?_)
  · exact Confined.bind (Confined.await nofun) fun _ => unset_lockCartRows
  · unfold checkoutRows
    split
    · exact Confined.throw
    · refine Confined.bind unset_createOrderRecord fun order => Confined.bind ?_ fun _ => Confined.pure
      exact Confined.bind (Confined.await nofun) fun _ => unset_deleteCartRows

theorem unset_addCartItem {userId productId : Nat} {quantity : Int} :
    Confined (fun q => (Stmt.shop q).Unset) (Shop.addCartItem drv userId productId quantity) := by
  refine Confined.bind ?_ fun _ => Confined.bind (Confined.await nofun) fun _ => ?_
  · refine Confined.bind (Confined.await nofun) fun product => ?_
    rcases product with - | row
    · exact Confined.throw
    · dsimp only
      split
      · exact Confined.throw
      · split
        · exact Confined.throw
        · exact Confined.pure
  · refine Confined.bind (Confined.await nofun) fun rows => ?_
    split
    · exact Confined.pure
    · exact Confined.bind (Confined.await nofun) fun _ => Confined.pure

theorem unset_cancelOrder {userId orderId : Nat} :
    Confined (fun q => (Stmt.shop q).Unset) (Shop.cancelOrder drv userId orderId) := by
  refine Confined.bind (Confined.await nofun) fun status => ?_
  rcases status with - | status
  · exact Confined.throw
  · dsimp only
    split
    · exact Confined.throw
    · refine Confined.bind (Confined.await ?_) fun _ => Confined.bind (Confined.await nofun) fun _ => unset_getOrder
      rintro x s h
      cases h

/-- A call on the shop sets the status that its admin asks for. -/
theorem shopRequest_sets (req : Shop.Request) :
    Confined (fun q => ∀ x s, (Stmt.shop q).sets = some (x, s, false) → (Request.shop req).sets = some (x, s))
      (req.code drv) := by
  cases req with
  | createOrder => exact unset_createOrder.mono fun q h x s hs => absurd hs (h x s)
  | checkoutCart => exact unset_checkoutCart.mono fun q h x s hs => absurd hs (h x s)
  | addCartItem => exact unset_addCartItem.mono fun q h x s hs => absurd hs (h x s)
  | cancelOrder => exact unset_cancelOrder.mono fun q h x s hs => absurd hs (h x s)
  | adminCreateProduct dto =>
    refine Confined.bind (Confined.transaction nofun nofun nofun ?_) fun _ => Confined.pure
    exact Confined.await nofun
  | adminUpdateProduct productId dto =>
    refine Confined.bind (Confined.transaction nofun nofun nofun ?_) fun _ => Confined.pure
    refine Confined.bind (Confined.await nofun) fun updated => ?_
    cases updated with
    | false => exact Confined.throw
    | true => exact Confined.pure
  | adminUpdateOrderStatus adminId orderId status =>
    refine Confined.bind (Confined.await ?_) fun updated => ?_
    · intro x s h
      cases h
      rfl
    · cases updated with
      | false => exact Confined.throw
      | true => exact Confined.bind (Confined.await nofun) fun _ => unset_getOrder.mono fun q h x s hs => absurd hs (h x s)

end Shop

section Faults
variable {userId faultId : Nat}

theorem unset_ofShop {code : Shop.Code α} (h : Confined (fun q => (Stmt.shop q).Unset) code) :
    Confined Stmt.Unset (ofShop code) :=
  Issues.embed h

theorem unset_transaction {code : Code α} (h : Confined Stmt.Unset code) : Confined Stmt.Unset (withTransaction code) :=
  Confined.transaction nofun nofun nofun h

theorem unset_getFault {ex : Executor} {allowAdmin : Bool} :
    Confined Stmt.Unset (getFaultForUserWithExecutor drv ex userId faultId allowAdmin) := by
  refine Confined.bind (Confined.await nofun) fun row => ?_
  rcases row with - | row
  · exact Confined.throw
  · dsimp only
    split
    · exact Confined.throw
    · exact Confined.bind (Confined.await nofun) fun _ => Confined.pure

theorem unset_insertFaultAssets {i : Nat} {fileIds : List Int} :
    Confined Stmt.Unset (insertFaultAssets faultId i fileIds) := by
  induction fileIds generalizing i with
  | nil => exact Confined.pure
  | cons fileId rest ih => exact Confined.bind (Confined.await nofun) fun _ => ih

theorem unset_syncFaultAssets {fileIds : List Int} : Confined Stmt.Unset (syncFaultAssets faultId fileIds) := by
  refine Confined.bind ?_ fun _ => Confined.bind (Confined.await nofun) fun _ => unset_insertFaultAssets
  unfold assertValidFaultImageFiles
  split
  · exact Confined.pure
  · refine Confined.bind (Confined.await nofun) fun rows => ?_
    split
    · exact Confined.throw
    · exact Confined.pure

theorem unset_createFault {dto : CreateFaultDto} : Confined Stmt.Unset (createFault drv userId dto) := by
  refine unset_transaction (Confined.bind (Confined.await nofun) fun faultId => ?_)
  exact Confined.bind unset_syncFaultAssets fun _ => Confined.bind (Confined.await nofun) fun _ => unset_getFault

theorem unset_updateFault {dto : UpdateFaultDto} : Confined Stmt.Unset (updateFault drv userId faultId dto) := by
  refine unset_transaction (Confined.bind (Confined.await nofun) fun status => ?_)
  rcases status with - | status
  · exact Confined.throw
  · dsimp only
    split
    · exact Confined.throw
    · refine Confined.bind (Confined.await nofun) fun _ => ?_
      cases dto.imageFileIds with
      | none => exact unset_getFault
      | some fileIds => exact Confined.bind unset_syncFaultAssets fun _ => unset_getFault

theorem unset_cancelFault : Confined Stmt.Unset (cancelFault drv userId faultId) := by
  refine Confined.bind (Confined.await nofun) fun status => ?_
  rcases status with - | status
  · exact Confined.throw
  · dsimp only
    split
    · exact Confined.throw
    · refine Confined.bind (Confined.await ?_) fun _ => Confined.bind (Confined.await nofun) fun _ => unset_getFault
      rintro x s h
      cases h

end Faults

section Services
variable {userId serviceId : Nat}

theorem unset_getService {allowAdmin : Bool} :
    Confined Stmt.Unset (getServiceForUser drv userId serviceId allowAdmin) := by
  refine Confined.bind (Confined.await nofun) fun row => ?_
  rcases row with - | row
  · exact Confined.throw
  · dsimp only
    split
    · exact Confined.throw
    · exact Confined.pure

theorem unset_updateOrderAddress {orderId : Nat} {deliveryAddress : String} :
    Confined Stmt.Unset (updateOrderAddress drv userId orderId deliveryAddress) := by
  refine Confined.bind (Confined.await nofun) fun status => ?_
  rcases status with - | status
  · exact Confined.throw
  · dsimp only
    split
    · exact Confined.throw
    · exact Confined.bind (Confined.await nofun) fun _ => unset_ofShop unset_getOrder

theorem unset_updateService {dto : UpdateServiceOrderDto} :
    Confined Stmt.Unset (updateService drv userId serviceId dto) := by
  refine Confined.bind (Confined.await nofun) fun status => ?_
  rcases status with - | status
  · exact Confined.throw
  · dsimp only
    split
    · exact Confined.throw
    · exact Confined.bind (Confined.await nofun) fun _ => unset_getService

theorem unset_cancelService : Confined Stmt.Unset (cancelService drv userId serviceId) := by
  refine Confined.bind (Confined.await nofun) fun status => ?_
  rcases status with - | status
  · exact Confined.throw
  · dsimp only
    split
    · exact Confined.throw
    · refine Confined.bind (Confined.await ?_) fun _ => Confined.bind (Confined.await nofun) fun _ => unset_getService
      rintro x s h
      cases h

end Services

section Calls
variable {c : Client} {d d' : Db} {x : Item} {s : Status} {u : Nat}

/-- A call sets the status that its admin asks for. -/
theorem request_sets (req : Request) :
    Confined (fun q => ∀ x s, q.sets = some (x, s, false) → req.sets = some (x, s)) (req.code drv) := by
  have hunset {code : Code Payload} (h : Confined Stmt.Unset code) :
      Confined (fun q => ∀ x s, q.sets = some (x, s, false) → req.sets = some (x, s)) code :=
    h.mono fun q h x s hs => absurd hs (h x s)
  cases req with
  | shop req => exact Issues.embed (shopRequest_sets req)
  | updateOrderAddress => exact hunset unset_updateOrderAddress
  | createFault => exact hunset unset_createFault
  | updateFault => exact hunset unset_updateFault
  | cancelFault => exact hunset unset_cancelFault
  | createService userId dto =>
    exact hunset (Confined.bind (Confined.await nofun) fun _ => Confined.bind (Confined.await nofun) fun _ => Confined.pure)
  | updateService => exact hunset unset_updateService
  | cancelService => exact hunset unset_cancelService
  | adminUpdateFaultStatus adminId faultId status =>
    refine Confined.bind (Confined.await nofun) fun current => ?_
    rcases current with - | current
    · exact Confined.throw
    · refine Confined.bind ?_ fun _ => Confined.bind (Confined.await ?_) fun _ => ?_
      · unfold assertValidFaultTransition
        split
        · exact Confined.pure
        · split
          · exact Confined.throw
          · exact Confined.pure
      · intro x s h
        cases h
        rfl
      · exact Confined.bind (Confined.await nofun) fun _ => hunset unset_getFault
  | adminUpdateServiceStatus adminId serviceId status =>
    refine Confined.bind (Confined.await ?_) fun updated => ?_
    · intro x s h
      cases h
      rfl
    · cases updated with
      | false => exact Confined.throw
      | true => exact Confined.bind (Confined.await nofun) fun _ => hunset unset_getService

/-- An order or a service that no longer has its first status keeps it in a call by which no admin gives it
another one. -/
theorem settled_stays {req : Request} {r : Except Failure Payload} (hx : x.type ≠ .fault) (hs : s ≠ x.initial)
    (hreq : ∀ t, req.sets = some (x, t) → t = s) (h : Settled x s u .idle d)
    (hr : Runs (acts c) (req.code drv).run d r d') : Settled x s u .idle d' := by
  have hkeeps : Keeps calls .idle (req.code drv) (fun _ y => y.ended = true) fun y => y.ended = true := request_keeps req
  have hstep (p : Phase) (q : Stmt) (r : Answer q) (y : Phase) (d d' : Db)
      (hq : calls p q r y ∧ ∀ x s, q.sets = some (x, s, false) → req.sets = some (x, s)) (ha : acts c q d r d')
      (hd : Settled x s u p d) : Settled x s u y d' := by
    obtain ⟨hnext, hsets⟩ := hq
    obtain ⟨m, ha⟩ := ha
    refine hd.step hnext ha fun t stamped ho => ?_
    have hq : q.sets = some (x, t, stamped) := op_sets ho
    have hn : p.Next (.set x t stamped) y := ho ▸ hnext
    cases hn with
    | cancel =>
      -- the owner has read the first status, which is not the one there
      exact absurd (hd.checked _ rfl).symm hs
    | advance => exact absurd rfl hx
    | set => exact hreq t (hsets x t hq)
  obtain ⟨y, -, hy⟩ := Follows.runs ((request_sets req).narrows hkeeps) hstep hr h
  exact ⟨hy.sane, hy.row, fun t ht => by cases ht⟩

end Calls

end Kayan.Items
