import Kayan.Items.Service
import Kayan.Lib.Ledger
import Kayan.Shop.Frame

/-!
# The tables as a ledger

`Db.ledger` reads the six tables of items and histories as one ledger, and `Stmt.op` a
statement with its reply as an operation on it. Every statement moves the ledger as its
operation says (`act_moves`); locks, keys and tables are not looked at again after that.
-/
namespace Kayan.Items
open Interleave RowStore Shop Reads Bookkeeping

def scheme : Scheme Item Row Status where
  status := Row.status
  cancelledAt := Row.cancelledAt
  initial := Item.initial
  cancelled := Item.cancelled
  initial_ne x := by
    obtain ⟨type, i⟩ := x
    cases type <;> simp [Item.initial, Item.cancelled]

/-- The statements that write, among them `COMMIT`. -/
def Stmt.writes : Stmt → Bool
  | .shop q =>
    match q with
    | .commit | .insertOrder _ _ | .insertOrderItem _ _ _ _ | .decrementAmount _ _
    | .insertOrderHistory _ _ _ _ | .insertProduct _ | .updateProduct _ _ | .upsertCartItem _ _ _
    | .deleteCartRow _ _ | .cancelOrderRow _ | .updateOrderStatus _ _ => true
    | _ => false
  | .updateDeliveryAddress _ _ | .insertFault _ _ | .updateFault _ _ | .cancelFaultRow _
  | .updateFaultStatus _ _ | .insertFaultHistory _ _ _ _ | .deleteFaultAssets _
  | .insertFaultAsset _ _ _ | .insertService _ _ | .updateService _ _ | .cancelServiceRow _
  | .updateServiceStatus _ _ | .insertServiceHistory _ _ _ => true
  | _ => false

/-- The status of an item that a statement has read, if it has found the row. -/
def checked (x : Item) : Option Status → Op Item Status
  | some s => .check x s
  | none => .read

/-- A status that was set, if the statement has found the row. -/
def updated (x : Item) (s : Status) : Bool → Op Item Status
  | true => .set x s false
  | false => .read

/-- What a statement has done to the items when it replies with rows. -/
def Stmt.effect : (q : Stmt) → Reply q → Op Item Status
  | .shop .commit, _ => .publish
  | .shop .rollback, _ => .discard
  | .shop (.insertOrder _ _), (i : Nat) => .draft ⟨.order, i⟩
  | .shop (.insertOrderHistory .client i s _), _ => .entry ⟨.order, i⟩ (.order s)
  | .shop (.insertOrderHistory .pool i s _), _ => .note ⟨.order, i⟩ (.order s)
  | .shop (.selectOrderStatus i _), (s : Option OrderStatus) => checked ⟨.order, i⟩ (s.map .order)
  | .shop (.cancelOrderRow i), _ => .set ⟨.order, i⟩ (.order .cancelled) true
  | .shop (.updateOrderStatus s i), (found : Bool) => updated ⟨.order, i⟩ (.order s) found
  | .updateDeliveryAddress _ i, _ => .touch ⟨.order, i⟩
  | .insertFault _ _, (i : Nat) => .draft ⟨.fault, i⟩
  | .selectOwnFaultStatus _ i _, (s : Option FaultStatus) => checked ⟨.fault, i⟩ (s.map .fault)
  | .selectFaultStatus i, (s : Option FaultStatus) => checked ⟨.fault, i⟩ (s.map .fault)
  | .updateFault _ i, _ => .edit ⟨.fault, i⟩
  | .cancelFaultRow i, _ => .set ⟨.fault, i⟩ (.fault .cancelled) true
  | .updateFaultStatus s i, _ => .set ⟨.fault, i⟩ (.fault s) false
  | .insertFaultHistory .client i s _, _ => .entry ⟨.fault, i⟩ (.fault s)
  | .insertFaultHistory .pool i s _, _ => .note ⟨.fault, i⟩ (.fault s)
  | .insertService _ _, (row : ServiceOrder) => .add ⟨.service, row.id⟩
  | .selectServiceStatus i _, (s : Option ServiceStatus) => checked ⟨.service, i⟩ (s.map .service)
  | .updateService _ i, _ => .touch ⟨.service, i⟩
  | .cancelServiceRow i, _ => .set ⟨.service, i⟩ (.service .cancelled) true
  | .updateServiceStatus s i, (found : Bool) => updated ⟨.service, i⟩ (.service s) found
  | .insertServiceHistory i s _, _ => .note ⟨.service, i⟩ (.service s)
  | _, _ => .read

/-- What a statement has done to the items. -/
def Stmt.op (q : Stmt) : Answer q → Op Item Status
  | .ok v => q.effect v
  | .error _ => if q.writes then .fail else .read

/-- The entries of a history table that are about the item `i`. -/
def trailOf {H : Type} (key : H → Nat) (entry : H → Status × Nat) (i : Nat) (rows : List H) :
    List (Status × Nat) :=
  (rows.filter fun r => key r = i).map entry

def StatusChange.entry (r : StatusChange) : Status × Nat := (.order r.status, r.changedBy)

def FaultStatusChange.entry (r : FaultStatusChange) : Status × Nat := (.fault r.status, r.changedBy)

def ServiceStatusChange.entry (r : ServiceStatusChange) : Status × Nat := (.service r.status, r.changedBy)

/-- The tables as a ledger. -/
def Db.ledger (d : Db) : Ledger Client Item Row Status Nat where
  row x :=
    match x.type with
    | .order => (d.shop.orders.committed x.id).map .order
    | .fault => (d.faults.committed x.id).map .fault
    | .service => (d.services.committed x.id).map .service
  draft c x :=
    match x.type with
    | .order => (d.shop.orders.draft c x.id).map .order
    | .fault => (d.faults.draft c x.id).map .fault
    | .service => (d.services.draft c x.id).map .service
  trail x :=
    match x.type with
    | .order => trailOf (·.orderId) StatusChange.entry x.id d.shop.history.committedRows
    | .fault => trailOf (·.faultId) FaultStatusChange.entry x.id d.faultHistory.committedRows
    | .service => trailOf (·.serviceId) ServiceStatusChange.entry x.id d.serviceHistory.committedRows
  entries c x :=
    match x.type with
    | .order => trailOf (·.orderId) StatusChange.entry x.id (d.shop.history.pending c)
    | .fault => trailOf (·.faultId) FaultStatusChange.entry x.id (d.faultHistory.pending c)
    | .service => trailOf (·.serviceId) ServiceStatusChange.entry x.id (d.serviceHistory.pending c)

/-- Items are never deleted, and history rows only ever inserted. -/
structure Tidy (d : Db) : Prop where
  orders : d.shop.orders.Keeping
  faults : d.faults.Keeping
  services : d.services.Keeping
  orderHistory : ∀ c, d.shop.history.Inserts c
  faultHistory : ∀ c, d.faultHistory.Inserts c
  serviceHistory : ∀ c, d.serviceHistory.Inserts c

variable {now : Nat} {m : Move} {b c : Client} {d d' : Db} {i : Nat}

theorem Quiet.tidy (h : Quiet d) : Tidy d where
  orders c i v hv := by simp [h.orders] at hv
  faults c i v hv := by simp [h.faults] at hv
  services c i v hv := by simp [h.services] at hv
  orderHistory c i v w hv := by simp [h.orderHistory] at hv
  faultHistory c i v w hv := by simp [h.faultHistory] at hv
  serviceHistory c i v w hv := by simp [h.serviceHistory] at hv

section Trails
variable {H : Type} {key : H → Nat} {entry : H → Status × Nat} {t : Table Client H} {r : H}

theorem trailOf_append {rows : List H} {r : H} :
    trailOf key entry i (rows ++ [r]) =
      if i = key r then trailOf key entry i rows ++ [entry r] else trailOf key entry i rows := by
  by_cases hi : i = key r
  · simp [trailOf, hi]
  · simp [trailOf, hi, Ne.symm hi]

theorem trailOf_insert :
    trailOf key entry i ((t.insert c r).pending b) =
      if b = c ∧ i = key r then trailOf key entry i (t.pending c) ++ [entry r]
      else trailOf key entry i (t.pending b) := by
  by_cases hb : b = c
  · subst hb
    rw [Table.pending_insert, trailOf_append]
    simp
  · rw [Table.pending_congr fun _ => Table.own_insert_ne hb]
    simp [hb]

theorem trailOf_pending_commit :
    trailOf key entry i ((t.commit c).pending b) =
      if b = c then [] else trailOf key entry i (t.pending b) := by
  by_cases hb : b = c
  · subst hb
    rw [Table.pending_eq_nil fun _ => Table.own_commit_self]
    simp [trailOf]
  · rw [Table.pending_congr fun _ => Table.own_commit_ne hb, if_neg hb]

theorem trailOf_pending_rollback :
    trailOf key entry i ((t.rollback c).pending b) =
      if b = c then [] else trailOf key entry i (t.pending b) := by
  by_cases hb : b = c
  · subst hb
    rw [Table.pending_eq_nil fun _ => Table.own_rollback_self]
    simp [trailOf]
  · rw [Table.pending_congr fun _ => Table.own_rollback_ne hb, if_neg hb]

theorem trailOf_commit_of_pending (h : t.Inserts c) (hp : trailOf key entry i (t.pending c) = []) :
    trailOf key entry i (t.commit c).committedRows = trailOf key entry i t.committedRows := by
  rw [trailOf, h.filter_committedRows_commit (List.map_eq_nil_iff.mp hp), trailOf]

theorem trailOf_commit_of_committed (h : t.Inserts c) (hp : trailOf key entry i t.committedRows = []) :
    trailOf key entry i (t.commit c).committedRows = trailOf key entry i (t.pending c) := by
  rw [trailOf, h.filter_committedRows_pending (List.map_eq_nil_iff.mp hp), trailOf]

end Trails

section Writes
variable {o o' : ProductOrder} {f f' : FaultReport} {s s' : ServiceOrder}

theorem ledger_shop {e : Shop.Db} (ho : e.orders = d.shop.orders) (hh : e.history = d.shop.history) :
    Db.ledger { d with shop := e } = d.ledger := by
  simp only [Db.ledger, ho, hh]

theorem ledger_storeOrder (hc : d.shop.orders.committed i = some o)
    (hh : (d.shop.orders.cell i).held = none) :
    Db.ledger { d with shop := { d.shop with orders := d.shop.orders.store i (some o') } } =
      d.ledger.withRow ⟨.order, i⟩ (.order o') := by
  refine Ledger.ext (funext fun ⟨k, j⟩ => ?_) (funext fun b => funext fun ⟨k, j⟩ => ?_) rfl rfl
  · by_cases hj : j = i <;> cases k <;>
      simp [Db.ledger, Table.committed_store (Table.lt_of_committed hc), hj]
  · cases k <;> simp [Db.ledger, Table.draft_store hh]

theorem ledger_storeFault (hc : d.faults.committed i = some f) (hh : (d.faults.cell i).held = none) :
    Db.ledger { d with faults := d.faults.store i (some f') } = d.ledger.withRow ⟨.fault, i⟩ (.fault f') := by
  refine Ledger.ext (funext fun ⟨k, j⟩ => ?_) (funext fun b => funext fun ⟨k, j⟩ => ?_) rfl rfl
  · by_cases hj : j = i <;> cases k <;>
      simp [Db.ledger, Table.committed_store (Table.lt_of_committed hc), hj]
  · cases k <;> simp [Db.ledger, Table.draft_store hh]

theorem ledger_storeService (hc : d.services.committed i = some s) (hh : (d.services.cell i).held = none) :
    Db.ledger { d with services := d.services.store i (some s') } =
      d.ledger.withRow ⟨.service, i⟩ (.service s') := by
  refine Ledger.ext (funext fun ⟨k, j⟩ => ?_) (funext fun b => funext fun ⟨k, j⟩ => ?_) rfl rfl
  · by_cases hj : j = i <;> cases k <;>
      simp [Db.ledger, Table.committed_store (Table.lt_of_committed hc), hj]
  · cases k <;> simp [Db.ledger, Table.draft_store hh]

theorem ledger_insertOrder :
    Db.ledger { d with shop := { d.shop with orders := d.shop.orders.insert c o } } =
      d.ledger.withDraft c ⟨.order, d.shop.orders.next⟩ (.order o) := by
  refine Ledger.ext (funext fun ⟨k, j⟩ => ?_) (funext fun b => funext fun ⟨k, j⟩ => ?_) rfl rfl
  · cases k <;> simp [Db.ledger]
  · by_cases hj : b = c ∧ j = d.shop.orders.next <;> cases k <;> simp [Db.ledger, Table.draft_insert, hj]

theorem ledger_insertFault :
    Db.ledger { d with faults := d.faults.insert c f } =
      d.ledger.withDraft c ⟨.fault, d.faults.next⟩ (.fault f) := by
  refine Ledger.ext (funext fun ⟨k, j⟩ => ?_) (funext fun b => funext fun ⟨k, j⟩ => ?_) rfl rfl
  · cases k <;> simp [Db.ledger]
  · by_cases hj : b = c ∧ j = d.faults.next <;> cases k <;> simp [Db.ledger, Table.draft_insert, hj]

theorem ledger_writeFault (hv : d.faults.view c i = some f) (hf : d.faults.free c i = true) :
    Db.ledger { d with faults := d.faults.write c i (some f') } =
      d.ledger.withDraft c ⟨.fault, i⟩ (.fault f') := by
  refine Ledger.ext (funext fun ⟨k, j⟩ => ?_) (funext fun b => funext fun ⟨k, j⟩ => ?_) rfl rfl
  · cases k <;> simp [Db.ledger]
  · by_cases hj : b = c ∧ j = i <;> cases k <;>
      simp [Db.ledger, Table.draft_write (Table.lt_of_view hv) hf, hj]

theorem ledger_appendService :
    Db.ledger { d with services := d.services.append s } =
      d.ledger.withRow ⟨.service, d.services.next⟩ (.service s) := by
  refine Ledger.ext (funext fun ⟨k, j⟩ => ?_) (funext fun b => funext fun ⟨k, j⟩ => ?_) rfl rfl
  · by_cases hj : j = d.services.next <;> cases k <;> simp [Db.ledger, Table.committed_append, hj]
  · cases k <;> simp [Db.ledger, Table.draft_append]

end Writes

section Histories

theorem ledger_insertOrderHistory {r : StatusChange} :
    Db.ledger { d with shop := { d.shop with history := d.shop.history.insert c r } } =
      d.ledger.withEntry c ⟨.order, r.orderId⟩ (.order r.status) r.changedBy := by
  refine Ledger.ext rfl rfl (funext fun ⟨k, j⟩ => ?_) (funext fun b => funext fun ⟨k, j⟩ => ?_)
  · cases k <;> simp [Db.ledger, Ledger.withEntry, Table.committedRows_congr (fun _ => Table.committed_insert)]
  · by_cases hj : b = c ∧ j = r.orderId <;> cases k <;>
      simp [Db.ledger, trailOf_insert, hj, StatusChange.entry]

theorem ledger_insertFaultHistory {r : FaultStatusChange} :
    Db.ledger { d with faultHistory := d.faultHistory.insert c r } =
      d.ledger.withEntry c ⟨.fault, r.faultId⟩ (.fault r.status) r.changedBy := by
  refine Ledger.ext rfl rfl (funext fun ⟨k, j⟩ => ?_) (funext fun b => funext fun ⟨k, j⟩ => ?_)
  · cases k <;> simp [Db.ledger, Ledger.withEntry, Table.committedRows_congr (fun _ => Table.committed_insert)]
  · by_cases hj : b = c ∧ j = r.faultId <;> cases k <;>
      simp [Db.ledger, trailOf_insert, hj, FaultStatusChange.entry]

theorem ledger_appendOrderHistory {r : StatusChange} :
    Db.ledger { d with shop := { d.shop with history := d.shop.history.append r } } =
      d.ledger.withNote ⟨.order, r.orderId⟩ (.order r.status) r.changedBy := by
  refine Ledger.ext rfl rfl (funext fun ⟨k, j⟩ => ?_) (funext fun b => funext fun ⟨k, j⟩ => ?_)
  · by_cases hj : j = r.orderId <;> cases k <;>
      simp [Db.ledger, Table.committedRows_append, trailOf_append, hj, StatusChange.entry]
  · cases k <;> simp [Db.ledger, Ledger.withNote, Table.pending_congr fun _ => Table.own_append]

theorem ledger_appendFaultHistory {r : FaultStatusChange} :
    Db.ledger { d with faultHistory := d.faultHistory.append r } =
      d.ledger.withNote ⟨.fault, r.faultId⟩ (.fault r.status) r.changedBy := by
  refine Ledger.ext rfl rfl (funext fun ⟨k, j⟩ => ?_) (funext fun b => funext fun ⟨k, j⟩ => ?_)
  · by_cases hj : j = r.faultId <;> cases k <;>
      simp [Db.ledger, Table.committedRows_append, trailOf_append, hj, FaultStatusChange.entry]
  · cases k <;> simp [Db.ledger, Ledger.withNote, Table.pending_congr fun _ => Table.own_append]

theorem ledger_appendServiceHistory {r : ServiceStatusChange} :
    Db.ledger { d with serviceHistory := d.serviceHistory.append r } =
      d.ledger.withNote ⟨.service, r.serviceId⟩ (.service r.status) r.changedBy := by
  refine Ledger.ext rfl rfl (funext fun ⟨k, j⟩ => ?_) (funext fun b => funext fun ⟨k, j⟩ => ?_)
  · by_cases hj : j = r.serviceId <;> cases k <;>
      simp [Db.ledger, Table.committedRows_append, trailOf_append, hj, ServiceStatusChange.entry]
  · cases k <;> simp [Db.ledger, Ledger.withNote, Table.pending_congr fun _ => Table.own_append]

end Histories

theorem ledger_commit (h : Tidy d) : Moves scheme c d.ledger .publish (d.commit c).ledger := by
  have he : (d.commit c).ledger =
      { d.ledger.closed c with row := d.ledger.seen c, trail := (d.commit c).ledger.trail } := by
    refine Ledger.ext (funext fun i => ?_) (funext fun b => funext fun i => ?_) rfl
      (funext fun b => funext fun i => ?_) <;> obtain ⟨k, j⟩ := i
    · cases k <;>
        simp [Db.ledger, Db.commit, Shop.Db.commit, Ledger.seen, h.orders.committed_commit,
          h.faults.committed_commit, h.services.committed_commit, Option.map_or]
    · by_cases hb : b = c <;> cases k <;>
        simp [Db.ledger, Db.commit, Shop.Db.commit, Table.draft_commit, hb]
    · by_cases hb : b = c <;> cases k <;>
        simp [Db.ledger, Db.commit, Shop.Db.commit, trailOf_pending_commit, hb]
  rw [he]
  refine .publish (fun i hj => ?_) fun i hj => ?_ <;> obtain ⟨k, j⟩ := i
  · cases k
    · exact trailOf_commit_of_pending (h.orderHistory c) hj
    · exact trailOf_commit_of_pending (h.faultHistory c) hj
    · exact trailOf_commit_of_pending (h.serviceHistory c) hj
  · cases k
    · exact trailOf_commit_of_committed (h.orderHistory c) hj
    · exact trailOf_commit_of_committed (h.faultHistory c) hj
    · exact trailOf_commit_of_committed (h.serviceHistory c) hj

theorem ledger_rollback : (d.rollback c).ledger = d.ledger.closed c := by
  refine Ledger.ext (funext fun ⟨k, j⟩ => ?_) (funext fun b => funext fun ⟨k, j⟩ => ?_)
    (funext fun ⟨k, j⟩ => ?_) (funext fun b => funext fun ⟨k, j⟩ => ?_)
  · cases k <;> simp [Db.ledger, Db.rollback, Shop.Db.rollback]
  · by_cases hb : b = c <;> cases k <;>
      simp [Db.ledger, Db.rollback, Shop.Db.rollback, Table.draft_rollback, hb]
  · cases k <;>
      simp [Db.ledger, Db.rollback, Shop.Db.rollback, Ledger.closed,
        Table.committedRows_congr (fun _ => Table.committed_rollback)]
  · by_cases hb : b = c <;> cases k <;>
      simp [Db.ledger, Db.rollback, Shop.Db.rollback, trailOf_pending_rollback, hb]

/-- What an update on its own does: the row is not there, or it is there and nobody holds it. -/
theorem updateRow_cases {V : Type} {f : V → V} {t t' : Table Client V} {found : Bool}
    (h : updateRow i f t = some (found, t')) :
    (found = false ∧ t.committed i = none ∧ t' = t) ∨
      ∃ row, found = true ∧ t.committed i = some row ∧ (t.cell i).held = none ∧
        t' = t.store i (some (f row)) := by
  unfold updateRow at h
  split at h
  · rename_i hc
    cases h
    exact Or.inl ⟨rfl, hc, rfl⟩
  · rename_i row hc
    split at h
    · rename_i hh
      cases h
      exact Or.inr ⟨row, rfl, hc, hh, rfl⟩
    · cases h

/-- The shop's updates of an order are of the same kind. -/
theorem updateOrderRow_eq {f : ProductOrder → ProductOrder} {e : Shop.Db} :
    updateOrderRow i f e =
      (updateRow i f e.orders).map fun x => (x.1, { e with orders := x.2 }) := by
  unfold updateOrderRow updateRow
  cases e.orders.committed i with
  | none => rfl
  | some row => cases (e.orders.cell i).held <;> rfl

/-- The shop's statements that read or write the status of orders. -/
def onOrders : Shop.Stmt → Bool
  | .commit | .rollback | .insertOrder _ _ | .insertOrderHistory _ _ _ _ | .selectOrderStatus _ _
  | .cancelOrderRow _ | .updateOrderStatus _ _ => true
  | _ => false

theorem shop_frame {q : Shop.Stmt} {r : Shop.Answer q} {e e' : Shop.Db}
    (h : Shop.exec now c q e = some (r, e')) (hq : onOrders q = false) :
    e'.orders = e.orders ∧ e'.history = e.history := by
  cases q with
  | commit | rollback | insertOrder | insertOrderHistory | selectOrderStatus | cancelOrderRow
  | updateOrderStatus => cases hq
  | begin | selectProduct | selectCart | selectProductAssets | snapshotCart | snapshotDelete | selectOrder
  | dateNow =>
    cases h
    exact ⟨rfl, rfl⟩
  | selectOrderItems ex =>
    cases ex <;> cases h <;> exact ⟨rfl, rfl⟩
  | insertOrderItem | insertProduct =>
    simp only [Shop.exec] at h
    split at h
    · cases h
      exact ⟨rfl, rfl⟩
    · split at h <;>
      · cases h
        exact ⟨rfl, rfl⟩
  | selectProductForUpdate | decrementAmount | updateProduct | lockCartRow | deleteCartRow =>
    simp only [Shop.exec] at h
    repeat' split at h
    all_goals
      cases h
      try exact ⟨rfl, rfl⟩
  | upsertCartItem =>
    simp only [Shop.exec, upsertCartItem] at h
    repeat' split at h
    all_goals
      cases h
      try exact ⟨rfl, rfl⟩

section Updates
variable {found : Bool} {l : Ledger Client Item Row Status Nat} {o : Op Item Status}

/-- A row that is there and that nobody holds, as the ledger shows it. -/
theorem order_row {row : ProductOrder} (hc : d.shop.orders.committed i = some row)
    (hh : (d.shop.orders.cell i).held = none) :
    d.ledger.row ⟨.order, i⟩ = some (.order row) ∧ ∀ b, d.ledger.draft b ⟨.order, i⟩ = none := by
  refine ⟨by simp [Db.ledger, hc], fun b => ?_⟩
  simp [Db.ledger, Table.draft_of_held hh]

theorem fault_row {row : FaultReport} (hc : d.faults.committed i = some row)
    (hh : (d.faults.cell i).held = none) :
    d.ledger.row ⟨.fault, i⟩ = some (.fault row) ∧ ∀ b, d.ledger.draft b ⟨.fault, i⟩ = none := by
  refine ⟨by simp [Db.ledger, hc], fun b => ?_⟩
  simp [Db.ledger, Table.draft_of_held hh]

theorem service_row {row : ServiceOrder} (hc : d.services.committed i = some row)
    (hh : (d.services.cell i).held = none) :
    d.ledger.row ⟨.service, i⟩ = some (.service row) ∧ ∀ b, d.ledger.draft b ⟨.service, i⟩ = none := by
  refine ⟨by simp [Db.ledger, hc], fun b => ?_⟩
  simp [Db.ledger, Table.draft_of_held hh]

/-- A write of other columns than the status. -/
theorem touches {x : Item} {v : Row} (v' : Row) (h : l.row x = some v ∧ ∀ b, l.draft b x = none)
    (hs : v'.status = v.status) (ha : v'.cancelledAt = v.cancelledAt) :
    Moves scheme c l (.touch x) (l.withRow x v') :=
  .touch h.1 h.2 hs ha

/-- A cancellation: the status with its time. -/
theorem cancels {x : Item} {v : Row} (v' : Row) (h : l.row x = some v ∧ ∀ b, l.draft b x = none)
    (ha : v'.cancelledAt.isSome = true) : Moves scheme c l (.set x v'.status true) (l.withRow x v') := by
  refine .set h.1 h.2 ?_
  rw [Bool.true_or]
  exact ha

/-- A status without a time. -/
theorem sets {x : Item} {v : Row} (v' : Row) (h : l.row x = some v ∧ ∀ b, l.draft b x = none)
    (ha : v'.cancelledAt = v.cancelledAt) : Moves scheme c l (.set x v'.status false) (l.withRow x v') := by
  refine .set h.1 h.2 ?_
  rw [Bool.false_or]
  exact congrArg Option.isSome ha

end Updates

/-- A status that is read is the status of a row that the client sees. -/
theorem checks {l : Ledger Client Item Row Status Nat} {x : Item} {s : Option Status}
    (hs : ∀ t, s = some t → ∃ v, (l.row x = some v ∨ l.seen c x = some v) ∧ v.status = t) :
    Moves scheme c l (checked x s) l := by
  cases s with
  | none => exact .read
  | some t =>
    obtain ⟨v, hv, rfl⟩ := hs t rfl
    exact .check hv

theorem shop_moves {q : Shop.Stmt} {r : Shop.Answer q} {e : Shop.Db} (ht : Tidy d)
    (h : Shop.exec now c q d.shop = some (r, e)) :
    Moves scheme c d.ledger ((Stmt.shop q).op r) (afterShop c e d q).ledger := by
  cases q with
  | commit =>
    cases h
    exact ledger_commit ht
  | rollback =>
    cases h
    rw [afterShop, ledger_rollback]
    exact .discard
  | insertOrder userId deliveryAddress =>
    cases h
    rw [afterShop, ledger_insertOrder]
    · refine .draft ?_ (fun b => ?_) rfl rfl
      · simp [Db.ledger, Table.committed_fresh (Nat.le_refl _)]
      · simp [Db.ledger, Table.draft_fresh (Nat.le_refl _)]
    · simp
    · simp
  | insertOrderHistory ex orderId status changedBy =>
    cases ex with
    | client =>
      cases h
      rw [afterShop, ledger_insertOrderHistory]
      · exact .entry
      · simp
      · simp
    | pool =>
      cases h
      rw [afterShop, ledger_appendOrderHistory]
      · exact .note
      · simp
      · simp
  | selectOrderStatus orderId userId =>
    cases h
    refine checks fun t ht' => ?_
    simp only [Option.map_eq_some_iff, Option.filter_eq_some_iff] at ht'
    obtain ⟨_, ⟨row, ⟨hrow, -⟩, rfl⟩, rfl⟩ := ht'
    exact ⟨.order row, Or.inl (by simp [Db.ledger, hrow]), rfl⟩
  | cancelOrderRow orderId =>
    simp only [Shop.exec, updateOrderRow_eq, Option.map_map, Option.map_eq_some_iff] at h
    obtain ⟨⟨found, t⟩, ht', heq⟩ := h
    cases heq
    rcases updateRow_cases ht' with ⟨-, hc, rfl⟩ | ⟨row, -, hc, hh, rfl⟩
    · exact .missing rfl (by simp [Db.ledger, hc])
    · rw [afterShop, ledger_storeOrder hc hh]
      · exact cancels (.order { row with status := .cancelled, cancelledAt := some now, updatedAt := now })
          (order_row hc hh) rfl
      · simp
      · simp
  | updateOrderStatus status orderId =>
    simp only [Shop.exec, updateOrderRow_eq, Option.map_map, Option.map_eq_some_iff] at h
    obtain ⟨⟨found, t⟩, ht', heq⟩ := h
    cases heq
    rcases updateRow_cases ht' with ⟨rfl, -, rfl⟩ | ⟨row, rfl, hc, hh, rfl⟩
    · exact .read
    · rw [afterShop, ledger_storeOrder hc hh]
      · exact sets (.order { row with status, updatedAt := now }) (order_row hc hh) rfl
      · simp
      · simp
  | _ =>
    obtain ⟨ho, hh⟩ := shop_frame h rfl
    rw [afterShop, ledger_shop ho hh]
    · cases r with
      | ok => exact .read
      | error => first | exact .fail | exact .read
    · simp
    · simp

/-- Every statement that runs moves the ledger as its operation says. -/
theorem exec_moves {q : Stmt} {r : Answer q} (ht : Tidy d) (h : exec now c q d = some (r, d')) :
    Moves scheme c d.ledger (q.op r) d'.ledger := by
  cases q with
  | shop q =>
    obtain ⟨⟨r', e⟩, he, heq⟩ := Option.map_eq_some_iff.mp h
    cases heq
    exact shop_moves ht he
  | updateDeliveryAddress deliveryAddress orderId =>
    obtain ⟨⟨found, t⟩, ht', heq⟩ := Option.map_eq_some_iff.mp h
    cases heq
    rcases updateRow_cases ht' with ⟨-, hc, rfl⟩ | ⟨row, -, hc, hh, rfl⟩
    · exact .missing rfl (by simp [Db.ledger, hc])
    · rw [ledger_storeOrder hc hh]
      exact touches (.order { row with deliveryAddress, updatedAt := now }) (order_row hc hh) rfl rfl
  | insertFault userId dto =>
    cases h
    rw [ledger_insertFault]
    refine .draft ?_ (fun b => ?_) rfl rfl
    · simp [Db.ledger, Table.committed_fresh (Nat.le_refl _)]
    · simp [Db.ledger, Table.draft_fresh (Nat.le_refl _)]
  | selectOwnFaultStatus ex faultId userId =>
    cases h
    refine checks fun t ht' => ?_
    simp only [Option.map_eq_some_iff, Option.filter_eq_some_iff] at ht'
    obtain ⟨_, ⟨row, ⟨hrow, -⟩, rfl⟩, rfl⟩ := ht'
    refine ⟨.fault row, ?_, rfl⟩
    cases ex with
    | client =>
      rw [rowFor, ht.faults.view] at hrow
      exact Or.inr (by simpa [Ledger.seen, Db.ledger, ← Option.map_or] using hrow)
    | pool => exact Or.inl (by simpa [Db.ledger, rowFor] using hrow)
  | selectFaultStatus faultId =>
    cases h
    refine checks fun t ht' => ?_
    simp only [Option.map_eq_some_iff] at ht'
    obtain ⟨_, ⟨row, hrow, rfl⟩, rfl⟩ := ht'
    exact ⟨.fault row, Or.inl (by simp [Db.ledger, hrow]), rfl⟩
  | updateFault dto faultId =>
    simp only [exec] at h
    split at h
    · rename_i hv
      cases h
      rw [ht.faults.view] at hv
      exact .missing rfl (by simpa [Db.ledger] using (Option.or_eq_none_iff.mp hv).2)
    · rename_i row hv
      split at h
      · rename_i hf
        cases h
        rw [ledger_writeFault hv hf]
        refine .edit (v := .fault row) ?_ (fun b hb => ?_) rfl rfl
        · rw [ht.faults.view] at hv
          simpa [Ledger.seen, Db.ledger, ← Option.map_or] using hv
        · simp [Db.ledger, Table.draft_of_free hf hb]
      · cases h
  | cancelFaultRow faultId =>
    obtain ⟨⟨found, t⟩, ht', heq⟩ := Option.map_eq_some_iff.mp h
    cases heq
    rcases updateRow_cases ht' with ⟨-, hc, rfl⟩ | ⟨row, -, hc, hh, rfl⟩
    · exact .missing rfl (by simp [Db.ledger, hc])
    · rw [ledger_storeFault hc hh]
      exact cancels (.fault { row with status := .cancelled, cancelledAt := some now, updatedAt := now })
        (fault_row hc hh) rfl
  | updateFaultStatus status faultId =>
    obtain ⟨⟨found, t⟩, ht', heq⟩ := Option.map_eq_some_iff.mp h
    cases heq
    rcases updateRow_cases ht' with ⟨-, hc, rfl⟩ | ⟨row, -, hc, hh, rfl⟩
    · exact .missing rfl (by simp [Db.ledger, hc])
    · rw [ledger_storeFault hc hh]
      exact sets (.fault { row with status, updatedAt := now }) (fault_row hc hh) rfl
  | insertFaultHistory ex faultId status changedBy =>
    cases ex with
    | client =>
      cases h
      rw [ledger_insertFaultHistory]
      exact .entry
    | pool =>
      cases h
      rw [ledger_appendFaultHistory]
      exact .note
  | insertService userId dto =>
    cases h
    rw [ledger_appendService]
    refine .add ?_ (fun b => ?_) rfl rfl
    · simp [Db.ledger, Table.committed_fresh (Nat.le_refl _)]
    · simp [Db.ledger, Table.draft_fresh (Nat.le_refl _)]
  | selectServiceStatus serviceId userId =>
    cases h
    refine checks fun t ht' => ?_
    simp only [Option.map_eq_some_iff, Option.filter_eq_some_iff] at ht'
    obtain ⟨_, ⟨row, ⟨hrow, -⟩, rfl⟩, rfl⟩ := ht'
    exact ⟨.service row, Or.inl (by simp [Db.ledger, hrow]), rfl⟩
  | updateService dto serviceId =>
    obtain ⟨⟨found, t⟩, ht', heq⟩ := Option.map_eq_some_iff.mp h
    cases heq
    rcases updateRow_cases ht' with ⟨-, hc, rfl⟩ | ⟨row, -, hc, hh, rfl⟩
    · exact .missing rfl (by simp [Db.ledger, hc])
    · rw [ledger_storeService hc hh]
      exact touches (.service (dto.apply now row)) (service_row hc hh) rfl rfl
  | cancelServiceRow serviceId =>
    obtain ⟨⟨found, t⟩, ht', heq⟩ := Option.map_eq_some_iff.mp h
    cases heq
    rcases updateRow_cases ht' with ⟨-, hc, rfl⟩ | ⟨row, -, hc, hh, rfl⟩
    · exact .missing rfl (by simp [Db.ledger, hc])
    · rw [ledger_storeService hc hh]
      exact cancels (.service { row with status := .cancelled, cancelledAt := some now, updatedAt := now })
        (service_row hc hh) rfl
  | updateServiceStatus status serviceId =>
    obtain ⟨⟨found, t⟩, ht', heq⟩ := Option.map_eq_some_iff.mp h
    cases heq
    rcases updateRow_cases ht' with ⟨rfl, -, rfl⟩ | ⟨row, rfl, hc, hh, rfl⟩
    · exact .read
    · rw [ledger_storeService hc hh]
      exact sets (.service { row with status, updatedAt := now }) (service_row hc hh) rfl
  | insertServiceHistory serviceId status changedBy =>
    cases h
    rw [ledger_appendServiceHistory]
    exact .note
  | selectFiles fileIds =>
    cases h
    cases selectFiles d.files fileIds <;> exact .read
  | selectFault | selectFaultAssets | selectService =>
    cases h
    exact .read
  | deleteFaultAssets faultId =>
    obtain ⟨t, -, heq⟩ := Option.map_eq_some_iff.mp h
    cases heq
    exact .read
  | insertFaultAsset =>
    simp only [exec] at h
    split at h
    · cases h
      exact .fail
    · split at h
      · cases h
        exact .fail
      · cases h
        exact .read

theorem act_fail {e : PgError} {q : Stmt} {r : Answer q} (h : act (.fail e) c q d = some (r, d')) :
    r = .error e ∧ d' = d := by
  cases q with
  | shop q => cases q <;> cases h <;> exact ⟨rfl, rfl⟩
  | _ => cases h; exact ⟨rfl, rfl⟩

/-- So does every statement, whether it runs or fails. -/
theorem act_moves {q : Stmt} {r : Answer q} (ht : Tidy d) (h : act m c q d = some (r, d')) :
    Moves scheme c d.ledger (q.op r) d'.ledger := by
  cases m with
  | run now => exact exec_moves ht h
  | fail e =>
    obtain ⟨rfl, rfl⟩ := act_fail h
    simp only [Stmt.op]
    split
    · exact .fail
    · exact .read

theorem tidy_commit (h : Tidy d) : Tidy (d.commit c) where
  orders := h.orders.commit
  faults := h.faults.commit
  services := h.services.commit
  orderHistory b := (h.orderHistory b).commit
  faultHistory b := (h.faultHistory b).commit
  serviceHistory b := (h.serviceHistory b).commit

theorem tidy_rollback (h : Tidy d) : Tidy (d.rollback c) where
  orders := h.orders.rollback
  faults := h.faults.rollback
  services := h.services.rollback
  orderHistory b := (h.orderHistory b).rollback
  faultHistory b := (h.faultHistory b).rollback
  serviceHistory b := (h.serviceHistory b).rollback

theorem tidy_shop {e : Shop.Db} (h : Tidy d) (ho : e.orders.Keeping) (hh : ∀ b, e.history.Inserts b) :
    Tidy { d with shop := e } :=
  { h with orders := ho, orderHistory := hh }

theorem tidy_afterShop {q : Shop.Stmt} {r : Shop.Answer q} {e : Shop.Db} (h : Tidy d)
    (he : Shop.exec now c q d.shop = some (r, e)) : Tidy (afterShop c e d q) := by
  by_cases hc : q = .commit
  · subst hc
    exact tidy_commit h
  by_cases hr : q = .rollback
  · subst hr
    exact tidy_rollback h
  have heq : afterShop c e d q = { d with shop := e } := by
    cases q with
    | commit => exact absurd rfl hc
    | rollback => exact absurd rfl hr
    | _ => rfl
  rw [heq]
  cases Shop.exec_change he hc hr with
  | insertOrder => exact tidy_shop h h.orders.insert h.orderHistory
  | insertHistory => exact tidy_shop h h.orders fun b => (h.orderHistory b).insert_any
  | appendHistory => exact tidy_shop h h.orders fun b => (h.orderHistory b).append
  | updateOrder _ hh => exact tidy_shop h (h.orders.store hh) h.orderHistory
  | _ => exact tidy_shop h h.orders h.orderHistory

theorem tidy_updateRow {V : Type} {f : V → V} {t t' : Table Client V} {found : Bool}
    (ht : t.Keeping) (h : updateRow i f t = some (found, t')) : t'.Keeping := by
  rcases updateRow_cases h with ⟨-, -, rfl⟩ | ⟨row, -, -, hh, rfl⟩
  · exact ht
  · exact ht.store hh

theorem exec_tidy {q : Stmt} {r : Answer q} (ht : Tidy d) (h : exec now c q d = some (r, d')) : Tidy d' := by
  cases q with
  | shop q =>
    obtain ⟨⟨r', e⟩, he, heq⟩ := Option.map_eq_some_iff.mp h
    cases heq
    exact tidy_afterShop ht he
  | updateDeliveryAddress =>
    obtain ⟨x, hx, heq⟩ := Option.map_eq_some_iff.mp h
    cases heq
    exact tidy_shop ht (tidy_updateRow ht.orders hx) ht.orderHistory
  | insertFault =>
    cases h
    exact { ht with faults := ht.faults.insert }
  | updateFault dto faultId =>
    simp only [exec] at h
    split at h
    · cases h
      exact ht
    · rename_i row hv
      split at h
      · rename_i hf
        cases h
        exact { ht with faults := ht.faults.write (Table.lt_of_view hv) hf }
      · cases h
  | cancelFaultRow | updateFaultStatus =>
    obtain ⟨x, hx, heq⟩ := Option.map_eq_some_iff.mp h
    cases heq
    exact { ht with faults := tidy_updateRow ht.faults hx }
  | insertFaultHistory ex =>
    cases ex with
    | client =>
      cases h
      exact { ht with faultHistory := fun b => (ht.faultHistory b).insert_any }
    | pool =>
      cases h
      exact { ht with faultHistory := fun b => (ht.faultHistory b).append }
  | insertService =>
    cases h
    exact { ht with services := ht.services.append }
  | updateService | cancelServiceRow | updateServiceStatus =>
    obtain ⟨x, hx, heq⟩ := Option.map_eq_some_iff.mp h
    cases heq
    exact { ht with services := tidy_updateRow ht.services hx }
  | insertServiceHistory =>
    cases h
    exact { ht with serviceHistory := fun b => (ht.serviceHistory b).append }
  | selectOwnFaultStatus | selectFaultStatus | selectFiles | selectFault | selectFaultAssets
  | selectServiceStatus | selectService =>
    cases h
    exact ht
  | deleteFaultAssets =>
    obtain ⟨t, -, heq⟩ := Option.map_eq_some_iff.mp h
    cases heq
    exact { ht with }
  | insertFaultAsset =>
    simp only [exec] at h
    split at h
    · cases h
      exact ht
    · split at h <;>
      · cases h
        exact { ht with }

theorem act_tidy {q : Stmt} {r : Answer q} (ht : Tidy d) (h : act m c q d = some (r, d')) : Tidy d' := by
  cases m with
  | run now => exact exec_tidy ht h
  | fail e =>
    obtain ⟨-, rfl⟩ := act_fail h
    exact ht

theorem Quiet.sound (h : Quiet d) : Sound scheme d.ledger := by
  have hd : ∀ c x, d.ledger.draft c x = none := by
    rintro c ⟨k, i⟩
    cases k <;> simp [Db.ledger, Table.draft, h.orders, h.faults, h.services]
  exact ⟨fun b c x hb => absurd (hd b x) hb, fun c x v w hv => by simp [hd] at hv,
    fun c x v hv => by simp [hd] at hv⟩

/-- Every statement keeps the tables tidy and the ledger sound. -/
theorem act_sound {q : Stmt} {r : Answer q} (h : Tidy d ∧ Sound scheme d.ledger)
    (ha : act m c q d = some (r, d')) : Tidy d' ∧ Sound scheme d'.ledger :=
  ⟨act_tidy h.1 ha, h.2.step (act_moves h.1 ha)⟩

/-- The item and the status that a statement sets, and whether it sets the time of
cancellation as well. -/
def Stmt.sets : Stmt → Option (Item × Status × Bool)
  | .shop (.cancelOrderRow i) => some (⟨.order, i⟩, .order .cancelled, true)
  | .shop (.updateOrderStatus s i) => some (⟨.order, i⟩, .order s, false)
  | .cancelFaultRow i => some (⟨.fault, i⟩, .fault .cancelled, true)
  | .updateFaultStatus s i => some (⟨.fault, i⟩, .fault s, false)
  | .cancelServiceRow i => some (⟨.service, i⟩, .service .cancelled, true)
  | .updateServiceStatus s i => some (⟨.service, i⟩, .service s, false)
  | _ => none

theorem updated_set {x y : Item} {s t : Status} {found stamped : Bool}
    (h : updated x s found = .set y t stamped) : y = x ∧ t = s ∧ stamped = false := by
  cases found <;> cases h
  exact ⟨rfl, rfl, rfl⟩

theorem checked_ne_set {x y : Item} {s : Option Status} {t : Status} {stamped : Bool} :
    checked x s ≠ .set y t stamped := by
  cases s <;> exact fun h => by cases h

theorem op_ok {q : Stmt} {r : Answer q} {o : Op Item Status} (h : q.op r = o) (hf : o ≠ .fail)
    (hr : o ≠ .read) : ∃ v, r = .ok v ∧ q.effect v = o := by
  cases r with
  | ok v => exact ⟨v, rfl, h⟩
  | error e =>
    simp only [Stmt.op] at h
    split at h
    · exact absurd h.symm hf
    · exact absurd h.symm hr

/-- Only such a statement sets a status. -/
theorem op_sets {q : Stmt} {r : Answer q} {x : Item} {s : Status} {stamped : Bool}
    (h : q.op r = .set x s stamped) : q.sets = some (x, s, stamped) := by
  obtain ⟨v, -, hv⟩ := op_ok h (by simp) (by simp)
  cases q with
  | shop q =>
    cases q with
    | updateOrderStatus =>
      obtain ⟨rfl, rfl, rfl⟩ := updated_set hv
      rfl
    | cancelOrderRow =>
      cases hv
      rfl
    | selectOrderStatus => exact absurd hv checked_ne_set
    | insertOrderHistory ex => cases ex <;> cases hv
    | _ => cases hv
  | updateServiceStatus =>
    obtain ⟨rfl, rfl, rfl⟩ := updated_set hv
    rfl
  | cancelFaultRow | updateFaultStatus | cancelServiceRow =>
    cases hv
    rfl
  | selectOwnFaultStatus | selectFaultStatus | selectServiceStatus => exact absurd hv checked_ne_set
  | insertFaultHistory ex => cases ex <;> cases hv
  | _ => cases hv

end Kayan.Items
