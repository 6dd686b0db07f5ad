import Kayan.Lib.SoleClient
import Kayan.Shop.Service

/-!
# Calls that run alone

One call while no other transaction is open: its statements are taken one after the other
from a store in which no row is locked.
-/
namespace Kayan.Shop
open RowStore Interleave

/-- When each statement of a call runs. -/
abbrev Clock := Stmt → Db → Nat

/-- Code of client `c`, run with no other statements in between: what it returns or throws,
and the store it leaves. -/
def alone {α : Type} (clock : Clock) (c : Client) (code : Code α) (d : Db) : Option (Except Failure α × Db) :=
  code.run.alone (fun q d => exec (clock q d) c q d) d

/-- No row of any table is locked. -/
structure Unlocked (d : Db) : Prop where
  catalog : d.catalog.Unlocked
  orders : d.orders.Unlocked
  items : d.items.Unlocked
  history : d.history.Unlocked
  cart : d.cart.Unlocked

/-- A store between calls: no row is locked, and the column types, checks, keys and references
of the schema hold. -/
structure Still (d : Db) : Prop where
  unlocked : Unlocked d
  amount : ∀ p row, d.catalog.committed p = some row → 0 ≤ row.amount ∧ int4 row.amount
  orderRef : ∀ r ∈ d.items.committedRows, ∃ o, d.orders.committed r.orderId = some o
  cartRow : ∀ i r, d.cart.committed i = some r → r.id = i ∧ 0 < r.quantity
  cartOnce : ∀ i j r r', d.cart.committed i = some r → d.cart.committed j = some r' →
    r.userId = r'.userId → r.productId = r'.productId → i = j

/-- The tables have the same committed rows. -/
structure Same (d d' : Db) : Prop where
  catalog : ∀ i, d'.catalog.committed i = d.catalog.committed i
  orders : ∀ i, d'.orders.committed i = d.orders.committed i
  items : ∀ i, d'.items.committed i = d.items.committed i
  history : ∀ i, d'.history.committed i = d.history.committed i
  cart : ∀ i, d'.cart.committed i = d.cart.committed i

/-- No other client than `c` has a lock. -/
structure Sole (c : Client) (d : Db) : Prop where
  catalog : d.catalog.Sole c
  orders : d.orders.Sole c
  items : d.items.Sole c
  history : d.history.Sole c
  cart : d.cart.Sole c

variable {c : Client} {d d' d'' : Db} {α β : Type} {clock : Clock}

theorem Unlocked.sole (h : Unlocked d) : Sole c d :=
  ⟨h.catalog.sole, h.orders.sole, h.items.sole, h.history.sole, h.cart.sole⟩

theorem Sole.commit (h : Sole c d) : Unlocked (d.commit c) :=
  ⟨h.catalog.commit, h.orders.commit, h.items.commit, h.history.commit, h.cart.commit⟩

theorem Sole.rollback (h : Sole c d) : Unlocked (d.rollback c) :=
  ⟨h.catalog.rollback, h.orders.rollback, h.items.rollback, h.history.rollback, h.cart.rollback⟩

theorem Same.refl : Same d d :=
  ⟨fun _ => rfl, fun _ => rfl, fun _ => rfl, fun _ => rfl, fun _ => rfl⟩

theorem Same.trans (h : Same d d') (h' : Same d' d'') : Same d d'' where
  catalog i := (h'.catalog i).trans (h.catalog i)
  orders i := (h'.orders i).trans (h.orders i)
  items i := (h'.items i).trans (h.items i)
  history i := (h'.history i).trans (h.history i)
  cart i := (h'.cart i).trans (h.cart i)

theorem same_rollback : Same d (d.rollback c) where
  catalog _ := Table.committed_rollback
  orders _ := Table.committed_rollback
  items _ := Table.committed_rollback
  history _ := Table.committed_rollback
  cart _ := Table.committed_rollback

/-- What holds of the committed rows holds in a store with the same ones. -/
theorem Still.of_same (h : Still d) (hs : Same d d') (hu : Unlocked d') : Still d' where
  unlocked := hu
  amount p row hp := h.amount p row ((hs.catalog p).symm.trans hp)
  orderRef r hr := by
    rw [Table.committedRows_congr hs.items] at hr
    obtain ⟨o, ho⟩ := h.orderRef r hr
    exact ⟨o, (hs.orders r.orderId).trans ho⟩
  cartRow i r hi := h.cartRow i r ((hs.cart i).symm.trans hi)
  cartOnce i j r r' hi hj := h.cartOnce i j r r' ((hs.cart i).symm.trans hi) ((hs.cart j).symm.trans hj)

section Code
variable {q : Stmt} {f : Reply q → Code β}

theorem query_alone {v : Reply q} (h : exec (clock q d) c q d = some (.ok v, d')) :
    alone clock c (query q >>= f) d = alone clock c (f v) d' :=
  await_alone h

theorem query_alone_error {e : PgError} (h : exec (clock q d) c q d = some (.error e, d')) :
    alone clock c (query q >>= f) d = some (.error (.database e), d') :=
  await_alone_error h

variable {x : Code α}

theorem withTransaction_alone {a : α} (h : alone clock c x d = some (.ok a, d')) :
    alone clock c (withTransaction x) d = some (.ok a, d'.commit c) := by
  have hbegin : exec (clock .begin d) c .begin d = some (.ok (), d) := rfl
  have hcommit : exec (clock .commit d') c .commit d' = some (.ok (), d'.commit c) := rfl
  exact transaction_alone hbegin h hcommit

theorem withTransaction_alone_error {e : Failure} (h : alone clock c x d = some (.error e, d')) :
    alone clock c (withTransaction x) d = some (.error e, d'.rollback c) := by
  have hbegin : exec (clock .begin d) c .begin d = some (.ok (), d) := rfl
  have hrollback : exec (clock .rollback d') c .rollback d' = some (.ok (), d'.rollback c) := rfl
  exact transaction_alone_error hbegin h hrollback

end Code
end Kayan.Shop
