import Kayan.Lib.Protocol
import Kayan.Shop.Alone

/-!
# The cart methods

`updateCartItem` and `deleteCartItem`, with the statements that name one row of a cart,
beside the methods of the shop.
-/
namespace Kayan.Carts
open Interleave RowStore Shop

section Statements

inductive Stmt where
  | shop (q : Shop.Stmt)
  | selectCartItem (id userId : Nat)
  | updateQuantity (quantity : Int) (id : Nat)
  | deleteCartItem (id userId : Nat)

/-- The rows that a statement returns, or its row count as far as it is read. -/
def Reply : Stmt → Type
  | .shop q => Shop.Reply q
  | .selectCartItem _ _ => Option Nat
  | .updateQuantity _ _ => Unit
  | .deleteCartItem _ _ => Bool

/-- What the store does for a statement of client `c` at time `now`; `none` while it waits for a lock. -/
def exec (now : Nat) (c : Client) : (q : Stmt) → Db → Option (Except PgError (Reply q) × Db)
  | .shop q, d => Shop.exec now c q d
  | .selectCartItem i userId, d =>
    some (.ok (((d.cart.committed i).filter fun r => r.userId = userId).map (·.productId)), d)
  | .updateQuantity quantity i, d =>
    if ¬ int4 quantity then some (.error .outOfRange, d)
    else
      match d.cart.committed i with
      | none => some (.ok (), d)
      | some r =>
        match (d.cart.cell i).held with
        | none =>
          if quantity ≤ 0 then some (.error .checkViolation, d)
          else some (.ok (), { d with cart := d.cart.store i (some { r with quantity, updatedAt := now }) })
        | some _ => none
  | .deleteCartItem i userId, d =>
    match (d.cart.committed i).filter fun r => r.userId = userId with
    | none => some (.ok false, d)
    | some _ =>
      match (d.cart.cell i).held with
      | none => some (.ok true, { d with cart := d.cart.store i none })
      | some _ => none

end Statements

section Methods

/-- Code of the service: statements, a result or an exception. -/
abbrev Code (α : Type) := Interleave.Code Stmt Reply PgError Failure α

/-- Awaits one statement; its error is thrown. -/
def query (q : Stmt) : Code (Reply q) := await Failure.database q

/-- The shop's code as code of the service. -/
def ofShop {α : Type} (code : Shop.Code α) : Code α := ExceptT.mk (code.run.embed Stmt.shop)

variable (drv : Driver)

def updateCartItem (userId cartItemId : Nat) (quantity : Int) : Code Payload := do
  let existing : Option Nat ← query (.selectCartItem cartItemId userId)
  match existing with
  | none => throw (.notFound "Cart item not found")
  | some productId =>
    ofShop (assertCartProductState productId quantity)
    query (.updateQuantity quantity cartItemId)
    ofShop (listCart drv userId)

def deleteCartItem (userId cartItemId : Nat) : Code Payload := do
  let deleted : Bool ← query (.deleteCartItem cartItemId userId)
  if !deleted then throw (.notFound "Cart item not found")
  else pure (.obj [("message", .str "Cart item deleted")])

/-- The operations of the cart controller. -/
inductive Call where
  | listCart (userId : Nat)
  | addCartItem (userId productId : Nat) (quantity : Int)
  | updateCartItem (userId cartItemId : Nat) (quantity : Int)
  | deleteCartItem (userId cartItemId : Nat)
  | checkoutCart (userId : Nat) (deliveryAddress : String)

/-- The program of an operation. -/
def Call.code : Call → Code Payload
  | .listCart userId => ofShop (Shop.listCart drv userId)
  | .addCartItem userId productId quantity => ofShop (Shop.addCartItem drv userId productId quantity)
  | .updateCartItem userId cartItemId quantity => Carts.updateCartItem drv userId cartItemId quantity
  | .deleteCartItem userId cartItemId => Carts.deleteCartItem userId cartItemId
  | .checkoutCart userId deliveryAddress => ofShop (Shop.checkoutCart drv userId deliveryAddress)

end Methods

section Alone

/-- When each statement of an operation runs. -/
abbrev Clock := Stmt → Db → Nat

/-- Code of client `c`, run with no other statements in between: what it returns or throws,
and the store it leaves. -/
def alone {α : Type} (clock : Clock) (c : Client) (code : Code α) (d : Db) : Option (Except Failure α × Db) :=
  code.run.alone (fun q d => exec (clock q d) c q d) d

/-- One operation run alone, and how it ended. -/
def Step (drv : Driver) (d : Db) (e : Call × Except Failure Payload) (d' : Db) : Prop :=
  ∃ clock c, alone clock c (e.1.code drv) d = some (e.2, d')

variable {c : Client} {d d' : Db} {α β : Type} {clock : Clock} {q : Stmt} {f : Reply q → Code β}

theorem query_alone {v : Reply q} (h : exec (clock q d) c q d = some (.ok v, d')) :
    alone clock c (query q >>= f) d = alone clock c (f v) d' :=
  await_alone h

theorem query_alone_error {e : PgError} (h : exec (clock q d) c q d = some (.error e, d')) :
    alone clock c (query q >>= f) d = some (.error (.database e), d') :=
  await_alone_error h

/-- The shop's code runs as it does in the shop. -/
theorem ofShop_alone {code : Shop.Code α} :
    alone clock c (ofShop code) d = Shop.alone (fun q => clock (.shop q)) c code d := by
  unfold alone ofShop
  exact embed_alone _ d

end Alone
end Kayan.Carts
