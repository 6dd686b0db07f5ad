import Kayan.Items.Refinement

/-!
# The protocol of the calls

What a call has done to the items so far (`Phase`), and what it may do next. A status is
written by an owner or, for a fault, by an admin only in the phase `checked` with the status
that was read just before; a status written on its own is followed by its history row.
-/
namespace Kayan.Items
open Interleave RowStore Shop Reads Bookkeeping

inductive Phase where
  /-- Nothing is written, or what is written is not new. -/
  | idle
  /-- The status of the item has been read; its row is written next. -/
  | checked (x : Item) (s : Status)
  /-- The open transaction has inserted the item. -/
  | drafted (x : Item)
  /-- It has inserted its history row as well. -/
  | recorded (x : Item)
  /-- The item has its status; the history row comes next. -/
  | due (x : Item) (s : Status)
  | done
  /-- A write has failed, and nothing that the call did is left. -/
  | failed
  /-- The history row has failed after the status was written. -/
  | torn

namespace Phase

/-- Nothing that the call did can be seen yet. -/
def unseen : Phase → Bool
  | idle | checked _ _ | drafted _ | recorded _ => true
  | _ => false

/-- The call may read on, or end. -/
def rests : Phase → Bool
  | checked _ _ | due _ _ | torn => false
  | _ => true

/-- The call may end here. -/
def ended : Phase → Bool
  | checked _ _ | due _ _ => false
  | _ => true

/-- What an exception in a transaction leaves, for the rollback. -/
def undone : Phase → Bool
  | idle | drafted _ | recorded _ | failed => true
  | _ => false

/-- Where an operation leads. -/
inductive Next : Phase → Op Item Status → Phase → Prop
  | read {p : Phase} (hp : p.rests = true) : Next p .read p
  | look {x : Item} {s : Status} : Next .idle (.check x s) .idle
  | check {x : Item} {s : Status} : Next .idle (.check x s) (.checked x s)
  | fail {p : Phase} (hp : p.unseen = true) : Next p .fail .failed
  | draft {x : Item} : Next .idle (.draft x) (.drafted x)
  | entry {x : Item} : Next (.drafted x) (.entry x x.initial) (.recorded x)
  | edit {x : Item} : Next (.checked x x.initial) (.edit x) .idle
  | publish : Next .idle .publish .done
  | publishNew {x : Item} : Next (.recorded x) .publish .done
  | discard {p : Phase} (hp : p.unseen = true) : Next p .discard .idle
  | discardFailed : Next .failed .discard .failed
  | touch {x : Item} : Next (.checked x x.initial) (.touch x) .done
  | cancel {x : Item} : Next (.checked x x.initial) (.set x x.cancelled true) (.due x x.cancelled)
  | advance {i : Nat} {s s' : FaultStatus} (h : s = s' ∨ s' ∈ transitions s) :
      Next (.checked ⟨.fault, i⟩ (.fault s)) (.set ⟨.fault, i⟩ (.fault s') false) (.due ⟨.fault, i⟩ (.fault s'))
  | set {x : Item} {s : Status} (hx : x.type ≠ .fault) : Next .idle (.set x s false) (.due x s)
  | add {x : Item} : Next .idle (.add x) (.due x x.initial)
  | note {x : Item} {s : Status} : Next (.due x s) (.note x s) .done
  | tear {x : Item} {s : Status} : Next (.due x s) .fail .torn

end Phase

/-- The protocol over statements that operate on the items. -/
def following {σ : Type} {ρ : σ → Type} (op : (q : σ) → Except PgError (ρ q) → Op Item Status) :
    Protocol σ (fun q => Except PgError (ρ q)) Phase :=
  fun p q r p' => p.Next (op q r) p'

/-- The protocol of the calls. -/
abbrev calls : Protocol Stmt Answer Phase := following Stmt.op

/-- What a statement of the shop's code has done to the items. -/
def shopOp (q : Shop.Stmt) (r : Shop.Answer q) : Op Item Status := (Stmt.shop q).op r

section Steady
variable {σ : Type} {ρ : σ → Type} {op : (q : σ) → Except PgError (ρ q) → Op Item Status} {p : Phase}
  {α β : Type} {wrap : PgError → Failure}

/-- What is left of the phase `p` by an exception. -/
def Broken (p y : Phase) : Prop := y = p ∨ (y = .failed ∧ p.unseen = true)

/-- The code stays in the phase `p`; at worst a write of it fails. -/
def Steadily (op : (q : σ) → Except PgError (ρ q) → Op Item Status) (p : Phase)
    (code : Interleave.Code σ ρ PgError Failure α) : Prop :=
  Keeps (following op) p code (fun _ y => y = p) (Broken p)

theorem Steadily.pure {a : α} : Steadily op p (Pure.pure a) := Keeps.pure rfl

theorem Steadily.throw {e : Failure} : Steadily op p (throw e : Interleave.Code σ ρ PgError Failure α) :=
  Keeps.throw (Or.inl rfl)

theorem Steadily.bind {code : Interleave.Code σ ρ PgError Failure α}
    {f : α → Interleave.Code σ ρ PgError Failure β} (h : Steadily op p code)
    (hf : ∀ a, Steadily op p (f a)) : Steadily op p (code >>= f) := by
  refine Keeps.bind h fun a y hy => ?_
  rw [hy]
  exact hf a

/-- A statement that reads. -/
theorem Steadily.reads {q : σ} (hp : p.rests = true) (h : ∀ r, op q r = .read) :
    Steadily op p (Interleave.await wrap q) := by
  refine Keeps.await fun r => ⟨p, ?_, ?_⟩
  · rw [following, h]
    exact .read hp
  · cases r with
    | ok v => exact rfl
    | error e => exact Or.inl rfl

/-- A statement that writes, but not the items. -/
theorem Steadily.writes {q : σ} (hp : p.rests = true) (hu : p.unseen = true)
    (hok : ∀ v, op q (.ok v) = .read) (he : ∀ e, op q (.error e) = .fail) :
    Steadily op p (Interleave.await wrap q) := by
  refine Keeps.await fun r => ?_
  cases r with
  | ok v =>
    refine ⟨p, ?_, rfl⟩
    rw [following, hok]
    exact .read hp
  | error e =>
    refine ⟨.failed, ?_, Or.inr ⟨rfl, hu⟩⟩
    rw [following, he]
    exact .fail hu

/-- What a steady part leaves can be undone where its phase can. -/
theorem Steadily.undone {code : Interleave.Code σ ρ PgError Failure α} (h : Steadily op p code)
    (hp : p.undone = true) : Keeps (following op) p code (fun _ y => y = p) fun y => y.undone = true := by
  refine Keeps.mono h (fun _ _ => id) fun y hy => ?_
  rcases hy with rfl | ⟨rfl, -⟩
  · exact hp
  · rfl

/-- A steady part ends the call where its phase does. -/
theorem Steadily.ended {code : Interleave.Code σ ρ PgError Failure α} (h : Steadily op p code)
    (hp : p.ended = true) :
    Keeps (following op) p code (fun _ y => y.ended = true) fun y => y.ended = true := by
  refine Keeps.mono h (fun _ y hy => ?_) fun y hy => ?_
  · rw [hy]
    exact hp
  · rcases hy with rfl | ⟨rfl, -⟩
    · exact hp
    · rfl

theorem undone_ended {y : Phase} (h : y.undone = true) : y.ended = true := by
  cases y <;> first | rfl | cases h

/-- What an exception leaves is undone by the rollback. -/
theorem undo {q : σ} (hok : ∀ v, op q (.ok v) = .discard) (he : ∀ e, op q (.error e) = .read) {y : Phase}
    (hy : y.undone = true) (r : Except PgError (ρ q)) :
    ∃ z, following op y q r z ∧ z.ended = true := by
  cases r with
  | ok v =>
    simp only [following, hok]
    cases y with
    | failed => exact ⟨.failed, .discardFailed, rfl⟩
    | idle | drafted | recorded => exact ⟨.idle, .discard rfl, rfl⟩
    | checked | due | done | torn => cases hy
  | error e =>
    simp only [following, he]
    refine ⟨y, .read ?_, undone_ended hy⟩
    cases y <;> first | rfl | cases hy

/-- A transaction: its code starts idle, and leaves what may be published. -/
theorem Keeps.transacts {start finish rollback : σ} {callback : Interleave.Code σ ρ PgError Failure α}
    (hstart : ∀ r, op start r = .read) (hcommit : ∀ v, op finish (.ok v) = .publish)
    (hfail : ∀ e, op finish (.error e) = .fail) (hroll : ∀ v, op rollback (.ok v) = .discard)
    (hlost : ∀ e, op rollback (.error e) = .read)
    (h : Keeps (following op) .idle callback (fun _ y => y = .idle ∨ ∃ x, y = .recorded x)
      fun y => y.undone = true) :
    Keeps (following op) .idle (Interleave.transaction wrap start finish rollback callback)
      (fun _ y => y.ended = true) fun y => y.ended = true := by
  refine Keeps.transaction (fun r => ⟨.idle, ?_, ?_⟩) h (fun a y hy r => ?_) fun y hy r => undo hroll hlost hy r
  · rw [following, hstart]
    exact .read rfl
  · cases r <;> rfl
  · cases r with
    | ok v =>
      refine ⟨.done, ?_, rfl⟩
      rw [following, hcommit]
      rcases hy with rfl | ⟨x, rfl⟩
      · exact .publish
      · exact .publishNew
    | error e =>
      refine ⟨.failed, ?_, rfl⟩
      rw [following, hfail]
      rcases hy with rfl | ⟨x, rfl⟩ <;> exact .fail rfl

/-- Code that reads the status of an item first, and goes on to write it where that status
is good. -/
theorem Keeps.check {q : σ} (x : Item) (g : ρ q → Option Status) (good : Status → Prop)
    {f : ρ q → Interleave.Code σ ρ PgError Failure α} {Q : α → Phase → Prop} {E : Phase → Prop}
    (hok : ∀ v, op q (.ok v) = checked x (g v)) (herr : ∀ e, op q (.error e) = .read) (he : E .idle)
    (hgood : ∀ v s, g v = some s → good s → Keeps (following op) (.checked x s) (f v) Q E)
    (hbad : ∀ v, (∀ s, g v = some s → ¬ good s) → Keeps (following op) .idle (f v) Q E) :
    Keeps (following op) .idle (Interleave.await wrap q >>= f) Q E := by
  refine Keeps.bind (Q := fun v y => (y = .idle ∧ ∀ s, g v = some s → ¬ good s) ∨
    ∃ s, y = .checked x s ∧ g v = some s ∧ good s) (Keeps.await fun r => ?_) fun v y hy => ?_
  · cases r with
    | ok v =>
      rcases hv : g v with _ | s
      · refine ⟨.idle, ?_, Or.inl ⟨rfl, fun s hs => by simp [hv] at hs⟩⟩
        rw [following, hok, hv]
        exact .read rfl
      · by_cases hs : good s
        · refine ⟨.checked x s, ?_, Or.inr ⟨s, rfl, hv, hs⟩⟩
          rw [following, hok, hv]
          exact .check
        · refine ⟨.idle, ?_, Or.inl ⟨rfl, fun t ht => ?_⟩⟩
          · rw [following, hok, hv]
            exact .look
          · obtain rfl : s = t := Option.some.inj (hv.symm.trans ht)
            exact hs
    | error e =>
      refine ⟨.idle, ?_, he⟩
      rw [following, herr]
      exact .read rfl
  · rcases hy with ⟨rfl, hs⟩ | ⟨s, rfl, hv, hs⟩
    · exact hbad v hs
    · exact hgood v s hv hs

/-- Code that writes an item only where its status is `first`, and else throws. -/
theorem Keeps.guarded {S : Type} {q : σ} (x : Item) (tag : S → Status) (first : S) (g : ρ q → Option S)
    {f : ρ q → Interleave.Code σ ρ PgError Failure α} {Q : α → Phase → Prop} {E : Phase → Prop}
    (htag : ∀ s, tag s = tag first → s = first)
    (hok : ∀ v, op q (.ok v) = checked x ((g v).map tag)) (herr : ∀ e, op q (.error e) = .read) (he : E .idle)
    (hgood : ∀ v, g v = some first → Keeps (following op) (.checked x (tag first)) (f v) Q E)
    (hnone : ∀ v, g v = none → ∃ e, f v = throw e)
    (hlate : ∀ v s, g v = some s → s ≠ first → ∃ e, f v = throw e) :
    Keeps (following op) .idle (Interleave.await wrap q >>= f) Q E := by
  refine Keeps.check x (fun v => (g v).map tag) (· = tag first) hok herr he (fun v s hs ht => ?_) fun v hv => ?_
  · subst ht
    obtain ⟨s, hs, heq⟩ := Option.map_eq_some_iff.mp hs
    exact hgood v (htag s heq ▸ hs)
  · have hf : ∃ e, f v = throw e := by
      rcases hs : g v with _ | s
      · exact hnone v hs
      · refine hlate v s hs ?_
        rintro rfl
        exact hv _ (congrArg (Option.map tag) hs) rfl
    obtain ⟨e, hf⟩ := hf
    rw [hf]
    exact Keeps.throw he

/-- A write on its own, which the phase allows. -/
theorem Keeps.write {q : σ} {y : Phase} {o : Op Item Status} (hu : p.unseen = true)
    (hok : ∀ v, op q (.ok v) = o) (herr : ∀ e, op q (.error e) = .fail) (hn : p.Next o y) {E : Phase → Prop}
    (he : E .failed) : Keeps (following op) p (Interleave.await wrap q) (fun _ z => z = y) E := by
  refine Keeps.await fun r => ?_
  cases r with
  | ok v =>
    refine ⟨y, ?_, rfl⟩
    rw [following, hok]
    exact hn
  | error e =>
    refine ⟨.failed, ?_, he⟩
    rw [following, herr]
    exact .fail hu

/-- The history row that a status needs. -/
theorem Keeps.note {q : σ} {x : Item} {s : Status} (hok : ∀ v, op q (.ok v) = .note x s)
    (herr : ∀ e, op q (.error e) = .fail) {E : Phase → Prop} (he : E .torn) :
    Keeps (following op) (.due x s) (Interleave.await wrap q) (fun _ z => z = .done) E := by
  refine Keeps.await fun r => ?_
  cases r with
  | ok v =>
    refine ⟨.done, ?_, rfl⟩
    rw [following, hok]
    exact .note
  | error e =>
    refine ⟨.torn, ?_, he⟩
    rw [following, herr]
    exact .tear

/-- A status that is set without a check, where there is such an item. -/
theorem Keeps.set {q : σ} {x : Item} {s : Status} (found : ρ q → Bool) (hx : x.type ≠ .fault)
    (hok : ∀ v, op q (.ok v) = if found v then .set x s false else .read) (herr : ∀ e, op q (.error e) = .fail)
    {E : Phase → Prop} (he : E .failed) :
    Keeps (following op) .idle (Interleave.await wrap q) (fun v y => y = if found v then .due x s else .idle) E := by
  refine Keeps.await fun r => ?_
  cases r with
  | ok v =>
    refine ⟨if found v then .due x s else .idle, ?_, rfl⟩
    rw [following, hok]
    cases found v with
    | true => exact .set hx
    | false => exact .read rfl
  | error e =>
    refine ⟨.failed, ?_, he⟩
    rw [following, herr]
    exact .fail rfl

end Steady

section Shop
variable {drv : Driver} {p : Phase}

theorem ofShop_keeps {α : Type} {code : Shop.Code α} {Q : α → Phase → Prop} {E : Phase → Prop}
    (h : Keeps (following shopOp) p code Q E) : Keeps calls p (ofShop code) Q E :=
  Follows.embed (f := Stmt.shop) h

theorem orderLines_steady (hp : p.rests = true) (hu : p.unseen = true) {orderId : Nat}
    {items : List OrderLine} : Steadily shopOp p (orderLines orderId items) := by
  induction items with
  | nil => exact Steadily.pure
  | cons item rest ih =>
    refine Steadily.bind (Steadily.reads hp fun r => by cases r <;> rfl) fun product => ?_
    split
    · exact Steadily.throw
    · split
      · exact Steadily.throw
      · split
        · exact Steadily.throw
        · refine Steadily.bind (Steadily.writes hp hu (fun _ => rfl) fun _ => rfl) fun _ => ?_
          refine Steadily.bind (Steadily.writes hp hu (fun _ => rfl) fun _ => rfl) fun _ => ?_
          exact ih

theorem lockCartRows_steady (hp : p.rests = true) {userId : Nat} {ids : List Nat} :
    Steadily shopOp p (lockCartRows userId ids) := by
  induction ids with
  | nil => exact Steadily.pure
  | cons i ids ih =>
    refine Steadily.bind (Steadily.reads hp fun r => by cases r <;> rfl) fun row => ?_
    exact Steadily.bind ih fun _ => Steadily.pure

theorem deleteCartRows_steady (hp : p.rests = true) (hu : p.unseen = true) {userId : Nat}
    {ids : List Nat} : Steadily shopOp p (deleteCartRows userId ids) := by
  induction ids with
  | nil => exact Steadily.pure
  | cons i ids ih =>
    exact Steadily.bind (Steadily.writes hp hu (fun _ => rfl) fun _ => rfl) fun _ => ih

theorem getOrderForUser_steady (hp : p.rests = true) {userId orderId : Nat} {allowAdmin : Bool} :
    Steadily shopOp p (Shop.getOrderForUser drv userId orderId allowAdmin) := by
  refine Steadily.bind (Steadily.reads hp fun r => by cases r <;> rfl) fun row => ?_
  split
  · exact Steadily.throw
  · split
    · exact Steadily.throw
    · exact Steadily.bind (Steadily.reads hp fun r => by cases r <;> rfl) fun _ => Steadily.pure

/-- A new order has its history row when its transaction commits. -/
theorem createOrderRecord_keeps {userId : Nat} {deliveryAddress : String} {items : List OrderLine} :
    Keeps (following shopOp) .idle (createOrderRecord drv userId deliveryAddress items)
      (fun _ y => ∃ x, y = .recorded x) fun y => y.undone = true := by
  refine Keeps.bind (Q := fun (i : Nat) y => y = .drafted ⟨.order, i⟩) (Keeps.await fun r => ?_)
    fun orderId y hy => ?_
  · cases r with
    | ok i => exact ⟨.drafted ⟨.order, i⟩, .draft, rfl⟩
    | error e => exact ⟨.failed, .fail rfl, rfl⟩
  subst hy
  refine Keeps.bind ((orderLines_steady rfl rfl).undone rfl) fun _ y hy => ?_
  subst hy
  refine Keeps.bind (Q := fun _ y => y = .recorded ⟨.order, orderId⟩) (Keeps.await fun r => ?_)
    fun _ y hy => ?_
  · cases r with
    | ok v => exact ⟨.recorded ⟨.order, orderId⟩, .entry, rfl⟩
    | error e => exact ⟨.failed, .fail rfl, rfl⟩
  subst hy
  refine Keeps.mono (Steadily.undone ?_ rfl) (fun _ y hy => ⟨_, hy⟩) fun _ => id
  refine Steadily.bind (Steadily.reads rfl fun r => by cases r <;> rfl) fun _ => ?_
  refine Steadily.bind (Steadily.reads rfl fun r => by cases r <;> rfl) fun _ => ?_
  exact Steadily.bind (Steadily.reads rfl fun r => by cases r <;> rfl) fun _ => Steadily.pure

/-- A transaction of the shop. -/
theorem shopTransaction_keeps {α : Type} {callback : Shop.Code α}
    (h : Keeps (following shopOp) .idle callback (fun _ y => y = .idle ∨ ∃ x, y = .recorded x)
      fun y => y.undone = true) :
    Keeps (following shopOp) .idle (Shop.withTransaction callback) (fun _ y => y.ended = true)
      fun y => y.ended = true :=
  Keeps.transacts (fun r => by cases r <;> rfl) (fun _ => rfl) (fun _ => rfl) (fun _ => rfl) (fun _ => rfl) h

theorem shopRequest_keeps (req : Shop.Request) :
    Keeps (following shopOp) .idle (req.code drv) (fun _ y => y.ended = true) fun y => y.ended = true := by
  cases req with
  | createOrder userId deliveryAddress items =>
    simp only [Shop.Request.code, Shop.createOrder]
    split
    · exact Keeps.throw rfl
    · exact shopTransaction_keeps (createOrderRecord_keeps.mono (fun _ _ => Or.inr) fun _ => id)
  | checkoutCart userId deliveryAddress =>
    refine shopTransaction_keeps (Keeps.bind (Steadily.undone ?_ rfl) fun cart y hy => ?_)
    · refine Steadily.bind (Steadily.reads rfl fun r => by cases r <;> rfl) fun ids => ?_
      exact lockCartRows_steady rfl
    subst hy
    unfold checkoutRows
    split
    · exact Keeps.throw rfl
    refine Keeps.bind createOrderRecord_keeps fun order y hy => ?_
    obtain ⟨x, rfl⟩ := hy
    refine Keeps.mono (Steadily.undone ?_ rfl) (fun _ y hy => Or.inr ⟨x, hy⟩) fun _ => id
    refine Steadily.bind ?_ fun _ => Steadily.pure
    refine Steadily.bind (Steadily.reads rfl fun r => by cases r <;> rfl) fun ids => ?_
    exact deleteCartRows_steady rfl rfl
  | addCartItem userId productId quantity =>
    refine Steadily.ended (p := .idle) (Steadily.bind ?_ fun _ => Steadily.bind ?_ fun _ => ?_) rfl
    · refine Steadily.bind (Steadily.reads rfl fun r => by cases r <;> rfl) fun product => ?_
      repeat' split
      all_goals first | exact Steadily.throw | exact Steadily.pure
    · exact Steadily.writes rfl rfl (fun _ => rfl) fun _ => rfl
    · refine Steadily.bind (Steadily.reads rfl fun r => by cases r <;> rfl) fun rows => ?_
      split
      · exact Steadily.pure
      · exact Steadily.bind (Steadily.reads rfl fun r => by cases r <;> rfl) fun _ => Steadily.pure
  | adminCreateProduct dto =>
    refine Keeps.bind (shopTransaction_keeps ?_) fun _ y hy => Keeps.pure hy
    refine Keeps.mono (Steadily.undone ?_ rfl) (fun _ _ => Or.inl) fun _ => id
    exact Steadily.writes rfl rfl (fun _ => rfl) fun _ => rfl
  | adminUpdateProduct productId dto =>
    refine Keeps.bind (shopTransaction_keeps ?_) fun _ y hy => Keeps.pure hy
    refine Keeps.mono (Steadily.undone ?_ rfl) (fun _ _ => Or.inl) fun _ => id
    refine Steadily.bind (Steadily.writes rfl rfl (fun _ => rfl) fun _ => rfl) fun updated => ?_
    split
    · exact Steadily.throw
    · exact Steadily.pure
  | cancelOrder userId orderId =>
    refine Keeps.guarded ⟨.order, orderId⟩ .order .received (fun (s : Option OrderStatus) => s)
      (fun s hs => by cases hs; rfl) (fun _ => rfl) (fun _ => rfl) rfl
      (fun s hs => ?_) (fun s hs => ?_) fun s t hs ht => ?_
    · subst hs
      refine Keeps.bind (Keeps.write rfl (fun _ => rfl) (fun _ => rfl) .cancel rfl) fun _ y hy => ?_
      subst hy
      refine Keeps.bind (Keeps.note (fun _ => rfl) (fun _ => rfl) rfl) fun _ y hy => ?_
      subst hy
      exact (getOrderForUser_steady rfl).ended rfl
    · subst hs
      exact ⟨_, rfl⟩
    · subst hs
      exact ⟨_, if_pos ht⟩
  | adminUpdateOrderStatus adminId orderId status =>
    refine Keeps.bind (@Keeps.set _ _ _ _ _ ⟨.order, orderId⟩ (.order status) (fun found : Bool => found)
      (fun h => by cases h) (fun found => by cases found <;> rfl) (fun _ => rfl) _ rfl) fun found y hy => ?_
    subst hy
    cases found with
    | false => exact Keeps.throw rfl
    | true =>
      refine Keeps.bind (Keeps.note (fun _ => rfl) (fun _ => rfl) rfl) fun _ y hy => ?_
      subst hy
      exact (getOrderForUser_steady rfl).ended rfl

end Shop

section Calls
variable {drv : Driver} {p : Phase}

theorem ofShop_steady {α : Type} {code : Shop.Code α} (h : Steadily shopOp p code) :
    Steadily Stmt.op p (ofShop code) :=
  ofShop_keeps h

theorem getFault_steady (hp : p.rests = true) {ex : Executor} {userId faultId : Nat} {allowAdmin : Bool} :
    Steadily Stmt.op p (getFaultForUserWithExecutor drv ex userId faultId allowAdmin) := by
  refine Steadily.bind (Steadily.reads hp fun r => by cases r <;> rfl) fun row => ?_
  split
  · exact Steadily.throw
  · split
    · exact Steadily.throw
    · exact Steadily.bind (Steadily.reads hp fun r => by cases r <;> rfl) fun _ => Steadily.pure

theorem getService_steady (hp : p.rests = true) {userId serviceId : Nat} {allowAdmin : Bool} :
    Steadily Stmt.op p (getServiceForUser drv userId serviceId allowAdmin) := by
  refine Steadily.bind (Steadily.reads hp fun r => by cases r <;> rfl) fun row => ?_
  split
  · exact Steadily.throw
  · split
    · exact Steadily.throw
    · exact Steadily.pure

theorem insertFaultAssets_steady (hp : p.rests = true) (hu : p.unseen = true) {faultId i : Nat}
    {fileIds : List Int} : Steadily Stmt.op p (insertFaultAssets faultId i fileIds) := by
  induction fileIds generalizing i with
  | nil => exact Steadily.pure
  | cons fileId rest ih =>
    exact Steadily.bind (Steadily.writes hp hu (fun _ => rfl) fun _ => rfl) fun _ => ih

theorem syncFaultAssets_steady (hp : p.rests = true) (hu : p.unseen = true) {faultId : Nat}
    {fileIds : List Int} : Steadily Stmt.op p (syncFaultAssets faultId fileIds) := by
  refine Steadily.bind ?_ fun _ => ?_
  · unfold assertValidFaultImageFiles
    split
    · exact Steadily.pure
    · refine Steadily.bind (Steadily.reads hp fun r => by cases r <;> rfl) fun rows => ?_
      split
      · exact Steadily.throw
      · exact Steadily.pure
  · refine Steadily.bind (Steadily.writes hp hu (fun _ => rfl) fun _ => rfl) fun _ => ?_
    exact insertFaultAssets_steady hp hu

/-- A transaction of the service. -/
theorem transaction_keeps {α : Type} {callback : Code α}
    (h : Keeps calls .idle callback (fun _ y => y = .idle ∨ ∃ x, y = .recorded x)
      fun y => y.undone = true) :
    Keeps calls .idle (withTransaction callback) (fun _ y => y.ended = true) fun y => y.ended = true :=
  Keeps.transacts (fun r => by cases r <;> rfl) (fun _ => rfl) (fun _ => rfl) (fun _ => rfl) (fun _ => rfl) h

/-- Every call keeps to the protocol. -/
theorem request_keeps (req : Request) :
    Keeps calls .idle (req.code drv) (fun _ y => y.ended = true) fun y => y.ended = true := by
  cases req with
  | shop req => exact ofShop_keeps (shopRequest_keeps req)
  | updateOrderAddress userId orderId deliveryAddress =>
    refine Keeps.guarded ⟨.order, orderId⟩ .order .received (fun (s : Option OrderStatus) => s)
      (fun s hs => by cases hs; rfl) (fun _ => rfl) (fun _ => rfl) rfl
      (fun s hs => ?_) (fun s hs => ?_) fun s t hs ht => ?_
    · subst hs
      refine Keeps.bind (Keeps.write rfl (fun _ => rfl) (fun _ => rfl) .touch rfl) fun _ y hy => ?_
      subst hy
      exact (ofShop_steady (getOrderForUser_steady rfl)).ended rfl
    · subst hs
      exact ⟨_, rfl⟩
    · subst hs
      exact ⟨_, if_pos ht⟩
  | createFault userId dto =>
    refine transaction_keeps ?_
    refine Keeps.bind (Q := fun (i : Nat) y => y = .drafted ⟨.fault, i⟩) (Keeps.await fun r => ?_)
      fun faultId y hy => ?_
    · cases r with
      | ok i => exact ⟨.drafted ⟨.fault, i⟩, .draft, rfl⟩
      | error e => exact ⟨.failed, .fail rfl, rfl⟩
    subst hy
    refine Keeps.bind ((syncFaultAssets_steady rfl rfl).undone rfl) fun _ y hy => ?_
    subst hy
    refine Keeps.bind (Keeps.write (y := .recorded ⟨.fault, faultId⟩) rfl (fun _ => rfl) (fun _ => rfl)
      .entry rfl) fun _ y hy => ?_
    subst hy
    exact Keeps.mono ((getFault_steady rfl).undone rfl) (fun _ y hy => Or.inr ⟨_, hy⟩) fun _ => id
  | updateFault userId faultId dto =>
    refine transaction_keeps ?_
    refine Keeps.guarded ⟨.fault, faultId⟩ .fault .received (fun (s : Option FaultStatus) => s)
      (fun s hs => by cases hs; rfl) (fun _ => rfl) (fun _ => rfl) rfl
      (fun s hs => ?_) (fun s hs => ?_) fun s t hs ht => ?_
    · subst hs
      refine Keeps.bind (Keeps.write (y := .idle) rfl (fun _ => rfl) (fun _ => rfl) .edit rfl) fun _ y hy => ?_
      subst hy
      refine Keeps.mono (Steadily.undone ?_ rfl) (fun _ _ => Or.inl) fun _ => id
      cases dto.imageFileIds with
      | none => exact getFault_steady rfl
      | some fileIds => exact Steadily.bind (syncFaultAssets_steady rfl rfl) fun _ => getFault_steady rfl
    · subst hs
      exact ⟨_, rfl⟩
    · subst hs
      exact ⟨_, if_pos ht⟩
  | cancelFault userId faultId =>
    refine Keeps.guarded ⟨.fault, faultId⟩ .fault .received (fun (s : Option FaultStatus) => s)
      (fun s hs => by cases hs; rfl) (fun _ => rfl) (fun _ => rfl) rfl
      (fun s hs => ?_) (fun s hs => ?_) fun s t hs ht => ?_
    · subst hs
      refine Keeps.bind (Keeps.write rfl (fun _ => rfl) (fun _ => rfl) .cancel rfl) fun _ y hy => ?_
      subst hy
      refine Keeps.bind (Keeps.note (fun _ => rfl) (fun _ => rfl) rfl) fun _ y hy => ?_
      subst hy
      exact (getFault_steady rfl).ended rfl
    · subst hs
      exact ⟨_, rfl⟩
    · subst hs
      exact ⟨_, if_pos ht⟩
  | adminUpdateFaultStatus adminId faultId status =>
    refine Keeps.check ⟨.fault, faultId⟩ (fun (s : Option FaultStatus) => s.map .fault)
      (fun t => ∃ s, t = .fault s ∧ (s = status ∨ status ∈ transitions s)) (fun _ => rfl) (fun _ => rfl) rfl
      (fun s t hs ht => ?_) fun s hs => ?_
    · obtain ⟨current, rfl, hgood⟩ := ht
      rcases s with _ | s
      · cases hs
      cases hs
      have hvalid : assertValidFaultTransition current status = pure () := by
        unfold assertValidFaultTransition
        rcases hgood with rfl | hgood
        · simp
        · simp [hgood]
      simp only [hvalid, pure_bind]
      refine Keeps.bind (Keeps.write rfl (fun _ => rfl) (fun _ => rfl) (.advance hgood) rfl) fun _ y hy => ?_
      subst hy
      refine Keeps.bind (Keeps.note (fun _ => rfl) (fun _ => rfl) rfl) fun _ y hy => ?_
      subst hy
      exact (getFault_steady rfl).ended rfl
    · cases s with
      | none => exact Keeps.throw rfl
      | some current =>
        have hbad : ¬ (current = status ∨ status ∈ transitions current) := fun h => hs _ rfl ⟨current, rfl, h⟩
        obtain ⟨hne, hmem⟩ := not_or.mp hbad
        simp only [assertValidFaultTransition, if_neg hne, if_pos hmem]
        exact Keeps.throw rfl
  | createService userId dto =>
    refine Keeps.bind (Q := fun (row : ServiceOrder) y => y = .due ⟨.service, row.id⟩ (.service .notStarted))
      (Keeps.await fun r => ?_) fun row y hy => ?_
    · cases r with
      | ok row => exact ⟨_, .add, rfl⟩
      | error e => exact ⟨.failed, .fail rfl, rfl⟩
    subst hy
    refine Keeps.bind (Keeps.note (fun _ => rfl) (fun _ => rfl) rfl) fun _ y hy => ?_
    subst hy
    exact Keeps.pure rfl
  | updateService userId serviceId dto =>
    refine Keeps.guarded ⟨.service, serviceId⟩ .service .notStarted (fun (s : Option ServiceStatus) => s)
      (fun s hs => by cases hs; rfl) (fun _ => rfl) (fun _ => rfl) rfl
      (fun s hs => ?_) (fun s hs => ?_) fun s t hs ht => ?_
    · subst hs
      refine Keeps.bind (Keeps.write rfl (fun _ => rfl) (fun _ => rfl) .touch rfl) fun _ y hy => ?_
      subst hy
      exact (getService_steady rfl).ended rfl
    · subst hs
      exact ⟨_, rfl⟩
    · subst hs
      exact ⟨_, if_pos ht⟩
  | cancelService userId serviceId =>
    refine Keeps.guarded ⟨.service, serviceId⟩ .service .notStarted (fun (s : Option ServiceStatus) => s)
      (fun s hs => by cases hs; rfl) (fun _ => rfl) (fun _ => rfl) rfl
      (fun s hs => ?_) (fun s hs => ?_) fun s t hs ht => ?_
    · subst hs
      refine Keeps.bind (Keeps.write rfl (fun _ => rfl) (fun _ => rfl) .cancel rfl) fun _ y hy => ?_
      subst hy
      refine Keeps.bind (Keeps.note (fun _ => rfl) (fun _ => rfl) rfl) fun _ y hy => ?_
      subst hy
      exact (getService_steady rfl).ended rfl
    · subst hs
      exact ⟨_, rfl⟩
    · subst hs
      exact ⟨_, if_pos ht⟩
  | adminUpdateServiceStatus adminId serviceId status =>
    refine Keeps.bind (@Keeps.set _ _ _ _ _ ⟨.service, serviceId⟩ (.service status) (fun found : Bool => found)
      (fun h => by cases h) (fun found => by cases found <;> rfl) (fun _ => rfl) _ rfl) fun found y hy => ?_
    subst hy
    cases found with
    | false => exact Keeps.throw rfl
    | true =>
      refine Keeps.bind (Keeps.note (fun _ => rfl) (fun _ => rfl) rfl) fun _ y hy => ?_
      subst hy
      exact (getService_steady rfl).ended rfl

end Calls

end Kayan.Items
