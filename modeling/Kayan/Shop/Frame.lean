import Kayan.Shop.Service

/-!
# What statements change

`Change c d d'` lists what a statement of client `c`, `COMMIT` and `ROLLBACK` apart, can do
to the store. From it follows what a statement leaves alone: the versions that the open
transactions of the others have written, and with them everything they know (`Rely`).
-/
namespace Kayan.Shop
open RowStore Interleave

/-- The effects of the statements of `c` other than `COMMIT` and `ROLLBACK`. -/
inductive Change (c : Client) (d : Db) : Db → Prop
  | same : Change c d d
  | writeProduct {p : Nat} {row w : CatalogProduct} {sets : Client → List (Nat × Int)}
      (hv : d.catalog.view c p = some row) (hf : d.catalog.free c p = true)
      (hs : ∀ b, b ≠ c → sets b = d.amountSet b) :
      Change c d { d with catalog := d.catalog.write c p (some w), amountSet := sets }
  | insertProduct {w : CatalogProduct} {sets : Client → List (Nat × Int)}
      (hs : ∀ b, b ≠ c → sets b = d.amountSet b) :
      Change c d { d with catalog := d.catalog.insert c w, amountSet := sets }
  | insertOrder {o : ProductOrder} : Change c d { d with orders := d.orders.insert c o }
  | insertItem {r : OrderItem} : Change c d { d with items := d.items.insert c r }
  | insertHistory {r : StatusChange} : Change c d { d with history := d.history.insert c r }
  | appendHistory {r : StatusChange} : Change c d { d with history := d.history.append r }
  | updateOrder {i : Nat} {o o' : ProductOrder} (hc : d.orders.committed i = some o)
      (hh : (d.orders.cell i).held = none) (hid : o'.id = o.id) (hu : o'.userId = o.userId) :
      Change c d { d with orders := d.orders.store i (some o') }
  | appendCart {r : CartItem} (hid : r.id = d.cart.next) (hq : 0 < r.quantity) :
      Change c d
        { d with cart := d.cart.append r,
                 added := fun u p => d.added u p + if u = r.userId ∧ p = r.productId then r.quantity else 0 }
  | raiseCart {i : Nat} {r : CartItem} {q : Int} {t : Nat} (hc : d.cart.committed i = some r)
      (hh : (d.cart.cell i).held = none) (hq : 0 < r.quantity + q) :
      Change c d
        { d with cart := d.cart.store i (some { r with quantity := r.quantity + q, updatedAt := t }),
                 added := fun u p => d.added u p + if u = r.userId ∧ p = r.productId then q else 0 }
  | writeCart {i : Nat} {r : CartItem} {w : Option CartItem} (hv : d.cart.view c i = some r)
      (hf : d.cart.free c i = true) : Change c d { d with cart := d.cart.write c i w }

variable {now : Nat} {m : Move} {b c : Client} {d d' d'' : Db}

theorem cartKey_some {u p i : Nat} {t : Table Client CartItem} (h : cartKey u p t = some i) :
    ∃ r, t.committed i = some r ∧ r.userId = u ∧ r.productId = p := by
  have hi := List.find?_some h
  rcases hc : t.committed i with _ | r
  · simp [hc] at hi
  · simp only [hc, Bool.decide_and, Bool.and_eq_true, decide_eq_true_eq] at hi
    exact ⟨r, rfl, hi.1, hi.2⟩

theorem cartKey_none {u p i : Nat} {r : CartItem} {t : Table Client CartItem}
    (h : cartKey u p t = none) (hc : t.committed i = some r) : ¬ (r.userId = u ∧ r.productId = p) := by
  have hi := List.find?_eq_none.mp h i (List.mem_range.mpr (Table.lt_of_committed hc))
  simpa [hc] using hi

theorem upsertCartItem_change {u p : Nat} {q : Int} {r : Except PgError Unit}
    (h : upsertCartItem now u p q d = some (r, d')) : Change c d d' := by
  unfold upsertCartItem at h
  rcases hk : cartKey u p d.cart with _ | i
  · simp only [hk] at h
    split at h
    · cases h
      exact .same
    · split at h
      · cases h
        exact .same
      · cases h
        exact .appendCart rfl (by simpa using ‹¬ q ≤ 0›)
  · obtain ⟨row, hc, rfl, rfl⟩ := cartKey_some hk
    simp only [hk, hc] at h
    rcases hh : (d.cart.cell i).held with _ | x
    · simp only [hh] at h
      split at h
      · cases h
        exact .same
      · split at h
        · cases h
          exact .same
        · cases h
          exact .raiseCart hc hh (by simpa using ‹¬ row.quantity + q ≤ 0›)
    · simp [hh] at h

theorem updateOrderRow_change {i : Nat} {f : ProductOrder → ProductOrder} {x : Bool}
    (hid : ∀ o, (f o).id = o.id) (hu : ∀ o, (f o).userId = o.userId)
    (h : updateOrderRow i f d = some (x, d')) : Change c d d' := by
  unfold updateOrderRow at h
  rcases hc : d.orders.committed i with _ | o
  · simp only [hc, Option.some.injEq, Prod.mk.injEq] at h
    obtain ⟨-, rfl⟩ := h
    exact .same
  · rcases hh : (d.orders.cell i).held with _ | y
    · simp only [hc, hh, Option.some.injEq, Prod.mk.injEq] at h
      obtain ⟨-, rfl⟩ := h
      exact .updateOrder hc hh (hid o) (hu o)
    · simp [hc, hh] at h

theorem exec_change {q : Stmt} {r : Answer q} (h : exec now c q d = some (r, d'))
    (hc : q ≠ .commit) (hb : q ≠ .rollback) : Change c d d' := by
  cases q with
  | commit => exact absurd rfl hc
  | rollback => exact absurd rfl hb
  | begin | selectProduct | selectCart | selectProductAssets | snapshotCart | snapshotDelete
  | selectOrderStatus | selectOrder | dateNow =>
    simp only [exec, Option.some.injEq, Prod.mk.injEq] at h
    obtain ⟨-, rfl⟩ := h
    exact .same
  | selectOrderItems ex =>
    cases ex <;>
    · simp only [exec, Option.some.injEq, Prod.mk.injEq] at h
      obtain ⟨-, rfl⟩ := h
      exact .same
  | insertOrder =>
    simp only [exec, Option.some.injEq, Prod.mk.injEq] at h
    obtain ⟨-, rfl⟩ := h
    exact .insertOrder
  | selectProductForUpdate p =>
    simp only [exec] at h
    split at h
    · cases h
      exact .same
    · rename_i row hv
      split at h
      · cases h
        exact .same
      · split at h
        · rename_i hf
          cases h
          rw [Table.lock, hv]
          exact .writeProduct hv hf fun _ _ => rfl
        · cases h
  | insertOrderItem =>
    simp only [exec] at h
    split at h
    · cases h
      exact .same
    · split at h
      · cases h
        exact .same
      · cases h
        exact .insertItem
  | decrementAmount quantity p =>
    simp only [exec] at h
    split at h
    · cases h
      exact .same
    · rename_i row hv
      split at h
      · cases h
      · rename_i hf
        split at h
        · cases h
          exact .same
        · cases h
          exact .writeProduct hv (by simpa using hf) fun _ _ => rfl
  | insertOrderHistory ex =>
    cases ex with
    | client =>
      simp only [exec, Option.some.injEq, Prod.mk.injEq] at h
      obtain ⟨-, rfl⟩ := h
      exact .insertHistory
    | pool =>
      simp only [exec, Option.some.injEq, Prod.mk.injEq] at h
      obtain ⟨-, rfl⟩ := h
      exact .appendHistory
  | insertProduct =>
    simp only [exec] at h
    split at h
    · cases h
      exact .same
    · split at h
      · cases h
        exact .same
      · cases h
        exact .insertProduct fun b hb => Function.update_of_ne hb _ _
  | updateProduct p dto =>
    simp only [exec] at h
    split at h
    · cases h
      exact .same
    · rename_i row hv
      split at h
      · cases h
        exact .same
      · split at h
        · cases h
        · rename_i hf
          split at h
          · cases h
            exact .same
          · split at h
            · cases h
              exact .same
            · cases h
              refine .writeProduct hv (by simpa using hf) fun b hb => ?_
              cases dto.amount with
              | none => rfl
              | some a => exact Function.update_of_ne hb _ _
  | upsertCartItem => exact upsertCartItem_change h
  | lockCartRow i userId =>
    simp only [exec] at h
    split at h
    · cases h
    · rename_i hf
      split at h
      · rename_i row hv
        split at h
        · cases h
          rw [Table.lock, hv]
          exact .writeCart hv (by simpa using hf)
        · cases h
          exact .same
      · cases h
        exact .same
  | deleteCartRow i userId =>
    simp only [exec] at h
    split at h
    · cases h
    · rename_i hf
      split at h
      · rename_i row hv
        split at h
        · cases h
          exact .writeCart hv (by simpa using hf)
        · cases h
          exact .same
      · cases h
        exact .same
  | cancelOrderRow =>
    obtain ⟨⟨y, e⟩, hx, he⟩ := Option.map_eq_some_iff.mp h
    cases he
    exact updateOrderRow_change (fun _ => by rfl) (fun _ => by rfl) hx
  | updateOrderStatus =>
    obtain ⟨⟨y, e⟩, hx, he⟩ := Option.map_eq_some_iff.mp h
    cases he
    exact updateOrderRow_change (fun _ => by rfl) (fun _ => by rfl) hx

theorem act_fail {q : Stmt} {r : Answer q} {e : PgError}
    (h : act (.fail e) c q d = some (r, d')) : r = .error e ∧ d' = d := by
  cases q with
  | rollback => cases h
  | _ =>
    cases h
    exact ⟨rfl, rfl⟩

/-- What one statement does: it ends the transaction, or it has one of the listed effects. -/
theorem act_change {q : Stmt} {r : Answer q} (h : act m c q d = some (r, d')) :
    Change c d d' ∨ q = .commit ∧ d' = d.commit c ∨ q = .rollback ∧ d' = d.rollback c := by
  cases m with
  | fail e =>
    obtain ⟨-, rfl⟩ := act_fail h
    exact Or.inl .same
  | run now =>
    by_cases hc : q = .commit
    · subst hc
      simp only [act, exec, Option.some.injEq, Prod.mk.injEq] at h
      exact Or.inr (Or.inl ⟨rfl, h.2.symm⟩)
    · by_cases hb : q = .rollback
      · subst hb
        simp only [act, exec, Option.some.injEq, Prod.mk.injEq] at h
        exact Or.inr (Or.inr ⟨rfl, h.2.symm⟩)
      · exact Or.inl (exec_change h hc hb)

theorem upsertCartItem_error {u p : Nat} {q : Int} {e : PgError}
    (h : upsertCartItem now u p q d = some (.error e, d')) : d' = d := by
  unfold upsertCartItem at h
  simp only at h
  split at h
  · split at h
    · split at h
      · cases h
        rfl
      · split at h <;> cases h
        rfl
    · cases h
  · split at h
    · cases h
      rfl
    · split at h <;> cases h
      rfl

/-- A statement that raises an error changes nothing. -/
theorem act_error {q : Stmt} {e : PgError} (h : act m c q d = some (.error e, d')) : d' = d := by
  cases m with
  | fail e' => exact (act_fail h).2
  | run now =>
    cases q with
    | insertOrderItem | decrementAmount | insertProduct | updateProduct | selectProductForUpdate
    | lockCartRow | deleteCartRow =>
      simp only [act, exec] at h
      repeat' split at h
      all_goals cases h
      all_goals rfl
    | upsertCartItem => exact upsertCartItem_error h
    | cancelOrderRow | updateOrderStatus =>
      obtain ⟨x, -, he⟩ := Option.map_eq_some_iff.mp h
      cases he
    | insertOrderHistory ex | selectOrderItems ex => cases ex <;> cases h
    | _ => cases h

/-- The committed transactions of `b`. -/
def Db.commits (b : Client) (d : Db) : List Commit := d.log.filter fun x => x.client = b

/-- What `b` relies on: nobody else touches its uncommitted versions or commits for it. -/
structure Rely (b : Client) (d d' : Db) : Prop where
  catalog : ∀ i, d'.catalog.own b i = d.catalog.own b i
  orders : ∀ i, d'.orders.own b i = d.orders.own b i
  items : ∀ i, d'.items.own b i = d.items.own b i
  cart : ∀ i, d'.cart.own b i = d.cart.own b i
  amountSet : d'.amountSet b = d.amountSet b
  commits : d'.commits b = d.commits b

theorem Rely.refl : Rely b d d :=
  ⟨fun _ => rfl, fun _ => rfl, fun _ => rfl, fun _ => rfl, rfl, rfl⟩

theorem Rely.trans (h : Rely b d d') (h' : Rely b d' d'') : Rely b d d'' where
  catalog i := (h'.catalog i).trans (h.catalog i)
  orders i := (h'.orders i).trans (h.orders i)
  items i := (h'.items i).trans (h.items i)
  cart i := (h'.cart i).trans (h.cart i)
  amountSet := h'.amountSet.trans h.amountSet
  commits := h'.commits.trans h.commits

theorem Change.rely (h : Change c d d') (hb : b ≠ c) : Rely b d d' := by
  cases h with
  | same => exact Rely.refl
  | writeProduct hv hf hs => exact { Rely.refl with
      catalog := fun _ => Table.own_write_ne hb hf, amountSet := hs b hb }
  | insertProduct hs => exact { Rely.refl with
      catalog := fun _ => Table.own_insert_ne hb, amountSet := hs b hb }
  | insertOrder => exact { Rely.refl with orders := fun _ => Table.own_insert_ne hb }
  | insertItem => exact { Rely.refl with items := fun _ => Table.own_insert_ne hb }
  | insertHistory | appendHistory => exact { Rely.refl with }
  | updateOrder _ hh => exact { Rely.refl with orders := fun _ => Table.own_store hh }
  | appendCart => exact { Rely.refl with cart := fun _ => Table.own_append }
  | raiseCart _ hh => exact { Rely.refl with cart := fun _ => Table.own_store hh }
  | writeCart _ hf => exact { Rely.refl with cart := fun _ => Table.own_write_ne hb hf }

theorem commit_rely (hb : b ≠ c) : Rely b d (d.commit c) where
  catalog _ := Table.own_commit_ne hb
  orders _ := Table.own_commit_ne hb
  items _ := Table.own_commit_ne hb
  cart _ := Table.own_commit_ne hb
  amountSet := Function.update_of_ne hb _ _
  commits := List.filter_cons_of_neg (by simp [Db.record, Ne.symm hb])

theorem rollback_rely (hb : b ≠ c) : Rely b d (d.rollback c) where
  catalog _ := Table.own_rollback_ne hb
  orders _ := Table.own_rollback_ne hb
  items _ := Table.own_rollback_ne hb
  cart _ := Table.own_rollback_ne hb
  amountSet := Function.update_of_ne hb _ _
  commits := rfl

theorem act_rely {q : Stmt} {r : Answer q} (h : act m c q d = some (r, d')) (hb : b ≠ c) :
    Rely b d d' := by
  rcases act_change h with hc | ⟨-, rfl⟩ | ⟨-, rfl⟩
  · exact hc.rely hb
  · exact commit_rely hb
  · exact rollback_rely hb

/-- The lock of a cart row is kept until the transaction ends. -/
theorem Change.own_cart {i : Nat} (h : Change c d d') (hi : d.cart.own c i ≠ none) :
    d'.cart.own c i ≠ none := by
  cases h with
  | appendCart => rwa [Table.own_append]
  | raiseCart _ hh => rwa [Table.own_store hh]
  | writeCart hv =>
    rw [Table.own_write (Table.lt_of_view hv)]
    split
    · simp
    · exact hi
  | _ => exact hi

/-- A cart row that is gone stays gone. -/
theorem Change.dead {i : Nat} (h : Change c d d') (hi : d.cart.Dead i) : d'.cart.Dead i := by
  cases h with
  | appendCart => exact hi.push
  | raiseCart hc => exact hi.set (Table.cell_ne_of_committed hc)
  | writeCart hv => exact hi.set (Table.cell_ne_of_view hv)
  | _ => exact hi

theorem act_dead {i : Nat} {q : Stmt} {r : Answer q} (h : act m c q d = some (r, d'))
    (hi : d.cart.Dead i) : d'.cart.Dead i := by
  rcases act_change h with hc | ⟨-, rfl⟩ | ⟨-, rfl⟩
  · exact hc.dead hi
  · exact hi.commit
  · exact hi.rollback

end Kayan.Shop
