import Kayan.Shop.Stock

/-!
# Carts

What checkouts order comes out of the cart: never more than was put in, and each row at
most once. It is exactly what was put in when no checkout deletes a row that it has not
read, which an upsert between its `SELECT` and its `DELETE` can bring about.
-/
namespace Kayan.Shop
open RowStore Interleave

variable {drv : Driver} {req : Client → Request} {d₀ : Db} {xs : List Taken} {s t : State}

section Units

/-- The quantity of a product that a statement has added to a user's cart. -/
def addedBy (u p : Nat) (e : Taken) : Int :=
  match e with
  | ⟨_, _, .upsertCartItem userId productId quantity, .ok _⟩ =>
    if u = userId ∧ p = productId then quantity else 0
  | _ => 0

/-- The quantity of a product in the items of a user's orders. -/
def orderedQuantity (u p : Nat) (d : Db) : Int :=
  quantityOf p (d.items.committedRows.filter fun r =>
    (d.orders.committed r.orderId).any fun o => o.userId = u)

theorem upsertCartItem_added {now u p userId productId : Nat} {quantity : Int} {d d' : Db}
    {r : Except PgError Unit} {c : Client} {m : Move}
    (h : upsertCartItem now userId productId quantity d = some (r, d')) :
    d'.added u p = d.added u p + addedBy u p ⟨c, m, .upsertCartItem userId productId quantity, r⟩ := by
  unfold upsertCartItem at h
  simp only at h
  split at h
  · split at h
    · split at h
      · cases h
        simp [addedBy]
      · split at h <;> cases h
        · simp [addedBy]
        · rfl
    · cases h
  · split at h
    · cases h
      simp [addedBy]
    · split at h <;> cases h
      · simp [addedBy]
      · rfl

/-- Only upserts add to a cart. -/
theorem exec_added {now : Nat} {c : Client} {q : Stmt} {d d' : Db} {r : Answer q}
    (h : exec now c q d = some (r, d')) (hq : ∀ u p n, q ≠ .upsertCartItem u p n) :
    d'.added = d.added := by
  cases q with
  | upsertCartItem u p n => exact absurd rfl (hq u p n)
  | cancelOrderRow | updateOrderStatus =>
    obtain ⟨⟨y, e⟩, hy, he⟩ := Option.map_eq_some_iff.mp h
    cases he
    obtain ⟨orders, rfl⟩ := updateOrderRow_frame hy
    rfl
  | insertOrderHistory ex | selectOrderItems ex =>
    cases ex <;> cases h <;> rfl
  | _ =>
    simp only [exec] at h
    repeat' split at h
    all_goals cases h
    all_goals rfl

theorem step_added {e : Taken} (u p : Nat) (h : Step act s e t) :
    t.db.added u p = s.db.added u p + addedBy u p e := by
  cases h with
  | @call m c q k r d hp ha =>
    by_cases hq : ∃ u p n, q = .upsertCartItem u p n
    · obtain ⟨userId, productId, n, rfl⟩ := hq
      cases m with
      | fail err =>
        obtain ⟨rfl, rfl⟩ := act_fail ha
        simp [addedBy]
      | run now => exact upsertCartItem_added ha
    · have hadd : d.added = s.db.added := by
        cases m with
        | fail err => rw [(act_fail ha).2]
        | run now => exact exec_added ha fun u p n he => hq ⟨u, p, n, he⟩
      have hby : addedBy u p ⟨c, m, q, r⟩ = 0 := by
        cases q <;> first
          | rfl
          | exact absurd ⟨_, _, _, rfl⟩ hq
      rw [hadd, hby, Int.add_zero]

theorem run_added {Tr : State → Taken → State → Prop} (ht : ∀ s e t, Tr s e t → Step act s e t)
    (hr : Trace.Run Tr s xs t) (u p : Nat) :
    t.db.added u p = s.db.added u p + (xs.map (addedBy u p)).sum :=
  hr.weigh fun s e t h => step_added u p (ht s e t h)

/-- The items of one transaction count for the user it orders for. -/
theorem orderedQuantity_of_commit {x : Commit} {d : Db} {u p : Nat}
    (howner : ∀ r ∈ x.items,
      ∃ o, d.orders.committed r.orderId = some o ∧ (req x.client).buyer = some o.userId)
    (hreq : ∀ a items, req x.client ≠ .createOrder u a items) :
    quantityOf p (x.items.filter fun r =>
      (d.orders.committed r.orderId).any fun o => o.userId = u) = checkedOutBy req u p x := by
  by_cases hb : (req x.client).buyer = some u
  · have hall : ∀ r ∈ x.items, ((d.orders.committed r.orderId).any fun o => o.userId = u) = true := by
      intro r hr
      obtain ⟨o, ho, he⟩ := howner r hr
      rw [hb, Option.some.injEq] at he
      simp [ho, he]
    rw [List.filter_eq_self.mpr hall, checkedOutBy]
    rcases hx : req x.client with ⟨v, a, items⟩ | ⟨v, a⟩ | _ | _ | _ | _ | _ <;>
      simp only [hx, Request.buyer, Option.some.injEq, reduceCtorEq] at hb
    · subst hb
      exact absurd hx (hreq a items)
    · exact (if_pos hb).symm
  · have hno : ∀ r ∈ x.items, ¬ ((d.orders.committed r.orderId).any fun o => o.userId = u) = true := by
      intro r hr hu
      obtain ⟨o, ho, he⟩ := howner r hr
      simp only [ho, Option.any_some, decide_eq_true_eq] at hu
      exact hb (by rw [he, hu])
    rw [List.filter_eq_nil_iff.mpr hno, checkedOutBy]
    rcases hx : req x.client with ⟨v, a, items⟩ | ⟨v, a⟩ | _ | _ | _ | _ | _ <;> try rfl
    have hv : v ≠ u := by
      simpa [hx, Request.buyer] using hb
    exact (if_neg hv).symm

theorem orderedQuantity_of_log {log : List Commit} {d : Db} {u p : Nat}
    (howner : ∀ x ∈ log, ∀ r ∈ x.items,
      ∃ o, d.orders.committed r.orderId = some o ∧ (req x.client).buyer = some o.userId)
    (hreq : ∀ c a items, req c ≠ .createOrder u a items) :
    quantityOf p ((log.flatMap (·.items)).filter fun r =>
      (d.orders.committed r.orderId).any fun o => o.userId = u) = checkedOut req u p log := by
  induction log with
  | nil => rfl
  | cons x log ih =>
    have hlog := ih fun y hy => howner y (List.mem_cons_of_mem x hy)
    rw [List.flatMap_cons, List.filter_append, quantityOf_append, hlog, checkedOut, checkedOut,
      List.map_cons, List.sum_cons,
      orderedQuantity_of_commit (howner x List.mem_cons_self) (hreq x.client)]

/-- A user who only checks out has in the order tables what was there at the start and
what the checkouts have committed. -/
theorem orderedQuantity_eq {strict : Prop} {d : Db} {u p : Nat} (hq : Quiet d₀)
    (hi : Inv req d₀ strict d) (hreq : ∀ c a items, req c ≠ .createOrder u a items) :
    orderedQuantity u p d = orderedQuantity u p d₀ + checkedOut req u p d.log := by
  have hold : ∀ r ∈ d₀.items.committedRows,
      ((d.orders.committed r.orderId).any fun o => o.userId = u) =
        (d₀.orders.committed r.orderId).any fun o => o.userId = u := by
    intro r hr
    obtain ⟨o, ho⟩ := hq.orderRef r hr
    obtain ⟨o', ho', hu⟩ := hi.kept r.orderId o ho
    simp [ho, ho', hu]
  rw [orderedQuantity, quantityOf_perm (hi.items.filter _), List.filter_append, quantityOf_append,
    orderedQuantity_of_log hi.owner hreq, List.filter_congr hold, Int.add_comm]
  rfl

end Units

section Conservation

/-- As long as checkouts delete only rows that they have locked, every unit that was added
to the cart of a user is still there or in an order of the user, at every point of every run. -/
theorem cart_units_conserved (hq : Quiet d₀) {u : Nat}
    (hreq : ∀ c a items, req c ≠ .createOrder u a items)
    (hr : Trace.Run (fun s e t => Step act s e t ∧ deletesLocked e.move e.client e.stmt s.db)
      (initial drv req d₀) xs t) (p : Nat) :
    cartQuantity u p t.db.cart.committedRows + orderedQuantity u p t.db =
      cartQuantity u p d₀.cart.committedRows + orderedQuantity u p d₀ +
        (xs.map (addedBy u p)).sum := by
  have hallow : Trace.Run (Allowed (rules req d₀ True)) (initial drv req d₀) xs t :=
    hr.mono fun _ _ _ h => ⟨h.1, fun _ => h.2⟩
  have hi : Inv req d₀ True t.db := (allowed_run_safe hq hallow).1
  have hcart := hi.cartStrict trivial u p
  have hadd := run_added (fun _ _ _ h => h.1) hr u p
  have hord := orderedQuantity_eq (p := p) hq hi hreq
  have hzero : (initial drv req d₀).db.added u p = 0 := hq.added u p
  omega

/-- A lamp and a bulb product, five of each. -/
def bazaar : Db := stocked
  [{ title := "Lamp", description := "", amount := 5, price := "10.00" },
   { title := "Bulb", description := "", amount := 5, price := "2.50" }]

theorem bazaar_quiet : Quiet bazaar := stocked_quiet (by decide)

/-- Two checkouts of one user, who adds two lamps and a bulb. -/
def shopping : Client → Request
  | 0 => .checkoutCart 1 "Giza"
  | 1 => .addCartItem 1 0 2
  | 2 => .addCartItem 1 1 1
  | _ => .checkoutCart 1 "Cairo"

theorem shopping_only_checks_out : ∀ c a items, shopping c ≠ .createOrder 1 a items := by
  intro c a items h
  rcases c with _ | _ | _ | c <;> cases h

/-- The bulbs of user 1: in the cart, in orders, and added. -/
def bulbs (t : State) : Int × Int × Int :=
  (cartQuantity 1 1 t.db.cart.committedRows, orderedQuantity 1 1 t.db, t.db.added 1 1)

theorem cart_units_conserved_shopping : ∃ xs t,
    Trace.Run (fun s e t => Step act s e t ∧ deletesLocked e.move e.client e.stmt s.db)
      (initial plainDriver shopping bazaar) xs t ∧ succeeded 0 t ∧ bulbs t = (0, 1, 1) ∧
      ∀ p, cartQuantity 1 p t.db.cart.committedRows + orderedQuantity 1 p t.db =
        cartQuantity 1 p bazaar.cart.committedRows + orderedQuantity 1 p bazaar +
          (xs.map (addedBy 1 p)).sum := by
  have hplay : (play act deletesLocked (turns [(1, 4), (2, 4), (0, 19)])
      (initial plainDriver shopping bazaar)).map (fun t => (succeeded 0 t, bulbs t)) =
      some (true, 0, 1, 1) := by decide +kernel
  obtain ⟨xs, t, hr, ho⟩ := play_run hplay
  simp only [Prod.mk.injEq] at ho
  exact ⟨xs, t, hr, ho.1, ho.2, cart_units_conserved bazaar_quiet shopping_only_checks_out hr⟩

/-- A bulb is added between the `SELECT` and the `DELETE` of the checkout: all three calls
succeed, and the bulb is neither in the cart nor in an order. -/
theorem checkout_loses_bulb : ∃ xs t,
    Trace.Run (Step act) (initial plainDriver shopping bazaar) xs t ∧
      succeeded 0 t ∧ succeeded 1 t ∧ succeeded 2 t ∧
      cartQuantity 1 1 t.db.cart.committedRows + orderedQuantity 1 1 t.db = 0 ∧
      (xs.map (addedBy 1 1)).sum = 1 := by
  have hplay : (playTurns shopping bazaar [(1, 4), (0, 3), (2, 4), (0, 12)]).map
      (fun t => (succeeded 0 t, succeeded 1 t, succeeded 2 t, bulbs t)) =
      some (true, true, true, 0, 0, 1) := by decide +kernel
  obtain ⟨xs, t, hr, ho⟩ := playTurns_run hplay
  simp only [Prod.mk.injEq, bulbs] at ho
  obtain ⟨h₀, h₁, h₂, hcart, hord, hadd⟩ := ho
  have hsum := run_added (fun _ _ _ h => h) hr 1 1
  have hzero : (initial plainDriver shopping bazaar).db.added 1 1 = 0 := rfl
  exact ⟨xs, t, hr, h₀, h₁, h₂, by omega, by omega⟩

end Conservation

section Race

/-- What is left of a transaction: its callback, then `COMMIT`, or `ROLLBACK` when it throws. -/
def inTransaction {α : Type} (callback : Code α) : Code α :=
  tryCatch
    (do
      let result ← callback
      query .commit
      pure result)
    fun error => do
      query .rollback
      throw error

theorem inTransaction_query {α : Type} (q : Stmt) (f : Reply q → Code α) :
    ∃ k, (inTransaction (query q >>= f)).run = .call q k ∧
      ∀ v, k (.ok v) = (inTransaction (f v)).run :=
  ⟨_, rfl, fun _ => rfl⟩

theorem inTransaction_throw (e : Failure) :
    ∃ k, (inTransaction (throw e : Code Payload)).run = .call .rollback k ∧
      ∀ v, k (.ok v) = .ret (.error e) :=
  ⟨_, rfl, fun _ => rfl⟩

theorem lockCartRows_bind {α : Type} (u i : Nat) (ids : List Nat) (f : List CartItem → Code α) :
    lockCartRows u (i :: ids) >>= f = query (.lockCartRow i u) >>= fun row =>
      lockCartRows u ids >>= fun rows => f (Option.toList row ++ rows) := by
  refine (bind_assoc _ _ _).trans (bind_congr fun row => ?_)
  exact (bind_assoc _ _ _).trans (bind_congr fun rows => pure_bind _ _)

/-- A checkout that has read which cart rows there are and has yet to lock them. -/
def awaitingLocks (drv : Driver) (userId : Nat) (deliveryAddress : String) (ids : List Nat) :
    Code Payload :=
  inTransaction (lockCartRows userId ids >>= checkoutRows drv userId deliveryAddress)

/-- `BEGIN` and the snapshot of the `SELECT` lead there. -/
theorem checkoutCart_awaits (drv : Driver) (userId : Nat) (deliveryAddress : String) :
    ∃ k k', (checkoutCart drv userId deliveryAddress).run = .call .begin k ∧
      k (.ok ()) = .call (.snapshotCart userId) k' ∧
      ∀ ids, k' (.ok ids) = (awaitingLocks drv userId deliveryAddress ids).run :=
  ⟨_, _, rfl, rfl, fun _ => rfl⟩

def emptyCart : Failure := .badRequest "Cart is empty"

/-- The checkout of `c` has got no row and gets none of `ids` either: it is about to fail,
or has failed. -/
def Losing (c : Client) (u : Nat) (ids : List Nat) (s : State) : Prop :=
  (∀ i ∈ ids, s.db.cart.Dead i) ∧
    ((∃ rest f, (∀ i ∈ rest, i ∈ ids) ∧ f [] = (throw emptyCart : Code Payload) ∧
      s.prog c = (inTransaction (lockCartRows u rest >>= f)).run) ∨
    s.prog c = .ret (.error emptyCart))

/-- The checkout of `c` waits for rows that `b` holds. -/
def Waiting (b c : Client) (u : Nat) (ids : List Nat) (s : State) : Prop :=
  (∀ i ∈ ids, s.db.cart.own b i ≠ none) ∧ ∃ first rest f, ids = first :: rest ∧
    f [] = (throw emptyCart : Code Payload) ∧
    s.prog c = (inTransaction (lockCartRows u ids >>= f)).run

variable {b c : Client} {u : Nat} {ids : List Nat} {e : Taken}

/-- A row that is gone is left out when its turn comes. -/
theorem lockCartRow_dead {m : Move} {i : Nat} {d d' : Db} {v : Option CartItem} (hi : d.cart.Dead i)
    (ha : act m c (.lockCartRow i u) d = some (.ok v, d')) : v = none := by
  cases m with
  | fail err => cases (act_fail ha).1
  | run now =>
    have hview : d.cart.view c i = none := hi.view
    simp only [act, exec, hview] at ha
    split at ha
    · cases ha
    · cases ha
      rfl

theorem Losing.step (h : Losing c u ids s) (hs : Step act s e t)
    (hok : e.client = c → ∀ err, e.reply ≠ .error err) : Losing c u ids t := by
  obtain ⟨hdead, hprog⟩ := h
  cases hs with
  | @call m a q k r d hp ha =>
    have hdead' : ∀ i ∈ ids, d.cart.Dead i := fun i hi => act_dead ha (hdead i hi)
    refine ⟨hdead', ?_⟩
    by_cases hc : c = a
    · subst hc
      simp only [Function.update_self]
      rcases hprog with ⟨rest, f, hsub, hf, hrun⟩ | hret
      · cases rest with
        | nil =>
          -- no row is left to wait for: the empty cart is rejected
          obtain ⟨k', hk, hk'⟩ := inTransaction_throw emptyCart
          have hrun : s.prog c = .call .rollback k' := by
            rw [hrun, ← hk, ← hf]
            rfl
          cases hp.symm.trans hrun
          cases r with
          | error err => exact absurd rfl (hok rfl err)
          | ok v => exact Or.inr (hk' v)
        | cons i rest =>
          -- the row is gone, so it is left out
          obtain ⟨k', hk, hk'⟩ := inTransaction_query (.lockCartRow i u) fun row =>
            lockCartRows u rest >>= fun rows => f (Option.toList row ++ rows)
          rw [lockCartRows_bind, hk] at hrun
          cases hp.symm.trans hrun
          cases r with
          | error err => exact absurd rfl (hok rfl err)
          | ok v =>
            obtain rfl := lockCartRow_dead (hdead i (hsub i List.mem_cons_self)) ha
            refine Or.inl ⟨rest, f, fun j hj => hsub j (List.mem_cons_of_mem i hj), hf, ?_⟩
            exact hk' none
      · rw [hret] at hp
        cases hp
    · simpa only [Function.update_of_ne hc] using hprog

theorem Waiting.step (hb : b ≠ c) (h : Waiting b c u ids s) (hs : Step act s e t)
    (hg : e.client = b → e.stmt = .commit → ∀ i v w, s.db.cart.own b i = some (v, w) → w = none)
    (hroll : e.client = b → e.stmt ≠ .rollback)
    (hok : e.client = c → ∀ err, e.reply ≠ .error err) :
    Waiting b c u ids t ∨ Losing c u ids t := by
  obtain ⟨hheld, first, rest, f, rfl, hf, hrun⟩ := h
  cases hs with
  | @call m a q k r d hp ha =>
    by_cases hc : a = c
    · -- the row it waits for is not free
      subst hc
      obtain ⟨k', hk, -⟩ := inTransaction_query (.lockCartRow first u) fun row =>
        lockCartRows u rest >>= fun rows => f (Option.toList row ++ rows)
      rw [lockCartRows_bind, hk] at hrun
      cases hp.symm.trans hrun
      cases m with
      | fail err => exact absurd (act_fail ha).1 (hok rfl err)
      | run now =>
        have hfree : ¬ s.db.cart.free a first = true := fun hfree =>
          hb (Table.free_iff_of_own (hheld first List.mem_cons_self) hfree).symm
        simp only [act, exec, if_pos hfree] at ha
        cases ha
    · have hprog : Function.update s.prog a (k r) c =
          (inTransaction (lockCartRows u (first :: rest) >>= f)).run := by
        rw [Function.update_of_ne (Ne.symm hc), hrun]
      by_cases ha' : a = b
      · subst ha'
        rcases act_change ha with hch | ⟨rfl, rfl⟩ | ⟨rfl, -⟩
        · exact Or.inl ⟨fun i hi => hch.own_cart (hheld i hi), first, rest, f, rfl, hf, hprog⟩
        · refine Or.inr ⟨fun i hi => ?_, Or.inl ⟨first :: rest, f, fun _ hi => hi, hf, hprog⟩⟩
          rcases ho : s.db.cart.own a i with _ | ⟨v, w⟩
          · exact absurd ho (hheld i hi)
          · obtain rfl := hg rfl rfl i v w ho
            exact Table.dead_of_deleted ho
        · exact absurd rfl (hroll rfl)
      · have hrely : Rely b s.db d := act_rely ha (Ne.symm ha')
        refine Or.inl ⟨fun i hi => ?_, first, rest, f, rfl, hf, hprog⟩
        rw [hrely.cart]
        exact hheld i hi

/-- A checkout all of whose rows are locked by another one that goes on to commit can end
in no way but with the empty cart. -/
theorem waiting_checkout_fails (hq : Quiet d₀) {zs : List Taken}
    (h₀ : Trace.Run (Step act) (initial drv req d₀) zs s) (hb : b ≠ c) {addr : String}
    (hprog : s.prog c = (awaitingLocks drv u addr ids).run)
    (hheld : ∀ i ∈ ids, s.db.cart.own b i ≠ none) (hr : Trace.Run (Step act) s xs t)
    (hroll : ∀ e ∈ xs, e.client = b → e.stmt ≠ .rollback)
    (hok : ∀ e ∈ xs, e.client = c → ∀ err, e.reply ≠ .error err)
    {res : Except Failure Payload} (hres : t.prog c = .ret res) : res = .error emptyCart := by
  have hstart : Waiting b c u ids s ∨ Losing c u ids s := by
    cases hids : ids with
    | nil =>
      subst hids
      exact Or.inr ⟨fun i hi => absurd hi List.not_mem_nil, Or.inl ⟨[], _, fun _ hi => hi, rfl, hprog⟩⟩
    | cons first rest =>
      subst hids
      exact Or.inl ⟨hheld, first, rest, _, rfl, rfl, hprog⟩
  have hend : AllSafe (rules req d₀ False) (Settled req) t ∧ (Waiting b c u ids t ∨ Losing c u ids t) := by
    refine (hr.labels fun e he => And.intro (hroll e he) (hok e he)).preserves
      (I := fun v => AllSafe (rules req d₀ False) (Settled req) v ∧
        (Waiting b c u ids v ∨ Losing c u ids v)) ?_ ⟨run_safe hq h₀, hstart⟩
    rintro v e w ⟨hs, hroll, hok⟩ ⟨hsafe, hv⟩
    obtain ⟨hsafe', hg⟩ := hsafe.step ⟨hs, False.elim⟩
    refine ⟨hsafe', ?_⟩
    rcases hv with hv | hv
    · exact hv.step hb hs (fun he hcm => he ▸ hg hcm) hroll hok
    · exact Or.inr (hv.step hs hok)
  rcases hend.2 with ⟨-, first, rest, f, rfl, -, hrun⟩ | ⟨-, ⟨rest, f, -, hf, hrun⟩ | hret⟩
  · rw [lockCartRows_bind] at hrun
    cases hres.symm.trans hrun
  · cases rest with
    | nil =>
      obtain ⟨k, hk, -⟩ := inTransaction_throw emptyCart
      have hrun : t.prog c = .call .rollback k := by
        rw [hrun, ← hk, ← hf]
        rfl
      cases hres.symm.trans hrun
    | cons i rest =>
      rw [lockCartRows_bind] at hrun
      cases hres.symm.trans hrun
  · cases hres.symm.trans hret
    rfl

/-- In every run checkouts order at most what was added to the cart, each from cart rows
that no other order was made from; what they leave is what the committed transactions
account for. A checkout whose rows another one holds until it commits fails with an empty
cart and is none of them. -/
theorem checkout_orders_once (hq : Quiet d₀)
    (hr : Trace.Run (Step act) (initial drv req d₀) xs t) :
    (∀ u p, checkedOut req u p t.db.log ≤
      cartQuantity u p d₀.cart.committedRows + (xs.map (addedBy u p)).sum) ∧
    ((t.db.log.flatMap (·.taken)).map (·.id)).Nodup ∧ Accounted req d₀ t.db ∧
    ∀ zs ys s b c u addr ids, Trace.Run (Step act) (initial drv req d₀) zs s →
      Trace.Run (Step act) s ys t → b ≠ c → s.prog c = (awaitingLocks drv u addr ids).run →
      (∀ i ∈ ids, s.db.cart.own b i ≠ none) → (∀ e ∈ ys, e.client = b → e.stmt ≠ .rollback) →
      (∀ e ∈ ys, e.client = c → ∀ err, e.reply ≠ .error err) →
      ∀ res, t.prog c = .ret res → res = .error emptyCart ∧ ∀ x ∈ t.db.log, x.client ≠ c := by
  have hi : Inv req d₀ False t.db := (run_safe hq hr).1
  refine ⟨fun u p => ?_, hi.takenOnce, accounted_run hq hr, ?_⟩
  · have hcart := hi.cart u p
    have hadd := run_added (fun _ _ _ h => h) hr u p
    have hzero : (initial drv req d₀).db.added u p = 0 := hq.added u p
    have hpos : 0 ≤ cartQuantity u p t.db.cart.committedRows := by
      refine cartQuantity_subperm List.nil_subperm fun r hr => ?_
      obtain ⟨i, hc⟩ := Table.mem_committedRows.mp hr
      exact Int.le_of_lt (hi.cartRow i r hc).2
    omega
  · intro zs ys s b c u addr ids h₀ hys hb hprog hheld hroll hok res hres
    have hfail := waiting_checkout_fails hq h₀ hb hprog hheld hys hroll hok hres
    subst hfail
    exact ⟨rfl, failed_not_logged hq hr hres⟩

/-- The second checkout has read the same rows and waits for them until the first commits. -/
theorem checkout_orders_once_shopping : ∃ xs t,
    Trace.Run (Step act) (initial plainDriver shopping bazaar) xs t ∧ succeeded 0 t ∧
      failure 3 t = some emptyCart ∧ checkedOut shopping 1 1 t.db.log = 1 ∧
      ∀ u p, checkedOut shopping u p t.db.log ≤
        cartQuantity u p bazaar.cart.committedRows + (xs.map (addedBy u p)).sum := by
  have hplay : (playTurns shopping bazaar [(1, 4), (2, 4), (0, 4), (3, 2), (0, 15), (3, 3)]).map
      (fun t => (succeeded 0 t, failure 3 t, checkedOut shopping 1 1 t.db.log)) =
      some (true, some emptyCart, 1) := by decide +kernel
  obtain ⟨xs, t, hr, ho⟩ := playTurns_run hplay
  simp only [Prod.mk.injEq] at ho
  exact ⟨xs, t, hr, ho.1, ho.2.1, ho.2.2, (checkout_orders_once bazaar_quiet hr).1⟩

end Race
end Kayan.Shop
