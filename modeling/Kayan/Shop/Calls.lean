import Kayan.Shop.Transactions

/-!
# The calls of the shop

`withTransaction` commits what is ready or rolls everything back. With the proofs of its
callbacks every call is safe among all others, so the invariant holds in every run.
-/
namespace Kayan.Shop
open RowStore Interleave

variable {req : Client → Request} {d₀ : Db} {strict : Prop} {c : Client} {d d' : Db}

section Transactions

/-- Nothing is open. -/
structure Idle (c : Client) (d : Db) : Prop where
  catalog : ∀ i, d.catalog.own c i = none
  orders : ∀ i, d.orders.own c i = none
  items : ∀ i, d.items.own c i = none
  cart : ∀ i, d.cart.own c i = none
  amountSet : d.amountSet c = []

/-- Nothing is open and nothing has been committed. -/
abbrev Clean (c : Client) (d : Db) : Prop := Unordered c NoCart d

/-- Nothing is open, and one transaction has been committed. -/
def Committed (c : Client) (d : Db) : Prop := Idle c d ∧ ∃ x, d.commits c = [x]

theorem Idle.of_rely (hc : Idle c d) (h : Rely c d d') : Idle c d' where
  catalog i := (h.catalog i).trans (hc.catalog i)
  orders i := (h.orders i).trans (hc.orders i)
  items i := (h.items i).trans (hc.items i)
  cart i := (h.cart i).trans (hc.cart i)
  amountSet := h.amountSet.trans hc.amountSet

theorem committed_steady : Steady req d₀ strict c (Committed c) := by
  intro d d' hr _ ⟨hi, x, hx⟩
  exact ⟨hi.of_rely hr, x, hr.commits.trans hx⟩

theorem rollback_clean (h : d.commits c = []) : Clean c (d.rollback c) where
  catalog _ := Table.own_rollback_self
  orders _ := Table.own_rollback_self
  items _ := Table.own_rollback_self
  cart _ := Table.own_rollback_self
  amountSet := Function.update_self ..
  commits := h

theorem commit_committed (h : d.commits c = []) : Committed c (d.commit c) := by
  refine ⟨⟨fun _ => Table.own_commit_self, fun _ => Table.own_commit_self,
    fun _ => Table.own_commit_self, fun _ => Table.own_commit_self, Function.update_self ..⟩,
    d.record c, ?_⟩
  have hlog : (d.commit c).log = d.record c :: d.log := rfl
  have hc : (d.record c).client = c := rfl
  rw [Db.commits, hlog, List.filter_cons_of_pos (by simp [hc])]
  exact congrArg _ h

theorem Rely.record (h : Rely c d d') : d'.record c = d.record c := by
  simp only [Db.record, h.amountSet, Table.pending_congr h.orders, Table.pending_congr h.items,
    Table.deleted_congr h.cart]

theorem Ready.of_rely (hr : Ready req strict c d) (h : Rely c d d') : Ready req strict c d' where
  published := h.record ▸ hr.published
  balanced := hr.balanced.of_rely h
  orders i v w hi := hr.orders i v w ((h.orders i).symm.trans hi)
  items i v w hi := hr.items i v w ((h.items i).symm.trans hi)
  owner r hi := by
    rw [Table.pending_congr h.items] at hi
    simpa only [h.orders] using hr.owner r hi
  cart i v w hi := hr.cart i v w ((h.cart i).symm.trans hi)

variable {α : Type} {Q : α → Db → Prop}

/-- The transaction commits what its callback leaves ready, or leaves nothing. -/
theorem withTransaction_does {callback : Code α}
    (h : Does req d₀ strict c (Clean c) callback Q fun d => d.commits c = [])
    (hs : ∀ a, Steady req d₀ strict c (Q a))
    (hq : ∀ a d, Inv req d₀ strict d → Q a d → Ready req strict c d ∧ d.commits c = []) :
    Does req d₀ strict c (Clean c) (withTransaction callback) (fun _ => Committed c) (Clean c) := by
  refine Triple.transaction (P := Clean c) (Q := Q) (E := fun d => d.commits c = []) ?_ h (fun a => ?_) ?_
    (fun _ => committed_steady) uncommitted_steady Unordered.steady
  · refine query_reads (by simp) Unordered.steady uncommitted_steady (fun d h => h.commits) ?_
    intro now d v d' hx
    cases hx
    rfl
  · refine Triple.await (hs a) (fun _ => committed_steady) uncommitted_steady ?_
    intro m d r d' hi _ hd ha
    have ha : act m c .commit d = some (r, d') := ha
    obtain ⟨hr, hcm⟩ := hq a d hi hd
    cases m with
    | fail e =>
      obtain ⟨rfl, rfl⟩ := act_fail ha
      exact ⟨hi, fun _ => hr.cart, hcm⟩
    | run now =>
      cases ha
      exact ⟨Inv.commit hi hr, fun _ => hr.cart, commit_committed hcm⟩
  · refine Triple.await uncommitted_steady (fun _ => Unordered.steady) Unordered.steady ?_
    intro m d r d' hi _ hd ha
    have ha : act m c .rollback d = some (r, d') := ha
    cases m with
    | fail e => cases ha
    | run now =>
      cases ha
      exact ⟨Inv.rollback hi, fun hq => (by cases hq), rollback_clean hd⟩

end Transactions

section Orders
variable {K : OwnCart → Prop} {o : ProductOrder} {lines : List OrderLine} {u : Nat}

theorem Placing.oneOrder (hp : Placing c o lines (fun _ => 0) K d) (hu : o.userId = u) :
    OneOrder u lines (d.record c) :=
  ⟨o, hp.orders, hu, hp.orderId, hp.lines⟩

theorem Placing.ready (hp : Placing c o lines (fun _ => 0) K d)
    (hb : (req c).buyer = some o.userId) (hpub : Published req strict (d.record c))
    (hcart : ∀ i v w, d.cart.own c i = some (v, w) → w = none) : Ready req strict c d where
  published := hpub
  balanced := hp.balanced
  orders := hp.insertsOrders
  items := hp.insertsItems
  owner r hr := ⟨o, by rw [hp.orderId r hr]; exact hp.orderRow, hb⟩
  cart := hcart

theorem createOrder_does (drv : Driver) {userId : Nat} {deliveryAddress : String}
    {items : List OrderLine} (hreq : req c = .createOrder userId deliveryAddress items) :
    Does req d₀ strict c (Clean c) (createOrder drv userId deliveryAddress items)
      (fun _ => Committed c) (Clean c) := by
  unfold createOrder
  split
  · exact throw_does Unordered.steady fun _ => id
  refine withTransaction_does (createOrderRecord_does drv userId deliveryAddress items) ?_ ?_
  · exact fun _ d d' hr _ ⟨o, hu, hp⟩ => ⟨o, hu, hp.of_rely hr⟩
  · rintro a d - ⟨o, rfl, hp⟩
    refine ⟨hp.ready (by rw [hreq]; rfl) ?_ ?_, hp.commits⟩
    · have hclient : (d.record c).client = c := rfl
      simp only [Published, hclient, hreq]
      exact ⟨hp.amountSet, Table.deleted_eq_nil hp.cart, hp.oneOrder rfl⟩
    · intro i v w hi
      cases (hp.cart i).symm.trans hi

end Orders

section Checkout
variable {u i : Nat} {rows : List CartItem} {ids : List Nat} {r : CartItem}
  {own own' : OwnCart}

/-- The row whose lock is granted joins the rows that are held. -/
theorem Held.lock (h : Held rows own) (hn : r.id ∉ rows.map (·.id))
    (ho : ∀ j, own' j = if j = r.id then some (some r, some r) else own j) :
    Held (rows ++ [r]) own' := by
  refine ⟨fun x hx => ?_, fun j hj => ?_⟩
  · rcases List.mem_append.mp hx with hx | hx
    · have hne : x.id ≠ r.id := fun he => hn (he ▸ List.mem_map_of_mem hx)
      rw [ho, if_neg hne]
      exact h.1 x hx
    · obtain rfl := List.mem_singleton.mp hx
      rw [ho, if_pos rfl]
  · rw [List.map_append, List.mem_append]
    by_cases he : j = r.id
    · exact Or.inr (by simp [he])
    · rw [ho, if_neg he] at hj
      exact Or.inl (h.2 j hj)

/-- The keys that a snapshot of the cart finds are distinct. -/
theorem snapshotCart_nodup (hi : Inv req d₀ strict d) (hc : ∀ i, d.cart.own c i = none) :
    (((cartRows c u d).insertionSort fun a b => a.before b).map (·.id)).Nodup := by
  have hrows : ((d.cart.rows c).map (·.id)).Nodup := by
    refine Table.nodup_of_keys (fun i r hr => ?_) d.cart.next
    rw [Table.view_of_not_own (hc i)] at hr
    exact (hi.cartRow i r hr).1
  refine ((List.perm_insertionSort _ _).map _).nodup_iff.mpr ?_
  exact (List.filter_sublist.map _).nodup hrows

theorem snapshotCart_does (userId : Nat) :
    Does req d₀ strict c (Clean c) (query (.snapshotCart userId))
      (fun v d => List.Nodup (v : List Nat) ∧ Clean c d) (fun d => d.commits c = []) := by
  refine query_does (by simp) Unordered.steady ?_ uncommitted_steady (fun d h => h.commits) ?_
  · exact fun v d d' hr _ h => ⟨h.1, h.2.of_rely hr⟩
  · intro now d v d' hi _ hc hx
    cases hx
    exact ⟨snapshotCart_nodup hi hc.cart, hc⟩

theorem lockCartRow_does (hn : i ∉ rows.map (·.id)) :
    Does req d₀ strict c (Unordered c (Held rows)) (query (.lockCartRow i u))
      (fun v d => (∀ r, (v : Option CartItem) = some r → r.id = i ∧ r.userId = u) ∧
        Unordered c (Held (rows ++ Option.toList v)) d)
      (fun d => d.commits c = []) := by
  refine query_does (by simp) Unordered.steady ?_ uncommitted_steady (fun d h => h.commits) ?_
  · exact fun v d d' hr _ h => ⟨h.1, h.2.of_rely hr⟩
  intro now d v d' hi _ hu hx
  have hmiss : (∀ r, (none : Option CartItem) = some r → r.id = i ∧ r.userId = u) ∧
      Unordered c (Held (rows ++ Option.toList none)) d := by
    rw [Option.toList_none, List.append_nil]
    exact ⟨fun r hr => (by cases hr), hu⟩
  simp only [exec] at hx
  split at hx
  · cases hx
  split at hx
  · rename_i r hv
    split at hx
    · rename_i huser
      cases hx
      have hown : d.cart.own c i = none := by
        by_contra hne
        exact hn (hu.cart.2 i hne)
      have hc : d.cart.committed i = some r := by
        rw [← Table.view_of_not_own hown]
        exact hv
      obtain ⟨rfl, -⟩ := hi.cartRow i r hc
      refine ⟨fun x hx => by cases hx; exact ⟨rfl, huser⟩, { hu with cart := ?_ }⟩
      refine hu.cart.lock hn fun j => ?_
      rw [Table.own_lock (Table.lt_of_view hv), hc, hv]
    · cases hx
      exact hmiss
  · cases hx
    exact hmiss

variable (rows) in
/-- The scan: rows that are still there when their locks are granted are held. -/
theorem lockCartRows_does (hn : (rows.map (·.id) ++ ids).Nodup) (hu : ∀ r ∈ rows, r.userId = u) :
    Does req d₀ strict c (Unordered c (Held rows)) (lockCartRows u ids)
      (fun rs d => (∀ r ∈ rows ++ rs, r.userId = u) ∧ ((rows ++ rs).map (·.id)).Nodup ∧
        Unordered c (Held (rows ++ rs)) d)
      (fun d => d.commits c = []) := by
  have hst : ∀ rs, Steady req d₀ strict c fun d => (∀ r ∈ rows ++ rs, r.userId = u) ∧
      ((rows ++ rs).map (·.id)).Nodup ∧ Unordered c (Held (rows ++ rs)) d :=
    fun rs d d' hr _ h => ⟨h.1, h.2.1, h.2.2.of_rely hr⟩
  induction ids generalizing rows with
  | nil =>
    refine pure_does (hst []) fun d h => ?_
    simp only [List.append_nil] at hn ⊢
    exact ⟨hu, hn, h⟩
  | cons i ids ih =>
    have hi : i ∉ rows.map (·.id) := fun h =>
      (List.nodup_append.mp hn).2.2 i h i List.mem_cons_self rfl
    refine Triple.bind (lockCartRow_does hi) (fun row => Triple.fact fun hrow => ?_) uncommitted_steady
    have hkeys : ((row : Option CartItem).toList.map (·.id)).Sublist [i] := by
      cases row with
      | none => exact List.nil_sublist _
      | some r => simp [(hrow r rfl).1]
    have hn' : ((rows ++ Option.toList row).map (·.id) ++ ids).Nodup := by
      refine List.Sublist.nodup ?_ hn
      rw [List.map_append, List.append_assoc]
      exact (hkeys.append_right ids).append_left _
    have hu' : ∀ r ∈ rows ++ Option.toList row, r.userId = u := by
      intro r hr
      rcases List.mem_append.mp hr with hr | hr
      · exact hu r hr
      · exact (hrow r (Option.mem_toList.mp hr)).2
    refine Triple.bind (ih _ hn' hu' fun rs d d' hr _ h => ⟨h.1, h.2.1, h.2.2.of_rely hr⟩)
      (fun rs => ?_) uncommitted_steady
    refine pure_does (hst _) fun d h => ?_
    simpa only [List.append_assoc] using h

/-- The snapshot of the `DELETE` contains every row that is held. -/
theorem Held.snapshotDelete (h : Held rows (d.cart.own c)) (hu : ∀ r ∈ rows, r.userId = u) :
    Deleting strict rows ((cartRows c u d).map (·.id)) (d.cart.own c) := by
  refine ⟨fun r hr => ⟨_, h.1 r hr⟩, fun i v w hi => ?_, fun _ => h.2⟩
  obtain ⟨r, hr, rfl⟩ := List.mem_map.mp (h.2 i (by simp [hi]))
  rw [h.1 r hr] at hi
  cases hi
  refine Or.inr ⟨List.mem_map_of_mem (List.mem_filter.mpr ⟨?_, by simp [hu r hr]⟩), r, hr, rfl, rfl⟩
  exact Table.mem_rows.mpr ⟨r.id, Table.view_of_own (h.1 r hr)⟩

theorem snapshotDelete_does (hu : ∀ r ∈ rows, r.userId = u) (o : ProductOrder) (lines : List OrderLine) :
    Does req d₀ strict c (Placing c o lines (fun _ => 0) (Held rows)) (query (.snapshotDelete u))
      (fun v => Placing c o lines (fun _ => 0) (Deleting strict rows v))
      (fun d => d.commits c = []) := by
  refine query_does (by simp) Placing.steady (fun _ => Placing.steady) uncommitted_steady
    (fun d h => h.commits) ?_
  intro now d v d' _ _ hp hx
  cases hx
  exact { hp with cart := hp.cart.snapshotDelete hu }

/-- One deletion. Under `strict` the row has to be one of those held. -/
theorem Deleting.delete {now : Nat} {v : Unit} (h : Deleting strict rows (i :: ids) (d.cart.own c))
    (hu : ∀ r ∈ rows, r.userId = u)
    (honly : strict → ∀ r, d.cart.view c i = some r → r.userId = u → d.cart.own c i ≠ none)
    (hx : exec now c (.deleteCartRow i u) d = some (.ok v, d')) :
    ∃ t, d' = { d with cart := t } ∧ Deleting strict rows ids (t.own c) := by
  obtain ⟨hlocked, hrest, hmem⟩ := h
  have hskip : (∀ r ∈ rows, d.cart.view c i ≠ some r) → Deleting strict rows ids (d.cart.own c) := by
    intro hne
    refine ⟨hlocked, fun j v w hj => ?_, hmem⟩
    rcases hrest j v w hj with h | ⟨hin, r, hr, he, rfl⟩
    · exact Or.inl h
    · rcases List.mem_cons.mp hin with rfl | hin
      · exact absurd (Table.view_of_own hj) (hne r hr)
      · exact Or.inr ⟨hin, r, hr, he, rfl⟩
  simp only [exec] at hx
  split at hx
  · cases hx
  split at hx
  · rename_i r hv
    split at hx
    · rename_i huser
      cases hx
      have hown : ∀ j, (d.cart.write c i none).own c j =
          if j = i then some (d.cart.committed i, none) else d.cart.own c j :=
        fun j => Table.own_write (Table.lt_of_view hv)
      refine ⟨_, rfl, fun x hx => ?_, fun j v w hj => ?_, fun hs j hj => ?_⟩
      · obtain ⟨w, hw⟩ := hlocked x hx
        by_cases he : x.id = i
        · subst he
          exact ⟨none, by rw [hown, if_pos rfl, Table.own_committed hw]⟩
        · exact ⟨w, by rw [hown, if_neg he, hw]⟩
      · by_cases he : j = i
        · rw [hown, if_pos he] at hj
          cases hj
          exact Or.inl rfl
        · rw [hown, if_neg he] at hj
          rcases hrest j v w hj with h | ⟨hin, h⟩
          · exact Or.inl h
          · exact Or.inr ⟨(List.mem_cons.mp hin).resolve_left he, h⟩
      · by_cases he : j = i
        · subst he
          exact hmem hs j (honly hs r hv huser)
        · rw [hown, if_neg he] at hj
          exact hmem hs j hj
    · -- a held row is one of the user's
      rename_i huser
      cases hx
      refine ⟨_, rfl, hskip fun x hx he => huser ?_⟩
      cases hv.symm.trans he
      exact hu r hx
  · rename_i hv
    cases hx
    refine ⟨_, rfl, hskip fun x _ he => ?_⟩
    cases hv.symm.trans he

theorem deleteCartRow_does (hu : ∀ r ∈ rows, r.userId = u) (o : ProductOrder) (lines : List OrderLine) :
    Does req d₀ strict c (Placing c o lines (fun _ => 0) (Deleting strict rows (i :: ids)))
      (query (.deleteCartRow i u))
      (fun _ => Placing c o lines (fun _ => 0) (Deleting strict rows ids))
      (fun d => d.commits c = []) := by
  refine query_does (by simp) Placing.steady (fun _ => Placing.steady) uncommitted_steady
    (fun d h => h.commits) ?_
  intro now d v d' _ hal hp hx
  have honly : strict → ∀ r, d.cart.view c i = some r → r.userId = u → d.cart.own c i ≠ none := by
    intro hs r hv huser
    simpa [deletesLocked, hv, huser, Option.isSome_iff_ne_none] using hal hs
  obtain ⟨t, rfl, ht⟩ := hp.cart.delete hu honly hx
  exact { hp with cart := ht }

theorem deleteCartRows_does (hu : ∀ r ∈ rows, r.userId = u) (o : ProductOrder) (lines : List OrderLine) :
    Does req d₀ strict c (Placing c o lines (fun _ => 0) (Deleting strict rows ids))
      (deleteCartRows u ids) (fun _ => Placing c o lines (fun _ => 0) (Deleting strict rows []))
      (fun d => d.commits c = []) := by
  induction ids with
  | nil => exact pure_does Placing.steady fun _ => id
  | cons i ids ih =>
    exact Triple.bind (deleteCartRow_does hu o lines) (fun _ => ih) uncommitted_steady

/-- The items are for rows of the user that are deleted with the commit. -/
theorem Deleting.published {o : ProductOrder} {deliveryAddress : String} (hi : Inv req d₀ strict d)
    (hreq : req c = .checkoutCart u deliveryAddress) (hu : ∀ r ∈ rows, r.userId = u)
    (hn : (rows.map (·.id)).Nodup) (ho : o.userId = u)
    (hp : Placing c o (rows.map CartItem.line) (fun _ => 0) (Deleting strict rows []) d) :
    Published req strict (d.record c) := by
  obtain ⟨hlocked, hrest, honly⟩ := hp.cart
  have hnone : ∀ i v w, d.cart.own c i = some (v, w) → w = none := by
    intro i v w h
    rcases hrest i v w h with h | ⟨hmem, -⟩
    · exact h
    · cases hmem
  have htaken : ∀ r ∈ rows, r ∈ d.cart.deleted c := by
    intro r hr
    obtain ⟨w, hw⟩ := hlocked r hr
    obtain rfl := hnone _ _ _ hw
    exact Table.mem_deleted.mpr ⟨r.id, hw⟩
  have hrows : rows.Nodup := List.Nodup.of_map _ hn
  have hclient : (d.record c).client = c := rfl
  simp only [Published, hclient, hreq]
  refine ⟨hp.amountSet, rows, hp.oneOrder ho, hu, hrows.subperm htaken, fun hs => ?_⟩
  have hdel : (d.cart.deleted c).Nodup := List.Nodup.of_map _ hi.deleted_nodup
  refine (List.perm_ext_iff_of_nodup hrows hdel).mpr fun r => ⟨htaken r, fun hr => ?_⟩
  have hown := (hi.deleted_row hr).1
  obtain ⟨x, hx, he⟩ := List.mem_map.mp (honly hs r.id (by simp [hown]))
  obtain ⟨w, hw⟩ := hlocked x hx
  rw [he, hown] at hw
  cases hw
  exact hx

theorem checkoutCart_does (drv : Driver) {deliveryAddress : String}
    (hreq : req c = .checkoutCart u deliveryAddress) :
    Does req d₀ strict c (Clean c) (checkoutCart drv u deliveryAddress)
      (fun _ => Committed c) (Clean c) := by
  refine withTransaction_does (Q := fun _ d => ∃ rows : List CartItem, (∀ r ∈ rows, r.userId = u) ∧
    (rows.map (·.id)).Nodup ∧ ∃ o : ProductOrder, o.userId = u ∧
      Placing c o (rows.map CartItem.line) (fun _ => 0) (Deleting strict rows []) d) ?_ ?_ ?_
  · refine Triple.bind (Q := fun (rows : List CartItem) d => (∀ r ∈ rows, r.userId = u) ∧
      (rows.map (·.id)).Nodup ∧ Unordered c (Held rows) d) ?_ (fun rows => ?_) uncommitted_steady
    · refine Triple.bind (snapshotCart_does u) (fun ids => Triple.fact fun hn => ?_) uncommitted_steady
      refine (lockCartRows_does [] hn ?_).pre fun d h => { h with cart := ?_ }
      · exact fun r hr => absurd hr List.not_mem_nil
      · exact ⟨fun r hr => absurd hr List.not_mem_nil, fun i hi => absurd (h.cart i) hi⟩
    refine Triple.fact fun hu => Triple.fact fun hn => ?_
    unfold checkoutRows
    split
    · exact throw_does uncommitted_steady fun d h => h.commits
    refine Triple.bind (createOrderRecord_does drv u deliveryAddress (rows.map CartItem.line))
      (fun order => Triple.exists fun o => Triple.fact fun ho => ?_) uncommitted_steady
    refine Triple.bind (Q := fun _ => Placing c o (rows.map CartItem.line) (fun _ => 0)
      (Deleting strict rows [])) ?_ (fun _ => ?_) uncommitted_steady
    · exact Triple.bind (snapshotDelete_does hu o _) (fun ids => deleteCartRows_does hu o _)
        uncommitted_steady
    · refine pure_does ?_ fun d h => ⟨rows, hu, hn, o, ho, h⟩
      exact fun d d' hr _ ⟨rows, hu, hn, o, ho, h⟩ => ⟨rows, hu, hn, o, ho, h.of_rely hr⟩
  · exact fun _ d d' hr _ ⟨rows, hu, hn, o, ho, h⟩ => ⟨rows, hu, hn, o, ho, h.of_rely hr⟩
  · rintro a d hi ⟨rows, hu, hn, o, ho, hp⟩
    refine ⟨hp.ready (by rw [hreq, ho]; rfl) (Deleting.published hi hreq hu hn ho hp) ?_, hp.commits⟩
    intro i v w h
    rcases hp.cart.rest i v w h with h | ⟨hmem, -⟩
    · exact h
    · cases hmem

end Checkout

section Admin

theorem Ready.steady : Steady req d₀ strict c fun d => Ready req strict c d ∧ d.commits c = [] :=
  fun _ _ hr _ h => ⟨h.1.of_rely hr, hr.commits.trans h.2⟩

/-- A transaction that only writes the catalog is ready when its rows carry what it set. -/
theorem Unordered.ready {sets : Client → List (Nat × Int)} {t : Table Client CatalogProduct}
    (hu : Clean c d) (hpub : (req c).buyer = none ∧ Published req strict ⟨c, sets c, [], [], []⟩)
    (hb : ∀ p, match t.own c p with
      | none => (sets c).lookup p = none
      | some (v, w) => ∃ row, w = some row ∧ 0 ≤ row.amount ∧
          ((sets c).lookup p).or (v.map (·.amount)) = some row.amount) :
    Ready req strict c { d with catalog := t, amountSet := sets } where
  published := by
    simp only [Db.record, Table.pending_eq_nil hu.orders, Table.pending_eq_nil hu.items,
      Table.deleted_eq_nil hu.cart]
    exact hpub.2
  balanced p := by
    have hp := hb p
    have hq : quantityOf p (d.items.pending c) = 0 := by
      rw [Table.pending_eq_nil hu.items]
      rfl
    rcases ho : t.own c p with _ | ⟨v, w⟩
    · simp only [ho] at hp ⊢
      exact ⟨hp, hq⟩
    · simp only [ho] at hp ⊢
      obtain ⟨row, hw, hpos, ha⟩ := hp
      exact ⟨row, row.amount, hw, hpos, ha, by omega⟩
  orders i v w hi := by
    rw [hu.orders] at hi
    cases hi
  items i v w hi := by
    rw [hu.items] at hi
    cases hi
  owner r hr := by
    rw [Table.pending_eq_nil hu.items] at hr
    cases hr
  cart i v w hi := by
    rw [hu.cart] at hi
    cases hi

theorem adminCreateProduct_does {dto : AdminCreateProductDto}
    (hreq : req c = .adminCreateProduct dto) :
    Does req d₀ strict c (Clean c) (adminCreateProduct dto) (fun _ => Committed c) (Clean c) := by
  refine withTransaction_does (Q := fun _ d => Ready req strict c d ∧ d.commits c = []) ?_
    (fun _ => Ready.steady) fun _ _ _ => id
  refine query_does (by simp) Unordered.steady (fun _ => Ready.steady) uncommitted_steady
    (fun d h => h.commits) ?_
  intro now d v d' _ _ hu hx
  simp only [exec] at hx
  split at hx
  · cases hx
  split at hx
  · cases hx
  · rename_i hpos _
    cases hx
    refine ⟨hu.ready ⟨by rw [hreq]; rfl, by simp [Published, hreq, hu.amountSet]⟩ fun p => ?_, hu.commits⟩
    rw [Table.own_insert, Function.update_self, hu.amountSet]
    by_cases hp : p = d.catalog.next
    · subst hp
      simpa using hpos
    · have hne : (p == d.catalog.next) = false := beq_eq_false_iff_ne.mpr hp
      rw [if_neg hp, hu.catalog]
      simp [List.lookup_cons, hne]

theorem adminUpdateProduct_does {p : Nat} {dto : AdminUpdateProductDto}
    (hreq : req c = .adminUpdateProduct p dto) :
    Does req d₀ strict c (Clean c) (adminUpdateProduct p dto) (fun _ => Committed c) (Clean c) := by
  refine withTransaction_does (Q := fun _ d => Ready req strict c d ∧ d.commits c = []) ?_
    (fun _ => Ready.steady) fun _ _ _ => id
  refine Triple.bind (Q := fun (v : Bool) d => d.commits c = [] ∧ (v = true → Ready req strict c d)) ?_
    (fun updated => ?_) uncommitted_steady
  · refine query_does (by simp) Unordered.steady ?_ uncommitted_steady (fun d h => h.commits) ?_
    · exact fun v d d' hr _ h => ⟨hr.commits.trans h.1, fun hv => (h.2 hv).of_rely hr⟩
    intro now d v d' hi _ hu hx
    simp only [exec] at hx
    split at hx
    · cases hx
      exact ⟨hu.commits, fun h => (by cases h)⟩
    rename_i row hv
    split at hx
    · cases hx
      exact ⟨hu.commits, fun h => (by cases h)⟩
    split at hx
    · cases hx
    split at hx
    · cases hx
    split at hx
    · cases hx
    · rename_i hpos _
      cases hx
      have hlt := Table.lt_of_view hv
      rw [Table.view_of_not_own (hu.catalog p)] at hv
      refine ⟨hu.commits, fun _ => ?_⟩
      refine hu.ready ⟨by rw [hreq]; rfl, ?_⟩ fun j => ?_
      · cases hdto : dto.amount <;> simp [Published, hreq, hdto, hu.amountSet]
      rw [Table.own_write hlt]
      by_cases hj : j = p
      · subst hj
        rw [if_pos rfl, hv]
        refine ⟨_, rfl, by simpa using hpos, ?_⟩
        cases dto.amount with
        | none => simp [hu.amountSet]
        | some a => simp
      · have hne : (j == p) = false := beq_eq_false_iff_ne.mpr hj
        rw [if_neg hj, hu.catalog]
        cases dto.amount with
        | none => simp [hu.amountSet]
        | some a => simp [List.lookup_cons, hne, hu.amountSet]
  · split
    · exact throw_does uncommitted_steady fun d h => h.1
    · rename_i hup
      exact pure_does Ready.steady fun d h => ⟨h.2 (by simpa using hup), h.1⟩

end Admin

section Pool

/-- A statement of the pool leaves every transaction alone, whoever issues it. -/
theorem Change.rely_of_pool (h : ∀ b, Change b d d') : Rely c d d' :=
  (h (c + 1)).rely (Nat.ne_of_lt (Nat.lt_succ_self c))

theorem pool_does {q : Stmt} (hc : q ≠ .commit)
    (h : ∀ now d v d', exec now c q d = some (.ok v, d') → ∀ b, Change b d d') :
    Does req d₀ strict c (Clean c) (query q) (fun _ => Clean c) (Clean c) :=
  query_keeps hc Unordered.steady Unordered.steady (fun _ => id) fun now d v d' hx =>
    Change.rely_of_pool (h now d v d' hx)

theorem pool_reads {q : Stmt} (hc : q ≠ .commit)
    (h : ∀ now d v d', exec now c q d = some (.ok v, d') → d = d') :
    Does req d₀ strict c (Clean c) (query q) (fun _ => Clean c) (Clean c) :=
  query_reads hc Unordered.steady Unordered.steady (fun _ => id) h

theorem reject_does {α : Type} {e : Failure} {Q : α → Db → Prop} :
    Does req d₀ strict c (Clean c) (throw e) Q (Clean c) :=
  throw_does Unordered.steady fun _ => id

theorem return_does {α : Type} (a : α) :
    Does req d₀ strict c (Clean c) (pure a) (fun _ => Clean c) (Clean c) :=
  pure_does Unordered.steady fun _ => id

theorem listCart_does (drv : Driver) (userId : Nat) :
    Does req d₀ strict c (Clean c) (listCart drv userId) (fun _ => Clean c) (Clean c) := by
  refine Triple.bind (pool_reads (by simp) ?_) (fun rows => ?_) Unordered.steady
  · intro now d v d' hx
    cases hx
    rfl
  split
  · exact return_does _
  refine Triple.bind (pool_reads (by simp) ?_) (fun assets => return_does _) Unordered.steady
  intro now d v d' hx
  cases hx
  rfl

theorem addCartItem_does (drv : Driver) (userId productId : Nat) (quantity : Int) :
    Does req d₀ strict c (Clean c) (addCartItem drv userId productId quantity)
      (fun _ => Clean c) (Clean c) := by
  refine Triple.bind (Q := fun _ => Clean c) ?_ (fun _ => ?_) Unordered.steady
  · refine Triple.bind (pool_reads (by simp) ?_) (fun product => ?_) Unordered.steady
    · intro now d v d' hx
      cases hx
      rfl
    cases product with
    | none => exact reject_does
    | some row =>
      simp only
      split
      · exact reject_does
      · split
        · exact reject_does
        · exact return_does _
  refine Triple.bind (pool_does (by simp) ?_) (fun _ => listCart_does drv userId) Unordered.steady
  exact fun now d v d' hx b => upsertCartItem_change hx

theorem getOrderForUser_does (drv : Driver) (userId orderId : Nat) (allowAdmin : Bool) :
    Does req d₀ strict c (Clean c) (getOrderForUser drv userId orderId allowAdmin)
      (fun _ => Clean c) (Clean c) := by
  refine Triple.bind (pool_reads (by simp) ?_) (fun row => ?_) Unordered.steady
  · intro now d v d' hx
    cases hx
    rfl
  cases row with
  | none => exact reject_does
  | some row =>
    simp only
    split
    · exact reject_does
    refine Triple.bind (pool_reads (by simp) ?_) (fun rows => return_does _) Unordered.steady
    intro now d v d' hx
    cases hx
    rfl

theorem insertOrderHistory_does (orderId : Nat) (status : OrderStatus) (changedBy : Nat) :
    Does req d₀ strict c (Clean c) (query (.insertOrderHistory .pool orderId status changedBy))
      (fun _ => Clean c) (Clean c) := by
  refine pool_does (by simp) fun now d v d' hx b => ?_
  cases hx
  exact .appendHistory

theorem cancelOrder_does (drv : Driver) (userId orderId : Nat) :
    Does req d₀ strict c (Clean c) (cancelOrder drv userId orderId) (fun _ => Clean c) (Clean c) := by
  refine Triple.bind (pool_reads (by simp) ?_) (fun status => ?_) Unordered.steady
  · intro now d v d' hx
    cases hx
    rfl
  cases status with
  | none => exact reject_does
  | some status =>
    simp only
    split
    · exact reject_does
    refine Triple.bind (pool_does (by simp) ?_) (fun _ => ?_) Unordered.steady
    · intro now d v d' hx b
      obtain ⟨⟨y, e⟩, hy, he⟩ := Option.map_eq_some_iff.mp hx
      cases he
      exact updateOrderRow_change (fun _ => by rfl) (fun _ => by rfl) hy
    exact Triple.bind (insertOrderHistory_does orderId .cancelled userId)
      (fun _ => getOrderForUser_does drv userId orderId true) Unordered.steady

theorem adminUpdateOrderStatus_does (drv : Driver) (adminId orderId : Nat) (status : OrderStatus) :
    Does req d₀ strict c (Clean c) (adminUpdateOrderStatus drv adminId orderId status)
      (fun _ => Clean c) (Clean c) := by
  refine Triple.bind (pool_does (by simp) ?_) (fun updated => ?_) Unordered.steady
  · intro now d v d' hx b
    obtain ⟨⟨y, e⟩, hy, he⟩ := Option.map_eq_some_iff.mp hx
    cases he
    exact updateOrderRow_change (fun _ => by rfl) (fun _ => by rfl) hy
  split
  · exact reject_does
  exact Triple.bind (insertOrderHistory_does orderId status adminId)
    (fun _ => getOrderForUser_does drv 0 orderId true) Unordered.steady

end Pool

section Runs

/-- The calls that open a transaction. -/
def Request.transactional : Request → Bool
  | .createOrder _ _ _ | .checkoutCart _ _ | .adminCreateProduct _ | .adminUpdateProduct _ _ => true
  | _ => false

/-- What a call leaves: a result of a transactional call comes with one committed
transaction; an error, or a call without transaction, with none. -/
def Settled (req : Client → Request) (c : Client) : Except Failure Payload → Db → Prop :=
  outcome (fun _ d => if (req c).transactional then Committed c d else Clean c d) (Clean c)

theorem code_does (drv : Driver) (c : Client) :
    Does req d₀ strict c (Clean c) ((req c).code drv)
      (fun _ d => if (req c).transactional then Committed c d else Clean c d) (Clean c) := by
  rcases hreq : req c with ⟨u, a, items⟩ | ⟨u, a⟩ | ⟨u, p, q⟩ | dto | ⟨p, dto⟩ | ⟨u, o⟩ | ⟨a, o, st⟩
  · exact createOrder_does drv hreq
  · exact checkoutCart_does drv hreq
  · exact addCartItem_does drv u p q
  · exact Triple.bind (adminCreateProduct_does hreq)
      (fun _ => pure_does committed_steady fun _ => id) Unordered.steady
  · exact Triple.bind (adminUpdateProduct_does hreq)
      (fun _ => pure_does committed_steady fun _ => id) Unordered.steady
  · exact cancelOrder_does drv u o
  · exact adminUpdateOrderStatus_does drv a o st

/-- A store between calls: no lock is held, the checks and keys of the schema hold, and
the history variables are fresh. -/
structure Quiet (d : Db) : Prop where
  catalog : ∀ i, (d.catalog.cell i).held = none
  orders : ∀ i, (d.orders.cell i).held = none
  items : ∀ i, (d.items.cell i).held = none
  cart : ∀ i, (d.cart.cell i).held = none
  amount : ∀ p row, d.catalog.committed p = some row → 0 ≤ row.amount
  orderRef : ∀ r ∈ d.items.committedRows, ∃ o, d.orders.committed r.orderId = some o
  cartRow : ∀ i r, d.cart.committed i = some r → r.id = i ∧ 0 < r.quantity
  amountSet : ∀ c, d.amountSet c = []
  log : d.log = []
  added : ∀ u p, d.added u p = 0

theorem own_of_quiet {V : Type} {t : Table Client V} (h : ∀ i, (t.cell i).held = none) (i : Nat) :
    t.own c i = none := by
  simp [Table.own, Cell.own, h i]

theorem Quiet.clean (h : Quiet d) : Clean c d where
  catalog := own_of_quiet h.catalog
  orders := own_of_quiet h.orders
  items := own_of_quiet h.items
  cart := own_of_quiet h.cart
  amountSet := h.amountSet c
  commits := by rw [Db.commits, h.log, List.filter_nil]

theorem Quiet.inv (h : Quiet d) : Inv req d strict d := by
  constructor
  · rw [h.log]
    exact fun x hx => absurd hx List.not_mem_nil
  · intro p row hp
    rw [h.log]
    exact ⟨h.amount p row hp, row.amount, by simp [lastSet, hp], by simp [soldSince]⟩
  · simp [h.log]
  · simp [h.log]
  · rw [h.log]
    exact fun x hx => absurd hx List.not_mem_nil
  · exact fun i o ho => ⟨o, ho, rfl⟩
  · exact h.cartRow
  · intro u p
    simp [h.log, h.added, checkedOut]
  · intro _ u p
    simp [h.log, h.added, checkedOut]
  · simp [h.log]
  · rw [h.log]
    exact fun x hx => absurd hx List.not_mem_nil

theorem initial_safe (drv : Driver) (hq : Quiet d₀) :
    AllSafe (rules req d₀ strict) (Settled req) (initial drv req d₀) :=
  ⟨hq.inv, fun c => code_does drv c d₀ hq.inv hq.clean⟩

variable {drv : Driver} {xs : List Taken} {s t : State}

/-- In every run whose statements the rules allow, every call is safe where it stands. -/
theorem allowed_run_safe (hq : Quiet d₀)
    (hr : Trace.Run (Allowed (rules req d₀ strict)) (initial drv req d₀) xs t) :
    AllSafe (rules req d₀ strict) (Settled req) t :=
  (initial_safe drv hq).run hr

/-- In every run whatever. -/
theorem run_safe (hq : Quiet d₀) (hr : Trace.Run (Step act) (initial drv req d₀) xs t) :
    AllSafe (rules req d₀ False) (Settled req) t :=
  allowed_run_safe hq (hr.mono fun _ _ _ h => ⟨h, False.elim⟩)

/-- A call that has failed has left nothing behind. -/
theorem run_failed (hq : Quiet d₀) (hr : Trace.Run (Step act) (initial drv req d₀) xs t)
    {e : Failure} (hp : t.prog c = .ret (.error e)) : Clean c t.db :=
  (run_safe hq hr).result hp

end Runs
end Kayan.Shop
