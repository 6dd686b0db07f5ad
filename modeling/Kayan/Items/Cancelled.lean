import Kayan.Items.Races

/-!
# The time of cancellation

Owners cancel an item with its time; admins set the status and leave the time as it is.
-/
namespace Kayan.Items
open Interleave RowStore Shop Reads Bookkeeping

variable {drv : Driver} {req : Client → Request} {d : Db} {s t : State} {e : Taken} {xs : List Taken}
  {x : Item} {m : Move} {c : Client} {d' : Db}

/-- `status = 'cancelled'` if and only if `cancelled_at IS NOT NULL`, for every item. -/
def CancelledAtTrue (d : Db) : Prop :=
  ∀ x row, d.ledger.row x = some row → (row.status = x.cancelled ↔ row.cancelledAt.isSome = true)

/-- The item whose status an admin's statement sets, and that status. -/
def Stmt.adminSets : Stmt → Option (Item × Status)
  | .shop (.updateOrderStatus s i) => some (⟨.order, i⟩, .order s)
  | .updateFaultStatus s i => some (⟨.fault, i⟩, .fault s)
  | .updateServiceStatus s i => some (⟨.service, i⟩, .service s)
  | _ => none

/-- A status that an admin sets is `cancelled` exactly where the item has a time of
cancellation already. -/
def KeepsCancelledAt (s : State) (e : Taken) : Prop :=
  ∀ x v row, e.stmt.adminSets = some (x, v) → Succeeds e → s.db.ledger.row x = some row →
    (v = x.cancelled ↔ row.cancelledAt.isSome = true)

/-- A statement that sets a status is an admin's, or it cancels the item with its time. -/
theorem sets_cases {q : Stmt} {v : Status} {stamped : Bool} (h : q.sets = some (x, v, stamped)) :
    (stamped = false ∧ q.adminSets = some (x, v)) ∨ (stamped = true ∧ v = x.cancelled) := by
  cases q with
  | shop q =>
    cases q with
    | updateOrderStatus =>
      cases h
      exact Or.inl ⟨rfl, rfl⟩
    | cancelOrderRow =>
      cases h
      exact Or.inr ⟨rfl, rfl⟩
    | _ => cases h
  | updateFaultStatus | updateServiceStatus =>
    cases h
    exact Or.inl ⟨rfl, rfl⟩
  | cancelFaultRow | cancelServiceRow =>
    cases h
    exact Or.inr ⟨rfl, rfl⟩
  | _ => cases h

/-- An admin's statement that succeeds sets the status where it finds the item. -/
theorem adminSets_op {q : Stmt} {r : Answer q} {v : Status} (h : act m c q d = some (r, d'))
    (hq : q.adminSets = some (x, v)) (hr : ∃ a, r = .ok a) (hrow : d.ledger.row x ≠ none) :
    q.op r = .set x v false := by
  obtain ⟨a, rfl⟩ := hr
  cases m with
  | fail e =>
    obtain ⟨hr, -⟩ := act_fail h
    cases hr
  | run now =>
    cases q with
    | shop q =>
      cases q with
      | updateOrderStatus status i =>
        cases hq
        obtain ⟨⟨a', e⟩, he, heq⟩ := Option.map_eq_some_iff.mp h
        simp only [Shop.exec, updateOrderRow_eq, Option.map_map, Option.map_eq_some_iff] at he
        obtain ⟨⟨found, t⟩, ht, he⟩ := he
        cases he
        cases heq
        rcases updateRow_cases ht with ⟨-, hc, -⟩ | ⟨row, rfl, -, -, -⟩
        · exact absurd (by simp [Db.ledger, hc]) hrow
        · rfl
      | _ => cases hq
    | updateFaultStatus =>
      cases hq
      rfl
    | updateServiceStatus status i =>
      cases hq
      obtain ⟨⟨found, t⟩, ht, heq⟩ := Option.map_eq_some_iff.mp h
      cases heq
      rcases updateRow_cases ht with ⟨-, hc, -⟩ | ⟨row, rfl, -, -, -⟩
      · exact absurd (by simp [Db.ledger, hc]) hrow
      · rfl
    | _ => cases hq

/-- What an honest operation is for the statements. -/
theorem honest_iff (hs : Step act s e t) :
    Honest scheme (e.stmt.op e.reply) s.db.ledger ↔ KeepsCancelledAt s e := by
  constructor
  · intro h x v row hx hok hrow
    have hop := adminSets_op hs.acted hx hok (by simp [hrow])
    have hv := h x v false row hop hrow
    rwa [Bool.false_or] at hv
  · intro h x v stamped row hop hrow
    obtain ⟨a, ha, -⟩ := op_ok hop (by simp) (by simp)
    rcases sets_cases (op_sets hop) with ⟨rfl, hx⟩ | ⟨rfl, hv⟩
    · rw [Bool.false_or]
      exact h x v row hx ⟨a, ha⟩ hrow
    · rw [Bool.true_or]
      exact iff_of_true hv rfl

/-- The time of cancellation is true in every state of a run if and only if every status that
an admin sets in it keeps it so. -/
theorem cancelledAt_true_iff (hd : Quiet d) (ht : CancelledAtTrue d) :
    Trace.Run (fun s e t => Step act s e t ∧ CancelledAtTrue t.db) (initial drv req d) xs t ↔
      Trace.Run (fun s e t => Step act s e t ∧ KeepsCancelledAt s e) (initial drv req d) xs t := by
  refine Trace.Run.stays_iff (I := fun (s : State) => CancelledAtTrue s.db)
    (J := fun (s : State) => Tidy s.db ∧ Sound scheme s.db.ledger) ?_ ?_ ⟨⟨hd.tidy, hd.sound⟩, ht⟩
  · exact fun s e t hs h => act_sound h hs.acted
  · intro s e t hs h hi
    have hm := act_moves h.1 hs.acted
    exact (hm.truthful_iff h.2 hi).trans (honest_iff hs)

theorem oneOfEach_true : CancelledAtTrue oneOfEach := by
  rintro ⟨k, i⟩ row hrow
  cases k <;> rcases i with _ | i
  all_goals
    cases hrow
    try simp [Row.status, Row.cancelledAt, Item.cancelled]

/-- The check of a status that an admin sets. -/
def keepsCancelledAt : Move → Client → Stmt → Db → Bool := fun _ _ q d =>
  q.adminSets.all fun (x, v) => (d.ledger.row x).all fun row =>
    decide (v = x.cancelled) = row.cancelledAt.isSome

theorem keepsCancelledAt_of (h : keepsCancelledAt e.move e.client e.stmt s.db = true) :
    KeepsCancelledAt s e := by
  intro x v row hx _ hrow
  have hk : decide (v = x.cancelled) = row.cancelledAt.isSome := by
    simpa [keepsCancelledAt, hx, hrow] using h
  rw [← hk, decide_eq_true_iff]

/-- The admin takes an order up: it is neither cancelled nor has it a time of cancellation. -/
theorem cancelledAt_true_taken_up : ∃ xs t,
    Trace.Run (fun s e t => Step act s e t ∧ CancelledAtTrue t.db)
      (initial plainDriver cancelling oneOfEach) xs t ∧
      t.db.statusFor 1 ⟨.order, 0⟩ = some (.order .readyToShip) := by
  have hplay : (play act keepsCancelledAt (turns [(1, 2)]) (initial plainDriver cancelling oneOfEach)).map
      (fun s => s.db.statusFor 1 ⟨.order, 0⟩) = some (some (.order .readyToShip)) := by decide +kernel
  obtain ⟨xs, t, hr, ho⟩ := play_run hplay
  have hkeeps := hr.mono fun _ _ _ h => And.intro h.1 (keepsCancelledAt_of h.2)
  exact ⟨xs, t, (cancelledAt_true_iff oneOfEach_quiet oneOfEach_true).mpr hkeeps, ho⟩

/-- An admin sets the status of an order to `cancelled`: it has no time of cancellation. -/
theorem cancelled_without_time : ¬ ∀ (drv : Driver) (req : Client → Request) (d : Db) (xs : List Taken)
    (t : State), Quiet d → CancelledAtTrue d → Trace.Run (Step act) (initial drv req d) xs t →
      CancelledAtTrue t.db := by
  intro h
  let req : Client → Request := fun _ => .shop (.adminUpdateOrderStatus 9 0 .cancelled)
  have hplay : (play act (fun _ _ _ _ => true) (turns [(0, 2)]) (initial plainDriver req oneOfEach)).map
      (fun s => (s.db.ledger.row ⟨.order, 0⟩).map fun row => (row.status, row.cancelledAt)) =
      some (some (.order .cancelled, none)) := by decide +kernel
  obtain ⟨xs, t, hr, ho⟩ := play_run hplay
  obtain ⟨row, hrow, hst⟩ := Option.map_eq_some_iff.mp ho
  obtain ⟨hstatus, hnone⟩ := Prod.mk.inj hst
  have htrue := (h _ _ _ xs t oneOfEach_quiet oneOfEach_true (hr.mono fun _ _ _ h => h.1) _ row hrow).mp hstatus
  rw [hnone] at htrue
  cases htrue

end Kayan.Items
