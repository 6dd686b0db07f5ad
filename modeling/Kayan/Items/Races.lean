import Kayan.Items.Protocol
import Kayan.Shop.Stock

/-!
# Check and write

Owners may change an item, and admins advance a fault, depending on a status that was read
by another statement than the one that writes. While a call is about to write, the status
that it has read is current as long as no other statement changes it (`checked_current`).
-/
namespace Kayan.Items
open Interleave RowStore Shop Reads Bookkeeping

/-- The item whose row an owner's statement writes. -/
def Stmt.userWrites : Stmt → Option Item
  | .updateDeliveryAddress _ i => some ⟨.order, i⟩
  | .shop (.cancelOrderRow i) => some ⟨.order, i⟩
  | .updateFault _ i => some ⟨.fault, i⟩
  | .cancelFaultRow i => some ⟨.fault, i⟩
  | .updateService _ i => some ⟨.service, i⟩
  | .cancelServiceRow i => some ⟨.service, i⟩
  | _ => none

/-- The fault whose status a statement writes. -/
def Stmt.faultWrites : Stmt → Option Item
  | .cancelFaultRow i => some ⟨.fault, i⟩
  | .updateFaultStatus _ i => some ⟨.fault, i⟩
  | _ => none

/-- The next statement of client `c` writes the item. -/
def AboutTo (P : Stmt → Option Item) (x : Item) (c : Client) (s : State) : Prop :=
  ∃ q, Next c q s ∧ P q = some x

/-- The statement succeeds. -/
def Succeeds (e : Taken) : Prop := ∃ v, e.reply = .ok v

/-- The statement gives an item another status than it has. -/
def Changes (s : State) (e : Taken) (x : Item) : Prop :=
  Succeeds e ∧ ∃ v stamped row, e.stmt.sets = some (x, v, stamped) ∧ s.db.ledger.row x = some row ∧
    v ≠ row.status

/-- A statement that changes the status of no item that another client is about to write. -/
def Undisturbed (P : Stmt → Option Item) (s : State) (e : Taken) (t : State) : Prop :=
  Step act s e t ∧ ∀ x c, c ≠ e.client → AboutTo P x c s → ¬ Changes s e x

/-- The status in the version of a row that a statement of `c` works on. -/
def Db.statusFor (c : Client) (x : Item) (d : Db) : Option Status := (d.ledger.seen c x).map Row.status

/-- Every client keeps to the protocol from its phase. -/
abbrev Called (ph : Client → Phase) (s : State) : Prop :=
  InPhase calls (fun _ y => y.ended = true) ph s

/-- A client that is about to write an item has read the status that it still has. -/
def Current (P : Stmt → Option Item) (ph : Client → Phase) (s : State) : Prop :=
  ∀ c x v, ph c = .checked x v → AboutTo P x c s → s.db.statusFor c x = some v

variable {drv : Driver} {req : Client → Request} {d : Db} {s t : State} {e : Taken} {xs : List Taken}
  {P : Stmt → Option Item} {x : Item}

theorem initial_called : Called (fun _ => .idle) (initial drv req d) := by
  refine fun c => Follows.mono (@request_keeps drv (req c)) fun r y hy => ?_
  cases r <;> exact hy

/-- What every step of the calls keeps: the phases, and the shape of the tables. -/
structure Running (ph : Client → Phase) (s : State) : Prop where
  called : Called ph s
  tidy : Tidy s.db
  sound : Sound scheme s.db.ledger

theorem initial_running (h : Quiet d) : Running (fun _ => .idle) (initial drv req d) :=
  ⟨initial_called, h.tidy, h.sound⟩

theorem Running.step {ph : Client → Phase} (h : Running ph s) (hs : Step act s e t) :
    ∃ y, (ph e.client).Next (e.stmt.op e.reply) y ∧
      Running (Function.update ph e.client y) t ∧
      Moves scheme e.client s.db.ledger (e.stmt.op e.reply) t.db.ledger := by
  obtain ⟨y, hy, ht⟩ := h.called.step hs
  obtain ⟨htidy, hsound⟩ := act_sound ⟨h.tidy, h.sound⟩ hs.acted
  exact ⟨y, hy, ⟨ht, htidy, hsound⟩, act_moves h.tidy hs.acted⟩

theorem Current.step {ph : Client → Phase} (h : Running ph s) (hc : Current P ph s)
    (hu : Undisturbed P s e t) : ∃ ph', Running ph' t ∧ Current P ph' t := by
  obtain ⟨hs, hu⟩ := hu
  obtain ⟨y, hy, ht, hm⟩ := h.step hs
  refine ⟨_, ht, fun c x v hv hx => ?_⟩
  by_cases hce : c = e.client
  · subst hce
    rw [Function.update_self] at hv
    subst hv
    generalize e.stmt.op e.reply = o at hy hm
    generalize ph e.client = p at hy
    cases hy with
    | read hp => cases hp
    | check =>
      generalize hl : t.db.ledger = l' at hm
      cases hm with
      | check hrow =>
        rw [← hl] at hrow
        obtain ⟨w, hw, hs'⟩ := ht.sound.seen_status hrow
        rw [Db.statusFor, hw]
        exact congrArg some hs'
      | missing ho => cases ho
  · rw [Function.update_of_ne hce] at hv
    obtain ⟨q, hq, hp⟩ := hx
    have hx' : AboutTo P x c s := ⟨q, hq.other hs hce, hp⟩
    have hcur := hc c x v hv hx'
    obtain ⟨row, hrow, rfl⟩ := Option.map_eq_some_iff.mp hcur
    obtain ⟨w, hw, hs'⟩ := hm.seen_other h.sound hce hrow fun st stamped u ho hu' => by
      by_contra hne
      obtain ⟨v, hv, -⟩ := op_ok ho (by simp) (by simp)
      exact hu x c hce hx' ⟨⟨v, hv⟩, st, stamped, u, op_sets ho, hu', hne⟩
    rw [Db.statusFor, hw]
    exact congrArg some hs'

/-- In a run of undisturbed statements, what has been read for a write is current. -/
theorem checked_current (hd : Quiet d) (hr : Trace.Run (Undisturbed P) (initial drv req d) xs s) :
    ∃ ph, Running ph s ∧ Current P ph s := by
  refine hr.preserves (I := fun s => ∃ ph, Running ph s ∧ Current P ph s) ?_ ?_
  · rintro s e t hu ⟨ph, hrun, hc⟩
    exact hc.step hrun hu
  · exact ⟨_, initial_running hd, fun c x v hv => by cases hv⟩

section Examples

/-- One item of each kind, all of user 1, in its first status and with its history row. -/
def oneOfEach : Db where
  shop :=
    { stocked [] with
      orders := .ofRows [{ id := 0, userId := 1, deliveryAddress := "Giza", createdAt := 0, updatedAt := 0 }]
      history := .ofRows [⟨0, .received, 1⟩] }
  faults := .ofRows
    [{ id := 0, userId := 1, title := "Leak", description := "", severity := .high, address := "Giza",
       createdAt := 0, updatedAt := 0 }]
  faultHistory := .ofRows [⟨0, .received, 1⟩]
  faultAssets := .ofRows []
  services := .ofRows
    [{ id := 0, userId := 1, serviceType := .maintenance, description := "", address := "Giza",
       createdAt := 0, updatedAt := 0 }]
  serviceHistory := .ofRows [⟨0, .notStarted, 1⟩]
  files _ := none
  ratings := []

theorem oneOfEach_quiet : Quiet oneOfEach :=
  ⟨fun _ _ => rfl, fun _ _ => rfl, fun _ _ => rfl, fun _ _ => rfl, fun _ _ => rfl, fun _ _ => rfl⟩

/-- A statement of client `c`. -/
def takenBy (c : Client) : Move → Client → Stmt → Db → Bool := fun _ b _ _ => b = c

/-- A client that runs alone is disturbed by no one, where no other is about to write. -/
theorem undisturbed_alone {c : Client}
    (hr : Trace.Run (fun s e t => Step act s e t ∧ takenBy c e.move e.client e.stmt s.db) s xs t)
    (ha : ∀ b, b ≠ c → ∀ x, ¬ AboutTo P x b s) : Trace.Run (Undisturbed P) s xs t := by
  induction hr with
  | refl => exact .refl
  | @step s t u e xs h _ ih =>
    obtain ⟨hs, he⟩ := h
    have hc : e.client = c := by simpa [takenBy] using he
    refine .step ⟨hs, fun x b hb hx => absurd hx (ha b (hc ▸ hb) x)⟩ (ih fun b hb x hx => ?_)
    obtain ⟨q, hq, hp⟩ := hx
    exact ha b hb x ⟨q, hq.other hs (hc ▸ hb), hp⟩

end Examples

section Owners

theorem userWrites_effect {q : Stmt} (h : q.userWrites = some x) (v : Reply q) :
    q.effect v = .touch x ∨ q.effect v = .edit x ∨ q.effect v = .set x x.cancelled true := by
  cases q with
  | shop q =>
    cases q with
    | cancelOrderRow =>
      cases h
      exact Or.inr (Or.inr rfl)
    | _ => cases h
  | updateDeliveryAddress | updateService =>
    cases h
    exact Or.inl rfl
  | updateFault =>
    cases h
    exact Or.inr (Or.inl rfl)
  | cancelFaultRow | cancelServiceRow =>
    cases h
    exact Or.inr (Or.inr rfl)
  | _ => cases h

/-- Such a write is made after the item was found in its first status. -/
theorem owner_phase {p y : Phase} {o : Op Item Status} (h : p.Next o y)
    (ho : o = .touch x ∨ o = .edit x ∨ o = .set x x.cancelled true) : p = .checked x x.initial := by
  rcases ho with rfl | rfl | rfl <;> cases h <;> rfl

/-- Where no statement changes the status of an item while an owner's call is about to write
it, owners write only items in their first status. -/
theorem written_before_processing (hd : Quiet d)
    (hr : Trace.Run (Undisturbed Stmt.userWrites) (initial drv req d) xs s) (hs : Step act s e t)
    (he : Succeeds e) (hx : e.stmt.userWrites = some x) : s.db.statusFor e.client x = some x.initial := by
  obtain ⟨ph, hrun, hcur⟩ := checked_current hd hr
  obtain ⟨y, hy, -, -⟩ := hrun.step hs
  obtain ⟨v, hv⟩ := he
  rw [hv] at hy
  exact hcur e.client x _ (owner_phase hy (userWrites_effect hx v)) ⟨e.stmt, hs.next, hx⟩

/-- An owner cancels an order while an admin takes it up. -/
def cancelling : Client → Request
  | 0 => .shop (.cancelOrder 1 0)
  | _ => .shop (.adminUpdateOrderStatus 9 0 .readyToShip)

/-- The cancellation of order 0, if it succeeds. -/
def cancelsOrder : (q : Stmt) → Answer q → Db → Bool
  | .shop (.cancelOrderRow 0), .ok _, _ => true
  | _, _, _ => false

theorem cancelsOrder_write {q : Stmt} {r : Answer q} (h : cancelsOrder q r d = true) :
    q.userWrites = some ⟨.order, 0⟩ ∧ ∃ v, r = .ok v := by
  unfold cancelsOrder at h
  split at h
  · exact ⟨rfl, _, rfl⟩
  · cases h

/-- The owner alone: the order is cancelled in its first status. -/
theorem written_before_processing_alone : ∃ xs s e t,
    Trace.Run (Undisturbed Stmt.userWrites) (initial plainDriver cancelling oneOfEach) xs s ∧
      Step act s e t ∧ Succeeds e ∧ e.stmt.userWrites = some ⟨.order, 0⟩ ∧
      s.db.statusFor e.client ⟨.order, 0⟩ = some (.order .received) := by
  have hplay : (play act (takenBy 0) (turns [(0, 1)]) (initial plainDriver cancelling oneOfEach)).map
      (ready act (.run 5) 0 cancelsOrder) = some true := by decide +kernel
  obtain ⟨xs, s, hr, ho⟩ := play_run hplay
  obtain ⟨e, t, hs, -, -, he⟩ := ready_step ho
  obtain ⟨hw, hok⟩ := cancelsOrder_write he
  have hr' : Trace.Run (Undisturbed Stmt.userWrites) (initial plainDriver cancelling oneOfEach) xs s := by
    refine undisturbed_alone hr fun b hb x hx => ?_
    obtain ⟨q, ⟨k, hk⟩, hq⟩ := hx
    rcases b with _ | b
    · exact hb rfl
    · cases hk
      cases hq
  exact ⟨xs, s, e, t, hr', hs, hok, hw, written_before_processing oneOfEach_quiet hr' hs hok hw⟩

/-- The admin takes the order up between the two statements of the owner, and the owner
cancels it all the same. -/
theorem started_order_cancelled : ¬ ∀ (drv : Driver) (req : Client → Request) (d : Db) (xs : List Taken)
    (s t : State) (e : Taken) (x : Item), Quiet d → Trace.Run (Step act) (initial drv req d) xs s →
      Step act s e t → Succeeds e → e.stmt.userWrites = some x →
      s.db.statusFor e.client x = some x.initial := by
  intro h
  have hplay : (play act (fun _ _ _ _ => true) (turns [(0, 1), (1, 1)])
      (initial plainDriver cancelling oneOfEach)).map
      (fun s => (ready act (.run 5) 0 cancelsOrder s, s.db.statusFor 0 ⟨.order, 0⟩)) =
      some (true, some (.order .readyToShip)) := by decide +kernel
  obtain ⟨xs, s, hr, ho⟩ := play_run hplay
  simp only [Prod.mk.injEq] at ho
  obtain ⟨e, t, hs, hc, -, he⟩ := ready_step ho.1
  obtain ⟨hw, hok⟩ := cancelsOrder_write he
  have hst := h _ _ _ xs s t e _ oneOfEach_quiet (hr.mono fun _ _ _ h => h.1) hs hok hw
  rw [hc, ho.2] at hst
  cases hst

end Owners

section Faults

theorem faultWrites_of_sets {q : Stmt} {i : Nat} {v : Status} {stamped : Bool}
    (h : q.sets = some (⟨.fault, i⟩, v, stamped)) : q.faultWrites = some ⟨.fault, i⟩ := by
  cases q with
  | shop q => cases q <;> cases h
  | cancelFaultRow | updateFaultStatus =>
    cases h
    rfl
  | _ => cases h

/-- The status of a fault is set after a status was read from which the table leads there. -/
theorem fault_phase {p y : Phase} {i : Nat} {b : FaultStatus} {stamped : Bool}
    (h : p.Next (.set ⟨.fault, i⟩ (.fault b) stamped) y) :
    ∃ a, p = .checked ⟨.fault, i⟩ (.fault a) ∧ (a = b ∨ b ∈ transitions a) := by
  generalize ho : Op.set (⟨.fault, i⟩ : Item) (Status.fault b) stamped = o at h
  cases h with
  | cancel =>
    injection ho with hx hs
    subst hx
    cases hs
    exact ⟨.received, rfl, Or.inr (by decide)⟩
  | advance hab =>
    cases ho
    exact ⟨_, rfl, hab⟩
  | set hx =>
    cases ho
    exact absurd rfl hx
  | _ => cases ho

/-- Where no statement changes the status of a fault while another call is about to write it,
every change of a status is in the table of `assertValidFaultTransition`. -/
theorem fault_follows_table {i : Nat} {a b : FaultStatus} (hd : Quiet d)
    (hr : Trace.Run (Undisturbed Stmt.faultWrites) (initial drv req d) xs s) (hs : Step act s e t)
    (ha : (s.db.faults.committed i).map (·.status) = some a)
    (hb : (t.db.faults.committed i).map (·.status) = some b) (hne : a ≠ b) : b ∈ transitions a := by
  obtain ⟨ph, hrun, hcur⟩ := checked_current hd hr
  obtain ⟨y, hy, -, hm⟩ := hrun.step hs
  obtain ⟨f, hf, rfl⟩ := Option.map_eq_some_iff.mp ha
  obtain ⟨f', hf', rfl⟩ := Option.map_eq_some_iff.mp hb
  have hrow : s.db.ledger.row ⟨.fault, i⟩ = some (.fault f) := by simp [Db.ledger, hf]
  have hrow' : t.db.ledger.row ⟨.fault, i⟩ = some (.fault f') := by simp [Db.ledger, hf']
  rcases hm.row_cases hrun.sound hrow' with ⟨stamped, v, ho, -, -⟩ | ⟨v, hv, hst, -⟩ | ⟨hv, -⟩
  · rw [ho] at hy
    obtain ⟨c, hp, hc⟩ := fault_phase hy
    -- the status that the call has read is the one that the row still has
    have hread := hcur e.client _ _ hp ⟨e.stmt, hs.next, faultWrites_of_sets (op_sets ho)⟩
    obtain ⟨w, hw, hst⟩ := hrun.sound.seen_status (c := e.client) (Or.inl hrow)
    rw [Db.statusFor, hw] at hread
    have hcf : Status.fault c = Status.fault f.status := (Option.some.inj hread).symm.trans hst
    cases hcf
    exact hc.resolve_left hne
  · obtain rfl : Row.fault f = v := Option.some.inj (hrow.symm.trans hv)
    exact absurd (Status.fault.inj hst).symm hne
  · rw [hrow] at hv
    cases hv

/-- An owner cancels a fault while an admin assigns it. -/
def assigning : Client → Request
  | 0 => .cancelFault 1 0
  | _ => .adminUpdateFaultStatus 9 0 .assigned

/-- The status of fault 0. -/
def faultStatus (d : Db) : Option FaultStatus := (d.faults.committed 0).map (·.status)

/-- The admin alone: the fault is assigned. -/
theorem fault_follows_table_alone : ∃ xs s e t,
    Trace.Run (Undisturbed Stmt.faultWrites) (initial plainDriver assigning oneOfEach) xs s ∧
      Step act s e t ∧ faultStatus s.db = some .received ∧ faultStatus t.db = some .assigned ∧
      .assigned ∈ transitions .received := by
  have hplay : (play act (takenBy 1) (turns [(1, 1)]) (initial plainDriver assigning oneOfEach)).map
      (fun s => (faultStatus s.db, ready act (.run 5) 1 (fun _ _ d => faultStatus d = some .assigned) s)) =
      some (some .received, true) := by decide +kernel
  obtain ⟨xs, s, hr, ho⟩ := play_run hplay
  simp only [Prod.mk.injEq] at ho
  obtain ⟨e, t, hs, -, -, he⟩ := ready_step ho.2
  have hr' : Trace.Run (Undisturbed Stmt.faultWrites) (initial plainDriver assigning oneOfEach) xs s := by
    refine undisturbed_alone hr fun b hb x hx => ?_
    obtain ⟨q, ⟨k, hk⟩, hq⟩ := hx
    rcases b with _ | _ | b
    · cases hk
      cases hq
    · exact hb rfl
    · cases hk
      cases hq
  have ht : faultStatus t.db = some .assigned := of_decide_eq_true he
  exact ⟨xs, s, e, t, hr', hs, ho.1, ht,
    fault_follows_table oneOfEach_quiet hr' hs ho.1 ht (by decide)⟩

/-- Owner and admin both find the fault in its first status; the owner cancels it, and then
the admin assigns the cancelled fault. -/
theorem cancelled_fault_assigned : ¬ ∀ (drv : Driver) (req : Client → Request) (d : Db) (xs : List Taken)
    (s t : State) (e : Taken) (i : Nat) (a b : FaultStatus), Quiet d →
      Trace.Run (Step act) (initial drv req d) xs s → Step act s e t →
      (s.db.faults.committed i).map (·.status) = some a → (t.db.faults.committed i).map (·.status) = some b →
      a ≠ b → b ∈ transitions a := by
  intro h
  have hplay : (play act (fun _ _ _ _ => true) (turns [(0, 1), (1, 1), (0, 1)])
      (initial plainDriver assigning oneOfEach)).map
      (fun s => (faultStatus s.db, ready act (.run 5) 1 (fun _ _ d => faultStatus d = some .assigned) s)) =
      some (some .cancelled, true) := by decide +kernel
  obtain ⟨xs, s, hr, ho⟩ := play_run hplay
  simp only [Prod.mk.injEq] at ho
  obtain ⟨e, t, hs, -, -, he⟩ := ready_step ho.2
  have ht : faultStatus t.db = some .assigned := of_decide_eq_true he
  have hmem := h _ _ _ xs s t e 0 _ _ oneOfEach_quiet (hr.mono fun _ _ _ h => h.1) hs ho.1 ht (by decide)
  revert hmem
  decide

end Faults

end Kayan.Items
