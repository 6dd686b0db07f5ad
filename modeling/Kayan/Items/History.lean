import Kayan.Items.Races

/-!
# Statuses and their histories

A status that is written on its own is followed by its history row in a statement of its
own. Between the two, the call is `due` to insert that row; the status of an item is the
latest of its history, or a call is due to make it so (`Documented`).
-/
namespace Kayan.Items
open Interleave RowStore Shop Reads Bookkeeping

abbrev Books := Ledger Client Item Row Status Nat

variable {drv : Driver} {req : Client → Request} {d d' : Db} {s t : State} {e : Taken} {xs : List Taken}
  {b c : Client} {x : Item} {v : Status} {p y : Phase} {o : Op Item Status} {l l' : Books} {m : Move}

/-- The status in the latest history row of an item. -/
def latest (l : Books) (x : Item) : Option Status := (l.trail x).getLast?.map Prod.fst

/-- The status in its latest history row is the current status of every item. -/
def Agree (d : Db) : Prop := ∀ x row, d.ledger.row x = some row → latest d.ledger x = some row.status

/-- The history rows refer to items. -/
def Referring (d : Db) : Prop := ∀ x, d.ledger.trail x ≠ [] → d.ledger.row x ≠ none

/-- The status that a statement adds to the history of an item on its own. -/
def Stmt.notes : Stmt → Option (Item × Status)
  | .shop (.insertOrderHistory .pool i s _) => some (⟨.order, i⟩, .order s)
  | .insertFaultHistory .pool i s _ => some (⟨.fault, i⟩, .fault s)
  | .insertServiceHistory i s _ => some (⟨.service, i⟩, .service s)
  | _ => none

/-- A statement that, where it adds to a history on its own, succeeds, and adds the current
status of the item unless another call is about to add that. -/
def InOrder (s : State) (e : Taken) (t : State) : Prop :=
  Step act s e t ∧ ∀ x v, e.stmt.notes = some (x, v) → Succeeds e ∧
    ∀ row, s.db.ledger.row x = some row → row.status = v ∨
      ∃ c, c ≠ e.client ∧ ∃ q, Next c q s ∧ q.notes = some (x, row.status)

section Phases

theorem notes_effect {q : Stmt} (h : q.notes = some (x, v)) (r : Reply q) : q.effect r = .note x v := by
  cases q with
  | shop q =>
    cases q with
    | insertOrderHistory ex =>
      cases ex <;> cases h
      rfl
    | _ => cases h
  | insertFaultHistory ex =>
    cases ex <;> cases h
    rfl
  | insertServiceHistory =>
    cases h
    rfl
  | _ => cases h

/-- Such a statement can fail only with the connection. -/
theorem notes_succeed {q : Stmt} {r : Answer q} {now : Nat} (h : act (.run now) c q d = some (r, d'))
    (hn : q.notes = some (x, v)) : ∃ a, r = .ok a := by
  cases q with
  | shop q =>
    cases q with
    | insertOrderHistory ex =>
      cases ex <;> cases hn
      cases h
      exact ⟨(), rfl⟩
    | _ => cases hn
  | insertFaultHistory ex =>
    cases ex <;> cases hn
    cases h
    exact ⟨(), rfl⟩
  | insertServiceHistory =>
    cases hn
    cases h
    exact ⟨(), rfl⟩
  | _ => cases hn

theorem reply_nonempty (q : Stmt) : Nonempty (Reply q) := by
  cases q with
  | shop q =>
    cases q with
    | insertOrder | insertProduct | dateNow => exact ⟨(0 : Nat)⟩
    | updateProduct | updateOrderStatus => exact ⟨false⟩
    | selectProductForUpdate | selectProduct | lockCartRow | selectOrderStatus | selectOrder => exact ⟨none⟩
    | selectOrderItems | selectCart | selectProductAssets | snapshotCart | snapshotDelete => exact ⟨[]⟩
    | _ => exact ⟨()⟩
  | insertFault => exact ⟨(0 : Nat)⟩
  | selectOwnFaultStatus | selectFaultStatus | selectFault | selectServiceStatus | selectService => exact ⟨none⟩
  | selectFiles | selectFaultAssets => exact ⟨[]⟩
  | updateServiceStatus => exact ⟨false⟩
  | insertService userId dto => exact ⟨(⟨0, 0, .designing, "", "", .notStarted, none, 0, 0⟩ : ServiceOrder)⟩
  | _ => exact ⟨()⟩

theorem effect_notes {q : Stmt} {r : Reply q} (h : q.effect r = .note x v) : q.notes = some (x, v) := by
  cases q with
  | shop q =>
    cases q with
    | insertOrderHistory ex =>
      cases ex <;> cases h
      rfl
    | selectOrderStatus => rcases r with _ | r <;> cases h
    | updateOrderStatus => rcases r with _ | _ <;> cases h
    | _ => cases h
  | insertFaultHistory ex =>
    cases ex <;> cases h
    rfl
  | insertServiceHistory =>
    cases h
    rfl
  | selectOwnFaultStatus | selectFaultStatus | selectServiceStatus => rcases r with _ | r <;> cases h
  | updateServiceStatus => rcases r with _ | _ <;> cases h
  | _ => cases h

theorem effect_ne_fail {q : Stmt} {r : Reply q} : q.effect r ≠ .fail := by
  intro h
  cases q with
  | shop q =>
    cases q with
    | insertOrderHistory ex => cases ex <;> cases h
    | selectOrderStatus => rcases r with _ | r <;> cases h
    | updateOrderStatus => rcases r with _ | _ <;> cases h
    | _ => cases h
  | insertFaultHistory ex => cases ex <;> cases h
  | selectOwnFaultStatus | selectFaultStatus | selectServiceStatus => rcases r with _ | r <;> cases h
  | updateServiceStatus => rcases r with _ | _ <;> cases h
  | _ => cases h

/-- From any reply the next statement of a client goes on as its phase allows. -/
theorem Running.next {ph : Client → Phase} {q : Stmt} (h : Running ph s) (hq : Next c q s) (r : Answer q) :
    ∃ y, (ph c).Next (q.op r) y := by
  obtain ⟨k, hk⟩ := hq
  have hc := h.called c
  rw [hk] at hc
  obtain ⟨y, hy, -⟩ := hc r
  exact ⟨y, hy⟩

/-- A call that is due adds the row that is due. -/
theorem notes_of_due {ph : Client → Phase} {q : Stmt} (h : Running ph s) (hq : Next c q s)
    (hp : ph c = .due x v) : q.notes = some (x, v) := by
  obtain ⟨r⟩ := reply_nonempty q
  obtain ⟨y, hy⟩ := h.next hq (.ok r)
  have hne : q.op (.ok r) ≠ .fail := effect_ne_fail
  rw [hp] at hy
  generalize ho : q.op (.ok r) = o at hy
  cases hy with
  | read hr => cases hr
  | fail hu => cases hu
  | discard hu => cases hu
  | note => exact effect_notes ho
  | tear => exact absurd ho hne

/-- And it adds a row only when it is due. -/
theorem due_of_notes {ph : Client → Phase} {q : Stmt} (h : Running ph s) (hq : Next c q s)
    (hn : q.notes = some (x, v)) : ph c = .due x v := by
  obtain ⟨r⟩ := reply_nonempty q
  obtain ⟨y, hy⟩ := h.next hq (.ok r)
  have ho : q.op (.ok r) = .note x v := notes_effect hn r
  rw [ho] at hy
  generalize ph c = p at hy
  cases hy
  rfl

end Phases

section Transactions

/-- The open transaction of `c` has written no history row, and no item that is new. -/
def Empty (c : Client) (l : Books) : Prop :=
  ∀ x, l.entries c x = [] ∧ (l.row x = none → l.draft c x = none)

/-- What the open transaction of `c` has written, by the phase of its call. -/
def Fits (c : Client) (l : Books) : Phase → Prop
  | .idle | .done | .torn => Empty c l
  | .checked x _ | .due x _ => Empty c l ∧ l.row x ≠ none
  | .drafted x => l.row x = none ∧ l.draft c x ≠ none ∧ l.entries c x = [] ∧
      ∀ y, y ≠ x → l.entries c y = [] ∧ (l.row y = none → l.draft c y = none)
  | .recorded x => l.row x = none ∧ l.draft c x ≠ none ∧ (∃ a, l.entries c x = [(x.initial, a)]) ∧
      ∀ y, y ≠ x → l.entries c y = [] ∧ (l.row y = none → l.draft c y = none)
  | .failed => True

theorem Empty.other (h : Empty c l) (hm : Moves scheme b l o l') (hb : c ≠ b) : Empty c l' := by
  obtain ⟨hd, he⟩ := hm.other hb
  refine fun x => ⟨he ▸ (h x).1, fun hx => ?_⟩
  rw [hd]
  refine (h x).2 ?_
  by_contra hne
  exact hm.row_isSome hne hx

/-- The statements of the others leave the transaction of `c` as its phase has it. -/
theorem Fits.other (h : Fits c l p) (hm : Moves scheme b l o l') (hs : Sound scheme l) (hb : c ≠ b) :
    Fits c l' p := by
  obtain ⟨hd, he⟩ := hm.other hb
  have hrest : ∀ x, (∀ y, y ≠ x → l.entries c y = [] ∧ (l.row y = none → l.draft c y = none)) →
      ∀ y, y ≠ x → l'.entries c y = [] ∧ (l'.row y = none → l'.draft c y = none) := by
    intro x hx y hy
    refine ⟨he ▸ (hx y hy).1, fun hr => ?_⟩
    rw [hd]
    refine (hx y hy).2 ?_
    by_contra hne
    exact hm.row_isSome hne hr
  cases p with
  | idle | done | torn => exact Empty.other h hm hb
  | checked | due => exact ⟨h.1.other hm hb, hm.row_isSome h.2⟩
  | drafted x => exact ⟨hm.row_other hs hb h.2.1 h.1, hd ▸ h.2.1, he ▸ h.2.2.1, hrest x h.2.2.2⟩
  | recorded x => exact ⟨hm.row_other hs hb h.2.1 h.1, hd ▸ h.2.1, he ▸ h.2.2.1, hrest x h.2.2.2⟩
  | failed => trivial

theorem closed_empty : Empty c (l.closed c) := fun x => by simp

theorem published_empty {row : Item → Option Row} {trail : Item → List (Status × Nat)} :
    Empty c { l.closed c with row, trail } :=
  fun x => ⟨(closed_empty x).1, fun _ => Ledger.closed_draft.trans (if_pos rfl)⟩

theorem Empty.withRow {w : Row} (h : Empty c l) : Empty c (l.withRow x w) := by
  refine fun y => ⟨(h y).1, fun hy => (h y).2 ?_⟩
  rw [Ledger.withRow_row] at hy
  split at hy
  · cases hy
  · exact hy

/-- So do the statements of `c` itself. An admin's status of an order or a service counts
only where the statement has found the row. -/
theorem Fits.own (h : Fits c l p) (hn : p.Next o y) (hm : Moves scheme c l o l')
    (hf : ∀ x v, o = .set x v false → x.type ≠ .fault → l.row x ≠ none) : Fits c l' y := by
  have hset : ∀ x v stamped, o = .set x v stamped → Empty c l ∧ l.row x ≠ none →
      Empty c l' ∧ l'.row x ≠ none := by
    rintro x v stamped rfl ⟨he, hx⟩
    refine ⟨?_, hm.row_isSome hx⟩
    rcases hm.set_cases with ⟨-, rfl⟩ | ⟨w, rfl⟩
    · exact he
    · exact he.withRow
  cases hn with
  | read =>
    cases hm with
    | read => exact h
    | missing ho => cases ho
  | look =>
    cases hm with
    | check => exact h
    | missing ho => cases ho
  | @check x s =>
    have hl : l' = l ∧ l.row x ≠ none := by
      generalize ho : Op.check x s = o at hm
      cases hm with
      | check hv =>
        cases ho
        refine ⟨rfl, fun hx => ?_⟩
        -- what the transaction sees of a row that is not committed is new, and nothing is new
        rcases hv with hv | hv
        · rw [hx] at hv
          cases hv
        · rw [seen_of_row_none hx, (h x).2 hx] at hv
          cases hv
      | missing hw =>
        subst ho
        cases hw
      | _ => cases ho
    rw [hl.1]
    exact ⟨h, hl.2⟩
  | fail => trivial
  | @draft x =>
    cases hm with
    | draft hx hd =>
      refine ⟨hx, by simp, (h x).1, fun y hy => ⟨(h y).1, fun hr => ?_⟩⟩
      simpa [hy] using (h y).2 hr
    | missing ho => cases ho
  | @entry x =>
    obtain ⟨hx, hd, he, hrest⟩ := h
    generalize ho : Op.entry x x.initial = o at hm
    cases hm with
    | @entry x s a =>
      cases ho
      refine ⟨hx, hd, ⟨a, by simp [he]⟩, fun y hy => ⟨?_, (hrest y hy).2⟩⟩
      simpa [hy] using (hrest y hy).1
    | missing hw =>
      subst ho
      cases hw
    | _ => cases ho
  | @edit x =>
    cases hm with
    | edit =>
      refine fun y => ⟨(h.1 y).1, fun hr => ?_⟩
      have hy : y ≠ x := by
        rintro rfl
        exact h.2 hr
      simpa [hy] using (h.1 y).2 hr
    | missing => exact h.1
  | publish | publishNew =>
    cases hm with
    | publish => exact published_empty
    | missing ho => cases ho
  | discard =>
    cases hm with
    | discard => exact closed_empty
    | missing ho => cases ho
  | discardFailed => trivial
  | @touch x =>
    cases hm with
    | touch => exact h.1.withRow
    | missing => exact h.1
  | cancel => exact hset _ _ _ rfl h
  | advance => exact hset _ _ _ rfl h
  | set hx => exact hset _ _ _ rfl ⟨h, hf _ _ rfl hx⟩
  | @add x =>
    cases hm with
    | add => exact ⟨Empty.withRow h, by simp⟩
    | missing ho => cases ho
  | @note x s =>
    generalize ho : Op.note x s = o at hm
    cases hm with
    | note => exact h.1
    | missing hw =>
      subst ho
      cases hw
    | _ => cases ho
  | tear =>
    cases hm with
    | fail => exact h.1
    | missing ho => cases ho

end Transactions

section Invariant

/-- The status in the latest history row of an item is its status, or a call is due to add
the row that makes it so. -/
structure Documented (ph : Client → Phase) (l : Books) : Prop where
  fits : ∀ c, Fits c l (ph c)
  agree : ∀ x row, l.row x = some row → latest l x = some row.status ∨ ∃ c, ph c = .due x row.status
  noted : ∀ x, l.trail x ≠ [] → l.row x ≠ none

theorem latest_append {a : Nat} (h : l'.trail x = l.trail x ++ [(v, a)]) : latest l' x = some v := by
  simp [latest, h]

/-- After a status is set, its history row is due. -/
theorem due_of_set {stamped : Bool} (hn : p.Next (.set x v stamped) y) : y = .due x v := by
  generalize ho : Op.set x v stamped = o at hn
  cases hn <;> cases ho <;> rfl

theorem due_of_add (hn : p.Next (.add x) y) : y = .due x x.initial := by
  cases hn
  rfl

/-- A history row is added on its own only where it is due. -/
theorem due_of_note (hn : p.Next (.note x v) y) : p = .due x v := by
  cases hn
  rfl

/-- A statement of a client adds entries of a transaction to a history only for an item
that is new. -/
theorem Fits.published (h : Fits c l p) (hn : p.Next .publish y) (hx : l.entries c x ≠ []) :
    l.row x = none ∧ l.draft c x ≠ none ∧ ∃ a, l.entries c x = [(x.initial, a)] := by
  cases hn with
  | publish => exact absurd (h x).1 hx
  | @publishNew z =>
    obtain ⟨hr, hd, he, hrest⟩ := h
    by_cases hz : x = z
    · subst hz
      exact ⟨hr, hd, he⟩
    · exact absurd (hrest x hz).1 hx

/-- And it publishes an item that is new only with its first entry. -/
theorem Fits.entered (h : Fits c l p) (hn : p.Next .publish y) (hx : l.row x = none)
    (hd : l.draft c x ≠ none) : ∃ a, l.entries c x = [(x.initial, a)] := by
  cases hn with
  | publish => exact absurd ((h x).2 hx) hd
  | @publishNew z =>
    obtain ⟨-, -, he, hrest⟩ := h
    by_cases hz : x = z
    · subst hz
      exact he
    · exact absurd ((hrest x hz).2 hx) hd

/-- A status that a statement sets is that of an item. -/
theorem set_found {q : Stmt} {r : Answer q} (h : act m c q d = some (r, d')) (ho : q.op r = .set x v false)
    (hx : x.type ≠ .fault) : d.ledger.row x ≠ none := by
  obtain ⟨a, rfl, he⟩ := op_ok ho (by simp) (by simp)
  cases m with
  | fail e =>
    obtain ⟨hr, -⟩ := act_fail h
    cases hr
  | run now =>
    cases q with
    | shop q =>
      cases q with
      | updateOrderStatus status i =>
        obtain ⟨⟨a', e⟩, hb, heq⟩ := Option.map_eq_some_iff.mp h
        simp only [Shop.exec, updateOrderRow_eq, Option.map_map, Option.map_eq_some_iff] at hb
        obtain ⟨⟨found, t⟩, ht, hb⟩ := hb
        cases hb
        cases heq
        obtain ⟨rfl, -, -⟩ := updated_set he
        rcases updateRow_cases ht with ⟨rfl, -, -⟩ | ⟨row, -, hc, -, -⟩
        · cases he
        · simp [Db.ledger, hc]
      | insertOrderHistory ex => cases ex <;> cases he
      | selectOrderStatus => exact absurd he checked_ne_set
      | _ => cases he
    | updateFaultStatus =>
      cases he
      exact absurd rfl hx
    | updateServiceStatus status i =>
      obtain ⟨⟨found, t⟩, ht, heq⟩ := Option.map_eq_some_iff.mp h
      cases heq
      obtain ⟨rfl, -, -⟩ := updated_set he
      rcases updateRow_cases ht with ⟨rfl, -, -⟩ | ⟨row, -, hc, -, -⟩
      · cases he
      · simp [Db.ledger, hc]
    | insertFaultHistory ex => cases ex <;> cases he
    | selectOwnFaultStatus | selectFaultStatus | selectServiceStatus => exact absurd he checked_ne_set
    | _ => cases he

/-- Where histories are written in order, a call that is due adds the row that is due. -/
theorem InOrder.due {ph : Client → Phase} (h : Running ph s) (hi : InOrder s e t) (hp : ph e.client = .due x v) :
    e.stmt.op e.reply = .note x v := by
  have hn := notes_of_due h hi.1.next hp
  obtain ⟨⟨r, hr⟩, -⟩ := hi.2 x v hn
  rw [hr]
  exact notes_effect hn r

/-- A history row that is added leaves the item documented. -/
theorem InOrder.documents {ph : Client → Phase} {row : Row} (h : Running ph s) (hi : InOrder s e t)
    (ho : e.stmt.op e.reply = .note x v) (hr : s.db.ledger.row x = some row) :
    row.status = v ∨ ∃ c, c ≠ e.client ∧ ph c = .due x row.status := by
  obtain ⟨a, -, ha⟩ := op_ok ho (by simp) (by simp)
  rcases (hi.2 x v (effect_notes ha)).2 row hr with hv | ⟨c, hc, q, hq, hn⟩
  · exact Or.inl hv
  · exact Or.inr ⟨c, hc, due_of_notes h hq hn⟩

theorem Documented.step {ph : Client → Phase} (h : Running ph s) (hd : Documented ph s.db.ledger)
    (hi : InOrder s e t) :
    ∃ y, (ph e.client).Next (e.stmt.op e.reply) y ∧ Running (Function.update ph e.client y) t ∧
      Documented (Function.update ph e.client y) t.db.ledger := by
  obtain ⟨y, hy, ht, hm⟩ := h.step hi.1
  have hfound : ∀ x v, e.stmt.op e.reply = .set x v false → x.type ≠ .fault → s.db.ledger.row x ≠ none :=
    fun x v ho hx => set_found hi.1.acted ho hx
  have hfit := hd.fits e.client
  refine ⟨y, hy, ht, fun c => ?_, fun x w hw => ?_, fun x hx => ?_⟩
  · by_cases hc : c = e.client
    · subst hc
      rw [Function.update_self]
      exact hfit.own hy hm hfound
    · rw [Function.update_of_ne hc]
      exact (hd.fits c).other hm h.sound hc
  · rcases hm.row_cases h.sound hw with ⟨stamped, v, ho, -, -⟩ | ⟨v, hv, hs, -⟩ | ⟨hv, hs, -, ho⟩
    · -- the status was set: its history row is due
      rw [ho] at hy
      exact Or.inr ⟨e.client, by rw [Function.update_self]; exact due_of_set hy⟩
    · have hs : w.status = v.status := hs
      rw [hs]
      rcases hm.trail_cases x with htr | ⟨u, a, ho, htr⟩ | ⟨ho, hne, -⟩
      · rcases hd.agree x v hv with hl | ⟨c, hc⟩
        · exact Or.inl (by rw [latest, htr]; exact hl)
        · by_cases hce : c = e.client
          · -- the call that was due has added its row
            subst hce
            rw [hi.due h hc] at hm
            obtain ⟨a, ha⟩ := hm.note_trail
            exact Or.inl (latest_append ha)
          · exact Or.inr ⟨c, by rw [Function.update_of_ne hce]; exact hc⟩
      · rcases hi.documents h ho hv with rfl | ⟨c, hce, hc⟩
        · exact Or.inl (latest_append htr)
        · exact Or.inr ⟨c, by rw [Function.update_of_ne hce]; exact hc⟩
      · rw [ho] at hy
        obtain ⟨hr, -⟩ := hfit.published hy hne
        rw [hv] at hr
        cases hr
    · have hs : w.status = x.initial := hs
      rw [hs]
      rcases ho with ho | ho
      · rw [ho] at hy
        exact Or.inr ⟨e.client, by rw [Function.update_self]; exact due_of_add hy⟩
      · -- a new item is published with its first entry
        rw [ho] at hy hm
        obtain ⟨hrow, htr⟩ := hm.published
        rw [hrow, seen_of_row_none hv] at hw
        obtain ⟨a, ha⟩ := hfit.entered hy hv (by simp [hw])
        have hnil : s.db.ledger.trail x = [] := by
          by_contra hne
          exact hd.noted x hne hv
        exact Or.inl (by simp [latest, htr x hnil, ha])
  · rcases hm.trail_cases x with htr | ⟨u, a, ho, -⟩ | ⟨ho, hne, -⟩
    · exact hm.row_isSome (hd.noted x (htr ▸ hx))
    · rw [ho] at hy
      rw [due_of_note hy] at hfit
      exact hm.row_isSome hfit.2
    · rw [ho] at hy hm
      obtain ⟨hr, hdr, -⟩ := hfit.published hy hne
      rw [hm.published.1, seen_of_row_none hr]
      exact hdr

/-- A call that has taken no statement is where it was. -/
theorem Documented.run {ph : Client → Phase} (h : Running ph s) (hd : Documented ph s.db.ledger)
    (hr : Trace.Run InOrder s xs t) : ∃ ph', Running ph' t ∧ Documented ph' t.db.ledger ∧
      ∀ c, (∀ e ∈ xs, e.client ≠ c) → ph' c = ph c := by
  induction hr generalizing ph with
  | refl => exact ⟨ph, h, hd, fun _ _ => rfl⟩
  | step hs _ ih =>
    obtain ⟨y, -, ht, hdt⟩ := hd.step h hs
    obtain ⟨ph', ht', hdt', hsame⟩ := ih ht hdt
    refine ⟨ph', ht', hdt', fun c hc => ?_⟩
    rw [hsame c fun e he => hc e (List.mem_cons_of_mem _ he)]
    exact Function.update_of_ne (Ne.symm (hc _ List.mem_cons_self)) _ _

theorem initial_documented (hd : Quiet d) (ha : Agree d) (hf : Referring d) :
    Documented (fun _ => .idle) d.ledger := by
  refine ⟨fun c x => ⟨?_, fun _ => ?_⟩, fun x row hx => Or.inl (ha x row hx), hf⟩
  · obtain ⟨k, i⟩ := x
    cases k
    · simp [Db.ledger, trailOf, Table.pending_eq_nil (hd.orderHistory c)]
    · simp [Db.ledger, trailOf, Table.pending_eq_nil (hd.faultHistory c)]
    · simp [Db.ledger, trailOf, Table.pending_eq_nil (hd.serviceHistory c)]
  · obtain ⟨k, i⟩ := x
    cases k <;> simp [Db.ledger, Table.draft, hd.orders, hd.faults, hd.services]

end Invariant

section Failures

/-- A write statement of client `c` that fails. -/
def FailsWrite (c : Client) (e : Taken) : Prop :=
  e.client = c ∧ e.stmt.writes = true ∧ ∃ err, e.reply = .error err

/-- A step that, where it is of client `c`, leaves the items and their histories alone. -/
def Spares (c : Client) (s : State) (e : Taken) (t : State) : Prop :=
  Step act s e t ∧ (e.client = c →
    t.db.ledger.row = s.db.ledger.row ∧ t.db.ledger.trail = s.db.ledger.trail)

theorem FailsWrite.op (h : FailsWrite c e) : e.stmt.op e.reply = .fail := by
  obtain ⟨-, hw, err, hr⟩ := h
  rw [hr, Stmt.op, if_pos hw]

/-- While nothing of a call can be seen, its statements are silent, or they make it seen. -/
theorem unseen_next (hp : p.unseen = true) (hn : p.Next o y) :
    (o.silent = true ∧ (y = .failed ∨ (o ≠ .fail ∧ y.unseen = true))) ∨
      (o ≠ .fail ∧ (y = .done ∨ ∃ x v, y = .due x v)) := by
  cases hn with
  | read => exact Or.inl ⟨rfl, Or.inr ⟨by simp, hp⟩⟩
  | look | check | draft | entry | edit | discard => exact Or.inl ⟨rfl, Or.inr ⟨by simp, rfl⟩⟩
  | fail => exact Or.inl ⟨rfl, Or.inl rfl⟩
  | publish | publishNew | touch => exact Or.inr ⟨by simp, Or.inl rfl⟩
  | cancel | advance | set | add => exact Or.inr ⟨by simp, Or.inr ⟨_, _, rfl⟩⟩
  | discardFailed | note | tear => cases hp

theorem failed_next (hn : Phase.Next .failed o y) : o.silent = true ∧ y = .failed := by
  cases hn with
  | read => exact ⟨rfl, rfl⟩
  | discardFailed => exact ⟨rfl, rfl⟩
  | fail hp | discard hp => cases hp

theorem done_next (hn : Phase.Next .done o y) : o = .read ∧ y = .done := by
  cases hn with
  | read => exact ⟨rfl, rfl⟩
  | fail hp | discard hp => cases hp

/-- The phase of `c` after a step of its own or of another client. -/
theorem update_phase {ph : Client → Phase} {Q : Phase → Prop} (hc : Q (ph c)) (hy : b = c → Q y) :
    Q (Function.update ph b y c) := by
  by_cases hb : c = b
  · subst hb
    rw [Function.update_self]
    exact hy rfl
  · rw [Function.update_of_ne hb]
    exact hc

/-- A call that has failed writes nothing more. -/
theorem spares_of_failed {ph : Client → Phase} (h : Running ph s) (hp : ph c = .failed)
    (hr : Trace.Run InOrder s xs t) : Trace.Run (Spares c) s xs t := by
  induction hr generalizing ph with
  | refl => exact .refl
  | @step s t u e xs hs _ ih =>
    obtain ⟨y, hy, ht, hm⟩ := h.step hs.1
    have hown : e.client = c → (e.stmt.op e.reply).silent = true ∧ y = .failed := by
      intro hc
      rw [hc, hp] at hy
      exact failed_next hy
    refine .step ⟨hs.1, fun hc => hm.silent (hown hc).1⟩ (ih ht ?_)
    exact update_phase (Q := (· = .failed)) hp fun hc => (hown hc).2

/-- Where histories are written in order, no write fails after a call is seen. -/
theorem no_failure_of_seen {ph : Client → Phase} (h : Running ph s)
    (hp : ph c = .done ∨ ∃ x v, ph c = .due x v) (hr : Trace.Run InOrder s xs t) :
    ∀ e ∈ xs, ¬ FailsWrite c e := by
  induction hr generalizing ph with
  | refl => simp
  | @step s t u e xs hs _ ih =>
    obtain ⟨y, hy, ht, -⟩ := h.step hs.1
    have hown : e.client = c → e.stmt.op e.reply ≠ .fail ∧ y = .done := by
      rintro rfl
      rcases hp with hp | ⟨x, v, hp⟩
      · rw [hp] at hy
        obtain ⟨ho, hy⟩ := done_next hy
        exact ⟨by simp [ho], hy⟩
      · have ho := hs.due h hp
        rw [ho, hp] at hy
        refine ⟨by simp [ho], ?_⟩
        cases hy
        rfl
    intro e' he'
    rcases List.mem_cons.mp he' with rfl | he'
    · exact fun hf => (hown hf.1).1 hf.op
    · exact ih ht (update_phase (Q := fun p => p = .done ∨ ∃ x v, p = .due x v) hp
        fun hc => Or.inl (hown hc).2) e' he'

/-- A call one of whose writes fails has left the items and their histories alone. -/
theorem spares_of_failure {ph : Client → Phase} (h : Running ph s) (hp : (ph c).unseen = true)
    (hr : Trace.Run InOrder s xs t) (hf : ∃ e ∈ xs, FailsWrite c e) : Trace.Run (Spares c) s xs t := by
  induction hr generalizing ph with
  | refl => exact .refl
  | @step s t u e xs hs hr ih =>
    obtain ⟨y, hy, ht, hm⟩ := h.step hs.1
    obtain ⟨e', he', hf⟩ := hf
    by_cases hc : e.client = c
    · subst hc
      rcases unseen_next hp hy with ⟨ho, hu⟩ | ⟨ho, hu⟩
      · refine .step ⟨hs.1, fun _ => hm.silent ho⟩ ?_
        rcases hu with rfl | ⟨hne, hu⟩
        · exact spares_of_failed ht (Function.update_self _ _ _) hr
        · rcases List.mem_cons.mp he' with rfl | he'
          · exact absurd hf.op hne
          · exact ih ht (by rwa [Function.update_self]) ⟨e', he', hf⟩
      · rcases List.mem_cons.mp he' with rfl | he'
        · exact absurd hf.op ho
        · exact absurd hf (no_failure_of_seen ht (by rwa [Function.update_self]) hr e' he')
    · have hmem : e' ∈ xs := by
        rcases List.mem_cons.mp he' with rfl | he'
        · exact absurd hf.1 hc
        · exact he'
      refine .step ⟨hs.1, fun h => absurd h hc⟩ (ih ht ?_ ⟨e', hmem, hf⟩)
      exact update_phase (Q := fun p => p.unseen = true) hp fun h => absurd h hc

end Failures

/-- Where history rows that are added on their own are added in order, statuses and histories
agree once all calls that have begun have ended, and a call one of whose writes fails has
changed no item and no history. -/
theorem status_agrees_with_history (hd : Quiet d) (ha : Agree d) (hf : Referring d)
    (hr : Trace.Run InOrder (initial drv req d) xs s) :
    ((∀ e ∈ xs, (s.prog e.client).ended = true) → Agree s.db) ∧
      ∀ c, (∃ e ∈ xs, FailsWrite c e) → Trace.Run (Spares c) (initial drv req d) xs s := by
  refine ⟨fun hend x row hrow => ?_, fun c hc => spares_of_failure (initial_running hd) rfl hr hc⟩
  obtain ⟨ph, hs, hdoc, hidle⟩ := (initial_documented hd ha hf).run (initial_running hd) hr
  rcases hdoc.agree x row hrow with hl | ⟨c, hc⟩
  · exact hl
  · exfalso
    by_cases hmem : ∃ e ∈ xs, e.client = c
    · obtain ⟨e, he, rfl⟩ := hmem
      obtain ⟨r, hret⟩ := Prog.ended_ret (hend e he)
      have hph := hs.called e.client
      rw [hret, hc] at hph
      have hended : (Phase.due x row.status).ended = true := hph
      cases hended
    · have hph := hidle c fun e he hec => hmem ⟨e, he, hec⟩
      rw [hc] at hph
      cases hph

section Examples

theorem oneOfEach_agree : Agree oneOfEach := by
  rintro ⟨k, i⟩ row hrow
  cases k <;> rcases i with _ | i
  all_goals
    cases hrow
    try rfl

theorem oneOfEach_referring : Referring oneOfEach := by
  rintro ⟨k, i⟩ hx
  cases k <;> rcases i with _ | i
  all_goals
    first
      | exact Option.some_ne_none _
      | exact absurd rfl hx

/-- The check of a statement that adds to a history, and of one that fails. -/
def inOrder : Move → Client → Stmt → Db → Bool
  | .run _, _, q, d => q.notes.all fun (x, v) => (d.ledger.row x).all fun row => row.status = v
  | .fail _, _, q, _ => q.writes && q.notes.isNone

theorem inOrder_of (hs : Step act s e t) (h : inOrder e.move e.client e.stmt s.db = true) : InOrder s e t := by
  refine ⟨hs, fun x v hn => ?_⟩
  have ha := hs.acted
  generalize e.move = m at h ha
  cases m with
  | fail err => simp [inOrder, hn] at h
  | run now =>
    refine ⟨notes_succeed ha hn, fun row hrow => Or.inl ?_⟩
    simpa [inOrder, hn, hrow] using h

theorem failsWrite_of (hs : Step act s e t) {err : PgError} (hm : e.move = .fail err)
    (h : inOrder e.move e.client e.stmt s.db = true) : FailsWrite e.client e := by
  have ha := hs.acted
  rw [hm] at h ha
  obtain ⟨hr, -⟩ := act_fail ha
  have hw : e.stmt.writes = true ∧ e.stmt.notes.isNone = true := by simpa [inOrder] using h
  exact ⟨rfl, hw.1, err, hr⟩

/-- The owner finds the order in its first status; the admin takes it up, and the `UPDATE` of
the owner fails. -/
def aborted : List (Client × Move) := turns [(0, 1), (1, 4)] ++ [(0, .fail .connection)]

theorem status_agrees_aborted : ∃ xs s, Trace.Run InOrder (initial plainDriver cancelling oneOfEach) xs s ∧
    (∀ e ∈ xs, (s.prog e.client).ended = true) ∧ (∃ e ∈ xs, FailsWrite 0 e) ∧ Agree s.db ∧
    Trace.Run (Spares 0) (initial plainDriver cancelling oneOfEach) xs s := by
  have hplay : (play act inOrder aborted (initial plainDriver cancelling oneOfEach)).map
      (fun s => ((s.prog 0).ended, (s.prog 1).ended)) = some (true, true) := by decide +kernel
  obtain ⟨xs, s, hr, hms, ho⟩ := play_trace hplay
  obtain ⟨h0, h1⟩ := Prod.mk.inj ho
  have hr' := hr.mono fun _ _ _ h => inOrder_of h.1 h.2
  have hend : ∀ e ∈ xs, (s.prog e.client).ended = true := by
    intro e he
    have hmem : (e.client, e.move) ∈ aborted := hms ▸ List.mem_map_of_mem he
    have hc : e.client = 1 ∨ e.client = 0 := by
      simp [aborted, turns] at hmem
      tauto
    rcases hc with hc | hc <;> rw [hc] <;> assumption
  have hfail : ∃ e ∈ xs, FailsWrite 0 e := by
    have hmem : ((0 : Client), Move.fail .connection) ∈ xs.map fun e => (e.client, e.move) := by
      rw [hms]
      simp [aborted]
    obtain ⟨e, he, heq⟩ := List.mem_map.mp hmem
    obtain ⟨hc, hm⟩ := Prod.mk.inj heq
    obtain ⟨u, v, hs, hok⟩ := hr.mem he
    exact ⟨e, he, hc ▸ failsWrite_of hs hm hok⟩
  obtain ⟨hagree, hspares⟩ :=
    status_agrees_with_history oneOfEach_quiet oneOfEach_agree oneOfEach_referring hr'
  exact ⟨xs, s, hr', hend, hfail, hagree hend, hspares 0 hfail⟩

/-- The owner's history row fails after the order is cancelled: the call throws, the order is
cancelled, and its history still ends with `received`. -/
theorem cancelled_without_history : ¬ ∀ (drv : Driver) (req : Client → Request) (d : Db) (xs : List Taken)
    (s : State), Quiet d → Agree d → Referring d → Trace.Run (Step act) (initial drv req d) xs s →
      (∀ e ∈ xs, (s.prog e.client).ended = true) → Agree s.db := by
  intro h
  have hplay : (play act (takenBy 0) (turns [(0, 2)] ++ [(0, .fail .connection)])
      (initial plainDriver cancelling oneOfEach)).map
      (fun s => ((s.prog 0).ended, (s.db.ledger.row ⟨.order, 0⟩).map Row.status,
        latest s.db.ledger ⟨.order, 0⟩)) =
      some (true, some (.order .cancelled), some (.order .received)) := by decide +kernel
  obtain ⟨xs, s, hr, ho⟩ := play_run hplay
  simp only [Prod.mk.injEq] at ho
  obtain ⟨hend, hrow, hlatest⟩ := ho
  obtain ⟨row, hrow, hst⟩ := Option.map_eq_some_iff.mp hrow
  have hagree := h _ _ _ xs s oneOfEach_quiet oneOfEach_agree oneOfEach_referring
    (hr.mono fun _ _ _ h => h.1) (fun e he => ?_) _ row hrow
  · rw [hlatest, hst] at hagree
    cases hagree
  · obtain ⟨u, v, -, hc⟩ := hr.mem he
    have hc : e.client = 0 := by simpa [takenBy] using hc
    rw [hc]
    exact hend

end Examples

end Kayan.Items
