import Mathlib.Logic.Function.Basic
import Mathlib.Tactic.Common

/-!
# Ledgers

Items with a status, each with a trail of status entries: what everyone sees, and what the
open transactions of the clients have changed. `Moves` says what one operation does. The
status of an item changes by an operation that sets it and by nothing else (`Sound`).
-/
namespace Bookkeeping

/-- How a row shows its status and the time of its cancellation, the status that an item
starts in, and the one that cancels it. -/
structure Scheme (X V S : Type) where
  status : V → S
  cancelledAt : V → Option Nat
  initial : X → S
  cancelled : X → S
  initial_ne : ∀ x, initial x ≠ cancelled x

/-- The rows and trails that are committed, and for each client the rows and entries that
its open transaction has written. An entry is a status with its author. -/
@[ext] structure Ledger (ι X V S A : Type) where
  row : X → Option V
  draft : ι → X → Option V
  trail : X → List (S × A)
  entries : ι → X → List (S × A)

/-- What a statement does to the items. In a transaction: `draft` inserts an item, `edit`
writes its other columns, `entry` adds to its history. On their own: `add` inserts an item,
`touch` writes its other columns, `set` its status and, if stamped, the time of its
cancellation, and `note` adds to its history. -/
inductive Op (X S : Type) where
  | read
  | check (x : X) (s : S)
  | fail
  | draft (x : X)
  | edit (x : X)
  | entry (x : X) (s : S)
  | publish
  | discard
  | add (x : X)
  | touch (x : X)
  | set (x : X) (s : S) (stamped : Bool)
  | note (x : X) (s : S)

/-- The item whose row an operation writes. -/
def Op.written {X S : Type} : Op X S → Option X
  | .edit x | .touch x | .set x _ _ => some x
  | _ => none

/-- The operation leaves what everyone sees as it is. -/
def Op.silent {X S : Type} : Op X S → Bool
  | .publish | .add _ | .touch _ | .set _ _ _ | .note _ _ => false
  | _ => true

variable {ι X V S A : Type} [DecidableEq ι] [DecidableEq X]

namespace Ledger

/-- The row that `c` sees: its own version, or else the committed one. -/
def seen (c : ι) (l : Ledger ι X V S A) (x : X) : Option V := (l.draft c x).or (l.row x)

def withRow (x : X) (v : V) (l : Ledger ι X V S A) : Ledger ι X V S A :=
  { l with row := Function.update l.row x (some v) }

def withDraft (c : ι) (x : X) (v : V) (l : Ledger ι X V S A) : Ledger ι X V S A :=
  { l with draft := Function.update l.draft c (Function.update (l.draft c) x (some v)) }

def withNote (x : X) (s : S) (a : A) (l : Ledger ι X V S A) : Ledger ι X V S A :=
  { l with trail := Function.update l.trail x (l.trail x ++ [(s, a)]) }

def withEntry (c : ι) (x : X) (s : S) (a : A) (l : Ledger ι X V S A) : Ledger ι X V S A :=
  { l with entries := Function.update l.entries c
            (Function.update (l.entries c) x (l.entries c x ++ [(s, a)])) }

/-- The transaction of `c` is over and nothing of it is left. -/
def closed (c : ι) (l : Ledger ι X V S A) : Ledger ι X V S A :=
  { l with draft := Function.update l.draft c fun _ => none
           entries := Function.update l.entries c fun _ => [] }

variable {b c : ι} {x y : X} {v : V} {s : S} {a : A} {l : Ledger ι X V S A}

omit [DecidableEq ι] in
@[simp] theorem withRow_row : (l.withRow x v).row y = if y = x then some v else l.row y := by
  simp [withRow, Function.update_apply]

omit [DecidableEq ι] in
@[simp] theorem withRow_draft : (l.withRow x v).draft = l.draft := rfl

@[simp] theorem withDraft_row : (l.withDraft c x v).row = l.row := rfl

@[simp] theorem withDraft_draft :
    (l.withDraft c x v).draft b y = if b = c ∧ y = x then some v else l.draft b y := by
  by_cases hb : b = c
  · subst hb
    simp [withDraft, Function.update_apply]
  · simp [withDraft, hb]

omit [DecidableEq ι] in
@[simp] theorem withNote_trail :
    (l.withNote x s a).trail y = if y = x then l.trail x ++ [(s, a)] else l.trail y := by
  simp [withNote, Function.update_apply]

@[simp] theorem withEntry_entries :
    (l.withEntry c x s a).entries b y = if b = c ∧ y = x then l.entries c x ++ [(s, a)] else l.entries b y := by
  by_cases hb : b = c
  · subst hb
    simp [withEntry, Function.update_apply]
  · simp [withEntry, hb]

omit [DecidableEq X] in
@[simp] theorem closed_row : (l.closed c).row = l.row := rfl

omit [DecidableEq X] in
@[simp] theorem closed_draft : (l.closed c).draft b y = if b = c then none else l.draft b y := by
  by_cases hb : b = c <;> simp [closed, hb]

omit [DecidableEq X] in
@[simp] theorem closed_entries : (l.closed c).entries b y = if b = c then [] else l.entries b y := by
  by_cases hb : b = c <;> simp [closed, hb]

end Ledger

/-- What an operation of client `c` does to the ledger. A row is written on its own only
while no transaction holds it. -/
inductive Moves (K : Scheme X V S) (c : ι) (l : Ledger ι X V S A) : Op X S → Ledger ι X V S A → Prop
  | read : Moves K c l .read l
  | check {x : X} {v : V} (hv : l.row x = some v ∨ l.seen c x = some v) :
      Moves K c l (.check x (K.status v)) l
  | fail : Moves K c l .fail l
  | draft {x : X} {v : V} (hx : l.row x = none) (hd : ∀ b, l.draft b x = none)
      (hs : K.status v = K.initial x) (ha : K.cancelledAt v = none) :
      Moves K c l (.draft x) (l.withDraft c x v)
  | edit {x : X} {v v' : V} (hv : l.seen c x = some v) (hd : ∀ b, b ≠ c → l.draft b x = none)
      (hs : K.status v' = K.status v) (ha : K.cancelledAt v' = K.cancelledAt v) :
      Moves K c l (.edit x) (l.withDraft c x v')
  | missing {o : Op X S} {x : X} (ho : o.written = some x) (hx : l.row x = none) : Moves K c l o l
  | add {x : X} {v : V} (hx : l.row x = none) (hd : ∀ b, l.draft b x = none)
      (hs : K.status v = K.initial x) (ha : K.cancelledAt v = none) : Moves K c l (.add x) (l.withRow x v)
  | touch {x : X} {v v' : V} (hv : l.row x = some v) (hd : ∀ b, l.draft b x = none)
      (hs : K.status v' = K.status v) (ha : K.cancelledAt v' = K.cancelledAt v) :
      Moves K c l (.touch x) (l.withRow x v')
  | set {x : X} {stamped : Bool} {v v' : V} (hv : l.row x = some v) (hd : ∀ b, l.draft b x = none)
      (ha : (K.cancelledAt v').isSome = (stamped || (K.cancelledAt v).isSome)) :
      Moves K c l (.set x (K.status v') stamped) (l.withRow x v')
  | entry {x : X} {s : S} {a : A} : Moves K c l (.entry x s) (l.withEntry c x s a)
  | note {x : X} {s : S} {a : A} : Moves K c l (.note x s) (l.withNote x s a)
  | publish {trail : X → List (S × A)} (hn : ∀ x, l.entries c x = [] → trail x = l.trail x)
      (he : ∀ x, l.trail x = [] → trail x = l.entries c x) :
      Moves K c l .publish { l.closed c with row := l.seen c, trail }
  | discard : Moves K c l .discard (l.closed c)

/-- The versions of the open transactions: one writer for each item, and the status and
the time of cancellation are those of the committed row, or those of a new item. -/
structure Sound (K : Scheme X V S) (l : Ledger ι X V S A) : Prop where
  alone : ∀ b c x, l.draft b x ≠ none → l.draft c x ≠ none → b = c
  kept : ∀ c x v w, l.draft c x = some v → l.row x = some w →
    K.status v = K.status w ∧ K.cancelledAt v = K.cancelledAt w
  fresh : ∀ c x v, l.draft c x = some v → l.row x = none →
    K.status v = K.initial x ∧ K.cancelledAt v = none

variable {K : Scheme X V S} {b c : ι} {o : Op X S} {x : X} {v w : V} {s : S} {l l' : Ledger ι X V S A}

omit [DecidableEq ι] [DecidableEq X] in
theorem Sound.seen_status (h : Sound K l) (hv : l.row x = some v ∨ l.seen c x = some v) :
    ∃ w, l.seen c x = some w ∧ K.status w = K.status v := by
  rcases hv with hv | hv
  · rcases hd : l.draft c x with _ | w
    · exact ⟨v, by simp [Ledger.seen, hd, hv], rfl⟩
    · exact ⟨w, by simp [Ledger.seen, hd], (h.kept c x w v hd hv).1⟩
  · exact ⟨v, hv, rfl⟩

omit [DecidableEq ι] [DecidableEq X] in
/-- A row that `c` sees and that is not committed is a draft of `c`. -/
theorem seen_of_row_none (hx : l.row x = none) : l.seen c x = l.draft c x := by
  simp [Ledger.seen, hx]

/-- Each operation keeps the versions of the open transactions sound. -/
theorem Sound.step (h : Sound K l) (hm : Moves K c l o l') : Sound K l' := by
  cases hm with
  | read | check | fail | missing | note | entry => exact ⟨h.alone, h.kept, h.fresh⟩
  | @draft x v hx hd hs ha =>
    refine ⟨fun b b' y hb hb' => ?_, fun b y w u hw hu => ?_, fun b y w hw hr => ?_⟩
    · by_cases hy : y = x
      · subst hy
        simp only [Ledger.withDraft_draft, hd] at hb hb'
        grind
      · simp only [Ledger.withDraft_draft, hy, and_false, if_false] at hb hb'
        exact h.alone b b' y hb hb'
    · by_cases hy : y = x
      · subst hy
        rw [Ledger.withDraft_row, hx] at hu
        cases hu
      · simp only [Ledger.withDraft_draft, hy, and_false, if_false] at hw
        exact h.kept b y w u hw hu
    · by_cases hy : b = c ∧ y = x
      · simp only [Ledger.withDraft_draft, hy, and_self, if_true, Option.some.injEq] at hw
        subst hw
        exact hy.2 ▸ ⟨hs, ha⟩
      · rw [Ledger.withDraft_draft, if_neg hy] at hw
        exact h.fresh b y w hw hr
  | @edit x v v' hv hd hs ha =>
    refine ⟨fun b b' y hb hb' => ?_, fun b y w u hw hu => ?_, fun b y w hw hr => ?_⟩
    · by_cases hy : y = x
      · subst hy
        simp only [Ledger.withDraft_draft] at hb hb'
        grind
      · simp only [Ledger.withDraft_draft, hy, and_false, if_false] at hb hb'
        exact h.alone b b' y hb hb'
    · by_cases hy : b = c ∧ y = x
      · obtain ⟨rfl, rfl⟩ := hy
        simp only [Ledger.withDraft_draft, and_self, if_true, Option.some.injEq] at hw
        subst hw
        rw [Ledger.withDraft_row] at hu
        rcases hdr : l.draft b y with _ | w
        · obtain rfl : u = v := by simpa [Ledger.seen, hdr, hu] using hv
          exact ⟨hs, ha⟩
        · obtain rfl : w = v := by simpa [Ledger.seen, hdr] using hv
          obtain ⟨hks, hka⟩ := h.kept b y w u hdr hu
          exact ⟨hs.trans hks, ha.trans hka⟩
      · rw [Ledger.withDraft_draft, if_neg hy] at hw
        exact h.kept b y w u hw hu
    · by_cases hy : b = c ∧ y = x
      · obtain ⟨rfl, rfl⟩ := hy
        simp only [Ledger.withDraft_draft, and_self, if_true, Option.some.injEq] at hw
        subst hw
        rw [Ledger.withDraft_row] at hr
        rw [seen_of_row_none hr] at hv
        obtain ⟨hfs, hfa⟩ := h.fresh b y v hv hr
        exact ⟨hs.trans hfs, ha.trans hfa⟩
      · rw [Ledger.withDraft_draft, if_neg hy] at hw
        exact h.fresh b y w hw hr
  | @add x v hx hd | @touch x v v' hx hd | @set x stamped v v' hx hd =>
    refine ⟨h.alone, fun b y w u hw hu => ?_, fun b y w hw hr => ?_⟩
    · have hy : y ≠ x := fun he => by simp [he, hd] at hw
      rw [Ledger.withRow_row, if_neg hy] at hu
      exact h.kept b y w u hw hu
    · have hy : y ≠ x := fun he => by simp [he, hd] at hw
      rw [Ledger.withRow_row, if_neg hy] at hr
      exact h.fresh b y w hw hr
  | publish =>
    have hdr : ∀ b y w, (l.closed c).draft b y = some w → b ≠ c ∧ l.draft b y = some w := by
      intro b y w hw
      rw [Ledger.closed_draft] at hw
      split at hw
      · cases hw
      · exact ⟨‹_›, hw⟩
    have hseen : ∀ b y w, (l.closed c).draft b y = some w → l.seen c y = l.row y := by
      intro b y w hw
      obtain ⟨hb, hw⟩ := hdr b y w hw
      rcases hc : l.draft c y with _ | u
      · simp [Ledger.seen, hc]
      · exact absurd (h.alone b c y (by simp [hw]) (by simp [hc])) hb
    refine ⟨fun b b' y hb hb' => ?_, fun b y w u hw hu => ?_, fun b y w hw hr => ?_⟩
    · obtain ⟨w, hw⟩ := Option.ne_none_iff_exists'.mp hb
      obtain ⟨u, hu⟩ := Option.ne_none_iff_exists'.mp hb'
      exact h.alone b b' y (by simp [(hdr b y w hw).2]) (by simp [(hdr b' y u hu).2])
    · exact h.kept b y w u (hdr b y w hw).2 ((hseen b y w hw).symm.trans hu)
    · exact h.fresh b y w (hdr b y w hw).2 ((hseen b y w hw).symm.trans hr)
  | discard =>
    have hdr : ∀ b y w, (l.closed c).draft b y = some w → l.draft b y = some w := by
      intro b y w hw
      rw [Ledger.closed_draft] at hw
      split at hw
      · cases hw
      · exact hw
    refine ⟨fun b b' y hb hb' => ?_, fun b y w u hw hu => ?_, fun b y w hw hr => ?_⟩
    · obtain ⟨w, hw⟩ := Option.ne_none_iff_exists'.mp hb
      obtain ⟨u, hu⟩ := Option.ne_none_iff_exists'.mp hb'
      exact h.alone b b' y (by simp [hdr b y w hw]) (by simp [hdr b' y u hu])
    · exact h.kept b y w u (hdr b y w hw) hu
    · exact h.fresh b y w (hdr b y w hw) hr

/-- Where a committed row comes from: its status was set, or it has kept it, or it is new. -/
theorem Moves.row_cases (hm : Moves K c l o l') (h : Sound K l) (hw : l'.row x = some w) :
    (∃ stamped v, o = .set x (K.status w) stamped ∧ l.row x = some v ∧
        (K.cancelledAt w).isSome = (stamped || (K.cancelledAt v).isSome)) ∨
      (∃ v, l.row x = some v ∧ K.status w = K.status v ∧ K.cancelledAt w = K.cancelledAt v) ∨
      (l.row x = none ∧ K.status w = K.initial x ∧ K.cancelledAt w = none ∧ (o = .add x ∨ o = .publish)) := by
  cases hm with
  | read | check | fail | missing | note | entry | draft | edit | discard =>
    exact Or.inr (Or.inl ⟨w, hw, rfl, rfl⟩)
  | @add y v hx hd hs ha =>
    rw [Ledger.withRow_row] at hw
    split at hw
    · rename_i hy
      cases hw
      subst hy
      exact Or.inr (Or.inr ⟨hx, hs, ha, Or.inl rfl⟩)
    · exact Or.inr (Or.inl ⟨w, hw, rfl, rfl⟩)
  | @touch y v v' hv hd hs ha =>
    rw [Ledger.withRow_row] at hw
    split at hw
    · rename_i hy
      cases hw
      subst hy
      exact Or.inr (Or.inl ⟨v, hv, hs, ha⟩)
    · exact Or.inr (Or.inl ⟨w, hw, rfl, rfl⟩)
  | @set y stamped v v' hv hd ha =>
    rw [Ledger.withRow_row] at hw
    split at hw
    · rename_i hy
      cases hw
      subst hy
      exact Or.inl ⟨stamped, v, rfl, hv, ha⟩
    · exact Or.inr (Or.inl ⟨w, hw, rfl, rfl⟩)
  | publish =>
    have hw : (l.draft c x).or (l.row x) = some w := hw
    rcases hd : l.draft c x with _ | u
    · rw [hd, Option.none_or] at hw
      exact Or.inr (Or.inl ⟨w, hw, rfl, rfl⟩)
    · obtain rfl : u = w := by simpa [hd] using hw
      rcases hr : l.row x with _ | v
      · obtain ⟨hs, ha⟩ := h.fresh c x u hd hr
        exact Or.inr (Or.inr ⟨rfl, hs, ha, Or.inr rfl⟩)
      · obtain ⟨hs, ha⟩ := h.kept c x u v hd hr
        exact Or.inr (Or.inl ⟨v, rfl, hs, ha⟩)

/-- Committed rows stay. -/
theorem Moves.row_isSome (hm : Moves K c l o l') (hv : l.row x ≠ none) : l'.row x ≠ none := by
  cases hm with
  | add | touch | set =>
    rw [Ledger.withRow_row]
    split
    · exact Option.some_ne_none _
    · exact hv
  | publish =>
    show (l.draft c x).or (l.row x) ≠ none
    cases l.draft c x
    · exact hv
    · exact Option.some_ne_none _
  | _ => exact hv

/-- An item keeps its status where no other one is set. -/
theorem Moves.keeps_status (hm : Moves K c l o l') (h : Sound K l) (hv : l.row x = some v)
    (hset : ∀ s stamped, o = .set x s stamped → s = K.status v) : ∃ w, l'.row x = some w ∧ K.status w = K.status v := by
  have hne : l.row x ≠ none := fun hn => by simp [hn] at hv
  obtain ⟨w, hw⟩ := Option.ne_none_iff_exists'.mp (hm.row_isSome hne)
  refine ⟨w, hw, ?_⟩
  rcases hm.row_cases h hw with ⟨stamped, -, ho, -, -⟩ | ⟨u, hu, hs, -⟩ | ⟨hn, -⟩
  · exact hset _ stamped ho
  · rw [hs, Option.some.inj (hu.symm.trans hv)]
  · exact absurd hn hne

/-- The status that is read of a committed item is its status. -/
theorem Moves.check_status (hm : Moves K c l (.check x s) l') (h : Sound K l) (hv : l.row x = some v) :
    s = K.status v := by
  generalize ho : Op.check x s = o at hm
  cases hm with
  | @check y w hw =>
    cases ho
    obtain ⟨u, hu, hs⟩ := h.seen_status hw
    rw [← hs]
    rcases hd : l.draft c x with _ | t
    · obtain rfl : v = u := by simpa [Ledger.seen, hd, hv] using hu
      rfl
    · obtain rfl : t = u := by simpa [Ledger.seen, hd] using hu
      exact (h.kept c x t v hd hv).1
  | missing hw =>
    subst ho
    cases hw
  | _ => cases ho

/-- A status that is set on its own is written to the committed row, if there is one. -/
theorem Moves.set_cases {stamped : Bool} (hm : Moves K c l (.set x s stamped) l') :
    (l.row x = none ∧ l' = l) ∨ ∃ w, l' = l.withRow x w := by
  generalize ho : Op.set x s stamped = o at hm
  cases hm with
  | missing hw hx =>
    subst ho
    cases hw
    exact Or.inl ⟨hx, rfl⟩
  | set =>
    cases ho
    exact Or.inr ⟨_, rfl⟩
  | _ => cases ho

/-- A note is added to the trail. -/
theorem Moves.note_trail (hm : Moves K c l (.note x s) l') : ∃ a, l'.trail x = l.trail x ++ [(s, a)] := by
  cases hm with
  | @note _ _ a => exact ⟨a, by simp⟩
  | missing ho => cases ho

/-- What a transaction publishes: its rows, and its entries. -/
theorem Moves.published (hm : Moves K c l .publish l') :
    l'.row = l.seen c ∧ ∀ x, l.trail x = [] → l'.trail x = l.entries c x := by
  cases hm with
  | publish _ he => exact ⟨rfl, he⟩
  | missing ho => cases ho

/-- Where the trail of an item grows: a note, or the entries of a transaction. -/
theorem Moves.trail_cases (hm : Moves K c l o l') (x : X) :
    l'.trail x = l.trail x ∨ (∃ s a, o = .note x s ∧ l'.trail x = l.trail x ++ [(s, a)]) ∨
      (o = .publish ∧ l.entries c x ≠ [] ∧ (l.trail x = [] → l'.trail x = l.entries c x)) := by
  cases hm with
  | @note y s a =>
    by_cases hy : x = y
    · subst hy
      exact Or.inr (Or.inl ⟨s, a, rfl, by simp⟩)
    · exact Or.inl (by simp [hy])
  | publish hn he =>
    by_cases hx : l.entries c x = []
    · exact Or.inl (hn x hx)
    · exact Or.inr (Or.inr ⟨rfl, hx, he x⟩)
  | _ => exact Or.inl rfl

/-- The transactions of the others keep what they have written. -/
theorem Moves.other (hm : Moves K c l o l') (hb : b ≠ c) :
    l'.draft b = l.draft b ∧ l'.entries b = l.entries b := by
  cases hm with
  | draft | edit => exact ⟨funext fun y => by simp [hb], rfl⟩
  | entry => exact ⟨rfl, funext fun y => by simp [hb]⟩
  | publish | discard =>
    exact ⟨funext fun y => by simp [Ledger.closed, hb], funext fun y => by simp [Ledger.closed, hb]⟩
  | _ => exact ⟨rfl, rfl⟩

/-- A new item that another client has inserted stays unseen. -/
theorem Moves.row_other (hm : Moves K c l o l') (h : Sound K l) (hb : b ≠ c) (hd : l.draft b x ≠ none)
    (hx : l.row x = none) : l'.row x = none := by
  by_contra hne
  obtain ⟨w, hw⟩ := Option.ne_none_iff_exists'.mp hne
  cases hm with
  | @add y v hy hd' =>
    rw [Ledger.withRow_row] at hw
    split at hw
    · rename_i he
      exact hd (he ▸ hd' b)
    · rw [hx] at hw
      cases hw
  | @touch y v v' hv | @set y stamped v v' hv =>
    rw [Ledger.withRow_row] at hw
    split at hw
    · rename_i he
      rw [← he, hx] at hv
      cases hv
    · rw [hx] at hw
      cases hw
  | publish =>
    have hw : l.seen c x = some w := hw
    rw [seen_of_row_none hx] at hw
    exact hb (h.alone b c x hd (by simp [hw]))
  | _ =>
    have hw : l.row x = some w := hw
    rw [hx] at hw
    cases hw

/-- An operation that sets another status of no item leaves the statuses that the other
clients see. -/
theorem Moves.seen_other (hm : Moves K c l o l') (h : Sound K l) (hb : b ≠ c) (hv : l.seen b x = some v)
    (ho : ∀ s stamped u, o = .set x s stamped → l.row x = some u → s = K.status u) :
    ∃ w, l'.seen b x = some w ∧ K.status w = K.status v := by
  have hrow : ∀ {y u} (l₁ : Ledger ι X V S A), (∀ b, l.draft b y = none) → l₁ = l.withRow y u →
      (y = x → K.status u = K.status v) → ∃ w, l₁.seen b x = some w ∧ K.status w = K.status v := by
    rintro y u _ hd rfl hs
    by_cases hy : y = x
    · subst hy
      exact ⟨u, by simp [Ledger.seen, hd], hs rfl⟩
    · exact ⟨v, by simpa [Ledger.seen, Ne.symm hy] using hv, rfl⟩
  cases hm with
  | read | check | fail | missing | note | entry => exact ⟨v, hv, rfl⟩
  | draft | edit => exact ⟨v, by simpa [Ledger.seen, hb] using hv, rfl⟩
  | @add y u hy hd hs ha =>
    refine hrow _ hd rfl fun he => ?_
    subst he
    simp [Ledger.seen, hd, hy] at hv
  | @touch y u u' hu hd hs ha =>
    refine hrow _ hd rfl fun he => ?_
    subst he
    obtain rfl : u = v := by simpa [Ledger.seen, hd, hu] using hv
    exact hs
  | @set y stamped u u' hu hd ha =>
    refine hrow _ hd rfl fun he => ?_
    subst he
    obtain rfl : u = v := by simpa [Ledger.seen, hd, hu] using hv
    exact ho _ stamped u rfl hu
  | publish =>
    rcases hdb : l.draft b x with _ | u
    · have hr : l.row x = some v := by simpa [Ledger.seen, hdb] using hv
      rcases hdc : l.draft c x with _ | u
      · exact ⟨v, by simp [Ledger.seen, hb, hdb, hdc, hr], rfl⟩
      · exact ⟨u, by simp [Ledger.seen, hb, hdb, hdc], (h.kept c x u v hdc hr).1⟩
    · obtain rfl : u = v := by simpa [Ledger.seen, hdb] using hv
      exact ⟨u, by simp [Ledger.seen, hb, hdb], rfl⟩
  | discard => exact ⟨v, by simpa [Ledger.seen, hb] using hv, rfl⟩

/-- What a silent operation leaves alone. -/
theorem Moves.silent (hm : Moves K c l o l') (ho : o.silent = true) :
    l'.row = l.row ∧ l'.trail = l.trail := by
  cases hm with
  | publish | add | touch | set | note => cases ho
  | _ => exact ⟨rfl, rfl⟩

/-- Exactly the cancelled items have a time of cancellation. -/
def Truthful (K : Scheme X V S) (l : Ledger ι X V S A) : Prop :=
  ∀ x v, l.row x = some v → (K.status v = K.cancelled x ↔ (K.cancelledAt v).isSome = true)

/-- The operation sets a status that goes with the time of cancellation that its item
will have. -/
def Honest (K : Scheme X V S) (o : Op X S) (l : Ledger ι X V S A) : Prop :=
  ∀ x s stamped v, o = .set x s stamped → l.row x = some v →
    (s = K.cancelled x ↔ (stamped || (K.cancelledAt v).isSome) = true)

/-- From a truthful ledger the honest operations, and only these, lead to a truthful one. -/
theorem Moves.truthful_iff (hm : Moves K c l o l') (h : Sound K l) (ht : Truthful K l) :
    Truthful K l' ↔ Honest K o l := by
  constructor
  · intro ht' x s stamped v ho hv
    subst ho
    cases hm with
    | missing ho hx =>
      cases ho
      rw [hx] at hv
      cases hv
    | @set _ _ u u' hu hd ha =>
      obtain rfl : u = v := Option.some.inj (hu.symm.trans hv)
      have hu' := ht' x u' (by simp)
      rwa [ha] at hu'
  · intro ho x w hw
    rcases hm.row_cases h hw with ⟨stamped, v, rfl, hv, ha⟩ | ⟨v, hv, hs, ha⟩ | ⟨hv, hs, ha, -⟩
    · rw [ha]
      exact ho x _ stamped v rfl hv
    · rw [hs, ha]
      exact ht x v hv
    · simp [hs, ha, K.initial_ne x]

end Bookkeeping
