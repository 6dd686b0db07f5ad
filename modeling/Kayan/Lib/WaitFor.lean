import Mathlib.Data.Finset.Filter
import Mathlib.Data.Finset.Insert
import Mathlib.Logic.Relation

/-!
# Wait-for relations

A cycle of waiting clients is a knot: finitely many clients, each of which waits for one of
them.
-/
namespace WaitFor

variable {ι : Type} {r : ι → ι → Prop} {a b : ι} {S : Finset ι}

/-- Somebody is waiting in `S`, and everybody in it waits for somebody in it. -/
structure Knot (r : ι → ι → Prop) (S : Finset ι) : Prop where
  nonempty : S.Nonempty
  waits : ∀ a ∈ S, ∃ b ∈ S, r a b

/-- The clients on a path of waits, each of which waits for another one or for its end. -/
private theorem path_members [DecidableEq ι] (h : Relation.TransGen r a b) :
    ∃ S : Finset ι, a ∈ S ∧ ∀ x ∈ S, r x b ∨ ∃ y ∈ S, r x y := by
  induction h using Relation.TransGen.head_induction_on with
  | @single a h =>
    refine ⟨{a}, Finset.mem_singleton_self a, fun x hx => ?_⟩
    rw [Finset.mem_singleton.mp hx]
    exact Or.inl h
  | @head a c h _ ih =>
    obtain ⟨S, hc, hS⟩ := ih
    refine ⟨insert a S, Finset.mem_insert_self a S, fun x hx => ?_⟩
    rcases Finset.mem_insert.mp hx with rfl | hx
    · exact Or.inr ⟨c, Finset.mem_insert_of_mem hc, h⟩
    · rcases hS x hx with hb | ⟨y, hy, hr⟩
      · exact Or.inl hb
      · exact Or.inr ⟨y, Finset.mem_insert_of_mem hy, hr⟩

theorem knot_of_cycle (h : Relation.TransGen r a a) : ∃ S, Knot r S := by
  classical
  obtain ⟨S, ha, hS⟩ := path_members h
  refine ⟨S, ⟨a, ha⟩, fun x hx => ?_⟩
  rcases hS x hx with hr | hy
  · exact ⟨a, ha, hr⟩
  · exact hy

/-- Where only members with `p` are waited for, those make a knot of their own. -/
theorem Knot.restrict {p : ι → Prop} (h : Knot r S) (hp : ∀ a ∈ S, ∀ b ∈ S, r a b → p b) :
    ∃ T, Knot r T ∧ ∀ a ∈ T, p a := by
  classical
  obtain ⟨a, ha⟩ := h.nonempty
  obtain ⟨b, hb, hab⟩ := h.waits a ha
  refine ⟨S.filter p, ⟨⟨b, Finset.mem_filter.mpr ⟨hb, hp a ha b hb hab⟩⟩, fun x hx => ?_⟩, fun x hx =>
    (Finset.mem_filter.mp hx).2⟩
  obtain ⟨y, hy, hr⟩ := h.waits x (Finset.mem_filter.mp hx).1
  exact ⟨y, Finset.mem_filter.mpr ⟨hy, hp x (Finset.mem_filter.mp hx).1 y hy hr⟩, hr⟩

end WaitFor
