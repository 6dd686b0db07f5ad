import Kayan.Lib.Confined
import Kayan.Lib.Sequential
import Mathlib.Data.Set.Defs

/-!
# Runs from two stores

A relation between stores that the statements of a program keep, and under which they reply alike, hides the
difference of the stores from the program: it comes to the same results from both. What a statement may do with
the difference may depend on the phase of a protocol.
-/
namespace Interleave

variable {σ D V X α : Type} {ρ : σ → Type} {act : Acts σ ρ D} {see : D → V} {P : Protocol σ ρ X} {Post : α → X → Prop}
  {R : X → D → D → Prop} {p : Prog σ ρ α} {x : X} {d d' e : D} {a : α}

/-- A statement of a client, resolved in some way. -/
def anyMove {ι M : Type} (act : M → ι → (q : σ) → D → Option (ρ q × D)) (c : ι) : Acts σ ρ D :=
  fun q d r d' => ∃ m, act m c q d = some (r, d')

/-- What a program can come to. -/
def Results (act : Acts σ ρ D) (p : Prog σ ρ α) (d : D) : Set α := fun a => ∃ d', Runs act p d a d'

/-- What a program can come to, with what is seen of the store that it leaves. -/
def Outcomes (act : Acts σ ρ D) (see : D → V) (p : Prog σ ρ α) (d : D) : Set (α × V) :=
  fun x => ∃ d', Runs act p d x.1 d' ∧ see d' = x.2

/-- In stores that are related in its phase a statement of the protocol replies alike, and it leaves stores
that are related in the next. -/
def Mirrored (act : Acts σ ρ D) (P : Protocol σ ρ X) (R : X → D → D → Prop) : Prop :=
  ∀ x q r y d d' e, P x q r y → R x d e → act q d r d' → ∃ e', act q e r e' ∧ R y d' e'

theorem Follows.mirrored (h : Follows P Post p x) (hP : Mirrored act P R) (hrun : Runs act p d a d') (hr : R x d e) :
    ∃ y e', Runs act p e a e' ∧ R y d' e' := by
  induction hrun generalizing x e with
  | ret => exact ⟨x, e, .ret, hr⟩
  | @call q k r a d d' d'' hq _ ih =>
    obtain ⟨y, hy, hk⟩ := h r
    obtain ⟨f, hf, hrf⟩ := hP x q r y d d' e hy hr hq
    obtain ⟨z, e', he, hre⟩ := ih hk hrf
    exact ⟨z, e', .call hf he, hre⟩

/-- A program comes to the same from both stores, where each is related to the other. -/
theorem Follows.outcomes_eq (h : Follows P Post p x) (hP : Mirrored act P R) (hP' : Mirrored act P fun x => flip (R x))
    (hsee : ∀ x d e, R x d e → see d = see e) (hr : R x d e) : Outcomes act see p d = Outcomes act see p e := by
  ext ⟨a, v⟩
  constructor
  · rintro ⟨d', hrun, rfl⟩
    obtain ⟨y, e', he, hre⟩ := h.mirrored hP hrun hr
    exact ⟨e', he, (hsee y d' e' hre).symm⟩
  · rintro ⟨e', hrun, rfl⟩
    obtain ⟨y, d', hd, hrd⟩ := h.mirrored hP' hrun (show flip (R x) e d from hr)
    exact ⟨d', hd, hsee y d' e' hrd⟩

/-- What the statements that a program issues keep, its runs keep. -/
theorem Issues.runs {H : σ → Prop} {I : D → Prop} (h : Issues H p)
    (hI : ∀ q d r d', H q → act q d r d' → I d → I d') (hrun : Runs act p d a d') (hd : I d) : I d' := by
  induction hrun with
  | ret => exact hd
  | call hq _ ih => exact ih (h.2 _) (hI _ _ _ _ h.1 hq hd)

/-- An embedded program comes to what the program comes to in the part of the store that its statements know. -/
theorem outcomes_embed {τ D' : Type} {ρ' : τ → Type} {g : σ → τ} {act' : Acts τ ρ' D'}
    {act : Acts σ (fun q => ρ' (g q)) D} {view : D' → D} {p : Prog σ (fun q => ρ' (g q)) α} {d : D'}
    (hview : ∀ q d r d', act' (g q) d r d' → act q (view d) r (view d'))
    (hlift : ∀ q d r d', act q (view d) r d' → ∃ e, act' (g q) d r e ∧ view e = d') :
    Outcomes act' (fun d => see (view d)) (p.embed g) d = Outcomes act see p (view d) := by
  have hruns : ∀ {d' : D} {a : α}, Runs act p (view d) a d' → ∃ e, Runs act' (p.embed g) d a e ∧ view e = d' := by
    intro d' a hrun
    induction p generalizing d with
    | ret b =>
      cases hrun
      exact ⟨d, .ret, rfl⟩
    | call q k ih =>
      cases hrun with
      | call hq hk =>
        obtain ⟨e, he, rfl⟩ := hlift q d _ _ hq
        obtain ⟨e', he', hview'⟩ := ih _ hk
        exact ⟨e', .call he he', hview'⟩
  ext ⟨a, v⟩
  constructor
  · rintro ⟨e, hrun, hsee⟩
    exact ⟨view e, hrun.of_embed hview, hsee⟩
  · rintro ⟨d', hrun, hsee⟩
    obtain ⟨e, he, rfl⟩ := hruns hrun
    exact ⟨e, he, hsee⟩

/-- What is made of the result of code. -/
theorem outcomes_map {ε φ β : Type} {ρ : σ → Type} {act : Acts σ (fun q => Except ε (ρ q)) D} {x : Code σ ρ ε φ α}
    {f : α → β} {r : Except φ β} {v : V} :
    (r, v) ∈ Outcomes act see (f <$> x).run d ↔ ∃ o, (o, v) ∈ Outcomes act see x.run d ∧ r = o.map f := by
  constructor
  · rintro ⟨d', hrun, hsee⟩
    obtain ⟨o, d₁, hx, hret⟩ := Runs.of_bind hrun
    cases o with
    | ok a =>
      cases hret
      exact ⟨.ok a, ⟨_, hx, hsee⟩, rfl⟩
    | error e =>
      cases hret
      exact ⟨.error e, ⟨_, hx, hsee⟩, rfl⟩
  · rintro ⟨o, ⟨d', hx, hsee⟩, rfl⟩
    refine ⟨d', Runs.bind hx ?_, hsee⟩
    cases o <;> exact .ret

end Interleave
