import Kayan.Lib.Protocol

/-!
# Erasing auxiliary statements

A program with auxiliary statements, whose replies it does not follow, against the program without
them. Where the auxiliary statements do nothing that the others can tell, every run of the first
programs is a run of the second ones with the same other statements and the same replies.
-/
namespace Interleave

variable {ι M N σ τ D E ε φ ψ α α' β β' : Type} {ρ : τ → Type} {f : σ → τ} {aux : τ → Prop} {R : α → α' → Prop}
  {R' : β → β' → Prop}

/-- The second program is the first one without its auxiliary statements; the results are related by `R`. -/
inductive Erases (f : σ → τ) (aux : τ → Prop) (R : α → α' → Prop) :
    Prog τ ρ α → Prog σ (fun q => ρ (f q)) α' → Prop
  | ret {a : α} {b : α'} (h : R a b) : Erases f aux R (.ret a) (.ret b)
  | call {q : σ} {k : ρ (f q) → Prog τ ρ α} {k' : ρ (f q) → Prog σ (fun q => ρ (f q)) α'}
      (h : ∀ r, Erases f aux R (k r) (k' r)) : Erases f aux R (.call (f q) k) (.call q k')
  | skip {q : τ} {k : ρ q → Prog τ ρ α} {p : Prog σ (fun q => ρ (f q)) α'} (hq : aux q)
      (h : ∀ r, Erases f aux R (k r) p) : Erases f aux R (.call q k) p

section Programs
variable {p : Prog τ ρ α} {p' : Prog σ (fun q => ρ (f q)) α'}

theorem Erases.mono {S : α → α' → Prop} (h : Erases f aux R p p') (hR : ∀ a b, R a b → S a b) : Erases f aux S p p' := by
  induction h with
  | ret h => exact .ret (hR _ _ h)
  | call _ ih => exact .call ih
  | skip hq _ ih => exact .skip hq ih

theorem Erases.bind {g : α → Prog τ ρ β} {k : α' → Prog σ (fun q => ρ (f q)) β'} (h : Erases f aux R p p')
    (hg : ∀ a b, R a b → Erases f aux R' (g a) (k b)) : Erases f aux R' (p.bind g) (p'.bind k) := by
  induction h with
  | ret h => exact hg _ _ h
  | call _ ih => exact .call ih
  | skip hq _ ih => exact .skip hq ih

/-- What is left of auxiliary statements goes before the rest. -/
theorem Erases.flush {S : α → α' → Prop} {x : Prog τ ρ α} {b : α'} {g : α → Prog τ ρ β}
    {y : Prog σ (fun q => ρ (f q)) β'} (h : Erases f aux S x (.ret b)) (hg : ∀ a, S a b → Erases f aux R' (g a) y) :
    Erases f aux R' (x.bind g) y := by
  generalize hp : Prog.ret (ρ := fun q => ρ (f q)) b = p at h
  induction h with
  | ret h =>
    cases hp
    exact hg _ h
  | call _ _ => cases hp
  | skip hq _ ih => exact .skip hq fun r => ih r hp

/-- An auxiliary statement goes together with those that were put around it. -/
theorem Erases.drop {q : σ} {x : Prog τ ρ (ρ (f q))} {g : ρ (f q) → Prog τ ρ α} (h : Erases f aux Eq x (.call q .ret))
    (hq : aux (f q)) (hg : ∀ r, Erases f aux R (g r) p') : Erases f aux R (x.bind g) p' := by
  generalize hp : Prog.call (ρ := fun q => ρ (f q)) q Prog.ret = p at h
  induction h with
  | ret h => cases hp
  | call hk _ =>
    cases hp
    exact .skip hq fun r => Erases.flush (hk r) fun a _ => hg a
  | skip hx _ ih => exact .skip hx fun r => ih r hp

/-- Further auxiliary statements are put around the statements of a program. -/
theorem Erases.translate {aux' : σ → Prop} {h : (q : σ) → Prog τ ρ (ρ (f q))} {p : Prog σ (fun q => ρ (f q)) α}
    (hp : Erases id aux' R p p') (hh : ∀ q, Erases f aux Eq (h q) (.call q .ret)) (haux : ∀ q, aux' q → aux (f q)) :
    Erases f aux R (p.translate h) p' := by
  induction hp with
  | ret h => exact .ret h
  | @call q k k' _ ih =>
    refine Erases.bind (k := k') (hh q) fun r r' hr => ?_
    subst hr
    exact ih r
  | @skip q k p hq _ ih => exact Erases.drop (hh q) (haux q hq) ih

end Programs

theorem Erases.refl {ρ : σ → Type} {aux : σ → Prop} (p : Prog σ ρ α) : Erases id aux Eq p p := by
  induction p with
  | ret a => exact .ret rfl
  | call q k ih => exact .call (f := id) ih

/-- Programs for the statements, with and without auxiliary statements. -/
theorem Erases.translate_both {ρ' : σ → Type} {ρ : τ → Type} {h h' : (q : σ) → Prog τ ρ (ρ' q)}
    (hh : ∀ q, Erases id aux Eq (h q) (h' q)) (p : Prog σ ρ' α) : Erases id aux Eq (p.translate h) (p.translate h') := by
  induction p with
  | ret a => exact .ret rfl
  | call q k ih =>
    refine Erases.bind (hh q) fun r r' hr => ?_
    subst hr
    exact ih r

section Codes
variable {ρ : σ → Type} {aux : σ → Prop}

/-- Code and the same code without its auxiliary statements: they have the same result or exception. -/
def Sheds (aux : σ → Prop) (x y : Code σ ρ ε φ α) : Prop := Erases id aux Eq x.run y.run

theorem Sheds.refl (x : Code σ ρ ε φ α) : Sheds aux x x := Erases.refl _

theorem Sheds.lift {p p' : Prog σ (fun q => Except ε (ρ q)) α} (h : Erases id aux Eq p p') :
    Sheds aux (ExceptT.lift p : Code σ ρ ε φ α) (ExceptT.lift p') := by
  refine Erases.bind h fun a b hab => ?_
  subst hab
  exact .ret rfl

/-- The rest may end differently, as far as `S` allows. -/
theorem Sheds.before {S : Except φ β → Except φ β → Prop} {x y : Code σ ρ ε φ α} {g g' : α → Code σ ρ ε φ β}
    (h : Sheds aux x y) (hg : ∀ a, Erases id aux S (g a).run (g' a).run) (he : ∀ e, S (.error e) (.error e)) :
    Erases id aux S (x >>= g).run (y >>= g').run := by
  refine Erases.bind h fun r r' hr => ?_
  subst hr
  cases r with
  | ok a => exact hg a
  | error e => exact .ret (he e)

theorem Sheds.bind {x y : Code σ ρ ε φ α} {g g' : α → Code σ ρ ε φ β} (h : Sheds aux x y)
    (hg : ∀ a, Sheds aux (g a) (g' a)) : Sheds aux (x >>= g) (y >>= g') :=
  Sheds.before h hg fun _ => rfl

theorem Sheds.catch {x y : Code σ ρ ε φ α} {g g' : φ → Code σ ρ ε φ α} (h : Sheds aux x y)
    (hg : ∀ e, Sheds aux (g e) (g' e)) : Sheds aux (tryCatch x g) (tryCatch y g') := by
  refine Erases.bind h fun r r' hr => ?_
  subst hr
  cases r with
  | ok a => exact .ret rfl
  | error e => exact hg e

theorem Sheds.map {x y : Code σ ρ ε φ α} (g : α → β) (h : Sheds aux x y) : Sheds aux (g <$> x) (g <$> y) := by
  refine Erases.bind h fun r r' hr => ?_
  subst hr
  cases r <;> exact .ret rfl

end Codes

section Runs
variable [DecidableEq ι] {actA : M → ι → (q : τ) → D → Option (ρ q × D)} {S : D → E → Prop}
  {actB : N → ι → (q : σ) → E → Option (ρ (f q) × E)} {a a' : Config ι τ ρ α D}
  {b b' : Config ι σ (fun q => ρ (f q)) α' E} {RR : ι → α → α' → Prop} {xs : List (Event ι M τ ρ)}

/-- The auxiliary statements leave related stores related, and so do the others, with the same replies. -/
structure Hides (f : σ → τ) (aux : τ → Prop) (actA : M → ι → (q : τ) → D → Option (ρ q × D))
    (actB : N → ι → (q : σ) → E → Option (ρ (f q) × E)) (S : D → E → Prop) : Prop where
  aux : ∀ {m c q d r d' e}, aux q → S d e → actA m c q d = some (r, d') → S d' e
  step : ∀ {m c q d r d' e}, S d e → actA m c (f q) d = some (r, d') → ∃ n e', actB n c q e = some (r, e') ∧ S d' e'

/-- The programs of both sides and their stores. -/
structure Erased (f : σ → τ) (aux : τ → Prop) (RR : ι → α → α' → Prop) (S : D → E → Prop) (a : Config ι τ ρ α D)
    (b : Config ι σ (fun q => ρ (f q)) α' E) : Prop where
  prog : ∀ c, Erases f aux (RR c) (a.prog c) (b.prog c)
  db : S a.db b.db

/-- The events of the first run match those of the second where they are not auxiliary. -/
inductive Matches (f : σ → τ) (aux : τ → Prop) : List (Event ι M τ ρ) → List (Event ι N σ fun q => ρ (f q)) → Prop
  | nil : Matches f aux [] []
  | skip {x : Event ι M τ ρ} {xs ys} (hx : aux x.stmt) (h : Matches f aux xs ys) : Matches f aux (x :: xs) ys
  | step {c : ι} {m : M} {n : N} {q : σ} {r : ρ (f q)} {xs ys} (h : Matches f aux xs ys) :
      Matches f aux (⟨c, m, f q, r⟩ :: xs) (⟨c, n, q, r⟩ :: ys)

theorem Erased.step {x : Event ι M τ ρ} (hH : Hides f aux actA actB S) (h : Erased f aux RR S a b)
    (hs : Step actA a x a') : (aux x.stmt ∧ Erased f aux RR S a' b) ∨ ∃ n q r b', x = ⟨x.client, x.move, f q, r⟩ ∧
      Step actB b ⟨x.client, n, q, r⟩ b' ∧ Erased f aux RR S a' b' := by
  cases hs with
  | @call m c q k r d hp ha =>
    have hc := h.prog c
    rw [hp] at hc
    generalize hb : b.prog c = p' at hc
    cases hc with
    | skip hq hk =>
      refine Or.inl ⟨hq, fun i => ?_, hH.aux hq h.db ha⟩
      by_cases hi : i = c
      · subst hi
        rw [hb]
        simpa using hk r
      · simpa [hi] using h.prog i
    | @call q k k' hk =>
      obtain ⟨n, e, he, hS⟩ := hH.step h.db ha
      refine Or.inr ⟨n, q, r, _, rfl, .call hb he, fun i => ?_, hS⟩
      by_cases hi : i = c
      · subst hi
        simpa using hk r
      · simpa [hi] using h.prog i

/-- Every run is a run without the auxiliary statements. -/
theorem Erased.run (hH : Hides f aux actA actB S) (h : Erased f aux RR S a b) (hr : Trace.Run (Step actA) a xs a') :
    ∃ ys b', Trace.Run (Step actB) b ys b' ∧ Matches f aux xs ys ∧ Erased f aux RR S a' b' := by
  induction hr generalizing b with
  | refl => exact ⟨[], b, .refl, .nil, h⟩
  | @step s t u x xs hs _ ih =>
    rcases h.step hH hs with ⟨hx, h⟩ | ⟨n, q, r, b', hx, hb, h⟩
    · obtain ⟨ys, b', hr, hm, h⟩ := ih h
      exact ⟨ys, b', hr, .skip hx hm, h⟩
    · obtain ⟨ys, b'', hr, hm, h⟩ := ih h
      refine ⟨_ :: ys, b'', .step hb hr, ?_, h⟩
      rw [hx]
      exact .step hm

end Runs

end Interleave
