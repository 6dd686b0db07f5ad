import Kayan.Lib.Triple

/-!
# Results of code

What a program can return, whatever its statements reply. The rules read the results off
the text of the code; a run can only end a program in one of them.
-/
namespace Interleave

variable {ι M σ D ε φ : Type} {ρ : σ → Type} {α β : Type}

/-- The program ends in `a` for some replies. -/
inductive Yields : Prog σ ρ α → α → Prop
  | ret {a : α} : Yields (.ret a) a
  | call {q : σ} {k : ρ q → Prog σ ρ α} {r : ρ q} {a : α} (h : Yields (k r) a) : Yields (.call q k) a

theorem yields_ret {a b : α} (h : Yields (.ret a : Prog σ ρ α) b) : a = b := by
  cases h
  rfl

theorem yields_bind {p : Prog σ ρ α} {f : α → Prog σ ρ β} {b : β} (h : Yields (p.bind f) b) :
    ∃ a, Yields p a ∧ Yields (f a) b := by
  induction p with
  | ret a => exact ⟨a, .ret, h⟩
  | call q k ih =>
    cases h with
    | call h =>
      obtain ⟨a, ha, hb⟩ := ih _ h
      exact ⟨a, .call ha, hb⟩

/-- One step of a client leaves it the results that it had, or fewer. -/
theorem Step.yields [DecidableEq ι] {act : M → ι → (q : σ) → D → Option (ρ q × D)}
    {s t : Config ι σ ρ α D} {e : Event ι M σ ρ} {c : ι} {a : α} (h : Step act s e t)
    (ha : Yields (t.prog c) a) : Yields (s.prog c) a := by
  cases h with
  | @call m c' q k r d hp hact =>
    by_cases hc : c = c'
    · subst c'
      rw [hp]
      exact .call (by simpa using ha)
    · simpa [hc] using ha

/-- What a client has returned at the end of a run is a result of its program. -/
theorem yields_of_run [DecidableEq ι] {act : M → ι → (q : σ) → D → Option (ρ q × D)}
    {s t : Config ι σ ρ α D} {xs : List (Event ι M σ ρ)} {c : ι} {a : α}
    (h : Trace.Run (Step act) s xs t) (hp : t.prog c = .ret a) : Yields (s.prog c) a := by
  induction h with
  | refl => rw [hp]; exact .ret
  | step h _ ih => exact h.yields (ih hp)

/-- The code returns `a` for some replies. -/
def Returns (x : Code σ ρ ε φ α) (a : α) : Prop := Yields x.run (.ok a)

variable {x : Code σ ρ ε φ α} {a : α} {b : β}

theorem Returns.pure {a' : α} (h : Returns (Pure.pure a' : Code σ ρ ε φ α) a) : a' = a :=
  Except.ok.inj (yields_ret h)

theorem Returns.throw {e : φ} (h : Returns (throw e : Code σ ρ ε φ α) a) : False := by
  have he := yields_ret h
  cases he

theorem Returns.bind {f : α → Code σ ρ ε φ β} (h : Returns (x >>= f) b) : ∃ a, Returns x a ∧ Returns (f a) b := by
  obtain ⟨r, hr, hb⟩ := yields_bind h
  cases r with
  | ok a => exact ⟨a, hr, hb⟩
  | error e => exact (Returns.throw hb).elim

/-- A transaction returns what its code returns. -/
theorem Returns.transaction {wrap : ε → φ} {start finish undo : σ}
    (h : Returns (transaction wrap start finish undo x) a) : Returns x a := by
  obtain ⟨r, hr, hb⟩ := yields_bind h
  cases r with
  | ok a' =>
    cases yields_ret hb
    obtain ⟨_, _, hr⟩ := Returns.bind hr
    obtain ⟨a'', hx, hr⟩ := Returns.bind hr
    obtain ⟨_, _, hr⟩ := Returns.bind hr
    rw [← Returns.pure hr]
    exact hx
  | error e =>
    obtain ⟨_, _, hb⟩ := Returns.bind hb
    exact (Returns.throw hb).elim

end Interleave
