import Kayan.Lib.Trace
import Mathlib.Logic.Function.Basic

/-!
# Interleaved programs

A program issues one statement at a time and goes on with the reply. Clients run
their programs over one shared store; only single statements are atomic. `Safe` is
the proof rule for one client: what it keeps under the interference of the others.
-/
namespace Interleave

/-- A program: its result, or a statement whose reply selects the rest. -/
inductive Prog (σ : Type) (ρ : σ → Type) (α : Type) where
  | ret (a : α)
  | call (q : σ) (k : ρ q → Prog σ ρ α)

variable {σ : Type} {ρ : σ → Type} {α β : Type}

def Prog.bind : Prog σ ρ α → (α → Prog σ ρ β) → Prog σ ρ β
  | .ret a, f => f a
  | .call q k, f => .call q fun r => (k r).bind f

instance : Monad (Prog σ ρ) where
  pure := .ret
  bind := .bind

@[simp] theorem bind_ret (a : α) (f : α → Prog σ ρ β) : (Prog.ret a).bind f = f a := rfl

@[simp] theorem bind_call (q : σ) (k : ρ q → Prog σ ρ α) (f : α → Prog σ ρ β) :
    (Prog.call q k).bind f = .call q fun r => (k r).bind f := rfl

theorem bind_ret_right (p : Prog σ ρ α) : p.bind .ret = p := by
  induction p with
  | ret a => rfl
  | call q k ih => exact congrArg _ (funext ih)

theorem bind_bind {γ : Type} (p : Prog σ ρ α) (f : α → Prog σ ρ β) (g : β → Prog σ ρ γ) :
    (p.bind f).bind g = p.bind fun a => (f a).bind g := by
  induction p with
  | ret a => rfl
  | call q k ih => exact congrArg _ (funext ih)

instance : LawfulMonad (Prog σ ρ) := LawfulMonad.mk' _ bind_ret_right (fun _ _ => rfl) bind_bind

/-- The program has its result. -/
def Prog.ended : Prog σ ρ α → Bool
  | .ret _ => true
  | .call _ _ => false

theorem Prog.ended_ret {p : Prog σ ρ α} (h : p.ended = true) : ∃ a, p = .ret a := by
  cases p with
  | ret a => exact ⟨a, rfl⟩
  | call q k => cases h

/-- The result of a program whose statements are taken one after the other, with no others in
between, and the store it leaves. -/
def Prog.alone {D : Type} (act : (q : σ) → D → Option (ρ q × D)) : Prog σ ρ α → D → Option (α × D)
  | .ret a, d => some (a, d)
  | .call q k, d => (act q d).bind fun x => (k x.1).alone act x.2

theorem alone_bind {D : Type} {act : (q : σ) → D → Option (ρ q × D)} {f : α → Prog σ ρ β} (p : Prog σ ρ α) (d : D) :
    (p.bind f).alone act d = (p.alone act d).bind fun x => (f x.1).alone act x.2 := by
  induction p generalizing d with
  | ret a => rfl
  | call q k ih =>
    simp only [bind_call, Prog.alone, Option.bind_assoc]
    refine congrArg _ (funext fun x => ?_)
    exact ih x.1 x.2

/-- The shared store, and what each client still has to run. -/
structure Config (ι σ : Type) (ρ : σ → Type) (α D : Type) where
  db : D
  prog : ι → Prog σ ρ α

/-- One statement taken: by whom, how the store resolved it, and its reply. -/
structure Event (ι M σ : Type) (ρ : σ → Type) where
  client : ι
  move : M
  stmt : σ
  reply : ρ stmt

variable {ι M D : Type}

/-- One atomic statement of one client. `act m c q` is what the store does for `c` when
it resolves `q` by `m`; `none` means that the statement has to wait. -/
inductive Step [DecidableEq ι] (act : M → ι → (q : σ) → D → Option (ρ q × D)) :
    Config ι σ ρ α D → Event ι M σ ρ → Config ι σ ρ α D → Prop
  | call {s : Config ι σ ρ α D} {m : M} {c : ι} {q : σ} {k : ρ q → Prog σ ρ α} {r : ρ q}
      {d : D} (hp : s.prog c = .call q k) (ha : act m c q s.db = some (r, d)) :
      Step act s ⟨c, m, q, r⟩ ⟨d, Function.update s.prog c (k r)⟩

/-- Runs a schedule: at each entry that client takes its next statement, if `ok` lets it. -/
def play [DecidableEq ι] (act : M → ι → (q : σ) → D → Option (ρ q × D)) (ok : M → ι → σ → D → Bool) :
    List (ι × M) → Config ι σ ρ α D → Option (Config ι σ ρ α D)
  | [], s => some s
  | (c, m) :: ms, s =>
    match s.prog c with
    | .ret _ => none
    | .call q k =>
      match ok m c q s.db, act m c q s.db with
      | true, some (r, d) => play act ok ms ⟨d, Function.update s.prog c (k r)⟩
      | _, _ => none

/-- A schedule that can be played shows a run that follows it, of statements that are let
through. -/
theorem play_trace [DecidableEq ι] {act : M → ι → (q : σ) → D → Option (ρ q × D)}
    {ok : M → ι → σ → D → Bool} {β : Type} {ms : List (ι × M)} {s : Config ι σ ρ α D}
    {f : Config ι σ ρ α D → β} {b : β} (h : (play act ok ms s).map f = some b) :
    ∃ xs t, Trace.Run (fun s e t => Step act s e t ∧ ok e.move e.client e.stmt s.db) s xs t ∧
      xs.map (fun e => (e.client, e.move)) = ms ∧ f t = b := by
  induction ms generalizing s with
  | nil => exact ⟨[], s, .refl, rfl, Option.some.inj h⟩
  | cons x ms ih =>
    obtain ⟨c, m⟩ := x
    unfold play at h
    split at h
    · cases h
    · rename_i q k hp
      split at h
      · rename_i r d hok ha
        obtain ⟨xs, t, hx, hms, hb⟩ := ih h
        exact ⟨_, t, .step ⟨.call hp ha, hok⟩ hx, congrArg ((c, m) :: ·) hms, hb⟩
      · cases h

/-- Every client that has taken a step has its result. -/
def Rested (xs : List (Event ι M σ ρ)) (s : Config ι σ ρ α D) : Prop := ∀ e ∈ xs, (s.prog e.client).ended = true

theorem Rested.of_schedule {xs : List (Event ι M σ ρ)} {ms : List (ι × M)} {s : Config ι σ ρ α D}
    (h : xs.map (fun e => (e.client, e.move)) = ms) (ha : ms.all (fun x => (s.prog x.1).ended) = true) :
    Rested xs s := by
  subst h
  intro e he
  exact List.all_eq_true.mp ha _ (List.mem_map_of_mem he)

theorem play_run [DecidableEq ι] {act : M → ι → (q : σ) → D → Option (ρ q × D)}
    {ok : M → ι → σ → D → Bool} {β : Type} {ms : List (ι × M)} {s : Config ι σ ρ α D}
    {f : Config ι σ ρ α D → β} {b : β} (h : (play act ok ms s).map f = some b) :
    ∃ xs t, Trace.Run (fun s e t => Step act s e t ∧ ok e.move e.client e.stmt s.db) s xs t ∧ f t = b := by
  obtain ⟨xs, t, hr, -, hb⟩ := play_trace h
  exact ⟨xs, t, hr, hb⟩

/-- Runs a schedule: each of its steps has to satisfy `ok`. -/
def replay [DecidableEq ι] (act : M → ι → (q : σ) → D → Option (ρ q × D))
    (ok : Config ι σ ρ α D → Event ι M σ ρ → Bool) :
    List (ι × M) → Config ι σ ρ α D → Option (Config ι σ ρ α D)
  | [], s => some s
  | (c, m) :: ms, s =>
    match s.prog c with
    | .ret _ => none
    | .call q k =>
      match act m c q s.db with
      | some (r, d) =>
        if ok s ⟨c, m, q, r⟩ then replay act ok ms ⟨d, Function.update s.prog c (k r)⟩ else none
      | none => none

/-- One entry that can be replayed shows a step. -/
theorem replay_step [DecidableEq ι] {act : M → ι → (q : σ) → D → Option (ρ q × D)}
    {ok : Config ι σ ρ α D → Event ι M σ ρ → Bool} {c : ι} {m : M} {ms : List (ι × M)}
    {s t : Config ι σ ρ α D} (h : replay act ok ((c, m) :: ms) s = some t) :
    ∃ e u, e.client = c ∧ e.move = m ∧ Step act s e u ∧ ok s e = true ∧ replay act ok ms u = some t := by
  unfold replay at h
  split at h
  · cases h
  · rename_i q k hp
    split at h
    · rename_i r d ha
      split at h
      · rename_i hok
        exact ⟨_, _, rfl, rfl, .call hp ha, hok, h⟩
      · cases h
    · cases h

/-- A schedule that can be replayed shows a run that follows it, of steps that satisfy `ok`. -/
theorem replay_steps [DecidableEq ι] {act : M → ι → (q : σ) → D → Option (ρ q × D)}
    {ok : Config ι σ ρ α D → Event ι M σ ρ → Bool} {ms ns : List (ι × M)} {s t : Config ι σ ρ α D}
    (h : replay act ok (ms ++ ns) s = some t) :
    ∃ xs u, Trace.Run (fun s e t => Step act s e t ∧ ok s e = true) s xs u ∧
      xs.map (fun e => (e.client, e.move)) = ms ∧ replay act ok ns u = some t := by
  induction ms generalizing s with
  | nil => exact ⟨[], s, .refl, rfl, h⟩
  | cons x ms ih =>
    obtain ⟨e, u, hc, hm, hs, hok, hu⟩ := replay_step h
    obtain ⟨xs, v, hr, hms, hv⟩ := ih hu
    refine ⟨e :: xs, v, .step ⟨hs, hok⟩ hr, ?_, hv⟩
    rw [List.map_cons, hc, hm, hms]

theorem replay_trace [DecidableEq ι] {act : M → ι → (q : σ) → D → Option (ρ q × D)}
    {ok : Config ι σ ρ α D → Event ι M σ ρ → Bool} {β : Type} {ms : List (ι × M)}
    {s : Config ι σ ρ α D} {f : Config ι σ ρ α D → β} {b : β} (h : (replay act ok ms s).map f = some b) :
    ∃ xs t, Trace.Run (fun s e t => Step act s e t ∧ ok s e = true) s xs t ∧
      xs.map (fun e => (e.client, e.move)) = ms ∧ f t = b := by
  obtain ⟨t, ht, hb⟩ := Option.map_eq_some_iff.mp h
  rw [← List.append_nil ms] at ht
  obtain ⟨xs, u, hr, hms, hu⟩ := replay_steps ht
  cases hu
  exact ⟨xs, _, hr, hms, hb⟩

theorem replay_run [DecidableEq ι] {act : M → ι → (q : σ) → D → Option (ρ q × D)}
    {ok : Config ι σ ρ α D → Event ι M σ ρ → Bool} {β : Type} {ms : List (ι × M)}
    {s : Config ι σ ρ α D} {f : Config ι σ ρ α D → β} {b : β} (h : (replay act ok ms s).map f = some b) :
    ∃ xs t, Trace.Run (fun s e t => Step act s e t ∧ ok s e = true) s xs t ∧ f t = b := by
  obtain ⟨xs, t, hr, -, hb⟩ := replay_trace h
  exact ⟨xs, t, hr, hb⟩

/-- The same with the last step apart. -/
theorem replay_last [DecidableEq ι] {act : M → ι → (q : σ) → D → Option (ρ q × D)}
    {ok : Config ι σ ρ α D → Event ι M σ ρ → Bool} {β : Type} {ms : List (ι × M)} {c : ι} {m : M}
    {s : Config ι σ ρ α D} {f : Config ι σ ρ α D → β} {b : β}
    (h : (replay act ok (ms ++ [(c, m)]) s).map f = some b) :
    ∃ xs t e u, Trace.Run (fun s e t => Step act s e t ∧ ok s e = true) s xs t ∧ Step act t e u ∧
      ok t e = true ∧ e.client = c ∧ f u = b := by
  obtain ⟨v, hv, hb⟩ := Option.map_eq_some_iff.mp h
  obtain ⟨xs, t, hr, -, ht⟩ := replay_steps hv
  obtain ⟨e, u, hc, -, hs, hok, hu⟩ := replay_step ht
  cases hu
  exact ⟨xs, t, e, _, hr, hs, hok, hc, hb⟩

/-- The next statement of client `c` can be resolved by `m`, and it satisfies `p` with its
reply and the store after it. -/
def ready (act : M → ι → (q : σ) → D → Option (ρ q × D)) (m : M) (c : ι)
    (p : (q : σ) → ρ q → D → Bool) (s : Config ι σ ρ α D) : Bool :=
  match s.prog c with
  | .ret _ => false
  | .call q _ => (act m c q s.db).any fun x => p q x.1 x.2

theorem ready_step [DecidableEq ι] {act : M → ι → (q : σ) → D → Option (ρ q × D)} {m : M} {c : ι}
    {p : (q : σ) → ρ q → D → Bool} {s : Config ι σ ρ α D} (h : ready act m c p s = true) :
    ∃ e t, Step act s e t ∧ e.client = c ∧ e.move = m ∧ p e.stmt e.reply t.db = true := by
  unfold ready at h
  split at h
  · cases h
  · rename_i q k hp
    rcases ha : act m c q s.db with _ | ⟨r, d⟩
    · simp [ha] at h
    · exact ⟨_, _, .call hp ha, rfl, rfl, by simpa [ha] using h⟩

/-- What the proof of a client may use: the store's invariant, what the statements of
the others leave alone (`rely`), which statements may be taken (`allow`), and what every
statement taken satisfies (`guar`). -/
structure Rules (ι M σ : Type) (ρ : σ → Type) (D : Type) where
  act : M → ι → (q : σ) → D → Option (ρ q × D)
  inv : D → Prop
  rely : ι → D → D → Prop
  allow : M → ι → σ → D → Prop
  guar : ι → (q : σ) → D → ρ q → D → Prop
  rely_refl : ∀ c d, rely c d d
  rely_trans : ∀ c d₁ d₂ d₃, rely c d₁ d₂ → rely c d₂ d₃ → rely c d₁ d₃
  frame : ∀ m c q d r d', inv d → act m c q d = some (r, d') → ∀ b, b ≠ c → rely b d d'

variable (L : Rules ι M σ ρ D)

/-- From the store `d` client `c` can run the program: whatever the others do between
its statements, each one keeps the invariant and the guarantee, and a result satisfies
`Post`. -/
def Safe (c : ι) (Post : α → D → Prop) : Prog σ ρ α → D → Prop
  | .ret a, d => ∀ d', L.rely c d d' → L.inv d' → Post a d'
  | .call q k, d => ∀ d₁ m r d₂, L.rely c d d₁ → L.inv d₁ → L.allow m c q d₁ →
      L.act m c q d₁ = some (r, d₂) →
      L.inv d₂ ∧ L.guar c q d₁ r d₂ ∧ Safe c Post (k r) d₂

variable {L} {c : ι} {Post Post' : α → D → Prop} {p : Prog σ ρ α} {d d' : D}

theorem Safe.of_rely (h : Safe L c Post p d) (hr : L.rely c d d') : Safe L c Post p d' := by
  cases p with
  | ret a => exact fun e he => h e (L.rely_trans _ _ _ _ hr he)
  | call q k => exact fun d₁ m r d₂ h₁ => h d₁ m r d₂ (L.rely_trans _ _ _ _ hr h₁)

theorem Safe.mono (h : Safe L c Post p d) (hp : ∀ a e, Post a e → Post' a e) :
    Safe L c Post' p d := by
  induction p generalizing d with
  | ret a => exact fun e he hi => hp a e (h e he hi)
  | call q k ih =>
    intro d₁ m r d₂ h₁ hi ha hx
    obtain ⟨hi', hg, hs⟩ := h d₁ m r d₂ h₁ hi ha hx
    exact ⟨hi', hg, ih r hs⟩

/-- Sequencing: the rest has to be safe from every store the first part may end in. -/
theorem Safe.bind {f : α → Prog σ ρ β} {Mid : α → D → Prop} {Post : β → D → Prop}
    (h : Safe L c Mid p d) (hi : L.inv d)
    (hf : ∀ a e, L.inv e → Mid a e → Safe L c Post (f a) e) :
    Safe L c Post (p.bind f) d := by
  induction p generalizing d with
  | ret a => exact hf a d hi (h d (L.rely_refl c d) hi)
  | call q k ih =>
    intro d₁ m r d₂ h₁ hi₁ ha hx
    obtain ⟨hi₂, hg, hs⟩ := h d₁ m r d₂ h₁ hi₁ ha hx
    exact ⟨hi₂, hg, ih r hs hi₂⟩

/-- Every client is safe where it stands. -/
def AllSafe (L : Rules ι M σ ρ D) (Post : ι → α → D → Prop) (s : Config ι σ ρ α D) : Prop :=
  L.inv s.db ∧ ∀ c, Safe L c (Post c) (s.prog c) s.db

/-- The statements that the rules allow. -/
def Allowed [DecidableEq ι] (L : Rules ι M σ ρ D) (s : Config ι σ ρ α D) (e : Event ι M σ ρ)
    (t : Config ι σ ρ α D) : Prop :=
  Step L.act s e t ∧ L.allow e.move e.client e.stmt s.db

variable {Posts : ι → α → D → Prop} {s t : Config ι σ ρ α D} {e : Event ι M σ ρ}
  {xs : List (Event ι M σ ρ)}

theorem AllSafe.step [DecidableEq ι] (h : AllSafe L Posts s) (hs : Allowed L s e t) :
    AllSafe L Posts t ∧ L.guar e.client e.stmt s.db e.reply t.db := by
  obtain ⟨hs, hal⟩ := hs
  cases hs with
  | @call m c q k r d hp ha =>
    have hc := h.2 c
    rw [hp] at hc
    obtain ⟨hi, hg, hk⟩ := hc s.db m r d (L.rely_refl c s.db) h.1 hal ha
    refine ⟨⟨hi, fun b => ?_⟩, hg⟩
    by_cases hb : b = c
    · subst b
      simpa using hk
    · simpa [hb] using (h.2 b).of_rely (L.frame m c q s.db r d h.1 ha b hb)

theorem AllSafe.run [DecidableEq ι] (h : AllSafe L Posts s) (hr : Trace.Run (Allowed L) s xs t) :
    AllSafe L Posts t :=
  hr.preserves (fun _ _ _ hs hi => (AllSafe.step hi hs).1) h

/-- A client that has its result satisfies its postcondition in the current store. -/
theorem AllSafe.result (h : AllSafe L Posts s) {c : ι} {a : α} (hp : s.prog c = .ret a) :
    Posts c a s.db := by
  have hc := h.2 c
  rw [hp] at hc
  exact hc s.db (L.rely_refl c s.db) h.1

end Interleave
