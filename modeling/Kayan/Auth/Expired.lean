import Kayan.Auth.Frame
import Kayan.Lib.Shedding
import Kayan.Lib.TwoRuns

/-!
# Expired pending registrations

Two stores, the second of which lacks pending registrations that are expired. The statements that ask for live
ones reply alike in both. Two statements do not ask: the check for a conflict and the upsert behind it.
-/
namespace Kayan.Auth
open RowStore Interleave

variable {env : Env} {c : Client} {now draw : Nat} {m : Move} {x y : Bool} {d d' e : Db}
  {pending : Table Client PendingRegistration}

/-- The store with other pending registrations. -/
def Db.withPending (pending : Table Client PendingRegistration) (d : Db) : Db := { d with pending }

section Statements
variable {q : Stmt} {r : Answer q}

/-- The statement neither asks for pending registrations nor touches them. -/
def Stmt.aside : Stmt → Bool
  | .begin => false
  | .commit => false
  | .rollback => false
  | .selectPending _ _ => false
  | .upsertPending _ _ _ _ _ _ => false
  | .selectPendingLive _ => false
  | .selectPendingForUpdate _ => false
  | .deletePending _ => false
  | .snapshotExpiredPending => false
  | .deleteExpiredPending _ => false
  | _ => true

theorem insertUser_withPending (user : User) : insertUser env c user (d.withPending pending) =
    (insertUser env c user d).map fun z => (z.1, z.2.withPending pending) := by
  by_cases hclash : (committedKey (user.clashes env) d.users).isSome = true
  · simp [insertUser, Db.withPending, hclash]
  · by_cases hheld : (heldKey c (user.clashes env) d.users).isSome = true <;>
      simp [insertUser, Db.withPending, hclash, hheld]

theorem insertRefreshToken_withPending (token : RefreshToken) : insertRefreshToken c token (d.withPending pending) =
    (insertRefreshToken c token d).map fun z => (z.1, z.2.withPending pending) := by
  by_cases hheld : (heldKey c (fun r => r.jti = token.jti) d.tokens).isSome = true
  · simp [insertRefreshToken, Db.withPending, hheld]
  · cases hkey : findKey c (fun r => r.jti = token.jti) d.tokens <;>
      simp [insertRefreshToken, Db.withPending, hheld, hkey]

/-- Such a statement does the same whatever the pending registrations are. -/
theorem exec_withPending (hq : q.aside = true) : exec env draw c q (d.withPending pending) =
    (exec env draw c q d).map fun z => (z.1, z.2.withPending pending) := by
  cases q with
  | insertUser => exact insertUser_withPending _
  | insertRefreshToken => exact insertRefreshToken_withPending _
  | updatePassword passwordHash userId =>
    cases hview : d.users.view c userId with
    | none => simp [exec, Db.withPending, hview]
    | some row => by_cases hfree : d.users.free c userId = true <;> simp [exec, Db.withPending, hview, hfree]
  | begin => cases hq
  | commit => cases hq
  | rollback => cases hq
  | selectPending => cases hq
  | upsertPending => cases hq
  | selectPendingLive => cases hq
  | selectPendingForUpdate => cases hq
  | deletePending => cases hq
  | snapshotExpiredPending => cases hq
  | deleteExpiredPending => cases hq
  | _ => rfl

/-- And it leaves them, the clock and the times of transactions as they are. -/
theorem exec_aside (hq : q.aside = true) (h : exec env draw c q d = some (r, d')) :
    d'.pending = d.pending ∧ d'.clock = d.clock ∧ d'.began = d.began := by
  cases q with
  | insertUser =>
    simp only [exec, insertUser] at h
    split at h
    · cases h
      exact ⟨rfl, rfl, rfl⟩
    · split at h
      · cases h
      · cases h
        exact ⟨rfl, rfl, rfl⟩
  | insertRefreshToken =>
    obtain ⟨t, rfl⟩ := insertRefreshToken_change h
    exact ⟨rfl, rfl, rfl⟩
  | updatePassword passwordHash userId =>
    simp only [exec] at h
    split at h
    · cases h
      exact ⟨rfl, rfl, rfl⟩
    · split at h
      · cases h
        exact ⟨rfl, rfl, rfl⟩
      · cases h
  | begin => cases hq
  | commit => cases hq
  | rollback => cases hq
  | selectPending => cases hq
  | upsertPending => cases hq
  | selectPendingLive => cases hq
  | selectPendingForUpdate => cases hq
  | deletePending => cases hq
  | snapshotExpiredPending => cases hq
  | deleteExpiredPending => cases hq
  | _ =>
    cases h
    exact ⟨rfl, rfl, rfl⟩

end Statements

section Searches
variable {V : Type} {P : V → Prop} {p : V → Bool} {t t' : Table Client V} {i j : Nat} {row : V}

theorem findKey_eq (hnext : t'.next = t.next) (h : ∀ i, (t'.view c i).any p = (t.view c i).any p) :
    findKey c p t' = findKey c p t := by
  rw [findKey, findKey, hnext]
  exact congrArg (List.find? · (List.range t.next)) (funext h)

theorem findKey_none (h : findKey c p t = none) (hv : t.view c i = some row) : p row = false := by
  have hi := List.find?_eq_none.mp h i (List.mem_range.mpr (Table.lt_of_view hv))
  simpa [hv] using hi

/-- A search for a row that is unique finds it where it is. -/
theorem findKey_unique (hv : t.view c i = some row) (hp : p row = true)
    (h : ∀ j row', t.view c j = some row' → p row' = true → j = i) : findKey c p t = some i := by
  rcases hkey : findKey c p t with _ | j
  · rw [findKey_none hkey hv] at hp
    cases hp
  · obtain ⟨row', hj, hp'⟩ := findKey_some hkey
    rw [h j row' hj hp']

end Searches

/-- The second store has `pending` instead, and it lacks expired rows alone. In a transaction the time `now` of
their expiry has passed when it began. -/
structure Lacks (env : Env) (c : Client) (now : Nat) (x : Bool) (d : Db) (pending : Table Client PendingRegistration) :
    Prop where
  sheds : d.pending.Sheds (fun r => r.expiresAt ≤ now) c pending
  unique : ∀ i j r r', d.pending.Has i r → d.pending.Has j r' → env.lower r.email = env.lower r'.email → i = j
  past : now ≤ d.clock
  began : x = true → now ≤ d.began c

/-- Such stores side by side. -/
def Alike (env : Env) (c : Client) (now : Nat) (x : Bool) (d e : Db) : Prop :=
  ∃ pending, e = d.withPending pending ∧ Lacks env c now x d pending

/-- The statements that do not show what is lacking: a pending registration is selected in a transaction. -/
def shy : Protocol Stmt Answer Bool
  | x, .begin, r, y => y = (x || r.isOk)
  | _, .selectPending _ _, _, _ => False
  | _, .upsertPending _ _ _ _ _ _, _, _ => False
  | x, .selectPendingForUpdate _, _, y => x = true ∧ y = x
  | _, .snapshotExpiredPending, _, _ => False
  | _, .deleteExpiredPending _, _, _ => False
  | x, _, _, y => y = x

/-- The replies are the same, and the stores afterwards alike. -/
abbrev Agree (env : Env) (c : Client) (now : Nat) (y : Bool) {α : Type} (u v : α × Db) : Prop :=
  u.1 = v.1 ∧ Alike env c now y u.2 v.2

section Steps
variable {q : Stmt} {r : Answer q}

theorem Lacks.lock (h : Lacks env c now x d pending) {i : Nat} {row : PendingRegistration}
    (hv : d.pending.view c i = some row) (hi : pending.cell i = d.pending.cell i) :
    Lacks env c now x { d with pending := d.pending.lock c i } (pending.lock c i) := by
  have hhas : ∀ {j r}, (d.pending.lock c i).Has j r → d.pending.Has j r := by
    intro j r hr
    rcases Table.has_write hr with hr | ⟨rfl, hr⟩
    · exact hr
    · exact Table.has_of_view hr
  exact ⟨h.sheds.lock hi, fun i j r r' hr hr' => h.unique i j r r' (hhas hr) (hhas hr'), h.past, h.began⟩

theorem Lacks.written (h : Lacks env c now x d pending) {i : Nat} {pending' : Table Client PendingRegistration}
    (hs : (d.pending.write c i none).Sheds (fun r => r.expiresAt ≤ now) c pending') :
    Lacks env c now x { d with pending := d.pending.write c i none } pending' := by
  have hhas : ∀ {j r}, (d.pending.write c i none).Has j r → d.pending.Has j r := by
    intro j r hr
    rcases Table.has_write hr with hr | ⟨-, hnone⟩
    · exact hr
    · cases hnone
  exact ⟨hs, fun i j r r' hr hr' => h.unique i j r r' (hhas hr) (hhas hr'), h.past, h.began⟩

/-- A row that is seen in the second store is seen in the first. -/
theorem Lacks.view (h : Lacks env c now x d pending) {i : Nat} {row : PendingRegistration}
    (hv : pending.view c i = some row) : d.pending.view c i = some row := by
  rcases h.sheds.view i with hsame | ⟨hnone, -⟩
  · rw [← hsame, hv]
  · rw [hnone] at hv
    cases hv

/-- The row that is deleted is in both stores, or lacking. -/
theorem Lacks.deleteRow (h : Lacks env c now x d pending) {key key' : Option Nat}
    (hkeys : key' = key ∧ (∀ i, key = some i → pending.cell i = d.pending.cell i) ∨
      key' = none ∧ ∃ i, key = some i ∧ pending.cell i = {} ∧ d.pending.free c i = true) :
    Option.Rel (Agree env c now x) (deletePendingRow c key d) (deletePendingRow c key' (d.withPending pending)) := by
  rcases hkeys with ⟨rfl, hcell⟩ | ⟨rfl, i, rfl, hgone, hfree⟩
  · cases key' with
    | none => exact .some ⟨rfl, pending, rfl, h⟩
    | some i =>
      have hcell := hcell i rfl
      have hfree : (d.withPending pending).pending.free c i = d.pending.free c i := congrArg (Cell.free c) hcell
      unfold deletePendingRow
      by_cases hf : d.pending.free c i = true
      · simp only [hfree, if_pos hf]
        exact .some ⟨rfl, _, rfl, h.written (h.sheds.write hcell none)⟩
      · simp only [hfree, if_neg hf]
        exact .none
  · unfold deletePendingRow
    simp only [if_pos hfree]
    exact .some ⟨rfl, pending, rfl, h.written (h.sheds.delete hgone)⟩

/-- A search for the row to delete finds the one that is left, or the one that is lacking. -/
theorem Lacks.deleteFound (h : Lacks env c now x d pending) {p : PendingRegistration → Bool}
    (hsame : ∀ i j row row', d.pending.view c i = some row → d.pending.view c j = some row' →
      p row = true → p row' = true → j = i) :
    Option.Rel (Agree env c now x) (deletePendingRow c (findKey c p d.pending) d)
      (deletePendingRow c (findKey c p pending) (d.withPending pending)) := by
  refine h.deleteRow ?_
  rcases hkey : findKey c p d.pending with _ | i
  · refine .inl ⟨?_, nofun⟩
    rcases hk : findKey c p pending with _ | j
    · rfl
    · obtain ⟨row, hv, hp⟩ := findKey_some hk
      rw [findKey_none hkey (h.view hv)] at hp
      cases hp
  · obtain ⟨row, hv, hp⟩ := findKey_some hkey
    rcases h.sheds.cell i with hcell | ⟨hgone, hfree, -⟩
    · refine .inl ⟨?_, fun j hj => ?_⟩
      · refine findKey_unique ((congrArg (Cell.view c) hcell).trans hv) hp fun j row' hj hp' => ?_
        exact hsame i j row row' hv (h.view hj) hp hp'
      · rw [← Option.some.inj hj]
        exact hcell
    · refine .inr ⟨?_, i, rfl, hgone, hfree⟩
      rcases hk : findKey c p pending with _ | j
      · rfl
      · obtain ⟨row', hj, hp'⟩ := findKey_some hk
        rw [hsame i j row row' hv (h.view hj) hp hp'] at hj
        have hnone : pending.view c i = none := congrArg (Cell.view c) hgone
        rw [hnone] at hj
        cases hj

theorem Lacks.deletePending (h : Lacks env c now x d pending) (email : String) :
    Option.Rel (Agree env c now x) (exec env draw c (.deletePending email) d)
      (exec env draw c (.deletePending email) (d.withPending pending)) := by
  refine h.deleteFound fun i j row row' hv hv' hp hp' => ?_
  have he : env.lower row.email = env.lower email := of_decide_eq_true hp
  have he' : env.lower row'.email = env.lower email := of_decide_eq_true hp'
  exact h.unique j i row' row (Table.has_of_view hv') (Table.has_of_view hv) (he'.trans he.symm)

/-- Locks the row that was found, if any, once its lock is free. -/
def lockPendingRow (c : Client) (key : Option Nat) (d : Db) :
    Option (Except PgError (Option PendingRegistration) × Db) :=
  match key with
  | some i =>
    if d.pending.free c i then some (.ok (d.pending.view c i), { d with pending := d.pending.lock c i }) else none
  | none => some (.ok none, d)

/-- A registration that is still open is in both stores. -/
theorem Lacks.lockFound (h : Lacks env c now x d pending) {p : PendingRegistration → Bool}
    (hp : ∀ r : PendingRegistration, r.expiresAt ≤ now → p r = false) :
    Option.Rel (Agree env c now x) (lockPendingRow c (findKey c p d.pending) d)
      (lockPendingRow c (findKey c p pending) (d.withPending pending)) := by
  rw [findKey_eq h.sheds.next (h.sheds.any_view hp)]
  rcases hkey : findKey c p d.pending with _ | i
  · exact .some ⟨rfl, pending, rfl, h⟩
  · obtain ⟨row, hv, hrow⟩ := findKey_some hkey
    have hcell := h.sheds.kept hv fun hr => by
      rw [hp row hr] at hrow
      cases hrow
    have hfree : (d.withPending pending).pending.free c i = d.pending.free c i := congrArg (Cell.free c) hcell
    have hview : (d.withPending pending).pending.view c i = d.pending.view c i := congrArg (Cell.view c) hcell
    unfold lockPendingRow
    by_cases hf : d.pending.free c i = true
    · simp only [hfree, hview, if_pos hf]
      exact .some ⟨rfl, _, rfl, h.lock hv hcell⟩
    · simp only [hfree, if_neg hf]
      exact .none

theorem Lacks.selectForUpdate (h : Lacks env c now true d pending) (email : String) :
    Option.Rel (Agree env c now true) (exec env draw c (.selectPendingForUpdate email) d)
      (exec env draw c (.selectPendingForUpdate email) (d.withPending pending)) := by
  have hbegan := h.began rfl
  refine h.lockFound (p := fun r => env.lower r.email = env.lower email && d.began c < r.expiresAt) fun r hr => ?_
  have hpast : ¬ d.began c < r.expiresAt := by omega
  simp [hpast]

/-- Only the registrations, the clock and the times of transactions matter. -/
theorem Lacks.of_same {d' : Db} (h : Lacks env c now x d pending) (hpending : d'.pending = d.pending)
    (hclock : d'.clock = d.clock) (hbegan : d'.began = d.began) : Lacks env c now x d' pending := by
  constructor
  · rw [hpending]
    exact h.sheds
  · rw [hpending]
    exact h.unique
  · rw [hclock]
    exact h.past
  · rw [hbegan]
    exact h.began

theorem Lacks.aside (h : Lacks env c now x d pending) (hq : q.aside = true) :
    Option.Rel (Agree env c now x) (exec env draw c q d) (exec env draw c q (d.withPending pending)) := by
  rw [exec_withPending hq]
  rcases hexec : exec env draw c q d with _ | ⟨r, d'⟩
  · exact .none
  · obtain ⟨hpending, hclock, hbegan⟩ := exec_aside hq hexec
    exact .some ⟨rfl, pending, rfl, h.of_same hpending hclock hbegan⟩

theorem Lacks.selectLive (h : Lacks env c now x d pending) (email : String) :
    Option.Rel (Agree env c now x) (exec env draw c (.selectPendingLive email) d)
      (exec env draw c (.selectPendingLive email) (d.withPending pending)) := by
  have hpast := h.past
  have hreply := h.sheds.any_rows (p := fun r => env.lower r.email = env.lower email && d.clock < r.expiresAt) fun r hr => by
    have hexpired : ¬ d.clock < r.expiresAt := by omega
    simp [hexpired]
  exact .some ⟨congrArg Except.ok hreply.symm, pending, rfl, h⟩

theorem Lacks.ended (h : Lacks env c now x d pending) {f : Table Client PendingRegistration → Table Client PendingRegistration}
    (hhas : ∀ {t : Table Client PendingRegistration} {j r}, (f t).Has j r → t.Has j r)
    (hsheds : (f d.pending).Sheds (fun r => r.expiresAt ≤ now) c (f pending)) (hd' : d'.pending = f d.pending)
    (hclock : d'.clock = d.clock) (hbegan : d'.began = d.began) : Lacks env c now x d' (f pending) := by
  refine ⟨?_, fun i j r r' hr hr' => ?_, ?_, ?_⟩
  · rw [hd']
    exact hsheds
  · rw [hd'] at hr hr'
    exact h.unique i j r r' (hhas hr) (hhas hr')
  · rw [hclock]
    exact h.past
  · rw [hbegan]
    exact h.began

/-- The phase stays. -/
theorem rel_stays {u v : Option (Answer q × Db)} (hy : ∀ r y, shy x q r y → y = x)
    (hrel : Option.Rel (Agree env c now x) u v) :
    Option.Rel (fun u v => ∀ y, shy x q u.1 y → Agree env c now y u v) u v := by
  cases hrel with
  | none => exact .none
  | some hagree =>
    refine .some fun y hs => ?_
    rw [hy _ y hs]
    exact hagree

/-- A shy statement does the same to both stores. -/
theorem exec_alike (h : Alike env c now x d e) (hP : ∀ r, ∃ y, shy x q r y) :
    Option.Rel (fun u v => ∀ y, shy x q u.1 y → Agree env c now y u v) (exec env draw c q d) (exec env draw c q e) := by
  obtain ⟨pending, rfl, h⟩ := h
  obtain ⟨z, hz⟩ := hP (.error .uniqueViolation)
  cases q with
  | begin =>
    refine .some fun y hy => ⟨rfl, pending, rfl, h.sheds, h.unique, h.past, fun _ => ?_⟩
    have hnow : Function.update d.began c d.clock c = d.clock := Function.update_self c d.clock d.began
    exact h.past.trans (Nat.le_of_eq hnow.symm)
  | commit =>
    exact rel_stays (fun _ _ => id) (.some ⟨rfl, pending.commit c, rfl,
      h.ended (f := Table.commit c) Cell.has_commit h.sheds.commit rfl rfl rfl⟩)
  | rollback =>
    exact rel_stays (fun _ _ => id) (.some ⟨rfl, pending.rollback c, rfl,
      h.ended (f := Table.rollback c) Cell.has_rollback h.sheds.rollback rfl rfl rfl⟩)
  | selectPending => exact hz.elim
  | upsertPending => exact hz.elim
  | snapshotExpiredPending => exact hz.elim
  | deleteExpiredPending => exact hz.elim
  | selectPendingLive email => exact rel_stays (fun _ _ => id) (h.selectLive email)
  | selectPendingForUpdate email =>
    obtain ⟨rfl, -⟩ := hz
    exact rel_stays (fun _ _ hy => hy.2) (h.selectForUpdate email)
  | deletePending email => exact rel_stays (fun _ _ => id) (h.deletePending email)
  | _ => exact rel_stays (fun _ _ => id) (h.aside rfl)

theorem shy_error {err : PgError} (h : shy x q (.error err) y) : y = x := by
  cases q with
  | begin => exact h.trans (Bool.or_false x)
  | selectPendingForUpdate => exact h.2
  | selectPending => exact h.elim
  | upsertPending => exact h.elim
  | snapshotExpiredPending => exact h.elim
  | deleteExpiredPending => exact h.elim
  | _ => exact h

/-- Whether a statement is shy does not depend on its reply. -/
theorem shy_any (h : shy x q r y) (r' : Answer q) : ∃ z, shy x q r' z := by
  cases q with
  | begin => exact ⟨_, rfl⟩
  | selectPendingForUpdate => exact ⟨x, h.1, rfl⟩
  | selectPending => exact h.elim
  | upsertPending => exact h.elim
  | snapshotExpiredPending => exact h.elim
  | deleteExpiredPending => exact h.elim
  | _ => exact ⟨x, rfl⟩

theorem Alike.noted (h : Alike env c now x d e) (events : List OtpEvent) :
    Alike env c now x { d with history := events ++ d.history } { e with history := events ++ e.history } := by
  obtain ⟨pending, rfl, h⟩ := h
  exact ⟨pending, rfl, h.sheds, h.unique, h.past, h.began⟩

/-- Whatever becomes of a shy statement, the stores agree. -/
theorem act_alike (h : Alike env c now x d e) (hP : ∀ r, ∃ y, shy x q r y) :
    Option.Rel (fun u v => ∀ y, shy x q u.1 y → Agree env c now y u v) (act env m c q d) (act env m c q e) := by
  cases m with
  | fail err =>
    by_cases hq : q = .rollback
    · subst hq
      exact .none
    · have hact : ∀ d, act env (.fail err) c q d = some (.error err, d) := by
        intro d
        cases q <;> first | rfl | exact absurd rfl hq
      rw [hact, hact]
      refine .some fun y hy => ⟨rfl, ?_⟩
      rw [shy_error hy]
      exact h
  | run wait draw =>
    obtain ⟨pending, rfl, h⟩ := h
    have hticked : Alike env c now x (tick wait d) ((tick wait d).withPending pending) :=
      ⟨pending, rfl, h.sheds, h.unique, h.past.trans (Nat.le_add_right _ _), h.began⟩
    have hexec : Option.Rel (fun u v => ∀ y, shy x q u.1 y → Agree env c now y u v) (exec env draw c q (tick wait d))
        (exec env draw c q ((tick wait d).withPending pending)) := exec_alike hticked hP
    change Option.Rel _ ((exec env draw c q (tick wait d)).map _) ((exec env draw c q ((tick wait d).withPending pending)).map _)
    generalize exec env draw c q (tick wait d) = u at hexec
    generalize exec env draw c q ((tick wait d).withPending pending) = v at hexec
    cases hexec with
    | none => exact .none
    | @some u v hagree =>
      refine .some fun y hy => ?_
      obtain ⟨hreply, halike⟩ := hagree y hy
      obtain ⟨r, d'⟩ := u
      obtain ⟨r', e'⟩ := v
      cases hreply
      refine ⟨rfl, ?_⟩
      exact halike.noted _

end Steps

end Kayan.Auth
