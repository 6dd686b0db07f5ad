import Kayan.Auth.Frame
import Kayan.Lib.Versions
import Kayan.Sessions.Seen

/-!
# What a statement does to the users

The standing of a user decides on its sessions. Open transactions write users, but none
changes a standing: only the statements of account administration do, each for one user.
-/
namespace Kayan.Sessions
open RowStore Interleave Auth Versions

/-- The admin flag with its version, the status, and whether the user is deleted. -/
structure Standing where
  creds : Versioned Bool
  status : UserStatus
  deleted : Bool

/-- A user who is not there yet stands as a new one will. -/
def standing : Option User → Standing
  | some r => ⟨⟨r.isAdmin, r.tokenVersion⟩, r.status, r.deleted⟩
  | none => ⟨⟨false, 0⟩, .active, false⟩

/-- The standing of a user by its committed row. -/
def Db.standing (d : Db) (userId : Nat) : Standing := Sessions.standing (d.auth.users.committed userId)

/-- How a statement changes the standing of a user. -/
def Stmt.restands : (q : Stmt) → Answer q → Option (Nat × (Standing → Standing))
  | .updateIsAdmin isAdmin userId, .ok (some _) =>
    some (userId, fun s => { s with creds := ⟨isAdmin, s.creds.version + 1⟩ })
  | .updateStatus status userId, .ok (some _) => some (userId, fun s => { s with status })
  | .deleteUser userId, .ok true =>
    some (userId, fun s => { s with deleted := true, creds := ⟨s.creds.value, s.creds.version + 1⟩ })
  | _, _ => none

/-- The standing of user `i` after a change. -/
def restand (change : Option (Nat × (Standing → Standing))) (i : Nat) (s : Standing) : Standing :=
  match change with
  | some (userId, f) => if i = userId then f s else s
  | none => s

/-- The rows are keyed by id, and what open transactions have written keeps the standings. -/
structure Users (t : Table Client User) : Prop where
  keyed : ∀ i r, t.committed i = some r → r.id = i
  drafts : ∀ c i v w, t.own c i = some (v, w) → ∃ r, w = some r ∧ r.id = i ∧ standing (some r) = standing v

/-- What a statement of client `c` can do to the users. -/
inductive UserWrite (c : Client) (t : Table Client User) : Table Client User → Prop
  | same : UserWrite c t t
  | insert {user : User} (hi : user.id = t.next) (hs : standing (some user) = standing none) :
      UserWrite c t (t.insert c user)
  | write {i : Nat} {r r' : User} (hv : t.view c i = some r) (hf : t.free c i = true) (hi : r'.id = r.id)
      (hs : standing (some r') = standing (some r)) : UserWrite c t (t.write c i (some r'))
  | commit : UserWrite c t (t.commit c)
  | rollback : UserWrite c t (t.rollback c)

variable {env : Env} {m : Move} {draw : Nat} {c : Client} {d d' : Db} {t t' : Table Client User} {i userId : Nat}

section Transactions
variable {ad ad' : Auth.Db}

/-- The statements of the OTP flows that write nothing but pending registrations. -/
def pendingOnly : Auth.Stmt → Bool
  | .upsertPending _ _ _ _ _ _ => true
  | .selectPendingForUpdate _ => true
  | .deletePending _ => true
  | .deleteExpiredPending _ => true
  | _ => false

theorem deletePendingRow_only {key : Option Nat} {r : Except PgError Unit}
    (h : deletePendingRow c key ad = some (r, ad')) : ∃ p, ad' = { ad with pending := p } := by
  unfold deletePendingRow at h
  split at h
  · split at h
    · cases h
      exact ⟨_, rfl⟩
    · cases h
  · cases h
    exact ⟨_, rfl⟩

theorem exec_pendingOnly {env : Auth.Env} {q : Auth.Stmt} {r : Auth.Answer q} (hq : pendingOnly q = true)
    (h : Auth.exec env draw c q ad = some (r, ad')) : ∃ p w, ad' = { ad with pending := p, writes := w } := by
  cases q with
  | upsertPending =>
    rcases upsertPending_cases h with rfl | ⟨-, rfl⟩ | ⟨i, r, -, -, -, rfl⟩ <;> exact ⟨_, _, rfl⟩
  | selectPendingForUpdate email =>
    simp only [Auth.exec] at h
    split at h
    · split at h
      · cases h
        exact ⟨_, _, rfl⟩
      · cases h
    · cases h
      exact ⟨_, _, rfl⟩
  | deletePending | deleteExpiredPending =>
    obtain ⟨p, rfl⟩ := deletePendingRow_only h
    exact ⟨p, _, rfl⟩
  | _ => cases hq

theorem exec_users {env : Auth.Env} {q : Auth.Stmt} {r : Auth.Answer q}
    (h : Auth.exec env draw c q ad = some (r, ad')) : UserWrite c ad.users ad'.users := by
  cases q with
  | commit =>
    cases h
    exact .commit
  | rollback =>
    cases h
    exact .rollback
  | dateNow | randomInt | randomBytes | hash | selectOtp | selectUser | selectPending | selectPendingLive
  | selectUserId | selectAccount | snapshotExpiredPending | begin | insertOtp | purgeOtps
  | upsertOtpAttempts | deleteOtpAttempts =>
    cases h
    exact .same
  | upsertPending | selectPendingForUpdate | deletePending | deleteExpiredPending =>
    obtain ⟨p, w, rfl⟩ := exec_pendingOnly rfl h
    exact .same
  | insertUser name phone email address passwordHash =>
    simp only [Auth.exec, insertUser] at h
    split at h
    · cases h
      exact .same
    split at h
    · cases h
    · cases h
      exact .insert rfl rfl
  | insertRefreshToken =>
    obtain ⟨t, rfl⟩ := insertRefreshToken_change h
    exact .same
  | updatePassword hash i =>
    simp only [Auth.exec] at h
    split at h
    · cases h
      exact .same
    · rename_i row hv
      split at h
      · rename_i hf
        cases h
        exact .write hv hf rfl rfl
      · cases h

theorem act_users {env : Auth.Env} {q : Auth.Stmt} {r : Auth.Answer q}
    (h : Auth.act env m c q ad = some (r, ad')) : UserWrite c ad.users ad'.users := by
  cases m with
  | run wait draw =>
    obtain ⟨ad₁, hx, rfl⟩ := act_run h
    have hs := exec_users hx
    exact hs
  | fail e =>
    rw [(act_fail h).2]
    exact .same

end Transactions

namespace Users

theorem view (h : Users t) {r : User} (hv : t.view c i = some r) :
    r.id = i ∧ standing (some r) = standing (t.committed i) := by
  rcases ho : t.own c i with _ | ⟨v, w⟩
  · rw [Table.view_of_not_own ho] at hv
    exact ⟨h.keyed i r hv, by rw [hv]⟩
  · obtain ⟨r', rfl, hi, hs⟩ := h.drafts c i v w ho
    cases (Table.view_of_own ho).symm.trans hv
    exact ⟨hi, by rw [hs, Table.own_committed ho]⟩

/-- A write to the versions of one client. -/
theorem of_own (h : Users t) (hc : ∀ i, t'.committed i = t.committed i)
    (ho : ∀ b i v w, t'.own b i = some (v, w) →
      t.own b i = some (v, w) ∨ ∃ r, w = some r ∧ r.id = i ∧ standing (some r) = standing v) : Users t' where
  keyed i r hr := h.keyed i r ((hc i).symm.trans hr)
  drafts b i v w hb := by
    rcases ho b i v w hb with hb | hb
    · exact h.drafts b i v w hb
    · exact hb

/-- Open transactions keep the users, and the standing of each. -/
theorem write (h : Users t) (hw : UserWrite c t t') :
    Users t' ∧ ∀ i, standing (t'.committed i) = standing (t.committed i) := by
  cases hw with
  | same => exact ⟨h, fun _ => rfl⟩
  | @insert user hi hs =>
    refine ⟨h.of_own (fun _ => Table.committed_insert) fun b i v w hb => ?_, fun i => by rw [Table.committed_insert]⟩
    by_cases hbc : b = c
    · subst hbc
      rw [Table.own_insert] at hb
      split at hb
      · rename_i hn
        cases hb
        exact Or.inr ⟨user, rfl, hi.trans hn.symm, hs⟩
      · exact Or.inl hb
    · rw [Table.own_insert_ne hbc] at hb
      exact Or.inl hb
  | @write i r r' hv hf hi hs =>
    obtain ⟨hid, hst⟩ := h.view hv
    refine ⟨h.of_own (fun _ => Table.committed_write) fun b j v w hb => ?_, fun i => by rw [Table.committed_write]⟩
    by_cases hbc : b = c
    · subst hbc
      rw [Table.own_write (Table.lt_of_view hv)] at hb
      split at hb
      · rename_i hj
        subst hj
        cases hb
        exact Or.inr ⟨r', rfl, hi.trans hid, hs.trans hst⟩
      · exact Or.inl hb
    · rw [Table.own_write_ne hbc hf] at hb
      exact Or.inl hb
  | rollback =>
    refine ⟨h.of_own (fun _ => Table.committed_rollback) fun b i v w hb => ?_,
      fun i => by rw [Table.committed_rollback]⟩
    by_cases hbc : b = c
    · subst hbc
      rw [Table.own_rollback_self] at hb
      cases hb
    · rw [Table.own_rollback_ne hbc] at hb
      exact Or.inl hb
  | commit =>
    refine ⟨⟨fun i r hr => ?_, fun b i v w hb => ?_⟩, fun i => ?_⟩
    · rw [Table.committed_commit, ← Table.view_eq_own] at hr
      exact (h.view hr).1
    · by_cases hbc : b = c
      · subst hbc
        rw [Table.own_commit_self] at hb
        cases hb
      · rw [Table.own_commit_ne hbc] at hb
        exact h.drafts b i v w hb
    · rw [Table.committed_commit]
      rcases ho : t.own c i with _ | ⟨v, w⟩
      · rfl
      · obtain ⟨r, rfl, -, hs⟩ := h.drafts c i v w ho
        exact hs.trans (by rw [Table.own_committed ho])

/-- What an `UPDATE` of account administration does: nothing where the user is missing or
deleted, and else what it says, to the committed row. -/
theorem updateUser_cases {f : User → User} {r : Option User} (h : updateUser userId f t = some (r, t')) :
    (r = none ∧ t' = t) ∨ ∃ row, t.committed userId = some row ∧ row.deleted = false ∧
      (t.cell userId).held = none ∧ r = some (f row) ∧ t' = t.store userId (some (f row)) := by
  unfold updateUser at h
  split at h
  · cases h
    exact Or.inl ⟨rfl, rfl⟩
  · rename_i row hc
    split at h
    · cases h
      exact Or.inl ⟨rfl, rfl⟩
    · rename_i hd
      split at h
      · rename_i hh
        cases h
        exact Or.inr ⟨row, hc, by simpa using hd, hh, rfl, rfl⟩
      · cases h

/-- A row stored on its own. -/
theorem store {row row' : User} (h : Users t) (hc : t.committed i = some row) (hi : row'.id = row.id)
    (hh : (t.cell i).held = none) : Users (t.store i (some row')) where
  keyed j r hr := by
    rw [Table.committed_store (Table.lt_of_committed hc)] at hr
    split at hr
    · rename_i hj
      cases hr
      rw [hi, h.keyed i row hc, hj]
    · exact h.keyed j r hr
  drafts b j v w hb := by
    rw [Table.own_store hh] at hb
    exact h.drafts b j v w hb

/-- An `UPDATE` of account administration changes the standing of its user, where it finds one. -/
theorem updateUser {f : User → User} {g : Standing → Standing} {r : Option User} (h : Users t)
    (hx : Sessions.updateUser userId f t = some (r, t')) (hid : ∀ row, (f row).id = row.id)
    (hg : ∀ row, standing (some (f row)) = g (standing (some row))) :
    Users t' ∧ ∀ i, standing (t'.committed i) = restand (r.map fun _ => (userId, g)) i (standing (t.committed i)) := by
  rcases updateUser_cases hx with ⟨rfl, rfl⟩ | ⟨row, hc, -, hh, rfl, rfl⟩
  · exact ⟨h, fun _ => rfl⟩
  · refine ⟨h.store hc (hid row) hh, fun i => ?_⟩
    rw [Table.committed_store (Table.lt_of_committed hc)]
    simp only [Option.map, restand]
    split
    · rename_i hi
      rw [hi, hc, hg]
    · rfl

end Users

section Steps
variable {q : Stmt} {r : Answer q}

/-- One step: the users stay keyed, and each stands as the statement has decided. -/
theorem exec_standing (h : exec env draw c q d = some (r, d')) (hu : Users d.auth.users) :
    Users d'.auth.users ∧ ∀ i, d'.standing i = restand (q.restands r) i (d.standing i) := by
  cases q with
  | auth q => cases h
  | verifyAsync | redisSet | redisDel | selectLogin | selectAccount | selectTokenVersion | selectIsAdmin
  | selectAdminCheck | logAdminAction =>
    cases h
    exact ⟨hu, fun _ => rfl⟩
  | insertRefreshToken | consumeRefreshToken | revokeRefreshToken =>
    obtain ⟨x, -, hx⟩ := Option.map_eq_some_iff.mp h
    cases hx
    exact ⟨hu, fun _ => rfl⟩
  | updateIsAdmin isAdmin userId =>
    obtain ⟨⟨row, t⟩, hx, he⟩ := Option.map_eq_some_iff.mp h
    cases he
    have hs := hu.updateUser hx (fun _ => rfl)
      (g := fun s => { s with creds := ⟨isAdmin, s.creds.version + 1⟩ }) fun _ => rfl
    cases row <;> exact hs
  | updateStatus status userId =>
    obtain ⟨⟨row, t⟩, hx, he⟩ := Option.map_eq_some_iff.mp h
    cases he
    have hs := hu.updateUser hx (fun _ => rfl) (g := fun s => { s with status }) fun _ => rfl
    cases row <;> exact hs
  | deleteUser userId =>
    obtain ⟨⟨row, t⟩, hx, he⟩ := Option.map_eq_some_iff.mp h
    cases he
    have hs := hu.updateUser hx (fun _ => rfl) (g := fun s =>
      { s with deleted := true, creds := ⟨s.creds.value, s.creds.version + 1⟩ }) fun _ => rfl
    cases row <;> exact hs

theorem liveUser_some {user : User} (h : liveUser userId t = some user) :
    t.committed userId = some user ∧ user.deleted = false := by
  obtain ⟨hc, hd⟩ := Option.filter_eq_some_iff.mp h
  exact ⟨hc, by simpa using hd⟩

/-- The standing of an account that was just read. -/
def standingOf (a : Account) : Standing := ⟨⟨a.isAdmin, a.tokenVersion⟩, a.status, false⟩

theorem standingOf_accountOf {user : User} (hi : user.id = i)
    (hs : standing (some user) = standing (t.committed i)) (hd : user.deleted = false) :
    standing (t.committed (accountOf user).id) = standingOf (accountOf user) := by
  refine (congrArg (fun i => standing (t.committed i)) hi).trans (hs.symm.trans ?_)
  exact congrArg _ hd

/-- The account that a statement returns stands as its user does, who is not deleted. -/
theorem exec_account {a : Account} (h : exec env draw c q d = some (r, d')) (hu : Users d.auth.users)
    (ha : q.account r = some a) : d'.standing a.id = standingOf a := by
  cases q with
  | auth q => cases h
  | selectLogin email =>
    cases h
    obtain ⟨user, hp, rfl⟩ := Option.map_eq_some_iff.mp ha
    have hm := List.mem_filter.mp (pick_mem hp)
    obtain ⟨i, hi⟩ := Table.mem_committedRows.mp hm.1
    have hd : user.deleted = false := by simpa using (Bool.and_eq_true_iff.mp hm.2).2
    exact standingOf_accountOf (hu.keyed i user hi) (congrArg standing hi.symm) hd
  | selectAccount userId =>
    cases h
    obtain ⟨user, hp, rfl⟩ := Option.map_eq_some_iff.mp ha
    obtain ⟨hc, hd⟩ := liveUser_some hp
    exact standingOf_accountOf (hu.keyed userId user hc) (congrArg standing hc.symm) hd
  | _ => cases ha

theorem otp_account {a : Account} {q : Auth.Stmt} {r : Auth.Answer q} {ad ad' : Auth.Db}
    (h : Auth.exec env.toEnv draw c q ad = some (r, ad')) (hu : Users ad.users)
    (ha : Stmt.account (.auth q) r = some a) : standing (ad'.users.committed a.id) = standingOf a := by
  cases q with
  | selectAccount email =>
    cases h
    obtain ⟨user, hp, rfl⟩ := Option.map_eq_some_iff.mp ha
    have hm := List.mem_filter.mp (pick_mem hp)
    obtain ⟨i, hi⟩ := Table.mem_rows.mp hm.1
    have hd : user.deleted = false := by simpa using (Bool.and_eq_true_iff.mp hm.2).2
    obtain ⟨hid, hs⟩ := hu.view hi
    exact standingOf_accountOf hid hs hd
  | insertUser name phone email address passwordHash =>
    simp only [Auth.exec, insertUser] at h
    split at h
    · cases h
      cases ha
    split at h
    · cases h
    · cases h
      cases ha
      rw [Table.committed_insert, Table.committed_fresh (Nat.le_refl _)]
      rfl
  | _ => cases ha

/-- The row that a request is compared with is that of a user who is not deleted. -/
theorem exec_shown {n : Nat} {row : TokenRow} (h : exec env draw c q d = some (r, d'))
    (hs : q.shown r = some (n, row)) : ∃ user, d'.auth.users.committed n = some user ∧
      user.deleted = false ∧ row = ⟨user.id, user.email, user.tokenVersion⟩ := by
  cases q with
  | auth q => cases h
  | selectTokenVersion userId =>
    cases h
    obtain ⟨row', hp, he⟩ := Option.map_eq_some_iff.mp hs
    cases he
    obtain ⟨user, hl, rfl⟩ := Option.map_eq_some_iff.mp hp
    obtain ⟨hc, hd⟩ := liveUser_some hl
    exact ⟨user, hc, hd, rfl⟩
  | _ => cases hs

/-- The `UPDATE` of a password returns the id that it was asked for. -/
theorem otp_renamed {q : Auth.Stmt} {r : Auth.Answer q} {ad ad' : Auth.Db} {name : Nat × Option String}
    (h : Auth.exec env.toEnv draw c q ad = some (r, ad')) (hu : Users ad.users)
    (hn : Stmt.renamed (.auth q) r = some name) : ∃ hash, q = .updatePassword hash name.1 := by
  cases q with
  | updatePassword hash i =>
    simp only [Auth.exec] at h
    split at h
    · cases h
      cases hn
    · rename_i row hv
      split at h
      · cases h
        cases hn
        exact ⟨hash, by rw [(hu.view hv).1]⟩
      · cases h
  | _ => cases hn

/-- A statement that fails returns no account, no row and no id. -/
theorem account_error {e : PgError} : q.account (.error e) = none := by
  cases q with
  | auth q => cases q <;> rfl
  | _ => rfl

theorem renamed_error {e : PgError} : q.renamed (.error e) = none := by
  cases q with
  | auth q => cases q <;> rfl
  | _ => rfl

theorem shown_error {e : PgError} : q.shown (.error e) = none := by
  cases q <;> rfl

theorem restands_error {e : PgError} : q.restands (.error e) = none := by
  cases q <;> rfl

/-- What the store has done for a statement: the OTP flows act for theirs, the others run at
their time or fail. -/
inductive Acted (env : Env) (c : Client) (d : Db) : Move → (q : Stmt) → Answer q → Db → Prop
  | otp {m : Move} {q : Auth.Stmt} {r : Auth.Answer q} {ad : Auth.Db}
      (h : Auth.act env.toEnv m c q d.auth = some (r, ad)) : Acted env c d m (.auth q) r { d with auth := ad }
  | run {wait draw : Nat} {q : Stmt} {r : Answer q} {d' : Db}
      (h : exec env draw c q { d with auth := tick wait d.auth } = some (r, d')) :
      Acted env c d (.run wait draw) q r d'
  | fail {e : PgError} {q : Stmt} (hq : ∀ q', q ≠ .auth q') : Acted env c d (.fail e) q (.error e) d

theorem run_acted (h : run env m c q d = some (r, d')) : Acted env c d m q r d' := by
  cases q with
  | auth q =>
    obtain ⟨⟨r, ad⟩, hx, he⟩ := Option.map_eq_some_iff.mp h
    cases he
    exact .otp hx
  | _ =>
    cases m with
    | run wait draw => exact .run h
    | fail e =>
      cases h
      exact .fail (by rintro q' ⟨⟩)

/-- What a step does, less its history. -/
theorem act_acted (h : act env m c q d = some (r, d')) :
    ∃ d₁, Acted env c d m q r d₁ ∧
      d' = { d₁ with saved := (if r.isOk then q.saves.toList else []) ++ d₁.saved } := by
  obtain ⟨⟨r, d₁⟩, hx, he⟩ := Option.map_eq_some_iff.mp h
  cases he
  exact ⟨d₁, run_acted hx, rfl⟩

/-- One step: the users stay keyed, and each stands as the statement has decided. -/
theorem act_standing (h : act env m c q d = some (r, d')) (hu : Users d.auth.users) :
    Users d'.auth.users ∧ ∀ i, d'.standing i = restand (q.restands r) i (d.standing i) := by
  obtain ⟨d₁, ha, rfl⟩ := act_acted h
  cases ha with
  | otp ha => exact hu.write (act_users ha)
  | run hx =>
    have hs := exec_standing hx hu
    exact hs
  | fail hq =>
    refine ⟨hu, fun i => ?_⟩
    rw [restands_error]
    rfl

theorem act_account {a : Account} (h : act env m c q d = some (r, d')) (hu : Users d.auth.users)
    (hr : q.account r = some a) : d'.standing a.id = standingOf a := by
  obtain ⟨d₁, ha, rfl⟩ := act_acted h
  cases ha with
  | @otp _ q _ _ ha =>
    cases m with
    | run wait draw =>
      obtain ⟨ad₁, hx, rfl⟩ := act_run ha
      have hs := otp_account hx hu hr
      exact hs
    | fail e =>
      obtain ⟨rfl, -⟩ := act_fail ha
      cases account_error.symm.trans hr
  | run hx =>
    have hs := exec_account hx hu hr
    exact hs
  | fail hq => cases account_error.symm.trans hr

theorem act_shown {n : Nat} {row : TokenRow} (h : act env m c q d = some (r, d'))
    (hs : q.shown r = some (n, row)) : ∃ user, d'.auth.users.committed n = some user ∧
      user.deleted = false ∧ row = ⟨user.id, user.email, user.tokenVersion⟩ := by
  obtain ⟨d₁, ha, rfl⟩ := act_acted h
  cases ha with
  | otp ha => cases hs
  | run hx =>
    obtain ⟨user, hu⟩ := exec_shown hx hs
    exact ⟨user, hu⟩
  | fail hq => cases shown_error.symm.trans hs

theorem act_renamed {name : Nat × Option String} (h : act env m c q d = some (r, d'))
    (hu : Users d.auth.users) (hn : q.renamed r = some name) :
    ∃ hash, q = .auth (.updatePassword hash name.1) := by
  obtain ⟨d₁, ha, rfl⟩ := act_acted h
  cases ha with
  | @otp _ q _ _ ha =>
    cases m with
    | run wait draw =>
      obtain ⟨ad₁, hx, rfl⟩ := act_run ha
      obtain ⟨hash, rfl⟩ := otp_renamed hx hu hn
      exact ⟨hash, rfl⟩
    | fail e =>
      obtain ⟨rfl, -⟩ := act_fail ha
      cases renamed_error.symm.trans hn
  | run hx =>
    cases q with
    | auth q => cases hx
    | _ => cases hn
  | fail hq => cases renamed_error.symm.trans hn

end Steps

end Kayan.Sessions
