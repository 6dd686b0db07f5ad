import Kayan.Sessions.Passwords

/-!
# Who changes passwords

What each statement does to the passwords, and what the notes of the calls mean for the store. In every run a
password changes only when a reset commits that had the code of an OTP, or by the `UPDATE` of a user who has
shown the old one.
-/
namespace Kayan.Sessions.Passwords
open Interleave RowStore Auth

section Effects
variable {env : Env} {m : Move} {draw i : Nat} {c : Client} {d d' : Db} {t t' : Table Client User} {q : Stmt} {r : Answer q}
  {P P' : Client → Nat → String → Prop}

/-- What a statement of client `c` can do to the users and their passwords. -/
inductive PasswordWrite (c : Client) (q : Stmt) (t : Table Client User) : Table Client User → Prop
  | same : PasswordWrite c q t t
  | insert {user : User} : PasswordWrite c q t (t.insert c user)
  | write {i : Nat} {row : User} {passwordHash : String} (hv : t.view c i = some row) (hf : t.free c i = true)
      (hq : q = .sessions (.auth (.updatePassword passwordHash i))) :
      PasswordWrite c q t (t.write c i (some { row with passwordHash }))
  | commit : PasswordWrite c q t (t.commit c)
  | rollback : PasswordWrite c q t (t.rollback c)
  | store {i : Nat} {row row' : User} (hc : t.committed i = some row) (hh : (t.cell i).held = none)
      (hp : row'.passwordHash = row.passwordHash ∨ q = .updatePasswordHash row'.passwordHash i) :
      PasswordWrite c q t (t.store i (some row'))

theorem otp_passwords {env : Auth.Env} {q : Auth.Stmt} {r : Auth.Answer q} {ad ad' : Auth.Db}
    (h : Auth.exec env draw c q ad = some (r, ad')) : PasswordWrite c (.sessions (.auth q)) ad.users ad'.users := by
  cases q with
  | commit =>
    cases h
    exact .commit
  | rollback =>
    cases h
    exact .rollback
  | dateNow | randomInt | randomBytes | hash | selectOtp | selectUser | selectPending | selectPendingLive
  | selectUserId | selectAccount | snapshotExpiredPending | begin | insertOtp | purgeOtps
  | upsertOtpAttempts | deleteOtpAttempts =>
    cases h
    exact .same
  | upsertPending | selectPendingForUpdate | deletePending | deleteExpiredPending =>
    obtain ⟨p, w, rfl⟩ := exec_pendingOnly rfl h
    exact .same
  | insertUser name phone email address passwordHash =>
    simp only [Auth.exec, insertUser] at h
    split at h
    · cases h
      exact .same
    split at h
    · cases h
    · cases h
      exact .insert
  | insertRefreshToken =>
    obtain ⟨t, rfl⟩ := insertRefreshToken_change h
    exact .same
  | updatePassword hash i =>
    simp only [Auth.exec] at h
    split at h
    · cases h
      exact .same
    · rename_i row hv
      split at h
      · rename_i hf
        cases h
        exact .write hv hf rfl
      · cases h

/-- An `UPDATE` of an account that keeps the password, or is the one of `changePassword`. -/
theorem updateUser_passwords {f : User → User} {row : Option User} (h : updateUser i f t = some (row, t'))
    (hf : ∀ user, (f user).passwordHash = user.passwordHash ∨ q = .updatePasswordHash (f user).passwordHash i) :
    PasswordWrite c q t t' := by
  rcases Users.updateUser_cases h with ⟨-, rfl⟩ | ⟨user, hc, -, hh, -, rfl⟩
  · exact .same
  · exact .store hc hh (hf user)

theorem exec_passwords {q : Sessions.Stmt} {r : Sessions.Answer q} (h : Sessions.exec env draw c q d = some (r, d')) :
    PasswordWrite c (.sessions q) d.auth.users d'.auth.users := by
  cases q with
  | auth q => cases h
  | verifyAsync | redisSet | redisDel | selectLogin | selectAccount | selectTokenVersion | selectIsAdmin
  | selectAdminCheck | logAdminAction =>
    cases h
    exact .same
  | insertRefreshToken | consumeRefreshToken | revokeRefreshToken =>
    obtain ⟨x, -, hx⟩ := Option.map_eq_some_iff.mp h
    cases hx
    exact .same
  | updateIsAdmin | updateStatus | deleteUser =>
    obtain ⟨⟨row, t⟩, hx, he⟩ := Option.map_eq_some_iff.mp h
    cases he
    exact updateUser_passwords hx fun _ => Or.inl rfl

/-- One step: what its statement does to the passwords. -/
theorem act_passwords (h : act env m c q d = some (r, d')) : PasswordWrite c q d.auth.users d'.auth.users := by
  cases q with
  | sessions q =>
    obtain ⟨d₁, ha, rfl⟩ := act_acted h
    cases ha with
    | @otp _ q _ _ ha =>
      cases m with
      | run wait draw =>
        obtain ⟨ad₁, hx, rfl⟩ := act_run ha
        have hs := otp_passwords hx
        exact hs
      | fail e =>
        rw [(act_fail ha).2]
        exact .same
    | run hx =>
      have hs := exec_passwords hx
      exact hs
    | fail hq => exact .same
  | selectPasswordHash userId =>
    cases m with
    | run wait draw =>
      cases h
      exact .same
    | fail e =>
      cases h
      exact .same
  | updatePasswordHash passwordHash userId =>
    cases m with
    | run wait draw =>
      obtain ⟨⟨row, t⟩, hx, he⟩ := Option.map_eq_some_iff.mp h
      cases he
      exact updateUser_passwords hx fun _ => Or.inr rfl
    | fail e =>
      cases h
      exact .same

/-- An open transaction keeps the password of a user, or `P` allows the new one. -/
def Drafted (P : Client → Nat → String → Prop) (t : Table Client User) : Prop :=
  ∀ c i old row, t.committed i = some old → t.draft c i = some row → row.passwordHash = old.passwordHash ∨ P c i row.passwordHash

theorem Drafted.mono (h : Drafted P t) (hp : ∀ c i hash, P c i hash → P' c i hash) : Drafted P' t := by
  intro c i old row ho hr
  exact (h c i old row ho hr).imp id (hp c i row.passwordHash)

/-- A statement leaves the drafts so where `P` allows the password that it writes. -/
theorem PasswordWrite.drafted (h : PasswordWrite c q t t') (hk : t.Keeping) (hd : Drafted P t)
    (hp : ∀ hash i, q = .sessions (.auth (.updatePassword hash i)) → P c i hash) : t'.Keeping ∧ Drafted P t' := by
  cases h with
  | same => exact ⟨hk, hd⟩
  | insert =>
    refine ⟨hk.insert, fun b i old row ho hr => ?_⟩
    rw [Table.committed_insert] at ho
    rw [Table.draft_insert] at hr
    split at hr
    · rename_i hn
      rw [Table.committed_fresh (Nat.le_of_eq hn.2.symm)] at ho
      cases ho
    · exact hd b i old row ho hr
  | @write j row passwordHash hv hf hq =>
    refine ⟨hk.write (Table.lt_of_view hv) hf, fun b i old new ho hr => ?_⟩
    rw [Table.committed_write] at ho
    rw [Table.draft_write (Table.lt_of_view hv) hf] at hr
    split at hr
    · rename_i hb
      obtain ⟨rfl, rfl⟩ := hb
      cases hr
      exact Or.inr (hp passwordHash i hq)
    · exact hd b i old new ho hr
  | commit =>
    refine ⟨hk.commit, fun b i old row ho hr => ?_⟩
    rw [Table.draft_commit] at hr
    split at hr
    · cases hr
    · rename_i hb
      -- another client holds the row, so the transaction has not written it
      have hown : t.own b i ≠ none := by
        intro hn
        rw [Table.draft, hn] at hr
        cases hr
      have hnone : t.draft c i = none := by
        rw [Table.draft]
        rcases hc : t.own c i with - | x
        · rfl
        · have hfree : t.free c i = true := Table.free_of_own (by rw [hc]; exact Option.some_ne_none x)
          exact absurd (Table.free_iff_of_own hown hfree).symm hb
      rw [hk.committed_commit, hnone, Option.none_or] at ho
      exact hd b i old row ho hr
  | rollback =>
    refine ⟨hk.rollback, fun b i old row ho hr => ?_⟩
    rw [Table.committed_rollback] at ho
    rw [Table.draft_rollback] at hr
    split at hr
    · cases hr
    · exact hd b i old row ho hr
  | @store j row row' hc hh hp =>
    refine ⟨hk.store hh, fun b i old new ho hr => ?_⟩
    rw [Table.draft_store hh] at hr
    rw [Table.committed_store (Table.lt_of_committed hc)] at ho
    split at ho
    · rename_i hi
      subst hi
      rw [Table.draft_of_held hh] at hr
      cases hr
    · exact hd b i old new ho hr

/-- A user who is there stays there. The password is the same, or `P` allows the new one, or it is that of
the statement. -/
theorem PasswordWrite.change (h : PasswordWrite c q t t') (hk : t.Keeping) (hd : Drafted P t) {old : User}
    (ho : t.committed i = some old) : ∃ new, t'.committed i = some new ∧
      (new.passwordHash = old.passwordHash ∨ P c i new.passwordHash ∨ q = .updatePasswordHash new.passwordHash i) := by
  cases h with
  | same => exact ⟨old, ho, Or.inl rfl⟩
  | insert => exact ⟨old, by rw [Table.committed_insert, ho], Or.inl rfl⟩
  | write => exact ⟨old, by rw [Table.committed_write, ho], Or.inl rfl⟩
  | rollback => exact ⟨old, by rw [Table.committed_rollback, ho], Or.inl rfl⟩
  | commit =>
    rw [hk.committed_commit]
    rcases hr : t.draft c i with - | row
    · exact ⟨old, ho, Or.inl rfl⟩
    · exact ⟨row, rfl, (hd c i old row ho hr).imp id Or.inl⟩
  | @store j row row' hc hh hp =>
    rw [Table.committed_store (Table.lt_of_committed hc)]
    split
    · rename_i hi
      subst hi
      cases ho.symm.trans hc
      exact ⟨row', rfl, hp.imp id Or.inr⟩
    · exact ⟨old, ho, Or.inl rfl⟩

end Effects

section Replies
variable {env : Env} {m : Move} {c : Client} {d d' : Db} {q : Stmt} {r : Answer q} {email password hash : String}
  {purpose : OtpPurpose} {otp : AuthOtp} {account : Account} {payload : JwtPayload} {n : Nat}

theorem act_otp {q : Auth.Stmt} {r : Auth.Reply q} (h : act env m c (.sessions (.auth q)) d = some (.ok r, d')) :
    ∃ draw ad ad' history, Auth.exec env.toEnv draw c q ad = some (.ok r, ad') ∧ d'.auth = { ad' with history } := by
  obtain ⟨d₁, ha, rfl⟩ := act_acted h
  cases ha with
  | otp ha =>
    cases m with
    | run wait draw =>
      obtain ⟨ad', hx, rfl⟩ := act_run ha
      exact ⟨draw, _, ad', _, hx, rfl⟩
    | fail e => cases (act_fail ha).1
  | run hx => cases hx

theorem act_foundOtp (h : act env m c q d = some (r, d')) (hf : foundOtp q r = some (email, purpose, otp)) :
    otp ∈ d'.auth.otps ∧ otp.email = email ∧ otp.purpose = purpose := by
  unfold foundOtp at hf
  split at hf
  · obtain ⟨otp', rfl, he⟩ := Option.map_eq_some_iff.mp hf
    cases he
    obtain ⟨draw, ad, ad', history, hx, hd⟩ := act_otp h
    injection hx with hx
    injection hx with hrow had
    have hm := List.mem_filter.mp (pick_mem (Except.ok.inj hrow))
    have hkey := List.mem_filter.mp hm.1
    rw [hd, ← had]
    exact ⟨hkey.1, by simpa using hkey.2⟩
  · cases hf

theorem act_clockRead (h : act env m c q d = some (r, d')) (hf : clockRead q r = some n) : d'.auth.clock = n := by
  unfold clockRead at hf
  split at hf
  · cases hf
    obtain ⟨draw, ad, ad', history, hx, hd⟩ := act_otp h
    rw [hd]
    cases hx
    rfl
  · cases hf

/-- The account of a reset is that of an active user with the email who is not deleted, as the client sees them. -/
theorem act_foundAccount (h : act env m c q d = some (r, d')) (hu : Users d'.auth.users)
    (hf : foundAccount q r = some (email, account)) : ∃ user, d'.auth.users.view c account.id = some user ∧
      user.deleted = false ∧ user.status = account.status ∧ user.email.any (fun e => env.lower e = env.lower email) = true := by
  unfold foundAccount at hf
  split at hf
  · obtain ⟨a, rfl, he⟩ := Option.map_eq_some_iff.mp hf
    cases he
    obtain ⟨draw, ad, ad', history, hx, hd⟩ := act_otp h
    injection hx with hx
    injection hx with hrow had
    obtain ⟨user, hp, rfl⟩ := Option.map_eq_some_iff.mp (Except.ok.inj hrow)
    obtain ⟨hrows, hlive⟩ := List.mem_filter.mp (pick_mem hp)
    obtain ⟨i, hi⟩ := Table.mem_rows.mp hrows
    have hview : d'.auth.users.view c i = some user := by rw [hd, ← had, hi]
    obtain rfl := (hu.view hview).1
    obtain ⟨hemail, hdeleted⟩ := Bool.and_eq_true_iff.mp hlive
    exact ⟨user, hview, by simpa using hdeleted, rfl, hemail⟩
  · cases hf

theorem act_hashOf (h : act env m c q d = some (r, d')) (hf : hashOf q r = some (password, hash)) :
    ∃ salt, hash = env.bcrypt password bcryptRounds salt := by
  unfold hashOf at hf
  split at hf
  · split at hf
    · rename_i hrounds
      cases hf
      subst hrounds
      obtain ⟨draw, ad, ad', history, hx, -⟩ := act_otp h
      cases hx
      exact ⟨_, rfl⟩
    · cases hf
  · cases hf

theorem act_knownHash (h : act env m c q d = some (r, d')) (hf : knownHash q r = some (n, hash)) :
    ∃ user, d'.auth.users.committed n = some user ∧ user.deleted = false ∧ user.passwordHash = hash := by
  unfold knownHash at hf
  split at hf
  · obtain ⟨old, rfl, he⟩ := Option.map_eq_some_iff.mp hf
    cases he
    cases m with
    | run wait draw =>
      injection h with h
      injection h with hrow hd
      obtain ⟨user, hlive, rfl⟩ := Option.map_eq_some_iff.mp (Except.ok.inj hrow)
      obtain ⟨hc, hdeleted⟩ := liveUser_some hlive
      exact ⟨user, by rw [← hd]; exact hc, hdeleted, rfl⟩
    | fail e => cases h
  · cases hf

theorem act_verifies (h : act env m c q d = some (r, d')) (hf : verified q r = some payload) :
    ∃ token secret now, q = .sessions (.verifyAsync token secret) ∧ env.verifyAsync token secret now = some payload := by
  cases q with
  | sessions q =>
    obtain ⟨⟨token, p⟩, hv, rfl⟩ := Option.map_eq_some_iff.mp hf
    obtain ⟨secret, rfl, hverify⟩ := act_verified h hv
    exact ⟨token, secret, _, rfl, hverify⟩
  | _ => cases hf

theorem act_shows {row : TokenRow} (h : act env m c q d = some (r, d')) (hf : shown q r = some (n, row)) :
    ∃ user, d'.auth.users.committed n = some user ∧ user.deleted = false ∧ user.tokenVersion = row.tokenVersion := by
  cases q with
  | sessions q =>
    obtain ⟨user, hc, hd, rfl⟩ := act_shown h hf
    exact ⟨user, hc, hd, rfl⟩
  | _ => cases hf

/-- One step keeps the users keyed. -/
theorem act_keyed (h : act env m c q d = some (r, d')) (hu : Users d.auth.users) : Users d'.auth.users := by
  cases q with
  | sessions q => exact (act_standing h hu).1
  | selectPasswordHash userId =>
    cases m with
    | run wait draw =>
      cases h
      exact hu
    | fail e =>
      cases h
      exact hu
  | updatePasswordHash passwordHash userId =>
    cases m with
    | run wait draw =>
      obtain ⟨⟨row, t⟩, hx, he⟩ := Option.map_eq_some_iff.mp h
      cases he
      exact (hu.updateUser (g := id) hx (fun _ => rfl) fun _ => rfl).1
    | fail e =>
      cases h
      exact hu

end Replies

section Runs
variable {env : Env} {routes : Client → Route} {s t u v w : State} {d : Db} {e : Taken} {xs ys : List Taken} {c : Client}
  {i : Nat} {hash : String} {notes : Client → Notes}

/-- At some moment of the run the store was so. -/
abbrev Once (env : Env) (s : State) (ys : List Taken) (v : State) (P : Db → Prop) : Prop :=
  Trace.Once (Step (act env)) (fun u => P u.db) s ys v

/-- The call resets the password of user `i`: it has the code of an OTP, neither used nor expired, of an email
that the user had, who was active and not deleted. -/
def Reset (env : Env) (routes : Client → Route) (s : State) (ys : List Taken) (v : State) (c : Client) (i : Nat)
    (hash : String) : Prop :=
  ∃ dto otp salt, routes c = .other (.otp (.resetPassword dto)) ∧ hash = env.bcrypt dto.newPassword bcryptRounds salt ∧
    hashOtp env.toEnv dto.otp otp.salt = otp.codeHash ∧ otp.usedAt = none ∧ otp.email = dto.email ∧
    otp.purpose = .passwordReset ∧ Once env s ys v (fun d => otp ∈ d.auth.otps) ∧
    Once env s ys v (fun d => d.auth.clock ≤ otp.expiresAt) ∧
    Once env s ys v fun d => ∃ user, d.auth.users.view c i = some user ∧ user.deleted = false ∧
      user.status = .active ∧ user.email.any (fun e => env.lower e = env.lower dto.email) = true

/-- The call changes the password of user `i`: it has a token of the user, valid at one moment, and the password
that the user had at another. -/
def Changed (env : Env) (routes : Client → Route) (s : State) (ys : List Taken) (v : State) (c : Client) (i : Nat)
    (hash : String) : Prop :=
  ∃ token oldPassword newPassword now payload salt, routes c = .changePassword token oldPassword newPassword ∧
    hash = env.bcrypt newPassword bcryptRounds salt ∧
    env.verifyAsync token env.config.jwtAccessSecret now = some payload ∧
    toPositiveInt (Fields.get "sub" payload) = some i ∧
    Once env s ys v (fun d => ∃ user, d.auth.users.committed i = some user ∧ user.deleted = false ∧
      hasVersion user.tokenVersion payload = true) ∧
    Once env s ys v fun d => ∃ user, d.auth.users.committed i = some user ∧ user.deleted = false ∧
      env.compare oldPassword user.passwordHash = true

theorem Reset.later (h : Reset env routes s ys v c i hash) (hs : Step (act env) v e w) :
    Reset env routes s (ys ++ [e]) w c i hash := by
  obtain ⟨dto, otp, salt, hr, hh, hcode, hused, hemail, hpurpose, hotp, hclock, huser⟩ := h
  exact ⟨dto, otp, salt, hr, hh, hcode, hused, hemail, hpurpose, hotp.later hs, hclock.later hs, huser.later hs⟩

/-- What the notes of the requests mean in a run, and what the open transactions have written. -/
structure Watch (env : Env) (routes : Client → Route) (s : State) (ys : List Taken) (v : State)
    (notes : Client → Notes) : Prop where
  follows : InPhase (protocol env) (fun _ _ => True) notes v
  users : Users v.db.auth.users
  keeping : v.db.auth.users.Keeping
  drafts : Drafted (Reset env routes s ys v) v.db.auth.users
  route : ∀ c, (notes c).route = routes c
  payload : ∀ c token oldPassword newPassword payload, routes c = .changePassword token oldPassword newPassword →
    (notes c).payload = some payload → ∃ now, env.verifyAsync token env.config.jwtAccessSecret now = some payload
  row : ∀ c n row, (notes c).row = some (n, row) → Once env s ys v fun d => ∃ user,
    d.auth.users.committed n = some user ∧ user.deleted = false ∧ user.tokenVersion = row.tokenVersion
  otp : ∀ c email purpose otp, (notes c).otp = some (email, purpose, otp) → Once env s ys v fun d =>
    otp ∈ d.auth.otps ∧ otp.email = email ∧ otp.purpose = purpose
  now : ∀ c n, (notes c).now = some n → Once env s ys v fun d => d.auth.clock = n
  account : ∀ c email account, (notes c).account = some (email, account) → Once env s ys v fun d => ∃ user,
    d.auth.users.view c account.id = some user ∧ user.deleted = false ∧ user.status = account.status ∧
      user.email.any (fun e => env.lower e = env.lower email) = true
  hashed : ∀ c password hash, (notes c).hashed = some (password, hash) →
    ∃ salt, hash = env.bcrypt password bcryptRounds salt
  known : ∀ c n hash, (notes c).known = some (n, hash) → Once env s ys v fun d => ∃ user,
    d.auth.users.committed n = some user ∧ user.deleted = false ∧ user.passwordHash = hash

/-- The `UPDATE` of a reset is issued with all that makes it one. -/
theorem Watch.resets (h : Watch env routes s ys v notes)
    (hm : (notes c).may env (.sessions (.auth (.updatePassword hash i)))) : Reset env routes s ys v c i hash := by
  obtain ⟨dto, account, hr, ⟨otp, now, hotp, hused, hnow, hlive, hcode⟩, haccount, rfl, hactive, hhashed⟩ := hm
  obtain ⟨salt, hh⟩ := h.hashed c _ _ hhashed
  have hfound := h.otp c _ _ _ hotp
  have hkey : otp.email = dto.email ∧ otp.purpose = .passwordReset := by
    obtain ⟨_, _, u, -, -, -, hu⟩ := hfound
    exact hu.2
  refine ⟨dto, otp, salt, (h.route c).symm.trans hr, hh, hcode, hused, hkey.1, hkey.2, hfound.mono fun u hu => hu.1,
    (h.now c now hnow).mono ?_, (h.account c _ _ haccount).mono ?_⟩
  · intro u hu
    exact (Nat.le_of_eq hu).trans hlive
  · rintro u ⟨user, hview, hdeleted, hstatus, hemail⟩
    exact ⟨user, hview, hdeleted, hstatus.trans hactive, hemail⟩

/-- The `UPDATE` of `changePassword` is issued for a user who has shown the token and the old password. -/
theorem Watch.changes (h : Watch env routes s ys v notes) (hm : (notes c).may env (.updatePasswordHash hash i)) :
    Changed env routes s ys v c i hash := by
  obtain ⟨token, oldPassword, newPassword, old, payload, row, hr, hp, hsub, hrow, hversion, hknown, hcompare, hhashed⟩ := hm
  have hroute : routes c = .changePassword token oldPassword newPassword := (h.route c).symm.trans hr
  obtain ⟨now, hnow⟩ := h.payload c _ _ _ payload hroute hp
  obtain ⟨salt, hh⟩ := h.hashed c _ _ hhashed
  refine ⟨token, oldPassword, newPassword, now, payload, salt, hroute, hh, hnow, hsub, (h.row c i row hrow).mono ?_,
    (h.known c i old hknown).mono ?_⟩
  · rintro u ⟨user, hc, hd, hv⟩
    refine ⟨user, hc, hd, ?_⟩
    rw [hv]
    exact hversion
  · rintro u ⟨user, hc, hd, hv⟩
    refine ⟨user, hc, hd, ?_⟩
    rw [hv]
    exact hcompare

theorem Watch.step (h : Watch env routes s ys v notes) (hy : Trace.Run (Step (act env)) s ys v)
    (hs : Step (act env) v e w) : Watch env routes s (ys ++ [e]) w (noted Notes.after notes e) := by
  obtain ⟨hm, hfollows⟩ := h.follows.noted hs
  have hrun : Trace.Run (Step (act env)) s (ys ++ [e]) w := hy.append (.step hs .refl)
  have husers : Users w.db.auth.users := act_keyed hs.acted h.users
  have hdrafts := (act_passwords hs.acted).drafted h.keeping h.drafts fun hash i hq => h.resets (hq ▸ hm)
  refine ⟨hfollows, husers, hdrafts.1, hdrafts.2.mono fun c i hash hp => hp.later hs, ?_, ?_, ?_, ?_, ?_, ?_, ?_, ?_⟩
  · intro c
    rcases noted_or Notes.after notes e c with ⟨rfl, hn⟩ | ⟨-, hn⟩
    · rw [hn]
      exact h.route e.client
    · rw [hn]
      exact h.route c
  · intro c token oldPassword newPassword payload hr hp
    rcases noted_field Notes.payload verified (fun _ _ _ => rfl) hp with hold | ⟨rfl, hnew⟩
    · exact h.payload c token oldPassword newPassword payload hr hold
    · obtain ⟨token', secret, now, hq, hverify⟩ := act_verifies hs.acted hnew
      rw [hq] at hm
      obtain ⟨rfl, rfl⟩ := hm token oldPassword newPassword ((h.route e.client).trans hr)
      exact ⟨now, hverify⟩
  · intro c n row hr
    rcases noted_field Notes.row shown (fun _ _ _ => rfl) hr with hold | ⟨-, hnew⟩
    · exact (h.row c n row hold).later hs
    · exact Trace.Once.now hrun (act_shows hs.acted hnew)
  · intro c email purpose otp hr
    rcases noted_field Notes.otp foundOtp (fun _ _ _ => rfl) hr with hold | ⟨-, hnew⟩
    · exact (h.otp c email purpose otp hold).later hs
    · exact Trace.Once.now hrun (act_foundOtp hs.acted hnew)
  · intro c n hr
    rcases noted_field Notes.now clockRead (fun _ _ _ => rfl) hr with hold | ⟨-, hnew⟩
    · exact (h.now c n hold).later hs
    · exact Trace.Once.now hrun (act_clockRead hs.acted hnew)
  · intro c email account hr
    rcases noted_field Notes.account foundAccount (fun _ _ _ => rfl) hr with hold | ⟨rfl, hnew⟩
    · exact (h.account c email account hold).later hs
    · exact Trace.Once.now hrun (act_foundAccount hs.acted husers hnew)
  · intro c password hash hr
    rcases noted_field Notes.hashed hashOf (fun _ _ _ => rfl) hr with hold | ⟨-, hnew⟩
    · exact h.hashed c password hash hold
    · exact act_hashOf hs.acted hnew
  · intro c n hash hr
    rcases noted_field Notes.known knownHash (fun _ _ _ => rfl) hr with hold | ⟨-, hnew⟩
    · exact (h.known c n hash hold).later hs
    · exact Trace.Once.now hrun (act_knownHash hs.acted hnew)

theorem watch_run (hu : Users d.auth.users) (ho : ∀ c i, d.auth.users.own c i = none)
    (hy : Trace.Run (Step (act env)) (service env routes d) ys v) :
    ∃ notes, Watch env routes (service env routes d) ys v notes := by
  have hstart : Watch env routes (service env routes d) [] (service env routes d) fun c => { route := routes c } := by
    constructor
    · exact fun c => route_follows env (routes c)
    · exact hu
    · intro c i v hv
      cases (ho c i).symm.trans hv
    · intro c i old row _ hr
      have hnone : d.auth.users.draft c i = none := by rw [Table.draft, ho, Option.bind_none]
      cases hnone.symm.trans hr
    · exact fun _ => rfl
    · intro c token oldPassword newPassword payload _ h
      cases h
    · intro c n row h
      cases h
    · intro c email purpose otp h
      cases h
    · intro c n h
      cases h
    · intro c email account h
      cases h
    · intro c password hash h
      cases h
    · intro c n hash h
      cases h
  refine hy.history (I := fun ys v => ∃ notes, Watch env routes (service env routes d) ys v notes) ⟨_, hstart⟩ ?_
  rintro ys u e v hy ⟨notes, h⟩ hs
  exact ⟨_, h.step hy hs⟩

/-- Who has changed the passwords in a run: after each step a user who was there is there still, with the same
password, or the call of the step has reset it or changed it. -/
def Warranted (env : Env) (routes : Client → Route) (s : State) (xs : List Taken) : Prop :=
  ∀ ys e zs, xs = ys ++ e :: zs → ∃ v w, Trace.Run (Step (act env)) s ys v ∧ Step (act env) v e w ∧
    ∀ i old, v.db.auth.users.committed i = some old → ∃ new, w.db.auth.users.committed i = some new ∧
      (new.passwordHash = old.passwordHash ∨ Reset env routes s ys v e.client i new.passwordHash ∨
        Changed env routes s ys v e.client i new.passwordHash)

/-- Passwords are safe with the two routes that write them: whatever requests are interleaved and whichever
statements fail, a password changes only when a reset with the code of an OTP commits, or by the `UPDATE` of a
user with a valid token who has shown the password of that user. -/
theorem passwords_warranted (hu : Users d.auth.users) (ho : ∀ c i, d.auth.users.own c i = none)
    (h : Trace.Run (Step (act env)) (service env routes d) xs t) : Warranted env routes (service env routes d) xs := by
  rintro ys e zs rfl
  obtain ⟨v, hy, hz⟩ := h.split
  obtain ⟨notes, hn⟩ := watch_run hu ho hy
  cases hz with
  | @step _ w _ _ _ hs _ =>
    refine ⟨v, w, hy, hs, fun i old hold => ?_⟩
    obtain ⟨new, hnew, hp⟩ := (act_passwords hs.acted).change hn.keeping hn.drafts hold
    refine ⟨new, hnew, hp.imp id (Or.imp id fun hq => hn.changes ?_)⟩
    have hm := (hn.follows.noted hs).1
    rwa [hq] at hm

/-- Mona changes the password twice at once. -/
def twice : Client → Route
  | 0 => .changePassword (accessOf mona) "Secret123" "Secret456"
  | _ => .changePassword (accessOf mona) "Secret123" "Secret789"

theorem shop_users : Users shop.auth.users where
  keyed i r hr := by
    match i with
    | 0 | 1 =>
      cases hr
      rfl
    | _ + 2 => cases hr
  drafts c i v w hv := by cases hv

/-- Both calls look at the old password before either has written a new one. -/
theorem passwords_warranted_twice : ∃ xs t,
    Trace.Run (Step (act (openEnv false))) (service (openEnv false) twice shop) xs t ∧
      (t.db.auth.users.committed 1).map (fun user => (openEnv false).compare "Secret789" user.passwordHash) = some true ∧
      Warranted (openEnv false) twice (service (openEnv false) twice shop) xs := by
  have hplay : (replay (act (openEnv false)) (fun _ _ => true) (turns [(0, 4), (1, 4), (0, 1), (1, 1)])
      (service (openEnv false) twice shop)).map (fun t => (t.db.auth.users.committed 1).map fun user =>
        (openEnv false).compare "Secret789" user.passwordHash) = some (some true) := by
    decide +kernel
  obtain ⟨xs, t, hr, ht⟩ := replay_run hplay
  have hsteps := hr.mono fun _ _ _ h => h.1
  exact ⟨xs, t, hsteps, ht, passwords_warranted shop_users (fun _ _ => rfl) hsteps⟩

end Runs

end Kayan.Sessions.Passwords
