import Kayan.Auth.Expired
import Kayan.Auth.Requesting
import Kayan.Sessions.Signing

/-!
# What expired pending registrations do

Sign-up and login in a store, and in the one from which expired pending registrations have been deleted. Only
the request for a registration shows whether they are there.
-/
namespace Kayan.Sessions
open RowStore Interleave Auth

variable {env : Env} {c : Client} {now draw : Nat} {m : Move} {x y : Bool} {d d' e : Db}
  {pending : Table Client PendingRegistration}

section Statements
variable {q : Stmt} {r : Answer q}

/-- Stores of which the second may lack expired pending registrations. -/
def Alike (env : Env) (c : Client) (now : Nat) (x : Bool) (d e : Db) : Prop :=
  e = { d with auth := e.auth } ∧ Auth.Alike env.toEnv c now x d.auth e.auth

/-- The protocol over all the statements. -/
def shy : Protocol Stmt Answer Bool
  | x, .auth q, r, y => Auth.shy x q r y
  | x, _, _, y => y = x

abbrev Agree (env : Env) (c : Client) (now : Nat) (y : Bool) {α : Type} (u v : α × Db) : Prop :=
  u.1 = v.1 ∧ Alike env c now y u.2 v.2

/-- The statements of sessions do not know of pending registrations. -/
theorem exec_withPending (hq : ∀ q', q ≠ .auth q') :
    exec env draw c q { d with auth := d.auth.withPending pending } =
      (exec env draw c q d).map fun z => (z.1, { z.2 with auth := z.2.auth.withPending pending }) := by
  cases q with
  | auth q => exact absurd rfl (hq q)
  | insertRefreshToken jti userId ttlSeconds =>
    change Option.map _ (saveToken c _ d.auth.tokens) = Option.map _ (Option.map _ (saveToken c _ d.auth.tokens))
    rw [Option.map_map]
    rfl
  | consumeRefreshToken jti =>
    change Option.map _ (consumeToken _ jti d.auth.tokens) = Option.map _ (Option.map _ (consumeToken _ jti d.auth.tokens))
    rw [Option.map_map]
    rfl
  | revokeRefreshToken jti =>
    change Option.map _ (revokeToken _ jti d.auth.tokens) = Option.map _ (Option.map _ (revokeToken _ jti d.auth.tokens))
    rw [Option.map_map]
    rfl
  | updateIsAdmin isAdmin userId =>
    change Option.map _ (updateUser userId _ d.auth.users) = Option.map _ (Option.map _ (updateUser userId _ d.auth.users))
    rw [Option.map_map]
    rfl
  | updateStatus status userId =>
    change Option.map _ (updateUser userId _ d.auth.users) = Option.map _ (Option.map _ (updateUser userId _ d.auth.users))
    rw [Option.map_map]
    rfl
  | deleteUser userId =>
    change Option.map _ (updateUser userId _ d.auth.users) = Option.map _ (Option.map _ (updateUser userId _ d.auth.users))
    rw [Option.map_map]
    rfl
  | _ => rfl

theorem exec_aside (hq : ∀ q', q ≠ .auth q') (h : exec env draw c q d = some (r, d')) :
    d'.auth.pending = d.auth.pending ∧ d'.auth.clock = d.auth.clock ∧ d'.auth.began = d.auth.began := by
  have hmapped : ∀ {α : Type} {o : Option α} {f : α → Answer q × Db}, o.map f = some (r, d') →
      (∀ x, (f x).2.auth.pending = d.auth.pending ∧ (f x).2.auth.clock = d.auth.clock ∧
        (f x).2.auth.began = d.auth.began) →
      d'.auth.pending = d.auth.pending ∧ d'.auth.clock = d.auth.clock ∧ d'.auth.began = d.auth.began := by
    intro α o f hmap hf
    obtain ⟨x, -, hx⟩ := Option.map_eq_some_iff.mp hmap
    have hfx := hf x
    rw [hx] at hfx
    exact hfx
  cases q with
  | auth q => exact absurd rfl (hq q)
  | insertRefreshToken => exact hmapped h fun _ => ⟨rfl, rfl, rfl⟩
  | consumeRefreshToken => exact hmapped h fun _ => ⟨rfl, rfl, rfl⟩
  | revokeRefreshToken => exact hmapped h fun _ => ⟨rfl, rfl, rfl⟩
  | updateIsAdmin => exact hmapped h fun _ => ⟨rfl, rfl, rfl⟩
  | updateStatus => exact hmapped h fun _ => ⟨rfl, rfl, rfl⟩
  | deleteUser => exact hmapped h fun _ => ⟨rfl, rfl, rfl⟩
  | _ =>
    cases h
    exact ⟨rfl, rfl, rfl⟩

theorem exec_alike (hq : ∀ q', q ≠ .auth q') (h : Alike env c now x d e) :
    Option.Rel (Agree env c now x) (exec env draw c q d) (exec env draw c q e) := by
  obtain ⟨hsame, pending, hauth, h⟩ := h
  rw [hauth] at hsame
  subst hsame
  rw [exec_withPending hq]
  rcases hexec : exec env draw c q d with _ | ⟨r, d'⟩
  · exact .none
  · obtain ⟨hpending, hclock, hbegan⟩ := exec_aside hq hexec
    exact .some ⟨rfl, rfl, pending, rfl, h.of_same hpending hclock hbegan⟩

theorem Alike.noted (h : Alike env c now x d e) (jtis : List String) :
    Alike env c now x { d with saved := jtis ++ d.saved } { e with saved := jtis ++ e.saved } := by
  obtain ⟨hsame, h⟩ := h
  refine ⟨?_, h⟩
  rw [hsame]

theorem run_auth_alike {q : Auth.Stmt} (h : Alike env c now x d e) (hP : ∀ r, ∃ y, Auth.shy x q r y) :
    Option.Rel (fun u v => ∀ y, Auth.shy x q u.1 y → Agree env c now y u v) (run env m c (.auth q) d)
      (run env m c (.auth q) e) := by
  obtain ⟨hsame, h⟩ := h
  have hact := Auth.act_alike (m := m) h hP
  change Option.Rel _ ((Auth.act env.toEnv m c q d.auth).map _) ((Auth.act env.toEnv m c q e.auth).map _)
  generalize Auth.act env.toEnv m c q d.auth = u at hact
  generalize Auth.act env.toEnv m c q e.auth = v at hact
  cases hact with
  | none => exact .none
  | @some u v hagree =>
    refine .some fun y hy => ?_
    obtain ⟨hreply, halike⟩ := hagree y hy
    refine ⟨hreply, ?_, halike⟩
    rw [hsame]

theorem rel_mono {α β : Type} {R S : α → β → Prop} {u : Option α} {v : Option β} (h : Option.Rel R u v)
    (hRS : ∀ a b, R a b → S a b) : Option.Rel S u v := by
  cases h with
  | none => exact .none
  | some hr => exact .some (hRS _ _ hr)

/-- A statement of the sessions themselves. -/
def ranHere (env : Env) (m : Move) (c : Client) (q : Stmt) (d : Db) : Option (Answer q × Db) :=
  match m with
  | .run wait draw => exec env draw c q { d with auth := tick wait d.auth }
  | .fail err => some (.error err, d)

/-- Whatever becomes of a shy statement, the stores agree. -/
theorem run_alike (h : Alike env c now x d e) (hP : ∀ r, ∃ y, shy x q r y) :
    Option.Rel (fun u v => ∀ y, shy x q u.1 y → Agree env c now y u v) (run env m c q d) (run env m c q e) := by
  have hticked : ∀ wait, Alike env c now x { d with auth := tick wait d.auth } { e with auth := tick wait e.auth } := by
    intro wait
    obtain ⟨hsame, pending, hauth, h⟩ := h
    refine ⟨?_, pending, ?_, h.sheds, h.unique, h.past.trans (Nat.le_add_right _ _), h.began⟩
    · rw [hsame]
    · rw [hauth]
      rfl
  have hother : (∀ q', q ≠ .auth q') → (∀ r y, shy x q r y → y = x) →
      run env m c q d = ranHere env m c q d → run env m c q e = ranHere env m c q e →
      Option.Rel (fun u v => ∀ y, shy x q u.1 y → Agree env c now y u v) (run env m c q d) (run env m c q e) := by
    intro hq hy hd he
    rw [hd, he]
    cases m with
    | fail err =>
      refine .some fun y hs => ?_
      rw [hy _ y hs]
      exact ⟨rfl, h⟩
    | run wait draw =>
      have hexec : Option.Rel (Agree env c now x) (exec env draw c q { d with auth := tick wait d.auth })
          (exec env draw c q { e with auth := tick wait e.auth }) := exec_alike hq (hticked wait)
      refine rel_mono hexec fun u v hagree y hs => ?_
      rw [hy _ y hs]
      exact hagree
  cases q with
  | auth q => exact run_auth_alike h hP
  | _ => exact hother (fun _ hq => by cases hq) (fun _ _ => id) rfl rfl

theorem act_alike (h : Alike env c now x d e) (hP : ∀ r, ∃ y, shy x q r y) :
    Option.Rel (fun u v => ∀ y, shy x q u.1 y → Agree env c now y u v) (act env m c q d) (act env m c q e) := by
  have hrun := run_alike (m := m) h hP
  unfold act
  generalize run env m c q d = u at hrun
  generalize run env m c q e = v at hrun
  cases hrun with
  | none => exact .none
  | @some u v hagree =>
    refine .some fun y hy => ?_
    obtain ⟨hreply, halike⟩ := hagree y hy
    obtain ⟨r, d'⟩ := u
    obtain ⟨r', e'⟩ := v
    cases hreply
    exact ⟨rfl, halike.noted _⟩

theorem shy_any (h : shy x q r y) (r' : Answer q) : ∃ z, shy x q r' z := by
  cases q with
  | auth q => exact Auth.shy_any h r'
  | _ => exact ⟨x, rfl⟩

theorem shy_mirrored (env : Env) (c : Client) (now : Nat) : Mirrored (anyMove (act env) c) shy (Alike env c now) := by
  rintro x q r y d d' e hs h ⟨m, hact⟩
  have hrel := act_alike (m := m) h (shy_any hs)
  rw [hact] at hrel
  rcases hacte : act env m c q e with _ | ⟨r', e'⟩
  · rw [hacte] at hrel
    cases hrel
  · rw [hacte] at hrel
    cases hrel with
    | some hagree =>
      obtain ⟨hr, halike⟩ := hagree y hs
      cases hr
      exact ⟨e', ⟨m, hacte⟩, halike⟩

theorem shy_mirrored_flip (env : Env) (c : Client) (now : Nat) :
    Mirrored (anyMove (act env) c) shy fun x => flip (Alike env c now x) := by
  rintro x q r y e e' d hs h ⟨m, hact⟩
  have hrel := act_alike (m := m) (show Alike env c now x d e from h) (shy_any hs)
  rw [hact] at hrel
  rcases hactd : act env m c q d with _ | ⟨r', d'⟩
  · rw [hactd] at hrel
    cases hrel
  · rw [hactd] at hrel
    cases hrel with
    | some hagree =>
      obtain ⟨z, hz⟩ := shy_any hs r'
      have hr : r' = r := (hagree z hz).1
      subst hr
      exact ⟨d', ⟨m, hactd⟩, (hagree y hs).2⟩

end Statements

section Flows
variable {α : Type} {email otp : String} {purpose : OtpPurpose} {userId : Option Nat}

/-- The statement may be issued in a phase, and it stays there. -/
def Harmless (x : Bool) (q : Auth.Stmt) : Prop := ∀ r, Auth.shy x q r x

theorem startVerification_confined : Confined (Harmless x) (startVerification env.toEnv email purpose userId) := by
  refine Confined.bind ?_ fun otp => Confined.bind (Confined.await fun _ => rfl) fun salt =>
    Confined.bind (Confined.await fun _ => rfl) fun _ => Confined.pure
  unfold drawOtp
  split
  · exact Confined.pure
  · exact Confined.bind (Confined.await fun _ => rfl) fun _ => Confined.pure

theorem incrementOtpAttempts_confined {maxAttempts ttlSeconds : Nat} :
    Confined (Harmless x) (incrementOtpAttempts email purpose maxAttempts ttlSeconds) := by
  refine Confined.bind (Confined.await fun _ => rfl) fun attempts => ?_
  split
  · exact Confined.bind (Confined.await fun _ => rfl) fun _ => Confined.pure
  · exact Confined.pure

theorem checkVerification_confined : Confined (Harmless x) (checkVerification env.toEnv email otp purpose) := by
  refine Confined.bind (Confined.await fun _ => rfl) fun row => ?_
  cases row with
  | none => exact Confined.throw
  | some row =>
    change Confined (Harmless x) (checkOtp env.toEnv email otp purpose row)
    unfold checkOtp
    split
    · exact Confined.throw
    · refine Confined.bind (Confined.await fun _ => rfl) fun now => ?_
      split
      · exact Confined.throw
      · split
        · refine Confined.bind incrementOtpAttempts_confined fun result => ?_
          split <;> exact Confined.throw
        · exact Confined.bind (Confined.await fun _ => rfl) fun _ => Confined.pure

theorem generateTokens_confined {userId : Nat} {email : Option String} {isAdmin : Bool} {tokenVersion : Nat} :
    Confined (Harmless x) (Auth.generateTokens env.toEnv userId email isAdmin tokenVersion) :=
  Confined.bind (Confined.await fun _ => rfl) fun _ => Confined.bind (Confined.await fun _ => rfl) fun _ =>
    Confined.bind (Confined.await fun _ => rfl) fun _ => Confined.bind (Confined.await fun _ => rfl) fun _ => Confined.pure

theorem resend_confined : Confined (Harmless x) (resendRegistrationOtp env.toEnv email) := by
  refine Confined.bind (Confined.await fun _ => rfl) fun pending => ?_
  cases pending with
  | false => exact Confined.throw
  | true => exact Confined.bind startVerification_confined fun _ => Confined.pure

theorem registerPending_confined : Confined (Harmless true) (registerPending env.toEnv email) := by
  refine Confined.bind (Confined.await fun _ => ⟨rfl, rfl⟩) fun row => ?_
  cases row with
  | none => exact Confined.throw
  | some row =>
    refine Confined.bind (Confined.catch (Confined.await fun _ => rfl) fun _ => Confined.throw) fun user => ?_
    refine Confined.bind (Confined.await fun _ => rfl) fun _ => ?_
    exact Confined.bind generateTokens_confined fun _ => Confined.pure

/-- Code that stays in a phase. -/
theorem shy_confined {code : Auth.Code α} (h : Confined (Harmless x) code) :
    Keeps Auth.shy x code (fun _ _ => True) fun _ => True :=
  Keeps.mono (h.still fun _ r hq => hq r) (fun _ _ _ => trivial) fun _ _ => trivial

theorem verify_shy : Keeps Auth.shy false (verifyRegistrationOtp env.toEnv email otp) (fun _ _ => True) fun _ => True := by
  refine Keeps.after (checkVerification_confined.still fun _ r hq => hq r) (fun _ => ?_) trivial
  refine Keeps.transaction (y := true) (fun r => ?_) (shy_confined registerPending_confined) (fun _ y _ r => ⟨y, rfl, ?_⟩)
    fun y _ r => ⟨y, rfl, trivial⟩
  · cases r with
    | ok _ => exact ⟨true, rfl, rfl⟩
    | error _ => exact ⟨false, rfl, trivial⟩
  · cases r <;> trivial

theorem tryRedisSet_shy {key value : String} {ttlSeconds : Nat} :
    Follows shy (fun _ y => y = x) (tryRedisSet env (.redisSet key value ttlSeconds)) x := by
  unfold tryRedisSet
  split
  · exact fun r => ⟨x, rfl, rfl⟩
  · rfl

theorem ofOtp_shy {code : Auth.Code α} (h : Keeps Auth.shy x code (fun _ _ => True) fun _ => True) :
    Keeps shy x (ofOtp env code) (fun _ _ => True) fun _ => True := by
  refine Follows.translate h fun q x C hq => ?_
  cases q with
  | insertRefreshToken jti userId ttlSeconds =>
    refine Follows.bind tryRedisSet_shy fun _ y hy => ?_
    rw [hy]
    exact hq
  | _ => exact hq

theorem generateTokens_shy {account : Account} :
    Keeps shy x (generateTokens env account) (fun _ _ => True) fun _ => True := by
  refine Follows.translate (shy_confined generateTokens_confined) fun q x C hq => ?_
  cases q with
  | insertRefreshToken jti userId ttlSeconds =>
    refine Follows.bind tryRedisSet_shy fun _ y hy => ?_
    rw [hy]
    exact fun r => hq r
  | _ => exact hq

theorem login_shy {password : String} : Keeps shy x (login env email password) (fun _ _ => True) fun _ => True := by
  refine Keeps.after (Still.await fun _ => rfl) (fun user => ?_) trivial
  cases user with
  | none => exact Keeps.throw trivial
  | some user =>
    change Keeps shy x (if _ then _ else if _ then _ else _) _ _
    split
    · exact Keeps.throw trivial
    · split
      · exact Keeps.throw trivial
      · exact Keeps.bind generateTokens_shy fun _ _ _ => Keeps.pure trivial

end Flows

section Definitions
variable (env : Env)

/-- Some of the pending registrations that are expired have been deleted. -/
def Purged (d e : Db) : Prop :=
  ∃ pending, e = { d with auth := d.auth.withPending pending } ∧ pending.next = d.auth.pending.next ∧
    ∀ i, pending.cell i = d.auth.pending.cell i ∨
      pending.cell i = {} ∧ ∀ row, d.auth.pending.committed i = some row → row.expiresAt ≤ d.auth.clock

/-- Sign-up and login. -/
def Request.Signs : Request → Prop
  | .otp (.requestRegistrationOtp _) => True
  | .otp (.resendRegistrationOtp _) => True
  | .otp (.verifyRegistrationOtp _ _) => True
  | .login _ _ => True
  | _ => False

/-- A request for a registration is unaffected where a user has the email or the phone, and where none of the
deleted rows was in its way or one that is left is. -/
def Unaffected (d e : Db) : Request → Prop
  | .otp (.requestRegistrationOtp dto) =>
    HasUser env.toEnv dto d.auth ∨ (Blocked env.toEnv dto d.auth → Blocked env.toEnv dto e.auth)
  | _ => True

/-- What a call comes to, and the users afterwards. -/
abbrev outcomes (c : Client) (r : Request) (d : Db) : Set (Except Failure Result × Table Client User) :=
  Outcomes (anyMove (act env) c) (fun d => d.auth.users) (r.code env).run d

end Definitions

section Calls
variable {r : Request}

theorem Purged.alike (h : Purged d e) (hi : Indexed env.toEnv d.auth.pending) :
    Alike env c d.auth.clock false d e := by
  obtain ⟨pending, rfl, hnext, hcells⟩ := h
  have hcommitted : ∀ {i row}, d.auth.pending.Has i row → d.auth.pending.committed i = some row :=
    fun hr => Table.committed_of_has (fun _ => hi.unlocked.own) hr
  refine ⟨rfl, pending, rfl, ⟨hnext, fun i => ?_⟩, fun i j r r' hr hr' he => ?_, Nat.le_refl _, nofun⟩
  · rcases hcells i with hsame | ⟨hgone, hall⟩
    · exact .inl hsame
    · exact .inr ⟨hgone, hi.unlocked.sole i, fun row hrow => hall row (hcommitted hrow)⟩
  · have hr := hcommitted hr
    have hr' := hcommitted hr'
    rw [hi.lowered i r hr, hi.lowered j r' hr'] at he
    exact hi.unique i j r r' hr hr' he

/-- Calls that are shy come to the same. -/
theorem outcomes_eq (h : Purged d e) (hi : Indexed env.toEnv d.auth.pending)
    (hr : Follows shy (fun _ _ => True) (r.code env).run false) : outcomes env c r d = outcomes env c r e := by
  refine hr.outcomes_eq (shy_mirrored env c d.auth.clock) (shy_mirrored_flip env c d.auth.clock) ?_ (h.alike hi)
  rintro x d e ⟨hsame, pending, hauth, -⟩
  rw [hsame, hauth]
  rfl

end Calls

section Requests
variable {dto : RequestRegistrationOtpDto} {r : Except Failure Result} {users : Table Client User} {α : Type}

/-- Code that issues no tokens has no statement of Redis. -/
theorem translate_embed {p : Prog Auth.Stmt Auth.Answer α}
    (h : Issues (fun q => ∀ jti userId ttlSeconds, q ≠ .insertRefreshToken jti userId ttlSeconds) p) :
    p.translate (otpStatement env) = (p.embed Stmt.auth : Prog Stmt Answer α) := by
  induction p with
  | ret a => rfl
  | call q k ih =>
    have hk : ∀ r, (k r).translate (otpStatement env) = ((k r).embed Stmt.auth : Prog Stmt Answer α) := fun r => ih r (h.2 r)
    have hq := h.1
    cases q with
    | insertRefreshToken jti userId ttlSeconds => exact absurd rfl (hq jti userId ttlSeconds)
    | _ => exact congrArg (Prog.call (Stmt.auth _)) (funext hk)

theorem request_outcomes (hi : Indexed env.toEnv d.auth.pending) :
    (r, users) ∈ outcomes env c (.otp (.requestRegistrationOtp dto)) d ↔ users = d.auth.users ∧
      (r = .error (.conflict "Email or phone already exists") ∨ (∃ e, r = .error (.database e)) ∨
        (r = .ok (.response (otpSent env.toEnv)) ∧ ¬ HasUser env.toEnv dto d.auth ∧ ¬ Blocked env.toEnv dto d.auth)) := by
  have hcode : (ofOtp env (requestRegistrationOtp env.toEnv dto)).run =
      ((requestRegistrationOtp env.toEnv dto).run.embed Stmt.auth : Prog Stmt Answer _) := by
    refine translate_embed ((request_requests env.toEnv dto).mono fun q hq jti userId ttlSeconds hsame => ?_)
    rw [hsame] at hq
    cases hq
  have hview : ∀ (q : Auth.Stmt) (d : Db) (r : Auth.Answer q) (d' : Db), anyMove (act env) c (.auth q) d r d' →
      anyMove (Auth.act env.toEnv) c q d.auth r d'.auth := by
    rintro q d r d' ⟨m, hact⟩
    obtain ⟨⟨r₁, d₁⟩, hrun, heq⟩ := Option.map_eq_some_iff.mp hact
    obtain ⟨⟨r₂, a⟩, hauth, heq'⟩ := Option.map_eq_some_iff.mp hrun
    cases heq'
    cases heq
    exact ⟨m, hauth⟩
  have hlift : ∀ (q : Auth.Stmt) (d : Db) (r : Auth.Answer q) (a : Auth.Db), anyMove (Auth.act env.toEnv) c q d.auth r a →
      ∃ e : Db, anyMove (act env) c (.auth q) d r e ∧ e.auth = a := by
    rintro q d r a ⟨m, hact⟩
    have hrun : run env m c (.auth q) d = some (r, { d with auth := a }) := by
      change (Auth.act env.toEnv m c q d.auth).map _ = _
      rw [hact]
      rfl
    exact ⟨_, ⟨m, congrArg (Option.map _) hrun⟩, rfl⟩
  have hembed : Outcomes (anyMove (act env) c) (fun d => d.auth.users) (ofOtp env (requestRegistrationOtp env.toEnv dto)).run d =
      Outcomes (anyMove (Auth.act env.toEnv) c) Auth.Db.users (requestRegistrationOtp env.toEnv dto).run d.auth := by
    rw [hcode]
    exact outcomes_embed hview hlift
  have hmem : ∀ o : Except Failure Payload, (o, users) ∈ Outcomes (anyMove (act env) c) (fun d => d.auth.users)
      (ofOtp env (requestRegistrationOtp env.toEnv dto)).run d ↔ users = d.auth.users ∧
        (o = alreadyExists ∨ (∃ e, o = .error (.database e)) ∨
          (o = .ok (otpSent env.toEnv) ∧ ¬ HasUser env.toEnv dto d.auth ∧ ¬ Blocked env.toEnv dto d.auth)) := by
    intro o
    rw [hembed]
    exact Auth.request_outcomes hi
  refine outcomes_map.trans ⟨?_, ?_⟩
  · rintro ⟨o, ho, rfl⟩
    obtain ⟨husers, rfl | ⟨e, rfl⟩ | ⟨rfl, hfree⟩⟩ := (hmem o).mp ho
    · exact ⟨husers, .inl rfl⟩
    · exact ⟨husers, .inr (.inl ⟨e, rfl⟩)⟩
    · exact ⟨husers, .inr (.inr ⟨rfl, hfree⟩)⟩
  · rintro ⟨husers, rfl | ⟨e, rfl⟩ | ⟨rfl, hfree⟩⟩
    · exact ⟨_, (hmem alreadyExists).mpr ⟨husers, .inl rfl⟩, rfl⟩
    · exact ⟨_, (hmem (.error (.database e))).mpr ⟨husers, .inr (.inl ⟨e, rfl⟩)⟩, rfl⟩
    · exact ⟨_, (hmem (.ok (otpSent env.toEnv))).mpr ⟨husers, .inr (.inr ⟨rfl, hfree⟩)⟩, rfl⟩

/-- Deleted rows are in the way no more. -/
theorem Purged.blocked (h : Purged d e) (hb : Blocked env.toEnv dto e.auth) : Blocked env.toEnv dto d.auth := by
  obtain ⟨pending, rfl, -, hcells⟩ := h
  obtain ⟨i, row, hrow, hblocks⟩ := hb
  refine ⟨i, row, ?_, hblocks⟩
  rcases hcells i with hsame | ⟨hgone, -⟩
  · exact (congrArg Cell.committed hsame).symm.trans hrow
  · have hnone : pending.committed i = none := congrArg Cell.committed hgone
    cases hnone.symm.trans hrow

theorem Purged.indexed (h : Purged d e) (hi : Indexed env.toEnv d.auth.pending) : Indexed env.toEnv e.auth.pending := by
  obtain ⟨pending, rfl, -, hcells⟩ := h
  have hrows : ∀ {i row}, pending.committed i = some row → d.auth.pending.committed i = some row := by
    intro i row hrow
    rcases hcells i with hsame | ⟨hgone, -⟩
    · exact (congrArg Cell.committed hsame).symm.trans hrow
    · have hnone : pending.committed i = none := congrArg Cell.committed hgone
      cases hnone.symm.trans hrow
  refine ⟨fun i => ?_, fun i row hi' => hi.lowered i row (hrows hi'), fun i j r r' hr hr' => hi.unique i j r r' (hrows hr) (hrows hr')⟩
  rcases hcells i with hsame | ⟨hgone, -⟩
  · exact (congrArg Cell.held hsame).trans (hi.unlocked i)
  · exact congrArg Cell.held hgone

theorem Purged.hasUser (h : Purged d e) : HasUser env.toEnv dto e.auth ↔ HasUser env.toEnv dto d.auth := by
  obtain ⟨pending, rfl, -⟩ := h
  exact Iff.rfl

theorem Purged.users_eq (h : Purged d e) : e.auth.users = d.auth.users := by
  obtain ⟨pending, rfl, -⟩ := h
  rfl

theorem request_iff (hi : Indexed env.toEnv d.auth.pending) (h : Purged d e) :
    outcomes env c (.otp (.requestRegistrationOtp dto)) d = outcomes env c (.otp (.requestRegistrationOtp dto)) e ↔
      HasUser env.toEnv dto d.auth ∨ (Blocked env.toEnv dto d.auth → Blocked env.toEnv dto e.auth) := by
  constructor
  · intro heq
    by_contra haffected
    obtain ⟨hnouser, hblocked⟩ := not_or.mp haffected
    obtain ⟨hd, he⟩ := Classical.not_imp.mp hblocked
    have hsent : (.ok (.response (otpSent env.toEnv)), e.auth.users) ∈ outcomes env c (.otp (.requestRegistrationOtp dto)) e :=
      (request_outcomes (h.indexed hi)).mpr ⟨rfl, .inr (.inr ⟨rfl, fun hu => hnouser (h.hasUser.mp hu), he⟩)⟩
    rw [← heq] at hsent
    obtain ⟨-, hr | ⟨err, hr⟩ | ⟨-, -, hfree⟩⟩ := (request_outcomes hi).mp hsent
    · cases hr
    · cases hr
    · exact hfree hd
  · intro hunaffected
    have hsame : (¬ HasUser env.toEnv dto d.auth ∧ ¬ Blocked env.toEnv dto d.auth) ↔
        (¬ HasUser env.toEnv dto e.auth ∧ ¬ Blocked env.toEnv dto e.auth) := by
      rw [h.hasUser]
      constructor
      · exact fun hfree => ⟨hfree.1, fun hb => hfree.2 (h.blocked hb)⟩
      · exact fun hfree => ⟨hfree.1, fun hb => hfree.2 (hunaffected.resolve_left hfree.1 hb)⟩
    ext ⟨r, users⟩
    rw [request_outcomes hi, request_outcomes (h.indexed hi), h.users_eq, hsame]

end Requests

/-- A response of a call that keeps to the protocol. -/
theorem response_shy {code : Code Payload} (h : Keeps shy false code (fun _ _ => True) fun _ => True) :
    Follows shy (fun _ _ => True) (Result.response <$> code : Code Result).run false := by
  refine Follows.bind h fun o y _ => ?_
  cases o <;> trivial

/-- Whether the expired pending registrations are there shows in no call but a request for a registration, and
there exactly if it is affected. -/
theorem expired_inert_iff {r : Request} (hi : Indexed env.toEnv d.auth.pending) (h : Purged d e) (hr : r.Signs) :
    outcomes env c r d = outcomes env c r e ↔ Unaffected env d e r := by
  have hshy : Unaffected env d e r = True → Follows shy (fun _ _ => True) (r.code env).run false →
      (outcomes env c r d = outcomes env c r e ↔ Unaffected env d e r) := by
    intro htrue hfollows
    rw [htrue]
    exact iff_true_intro (outcomes_eq h hi hfollows)
  cases r with
  | login email password => exact hshy rfl (response_shy login_shy)
  | otp r =>
    cases r with
    | requestRegistrationOtp dto => exact request_iff hi h
    | resendRegistrationOtp email => exact hshy rfl (response_shy (ofOtp_shy (shy_confined resend_confined)))
    | verifyRegistrationOtp email otp => exact hshy rfl (response_shy (ofOtp_shy verify_shy))
    | _ => exact hr.elim
  | _ => exact hr.elim

section Nour

/-- A registration that was never confirmed. -/
def nourPending : PendingRegistration :=
  ⟨"nour@shop.eg", some "+201001234567", "Nour", none, "Secret123/", 10 * minute, 0⟩

/-- The same person asks again, under another address. -/
def nourAgain : RequestRegistrationOtpDto := ⟨"Nour", "nour@mail.eg", "+201001234567", "Secret123", none⟩

/-- The store an hour later. -/
def anHourLater (pending : Table Client PendingRegistration) : Db :=
  { shop with auth := { accounts [omar, mona] with clock := 60 * minute, pending } }

/-- The registration is still there. -/
def uncleaned : Db := anHourLater (.numbered [nourPending])

/-- It has been deleted. -/
def cleaned : Db := anHourLater ⟨2, fun _ => {}, fun _ _ => rfl⟩

theorem uncleaned_pending {i : Nat} {row : PendingRegistration} (h : uncleaned.auth.pending.committed i = some row) :
    i = 1 ∧ row = nourPending := by
  match i with
  | 0 => cases h
  | 1 => exact ⟨rfl, (Option.some.inj h).symm⟩
  | _ + 2 => cases h

theorem uncleaned_indexed : Indexed (openEnv true).toEnv uncleaned.auth.pending where
  unlocked _ := rfl
  lowered _ _ _ := rfl
  unique _ _ _ _ hi hj _ := (uncleaned_pending hi).1.trans (uncleaned_pending hj).1.symm

theorem cleaned_purged : Purged uncleaned cleaned := by
  refine ⟨cleaned.auth.pending, rfl, rfl, fun i => .inr ⟨rfl, fun row hrow => ?_⟩⟩
  rw [(uncleaned_pending hrow).2]
  decide

theorem nour_noUser : ¬ HasUser (openEnv true).toEnv nourAgain uncleaned.auth := by
  rintro ⟨r, hr, hmatch⟩
  have hrows : uncleaned.auth.users.committedRows = [omar, mona] := by decide
  rw [hrows, List.mem_cons, List.mem_singleton] at hr
  obtain ⟨e, he, hlower⟩ | hphone := hmatch
  · rcases hr with rfl | rfl
    · cases he
      exact absurd hlower (by decide)
    · cases he
      exact absurd hlower (by decide)
  · rcases hr with rfl | rfl <;> cases hphone

theorem nour_blocked : Blocked (openEnv true).toEnv nourAgain uncleaned.auth :=
  ⟨1, nourPending, rfl, .inr ⟨rfl, by decide⟩⟩

theorem nour_free : ¬ Blocked (openEnv true).toEnv nourAgain cleaned.auth := by
  rintro ⟨i, row, hrow, -⟩
  cases hrow

/-- Her second request does not come to the same in the two stores. -/
theorem nour_affected :
    Indexed (openEnv true).toEnv uncleaned.auth.pending ∧ Purged uncleaned cleaned ∧
      outcomes (openEnv true) 1 (.otp (.requestRegistrationOtp nourAgain)) uncleaned ≠
        outcomes (openEnv true) 1 (.otp (.requestRegistrationOtp nourAgain)) cleaned := by
  refine ⟨uncleaned_indexed, cleaned_purged, fun hsame => ?_⟩
  obtain huser | hblocked := (expired_inert_iff (r := .otp (.requestRegistrationOtp nourAgain)) uncleaned_indexed cleaned_purged trivial).mp hsame
  · exact nour_noUser huser
  · exact nour_free (hblocked nour_blocked)

/-- She gets an OTP once the expired registration has been deleted, and a conflict or an error of the database
before. -/
theorem nour_conflicts :
    Purged uncleaned cleaned ∧
      (.ok (.response (otpSent (openEnv true).toEnv)), shop.auth.users) ∈
        outcomes (openEnv true) 1 (.otp (.requestRegistrationOtp nourAgain)) cleaned ∧
      ∀ o ∈ outcomes (openEnv true) 1 (.otp (.requestRegistrationOtp nourAgain)) uncleaned,
        o.1 = .error (.conflict "Email or phone already exists") ∨ ∃ e, o.1 = .error (.database e) := by
  refine ⟨cleaned_purged, ?_, ?_⟩
  · exact (request_outcomes (cleaned_purged.indexed uncleaned_indexed)).mpr
      ⟨rfl, .inr (.inr ⟨rfl, fun hu => nour_noUser (cleaned_purged.hasUser.mp hu), nour_free⟩)⟩
  · rintro ⟨r, users⟩ ho
    obtain ⟨-, hr | ⟨err, hr⟩ | ⟨-, -, hfree⟩⟩ := (request_outcomes uncleaned_indexed).mp ho
    · exact .inl hr
    · exact .inr ⟨err, hr⟩
    · exact (hfree nour_blocked).elim

end Nour

end Kayan.Sessions
