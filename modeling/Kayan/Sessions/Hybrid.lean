import Kayan.Lib.Erasure
import Kayan.Sessions.Jtis
import Kayan.Sessions.Signing

/-!
# Redis only accelerates

With a Redis the state of authentication is kept twice. Postgres is its source: whatever Redis
replies, forgets or refuses, the calls take the statements that they would take without a Redis,
with the same replies. Only the deletion of a cached status may fail a call, after it has done its work.
-/
namespace Kayan.Sessions
open Interleave Auth

section Hybrid

/-- The statements of the calls, and what `AuthStateStore` sends to Redis for the attempts besides. -/
inductive HybridStmt where
  | postgres (q : Stmt)
  | redisGet (key : String)
  | redisSet (key value : String) (ttlSeconds : Nat)
  | redisDel (key : String)

def HybridReply : HybridStmt → Type
  | .postgres q => Reply q
  | .redisGet _ => Option String
  | _ => Unit

abbrev HybridAnswer (q : HybridStmt) : Type := Except PgError (HybridReply q)

def OtpPurpose.text : OtpPurpose → String
  | .registration => "registration"
  | .passwordReset => "password_reset"

def otpAttemptsKey (email : String) (purpose : OtpPurpose) : String := s!"otp_attempts:{email}:{OtpPurpose.text purpose}"

/-- `parseInt(raw, 10)`; `none` is `NaN`. -/
def parseInt (raw : String) : Option Int :=
  let text := raw.toList.dropWhile isSpace
  let (sign, digits) : Int × List Char :=
    match text with
    | '-' :: cs => (-1, cs)
    | '+' :: cs => (1, cs)
    | cs => (1, cs)
  (String.ofList (digits.takeWhile Char.isDigit)).toNat?.map fun n => sign * n

/-- The text of the attempts that `incrementOtpAttempts` writes to Redis. -/
def nextRedisAttempts : Option String → String
  | none => "1"
  | some raw =>
    if raw = "" then "1"
    else match parseInt raw with
      | some n => toString (n + 1)
      | none => "NaN"

variable (env : Env)

/-- `tryRedisSet` with the operation that counts an attempt. -/
def countAttempt (key : String) (ttlSeconds : Nat) : Prog HybridStmt HybridAnswer Unit :=
  if env.redisEnabled then
    .call (.redisGet key) fun
      | .ok raw => .call (.redisSet key (nextRedisAttempts raw) ttlSeconds) fun _ => .ret ()
      | .error _ => .ret ()
  else .ret ()

/-- `tryRedisSet` with the operation that drops the attempts. -/
def dropAttempts (key : String) : Prog HybridStmt HybridAnswer Unit :=
  if env.redisEnabled then .call (.redisDel key) fun _ => .ret () else .ret ()

/-- A statement, with what `AuthStateStore` sends to Redis before it. -/
def hybridStatement : (q : Stmt) → Prog HybridStmt HybridAnswer (HybridAnswer (.postgres q))
  | .auth (.upsertOtpAttempts email purpose ttlSeconds) => do
    countAttempt env (otpAttemptsKey email purpose) ttlSeconds
    .call (.postgres (.auth (.upsertOtpAttempts email purpose ttlSeconds))) .ret
  | .auth (.deleteOtpAttempts email purpose) => do
    dropAttempts env (otpAttemptsKey email purpose)
    .call (.postgres (.auth (.deleteOtpAttempts email purpose))) .ret
  | q => .call (.postgres q) .ret

/-- What resolves a statement: Redis may reply anything. -/
inductive HybridMove where
  | postgres (m : Move)
  | redis (wait : Nat) (raw : Except PgError (Option String)) (done : Except PgError Unit)

def hybridAct : HybridMove → Client → (q : HybridStmt) → Db → Option (HybridAnswer q × Db)
  | .postgres m, c, .postgres q, d => act env m c q d
  | .redis wait raw _, _, .redisGet _, d => some (raw, { d with auth := tick wait d.auth })
  | .redis wait _ done, _, .redisSet _ _ _, d => some (done, { d with auth := tick wait d.auth })
  | .redis wait _ done, _, .redisDel _, d => some (done, { d with auth := tick wait d.auth })
  | _, _, _, _ => none

/-- The calls with a Redis beside Postgres, each still to run. -/
def hybrid (req : Client → Request) (d : Db) : Config Client HybridStmt HybridAnswer (Except Failure Result) Db :=
  ⟨d, fun c => Prog.translate (ρ := Answer) (hybridStatement env) ((req c).code env).run⟩

/-- The same server without a Redis. -/
def Env.withoutRedis : Env := { env with redisEnabled := false }

/-- What the code sends to Redis. -/
def HybridStmt.aux : HybridStmt → Prop
  | .postgres q => q.redis = true
  | _ => True

end Hybrid

section Sheds
variable {env : Env} {α : Type}

/-- The code, and the same code without what it sends to Redis. -/
abbrev Lighter (x y : Code α) : Prop := Sheds (fun q : Stmt => q.redis = true) x y

theorem tryRedisSet_sheds {op : Stmt} (hop : op.redis = true) :
    Erases id (fun q : Stmt => q.redis = true) Eq (tryRedisSet env op) (tryRedisSet env.withoutRedis op) := by
  unfold tryRedisSet
  split
  · exact .skip hop fun _ => .ret rfl
  · exact .ret rfl

theorem saveRefreshTokenJti_sheds {jti : String} {userId ttlSeconds : Nat} (insert : Stmt) :
    Erases id (fun q : Stmt => q.redis = true) Eq (saveRefreshTokenJti env jti userId ttlSeconds insert)
      (saveRefreshTokenJti env.withoutRedis jti userId ttlSeconds insert) :=
  Erases.bind (tryRedisSet_sheds rfl) fun _ _ _ => Erases.refl _

theorem ofOtp_sheds (code : Auth.Code α) : Lighter (ofOtp env code) (ofOtp env.withoutRedis code) := by
  refine Erases.translate_both (fun q => ?_) code.run
  cases q with
  | insertRefreshToken jti userId ttlSeconds =>
    exact saveRefreshTokenJti_sheds (.auth (.insertRefreshToken jti userId ttlSeconds))
  | _ => exact Erases.refl _

theorem generateTokens_sheds {account : Account} :
    Lighter (generateTokens env account) (generateTokens env.withoutRedis account) := by
  refine Erases.translate_both (fun q => ?_) _
  cases q with
  | insertRefreshToken jti userId ttlSeconds =>
    exact saveRefreshTokenJti_sheds (.insertRefreshToken jti userId ttlSeconds)
  | _ => exact Erases.refl _

theorem consumeRefreshTokenJti_sheds {jti : String} :
    Lighter (consumeRefreshTokenJti env jti) (consumeRefreshTokenJti env.withoutRedis jti) :=
  Sheds.bind (Sheds.lift (tryRedisSet_sheds rfl)) fun _ => Sheds.refl _

theorem revokeRefreshTokenJti_sheds {jti : String} :
    Lighter (revokeRefreshTokenJti env jti) (revokeRefreshTokenJti env.withoutRedis jti) :=
  Sheds.bind (Sheds.lift (tryRedisSet_sheds rfl)) fun _ => Sheds.refl _

theorem login_sheds {email password : String} : Lighter (login env email password) (login env.withoutRedis email password) := by
  refine Sheds.bind (Sheds.refl _) fun user => ?_
  rcases user with - | user
  · exact Sheds.refl _
  · dsimp only
    split
    · exact Sheds.refl _
    · have hcompare : env.withoutRedis.compare = env.compare := rfl
      rw [hcompare]
      by_cases hp : (!env.compare password user.passwordHash) = true
      · rw [if_pos hp, if_pos hp]
        exact Sheds.refl _
      · rw [if_neg hp, if_neg hp]
        exact Sheds.bind generateTokens_sheds fun _ => Sheds.refl _

theorem refresh_sheds {token : String} : Lighter (refresh env token) (refresh env.withoutRedis token) := by
  refine Sheds.bind (Sheds.refl _) fun payload => ?_
  split
  · exact Sheds.refl _
  · refine Sheds.bind consumeRefreshTokenJti_sheds fun stored => ?_
    rcases stored with - | storedUserId
    · exact Sheds.refl _
    · dsimp only
      split
      · exact Sheds.refl _
      · refine Sheds.bind (Sheds.refl _) fun user => ?_
        rcases user with - | user
        · exact Sheds.refl _
        · dsimp only
          split
          · exact Sheds.refl _
          · exact Sheds.bind generateTokens_sheds fun _ => Sheds.refl _

theorem logout_sheds {token : String} : Lighter (logout env token) (logout env.withoutRedis token) := by
  refine Sheds.bind (Sheds.catch ?_ fun _ => Sheds.refl _) fun _ => Sheds.refl _
  refine Sheds.bind (Sheds.refl _) fun payload => ?_
  split
  · exact revokeRefreshTokenJti_sheds
  · exact Sheds.refl _

end Sheds

section Requests
variable {env : Env}

/-- The calls that delete a cached status once they are done. -/
def Request.dropsStatus : Request → Bool
  | .updateUserStatus _ _ _ | .deleteUser _ _ => true
  | _ => false

/-- What a call ends with beside a Redis and without one: the same, or the deletion of a cached status has failed. -/
def Answers {α : Type} (drops : Bool) (r r' : Except Failure α) : Prop :=
  r = r' ∨ drops = true ∧ r'.isOk = true ∧ ∃ e, r = .error (.database e)

theorem dropStatus_erases {userId : Nat} {body : Payload} :
    Erases id (fun q : Stmt => q.redis = true) (Answers true) (do dropStatus env userId; pure body : Code Payload).run
      (do dropStatus env.withoutRedis userId; pure body : Code Payload).run := by
  have hoff : dropStatus env.withoutRedis userId = pure () := rfl
  rw [hoff]
  unfold dropStatus
  cases env.redisEnabled with
  | false => exact .ret (Or.inl rfl)
  | true =>
    refine .skip rfl fun reply => ?_
    cases reply with
    | ok v => exact .ret (Or.inl rfl)
    | error e => exact .ret (Or.inr ⟨rfl, rfl, e, rfl⟩)

theorem updateUserStatus_erases {adminId userId : Nat} {status : UserStatus} :
    Erases id (fun q : Stmt => q.redis = true) (Answers true) (updateUserStatus env adminId userId status).run
      (updateUserStatus env.withoutRedis adminId userId status).run := by
  refine Sheds.before (Sheds.refl _) (fun updated => ?_) fun _ => Or.inl rfl
  rcases updated with - | user
  · exact .ret (Or.inl rfl)
  · exact Sheds.before (Sheds.refl _) (fun _ => dropStatus_erases) fun _ => Or.inl rfl

theorem deleteUser_erases {adminId userId : Nat} :
    Erases id (fun q : Stmt => q.redis = true) (Answers true) (deleteUser env adminId userId).run
      (deleteUser env.withoutRedis adminId userId).run := by
  refine Sheds.before (Sheds.refl _) (fun deleted => ?_) fun _ => Or.inl rfl
  cases deleted with
  | false => exact .ret (Or.inl rfl)
  | true => exact Sheds.before (Sheds.refl _) (fun _ => dropStatus_erases) fun _ => Or.inl rfl

/-- The same response, or the same failure. -/
theorem response_erases {drops : Bool} {x y : Code Payload}
    (h : Erases id (fun q : Stmt => q.redis = true) (Answers drops) x.run y.run) :
    Erases id (fun q : Stmt => q.redis = true) (Answers drops) (Result.response <$> x).run (Result.response <$> y).run := by
  refine Erases.bind h fun r r' hr => ?_
  rcases hr with rfl | ⟨hd, hok, e, rfl⟩
  · cases r <;> exact .ret (Or.inl rfl)
  · cases r' with
    | ok body => exact .ret (Or.inr ⟨hd, rfl, e, rfl⟩)
    | error e' => cases hok

/-- Every call, with what it sends to Redis and without. -/
theorem request_erases (req : Request) :
    Erases id (fun q : Stmt => q.redis = true) (Answers req.dropsStatus) (req.code env).run (req.code env.withoutRedis).run := by
  have hsame {α : Type} {x y : Code α} (h : Lighter x y) :
      Erases id (fun q : Stmt => q.redis = true) (Answers false) x.run y.run := Erases.mono h fun _ _ => Or.inl
  cases req with
  | otp req => exact response_erases (hsame (ofOtp_sheds _))
  | login email password => exact response_erases (hsame login_sheds)
  | refresh token => exact response_erases (hsame refresh_sheds)
  | logout token => exact response_erases (hsame logout_sheds)
  | updateUserStatus adminId userId status => exact response_erases updateUserStatus_erases
  | deleteUser adminId userId => exact response_erases deleteUser_erases
  | authenticate token => exact hsame (Sheds.refl _)
  | promoteAdmin | demoteAdmin | deleteMe => exact hsame (Sheds.refl _)

/-- What is sent to Redis stands before the statement. -/
theorem hybridStatement_erases (q : Stmt) :
    Erases HybridStmt.postgres HybridStmt.aux Eq (hybridStatement env q) (.call q .ret) := by
  have hplain : Erases HybridStmt.postgres HybridStmt.aux Eq
      (.call (.postgres q) .ret : Prog HybridStmt HybridAnswer (HybridAnswer (.postgres q))) (.call q .ret) :=
    .call fun _ => .ret rfl
  cases q with
  | auth q =>
    cases q with
    | upsertOtpAttempts email purpose ttlSeconds =>
      change Erases _ _ _ ((countAttempt env _ ttlSeconds).bind _) _
      unfold countAttempt
      split
      · refine .skip trivial fun raw => ?_
        cases raw with
        | ok raw => exact .skip trivial fun _ => hplain
        | error e => exact hplain
      · exact hplain
    | deleteOtpAttempts email purpose =>
      change Erases _ _ _ ((dropAttempts env _).bind _) _
      unfold dropAttempts
      split
      · exact .skip trivial fun _ => hplain
      · exact hplain
    | _ => exact hplain
  | _ => exact hplain

/-- Every call beside a Redis, and what it is without one. -/
theorem hybrid_erases {req : Client → Request} {d e : Db} (c : Client) :
    Erases HybridStmt.postgres HybridStmt.aux (Answers (req c).dropsStatus) ((hybrid env req d).prog c)
      ((initial env.withoutRedis req e).prog c) :=
  Erases.translate (request_erases (req c)) hybridStatement_erases fun _ h => h

end Requests

section Runs
variable {env : Env} {m : Move} {draw : Nat} {c : Client} {q : Stmt} {d d' e : Db} {r : Answer q}

/-- The stores agree but for Redis, and but for the time that its statements have taken. -/
structure Behind (d e : Db) : Prop where
  auth : ∃ gap, d.auth = tick gap e.auth
  saved : d.saved = e.saved

theorem exec_behind (h : exec env draw c q d = some (r, d')) (ha : e.auth = d.auth) (hs : e.saved = d.saved) :
    ∃ e', exec env draw c q e = some (r, e') ∧ e'.auth = d'.auth ∧ e'.saved = d'.saved := by
  obtain ⟨auth, redis, saved⟩ := d
  obtain ⟨auth', redis', saved'⟩ := e
  subst ha hs
  cases q with
  | auth q => cases h
  | insertRefreshToken | consumeRefreshToken | revokeRefreshToken | updateIsAdmin | updateStatus | deleteUser =>
    obtain ⟨x, hx, heq⟩ := Option.map_eq_some_iff.mp h
    cases heq
    exact ⟨_, Option.map_eq_some_iff.mpr ⟨x, hx, rfl⟩, rfl, rfl⟩
  | _ =>
    cases h
    exact ⟨_, rfl, rfl, rfl⟩

theorem tick_tick {wait gap : Nat} {d : Auth.Db} : tick wait (tick gap d) = tick (gap + wait) d := by
  unfold tick
  rw [Nat.add_assoc]

/-- A statement of Postgres replies the same without Redis, once it has waited as long. -/
theorem run_behind (h : run env m c q d = some (r, d')) (hb : Behind d e) :
    ∃ n e', run env n c q e = some (r, e') ∧ Behind d' e' := by
  obtain ⟨⟨gap, ha⟩, hs⟩ := hb
  by_cases hq : ∃ q', q = .auth q'
  · obtain ⟨q', rfl⟩ := hq
    obtain ⟨⟨r', ad⟩, hact, heq⟩ := Option.map_eq_some_iff.mp h
    cases heq
    cases m with
    | run wait draw =>
      refine ⟨.run (gap + wait) draw, { e with auth := ad }, ?_, ⟨0, rfl⟩, hs⟩
      have hsame : Auth.act env.toEnv (.run (gap + wait) draw) c q' e.auth = some (r', ad) := by
        rw [← hact, ha]
        simp only [Auth.act, tick_tick]
      change (Auth.act env.toEnv (.run (gap + wait) draw) c q' e.auth).map _ = _
      rw [hsame]
      rfl
    | fail err =>
      obtain ⟨rfl, rfl⟩ := Auth.act_fail hact
      refine ⟨.fail err, { e with auth := e.auth }, ?_, ⟨gap, ha⟩, hs⟩
      cases q' with
      | rollback => cases hact
      | _ => rfl
  · have hrun (wait draw : Nat) (x : Db) :
        run env (.run wait draw) c q x = exec env draw c q { x with auth := tick wait x.auth } := by
      cases q with
      | auth q' => exact absurd ⟨q', rfl⟩ hq
      | _ => rfl
    have hfail (err : PgError) (x : Db) : run env (.fail err) c q x = some (.error err, x) := by
      cases q with
      | auth q' => exact absurd ⟨q', rfl⟩ hq
      | _ => rfl
    cases m with
    | run wait draw =>
      rw [hrun] at h
      obtain ⟨e', he, hauth, hsaved⟩ := exec_behind (e := { e with auth := tick (gap + wait) e.auth }) h
        (by rw [ha, tick_tick]) hs.symm
      exact ⟨.run (gap + wait) draw, e', (hrun _ _ _).trans he, ⟨0, hauth.symm⟩, hsaved.symm⟩
    | fail err =>
      rw [hfail] at h
      cases h
      exact ⟨.fail err, e, hfail _ _, ⟨gap, ha⟩, hs⟩

theorem act_behind (h : act env m c q d = some (r, d')) (hb : Behind d e) :
    ∃ n e', act env.withoutRedis n c q e = some (r, e') ∧ Behind d' e' := by
  obtain ⟨⟨r', d₁⟩, hrun, heq⟩ := Option.map_eq_some_iff.mp h
  cases heq
  obtain ⟨n, e₁, he, hb₁⟩ := run_behind hrun hb
  refine ⟨n, _, Option.map_eq_some_iff.mpr ⟨(_, e₁), he, rfl⟩, hb₁.auth, ?_⟩
  rw [hb₁.saved]

/-- A statement of Redis is not seen. -/
theorem redis_behind (hq : q.redis = true) (h : act env m c q d = some (r, d')) (hb : Behind d e) : Behind d' e := by
  obtain ⟨⟨gap, ha⟩, hs⟩ := hb
  cases m with
  | run wait draw =>
    cases q with
    | redisSet | redisDel =>
      cases h
      exact ⟨⟨gap + wait, by rw [← tick_tick, ← ha]⟩, hs⟩
    | _ => cases hq
  | fail err =>
    cases q with
    | redisSet | redisDel =>
      cases h
      exact ⟨⟨gap, ha⟩, hs⟩
    | _ => cases hq

theorem hybrid_hides : Hides HybridStmt.postgres HybridStmt.aux (hybridAct env) (act env.withoutRedis) Behind where
  aux {m c q d r d' e} hq hb h := by
    cases q with
    | postgres q =>
      cases m with
      | postgres m => exact redis_behind hq h hb
      | redis => cases h
    | _ =>
      cases m with
      | postgres m => cases h
      | redis wait raw done =>
        cases h
        obtain ⟨⟨gap, ha⟩, hs⟩ := hb
        exact ⟨⟨gap + wait, by rw [← tick_tick, ← ha]⟩, hs⟩
  step {m c q d r d' e} hb h := by
    cases m with
    | postgres m => exact act_behind h hb
    | redis => cases h

/-- Redis only accelerates: in every run beside a Redis that replies, forgets and refuses as it likes, the
statements of Postgres and their replies are those of a run of the same calls without a Redis, which leaves
the same tables. A call that ends has ended the same there, but for the deletion of a cached status, which
may fail an admin's call once it has changed the account. -/
theorem redis_only_accelerates {req : Client → Request} {d : Db} {xs : List (Event Client HybridMove HybridStmt HybridAnswer)}
    {t : Config Client HybridStmt HybridAnswer (Except Failure Result) Db}
    (hr : Trace.Run (Step (hybridAct env)) (hybrid env req d) xs t) :
    ∃ ys u, Trace.Run (Step (act env.withoutRedis)) (initial env.withoutRedis req d) ys u ∧
      Matches HybridStmt.postgres HybridStmt.aux xs ys ∧ Behind t.db u.db ∧
      ∀ c r, t.prog c = .ret r → ∃ r', u.prog c = .ret r' ∧ Answers (req c).dropsStatus r r' := by
  have hstart : Erased HybridStmt.postgres HybridStmt.aux (fun c => Answers (req c).dropsStatus) Behind
      (hybrid env req d) (initial env.withoutRedis req d) := ⟨hybrid_erases, ⟨0, rfl⟩, rfl⟩
  obtain ⟨ys, u, hu, hm, h⟩ := hstart.run hybrid_hides hr
  refine ⟨ys, u, hu, hm, h.db, fun c r hc => ?_⟩
  have hp := h.prog c
  rw [hc] at hp
  generalize hu : u.prog c = p at hp
  cases hp with
  | ret hr => exact ⟨_, rfl, hr⟩

/-- An admin bans Mona, and Redis is down. -/
def banning : Client → Request := fun _ => .updateUserStatus 0 1 .banned

/-- The call fails, and has done what it does without a Redis. -/
theorem redis_only_accelerates_banning : ∃ xs t,
    Trace.Run (Step (hybridAct (openEnv true))) (hybrid (openEnv true) banning shop) xs t ∧
      (t.db.auth.users.committed 1).map (·.status) = some .banned ∧
      ∃ ys u, Trace.Run (Step (act (openEnv true).withoutRedis)) (initial (openEnv true).withoutRedis banning shop) ys u ∧
        Matches HybridStmt.postgres HybridStmt.aux xs ys ∧ Behind t.db u.db ∧
        ∀ c r, t.prog c = .ret r → ∃ r', u.prog c = .ret r' ∧ Answers (banning c).dropsStatus r r' := by
  have hplay : (replay (hybridAct (openEnv true)) (fun _ _ => true)
      [(0, .postgres (.run 0 0)), (0, .postgres (.run 0 0)), (0, .postgres (.fail .connection))]
      (hybrid (openEnv true) banning shop)).map (fun t => (t.db.auth.users.committed 1).map (·.status)) =
        some (some .banned) := by
    decide +kernel
  obtain ⟨xs, t, hr, ht⟩ := replay_run hplay
  have hrun := hr.mono fun _ _ _ h => h.1
  exact ⟨xs, t, hrun, ht, redis_only_accelerates hrun⟩

end Runs

end Kayan.Sessions
