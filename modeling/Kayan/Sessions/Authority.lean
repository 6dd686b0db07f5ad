import Kayan.Lib.Confined
import Kayan.Sessions.LastAdmin

/-!
# Where authority comes from

The admin routes promote, demote, suspend and delete accounts, behind the two guards, and a user deletes
the own account. So every change of an account was asked for with an accepted token, and the rights of
an admin come down, promotion by promotion, from the admins who were there at first.
-/
namespace Kayan.Sessions.Authority
open Interleave Auth

section Routes
variable (env : Env)

/-- The routes that issue tokens, end them, or change an account. -/
inductive Route where
  | otp (req : Auth.Request)
  | login (email password : String)
  | refresh (refreshToken : String)
  | logout (refreshToken : String)
  | bearer (accessToken : String) (action : Action)

def Route.code : Route → Code Result
  | .otp req => (Request.otp req).code env
  | .login email password => (Request.login email password).code env
  | .refresh refreshToken => (Request.refresh refreshToken).code env
  | .logout refreshToken => (Request.logout refreshToken).code env
  | .bearer accessToken action => action.code env accessToken

/-- Every client has its request still to run. -/
def service (routes : Client → Route) (d : Db) : State := ⟨d, fun c => ((routes c).code env).run⟩

end Routes

section Notes

/-- The action is one of the admin's. -/
def official : Action → Bool
  | .deleteMe => false
  | _ => true

/-- The user whose account an action of the caller changes. -/
def subject (caller : Nat) : Action → Nat
  | .promoteAdmin userId | .demoteAdmin userId | .updateUserStatus userId _ | .deleteUser userId => userId
  | .deleteMe => caller

/-- The statement that changes the account. -/
def amendment (caller : Nat) : Action → Stmt
  | .promoteAdmin userId => .updateIsAdmin true userId
  | .demoteAdmin userId => .updateIsAdmin false userId
  | .updateUserStatus userId status => .updateStatus status userId
  | .deleteUser userId => .deleteUser userId
  | .deleteMe => .deleteUser caller

/-- The name of an action in the audit log. -/
def audited : Action → Option String
  | .promoteAdmin _ => some "promote_admin"
  | .demoteAdmin _ => some "demote_admin"
  | .updateUserStatus _ _ => some "update_user_status"
  | .deleteUser _ => some "delete_user"
  | .deleteMe => none

/-- The user whom `AdminGuard` lets through. -/
def cleared : (q : Stmt) → Answer q → Option Nat
  | .selectAdminCheck userId, .ok (some true) => some userId
  | _, _ => none

/-- What the guards have told a request. -/
structure Pass where
  route : Route
  payload : Option JwtPayload := none
  row : Option (Nat × TokenRow) := none
  checked : Option Nat := none

namespace Pass

def after (x : Pass) (q : Stmt) (r : Answer q) : Pass where
  route := x.route
  payload := ((q.verified r).map Prod.snd).or x.payload
  row := (q.shown r).or x.row
  checked := (cleared q r).or x.checked

/-- The token was accepted for the user. -/
def admits (x : Pass) (userId : Nat) : Prop :=
  ∃ payload row, x.payload = some payload ∧ toPositiveInt (Fields.get "sub" payload) = some userId ∧
    x.row = some (userId, row) ∧ hasVersion row.tokenVersion payload = true

/-- The request may change an account so. -/
def mayAmend (x : Pass) (q : Stmt) : Prop :=
  ∃ token action caller, x.route = .bearer token action ∧ amendment caller action = q ∧ x.admits caller ∧
    (official action = true → x.checked = some caller)

variable (env : Env)

/-- Which statements a request may issue. -/
def may (x : Pass) : Stmt → Prop
  | .verifyAsync token secret =>
    ∀ token' action, x.route = .bearer token' action → token = token' ∧ secret = env.config.jwtAccessSecret
  | .selectTokenVersion userId => ∃ payload, x.payload = some payload ∧ toPositiveInt (Fields.get "sub" payload) = some userId
  | .selectAdminCheck userId => x.admits userId
  | .updateIsAdmin isAdmin userId => x.mayAmend (.updateIsAdmin isAdmin userId)
  | .updateStatus status userId => x.mayAmend (.updateStatus status userId)
  | .deleteUser userId => x.mayAmend (.deleteUser userId)
  | .logAdminAction adminId name userId =>
    ∃ token action, x.route = .bearer token action ∧ x.checked = some adminId ∧ audited action = some name ∧
      subject adminId action = userId ∧ x.admits adminId
  | _ => True

end Pass

/-- The protocol of the requests. -/
abbrev protocol (env : Env) : Protocol Stmt Answer Pass := monitored (Pass.may env) Pass.after

/-- The statements of the routes without a bearer token. -/
def Open : Stmt → Prop
  | .selectTokenVersion _ | .selectAdminCheck _ | .updateIsAdmin _ _ | .updateStatus _ _ | .deleteUser _
  | .logAdminAction _ _ _ => False
  | _ => True

/-- The statements that issue and end tokens. -/
def Issuing : Stmt → Prop
  | .auth .randomBytes | .auth .dateNow | .verifyAsync _ _ | .redisSet _ _ _ | .redisDel _ | .selectLogin _
  | .insertRefreshToken _ _ _ | .consumeRefreshToken _ | .revokeRefreshToken _ | .selectAccount _ => True
  | _ => False

theorem Issuing.open {q : Stmt} (h : Issuing q) : Open q := by
  cases q with
  | selectTokenVersion | selectAdminCheck | updateIsAdmin | updateStatus | deleteUser | logAdminAction => exact h
  | _ => trivial

end Notes

section Code
variable {env : Env} {x : Pass} {α : Type} {E : Pass → Prop} {token : String} {action : Action} {userId caller : Nat}

theorem keeps_query {q : Stmt} {Q : Reply q → Pass → Prop} (hm : x.may env q) (h : ∀ r, outcome Q E r (x.after q r)) :
    Keeps (protocol env) x (query q) Q E :=
  Keeps.await fun r => ⟨x.after q r, ⟨hm, rfl⟩, h r⟩

theorem tryRedisSet_issues {H : Stmt → Prop} {op : Stmt} (h : H op) : Issues H (tryRedisSet env op) := by
  unfold tryRedisSet
  split
  · exact ⟨h, fun _ => trivial⟩
  · trivial

theorem saveRefreshTokenJti_issues {H : Stmt → Prop} {jti : String} {ttlSeconds : Nat} {insert : Stmt}
    (hset : H (.redisSet (refreshKey jti) (toString userId) ttlSeconds)) (h : H insert) :
    Issues H (saveRefreshTokenJti env jti userId ttlSeconds insert) :=
  Issues.bind (tryRedisSet_issues hset) fun _ => ⟨h, fun _ => trivial⟩

theorem ofOtp_open {code : Auth.Code α} : Confined Open (ofOtp env code) := by
  refine (Issues.any code.run).translate fun q _ => ?_
  cases q with
  | insertRefreshToken => exact saveRefreshTokenJti_issues trivial trivial
  | _ => exact ⟨trivial, fun _ => trivial⟩

theorem generateTokens_issuing {account : Account} : Confined Issuing (generateTokens env account) := by
  have hsign : Confined (fun q => Issuing (.auth q) ∨ ∃ jti userId ttlSeconds, q = .insertRefreshToken jti userId ttlSeconds)
      (Auth.generateTokens env.toEnv account.id account.email account.isAdmin account.tokenVersion) := by
    refine Confined.bind (Confined.await (Or.inl trivial)) fun jti => ?_
    refine Confined.bind (Confined.await (Or.inl trivial)) fun issued => ?_
    refine Confined.bind (Confined.await (Or.inl trivial)) fun reissued => ?_
    exact Confined.bind (Confined.await (Or.inr ⟨_, _, _, rfl⟩)) fun _ => Confined.pure
  refine Issues.translate hsign fun q hq => ?_
  rcases hq with hq | ⟨jti, userId, ttlSeconds, rfl⟩
  · cases q with
    | randomBytes | dateNow => exact ⟨trivial, fun _ => trivial⟩
    | _ => exact hq.elim
  · exact saveRefreshTokenJti_issues trivial trivial

theorem verifyToken_issuing {secret message : String} : Confined Issuing (verifyToken token secret message) := by
  refine Confined.bind (Confined.catch (Confined.await trivial) fun _ => Confined.throw) fun payload => ?_
  rcases payload with - | payload
  · exact Confined.throw
  · exact Confined.pure

theorem login_issuing {email password : String} : Confined Issuing (login env email password) := by
  refine Confined.bind (Confined.await trivial) fun user => ?_
  rcases user with - | user
  · exact Confined.throw
  · dsimp only
    split
    · exact Confined.throw
    · split
      · exact Confined.throw
      · exact Confined.bind generateTokens_issuing fun _ => Confined.pure

theorem refresh_issuing : Confined Issuing (refresh env token) := by
  refine Confined.bind verifyToken_issuing fun payload => ?_
  split
  · exact Confined.throw
  · rename_i jti hjti
    have hconsume : Confined Issuing (consumeRefreshTokenJti env jti) :=
      Confined.bind (Confined.lift (tryRedisSet_issues trivial)) fun _ => Confined.await trivial
    refine Confined.bind hconsume fun stored => ?_
    rcases stored with - | storedUserId
    · exact Confined.throw
    · dsimp only
      split
      · exact Confined.throw
      · refine Confined.bind (Confined.await trivial) fun user => ?_
        rcases user with - | user
        · exact Confined.throw
        · dsimp only
          split
          · exact Confined.throw
          · exact Confined.bind generateTokens_issuing fun _ => Confined.pure

theorem logout_issuing : Confined Issuing (logout env token) := by
  refine Confined.bind (Confined.catch ?_ fun _ => Confined.pure) fun _ => Confined.pure
  refine Confined.bind verifyToken_issuing fun payload => ?_
  split
  · exact Confined.bind (Confined.lift (tryRedisSet_issues trivial)) fun _ => Confined.await trivial
  · exact Confined.pure

/-- A request without a bearer token passes no guard and needs none. -/
theorem open_follows {code : Code α} (h : Confined Open code) (hx : ∀ token action, x.route ≠ .bearer token action) :
    Follows (protocol env) (fun _ _ => True) code.run x := by
  refine Follows.mono (Issues.within (I := fun y => ∀ token action, y.route ≠ .bearer token action) h ?_ hx)
    fun _ _ _ => trivial
  intro y q r hy hq
  refine ⟨y.after q r, ⟨?_, rfl⟩, hy⟩
  cases q with
  | verifyAsync token secret => exact fun token' action he => absurd he (hy token' action)
  | selectTokenVersion | selectAdminCheck | updateIsAdmin | updateStatus | deleteUser | logAdminAction => exact hq.elim
  | _ => trivial

/-- The rule of `authenticate`: what its two statements lead to. -/
theorem authenticate_rule {X : Type} {P : Protocol Stmt Answer X} {x : X} {V : JwtPayload → X → Prop}
    {Q : AuthUser → X → Prop}
    (hverify : ∀ r : Answer (.verifyAsync token env.config.jwtAccessSecret), ∃ y, P x _ r y ∧
      ∀ payload, r = .ok (some payload) → V payload y)
    (hshow : ∀ payload y n, V payload y → toPositiveInt (Fields.get "sub" payload) = some n →
      ∀ r : Answer (.selectTokenVersion n), ∃ z, P y _ r z ∧ ∀ row : TokenRow, r = .ok (some row) →
        hasVersion row.tokenVersion payload = true → Q ⟨n, row.email, Fields.get "isAdmin" payload, row.tokenVersion⟩ z) :
    Keeps P x (authenticate env token) Q fun _ => True := by
  have htoken : Keeps P x (verifyToken token env.config.jwtAccessSecret "Unauthorized") V fun _ => True := by
    refine Keeps.bind (Q := fun (payload : Option JwtPayload) y => ∀ p, payload = some p → V p y)
      (Keeps.catch (E := fun _ => True) (Keeps.await fun r => ?_) fun _ _ _ => Keeps.throw trivial) fun payload y hy => ?_
    · obtain ⟨y, hp, hy⟩ := hverify r
      refine ⟨y, hp, ?_⟩
      rcases r with e | payload
      · trivial
      · intro p hpayload
        exact hy p (congrArg Except.ok hpayload)
    · rcases payload with - | payload
      · exact Keeps.throw trivial
      · exact Keeps.pure (hy payload rfl)
  refine Keeps.bind htoken fun payload y hy => ?_
  unfold validate
  split
  · split
    · exact Keeps.throw trivial
    · rename_i n hn
      refine Keeps.bind (Q := fun (row : Option TokenRow) z => ∀ r, row = some r →
        hasVersion r.tokenVersion payload = true → Q ⟨n, r.email, Fields.get "isAdmin" payload, r.tokenVersion⟩ z)
        (Keeps.await fun r => ?_) fun row z hz => ?_
      · obtain ⟨z, hp, hz⟩ := hshow payload y n hy hn r
        refine ⟨z, hp, ?_⟩
        rcases r with e | row
        · trivial
        · intro r hrow
          exact hz r (congrArg Except.ok hrow)
      · rcases row with - | row
        · exact Keeps.throw trivial
        · dsimp only
          split
          · exact Keeps.throw trivial
          · rename_i hversion
            exact Keeps.pure (hz row rfl (by simpa using hversion))
  · exact Keeps.throw trivial

/-- A bearer token is accepted for a user. -/
theorem authenticate_keeps (hx : x = { route := .bearer token action }) :
    Keeps (protocol env) x (authenticate env token)
      (fun user y => y.route = .bearer token action ∧ y.admits user.sub) fun _ => True := by
  subst hx
  refine authenticate_rule (V := fun payload y => y.route = .bearer token action ∧ y.payload = some payload)
    (fun r => ⟨_, ⟨?_, rfl⟩, ?_⟩) fun payload y n hy hn r => ⟨_, ⟨⟨payload, hy.2, hn⟩, rfl⟩, ?_⟩
  · intro token' action' he
    cases he
    exact ⟨rfl, rfl⟩
  · rintro payload rfl
    exact ⟨rfl, rfl⟩
  · rintro row rfl hversion
    exact ⟨hy.1, payload, row, hy.2, hn, rfl, hversion⟩

/-- `AdminGuard` lets an admin through. -/
theorem canActivate_keeps {user : AuthUser} (hr : x.route = .bearer token action) (ha : x.admits user.sub) :
    Keeps (protocol env) x (canActivate user)
      (fun _ y => y.route = .bearer token action ∧ y.admits user.sub ∧ y.checked = some user.sub) fun _ => True := by
  refine Keeps.bind (Q := fun (isAdmin : Option Bool) y => y.route = .bearer token action ∧ y.admits user.sub ∧
    (isAdmin = some true → y.checked = some user.sub)) (keeps_query ha fun r => ?_) fun isAdmin y hy => ?_
  · rcases r with e | _ | _ | _
    · trivial
    · exact ⟨hr, ha, fun h => by cases h⟩
    · exact ⟨hr, ha, fun h => by cases h⟩
    · exact ⟨hr, ha, fun _ => rfl⟩
  · split
    · rename_i hyes
      exact Keeps.pure ⟨hy.1, hy.2.1, hy.2.2 hyes⟩
    · exact Keeps.throw trivial

/-- The guards have let the request through for its caller. -/
structure Pass.Vetted (x : Pass) (token : String) (action : Action) (caller : Nat) : Prop where
  route : x.route = .bearer token action
  admits : x.admits caller
  checked : official action = true → x.checked = some caller

theorem Pass.Vetted.amends (h : x.Vetted token action caller) : x.mayAmend (amendment caller action) :=
  ⟨token, action, caller, h.route, rfl, h.admits, h.checked⟩

theorem Pass.Vetted.logs {name : String} (h : x.Vetted token action caller) (ho : official action = true)
    (hn : audited action = some name) : x.may env (.logAdminAction caller name (subject caller action)) :=
  ⟨token, action, h.route, h.checked ho, hn, rfl, h.admits⟩

theorem still_query {q : Stmt} (hm : x.may env q) (h : ∀ r, x.after q r = x) : Still (protocol env) x (query q) :=
  Still.await fun r => ⟨hm, (h r).symm⟩

theorem logAdminAction_still {name : String} (hm : x.may env (.logAdminAction caller name userId)) :
    Still (protocol env) x (logAdminAction caller name userId) :=
  Still.catch (still_query hm fun _ => rfl) fun _ => Still.pure

theorem dropStatus_still : Still (protocol env) x (dropStatus env userId) := by
  unfold dropStatus
  cases env.redisEnabled with
  | false => exact Still.pure
  | true => exact still_query trivial fun _ => rfl

theorem setAdmin_still {isAdmin : Bool} {name : String} (hm : x.may env (.updateIsAdmin isAdmin userId))
    (hl : x.may env (.logAdminAction caller name userId)) :
    Still (protocol env) x (setAdmin caller userId isAdmin name) := by
  refine Still.bind (still_query hm fun _ => rfl) fun updated => ?_
  refine Still.bind (logAdminAction_still hl) fun _ => ?_
  rcases updated with - | user
  · exact Still.throw
  · exact Still.pure

theorem promoteAdmin_still (h : x.Vetted token (.promoteAdmin userId) caller) :
    Still (protocol env) x (promoteAdmin caller userId) := by
  refine Still.bind (still_query trivial fun _ => rfl) fun before => ?_
  rcases before with - | isAdmin
  · exact Still.throw
  · dsimp only
    split
    · exact Still.throw
    · exact setAdmin_still h.amends (h.logs rfl rfl)

theorem demoteAdmin_still (h : x.Vetted token (.demoteAdmin userId) caller) :
    Still (protocol env) x (demoteAdmin caller userId) := by
  unfold demoteAdmin
  split
  · exact Still.throw
  · refine Still.bind (still_query trivial fun _ => rfl) fun before => ?_
    rcases before with - | isAdmin
    · exact Still.throw
    · dsimp only
      split
      · exact Still.throw
      · exact setAdmin_still h.amends (h.logs rfl rfl)

theorem updateUserStatus_still {status : UserStatus} (h : x.Vetted token (.updateUserStatus userId status) caller) :
    Still (protocol env) x (updateUserStatus env caller userId status) := by
  refine Still.bind (still_query h.amends fun _ => rfl) fun updated => ?_
  rcases updated with - | user
  · exact Still.throw
  · refine Still.bind (logAdminAction_still (h.logs rfl rfl)) fun _ => ?_
    exact Still.bind dropStatus_still fun _ => Still.pure

theorem deleteUser_still (h : x.Vetted token (.deleteUser userId) caller) :
    Still (protocol env) x (deleteUser env caller userId) := by
  refine Still.bind (still_query h.amends fun _ => rfl) fun deleted => ?_
  cases deleted with
  | false => exact Still.throw
  | true =>
    refine Still.bind (logAdminAction_still (h.logs rfl rfl)) fun _ => ?_
    exact Still.bind dropStatus_still fun _ => Still.pure

theorem deleteMe_still (h : x.Vetted token .deleteMe caller) : Still (protocol env) x (deleteMe caller) := by
  refine Still.bind (still_query h.amends fun _ => rfl) fun deleted => ?_
  cases deleted with
  | false => exact Still.throw
  | true => exact Still.pure

/-- An action issues its statements behind the guards. -/
theorem perform_keeps {user : AuthUser} (hr : x.route = .bearer token action) (ha : x.admits user.sub) :
    Keeps (protocol env) x (action.perform env user) (fun _ _ => True) fun _ => True := by
  have hofficial : ∀ {code : Code Payload}, (∀ y : Pass, y.Vetted token action user.sub → Still (protocol env) y code) →
      Keeps (protocol env) x (do canActivate user; code) (fun _ _ => True) fun _ => True := by
    intro code hcode
    refine Keeps.bind (canActivate_keeps hr ha) fun _ y hy => ?_
    exact (hcode y ⟨hy.1, hy.2.1, fun _ => hy.2.2⟩).keeps (fun _ => trivial) trivial
  cases action with
  | promoteAdmin userId => exact hofficial fun y hy => promoteAdmin_still hy
  | demoteAdmin userId => exact hofficial fun y hy => demoteAdmin_still hy
  | updateUserStatus userId status => exact hofficial fun y hy => updateUserStatus_still hy
  | deleteUser userId => exact hofficial fun y hy => deleteUser_still hy
  | deleteMe => exact (deleteMe_still ⟨hr, ha, fun h => by cases h⟩).keeps (fun _ => trivial) trivial

variable (env) in
theorem route_follows (route : Route) : Follows (protocol env) (fun _ _ => True) (route.code env).run { route } := by
  cases route with
  | otp req => exact open_follows (Confined.bind ofOtp_open fun _ => Confined.pure) fun _ _ => by simp
  | login email password => exact open_follows (Confined.bind (login_issuing.mono fun _ => Issuing.open) fun _ => Confined.pure) fun _ _ => by simp
  | refresh token => exact open_follows (Confined.bind (refresh_issuing.mono fun _ => Issuing.open) fun _ => Confined.pure) fun _ _ => by simp
  | logout token => exact open_follows (Confined.bind (logout_issuing.mono fun _ => Issuing.open) fun _ => Confined.pure) fun _ _ => by simp
  | bearer token action =>
    have hcode : Keeps (protocol env) { route := .bearer token action } (action.code env token) (fun _ _ => True)
        fun _ => True := by
      refine Keeps.bind (authenticate_keeps rfl) fun user y hy => ?_
      exact Keeps.bind (perform_keeps hy.1 hy.2) fun _ _ _ => Keeps.pure trivial
    exact Follows.mono hcode fun _ _ _ => trivial

end Code

section Runs
variable {env : Env} {routes : Client → Route} {s t u v w : State} {d d' : Db} {e : Taken} {xs ys zs : List Taken}
  {a b n : Nat} {c : Client} {token : String} {notes : Client → Pass}

/-- The user whom a statement makes an admin. -/
def promotes : (q : Stmt) → Answer q → Option Nat
  | .updateIsAdmin true userId, .ok (some _) => some userId
  | _, _ => none

/-- The rights of a user come down from the admins of the first store: each promotion was asked for by a
user who had them when `AdminGuard` looked. -/
inductive Descends (routes : Client → Route) (s : State) : List Taken → Nat → Prop
  | founder {ys : List Taken} {a : Nat} (h : (s.db.standing a).creds.value = true) : Descends routes s ys a
  | promoted {ys ws us zs : List Taken} {g e : Taken} {token : String} {a b : Nat} (h : Descends routes s ws a)
      (hys : ys = ws ++ g :: us ++ e :: zs) (hclient : g.client = e.client) (hguard : cleared g.stmt g.reply = some a)
      (hroute : routes e.client = .bearer token (.promoteAdmin b)) (hpromote : promotes e.stmt e.reply = some b) :
      Descends routes s ys b

theorem Descends.append (h : Descends routes s ys a) : Descends routes s (ys ++ zs) a := by
  cases h with
  | founder h => exact .founder h
  | promoted h hys hclient hguard hroute hpromote =>
    exact .promoted h ((congrArg (· ++ zs) hys).trans (List.append_assoc ..)) hclient hguard hroute hpromote

/-- `AdminGuard` has let the request through for a user whose rights come down from the first admins. -/
def Vouched (routes : Client → Route) (s : State) (ys : List Taken) (c : Client) (a : Nat) : Prop :=
  ∃ ws g us, ys = ws ++ g :: us ∧ g.client = c ∧ cleared g.stmt g.reply = some a ∧ Descends routes s ws a

/-- At some moment of the run the store was so. -/
abbrev Once (env : Env) (s : State) (ys : List Taken) (v : State) (P : Db → Prop) : Prop :=
  Trace.Once (Step (act env)) (fun u => P u.db) s ys v

/-- The token is valid for a user who, at some moment, was not deleted and had its version. -/
def Bears (env : Env) (s : State) (ys : List Taken) (v : State) (token : String) (a : Nat) : Prop :=
  ∃ now payload, env.verifyAsync token env.config.jwtAccessSecret now = some payload ∧
    toPositiveInt (Fields.get "sub" payload) = some a ∧ Once env s ys v fun d => ∃ user,
      d.auth.users.committed a = some user ∧ user.deleted = false ∧ hasVersion user.tokenVersion payload = true

theorem Vouched.append (h : Vouched routes s ys c a) : Vouched routes s (ys ++ zs) c a := by
  obtain ⟨ws, g, us, rfl, hg⟩ := h
  exact ⟨ws, g, us ++ zs, by simp, hg⟩

/-- What the notes of the requests mean in a run. -/
structure Watch (env : Env) (routes : Client → Route) (s : State) (ys : List Taken) (v : State) (notes : Client → Pass) :
    Prop where
  follows : InPhase (protocol env) (fun _ _ => True) notes v
  users : Users v.db.auth.users
  route : ∀ c, (notes c).route = routes c
  payload : ∀ c token action payload, routes c = .bearer token action → (notes c).payload = some payload →
    ∃ now, env.verifyAsync token env.config.jwtAccessSecret now = some payload
  row : ∀ c n row, (notes c).row = some (n, row) → Once env s ys v fun d => ∃ user,
    d.auth.users.committed n = some user ∧ user.deleted = false ∧ user.tokenVersion = row.tokenVersion
  checked : ∀ c a, (notes c).checked = some a → Vouched routes s ys c a
  admins : ∀ a, (v.db.standing a).creds.value = true → Descends routes s ys a

theorem Watch.bears {action : Action} (h : Watch env routes s ys v notes) (hr : routes c = .bearer token action)
    (ha : (notes c).admits a) : Bears env s ys v token a := by
  obtain ⟨payload, row, hp, hsub, hrow, hversion⟩ := ha
  obtain ⟨now, hnow⟩ := h.payload c token action payload hr hp
  refine ⟨now, payload, hnow, hsub, (h.row c a row hrow).mono ?_⟩
  rintro u ⟨user, hc, hd, hv⟩
  refine ⟨user, hc, hd, ?_⟩
  rw [hv]
  exact hversion

/-- Only a promotion makes an admin. -/
theorem admin_or_promoted {q : Stmt} {r : Answer q} {m : Move} (h : act env m c q d = some (r, d'))
    (hu : Users d.auth.users) (ha : (d'.standing a).creds.value = true) :
    (d.standing a).creds.value = true ∨ promotes q r = some a := by
  rw [(act_standing h hu).2 a] at ha
  unfold restand at ha
  split at ha
  · rename_i userId f hf
    split at ha
    · rename_i heq
      subst heq
      cases q with
      | updateIsAdmin isAdmin i =>
        rcases r with e | _ | row
        · cases hf
        · cases hf
        · cases hf
          obtain rfl : isAdmin = true := ha
          exact Or.inr rfl
      | updateStatus status i =>
        rcases r with e | _ | row
        · cases hf
        · cases hf
        · cases hf
          exact Or.inl ha
      | deleteUser i =>
        rcases r with e | _ | _
        · cases hf
        · cases hf
        · cases hf
          exact Or.inl ha
      | _ => cases hf
    · exact Or.inl ha
  · exact Or.inl ha

theorem act_cleared {q : Stmt} {r : Answer q} {m : Move} (h : act env m c q d = some (r, d')) (hc : cleared q r = some a) :
    q = .selectAdminCheck a ∧ (d.standing a).creds.value = true := by
  obtain ⟨d₁, ha, rfl⟩ := act_acted h
  cases ha with
  | otp ha => cases hc
  | fail hq => cases q <;> cases hc
  | run hx =>
    cases q with
    | selectAdminCheck userId =>
      rcases r with e | _ | _ | _
      · cases hc
      · cases hc
      · cases hc
      · obtain rfl := Option.some.inj hc
        refine ⟨rfl, ?_⟩
        have hrow := Except.ok.inj (congrArg Prod.fst (Option.some.inj hx))
        obtain ⟨row, hcommitted, hadmin⟩ := Option.map_eq_some_iff.mp hrow
        have hsame : d.auth.users.committed userId = some row := hcommitted
        rw [Db.standing, hsame]
        exact hadmin
    | _ => cases hc

theorem Watch.step (h : Watch env routes s ys v notes) (hy : Trace.Run (Step (act env)) s ys v)
    (hs : Step (act env) v e w) : Watch env routes s (ys ++ [e]) w (noted Pass.after notes e) := by
  obtain ⟨hm, hfollows⟩ := h.follows.noted hs
  have hrun : Trace.Run (Step (act env)) s (ys ++ [e]) w := hy.append (.step hs .refl)
  constructor
  · exact hfollows
  · exact (act_standing hs.acted h.users).1
  · intro c
    rcases noted_or Pass.after notes e c with ⟨rfl, hn⟩ | ⟨-, hn⟩
    · rw [hn]
      exact h.route e.client
    · rw [hn]
      exact h.route c
  · intro c token action payload hr hp
    rcases noted_field Pass.payload (fun q r => (q.verified r).map Prod.snd) (fun _ _ _ => rfl) hp with hold | ⟨rfl, hnew⟩
    · exact h.payload c token action payload hr hold
    · obtain ⟨⟨token', payload'⟩, hv, rfl⟩ := Option.map_eq_some_iff.mp hnew
      obtain ⟨secret, hq, hverify⟩ := act_verified hs.acted hv
      rw [hq] at hm
      obtain ⟨rfl, rfl⟩ := hm token action ((h.route e.client).trans hr)
      exact ⟨_, hverify⟩
  · intro c n row hr
    rcases noted_field Pass.row Stmt.shown (fun _ _ _ => rfl) hr with hold | ⟨-, hnew⟩
    · exact (h.row c n row hold).later hs
    · obtain ⟨user, hc, hd, rfl⟩ := act_shown hs.acted hnew
      exact Trace.Once.now hrun ⟨user, hc, hd, rfl⟩
  · intro c a ha
    rcases noted_field Pass.checked cleared (fun _ _ _ => rfl) ha with hold | ⟨rfl, hnew⟩
    · exact (h.checked c a hold).append
    · exact ⟨ys, e, [], rfl, rfl, hnew, h.admins a (act_cleared hs.acted hnew).2⟩
  · intro a ha
    rcases admin_or_promoted hs.acted h.users ha with hold | hnew
    · exact (h.admins a hold).append
    -- the promotion was asked for, and the guard has let its caller through
    have hq : e.stmt = .updateIsAdmin true a := by
      revert hnew
      generalize e.stmt = q, e.reply = r
      intro hnew
      unfold promotes at hnew
      split at hnew
      · cases hnew
        rfl
      · cases hnew
    rw [hq] at hm
    obtain ⟨token, action, caller, hroute, hamend, -, hchecked⟩ := hm
    have haction : action = .promoteAdmin a := by
      cases action <;> cases hamend
      rfl
    subst haction
    obtain ⟨ws, g, us, hys, hclient, hguard, hdescends⟩ := h.checked e.client caller (hchecked rfl)
    exact .promoted hdescends (congrArg (· ++ [e]) hys) hclient hguard ((h.route e.client).symm.trans hroute) hnew

theorem watch_initial (hu : Users d.auth.users) : Watch env routes (service env routes d) [] (service env routes d)
    (fun c => { route := routes c }) where
  follows c := route_follows env (routes c)
  users := hu
  route _ := rfl
  payload _ _ _ _ _ h := by cases h
  row _ _ _ h := by cases h
  checked _ _ h := by cases h
  admins _ h := .founder h

theorem watch_run (hu : Users d.auth.users) (hy : Trace.Run (Step (act env)) (service env routes d) ys v) :
    ∃ notes, Watch env routes (service env routes d) ys v notes := by
  refine hy.history (I := fun ys v => ∃ notes, Watch env routes (service env routes d) ys v notes)
    ⟨_, watch_initial hu⟩ ?_
  rintro ys u e v hy ⟨notes, h⟩ hs
  exact ⟨_, h.step hy hs⟩

/-- The guards have let the action through for its caller. -/
def Warranted (env : Env) (routes : Client → Route) (s : State) (ys : List Taken) (v : State) (c : Client) (action : Action)
    (a : Nat) : Prop :=
  ∃ token, routes c = .bearer token action ∧ Bears env s ys v token a ∧
    (official action = true → Vouched routes s ys c a)

theorem Watch.warranted {q : Stmt} (h : Watch env routes s ys v notes) (hm : (notes c).mayAmend q) :
    ∃ action a, Warranted env routes s ys v c action a ∧ q = amendment a action := by
  obtain ⟨token, action, a, hroute, hq, hadmits, hchecked⟩ := hm
  have hr : routes c = .bearer token action := (h.route c).symm.trans hroute
  exact ⟨action, a, ⟨token, hr, h.bears hr hadmits, fun ho => h.checked c a (hchecked ho)⟩, hq.symm⟩

/-- A change of an account is one that the request may make. -/
theorem mayAmend_of_restands {x : Pass} {q : Stmt} {r : Answer q} {f : Standing → Standing} (hm : x.may env q)
    (hr : q.restands r = some (n, f)) : x.mayAmend q := by
  cases q with
  | updateIsAdmin | updateStatus | deleteUser => exact hm
  | _ => cases hr

theorem subject_of_restands {action : Action} {r : Answer (amendment a action)} {f : Standing → Standing}
    (hr : (amendment a action).restands r = some (n, f)) : subject a action = n := by
  cases action with
  | promoteAdmin | demoteAdmin | updateUserStatus =>
    rcases r with e | _ | row
    · cases hr
    · cases hr
    · cases hr
      rfl
  | deleteUser | deleteMe =>
    rcases r with e | _ | _
    · cases hr
    · cases hr
    · cases hr
      rfl

/-- Who has changed accounts in a run, and in whose name. -/
structure Ruled (env : Env) (routes : Client → Route) (s : State) (xs : List Taken) (t : State) : Prop where
  /-- The rights of every admin come down from the first ones. -/
  admins : ∀ a, (t.db.standing a).creds.value = true → Descends routes s xs a
  /-- An account is changed by an action on it, behind the guards. -/
  changes : ∀ ys e zs, xs = ys ++ e :: zs → ∀ n f, e.stmt.restands e.reply = some (n, f) →
    ∃ v action a, Trace.Run (Step (act env)) s ys v ∧ Warranted env routes s ys v e.client action a ∧
      e.stmt = amendment a action ∧ subject a action = n
  /-- The audit log names the admin, the action and its user. -/
  audit : ∀ ys e zs, xs = ys ++ e :: zs → ∀ adminId name n, e.stmt = .logAdminAction adminId name n →
    ∃ v action, Trace.Run (Step (act env)) s ys v ∧ Warranted env routes s ys v e.client action adminId ∧
      audited action = some name ∧ subject adminId action = n

/-- Authority is handed down: whatever requests are interleaved and whichever statements fail, an account is
promoted, demoted, suspended or deleted only for an action on it with an accepted token, which is that of an
admin unless the user deletes the own account; the audit log names that admin and that action; and every
admin's rights come down, promotion by promotion, from an admin of the first store. -/
theorem authority_handed_down (hu : Users d.auth.users)
    (h : Trace.Run (Step (act env)) (service env routes d) xs t) : Ruled env routes (service env routes d) xs t := by
  have hstep : ∀ ys e zs, xs = ys ++ e :: zs → ∃ v notes, Trace.Run (Step (act env)) (service env routes d) ys v ∧
      Watch env routes (service env routes d) ys v notes ∧ (notes e.client).may env e.stmt := by
    rintro ys e zs rfl
    obtain ⟨v, hy, hz⟩ := h.split
    obtain ⟨notes, hn⟩ := watch_run hu hy
    cases hz with
    | step hs _ => exact ⟨v, notes, hy, hn, (hn.follows.noted hs).1⟩
  obtain ⟨notes, hn⟩ := watch_run hu h
  refine ⟨hn.admins, fun ys e zs hx n f hf => ?_, fun ys e zs hx adminId name n hq => ?_⟩
  · obtain ⟨v, notes, hy, hn, hm⟩ := hstep ys e zs hx
    obtain ⟨action, a, hw, hq⟩ := hn.warranted (mayAmend_of_restands hm hf)
    refine ⟨v, action, a, hy, hw, hq, ?_⟩
    obtain ⟨c, m, q, r⟩ := e
    obtain rfl : q = amendment a action := hq
    exact subject_of_restands hf
  · obtain ⟨v, notes, hy, hn, hm⟩ := hstep ys e zs hx
    rw [hq] at hm
    obtain ⟨token, action, hroute, hchecked, hname, hsubject, hadmits⟩ := hm
    have hr : routes e.client = .bearer token action := (hn.route e.client).symm.trans hroute
    exact ⟨v, action, hy, ⟨token, hr, hn.bears hr hadmits, fun _ => hn.checked _ _ hchecked⟩, hname, hsubject⟩

def hala : User :=
  { id := 2, name := "Hala", phone := none, email := some "hala@shop.eg", address := none, passwordHash := "Secret123/" }

/-- Mona is the only admin. -/
def office : Db := ⟨accounts [{ omar with isAdmin := false }, ruling, hala], fun _ => none, []⟩

theorem office_users : Users office.auth.users where
  keyed i r hr := by
    match i with
    | 0 | 1 | 2 =>
      cases hr
      rfl
    | _ + 3 => cases hr
  drafts c i v w hv := by cases hv

/-- She promotes Hala, who then demotes her. -/
def coup : Client → Route
  | 0 => .bearer (accessOf ruling) (.promoteAdmin 2)
  | _ => .bearer (accessOf { hala with isAdmin := true, tokenVersion := 1 }) (.demoteAdmin 1)

theorem authority_handed_down_coup : ∃ xs t,
    Trace.Run (Step (act (openEnv false))) (service (openEnv false) coup office) xs t ∧
      (t.db.standing 2).creds.value = true ∧ (t.db.standing 1).creds.value = false ∧
      Ruled (openEnv false) coup (service (openEnv false) coup office) xs t := by
  have hplay : (replay (act (openEnv false)) (fun _ _ => true) (turns [(0, 6), (1, 6)])
      (service (openEnv false) coup office)).map
        (fun t => ((t.db.standing 2).creds.value, (t.db.standing 1).creds.value)) = some (true, false) := by
    decide +kernel
  obtain ⟨xs, t, hr, ht⟩ := replay_run hplay
  simp only [Prod.mk.injEq] at ht
  have hsteps := hr.mono fun _ _ _ h => h.1
  exact ⟨xs, t, hsteps, ht.1, ht.2, authority_handed_down office_users hsteps⟩

end Runs

end Kayan.Sessions.Authority
