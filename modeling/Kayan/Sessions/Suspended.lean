import Kayan.Sessions.Admins
import Kayan.Sessions.Jtis

/-!
# Suspended accounts

`login`, `refresh` and `resetPassword` check the status of an account; `validate` does not, and
`updateUserStatus` leaves the version of the user. So a suspended user is locked out where no
token of that version is in use, and only there.
-/
namespace Kayan.Sessions
open Interleave Auth Versions

/-- The statement of `updateUserStatus` that pauses or bans the user. -/
def Stmt.suspends (u : Nat) : (q : Stmt) → Answer q → Bool
  | .updateStatus status userId, .ok (some _) => userId = u && status ≠ .active
  | _, _ => false

/-- The statement that sets the status of the user back. -/
def Stmt.activates (u : Nat) : Stmt → Bool
  | .updateStatus .active userId => userId = u
  | _ => false

/-- The result is an accepted request of the user, or a response with a token for the user. -/
def Result.serves (env : Env) (u : Nat) (r : Result) : Prop :=
  (∃ v, r = .user v ∧ v.sub = u) ∨ ∃ token secret now payload, r.bears token ∧
    env.verifyAsync token secret now = some payload ∧ toPositiveInt (Fields.get "sub" payload) = some u

/-- No call that is still running has served the user since then. -/
def LockedOut (env : Env) (u : Nat) (s t : State) : Prop :=
  ∀ c r, t.prog c = .ret (.ok r) → r.serves env u → s.prog c = .ret (.ok r)

/-- A step that does not set the status of the user back. -/
def Stays (env : Env) (u : Nat) (s : State) (e : Taken) (t : State) : Prop :=
  Honest env s e t ∧ e.stmt.activates u = false

/-- Nothing of the user's current version is in use: no unexpired access token has that version,
and no running call has checked such a token or has read the account while it was active. -/
structure Lapsed (env : Env) (u : Nat) (s : State) (ph : Client → Seen) : Prop where
  tokens : ∀ b r token payload now, s.prog b = .ret (.ok r) → r.bears token → s.db.auth.clock ≤ now →
    env.verifyAsync token env.config.jwtAccessSecret now = some payload →
    toPositiveInt (Fields.get "sub" payload) = some u → hasVersion (s.db.standing u).creds.version payload = false
  checks : ∀ c token payload, (s.prog c).ended = false → (ph c).req = .authenticate token →
    (ph c).verified = some (token, payload) → toPositiveInt (Fields.get "sub" payload) = some u →
    hasVersion (s.db.standing u).creds.version payload = false
  reads : ∀ c a, (s.prog c).ended = false → (ph c).account = some a → a.status = .active → a.id ≠ u

variable {env : Env} {req : Client → Request} {d : Db} {s t v : State} {e : Taken} {xs ys zs : List Taken}
  {ph : Client → Seen} {payload : JwtPayload} {u : Nat} {c : Client}

section Versions

/-- Credentials only go forward, over whole runs. -/
theorem creds_run (hdec : Decodes env) (hi : Inv env req s ph) (hr : Trace.Run (Honest env) s xs t) :
    (s.db.standing u).creds ≤ (t.db.standing u).creds := by
  refine ((kept_run Seen.after hr ph).preserves
    (I := fun w => Inv env req w.1 w.2 ∧ (s.db.standing u).creds ≤ (w.1.db.standing u).creds) ?_
      ⟨hi, le_refl _⟩).2
  rintro ⟨s', ph⟩ e ⟨t, ph'⟩ ⟨hs, rfl⟩ ⟨hi, h⟩
  refine ⟨hi.step hdec hs, le_trans h ?_⟩
  rw [(act_standing hs.1.acted hi.users).2 u]
  exact creds_le_restand

theorem ended_run {res : Except Failure Result} (hr : Trace.Run (Honest env) s xs t) (hc : s.prog c = .ret res) :
    t.prog c = .ret res := by
  induction hr with
  | refl => exact hc
  | step h _ ih => exact ih (h.1.not_ended hc).2

/-- A call that is still running has not been compared with a row yet. -/
theorem Inv.unshown (h : Inv env req s ph) (hc : (s.prog c).ended = false) : (ph c).shown = none := by
  have hf := h.phase c
  rcases hp : s.prog c with res | ⟨q, k⟩
  · rw [hp] at hc
    cases hc
  · rw [hp] at hf
    obtain ⟨y, ⟨hm, -⟩, -⟩ := hf (.error .connection)
    exact hm.1

/-- A token that is out has no later version than its user. -/
theorem Inv.version_le (hdec : Decodes env) (h : Inv env req s ph) (ho : Out env s payload)
    (hsub : toPositiveInt (Fields.get "sub" payload) = some u) {n : Nat} (hn : hasVersion n payload = true) :
    n ≤ (s.db.standing u).creds.version := by
  obtain ⟨b, a, jti, ha, -, rfl⟩ := h.out hdec ho
  obtain rfl : u = a.id := toPositiveInt_toString hsub
  rw [hasVersion_claims] at hn
  rw [← hn]
  exact Versioned.version_le (h.behind b a ha)

/-- A row that a request is compared with after some time has no earlier version. -/
theorem Inv.shown_since (hdec : Decodes env) (h : Inv env req s ph) (hr : Trace.Run (Honest env) s xs t)
    (hc : (ph c).shown = none) {row : TokenRow}
    (hrow : (xs.foldl (noted Seen.after) ph c).shown = some (u, row)) :
    (s.db.standing u).creds.version ≤ row.tokenVersion := by
  have hnone : (ph c).shown ≠ some (u, row) := by
    rw [hc]
    nofun
  obtain ⟨ys, e, zs, w, w', -, hw, hs, -, -, hq⟩ :=
    noted_trace Seen.shown Stmt.shown (fun _ _ _ => rfl) hr hnone hrow
  obtain ⟨user, hcm, -, rfl⟩ := act_shown hs.1.acted hq
  have hle := Versioned.version_le (creds_run (u := u) hdec h hw)
  have hle' := Versioned.version_le (creds_run (u := u) hdec (h.run hdec hw) (.step hs .refl))
  have hcur : (w'.db.standing u).creds.version = user.tokenVersion := by
    rw [Db.standing, hcm]
    rfl
  rw [← hcur]
  exact Nat.le_trans hle hle'

end Versions

section Steps

/-- Only the statement that activates the user makes its status active. -/
theorem restand_suspended {q : Stmt} {r : Answer q} {st : Standing} (hst : st.status ≠ .active)
    (hq : q.activates u = false) : (restand (q.restands r) u st).status ≠ .active := by
  unfold restand
  split
  · rename_i userId f hf
    split
    · rename_i hu
      subst hu
      cases q with
      | updateIsAdmin isAdmin userId =>
        rcases r with e | _ | user <;> cases hf
        exact hst
      | updateStatus status userId =>
        rcases r with e | _ | user <;> cases hf
        intro hs
        have hs : status = .active := hs
        subst hs
        simp [Stmt.activates] at hq
      | deleteUser userId =>
        rcases r with e | _ | _ <;> cases hf
        exact hst
      | _ => cases hf
    · exact hst
  · exact hst

/-- The suspension itself. -/
theorem suspends_restands {q : Stmt} {r : Answer q} (h : q.suspends u r = true) (st : Standing) :
    (restand (q.restands r) u st).status ≠ .active := by
  cases q with
  | updateStatus status userId =>
    rcases r with e | _ | user
    · cases h
    · cases h
    · obtain ⟨hu, hs⟩ := Bool.and_eq_true_iff.mp h
      obtain rfl := of_decide_eq_true hu
      have hself : restand ((Stmt.updateStatus status userId).restands (.ok (some user))) userId st =
          { st with status } := if_pos rfl
      rw [hself]
      exact of_decide_eq_true hs
  | _ => cases h

theorem verified_of_suspends {q : Stmt} {r : Answer q} (h : q.suspends u r = true) : q.verified r = none := by
  cases q with
  | verifyAsync token secret => cases h
  | _ => rfl

/-- A request checks its token with the secret of access tokens. -/
theorem presents_authenticate {x : Seen} {token secret : String} {token' : String}
    (h : x.presents env token secret) (hx : x.req = .authenticate token') :
    secret = env.config.jwtAccessSecret := by
  rcases h with ⟨hp | hp, -⟩ | ⟨-, hs⟩
  · cases hx.symm.trans hp
  · cases hx.symm.trans hp
  · exact hs

/-- What holds of a suspended user and the calls that were running at some time: none has an
active account of that user. -/
structure Suspended (env : Env) (req : Client → Request) (u : Nat) (late : Client → Prop) (s : State)
    (ph : Client → Seen) : Prop where
  inv : Inv env req s ph
  status : (s.db.standing u).status ≠ .active
  reads : ∀ c a, late c → (ph c).account = some a → a.status = .active → a.id ≠ u

theorem Suspended.step {late : Client → Prop} (hdec : Decodes env) (h : Suspended env req u late s ph)
    (hs : Stays env u s e t) : Suspended env req u late t (noted Seen.after ph e) := by
  have hst : (t.db.standing u).status ≠ .active := by
    rw [(act_standing hs.1.1.acted h.inv.users).2 u]
    exact restand_suspended h.status hs.2
  refine ⟨h.inv.step hdec hs.1, hst, fun c a hc ha hact hid => ?_⟩
  rcases h.inv.accounts hs.1.1 c a ha with hcur | ⟨a₀, ha₀, hid₀, hsa⟩
  · apply hst
    rw [← hid, hcur]
    exact hact
  · have hstatus : a₀.status = a.status := congrArg Standing.status hsa
    exact h.reads c a₀ hc ha₀ (hstatus.trans hact) (hid₀.trans hid)

theorem Suspended.run {late : Client → Prop} (hdec : Decodes env) (h : Suspended env req u late s ph)
    (hr : Trace.Run (Stays env u) s xs t) : Suspended env req u late t (xs.foldl (noted Seen.after) ph) := by
  refine (kept_run Seen.after hr ph).preserves (I := fun w => Suspended env req u late w.1 w.2) ?_ h
  rintro ⟨s, ph⟩ e ⟨t, ph'⟩ ⟨hs, rfl⟩ h
  exact h.step hdec hs

/-- A late call hands out no token for the user. -/
theorem Suspended.no_token {late : Client → Prop} (hdec : Decodes env) (h : Suspended env req u late s ph)
    (hl : late c) {r : Result} {token secret : String} {now : Nat} (hr : s.prog c = .ret (.ok r))
    (hb : r.bears token) (hv : env.verifyAsync token secret now = some payload) :
    toPositiveInt (Fields.get "sub" payload) ≠ some u := by
  intro hsub
  obtain ⟨a, jti, secret', ttl, issued, ha, hact, -, -, rfl⟩ := (h.inv.phase.result hr r rfl).1 token hb
  obtain rfl := hdec _ _ _ _ _ _ _ hv
  exact h.reads c a hl ha hact (toPositiveInt_toString hsub).symm

end Steps

/-- After the suspension only calls that were running then are late. -/
theorem Lapsed.suspended (hdec : Decodes env) (hi : Inv env req s ph) (h : Lapsed env u s ph)
    (hs : Honest env s e v) (he : e.stmt.suspends u e.reply = true) :
    Suspended env req u (fun c => (s.prog c).ended = false) v (noted Seen.after ph e) := by
  have hst := suspends_restands he (s.db.standing u)
  have hstand := (act_standing hs.1.acted hi.users).2 u
  refine ⟨hi.step hdec hs, by rwa [hstand], fun c a hl ha hact hid => ?_⟩
  rcases hi.accounts hs.1 c a ha with hcur | ⟨a₀, ha₀, hid₀, hsa⟩
  · apply hst
    rw [← hstand, ← hid, hcur]
    exact hact
  · have hstatus : a₀.status = a.status := congrArg Standing.status hsa
    exact h.reads c a₀ hl ha₀ (hstatus.trans hact) (hid₀.trans hid)

/-- The token of a late request of the user, where it was checked before or after the suspension,
has an earlier version than the user. -/
theorem Lapsed.stale (hdec : Decodes env) (hi : Inv env req s ph) (h : Lapsed env u s ph)
    (hs : Honest env s e v) (he : e.stmt.suspends u e.reply = true) (hzs : Trace.Run (Stays env u) v zs t)
    (hl : (s.prog c).ended = false) {token : String} (hreq : req c = .authenticate token)
    (hver : ((e :: zs).foldl (noted Seen.after) ph c).verified = some (token, payload))
    (hsub : toPositiveInt (Fields.get "sub" payload) = some u) {n : Nat}
    (hn : (s.db.standing u).creds.version ≤ n) : hasVersion n payload = false := by
  -- it is a token that was out before the suspension, and it has lapsed
  have hout : Out env s payload ∧ hasVersion (s.db.standing u).creds.version payload = false := by
    by_cases hold : (noted Seen.after ph e c).verified = some (token, payload)
    · rcases noted_field Seen.verified Stmt.verified (fun _ _ _ => rfl) hold with hold | ⟨-, hnew⟩
      · exact ⟨(hi.sound c _ hold).out, h.checks c token payload hl ((hi.asked c).trans hreq) hold hsub⟩
      · rw [verified_of_suspends he] at hnew
        cases hnew
    · obtain ⟨ys, f, zs', w, w', -, hw, hf, -, rfl, hnew⟩ :=
        noted_trace Seen.verified Stmt.verified (fun _ _ _ => rfl) hzs hold hver
      have hsusp := (h.suspended hdec hi hs he).run hdec hw
      obtain ⟨secret, hstmt, hver'⟩ := act_verified hf.1.1.acted hnew
      obtain ⟨b, r, hb, hr⟩ := hf.1.2 _ hnew
      rcases hp : (s.prog b).ended with _ | _
      · exact absurd hsub (hsusp.no_token hdec hp hb hr hver')
      · obtain ⟨res, hres⟩ := Prog.ended_ret hp
        have hrun : Trace.Run (Honest env) s (e :: ys) w := .step hs (hw.mono fun _ _ _ hs => hs.1)
        cases (ended_run hrun hres).symm.trans hb
        have hle : s.db.auth.clock ≤ w'.db.auth.clock :=
          Nat.le_trans (clock_run (hrun.mono fun _ _ _ hs => hs.1)) (act_saved hf.1.1.acted).2
        refine ⟨⟨b, r, token, secret, _, hres, hr, hver'⟩, h.tokens b r token payload _ hres hr hle ?_ hsub⟩
        have hm := (hsusp.inv.phase.noted hf.1.1).1
        rw [hstmt] at hm
        rw [← presents_authenticate hm.2 ((hsusp.inv.asked _).trans hreq)]
        exact hver'
  rcases hn' : hasVersion n payload with _ | _
  · rfl
  · have hle := hi.version_le hdec hout.1 hsub hn'
    rw [Nat.le_antisymm hle hn, hout.2] at hn'
    cases hn'

/-- In every run without forged tokens: where nothing of a user's version is in use when the user
is suspended, no request of the user is accepted and no token is issued for the user until the
status is set back. -/
theorem suspended_locked_out (hdec : Decodes env) (hd : Starting d)
    (hys : Trace.Run (Honest env) (initial env req d) ys s) (hlapsed : Lapsed env u s (seen req ys))
    (hs : Honest env s e v) (he : e.stmt.suspends u e.reply = true) (hzs : Trace.Run (Stays env u) v zs t) :
    LockedOut env u s t := by
  intro c r hr hserves
  have hi := Inv.reached hdec hd hys
  have hrun : Trace.Run (Honest env) s (e :: zs) t := .step hs (hzs.mono fun _ _ _ hs => hs.1)
  have hsusp := (hlapsed.suspended hdec hi hs he).run hdec hzs
  rcases hl : (s.prog c).ended with _ | _
  · rcases hserves with ⟨v, rfl, rfl⟩ | ⟨token, secret, now, payload, hb, hv, hsub⟩
    · obtain ⟨-, ⟨token, payload, row, hreq, hver, hsub, hshown, hversion, -⟩, -⟩ :=
        hsusp.inv.phase.result hr _ rfl
      have hle := hi.shown_since hdec hrun (hi.unshown hl) hshown
      have hstale := hlapsed.stale hdec hi hs he hzs hl ((hsusp.inv.asked c).symm.trans hreq) hver hsub hle
      rw [hversion] at hstale
      cases hstale
    · exact absurd hsub (hsusp.no_token hdec hl hr hb hv)
  · obtain ⟨res, hres⟩ := Prog.ended_ret hl
    cases (ended_run hrun hres).symm.trans hr
    exact hres

section Fixtures

/-- A step that plays a suspension of user 1: the admin's call only suspends. -/
def suspendingBy (admin : Client) (s : State) (e : Taken) : Bool :=
  genuineBy 8 s e && !e.stmt.activates 1 && (e.client ≠ admin || e.stmt.suspends 1 e.reply)

theorem suspendingBy_stays {admin : Client} (hs : Step (act env) s e t) (h : suspendingBy admin s e = true) :
    Stays env 1 s e t := by
  simp only [suspendingBy, Bool.and_eq_true, Bool.not_eq_true'] at h
  exact ⟨⟨hs, genuineBy_genuine h.1.1⟩, h.1.2⟩

theorem suspendingBy_suspends (h : suspendingBy e.client s e = true) : e.stmt.suspends 1 e.reply = true := by
  simpa [suspendingBy] using (Bool.and_eq_true_iff.mp h).2

/-- Mona logs in, is banned, and sends a request with her token. -/
def suspension : Client → Request
  | 0 => .login "mona@shop.eg" "Secret123"
  | 1 => .updateUserStatus 0 1 .banned
  | _ => .authenticate (accessOf mona)

/-- Her request is accepted. -/
theorem suspended_accepted : ∃ ys s e v zs t,
    Trace.Run (Honest (openEnv false)) (initial (openEnv false) suspension shop) ys s ∧
      Honest (openEnv false) s e v ∧ e.stmt.suspends 1 e.reply = true ∧
      Trace.Run (Stays (openEnv false) 1) v zs t ∧ ¬ LockedOut (openEnv false) 1 s t := by
  have hplay : (replay (act (openEnv false)) (suspendingBy 1) (turns [(0, 5)] ++ (1, .run 0 0) ::
      (turns [(2, 1)] ++ [(2, .run 0 0)])) (initial (openEnv false) suspension shop)).map
        (fun t => (userOf 2 t).map (·.sub)) = some (some 1) := by
    decide +kernel
  obtain ⟨t, ht, hu⟩ := Option.map_eq_some_iff.mp hplay
  obtain ⟨ys, s, hys, -, hs⟩ := replay_steps ht
  obtain ⟨e, v, hc, -, hstep, hok, hv⟩ := replay_step hs
  obtain ⟨zs, w, hzs, -, hw⟩ := replay_steps hv
  obtain ⟨f, w', hf, -, hlast, hok', hw'⟩ := replay_step hw
  cases hw'
  obtain ⟨u, hu, hsub⟩ := Option.map_eq_some_iff.mp hu
  have hstays : Stays (openEnv false) 1 s e v := suspendingBy_stays hstep hok
  have hrun := hzs.mono fun _ _ _ h => suspendingBy_stays h.1 h.2
  have hend : Trace.Run (Stays (openEnv false) 1) w [f] t := .step (suspendingBy_stays hlast hok') .refl
  rw [← hc] at hok
  refine ⟨ys, s, e, v, zs ++ [f], t, hys.mono fun _ _ _ h => (suspendingBy_stays h.1 h.2).1, hstays.1,
    suspendingBy_suspends hok, hrun.append hend, fun hlocked => ?_⟩
  -- the request has ended after the suspension
  have hbefore := hlocked 2 _ (userOf_some hu) (Or.inl ⟨u, rfl, hsub⟩)
  have hafter := ended_run (.step hstays.1 (hrun.mono fun _ _ _ h => h.1)) hbefore
  exact (hlast.not_ended hafter).1 hf.symm

/-- Mona is banned, and then tries to log in. -/
def banned : Client → Request
  | 0 => .updateUserStatus 0 1 .banned
  | _ => .login "mona@shop.eg" "Secret123"

/-- Her login has run, and has not succeeded. -/
theorem suspended_locked_out_banned : ∃ e v zs t,
    Honest (openEnv false) (initial (openEnv false) banned shop) e v ∧ e.stmt.suspends 1 e.reply = true ∧
      Trace.Run (Stays (openEnv false) 1) v zs t ∧ (t.prog 1).ended = true ∧
      ∀ r, t.prog 1 = .ret (.ok r) → ¬ r.serves (openEnv false) 1 := by
  have hplay : (replay (act (openEnv false)) (suspendingBy 0) ((0, .run 0 0) :: turns [(1, 1)])
      (initial (openEnv false) banned shop)).map (fun t => (t.prog 1).ended) = some true := by
    decide +kernel
  obtain ⟨t, ht, hended⟩ := Option.map_eq_some_iff.mp hplay
  obtain ⟨e, v, hc, -, hstep, hok, hv⟩ := replay_step ht
  obtain ⟨zs, t', hzs, ht'⟩ := replay_run (f := fun t => (t.prog 1).ended) (Option.map_eq_some_iff.mpr ⟨t, hv, hended⟩)
  rw [← hc] at hok
  have hstays := hzs.mono fun _ _ _ h => suspendingBy_stays h.1 h.2
  have he := suspendingBy_suspends hok
  have hfirst : ∀ c r, (initial (openEnv false) banned shop).prog c ≠ .ret r := by
    intro c r
    match c with
    | 0 | _ + 1 => nofun
  have hlapsed : Lapsed (openEnv false) 1 (initial (openEnv false) banned shop) (seen banned []) :=
    { tokens := fun b r _ _ _ hb => absurd hb (hfirst b _)
      checks := fun c _ _ _ _ hv => by cases hv
      reads := fun c a _ ha => by cases ha }
  have hs := (suspendingBy_stays hstep hok).1
  refine ⟨e, v, zs, t', hs, he, hstays, ht', fun r hr hserves => ?_⟩
  exact hfirst 1 _ (suspended_locked_out openEnv_decodes shop_starting .refl hlapsed hs he hstays 1 r hr hserves)

end Fixtures

end Kayan.Sessions
