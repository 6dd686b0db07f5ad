import Kayan.Lib.RowVersions
import Kayan.Lib.Sequential
import Kayan.Lib.SoleClient
import Kayan.Sessions.Refreshing

/-!
# What a logout promises

A logout that returns has told its user that the token is of no use any more. Each of its statements may fail;
the `catch` for invalid tokens takes the failure of a revocation as well.
-/
namespace Kayan.Sessions
open RowStore Interleave Auth

/-- How the statements of a logout fail, if they do. -/
structure Faults where
  verifyAsync : Option PgError := none
  redisDel : Option PgError := none
  revoke : Option PgError := none

def Faults.at (f : Faults) : Stmt → Option PgError
  | .verifyAsync _ _ => f.verifyAsync
  | .redisDel _ => f.redisDel
  | .revokeRefreshToken _ => f.revoke
  | _ => none

/-- The statements of client `c`, of which those fail that have to. -/
def faulty (env : Env) (f : Faults) (c : Client) : Acts Stmt Answer Db := fun q d r d' =>
  match f.at q with
  | some e => act env (.fail e) c q d = some (r, d')
  | none => ∃ wait draw, act env (.run wait draw) c q d = some (r, d')

/-- The statements of client `c`, all at once and none of which fails. -/
def immediate (env : Env) (c : Client) : Acts Stmt Answer Db := fun q d r d' =>
  (∃ draw, act env (.run 0 draw) c q d = some (r, d')) ∧ Fresh q d

/-- The token is a currently valid refresh token: a refresh with it would succeed now. -/
def Valid (env : Env) (token : String) (d : Db) : Prop :=
  ∃ c r d', Runs (immediate env c) ((Request.refresh token).code env).run d (.ok r) d'

/-- The steps of calls, any of which may fail. -/
def Later (env : Env) (s : State) (e : Taken) (t : State) : Prop := Step (act env) s e t ∧ Fresh e.stmt s.db

/-- No refresh with the token that starts now or later succeeds, whatever calls are made. -/
def Ended (env : Env) (token : String) (d : Db) : Prop :=
  ∀ req xs t c, Trace.Run (Later env) (initial env req d) xs t → req c = .refresh token → ¬ Succeeded c t

/-- A logout that returns has ended the token, if that was valid; it fails where the revocation of a valid token
could not be stored. -/
def Truthful (env : Env) (f : Faults) (c : Client) (token : String) (d : Db) : Prop :=
  ∀ r d', Runs (faulty env f c) (logout env token).run d r d' →
    (r.isOk = true → Valid env token d → Ended env token d') ∧
    (Valid env token d → f.revoke.isSome = true → r.isOk = false)

/-- A token always decodes to the same payload, and one that has expired stays expired. -/
structure Expires (env : Env) : Prop where
  payload : ∀ token secret now later p p', env.verifyAsync token secret now = some p →
    env.verifyAsync token secret later = some p' → p' = p
  stays : ∀ token secret now later latest p, now ≤ later → later ≤ latest →
    env.verifyAsync token secret now = some p → env.verifyAsync token secret later = none →
    env.verifyAsync token secret latest = none

/-- No transaction is open on the refresh tokens. Each row has a `jti` of its own, which was saved. -/
structure Settled (d : Db) : Prop where
  unlocked : d.auth.tokens.Unlocked
  known : Known d
  single : ∀ i j r r', Has d.auth.tokens i r → Has d.auth.tokens j r' → r.jti = r'.jti → i = j

variable {env : Env} {f : Faults} {A : Acts Stmt Answer Db} {c : Client} {token secret message jti : String} {d d' : Db}

section Statements

/-- A token is checked. -/
theorem verifyToken_ensures : Ensures A (· = d) (verifyToken token secret message)
    (fun p d' => A (.verifyAsync token secret) d (.ok (some p)) d')
    fun d' => (∃ e, A (.verifyAsync token secret) d (.error e) d') ∨ A (.verifyAsync token secret) d (.ok none) d' := by
  refine Ensures.bind (Q := fun p d' => A (.verifyAsync token secret) d (.ok p) d') ?_ fun p => ?_
  · refine Ensures.catch (E := fun d' => ∃ e, A (.verifyAsync token secret) d (.error e) d') ?_ fun _ => ?_
    · refine Ensures.await fun d₀ r d' hd hact => ?_
      subst hd
      cases r with
      | ok p => exact hact
      | error e => exact ⟨e, hact⟩
    · exact Ensures.throw fun _ => Or.inl
  · cases p with
    | none => exact Ensures.throw fun _ => Or.inr
    | some p => exact Ensures.pure fun _ => id

/-- Redis is tried. -/
def Tried (A : Acts Stmt Answer Db) (q : Stmt) (d d' : Db) : Prop := d' = d ∨ ∃ r, A q d r d'

theorem tryRedisSet_runs {q : Stmt} {u : Unit} (h : Runs A (tryRedisSet env q) d u d') : Tried A q d d' := by
  unfold tryRedisSet at h
  split at h
  · cases h with
    | call hq hk =>
      cases hk
      exact Or.inr ⟨_, hq⟩
  · cases h
    exact Or.inl rfl

theorem revokeRefreshTokenJti_ensures : Ensures A (· = d) (revokeRefreshTokenJti env jti)
    (fun _ d' => ∃ d₁, Tried A (.redisDel (refreshKey jti)) d d₁ ∧ A (.revokeRefreshToken jti) d₁ (.ok ()) d')
    fun d' => ∃ d₁ e, Tried A (.redisDel (refreshKey jti)) d d₁ ∧ A (.revokeRefreshToken jti) d₁ (.error e) d' := by
  refine Ensures.bind (Q := fun _ d₁ => Tried A (.redisDel (refreshKey jti)) d d₁) (Ensures.lift fun d₀ u d₁ hd h => ?_)
    fun _ => Ensures.await fun d₁ r d' htried hact => ?_
  · subst hd
    exact tryRedisSet_runs h
  · cases r with
    | ok v => exact ⟨d₁, htried, hact⟩
    | error e => exact ⟨d₁, e, htried, hact⟩

/-- A statement that leaves the refresh tokens alone, after some time. -/
structure Passed (d d' : Db) : Prop where
  tokens : d'.auth.tokens = d.auth.tokens
  saved : d'.saved = d.saved
  clock : d.auth.clock ≤ d'.auth.clock

theorem act_passed {q : Stmt} {m : Move} {r : Answer q} (h : act env m c q d = some (r, d'))
    (hq : (∃ token secret, q = .verifyAsync token secret) ∨ ∃ key, q = .redisDel key) : Passed d d' := by
  have hclock := (act_saved h).2
  rcases hq with ⟨token, secret, rfl⟩ | ⟨key, rfl⟩ <;>
  · cases m <;>
    · cases h
      exact ⟨rfl, rfl, hclock⟩

/-- What a token is found to be by a check that has not failed. -/
theorem act_verifies {m : Move} {r : Answer (.verifyAsync token secret)}
    (h : act env m c (.verifyAsync token secret) d = some (r, d')) :
    (∃ e, m = .fail e ∧ r = .error e) ∨ r = .ok (env.verifyAsync token secret d'.auth.clock) := by
  cases m with
  | run wait draw =>
    cases h
    exact Or.inr rfl
  | fail e =>
    cases h
    exact Or.inl ⟨e, rfl, rfl⟩

end Statements

section Validity

/-- A token that decodes and whose row is there. -/
structure Usable (env : Env) (token : String) (p : JwtPayload) (jti : String) (i : Nat) (row : RefreshToken) (d : Db) :
    Prop where
  verified : env.verifyAsync token env.config.jwtRefreshSecret d.auth.clock = some p
  decoded : jtiOf p = some jti
  found : d.auth.tokens.committed i = some row
  named : row.jti = jti

/-- The check of a token at once. -/
theorem immediate_verifies {p : Option JwtPayload} (h : immediate env c (.verifyAsync token secret) d (.ok p) d') :
    p = env.verifyAsync token secret d.auth.clock ∧ d'.auth.tokens = d.auth.tokens := by
  obtain ⟨⟨draw, h⟩, -⟩ := h
  cases h
  exact ⟨rfl, rfl⟩

theorem consume_usable {p : JwtPayload} (hp : env.verifyAsync token env.config.jwtRefreshSecret d.auth.clock = some p)
    (hj : jtiOf p = some jti) : Ensures (immediate env c) (fun d₁ => d₁.auth.tokens = d.auth.tokens)
      (consumeRefreshTokenJti env jti) (fun owner _ => owner.isSome = true → ∃ i row, Usable env token p jti i row d)
      fun _ => True := by
  refine Ensures.bind (Q := fun _ d₁ => d₁.auth.tokens = d.auth.tokens) (Ensures.lift fun d₁ u d₂ hd h => ?_) fun _ =>
    Ensures.await fun d₁ r d₂ hd hact => ?_
  · rcases tryRedisSet_runs h with rfl | ⟨r, ⟨draw, hact⟩, -⟩
    · exact hd
    · exact (act_passed hact (Or.inr ⟨_, rfl⟩)).tokens.trans hd
  · obtain ⟨⟨draw, hact⟩, -⟩ := hact
    cases r with
    | error e => trivial
    | ok owner =>
      intro hsome
      obtain ⟨user, rfl⟩ := Option.isSome_iff_exists.mp hsome
      obtain ⟨i, row, hrow, -, hnamed, -⟩ := act_consumed hact (rfl : Stmt.consumed (.consumeRefreshToken jti) (.ok (some user)) = some jti)
      rw [hd] at hrow
      exact ⟨i, row, hp, hj, hrow, hnamed⟩

theorem refresh_usable : Ensures (immediate env c) (· = d) (refresh env token)
    (fun _ _ => ∃ p jti i row, Usable env token p jti i row d) fun _ => True := by
  refine Ensures.bind (Ensures.conseq verifyToken_ensures (fun _ => id) (fun _ _ => id) fun _ _ => trivial) fun p => ?_
  rcases hj : jtiOf p with - | jti
  · exact Ensures.throw fun _ _ => trivial
  · intro d₁ r d' hchecked
    obtain ⟨hp, htokens⟩ := immediate_verifies hchecked
    refine Ensures.bind (consume_usable hp.symm hj) (fun owner => ?_) d₁ r d' htokens
    cases owner with
    | none => exact Ensures.throw fun _ _ => trivial
    | some owner =>
      refine Ensures.frame fun _ h => ?_
      obtain ⟨i, row, husable⟩ := h rfl
      exact ⟨p, jti, i, row, husable⟩

theorem Valid.usable (h : Valid env token d) : ∃ p jti i row, Usable env token p jti i row d := by
  obtain ⟨c, r, d', hrun⟩ := h
  obtain ⟨o, d₁, hrefresh, hret⟩ := Runs.of_bind hrun
  cases o with
  | error e => cases hret
  | ok body => exact refresh_usable d (.ok body) d₁ rfl hrefresh

end Validity

section Endings
variable {p : JwtPayload} {i : Nat} {row : RefreshToken}

/-- The token has expired since, or its rows cannot be used any more. -/
def Dead (env : Env) (token jti : String) (d d' : Db) : Prop :=
  Known d' ∧ ((∃ now, d.auth.clock ≤ now ∧ now ≤ d'.auth.clock ∧
    env.verifyAsync token env.config.jwtRefreshSecret now = none) ∨ Spent jti d')

theorem Passed.settled (h : Passed d d') (hd : Settled d) : Settled d' := by
  obtain ⟨htokens, hsaved, -⟩ := h
  refine ⟨?_, fun i r => ?_, fun i j r r' => ?_⟩
  · rw [htokens]
    exact hd.unlocked
  · rw [htokens, hsaved]
    exact hd.known i r
  · rw [htokens]
    exact hd.single i j r r'

theorem Passed.trans {d'' : Db} (h : Passed d d') (h' : Passed d' d'') : Passed d d'' :=
  ⟨h'.tokens.trans h.tokens, h'.saved.trans h.saved, Nat.le_trans h.clock h'.clock⟩

theorem faulty_acts {q : Stmt} {r : Answer q} (h : faulty env f c q d r d') : ∃ m, act env m c q d = some (r, d') := by
  unfold faulty at h
  split at h
  · exact ⟨_, h⟩
  · obtain ⟨wait, draw, h⟩ := h
    exact ⟨_, h⟩

theorem faulty_runs {q : Stmt} {r : Answer q} (h : faulty env f c q d r d') (hf : f.at q = none) :
    ∃ wait draw, act env (.run wait draw) c q d = some (r, d') := by
  simpa only [faulty, hf] using h

/-- After a revocation that is stored no row of the token can be used. -/
theorem spent_revoked {m : Move} {u : Unit} (hd : Settled d) (hfound : d.auth.tokens.committed i = some row)
    (hnamed : row.jti = jti) (h : act env m c (.revokeRefreshToken jti) d = some (.ok u, d')) : Known d' ∧ Spent jti d' := by
  have hsaved : d'.saved = d.saved := (act_saved h).1
  rcases act_revoked h (rfl : Stmt.revoked (.revokeRefreshToken jti) (.ok u) = some jti) with ⟨hnone, -⟩ | ⟨k, old, now, hk, -, hold, ht⟩
  · exact absurd hnamed (hnone i row hfound)
  -- a row after the revocation is the revoked one, or it has another `jti`
  have hrows : ∀ j r, Has d'.auth.tokens j r →
      r = { old with revokedAt := some now } ∨ (Has d.auth.tokens j r ∧ r.jti ≠ jti) := by
    rintro j r (hr | ⟨b, v, hr⟩)
    · rw [ht, Table.committed_store (Table.lt_of_committed hk)] at hr
      split at hr
      · exact Or.inl (Option.some.inj hr).symm
      · rename_i hne
        refine Or.inr ⟨Or.inl hr, fun hj => hne ?_⟩
        exact hd.single j k r old (Or.inl hr) (Or.inl hk) (hj.trans hold.symm)
    · rw [ht, (hd.unlocked.store).own] at hr
      cases hr
  refine ⟨fun j r hr => ?_, ?_, fun j r hr hj => ?_⟩
  · rw [hsaved]
    rcases hrows j r hr with rfl | ⟨hr, -⟩
    · exact hd.known k old (Or.inl hk)
    · exact hd.known j r hr
  · rw [hsaved]
    exact hnamed ▸ hd.known i row (Or.inl hfound)
  · rcases hrows j r hr with rfl | ⟨-, hne⟩
    · exact Or.inl rfl
    · exact absurd hj hne

/-- A logout whose check and revocation do not fail ends a valid token. -/
theorem logout_ensures (he : Expires env) (hd : Settled d) (hu : Usable env token p jti i row d)
    (hverify : f.verifyAsync = none) (hrevoke : f.revoke = none) :
    Ensures (faulty env f c) (· = d) (logout env token) (fun _ d' => Dead env token jti d d') fun _ => False := by
  refine Ensures.bind (Q := fun _ d' => Dead env token jti d d')
    (Ensures.catch (E := fun d' => Dead env token jti d d') ?_ fun _ => Ensures.pure fun _ => id) fun _ => Ensures.pure fun _ => id
  refine Ensures.bind (Q := fun p' d₁ => p' = p ∧ Passed d d₁) (verifyToken_ensures.conseq (fun _ => id) ?_ ?_) fun p' => ?_
  · intro p' d₁ h
    obtain ⟨wait, draw, hact⟩ := faulty_runs h hverify
    refine ⟨?_, act_passed hact (Or.inl ⟨_, _, rfl⟩)⟩
    rcases act_verifies hact with ⟨e, he, -⟩ | hr
    · cases he
    · exact he.payload token _ _ _ _ _ hu.verified (Except.ok.inj hr).symm
  · intro d₁ h
    have hnone : faulty env f c (.verifyAsync token env.config.jwtRefreshSecret) d (.ok none) d₁ := by
      rcases h with ⟨e, h⟩ | h
      · obtain ⟨wait, draw, hact⟩ := faulty_runs h hverify
        rcases act_verifies hact with ⟨e', he', -⟩ | hr
        · cases he'
        · cases hr
      · exact h
    obtain ⟨wait, draw, hact⟩ := faulty_runs hnone hverify
    have hpassed := act_passed hact (Or.inl ⟨_, _, rfl⟩)
    refine ⟨(hpassed.settled hd).known, Or.inl ⟨d₁.auth.clock, hpassed.clock, Nat.le_refl _, ?_⟩⟩
    rcases act_verifies hact with ⟨e, he, -⟩ | hr
    · cases he
    · exact (Except.ok.inj hr).symm
  · intro d₁ r d' hd₁ hrun
    obtain ⟨rfl, hpassed⟩ := hd₁
    simp only [hu.decoded] at hrun
    refine revokeRefreshTokenJti_ensures.conseq (fun _ => id) (fun u d' h => ?_) (fun d' h => ?_) d₁ r d' rfl hrun
    · obtain ⟨d₂, htried, hact⟩ := h
      have hpassed₂ : Passed d d₂ := by
        rcases htried with rfl | ⟨r, htried⟩
        · exact hpassed
        · obtain ⟨m, htried⟩ := faulty_acts htried
          exact hpassed.trans (act_passed htried (Or.inr ⟨_, rfl⟩))
      obtain ⟨m, hact⟩ := faulty_acts hact
      have hfound : d₂.auth.tokens.committed i = some row := (congrArg (·.committed i) hpassed₂.tokens).trans hu.found
      obtain ⟨hknown, hspent⟩ := spent_revoked (hpassed₂.settled hd) hfound hu.named hact
      exact ⟨hknown, Or.inr hspent⟩
    · obtain ⟨d₂, e, -, hact⟩ := h
      obtain ⟨wait, draw, hact⟩ := faulty_runs hact hrevoke
      obtain ⟨x, hx, heq⟩ := Option.map_eq_some_iff.mp hact
      obtain ⟨t, -, ht⟩ := Option.map_eq_some_iff.mp hx
      cases ht
      cases heq

end Endings

section Later
variable {req : Client → Request} {xs : List Taken} {s t : State} {ph : Client → Seen} {e : Taken}

/-- What holds of calls and rows in every run. -/
structure Calling (env : Env) (req : Client → Request) (s : State) (ph : Client → Seen) : Prop where
  phase : InPhase (calls env) (ends env) ph s
  asked : ∀ c, (ph c).req = req c
  known : Known s.db

theorem Calling.step (h : Calling env req s ph) (hs : Later env s e t) : Calling env req t (noted Seen.after ph e) where
  phase := (h.phase.noted hs.1).2
  asked c := by
    rcases noted_or Seen.after ph e c with ⟨rfl, hn⟩ | ⟨-, hn⟩
    · rw [hn]
      exact h.asked _
    · rw [hn]
      exact h.asked c
  known := h.known.act hs.2 hs.1.acted

theorem Calling.run (h : Calling env req s ph) (hr : Trace.Run (Later env) s xs t) :
    Calling env req t (xs.foldl (noted Seen.after) ph) := by
  refine (kept_run Seen.after hr ph).preserves (I := fun u => Calling env req u.1 u.2) ?_ h
  rintro ⟨s, ph⟩ e ⟨t, ph'⟩ ⟨hs, rfl⟩ hi
  exact hi.step hs

theorem spent_run (hk : Known s.db) (hs : Spent jti s.db) (hr : Trace.Run (Later env) s xs t) : Spent jti t.db := by
  refine (hr.preserves (I := fun u => Known u.db ∧ Spent jti u.db) ?_ ⟨hk, hs⟩).2
  rintro s e t ⟨hstep, hfresh⟩ ⟨hk, hs⟩
  exact ⟨hk.act hfresh hstep.acted, hs.act hk hfresh hstep.acted⟩

/-- A refresh that has succeeded has found its token valid, and a row of it that could be used. -/
theorem refreshed_later (hk : Known d) (hr : Trace.Run (Later env) (initial env req d) xs t)
    (hc : req c = .refresh token) (hs : Succeeded c t) : ∃ p jti now, d.auth.clock ≤ now ∧
      env.verifyAsync token env.config.jwtRefreshSecret now = some p ∧ jtiOf p = some jti ∧ ¬ Spent jti d := by
  have hstart : Calling env req (initial env req d) (start req) := ⟨fun c => request_keeps (req c), fun _ => rfl, hk⟩
  have hend := hstart.run hr
  obtain ⟨r, hprog⟩ := hs
  obtain ⟨-, -, hsettles⟩ := hend.phase.result hprog r rfl
  simp only [Seen.settles, (hend.asked c).trans hc] at hsettles
  obtain ⟨p, jti, -, -, hverified, hj, hconsumed, -⟩ := hsettles
  obtain ⟨ys, e, zs, u, v, -, hu, hv, -, hce, hq⟩ := noted_trace Seen.verified Stmt.verified (fun _ _ _ => rfl) hr
    (fun h => by cases h) hverified
  obtain ⟨ys', e', zs', u', v', -, hu', hv', -, -, hq'⟩ := noted_trace Seen.consumed Stmt.consumed (fun _ _ _ => rfl) hr
    (fun h => by cases h) hconsumed
  refine ⟨p, jti, v.db.auth.clock, ?_, ?_, hj, fun hspent => ?_⟩
  · have hclock := clock_run (hu.mono fun _ _ _ h => h.1)
    exact Nat.le_trans hclock (act_saved hv.1.acted).2
  · obtain ⟨secret, hstmt, hsome⟩ := act_verified hv.1.acted hq
    have hm := ((hstart.run hu).phase.noted hv.1).1
    rw [hstmt, hce] at hm
    rw [← presents_refresh hm.2 (((hstart.run hu).asked c).trans hc)]
    exact hsome
  · obtain ⟨i, row, hrow, -, hnamed, hrev, hlt, -⟩ := act_consumed hv'.1.acted hq'
    exact (spent_run hk hspent hu').not_live hrow hnamed hrev hlt (act_saved hv'.1.acted).2

theorem Dead.ended {p : JwtPayload} {i : Nat} {row : RefreshToken} (he : Expires env)
    (hu : Usable env token p jti i row d) (hd : Dead env token jti d d') : Ended env token d' := by
  intro req xs t c hr hc hs
  obtain ⟨hk, hdead⟩ := hd
  obtain ⟨p', jti', now, hnow, hverified, hj, hlive⟩ := refreshed_later hk hr hc hs
  rcases hdead with ⟨expired, hle, hle', hnone⟩ | hspent
  · have hstays := he.stays token _ _ _ _ p hle (Nat.le_trans hle' hnow) hu.verified hnone
    cases hverified.symm.trans hstays
  · have hp : p' = p := he.payload token _ _ _ p p' hu.verified hverified
    subst hp
    cases hj.symm.trans hu.decoded
    exact hlive hspent

/-- A valid token has not ended. -/
theorem Valid.not_ended (h : Valid env token d) : ¬ Ended env token d := by
  intro hended
  obtain ⟨c, r, d', hrun⟩ := h
  have hstep (s : State) (q : Stmt) (k : Answer q → Prog Stmt Answer (Except Failure Result)) (r : Answer q) (d' : Db)
      (hp : s.prog c = .call q k) (hact : immediate env c q s.db r d') :
      ∃ m, Later env s ⟨c, m, q, r⟩ ⟨d', Function.update s.prog c (k r)⟩ := by
    obtain ⟨⟨draw, hact⟩, hfresh⟩ := hact
    exact ⟨.run 0 draw, .call hp hact, hfresh⟩
  obtain ⟨xs, t, htrace, hprog, -⟩ := Runs.trace (s := initial env (fun _ => .refresh token) d) hstep hrun
  exact hended _ xs t c htrace rfl ⟨r, hprog⟩

end Later

section Failures
variable {e : PgError} {p : JwtPayload} {i : Nat} {row : RefreshToken}

theorem faulty_succeeds {q : Stmt} {r : Answer q} (hf : f.at q = none) (h : act env (.run 0 0) c q d = some (r, d')) :
    faulty env f c q d r d' := by
  simp only [faulty, hf]
  exact ⟨0, 0, h⟩

theorem faulty_fails {q : Stmt} {r : Answer q} (hf : f.at q = some e) (h : act env (.fail e) c q d = some (r, d')) :
    faulty env f c q d r d' := by
  simpa only [faulty, hf] using h

/-- Where the check fails, a logout returns at once. -/
theorem logout_unchecked (h : f.verifyAsync = some e) :
    Runs (faulty env f c) (logout env token).run d (.ok (.obj [])) d := by
  have hcheck : faulty env f c (.verifyAsync token env.config.jwtRefreshSecret) d (.error e) d := faulty_fails h rfl
  exact .call hcheck .ret

theorem tryRedisDel_runs {key : String} : ∃ d', Runs (faulty env f c) (tryRedisSet env (.redisDel key)) d () d' := by
  unfold tryRedisSet
  split
  · rcases hf : f.redisDel with - | e
    · exact ⟨_, .call (faulty_succeeds (q := .redisDel key) hf rfl) .ret⟩
    · exact ⟨_, .call (faulty_fails (q := .redisDel key) hf rfl) .ret⟩
  · exact ⟨d, .ret⟩

/-- A revocation that fails is caught. -/
theorem logout_unrevoked (hu : Usable env token p jti i row d) (hverify : f.verifyAsync = none) (hrevoke : f.revoke = some e) :
    ∃ d', Runs (faulty env f c) (logout env token).run d (.ok (.obj [])) d' := by
  have hchecks : act env (.run 0 0) c (.verifyAsync token env.config.jwtRefreshSecret) d = some (.ok (some p), d) := by
    rw [← hu.verified]
    rfl
  have hverified : Runs (faulty env f c) (verifyToken token env.config.jwtRefreshSecret "Invalid refresh token").run d (.ok p) d :=
    .call (faulty_succeeds hverify hchecks) .ret
  obtain ⟨d', hredis⟩ : ∃ d', Runs (faulty env f c) (tryRedisSet env (.redisDel (refreshKey jti))) d () d' := tryRedisDel_runs
  have hrevoked : Runs (faulty env f c) (revokeRefreshTokenJti env jti).run d (.error (.database e)) d' :=
    Runs.bind (Runs.bind hredis .ret) (.call (faulty_fails hrevoke rfl) .ret)
  refine ⟨d', Runs.then (Runs.caught (e := .database e) (Runs.then hverified ?_) .ret) .ret⟩
  simp only [hu.decoded]
  exact hrevoked

/-- A logout tells the truth exactly where its token is not valid, or neither the check of the token nor its
revocation fails. -/
theorem logout_truthful_iff (he : Expires env) (hd : Settled d) : Truthful env f c token d ↔
    (Valid env token d → f.verifyAsync = none ∧ f.revoke = none) := by
  constructor
  · intro htruthful hvalid
    have hverify : f.verifyAsync = none := by
      rcases hf : f.verifyAsync with - | e
      · rfl
      · exact absurd ((htruthful _ _ (logout_unchecked hf)).1 rfl hvalid) hvalid.not_ended
    refine ⟨hverify, ?_⟩
    rcases hf : f.revoke with - | e
    · rfl
    · obtain ⟨p, jti, i, row, hu⟩ := hvalid.usable
      obtain ⟨d', hrun⟩ := logout_unrevoked (c := c) hu hverify hf
      cases (htruthful _ _ hrun).2 hvalid (hf ▸ rfl)
  · intro hf r d' hrun
    refine ⟨fun hok hvalid => ?_, fun hvalid hrevoke => ?_⟩
    · obtain ⟨hverify, hrevoke⟩ := hf hvalid
      obtain ⟨p, jti, i, row, hu⟩ := hvalid.usable
      have hdead := logout_ensures he hd hu hverify hrevoke d r d' rfl hrun
      cases r with
      | ok body => exact Dead.ended he hu hdead
      | error e => cases hok
    · rw [(hf hvalid).2] at hrevoke
      cases hrevoke

end Failures

section Fixtures

theorem openEnv_expires {b : Bool} : Expires (openEnv b) where
  payload token secret now later p p' h h' := by
    obtain ⟨x, hx, hp⟩ := Option.bind_eq_some_iff.mp h
    obtain ⟨x', hx', hp'⟩ := Option.bind_eq_some_iff.mp h'
    cases hx.symm.trans hx'
    split at hp
    · split at hp'
      · exact Option.some.inj (hp'.symm.trans hp)
      · cases hp'
    · cases hp
  stays token secret now later latest p hle hle' h hlater := by
    obtain ⟨x, hx, hp⟩ := Option.bind_eq_some_iff.mp h
    simp only [openEnv, hx, Option.bind_some] at hlater ⊢
    split at hp
    · rename_i hvalid
      split at hlater
      · cases hlater
      · rename_i hexpired
        exact if_neg fun hlatest => hexpired ⟨hvalid.1, by omega⟩
    · cases hp

/-- Mona is signed in. -/
def signedIn : Db :=
  { shop with
    auth := { shop.auth with tokens := .numbered [{ jti := "token", userId := 1, expiresAt := 30 * day }] }
    saved := ["token"] }

theorem signedIn_has {i : Nat} {r : RefreshToken} (h : Has signedIn.auth.tokens i r) : i = 1 ∧ r.jti = "token" := by
  rcases h with h | ⟨c, v, h⟩
  · match i with
    | 1 =>
      cases h
      exact ⟨rfl, rfl⟩
  · cases h

theorem signedIn_settled : Settled signedIn where
  unlocked _ := rfl
  known _ _ h := (signedIn_has h).2 ▸ List.mem_cons_self
  single _ _ _ _ h h' _ := (signedIn_has h).1.trans (signedIn_has h').1.symm

theorem signedIn_valid : Valid (openEnv true) (refreshOf mona "token") signedIn := by
  have halone : ((((Request.refresh (refreshOf mona "token")).code (openEnv true)).run.alone (fun q d =>
      if q.saves.all fun jti => jti ∉ d.saved then act (openEnv true) (.run 0 1) 0 q d else none) signedIn).map
        fun x => x.1.isOk) = some true := by
    decide +kernel
  obtain ⟨⟨r, d'⟩, hrun, hok⟩ := Option.map_eq_some_iff.mp halone
  cases r with
  | error e => cases hok
  | ok body =>
    refine ⟨0, body, d', Runs.of_alone (fun q d r d' h => ?_) hrun⟩
    split at h
    · rename_i hfresh
      refine ⟨⟨1, h⟩, fun jti hj => ?_⟩
      rw [hj] at hfresh
      exact of_decide_eq_true hfresh
    · cases h

theorem logout_truthful_signedIn : Valid (openEnv true) (refreshOf mona "token") signedIn ∧
    Truthful (openEnv true) { redisDel := some .connection } 0 (refreshOf mona "token") signedIn :=
  ⟨signedIn_valid, (logout_truthful_iff openEnv_expires signedIn_settled).mpr fun _ => ⟨rfl, rfl⟩⟩

/-- The connection is lost when the revocation is to be stored. -/
theorem logout_lies : Settled signedIn ∧ Valid (openEnv true) (refreshOf mona "token") signedIn ∧
    ¬ Truthful (openEnv true) { revoke := some .connection } 0 (refreshOf mona "token") signedIn := by
  refine ⟨signedIn_settled, signedIn_valid, fun h => ?_⟩
  obtain ⟨p, jti, i, row, hu⟩ := signedIn_valid.usable
  obtain ⟨d', hrun⟩ := logout_unrevoked (c := 0) (f := { revoke := some .connection }) hu rfl rfl
  cases (h _ _ hrun).2 signedIn_valid rfl

end Fixtures

end Kayan.Sessions
