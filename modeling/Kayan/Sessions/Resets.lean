import Kayan.Sessions.Gateway
import Kayan.Sessions.Refreshing
import Kayan.Sessions.Suspended

/-!
# Sessions after a password reset

`resetPassword` passes on the version that it has read, and touches no refresh token but its own.
So the sessions of the user outlive it: what ends them is a new version.
-/
namespace Kayan.Sessions
open Interleave Auth Versions RowStore

/-- The call resets a password. -/
def Request.resets : Request → Bool
  | .otp (.resetPassword _) => true
  | _ => false

/-- The statements of the OTP flows, and the one of Redis among them. -/
def Stmt.ofOtp : Stmt → Bool
  | .auth _ => true
  | .redisSet _ _ _ => true
  | _ => false

/-- A call that resets a password issues only these. -/
def flows : Protocol Stmt Answer Bool := fun resets q _ y => y = resets ∧ (resets = true → q.ofOtp = true)

section Statements
variable {env : Env} {req : Client → Request} {d : Db} {s t : State} {e : Taken} {xs : List Taken} {α : Type}

theorem flows_any (p : Prog Stmt Answer α) : Follows flows (fun _ _ => True) p false := by
  induction p with
  | ret a => trivial
  | call q k ih => exact fun r => ⟨false, ⟨rfl, nofun⟩, ih r⟩

theorem flows_statement (q : Auth.Stmt) : Follows flows (fun _ y => y = true) (otpStatement env q) true := by
  have hcall : ∀ q : Auth.Stmt, Follows flows (fun _ y => y = true) (.call (.auth q) .ret) true :=
    fun q r => ⟨true, ⟨rfl, fun _ => rfl⟩, rfl⟩
  cases q with
  | insertRefreshToken jti userId ttlSeconds =>
    have hset : ∀ op : Stmt, op.ofOtp = true →
        Follows flows (fun _ y => y = true) (tryRedisSet env op) true := by
      intro op hop
      unfold tryRedisSet
      split
      · exact fun r => ⟨true, ⟨rfl, fun _ => hop⟩, rfl⟩
      · rfl
    refine Follows.bind (hset _ rfl) fun _ y hy => ?_
    rw [hy]
    exact hcall _
  | _ => exact hcall _

theorem flows_otp (p : Prog Auth.Stmt Auth.Answer α) :
    Follows flows (fun _ _ => True) (p.translate (otpStatement env)) true := by
  induction p with
  | ret a => trivial
  | call q k ih =>
    refine Follows.bind (flows_statement q) fun r y hy => ?_
    rw [hy]
    exact ih r

theorem request_flows (r : Request) : Follows flows (fun _ _ => True) (r.code env).run r.resets := by
  cases r with
  | otp r =>
    cases r with
    | resetPassword dto =>
      refine Follows.bind (flows_otp _) fun o y _ => ?_
      cases o <;> trivial
    | _ => exact flows_any _
  | _ => exact flows_any _

/-- The calls that reset a password keep to the statements of the OTP flows, in every run. -/
theorem flows_run (hr : Trace.Run (Step (act env)) (initial env req d) xs s) :
    InPhase flows (fun _ _ => True) (fun c => (req c).resets) s := by
  refine hr.preserves (fun s e t hs h => ?_) fun c => request_flows (req c)
  obtain ⟨y, ⟨rfl, -⟩, ht⟩ := h.step hs
  rwa [Function.update_eq_self] at ht

theorem resets_ofOtp (hr : Trace.Run (Step (act env)) (initial env req d) xs s) (hs : Step (act env) s e t)
    (hc : (req e.client).resets = true) : e.stmt.ofOtp = true := by
  obtain ⟨y, ⟨-, hq⟩, -⟩ := (flows_run hr).step hs
  exact hq hc

end Statements

section Rows
variable {env : Env} {m : Move} {draw : Nat} {b c : Client} {d d' : Db} {t t' : Table Client RefreshToken} {i : Nat}
  {v w : Option RefreshToken}

/-- What the OTP flows do to refresh tokens: a row that they write is not revoked, and replaces
one of the same `jti`, if any. -/
inductive FlowWrite (c : Client) (t : Table Client RefreshToken) : Table Client RefreshToken → Prop
  | same : FlowWrite c t t
  | insert {token : RefreshToken} (hn : token.revokedAt = none) : FlowWrite c t (t.insert c token)
  | write {i : Nat} {r token : RefreshToken} (hv : t.view c i = some r) (hj : token.jti = r.jti)
      (hn : token.revokedAt = none) : FlowWrite c t (t.write c i (some token))
  | commit : FlowWrite c t (t.commit c)
  | rollback : FlowWrite c t (t.rollback c)

/-- The rows that open transactions have written are not revoked, and keep the `jti`s. -/
def Drafts (t : Table Client RefreshToken) : Prop :=
  ∀ c i v w, t.own c i = some (v, w) →
    ∃ r, w = some r ∧ r.revokedAt = none ∧ ∀ row, v = some row → r.jti = row.jti

theorem Drafts.view (h : Drafts t) {r row : RefreshToken} (hv : t.view c i = some r)
    (hc : t.committed i = some row) : r.jti = row.jti := by
  rcases ho : t.own c i with _ | ⟨v, w⟩
  · rw [Table.view_of_not_own ho, hc] at hv
    cases hv
    rfl
  · obtain ⟨r', rfl, -, hj⟩ := h c i v w ho
    cases (Table.view_of_own ho).symm.trans hv
    exact hj row ((Table.own_committed ho).symm.trans hc)

/-- A write takes nothing but the row from the others. -/
theorem own_of_own_write (hb : b ≠ c) {j : Nat} {x : Option RefreshToken × Option RefreshToken}
    (h : (t.write c i v).own b j = some x) : t.own b j = some x := by
  simp only [Table.write, Table.set, Table.own] at h
  split at h
  · simp [Cell.own, hb.symm] at h
  · exact h

theorem Drafts.flow (h : Drafts t) (hw : FlowWrite c t t') : Drafts t' := by
  intro b i v w ho
  cases hw with
  | same => exact h b i v w ho
  | @insert token hn =>
    by_cases hb : b = c
    · subst hb
      rw [Table.own_insert] at ho
      split at ho
      · cases ho
        exact ⟨token, rfl, hn, fun row hrow => by cases hrow⟩
      · exact h b i v w ho
    · rw [Table.own_insert_ne hb] at ho
      exact h b i v w ho
  | @write j r token hv hj hn =>
    by_cases hb : b = c
    · subst hb
      rw [Table.own_write (Table.lt_of_view hv)] at ho
      split at ho
      · rename_i hi
        subst hi
        simp only [Option.some.injEq, Prod.mk.injEq] at ho
        obtain ⟨rfl, rfl⟩ := ho
        exact ⟨token, rfl, hn, fun row hrow => hj.trans (h.view hv hrow)⟩
      · exact h b i v w ho
    · exact h b i v w (own_of_own_write hb ho)
  | commit =>
    by_cases hb : b = c
    · subst hb
      rw [Table.own_commit_self] at ho
      cases ho
    · rw [Table.own_commit_ne hb] at ho
      exact h b i v w ho
  | rollback =>
    by_cases hb : b = c
    · subst hb
      rw [Table.own_rollback_self] at ho
      cases ho
    · rw [Table.own_rollback_ne hb] at ho
      exact h b i v w ho

/-- The OTP flows remove and revoke no row. -/
theorem FlowWrite.kept (hw : FlowWrite c t t') (h : Drafts t) {row : RefreshToken}
    (hc : t.committed i = some row) : ∃ row', t'.committed i = some row' ∧ row'.jti = row.jti ∧
      (row' = row ∨ row'.revokedAt = none) := by
  have hsame : t'.committed i = some row → ∃ row', t'.committed i = some row' ∧ row'.jti = row.jti ∧
      (row' = row ∨ row'.revokedAt = none) := fun hc => ⟨row, hc, rfl, Or.inl rfl⟩
  cases hw with
  | same => exact hsame hc
  | insert => exact hsame (Table.committed_insert.trans hc)
  | write => exact hsame (Table.committed_write.trans hc)
  | rollback => exact hsame (Table.committed_rollback.trans hc)
  | commit =>
    rcases ho : t.own c i with _ | ⟨v, w⟩
    · refine hsame ?_
      rw [Table.committed_commit, ho]
      exact hc
    · obtain ⟨r, rfl, hn, hj⟩ := h c i v w ho
      refine ⟨r, ?_, hj row ((Table.own_committed ho).symm.trans hc), Or.inr hn⟩
      rw [Table.committed_commit, ho]
      rfl

theorem otp_flow {env : Auth.Env} {q : Auth.Stmt} {r : Auth.Answer q} {ad ad' : Auth.Db}
    (h : Auth.act env m c q ad = some (r, ad')) : FlowWrite c ad.tokens ad'.tokens := by
  cases m with
  | fail e =>
    rw [(act_fail h).2]
    exact .same
  | run wait draw =>
    obtain ⟨ad₁, hx, rfl⟩ := act_run h
    have hs : FlowWrite c (tick wait ad).tokens ad₁.tokens := by
      cases q with
      | commit =>
        cases hx
        exact .commit
      | rollback =>
        cases hx
        exact .rollback
      | insertRefreshToken jti userId ttlSeconds =>
        simp only [Auth.exec, insertRefreshToken] at hx
        split at hx
        · cases hx
        split at hx
        · rename_i i hk
          cases hx
          obtain ⟨row, hv, hj⟩ := findKey_some hk
          exact .write hv (of_decide_eq_true hj).symm rfl
        · cases hx
          exact .insert rfl
      | _ =>
        rw [otp_tokens_same hx rfl]
        exact .same
    exact hs

/-- The other statements write rows on their own. -/
theorem exec_drafts {q : Stmt} {r : Answer q} (h : exec env draw c q d = some (r, d')) (hd : Drafts d.auth.tokens) :
    Drafts d'.auth.tokens := by
  have hstore : ∀ i v, (d.auth.tokens.cell i).held = none → Drafts (d.auth.tokens.store i v) := by
    intro i v hh b j x w ho
    rw [Table.own_store hh] at ho
    exact hd b j x w ho
  cases q with
  | auth q => cases h
  | insertRefreshToken jti userId ttlSeconds =>
    obtain ⟨t, hx, he⟩ := Option.map_eq_some_iff.mp h
    cases he
    unfold saveToken at hx
    split at hx
    · cases hx
    split at hx
    · split at hx
      · cases hx
      · rename_i hh
        cases hx
        exact hstore _ _ (by simpa using hh)
    · cases hx
      intro b j x w ho
      rw [Db.withTokens, Table.own_append] at ho
      exact hd b j x w ho
  | consumeRefreshToken jti =>
    obtain ⟨⟨owner, t⟩, hx, he⟩ := Option.map_eq_some_iff.mp h
    cases he
    rcases consumeToken_cases hx with ⟨-, rfl⟩ | ⟨i, row, hc, hh, -, -, -, -, rfl⟩
    · exact hd
    · exact hstore i none hh
  | revokeRefreshToken jti =>
    obtain ⟨t, hx, he⟩ := Option.map_eq_some_iff.mp h
    cases he
    rcases revokeToken_cases hx with ⟨-, rfl⟩ | ⟨i, row, hc, hh, -, rfl⟩
    · exact hd
    · exact hstore i _ hh
  | updateIsAdmin | updateStatus | deleteUser =>
    obtain ⟨x, -, he⟩ := Option.map_eq_some_iff.mp h
    cases he
    exact hd
  | _ =>
    cases h
    exact hd

theorem act_drafts {q : Stmt} {r : Answer q} (h : act env m c q d = some (r, d')) (hd : Drafts d.auth.tokens) :
    Drafts d'.auth.tokens := by
  obtain ⟨d₁, ha, rfl⟩ := act_acted h
  cases ha with
  | otp ha => exact hd.flow (otp_flow ha)
  | run hx =>
    have hs := exec_drafts hx hd
    exact hs
  | fail hq => exact hd

/-- A statement of the OTP flows removes and revokes no refresh token. -/
theorem ofOtp_kept {q : Stmt} {r : Answer q} (h : act env m c q d = some (r, d')) (hq : q.ofOtp = true)
    (hd : Drafts d.auth.tokens) {row : RefreshToken} (hc : d.auth.tokens.committed i = some row) :
    ∃ row', d'.auth.tokens.committed i = some row' ∧ row'.jti = row.jti ∧
      (row' = row ∨ row'.revokedAt = none) := by
  obtain ⟨d₁, ha, rfl⟩ := act_acted h
  cases ha with
  | otp ha => exact (otp_flow ha).kept hd hc
  | run hx =>
    cases q with
    | redisSet key value ttlSeconds =>
      cases hx
      exact ⟨row, hc, rfl, Or.inl rfl⟩
    | auth q => cases hx
    | _ => cases hq
  | fail => exact ⟨row, hc, rfl, Or.inl rfl⟩

end Rows

section Runs
variable {env : Env} {req : Client → Request} {d : Db} {s t : State} {e : Taken} {xs ys zs : List Taken}
  {ph : Client → Seen} {payload : JwtPayload} {u : Nat} {a c : Client}

theorem drafts_run (hd : Starting d) (hr : Trace.Run (Step (act env)) (initial env req d) xs s) :
    Drafts s.db.auth.tokens := by
  refine hr.preserves (I := fun s => Drafts s.db.auth.tokens) (fun s e t hs h => act_drafts hs.acted h) ?_
  intro c i v w ho
  have hcell : d.auth.tokens.own c i = none := by simp [Table.own, Cell.own, hd.unissued]
  cases hcell.symm.trans ho

/-- No statement of the OTP flows changes a standing. -/
theorem restands_ofOtp {q : Stmt} {r : Answer q} (hq : q.ofOtp = true) : q.restands r = none := by
  cases q with
  | auth q => rfl
  | redisSet key value ttlSeconds => rfl
  | _ => cases hq

/-- The account that a refresh finds is current. -/
theorem act_found {q : Stmt} {r : Answer q} {d d' : Db} {m : Move} {n : Nat} {account : Account}
    (h : act env m c q d = some (r, d')) (hf : q.found r = some (n, account)) :
    d'.standing n = standingOf account := by
  obtain ⟨d₁, ha, rfl⟩ := act_acted h
  cases ha with
  | otp ha => cases hf
  | run hx =>
    cases q with
    | selectAccount userId =>
      cases hx
      obtain ⟨account', ha, he⟩ := Option.map_eq_some_iff.mp hf
      cases he
      obtain ⟨user, hl, rfl⟩ := Option.map_eq_some_iff.mp ha
      obtain ⟨hc, hd⟩ := liveUser_some hl
      refine (congrArg standing hc).trans ?_
      simp only [standing, standingOf, accountOf, hd]
    | _ => cases hf
  | fail hq => cases q <;> cases hf

/-- A refresh that has succeeded has found its user after it began, with the version of its token. -/
theorem Inv.refresh_since (hdec : Decodes env) (h : Inv env req s ph) (hr : Trace.Run (Honest env) s xs t)
    (hstart : ph c = Seen.start (req c)) {token : String} (hreq : req c = .refresh token)
    (hc : Succeeded c t) : ∃ p userId n, (xs.foldl (noted Seen.after) ph c).verified = some (token, p) ∧
      hasSub userId p = true ∧ hasVersion n p = true ∧ (s.db.standing userId).creds.version ≤ n := by
  have ht := h.run hdec hr
  obtain ⟨r, hres⟩ := hc
  obtain ⟨-, -, hs⟩ := ht.phase.result hres r rfl
  have hasked := (ht.asked c).trans hreq
  simp only [Seen.settles, hasked] at hs
  obtain ⟨p, jti, userId, account, hv, -, -, hfound, hsub, hversion⟩ := hs
  obtain ⟨ys, e, zs, w, w', -, hw, he, -, -, hq⟩ := noted_trace Seen.found Stmt.found (fun _ _ _ => rfl) hr
    (by
      intro h
      rw [hstart] at h
      cases h) hfound
  refine ⟨p, userId, account.tokenVersion, hv, hsub, hversion, ?_⟩
  have hle := Versioned.version_le (creds_run (u := userId) hdec h hw)
  have hle' := Versioned.version_le (creds_run (u := userId) hdec (h.run hdec hw) (.step he .refl))
  have hcur : (w'.db.standing userId).creds.version = account.tokenVersion :=
    congrArg (fun st => st.creds.version) (act_found he.1.acted hq)
  rw [← hcur]
  exact Nat.le_trans hle hle'

theorem hasSub_iff {n : Nat} : hasSub n payload = true ↔ Fields.get "sub" payload = some (.str (toString n)) := by
  unfold hasSub
  split
  · rename_i s hs
    rw [hs]
    simp
  · rename_i hne
    exact ⟨nofun, fun h => absurd h (hne _)⟩

/-- A request that has succeeded has got a user. -/
theorem authenticate_user {token : String} {r : Result}
    (h : Yields ((Request.authenticate token).code env).run (.ok r)) : ∃ v, r = .user v := by
  obtain ⟨o, -, ho⟩ := yields_bind h
  cases o with
  | ok v => exact ⟨v, (Except.ok.inj (yields_ret ho)).symm⟩
  | error e => cases yields_ret ho

/-- A token of another version than its user's is refused from then on. -/
theorem Inv.refuses (hdec : Decodes env) (h : Inv env req s ph) (ho : Out env s payload)
    (hsub : toPositiveInt (Fields.get "sub" payload) = some u)
    (hold : hasVersion (s.db.standing u).creds.version payload = false) {n : Nat}
    (hn : (s.db.standing u).creds.version ≤ n) : hasVersion n payload = false := by
  rcases hv : hasVersion n payload with _ | _
  · rfl
  · have hle := h.version_le hdec ho hsub hv
    rw [Nat.le_antisymm hle hn, hold] at hv
    cases hv

/-- In every run where no token is forged: no statement of a password reset changes the version, the
admin flag, the status or the deletion of a user, or removes or revokes a refresh token. Once it
has succeeded, an earlier token that is valid and has the version of its user is accepted as
before, and one of another version is accepted by no request and no refresh that begins then. -/
theorem reset_keeps_sessions (hdec : Decodes env) (hd : Starting d)
    (hys : Trace.Run (Honest env) (initial env req d) ys s) :
    (∀ e t, Honest env s e t → (req e.client).resets = true →
      (∀ u, t.db.standing u = s.db.standing u) ∧
      ∀ i row, s.db.auth.tokens.committed i = some row → ∃ row', t.db.auth.tokens.committed i = some row' ∧
        row'.jti = row.jti ∧ (row' = row ∨ row'.revokedAt = none)) ∧
    ∀ c, (req c).resets = true → Succeeded c s → ∀ b r token, s.prog b = .ret (.ok r) → r.bears token →
      (∀ a payload u row, env.verifyAsync token env.config.jwtAccessSecret s.db.auth.clock = some payload →
        toPositiveInt (Fields.get "sub" payload) = some u → s.db.auth.users.committed u = some row →
        row.deleted = false → Fields.get "tokenVersion" payload = some (.num row.tokenVersion) →
        admitted env a token s.db = some u) ∧
      ∀ a secret now payload u zs t, env.verifyAsync token secret now = some payload →
        toPositiveInt (Fields.get "sub" payload) = some u →
        hasVersion (s.db.standing u).creds.version payload = false →
        (req a = .authenticate token ∨ req a = .refresh token) → (∀ e ∈ ys, e.client ≠ a) →
        Trace.Run (Honest env) s zs t → ¬ Succeeded a t := by
  have hi := Inv.reached hdec hd hys
  have hplain := hys.mono fun _ _ _ hs => hs.1
  refine ⟨fun e t hs hc => ⟨fun u => ?_, fun i row hrow => ?_⟩, fun c _ _ b r token hb hr =>
    ⟨fun a payload u row hv hsub hrow hlive hversion => ?_,
      fun a secret now payload u zs t hv hsub hold hreq hidle hzs hsc => ?_⟩⟩
  · rw [(act_standing hs.1.acted hi.users).2, restands_ofOtp (resets_ofOtp hplain hs.1 hc)]
    rfl
  · exact ofOtp_kept hs.1.acted (resets_ofOtp hplain hs.1 hc) (drafts_run hd hplain) hrow
  · rw [admitted_eq hv]
    exact holder_iff.mpr ⟨hsub, row, hrow, hlive, hversion⟩
  · have hstart : seen req ys a = Seen.start (req a) := notes_of_idle _ _ hidle
    have hout : Out env s payload := ⟨b, r, token, secret, now, hb, hr, hv⟩
    have ht := hi.run hdec hzs
    -- all checks of the token show this payload
    obtain ⟨a', jti, secret', ttl, issued, -, -, -, -, htoken⟩ := (hi.phase.result hb r rfl).1 token hr
    have hpayload : ∀ p, (zs.foldl (noted Seen.after) (seen req ys) a).verified = some (token, p) → p = payload := by
      intro p hp
      obtain ⟨secret₁, now₁, -, hv₁⟩ := (ht.sound a _ hp).checked
      rw [htoken] at hv hv₁
      exact (hdec _ _ _ _ _ _ _ hv₁).trans (hdec _ _ _ _ _ _ _ hv).symm
    rcases hreq with hreq | hreq
    · obtain ⟨r', hr'⟩ := hsc
      have hyields := yields_of_run ((hys.append hzs).mono fun _ _ _ hs => hs.1) hr'
      have hprog : (initial env req d).prog a = ((Request.authenticate token).code env).run := by
        rw [← hreq]
        rfl
      rw [hprog] at hyields
      obtain ⟨v, rfl⟩ := authenticate_user hyields
      obtain ⟨-, ⟨token', p, row, hasked, hver, hsub', hshown, hversion, -⟩, -⟩ := ht.phase.result hr' _ rfl
      cases ((ht.asked a).trans hreq).symm.trans hasked
      obtain rfl := hpayload p hver
      cases hsub.symm.trans hsub'
      have hle := hi.shown_since hdec hzs (by rw [hstart]; rfl) hshown
      rw [hi.refuses hdec hout hsub hold hle] at hversion
      cases hversion
    · obtain ⟨p, userId, n, hver, hsub', hversion, hle⟩ := hi.refresh_since hdec hzs hstart hreq hsc
      obtain rfl := hpayload p hver
      rw [hasSub_iff] at hsub'
      rw [hsub'] at hsub
      obtain rfl := toPositiveInt_toString hsub
      rw [hi.refuses hdec hout (by rw [hsub']; exact hsub) hold hle] at hversion
      cases hversion

end Runs

section Fixtures

/-- Mona logs in, and then resets her password. -/
def resetting : Client → Request
  | 0 => .login "mona@shop.eg" "Secret123"
  | 1 => .otp (.requestPasswordResetOtp "mona@shop.eg")
  | _ => .otp (.resetPassword ⟨"mona@shop.eg", "000000", "Changed456", "Changed456"⟩)

/-- Her login and her request for an OTP, and her reset. -/
def beforeReset : List (Client × Move) := turns [(0, 5), (1, 3)]

def untilReset : List (Client × Move) := List.replicate 12 (2, .run 0 1)

theorem toPositiveInt_text {n : Nat} (h : 0 < n) : toPositiveInt (some (.str (toString n))) = some n := by
  refine toPositiveInt_iff.mpr ⟨?_, Or.inr ⟨_, rfl⟩⟩
  rw [Option.bind_some, number, stringToNumber_toString]
  exact positiveInteger_natCast h

/-- The run of the reset: what it starts from, and what it leaves. -/
theorem resetting_run : ∃ xs s ys t b r,
    Trace.Run (Honest (openEnv false)) (initial (openEnv false) resetting shop) xs s ∧
      s.prog b = .ret (.ok r) ∧ r.bears (accessOf mona) ∧ (s.prog 2).ended = false ∧
      Trace.Run (Honest (openEnv false)) s ys t ∧ t.prog b = .ret (.ok r) ∧ Succeeded 2 t ∧
      t.db.auth.clock = 0 ∧ ∃ row, t.db.auth.users.committed 1 = some row ∧ row.deleted = false ∧
        row.tokenVersion = 0 := by
  have hplay : ((replay (act (openEnv false)) (genuineBy 8) beforeReset
      (initial (openEnv false) resetting shop)).bind fun s =>
        (replay (act (openEnv false)) (genuineBy 8) untilReset s).map fun t =>
          ((outBy 1 s (accessOf mona), (s.prog 2).ended, responded 2 t),
            (t.db.auth.clock, (t.db.auth.users.committed 1).map fun row => (row.deleted, row.tokenVersion)))) =
      some ((true, false, true), (0, some (false, 0))) := by
    decide +kernel
  obtain ⟨s, hs, ht⟩ := Option.bind_eq_some_iff.mp hplay
  obtain ⟨xs, _, hxs, rfl⟩ := replay_run (f := fun s => s) (Option.map_eq_some_iff.mpr ⟨s, hs, rfl⟩)
  obtain ⟨ys, t, hys, ht⟩ := replay_run ht
  simp only [Prod.mk.injEq, Option.map_eq_some_iff] at ht
  obtain ⟨⟨hout, hended, hresponded⟩, hclock, row, hrow, hdeleted, hversion⟩ := ht
  obtain ⟨b, r, hb, hr⟩ := outBy_out hout
  have hys := hys.mono fun _ _ _ h => (⟨h.1, genuineBy_genuine h.2⟩ : Honest (openEnv false) _ _ _)
  exact ⟨xs, _, ys, t, b, r, hxs.mono fun _ _ _ h => ⟨h.1, genuineBy_genuine h.2⟩, hb, hr, hended, hys,
    ended_run hys hb, responded_succeeded hresponded, hclock, row, hrow, hdeleted, hversion⟩

/-- A token from before the reset is accepted after it. -/
theorem accepted_after_reset : ∃ xs s ys t b r,
    Trace.Run (Honest (openEnv false)) (initial (openEnv false) resetting shop) xs s ∧
      s.prog b = .ret (.ok r) ∧ r.bears (accessOf mona) ∧ (s.prog 2).ended = false ∧
      Trace.Run (Honest (openEnv false)) s ys t ∧ (resetting 2).resets = true ∧ Succeeded 2 t ∧
      admitted (openEnv false) 3 (accessOf mona) t.db = some 1 := by
  obtain ⟨xs, s, ys, t, b, r, hxs, hb, hr, hended, hys, -, hsc, hclock, row, hrow, hdeleted, hversion⟩ :=
    resetting_run
  refine ⟨xs, s, ys, t, b, r, hxs, hb, hr, hended, hys, rfl, hsc, ?_⟩
  rw [admitted_eq (accessOf_valid hclock)]
  refine holder_iff.mpr ⟨toPositiveInt_text Nat.one_pos, row, hrow, hdeleted, ?_⟩
  rw [hversion]
  rfl

/-- What the theorem says of that token after the reset. -/
theorem reset_keeps_sessions_mona : ∃ xs t,
    Trace.Run (Honest (openEnv false)) (initial (openEnv false) resetting shop) xs t ∧ Succeeded 2 t ∧
      admitted (openEnv false) 3 (accessOf mona) t.db = some 1 := by
  obtain ⟨xs, s, ys, t, b, r, hxs, -, hr, -, hys, hb, hsc, hclock, row, hrow, hdeleted, hversion⟩ := resetting_run
  have hrun := hxs.append hys
  refine ⟨xs ++ ys, t, hrun, hsc, ?_⟩
  have hkept := ((reset_keeps_sessions openEnv_decodes shop_starting hrun).2 2 rfl hsc b r (accessOf mona) hb hr).1
  refine hkept 3 _ 1 row (accessOf_valid hclock) (toPositiveInt_text Nat.one_pos) hrow hdeleted ?_
  rw [hversion]
  rfl

end Fixtures

end Kayan.Sessions
