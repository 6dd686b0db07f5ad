import Kayan.Sessions.Calls
import Kayan.Sessions.Users

/-!
# The tokens that are out

What holds of every run in which no token is forged: an account that a call has read stays
behind the user's credentials, and a token that was found valid was signed for such an account.
-/
namespace Kayan.Sessions
open Interleave Auth Versions RowStore

/-- A verified token yields what was signed. -/
def Decodes (env : Env) : Prop :=
  ∀ p secret ttl issued secret' now payload,
    env.verifyAsync (env.signAsync p secret ttl issued) secret' now = some payload → payload = claims p

/-- Nothing has been issued yet, and no transaction is open. -/
structure Starting (d : Db) : Prop where
  keyed : ∀ i r, d.auth.users.committed i = some r → r.id = i
  idle : ∀ c i, d.auth.users.own c i = none
  unissued : ∀ i, d.auth.tokens.cell i = {}
  unsaved : d.saved = []

/-- No token is forged: one that is found valid was returned by a call that has ended. -/
def Genuine (s : State) (e : Taken) : Prop :=
  ∀ v, e.stmt.verified e.reply = some v → ∃ b r, s.prog b = .ret (.ok r) ∧ r.bears v.1

/-- The steps of a run without forged tokens. -/
def Honest (env : Env) (s : State) (e : Taken) (t : State) : Prop := Step (act env) s e t ∧ Genuine s e

/-- The token of a call that was found valid, as it was handed out. -/
structure Sound (env : Env) (s : State) (ph : Client → Seen) (x : Seen) (v : String × JwtPayload) : Prop where
  checked : ∃ secret now, x.presents env v.1 secret ∧ env.verifyAsync v.1 secret now = some v.2
  issued : ∃ b r a jti secret ttl issued, s.prog b = .ret (.ok r) ∧ r.bears v.1 ∧ (ph b).account = some a ∧
    (ph b).pending = false ∧ (jti = none ∨ jti = (ph b).stored) ∧
    v.1 = env.signAsync (payloadOf a jti) secret ttl issued ∧ v.2 = claims (payloadOf a jti)

/-- The invariant of the runs without forged tokens. -/
structure Inv (env : Env) (req : Client → Request) (s : State) (ph : Client → Seen) : Prop where
  phase : InPhase (calls env) (ends env) ph s
  asked : ∀ c, (ph c).req = req c
  users : Users s.db.auth.users
  behind : ∀ c a, (ph c).account = some a → (standingOf a).creds ≤ (s.db.standing a.id).creds
  agree : ∀ b c a a', (ph b).account = some a → (ph c).account = some a' → a.id = a'.id →
    a.tokenVersion = a'.tokenVersion → a.isAdmin = a'.isAdmin
  sound : ∀ c v, (ph c).verified = some v → Sound env s ph (ph c) v

variable {env : Env} {req : Client → Request} {m : Move} {c : Client} {d d' : Db} {s t : State} {e : Taken}
  {ph : Client → Seen} {x : Seen} {q : Stmt} {r : Answer q} {a : Account}

section Steps

/-- Credentials only go forward. -/
theorem creds_le_restand {i : Nat} {st : Standing} : st.creds ≤ (restand (q.restands r) i st).creds := by
  unfold restand
  split
  · rename_i userId f hf
    split
    · cases q with
      | updateIsAdmin isAdmin userId =>
        rcases r with e | _ | user <;> cases hf
        exact Versioned.le_bump _
      | updateStatus status userId =>
        rcases r with e | _ | user <;> cases hf
        exact le_refl _
      | deleteUser userId =>
        rcases r with e | _ | _ <;> cases hf
        exact Versioned.le_bump _
      | _ => cases hf
    · exact le_refl _
  · exact le_refl _

/-- The account of a call is the one that was just read, or the one that it had. -/
theorem after_account (hm : x.may env q) (h : act env m c q d = some (r, d')) (hu : Users d.auth.users)
    (ha : (x.after q r).account = some a) :
    q.account r = some a ∨ ∃ a₀, x.account = some a₀ ∧ a₀.id = a.id ∧ standingOf a₀ = standingOf a := by
  simp only [Seen.after] at ha
  rcases hn : q.renamed r with _ | name
  · rw [hn] at ha
    rcases hq : q.account r with _ | a'
    · rw [hq] at ha
      exact Or.inr ⟨a, ha, rfl, rfl⟩
    · rw [hq] at ha
      exact Or.inl ha
  · rw [hn] at ha
    obtain ⟨a₀, ha₀, rfl⟩ := Option.map_eq_some_iff.mp ha
    obtain ⟨hash, rfl⟩ := act_renamed h hu hn
    obtain ⟨-, a₁, ha₁, hid⟩ := hm
    cases ha₀.symm.trans ha₁
    exact Or.inr ⟨a₀, ha₀, hid, rfl⟩

/-- A token that is found valid is the one that was presented, at this time. -/
theorem act_verified {v : String × JwtPayload} (h : act env m c q d = some (r, d'))
    (hv : q.verified r = some v) :
    ∃ secret, q = .verifyAsync v.1 secret ∧ env.verifyAsync v.1 secret d'.auth.clock = some v.2 := by
  obtain ⟨d₁, ha, rfl⟩ := act_acted h
  cases ha with
  | otp ha => cases hv
  | run hx =>
    cases q with
    | verifyAsync token secret =>
      cases hx
      rcases hp : env.verifyAsync token secret (tick _ d.auth).clock with _ | payload
      · rw [hp] at hv
        cases hv
      · rw [hp] at hv
        cases hv
        exact ⟨secret, rfl, hp⟩
    | _ => cases hv
  | fail hq => cases q <;> cases hv

/-- A call that has ended keeps its result and its notes. -/
theorem ended_noted (ph : Client → Seen) {b : Client} {res : Except Failure Result} (hs : Step (act env) s e t)
    (hb : s.prog b = .ret res) : t.prog b = .ret res ∧ noted Seen.after ph e b = ph b := by
  obtain ⟨hne, ht⟩ := hs.not_ended hb
  exact ⟨ht, noted_of_ne hne⟩

theorem Sound.step {y : Seen} {v : String × JwtPayload} (h : Sound env s ph x v) (hs : Step (act env) s e t)
    (hy : y.req = x.req) : Sound env t (noted Seen.after ph e) y v := by
  obtain ⟨secret, now, hp, hv⟩ := h.checked
  obtain ⟨b, r, a, jti, sec, ttl, issued, hb, hr, ha, hpend, hj, htoken, hc⟩ := h.issued
  obtain ⟨ht, hn⟩ := ended_noted ph hs hb
  refine ⟨⟨secret, now, ?_, hv⟩, b, r, a, jti, sec, ttl, issued, ht, hr, hn ▸ ha, hn ▸ hpend, hn ▸ hj,
    htoken, hc⟩
  simpa only [Seen.presents, hy] using hp

/-- The accounts after a step: one that was just read is current, and the others are as before. -/
theorem Inv.accounts (h : Inv env req s ph) (hs : Step (act env) s e t) (c : Client) (a : Account)
    (ha : (noted Seen.after ph e c).account = some a) :
    t.db.standing a.id = standingOf a ∨
      ∃ a₀, (ph c).account = some a₀ ∧ a₀.id = a.id ∧ standingOf a₀ = standingOf a := by
  rcases noted_or Seen.after ph e c with ⟨rfl, hn⟩ | ⟨-, hn⟩
  · rw [hn] at ha
    rcases after_account (h.phase.noted hs).1 hs.acted h.users ha with hq | hold
    · exact Or.inl (act_account hs.acted h.users hq)
    · exact Or.inr hold
  · rw [hn] at ha
    exact Or.inr ⟨a, ha, rfl, rfl⟩

/-- What the calls have read stays behind, in one step. -/
theorem Inv.behind_step (h : Inv env req s ph) (hs : Step (act env) s e t) (c : Client) (a : Account)
    (ha : (noted Seen.after ph e c).account = some a) :
    (standingOf a).creds ≤ (t.db.standing a.id).creds := by
  rcases h.accounts hs c a ha with hcur | ⟨a₀, ha₀, hid, hsa⟩
  · exact le_of_eq (congrArg Standing.creds hcur).symm
  · rw [← hsa, ← hid, (act_standing hs.acted h.users).2]
    exact le_trans (h.behind c a₀ ha₀) creds_le_restand

/-- A current account agrees with every other one. -/
theorem agree_of_current {st : Standing} {a a' : Account} (ha : st = standingOf a)
    (ha' : (standingOf a').creds ≤ st.creds) (hv : a.tokenVersion = a'.tokenVersion) :
    a.isAdmin = a'.isAdmin := by
  subst ha
  have heq := Versioned.eq_of_version ha' hv.symm
  exact (congrArg Versioned.value heq).symm

theorem Inv.agree_step (h : Inv env req s ph) (hs : Step (act env) s e t) (b c : Client) (a a' : Account)
    (ha : (noted Seen.after ph e b).account = some a) (ha' : (noted Seen.after ph e c).account = some a')
    (hid : a.id = a'.id) (hv : a.tokenVersion = a'.tokenVersion) : a.isAdmin = a'.isAdmin := by
  rcases h.accounts hs b a ha with hcur | ⟨a₀, ha₀, hi₀, hs₀⟩
  · refine agree_of_current hcur ?_ hv
    rw [hid]
    exact h.behind_step hs c a' ha'
  · rcases h.accounts hs c a' ha' with hcur | ⟨a₁, ha₁, hi₁, hs₁⟩
    · refine (agree_of_current hcur ?_ hv.symm).symm
      rw [← hid]
      exact h.behind_step hs b a ha
    · have hv₀ : a₀.tokenVersion = a₁.tokenVersion := by
        have h₀ : a₀.tokenVersion = a.tokenVersion := congrArg (fun x => x.creds.version) hs₀
        have h₁ : a₁.tokenVersion = a'.tokenVersion := congrArg (fun x => x.creds.version) hs₁
        rw [h₀, h₁, hv]
      have hagree := h.agree b c a₀ a₁ ha₀ ha₁ (hi₀.trans (hid.trans hi₁.symm)) hv₀
      have h₀ : a₀.isAdmin = a.isAdmin := congrArg (fun x => x.creds.value) hs₀
      have h₁ : a₁.isAdmin = a'.isAdmin := congrArg (fun x => x.creds.value) hs₁
      rw [← h₀, ← h₁, hagree]

/-- The tokens of the calls after a step. -/
theorem Inv.sound_step (hdec : Decodes env) (h : Inv env req s ph) (hs : Honest env s e t) (c : Client)
    (v : String × JwtPayload) (hv : (noted Seen.after ph e c).verified = some v) :
    Sound env t (noted Seen.after ph e) (noted Seen.after ph e c) v := by
  obtain ⟨hs, hg⟩ := hs
  have hm := (h.phase.noted hs).1
  rcases noted_or Seen.after ph e c with ⟨rfl, hn⟩ | ⟨-, hn⟩
  · rw [hn] at hv ⊢
    simp only [Seen.after] at hv
    rcases hq : e.stmt.verified e.reply with _ | w
    · rw [hq] at hv
      exact (h.sound _ v hv).step hs rfl
    · rw [hq] at hv
      cases hv
      obtain ⟨secret, hstmt, hver⟩ := act_verified hs.acted hq
      obtain ⟨b, r, hb, hr⟩ := hg _ hq
      obtain ⟨ht, hnb⟩ := ended_noted ph hs hb
      obtain ⟨a, jti, sec, ttl, issued, ha, -, hpend, hj, htoken⟩ := (h.phase.result hb r rfl).1 _ hr
      refine ⟨⟨secret, _, ?_, hver⟩, b, r, a, jti, sec, ttl, issued, ht, hr, hnb ▸ ha, hnb ▸ hpend, hnb ▸ hj,
        htoken, ?_⟩
      · rw [hstmt] at hm
        exact hm.2
      · rw [htoken] at hver
        exact hdec _ _ _ _ _ _ _ hver
  · rw [hn] at hv ⊢
    exact (h.sound c v hv).step hs rfl

theorem Inv.step (hdec : Decodes env) (h : Inv env req s ph) (hs : Honest env s e t) :
    Inv env req t (noted Seen.after ph e) where
  phase := (h.phase.noted hs.1).2
  asked c := by
    refine Eq.trans ?_ (h.asked c)
    rcases noted_or Seen.after ph e c with ⟨-, hn⟩ | ⟨-, hn⟩
    · rw [hn]
      rfl
    · rw [hn]
  users := (act_standing hs.1.acted h.users).1
  behind := h.behind_step hs.1
  agree := h.agree_step hs.1
  sound := h.sound_step hdec hs

end Steps

/-- The notes of the calls before their first statements. -/
def start (req : Client → Request) (c : Client) : Seen := Seen.start (req c)

theorem Inv.start (hd : Starting d) : Inv env req (initial env req d) (Sessions.start req) where
  phase c := request_keeps (req c)
  asked c := rfl
  users :=
    { keyed := hd.keyed
      drafts := fun c i v w hv => by cases (hd.idle c i).symm.trans hv }
  behind c a ha := by cases ha
  agree b c a a' ha := by cases ha
  sound c v hv := by cases hv

/-- The invariant over whole runs, from any state that has it. -/
theorem Inv.run (hdec : Decodes env) {xs : List Taken} (h : Inv env req s ph)
    (hr : Trace.Run (Honest env) s xs t) : Inv env req t (xs.foldl (noted Seen.after) ph) := by
  refine (kept_run Seen.after hr ph).preserves (I := fun u => Inv env req u.1 u.2) ?_ h
  rintro ⟨s, ph⟩ e ⟨t, ph'⟩ ⟨hs, rfl⟩ hi
  exact hi.step hdec hs

/-- What every call has seen in the course of a run. -/
def seen (req : Client → Request) (xs : List Taken) : Client → Seen := xs.foldl (noted Seen.after) (start req)

theorem Inv.reached (hdec : Decodes env) (hd : Starting d) {xs : List Taken}
    (hr : Trace.Run (Honest env) (initial env req d) xs t) : Inv env req t (seen req xs) :=
  (Inv.start hd).run hdec hr

end Kayan.Sessions
