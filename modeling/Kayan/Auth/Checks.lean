import Kayan.Auth.Invariant

/-!
# Checking a code

The rules that the calls are proved under, and the check of a code among all other calls:
what it has added to the history when it ends.
-/
namespace Kayan.Auth
open RowStore Interleave

/-- The event of a statement satisfies `cond` at the time. -/
def meets (env : Env) (cond : List OtpEvent → OtpEvent → Bool) (m : Move) (c : Client) (q : Stmt) (d : Db) :
    Bool :=
  match m with
  | .run wait draw =>
    (exec env draw c q (tick wait d)).all fun x => (otpEvent c q x.1 (tick wait d)).all (cond d.history)
  | .fail _ => true

/-- What the proof of a call may use and has to keep. -/
def rules (env : Env) (req : Client → Request) (d₀ : Db) (cond : List OtpEvent → OtpEvent → Bool) :
    Rules Client Move Stmt Answer Db where
  act := act env
  inv := Inv env req d₀ cond
  rely := Rely
  allow m c q d := meets env cond m c q d
  guar _ _ _ _ _ := True
  rely_refl _ _ := Rely.refl
  rely_trans _ _ _ _ h h' := h.trans h'
  frame _ _ _ _ _ _ _ h _ hb := act_rely h hb

variable {env : Env} {req : Client → Request} {cond : List OtpEvent → OtpEvent → Bool} {c : Client}
  {d₀ d d' : Db} {evs : List OtpEvent} {us : List User} {otp : AuthOtp} {α : Type}

/-- The check of `c` has come to `evs`, and its transaction has inserted the users `us`. -/
structure At (c : Client) (evs : List OtpEvent) (us : List User) (d : Db) : Prop where
  events : eventsOf c d.history = evs
  users : d.users.pending c = us

theorem At.of_rely (h : At c evs us d) (hr : Rely c d d') : At c evs us d' where
  events := hr.events.trans h.events
  users := (Table.pending_congr hr.users).trans h.users

section Rules
variable {P : Db → Prop} {Q : α → Db → Prop}

/-- What code of client `c` does when it returns. -/
abbrev Does (env : Env) (req : Client → Request) (d₀ : Db) (cond : List OtpEvent → OtpEvent → Bool) (c : Client)
    (P : Db → Prop) (x : Code α) (Q : α → Db → Prop) : Prop :=
  Triple (rules env req d₀ cond) c P x Q fun _ => True

/-- Stable under what the others may do. -/
abbrev Steady (env : Env) (req : Client → Request) (d₀ : Db) (cond : List OtpEvent → OtpEvent → Bool) (c : Client)
    (P : Db → Prop) : Prop :=
  Stable (rules env req d₀ cond) c P

theorem true_steady : Steady env req d₀ cond c fun _ => True := fun _ _ _ _ h => h

theorem At.steady : Steady env req d₀ cond c (At c evs us) := fun _ _ hr _ h => h.of_rely hr

theorem bind_does {β : Type} {x : Code α} {f : α → Code β} {R : β → Db → Prop}
    (hx : Does env req d₀ cond c P x Q) (hf : ∀ a, Does env req d₀ cond c (Q a) (f a) R) :
    Does env req d₀ cond c P (x >>= f) R :=
  Triple.bind hx hf true_steady

theorem throw_does {e : Failure} : Does env req d₀ cond c P (throw e : Code α) Q :=
  (Triple.throw true_steady).pre fun _ _ => trivial

theorem pure_does {a : α} (hq : Steady env req d₀ cond c (Q a)) (h : ∀ d, P d → Q a d) :
    Does env req d₀ cond c P (pure a) Q :=
  (Triple.pure hq).pre h

/-- A statement, taken after some time: its event, if any, has to be one that follows. -/
theorem query_does {q : Stmt} {Q : Reply q → Db → Prop} (hp : Steady env req d₀ cond c P)
    (hq : ∀ v, Steady env req d₀ cond c (Q v))
    (h : ∀ draw d v e, Inv env req d₀ cond d → P d → exec env draw c q d = some (v, e) →
      Pendings env req d₀ e ∧ (∀ f, otpEvent c q v d = some f → Follows env req d.history f) ∧
      ∀ w, v = .ok w → Q w { e with history := (otpEvent c q v d).toList ++ d.history }) :
    Does env req d₀ cond c P (query q) Q := by
  refine Triple.await hp hq true_steady fun m d r d' hi hal hd ha => ?_
  have ha : act env m c q d = some (r, d') := ha
  have hal : meets env cond m c q d = true := hal
  have hi : Inv env req d₀ cond d := hi
  cases m with
  | fail err =>
    obtain ⟨rfl, rfl⟩ := act_fail ha
    exact ⟨hi, trivial, trivial⟩
  | run wait draw =>
    obtain ⟨e, he, rfl⟩ := act_run ha
    have hd := hp d (tick wait d) .tick hi.tick hd
    obtain ⟨hpe, hf, hw⟩ := h draw (tick wait d) r e hi.tick hd he
    have hh : e.history = d.history := exec_history (d := tick wait d) he
    simp only [meets, he, Option.all_some] at hal
    rw [hh]
    refine ⟨?_, trivial, ?_⟩
    · rcases hev : otpEvent c q r (tick wait d) with _ | f
      · exact ⟨hi.history, hpe.of_committed (fun _ => rfl) hpe.held rfl rfl⟩
      · have hc : cond d.history f = true := by simpa [hev] using hal
        exact ⟨.cons hi.history (hf f hev) hc, hpe.of_committed (fun _ => rfl) hpe.held rfl rfl⟩
    · cases r with
      | ok w => exact hw w rfl
      | error _ => trivial

/-- Statements without event that write no pending registration and publish nothing. -/
def Stmt.plain : Stmt → Bool
  | .commit | .selectOtp _ _ | .upsertOtpAttempts _ _ _ | .deleteOtpAttempts _ _
  | .upsertPending _ _ _ _ _ _ => false
  | _ => true

theorem otpEvent_plain {q : Stmt} {r : Answer q} (h : q.plain = true) : otpEvent c q r d = none := by
  cases q <;> first | rfl | cases h

theorem exec_plain {draw : Nat} {q : Stmt} {r : Answer q} (h : q.plain = true)
    (hx : exec env draw c q d = some (r, d')) (hi : Pendings env req d₀ d) : Pendings env req d₀ d' := by
  by_cases hr : q = .rollback
  · subst hr
    cases hx
    exact hi.rollback
  · refine (exec_change hx (fun hc => by subst hc; cases h) hr).pendings hi fun row hw => ?_
    cases q with
    | upsertPending => cases h
    | _ => cases hw

/-- A plain statement, with what its reply tells. -/
theorem plain_does {q : Stmt} {Q : Reply q → Db → Prop} (hq : q.plain = true)
    (hp : Steady env req d₀ cond c P) (hs : ∀ v, Steady env req d₀ cond c (Q v))
    (h : ∀ draw d v d', Inv env req d₀ cond d → P d → exec env draw c q d = some (.ok v, d') → Q v d') :
    Does env req d₀ cond c P (query q) Q := by
  refine query_does hp hs fun draw d v e hi hd hx => ?_
  simp only [otpEvent_plain hq]
  refine ⟨exec_plain hq hx hi.pendings, fun f hf => (by cases hf), fun w hw => ?_⟩
  subst hw
  have hh := exec_history hx
  rw [Option.toList_none, List.nil_append, ← hh]
  exact h draw d w e hi hd hx

/-- Plain statements that touch neither pending registrations nor users. -/
def Stmt.light : Stmt → Bool
  | .begin | .dateNow | .randomInt _ _ | .randomBytes | .hash _ _ | .insertOtp _ _ _ _ _ _
  | .selectUser _ _ | .selectPending _ _ | .selectPendingLive _ | .insertRefreshToken _ _ _
  | .selectUserId _ | .selectAccount _ | .purgeOtps | .snapshotExpiredPending => true
  | _ => false

theorem exec_light {draw : Nat} {q : Stmt} {r : Answer q} (h : q.light = true)
    (hx : exec env draw c q d = some (r, d')) : Rely c d d' := by
  cases q with
  | insertRefreshToken =>
    obtain ⟨t, rfl⟩ := insertRefreshToken_change hx
    exact { Rely.refl with }
  | begin | dateNow | randomInt | randomBytes | hash | insertOtp | selectUser | selectPending
  | selectPendingLive | selectUserId | selectAccount | purgeOtps | snapshotExpiredPending =>
    cases hx
    exact { Rely.refl with }
  | _ => cases h

theorem light_plain {q : Stmt} (h : q.light = true) : q.plain = true := by
  cases q <;> first | rfl | cases h

/-- A light statement keeps whatever others cannot falsify. -/
theorem light_does {q : Stmt} (h : q.light = true) (hp : Steady env req d₀ cond c P) :
    Does env req d₀ cond c P (query q) fun _ => P := by
  refine plain_does (light_plain h) hp (fun _ => hp) fun draw d v d' hi hd hx => ?_
  refine hp d d' (exec_light h hx) ⟨?_, exec_plain (light_plain h) hx hi.pendings⟩ hd
  rw [exec_history hx]
  exact hi.history

end Rules

section Check
variable {email code : String} {purpose : OtpPurpose}

/-- `c` has looked up the OTP at `t`, and nothing else. -/
def LookedUp (c : Client) (otp : AuthOtp) (t : Nat) (us : List User) (d : Db) : Prop :=
  At c [⟨c, otp, .lookedUp t⟩] us d ∧ t ≤ d.clock

theorem LookedUp.steady {t : Nat} : Steady env req d₀ cond c (LookedUp c otp t us) :=
  fun _ _ hr _ ⟨h, ht⟩ => ⟨h.of_rely hr, Nat.le_trans ht hr.clock⟩

theorem latestOtp_some {draw : Nat} {otps : List AuthOtp} (h : latestOtp draw email purpose otps = some otp) :
    otp.email = email ∧ otp.purpose = purpose := by
  have hm := List.mem_of_mem_filter (List.mem_of_getElem? h)
  simpa using List.of_mem_filter hm

theorem eventsOf_cons_self (e : OtpEvent) (history : List OtpEvent) :
    eventsOf e.client (e :: history) = e :: eventsOf e.client history :=
  List.filter_cons_of_pos (by simp)

theorem At.lastEvent {e : OtpEvent} (h : At c (e :: evs) us d) : d.lastEvent c = some e := by
  rw [Db.lastEvent, h.events, List.head?_cons]

/-- The client adds an event to the history. -/
theorem At.record {e : OtpEvent} (h : At c evs us d) (he : e.client = c) :
    At c (e :: evs) us { d with history := e :: d.history } := by
  subst he
  exact ⟨(eventsOf_cons_self e d.history).trans (congrArg _ h.events), h.users⟩

theorem selectOtp_does (hreq : (req c).presented = some (email, code, purpose)) :
    Does env req d₀ cond c (At c [] us) (query (.selectOtp email purpose))
      (fun v d => ∀ otp, (v : Option AuthOtp) = some otp → ∃ t, LookedUp c otp t us d) := by
  refine query_does At.steady ?_ fun draw d v e hi hd hx => ?_
  · intro v d d' hr hi' h otp hv
    obtain ⟨t, ht⟩ := h otp hv
    exact ⟨t, LookedUp.steady d d' hr hi' ht⟩
  · cases hx
    refine ⟨hi.pendings, fun f hf => ?_, fun w hw otp ho => ?_⟩
    · obtain ⟨otp, ho, rfl⟩ := Option.map_eq_some_iff.mp hf
      obtain ⟨rfl, rfl⟩ := latestOtp_some ho
      exact .lookedUp hreq hd.events
    · obtain rfl := Except.ok.inj hw
      have hev : otpEvent c (.selectOtp email purpose) (.ok (latestOtp draw email purpose d.otps)) d =
          some ⟨c, otp, .lookedUp d.clock⟩ := by
        simp only [otpEvent]
        rw [ho]
        rfl
      rw [hev]
      exact ⟨d.clock, hd.record rfl, Nat.le_refl _⟩

theorem dateNow_does (t : Nat) :
    Does env req d₀ cond c (LookedUp c otp t us) (query .dateNow)
      (fun v d => t ≤ (v : Nat) ∧ At c [⟨c, otp, .lookedUp t⟩] us d) := by
  refine plain_does rfl LookedUp.steady (fun v d d' hr hi h => ⟨h.1, h.2.of_rely hr⟩) ?_
  intro draw d v d' _ hd hx
  cases hx
  exact ⟨hd.2, hd.1⟩

theorem nextAttempts_live (ttlSeconds : Nat) (d : Db) :
    (nextAttempts d.clock ttlSeconds (d.attempts email purpose)).attempts =
      d.liveAttempts email purpose + 1 := by
  unfold nextAttempts Db.liveAttempts
  split
  · split <;> simp_all
  · simp_all

/-- A wrong guess is counted on top of the attempts that are live. -/
theorem upsertOtpAttempts_does {t ttlSeconds : Nat} (hw : rightCode env req c otp = false)
    (ht : t ≤ otp.expiresAt) :
    Does env req d₀ cond c (At c [⟨c, otp, .lookedUp t⟩] us)
      (query (.upsertOtpAttempts email purpose ttlSeconds))
      (fun v d => ∃ n, (v : Nat) = n + 1 ∧ At c [⟨c, otp, .counted n⟩, ⟨c, otp, .lookedUp t⟩] us d) := by
  refine query_does At.steady (fun v d d' hr hi h => ?_) fun draw d v e hi hd hx => ?_
  · obtain ⟨n, hn, h⟩ := h
    exact ⟨n, hn, h.of_rely hr⟩
  · cases hx
    simp only [otpEvent, hd.lastEvent, Option.map_some, Option.some.injEq, Option.toList_some]
    refine ⟨hi.pendings.of_committed (fun _ => rfl) hi.pendings.held rfl rfl, ?_, ?_⟩
    · rintro f rfl
      exact .counted hd.events hw ht
    · intro w hw
      obtain rfl := Except.ok.inj hw
      exact ⟨_, nextAttempts_live ttlSeconds d,
        (eventsOf_cons_self ⟨c, otp, .counted _⟩ d.history).trans (congrArg _ hd.events), hd.users⟩

/-- Clearing the attempts after a right code accepts the OTP. -/
theorem clearOtpAttempts_accepts {t : Nat} (hr : rightCode env req c otp = true) (ht : t ≤ otp.expiresAt) :
    Does env req d₀ cond c (At c [⟨c, otp, .lookedUp t⟩] us) (clearOtpAttempts email purpose)
      (fun _ => At c [⟨c, otp, .accepted⟩, ⟨c, otp, .lookedUp t⟩] us) := by
  refine query_does At.steady (fun _ => At.steady) fun draw d v e hi hd hx => ?_
  cases hx
  simp only [otpEvent, hd.lastEvent, Option.map_some, Option.some.injEq, Option.toList_some]
  refine ⟨hi.pendings.of_committed (fun _ => rfl) hi.pendings.held rfl rfl, ?_, ?_⟩
  · rintro f rfl
    exact .accepted hd.events hr ht
  · intro w _
    exact ⟨(eventsOf_cons_self ⟨c, otp, .accepted⟩ d.history).trans (congrArg _ hd.events), hd.users⟩

/-- Clearing them after too many wrong guesses leaves the OTP as it is. -/
theorem clearOtpAttempts_locks {t n : Nat} (hn : otpMaxAttempts ≤ n + 1) :
    Does env req d₀ cond c (At c [⟨c, otp, .counted n⟩, ⟨c, otp, .lookedUp t⟩] us)
      (clearOtpAttempts email purpose) (fun _ _ => True) := by
  refine query_does At.steady (fun _ => true_steady) fun draw d v e hi hd hx => ?_
  cases hx
  simp only [otpEvent, hd.lastEvent, Option.map_some, Option.some.injEq]
  refine ⟨hi.pendings.of_committed (fun _ => rfl) hi.pendings.held rfl rfl, ?_, fun _ _ => trivial⟩
  rintro f rfl
  exact .lockedOut hd.events hn

theorem checkOtp_does {t : Nat} (hreq : (req c).presented = some (email, code, purpose)) :
    Does env req d₀ cond c (LookedUp c otp t us) (checkOtp env email code purpose otp)
      (fun _ => At c [⟨c, otp, .accepted⟩, ⟨c, otp, .lookedUp t⟩] us) := by
  have hright : rightCode env req c otp = decide (hashOtp env code otp.salt = otp.codeHash) := by
    rw [rightCode, hreq, Option.any_some]
  unfold checkOtp
  split
  · exact throw_does
  refine bind_does (dateNow_does t) fun now => Triple.fact fun hnow => ?_
  split
  · exact throw_does
  rename_i hlive
  have ht : t ≤ otp.expiresAt := Nat.le_trans hnow (Nat.le_of_not_lt hlive)
  split
  · rename_i hne
    have hwrong : rightCode env req c otp = false := by
      rw [hright]
      exact decide_eq_false hne
    refine bind_does (Q := fun _ _ => True) ?_ fun result => ?_
    · refine bind_does (upsertOtpAttempts_does hwrong ht) fun attempts => ?_
      refine Triple.exists fun n => Triple.fact fun hn => ?_
      split
      · rename_i hmax
        have hmax : otpMaxAttempts ≤ n + 1 := Nat.le_trans hmax (Nat.le_of_eq hn)
        exact bind_does (clearOtpAttempts_locks hmax) fun _ => pure_does true_steady fun _ => id
      · exact pure_does true_steady fun _ _ => trivial
    · split <;> exact throw_does
  · rename_i heq
    have hcode : rightCode env req c otp = true := by
      rw [hright]
      exact decide_eq_true (not_not.mp heq)
    exact bind_does (clearOtpAttempts_accepts hcode ht) fun _ => pure_does At.steady fun _ => id

/-- A check that returns has accepted an OTP. -/
def Accepted (c : Client) (us : List User) (d : Db) : Prop :=
  ∃ otp t, At c [⟨c, otp, .accepted⟩, ⟨c, otp, .lookedUp t⟩] us d

theorem checkVerification_does (hreq : (req c).presented = some (email, code, purpose)) :
    Does env req d₀ cond c (At c [] us) (checkVerification env email code purpose)
      (fun _ => Accepted c us) := by
  refine bind_does (selectOtp_does hreq) fun otpRow => ?_
  cases otpRow with
  | none => exact throw_does
  | some otp =>
    refine Triple.conseq (P := fun d => ∃ t, LookedUp c otp t us d) (Triple.exists fun t => ?_)
      (fun d _ h => h otp rfl) (fun _ _ => id) fun _ => id
    exact (checkOtp_does hreq).conseq (fun _ _ => id) (fun _ _ h => ⟨otp, t, h⟩) fun _ => id

end Check
end Kayan.Auth
