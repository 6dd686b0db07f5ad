import Kayan.Auth.Otp

/-!
# Registrations

Which data a verified registration gets: those of the pending registration that is current
when the verification locks it, whatever code was presented.
-/
namespace Kayan.Auth
open RowStore Interleave

variable {env : Env} {req : Client → Request} {c : Client} {d₀ d : Db} {xs : List Taken} {s t : State}

/-- The user has the data of a registration request for the email. -/
def User.asRequested (env : Env) (user : User) (email : String) (dto : RequestRegistrationOtpDto) : Prop :=
  env.lower dto.email = env.lower email ∧ user.name = dto.name ∧ user.phone = some dto.phone ∧
    user.address = dto.address ∧ ∃ salt, user.passwordHash = env.bcrypt dto.password bcryptRounds salt

/-- The user was made from the last registration request that was written for the email, or,
where none was, from the row that was pending at the start. -/
def FromLast (env : Env) (req : Client → Request) (d₀ : Db) (email : String) (r : Registration) : Prop :=
  (∃ w dto, lastWrite (env.lower email) r.writes = some w ∧ req w.client = .requestRegistrationOtp dto ∧
      r.user.asRequested env email dto) ∨
    lastWrite (env.lower email) r.writes = none ∧ ∃ i row, d₀.pending.committed i = some row ∧
      row.email = env.lower email ∧ r.user.copies row

theorem Verified.fromLast {r : Registration} {email otp : String} (h : Verified env req d₀ r)
    (hw : ∀ w ∈ r.writes, Requested env req w) (hreq : req r.client = .verifyRegistrationOtp email otp) :
    FromLast env req d₀ email r := by
  obtain ⟨email', otp', row, hreq', hemail, hcur, hname, hphone, haddress, hhash⟩ := h
  obtain ⟨rfl, rfl⟩ : email' = email ∧ otp' = otp := by
    rw [hreq'] at hreq
    cases hreq
    exact ⟨rfl, rfl⟩
  unfold FromLast
  rw [← hemail]
  rcases hcur with ⟨b, hl⟩ | ⟨hl, i, hc⟩
  · obtain ⟨dto, salt, hb, he, hn, hp, ha, hh⟩ := hw _ (List.mem_of_find?_eq_some hl)
    simp only at he hn hp ha hh
    refine Or.inl ⟨_, dto, hl, hb, ?_, hname.trans hn, hphone.trans hp, haddress.trans ha, salt,
      hhash.trans hh⟩
    rw [← he, hemail]
  · exact Or.inr ⟨hl, i, row, hc, rfl, hname, hphone, haddress, hhash⟩

/-- Whenever a verification succeeds, it has accepted a code, and the user it returns has the
data that were pending for the email when it registered the user: those of the last request
written until then. -/
theorem registration_from_last (hq : Quiet env d₀)
    (hr : Trace.Run (Step (act env)) (initial env req d₀) xs t) {email otp : String} {v : Payload}
    (hreq : req c = .verifyRegistrationOtp email otp) (hv : t.prog c = .ret (.ok v)) :
    (∃ e ∈ t.db.history, e.client = c ∧ e.act = .accepted ∧ rightCode env req c e.otp = true) ∧
    ∃ r ∈ t.db.registrations, r.client = c ∧ (∃ tokens, v = registrationResponse r.user tokens) ∧
      r.writes <:+ t.db.writes ∧ FromLast env req d₀ email r := by
  have hsafe := any_run_safe hq hr
  have hi : Inv env req d₀ (fun _ _ => true) t.db := hsafe.1
  obtain ⟨hpass, hreg⟩ := hsafe.result hv
  constructor
  · obtain ⟨row, time, hevs⟩ := hpass (by rw [hreq]; rfl)
    have hm : (⟨c, row, .accepted⟩ : OtpEvent) ∈ eventsOf c t.db.history := by
      rw [hevs]
      exact List.mem_cons_self
    have hmem := (mem_eventsOf.mp hm).1
    exact ⟨_, hmem, rfl, rfl, (hi.history.accepted hmem rfl).1⟩
  · obtain ⟨r, hr, rfl, htok⟩ := hreg email otp hreq
    obtain ⟨hver, hsuf⟩ := hi.pendings.registrations r hr
    refine ⟨r, hr, rfl, htok, hsuf, hver.fromLast (fun w hw => ?_) hreq⟩
    exact hi.pendings.writes w (hsuf.subset hw)

/-- Codes are drawn and not sent back. -/
def drawingEnv : Env := { plainEnv with config := { plainEnv.config with otpDevMode := false } }

/-- Two sign-ups for one email, and a verification with the code of the first. -/
def signUps : Client → Request
  | 0 => .requestRegistrationOtp
    { name := "Sara", email := "sara@shop.eg", phone := "+201000000001", password := "Owner123" }
  | 1 => .requestRegistrationOtp
    { name := "Mallory", email := "sara@shop.eg", phone := "+201000000002", password := "Other456" }
  | _ => .verifyRegistrationOtp "sara@shop.eg" "100000"

def playFrom (l : List (Client × Nat)) (s : State) : Option State :=
  play (act drawingEnv) (fun _ _ _ _ => true) (turns l) s

theorem playFrom_run {l : List (Client × Nat)} (h : playFrom l s = some t) :
    ∃ xs, Trace.Run (Step (act drawingEnv)) s xs t := by
  have hmap : (playFrom l s).map id = some t := by rw [h]; rfl
  obtain ⟨xs, t', hr, rfl⟩ := play_run hmap
  exact ⟨xs, hr.mono fun _ _ _ h => h.1⟩

theorem answer_ok (h : answer c t = some none) : ∃ v, t.prog c = .ret (.ok v) := by
  unfold answer at h
  split at h
  · exact ⟨_, ‹_›⟩
  · cases h
  · cases h

theorem registration_from_last_signUps : ∃ xs t, Trace.Run (Step (act drawingEnv))
      (initial drawingEnv signUps (accounts [])) xs t ∧ answer 2 t = some none ∧
      ∃ r ∈ t.db.registrations, r.client = 2 ∧ FromLast drawingEnv signUps (accounts []) "sara@shop.eg" r := by
  have hplay : ((playFrom [(0, 7), (2, 12)] (initial drawingEnv signUps (accounts []))).map (answer 2)) =
      some (some none) := by
    decide +kernel
  obtain ⟨t, ht, ha⟩ := Option.map_eq_some_iff.mp hplay
  obtain ⟨xs, hr⟩ := playFrom_run ht
  obtain ⟨v, hv⟩ := answer_ok ha
  obtain ⟨-, r, hm, hc, -, -, hl⟩ := registration_from_last (accounts_quiet []) hr rfl hv
  exact ⟨xs, t, hr, ha, r, hm, hc, hl⟩

/-- The verification with the code that was issued last in `s` registers the data that were
pending for the email in `s`. -/
def BoundToCode (c : Client) (email : String) (s t : State) : Prop :=
  ∀ otp w r, s.db.otps.head? = some otp → lastWrite email s.db.writes = some w →
    (⟨c, otp, .accepted⟩ : OtpEvent) ∈ t.db.history → r ∈ t.db.registrations → r.client = c →
    r.user.copies w.row

/-- The OTP of the first sign-up. -/
def firstOtp : AuthOtp where
  id := 0
  userId := none
  email := "sara@shop.eg"
  codeHash := "otp-secret/100000:00000000000000000000000000000000"
  salt := "00000000000000000000000000000000"
  purpose := .registration
  expiresAt := 600000
  createdAt := 0

/-- The second request replaces the pending data before its own code is drawn; the code of
the first request then registers its name and password. -/
theorem registration_hijacked : ∃ xs ys s t,
    Trace.Run (Step (act drawingEnv)) (initial drawingEnv signUps (accounts [])) xs s ∧
      Trace.Run (Step (act drawingEnv)) s ys t ∧ answer 0 s = some none ∧ answer 2 t = some none ∧
      s.db.otps = [firstOtp] ∧ t.db.otps = [firstOtp] ∧
      (lastWrite "sara@shop.eg" s.db.writes).map (·.row.name) = some "Sara" ∧
      t.db.registrations.map (fun r => (r.client, r.user.name, r.user.passwordHash)) =
        [(2, "Mallory", "Other456/00000000000000000000000000000000")] ∧
      ¬ BoundToCode 2 "sara@shop.eg" s t := by
  have hplay : ((playFrom [(0, 7)] (initial drawingEnv signUps (accounts []))).bind fun s =>
      (playFrom [(1, 4), (2, 12)] s).map fun t => decide
        (answer 0 s = some none ∧ answer 2 t = some none ∧ s.db.otps = [firstOtp] ∧ t.db.otps = [firstOtp] ∧
          (lastWrite "sara@shop.eg" s.db.writes).map (·.row.name) = some "Sara" ∧
          t.db.registrations.map (fun r => (r.client, r.user.name, r.user.passwordHash)) =
            [(2, "Mallory", "Other456/00000000000000000000000000000000")] ∧
          t.db.history = [⟨2, firstOtp, .accepted⟩, ⟨2, firstOtp, .lookedUp 0⟩])) = some true := by
    decide +kernel
  obtain ⟨s, hs, ht⟩ := Option.bind_eq_some_iff.mp hplay
  obtain ⟨t, ht, ho⟩ := Option.map_eq_some_iff.mp ht
  obtain ⟨xs, hx⟩ := playFrom_run hs
  obtain ⟨ys, hy⟩ := playFrom_run ht
  obtain ⟨ha, hb, hots, hott, hlast, hregs, hhist⟩ := of_decide_eq_true ho
  refine ⟨xs, ys, s, t, hx, hy, ha, hb, hots, hott, hlast, hregs, fun h => ?_⟩
  obtain ⟨w, hw, hname⟩ := Option.map_eq_some_iff.mp hlast
  obtain ⟨r, hr, hdata⟩ := List.mem_map.mp (hregs ▸ List.mem_singleton_self _)
  simp only [Prod.mk.injEq] at hdata
  have hcopy := h firstOtp w r (by rw [hots]; rfl) hw (by rw [hhist]; exact List.mem_cons_self) hr hdata.1
  have hbad := hdata.2.1.symm.trans (hcopy.1.trans hname)
  exact absurd hbad (by decide)

end Kayan.Auth
