import Kayan.Sessions.Signing

/-!
# Admin rights in accepted tokens

`validate` copies the admin flag from the token, not from the row. It is the row's all the
same: whatever changes the flag raises the version, and the token has the version of the row.
-/
namespace Kayan.Sessions
open Interleave Auth Versions RowStore

section Claims
variable {p : TokenPayload} {n k : Nat}

theorem get_sub : Fields.get "sub" (claims p) = some (.str (toString p.sub)) := rfl

theorem get_isAdmin : Fields.get "isAdmin" (claims p) = some (.bool p.isAdmin) := rfl

theorem get_tokenVersion : Fields.get "tokenVersion" (claims p) = some (.num p.tokenVersion) := rfl

theorem hasVersion_claims : hasVersion n (claims p) = true ↔ p.tokenVersion = n := by
  simp [hasVersion, get_tokenVersion]

theorem toPositiveInt_toString (h : toPositiveInt (some (.str (toString n))) = some k) : k = n := by
  simp only [toPositiveInt, stringToNumber_toString, Option.bind_some] at h
  split at h
  · cases h
  · unfold positiveInteger at h
    split at h
    · exact (Option.some.inj h).symm
    · cases h

theorem toString_inj (h : some (Payload.str (toString n)) = some (.str (toString k))) : n = k := by
  have hs : toString n = toString k := by simpa using h
  have hq := congrArg stringToNumber hs
  rw [stringToNumber_toString, stringToNumber_toString] at hq
  exact Nat.cast_injective (Option.some.inj hq)

end Claims

/-- The payload of a token that is out: a call that has ended has returned the token. -/
def Out (env : Env) (s : State) (payload : JwtPayload) : Prop :=
  ∃ b r token secret now, s.prog b = .ret (.ok r) ∧ r.bears token ∧
    env.verifyAsync token secret now = some payload

variable {env : Env} {req : Client → Request} {d : Db} {s t : State} {e : Taken} {xs : List Taken}
  {ph : Client → Seen} {payload payload' : JwtPayload}

/-- A token that was found valid is out. -/
theorem Sound.out {x : Seen} {v : String × JwtPayload} (h : Sound env s ph x v) : Out env s v.2 := by
  obtain ⟨secret, now, -, hv⟩ := h.checked
  obtain ⟨b, r, a, jti, _, _, _, hb, hr, -⟩ := h.issued
  exact ⟨b, r, v.1, secret, now, hb, hr, hv⟩

/-- A token that is out was signed for an active account that a call has read. -/
theorem Inv.out (hdec : Decodes env) (h : Inv env req s ph) (ho : Out env s payload) :
    ∃ b a jti, (ph b).account = some a ∧ a.status = .active ∧ payload = claims (payloadOf a jti) := by
  obtain ⟨b, r, token, secret, now, hb, hr, hv⟩ := ho
  obtain ⟨a, jti, secret', ttl, issued, ha, hact, -, -, htoken⟩ := (h.phase.result hb r rfl).1 token hr
  rw [htoken] at hv
  exact ⟨b, a, jti, ha, hact, hdec _ _ _ _ _ _ _ hv⟩

/-- The version of a user identifies the admin flag that a token was issued under. -/
theorem Inv.version_identifies (hdec : Decodes env) (h : Inv env req s ph) (ho : Out env s payload)
    (ho' : Out env s payload') (hsub : Fields.get "sub" payload = Fields.get "sub" payload')
    (hver : Fields.get "tokenVersion" payload = Fields.get "tokenVersion" payload') :
    Fields.get "isAdmin" payload = Fields.get "isAdmin" payload' := by
  obtain ⟨b, a, jti, ha, -, rfl⟩ := h.out hdec ho
  obtain ⟨b', a', jti', ha', -, rfl⟩ := h.out hdec ho'
  have hid : a.id = a'.id := toString_inj hsub
  have hv : a.tokenVersion = a'.tokenVersion := by
    have hq : (a.tokenVersion : ℚ) = a'.tokenVersion := Payload.num.inj (Option.some.inj hver)
    exact Nat.cast_injective hq
  have hadmin := h.agree b b' a a' ha ha' hid hv
  rw [get_isAdmin, get_isAdmin]
  exact congrArg (fun x => some (Payload.bool x)) hadmin

/-- The call that gets its user in this step gets the user of its token, as the row stands. -/
theorem Inv.accepted (hdec : Decodes env) (h : Inv env req s ph) (hs : Honest env s e t) {u : AuthUser}
    (hu : t.prog e.client = .ret (.ok (.user u))) :
    ∃ token payload now row, req e.client = .authenticate token ∧
      env.verifyAsync token env.config.jwtAccessSecret now = some payload ∧
      toPositiveInt (Fields.get "sub" payload) = some u.sub ∧
      t.db.auth.users.committed u.sub = some row ∧ row.deleted = false ∧
      u.isAdmin = some (.bool row.isAdmin) ∧ Fields.get "isAdmin" payload = some (.bool row.isAdmin) := by
  have ht := h.step hdec hs
  obtain ⟨-, ⟨token, payload, row, hreq, hver, hsub, hshown, hversion, hadmin⟩, -⟩ :=
    ht.phase.result hu _ rfl
  obtain ⟨⟨secret, now, hp, hv⟩, b, r, a, jti, _, _, _, -, -, ha, -, -, -, hclaims⟩ := ht.sound _ _ hver
  have hclaims : payload = claims (payloadOf a jti) := hclaims
  have hasked : req e.client = .authenticate token := (ht.asked _).symm.trans hreq
  -- the last statement has shown the row, for none was shown before it
  have hrow : e.stmt.shown e.reply = some (u.sub, row) := by
    have hnone : (ph e.client).shown = none := (h.phase.noted hs.1).1.1
    rw [noted_self] at hshown
    simpa [Seen.after, hnone] using hshown
  obtain ⟨user, hc, hd, rfl⟩ := act_shown hs.1.acted hrow
  have hid : u.sub = a.id := by
    rw [hclaims, get_sub] at hsub
    exact toPositiveInt_toString hsub
  have hcreds : (standingOf a).creds = ⟨user.isAdmin, user.tokenVersion⟩ := by
    have hle := ht.behind b a ha
    rw [← hid, Db.standing, hc] at hle
    refine Versioned.eq_of_version hle ?_
    rw [hclaims, hasVersion_claims] at hversion
    exact hversion
  have hflag : Fields.get "isAdmin" payload = some (.bool user.isAdmin) := by
    rw [hclaims, get_isAdmin]
    exact congrArg (fun x => some (Payload.bool x.value)) hcreds
  refine ⟨token, payload, now, user, hasked, ?_, hsub, hc, hd, hadmin.trans hflag, hflag⟩
  rcases hp with ⟨hp | hp, -⟩ | ⟨-, hsecret⟩
  · rw [hreq] at hp
    cases hp
  · rw [hreq] at hp
    cases hp
  · rw [← hsecret]
    exact hv

/-- Mona's request before her promotion, and one with a token from after it. -/
def promotion : Client → Request
  | 0 => .login "mona@shop.eg" "Secret123"
  | 1 => .authenticate (accessOf mona)
  | 2 => .promoteAdmin 0 1
  | 3 => .login "mona@shop.eg" "Secret123"
  | _ => .authenticate (accessOf { mona with isAdmin := true, tokenVersion := 1 })

end Kayan.Sessions
