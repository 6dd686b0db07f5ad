import Kayan.Sessions.Suspended

/-!
# Deleted accounts

`validate`, `login`, `refresh` and `resetPassword` look for an account that is not deleted, and
nothing takes a deletion back. So no call that begins after the deletion serves the user, with
whatever tokens are out.
-/
namespace Kayan.Sessions
open Interleave Auth Versions

/-- The statement that deletes the user. -/
def Stmt.deletes (u : Nat) : (q : Stmt) → Answer q → Bool
  | .deleteUser userId, .ok deleted => userId = u && (deleted : Bool)
  | _, _ => false

variable {env : Env} {req : Client → Request} {d : Db} {s t v : State} {e : Taken} {xs ys zs : List Taken}
  {ph : Client → Seen} {u : Nat} {c : Client}

/-- What holds of a deleted user: none of the late calls has found its account. -/
structure Gone (env : Env) (req : Client → Request) (u : Nat) (late : Client → Prop) (s : State)
    (ph : Client → Seen) : Prop where
  inv : Inv env req s ph
  deleted : (s.db.standing u).deleted = true
  reads : ∀ c a, late c → (ph c).account = some a → a.id ≠ u
  shown : ∀ c userId row, late c → (ph c).shown = some (userId, row) → userId ≠ u

/-- Nothing takes a deletion back. -/
theorem restand_deleted {q : Stmt} {r : Answer q} {st : Standing} (hst : st.deleted = true) :
    (restand (q.restands r) u st).deleted = true := by
  unfold restand
  split
  · rename_i userId f hf
    split
    · cases q with
      | updateIsAdmin isAdmin userId =>
        rcases r with e | _ | user <;> cases hf
        exact hst
      | updateStatus status userId =>
        rcases r with e | _ | user <;> cases hf
        exact hst
      | deleteUser userId =>
        rcases r with e | _ | _ <;> cases hf
        rfl
      | _ => cases hf
    · exact hst
  · exact hst

theorem deletes_restands {q : Stmt} {r : Answer q} (h : q.deletes u r = true) (st : Standing) :
    (restand (q.restands r) u st).deleted = true := by
  cases q with
  | deleteUser userId =>
    rcases r with e | _ | _
    · cases h
    · simp [Stmt.deletes] at h
    · obtain ⟨hu, -⟩ := Bool.and_eq_true_iff.mp h
      obtain rfl := of_decide_eq_true hu
      have hself : restand ((Stmt.deleteUser userId).restands (.ok true)) userId st =
          { st with deleted := true, creds := ⟨st.creds.value, st.creds.version + 1⟩ } := if_pos rfl
      rw [hself]
  | _ => cases h

theorem Gone.step {late : Client → Prop} (hdec : Decodes env) (h : Gone env req u late s ph)
    (hs : Honest env s e t) : Gone env req u late t (noted Seen.after ph e) := by
  have hgone : (t.db.standing u).deleted = true := by
    rw [(act_standing hs.1.acted h.inv.users).2 u]
    exact restand_deleted h.deleted
  refine ⟨h.inv.step hdec hs, hgone, fun c a hc ha hid => ?_, fun c userId row hc hr hid => ?_⟩
  · rcases h.inv.accounts hs.1 c a ha with hcur | ⟨a₀, ha₀, hid₀, -⟩
    · rw [← hid, hcur] at hgone
      cases hgone
    · exact h.reads c a₀ hc ha₀ (hid₀.trans hid)
  · rcases noted_field Seen.shown Stmt.shown (fun _ _ _ => rfl) hr with hold | ⟨-, hnew⟩
    · exact h.shown c userId row hc hold hid
    · obtain ⟨user, hcm, hlive, -⟩ := act_shown hs.1.acted hnew
      rw [← hid, Db.standing, hcm] at hgone
      cases hlive.symm.trans hgone

theorem Gone.run {late : Client → Prop} (hdec : Decodes env) (h : Gone env req u late s ph)
    (hr : Trace.Run (Honest env) s xs t) : Gone env req u late t (xs.foldl (noted Seen.after) ph) := by
  refine (kept_run Seen.after hr ph).preserves (I := fun w => Gone env req u late w.1 w.2) ?_ h
  rintro ⟨s, ph⟩ e ⟨t, ph'⟩ ⟨hs, rfl⟩ h
  exact h.step hdec hs

/-- A late call does not serve the user. -/
theorem Gone.serves {late : Client → Prop} (hdec : Decodes env) (h : Gone env req u late s ph) (hl : late c)
    {r : Result} (hr : s.prog c = .ret (.ok r)) : ¬ r.serves env u := by
  have hends := h.inv.phase.result hr r rfl
  rintro (⟨v, rfl, rfl⟩ | ⟨token, secret, now, payload, hb, hv, hsub⟩)
  · obtain ⟨-, ⟨token, payload, row, -, -, -, hshown, -, -⟩, -⟩ := hends
    exact h.shown c v.sub row hl hshown rfl
  · obtain ⟨a, jti, secret', ttl, issued, ha, -, -, -, rfl⟩ := hends.1 token hb
    obtain rfl := hdec _ _ _ _ _ _ _ hv
    exact h.reads c a hl ha (toPositiveInt_toString hsub).symm

/-- In every run without forged tokens, once a user is deleted it stays deleted, and no call that begins
after the deletion is accepted for the user or gets a token for the user, whatever tokens were handed out
before and whatever calls were running. -/
theorem deleted_for_good (hdec : Decodes env) (hd : Starting d) (hys : Trace.Run (Honest env) (initial env req d) ys s)
    (hs : Honest env s e v) (he : e.stmt.deletes u e.reply = true) (hzs : Trace.Run (Honest env) v zs t) :
    (t.db.standing u).deleted = true ∧
      ∀ c r, (∀ f ∈ ys ++ [e], f.client ≠ c) → t.prog c = .ret (.ok r) → ¬ r.serves env u := by
  have hi := Inv.reached hdec hd hys
  have hidle : ∀ c, (∀ f ∈ ys ++ [e], f.client ≠ c) → noted Seen.after (seen req ys) e c = start req c := by
    intro c hc
    have hnotes := notes_of_idle Seen.after (start req) hc
    rwa [List.foldl_append] at hnotes
  have hgone : Gone env req u (fun c => ∀ f ∈ ys ++ [e], f.client ≠ c) v (noted Seen.after (seen req ys) e) := by
    refine ⟨hi.step hdec hs, ?_, fun c a hc ha => ?_, fun c userId row hc hr => ?_⟩
    · rw [(act_standing hs.1.acted hi.users).2 u]
      exact deletes_restands he _
    · rw [hidle c hc] at ha
      cases ha
    · rw [hidle c hc] at hr
      cases hr
  have ht := hgone.run hdec hzs
  exact ⟨ht.deleted, fun c r hc hr => ht.serves hdec hc hr⟩

section Fixtures

/-- A step that plays a deletion of user 1 by the call of this client. -/
def deletingBy (admin : Client) (s : State) (e : Taken) : Bool :=
  genuineBy 8 s e && (e.client ≠ admin || e.stmt.deletes 1 e.reply)

theorem deletingBy_honest {admin : Client} (hs : Step (act env) s e t) (h : deletingBy admin s e = true) :
    Honest env s e t :=
  ⟨hs, genuineBy_genuine (Bool.and_eq_true_iff.mp h).1⟩

theorem deletingBy_deletes (h : deletingBy e.client s e = true) : e.stmt.deletes 1 e.reply = true := by
  simpa [deletingBy] using (Bool.and_eq_true_iff.mp h).2

/-- Mona logs in, deletes her account, and sends a request with the token that she still has. -/
def leaving : Client → Request
  | 0 => .login "mona@shop.eg" "Secret123"
  | 1 => .deleteMe 1
  | _ => .authenticate (accessOf mona)

/-- Her request has ended, and was not accepted. -/
theorem deleted_for_good_leaving : ∃ ys s e v zs t,
    Trace.Run (Honest (openEnv false)) (initial (openEnv false) leaving shop) ys s ∧
      Honest (openEnv false) s e v ∧ e.stmt.deletes 1 e.reply = true ∧ Trace.Run (Honest (openEnv false)) v zs t ∧
      (t.prog 2).ended = true ∧ ∀ r, t.prog 2 = .ret (.ok r) → ¬ r.serves (openEnv false) 1 := by
  have hplay : (replay (act (openEnv false)) (deletingBy 1) (turns [(0, 5)] ++ (1, .run 0 0) :: turns [(2, 2)])
      (initial (openEnv false) leaving shop)).map (fun t => (t.prog 2).ended) = some true := by
    decide +kernel
  obtain ⟨t, ht, hended⟩ := Option.map_eq_some_iff.mp hplay
  obtain ⟨ys, s, hys, hclients, hs⟩ := replay_steps ht
  obtain ⟨e, v, hc, -, hstep, hok, hv⟩ := replay_step hs
  obtain ⟨zs, t', hzs, ht'⟩ := replay_run (f := fun t => (t.prog 2).ended) (Option.map_eq_some_iff.mpr ⟨t, hv, hended⟩)
  have hys := hys.mono fun _ _ _ h => deletingBy_honest h.1 h.2
  have hzs := hzs.mono fun _ _ _ h => deletingBy_honest h.1 h.2
  have hs := deletingBy_honest hstep hok
  rw [← hc] at hok
  have he := deletingBy_deletes hok
  refine ⟨ys, s, e, v, zs, t', hys, hs, he, hzs, ht', fun r hr => ?_⟩
  refine (deleted_for_good openEnv_decodes shop_starting hys hs he hzs).2 2 r (fun f hf hclient => ?_) hr
  rcases List.mem_append.mp hf with hf | hf
  · have hmem : (f.client, f.move) ∈ turns [(0, 5)] := by
      rw [← hclients]
      exact List.mem_map_of_mem (f := fun e : Taken => (e.client, e.move)) hf
    rw [hclient] at hmem
    simp [turns] at hmem
  · rw [List.mem_singleton.mp hf, hc] at hclient
    cases hclient

end Fixtures

end Kayan.Sessions
