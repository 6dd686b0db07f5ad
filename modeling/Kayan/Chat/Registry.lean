import Kayan.Chat.Rooms

/-!
# The registry of the sockets

A socket is registered after the verification of its token, and it leaves the registry when it
disconnects. Where it disconnects first, it is registered for good.
-/
namespace Kayan.Chat
open Interleave

variable {env : Env} {req : Client → Request} {m : Move} {c k : Client} {q : Stmt} {d d' : Db} {r : Answer q}
  {s t : State} {e : Taken} {xs : List Taken} {ph : Client → Seen} {u : Nat}

/-- The registry has the sockets that are open and authenticated, each under its user, and no empty
set. -/
structure Exact (d : Db) : Prop where
  mem : ∀ k u, k ∈ d.socketsOf u ↔ (d.sockets k).phase = .opened ∧ (d.sockets k).user = some u
  nonempty : ∀ u, d.registry u ≠ some []

/-- A socket that has closed is still registered. -/
def Leaked (d : Db) : Prop := ∃ k u, k ∈ d.socketsOf u ∧ (d.sockets k).phase = .closed

/-- A socket is registered only while it is open. -/
def Timely (s : State) (e : Taken) : Prop :=
  ∀ sub, e.stmt = .register sub → (s.db.sockets e.client).phase = .opened

/-- The notes, with what they say about the phases of the sockets. -/
structure Wiring (env : Env) (req : Client → Request) (d : Db) (ph : Client → Seen) : Prop
    extends Inv env req d ph where
  opened : ∀ k, (ph k).opened = true → (d.sockets k).phase ≠ .unborn
  unborn : ∀ k, (d.sockets k).phase = .unborn → (d.sockets k).user = none

section Phases

/-- A socket opens once, and what has closed stays closed. -/
theorem Wired.phase (hw : Wired env c d d' q) : (d'.sockets k).phase = (d.sockets k).phase ∨
    (k = c ∧ q = .openSocket ∧ (d.sockets k).phase = .unborn ∧ (d'.sockets k).phase = .opened) ∨
    ((d.sockets k).phase = .opened ∧ (d'.sockets k).phase = .closed) := by
  cases hw with
  | same hq hs hr =>
    rw [hs]
    exact Or.inl rfl
  | opened hp hs hr =>
    rw [hs]
    by_cases hk : k = c
    · subst hk
      simp [hp]
    · simp [hk]
  | registered hs hr =>
    rw [hs]
    by_cases hk : k = c
    · subst hk
      simp
    · simp [hk]
  | @closed k' q hq hp hs hr =>
    rw [hs]
    by_cases hk : k = k'
    · subst hk
      simp [closeSocket, hp]
    · simp [closeSocket, hk]
  | @joined k' room hs hr =>
    rw [hs, joinRoom]
    split
    · by_cases hk : k = k'
      · subst hk
        simp
      · simp [hk]
    · exact Or.inl rfl

theorem Wired.born (hw : Wired env c d d' q) (h : (d.sockets k).phase ≠ .unborn) :
    (d'.sockets k).phase ≠ .unborn := by
  rcases hw.phase (k := k) with hp | ⟨-, -, -, hp⟩ | ⟨-, hp⟩
  · rw [hp]
    exact h
  · simp [hp]
  · simp [hp]

theorem act_opens (h : act env m c q d = some (r, d')) (hq : q.opens r = true) :
    (d'.sockets c).phase ≠ .unborn := by
  cases q with
  | openSocket =>
    cases m with
    | fail e => cases h
    | run wait =>
      simp only [act, exec] at h
      split at h
      · cases h
        simp
      · cases h
  | _ => cases hq

end Phases

section Steps

theorem Wiring.start (hd : Starting d) : Wiring env req d fun c => Seen.start (req c) :=
  ⟨Inv.start hd, nofun, fun k _ => hd.user k⟩

theorem Wiring.step (h : Wiring env req s.db ph) (hm : (ph e.client).may env e.stmt)
    (hs : Step (act env) s e t) : Wiring env req t.db (noted Seen.after ph e) := by
  have ha := hs.acted
  refine ⟨h.toInv.step hm hs, fun k hk => ?_, fun k hk => ?_⟩
  · rcases noted_or Seen.after ph e k with ⟨rfl, hn⟩ | ⟨-, hn⟩
    · rw [hn] at hk
      rcases Bool.or_eq_true_iff.mp hk with hnew | hold
      · exact act_opens ha hnew
      · exact (act_wired ha).born (h.opened _ hold)
    · rw [hn] at hk
      exact (act_wired ha).born (h.opened k hk)
  · have hold : (s.db.sockets k).phase = .unborn := by
      by_contra hne
      exact (act_wired ha).born hne hk
    rcases (act_wired ha).user (k := k) with hu | ⟨rfl, sub, hq, -⟩
    · rw [hu]
      exact h.unborn k hold
    · rw [hq] at hm
      exact absurd hold (h.opened _ hm.1)

/-- A user id is a positive number. -/
theorem Authenticated.pos (h : Authenticated env req k u) : u ≠ 0 := by
  obtain ⟨handshake, token, payload, now, -, -, -, hsub⟩ := h
  obtain ⟨x, -, hx⟩ := Option.bind_eq_some_iff.mp hsub
  rintro rfl
  unfold positiveInteger at hx
  split at hx
  · rename_i hpos
    have hnum : 0 < x.num := Rat.num_pos.mpr hpos.2
    have := Option.some.inj hx
    omega
  · cases hx

theorem registerUserSocket_ne_nil {registry : Nat → Option (List Client)} {v : Nat}
    (h : registry v ≠ some []) : registerUserSocket u c registry v ≠ some [] := by
  unfold registerUserSocket
  by_cases hv : v = u
  · subst hv
    rw [Function.update_self]
    split
    · rename_i hc
      intro hnil
      rw [Option.some.inj hnil] at hc
      cases hc
    · simp
  · rw [Function.update_of_ne hv]
    exact h

theorem unregisterUserSocket_ne_nil {registry : Nat → Option (List Client)} {v : Nat}
    (h : registry v ≠ some []) : unregisterUserSocket u c registry v ≠ some [] := by
  unfold unregisterUserSocket
  rcases hu : registry u with _ | sockets
  · exact h
  · dsimp only
    by_cases hv : v = u
    · subst hv
      rw [Function.update_self]
      split
      · nofun
      · rename_i hne
        exact fun hnil => hne (Option.some.inj hnil)
    · rw [Function.update_of_ne hv]
      exact h

theorem closeSocket_ne_nil {v : Nat} (h : d.registry v ≠ some []) : (closeSocket k d).registry v ≠ some [] := by
  unfold closeSocket
  rcases hu : (d.sockets k).user with _ | sub
  · exact h
  · dsimp only
    split
    · exact h
    · exact unregisterUserSocket_ne_nil h

/-- A statement keeps the registry exact, where only an open socket without a user is registered. -/
theorem Wired.exact (hw : Wired env c d d' q) (hi : Exact d)
    (hborn : ∀ k, (d.sockets k).phase = .unborn → (d.sockets k).user = none)
    (hpos : ∀ k u, (d.sockets k).user = some u → u ≠ 0)
    (hreg : ∀ sub, q = .register sub → (d.sockets c).phase = .opened ∧ (d.sockets c).user = none) :
    Exact d' := by
  cases hw with
  | same hq hs hr =>
    refine ⟨fun k u => ?_, fun u => ?_⟩
    · rw [Db.socketsOf, hr, hs]
      exact hi.mem k u
    · rw [hr]
      exact hi.nonempty u
  | opened hp hs hr =>
    refine ⟨fun k u => ?_, fun u => ?_⟩
    · rw [Db.socketsOf, hr, hs]
      by_cases hk : k = c
      · subst hk
        refine (hi.mem k u).trans ?_
        simp [hp, hborn k hp]
      · rw [Function.update_of_ne hk]
        exact hi.mem k u
    · rw [hr]
      exact hi.nonempty u
  | @registered sub hs hr =>
    obtain ⟨hp, hu⟩ := hreg sub rfl
    refine ⟨fun k v => ?_, fun v => ?_⟩
    · rw [Db.socketsOf, hr, hs]
      refine mem_registerUserSocket.trans ?_
      by_cases hk : k = c
      · subst hk
        have hnot : k ∉ (d.registry v).getD [] := by
          intro hmem
          have huser := ((hi.mem k v).mp hmem).2
          rw [hu] at huser
          cases huser
        simp [hnot, hp, eq_comm]
      · rw [Function.update_of_ne hk]
        refine Iff.trans ⟨fun h => h.resolve_right fun hkc => hk hkc.1, Or.inl⟩ (hi.mem k v)
    · rw [hr]
      exact registerUserSocket_ne_nil (hi.nonempty v)
  | @closed k' q hq hp hs hr =>
    refine ⟨fun k v => ?_, fun v => ?_⟩
    · rw [Db.socketsOf, hr, hs]
      refine mem_closeSocket.trans ?_
      by_cases hk : k = k'
      · subst hk
        constructor
        · rintro ⟨hmem, hne⟩
          have huser := ((hi.mem k v).mp hmem).2
          exact absurd ⟨rfl, huser, hpos k v huser⟩ hne
        · rintro ⟨hclosed, -⟩
          simp [closeSocket] at hclosed
      · simp only [closeSocket, Function.update_of_ne hk]
        refine Iff.trans ⟨And.left, fun h => ⟨h, fun hkc => hk hkc.1⟩⟩ (hi.mem k v)
    · rw [hr]
      exact closeSocket_ne_nil (hi.nonempty v)
  | @joined k' room hs hr =>
    have hsame : ∀ k, (d'.sockets k).phase = (d.sockets k).phase ∧ (d'.sockets k).user = (d.sockets k).user := by
      intro k
      rw [hs, joinRoom]
      split
      · by_cases hk : k = k'
        · subst hk
          simp
        · simp [hk]
      · exact ⟨rfl, rfl⟩
    refine ⟨fun k u => ?_, fun u => ?_⟩
    · rw [Db.socketsOf, hr, (hsame k).1, (hsame k).2]
      exact hi.mem k u
    · rw [hr]
      exact hi.nonempty u

/-- What has leaked is never taken away. -/
theorem Wired.leaked (hw : Wired env c d d' q) (h : Leaked d) : Leaked d' := by
  obtain ⟨k, u, hk, hp⟩ := h
  refine ⟨k, u, ?_, ?_⟩
  · cases hw with
    | same hq hs hr | opened hp hs hr | joined hs hr =>
      rw [Db.socketsOf, hr]
      exact hk
    | registered hs hr =>
      rw [Db.socketsOf, hr]
      exact mem_registerUserSocket.mpr (Or.inl hk)
    | closed hq hopen hs hr =>
      rw [Db.socketsOf, hr]
      refine mem_closeSocket.mpr ⟨hk, ?_⟩
      rintro ⟨rfl, -⟩
      rw [hp] at hopen
      cases hopen
  · rcases hw.phase (k := k) with hsame | ⟨-, -, hborn, -⟩ | ⟨hopen, -⟩
    · rw [hsame]
      exact hp
    · rw [hp] at hborn
      cases hborn
    · rw [hp] at hopen
      cases hopen

/-- A registration that is too late leaks. -/
theorem act_late {sub : Nat} (hq : q = .register sub) (h : act env m c q d = some (r, d'))
    (hp : (d.sockets c).phase = .closed) : Leaked d' := by
  subst hq
  cases m with
  | fail e => cases h
  | run wait =>
    cases h
    refine ⟨c, sub, mem_registerUserSocket.mpr (Or.inr ⟨rfl, rfl⟩), ?_⟩
    simp [hp]

theorem Leaked.not_exact (h : Leaked d) : ¬ Exact d := by
  obtain ⟨k, u, hk, hp⟩ := h
  intro hi
  have hopen := ((hi.mem k u).mp hk).1
  rw [hp] at hopen
  cases hopen

theorem Starting.exact (hd : Starting d) : Exact d where
  mem k u := by
    rw [Db.socketsOf, hd.registry, hd.user]
    simp
  nonempty u := by
    intro h
    rw [hd.registry] at h
    cases h

/-- The socket registry is exact in a state of a run exactly when every registration of the run was
made while its socket was open. -/
theorem registry_exact_iff (hd : Starting d) (hr : Trace.Run (Step (act env)) (initial env req d) xs t) :
    Exact t.db ↔ Trace.Run (fun s e t => Step (act env) s e t ∧ Timely s e) (initial env req d) xs t := by
  refine kept_intact_iff Seen.after (I := fun s : State => Exact s.db) (B := fun s => Leaked s.db)
    (J := fun u => Wiring env req u.1.db u.2 ∧ InPhase (calls env) ends u.2 u.1) ?_ ?_ ?_ ?_ ?_ hr
    ⟨Wiring.start hd, initial_follows⟩ hd.exact
  · rintro ⟨s, ph⟩ e ⟨t, ph'⟩ ⟨hs, rfl⟩ ⟨hw, hp⟩
    obtain ⟨hm, hp'⟩ := hp.noted hs
    exact ⟨hw.step hm hs, hp'⟩
  · exact fun s e t hs hl => (act_wired hs.acted).leaked hl
  · rintro s ph e t hs ⟨hw, hp⟩ hc hi
    refine (act_wired hs.acted).exact hi hw.unborn (fun k u hu => (hw.genuine k u hu).pos) fun sub hq => ?_
    have hm := (hp.noted hs).1
    rw [hq] at hm
    exact ⟨hc sub hq, (hw.registered _).trans hm.2.1⟩
  · rintro s ph e t hs ⟨hw, hp⟩ hc
    simp only [Timely, not_forall] at hc
    obtain ⟨sub, hq, hne⟩ := hc
    have hm := (hp.noted hs).1
    rw [hq] at hm
    have hborn := hw.opened _ hm.1
    refine act_late hq hs.acted ?_
    rcases hph : (s.db.sockets e.client).phase
    · exact absurd hph hborn
    · exact absurd hph hne
    · rfl
  · exact fun s hl => hl.not_exact

end Steps

section Fixtures

/-- The first user's socket opens and disconnects. -/
def hanging : Client → Request
  | 0 => .connect (bearer "1")
  | _ => .disconnect 0

/-- A socket is opened before it is registered. -/
def opensFirst (s : State) (e : Taken) : Bool :=
  match e.stmt with
  | .register _ => (s.db.sockets e.client).phase == .opened
  | _ => true

/-- Both users are connected and registered. -/
theorem registry_exact_meeting : ∃ xs t,
    Trace.Run (Step (act openEnv)) (initial openEnv meeting quiet) xs t ∧ Exact t.db ∧
      (0 ∈ t.db.socketsOf 1 ∧ 1 ∈ t.db.socketsOf 2) := by
  have hplay : (replay (act openEnv) opensFirst (inOrder 0 3 ++ inOrder 1 3) (initial openEnv meeting quiet)).map
        (fun t => (t.db.socketsOf 1, t.db.socketsOf 2)) = some ([0], [1]) := by
    decide +kernel
  obtain ⟨xs, t, hr, ht⟩ := replay_run hplay
  obtain ⟨h₁, h₂⟩ := Prod.mk.inj ht
  have htimely : Trace.Run (fun s e t => Step (act openEnv) s e t ∧ Timely s e)
      (initial openEnv meeting quiet) xs t := by
    refine hr.mono fun s e t h => ⟨h.1, fun sub hq => ?_⟩
    have hok := h.2
    rw [opensFirst, hq] at hok
    exact eq_of_beq hok
  have hrun := htimely.mono fun _ _ _ h => h.1
  refine ⟨xs, t, hrun, (registry_exact_iff quiet_starting hrun).mpr htimely, ?_⟩
  rw [h₁, h₂]
  exact ⟨List.mem_cons_self, List.mem_cons_self⟩

/-- The disconnect comes while the token is verified: the closed socket is registered for good. -/
theorem registry_leaks : ∃ xs t, Trace.Run (Step (act openEnv)) (initial openEnv hanging quiet) xs t ∧
    Rested xs t ∧ ¬ Exact t.db := by
  have hplay : (play (act openEnv) (fun _ _ _ _ => true)
      (inOrder 0 1 ++ inOrder 1 1 ++ inOrder 0 2) (initial openEnv hanging quiet)).map (fun t =>
        ((inOrder 0 1 ++ inOrder 1 1 ++ inOrder 0 2).all fun x => (t.prog x.1).ended,
          decide (0 ∈ t.db.socketsOf 1) && (t.db.sockets 0).phase == .closed)) = some (true, true) := by
    decide +kernel
  obtain ⟨xs, t, hr, hms, ht⟩ := play_trace hplay
  obtain ⟨hended, hleak⟩ := Prod.mk.inj ht
  obtain ⟨hmem, hp⟩ := Bool.and_eq_true_iff.mp hleak
  have hleaked : Leaked t.db := ⟨0, 1, of_decide_eq_true hmem, eq_of_beq hp⟩
  exact ⟨xs, t, hr.mono fun _ _ _ h => h.1, Rested.of_schedule hms hended, hleaked.not_exact⟩

end Fixtures

end Kayan.Chat
