import Kayan.Chat.Followup
import Kayan.Chat.Speaking

/-!
# The messages of the follow-up chats

In every run the follow-up messages are those that were there at first and those that the calls send,
each by the user or an admin of its conversation. Conversations stay, one for each item and user.
-/
namespace Kayan.Chat.Transcripts
open Interleave

section Followups
variable {env : Env} {req : Client → Request} {s t u : State} {e : Taken} {xs ys : List Taken}
  {lp : Client → Learned} {d d' : Db} {m : Move} {c : Client} {q : Stmt} {r : Answer q}

/-- The follow-up message that a step writes. -/
def postFollowup (e : Taken) : Option FollowupMessage := postedFollowup e.stmt e.reply

/-- The follow-up messages after a statement are those before it and the one that it writes, as it was asked to. -/
theorem act_log (h : act env m c q d = some (r, d')) :
    d'.followupMessages.rows = d.followupMessages.rows ++ (postedFollowup q r).toList ∧
      ∀ v, postedFollowup q r = some v → q = .insertFollowupMessage v.conversationId v.senderId v.text := by
  by_cases hq : ∀ id u t, q ≠ .insertFollowupMessage id u t
  · have hnone : postedFollowup q r = none := by
      cases q with
      | insertFollowupMessage id u t => exact absurd rfl (hq id u t)
      | _ => rfl
    rw [hnone, act_followupMessages hq h]
    exact ⟨(List.append_nil _).symm, fun _ hv => by cases hv⟩
  · push Not at hq
    obtain ⟨id, u, text, rfl⟩ := hq
    cases m with
    | fail e =>
      obtain ⟨-, rfl, rfl⟩ := act_fail h
      exact ⟨(List.append_nil _).symm, fun _ hv => by cases hv⟩
    | run wait =>
      simp only [act, exec] at h
      split at h
      on_goal 2 => split at h
      case isFalse.isFalse =>
        cases h
        refine ⟨rfl, fun v hv => ?_⟩
        cases hv
        rfl
      all_goals
        cases h
        exact ⟨(List.append_nil _).symm, fun _ hv => by cases hv⟩

/-- What a statement does to the follow-up conversations. -/
inductive Assigned (d d' : Db) : Prop
  | same (hrows : d'.followups = d.followups)
  | reassigned (f : FollowupConversation) (adminId : Nat) (hf : f ∈ d.followups.rows)
      (hd : d'.followups = ⟨d.followups.rows.map fun g => if g.id = f.id then { f with adminId } else g,
        d.followups.next + 1⟩)
  | opened (f : FollowupConversation) (hid : f.id = d.followups.next)
      (hfree : ∀ g ∈ d.followups.rows, ¬ (g.itemType = f.itemType ∧ g.itemId = f.itemId ∧ g.userId = f.userId))
      (hd : d'.followups = ⟨d.followups.rows ++ [f], d.followups.next + 1⟩)

theorem act_assigned (h : act env m c q d = some (r, d')) : Assigned d d' := by
  cases m with
  | fail e =>
    obtain ⟨-, -, rfl⟩ := act_fail h
    exact .same rfl
  | run wait =>
    cases q with
    | upsertFollowup itemType itemId userId adminId =>
      simp only [act, exec] at h
      split at h
      · rename_i f hf
        cases h
        exact .reassigned f adminId (List.mem_of_find?_eq_some hf) rfl
      · rename_i hf
        cases h
        refine .opened { id := _, itemType, itemId, userId, adminId, createdAt := _ } rfl (fun g hg hsame => ?_) rfl
        exact List.find?_eq_none.mp hf g hg (decide_eq_true hsame)
    | insertConversation | insertMessage | insertFollowupMessage | openSocket | disconnect | deliver =>
      simp only [act, exec] at h
      repeat' split at h
      all_goals
        cases h
        try exact .same rfl
    | kick =>
      cases h
      split <;> exact .same rfl
    | join k room =>
      cases h
      unfold joinRoom
      split <;> exact .same rfl
    | _ =>
      cases h
      exact .same rfl

/-- The keys of the follow-up conversations. -/
structure FollowupKeys (d : Db) : Prop where
  ids : (d.followups.rows.map (·.id)).Nodup
  fresh : ∀ f ∈ d.followups.rows, f.id < d.followups.next
  keys : (d.followups.rows.map fun f => (f.itemType, f.itemId, f.userId)).Nodup

/-- A conversation stays, whoever becomes its admin. -/
def Stays (d d' : Db) : Prop :=
  ∀ f ∈ d.followups.rows, ∃ f' ∈ d'.followups.rows, f' = { f with adminId := f'.adminId }

theorem Assigned.step (h : Assigned d d') (hk : FollowupKeys d) : FollowupKeys d' ∧ Stays d d' := by
  cases h with
  | same hrows => exact ⟨⟨hrows ▸ hk.ids, hrows ▸ hk.fresh, hrows ▸ hk.keys⟩, fun f hf => ⟨f, hrows ▸ hf, rfl⟩⟩
  | reassigned f adminId hf hd =>
    -- the row that is replaced is the only one with its id
    have hsame : d.followups.rows.map (fun g => if g.id = f.id then { f with adminId } else g) =
        d.followups.rows.map fun g => if g.id = f.id then { g with adminId } else g := by
      refine List.map_congr_left fun g hg => ?_
      split
      · rename_i hid
        rw [List.inj_on_of_nodup_map hk.ids hg hf hid]
      · rfl
    rw [hsame] at hd
    have hmap {α : Type} (k : FollowupConversation → α) (hk : ∀ g a, k { g with adminId := a } = k g) :
        d'.followups.rows.map k = d.followups.rows.map k := by
      rw [hd, List.map_map]
      refine List.map_congr_left fun g _ => ?_
      rw [Function.comp_apply]
      split
      · exact hk g adminId
      · rfl
    refine ⟨⟨?_, fun g hg => ?_, ?_⟩, fun g hg => ?_⟩
    · rw [hmap _ fun _ _ => rfl]
      exact hk.ids
    · have hmem : g.id ∈ d.followups.rows.map (·.id) := by
        rw [← hmap _ fun _ _ => rfl]
        exact List.mem_map_of_mem hg
      obtain ⟨g₀, hg₀, hid⟩ := List.mem_map.mp hmem
      rw [hd, ← hid]
      exact Nat.lt_succ_of_lt (hk.fresh g₀ hg₀)
    · rw [hmap _ fun _ _ => rfl]
      exact hk.keys
    · rw [hd]
      refine ⟨_, List.mem_map_of_mem hg, ?_⟩
      split <;> rfl
  | opened f hid hfree hd =>
    refine ⟨⟨?_, fun g hg => ?_, ?_⟩, fun g hg => ?_⟩
    · rw [hd, List.map_append, List.nodup_append]
      refine ⟨hk.ids, List.nodup_singleton _, ?_⟩
      rintro a ha b hb rfl
      obtain ⟨g, hg, rfl⟩ := List.mem_map.mp ha
      have hlt := hk.fresh g hg
      have hgf : g.id = f.id := List.mem_singleton.mp hb
      omega
    · rw [hd] at hg ⊢
      change g.id < d.followups.next + 1
      rcases List.mem_append.mp hg with hg | hg
      · have := hk.fresh g hg
        omega
      · rw [List.mem_singleton.mp hg, hid]
        exact Nat.lt_succ_self _
    · rw [hd, List.map_append, List.nodup_append]
      refine ⟨hk.keys, List.nodup_singleton _, ?_⟩
      rintro a ha b hb rfl
      obtain ⟨g, hg, rfl⟩ := List.mem_map.mp ha
      obtain ⟨ht, hrest⟩ := Prod.mk.inj (List.mem_singleton.mp hb)
      obtain ⟨hi, hu⟩ := Prod.mk.inj hrest
      exact hfree g hg ⟨ht, hi, hu⟩
    · rw [hd]
      exact ⟨g, List.mem_append_left _ hg, rfl⟩

theorem Stays.trans {d'' : Db} (h : Stays d d') (h' : Stays d' d'') : Stays d d'' := by
  intro f hf
  obtain ⟨f', hf', he⟩ := h f hf
  obtain ⟨f'', hf'', he'⟩ := h' f' hf'
  refine ⟨f'', hf'', ?_⟩
  rw [he', he]

/-- The user had access to the conversation at some time before: it was its user or its admin. -/
def HadAccess (env : Env) (s : State) (ys : List Taken) (id userId : Nat) : Prop :=
  ∃ ws w, ws <+: ys ∧ Trace.Run (Step (act env)) s ws w ∧
    ∃ f ∈ w.db.followups.rows, f.id = id ∧ (userId = f.userId ∨ userId = f.adminId)

/-- What a run does to the follow-up chats. -/
structure FollowupsAuthentic (env : Env) (req : Client → Request) (s : State) (xs : List Taken) (t : State) : Prop where
  log : t.db.followupMessages.rows = s.db.followupMessages.rows ++ xs.filterMap postFollowup
  sender : ∀ ys e zs m, xs = ys ++ e :: zs → postFollowup e = some m →
    (∃ scope, req e.client = .sendFollowup m.senderId m.conversationId m.text scope) ∧
      HadAccess env s ys m.conversationId m.senderId
  keys : FollowupKeys t.db
  stays : Stays s.db t.db

/-- What the notes say about the conversations that were looked up. -/
structure Granted (env : Env) (req : Client → Request) (s : State) (ys : List Taken) (lp : Client → Learned) : Prop where
  asked : ∀ c, (lp c).req = req c
  access : ∀ c id owner admin u, (lp c).access = some (id, owner, admin) → u = owner ∨ u = admin →
    HadAccess env s ys id u

theorem HadAccess.mono {id userId : Nat} (h : HadAccess env s ys id userId) (hp : ys <+: xs) :
    HadAccess env s xs id userId := by
  obtain ⟨ws, w, hw, hr, hf⟩ := h
  exact ⟨ws, w, hw.trans hp, hr, hf⟩

theorem act_granted {id owner admin : Nat} (h : act env m c q d = some (r, d')) (hg : granted q r = some (id, owner, admin)) :
    ∃ f ∈ d.followups.rows, f.id = id ∧ f.userId = owner ∧ f.adminId = admin := by
  cases q with
  | selectFollowupAccess i =>
    cases m with
    | fail e =>
      obtain ⟨-, rfl, -⟩ := act_fail h
      cases hg
    | run wait =>
      cases h
      obtain ⟨p, hp, he⟩ := Option.map_eq_some_iff.mp hg
      obtain ⟨f, hf, hv⟩ := Option.map_eq_some_iff.mp hp
      cases hv
      cases he
      have hid := List.find?_some hf
      exact ⟨f, List.mem_of_find?_eq_some hf, of_decide_eq_true hid, rfl, rfl⟩
  | _ => cases hg

theorem Granted.step (h : Granted env req s ys lp) (hr : Trace.Run (Step (act env)) s ys u) (hs : Step (act env) u e t) :
    Granted env req s (ys ++ [e]) (noted Learned.after lp e) := by
  have hp : ys <+: ys ++ [e] := List.prefix_append _ _
  refine ⟨fun c => ?_, fun c id owner admin v ha hv => ?_⟩
  · rcases noted_or Learned.after lp e c with ⟨-, hn⟩ | ⟨-, hn⟩
    · rw [hn]
      exact h.asked c
    · rw [hn]
      exact h.asked c
  · rcases noted_field Learned.access granted (fun _ _ _ => rfl) ha with hold | ⟨rfl, hnew⟩
    · exact (h.access c id owner admin v hold hv).mono hp
    · obtain ⟨f, hf, hid, rfl, rfl⟩ := act_granted hs.acted hnew
      exact ⟨ys, u, hp, hr, f, hf, hid, hv⟩

/-- Follow-up chats are authentic and only grow, whatever is interleaved: every message in them was sent
by the user of its conversation or by one who had been its admin, none changes, and the conversations
stay with one for each item and user. -/
theorem followups_authentic (hk : FollowupKeys s.db) (hs : s = initial env req s.db)
    (hr : Trace.Run (Step (act env)) s xs t) : FollowupsAuthentic env req s xs t := by
  have hhistory : FollowupsAuthentic env req s xs t ∧ ∃ lp, Granted env req s xs lp ∧ InPhase protocol (ends env) lp t := by
    refine hr.history (I := fun ys u => FollowupsAuthentic env req s ys u ∧
      ∃ lp, Granted env req s ys lp ∧ InPhase protocol (ends env) lp u) ?_ ?_
    · refine ⟨⟨(List.append_nil _).symm, fun ys e zs m h => by simp at h, hk, fun f hf => ⟨f, hf, rfl⟩⟩,
        fun c => { req := req c }, ⟨fun _ => rfl, fun _ _ _ _ _ h => by cases h⟩, ?_⟩
      rw [hs]
      exact initial_follows
    · rintro ys u e v hrun ⟨hauth, lp, hg, hf⟩ hstep
      obtain ⟨hm, hf'⟩ := hf.noted hstep
      obtain ⟨hrows, hasked⟩ := act_log hstep.acted
      obtain ⟨hkeys, hstays⟩ := (act_assigned hstep.acted).step hauth.keys
      refine ⟨⟨?_, fun ws e' zs m hsplit hp => ?_, hkeys, hauth.stays.trans hstays⟩, _, hg.step hrun hstep, hf'⟩
      · have hpost : [e].filterMap postFollowup = (postedFollowup e.stmt e.reply).toList := by
          unfold postFollowup
          rcases hp : postedFollowup e.stmt e.reply with - | m <;> simp [hp]
        rw [hrows, hauth.log, List.filterMap_append, hpost, List.append_assoc]
      · rcases List.eq_nil_or_concat zs with rfl | ⟨zs', a, rfl⟩
        · obtain ⟨rfl, he⟩ := List.append_inj' hsplit rfl
          obtain rfl : e = e' := by simpa using he
          have hq := hasked m hp
          rw [hq] at hm
          obtain ⟨scope, owner, admin, hsend, haccess, hu⟩ := hm
          exact ⟨⟨scope, (hg.asked _).symm.trans hsend⟩, hg.access _ _ owner admin _ haccess hu⟩
        · have hsplit' : ys ++ [e] = (ws ++ e' :: zs') ++ [a] := by simpa using hsplit
          obtain ⟨rfl, -⟩ := List.append_inj' hsplit' rfl
          exact hauth.sender ws e' zs' m rfl hp
  exact hhistory.1

/-- The owner of an order opens its chat and writes, and so does the admin. -/
def followingUp : Client → Request
  | 0 => .createFollowup 1 false { itemType := .order, itemId := 9 }
  | 1 => .sendFollowup 1 1 "When?" none
  | _ => .sendFollowup 3 1 "Soon." none

theorem quiet_followupKeys : FollowupKeys quiet := ⟨List.nodup_nil, fun _ h => (by cases h), List.nodup_nil⟩

theorem followups_authentic_followingUp : ∃ xs t,
    Trace.Run (Step (act openEnv)) (initial openEnv followingUp quiet) xs t ∧
      t.db.followupMessages.rows.map (fun m => (m.senderId, m.text)) = [(1, "When?"), (3, "Soon.")] ∧
      FollowupsAuthentic openEnv followingUp (initial openEnv followingUp quiet) xs t := by
  have hplay : (replay (act openEnv) (fun _ _ => true) (inOrder 0 4 ++ inOrder 1 2 ++ inOrder 2 2)
      (initial openEnv followingUp quiet)).map (fun t =>
        t.db.followupMessages.rows.map fun m => (m.senderId, m.text)) = some [(1, "When?"), (3, "Soon.")] := by
    decide +kernel
  obtain ⟨xs, t, hr, ht⟩ := replay_run hplay
  have hrun : Trace.Run (Step (act openEnv)) (initial openEnv followingUp quiet) xs t := hr.mono fun _ _ _ h => h.1
  exact ⟨xs, t, hrun, ht, followups_authentic quiet_followupKeys rfl hrun⟩

end Followups

end Kayan.Chat.Transcripts
