import Kayan.Chat.Speaking

/-!
# Transcripts

In every run the messages are those that were there at first and those that the calls send, each
once and each on a socket of its sender. Nothing about a message changes but that it is marked once.
-/
namespace Kayan.Chat.Transcripts
open Interleave

section Effects
variable {env : Env} {m : Move} {c : Client} {q : Stmt} {d d' : Db} {r : Answer q}

/-- What may come of a message: it is marked once. -/
structure Continues (m m' : Message) : Prop where
  fixed : m' = { m with readAt := m'.readAt }
  marked : m.readAt.isSome → m'.readAt = m.readAt

theorem Continues.refl (m : Message) : Continues m m := ⟨rfl, fun _ => rfl⟩

theorem Continues.trans {m₁ m₂ m₃ : Message} (h : Continues m₁ m₂) (h' : Continues m₂ m₃) : Continues m₁ m₃ := by
  constructor
  · rw [h'.fixed, h.fixed]
  · intro hm
    have hm₂ : m₂.readAt.isSome := by rwa [h.marked hm]
    rw [h'.marked hm₂, h.marked hm]

/-- What a statement does to the messages. -/
inductive Spoken (d d' : Db) : (q : Stmt) → Answer q → Prop
  | same {q : Stmt} {r : Answer q} (hp : posted q r = none) (hrows : d'.messages.rows = d.messages.rows)
      (hnext : d.messages.next ≤ d'.messages.next) : Spoken d d' q r
  | insert {id userId : Nat} {text : String} {row : Message} (hid : row.id = d.messages.next)
      (hc : row.conversationId = id) (hs : row.senderId = userId) (ht : row.text = text) (hr : row.readAt = none)
      (hd : d'.messages = ⟨d.messages.rows ++ [row], d.messages.next + 1⟩) :
      Spoken d d' (.insertMessage id userId text) (.ok row)
  | marked {i : Nat} {r : Reply (.updateRead i)} (f : Message → Message) (hf : ∀ m, Continues m (f m))
      (hother : ∀ m, m.id ≠ i → f m = m) (hd : d'.messages = ⟨d.messages.rows.map f, d.messages.next⟩) :
      Spoken d d' (.updateRead i) (.ok r)

theorem act_spoken (h : act env m c q d = some (r, d')) : Spoken d d' q r := by
  have hframe := act_framed h
  cases m with
  | fail e =>
    obtain ⟨-, rfl, rfl⟩ := act_fail h
    refine .same ?_ rfl le_rfl
    cases q <;> rfl
  | run wait =>
    cases q with
    | insertMessage id userId text =>
      simp only [act, exec] at h
      split at h
      on_goal 2 => split at h
      case isFalse.isFalse =>
        cases h
        exact .insert rfl rfl rfl rfl rfl rfl
      all_goals
        cases h
        exact .same rfl rfl (Nat.le_succ _)
    | updateRead i =>
      cases h
      refine .marked _ (fun m => ?_) (fun m hm => if_neg hm) rfl
      split
      · refine ⟨rfl, fun hm => ?_⟩
        obtain ⟨time, ht⟩ := Option.isSome_iff_exists.mp hm
        rw [ht]
        rfl
      · exact Continues.refl m
    | _ =>
      have hsame := hframe.messages rfl
      exact .same rfl (congrArg _ hsame) (le_of_eq (congrArg _ hsame.symm))

theorem act_found {i : Nat} {v : Message} (h : act env m c q d = some (r, d')) (hf : found q r = some (i, v)) :
    v.id = i ∧ ∃ v' ∈ d.messages.rows, Continues v v' := by
  cases q with
  | selectMessage j =>
    cases m with
    | fail e =>
      obtain ⟨-, rfl, -⟩ := act_fail h
      cases hf
    | run wait =>
      cases h
      obtain ⟨row, hrow, he⟩ := Option.map_eq_some_iff.mp hf
      cases he
      have hid := List.find?_some hrow
      exact ⟨of_decide_eq_true hid, v, List.mem_of_find?_eq_some hrow, Continues.refl v⟩
  | _ => cases hf

/-- The messages after a statement are those before it, and the one that it writes. -/
theorem Spoken.log (h : Spoken d d' q r) :
    List.Forall₂ Continues (d.messages.rows ++ (Transcripts.posted q r).toList) d'.messages.rows := by
  cases h with
  | same hp hrows hnext =>
    rw [hp, hrows, Option.toList_none, List.append_nil]
    exact List.forall₂_same.mpr fun m _ => Continues.refl m
  | insert hid hc hs ht hr hd =>
    rw [hd]
    exact List.forall₂_same.mpr fun m _ => Continues.refl m
  | marked f hf hother hd =>
    rw [hd]
    change List.Forall₂ Continues (d.messages.rows ++ []) (d.messages.rows.map f)
    rw [List.append_nil, List.forall₂_map_right_iff]
    exact List.forall₂_same.mpr fun m _ => hf m

end Effects

section History
variable {env : Env} {req : Client → Request} {s t u : State} {e : Taken} {xs ys : List Taken} {ph : Client → Seen}
  {lp : Client → Learned} {d d' d₀ : Db}

/-- The message that a step writes. -/
def post (e : Taken) : Option Message := posted e.stmt e.reply

/-- The user takes part in the conversation. -/
def TakesPart (d : Db) (id userId : Nat) : Prop :=
  ∃ row, d.conversation id = some row ∧ (userId = row.userAId ∨ userId = row.userBId)

/-- The message was sent on a socket that was authenticated as its sender, who takes part in its conversation. -/
def SentBy (env : Env) (req : Client → Request) (d : Db) (c : Client) (m : Message) : Prop :=
  ∃ socket, req c = .send socket m.conversationId m.text ∧ Authenticated env req socket m.senderId ∧
    TakesPart d m.conversationId m.senderId

/-- The step marks the message, for a socket that was authenticated as the other participant. -/
def ReadBy (env : Env) (req : Client → Request) (d : Db) (e : Taken) (m : Message) : Prop :=
  e.stmt = .updateRead m.id ∧ e.reply.isOk ∧ ∃ socket userId, req e.client = .read socket m.id ∧
    Authenticated env req socket userId ∧ userId ≠ m.senderId ∧ TakesPart d m.conversationId userId

/-- The primary key of the messages. -/
structure Numbered (d : Db) : Prop where
  ids : (d.messages.rows.map (·.id)).Nodup
  fresh : ∀ m ∈ d.messages.rows, m.id < d.messages.next

/-- What the notes say about the store. -/
structure Known (req : Client → Request) (d : Db) (lp : Client → Learned) : Prop extends Numbered d where
  asked : ∀ c, (lp c).req = req c
  users : ∀ c k v, (k, v) ∈ (lp c).users → (d.sockets k).user = some v
  row : ∀ c id a b, (lp c).row = some (id, a, b) →
    ∃ row, d.conversation id = some row ∧ a = bigint row.userAId ∧ b = bigint row.userBId
  found : ∀ c i m, (lp c).message = some (i, m) → m.id = i ∧ ∃ m' ∈ d.messages.rows, Continues m m'

/-- What the steps up to now say about the messages. -/
structure Record (env : Env) (req : Client → Request) (d₀ : Db) (ys : List Taken) (d : Db)
    (lp : Client → Learned) : Prop where
  log : List.Forall₂ Continues (d₀.messages.rows ++ ys.filterMap post) d.messages.rows
  posted : ∀ c m, (lp c).posted = some m ↔ ∃ e ∈ ys, e.client = c ∧ post e = some m
  sender : ∀ e ∈ ys, ∀ m, post e = some m → SentBy env req d e.client m
  once : ((ys.filter fun e => (post e).isSome).map (·.client)).Nodup
  reader : ∀ m ∈ d.messages.rows, ∀ time, m.readAt = some time →
    (∃ m₀ ∈ d₀.messages.rows, m₀.id = m.id ∧ m₀.readAt = some time) ∨ ∃ e ∈ ys, ReadBy env req d e m

theorem TakesPart.stays {m : Move} {c : Client} {q : Stmt} {r : Answer q} (ha : act env m c q d = some (r, d'))
    {id userId : Nat} (h : TakesPart d id userId) : TakesPart d' id userId := by
  obtain ⟨row, hrow, hu⟩ := h
  obtain ⟨row', hrow', hra, hrb⟩ := (act_conversations ha).found hrow
  refine ⟨row', hrow', ?_⟩
  rw [hra, hrb]
  exact hu

/-- Whoever a call has found to be a participant is one. -/
theorem Known.takesPart (h : Known req d lp) {c : Client} {id userId : Nat} (hp : (lp c).participant id userId) :
    TakesPart d id userId := by
  obtain ⟨a, b, hrow, hu⟩ := hp
  obtain ⟨row, hf, rfl, rfl⟩ := h.row c id a b hrow
  exact ⟨row, hf, hu.imp bigint_id bigint_id⟩

theorem continues_ids {xs ys : List Message} (h : List.Forall₂ Continues xs ys) : ys.map (·.id) = xs.map (·.id) := by
  induction h with
  | nil => rfl
  | cons h _ ih => rw [List.map_cons, List.map_cons, ih, h.fixed]

theorem continues_trans {xs ys zs : List Message} (h : List.Forall₂ Continues xs ys)
    (h' : List.Forall₂ Continues ys zs) : List.Forall₂ Continues xs zs := by
  induction h generalizing zs with
  | nil => exact h'
  | cons h _ ih =>
    cases h' with
    | cons h' hs => exact .cons (h.trans h') (ih hs)

theorem Continues.same {m m' : Message} (h : Continues m m') :
    m'.id = m.id ∧ m'.conversationId = m.conversationId ∧ m'.senderId = m.senderId ∧ m'.text = m.text := by
  rw [h.fixed]
  exact ⟨rfl, rfl, rfl, rfl⟩

/-- A message stays, marked or not. -/
theorem Spoken.forward {q : Stmt} {r : Answer q} (h : Spoken d d' q r) {m : Message} (hm : m ∈ d.messages.rows) :
    ∃ m' ∈ d'.messages.rows, Continues m m' := by
  cases h with
  | same hp hrows hnext => exact ⟨m, hrows ▸ hm, Continues.refl m⟩
  | insert hid hc hs ht hr hd =>
    rw [hd]
    exact ⟨m, List.mem_append_left _ hm, Continues.refl m⟩
  | marked f hf hother hd =>
    rw [hd]
    exact ⟨f m, List.mem_map_of_mem hm, hf m⟩

/-- A message comes from one that was there before the statement, or the statement writes it. -/
theorem Spoken.back {q : Stmt} {r : Answer q} (h : Spoken d d' q r) {m : Message} (hm : m ∈ d'.messages.rows) :
    (∃ m₀ ∈ d.messages.rows, Continues m₀ m ∧ (m₀ ≠ m → q = .updateRead m.id ∧ r.isOk)) ∨
      (posted q r = some m ∧ m.readAt = none) := by
  cases h with
  | same hp hrows hnext => exact Or.inl ⟨m, hrows ▸ hm, Continues.refl m, fun hne => absurd rfl hne⟩
  | insert hid hc hs ht hr hd =>
    rw [hd] at hm
    rcases List.mem_append.mp hm with hm | hm
    · exact Or.inl ⟨m, hm, Continues.refl m, fun hne => absurd rfl hne⟩
    · obtain rfl := List.mem_singleton.mp hm
      exact Or.inr ⟨rfl, hr⟩
  | @marked i r f hf hother hd =>
    rw [hd] at hm
    obtain ⟨m₀, hm₀, rfl⟩ := List.mem_map.mp hm
    refine Or.inl ⟨m₀, hm₀, hf m₀, fun hne => ?_⟩
    have hid : m₀.id = i := by
      by_contra hne'
      exact hne (hother m₀ hne').symm
    exact ⟨by rw [(hf m₀).same.1, hid], rfl⟩

theorem Numbered.step {q : Stmt} {r : Answer q} (h : Numbered d) (hw : Spoken d d' q r) : Numbered d' := by
  have hids := continues_ids hw.log
  cases hw with
  | same hp hrows hnext =>
    exact ⟨hrows ▸ h.ids, fun m hm => Nat.lt_of_lt_of_le (h.fresh m (hrows ▸ hm)) hnext⟩
  | @insert id userId text row hid hc hs ht hr hd =>
    constructor
    · rw [hids]
      change ((d.messages.rows ++ [row]).map fun m : Message => m.id).Nodup
      rw [List.map_append, List.nodup_append]
      refine ⟨h.ids, List.nodup_singleton _, ?_⟩
      rintro a ha b hb rfl
      obtain ⟨m, hm, rfl⟩ := List.mem_map.mp ha
      have hrow : m.id = row.id := List.mem_singleton.mp hb
      have hlt := h.fresh m hm
      omega
    · intro m hm
      rw [hd] at hm ⊢
      change m.id < d.messages.next + 1
      rcases List.mem_append.mp hm with hm | hm
      · have := h.fresh m hm
        omega
      · rw [List.mem_singleton.mp hm, hid]
        exact Nat.lt_succ_self _
  | @marked i r f hf hother hd =>
    constructor
    · rw [hids]
      change ((d.messages.rows ++ []).map fun m : Message => m.id).Nodup
      rw [List.append_nil]
      exact h.ids
    · intro m hm
      rw [hd] at hm ⊢
      obtain ⟨m₀, hm₀, rfl⟩ := List.mem_map.mp hm
      rw [(hf m₀).same.1]
      exact h.fresh m₀ hm₀

theorem Known.start (hn : Numbered d) : Known req d fun c => { req := req c } where
  toNumbered := hn
  asked _ := rfl
  users _ _ _ h := by cases h
  row _ _ _ _ h := by cases h
  found _ _ _ h := by cases h

theorem Record.start : Record env req d [] d fun c => { req := req c } where
  log := by
    rw [List.filterMap_nil, List.append_nil]
    exact List.forall₂_same.mpr fun m _ => Continues.refl m
  posted c m := by simp
  sender _ h := by cases h
  once := List.nodup_nil
  reader m hm time ht := Or.inl ⟨m, hm, rfl, ht⟩

/-- One step, and what the notes say after it. -/
theorem Known.step (h : Known req s.db lp) (hi : Inv env req s.db ph) (hm : (ph e.client).may env e.stmt)
    (hs : Step (act env) s e t) : Known req t.db (noted Learned.after lp e) := by
  have ha := hs.acted
  have hw := act_spoken ha
  refine ⟨h.toNumbered.step hw, fun c => ?_, fun c k v hu => ?_, fun c id a b hr => ?_, fun c i m hf => ?_⟩
  · rcases noted_or Learned.after lp e c with ⟨-, hn⟩ | ⟨-, hn⟩
    · rw [hn]
      exact h.asked c
    · rw [hn]
      exact h.asked c
  · rcases noted_or Learned.after lp e c with ⟨rfl, hn⟩ | ⟨-, hn⟩
    · rw [hn] at hu
      rcases List.mem_append.mp hu with hnew | hold
      · rcases act_user ha (Option.mem_toList.mp hnew) with hk | hk
        · exact hi.user_stays hm ha hk
        · exact hi.user_stays hm ha (hi.registry k v hk)
      · exact hi.user_stays hm ha (h.users _ k v hold)
    · rw [hn] at hu
      exact hi.user_stays hm ha (h.users c k v hu)
  · have hfound : ∃ row, s.db.conversation id = some row ∧ a = bigint row.userAId ∧ b = bigint row.userBId := by
      rcases noted_field Learned.row Stmt.row (fun _ _ _ => rfl) hr with hold | ⟨rfl, hnew⟩
      · exact h.row c id a b hold
      · exact act_row ha hnew
    obtain ⟨row, hf, rfl, rfl⟩ := hfound
    obtain ⟨row', hf', hra, hrb⟩ := (act_conversations ha).found hf
    exact ⟨row', hf', by rw [hra], by rw [hrb]⟩
  · have hfound : m.id = i ∧ ∃ m' ∈ s.db.messages.rows, Continues m m' := by
      rcases noted_field Learned.message Transcripts.found (fun _ _ _ => rfl) hf with hold | ⟨rfl, hnew⟩
      · exact h.found c i m hold
      · exact act_found ha hnew
    obtain ⟨hid, m', hm', hc⟩ := hfound
    obtain ⟨m'', hm'', hc'⟩ := hw.forward hm'
    exact ⟨hid, m'', hm'', hc.trans hc'⟩

/-- A message that may be written is sent by the socket's user. -/
theorem Known.sends (h : Known req s.db lp) (hi : Inv env req s.db ph) (hm : (lp e.client).may e.stmt)
    (hs : Step (act env) s e t) {m : Message} (hp : post e = some m) :
    (lp e.client).posted = none ∧ SentBy env req s.db e.client m := by
  have hw := act_spoken hs.acted
  unfold post at hp
  obtain ⟨c, mv, q, r⟩ := e
  dsimp only at hw hm hp
  cases hw with
  | same hnone hrows hnext =>
    rw [hnone] at hp
    cases hp
  | insert hid hc hsender ht hr hd =>
    cases hp
    subst hc hsender ht
    obtain ⟨hnone, hpart, socket, hsend, hu⟩ := hm
    rw [h.asked] at hsend
    exact ⟨hnone, socket, hsend, hi.genuine socket _ (h.users c socket _ hu), h.takesPart hpart⟩
  | marked f hf hother hd => cases hp

/-- A message that may be marked is marked for another participant. -/
theorem Known.reads (h : Known req s.db lp) (hi : Inv env req s.db ph) (hm : (lp e.client).may e.stmt)
    {m : Message} (hmem : m ∈ s.db.messages.rows) (hq : e.stmt = .updateRead m.id) (hok : e.reply.isOk) :
    ReadBy env req s.db e m := by
  rw [hq] at hm
  obtain ⟨socket, userId, m₀, hread, hu, hf, hne, hpart⟩ := hm
  obtain ⟨hid, m', hm', hc⟩ := h.found _ _ _ hf
  have hsame : m' = m := List.inj_on_of_nodup_map h.ids hm' hmem (hc.same.1.trans hid)
  subst hsame
  obtain ⟨-, hconversation, hsender, -⟩ := hc.same
  rw [h.asked] at hread
  refine ⟨hq, hok, socket, userId, hread, hi.genuine socket _ (h.users _ socket _ hu), ?_, ?_⟩
  · rw [hsender]
    exact hne.symm
  · rw [hconversation]
    exact h.takesPart hpart

theorem SentBy.stays {m : Move} {b c : Client} {q : Stmt} {r : Answer q} (ha : act env m c q d = some (r, d'))
    {v : Message} (h : SentBy env req d b v) : SentBy env req d' b v := by
  obtain ⟨socket, hsend, hauth, hpart⟩ := h
  exact ⟨socket, hsend, hauth, hpart.stays ha⟩

theorem ReadBy.stays {m : Move} {c : Client} {q : Stmt} {r : Answer q} (ha : act env m c q d = some (r, d'))
    {v w : Message} (hv : w.id = v.id ∧ w.conversationId = v.conversationId ∧ w.senderId = v.senderId)
    (h : ReadBy env req d e v) : ReadBy env req d' e w := by
  obtain ⟨hq, hok, socket, userId, hread, hauth, hne, hpart⟩ := h
  obtain ⟨hid, hconversation, hsender⟩ := hv
  refine ⟨hid ▸ hq, hok, socket, userId, hid ▸ hread, hauth, hsender ▸ hne, ?_⟩
  rw [hconversation]
  exact hpart.stays ha

/-- One step, and the messages after it. -/
theorem Record.step (h : Record env req d₀ ys s.db lp) (hk : Known req s.db lp) (hi : Inv env req s.db ph)
    (hm : (lp e.client).may e.stmt) (hs : Step (act env) s e t) :
    Record env req d₀ (ys ++ [e]) t.db (noted Learned.after lp e) := by
  have ha := hs.acted
  have hw := act_spoken ha
  refine ⟨?_, fun c m => ?_, fun e' he' m hp => ?_, ?_, fun m hmem time ht => ?_⟩
  · have hpost : [e].filterMap post = (Transcripts.posted e.stmt e.reply).toList := by
      unfold post
      rcases hp : Transcripts.posted e.stmt e.reply with - | m <;> simp [hp]
    rw [List.filterMap_append, ← List.append_assoc, hpost]
    have hsame := List.forall₂_same.mpr fun m (_ : m ∈ (Transcripts.posted e.stmt e.reply).toList) => Continues.refl m
    exact continues_trans (List.rel_append h.log hsame) hw.log
  · constructor
    · intro hp
      rcases noted_field Learned.posted Transcripts.posted (fun _ _ _ => rfl) hp with hold | ⟨rfl, hnew⟩
      · obtain ⟨e', he', hc, hp'⟩ := (h.posted c m).mp hold
        exact ⟨e', List.mem_append_left _ he', hc, hp'⟩
      · exact ⟨e, List.mem_append_right _ List.mem_cons_self, rfl, hnew⟩
    · rintro ⟨e', he', rfl, hp⟩
      rcases List.mem_append.mp he' with hold | hnew
      · have hnoted := (h.posted e'.client m).mpr ⟨e', hold, rfl, hp⟩
        rcases noted_or Learned.after lp e e'.client with ⟨hc, hn⟩ | ⟨-, hn⟩
        · have hnone : Transcripts.posted e.stmt e.reply = none := by
            by_contra hsome
            obtain ⟨m', hm'⟩ := Option.ne_none_iff_exists'.mp hsome
            have hfirst := (hk.sends hi hm hs hm').1
            rw [hc, hfirst] at hnoted
            cases hnoted
          rw [hn]
          change (Transcripts.posted e.stmt e.reply).or (lp e'.client).posted = some m
          rw [hnone, hnoted]
          rfl
        · rw [hn]
          exact hnoted
      · obtain rfl := List.mem_singleton.mp hnew
        rw [noted_self]
        change (Transcripts.posted e'.stmt e'.reply).or (lp e'.client).posted = some m
        rw [show Transcripts.posted e'.stmt e'.reply = some m from hp, Option.some_or]
  · rcases List.mem_append.mp he' with hold | hnew
    · exact (h.sender e' hold m hp).stays ha
    · obtain rfl := List.mem_singleton.mp hnew
      exact (hk.sends hi hm hs hp).2.stays ha
  · rw [List.filter_append, List.map_append]
    rcases hp : post e with - | m
    · rw [List.filter_singleton, hp]
      exact (List.append_nil _).symm ▸ h.once
    · rw [List.filter_singleton, hp]
      refine List.nodup_append.mpr ⟨h.once, List.nodup_singleton _, ?_⟩
      rintro a ha' b hb rfl
      obtain ⟨e', he', hc⟩ := List.mem_map.mp ha'
      obtain ⟨hmem', hsome⟩ := List.mem_filter.mp he'
      obtain ⟨m', hm'⟩ := Option.isSome_iff_exists.mp hsome
      have hnoted := (h.posted e'.client m').mpr ⟨e', hmem', rfl, hm'⟩
      rw [hc, List.mem_singleton.mp hb, (hk.sends hi hm hs hp).1] at hnoted
      cases hnoted
  · rcases hw.back hmem with ⟨m₀, hm₀, hc, hmark⟩ | ⟨-, hunread⟩
    · by_cases hread : m₀.readAt = some time
      · rcases h.reader m₀ hm₀ time hread with ⟨m₁, hm₁, hid, hr⟩ | ⟨e', he', hr⟩
        · exact Or.inl ⟨m₁, hm₁, hid.trans hc.same.1.symm, hr⟩
        · obtain ⟨hid, hconversation, hsender, -⟩ := hc.same
          exact Or.inr ⟨e', List.mem_append_left _ he', hr.stays ha ⟨hid, hconversation, hsender⟩⟩
      · have hne : m₀ ≠ m := by
          rintro rfl
          exact hread ht
        obtain ⟨hq, hok⟩ := hmark hne
        obtain ⟨hid, hconversation, hsender, -⟩ := hc.same
        have hr := hk.reads hi hm hm₀ (hid ▸ hq) hok
        exact Or.inr ⟨e, List.mem_append_right _ List.mem_cons_self, hr.stays ha ⟨hid, hconversation, hsender⟩⟩
    · rw [hunread] at ht
      cases ht

end History

section Transcripts
variable {env : Env} {req : Client → Request} {s t : State} {xs : List Taken}

/-- What a run does to the messages. -/
structure Authentic (env : Env) (req : Client → Request) (s : State) (xs : List Taken) (t : State) : Prop where
  /-- The messages are those at first and those that the run writes, in this order, and some are marked. -/
  log : List.Forall₂ Continues (s.db.messages.rows ++ xs.filterMap post) t.db.messages.rows
  sender : ∀ e ∈ xs, ∀ m, post e = some m → SentBy env req t.db e.client m
  /-- No call writes two messages. -/
  once : ((xs.filter fun e => (post e).isSome).map (·.client)).Nodup
  /-- A sender that is answered has written the message. -/
  acknowledged : ∀ c socket id text ack, req c = .send socket id text → t.prog c = .ret (.ok ack) →
    ∃ e ∈ xs, e.client = c ∧ ∃ m, post e = some m ∧ ack = acknowledgement env m
  reader : ∀ m ∈ t.db.messages.rows, ∀ time, m.readAt = some time →
    (∃ m₀ ∈ s.db.messages.rows, m₀.id = m.id ∧ m₀.readAt = some time) ∨ ∃ e ∈ xs, ReadBy env req t.db e m

/-- Two users connect, the first opens a conversation, the second sends a message, and the first reads it. -/
def exchange : Client → Request
  | 0 => .connect (bearer "1")
  | 1 => .connect (bearer "2")
  | 2 => .createConversation 1 2 none
  | 3 => .send 1 1 "hello"
  | _ => .read 0 1

theorem quiet_numbered : Numbered quiet := ⟨List.nodup_nil, fun _ h => by cases h⟩

end Transcripts

end Kayan.Chat.Transcripts
