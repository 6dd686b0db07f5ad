import Kayan.Items.Refinement
import Kayan.Lib.Sequential
import Kayan.Media.Alone
import Kayan.Media.Attached

/-!
# What a profile update changes

`updateMe` with no other statements in between: the fields that were sent, of one row, or nothing.
-/
namespace Kayan.Media
open RowStore Interleave Shop

/-- The statements of client `c`. Any but the `SELECT` of the answer may fail. -/
def attempts (c : Client) : Acts Stmt Answer Db := fun q d r d' =>
  (∃ now, act (.run now) c q d = some (r, d')) ∨
    ∃ e, (∀ userId, q ≠ .profile (.selectMe userId)) ∧ act (.fail e) c q d = some (r, d')

/-- The fields that were sent have the new values, and the others the old ones. -/
structure UpdateProfileDto.Sets (dto : UpdateProfileDto) (u u' : Profile) : Prop where
  name : u'.name = match dto.name with
    | some (some name) => name
    | _ => u.name
  contactInfo : u'.contactInfo = match dto.contactInfo with
    | some contactInfo => contactInfo
    | none => u.contactInfo
  phone : u'.phone = match dto.phone with
    | some phone => phone
    | none => u.phone
  address : u'.address = match dto.address with
    | some address => address
    | none => u.address
  avatar : match dto.avatarFileId with
    | some (some fileId) => ∃ i : Nat, fileId = i ∧ u'.avatarFileId = some i
    | some none => u'.avatarFileId = none
    | none => u'.avatarFileId = u.avatarFileId
  rest : (u'.id, u'.email, u'.status, u'.deletedAt) = (u.id, u.email, u.status, u.deletedAt)

/-- What the unique index on the phone keeps, deleted users included. -/
def PhonesApart (users : Table Client Profile) : Prop :=
  ∀ i j u v p, users.committed i = some u → users.committed j = some v → u.phone = some p → v.phone = some p → i = j

/-- The ids are the keys. -/
def Keyed (users : Table Client Profile) : Prop := ∀ i u, users.committed i = some u → u.id = i

/-- The update of one profile. -/
structure Updates (userId : Nat) (dto : UpdateProfileDto) (users users' : Table Client Profile) : Prop where
  updated : ∃ u u', users.committed userId = some u ∧ u.deletedAt = none ∧ users'.committed userId = some u' ∧ dto.Sets u u'
  others : ∀ i, i ≠ userId → users'.committed i = users.committed i
  phones : ∀ i j u v p, users'.committed i = some u → users'.committed j = some v → u.deletedAt = none →
    v.deletedAt = none → u.phone = some p → v.phone = some p → i = j

variable {env : Env} {c : Client} {userId : Nat} {dto : UpdateProfileDto} {d d' : Db}

section Checks

/-- A statement that reads profiles leaves the store as it is. -/
theorem attempts_reads {q : ProfileStmt} {r : Answer (.profile q)}
    (hq : ∀ now files ratings users r users', execProfile now files ratings q users = some (r, users') → users' = users)
    (h : attempts c (.profile q) d r d') : d' = d := by
  rcases h with ⟨now, h⟩ | ⟨e, -, h⟩
  · obtain ⟨⟨v, users⟩, hexec, heq⟩ := Option.map_eq_some_iff.mp h
    cases heq
    rw [hq now d.files d.userRatings d.users v users hexec]
  · cases h
    rfl

theorem assertPhone_ensures {phone : Option String} :
    Ensures (attempts c) (· = d) (assertPhone userId phone) (fun _ d' => d' = d) (· = d) := by
  refine Ensures.bind (Q := fun _ d' => d' = d) (Ensures.await fun d₁ r d' hd h => ?_) fun existing => ?_
  · have hsame : d' = d₁ := attempts_reads (fun _ _ _ _ _ _ h => by cases h; rfl) h
    cases r <;> exact hsame.trans hd
  · cases existing with
    | true => exact Ensures.throw fun _ => id
    | false => exact Ensures.pure fun _ => id

theorem assertAvatarFile_ensures {fileId : ℚ} :
    Ensures (attempts c) (· = d) (assertAvatarFile userId fileId) (fun _ d' => d' = d) (· = d) := by
  refine Ensures.bind (Q := fun _ d' => d' = d) (Ensures.await fun d₁ r d' hd h => ?_) fun file => ?_
  · have hsame : d' = d₁ := attempts_reads (fun _ _ _ _ _ _ h => by cases h; rfl) h
    cases r <;> exact hsame.trans hd
  · cases file with
    | none => exact Ensures.throw fun _ => id
    | some file =>
      change Ensures _ _ (if _ then _ else if _ then _ else _) _ _
      split
      · exact Ensures.throw fun _ => id
      · split
        · exact Ensures.throw fun _ => id
        · exact Ensures.pure fun _ => id

end Checks

section Update
variable {now : Nat} {avatar : Option (Option Nat)} {u : Profile}

/-- The `CASE` expressions choose between the new value and the old one. -/
theorem apply_sets (h : dto.avatar d.files = .ok avatar) : dto.Sets u (dto.apply now avatar u) where
  name := by
    rcases hname : dto.name with - | - | name <;> simp [UpdateProfileDto.apply, hname]
  contactInfo := by
    cases hsent : dto.contactInfo <;> simp [UpdateProfileDto.apply, hsent]
  phone := by
    cases hsent : dto.phone <;> simp [UpdateProfileDto.apply, hsent]
  address := by
    cases hsent : dto.address <;> simp [UpdateProfileDto.apply, hsent]
  avatar := by
    rcases hsent : dto.avatarFileId with - | - | fileId
    · have hnone : avatar = none := by
        simp only [UpdateProfileDto.avatar, hsent] at h
        exact (Except.ok.inj h).symm
      simp [UpdateProfileDto.apply, hnone]
    · have hcleared : avatar = some none := by
        simp only [UpdateProfileDto.avatar, hsent] at h
        exact (Except.ok.inj h).symm
      simp [UpdateProfileDto.apply, hcleared]
    · rcases updateProfile_avatar h with rfl | rfl | ⟨n, rfl, hn⟩
      · simp only [UpdateProfileDto.avatar, hsent] at h
        split at h
        · cases h
        · split at h <;> cases h
      · simp only [UpdateProfileDto.avatar, hsent] at h
        split at h
        · cases h
        · split at h <;> cases h
      · rw [hsent] at hn
        cases hn
        exact ⟨n, rfl, rfl⟩
  rest := rfl

/-- What the `UPDATE` does when it raises no error: it finds no account, or it writes the one row. -/
def Written (userId : Nat) (dto : UpdateProfileDto) (d d' : Db) : Prop :=
  (account d.users userId = none ∧ d' = d) ∨
    ∃ u, account d.users userId = some u ∧ ∃ now avatar, dto.avatar d.files = .ok avatar ∧
      (∀ i v p, d.users.committed i = some v → dto.phone = some (some p) → v.phone = some p → v.id = userId) ∧
      d' = { d with users := d.users.store userId (some (dto.apply now avatar u)) }

theorem account_eq_some {users : Table Client Profile} :
    account users userId = some u ↔ users.committed userId = some u ∧ u.deletedAt = none := by
  unfold account
  rw [Option.filter_eq_some_iff, Option.isNone_iff_eq_none]

theorem updateProfile_ensures : Ensures (attempts c) (· = d) (query (.profile (.updateProfile dto userId)))
    (fun _ => Written userId dto d) (· = d) := by
  refine Ensures.await fun d₁ r d' hd h => ?_
  subst hd
  rcases h with ⟨now, h⟩ | ⟨e, -, h⟩
  · obtain ⟨⟨v, users⟩, hexec, heq⟩ := Option.map_eq_some_iff.mp h
    cases heq
    simp only [execProfile, updateProfile] at hexec
    split at hexec
    · rename_i hnone
      cases hexec
      exact Or.inl ⟨Option.isNone_iff_eq_none.mp hnone, rfl⟩
    · rename_i hsome
      rw [Option.isNone_iff_eq_none] at hsome
      obtain ⟨u, hu⟩ := Option.ne_none_iff_exists'.mp hsome
      split at hexec
      · cases hexec
        rfl
      · rename_i avatar havatar
        split at hexec
        · cases hexec
          rfl
        · rename_i hfree
          obtain ⟨⟨found, users'⟩, hupdate, hpair⟩ := Option.map_eq_some_iff.mp hexec
          cases hpair
          have hcommitted := (account_eq_some.mp hu).1
          rcases Items.updateRow_cases hupdate with ⟨-, hnone, -⟩ | ⟨row, -, hrow, -, rfl⟩
          · cases hnone.symm.trans hcommitted
          · cases hrow.symm.trans hcommitted
            refine Or.inr ⟨u, hu, now, avatar, havatar, fun i v p hv hp hphone => ?_, rfl⟩
            by_contra hid
            refine hfree (List.any_eq_true.mpr ⟨v, Table.mem_committedRows.mpr ⟨i, hv⟩, ?_⟩)
            rw [hp, Option.any_some, decide_eq_true_eq]
            exact ⟨rfl, hphone, hid⟩
  · cases h
    rfl

theorem catch_ensures : Ensures (attempts c) (· = d)
    (tryCatch (query (.profile (.updateProfile dto userId))) phoneTaken) (fun _ => Written userId dto d) (· = d) := by
  refine Ensures.catch updateProfile_ensures fun e => ?_
  unfold phoneTaken
  split
  · exact Ensures.throw fun _ => id
  · exact Ensures.throw fun _ => id

/-- The answer is there exactly if there is an account. -/
theorem getMe_ensures : Ensures (attempts c) (· = d) (getMe env userId)
    (fun _ d' => d' = d ∧ (account d.users userId).isSome = true) fun d' => d' = d ∧ account d.users userId = none := by
  refine Ensures.bind (Q := fun row d' => d' = d ∧ row.isSome = (account d.users userId).isSome)
    (Ensures.await fun d₁ r d' hd h => ?_) fun row => ?_
  · subst hd
    rcases h with ⟨now, h⟩ | ⟨e, hq, -⟩
    · cases h
      exact ⟨rfl, Option.isSome_map⟩
    · exact absurd rfl (hq userId)
  · cases row with
    | none =>
      refine Ensures.throw fun d' h => ⟨h.1, ?_⟩
      exact Option.isSome_eq_false_iff.mp h.2.symm |> Option.isNone_iff_eq_none.mp
    | some row => exact Ensures.pure fun d' h => ⟨h.1, h.2.symm⟩

/-- The account is there after the update if it was before. -/
theorem Written.account_iff (h : Written userId dto d d') :
    (account d'.users userId).isSome = (account d.users userId).isSome := by
  rcases h with ⟨-, rfl⟩ | ⟨u, hu, now, avatar, -, -, rfl⟩
  · rfl
  · obtain ⟨hrow, hlive⟩ := account_eq_some.mp hu
    have hafter : account (d.users.store userId (some (dto.apply now avatar u))) userId = some (dto.apply now avatar u) := by
      refine account_eq_some.mpr ⟨?_, hlive⟩
      rw [Table.committed_store (Table.lt_of_committed hrow), if_pos rfl]
    rw [hu]
    exact (congrArg Option.isSome hafter).trans rfl

/-- The unique index still holds. -/
theorem Written.updates (h : Written userId dto d d') (hk : Keyed d.users) (hp : PhonesApart d.users)
    (hsome : (account d.users userId).isSome = true) : Updates userId dto d.users d'.users := by
  rcases h with ⟨hnone, -⟩ | ⟨u, hu, now, avatar, havatar, hfree, rfl⟩
  · rw [hnone] at hsome
    cases hsome
  · obtain ⟨hrow, hlive⟩ := account_eq_some.mp hu
    have hrows : ∀ i, (d.users.store userId (some (dto.apply now avatar u))).committed i =
        if i = userId then some (dto.apply now avatar u) else d.users.committed i :=
      fun i => Table.committed_store (Table.lt_of_committed hrow)
    -- the row that is written, beside one that is not
    have hbeside : ∀ i v p, i ≠ userId → d.users.committed i = some v → v.phone = some p →
        (dto.apply now avatar u).phone ≠ some p := by
      intro i v p hi hv hphone hsame
      cases hsent : dto.phone with
      | none =>
        have hold : u.phone = some p := by simpa [UpdateProfileDto.apply, hsent] using hsame
        exact hi (hp i userId v u p hv hrow hphone hold)
      | some phone =>
        have hnew : phone = some p := by simpa [UpdateProfileDto.apply, hsent] using hsame
        subst hnew
        exact hi ((hk i v hv).symm.trans (hfree i v p hv hsent hphone))
    refine ⟨⟨u, _, hrow, hlive, (hrows userId).trans (if_pos rfl), apply_sets havatar⟩, fun i hi => (hrows i).trans (if_neg hi),
      fun i j v w p hv hw _ _ hvp hwp => ?_⟩
    rw [hrows] at hv hw
    by_cases hi : i = userId
    · by_cases hj : j = userId
      · exact hi.trans hj.symm
      · rw [if_pos hi] at hv
        rw [if_neg hj] at hw
        cases hv
        exact absurd hvp (hbeside j w p hj hw hwp)
    · rw [if_neg hi] at hv
      by_cases hj : j = userId
      · rw [if_pos hj] at hw
        cases hw
        exact absurd hwp (hbeside i v p hi hv hvp)
      · rw [if_neg hj] at hw
        exact hp i j v w p hv hw hvp hwp

end Update

/-- The update and the answer. -/
theorem updateRest_ensures (hk : Keyed d.users) (hp : PhonesApart d.users) : Ensures (attempts c) (· = d)
    (do
      tryCatch (query (.profile (.updateProfile dto userId))) phoneTaken
      getMe env userId) (fun _ d' => Updates userId dto d.users d'.users) (· = d) := by
  refine Ensures.bind catch_ensures fun _ => ?_
  intro d₁ r d' hwritten hrun
  have hanswer := getMe_ensures d₁ r d' rfl hrun
  cases r with
  | ok _ =>
    obtain ⟨rfl, hsome⟩ := hanswer
    exact hwritten.updates hk hp (hwritten.account_iff.symm.trans hsome)
  | error _ =>
    -- without an account nothing was written
    obtain ⟨rfl, hnone⟩ := hanswer
    have hbefore := hwritten.account_iff
    rw [hnone] at hbefore
    rcases hwritten with ⟨-, hsame⟩ | ⟨u, hu, -⟩
    · exact hsame
    · rw [hu] at hbefore
      cases hbefore

/-- What `updateMe` leaves: the profile with what was sent, or everything as it was. -/
theorem updateAvatar_ensures (hk : Keyed d.users) (hp : PhonesApart d.users) : Ensures (attempts c) (· = d) (do
    match dto.avatarFileId with
    | some (some fileId) => assertAvatarFile userId fileId
    | _ => pure ()
    tryCatch (query (.profile (.updateProfile dto userId))) phoneTaken
    getMe env userId) (fun _ d' => Updates userId dto d.users d'.users) (· = d) := by
  split
  · exact Ensures.bind assertAvatarFile_ensures fun _ => updateRest_ensures hk hp
  · exact updateRest_ensures hk hp

theorem updateMe_ensures (hk : Keyed d.users) (hp : PhonesApart d.users) : Ensures (attempts c) (· = d)
    (updateMe env userId dto) (fun _ d' => Updates userId dto d.users d'.users) (· = d) := by
  unfold updateMe
  split
  · exact Ensures.throw fun _ => id
  · rcases dto.phone with - | phone
    · exact updateAvatar_ensures hk hp
    · exact Ensures.bind assertPhone_ensures fun _ => updateAvatar_ensures hk hp

section Pictures

theorem pictures_rows {i : Nat} {u : Profile} (h : pictures.users.committed i = some u) :
    i = 1 ∧ u.id = 1 ∧ u.phone = none := by
  match i with
  | 0 => cases h
  | 1 =>
    cases h
    exact ⟨rfl, rfl, rfl⟩
  | _ + 2 => cases h

/-- The user of the pictures takes her avatar and a phone. -/
def introduction : UpdateProfileDto := { name := some none, avatarFileId := some (some 2), phone := some (some "+201001234567") }

theorem introduction_alone : (alone (fun _ _ => 5) 1 (updateMe plainEnv 1 introduction) pictures).map
    (fun x => (x.1.isOk, x.2.users.committedRows.map fun u => (u.name, u.phone, u.avatarFileId))) =
      some (true, [("Mona", some "+201001234567", some 2)]) := by
  decide +kernel

end Pictures

end Kayan.Media
