import Kayan.Items.Images
import Kayan.Media.Service

/-!
# Calls on files and links that run alone

One call while no transaction is open. The code of the items does to their tables what it does on its own.
-/
namespace Kayan.Media
open RowStore Interleave Shop

/-- When each statement of a call runs. -/
abbrev Clock := Stmt → Db → Nat

/-- Code of client `c`, run with no other statements in between: what it returns or throws,
and the store it leaves. -/
def alone {α : Type} (clock : Clock) (c : Client) (code : Code α) (d : Db) : Option (Except Failure α × Db) :=
  code.run.alone (fun q d => exec (clock q d) c q d) d

/-- No row of any table is locked. -/
structure Unlocked (d : Db) : Prop where
  shop : Shop.Unlocked d.shop
  faults : d.faults.Unlocked
  faultHistory : d.faultHistory.Unlocked
  faultAssets : d.faultAssets.Unlocked
  services : d.services.Unlocked
  serviceHistory : d.serviceHistory.Unlocked
  files : d.files.Unlocked
  users : d.users.Unlocked
  products : d.products.Unlocked
  images : d.images.Unlocked
  catalog : d.catalog.Unlocked
  assets : d.assets.Unlocked
  gallery : d.gallery.Unlocked
  galleryAssets : d.galleryAssets.Unlocked

theorem ofFiles_unlocked {files : List File} {users : List Profile} : Unlocked (Db.ofFiles files users) where
  shop := ⟨fun _ => rfl, fun _ => rfl, fun _ => rfl, fun _ => rfl, fun _ => rfl⟩
  faults := Table.numbered_unlocked
  faultHistory := Table.numbered_unlocked
  faultAssets := Table.numbered_unlocked
  services := Table.numbered_unlocked
  serviceHistory := Table.numbered_unlocked
  files := Table.numbered_unlocked
  users := Table.numbered_unlocked
  products := Table.numbered_unlocked
  images := Table.numbered_unlocked
  catalog := Table.numbered_unlocked
  assets := Table.numbered_unlocked
  gallery := Table.numbered_unlocked
  galleryAssets := Table.numbered_unlocked

variable {c : Client} {d d' : Db} {α β : Type} {clock : Clock}

section Code
variable {q : Stmt} {f : Reply q → Code β}

theorem query_alone {v : Reply q} (h : exec (clock q d) c q d = some (.ok v, d')) :
    alone clock c (query q >>= f) d = alone clock c (f v) d' :=
  await_alone h

theorem query_alone_error {e : PgError} (h : exec (clock q d) c q d = some (.error e, d')) :
    alone clock c (query q >>= f) d = some (.error (.database e), d') :=
  await_alone_error h

variable {x : Code α}

theorem withTransaction_alone {a : α} (h : alone clock c x d = some (.ok a, d')) :
    alone clock c (withTransaction x) d = some (.ok a, d'.commit c) := by
  have hbegin : exec (clock (.items (.shop .begin)) d) c (.items (.shop .begin)) d = some (.ok (), d) := rfl
  have hcommit : exec (clock (.items (.shop .commit)) d') c (.items (.shop .commit)) d' = some (.ok (), d'.commit c) := rfl
  exact transaction_alone hbegin h hcommit

theorem withTransaction_alone_error {e : Failure} (h : alone clock c x d = some (.error e, d')) :
    alone clock c (withTransaction x) d = some (.error e, d'.rollback c) := by
  have hbegin : exec (clock (.items (.shop .begin)) d) c (.items (.shop .begin)) d = some (.ok (), d) := rfl
  have hrollback : exec (clock (.items (.shop .rollback)) d') c (.items (.shop .rollback)) d' =
      some (.ok (), d'.rollback c) := rfl
  exact transaction_alone_error hbegin h hrollback

end Code

section Items
variable {now : Nat} {i i' : Items.Db}

/-- `i` has the files and the ratings of `d`. -/
structure Beside (c : Client) (d : Db) (i : Items.Db) : Prop where
  files : i.files = (d.items c).files
  ratings : i.ratings = d.itemRatings

theorem beside_items : Beside c d (d.items c) := ⟨rfl, rfl⟩

theorem Beside.items (h : Beside c d i) : (d.withItems i).items c = i := by
  obtain ⟨hfiles, hratings⟩ := h
  obtain ⟨shop, faults, faultHistory, faultAssets, services, serviceHistory, files, ratings⟩ := i
  simp only at hfiles hratings
  subst hfiles hratings
  rfl

theorem commit_withItems (hd : Unlocked d) : (d.withItems i).commit c = d.withItems (i.commit c) := by
  simp only [Db.commit, Db.withItems, Items.Db.commit, hd.files.commit_eq, hd.users.commit_eq, hd.products.commit_eq,
    hd.images.commit_eq, hd.catalog.commit_eq, hd.assets.commit_eq, hd.gallery.commit_eq, hd.galleryAssets.commit_eq]

theorem rollback_withItems (hd : Unlocked d) : (d.withItems i).rollback c = d.withItems (i.rollback c) := by
  simp only [Db.rollback, Db.withItems, Items.Db.rollback, hd.files.rollback_eq, hd.users.rollback_eq,
    hd.products.rollback_eq, hd.images.rollback_eq, hd.catalog.rollback_eq, hd.assets.rollback_eq,
    hd.gallery.rollback_eq, hd.galleryAssets.rollback_eq]

theorem afterItems_withItems (hd : Unlocked d) {q : Items.Stmt} {r : Items.Answer q}
    (h : Items.exec now c q i = some (r, i')) : afterItems c i' (d.withItems i) q = d.withItems i' := by
  unfold afterItems
  split
  · cases h
    exact commit_withItems hd
  · cases h
    exact rollback_withItems hd
  · rfl

/-- A statement of the items does to their tables what it does on its own. -/
theorem exec_items (hd : Unlocked d) (hi : Beside c d i) {q : Items.Stmt} {r : Items.Answer q}
    (h : Items.exec now c q i = some (r, i')) :
    exec now c (.items q) (d.withItems i) = some (r, d.withItems i') ∧ Beside c d i' := by
  obtain ⟨hfiles, hratings⟩ := Items.exec_reads h
  refine ⟨?_, hfiles.trans hi.files, hratings.trans hi.ratings⟩
  change (Items.exec now c q ((d.withItems i).items c)).map _ = _
  rw [hi.items, h, Option.map_some, afterItems_withItems hd h]
  rfl

/-- The times of the store's statements, for those of the items. -/
abbrev itemsClock (clock : Clock) (d : Db) : Items.Clock := fun q i => clock (.items q) (d.withItems i)

/-- Code of the items that runs alone, beside the other tables. -/
theorem ofItems_alone {code : Items.Code α} {r : Except Failure α} (hd : Unlocked d) (hi : Beside c d i)
    (h : Items.alone (itemsClock clock d) c code i = some (r, i')) :
    alone clock c (ofItems code) (d.withItems i) = some (r, d.withItems i') := by
  have hrun (p : Prog Items.Stmt Items.Answer (Except Failure α)) (i : Items.Db) (hi : Beside c d i)
      (hp : p.alone (fun q i => Items.exec (clock (.items q) (d.withItems i)) c q i) i = some (r, i')) :
      Prog.alone (fun q d => exec (clock q d) c q d) (p.embed Stmt.items : Prog Stmt Answer _) (d.withItems i) =
        some (r, d.withItems i') := by
    induction p generalizing i with
    | ret a =>
      cases hp
      rfl
    | call q k ih =>
      obtain ⟨⟨v, i₁⟩, hstep, hrest⟩ := Option.bind_eq_some_iff.mp hp
      obtain ⟨hexec, hi₁⟩ := exec_items hd hi hstep
      change (exec (clock (.items q) (d.withItems i)) c (.items q) (d.withItems i)).bind _ = _
      rw [hexec]
      exact ih v i₁ hi₁ hrest
  exact hrun code.run i hi h

/-- Code of the items that runs alone. -/
theorem items_alone {code : Items.Code α} {r : Except Failure α} (hd : Unlocked d)
    (h : Items.alone (itemsClock clock d) c code (d.items c) = some (r, i')) :
    alone clock c (ofItems code) d = some (r, d.withItems i') := by
  have hrun : alone clock c (ofItems code) (d.withItems (d.items c)) = some (r, d.withItems i') :=
    ofItems_alone hd beside_items h
  exact hrun

end Items

end Kayan.Media
