import Kayan.Items.Service
import Kayan.Lib.RowVersions
import Kayan.Shop.Alone

/-!
# Fault calls that run alone

One call while no other transaction is open: its statements are taken one after the other
from a store in which no row is locked.
-/
namespace Kayan.Items
open RowStore Interleave Shop Reads

/-- When each statement of a call runs. -/
abbrev Clock := Stmt → Db → Nat

/-- Code of client `c`, run with no other statements in between: what it returns or throws,
and the store it leaves. -/
def alone {α : Type} (clock : Clock) (c : Client) (code : Code α) (d : Db) : Option (Except Failure α × Db) :=
  code.run.alone (fun q d => exec (clock q d) c q d) d

/-- No row of any table is locked. -/
structure Unlocked (d : Db) : Prop where
  shop : Shop.Unlocked d.shop
  faults : d.faults.Unlocked
  faultHistory : d.faultHistory.Unlocked
  faultAssets : d.faultAssets.Unlocked
  services : d.services.Unlocked
  serviceHistory : d.serviceHistory.Unlocked

/-- A store between calls: no row is locked, and faults carry their keys. -/
structure Still (d : Db) : Prop where
  unlocked : Unlocked d
  faultId : ∀ i r, d.faults.committed i = some r → r.id = i

/-- The tables have the same committed rows. -/
structure Same (d d' : Db) : Prop where
  shop : Shop.Same d.shop d'.shop
  faults : ∀ i, d'.faults.committed i = d.faults.committed i
  faultHistory : ∀ i, d'.faultHistory.committed i = d.faultHistory.committed i
  faultAssets : ∀ i, d'.faultAssets.committed i = d.faultAssets.committed i
  services : ∀ i, d'.services.committed i = d.services.committed i
  serviceHistory : ∀ i, d'.serviceHistory.committed i = d.serviceHistory.committed i
  files : d'.files = d.files
  ratings : d'.ratings = d.ratings

/-- No other client than `c` has a lock. -/
structure Sole (c : Client) (d : Db) : Prop where
  shop : Shop.Sole c d.shop
  faults : d.faults.Sole c
  faultHistory : d.faultHistory.Sole c
  faultAssets : d.faultAssets.Sole c
  services : d.services.Sole c
  serviceHistory : d.serviceHistory.Sole c

variable {c : Client} {d d' d'' : Db} {α β : Type} {clock : Clock}

theorem Unlocked.quiet (h : Unlocked d) : Quiet d where
  orders _ _ := h.shop.orders.own
  orderHistory _ _ := h.shop.history.own
  faults _ _ := h.faults.own
  faultHistory _ _ := h.faultHistory.own
  services _ _ := h.services.own
  serviceHistory _ _ := h.serviceHistory.own

theorem Same.refl : Same d d :=
  ⟨Shop.Same.refl, fun _ => rfl, fun _ => rfl, fun _ => rfl, fun _ => rfl, fun _ => rfl, rfl, rfl⟩

theorem Same.trans (h : Same d d') (h' : Same d' d'') : Same d d'' where
  shop := h.shop.trans h'.shop
  faults i := (h'.faults i).trans (h.faults i)
  faultHistory i := (h'.faultHistory i).trans (h.faultHistory i)
  faultAssets i := (h'.faultAssets i).trans (h.faultAssets i)
  services i := (h'.services i).trans (h.services i)
  serviceHistory i := (h'.serviceHistory i).trans (h.serviceHistory i)
  files := h'.files.trans h.files
  ratings := h'.ratings.trans h.ratings

theorem same_rollback : Same d (d.rollback c) where
  shop := Shop.same_rollback
  faults _ := Table.committed_rollback
  faultHistory _ := Table.committed_rollback
  faultAssets _ := Table.committed_rollback
  services _ := Table.committed_rollback
  serviceHistory _ := Table.committed_rollback
  files := rfl
  ratings := rfl

/-- The statements write neither files nor ratings. -/
theorem exec_reads {now : Nat} {q : Stmt} {r : Answer q} (h : exec now c q d = some (r, d')) :
    d'.files = d.files ∧ d'.ratings = d.ratings := by
  cases q with
  | shop q =>
    obtain ⟨x, -, heq⟩ := Option.map_eq_some_iff.mp h
    cases heq
    unfold afterShop
    split <;> exact ⟨rfl, rfl⟩
  | insertFaultAsset faultId fileId sortOrder =>
    simp only [exec] at h
    split at h
    · cases h
      exact ⟨rfl, rfl⟩
    · split at h <;>
      · cases h
        exact ⟨rfl, rfl⟩
  | updateFault dto faultId =>
    simp only [exec] at h
    split at h
    · cases h
      exact ⟨rfl, rfl⟩
    · split at h
      · cases h
        exact ⟨rfl, rfl⟩
      · cases h
  | updateDeliveryAddress | cancelFaultRow | updateFaultStatus | updateService | cancelServiceRow
  | updateServiceStatus | deleteFaultAssets =>
    obtain ⟨x, -, heq⟩ := Option.map_eq_some_iff.mp h
    cases heq
    exact ⟨rfl, rfl⟩
  | insertFaultHistory ex =>
    cases ex <;>
    · cases h
      exact ⟨rfl, rfl⟩
  | insertFault | selectOwnFaultStatus | selectFaultStatus | selectFiles | selectFault | selectFaultAssets
  | insertService | selectServiceStatus | insertServiceHistory | selectService =>
    cases h
    exact ⟨rfl, rfl⟩

/-- An update on its own writes versions that the function makes of those that are there. -/
theorem updateRow_every {V : Type} {P : Nat → V → Prop} {f : V → V} {i : Nat} {t : Table Client V}
    {x : Bool × Table Client V} (h : updateRow i f t = some x) (ht : t.Every P)
    (hf : ∀ v, P i v → P i (f v)) : x.2.Every P := by
  unfold updateRow at h
  split at h
  · cases h
    exact ht
  · rename_i row hrow
    split at h
    · cases h
      refine ht.store fun v hv => ?_
      cases hv
      exact hf row (ht.committed hrow)
    · cases h

section Code
variable {q : Stmt} {f : Reply q → Code β}

theorem query_alone {v : Reply q} (h : exec (clock q d) c q d = some (.ok v, d')) :
    alone clock c (query q >>= f) d = alone clock c (f v) d' :=
  await_alone h

theorem query_alone_error {e : PgError} (h : exec (clock q d) c q d = some (.error e, d')) :
    alone clock c (query q >>= f) d = some (.error (.database e), d') :=
  await_alone_error h

variable {x : Code α}

theorem withTransaction_alone {a : α} (h : alone clock c x d = some (.ok a, d')) :
    alone clock c (withTransaction x) d = some (.ok a, d'.commit c) := by
  have hbegin : exec (clock (.shop .begin) d) c (.shop .begin) d = some (.ok (), d) := rfl
  have hcommit : exec (clock (.shop .commit) d') c (.shop .commit) d' = some (.ok (), d'.commit c) := rfl
  exact transaction_alone hbegin h hcommit

theorem withTransaction_alone_error {e : Failure} (h : alone clock c x d = some (.error e, d')) :
    alone clock c (withTransaction x) d = some (.error e, d'.rollback c) := by
  have hbegin : exec (clock (.shop .begin) d) c (.shop .begin) d = some (.ok (), d) := rfl
  have hrollback : exec (clock (.shop .rollback) d') c (.shop .rollback) d' = some (.ok (), d'.rollback c) := rfl
  exact transaction_alone_error hbegin h hrollback

end Code

/-- A fault as its owner's transaction reads it back. -/
theorem getFault_alone (drv : Driver) {userId faultId : Nat} {row : FaultReport}
    (hrow : d.faults.view c faultId = some row) (hid : row.id = faultId) :
    ∃ rated, alone clock c (getFaultForUserWithExecutor drv .client userId faultId true) d =
      some (.ok (.obj [("fault", faultPayload drv (faultAssetRows d.files (d.faultAssets.rows c) [faultId])
        ⟨row, rated⟩)]), d) := by
  refine ⟨d.ratings.any fun ir => ir = ⟨userId, .fault, faultId⟩, ?_⟩
  have hselect : exec (clock (.selectFault .client faultId userId) d) c (.selectFault .client faultId userId) d =
      some (.ok (some ⟨row, d.ratings.any fun ir => ir = ⟨userId, .fault, faultId⟩⟩), d) := by
    simp only [exec, rowFor, hrow, Option.map_some]
  refine (query_alone hselect).trans ?_
  subst hid
  exact (query_alone (q := .selectFaultAssets .client [row.id]) rfl).trans rfl

end Kayan.Items
