import Kayan.Items.Alone
import Kayan.Items.Protocol
import Kayan.Lib.Sequential

/-!
# Owners and settled statuses

Every version of an item has the same owner. An item keeps its status in a call that sets it no other one, and
a finished fault in every call: nothing leads on from `finished`.
-/
namespace Kayan.Items
open Interleave RowStore Shop Reads Bookkeeping

variable {drv : Driver} {now : Nat} {m : Move} {c : Client} {d d' : Db} {x : Item} {owner : Item → Nat}

/-- The user of a row. -/
def Row.userId : Row → Nat
  | .order r => r.userId
  | .fault r => r.userId
  | .service r => r.userId

/-- All versions of the items are of these users. -/
structure Owners (owner : Item → Nat) (d : Db) : Prop where
  orders : d.shop.orders.Every fun i r => r.userId = owner ⟨.order, i⟩
  faults : d.faults.Every fun i r => r.userId = owner ⟨.fault, i⟩
  services : d.services.Every fun i r => r.userId = owner ⟨.service, i⟩

theorem Owners.row {v : Row} (h : Owners owner d) (hv : d.ledger.row x = some v) : v.userId = owner x := by
  obtain ⟨type, i⟩ := x
  cases type with
  | order =>
    obtain ⟨r, hr, rfl⟩ := Option.map_eq_some_iff.mp hv
    exact h.orders.committed hr
  | fault =>
    obtain ⟨r, hr, rfl⟩ := Option.map_eq_some_iff.mp hv
    exact h.faults.committed hr
  | service =>
    obtain ⟨r, hr, rfl⟩ := Option.map_eq_some_iff.mp hv
    exact h.services.committed hr

/-- Without open transactions the owners are those of the rows. -/
theorem Quiet.owners (h : Quiet d) : Owners (fun x => ((d.ledger.row x).map Row.userId).getD 0) d where
  orders i r hr := by
    have hc : d.shop.orders.committed i = some r := Table.committed_of_has (fun b => h.orders b i) hr
    simp [Db.ledger, hc, Row.userId]
  faults i r hr := by
    have hc : d.faults.committed i = some r := Table.committed_of_has (fun b => h.faults b i) hr
    simp [Db.ledger, hc, Row.userId]
  services i r hr := by
    have hc : d.services.committed i = some r := Table.committed_of_has (fun b => h.services b i) hr
    simp [Db.ledger, hc, Row.userId]

theorem Owners.commit (h : Owners owner d) : Owners owner (d.commit c) :=
  ⟨h.orders.commit, h.faults.commit, h.services.commit⟩

theorem Owners.rollback (h : Owners owner d) : Owners owner (d.rollback c) :=
  ⟨h.orders.rollback, h.faults.rollback, h.services.rollback⟩

/-- The next key of the items of a type. -/
def Db.nextKey (d : Db) : ItemType → Nat
  | .order => d.shop.orders.next
  | .fault => d.faults.next
  | .service => d.services.next

/-- Whose a new item will be can be chosen. -/
theorem Owners.choose (h : Owners owner d) (hx : x.id = d.nextKey x.type) (u : Nat) :
    Owners (Function.update owner x u) d := by
  have hold {type : ItemType} {i : Nat} (hi : i < d.nextKey type) :
      Function.update owner x u ⟨type, i⟩ = owner ⟨type, i⟩ := by
    refine Function.update_of_ne ?_ u owner
    rintro rfl
    exact absurd hx (Nat.ne_of_lt hi)
  exact
    { orders := h.orders.mono_lt fun i r hi hr => hr.trans (hold hi).symm
      faults := h.faults.mono_lt fun i r hi hr => hr.trans (hold hi).symm
      services := h.services.mono_lt fun i r hi hr => hr.trans (hold hi).symm }

theorem row_nextKey (hx : x.id = d.nextKey x.type) : d.ledger.row x = none := by
  obtain ⟨type, i⟩ := x
  obtain rfl : i = d.nextKey type := hx
  cases type <;> simp [Db.ledger, Db.nextKey, Table.committed_fresh (Nat.le_refl _)]

/-- The owners after a step: those of the items that there were. -/
def OwnersStay (owner : Item → Nat) (d d' : Db) : Prop :=
  ∃ owner', Owners owner' d' ∧ ∀ x, d.ledger.row x ≠ none → owner' x = owner x

theorem Owners.stay (h : Owners owner d') : OwnersStay owner d d' := ⟨owner, h, fun _ _ => rfl⟩

/-- An item is inserted. -/
theorem Owners.insert {u : Nat} (h : Owners owner d) (hx : x.id = d.nextKey x.type)
    (hd : ∀ owner', u = owner' x → Owners owner' d → Owners owner' d') : OwnersStay owner d d' := by
  refine ⟨_, hd _ (Function.update_self x u owner).symm (h.choose hx u), fun y hy => Function.update_of_ne ?_ u owner⟩
  rintro rfl
  exact hy (row_nextKey hx)

theorem owners_afterShop {q : Shop.Stmt} {r : Shop.Answer q} {e : Shop.Db} (h : Owners owner d)
    (he : Shop.exec now c q d.shop = some (r, e)) : OwnersStay owner d (afterShop c e d q) := by
  by_cases hc : q = .commit
  · subst hc
    exact h.commit.stay
  by_cases hr : q = .rollback
  · subst hr
    exact h.rollback.stay
  have heq : afterShop c e d q = { d with shop := e } := by
    cases q with
    | commit => exact absurd rfl hc
    | rollback => exact absurd rfl hr
    | _ => rfl
  rw [heq]
  cases Shop.exec_change he hc hr with
  | @insertOrder o =>
    refine @Owners.insert d _ ⟨.order, d.shop.orders.next⟩ owner o.userId h rfl fun owner' hu h' => ?_
    exact { h' with orders := h'.orders.insert hu }
  | updateOrder hrow _ _ hu =>
    refine Owners.stay { h with orders := h.orders.store fun r hr => ?_ }
    cases hr
    exact hu.trans (h.orders.committed hrow)
  | _ => exact Owners.stay { h with }

theorem exec_owners {q : Stmt} {r : Answer q} (h : Owners owner d) (he : exec now c q d = some (r, d')) :
    OwnersStay owner d d' := by
  cases q with
  | shop q =>
    obtain ⟨⟨r', e⟩, hshop, heq⟩ := Option.map_eq_some_iff.mp he
    cases heq
    exact owners_afterShop h hshop
  | insertFault userId dto =>
    cases he
    refine @Owners.insert d _ ⟨.fault, d.faults.next⟩ owner userId h rfl fun owner' hu h' => ?_
    exact { h' with faults := h'.faults.insert hu }
  | insertService userId dto =>
    cases he
    refine @Owners.insert d _ ⟨.service, d.services.next⟩ owner userId h rfl fun owner' hu h' => ?_
    exact { h' with services := h'.services.append hu }
  | updateFault dto faultId =>
    simp only [exec] at he
    split at he
    · cases he
      exact h.stay
    · rename_i row hrow
      split at he
      · cases he
        refine Owners.stay { h with faults := h.faults.write fun r hr => ?_ }
        cases hr
        have hu : row.userId = owner ⟨.fault, faultId⟩ := h.faults.view hrow
        exact hu
      · cases he
  | updateDeliveryAddress =>
    obtain ⟨x, hx, heq⟩ := Option.map_eq_some_iff.mp he
    cases heq
    exact Owners.stay { h with orders := updateRow_every hx h.orders fun _ hr => hr }
  | cancelFaultRow | updateFaultStatus =>
    obtain ⟨x, hx, heq⟩ := Option.map_eq_some_iff.mp he
    cases heq
    exact Owners.stay { h with faults := updateRow_every hx h.faults fun _ hr => hr }
  | updateService | cancelServiceRow | updateServiceStatus =>
    obtain ⟨x, hx, heq⟩ := Option.map_eq_some_iff.mp he
    cases heq
    exact Owners.stay { h with services := updateRow_every hx h.services fun _ hr => hr }
  | insertFaultHistory ex =>
    cases ex <;>
    · cases he
      exact Owners.stay { h with }
  | deleteFaultAssets faultId =>
    obtain ⟨t, -, heq⟩ := Option.map_eq_some_iff.mp he
    cases heq
    exact Owners.stay { h with }
  | insertFaultAsset =>
    simp only [exec] at he
    split at he
    · cases he
      exact h.stay
    · split at he <;>
      · cases he
        exact Owners.stay { h with }
  | insertServiceHistory =>
    cases he
    exact Owners.stay { h with }
  | selectOwnFaultStatus | selectFaultStatus | selectFiles | selectFault | selectFaultAssets | selectServiceStatus
  | selectService =>
    cases he
    exact h.stay

theorem act_owners {q : Stmt} {r : Answer q} (h : Owners owner d) (ha : act m c q d = some (r, d')) :
    OwnersStay owner d d' := by
  cases m with
  | run now => exact exec_owners h ha
  | fail e =>
    obtain ⟨-, rfl⟩ := act_fail ha
    exact h.stay

/-- What every statement keeps. -/
structure Sane (d : Db) : Prop where
  tidy : Tidy d
  sound : Sound scheme d.ledger
  owners : ∃ owner, Owners owner d

theorem Quiet.sane (h : Quiet d) : Sane d := ⟨h.tidy, h.sound, _, h.owners⟩

theorem Sane.act {q : Stmt} {r : Answer q} (h : Sane d) (ha : act m c q d = some (r, d')) : Sane d' := by
  obtain ⟨owner, howner⟩ := h.owners
  obtain ⟨owner', howner', -⟩ := act_owners howner ha
  obtain ⟨htidy, hsound⟩ := act_sound ⟨h.tidy, h.sound⟩ ha
  exact ⟨htidy, hsound, owner', howner'⟩

section Settled
variable {s : Status} {u : Nat} {p y : Phase}

/-- The item is user `u`'s and has the status `s`, and the call has not read another one. -/
structure Settled (x : Item) (s : Status) (u : Nat) (p : Phase) (d : Db) : Prop where
  sane : Sane d
  row : ∃ v, d.ledger.row x = some v ∧ v.status = s ∧ v.userId = u
  checked : ∀ t, p = .checked x t → t = s

/-- An item stays settled where no other status is set. -/
theorem Settled.step {q : Stmt} {r : Answer q} (h : Settled x s u p d) (hy : p.Next (q.op r) y)
    (ha : Items.act m c q d = some (r, d')) (hset : ∀ t stamped, q.op r = .set x t stamped → t = s) :
    Settled x s u y d' := by
  obtain ⟨v, hv, rfl, rfl⟩ := h.row
  have hmoves : Moves scheme c d.ledger (q.op r) d'.ledger := act_moves h.sane.tidy ha
  refine ⟨h.sane.act ha, ?_, fun t ht => ?_⟩
  · obtain ⟨w, hw, hs⟩ := hmoves.keeps_status h.sane.sound hv hset
    obtain ⟨owner, howner⟩ := h.sane.owners
    obtain ⟨owner', howner', hsame⟩ := act_owners howner ha
    refine ⟨w, hw, hs, ?_⟩
    rw [howner'.row hw, howner.row hv]
    exact hsame x fun hn => by simp [hn] at hv
  · subst ht
    generalize ho : q.op r = o at hy hmoves
    cases hy with
    | read hp => cases hp
    | check => exact hmoves.check_status h.sane.sound hv

/-- A call that has read no other status of a fault than `finished` sets it no other one. -/
theorem next_finished {i : Nat} {o : Op Item Status} {t : Status} {stamped : Bool} (hy : p.Next o y)
    (hp : ∀ t, p = .checked ⟨.fault, i⟩ t → t = .fault .finished) (ho : o = .set ⟨.fault, i⟩ t stamped) :
    t = .fault .finished := by
  subst ho
  cases hy with
  | cancel => cases hp _ rfl
  | advance h =>
    cases hp _ rfl
    rcases h with rfl | h
    · rfl
    · cases h
  | set hx => exact absurd rfl hx

/-- How the store resolves the statements of client `c`. -/
def acts (c : Client) : Acts Stmt Answer Db := fun q d r d' => ∃ m, act m c q d = some (r, d')

theorem Sane.runs {req : Request} {r : Except Failure Payload} (h : Sane d)
    (hr : Runs (acts c) (req.code drv).run d r d') : Sane d' :=
  hr.keeps (fun _ _ _ _ ⟨_, ha⟩ hd => hd.act ha) h

/-- A finished fault stays finished, and its owner's, in every call. -/
theorem finished_stays {req : Request} {r : Except Failure Payload} {i : Nat}
    (h : Settled ⟨.fault, i⟩ (.fault .finished) u .idle d) (hr : Runs (acts c) (req.code drv).run d r d') :
    Settled ⟨.fault, i⟩ (.fault .finished) u .idle d' := by
  have hkeeps : Keeps calls .idle (req.code drv) (fun _ y => y.ended = true) fun y => y.ended = true := request_keeps req
  obtain ⟨y, -, hy⟩ := Follows.runs (I := Settled ⟨.fault, i⟩ (.fault .finished) u) hkeeps
    (fun p q r y d d' hnext ⟨_, ha⟩ hd => hd.step hnext ha fun t stamped ho => next_finished hnext hd.checked ho) hr h
  exact ⟨hy.sane, hy.row, fun t ht => by cases ht⟩

end Settled

end Kayan.Items
