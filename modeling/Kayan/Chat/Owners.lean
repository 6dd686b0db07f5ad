import Kayan.Chat.Rooms

/-!
# The owner of a product in a conversation

`getOrCreateConversation` compares `owner_id` with the ids of the request by `===`. The driver returns a
`BIGINT` as text, unless a parser for this type is registered.
-/
namespace Kayan.Chat.Owners
open Interleave

section Service

/-- How the driver returns a `BIGINT`. -/
inductive Driver where
  | text
  | number
  deriving DecidableEq

/-- The value of a `BIGINT` column, from its text. -/
def Driver.value : Driver → Payload → Payload
  | .text, v => v
  | .number, v => ((Kayan.number v).map .num).getD .null

/-- `value === id`. -/
def identical (value : Payload) (id : Nat) : Bool :=
  match value with
  | .num q => q = id
  | _ => false

def unavailable : Failure := .forbidden "Product is not available for conversation"

variable (driver : Driver) (env : Env)

def validateProduct (userId participantId productId : Nat) : Code Unit := do
  let product : Option (Payload × ProductStatus) ← query (.selectProduct productId)
  match product with
  | none => throw (.notFound "Product not found")
  | some (owner, status) =>
    let ownerId := driver.value owner
    let isParticipantOwner := identical ownerId userId || identical ownerId participantId
    if status ≠ .available ∧ isParticipantOwner = false then throw unavailable else pure ()

/-- The conversation of two users who may have it. -/
def openConversation (userId participantId : Nat) (validatedProductId : Option Nat) : Code Payload := do
  let userAId := if userId < participantId then userId else participantId
  let userBId := if userId < participantId then participantId else userId
  let existing : Option (Nat × Option Nat) ← query (.selectPair userAId userBId)
  match existing with
  | some (id, product) =>
    match validatedProductId, product with
    | some productId, none => query (.updateProduct productId id)
    | _, _ => pure ()
    getConversationById env userId id
  | none =>
    let id ← insertConversation userAId userBId validatedProductId
    getConversationById env userId id

/-- `ChatService.getOrCreateConversation`, for either way of returning a `BIGINT`. -/
def getOrCreateConversation (userId participantId : Nat) (productId : Option Nat) : Code Payload :=
  if userId = participantId then throw (.badRequest "Cannot start conversation with yourself")
  else do
    let participantExists : Bool ← query (.selectUserExists participantId)
    if !participantExists then throw (.notFound "Participant not found")
    else
      let validatedProductId := productId.filter (· ≠ 0)
      match validatedProductId with
      | some productId => validateProduct driver userId participantId productId
      | none => pure ()
      openConversation env userId participantId validatedProductId

end Service

section Results
variable {env : Env} {c : Client} {d : Db} {α β : Type}

/-- What a call returns that runs alone. -/
def returns (env : Env) (c : Client) (code : Code α) (d : Db) : Option (Except Failure α × Db) :=
  code.run.alone (act env (.run 0) c) d

theorem returns_bind (code : Code α) (f : α → Code β) :
    returns env c (code >>= f) d = (returns env c code d).bind fun x =>
      match x.1 with
      | .ok a => returns env c (f a) x.2
      | .error e => some (.error e, x.2) := by
  refine (alone_bind _ _).trans (congrArg _ (funext fun x => ?_))
  obtain ⟨r, d'⟩ := x
  cases r <;> rfl

/-- A statement that runs decides how the code goes on. -/
theorem returns_query {q : Stmt} {r : Reply q} {d' : Db} {f : Reply q → Code β}
    (h : act env (.run 0) c q d = some (.ok r, d')) : returns env c (query q >>= f) d = returns env c (f r) d' := by
  change (act env (.run 0) c q d).bind _ = _
  rw [h]
  rfl

/-- Code that throws the error at no point. -/
def Never (e : Failure) (code : Code α) : Prop :=
  Follows (fun _ _ _ _ => True) (fun r (_ : Unit) => r ≠ .error e) code.run ()

variable {e : Failure}

theorem Never.pure {a : α} : Never e (Pure.pure a : Code α) := nofun

theorem Never.throw {e' : Failure} (h : e' ≠ e) : Never e (MonadExcept.throw e' : Code α) :=
  fun heq => h (Except.error.inj heq)

theorem Never.query {q : Stmt} (h : ∀ e', Failure.database e' ≠ e) : Never e (Chat.query q) := by
  intro r
  refine ⟨(), trivial, ?_⟩
  cases r with
  | ok a => exact nofun
  | error e' => exact fun heq => h e' (Except.error.inj heq)

theorem Never.bind {code : Code α} {f : α → Code β} (h : Never e code) (hf : ∀ a, Never e (f a)) : Never e (code >>= f) :=
  Follows.bind h fun r _ hr => by
    cases r with
    | ok a => exact hf a
    | error e' => exact fun heq => hr (congrArg _ (Except.error.inj heq))

theorem Never.catch {code : Code α} {handler : Failure → Code α} (hc : Never e code)
    (h : ∀ e', e' ≠ e → Never e (handler e')) : Never e (tryCatch code handler) :=
  Follows.bind hc fun r _ hr => by
    cases r with
    | ok a => exact nofun
    | error e' => exact h e' fun heq => hr (congrArg _ heq)

theorem Never.returns {code : Code α} (h : Never e code) (d' : Db) : Owners.returns env c code d ≠ some (.error e, d') := by
  intro hr
  obtain ⟨-, hne, -⟩ := Follows.alone (I := fun _ _ => True) h (fun _ _ _ _ _ _ _ _ _ => trivial) hr trivial
  exact hne rfl

end Results

section Rule
variable {env : Env} {c : Client} {d : Db} {userId participantId : Nat}

theorem getConversationById_never {conversationId : Nat} : Never unavailable (getConversationById env userId conversationId) := by
  refine Never.bind (Never.bind (Never.query fun _ => nofun) fun row => ?_) fun _ =>
    Never.bind (Never.query fun _ => nofun) fun view => ?_
  · rcases row with - | ⟨a, b⟩
    · exact Never.throw nofun
    · dsimp only
      split
      · split
        · exact Never.throw (by simp [unavailable])
        · exact Never.pure
      · exact Never.throw nofun
  · rcases view with - | v
    · exact Never.throw nofun
    · exact Never.pure

/-- After the check, no call is refused for its product. -/
theorem openConversation_never {productId : Option Nat} :
    Never unavailable (openConversation env userId participantId productId) := by
  have hinsert {a b : Nat} : Never unavailable (insertConversation a b productId >>= fun id => getConversationById env userId id) := by
    refine Never.bind (Never.catch (Never.query fun _ => nofun) fun e' he => ?_) fun _ => getConversationById_never
    split
    · exact Never.throw nofun
    · exact Never.throw he
  refine Never.bind (Never.query fun _ => nofun) fun existing => ?_
  rcases existing with - | ⟨id, product⟩
  · exact hinsert
  · dsimp only
    split
    · exact Never.bind (Never.query fun _ => nofun) fun _ => getConversationById_never
    · exact getConversationById_never

/-- A request for a conversation about a product, between two users. -/
structure Proposal (d : Db) where
  userId : Nat
  participantId : Nat
  product : Product
  distinct : userId ≠ participantId
  live : d.liveUser participantId = true
  found : d.products.find? (fun r => r.id = product.id ∧ r.deleted = false) = some product
  positive : product.id ≠ 0

variable (env c) in
/-- The request is refused for its product. -/
def Refused (driver : Driver) (p : Proposal d) : Prop :=
  ∃ d', returns env c (getOrCreateConversation driver env p.userId p.participantId (some p.product.id)) d =
    some (.error unavailable, d')

theorem identical_value (driver : Driver) (ownerId id : Nat) :
    identical (driver.value (bigint ownerId)) id = true ↔ driver = .number ∧ ownerId = id := by
  cases driver with
  | text => simp [Driver.value, identical, bigint]
  | number =>
    have hvalue : Driver.number.value (bigint ownerId) = .num ownerId := by
      rw [Driver.value, bigint, Kayan.number, stringToNumber_toString]
      rfl
    simp [hvalue, identical]

theorem validateProduct_returns (driver : Driver) (p : Proposal d) :
    returns env c (validateProduct driver p.userId p.participantId p.product.id) d =
      some (if p.product.status ≠ .available ∧
          ¬ (driver = .number ∧ (p.product.ownerId = p.userId ∨ p.product.ownerId = p.participantId))
        then .error unavailable else .ok (), d) := by
  have hselect : act env (.run 0) c (.selectProduct p.product.id) d =
      some (.ok (some (bigint p.product.ownerId, p.product.status)), d) := by
    change some (Except.ok ((d.products.find? fun r => r.id = p.product.id ∧ r.deleted = false).map _), _) = _
    rw [p.found]
    rfl
  have howner : (identical (driver.value (bigint p.product.ownerId)) p.userId ||
      identical (driver.value (bigint p.product.ownerId)) p.participantId) = false ↔
        ¬ (driver = .number ∧ (p.product.ownerId = p.userId ∨ p.product.ownerId = p.participantId)) := by
    rw [← Bool.not_eq_true, Bool.or_eq_true, identical_value, identical_value]
    tauto
  refine (returns_query hselect).trans ?_
  dsimp only
  simp only [howner]
  split <;> rfl

theorem getOrCreateConversation_returns (driver : Driver) (p : Proposal d) :
    returns env c (getOrCreateConversation driver env p.userId p.participantId (some p.product.id)) d =
      if p.product.status ≠ .available ∧
          ¬ (driver = .number ∧ (p.product.ownerId = p.userId ∨ p.product.ownerId = p.participantId))
        then some (.error unavailable, d)
        else returns env c (openConversation env p.userId p.participantId (some p.product.id)) d := by
  have hexists : act env (.run 0) c (.selectUserExists p.participantId) d = some (.ok true, d) := by
    change some (Except.ok (d.liveUser p.participantId), _) = _
    rw [p.live]
    rfl
  have hid : (some p.product.id).filter (· ≠ 0) = some p.product.id := by simp [Option.filter, p.positive]
  unfold getOrCreateConversation
  rw [if_neg p.distinct]
  refine (returns_query hexists).trans ?_
  simp only [Bool.not_true, Bool.false_eq_true, if_false, hid]
  rw [returns_bind, validateProduct_returns]
  split <;> rfl

theorem refused_iff (driver : Driver) (p : Proposal d) :
    Refused env c driver p ↔ p.product.status ≠ .available ∧
      ¬ (driver = .number ∧ (p.product.ownerId = p.userId ∨ p.product.ownerId = p.participantId)) := by
  unfold Refused
  rw [getOrCreateConversation_returns]
  constructor
  · rintro ⟨d', h⟩
    split at h
    · assumption
    · exact absurd h (openConversation_never.returns d')
  · intro h
    exact ⟨d, if_pos h⟩

/-- A product may be talked about while it is available, or with its owner. -/
def Permitted (p : Proposal d) : Prop :=
  p.product.status = .available ∨ p.product.ownerId = p.userId ∨ p.product.ownerId = p.participantId

/-- The rule holds where ids arrive as numbers, and where the owner does not decide. -/
theorem product_rule_iff (env : Env) (c : Client) (driver : Driver) (p : Proposal d) :
    (¬ Refused env c driver p ↔ Permitted p) ↔
      driver = .number ∨ p.product.status = .available ∨
        (p.product.ownerId ≠ p.userId ∧ p.product.ownerId ≠ p.participantId) := by
  rw [refused_iff, Permitted]
  tauto

theorem identical_text (ownerId id : Nat) : identical (Driver.text.value (bigint ownerId)) id = false := rfl

theorem validateProduct_text (productId : Nat) :
    returns env c (validateProduct .text userId participantId productId) d =
      returns env c (Chat.validateProduct productId) d := by
  refine (returns_query rfl).trans (Eq.trans ?_ (returns_query rfl).symm)
  cases d.products.find? fun r => r.id = productId ∧ r.deleted = false with
  | none => rfl
  | some row =>
    simp only [Option.map_some, identical_text, Bool.or_self, and_true]
    rfl

/-- `ChatService.getOrCreateConversation` as it was modelled is the one for a driver that returns text. -/
theorem text_returns (productId : Option Nat) :
    returns env c (getOrCreateConversation .text env userId participantId productId) d =
      returns env c (Chat.getOrCreateConversation env userId participantId productId) d := by
  unfold getOrCreateConversation Chat.getOrCreateConversation
  by_cases hself : userId = participantId
  · rw [if_pos hself, if_pos hself]
  · rw [if_neg hself, if_neg hself]
    refine (returns_query rfl).trans (Eq.trans ?_ (returns_query rfl).symm)
    cases d.liveUser participantId with
    | false => rfl
    | true =>
      dsimp only
      cases productId.filter (· ≠ 0) with
      | none => rfl
      | some productId =>
        refine (returns_bind _ _).trans (Eq.trans ?_ (returns_bind _ _).symm)
        rw [validateProduct_text]
        rfl

end Rule

section Fixtures

/-- The second user's product is sold. -/
def sold : Db := { quiet with products := [{ id := 5, ownerId := 2, status := .sold }] }

/-- The first user asks for a conversation about it with its owner. -/
def aboutSold : Proposal sold where
  userId := 1
  participantId := 2
  product := { id := 5, ownerId := 2, status := .sold }
  distinct := by decide
  live := rfl
  found := rfl
  positive := by decide

theorem sold_refused : ¬ (¬ Refused openEnv 0 .text aboutSold ↔ Permitted aboutSold) := by
  have hrefused : Refused openEnv 0 .text aboutSold := (refused_iff .text aboutSold).mpr ⟨nofun, fun h => nomatch h.1⟩
  exact fun h => h.mpr (.inr (.inr rfl)) hrefused

end Fixtures

end Kayan.Chat.Owners
