import Kayan.Fk.Records
import Mathlib.Algebra.Group.Nat.Defs

/-!
# Foreign-key expansion

`FkExpansionService.expand`: collect the ids under foreign keys, look the records up, and
rebuild the payload with the records in place of the ids.
-/
namespace Kayan.Fk

/-- A rule of `FK_RULES`, or what a name that `FK_RULES` inherits from `Object.prototype`
does as a rule: it has no entity. -/
structure FkRule where
  entity : Option EntityType
  outputKey : Option String := none
  unlessOwn : Option String := none

/-- The names of `Object.prototype`. -/
def prototypeKeys : List String :=
  ["__defineGetter__", "__defineSetter__", "__lookupGetter__", "__lookupSetter__", "__proto__",
   "constructor", "hasOwnProperty", "isPrototypeOf", "propertyIsEnumerable", "toLocaleString", "toString",
   "valueOf"]

/-- `FK_RULES`. -/
def fkRules : List (String × FkRule) :=
  [("admin_id", { entity := some .user }),
   ("avatar_file_id", { entity := some .file }),
   ("blocked_id", { entity := some .user }),
   ("blocker_id", { entity := some .user }),
   ("conversation_id", { entity := some .conversation }),
   ("file_id", { entity := some .file }),
   ("last_message_id", { entity := some .message }),
   ("owner_id", { entity := some .user, unlessOwn := some "owner_type" }),
   ("parent_id", { entity := some .category }),
   ("peer_user_id", { entity := some .user }),
   ("product_id", { entity := some .product }),
   ("product_image_file_id", { entity := some .file, outputKey := some "product_image" }),
   ("rated_user_id", { entity := some .user }),
   ("rater_id", { entity := some .user }),
   ("reported_user_id", { entity := some .user }),
   ("reporter_id", { entity := some .user }),
   ("reviewed_by", { entity := some .user, outputKey := some "reviewed_by" }),
   ("sender_id", { entity := some .user }),
   ("target_user_id", { entity := some .user }),
   ("uploader_user_id", { entity := some .user }),
   ("user_a_id", { entity := some .user }),
   ("user_b_id", { entity := some .user }),
   ("user_id", { entity := some .user })]

/-- `FK_RULES[key]`. -/
def fkRule (key : String) : Option FkRule :=
  (fkRules.lookup key).or (if key ∈ prototypeKeys then some { entity := none } else none)

/-- `!rule.shouldExpand || rule.shouldExpand(node)`. -/
def FkRule.shouldExpand (rule : FkRule) (node : Fields) : Bool :=
  rule.unlessOwn.all fun key => key ∉ node.map Prod.fst

/-- The rule by which a key of an object is replaced, if it is. -/
def ruleFor (node : Fields) (key : String) : Option FkRule :=
  (fkRule key).filter fun rule => rule.shouldExpand node

def deriveOutputKey (key : String) : String :=
  if "_id".toList.isSuffixOf key.toList then String.ofList (key.toList.take (key.toList.length - 3)) else key

def FkRule.output (rule : FkRule) (key : String) : String := rule.outputKey.getD (deriveOutputKey key)

/-- The integer that a double holds after reading so many decimal digits: 53 significant
bits, rounded to even. -/
def readDouble (n : Nat) : Nat :=
  if n < 2 ^ 53 then n
  else
    let unit := 2 ^ (n.log2 - 52)
    let down := n / unit
    let rest := n % unit
    if unit < 2 * rest ∨ (unit = 2 * rest ∧ down % 2 = 1) then (down + 1) * unit else down * unit

/-- The number that decimal digits denote. -/
def digitsValue (digits : List Char) : Nat := digits.foldl (fun n c => 10 * n + (c.toNat - 48)) 0

def toPositiveInt : Payload → Option Nat
  | .num q => if q.den = 1 ∧ 0 < q then some q.num.toNat else none
  | .str s =>
    if s.toList ≠ [] ∧ s.toList.all Char.isDigit then
      let parsed := readDouble (digitsValue s.toList)
      if 0 < parsed then some parsed else none
    else none
  | _ => none

mutual

/-- `collectIds`: the ids under foreign keys of all objects, those that are values of
foreign keys included. -/
def collectIds : Payload → List (EntityType × Nat)
  | .arr xs => collectItems xs
  | .obj fs => collectFields fs fs
  | .custom fs _ => collectFields fs fs
  | _ => []
termination_by structural x => x

def collectItems : List Payload → List (EntityType × Nat)
  | [] => []
  | x :: xs => collectIds x ++ collectItems xs
termination_by structural x => x

def collectFields (node : Fields) : List (String × Payload) → List (EntityType × Nat)
  | [] => []
  | (key, value) :: rest =>
    (((ruleFor node key).bind (·.entity)).bind fun entity => (toPositiveInt value).map (entity, ·)).toList ++
      collectIds value ++ collectFields node rest
termination_by structural x => x

end

/-- The record of an id, per entity. -/
abbrev Resolver := EntityType → Nat → Option Payload

/-- `new Map(records.map((item) => [Number(item.id), item]))`: the last record of an id counts. -/
def resolverOf (records : List Record) (id : Nat) : Option Payload := (records.reverse.lookup id)

def entityTypes : List EntityType := [.user, .category, .product, .message, .conversation, .file]

def idsOf (entity : EntityType) (found : List (EntityType × Nat)) : List Nat :=
  (found.filter fun x => x.1 = entity).map Prod.snd

/-- `resolveEntities`: one query for each entity with ids, or `none` when a query fails. -/
def resolveEntities (rd : Reader) (dir : Directory) (found : List (EntityType × Nat)) : Option Resolver :=
  if entityTypes.all fun entity => idsOf entity found = [] || (fetch rd dir entity (idsOf entity found)).isSome
  then some fun entity id =>
    if idsOf entity found = [] then none
    else (fetch rd dir entity (idsOf entity found)).bind fun records => resolverOf records id
  else none

/-- What a foreign key is replaced by: the record of its id, or `null`. -/
def replacement (maps : Resolver) (rule : FkRule) (value : Payload) : Payload :=
  (rule.entity.bind fun entity => (toPositiveInt value).bind (maps entity)).getD .null

mutual

def transformNode (maps : Resolver) : Payload → Payload
  | .arr xs => .arr (transformItems maps xs)
  | .obj fs => .obj (transformFields maps fs [] fs)
  | .custom fs _ => .obj (transformFields maps fs [] fs)
  | x => x
termination_by structural x => x

def transformItems (maps : Resolver) : List Payload → List Payload
  | [] => []
  | x :: xs => transformNode maps x :: transformItems maps xs
termination_by structural x => x

/-- The loop over the entries of `node`: the own entries that it adds to `out`, which has
the keys `seen` so far. Assigning to `__proto__` adds no own entry. -/
def transformFields (maps : Resolver) (node : Fields) (seen : List String) :
    List (String × Payload) → List (String × Payload)
  | [] => []
  | (key, value) :: rest =>
    match ruleFor node key with
    | some rule =>
      if rule.output key ∈ seen ∨ rule.output key = "__proto__" then transformFields maps node seen rest
      else (rule.output key, replacement maps rule value) ::
        transformFields maps node (rule.output key :: seen) rest
    | none =>
      if key ∈ seen then transformFields maps node seen rest
      else (key, transformNode maps value) :: transformFields maps node (key :: seen) rest
termination_by structural x => x

end

/-- `expand`, or `none` when a lookup query fails. -/
def expand (rd : Reader) (dir : Directory) (payload : Payload) : Option Payload :=
  (resolveEntities rd dir (collectIds payload)).map fun maps => transformNode maps payload

end Kayan.Fk
