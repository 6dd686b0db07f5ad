import Kayan.Fk.Expansion

/-!
# What the lookups find

`expand` looks ids up in one query per entity. Each foreign key it replaces gets what a
query for its own id alone would find, so expansion is a transformation under one resolver
that depends on the directory only.
-/
namespace Kayan.Fk
variable {rd : Reader} {dir : Directory} {maps look : Resolver} {entity : EntityType} {id : Nat}
  {ids : List Nat} {found : List (EntityType × Nat)} {record : Payload}

/-- What a query for one id finds. -/
def lookup (rd : Reader) (dir : Directory) : Resolver := fun entity id =>
  (fetch rd dir entity [id]).bind fun records => resolverOf records id

/-- The ids can be looked up: each fits a `BIGINT`, and the table of each entity exists. -/
def Lookable (dir : Directory) (found : List (EntityType × Nat)) : Prop :=
  ∀ x ∈ found, x.2 ≤ bigintMax ∧ (x.1 = .category → dir.categories.isSome)

instance (found : List (EntityType × Nat)) : Decidable (Lookable dir found) :=
  inferInstanceAs (Decidable (∀ x ∈ found, _))

theorem mem_idsOf : id ∈ idsOf entity found ↔ (entity, id) ∈ found := by
  simp [idsOf, Prod.exists]

section Records
variable {Row : Type} {k : Row → Nat} {q : Row → Bool} {f : Row → Payload}

/-- The last kept row with an id is found in any selection of rows that asks for the id. -/
theorem resolverOf_selection (rows : List Row) (hid : id ∈ ids) :
    resolverOf ((rows.filter fun row => decide (k row ∈ ids) && q row).map fun row => (k row, f row)) id =
      (rows.reverse.find? fun row => decide (k row = id) && q row).map f := by
  unfold resolverOf
  rw [← List.map_reverse, ← List.filter_reverse]
  induction rows.reverse with
  | nil => rfl
  | cons row rest ih =>
    by_cases hkey : k row = id
    · cases hkeep : q row <;> simp_all
    · have hne : (id == k row) = false := beq_false_of_ne (Ne.symm hkey)
      rw [List.find?_cons_of_neg (by simp [hkey]), ← ih]
      by_cases hkeep : (decide (k row ∈ ids) && q row) = true
      · simp only [List.filter_cons, hkeep, if_true, List.map_cons, List.lookup_cons, hne]
      · simp only [List.filter_cons, hkeep]
        rfl

/-- Asking for other ids as well does not change what is found for an id. -/
theorem resolverOf_single (rows : List Row) (hid : id ∈ ids) :
    resolverOf ((rows.filter fun row => decide (k row ∈ ids) && q row).map fun row => (k row, f row)) id =
      resolverOf ((rows.filter fun row => decide (k row ∈ [id]) && q row).map fun row => (k row, f row)) id :=
  (resolverOf_selection rows hid).trans (resolverOf_selection rows (List.mem_singleton_self id)).symm

/-- The same for a query that keeps every row. -/
theorem resolverOf_single_all (rows : List Row) (hid : id ∈ ids) :
    resolverOf ((rows.filter fun row => k row ∈ ids).map fun row => (k row, f row)) id =
      resolverOf ((rows.filter fun row => k row ∈ [id]).map fun row => (k row, f row)) id := by
  have h := resolverOf_single (q := fun _ => true) (k := k) (f := f) rows hid
  simpa only [Bool.and_true] using h

end Records

/-- A query fails exactly on an id out of range and on a missing table. -/
theorem fetch_isSome :
    (fetch rd dir entity ids).isSome ↔
      (∀ id ∈ ids, id ≤ bigintMax) ∧ (entity = .category → dir.categories.isSome) := by
  have hany : (ids.any fun id => bigintMax < id) = true ↔ ¬ ∀ id ∈ ids, id ≤ bigintMax := by
    simp
  unfold fetch
  by_cases h : ∀ id ∈ ids, id ≤ bigintMax
  · rw [if_neg fun hc => hany.mp hc h]
    cases entity <;> simp [fetchCategories, eq_true h]
  · rw [if_pos (hany.mpr h)]
    simp [h]

/-- What a query finds for one of its ids does not depend on the others. -/
theorem fetch_resolver (hid : id ∈ ids) (h : (fetch rd dir entity ids).isSome) :
    ((fetch rd dir entity ids).bind fun records => resolverOf records id) = lookup rd dir entity id := by
  obtain ⟨hids, htable⟩ := fetch_isSome.mp h
  have hmany : (ids.any fun id => bigintMax < id) = false := by simpa using hids
  have hone : ([id].any fun id => bigintMax < id) = false := by simpa using hids id hid
  unfold lookup fetch
  rw [hmany, hone]
  cases entity with
  | user => exact resolverOf_single dir.users hid
  | product => exact resolverOf_single dir.products hid
  | message => exact resolverOf_single_all dir.messages hid
  | conversation => exact resolverOf_single_all dir.conversations hid
  | file => exact resolverOf_single_all dir.files hid
  | category =>
    obtain ⟨rows, hrows⟩ := Option.isSome_iff_exists.mp (htable rfl)
    simp only [fetchCategories, hrows]
    exact resolverOf_single_all rows hid

theorem resolveEntities_isSome : (resolveEntities rd dir found).isSome ↔ Lookable dir found := by
  have hall : (entityTypes.all fun entity =>
      idsOf entity found = [] || (fetch rd dir entity (idsOf entity found)).isSome) = true ↔
        Lookable dir found := by
    rw [List.all_eq_true]
    constructor
    · rintro h ⟨entity, id⟩ hmem
      have hid : id ∈ idsOf entity found := mem_idsOf.mpr hmem
      have hentity := h entity (by cases entity <;> simp [entityTypes])
      simp only [Bool.or_eq_true, decide_eq_true_eq] at hentity
      obtain hnil | hsome := hentity
      · simp [hnil] at hid
      · obtain ⟨hids, htable⟩ := fetch_isSome.mp hsome
        exact ⟨hids id hid, htable⟩
    · intro h entity _
      simp only [Bool.or_eq_true, decide_eq_true_eq]
      by_cases hnil : idsOf entity found = []
      · exact Or.inl hnil
      · obtain ⟨id, hid⟩ := List.exists_mem_of_ne_nil _ hnil
        exact Or.inr (fetch_isSome.mpr
          ⟨fun i hi => (h _ (mem_idsOf.mp hi)).1, (h _ (mem_idsOf.mp hid)).2⟩)
  unfold resolveEntities
  split <;> simp_all

/-- The maps of a successful lookup hold, for each id that was collected, what a query for
it alone finds. -/
theorem resolveEntities_lookup (h : resolveEntities rd dir found = some maps)
    (hmem : (entity, id) ∈ found) : maps entity id = lookup rd dir entity id := by
  have hid : id ∈ idsOf entity found := mem_idsOf.mpr hmem
  have hsome : (resolveEntities rd dir found).isSome := Option.isSome_iff_exists.mpr ⟨maps, h⟩
  have hlookable : Lookable dir found := resolveEntities_isSome.mp hsome
  have hfetch : (fetch rd dir entity (idsOf entity found)).isSome :=
    fetch_isSome.mpr ⟨fun i hi => (hlookable _ (mem_idsOf.mp hi)).1, (hlookable _ hmem).2⟩
  unfold resolveEntities at h
  split at h
  · injection h with h
    subst h
    have hne : idsOf entity found ≠ [] := List.ne_nil_of_mem hid
    exact (if_neg hne).trans (fetch_resolver hid hfetch)
  · cases h

/-- The id under a foreign key is collected. -/
theorem mem_collectFields {node : Fields} {key : String} {value : Payload} {rule : FkRule}
    (hrule : ruleFor node key = some rule) (hentity : rule.entity = some entity)
    (hid : toPositiveInt value = some id) : ∀ {fs : List (String × Payload)}, (key, value) ∈ fs →
      (entity, id) ∈ collectFields node fs
  | (key', value') :: rest, hmem => by
    rw [collectFields]
    rcases List.mem_cons.mp hmem with heq | hrest
    · cases heq
      simp [hrule, hentity, hid]
    · exact List.mem_append_right _ (mem_collectFields hrule hentity hid hrest)

/-- The ids of an object with one key that is no foreign key. -/
theorem collectIds_single {key : String} {value : Payload} (h : ruleFor [(key, value)] key = none) :
    collectIds (.obj [(key, value)]) = collectIds value := by
  simp [collectIds, collectFields, h]

theorem collectIds_ofText (text : Option String) : collectIds (.ofText text) = [] := by
  cases text <;> rfl

theorem replacement_congr {rule : FkRule} {value : Payload}
    (h : ∀ entity id, rule.entity = some entity → toPositiveInt value = some id →
      maps entity id = look entity id) :
    replacement maps rule value = replacement look rule value := by
  unfold replacement
  cases hentity : rule.entity with
  | none => rfl
  | some entity =>
    cases hid : toPositiveInt value with
    | none => rfl
    | some id => simp [h entity id hentity hid]

mutual

/-- Expansion reads its resolver at the collected ids only. -/
theorem transformNode_congr : ∀ p : Payload, (∀ x ∈ collectIds p, maps x.1 x.2 = look x.1 x.2) →
    transformNode maps p = transformNode look p
  | .null, _ | .bool _, _ | .num _, _ | .str _, _ => rfl
  | .arr xs, h => congrArg Payload.arr (transformItems_congr xs h)
  | .obj fs, h => congrArg Payload.obj (transformFields_congr fs [] fs h)
  | .custom fs _, h => congrArg Payload.obj (transformFields_congr fs [] fs h)

theorem transformItems_congr : ∀ xs : List Payload, (∀ x ∈ collectItems xs, maps x.1 x.2 = look x.1 x.2) →
    transformItems maps xs = transformItems look xs
  | [], _ => rfl
  | x :: xs, h => by
    simp only [collectItems, List.mem_append] at h
    simp only [transformItems, transformNode_congr x fun y hy => h y (Or.inl hy),
      transformItems_congr xs fun y hy => h y (Or.inr hy)]

theorem transformFields_congr (node : Fields) : ∀ (seen : List String) (fs : List (String × Payload)),
    (∀ x ∈ collectFields node fs, maps x.1 x.2 = look x.1 x.2) →
    transformFields maps node seen fs = transformFields look node seen fs
  | _, [], _ => rfl
  | seen, (key, value) :: rest, h => by
    simp only [collectFields, List.mem_append] at h
    have hrest := fun seen => transformFields_congr node seen rest fun y hy => h y (Or.inr hy)
    have hvalue := transformNode_congr value fun y hy => h y (Or.inl (Or.inr hy))
    cases hrule : ruleFor node key with
    | none => simp only [transformFields, hrule, hrest, hvalue]
    | some rule =>
      have hreplace : replacement maps rule value = replacement look rule value :=
        replacement_congr fun entity id hentity hid => h (entity, id) (by simp [hrule, hentity, hid])
      simp only [transformFields, hrule, hrest, hreplace]

end

/-- Expansion succeeds exactly when the collected ids can be looked up, and then replaces
each foreign key by what its id alone finds. -/
theorem expand_eq (rd : Reader) (dir : Directory) (p : Payload) :
    expand rd dir p = if Lookable dir (collectIds p) then some (transformNode (lookup rd dir) p) else none := by
  unfold expand
  split
  · rename_i h
    have hsome : (resolveEntities rd dir (collectIds p)).isSome := resolveEntities_isSome.mpr h
    obtain ⟨maps, hmaps⟩ := Option.isSome_iff_exists.mp hsome
    have hcongr := transformNode_congr p fun x hx => resolveEntities_lookup hmaps hx
    simp [hmaps, hcongr]
  · rename_i h
    have hnone : resolveEntities rd dir (collectIds p) = none := by
      rw [← Option.not_isSome_iff_eq_none, resolveEntities_isSome]
      exact h
    simp [hnone]

theorem expand_some {p out : Payload} (h : expand rd dir p = some out) : out = transformNode (lookup rd dir) p := by
  rw [expand_eq] at h
  split at h <;> simp_all

theorem mem_collectItems {x : EntityType × Nat} : ∀ {xs : List Payload},
    x ∈ collectItems xs ↔ ∃ p ∈ xs, x ∈ collectIds p
  | [] => by simp [collectItems]
  | p :: ps => by rw [collectItems, List.mem_append, mem_collectItems, List.exists_mem_cons_iff]

theorem transformItems_eq_map : ∀ xs : List Payload, transformItems look xs = xs.map (transformNode look)
  | [] => rfl
  | x :: xs => congrArg (transformNode look x :: ·) (transformItems_eq_map xs)

/-- An id refers to the same record in two directories, and is no category. -/
def SameRef (rd : Reader) (dir dir' : Directory) (x : EntityType × Nat) : Prop :=
  x.1 ≠ .category ∧ lookup rd dir x.1 x.2 = lookup rd dir' x.1 x.2

/-- Expansion depends on the records of the collected ids only. -/
theorem expand_congr {dir' : Directory} {p : Payload} (h : ∀ x ∈ collectIds p, SameRef rd dir dir' x) :
    expand rd dir p = expand rd dir' p := by
  have hlookable : Lookable dir (collectIds p) ↔ Lookable dir' (collectIds p) := by
    constructor
    · exact fun hl x hx => ⟨(hl x hx).1, fun hc => absurd hc (h x hx).1⟩
    · exact fun hl x hx => ⟨(hl x hx).1, fun hc => absurd hc (h x hx).1⟩
  rw [expand_eq, expand_eq, transformNode_congr p fun x hx => (h x hx).2]
  simp only [hlookable]

/-- Users are looked up in the table of users alone. -/
theorem sameRef_user {dir' : Directory} (h : dir.users = dir'.users) : SameRef rd dir dir' (.user, id) := by
  refine ⟨by simp, ?_⟩
  simp only [lookup, fetch, fetchUsers, h]

/-- The record of the last visible row with an id. -/
def newest (rd : Reader) (dir : Directory) : Resolver
  | .user, id => (dir.users.reverse.find? fun row => decide (row.id = id) && !row.deleted).map (userPayload rd)
  | .category, id =>
    dir.categories.bind fun rows => (rows.reverse.find? fun row => row.id = id).map (categoryPayload rd)
  | .product, id =>
    (dir.products.reverse.find? fun row => decide (row.id = id) && !row.deleted).map (productPayload rd dir)
  | .message, id => (dir.messages.reverse.find? fun row => row.id = id).map (messagePayload rd)
  | .conversation, id => (dir.conversations.reverse.find? fun row => row.id = id).map (conversationPayload rd)
  | .file, id => (dir.files.reverse.find? fun row => row.id = id).map (filePayload rd)

theorem resolverOf_newest {Row : Type} {k : Row → Nat} {f : Row → Payload} (rows : List Row) :
    resolverOf ((rows.filter fun row => k row ∈ [id]).map fun row => (k row, f row)) id =
      (rows.reverse.find? fun row => k row = id).map f := by
  have h := resolverOf_selection (q := fun _ => true) (k := k) (f := f) rows (List.mem_singleton_self id)
  simpa only [Bool.and_true] using h

theorem lookup_eq_newest (hid : id ≤ bigintMax) : lookup rd dir entity id = newest rd dir entity id := by
  have hone : ([id].any fun i => bigintMax < i) = false := by simpa using hid
  unfold lookup fetch
  rw [hone]
  cases entity with
  | user => exact resolverOf_selection dir.users (List.mem_singleton_self id)
  | product => exact resolverOf_selection dir.products (List.mem_singleton_self id)
  | message => exact resolverOf_newest dir.messages
  | conversation => exact resolverOf_newest dir.conversations
  | file => exact resolverOf_newest dir.files
  | category =>
    cases hrows : dir.categories with
    | none => simp [fetchCategories, newest, hrows]
    | some rows =>
      simp only [fetchCategories, newest, hrows]
      exact resolverOf_newest rows

theorem lookup_out_of_range (hid : bigintMax < id) : lookup rd dir entity id = none := by
  have hone : ([id].any fun i => bigintMax < i) = true := by simpa using hid
  unfold lookup fetch
  rw [hone]
  rfl

theorem lookup_some (h : lookup rd dir entity id = some record) : newest rd dir entity id = some record := by
  by_cases hid : id ≤ bigintMax
  · rw [← lookup_eq_newest hid, h]
  · rw [lookup_out_of_range (Nat.lt_of_not_le hid)] at h
    cases h

/-- The record of a visible row with an id. -/
def IsRecord (rd : Reader) (dir : Directory) : EntityType → Nat → Payload → Prop
  | .user, id, record => ∃ row ∈ dir.users, row.id = id ∧ row.deleted = false ∧ record = userPayload rd row
  | .category, id, record =>
    ∃ rows, dir.categories = some rows ∧ ∃ row ∈ rows, row.id = id ∧ record = categoryPayload rd row
  | .product, id, record => ∃ row ∈ dir.products, row.id = id ∧ row.deleted = false ∧ record = productPayload rd dir row
  | .message, id, record => ∃ row ∈ dir.messages, row.id = id ∧ record = messagePayload rd row
  | .conversation, id, record => ∃ row ∈ dir.conversations, row.id = id ∧ record = conversationPayload rd row
  | .file, id, record => ∃ row ∈ dir.files, row.id = id ∧ record = filePayload rd row

section Find
variable {Row : Type} {rows : List Row} {q : Row → Bool} {f : Row → Payload}

theorem find_record (h : (rows.reverse.find? q).map f = some record) : ∃ row ∈ rows, q row = true ∧ record = f row := by
  obtain ⟨row, hrow, rfl⟩ := Option.map_eq_some_iff.mp h
  exact ⟨row, List.mem_reverse.mp (List.mem_of_find?_eq_some hrow), List.find?_some hrow, rfl⟩

theorem find_none (h : (rows.reverse.find? q).map f = none) {row : Row} (hrow : row ∈ rows) : q row = false := by
  rw [Option.map_eq_none_iff, List.find?_eq_none] at h
  exact Bool.eq_false_iff.mpr (h row (List.mem_reverse.mpr hrow))

end Find

/-- What is found is the record of a visible row. -/
theorem newest_isRecord (h : newest rd dir entity id = some record) : IsRecord rd dir entity id record := by
  cases entity with
  | user | product =>
    obtain ⟨row, hrow, hq, hrecord⟩ := find_record h
    simp only [Bool.and_eq_true, decide_eq_true_eq, Bool.not_eq_true'] at hq
    exact ⟨row, hrow, hq.1, hq.2, hrecord⟩
  | message | conversation | file =>
    obtain ⟨row, hrow, hq, hrecord⟩ := find_record h
    exact ⟨row, hrow, by simpa using hq, hrecord⟩
  | category =>
    obtain ⟨rows, hrows, h⟩ := Option.bind_eq_some_iff.mp h
    obtain ⟨row, hrow, hq, hrecord⟩ := find_record h
    exact ⟨rows, hrows, row, hrow, by simpa using hq, hrecord⟩

/-- Where nothing is found there is no visible row. -/
theorem newest_none (h : newest rd dir entity id = none) : ¬ IsRecord rd dir entity id record := by
  cases entity with
  | user | product =>
    rintro ⟨row, hrow, hid, hdeleted, -⟩
    simpa [hid, hdeleted] using find_none h hrow
  | message | conversation | file =>
    rintro ⟨row, hrow, hid, -⟩
    simpa [hid] using find_none h hrow
  | category =>
    rintro ⟨rows, hrows, row, hrow, hid, -⟩
    simp only [newest, hrows, Option.bind_some] at h
    simpa [hid] using find_none h hrow

/-- Every record is an object. -/
theorem lookup_obj (h : lookup rd dir entity id = some record) : ∃ fs, record = .obj fs := by
  have hrecord := newest_isRecord (lookup_some h)
  cases entity with
  | user | product =>
    obtain ⟨row, -, -, -, rfl⟩ := hrecord
    exact ⟨_, rfl⟩
  | message | conversation | file =>
    obtain ⟨row, -, -, rfl⟩ := hrecord
    exact ⟨_, rfl⟩
  | category =>
    obtain ⟨rows, -, row, -, -, rfl⟩ := hrecord
    exact ⟨_, rfl⟩

/-- A product that is found is a row of the legacy table. -/
theorem lookup_product (h : lookup rd dir .product id = some record) : ∃ row, record = productPayload rd dir row := by
  obtain ⟨row, -, -, -, hrecord⟩ := newest_isRecord (lookup_some h)
  exact ⟨row, hrecord⟩

/-- A chat conversation is found exactly when there is a row with the id. -/
theorem lookup_conversation_isSome (hid : id ≤ bigintMax) :
    (lookup rd dir .conversation id).isSome ↔ ∃ chat ∈ dir.conversations, chat.id = id := by
  rw [lookup_eq_newest hid]
  simp [newest, List.find?_isSome]

end Kayan.Fk
