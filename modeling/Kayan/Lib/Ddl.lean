import Mathlib.Data.List.Basic

/-!
# Data definition

The catalog of a database, and what the statements that define it do to it. A statement that
raises an error has no result. `N` are the identifiers; expressions and types are kept as texts,
with the columns that they read beside them.
-/
namespace Ddl

inductive ColumnType (N : Type) where
  | builtin (text : String)
  | custom (type : N)
  deriving DecidableEq

structure Column (N : Type) where
  name : N
  type : ColumnType N
  notNull : Bool := false
  default : Option String := none
  deriving DecidableEq

inductive ConstraintKind (N : Type) where
  | primaryKey
  | unique
  | check (text : String)
  | references (table column : N) (onDelete : String)
  deriving DecidableEq

/-- A constraint over some columns of its table, under its name where a statement mentions it. -/
structure Constraint (N : Type) where
  columns : List N
  kind : ConstraintKind N
  name : Option N := none
  deriving DecidableEq

structure Table (N : Type) where
  name : N
  columns : List (Column N)
  constraints : List (Constraint N)
  deriving DecidableEq

/-- An index: what it is over, and the columns that it reads. -/
structure Index (N : Type) where
  name : N
  table : N
  columns : List N
  text : String := ""
  unique : Bool := false
  deriving DecidableEq

structure EnumType (N : Type) where
  name : N
  labels : List String
  deriving DecidableEq

/-- A view: its columns, the columns of tables that its query reads, and the query. -/
structure View (N : Type) where
  name : N
  columns : List N
  reads : List (N × N)
  text : String
  deriving DecidableEq

structure Function (N : Type) where
  name : N
  text : String
  deriving DecidableEq

structure Trigger (N : Type) where
  name : N
  table : N
  columns : List N
  function : N
  text : String
  deriving DecidableEq

structure Catalog (N : Type) where
  tables : List (Table N) := []
  indexes : List (Index N) := []
  types : List (EnumType N) := []
  views : List (View N) := []
  functions : List (Function N) := []
  triggers : List (Trigger N) := []
  deriving DecidableEq

/-- The actions of `ALTER TABLE`. -/
inductive Action (N : Type) where
  | addColumn (ifNotExists : Bool) (column : Column N) (constraints : List (Constraint N))
  | dropColumn (ifExists : Bool) (name : N)
  | renameColumn (name newName : N)
  | setType (name : N) (type : ColumnType N)
  | setDefault (name : N) (default : String)
  | setNotNull (name : N)
  | dropNotNull (name : N)
  | addConstraint (constraint : Constraint N)
  | dropConstraint (ifExists : Bool) (name : N)

inductive Command (N : Type) where
  | createType (ifNotExists : Bool) (type : EnumType N)
  | dropType (ifExists : Bool) (name : N)
  | createTable (ifNotExists : Bool) (table : Table N)
  | dropTable (ifExists : Bool) (name : N)
  | alterTable (name : N) (actions : List (Action N))
  | createIndex (ifNotExists : Bool) (index : Index N)
  | dropIndex (ifExists : Bool) (name : N)
  | createView (orReplace : Bool) (view : View N)
  | dropView (ifExists : Bool) (name : N)
  | createFunction (function : Function N)
  | dropFunction (ifExists : Bool) (name : N)
  | createTrigger (trigger : Trigger N)
  | dropTrigger (ifExists : Bool) (name table : N)
  /-- An `UPDATE` of rows, by the columns of tables that it names. -/
  | update (names : List (N × N))

/-- What a block asks the catalog. -/
inductive Condition (N : Type) where
  | hasColumn (table column : N)
  | lacksColumn (table column : N)
  | customColumn (table column : N)
  | lacksConstraint (name : N)

/-- A command, or an anonymous block of commands that each have conditions. -/
inductive Stmt (N : Type) where
  | command (c : Command N)
  | block (guarded : List (List (Condition N) × Command N))

variable {N : Type} [DecidableEq N]

namespace Table

def column (t : Table N) (name : N) : Option (Column N) := t.columns.find? fun c => c.name = name

def has (t : Table N) (name : N) : Bool := (t.column name).isSome

/-- The table with one of its columns changed. -/
def modify (t : Table N) (name : N) (f : Column N → Column N) : Table N :=
  { t with columns := t.columns.map fun c => if c.name = name then f c else c }

end Table

namespace Constraint

/-- The constraint after a column has been renamed. -/
def rename (x : Constraint N) (name newName : N) : Constraint N :=
  { x with columns := x.columns.map fun c => if c = name then newName else c }

def isReferenceTo (x : Constraint N) (table : N) (column : N → Bool) : Bool :=
  match x.kind with
  | .references t c _ => t = table && column c
  | _ => false

end Constraint

namespace Catalog
variable (d : Catalog N)

def table (name : N) : Option (Table N) := d.tables.find? fun t => t.name = name

def hasColumn (table column : N) : Bool := (d.table table).any fun t => t.has column

/-- The name is taken by a table, an index or a view. -/
def relation (name : N) : Bool :=
  (d.tables.any fun t => t.name = name) || (d.indexes.any fun i => i.name = name) || d.views.any fun v => v.name = name

def hasType : ColumnType N → Bool
  | .builtin _ => true
  | .custom name => d.types.any fun t => t.name = name

/-- The catalog with a table replaced. -/
def put (t : Table N) : Catalog N :=
  { d with tables := d.tables.map fun t' => if t'.name = t.name then t else t' }

/-- What a constraint of a table is about is there. -/
def admits (t : Table N) (x : Constraint N) : Bool :=
  x.columns.all t.has &&
    match x.kind with
    | .references table column _ => if table = t.name then t.has column else d.hasColumn table column
    | _ => true

/-- Something outside the table's own constraints and indexes needs a column. -/
def needs (table column : N) : Bool :=
  (d.views.any fun v => (table, column) ∈ v.reads) ||
    (d.tables.any fun t => t.constraints.any fun x => x.isReferenceTo table fun c => c = column) ||
    d.triggers.any fun tr => tr.table = table && column ∈ tr.columns

end Catalog

/-- A statement about something that is there already, or that is missing: with the `IF` clause it
does nothing, and otherwise it fails. -/
def skip (tolerant : Bool) (d : Catalog N) : Option (Catalog N) := if tolerant then some d else none

def Action.exec (t : Table N) (d : Catalog N) : Action N → Option (Catalog N)
  | .addColumn ifNotExists column constraints =>
    if t.has column.name then skip ifNotExists d
    else
      let t' := { t with columns := t.columns ++ [column], constraints := t.constraints ++ constraints }
      if d.hasType column.type && constraints.all (d.admits t') then some (d.put t') else none
  | .dropColumn ifExists name =>
    if !t.has name then skip ifExists d
    else if d.needs t.name name then none
    else
      let d := d.put { t with
        columns := t.columns.filter fun c => c.name ≠ name
        constraints := t.constraints.filter fun x => name ∉ x.columns }
      some { d with indexes := d.indexes.filter fun i => !(i.table = t.name && name ∈ i.columns) }
  | .renameColumn name newName =>
    if !t.has name || t.has newName then none
    else
      let t' := t.modify name fun c => { c with name := newName }
      let d := d.put { t' with constraints := t.constraints.map fun x => x.rename name newName }
      some { d with indexes := d.indexes.map fun i =>
        if i.table = t.name then { i with columns := i.columns.map fun c => if c = name then newName else c } else i }
  | .setType name type =>
    if t.has name && d.hasType type && !d.views.any fun v => (t.name, name) ∈ v.reads then
      some (d.put (t.modify name fun c => { c with type }))
    else none
  | .setDefault name default =>
    if t.has name then some (d.put (t.modify name fun c => { c with default := some default })) else none
  | .setNotNull name =>
    if t.has name then some (d.put (t.modify name fun c => { c with notNull := true })) else none
  | .dropNotNull name =>
    if t.has name && !t.constraints.any fun x => x.kind = .primaryKey && name ∈ x.columns then
      some (d.put (t.modify name fun c => { c with notNull := false }))
    else none
  | .addConstraint x =>
    if (x.name.isSome && t.constraints.any fun y => y.name = x.name) ||
        (x.kind = .primaryKey && t.constraints.any fun y => y.kind = .primaryKey) || !d.admits t x then none
    else some (d.put { t with constraints := t.constraints ++ [x] })
  | .dropConstraint ifExists name =>
    if t.constraints.any fun x => x.name = some name then
      some (d.put { t with constraints := t.constraints.filter fun x => x.name ≠ some name })
    else skip ifExists d

/-- The actions of one statement, each on the table as the ones before have left it. -/
def alter (name : N) : List (Action N) → Catalog N → Option (Catalog N)
  | [], d => some d
  | a :: actions, d =>
    match d.table name with
    | none => none
    | some t => (a.exec t d).bind (alter name actions)

def Command.exec (d : Catalog N) : Command N → Option (Catalog N)
  | .createType ifNotExists type =>
    if d.types.any fun t => t.name = type.name then skip ifNotExists d
    else some { d with types := d.types ++ [type] }
  | .dropType ifExists name =>
    if !d.types.any fun t => t.name = name then skip ifExists d
    else if d.tables.any fun t => t.columns.any fun c => c.type = .custom name then none
    else some { d with types := d.types.filter fun t => t.name ≠ name }
  | .createTable ifNotExists t =>
    if d.relation t.name then skip ifNotExists d
    else if t.columns.all (fun c => d.hasType c.type) && t.constraints.all (d.admits t) then
      some { d with tables := d.tables ++ [t] }
    else none
  | .dropTable ifExists name =>
    if (d.table name).isNone then skip ifExists d
    else if (d.views.any fun v => v.reads.any fun x => x.1 = name) ||
        d.tables.any (fun t => t.name ≠ name && t.constraints.any fun x => x.isReferenceTo name fun _ => true) then none
    else
      some { d with
        tables := d.tables.filter fun t => t.name ≠ name
        indexes := d.indexes.filter fun i => i.table ≠ name
        triggers := d.triggers.filter fun tr => tr.table ≠ name }
  | .alterTable name actions => if (d.table name).isNone then none else alter name actions d
  | .createIndex ifNotExists index =>
    if d.relation index.name then skip ifNotExists d
    else if (d.table index.table).any fun t => index.columns.all t.has then
      some { d with indexes := d.indexes ++ [index] }
    else none
  | .dropIndex ifExists name =>
    if d.indexes.any fun i => i.name = name then
      some { d with indexes := d.indexes.filter fun i => i.name ≠ name }
    else skip ifExists d
  | .createView orReplace view =>
    if !view.reads.all (fun x => d.hasColumn x.1 x.2) then none
    else
      match d.views.find? fun v => v.name = view.name with
      | some old =>
        if orReplace && old.columns.isPrefixOf view.columns then
          some { d with views := d.views.map fun v => if v.name = view.name then view else v }
        else none
      | none => if d.relation view.name then none else some { d with views := d.views ++ [view] }
  | .dropView ifExists name =>
    if d.views.any fun v => v.name = name then some { d with views := d.views.filter fun v => v.name ≠ name }
    else skip ifExists d
  | .createFunction function =>
    some { d with functions := (d.functions.filter fun f => f.name ≠ function.name) ++ [function] }
  | .dropFunction ifExists name =>
    if !d.functions.any fun f => f.name = name then skip ifExists d
    else if d.triggers.any fun tr => tr.function = name then none
    else some { d with functions := d.functions.filter fun f => f.name ≠ name }
  | .createTrigger trigger =>
    if (d.triggers.any fun tr => tr.name = trigger.name && tr.table = trigger.table) ||
        !(d.table trigger.table).any (fun t => trigger.columns.all t.has) ||
        !d.functions.any (fun f => f.name = trigger.function) then none
    else some { d with triggers := d.triggers ++ [trigger] }
  | .dropTrigger ifExists name table =>
    if d.triggers.any fun tr => tr.name = name && tr.table = table then
      some { d with triggers := d.triggers.filter fun tr => !(tr.name = name && tr.table = table) }
    else skip ifExists d
  | .update names => if names.all fun x => d.hasColumn x.1 x.2 then some d else none

def Condition.holds (d : Catalog N) : Condition N → Bool
  | .hasColumn table column => d.hasColumn table column
  | .lacksColumn table column => !d.hasColumn table column
  | .customColumn table column =>
    (d.table table).any fun t => (t.column column).any fun c =>
      match c.type with
      | .custom _ => true
      | .builtin _ => false
  | .lacksConstraint name => !d.tables.any fun t => t.constraints.any fun x => x.name = some name

/-- The commands of a block, each if its conditions hold when it is reached. -/
def runBlock : List (List (Condition N) × Command N) → Catalog N → Option (Catalog N)
  | [], d => some d
  | (conditions, c) :: rest, d =>
    if conditions.all fun x => x.holds d then (c.exec d).bind (runBlock rest) else runBlock rest d

def Stmt.exec : Stmt N → Catalog N → Option (Catalog N)
  | .command c, d => c.exec d
  | .block guarded, d => runBlock guarded d

end Ddl
