import Mathlib.Data.List.Basic

/-!
# Statements

Two things that a `SELECT` put together from parts depends on: what an unqualified column name stands for
in a join, and that the parameters keep their numbers while more parts are added.
-/
namespace Statement

section Names

/-- A table of a `FROM` clause under its alias. -/
structure Source where
  name : String
  columns : List String

inductive NameError where
  | undefinedColumn
  | ambiguousColumn
  deriving DecidableEq

/-- The alias of the only table with a column of this name. -/
def resolve (sources : List Source) (name : String) : Except NameError String :=
  match sources.filter fun source => name ∈ source.columns with
  | [] => .error .undefinedColumn
  | [source] => .ok source.name
  | _ => .error .ambiguousColumn

/-- A name of an `ORDER BY`. -/
inductive Named (Out : Type) where
  | output (out : Out)
  | column (source : String)

/-- A name of an `ORDER BY` is first that of an output column. -/
def resolveOrder {Out : Type} (outputs : List (String × Out)) (sources : List Source) (name : String) :
    Except NameError (Named Out) :=
  match outputs.lookup name with
  | some out => .ok (.output out)
  | none => (resolve sources name).map .column

end Names

section Parameters
variable {Test Param : Type}

/-- A part of a statement, with the number of its parameter. -/
structure Clause (Test : Type) where
  test : Test
  param : Option Nat

/-- A statement under construction. The number of each parameter is one that has been pushed. -/
structure Builder (Test Param : Type) where
  params : List Param := []
  clauses : List (Clause Test) := []
  numbered : ∀ clause ∈ clauses, ∀ n ∈ clause.param, 0 < n ∧ n ≤ params.length := by simp

namespace Builder

/-- A part without a parameter. -/
def add (test : Test) (b : Builder Test Param) : Builder Test Param where
  params := b.params
  clauses := b.clauses ++ [⟨test, none⟩]
  numbered := by
    intro clause hclause n hn
    rcases List.mem_append.mp hclause with hold | hnew
    · exact b.numbered clause hold n hn
    · rw [List.mem_singleton.mp hnew] at hn
      cases hn

/-- A part with a new parameter. -/
def push (p : Param) (test : Test) (b : Builder Test Param) : Builder Test Param where
  params := b.params ++ [p]
  clauses := b.clauses ++ [⟨test, some (b.params.length + 1)⟩]
  numbered := by
    intro clause hclause n hn
    rw [List.length_append, List.length_singleton]
    rcases List.mem_append.mp hclause with hold | hnew
    · have := b.numbered clause hold n hn
      omega
    · rw [List.mem_singleton.mp hnew] at hn
      cases hn
      omega

/-- A part with a new parameter, if there is a value for it. -/
def pushIf (p : Option Param) (test : Test) (b : Builder Test Param) : Builder Test Param :=
  match p with
  | some p => b.push p test
  | none => b

/-- The parts with the values of their parameters. -/
def bound (b : Builder Test Param) : List (Test × Option Param) :=
  b.clauses.map fun clause => (clause.test, clause.param.bind fun n => b.params[n - 1]?)

variable (b : Builder Test Param) (p : Param) (test : Test)

theorem bound_add : (b.add test).bound = b.bound ++ [(test, none)] := by
  rw [bound, add, List.map_append]
  rfl

/-- A new parameter leaves the numbers of the others. -/
theorem bound_push : (b.push p test).bound = b.bound ++ [(test, some p)] := by
  rw [bound, push, List.map_append]
  congr 1
  · refine List.map_congr_left fun clause hclause => ?_
    cases h : clause.param with
    | none => rfl
    | some n =>
      have hn := b.numbered clause hclause n h
      simp only [Option.bind_some]
      rw [List.getElem?_append_left (by omega)]
  · simp

theorem bound_pushIf (p : Option Param) : (b.pushIf p test).bound = b.bound ++ (p.map fun p => (test, some p)).toList := by
  cases p with
  | none => simp [pushIf]
  | some p => exact b.bound_push p test

theorem params_pushIf (p : Option Param) : (b.pushIf p test).params = b.params ++ p.toList := by
  cases p with
  | none => exact (List.append_nil _).symm
  | some p => rfl

end Builder

end Parameters

end Statement
