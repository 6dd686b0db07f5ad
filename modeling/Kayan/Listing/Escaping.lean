import Kayan.Listing.Service
import Kayan.Products.Requested

/-!
# The escaping of search texts

`escapeLike` is written twice, for the catalog and for the other services, each time as a replacement by a
regular expression. Between two `%` each of them finds what contains the search text, and nothing else.
-/
namespace Kayan.Listing
open Like Products

section Replacement

/-- `GetSubstitution` for a template without groups, at a match of one character. -/
def substitution (before : List Char) (matched : Char) (after : List Char) : List Char → List Char
  | '$' :: '$' :: template => '$' :: substitution before matched after template
  | '$' :: '&' :: template => matched :: substitution before matched after template
  | '$' :: '\x60' :: template => before ++ substitution before matched after template
  | '$' :: '\x27' :: template => after ++ substitution before matched after template
  | c :: template => c :: substitution before matched after template
  | [] => []

/-- `String.prototype.replace` with a global expression for one character of a class; `before` is what has been
passed. -/
def replaceEach (oneOf template before : List Char) : List Char → List Char
  | [] => []
  | c :: rest =>
    if c ∈ oneOf then substitution before c rest template ++ replaceEach oneOf template (before ++ [c]) rest
    else c :: replaceEach oneOf template (before ++ [c]) rest

def replace (value : String) (oneOf : List Char) (template : String) : String :=
  String.ofList (replaceEach oneOf template.toList [] value.toList)

/-- `KayanService.escapeLike`. -/
def KayanService.escapeLike (value : String) : String := replace value ['\\', '%', '_'] "\\$&"

/-- `escapeLike` of `db.helpers`. -/
def DbHelpers.escapeLike (str : String) : String := replace str ['%', '_', '\\'] "\\$&"

/-- A template that puts the escape character before each special character. -/
theorem replaceEach_escape {oneOf before text : List Char} (h : ∀ c, c ∈ oneOf ↔ special c = true) :
    replaceEach oneOf "\\$&".toList before text = escape text := by
  induction text generalizing before with
  | nil => rfl
  | cons c text ih =>
    have hsubst : substitution before c text "\\$&".toList = ['\\', c] := rfl
    rw [replaceEach, escape, List.flatMap_cons, hsubst, ih, ← escape]
    simp only [h]
    split <;> rfl

theorem KayanService.escapeLike_eq (value : String) :
    KayanService.escapeLike value = String.ofList (escape value.toList) :=
  congrArg String.ofList (replaceEach_escape fun c => by simp [special_iff, or_left_comm, or_comm])

theorem DbHelpers.escapeLike_eq (str : String) : DbHelpers.escapeLike str = String.ofList (escape str.toList) :=
  congrArg String.ofList (replaceEach_escape fun c => by simp [special_iff])

end Replacement

section Patterns
variable (f : Folding) (q t : String)

/-- The parameter of a text filter. -/
def containing (escaped : String) : String := "%" ++ escaped ++ "%"

theorem toList_containing (escaped : List Char) :
    (containing (String.ofList escaped)).toList = '%' :: (escaped ++ ['%']) := by
  simp [containing]

/-- The text filter of `listProducts` and `listGallery`. -/
theorem searchPattern_eq : searchPattern q = .text (containing (KayanService.escapeLike q)) := by
  rw [KayanService.escapeLike_eq, ← String.ofList_toList (s := containing _), toList_containing]
  rfl

/-- The text filters of `listUsers`, and of the city and the address of products. -/
theorem columnLike_eq :
    columnLike f q t = (ilike f.fold (containing (DbHelpers.escapeLike q)).toList t.toList = some true) := by
  rw [DbHelpers.escapeLike_eq, toList_containing]
  simp [columnLike]

/-- A search text is found literally by `LIKE`, and up to case by `ILIKE`, whichever `escapeLike` it went
through. -/
theorem escapeLike_literal : KayanService.escapeLike q = DbHelpers.escapeLike q ∧
    (∀ escaped ∈ [KayanService.escapeLike q, DbHelpers.escapeLike q],
      (Matches (containing escaped).toList t.toList ↔ q.toList <:+: t.toList) ∧
      (Matches ((containing escaped).toList.map f.fold) (t.toList.map f.fold) ↔
        q.toList.map f.fold <:+: t.toList.map f.fold)) := by
  have hsame : KayanService.escapeLike q = DbHelpers.escapeLike q :=
    (KayanService.escapeLike_eq q).trans (DbHelpers.escapeLike_eq q).symm
  refine ⟨hsame, fun escaped hescaped => ?_⟩
  have heq : escaped = String.ofList (escape q.toList) := by
    rw [← DbHelpers.escapeLike_eq]
    rcases List.mem_pair.mp hescaped with rfl | rfl
    · exact hsame
    · rfl
  rw [heq, toList_containing, map_contains]
  constructor
  · exact matches_contains q.toList t.toList
  · exact matches_contains (q.toList.map f.fold) (t.toList.map f.fold)

end Patterns

end Kayan.Listing
