import Designate.Sqlalchemy.ReverseNames

/-!
# The filters of a list request

`_apply_filter_params` makes a criterion of the query parameters of a list request, with a
percent sign for every star, and hands it to storage, which looks for names with a star in front
back to front (`_rname_check`) and makes a condition of every entry (`_apply_criterion`). By then
nothing tells a text a user has written from one the service has put an operator in front of.

A text column is compared character by character, as a binary collation does; but to `LIKE` in
sqlite a letter of either case is the same whatever the collation.
-/

namespace Designate

namespace ListFilters

open Glob ReverseNames

/-- `_apply_filter_params`. -/
def applyFilterParams (params : List (String × String)) (acceptedFilters : List String)
    (criterion : Criterion) : Except Exc Criterion :=
  let invalid := (params.map Prod.fst).filter fun k => k ∉ acceptedFilters
  if invalid ≠ [] then .error (.BadRequest ("Invalid filters " ++ ", ".intercalate invalid))
  else .ok (params.foldl (fun criterion entry =>
    criterion.set entry.1 (.text (Text.replace entry.2 '*' '%'))) criterion)

/-- The rows a list request selects. -/
def listRows (db : Database) (columns acceptedFilters : List String)
    (params : List (String × String)) (rows : List Row) : Except Exc (List Row) := do
  let criterion ← applyFilterParams params acceptedFilters []
  let criterion ← rnameCheck criterion
  applyCriterion db columns (fun row => row) rows criterion

/-! ## What a filter says -/

/-- A star for any sequence of characters, every other character for itself. -/
def filterParts (value : String) : List (Glob.Part Char) :=
  value.toList.map fun c => if c = '*' then .gap else .letter c

/-- The column matches the filter. -/
def matchesFilter (value : String) : Cell → Bool
  | .text text => accepts (filterParts value) text.toList
  | _ => false

/-- A row with a name has it reversed in `reverse_name`, and the column holds a text, if anything. -/
structure Fair (column : String) (row : Row) : Prop where
  inStep : ∀ s, row "name" = .text s → row "reverse_name" = .text (Text.reverse s)
  text : ∀ n, row column ≠ .number n

/--
Nothing in the value is taken for anything but itself: next to a star no wildcard of `LIKE`,
nothing the database takes for an escape and no letter it takes for the other case, without a
star no percent sign and no operator in front.
-/
def TakenAsItIs (dialect : Text.Dialect) (value : String) : Prop :=
  if '*' ∈ value.toList then
    '%' ∉ value.toList ∧ '_' ∉ value.toList ∧ (dialect = .mysql → '\\' ∉ value.toList.dropLast) ∧
      (dialect = .sqlite → ∀ c ∈ value.toList, c.isAlpha = false)
  else plain value = true

instance (dialect : Text.Dialect) (value : String) : Decidable (TakenAsItIs dialect value) :=
  inferInstanceAs (Decidable (if '*' ∈ value.toList then
    '%' ∉ value.toList ∧ '_' ∉ value.toList ∧ (dialect = .mysql → '\\' ∉ value.toList.dropLast) ∧
      (dialect = .sqlite → ∀ c ∈ value.toList, c.isAlpha = false)
  else plain value = true))

end ListFilters

end Designate
