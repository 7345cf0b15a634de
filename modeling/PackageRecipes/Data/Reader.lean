import PackageRecipes.Data.Basic

/-! Reading typed values from structured data. -/
namespace PackageRecipes.Data

abbrev Reader (α : Type) := Data → Option α

def readString : Reader String
  | .string s => some s
  | _ => none

def readBool : Reader Bool
  | .bool b => some b
  | _ => none

def readList {α : Type} (read : Reader α) : Reader (List α)
  | .array items => items.mapM read
  | _ => none

/-- A word out of a fixed choice. -/
def readWord {α : Type} (choice : List (String × α)) : Reader α
  | .string s => (choice.find? (·.1 == s)).map Prod.snd
  | _ => none

/-- The named parts of a record. -/
abbrev Record := List (String × Data)

/-- A record is a table, or an array of the values in the order of their names. A date counts as a
table in which no part is given. -/
def readRecord (names : List String) : Reader Record
  | .table fields => some fields
  | .array items => some (names.zip items)
  | .date _ => some []
  | _ => none

/-- A part that has to be there. -/
def required {α : Type} (r : Record) (name : String) (read : Reader α) : Option α :=
  (field? name r).bind read

/-- A part that may be missing or null. -/
def optional {α : Type} (r : Record) (name : String) (read : Reader α) : Option (Option α) :=
  match field? name r with
  | none | some .null => some none
  | some d => (read d).map some

/-- A part with a value of its own when it is missing. -/
def withDefault {α : Type} (r : Record) (name : String) (default : α) (read : Reader α) : Option α :=
  match field? name r with
  | none => some default
  | some d => read d

end PackageRecipes.Data
