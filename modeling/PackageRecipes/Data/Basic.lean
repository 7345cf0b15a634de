import PackageRecipes.Text

/-! Structured data as documents carry it: switches, numbers, text, lists and tables. -/
namespace PackageRecipes

inductive Data where
  | null
  | bool (b : Bool)
  | integer (n : Int)
  /-- A number with a fraction or an exponent, as it is written. -/
  | float (text : String)
  /-- A date, a time or both, as it is written. -/
  | date (text : String)
  | string (s : String)
  | array (items : List Data)
  | table (fields : List (String × Data))

namespace Data

instance : Inhabited Data := ⟨.null⟩

/-- The first field of a name. -/
def field? (name : String) : List (String × Data) → Option Data
  | [] => none
  | (k, d) :: rest => if k = name then some d else field? name rest

/-! ## Printing as JSON -/

def hexFour (n : Nat) : List Char :=
  let digits := Nat.toDigits 16 n
  List.replicate (4 - digits.length) '0' ++ digits

def quoteChar (c : Char) : List Char :=
  if c = '"' then ['\\', '"']
  else if c = '\\' then ['\\', '\\']
  else if c = '\n' then ['\\', 'n']
  else if c = '\r' then ['\\', 'r']
  else if c = '\t' then ['\\', 't']
  else if c = '\x08' then ['\\', 'b']
  else if c = '\x0c' then ['\\', 'f']
  else if c.toNat < 0x20 then '\\' :: 'u' :: hexFour c.toNat
  else [c]

/-- A text between quotes; quotes, backslashes and control characters are escaped. -/
def quote (s : String) : String := "\"" ++ String.ofList (s.toList.flatMap quoteChar) ++ "\""

def indentation (depth : Nat) : String := String.ofList (List.replicate (2 * depth) ' ')

mutual

/-- The value over several lines, each level indented by two more spaces. -/
def pretty (depth : Nat) : Data → String
  | .null => "null"
  | .bool true => "true"
  | .bool false => "false"
  | .integer n => n.repr
  | .float text => text
  | .date text => quote text
  | .string s => quote s
  | .array [] => "[]"
  | .array items =>
    "[\n" ++ ",\n".intercalate (prettyItems (depth + 1) items) ++ "\n" ++ indentation depth ++ "]"
  | .table [] => "\x7b\x7d"
  | .table fields =>
    "\x7b\n" ++ ",\n".intercalate (prettyFields (depth + 1) fields) ++ "\n" ++ indentation depth ++ "\x7d"

def prettyItems (depth : Nat) : List Data → List String
  | [] => []
  | d :: rest => (indentation depth ++ pretty depth d) :: prettyItems depth rest

def prettyFields (depth : Nat) : List (String × Data) → List String
  | [] => []
  | (k, d) :: rest =>
    (indentation depth ++ quote k ++ ": " ++ pretty depth d) :: prettyFields depth rest

end

def toJson (d : Data) : String := d.pretty 0

end Data

end PackageRecipes
