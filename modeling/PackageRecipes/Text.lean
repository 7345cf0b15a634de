/-! Characters and text as the small languages of a recipe read them. -/
namespace PackageRecipes.Text

/-- The characters with the Unicode property `White_Space`. -/
def isBlank (c : Char) : Bool :=
  let n := c.toNat
  (9 ≤ n && n ≤ 13) || n == 0x20 || n == 0x85 || n == 0xA0 || n == 0x1680 ||
    (0x2000 ≤ n && n ≤ 0x200A) || n == 0x2028 || n == 0x2029 || n == 0x202F || n == 0x205F ||
    n == 0x3000

/-- The ASCII letters and digits. -/
def isAlphanumeric (c : Char) : Bool := c.isAlpha || c.isDigit

/-- The digits of base sixteen, in either case. -/
def isHexDigit (c : Char) : Bool :=
  c.isDigit || ('a' ≤ c && c ≤ 'f') || ('A' ≤ c && c ≤ 'F')

/-- The value of a digit of base sixteen; zero for any other character. -/
def hexValue (c : Char) : Nat :=
  if c.isDigit then c.toNat - '0'.toNat
  else if 'a' ≤ c && c ≤ 'f' then c.toNat - 'a'.toNat + 10
  else if 'A' ≤ c && c ≤ 'F' then c.toNat - 'A'.toNat + 10
  else 0

/-- The value of a run of digits in the given base. -/
def valueInBase (base : Nat) (digits : List Char) : Nat :=
  digits.foldl (fun n c => base * n + hexValue c) 0

/-- The first number that takes more than 64 bits. -/
def wordBound : Nat := 18446744073709551616

def trimStart (cs : List Char) : List Char := cs.dropWhile isBlank

def trimEnd (cs : List Char) : List Char := (cs.reverse.dropWhile isBlank).reverse

def trim (cs : List Char) : List Char := trimEnd (trimStart cs)

/-- The parts before and after the first occurrence of `sep`. -/
def cutAt (sep : Char) : List Char → Option (List Char × List Char)
  | [] => none
  | c :: cs =>
    if c = sep then some ([], cs) else (cutAt sep cs).map fun (before, after) => (c :: before, after)

/-- The pieces between the separators, empty ones included; there is always at least one. -/
def pieces (isSep : Char → Bool) : List Char → List (List Char)
  | [] => [[]]
  | c :: cs =>
    if isSep c then [] :: pieces isSep cs
    else match pieces isSep cs with
      | [] => [[c]]
      | p :: ps => (c :: p) :: ps

/-- Removes `start` from the front of the text if it is there. -/
def dropPrefix? : (start text : List Char) → Option (List Char)
  | [], cs => some cs
  | _ :: _, [] => none
  | a :: as, c :: cs => if a = c then dropPrefix? as cs else none

/-- Bytes of the text in UTF-8. -/
def byteLength : List Char → Nat
  | [] => 0
  | c :: cs => c.utf8Size + byteLength cs

/-! ## The same on strings -/

def trimmed (s : String) : String := String.ofList (trim s.toList)

/-- The text split at each separator. -/
def split (sep : Char) (s : String) : List String :=
  (pieces (· = sep) s.toList).map String.ofList

def cut? (sep : Char) (s : String) : Option (String × String) :=
  (cutAt sep s.toList).map fun (a, b) => (String.ofList a, String.ofList b)

/-- The text after a fixed beginning. -/
def after? (start s : String) : Option String :=
  (dropPrefix? start.toList s.toList).map String.ofList

end PackageRecipes.Text
