import PackageRecipes.Text
import PackageRecipes.Unicode.Category
import PackageRecipes.Unicode.Script
import PackageRecipes.Unicode.CaseFolding

/-! Sets of characters as a pattern's classes describe them. -/
namespace PackageRecipes.Regex

open Text Unicode

inductive CharSet where
  | range (first last : Char)
  /-- A general category or a group of them. -/
  | category (group : String)
  | script (code : String)
  | blank
  | word
  | union (sets : List CharSet)
  | inter (a b : CharSet)
  | diff (a b : CharSet)
  | complement (a : CharSet)
  /-- With every other case of each character. -/
  | folded (a : CharSet)

/-- Letters, marks, decimal digits, connectors and the two joiners, with the circled and squared
letters. -/
def isWordChar (c : Char) : Bool :=
  if c.toNat < 0x80 then isAlphanumeric c || c = '_'
  else
    let n := c.toNat
    match (categoryOf c).toList with
    | 'L' :: _ | 'M' :: _ => true
    | ['N', 'd'] | ['N', 'l'] | ['P', 'c'] => true
    | _ =>
      n == 0x200C || n == 0x200D || (0x24B6 ≤ n && n ≤ 0x24E9) || (0x1F130 ≤ n && n ≤ 0x1F149)
        || (0x1F150 ≤ n && n ≤ 0x1F169) || (0x1F170 ≤ n && n ≤ 0x1F189)

namespace CharSet

mutual

def contains (c : Char) : CharSet → Bool
  | .range first last => first ≤ c && c ≤ last
  | .category group => inCategory group (categoryOf c)
  | .script code => scriptOf c = code
  | .blank => isBlank c
  | .word => isWordChar c
  | .union sets => containsAny c sets
  | .inter a b => contains c a && contains c b
  | .diff a b => contains c a && !contains c b
  | .complement a => !contains c a
  | .folded a => contains c a || containsCase (casesOf c) a

def containsAny (c : Char) : List CharSet → Bool
  | [] => false
  | s :: rest => contains c s || containsAny c rest

def containsCase : List Char → CharSet → Bool
  | [], _ => false
  | c :: rest, a => contains c a || containsCase rest a

end

def char (c : Char) : CharSet := .range c c

def ofRanges (rs : List (Char × Char)) : CharSet := .union (rs.map fun (a, b) => .range a b)

def empty : CharSet := .union []

def all : CharSet := .complement empty

def digit : CharSet := .category "Nd"

def symmetric (a b : CharSet) : CharSet := .union [.diff a b, .diff b a]

/-- The classes with a name between colons. -/
def named? : String → Option CharSet
  | "alnum" => some (ofRanges [('0', '9'), ('A', 'Z'), ('a', 'z')])
  | "alpha" => some (ofRanges [('A', 'Z'), ('a', 'z')])
  | "ascii" => some (ofRanges [('\x00', '\x7f')])
  | "blank" => some (ofRanges [('\t', '\t'), (' ', ' ')])
  | "cntrl" => some (ofRanges [('\x00', '\x1f'), ('\x7f', '\x7f')])
  | "digit" => some (ofRanges [('0', '9')])
  | "graph" => some (ofRanges [('!', '~')])
  | "lower" => some (ofRanges [('a', 'z')])
  | "print" => some (ofRanges [(' ', '~')])
  | "punct" => some (ofRanges [('!', '/'), (':', '@'), ('[', Char.ofNat 96), ('\x7b', '~')])
  | "space" => some (ofRanges [('\t', '\r'), (' ', ' ')])
  | "upper" => some (ofRanges [('A', 'Z')])
  | "word" => some (ofRanges [('0', '9'), ('A', 'Z'), ('_', '_'), ('a', 'z')])
  | "xdigit" => some (ofRanges [('0', '9'), ('A', 'F'), ('a', 'f')])
  | _ => none

/-! ## Properties by name -/

/-- Letter case, blanks, underscores, hyphens and a leading `is` do not count in names. -/
def looseName (cs : List Char) : String :=
  let plain := (cs.filter fun c => !(c = ' ' || c = '_' || c = '-' || 0x80 ≤ c.toNat)).map Char.toLower
  match plain with
  | 'i' :: 's' :: rest => if rest = ['c'] then "isc" else String.ofList rest
  | _ => String.ofList plain

def nameIn (name : String) (entry : String × List String) : Bool :=
  entry.1.toLower = name || entry.2.contains name

def category? : String → Option CharSet
  | "any" => some all
  | "ascii" => some (ofRanges [('\x00', '\x7f')])
  | "assigned" => some (.complement (.category "Cn"))
  | name => (categoryNames.find? (nameIn name)).map fun e => .category e.1

def script? (name : String) : Option CharSet :=
  (scriptNames.find? (nameIn name)).map fun e => .script e.1

/-- The circled and squared letters that are symbols. -/
def letterSymbols : CharSet :=
  ofRanges [(Char.ofNat 0x24B6, Char.ofNat 0x24E9), (Char.ofNat 0x1F130, Char.ofNat 0x1F149),
    (Char.ofNat 0x1F150, Char.ofNat 0x1F169), (Char.ofNat 0x1F170, Char.ofNat 0x1F189)]

/-- Properties that a character has or has not. -/
def property? : String → Option CharSet
  | "alphabetic" | "alpha" =>
    some (.union [.category "L", .category "Nl", .category "Mc", letterSymbols])
  | "uppercase" | "upper" =>
    some (.union [.category "Lu", .range (Char.ofNat 0x2160) (Char.ofNat 0x216F),
      .range (Char.ofNat 0x24B6) (Char.ofNat 0x24CF)])
  | "lowercase" | "lower" =>
    some (.union [.category "Ll", .range (Char.ofNat 0xAA) (Char.ofNat 0xAA),
      .range (Char.ofNat 0xBA) (Char.ofNat 0xBA), .range (Char.ofNat 0x2170) (Char.ofNat 0x217F),
      .range (Char.ofNat 0x24D0) (Char.ofNat 0x24E9)])
  | "whitespace" | "wspace" | "space" => some .blank
  | "asciihexdigit" | "ahex" => named? "xdigit"
  | "hexdigit" | "hex" =>
    some (ofRanges [('0', '9'), ('A', 'F'), ('a', 'f'), (Char.ofNat 0xFF10, Char.ofNat 0xFF19),
      (Char.ofNat 0xFF21, Char.ofNat 0xFF26), (Char.ofNat 0xFF41, Char.ofNat 0xFF46)])
  | "joincontrol" | "joinc" => some (.range (Char.ofNat 0x200C) (Char.ofNat 0x200D))
  | "xidcontinue" | "xidc" | "idcontinue" | "idc" => some .word
  | "xidstart" | "xids" | "idstart" | "ids" =>
    some (.union [.category "L", .category "Nl"])
  | _ => none

/-- A property without a value, a category or a script. -/
def ofName? (name : List Char) : Option CharSet :=
  let loose := looseName name
  (if loose ∈ ["cf", "sc", "lc"] then none else property? loose) <|> category? loose <|> script? loose

/-- A property with a value. -/
def ofNameValue? (name value : List Char) : Option CharSet :=
  match looseName name with
  | "gc" | "generalcategory" => category? (looseName value)
  | "sc" | "script" | "scx" | "scriptextensions" => script? (looseName value)
  | _ => none

/-- Single letters name categories too. -/
def ofLetter? (c : Char) : Option CharSet := ofName? [c]

end CharSet

end PackageRecipes.Regex
