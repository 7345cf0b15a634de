import PackageRecipes.Regex.Basic

/-! Reading regular expressions. Every step uses up part of the text, so the length of the text
bounds the number of steps. -/
namespace PackageRecipes.Regex

open Text

/-- What `(?…)` switches on and off. -/
structure Flags where
  ignoreCase : Bool
  multiLine : Bool
  dotAll : Bool
  swapGreed : Bool
  unicode : Bool
  carriage : Bool
  verbose : Bool

def Flags.standard : Flags := ⟨false, false, false, false, true, false, false⟩

/-- The letters that stand for flags. -/
def Flags.set? (f : Flags) (on : Bool) : Char → Option Flags
  | 'i' => some { f with ignoreCase := on }
  | 'm' => some { f with multiLine := on }
  | 's' => some { f with dotAll := on }
  | 'U' => some { f with swapGreed := on }
  | 'u' => some { f with unicode := on }
  | 'R' => some { f with carriage := on }
  | 'x' => some { f with verbose := on }
  | _ => none

/-- Blanks and comments, which do not count in verbose patterns. -/
def skipFree : List Char → List Char
  | [] => []
  | c :: cs =>
    if isBlank c then skipFree cs
    else if c = '#' then skipComment cs
    else c :: cs
where
  skipComment : List Char → List Char
    | [] => []
    | c :: cs => if c = '\n' then skipFree cs else skipComment cs

def Flags.skip (f : Flags) (cs : List Char) : List Char := if f.verbose then skipFree cs else cs

/-! ## Escapes -/

/-- What one escape, or one plain character, stands for. -/
inductive Primitive where
  | char (c : Char)
  /-- Written with two hex digits, and so a byte in a pattern without Unicode. -/
  | byte (c : Char)
  | set (s : CharSet)
  | dot
  | look (l : Look)

def isMeta (c : Char) : Bool := "\\.+*?()|[]\x7b\x7d^$#&-~".toList.contains c

/-- A character of ASCII that may be escaped although it means itself. -/
def isEscapeable (c : Char) : Bool :=
  isMeta c || (c.toNat < 0x80 && !isAlphanumeric c && c ≠ '<' && c ≠ '>')

def charOf? (n : Nat) : Option Char := if h : n.isValidChar then some (Char.ofNatAux n h) else none

/-- So many hex digits. -/
def hexDigits (f : Flags) : (count : Nat) → (seen : List Char) → List Char →
    Option (List Char × List Char)
  | 0, seen, cs => some (seen.reverse, f.skip cs)
  | count + 1, seen, cs =>
    match (if seen.isEmpty then cs else f.skip cs) with
    | c :: rest => if isHexDigit c then hexDigits f count (c :: seen) rest else none
    | [] => none

/-- Hex digits up to the closing brace. -/
def hexBraced (f : Flags) (seen : List Char) : (fuel : Nat) → List Char →
    Option (List Char × List Char)
  | 0, _ => none
  | fuel + 1, cs =>
    match f.skip cs with
    | [] => none
    | c :: rest =>
      if c = '\x7d' then (if seen.isEmpty then none else some (seen.reverse, f.skip rest))
      else if isHexDigit c then hexBraced f (c :: seen) fuel rest
      else none

/-- A character by its number, after the letter of the escape. -/
def hexEscape (f : Flags) (kind : Char) (cs : List Char) : Option (Primitive × List Char) := do
  match f.skip cs with
  | '\x7b' :: rest =>
    let (digits, after) ← hexBraced f [] (rest.length + 1) rest
    return (.char (← charOf? (valueInBase 16 digits)), after)
  | rest =>
    let count := if kind = 'x' then 2 else if kind = 'u' then 4 else 8
    let (digits, after) ← hexDigits f count [] rest
    let c ← charOf? (valueInBase 16 digits)
    return (if kind = 'x' then .byte c else .char c, after)

/-- The text between braces of a property, without blanks in a verbose pattern. -/
def propertyText (f : Flags) (seen : List Char) : (fuel : Nat) → List Char →
    Option (List Char × List Char)
  | 0, _ => none
  | fuel + 1, cs =>
    match f.skip cs with
    | [] => none
    | c :: rest => if c = '\x7d' then some (seen.reverse, rest) else propertyText f (c :: seen) fuel rest

/-- The parts before and after the first `!=`. -/
def cutUnequal : List Char → Option (List Char × List Char)
  | '!' :: '=' :: rest => some ([], rest)
  | c :: rest => (cutUnequal rest).map fun (a, b) => (c :: a, b)
  | [] => none

/-- A property in braces: a name, or a name with a value that it has or has not. -/
def propertySet? (text : List Char) : Option CharSet :=
  match cutUnequal text with
  | some (name, value) => (CharSet.ofNameValue? name value).map .complement
  | none =>
    match cutAt ':' text with
    | some (name, value) => CharSet.ofNameValue? name value
    | none =>
      match cutAt '=' text with
      | some (name, value) => CharSet.ofNameValue? name value
      | none => CharSet.ofName? text

def foldedIf (f : Flags) (s : CharSet) : CharSet := if f.ignoreCase then .folded s else s

/-- A property after `\p` or `\P`. -/
def propertyEscape (f : Flags) (negated : Bool) (cs : List Char) :
    Option (Primitive × List Char) := do
  guard f.unicode
  let finish (s : CharSet) : Primitive :=
    .set (if negated then .complement (foldedIf f s) else foldedIf f s)
  match f.skip cs with
  | '\x7b' :: rest =>
    let (text, after) ← propertyText f [] (rest.length + 1) rest
    return (finish (← propertySet? text), after)
  | '\\' :: _ => none
  | c :: rest => return (finish (← CharSet.ofLetter? c), f.skip rest)
  | [] => none

/-- Digits, white space and word characters, of ASCII only in a pattern without Unicode. -/
def perlSet (f : Flags) (kind : Char) : CharSet :=
  let named (name : String) : CharSet := (CharSet.named? name).getD .empty
  let space : CharSet := if f.unicode then .blank else .ofRanges [('\t', '\r'), (' ', ' ')]
  let digit : CharSet := if f.unicode then .digit else named "digit"
  let wordChar : CharSet := if f.unicode then .word else named "word"
  match kind with
  | 'd' => digit
  | 'D' => .complement digit
  | 's' => space
  | 'S' => .complement space
  | 'w' => wordChar
  | _ => .complement wordChar

/-- The edges of words that have a name in braces. -/
def namedBoundary? (ascii : Bool) : String → Option Look
  | "start" => some (.wordStart ascii)
  | "end" => some (.wordEnd ascii)
  | "start-half" => some (.wordStartHalf ascii)
  | "end-half" => some (.wordEndHalf ascii)
  | _ => none

def isBoundaryChar (c : Char) : Bool := c.isAlpha || c = '-'

/-- Letters of a boundary's name, up to another character. -/
def boundaryName (f : Flags) (seen : List Char) : (fuel : Nat) → List Char → List Char × List Char
  | 0, cs => (seen.reverse, cs)
  | fuel + 1, cs =>
    match f.skip cs with
    | c :: rest => if isBoundaryChar c then boundaryName f (c :: seen) fuel rest
        else (seen.reverse, c :: rest)
    | [] => (seen.reverse, [])

/-- A word boundary; what follows in braces is a repetition unless it starts like a name. -/
def boundaryEscape (f : Flags) (cs : List Char) : Option (Primitive × List Char) :=
  let ascii := !f.unicode
  match cs with
  | '\x7b' :: rest =>
    match f.skip rest with
    | [] => none
    | c :: _ =>
      if isBoundaryChar c then
        match boundaryName f [] (rest.length + 1) rest with
        | (name, '\x7d' :: after) =>
          (namedBoundary? ascii (String.ofList name)).map fun l => (.look l, after)
        | _ => none
      else some (.look (.wordBoundary ascii), cs)
  | _ => some (.look (.wordBoundary ascii), cs)

/-- An escape, after its backslash. -/
def escape (f : Flags) : List Char → Option (Primitive × List Char)
  | [] => none
  | c :: cs =>
    let ascii := !f.unicode
    if c.isDigit then none
    else if c = 'x' || c = 'u' || c = 'U' then hexEscape f c cs
    else if c = 'p' || c = 'P' then propertyEscape f (c = 'P') cs
    else if ['d', 's', 'w', 'D', 'S', 'W'].contains c then some (.set (perlSet f c), cs)
    else if isEscapeable c then some (.char c, cs)
    else match c with
      | 'a' => some (.char '\x07', cs)
      | 'f' => some (.char '\x0c', cs)
      | 't' => some (.char '\t', cs)
      | 'n' => some (.char '\n', cs)
      | 'r' => some (.char '\r', cs)
      | 'v' => some (.char '\x0b', cs)
      | 'A' => some (.look .textStart, cs)
      | 'z' => some (.look .textEnd, cs)
      | 'b' => boundaryEscape f cs
      | 'B' => some (.look (.notWordBoundary ascii), cs)
      | '<' => some (.look (.wordStart ascii), cs)
      | '>' => some (.look (.wordEnd ascii), cs)
      | _ => none

/-! ## Classes -/

/-- What one item of a class adds; without Unicode a class holds ASCII only. -/
def Primitive.inClass? (f : Flags) : Primitive → Option CharSet
  | .char c => if f.unicode || c.toNat < 0x80 then some (.char c) else none
  | .byte c => some (.char c)
  | .set s => some s
  | .dot | .look _ => none

def Primitive.literal? (f : Flags) : Primitive → Option Char
  | .char c => if f.unicode || c.toNat < 0x80 then some c else none
  | .byte c => some c
  | .set _ | .dot | .look _ => none

def classItem (f : Flags) : List Char → Option (Primitive × List Char)
  | [] => none
  | '\\' :: cs => escape f cs
  | c :: cs => some (.char c, cs)

/-- A single item or a range of two. -/
def classRange (f : Flags) (cs : List Char) : Option (CharSet × List Char) := do
  let (first, rest) ← classItem f cs
  match f.skip rest with
  | [] => none
  | '-' :: after =>
    match f.skip after with
    | [] => none
    | c :: _ =>
      if c = ']' || c = '-' then return (← first.inClass? f, '-' :: after)
      else
        let (last, rest) ← classItem f (f.skip after)
        let a ← first.literal? f
        let b ← last.literal? f
        if a ≤ b then return (.range a b, rest) else none
  | rest => return (← first.inClass? f, rest)

/-- A class of ASCII characters by name, after its opening bracket. -/
def namedClass? (f : Flags) : List Char → Option (CharSet × List Char)
  | ':' :: cs =>
    let (negated, cs) := match cs with
      | '^' :: rest => (true, rest)
      | _ => (false, cs)
    match cs.dropWhile (· ≠ ':') with
    | ':' :: ']' :: after =>
      (CharSet.named? (String.ofList (cs.takeWhile (· ≠ ':')))).map fun s =>
        let s := foldedIf f s
        (if negated then .complement s else s, after)
    | _ => none
  | _ => none

/-- How the sets on both sides of an operator make one. -/
inductive SetOp where
  | inter | diff | symmetric

def SetOp.apply (f : Flags) (op : SetOp) (a b : CharSet) : CharSet :=
  match op with
  | .inter => .inter (foldedIf f a) (foldedIf f b)
  | .diff => .diff (foldedIf f a) (foldedIf f b)
  | .symmetric => .symmetric (foldedIf f a) (foldedIf f b)

/-- What a class holds so far: the operators' left side, and the items since the last operator. -/
structure ClassParts where
  left : Option (CharSet × SetOp)
  items : List CharSet

def ClassParts.total (f : Flags) (p : ClassParts) : CharSet :=
  match p.left with
  | none => .union p.items.reverse
  | some (a, op) => op.apply f a (.union p.items.reverse)

def ClassParts.operate (f : Flags) (p : ClassParts) (op : SetOp) : ClassParts :=
  ⟨some (p.total f, op), []⟩

def ClassParts.add (p : ClassParts) (s : CharSet) : ClassParts := { p with items := s :: p.items }

/-- Hyphens right after the opening, and then a closing bracket that means itself. -/
def classOpening (f : Flags) (items : List CharSet) : (fuel : Nat) → List Char →
    Option (List CharSet × List Char)
  | 0, _ => none
  | fuel + 1, cs =>
    match f.skip cs with
    | [] => none
    | '-' :: rest => classOpening f (.char '-' :: items) fuel rest
    | ']' :: rest => if items.isEmpty then some ([.char ']'], rest) else some (items, ']' :: rest)
    | rest => some (items, rest)

/-- A class, after its opening bracket. -/
def classBody (f : Flags) (fuel : Nat) (cs : List Char) : Option (CharSet × List Char) :=
  match fuel with
  | 0 => none
  | fuel + 1 => do
    let (negated, cs) := match f.skip cs with
      | '^' :: rest => (true, rest)
      | rest => (false, rest)
    let (items, rest) ← classOpening f [] (cs.length + 1) cs
    let (s, rest) ← classItems f fuel ⟨none, items⟩ rest
    return (if negated then .complement (foldedIf f s) else foldedIf f s, rest)
where
  classItems (f : Flags) (fuel : Nat) (parts : ClassParts) (cs : List Char) :
      Option (CharSet × List Char) :=
    match fuel with
    | 0 => none
    | fuel + 1 =>
      match f.skip cs with
      | [] => none
      | ']' :: rest => some (parts.total f, rest)
      | '[' :: rest =>
        match namedClass? f rest with
        | some (s, after) => classItems f fuel (parts.add s) after
        | none => do
          let (s, after) ← classBody f fuel rest
          classItems f fuel (parts.add s) after
      | '&' :: '&' :: rest => classItems f fuel (parts.operate f .inter) rest
      | '-' :: '-' :: rest => classItems f fuel (parts.operate f .diff) rest
      | '~' :: '~' :: rest => classItems f fuel (parts.operate f .symmetric) rest
      | rest => do
        let (s, after) ← classRange f rest
        classItems f fuel (parts.add s) after

/-- Without Unicode a set must not match half a character. -/
def admissible (f : Flags) (s : CharSet) : Bool :=
  f.unicode || !((List.range 128).any fun i => s.contains (Char.ofNat (128 + i)))

/-! ## Repetitions -/

/-- A number, with blanks allowed around it. -/
def decimal (f : Flags) (cs : List Char) : Option Nat × List Char :=
  let (digits, rest) := digitsOf [] (cs.length + 1) (cs.dropWhile isBlank)
  (if digits.isEmpty then none else some (valueInBase 10 digits), trimStart rest)
where
  digitsOf (seen : List Char) : (fuel : Nat) → List Char → List Char × List Char
    | 0, cs => (seen.reverse, cs)
    | fuel + 1, cs =>
      match cs with
      | c :: rest => if c.isDigit then digitsOf (c :: seen) fuel (f.skip rest)
          else (seen.reverse, cs)
      | [] => (seen.reverse, [])

/-- The bounds of a repetition, after the opening brace; a number must fit in 32 bits. -/
def counts (f : Flags) (cs : List Char) : Option ((Nat × Option Nat) × List Char) := do
  let fits (n : Option Nat) : Option Nat := n.filter (· < 4294967296)
  let (low, rest) := decimal f (f.skip cs)
  match rest with
  | '\x7d' :: after => let n ← fits low; return ((n, some n), after)
  | ',' :: rest =>
    let n ← fits low
    match f.skip rest with
    | '\x7d' :: after => return ((n, none), after)
    | rest =>
      let (high, rest) := decimal f rest
      let m ← fits high
      match rest with
      | '\x7d' :: after => if n ≤ m then return ((n, some m), after) else none
      | _ => none
  | _ => none

/-! ## Whole patterns -/

/-- The largest machine that is accepted. -/
def costLimit : Nat := 327000

/-- The flags between `(?` and `:` or `)`, with that last character. -/
def flagItems (f : Flags) (on : Bool) (seen : List Char) : List Char →
    Option (Flags × Bool × Char × List Char)
  | [] => none
  | c :: rest =>
    if c = ':' || c = ')' then
      if seen.head? = some '-' then none else some (f, seen.isEmpty, c, rest)
    else if seen.contains c then none
    else if c = '-' then flagItems f false ('-' :: seen) rest
    else match f.set? on c with
      | some f' => flagItems f' on (c :: seen) rest
      | none => none

def isNameStart (c : Char) : Bool :=
  c = '_' || c.isAlpha || (0x80 ≤ c.toNat && isWordChar c && !CharSet.digit.contains c)

def isNameRest (c : Char) : Bool :=
  isNameStart c || c = '.' || c = '[' || c = ']' || c.isDigit || (0x80 ≤ c.toNat && isWordChar c)

/-- What an opening parenthesis starts. -/
inductive Opening where
  | directive (flags : Flags)
  | group (flags : Flags) (name : Option String)

def groupName (cs : List Char) : Option (String × List Char) :=
  match cs.takeWhile (· ≠ '>'), cs.dropWhile (· ≠ '>') with
  | c :: name, _ :: rest =>
    if isNameStart c && name.all isNameRest then some (String.ofList (c :: name), rest) else none
  | _, _ => none

/-- What follows an opening parenthesis; a look at the text around is not supported. -/
def opening (f : Flags) (cs : List Char) : Option (Opening × List Char) :=
  match f.skip cs with
  | '?' :: '=' :: _ | '?' :: '!' :: _ => none
  | '?' :: '<' :: '=' :: _ | '?' :: '<' :: '!' :: _ => none
  | '?' :: 'P' :: '<' :: rest => (groupName rest).map fun (n, after) => (.group f (some n), after)
  | '?' :: '<' :: rest => (groupName rest).map fun (n, after) => (.group f (some n), after)
  | '?' :: rest =>
    match flagItems f true [] rest with
    | some (f', nothing, ')', after) => if nothing then none else some (.directive f', after)
    | some (f', _, _, after) => some (.group f' none, after)
    | none => none
  | rest => some (.group f none, rest)

/-- The expression for a single character, in both cases if case does not count. -/
def charRegex (f : Flags) (c : Char) : Regex :=
  if f.ignoreCase && (f.unicode || c.toNat < 0x80) then
    if f.unicode then .set (.folded (.char c))
    else .set (.inter (.folded (.char c)) (.range '\x00' '\x7f'))
  else .set (.char c)

def Primitive.regex? (f : Flags) : Primitive → Option Regex
  | .char c => some (charRegex f c)
  | .byte c => if f.unicode || c.toNat < 0x80 then some (charRegex f c) else none
  | .set s => if admissible f s then some (.set s) else none
  | .dot =>
    if !f.unicode then none
    else if f.dotAll then some (.set .all)
    else if f.carriage then some (.set (.complement (.ofRanges [('\n', '\n'), ('\r', '\r')])))
    else some (.set (.complement (.char '\n')))
  | .look l => some (.look l)

def primitive (f : Flags) : List Char → Option (Primitive × List Char)
  | [] => none
  | '\\' :: cs => escape f cs
  | '.' :: cs => some (.dot, cs)
  | '^' :: cs => some (.look (if f.multiLine then .lineStart f.carriage else .textStart), cs)
  | '$' :: cs => some (.look (if f.multiLine then .lineEnd f.carriage else .textEnd), cs)
  | c :: cs => some (.char c, cs)

/-- What has been read of a group: finished alternatives, and the pieces of the last one, both in
reverse. A directive is a piece that cannot be repeated. -/
structure GroupParts where
  alternatives : List Regex
  pieces : List (Option Regex)

def GroupParts.closeAlternative (g : GroupParts) : GroupParts :=
  ⟨concat (g.pieces.reverse.filterMap id) :: g.alternatives, []⟩

def GroupParts.regex (g : GroupParts) : Regex := oneOf g.closeAlternative.alternatives.reverse

def GroupParts.add (g : GroupParts) (r : Option Regex) : GroupParts :=
  { g with pieces := r :: g.pieces }

/-- Repeats the last piece; a question mark after the operator turns its preference round. -/
def GroupParts.repeatLast (g : GroupParts) (f : Flags) (low : Nat) (high : Option Nat)
    (after : List Char) : Option (GroupParts × List Char) :=
  match g.pieces with
  | some r :: rest =>
    let (lazy, after) := match after with
      | '?' :: after => (true, after)
      | _ => (false, after)
    if costLimit < r.cost * (high.getD low).max 1 then none
    else some ({ g with pieces := some (times low high (lazy == f.swapGreed) r) :: rest }, after)
  | _ => none

/-- A group up to its closing parenthesis or the end, with the names of the groups so far. -/
def groupBody (fuel : Nat) (f : Flags) (names : List String) (g : GroupParts) (cs : List Char) :
    Option (Regex × List String × List Char) :=
  match fuel with
  | 0 => none
  | fuel + 1 =>
    match f.skip cs with
    | [] => some (g.regex, names, [])
    | ')' :: rest => some (g.regex, names, ')' :: rest)
    | '|' :: rest => groupBody fuel f names g.closeAlternative rest
    | '(' :: rest =>
      match opening f rest with
      | none => none
      | some (.directive f', after) => groupBody fuel f' names (g.add none) after
      | some (.group f' name, after) =>
        if name.any names.contains then none
        else
          match groupBody fuel f' (name.toList ++ names) ⟨[], []⟩ after with
          | some (r, names', ')' :: after') => groupBody fuel f names' (g.add (some r)) after'
          | _ => none
    | '[' :: rest =>
      match classBody f (rest.length + 2) rest with
      | some (s, after) =>
        if admissible f s then groupBody fuel f names (g.add (some (.set s))) after else none
      | none => none
    | '?' :: rest => next fuel f names (g.repeatLast f 0 (some 1) rest)
    | '*' :: rest => next fuel f names (g.repeatLast f 0 none rest)
    | '+' :: rest => next fuel f names (g.repeatLast f 1 none rest)
    | '\x7b' :: rest =>
      match counts f rest with
      | some ((low, high), after) => next fuel f names (g.repeatLast f low high (f.skip after))
      | none => none
    | rest =>
      match primitive f rest with
      | none => none
      | some (p, after) =>
        match p.regex? f with
        | some r => groupBody fuel f names (g.add (some r)) after
        | none => none
where
  next (fuel : Nat) (f : Flags) (names : List String) :
      Option (GroupParts × List Char) → Option (Regex × List String × List Char)
    | some (g, after) => groupBody fuel f names g after
    | none => none

/-- Reads a pattern; `none` means that it is malformed, or larger than is accepted. -/
def parse? (pattern : String) : Option Regex :=
  let cs := pattern.toList
  match groupBody (cs.length + 1) .standard [] ⟨[], []⟩ cs with
  | some (r, _, []) => if costLimit < r.cost then none else some r
  | _ => none

end PackageRecipes.Regex
