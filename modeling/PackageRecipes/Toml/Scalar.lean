import PackageRecipes.Data.Basic

/-! Strings, numbers and dates of TOML. -/
namespace PackageRecipes.Toml

open Text

/-- The characters of a comment or a string: all but the control characters other than the tab. -/
def isPlain (c : Char) : Bool := c = '\t' || (0x20 ≤ c.toNat && c.toNat ≠ 0x7F)

def isSpace (c : Char) : Bool := c = ' ' || c = '\t'

def isBareKeyChar (c : Char) : Bool := isAlphanumeric c || c = '_' || c = '-'

def apostrophe : Char := '\x27'

/-- A line break, and what follows it. -/
def newline? : List Char → Option (List Char)
  | '\n' :: rest => some rest
  | '\r' :: '\n' :: rest => some rest
  | _ => none

/-! ## Strings -/

def simpleEscape? : Char → Option Char
  | 'b' => some '\x08'
  | 't' => some '\t'
  | 'n' => some '\n'
  | 'f' => some '\x0c'
  | 'r' => some '\r'
  | '"' => some '"'
  | '\\' => some '\\'
  | _ => none

/-- The character with a number in hex digits. -/
def charOfHex? (digits : List Char) : Option Char :=
  let n := valueInBase 16 digits
  if digits.all isHexDigit then
    if h : n.isValidChar then some (Char.ofNatAux n h) else none
  else none

/-- An escape, after its backslash. -/
def escape? : List Char → Option (Char × List Char)
  | 'u' :: a :: b :: c :: d :: rest => (charOfHex? [a, b, c, d]).map (·, rest)
  | 'U' :: a :: b :: c :: d :: e :: f :: g :: h :: rest =>
    (charOfHex? [a, b, c, d, e, f, g, h]).map (·, rest)
  | c :: rest => (simpleEscape? c).map (·, rest)
  | [] => none

theorem escape?_length {cs : List Char} {r : Char × List Char} (h : escape? cs = some r) :
    r.2.length < cs.length := by
  unfold escape? at h
  split at h
  · obtain ⟨v, -, rfl⟩ := Option.map_eq_some_iff.1 h; simp only [List.length_cons]; omega
  · obtain ⟨v, -, rfl⟩ := Option.map_eq_some_iff.1 h; simp only [List.length_cons]; omega
  · obtain ⟨v, -, rfl⟩ := Option.map_eq_some_iff.1 h; simp
  · simp at h

/-- The rest of a string in double quotes. -/
def basicString (seen : List Char) (cs : List Char) : Option (String × List Char) :=
  match cs with
  | [] => none
  | '"' :: rest => some (String.ofList seen.reverse, rest)
  | '\\' :: rest =>
    match _h : escape? rest with
    | some (c, after) => basicString (c :: seen) after
    | none => none
  | c :: rest => if isPlain c then basicString (c :: seen) rest else none
termination_by cs.length
decreasing_by
  · have := escape?_length _h; simp only [List.length_cons] at this ⊢; omega
  · simp

/-- The rest of a string in single quotes. -/
def literalString (seen : List Char) : List Char → Option (String × List Char)
  | [] => none
  | c :: rest =>
    if c = apostrophe then some (String.ofList seen.reverse, rest)
    else if isPlain c then literalString (c :: seen) rest
    else none

/-- Blanks and line breaks. -/
def skipBreaks : List Char → List Char
  | '\n' :: rest => skipBreaks rest
  | '\r' :: '\n' :: rest => skipBreaks rest
  | c :: rest => if isSpace c then skipBreaks rest else c :: rest
  | [] => []

/-- A backslash at the end of a line takes away the break and the blanks that follow. -/
def continued? (cs : List Char) : Option (List Char) :=
  (newline? (cs.dropWhile isSpace)).map skipBreaks

/-- How many of the delimiter's characters stand in a row. -/
def runLength (quote : Char) (cs : List Char) : Nat := (cs.takeWhile (· = quote)).length

/-- The rest of a string in three double quotes; of up to five quotes the last three close it. -/
def multilineBasic (seen : List Char) : (fuel : Nat) → List Char → Option (String × List Char)
  | 0, _ => none
  | fuel + 1, cs =>
    match cs with
    | [] => none
    | '"' :: rest =>
      let n := runLength '"' cs
      if n < 3 then multilineBasic ('"' :: seen) fuel rest
      else
        let extra := min (n - 3) 2
        some (String.ofList (List.replicate extra '"' ++ seen).reverse, cs.drop (extra + 3))
    | '\\' :: rest =>
      match continued? rest with
      | some after => multilineBasic seen fuel after
      | none =>
        match escape? rest with
        | some (c, after) => multilineBasic (c :: seen) fuel after
        | none => none
    | c :: rest =>
      match newline? cs with
      | some after => multilineBasic ('\n' :: seen) fuel after
      | none => if isPlain c then multilineBasic (c :: seen) fuel rest else none

/-- The rest of a string in three single quotes. -/
def multilineLiteral (seen : List Char) : (fuel : Nat) → List Char → Option (String × List Char)
  | 0, _ => none
  | fuel + 1, cs =>
    match cs with
    | [] => none
    | c :: rest =>
      if c = apostrophe then
        let n := runLength apostrophe cs
        if n < 3 then multilineLiteral (c :: seen) fuel rest
        else
          let extra := min (n - 3) 2
          some (String.ofList (List.replicate extra apostrophe ++ seen).reverse, cs.drop (extra + 3))
      else
        match newline? cs with
        | some after => multilineLiteral ('\n' :: seen) fuel after
        | none => if isPlain c then multilineLiteral (c :: seen) fuel rest else none

/-- A line break right after the opening quotes does not count. -/
def dropFirstBreak (cs : List Char) : List Char := (newline? cs).getD cs

/-- A string of any of the four kinds, at its opening quote. -/
def string? : List Char → Option (String × List Char)
  | '"' :: '"' :: '"' :: rest =>
    multilineBasic [] (rest.length + 1) (dropFirstBreak rest)
  | '"' :: rest => basicString [] rest
  | c :: rest =>
    if c ≠ apostrophe then none
    else match rest with
      | a :: b :: after =>
        if a = apostrophe && b = apostrophe then
          multilineLiteral [] (after.length + 1) (dropFirstBreak after)
        else literalString [] rest
      | _ => literalString [] rest
  | [] => none

/-! ## Numbers -/

/-- Digits with single underscores between them; the digits alone are given back. -/
def digits? (isDigit : Char → Bool) : List Char → Option (List Char)
  | [] => none
  | [c] => if isDigit c then some [c] else none
  | c :: '_' :: rest => if isDigit c then (digits? isDigit rest).map (c :: ·) else none
  | c :: rest => if isDigit c then (digits? isDigit rest).map (c :: ·) else none

/-- A decimal number without a zero in front. -/
def decimal? (cs : List Char) : Option (List Char) :=
  match cs with
  | '0' :: _ :: _ => none
  | _ => digits? Char.isDigit cs

def splitSign : List Char → Bool × List Char
  | '+' :: rest => (false, rest)
  | '-' :: rest => (true, rest)
  | rest => (false, rest)

def integerWithin (n : Int) : Option Data :=
  if -9223372036854775808 ≤ n && n ≤ 9223372036854775807 then some (.integer n) else none

/-- An integer of 64 bits. -/
def integer? : List Char → Option Data
  | '0' :: 'x' :: rest =>
    (digits? isHexDigit rest).bind fun ds => integerWithin (Int.ofNat (valueInBase 16 ds))
  | '0' :: 'o' :: rest =>
    (digits? (fun c => '0' ≤ c && c ≤ '7') rest).bind fun ds =>
      integerWithin (Int.ofNat (valueInBase 8 ds))
  | '0' :: 'b' :: rest =>
    (digits? (fun c => c = '0' || c = '1') rest).bind fun ds =>
      integerWithin (Int.ofNat (valueInBase 2 ds))
  | cs =>
    let (negative, body) := splitSign cs
    (decimal? body).bind fun ds =>
      let n := Int.ofNat (valueInBase 10 ds)
      integerWithin (if negative then -n else n)

def isExponentMark (c : Char) : Bool := c = 'e' || c = 'E'

def isExponent (cs : List Char) : Bool := (digits? Char.isDigit (splitSign cs).2).isSome

/-- A fraction, with an exponent or without. -/
def isFraction (cs : List Char) : Bool :=
  (digits? Char.isDigit (cs.takeWhile (!isExponentMark ·))).isSome &&
    match cs.dropWhile (!isExponentMark ·) with
    | [] => true
    | _ :: rest => isExponent rest

/-- A number with a fraction or an exponent, or one of the words for what is no number. -/
def isFloatForm (cs : List Char) : Bool :=
  let body := (splitSign cs).2
  if body = "inf".toList || body = "nan".toList then true
  else
    let whole := body.takeWhile fun c => !(c = '.' || isExponentMark c)
    (decimal? whole).isSome &&
      match body.dropWhile fun c => !(c = '.' || isExponentMark c) with
      | '.' :: rest => isFraction rest
      | _ :: rest => isExponent rest
      | [] => false

/-- The least number that is nearer to the first power of two beyond all doubles than to the
greatest double. -/
def doubleBound : Nat := (2 * Nat.pow 2 53 - 1) * Nat.pow 2 970

/-- Whether `digits` times ten to the power `exponent` is too large for a double. Far from the bound
the number of digits decides. -/
def isBeyondDouble (digits : List Char) (exponent : Int) : Bool :=
  let digits := digits.dropWhile (· = '0')
  let magnitude := Int.ofNat digits.length + exponent
  if digits.isEmpty || magnitude < 309 then false
  else if magnitude > 309 then true
  else
    valueInBase 10 digits * Nat.pow 10 exponent.toNat ≥ doubleBound * Nat.pow 10 (-exponent).toNat

/-- A number without sign that is too large for a double. -/
def isTooLarge (cs : List Char) : Bool :=
  let cs := cs.filter (· ≠ '_')
  let mantissa := cs.takeWhile (!isExponentMark ·)
  let (negative, exponent) := splitSign ((cs.dropWhile (!isExponentMark ·)).drop 1)
  let fraction := (mantissa.dropWhile (· ≠ '.')).filter Char.isDigit
  let n := Int.ofNat (valueInBase 10 exponent)
  isBeyondDouble (mantissa.filter Char.isDigit)
    ((if negative then -n else n) - Int.ofNat fraction.length)

/-- A float is a double; one too far below zero counts as minus infinity. -/
def isFloat (cs : List Char) : Bool :=
  let (negative, body) := splitSign cs
  isFloatForm cs && (negative || !isTooLarge body)

/-! ## Dates and times -/

def number? (count : Nat) (cs : List Char) : Option (Nat × List Char) :=
  let ds := cs.take count
  if ds.length = count && ds.all Char.isDigit then some (valueInBase 10 ds, cs.drop count) else none

def isLeap (year : Nat) : Bool := (year % 4 = 0 && year % 100 ≠ 0) || year % 400 = 0

def daysIn (year month : Nat) : Nat :=
  if month = 2 then (if isLeap year then 29 else 28)
  else if month = 4 || month = 6 || month = 9 || month = 11 then 30
  else 31

def dropChar? (c : Char) : List Char → Option (List Char)
  | d :: rest => if c = d then some rest else none
  | [] => none

/-- A day of the calendar. -/
def day? (cs : List Char) : Option (List Char) := do
  let (year, cs) ← number? 4 cs
  let (month, cs) ← number? 2 (← dropChar? '-' cs)
  let (day, cs) ← number? 2 (← dropChar? '-' cs)
  guard (1 ≤ month && month ≤ 12 && 1 ≤ day && day ≤ daysIn year month)
  return cs

/-- A time of the day, to the second or finer. -/
def time? (cs : List Char) : Option (List Char) := do
  let (hour, cs) ← number? 2 cs
  let (minute, cs) ← number? 2 (← dropChar? ':' cs)
  let (second, cs) ← number? 2 (← dropChar? ':' cs)
  guard (hour ≤ 23 && minute ≤ 59 && second ≤ 60)
  match cs with
  | '.' :: rest =>
    if rest.head?.any Char.isDigit then return rest.dropWhile Char.isDigit else none
  | _ => return cs

/-- The distance from universal time, if it is given. -/
def offset? (cs : List Char) : Option (List Char) :=
  match cs with
  | c :: rest =>
    if c = 'Z' || c = 'z' then some rest
    else if c = '+' || c = '-' then do
      let (hour, cs) ← number? 2 rest
      let (minute, cs) ← number? 2 (← dropChar? ':' cs)
      guard (hour ≤ 23 && minute ≤ 59)
      return cs
    else some (c :: rest)
  | [] => some []

def isDateSeparator (c : Char) : Bool := c = 'T' || c = 't' || c = ' '

/-- A date, a time or both. -/
def isDate (cs : List Char) : Bool :=
  let whole : Option (List Char) :=
    match day? cs with
    | some [] => some []
    | some (c :: rest) => if isDateSeparator c then (time? rest).bind offset? else none
    | none => time? cs
  match whole with
  | some [] => true
  | _ => false

/-! ## Words: everything that is written without quotes or brackets -/

def endsWord (c : Char) : Bool :=
  c = ' ' || c = '\t' || c = '\n' || c = '\r' || c = ',' || c = ']' || c = '\x7d' || c = '#'

/-- A word, and what follows it; a space within a date and time belongs to the word. -/
def takeWord (cs : List Char) : List Char × List Char :=
  let word := cs.takeWhile (!endsWord ·)
  let rest := cs.dropWhile (!endsWord ·)
  match rest with
  | ' ' :: c :: after =>
    if c.isDigit && day? word = some [] then
      (word ++ ' ' :: (c :: after).takeWhile (!endsWord ·), (c :: after).dropWhile (!endsWord ·))
    else (word, rest)
  | _ => (word, rest)

def wordData? (word : List Char) : Option Data :=
  if word = "true".toList then some (.bool true)
  else if word = "false".toList then some (.bool false)
  else if isDate word then some (.date (String.ofList word))
  else if isFloat word then some (.float (String.ofList word))
  else integer? word

end PackageRecipes.Toml
