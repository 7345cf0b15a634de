import PackageRecipes.Text

/-! Texts with escapes and formats, as `echo` and `printf` write them. -/
namespace PackageRecipes.Shell

open Text

def isOctal (c : Char) : Bool := '0' ≤ c && c ≤ '7'

def bytesOf (cs : List Char) : List UInt8 := (String.ofList cs).toUTF8.toList

/-- The byte that a letter after a backslash stands for. -/
def escapedByte? : Char → Option UInt8
  | 'a' => some 7
  | 'b' => some 8
  | 't' => some 9
  | 'n' => some 10
  | 'v' => some 11
  | 'f' => some 12
  | 'r' => some 13
  | '\\' => some 92
  | _ => none

/-- The byte that up to three octal digits stand for. -/
def octalByte (digits : List Char) : UInt8 := (valueInBase 8 digits).toUInt8

/-- Up to `most` octal digits, and what follows them. -/
def takeOctal (most : Nat) (cs : List Char) : List Char × List Char :=
  let digits := (cs.take most).takeWhile isOctal
  (digits, cs.drop digits.length)

theorem takeOctal_length (most : Nat) (cs : List Char) :
    (takeOctal most cs).2.length ≤ cs.length := by
  simp [takeOctal]

/-- Bytes that are written, and whether writing goes on after them. -/
structure Written where
  bytes : List UInt8
  continues : Bool

def Written.after (first : List UInt8) (w : Written) : Written := { w with bytes := first ++ w.bytes }

/-- A text with its escapes replaced. Octal digits follow a zero, and `\c` ends all writing. -/
def unescape : List Char → Written
  | [] => ⟨[], true⟩
  | '\\' :: 'c' :: _ => ⟨[], false⟩
  | '\\' :: '0' :: rest =>
    (unescape (takeOctal 3 rest).2).after [octalByte (takeOctal 3 rest).1]
  | '\\' :: c :: rest =>
    match escapedByte? c with
    | some b => (unescape rest).after [b]
    | none => (unescape (c :: rest)).after [92]
  | c :: rest => (unescape rest).after (bytesOf [c])
termination_by cs => cs.length
decreasing_by
  · have := takeOctal_length 3 rest
    simp only [List.length_cons]
    omega
  all_goals simp only [List.length_cons]; omega

/-- The words with spaces between them and a line break behind; an option leaves that out. -/
def echo : List String → List UInt8
  | "-n" :: words => (unescape (" ".intercalate words).toList).bytes
  | words =>
    let w := unescape (" ".intercalate words).toList
    if w.continues then w.bytes ++ [10] else w.bytes

/-- The number at the front of a text. -/
def leadingNumber (s : String) : Int :=
  let digits (cs : List Char) : Int := valueInBase 10 (cs.takeWhile Char.isDigit)
  match trimStart s.toList with
  | '-' :: cs => - digits cs
  | '+' :: cs => digits cs
  | cs => digits cs

def inBase (base : Nat) (n : Int) : List UInt8 := bytesOf (Nat.toDigits base n.toNat)

/-- What a directive makes of its argument. -/
def directive (letter : Char) (arg : String) : Written :=
  match letter with
  | 'd' | 'i' => ⟨bytesOf (leadingNumber arg).repr.toList, true⟩
  | 'u' => ⟨inBase 10 (leadingNumber arg), true⟩
  | 'x' => ⟨inBase 16 (leadingNumber arg), true⟩
  | 'o' => ⟨inBase 8 (leadingNumber arg), true⟩
  | 'c' => ⟨bytesOf (arg.toList.take 1), true⟩
  | 'b' => unescape arg.toList
  | _ => ⟨bytesOf arg.toList, true⟩

/-- One pass over a format; gives back the arguments that it did not use. -/
def formatOnce : List Char → List String → Written × List String
  | [], args => (⟨[], true⟩, args)
  | '%' :: '%' :: rest, args =>
    let (w, left) := formatOnce rest args
    (w.after [37], left)
  | '%' :: letter :: rest, args =>
    let d := directive letter (args.headD "")
    if d.continues then
      let (w, left) := formatOnce rest args.tail
      (w.after d.bytes, left)
    else (d, [])
  | '\\' :: c :: rest, args =>
    if isOctal c then
      let (w, left) := formatOnce (takeOctal 3 (c :: rest)).2 args
      (w.after [octalByte (takeOctal 3 (c :: rest)).1], left)
    else
      match escapedByte? c with
      | some b =>
        let (w, left) := formatOnce rest args
        (w.after [b], left)
      | none =>
        let (w, left) := formatOnce (c :: rest) args
        (w.after [92], left)
  | c :: rest, args =>
    let (w, left) := formatOnce rest args
    (w.after (bytesOf [c]), left)
termination_by cs => cs.length
decreasing_by
  all_goals simp only [List.length_cons]
  case _ => omega
  case _ => omega
  case _ =>
    have := takeOctal_length 3 (c :: rest)
    simp only [List.length_cons] at this
    omega
  all_goals omega

/-- Uses a format again and again, as long as it uses up arguments. -/
def format (text : String) (args : List String) : List UInt8 :=
  let (w, left) := formatOnce text.toList args
  if left.isEmpty || left.length ≥ args.length || !w.continues then w.bytes
  else w.bytes ++ format text left
termination_by args.length
decreasing_by simp_all

end PackageRecipes.Shell
