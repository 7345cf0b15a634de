import PackageRecipes.Toml.Scalar
import PackageRecipes.Toml.Table

/-! Reading TOML documents. Every step uses up part of the text, so the length of the text bounds
the number of steps. -/
namespace PackageRecipes.Toml

open Text

def skipSpaces (cs : List Char) : List Char := cs.dropWhile isSpace

/-- Goes past a comment, up to the end of its line. -/
def skipComment? (cs : List Char) : Option (List Char) :=
  match cs with
  | '#' :: rest => some (rest.dropWhile isPlain)
  | _ => some cs

/-- The end of a line, after blanks and a comment. -/
def lineEnd? (cs : List Char) : Option (List Char) :=
  match skipComment? (skipSpaces cs) with
  | some [] => some []
  | some rest => newline? rest
  | none => none

/-- Blanks, comments and line breaks between the items of a list. -/
def skipBetween : (fuel : Nat) → List Char → List Char
  | 0, cs => cs
  | fuel + 1, cs =>
    match skipSpaces cs with
    | '#' :: rest =>
      match newline? (rest.dropWhile isPlain) with
      | some after => skipBetween fuel after
      | none => '#' :: rest
    | rest =>
      match newline? rest with
      | some after => skipBetween fuel after
      | none => rest

/-! ## Keys -/

/-- One part of a key. -/
def keyPart? (cs : List Char) : Option (String × List Char) :=
  match cs with
  | [] => none
  | '"' :: rest => basicString [] rest
  | c :: rest =>
    if c = apostrophe then literalString [] rest
    else
      let name := cs.takeWhile isBareKeyChar
      if name.isEmpty then none else some (String.ofList name, cs.dropWhile isBareKeyChar)

/-- The parts of a key between dots, with blanks around them. -/
def keyParts? : (fuel : Nat) → List Char → Option (List String × List Char)
  | 0, _ => none
  | fuel + 1, cs => do
    let (part, rest) ← keyPart? (skipSpaces cs)
    match skipSpaces rest with
    | '.' :: after =>
      let (parts, rest) ← keyParts? fuel after
      return (part :: parts, rest)
    | after => return ([part], after)

/-- Lists, tables and keys nest less deep than this. -/
def depthLimit : Nat := 80

def key? (cs : List Char) : Option (List String × List Char) :=
  (keyParts? (cs.length + 1) cs).filter fun r => r.1.length < depthLimit

/-- A key as the path to its table and its last part. -/
def splitKey? (parts : List String) : Option (List String × String) :=
  parts.getLast?.map fun k => (parts.dropLast, k)

/-! ## Values -/

mutual

/-- A value, at its first character. -/
def value? (fuel depth : Nat) (cs : List Char) : Option (Data × List Char) :=
  match fuel with
  | 0 => none
  | fuel + 1 =>
    match cs with
    | '[' :: rest =>
      match depth with
      | 0 => none
      | depth + 1 => (items? fuel depth [] (skipBetween (rest.length + 1) rest)).map fun (ds, after) =>
          (.array ds, after)
    | '\x7b' :: rest =>
      match depth with
      | 0 => none
      | depth + 1 =>
        match skipSpaces rest with
        | '\x7d' :: after => some (.table [], after)
        | _ => (pairs? fuel depth (.mk ⟨false, false⟩ []) rest).map fun (t, after) => (t.toData, after)
    | c :: _ =>
      if c = '"' || c = apostrophe then (string? cs).map fun (s, after) => (.string s, after)
      else
        let (word, after) := takeWord cs
        (wordData? word).map (·, after)
    | [] => none

/-- The items of a list up to its closing bracket; a comma may stand behind the last one. -/
def items? (fuel depth : Nat) (seen : List Data) (cs : List Char) :
    Option (List Data × List Char) :=
  match fuel with
  | 0 => none
  | fuel + 1 =>
    match cs with
    | ']' :: rest => some (seen.reverse, rest)
    | _ => do
      let (d, rest) ← value? fuel depth cs
      match skipBetween (rest.length + 1) rest with
      | ',' :: after => items? fuel depth (d :: seen) (skipBetween (after.length + 1) after)
      | ']' :: after => return ((d :: seen).reverse, after)
      | _ => none

/-- The entries of a table in braces. -/
def pairs? (fuel depth : Nat) (t : Table) (cs : List Char) : Option (Table × List Char) :=
  match fuel with
  | 0 => none
  | fuel + 1 => do
    let (parts, rest) ← key? cs
    let (path, k) ← splitKey? parts
    match rest with
    | '=' :: rest =>
      let (d, rest) ← value? fuel depth (skipSpaces rest)
      let t ← t.define path k d
      match skipSpaces rest with
      | ',' :: after => pairs? fuel depth t after
      | '\x7d' :: after => return (t, after)
      | _ => none
    | _ => none

end

/-! ## Documents -/

/-- A header in one pair of brackets or in two, after its first bracket. -/
def header? (doc : Document) (cs : List Char) : Option (Document × List Char) :=
  match cs with
  | '[' :: rest => do
    let (path, rest) ← key? rest
    match rest with
    | ']' :: ']' :: after => return (← doc.openListed path, after)
    | _ => none
  | _ => do
    let (path, rest) ← key? cs
    match rest with
    | ']' :: after => return (← doc.openTable path, after)
    | _ => none

/-- A key with its value. -/
def pair? (doc : Document) (cs : List Char) : Option (Document × List Char) := do
  let (parts, rest) ← key? cs
  let (path, k) ← splitKey? parts
  match rest with
  | '=' :: rest =>
    let (d, after) ← value? (rest.length + 1) (depthLimit - 1) (skipSpaces rest)
    return (← doc.define path k d, after)
  | _ => none

/-- The rest of a document, line by line. -/
def lines? (doc : Document) : (fuel : Nat) → List Char → Option Document
  | 0, _ => none
  | fuel + 1, cs =>
    match skipSpaces cs with
    | [] => some doc
    | '[' :: rest => do
      let (doc, after) ← header? doc rest
      lines? doc fuel (← lineEnd? after)
    | '#' :: rest => do lines? doc fuel (← lineEnd? ('#' :: rest))
    | rest =>
      match newline? rest with
      | some after => lines? doc fuel after
      | none => do
        let (doc, after) ← pair? doc rest
        lines? doc fuel (← lineEnd? after)

/-- Reads a document as one table; a byte order mark in front does not count. -/
def parse? (text : String) : Option Data := do
  let cs := match text.toList with
    | '\uFEFF' :: rest => rest
    | cs => cs
  let doc ← lines? .start (cs.length + 2) cs
  return (← doc.close).toData

end PackageRecipes.Toml
