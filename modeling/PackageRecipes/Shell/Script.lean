import PackageRecipes.Text

/-! Shell scripts: lists of pipelines of simple commands. -/
namespace PackageRecipes.Shell

open Text

/-- A piece of a word. White space from a quoted piece does not divide the word. -/
inductive Part where
  | text (content : List Char) (quoted : Bool)
  | parameter (name : String) (quoted : Bool)
  deriving DecidableEq

abbrev Word := List Part

inductive RedirectKind where
  | write | append | read | duplicate
  deriving DecidableEq

inductive Token where
  | word (w : Word)
  | redirect (descriptor : Option Nat) (kind : RedirectKind)
  | pipe | both | either | semicolon | background
  | newline
  /-- A character that starts a construct outside of this language. -/
  | other (c : Char)
  deriving DecidableEq

def Token.name : Token → String
  | .word _ => "word"
  | .redirect _ _ => "redirection"
  | .pipe => "\"|\""
  | .both => "\"&&\""
  | .either => "\"||\""
  | .semicolon => "\";\""
  | .background => "\"&\""
  | .newline => "newline"
  | .other c => s!"\"{c}\""

/-! ## Tokens -/

/-- What the scanner is in the middle of; `quoted` tells whether within double quotes. -/
inductive Mode where
  | plain | single | double | comment
  | escape (quoted : Bool)
  | dollar (quoted : Bool)
  | name (letters : List Char) (quoted : Bool)
  | braced (letters : List Char) (quoted : Bool)
  | operator (c : Char) (descriptor : Option Nat)

/-- Tokens so far and the word that is being read; `none` outside of words. -/
structure Scan where
  tokens : List Token
  word : Option Word
  mode : Mode

namespace Scan

def start : Scan := ⟨[], none, .plain⟩

def push (s : Scan) (t : Token) : Scan := { s with tokens := s.tokens ++ [t] }

def addPart (s : Scan) (p : Part) : Scan := { s with word := some (s.word.getD [] ++ [p]) }

/-- Adds a character to the word, to its last piece if that is of the same kind. -/
def addChar (s : Scan) (c : Char) (quoted : Bool) : Scan :=
  match (s.word.getD []).reverse with
  | .text content q :: before =>
    if q = quoted then { s with word := some (before.reverse ++ [.text (content ++ [c]) q]) }
    else s.addPart (.text [c] quoted)
  | _ => s.addPart (.text [c] quoted)

def endWord (s : Scan) : Scan :=
  match s.word with
  | some w => { s with tokens := s.tokens ++ [.word w], word := none }
  | none => s

def inMode (s : Scan) (m : Mode) : Scan := { s with mode := m }

/-- Within double quotes or outside of quotes. -/
def base (quoted : Bool) : Mode := if quoted then .double else .plain

/-- A number directly in front of a redirection says which descriptor it is about. -/
def beginRedirect (s : Scan) (c : Char) : Scan :=
  match s.word with
  | some [.text [d] false] =>
    if d.isDigit then { s with word := none, mode := .operator c (some (d.toNat - 48)) }
    else s.endWord.inMode (.operator c none)
  | _ => s.endWord.inMode (.operator c none)

def isNameStart (c : Char) : Bool := c.isAlpha || c = '_'

def isNameChar (c : Char) : Bool := c.isAlphanum || c = '_'

/-- A character outside of quotes. -/
def plainStep (s : Scan) (c : Char) : Scan :=
  let s := s.inMode .plain
  match c with
  | ' ' | '\t' => s.endWord
  | '\n' => s.endWord.push .newline
  | ';' => s.endWord.push .semicolon
  | '&' | '|' => s.endWord.inMode (.operator c none)
  | '<' | '>' => s.beginRedirect c
  | '(' | ')' => s.endWord.push (.other c)
  | '\x27' => (s.addPart (.text [] true)).inMode .single
  | '"' => (s.addPart (.text [] true)).inMode .double
  | '\\' => s.inMode (.escape false)
  | '$' => s.inMode (.dollar false)
  | '#' => if s.word.isNone then s.inMode .comment else s.addChar c false
  | _ => s.addChar c false

def doubleStep (s : Scan) (c : Char) : Scan :=
  let s := s.inMode .double
  match c with
  | '"' => s.inMode .plain
  | '\\' => s.inMode (.escape true)
  | '$' => s.inMode (.dollar true)
  | _ => s.addChar c true

def baseStep (s : Scan) (quoted : Bool) (c : Char) : Scan :=
  if quoted then s.doubleStep c else s.plainStep c

/-- The token of an operator of one character. -/
def single (c : Char) (descriptor : Option Nat) : Token :=
  match c with
  | '|' => .pipe
  | '>' => .redirect descriptor .write
  | '<' => .redirect descriptor .read
  | _ => .background

/-- The token of an operator of two characters. -/
def double? (c d : Char) (descriptor : Option Nat) : Option Token :=
  match c, d with
  | '&', '&' => some .both
  | '|', '|' => some .either
  | '>', '>' => some (.redirect descriptor .append)
  | '>', '|' => some (.redirect descriptor .write)
  | '>', '&' | '<', '&' => some (.redirect descriptor .duplicate)
  | _, _ => none

def escapeStep (s : Scan) (quoted : Bool) (c : Char) : Scan :=
  let s := s.inMode (base quoted)
  if c = '\n' then s
  else if !quoted || ['$', '"', '\\', '\x60'].contains c then s.addChar c true
  else (s.addChar '\\' true).addChar c true

def dollarStep (s : Scan) (quoted : Bool) (c : Char) : Scan :=
  if c = '\x7b' then s.inMode (.braced [] quoted)
  else if isNameStart c then s.inMode (.name [c] quoted)
  else if c.isDigit || ['?', '#', '@', '*', '$', '!', '-'].contains c then
    (s.addPart (.parameter (String.singleton c) quoted)).inMode (base quoted)
  else (s.addChar '$' quoted).baseStep quoted c

def step (s : Scan) (c : Char) : Scan :=
  match s.mode with
  | .plain => s.plainStep c
  | .single => if c = '\x27' then s.inMode .plain else s.addChar c true
  | .double => s.doubleStep c
  | .comment => if c = '\n' then s.plainStep c else s
  | .escape quoted => s.escapeStep quoted c
  | .dollar quoted => s.dollarStep quoted c
  | .name letters quoted =>
    if isNameChar c then s.inMode (.name (letters ++ [c]) quoted)
    else (s.addPart (.parameter (String.ofList letters) quoted)).baseStep quoted c
  | .braced letters quoted =>
    if c = '\x7d' then
      (s.addPart (.parameter (String.ofList letters) quoted)).inMode (base quoted)
    else s.inMode (.braced (letters ++ [c]) quoted)
  | .operator o descriptor =>
    match double? o c descriptor with
    | some t => (s.push t).inMode .plain
    | none => (s.push (single o descriptor)).plainStep c

end Scan

/-- Why a text is no script. -/
inductive SyntaxFault where
  | unterminated
  | missingBrace
  | unexpected (token : String)

def SyntaxFault.message : SyntaxFault → String
  | .unterminated => "Syntax error: Unterminated quoted string"
  | .missingBrace => "Syntax error: Missing '\x7d'"
  | .unexpected token => s!"Syntax error: {token} unexpected"

def Scan.finish (s : Scan) : Except SyntaxFault (List Token) :=
  match s.mode with
  | .single | .double => .error .unterminated
  | .escape true | .dollar true | .name _ true => .error .unterminated
  | .braced _ _ => .error .missingBrace
  | .plain | .comment => .ok s.endWord.tokens
  | .escape false => .ok ((s.addChar '\\' true).endWord).tokens
  | .dollar false => .ok ((s.addChar '$' false).endWord).tokens
  | .name letters false =>
    .ok ((s.addPart (.parameter (String.ofList letters) false)).endWord).tokens
  | .operator c descriptor => .ok (s.push (Scan.single c descriptor)).tokens

def tokens (text : String) : Except SyntaxFault (List Token) :=
  (text.toList.foldl Scan.step Scan.start).finish

/-! ## Commands -/

structure Redirect where
  descriptor : Option Nat
  kind : RedirectKind
  target : Word

structure Simple where
  words : List Word
  redirects : List Redirect

def Simple.none : Simple := ⟨[], []⟩

def Simple.isNone (c : Simple) : Bool := c.words.isEmpty && c.redirects.isEmpty

/-- When a pipeline runs, given how the one before it ended. -/
inductive Connector where
  | always | onSuccess | onFailure
  deriving DecidableEq

structure Item where
  connector : Connector
  negated : Bool
  commands : List Simple

abbrev Script := List Item

/-- A pipeline, after the exclamation mark that may stand in front of it. -/
def itemOf (connector : Connector) (commands : List Simple) : Item :=
  match commands with
  | ⟨[.text ['!'] false] :: words, redirects⟩ :: rest =>
    ⟨connector, true, ⟨words, redirects⟩ :: rest⟩
  | _ => ⟨connector, false, commands⟩

/-- Reads tokens: `command` and `before` are what there is of the present pipeline. -/
def parseTokens (connector : Connector) (before : List Simple) (command : Simple) :
    List Token → Except SyntaxFault Script
  | [] =>
    if !command.isNone then .ok [itemOf connector (before ++ [command])]
    else if before.isEmpty && connector = .always then .ok []
    else .error (.unexpected "end of file")
  | .word w :: rest =>
    parseTokens connector before { command with words := command.words ++ [w] } rest
  | .redirect d kind :: .word w :: rest =>
    parseTokens connector before
      { command with redirects := command.redirects ++ [⟨d, kind, w⟩] } rest
  | .redirect _ _ :: [] => .error (.unexpected "end of file")
  | .redirect _ _ :: t :: _ => .error (.unexpected t.name)
  | .pipe :: rest =>
    if command.isNone then .error (.unexpected Token.pipe.name)
    else parseTokens connector (before ++ [command]) .none rest
  | .both :: rest => finishItem connector before command Token.both .onSuccess rest
  | .either :: rest => finishItem connector before command Token.either .onFailure rest
  | .semicolon :: rest => finishItem connector before command Token.semicolon .always rest
  | .background :: rest => finishItem connector before command Token.background .always rest
  | .newline :: rest =>
    if command.isNone then parseTokens connector before command rest
    else
      (parseTokens .always [] .none rest).map (itemOf connector (before ++ [command]) :: ·)
  | .other c :: _ => .error (.unexpected (Token.other c).name)
where
  /-- Ends a pipeline, which cannot be empty. -/
  finishItem (connector : Connector) (before : List Simple) (command : Simple) (t : Token)
      (next : Connector) (rest : List Token) : Except SyntaxFault Script :=
    if command.isNone then .error (.unexpected t.name)
    else (parseTokens next [] .none rest).map (itemOf connector (before ++ [command]) :: ·)

def Script.parse (text : String) : Except SyntaxFault Script :=
  match tokens text with
  | .error e => .error e
  | .ok ts => parseTokens .always [] .none ts

end PackageRecipes.Shell
