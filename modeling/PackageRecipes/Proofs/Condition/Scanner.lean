import Mathlib.Data.List.TakeWhile
import PackageRecipes.Proofs.Condition.Reading

/-!
# Reading at byte positions

A condition is read by a scanner that goes through the bytes of its source. Its position moves by the sizes of the
characters, and every look at the source is a cut at a position, which has to lie between two characters. The steps
here say what the scanner does, and what they do in front of a text that the source ends with.
-/

namespace PackageRecipes

open Text Condition

/-- A source, and how many of its bytes have been read. -/
structure Scanner where
  source : String
  offset : Nat

/-- A step of the scanner, which may end in an error. It has no result at all when it cuts the source past its end or
within a character, or when a loop takes more turns than it is allowed. -/
abbrev Scan := StateT Scanner (ExceptT Condition.Error Option)

namespace Scan

variable {α β : Type}

/-! ## Cuts -/

/-- The position at a number of bytes, if it is one. -/
def position? (source : String) (offset : Nat) : Option source.Pos :=
  if h : String.Pos.Raw.IsValid source ⟨offset⟩ then some (source.pos ⟨offset⟩ h) else none

def textFrom? (source : String) (start : Nat) : Option String :=
  (position? source start).map fun p => (source.sliceFrom p).copy

def textBetween? (source : String) (start stop : Nat) : Option String := do
  let p ← position? source start
  let q ← position? source stop
  (source.slice? p q).map String.Slice.copy

/-- No result where there is none. -/
def need (result : Option α) : Scan α := StateT.lift (ExceptT.lift result)

/-! ## Characters -/

/-- What the source still holds. -/
def ahead : Scan String := do
  let scanner ← get
  need (textFrom? scanner.source scanner.offset)

def peek : Scan (Option Char) := do
  let text ← ahead
  return text.toList.head?

/-- The next character that is not white space. -/
def peekSignificant : Scan (Option Char) := do
  let text ← ahead
  return text.toList.find? (!isBlank ·)

def advance (c : Char) : Scan Unit := modify fun scanner => { scanner with offset := scanner.offset + c.utf8Size }

def bump : Scan Unit := do
  match ← peek with
  | none => return ()
  | some c => advance c

/-- Goes over the characters of a kind. -/
def skipWhile (p : Char → Bool) : (turns : Nat) → Scan Unit
  | 0 => need none
  | turns + 1 => do
    match ← peek with
    | none => return ()
    | some c => if p c then do advance c; skipWhile p turns else return ()

/-- How many turns a loop is allowed: each goes over a byte at least, and the last one finds the end. -/
def turns : Scan Nat := do
  let scanner ← get
  return scanner.source.utf8ByteSize + 1

def takeWhile (p : Char → Bool) : Scan String := do
  let start ← get
  skipWhile p (← turns)
  let stop ← get
  need (textBetween? stop.source start.offset stop.offset)

def skipBlanks : Scan Unit := do
  let _ ← takeWhile isBlank

def unexpected : Scan α := do
  let token ← peek
  let scanner ← get
  throw (.unexpected (token.elim "" String.singleton) scanner.offset)

/-! ## Texts at a position -/

section Positions

variable {s before middle rest : String}

theorem exists_position (h : s = before ++ rest) :
    ∃ p, position? s before.utf8ByteSize = some p ∧ p.Splits before rest := by
  have hvalid : String.Pos.Raw.IsValid s ⟨before.utf8ByteSize⟩ :=
    String.Pos.Raw.isValid_iff_exists_append.2 ⟨before, rest, h, rfl⟩
  exact ⟨_, dif_pos hvalid, h, rfl⟩

theorem textFrom?_append (h : s = before ++ rest) : textFrom? s before.utf8ByteSize = some rest := by
  obtain ⟨p, hp, hsplits⟩ := exists_position h
  rw [textFrom?, hp, Option.map_some, hsplits.copy_sliceFrom_eq]

theorem textBetween?_append (h : s = before ++ middle ++ rest) :
    textBetween? s before.utf8ByteSize (before ++ middle).utf8ByteSize = some middle := by
  obtain ⟨p, hp, hstart⟩ := exists_position (h.trans (String.append_assoc ..))
  obtain ⟨q, hq, hstop⟩ := exists_position h
  obtain ⟨hle, hcopy⟩ := String.copy_slice_eq_iff_splits.2 ⟨before, rest, hstart, hstop⟩
  have hslice : s.slice? p q = some (s.slice p q hle) := dif_pos hle
  rw [textBetween?, hp, hq]
  show (s.slice? p q).map String.Slice.copy = some middle
  rw [hslice, Option.map_some, hcopy]

end Positions

/-! ## Runs in front of a text -/

variable {s : String} {c : Char} {cs rest : List Char} {a : α} {m : Scan α} {k : α → Scan β} {sc sc' : Scanner}
  {e : Condition.Error}

theorem run_bind_ok (h : m.run sc = some (.ok (a, sc'))) : (m >>= k).run sc = (k a).run sc' := by
  rw [StateT.run_bind, h]
  rfl

theorem run_bind_error (h : m.run sc = some (.error e)) : (m >>= k).run sc = some (.error e) := by
  rw [StateT.run_bind, h]
  rfl

theorem run_need {result : Option α} (h : result = some a) (sc : Scanner) :
    (need result).run sc = some (.ok (a, sc)) := by
  rw [h]
  rfl

/-- A scanner in front of a text that the source ends with. -/
def facing (s : String) (cs : List Char) : Scanner := ⟨s, byteLength s.toList - byteLength cs⟩

/-- What a reading of lists of characters says of the scanner. -/
def outcome (s : String) : Except Fault (α × List Char) → Option (Except Condition.Error (α × Scanner))
  | .error e => some (.error (e.within s.toList))
  | .ok (a, rest) => some (.ok (a, facing s rest))

/-- In front of a text the position is behind all that comes before it. -/
theorem facing_offset {front : List Char} (h : front ++ cs = s.toList) :
    (facing s cs).offset = (String.ofList front).utf8ByteSize := by
  rw [facing, ← h, byteLength_append, Nat.add_sub_cancel, utf8ByteSize_ofList]

theorem ofList_append_of_toList {front : List Char} (h : front ++ cs = s.toList) :
    s = String.ofList front ++ String.ofList cs := by
  rw [← String.ofList_append, h, String.ofList_toList]

theorem run_ahead (h : cs <:+ s.toList) : ahead.run (facing s cs) = some (.ok (String.ofList cs, facing s cs)) := by
  obtain ⟨front, hfront⟩ := h
  have htext : textFrom? s (facing s cs).offset = some (String.ofList cs) := by
    rw [facing_offset hfront]
    exact textFrom?_append (ofList_append_of_toList hfront)
  exact run_need htext _

theorem run_peek (h : cs <:+ s.toList) : peek.run (facing s cs) = some (.ok (cs.head?, facing s cs)) := by
  rw [peek, run_bind_ok (run_ahead h), String.toList_ofList]
  rfl

theorem run_peekSignificant (h : cs <:+ s.toList) :
    peekSignificant.run (facing s cs) = some (.ok ((trimStart cs).head?, facing s cs)) := by
  have hfind : cs.find? (!isBlank ·) = (trimStart cs).head? := List.find?_not_eq_head?_dropWhile isBlank cs
  rw [peekSignificant, run_bind_ok (run_ahead h), String.toList_ofList, hfind]
  rfl

theorem run_advance (h : c :: cs <:+ s.toList) :
    (advance c).run (facing s (c :: cs)) = some (.ok ((), facing s cs)) := by
  have hoffset : (facing s (c :: cs)).offset + c.utf8Size = (facing s cs).offset := by
    obtain ⟨front, hfront⟩ := h
    have hnext : (front ++ [c]) ++ cs = s.toList := by simpa using hfront
    rw [facing_offset hfront, facing_offset hnext, utf8ByteSize_ofList, utf8ByteSize_ofList, byteLength_append]
    rfl
  have hstep : (advance c).run (facing s (c :: cs)) =
      some (.ok ((), ⟨s, (facing s (c :: cs)).offset + c.utf8Size⟩)) := rfl
  rw [hstep, hoffset]
  rfl

theorem run_bump (h : c :: cs <:+ s.toList) : bump.run (facing s (c :: cs)) = some (.ok ((), facing s cs)) := by
  rw [bump, run_bind_ok (run_peek h)]
  exact run_advance h

theorem run_skipWhile (p : Char → Bool) {turns : Nat} (hturns : cs.length < turns) (h : cs <:+ s.toList) :
    (skipWhile p turns).run (facing s cs) = some (.ok ((), facing s (cs.dropWhile p))) := by
  induction turns generalizing cs with
  | zero => exact absurd hturns (Nat.not_lt_zero _)
  | succ turns ih =>
      rw [skipWhile, run_bind_ok (run_peek h)]
      cases cs with
      | nil => rfl
      | cons c cs =>
          rw [List.dropWhile_cons]
          dsimp only [List.head?_cons]
          split
          · rw [run_bind_ok (run_advance h)]
            exact ih (Nat.lt_of_succ_lt_succ hturns) ((List.suffix_cons c cs).trans h)
          · rfl

theorem length_lt_turns (h : cs <:+ s.toList) : cs.length < s.utf8ByteSize + 1 := by
  rw [← byteLength_toList]
  exact Nat.lt_succ_of_le (Nat.le_trans h.length_le (length_le_byteLength _))

theorem run_turns : turns.run (facing s cs) = some (.ok (s.utf8ByteSize + 1, facing s cs)) := rfl

theorem run_takeWhile (p : Char → Bool) (h : cs <:+ s.toList) :
    (takeWhile p).run (facing s cs) = some (.ok (String.ofList (cs.takeWhile p), facing s (cs.dropWhile p))) := by
  have hget (sc : Scanner) : (get : Scan Scanner).run sc = some (.ok (sc, sc)) := rfl
  rw [takeWhile, run_bind_ok (hget _), run_bind_ok run_turns, run_bind_ok (run_skipWhile p (length_lt_turns h) h),
    run_bind_ok (hget _)]
  refine run_need ?_ _
  obtain ⟨front, hfront⟩ := h
  have hwhole : (front ++ cs.takeWhile p) ++ cs.dropWhile p = s.toList := by
    rw [List.append_assoc, List.takeWhile_append_dropWhile, hfront]
  have hs := ofList_append_of_toList hwhole
  rw [String.ofList_append] at hs
  rw [facing_offset hfront, facing_offset hwhole, String.ofList_append]
  exact textBetween?_append hs

end Scan

end PackageRecipes
