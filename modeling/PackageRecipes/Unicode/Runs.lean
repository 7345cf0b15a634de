/-! Properties of all code points, written as runs: a code, and how many code points in a row
have it when they are more than one. -/
namespace PackageRecipes.Unicode

/-- Runs in order: the first code point of each with its code. -/
abbrev Runs := Array (Nat × String)

structure RunReader where
  runs : Runs
  start : Nat
  code : List Char
  count : Nat

/-- Ends the run that is being read. -/
def RunReader.close (r : RunReader) : RunReader :=
  if r.code.isEmpty then r
  else
    ⟨r.runs.push (r.start, String.ofList r.code.reverse),
      r.start + (if r.count = 0 then 1 else r.count), [], 0⟩

def RunReader.next (r : RunReader) (c : Char) : RunReader :=
  if c.isDigit then { r with count := 10 * r.count + (c.toNat - 48) }
  else if c.isUpper then { r.close with code := [c] }
  else { r with code := c :: r.code }

/-- Reads runs from text in which each code starts with its only capital. -/
def readRuns (text : List String) : Runs :=
  let nothing : RunReader := ⟨#[], 0, [], 0⟩
  ((text.flatMap String.toList).foldl RunReader.next nothing).close.runs

/-- The code of a code point, between two positions of the table. -/
def codeBetween (runs : Runs) (n low high : Nat) : String :=
  if high ≤ low + 1 then (runs.getD low (0, "")).2
  else
    let middle := (low + high) / 2
    if n < (runs.getD middle (0, "")).1 then codeBetween runs n low middle
    else codeBetween runs n middle high
termination_by high - low

def codeOf (runs : Runs) (c : Char) : String := codeBetween runs c.toNat 0 runs.size

end PackageRecipes.Unicode
