import PackageRecipes.Condition.Parser
import PackageRecipes.Proofs.Text

/-!
# Reading conditions

The steps of the reader as equations: a name up to a character that no name holds, the loops without the bounds
that make them end, and the parts of a condition with the package's name in front or without it.
-/

namespace PackageRecipes.Condition

open Text

/-! ## Words -/

/-- A name that a condition reads. -/
structure Word (cs : List Char) : Prop where
  start : cs.head?.any isAlphanumeric
  chars : ∀ c ∈ cs, isNameChar c

variable {word rest : List Char} {package : String}

theorem utf8Size_of_isNameChar {c : Char} (h : isNameChar c) : c.utf8Size = 1 := by
  simp only [isNameChar, Bool.or_eq_true, decide_eq_true_eq] at h
  rcases h with (h | rfl) | rfl
  · exact utf8Size_of_isAlphanumeric h
  · decide
  · decide

theorem isBlank_of_isNameChar {c : Char} (h : isNameChar c) : isBlank c = false := by
  simp only [isNameChar, Bool.or_eq_true, decide_eq_true_eq] at h
  rcases h with (h | rfl) | rfl
  · exact isBlank_of_isAlphanumeric h
  · decide
  · decide

theorem Word.exists_cons (h : Word word) : ∃ c cs, word = c :: cs ∧ isAlphanumeric c := by
  cases word with
  | nil => exact absurd h.start (by decide)
  | cons c cs => exact ⟨c, cs, rfl, by simpa using h.start⟩

theorem Word.trimStart (h : Word word) (rest : List Char) : trimStart (word ++ rest) = word ++ rest := by
  obtain ⟨c, cs, rfl, hc⟩ := h.exists_cons
  exact trimStart_cons (isBlank_of_isAlphanumeric hc) _

theorem Word.takeWhile (h : Word word) (hrest : rest.head?.all (!isNameChar ·)) :
    (word ++ rest).takeWhile isNameChar = word := takeWhile_run h.chars hrest

theorem Word.dropWhile (h : Word word) (hrest : rest.head?.all (!isNameChar ·)) :
    (word ++ rest).dropWhile isNameChar = rest := dropWhile_run h.chars hrest

theorem Word.ascii (h : Word word) : ∀ c ∈ word, c.utf8Size = 1 :=
  fun c hc => utf8Size_of_isNameChar (h.chars c hc)

theorem nameAfter_run {sigil : Char} {run : List Char} (hne : run ≠ []) (h : ∀ c ∈ run, isNameChar c)
    (hrest : rest.head?.all (!isNameChar ·)) :
    nameAfter sigil (run ++ rest) = .ok (String.ofList run, rest) := by
  rw [nameAfter, takeName, takeWhile_run h hrest, dropWhile_run h hrest, if_neg (by simpa using hne)]

theorem nameAfter_word {sigil : Char} (h : Word word) (hrest : rest.head?.all (!isNameChar ·)) :
    nameAfter sigil (word ++ rest) = .ok (String.ofList word, rest) := by
  obtain ⟨c, cs, rfl, -⟩ := h.exists_cons
  exact nameAfter_run (List.cons_ne_nil c cs) h.chars hrest

/-! ## The loops without what makes them end -/

theorem parseAtoms_eq (cs : List Char) :
    parseAtoms cs =
      match trimStart cs with
      | [] => .ok ([], [])
      | c :: rest =>
        if c = '^' then .ok ([], c :: rest)
        else
          match parseAtom (c :: rest) with
          | .error e => .error e
          | .ok (atom, after) => (parseAtoms after).map fun (atoms, end_) => (atom :: atoms, end_) := by
  rw [parseAtoms]
  split
  · rename_i hc
    rw [hc]
  · rename_i hc
    simp only [hc]
    split
    · rfl
    · split
      · rename_i ha
        rw [ha]
      · rename_i ha
        rw [ha]

theorem parseAtoms_caret (cs : List Char) : parseAtoms ('^' :: cs) = .ok ([], '^' :: cs) := by
  rw [parseAtoms_eq, trimStart_cons (by decide)]
  rfl

theorem parseDependencies_caret (cs : List Char) :
    parseDependencies ('^' :: cs) =
      match nameAfter '^' cs with
      | .error e => .error e
      | .ok (name, rest) =>
        match parseAtoms rest with
        | .error e => .error e
        | .ok (atoms, after) => (parseDependencies after).map (onDependency name atoms :: ·) := by
  rw [parseDependencies]
  split
  · rename_i hn
    rw [hn]
  · rename_i hn
    simp only [hn]
    split
    · rename_i ha
      rw [ha]
    · rename_i ha
      rw [ha]

theorem parseDependencies_nil : parseDependencies [] = .ok [] := by
  rw [parseDependencies]
  intro cs h
  cases h

/-! ## Parts of a condition -/

/-- The parts of a condition that starts with its own atoms. -/
def ownParts (cs : List Char) : Except Fault (List Condition) :=
  match parseAtoms cs with
  | .error e => .error e
  | .ok (atoms, after) => (parseDependencies after).map fun ds => atoms ++ ds

theorem ownParts_dependencies (cs : List Char) : ownParts ('^' :: cs) = parseDependencies ('^' :: cs) := by
  simp only [ownParts, parseAtoms_caret]
  cases parseDependencies ('^' :: cs) with
  | error e => rfl
  | ok ds => rfl

theorem parseParts_unnamed {cs : List Char} (h : leadingName? cs = none) : parseParts package cs = ownParts cs := by
  rw [parseParts, h]
  rfl

theorem parseParts_sigil {c : Char} (h : isAlphanumeric c = false) (cs : List Char) :
    parseParts package (c :: cs) = ownParts (c :: cs) := parseParts_unnamed (by simp [leadingName?, h])

theorem leadingName?_word (h : Word word) (hrest : rest.head?.all (!isNameChar ·))
    (hequals : rest.head? ≠ some '=') :
    leadingName? (word ++ rest) = some (String.ofList word, rest) := by
  rw [leadingName?, takeName, h.takeWhile hrest, h.dropWhile hrest, if_neg, if_neg hequals]
  obtain ⟨c, cs, rfl, hc⟩ := h.exists_cons
  simp [hc]

theorem parseParts_own (h : Word word) (hpackage : package.toList = word)
    (hrest : rest.head?.all (!isNameChar ·)) (hequals : rest.head? ≠ some '=') :
    parseParts package (word ++ rest) = ownParts rest := by
  have hname : String.ofList word = package := by rw [← hpackage, String.ofList_toList]
  simp only [parseParts, leadingName?_word h hrest hequals, hname, ↓reduceIte]
  rfl

theorem parse_eq {s : String} {c : Char} {cs : List Char} (hs : s.toList = c :: cs)
    (hblank : isBlank c = false) :
    parse package s = ((parseParts package s.toList).map conj).mapError (·.within s.toList) := by
  rw [parse, hs, trimStart_cons hblank]
  cases parseParts package (c :: cs) with
  | error e => rfl
  | ok parts => rfl

end PackageRecipes.Condition
