import Mathlib.Data.List.DropRight
import PackageRecipes.Proofs.Condition.Reading

/-!
# Leading names

The name of another package in front of a condition means the same with a `^` and without it, and the package's own
name makes no difference. What follows the name may be anything, whether it can be read or not.
-/

namespace PackageRecipes.Condition

open Text

variable {package name s rest : String} {word after : List Char}

/-! ## Parts behind a name -/

/-- Another package's name starts a condition on that dependency, as `^` does. -/
theorem parseParts_other (h : Word word) (hother : String.ofList word ≠ package)
    (hstop : after.head?.all (!isNameChar ·)) (hequals : after.head? ≠ some '=') :
    parseParts package (word ++ after) = parseParts package ('^' :: (word ++ after)) := by
  rw [parseParts_sigil (by decide), ownParts_dependencies, parseDependencies_caret, nameAfter_word h hstop, parseParts,
    leadingName?_word h hstop hequals]
  dsimp only
  cases parseAtoms after with
  | error e => rfl
  | ok read =>
      obtain ⟨atoms, behind⟩ := read
      exact congrArg (fun add => (parseDependencies behind).map add) (funext fun ds => if_neg hother)

theorem ownParts_trimStart (cs : List Char) : ownParts (trimStart cs) = ownParts cs := by
  have htrim : trimStart (trimStart cs) = trimStart cs := List.dropWhile_idempotent _ _
  rw [ownParts, ownParts, parseAtoms_eq, htrim, ← parseAtoms_eq]

/-! ## Conditions behind a name -/

theorem toOption_parse (h : trimStart s.toList ≠ []) :
    (parse package s).toOption = ((parseParts package (trimStart s.toList)).map conj).toOption := by
  rw [parse, if_neg (by simpa using h)]
  cases parseParts package (trimStart s.toList) with
  | error e => rfl
  | ok parts => rfl

theorem toOption_parse_cons {c : Char} {cs : List Char} (h : trimStart s.toList = c :: cs) :
    (parse package s).toOption = ((parseParts package (c :: cs)).map conj).toOption := by
  rw [toOption_parse (by rw [h]; exact List.cons_ne_nil c cs), h]

theorem toOption_parse_word (h : Word name.toList) (rest : String) :
    (parse package (name ++ rest)).toOption =
      ((parseParts package (name.toList ++ rest.toList)).map conj).toOption := by
  have htrim : trimStart (name ++ rest).toList = name.toList ++ rest.toList := by
    rw [String.toList_append, h.trimStart]
  obtain ⟨c, cs, hname, -⟩ := h.exists_cons
  rw [hname, List.cons_append] at htrim ⊢
  exact toOption_parse_cons htrim

/-- What can follow a leading name: no more of a name, and no sign that makes it a variant with its values. -/
def EndsName (rest : String) : Prop := rest.toList.head?.all fun c => !isNameChar c && c ≠ '='

theorem EndsName.stops (h : EndsName rest) :
    rest.toList.head?.all (!isNameChar ·) ∧ rest.toList.head? ≠ some '=' := by
  unfold EndsName at h
  cases hhead : rest.toList.head? with
  | none => exact ⟨rfl, nofun⟩
  | some c => simp_all

/-- What an atom starts with that is no choice of values, or a condition on a dependency. -/
def isSigil (c : Char) : Bool := c = '+' || c = '~' || c = '-' || c = '@' || c = '%' || c = '^'

theorem isAlphanumeric_of_isSigil {c : Char} (h : isSigil c) : isAlphanumeric c = false := by
  simp only [isSigil, Bool.or_eq_true, decide_eq_true_eq] at h
  rcases h with ((((rfl | rfl) | rfl) | rfl) | rfl) | rfl <;> decide

theorem parse_other_name (hname : Word name.toList) (hrest : EndsName rest) (hother : name ≠ package) :
    (parse package (name ++ rest)).toOption = (parse package ("^" ++ name ++ rest)).toOption := by
  obtain ⟨hstop, hequals⟩ := hrest.stops
  have hcaret : ("^" ++ name ++ rest).toList = '^' :: (name.toList ++ rest.toList) := by simp
  have hparts : parseParts package (name.toList ++ rest.toList) =
      parseParts package ('^' :: (name.toList ++ rest.toList)) :=
    parseParts_other hname (by rwa [String.ofList_toList]) hstop hequals
  rw [toOption_parse_word hname, hparts, toOption_parse_cons (by rw [hcaret, trimStart_cons (by decide)])]

theorem parse_own_name (hname : Word package.toList) (hrest : EndsName rest)
    (hsigil : (trimStart rest.toList).head?.any isSigil) :
    (parse package (package ++ rest)).toOption = (parse package rest).toOption := by
  obtain ⟨hstop, hequals⟩ := hrest.stops
  cases htrim : trimStart rest.toList with
  | nil => simp [htrim] at hsigil
  | cons c cs =>
      have hc : isAlphanumeric c = false := isAlphanumeric_of_isSigil (by simpa [htrim] using hsigil)
      have hparts : parseParts package (package.toList ++ rest.toList) = parseParts package (c :: cs) := by
        rw [parseParts_own hname rfl hstop hequals, parseParts_sigil hc, ← htrim, ownParts_trimStart]
      rw [toOption_parse_word hname, hparts, toOption_parse_cons htrim]

/-- In front of any text that ends it, a name that is not the package's is read as it is behind a `^`; and the
package's own name in front of a sigil is read as if it were left out. Texts that cannot be read stay so. -/
theorem parse_leadingName (package : String) (hname : Word name.toList) (hrest : EndsName rest) :
    (name ≠ package →
      (parse package (name ++ rest)).toOption = (parse package ("^" ++ name ++ rest)).toOption) ∧
    (name = package → (trimStart rest.toList).head?.any isSigil →
      (parse package (name ++ rest)).toOption = (parse package rest).toOption) := by
  refine ⟨parse_other_name hname hrest, ?_⟩
  rintro rfl hsigil
  exact parse_own_name hname hrest hsigil

/-- A version, a switch and another dependency, behind a name. -/
def kittieRest : String := " @kittie -mpi ^adios2@2.5:"

theorem leadingName_effis :
    Word "effis".toList ∧ EndsName kittieRest ∧ "effis" ≠ "kittie" ∧
      (trimStart kittieRest.toList).head?.any isSigil ∧
      (parse "kittie" ("effis" ++ kittieRest)).toOption = (parse "kittie" ("^" ++ "effis" ++ kittieRest)).toOption ∧
      (parse "effis" ("effis" ++ kittieRest)).toOption = (parse "effis" kittieRest).toOption ∧
      (parse "effis" kittieRest).toOption.isSome := by
  have hname : Word "effis".toList := ⟨rfl, List.all_eq_true.1 rfl⟩
  have hrest : EndsName kittieRest := rfl
  have hother : "effis" ≠ "kittie" := by decide
  have hsigil : (trimStart kittieRest.toList).head?.any isSigil := rfl
  exact ⟨hname, hrest, hother, hsigil, (parse_leadingName "kittie" hname hrest).1 hother,
    (parse_leadingName "effis" hname hrest).2 rfl hsigil, by decide +kernel⟩

end PackageRecipes.Condition
