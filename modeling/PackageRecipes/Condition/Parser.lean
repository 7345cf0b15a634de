import PackageRecipes.Condition.Basic

/-! Reading conditions such as `+mpi @2: ^adios2@2.5:` and requirements such as `kokkos@3.7: +openmp`.

A step gives back the text that is left, and a fault names the text at which it was found, so that
an offset is the distance of that text from the start of the input. -/
namespace PackageRecipes

open Text

namespace Condition

/-- A fault with the text that was left when it was found. -/
inductive Fault where
  | missingName (sigil : Char)
  | unexpected (rest : List Char)
  | badVersion (input : String) (cause : Option Version.Error)

/-- The fault as an error of a whole input: an unexpected character is shown with its byte offset. -/
def Fault.within (input : List Char) : Fault → Error
  | .missingName sigil => .missingName sigil
  | .unexpected rest =>
    .unexpected (String.ofList (rest.take 1)) (byteLength input - byteLength rest)
  | .badVersion text cause => .badVersion text cause

def isNameChar (c : Char) : Bool := isAlphanumeric c || c = '-' || c = '_'

def isVersionChar (c : Char) : Bool := !isBlank c && !(c = '+' || c = '~' || c = '%' || c = '^')

def isValueChar (c : Char) : Bool := !isBlank c && !(c = '^' || c = '%')

/-- A maximal run of name characters, and what follows it. -/
def takeName (cs : List Char) : String × List Char :=
  (String.ofList (cs.takeWhile isNameChar), cs.dropWhile isNameChar)

/-- The name that has to follow a sigil. -/
def nameAfter (sigil : Char) (cs : List Char) : Except Fault (String × List Char) :=
  if (cs.takeWhile isNameChar).isEmpty then .error (.missingName sigil) else .ok (takeName cs)

/-- A list of ranges with at least one in it. -/
def takeVersions (cs : List Char) : Except Fault (List VersionRange × List Char) :=
  let text := String.ofList (cs.takeWhile isVersionChar)
  match VersionRange.parseList text with
  | .error e => .error (.badVersion text (some e))
  | .ok [] => .error (.badVersion text none)
  | .ok ranges => .ok (ranges, cs.dropWhile isVersionChar)

/-- A switch, after its sigil. -/
def switchAtom (sigil : Char) (wanted : VariantMatch) (cs : List Char) :
    Except Fault (Condition × List Char) :=
  (nameAfter sigil cs).map fun (name, rest) => (.variant name wanted, rest)

/-- A version, after its sigil. -/
def versionAtom (cs : List Char) : Except Fault (Condition × List Char) :=
  (takeVersions cs).map fun (ranges, rest) => (disj (ranges.map .version), rest)

/-- A compiler, after its sigil. -/
def compilerAtom (cs : List Char) : Except Fault (Condition × List Char) :=
  match nameAfter '%' cs with
  | .error e => .error e
  | .ok (name, '@' :: rest) =>
    (takeVersions rest).map fun (ranges, rest) => (.compiler name ranges, rest)
  | .ok (name, rest) => .ok (.compiler name [], rest)

/-- A choice of values, at the variant's name. -/
def valueAtom (cs : List Char) : Except Fault (Condition × List Char) :=
  match takeName cs with
  | (name, '=' :: rest) =>
    match VariantValue.listed (rest.takeWhile isValueChar) with
    | [] => .error (.missingName '=')
    | values => .ok (.variant name (.values values), rest.dropWhile isValueChar)
  | (_, rest) => .error (.unexpected rest)

/-- One atom, at its first character. -/
def parseAtom : List Char → Except Fault (Condition × List Char)
  | [] => .error (.unexpected [])
  | c :: cs =>
    if c = '+' then switchAtom '+' .enabled cs
    else if c = '~' || c = '-' then switchAtom c .disabled cs
    else if c = '@' then versionAtom cs
    else if c = '%' then compilerAtom cs
    else if isAlphanumeric c then valueAtom (c :: cs)
    else .error (.unexpected (c :: cs))

/-! ## Progress: an atom uses up at least its first character -/

theorem length_dropWhile_le (p : Char → Bool) (cs : List Char) :
    (cs.dropWhile p).length ≤ cs.length := (List.dropWhile_suffix p).length_le

theorem nameAfter_length {sigil : Char} {cs : List Char} {r : String × List Char}
    (h : nameAfter sigil cs = .ok r) : r.2.length ≤ cs.length := by
  unfold nameAfter at h
  split at h
  · simp at h
  · cases h; exact length_dropWhile_le _ _

theorem takeVersions_length {cs : List Char} {r : List VersionRange × List Char}
    (h : takeVersions cs = .ok r) : r.2.length ≤ cs.length := by
  unfold takeVersions at h
  simp only at h
  split at h
  · simp at h
  · simp at h
  · cases h; exact length_dropWhile_le _ _

theorem map_eq_ok {ε α β : Type} {f : α → β} {x : Except ε α} {y : β} (h : x.map f = .ok y) :
    ∃ a, x = .ok a ∧ f a = y := by
  cases x with
  | error e => simp [Except.map] at h
  | ok a => exact ⟨a, rfl, by simpa [Except.map] using h⟩

theorem compilerAtom_length {cs : List Char} {r : Condition × List Char}
    (h : compilerAtom cs = .ok r) : r.2.length ≤ cs.length := by
  unfold compilerAtom at h
  split at h
  · simp at h
  · next hn =>
    obtain ⟨v, hv, rfl⟩ := map_eq_ok h
    have h₁ := nameAfter_length hn
    have h₂ := takeVersions_length hv
    simp only [List.length_cons] at h₁
    exact Nat.le_trans h₂ (by omega)
  · next hn => cases h; exact nameAfter_length hn

theorem valueAtom_length {cs : List Char} {r : Condition × List Char} (h : valueAtom cs = .ok r) :
    r.2.length < cs.length := by
  unfold valueAtom at h
  split at h
  · next name rest hn =>
    split at h
    · simp at h
    · cases h
      have h₁ := length_dropWhile_le isNameChar cs
      have h₂ := length_dropWhile_le isValueChar rest
      have h₃ : cs.dropWhile isNameChar = '=' :: rest := congrArg Prod.snd hn
      rw [h₃] at h₁
      simp only [List.length_cons] at h₁
      exact Nat.lt_of_le_of_lt h₂ h₁
  · simp at h

theorem parseAtom_length {cs : List Char} {r : Condition × List Char} (h : parseAtom cs = .ok r) :
    r.2.length < cs.length := by
  cases cs with
  | nil => simp [parseAtom] at h
  | cons c cs =>
    have switch {sigil : Char} {wanted : VariantMatch} (h : switchAtom sigil wanted cs = .ok r) :
        r.2.length < (c :: cs).length := by
      obtain ⟨v, hv, rfl⟩ := map_eq_ok h
      exact Nat.lt_succ_of_le (nameAfter_length hv)
    simp only [parseAtom] at h
    split at h
    · exact switch h
    split at h
    · exact switch h
    split at h
    · obtain ⟨v, hv, rfl⟩ := map_eq_ok h
      exact Nat.lt_succ_of_le (takeVersions_length hv)
    split at h
    · exact Nat.lt_succ_of_le (compilerAtom_length h)
    split at h
    · exact valueAtom_length h
    · simp at h

/-! ## Conditions -/

/-- The atoms up to the next `^` or the end. -/
def parseAtoms (cs : List Char) : Except Fault (List Condition × List Char) :=
  match _hc : trimStart cs with
  | [] => .ok ([], [])
  | c :: rest =>
    if c = '^' then .ok ([], c :: rest)
    else
      match _ha : parseAtom (c :: rest) with
      | .error e => .error e
      | .ok (atom, after) => (parseAtoms after).map fun (atoms, end_) => (atom :: atoms, end_)
termination_by cs.length
decreasing_by
  have h₁ := parseAtom_length _ha
  have h₂ : (trimStart cs).length ≤ cs.length := length_dropWhile_le _ _
  rw [_hc] at h₂
  exact Nat.lt_of_lt_of_le h₁ h₂

theorem parseAtoms_length (cs : List Char) {r : List Condition × List Char}
    (h : parseAtoms cs = .ok r) : r.2.length ≤ cs.length := by
  fun_induction parseAtoms cs generalizing r with
  | case1 => cases h; simp
  | case2 cs rest hc =>
    cases h
    have h₂ : (trimStart cs).length ≤ cs.length := length_dropWhile_le _ _
    simpa [hc] using h₂
  | case3 => simp at h
  | case4 cs c rest hc _ atom after ha ih =>
    obtain ⟨v, hv, rfl⟩ := map_eq_ok h
    have h₁ := parseAtom_length ha
    have h₂ : (trimStart cs).length ≤ cs.length := length_dropWhile_le _ _
    have h₃ := ih hv
    simp only [hc] at h₂
    simp only at h₁ h₃ ⊢
    omega

def onDependency (name : String) (atoms : List Condition) : Condition :=
  .dependency name (conj atoms)

/-- Conditions on dependencies, each with a `^` in front, to the end of the text. -/
def parseDependencies (cs : List Char) : Except Fault (List Condition) :=
  match cs with
  | '^' :: cs =>
    match _hn : nameAfter '^' cs with
    | .error e => .error e
    | .ok (name, rest) =>
      match _ha : parseAtoms rest with
      | .error e => .error e
      | .ok (atoms, after) => (parseDependencies after).map (onDependency name atoms :: ·)
  | _ => .ok []
termination_by cs.length
decreasing_by
  have h₁ := nameAfter_length _hn
  have h₂ := parseAtoms_length _ _ha
  simp only [List.length_cons] at h₁ h₂ ⊢
  omega

/-- A name at the front of the text, unless it is a variant with its values. -/
def leadingName? (cs : List Char) : Option (String × List Char) :=
  if !(cs.head?.any isAlphanumeric) then none
  else if (cs.dropWhile isNameChar).head? = some '=' then none
  else some (takeName cs)

/-- The own atoms of a condition on `package`, and its conditions on dependencies. A leading name
other than the package's starts a condition on that dependency. -/
def parseParts (package : String) (cs : List Char) : Except Fault (List Condition) :=
  match leadingName? cs with
  | some (name, rest) =>
    match parseAtoms rest with
    | .error e => .error e
    | .ok (atoms, after) =>
      (parseDependencies after).map fun ds =>
        if name = package then atoms ++ ds else onDependency name atoms :: ds
  | none =>
    match parseAtoms cs with
    | .error e => .error e
    | .ok (atoms, after) => (parseDependencies after).map fun ds => atoms ++ ds

/-- Reads one condition on `package`. -/
def parse (package s : String) : Except Error Condition :=
  let text := trimStart s.toList
  if text.isEmpty then .error .empty
  else match parseParts package text with
    | .error e => .error (e.within s.toList)
    | .ok parts => .ok (conj parts)

/-- Reads alternative conditions on `package`. -/
def parseAny (package : String) (texts : List String) : Except Error Condition :=
  if texts.isEmpty then .error .empty else (texts.mapM (parse package)).map disj

end Condition

/-! ## Requirements -/

/-- What a package asks of a dependency. -/
structure Requirement where
  target : String
  versions : List VersionRange
  predicates : List Condition

namespace Requirement

open Condition

def rangeOf? : Condition → Option VersionRange
  | .version range => some range
  | _ => none

/-- Takes in one atom; the versions can be given only once. -/
def add? (r : Requirement) : Condition → Option Requirement
  | .version range => if r.versions.isEmpty then some { r with versions := [range] } else none
  | .any alternatives =>
    if r.versions.isEmpty && alternatives.all isVersion then
      some { r with versions := alternatives.filterMap rangeOf? }
    else none
  | atom => some { r with predicates := r.predicates ++ [atom] }

def addAtoms (r : Requirement) (cs : List Char) : Except Fault Requirement :=
  match _hc : trimStart cs with
  | [] => .ok r
  | c :: rest =>
    if c = '^' then .error (.unexpected (c :: rest))
    else
      match _ha : parseAtom (c :: rest) with
      | .error e => .error e
      | .ok (atom, after) =>
        match r.add? atom with
        | some r' => addAtoms r' after
        | none => .error (.unexpected (c :: rest))
termination_by cs.length
decreasing_by
  have h₁ := parseAtom_length _ha
  have h₂ : (trimStart cs).length ≤ cs.length := length_dropWhile_le _ _
  rw [_hc] at h₂
  exact Nat.lt_of_lt_of_le h₁ h₂

/-- Reads a target with what is asked of it. -/
def parse (s : String) : Except Condition.Error Requirement :=
  let text := trimStart s.toList
  if text.isEmpty then .error .empty
  else if (text.takeWhile isNameChar).isEmpty then
    .error ((Fault.unexpected text).within s.toList)
  else
    match addAtoms ⟨(takeName text).1, [], []⟩ (takeName text).2 with
    | .error e => .error (e.within s.toList)
    | .ok r => .ok r

end Requirement

end PackageRecipes
