import PackageRecipes.Proofs.Condition.Reading
import PackageRecipes.Spec.Name

/-!
# Declared names in conditions

Names may hold dots where they are declared, but a condition reads a name up to its first dot only. So a
declared name can be referred to exactly if it has no dot.
-/

namespace PackageRecipes

open Text

namespace Condition

/-! ## Words and dots -/

/-- The end of a name, or a dot. -/
inductive Stop : List Char → Prop where
  | done : Stop []
  | dot (rest : List Char) : Stop ('.' :: rest)

variable {word rest : List Char} {name package : String}

theorem Stop.head (h : Stop rest) : rest.head?.all (!isNameChar ·) := by
  cases h with
  | done => rfl
  | dot rest => rfl

theorem exists_cons_of_declared (h : nameFault? name = none) :
    ∃ c cs, name.toList = c :: cs ∧ isAlphanumeric c ∧ ∀ d ∈ cs, isDeclaredNameChar d := by
  unfold nameFault? at h
  cases hname : name.toList with
  | nil => simp [hname] at h
  | cons c cs =>
      by_cases hc : isAlphanumeric c
      · exact ⟨c, cs, rfl, hc, by simpa [hname, hc] using h⟩
      · simp [hname, hc] at h

theorem exists_word (h : nameFault? name = none) :
    ∃ word rest, name.toList = word ++ rest ∧ Word word ∧ Stop rest := by
  obtain ⟨c, cs, hname, hc, hcs⟩ := exists_cons_of_declared h
  refine ⟨c :: cs.takeWhile isNameChar, cs.dropWhile isNameChar, ?_, ⟨?_, ?_⟩, ?_⟩
  · rw [List.cons_append, List.takeWhile_append_dropWhile, hname]
  · simpa using hc
  · refine List.forall_mem_cons.2 ⟨by simp [isNameChar, hc], ?_⟩
    exact List.all_eq_true.1 List.all_takeWhile
  · have hstop := List.head?_dropWhile_not isNameChar cs
    cases hrest : cs.dropWhile isNameChar with
    | nil => exact .done
    | cons d tail =>
        have hd : isDeclaredNameChar d :=
          hcs d ((List.dropWhile_sublist _).subset (by rw [hrest]; exact List.mem_cons_self))
        simp only [hrest, List.head?_cons] at hstop
        obtain rfl : d = '.' := by
          simp only [isDeclaredNameChar, isNameChar, Bool.or_eq_true, Bool.or_eq_false_iff,
            decide_eq_true_eq, decide_eq_false_iff_not] at hd hstop
          grind
        exact .dot tail

/-! ## Reading on after a word -/

/-- The outcome of reading a text that goes on with `rest` after a word. -/
def atStop {α : Type} (rest : List Char) (value : α) : Except Fault α :=
  if rest.isEmpty then .ok value else .error (.unexpected rest)

theorem parseAtoms_stop (h : Stop rest) : parseAtoms rest = atStop rest ([], []) := by
  rw [parseAtoms_eq]
  cases h with
  | done => rfl
  | dot rest => rfl

theorem addAtoms_stop (h : Stop rest) (r : Requirement) : r.addAtoms rest = atStop rest r := by
  rw [Requirement.addAtoms]
  cases h with
  | done => rfl
  | dot rest => rfl

theorem parseAtoms_plus (h : Word word) (hstop : Stop rest) :
    parseAtoms ('+' :: (word ++ rest)) =
      atStop rest ([.variant (String.ofList word) .enabled], []) := by
  have hatom : parseAtom ('+' :: (word ++ rest)) =
      .ok (.variant (String.ofList word) .enabled, rest) := by
    rw [parseAtom, if_pos rfl, switchAtom, nameAfter_word h hstop.head]
    rfl
  rw [parseAtoms_eq, trimStart_cons (by decide)]
  simp only [hatom, parseAtoms_stop hstop]
  cases hstop with
  | done => rfl
  | dot rest => rfl

theorem parseDependencies_word (h : Word word) (hstop : Stop rest) :
    parseDependencies ('^' :: (word ++ rest)) =
      atStop rest [.dependency (String.ofList word) .always] := by
  rw [parseDependencies_caret, nameAfter_word h hstop.head]
  simp only [parseAtoms_stop hstop]
  cases hstop with
  | done => simp only [atStop, List.isEmpty_nil, ↓reduceIte, parseDependencies_nil]; rfl
  | dot rest => rfl

theorem parseParts_dot (h : Word word) (rest : List Char) :
    parseParts package (word ++ '.' :: rest) = .error (.unexpected ('.' :: rest)) := by
  rw [parseParts, leadingName?_word h (by rfl) (by simp)]
  simp only [parseAtoms_stop (.dot rest)]
  rfl

theorem ownParts_plus (h : Word word) (hstop : Stop rest) :
    ownParts ('+' :: (word ++ rest)) = atStop rest [.variant (String.ofList word) .enabled] := by
  rw [ownParts, parseAtoms_plus h hstop]
  cases hstop with
  | done => simp only [atStop, List.isEmpty_nil, ↓reduceIte, parseDependencies_nil]; rfl
  | dot rest => rfl

theorem ownParts_caret (h : Word word) (hstop : Stop rest) :
    ownParts ('^' :: (word ++ rest)) = atStop rest [.dependency (String.ofList word) .always] := by
  rw [ownParts_dependencies, parseDependencies_word h hstop]

/-! ## Whole texts -/

/-- The value, unless the name has a dot: then the fault at its first dot, for a name that starts at the given
place of a text. -/
def upToDot {α : Type} (name : String) (start : Nat) (value : α) : Except Error α :=
  match name.toList.findIdx? (· = '.') with
  | none => .ok value
  | some i => .error (.unexpected "." (start + i))

theorem Word.findIdx?_eq_none (h : Word word) : word.findIdx? (· = '.') = none := by
  rw [List.findIdx?_eq_none_iff]
  intro c hc
  exact decide_eq_false fun hdot => absurd (h.chars c hc) (by rw [hdot]; decide)

theorem upToDot_word {α : Type} (hname : name.toList = word) (h : Word word) (start : Nat) (value : α) :
    upToDot name start value = .ok value := by
  rw [upToDot, hname, h.findIdx?_eq_none]

theorem upToDot_dot {α : Type} (hname : name.toList = word ++ '.' :: rest) (h : Word word) (start : Nat)
    (value : α) : upToDot name start value = .error (.unexpected "." (start + word.length)) := by
  have hfirst : ('.' :: rest).findIdx? (· = '.') = some 0 := by rw [List.findIdx?_cons]; rfl
  rw [upToDot, hname, List.findIdx?_append, h.findIdx?_eq_none, hfirst]
  simp only [Option.map_some, Option.none_or, Nat.zero_add]

theorem within_dot {before : List Char} (h : ∀ c ∈ before, c.utf8Size = 1) (rest : List Char) :
    (Fault.unexpected ('.' :: rest)).within (before ++ '.' :: rest) = .unexpected "." before.length := by
  rw [Fault.within, byteLength_append, byteLength_eq_length h, Nat.add_sub_cancel]
  rfl

theorem mapError_atStop {α : Type} (hname : name.toList = word ++ rest) (hword : Word word)
    (hstop : Stop rest) (before : List Char) (hbefore : ∀ c ∈ before, c.utf8Size = 1) (value : α) :
    (atStop rest value).mapError (·.within (before ++ name.toList)) =
      upToDot name before.length value := by
  cases hstop with
  | done =>
      rw [List.append_nil] at hname
      rw [upToDot_word hname hword]
      rfl
  | dot rest =>
      have hfault := within_dot (List.forall_mem_append.2 ⟨hbefore, hword.ascii⟩) rest
      rw [List.append_assoc, ← hname, List.length_append] at hfault
      rw [upToDot_dot hname hword, ← hfault]
      rfl

/-- A value that is made of the word is made of the whole name, unless a dot cuts the name short. -/
theorem atStop_ofList {α : Type} (hname : name.toList = word ++ rest) (hstop : Stop rest)
    (value : String → α) : atStop rest (value (String.ofList word)) = atStop rest (value name) := by
  cases hstop with
  | done =>
      rw [List.append_nil] at hname
      rw [← hname, String.ofList_toList]
  | dot rest => rfl

theorem map_conj_atStop {atom : Condition} (h : atom.isAlways = false) :
    (atStop rest [atom]).map conj = atStop rest atom := by
  cases rest with
  | nil => simp [atStop, Except.map, conj, h]
  | cons c cs => rfl

theorem requirement_declared (h : nameFault? name = none) :
    Requirement.parse name = upToDot name 0 ⟨name, [], []⟩ := by
  obtain ⟨word, rest, hname, hword, hstop⟩ := exists_word h
  have hword' : (word ++ rest).isEmpty = false ∧ word.isEmpty = false := by
    obtain ⟨c, cs, rfl, -⟩ := hword.exists_cons
    exact ⟨rfl, rfl⟩
  have hread : Requirement.parse name =
      (atStop rest ⟨String.ofList word, [], []⟩).mapError (·.within name.toList) := by
    rw [Requirement.parse, hname, hword.trimStart]
    simp only [takeName, hword.takeWhile hstop.head, hword.dropWhile hstop.head, hword',
      addAtoms_stop hstop, Bool.false_eq_true, ↓reduceIte]
    cases hstop with
    | done => rfl
    | dot rest => rfl
  rw [hread, atStop_ofList hname hstop fun target => Requirement.mk target [] []]
  have hbefore : ∀ c ∈ ([] : List Char), c.utf8Size = 1 := List.forall_mem_nil _
  exact mapError_atStop hname hword hstop [] hbefore _

theorem parse_sigil {sigil : Char} {s : String} (atom : String → Condition)
    (h : nameFault? name = none) (hs : s.toList = sigil :: name.toList)
    (hletter : isAlphanumeric sigil = false) (hblank : isBlank sigil = false)
    (hsize : sigil.utf8Size = 1) (halways : ∀ n, (atom n).isAlways = false)
    (hparts : ∀ word rest, Word word → Stop rest →
      ownParts (sigil :: (word ++ rest)) = atStop rest [atom (String.ofList word)]) :
    parse package s = upToDot name 1 (atom name) := by
  obtain ⟨word, rest, hname, hword, hstop⟩ := exists_word h
  have hread : (parseParts package s.toList).map conj = atStop rest (atom name) := by
    rw [hs, parseParts_sigil hletter, hname, hparts word rest hword hstop,
      atStop_ofList hname hstop fun n => [atom n], map_conj_atStop (halways name)]
  rw [parse_eq hs hblank, hread, hs]
  exact mapError_atStop hname hword hstop [sigil] (by simpa using hsize) _

theorem parse_plus (package : String) (h : nameFault? name = none) :
    parse package ("+" ++ name) = upToDot name 1 (.variant name .enabled) :=
  parse_sigil (.variant · .enabled) h String.toList_append rfl rfl rfl (fun _ => rfl)
    fun _ _ => ownParts_plus

theorem parse_caret (package : String) (h : nameFault? name = none) :
    parse package ("^" ++ name) = upToDot name 1 (.dependency name .always) :=
  parse_sigil (.dependency · .always) h String.toList_append rfl rfl rfl (fun _ => rfl)
    fun _ _ => ownParts_caret

theorem parse_own_plus (hpackage : nameFault? package = none) (h : nameFault? name = none) :
    parse package (package ++ "+" ++ name) =
      (upToDot package 0 ()).bind fun () =>
        upToDot name (package.length + 1) (.variant name .enabled) := by
  obtain ⟨own, end_, hown, hword, hend⟩ := exists_word hpackage
  obtain ⟨c, cs, hcons, hc⟩ := hword.exists_cons
  have hs : (package ++ "+" ++ name).toList = own ++ (end_ ++ '+' :: name.toList) := by
    rw [String.toList_append, String.toList_append, hown]
    simp
  have hstart : (package ++ "+" ++ name).toList = c :: (cs ++ (end_ ++ '+' :: name.toList)) := by
    rw [hs, hcons, List.cons_append]
  rw [parse_eq hstart (isBlank_of_isAlphanumeric hc), hs]
  cases hend with
  | dot more =>
      rw [upToDot_dot hown hword, List.cons_append, parseParts_dot hword, Nat.zero_add,
        ← within_dot hword.ascii]
      rfl
  | done =>
      rw [List.append_nil] at hown
      obtain ⟨word, rest, hname, hword', hstop⟩ := exists_word h
      rw [upToDot_word hown hword, List.nil_append, parseParts_own hword hown (by rfl) (by simp), hname,
        ownParts_plus hword' hstop, ← hname,
        atStop_ofList hname hstop fun n => [Condition.variant n .enabled], map_conj_atStop rfl]
      have hbefore : ∀ c ∈ own ++ ['+'], c.utf8Size = 1 :=
        List.forall_mem_append.2 ⟨hword.ascii, List.forall_mem_singleton.2 rfl⟩
      have hread := mapError_atStop hname hword' hstop (own ++ ['+']) hbefore
        (Condition.variant name .enabled)
      rw [List.append_assoc, List.length_append, ← hown] at hread
      rw [← hown]
      exact hread

/-! ## Names that can be referred to -/

/-- Conditions of a package can refer to the name in every place where a declared name can stand. -/
structure Referable (package name : String) : Prop where
  requirement : Requirement.parse name = .ok ⟨name, [], []⟩
  switch : parse package ("+" ++ name) = .ok (.variant name .enabled)
  dependency : parse package ("^" ++ name) = .ok (.dependency name .always)
  own : parse package (package ++ "+" ++ name) = parse package ("+" ++ name)

theorem upToDot_eq_ok {α : Type} {start : Nat} {value : α} :
    upToDot name start value = .ok value ↔ '.' ∉ name.toList := by
  have hfind : name.toList.findIdx? (· = '.') = none ↔ '.' ∉ name.toList := by
    rw [List.findIdx?_eq_none_iff]
    exact ⟨fun h hdot => by simpa using h '.' hdot, fun h c hc => decide_eq_false fun hdot => h (hdot ▸ hc)⟩
  rw [← hfind, upToDot]
  cases name.toList.findIdx? (· = '.') <;> simp

theorem referable_iff (h : nameFault? name = none) (hpackage : nameFault? package = none) :
    Referable package name ↔ '.' ∉ name.toList ∧ '.' ∉ package.toList := by
  constructor
  · intro hrefer
    have hname : '.' ∉ name.toList := by
      have hread := hrefer.requirement
      rwa [requirement_declared h, upToDot_eq_ok] at hread
    refine ⟨hname, ?_⟩
    have hown := hrefer.own
    rw [hrefer.switch, parse_own_plus hpackage h] at hown
    cases hread : upToDot package 0 () with
    | error e => rw [hread] at hown; cases hown
    | ok _ => exact upToDot_eq_ok.1 hread
  · rintro ⟨hname, hdotless⟩
    have hswitch : parse package ("+" ++ name) = .ok (.variant name .enabled) := by
      rw [parse_plus package h, upToDot_eq_ok.2 hname]
    constructor
    case requirement => rw [requirement_declared h, upToDot_eq_ok.2 hname]
    case switch => exact hswitch
    case dependency => rw [parse_caret package h, upToDot_eq_ok.2 hname]
    case own =>
      rw [hswitch, parse_own_plus hpackage h, upToDot_eq_ok.2 hdotless, upToDot_eq_ok.2 hname]
      rfl

theorem referable_fftw :
    nameFault? "fftw-3_mpi" = none ∧ nameFault? "xgc-devel" = none ∧
      Referable "xgc-devel" "fftw-3_mpi" := by
  have hname : nameFault? "fftw-3_mpi" = none := by decide
  have hpackage : nameFault? "xgc-devel" = none := by decide
  exact ⟨hname, hpackage, (referable_iff hname hpackage).2 ⟨by decide, by decide⟩⟩

/-- A name with a dot can be declared, but no condition can refer to it. -/
theorem not_referable :
    ¬ ∀ package name, nameFault? package = none → nameFault? name = none → Referable package name := by
  intro hall
  have hname : nameFault? "lib2.0" = none := by decide
  have hread := (hall "app" "lib2.0" (by decide) hname).requirement
  rw [requirement_declared hname, upToDot_eq_ok] at hread
  exact hread (by decide)

end Condition

end PackageRecipes
