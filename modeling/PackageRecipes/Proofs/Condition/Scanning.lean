import PackageRecipes.Proofs.Condition.Scanner

/-!
# Conditions and requirements at byte positions

The scanner goes through atoms, the loops over them, and the parts of conditions and requirements. In front of any text
it does what the reading of this text says: it stops in front of what is left, or at what the fault names.
-/

namespace PackageRecipes

open Text Condition

namespace Scan

variable {α β : Type}

/-! ## The grammar -/

def nameAfter (sigil : Char) : Scan String := do
  let name ← takeWhile isNameChar
  if name = "" then throw (.missingName sigil) else return name

def versions : Scan (List VersionRange) := do
  let text ← takeWhile isVersionChar
  match VersionRange.parseList text with
  | .error e => throw (.badVersion text (some e))
  | .ok [] => throw (.badVersion text none)
  | .ok ranges => return ranges

def switch (sigil : Char) (wanted : VariantMatch) : Scan Condition := do
  bump
  return .variant (← nameAfter sigil) wanted

def version : Scan Condition := do
  bump
  return disj ((← versions).map .version)

def compiler : Scan Condition := do
  bump
  let name ← nameAfter '%'
  if (← peek) = some '@' then
    bump
    return .compiler name (← versions)
  else return .compiler name []

def value : Scan Condition := do
  let name ← takeWhile isNameChar
  if (← peek) = some '=' then
    bump
    match VariantValue.listed (← takeWhile isValueChar).toList with
    | [] => throw (.missingName '=')
    | values => return .variant name (.values values)
  else unexpected

def atom : Scan Condition := do
  match ← peek with
  | none => unexpected
  | some c =>
    if c = '+' then switch '+' .enabled
    else if c = '~' || c = '-' then switch c .disabled
    else if c = '@' then version
    else if c = '%' then compiler
    else if isAlphanumeric c then value
    else unexpected

/-- The atoms up to the next `^` or the end. -/
def atoms : (turns : Nat) → Scan (List Condition)
  | 0 => need none
  | turns + 1 => do
    match ← peekSignificant with
    | none => do skipBlanks; return []
    | some c =>
      skipBlanks
      if c = '^' then return []
      else
        let first ← atom
        return first :: (← atoms turns)

def dependencies : (turns : Nat) → Scan (List Condition)
  | 0 => need none
  | turns + 1 => do
    if (← peek) = some '^' then
      bump
      let name ← nameAfter '^'
      let parts ← atoms (← Scan.turns)
      return onDependency name parts :: (← dependencies turns)
    else return []

/-- A name at the front; where it turns out to be a variant with its values, the scanner goes back. -/
def leadingName : Scan (Option String) := do
  if (← peek).any isAlphanumeric then
    let start ← get
    let name ← takeWhile isNameChar
    if (← peek) = some '=' then
      set start
      return none
    else return some name
  else return none

/-- Atoms, and the conditions on dependencies behind them. -/
def rows (join : List Condition → List Condition → List Condition) : Scan (List Condition) := do
  let own ← atoms (← turns)
  let others ← dependencies (← turns)
  return join own others

def parts (package : String) : Scan (List Condition) := do
  match ← leadingName with
  | some name => rows fun own others => if name = package then own ++ others else onDependency name own :: others
  | none => rows fun own others => own ++ others

def condition (package : String) : Scan Condition := do
  skipBlanks
  if (← peek).isNone then throw .empty
  else return conj (← parts package)

def finish (r : Requirement) : Scan Requirement := do
  skipBlanks
  if (← peek).isSome then unexpected else return r

/-- Takes in one atom. Versions that are given again are reported at their sigil. -/
def demand (r : Requirement) : Scan Requirement := do
  let start ← get
  match r.add? (← atom) with
  | some r' => return r'
  | none => throw (.unexpected "@" start.offset)

def demands : (turns : Nat) → Requirement → Scan Requirement
  | 0, _ => need none
  | turns + 1, r => do
    match ← peekSignificant with
    | none => finish r
    | some c =>
      if c = '^' then finish r
      else
        skipBlanks
        demands turns (← demand r)

def target : Scan Requirement := do
  let name ← takeWhile isNameChar
  if name = "" then unexpected else demands (← turns) ⟨name, [], []⟩

def requirement : Scan Requirement := do
  skipBlanks
  if (← peek).isNone then throw .empty else target

/-! ## Texts that are read -/

section Texts

variable {c : Char} {cs rest : List Char}

theorem head?_ne (h : ∀ tail, rest = c :: tail → False) : rest.head? ≠ some c := by
  intro hhead
  obtain ⟨tail, rfl⟩ := List.head?_eq_some_iff.1 hhead
  exact h tail rfl

theorem head?_of_parseAtoms {own : List Condition} (h : parseAtoms cs = .ok (own, rest)) :
    rest.head?.all (· = '^') := by
  fun_induction parseAtoms cs generalizing own rest with
  | case1 => cases h; rfl
  | case2 => cases h; rfl
  | case3 => cases h
  | case4 cs c rest hc _ atom after ha ih =>
      obtain ⟨read, hread, heq⟩ := map_eq_ok h
      cases heq
      exact ih hread

theorem map_comm (read : Except Fault α) (f : α → β) :
    (read.map f).map (fun b => (b, ([] : List Char))) =
      (read.map fun a => (a, ([] : List Char))).map fun r => (f r.1, r.2) := by
  cases read <;> rfl

/-- Only versions can be left out of a requirement, and they start with their sigil. -/
theorem sigil_of_add? {r : Requirement} {read : Condition} (hread : parseAtom (c :: cs) = .ok (read, rest))
    (h : r.add? read = none) : c = '@' := by
  have switched {sigil : Char} {wanted : VariantMatch} (hread : switchAtom sigil wanted cs = .ok (read, rest)) :
      False := by
    obtain ⟨⟨name, _⟩, -, heq⟩ := map_eq_ok hread
    cases heq
    cases h
  rw [parseAtom] at hread
  split at hread
  · exact (switched hread).elim
  split at hread
  · exact (switched hread).elim
  split at hread
  · assumption
  split at hread
  · rw [compilerAtom] at hread
    split at hread
    · cases hread
    · obtain ⟨⟨ranges, _⟩, -, heq⟩ := map_eq_ok hread
      cases heq
      cases h
    · cases hread
      cases h
  split at hread
  · rw [valueAtom] at hread
    split at hread
    · split at hread
      · cases hread
      · cases hread
        cases h
    · cases hread
  · cases hread

/-- A target and its demands, read from the target's first character. -/
def readTarget (cs : List Char) : Except Fault Requirement :=
  if (cs.takeWhile isNameChar).isEmpty then .error (.unexpected cs)
  else Requirement.addAtoms ⟨(takeName cs).1, [], []⟩ (takeName cs).2

end Texts

/-! ## Readings -/

/-- An unexpected character is one of the text. -/
def IsWithin (cs : List Char) : Fault → Prop
  | .unexpected rest => rest <:+ cs
  | .missingName _ | .badVersion _ _ => True

/-- What is left is an end of the text, and so is what a fault names. -/
def Leaves (cs : List Char) : Except Fault (α × List Char) → Prop
  | .error e => IsWithin cs e
  | .ok (_, rest) => rest <:+ cs

/-- In front of the text the scanner does what a reading of it says. -/
structure Reads (m : Scan α) (s : String) (cs : List Char) (reading : Except Fault (α × List Char)) : Prop where
  run : cs <:+ s.toList → m.run (facing s cs) = outcome s reading
  leaves : Leaves cs reading

variable {s : String} {sigil c : Char} {cs rest : List Char} {a : α} {m : Scan α} {k : α → Scan β} {e : Fault}
  {first : Except Fault (α × List Char)} {reading : Except Fault (β × List Char)}

namespace Reads

theorem bind_ok (h : Reads m s cs (.ok (a, rest))) (hk : Reads (k a) s rest reading) :
    Reads (m >>= k) s cs reading where
  run hcs := (run_bind_ok (h.run hcs)).trans (hk.run (List.IsSuffix.trans h.leaves hcs))
  leaves := by
    have hrest : rest <:+ cs := h.leaves
    cases reading with
    | ok read => exact List.IsSuffix.trans hk.leaves hrest
    | error e =>
        cases e with
        | unexpected text => exact List.IsSuffix.trans hk.leaves hrest
        | missingName _ | badVersion _ _ => trivial

theorem bind_error (h : Reads m s cs (.error e)) : Reads (m >>= k) s cs (.error e) where
  run hcs := run_bind_error (h.run hcs)
  leaves := h.leaves

theorem bind (h : Reads m s cs first) (herror : ∀ e, first = .error e → reading = .error e)
    (hok : ∀ a rest, first = .ok (a, rest) → Reads (k a) s rest reading) : Reads (m >>= k) s cs reading := by
  cases first with
  | error e =>
      rw [herror e rfl]
      exact h.bind_error
  | ok read => exact h.bind_ok (hok read.1 read.2 rfl)

theorem bind_turns {k : Nat → Scan β} (h : ∀ turns, cs.length < turns → Reads (k turns) s cs reading) :
    Reads (turns >>= k) s cs reading where
  run hcs := (run_bind_ok run_turns).trans ((h _ (length_lt_turns hcs)).run hcs)
  leaves := (h (cs.length + 1) (Nat.lt_succ_self _)).leaves

theorem pure (a : α) (cs : List Char) : Reads (pure a) s cs (.ok (a, cs)) where
  run _ := rfl
  leaves := List.suffix_rfl

theorem map (h : Reads m s cs first) (f : α → β) :
    Reads (m >>= fun a => Pure.pure (f a)) s cs (first.map fun (a, rest) => (f a, rest)) := by
  cases first with
  | error e => exact h.bind_error
  | ok read => exact h.bind_ok (pure _ _)

theorem missingName (sigil : Char) (cs : List Char) :
    Reads (throw (.missingName sigil) : Scan α) s cs (.error (.missingName sigil)) where
  run _ := rfl
  leaves := trivial

theorem badVersion (input : String) (cause : Option Version.Error) (cs : List Char) :
    Reads (throw (.badVersion input cause) : Scan α) s cs (.error (.badVersion input cause)) where
  run _ := rfl
  leaves := trivial

theorem peek (cs : List Char) : Reads peek s cs (.ok (cs.head?, cs)) where
  run := run_peek
  leaves := List.suffix_rfl

theorem peekSignificant (cs : List Char) : Reads peekSignificant s cs (.ok ((trimStart cs).head?, cs)) where
  run := run_peekSignificant
  leaves := List.suffix_rfl

theorem bump (c : Char) (cs : List Char) : Reads bump s (c :: cs) (.ok ((), cs)) where
  run := run_bump
  leaves := List.suffix_cons c cs

theorem state (cs : List Char) : Reads get s cs (.ok (facing s cs, cs)) where
  run _ := rfl
  leaves := List.suffix_rfl

theorem takeWhile (p : Char → Bool) (cs : List Char) :
    Reads (takeWhile p) s cs (.ok (String.ofList (cs.takeWhile p), cs.dropWhile p)) where
  run := run_takeWhile p
  leaves := List.dropWhile_suffix p

theorem skipBlanks (cs : List Char) : Reads skipBlanks s cs (.ok ((), trimStart cs)) :=
  (takeWhile isBlank cs).bind_ok (pure () _)

theorem unexpected (cs : List Char) : Reads (unexpected : Scan α) s cs (.error (.unexpected cs)) where
  run hcs := by
    rw [Scan.unexpected, run_bind_ok (run_peek hcs)]
    cases cs <;> rfl
  leaves := List.suffix_rfl

/-! ## Atoms -/

theorem nameAfter (sigil : Char) (cs : List Char) :
    Reads (nameAfter sigil) s cs (Condition.nameAfter sigil cs) := by
  refine (takeWhile isNameChar cs).bind_ok ?_
  rw [Condition.nameAfter]
  cases hname : cs.takeWhile isNameChar with
  | nil => exact missingName sigil _
  | cons c name =>
      have hne : String.ofList (c :: name) ≠ "" := by simp
      rw [if_neg hne, takeName, hname]
      exact pure _ _

theorem versions (cs : List Char) : Reads versions s cs (takeVersions cs) := by
  refine (takeWhile isVersionChar cs).bind_ok ?_
  rw [takeVersions]
  cases VersionRange.parseList (String.ofList (cs.takeWhile isVersionChar)) with
  | error e => exact badVersion _ _ _
  | ok ranges =>
      cases ranges with
      | nil => exact badVersion _ _ _
      | cons range ranges => exact pure _ _

theorem switch (sigil c : Char) (wanted : VariantMatch) (cs : List Char) :
    Reads (switch sigil wanted) s (c :: cs) (switchAtom sigil wanted cs) :=
  (bump c cs).bind_ok ((nameAfter sigil cs).map _)

theorem version (c : Char) (cs : List Char) : Reads version s (c :: cs) (versionAtom cs) :=
  (bump c cs).bind_ok ((versions cs).map _)

theorem compiler (c : Char) (cs : List Char) : Reads compiler s (c :: cs) (compilerAtom cs) := by
  refine (bump c cs).bind_ok ((nameAfter '%' cs).bind (fun e hread => ?_) fun name rest hread => ?_)
  · rw [compilerAtom, hread]
  · generalize hreading : compilerAtom cs = reading
    rw [compilerAtom, hread] at hreading
    refine (peek rest).bind_ok ?_
    split at hreading
    · next h => cases h
    · next h =>
      cases h
      rw [← hreading]
      exact (bump '@' _).bind_ok ((versions _).map _)
    · next hnot h =>
      cases h
      rw [if_neg (head?_ne hnot), ← hreading]
      exact pure _ _

theorem value (cs : List Char) : Reads value s cs (valueAtom cs) := by
  generalize hreading : valueAtom cs = reading
  refine (takeWhile isNameChar cs).bind_ok ((peek _).bind_ok ?_)
  rw [valueAtom] at hreading
  split at hreading
  · next name rest hread =>
    have hname : String.ofList (cs.takeWhile isNameChar) = name := congrArg Prod.fst hread
    have hrest : cs.dropWhile isNameChar = '=' :: rest := congrArg Prod.snd hread
    rw [hname, hrest, List.head?_cons, if_pos rfl, ← hreading]
    refine (bump '=' rest).bind_ok ((takeWhile isValueChar rest).bind_ok ?_)
    rw [String.toList_ofList]
    cases VariantValue.listed (rest.takeWhile isValueChar) with
    | nil => exact missingName _ _
    | cons v values => exact pure _ _
  · next name rest hnot hread =>
    have hrest : cs.dropWhile isNameChar = rest := congrArg Prod.snd hread
    rw [hrest, if_neg (head?_ne hnot), ← hreading]
    exact unexpected rest

theorem atom (cs : List Char) : Reads atom s cs (parseAtom cs) := by
  refine (peek cs).bind_ok ?_
  cases cs with
  | nil => exact unexpected []
  | cons c cs =>
      rw [parseAtom]
      dsimp only [List.head?_cons]
      split
      · exact switch _ _ _ _
      split
      · exact switch _ _ _ _
      split
      · exact version _ _
      split
      · exact compiler _ _
      split
      · exact value _
      · exact unexpected _

/-! ## Loops -/

theorem atoms (turns : Nat) (h : cs.length < turns) : Reads (atoms turns) s cs (parseAtoms cs) := by
  induction turns generalizing cs with
  | zero => exact absurd h (Nat.not_lt_zero _)
  | succ turns ih =>
      have hlength : (trimStart cs).length ≤ cs.length := length_dropWhile_le _ _
      refine (peekSignificant cs).bind_ok ?_
      rw [parseAtoms_eq]
      cases htrim : trimStart cs with
      | nil =>
          refine (skipBlanks cs).bind_ok ?_
          rw [htrim]
          exact pure _ _
      | cons c rest =>
          refine (skipBlanks cs).bind_ok ?_
          rw [htrim] at hlength ⊢
          dsimp only
          split
          · exact pure _ _
          · refine (atom (c :: rest)).bind (fun e hread => ?_) fun first after hread => ?_
            · rw [hread]
            · rw [hread]
              have hshorter : after.length < (c :: rest).length := parseAtom_length hread
              exact (ih (by omega)).map _

theorem dependencies (turns : Nat) (h : cs.length < turns) (hend : cs.head?.all (· = '^')) :
    Reads (dependencies turns) s cs ((parseDependencies cs).map fun parts => (parts, [])) := by
  induction turns generalizing cs with
  | zero => exact absurd h (Nat.not_lt_zero _)
  | succ turns ih =>
      refine (peek cs).bind_ok ?_
      cases cs with
      | nil =>
          rw [parseDependencies_nil]
          exact pure _ _
      | cons c cs =>
          obtain rfl : c = '^' := by simpa using hend
          rw [List.head?_cons, if_pos rfl, parseDependencies_caret]
          refine (bump '^' cs).bind_ok ?_
          refine (nameAfter '^' cs).bind (fun e hread => ?_) fun name rest hread => ?_
          · rw [hread]
            rfl
          · rw [hread]
            refine bind_turns fun bound hbound => (atoms bound hbound).bind (fun e hown => ?_) fun own after hown => ?_
            · dsimp only
              rw [hown]
              rfl
            · have hname : rest.length ≤ cs.length := nameAfter_length hread
              have hatoms : after.length ≤ rest.length := parseAtoms_length rest hown
              rw [List.length_cons] at h
              dsimp only
              rw [hown, map_comm]
              exact (ih (by omega) (head?_of_parseAtoms hown)).map _

theorem leadingName (cs : List Char) :
    Reads leadingName s cs (.ok ((leadingName? cs).elim (none, cs) fun read => (some read.1, read.2))) where
  run hcs := by
    -- the scanner can go back here, so that its steps do not each leave an end of what the one before has left
    rw [Scan.leadingName, run_bind_ok (run_peek hcs), leadingName?]
    cases halpha : cs.head?.any isAlphanumeric with
    | false => rfl
    | true =>
        have hrest := (List.dropWhile_suffix isNameChar).trans hcs
        rw [if_pos rfl, run_bind_ok ((state cs).run hcs), run_bind_ok (run_takeWhile isNameChar hcs),
          run_bind_ok (run_peek hrest)]
        by_cases hequals : (cs.dropWhile isNameChar).head? = some '='
        · rw [if_pos hequals, if_pos hequals]
          rfl
        · rw [if_neg hequals, if_neg hequals]
          rfl
  leaves := by
    rw [leadingName?]
    split
    · exact List.suffix_rfl
    split
    · exact List.suffix_rfl
    · exact List.dropWhile_suffix isNameChar

theorem rows (join : List Condition → List Condition → List Condition) (cs : List Char) :
    Reads (rows join) s cs (Except.map (fun parts => (parts, []))
      (match parseAtoms cs with
      | .error e => .error e
      | .ok (own, after) => (parseDependencies after).map (join own))) := by
  refine bind_turns fun bound hbound => (atoms bound hbound).bind (fun e hown => ?_) fun own after hown => ?_
  · rw [hown]
    rfl
  · rw [hown, map_comm]
    exact bind_turns fun bound hbound => (dependencies bound hbound (head?_of_parseAtoms hown)).map _

theorem parts (package : String) (cs : List Char) :
    Reads (parts package) s cs ((parseParts package cs).map fun parts => (parts, [])) := by
  refine (leadingName cs).bind_ok ?_
  rw [parseParts]
  cases leadingName? cs with
  | some read => exact rows _ read.2
  | none => exact rows _ cs

/-! ## Requirements -/

theorem finish (r : Requirement) (cs : List Char) :
    Reads (finish r) s cs (if (trimStart cs).isEmpty then .ok (r, []) else .error (.unexpected (trimStart cs))) := by
  refine (skipBlanks cs).bind_ok ((peek _).bind_ok ?_)
  cases trimStart cs with
  | nil => exact pure _ _
  | cons c rest => exact unexpected _

theorem demand_error {r : Requirement} (hread : parseAtom cs = .error e) : Reads (demand r) s cs (.error e) := by
  have hatom := atom (s := s) cs
  rw [hread] at hatom
  exact (state cs).bind_ok hatom.bind_error

theorem demand_ok {r r' : Requirement} {read : Condition} (hread : parseAtom cs = .ok (read, rest))
    (hadd : r.add? read = some r') : Reads (demand r) s cs (.ok (r', rest)) := by
  have hatom := atom (s := s) cs
  rw [hread] at hatom
  refine (state cs).bind_ok (hatom.bind_ok ?_)
  rw [hadd]
  exact pure r' rest

theorem demand_again {r : Requirement} {read : Condition} (hread : parseAtom (c :: cs) = .ok (read, rest))
    (hadd : r.add? read = none) : Reads (demand r) s (c :: cs) (.error (.unexpected (c :: cs))) where
  run hcs := by
    obtain rfl := sigil_of_add? hread hadd
    have hatom := (atom (s := s) ('@' :: cs)).run hcs
    rw [hread] at hatom
    rw [Scan.demand, run_bind_ok ((state _).run hcs), run_bind_ok hatom, hadd]
    rfl
  leaves := List.suffix_rfl

theorem demands_cons {turns : Nat} {r : Requirement} {reading : Except Fault (Requirement × List Char)}
    (htrim : trimStart cs = c :: rest) (hcaret : c ≠ '^')
    (h : Reads (demand r >>= demands turns) s (c :: rest) reading) : Reads (demands (turns + 1) r) s cs reading := by
  refine (peekSignificant cs).bind_ok ?_
  rw [htrim, List.head?_cons]
  dsimp only
  rw [if_neg hcaret]
  refine (skipBlanks cs).bind_ok ?_
  rwa [htrim]

theorem demands (turns : Nat) (r : Requirement) (h : cs.length < turns) :
    Reads (demands turns r) s cs ((r.addAtoms cs).map fun r => (r, [])) := by
  obtain ⟨turns, rfl⟩ := Nat.exists_eq_add_one_of_ne_zero (Nat.ne_zero_of_lt h)
  -- every atom uses up a character at least, so that a turn is left for the end
  fun_induction Requirement.addAtoms r cs generalizing turns with
  | case1 r cs htrim | case2 r cs rest htrim =>
      refine (peekSignificant cs).bind_ok ?_
      have hfinish := finish (s := s) r cs
      rw [htrim] at hfinish ⊢
      exact hfinish
  | case3 r cs c rest htrim hcaret e hread => exact demands_cons htrim hcaret (demand_error hread).bind_error
  | case4 r cs c rest htrim hcaret read after hread r' hadd ih =>
      have hlength : (trimStart cs).length ≤ cs.length := length_dropWhile_le _ _
      rw [htrim] at hlength
      have hshorter : after.length < (c :: rest).length := parseAtom_length hread
      obtain ⟨turns, rfl⟩ := Nat.exists_eq_add_one_of_ne_zero (show turns ≠ 0 by omega)
      exact demands_cons htrim hcaret ((demand_ok hread hadd).bind_ok (ih turns (by omega)))
  | case5 r cs c rest htrim hcaret read after hread hadd =>
      exact demands_cons htrim hcaret (demand_again hread hadd).bind_error

theorem target (cs : List Char) : Reads target s cs ((readTarget cs).map fun r => (r, [])) := by
  refine (takeWhile isNameChar cs).bind_ok ?_
  have hsplit : cs.takeWhile isNameChar ++ cs.dropWhile isNameChar = cs := List.takeWhile_append_dropWhile
  rw [readTarget, takeName]
  cases hname : cs.takeWhile isNameChar with
  | nil =>
      rw [hname, List.nil_append] at hsplit
      rw [hsplit]
      exact unexpected cs
  | cons c name =>
      have hne : String.ofList (c :: name) ≠ "" := by simp
      rw [if_neg hne]
      exact bind_turns fun turns hturns => demands turns _ hturns

end Reads

end Scan

end PackageRecipes
