import PackageRecipes.Proofs.Version.Reading

/-!
# The segments of a label

A label is read as the maximal runs of digits and of letters in it, whatever separators stand between them. The
segments written out with dots between them are a label of the same version.
-/

namespace PackageRecipes.Version

open Text

/-! ## What a text spells -/

/-- A run of characters of one kind that goes on as far as it can. -/
structure IsRun (kind : Char → Bool) (run rest : List Char) : Prop where
  nonempty : run ≠ []
  chars : ∀ c ∈ run, kind c
  ended : rest.head?.all (!kind ·)

/-- The segments that a text spells: its maximal runs of digits and of letters, from left to right. Digits are a number
if it fits in 64 bits. -/
inductive Spells : List Char → List Segment → Prop where
  | nil : Spells [] []
  | separator {c : Char} {rest : List Char} {segments : List Segment} (hc : isSeparator c)
      (h : Spells rest segments) : Spells (c :: rest) segments
  | number {run rest : List Char} {segments : List Segment} (hrun : IsRun Char.isDigit run rest)
      (hfits : Nat.ofDigitChars 10 run 0 < wordBound) (h : Spells rest segments) :
      Spells (run ++ rest) (.number (Nat.ofDigitChars 10 run 0) :: segments)
  | overlong {run rest : List Char} {segments : List Segment} (hrun : IsRun Char.isDigit run rest)
      (hlong : wordBound ≤ Nat.ofDigitChars 10 run 0) (h : Spells rest segments) :
      Spells (run ++ rest) (.text (String.ofList run) :: segments)
  | letters {run rest : List Char} {segments : List Segment} (hrun : IsRun Char.isAlpha run rest)
      (h : Spells rest segments) : Spells (run ++ rest) (.text (String.ofList run) :: segments)

variable {run rest cs : List Char} {segments : List Segment} {kind : Char → Bool} {a b c : Char}

theorem isSeparator_of_isAlphanumeric (h : isAlphanumeric c) : isSeparator c = false := by
  have hne (sep : Char) (hsep : isAlphanumeric sep = false) : c ≠ sep := by
    rintro rfl
    rw [hsep] at h
    cases h
  simp [isSeparator, hne '.' (by decide), hne '-' (by decide), hne '_' (by decide)]

theorem isLabelChar_of_isAlphanumeric (h : isAlphanumeric c) : isLabelChar c := by simp [isLabelChar, h]

theorem Spells.chars (h : Spells cs segments) : ∀ c ∈ cs, isLabelChar c := by
  have digits {run rest : List Char} (hrun : IsRun Char.isDigit run rest) : ∀ c ∈ run, isLabelChar c :=
    fun c hc => isLabelChar_of_isAlphanumeric (isAlphanumeric_of_isDigit (hrun.chars c hc))
  induction h with
  | nil => exact List.forall_mem_nil _
  | separator hc _ ih => exact List.forall_mem_cons.2 ⟨by simp [isLabelChar, hc], ih⟩
  | number hrun _ _ ih => exact List.forall_mem_append.2 ⟨digits hrun, ih⟩
  | overlong hrun _ _ ih => exact List.forall_mem_append.2 ⟨digits hrun, ih⟩
  | letters hrun _ ih =>
      refine List.forall_mem_append.2 ⟨fun c hc => ?_, ih⟩
      exact isLabelChar_of_isAlphanumeric (isAlphanumeric_of_isAlpha (hrun.chars c hc))

/-! ## Runs -/

/-- Among letters and digits, letters go with letters and digits with digits. -/
structure Uniform (kind : Char → Bool) : Prop where
  alphanumeric : ∀ c, kind c → isAlphanumeric c
  isDigit : ∀ a b, kind a → isAlphanumeric b → (a.isDigit == b.isDigit) = kind b

theorem uniform_isDigit : Uniform Char.isDigit where
  alphanumeric _ := isAlphanumeric_of_isDigit
  isDigit a b ha _ := by simp [ha]

theorem uniform_isAlpha : Uniform Char.isAlpha where
  alphanumeric _ := isAlphanumeric_of_isAlpha
  isDigit a b ha hb := by
    rw [isDigit_of_isAlpha ha]
    cases halpha : b.isAlpha with
    | true => rw [isDigit_of_isAlpha halpha]; rfl
    | false =>
        rw [isAlphanumeric, halpha, Bool.false_or] at hb
        rw [hb]
        rfl

/-- A run is split off where the next character is of another kind. -/
theorem splitRuns_run (huniform : Uniform kind) (hrun : ∀ c ∈ run, kind c) (ha : kind a) {current piece : List Char}
    (hcurrent : current ≠ []) (hpiece : ∀ c ∈ piece.head?, isAlphanumeric c ∧ kind c = false) :
    splitRuns current (some a.isDigit) (run ++ piece) = (current ++ run) :: splitRuns [] none piece := by
  induction run generalizing current with
  | nil =>
      rw [List.nil_append, List.append_nil]
      cases piece with
      | nil => simp [splitRuns, hcurrent]
      | cons c piece =>
          obtain ⟨hc, hkind⟩ := hpiece c rfl
          have hother : (a.isDigit != c.isDigit) = true := by rw [bne, huniform.isDigit a c ha hc, hkind]; rfl
          simp [splitRuns, hother]
  | cons c run ih =>
      rw [List.forall_mem_cons] at hrun
      have hdigit := huniform.isDigit a c ha (huniform.alphanumeric c hrun.1)
      rw [hrun.1, beq_iff_eq] at hdigit
      rw [List.cons_append, splitRuns, ← hdigit]
      simp only [Option.any_some, bne_self_eq_false, Bool.false_eq_true, ↓reduceIte]
      rw [ih hrun.2 (by simp), List.append_assoc, List.singleton_append]

theorem runs_eq (cs : List Char) : runs cs = (pieces isSeparator cs).flatMap (splitRuns [] none) := by
  rw [runs]
  induction pieces isSeparator cs with
  | nil => rfl
  | cons piece more ih =>
      cases piece with
      | nil => simpa [splitRuns] using ih
      | cons c piece => simp [ih]

theorem runs_run (huniform : Uniform kind) (hrun : IsRun kind run rest) (hrest : ∀ c ∈ rest, isLabelChar c) :
    runs (run ++ rest) = run :: runs rest := by
  obtain ⟨piece, more, hpieces, hhead⟩ := exists_pieces isSeparator rest
  have hseparators : ∀ c ∈ run, isSeparator c = false :=
    fun c hc => isSeparator_of_isAlphanumeric (huniform.alphanumeric c (hrun.chars c hc))
  have hpiece (c : Char) (hc : c ∈ piece.head?) : isAlphanumeric c ∧ kind c = false := by
    obtain ⟨hfirst, hsep⟩ := hhead c hc
    have hlabel := hrest c (List.mem_of_mem_head? hfirst)
    rw [isLabelChar, hsep, Bool.or_false] at hlabel
    exact ⟨hlabel, by simpa using (Option.all_eq_true _ _).1 hrun.ended c hfirst⟩
  obtain ⟨c, cs, rfl⟩ := List.exists_cons_of_ne_nil hrun.nonempty
  have hchars := List.forall_mem_cons.1 hrun.chars
  have hfirst : splitRuns [] none (c :: cs ++ piece) = (c :: cs) :: splitRuns [] none piece :=
    splitRuns_run huniform hchars.2 hchars.1 (List.cons_ne_nil c []) hpiece
  rw [runs_eq, pieces_run hseparators hpieces, List.flatMap_cons, hfirst, runs_eq, hpieces, List.flatMap_cons,
    List.cons_append]

theorem runs_separator (h : isSeparator c) (rest : List Char) : runs (c :: rest) = runs rest := by
  rw [runs, pieces, if_pos h]
  rfl

theorem Uniform.not_isSeparator (huniform : Uniform kind) (h : isSeparator c) : kind c = false := by
  cases hkind : kind c with
  | true => rw [isSeparator_of_isAlphanumeric (huniform.alphanumeric c hkind)] at h; cases h
  | false => rfl

/-! ## The segments of a label -/

theorem ofRun_digits (h : ∀ c ∈ run, c.isDigit) :
    Segment.ofRun run =
      if Nat.ofDigitChars 10 run 0 < wordBound then .number (Nat.ofDigitChars 10 run 0)
      else .text (String.ofList run) := by
  have hall : run.all Char.isDigit := List.all_eq_true.2 h
  rw [Segment.ofRun, hall, valueInBase_eq_ofDigitChars h, Bool.true_and]
  simp only [decide_eq_true_eq]

theorem ofRun_letters (hne : run ≠ []) (h : ∀ c ∈ run, c.isAlpha) : Segment.ofRun run = .text (String.ofList run) := by
  obtain ⟨c, cs, rfl⟩ := List.exists_cons_of_ne_nil hne
  have hdigit : c.isDigit = false := isDigit_of_isAlpha (h c List.mem_cons_self)
  simp [Segment.ofRun, hdigit]

theorem segmentsOf_run (huniform : Uniform kind) (hrun : IsRun kind run rest) (hrest : ∀ c ∈ rest, isLabelChar c) :
    segmentsOf (run ++ rest) = Segment.ofRun run :: segmentsOf rest := by
  rw [segmentsOf, runs_run huniform hrun hrest, List.map_cons]
  rfl

theorem Spells.eq_segmentsOf (h : Spells cs segments) : segments = segmentsOf cs := by
  induction h with
  | nil => rfl
  | separator hc h ih => rw [segmentsOf, runs_separator hc, ih, segmentsOf]
  | number hrun hfits h ih =>
      rw [segmentsOf_run uniform_isDigit hrun h.chars, ofRun_digits hrun.chars, if_pos hfits, ih]
  | overlong hrun hlong h ih =>
      rw [segmentsOf_run uniform_isDigit hrun h.chars, ofRun_digits hrun.chars, if_neg (Nat.not_lt.2 hlong), ih]
  | letters hrun h ih =>
      rw [segmentsOf_run uniform_isAlpha hrun h.chars, ofRun_letters hrun.nonempty hrun.chars, ih]

theorem isRun_takeWhile (h : kind c) (cs : List Char) :
    IsRun kind ((c :: cs).takeWhile kind) ((c :: cs).dropWhile kind) where
  nonempty := by simp [List.takeWhile_cons_of_pos h]
  chars := List.all_eq_true.1 List.all_takeWhile
  ended := head_dropWhile _ _

theorem exists_spells_run (hc : isAlphanumeric c)
    (hrest : ∀ kind : Char → Bool, kind c → ∃ segments, Spells ((c :: cs).dropWhile kind) segments) :
    ∃ segments, Spells (c :: cs) segments := by
  have hsplit (kind : Char → Bool) : c :: cs = (c :: cs).takeWhile kind ++ (c :: cs).dropWhile kind :=
    List.takeWhile_append_dropWhile.symm
  rcases Bool.or_eq_true_iff.1 hc with hletter | hdigit
  · obtain ⟨segments, hspells⟩ := hrest Char.isAlpha hletter
    rw [hsplit Char.isAlpha]
    exact ⟨_, .letters (isRun_takeWhile hletter cs) hspells⟩
  · obtain ⟨segments, hspells⟩ := hrest Char.isDigit hdigit
    have hrun := isRun_takeWhile hdigit cs
    rw [hsplit Char.isDigit]
    rcases Nat.lt_or_ge (Nat.ofDigitChars 10 ((c :: cs).takeWhile Char.isDigit) 0) wordBound with hfits | hlong
    · exact ⟨_, .number hrun hfits hspells⟩
    · exact ⟨_, .overlong hrun hlong hspells⟩

theorem exists_spells (h : ∀ c ∈ cs, isLabelChar c) : ∃ segments, Spells cs segments := by
  -- on the length, since what follows a run is more than one character on
  induction hlength : cs.length using Nat.strongRecOn generalizing cs with
  | _ n ih =>
      cases cs with
      | nil => exact ⟨[], .nil⟩
      | cons c cs =>
          have later {rest : List Char} (hrest : rest.Sublist cs) : ∃ segments, Spells rest segments := by
            refine ih _ ?_ (fun d hd => h d (List.mem_cons_of_mem c (hrest.subset hd))) rfl
            rw [← hlength]
            exact Nat.lt_succ_of_le hrest.length_le
          rcases Bool.or_eq_true_iff.1 (h c List.mem_cons_self) with hrun | hsep
          · refine exists_spells_run hrun fun kind hkind => ?_
            rw [List.dropWhile_cons_of_pos hkind]
            exact later (List.dropWhile_sublist _)
          · obtain ⟨segments, hspells⟩ := later (List.Sublist.refl cs)
            exact ⟨segments, .separator hsep hspells⟩

/-- Every text in the characters of labels spells one list of segments, and no other text spells any. -/
theorem spells_iff : Spells cs segments ↔ (∀ c ∈ cs, isLabelChar c) ∧ segments = segmentsOf cs := by
  constructor
  · exact fun h => ⟨h.chars, h.eq_segmentsOf⟩
  · rintro ⟨hchars, rfl⟩
    obtain ⟨segments, h⟩ := exists_spells hchars
    rw [← h.eq_segmentsOf]
    exact h

theorem Spells.ne_nil_iff (h : Spells cs segments) : segments ≠ [] ↔ ∃ c ∈ cs, isAlphanumeric c := by
  have first {kind : Char → Bool} {run rest : List Char} (huniform : Uniform kind) (hrun : IsRun kind run rest) :
      ∃ c ∈ run ++ rest, isAlphanumeric c := by
    obtain ⟨c, hc⟩ := List.exists_mem_of_ne_nil run hrun.nonempty
    exact ⟨c, List.mem_append_left rest hc, huniform.alphanumeric c (hrun.chars c hc)⟩
  induction h with
  | nil => simp
  | @separator c rest segments hc _ ih =>
      have hnot : ¬ isAlphanumeric c := by
        intro halpha
        rw [isSeparator_of_isAlphanumeric halpha] at hc
        cases hc
      refine ih.trans ?_
      simp [hnot]
  | number hrun => exact iff_of_true (List.cons_ne_nil _ _) (first uniform_isDigit hrun)
  | overlong hrun => exact iff_of_true (List.cons_ne_nil _ _) (first uniform_isDigit hrun)
  | letters hrun => exact iff_of_true (List.cons_ne_nil _ _) (first uniform_isAlpha hrun)

/-- What is read as a version is its label and what the label spells. -/
theorem parse_ok_iff {s : String} {v : Version} :
    parse s = .ok v ↔ v.label.toList = trim s.toList ∧ Spells (trim s.toList) v.segments ∧ v.segments ≠ [] := by
  constructor
  · intro h
    have hlegible := legible_of_parse h
    rw [← label_of_parse h, spells_iff]
    exact ⟨rfl, ⟨hlegible.chars, hlegible.segments⟩, hlegible.nonempty⟩
  · rintro ⟨hlabel, hspells, hne⟩
    rw [← hlabel, spells_iff] at hspells
    have hlegible : v.Legible := ⟨hspells.1, hspells.2, hne⟩
    exact hlegible.parse_of_trim hlabel

/-! ## Dots between the segments -/

theorem Uniform.isRun (huniform : Uniform kind) (hne : run ≠ []) (hchars : ∀ c ∈ run, kind c)
    (hrest : rest.head?.all isSeparator) : IsRun kind run rest := by
  refine ⟨hne, hchars, ?_⟩
  rw [Option.all_eq_true] at hrest ⊢
  intro c hc
  simp [huniform.not_isSeparator (hrest c hc)]

/-- Of the numerals of a number, the one without leading zeros is as good as any other. -/
theorem Spells.numeral {n : Nat} (h : Spells rest segments) (hfits : n < wordBound)
    (hrest : rest.head?.all isSeparator) : Spells (Nat.toDigits 10 n ++ rest) (.number n :: segments) := by
  have hvalue : Nat.ofDigitChars 10 (Nat.toDigits 10 n) 0 = n := Nat.ofDigitChars_ten_toDigits
  have hdigits : ∀ c ∈ Nat.toDigits 10 n, c.isDigit := fun c => Nat.isDigit_of_mem_toDigits (by decide) (by decide)
  have hrun := uniform_isDigit.isRun Nat.toDigits_ne_nil hdigits hrest
  have hspelled := Spells.number hrun (by rwa [hvalue]) h
  rwa [hvalue] at hspelled

/-- The segments with dots between them. -/
def dotted (segments : List Segment) : List Char := ['.'].intercalate (segments.map (·.render.toList))

theorem dotted_cons {segment : Segment}
    (h : ∀ rest, rest.head?.all isSeparator → Spells rest segments →
      Spells (segment.render.toList ++ rest) (segment :: segments))
    (hlater : Spells (dotted segments) segments) : Spells (dotted (segment :: segments)) (segment :: segments) := by
  cases segments with
  | nil =>
      rw [dotted, List.map_cons, List.map_nil, List.intercalate_singleton]
      simpa using h [] rfl .nil
  | cons next more =>
      rw [dotted, List.map_cons, List.map_cons, List.intercalate_cons_cons, List.append_assoc]
      exact h _ rfl (.separator rfl hlater)

/-- Segments that a text spells are spelled with dots between them as well. -/
theorem Spells.dotted (h : Spells cs segments) : Spells (dotted segments) segments := by
  induction h with
  | nil => exact .nil
  | separator _ _ ih => exact ih
  | @number run _ _ _ hfits _ ih =>
      refine dotted_cons (fun rest hrest hspells => ?_) ih
      rw [Segment.render, Nat.toList_repr]
      exact hspells.numeral hfits hrest
  | overlong hrun hlong _ ih =>
      refine dotted_cons (fun rest hrest hspells => ?_) ih
      rw [Segment.render, String.toList_ofList]
      exact .overlong (uniform_isDigit.isRun hrun.nonempty hrun.chars hrest) hlong hspells
  | letters hrun _ ih =>
      refine dotted_cons (fun rest hrest hspells => ?_) ih
      rw [Segment.render, String.toList_ofList]
      exact .letters (uniform_isAlpha.isRun hrun.nonempty hrun.chars hrest) hspells

/-! ## Labels as segments -/

variable {s : String} {v : Version}

theorem exists_parse_iff :
    (∃ v, parse s = .ok v) ↔ (∀ c ∈ trim s.toList, isLabelChar c) ∧ ∃ c ∈ trim s.toList, isAlphanumeric c := by
  constructor
  · rintro ⟨v, hparse⟩
    obtain ⟨-, hspells, hne⟩ := parse_ok_iff.1 hparse
    exact ⟨hspells.chars, hspells.ne_nil_iff.1 hne⟩
  · rintro ⟨hlabel, hsome⟩
    obtain ⟨segments, hspells⟩ := exists_spells hlabel
    refine ⟨⟨String.ofList (trim s.toList), segments⟩, parse_ok_iff.2 ⟨String.toList_ofList, hspells, ?_⟩⟩
    exact hspells.ne_nil_iff.2 hsome

theorem parse_dotted (h : parse s = .ok v) :
    ∃ w, parse (".".intercalate (v.segments.map Segment.render)) = .ok w ∧ w.same v := by
  obtain ⟨-, hspells, hne⟩ := parse_ok_iff.1 h
  have hdotted := hspells.dotted
  have htext : (".".intercalate (v.segments.map Segment.render)).toList = dotted v.segments := by
    rw [String.toList_intercalate, List.map_map]
    rfl
  have htrim : trim (dotted v.segments) = dotted v.segments :=
    trim_eq_self fun c hc => isBlank_of_isLabelChar (hdotted.chars c hc)
  refine ⟨⟨String.ofList (dotted v.segments), v.segments⟩, parse_ok_iff.2 ?_, beq_self_eq_true v.segments⟩
  rw [htext, htrim]
  exact ⟨String.toList_ofList, hdotted, hne⟩

/-- What is read as a version, what its segments are, and that they are the same version with dots between them. -/
theorem parse_segmented (s : String) :
    ((∃ v, parse s = .ok v) ↔
        (∀ c ∈ trim s.toList, isAlphanumeric c ∨ c = '.' ∨ c = '-' ∨ c = '_') ∧
          ∃ c ∈ trim s.toList, isAlphanumeric c) ∧
      ∀ v, parse s = .ok v →
        (∀ segments, Spells (trim s.toList) segments ↔ segments = v.segments) ∧
          ∃ w, parse (".".intercalate (v.segments.map Segment.render)) = .ok w ∧ w.same v := by
  have hchars (c : Char) : isAlphanumeric c ∨ c = '.' ∨ c = '-' ∨ c = '_' ↔ isLabelChar c := by
    simp only [isLabelChar, isSeparator, Bool.or_eq_true, decide_eq_true_eq, or_assoc]
  simp only [hchars]
  refine ⟨exists_parse_iff, fun v hparse => ⟨fun segments => ?_, parse_dotted hparse⟩⟩
  obtain ⟨-, hspells, -⟩ := parse_ok_iff.1 hparse
  rw [spells_iff, hspells.eq_segmentsOf]
  exact and_iff_right hspells.chars

/-- Separators in a row, a number with zeros in front of it and one that does not fit. -/
def padded : Version :=
  ⟨"007rc2--18446744073709551616_b", [.number 7, .text "rc", .number 2, .text "18446744073709551616", .text "b"]⟩

theorem segmented_padded :
    parse " 007rc2--18446744073709551616_b " = .ok padded ∧
      Spells (trim " 007rc2--18446744073709551616_b ".toList) padded.segments ∧
        ∃ w, parse "7.rc.2.18446744073709551616.b" = .ok w ∧ w.same padded := by
  have hparse : parse " 007rc2--18446744073709551616_b " = .ok padded := by decide +kernel
  obtain ⟨hspells, hjoined⟩ := (parse_segmented " 007rc2--18446744073709551616_b ").2 padded hparse
  exact ⟨hparse, (hspells padded.segments).2 rfl, hjoined⟩

end PackageRecipes.Version
