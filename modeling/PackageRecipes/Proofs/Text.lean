import PackageRecipes.Text

/-!
# Characters, lengths and pieces

Letters and digits are no white space, and in a text of ASCII characters each takes up one byte. What is cut at
separators is put together with them again, and the other way round.
-/

namespace PackageRecipes.Text

theorem isAlpha_toNat {c : Char} (h : c.isAlpha) : 65 ≤ c.toNat ∧ c.toNat ≤ 122 := by
  rcases Bool.or_eq_true_iff.1 h with upper | lower
  · have upper : 'A'.val ≤ c.val ∧ c.val ≤ 'Z'.val := of_decide_eq_true upper
    exact ⟨upper.1, Nat.le_trans upper.2 (by decide)⟩
  · have lower := Bool.and_eq_true_iff.1 lower
    have least : 'a'.val ≤ c.val := of_decide_eq_true lower.1
    have greatest : c.val ≤ 'z'.val := of_decide_eq_true lower.2
    exact ⟨Nat.le_trans (by decide) least, greatest⟩

theorem isDigit_toNat {c : Char} (h : c.isDigit) : 48 ≤ c.toNat ∧ c.toNat ≤ 57 := by
  have digit := Bool.and_eq_true_iff.1 h
  have least : '0'.val ≤ c.val := of_decide_eq_true digit.1
  have greatest : c.val ≤ '9'.val := of_decide_eq_true digit.2
  exact ⟨least, greatest⟩

theorem isAlphanumeric_toNat {c : Char} (h : isAlphanumeric c) : 48 ≤ c.toNat ∧ c.toNat ≤ 122 := by
  rcases Bool.or_eq_true_iff.1 h with letter | digit
  · have := isAlpha_toNat letter
    omega
  · have := isDigit_toNat digit
    omega

theorem isBlank_of_isAlphanumeric {c : Char} (h : isAlphanumeric c) : isBlank c = false := by
  have := isAlphanumeric_toNat h
  simp only [isBlank, Bool.or_eq_false_iff, Bool.and_eq_false_iff, decide_eq_false_iff_not,
    beq_eq_false_iff_ne]
  omega

theorem utf8Size_of_isAlphanumeric {c : Char} (h : isAlphanumeric c) : c.utf8Size = 1 := by
  rw [Char.utf8Size_eq_one_iff, UInt32.le_iff_toNat_le]
  exact Nat.le_trans (isAlphanumeric_toNat h).2 (by decide)

theorem isAlphanumeric_of_isAlpha {c : Char} (h : c.isAlpha) : isAlphanumeric c := by simp [isAlphanumeric, h]

theorem isAlphanumeric_of_isDigit {c : Char} (h : c.isDigit) : isAlphanumeric c := by simp [isAlphanumeric, h]

theorem isDigit_of_isAlpha {c : Char} (h : c.isAlpha) : c.isDigit = false := by
  have hletter := isAlpha_toNat h
  cases hdigit : c.isDigit with
  | true =>
      have := isDigit_toNat hdigit
      omega
  | false => rfl

theorem isHexDigit_iff_toNat {c : Char} : isHexDigit c ↔
    (48 ≤ c.toNat ∧ c.toNat ≤ 57) ∨ (97 ≤ c.toNat ∧ c.toNat ≤ 102) ∨ (65 ≤ c.toNat ∧ c.toNat ≤ 70) := by
  have hcode : c.val.toNat = c.toNat := rfl
  simp [isHexDigit, Char.isDigit, Char.le_def, UInt32.le_iff_toNat_le, hcode, or_assoc]

theorem isAlphanumeric_of_isHexDigit {c : Char} (h : isHexDigit c) : isAlphanumeric c := by
  rcases isHexDigit_iff_toNat.1 h with digit | lower | upper
  · exact isAlphanumeric_of_isDigit (Bool.and_eq_true_iff.2 ⟨decide_eq_true digit.1, decide_eq_true digit.2⟩)
  · have lower : c.isLower := Bool.and_eq_true_iff.2
      ⟨decide_eq_true lower.1, decide_eq_true (Nat.le_trans lower.2 (by decide))⟩
    exact isAlphanumeric_of_isAlpha (Bool.or_eq_true_iff.2 (.inr lower))
  · have upper : c.isUpper := decide_eq_true ⟨upper.1, Nat.le_trans upper.2 (by decide)⟩
    exact isAlphanumeric_of_isAlpha (Bool.or_eq_true_iff.2 (.inl upper))

/-- A run of decimal digits has the value that it is a numeral of. -/
theorem valueInBase_eq_ofDigitChars {digits : List Char} (h : ∀ c ∈ digits, c.isDigit) :
    valueInBase 10 digits = Nat.ofDigitChars 10 digits 0 := by
  have hfold (start : Nat) : digits.foldl (fun n c => 10 * n + hexValue c) start =
      Nat.ofDigitChars 10 digits start := by
    induction digits generalizing start with
    | nil => rfl
    | cons c cs ih =>
        rw [List.forall_mem_cons] at h
        rw [List.foldl_cons, Nat.ofDigitChars_cons, ih h.2, hexValue, if_pos h.1]
  exact hfold 0

theorem trimStart_cons {c : Char} (h : isBlank c = false) (cs : List Char) :
    trimStart (c :: cs) = c :: cs := by
  rw [trimStart, List.dropWhile_cons_of_neg (by simp [h])]

theorem byteLength_append (cs ds : List Char) :
    byteLength (cs ++ ds) = byteLength cs + byteLength ds := by
  induction cs with
  | nil => rw [List.nil_append, byteLength, Nat.zero_add]
  | cons c cs ih => rw [List.cons_append, byteLength, byteLength, ih, Nat.add_assoc]

theorem byteLength_eq_length {cs : List Char} (h : ∀ c ∈ cs, c.utf8Size = 1) :
    byteLength cs = cs.length := by
  induction cs with
  | nil => rfl
  | cons c cs ih =>
      rw [List.forall_mem_cons] at h
      rw [byteLength, h.1, ih h.2, List.length_cons, Nat.add_comm]

theorem utf8ByteSize_ofList (cs : List Char) : (String.ofList cs).utf8ByteSize = byteLength cs := by
  induction cs with
  | nil => rfl
  | cons c cs ih =>
      rw [String.ofList_cons, String.utf8ByteSize_append, String.utf8ByteSize_singleton, ih, byteLength]

theorem byteLength_toList (s : String) : byteLength s.toList = s.utf8ByteSize := by
  rw [← utf8ByteSize_ofList, String.ofList_toList]

theorem length_le_byteLength (cs : List Char) : cs.length ≤ byteLength cs := by
  induction cs with
  | nil => exact Nat.le_refl 0
  | cons c cs ih =>
      rw [List.length_cons, byteLength, Nat.add_comm]
      exact Nat.add_le_add c.utf8Size_pos ih

/-! ## Letter case -/

theorem toNat_toLower (c : Char) :
    c.toLower.toNat = if 65 ≤ c.toNat ∧ c.toNat ≤ 90 then c.toNat + 32 else c.toNat := by
  have hcapital : c.val ≥ 'A'.val ∧ c.val ≤ 'Z'.val ↔ 65 ≤ c.toNat ∧ c.toNat ≤ 90 := by
    rw [ge_iff_le, UInt32.le_iff_toNat_le, UInt32.le_iff_toNat_le]
    rfl
  delta Char.toLower
  split
  · next h =>
      rw [if_pos (hcapital.1 h)]
      show (c.toNat + 32) % 4294967296 = c.toNat + 32
      have := (hcapital.1 h).2
      omega
  · next h => rw [if_neg (mt hcapital.2 h)]

theorem toLower_toLower (c : Char) : c.toLower.toLower = c.toLower := by
  rw [← Char.toNat_inj, toNat_toLower c.toLower, toNat_toLower c]
  grind

theorem isHexDigit_toLower (c : Char) : isHexDigit c.toLower = isHexDigit c := by
  rw [Bool.eq_iff_iff, isHexDigit_iff_toNat, isHexDigit_iff_toNat, toNat_toLower]
  grind

/-- Texts that differ in the case of letters at most. -/
def SameLetters (s t : String) : Prop := s.toList.map Char.toLower = t.toList.map Char.toLower

instance (s t : String) : Decidable (SameLetters s t) := inferInstanceAs (Decidable (_ = _))

/-! ## Runs -/

section Runs

variable {p : Char → Bool} {run rest : List Char}

theorem takeWhile_run (h : ∀ c ∈ run, p c) (hrest : rest.head?.all (!p ·)) :
    (run ++ rest).takeWhile p = run := by
  rw [List.takeWhile_append_of_pos h]
  cases rest with
  | nil => simp
  | cons c cs => rw [List.takeWhile_cons_of_neg (by simpa using hrest), List.append_nil]

theorem dropWhile_run (h : ∀ c ∈ run, p c) (hrest : rest.head?.all (!p ·)) :
    (run ++ rest).dropWhile p = rest := by
  rw [List.dropWhile_append_of_pos h]
  cases rest with
  | nil => rfl
  | cons c cs => rw [List.dropWhile_cons_of_neg (by simpa using hrest)]

theorem head_dropWhile (p : Char → Bool) (cs : List Char) : (cs.dropWhile p).head?.all (!p ·) := by
  have hstop := List.head?_dropWhile_not p cs
  cases hhead : (cs.dropWhile p).head? with
  | none => rfl
  | some c => simpa [hhead] using hstop

theorem trim_eq_self (h : ∀ c ∈ run, isBlank c = false) : trim run = run := by
  have hdrop : ∀ cs : List Char, (∀ c ∈ cs, isBlank c = false) → cs.dropWhile isBlank = cs := by
    intro cs hcs
    cases cs with
    | nil => rfl
    | cons c cs => rw [List.dropWhile_cons_of_neg (by simp [hcs c List.mem_cons_self])]
  rw [trim, trimEnd, trimStart, hdrop run h, hdrop run.reverse (by simpa using h), List.reverse_reverse]

/-- Around what is left by trimming there is nothing but white space. -/
theorem exists_blanks (cs : List Char) :
    ∃ before after, cs = before ++ (trim cs ++ after) ∧ (∀ c ∈ before, isBlank c) ∧ ∀ c ∈ after, isBlank c := by
  refine ⟨cs.takeWhile isBlank, ((trimStart cs).reverse.takeWhile isBlank).reverse, ?_, ?_, ?_⟩
  · have hend : trim cs ++ ((trimStart cs).reverse.takeWhile isBlank).reverse = trimStart cs := by
      rw [trim, trimEnd, ← List.reverse_append, List.takeWhile_append_dropWhile, List.reverse_reverse]
    rw [hend, trimStart, List.takeWhile_append_dropWhile]
  · exact List.all_eq_true.1 List.all_takeWhile
  · simpa using List.all_eq_true.1 List.all_takeWhile

theorem trim_blanks {before after : List Char} (hbefore : ∀ c ∈ before, isBlank c) (hafter : ∀ c ∈ after, isBlank c)
    (hfirst : run.head?.any (!isBlank ·)) (hlast : run.getLast?.any (!isBlank ·)) :
    trim (before ++ (run ++ after)) = run := by
  have hstart : (run ++ after).head?.all (!isBlank ·) := by
    cases run with
    | nil => cases hfirst
    | cons c cs => exact hfirst
  have hend : run.reverse.head?.all (!isBlank ·) := by
    rw [List.head?_reverse]
    cases hrun : run.getLast? with
    | none => rfl
    | some c => simpa [hrun] using hlast
  rw [trim, trimStart, dropWhile_run hbefore hstart, trimEnd, List.reverse_append,
    dropWhile_run (by simpa using hafter) hend, List.reverse_reverse]

theorem mem_of_mem_trim {c : Char} (h : c ∈ trim run) : c ∈ run := by
  rw [trim, trimEnd, List.mem_reverse] at h
  have hstart : c ∈ trimStart run := List.mem_reverse.1 ((List.dropWhile_sublist _).subset h)
  exact (List.dropWhile_sublist _).subset hstart

end Runs

/-! ## Pieces -/

section Pieces

variable {sep : Char} {piece rest : List Char}

theorem pieces_ne_nil (isSep : Char → Bool) (cs : List Char) : pieces isSep cs ≠ [] := by
  cases cs with
  | nil => exact List.cons_ne_nil _ _
  | cons c cs =>
      rw [pieces]
      split
      · exact List.cons_ne_nil _ _
      · split <;> exact List.cons_ne_nil _ _

/-- The first piece starts as the text does, unless that starts with a separator. -/
theorem exists_pieces (isSep : Char → Bool) (cs : List Char) :
    ∃ first more, pieces isSep cs = first :: more ∧ ∀ c ∈ first.head?, c ∈ cs.head? ∧ isSep c = false := by
  cases cs with
  | nil => exact ⟨[], [], rfl, nofun⟩
  | cons c cs =>
      cases hc : isSep c with
      | true => exact ⟨[], pieces isSep cs, by rw [pieces, if_pos hc], nofun⟩
      | false =>
          obtain ⟨p, ps, hps⟩ := List.exists_cons_of_ne_nil (pieces_ne_nil isSep cs)
          refine ⟨c :: p, ps, by simp [pieces, hc, hps], fun d hd => ?_⟩
          obtain rfl : c = d := Option.some.inj hd
          exact ⟨rfl, hc⟩

theorem pieces_run {isSep : Char → Bool} {run rest first : List Char} {more : List (List Char)}
    (hrun : ∀ c ∈ run, isSep c = false) (h : pieces isSep rest = first :: more) :
    pieces isSep (run ++ rest) = (run ++ first) :: more := by
  induction run with
  | nil => exact h
  | cons c run ih =>
      rw [List.forall_mem_cons] at hrun
      simp [pieces, hrun.1, ih hrun.2]

theorem pieces_of_not_mem (h : sep ∉ piece) : pieces (· = sep) piece = [piece] := by
  induction piece with
  | nil => rfl
  | cons c cs ih =>
      rw [List.mem_cons, not_or] at h
      rw [pieces, if_neg (by simpa using Ne.symm h.1), ih h.2]

/-- A separator ends the piece in front of it, and a new one begins. -/
theorem pieces_separated (front rest : List Char) :
    pieces (· = sep) (front ++ sep :: rest) = pieces (· = sep) front ++ pieces (· = sep) rest := by
  induction front with
  | nil => simp [pieces]
  | cons c front ih =>
      by_cases hc : c = sep
      · simp [pieces, hc, ih]
      · obtain ⟨first, more, hfront⟩ := List.exists_cons_of_ne_nil (pieces_ne_nil (· = sep) front)
        simp [pieces, hc, ih, hfront]

theorem pieces_append (h : sep ∉ piece) (rest : List Char) :
    pieces (· = sep) (piece ++ sep :: rest) = piece :: pieces (· = sep) rest := by
  rw [pieces_separated, pieces_of_not_mem h, List.singleton_append]

theorem exists_pieces_concat {c : Char} (hc : c ≠ sep) (front : List Char) :
    ∃ init last, pieces (· = sep) (front ++ [c]) = init ++ [last ++ [c]] := by
  induction front with
  | nil => exact ⟨[], [], by simp [pieces, hc]⟩
  | cons d front ih =>
      obtain ⟨init, last, ih⟩ := ih
      by_cases hd : d = sep
      · exact ⟨[] :: init, last, by simp [pieces, hd, ih]⟩
      · cases init with
        | nil => exact ⟨[], d :: last, by simp [pieces, hd, ih]⟩
        | cons first init => exact ⟨(d :: first) :: init, last, by simp [pieces, hd, ih]⟩

theorem pieces_intercalate {texts : List (List Char)} (hne : texts ≠ []) (h : ∀ t ∈ texts, sep ∉ t) :
    pieces (· = sep) ([sep].intercalate texts) = texts := by
  induction texts with
  | nil => exact absurd rfl hne
  | cons t more ih =>
      rw [List.forall_mem_cons] at h
      cases more with
      | nil => rw [List.intercalate_singleton, pieces_of_not_mem h.1]
      | cons u us =>
          rw [List.intercalate_cons_cons, List.append_assoc, List.singleton_append, pieces_append h.1,
            ih (List.cons_ne_nil u us) h.2]

theorem forall_mem_intercalate {P : Char → Prop} {texts : List (List Char)} (hsep : P sep)
    (h : ∀ t ∈ texts, ∀ c ∈ t, P c) : ∀ c ∈ [sep].intercalate texts, P c := by
  induction texts with
  | nil => exact List.forall_mem_nil _
  | cons t more ih =>
      rw [List.forall_mem_cons] at h
      cases more with
      | nil => rw [List.intercalate_singleton]; exact h.1
      | cons u us =>
          rw [List.intercalate_cons_cons, List.append_assoc, List.forall_mem_append]
          exact ⟨h.1, List.forall_mem_cons.2 ⟨hsep, ih h.2⟩⟩

theorem cons_intercalate {texts : List (List Char)} (hne : texts ≠ []) :
    sep :: [sep].intercalate texts = texts.flatMap (sep :: ·) := by
  induction texts with
  | nil => exact absurd rfl hne
  | cons t more ih =>
      cases more with
      | nil => rw [List.intercalate_singleton, List.flatMap_singleton]
      | cons u us =>
          rw [List.intercalate_cons_cons, List.flatMap_cons, ← ih (List.cons_ne_nil u us)]
          simp

theorem mem_of_mem_pieces {isSep : Char → Bool} (h : piece ∈ pieces isSep rest) :
    ∀ c ∈ piece, c ∈ rest ∧ isSep c = false := by
  induction rest generalizing piece with
  | nil =>
      rw [pieces, List.mem_singleton] at h
      subst h
      exact List.forall_mem_nil _
  | cons d ds ih =>
      have later {piece : List Char} (h : piece ∈ pieces isSep ds) :
          ∀ c ∈ piece, c ∈ d :: ds ∧ isSep c = false :=
        fun c hc => ⟨List.mem_cons_of_mem d (ih h c hc).1, (ih h c hc).2⟩
      cases hd : isSep d with
      | true =>
          rw [pieces, if_pos hd, List.mem_cons] at h
          rcases h with rfl | h
          · exact List.forall_mem_nil _
          · exact later h
      | false =>
          rw [pieces, if_neg (by simp [hd])] at h
          cases hpieces : pieces isSep ds with
          | nil =>
              simp only [hpieces, List.mem_singleton] at h
              subst h
              simp [hd]
          | cons first more =>
              simp only [hpieces, List.mem_cons] at h
              rcases h with rfl | h
              · refine List.forall_mem_cons.2 ⟨⟨List.mem_cons_self, hd⟩, ?_⟩
                exact later (by rw [hpieces]; exact List.mem_cons_self)
              · exact later (by rw [hpieces]; exact List.mem_cons_of_mem first h)

theorem split_intercalate {between : String} (hsep : between.toList = [sep]) {parts : List String} (hne : parts ≠ [])
    (h : ∀ part ∈ parts, sep ∉ part.toList) : split sep (between.intercalate parts) = parts := by
  have hpieces : pieces (· = sep) ([sep].intercalate (parts.map String.toList)) = parts.map String.toList :=
    pieces_intercalate (by simpa using hne) (by simpa using h)
  rw [split, String.toList_intercalate, hsep, hpieces, List.map_map]
  exact List.map_id'' (fun part => String.ofList_toList) parts

/-- What is between the separators, without white space around it and without empty pieces. -/
def entries (sep : Char) (cs : List Char) : List (List Char) :=
  ((pieces (· = sep) cs).map trim).filter (!·.isEmpty)

/-- A piece that stays as it is between separators. -/
structure IsEntry (sep : Char) (piece : List Char) : Prop where
  nonempty : piece ≠ []
  solid : ∀ c ∈ piece, isBlank c = false ∧ c ≠ sep

theorem mem_of_mem_entries (h : piece ∈ entries sep rest) :
    piece ≠ [] ∧ ∀ c ∈ piece, c ∈ rest ∧ c ≠ sep := by
  obtain ⟨hmem, hne⟩ := List.mem_filter.1 h
  obtain ⟨whole, hwhole, rfl⟩ := List.mem_map.1 hmem
  refine ⟨by simpa using hne, fun c hc => ?_⟩
  obtain ⟨hrest, hsep⟩ := mem_of_mem_pieces hwhole c (mem_of_mem_trim hc)
  exact ⟨hrest, by simpa using hsep⟩

/-- Entries that are put together with separators are found again. -/
theorem entries_intercalate {texts : List (List Char)} (h : ∀ t ∈ texts, IsEntry sep t) :
    entries sep ([sep].intercalate texts) = texts := by
  cases texts with
  | nil => rfl
  | cons t more =>
      have hpieces : pieces (· = sep) ([sep].intercalate (t :: more)) = t :: more :=
        pieces_intercalate (List.cons_ne_nil t more) fun u hu hsep => ((h u hu).solid sep hsep).2 rfl
      have htrim : (t :: more).map trim = (t :: more).map id :=
        List.map_congr_left fun u hu => trim_eq_self fun c hc => ((h u hu).solid c hc).1
      rw [entries, hpieces, htrim, List.map_id, List.filter_eq_self]
      exact fun u hu => by simpa using (h u hu).nonempty

theorem cutAt_append (h : sep ∉ piece) (rest : List Char) :
    cutAt sep (piece ++ sep :: rest) = some (piece, rest) := by
  induction piece with
  | nil => rw [List.nil_append, cutAt, if_pos rfl]
  | cons c cs ih =>
      rw [List.mem_cons, not_or] at h
      rw [List.cons_append, cutAt, if_neg (Ne.symm h.1), ih h.2, Option.map_some]

theorem cutAt_of_not_mem (h : sep ∉ piece) : cutAt sep piece = none := by
  induction piece with
  | nil => rfl
  | cons c cs ih =>
      rw [List.mem_cons, not_or] at h
      rw [cutAt, if_neg (Ne.symm h.1), ih h.2, Option.map_none]

end Pieces

/-! ## Fixed beginnings -/

theorem dropPrefix?_append (start rest : List Char) : dropPrefix? start (start ++ rest) = some rest := by
  induction start with
  | nil => cases rest <;> rfl
  | cons c start ih => rw [List.cons_append, dropPrefix?, if_pos rfl, ih]

theorem after?_append (start rest : String) : after? start (start ++ rest) = some rest := by
  rw [after?, String.toList_append, dropPrefix?_append, Option.map_some, String.ofList_toList]

end PackageRecipes.Text
