import PackageRecipes.Build.FileSteps
import PackageRecipes.Proofs.Regex.Escape
import PackageRecipes.Proofs.Text

/-!
# Replacing a text

Where an expression stands for a text, its matches are the occurrences of the text. A text without a line break occurs
within lines only, so to replace it line by line is to replace it everywhere.
-/

namespace PackageRecipes

open Text

/-- The text with the occurrences of `sought` replaced: the first one, and then those behind it. -/
inductive Replaced (sought replacement : List Char) : List Char → List Char → Prop where
  | absent {text : List Char} (h : ¬ sought <:+: text) : Replaced sought replacement text text
  | first {before rest edited : List Char}
      (hfirst : ∀ start < before.length, ¬ sought <+: (before ++ sought ++ rest).drop start)
      (hrest : Replaced sought replacement rest edited) :
      Replaced sought replacement (before ++ sought ++ rest) (before ++ replacement ++ edited)

variable {sought replacement text edited other after : List Char} {sep : Char}

/-! ## Occurrences -/

theorem prefix_of_separated (front : List Char) (hsep : sep ∉ sought) (h : sought <+: front ++ sep :: after) :
    sought <+: front := by
  rcases List.prefix_or_prefix_of_prefix h (List.prefix_append front (sep :: after)) with hwithin | ⟨more, rfl⟩
  · exact hwithin
  · rw [List.prefix_append_right_inj] at h
    cases more with
    | nil => simp
    | cons c cs =>
        obtain rfl : c = sep := (List.cons_prefix_cons.1 h).1
        simp at hsep

namespace Replaced

/-- A character at which no occurrence starts stays. -/
theorem cons {c : Char} (hnot : ¬ sought <+: c :: text) (h : Replaced sought replacement text edited) :
    Replaced sought replacement (c :: text) (c :: edited) := by
  cases h with
  | absent habsent =>
      refine .absent fun h => ?_
      rcases List.infix_cons_iff.1 h with h | h
      · exact hnot h
      · exact habsent h
  | @first before rest edited hfirst hrest =>
      have hlater : ∀ start < (c :: before).length, ¬ sought <+: ((c :: before) ++ sought ++ rest).drop start := by
        intro start hstart
        cases start with
        | zero => exact hnot
        | succ start => exact hfirst start (Nat.lt_of_succ_lt_succ hstart)
      exact .first hlater hrest

theorem unique (h : Replaced sought replacement text edited) (h' : Replaced sought replacement text other) :
    other = edited := by
  induction h generalizing other with
  | absent habsent =>
      cases h' with
      | absent _ => rfl
      | first _ _ => exact absurd ⟨_, _, rfl⟩ habsent
  | @first before rest edited hfirst hrest ih =>
      generalize htext : before ++ sought ++ rest = text at h'
      cases h' with
      | absent habsent => exact absurd ⟨before, rest, htext⟩ habsent
      | @first before' rest' edited' hfirst' hrest' =>
          have occurs (front back : List Char) : sought <+: (front ++ sought ++ back).drop front.length := by
            rw [List.append_assoc, List.drop_left]
            exact List.prefix_append sought back
          -- neither of the two first occurrences is in front of the other
          have hle : before'.length ≤ before.length :=
            Nat.le_of_not_lt fun hlt => hfirst' before.length hlt (htext ▸ occurs before rest)
          have hge : before.length ≤ before'.length :=
            Nat.le_of_not_lt fun hlt => hfirst before'.length hlt (htext ▸ occurs before' rest')
          rw [List.append_assoc, List.append_assoc] at htext
          obtain ⟨rfl, hbehind⟩ := List.append_inj htext (Nat.le_antisymm hge hle)
          obtain rfl : rest = rest' := List.append_cancel_left hbehind
          rw [ih hrest']

/-- A separator that does not occur in `sought` keeps apart what is replaced on its two sides. -/
theorem separated {editedAfter : List Char} (hsep : sep ∉ sought) (h : Replaced sought replacement text edited)
    (hafter : Replaced sought replacement after editedAfter) :
    Replaced sought replacement (text ++ sep :: after) (edited ++ sep :: editedAfter) := by
  induction h with
  | @absent text habsent =>
      induction text with
      | nil => exact hafter.cons fun h => habsent (prefix_of_separated [] hsep h).isInfix
      | cons c text ih =>
          have hnot : ¬ sought <+: (c :: text) ++ sep :: after :=
            fun h => habsent (prefix_of_separated (c :: text) hsep h).isInfix
          exact (ih fun h => habsent (List.infix_cons h)).cons hnot
  | @first before rest edited hfirst hrest ih =>
      have hassoc (middle back last : List Char) :
          before ++ middle ++ back ++ sep :: last = before ++ middle ++ (back ++ sep :: last) := by simp
      rw [hassoc, hassoc]
      refine .first (fun start hstart h => hfirst start hstart ?_) ih
      have hlength : start ≤ (before ++ sought ++ rest).length := by simp; omega
      rw [← hassoc, List.drop_append_of_le_length hlength] at h
      exact prefix_of_separated _ hsep h

end Replaced

/-! ## Matches -/

namespace Regex

variable {pattern : Regex}

theorem advanceOver_eq_some {p q : Cursor} (h : advanceOver sought p = some q) : p.rest = sought ++ q.rest := by
  induction sought generalizing p with
  | nil =>
      cases h
      rfl
  | cons a as ih =>
      obtain ⟨before, rest⟩ := p
      cases rest with
      | nil => cases h
      | cons c rest =>
          rw [advanceOver] at h
          split at h
          · next hac => rw [hac, List.cons_append, ← ih h]
          · cases h

theorem advanceOver_eq_none {p : Cursor} (h : advanceOver sought p = none) : ¬ sought <+: p.rest := by
  induction sought generalizing p with
  | nil => cases h
  | cons a as ih =>
      obtain ⟨before, rest⟩ := p
      cases rest with
      | nil => simp
      | cons c rest =>
          rw [advanceOver] at h
          rw [List.cons_prefix_cons]
          rintro ⟨rfl, hrest⟩
          rw [if_pos rfl] at h
          exact ih h hrest

theorem MatchesText.replaced (h : pattern.MatchesText sought) (hne : sought ≠ []) (replacement : List Char)
    (afterMatch : Bool) (p : Cursor) :
    Replaced sought replacement p.rest (pattern.replaceFrom (fun _ => replacement) afterMatch p) := by
  have advances {p q : Cursor} (hmatch : pattern.matchAt p = some q) : q.rest.length < p.rest.length := by
    rw [h] at hmatch
    rw [advanceOver_eq_some hmatch, List.length_append]
    have := List.length_pos_iff.2 hne
    omega
  fun_induction replaceFrom pattern (fun _ => replacement) afterMatch p with
  | case1 afterMatch p q hmatch hlt ih =>
      rw [h] at hmatch
      rw [advanceOver_eq_some hmatch, ← List.nil_append (sought ++ q.rest), ← List.append_assoc]
      exact .first (fun start hstart => absurd hstart (Nat.not_lt_zero start)) ih
  | case2 p q hmatch hge | case3 _ p q hmatch hge | case4 _ p q hmatch hge => exact absurd (advances hmatch) hge
  | case5 _ p hmatch hrest =>
      rw [h] at hmatch
      have hnot := advanceOver_eq_none hmatch
      rw [hrest] at hnot ⊢
      exact .absent fun h => hnot (List.infix_nil.1 h ▸ List.nil_prefix)
  | case6 _ p hmatch c rest hrest ih =>
      rw [h] at hmatch
      have hnot := advanceOver_eq_none hmatch
      rw [hrest] at hnot ⊢
      exact ih.cons hnot

end Regex

/-! ## Lines -/

theorem replaced_pieces {f : List Char → List Char} (hsep : sep ∉ sought)
    (hf : ∀ piece, Replaced sought replacement piece (f piece)) (text : List Char) :
    Replaced sought replacement text ([sep].intercalate ((pieces (· = sep) text).map f)) := by
  induction hlength : text.length using Nat.strongRecOn generalizing text with
  | _ n ih =>
  subst hlength
  by_cases hmem : sep ∈ text
  · obtain ⟨piece, rest, rfl, hpiece⟩ := List.eq_append_cons_of_mem hmem
    have hne : (pieces (· = sep) rest).map f ≠ [] := by simpa using pieces_ne_nil _ rest
    rw [pieces_append hpiece, List.map_cons, List.intercalate_cons_of_ne_nil hne, List.append_assoc]
    exact (hf piece).separated hsep (ih rest.length (by simp; omega) rest rfl)
  · rw [pieces_of_not_mem hmem, List.map_singleton, List.intercalate_singleton]
    exact hf text

/-- To replace a text without line breaks in every line is to replace it everywhere. -/
theorem replaced_editText {pattern : Regex} (h : pattern.MatchesText sought) (hne : sought ≠ [])
    (hline : '\n' ∉ sought) (replacement text : String) :
    Replaced sought replacement.toList text.toList (FileStep.editText pattern replacement text).toList := by
  rw [FileStep.editText, String.toList_ofList]
  exact replaced_pieces hline (fun piece => h.replaced hne replacement.toList false ⟨none, piece⟩) text.toList

end PackageRecipes
