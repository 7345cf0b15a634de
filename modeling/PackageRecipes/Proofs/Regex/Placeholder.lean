import PackageRecipes.Proofs.Replacement
import PackageRecipes.Proofs.Template

/-!
# The pattern of placeholders

A template can be read by a regular expression: a match of it is a placeholder, and to put values in place of
placeholders is to replace the matches.
-/

namespace PackageRecipes

open Regex

namespace Regex

variable {fuel : Nat} {names names' : List String} {g g' : GroupParts} {cs rest after : List Char} {r : Regex}
  {s : CharSet} {k : Cursor → Option Cursor}

/-! ## Reading groups -/

theorem groupBody_close (g : GroupParts) (rest : List Char) :
    groupBody (fuel + 1) .standard names g (')' :: rest) = some (g.regex, names, ')' :: rest) := by
  rw [groupBody]
  rfl

theorem groupBody_class (hclass : classBody .standard (rest.length + 2) rest = some (s, after)) (g : GroupParts) :
    groupBody (fuel + 1) .standard names g ('[' :: rest) =
      groupBody fuel .standard names (g.add (some (.set s))) after := by
  have hskip : Flags.standard.skip ('[' :: rest) = '[' :: rest := rfl
  rw [groupBody, hskip]
  simp only [hclass]
  rfl

theorem groupBody_plus (h : g.repeatLast .standard 1 none rest = some (g', after)) :
    groupBody (fuel + 1) .standard names g ('+' :: rest) = groupBody fuel .standard names g' after := by
  have hskip : Flags.standard.skip ('+' :: rest) = '+' :: rest := rfl
  rw [groupBody, hskip]
  simp only [h, groupBody.next]

theorem groupBody_group (hopen : opening .standard rest = some (.group .standard none, cs))
    (hbody : groupBody fuel .standard names ⟨[], []⟩ cs = some (r, names', ')' :: after)) (g : GroupParts) :
    groupBody (fuel + 1) .standard names g ('(' :: rest) =
      groupBody fuel .standard names' (g.add (some r)) after := by
  have hskip : Flags.standard.skip ('(' :: rest) = '(' :: rest := rfl
  rw [groupBody, hskip]
  simp [hopen, hbody]

/-! ## Matching -/

theorem matchFrom_set (before : Option Char) (c : Char) (rest : List Char) (s : CharSet) (k : Cursor → Option Cursor) :
    (Regex.set s).matchFrom ⟨before, c :: rest⟩ (fun q _ => k q) = if s.contains c then k ⟨some c, rest⟩ else none := by
  rw [matchFrom]

/-- A run of characters is matched to its end, if nothing else that comes next can be one of them. -/
theorem matchFrom_run (hk : ∀ before c rest, s.contains c → k ⟨before, c :: rest⟩ = none) (before : Option Char)
    (cs : List Char) :
    ∃ last, (Regex.star true (.set s)).matchFrom ⟨before, cs⟩ (fun q _ => k q) =
      k ⟨last, cs.dropWhile s.contains⟩ := by
  induction cs generalizing before with
  | nil =>
      refine ⟨before, ?_⟩
      rw [matchFrom, matchFrom]
      rfl
  | cons c cs ih =>
      rw [matchFrom, matchFrom]
      by_cases hc : s.contains c
      · obtain ⟨last, hlast⟩ := ih (some c)
        refine ⟨last, ?_⟩
        simp [hc, hlast, hk before c cs hc]
      · refine ⟨before, ?_⟩
        simp [hc]

theorem matchFrom_seq (a b : Regex) (p : Cursor) (k : Cursor → Option Cursor) :
    (Regex.seq a b).matchFrom p (fun q _ => k q) = a.matchFrom p fun q _ => b.matchFrom q fun q' _ => k q' := by
  rw [matchFrom]

end Regex

namespace Template

/-- The characters of a key. -/
def keySet : CharSet :=
  .union [.range 'A' 'Z', .range 'a' 'z', .range '0' '9', .char '_', .char '.', .char ':', .char '-']

def placeholder : Regex :=
  .seq (.set (.char '%')) (.seq (.set (.char '(')) (.seq (.seq (.set keySet) (.star true (.set keySet)))
    (.seq (.set (.char ')')) (.set (.char 's')))))

theorem parse?_placeholder : Regex.parse? "%\\(([A-Za-z0-9_.:\\-]+)\\)s" = some placeholder := by
  have hopen : opening .standard ('[' :: "A-Za-z0-9_.:\\-]+)\\)s".toList) =
      some (.group .standard none, '[' :: "A-Za-z0-9_.:\\-]+)\\)s".toList) := rfl
  have hclass : classBody .standard ("A-Za-z0-9_.:\\-]+)\\)s".toList.length + 2) "A-Za-z0-9_.:\\-]+)\\)s".toList =
      some (keySet, '+' :: ')' :: "\\)s".toList) := by rfl
  have hkey (fuel : Nat) : groupBody (fuel + 3) .standard [] ⟨[], []⟩ ('[' :: "A-Za-z0-9_.:\\-]+)\\)s".toList) =
      some (.seq (.set keySet) (.star true (.set keySet)), [], ')' :: '\\' :: ')' :: 's' :: []) := by
    rw [groupBody_class hclass, groupBody_plus rfl, groupBody_close]
    rfl
  have hbody (fuel : Nat) : groupBody (fuel + 7) .standard [] ⟨[], []⟩
      ('%' :: '\\' :: '(' :: '(' :: '[' :: "A-Za-z0-9_.:\\-]+)\\)s".toList) = some (placeholder, [], []) := by
    rw [groupBody_plain rfl, groupBody_meta rfl, groupBody_group hopen (hkey (fuel + 1)), groupBody_meta rfl,
      groupBody_plain rfl, groupBody_nil]
    rfl
  have hchars : "%\\(([A-Za-z0-9_.:\\-]+)\\)s".toList =
      '%' :: '\\' :: '(' :: '(' :: '[' :: "A-Za-z0-9_.:\\-]+)\\)s".toList := rfl
  have hfuel : ('%' :: '\\' :: '(' :: '(' :: '[' :: "A-Za-z0-9_.:\\-]+)\\)s".toList).length + 1 = 19 + 7 := rfl
  rw [parse?, hchars, hfuel, hbody]
  rfl

theorem contains_keySet (c : Char) : keySet.contains c = isKeyChar c := by
  have hchar (d : Char) : (CharSet.char d).contains c ↔ c = d := by
    rw [contains_char, decide_eq_true_iff, eq_comm]
  rw [Bool.eq_iff_iff, isKeyChar_iff]
  simp [keySet, KeyChar, CharSet.contains, CharSet.containsAny, hchar]

/-- The pattern matches a percent sign and a parenthesis, then a key as long as it goes, and then the rest. -/
theorem matchAt_placeholder_eq (p : Cursor) :
    placeholder.matchAt p = (advanceOver ['%', '('] p).bind fun q =>
      (Regex.set keySet).matchFrom q fun q' _ => (Regex.star true (.set keySet)).matchFrom q' fun q'' _ =>
        advanceOver [')', 's'] q'' := by
  have hend (q : Cursor) : (Regex.seq (.set (.char ')')) (.set (.char 's'))).matchFrom q (fun r _ => some r) =
      advanceOver [')', 's'] q := matchesText_spelled [')', 's'] q
  rw [matchAt, placeholder, matchFrom]
  simp only [matchFrom_seq, hend, matchFrom_char]
  rw [advanceOver_cons '%' ['('], Option.bind_assoc]

/-- Where the pattern matches, a placeholder starts, and the match is this placeholder. -/
theorem matchAt_placeholder (p : Cursor) :
    (placeholder.matchAt p).map Cursor.rest = (placeholder? p.rest).map Prod.snd := by
  have hparenthesis : isKeyChar ')' = false := by rfl
  have hclosed (before : Option Char) (c : Char) (rest : List Char) (hc : keySet.contains c) :
      advanceOver [')', 's'] ⟨before, c :: rest⟩ = none := by
    have hne : ')' ≠ c := by
      rintro rfl
      rw [contains_keySet, hparenthesis] at hc
      cases hc
    rw [advanceOver, if_neg hne]
  obtain ⟨before, cs⟩ := p
  rw [matchAt_placeholder_eq]
  dsimp only
  unfold placeholder?
  split
  · rename_i cs
    show Option.map Cursor.rest ((Regex.set keySet).matchFrom ⟨some '(', cs⟩ fun q' _ =>
      (Regex.star true (.set keySet)).matchFrom q' fun q'' _ => advanceOver [')', 's'] q'') = _
    cases cs with
    | nil =>
        rw [matchFrom]
        rfl
    | cons c cs =>
        obtain ⟨last, hlast⟩ := matchFrom_run hclosed (some c) cs
        rw [matchFrom_set, hlast, funext contains_keySet, contains_keySet]
        by_cases hc : isKeyChar c
        · simp only [hc, ↓reduceIte, List.takeWhile_cons, List.dropWhile_cons]
          split
          · rename_i htail
            rw [htail]
            rfl
          · rename_i hnot
            cases hend : advanceOver [')', 's'] ⟨last, cs.dropWhile isKeyChar⟩ with
            | none => rfl
            | some q => exact absurd (advanceOver_eq_some hend) (hnot _ _ _ rfl)
        · simp [hc]
  · rename_i hnot
    cases hstart : advanceOver ['%', '('] ⟨before, cs⟩ with
    | none => rfl
    | some q => exact absurd (advanceOver_eq_some hstart) (hnot q.rest)

/-- What a match is replaced by: the value of the key in it, if there is one. -/
def filled (lookup : String → Option String) (found : List Char) : List Char :=
  (lookup (String.ofList (found.drop 2).dropLast.dropLast)).elim found String.toList

theorem filled_written (lookup : String → Option String) (key : List Char) :
    filled lookup (written key) = Token.value lookup (.placeholder key) := by
  have hkey : ((written key).drop 2).dropLast.dropLast = key := by
    simp [written, List.dropLast_append_of_ne_nil]
  rw [filled, hkey, Token.value]

theorem replaceFrom_placeholder (lookup : String → Option String) (afterMatch : Bool) (p : Cursor) :
    placeholder.replaceFrom (filled lookup) afterMatch p = expand lookup p.rest := by
  have hfound {p q : Cursor} (hmatch : placeholder.matchAt p = some q) :
      ∃ key, IsKey key ∧ p.rest = written key ++ q.rest := by
    have hplace := matchAt_placeholder p
    rw [hmatch, Option.map_some, eq_comm, Option.map_eq_some_iff] at hplace
    obtain ⟨⟨key, rest⟩, hplace, rfl⟩ := hplace
    exact ⟨key, placeholder?_eq_some.1 hplace⟩
  have hnone {p : Cursor} (hmatch : placeholder.matchAt p = none) : placeholder? p.rest = none := by
    have hplace := matchAt_placeholder p
    rw [hmatch] at hplace
    exact Option.map_eq_none_iff.1 hplace.symm
  fun_induction replaceFrom placeholder (filled lookup) afterMatch p with
  | case1 afterMatch p q hmatch hlt ih =>
      obtain ⟨key, hkey, hrest⟩ := hfound hmatch
      have htake : p.rest.take (p.rest.length - q.rest.length) = written key := by
        rw [hrest, List.length_append, Nat.add_sub_cancel, List.take_left]
      rw [htake, filled_written, ih, hrest, expand_placeholder hkey]
  | case2 p q hmatch hge | case3 _ p q hmatch hge | case4 _ p q hmatch hge =>
      obtain ⟨key, -, hrest⟩ := hfound hmatch
      refine absurd ?_ hge
      rw [hrest]
      simp [written]
      omega
  | case5 _ p hmatch hrest =>
      rw [hrest, expand]
      rfl
  | case6 _ p hmatch c rest hrest ih =>
      have hplace := hnone hmatch
      rw [hrest] at hplace ⊢
      rw [ih, expand_char hplace]

theorem substitute_eq_replaceAll (template : String) (lookup : String → Option String) :
    substitute template lookup = String.ofList (placeholder.replaceAll (filled lookup) template.toList) := by
  rw [substitute, replaceAll, replaceFrom_placeholder]

/-- A template is read in one way, every placeholder in it is read as such, and its substitution puts together what
was read, with values in place of placeholders. Without values this gives back the template. To substitute is to
replace the matches of a regular expression. -/
theorem substitute_scanned (template : String) :
    ∃ tokens, Scans template.toList tokens ∧ (∀ others, Scans template.toList others → others = tokens) ∧
      tokens.flatMap Token.text = template.toList ∧
      (∀ before key after, IsKey key → template.toList = before ++ (written key ++ after) →
        ∃ front back, tokens = front ++ .placeholder key :: back ∧ Scans before front ∧ Scans after back) ∧
      (∀ lookup, (substitute template lookup).toList = tokens.flatMap (Token.value lookup)) ∧
      substitute template (fun _ => none) = template ∧
      ∃ r, Regex.parse? "%\\(([A-Za-z0-9_.:\\-]+)\\)s" = some r ∧
        ∀ lookup, substitute template lookup = String.ofList (r.replaceAll (filled lookup) template.toList) := by
  obtain ⟨tokens, h⟩ := exists_scans template.toList
  refine ⟨tokens, h, fun others => h.unique, h.text, ?_, h.substitute_toList, ?_, placeholder, parse?_placeholder,
    substitute_eq_replaceAll template⟩
  · intro before key after hkey htemplate
    rw [htemplate] at h
    exact h.exists_split hkey
  · rw [← String.toList_inj, h.substitute_toList, flatMap_value_none, h.text]

/-- One placeholder inside of what would be another one. -/
def nested : String := "%(%(name)s)s"

theorem scanned_nested :
    IsKey "name".toList ∧ nested.toList = "%(".toList ++ (written "name".toList ++ ")s".toList) ∧
      ∃ tokens, Scans nested.toList tokens ∧
        (∃ front back, tokens = front ++ .placeholder "name".toList :: back ∧
          Scans "%(".toList front ∧ Scans ")s".toList back) ∧
        substitute nested (fun _ => none) = nested := by
  have hkey : IsKey "name".toList := ⟨by decide, by simp [KeyChar]⟩
  have htext : nested.toList = "%(".toList ++ (written "name".toList ++ ")s".toList) := by rfl
  obtain ⟨tokens, h, -, -, hsplit, -, hnone, -⟩ := substitute_scanned nested
  exact ⟨hkey, htext, tokens, h, hsplit _ _ _ hkey htext, hnone⟩

-- The value that is put in completes a placeholder, which is not read again.
example : substitute nested (fun key => if key = "name" then some "name" else none) = "%(name)s" := by
  decide +kernel

end Template

end PackageRecipes
