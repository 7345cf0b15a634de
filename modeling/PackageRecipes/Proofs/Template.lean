import PackageRecipes.Proofs.Text
import PackageRecipes.Template

/-!
# Placeholders

Read from left to right, a text falls in one way only into placeholders and single characters. A template has values
put in place of these placeholders, and everything else stays as it is.
-/

namespace PackageRecipes.Template

open Text

/-- What a key may be made of. -/
def KeyChar (c : Char) : Prop :=
  ('A' ≤ c ∧ c ≤ 'Z') ∨ ('a' ≤ c ∧ c ≤ 'z') ∨ ('0' ≤ c ∧ c ≤ '9') ∨ c = '_' ∨ c = '.' ∨ c = ':' ∨ c = '-'

structure IsKey (key : List Char) : Prop where
  nonempty : key ≠ []
  chars : ∀ c ∈ key, KeyChar c

/-- The placeholder of a key. -/
def written (key : List Char) : List Char := '%' :: '(' :: (key ++ [')', 's'])

inductive Token where
  | char (c : Char)
  | placeholder (key : List Char)

def Token.text : Token → List Char
  | .char c => [c]
  | .placeholder key => written key

/-- A placeholder stands for the value of its key, and without a value for itself. -/
def Token.value (lookup : String → Option String) : Token → List Char
  | .char c => [c]
  | .placeholder key => (lookup (String.ofList key)).elim (written key) String.toList

/-- A text is read from left to right; no character is read where a placeholder starts. -/
inductive Scans : List Char → List Token → Prop where
  | done : Scans [] []
  | placeholder {key rest : List Char} {tokens : List Token} (hkey : IsKey key) (hrest : Scans rest tokens) :
      Scans (written key ++ rest) (.placeholder key :: tokens)
  | char {c : Char} {rest : List Char} {tokens : List Token}
      (hnone : ∀ key after, IsKey key → c :: rest ≠ written key ++ after) (hrest : Scans rest tokens) :
      Scans (c :: rest) (.char c :: tokens)

variable {cs key rest before after : List Char} {tokens others : List Token}

/-! ## Where a placeholder starts -/

theorem percent_not_mem (hkey : IsKey key) : '%' ∉ '(' :: (key ++ [')', 's']) := by
  have hpercent : ¬ KeyChar '%' := by unfold KeyChar; decide
  have hnot : '%' ∉ key := fun h => hpercent (hkey.chars '%' h)
  simp [hnot]

theorem isKeyChar_iff {c : Char} : isKeyChar c ↔ KeyChar c := by
  have hupper : c.isUpper ↔ 'A' ≤ c ∧ c ≤ 'Z' := decide_eq_true_iff
  have hlower : c.isLower ↔ 'a' ≤ c ∧ c ≤ 'z' :=
    Bool.and_eq_true_iff.trans (and_congr decide_eq_true_iff decide_eq_true_iff)
  have hdigit : c.isDigit ↔ '0' ≤ c ∧ c ≤ '9' :=
    Bool.and_eq_true_iff.trans (and_congr decide_eq_true_iff decide_eq_true_iff)
  have halpha : c.isAlpha ↔ c.isUpper ∨ c.isLower := Bool.or_eq_true_iff
  simp only [isKeyChar, isAlphanumeric, KeyChar, Bool.or_eq_true, decide_eq_true_eq, halpha, hupper, hlower, hdigit,
    or_assoc]

theorem placeholder?_written (hkey : IsKey key) (rest : List Char) :
    placeholder? (written key ++ rest) = some (key, rest) := by
  have hchars : ∀ c ∈ key, isKeyChar c := fun c hc => isKeyChar_iff.2 (hkey.chars c hc)
  have hend : (')' :: 's' :: rest).head?.all (!isKeyChar ·) := by rfl
  have htext : written key ++ rest = '%' :: '(' :: (key ++ ')' :: 's' :: rest) := by simp [written]
  obtain ⟨k, ks, rfl⟩ := List.exists_cons_of_ne_nil hkey.nonempty
  rw [htext, placeholder?, takeWhile_run hchars hend, dropWhile_run hchars hend]
  rfl

theorem placeholder?_eq_some : placeholder? cs = some (key, rest) ↔ IsKey key ∧ cs = written key ++ rest := by
  constructor
  · intro h
    unfold placeholder? at h
    split at h
    · next cs =>
      have hsplit : cs.takeWhile isKeyChar ++ cs.dropWhile isKeyChar = cs := List.takeWhile_append_dropWhile
      have hchars : ∀ c ∈ cs.takeWhile isKeyChar, isKeyChar c := List.all_eq_true.1 List.all_takeWhile
      split at h
      · next htake hdrop =>
        cases h
        rw [htake, hdrop] at hsplit
        rw [htake] at hchars
        refine ⟨⟨List.cons_ne_nil _ _, fun c hc => isKeyChar_iff.1 (hchars c hc)⟩, ?_⟩
        rw [← hsplit]
        simp [written]
      · cases h
    · cases h
  · rintro ⟨hkey, rfl⟩
    exact placeholder?_written hkey rest

theorem placeholder?_eq_none : placeholder? cs = none ↔ ∀ key after, IsKey key → cs ≠ written key ++ after := by
  rw [Option.eq_none_iff_forall_ne_some]
  constructor
  · rintro h key after hkey rfl
    exact h (key, after) (placeholder?_written hkey after)
  · rintro h ⟨key, after⟩ hsome
    obtain ⟨hkey, hcs⟩ := placeholder?_eq_some.1 hsome
    exact h key after hkey hcs

/-! ## Reading -/

theorem exists_scans (cs : List Char) : ∃ tokens, Scans cs tokens := by
  induction hlength : cs.length using Nat.strongRecOn generalizing cs with
  | _ n ih =>
  subst hlength
  cases hplace : placeholder? cs with
  | some found =>
      obtain ⟨key, rest⟩ := found
      obtain ⟨tokens, hrest⟩ := ih rest.length (placeholder?_length hplace) rest rfl
      obtain ⟨hkey, rfl⟩ := placeholder?_eq_some.1 hplace
      exact ⟨_, .placeholder hkey hrest⟩
  | none =>
      cases cs with
      | nil => exact ⟨[], .done⟩
      | cons c rest =>
          obtain ⟨tokens, hrest⟩ := ih rest.length (by simp) rest rfl
          exact ⟨_, .char (placeholder?_eq_none.1 hplace) hrest⟩

theorem expand_placeholder (hkey : IsKey key) (rest : List Char) (lookup : String → Option String) :
    expand lookup (written key ++ rest) = Token.value lookup (.placeholder key) ++ expand lookup rest := by
  rw [expand, Token.value]
  split
  · next found hfound =>
    rw [placeholder?_written hkey] at hfound
    cases hfound
    cases lookup (String.ofList key) with
    | some value => rfl
    | none =>
        have htake : (written key ++ rest).take ((written key ++ rest).length - rest.length) = written key := by
          rw [List.length_append, Nat.add_sub_cancel, List.take_left]
        simp only [htake, Option.elim_none]
  · next hnone =>
    rw [placeholder?_written hkey] at hnone
    cases hnone

theorem expand_char {c : Char} (hnone : placeholder? (c :: rest) = none) (lookup : String → Option String) :
    expand lookup (c :: rest) = c :: expand lookup rest := by
  rw [expand]
  split
  · next hfound =>
    rw [hnone] at hfound
    cases hfound
  · rfl

namespace Scans

theorem unique (h : Scans cs tokens) (h' : Scans cs others) : others = tokens := by
  induction h generalizing others with
  | done =>
      cases h'
      rfl
  | @placeholder key rest tokens hkey hrest ih =>
      generalize hcs : written key ++ rest = cs at h'
      cases h' with
      | done => cases hcs
      | @placeholder key' rest' tokens' hkey' hrest' =>
          have hfound := placeholder?_written hkey rest
          rw [hcs, placeholder?_written hkey' rest'] at hfound
          cases hfound
          rw [ih hrest']
      | char hnone _ => exact absurd hcs.symm (hnone key rest hkey)
  | @char c rest tokens hnone hrest ih =>
      generalize hcs : c :: rest = cs at h'
      cases h' with
      | done => cases hcs
      | placeholder hkey' _ => exact absurd hcs (hnone _ _ hkey')
      | char _ hrest' =>
          cases hcs
          rw [ih hrest']

theorem text (h : Scans cs tokens) : tokens.flatMap Token.text = cs := by
  induction h with
  | done => rfl
  | placeholder _ _ ih => rw [List.flatMap_cons, ih]; rfl
  | char _ _ ih => rw [List.flatMap_cons, ih]; rfl

theorem expand_eq (h : Scans cs tokens) (lookup : String → Option String) :
    expand lookup cs = tokens.flatMap (Token.value lookup) := by
  induction h with
  | done => rw [expand]; rfl
  | placeholder hkey _ ih => rw [expand_placeholder hkey, ih, List.flatMap_cons]
  | char hnone _ ih => rw [expand_char (placeholder?_eq_none.2 hnone), ih]; rfl

/-- A placeholder is read wherever it stands, whatever is in front of it. -/
theorem append_placeholder (h : Scans before tokens) (hkey : IsKey key) (hafter : Scans after others) :
    Scans (before ++ (written key ++ after)) (tokens ++ .placeholder key :: others) := by
  induction h with
  | done => exact .placeholder hkey hafter
  | placeholder hfirst _ ih =>
      rw [List.append_assoc]
      exact .placeholder hfirst ih
  | @char c rest tokens hnone _ ih =>
      refine .char (fun first behind hfirst heq => ?_) ih
      -- A placeholder that starts here ends before the given one does, or this one starts in the middle of it.
      have heq : (c :: rest) ++ (written key ++ after) = written first ++ behind := heq
      rcases List.append_eq_append_iff.1 heq with ⟨middle, hover, hmiddle⟩ | ⟨middle, hwithin, -⟩
      · cases middle with
        | nil => exact hnone first [] hfirst (by rw [hover, List.append_nil, List.append_nil])
        | cons d ds =>
            obtain rfl : '%' = d := (List.cons.inj hmiddle).1
            have hinner : '(' :: (first ++ [')', 's']) = rest ++ '%' :: ds := (List.cons.inj hover).2
            apply percent_not_mem hfirst
            rw [hinner]
            exact List.mem_append_right rest List.mem_cons_self
      · exact hnone first middle hfirst hwithin

theorem exists_split (h : Scans (before ++ (written key ++ after)) tokens) (hkey : IsKey key) :
    ∃ front back, tokens = front ++ .placeholder key :: back ∧ Scans before front ∧ Scans after back := by
  obtain ⟨front, hfront⟩ := exists_scans before
  obtain ⟨back, hback⟩ := exists_scans after
  exact ⟨front, back, (hfront.append_placeholder hkey hback).unique h, hfront, hback⟩

end Scans

theorem Scans.substitute_toList {template : String} (h : Scans template.toList tokens)
    (lookup : String → Option String) :
    (substitute template lookup).toList = tokens.flatMap (Token.value lookup) := by
  rw [substitute, String.toList_ofList, h.expand_eq]

theorem flatMap_value_none (tokens : List Token) :
    tokens.flatMap (Token.value fun _ => none) = tokens.flatMap Token.text := by
  have hvalue : Token.value (fun _ => none) = Token.text := by
    funext token
    cases token <;> rfl
  rw [hvalue]

/-! ## The keys of a template -/

/-- The placeholder of the key stands somewhere in the template. -/
def Uses (template key : String) : Prop := IsKey key.toList ∧ written key.toList <:+: template.toList

theorem Scans.isKey (h : Scans cs tokens) (hmem : Token.placeholder key ∈ tokens) : IsKey key := by
  induction h with
  | done => cases hmem
  | placeholder hkey _ ih =>
      rcases List.mem_cons.1 hmem with heq | hmem
      · cases heq
        exact hkey
      · exact ih hmem
  | char _ _ ih =>
      rcases List.mem_cons.1 hmem with heq | hmem
      · cases heq
      · exact ih hmem

theorem Scans.uses_iff {template key : String} (h : Scans template.toList tokens) :
    Uses template key ↔ Token.placeholder key.toList ∈ tokens := by
  constructor
  · rintro ⟨hkey, before, after, htext⟩
    rw [← htext, List.append_assoc] at h
    obtain ⟨front, back, rfl, -⟩ := h.exists_split hkey
    exact List.mem_append_right front List.mem_cons_self
  · intro hmem
    refine ⟨h.isKey hmem, ?_⟩
    rw [← h.text]
    exact List.infix_of_mem_flatten (List.mem_map_of_mem hmem)

theorem scans_plain (h : '%' ∉ cs) : Scans cs (cs.map Token.char) := by
  induction cs with
  | nil => exact .done
  | cons c rest ih =>
      rw [List.mem_cons, not_or] at h
      refine .char (fun key after hkey heq => h.1 ?_) (ih h.2)
      exact (List.cons.inj heq).1.symm

theorem uses_leading_iff {template key used : String} (rest : List Char) (hkey : IsKey key.toList) (hrest : '%' ∉ rest)
    (h : template.toList = written key.toList ++ rest) : Uses template used ↔ used = key := by
  have hscan : Scans template.toList (.placeholder key.toList :: rest.map Token.char) := by
    rw [h]
    exact .placeholder hkey (scans_plain hrest)
  simp [hscan.uses_iff, String.toList_inj]

section Values

variable {template : String} {lookup lookup' : String → Option String}

/-- Only the values of the keys that stand in a template count for its substitution. -/
theorem substitute_congr (h : ∀ key, Uses template key → lookup key = lookup' key) :
    substitute template lookup = substitute template lookup' := by
  obtain ⟨tokens, hscan⟩ := exists_scans template.toList
  rw [← String.toList_inj, hscan.substitute_toList, hscan.substitute_toList]
  refine congrArg List.flatten (List.map_congr_left fun token hmem => ?_)
  cases token with
  | char c => rfl
  | placeholder key =>
      have huses : Uses template (String.ofList key) := hscan.uses_iff.2 (by rwa [String.toList_ofList])
      rw [Token.value, Token.value, h _ huses]

variable (hlength : ∀ key, (lookup key).map String.length = (lookup' key).map String.length)

include hlength

theorem Token.length_value (token : Token) : (token.value lookup).length = (token.value lookup').length := by
  cases token with
  | char c => rfl
  | placeholder key =>
      have hkey := hlength (String.ofList key)
      rw [Token.value, Token.value]
      cases hvalue : lookup (String.ofList key) <;> cases hvalue' : lookup' (String.ofList key) <;>
        simp_all [String.length_toList]

theorem length_flatMap_value (tokens : List Token) :
    (tokens.flatMap (Token.value lookup)).length = (tokens.flatMap (Token.value lookup')).length := by
  rw [List.length_flatMap, List.length_flatMap]
  exact congrArg List.sum (List.map_congr_left fun token _ => Token.length_value hlength token)

theorem length_substitute (template : String) :
    (substitute template lookup).length = (substitute template lookup').length := by
  obtain ⟨tokens, hscan⟩ := exists_scans template.toList
  rw [← String.length_toList, ← String.length_toList, hscan.substitute_toList, hscan.substitute_toList,
    length_flatMap_value hlength]

/-- Values of the same lengths are put at the same places, so every one of them can be told from the text. -/
theorem substitute_inj (h : substitute template lookup = substitute template lookup') {key : String}
    (huses : Uses template key) : lookup key = lookup' key := by
  obtain ⟨tokens, hscan⟩ := exists_scans template.toList
  rw [← String.toList_inj, hscan.substitute_toList, hscan.substitute_toList] at h
  obtain ⟨front, back, rfl⟩ := List.append_of_mem (hscan.uses_iff.1 huses)
  rw [List.flatMap_append, List.flatMap_append, List.flatMap_cons, List.flatMap_cons] at h
  have hbehind := (List.append_inj h (length_flatMap_value hlength front)).2
  have hvalue := (List.append_inj hbehind (Token.length_value hlength _)).1
  rw [Token.value, Token.value, String.ofList_toList] at hvalue
  have hkey := hlength key
  cases hold : lookup key <;> cases hnew : lookup' key <;> simp_all [String.toList_inj]

end Values

end PackageRecipes.Template
