import PackageRecipes.Text

/-! Texts with placeholders such as `%(version)s`. -/
namespace PackageRecipes.Template

open Text

def isKeyChar (c : Char) : Bool := isAlphanumeric c || c = '_' || c = '.' || c = ':' || c = '-'

/-- The key of the placeholder that a text starts with, and what follows the placeholder. -/
def placeholder? : List Char → Option (List Char × List Char)
  | '%' :: '(' :: cs =>
    match cs.takeWhile isKeyChar, cs.dropWhile isKeyChar with
    | k :: key, ')' :: 's' :: rest => some (k :: key, rest)
    | _, _ => none
  | _ => none

theorem placeholder?_length {cs : List Char} {r : List Char × List Char}
    (h : placeholder? cs = some r) : r.2.length < cs.length := by
  unfold placeholder? at h
  split at h
  · next cs =>
    split at h
    · next hd =>
      cases h
      have h₁ := (List.dropWhile_suffix (l := cs) isKeyChar).length_le
      rw [hd] at h₁
      simp only [List.length_cons] at h₁ ⊢
      omega
    · simp at h
  · simp at h

/-- Puts values in place of placeholders, once from left to right; a key without a value keeps its
placeholder. -/
def expand (lookup : String → Option String) (cs : List Char) : List Char :=
  match _h : placeholder? cs with
  | some (key, rest) =>
    match lookup (String.ofList key) with
    | some value => value.toList ++ expand lookup rest
    | none => cs.take (cs.length - rest.length) ++ expand lookup rest
  | none =>
    match cs with
    | [] => []
    | c :: rest => c :: expand lookup rest
termination_by cs.length
decreasing_by
  · exact placeholder?_length _h
  · exact placeholder?_length _h
  · simp

def substitute (template : String) (lookup : String → Option String) : String :=
  String.ofList (expand lookup template.toList)

end PackageRecipes.Template
