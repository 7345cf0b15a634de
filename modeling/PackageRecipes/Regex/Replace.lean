import PackageRecipes.Regex.Parser

/-! Replacing what a regular expression matches. -/
namespace PackageRecipes.Regex

/-- The text from a place on, with every match replaced by what is made of it. An empty match right behind another
match does not count. -/
def replaceFrom (r : Regex) (replace : List Char → List Char) (afterMatch : Bool) (p : Cursor) : List Char :=
  match r.matchAt p with
  | some q =>
    if q.rest.length < p.rest.length then
      replace (p.rest.take (p.rest.length - q.rest.length)) ++ replaceFrom r replace true q
    else
      match _h : p.rest with
      | [] => if afterMatch then [] else replace []
      | c :: rest =>
        (if afterMatch then [] else replace []) ++ c :: replaceFrom r replace false ⟨some c, rest⟩
  | none =>
    match _h : p.rest with
    | [] => []
    | c :: rest => c :: replaceFrom r replace false ⟨some c, rest⟩
termination_by p.rest.length
decreasing_by
  · assumption
  · simp [_h]
  · simp [_h]

/-- The text with the matches replaced, from left to right. -/
def replaceAll (r : Regex) (replace : List Char → List Char) (text : List Char) : List Char :=
  r.replaceFrom replace false ⟨none, text⟩

/-- The text with a backslash in front of every character that has a meaning in patterns. -/
def escaped (text : List Char) : List Char := text.flatMap fun c => if isMeta c then ['\\', c] else [c]

end PackageRecipes.Regex
