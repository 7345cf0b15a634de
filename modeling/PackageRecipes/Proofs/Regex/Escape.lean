import PackageRecipes.Regex.Replace

/-!
# Escaped texts

A text with a backslash in front of every character that has a meaning in patterns is read as the expression that
spells it, and this expression matches what the text itself does.
-/

namespace PackageRecipes.Regex

/-- The expression that spells a text. -/
def spelled (text : List Char) : Regex := concat (text.map fun c => .set (.char c))

variable {c : Char} {cs text : List Char} {fuel : Nat} {names : List String}

/-! ## Reading -/

theorem groupBody_plain (h : isMeta c = false) (g : GroupParts) :
    groupBody (fuel + 1) .standard names g (c :: cs) =
      groupBody fuel .standard names (g.add (some (.set (.char c)))) cs := by
  have hskip : Flags.standard.skip (c :: cs) = c :: cs := rfl
  have hne {m : Char} (hm : isMeta m) : c ≠ m := by
    rintro rfl
    simp [h] at hm
  have hprimitive : primitive .standard (c :: cs) = some (.char c, cs) := by
    rw [primitive] <;> exact hne (by decide)
  rw [groupBody, hskip]
  split
  case h_1 heq => cases heq
  case h_10 =>
    rw [hprimitive]
    rfl
  -- every other form starts with a character that has a meaning
  all_goals
    rename_i heq
    cases heq
    exact absurd h (by decide)

theorem escape_meta (h : isMeta c) : escape .standard (c :: cs) = some (.char c, cs) := by
  have hcases := h
  simp only [isMeta] at hcases
  simp at hcases
  rcases hcases with rfl | rfl | rfl | rfl | rfl | rfl | rfl | rfl | rfl | rfl | rfl | rfl | rfl | rfl | rfl | rfl |
    rfl | rfl <;> rfl

theorem groupBody_meta (h : isMeta c) (g : GroupParts) :
    groupBody (fuel + 1) .standard names g ('\\' :: c :: cs) =
      groupBody fuel .standard names (g.add (some (.set (.char c)))) cs := by
  have hskip : Flags.standard.skip ('\\' :: c :: cs) = '\\' :: c :: cs := rfl
  have hprimitive : primitive .standard ('\\' :: c :: cs) = some (.char c, cs) := escape_meta h
  rw [groupBody, hskip]
  split
  case h_10 =>
    rw [hprimitive]
    rfl
  all_goals
    rename_i heq
    cases heq

theorem groupBody_nil (g : GroupParts) :
    groupBody (fuel + 1) .standard names g [] = some (g.regex, names, []) := by
  rw [groupBody]
  rfl

theorem groupBody_escaped (g : GroupParts) (h : text.length < fuel) :
    groupBody fuel .standard names g (escaped text) =
      some (GroupParts.regex ⟨g.alternatives, (text.map fun c => some (.set (.char c))).reverse ++ g.pieces⟩,
        names, []) := by
  induction text generalizing g fuel with
  | nil =>
      obtain ⟨fuel, rfl⟩ := Nat.exists_eq_add_one_of_ne_zero (Nat.ne_of_gt h)
      rw [escaped, List.flatMap_nil, groupBody_nil]
      rfl
  | cons c text ih =>
      obtain ⟨fuel, rfl⟩ := Nat.exists_eq_add_one_of_ne_zero (Nat.ne_zero_of_lt h)
      have hstep : groupBody (fuel + 1) .standard names g (escaped (c :: text)) =
          groupBody fuel .standard names (g.add (some (.set (.char c)))) (escaped text) := by
        rw [escaped, List.flatMap_cons]
        cases hc : isMeta c with
        | true => exact groupBody_meta hc g
        | false => exact groupBody_plain hc g
      rw [hstep, ih _ (Nat.lt_of_succ_lt_succ h), GroupParts.add, List.map_cons, List.reverse_cons, List.append_assoc]
      rfl

theorem length_le_escaped (text : List Char) : text.length ≤ (escaped text).length := by
  induction text with
  | nil => exact Nat.zero_le _
  | cons c text ih =>
      have hone : 1 ≤ (if isMeta c then ['\\', c] else [c]).length := by split <;> simp
      rw [escaped, List.flatMap_cons, List.length_append, List.length_cons, Nat.add_comm]
      exact Nat.add_le_add hone ih

/-- An escaped text is read as the expression that spells it, unless this is too large. -/
theorem parse?_escaped (text : List Char) :
    parse? (String.ofList (escaped text)) =
      if costLimit < (spelled text).cost then none else some (spelled text) := by
  have hregex : GroupParts.regex ⟨[], (text.map fun c => some (.set (.char c))).reverse ++ []⟩ = spelled text := by
    simp [GroupParts.regex, GroupParts.closeAlternative, oneOf, spelled]
  have hbody : groupBody ((escaped text).length + 1) .standard [] ⟨[], []⟩ (escaped text) =
      some (spelled text, [], []) := by
    rw [groupBody_escaped ⟨[], []⟩ (Nat.lt_succ_of_le (length_le_escaped text)), hregex]
  rw [parse?, String.toList_ofList]
  simp only [hbody]

/-! ## Matching -/

/-- Goes on over a text that stands at a place. -/
def advanceOver : (text : List Char) → Cursor → Option Cursor
  | [], p => some p
  | _ :: _, ⟨_, []⟩ => none
  | a :: as, ⟨_, c :: rest⟩ => if a = c then advanceOver as ⟨some c, rest⟩ else none

/-- The expression matches a text wherever it stands, and nothing else. -/
def MatchesText (r : Regex) (text : List Char) : Prop := ∀ p, r.matchAt p = advanceOver text p

theorem contains_char {d : Char} : (CharSet.char c).contains d = decide (c = d) := by
  rw [CharSet.char, CharSet.contains, ← Bool.decide_and, decide_eq_decide]
  constructor
  · rintro ⟨hle, hge⟩
    exact Char.le_antisymm hle hge
  · rintro rfl
    exact ⟨Char.le_refl c, Char.le_refl c⟩

theorem matchFrom_char (p : Cursor) (k : Cursor → Option Cursor) :
    (Regex.set (.char c)).matchFrom p (fun q _ => k q) = (advanceOver [c] p).bind k := by
  obtain ⟨before, rest⟩ := p
  cases rest with
  | nil =>
      rw [matchFrom]
      rfl
  | cons d rest =>
      rw [matchFrom, contains_char, advanceOver]
      by_cases hc : c = d
      · simp only [hc, decide_true, ↓reduceIte]
        rfl
      · simp only [hc, decide_false, Bool.false_eq_true, ↓reduceIte]
        rfl

theorem advanceOver_cons (c : Char) (text : List Char) (p : Cursor) :
    advanceOver (c :: text) p = (advanceOver [c] p).bind (advanceOver text) := by
  obtain ⟨before, rest⟩ := p
  cases rest with
  | nil => rfl
  | cons d rest =>
      simp only [advanceOver]
      split <;> rfl

theorem matchFrom_spelled (text : List Char) (p : Cursor) (k : Cursor → Option Cursor) :
    (spelled text).matchFrom p (fun q _ => k q) = (advanceOver text p).bind k := by
  induction text generalizing p with
  | nil =>
      rw [spelled, List.map_nil, concat, matchFrom]
      rfl
  | cons c text ih =>
      rw [advanceOver_cons]
      cases text with
      | nil =>
          rw [spelled, List.map_singleton, concat, matchFrom_char]
          cases advanceOver [c] p <;> rfl
      | cons d text =>
          have hseq : spelled (c :: d :: text) = .seq (.set (.char c)) (spelled (d :: text)) := rfl
          rw [hseq, matchFrom]
          simp only [ih, matchFrom_char]
          cases advanceOver [c] p <;> rfl

theorem matchesText_spelled (text : List Char) : (spelled text).MatchesText text := by
  intro p
  rw [matchAt, matchFrom_spelled, Option.bind_fun_some]

theorem matchesText_escaped {r : Regex} (h : parse? (String.ofList (escaped text)) = some r) : r.MatchesText text := by
  rw [parse?_escaped] at h
  split at h
  · cases h
  · cases h
    exact matchesText_spelled text

end PackageRecipes.Regex
