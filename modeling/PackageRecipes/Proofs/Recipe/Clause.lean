import PackageRecipes.Proofs.Condition.Requirements
import PackageRecipes.Proofs.Recipe.Declare

/-!
# Clauses

A clause of a recipe states one condition, or alternative conditions. The condition that is read from it holds
exactly where one of the texts states a condition that holds.
-/

namespace PackageRecipes

variable {s : PackageSpec} {w : When} {c : Condition}

/-! ## What a clause states -/

/-- The condition that a clause of a package states. -/
inductive Clause (package : String) : When → Condition → Prop where
  | absent : Clause package none .always
  | one {text : String} {c : Condition} (h : Condition.parse package text = .ok c) :
      Clause package (some (.one text)) c
  | many {texts : List String} {cs : List Condition} (hne : texts ≠ [])
      (h : List.Forall₂ (fun text c => Condition.parse package text = .ok c) texts cs) :
      Clause package (some (.many texts)) (.disj cs)

theorem Condition.parse_ok {package text : String} :
    parse package text = .ok c ↔ Clause package (some (.one text)) c := by
  constructor
  · exact .one
  · intro h
    cases h with
    | one h => exact h

theorem Condition.parseAny_ok {package : String} {texts : List String} :
    parseAny package texts = .ok c ↔ Clause package (some (.many texts)) c := by
  rw [parseAny]
  constructor
  · intro h
    split at h
    · cases h
    · rename_i hne
      obtain ⟨cs, hcs, rfl⟩ := exceptMap_ok.1 h
      exact .many (by simpa using hne) (mapM_ok.1 hcs)
  · intro h
    cases h with
    | many hne hcs =>
        rw [if_neg (by simpa using hne), mapM_ok.2 hcs]
        rfl

namespace PackageSpec

theorem checked_ok {read : Except Condition.Error Condition} :
    (match read with
      | .error e => .error e
      | .ok c => (s.checkCondition c).map fun () => c) = Except.ok c ↔
        read = .ok c ∧ s.checkCondition c = .ok () := by
  cases read with
  | error e => simp
  | ok c' =>
      simp only [exceptMap_ok, Except.ok.injEq]
      constructor
      · rintro ⟨_, hcheck, rfl⟩
        exact ⟨rfl, hcheck⟩
      · rintro ⟨rfl, hcheck⟩
        exact ⟨(), hcheck, rfl⟩

theorem readWhen_ok : s.readWhen w = .ok c ↔ Clause s.name w c ∧ s.checkCondition c = .ok () := by
  cases w with
  | none =>
      constructor
      · intro h
        cases h
        exact ⟨.absent, rfl⟩
      · rintro ⟨h, -⟩
        cases h
        rfl
  | some clause =>
      cases clause with
      | one text =>
          rw [← Condition.parse_ok]
          exact checked_ok
      | many texts =>
          rw [← Condition.parseAny_ok]
          exact checked_ok

/-- The clause states a condition that suits the declared variants. -/
def Allows (s : PackageSpec) (w : When) : Prop :=
  ∃ c, Clause s.name w c ∧ s.checkCondition c = .ok ()

theorem parseWhen_ok {field : Field} :
    s.parseWhen w field = .ok c ↔ Clause s.name w c ∧ s.checkCondition c = .ok () := by
  rw [← readWhen_ok, parseWhen]
  cases s.readWhen w <;> simp [Except.mapError]

theorem parseWhen_error {field : Field} {fault : Error} (h : s.parseWhen w field = .error fault) :
    ∃ cause, fault = .malformedCondition s.name field cause := by
  rw [parseWhen] at h
  cases hread : s.readWhen w with
  | error cause => rw [hread] at h; cases h; exact ⟨cause, rfl⟩
  | ok c => rw [hread] at h; cases h

theorem exists_parseWhen_ok {field : Field} :
    (∃ c, s.parseWhen w field = .ok c) ↔ s.Allows w := by
  simp only [Allows, parseWhen_ok]

end PackageSpec

/-! ## Where a clause is met -/

namespace Condition

theorem holds_disj (config : Configuration) (alternatives : List Condition) :
    holds config (disj alternatives) = alternatives.any (holds config) := by
  rcases alternatives with _ | ⟨c, _ | ⟨d, rest⟩⟩
  · simp [disj, holds, anyHolds_eq]
  · simp [disj]
  · simp [disj, holds, anyHolds_eq]

theorem any_holds_iff {package : String} {texts : List String} {cs : List Condition} {config : Configuration}
    (h : List.Forall₂ (fun text c => parse package text = .ok c) texts cs) :
    cs.any (holds config) ↔ ∃ text ∈ texts, ∃ c, parse package text = .ok c ∧ holds config c := by
  induction h with
  | nil => simp
  | cons hfirst _ ih => simp [hfirst, ← ih]

end Condition

/-- The clause is absent, or one of its texts states a condition that holds. -/
def When.IsMet (package : String) (config : Configuration) : When → Prop
  | none => True
  | some texts => ∃ text ∈ texts.toList, ∃ c, Condition.parse package text = .ok c ∧ c.holds config

theorem Condition.toOption_parse_any {package text : String} {config : Configuration} :
    (parse package text).toOption.any (holds config) ↔ ∃ c, parse package text = .ok c ∧ c.holds config := by
  cases parse package text with
  | error e => simp [Except.toOption]
  | ok c => simp [Except.toOption]

instance (package : String) (config : Configuration) : (w : When) → Decidable (w.IsMet package config)
  | none => .isTrue trivial
  | some texts =>
    decidable_of_iff
      (texts.toList.any fun text => (Condition.parse package text).toOption.any (Condition.holds config)) (by
        rw [List.any_eq_true]
        simp only [Condition.toOption_parse_any, When.IsMet])

theorem Clause.holds_iff {package : String} (h : Clause package w c) (config : Configuration) :
    c.holds config ↔ w.IsMet package config := by
  cases h with
  | absent => simp [When.IsMet, Condition.holds]
  | one hread => simp [When.IsMet, OneOrMany.toList, hread]
  | many _ hread => rw [Condition.holds_disj, Condition.any_holds_iff hread, When.IsMet, OneOrMany.toList]

end PackageRecipes
