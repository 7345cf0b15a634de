import PackageRecipes.Proofs.Condition.Conjunction
import PackageRecipes.Proofs.Recipe.Entries

/-!
# The text of a conflict

A conflict is stored as the conjunction of its selection and its clause, and it is shown as one condition. Atoms of
the clause that are shown behind a dependency of the selection say something about that dependency, not about the
package. Elsewhere the text says what the conflict checks.
-/

namespace PackageRecipes

open Condition

/-! ## What is stored -/

theorem Recipe.toSpec_stores {r : Recipe} {s : PackageSpec} (h : r.toSpec = .ok s) :
    List.Forall₂ (ConflictEntry.Stores r.package.name) r.conflicts s.conflicts := by
  obtain ⟨s₀, hs₀, s₁, hs₁, s₂, hs₂, s₃, hs₃, hs⟩ := toSpec_ok.1 h
  obtain ⟨-, rfl⟩ := bareSpec_ok hs₀
  obtain ⟨versions, -, rfl⟩ := declareVersions_extends hs₁
  obtain ⟨variants, -, rfl⟩ := declareVariants_extends hs₂
  obtain ⟨dependencies, -, rfl⟩ := declareDependencies_extends (by rfl) hs₃
  obtain ⟨conflicts, hconflicts, rfl⟩ := declareConflicts_stores (by rfl) hs
  exact hconflicts

theorem Clause.isRead {package : String} {w : When} {c : Condition} (h : Clause package w c) (hplain : c.isPlain) :
    IsRead c := by
  cases h with
  | absent => exact isRead_always
  | one hread => exact isRead_of_parse hread
  | many hne hread =>
      cases hread with
      | nil => exact absurd rfl hne
      | cons hfirst hrest =>
          cases hrest with
          | nil => exact isRead_of_parse hfirst
          | cons => cases hplain

/-! ## What is shown -/

/-- The text of the conflict is a condition on the package, and it says what the conflict checks. -/
def Conflict.IsTold (package : String) (c : Conflict) : Prop :=
  ∃ written, parse package c.condition.render = .ok written ∧ ∀ config, written.holds config = c.applies config

/-- What the text of a conflict says. -/
structure ConflictEntry.Shows (package : String) (e : ConflictEntry) (c : Conflict)
    (selection clause written : Condition) : Prop where
  selected : parse package e.spec = .ok selection
  stated : Clause package e.when clause
  applies : ∀ config, c.applies config ↔ selection.holds config ∧ clause.holds config
  read : parse package c.condition.render = .ok written
  /-- The clause's own atoms are about what ends the text of the selection. -/
  holds : ∀ config, written.holds config ↔ selection.holds config ∧
    (∃ d ∈ selection.subject? config, ∀ a ∈ clause.own, a.holds d) ∧ ∀ d ∈ clause.needs, d.holds config
  told : selection.needs = [] ∨ clause.own = [] → c.IsTold package

namespace Recipe

variable {r : Recipe} {s : PackageSpec} {e : ConflictEntry} {c : Conflict}

/-- The text of a conflict without alternatives in it is a condition again. It says what the conflict checks if the
selection has no dependency in it or the clause no atom on the package. Otherwise the clause's atoms turn into atoms
on the last dependency of the selection. -/
theorem toSpec_shows (h : r.toSpec = .ok s) (hc : (e, c) ∈ r.conflicts.zip s.conflicts)
    (hnot : c.condition.isAlways = false) (hplain : c.condition.isPlain) :
    ∃ selection clause written, e.Shows r.package.name c selection clause written := by
  obtain @⟨selection, clause, hselection, hclause⟩ := (List.forall₂_iff_zip.1 (toSpec_stores h)).2 hc
  rw [isPlain_conj, List.all_eq_true, List.forall_mem_cons, List.forall_mem_singleton] at hplain
  obtain ⟨written, hread, hholds⟩ := exists_parse_conj r.package.name (isRead_of_parse hselection)
    (hclause.isRead hplain.2) hplain.1 hplain.2 hnot
  have htold (hbehind : selection.needs = [] ∨ clause.own = []) :
      Conflict.IsTold r.package.name ⟨.conj [selection, clause], e.message⟩ := by
    refine ⟨written, hread, fun config => ?_⟩
    rw [Bool.eq_iff_iff, hholds, holds_conj_of_written hbehind]
    rfl
  exact ⟨selection, clause, written, hselection, hclause, fun config => holds_conj_pair, hread, hholds, htold⟩

/-- A package that clashes with a branch of one of its dependencies, on a branch of its own and with a switch. -/
def coupledGene : Recipe where
  package := ⟨"gene-all", none, none, .makefile, true, none, some "https://example.org/gene.git"⟩
  versions := [⟨"gitlab", none, none, none, none, none, none, some "gitlab", none, none, false, true⟩]
  variants := [⟨"effis", .bool false, none, false, none⟩]
  depends := [⟨"effis", some (.one "@gitlab +effis"), none⟩]
  conflicts := [⟨"^effis@kittie", some (.one "@gitlab +effis"), none⟩]
  build := .empty

/-- The package on its branch and with its switch, with the dependency on the branch that it clashes with. -/
def clashing : Configuration :=
  { (Configuration.bare "gene-all" ⟨"gitlab", [.text "gitlab"]⟩).withDependency
      (.bare "effis" ⟨"kittie", [.text "kittie"]⟩) with variants := ⟨[("effis", .bool true)]⟩ }

theorem coupledGene_stored : ∃ s c, coupledGene.toSpec = .ok s ∧ s.conflicts = [c] ∧
    c.condition.isAlways = false ∧ c.condition.isPlain ∧ c.applies clashing ∧
    c.condition.render = "^effis@kittie @gitlab +effis" := by
  have hstored : coupledGene.toSpec.toOption.map (fun s => s.conflicts.map fun c =>
      (c.condition.isAlways, c.condition.isPlain, c.applies clashing, c.condition.render)) =
        some [(false, true, true, "^effis@kittie @gitlab +effis")] := by decide +kernel
  obtain ⟨s, hs, hmap⟩ := exists_of_toOption_map hstored
  obtain ⟨c, hconflicts, hc⟩ := List.map_eq_singleton_iff.1 hmap
  simp only [Prod.mk.injEq] at hc
  exact ⟨s, c, hs, hconflicts, hc⟩

theorem shows_coupledGene : ∃ s e c selection clause written, coupledGene.toSpec = .ok s ∧
    (e, c) ∈ coupledGene.conflicts.zip s.conflicts ∧ c.condition.isAlways = false ∧ c.condition.isPlain ∧
      e.Shows "gene-all" c selection clause written := by
  obtain ⟨s, c, hs, hconflicts, hnot, hplain, -, -⟩ := coupledGene_stored
  have hc : (⟨"^effis@kittie", some (.one "@gitlab +effis"), none⟩, c) ∈
      coupledGene.conflicts.zip s.conflicts := by
    rw [hconflicts]
    exact List.mem_cons_self
  obtain ⟨selection, clause, written, hshows⟩ := toSpec_shows hs hc hnot hplain
  exact ⟨s, _, c, selection, clause, written, hs, hc, hnot, hplain, hshows⟩

/-- Conditions on the package turn into conditions on its dependency, so the text of a conflict that applies is not
met. -/
theorem not_isTold :
    ¬ ∀ (r : Recipe) (s : PackageSpec) (e : ConflictEntry) (c : Conflict) (selection clause : Condition),
      r.toSpec = .ok s → (e, c) ∈ r.conflicts.zip s.conflicts → (∀ texts, e.when ≠ some (.many texts)) →
      parse r.package.name e.spec = .ok selection → Clause r.package.name e.when clause →
      selection.isAlways = false → (e.when = none ∨ clause.isAlways = false) →
      selection.isPlain → clause.isPlain → c.IsTold r.package.name := by
  intro hall
  obtain ⟨s, c, hs, hconflicts, -, -, happlies, htext⟩ := coupledGene_stored
  have hselected : (parse "gene-all" "^effis@kittie").toOption.map (fun c => (c.isAlways, c.isPlain)) =
      some (false, true) := by decide +kernel
  have hstated : (parse "gene-all" "@gitlab +effis").toOption.map (fun c => (c.isAlways, c.isPlain)) =
      some (false, true) := by decide +kernel
  have hmissed : (parse "gene-all" "^effis@kittie @gitlab +effis").toOption.map (·.holds clashing) = some false := by
    decide +kernel
  obtain ⟨selection, hselection, hplain⟩ := exists_of_toOption_map hselected
  obtain ⟨clause, hclause, hplain'⟩ := exists_of_toOption_map hstated
  obtain ⟨told, htold, hfalse⟩ := exists_of_toOption_map hmissed
  rw [Prod.mk.injEq] at hplain hplain'
  obtain ⟨written, hread, hagree⟩ := hall coupledGene s ⟨"^effis@kittie", some (.one "@gitlab +effis"), none⟩ c
    selection clause hs (by rw [hconflicts]; exact List.mem_cons_self) nofun hselection (.one hclause) hplain.1
    (.inr hplain'.1) hplain.2 hplain'.2
  rw [htext] at hread
  obtain rfl : written = told := Except.ok.inj (hread.symm.trans htold)
  rw [hagree, happlies] at hfalse
  cases hfalse

end Recipe

end PackageRecipes
