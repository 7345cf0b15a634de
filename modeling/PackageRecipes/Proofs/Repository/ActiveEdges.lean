import Mathlib.Logic.Relation
import Mathlib.Order.Bounds.Basic
import PackageRecipes.Proofs.Repository.Basic

/-!
# Active edges

Which packages need which, when the root of a build is taken as it is given and every other package at
one configuration.
-/

namespace PackageRecipes.Repository

open Relation

/-- The configuration that a package is read at: the root as it is, any other as `choice` says. -/
def chosen (root : Configuration) (choice : String → Option Configuration) (name : String) :
    Option Configuration :=
  if name = root.name then some root else choice name

/-- The default configuration with a compiler. -/
def defaultWith (r : Repository) (compiler : Option Compiler) (name : String) :
    Option Configuration :=
  (r.default? name).map fun c => { c with compiler := compiler }

/-- A dependency of a package is active. -/
def ActiveEdge (r : Repository) (root : Configuration) (choice : String → Option Configuration)
    (name dependency : String) : Prop :=
  ∃ c, chosen root choice name = some c ∧ dependency ∈ r.activeTargets c

/-- A dependency of a package is active, and the repository can provide it. -/
def Needs (r : Repository) (root : Configuration) (choice : String → Option Configuration)
    (name dependency : String) : Prop :=
  r.ActiveEdge root choice name dependency ∧ r.Installable dependency

/-- The set holds the root and, with each package, all that the package needs. -/
structure Closed (r : Repository) (root : Configuration) (choice : String → Option Configuration)
    (S : Set String) : Prop where
  root_mem : root.name ∈ S
  needed_mem : ∀ n ∈ S, ∀ d, r.ActiveEdge root choice n d → r.Installable d → d ∈ S

variable {r : Repository} {root : Configuration} {choice : String → Option Configuration}

theorem defaultWith_isSome {compiler : Option Compiler} {n : String} :
    (r.defaultWith compiler n).isSome ↔ r.Installable n := by
  rw [defaultWith, Option.isSome_map, default?_isSome]

theorem Keyed.defaultWith_eq (h : r.Keyed) {compiler : Option Compiler} {n : String}
    {c : Configuration} (hc : r.defaultWith compiler n = some c) :
    c.name = n ∧ c.compiler = compiler ∧ c.dependencies = .empty := by
  obtain ⟨d, hd, rfl⟩ := Option.map_eq_some_iff.1 hc
  obtain ⟨hname, _, hnone⟩ := h.default?_eq hd
  exact ⟨hname, rfl, hnone⟩

theorem needs_iff {n d : String} {c : Configuration} (hc : chosen root choice n = some c) :
    r.Needs root choice n d ↔ d ∈ r.activeTargets c ∧ r.Installable d := by
  simp [Needs, ActiveEdge, hc]

theorem ActiveEdge.of_any {n d : String}
    (h : (chosen root choice n).any fun c => d ∈ r.activeTargets c) : r.ActiveEdge root choice n d := by
  obtain ⟨c, hc, hd⟩ := (Option.any_eq_true _ _).1 h
  exact ⟨c, hc, of_decide_eq_true hd⟩

/-- Only the root and packages that can be installed have active dependencies. -/
theorem ActiveEdge.root_or_installable {n d : String} (h : r.ActiveEdge root r.default? n d) :
    n = root.name ∨ r.Installable n := by
  obtain ⟨c, hc, _⟩ := h
  by_cases hn : n = root.name
  · exact Or.inl hn
  · rw [chosen, if_neg hn] at hc
    exact Or.inr (default?_isSome.1 (by rw [hc]; rfl))

theorem Installable.mem_names {n : String} (h : r.Installable n) : n ∈ r.names := by
  obtain ⟨s, hs, _⟩ := h
  exact mem_names_iff.2 ⟨s, hs⟩

theorem Closed.reached_mem {S : Set String} (h : r.Closed root choice S) {n : String}
    (hn : ReflTransGen (r.Needs root choice) root.name n) : n ∈ S := by
  induction hn with
  | refl => exact h.root_mem
  | tail _ hneeds ih => exact h.needed_mem _ ih _ hneeds.1 hneeds.2

/-- What the root needs, directly or not, is the least closed set. -/
theorem isLeast_reached :
    IsLeast {S | r.Closed root choice S} {n | ReflTransGen (r.Needs root choice) root.name n} :=
  ⟨⟨.refl, fun _ hn _ hedge hd => .tail hn ⟨hedge, hd⟩⟩, fun _ hS _ hn => hS.reached_mem hn⟩

end PackageRecipes.Repository
