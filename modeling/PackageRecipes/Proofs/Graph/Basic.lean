import Mathlib.Logic.Relation
import PackageRecipes.Graph
import PackageRecipes.Proofs.NameMap

/-!
# Graphs that additions build

What each addition does to the names and edges of a graph, and the invariant that all of them keep:
every edge is listed at both its ends, and both ends are in the graph.
-/

namespace PackageRecipes.Graph

/-- There is an edge from a package to one that it needs. -/
def DependsOn (g : Graph) (name dependency : String) : Prop := dependency ∈ g.dependenciesOf name

/-- No package needs itself, directly or through others. -/
def Acyclic (g : Graph) : Prop := ∀ name, ¬ Relation.TransGen g.DependsOn name name

/-- What can be added to a graph. -/
inductive Addition where
  | package (name : String) (dependencies : List String)
  | configuration (root : Configuration)

def add (g : Graph) : Addition → Graph
  | .package name dependencies => g.addPackage name dependencies
  | .configuration root => g.addConfiguration root

/-- The graph that a sequence of additions builds from nothing. -/
def ofAdditions (additions : List Addition) : Graph := additions.foldl add empty

/-! ## One name, one edge -/

variable {g : Graph} {n d k x : String}

theorem get?_ensure (m : NameMap NameSet) (n k : String) :
    (ensure m n).get? k = if k = n then some ((m.get? n).getD .empty) else m.get? k := by
  by_cases hc : m.contains n
  · obtain ⟨s, hs⟩ := Option.isSome_iff_exists.1 hc
    by_cases hk : k = n <;> simp [ensure, hc, hk, hs]
  · have hn : m.get? n = none := by simpa [NameMap.contains] using hc
    by_cases hk : k = n <;> simp [ensure, hc, hk, hn]

theorem ensure_ascending {m : NameMap NameSet} (h : m.Ascending) (n : String) :
    (ensure m n).Ascending := by
  unfold ensure
  split
  · exact h
  · exact h.insert n _

@[simp] theorem dependenciesOf_addNode : (g.addNode n).dependenciesOf k = g.dependenciesOf k := by
  by_cases hk : k = n <;> simp [dependenciesOf, dependencies?, addNode, get?_ensure, hk]

@[simp] theorem dependentsOf_addNode : (g.addNode n).dependentsOf k = g.dependentsOf k := by
  by_cases hk : k = n <;> simp [dependentsOf, dependents?, addNode, get?_ensure, hk]

@[simp] theorem contains_addNode : (g.addNode n).contains k ↔ k = n ∨ g.contains k := by
  by_cases hk : k = n <;> simp [contains, NameMap.contains, addNode, get?_ensure, hk]

theorem extend_of_contains {m : NameMap NameSet} (h : m.contains k) (x : String) :
    extend m k x = m.insert k (((m.get? k).getD .empty).insert x) := by
  obtain ⟨s, hs⟩ := Option.isSome_iff_exists.1 h
  rw [extend, hs]
  rfl

/-- Both ends are in the graph before an edge is listed, so neither of the two sets is missing. -/
theorem addEdge_eq (g : Graph) (n d : String) :
    g.addEdge n d = ⟨((g.addNode n).addNode d).dependencies.insert n
        ((((g.addNode n).addNode d).dependenciesOf n).insert d),
      ((g.addNode n).addNode d).dependents.insert d ((((g.addNode n).addNode d).dependentsOf d).insert n)⟩ := by
  have hn : ((g.addNode n).addNode d).dependencies.contains n := by
    by_cases hnd : n = d <;> simp [NameMap.contains, addNode, get?_ensure, hnd]
  have hd : ((g.addNode n).addNode d).dependents.contains d := by
    simp [NameMap.contains, addNode, get?_ensure]
  simp only [addEdge]
  rw [extend_of_contains hn, extend_of_contains hd]
  rfl

@[simp] theorem mem_dependenciesOf_addEdge :
    x ∈ (g.addEdge n d).dependenciesOf k ↔ k = n ∧ x = d ∨ x ∈ g.dependenciesOf k := by
  have hold : ((g.addNode n).addNode d).dependenciesOf k = g.dependenciesOf k := by simp
  rw [addEdge_eq]
  by_cases hk : k = n
  · subst hk
    simp only [dependenciesOf, dependencies?] at hold
    simp [dependenciesOf, dependencies?, hold]
  · simp only [dependenciesOf, dependencies?] at hold
    simp [dependenciesOf, dependencies?, hk, hold]

@[simp] theorem mem_dependentsOf_addEdge :
    x ∈ (g.addEdge n d).dependentsOf k ↔ k = d ∧ x = n ∨ x ∈ g.dependentsOf k := by
  have hold : ((g.addNode n).addNode d).dependentsOf k = g.dependentsOf k := by simp
  rw [addEdge_eq]
  by_cases hk : k = d
  · subst hk
    simp only [dependentsOf, dependents?] at hold
    simp [dependentsOf, dependents?, hold]
  · simp only [dependentsOf, dependents?] at hold
    simp [dependentsOf, dependents?, hk, hold]

@[simp] theorem contains_addEdge : (g.addEdge n d).contains k ↔ k = n ∨ k = d ∨ g.contains k := by
  have hold : ((g.addNode n).addNode d).contains k ↔ k = d ∨ k = n ∨ g.contains k := by simp
  rw [addEdge_eq]
  simp only [contains, NameMap.contains] at hold
  by_cases hk : k = n
  · simp [contains, NameMap.contains, hk]
  · simp only [contains, NameMap.contains, NameMap.get?_insert, hk, ↓reduceIte, false_or, hold]

/-! ## Packages and configurations -/

theorem foldl_addEdge_dependenciesOf (ds : List String) (g : Graph) :
    x ∈ (ds.foldl (fun g d => g.addEdge n d) g).dependenciesOf k ↔
      k = n ∧ x ∈ ds ∨ x ∈ g.dependenciesOf k := by
  induction ds generalizing g with
  | nil => simp
  | cons d ds ih =>
      rw [List.foldl_cons, ih, mem_dependenciesOf_addEdge, List.mem_cons]
      constructor
      · rintro (⟨hk, hx⟩ | ⟨hk, hx⟩ | hx) <;> simp_all
      · rintro (⟨hk, hx | hx⟩ | hx) <;> simp_all

theorem dependsOn_addPackage {ds : List String} :
    (g.addPackage n ds).DependsOn k x ↔ k = n ∧ x ∈ ds ∨ g.DependsOn k x := by
  simp [DependsOn, addPackage, foldl_addEdge_dependenciesOf]

theorem contains_addPackage {ds : List String} :
    (g.addPackage n ds).contains k ↔ k = n ∨ k ∈ ds ∨ g.contains k := by
  have hfold : ∀ (ds : List String) (g : Graph), g.contains n →
      ((ds.foldl (fun g d => g.addEdge n d) g).contains k ↔ k ∈ ds ∨ g.contains k) := by
    intro ds
    induction ds with
    | nil => simp
    | cons d ds ih =>
        intro g hn
        rw [List.foldl_cons, ih _ (by simp), contains_addEdge, List.mem_cons]
        constructor
        · rintro (h | rfl | h | h) <;> simp_all
        · rintro ((h | h) | h) <;> simp_all
  rw [addPackage, hfold ds _ (by simp), contains_addNode]
  constructor
  · rintro (h | h | h) <;> simp [h]
  · rintro (h | h | h) <;> simp [h]

theorem dependsOn_addConfiguration {root : Configuration} :
    (g.addConfiguration root).DependsOn k x ↔
      (∃ c ∈ root.walk, c.name = k ∧ x ∈ c.dependencies.keys) ∨ g.DependsOn k x := by
  unfold addConfiguration
  induction root.walk generalizing g with
  | nil => simp
  | cons c cs ih =>
      rw [List.foldl_cons, ih, dependsOn_addPackage]
      constructor
      · rintro (⟨c', hc', h⟩ | ⟨rfl, hx⟩ | h)
        · exact Or.inl ⟨c', List.mem_cons_of_mem _ hc', h⟩
        · exact Or.inl ⟨c, List.mem_cons_self, rfl, hx⟩
        · exact Or.inr h
      · rintro (⟨c', hc', hk, hx⟩ | h)
        · rcases List.mem_cons.1 hc' with rfl | hc'
          · exact Or.inr (Or.inl ⟨hk.symm, hx⟩)
          · exact Or.inl ⟨c', hc', hk, hx⟩
        · exact Or.inr (Or.inr h)

theorem contains_addConfiguration {root : Configuration} :
    (g.addConfiguration root).contains k ↔
      (∃ c ∈ root.walk, k = c.name ∨ k ∈ c.dependencies.keys) ∨ g.contains k := by
  unfold addConfiguration
  induction root.walk generalizing g with
  | nil => simp
  | cons c cs ih =>
      rw [List.foldl_cons, ih, contains_addPackage]
      constructor
      · rintro (⟨c', hc', h⟩ | h | h | h)
        · exact Or.inl ⟨c', List.mem_cons_of_mem _ hc', h⟩
        · exact Or.inl ⟨c, List.mem_cons_self, Or.inl h⟩
        · exact Or.inl ⟨c, List.mem_cons_self, Or.inr h⟩
        · exact Or.inr h
      · rintro (⟨c', hc', h⟩ | h)
        · rcases List.mem_cons.1 hc' with rfl | hc'
          · rcases h with h | h
            · exact Or.inr (Or.inl h)
            · exact Or.inr (Or.inr (Or.inl h))
          · exact Or.inl ⟨c', hc', h⟩
        · exact Or.inr (Or.inr (Or.inr h))

/-! ## Sequences of additions -/

/-- A package that an addition brings into the graph: of a tree, those that a walk meets and what they need. -/
def Addition.Brings : Addition → String → Prop
  | .package name dependencies, n => n = name ∨ n ∈ dependencies
  | .configuration root, n => ∃ c ∈ root.walk, n = c.name ∨ n ∈ c.dependencies.keys

/-- A package and one that it needs, as an addition joins them in the graph: of a tree, what a walk meets. -/
def Addition.Joins : Addition → String → String → Prop
  | .package name dependencies, n, d => n = name ∧ d ∈ dependencies
  | .configuration root, n, d => ∃ c ∈ root.walk, c.name = n ∧ d ∈ c.dependencies.keys

theorem contains_add {a : Addition} : (g.add a).contains n ↔ a.Brings n ∨ g.contains n := by
  cases a with
  | package name dependencies => rw [add, contains_addPackage, Addition.Brings, or_assoc]
  | configuration root => exact contains_addConfiguration

theorem dependsOn_add {a : Addition} : (g.add a).DependsOn n d ↔ a.Joins n d ∨ g.DependsOn n d := by
  cases a with
  | package name dependencies => exact dependsOn_addPackage
  | configuration root => exact dependsOn_addConfiguration

theorem contains_ofAdditions {additions : List Addition} :
    (ofAdditions additions).contains n ↔ ∃ a ∈ additions, a.Brings n := by
  have hfold (g : Graph) : (additions.foldl add g).contains n ↔ (∃ a ∈ additions, a.Brings n) ∨ g.contains n := by
    induction additions generalizing g with
    | nil => simp
    | cons a rest ih => rw [List.foldl_cons, ih, contains_add, List.exists_mem_cons_iff, or_assoc, or_left_comm]
  exact (hfold empty).trans (or_iff_left (by intro h; cases h))

theorem dependsOn_ofAdditions {additions : List Addition} :
    (ofAdditions additions).DependsOn n d ↔ ∃ a ∈ additions, a.Joins n d := by
  have hfold (g : Graph) :
      (additions.foldl add g).DependsOn n d ↔ (∃ a ∈ additions, a.Joins n d) ∨ g.DependsOn n d := by
    induction additions generalizing g with
    | nil => simp
    | cons a rest ih => rw [List.foldl_cons, ih, dependsOn_add, List.exists_mem_cons_iff, or_assoc, or_left_comm]
  exact (hfold empty).trans (or_iff_left (by intro h; cases h))

/-! ## The invariant -/

/-- The names are in order, and each edge is listed at both its ends, which are in the graph. -/
structure Consistent (g : Graph) : Prop where
  ascending : g.dependencies.Ascending
  closed : ∀ n d, g.DependsOn n d → g.contains d
  mirrored : ∀ n d, n ∈ g.dependentsOf d ↔ d ∈ g.dependenciesOf n

theorem Consistent.empty : Consistent .empty where
  ascending := NameMap.empty_ascending
  closed := by
    intro n d h
    cases h
  mirrored := by
    intro n d
    constructor <;> (intro h; cases h)

theorem Consistent.addNode (h : g.Consistent) (n : String) : (g.addNode n).Consistent where
  ascending := ensure_ascending h.ascending n
  closed := by
    intro k x hx
    rw [DependsOn, dependenciesOf_addNode] at hx
    exact contains_addNode.2 (Or.inr (h.closed k x hx))
  mirrored := by
    intro k x
    rw [dependentsOf_addNode, dependenciesOf_addNode]
    exact h.mirrored k x

theorem Consistent.addEdge (h : g.Consistent) (n d : String) : (g.addEdge n d).Consistent where
  ascending := by
    rw [addEdge_eq]
    exact ((h.addNode n).addNode d).ascending.insert n _
  closed := by
    intro k x hx
    rw [DependsOn, mem_dependenciesOf_addEdge] at hx
    rcases hx with ⟨_, rfl⟩ | hx
    · exact contains_addEdge.2 (Or.inr (Or.inl rfl))
    · exact contains_addEdge.2 (Or.inr (Or.inr (h.closed k x hx)))
  mirrored := by
    intro k x
    rw [mem_dependentsOf_addEdge, mem_dependenciesOf_addEdge, h.mirrored, and_comm]

theorem Consistent.addPackage (h : g.Consistent) (n : String) (ds : List String) :
    (g.addPackage n ds).Consistent :=
  List.foldlRecOn ds _ (h.addNode n) fun _ hg d _ => hg.addEdge n d

theorem Consistent.addConfiguration (h : g.Consistent) (root : Configuration) :
    (g.addConfiguration root).Consistent :=
  List.foldlRecOn root.walk _ h fun _ hg c _ => hg.addPackage c.name c.dependencies.keys

theorem Consistent.add (h : g.Consistent) (a : Addition) : (g.add a).Consistent := by
  cases a with
  | package name dependencies => exact h.addPackage name dependencies
  | configuration root => exact h.addConfiguration root

theorem ofAdditions_consistent (additions : List Addition) : (ofAdditions additions).Consistent :=
  List.foldlRecOn additions _ .empty fun _ hg a _ => hg.add a

theorem DependsOn.contains_left (h : g.DependsOn n d) : g.contains n := by
  simp only [DependsOn, dependenciesOf, dependencies?] at h
  simp only [contains, NameMap.contains]
  cases hget : g.dependencies.get? n with
  | none => simp [hget] at h
  | some s => rfl

theorem mem_names : n ∈ g.names ↔ g.contains n := NameMap.contains_iff.symm

end PackageRecipes.Graph
