import PackageRecipes.Proofs.Graph.Flattening

/-!
# The two maps of a graph

A graph lists each edge twice: under the package that needs the other, and under the one that is needed. After any
additions both maps are over the same names and tell the same edges, and each of these edges was added. An edge that
was added can be missing only if it stands in a tree, at a place of its package that no walk meets.
-/

namespace PackageRecipes.Graph

/-- In a map of sets, a name stands in the set under another. -/
def Lists (m : NameMap NameSet) (key name : String) : Prop := ∃ s, m.get? key = some s ∧ name ∈ s

/-- Each edge is in both maps. Names come in ascending order, so each is there once, and whatever stands in a set is
itself one of them. -/
structure Mirrors (g : Graph) : Prop where
  ascending : g.dependencies.Ascending
  sameNames : g.dependents.keys = g.dependencies.keys
  named : ∀ k x, Lists g.dependencies k x ∨ Lists g.dependents k x → x ∈ g.dependencies.keys
  mirrored : ∀ n d, Lists g.dependencies n d ↔ Lists g.dependents d n

/-- A package and one that it needs, as they are added: in a tree, one is attached to the other at any place. -/
def Addition.Links : Addition → String → String → Prop
  | .package name dependencies, n, d => n = name ∧ d ∈ dependencies
  | .configuration root, n, d => ∃ path c, root.Occurs path c ∧ c.name = n ∧ d ∈ c.dependencies.keys

/-- The edges of the graph are exactly the pairs that are added. -/
def KeepsAll (additions : List Addition) : Prop :=
  ∀ n d, Lists (ofAdditions additions).dependencies n d ↔ ∃ a ∈ additions, a.Links n d

variable {g : Graph} {m : NameMap NameSet} {n d x k : String} {a : Addition} {additions : List Addition}
  {root : Configuration}

/-! ## Sets under names -/

theorem mem_getD_iff : x ∈ (m.get? k).getD .empty ↔ Lists m k x := by
  unfold Lists
  cases m.get? k with
  | none => simp
  | some s => simp

theorem dependsOn_iff_lists : g.DependsOn n d ↔ Lists g.dependencies n d := mem_getD_iff

theorem mem_dependentsOf_iff_lists : n ∈ g.dependentsOf d ↔ Lists g.dependents d n := mem_getD_iff

theorem lists_iff_mem_pairs (h : m.Ascending) :
    Lists m k x ↔ (k, x) ∈ m.entries.flatMap fun e => e.2.toList.map (Prod.mk e.1) := by
  unfold Lists
  simp only [NameMap.get?_eq_some_iff h, List.mem_flatMap, List.mem_map, Prod.mk.injEq]
  constructor
  · rintro ⟨s, hs, hx⟩
    exact ⟨(k, s), hs, x, hx, rfl, rfl⟩
  · rintro ⟨⟨_, s⟩, hs, _, hx, rfl, rfl⟩
    exact ⟨s, hs, hx⟩

/-! ## Names -/

theorem mem_keys_ensure : k ∈ (ensure m n).keys ↔ k = n ∨ k ∈ m.keys := by
  rw [← NameMap.contains_iff, ← NameMap.contains_iff, NameMap.contains, get?_ensure]
  by_cases hk : k = n <;> simp [hk, NameMap.contains]

theorem keys_ensure (h : m.Ascending) (n : String) : (ensure m n).keys = NameSet.place n m.keys := by
  unfold ensure
  split
  · rename_i hn
    rw [NameSet.place_of_mem h (NameMap.contains_iff.1 hn)]
  · exact NameMap.keys_insert m n .empty

/-- A new set under a name that is there already leaves the names as they are. -/
theorem keys_replace (h : m.Ascending) (hk : k ∈ m.keys) (s : NameSet) : (m.insert k s).keys = m.keys := by
  rw [NameMap.keys_insert, NameSet.place_of_mem h hk]

theorem addNode_sameNames (h : g.Consistent) (hsame : g.dependents.keys = g.dependencies.keys) (n : String) :
    (g.addNode n).dependents.keys = (g.addNode n).dependencies.keys := by
  have hdependents : g.dependents.Ascending := by
    rw [NameMap.Ascending, hsame]
    exact h.ascending
  simp only [addNode]
  rw [keys_ensure hdependents, keys_ensure h.ascending, hsame]

theorem addEdge_sameNames (h : g.Consistent) (hsame : g.dependents.keys = g.dependencies.keys) (n d : String) :
    (g.addEdge n d).dependents.keys = (g.addEdge n d).dependencies.keys := by
  have hboth : ((g.addNode n).addNode d).dependents.keys = ((g.addNode n).addNode d).dependencies.keys :=
    addNode_sameNames (h.addNode n) (addNode_sameNames h hsame n) d
  have hascending := ((h.addNode n).addNode d).ascending
  have hdependents : ((g.addNode n).addNode d).dependents.Ascending := by
    rw [NameMap.Ascending, hboth]
    exact hascending
  have hn : n ∈ ((g.addNode n).addNode d).dependencies.keys :=
    mem_keys_ensure.2 (Or.inr (mem_keys_ensure.2 (Or.inl rfl)))
  have hd : d ∈ ((g.addNode n).addNode d).dependents.keys := mem_keys_ensure.2 (Or.inl rfl)
  rw [addEdge_eq, keys_replace hdependents hd, keys_replace hascending hn, hboth]

/-! ## Additions -/

/-- An invariant of graphs with both maps over the same names. -/
structure Paired (g : Graph) : Prop where
  consistent : g.Consistent
  sameNames : g.dependents.keys = g.dependencies.keys

theorem Paired.addPackage (h : g.Paired) (n : String) (ds : List String) : (g.addPackage n ds).Paired := by
  refine List.foldlRecOn ds _ ⟨h.consistent.addNode n, addNode_sameNames h.consistent h.sameNames n⟩ ?_
  intro g' hg' d _
  exact ⟨hg'.consistent.addEdge n d, addEdge_sameNames hg'.consistent hg'.sameNames n d⟩

theorem Paired.add (h : g.Paired) (a : Addition) : (g.add a).Paired := by
  cases a with
  | package name dependencies => exact h.addPackage name dependencies
  | configuration root =>
      exact List.foldlRecOn root.walk _ h fun _ hg c _ => hg.addPackage c.name c.dependencies.keys

theorem ofAdditions_paired (additions : List Addition) : (ofAdditions additions).Paired :=
  List.foldlRecOn additions _ ⟨.empty, rfl⟩ fun _ hg a _ => hg.add a

theorem Paired.mirrors (h : g.Paired) : g.Mirrors := by
  have hmirrored (n d : String) : Lists g.dependencies n d ↔ Lists g.dependents d n := by
    rw [← dependsOn_iff_lists, ← mem_dependentsOf_iff_lists]
    exact (h.consistent.mirrored n d).symm
  constructor
  case ascending => exact h.consistent.ascending
  case sameNames => exact h.sameNames
  case named =>
    rintro k x (hx | hx)
    · exact mem_names.2 (h.consistent.closed k x (dependsOn_iff_lists.2 hx))
    · exact mem_names.2 (dependsOn_iff_lists.2 ((hmirrored x k).2 hx)).contains_left
  case mirrored => exact hmirrored

/-! ## Pairs that are added -/

theorem lists_ofAdditions : Lists (ofAdditions additions).dependencies n d ↔ ∃ a ∈ additions, a.Joins n d := by
  rw [← dependsOn_iff_lists, dependsOn_ofAdditions]

theorem Addition.Joins.links (h : a.Joins n d) : a.Links n d := by
  cases a with
  | package name dependencies => exact h
  | configuration root =>
      obtain ⟨c, hc, hname, hd⟩ := h
      obtain ⟨path, hoccurs⟩ := Configuration.occurs_of_walked hc
      exact ⟨path, c, hoccurs, hname, hd⟩

theorem Addition.Links.joins (h : a.Links n d) (hcovered : ∀ root, a = .configuration root → root.Covered) :
    a.Joins n d := by
  cases a with
  | package name dependencies => exact h
  | configuration root =>
      obtain ⟨path, c, hc, rfl, hd⟩ := h
      obtain ⟨met, hmet, hname, hkeys⟩ := hcovered root rfl path c hc
      exact ⟨met, hmet, hname, hkeys d hd⟩

theorem keepsAll_iff :
    KeepsAll additions ↔ ∀ a ∈ additions, ∀ n d, a.Links n d → ∃ b ∈ additions, b.Joins n d := by
  constructor
  · intro hall a ha n d hlinks
    exact lists_ofAdditions.1 ((hall n d).2 ⟨a, ha, hlinks⟩)
  · intro hmet n d
    rw [lists_ofAdditions]
    constructor
    · rintro ⟨a, ha, hjoins⟩
      exact ⟨a, ha, hjoins.links⟩
    · rintro ⟨a, ha, hlinks⟩
      exact hmet a ha n d hlinks

theorem keepsAll_of_covered (h : ∀ root, .configuration root ∈ additions → root.Covered) : KeepsAll additions := by
  refine keepsAll_iff.2 fun a ha n d hlinks => ⟨a, ha, hlinks.joins ?_⟩
  rintro root rfl
  exact h root ha

/-- Whatever is added in whatever order, the two maps have the same names and mirror each other, and each of their
edges was added. All pairs that were added are there exactly when each of them is at a place that a walk meets. So it is
if only packages are added, and with trees in which each package has the same names attached wherever it occurs. -/
theorem ofAdditions_mirrors (additions : List Addition) :
    (ofAdditions additions).Mirrors ∧
      (∀ n d, Lists (ofAdditions additions).dependencies n d → ∃ a ∈ additions, a.Links n d) ∧
      (KeepsAll additions ↔ ∀ a ∈ additions, ∀ n d, a.Links n d → ∃ b ∈ additions, b.Joins n d) ∧
      ((∀ root, .configuration root ∈ additions → root.Covered) → KeepsAll additions) ∧
      ((∀ root, .configuration root ∈ additions → root.Labelled ∧ root.Uniform) → KeepsAll additions) := by
  refine ⟨(ofAdditions_paired additions).mirrors, fun n d hedge => ?_, keepsAll_iff, keepsAll_of_covered, ?_⟩
  · obtain ⟨a, ha, hjoins⟩ := lists_ofAdditions.1 hedge
    exact ⟨a, ha, hjoins.links⟩
  · intro huniform
    refine keepsAll_of_covered fun root hroot => ?_
    obtain ⟨hlabelled, huniform⟩ := huniform root hroot
    exact hlabelled.covered_of_uniform huniform

open PackageRecipes.Configuration in
/-- A package that needs itself, and another one twice; then what else it needs; then a tree in which it occurs. -/
def repeated : List Addition :=
  [.package "left" ["right", "left", "right"], .package "left" ["zlib"], .configuration (sharing shared)]

open PackageRecipes.Configuration in
theorem mirrors_repeated :
    (∀ root, .configuration root ∈ repeated → root.Labelled ∧ root.Uniform) ∧
      (ofAdditions repeated).dependents.keys = ["app", "left", "right", "shared", "zlib"] ∧
      ∀ n d, (∃ a ∈ repeated, a.Links n d) ↔ (n, d) ∈ [("app", "left"), ("app", "shared"), ("left", "left"),
        ("left", "right"), ("left", "shared"), ("left", "zlib"), ("shared", "zlib")] := by
  have huniform : ∀ root, .configuration root ∈ repeated → root.Labelled ∧ root.Uniform := by
    intro root hroot
    simp only [repeated, List.mem_cons, List.not_mem_nil, reduceCtorEq, Addition.configuration.injEq, false_or,
      or_false] at hroot
    rw [hroot]
    exact ⟨labelled_sharing labelled_shared, uniform_sharing⟩
  obtain ⟨hmirrors, -, -, -, hkeeps⟩ := ofAdditions_mirrors repeated
  have hnames : (ofAdditions repeated).dependencies.keys = ["app", "left", "right", "shared", "zlib"] := by
    decide +kernel
  have hpairs : ((ofAdditions repeated).dependencies.entries.flatMap fun e => e.2.toList.map (Prod.mk e.1)) =
      [("app", "left"), ("app", "shared"), ("left", "left"), ("left", "right"), ("left", "shared"), ("left", "zlib"),
        ("shared", "zlib")] := by decide +kernel
  refine ⟨huniform, hmirrors.sameNames.trans hnames, fun n d => ?_⟩
  rw [← hkeeps huniform n d, lists_iff_mem_pairs hmirrors.ascending, hpairs]

open PackageRecipes.Configuration in
/-- What is attached to a package at its second place only is added, but no edge. -/
theorem not_keepsAll : ¬ ∀ additions, KeepsAll additions := by
  intro hall
  have hshared : (sharing (leaf "shared")).Occurs ["app"] shared :=
    .attached .root (by simp [values_sharing])
  have hlinks : (Addition.configuration (sharing (leaf "shared"))).Links "shared" "zlib" :=
    ⟨["app"], shared, hshared, rfl, List.mem_singleton.2 rfl⟩
  obtain ⟨s, hs, hzlib⟩ := (hall _ "shared" "zlib").2 ⟨_, List.mem_singleton.2 rfl, hlinks⟩
  have hnone : (ofAdditions [.configuration (sharing (leaf "shared"))]).dependencies.get? "shared" = some .empty := by
    decide +kernel
  obtain rfl := Option.some.inj (hnone.symm.trans hs)
  exact NameSet.not_mem_empty hzlib

end PackageRecipes.Graph
