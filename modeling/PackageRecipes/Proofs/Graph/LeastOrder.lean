import PackageRecipes.Proofs.Bytes
import PackageRecipes.Proofs.Graph.Sorting

/-!
# The least install order

A sort places the least package that is ready. So no install order comes before its result, and the result depends
on nothing but the packages and edges of the graph.
-/

namespace PackageRecipes.Graph

open Text

variable {g g' : Graph} {order other rest : List String} {x : String}

/-- A list of names comes before another one: where they differ first it has the name with the smaller bytes, or
it ends there. -/
def Earlier (order other : List String) : Prop := List.Lex (fun a b => utf8 a < utf8 b) order other

/-- An install order that no other one comes before. -/
structure IsLeastOrder (g : Graph) (order : List String) : Prop where
  isInstallOrder : g.IsInstallOrder order
  least : ∀ other, g.IsInstallOrder other → order = other ∨ Earlier order other

theorem earlier_iff : Earlier order other ↔ order < other := by
  rw [Earlier]
  simp only [utf8_lt_iff]
  rfl

theorem IsLeastOrder.unique (h : g.IsLeastOrder order) (h' : g.IsLeastOrder other) : order = other := by
  rcases h.least other h'.isInstallOrder with heq | hbefore
  · exact heq
  rcases h'.least order h.isInstallOrder with heq | hafter
  · exact heq.symm
  rw [earlier_iff] at hbefore hafter
  exact absurd hafter (List.lt_asymm hbefore)

/-! ## Placing the least package -/

/-- A list starts another one, or the two differ and it has the lesser name where they differ first. -/
def Leads (order other : List String) : Prop :=
  order <+: other ∨ ∃ common a b as bs, order = common ++ a :: as ∧ other = common ++ b :: bs ∧ a < b

theorem Leads.earlier (h : Leads order other) (hlength : order.length = other.length) :
    order = other ∨ Earlier order other := by
  rcases h with hstart | ⟨common, a, b, as, bs, rfl, rfl, hlt⟩
  · exact Or.inl (hstart.eq_of_length hlength)
  · refine Or.inr (earlier_iff.2 (List.append_left_lt ?_))
    exact List.Lex.rel hlt

theorem IsInstallOrder.length_eq (h : g.IsInstallOrder order) (h' : g.IsInstallOrder other) :
    order.length = other.length := by
  have hperm : order.Perm other :=
    (List.perm_ext_iff_of_nodup h.nodup h'.nodup).2 fun n => (h.complete n).trans (h'.complete n).symm
  exact hperm.length_eq

namespace Sorting

variable {s : Sorting} {m : String} {ready : NameSet}

theorem Invariant.mem_ready (h : Invariant g s) (hother : g.IsInstallOrder (s.order ++ x :: rest)) :
    x ∈ s.ready := by
  refine (h.ready_iff x).2 ⟨(hother.complete x).1 (by simp), fun hx => ?_, ?_⟩
  · exact List.disjoint_of_nodup_append hother.nodup hx List.mem_cons_self
  · rw [List.eq_nil_iff_forall_not_mem]
    intro d hd
    obtain ⟨hdep, hout⟩ := mem_missing.1 hd
    exact hout ((hother.ordered x d hdep).mem_of_append hother.nodup)

/-- As long as a sort agrees with an install order, that order goes on with a package that is ready, and the sort
with the least of these. -/
theorem Invariant.place_leads (h : Invariant g s) (hother : g.IsInstallOrder other)
    (hpop : s.ready.popLeast? = some (m, ready)) (hleads : Leads s.order other) :
    Leads (s.order ++ [m]) other := by
  obtain ⟨hready, hleast, hrest⟩ := NameSet.popLeast?_eq_some hpop
  rcases hleads with ⟨rest, rfl⟩ | ⟨common, a, b, as, bs, heq, rfl, hlt⟩
  · cases rest with
    | nil =>
        obtain ⟨hm, hout, -⟩ := (h.ready_iff m).1 hready
        have hin := (hother.complete m).2 hm
        rw [List.append_nil] at hin
        exact absurd hin hout
    | cons x rest =>
        have hx := h.mem_ready hother
        by_cases hxm : x = m
        · exact Or.inl ⟨rest, by rw [hxm]; simp⟩
        · exact Or.inr ⟨s.order, m, x, [], rest, rfl, rfl, hleast x ((hrest x).2 ⟨hx, hxm⟩)⟩
  · exact Or.inr ⟨common, a, b, as ++ [m], bs, by rw [heq]; simp, rfl, hlt⟩

theorem Invariant.run_leads (hg : g.Consistent) (bound : Nat) (h : Invariant g s) (hother : g.IsInstallOrder other)
    (hleads : Leads s.order other) : Leads (Sorting.run g bound s).order other := by
  induction bound generalizing s with
  | zero => exact hleads
  | succ bound ih =>
      rw [Sorting.run]
      cases hpop : s.ready.popLeast? with
      | none => exact hleads
      | some p =>
          refine ih (h.place hg hpop) ?_
          rw [place_order]
          exact h.place_leads hother hpop hleads

end Sorting

theorem Consistent.isLeastOrder (hg : g.Consistent) (h : g.topologicalSort = .ok order) : g.IsLeastOrder order := by
  have horder := hg.isInstallOrder h
  refine ⟨horder, fun other hother => ?_⟩
  have hleads := (Sorting.start_invariant hg).run_leads hg g.size hother (Or.inl List.nil_prefix)
  have hresult : (Sorting.run g g.size (.start g)).order = order := by
    unfold topologicalSort at h
    simp only at h
    split at h
    · exact Except.ok.inj h
    · cases h
  rw [hresult] at hleads
  exact hleads.earlier (horder.length_eq hother)

/-! ## Graphs with the same packages and edges -/

theorem IsInstallOrder.congr (hnames : ∀ n, g'.contains n ↔ g.contains n)
    (hedges : ∀ n d, g'.DependsOn n d ↔ g.DependsOn n d) : g'.IsInstallOrder order ↔ g.IsInstallOrder order := by
  constructor
  · intro h
    exact ⟨h.nodup, fun n => (h.complete n).trans (hnames n), fun n d hd => h.ordered n d ((hedges n d).2 hd)⟩
  · intro h
    exact ⟨h.nodup, fun n => (h.complete n).trans (hnames n).symm, fun n d hd => h.ordered n d ((hedges n d).1 hd)⟩

theorem IsLeastOrder.congr (hnames : ∀ n, g'.contains n ↔ g.contains n)
    (hedges : ∀ n d, g'.DependsOn n d ↔ g.DependsOn n d) (h : g'.IsLeastOrder order) : g.IsLeastOrder order where
  isInstallOrder := (IsInstallOrder.congr hnames hedges).1 h.isInstallOrder
  least := fun other hother => h.least other ((IsInstallOrder.congr hnames hedges).2 hother)

/-- A sort of an acyclic graph gives its least install order, and gives it again after any other additions of the
same packages and of the same edges. -/
theorem topologicalSort_least (additions : List Addition) (hacyclic : (ofAdditions additions).Acyclic) :
    ∃ order, (ofAdditions additions).topologicalSort = .ok order ∧ (ofAdditions additions).IsLeastOrder order ∧
      ∀ others : List Addition, (∀ n, (∃ a ∈ others, a.Brings n) ↔ ∃ a ∈ additions, a.Brings n) →
        (∀ n d, (∃ a ∈ others, a.Joins n d) ↔ ∃ a ∈ additions, a.Joins n d) →
        (ofAdditions others).topologicalSort = .ok order := by
  have hg := ofAdditions_consistent additions
  obtain ⟨order, hsort⟩ := hg.exists_order hacyclic
  have hleast := hg.isLeastOrder hsort
  refine ⟨order, hsort, hleast, fun others hbrings hjoins => ?_⟩
  have hnames : ∀ n, (ofAdditions others).contains n ↔ (ofAdditions additions).contains n := by
    intro n
    rw [contains_ofAdditions, contains_ofAdditions]
    exact hbrings n
  have hedges : ∀ n d, (ofAdditions others).DependsOn n d ↔ (ofAdditions additions).DependsOn n d := by
    intro n d
    rw [dependsOn_ofAdditions, dependsOn_ofAdditions]
    exact hjoins n d
  have hg' := ofAdditions_consistent others
  have hacyclic' := ((IsInstallOrder.congr hnames hedges).2 hleast.isInstallOrder).acyclic
  obtain ⟨order', hsort'⟩ := hg'.exists_order hacyclic'
  rw [hsort', ((hg'.isLeastOrder hsort').congr hnames hedges).unique hleast]

/-- Two packages with a dependency in common. -/
def plasma : List Addition :=
  [.package "xgc-devel" ["adios2", "kokkos-cmake", "pspline"], .package "cabana" ["kokkos-cmake"]]

/-- The same packages and edges, in another order, apart from one another and repeated. -/
def plasmaAgain : List Addition :=
  [.package "cabana" ["kokkos-cmake"], .package "pspline" [], .package "xgc-devel" ["pspline", "adios2"],
    .package "cabana" [], .package "xgc-devel" ["kokkos-cmake", "pspline"]]

theorem topologicalSort_plasma :
    (ofAdditions plasma).Acyclic ∧
      (∀ n, (∃ a ∈ plasmaAgain, a.Brings n) ↔ ∃ a ∈ plasma, a.Brings n) ∧
      (∀ n d, (∃ a ∈ plasmaAgain, a.Joins n d) ↔ ∃ a ∈ plasma, a.Joins n d) ∧
      (ofAdditions plasma).IsLeastOrder ["adios2", "kokkos-cmake", "cabana", "pspline", "xgc-devel"] ∧
      (ofAdditions plasmaAgain).topologicalSort =
        .ok ["adios2", "kokkos-cmake", "cabana", "pspline", "xgc-devel"] := by
  have hsort : (ofAdditions plasma).topologicalSort =
      .ok ["adios2", "kokkos-cmake", "cabana", "pspline", "xgc-devel"] := rfl
  have hacyclic := ((ofAdditions_consistent plasma).isInstallOrder hsort).acyclic
  have hbrings : ∀ n, (∃ a ∈ plasmaAgain, a.Brings n) ↔ ∃ a ∈ plasma, a.Brings n := by
    intro n
    simp only [plasma, plasmaAgain, Addition.Brings, List.mem_cons]
    grind
  have hjoins : ∀ n d, (∃ a ∈ plasmaAgain, a.Joins n d) ↔ ∃ a ∈ plasma, a.Joins n d := by
    intro n d
    simp only [plasma, plasmaAgain, Addition.Joins, List.mem_cons]
    grind
  obtain ⟨order, hsort', hleast, hagain⟩ := topologicalSort_least plasma hacyclic
  obtain rfl := Except.ok.inj (hsort.symm.trans hsort')
  exact ⟨hacyclic, hbrings, hjoins, hleast, hagain plasmaAgain hbrings hjoins⟩

end PackageRecipes.Graph
