import PackageRecipes.Proofs.Graph.InstallOrder

/-!
# Sorting a graph

The counters of a sort are the numbers of dependencies that are not placed yet, and the packages that
are ready are those whose counter is zero and that are not placed themselves. Each round keeps this, so
a sort ends with an install order unless the graph has a cycle.
-/

namespace PackageRecipes.Graph

variable {g : Graph} {n m : String}

/-- The dependencies of a package that an order does not hold yet. -/
def missing (g : Graph) (order : List String) (name : String) : List String :=
  (g.dependenciesOf name).toList.filter (· ∉ order)

theorem mem_missing {order : List String} {d : String} :
    d ∈ g.missing order n ↔ g.DependsOn n d ∧ d ∉ order := by
  simp [missing, DependsOn, NameSet.mem_iff]

theorem missing_nodup (order : List String) : (g.missing order n).Nodup :=
  (g.dependenciesOf n).nodup.filter _

theorem missing_concat (order : List String) :
    g.missing (order ++ [m]) n = (g.missing order n).erase m := by
  rw [(missing_nodup order).erase_eq_filter, missing, missing, List.filter_filter]
  refine List.filter_congr fun d _ => ?_
  by_cases hd : d = m <;> simp [hd]

namespace Sorting

variable {s : Sorting}

/-! ## Settling the packages that depend on a placed one -/

theorem settle_unmet (s : Sorting) (m n : String) :
    (s.settle m).unmet.get? n = if n = m then (s.unmet.get? n).map (· - 1) else s.unmet.get? n := by
  unfold settle
  cases hm : s.unmet.get? m with
  | none => by_cases hn : n = m <;> simp [hn, hm]
  | some k => by_cases hn : n = m <;> simp [hn, hm]

theorem mem_settle_ready (s : Sorting) (m n : String) :
    n ∈ (s.settle m).ready ↔ n ∈ s.ready ∨ n = m ∧ ∃ k, s.unmet.get? n = some k ∧ k - 1 = 0 := by
  unfold settle
  cases hm : s.unmet.get? m with
  | none =>
      have : ¬ (n = m ∧ ∃ k, s.unmet.get? n = some k ∧ k - 1 = 0) := by
        rintro ⟨rfl, k, hk, _⟩
        rw [hm] at hk
        cases hk
      simp [this]
  | some k =>
      by_cases hn : n = m
      · subst hn
        by_cases hk : k - 1 = 0 <;> simp [hm, hk]
      · by_cases hk : k - 1 = 0 <;> simp [hn, hk]

theorem settle_order (s : Sorting) (m : String) : (s.settle m).order = s.order := by
  unfold settle
  cases s.unmet.get? m <;> rfl

theorem foldl_settle_order (ms : List String) (s : Sorting) :
    (ms.foldl settle s).order = s.order := by
  induction ms generalizing s with
  | nil => rfl
  | cons m ms ih => rw [List.foldl_cons, ih, settle_order]

theorem foldl_settle_unmet {ms : List String} (hnd : ms.Nodup) (s : Sorting) (n : String) :
    (ms.foldl settle s).unmet.get? n =
      if n ∈ ms then (s.unmet.get? n).map (· - 1) else s.unmet.get? n := by
  induction ms generalizing s with
  | nil => simp
  | cons m ms ih =>
      obtain ⟨hm, hms⟩ := List.nodup_cons.1 hnd
      rw [List.foldl_cons, ih hms, settle_unmet]
      by_cases hn : n = m
      · subst hn
        simp [hm]
      · simp [hn]

theorem mem_foldl_settle_ready {ms : List String} (hnd : ms.Nodup) (s : Sorting) (n : String) :
    n ∈ (ms.foldl settle s).ready ↔
      n ∈ s.ready ∨ n ∈ ms ∧ ∃ k, s.unmet.get? n = some k ∧ k - 1 = 0 := by
  induction ms generalizing s with
  | nil => simp
  | cons m ms ih =>
      obtain ⟨hm, hms⟩ := List.nodup_cons.1 hnd
      rw [List.foldl_cons, ih hms, mem_settle_ready, settle_unmet]
      by_cases hn : n = m
      · subst hn
        simp [hm]
      · simp [hn]

/-! ## The invariant of the rounds -/

/-- What holds of a sort after every round. -/
structure Invariant (g : Graph) (s : Sorting) : Prop where
  nodup : s.order.Nodup
  placed : ∀ n ∈ s.order, g.contains n
  counted : ∀ n, g.contains n → s.unmet.get? n = some (g.missing s.order n).length
  ready_iff : ∀ n, n ∈ s.ready ↔ g.contains n ∧ n ∉ s.order ∧ g.missing s.order n = []
  ordered : ∀ n ∈ s.order, ∀ d, g.DependsOn n d → Before s.order d n

theorem start_unmet (h : g.contains n) :
    (start g).unmet.get? n = some (g.dependenciesOf n).toList.length := by
  obtain ⟨t, ht⟩ := Option.isSome_iff_exists.1 h
  simp [start, NameMap.get?_map, dependenciesOf, dependencies?, ht, NameSet.size]

theorem start_ascending (h : g.Consistent) : (start g).unmet.Ascending := by
  have := h.ascending
  simpa [start, NameMap.Ascending] using this

theorem start_invariant (h : g.Consistent) : Invariant g (start g) where
  nodup := List.nodup_nil
  placed := by
    intro n hn
    cases hn
  counted := by
    intro n hn
    rw [start_unmet hn]
    simp [missing, start]
  ready_iff := by
    intro n
    have hmissing : g.missing (start g).order n = (g.dependenciesOf n).toList := by
      simp [missing, start]
    have hready : n ∈ (start g).ready ↔ (start g).unmet.get? n = some 0 := by
      rw [NameMap.get?_eq_some_iff (start_ascending h)]
      simp only [start, NameSet.mem_ofList, List.mem_map, List.mem_filter, decide_eq_true_eq]
      constructor
      · rintro ⟨⟨k, c⟩, ⟨hm, rfl⟩, rfl⟩
        exact hm
      · intro hm
        exact ⟨(n, 0), ⟨hm, rfl⟩, rfl⟩
    rw [hready, hmissing]
    constructor
    · intro hzero
      have hn : g.contains n := by
        have hkey : n ∈ (start g).unmet.keys := NameMap.contains_iff.1 (by simp [NameMap.contains, hzero])
        exact NameMap.contains_iff.2 (by simpa [start] using hkey)
      rw [start_unmet hn] at hzero
      exact ⟨hn, by simp [start], by simpa using hzero⟩
    · rintro ⟨hn, _, hnil⟩
      rw [start_unmet hn, hnil]
      rfl
  ordered := by
    intro n hn
    cases hn

theorem place_order (s : Sorting) (m : String) (ready : NameSet) :
    (s.place g m ready).order = s.order ++ [m] := foldl_settle_order _ _

/-- The packages that still miss a package are those that depend on it. -/
theorem mem_missing_iff (hg : g.Consistent) (hm : m ∉ s.order) (n : String) :
    m ∈ g.missing s.order n ↔ n ∈ (g.dependentsOf m).toList := by
  rw [mem_missing, ← NameSet.mem_iff, hg.mirrored]
  exact ⟨fun hdep => hdep.1, fun hdep => ⟨hdep, hm⟩⟩

theorem Invariant.place_counted (h : Invariant g s) (hg : g.Consistent) (hm : m ∉ s.order)
    (ready : NameSet) (hn : g.contains n) :
    (s.place g m ready).unmet.get? n = some (g.missing (s.order ++ [m]) n).length := by
  rw [missing_concat, List.length_erase, Sorting.place,
    foldl_settle_unmet (g.dependentsOf m).nodup, h.counted n hn]
  by_cases hdep : n ∈ (g.dependentsOf m).toList <;> simp [hdep, mem_missing_iff hg hm]

/-- The round makes ready exactly the packages that missed nothing but the placed one. -/
theorem Invariant.place_ready (h : Invariant g s) (hg : g.Consistent) (hm : m ∉ s.order)
    (hmet : g.missing s.order m = []) {ready : NameSet}
    (hrest : ∀ n, n ∈ ready ↔ n ∈ s.ready ∧ n ≠ m) :
    n ∈ (s.place g m ready).ready ↔
      g.contains n ∧ n ∉ s.order ++ [m] ∧ g.missing (s.order ++ [m]) n = [] := by
  rw [missing_concat, Sorting.place, mem_foldl_settle_ready (g.dependentsOf m).nodup, hrest,
    h.ready_iff, List.mem_append, List.mem_singleton, not_or]
  constructor
  · rintro (⟨⟨hn, hnot, hnil⟩, hne⟩ | ⟨hdep, k, hk, hzero⟩)
    · exact ⟨hn, ⟨hnot, hne⟩, by simp [hnil]⟩
    · have hmem := (mem_missing_iff hg hm n).2 hdep
      have hn : g.contains n := (mem_missing.1 hmem).1.contains_left
      rw [h.counted n hn, Option.some.injEq] at hk
      refine ⟨hn, ⟨fun hplaced => ?_, fun he => ?_⟩, ?_⟩
      · exact hm (h.ordered n hplaced m (mem_missing.1 hmem).1).mem_left
      · rw [he, hmet] at hmem
        cases hmem
      · rw [← List.length_eq_zero_iff, List.length_erase_of_mem hmem, hk, hzero]
  · rintro ⟨hn, ⟨hnot, hne⟩, hnil⟩
    by_cases hmem : m ∈ g.missing s.order n
    · refine Or.inr ⟨(mem_missing_iff hg hm n).1 hmem, _, h.counted n hn, ?_⟩
      rw [← List.length_erase_of_mem hmem, hnil, List.length_nil]
    · rw [List.erase_of_not_mem hmem] at hnil
      exact Or.inl ⟨⟨hn, hnot, hnil⟩, hne⟩

theorem Invariant.place (h : Invariant g s) (hg : g.Consistent) {ready : NameSet}
    (hpop : s.ready.popLeast? = some (m, ready)) : Invariant g (s.place g m ready) := by
  obtain ⟨hready, _, hrest⟩ := NameSet.popLeast?_eq_some hpop
  obtain ⟨hm, hnew, hmet⟩ := (h.ready_iff m).1 hready
  refine ⟨?_, ?_, ?_, ?_, ?_⟩ <;> rw [place_order]
  · exact List.nodup_append.2 ⟨h.nodup, List.nodup_singleton m, by
      intro a ha b hb he
      rw [he, List.mem_singleton.1 hb] at ha
      exact hnew ha⟩
  · intro n hn
    rcases List.mem_append.1 hn with hn | hn
    · exact h.placed n hn
    · rw [List.mem_singleton.1 hn]
      exact hm
  · exact fun n hn => h.place_counted hg hnew ready hn
  · exact fun n => h.place_ready hg hnew hmet hrest
  · intro n hn d hdep
    rcases List.mem_append.1 hn with hn | hn
    · exact (h.ordered n hn d hdep).append [m]
    · rw [List.mem_singleton.1 hn] at hdep ⊢
      refine ⟨s.order, [], rfl, ?_⟩
      by_contra hd
      have := mem_missing.2 ⟨hdep, hd⟩
      rw [hmet] at this
      cases this

/-! ## Whole sorts -/

theorem Invariant.run (hg : g.Consistent) (bound : Nat) (h : Invariant g s) :
    Invariant g (run g bound s) := by
  induction bound generalizing s with
  | zero => exact h
  | succ bound ih =>
      rw [Sorting.run]
      cases hpop : s.ready.popLeast? with
      | none => exact h
      | some p => exact ih (h.place hg hpop)

/-- A sort stops when no package is ready, or when it has gone through all its rounds. -/
theorem run_stops (g : Graph) (bound : Nat) (s : Sorting) :
    (run g bound s).ready.popLeast? = none ∨
      (run g bound s).order.length = s.order.length + bound := by
  induction bound generalizing s with
  | zero => exact Or.inr rfl
  | succ bound ih =>
      rw [run]
      cases hpop : s.ready.popLeast? with
      | none => exact Or.inl hpop
      | some p =>
          have hlen : (s.place g p.1 p.2).order.length = s.order.length + 1 := by
            simp [place_order]
          rcases ih (s.place g p.1 p.2) with hdone | hdone
          · exact Or.inl hdone
          · exact Or.inr (by rw [hdone, hlen]; omega)

theorem Invariant.length_le (h : Invariant g s) : s.order.length ≤ g.size := by
  rw [size, ← NameMap.length_keys]
  exact (List.subperm_of_subset h.nodup fun n hn => mem_names.2 (h.placed n hn)).length_le

theorem Invariant.isInstallOrder (h : Invariant g s) (hlen : s.order.length = g.size) :
    g.IsInstallOrder s.order := by
  have hsub : s.order.Subperm g.names :=
    List.subperm_of_subset h.nodup fun n hn => mem_names.2 (h.placed n hn)
  have hle : g.names.length ≤ s.order.length := by
    rw [hlen, names, NameMap.length_keys, size]
  have hmem : ∀ n, n ∈ s.order ↔ g.contains n := fun n => by
    rw [(hsub.perm_of_length_le hle).mem_iff, mem_names]
  exact ⟨h.nodup, hmem, fun n d hdep => h.ordered n ((hmem n).2 hdep.contains_left) d hdep⟩

/-- A sort that leaves packages although none is ready has met a cycle. -/
theorem Invariant.not_acyclic (h : Invariant g s) (hg : g.Consistent) (hlen : s.order.length ≠ g.size)
    (hready : s.ready.popLeast? = none) : ¬ g.Acyclic := by
  refine not_acyclic_of_stuck (g.names.filter (· ∉ s.order)) ?_ ?_
  · intro hnil
    have hall : g.names ⊆ s.order := by
      intro n hn
      by_contra hnot
      exact absurd (List.mem_filter.2 ⟨hn, by simpa using hnot⟩) (hnil ▸ List.not_mem_nil)
    have hge := (List.subperm_of_subset hg.ascending.nodup hall).length_le
    rw [NameMap.length_keys] at hge
    have := h.length_le
    simp only [size] at *
    omega
  · intro n hn
    obtain ⟨hn, hnot⟩ := List.mem_filter.1 hn
    have hmissing : g.missing s.order n ≠ [] := fun hnil =>
      NameSet.popLeast?_eq_none.1 hready n
        ((h.ready_iff n).2 ⟨mem_names.1 hn, by simpa using hnot, hnil⟩)
    obtain ⟨d, hd⟩ := List.exists_mem_of_ne_nil _ hmissing
    obtain ⟨hdep, hd⟩ := mem_missing.1 hd
    exact ⟨d, List.mem_filter.2 ⟨mem_names.2 (hg.closed n d hdep), by simpa using hd⟩, hdep⟩

end Sorting

theorem Consistent.sorted (hg : g.Consistent) : Sorting.Invariant g (Sorting.run g g.size (.start g)) :=
  (Sorting.start_invariant hg).run hg g.size

theorem Consistent.isInstallOrder (hg : g.Consistent) {order : List String}
    (h : g.topologicalSort = .ok order) : g.IsInstallOrder order := by
  unfold topologicalSort at h
  simp only at h
  split at h
  · rename_i hlen
    cases h
    exact hg.sorted.isInstallOrder hlen
  · cases h

theorem Consistent.exists_order (hg : g.Consistent) (hacyclic : g.Acyclic) :
    ∃ order, g.topologicalSort = .ok order := by
  unfold topologicalSort
  simp only
  split
  · exact ⟨_, rfl⟩
  · rename_i hlen
    rcases Sorting.run_stops g g.size (.start g) with hready | hfull
    · exact absurd hacyclic (hg.sorted.not_acyclic hg hlen hready)
    · exact absurd (by rw [hfull]; simp [Sorting.start]) hlen

/-- A sort succeeds exactly when the graph has no cycle, and then gives an install order. -/
theorem ofAdditions_topologicalSort (additions : List Addition) :
    ((∃ order, (ofAdditions additions).topologicalSort = .ok order) ↔
        (ofAdditions additions).Acyclic) ∧
      ∀ order, (ofAdditions additions).topologicalSort = .ok order →
        (ofAdditions additions).IsInstallOrder order := by
  have hg := ofAdditions_consistent additions
  refine ⟨⟨?_, hg.exists_order⟩, fun order h => hg.isInstallOrder h⟩
  rintro ⟨order, h⟩
  exact (hg.isInstallOrder h).acyclic

theorem topologicalSort_diamond :
    (ofAdditions [.package "d" ["b", "c"], .package "b" ["a"], .package "c" ["a"]]).topologicalSort =
        .ok ["a", "b", "c", "d"] ∧
      (ofAdditions [.package "d" ["b", "c"], .package "b" ["a"], .package "c" ["a"]]).IsInstallOrder
        ["a", "b", "c", "d"] := by
  have h : (ofAdditions [.package "d" ["b", "c"], .package "b" ["a"],
      .package "c" ["a"]]).topologicalSort = .ok ["a", "b", "c", "d"] := rfl
  exact ⟨h, (ofAdditions_topologicalSort _).2 _ h⟩

end PackageRecipes.Graph
