import Mathlib.Data.List.Chain
import PackageRecipes.Proofs.Graph.Sorting

/-!
# Cycles that a search shows

A search for cycles as a relation, without the bound that makes it end. Whatever it shows is a cycle of the graph.
If it shows none, then the packages that it is done with can be listed so that each stands after all that it needs;
so a graph is acyclic exactly when a search over all of it shows nothing.
-/

namespace PackageRecipes.Graph

variable {g : Graph} {path row : List String} {s t u : Search} {n d : String}

/-- A way along the edges back to its start, with no package on it twice. -/
structure IsCycle (g : Graph) (cycle : List String) : Prop where
  long : 2 ≤ cycle.length
  closed : cycle.head? = cycle.getLast?
  distinct : cycle.dropLast.Nodup
  linked : cycle.IsChain g.DependsOn

theorem IsCycle.not_acyclic {cycle : List String} (h : g.IsCycle cycle) : ¬ g.Acyclic := by
  match cycle, h with
  | [], h => exact absurd h.long (by decide)
  | [_], h => exact absurd h.long (by simp)
  | first :: next :: rest, h =>
      obtain ⟨hedge, hrest⟩ := List.isChain_cons_cons.1 h.linked
      have hlast : (next :: rest).getLast (List.cons_ne_nil next rest) = first := by
        have hclosed := h.closed
        rw [List.head?_cons, List.getLast?_cons_cons,
          List.getLast?_eq_getLast_of_ne_nil (List.cons_ne_nil _ _)] at hclosed
        exact (Option.some.inj hclosed).symm
      have hback := List.relationReflTransGen_of_exists_isChain_cons rest hrest hlast
      exact fun hacyclic => hacyclic first (.head' hedge hback)

/-! ## The course of a search -/

/-- A search over a row of packages that a path leads to. A package that was not met before is searched through
before the search goes on in its row. -/
inductive Searches (g : Graph) : List String → List String → Search → Search → Prop where
  | done {path : List String} {s : Search} : Searches g path [] s s
  | enter {path row : List String} {s t u : Search} {d : String} (hnew : d ∉ s.visited)
      (below : Searches g (path ++ [d]) (g.dependenciesOf d).toList { s with visited := d :: s.visited } t)
      (rest : Searches g path row t u) : Searches g path (d :: row) s u
  | close {path row : List String} {s u : Search} {d : String} (hmet : d ∈ s.visited) (hpath : d ∈ path)
      (rest : Searches g path row { s with cycles := s.cycles ++ [path.dropWhile (· ≠ d) ++ [d]] } u) :
      Searches g path (d :: row) s u
  | pass {path row : List String} {s u : Search} {d : String} (hmet : d ∈ s.visited) (hpath : d ∉ path)
      (rest : Searches g path row s u) : Searches g path (d :: row) s u

theorem nodup_entered (hpath : path.Nodup) (hmet : path ⊆ s.visited) (hnew : d ∉ s.visited) :
    (path ++ [d]).Nodup := by
  rw [← List.concat_eq_append]
  exact List.Nodup.concat (fun hd => hnew (hmet hd)) hpath

theorem entered_visited (hmet : path ⊆ s.visited) : path ++ [d] ⊆ d :: s.visited := by
  rw [List.append_subset]
  exact ⟨List.subset_cons_of_subset d hmet, by simp⟩

namespace Searches

theorem append {more : List String} (h : Searches g path row s t) (hmore : Searches g path more t u) :
    Searches g path (row ++ more) s u := by
  induction h with
  | done => exact hmore
  | enter hnew below _ _ ih => exact .enter hnew below (ih hmore)
  | close hmet hpath _ ih => exact .close hmet hpath (ih hmore)
  | pass hmet hpath _ ih => exact .pass hmet hpath (ih hmore)

theorem unique (h : Searches g path row s t) (h' : Searches g path row s u) : t = u := by
  induction h generalizing u with
  | done =>
      cases h'
      rfl
  | enter hnew _ _ ihbelow ihrest =>
      cases h' with
      | enter _ below rest =>
          cases ihbelow below
          exact ihrest rest
      | close hmet _ _ => exact absurd hmet hnew
      | pass hmet _ _ => exact absurd hmet hnew
  | close hmet hpath _ ih =>
      cases h' with
      | enter hnew _ _ => exact absurd hmet hnew
      | close _ _ rest => exact ih rest
      | pass _ hnot _ => exact absurd hpath hnot
  | pass hmet hpath _ ih =>
      cases h' with
      | enter hnew _ _ => exact absurd hmet hnew
      | close _ hon _ => exact absurd hon hpath
      | pass _ _ rest => exact ih rest

/-! ## What a search keeps -/

theorem visited_subset (h : Searches g path row s t) : s.visited ⊆ t.visited := by
  induction h with
  | done => exact List.Subset.refl _
  | enter _ _ _ ihbelow ihrest => exact fun n hn => ihrest (ihbelow (List.mem_cons_of_mem _ hn))
  | close _ _ _ ih => exact ih
  | pass _ _ _ ih => exact ih

/-- What was met before a package is entered is met when the search leaves it. -/
theorem entered_subset (h : Searches g path row { s with visited := d :: s.visited } t) :
    s.visited ⊆ t.visited := fun _ hn => h.visited_subset (List.mem_cons_of_mem _ hn)

theorem cycles_prefix (h : Searches g path row s t) : s.cycles <+: t.cycles := by
  induction h with
  | done => exact List.prefix_rfl
  | enter _ _ _ ihbelow ihrest => exact ihbelow.trans ihrest
  | close _ _ _ ih => exact (List.prefix_append _ _).trans ih
  | pass _ _ _ ih => exact ih

theorem row_visited (h : Searches g path row s t) : row ⊆ t.visited := by
  induction h with
  | done => exact List.nil_subset _
  | enter _ below rest _ ih =>
      exact List.cons_subset.2 ⟨rest.visited_subset (below.visited_subset List.mem_cons_self), ih⟩
  | close hmet _ rest ih => exact List.cons_subset.2 ⟨rest.visited_subset hmet, ih⟩
  | pass hmet _ rest ih => exact List.cons_subset.2 ⟨rest.visited_subset hmet, ih⟩

theorem visited_contains (hg : g.Consistent) (h : Searches g path row s t) (hrow : ∀ d ∈ row, g.contains d)
    (hs : ∀ n ∈ s.visited, g.contains n) : ∀ n ∈ t.visited, g.contains n := by
  induction h with
  | done => exact hs
  | enter _ _ _ ihbelow ihrest =>
      rw [List.forall_mem_cons] at hrow
      refine ihrest hrow.2 (ihbelow (fun e he => hg.closed _ e he) ?_)
      exact List.forall_mem_cons.2 ⟨hrow.1, hs⟩
  | close _ _ _ ih => exact ih (List.forall_mem_cons.1 hrow).2 hs
  | pass _ _ _ ih => exact ih (List.forall_mem_cons.1 hrow).2 hs

/-! ## What a search shows -/

/-- The part of a path from a package on, and back to the package. -/
theorem isCycle_of_path (hpath : path.Nodup) (hd : d ∈ path) (hlinked : (path ++ [d]).IsChain g.DependsOn) :
    g.IsCycle (path.dropWhile (· ≠ d) ++ [d]) := by
  obtain ⟨before, after, rfl⟩ := List.append_of_mem hd
  have hbefore : ∀ n ∈ before, decide (n ≠ d) := by
    intro n hn
    have hne : n ≠ d := fun heq => (List.disjoint_of_nodup_append hpath hn) (by simp [heq])
    simpa using hne
  have hdrop : (before ++ d :: after).dropWhile (· ≠ d) = d :: after := by
    rw [List.dropWhile_append_of_pos hbefore]
    simp
  rw [hdrop]
  constructor
  case long => simp
  case closed =>
    rw [List.getLast?_concat]
    rfl
  case distinct =>
    rw [List.dropLast_concat]
    exact hpath.sublist (List.sublist_append_right before _)
  case linked => exact hlinked.suffix ⟨before, by simp⟩

/-- Whatever a search shows is a cycle, as its path goes along the edges and meets no package twice. -/
theorem isCycle (h : Searches g path row s t) (hpath : path.Nodup) (hmet : path ⊆ s.visited)
    (hlinked : ∀ d ∈ row, (path ++ [d]).IsChain g.DependsOn) (hs : ∀ c ∈ s.cycles, g.IsCycle c) :
    ∀ c ∈ t.cycles, g.IsCycle c := by
  induction h with
  | done => exact hs
  | @enter path row s t u d hnew below rest ihbelow ihrest =>
      rw [List.forall_mem_cons] at hlinked
      have hlinked' : ∀ e ∈ (g.dependenciesOf d).toList, (path ++ [d] ++ [e]).IsChain g.DependsOn := by
        intro e he
        refine hlinked.1.append (List.isChain_singleton e) ?_
        simpa [DependsOn, NameSet.mem_iff] using he
      have hbelow := ihbelow (nodup_entered hpath hmet hnew) (entered_visited hmet) hlinked' hs
      exact ihrest hpath (fun n hn => below.entered_subset (hmet hn)) hlinked.2 hbelow
  | @close path row s u d _ hd _ ih =>
      rw [List.forall_mem_cons] at hlinked
      refine ih hpath hmet hlinked.2 fun c hc => ?_
      rcases List.mem_append.1 hc with hc | hc
      · exact hs c hc
      · rw [List.mem_singleton.1 hc]
        exact isCycle_of_path hpath hd hlinked.1
  | pass _ _ _ ih => exact ih hpath hmet (List.forall_mem_cons.1 hlinked).2 hs

/-- The packages that a search is done with, each listed after all that it needs: it has met them, and they are
not on its path. -/
structure Finished (g : Graph) (path visited finished : List String) : Prop where
  nodup : finished.Nodup
  mem_iff : ∀ n, n ∈ finished ↔ n ∈ visited ∧ n ∉ path
  ordered : ∀ n ∈ finished, ∀ d, g.DependsOn n d → Before finished d n

theorem Finished.concat {visited finished : List String} (h : Finished g (path ++ [d]) visited finished)
    (hnew : d ∉ path) (hmet : d ∈ visited) (hbelow : ∀ e, g.DependsOn d e → e ∈ finished) :
    Finished g path visited (finished ++ [d]) where
  nodup := by
    refine List.nodup_append.2 ⟨h.nodup, List.nodup_singleton d, fun a ha b hb hab => ?_⟩
    rw [hab, List.mem_singleton.1 hb] at ha
    exact ((h.mem_iff d).1 ha).2 (by simp)
  mem_iff := by
    intro n
    by_cases hn : n = d
    · subst hn
      simp [hmet, hnew]
    · simp [h.mem_iff, hn]
  ordered := by
    intro n hn e he
    rcases List.mem_append.1 hn with hn | hn
    · exact (h.ordered n hn e he).append [d]
    · rw [List.mem_singleton.1 hn] at he ⊢
      exact ⟨finished, [], rfl, hbelow e he⟩

/-- A search that shows nothing finishes whatever it meets. -/
theorem exists_finished (h : Searches g path row s t) (hnone : t.cycles = []) (hmet : path ⊆ s.visited)
    {finished : List String} (hfinished : Finished g path s.visited finished) :
    (∀ d ∈ row, d ∉ path) ∧ ∃ finished', Finished g path t.visited finished' := by
  induction h generalizing finished with
  | done => exact ⟨List.forall_mem_nil _, finished, hfinished⟩
  | @enter path row s t u d hnew below rest ihbelow ihrest =>
      have hnone' : t.cycles = [] := List.prefix_nil.1 (hnone ▸ rest.cycles_prefix)
      have hout : d ∉ path := fun hd => hnew (hmet hd)
      have hstart : Finished g (path ++ [d]) (d :: s.visited) finished := by
        refine ⟨hfinished.nodup, fun n => ?_, hfinished.ordered⟩
        rw [hfinished.mem_iff, List.mem_cons, List.mem_append, List.mem_singleton]
        by_cases hn : n = d
        · subst hn
          simp [hnew]
        · simp [hn]
      obtain ⟨hopen, found, hfound⟩ := ihbelow hnone' (entered_visited hmet) hstart
      have hneeded : ∀ e, g.DependsOn d e → e ∈ found := fun e he =>
        (hfound.mem_iff e).2 ⟨below.row_visited he, hopen e he⟩
      have hd : d ∈ t.visited := below.visited_subset List.mem_cons_self
      obtain ⟨hrow, hlast⟩ :=
        ihrest hnone (fun n hn => below.entered_subset (hmet hn)) (hfound.concat hout hd hneeded)
      exact ⟨List.forall_mem_cons.2 ⟨hout, hrow⟩, hlast⟩
  | close _ _ rest _ =>
      have hcycle := hnone ▸ rest.cycles_prefix
      simp at hcycle
  | pass _ hout _ ih =>
      obtain ⟨hrow, hlast⟩ := ih hnone hmet hfinished
      exact ⟨List.forall_mem_cons.2 ⟨hout, hrow⟩, hlast⟩

/-! ## The bound of a search -/

/-- A fold that searches one package after the other searches the row. -/
theorem foldl {f : Search → String → Search} (row : List String)
    (hstep : ∀ d ∈ row, ∀ s, path ⊆ s.visited → Searches g path [d] s (f s d)) (hmet : path ⊆ s.visited) :
    Searches g path row s (row.foldl f s) := by
  induction row generalizing s with
  | nil => exact .done
  | cons d row ih =>
      rw [List.forall_mem_cons] at hstep
      have hfirst := hstep.1 s hmet
      exact hfirst.append (ih hstep.2 fun n hn => hfirst.visited_subset (hmet hn))

end Searches

/-- A path has no package twice, so the packages of the graph bound its length and the search ends by itself. -/
theorem Consistent.searches (hg : g.Consistent) {depth : Nat} (hdepth : g.size ≤ path.length + depth)
    (hpath : (path ++ [n]).Nodup) (hin : ∀ m ∈ path ++ [n], g.contains m) (hmet : path ⊆ s.visited)
    (hnew : n ∉ s.visited) : Searches g path [n] s (g.search depth path s n) := by
  induction depth generalizing path s n with
  | zero =>
      have hle := (List.subperm_of_subset hpath fun m hm => mem_names.2 (hin m hm)).length_le
      rw [names, NameMap.length_keys, List.length_append, List.length_singleton] at hle
      simp only [size] at hdepth
      omega
  | succ depth ih =>
      refine .enter hnew ?_ .done
      refine Searches.foldl _ (fun d hd t ht => ?_) (entered_visited hmet)
      split
      · rename_i hnew
        refine ih (by simp; omega) (nodup_entered hpath ht hnew) (fun m hm => ?_) ht hnew
        rcases List.mem_append.1 hm with hm | hm
        · exact hin m hm
        · rw [List.mem_singleton.1 hm]
          exact hg.closed n d hd
      · rename_i hvisited
        rw [not_not] at hvisited
        split
        · exact .close hvisited ‹_› .done
        · exact .pass hvisited ‹_› .done

theorem Consistent.exists_searches (hg : g.Consistent) :
    ∃ t, Searches g [] g.names ⟨[], []⟩ t ∧ g.cycles = t.cycles := by
  refine ⟨_, Searches.foldl g.names (fun n hn s hs => ?_) (List.nil_subset _), rfl⟩
  split
  · exact .pass ‹_› List.not_mem_nil .done
  · rename_i hnew
    refine hg.searches (by simp) (List.nodup_singleton n) (fun m hm => ?_) hs hnew
    rw [List.mem_singleton.1 hm]
    exact mem_names.1 hn

theorem Consistent.isCycle (hg : g.Consistent) : ∀ cycle ∈ g.cycles, g.IsCycle cycle := by
  obtain ⟨t, hsearch, hcycles⟩ := hg.exists_searches
  rw [hcycles]
  exact hsearch.isCycle List.nodup_nil (List.nil_subset _) (fun d _ => List.isChain_singleton d)
    (List.forall_mem_nil _)

/-- The packages in the order in which a search without cycles finishes them. -/
theorem Consistent.acyclic_of_cycles (hg : g.Consistent) (hnone : g.cycles = []) : g.Acyclic := by
  obtain ⟨t, hsearch, hcycles⟩ := hg.exists_searches
  have hstart : Searches.Finished g [] [] [] :=
    ⟨List.nodup_nil, fun n => by simp, fun n hn => absurd hn List.not_mem_nil⟩
  obtain ⟨-, finished, hfinished⟩ :=
    hsearch.exists_finished (hcycles ▸ hnone) (List.nil_subset _) hstart
  have hwithin := hsearch.visited_contains hg (fun n hn => mem_names.1 hn) (List.forall_mem_nil _)
  have hmem : ∀ n, n ∈ finished ↔ g.contains n := by
    intro n
    rw [hfinished.mem_iff]
    exact ⟨fun hn => hwithin n hn.1, fun hn => ⟨hsearch.row_visited (mem_names.2 hn), List.not_mem_nil⟩⟩
  have horder : g.IsInstallOrder finished :=
    ⟨hfinished.nodup, hmem, fun n d hdep => hfinished.ordered n ((hmem n).2 hdep.contains_left) d hdep⟩
  exact horder.acyclic

theorem Consistent.cycles_eq_nil_iff (hg : g.Consistent) : g.cycles = [] ↔ g.Acyclic := by
  refine ⟨hg.acyclic_of_cycles, fun hacyclic => List.eq_nil_iff_forall_not_mem.2 fun cycle hcycle => ?_⟩
  exact (hg.isCycle cycle hcycle).not_acyclic hacyclic

/-- A sort that fails reports the first cycle that a search shows. -/
theorem Consistent.error_cycle (hg : g.Consistent) {e : Error} (h : g.topologicalSort = .error e) :
    ∃ cycle, e = .dependencyCycle cycle ∧ g.cycles.head? = some cycle ∧ g.IsCycle cycle := by
  have hcyclic : ¬ g.Acyclic := by
    intro hacyclic
    obtain ⟨order, horder⟩ := hg.exists_order hacyclic
    rw [h] at horder
    cases horder
  obtain ⟨cycle, more, hcycles⟩ := List.exists_cons_of_ne_nil (mt hg.cycles_eq_nil_iff.1 hcyclic)
  refine ⟨cycle, ?_, by rw [hcycles]; rfl, hg.isCycle cycle (by simp [hcycles])⟩
  unfold topologicalSort at h
  simp only at h
  split at h
  · cases h
  · cases h
    rw [hcycles]
    rfl

/-- A search for cycles runs to its one end. What it shows are cycles, and it shows none exactly when the graph is
acyclic; so a sort that fails has a cycle to report. -/
theorem ofAdditions_cycles (additions : List Addition) :
    (∃ t, (∀ u, Searches (ofAdditions additions) [] (ofAdditions additions).names ⟨[], []⟩ u ↔ u = t) ∧
        (ofAdditions additions).cycles = t.cycles) ∧
      ((ofAdditions additions).cycles = [] ↔ (ofAdditions additions).Acyclic) ∧
      (∀ cycle ∈ (ofAdditions additions).cycles, (ofAdditions additions).IsCycle cycle) ∧
      ∀ e, (ofAdditions additions).topologicalSort = .error e →
        ∃ cycle, e = .dependencyCycle cycle ∧ (ofAdditions additions).cycles.head? = some cycle ∧
          (ofAdditions additions).IsCycle cycle := by
  have hg := ofAdditions_consistent additions
  refine ⟨?_, hg.cycles_eq_nil_iff, hg.isCycle, fun e h => hg.error_cycle h⟩
  obtain ⟨t, hsearch, hcycles⟩ := hg.exists_searches
  refine ⟨t, fun u => ⟨fun h => h.unique hsearch, ?_⟩, hcycles⟩
  rintro rfl
  exact hsearch

/-- Two cycles that share a package, next to a package on neither of them. -/
def knot : Graph :=
  ofAdditions [.package "a" ["b", "d"], .package "b" ["c"], .package "c" ["a", "b"], .package "d" []]

theorem cycles_knot :
    knot.cycles = [["a", "b", "c", "a"], ["b", "c", "b"]] ∧
      (∀ cycle ∈ knot.cycles, knot.IsCycle cycle) ∧
      knot.topologicalSort = .error (.dependencyCycle ["a", "b", "c", "a"]) ∧
      knot.IsCycle ["a", "b", "c", "a"] := by
  have hcycles : knot.cycles = [["a", "b", "c", "a"], ["b", "c", "b"]] := by decide +kernel
  have hsort : knot.topologicalSort = .error (.dependencyCycle ["a", "b", "c", "a"]) := rfl
  obtain ⟨-, -, hgenuine, hfails⟩ := ofAdditions_cycles
    [.package "a" ["b", "d"], .package "b" ["c"], .package "c" ["a", "b"], .package "d" []]
  obtain ⟨cycle, heq, -, hcycle⟩ := hfails _ hsort
  cases heq
  exact ⟨hcycles, hgenuine, hsort, hcycle⟩

end PackageRecipes.Graph
