import PackageRecipes.Proofs.Graph.Basic
import PackageRecipes.Proofs.Repository.ActiveEdges

/-!
# Exploring the packages below a root

The exploration works off a queue of configurations. Its graph only holds edges that are active and
packages that can be reached; each package that is not unseen any more has all its edges in the graph;
and each package of the graph that is still unseen waits in the queue. So the graph that is left when the
queue is empty holds all that can be reached, whatever circles the edges form.
-/

namespace PackageRecipes.Repository

open Relation

variable {r : Repository} {root c : Configuration} {unseen targets : List String} {t : String}

/-! ## Discovered configurations -/

theorem discover_subset (r : Repository) (unseen targets : List String) :
    ∀ t ∈ (r.discover unseen targets).1, t ∈ unseen := by
  induction targets generalizing unseen with
  | nil => exact fun _ h => h
  | cons target rest ih =>
      simp only [discover]
      split
      · split
        · exact ih unseen
        · exact fun t ht => List.mem_of_mem_erase (ih _ t ht)
      · exact ih unseen

theorem discover_nodup (h : unseen.Nodup) (targets : List String) :
    (r.discover unseen targets).1.Nodup := by
  induction targets generalizing unseen with
  | nil => exact h
  | cons target rest ih =>
      simp only [discover]
      split
      · split
        · exact ih h
        · exact ih (h.erase _)
      · exact ih h

/-- Only packages without a default configuration are crossed off. -/
theorem discover_crossed (r : Repository) (unseen targets : List String) :
    ∀ t ∈ unseen, t ∉ (r.discover unseen targets).1 → r.default? t = none := by
  induction targets generalizing unseen with
  | nil => exact fun _ h hnot => absurd h hnot
  | cons target rest ih =>
      simp only [discover]
      split
      · split
        · exact ih unseen
        · rename_i hnone
          intro t ht hnot
          by_cases heq : t = target
          · rw [heq, hnone]
          · exact ih _ t ((List.mem_erase_of_ne heq).2 ht) hnot
      · exact ih unseen

/-- What is found is the default configuration of an unseen target. -/
theorem discover_sound (r : Repository) (unseen targets : List String) :
    ∀ d ∈ (r.discover unseen targets).2, ∃ t ∈ targets, t ∈ unseen ∧ r.default? t = some d := by
  induction targets generalizing unseen with
  | nil =>
      intro d hd
      cases hd
  | cons target rest ih =>
      simp only [discover]
      split
      · rename_i htarget
        split
        · rename_i child hchild
          intro d hd
          rcases List.mem_cons.1 hd with rfl | hd
          · exact ⟨target, List.mem_cons_self, htarget, hchild⟩
          · obtain ⟨t, ht, hin, hdefault⟩ := ih unseen d hd
            exact ⟨t, List.mem_cons_of_mem _ ht, hin, hdefault⟩
        · intro d hd
          obtain ⟨t, ht, hin, hdefault⟩ := ih _ d hd
          exact ⟨t, List.mem_cons_of_mem _ ht, List.mem_of_mem_erase hin, hdefault⟩
      · intro d hd
        obtain ⟨t, ht, hin, hdefault⟩ := ih unseen d hd
        exact ⟨t, List.mem_cons_of_mem _ ht, hin, hdefault⟩

theorem discover_complete (h : unseen.Nodup) (targets : List String) :
    ∀ t ∈ targets, t ∈ (r.discover unseen targets).1 →
      ∃ d ∈ (r.discover unseen targets).2, r.default? t = some d := by
  induction targets generalizing unseen with
  | nil =>
      intro t ht
      cases ht
  | cons target rest ih =>
      simp only [discover]
      split
      · split
        · rename_i child hchild
          intro t ht hin
          rcases List.mem_cons.1 ht with rfl | ht
          · exact ⟨child, List.mem_cons_self, hchild⟩
          · obtain ⟨d, hd, hdefault⟩ := ih h t ht hin
            exact ⟨d, List.mem_cons_of_mem _ hd, hdefault⟩
        · intro t ht hin
          rcases List.mem_cons.1 ht with rfl | ht
          · exact absurd (discover_subset r _ rest t hin) (h.not_mem_erase)
          · exact ih (h.erase _) t ht hin
      · rename_i hnot
        intro t ht hin
        rcases List.mem_cons.1 ht with rfl | ht
        · exact absurd (discover_subset r _ rest t hin) hnot
        · exact ih h t ht hin

/-! ## The invariant of the exploration -/

/-- What holds in each round of an exploration. -/
structure Exploring (r : Repository) (root : Configuration) (unseen : List String)
    (queue : List Configuration) (g : Graph) : Prop where
  consistent : g.Consistent
  nodup : unseen.Nodup
  /-- The queue holds configurations as packages are read at, of packages that can be reached. -/
  queued : ∀ c ∈ queue, chosen root r.default? c.name = some c ∧
    ReflTransGen (r.ActiveEdge root r.default?) root.name c.name
  root_first : root.name ∈ unseen → ∃ rest, queue = root :: rest
  reached : ∀ n, g.contains n → ReflTransGen (r.ActiveEdge root r.default?) root.name n
  active : ∀ n d, g.DependsOn n d → r.ActiveEdge root r.default? n d
  explored : ∀ n c, n ∉ unseen → chosen root r.default? n = some c →
    g.contains n ∧ ∀ d ∈ r.activeTargets c, g.DependsOn n d
  waiting : ∀ n, g.contains n →
    n ∉ unseen ∨ (∃ c ∈ queue, c.name = n) ∨ chosen root r.default? n = none

variable {queue : List Configuration} {g : Graph}

theorem exploring_start (h : r.Keyed) (root : Configuration) :
    Exploring r root (root.name :: r.names.erase root.name) [root] .empty where
  consistent := .empty
  nodup := List.nodup_cons.2 ⟨h.ascending.nodup.not_mem_erase, h.ascending.nodup.erase _⟩
  queued := by
    intro c hc
    rw [List.mem_singleton.1 hc]
    exact ⟨by simp [chosen], .refl⟩
  root_first := fun _ => ⟨[], rfl⟩
  reached := by
    intro n hn
    cases hn
  active := by
    intro n d hd
    cases hd
  explored := by
    intro n c hn hc
    obtain ⟨hne, hnot⟩ := not_or.1 (mt List.mem_cons.2 hn)
    rw [chosen, if_neg hne] at hc
    have hname := (default?_isSome.1 (by rw [hc]; rfl) : r.Installable n).mem_names
    exact absurd ((List.mem_erase_of_ne hne).2 hname) hnot
  waiting := by
    intro n hn
    cases hn

/-- A configuration of a package that has been seen is left aside. -/
theorem Exploring.skip (h : Exploring r root unseen (c :: queue) g) (hc : c.name ∉ unseen) :
    Exploring r root unseen queue g where
  consistent := h.consistent
  nodup := h.nodup
  queued := fun d hd => h.queued d (List.mem_cons_of_mem _ hd)
  root_first := by
    intro hroot
    obtain ⟨rest, heq⟩ := h.root_first hroot
    rw [(List.cons.inj heq).1] at hc
    exact absurd hroot hc
  reached := h.reached
  active := h.active
  explored := h.explored
  waiting := by
    intro n hn
    rcases h.waiting n hn with hseen | ⟨d, hd, rfl⟩ | hnone
    · exact Or.inl hseen
    · rcases List.mem_cons.1 hd with rfl | hd
      · exact Or.inl hc
      · exact Or.inr (Or.inl ⟨d, hd, rfl⟩)
    · exact Or.inr (Or.inr hnone)

/-- Once the first configuration is explored, the root counts as seen. -/
theorem Exploring.root_seen (h : Exploring r root unseen (c :: queue) g) :
    root.name ∉ unseen.erase c.name := by
  intro hroot
  obtain ⟨rest, heq⟩ := h.root_first (List.mem_of_mem_erase hroot)
  rw [(List.cons.inj heq).1] at hroot
  exact h.nodup.not_mem_erase hroot

theorem Exploring.edge (h : Exploring r root unseen (c :: queue) g) {d : String}
    (hd : d ∈ r.activeTargets c) : r.ActiveEdge root r.default? c.name d :=
  ⟨c, (h.queued c List.mem_cons_self).1, hd⟩

/-- Configurations are found of packages other than the root, at their defaults. -/
theorem Exploring.step_queued (hr : r.Keyed) (h : Exploring r root unseen (c :: queue) g) :
    ∀ d ∈ queue ++ (r.discover (unseen.erase c.name) (r.activeTargets c)).2,
      chosen root r.default? d.name = some d ∧
        ReflTransGen (r.ActiveEdge root r.default?) root.name d.name := by
  intro d hd
  rcases List.mem_append.1 hd with hd | hd
  · exact h.queued d (List.mem_cons_of_mem _ hd)
  · obtain ⟨t, ht, hin, hdefault⟩ := discover_sound r _ _ d hd
    have hother : t ≠ root.name := fun he => h.root_seen (he ▸ hin)
    rw [(hr.default?_eq hdefault).1, chosen, if_neg hother]
    exact ⟨hdefault, (h.queued c List.mem_cons_self).2.tail (h.edge ht)⟩

/-- The package that is explored has all its edges; one that is crossed off has no configuration. -/
theorem Exploring.step_explored (h : Exploring r root unseen (c :: queue) g) {n : String}
    {e : Configuration} (hn : n ∉ (r.discover (unseen.erase c.name) (r.activeTargets c)).1)
    (he : chosen root r.default? n = some e) :
    (g.addPackage c.name (r.activeTargets c)).contains n ∧
      ∀ d ∈ r.activeTargets e, (g.addPackage c.name (r.activeTargets c)).DependsOn n d := by
  by_cases hname : n = c.name
  · subst hname
    rw [(h.queued c List.mem_cons_self).1, Option.some.injEq] at he
    subst he
    exact ⟨Graph.contains_addPackage.2 (Or.inl rfl),
      fun d hd => Graph.dependsOn_addPackage.2 (Or.inl ⟨rfl, hd⟩)⟩
  · by_cases hold : n ∈ unseen
    · have hin := (List.mem_erase_of_ne hname).2 hold
      have hother : n ≠ root.name := fun he => h.root_seen (he ▸ hin)
      rw [chosen, if_neg hother, discover_crossed r _ _ n hin hn] at he
      cases he
    · obtain ⟨hcontains, hall⟩ := h.explored n e hold he
      exact ⟨Graph.contains_addPackage.2 (Or.inr (Or.inr hcontains)),
        fun d hd => Graph.dependsOn_addPackage.2 (Or.inr (hall d hd))⟩

/-- A target that stays unseen joins the queue; all others wait as before. -/
theorem Exploring.step_waiting (hr : r.Keyed) (h : Exploring r root unseen (c :: queue) g) {n : String}
    (hn : (g.addPackage c.name (r.activeTargets c)).contains n) :
    n ∉ (r.discover (unseen.erase c.name) (r.activeTargets c)).1 ∨
      (∃ d ∈ queue ++ (r.discover (unseen.erase c.name) (r.activeTargets c)).2, d.name = n) ∨
        chosen root r.default? n = none := by
  by_cases hin : n ∈ (r.discover (unseen.erase c.name) (r.activeTargets c)).1
  · have hleft := discover_subset r _ _ n hin
    have hother : n ≠ c.name := fun he => h.nodup.not_mem_erase (he ▸ hleft)
    rcases Graph.contains_addPackage.1 hn with he | hn | hn
    · exact absurd he hother
    · obtain ⟨d, hd, hdefault⟩ := discover_complete (h.nodup.erase _) _ n hn hin
      exact Or.inr (Or.inl ⟨d, List.mem_append_right _ hd, (hr.default?_eq hdefault).1⟩)
    · rcases h.waiting n hn with hnot | ⟨d, hd, rfl⟩ | hnone
      · exact absurd (List.mem_of_mem_erase hleft) hnot
      · rcases List.mem_cons.1 hd with rfl | hd
        · exact absurd rfl hother
        · exact Or.inr (Or.inl ⟨d, List.mem_append_left _ hd, rfl⟩)
      · exact Or.inr (Or.inr hnone)
  · exact Or.inl hin

/-- A configuration of an unseen package is explored. -/
theorem Exploring.step (hr : r.Keyed) (h : Exploring r root unseen (c :: queue) g) :
    Exploring r root (r.discover (unseen.erase c.name) (r.activeTargets c)).1
      (queue ++ (r.discover (unseen.erase c.name) (r.activeTargets c)).2)
      (g.addPackage c.name (r.activeTargets c)) where
  consistent := h.consistent.addPackage _ _
  nodup := discover_nodup (h.nodup.erase _) _
  queued := h.step_queued hr
  root_first := fun hroot => absurd (discover_subset r _ _ _ hroot) h.root_seen
  reached := by
    intro n hn
    have hreach := (h.queued c List.mem_cons_self).2
    rcases Graph.contains_addPackage.1 hn with rfl | hn | hn
    · exact hreach
    · exact hreach.tail (h.edge hn)
    · exact h.reached n hn
  active := by
    intro n d hd
    rcases Graph.dependsOn_addPackage.1 hd with ⟨rfl, hmem⟩ | hold
    · exact h.edge hmem
    · exact h.active n d hold
  explored := fun _ _ hn he => h.step_explored hn he
  waiting := fun _ hn => h.step_waiting hr hn

/-- The exploration keeps its invariant until the queue is empty. -/
theorem Exploring.run (hr : r.Keyed) (h : Exploring r root unseen queue g) :
    ∃ left, Exploring r root left [] (r.explore unseen queue g) := by
  induction unseen, queue, g using explore.induct (r := r) with
  | case1 unseen g =>
      rw [explore]
      exact ⟨unseen, h⟩
  | case2 unseen g c rest hc targets next ih =>
      rw [explore, if_pos hc]
      exact ih (h.step hr)
  | case3 unseen g c rest hc ih =>
      rw [explore, if_neg hc]
      exact ih (h.skip hc)

/-! ## What an exploration finds -/

/-- When the queue is empty, each package of the graph has been seen if there is a configuration to read
it at. -/
theorem Exploring.seen (h : Exploring r root unseen [] g) {n : String} (hn : g.contains n)
    (hc : chosen root r.default? n = some c) : n ∉ unseen := by
  rcases h.waiting n hn with hnot | ⟨d, hd, _⟩ | hnone
  · exact hnot
  · cases hd
  · rw [hnone] at hc
    cases hc

theorem Exploring.dependsOn_of_edge (h : Exploring r root unseen [] g) {n d : String}
    (hn : g.contains n) (hedge : r.ActiveEdge root r.default? n d) : g.DependsOn n d := by
  obtain ⟨c, hc, hd⟩ := hedge
  exact (h.explored n c (h.seen hn hc) hc).2 d hd

theorem Exploring.contains_of_reached (h : Exploring r root unseen [] g) {n : String}
    (hn : ReflTransGen (r.ActiveEdge root r.default?) root.name n) : g.contains n := by
  induction hn with
  | refl =>
      have hroot : root.name ∉ unseen := by
        intro hroot
        obtain ⟨rest, heq⟩ := h.root_first hroot
        cases heq
      exact (h.explored _ root hroot (by simp [chosen])).1
  | tail _ hedge ih => exact h.consistent.closed _ _ (h.dependsOn_of_edge ih hedge)

theorem exists_explored (hr : r.Keyed) (root : Configuration) :
    ∃ left, Exploring r root left [] (r.dependencyGraph root) :=
  (exploring_start hr root).run hr

theorem contains_dependencyGraph (hr : r.Keyed) (root : Configuration) (n : String) :
    (r.dependencyGraph root).contains n ↔
      ReflTransGen (r.ActiveEdge root r.default?) root.name n := by
  obtain ⟨left, h⟩ := exists_explored hr root
  exact ⟨h.reached n, h.contains_of_reached⟩

theorem dependsOn_dependencyGraph (hr : r.Keyed) (root : Configuration) (n d : String) :
    (r.dependencyGraph root).DependsOn n d ↔
      ReflTransGen (r.ActiveEdge root r.default?) root.name n ∧ r.ActiveEdge root r.default? n d := by
  obtain ⟨left, h⟩ := exists_explored hr root
  constructor
  · exact fun hd => ⟨h.reached n hd.contains_left, h.active n d hd⟩
  · exact fun ⟨hreach, hedge⟩ => h.dependsOn_of_edge (h.contains_of_reached hreach) hedge

theorem dependencyGraph_consistent (hr : r.Keyed) (root : Configuration) :
    (r.dependencyGraph root).Consistent := by
  obtain ⟨left, h⟩ := exists_explored hr root
  exact h.consistent

/-- The graph of a root holds exactly the packages that active edges lead to and exactly their active
edges, circles included. Other packages than the root are leaves unless they can be installed. -/
theorem dependencyGraph_eq_reachable (hr : r.Reachable) (root : Configuration) :
    (∀ n, (r.dependencyGraph root).contains n ↔
        ReflTransGen (r.ActiveEdge root r.default?) root.name n) ∧
      (∀ n d, (r.dependencyGraph root).DependsOn n d ↔
        ReflTransGen (r.ActiveEdge root r.default?) root.name n ∧
          r.ActiveEdge root r.default? n d) ∧
      ∀ n, n ≠ root.name → ¬ r.Installable n → ∀ d, ¬ (r.dependencyGraph root).DependsOn n d := by
  refine ⟨contains_dependencyGraph hr.keyed root, dependsOn_dependencyGraph hr.keyed root, ?_⟩
  intro n hne hnot d hd
  have hedge := ((dependsOn_dependencyGraph hr.keyed root n d).1 hd).2
  exact hedge.root_or_installable.elim hne hnot

theorem dependencyGraph_circle :
    circle.Reachable ∧
      (circle.dependencyGraph (.bare "left" ⟨"1", [.number 1]⟩)).DependsOn "left" "right" ∧
      (circle.dependencyGraph (.bare "left" ⟨"1", [.number 1]⟩)).DependsOn "right" "left" := by
  have hedges := (dependencyGraph_eq_reachable circle_reachable (.bare "left" ⟨"1", [.number 1]⟩)).2.1
  have hright : circle.ActiveEdge (.bare "left" ⟨"1", [.number 1]⟩) circle.default? "left" "right" :=
    ⟨_, rfl, by decide +kernel⟩
  have hleft : circle.ActiveEdge (.bare "left" ⟨"1", [.number 1]⟩) circle.default? "right" "left" :=
    .of_any (by decide +kernel)
  exact ⟨circle_reachable, (hedges _ _).2 ⟨.refl, hright⟩, (hedges _ _).2 ⟨.single hright, hleft⟩⟩

end PackageRecipes.Repository
