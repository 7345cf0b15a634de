import PackageRecipes.Proofs.Graph.Sorting
import PackageRecipes.Proofs.Graph.Tree
import PackageRecipes.Proofs.Repository.ActiveEdges

/-!
# Default trees and their install order

The default tree of a configuration attaches to each package all that it needs and that is not on the path
to it. So the packages of the tree are those that the root needs, directly or not, and they can always be
put in order, also in a repository whose packages need each other in a circle.
-/

namespace PackageRecipes.Repository

open PackageRecipes.Configuration

variable {r : Repository} {root c : Configuration} {available targets : List String} {t : String}

/-! ## What is attached -/

theorem attach_nil (r : Repository) (available : List String) (c : Configuration) :
    r.attach available [] c = c := by rw [attach]

theorem attach_cons_skip {target : String} (rest : List String)
    (h : target ∉ available ∨ target ∈ c.dependencies.keys ∨ r.default? target = none) :
    r.attach available (target :: rest) c = r.attach available rest c := by
  rw [attach]
  split
  · rename_i hin
    split
    · rfl
    · rename_i hout
      split
      · rfl
      · rename_i hchild
        rw [NameMap.contains_iff] at hout
        simp [hin, hout, hchild] at h
  · rfl

theorem attach_cons_new {target : String} {child : Configuration} (rest : List String)
    (hin : target ∈ available) (hout : target ∉ c.dependencies.keys)
    (hchild : r.default? target = some child) :
    r.attach available (target :: rest) c =
      r.attach available rest
        { c with
          dependencies := c.dependencies.insert target
            (r.expand (available.erase target) { child with compiler := c.compiler }) } := by
  rw [attach, dif_pos hin, if_neg (by rwa [NameMap.contains_iff]), hchild]

theorem attach_eq (r : Repository) (available targets : List String) (c : Configuration) :
    ∃ m, r.attach available targets c = { c with dependencies := m } := by
  induction targets generalizing c with
  | nil =>
      cases c
      exact ⟨_, attach_nil r available _⟩
  | cons target rest ih =>
      by_cases h : target ∉ available ∨ target ∈ c.dependencies.keys ∨ r.default? target = none
      · rw [attach_cons_skip rest h]
        exact ih c
      · push Not at h
        obtain ⟨child, hchild⟩ := Option.ne_none_iff_exists'.1 h.2.2
        rw [attach_cons_new rest h.1 h.2.1 hchild]
        exact ih _

/-- Under each name stands what stood there, or else the expanded default of an active dependency. -/
theorem get?_attach (r : Repository) (available targets : List String) (c : Configuration) (t : String) :
    (r.attach available targets c).dependencies.get? t =
      (c.dependencies.get? t).or
        (if t ∈ targets ∧ t ∈ available then
          (r.defaultWith c.compiler t).map (r.expand (available.erase t)) else none) := by
  induction targets generalizing c with
  | nil => simp [attach_nil]
  | cons target rest ih =>
      by_cases h : target ∉ available ∨ target ∈ c.dependencies.keys ∨ r.default? target = none
      · rw [attach_cons_skip rest h, ih]
        by_cases ht : t = target
        · subst ht
          rcases h with h | h | h
          · simp [h]
          · obtain ⟨d, hd⟩ := Option.isSome_iff_exists.1 (NameMap.contains_iff.2 h)
            simp [hd]
          · simp [defaultWith, h]
        · simp [ht]
      · push Not at h
        obtain ⟨child, hchild⟩ := Option.ne_none_iff_exists'.1 h.2.2
        rw [attach_cons_new rest h.1 h.2.1 hchild, ih, NameMap.get?_insert]
        by_cases ht : t = target
        · subst ht
          simp [NameMap.get?_eq_none_iff.2 h.2.1, h.1, defaultWith, hchild]
        · simp [ht]

theorem attach_ascending (r : Repository) (available targets : List String) {c : Configuration}
    (h : c.dependencies.Ascending) : (r.attach available targets c).dependencies.Ascending := by
  induction targets generalizing c with
  | nil => rwa [attach_nil]
  | cons target rest ih =>
      by_cases hskip : target ∉ available ∨ target ∈ c.dependencies.keys ∨ r.default? target = none
      · rw [attach_cons_skip rest hskip]
        exact ih h
      · push Not at hskip
        obtain ⟨child, hchild⟩ := Option.ne_none_iff_exists'.1 hskip.2.2
        rw [attach_cons_new rest hskip.1 hskip.2.1 hchild]
        exact ih (h.insert _ _)

theorem expand_eq (r : Repository) (available : List String) (c : Configuration) :
    ∃ m, r.expand available c = { c with dependencies := m } := by
  rw [expand]
  exact attach_eq r available _ c

theorem expand_of_targets_nil (h : r.activeTargets c = []) (available : List String) : r.expand available c = c := by
  rw [expand, h, attach_nil]

theorem get?_expand (hc : c.dependencies = .empty) (t : String) :
    (r.expand available c).dependencies.get? t =
      if t ∈ r.activeTargets c ∧ t ∈ available then
        (r.defaultWith c.compiler t).map (r.expand (available.erase t)) else none := by
  rw [expand, get?_attach, hc, NameMap.get?_empty, Option.none_or]

theorem expand_ascending (available : List String) (hc : c.dependencies = .empty) :
    (r.expand available c).dependencies.Ascending := by
  rw [expand]
  refine attach_ascending r available _ ?_
  rw [hc]
  exact NameMap.empty_ascending

/-- What an expanded configuration has attached is the expanded default of an active dependency. -/
theorem expand_child (hc : c.dependencies = .empty) {d : Configuration}
    (h : (t, d) ∈ (r.expand available c).dependencies.entries) :
    t ∈ available ∧ ∃ e, r.defaultWith c.compiler t = some e ∧ d = r.expand (available.erase t) e := by
  rw [← NameMap.get?_eq_some_iff (expand_ascending available hc), get?_expand hc] at h
  split at h
  · rename_i ht
    obtain ⟨e, he, rfl⟩ := Option.map_eq_some_iff.1 h
    exact ⟨ht.2, e, he, rfl⟩
  · cases h

theorem mem_keys_expand (hc : c.dependencies = .empty) :
    t ∈ (r.expand available c).dependencies.keys ↔
      t ∈ r.activeTargets c ∧ t ∈ available ∧ r.Installable t := by
  rw [← NameMap.contains_iff, NameMap.contains, get?_expand hc, ← and_assoc]
  split
  · rename_i ht
    rw [Option.isSome_map, defaultWith_isSome]
    exact (and_iff_right ht).symm
  · rename_i ht
    simp [ht]

/-! ## Default trees -/

/-- An expanded configuration unfolds what is needed, below the path whose packages are no longer
available. -/
theorem expand_unfolds (h : r.Keyed) {path available : List String} {c : Configuration}
    (hc : c.dependencies = .empty) (hcompiler : c.compiler = root.compiler)
    (hchosen : chosen root (r.defaultWith root.compiler) c.name = some c)
    (hroot : root.name ∈ c.name :: path) (hfresh : c.name ∉ path) (hnd : available.Nodup)
    (havailable : ∀ t, t ∈ available ↔ t ∈ r.names ∧ t ∉ c.name :: path) :
    Unfolds (r.Needs root (r.defaultWith root.compiler)) path (r.expand available c) := by
  obtain ⟨m, hm⟩ := expand_eq r available c
  have hname : (r.expand available c).name = c.name := by rw [hm]
  refine .node (by rwa [hname]) (fun t => ?_) (fun e he => ?_) (fun d hd => ?_)
  · rw [mem_keys_expand hc, hname, needs_iff hchosen, havailable]
    constructor
    · rintro ⟨hactive, ⟨_, hnot⟩, hinstallable⟩
      exact ⟨⟨hactive, hinstallable⟩, hnot⟩
    · rintro ⟨⟨hactive, hinstallable⟩, hnot⟩
      exact ⟨hactive, ⟨hinstallable.mem_names, hnot⟩, hinstallable⟩
  · obtain ⟨_, e', he', heq⟩ := expand_child hc he
    obtain ⟨m', hm'⟩ := expand_eq r (available.erase e.1) e'
    rw [heq, hm']
    exact (h.defaultWith_eq he').1
  · obtain ⟨e, he, rfl⟩ := List.mem_map.1 hd
    obtain ⟨hin, e', he', heq⟩ := expand_child hc he
    obtain ⟨hname', hcompiler', hempty⟩ := h.defaultWith_eq he'
    have hnot := ((havailable e.1).1 hin).2
    have hother : e.1 ≠ root.name := fun he => hnot (he ▸ hroot)
    rw [heq, hname]
    refine expand_unfolds h hempty (hcompiler'.trans hcompiler) ?_ ?_ ?_ (hnd.erase _) fun t => ?_
    · rw [hname', chosen, if_neg hother, ← hcompiler, he']
    · exact List.mem_cons_of_mem _ hroot
    · rwa [hname']
    · rw [hnd.mem_erase_iff, havailable, hname', List.mem_cons (a := t) (b := e.1), not_or]
      constructor
      · rintro ⟨hne, hmem, hout⟩
        exact ⟨hmem, hne, hout⟩
      · rintro ⟨hmem, hne, hout⟩
        exact ⟨hne, hmem, hout⟩
termination_by available.length
decreasing_by
  have := List.length_erase_of_mem hin
  have := List.length_pos_of_mem hin
  omega

/-- The default tree of a configuration without dependencies unfolds all that the root needs. -/
theorem defaultTree_unfolds (h : r.Keyed) (hroot : root.dependencies = .empty) :
    Unfolds (r.Needs root (r.defaultWith root.compiler)) [] (r.defaultTree root) := by
  have hnd : r.names.Nodup := h.ascending.nodup
  refine expand_unfolds h hroot rfl (by simp [chosen]) List.mem_cons_self List.not_mem_nil
    (hnd.erase _) fun t => ?_
  rw [hnd.mem_erase_iff, List.mem_singleton]
  exact and_comm

theorem defaultTree_name (r : Repository) (root : Configuration) : (r.defaultTree root).name = root.name := by
  obtain ⟨m, hm⟩ := expand_eq r (r.names.erase root.name) root
  rw [defaultTree, hm]

/-- The install order of a default tree lists what the root needs, directly or not. -/
theorem exists_defaultTree_order (h : r.Keyed) (hroot : root.dependencies = .empty) :
    ∃ order, r.installOrder (r.defaultTree root) = .ok order ∧
      (Graph.ofConfiguration (r.defaultTree root)).IsInstallOrder order ∧
      ∀ n, n ∈ order ↔
        Relation.ReflTransGen (r.Needs root (r.defaultWith root.compiler)) root.name n := by
  have hunfolds := defaultTree_unfolds h hroot
  have hg := ofConfiguration_consistent (r.defaultTree root)
  obtain ⟨finish, hfinish⟩ := hunfolds.exists_installOrder
  obtain ⟨order, hsort⟩ := hg.exists_order hfinish.acyclic
  have horder := hg.isInstallOrder hsort
  refine ⟨order, hsort, horder, fun n => ?_⟩
  rw [horder.complete, hunfolds.contains_iff, defaultTree_name]

/-- A default tree can always be put in order: each package comes once, the packages are all that the root
needs, and the root is the last of them. -/
theorem installOrder_defaultTree (hr : r.Reachable) (hroot : root.dependencies = .empty) :
    ∃ order, r.installOrder (r.defaultTree root) = .ok order ∧ order.Nodup ∧
      IsLeast {S | r.Closed root (r.defaultWith root.compiler) S} {n | n ∈ order} ∧
      order.getLast? = some root.name := by
  obtain ⟨order, hsort, horder, hmem⟩ := exists_defaultTree_order hr.keyed hroot
  refine ⟨order, hsort, horder.nodup, ?_, ?_⟩
  · simp only [hmem]
    exact isLeast_reached
  · refine horder.getLast? ((hmem _).2 .refl) fun n hn hne => ?_
    have := (defaultTree_unfolds hr.keyed hroot).root_dependsOn ((horder.complete n).1 hn)
      (by rwa [defaultTree_name])
    rwa [defaultTree_name] at this

theorem installOrder_circle :
    circle.Reachable ∧ (bare "left" ⟨"1", [.number 1]⟩).dependencies = .empty ∧
      ∃ order, circle.installOrder (circle.defaultTree (bare "left" ⟨"1", [.number 1]⟩)) = .ok order ∧
        "right" ∈ order ∧ order.getLast? = some "left" := by
  have hroot : (bare "left" ⟨"1", [.number 1]⟩).dependencies = .empty := rfl
  obtain ⟨order, hsort, _, hleast, hlast⟩ := installOrder_defaultTree circle_reachable hroot
  refine ⟨circle_reachable, hroot, order, hsort, ?_, hlast⟩
  have hedge : circle.ActiveEdge (bare "left" ⟨"1", [.number 1]⟩) (circle.defaultWith none)
      "left" "right" := ⟨_, rfl, by decide +kernel⟩
  exact hleast.1.needed_mem "left" hleast.1.root_mem "right" hedge
    (default?_isSome.1 (by decide +kernel))

end PackageRecipes.Repository
