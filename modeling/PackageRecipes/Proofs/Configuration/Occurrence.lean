import PackageRecipes.Proofs.Configuration.Walk
import PackageRecipes.Proofs.NameMap

/-!
# Occurrences in a tree

A package can occur at several places of a tree, with other packages attached at each of them. A walk
meets only the first of these places.
-/

namespace PackageRecipes.Configuration

/-- A configuration stands in a tree below the packages of a path, of which the nearest comes first. -/
inductive Occurs (root : Configuration) : List String → Configuration → Prop where
  | root : Occurs root [] root
  | attached {path : List String} {c d : Configuration} (h : Occurs root path c)
      (hd : d ∈ c.dependencies.values) : Occurs root (c.name :: path) d

/-- What is attached anywhere in the tree stands under its own name. -/
def Labelled (root : Configuration) : Prop :=
  ∀ path c, root.Occurs path c → ∀ e ∈ c.dependencies.entries, e.2.name = e.1

/-- A package has the same names attached wherever it occurs. -/
def Uniform (root : Configuration) : Prop :=
  ∀ path c path' d, root.Occurs path c → root.Occurs path' d → c.name = d.name →
    ∀ t ∈ c.dependencies.keys, t ∈ d.dependencies.keys

variable {needs : String → String → Prop} {root c d : Configuration} {path : List String} {t : String}

theorem exists_entry (hd : d ∈ c.dependencies.values) : ∃ k, (k, d) ∈ c.dependencies.entries := by
  obtain ⟨⟨k, d'⟩, he, rfl⟩ := List.mem_map.1 hd
  exact ⟨k, he⟩

/-! ## Labelled trees -/

theorem Labelled.child_key (h : root.Labelled) (hc : root.Occurs path c)
    (hd : d ∈ c.dependencies.values) : d.name ∈ c.dependencies.keys := by
  obtain ⟨k, he⟩ := exists_entry hd
  exact List.mem_map.2 ⟨(k, d), he, (h path c hc (k, d) he).symm⟩

theorem Labelled.exists_child (h : root.Labelled) (hc : root.Occurs path c)
    (ht : t ∈ c.dependencies.keys) : ∃ d ∈ c.dependencies.values, d.name = t := by
  obtain ⟨⟨k, d⟩, he, rfl⟩ := List.mem_map.1 ht
  exact ⟨d, List.mem_map.2 ⟨(k, d), he, rfl⟩, h path c hc (k, d) he⟩

theorem Occurs.of_child (hd : d ∈ root.dependencies.values) (h : d.Occurs path c) :
    ∃ path', root.Occurs path' c := by
  induction h with
  | root => exact ⟨_, .attached .root hd⟩
  | attached _ he ih =>
      obtain ⟨path', hc⟩ := ih
      exact ⟨_, hc.attached he⟩

theorem Occurs.root_or_child (h : root.Occurs path c) :
    c = root ∨ ∃ d ∈ root.dependencies.values, ∃ path', d.Occurs path' c := by
  induction h with
  | root => exact Or.inl rfl
  | @attached path c e hc he ih =>
      rcases ih with rfl | ⟨d, hd, path', hc⟩
      · exact Or.inr ⟨e, he, [], .root⟩
      · exact Or.inr ⟨d, hd, _, hc.attached he⟩

theorem labelled_iff :
    root.Labelled ↔ ∀ e ∈ root.dependencies.entries, e.2.name = e.1 ∧ e.2.Labelled := by
  constructor
  · intro h e he
    refine ⟨h [] root .root e he, fun path c hc => ?_⟩
    obtain ⟨path', hc⟩ := hc.of_child (List.mem_map.2 ⟨e, he, rfl⟩)
    exact h path' c hc
  · intro h path c hc
    rcases hc.root_or_child with rfl | ⟨d, hd, path', hc⟩
    · exact fun e he => (h e he).1
    · obtain ⟨k, he⟩ := exists_entry hd
      exact (h (k, d) he).2 path' c hc

theorem labelled_bare (name : String) (version : Version) : (bare name version).Labelled := by
  rw [labelled_iff]
  intro e he
  cases he

theorem Labelled.withDependency (hc : c.Labelled) (hd : d.Labelled) : (c.withDependency d).Labelled := by
  rw [labelled_iff] at hc ⊢
  intro e he
  rcases NameMap.mem_insert_entries he with rfl | he
  · exact ⟨rfl, hd⟩
  · exact hc e he

/-! ## Walks and occurrences -/

/-- What holds of the row and of all that is attached to what it holds of, holds of what a walk meets. -/
theorem walked_of_closed {P : Configuration → Prop} (hbelow : ∀ c, P c → ∀ d ∈ c.dependencies.values, P d)
    (seen : List String) (cs : List Configuration) (hroots : ∀ c ∈ cs, P c) :
    ∀ c ∈ walkFrom seen cs, P c := by
  induction seen, cs using walkFrom.induct with
  | case1 seen => simp [walkFrom]
  | case2 seen c rest hc ih =>
      rw [walkFrom_cons_seen rest hc]
      exact ih fun d hd => hroots d (List.mem_cons_of_mem _ hd)
  | case3 seen c rest hc ih =>
      rw [walkFrom_cons_new rest hc]
      have hroot := hroots c List.mem_cons_self
      intro d hd
      rcases List.mem_cons.1 hd with rfl | hd
      · exact hroot
      · refine ih (fun e he => ?_) d hd
        rcases List.mem_append.1 he with he | he
        · exact hbelow c hroot e he
        · exact hroots e (List.mem_cons_of_mem _ he)

theorem occurs_of_walked (h : c ∈ root.walk) : ∃ path, root.Occurs path c := by
  refine walked_of_closed (P := fun c => ∃ path, root.Occurs path c) ?_ [] [root] ?_ c h
  · rintro c ⟨path, hc⟩ d hd
    exact ⟨_, hc.attached hd⟩
  · intro c hc
    rw [List.mem_singleton.1 hc]
    exact ⟨[], .root⟩

theorem eq_of_walked (hc : c ∈ root.walk) (hd : d ∈ root.walk) (h : c.name = d.name) : c = d :=
  List.inj_on_of_nodup_map (walkFrom_nodup [] [root]).1 hc hd h

theorem Unfolds.occurs {above : List String} (h : Unfolds needs above root) (hc : root.Occurs path c) :
    Unfolds needs (path ++ above) c := by
  induction hc with
  | root => exact h
  | attached _ hd ih => exact ih.child _ hd

theorem Unfolds.labelled {above : List String} (h : Unfolds needs above root) : root.Labelled := by
  intro path c hc
  cases h.occurs hc with
  | node _ _ named _ => exact named

end PackageRecipes.Configuration
