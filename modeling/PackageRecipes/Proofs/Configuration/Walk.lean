import Mathlib.Data.List.Nodup
import PackageRecipes.Configuration

/-!
# Walks over trees

A walk meets each name once, at its first occurrence. Where each package of a tree has attached all that
it needs, except for what lies on the path to it, the walk meets everything that is needed, and the
packages that it meets can be finished one after the other, each after all that is attached to it.
-/

namespace PackageRecipes.Configuration

/-- Each package of the tree has attached, under their names, exactly the packages that it needs and
that are not on the path to it. -/
inductive Unfolds (needs : String → String → Prop) : List String → Configuration → Prop where
  | node {path : List String} {c : Configuration} (fresh : c.name ∉ path)
      (attached : ∀ t, t ∈ c.dependencies.keys ↔ needs c.name t ∧ t ∉ c.name :: path)
      (named : ∀ e ∈ c.dependencies.entries, e.2.name = e.1)
      (below : ∀ d ∈ c.dependencies.values, Unfolds needs (c.name :: path) d) : Unfolds needs path c

variable {needs : String → String → Prop}

theorem Unfolds.mem_keys_iff {path : List String} {c : Configuration} (h : Unfolds needs path c)
    {t : String} : t ∈ c.dependencies.keys ↔ needs c.name t ∧ t ∉ c.name :: path := by
  cases h with
  | node _ attached _ _ => exact attached t

theorem Unfolds.child {path : List String} {c : Configuration} (h : Unfolds needs path c) :
    ∀ d ∈ c.dependencies.values, Unfolds needs (c.name :: path) d := by
  cases h with
  | node _ _ _ below => exact below

theorem Unfolds.exists_child {path : List String} {c : Configuration} (h : Unfolds needs path c)
    {t : String} (ht : t ∈ c.dependencies.keys) : ∃ d ∈ c.dependencies.values, d.name = t := by
  cases h with
  | node _ _ named _ =>
      obtain ⟨e, he, rfl⟩ := List.mem_map.1 ht
      exact ⟨e.2, List.mem_map.2 ⟨e, he, rfl⟩, named e he⟩

theorem Unfolds.child_key {path : List String} {c d : Configuration} (h : Unfolds needs path c)
    (hd : d ∈ c.dependencies.values) : d.name ∈ c.dependencies.keys := by
  cases h with
  | node _ _ named _ =>
      obtain ⟨e, he, rfl⟩ := List.mem_map.1 hd
      exact List.mem_map.2 ⟨e, he, (named e he).symm⟩

/-! ## What a walk meets -/

theorem walkFrom_cons_seen {seen : List String} {c : Configuration} (rest : List Configuration)
    (h : c.name ∈ seen) : walkFrom seen (c :: rest) = walkFrom seen rest := by
  rw [walkFrom, if_pos h]

theorem walkFrom_cons_new {seen : List String} {c : Configuration} (rest : List Configuration)
    (h : c.name ∉ seen) :
    walkFrom seen (c :: rest) = c :: walkFrom (c.name :: seen) (c.dependencies.values ++ rest) := by
  rw [walkFrom, if_neg h]

/-- No name is met twice, nor one that counts as seen from the start. -/
theorem walkFrom_nodup (seen : List String) (cs : List Configuration) :
    ((walkFrom seen cs).map name).Nodup ∧ ∀ n ∈ (walkFrom seen cs).map name, n ∉ seen := by
  induction seen, cs using walkFrom.induct with
  | case1 seen => simp [walkFrom]
  | case2 seen c rest hc ih =>
      rw [walkFrom_cons_seen rest hc]
      exact ih
  | case3 seen c rest hc ih =>
      rw [walkFrom_cons_new rest hc, List.map_cons]
      refine ⟨List.nodup_cons.2 ⟨fun hn => ih.2 _ hn List.mem_cons_self, ih.1⟩, fun n hn => ?_⟩
      rcases List.mem_cons.1 hn with rfl | hn
      · exact hc
      · exact fun hs => ih.2 n hn (List.mem_cons_of_mem _ hs)

/-- A walk over two rows meets in the second one what it has not met in the first. -/
theorem walkFrom_append (seen : List String) (cs ds : List Configuration) :
    walkFrom seen (cs ++ ds) =
      walkFrom seen cs ++ walkFrom (((walkFrom seen cs).map name).reverse ++ seen) ds := by
  induction seen, cs using walkFrom.induct with
  | case1 seen => simp [walkFrom]
  | case2 seen c rest hc ih =>
      rw [List.cons_append, walkFrom_cons_seen _ hc, walkFrom_cons_seen _ hc, ih]
  | case3 seen c rest hc ih =>
      rw [List.cons_append, walkFrom_cons_new _ hc, walkFrom_cons_new _ hc, ← List.append_assoc, ih]
      simp

theorem seen_or_walked (seen : List String) (cs : List Configuration) :
    ∀ c ∈ cs, c.name ∈ seen ∨ c.name ∈ (walkFrom seen cs).map name := by
  induction seen, cs using walkFrom.induct with
  | case1 seen => simp
  | case2 seen c rest hc ih =>
      rw [walkFrom_cons_seen rest hc]
      intro d hd
      rcases List.mem_cons.1 hd with rfl | hd
      · exact Or.inl hc
      · exact ih d hd
  | case3 seen c rest hc ih =>
      rw [walkFrom_cons_new rest hc, List.map_cons]
      intro d hd
      rcases List.mem_cons.1 hd with rfl | hd
      · exact Or.inr List.mem_cons_self
      · rcases ih d (List.mem_append_right _ hd) with h | h
        · rcases List.mem_cons.1 h with h | h
          · exact Or.inr (h ▸ List.mem_cons_self)
          · exact Or.inl h
        · exact Or.inr (List.mem_cons_of_mem _ h)

theorem children_walked (seen : List String) (cs : List Configuration) :
    ∀ c ∈ walkFrom seen cs, ∀ d ∈ c.dependencies.values,
      d.name ∈ seen ∨ d.name ∈ (walkFrom seen cs).map name := by
  induction seen, cs using walkFrom.induct with
  | case1 seen => simp [walkFrom]
  | case2 seen c rest hc ih =>
      rw [walkFrom_cons_seen rest hc]
      exact ih
  | case3 seen c rest hc ih =>
      rw [walkFrom_cons_new rest hc, List.map_cons]
      intro e he d hd
      have hmet : d.name ∈ c.name :: seen ∨ d.name ∈
          (walkFrom (c.name :: seen) (c.dependencies.values ++ rest)).map name := by
        rcases List.mem_cons.1 he with rfl | he
        · exact seen_or_walked _ _ d (List.mem_append_left _ hd)
        · exact ih e he d hd
      rcases hmet with h | h
      · rcases List.mem_cons.1 h with h | h
        · exact Or.inr (h ▸ List.mem_cons_self)
        · exact Or.inl h
      · exact Or.inr (List.mem_cons_of_mem _ h)

/-- A walk stays within any set that holds its roots and, with a package that the walk meets, what is
attached to it. -/
theorem walked_subset {S : String → Prop} (seen : List String) (cs : List Configuration)
    (hroots : ∀ c ∈ cs, S c.name)
    (hclosed : ∀ c ∈ walkFrom seen cs, S c.name → ∀ d ∈ c.dependencies.values, S d.name) :
    ∀ c ∈ walkFrom seen cs, S c.name := by
  induction seen, cs using walkFrom.induct with
  | case1 seen => simp [walkFrom]
  | case2 seen c rest hc ih =>
      rw [walkFrom_cons_seen rest hc] at hclosed ⊢
      exact ih (fun d hd => hroots d (List.mem_cons_of_mem _ hd)) hclosed
  | case3 seen c rest hc ih =>
      rw [walkFrom_cons_new rest hc] at hclosed ⊢
      have hroot := hroots c List.mem_cons_self
      intro d hd
      rcases List.mem_cons.1 hd with rfl | hd
      · exact hroot
      · refine ih (fun e he => ?_) (fun e he => hclosed e (List.mem_cons_of_mem _ he)) d hd
        rcases List.mem_append.1 he with he | he
        · exact hclosed c List.mem_cons_self hroot e he
        · exact hroots e (List.mem_cons_of_mem _ he)

/-- Each package that a walk meets unfolds below a path of packages that the walk has met. -/
theorem walked_unfolds (seen : List String) (cs : List Configuration)
    (h : ∀ c ∈ cs, ∃ path, Unfolds needs path c ∧ ∀ n ∈ path, n ∈ seen) :
    ∀ c ∈ walkFrom seen cs, ∃ path, Unfolds needs path c ∧
      ∀ n ∈ path, n ∈ seen ∨ n ∈ (walkFrom seen cs).map name := by
  induction seen, cs using walkFrom.induct with
  | case1 seen => simp [walkFrom]
  | case2 seen c rest hc ih =>
      rw [walkFrom_cons_seen rest hc]
      exact ih fun d hd => h d (List.mem_cons_of_mem _ hd)
  | case3 seen c rest hc ih =>
      rw [walkFrom_cons_new rest hc, List.map_cons]
      obtain ⟨path, hunfolds, hpath⟩ := h c List.mem_cons_self
      intro d hd
      rcases List.mem_cons.1 hd with rfl | hd
      · exact ⟨path, hunfolds, fun n hn => Or.inl (hpath n hn)⟩
      · have hrow : ∀ e ∈ c.dependencies.values ++ rest,
            ∃ path, Unfolds needs path e ∧ ∀ n ∈ path, n ∈ c.name :: seen := by
          intro e he
          rcases List.mem_append.1 he with he | he
          · exact ⟨c.name :: path, hunfolds.child e he, List.cons_subset_cons _ hpath⟩
          · obtain ⟨path', hu, hp⟩ := h e (List.mem_cons_of_mem _ he)
            exact ⟨path', hu, fun n hn => List.mem_cons_of_mem _ (hp n hn)⟩
        obtain ⟨path', hu, hp⟩ := ih hrow d hd
        refine ⟨path', hu, fun n hn => ?_⟩
        rcases hp n hn with hn | hn
        · rcases List.mem_cons.1 hn with rfl | hn
          · exact Or.inr List.mem_cons_self
          · exact Or.inl hn
        · exact Or.inr (List.mem_cons_of_mem _ hn)

/-! ## The order in which a walk finishes -/

/-- A package stands in an order after all that is attached to it, apart from what was done before. -/
def Finished (done order : List String) (c : Configuration) : Prop :=
  ∃ earlier later, order = earlier ++ c.name :: later ∧
    ∀ t ∈ c.dependencies.keys, t ∈ done ∨ t ∈ earlier

theorem Finished.append {done order : List String} {c : Configuration} (h : Finished done order c)
    (more : List String) : Finished done (order ++ more) c := by
  obtain ⟨earlier, later, rfl, hearlier⟩ := h
  exact ⟨earlier, later ++ more, by simp, hearlier⟩

theorem Finished.prepend {done before order : List String} {c : Configuration}
    (h : Finished (done ++ before) order c) : Finished done (before ++ order) c := by
  obtain ⟨earlier, later, rfl, hearlier⟩ := h
  refine ⟨before ++ earlier, later, by simp, fun t ht => ?_⟩
  have := hearlier t ht
  simp only [List.mem_append] at this ⊢
  exact or_assoc.1 this

/-- When a walk comes back to a package, all that is attached to it is done or has just been met. -/
theorem Unfolds.attached_done {seen path done : List String} {c : Configuration}
    (h : Unfolds needs path c) (hseen : ∀ n, n ∈ seen ↔ n ∈ path ∨ n ∈ done) :
    ∀ t ∈ c.dependencies.keys,
      t ∈ done ∨ t ∈ (walkFrom (c.name :: seen) c.dependencies.values).map name := by
  intro t ht
  have hnot := (h.mem_keys_iff.1 ht).2
  obtain ⟨e, he, rfl⟩ := h.exists_child ht
  rcases seen_or_walked (c.name :: seen) c.dependencies.values e he with hs | hw
  · rcases List.mem_cons.1 hs with hs | hs
    · exact absurd (hs ▸ List.mem_cons_self) hnot
    · rcases (hseen _).1 hs with hs | hs
      · exact absurd (List.mem_cons_of_mem _ hs) hnot
      · exact Or.inl hs
  · exact Or.inr hw

/-- The packages that a walk meets can be listed so that each of them is finished. `path` leads to the
row, and all that is seen but not on it is `done`. -/
theorem exists_finish (seen path done : List String) (cs : List Configuration)
    (hseen : ∀ n, n ∈ seen ↔ n ∈ path ∨ n ∈ done) (h : ∀ c ∈ cs, Unfolds needs path c) :
    ∃ finish, finish.Perm ((walkFrom seen cs).map name) ∧
      ∀ c ∈ walkFrom seen cs, Finished done finish c := by
  match cs with
  | [] => exact ⟨[], by simp [walkFrom], by simp [walkFrom]⟩
  | c :: rest =>
      have hrest : ∀ d ∈ rest, Unfolds needs path d := fun d hd => h d (List.mem_cons_of_mem _ hd)
      by_cases hc : c.name ∈ seen
      · rw [walkFrom_cons_seen rest hc]
        exact exists_finish seen path done rest hseen hrest
      · -- First what lies below the package, then the package, then the rest of the row.
        have hunfolds := h c List.mem_cons_self
        obtain ⟨before, hbefore, hfirst⟩ := exists_finish (c.name :: seen) (c.name :: path) done
          c.dependencies.values (by simp [hseen, or_assoc]) hunfolds.child
        have hseen' : ∀ n, n ∈ ((walkFrom (c.name :: seen) c.dependencies.values).map name).reverse ++
            c.name :: seen ↔ n ∈ path ∨ n ∈ done ++ (before ++ [c.name]) := by
          intro n
          rw [List.mem_append, List.mem_reverse, ← hbefore.mem_iff, List.mem_cons, hseen]
          simp only [List.mem_append, List.mem_singleton]
          constructor
          · rintro (hn | hn | hn | hn) <;> simp [hn]
          · rintro (hn | hn | hn | hn) <;> simp [hn]
        obtain ⟨after, hafter, hlast⟩ := exists_finish _ path _ rest hseen' hrest
        rw [walkFrom_cons_new rest hc, walkFrom_append]
        refine ⟨before ++ c.name :: after, ?_, fun d hd => ?_⟩
        · rw [List.map_cons, List.map_append]
          exact List.perm_middle.trans ((hbefore.append hafter).cons _)
        · rcases List.mem_cons.1 hd with rfl | hd
          · refine ⟨before, after, rfl, fun t ht => ?_⟩
            rw [hbefore.mem_iff]
            exact hunfolds.attached_done hseen t ht
          · rcases List.mem_append.1 hd with hd | hd
            · exact (hfirst d hd).append (c.name :: after)
            · rw [List.append_cons]
              exact (hlast d hd).prepend
termination_by totalSize cs
decreasing_by
  · simp [totalSize, size_eq c]
  · simp only [totalSize, size_eq c]; omega
  · simp [totalSize, size_eq c]

end PackageRecipes.Configuration
