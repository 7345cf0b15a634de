import Mathlib.Data.List.Nodup
import PackageRecipes.NameMap
import PackageRecipes.NameSet

/-!
# Entries of maps and members of sets

What a map looks up agrees with what it lists, as long as its names are in ascending order.
-/

namespace PackageRecipes

namespace NameMap

variable {α β : Type}

/-! ## Names -/

theorem find_isSome {k : String} {xs : List (String × α)} :
    (find k xs).isSome ↔ k ∈ xs.map Prod.fst := by
  induction xs with
  | nil => simp [find]
  | cons e rest ih =>
      obtain ⟨k', v⟩ := e
      by_cases hk : k = k' <;> simp [find, hk, ih]

theorem contains_iff {m : NameMap α} {k : String} : m.contains k ↔ k ∈ m.keys := find_isSome

theorem get?_eq_none_iff {m : NameMap α} {k : String} : m.get? k = none ↔ k ∉ m.keys := by
  rw [← contains_iff, contains]
  cases m.get? k <;> simp

@[simp] theorem mem_keys_insert {m : NameMap α} {k j : String} {v : α} :
    j ∈ (m.insert k v).keys ↔ j = k ∨ j ∈ m.keys := by
  rw [← contains_iff, ← contains_iff, contains, get?_insert]
  by_cases hj : j = k <;> simp [hj, contains]

theorem length_keys (m : NameMap α) : m.keys.length = m.size := by simp [keys, size]

theorem size_insert {m : NameMap α} {k : String} {v : α} (h : k ∉ m.keys) :
    (m.insert k v).size = m.size + 1 := by
  obtain ⟨xs⟩ := m
  simp only [size, NameMap.insert, keys] at h ⊢
  induction xs with
  | nil => rfl
  | cons e rest ih =>
      rw [List.map_cons, List.mem_cons, not_or] at h
      simp only [place]
      split
      · rfl
      · rw [if_neg h.1, List.length_cons, List.length_cons, ih h.2]

@[simp] theorem keys_map (f : α → β) (m : NameMap α) : (m.map f).keys = m.keys := by
  simp [keys, map]

theorem get?_map (f : α → β) (m : NameMap α) (k : String) : (m.map f).get? k = (m.get? k).map f := by
  obtain ⟨xs⟩ := m
  simp only [get?, map]
  induction xs with
  | nil => rfl
  | cons e rest ih =>
      obtain ⟨k', v⟩ := e
      by_cases hk : k = k' <;> simp [find, hk, ih]

/-! ## Order of the names -/

theorem empty_ascending : (empty : NameMap α).Ascending := List.Pairwise.nil

theorem mem_keys_place {k j : String} {v : α} {xs : List (String × α)} :
    j ∈ (place k v xs).map Prod.fst ↔ j = k ∨ j ∈ xs.map Prod.fst :=
  mem_keys_insert (m := ⟨xs⟩)

theorem keys_insert (m : NameMap α) (k : String) (v : α) : (m.insert k v).keys = NameSet.place k m.keys := by
  obtain ⟨xs⟩ := m
  simp only [keys, NameMap.insert]
  induction xs with
  | nil => rfl
  | cons e rest ih =>
      obtain ⟨k', v'⟩ := e
      simp only [place, List.map_cons, NameSet.place]
      split
      · rfl
      · split
        · rename_i heq
          rw [List.map_cons, heq]
        · rw [List.map_cons, ih]

theorem Ascending.insert {m : NameMap α} (h : m.Ascending) (k : String) (v : α) :
    (m.insert k v).Ascending := by
  obtain ⟨xs⟩ := m
  simp only [Ascending, keys, NameMap.insert] at h ⊢
  induction xs with
  | nil => simp [place]
  | cons e rest ih =>
      obtain ⟨k', v'⟩ := e
      obtain ⟨hk', hrest⟩ := List.pairwise_cons.1 h
      simp only [place]
      split
      · rename_i hlt
        refine List.pairwise_cons.2 ⟨fun j hj => ?_, h⟩
        rcases List.mem_cons.1 hj with rfl | hj
        · exact hlt
        · exact String.lt_trans hlt (hk' j hj)
      · rename_i hnlt
        split
        · rename_i heq
          subst heq
          exact h
        · rename_i hne
          refine List.pairwise_cons.2 ⟨fun j hj => ?_, ih hrest⟩
          rcases mem_keys_place.1 hj with rfl | hj
          · exact String.not_le.1 fun hle => hne (String.le_antisymm hle (String.not_lt.1 hnlt))
          · exact hk' j hj

theorem Ascending.nodup {m : NameMap α} (h : m.Ascending) : m.keys.Nodup :=
  List.Pairwise.imp String.ne_of_lt h

/-! ## Entries -/

theorem mem_of_find {k : String} {v : α} {xs : List (String × α)} (h : find k xs = some v) :
    (k, v) ∈ xs := by
  induction xs with
  | nil => simp [find] at h
  | cons e rest ih =>
      obtain ⟨k', v'⟩ := e
      by_cases hk : k = k'
      · simp only [find, hk, ↓reduceIte, Option.some.injEq] at h
        simp [hk, h]
      · simp only [find, hk, ↓reduceIte] at h
        exact List.mem_cons_of_mem _ (ih h)

theorem mem_place_entries {k : String} {v : α} {xs : List (String × α)} {e : String × α}
    (h : e ∈ place k v xs) : e = (k, v) ∨ e ∈ xs := by
  induction xs with
  | nil => simpa [place] using h
  | cons e' rest ih =>
      simp only [place] at h
      split at h
      · exact List.mem_cons.1 h
      · split at h
        · exact (List.mem_cons.1 h).imp_right (List.mem_cons_of_mem _)
        · rcases List.mem_cons.1 h with rfl | h
          · exact Or.inr List.mem_cons_self
          · exact (ih h).imp_right (List.mem_cons_of_mem _)

theorem mem_insert_entries {m : NameMap α} {k : String} {v : α} {e : String × α}
    (h : e ∈ (m.insert k v).entries) : e = (k, v) ∨ e ∈ m.entries := mem_place_entries h

theorem get?_eq_some_iff {m : NameMap α} (h : m.Ascending) {k : String} {v : α} :
    m.get? k = some v ↔ (k, v) ∈ m.entries := by
  refine ⟨mem_of_find, fun hm => ?_⟩
  have hk : k ∈ m.keys := List.mem_map.2 ⟨_, hm, rfl⟩
  obtain ⟨w, hw⟩ := Option.isSome_iff_exists.1 (contains_iff.2 hk)
  have := List.inj_on_of_nodup_map h.nodup hm (mem_of_find hw) rfl
  rw [hw, (Prod.mk.inj this).2]

theorem Ascending.ext {m m' : NameMap α} (h : m.Ascending) (h' : m'.Ascending) (same : ∀ k, m.get? k = m'.get? k) :
    m = m' := by
  have hentries : m.entries.Perm m'.entries := by
    refine (List.perm_ext_iff_of_nodup h.nodup.of_map h'.nodup.of_map).2 fun (k, v) => ?_
    rw [← get?_eq_some_iff h, ← get?_eq_some_iff h', same]
  have heq : m.entries = m'.entries :=
    hentries.eq_of_pairwise (fun a b _ _ hab hba => absurd hba (String.lt_asymm hab))
      ((List.pairwise_map (f := Prod.fst)).1 h) ((List.pairwise_map (f := Prod.fst)).1 h')
  cases m
  cases m'
  simpa using heq

/-! ## Maps of lists -/

theorem mem_keys_ofList {xs : List (String × α)} {k : String} :
    k ∈ (ofList xs).keys ↔ k ∈ xs.map Prod.fst := by
  have hfold : ∀ (xs : List (String × α)) (m : NameMap α),
      k ∈ (xs.foldl (fun m e => m.insert e.1 e.2) m).keys ↔ k ∈ m.keys ∨ k ∈ xs.map Prod.fst := by
    intro xs
    induction xs with
    | nil => simp
    | cons e rest ih =>
        intro m
        rw [List.foldl_cons, ih, mem_keys_insert, List.map_cons, List.mem_cons]
        constructor
        · rintro ((h | h) | h) <;> simp [h]
        · rintro (h | h | h) <;> simp [h]
  have hempty : k ∉ (empty : NameMap α).keys := List.not_mem_nil
  exact (hfold xs empty).trans (or_iff_right hempty)

theorem mem_of_mem_ofList {xs : List (String × α)} {e : String × α} (h : e ∈ (ofList xs).entries) :
    e ∈ xs := by
  have start : ∀ e ∈ (empty : NameMap α).entries, e ∈ xs := fun _ h => absurd h List.not_mem_nil
  refine List.foldlRecOn (motive := fun m : NameMap α => ∀ e ∈ m.entries, e ∈ xs) xs
    (fun m e => m.insert e.1 e.2) start ?_ e h
  intro m hm x hx e he
  rcases mem_insert_entries he with rfl | he
  · exact hx
  · exact hm e he

theorem ofList_ascending (xs : List (String × α)) : (ofList xs).Ascending :=
  List.foldlRecOn (motive := Ascending) xs (fun m e => m.insert e.1 e.2) empty_ascending
    fun _ hm e _ => hm.insert e.1 e.2

/-- A map of which all entries are in another one is that one, if it has all the names. -/
theorem Ascending.eq_of_entries {m m' : NameMap α} (h : m.Ascending) (h' : m'.Ascending)
    (hentries : ∀ e ∈ m.entries, e ∈ m'.entries) (hkeys : ∀ k ∈ m'.keys, k ∈ m.keys) : m = m' := by
  refine h.ext h' fun k => ?_
  cases hk : m.get? k with
  | some v => exact ((get?_eq_some_iff h').2 (hentries _ ((get?_eq_some_iff h).1 hk))).symm
  | none => exact (get?_eq_none_iff.2 fun hmem => get?_eq_none_iff.1 hk (hkeys k hmem)).symm

end NameMap

namespace NameSet

theorem place_of_mem {x : String} {ys : List String} (h : ys.Pairwise (· < ·)) (hx : x ∈ ys) : place x ys = ys := by
  induction ys with
  | nil => cases hx
  | cons y ys ih =>
      obtain ⟨hy, hys⟩ := List.pairwise_cons.1 h
      rcases List.mem_cons.1 hx with rfl | hx
      · rw [place, if_neg (String.lt_irrefl x), if_pos rfl]
      · have hlt : y < x := hy x hx
        rw [place, if_neg (String.lt_asymm hlt), if_neg (String.ne_of_lt hlt).symm, ih hys hx]

theorem nodup (s : NameSet) : s.toList.Nodup :=
  List.Pairwise.imp String.ne_of_lt s.ascending

theorem mem_ofList {xs : List String} {x : String} : x ∈ ofList xs ↔ x ∈ xs := by
  have hfold : ∀ (xs : List String) (s : NameSet),
      x ∈ xs.foldl (fun s x => s.insert x) s ↔ x ∈ s ∨ x ∈ xs := by
    intro xs
    induction xs with
    | nil => simp
    | cons y ys ih =>
        intro s
        rw [List.foldl_cons, ih, mem_insert, List.mem_cons]
        constructor
        · rintro ((h | h) | h) <;> simp [h]
        · rintro (h | h | h) <;> simp [h]
  simpa [ofList] using hfold xs .empty

theorem ext_mem {s t : NameSet} (h : ∀ x, x ∈ s ↔ x ∈ t) : s = t := by
  have hperm := (List.perm_ext_iff_of_nodup s.nodup t.nodup).2 h
  have hlist := hperm.eq_of_pairwise (fun _ _ _ _ hlt hgt => absurd hgt (String.lt_asymm hlt)) s.ascending t.ascending
  cases s
  cases t
  cases hlist
  rfl

theorem ofList_toList (s : NameSet) : ofList s.toList = s := ext_mem fun _ => mem_ofList

theorem popLeast?_eq_none {s : NameSet} : s.popLeast? = none ↔ ∀ x, x ∉ s := by
  obtain ⟨xs, h⟩ := s
  cases xs with
  | nil => simp [popLeast?, mem_iff]
  | cons y ys =>
      constructor
      · intro hnone
        simp [popLeast?] at hnone
      · intro hall
        exact absurd (mem_iff.2 List.mem_cons_self) (hall y)

theorem popLeast?_eq_some {s t : NameSet} {x : String} (h : s.popLeast? = some (x, t)) :
    x ∈ s ∧ (∀ y ∈ t, x < y) ∧ ∀ y, y ∈ t ↔ y ∈ s ∧ y ≠ x := by
  obtain ⟨xs, hs⟩ := s
  cases xs with
  | nil => simp [popLeast?] at h
  | cons z zs =>
      simp only [popLeast?, Option.some.injEq, Prod.mk.injEq] at h
      obtain ⟨rfl, rfl⟩ := h
      obtain ⟨hlt, hzs⟩ := List.pairwise_cons.1 hs
      refine ⟨by simp [mem_iff], hlt, fun y => ?_⟩
      simp only [mem_iff, List.mem_cons]
      constructor
      · intro hy
        exact ⟨Or.inr hy, fun he => String.lt_irrefl _ (he ▸ hlt y hy)⟩
      · rintro ⟨rfl | hy, hne⟩
        · exact absurd rfl hne
        · exact hy

end NameSet

end PackageRecipes
