import Mathlib.Data.List.Nodup
import PackageRecipes.Data.Reader

/-!
# Plain data and its readers

A reader of texts may nest only so deep, and it may hand over the fields of a table in an order of its own. What it has
to do is said of data that is nested at most as deep, without numbers and dates, and with no name twice in a table.
-/

namespace PackageRecipes.Data

/-- Arrays and tables are nested in it to a depth of at most `n`. -/
inductive Plain : (n : Nat) → Data → Prop where
  | null {n : Nat} : Plain n .null
  | bool {n : Nat} (b : Bool) : Plain n (.bool b)
  | string {n : Nat} (s : String) : Plain n (.string s)
  | array {n : Nat} {items : List Data} (h : ∀ d ∈ items, Plain n d) : Plain (n + 1) (.array items)
  | table {n : Nat} {fields : List (String × Data)} (names : (fields.map Prod.fst).Nodup)
      (h : ∀ f ∈ fields, Plain n f.2) : Plain (n + 1) (.table fields)

/-- The same data, but for the order of the fields in its tables. -/
inductive Reordered : Data → Data → Prop where
  | same (d : Data) : Reordered d d
  | array {items items' : List Data} (h : List.Forall₂ Reordered items items') :
      Reordered (.array items) (.array items')
  | table {fields fields' : List (String × Data)} (names : (fields'.map Prod.fst).Perm (fields.map Prod.fst))
      (h : ∀ k d d', (k, d) ∈ fields → (k, d') ∈ fields' → Reordered d d') : Reordered (.table fields) (.table fields')

def isSpace (c : Char) : Bool := c = ' ' || c = '\t' || c = '\n' || c = '\r'

/-- The reader reads the text of plain data, also with blanks behind it, up to a limit of the nesting. -/
def ReadsBack (read : String → Option Data) (limit : Nat) : Prop :=
  ∀ d : Data, d.Plain limit → ∀ blanks : String, (∀ c ∈ blanks.toList, isSpace c) →
    ∃ d', read (d.toJson ++ blanks) = some d' ∧ d.Reordered d'

variable {d d' : Data} {n m : Nat} {k : String} {fields fields' : List (String × Data)}

theorem Plain.mono (h : d.Plain n) (hle : n ≤ m) : d.Plain m := by
  induction h generalizing m with
  | null => exact .null
  | bool b => exact .bool b
  | string s => exact .string s
  | array _ ih =>
      obtain ⟨m, rfl⟩ := Nat.exists_eq_add_one_of_ne_zero (Nat.ne_of_gt (Nat.lt_of_lt_of_le (Nat.succ_pos _) hle))
      exact .array fun d hd => ih d hd (Nat.le_of_succ_le_succ hle)
  | table names _ ih =>
      obtain ⟨m, rfl⟩ := Nat.exists_eq_add_one_of_ne_zero (Nat.ne_of_gt (Nat.lt_of_lt_of_le (Nat.succ_pos _) hle))
      exact .table names fun f hf => ih f hf (Nat.le_of_succ_le_succ hle)

/-! ## Fields in another order -/

/-- The same names, each with the same value up to the order of fields. -/
structure SameFields (fields fields' : List (String × Data)) : Prop where
  names : (fields'.map Prod.fst).Perm (fields.map Prod.fst)
  values : ∀ k d d', (k, d) ∈ fields → (k, d') ∈ fields' → d.Reordered d'

theorem Reordered.of_table (h : Reordered (.table fields) d) (hnames : (fields.map Prod.fst).Nodup) :
    ∃ fields', d = .table fields' ∧ SameFields fields fields' := by
  cases h with
  | same =>
      refine ⟨fields, rfl, List.Perm.refl _, fun k d d' hd hd' => ?_⟩
      obtain rfl : d = d' := congrArg Prod.snd (List.inj_on_of_nodup_map hnames hd hd' rfl)
      exact .same d
  | table names h => exact ⟨_, rfl, names, h⟩

theorem mem_of_field? (h : field? k fields = some d) : (k, d) ∈ fields := by
  induction fields with
  | nil => cases h
  | cons f rest ih =>
      obtain ⟨k', d'⟩ := f
      rw [field?] at h
      split at h
      · rename_i hk
        cases h
        exact hk ▸ List.mem_cons_self
      · exact List.mem_cons_of_mem _ (ih h)

theorem field?_eq_none_iff : field? k fields = none ↔ k ∉ fields.map Prod.fst := by
  induction fields with
  | nil => exact iff_of_true rfl List.not_mem_nil
  | cons f rest ih =>
      obtain ⟨k', d'⟩ := f
      rw [field?, List.map_cons, List.mem_cons, not_or]
      by_cases hk : k' = k
      · simp [hk]
      · rw [if_neg hk, ih]
        exact (and_iff_right (Ne.symm hk)).symm

theorem SameFields.field?_none (h : SameFields fields fields') (hk : field? k fields = none) :
    field? k fields' = none := by
  rw [field?_eq_none_iff, h.names.mem_iff]
  exact field?_eq_none_iff.1 hk

theorem SameFields.field?_some (h : SameFields fields fields') (hk : field? k fields = some d) :
    ∃ d', field? k fields' = some d' ∧ d.Reordered d' := by
  cases hk' : field? k fields' with
  | none =>
      rw [field?_eq_none_iff, h.names.mem_iff] at hk'
      exact absurd (List.mem_map_of_mem (mem_of_field? hk)) hk'
  | some d' => exact ⟨d', rfl, h.values k d d' (mem_of_field? hk) (mem_of_field? hk')⟩

end PackageRecipes.Data
