import PackageRecipes.Data.Printer
import PackageRecipes.Proofs.Data.Plain
import PackageRecipes.Proofs.NameMap
import PackageRecipes.Proofs.Version.Reading

/-!
# Configurations that are read back

A configuration is given back by the data that it is written as, also when the fields of its tables come in another
order. Parts that are left out when they are empty are empty again when they are missing.
-/

namespace PackageRecipes

open Data

/-- The version has been read from a label. -/
def Version.IsRead (v : Version) : Prop := ∃ label, Version.parse label = .ok v

def Compiler.IsRead (k : Compiler) : Prop := ∀ v ∈ k.version, v.IsRead

/-! ## Well-formed trees -/

namespace Configuration

/-- All versions in the tree have been read from labels, and the names of variants and of dependencies are in
ascending order. -/
inductive WellFormed : Configuration → Prop where
  | mk {c : Configuration} (version : c.version.IsRead) (compiler : ∀ k ∈ c.compiler, k.IsRead)
      (variants : c.variants.Ascending) (dependencies : c.dependencies.Ascending)
      (below : ∀ d ∈ c.dependencies.values, WellFormed d) : WellFormed c

/-- Packages are attached below each other over at most `n` levels. -/
inductive Within : (n : Nat) → Configuration → Prop where
  | mk {n : Nat} {c : Configuration} (below : ∀ d ∈ c.dependencies.values, Within n d) : Within (n + 1) c

variable {c d : Configuration} {n m : Nat}

theorem wellFormed_bare (name : String) {v : Version} (h : v.IsRead) : (bare name v).WellFormed :=
  .mk h nofun NameMap.empty_ascending NameMap.empty_ascending nofun

theorem WellFormed.withVersion (h : c.WellFormed) {v : Version} (hv : v.IsRead) :
    WellFormed { c with version := v } := by
  cases h with
  | mk _ compiler variants dependencies below => exact .mk hv compiler variants dependencies below

theorem WellFormed.withVariants (h : c.WellFormed) {variants : NameMap VariantValue} (hvariants : variants.Ascending) :
    WellFormed { c with variants } := by
  cases h with
  | mk version compiler _ dependencies below => exact .mk version compiler hvariants dependencies below

theorem WellFormed.withVariant (h : c.WellFormed) (name : String) (value : VariantValue) :
    (c.withVariant name value).WellFormed := by
  cases h with
  | mk version compiler variants dependencies below =>
      exact .mk version compiler (variants.insert name value) dependencies below

theorem WellFormed.compiler (h : c.WellFormed) : ∀ k ∈ c.compiler, k.IsRead := by
  cases h with
  | mk _ compiler _ _ _ => exact compiler

theorem WellFormed.withCompiler (h : c.WellFormed) {compiler : Option Compiler}
    (hcompiler : ∀ k ∈ compiler, k.IsRead) : WellFormed { c with compiler } := by
  cases h with
  | mk version _ variants dependencies below => exact .mk version hcompiler variants dependencies below

theorem WellFormed.attach (h : c.WellFormed) (hd : d.WellFormed) (name : String) :
    WellFormed { c with dependencies := c.dependencies.insert name d } := by
  cases h with
  | mk version compiler variants dependencies below =>
      refine .mk version compiler variants (dependencies.insert name d) fun e he => ?_
      obtain ⟨entry, hentry, rfl⟩ := List.mem_map.1 he
      rcases NameMap.mem_insert_entries hentry with rfl | hentry
      · exact hd
      · exact below _ (List.mem_map_of_mem hentry)

/-! ## Levels -/

theorem within_of_dependencies_empty (h : c.dependencies = .empty) (n : Nat) : c.Within (n + 1) := by
  refine .mk fun d hd => ?_
  rw [h] at hd
  cases hd

theorem Within.attach (h : c.Within (n + 1)) (hd : d.Within n) (name : String) :
    Within (n + 1) { c with dependencies := c.dependencies.insert name d } := by
  cases h with
  | mk below =>
      refine .mk fun e he => ?_
      obtain ⟨entry, hentry, rfl⟩ := List.mem_map.1 he
      rcases NameMap.mem_insert_entries hentry with rfl | hentry
      · exact hd
      · exact below _ (List.mem_map_of_mem hentry)

end Configuration

/-! ## Parts -/

section Parts

variable {α : Type} {d : Data} {k s : String} {fields fields' : Record} {write : α → Data} {m : NameMap α}

theorem Data.eq_of_reordered_string (h : Reordered (.string s) d) : d = .string s := by
  cases h with
  | same => rfl

theorem required_string {read : Reader α} {a : α} (h : SameFields fields fields')
    (hk : field? k fields = some (.string s)) (hread : read (.string s) = some a) :
    required fields' k read = some a := by
  obtain ⟨d, hd, hsame⟩ := h.field?_some hk
  rw [required, hd, Data.eq_of_reordered_string hsame]
  exact hread

/-- The fields of a map, each written as data. -/
def written (write : α → Data) (m : NameMap α) : Record := m.entries.map fun e => (e.1, write e.2)

theorem names_written (write : α → Data) (m : NameMap α) : (written write m).map Prod.fst = m.keys := by
  simp [written, NameMap.keys]

theorem nodup_written (h : m.Ascending) : ((written write m).map Prod.fst).Nodup := by
  rw [names_written]
  exact h.nodup

theorem mem_names (h : SameFields (written write m) fields) (hk : k ∈ m.keys) : k ∈ fields.map Prod.fst := by
  rwa [h.names.mem_iff, names_written]

theorem entry_of_mem (h : SameFields (written write m) fields) {f : String × Data} (hf : f ∈ fields) :
    ∃ a, (f.1, a) ∈ m.entries ∧ (write a).Reordered f.2 := by
  have hname : f.1 ∈ m.keys := by
    rw [← names_written write, ← h.names.mem_iff]
    exact List.mem_map_of_mem hf
  obtain ⟨⟨k, a⟩, ha, rfl⟩ := List.mem_map.1 hname
  exact ⟨a, ha, h.values _ _ _ (List.mem_map.2 ⟨_, ha, rfl⟩) hf⟩

/-- What is read from the fields of a table one by one is a map, whatever the order of the fields. -/
theorem mapM_fields (hm : m.Ascending) {read : Reader α} (hnames : ∀ k ∈ m.keys, k ∈ fields.map Prod.fst)
    (hread : ∀ f ∈ fields, ∃ a, read f.2 = some a ∧ (f.1, a) ∈ m.entries) :
    ∃ entries, fields.mapM (fun f => do return (f.1, ← read f.2)) = some entries ∧ NameMap.ofList entries = m := by
  have hentries : ∃ entries, fields.mapM (fun f => do return (f.1, ← read f.2)) = some entries ∧
      entries.map Prod.fst = fields.map Prod.fst ∧ ∀ e ∈ entries, e ∈ m.entries := by
    clear hnames
    induction fields with
    | nil => exact ⟨[], rfl, rfl, List.forall_mem_nil _⟩
    | cons f rest ih =>
        obtain ⟨⟨a, ha, hmem⟩, hrest⟩ := List.forall_mem_cons.1 hread
        obtain ⟨entries, hmapM, hsame, hall⟩ := ih hrest
        refine ⟨(f.1, a) :: entries, ?_, ?_, List.forall_mem_cons.2 ⟨hmem, hall⟩⟩
        · rw [List.mapM_cons, hmapM, ha]
          rfl
        · rw [List.map_cons, List.map_cons, hsame]
  obtain ⟨entries, hmapM, hsame, hall⟩ := hentries
  refine ⟨entries, hmapM, (NameMap.ofList_ascending _).eq_of_entries hm ?_ fun k hk => ?_⟩
  · exact fun e he => hall e (NameMap.mem_of_mem_ofList he)
  · rw [NameMap.mem_keys_ofList, hsame]
    exact hnames k hk

theorem Version.ofData?_label {v : Version} (h : v.IsRead) : Version.ofData? (.string v.label) = some v := by
  obtain ⟨label, hlabel⟩ := h
  show (parse v.label).toOption = some v
  rw [(legible_of_parse hlabel).parse]
  rfl

/-! ## Values and compilers -/

theorem VariantValue.plain_toData (v : VariantValue) : v.toData.Plain 1 := by
  cases v with
  | bool b => exact .bool b
  | single value => exact .string value
  | multi values => exact .array (List.forall_mem_map.2 fun value _ => .string value)

theorem VariantValue.eq_of_reordered {v : VariantValue} (h : v.toData.Reordered d) : d = v.toData := by
  have hstrings (xs : List String) {items : List Data} (h : List.Forall₂ Reordered (xs.map .string) items) :
      items = xs.map .string := by
    induction xs generalizing items with
    | nil =>
        cases h
        rfl
    | cons x xs ih =>
        cases h with
        | cons hfirst hrest => rw [eq_of_reordered_string hfirst, ih hrest, List.map_cons]
  cases v with
  | bool b =>
      cases h with
      | same => rfl
  | single value => exact eq_of_reordered_string h
  | multi values =>
      cases h with
      | same => rfl
      | array hitems => rw [hstrings values.toList hitems]; rfl

theorem VariantValue.ofData?_toData (v : VariantValue) : VariantValue.ofData? v.toData = some v := by
  cases v with
  | bool b => rfl
  | single value => rfl
  | multi values =>
      have hvalues (xs : List String) : (xs.map Data.string).mapM readString = some xs := by
        induction xs with
        | nil => rfl
        | cons x xs ih =>
            rw [List.map_cons, List.mapM_cons, ih]
            rfl
      show ((values.toList.map Data.string).mapM readString).map (fun vs => multi (.ofList vs)) = some (multi values)
      rw [hvalues, Option.map_some, NameSet.ofList_toList]

theorem Compiler.names_toData (k : Compiler) :
    ((("name", Data.string k.name) :: optionalField "version" (k.version.map fun v => .string v.label)).map
      Prod.fst).Nodup := by
  cases k.version <;> simp [optionalField]

theorem Compiler.plain_toData (k : Compiler) : k.toData.Plain 1 := by
  refine .table k.names_toData (List.forall_mem_cons.2 ⟨.string k.name, ?_⟩)
  cases k.version with
  | none => exact List.forall_mem_nil _
  | some v => exact List.forall_mem_singleton.2 (.string v.label)

theorem Compiler.ofData?_reordered {c : Compiler} (h : c.IsRead) (hd : c.toData.Reordered d) : ofData? d = some c := by
  obtain ⟨fields, rfl, hfields⟩ := hd.of_table c.names_toData
  have hname : required fields "name" readString = some c.name := required_string hfields rfl rfl
  have hversion : Data.optional fields "version" Version.ofData? = some c.version := by
    cases hc : c.version with
    | none =>
        have hnone := hfields.field?_none (k := "version") (by simp [field?, hc, optionalField])
        rw [Data.optional, hnone]
    | some v =>
        obtain ⟨d, hsome, hd⟩ := hfields.field?_some (k := "version") (d := .string v.label)
          (by simp [field?, hc, optionalField])
        rw [Data.optional, hsome, Data.eq_of_reordered_string hd]
        exact congrArg (Option.map some) (Version.ofData?_label (h v hc))
  simp [ofData?, readRecord, hname, hversion]

end Parts

namespace Configuration

variable {c : Configuration} {d : Data} {n : Nat} {fields : Record}

/-! ## Trees -/

theorem childrenData_eq (children : List (String × Configuration)) :
    childrenData children = children.map fun e => (e.1, e.2.toData) := by
  induction children with
  | nil => rfl
  | cons e rest ih =>
      obtain ⟨k, d⟩ := e
      rw [childrenData, ih, List.map_cons]

/-- The dependencies as a part of a configuration's data, which is left out when there are none. -/
def dependencyPart (c : Configuration) : Option Data :=
  if c.dependencies.isEmpty then none else some (.table (written toData c.dependencies))

def record (c : Configuration) : Record :=
  [("name", .string c.name), ("version", .string c.version.label),
    ("variants", .table (written VariantValue.toData c.variants))]
    ++ optionalField "compiler" (c.compiler.map Compiler.toData) ++ optionalField "dependencies" c.dependencyPart

theorem toData_eq (c : Configuration) : c.toData = .table c.record := by
  obtain ⟨name, version, variants, compiler, ⟨children⟩⟩ := c
  rw [toData, childrenData_eq, record, dependencyPart]
  cases children <;> rfl

theorem names_record (c : Configuration) : (c.record.map Prod.fst).Nodup := by
  unfold record
  cases c.compiler <;> cases c.dependencyPart <;> simp [optionalField]

theorem field?_compiler (c : Configuration) : field? "compiler" c.record = c.compiler.map Compiler.toData := by
  unfold record
  cases c.compiler <;> cases c.dependencyPart <;> simp [optionalField, field?]

theorem field?_dependencies (c : Configuration) : field? "dependencies" c.record = c.dependencyPart := by
  unfold record
  cases c.compiler <;> cases c.dependencyPart <;> simp [optionalField, field?]

/-- Whatever stands in front of it, the dependencies are read from the field of their name. -/
theorem ofFields?_eq (fields : Record) :
    ofFields? fields = match field? "dependencies" fields with
      | none => some .empty
      | some (.table children) => ofChildren? children
      | some _ => none := by
  induction fields with
  | nil => rfl
  | cons f rest ih =>
      obtain ⟨k, d⟩ := f
      by_cases hk : k = "dependencies"
      · cases d <;> simp [ofFields?, field?, hk]
      · have hrest : ofFields? ((k, d) :: rest) = ofFields? rest := by
          rw [ofFields?.eq_def]
          exact if_neg hk
        rw [hrest, field?, if_neg hk, ih]

theorem readVariants_reordered {variants : NameMap VariantValue} (h : variants.Ascending)
    (hd : (Data.table (written VariantValue.toData variants)).Reordered d) : readVariants d = some variants := by
  obtain ⟨fields, rfl, hfields⟩ := hd.of_table (nodup_written h)
  have hread (f : String × Data) (hf : f ∈ fields) :
      ∃ v, VariantValue.ofData? f.2 = some v ∧ (f.1, v) ∈ variants.entries := by
    obtain ⟨v, hv, hsame⟩ := entry_of_mem hfields hf
    exact ⟨v, by rw [VariantValue.eq_of_reordered hsame, VariantValue.ofData?_toData], hv⟩
  obtain ⟨entries, hentries, hmap⟩ := mapM_fields h (fun k hk => mem_names hfields hk) hread
  rw [readVariants, hentries]
  exact congrArg some hmap

theorem ofChildren?_reordered {children : NameMap Configuration} (h : children.Ascending)
    (hfields : SameFields (written toData children) fields)
    (hread : ∀ c ∈ children.values, ∀ d, c.toData.Reordered d → ofData? d = some c) :
    ofChildren? fields = some children := by
  have hchildren (f : String × Data) (hf : f ∈ fields) :
      ∃ c, ofData? f.2 = some c ∧ (f.1, c) ∈ children.entries := by
    obtain ⟨c, hc, hsame⟩ := entry_of_mem hfields hf
    exact ⟨c, hread c (List.mem_map_of_mem hc) f.2 hsame, hc⟩
  have hmap : ∃ m, ofChildren? fields = some m ∧ m.Ascending ∧ (∀ e ∈ m.entries, e ∈ children.entries) ∧
      ∀ k ∈ fields.map Prod.fst, k ∈ m.keys := by
    clear hfields
    induction fields with
    | nil => exact ⟨.empty, rfl, NameMap.empty_ascending, List.forall_mem_nil _, List.forall_mem_nil _⟩
    | cons f rest ih =>
        obtain ⟨⟨c, hc, hmem⟩, hrest⟩ := List.forall_mem_cons.1 hchildren
        obtain ⟨m, hm, hascending, hentries, hkeys⟩ := ih hrest
        rw [ofChildren?, hc, hm]
        by_cases hk : m.contains f.1
        · refine ⟨m, congrArg some (if_pos hk), hascending, hentries, List.forall_mem_cons.2 ⟨?_, hkeys⟩⟩
          exact NameMap.contains_iff.1 hk
        · refine ⟨m.insert f.1 c, congrArg some (if_neg hk), hascending.insert _ _, fun e he => ?_, ?_⟩
          · rcases NameMap.mem_insert_entries he with rfl | he
            · exact hmem
            · exact hentries e he
          · refine List.forall_mem_cons.2 ⟨NameMap.mem_keys_insert.2 (.inl rfl), fun k hk => ?_⟩
            exact NameMap.mem_keys_insert.2 (.inr (hkeys k hk))
  obtain ⟨m, hm, hascending, hentries, hkeys⟩ := hmap
  rw [hm, hascending.eq_of_entries h hentries fun k hk => hkeys k (mem_names hfields hk)]

theorem ofData?_reordered (h : c.WellFormed) (hd : c.toData.Reordered d) : ofData? d = some c := by
  induction h generalizing d with
  | @mk c version compiler variants dependencies _ ih =>
      rw [toData_eq] at hd
      obtain ⟨fields, rfl, hfields⟩ := hd.of_table c.names_record
      have hname : required fields "name" readString = some c.name := required_string hfields rfl rfl
      have hversion : required fields "version" Version.ofData? = some c.version :=
        required_string hfields rfl (Version.ofData?_label version)
      have hvariants : withDefault fields "variants" .empty readVariants = some c.variants := by
        obtain ⟨d, hd, hsame⟩ := hfields.field?_some (k := "variants") rfl
        rw [withDefault, hd]
        exact readVariants_reordered variants hsame
      have hcompiler : Data.optional fields "compiler" Compiler.ofData? = some c.compiler := by
        cases hc : c.compiler with
        | none => rw [Data.optional, hfields.field?_none (by rw [field?_compiler, hc]; rfl)]
        | some k =>
            obtain ⟨d, hd, hsame⟩ := hfields.field?_some (d := k.toData) (by rw [field?_compiler, hc]; rfl)
            obtain ⟨_, rfl, _⟩ := hsame.of_table k.names_toData
            rw [Data.optional, hd]
            exact congrArg (Option.map some) (Compiler.ofData?_reordered (compiler k hc) hsame)
      have hdependencies : ofFields? fields = some c.dependencies := by
        rw [ofFields?_eq]
        by_cases hempty : c.dependencies.isEmpty
        · rw [hfields.field?_none (by rw [field?_dependencies, dependencyPart, if_pos hempty])]
          exact congrArg (some ∘ NameMap.mk) (List.isEmpty_iff.1 hempty).symm
        · obtain ⟨d, hd, hsame⟩ := hfields.field?_some (by rw [field?_dependencies, dependencyPart, if_neg hempty])
          obtain ⟨children, rfl, hchildren⟩ := hsame.of_table (nodup_written dependencies)
          rw [hd]
          exact ofChildren?_reordered dependencies hchildren fun c hc d => ih c hc
      rw [ofData?, hdependencies]
      simp only [Option.bind_eq_bind, Option.bind_some, ofRecord?, hname, hversion, hvariants, hcompiler]
      cases c
      rfl

theorem plain_toData (h : c.WellFormed) (hlevels : c.Within n) : c.toData.Plain (2 * n + 1) := by
  induction h generalizing n with
  | @mk c _ _ variants dependencies _ ih =>
      cases hlevels with
      | @mk n _ below =>
          have hvariants : (Data.table (written VariantValue.toData c.variants)).Plain (2 * n + 2) := by
            refine .table (nodup_written variants) (List.forall_mem_map.2 fun e _ => ?_)
            exact e.2.plain_toData.mono (by omega)
          rw [toData_eq]
          refine .table c.names_record (List.forall_mem_append.2 ⟨List.forall_mem_append.2 ⟨?_, ?_⟩, ?_⟩)
          · simpa using ⟨.string c.name, .string c.version.label, hvariants⟩
          · cases c.compiler with
            | none => exact List.forall_mem_nil _
            | some k => exact List.forall_mem_singleton.2 (k.plain_toData.mono (by omega))
          · rw [dependencyPart]
            split
            · exact List.forall_mem_nil _
            · refine List.forall_mem_singleton.2 (.table (nodup_written dependencies) ?_)
              refine List.forall_mem_map.2 fun e he => ?_
              have hchild : e.2 ∈ c.dependencies.values := List.mem_map_of_mem he
              exact ih e.2 hchild (below e.2 hchild)

/-- A reader that can nest deep enough reads the text of a configuration, also with blanks behind it. -/
theorem readBack (h : c.WellFormed) (hlevels : c.Within n) {read : String → Option Data} {limit : Nat}
    (hread : ReadsBack read limit) (hlimit : 2 * n + 1 ≤ limit) (blanks : String)
    (hblanks : ∀ b ∈ blanks.toList, isSpace b) : (read (c.toData.toJson ++ blanks)).bind ofData? = some c := by
  obtain ⟨d, hd, hsame⟩ := hread c.toData ((plain_toData h hlevels).mono hlimit) blanks hblanks
  rw [hd, Option.bind_some, ofData?_reordered h hsame]

end Configuration

end PackageRecipes
