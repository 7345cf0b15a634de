import PackageRecipes.Proofs.Condition.Naming
import PackageRecipes.Proofs.Spec.Preferred
import PackageRecipes.Proofs.Text
import PackageRecipes.Selection

/-!
# Selected values

A value that a variant allows, or some of its values with commas between them, can be selected for the variant by
writing it behind the variant's name. The words for on and off are the exception: they are read as a switch for
whatever variant they are written.
-/

namespace PackageRecipes

open Text

namespace VariantValue

/-- The words that are read as on or off. -/
def switchWords : List String := ["on", "true", "yes", "off", "false", "no"]

variable {text : String} {vs : List String}

/-! ## Reading values -/

theorem parse_switchWord (h : text ∈ switchWords) : ∃ b, parse text = .bool b := by
  have hread : ∀ word ∈ switchWords, (parse word).asBool?.isSome := by decide +kernel
  obtain ⟨b, hb⟩ := Option.isSome_iff_exists.1 (hread text h)
  cases hparse : parse text with
  | bool b => exact ⟨b, rfl⟩
  | single v => simp [hparse, asBool?] at hb
  | multi vs => simp [hparse, asBool?] at hb

theorem parse_of_not_mem (hsolid : ∀ c ∈ text.toList, isBlank c = false) (h : text ∉ switchWords) :
    parse text = if text.toList.contains ',' then .multi (.ofList (listed text.toList)) else .single text := by
  rw [parse, trim_eq_self hsolid, String.ofList_toList]
  simp only [switchWords, List.mem_cons, List.not_mem_nil, or_false, not_or] at h
  split <;> simp_all

theorem not_mem_switchWords (h : ',' ∈ text.toList) : text ∉ switchWords := by
  have hcomma : ∀ word ∈ switchWords, ',' ∉ word.toList := by decide
  exact fun hmem => hcomma text hmem h

theorem parse_single (h : IsEntry ',' text.toList) (hword : text ∉ switchWords) : parse text = .single text := by
  rw [parse_of_not_mem (fun c hc => (h.solid c hc).1) hword, if_neg]
  simpa using fun hcomma => (h.solid ',' hcomma).2 rfl

theorem toList_commas (vs : List String) :
    (",".intercalate vs).toList = [','].intercalate (vs.map String.toList) := String.toList_intercalate

theorem listed_commas (h : ∀ v ∈ vs, IsEntry ',' v.toList) : listed (",".intercalate vs).toList = vs := by
  have hentries : entries ',' ([','].intercalate (vs.map String.toList)) = vs.map String.toList :=
    entries_intercalate (List.forall_mem_map.2 h)
  show (entries ',' (",".intercalate vs).toList).map String.ofList = vs
  rw [toList_commas, hentries, List.map_map]
  exact (List.map_congr_left fun v _ => String.ofList_toList).trans (List.map_id vs)

theorem parse_multi {v w : String} (h : ∀ u ∈ v :: w :: vs, IsEntry ',' u.toList) :
    parse (",".intercalate (v :: w :: vs)) = .multi (.ofList (v :: w :: vs)) := by
  have hsolid : ∀ c ∈ (",".intercalate (v :: w :: vs)).toList, isBlank c = false := by
    rw [toList_commas]
    exact forall_mem_intercalate (by decide) (List.forall_mem_map.2 fun u hu c hc => ((h u hu).solid c hc).1)
  have hcomma : ',' ∈ (",".intercalate (v :: w :: vs)).toList := by
    simp
  rw [parse_of_not_mem hsolid (not_mem_switchWords hcomma), if_pos (List.contains_iff_mem.2 hcomma), listed_commas h]

end VariantValue

namespace VariantDecl

open VariantValue

variable {d : VariantDecl} {vs : List String} {value : VariantValue}

/-! ## Values to choose from -/

/-- The listed values can be chosen for the variant, which then has this value. -/
inductive Choice (d : VariantDecl) : List String → VariantValue → Prop where
  | one {v : String} (hkind : d.kind = .enumerated) (hv : v ∈ d.allowedValues) : Choice d [v] (.single v)
  | several {vs : List String} (hkind : d.kind = .multi) (hne : vs ≠ []) (hvs : ∀ v ∈ vs, v ∈ d.allowedValues) :
      Choice d vs (.multi (.ofList vs))

theorem Choice.valueFault? (h : d.Choice vs value) : d.valueFault? value = none := by
  cases h with
  | one hkind hv => simpa [VariantDecl.valueFault?, hkind, valuesFault?_eq_none, allows] using hv
  | several hkind _ hvs =>
      simp only [VariantDecl.valueFault?, hkind, valuesFault?_eq_none]
      intro v hv
      have hmem : v ∈ vs := NameSet.mem_ofList.1 hv
      simpa [allows, hkind] using hvs v hmem

theorem Choice.not_boolean (h : d.Choice vs value) : d.kind ≠ .boolean := by
  cases h with
  | one hkind => simp [hkind]
  | several hkind => simp [hkind]

theorem exists_valueFault_bool (h : d.kind ≠ .boolean) (b : Bool) : ∃ fault, d.valueFault? (.bool b) = some fault := by
  cases hkind : d.kind with
  | boolean => exact absurd hkind h
  | enumerated => exact ⟨_, by simp [VariantDecl.valueFault?, hkind]; rfl⟩
  | multi => exact ⟨_, by simp [VariantDecl.valueFault?, hkind]; rfl⟩

end VariantDecl

namespace Selection

open VariantValue

variable {s : PackageSpec} {d : VariantDecl} {vs : List String} {value : VariantValue}

/-! ## Assignments -/

/-- No character of a declared name is white space or an equals sign. -/
theorem plain_of_declared {c : Char} (h : isDeclaredNameChar c) : isBlank c = false ∧ c ≠ '=' := by
  simp only [isDeclaredNameChar, Bool.or_eq_true, decide_eq_true_eq] at h
  rcases h with ((h | rfl) | rfl) | rfl
  · exact ⟨isBlank_of_isAlphanumeric h, by rintro rfl; exact absurd h (by decide)⟩
  · decide
  · decide
  · decide

theorem parseVariant_assignment {name : String} (h : nameFault? name = none) (text : String) :
    parseVariant (name ++ "=" ++ text) = .ok (name, VariantValue.parse text) := by
  obtain ⟨c, cs, hname, hc, hcs⟩ := Condition.exists_cons_of_declared h
  have hplain : ∀ d ∈ c :: cs, isBlank d = false ∧ d ≠ '=' :=
    List.forall_mem_cons.2
      ⟨plain_of_declared (by simp [isDeclaredNameChar, hc]), fun d hd => plain_of_declared (hcs d hd)⟩
  have hcut : cutAt '=' (c :: cs ++ '=' :: text.toList) = some (c :: cs, text.toList) :=
    cutAt_append (fun hmem => (hplain '=' hmem).2 rfl) text.toList
  have htext : (name ++ "=" ++ text).toList = c :: cs ++ '=' :: text.toList := by
    simp [hname]
  have hswitch : c ≠ '+' ∧ c ≠ '~' ∧ c ≠ '-' := by
    refine ⟨?_, ?_, ?_⟩ <;> rintro rfl <;> exact absurd hc (by decide)
  unfold parseVariant
  rw [htext]
  split
  · next heq => exact absurd (List.cons.inj heq).1 hswitch.1
  · next heq => exact absurd (List.cons.inj heq).1 hswitch.2.1
  · next heq => exact absurd (List.cons.inj heq).1 hswitch.2.2
  · rw [hcut]
    simp only
    rw [trim_eq_self fun d hd => (hplain d hd).1, ← hname, String.ofList_toList, String.ofList_toList]

/-- A text that is no word for on or off stands for the values that are written in it. -/
theorem suited_choice (hd : s.variant? d.name = some d) (hchoice : d.Choice vs value)
    (hplain : ∀ v ∈ vs, IsEntry ',' v.toList) (hword : ",".intercalate vs ∉ switchWords) :
    suited s d.name (VariantValue.parse (",".intercalate vs)) = value := by
  cases hchoice with
  | one hkind hv =>
      rename_i v
      rw [String.intercalate_singleton] at hword ⊢
      rw [parse_single (hplain v List.mem_cons_self) hword]
      simp [suited, hd, hkind]
  | several hkind hne hvs =>
      match vs with
      | [] => exact absurd rfl hne
      | [v] =>
          rw [String.intercalate_singleton] at hword ⊢
          rw [parse_single (hplain v List.mem_cons_self) hword]
          simp [suited, hd, hkind]
      | v :: w :: rest =>
          rw [parse_multi hplain]
          simp [suited, hd, hkind]

theorem suited_bool (s : PackageSpec) (name : String) (b : Bool) : suited s name (.bool b) = .bool b := by
  unfold suited
  split
  · contradiction
  · rfl

/-- One assignment, and nothing else selected. -/
def assigning (text : String) : Selection := { Selection.default with variants := [text] }

theorem apply_assignment {c config : Configuration} {text : String} (hc : s.defaultConfiguration? = some c)
    (hassign : assign s c text = .ok config) :
    (assigning text).apply s .default =
      ((s.checkConfiguration config).map fun _ => config).mapError .refused := by
  have hassigned : [text].foldlM (assign s) c = .ok config := by
    rw [List.foldlM_cons, hassign]
    rfl
  have happly : (assigning text).apply s .default =
      ([text].foldlM (assign s) c).bind fun assigned => do
        (s.checkConfiguration assigned).mapError .refused
        return assigned := by
    rw [apply, hc]
    rfl
  rw [happly, hassigned]
  cases h : s.checkConfiguration config <;> simp [Except.bind, h] <;> rfl

end Selection

namespace PackageSpec

variable {s : PackageSpec} {d : VariantDecl} {value : VariantValue}

/-! ## Selections -/

/-- A value that is written for a variant is selected if the variant allows it, and refused otherwise. -/
theorem WellFormed.apply_written (h : s.WellFormed) (hd : d ∈ s.variants) {c : Configuration}
    (hc : s.defaultConfiguration? = some c) {text : String}
    (hvalue : Selection.suited s d.name (.parse text) = value) :
    (Selection.assigning (d.name ++ "=" ++ text)).apply s .default =
      match d.valueFault? value with
      | none => .ok (c.withVariant d.name value)
      | some fault => .error (.refused (.invalidConfiguration s.name (.badValue d.name fault))) := by
  have hassign : Selection.assign s c (d.name ++ "=" ++ text) = .ok (c.withVariant d.name value) := by
    rw [Selection.assign, Selection.parseVariant_assignment (h.variants d hd).name, ← hvalue]
    rfl
  have hchecked := h.checkConfiguration_default hc
  rw [Selection.apply_assignment hc hassign]
  cases hfault : d.valueFault? value with
  | none =>
      rw [checkConfiguration_withVariant hchecked (h.variant?_eq hd) hfault]
      rfl
  | some fault =>
      rw [checkConfiguration_withVariant_error hchecked (h.variant?_eq hd) hfault]
      rfl

/-- Whatever was declared, what a variant allows can be selected for it, unless it is written like a word for on or off.
Such a word is refused as a value of the variant. -/
theorem selected_iff {name : String} (h : bare name = .ok s) (ds : List Declaration)
    (hversions : (s.acceptAll ds).versions ≠ []) (hd : d ∈ (s.acceptAll ds).variants) {vs : List String}
    (hchoice : d.Choice vs value) (hplain : ∀ v ∈ vs, IsEntry ',' v.toList) :
    let text := ",".intercalate vs
    let selected :=
      (Selection.assigning (d.name ++ "=" ++ text)).apply (s.acceptAll ds) .default
    ∃ c, (s.acceptAll ds).defaultConfiguration? = some c ∧
      (selected = .ok (c.withVariant d.name value) ↔ text ∉ VariantValue.switchWords) ∧
      (text ∈ VariantValue.switchWords → ∃ fault, d.valueFault? (.parse text) = some fault ∧
        selected = .error (.refused (.invalidConfiguration (s.acceptAll ds).name (.badValue d.name fault)))) := by
  intro text selected
  have wellFormed : (s.acceptAll ds).WellFormed := (bare_wellFormed h).acceptAll ds
  have hfound : (s.acceptAll ds).variant? d.name = some d := wellFormed.variant?_eq hd
  obtain ⟨c, hc⟩ := Option.isSome_iff_exists.1 (defaultConfiguration?_isSome.2 hversions)
  have hrefused (hword : text ∈ VariantValue.switchWords) : ∃ fault, d.valueFault? (.parse text) = some fault ∧
      selected = .error (.refused (.invalidConfiguration (s.acceptAll ds).name (.badValue d.name fault))) := by
    obtain ⟨b, hb⟩ := VariantValue.parse_switchWord hword
    obtain ⟨fault, hfault⟩ := VariantDecl.exists_valueFault_bool hchoice.not_boolean b
    refine ⟨fault, by rw [hb, hfault], ?_⟩
    have hsuited : Selection.suited (s.acceptAll ds) d.name (.parse text) = .bool b := by
      rw [hb, Selection.suited_bool]
    simpa only [hfault] using wellFormed.apply_written hd hc hsuited
  refine ⟨c, hc, ⟨fun hok hword => ?_, fun hword => ?_⟩, hrefused⟩
  · obtain ⟨fault, -, hfault⟩ := hrefused hword
    rw [hok] at hfault
    cases hfault
  · have hsuited := Selection.suited_choice hfound hchoice hplain hword
    simpa only [hchoice.valueFault?] using wellFormed.apply_written hd hc hsuited

/-- A package that can write its output in several ways, or not at all. -/
def outputDeclarations : List Declaration :=
  [.version "1.0" (.archive "source") none,
    .variant "output" .multi (.multi (.ofList ["off"])) (some ["off", "on", "hdf5"])]

def outputVariant : VariantDecl := ⟨"output", .multi, .multi (.ofList ["off"]), ["off", "on", "hdf5"], none⟩

theorem mem_outputVariant : outputVariant ∈ (solver.acceptAll outputDeclarations).variants :=
  List.mem_of_getElem? (i := 0) (by rfl)

theorem outputVariant_choice {vs : List String} (hne : vs ≠ []) (h : ∀ v ∈ vs, v ∈ outputVariant.allowedValues) :
    outputVariant.Choice vs (.multi (.ofList vs)) := .several rfl hne h

theorem plain_outputs : ∀ v ∈ outputVariant.allowedValues, IsEntry ',' v.toList := by
  simp only [outputVariant, List.forall_mem_cons]
  refine ⟨⟨?_, ?_⟩, ⟨?_, ?_⟩, ⟨?_, ?_⟩, List.forall_mem_nil _⟩ <;> simp [isBlank]

theorem selected_outputs :
    bare "solver" = .ok solver ∧ (solver.acceptAll outputDeclarations).versions ≠ [] ∧
      outputVariant ∈ (solver.acceptAll outputDeclarations).variants ∧
      outputVariant.Choice ["hdf5", "on"] (.multi (.ofList ["hdf5", "on"])) ∧
      (∀ v ∈ ["hdf5", "on"], IsEntry ',' v.toList) ∧
      let text := ",".intercalate ["hdf5", "on"]
      let selected := (Selection.assigning ("output" ++ "=" ++ text)).apply
        (solver.acceptAll outputDeclarations) .default
      ∃ c, (solver.acceptAll outputDeclarations).defaultConfiguration? = some c ∧
        (selected = .ok (c.withVariant "output" (.multi (.ofList ["hdf5", "on"]))) ↔
          text ∉ VariantValue.switchWords) ∧
        (text ∈ VariantValue.switchWords → ∃ fault, outputVariant.valueFault? (.parse text) = some fault ∧
          selected = .error (.refused (.invalidConfiguration (solver.acceptAll outputDeclarations).name
            (.badValue "output" fault)))) := by
  have named : bare "solver" = .ok solver := by rfl
  have hversions : (solver.acceptAll outputDeclarations).versions ≠ [] := by decide +kernel
  have hallowed : ∀ v ∈ ["hdf5", "on"], v ∈ outputVariant.allowedValues := by decide
  have hchoice := outputVariant_choice (List.cons_ne_nil _ _) hallowed
  have hplain : ∀ v ∈ ["hdf5", "on"], IsEntry ',' v.toList := fun v hv => plain_outputs v (hallowed v hv)
  exact ⟨named, hversions, mem_outputVariant, hchoice, hplain,
    selected_iff named outputDeclarations hversions mem_outputVariant hchoice hplain⟩

/-- The value `on` alone cannot be selected. -/
theorem not_selected :
    ¬ ∀ (name : String) (s : PackageSpec) (ds : List Declaration) (d : VariantDecl) (vs : List String)
        (value : VariantValue), bare name = .ok s → (s.acceptAll ds).versions ≠ [] →
      d ∈ (s.acceptAll ds).variants → d.Choice vs value → (∀ v ∈ vs, IsEntry ',' v.toList) →
      ∃ c, (s.acceptAll ds).defaultConfiguration? = some c ∧
        (Selection.assigning (d.name ++ "=" ++ ",".intercalate vs)).apply
          (s.acceptAll ds) .default = .ok (c.withVariant d.name value) := by
  intro hall
  have named : bare "solver" = .ok solver := by rfl
  have hallowed : ∀ v ∈ ["on"], v ∈ outputVariant.allowedValues := by decide
  obtain ⟨c, hc, hselected⟩ := hall "solver" solver outputDeclarations outputVariant ["on"] _ named
    (by decide +kernel) mem_outputVariant (outputVariant_choice (List.cons_ne_nil _ _) hallowed)
    fun v hv => plain_outputs v (hallowed v hv)
  have wellFormed := (bare_wellFormed named).acceptAll outputDeclarations
  have hsuited : Selection.suited (solver.acceptAll outputDeclarations) "output"
      (.parse (",".intercalate ["on"])) = .bool true := by decide +kernel
  have hrefused := wellFormed.apply_written mem_outputVariant hc hsuited
  rw [hselected] at hrefused
  cases hrefused

end PackageSpec

end PackageRecipes
