import PackageRecipes.Proofs.NameMap
import PackageRecipes.Proofs.Spec.WellFormed

/-!
# Checked configurations

A configuration that passes the check of a specification assigns to each declared variant a value that the
variant allows, and assigns nothing else.
-/

namespace PackageRecipes

namespace VariantDecl

variable {d : VariantDecl} {value : VariantValue}

theorem valuesFault?_eq_none {vs : List String} : d.valuesFault? vs = none ↔ ∀ v ∈ vs, d.allows v := by
  simp [valuesFault?]

theorem exists_bool (hkind : d.kind = .boolean) (h : d.valueFault? value = none) :
    ∃ b, value = .bool b := by
  cases value with
  | bool b => exact ⟨b, rfl⟩
  | single v => simp [valueFault?, hkind] at h
  | multi vs => simp [valueFault?, hkind] at h

theorem exists_single (hkind : d.kind = .enumerated) (h : d.valueFault? value = none) :
    ∃ v ∈ d.allowedValues, value = .single v := by
  cases value with
  | bool b => simp [valueFault?, hkind] at h
  | single v =>
      simp only [valueFault?, hkind, valuesFault?_eq_none, List.forall_mem_singleton] at h
      refine ⟨v, ?_, rfl⟩
      simpa [allows, hkind] using h
  | multi vs => simp [valueFault?, hkind] at h

theorem boolean_of_checkMatch {wanted : VariantMatch} (hwanted : wanted = .enabled ∨ wanted = .disabled)
    (h : d.checkMatch wanted = .ok ()) : d.kind = .boolean := by
  by_contra hkind
  rcases hwanted with rfl | rfl <;> simp [checkMatch, hkind] at h

end VariantDecl

namespace PackageSpec

variable {s : PackageSpec} {config : Configuration}

theorem mem_of_variant? {name : String} {d : VariantDecl} (h : s.variant? name = some d) :
    d ∈ s.variants ∧ d.name = name :=
  ⟨List.mem_of_find?_eq_some h, by simpa using List.find?_some h⟩

theorem WellFormed.variant?_eq (h : s.WellFormed) {d : VariantDecl} (hd : d ∈ s.variants) :
    s.variant? d.name = some d := by
  obtain ⟨d', hd'⟩ : ∃ d', s.variant? d.name = some d' :=
    Option.isSome_iff_exists.1 (List.find?_isSome.2 ⟨d, hd, beq_self_eq_true _⟩)
  obtain ⟨hmem, hname⟩ := mem_of_variant? hd'
  rw [hd', List.inj_on_of_nodup_map h.variantNames hmem hd hname]

theorem assignmentFault?_eq_none {entries : List (String × VariantValue)} :
    s.assignmentFault? entries = none ↔
      ∀ e ∈ entries, ∃ decl, s.variant? e.1 = some decl ∧ decl.valueFault? e.2 = none := by
  induction entries with
  | nil => simp [assignmentFault?]
  | cons e rest ih =>
      rw [List.forall_mem_cons, ← ih, assignmentFault?]
      cases hdecl : s.variant? e.1 with
      | none => simp
      | some decl => cases hvalue : decl.valueFault? e.2 <;> simp [hvalue]

/-- What the check of a configuration asks for. -/
theorem checkConfiguration_ok :
    s.checkConfiguration config = .ok () ↔
      config.name = s.name ∧ (s.version? config.version).isSome ∧
        (∀ e ∈ config.variants.entries,
          ∃ decl, s.variant? e.1 = some decl ∧ decl.valueFault? e.2 = none) ∧
        ∀ d ∈ s.variants, config.variants.contains d.name := by
  have complete : (s.variants.find? fun d => !config.variants.contains d.name) = none ↔
      ∀ d ∈ s.variants, config.variants.contains d.name := by simp
  rw [← assignmentFault?_eq_none, ← complete, checkConfiguration, configurationFault?]
  by_cases hname : config.name = s.name
  case neg => simp [hname]
  cases hversion : s.version? config.version with
  | none => simp [hname]
  | some v =>
      cases hfault : s.assignmentFault? config.variants.entries with
      | some fault => simp [hname]
      | none =>
          cases s.variants.find? fun d => !config.variants.contains d.name with
          | some d => simp [hname]
          | none => simp [hname]

/-- A checked configuration assigns to each declared variant a value that it allows. -/
theorem exists_assigned (ok : s.checkConfiguration config = .ok ()) {name : String} {d : VariantDecl}
    (hd : s.variant? name = some d) :
    ∃ value, config.variant? name = some value ∧ d.valueFault? value = none := by
  obtain ⟨-, -, hassigned, hcomplete⟩ := checkConfiguration_ok.1 ok
  obtain ⟨hmem, rfl⟩ := mem_of_variant? hd
  obtain ⟨value, hvalue⟩ := Option.isSome_iff_exists.1 (hcomplete d hmem)
  obtain ⟨d', hd', hfault⟩ := hassigned _ (NameMap.mem_of_find hvalue)
  rw [hd, Option.some.injEq] at hd'
  subst hd'
  exact ⟨value, hvalue, hfault⟩

/-- A checked configuration may give a declared variant any other value that it allows. -/
theorem checkConfiguration_withVariant (ok : s.checkConfiguration config = .ok ()) {name : String}
    {d : VariantDecl} (hd : s.variant? name = some d) {value : VariantValue}
    (hvalue : d.valueFault? value = none) : s.checkConfiguration (config.withVariant name value) = .ok () := by
  obtain ⟨hname, hversion, hassigned, hcomplete⟩ := checkConfiguration_ok.1 ok
  refine checkConfiguration_ok.2 ⟨hname, hversion, ?_, ?_⟩
  · intro e he
    rcases NameMap.mem_insert_entries he with rfl | he
    · exact ⟨d, hd, hvalue⟩
    · exact hassigned e he
  · intro d' hd'
    exact NameMap.contains_iff.2 (NameMap.mem_keys_insert.2 (.inr (NameMap.contains_iff.1 (hcomplete d' hd'))))

theorem assignmentFault?_eq_badValue {d : VariantDecl} {value : VariantValue}
    {entries : List (String × VariantValue)} {fault : ValueFault}
    (hd : s.variant? d.name = some d) (hvalue : d.valueFault? value = some fault) (hmem : (d.name, value) ∈ entries)
    (hothers : ∀ e ∈ entries, e = (d.name, value) ∨
      ∃ decl, s.variant? e.1 = some decl ∧ decl.valueFault? e.2 = none) :
    s.assignmentFault? entries = some (.badValue d.name fault) := by
  induction entries with
  | nil => exact absurd hmem List.not_mem_nil
  | cons e rest ih =>
      rw [List.forall_mem_cons] at hothers
      rcases hothers.1 with rfl | ⟨decl, hdecl, hfault⟩
      · simp [assignmentFault?, hd, hvalue]
      · have hrest : (d.name, value) ∈ rest := by
          refine (List.mem_cons.1 hmem).resolve_left fun heq => ?_
          rw [← heq, hd, Option.some.injEq] at hdecl
          subst hdecl
          rw [← heq, hvalue] at hfault
          cases hfault
        have hskip : s.assignmentFault? (e :: rest) = s.assignmentFault? rest := by
          simp [assignmentFault?, hdecl, hfault]
        rw [hskip]
        exact ih hrest hothers.2

/-- A checked configuration may not give a declared variant a value that it does not allow. -/
theorem checkConfiguration_withVariant_error (ok : s.checkConfiguration config = .ok ())
    {d : VariantDecl} (hd : s.variant? d.name = some d) {value : VariantValue} {fault : ValueFault}
    (hvalue : d.valueFault? value = some fault) :
    s.checkConfiguration (config.withVariant d.name value) =
      .error (.invalidConfiguration s.name (.badValue d.name fault)) := by
  obtain ⟨hname, hversion, hassigned, -⟩ := checkConfiguration_ok.1 ok
  have hfound : (config.withVariant d.name value).variants.get? d.name = some value := by
    rw [Configuration.withVariant, NameMap.get?_insert, if_pos rfl]
  have hfault : s.assignmentFault? (config.withVariant d.name value).variants.entries =
      some (.badValue d.name fault) :=
    assignmentFault?_eq_badValue hd hvalue (NameMap.mem_of_find hfound) fun e he =>
      (NameMap.mem_insert_entries he).imp_right (hassigned e)
  have hname : (config.withVariant d.name value).name = s.name := hname
  have hversion : ¬ (s.version? (config.withVariant d.name value).version).isNone := by
    simpa [Configuration.withVariant, Option.isSome_iff_ne_none] using hversion
  rw [checkConfiguration, configurationFault?, if_neg (not_not.2 hname), if_neg hversion, hfault]

end PackageSpec

end PackageRecipes
