import PackageRecipes.Proofs.Spec.Typing

/-!
# A single value of a set-valued variant

A variant that takes sets may also be assigned a single value. The check takes this value for the set of it,
but an atom that wants several values does not: of a set it asks for all of them, of a single value for one.
-/

namespace PackageRecipes

namespace VariantMatch

variable {v : String} {wanted : List String}

/-- There are wanted values, and they are all the value or all others. -/
def SettledBy (v : String) (wanted : List String) : Prop :=
  wanted ≠ [] ∧ (v ∈ wanted → ∀ w ∈ wanted, w = v)

theorem accepts_single : (values wanted).accepts (.single v) ↔ v ∈ wanted := by
  simp [accepts, VariantValue.includes]

theorem accepts_singleton : (values wanted).accepts (.multi (.ofList [v])) ↔ ∀ w ∈ wanted, w = v := by
  have hmem : ∀ w, (NameSet.ofList [v]).contains w ↔ w = v := by
    intro w
    rw [NameSet.contains, List.contains_iff_mem, ← NameSet.mem_iff, NameSet.mem_ofList, List.mem_singleton]
  simp only [accepts, List.all_eq_true, hmem]

theorem accepts_eq_iff :
    (values wanted).accepts (.multi (.ofList [v])) = (values wanted).accepts (.single v) ↔
      SettledBy v wanted := by
  rw [Bool.eq_iff_iff, accepts_singleton, accepts_single]
  constructor
  · intro h
    refine ⟨?_, h.2⟩
    rintro rfl
    exact List.not_mem_nil (h.1 (List.forall_mem_nil _))
  · rintro ⟨hne, hsettled⟩
    refine ⟨fun hall => ?_, hsettled⟩
    obtain ⟨w, hw⟩ := List.exists_mem_of_ne_nil wanted hne
    exact hall w hw ▸ hw

end VariantMatch

namespace VariantDecl

variable {d : VariantDecl}

theorem checkMatch_values {wanted : List String} :
    d.checkMatch (.values wanted) = .ok () ↔ ∀ w ∈ wanted, d.allows w := by
  have hfind : wanted.find? (!d.allows ·) = none ↔ ∀ w ∈ wanted, d.allows w := by simp
  rw [← hfind, checkMatch]
  cases wanted.find? (!d.allows ·) <;> simp

/-- Of a variant that takes sets, a condition can only want values. -/
theorem exists_wanted (hkind : d.kind = .multi) {m : VariantMatch} (h : d.checkMatch m = .ok ()) :
    ∃ wanted, m = .values wanted ∧ ∀ w ∈ wanted, d.allows w := by
  cases m with
  | values wanted => exact ⟨wanted, rfl, checkMatch_values.1 h⟩
  | enabled => simp [checkMatch, hkind] at h
  | disabled => simp [checkMatch, hkind] at h

theorem valueFault?_singleton (hkind : d.kind = .multi) (v : String) :
    d.valueFault? (.multi (.ofList [v])) = d.valueFault? (.single v) := by
  simp only [valueFault?, hkind]
  rfl

end VariantDecl

namespace PackageSpec

open Condition VariantMatch

variable {s : PackageSpec} {config : Configuration} {v : String} {d : VariantDecl}

/-- Neither the check of the configuration nor the condition tells the set of the value from the value. -/
structure Interchangeable (s : PackageSpec) (config : Configuration) (variant v : String) (c : Condition) :
    Prop where
  accepted : s.checkConfiguration (config.withVariant variant (.multi (.ofList [v]))) = .ok ()
  same : holds (config.withVariant variant (.multi (.ofList [v]))) c = holds config c

theorem exists_wanted_of_checkCondition (hd : s.variant? d.name = some d) (hkind : d.kind = .multi)
    {c : Condition} (hc : s.checkCondition c = .ok ()) {m : VariantMatch}
    (hatom : (d.name, m) ∈ c.ownVariants) : ∃ wanted, m = .values wanted ∧ ∀ w ∈ wanted, d.allows w := by
  obtain ⟨d', hd', hmatch⟩ := checkAtoms_ok.1 hc _ hatom
  obtain rfl : d = d' := Option.some.inj (hd.symm.trans hd')
  exact VariantDecl.exists_wanted hkind hmatch

theorem interchangeable_of_settled (hconfig : s.checkConfiguration config = .ok ())
    (hd : s.variant? d.name = some d) (hkind : d.kind = .multi)
    (hvalue : config.variant? d.name = some (.single v)) {c : Condition} (hc : s.checkCondition c = .ok ())
    (hsettled : ∀ wanted, (d.name, .values wanted) ∈ c.ownVariants → SettledBy v wanted) :
    s.Interchangeable config d.name v c := by
  constructor
  case accepted =>
    obtain ⟨value, hassigned, hfault⟩ := exists_assigned hconfig hd
    obtain rfl : VariantValue.single v = value := Option.some.inj (hvalue.symm.trans hassigned)
    exact checkConfiguration_withVariant hconfig hd (by rw [VariantDecl.valueFault?_singleton hkind, hfault])
  case same =>
    refine holds_of_answers c fun (name, m) hatom => ?_
    rw [NameMap.get?_insert]
    by_cases hname : name = d.name
    · subst hname
      obtain ⟨wanted, rfl, -⟩ := exists_wanted_of_checkCondition hd hkind hc hatom
      rw [if_pos rfl, hvalue, Option.any_some, Option.any_some]
      exact accepts_eq_iff.2 (hsettled wanted hatom)
    · rw [if_neg hname]
      rfl

theorem settled_of_interchangeable (hvalue : config.variant? d.name = some (.single v)) {wanted : List String}
    (h : s.Interchangeable config d.name v (.variant d.name (.values wanted))) : SettledBy v wanted := by
  have hset : (config.withVariant d.name (.multi (.ofList [v]))).variant? d.name =
      some (.multi (.ofList [v])) := by
    rw [Configuration.variant?, Configuration.withVariant, NameMap.get?_insert, if_pos rfl]
  have hsame := h.same
  simp only [holds, hset, hvalue, Option.any_some] at hsame
  exact accepts_eq_iff.1 hsame

/-- Whatever was declared, conditions that want certain lists of values take a single value for the set of it
exactly if the value settles each of these lists. -/
theorem interchangeable_iff {name : String} (h : bare name = .ok s) (ds : List Declaration)
    (hconfig : (s.acceptAll ds).checkConfiguration config = .ok ()) (hd : d ∈ (s.acceptAll ds).variants)
    (hkind : d.kind = .multi) (hvalue : config.variant? d.name = some (.single v))
    (lists : List String → Prop) :
    (∀ c, (s.acceptAll ds).checkCondition c = .ok () →
        (∀ wanted, (d.name, .values wanted) ∈ c.ownVariants → lists wanted) →
        (s.acceptAll ds).Interchangeable config d.name v c) ↔
      ∀ wanted, (∀ w ∈ wanted, d.allows w) → lists wanted → SettledBy v wanted := by
  have hfound : (s.acceptAll ds).variant? d.name = some d := ((bare_wellFormed h).acceptAll ds).variant?_eq hd
  constructor
  · intro hall wanted hallowed hlists
    -- the condition that consists of the one atom tells both apart unless its list is settled
    have hown : (Condition.variant d.name (.values wanted)).ownVariants = [(d.name, .values wanted)] := by
      rw [ownVariants]
    refine settled_of_interchangeable hvalue (hall _ (checkAtoms_ok.2 ?_) ?_)
    · rw [hown, List.forall_mem_singleton]
      exact ⟨d, hfound, VariantDecl.checkMatch_values.2 hallowed⟩
    · intro wanted' hmem
      simp only [hown, List.mem_singleton, Prod.mk.injEq, true_and, values.injEq] at hmem
      rwa [hmem]
  · intro hall c hc hlists
    refine interchangeable_of_settled hconfig hfound hkind hvalue hc fun wanted hmem => ?_
    obtain ⟨_, heq, hallowed⟩ := exists_wanted_of_checkCondition hfound hkind hc hmem
    cases heq
    exact hall wanted hallowed (hlists wanted hmem)

/-- The set-valued variant of the accelerator, which its configuration assigns a single value. -/
def precision : VariantDecl :=
  ⟨"precision", .multi, .multi (.ofList ["double"]), ["single", "double"], none⟩

theorem mem_precision : precision ∈ (solver.acceptAll acceleratorDeclarations).variants :=
  List.mem_of_getElem? (i := 2) (by rfl)

theorem interchangeable_precision :
    bare "solver" = .ok solver ∧
      (solver.acceptAll acceleratorDeclarations).checkConfiguration acceleratorConfiguration = .ok () ∧
      precision ∈ (solver.acceptAll acceleratorDeclarations).variants ∧ precision.kind = .multi ∧
      acceleratorConfiguration.variant? precision.name = some (.single "single") ∧
      ∀ c, (solver.acceptAll acceleratorDeclarations).checkCondition c = .ok () →
        (∀ wanted, (precision.name, .values wanted) ∈ c.ownVariants → wanted.length = 1) →
        (solver.acceptAll acceleratorDeclarations).Interchangeable acceleratorConfiguration precision.name
          "single" c := by
  have named : bare "solver" = .ok solver := by rfl
  have checked : (solver.acceptAll acceleratorDeclarations).checkConfiguration
      acceleratorConfiguration = .ok () := by rfl
  have assigned : acceleratorConfiguration.variant? precision.name = some (.single "single") := by rfl
  refine ⟨named, checked, mem_precision, rfl, assigned, ?_⟩
  refine (interchangeable_iff named acceleratorDeclarations checked mem_precision rfl assigned _).2 ?_
  intro wanted _ hlength
  obtain ⟨w, rfl⟩ := List.length_eq_one_iff.1 hlength
  exact ⟨List.cons_ne_nil w [], by simp [eq_comm]⟩

/-- A condition that wants both values holds of the single value, but not of the set of it. -/
theorem not_interchangeable :
    ¬ ∀ (name : String) (s : PackageSpec) (ds : List Declaration) (config : Configuration)
        (d : VariantDecl) (v : String) (c : Condition), bare name = .ok s →
      (s.acceptAll ds).checkConfiguration config = .ok () → d ∈ (s.acceptAll ds).variants →
      d.kind = .multi → config.variant? d.name = some (.single v) →
      (s.acceptAll ds).checkCondition c = .ok () → (s.acceptAll ds).Interchangeable config d.name v c := by
  intro hall
  have both : (solver.acceptAll acceleratorDeclarations).checkCondition
      (.variant "precision" (.values ["single", "double"])) = .ok () := by decide +kernel
  have hsettled : SettledBy "single" ["single", "double"] :=
    settled_of_interchangeable (by rfl) (hall "solver" solver acceleratorDeclarations
      acceleratorConfiguration precision "single" _ (by rfl) (by rfl) mem_precision rfl (by rfl) both)
  exact absurd (hsettled.2 (by decide) "double" (by decide)) (by decide)

end PackageSpec

end PackageRecipes
