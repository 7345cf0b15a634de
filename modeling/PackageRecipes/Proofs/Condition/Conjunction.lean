import PackageRecipes.Proofs.Condition.Printing
import PackageRecipes.Proofs.Condition.Requirements

/-!
# Conjunctions that are written out

A conjunction of two conditions is written as the parts of the one and then those of the other. Where the first
ends with a dependency, the atoms of the second stand behind it, and they are read again as atoms on that
dependency.
-/

namespace PackageRecipes.Condition

/-! ## Parts of a condition -/

def isDependency : Condition → Bool
  | .dependency _ _ => true
  | _ => false

/-- What the condition is a conjunction of. -/
def parts : Condition → List Condition
  | .always => []
  | .all cs => cs
  | c => [c]

/-- The parts on the package itself. -/
def own (c : Condition) : List Condition := c.parts.filter (!·.isDependency)

/-- The parts on its dependencies. -/
def needs (c : Condition) : List Condition := c.parts.filter (·.isDependency)

/-- What atoms behind the condition are about: the last dependency in it, or the package if there is none. -/
def subject? (c : Condition) (config : Configuration) : Option Configuration :=
  match c.needs.getLast? with
  | some (.dependency name _) => config.dependency? name
  | _ => some config

variable {c c₁ c₂ : Condition} {config : Configuration} {name : String}
variable {atoms atoms₁ atoms₂ inner ds ds₂ init ps qs : List Condition}

theorem holds_iff : c.holds config ↔ (∀ a ∈ c.own, a.holds config) ∧ ∀ d ∈ c.needs, d.holds config := by
  have hparts : c.holds config ↔ ∀ p ∈ c.parts, p.holds config := by
    cases c with
    | always => simp [parts, holds]
    | all cs => simp [parts, holds, allHold_eq]
    | _ => simp [parts]
  rw [hparts]
  constructor
  · intro h
    exact ⟨fun a ha => h a (List.mem_of_mem_filter ha), fun d hd => h d (List.mem_of_mem_filter hd)⟩
  · rintro ⟨hown, hneeds⟩ p hp
    cases hd : p.isDependency with
    | true => exact hneeds p (List.mem_filter.2 ⟨hp, hd⟩)
    | false => exact hown p (List.mem_filter.2 ⟨hp, by rw [hd]; rfl⟩)

theorem holds_onDependency :
    (onDependency name atoms).holds config ↔ ∃ d ∈ config.dependency? name, ∀ a ∈ atoms, a.holds d := by
  rw [onDependency, holds]
  cases config.dependency? name with
  | none => simp
  | some d => simp [holds_conj]

theorem holds_conj_pair : (conj [c₁, c₂]).holds config ↔ c₁.holds config ∧ c₂.holds config := by simp [holds_conj]

/-- Where the condition holds, the dependency that ends it is there. -/
theorem exists_subject (h : c.holds config) : ∃ d, c.subject? config = some d := by
  rw [subject?]
  split
  · rename_i name inner hlast
    have hneed := (holds_iff.1 h).2 _ (List.mem_of_getLast? hlast)
    rw [holds] at hneed
    cases hd : config.dependency? name with
    | none => simp [hd] at hneed
    | some d => exact ⟨d, rfl⟩
  · exact ⟨config, rfl⟩

theorem subject_of_needs (h : c.needs = []) : c.subject? config = some config := by
  rw [subject?, h, List.getLast?_nil]

/-! ## Conditions as they are read -/

/-- Atoms on the package, and then conditions on dependencies. -/
inductive IsRead : Condition → Prop where
  | mk {atoms ds : List Condition} (hatoms : ∀ a ∈ atoms, IsAtom a) (hds : ∀ d ∈ ds, IsDependency d) :
      IsRead (conj (atoms ++ ds))

theorem isRead_of_parse {package s : String} (h : parse package s = .ok c) : IsRead c := by
  obtain ⟨atoms, ds, rfl, hatoms, hds⟩ := exists_of_parse h
  exact .mk hatoms hds

theorem isRead_always : IsRead .always := .mk (List.forall_mem_nil IsAtom) (List.forall_mem_nil IsDependency)

/-- A part of a condition that was read. -/
def IsPart (c : Condition) : Prop := IsAtom c ∨ IsDependency c

theorem IsPart.isAlways (h : IsPart c) : c.isAlways = false := h.elim IsAtom.isAlways IsDependency.isAlways

theorem isPart_append (hatoms : ∀ a ∈ atoms, IsAtom a) (hds : ∀ d ∈ ds, IsDependency d) :
    ∀ c ∈ atoms ++ ds, IsPart c :=
  List.forall_mem_append.2 ⟨fun a ha => .inl (hatoms a ha), fun d hd => .inr (hds d hd)⟩

theorem parts_conj (h : ∀ c ∈ ps, IsPart c) : (conj ps).parts = ps := by
  have halways : ∀ c ∈ ps, c.isAlways = false := fun c hc => (h c hc).isAlways
  rw [conj, List.filter_eq_self.2 (by simpa using halways)]
  cases ps with
  | nil => rfl
  | cons c more =>
      cases more with
      | cons => rfl
      | nil =>
          -- a part is no conjunction itself
          rcases h c List.mem_cons_self with hatom | hd
          · cases hatom <;> rfl
          · cases hd
            rfl

theorem IsAtom.isDependency (h : IsAtom c) : c.isDependency = false := by cases h <;> rfl

theorem IsDependency.isDependency (h : IsDependency c) : c.isDependency = true := by
  cases h
  rfl

theorem own_conj (hatoms : ∀ a ∈ atoms, IsAtom a) (hds : ∀ d ∈ ds, IsDependency d) :
    (conj (atoms ++ ds)).own = atoms := by
  have hkeep : atoms.filter (!·.isDependency) = atoms :=
    List.filter_eq_self.2 fun a ha => by rw [(hatoms a ha).isDependency]; rfl
  have hdrop : ds.filter (!·.isDependency) = [] :=
    List.filter_eq_nil_iff.2 fun d hd => by rw [(hds d hd).isDependency]; decide
  rw [own, parts_conj (isPart_append hatoms hds), List.filter_append, hkeep, hdrop, List.append_nil]

theorem needs_conj (hatoms : ∀ a ∈ atoms, IsAtom a) (hds : ∀ d ∈ ds, IsDependency d) :
    (conj (atoms ++ ds)).needs = ds := by
  have hdrop : atoms.filter (·.isDependency) = [] :=
    List.filter_eq_nil_iff.2 fun a ha => by rw [(hatoms a ha).isDependency]; decide
  have hkeep : ds.filter (·.isDependency) = ds :=
    List.filter_eq_self.2 fun d hd => (hds d hd).isDependency
  rw [needs, parts_conj (isPart_append hatoms hds), List.filter_append, hkeep, hdrop, List.nil_append]

/-! ## The written conjunction -/

theorem conj_filter (ps : List Condition) : conj (ps.filter (!·.isAlways)) = conj ps := by
  rw [conj, List.filter_filter]
  simp only [Bool.and_self]
  rfl

theorem spaced_conj (hps : ∀ c ∈ ps, IsPart c) (hplain : ∀ c ∈ ps, c.isPlain) :
    spaced ([conj ps].filter (!·.isAlways)) = spaced ps := by
  have halways : ∀ c ∈ ps, c.isAlways = false := fun c hc => (hps c hc).isAlways
  have hconj := isAlways_conj halways
  cases ps with
  | nil => rfl
  | cons p more =>
      rw [List.filter_cons_of_pos (by rw [hconj]; rfl), List.filter_nil,
        ← toList_conj (List.cons_ne_nil p more) halways hplain]
      simp [spaced]

theorem toList_conj_pair (hps : ∀ c ∈ ps, IsPart c) (hqs : ∀ c ∈ qs, IsPart c)
    (hplain : ∀ c ∈ ps ++ qs, c.isPlain) (hnot : (conj [conj ps, conj qs]).isAlways = false) :
    ' ' :: (conj [conj ps, conj qs]).render.toList = spaced (ps ++ qs) := by
  have hsplit : [conj ps, conj qs].filter (!·.isAlways) =
      [conj ps].filter (!·.isAlways) ++ [conj qs].filter (!·.isAlways) :=
    List.filter_append [conj ps] [conj qs]
  have hne : [conj ps, conj qs].filter (!·.isAlways) ≠ [] := by
    intro hnil
    rw [← conj_filter, hnil] at hnot
    cases hnot
  have hplainParts : ∀ c ∈ [conj ps, conj qs].filter (!·.isAlways), c.isPlain := by
    rw [List.forall_mem_append, ← List.all_eq_true, ← List.all_eq_true, ← isPlain_conj, ← isPlain_conj] at hplain
    intro c hc
    have hmem := List.mem_of_mem_filter hc
    simp only [List.mem_cons, List.not_mem_nil, or_false] at hmem
    rcases hmem with rfl | rfl
    · exact hplain.1
    · exact hplain.2
  rw [List.forall_mem_append] at hplain
  rw [← conj_filter, toList_conj hne (fun c hc => by simpa using List.of_mem_filter hc) hplainParts, hsplit,
    spaced_append, spaced_conj hps hplain.1, spaced_conj hqs hplain.2, spaced_append]

/-! ## Reading it again -/

theorem parse_spaced {package text : String} (hps : ∀ c ∈ ps, IsPart c) (hplain : ∀ c ∈ ps, c.isPlain)
    (htext : ' ' :: text.toList = spaced ps) (hread : ownParts text.toList = .ok qs) :
    parse package text = .ok (conj qs) := by
  have hstarts := starts_spaced hps hplain htext
  have hunnamed : leadingName? text.toList = none := by simpa using hstarts.unnamed []
  obtain ⟨first, rest, hfirst, hblank⟩ := hstarts.solid
  rw [parse_eq hfirst hblank, parseParts_unnamed hunnamed, hread]
  rfl

theorem isDependency_head (hinit : ∀ d ∈ init, IsDependency d) (hname : IsName name)
    (hinner : ∀ a ∈ inner, IsAtom a) (row : List Condition) :
    ∀ d ∈ (init ++ onDependency name inner :: row).head?, IsDependency d := by
  intro d hd
  cases init with
  | nil =>
      cases hd
      exact .mk hname hinner
  | cons e rest =>
      cases hd
      exact hinit d List.mem_cons_self

theorem parseDependencies_behind (hinit : ∀ d ∈ init, IsDependency d) (hname : IsName name)
    (hinner : ∀ a ∈ inner ++ atoms, IsAtom a) (hds : ∀ d ∈ ds, IsDependency d)
    (hplain : ∀ c ∈ init ++ (inner ++ atoms ++ ds), c.isPlain) :
    parseDependencies (spaced (init ++ onDependency name inner :: (atoms ++ ds))).tail =
      .ok (init ++ onDependency name (inner ++ atoms) :: ds) := by
  induction init with
  | nil =>
      rw [List.nil_append, List.forall_mem_append] at hplain
      rw [List.nil_append, List.nil_append,
        parseDependencies_step hname hinner hplain.1 fun d hd => hds d (List.mem_of_mem_head? hd),
        parseDependencies_spaced hds hplain.2]
      rfl
  | cons d more ih =>
      rw [List.cons_append, List.forall_mem_cons] at hplain
      rw [List.forall_mem_cons] at hinit
      have hfirst := isDependency_head hinit.2 hname (fun a ha => hinner a (List.mem_append_left _ ha)) (atoms ++ ds)
      rw [List.cons_append, parseDependencies_cons hinit.1 hplain.1 hfirst, ih hinit.2 hplain.2]
      rfl

/-- Atoms behind the dependencies are read as atoms of the last one. -/
theorem ownParts_behind (hatoms₁ : ∀ a ∈ atoms₁, IsAtom a) (hinit : ∀ d ∈ init, IsDependency d) (hname : IsName name)
    (hinner : ∀ a ∈ inner ++ atoms, IsAtom a) (hds : ∀ d ∈ ds, IsDependency d)
    (hplain : ∀ c ∈ atoms₁ ++ (init ++ (inner ++ atoms ++ ds)), c.isPlain) {text : List Char}
    (htext : ' ' :: text = spaced (atoms₁ ++ (init ++ onDependency name inner :: (atoms ++ ds)))) :
    ownParts text = .ok (atoms₁ ++ (init ++ onDependency name (inner ++ atoms) :: ds)) := by
  rw [List.forall_mem_append] at hplain
  have hfirst := isDependency_head hinit hname (fun a ha => hinner a (List.mem_append_left _ ha)) (atoms ++ ds)
  have hread := parseAtoms_spaced hatoms₁ hplain.1 hfirst
  rw [← spaced_append, ← htext, parseAtoms_blank] at hread
  rw [ownParts, hread]
  simp only [parseDependencies_behind hinit hname hinner hds hplain.2]
  rfl

theorem parse_conj_own {package : String} (hatoms₁ : ∀ a ∈ atoms₁, IsAtom a) (hatoms₂ : ∀ a ∈ atoms₂, IsAtom a)
    (hds : ∀ d ∈ ds, IsDependency d) (hplain : ∀ c ∈ atoms₁ ++ (atoms₂ ++ ds), c.isPlain)
    (hnot : (conj [conj atoms₁, conj (atoms₂ ++ ds)]).isAlways = false) :
    parse package (conj [conj atoms₁, conj (atoms₂ ++ ds)]).render = .ok (conj (atoms₁ ++ atoms₂ ++ ds)) := by
  have htext := toList_conj_pair (fun a ha => .inl (hatoms₁ a ha)) (isPart_append hatoms₂ hds) hplain hnot
  have hatoms : ∀ a ∈ atoms₁ ++ atoms₂, IsAtom a := List.forall_mem_append.2 ⟨hatoms₁, hatoms₂⟩
  rw [← List.append_assoc] at htext hplain
  exact parse_spaced (isPart_append hatoms hds) hplain htext (ownParts_spaced hatoms hds hplain htext)

theorem parse_conj_behind {package : String} (hatoms₁ : ∀ a ∈ atoms₁, IsAtom a)
    (hds₁ : ∀ d ∈ init ++ [onDependency name inner], IsDependency d) (hname : IsName name)
    (hinner : ∀ a ∈ inner, IsAtom a) (hatoms₂ : ∀ a ∈ atoms₂, IsAtom a) (hds₂ : ∀ d ∈ ds₂, IsDependency d)
    (hplain₁ : ∀ c ∈ atoms₁ ++ (init ++ [onDependency name inner]), c.isPlain)
    (hplain₂ : ∀ c ∈ atoms₂ ++ ds₂, c.isPlain)
    (hnot : (conj [conj (atoms₁ ++ (init ++ [onDependency name inner])), conj (atoms₂ ++ ds₂)]).isAlways = false) :
    parse package (conj [conj (atoms₁ ++ (init ++ [onDependency name inner])), conj (atoms₂ ++ ds₂)]).render =
      .ok (conj (atoms₁ ++ (init ++ onDependency name (inner ++ atoms₂) :: ds₂))) := by
  have hparts := List.forall_mem_append.2 ⟨isPart_append hatoms₁ hds₁, isPart_append hatoms₂ hds₂⟩
  have hplain := List.forall_mem_append.2 ⟨hplain₁, hplain₂⟩
  have htext := toList_conj_pair (isPart_append hatoms₁ hds₁) (isPart_append hatoms₂ hds₂) hplain hnot
  have hrow : atoms₁ ++ (init ++ [onDependency name inner]) ++ (atoms₂ ++ ds₂) =
      atoms₁ ++ (init ++ onDependency name inner :: (atoms₂ ++ ds₂)) := by simp
  have hread : ∀ c ∈ atoms₁ ++ (init ++ (inner ++ atoms₂ ++ ds₂)), c.isPlain := by
    simp only [List.forall_mem_append, List.forall_mem_singleton, isPlain_onDependency, List.all_eq_true]
      at hplain₁ hplain₂ ⊢
    exact ⟨hplain₁.1, hplain₁.2.1, ⟨hplain₁.2.2, hplain₂.1⟩, hplain₂.2⟩
  rw [hrow] at htext hplain hparts
  have hown := ownParts_behind hatoms₁ (List.forall_mem_append.1 hds₁).1 hname
    (List.forall_mem_append.2 ⟨hinner, hatoms₂⟩) hds₂ hread htext
  exact parse_spaced hparts hplain htext hown

/-- A written conjunction says the first condition, the atoms of the second of what they stand behind, and the
dependencies of the second. -/
theorem exists_parse_conj (package : String) (h₁ : IsRead c₁) (h₂ : IsRead c₂) (hplain₁ : c₁.isPlain)
    (hplain₂ : c₂.isPlain) (hnot : (conj [c₁, c₂]).isAlways = false) :
    ∃ written, parse package (conj [c₁, c₂]).render = .ok written ∧
      ∀ config, written.holds config ↔ c₁.holds config ∧
        (∃ d ∈ c₁.subject? config, ∀ a ∈ c₂.own, a.holds d) ∧ ∀ d ∈ c₂.needs, d.holds config := by
  obtain @⟨atoms₁, ds₁, hatoms₁, hds₁⟩ := h₁
  obtain @⟨atoms₂, ds₂, hatoms₂, hds₂⟩ := h₂
  rw [isPlain_conj, List.all_eq_true] at hplain₁ hplain₂
  rw [own_conj hatoms₂ hds₂, needs_conj hatoms₂ hds₂]
  rcases List.eq_nil_or_concat' ds₁ with rfl | ⟨init, last, rfl⟩
  · -- no dependency stands in front of the atoms
    rw [List.append_nil] at hplain₁ hnot ⊢
    refine ⟨_, parse_conj_own hatoms₁ hatoms₂ hds₂ (List.forall_mem_append.2 ⟨hplain₁, hplain₂⟩) hnot,
      fun config => ?_⟩
    have hneeds : (conj atoms₁).needs = [] := by
      rw [← List.append_nil atoms₁, needs_conj hatoms₁ hds₁]
    rw [subject_of_needs hneeds]
    simp [holds_conj]
  · obtain @⟨name, inner, hname, hinner⟩ := hds₁ last (by simp)
    refine ⟨_, parse_conj_behind hatoms₁ hds₁ hname hinner hatoms₂ hds₂ hplain₁ hplain₂ hnot, fun config => ?_⟩
    have hsubject : (conj (atoms₁ ++ (init ++ [onDependency name inner]))).subject? config =
        config.dependency? name := by
      rw [subject?, needs_conj hatoms₁ hds₁, List.getLast?_concat, onDependency]
    rw [hsubject]
    simp only [holds_conj, List.all_eq_true, List.forall_mem_append, List.forall_mem_cons, holds_onDependency]
    cases config.dependency? name with
    | none => simp
    | some d =>
        simp only [Option.mem_some_iff, exists_eq_left']
        tauto

/-- Where no atom comes to stand behind a dependency, the text says what the conjunction does. -/
theorem holds_conj_of_written (hbehind : c₁.needs = [] ∨ c₂.own = []) :
    (c₁.holds config ∧ (∃ d ∈ c₁.subject? config, ∀ a ∈ c₂.own, a.holds d) ∧ ∀ d ∈ c₂.needs, d.holds config) ↔
      (conj [c₁, c₂]).holds config := by
  rw [holds_conj_pair, holds_iff (c := c₂)]
  refine and_congr_right fun h₁ => and_congr_left fun _ => ?_
  rcases hbehind with hneeds | hown
  · simp [subject_of_needs hneeds]
  · obtain ⟨d, hd⟩ := exists_subject h₁
    simp [hown, hd]

end PackageRecipes.Condition
