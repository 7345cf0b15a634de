import PackageRecipes.Build.RecipeHooks
import PackageRecipes.Proofs.Recipe.Clause

/-!
# Reading a build section

The hooks of a recipe can be made from its build section exactly when each clause in it states a condition that
the specification allows, each command has a program, and each pattern can be read.
-/

namespace PackageRecipes

variable {s : PackageSpec}

/-! ## Entries -/

/-- The pattern, or what it is escaped to, is a regular expression. -/
def EditEntry.Readable (e : EditEntry) : Prop := (Regex.parse? (RecipeHooks.sourceOf e)).isSome

def BuildSection.clauses (b : BuildSection) : List When :=
  b.edits.map (·.when) ++ b.commands.map (·.when) ++ b.targets.map (·.when) ++
    b.environment.map (·.when) ++ b.dependentEnvironment.map (·.when) ++ b.copies.map (·.when) ++
    b.appends.map (·.when) ++ b.cmakeArgs.map (·.when) ++ b.install.map (·.when)

/-- Every entry can be read for the specification. -/
structure BuildSection.Readable (b : BuildSection) (s : PackageSpec) : Prop where
  clauses : ∀ w ∈ b.clauses, s.Allows w
  commands : ∀ c ∈ b.commands, c.args ≠ []
  edits : ∀ e ∈ b.edits, e.Readable

namespace RecipeHooks

variable {r : Recipe}

section

variable {α β : Type} {list : BuildList} {when_ : α → When} {content : Nat → α → Except Error β}
  {entries : List α}

theorem exists_compileFrom_ok {P : α → Prop} (hcontent : ∀ i e, (∃ b, content i e = .ok b) ↔ P e)
    (index : Nat) :
    (∃ steps, compileFrom s list when_ content index entries = .ok steps) ↔
      (∀ w ∈ entries.map when_, s.Allows w) ∧ ∀ e ∈ entries, P e := by
  induction entries generalizing index with
  | nil => simp [compileFrom]
  | cons e rest ih =>
      rw [List.map_cons, List.forall_mem_cons, List.forall_mem_cons, and_and_and_comm, ← ih (index + 1),
        ← hcontent index, ← PackageSpec.exists_parseWhen_ok, compileFrom]
      cases s.parseWhen (when_ e) (.buildWhen list index) with
      | error e => simp
      | ok c =>
          cases content index e with
          | error e => simp
          | ok b => simp [exceptMap_ok]

theorem exists_compile_ok {P : α → Prop} (hcontent : ∀ i e, (∃ b, content i e = .ok b) ↔ P e) :
    (∃ steps, compile s list when_ content entries = .ok steps) ↔
      (∀ w ∈ entries.map when_, s.Allows w) ∧ ∀ e ∈ entries, P e :=
  exists_compileFrom_ok hcontent 0

/-- Content that is taken over as it is adds nothing to what the clauses have to be. -/
theorem exists_compile_ok_of_pure {f : α → β} :
    (∃ steps, compile s list when_ (fun _ e => .ok (f e)) entries = .ok steps) ↔
      ∀ w ∈ entries.map when_, s.Allows w := by
  rw [exists_compile_ok (P := fun _ => True)] <;> simp

theorem activeEntries_cons (step : Step β) (steps : List (Step β)) (config : Configuration) :
    activeEntries (step :: steps) config =
      if step.condition.holds config then step.entry :: activeEntries steps config
      else activeEntries steps config := by
  cases hholds : step.condition.holds config <;> simp [activeEntries, hholds]

theorem activeEntries_compileFrom {f : α → β} (hcontent : ∀ i e b, content i e = .ok b → b = f e)
    (config : Configuration) {index : Nat} {steps : List (Step β)}
    (h : compileFrom s list when_ content index entries = .ok steps) :
    activeEntries steps config = (entries.filter fun e => (when_ e).IsMet s.name config).map f := by
  induction entries generalizing steps index with
  | nil =>
      cases h
      rfl
  | cons e rest ih =>
      rw [compileFrom] at h
      split at h
      · cases h
      · next condition hcondition =>
        split at h
        · cases h
        · next b hb =>
          obtain ⟨more, hmore, rfl⟩ := exceptMap_ok.1 h
          obtain rfl := hcontent _ _ _ hb
          have hmet : condition.holds config ↔ (when_ e).IsMet s.name config :=
            (PackageSpec.parseWhen_ok.1 hcondition).1.holds_iff config
          by_cases hholds : condition.holds config
          · rw [activeEntries_cons, if_pos hholds, ih hmore, List.filter_cons_of_pos (by simpa using hmet.1 hholds),
              List.map_cons]
          · rw [activeEntries_cons, if_neg hholds, ih hmore,
              List.filter_cons_of_neg (by simpa using mt hmet.2 hholds)]

theorem activeEntries_compile {f : α → β} (hcontent : ∀ i e b, content i e = .ok b → b = f e)
    (config : Configuration) {steps : List (Step β)} (h : compile s list when_ content entries = .ok steps) :
    activeEntries steps config = (entries.filter fun e => (when_ e).IsMet s.name config).map f :=
  activeEntries_compileFrom hcontent config h

end

theorem exists_compileEdit_ok {package : String} {i : Nat} {e : EditEntry} :
    (∃ edit, compileEdit package i e = .ok edit) ↔ e.Readable := by
  rw [compileEdit, EditEntry.Readable]
  cases Regex.parse? (sourceOf e) <;> simp

theorem exists_checkCommand_ok {package : String} {i : Nat} {command : CommandEntry} :
    (∃ checked, checkCommand package i command = .ok checked) ↔ command.args ≠ [] := by
  unfold checkCommand
  split <;> simp_all

/-- Hooks can be made of exactly the build sections that can be read. -/
theorem exists_ofRecipe_ok : (∃ hooks, ofRecipe r s = .ok hooks) ↔ r.build.Readable s := by
  have hedits : (∃ steps, compile s .edits EditEntry.when (compileEdit s.name) r.build.edits = .ok steps) ↔
      (∀ w ∈ r.build.edits.map (·.when), s.Allows w) ∧ ∀ e ∈ r.build.edits, e.Readable :=
    exists_compile_ok fun _ _ => exists_compileEdit_ok
  have hcommands :
      (∃ steps, compile s .commands CommandEntry.when (checkCommand s.name) r.build.commands = .ok steps) ↔
        (∀ w ∈ r.build.commands.map (·.when), s.Allows w) ∧ ∀ c ∈ r.build.commands, c.args ≠ [] :=
    exists_compile_ok fun _ _ => exists_checkCommand_ok
  have hmade : ∀ hooks : RecipeHooks, ∃ h, (pure hooks : Except Error RecipeHooks) = .ok h :=
    fun hooks => ⟨hooks, rfl⟩
  -- No list waits for the steps of another, so the lists succeed together when each succeeds.
  simp only [ofRecipe, conditioned, exists_exceptBind_ok, hmade, and_true, exists_and_right, hedits,
    hcommands, exists_compile_ok_of_pure]
  constructor
  · rintro ⟨⟨hedits, hpatterns⟩, ⟨hcommands, hprograms⟩, hrest⟩
    refine ⟨?_, hprograms, hpatterns⟩
    simp only [BuildSection.clauses, List.forall_mem_append, and_assoc]
    exact ⟨hedits, hcommands, hrest⟩
  · rintro ⟨hclauses, hprograms, hpatterns⟩
    simp only [BuildSection.clauses, List.forall_mem_append, and_assoc] at hclauses
    obtain ⟨hedits, hcommands, hrest⟩ := hclauses
    exact ⟨⟨hedits, hpatterns⟩, ⟨hcommands, hprograms⟩, hrest⟩

theorem ofRecipe_package {hooks : RecipeHooks} (h : ofRecipe r s = .ok hooks) :
    hooks.package = s.name := by
  simp only [ofRecipe, exceptBind_ok] at h
  obtain ⟨_, -, _, -, _, -, _, -, _, -, _, -, _, -, _, -, _, -, hmade⟩ := h
  cases hmade
  rfl

end RecipeHooks

end PackageRecipes
