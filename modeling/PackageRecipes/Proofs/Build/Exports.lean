import PackageRecipes.Build.Hooks
import PackageRecipes.Proofs.Build.Environment
import PackageRecipes.Proofs.Template

/-!
# What a package sets for its dependents

The values that a package sets for its dependents describe the package as it is installed, except for the name of the
compiler, which is the dependent's. Two dependents are given different values when a placeholder for the compiler
stands in an entry that no later entry undoes, and only then.
-/

namespace PackageRecipes

open Template

namespace Environment

variable {value value' old old' : String} {action : EnvAction}

/-! ## Changes to values of the same length -/

theorem length_extended (hvalue : value.length = value'.length) (hold : old.length = old'.length) :
    (extended action value old).length = (extended action value' old').length := by
  have hempty : old = "" ↔ old' = "" := by rw [← String.length_eq_zero_iff, hold, String.length_eq_zero_iff]
  cases action with
  | set => exact hvalue
  | prepend | append =>
      simp only [extended, hempty]
      split
      · exact hvalue
      · simp only [String.length_append, hvalue, hold]

theorem append_colon_inj {a a' b b' : String} (hlength : a.length = a'.length) :
    a ++ ":" ++ b = a' ++ ":" ++ b' ↔ a = a' ∧ b = b' := by
  constructor
  · intro h
    have hlists : a.toList.length = a'.toList.length := by rw [String.length_toList, String.length_toList, hlength]
    simp only [← String.toList_inj, String.toList_append, List.append_assoc] at h
    obtain ⟨hfront, hback⟩ := List.append_inj h hlists
    exact ⟨String.toList_inj.1 hfront, String.toList_inj.1 (List.append_cancel_left hback)⟩
  · rintro ⟨rfl, rfl⟩
    rfl

/-- Values and texts of the same lengths are put at the same places, so both can be told from what a change leaves. -/
theorem extended_inj (hvalue : value.length = value'.length) (hold : old.length = old'.length)
    (h : extended action value old = extended action value' old') :
    value = value' ∧ (action ≠ .set → old = old') := by
  have hempty : old = "" ↔ old' = "" := by rw [← String.length_eq_zero_iff, hold, String.length_eq_zero_iff]
  cases action with
  | set => exact ⟨h, fun hset => absurd rfl hset⟩
  | prepend =>
      simp only [extended, hempty] at h
      split at h
      · next hnone => exact ⟨h, fun _ => (hempty.2 hnone).trans hnone.symm⟩
      · exact ⟨((append_colon_inj hvalue).1 h).1, fun _ => ((append_colon_inj hvalue).1 h).2⟩
  | append =>
      simp only [extended, hempty] at h
      split at h
      · next hnone => exact ⟨h, fun _ => (hempty.2 hnone).trans hnone.symm⟩
      · exact ⟨((append_colon_inj hold).1 h).2, fun _ => ((append_colon_inj hold).1 h).1⟩

end Environment

namespace EnvEntry

/-! ## A run of entries -/

/-- What an entry asks for when the keys have the given values. -/
def change (lookup : String → Option String) (e : EnvEntry) : Environment.Change :=
  ⟨e.action, e.name, substitute e.value lookup⟩

/-- The environment that entries leave. -/
def applied (lookup : String → Option String) (inherited : ProcessEnv) (entries : List EnvEntry) (env : Environment) :
    Environment :=
  entries.foldl (fun env e => env.change inherited (e.change lookup)) env

/-- One of the entries sets the variable, whatever it was before. -/
def Resets (name : String) (entries : List EnvEntry) : Prop := ∃ e ∈ entries, e.name = name ∧ e.action = .set

/-- The placeholder of a key stands in an entry, and none of the later ones sets the same variable again. -/
inductive Shows (key : String) : List EnvEntry → Prop where
  | here {e : EnvEntry} {rest : List EnvEntry} (huses : Uses e.value key) (hlast : ¬ Resets e.name rest) :
      Shows key (e :: rest)
  | later {e : EnvEntry} {rest : List EnvEntry} (h : Shows key rest) : Shows key (e :: rest)

variable {lookup lookup' : String → Option String} {inherited : ProcessEnv} {entries : List EnvEntry}
  {env env' : Environment} {name key : String}

theorem Shows.exists_uses (h : Shows key entries) : ∃ e ∈ entries, Uses e.value key := by
  induction h with
  | @here e rest huses _ => exact ⟨e, List.mem_cons_self, huses⟩
  | later _ ih =>
      obtain ⟨e, hmem, huses⟩ := ih
      exact ⟨e, List.mem_cons_of_mem _ hmem, huses⟩

theorem applied_cons (e : EnvEntry) (rest : List EnvEntry) (env : Environment) :
    applied lookup inherited (e :: rest) env = applied lookup inherited rest (env.change inherited (e.change lookup)) :=
  rfl

theorem held_change_self (env : Environment) (e : EnvEntry) :
    (env.change inherited (e.change lookup)).held inherited e.name =
      Environment.extended e.action (substitute e.value lookup) (env.held inherited e.name) :=
  Environment.held_change_self env (e.change lookup)

theorem applied_ascending (h : env.vars.Ascending) : (applied lookup inherited entries env).vars.Ascending := by
  have happlied : applied lookup inherited entries env =
      (entries.map (change lookup)).foldl (Environment.change inherited) env := List.foldl_map.symm
  rw [happlied]
  exact Environment.foldl_ascending inherited _ h

theorem resets_cons {e : EnvEntry} :
    Resets name (e :: entries) ↔ (e.name = name ∧ e.action = .set) ∨ Resets name entries := by
  simp [Resets]

/-- Only the values of the keys that are shown count for what entries leave, and what a variable was before counts
only when they do not set it. -/
theorem get?_applied_congr (hkeys : ∀ key, Shows key entries → lookup key = lookup' key)
    (h : ¬ Resets name entries → env.get? name = env'.get? name) :
    (applied lookup inherited entries env).get? name = (applied lookup' inherited entries env').get? name := by
  induction entries generalizing env env' with
  | nil => exact h (by simp [Resets])
  | cons e rest ih =>
      rw [applied_cons, applied_cons]
      refine ih (fun key hshows => hkeys key (.later hshows)) fun hlast => ?_
      by_cases hname : e.name = name
      · subst hname
        have hvalue : e.change lookup' = e.change lookup := by
          rw [change, change, substitute_congr fun key huses => (hkeys key (.here huses hlast)).symm]
        rw [hvalue]
        cases haction : e.action with
        | set =>
            have hset (env : Environment) :
                (env.change inherited (e.change lookup)).get? e.name = some (substitute e.value lookup) := by
              refine (Environment.get?_change_self env (e.change lookup)).trans ?_
              rw [change, haction]
              rfl
            rw [hset, hset]
        | prepend | append =>
            refine Environment.get?_change_congr (h ?_) _
            rw [resets_cons, haction]
            simpa using hlast
      · rw [Environment.get?_change_other hname, Environment.get?_change_other hname]
        refine h ?_
        rw [resets_cons]
        simpa [hname] using hlast

section Lengths

variable (hlength : ∀ key, (lookup key).map String.length = (lookup' key).map String.length)

/-- The texts that the variables have in two environments are of the same lengths. -/
def SameLengths (inherited : ProcessEnv) (env env' : Environment) : Prop :=
  ∀ name, (env.held inherited name).length = (env'.held inherited name).length

include hlength

theorem SameLengths.change (h : SameLengths inherited env env') (e : EnvEntry) :
    SameLengths inherited (env.change inherited (e.change lookup)) (env'.change inherited (e.change lookup')) := by
  intro name
  by_cases hname : e.name = name
  · subst hname
    rw [held_change_self, held_change_self]
    exact Environment.length_extended (length_substitute hlength e.value) (h e.name)
  · rw [Environment.held_change_other hname, Environment.held_change_other hname, h name]

theorem held_applied_ne (h : SameLengths inherited env env')
    (hne : env.held inherited name ≠ env'.held inherited name) (hlast : ¬ Resets name entries) :
    (applied lookup inherited entries env).held inherited name ≠
      (applied lookup' inherited entries env').held inherited name := by
  induction entries generalizing env env' with
  | nil => exact hne
  | cons e rest ih =>
      rw [resets_cons, not_or] at hlast
      refine ih (SameLengths.change hlength h e) ?_ hlast.2
      by_cases hname : e.name = name
      · subst hname
        have hset : e.action ≠ .set := fun hset => hlast.1 ⟨rfl, hset⟩
        rw [held_change_self, held_change_self]
        exact fun heq => hne ((Environment.extended_inj (length_substitute hlength e.value) (h e.name) heq).2 hset)
      · rwa [Environment.held_change_other hname, Environment.held_change_other hname]

/-- A key that is shown and has another value of the same length leaves another text in some variable. -/
theorem exists_held_ne (hshows : Shows key entries) (hkey : lookup key ≠ lookup' key)
    (h : SameLengths inherited env env') :
    ∃ name, (applied lookup inherited entries env).held inherited name ≠
      (applied lookup' inherited entries env').held inherited name := by
  induction hshows generalizing env env' with
  | @here e rest huses hlast =>
      have hdiffer : (env.change inherited (e.change lookup)).held inherited e.name ≠
          (env'.change inherited (e.change lookup')).held inherited e.name := by
        rw [held_change_self, held_change_self]
        intro heq
        have hvalue := (Environment.extended_inj (length_substitute hlength e.value) (h e.name) heq).1
        exact hkey (substitute_inj hlength hvalue huses)
      refine ⟨e.name, ?_⟩
      rw [applied_cons, applied_cons]
      exact held_applied_ne hlength (SameLengths.change hlength h e) hdiffer hlast
  | later _ ih => exact ih (SameLengths.change hlength h _)

end Lengths

end EnvEntry

namespace RecipeHooks

open Text EnvEntry

/-! ## Placeholders of an installed package -/

/-- The keys that describe a package as it is installed. -/
inductive Describes : (key : String) → Prop where
  | name : Describes "name"
  | version : Describes "version"
  | installDir : Describes "prefix"
  | compiler : Describes "compiler"
  | variant (name : String) : Describes ("variant:" ++ name)

/-- The values that the package sets for its dependents use no other keys. -/
def DescribesItself (h : RecipeHooks) : Prop :=
  ∀ step ∈ h.dependentEnvironment, ∀ key, Uses step.entry.value key → Describes key

variable {ctx ctx' : BuildContext} {d : InstalledDependency} {key : String}

theorem dependentLookup_variant (ctx : BuildContext) (d : InstalledDependency) (name : String) :
    dependentLookup ctx d ("variant:" ++ name) = (d.configuration.variant? name).map VariantValue.render := by
  have hne {key : String} (h : key.toList.take 2 ≠ ['v', 'a']) : "variant:" ++ name ≠ key := by
    rintro rfl
    simp at h
  rw [dependentLookup]
  · rw [after?_append]
  all_goals exact hne (by decide)

/-- The name of the compiler is all that such a key takes from the dependent. -/
theorem dependentLookup_congr (hkey : Describes key)
    (hcompiler : key = "compiler" →
      ctx.configuration.compiler.map Compiler.name = ctx'.configuration.compiler.map Compiler.name) :
    dependentLookup ctx d key = dependentLookup ctx' d key := by
  cases hkey with
  | name | version | installDir => rfl
  | compiler => exact hcompiler rfl
  | variant name => rw [dependentLookup_variant, dependentLookup_variant]

theorem mem_activeEntries {α : Type} {steps : List (Step α)} {config : Configuration} {entry : α}
    (h : entry ∈ activeEntries steps config) : ∃ step ∈ steps, step.entry = entry := by
  obtain ⟨step, hstep, rfl⟩ := List.mem_map.1 h
  exact ⟨step, List.mem_of_mem_filter hstep, rfl⟩

/-! ## Two dependents -/

variable {h : RecipeHooks} {env : Environment}

theorem setupDependentEnvironment_congr (hinherited : ctx'.inherited = ctx.inherited) (henv : env.vars.Ascending)
    (hkeys : ∀ key, Shows key (activeEntries h.dependentEnvironment d.configuration) →
      dependentLookup ctx' d key = dependentLookup ctx d key) :
    h.toHooks.setupDependentEnvironment ctx' d env = h.toHooks.setupDependentEnvironment ctx d env := by
  have hvars : (applied (dependentLookup ctx' d) ctx.inherited
      (activeEntries h.dependentEnvironment d.configuration) env).vars =
        (applied (dependentLookup ctx d) ctx.inherited
          (activeEntries h.dependentEnvironment d.configuration) env).vars :=
    (applied_ascending henv).ext (applied_ascending henv) fun name => get?_applied_congr hkeys fun _ => rfl
  show (pure (applied _ ctx'.inherited _ env) : Action Environment) = pure (applied _ ctx.inherited _ env)
  rw [hinherited]
  exact congrArg (fun vars => (pure (Environment.mk vars) : Action Environment)) hvars

/-- A build with the given compiler. -/
def builtWith (compiler : String) : BuildContext where
  spec := ⟨"app", none, none, .generic, true, [], [], [], []⟩
  configuration := (Configuration.bare "app" ⟨"1.0", [.number 1, .number 0]⟩).withCompiler ⟨compiler, none⟩
  installDir := ⟨"/opt/app"⟩
  sourceDir := ⟨"/src"⟩
  dependencyDirs := .empty
  environment := .empty
  jobs := 4
  runner := .recording
  inherited := .empty

theorem length_dependentLookup_builtWith (d : InstalledDependency) (key : String) :
    (dependentLookup (builtWith "gcc") d key).map String.length =
      (dependentLookup (builtWith "icc") d key).map String.length := by
  unfold dependentLookup
  split
  · rfl
  · rfl
  · rfl
  · split
    · rfl
    · unfold BuildContext.lookup
      split
      · rfl
      · split
        · rfl
        · split <;> rfl

theorem not_shows_compiler
    (hsame : h.toHooks.setupDependentEnvironment (builtWith "gcc") d .empty =
      h.toHooks.setupDependentEnvironment (builtWith "icc") d .empty) :
    ¬ Shows "compiler" (activeEntries h.dependentEnvironment d.configuration) := by
  intro hshows
  have hdiffer : dependentLookup (builtWith "gcc") d "compiler" ≠ dependentLookup (builtWith "icc") d "compiler" := by
    show some "gcc" ≠ some "icc"
    decide
  have hsizes : SameLengths .empty .empty .empty := fun _ => rfl
  obtain ⟨name, hname⟩ := exists_held_ne (length_dependentLookup_builtWith d) hshows hdiffer hsizes
  have hrun := congrArg (fun action : Action Environment => (action.runOn ⟨.empty, []⟩).1) hsame
  exact hname (congrArg (·.held .empty name) (Except.ok.inj hrun))

/-- When the values for dependents use no keys but those that describe the package, dependents with compilers of the
same name are given the same; and all dependents are given the same just when the compiler is not shown. -/
theorem exports_iff {h : RecipeHooks} (hkeys : h.DescribesItself) (d : InstalledDependency) :
    (∀ (ctx ctx' : BuildContext) (env : Environment), ctx'.inherited = ctx.inherited → env.vars.Ascending →
      ctx'.configuration.compiler.map Compiler.name = ctx.configuration.compiler.map Compiler.name →
      h.toHooks.setupDependentEnvironment ctx' d env = h.toHooks.setupDependentEnvironment ctx d env) ∧
    ((∀ (ctx ctx' : BuildContext) (env : Environment), ctx'.inherited = ctx.inherited → env.vars.Ascending →
      h.toHooks.setupDependentEnvironment ctx' d env = h.toHooks.setupDependentEnvironment ctx d env) ↔
        ¬ Shows "compiler" (activeEntries h.dependentEnvironment d.configuration)) := by
  have describes {key : String} (hshows : Shows key (activeEntries h.dependentEnvironment d.configuration)) :
      Describes key := by
    obtain ⟨e, he, huses⟩ := hshows.exists_uses
    obtain ⟨step, hstep, rfl⟩ := mem_activeEntries he
    exact hkeys step hstep key huses
  refine ⟨?_, fun hsame => ?_, fun hnone ctx ctx' env hinherited henv => ?_⟩
  · intro ctx ctx' env hinherited henv hcompiler
    exact setupDependentEnvironment_congr hinherited henv fun key hshows =>
      dependentLookup_congr (describes hshows) fun _ => hcompiler
  · exact not_shows_compiler (hsame (builtWith "icc") (builtWith "gcc") .empty rfl NameMap.empty_ascending)
  · exact setupDependentEnvironment_congr hinherited henv fun key hshows =>
      dependentLookup_congr (describes hshows) fun hkey => absurd (hkey ▸ hshows) hnone

/-- The hooks of a library that does nothing but set variables for its dependents. -/
def exporting (entries : List EnvEntry) : RecipeHooks where
  package := "lib"
  buildSystem := .generic
  workdir := none
  makefile := none
  makeArgs := []
  installTarget := "install"
  makeInstall := true
  targets := []
  environment := []
  dependentEnvironment := entries.map fun e => ⟨.always, e⟩
  copies := []
  edits := []
  appends := []
  cmakeArgs := []
  commands := []
  install := []

/-- The library as it is installed, built with a compiler of its own. -/
def library : InstalledDependency where
  configuration := (Configuration.bare "lib" ⟨"1.0", [.number 1, .number 0]⟩).withCompiler ⟨"clang", none⟩
  installDir := ⟨"/opt/lib"⟩

def compilerEntry : EnvEntry := ⟨"LIB_CC", "%(compiler)s", .set, none⟩

def wrapperEntry : EnvEntry := ⟨"LIB_CC", "%(prefix)s/bin/cc", .set, none⟩

theorem uses_compilerEntry : Uses compilerEntry.value key ↔ key = "compiler" :=
  uses_leading_iff [] ⟨by decide, by simp [KeyChar]⟩ (by simp) rfl

theorem uses_wrapperEntry : Uses wrapperEntry.value key ↔ key = "prefix" :=
  uses_leading_iff "/bin/cc".toList ⟨by decide, by simp [KeyChar]⟩ (by simp) rfl

theorem exports_wrapper :
    (exporting [compilerEntry, wrapperEntry]).DescribesItself ∧
    ∀ (ctx ctx' : BuildContext) (env : Environment), ctx'.inherited = ctx.inherited → env.vars.Ascending →
      (exporting [compilerEntry, wrapperEntry]).toHooks.setupDependentEnvironment ctx' library env =
        (exporting [compilerEntry, wrapperEntry]).toHooks.setupDependentEnvironment ctx library env := by
  have hkeys : (exporting [compilerEntry, wrapperEntry]).DescribesItself := by
    simp only [DescribesItself, exporting, List.map_cons, List.map_nil, List.forall_mem_cons, uses_compilerEntry,
      uses_wrapperEntry]
    refine ⟨?_, ?_, List.forall_mem_nil _⟩
    · rintro _ rfl
      exact .compiler
    · rintro _ rfl
      exact .installDir
  refine ⟨hkeys, (exports_iff hkeys library).2.2 ?_⟩
  -- the compiler's entry is undone, and the other one does not mention it
  show ¬ Shows "compiler" [compilerEntry, wrapperEntry]
  intro hshows
  cases hshows with
  | here _ hlast => exact hlast ⟨wrapperEntry, List.mem_cons_self, rfl, rfl⟩
  | later hshows =>
      cases hshows with
      | here huses _ => exact absurd (uses_wrapperEntry.1 huses) (by decide)
      | later hshows => cases hshows

/-- A recipe for the library, as its author writes it. -/
def libraryRecipe (entries : List EnvEntry) : Recipe where
  package := ⟨"lib", none, none, .generic, true, none, none⟩
  versions := [⟨"1.0", some "lib.tar.gz", none, none, none, none, none, none, none, none, false, false⟩]
  variants := []
  depends := []
  conflicts := []
  build := { BuildSection.empty with dependentEnvironment := entries }

def librarySpec : PackageSpec where
  name := "lib"
  summary := none
  homepage := none
  buildSystem := .generic
  parallel := true
  versions := [⟨⟨"1.0", [.number 1, .number 0]⟩, .archive "lib.tar.gz", none, false⟩]
  variants := []
  dependencies := []
  conflicts := []

/-- What a recipe sets for its dependents can tell the dependent's compiler. -/
theorem not_exports : ¬ ∀ (recipe : Recipe) (s : PackageSpec) (h : RecipeHooks) (d : InstalledDependency),
      recipe.toSpec = .ok s → ofRecipe recipe s = .ok h → h.DescribesItself →
      ∀ (ctx ctx' : BuildContext) (env : Environment), ctx'.inherited = ctx.inherited → env.vars.Ascending →
        h.toHooks.setupDependentEnvironment ctx' d env = h.toHooks.setupDependentEnvironment ctx d env := by
  intro hall
  have hkeys : (exporting [compilerEntry]).DescribesItself := by
    simp only [DescribesItself, exporting, List.map_cons, List.map_nil, List.forall_mem_singleton, uses_compilerEntry]
    rintro _ rfl
    exact .compiler
  have hspec : (libraryRecipe [compilerEntry]).toSpec = .ok librarySpec := rfl
  have hhooks : ofRecipe (libraryRecipe [compilerEntry]) librarySpec = .ok (exporting [compilerEntry]) := rfl
  have hsame := hall _ _ _ library hspec hhooks hkeys (builtWith "icc") (builtWith "gcc") .empty rfl
    NameMap.empty_ascending
  have hlast : ¬ Resets "LIB_CC" [] := by simp [Resets]
  exact not_shows_compiler hsame (.here (uses_compilerEntry.2 rfl) hlast)

end RecipeHooks

end PackageRecipes
