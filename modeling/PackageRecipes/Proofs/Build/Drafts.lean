import PackageRecipes.Proofs.Build.Compilation
import PackageRecipes.Proofs.Build.RecipePlan

/-!
# Commands as they are written

A recipe drafts its commands with placeholders, and a phase issues these drafts with every placeholder expanded. There
is one exception: the target that is made to install the package is handed on as it is written.
-/

namespace PackageRecipes

open PackageRecipes.Action

/-! ## Drafts -/

/-- A word of a command: one that the build gives, or a text of the recipe behind a fixed beginning. -/
inductive Draft.Word where
  | given (text : String)
  | written (start text : String)

def Draft.Word.expand (ctx : BuildContext) : Word → String
  | given text => text
  | written start text => start ++ ctx.substitute text

/-- A text of the recipe as a word of its own. -/
def Draft.Word.text (text : String) : Word := .written "" text

@[simp]
theorem Draft.Word.expand_given (ctx : BuildContext) (text : String) : (Word.given text).expand ctx = text := rfl

@[simp]
theorem Draft.Word.expand_text (ctx : BuildContext) (text : String) :
    (Word.text text).expand ctx = ctx.substitute text := String.empty_append

/-- The directory of a command: one that the build gives, or one that the recipe names. -/
inductive Draft.Place where
  | given (dir : Path)
  | written (dir : String)

def Draft.Place.expand (ctx : BuildContext) : Place → Path
  | given dir => dir
  | written dir => ctx.sourceDir / ctx.substitute dir

@[simp]
theorem Draft.Place.expand_given (ctx : BuildContext) (dir : Path) : (Place.given dir).expand ctx = dir := rfl

/-- A command before its placeholders are expanded. -/
structure Draft where
  program : Draft.Word
  args : List Draft.Word
  place : Draft.Place

def Draft.expand (ctx : BuildContext) (d : Draft) : Invocation :=
  ⟨d.program.expand ctx, d.args.map (·.expand ctx), d.place.expand ctx, ctx.environment.vars⟩

namespace Recipe

variable (r : Recipe) (s : PackageSpec) (ctx : BuildContext)

/-- The entries of a list whose clauses are met. -/
def met {α : Type} (when_ : α → When) (entries : List α) : List α :=
  entries.filter fun e => (when_ e).IsMet s.name ctx.configuration

/-- The directory that commands run in unless they name another one. -/
def workPlace : Draft.Place :=
  match r.build.workdir with
  | some dir => .written dir
  | none => .given ctx.sourceDir

def commandDraft (c : CommandEntry) : Option Draft :=
  match c.args with
  | [] => none
  | program :: args =>
    some ⟨.text program, args.map .text, (c.workdir.map .written).getD (r.workPlace ctx)⟩

def commandDrafts (phase : CommandPhase) : List Draft :=
  ((met s ctx CommandEntry.when r.build.commands).filter (·.phase = phase)).filterMap (r.commandDraft ctx)

/-- The directory that `make` runs in. -/
def makePlace : Draft.Place := if s.buildSystem = .cmake then .given ctx.buildDir else r.workPlace ctx

def makeDraft (targets : List Draft.Word) : Draft where
  program := .given "make"
  args := .given s!"-j{ctx.makeJobs}"
    :: ((r.build.makefile.map (.written "--makefile=")).toList ++ r.build.makeArgs.map .text ++ targets)
  place := r.makePlace s ctx

def cmakeDraft : Draft where
  program := .given "cmake"
  args := .given ctx.sourceDir.text :: .given s!"-DCMAKE_INSTALL_PREFIX={ctx.installDir}"
    :: (met s ctx ArgsEntry.when r.build.cmakeArgs).flatMap (·.args.map .text)
  place := .given ctx.buildDir

/-- The target that is made to install the package, as a word for what the recipe names. -/
def installWord (named : String → Draft.Word) : Draft.Word := (r.build.installTarget.map named).getD (.given "install")

def targetDrafts : List Draft :=
  let targets := met s ctx TargetEntry.when r.build.targets
  if s.buildSystem ≠ .generic ∨ targets ≠ [] then [r.makeDraft s ctx (targets.map fun t => .text t.target)] else []

def installDrafts (named : String → Draft.Word) : List Draft :=
  if r.build.makeInstall ∧ s.buildSystem ≠ .generic then [r.makeDraft s ctx [r.installWord named]] else []

/-- The commands of a phase, in order. The target that is made to install the package may be taken as it is written, or
as a text with placeholders. -/
def drafts (named : String → Draft.Word) : CommandPhase → List Draft
  | .edit => r.commandDrafts s ctx .edit
  | .configure => (if s.buildSystem = .cmake then [r.cmakeDraft s ctx] else []) ++ r.commandDrafts s ctx .configure
  | .build => r.targetDrafts s ctx ++ r.commandDrafts s ctx .build
  | .install => r.installDrafts s ctx named ++ r.commandDrafts s ctx .install

theorem expand_makeDraft_inj {a b : Draft.Word} :
    (r.makeDraft s ctx [a]).expand ctx = (r.makeDraft s ctx [b]).expand ctx ↔ a.expand ctx = b.expand ctx := by
  simp [Draft.expand, makeDraft]

theorem expand_installWord_iff :
    (r.installWord .given).expand ctx = (r.installWord .text).expand ctx ↔
      ∀ target ∈ r.build.installTarget, ctx.substitute target = target := by
  rw [installWord, installWord]
  cases r.build.installTarget <;> simp [eq_comm]

end Recipe

/-- What is done in a phase that commands can be given for. -/
def Hooks.perform (hooks : Hooks) : CommandPhase → BuildContext → Action Unit
  | .edit => hooks.edit
  | .configure => hooks.configure
  | .build => hooks.build
  | .install => hooks.install

namespace RecipeHooks

variable {h : RecipeHooks} {r : Recipe} {s : PackageSpec}

/-! ## Hooks and their recipe -/

/-- What the hooks have from the recipe; of a list the entries whose clauses are met. -/
structure Reflects (h : RecipeHooks) (r : Recipe) (s : PackageSpec) : Prop where
  buildSystem : h.buildSystem = s.buildSystem
  workdir : h.workdir = r.build.workdir
  makefile : h.makefile = r.build.makefile
  makeArgs : h.makeArgs = r.build.makeArgs
  installTarget : h.installTarget = r.build.installTarget.getD "install"
  makeInstall : h.makeInstall = r.build.makeInstall
  targets (ctx : BuildContext) : activeEntries h.targets ctx.configuration =
    (Recipe.met s ctx TargetEntry.when r.build.targets).map TargetEntry.target
  cmakeArgs (ctx : BuildContext) : activeEntries h.cmakeArgs ctx.configuration =
    (Recipe.met s ctx ArgsEntry.when r.build.cmakeArgs).map ArgsEntry.args
  commands (ctx : BuildContext) : activeEntries h.commands ctx.configuration =
    Recipe.met s ctx CommandEntry.when r.build.commands

theorem reflects_of_ofRecipe (hmade : ofRecipe r s = .ok h) : h.Reflects r s := by
  simp only [ofRecipe, exceptBind_ok] at hmade
  obtain ⟨_, -, commands, hcommands, targets, htargets, _, -, _, -, _, -, _, -, cmakeArgs, hcmakeArgs, _, -, hmade⟩ :=
    hmade
  cases hmade
  have hchecked : ∀ i e c, checkCommand s.name i e = .ok c → c = e := by
    intro i e c hc
    unfold checkCommand at hc
    split at hc <;> cases hc
    rfl
  constructor
  case buildSystem | workdir | makefile | makeArgs | installTarget | makeInstall => rfl
  case targets => exact fun ctx => activeEntries_compile (fun _ _ _ h => (Except.ok.inj h).symm) _ htargets
  case cmakeArgs => exact fun ctx => activeEntries_compile (fun _ _ _ h => (Except.ok.inj h).symm) _ hcmakeArgs
  case commands => exact fun ctx => (activeEntries_compile hchecked _ hcommands).trans (List.map_id _)

/-! ## Plans and drafts -/

namespace Reflects

variable (hr : h.Reflects r s) (ctx : BuildContext)
include hr

theorem expand_workPlace : (r.workPlace ctx).expand ctx = h.workDir ctx := by
  rw [Recipe.workPlace, workDir, hr.workdir]
  cases r.build.workdir <;> rfl

theorem commandPlan_eq (c : CommandEntry) :
    h.commandPlan ctx c = ((r.commandDraft ctx c).map (·.expand ctx)).toList := by
  unfold commandPlan Recipe.commandDraft
  cases c.args with
  | nil => rfl
  | cons program args =>
      have hplace : (c.workdir.map ctx.sourcePath).getD (h.workDir ctx) =
          ((c.workdir.map .written).getD (r.workPlace ctx)).expand ctx := by
        rw [← hr.expand_workPlace ctx]
        cases c.workdir <;> rfl
      simp [Draft.expand, hplace]

theorem commandsPlan_eq (phase : CommandPhase) :
    h.commandsPlan ctx phase = (r.commandDrafts s ctx phase).map (·.expand ctx) := by
  rw [commandsPlan, hr.commands, Recipe.commandDrafts, List.map_filterMap, List.filterMap_eq_flatMap_toList]
  exact List.flatMap_congr fun c _ => hr.commandPlan_eq ctx c

theorem expand_makePlace : h.makeDir ctx = (r.makePlace s ctx).expand ctx := by
  rw [makeDir, Recipe.makePlace, hr.buildSystem, ← hr.expand_workPlace ctx]
  cases s.buildSystem <;> rfl

theorem makePlan_eq (targets : List Draft.Word) :
    h.makePlan ctx (targets.map (·.expand ctx)) = [(r.makeDraft s ctx targets).expand ctx] := by
  have hmakefile : (h.makefile.map fun f => "--makefile=" ++ ctx.substitute f).toList =
      (r.build.makefile.map (Draft.Word.written "--makefile=")).toList.map (·.expand ctx) := by
    rw [hr.makefile]
    cases r.build.makefile <;> rfl
  simp [makePlan, makeArguments, Recipe.makeDraft, Draft.expand, hr.expand_makePlace, hmakefile, hr.makeArgs]

theorem cmakePlan_eq : h.cmakePlan ctx =
    (if s.buildSystem = .cmake then [r.cmakeDraft s ctx] else []).map (·.expand ctx) := by
  rw [cmakePlan, hr.buildSystem]
  split
  · simp [cmakeArguments, hr.cmakeArgs, Recipe.cmakeDraft, Draft.expand, List.flatMap_def, Function.comp_def]
  · rfl

theorem makeTargetsPlan_eq : h.makeTargetsPlan ctx = (r.targetDrafts s ctx).map (·.expand ctx) := by
  have htargets : (activeEntries h.targets ctx.configuration).map ctx.substitute =
      ((Recipe.met s ctx TargetEntry.when r.build.targets).map fun t => Draft.Word.text t.target).map
        (·.expand ctx) := by
    simp [hr.targets]
  simp only [makeTargetsPlan, Recipe.targetDrafts, htargets, hr.makePlan_eq]
  by_cases hcalled : s.buildSystem ≠ .generic ∨ Recipe.met s ctx TargetEntry.when r.build.targets ≠ []
  · rw [if_pos hcalled, if_pos (by simpa [hr.buildSystem] using hcalled)]
    rfl
  · rw [if_neg hcalled, if_neg (by simpa [hr.buildSystem] using hcalled)]
    rfl

theorem makePlan_installTarget :
    h.makePlan ctx [h.installTarget] = [(r.makeDraft s ctx [r.installWord .given]).expand ctx] := by
  have htarget : [h.installTarget] = [r.installWord .given].map (·.expand ctx) := by
    rw [hr.installTarget, Recipe.installWord]
    cases r.build.installTarget <;> rfl
  rw [htarget, hr.makePlan_eq]

theorem makeInstallPlan_eq : h.makeInstallPlan ctx = (r.installDrafts s ctx .given).map (·.expand ctx) := by
  simp only [makeInstallPlan, Recipe.installDrafts, hr.makePlan_installTarget]
  by_cases hcalled : r.build.makeInstall ∧ s.buildSystem ≠ .generic
  · rw [if_pos hcalled, if_pos (by simpa [hr.makeInstall, hr.buildSystem] using hcalled)]
    rfl
  · rw [if_neg hcalled, if_neg (by simpa [hr.makeInstall, hr.buildSystem] using hcalled)]
    rfl

/-- The build gives the target of `make` that installs the package; every other text of the recipe is expanded. -/
theorem perform_follows (phase : CommandPhase) :
    Follows (h.toHooks.perform phase ctx) ((r.drafts s ctx .given phase).map (·.expand ctx)) () := by
  cases phase with
  | edit =>
      rw [Recipe.drafts, ← hr.commandsPlan_eq]
      exact h.editPhase_follows ctx
  | configure =>
      rw [Recipe.drafts, List.map_append, ← hr.commandsPlan_eq, ← hr.cmakePlan_eq]
      exact h.configurePhase_follows ctx
  | build =>
      rw [Recipe.drafts, List.map_append, ← hr.commandsPlan_eq, ← hr.makeTargetsPlan_eq]
      exact h.buildPhase_follows ctx
  | install =>
      rw [Recipe.drafts, List.map_append, ← hr.commandsPlan_eq, ← hr.makeInstallPlan_eq]
      exact h.installPhase_follows ctx

theorem installPhase_follows_iff :
    Follows (h.installPhase ctx) ((r.drafts s ctx .text .install).map (·.expand ctx)) () ↔
      (r.build.makeInstall → s.buildSystem ≠ .generic →
        ∀ target ∈ r.build.installTarget, ctx.substitute target = target) := by
  rw [← r.expand_installWord_iff ctx]
  by_cases hcalled : r.build.makeInstall ∧ s.buildSystem ≠ .generic
  case neg =>
    have hsame : r.drafts s ctx .text .install = r.drafts s ctx .given .install := by
      rw [Recipe.drafts, Recipe.drafts, Recipe.installDrafts, Recipe.installDrafts, if_neg hcalled, if_neg hcalled]
    rw [hsame]
    exact iff_of_true (hr.perform_follows ctx .install) fun hmake hbuild => absurd ⟨hmake, hbuild⟩ hcalled
  have hdrafts (named : String → Draft.Word) : r.drafts s ctx named .install =
      r.makeDraft s ctx [r.installWord named] :: r.commandDrafts s ctx .install := by
    rw [Recipe.drafts, Recipe.installDrafts, if_pos hcalled]
    rfl
  constructor
  · -- `make` comes first, so the first draft has to be the one with the target as it is written.
    intro hfollows _ _
    have hstart := h.installPhase_starts ctx (by simpa [hr.makeInstall, hr.buildSystem] using hcalled) hfollows
    rw [hr.makePlan_installTarget, hdrafts, List.map_cons, List.cons_prefix_cons, r.expand_makeDraft_inj] at hstart
    exact hstart.1
  · intro hplain
    have hfollows := hr.perform_follows ctx .install
    rwa [hdrafts, List.map_cons, (r.expand_makeDraft_inj s ctx).2 (hplain hcalled.1 hcalled.2), ← List.map_cons,
      ← hdrafts] at hfollows

end Reflects

/-- Each phase issues the commands of the recipe with their placeholders expanded, but the target that is made to
install the package is handed on as it is written. This shows unless no such target is made, or its expansion is the
target itself. -/
theorem follows_drafts_iff (hmade : ofRecipe r s = .ok h) (ctx : BuildContext) (phase : CommandPhase) :
    Follows (h.toHooks.perform phase ctx) ((r.drafts s ctx .given phase).map (·.expand ctx)) () ∧
      (Follows (h.toHooks.perform phase ctx) ((r.drafts s ctx .text phase).map (·.expand ctx)) () ↔
        (phase = .install → r.build.makeInstall → s.buildSystem ≠ .generic →
          ∀ target ∈ r.build.installTarget, ctx.substitute target = target)) := by
  have hr := reflects_of_ofRecipe hmade
  refine ⟨hr.perform_follows ctx phase, ?_⟩
  cases phase with
  | edit => exact iff_of_true (hr.perform_follows ctx .edit) nofun
  | configure => exact iff_of_true (hr.perform_follows ctx .configure) nofun
  | build => exact iff_of_true (hr.perform_follows ctx .build) nofun
  | install => exact (hr.installPhase_follows_iff ctx).trans ⟨fun hplain _ => hplain, fun hplain => hplain rfl⟩

/-- A package with placeholders in everything that it hands to `make`. -/
def solver : Recipe where
  package := ⟨"solver", none, none, .makefile, true, none, none⟩
  versions := [⟨"1.0", some "source", none, none, none, none, none, none, none, none, false, false⟩]
  variants := [⟨"mpi", .bool true, none, false, none⟩]
  depends := []
  conflicts := []
  build := { BuildSection.empty with
    workdir := some "%(name)s-%(version)s"
    makefile := some "%(name)s.mk"
    makeArgs := ["PREFIX=%(prefix)s"]
    targets := [⟨"%(name)s", none⟩, ⟨"%(name)s-mpi", some (.one "+mpi")⟩, ⟨"%(name)s-serial", some (.one "~mpi")⟩]
    installTarget := some "install-%(name)s"
    commands := [⟨.install, ["strip", "%(prefix)s/bin/%(name)s"], none, none⟩] }

def solverSpec : PackageSpec where
  name := "solver"
  summary := none
  homepage := none
  buildSystem := .makefile
  parallel := true
  versions := [⟨⟨"1.0", [.number 1, .number 0]⟩, .archive "source", none, false⟩]
  variants := [⟨"mpi", .boolean, .bool true, [], none⟩]
  dependencies := []
  conflicts := []

theorem toSpec_solver : solver.toSpec = .ok solverSpec := by rfl

theorem exists_ofRecipe_solver : ∃ h, ofRecipe solver solverSpec = .ok h := by
  have accepted : (ofRecipe solver solverSpec).toBool := by decide +kernel
  cases h : ofRecipe solver solverSpec with
  | error e => rw [h] at accepted; cases accepted
  | ok hooks => exact ⟨hooks, rfl⟩

def solverBuild : BuildContext where
  spec := solverSpec
  configuration := (Configuration.bare "solver" ⟨"1.0", [.number 1, .number 0]⟩).withVariant "mpi" (.bool true)
  installDir := ⟨"/opt/solver"⟩
  sourceDir := ⟨"/src"⟩
  dependencyDirs := .empty
  environment := .empty
  jobs := 4
  runner := .recording
  inherited := .empty

theorem follows_drafts_solver : ∃ h, ofRecipe solver solverSpec = .ok h ∧
    Follows (h.toHooks.perform .install solverBuild)
      ((solver.drafts solverSpec solverBuild .given .install).map (·.expand solverBuild)) () ∧
    (Follows (h.toHooks.perform .install solverBuild)
      ((solver.drafts solverSpec solverBuild .text .install).map (·.expand solverBuild)) () ↔
        (CommandPhase.install = .install → solver.build.makeInstall → solverSpec.buildSystem ≠ .generic →
          ∀ target ∈ solver.build.installTarget, solverBuild.substitute target = target)) := by
  obtain ⟨h, hmade⟩ := exists_ofRecipe_solver
  exact ⟨h, hmade, follows_drafts_iff hmade solverBuild .install⟩

/-- Not every placeholder of a command is expanded. -/
theorem not_follows_drafts : ¬ ∀ (r : Recipe) (s : PackageSpec) (h : RecipeHooks) (ctx : BuildContext)
    (phase : CommandPhase), r.toSpec = .ok s → ofRecipe r s = .ok h →
      Follows (h.toHooks.perform phase ctx) ((r.drafts s ctx .text phase).map (·.expand ctx)) () := by
  intro hall
  obtain ⟨h, hmade⟩ := exists_ofRecipe_solver
  have hfollows := hall solver solverSpec h solverBuild .install toSpec_solver hmade
  have hplain := ((reflects_of_ofRecipe hmade).installPhase_follows_iff solverBuild).1 hfollows rfl (by decide)
    "install-%(name)s" rfl
  exact absurd hplain (by decide +kernel)

example : (solver.drafts solverSpec solverBuild .text .build).map (·.expand solverBuild) =
    [⟨"make", ["-j4", "--makefile=solver.mk", "PREFIX=/opt/solver", "solver", "solver-mpi"], ⟨"/src/solver-1.0"⟩,
      .empty⟩] := by
  decide +kernel

end RecipeHooks

end PackageRecipes
