import PackageRecipes.Build.Hooks
import PackageRecipes.Proofs.Build.Plan

/-!
# The commands of a recipe

In each phase a recipe issues commands that its build context fixes: no file that is copied, edited or
installed in between has a say in them, and neither has the runner.
-/

namespace PackageRecipes

open PackageRecipes.Action

/-! ## Steps in a context -/

namespace BuildContext

variable {ctx : BuildContext} {step : Action Unit}

/-- The same build with its commands handed to another runner. -/
def withRunner (ctx : BuildContext) (runner : Runner) : BuildContext := { ctx with runner := runner }

theorem unlessDry_silent (h : Silent step) : Silent (ctx.unlessDry step) := by
  unfold unlessDry
  split
  · exact .pure _
  · exact h

theorem unlessDry_harmless (h : ctx.runner = .dry) : Harmless (ctx.unlessDry step) () := by
  rw [unlessDry, h]
  exact .pure _

theorem run_harmless (h : ctx.runner = .dry) (program : String) (args : List String) (cwd : Path) :
    Harmless (ctx.run program args cwd) () := by
  rw [run, h]
  exact .issue_dry _

end BuildContext

namespace RecipeHooks

variable (h : RecipeHooks) (ctx : BuildContext)

/-! ## What a phase is to issue -/

def makePlan (targets : List String) : List Invocation :=
  [⟨"make", h.makeArguments ctx ++ targets, h.makeDir ctx, ctx.environment.vars⟩]

def commandPlan (c : CommandEntry) : List Invocation :=
  match c.args.map ctx.substitute with
  | [] => []
  | program :: args =>
    [⟨program, args, (c.workdir.map ctx.sourcePath).getD (h.workDir ctx), ctx.environment.vars⟩]

def commandsPlan (phase : CommandPhase) : List Invocation :=
  ((activeEntries h.commands ctx.configuration).filter (·.phase = phase)).flatMap (h.commandPlan ctx)

def cmakePlan : List Invocation :=
  if h.buildSystem = .cmake then
    [⟨"cmake", h.cmakeArguments ctx, ctx.buildDir, ctx.environment.vars⟩]
  else []

def makeTargetsPlan : List Invocation :=
  let targets := (activeEntries h.targets ctx.configuration).map ctx.substitute
  if h.buildSystem ≠ .generic || !targets.isEmpty then h.makePlan ctx targets else []

def makeInstallPlan : List Invocation :=
  if h.makeInstall && h.buildSystem ≠ .generic then h.makePlan ctx [h.installTarget] else []

/-- The commands of a phase, in order. -/
def plan : Phase → List Invocation
  | .environment => []
  | .edit => h.commandsPlan ctx .edit
  | .configure => h.cmakePlan ctx ++ h.commandsPlan ctx .configure
  | .build => h.makeTargetsPlan ctx ++ h.commandsPlan ctx .build
  | .install => h.makeInstallPlan ctx ++ h.commandsPlan ctx .install

theorem plan_withRunner (runner : Runner) (phase : Phase) :
    h.plan (ctx.withRunner runner) phase = h.plan ctx phase := by
  cases phase <;> rfl

/-! ## Every phase follows its plan -/

theorem make_follows (targets : List String) :
    Follows (h.make ctx targets) (h.makePlan ctx targets) () := .issue _ _

theorem runCommands_follows (phase : CommandPhase) :
    Follows (h.runCommands ctx phase) (h.commandsPlan ctx phase) () := by
  refine .forM _ fun c _ => ?_
  unfold commandPlan
  cases c.args.map ctx.substitute with
  | nil => exact .pure _
  | cons program args =>
      cases c.workdir with
      | none => exact .issue _ _
      | some dir => exact .issue _ _

theorem copyFiles_silent : Silent (h.copyFiles ctx) :=
  .forM _ fun _ _ => BuildContext.unlessDry_silent (silent_onFiles _)

theorem editFiles_silent : Silent (h.editFiles ctx) :=
  .forM _ fun _ _ => BuildContext.unlessDry_silent ((silent_onFiles _).bind fun _ => .pure _)

theorem appendFiles_silent : Silent (h.appendFiles ctx) :=
  .forM _ fun _ _ => BuildContext.unlessDry_silent (silent_onFiles _)

theorem installFiles_silent (source target : Path) : Silent (installFiles source target) := by
  refine .bind (silent_onFiles _) fun files => .forM files fun file _ => ?_
  cases file.fileName? with
  | none => exact .pure _
  | some name => exact silent_onFiles _

theorem editPhase_follows : Follows (h.editPhase ctx) (h.plan ctx .edit) () :=
  .bind (h.copyFiles_silent ctx).follows <| .bind (h.editFiles_silent ctx).follows <|
    .bind (h.appendFiles_silent ctx).follows (h.runCommands_follows ctx .edit)

theorem configurePhase_follows : Follows (h.configurePhase ctx) (h.plan ctx .configure) () :=
  .guarded _ (.issue _ _) (h.runCommands_follows ctx .configure)

theorem buildPhase_follows : Follows (h.buildPhase ctx) (h.plan ctx .build) () :=
  .guarded _ (h.make_follows ctx _) (h.runCommands_follows ctx .build)

theorem installSteps_follow :
    Follows (do
      (activeEntries h.install ctx.configuration).forM fun a =>
        ctx.unlessDry (installFiles (h.workDir ctx / ctx.substitute a.source)
          (ctx.installDir / ctx.substitute a.target))
      h.runCommands ctx .install) (h.commandsPlan ctx .install) () := by
  have artifacts : Silent ((activeEntries h.install ctx.configuration).forM fun a =>
      ctx.unlessDry (installFiles (h.workDir ctx / ctx.substitute a.source)
        (ctx.installDir / ctx.substitute a.target))) :=
    .forM _ fun _ _ => BuildContext.unlessDry_silent (installFiles_silent _ _)
  exact .bind artifacts.follows (h.runCommands_follows ctx .install)

theorem installPhase_follows : Follows (h.installPhase ctx) (h.plan ctx .install) () :=
  .guarded _ (h.make_follows ctx _) (h.installSteps_follow ctx)

/-- Where `make` installs the package, it is called before anything else is issued. -/
theorem installPhase_starts {plan : List Invocation} (hcalled : h.makeInstall && h.buildSystem ≠ .generic)
    (hplan : Follows (h.installPhase ctx) plan ()) : h.makePlan ctx [h.installTarget] <+: plan := by
  rw [installPhase, if_pos hcalled] at hplan
  exact hplan.starts (h.installSteps_follow ctx)

/-! ## A dry run of a phase is harmless -/

section DryRun

variable {ctx} (hdry : ctx.runner = .dry)
include hdry

theorem runCommands_harmless (phase : CommandPhase) : Harmless (h.runCommands ctx phase) () := by
  refine .forM _ fun c _ => ?_
  simp only
  split
  · exact .pure _
  · exact BuildContext.run_harmless hdry _ _ _

theorem editPhase_harmless : Harmless (h.editPhase ctx) () := by
  have skipped : ∀ {α : Type} (xs : List α) (step : α → Action Unit),
      Harmless (xs.forM fun x => ctx.unlessDry (step x)) () :=
    fun xs _ => .forM xs fun _ _ => BuildContext.unlessDry_harmless hdry
  exact .bind (skipped _ _) <| .bind (skipped _ _) <| .bind (skipped _ _)
    (h.runCommands_harmless hdry .edit)

theorem configurePhase_harmless : Harmless (h.configurePhase ctx) () :=
  .guarded _ (BuildContext.run_harmless hdry _ _ _) (h.runCommands_harmless hdry .configure)

theorem buildPhase_harmless : Harmless (h.buildPhase ctx) () :=
  .guarded _ (BuildContext.run_harmless hdry _ _ _) (h.runCommands_harmless hdry .build)

theorem installPhase_harmless : Harmless (h.installPhase ctx) () := by
  have skipped : Harmless ((activeEntries h.install ctx.configuration).forM fun a =>
      ctx.unlessDry (installFiles (h.workDir ctx / ctx.substitute a.source)
        (ctx.installDir / ctx.substitute a.target))) () :=
    .forM _ fun _ _ => BuildContext.unlessDry_harmless hdry
  exact .guarded _ (BuildContext.run_harmless hdry _ _ _)
    (.bind skipped (h.runCommands_harmless hdry .install))

end DryRun

end RecipeHooks

end PackageRecipes
