import PackageRecipes.Build.Builder
import PackageRecipes.Proofs.Build.RecipePlan
import PackageRecipes.Proofs.Recipe.Declare
import PackageRecipes.Proofs.Repository.Basic

/-!
# Dry runs are faithful

A dry run of a build issues every command that a real build would issue, in the same order and with
the same environment, whatever the commands of the real build do; and it leaves all files alone.
-/

namespace PackageRecipes

open PackageRecipes.Action

/-- Hooks whose dry run rehearses the real one. -/
structure Hooks.Rehearsable (hooks : Hooks) : Prop where
  setupEnvironment (ctx : BuildContext) (env : Environment) :
    Rehearses Eq (hooks.setupEnvironment ctx env) (hooks.setupEnvironment (ctx.withRunner .dry) env)
  setupDependentEnvironment (ctx : BuildContext) (d : InstalledDependency) (env : Environment) :
    Rehearses Eq (hooks.setupDependentEnvironment ctx d env)
      (hooks.setupDependentEnvironment (ctx.withRunner .dry) d env)
  edit (ctx : BuildContext) : Rehearses Eq (hooks.edit ctx) (hooks.edit (ctx.withRunner .dry))
  configure (ctx : BuildContext) :
    Rehearses Eq (hooks.configure ctx) (hooks.configure (ctx.withRunner .dry))
  build (ctx : BuildContext) : Rehearses Eq (hooks.build ctx) (hooks.build (ctx.withRunner .dry))
  install (ctx : BuildContext) :
    Rehearses Eq (hooks.install ctx) (hooks.install (ctx.withRunner .dry))

theorem Hooks.none_rehearsable : Hooks.none.Rehearsable where
  setupEnvironment _ _ := .pure rfl
  setupDependentEnvironment _ _ _ := .pure rfl
  edit _ := .pure rfl
  configure _ := .pure rfl
  build _ := .pure rfl
  install _ := .pure rfl

namespace RecipeHooks

/-- A phase whose plan is blind to the runner is rehearsed when it follows that plan. -/
theorem rehearses_of_plan (h : RecipeHooks) (phase : Phase) {act : BuildContext → Action Unit}
    (follows : ∀ ctx, Follows (act ctx) (h.plan ctx phase) ())
    (harmless : ∀ ctx, ctx.runner = .dry → Harmless (act ctx) ()) (ctx : BuildContext) :
    Rehearses Eq (act ctx) (act (ctx.withRunner .dry)) := by
  have dry := follows (ctx.withRunner .dry)
  rw [h.plan_withRunner] at dry
  exact ⟨_, (), (), rfl, follows ctx, dry, harmless _ rfl⟩

theorem toHooks_rehearsable (h : RecipeHooks) : h.toHooks.Rehearsable where
  setupEnvironment _ _ := .pure rfl
  setupDependentEnvironment _ _ _ := .pure rfl
  edit := h.rehearses_of_plan .edit h.editPhase_follows fun _ => h.editPhase_harmless
  configure :=
    h.rehearses_of_plan .configure h.configurePhase_follows fun _ => h.configurePhase_harmless
  build := h.rehearses_of_plan .build h.buildPhase_follows fun _ => h.buildPhase_harmless
  install := h.rehearses_of_plan .install h.installPhase_follows fun _ => h.installPhase_harmless

end RecipeHooks

namespace HookRegistry

variable {r : HookRegistry}

theorem ofRepository_custom {repo : Repository} (h : ofRepository repo = .ok r) :
    r.custom = .empty := by
  refine foldlM_invariant (P := fun r => r.custom = .empty) ?_ rfl h
  intro r e r' hr hstep
  obtain ⟨hooks, -, rfl⟩ := exceptMap_ok.1 hstep
  exact hr

theorem ofRepository_rehearsable {repo : Repository} (h : ofRepository repo = .ok r)
    (name : String) : (r.hooks name).Rehearsable := by
  rw [hooks, ofRepository_custom h, NameMap.get?_empty]
  cases r.recipes.get? name with
  | none => exact Hooks.none_rehearsable
  | some hooks => exact hooks.toHooks_rehearsable

end HookRegistry

namespace Builder

variable {b : Builder}

/-- The same builder, for a dry run. -/
def rehearsal (b : Builder) : Builder := { b with runner := .dry }

/-- The contexts of a build and of its dry run. -/
def Matches (ctx ctx' : BuildContext) : Prop := ctx' = ctx.withRunner .dry

section Phases

variable (h : ∀ name, (b.registry.hooks name).Rehearsable)
include h

theorem dependentEnvironment_rehearses (ctx : BuildContext) :
    Rehearses Eq (b.dependentEnvironment ctx)
      (b.rehearsal.dependentEnvironment (ctx.withRunner .dry)) := by
  refine .foldlM _ ?_ rfl
  rintro env _ ⟨name, config⟩ rfl
  simp only [BuildContext.withRunner]
  cases ctx.dependencyDirs.get? name with
  | none => exact .pure rfl
  | some dir => exact (h name).setupDependentEnvironment ctx ⟨config, dir⟩ env

theorem runPhase_rehearses (ctx : BuildContext) (phase : Phase) :
    Rehearses Matches (b.runPhase ctx phase)
      (b.rehearsal.runPhase (ctx.withRunner .dry) phase) := by
  have hooks := h ctx.package
  cases phase with
  | environment =>
      refine .bind (dependentEnvironment_rehearses h ctx) ?_
      rintro env _ rfl
      refine .bind (hooks.setupEnvironment ctx env) ?_
      rintro env' _ rfl
      exact .pure rfl
  | edit => exact .bind (hooks.edit ctx) fun _ _ _ => .pure rfl
  | configure => exact .bind (hooks.configure ctx) fun _ _ _ => .pure rfl
  | build => exact .bind (hooks.build ctx) fun _ _ _ => .pure rfl
  | install => exact .bind (hooks.install ctx) fun _ _ _ => .pure rfl

theorem runPhases_rehearses (ctx : BuildContext) (phases : List Phase) :
    Rehearses Matches (b.runPhases ctx phases)
      (b.rehearsal.runPhases (ctx.withRunner .dry) phases) := by
  -- The environment phase changes the context, so it has to vary; the two contexts keep matching.
  induction phases generalizing ctx with
  | nil => exact .pure rfl
  | cons phase rest ih =>
      refine .bind ((runPhase_rehearses h ctx phase).adapt _ _) ?_
      rintro ctx' _ rfl
      exact ih ctx'

theorem build_rehearses {q : BuildRequest} (accepted : check q = .ok ()) :
    Rehearses Eq (b.build q) (b.rehearsal.build q) := by
  have prepared : Rehearses Eq (b.prepare q) (b.rehearsal.prepare q) := by
    refine ⟨[], (), (), rfl, Silent.follows ?_, .pure _, .pure _⟩
    unfold prepare
    split
    · exact .pure _
    · exact silent_onFiles _
  unfold build
  rw [accepted]
  refine .bind (.pure rfl) fun _ _ _ => .bind prepared fun _ _ _ => ?_
  refine .bind (runPhases_rehearses h (b.context q) Phase.inOrder) ?_
  rintro ctx _ rfl
  exact .pure rfl

end Phases

theorem build_refused {q : BuildRequest} {e : Error} (refused : check q = .error e) (w : World) :
    (b.build q).runOn w = (.error e, w) := by
  unfold build
  rw [refused]
  rfl

/-- What a real build issues is the start of what its dry run issues, and all of it if the build ends
well; both then report the same. The dry run of a request that is not refused always ends well, and it leaves
the files as they are. -/
theorem dryRun_faithful {repo : Repository} {registry : HookRegistry}
    (h : HookRegistry.ofRepository repo = .ok registry) (runner : Runner) (jobs : Nat)
    (inherited : ProcessEnv) (q : BuildRequest) (files : FileTree) :
    let real := (Builder.build ⟨registry, runner, jobs, inherited⟩ q).runOn ⟨files, []⟩
    let dry := (Builder.build ⟨registry, .dry, jobs, inherited⟩ q).runOn ⟨files, []⟩
    real.2.issued <+: dry.2.issued ∧
      (∀ report, real.1 = .ok report → dry.1 = .ok report ∧ real.2.issued = dry.2.issued) ∧
      (check q = .ok () → ∃ report, dry.1 = .ok report) ∧ dry.2.files = files := by
  intro real dry
  cases accepted : check q with
  | error e =>
      -- The request is refused before anything is issued, by the real build and by its dry run alike.
      have hreal : real = (.error e, ⟨files, []⟩) := build_refused accepted _
      have hdry : dry = (.error e, ⟨files, []⟩) := build_refused accepted _
      rw [hreal, hdry]
      exact ⟨List.prefix_rfl, fun report ok => (nomatch ok), fun ok => (nomatch ok), rfl⟩
  | ok _ =>
      have rehearsed : Rehearses Eq (Builder.build ⟨registry, runner, jobs, inherited⟩ q)
          (Builder.build ⟨registry, .dry, jobs, inherited⟩ q) :=
        build_rehearses (HookRegistry.ofRepository_rehearsable h) accepted
      refine ⟨rehearsed.issued_prefix files files [], fun report ok => ?_,
        fun _ => rehearsed.succeeds _, rehearsed.files _⟩
      obtain ⟨_, rfl, completed⟩ := rehearsed.completed files files [] ok
      exact completed

/-- A package that is compiled and linked by two commands. -/
def toolbox : Repository :=
  .ofRecipes [{ Repository.plainRecipe "tool" [] with
    build := { BuildSection.empty with
      commands := [⟨.build, ["cc", "%(name)s.c"], none, none⟩,
        ⟨.build, ["ld", "%(name)s.o"], none, none⟩] } }]

/-- The hooks of that package. -/
def toolHooks : HookRegistry :=
  HookRegistry.empty.registerRecipe
    { package := "tool", buildSystem := .generic, workdir := none, makefile := none, makeArgs := []
      installTarget := "install", makeInstall := true, targets := [], environment := []
      dependentEnvironment := [], copies := [], edits := [], appends := [], cmakeArgs := [], install := []
      commands := [⟨.always, ⟨.build, ["cc", "%(name)s.c"], none, none⟩⟩,
        ⟨.always, ⟨.build, ["ld", "%(name)s.o"], none, none⟩⟩] }

def toolRequest : BuildRequest where
  spec :=
    { name := "tool", summary := none, homepage := none, buildSystem := .generic, parallel := true
      versions := [⟨⟨"1", [.number 1]⟩, .archive "source", none, false⟩]
      variants := [], dependencies := [], conflicts := [] }
  configuration := .bare "tool" ⟨"1", [.number 1]⟩
  installDir := ⟨"/opt/tool"⟩
  sourceDir := ⟨"/src/tool"⟩
  dependencyDirs := .empty

/-- Every command fails. -/
def breaking : Runner := ⟨false, fun _ i files => (.error (.programFailed i.program), files)⟩

theorem toolbox_hooks : HookRegistry.ofRepository toolbox = .ok toolHooks := by rfl

theorem faithful_toolbox :
    HookRegistry.ofRepository toolbox = .ok toolHooks ∧
      let real := (Builder.build ⟨toolHooks, breaking, 1, .empty⟩ toolRequest).runOn ⟨.empty, []⟩
      let dry := (Builder.build ⟨toolHooks, .dry, 1, .empty⟩ toolRequest).runOn ⟨.empty, []⟩
      real.2.issued <+: dry.2.issued ∧
        (∀ report, real.1 = .ok report → dry.1 = .ok report ∧ real.2.issued = dry.2.issued) ∧
        (check toolRequest = .ok () → ∃ report, dry.1 = .ok report) ∧ dry.2.files = .empty :=
  ⟨toolbox_hooks, dryRun_faithful toolbox_hooks breaking 1 .empty toolRequest .empty⟩

example :
    ((Builder.build ⟨toolHooks, breaking, 1, .empty⟩ toolRequest).runOn ⟨.empty, []⟩).2.issued =
        [⟨"cc", ["tool.c"], ⟨"/src/tool"⟩, .empty⟩] ∧
      ((Builder.build ⟨toolHooks, .dry, 1, .empty⟩ toolRequest).runOn ⟨.empty, []⟩).2.issued =
        [⟨"cc", ["tool.c"], ⟨"/src/tool"⟩, .empty⟩, ⟨"ld", ["tool.o"], ⟨"/src/tool"⟩, .empty⟩] := by
  decide +kernel

end Builder

end PackageRecipes
