import PackageRecipes.Build.Registry

/-! Building one package, phase by phase. -/
namespace PackageRecipes

structure BuildRequest where
  spec : PackageSpec
  configuration : Configuration
  installDir : Path
  sourceDir : Path
  dependencyDirs : NameMap Path

structure BuildReport where
  package : String
  installDir : Path
  phases : List Phase
  environment : Environment

/-- What all builds of one run share. -/
structure Builder where
  registry : HookRegistry
  runner : Runner
  jobs : Nat
  inherited : ProcessEnv

namespace Builder

/-- The context that a build starts with; there is always at least one job. -/
def context (b : Builder) (q : BuildRequest) : BuildContext :=
  ⟨q.spec, q.configuration, q.installDir, q.sourceDir, q.dependencyDirs, .empty, max b.jobs 1,
    b.runner, b.inherited⟩

/-- What the installed ones among the direct dependencies set, in the order of their names. -/
def dependentEnvironment (b : Builder) (ctx : BuildContext) : Action Environment :=
  ctx.configuration.dependencies.entries.foldlM
    (fun env (name, config) =>
      match ctx.dependencyDirs.get? name with
      | none => pure env
      | some dir => (b.registry.hooks name).setupDependentEnvironment ctx ⟨config, dir⟩ env)
    .empty

/-- Runs one phase; the environment phase changes the context of those after it. -/
def runPhase (b : Builder) (ctx : BuildContext) (phase : Phase) : Action BuildContext :=
  let hooks := b.registry.hooks ctx.package
  match phase with
  | .environment => do
    let env ← b.dependentEnvironment ctx
    let env ← hooks.setupEnvironment ctx env
    return { ctx with environment := env }
  | .edit => do hooks.edit ctx; return ctx
  | .configure => do hooks.configure ctx; return ctx
  | .build => do hooks.build ctx; return ctx
  | .install => do hooks.install ctx; return ctx

/-- Runs phases in order; a failure names its phase and ends the build. -/
def runPhases (b : Builder) (ctx : BuildContext) : List Phase → Action BuildContext
  | [] => pure ctx
  | phase :: rest => do
    let ctx' ← (b.runPhase ctx phase).adapt fun e => .hookFailed ctx.package phase e
    b.runPhases ctx' rest

/-- Refuses a configuration that the package cannot be built in. -/
def check (q : BuildRequest) : Except Error Unit :=
  match q.spec.checkConfiguration q.configuration with
  | .error e => .error e
  | .ok () =>
    match q.spec.activeConflicts q.configuration with
    | [] => .ok ()
    | conflict :: _ => .error (.invalidConfiguration q.spec.name (.conflict conflict.render))

/-- Makes the directory to install into. -/
def prepare (b : Builder) (q : BuildRequest) : Action Unit :=
  if b.runner.isDry then pure ()
  else .onFiles (.makeDirectories .createPrefix q.installDir)

/-- Checks the configuration, then runs every phase. -/
def build (b : Builder) (q : BuildRequest) : Action BuildReport := do
  ExceptT.mk (pure (check q))
  b.prepare q
  let ctx ← b.runPhases (b.context q) Phase.inOrder
  return ⟨q.spec.name, q.installDir, Phase.inOrder, ctx.environment⟩

end Builder

end PackageRecipes
