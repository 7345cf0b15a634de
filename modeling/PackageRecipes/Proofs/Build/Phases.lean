import Mathlib.Data.List.Chain
import PackageRecipes.Proofs.Build.DryRun

/-!
# The course of a build

A build that is not refused goes through its phases until one fails. Each phase starts where the one before it
has ended, and those after the first all see one environment: what the installed dependencies contribute in the
order of their names, and then what the package sets up for itself.
-/

namespace PackageRecipes

open PackageRecipes.Action

/-- The direct dependencies that there is a directory for, in the order of their names. -/
def BuildContext.installed (ctx : BuildContext) : List (String × InstalledDependency) :=
  ctx.configuration.dependencies.entries.filterMap fun (name, config) =>
    (ctx.dependencyDirs.get? name).map fun dir => (name, ⟨config, dir⟩)

theorem BuildContext.installed_ascending {ctx : BuildContext}
    (h : ctx.configuration.dependencies.Ascending) : (ctx.installed.map Prod.fst).Pairwise (· < ·) := by
  rw [List.pairwise_map, installed, List.pairwise_filterMap]
  refine (List.pairwise_map.1 h).imp fun {x y} hlt => ?_
  intro a ha a' ha'
  obtain ⟨_, -, rfl⟩ := Option.map_eq_some_iff.1 ha
  obtain ⟨_, -, rfl⟩ := Option.map_eq_some_iff.1 ha'
  exact hlt

/-- A phase that was run: with what it started and how it ended. -/
structure PhaseRun where
  phase : Phase
  context : BuildContext
  before : World
  result : Except Error Environment
  after : World

namespace Builder

variable {b : Builder} {q : BuildRequest} {ctx : BuildContext} {phase : Phase} {w w' : World}

/-! ## One phase -/

/-- The environment of a build: what each installed dependency contributes, and then the package itself. -/
def settle (b : Builder) (ctx : BuildContext) : Action Environment := do
  let env ← ctx.installed.foldlM
    (fun env (name, d) => (b.registry.hooks name).setupDependentEnvironment ctx d env) .empty
  (b.registry.hooks ctx.package).setupEnvironment ctx env

/-- What is done in a phase, with the environment for those after it. -/
def perform (b : Builder) (ctx : BuildContext) : Phase → Action Environment
  | .environment => b.settle ctx
  | .edit => do (b.registry.hooks ctx.package).edit ctx; return ctx.environment
  | .configure => do (b.registry.hooks ctx.package).configure ctx; return ctx.environment
  | .build => do (b.registry.hooks ctx.package).build ctx; return ctx.environment
  | .install => do (b.registry.hooks ctx.package).install ctx; return ctx.environment

theorem dependentEnvironment_eq : b.dependentEnvironment ctx = ctx.installed.foldlM
    (fun env (name, d) => (b.registry.hooks name).setupDependentEnvironment ctx d env) .empty := by
  rw [dependentEnvironment, BuildContext.installed]
  generalize ctx.configuration.dependencies.entries = entries
  generalize Environment.empty = env
  induction entries generalizing env with
  | nil => rfl
  | cons entry rest ih =>
      obtain ⟨name, config⟩ := entry
      rw [List.foldlM_cons, List.filterMap_cons]
      cases hdir : ctx.dependencyDirs.get? name with
      | none => simp [hdir, ih]
      | some dir => simp [hdir, ih]

theorem runPhase_eq (b : Builder) (ctx : BuildContext) (phase : Phase) :
    b.runPhase ctx phase = do
      let env ← b.perform ctx phase
      return { ctx with environment := env } := by
  cases phase with
  | environment => simp [runPhase, perform, settle, dependentEnvironment_eq]
  | _ => simp [runPhase, perform]

theorem perform_ok {env : Environment} (hlater : phase ≠ .environment)
    (h : (b.perform ctx phase).runOn w = (.ok env, w')) : env = ctx.environment := by
  have hkept : ∀ a : Action Unit, (do a; return ctx.environment : Action Environment).runOn w = (.ok env, w') →
      env = ctx.environment := by
    intro a ha
    rw [Update.runOn_bind] at ha
    split at ha
    · cases ha
      rfl
    · cases ha
  cases phase with
  | environment => exact absurd rfl hlater
  | _ => exact hkept _ h

theorem runPhases_failed {e : Error} (rest : List Phase)
    (h : (b.perform ctx phase).runOn w = (.error e, w')) :
    (b.runPhases ctx (phase :: rest)).runOn w = (.error (.hookFailed ctx.package phase e), w') := by
  have hphase : (b.runPhase ctx phase).runOn w = (.error e, w') := by
    rw [runPhase_eq]
    exact Update.runOn_bind_error h _
  apply Update.runOn_bind_error
  rw [Update.runOn_adapt, hphase]
  rfl

theorem runPhases_passed {env : Environment} (rest : List Phase)
    (h : (b.perform ctx phase).runOn w = (.ok env, w')) :
    (b.runPhases ctx (phase :: rest)).runOn w =
      (b.runPhases { ctx with environment := env } rest).runOn w' := by
  have hphase : (b.runPhase ctx phase).runOn w = (.ok { ctx with environment := env }, w') := by
    rw [runPhase_eq]
    exact Update.runOn_bind_ok h _
  apply Update.runOn_bind_ok
  rw [Update.runOn_adapt, hphase]
  rfl

/-! ## A sequence of phases -/

/-- What is run of a list of phases, and how this ends. -/
inductive Course (b : Builder) : BuildContext → World → List Phase → List PhaseRun →
    Except Error BuildContext → World → Prop where
  | done {ctx : BuildContext} {w : World} : Course b ctx w [] [] (.ok ctx) w
  | failed {ctx : BuildContext} {w w' : World} {phase : Phase} {rest : List Phase} {e : Error}
      (h : (b.perform ctx phase).runOn w = (.error e, w')) :
      Course b ctx w (phase :: rest) [⟨phase, ctx, w, .error e, w'⟩]
        (.error (.hookFailed ctx.package phase e)) w'
  | passed {ctx : BuildContext} {w w' w'' : World} {phase : Phase} {rest : List Phase} {env : Environment}
      {runs : List PhaseRun} {result : Except Error BuildContext}
      (h : (b.perform ctx phase).runOn w = (.ok env, w'))
      (hrest : Course b { ctx with environment := env } w' rest runs result w'') :
      Course b ctx w (phase :: rest) (⟨phase, ctx, w, .ok env, w'⟩ :: runs) result w''

variable {phases : List Phase} {runs : List PhaseRun} {result : Except Error BuildContext}

theorem runPhases_iff :
    (b.runPhases ctx phases).runOn w = (result, w') ↔ ∃ runs, b.Course ctx w phases runs result w' := by
  constructor
  · intro h
    -- The phases that are left start with the environment and in the world that the first one leaves.
    induction phases generalizing ctx w with
    | nil =>
        cases h
        exact ⟨[], .done⟩
    | cons phase rest ih =>
        rcases hphase : (b.perform ctx phase).runOn w with ⟨_ | env, w₁⟩
        · rw [runPhases_failed rest hphase] at h
          cases h
          exact ⟨_, .failed hphase⟩
        · rw [runPhases_passed rest hphase] at h
          obtain ⟨runs, hrest⟩ := ih h
          exact ⟨_, .passed hphase hrest⟩
  · rintro ⟨runs, h⟩
    induction h with
    | done => rfl
    | failed h => exact runPhases_failed _ h
    | passed h _ ih => rw [runPhases_passed _ h, ih]

namespace Course

theorem order (h : b.Course ctx w phases runs result w') : runs.map PhaseRun.phase <+: phases := by
  induction h with
  | done => exact List.prefix_rfl
  | failed _ => exact (List.prefix_cons_inj _).2 List.nil_prefix
  | passed _ _ ih => exact (List.prefix_cons_inj _).2 ih

theorem genuine (h : b.Course ctx w phases runs result w') :
    ∀ run ∈ runs, (b.perform run.context run.phase).runOn run.before = (run.result, run.after) := by
  induction h with
  | done => exact List.forall_mem_nil _
  | failed h => exact List.forall_mem_singleton.2 h
  | passed h _ ih => exact List.forall_mem_cons.2 ⟨h, ih⟩

theorem first (h : b.Course ctx w phases runs result w') :
    ∀ run ∈ runs.head?, run.context = ctx ∧ run.before = w := by
  cases h <;> simp

theorem nonempty (h : b.Course ctx w (phase :: phases) runs result w') : runs ≠ [] := by
  cases h <;> exact List.cons_ne_nil _ _

/-- A phase comes after one that was passed, and starts where this one has ended. -/
theorem linked (h : b.Course ctx w phases runs result w') :
    runs.IsChain fun x y => (∃ env, x.result = .ok env) ∧ y.before = x.after := by
  induction h with
  | done => exact .nil
  | failed _ => exact .singleton _
  | passed _ hrest ih =>
      refine List.isChain_cons.2 ⟨fun y hy => ?_, ih⟩
      exact ⟨⟨_, rfl⟩, (hrest.first y hy).2⟩

theorem constant (h : b.Course ctx w phases runs result w') (hlater : .environment ∉ phases) :
    (∀ run ∈ runs, run.context = ctx) ∧ ∀ ctx', result = .ok ctx' → ctx' = ctx := by
  induction h with
  | done => exact ⟨List.forall_mem_nil _, fun _ hok => (Except.ok.inj hok).symm⟩
  | failed _ => exact ⟨List.forall_mem_singleton.2 rfl, nofun⟩
  | passed h _ ih =>
      rw [List.mem_cons, not_or] at hlater
      obtain rfl := perform_ok (Ne.symm hlater.1) h
      exact ⟨List.forall_mem_cons.2 ⟨rfl, (ih hlater.2).1⟩, (ih hlater.2).2⟩

/-- Either all phases were passed, or the last one that was run has failed. -/
theorem ended (h : b.Course ctx w phases runs result w') :
    (runs.map PhaseRun.phase = phases ∧ (∀ run ∈ runs, ∃ env, run.result = .ok env) ∧
      ∃ ctx', result = .ok ctx') ∨
    ∃ run ∈ runs.getLast?, ∃ e, run.result = .error e ∧
      result = .error (.hookFailed ctx.package run.phase e) := by
  induction h with
  | done => exact .inl ⟨rfl, List.forall_mem_nil _, _, rfl⟩
  | failed _ => exact .inr ⟨_, rfl, _, rfl, rfl⟩
  | passed _ _ ih =>
      rcases ih with ⟨hall, hok, hresult⟩ | ⟨run, hlast, hfailed⟩
      · exact .inl ⟨congrArg _ hall, List.forall_mem_cons.2 ⟨⟨_, rfl⟩, hok⟩, hresult⟩
      · exact .inr ⟨run, List.mem_getLast?_cons hlast, hfailed⟩

theorem final (h : b.Course ctx w phases runs result w') : runs.getLast?.elim w PhaseRun.after = w' := by
  induction h with
  | done => rfl
  | failed _ => rfl
  | @passed _ _ _ _ _ _ _ runs _ _ _ ih =>
      rw [List.getLast?_cons]
      cases hlast : runs.getLast? with
      | none => rwa [hlast] at ih
      | some run => rwa [hlast] at ih

/-- After the environment phase, each phase and the end see what has been settled in it. -/
theorem settled (h : b.Course ctx w (.environment :: phases) runs result w') (hlater : .environment ∉ phases) :
    (∀ run ∈ runs.tail, ∃ env w₁, (b.settle ctx).runOn w = (.ok env, w₁) ∧
      run.context = { ctx with environment := env }) ∧
    ∀ ctx', result = .ok ctx' → ∃ env w₁, (b.settle ctx).runOn w = (.ok env, w₁) ∧
      ctx' = { ctx with environment := env } := by
  cases h with
  | failed _ => exact ⟨List.forall_mem_nil _, nofun⟩
  | passed hsettle hrest =>
      obtain ⟨hcontexts, hend⟩ := hrest.constant hlater
      exact ⟨fun run hrun => ⟨_, _, hsettle, hcontexts run hrun⟩,
        fun ctx' hok => ⟨_, _, hsettle, hend ctx' hok⟩⟩

end Course

/-! ## The whole build -/

theorem check_ok : check q = .ok () ↔ q.spec.checkConfiguration q.configuration = .ok () ∧
    ∀ c ∈ q.spec.conflicts, ¬ c.applies q.configuration := by
  have hconflicts : q.spec.activeConflicts q.configuration = [] ↔
      ∀ c ∈ q.spec.conflicts, ¬ c.applies q.configuration := List.filter_eq_nil_iff
  rw [← hconflicts, check]
  cases q.spec.checkConfiguration q.configuration with
  | error e => simp
  | ok _ => cases q.spec.activeConflicts q.configuration <;> simp

/-- How a build goes, once there is a directory to install into: which phases are run, and what comes of it. -/
structure Goes (b : Builder) (q : BuildRequest) (w : World) (runs : List PhaseRun)
    (result : Except Error BuildReport) (w' : World) : Prop where
  order : runs.map PhaseRun.phase <+: Phase.inOrder
  nodup : (runs.map PhaseRun.phase).Nodup
  genuine : ∀ run ∈ runs, (b.perform run.context run.phase).runOn run.before = (run.result, run.after)
  /-- Nothing comes after a failure, and nothing happens between two phases. -/
  linked : runs.IsChain fun x y => (∃ env, x.result = .ok env) ∧ y.before = x.after
  first : ∃ run ∈ runs.head?, run.context = b.context q ∧ run.before = w
  /-- What is settled in the environment phase is what the phases after it see. -/
  later : ∀ run ∈ runs.tail, ∃ env w₁, (b.settle (b.context q)).runOn w = (.ok env, w₁) ∧
    run.context = { b.context q with environment := env }
  final : ∃ run ∈ runs.getLast?, run.after = w'
  ended : (runs.map PhaseRun.phase = Phase.inOrder ∧ (∀ run ∈ runs, ∃ env, run.result = .ok env) ∧
      ∃ env w₁, (b.settle (b.context q)).runOn w = (.ok env, w₁) ∧
        result = .ok ⟨q.spec.name, q.installDir, Phase.inOrder, env⟩) ∨
    ∃ run ∈ runs.getLast?, ∃ e, run.result = .error e ∧
      result = .error (.hookFailed q.spec.name run.phase e)

theorem build_goes {w₀ : World} (hcheck : check q = .ok ()) (hprepare : (b.prepare q).runOn w = (.ok (), w₀)) :
    ∃ runs, b.Goes q w₀ runs ((b.build q).runOn w).1 ((b.build q).runOn w).2 := by
  have hbuild : (b.build q).runOn w = (b.runPhases (b.context q) Phase.inOrder >>= fun ctx =>
      pure ⟨q.spec.name, q.installDir, Phase.inOrder, ctx.environment⟩).runOn w₀ := by
    rw [build, hcheck]
    exact Update.runOn_bind_ok hprepare _
  rcases hphases : (b.runPhases (b.context q) Phase.inOrder).runOn w₀ with ⟨result, w'⟩
  have hend : (b.build q).runOn w =
      (result.map fun ctx => ⟨q.spec.name, q.installDir, Phase.inOrder, ctx.environment⟩, w') := by
    rw [hbuild, Update.runOn_bind, hphases]
    cases result <;> rfl
  obtain ⟨runs, h⟩ := runPhases_iff.1 hphases
  have hnonempty := h.nonempty
  have hsettled := h.settled (by decide)
  rw [hend]
  refine ⟨runs, ?_⟩
  constructor
  case order => exact h.order
  case nodup => exact h.order.sublist.nodup (by decide)
  case genuine => exact h.genuine
  case linked => exact h.linked
  case first => exact ⟨_, List.head?_eq_some_head hnonempty, h.first _ (List.head?_eq_some_head hnonempty)⟩
  case later => exact hsettled.1
  case final =>
      have hfinal := h.final
      rw [List.getLast?_eq_some_getLast hnonempty] at hfinal ⊢
      exact ⟨_, rfl, hfinal⟩
  case ended =>
      rcases h.ended with ⟨hall, hok, ctx', rfl⟩ | ⟨run, hrun, e, hfailed, rfl⟩
      · obtain ⟨env, w₁, hsettle, rfl⟩ := hsettled.2 ctx' rfl
        exact .inl ⟨hall, hok, env, w₁, hsettle, rfl⟩
      · exact .inr ⟨run, hrun, e, hfailed, rfl⟩

/-- A request that is refused is so before anything is done, whatever the hooks are. Any other build makes its
directory, if it can, and goes through its phases. -/
theorem build_course (q : BuildRequest) :
    ((∃ e, q.spec.checkConfiguration q.configuration = .error e) ∨
        (∃ c ∈ q.spec.conflicts, c.applies q.configuration) →
      ∃ e, ∀ (b : Builder) (w : World), (b.build q).runOn w = (.error e, w)) ∧
    (q.spec.checkConfiguration q.configuration = .ok () ∧
        (∀ c ∈ q.spec.conflicts, ¬ c.applies q.configuration) →
      ∀ (b : Builder) (w : World),
        (∃ e w', (b.prepare q).runOn w = (.error e, w') ∧ (b.build q).runOn w = (.error e, w')) ∨
        ∃ w₀ runs, (b.prepare q).runOn w = (.ok (), w₀) ∧
          b.Goes q w₀ runs ((b.build q).runOn w).1 ((b.build q).runOn w).2) ∧
    (q.configuration.dependencies.Ascending →
      ∀ b : Builder, ((b.context q).installed.map Prod.fst).Pairwise (· < ·)) := by
  refine ⟨fun hrefused => ?_, fun haccepted b w => ?_, fun hascending b =>
    BuildContext.installed_ascending hascending⟩
  · cases hcheck : check q with
    | error e => exact ⟨e, fun b => build_refused hcheck⟩
    | ok _ =>
        obtain ⟨haccepted, hnone⟩ := check_ok.1 hcheck
        rcases hrefused with ⟨e, he⟩ | ⟨c, hc, happlies⟩
        · rw [haccepted] at he
          cases he
        · exact absurd happlies (hnone c hc)
  · have hcheck := check_ok.2 haccepted
    rcases hprepare : (b.prepare q).runOn w with ⟨e | _, w₀⟩
    · refine .inl ⟨e, w₀, rfl, ?_⟩
      rw [build, hcheck]
      exact Update.runOn_bind_error hprepare _
    · obtain ⟨runs, hgoes⟩ := build_goes hcheck hprepare
      exact .inr ⟨w₀, runs, rfl, hgoes⟩

/-- A package that cannot be configured. -/
def stubborn : Builder where
  registry := HookRegistry.empty.register "tool"
    { Hooks.none with configure := fun ctx => throw (.notFound (.package ctx.package)) }
  runner := .dry
  jobs := 1
  inherited := .empty

theorem course_stubborn :
    toolRequest.spec.checkConfiguration toolRequest.configuration = .ok () ∧
      (∀ c ∈ toolRequest.spec.conflicts, ¬ c.applies toolRequest.configuration) ∧
      ∃ runs, stubborn.Goes toolRequest ⟨.empty, []⟩ runs
        (.error (.hookFailed "tool" .configure (.notFound (.package "tool")))) ⟨.empty, []⟩ := by
  have haccepted : toolRequest.spec.checkConfiguration toolRequest.configuration = .ok () := rfl
  have hnone : ∀ c ∈ toolRequest.spec.conflicts, ¬ c.applies toolRequest.configuration :=
    List.forall_mem_nil _
  obtain ⟨-, hcourse, -⟩ := build_course toolRequest
  refine ⟨haccepted, hnone, ?_⟩
  rcases hcourse ⟨haccepted, hnone⟩ stubborn ⟨.empty, []⟩ with
    ⟨e, w', hprepare, -⟩ | ⟨w₀, runs, hprepare, hgoes⟩
  · cases hprepare
  · cases hprepare
    exact ⟨runs, hgoes⟩

end Builder

end PackageRecipes
