import PackageRecipes.Graph
import PackageRecipes.Recipe.Lint
import PackageRecipes.Recipe.Reader

/-! Collections of recipes, each package once, and what follows from them together. -/
namespace PackageRecipes

structure RepositoryEntry where
  recipe : Recipe
  spec : PackageSpec
  path : Option Path

structure Repository where
  entries : NameMap RepositoryEntry

namespace Repository

def empty : Repository := ⟨.empty⟩

def find? (r : Repository) (name : String) : Option RepositoryEntry := r.entries.get? name

def spec? (r : Repository) (name : String) : Option PackageSpec :=
  (r.find? name).map RepositoryEntry.spec

def names (r : Repository) : List String := r.entries.keys

def size (r : Repository) : Nat := r.entries.size

def require (r : Repository) (name : String) : Except Error PackageSpec :=
  match r.spec? name with
  | some s => .ok s
  | none => .error (.notFound (.package name))

/-! ## Filling -/

def location (path : Option Path) : String := path.elim "<memory>" Path.text

end Repository

abbrev RepositoryStep := Update Repository

/-- Adds a valid recipe of a package that is not there yet. -/
def RepositoryStep.add (recipe : Recipe) (path : Option Path) : RepositoryStep Unit := do
  let name := recipe.package.name
  let r ← get
  if let some existing := r.find? name then
    throw (.duplicatePackage name (Repository.location existing.path) (Repository.location path))
  let _ ← liftExcept recipe.validate
  let spec ← liftExcept recipe.toSpec
  modify fun r => ⟨r.entries.insert name ⟨recipe, spec, path⟩⟩

namespace Repository

def add (r : Repository) (recipe : Recipe) (path : Option Path) : Except Error Repository :=
  (RepositoryStep.add recipe path).result r

/-- The recipe files among the entries of a directory in their order, with those of directories in
place; `depth` bounds how deep the directories nest. -/
def recipesIn (files : FileTree) : (depth : Nat) → Path → List Path
  | 0, _ => []
  | depth + 1, dir =>
    match files.list dir with
    | .error _ => []
    | .ok names =>
      names.flatMap fun name =>
        let p := dir / name
        if files.isDirectory p then recipesIn files depth p
        else if files.isFile p && p.extension? == some "toml" then [p]
        else []

def recipeFiles (files : FileTree) (dir : Path) : Except Error (List Path) :=
  if files.isDirectory dir then .ok (recipesIn files (files.entries.length + 1) dir)
  else .error (.notFound (.recipeDirectory dir))

/-- Reads a recipe file and adds its recipe. -/
def addFile (files : FileTree) (r : Repository) (path : Path) : Except Error Repository :=
  match Recipe.parseFile files path with
  | .error e => .error e
  | .ok recipe => r.add recipe (some path)

/-- The repository of all recipe files below a directory. -/
def loadDir (files : FileTree) (dir : Path) : Except Error Repository :=
  match recipeFiles files dir with
  | .error e => .error e
  | .ok paths => paths.foldlM (addFile files) empty

/-! ## Dependencies -/

/-- Packages with the targets that no recipe is there for, in ascending order and each pair once. -/
def unknownTargets (r : Repository) : List (String × String) :=
  r.entries.values.flatMap fun e =>
    let targets := (e.spec.dependencies.map Dependency.target).filter (!r.entries.contains ·)
    (NameSet.ofList targets).toList.map fun t => (e.spec.name, t)

/-- The default configuration of a package that is there and declares a version. -/
def default? (r : Repository) (name : String) : Option Configuration :=
  (r.spec? name).bind PackageSpec.defaultConfiguration?

/-- The targets of the dependencies that are active on a configuration. -/
def activeTargets (r : Repository) (c : Configuration) : List String :=
  match r.spec? c.name with
  | some s => (s.activeDependencies c).map Dependency.target
  | none => []

mutual

/-- Attaches the default configurations of active dependencies, and so on below them. Only packages
that are still available are attached; each is no longer available below itself. -/
def expand (r : Repository) (available : List String) (c : Configuration) : Configuration :=
  r.attach available (r.activeTargets c) c
termination_by (available.length, 1, 0)

/-- Attaches one target after the other. -/
def attach (r : Repository) (available : List String) (targets : List String) (c : Configuration) :
    Configuration :=
  match targets with
  | [] => c
  | target :: rest =>
    if _h : target ∈ available then
      if c.dependencies.contains target then r.attach available rest c
      else
        match r.default? target with
        | none => r.attach available rest c
        | some child =>
          let child := r.expand (available.erase target) { child with compiler := c.compiler }
          r.attach available rest { c with dependencies := c.dependencies.insert target child }
    else r.attach available rest c
termination_by (available.length, 0, targets.length)
decreasing_by
  · apply Prod.Lex.right; apply Prod.Lex.right; simp
  · apply Prod.Lex.right; apply Prod.Lex.right; simp
  · apply Prod.Lex.left
    have := List.length_erase_of_mem _h
    have := List.length_pos_of_mem _h
    omega
  · apply Prod.Lex.right; apply Prod.Lex.right; simp
  · apply Prod.Lex.right; apply Prod.Lex.right; simp

end

/-- The configuration with everything that it needs attached, at defaults and with its compiler. -/
def defaultTree (r : Repository) (root : Configuration) : Configuration :=
  r.expand (r.names.erase root.name) root

/-- The dependencies of a configuration that what is attached for them does not satisfy. -/
def unmetBy (r : Repository) (c : Configuration) : List (String × String) :=
  match r.spec? c.name with
  | none => []
  | some s =>
    ((s.activeDependencies c).filter fun d =>
      (c.dependency? d.target).any fun child => !d.isSatisfiedBy child).map fun d => (c.name, d.render)

mutual

/-- The unsatisfied dependencies of a tree, each with its package. -/
def unsatisfiedEdges (r : Repository) : Configuration → List (String × String)
  | ⟨name, version, variants, compiler, ⟨children⟩⟩ =>
    r.unmetBy ⟨name, version, variants, compiler, ⟨children⟩⟩ ++ r.unsatisfiedBelow children

def unsatisfiedBelow (r : Repository) : List (String × Configuration) → List (String × String)
  | [] => []
  | (_, c) :: rest => r.unsatisfiedEdges c ++ r.unsatisfiedBelow rest

end

def installOrder (_ : Repository) (c : Configuration) : Except Error (List String) :=
  (Graph.ofConfiguration c).topologicalSort

/-- The default configurations of unseen targets; those without one count as seen. -/
def discover (r : Repository) (unseen : List String) : List String → List String × List Configuration
  | [] => (unseen, [])
  | target :: rest =>
    if target ∈ unseen then
      match r.default? target with
      | some child =>
        let (unseen', found) := r.discover unseen rest
        (unseen', child :: found)
      | none => r.discover (unseen.erase target) rest
    else r.discover unseen rest

theorem discover_length (r : Repository) (targets unseen : List String) :
    (r.discover unseen targets).1.length ≤ unseen.length := by
  induction targets generalizing unseen with
  | nil => simp [discover]
  | cons target rest ih =>
    simp only [discover]
    split
    · split
      · exact ih unseen
      · exact Nat.le_trans (ih _) (List.length_erase_le ..)
    · exact ih unseen

/-- Explores the packages of a queue, and those that they lead to. A package is unseen until it is
explored or found to have no default configuration. -/
def explore (r : Repository) (unseen : List String) (queue : List Configuration) (g : Graph) :
    Graph :=
  match queue with
  | [] => g
  | c :: rest =>
    if c.name ∈ unseen then
      let targets := r.activeTargets c
      let next := r.discover (unseen.erase c.name) targets
      r.explore next.1 (rest ++ next.2) (g.addPackage c.name targets)
    else r.explore unseen rest g
termination_by (unseen.length, queue.length)
decreasing_by
  · have h : c.name ∈ unseen := by assumption
    have h₁ := r.discover_length (r.activeTargets c) (unseen.erase c.name)
    have h₂ := List.length_erase_of_mem h
    have h₃ := List.length_pos_of_mem h
    exact Prod.Lex.left _ _ (by omega)
  · exact Prod.Lex.right _ (by simp)

/-- The packages that a configuration needs, directly or not, with their active dependencies. -/
def dependencyGraph (r : Repository) (root : Configuration) : Graph :=
  r.explore (root.name :: r.names.erase root.name) [root] .empty

end Repository

end PackageRecipes
