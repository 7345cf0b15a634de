import PackageRecipes.Configuration
import PackageRecipes.Error

/-! Graphs of packages and the order to install them in. -/
namespace PackageRecipes

/-- Which packages each package depends on, and which depend on it. -/
structure Graph where
  dependencies : NameMap NameSet
  dependents : NameMap NameSet

namespace Graph

def empty : Graph := ⟨.empty, .empty⟩

def names (g : Graph) : List String := g.dependencies.keys

def size (g : Graph) : Nat := g.dependencies.size

def contains (g : Graph) (name : String) : Bool := g.dependencies.contains name

def dependencies? (g : Graph) (name : String) : Option NameSet := g.dependencies.get? name

def dependents? (g : Graph) (name : String) : Option NameSet := g.dependents.get? name

/-- The packages that a package depends on; none for a name that is not in the graph. -/
def dependenciesOf (g : Graph) (name : String) : NameSet := (g.dependencies? name).getD .empty

/-- The packages that depend on a package; none for a name that is not in the graph. -/
def dependentsOf (g : Graph) (name : String) : NameSet := (g.dependents? name).getD .empty

def ensure (m : NameMap NameSet) (name : String) : NameMap NameSet :=
  if m.contains name then m else m.insert name .empty

def addNode (g : Graph) (name : String) : Graph :=
  ⟨ensure g.dependencies name, ensure g.dependents name⟩

/-- Adds a name to the set under another, if there is one. -/
def extend (m : NameMap NameSet) (key name : String) : NameMap NameSet :=
  match m.get? key with
  | some names => m.insert key (names.insert name)
  | none => m

/-- Adds an edge with both its ends. -/
def addEdge (g : Graph) (name dependency : String) : Graph :=
  let g := (g.addNode name).addNode dependency
  ⟨extend g.dependencies name dependency, extend g.dependents dependency name⟩

/-- Adds a package with dependencies, beside those that it has already. -/
def addPackage (g : Graph) (name : String) (dependencies : List String) : Graph :=
  dependencies.foldl (fun g d => g.addEdge name d) (g.addNode name)

/-- Adds every package that a walk over a configuration meets, with its dependencies. -/
def addConfiguration (g : Graph) (root : Configuration) : Graph :=
  root.walk.foldl (fun g c => g.addPackage c.name c.dependencies.keys) g

def ofConfiguration (root : Configuration) : Graph := empty.addConfiguration root

/-! ## Cycles -/

/-- What a search for cycles has met so far. -/
structure Search where
  visited : List String
  cycles : List (List String)

/-- Searches from a package on, depth first; `path` leads to the package and `depth` bounds how far
the path can still grow. -/
def search (g : Graph) : (depth : Nat) → (path : List String) → Search → String → Search
  | 0, _, s, _ => s
  | depth + 1, path, s, name =>
    let path := path ++ [name]
    (g.dependenciesOf name).toList.foldl
      (fun s d =>
        if d ∉ s.visited then g.search depth path s d
        else if d ∈ path then { s with cycles := s.cycles ++ [path.dropWhile (· ≠ d) ++ [d]] }
        else s)
      { s with visited := name :: s.visited }

/-- Cycles, each as a path that ends where it starts; every cyclic graph shows at least one. -/
def cycles (g : Graph) : List (List String) :=
  (g.names.foldl (fun s name => if name ∈ s.visited then s else g.search g.size [] s name)
    ⟨[], []⟩).cycles

/-! ## Order -/

/-- A sort under way: how many dependencies of each package are still to be placed, the packages
that wait for none, and the packages placed. -/
structure Sorting where
  unmet : NameMap Nat
  ready : NameSet
  order : List String

namespace Sorting

/-- Nothing is placed yet. -/
def start (g : Graph) : Sorting :=
  let unmet := g.dependencies.map NameSet.size
  ⟨unmet, .ofList ((unmet.entries.filter fun e => e.2 = 0).map Prod.fst), []⟩

/-- Counts one dependency less for a package, which is ready when none is left. -/
def settle (s : Sorting) (dependent : String) : Sorting :=
  match s.unmet.get? dependent with
  | none => s
  | some n =>
    { s with
      unmet := s.unmet.insert dependent (n - 1)
      ready := if n - 1 = 0 then s.ready.insert dependent else s.ready }

/-- Places a package and settles it for all that depend on it; `ready` are the others that wait for
nothing. -/
def place (g : Graph) (s : Sorting) (name : String) (ready : NameSet) : Sorting :=
  (g.dependentsOf name).toList.foldl settle { s with ready, order := s.order ++ [name] }

/-- Places the least package that is ready, as long as there is one. Each package is placed once, so
their number bounds the rounds. -/
def run (g : Graph) : (bound : Nat) → Sorting → Sorting
  | 0, s => s
  | bound + 1, s =>
    match s.ready.popLeast? with
    | none => s
    | some (name, ready) => run g bound (s.place g name ready)

end Sorting

/-- Dependencies before dependents, and otherwise the least name first. -/
def topologicalSort (g : Graph) : Except Error (List String) :=
  let order := (Sorting.run g g.size (.start g)).order
  if order.length = g.size then .ok order
  else .error (.dependencyCycle (g.cycles.headD (g.names.filter fun n => !order.contains n)))

end Graph

end PackageRecipes
