import PackageRecipes.Data.Basic

/-! Tables while a document is being read, and the rules on who may extend them. -/
namespace PackageRecipes.Toml

/-- Where a table comes from: an implicit one only lies on the way to others, and a dotted one was
made by a dotted key. -/
structure Origin where
  implicit : Bool
  dotted : Bool

mutual

inductive Node where
  | value (d : Data)
  | table (t : Table)
  | tables (ts : List Table)

inductive Table where
  | mk (origin : Origin) (entries : List (String × Node))

end

namespace Table

def origin : Table → Origin
  | .mk o _ => o

def entries : Table → List (String × Node)
  | .mk _ es => es

/-- A table with a header of its own. -/
def fresh : Table := .mk ⟨false, false⟩ []

def lookup (k : String) : List (String × Node) → Option Node
  | [] => none
  | (k', n) :: rest => if k = k' then some n else lookup k rest

def put (k : String) (n : Node) : List (String × Node) → List (String × Node)
  | [] => [(k, n)]
  | (k', old) :: rest => if k = k' then (k, n) :: rest else (k', old) :: put k n rest

def set (t : Table) (k : String) (n : Node) : Table := .mk t.origin (put k n t.entries)

/-- Changes the table at the end of a path. Missing tables on the way are made; a list of tables
stands for its last one. A dotted key passes only through tables without a header. -/
def change (dotted : Bool) (f : Table → Option Table) : List String → Table → Option Table
  | [], t => f t
  | k :: ks, t =>
    match lookup k t.entries with
    | none => (change dotted f ks (.mk ⟨true, dotted⟩ [])).map fun c => t.set k (.table c)
    | some (.value _) => none
    | some (.table c) =>
      if dotted && !c.origin.implicit then none
      else (change dotted f ks c).map fun c => t.set k (.table c)
    | some (.tables cs) =>
      match cs.reverse with
      | [] => none
      | last :: others =>
        (change dotted f ks last).map fun c => t.set k (.tables (others.reverse ++ [c]))

/-- Gives a new key its value; a dotted key may only end in a table that dotted keys made. -/
def define (path : List String) (k : String) (d : Data) (t : Table) : Option Table :=
  change true (fun t =>
    if t.origin.dotted = path.isEmpty then none
    else if (lookup k t.entries).isSome then none
    else some (t.set k (.value d))) path t

mutual

def toData : Table → Data
  | .mk _ entries => .table (fieldsOf entries)

def fieldsOf : List (String × Node) → List (String × Data)
  | [] => []
  | (k, n) :: rest => (k, dataOf n) :: fieldsOf rest

def dataOf : Node → Data
  | .value d => d
  | .table t => toData t
  | .tables ts => .array (itemsOf ts)

def itemsOf : List Table → List Data
  | [] => []
  | t :: rest => toData t :: itemsOf rest

end

end Table

/-! ## Documents: headers and the table that is being filled -/

/-- A document so far; the table under the last header is kept apart until the next header. -/
structure Document where
  root : Table
  current : Table
  path : List String
  inList : Bool

namespace Document

def start : Document := ⟨.fresh, .fresh, [], false⟩

/-- Puts the current table in its place. -/
def close (doc : Document) : Option Table :=
  match doc.path.reverse with
  | [] => some doc.current
  | k :: above =>
    Table.change false (fun t =>
      match Table.lookup k t.entries with
      | none => some (t.set k (if doc.inList then .tables [doc.current] else .table doc.current))
      | some (.tables ts) => if doc.inList then some (t.set k (.tables (ts ++ [doc.current]))) else none
      | some _ => none) above.reverse doc.root

/-- The table at a header `[path]`: a new one, or one that so far only lay on the way to others. -/
def openTable (doc : Document) (path : List String) : Option Document := do
  let root ← doc.close
  match path.reverse with
  | [] => none
  | k :: above =>
    let found : Option (Option Node) := (findTable root above.reverse).map fun t =>
      Table.lookup k t.entries
    match found with
    | none | some none => return ⟨← ensure root above.reverse, .fresh, path, false⟩
    | some (some (.table t)) =>
      if t.origin.implicit && !t.origin.dotted then
        return ⟨← Table.change false (fun p => some (.mk p.origin (p.entries.filter (·.1 ≠ k))))
          above.reverse root, .mk ⟨false, false⟩ t.entries, path, false⟩
      else none
    | some (some _) => none
where
  /-- The table at the end of a path that is already there. -/
  findTable (t : Table) : List String → Option Table
    | [] => some t
    | k :: ks =>
      match Table.lookup k t.entries with
      | some (.table c) => findTable c ks
      | some (.tables cs) => cs.getLast?.bind fun c => findTable c ks
      | _ => none
  ensure (t : Table) (path : List String) : Option Table := Table.change false some path t

/-- A new table of the list at a header `[[path]]`. -/
def openListed (doc : Document) (path : List String) : Option Document := do
  let root ← doc.close
  match path.reverse with
  | [] => none
  | k :: above =>
    let root ← Table.change false (fun t =>
      match Table.lookup k t.entries with
      | none | some (.tables _) => some t
      | some _ => none) above.reverse root
    return ⟨root, .fresh, path, true⟩

def define (doc : Document) (path : List String) (k : String) (d : Data) : Option Document :=
  (doc.current.define path k d).map fun t => { doc with current := t }

end Document

end PackageRecipes.Toml
