import PackageRecipes.Recipe.Basic

/-! The specification that a recipe declares, entry by entry. -/
namespace PackageRecipes

namespace PackageSpec

/-- Reads a condition and checks it against the declared variants. -/
def readWhen (s : PackageSpec) : When → Except Condition.Error Condition
  | none => .ok .always
  | some when_ =>
    let read : Except Condition.Error Condition :=
      match when_ with
      | .one text => Condition.parse s.name text
      | .many texts => Condition.parseAny s.name texts
    match read with
    | .error e => .error e
    | .ok c => (s.checkCondition c).map fun () => c

/-- The condition of an entry; a fault is reported with the entry's field. -/
def parseWhen (s : PackageSpec) (when_ : When) (field : Field) : Except Error Condition :=
  (s.readWhen when_).mapError (.malformedCondition s.name field)

end PackageSpec

namespace Recipe

def refuse {α : Type} (r : Recipe) (field : Field) (fault : EntryFault) : Except Error α :=
  .error (.invalidField r.package.name field fault)

/-- The reference of a version; a commit counts more than a tag, and a tag more than a branch. -/
def reference? (e : VersionEntry) : Option GitReference :=
  e.commit.map .commit <|> e.tag.map .tag <|> e.branch.map .branch

def locatorOf (r : Recipe) (e : VersionEntry) : Except EntryFault SourceLocator :=
  match reference? e with
  | some reference =>
    match e.git <|> r.package.git with
    | some url => .ok (.git url reference e.submodules)
    | none => .error .noRepository
  | none =>
    if e.git.isSome then .error .noReference
    else
      match e.url <|> r.archiveUrl? e.version with
      | some url => .ok (.archive url)
      | none => .error .noArchive

/-- The checksums of an entry, read when they are asked for. -/
def checksumsOf (e : VersionEntry) : List (Except ChecksumError Checksum) :=
  (e.sha256.map (Checksum.ofDigest .sha256)).toList
    ++ (e.sha512.map (Checksum.ofDigest .sha512)).toList
    ++ (e.md5.map (Checksum.ofDigest .md5)).toList
    ++ (e.checksum.map Checksum.parse).toList

def integrityOf (e : VersionEntry) : Except EntryFault (Option Checksum) :=
  match checksumsOf e with
  | [] => .ok none
  | [given] => (given.mapError .checksum).map some
  | _ => .error .manyChecksums

/-- Declares one version. -/
def declareVersion (r : Recipe) (s : PackageSpec) (e : VersionEntry) : Except Error PackageSpec :=
  let index := s.versions.length
  match r.locatorOf e with
  | .error fault => r.refuse (.version index) fault
  | .ok locator =>
    match integrityOf e with
    | .error fault => r.refuse (.version index) fault
    | .ok integrity =>
      (s.declareVersion e.version locator integrity).map fun s =>
        if e.preferred then s.prefer index else s

/-- A list of values makes a variant enumerated or multi-valued. -/
def kindOf (e : VariantEntry) : VariantKind :=
  match e.values with
  | none => .boolean
  | some _ => if e.multi then .multi else .enumerated

/-- The default as a value of the variant's kind. -/
def defaultOf (e : VariantEntry) : VariantValue :=
  match e.default with
  | .bool b => .bool b
  | .single v => if kindOf e = .multi then .multi (.ofList [v]) else .single v
  | .list vs => .multi (.ofList vs)

def declareVariant (s : PackageSpec) (e : VariantEntry) : Except Error PackageSpec :=
  (s.declareVariant e.name (kindOf e) (defaultOf e) e.values).map fun s' =>
    s'.describe s.variants.length e.description

def declareDependency (r : Recipe) (s : PackageSpec) (e : DependsEntry) :
    Except Error PackageSpec :=
  let index := s.dependencies.length
  match Requirement.parse e.spec with
  | .error fault => .error (.malformedCondition r.package.name (.dependsSpec index) fault)
  | .ok requirement =>
    match s.parseWhen e.when (.dependsWhen index) with
    | .error e => .error e
    | .ok condition =>
      (s.declareDependency requirement.target requirement.versions requirement.predicates
        condition).map fun s =>
          match e.types with
          | some types => s.setTypes index types.toList
          | none => s

def declareConflict (r : Recipe) (s : PackageSpec) (e : ConflictEntry) : Except Error PackageSpec :=
  let index := s.conflicts.length
  match Condition.parse r.package.name e.spec with
  | .error fault => .error (.malformedCondition r.package.name (.conflictSpec index) fault)
  | .ok selection =>
    match s.parseWhen e.when (.conflictWhen index) with
    | .error e => .error e
    | .ok when_ => s.declareConflict (.conj [selection, when_]) e.message

/-- The package itself, with nothing declared yet. -/
def bareSpec (r : Recipe) : Except Error PackageSpec :=
  (PackageSpec.bare r.package.name).map fun s =>
    { s with
      summary := r.package.summary
      homepage := r.package.homepage
      buildSystem := r.package.buildSystem
      parallel := r.package.parallel }

/-- The specification of the package. Variants come before the conditions that mention them. -/
def toSpec (r : Recipe) : Except Error PackageSpec := do
  let s ← r.bareSpec
  let s ← r.versions.foldlM r.declareVersion s
  let s ← r.variants.foldlM declareVariant s
  let s ← r.depends.foldlM r.declareDependency s
  r.conflicts.foldlM r.declareConflict s

end Recipe

end PackageRecipes
