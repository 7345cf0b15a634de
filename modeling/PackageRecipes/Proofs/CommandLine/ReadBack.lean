import PackageRecipes.CommandLine.Run
import PackageRecipes.Proofs.Configuration.ReadBack
import PackageRecipes.Proofs.Data.Json
import PackageRecipes.Proofs.Recipe.Entries
import PackageRecipes.Proofs.Repository.Expansion
import PackageRecipes.Proofs.Repository.Validity
import PackageRecipes.Proofs.Spec.Preferred

/-!
# Printed trees that are read back

Versions get into a configuration from recipes, from the command line and from settings, and each of them has been
read from a label by then. So the tree that is printed for a package can be read back.
-/

namespace PackageRecipes

variable {c : Configuration} {n : String}

/-! ## Default configurations -/

namespace PackageSpec

variable {s : PackageSpec}

theorem preferredVersion?_mem {d : VersionDecl} (h : s.preferredVersion? = some d) : d ∈ s.versions := by
  unfold preferredVersion? at h
  cases hmarked : s.versions.find? (·.preferred) with
  | some m =>
      obtain rfl : m = d := by simpa [hmarked] using h
      exact List.mem_of_find?_eq_some hmarked
  | none =>
      cases hrelease : highest (s.versions.filter (·.version.isNumeric)) with
      | some m =>
          obtain rfl : m = d := by simpa [hmarked, hrelease] using h
          exact List.mem_of_mem_filter (highest_eq_some hrelease).1
      | none =>
          have hhead : s.versions.head? = some d := by simpa [hmarked, hrelease] using h
          exact List.mem_of_head? hhead

theorem defaultConfiguration?_wellFormed (hread : ∀ d ∈ s.versions, d.version.IsRead)
    (h : s.defaultConfiguration? = some c) : c.WellFormed := by
  obtain ⟨d, hd, rfl⟩ := Option.map_eq_some_iff.1 h
  have hbare := Configuration.wellFormed_bare s.name (hread d (preferredVersion?_mem hd))
  exact hbare.withVariants (NameMap.ofList_ascending _)

end PackageSpec

/-- Versions are read from the labels of the entries that declare them. -/
theorem Recipe.isRead_of_declares {r : Recipe} {es : List VersionEntry} {ds : List VersionDecl}
    (h : List.Forall₂ (VersionEntry.Declares r) es ds) : ∀ d ∈ ds, d.version.IsRead := by
  induction h with
  | nil => exact List.forall_mem_nil _
  | cons hfirst _ ih => exact List.forall_mem_cons.2 ⟨⟨_, hfirst.version⟩, ih⟩

/-! ## Default trees -/

namespace Repository

variable {r : Repository}

theorem Reachable.isRead (h : r.Reachable) {s : PackageSpec} (hs : r.spec? n = some s) :
    ∀ d ∈ s.versions, d.version.IsRead := by
  obtain ⟨e, he, rfl⟩ := Option.map_eq_some_iff.1 hs
  have hvalid := h.valid ((NameMap.get?_eq_some_iff h.keyed.ascending).1 he)
  exact Recipe.isRead_of_declares (Recipe.toSpec_describes hvalid.spec).versions

theorem Reachable.default_wellFormed (h : r.Reachable) (hc : r.default? n = some c) : c.WellFormed := by
  obtain ⟨s, hs, hdefault⟩ := Option.bind_eq_some_iff.1 hc
  exact PackageSpec.defaultConfiguration?_wellFormed (h.isRead hs) hdefault

/-- Expanding attaches well-formed configurations only, level by level, and each level has one name less to attach. -/
theorem Reachable.expand_wellFormed (h : r.Reachable) (available : List String) {c : Configuration}
    (hc : c.WellFormed ∧ c.Within (available.length + 1)) :
    (r.expand available c).WellFormed ∧ (r.expand available c).Within (available.length + 1) := by
  have hattach : ∀ (targets : List String) (c : Configuration), c.WellFormed ∧ c.Within (available.length + 1) →
      (r.attach available targets c).WellFormed ∧ (r.attach available targets c).Within (available.length + 1) := by
    intro targets
    induction targets with
    | nil =>
        intro c hc
        rwa [attach_nil]
    | cons target rest ih =>
        intro c hc
        by_cases hskip : target ∉ available ∨ target ∈ c.dependencies.keys ∨ r.default? target = none
        · rw [attach_cons_skip rest hskip]
          exact ih c hc
        · push Not at hskip
          obtain ⟨hin, hout, hsome⟩ := hskip
          obtain ⟨child, hchild⟩ := Option.ne_none_iff_exists'.1 hsome
          have hempty : child.dependencies = .empty := (h.keyed.default?_eq hchild).2.2
          have hlevel := Configuration.within_of_dependencies_empty (c := { child with compiler := c.compiler }) hempty
          obtain ⟨hexpanded, hlevels⟩ := h.expand_wellFormed (available.erase target)
            ⟨(h.default_wellFormed hchild).withCompiler hc.1.compiler, hlevel _⟩
          rw [List.length_erase_add_one hin] at hlevels
          rw [attach_cons_new rest hin hout hchild]
          exact ih _ ⟨hc.1.attach hexpanded target, hc.2.attach hlevels target⟩
  rw [expand]
  exact hattach _ c hc
termination_by available.length
decreasing_by
  have := List.length_erase_of_mem hin
  have := List.length_pos_of_mem hin
  omega

theorem loadDir_reachable {files : FileTree} {dir : Path} (h : loadDir files dir = .ok r) : r.Reachable := by
  unfold loadDir at h
  split at h
  · cases h
  · refine foldlM_invariant (P := Reachable) (fun r path r' hr hadd => ?_) .empty h
    unfold addFile at hadd
    split at hadd
    · cases hadd
    · exact hr.add hadd

end Repository

/-! ## Selections -/

namespace Selection

variable {selection : Selection} {s : PackageSpec} {settings : Settings}

theorem isRead_of_chooseVersion {label : String} {v : Version} (h : chooseVersion s label = .ok v) : v.IsRead := by
  unfold chooseVersion at h
  split at h
  · cases h
  · rename_i w hw
    split at h
    · cases h
      exact ⟨label, hw⟩
    · cases h

theorem assign_wellFormed {c' : Configuration} {text : String} (hc : c.WellFormed) (h : assign s c text = .ok c') :
    c'.WellFormed := by
  obtain ⟨⟨name, value⟩, -, rfl⟩ := exceptMap_ok.1 h
  exact hc.withVariant name _

theorem isRead_of_parse {text : String} {k : Compiler} (h : Compiler.parse text = .ok k) : k.IsRead := by
  unfold Compiler.parse at h
  simp only at h
  split at h
  · split at h
    · cases h
    · cases h
      exact nofun
  · split at h
    · cases h
    · rename_i v hv
      split at h
      · cases h
      · cases h
        intro w hw
        cases hw
        exact ⟨_, hv⟩

theorem isRead_of_chooseCompiler {compiler : Option Compiler} (h : selection.chooseCompiler settings = .ok compiler) :
    ∀ k ∈ compiler, k.IsRead := by
  have hparse {text : String} (h : ((Compiler.parse text).map some).mapError Compiler.Error.general = .ok compiler) :
      ∀ k ∈ compiler, k.IsRead := by
    obtain ⟨k, hk, rfl⟩ := exceptMap_ok.1 (exceptMapError_ok.1 h)
    intro k' hk'
    cases hk'
    exact isRead_of_parse hk
  unfold chooseCompiler at h
  split at h
  · exact hparse h
  · unfold Settings.compiler? at h
    split at h
    · cases h
      intro k hk
      cases hk
    · exact hparse h

/-- What is selected is put into the default configuration part by part. -/
theorem apply_ok (h : selection.apply s settings = .ok c) : ∃ start versioned assigned compiler,
    s.defaultConfiguration? = some start ∧
    (versioned = start ∨ ∃ label v, chooseVersion s label = .ok v ∧ versioned = { start with version := v }) ∧
    selection.variants.foldlM (assign s) versioned = .ok assigned ∧
    selection.chooseCompiler settings = .ok compiler ∧ c = compiler.elim assigned assigned.withCompiler := by
  have hrest {versioned : Configuration} (h : (do
      let assigned ← selection.variants.foldlM (assign s) versioned
      let compiler ← (selection.chooseCompiler settings).mapError .refused
      let complete := compiler.elim assigned assigned.withCompiler
      (s.checkConfiguration complete).mapError .refused
      return complete) = .ok c) :
      ∃ assigned compiler, selection.variants.foldlM (assign s) versioned = .ok assigned ∧
        selection.chooseCompiler settings = .ok compiler ∧ c = compiler.elim assigned assigned.withCompiler := by
    obtain ⟨assigned, hassigned, h⟩ := exceptBind_ok.1 h
    obtain ⟨compiler, hcompiler, h⟩ := exceptBind_ok.1 h
    obtain ⟨_, -, h⟩ := exceptBind_ok.1 h
    cases h
    exact ⟨assigned, compiler, hassigned, exceptMapError_ok.1 hcompiler, rfl⟩
  unfold apply at h
  dsimp only at h
  split at h
  · rename_i start hstart
    obtain ⟨_, hsame, h⟩ := exceptBind_ok.1 h
    cases hsame
    split at h
    · rename_i label _
      obtain ⟨versioned, hversioned, h⟩ := exceptBind_ok.1 h
      obtain ⟨v, hv, rfl⟩ := exceptMap_ok.1 hversioned
      obtain ⟨assigned, compiler, hassigned, hcompiler, rfl⟩ := hrest h
      exact ⟨start, _, assigned, compiler, hstart, .inr ⟨label, v, hv, rfl⟩, hassigned, hcompiler, rfl⟩
    · obtain ⟨assigned, compiler, hassigned, hcompiler, rfl⟩ := hrest h
      exact ⟨start, start, assigned, compiler, hstart, .inl rfl, hassigned, hcompiler, rfl⟩
  · obtain ⟨_, hnone, -⟩ := exceptBind_ok.1 h
    cases hnone

theorem apply_wellFormed (hread : ∀ d ∈ s.versions, d.version.IsRead)
    (h : selection.apply s settings = .ok c) : c.WellFormed := by
  obtain ⟨start, versioned, assigned, compiler, hstart, hversioned, hassigned, hcompiler, rfl⟩ := apply_ok h
  have hdefault := PackageSpec.defaultConfiguration?_wellFormed hread hstart
  have hversion : versioned.WellFormed := by
    rcases hversioned with rfl | ⟨label, v, hv, rfl⟩
    · exact hdefault
    · exact hdefault.withVersion (isRead_of_chooseVersion hv)
  have hvariants : assigned.WellFormed :=
    foldlM_invariant (P := Configuration.WellFormed) (fun _ _ _ => assign_wellFormed) hversion hassigned
  cases compiler with
  | none => exact hvariants
  | some k => exact hvariants.withCompiler (isRead_of_chooseCompiler hcompiler)

/-- What is selected is the package's own, and nothing is attached yet. -/
theorem apply_bare (h : selection.apply s settings = .ok c) : c.name = s.name ∧ c.dependencies = .empty := by
  obtain ⟨start, versioned, assigned, compiler, hstart, hversioned, hassigned, -, rfl⟩ := apply_ok h
  obtain ⟨hname, -, hempty⟩ := PackageSpec.defaultConfiguration?_eq hstart
  have hversion : versioned.name = s.name ∧ versioned.dependencies = .empty := by
    rcases hversioned with rfl | ⟨_, _, -, rfl⟩
    · exact ⟨hname, hempty⟩
    · exact ⟨hname, hempty⟩
  have hvariants := foldlM_invariant (P := fun c => c.name = s.name ∧ c.dependencies = .empty)
    (fun _ _ _ hc hassign => by
      obtain ⟨_, -, rfl⟩ := exceptMap_ok.1 hassign
      exact hc) hversion hassigned
  cases compiler with
  | none => exact hvariants
  | some k => exact hvariants

end Selection

/-! ## Printed trees -/

namespace CommandLine

variable {m : Machine} {settings : Settings} {package : String} {selection : Selection}

theorem choose_wellFormed {chosen : Chosen} (h : choose m.files settings package selection = .ok chosen) :
    (chosen.repository.defaultTree chosen.configuration).WellFormed ∧
      (chosen.repository.defaultTree chosen.configuration).Within chosen.repository.size := by
  obtain ⟨r, hload, h⟩ := exceptBind_ok.1 h
  obtain ⟨s, hrequire, h⟩ := exceptBind_ok.1 h
  obtain ⟨c, happly, h⟩ := exceptBind_ok.1 h
  cases h
  have hr : r.Reachable := Repository.loadDir_reachable (exceptMapError_ok.1 hload)
  have hs : r.spec? package = some s := by
    have hrequire := exceptMapError_ok.1 hrequire
    unfold Repository.require at hrequire
    split at hrequire
    · cases hrequire
      assumption
    · cases hrequire
  have hc : c.WellFormed := Selection.apply_wellFormed (hr.isRead hs) (exceptMapError_ok.1 happly)
  obtain ⟨hname, hempty⟩ := Selection.apply_bare (exceptMapError_ok.1 happly)
  have hroot : c.name ∈ r.names := by
    rw [hname, hr.keyed.named package s hs]
    exact Repository.mem_names_iff.2 ⟨s, hs⟩
  have hsize : (r.names.erase c.name).length + 1 = r.size := by
    rw [List.length_erase_add_one hroot, Repository.names, NameMap.length_keys, Repository.size]
  have htree := hr.expand_wellFormed (r.names.erase c.name) ⟨hc, Configuration.within_of_dependencies_empty hempty _⟩
  rwa [hsize] at htree

/-- The output is the tree on its own. -/
theorem run_deps (m : Machine) (settings : Settings) (package : String) (selection : Selection) :
    ((Command.deps package selection true).run m settings).1 =
      .ofLines ((choose m.files settings package selection).map fun chosen =>
        [(chosen.repository.defaultTree chosen.configuration).toData.toJson]) := by
  rw [Command.run, deps]
  cases choose m.files settings package selection <;> rfl

/-- A configuration tree is given back by the data that it is written as, also when the fields come in another order;
and by the text of this data, if the reader of the text can nest deep enough. This is about two levels of data for each
level of the tree. The tree that is printed for a package has at most as many levels as there are recipes; it is the
whole output, and it is read back from there. -/
theorem trees_readBack :
    (∀ c : Configuration, c.WellFormed → Configuration.ofData? c.toData = some c ∧
      ∀ d, c.toData.Reordered d → Configuration.ofData? d = some c) ∧
    (∀ read limit, Data.ReadsBack read limit → ∀ (c : Configuration) levels, c.WellFormed → c.Within levels →
      2 * levels + 1 ≤ limit → (read c.toData.toJson).bind Configuration.ofData? = some c) ∧
    ∀ (m : Machine) (settings : Settings) (package : String) (selection : Selection),
      let report := ((Command.deps package selection true).run m settings).1
      report.result = .ok () → ∃ chosen, choose m.files settings package selection = .ok chosen ∧
        let tree := chosen.repository.defaultTree chosen.configuration
        report.output = tree.toData.toJson ++ "\n" ∧ Configuration.ofData? tree.toData = some tree ∧
        tree.Within chosen.repository.size ∧
        ∀ read limit, Data.ReadsBack read limit → ∀ levels, tree.Within levels → 2 * levels + 1 ≤ limit →
          (read report.output).bind Configuration.ofData? = some tree := by
  refine ⟨fun c hc => ⟨?_, fun d hd => Configuration.ofData?_reordered hc hd⟩, ?_, ?_⟩
  · exact Configuration.ofData?_reordered hc (.same _)
  · intro read limit hread c levels hc hlevels hlimit
    have hback := Configuration.readBack hc hlevels hread hlimit "" (List.forall_mem_nil _)
    rwa [String.append_empty] at hback
  · intro m settings package selection
    dsimp only
    rw [run_deps]
    cases hchosen : choose m.files settings package selection with
    | error failure => exact nofun
    | ok chosen =>
        intro _
        obtain ⟨htree, hsize⟩ := choose_wellFormed hchosen
        have houtput :
            (Report.ofLines (.ok [(chosen.repository.defaultTree chosen.configuration).toData.toJson])).output =
              (chosen.repository.defaultTree chosen.configuration).toData.toJson ++ "\n" := by
          simp [Report.ofLines, Report.ok, Report.output]
        refine ⟨chosen, rfl, houtput, Configuration.ofData?_reordered htree (.same _), hsize, ?_⟩
        intro read limit hread levels hlevels hlimit
        rw [Except.map, houtput]
        exact Configuration.readBack htree hlevels hread hlimit "\n" (List.forall_mem_singleton.2 rfl)

/-- A package with values of all kinds, under two compilers, of which one is without a version. -/
def nested : Configuration where
  name := "solver"
  version := ⟨"2.03.00", [.number 2, .number 3, .number 0]⟩
  variants := .ofList [("cuda", .bool true), ("output", .multi .empty), ("backend", .single "petsc"),
    ("precision", .multi (.ofList ["single", "double"]))]
  compiler := some ⟨"gcc", some ⟨"8.1.0", [.number 8, .number 1, .number 0]⟩⟩
  dependencies := .ofList [("mpi", .bare "mpich" ⟨"4.0", [.number 4, .number 0]⟩),
    ("blas", (Configuration.bare "openblas" ⟨"develop", [.text "develop"]⟩).withCompiler ⟨"clang", none⟩)]

theorem wellFormed_nested : nested.WellFormed := by
  have hmpi : (Configuration.bare "mpich" ⟨"4.0", [.number 4, .number 0]⟩).WellFormed :=
    Configuration.wellFormed_bare _ ⟨"4.0", by rfl⟩
  have hblas : (Configuration.bare "openblas" ⟨"develop", [.text "develop"]⟩).WellFormed :=
    Configuration.wellFormed_bare _ ⟨"develop", by rfl⟩
  have hroot : Configuration.WellFormed { nested with dependencies := .empty } := by
    refine .mk ⟨"2.03.00", by rfl⟩ ?_ (NameMap.ofList_ascending _) NameMap.empty_ascending nofun
    rintro _ ⟨⟩ _ ⟨⟩
    exact ⟨"8.1.0", by rfl⟩
  exact (hroot.attach hmpi "mpi").attach (hblas.withCompiler (by rintro _ ⟨⟩ _ ⟨⟩)) "blas"

theorem within_nested : nested.Within 2 := by
  have hroot : Configuration.Within 2 { nested with dependencies := .empty } :=
    Configuration.within_of_dependencies_empty rfl 1
  have hleaf {d : Configuration} (h : d.dependencies = .empty) : d.Within 1 :=
    Configuration.within_of_dependencies_empty h 0
  exact (hroot.attach (hleaf rfl) "mpi").attach (hleaf rfl) "blas"

/-- Two recipes, of which one needs the other. -/
def shelf : FileTree where
  entries := [(["recipes"], .directory),
    (["recipes", "app.toml"], .file ("[package]\nname = \"app\"\nurl = \"app.tar\"\n" ++
      "[[versions]]\nversion = \"1.0\"\n[[depends]]\nspec = \"mesh\"\n").toUTF8),
    (["recipes", "mesh.toml"], .file ("[package]\nname = \"mesh\"\nurl = \"mesh.tar\"\n" ++
      "[[versions]]\nversion = \"develop\"\n").toUTF8)]

theorem recipeFiles_shelf :
    Repository.recipeFiles shelf ⟨"recipes"⟩ = .ok [⟨"recipes/app.toml"⟩, ⟨"recipes/mesh.toml"⟩] := by
  have hsorted : ["app.toml", "mesh.toml"].mergeSort (· ≤ ·) = ["app.toml", "mesh.toml"] :=
    List.mergeSort_of_pairwise (by decide)
  have hlist : shelf.list ⟨"recipes"⟩ = .ok ["app.toml", "mesh.toml"] := by
    rw [← hsorted]
    rfl
  have hsteps : ["app.toml", "mesh.toml"].flatMap (fun name =>
      let p := (⟨"recipes"⟩ : Path) / name
      if shelf.isDirectory p then Repository.recipesIn shelf shelf.entries.length p
      else if shelf.isFile p && p.extension? == some "toml" then [p] else []) =
        [⟨"recipes/app.toml"⟩, ⟨"recipes/mesh.toml"⟩] := by decide +kernel
  rw [Repository.recipeFiles, if_pos (by decide +kernel), Repository.recipesIn, hlist]
  exact congrArg Except.ok hsteps

def shelfMachine : Machine := ⟨shelf, .empty, none, 1, .recording⟩

theorem trees_readBack_shelf :
    Data.ReadsBack (Json.read 127) 127 ∧ nested.WellFormed ∧ nested.Within 2 ∧
      (Json.read 127 nested.toData.toJson).bind Configuration.ofData? = some nested ∧
      let report := ((Command.deps "app" ⟨none, [], some "gcc@8.1.0"⟩ true).run shelfMachine .default).1
      report.result = .ok () ∧ ∃ chosen,
        choose shelf .default "app" ⟨none, [], some "gcc@8.1.0"⟩ = .ok chosen ∧ chosen.repository.size = 2 ∧
        (Json.read 127 report.output).bind Configuration.ofData? =
          some (chosen.repository.defaultTree chosen.configuration) := by
  have hload : loadRecipes shelf .default = ([⟨"recipes/app.toml"⟩, ⟨"recipes/mesh.toml"⟩].foldlM
      (Repository.addFile shelf) .empty).mapError (.during (.loadRecipes ⟨"recipes"⟩)) := by
    rw [loadRecipes, Repository.loadDir, show Settings.default.repoDir = ⟨"recipes"⟩ from rfl, recipeFiles_shelf]
  have hsize : ((choose shelf .default "app" ⟨none, [], some "gcc@8.1.0"⟩).toOption.map fun chosen =>
      chosen.repository.size) = some 2 := by
    rw [choose, hload]
    decide +kernel
  obtain ⟨chosen, hchosen, hsize⟩ := Option.map_eq_some_iff.1 hsize
  have hchosen : choose shelf .default "app" ⟨none, [], some "gcc@8.1.0"⟩ = .ok chosen := by
    cases h : choose shelf .default "app" ⟨none, [], some "gcc@8.1.0"⟩ with
    | error failure => rw [h] at hchosen; cases hchosen
    | ok c => rw [h] at hchosen; cases hchosen; rfl
  have hresult : ((Command.deps "app" ⟨none, [], some "gcc@8.1.0"⟩ true).run shelfMachine .default).1.result =
      .ok () := by
    rw [run_deps, show shelfMachine.files = shelf from rfl, hchosen]
    rfl
  have hreads := Json.readsBack_read 127
  obtain ⟨-, htexts, hprinted⟩ := trees_readBack
  obtain ⟨chosen', hchosen', -, -, hlevels, hback⟩ := hprinted shelfMachine .default "app" _ hresult
  obtain rfl : chosen = chosen' := Except.ok.inj (hchosen.symm.trans hchosen')
  rw [hsize] at hlevels
  have hnested := htexts _ _ hreads nested 2 wellFormed_nested within_nested (by decide)
  exact ⟨hreads, wellFormed_nested, within_nested, hnested, hresult, chosen, hchosen, hsize,
    hback _ _ hreads 2 hlevels (by decide)⟩

end CommandLine

end PackageRecipes
