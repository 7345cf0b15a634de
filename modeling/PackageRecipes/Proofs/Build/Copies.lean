import PackageRecipes.Build.Hooks
import PackageRecipes.Proofs.Build.Plan
import PackageRecipes.Proofs.Files.Parent

/-!
# Copies

A copy leaves its source as it was, gives the target the same content, and changes no other file. This is so for all
copies that succeed but one kind: if both paths lead to the same file, the file is emptied before it is read.
-/

namespace PackageRecipes

namespace FileTree

variable {t t' : FileTree} {p source target : Path} {l m : Location} {content : ByteArray}

/-! ## What a copy reads and writes -/

theorem put_fileAt (h : t.FileAt source l content) (hwritable : t.writable target = .ok m) (kept : ByteArray) :
    (t.put m (.file kept)).FileAt source l (if l = m then kept else content) := by
  obtain ⟨-, hdir, -⟩ := writable_ok.1 hwritable
  refine h.kept (keepsDirectories_put hdir kept) ?_
  rw [get?_put (isBase_of_not_directory hdir)]
  split
  · rfl
  · exact h.entry

theorem write_ok : t.write p content = .ok t' ↔ ∃ m, t.writable p = .ok m ∧ t' = t.put m (.file content) := by
  rw [write, exceptMap_ok]
  simp only [eq_comm]

/-- A copy reads its source after the target is emptied. -/
theorem copy_fileAt (h : t.FileAt source l content) (hwritable : t.writable target = .ok m) :
    t.copy source target = .ok (t.put m (.file (if l = m then .empty else content))) := by
  have hread := read_fileAt.2 ⟨l, put_fileAt h hwritable .empty⟩
  have hagain (kept : ByteArray) : (t.put m (.file .empty)).write target kept = .ok (t.put m (.file kept)) :=
    write_ok.2 ⟨m, (writable_put hwritable _).1, (put_put t m _ _).symm⟩
  simp only [copy, look_fileAt.2 ⟨l, h⟩, write_ok.2 ⟨m, hwritable, rfl⟩, hread, hagain]

theorem copy_ok : t.copy source target = .ok t' ↔ ∃ l m content, t.FileAt source l content ∧
    t.writable target = .ok m ∧ t' = t.put m (.file (if l = m then .empty else content)) := by
  constructor
  · intro h
    rcases hlook : t.look source with e | ⟨content⟩ | _
    · simp [copy, hlook] at h
    · obtain ⟨l, hsource⟩ := look_fileAt.1 hlook
      cases hwritable : t.writable target with
      | error e => simp [copy, hlook, write, hwritable, Except.map] at h
      | ok m =>
          rw [copy_fileAt hsource hwritable] at h
          exact ⟨l, m, content, hsource, rfl, (Except.ok.inj h).symm⟩
    · simp [copy, hlook] at h
  · rintro ⟨l, m, content, hsource, hwritable, rfl⟩
    exact copy_fileAt hsource hwritable

end FileTree

namespace FileStep

open FileTree

variable {t t₁ t' : FileTree} {source target : Path}

/-! ## One copy -/

theorem runOn_copyFile_ok : (copyFile source target).runOn t = (.ok (), t') ↔
    ∃ t₁, (makeParent target).runOn t = (.ok (), t₁) ∧ t₁.copy source target = .ok t' := by
  rw [copyFile, Update.runOn_bind]
  rcases (makeParent target).runOn t with ⟨e | _, t₁⟩
  · simp
  · cases hcopy : t₁.copy source target with
    | error fault => simp [runOn_change_error (f := (·.copy source target)) hcopy, hcopy]
    | ok after => simp [runOn_change (f := (·.copy source target)) hcopy, hcopy]

/-- No file but the target has changed. -/
def OthersKept (target : Path) (t t' : FileTree) : Prop :=
  ∀ l old, t'.locate target ≠ .ok l → t.get? l = some (.file old) → t'.get? l = some (.file old)

/-- The source is the file that it was, the target has its content, and no other file has changed. -/
structure Faithful (source target : Path) (t t' : FileTree) : Prop where
  carried : ∃ l content, t.get? l = some (.file content) ∧ t'.FileAt source l content ∧
    ∃ m, t'.FileAt target m content
  others : OthersKept target t t'

/-- Both paths lead to the same file, and there was something in it. -/
def Clobbers (source target : Path) (t t' : FileTree) : Prop :=
  ∃ l content, t.get? l = some (.file content) ∧ content ≠ .empty ∧ t'.locate source = .ok l ∧ t'.locate target = .ok l

theorem copyFile_carries (h : (copyFile source target).runOn t = (.ok (), t')) : OthersKept target t t' ∧
    ∃ l m content, t.get? l = some (.file content) ∧ t'.FileAt source l (if l = m then .empty else content) ∧
      t'.FileAt target m (if l = m then .empty else content) := by
  obtain ⟨t₁, hmade, hcopy⟩ := runOn_copyFile_ok.1 h
  obtain ⟨l, m, content, hsource, hwritable, rfl⟩ := copy_ok.1 hcopy
  have hgrows := makeParent_grows hmade
  obtain ⟨-, hdir, -⟩ := writable_ok.1 hwritable
  have htarget := (writable_put hwritable (if l = m then .empty else content)).2
  refine ⟨fun k old hk hold => ?_, l, m, content, hgrows.file hsource.entry, ?_, htarget⟩
  · rw [get?_put (isBase_of_not_directory hdir), if_neg]
    · exact hgrows.kept hold
    · rintro rfl
      exact hk htarget.located
  · have hsource := put_fileAt hsource hwritable (if l = m then .empty else content)
    by_cases heq : l = m
    · simpa only [if_pos heq] using hsource
    · simpa only [if_neg heq] using hsource

theorem Clobbers.emptied (h : Clobbers source target t t')
    (hcopy : (copyFile source target).runOn t = (.ok (), t')) :
    ∃ l content, t.get? l = some (.file content) ∧ content ≠ .empty ∧ t'.FileAt source l .empty := by
  obtain ⟨-, l, m, _, -, hsource, htarget⟩ := copyFile_carries hcopy
  obtain ⟨k, content, hfilled, hne, hlocate, hlocate'⟩ := h
  obtain rfl : k = l := Except.ok.inj (hlocate.symm.trans hsource.located)
  obtain rfl : k = m := Except.ok.inj (hlocate'.symm.trans htarget.located)
  rw [if_pos rfl] at hsource
  exact ⟨k, content, hfilled, hne, hsource⟩

theorem faithful_iff (h : (copyFile source target).runOn t = (.ok (), t')) :
    Faithful source target t t' ↔ ¬ Clobbers source target t t' := by
  constructor
  · rintro ⟨⟨k, kept, hk, hkept, -⟩, -⟩ hclobbers
    obtain ⟨l, content, hfilled, hne, hempty⟩ := hclobbers.emptied h
    obtain ⟨rfl, rfl⟩ := hkept.unique hempty
    rw [hk] at hfilled
    cases hfilled
    exact hne rfl
  · intro hapart
    obtain ⟨hothers, l, m, content, hold, hsource, htarget⟩ := copyFile_carries h
    have hkept : (if l = m then .empty else content) = content := by
      split
      · next heq =>
          by_contra hne
          exact hapart ⟨l, content, hold, Ne.symm hne, hsource.located, heq ▸ htarget.located⟩
      · rfl
    rw [hkept] at hsource htarget
    exact ⟨⟨l, content, hold, hsource, m, htarget⟩, hothers⟩

/-- What a copy that succeeds does. -/
structure Outcome (source target : Path) (t t' : FileTree) : Prop where
  others : OthersKept target t t'
  faithful : Faithful source target t t' ↔ ¬ Clobbers source target t t'
  emptied : Clobbers source target t t' → t'.read source = .ok .empty

theorem outcome_of_copyFile (h : (copyFile source target).runOn t = (.ok (), t')) : Outcome source target t t' where
  others := (copyFile_carries h).1
  faithful := faithful_iff h
  emptied hclobbers := by
    obtain ⟨l, _, -, -, hempty⟩ := hclobbers.emptied h
    exact read_fileAt.2 ⟨l, hempty⟩

/-! ## Copies one after the other -/

/-- The copies are made one after the other, each on the files that the one before has left, and each is as stated. -/
inductive Copied (P : Path → Path → FileTree → FileTree → Prop) : List (Path × Path) → FileTree → FileTree → Prop
  | nil {t : FileTree} : Copied P [] t t
  | cons {t t₁ t' : FileTree} {source target : Path} {more : List (Path × Path)}
      (made : (copyFile source target).runOn t = (.ok (), t₁)) (stated : P source target t t₁)
      (rest : Copied P more t₁ t') : Copied P ((source, target) :: more) t t'

theorem copied_nil {P : Path → Path → FileTree → FileTree → Prop} : Copied P [] t t' ↔ t = t' := by
  constructor
  · rintro ⟨⟩
    rfl
  · rintro rfl
    exact .nil

theorem copied_cons {P : Path → Path → FileTree → FileTree → Prop} {more : List (Path × Path)} :
    Copied P ((source, target) :: more) t t' ↔
      ∃ t₁, (copyFile source target).runOn t = (.ok (), t₁) ∧ P source target t t₁ ∧ Copied P more t₁ t' := by
  constructor
  · rintro ⟨⟩
    exact ⟨_, ‹_›, ‹_›, ‹_›⟩
  · rintro ⟨t₁, made, stated, rest⟩
    exact .cons made stated rest

theorem Copied.imp {P Q : Path → Path → FileTree → FileTree → Prop} {jobs : List (Path × Path)}
    (hstep : ∀ source target t t', (copyFile source target).runOn t = (.ok (), t') → P source target t t' →
      Q source target t t') (h : Copied P jobs t t') : Copied Q jobs t t' := by
  induction h with
  | nil => exact .nil
  | cons made stated _ ih => exact .cons made (hstep _ _ _ _ made stated) ih

end FileStep

namespace Action

variable {α : Type} {w w' : World}

theorem runOn_forM_copies {f : α → Action Unit} (job? : α → Option (Path × Path))
    (hf : ∀ x, f x = (job? x).elim (pure ()) fun job => .onFiles (.copyFile job.1 job.2)) (xs : List α) :
    (xs.forM f).runOn w = (.ok (), w') ↔
      FileStep.Copied (fun _ _ _ _ => True) (xs.filterMap job?) w.files w'.files ∧ w'.issued = w.issued := by
  induction xs generalizing w with
  | nil =>
      obtain ⟨files, issued⟩ := w
      obtain ⟨files', issued'⟩ := w'
      show (Except.ok (), World.mk files issued) = _ ↔ _
      simp [FileStep.copied_nil, eq_comm]
  | cons x xs ih =>
      rw [List.forM_eq_forM, List.forM_cons, ← List.forM_eq_forM, hf x]
      cases hjob : job? x with
      | none =>
          rw [List.filterMap_cons_none hjob]
          exact ih
      | some job =>
          obtain ⟨source, target⟩ := job
          rw [List.filterMap_cons_some hjob, Option.elim_some, Update.runOn_bind_eq_ok, FileStep.copied_cons]
          simp only [runOn_onFiles_ok, ih, true_and]
          constructor
          · rintro ⟨⟨⟩, w₁, ⟨hmade, hissued⟩, hrest, hissued'⟩
            exact ⟨⟨w₁.files, hmade, hrest⟩, hissued'.trans hissued⟩
          · rintro ⟨⟨t₁, hmade, hrest⟩, hissued⟩
            exact ⟨(), ⟨t₁, w.issued⟩, ⟨hmade, rfl⟩, hrest, hissued⟩

end Action

namespace RecipeHooks

open FileStep

/-- The copies that a recipe asks for, with the paths that they lead between; a dry run makes none. -/
def copyJobs (h : RecipeHooks) (ctx : BuildContext) : List (Path × Path) :=
  if ctx.runner.isDry then []
  else (activeEntries h.copies ctx.configuration).map fun c => (ctx.sourcePath c.source, ctx.sourcePath c.target)

/-- The copies that install the files; each goes to the file of its name below the target. -/
def installJobs (target : Path) (files : List Path) : List (Path × Path) :=
  files.filterMap fun file => file.fileName?.map fun name => (file, target / name)

theorem runOn_copyFiles_ok {h : RecipeHooks} {ctx : BuildContext} {w w' : World} :
    (h.copyFiles ctx).runOn w = (.ok (), w') ↔
      Copied (fun _ _ _ _ => True) (h.copyJobs ctx) w.files w'.files ∧ w'.issued = w.issued := by
  rw [copyFiles, Action.runOn_forM_copies fun c =>
    if ctx.runner.isDry then none else some (ctx.sourcePath c.source, ctx.sourcePath c.target)]
  · rw [copyJobs]
    cases ctx.runner.isDry <;> simp
  · intro c
    rw [BuildContext.unlessDry]
    cases ctx.runner.isDry <;> rfl

theorem runOn_installFiles_ok {source target : Path} {w w' : World} :
    (installFiles source target).runOn w = (.ok (), w') ↔ ∃ files, filesLike source w.files = .ok files ∧
      Copied (fun _ _ _ _ => True) (installJobs target files) w.files w'.files ∧ w'.issued = w.issued := by
  have hlook (r : Except Error (List Path)) (w₁ : World) :
      (Action.onFiles (inspect (filesLike source))).runOn w = (r, w₁) ↔ filesLike source w.files = r ∧ w = w₁ :=
    Prod.ext_iff
  rw [installFiles, Update.runOn_bind_eq_ok]
  refine exists_congr fun files => ?_
  simp only [hlook, and_assoc, exists_and_left, exists_eq_left']
  refine and_congr_right fun _ => Action.runOn_forM_copies _ (fun file => ?_) files
  cases file.fileName? <;> rfl

/-- The copies of a recipe and those that install files each leave their source as it was and the target with the
same content, unless they copy a file with something in it onto itself, which they leave empty. In no case another
file has changed. -/
theorem copies_faithful_iff (h : RecipeHooks) (ctx : BuildContext) (w w' : World) :
    ((h.copyFiles ctx).runOn w = (.ok (), w') ↔
      Copied Outcome (h.copyJobs ctx) w.files w'.files ∧ w'.issued = w.issued) ∧
    ∀ source target, (installFiles source target).runOn w = (.ok (), w') ↔
      ∃ files, filesLike source w.files = .ok files ∧
        Copied Outcome (installJobs target files) w.files w'.files ∧ w'.issued = w.issued := by
  have houtcome (jobs : List (Path × Path)) :
      Copied (fun _ _ _ _ => True) jobs w.files w'.files ↔ Copied Outcome jobs w.files w'.files :=
    ⟨.imp fun _ _ _ _ made _ => outcome_of_copyFile made, .imp fun _ _ _ _ _ _ => trivial⟩
  simp only [runOn_copyFiles_ok, runOn_installFiles_ok, houtcome, implies_true, and_self]

/-- A source directory with the settings of one machine. -/
def machineTree (settings : String) : FileTree :=
  ⟨[(["s"], .directory), (["s", "make.inc"], .file settings.toUTF8)]⟩

example : (copyFile ⟨"s/make.inc"⟩ ⟨"s/arch/make.inc"⟩).runOn (machineTree "FC = gfortran\n") =
    (.ok (), ⟨(machineTree "FC = gfortran\n").entries ++
      [(["s", "arch"], .directory), (["s", "arch", "make.inc"], .file "FC = gfortran\n".toUTF8)]⟩) := by
  rfl

/-- The hooks of a package that asks for one copy. -/
def copying (source target : String) : RecipeHooks where
  package := "solver"
  buildSystem := .makefile
  workdir := none
  makefile := none
  makeArgs := []
  installTarget := "install"
  makeInstall := true
  targets := []
  environment := []
  dependentEnvironment := []
  copies := [⟨.always, ⟨source, target, none⟩⟩]
  edits := []
  appends := []
  cmakeArgs := []
  commands := []
  install := []

def copyingBuild : BuildContext where
  spec := ⟨"solver", none, none, .makefile, true, [], [], [], []⟩
  configuration := Configuration.bare "solver" ⟨"1.0", [.number 1, .number 0]⟩
  installDir := ⟨"p"⟩
  sourceDir := ⟨"s"⟩
  dependencyDirs := .empty
  environment := .empty
  jobs := 1
  runner := .recording
  inherited := .empty

/-- Not every copy leaves its source as it was. -/
theorem not_copies_faithful : ¬ ∀ (h : RecipeHooks) (ctx : BuildContext) (w w' : World),
    (h.copyFiles ctx).runOn w = (.ok (), w') → Copied Faithful (h.copyJobs ctx) w.files w'.files := by
  intro hall
  have hjobs : (copying "make.inc" "make.inc").copyJobs copyingBuild = [(⟨"s/make.inc"⟩, ⟨"s/make.inc"⟩)] := by
    decide +kernel
  have hcopy : (copyFile ⟨"s/make.inc"⟩ ⟨"s/make.inc"⟩).runOn (machineTree "FC = gfortran\n") =
      (.ok (), machineTree "") := rfl
  have hrun : ((copying "make.inc" "make.inc").copyFiles copyingBuild).runOn
      ⟨machineTree "FC = gfortran\n", []⟩ = (.ok (), ⟨machineTree "", []⟩) := by
    rw [runOn_copyFiles_ok, hjobs]
    exact ⟨.cons hcopy trivial .nil, rfl⟩
  have hfaithful := hall _ _ _ _ hrun
  rw [hjobs, copied_cons] at hfaithful
  obtain ⟨t₁, made, hfaithful, -⟩ := hfaithful
  obtain rfl : machineTree "" = t₁ := congrArg Prod.snd (hcopy.symm.trans made)
  exact (faithful_iff hcopy).1 hfaithful
    ⟨["s", "make.inc"], "FC = gfortran\n".toUTF8, rfl, by decide +kernel, rfl, rfl⟩

end RecipeHooks

end PackageRecipes
