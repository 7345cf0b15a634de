import PackageRecipes.Build.FileSteps
import PackageRecipes.Proofs.Files.Basic

/-!
# Directories on the way

Directories that are made as needed are all that making them changes. Once they are there they stay, and paths lead
through them to the same places, whatever is written into files.
-/

namespace PackageRecipes

namespace FileTree

variable {t t' t'' : FileTree} {here there l : Location} {p : Path}

/-! ## Following paths through directories -/

/-- What was a directory is still one. -/
def KeepsDirectories (t t' : FileTree) : Prop := ∀ l, t.get? l = some .directory → t'.get? l = some .directory

namespace KeepsDirectories

theorem enter (h : KeepsDirectories t t') {name : String} (hok : t.enter here name = .ok there) :
    t'.enter here name = .ok there := by
  rw [FileTree.enter] at hok ⊢
  split at hok
  · next hdot => rwa [if_pos hdot]
  · next hdot =>
      rw [if_neg hdot]
      split at hok
      · next hup => rwa [if_pos hup]
      · next hup =>
          rw [if_neg hup]
          rcases hentry : t.get? (here ++ [name]) with _ | _ | _ <;> rw [hentry] at hok
          · cases hok
          · cases hok
          · rw [h _ hentry]
            exact hok

theorem follow (h : KeepsDirectories t t') {names : List String} (hok : t.follow here names = .ok l) :
    t'.follow here names = .ok l := by
  fun_induction FileTree.follow t here names with
  | case1 => exact hok
  | case2 here name hstep => rw [FileTree.follow, if_pos hstep, h.enter hok]
  | case3 here name hstep => rw [FileTree.follow, if_neg hstep, hok]
  | case4 => cases hok
  | case5 here name rest hrest there henter ih =>
      rw [FileTree.follow, h.enter henter]
      · exact ih hok
      · exact hrest

theorem reach (h : KeepsDirectories t t') (hok : t.reach p = .ok l) : t'.reach p = .ok l := by
  rw [FileTree.reach] at hok ⊢
  split at hok
  · cases hok
  · next htext => rw [if_neg htext, h.follow hok]

end KeepsDirectories

theorem isDirectory_iff : t.isDirectory p ↔ ∃ l, t.reach p = .ok l ∧ t.get? l = some .directory := by
  rw [isDirectory, look, locate]
  cases t.reach p with
  | error e => simp
  | ok l =>
      rcases hentry : t.get? l with _ | ⟨content⟩ | _
      · simp [hentry]
      · cases hslash : asksDirectory p <;> simp [hentry]
      · simp [hentry]

/-- The path leads to the file at this location. -/
structure FileAt (t : FileTree) (p : Path) (l : Location) (content : ByteArray) : Prop where
  located : t.locate p = .ok l
  entry : t.get? l = some (.file content)

variable {content : ByteArray}

theorem fileAt_iff : t.FileAt p l content ↔
    asksDirectory p = false ∧ t.reach p = .ok l ∧ t.get? l = some (.file content) := by
  constructor
  · rintro ⟨hlocate, hentry⟩
    rw [locate] at hlocate
    cases hreach : t.reach p with
    | error e => simp [hreach] at hlocate
    | ok k =>
        rcases hk : t.get? k with _ | _ | _ <;> cases hslash : asksDirectory p <;> simp_all
  · rintro ⟨hslash, hreach, hentry⟩
    refine ⟨?_, hentry⟩
    simp [locate, hreach, hentry, hslash]

theorem FileAt.unique {k : Location} {other : ByteArray} (h : t.FileAt p l content) (h' : t.FileAt p k other) :
    l = k ∧ content = other := by
  obtain rfl : l = k := Except.ok.inj (h.located.symm.trans h'.located)
  exact ⟨rfl, Entry.file.inj (Option.some.inj (h.entry.symm.trans h'.entry))⟩

/-- In directories that stay a path leads to the same file, whatever is in it. -/
theorem FileAt.kept {kept : ByteArray} (h : t.FileAt p l content) (hkeeps : KeepsDirectories t t')
    (hentry : t'.get? l = some (.file kept)) : t'.FileAt p l kept := by
  obtain ⟨hslash, hreach, -⟩ := fileAt_iff.1 h
  exact fileAt_iff.2 ⟨hslash, hkeeps.reach hreach, hentry⟩

theorem look_fileAt : t.look p = .ok (.file content) ↔ ∃ l, t.FileAt p l content := by
  constructor
  · intro h
    rw [look] at h
    cases hlocate : t.locate p with
    | error e => simp [hlocate] at h
    | ok l =>
        cases hentry : t.get? l with
        | none => simp [hlocate, hentry] at h
        | some e =>
            obtain rfl : e = .file content := by simpa [hlocate, hentry] using h
            exact ⟨l, hlocate, hentry⟩
  · rintro ⟨l, hlocate, hentry⟩
    rw [look, hlocate]
    simp only [hentry, Option.elim_some]

theorem read_fileAt : t.read p = .ok content ↔ ∃ l, t.FileAt p l content := by
  rw [← look_fileAt, read]
  rcases t.look p with _ | ⟨_⟩ | _ <;> simp

/-! ## Making directories -/

/-- All is as it was, but where nothing was there may be a directory. -/
def Grows (t t' : FileTree) : Prop := ∀ l, t'.get? l = t.get? l ∨ (t.get? l = none ∧ t'.get? l = some .directory)

namespace Grows

theorem refl (t : FileTree) : Grows t t := fun _ => .inl rfl

theorem kept (h : Grows t t') {e : Entry} (hentry : t.get? l = some e) : t'.get? l = some e := by
  rcases h l with hsame | ⟨hnone, -⟩
  · rw [hsame, hentry]
  · rw [hentry] at hnone
    cases hnone

theorem file (h : Grows t t') (hentry : t'.get? l = some (.file content)) : t.get? l = some (.file content) := by
  rcases h l with hsame | ⟨-, hdir⟩
  · rw [← hsame, hentry]
  · rw [hentry] at hdir
    cases hdir

theorem trans (h : Grows t t') (h' : Grows t' t'') : Grows t t'' := by
  intro l
  rcases h l with hsame | ⟨hnone, hdir⟩
  · rw [← hsame]
    exact h' l
  · exact .inr ⟨hnone, h'.kept hdir⟩

end Grows

theorem isBase_of_not_directory (h : t.get? l ≠ some .directory) : isBase l = false := by
  cases hbase : isBase l with
  | true => exact absurd (by rw [get?, if_pos hbase]) h
  | false => rfl

theorem isBase_of_none (h : t.get? l = none) : isBase l = false :=
  isBase_of_not_directory fun hdir => by rw [h] at hdir; cases hdir

theorem makeDirectory_ok :
    t.makeDirectory p = .ok t' ↔ ∃ l, t.reach p = .ok l ∧ t.get? l = none ∧ t' = t.put l .directory := by
  rw [makeDirectory]
  cases t.reach p with
  | error e => simp
  | ok l => cases hentry : t.get? l <;> simp [hentry, eq_comm]

theorem grows_put (h : t.get? l = none) : Grows t (t.put l .directory) := by
  intro m
  rw [get?_put (isBase_of_none h)]
  split
  · next hm => exact .inr ⟨hm ▸ h, rfl⟩
  · exact .inl rfl

theorem makeDirectory_grows (h : t.makeDirectory p = .ok t') : Grows t t' := by
  obtain ⟨l, -, hnone, rfl⟩ := makeDirectory_ok.1 h
  exact grows_put hnone

theorem makeDirectory_of_isDirectory (h : t.isDirectory p) : t.makeDirectory p = .error .fileExists := by
  obtain ⟨l, hreach, hdir⟩ := isDirectory_iff.1 h
  simp only [makeDirectory, hreach, hdir, Option.isSome_some, ↓reduceIte]

theorem makeFirst_grows (t : FileTree) (paths : List Path) : Grows t (t.makeFirst paths).2 := by
  induction paths with
  | nil => exact .refl t
  | cons p above ih =>
      rw [makeFirst]
      split
      · exact .refl t
      · split
        · next h => exact makeDirectory_grows h
        · split
          · next h => rw [h] at ih; exact ih
          · next h =>
              rw [h] at ih
              split
              · next hmade => exact ih.trans (makeDirectory_grows hmade)
              · exact ih
        · exact .refl t

/-- The path is that of a directory; the empty one stands for the working directory. -/
def Stands (t : FileTree) (p : Path) : Prop := p.text = "" ∨ t.isDirectory p

theorem makeFirst_of_stands {above : List Path} (h : Stands t p) : t.makeFirst (p :: above) = (.ok (), t) := by
  rw [makeFirst]
  split
  · rfl
  · next htext =>
      have hdir := h.resolve_left htext
      rw [makeDirectory_of_isDirectory hdir, hdir]
      rfl

theorem exists_ancestors (p : Path) : ∃ above, p.ancestors = p :: above := by
  rw [Path.ancestors, Path.upward]
  cases p.parent? with
  | none => exact ⟨[], rfl⟩
  | some q => exact ⟨_, rfl⟩

theorem makeDirectories_grows (t : FileTree) (p : Path) : Grows t (t.makeDirectories p).2 := makeFirst_grows t _

theorem makeDirectories_of_stands (h : Stands t p) : t.makeDirectories p = (.ok (), t) := by
  obtain ⟨above, habove⟩ := exists_ancestors p
  rw [makeDirectories, habove]
  exact makeFirst_of_stands h

/-! ## Writing files -/

theorem replace_replace (l : Location) (e e' : Entry) (entries : List (Location × Entry)) :
    replace l e' (replace l e entries) = replace l e' entries := by
  induction entries with
  | nil => simp [replace]
  | cons entry entries ih =>
      obtain ⟨k, old⟩ := entry
      simp only [replace]
      split
      · next h => simp [replace, h]
      · next h => simp [replace, h, ih]

theorem put_put (t : FileTree) (l : Location) (e e' : Entry) : (t.put l e).put l e' = t.put l e' :=
  congrArg FileTree.mk (replace_replace l e e' t.entries)

theorem keepsDirectories_put (h : t.get? l ≠ some .directory) (content : ByteArray) :
    KeepsDirectories t (t.put l (.file content)) := by
  intro m hm
  rw [get?_put (isBase_of_not_directory h)]
  split
  · next heq => exact absurd (heq ▸ hm) h
  · exact hm

theorem writable_ok : t.writable p = .ok l ↔
    t.reach p = .ok l ∧ t.get? l ≠ some .directory ∧ asksDirectory p = false := by
  rw [writable, locate]
  cases t.reach p with
  | error e => simp
  | ok m =>
      by_cases hm : m = l
      · subst hm
        rcases hentry : t.get? m with _ | ⟨content⟩ | _ <;> cases hslash : asksDirectory p <;> simp [hentry]
      · rcases hentry : t.get? m with _ | ⟨content⟩ | _ <;> cases hslash : asksDirectory p <;> simp [hentry, hm]

theorem locate_of_writable (h : t.writable p = .ok l) : t.locate p = .ok l := by
  obtain ⟨hreach, hdir, hslash⟩ := writable_ok.1 h
  rw [locate, hreach]
  rcases hentry : t.get? l with _ | _ | _ <;> simp [hentry, hslash]

theorem readText_of_writable (h : t.writable p = .ok l) : t.readText p =
    match t.get? l with
    | none => .error .noSuchFile
    | some .directory => .error .isDirectory
    | some (.file content) => (String.fromUTF8? content).elim (.error .invalidText) .ok := by
  rw [readText, read, look, locate_of_writable h]
  rcases hentry : t.get? l with _ | _ | _ <;> simp only [hentry] <;> rfl

theorem writable_put (h : t.writable p = .ok l) (content : ByteArray) :
    (t.put l (.file content)).writable p = .ok l ∧ (t.put l (.file content)).FileAt p l content := by
  obtain ⟨hreach, hdir, hslash⟩ := writable_ok.1 h
  have hafter := (keepsDirectories_put hdir content).reach hreach
  have hentry : (t.put l (.file content)).get? l = some (.file content) := by
    rw [get?_put (isBase_of_not_directory hdir), if_pos rfl]
  refine ⟨writable_ok.2 ⟨hafter, ?_, hslash⟩, fileAt_iff.2 ⟨hslash, hafter, hentry⟩⟩
  rw [hentry]
  simp

theorem readText_written (h : t.writable p = .ok l) (text : String) :
    (t.put l (.file text.toUTF8)).readText p = .ok text := by
  obtain ⟨hlocate, hentry⟩ := (writable_put h text.toUTF8).2
  exact readText_ok.2 ⟨l, _, hlocate, hentry, fromUTF8?_toUTF8 text⟩

end FileTree

end PackageRecipes
