import Mathlib.Data.List.Induction
import PackageRecipes.Proofs.Except
import PackageRecipes.Proofs.Files.Directories
import PackageRecipes.Proofs.Text

/-!
# The directory that a file lies in

A file that a path leads to lies in a directory, and the path without its last component leads to this directory,
however the path is written.
-/

namespace PackageRecipes

open Text

namespace FileTree

variable {t t' : FileTree} {base here there l : Location} {p : Path} {names : List String} {name : String}

/-! ## Walking from directory to directory -/

/-- Where a path starts. -/
def origin (absolute : Bool) : Location := if absolute then ["/"] else []

theorem isBase_origin (absolute : Bool) : isBase (origin absolute) := by cases absolute <;> rfl

/-- The directory that is reached over all of the names. -/
def walk (t : FileTree) (here : Location) (names : List String) : Except FileFault Location :=
  names.foldlM t.enter here

/-- The location and all above it are directories. -/
def Accessible (t : FileTree) (here : Location) : Prop := ∀ l, l <+: here → t.get? l = some .directory

theorem accessible_base (h : isBase base) : Accessible t base := by
  have habove : ∀ l, l <+: base → isBase l := by
    simp only [isBase, Bool.or_eq_true, beq_iff_eq] at h ⊢
    rcases h with rfl | rfl
    · exact fun l hl => .inl (List.prefix_nil.1 hl)
    · intro l hl
      rw [← List.nil_append ["/"], List.prefix_concat_iff] at hl
      exact hl.symm.imp List.prefix_nil.1 id
  intro l hl
  rw [get?, if_pos (habove l hl)]

theorem Accessible.enter (h : Accessible t here) (henter : t.enter here name = .ok there) : Accessible t there := by
  rw [FileTree.enter] at henter
  split at henter
  · cases henter
    exact h
  · split at henter
    · cases henter
      split
      · exact h
      · exact fun l hl => h l (hl.trans (List.dropLast_prefix here))
    · split at henter
      · next hdir =>
          cases henter
          intro l hl
          rcases List.prefix_concat_iff.1 hl with rfl | hl
          · exact hdir
          · exact h l hl
      · cases henter
      · cases henter

theorem Accessible.walk (h : Accessible t here) (hwalk : t.walk here names = .ok there) : Accessible t there :=
  foldlM_invariant (fun _ _ _ hhere henter => hhere.enter henter) h hwalk

theorem walk_concat : t.walk here (names ++ [name]) = .ok l ↔
    ∃ there, t.walk here names = .ok there ∧ t.enter there name = .ok l := by
  rw [walk, List.foldlM_append, exceptBind_ok]
  simp only [List.foldlM_cons, List.foldlM_nil, bind_pure, walk]

theorem follow_concat : t.follow here (names ++ [name]) =
    t.walk here names >>= fun there => if isRelativeStep name then t.enter there name else .ok (there ++ [name]) := by
  induction names generalizing here with
  | nil => rfl
  | cons first names ih =>
      rw [List.cons_append, follow, walk, List.foldlM_cons]
      · cases t.enter here first with
        | error e => rfl
        | ok next => exact ih
      · simp

theorem follow_of_walk (h : t.walk here names = .ok l) : t.follow here names = .ok l := by
  induction names using List.reverseRecOn with
  | nil => exact h
  | append_singleton names name =>
      obtain ⟨there, hwalk, henter⟩ := walk_concat.1 h
      rw [follow_concat, hwalk]
      show (if isRelativeStep name then t.enter there name else .ok (there ++ [name])) = _
      split
      · exact henter
      · next hstep =>
          obtain ⟨hdot, hup⟩ : name ≠ "." ∧ name ≠ ".." := by simpa [isRelativeStep] using hstep
          rw [enter, if_neg hdot, if_neg hup] at henter
          split at henter
          · exact henter
          · cases henter
          · cases henter

theorem walk_dots (h : ∀ name ∈ names, name = ".") : t.walk here names = .ok here := by
  induction names with
  | nil => rfl
  | cons name names ih =>
      rw [List.forall_mem_cons] at h
      rw [walk, List.foldlM_cons, enter, if_pos h.1]
      exact ih h.2

/-! ## Paths in pieces -/

theorem isAbsolute_iff : p.isAbsolute ↔ p.text ≠ "" ∧ p.pieces.head? = some "" := by
  rw [Path.isAbsolute, Path.pieces, split, beq_iff_eq, Ne, ← String.toList_eq_nil_iff]
  cases p.text.toList with
  | nil => simp
  | cons c cs =>
      by_cases hc : c = '/'
      · simp [pieces, hc]
      · cases hpieces : pieces (· = '/') cs <;> simp [pieces, hc, hpieces]

theorem exists_trimPieces (first : String) (more : List String) :
    ∃ kept voids, Path.trimPieces (first :: more) = first :: kept ∧ more = kept ++ voids ∧
      ∀ piece ∈ voids, Path.isVoid piece := by
  refine ⟨_, (more.reverse.takeWhile Path.isVoid).reverse, rfl, ?_, ?_⟩
  · rw [← List.reverse_append, List.takeWhile_append_dropWhile, List.reverse_reverse]
  · simpa using List.all_eq_true.1 List.all_takeWhile

/-- A path that is put together from pieces leads where these lead. -/
theorem reach_ofPieces {absolute : Bool} {first : String} {more : List String}
    (habsolute : absolute ↔ first = "") (hslash : ∀ piece ∈ first :: more, '/' ∉ piece.toList)
    (hwalk : t.walk (origin absolute) ((first :: more).filter (· ≠ "")) = .ok l) :
    t.reach (Path.ofPieces absolute (first :: more)) = .ok l := by
  rw [Path.ofPieces]
  split
  · next hroot =>
      obtain ⟨rfl, honly⟩ : absolute ∧ first :: more = [""] := by simpa using hroot
      rw [honly] at hwalk
      exact hwalk
  · next hroot =>
      have hpieces : split '/' ("/".intercalate (first :: more)) = first :: more :=
        split_intercalate rfl (List.cons_ne_nil _ _) hslash
      have htext : "/".intercalate (first :: more) ≠ "" := by
        intro hempty
        rw [hempty] at hpieces
        obtain ⟨rfl, rfl⟩ : "" = first ∧ [] = more := by simpa [split, pieces] using hpieces
        simp [habsolute.2 rfl] at hroot
      have hstart : Path.isAbsolute ⟨"/".intercalate (first :: more)⟩ = absolute := by
        rw [Bool.eq_iff_iff, isAbsolute_iff, habsolute, Path.pieces, hpieces]
        simp [htext]
      rw [reach, if_neg htext, hstart, Path.pieces, hpieces]
      exact follow_of_walk hwalk

/-! ## The directory of a file -/

/-- The directory that the path lies in, if it has one, is there. -/
def ParentStands (t : FileTree) (p : Path) : Prop := ∀ dir ∈ p.parent?, Stands t dir

theorem parent?_of_pieces {first : String} {more : List String} (hpieces : p.pieces = first :: (more ++ [name]))
    (hname : Path.isVoid name = false) :
    p.parent? = some (Path.ofPieces p.isAbsolute (Path.trimPieces (first :: more))) := by
  have htrim : Path.trimPieces (first :: (more ++ [name])) = first :: (more ++ [name]) := by
    rw [Path.trimPieces, List.reverse_append, List.reverse_singleton, List.singleton_append,
      List.dropWhile_cons_of_neg (by simp [hname])]
    simp
  rw [Path.parent?, hpieces, htrim]
  split
  · next heq => cases heq
  · next heq => simp at heq
  · next heq =>
      obtain ⟨rfl, rfl⟩ := List.cons.inj heq
      rw [List.dropLast_concat]

/-- A file is named by the last piece of a path, in the directory that the pieces in front lead to. -/
theorem exists_directory {content : ByteArray} (h : t.FileAt p l content) :
    ∃ init name there, p.text ≠ "" ∧ p.pieces = init ++ [name] ∧ Path.isVoid name = false ∧
      t.walk (origin p.isAbsolute) (init.filter (· ≠ "")) = .ok there ∧ t.get? there = some .directory := by
  obtain ⟨hslash, hreach, hentry⟩ := fileAt_iff.1 h
  have htext : p.text ≠ "" := by
    intro hempty
    simp [reach, hempty] at hreach
  have hne : p.pieces ≠ [] := by
    rw [Path.pieces, split, Ne, List.map_eq_nil_iff]
    exact pieces_ne_nil _ _
  obtain ⟨init, name, hpieces⟩ := (List.eq_nil_or_concat' p.pieces).resolve_left hne
  have hname : name ≠ "" := by simpa [asksDirectory, hpieces] using hslash
  have hnames : p.pieces.filter (· ≠ "") = init.filter (· ≠ "") ++ [name] := by simp [hpieces, hname]
  rw [reach, if_neg htext, hnames, follow_concat, exceptBind_ok] at hreach
  obtain ⟨there, hwalk, hlast⟩ := hreach
  have haccess := (accessible_base (isBase_origin p.isAbsolute)).walk hwalk
  have hstep : isRelativeStep name = false := by
    cases hstep : isRelativeStep name with
    | false => rfl
    | true =>
        rw [if_pos hstep] at hlast
        rw [haccess.enter hlast l List.prefix_rfl] at hentry
        cases hentry
  rw [isRelativeStep, Bool.or_eq_false_iff] at hstep
  exact ⟨init, name, there, htext, hpieces, by simp [Path.isVoid, hname, hstep.1], hwalk,
    haccess there List.prefix_rfl⟩

theorem isDirectory_ofPieces {first : String} {more rest : List String} (htext : p.text ≠ "")
    (hpieces : p.pieces = first :: (more ++ rest))
    (hwalk : t.walk (origin p.isAbsolute) ((first :: more).filter (· ≠ "")) = .ok there)
    (hdir : t.get? there = some .directory) :
    t.isDirectory (Path.ofPieces p.isAbsolute (Path.trimPieces (first :: more))) := by
  obtain ⟨kept, voids, htrim, rfl, hvoids⟩ := exists_trimPieces first more
  rw [htrim]
  refine isDirectory_iff.2 ⟨there, reach_ofPieces ?_ (fun piece hmem => ?_) ?_, hdir⟩
  · rw [isAbsolute_iff, hpieces]
    simp [htext]
  · have hpiece : piece ∈ p.pieces := by
      rw [hpieces, List.append_assoc, ← List.cons_append]
      exact List.mem_append_left _ hmem
    obtain ⟨chars, hchars, rfl⟩ := List.mem_map.1 hpiece
    rw [String.toList_ofList]
    exact fun hslash => by simpa using (mem_of_mem_pieces hchars '/' hslash).2
  · rw [← List.cons_append, List.filter_append, walk, List.foldlM_append, exceptBind_ok] at hwalk
    obtain ⟨last, hkept, hdots⟩ := hwalk
    have hall : ∀ name ∈ voids.filter (· ≠ ""), name = "." := by
      intro name hname
      obtain ⟨hmem, hne⟩ := List.mem_filter.1 hname
      simpa [Path.isVoid, of_decide_eq_true hne] using hvoids name hmem
    obtain rfl : last = there := Except.ok.inj ((walk_dots hall).symm.trans hdots)
    exact hkept

theorem FileAt.parentStands {content : ByteArray} (h : t.FileAt p l content) : ParentStands t p := by
  obtain ⟨init, name, there, htext, hpieces, hname, hwalk, hentry⟩ := exists_directory h
  intro dir hdir
  cases init with
  | nil =>
      have hne : name ≠ "" := by
        rintro rfl
        cases hname
      have hparent : p.parent? = some ⟨""⟩ := by
        simp [Path.parent?, hpieces, Path.trimPieces, hne]
      rw [hparent, Option.mem_some_iff] at hdir
      subst hdir
      exact .inl rfl
  | cons first more =>
      rw [parent?_of_pieces hpieces hname, Option.mem_some_iff] at hdir
      subst hdir
      exact .inr (isDirectory_ofPieces htext hpieces hwalk hentry)

end FileTree

/-! ## Making the directory of a file -/

namespace FileStep

variable {t t' : FileTree} {p : Path}

theorem runOn_makeParent {dir : Path} (hdir : p.parent? = some dir) (t : FileTree) :
    (makeParent p).runOn t = (attempt .create dir (t.makeDirectories dir).1, (t.makeDirectories dir).2) := by
  rw [makeParent, hdir]
  rfl

theorem makeParent_grows {r : Except Error Unit} (h : (makeParent p).runOn t = (r, t')) : t.Grows t' := by
  cases hparent : p.parent? with
  | none =>
      rw [makeParent, hparent] at h
      cases h
      exact .refl t
  | some dir =>
      rw [runOn_makeParent hparent] at h
      cases h
      exact t.makeDirectories_grows dir

theorem makeParent_of_stands (h : t.ParentStands p) : (makeParent p).runOn t = (.ok (), t) := by
  cases hparent : p.parent? with
  | none =>
      rw [makeParent, hparent]
      rfl
  | some dir =>
      rw [runOn_makeParent hparent, FileTree.makeDirectories_of_stands (h dir hparent)]
      rfl

end FileStep

end PackageRecipes
