import PackageRecipes.Files.Step
import PackageRecipes.Proofs.Update

/-!
# Files in a tree

A file that gets another content stays where it is: every path leads where it led before, and all other files are as
they were. Steps on files run one after the other, up to the first that is refused.
-/

namespace PackageRecipes

def Entry.isFile : Entry → Bool
  | .file _ => true
  | .directory => false

namespace FileTree

/-- The trees have files at the same places, and directories at the same places. -/
def Alike (t t' : FileTree) : Prop := ∀ l, (t'.get? l).map Entry.isFile = (t.get? l).map Entry.isFile

variable {t t' : FileTree} {l : Location} {p : Path}

/-! ## Following paths -/

namespace Alike

theorem cases (h : Alike t t') (l : Location) :
    (t.get? l = none ∧ t'.get? l = none) ∨ (t.get? l = some .directory ∧ t'.get? l = some .directory) ∨
      ∃ old new, t.get? l = some (.file old) ∧ t'.get? l = some (.file new) := by
  have hl := h l
  rcases hold : t.get? l with _ | ⟨old⟩ | _ <;> rcases hnew : t'.get? l with _ | ⟨new⟩ | _ <;>
    simp_all [Entry.isFile]

theorem enter (h : Alike t t') (here : Location) (name : String) : t'.enter here name = t.enter here name := by
  simp only [FileTree.enter]
  rcases h.cases (here ++ [name]) with ⟨hold, hnew⟩ | ⟨hold, hnew⟩ | ⟨old, new, hold, hnew⟩ <;> rw [hold, hnew]

theorem follow (h : Alike t t') (here : Location) (names : List String) :
    t'.follow here names = t.follow here names := by
  fun_induction FileTree.follow t here names with
  | case1 => rfl
  | case2 here name hstep => rw [FileTree.follow, if_pos hstep, h.enter]
  | case3 here name hstep => rw [FileTree.follow, if_neg hstep]
  | case4 here name rest hrest e henter =>
      rw [FileTree.follow, h.enter, henter]
      exact hrest
  | case5 here name rest hrest there henter ih =>
      rw [FileTree.follow, h.enter, henter]
      · exact ih
      · exact hrest

theorem locate (h : Alike t t') (p : Path) : t'.locate p = t.locate p := by
  have hreach : t'.reach p = t.reach p := by simp only [reach, h.follow]
  rw [FileTree.locate, FileTree.locate, hreach]
  cases t.reach p with
  | error e => rfl
  | ok l => rcases h.cases l with ⟨hold, hnew⟩ | ⟨hold, hnew⟩ | ⟨old, new, hold, hnew⟩ <;> simp only [hold, hnew]

end Alike

/-! ## Another content -/

theorem isBase_of_file {content : ByteArray} (h : t.get? l = some (.file content)) : isBase l = false := by
  cases hbase : isBase l with
  | true => simp [get?, hbase] at h
  | false => rfl

theorem alike_put {old : ByteArray} (h : t.get? l = some (.file old)) (new : ByteArray) :
    Alike t (t.put l (.file new)) := by
  intro m
  rw [get?_put (isBase_of_file h)]
  split
  · next hm => rw [hm, h]; rfl
  · rfl

theorem readText_ok {text : String} :
    t.readText p = .ok text ↔
      ∃ l content, t.locate p = .ok l ∧ t.get? l = some (.file content) ∧ String.fromUTF8? content = some text := by
  simp only [readText, read, look]
  cases t.locate p with
  | error e => simp
  | ok l =>
      rcases hentry : t.get? l with _ | ⟨content⟩ | _
      · simp [hentry]
      · cases htext : String.fromUTF8? content <;> simp [hentry, htext]
      · simp [hentry]

theorem write_file {old : ByteArray} (hlocate : t.locate p = .ok l) (h : t.get? l = some (.file old))
    (content : ByteArray) : t.write p content = .ok (t.put l (.file content)) := by
  rw [write, writable, hlocate]
  simp only [h]
  rfl

theorem fromUTF8?_toUTF8 (text : String) : String.fromUTF8? text.toUTF8 = some text := by
  rw [String.fromUTF8?, String.toUTF8_eq_toByteArray, dif_pos text.isValidUTF8]
  rfl

theorem fromUTF8?_eq_some {content : ByteArray} {text : String} :
    String.fromUTF8? content = some text ↔ content = text.toUTF8 := by
  constructor
  · intro h
    rw [String.fromUTF8?] at h
    split at h
    · cases h
      rfl
    · cases h
  · rintro rfl
    exact fromUTF8?_toUTF8 text

theorem readText_put {old : ByteArray} (hlocate : t.locate p = .ok l) (h : t.get? l = some (.file old))
    (text : String) : (t.put l (.file text.toUTF8)).readText p = .ok text := by
  have hbase := isBase_of_file h
  refine readText_ok.2 ⟨l, text.toUTF8, ?_, ?_, fromUTF8?_toUTF8 text⟩
  · rw [(alike_put h _).locate, hlocate]
  · rw [get?_put hbase, if_pos rfl]

end FileTree

/-! ## Steps -/

namespace FileStep

variable {α β : Type} {t t' : FileTree}

theorem attempt_ok (action : FileAction) (p : Path) (x : α) : attempt action p (.ok x) = .ok x := rfl

theorem runOn_inspect (look : FileTree → Except Error α) (t : FileTree) : (inspect look).runOn t = (look t, t) := rfl

theorem runOn_change {f : FileTree → Except FileFault FileTree} (h : f t = .ok t') (action : FileAction) (p : Path) :
    (change action p f).runOn t = (.ok (), t') := by
  rw [Update.runOn, change, ExceptT.run_mk, StateT.run, h]

theorem runOn_change_error {f : FileTree → Except FileFault FileTree} {fault : FileFault} (h : f t = .error fault)
    (action : FileAction) (p : Path) : (change action p f).runOn t = (.error (.fileRefused action p fault), t) := by
  rw [Update.runOn, change, ExceptT.run_mk, StateT.run, h]

end FileStep

end PackageRecipes
