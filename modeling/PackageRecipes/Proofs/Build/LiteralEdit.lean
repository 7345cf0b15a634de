import PackageRecipes.Build.RecipeHooks
import PackageRecipes.Proofs.Files.Basic
import PackageRecipes.Proofs.Replacement

/-!
# Literal edits

An edit of a recipe that is marked as literal replaces a text in a file, wherever it occurs, by another text as it is
written. It changes this file only, and tells whether it did.
-/

namespace PackageRecipes.FileStep

open Text

variable {t t' : FileTree} {p : Path} {pattern : Regex} {replacement text : String}

theorem runOn_editFile_error {fault : FileFault} (h : t.readText p = .error fault) :
    (editFile p pattern replacement).runOn t = (.error (.fileRefused .read p fault), t) := by
  rw [editFile, Update.runOn_bind, runOn_inspect, h]
  rfl

theorem runOn_editFile_same (h : t.readText p = .ok text) (hsame : editText pattern replacement text = text) :
    (editFile p pattern replacement).runOn t = (.ok false, t) := by
  rw [editFile, Update.runOn_bind, runOn_inspect, h, attempt_ok]
  simp only [hsame, ↓reduceIte]
  rfl

theorem runOn_editFile_changed (h : t.readText p = .ok text) (hchanged : editText pattern replacement text ≠ text)
    (hwrite : t.write p (editText pattern replacement text).toUTF8 = .ok t') :
    (editFile p pattern replacement).runOn t = (.ok true, t') := by
  rw [editFile, Update.runOn_bind, runOn_inspect, h, attempt_ok]
  simp only [hchanged, ↓reduceIte]
  rw [Update.runOn_bind, runOn_change hwrite]
  rfl

/-- An edit of a text that can be read leaves the edited text in the file and all other files as they were. -/
theorem exists_runOn_editFile (h : t.readText p = .ok text) :
    ∃ l t', t.locate p = .ok l ∧
      (editFile p pattern replacement).runOn t = (.ok (decide (editText pattern replacement text ≠ text)), t') ∧
      t'.readText p = .ok (editText pattern replacement text) ∧ ∀ m, m ≠ l → t'.get? m = t.get? m := by
  obtain ⟨l, content, hlocate, hfile, -⟩ := FileTree.readText_ok.1 h
  by_cases hsame : editText pattern replacement text = text
  · refine ⟨l, t, hlocate, ?_, by rw [h, hsame], fun _ _ => rfl⟩
    rw [runOn_editFile_same h hsame, decide_eq_false (not_not_intro hsame)]
  · have hwrite := FileTree.write_file hlocate hfile (editText pattern replacement text).toUTF8
    refine ⟨l, _, hlocate, ?_, FileTree.readText_put hlocate hfile _, fun m hm => ?_⟩
    · rw [runOn_editFile_changed h hsame hwrite, decide_eq_true hsame]
    · rw [FileTree.get?_put (FileTree.isBase_of_file hfile), if_neg hm]

/-! ## Compiled edits -/

/-- A literal edit is compiled to the expression that spells its text, unless this is too large. -/
theorem compileEdit_literal {e : EditEntry} (hliteral : e.literal) (package : String) (index : Nat) :
    RecipeHooks.compileEdit package index e =
      if Regex.costLimit < (Regex.spelled e.pattern.toList).cost then
        .error (.invalidField package (.editPattern index) .badPattern)
      else .ok ⟨e.file, Regex.spelled e.pattern.toList, e.replacement⟩ := by
  rw [RecipeHooks.compileEdit, RecipeHooks.sourceOf, if_pos hliteral, Regex.parse?_escaped]
  by_cases hlarge : Regex.costLimit < (Regex.spelled e.pattern.toList).cost <;> simp only [hlarge, ↓reduceIte]

/-- A literal edit leaves the file with every occurrence of the sought text replaced, says whether this has changed
the file, and leaves all other files alone; a file that cannot be read stays as it is. The edit looks for the regular
expression that the escaped text stands for. -/
theorem editFile_literal {package : String} {index : Nat} {e : EditEntry} {compiled : CompiledEdit}
    (hcompiled : RecipeHooks.compileEdit package index e = .ok compiled) (hliteral : e.literal)
    (hne : e.pattern ≠ "") (hline : '\n' ∉ e.pattern.toList) (p : Path) (replacement : String) (t : FileTree) :
    (∀ text, t.readText p = .ok text → ∃ edited l t',
      Replaced e.pattern.toList replacement.toList text.toList edited.toList ∧
      (∀ other, Replaced e.pattern.toList replacement.toList text.toList other → other = edited.toList) ∧
      t.locate p = .ok l ∧
      (editFile p compiled.pattern replacement).runOn t = (.ok (decide (edited ≠ text)), t') ∧
      t'.readText p = .ok edited ∧ ∀ m, m ≠ l → t'.get? m = t.get? m) ∧
    (∀ fault, t.readText p = .error fault →
      (editFile p compiled.pattern replacement).runOn t = (.error (.fileRefused .read p fault), t)) ∧
    Regex.parse? (String.ofList (Regex.escaped e.pattern.toList)) = some compiled.pattern := by
  have hne : e.pattern.toList ≠ [] := by simpa using hne
  have hparsed : Regex.parse? (String.ofList (Regex.escaped e.pattern.toList)) = some compiled.pattern := by
    rw [RecipeHooks.compileEdit, RecipeHooks.sourceOf, if_pos hliteral] at hcompiled
    split at hcompiled
    · rename_i r hr
      cases hcompiled
      exact hr
    · cases hcompiled
  have hreplaced (text : String) := replaced_editText (Regex.matchesText_escaped hparsed) hne hline replacement text
  refine ⟨fun text htext => ?_, fun fault => runOn_editFile_error, hparsed⟩
  obtain ⟨l, t', hlocate, hrun, hread, hother⟩ := exists_runOn_editFile htext
  exact ⟨_, l, t', hreplaced text, fun other => (hreplaced text).unique, hlocate, hrun, hread, hother⟩

/-- A makefile whose lines end in carriage returns, without a line break at the end. -/
def ruleText : String := "a.o:\r\n\t$(FC) -c a\r\n\t$(FC)"

/-- The makefile among other files. -/
def sourceTree : FileTree := ⟨[(["notes"], .file "$(FC)".toUTF8), (["Makefile"], .file ruleText.toUTF8)]⟩

/-- Names the compiler by a text that a regular expression and its replacement would take otherwise. -/
def compilerEdit : EditEntry where
  file := "Makefile"
  pattern := "$(FC)"
  replacement := "$1\n"
  literal := true
  when := none

theorem editFile_literal_compiler :
    RecipeHooks.compileEdit "solver" 0 compilerEdit = .ok ⟨"Makefile", Regex.spelled "$(FC)".toList, "$1\n"⟩ ∧
      compilerEdit.literal ∧ compilerEdit.pattern ≠ "" ∧ '\n' ∉ compilerEdit.pattern.toList ∧
      ∃ t', (editFile ⟨"Makefile"⟩ (Regex.spelled "$(FC)".toList) "$1\n").runOn sourceTree = (.ok true, t') ∧
        t'.readText ⟨"Makefile"⟩ = .ok "a.o:\r\n\t$1\n -c a\r\n\t$1\n" ∧
        t'.get? ["notes"] = sourceTree.get? ["notes"] := by
  have hcompiled : RecipeHooks.compileEdit "solver" 0 compilerEdit =
      .ok ⟨"Makefile", Regex.spelled "$(FC)".toList, "$1\n"⟩ := by
    rw [compileEdit_literal rfl, if_neg (by decide)]
    rfl
  have hlocate : sourceTree.locate ⟨"Makefile"⟩ = .ok ["Makefile"] := rfl
  have hread : sourceTree.readText ⟨"Makefile"⟩ = .ok ruleText :=
    FileTree.readText_ok.2 ⟨["Makefile"], ruleText.toUTF8, hlocate, rfl, FileTree.fromUTF8?_toUTF8 ruleText⟩
  have hedits := editFile_literal hcompiled rfl (by decide) (by decide) ⟨"Makefile"⟩ "$1\n" sourceTree
  obtain ⟨edited, l, t', -, honly, hl, hrun, hafter, hother⟩ := hedits.1 ruleText hread
  obtain rfl : ["Makefile"] = l := Except.ok.inj (hlocate.symm.trans hl)
  have hlast : Replaced "$(FC)".toList "$1\n".toList " -c a\r\n\t$(FC)".toList " -c a\r\n\t$1\n".toList :=
    @Replaced.first _ _ " -c a\r\n\t".toList [] [] (by decide) (.absent (by decide))
  have hreplaced : Replaced "$(FC)".toList "$1\n".toList ruleText.toList "a.o:\r\n\t$1\n -c a\r\n\t$1\n".toList :=
    @Replaced.first _ _ "a.o:\r\n\t".toList _ _ (by decide) hlast
  obtain rfl : edited = "a.o:\r\n\t$1\n -c a\r\n\t$1\n" := String.toList_inj.1 (honly _ hreplaced).symm
  exact ⟨hcompiled, rfl, by decide, by decide, t', hrun, hafter, hother _ (by decide)⟩

end PackageRecipes.FileStep
