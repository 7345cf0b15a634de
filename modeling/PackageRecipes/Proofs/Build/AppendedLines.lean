import PackageRecipes.Proofs.Files.Parent

/-!
# Appended lines

Lines that are appended to a file begin on a line of their own, whatever the file ends in and whether it is there. So
the file has its old lines and then the new ones, and it does not matter in how many steps these were appended.
-/

namespace PackageRecipes.FileStep

open Text

variable {t t₁ t' : FileTree} {p : Path} {l : Location} {create : Bool} {text line : String} {lines : List String}

/-! ## Lines of a text -/

/-- The lines of a text, each ended by a line break; only the last one may be without it. -/
def linesOf (text : String) : List String :=
  let all := pieces (· = '\n') text.toList
  (if all.getLast? = some [] then all.dropLast else all).map String.ofList

/-- What comes behind the text begins a line. -/
def Ended (text : String) : Prop := text = "" ∨ ∃ body, text.toList = body ++ ['\n']

theorem separator_eq (text : String) :
    (Ended text ∧ separator text = "") ∨
      ∃ body c, c ≠ '\n' ∧ text.toList = body ++ [c] ∧ separator text = "\n" := by
  rw [Ended, separator]
  by_cases hempty : text = ""
  · simp [hempty]
  · rcases List.eq_nil_or_concat' text.toList with hnil | ⟨body, c, htext⟩
    · exact absurd (String.toList_eq_nil_iff.1 hnil) hempty
    · by_cases hc : c = '\n' <;> simp [htext, hc, hempty]

theorem linesOf_of_ended {body : List Char} (h : text.toList = body ++ ['\n']) :
    linesOf text = (pieces (· = '\n') body).map String.ofList := by
  have hpieces : pieces (· = '\n') text.toList = pieces (· = '\n') body ++ [[]] := by
    rw [h, pieces_separated]
    rfl
  simp only [linesOf, hpieces, List.getLast?_concat, List.dropLast_concat, ↓reduceIte]

theorem linesOf_separator (text : String) :
    Ended (text ++ separator text) ∧ linesOf (text ++ separator text) = linesOf text := by
  rcases separator_eq text with ⟨hended, hsep⟩ | ⟨body, c, hc, htext, hsep⟩
  · rw [hsep, String.append_empty]
    exact ⟨hended, rfl⟩
  · have hbreak : (text ++ separator text).toList = text.toList ++ ['\n'] := by simp [hsep]
    obtain ⟨init, last, hpieces⟩ := exists_pieces_concat hc body
    refine ⟨.inr ⟨_, hbreak⟩, ?_⟩
    rw [linesOf_of_ended hbreak, htext, hpieces]
    simp [linesOf, htext, hpieces]

theorem linesOf_line (h : Ended text) (hline : '\n' ∉ line.toList) :
    Ended (text ++ (line ++ "\n")) ∧ linesOf (text ++ (line ++ "\n")) = linesOf text ++ [line] := by
  have hbreak : (text ++ (line ++ "\n")).toList = (text.toList ++ line.toList) ++ ['\n'] := by simp
  refine ⟨.inr ⟨_, hbreak⟩, ?_⟩
  rw [linesOf_of_ended hbreak]
  rcases h with rfl | ⟨body, htext⟩
  · simp [linesOf, pieces, pieces_of_not_mem hline]
  · rw [linesOf_of_ended htext, htext, List.append_assoc, List.singleton_append, pieces_separated,
      pieces_of_not_mem hline, List.map_append, List.map_singleton, String.ofList_toList]

theorem linesText_cons (line : String) (lines : List String) :
    linesText (line :: lines) = (line ++ "\n") ++ linesText lines := by
  rw [linesText, List.map_cons, String.join_cons, linesText]

theorem linesText_append (first second : List String) :
    linesText (first ++ second) = linesText first ++ linesText second := by
  rw [linesText, List.map_append, String.join_append, linesText, linesText]

theorem linesOf_linesText (h : Ended text) (hlines : ∀ line ∈ lines, '\n' ∉ line.toList) :
    linesOf (text ++ linesText lines) = linesOf text ++ lines := by
  induction lines generalizing text with
  | nil => simp [linesText]
  | cons line lines ih =>
      rw [List.forall_mem_cons] at hlines
      obtain ⟨hended, hof⟩ := linesOf_line h hlines.1
      rw [linesText_cons, ← String.append_assoc, ih hended hlines.2, hof, List.append_assoc, List.singleton_append]

/-- A text with lines appended. -/
def appended (text : String) (lines : List String) : String := text ++ (separator text ++ linesText lines)

theorem linesOf_appended (text : String) (hlines : ∀ line ∈ lines, '\n' ∉ line.toList) :
    linesOf (appended text lines) = linesOf text ++ lines := by
  obtain ⟨hended, hof⟩ := linesOf_separator text
  rw [appended, ← String.append_assoc, linesOf_linesText hended hlines, hof]

theorem separator_of_ended (h : Ended text) : separator text = "" := by
  rcases h with rfl | ⟨body, htext⟩
  · rfl
  · simp [separator, htext]

theorem ended_appended (text : String) (lines : List String) : Ended (appended text lines) := by
  rcases List.eq_nil_or_concat' lines with rfl | ⟨lines, line, rfl⟩
  · simpa [appended, linesText] using (linesOf_separator text).1
  · refine .inr ⟨(text ++ separator text ++ linesText lines ++ line).toList, ?_⟩
    simp [appended, linesText]

theorem appended_appended (text : String) (first second : List String) :
    appended (appended text first) second = appended text (first ++ second) := by
  rw [appended, separator_of_ended (ended_appended text first), String.empty_append, appended, appended,
    linesText_append, String.append_assoc, String.append_assoc]

/-! ## The file that lines are appended to -/

/-- A file can be written at the path: `t₁` has the directories that this takes, and the file is at `l` in it. -/
structure Opens (t : FileTree) (p : Path) (t₁ : FileTree) (l : Location) : Prop where
  made : (makeParent p).runOn t = (.ok (), t₁)
  writable : t₁.writable p = .ok l

/-- The text of a file that lines go behind: none if the file is made anew or is not there. -/
inductive Kept (t : FileTree) (l : Location) : (create : Bool) → (text : String) → Prop
  | anew : Kept t l true ""
  | absent (h : t.get? l = none) : Kept t l false ""
  | present {text : String} (h : t.get? l = some (.file text.toUTF8)) : Kept t l false text

theorem kept_iff (h : t.writable p = .ok l) : existingText p t = .ok text ↔ Kept t l false text := by
  obtain ⟨-, hdir, -⟩ := FileTree.writable_ok.1 h
  rw [existingText, FileTree.readText_of_writable h]
  rcases hentry : t.get? l with _ | ⟨content⟩ | _
  · refine ⟨fun hok => ?_, fun hkept => ?_⟩
    · cases hok
      exact .absent hentry
    · cases hkept with
      | absent => rfl
      | present hfile => rw [hentry] at hfile; cases hfile
  · refine ⟨fun hok => ?_, fun hkept => ?_⟩
    · cases htext : String.fromUTF8? content with
      | none => simp [htext] at hok
      | some read =>
          obtain rfl : read = text := by simpa [htext] using hok
          exact .present (hentry.trans (by rw [FileTree.fromUTF8?_eq_some.1 htext]))
    · cases hkept with
      | absent hnone => rw [hentry] at hnone; cases hnone
      | present hfile =>
          obtain rfl : content = text.toUTF8 := by simpa [hentry] using hfile
          simp only [FileTree.fromUTF8?_toUTF8, Option.elim_some]
  · exact absurd hentry hdir

theorem append_kept (h : t.writable p = .ok l) (hkept : Kept t l false text) (more : String) :
    t.append p more.toUTF8 = .ok (t.put l (.file (text ++ more).toUTF8)) := by
  rw [FileTree.append, h]
  cases hkept with
  | absent hnone => simp only [hnone, String.empty_append]
  | present hfile =>
      simp only [hfile]
      rfl

theorem runOn_appendLines (h : Opens t p t₁ l) (hkept : Kept t₁ l create text) (lines : List String) :
    (appendLines p lines create).runOn t = (.ok (), t₁.put l (.file (appended text lines).toUTF8)) := by
  rw [appendLines, Update.runOn_bind, h.made]
  cases create with
  | true =>
      cases hkept
      refine runOn_change ?_ .openFile p
      rw [FileTree.write, h.writable, appended]
      simp only [separator, decide_true, Bool.true_or, ↓reduceIte, String.empty_append]
      rfl
  | false =>
      show (inspect (existingText p) >>= _).runOn t₁ = _
      rw [Update.runOn_bind, runOn_inspect, (kept_iff h.writable).2 hkept]
      exact runOn_change (append_kept h.writable hkept _) .openFile p

/-- Either the file can be written, or it is refused whatever the lines are. -/
theorem appendLines_cases (create : Bool) (p : Path) (t : FileTree) :
    (∃ t₁ l text, Opens t p t₁ l ∧ Kept t₁ l create text) ∨
      ∃ e t', ∀ lines, (appendLines p lines create).runOn t = (.error e, t') := by
  rcases hmade : (makeParent p).runOn t with ⟨e | _, t₁⟩
  · refine .inr ⟨e, t₁, fun lines => ?_⟩
    rw [appendLines, Update.runOn_bind, hmade]
  cases create with
  | true =>
      cases hwritable : t₁.writable p with
      | ok l => exact .inl ⟨t₁, l, "", ⟨hmade, hwritable⟩, .anew⟩
      | error fault =>
          refine .inr ⟨.fileRefused .openFile p fault, t₁, fun lines => ?_⟩
          rw [appendLines, Update.runOn_bind, hmade]
          refine runOn_change_error ?_ .openFile p
          rw [FileTree.write, hwritable]
          rfl
  | false =>
      cases hexisting : existingText p t₁ with
      | error e =>
          refine .inr ⟨e, t₁, fun lines => ?_⟩
          rw [appendLines, Update.runOn_bind, hmade]
          show (inspect (existingText p) >>= _).runOn t₁ = _
          rw [Update.runOn_bind, runOn_inspect, hexisting]
      | ok text =>
          cases hwritable : t₁.writable p with
          | ok l => exact .inl ⟨t₁, l, text, ⟨hmade, hwritable⟩, (kept_iff hwritable).1 hexisting⟩
          | error fault =>
              refine .inr ⟨.fileRefused .openFile p fault, t₁, fun lines => ?_⟩
              rw [appendLines, Update.runOn_bind, hmade]
              show (inspect (existingText p) >>= _).runOn t₁ = _
              rw [Update.runOn_bind, runOn_inspect, hexisting]
              refine runOn_change_error ?_ .openFile p
              rw [FileTree.append, hwritable]

/-- What was written stays when more is appended. -/
theorem Opens.again (h : Opens t p t₁ l) (text : String) :
    Opens (t₁.put l (.file text.toUTF8)) p (t₁.put l (.file text.toUTF8)) l ∧
      Kept (t₁.put l (.file text.toUTF8)) l false text := by
  obtain ⟨hwritable, hfile⟩ := FileTree.writable_put h.writable text.toUTF8
  exact ⟨⟨makeParent_of_stands hfile.parentStands, hwritable⟩, .present hfile.entry⟩

theorem appendLines_twice (p : Path) (t : FileTree) (create : Bool) (first second : List String) :
    (appendLines p first create >>= fun _ => appendLines p second false).runOn t =
      (appendLines p (first ++ second) create).runOn t := by
  rcases appendLines_cases create p t with ⟨t₁, l, text, hopens, hkept⟩ | ⟨e, t', hrefused⟩
  · obtain ⟨hagain, hwritten⟩ := hopens.again (appended text first)
    rw [Update.runOn_bind, runOn_appendLines hopens hkept, runOn_appendLines hopens hkept]
    show (appendLines p second false).runOn _ = _
    rw [runOn_appendLines hagain hwritten, FileTree.put_put, appended_appended]
  · rw [Update.runOn_bind, hrefused, hrefused]

theorem appendLines_run (p : Path) (t : FileTree) (create : Bool) (first : List String) (rest : List (List String)) :
    (appendLines p first create >>= fun _ => rest.forM fun lines => appendLines p lines false).runOn t =
      (appendLines p (first ++ rest.flatten) create).runOn t := by
  induction rest generalizing first with
  | nil => simp
  | cons lines rest ih =>
      rw [List.forM_eq_forM, List.forM_cons, ← bind_assoc, Update.runOn_bind, appendLines_twice, ← Update.runOn_bind,
        ← List.forM_eq_forM, ih, List.flatten_cons, List.append_assoc]

theorem opens_of_fileAt {content : ByteArray} (h : t.FileAt p l content) : Opens t p t l := by
  obtain ⟨hslash, hreach, hentry⟩ := FileTree.fileAt_iff.1 h
  refine ⟨makeParent_of_stands h.parentStands, FileTree.writable_ok.2 ⟨hreach, ?_, hslash⟩⟩
  rw [hentry]
  simp

theorem runOn_appendLines_unreadable {content : ByteArray} (h : t.FileAt p l content)
    (htext : String.fromUTF8? content = none) (lines : List String) :
    (appendLines p lines false).runOn t = (.error (.fileRefused .read p .invalidText), t) := by
  have hopens := opens_of_fileAt h
  have hexisting : existingText p t = .error (.fileRefused .read p .invalidText) := by
    rw [existingText, FileTree.readText_of_writable hopens.writable]
    simp only [h.entry, htext, Option.elim_none]
  rw [appendLines, Update.runOn_bind, hopens.made]
  show (inspect (existingText p) >>= _).runOn t = _
  rw [Update.runOn_bind, runOn_inspect, hexisting]

/-- Lines that are appended in two steps, or in any number of them, are appended like all of them at once, and this
also if the first step makes the file anew or is refused. The file then has the lines that it keeps and behind them
the new ones. A file with a text can always be appended to; one with other content is refused and left as it is. -/
theorem appendLines_adds (p : Path) (t : FileTree) :
    (∀ create first second,
      (appendLines p first create >>= fun _ => appendLines p second false).runOn t =
        (appendLines p (first ++ second) create).runOn t) ∧
    (∀ create first (rest : List (List String)),
      (appendLines p first create >>= fun _ => rest.forM fun lines => appendLines p lines false).runOn t =
        (appendLines p (first ++ rest.flatten) create).runOn t) ∧
    (∀ create t₁ l text lines, Opens t p t₁ l → Kept t₁ l create text → (∀ line ∈ lines, '\n' ∉ line.toList) →
      t.Grows t₁ ∧ ∃ text', text.toList <+: text'.toList ∧ linesOf text' = linesOf text ++ lines ∧
        (appendLines p lines create).runOn t = (.ok (), t₁.put l (.file text'.toUTF8)) ∧
        (t₁.put l (.file text'.toUTF8)).readText p = .ok text') ∧
    (∀ text, t.readText p = .ok text → ∃ l, Opens t p t l ∧ Kept t l false text) ∧
    ∀ content, t.read p = .ok content → String.fromUTF8? content = none → ∀ lines,
      (appendLines p lines false).runOn t = (.error (.fileRefused .read p .invalidText), t) := by
  refine ⟨appendLines_twice p t, appendLines_run p t, ?_, ?_, ?_⟩
  · intro create t₁ l text lines hopens hkept hlines
    obtain ⟨hagain, hwritten⟩ := hopens.again (appended text lines)
    refine ⟨makeParent_grows hopens.made, appended text lines, ?_, linesOf_appended text hlines,
      runOn_appendLines hopens hkept lines, ?_⟩
    · rw [appended, String.toList_append]
      exact List.prefix_append _ _
    · exact FileTree.readText_written hopens.writable _
  · intro text htext
    obtain ⟨l, content, hlocate, hfile, htext⟩ := FileTree.readText_ok.1 htext
    rw [FileTree.fromUTF8?_eq_some.1 htext] at hfile
    exact ⟨l, opens_of_fileAt ⟨hlocate, hfile⟩, .present hfile⟩
  · intro content hread htext lines
    obtain ⟨l, hfile⟩ := FileTree.read_fileAt.1 hread
    exact runOn_appendLines_unreadable hfile htext lines

/-- Settings whose last line is not ended, beside a file that is no text. -/
def settingsTree : FileTree := ⟨[(["make.inc"], .file "FC = mpif90".toUTF8), (["data.bin"], .file ⟨#[0xff, 10]⟩)]⟩

theorem appendLines_adds_settings :
    settingsTree.readText ⟨"make.inc"⟩ = .ok "FC = mpif90" ∧
      Opens settingsTree ⟨"make.inc"⟩ settingsTree ["make.inc"] ∧
      Kept settingsTree ["make.inc"] false "FC = mpif90" ∧ (∀ line ∈ ["CC = mpicc", ""], '\n' ∉ line.toList) ∧
      settingsTree.read ⟨"data.bin"⟩ = .ok ⟨#[0xff, 10]⟩ ∧ String.fromUTF8? ⟨#[0xff, 10]⟩ = none ∧
      (∃ text t', (appendLines ⟨"make.inc"⟩ ["CC = mpicc", ""] false).runOn settingsTree = (.ok (), t') ∧
        t'.readText ⟨"make.inc"⟩ = .ok text ∧ linesOf text = ["FC = mpif90", "CC = mpicc", ""]) ∧
      (appendLines ⟨"data.bin"⟩ ["CC = mpicc"] false).runOn settingsTree =
        (.error (.fileRefused .read ⟨"data.bin"⟩ .invalidText), settingsTree) := by
  have hread : settingsTree.readText ⟨"make.inc"⟩ = .ok "FC = mpif90" :=
    FileTree.readText_ok.2 ⟨["make.inc"], _, rfl, rfl, FileTree.fromUTF8?_toUTF8 _⟩
  have hlines : ∀ line ∈ ["CC = mpicc", ""], '\n' ∉ line.toList := by decide
  have hbytes : settingsTree.read ⟨"data.bin"⟩ = .ok ⟨#[0xff, 10]⟩ := rfl
  have hnone : String.fromUTF8? ⟨#[0xff, 10]⟩ = none := by decide +kernel
  obtain ⟨-, -, happend, hreadable, -⟩ := appendLines_adds ⟨"make.inc"⟩ settingsTree
  obtain ⟨l, hopens, hkept⟩ := hreadable _ hread
  obtain rfl : ["make.inc"] = l := Except.ok.inj hopens.writable
  obtain ⟨-, text, -, hof, hrun, hwritten⟩ := happend _ _ _ _ _ hopens hkept hlines
  obtain ⟨-, -, -, -, hrefused⟩ := appendLines_adds ⟨"data.bin"⟩ settingsTree
  exact ⟨hread, hopens, hkept, hlines, hbytes, hnone, ⟨text, _, hrun, hwritten, hof⟩, hrefused _ hbytes hnone _⟩

end PackageRecipes.FileStep
