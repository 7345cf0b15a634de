import Mathlib.Tactic.IntervalCases
import PackageRecipes.Proofs.Data.Plain
import PackageRecipes.Proofs.Text

/-!
# A reader of printed data

Plain data can be read back from its text. The reader here takes the text character by character, opens as many arrays
and tables inside each other as it may, and puts each value into the one that is open around it.
-/

namespace PackageRecipes

open Data Text

namespace Json

/-- An array or a table with a value to come, and with what is in front of that value, the last first. -/
inductive Frame where
  | array (before : List Data)
  | table (before : List (String × Data)) (name : String)

/-- What has been read, and what has to come next. -/
inductive State where
  | value (around : List Frame)
  | name (before : List (String × Data)) (around : List Frame)
  | colon (around : List Frame)
  /-- A value is complete. -/
  | ended (d : Data) (around : List Frame)
  /-- Within a word, the rest of which has to come. -/
  | word (rest : List Char) (d : Data) (around : List Frame)
  /-- Within a text. Its characters come last first, and its end is a value or a name. -/
  | text (chars : List Char) (close : String → State)
  | escape (chars : List Char) (close : String → State)
  | digits (number chars : List Char) (close : String → State)

def simpleEscape? : Char → Option Char
  | '"' => some '"'
  | '\\' => some '\\'
  | '/' => some '/'
  | 'b' => some '\x08'
  | 'f' => some '\x0c'
  | 'n' => some '\n'
  | 'r' => some '\r'
  | 't' => some '\t'
  | _ => none

namespace State

/-- The first character of a value, or the end of an empty array; arrays and tables are opened within the limit only. -/
def begin? (limit : Nat) (around : List Frame) : Char → Option State
  | 'n' => some (word ['u', 'l', 'l'] .null around)
  | 't' => some (word ['r', 'u', 'e'] (.bool true) around)
  | 'f' => some (word ['a', 'l', 's', 'e'] (.bool false) around)
  | '"' => some (text [] fun s => ended (.string s) around)
  | '[' => if around.length < limit then some (value (.array [] :: around)) else none
  | '\x7b' => if around.length < limit then some (name [] around) else none
  | ']' =>
    match around with
    | .array [] :: around => some (ended (.array []) around)
    | _ => none
  | _ => none

/-- A character between words and texts. -/
def next? (limit : Nat) : State → Char → Option State
  | value around, c => begin? limit around c
  | name [] around, '\x7d' => some (ended (.table []) around)
  | name before around, '"' => some (text [] fun n => colon (.table before n :: around))
  | colon around, ':' => some (value around)
  | ended d (.array before :: around), ',' => some (value (.array (d :: before) :: around))
  | ended d (.array before :: around), ']' => some (ended (.array (d :: before).reverse) around)
  | ended d (.table before n :: around), ',' => some (name ((n, d) :: before) around)
  | ended d (.table before n :: around), '\x7d' => some (ended (.table ((n, d) :: before).reverse) around)
  | _, _ => none

def step (limit : Nat) : State → Char → Option State
  | word [] _ _, _ => none
  | word [r] d around, c => if c = r then some (ended d around) else none
  | word (r :: rest) d around, c => if c = r then some (word rest d around) else none
  | text chars close, c =>
    if c = '"' then some (close (String.ofList chars.reverse))
    else if c = '\\' then some (escape chars close)
    else if c.toNat < 0x20 then none
    else some (text (c :: chars) close)
  | escape chars close, c =>
    if c = 'u' then some (digits [] chars close) else (simpleEscape? c).map fun c => text (c :: chars) close
  | digits number chars close, c =>
    let number := number ++ [c]
    if !isHexDigit c then none
    else if number.length < 4 then some (digits number chars close)
    else if (valueInBase 16 number).isValidChar then some (text (Char.ofNat (valueInBase 16 number) :: chars) close)
    else none
  | s, c => if isSpace c then some s else s.next? limit c

/-- The value that the whole text is. -/
def result? : State → Option Data
  | ended d [] => some d
  | _ => none

end State

/-- Reads a text whose arrays and tables are nested up to a limit. Characters beyond four digits are read unescaped
only, and numbers are not read at all. -/
def read (limit : Nat) (text : String) : Option Data :=
  (text.toList.foldlM (State.step limit) (.value [])).bind State.result?

/-! ## Steps through a text -/

/-- The text leads from one state to the other. -/
def Reads (limit : Nat) (s : State) (cs : List Char) (s' : State) : Prop :=
  cs.foldlM (State.step limit) s = some s'

variable {limit n : Nat} {s s' s'' : State} {around : List Frame} {cs ds chars : List Char} {c : Char}
  {close : String → State}

theorem Reads.append (h : Reads limit s cs s') (h' : Reads limit s' ds s'') : Reads limit s (cs ++ ds) s'' := by
  rw [Reads, List.foldlM_append, h]
  exact h'

theorem Reads.cons (h : s.step limit c = some s') (h' : Reads limit s' cs s'') : Reads limit s (c :: cs) s'' := by
  rw [Reads, List.foldlM_cons, h]
  exact h'

theorem reads_blanks (h : ∀ c, isSpace c → s.step limit c = some s) (hblanks : ∀ c ∈ cs, isSpace c) :
    Reads limit s cs s := by
  induction cs with
  | nil => rfl
  | cons c cs ih =>
      rw [List.forall_mem_cons] at hblanks
      exact .cons (h c hblanks.1) (ih hblanks.2)

/-! ## Texts -/

/-- Each character is printed so that it is read again, and not taken for the end of the text. -/
theorem reads_quoteChar (c : Char) : Reads limit (.text chars close) (quoteChar c) (.text (c :: chars) close) := by
  by_cases hnamed : c ∈ ['"', '\\', '\n', '\r', '\t', '\x08', '\x0c']
  · simp only [List.mem_cons, List.not_mem_nil, or_false] at hnamed
    rcases hnamed with rfl | rfl | rfl | rfl | rfl | rfl | rfl <;> rfl
  · simp only [List.mem_cons, List.not_mem_nil, or_false, not_or] at hnamed
    obtain ⟨hquote, hbackslash, hnewline, hreturn, htab, hbackspace, hfeed⟩ := hnamed
    simp only [quoteChar, hquote, hbackslash, hnewline, hreturn, htab, hbackspace, hfeed, if_false]
    split
    · rename_i hcontrol
      have hdigits : ∀ k < 0x20, (hexFour k).foldlM (State.step limit) (.digits [] chars close) =
          some (.text (Char.ofNat k :: chars) close) := by
        intro k hk
        interval_cases k <;> rfl
      refine .cons rfl (.cons rfl ?_)
      rw [Reads, hdigits _ hcontrol, Char.ofNat_toNat]
    · rename_i hprintable
      simp [Reads, State.step, hquote, hbackslash, hprintable]

theorem reads_quoted (text : List Char) :
    Reads limit (.text chars close) (text.flatMap quoteChar) (.text (text.reverse ++ chars) close) := by
  induction text generalizing chars with
  | nil => rfl
  | cons c text ih =>
      rw [List.flatMap_cons, List.reverse_cons, List.append_assoc]
      exact (reads_quoteChar c).append ih

theorem reads_quote {text : String} (h : s.step limit '"' = some (.text [] close)) :
    Reads limit s (quote text).toList (close text) := by
  have hquote : (quote text).toList = '"' :: (text.toList.flatMap quoteChar ++ ['"']) := by simp [quote]
  have hend : Reads limit (.text (text.toList.reverse ++ []) close) ['"'] (close text) := by
    rw [List.append_nil]
    simp [Reads, State.step]
  rw [hquote]
  exact .cons h ((reads_quoted text.toList).append hend)

/-! ## Arrays and tables -/

/-- Blanks are passed over in this state. -/
def Skips (s : State) : Prop := ∀ limit c, isSpace c → s.step limit c = some s

theorem skips_value (around : List Frame) : Skips (.value around) := fun _ _ h => if_pos h

theorem skips_name (before : List (String × Data)) (around : List Frame) : Skips (.name before around) :=
  fun _ _ h => if_pos h

theorem skips_ended (d : Data) (around : List Frame) : Skips (.ended d around) := fun _ _ h => if_pos h

theorem reads_indentation (h : Skips s) (depth : Nat) : Reads limit s ('\n' :: (indentation depth).toList) s := by
  refine reads_blanks (h limit) (List.forall_mem_cons.2 ⟨by decide, fun c hc => ?_⟩)
  rw [indentation, String.toList_ofList] at hc
  rw [List.eq_of_mem_replicate hc]
  decide

/-- The elements of an array or a table up to its closing bracket; commas and line breaks are between them. -/
theorem reads_elements {α : Type} {text : α → List Char} {start : List α → State} {done : α → List α → State}
    {bracket : Char} {elements : List α} (final : List α → State) (hskips : ∀ a before, Skips (done a before))
    (helements : ∀ a ∈ elements, ∀ before, Reads limit (start before) ('\n' :: text a) (done a before))
    (hcomma : ∀ a before, Reads limit (done a before) [','] (start (a :: before)))
    (hclose : ∀ a before, Reads limit (done a before) [bracket] (final (a :: before)))
    (hne : elements ≠ []) (depth : Nat) (before : List α) :
    Reads limit (start before)
      ('\n' :: [',', '\n'].intercalate (elements.map text) ++ ('\n' :: (indentation depth).toList ++ [bracket]))
      (final (elements.reverse ++ before)) := by
  induction elements generalizing before with
  | nil => exact absurd rfl hne
  | cons a more ih =>
      rw [List.forall_mem_cons] at helements
      have hfirst := helements.1 before
      cases more with
      | nil =>
          have hlast := (reads_indentation (hskips a before) depth).append (hclose a before)
          simpa using hfirst.append hlast
      | cons b more =>
          have hrest := ih helements.2 (List.cons_ne_nil b more) (a :: before)
          have hall := hfirst.append ((hcomma a before).append hrest)
          rw [List.reverse_cons, List.append_assoc, List.singleton_append]
          simpa [List.intercalate_cons_cons] using hall

theorem prettyItems_eq (depth : Nat) (items : List Data) :
    prettyItems depth items = items.map fun d => indentation depth ++ pretty depth d := by
  induction items with
  | nil => rfl
  | cons d items ih => rw [prettyItems, ih, List.map_cons]

theorem prettyFields_eq (depth : Nat) (fields : List (String × Data)) :
    prettyFields depth fields = fields.map fun f => indentation depth ++ quote f.1 ++ ": " ++ pretty depth f.2 := by
  induction fields with
  | nil => rfl
  | cons f fields ih =>
      obtain ⟨k, d⟩ := f
      rw [prettyFields, ih, List.map_cons]

theorem toList_pretty_array {items : List Data} (hne : items ≠ []) (depth : Nat) :
    (pretty depth (.array items)).toList = '[' :: ('\n' :: [',', '\n'].intercalate
      (items.map fun d => (indentation (depth + 1)).toList ++ (pretty (depth + 1) d).toList) ++
        ('\n' :: (indentation depth).toList ++ [']'])) := by
  rw [pretty, prettyItems_eq]
  · simp [String.toList_intercalate, Function.comp_def]
  · exact hne

theorem toList_pretty_table {fields : List (String × Data)} (hne : fields ≠ []) (depth : Nat) :
    (pretty depth (.table fields)).toList = '\x7b' :: ('\n' :: [',', '\n'].intercalate
      (fields.map fun f => (indentation (depth + 1)).toList ++
        ((quote f.1).toList ++ (':' :: ' ' :: (pretty (depth + 1) f.2).toList))) ++
        ('\n' :: (indentation depth).toList ++ ['\x7d'])) := by
  rw [pretty, prettyFields_eq]
  · simp [String.toList_intercalate, Function.comp_def]
  · exact hne

theorem reads_array {items : List Data} {depth : Nat} (hroom : around.length < limit)
    (h : ∀ d ∈ items, ∀ before, Reads limit (.value (.array before :: around)) (pretty (depth + 1) d).toList
      (.ended d (.array before :: around))) :
    Reads limit (.value around) (pretty depth (.array items)).toList (.ended (.array items) around) := by
  have hopen : State.step limit (.value around) '[' = some (.value (.array [] :: around)) := if_pos hroom
  have hitem (d : Data) (hd : d ∈ items) (before : List Data) :
      Reads limit (.value (.array before :: around))
        ('\n' :: ((indentation (depth + 1)).toList ++ (pretty (depth + 1) d).toList))
        (.ended d (.array before :: around)) :=
    (reads_indentation (skips_value _) (depth + 1)).append (h d hd before)
  have hclose (d : Data) (before : List Data) :
      Reads limit (.ended d (.array before :: around)) [']'] (.ended (.array (d :: before).reverse) around) := rfl
  by_cases hnil : items = []
  · subst hnil
    rw [pretty]
    exact .cons hopen rfl
  · have hall := reads_elements (fun ds => .ended (.array ds.reverse) around) (fun _ _ => skips_ended _ _) hitem
      (fun _ _ => rfl) hclose hnil depth []
    rw [List.append_nil, List.reverse_reverse] at hall
    rw [toList_pretty_array hnil]
    exact .cons hopen hall

theorem reads_table {fields : List (String × Data)} {depth : Nat} (hroom : around.length < limit)
    (h : ∀ f ∈ fields, ∀ before, Reads limit (.value (.table before f.1 :: around)) (pretty (depth + 1) f.2).toList
      (.ended f.2 (.table before f.1 :: around))) :
    Reads limit (.value around) (pretty depth (.table fields)).toList (.ended (.table fields) around) := by
  have hopen : State.step limit (.value around) '\x7b' = some (.name [] around) := if_pos hroom
  have hfield (f : String × Data) (hf : f ∈ fields) (before : List (String × Data)) :
      Reads limit (.name before around)
        ('\n' :: ((indentation (depth + 1)).toList ++
          ((quote f.1).toList ++ (':' :: ' ' :: (pretty (depth + 1) f.2).toList))))
        (.ended f.2 (.table before f.1 :: around)) := by
    have hquote : State.step limit (.name before around) '"' =
        some (.text [] fun n => .colon (.table before n :: around)) := by cases before <;> rfl
    have hvalue := h f hf before
    exact (reads_indentation (skips_name _ _) (depth + 1)).append
      ((reads_quote hquote).append (.cons rfl (.cons rfl hvalue)))
  have hclose (f : String × Data) (before : List (String × Data)) :
      Reads limit (.ended f.2 (.table before f.1 :: around)) ['\x7d'] (.ended (.table (f :: before).reverse) around) :=
    rfl
  by_cases hnil : fields = []
  · subst hnil
    rw [pretty]
    exact .cons hopen rfl
  · have hall := reads_elements (fun fs => .ended (.table fs.reverse) around) (fun _ _ => skips_ended _ _) hfield
      (fun _ _ => rfl) hclose hnil depth []
    rw [List.append_nil, List.reverse_reverse] at hall
    rw [toList_pretty_table hnil]
    exact .cons hopen hall

/-- The text of data is read as this data, if it fits into what is open around it. -/
theorem reads_pretty {d : Data} (h : d.Plain n) (hroom : around.length + n ≤ limit) (depth : Nat) :
    Reads limit (.value around) (pretty depth d).toList (.ended d around) := by
  induction h generalizing around depth with
  | null =>
      rw [pretty]
      rfl
  | bool b =>
      cases b <;>
      · rw [pretty]
        rfl
  | string text =>
      have hquote : State.step limit (.value around) '"' = some (.text [] fun s => .ended (.string s) around) := rfl
      rw [pretty]
      exact reads_quote hquote
  | array _ ih =>
      refine reads_array (by omega) fun d hd before => ih d hd ?_ (depth + 1)
      rw [List.length_cons]
      omega
  | table _ _ ih =>
      refine reads_table (by omega) fun f hf before => ih f hf ?_ (depth + 1)
      rw [List.length_cons]
      omega

theorem readsBack_read (limit : Nat) : ReadsBack (read limit) limit := by
  intro d hd blanks hblanks
  have hread := (reads_pretty hd (by simp) 0).append (reads_blanks (skips_ended d [] limit) hblanks)
  refine ⟨d, ?_, .same d⟩
  rw [read, toJson, String.toList_append, hread]
  rfl

end Json

end PackageRecipes
