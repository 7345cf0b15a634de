import Mathlib.Data.List.DropRight
import PackageRecipes.Build.Environment
import PackageRecipes.Proofs.NameMap

/-!
# What a variable collects

A variable that is set or extended again and again has, in the end, the parts that were put in front of it since it
was set for the last time, then what it was set to or what the process has for it, then the parts that were put
behind it. Changes of other variables have no say in that.
-/

namespace PackageRecipes.Environment

/-- Something that is done to one variable. -/
structure Change where
  action : EnvAction
  name : String
  value : String

def change (inherited : ProcessEnv) (e : Environment) (c : Change) : Environment :=
  e.apply inherited c.action c.name c.value

/-- The environment that changes lead to when nothing is set before. -/
def ofChanges (inherited : ProcessEnv) (cs : List Change) : Environment := cs.foldl (change inherited) .empty

/-! ## One change -/

section Change

variable {inherited : ProcessEnv} {e : Environment} {name : String}

/-- The text that an extension of a variable starts from; without one it is empty. -/
def held (e : Environment) (inherited : ProcessEnv) (name : String) : String := (e.current? inherited name).getD ""

/-- The text that a change leaves. -/
def extended (action : EnvAction) (value old : String) : String :=
  match action with
  | .set => value
  | .prepend => if old = "" then value else value ++ ":" ++ old
  | .append => if old = "" then value else old ++ ":" ++ value

theorem joined_eq (value : String) (current : Option String) (join : String → String) :
    joined value current join = if current.getD "" = "" then value else join (current.getD "") := by
  cases current <;> rfl

theorem get?_change_self (e : Environment) (c : Change) :
    (e.change inherited c).get? c.name = some (extended c.action c.value (e.held inherited c.name)) := by
  obtain ⟨action, name, value⟩ := c
  cases action <;> simp only [Environment.change, apply, set, prepend, append, get?, NameMap.get?_insert, if_true,
    joined_eq] <;> rfl

theorem get?_change_other {c : Change} (h : c.name ≠ name) : (e.change inherited c).get? name = e.get? name := by
  obtain ⟨action, other, value⟩ := c
  cases action <;> exact (NameMap.get?_insert _ _ _ _).trans (if_neg (Ne.symm h))

theorem held_change_self (e : Environment) (c : Change) :
    (e.change inherited c).held inherited c.name = extended c.action c.value (e.held inherited c.name) := by
  rw [held, current?, get?_change_self]
  rfl

theorem held_change_other {c : Change} (h : c.name ≠ name) :
    (e.change inherited c).held inherited name = e.held inherited name := by
  rw [held, held, current?, current?, get?_change_other h]

end Change

/-! ## The parts of a value -/

/-- The changes of a variable since it was set for the last time. -/
def since (name : String) (cs : List Change) : List Change :=
  (cs.filter (·.name = name)).rtakeWhile (·.action ≠ .set)

/-- What a variable was set to for the last time. -/
def lastSet? (name : String) (cs : List Change) : Option String :=
  ((cs.filter (·.name = name)).filter (·.action = .set)).getLast?.map Change.value

/-- What the extensions of a variable start from: the value it was set to, or else what the process has for it,
which does not count when it is empty. -/
def base (inherited : ProcessEnv) (name : String) (cs : List Change) : List String :=
  match lastSet? name cs with
  | some value => [value]
  | none => ((inherited.get? name).filter (· ≠ "")).toList

def values (action : EnvAction) (cs : List Change) : List String :=
  (cs.filter (·.action = action)).map Change.value

def parts (inherited : ProcessEnv) (name : String) (cs : List Change) : List String :=
  (values .prepend (since name cs)).reverse ++ base inherited name cs ++ values .append (since name cs)

variable {inherited : ProcessEnv} {name : String} {cs : List Change} {c : Change}

theorem parts_concat_other (h : c.name ≠ name) : parts inherited name (cs ++ [c]) = parts inherited name cs := by
  have hfilter : (cs ++ [c]).filter (·.name = name) = cs.filter (·.name = name) := by simp [h]
  simp only [parts, base, lastSet?, since, hfilter]

theorem parts_concat_set (h : c.name = name) (hset : c.action = .set) :
    parts inherited name (cs ++ [c]) = [c.value] := by
  simp [parts, base, lastSet?, since, values, h, hset]

theorem base_concat (h : c.name = name) (hset : c.action ≠ .set) :
    base inherited name (cs ++ [c]) = base inherited name cs := by
  simp [base, lastSet?, h, hset]

theorem since_concat (h : c.name = name) (hset : c.action ≠ .set) :
    since name (cs ++ [c]) = since name cs ++ [c] := by
  simp [since, h, hset]

theorem parts_concat_prepend (h : c.name = name) (hprepend : c.action = .prepend) :
    parts inherited name (cs ++ [c]) = c.value :: parts inherited name cs := by
  have hset : c.action ≠ .set := by rw [hprepend]; decide
  simp [parts, base_concat h hset, since_concat h hset, values, hprepend]

theorem parts_concat_append (h : c.name = name) (happend : c.action = .append) :
    parts inherited name (cs ++ [c]) = parts inherited name cs ++ [c.value] := by
  have hset : c.action ≠ .set := by rw [happend]; decide
  simp [parts, base_concat h hset, since_concat h hset, values, happend]

/-- A change of a variable adds its value to the parts, or leaves nothing but its value. -/
theorem parts_concat (inherited : ProcessEnv) (cs : List Change) (h : c.name = name) :
    parts inherited name (cs ++ [c]) = [c.value] ∨
      parts inherited name (cs ++ [c]) = c.value :: parts inherited name cs ∨
      parts inherited name (cs ++ [c]) = parts inherited name cs ++ [c.value] := by
  cases haction : c.action with
  | set => exact .inl (parts_concat_set h haction)
  | prepend => exact .inr (.inl (parts_concat_prepend h haction))
  | append => exact .inr (.inr (parts_concat_append h haction))

theorem parts_of_not_mem (h : name ∉ cs.map Change.name) :
    parts inherited name cs = ((inherited.get? name).filter (· ≠ "")).toList := by
  have hfilter : cs.filter (·.name = name) = [] := by
    rw [List.filter_eq_nil_iff]
    exact fun c hc hname => h (List.mem_map.2 ⟨c, hc, by simpa using hname⟩)
  simp [parts, base, lastSet?, since, values, hfilter]

/-! ## Values from their parts -/

theorem intercalate_ne_empty {part : String} {rest : List String} (h : part ≠ "") :
    ":".intercalate (part :: rest) ≠ "" := by
  cases rest with
  | nil => simpa using h
  | cons next rest => simp [String.intercalate_cons_cons, h]

/-- The environment has the value of a variable that the changes ask for. -/
structure Collects (inherited : ProcessEnv) (name : String) (cs : List Change) (e : Environment) : Prop where
  value : e.get? name =
    if name ∈ cs.map Change.name then some (":".intercalate (parts inherited name cs)) else none
  solid : ∀ part ∈ parts inherited name cs, part ≠ ""
  nonempty : name ∈ cs.map Change.name → parts inherited name cs ≠ []

variable {e : Environment}

theorem Collects.current? (h : Collects inherited name cs e) :
    e.current? inherited name =
      if name ∈ cs.map Change.name then some (":".intercalate (parts inherited name cs)) else inherited.get? name := by
  rw [Environment.current?, h.value]
  split <;> rfl

theorem Collects.intercalate_eq_empty_iff (h : Collects inherited name cs e) :
    ":".intercalate (parts inherited name cs) = "" ↔ parts inherited name cs = [] := by
  constructor
  · intro hempty
    cases hparts : parts inherited name cs with
    | nil => rfl
    | cons part rest =>
        rw [hparts] at hempty
        exact absurd hempty (intercalate_ne_empty (h.solid part (by rw [hparts]; exact List.mem_cons_self)))
  · intro hnil
    rw [hnil]
    rfl

/-- An extension starts from the parts that there are, and without parts from nothing. -/
theorem Collects.held (h : Collects inherited name cs e) :
    e.held inherited name = ":".intercalate (parts inherited name cs) := by
  rw [Environment.held, h.current?]
  split
  · rfl
  · next hmem =>
    rw [parts_of_not_mem hmem]
    cases inherited.get? name with
    | none => rfl
    | some old => by_cases hold : old = "" <;> simp [hold, Option.filter]

theorem Collects.get?_change (h : Collects inherited name cs e) (hname : c.name = name) :
    (e.change inherited c).get? name = some (":".intercalate (parts inherited name (cs ++ [c]))) := by
  subst hname
  rw [get?_change_self, h.held]
  cases haction : c.action with
  | set => rw [parts_concat_set rfl haction, String.intercalate_singleton, extended]
  | prepend =>
      rw [parts_concat_prepend rfl haction, extended]
      simp only [h.intercalate_eq_empty_iff]
      cases parts inherited c.name cs with
      | nil => simp
      | cons part rest => simp [String.intercalate_cons_cons]
  | append =>
      rw [parts_concat_append rfl haction, extended]
      simp only [h.intercalate_eq_empty_iff]
      split
      · next hnil => simp [hnil]
      · next hne => rw [String.intercalate_append_of_ne_nil hne (List.cons_ne_nil _ _), String.intercalate_singleton]

theorem Collects.change (h : Collects inherited name cs e) (hc : c.value ≠ "") :
    Collects inherited name (cs ++ [c]) (e.change inherited c) := by
  by_cases hname : c.name = name
  case neg =>
    have hmem : name ∈ (cs ++ [c]).map Change.name ↔ name ∈ cs.map Change.name := by
      simp [Ne.symm hname]
    constructor
    case value => rw [get?_change_other hname, h.value, parts_concat_other hname]; simp only [hmem]
    case solid => rw [parts_concat_other hname]; exact h.solid
    case nonempty => rw [parts_concat_other hname, hmem]; exact h.nonempty
  case pos =>
    have hmem : name ∈ (cs ++ [c]).map Change.name := by simp [hname]
    constructor
    case value => rw [if_pos hmem, h.get?_change hname]
    case solid =>
      rcases parts_concat inherited cs hname with heq | heq | heq
      · rw [heq]; exact List.forall_mem_singleton.2 hc
      · rw [heq]; exact List.forall_mem_cons.2 ⟨hc, h.solid⟩
      · rw [heq]; exact List.forall_mem_append.2 ⟨h.solid, List.forall_mem_singleton.2 hc⟩
    case nonempty =>
      intro _
      rcases parts_concat inherited cs hname with heq | heq | heq <;> simp [heq]

theorem collects_empty (inherited : ProcessEnv) (name : String) : Collects inherited name [] .empty := by
  have hparts : parts inherited name [] = ((inherited.get? name).filter (· ≠ "")).toList :=
    parts_of_not_mem List.not_mem_nil
  constructor
  case value => rfl
  case solid => rw [hparts]; simp
  case nonempty => exact fun hmem => absurd hmem List.not_mem_nil

/-- After changes to values that are not empty, each variable has what its own changes ask for. -/
theorem collects_ofChanges (inherited : ProcessEnv) (name : String) {cs : List Change}
    (h : ∀ c ∈ cs, c.value ≠ "") : Collects inherited name cs (ofChanges inherited cs) := by
  induction cs using List.reverseRecOn with
  | nil => exact collects_empty inherited name
  | append_singleton cs c ih =>
      rw [List.forall_mem_append, List.forall_mem_singleton] at h
      rw [ofChanges, List.foldl_append]
      exact (ih h.1).change h.2

/-! ## Changes of other variables -/

theorem foldl_ascending (inherited : ProcessEnv) (cs : List Change) (h : e.vars.Ascending) :
    (cs.foldl (Environment.change inherited) e).vars.Ascending := by
  refine List.foldlRecOn (motive := fun e : Environment => e.vars.Ascending) cs (Environment.change inherited) h ?_
  rintro e he ⟨action, name, value⟩ -
  cases action <;> exact he.insert name _

theorem ofChanges_ascending (inherited : ProcessEnv) (cs : List Change) :
    (ofChanges inherited cs).vars.Ascending := foldl_ascending inherited cs NameMap.empty_ascending

theorem get?_change_congr {e' : Environment} (h : e.get? name = e'.get? name) (c : Change) :
    (e.change inherited c).get? name = (e'.change inherited c).get? name := by
  by_cases hname : c.name = name
  case neg => rw [get?_change_other hname, get?_change_other hname, h]
  case pos =>
    subst hname
    rw [get?_change_self, get?_change_self, held, held, current?, current?, h]

/-- Only the changes of a variable count for it. -/
theorem get?_foldl_filter (inherited : ProcessEnv) (name : String) (cs : List Change) (e : Environment) :
    (cs.foldl (Environment.change inherited) e).get? name =
      ((cs.filter (·.name = name)).foldl (Environment.change inherited) e).get? name := by
  -- what has been done to other variables makes the two environments differ, but not in this variable
  suffices h : ∀ e e' : Environment, e.get? name = e'.get? name →
      (cs.foldl (Environment.change inherited) e).get? name =
        ((cs.filter (·.name = name)).foldl (Environment.change inherited) e').get? name from h e e rfl
  induction cs with
  | nil => exact fun _ _ h => h
  | cons c cs ih =>
      intro e e' h
      by_cases hname : c.name = name
      · rw [List.filter_cons_of_pos (by simpa using hname)]
        exact ih _ _ (get?_change_congr h c)
      · rw [List.filter_cons_of_neg (by simpa using hname)]
        exact ih _ _ ((get?_change_other hname).trans h)

theorem ofChanges_congr {others : List Change}
    (h : ∀ name, others.filter (·.name = name) = cs.filter (·.name = name)) :
    ofChanges inherited others = ofChanges inherited cs := by
  have hvars : (ofChanges inherited others).vars = (ofChanges inherited cs).vars := by
    refine (ofChanges_ascending inherited others).ext (ofChanges_ascending inherited cs) fun name => ?_
    have hothers := get?_foldl_filter inherited name others .empty
    rw [h name] at hothers
    exact hothers.trans (get?_foldl_filter inherited name cs .empty).symm
  exact congrArg Environment.mk hvars

/-- Changes to values that are not empty leave every variable that they name with the parts of its value, joined
with colons, and every other variable unset; and changes of different variables can be made in either order. -/
theorem ofChanges_joins (inherited : ProcessEnv) {cs : List Change} (h : ∀ c ∈ cs, c.value ≠ "") :
    (∀ name, (ofChanges inherited cs).get? name =
      if name ∈ cs.map Change.name then some (":".intercalate (parts inherited name cs)) else none) ∧
    ∀ before c d after, cs = before ++ c :: d :: after → c.name ≠ d.name →
      ofChanges inherited (before ++ d :: c :: after) = ofChanges inherited cs := by
  constructor
  · exact fun name => (collects_ofChanges inherited name h).value
  · rintro before c d after rfl hne
    refine ofChanges_congr fun name => ?_
    by_cases hc : c.name = name
    · have hd : d.name ≠ name := fun hd => hne (hc.trans hd.symm)
      simp [List.filter_cons, hd]
    · simp [List.filter_cons, hc]

/-- A search path that is set, extended and set again, and one that the process has. -/
def searchChanges : List Change :=
  [⟨.append, "PATH", "/opt/c/bin"⟩, ⟨.prepend, "CPATH", "/opt/a"⟩, ⟨.set, "CPATH", "/usr/include"⟩,
    ⟨.prepend, "PATH", "/opt/a/bin"⟩, ⟨.append, "CPATH", "/opt/c"⟩, ⟨.prepend, "PATH", "/opt/b/bin"⟩]

/-- The process has a path to extend, and an empty one. -/
def searchInherited : ProcessEnv := .ofList [("PATH", "/usr/bin"), ("CPATH", "")]

theorem joins_search :
    (∀ c ∈ searchChanges, c.value ≠ "") ∧
      (ofChanges searchInherited searchChanges).get? "PATH" = some "/opt/b/bin:/opt/a/bin:/usr/bin:/opt/c/bin" ∧
      (ofChanges searchInherited searchChanges).get? "CPATH" = some "/usr/include:/opt/c" ∧
      (ofChanges searchInherited searchChanges).get? "HOME" = none ∧
      ofChanges searchInherited (searchChanges.take 3 ++ ⟨.append, "CPATH", "/opt/c"⟩ ::
        ⟨.prepend, "PATH", "/opt/a/bin"⟩ :: searchChanges.drop 5) = ofChanges searchInherited searchChanges := by
  have solid : ∀ c ∈ searchChanges, c.value ≠ "" := by decide
  obtain ⟨hvalue, hswap⟩ := ofChanges_joins searchInherited solid
  refine ⟨solid, (hvalue "PATH").trans ?_, (hvalue "CPATH").trans ?_, (hvalue "HOME").trans ?_, ?_⟩
  · decide +kernel
  · decide +kernel
  · decide +kernel
  · exact hswap _ _ _ _ rfl (by decide)

end PackageRecipes.Environment
