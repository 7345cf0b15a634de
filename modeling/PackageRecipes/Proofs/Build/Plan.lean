import PackageRecipes.Build.Context
import PackageRecipes.Proofs.Update

/-!
# Commands fixed in advance

What a step of a build issues may depend on the files and on how earlier commands end. A step that
follows a plan only gives its length away: what it issues is the start of a list fixed in advance.
-/

namespace PackageRecipes

namespace Action

variable {α β : Type}

/-! ## Running a step -/

theorem runOn_onFiles_ok {s : FileStep α} {w w' : World} {x : α} : (onFiles s).runOn w = (.ok x, w') ↔
    s.runOn w.files = (.ok x, w'.files) ∧ w'.issued = w.issued := by
  obtain ⟨files, issued⟩ := w
  obtain ⟨files', issued'⟩ := w'
  show ((s.runOn files).1, World.mk (s.runOn files).2 issued) = _ ↔ _
  rcases s.runOn files with ⟨r, t⟩
  simp [Prod.ext_iff, and_assoc, eq_comm]

/-! ## Steps that issue nothing -/

/-- The step issues no command. -/
def Silent (a : Action α) : Prop := ∀ w, (a.runOn w).2.issued = w.issued

theorem Silent.pure (x : α) : Silent (pure x : Action α) := fun _ => rfl

theorem silent_onFiles (s : FileStep α) : Silent (.onFiles s) := fun _ => rfl

theorem Silent.bind {a : Action α} {f : α → Action β} (ha : Silent a) (hf : ∀ x, Silent (f x)) :
    Silent (a >>= f) := by
  intro w
  have issued := ha w
  rcases h : a.runOn w with ⟨r, w'⟩
  rw [h] at issued
  cases r with
  | ok x =>
      rw [Update.runOn_bind_ok h, hf x w']
      exact issued
  | error e =>
      rw [Update.runOn_bind_error h]
      exact issued

theorem Silent.forM {γ : Type} {f : γ → Action Unit} (xs : List γ) (h : ∀ x ∈ xs, Silent (f x)) :
    Silent (xs.forM f) := by
  induction xs with
  | nil => exact .pure _
  | cons x xs ih =>
      exact .bind (h x List.mem_cons_self) fun _ => ih fun y hy => h y (List.mem_cons_of_mem x hy)

/-! ## Plans -/

/-- The step issues the start of a plan, and when it ends well the whole plan, with this result. -/
structure Follows (a : Action α) (plan : List Invocation) (result : α) : Prop where
  issues (w : World) : ∃ done, done <+: plan ∧ (a.runOn w).2.issued = w.issued ++ done
  completes {w : World} {x : α} :
    (a.runOn w).1 = .ok x → x = result ∧ (a.runOn w).2.issued = w.issued ++ plan

theorem Silent.follows {a : Action Unit} (h : Silent a) : Follows a [] () where
  issues w := ⟨[], List.prefix_rfl, by rw [h w, List.append_nil]⟩
  completes {w} _ _ := ⟨rfl, by rw [h w, List.append_nil]⟩

namespace Follows

theorem pure (x : α) : Follows (pure x) [] x where
  issues w := ⟨[], List.prefix_rfl, (List.append_nil w.issued).symm⟩
  completes {w} _ h := ⟨(Except.ok.inj h).symm, (List.append_nil w.issued).symm⟩

theorem bind {a : Action α} {f : α → Action β} {plan plan' : List Invocation} {x : α} {y : β}
    (ha : Follows a plan x) (hf : Follows (f x) plan' y) : Follows (a >>= f) (plan ++ plan') y where
  issues w := by
    obtain ⟨done, started, issued⟩ := ha.issues w
    have completes := @ha.completes w
    rcases h : a.runOn w with ⟨r, w'⟩
    rw [h] at issued completes
    cases r with
    | error e =>
        rw [Update.runOn_bind_error h]
        exact ⟨done, started.trans (List.prefix_append plan plan'), issued⟩
    | ok x' =>
        obtain ⟨rfl, issued⟩ := completes rfl
        obtain ⟨done', started', issued'⟩ := hf.issues w'
        rw [Update.runOn_bind_ok h, issued', issued, List.append_assoc]
        exact ⟨plan ++ done', (List.prefix_append_right_inj plan).mpr started', rfl⟩
  completes {w z} ok := by
    have completes := @ha.completes w
    rcases h : a.runOn w with ⟨r, w'⟩
    rw [h] at completes
    cases r with
    | error e =>
        rw [Update.runOn_bind_error h] at ok
        cases ok
    | ok x' =>
        obtain ⟨rfl, issued⟩ := completes rfl
        rw [Update.runOn_bind_ok h] at ok ⊢
        obtain ⟨rfl, issued'⟩ := hf.completes ok
        exact ⟨rfl, by rw [issued', issued, List.append_assoc]⟩

theorem issue (runner : Runner) (i : Invocation) : Follows (issue runner i) [i] () where
  issues _ := ⟨[i], List.prefix_rfl, rfl⟩
  completes _ := ⟨rfl, rfl⟩

/-- Every plan of a step that issues a command first starts with that command. -/
theorem starts {runner : Runner} {i : Invocation} {f : Unit → Action β} {plan rest : List Invocation} {x y : β}
    (h : Follows (Action.issue runner i >>= f) plan x) (hrest : Follows (f ()) rest y) : [i] <+: plan := by
  obtain ⟨done, started, hdone⟩ := h.issues ⟨.empty, []⟩
  rw [List.nil_append] at hdone
  rw [← hdone] at started
  refine .trans ?_ started
  rcases hrun : (Action.issue runner i).runOn ⟨.empty, []⟩ with ⟨r, w⟩
  have hw : w.issued = [i] := congrArg (·.2.issued) hrun.symm
  cases r with
  | error e =>
      rw [Update.runOn_bind_error hrun]
      exact hw ▸ List.prefix_rfl
  | ok u =>
      obtain ⟨done', -, hdone'⟩ := hrest.issues w
      rw [Update.runOn_bind_ok hrun, hdone', hw]
      exact List.prefix_append [i] done'

/-- A step that comes first only under a condition. -/
theorem guarded (c : Prop) [Decidable c] {a : Action Unit} {b : Action β}
    {plan plan' : List Invocation} {y : β} (ha : Follows a plan ()) (hb : Follows b plan' y) :
    Follows (if c then a >>= fun _ => b else b) ((if c then plan else []) ++ plan') y := by
  by_cases hc : c
  · simp only [hc, ↓reduceIte]
    exact ha.bind hb
  · simp only [hc, ↓reduceIte]
    exact hb

theorem forM {γ : Type} {f : γ → Action Unit} {plan : γ → List Invocation} (xs : List γ)
    (h : ∀ x ∈ xs, Follows (f x) (plan x) ()) : Follows (xs.forM f) (xs.flatMap plan) () := by
  induction xs with
  | nil => exact .pure _
  | cons x xs ih =>
      rw [List.flatMap_cons]
      exact .bind (h x List.mem_cons_self) (ih fun y hy => h y (List.mem_cons_of_mem x hy))

theorem adapt {a : Action α} {plan : List Invocation} {x : α} (h : Follows a plan x)
    (f : Error → Error) : Follows (ExceptT.adapt f a) plan x where
  issues := h.issues
  completes {w y} ok := by
    apply h.completes
    rw [Update.runOn_adapt] at ok
    cases hr : (a.runOn w).1 with
    | error e =>
        rw [hr] at ok
        cases ok
    | ok z =>
        rw [hr] at ok
        exact ok

end Follows

/-! ## Steps that do no harm -/

/-- The step ends well, always with this result, and leaves the files as they are. -/
structure Harmless (a : Action α) (result : α) : Prop where
  succeeds (w : World) : (a.runOn w).1 = .ok result
  files (w : World) : (a.runOn w).2.files = w.files

namespace Harmless

theorem pure (x : α) : Harmless (pure x) x := ⟨fun _ => rfl, fun _ => rfl⟩

theorem bind {a : Action α} {f : α → Action β} {x : α} {y : β} (ha : Harmless a x)
    (hf : Harmless (f x) y) : Harmless (a >>= f) y := by
  have continued : ∀ w, (a >>= f).runOn w = (f x).runOn (a.runOn w).2 :=
    fun w => Update.runOn_bind_ok (Prod.ext (ha.succeeds w) rfl) f
  constructor
  case succeeds =>
    intro w
    rw [continued]
    exact hf.succeeds _
  case files =>
    intro w
    rw [continued, hf.files, ha.files]

theorem issue_dry (i : Invocation) : Harmless (issue .dry i) () := ⟨fun _ => rfl, fun _ => rfl⟩

theorem guarded (c : Prop) [Decidable c] {a : Action Unit} {b : Action β} {y : β}
    (ha : Harmless a ()) (hb : Harmless b y) :
    Harmless (if c then a >>= fun _ => b else b) y := by
  by_cases hc : c
  · simp only [hc, ↓reduceIte]
    exact ha.bind hb
  · simp only [hc, ↓reduceIte]
    exact hb

theorem forM {γ : Type} {f : γ → Action Unit} (xs : List γ) (h : ∀ x ∈ xs, Harmless (f x) ()) :
    Harmless (xs.forM f) () := by
  induction xs with
  | nil => exact .pure _
  | cons x xs ih =>
      exact .bind (h x List.mem_cons_self) (ih fun y hy => h y (List.mem_cons_of_mem x hy))

theorem adapt {a : Action α} {x : α} (h : Harmless a x) (f : Error → Error) :
    Harmless (ExceptT.adapt f a) x := by
  refine ⟨fun w => ?_, h.files⟩
  rw [Update.runOn_adapt, h.succeeds w]
  rfl

end Harmless

/-! ## Rehearsals -/

/-- Both steps follow one plan, with related results, and the second does no harm. -/
def Rehearses (R : α → β → Prop) (real : Action α) (dry : Action β) : Prop :=
  ∃ plan x y, R x y ∧ Follows real plan x ∧ Follows dry plan y ∧ Harmless dry y

namespace Rehearses

variable {α' β' : Type} {R : α → β → Prop} {S : α' → β' → Prop}

theorem pure {x : α} {y : β} (h : R x y) : Rehearses R (pure x) (pure y) :=
  ⟨[], x, y, h, .pure x, .pure y, .pure y⟩

theorem bind {real : Action α} {dry : Action β} {f : α → Action α'} {g : β → Action β'}
    (h : Rehearses R real dry) (hnext : ∀ x y, R x y → Rehearses S (f x) (g y)) :
    Rehearses S (real >>= f) (dry >>= g) := by
  obtain ⟨plan, x, y, related, hreal, hdry, harmless⟩ := h
  obtain ⟨plan', x', y', related', hreal', hdry', harmless'⟩ := hnext x y related
  exact ⟨plan ++ plan', x', y', related', hreal.bind hreal', hdry.bind hdry',
    harmless.bind harmless'⟩

theorem foldlM {γ : Type} {f : α → γ → Action α} {g : β → γ → Action β} (xs : List γ)
    (hstep : ∀ x y c, R x y → Rehearses R (f x c) (g y c)) {x : α} {y : β} (h : R x y) :
    Rehearses R (xs.foldlM f x) (xs.foldlM g y) := by
  induction xs generalizing x y with
  | nil => exact .pure h
  | cons c xs ih =>
      rw [List.foldlM_cons, List.foldlM_cons]
      exact .bind (hstep x y c h) fun _ _ => ih

theorem adapt {real : Action α} {dry : Action β} (h : Rehearses R real dry)
    (f g : Error → Error) : Rehearses R (ExceptT.adapt f real) (ExceptT.adapt g dry) := by
  obtain ⟨plan, x, y, related, hreal, hdry, harmless⟩ := h
  exact ⟨plan, x, y, related, hreal.adapt f, hdry.adapt g, harmless.adapt g⟩

/-- What the first step has issued at its end, the second has issued at some time. -/
theorem issued_prefix {real : Action α} {dry : Action β} (h : Rehearses R real dry)
    (files files' : FileTree) (issued : List Invocation) :
    (real.runOn ⟨files, issued⟩).2.issued <+: (dry.runOn ⟨files', issued⟩).2.issued := by
  obtain ⟨plan, x, y, -, hreal, hdry, harmless⟩ := h
  obtain ⟨done, started, hdone⟩ := hreal.issues ⟨files, issued⟩
  rw [hdone, (hdry.completes (harmless.succeeds _)).2]
  exact (List.prefix_append_right_inj issued).mpr started

theorem completed {real : Action α} {dry : Action β} (h : Rehearses R real dry)
    (files files' : FileTree) (issued : List Invocation) {x : α}
    (ok : (real.runOn ⟨files, issued⟩).1 = .ok x) :
    ∃ y, R x y ∧ (dry.runOn ⟨files', issued⟩).1 = .ok y ∧
      (real.runOn ⟨files, issued⟩).2.issued = (dry.runOn ⟨files', issued⟩).2.issued := by
  obtain ⟨plan, x', y, related, hreal, hdry, harmless⟩ := h
  obtain ⟨rfl, hissued⟩ := hreal.completes ok
  refine ⟨y, related, harmless.succeeds _, ?_⟩
  rw [hissued, (hdry.completes (harmless.succeeds _)).2]

theorem succeeds {real : Action α} {dry : Action β} (h : Rehearses R real dry) (w : World) :
    ∃ y, (dry.runOn w).1 = .ok y := by
  obtain ⟨_, _, y, _, _, _, harmless⟩ := h
  exact ⟨y, harmless.succeeds w⟩

theorem files {real : Action α} {dry : Action β} (h : Rehearses R real dry) (w : World) :
    (dry.runOn w).2.files = w.files := by
  obtain ⟨_, _, _, _, _, _, harmless⟩ := h
  exact harmless.files w

end Rehearses

end Action

end PackageRecipes
