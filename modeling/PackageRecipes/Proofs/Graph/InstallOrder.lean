import Mathlib.Data.List.Perm.Basic
import Mathlib.Order.WellFoundedSet
import PackageRecipes.Proofs.Graph.Basic

/-!
# Install orders

An install order lists each package of a graph once, after all that it needs. A graph that has one is
acyclic; and where no package can be placed next although some are left, there is a cycle.
-/

namespace PackageRecipes

/-- A name stands before another one in a list. -/
def Before (order : List String) (a b : String) : Prop :=
  ∃ earlier later, order = earlier ++ b :: later ∧ a ∈ earlier

theorem Before.mem_left {order : List String} {a b : String} (h : Before order a b) : a ∈ order := by
  obtain ⟨earlier, later, rfl, ha⟩ := h
  exact List.mem_append_left _ ha

theorem Before.append {order : List String} {a b : String} (h : Before order a b) (more : List String) :
    Before (order ++ more) a b := by
  obtain ⟨earlier, later, rfl, ha⟩ := h
  exact ⟨earlier, later ++ more, by simp, ha⟩

theorem Before.idxOf_lt {order : List String} {a b : String} (h : Before order a b)
    (hnd : order.Nodup) : order.idxOf a < order.idxOf b := by
  obtain ⟨earlier, later, rfl, ha⟩ := h
  have hb : b ∉ earlier := fun hb => List.disjoint_of_nodup_append hnd hb List.mem_cons_self
  rw [List.idxOf_append_of_mem ha, List.idxOf_append_of_notMem hb]
  have := List.idxOf_lt_length_of_mem ha
  omega

/-- What stands before a name stands in the list that the name follows. -/
theorem Before.mem_of_append {order rest : List String} {a b : String} (h : Before (order ++ b :: rest) a b)
    (hnd : (order ++ b :: rest).Nodup) : a ∈ order := by
  have hb : b ∉ order := fun hb => List.disjoint_of_nodup_append hnd hb List.mem_cons_self
  have hlt := h.idxOf_lt hnd
  by_contra ha
  rw [List.idxOf_append_of_notMem ha, List.idxOf_append_of_notMem hb, List.idxOf_cons_self] at hlt
  omega

namespace Graph

/-- A list of the packages of a graph, each once and after the packages that it needs. -/
structure IsInstallOrder (g : Graph) (order : List String) : Prop where
  nodup : order.Nodup
  complete : ∀ n, n ∈ order ↔ g.contains n
  ordered : ∀ n d, g.DependsOn n d → Before order d n

variable {g : Graph} {order : List String}

theorem IsInstallOrder.idxOf_lt (h : g.IsInstallOrder order) {n d : String}
    (hd : Relation.TransGen g.DependsOn n d) : order.idxOf d < order.idxOf n := by
  induction hd with
  | single he => exact (h.ordered _ _ he).idxOf_lt h.nodup
  | tail _ he ih => exact Nat.lt_trans ((h.ordered _ _ he).idxOf_lt h.nodup) ih

theorem IsInstallOrder.acyclic (h : g.IsInstallOrder order) : g.Acyclic :=
  fun _ hcycle => Nat.lt_irrefl _ (h.idxOf_lt hcycle)

theorem IsInstallOrder.getLast? (h : g.IsInstallOrder order) {root : String} (hroot : root ∈ order)
    (hall : ∀ n ∈ order, n ≠ root → Relation.TransGen g.DependsOn root n) :
    order.getLast? = some root := by
  cases hlast : order.getLast? with
  | none => simp [List.getLast?_eq_none_iff.1 hlast] at hroot
  | some last =>
      obtain ⟨earlier, rfl⟩ := List.getLast?_eq_some_iff.1 hlast
      by_cases heq : last = root
      · rw [heq]
      · have hlt := h.idxOf_lt (hall last (by simp) heq)
        have hnot : last ∉ earlier := fun hm =>
          List.disjoint_of_nodup_append h.nodup hm (by simp)
        have := List.idxOf_lt_length_of_mem hroot
        rw [List.idxOf_append_of_notMem hnot] at hlt
        simp at hlt this
        omega

/-- Among packages that each need another one of them there is a cycle. -/
theorem not_acyclic_of_stuck (left : List String) (hne : left ≠ [])
    (hstuck : ∀ n ∈ left, ∃ d ∈ left, g.DependsOn n d) : ¬ g.Acyclic := by
  intro hacyclic
  -- Needing is a strict order on the finite list, so one of its names needs no other of them.
  have hirrefl : Std.Irrefl (Relation.TransGen fun a b => g.DependsOn b a) :=
    ⟨fun n hn => hacyclic n (Relation.transGen_swap.1 hn)⟩
  have horder : IsStrictOrder String (Relation.TransGen fun a b => g.DependsOn b a) :=
    { hirrefl with trans := fun _ _ _ => Relation.TransGen.trans }
  have hwf := left.finite_toSet.wellFoundedOn (r := Relation.TransGen fun a b => g.DependsOn b a)
  obtain ⟨n, hn⟩ := List.exists_mem_of_ne_nil left hne
  obtain ⟨⟨m, hm⟩, _, hmin⟩ := hwf.has_min Set.univ ⟨⟨n, hn⟩, trivial⟩
  obtain ⟨d, hd, hdep⟩ := hstuck m hm
  exact hmin ⟨d, hd⟩ trivial (.single hdep)

end Graph

end PackageRecipes
