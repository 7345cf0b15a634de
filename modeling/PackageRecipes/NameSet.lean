/-! Finite sets of names, kept in ascending order. -/
namespace PackageRecipes

/-- A set of names, listed in strictly ascending order. -/
structure NameSet where
  toList : List String
  ascending : toList.Pairwise (· < ·)
  deriving DecidableEq

namespace NameSet

/-- Puts a name at its place in an ascending list, once. -/
def place (x : String) : List String → List String
  | [] => [x]
  | y :: ys => if x < y then x :: y :: ys else if x = y then y :: ys else y :: place x ys

theorem mem_place {x z : String} {ys : List String} : z ∈ place x ys ↔ z = x ∨ z ∈ ys := by
  induction ys with
  | nil => simp [place]
  | cons y ys ih =>
    simp only [place]
    split
    · simp
    · split
      · next h => subst h; simp
      · simp only [List.mem_cons, ih]
        constructor
        · rintro (h | h | h) <;> simp [h]
        · rintro (h | h | h) <;> simp [h]

theorem place_ascending {x : String} {ys : List String} (h : ys.Pairwise (· < ·)) :
    (place x ys).Pairwise (· < ·) := by
  induction ys with
  | nil => simp [place]
  | cons y ys ih =>
    obtain ⟨hy, hys⟩ := List.pairwise_cons.1 h
    simp only [place]
    split
    · next hxy =>
      refine List.pairwise_cons.2 ⟨fun z hz => ?_, h⟩
      rcases List.mem_cons.1 hz with rfl | hz
      · exact hxy
      · exact String.lt_trans hxy (hy z hz)
    · next hxy =>
      split
      · exact h
      · next hne =>
        refine List.pairwise_cons.2 ⟨fun z hz => ?_, ih hys⟩
        rcases mem_place.1 hz with rfl | hz
        · exact String.not_le.1 fun hle => hne (String.le_antisymm hle (String.not_lt.1 hxy))
        · exact hy z hz

def empty : NameSet := ⟨[], List.Pairwise.nil⟩

instance : Inhabited NameSet := ⟨empty⟩

def insert (x : String) (s : NameSet) : NameSet := ⟨place x s.toList, place_ascending s.ascending⟩

def ofList (xs : List String) : NameSet := xs.foldl (fun s x => s.insert x) empty

def contains (s : NameSet) (x : String) : Bool := s.toList.contains x

def isEmpty (s : NameSet) : Bool := s.toList.isEmpty

def size (s : NameSet) : Nat := s.toList.length

/-- The least name, and the names that are left without it. -/
def popLeast? : NameSet → Option (String × NameSet)
  | ⟨[], _⟩ => none
  | ⟨x :: xs, h⟩ => some (x, ⟨xs, (List.pairwise_cons.1 h).2⟩)

instance : Membership String NameSet := ⟨fun s x => x ∈ s.toList⟩

theorem mem_iff {s : NameSet} {x : String} : x ∈ s ↔ x ∈ s.toList := Iff.rfl

instance (x : String) (s : NameSet) : Decidable (x ∈ s) := inferInstanceAs (Decidable (x ∈ s.toList))

@[simp] theorem mem_insert {s : NameSet} {x y : String} : y ∈ s.insert x ↔ y = x ∨ y ∈ s := mem_place

@[simp] theorem not_mem_empty {x : String} : ¬ x ∈ empty := List.not_mem_nil

end NameSet

end PackageRecipes
