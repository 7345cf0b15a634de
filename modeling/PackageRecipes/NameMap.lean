/-! Finite maps from names, kept in ascending order of the names. -/
namespace PackageRecipes

/-- A map from names; `insert` keeps the entries in ascending order of their names. -/
structure NameMap (α : Type) where
  entries : List (String × α)
  deriving DecidableEq

namespace NameMap

variable {α β : Type}

def empty : NameMap α := ⟨[]⟩

instance : Inhabited (NameMap α) := ⟨empty⟩

/-- The value in the first entry of a list with the given name. -/
def find (k : String) : List (String × α) → Option α
  | [] => none
  | (k', v) :: rest => if k = k' then some v else find k rest

def get? (m : NameMap α) (k : String) : Option α := find k m.entries

def contains (m : NameMap α) (k : String) : Bool := (m.get? k).isSome

/-- Puts an entry at its place in an ascending list, over one of the same name. -/
def place (k : String) (v : α) : List (String × α) → List (String × α)
  | [] => [(k, v)]
  | (k', v') :: rest =>
    if k < k' then (k, v) :: (k', v') :: rest
    else if k = k' then (k, v) :: rest
    else (k', v') :: place k v rest

def insert (m : NameMap α) (k : String) (v : α) : NameMap α := ⟨place k v m.entries⟩

def ofList (xs : List (String × α)) : NameMap α := xs.foldl (fun m (k, v) => m.insert k v) empty

def keys (m : NameMap α) : List String := m.entries.map Prod.fst

def values (m : NameMap α) : List α := m.entries.map Prod.snd

def size (m : NameMap α) : Nat := m.entries.length

def isEmpty (m : NameMap α) : Bool := m.entries.isEmpty

def map (f : α → β) (m : NameMap α) : NameMap β := ⟨m.entries.map fun (k, v) => (k, f v)⟩

/-- The names are in strictly ascending order. -/
def Ascending (m : NameMap α) : Prop := m.keys.Pairwise (· < ·)

theorem find_place (k j : String) (v : α) (xs : List (String × α)) :
    find j (place k v xs) = if j = k then some v else find j xs := by
  induction xs with
  | nil => simp [place, find]
  | cons e rest ih =>
    obtain ⟨k', v'⟩ := e
    simp only [place]
    split
    · simp [find]
    · split
      · next h => subst h; by_cases hj : j = k <;> simp [find, hj]
      · next hne =>
        by_cases hj : j = k'
        · have : ¬ k' = k := fun h => hne h.symm
          simp [find, hj, this]
        · simp [find, hj, ih]

@[simp] theorem get?_empty (k : String) : (empty : NameMap α).get? k = none := rfl

@[simp] theorem get?_insert (m : NameMap α) (k j : String) (v : α) :
    (m.insert k v).get? j = if j = k then some v else m.get? j := find_place k j v m.entries

end NameMap

end PackageRecipes
