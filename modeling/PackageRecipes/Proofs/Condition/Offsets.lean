import PackageRecipes.Proofs.Condition.Scanning
import PackageRecipes.Proofs.Except

/-!
# Where errors point

The scanner gets to a result for every source. It stands at the end of the source when it succeeds, and when it comes
upon a character that it does not expect, the error shows this character and where it stands.
-/

namespace PackageRecipes

open Text Condition

namespace Scan

variable {s package token : String} {rest : List Char} {e : Fault} {offset : Nat}

/-! ## Whole sources -/

theorem facing_self (s : String) : facing s s.toList = ⟨s, 0⟩ := by rw [facing, Nat.sub_self]

theorem facing_nil (s : String) : facing s [] = ⟨s, s.utf8ByteSize⟩ := by
  rw [facing, byteLength_toList]
  rfl

theorem trimStart_suffix (cs : List Char) : trimStart cs <:+ cs := List.dropWhile_suffix _

theorem parse_requirement_eq (s : String) :
    Requirement.parse s =
      if (trimStart s.toList).isEmpty then .error .empty
      else (readTarget (trimStart s.toList)).mapError (·.within s.toList) := by
  rw [Requirement.parse, readTarget]
  split
  · rfl
  split
  · rfl
  · cases Requirement.addAtoms _ _ <;> rfl

theorem parse_condition_eq (package s : String) :
    Condition.parse package s =
      if (trimStart s.toList).isEmpty then .error .empty
      else ((parseParts package (trimStart s.toList)).map conj).mapError (·.within s.toList) := by
  rw [Condition.parse]
  split
  · rfl
  · cases parseParts package (trimStart s.toList) <;> rfl

theorem run_condition (package s : String) :
    (condition package).run ⟨s, 0⟩ =
      some ((Condition.parse package s).map fun c => (c, (⟨s, s.utf8ByteSize⟩ : Scanner))) := by
  have htrim := trimStart_suffix s.toList
  rw [← facing_self, ← facing_nil, condition, run_bind_ok ((Reads.skipBlanks _).run List.suffix_rfl),
    run_bind_ok (run_peek htrim), parse_condition_eq]
  cases htext : trimStart s.toList with
  | nil => rfl
  | cons c cs =>
      rw [htext] at htrim
      refine (((Reads.parts package (c :: cs)).map conj).run htrim).trans ?_
      cases parseParts package (c :: cs) <;> rfl

theorem run_requirement (s : String) :
    requirement.run ⟨s, 0⟩ = some ((Requirement.parse s).map fun r => (r, (⟨s, s.utf8ByteSize⟩ : Scanner))) := by
  have htrim := trimStart_suffix s.toList
  rw [← facing_self, ← facing_nil, requirement, run_bind_ok ((Reads.skipBlanks _).run List.suffix_rfl),
    run_bind_ok (run_peek htrim), parse_requirement_eq]
  cases htext : trimStart s.toList with
  | nil => rfl
  | cons c cs =>
      rw [htext] at htrim
      refine ((Reads.target (c :: cs)).run htrim).trans ?_
      cases readTarget (c :: cs) <;> rfl

/-! ## Offsets -/

/-- The offset is that of a position in the source, and the token is the character there, or nothing at the end. -/
def PointsInto (source token : String) (offset : Nat) : Prop :=
  ∃ p : source.Pos, p.offset.byteIdx = offset ∧ token = p.get?.elim "" String.singleton ∧
    (token = "" ↔ offset = source.utf8ByteSize)

theorem get?_of_splits {before behind : String} {p : s.Pos} (h : p.Splits before behind) :
    p.get? = behind.toList.head? := by
  by_cases hend : p = s.endPos
  · rw [h.eq_endPos_iff.1 hend, String.Pos.get?_eq_none hend]
    rfl
  · obtain ⟨behind, rfl⟩ := h.exists_eq_singleton_append hend
    rw [String.Pos.get?_eq_some_get hend]
    simp

theorem pointsInto_of_suffix (h : rest <:+ s.toList) :
    PointsInto s (String.ofList (rest.take 1)) (byteLength s.toList - byteLength rest) := by
  obtain ⟨front, hfront⟩ := h
  obtain ⟨p, -, hsplits⟩ := exists_position (ofList_append_of_toList hfront)
  have hoffset : p.offset.byteIdx = (facing s rest).offset := by
    rw [facing_offset hfront, hsplits.offset_eq_rawEndPos]
    rfl
  refine ⟨p, hoffset, ?_, ?_⟩
  · rw [get?_of_splits hsplits, String.toList_ofList]
    cases rest <;> rfl
  · have hlength : byteLength s.toList = byteLength front + byteLength rest := by rw [← hfront, byteLength_append]
    rw [← byteLength_toList, hlength]
    cases rest with
    | nil => simp [byteLength]
    | cons c rest =>
        have hc := c.utf8Size_pos
        have hne : String.ofList ((c :: rest).take 1) ≠ "" := by simp
        simp only [hne, byteLength, false_iff]
        omega

theorem pointsInto_within (hwithin : IsWithin (trimStart s.toList) e)
    (h : e.within s.toList = .unexpected token offset) : PointsInto s token offset := by
  cases e with
  | unexpected rest =>
      cases h
      exact pointsInto_of_suffix (List.IsSuffix.trans hwithin (trimStart_suffix _))
  | missingName _ | badVersion _ _ => cases h

theorem pointsInto_of_condition
    (h : Condition.parse package s = .error (.unexpected token offset)) : PointsInto s token offset := by
  rw [parse_condition_eq] at h
  split at h
  · cases h
  · have hleaves := (Reads.parts (s := s) package (trimStart s.toList)).leaves
    cases hread : parseParts package (trimStart s.toList) with
    | ok parts =>
        rw [hread] at h
        cases h
    | error e =>
        rw [hread] at h hleaves
        exact pointsInto_within hleaves (Except.error.inj h)

theorem pointsInto_of_requirement
    (h : Requirement.parse s = .error (.unexpected token offset)) : PointsInto s token offset := by
  rw [parse_requirement_eq] at h
  split at h
  · cases h
  · have hleaves := (Reads.target (s := s) (trimStart s.toList)).leaves
    cases hread : readTarget (trimStart s.toList) with
    | ok read =>
        rw [hread] at h
        cases h
    | error e =>
        rw [hread] at h hleaves
        exact pointsInto_within hleaves (Except.error.inj h)

/-- Read at byte positions, every source gets to a result, no cut leaves the source or divides a character, and no loop
takes more turns than the source has bytes and one. The result is the one of the reader, a success is at the end of the
source, and an unexpected token is the character at its offset, which is none just at the end. -/
theorem parse_scanned (package s : String) :
    (condition package).run ⟨s, 0⟩ =
      some ((Condition.parse package s).map fun c => (c, (⟨s, s.utf8ByteSize⟩ : Scanner))) ∧
    requirement.run ⟨s, 0⟩ = some ((Requirement.parse s).map fun r => (r, (⟨s, s.utf8ByteSize⟩ : Scanner))) ∧
    ∀ token offset, (Condition.parse package s = .error (.unexpected token offset) ∨
      Requirement.parse s = .error (.unexpected token offset)) → PointsInto s token offset := by
  refine ⟨run_condition package s, run_requirement s, fun token offset h => ?_⟩
  rcases h with h | h
  · exact pointsInto_of_condition h
  · exact pointsInto_of_requirement h

/-- A value that takes more bytes than characters, in front of what is no atom. -/
def accentedText : String := "kokkos arch=é !"

theorem scanned_accented :
    Requirement.parse accentedText = .error (.unexpected "!" 15) ∧ PointsInto accentedText "!" 15 ∧
      requirement.run ⟨accentedText, 0⟩ = some (.error (.unexpected "!" 15)) := by
  have hread : Requirement.parse accentedText = .error (.unexpected "!" 15) :=
    eq_error_of_refusal? (by decide +kernel)
  obtain ⟨-, hrun, hpoints⟩ := parse_scanned "solver" accentedText
  rw [hread] at hrun
  exact ⟨hread, hpoints _ _ (.inr hread), hrun⟩

end Scan

end PackageRecipes
