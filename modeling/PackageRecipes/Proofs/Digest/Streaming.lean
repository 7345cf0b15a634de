import PackageRecipes.Checksum

/-!
# Digests of data in pieces

What a hash function has taken in is kept as whole blocks and a rest that fills none. It does not show in the digest
where the data was cut on its way in.
-/

namespace PackageRecipes

namespace Digest.BlockHash

variable {Chain : Type} (h : BlockHash Chain) {chain : Chain} {data : List UInt8} {p : Progress Chain}

/-! ## Blocks -/

theorem absorb_short (hshort : data.length < h.blockSize) : h.absorb chain data = (chain, data) := by
  have htake : (data.take h.blockSize).length < h.blockSize := by
    rw [List.length_take]
    omega
  rw [absorb, if_pos htake]

theorem absorb_block (hlong : h.blockSize ≤ data.length) :
    h.absorb chain data = h.absorb (h.compress chain (data.take h.blockSize)) (data.drop h.blockSize) := by
  have htake : ¬ (data.take h.blockSize).length < h.blockSize := by
    rw [List.length_take]
    omega
  rw [absorb, if_neg htake]

theorem absorb_rest (chain : Chain) (data : List UInt8) : (h.absorb chain data).2.length < h.blockSize := by
  fun_induction h.absorb chain data with
  | case1 chain data hshort =>
      rw [List.length_take] at hshort
      show data.length < h.blockSize
      omega
  | case2 chain data hlong ih => exact ih

theorem absorb_append (chain : Chain) (front back : List UInt8) :
    h.absorb chain (front ++ back) = h.absorb (h.absorb chain front).1 ((h.absorb chain front).2 ++ back) := by
  fun_induction h.absorb chain front with
  | case1 chain front hshort => rfl
  | case2 chain front hlong ih =>
      have hblock : h.blockSize ≤ front.length := by
        rw [List.length_take] at hlong
        omega
      have hboth : h.blockSize ≤ (front ++ back).length := by
        rw [List.length_append]
        omega
      rw [h.absorb_block hboth, List.take_append_of_le_length hblock, List.drop_append_of_le_length hblock, ih]

/-! ## Progress -/

/-- The rest fills no block. -/
def Settled (p : Progress Chain) : Prop := p.pending.length < h.blockSize

theorem settled_begin : h.Settled h.begin := h.blockSize_pos

theorem settled_update (p : Progress Chain) (data : List UInt8) : h.Settled (h.update p data) :=
  h.absorb_rest p.chain (p.pending ++ data)

theorem update_nil (hp : h.Settled p) : h.update p [] = p := by
  rw [update, List.append_nil, h.absorb_short hp]
  rfl

theorem update_append (p : Progress Chain) (front back : List UInt8) :
    h.update p (front ++ back) = h.update (h.update p front) back := by
  have habsorb := h.absorb_append p.chain (p.pending ++ front) back
  rw [List.append_assoc] at habsorb
  simp only [update, habsorb, List.length_append, Nat.add_assoc]

/-- Pieces one after the other, up to an empty one, are taken in like the data that they make up. -/
theorem drain_pieces {pieces : List (List UInt8)} (hpieces : ∀ piece ∈ pieces, piece ≠ []) (more : List (List UInt8))
    (hp : h.Settled p) : h.drain p (pieces ++ [] :: more) = h.update p pieces.flatten := by
  induction pieces generalizing p with
  | nil =>
      rw [List.flatten_nil, h.update_nil hp]
      rfl
  | cons piece pieces ih =>
      rw [List.forall_mem_cons] at hpieces
      rw [List.cons_append, drain, if_neg (by simpa using hpieces.1), ih hpieces.2 (h.settled_update p piece),
        List.flatten_cons, h.update_append]

theorem hashPieces_eq_hash {pieces : List (List UInt8)} (hpieces : ∀ piece ∈ pieces, piece ≠ [])
    (more : List (List UInt8)) : h.hashPieces (pieces ++ [] :: more) = h.hash pieces.flatten := by
  rw [hashPieces, h.drain_pieces hpieces more h.settled_begin, hash]

end Digest.BlockHash

/-! ## Reading a source -/

theorem HashAlgorithm.digestPieces_eq_digest (algorithm : HashAlgorithm) {reads : List (List UInt8)}
    (hreads : ∀ read ∈ reads, read ≠ []) (more : List (List UInt8)) :
    algorithm.digestPieces (reads ++ [] :: more) = algorithm.digest reads.flatten := by
  cases algorithm <;> exact Digest.BlockHash.hashPieces_eq_hash _ hreads more

/-- The digest of what a source yields is that of the data, whatever the sizes of the reads are; what the source may
yield after its end is not looked at. -/
theorem hashReads_eq_hashBytes (algorithm : HashAlgorithm) {data : List UInt8} {reads : List (List UInt8)}
    (hdata : reads.flatten = data) (hreads : ∀ read ∈ reads, read ≠ []) (more : List (List UInt8)) :
    hashReads algorithm (reads ++ [] :: more) = hashBytes algorithm data := by
  rw [hashReads, hashBytes, algorithm.digestPieces_eq_digest hreads more, hdata]

/-- One byte more than a single read yields. -/
theorem hashReads_overfull :
    [List.replicate readSize 0, [1]].flatten = List.replicate readSize (0 : UInt8) ++ [1] ∧
      (∀ read ∈ [List.replicate readSize (0 : UInt8), [1]], read ≠ []) ∧
      hashReads .sha256 [List.replicate readSize 0, [1], []] =
        hashBytes .sha256 (List.replicate readSize 0 ++ [1]) := by
  have hdata : [List.replicate readSize 0, [1]].flatten = List.replicate readSize (0 : UInt8) ++ [1] := by simp
  have hfull : List.replicate readSize (0 : UInt8) ≠ [] := by
    rw [Ne, List.replicate_eq_nil_iff]
    decide
  have hreads : ∀ read ∈ [List.replicate readSize (0 : UInt8), [1]], read ≠ [] :=
    List.forall_mem_cons.2 ⟨hfull, List.forall_mem_singleton.2 (List.cons_ne_nil 1 [])⟩
  exact ⟨hdata, hreads, hashReads_eq_hashBytes .sha256 hdata hreads []⟩

theorem exists_readsOf (data : List UInt8) :
    ∃ reads, readsOf data = reads ++ [[]] ∧ reads.flatten = data ∧
      ∀ read ∈ reads, read ≠ [] ∧ read.length ≤ readSize := by
  fun_induction readsOf data with
  | case1 data hempty =>
      rw [List.isEmpty_iff] at hempty
      exact ⟨[], rfl, hempty.symm, List.forall_mem_nil _⟩
  | case2 data hne ih =>
      obtain ⟨reads, hreads, hdata, hall⟩ := ih
      rw [List.isEmpty_iff] at hne
      refine ⟨data.take readSize :: reads, by rw [hreads, List.cons_append], ?_, ?_⟩
      · rw [List.flatten_cons, hdata, List.take_append_drop]
      · refine List.forall_mem_cons.2 ⟨⟨?_, List.length_take_le _ _⟩, hall⟩
        rw [Ne, List.take_eq_nil_iff, not_or]
        exact ⟨by decide, hne⟩

theorem digestPieces_readsOf (algorithm : HashAlgorithm) (data : List UInt8) :
    algorithm.digestPieces (readsOf data) = algorithm.digest data := by
  obtain ⟨reads, hreads, rfl, hall⟩ := exists_readsOf data
  rw [hreads, algorithm.digestPieces_eq_digest fun read hread => (hall read hread).1]

end PackageRecipes
