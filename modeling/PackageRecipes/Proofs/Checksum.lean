import PackageRecipes.Files.Verification
import PackageRecipes.Proofs.Digest.Streaming
import PackageRecipes.Proofs.Except
import PackageRecipes.Proofs.Text

/-!
# Checksums and what they pin

A checksum is written in hex digits, as many as the algorithm has, in either case. It accepts the data whose digest
it is and refuses all other data, in memory as well as in a file.
-/

namespace PackageRecipes

open Text

/-! ## Written digests -/

theorem hexDigit_lower {n : Nat} (h : n < 16) : (hexDigit n).toLower = hexDigit n := by
  have hall : ∀ n < 16, (hexDigit n).toLower = hexDigit n := by decide
  exact hall n h

theorem map_toLower_hexText (bytes : List UInt8) :
    (hexText bytes).toList.map Char.toLower = (hexText bytes).toList := by
  rw [hexText, String.toList_ofList]
  induction bytes with
  | nil => rfl
  | cons b bytes ih =>
      have hb := b.toNat_lt
      rw [List.flatMap_cons, List.map_append, ih, List.map_cons, List.map_cons, List.map_nil,
        hexDigit_lower (by omega), hexDigit_lower (by omega)]

theorem sameLetters_hashBytes {s : String} {algorithm : HashAlgorithm} {data : List UInt8} :
    SameLetters s (hashBytes algorithm data) ↔
      String.ofList (s.toList.map Char.toLower) = hashBytes algorithm data := by
  rw [SameLetters, hashBytes, map_toLower_hexText, ← String.toList_inj, String.toList_ofList]

namespace Checksum

variable {algorithm : HashAlgorithm} {digest : String} {c : Checksum}

/-- Hex digits in the number that the algorithm asks for. -/
structure IsDigest (algorithm : HashAlgorithm) (digest : String) : Prop where
  length : digest.toList.length = algorithm.hexLength
  hex : ∀ d ∈ digest.toList, isHexDigit d

theorem ofDigest_ok : ofDigest algorithm digest = .ok c ↔
    IsDigest algorithm digest ∧ c = ⟨algorithm, String.ofList (digest.toList.map Char.toLower)⟩ := by
  have hlength (hex : ∀ d ∈ digest.toList, isHexDigit d) : byteLength digest.toList = digest.toList.length :=
    byteLength_eq_length fun d hd => utf8Size_of_isAlphanumeric (isAlphanumeric_of_isHexDigit (hex d hd))
  rw [ofDigest]
  split
  · next hbytes =>
      refine iff_of_false nofun fun h => hbytes ?_
      rw [hlength h.1.hex, h.1.length]
  · next hbytes =>
      split
      · next hother =>
          refine iff_of_false nofun fun h => ?_
          rw [List.all_eq_true.2 h.1.hex] at hother
          cases hother
      · next hall =>
          have hex : ∀ d ∈ digest.toList, isHexDigit d := by simpa using hall
          rw [not_not, hlength hex] at hbytes
          exact ⟨fun h => ⟨⟨hbytes, hex⟩, (Except.ok.inj h).symm⟩, fun h => congrArg Except.ok h.2.symm⟩

namespace IsDigest

theorem of_sameLetters {other : String} (h : IsDigest algorithm digest) (hother : SameLetters other digest) :
    IsDigest algorithm other where
  length := by simpa [h.length] using congrArg List.length hother
  hex d hd := by
    have hmem : d.toLower ∈ digest.toList.map Char.toLower := hother ▸ List.mem_map_of_mem hd
    obtain ⟨e, he, hlower⟩ := List.mem_map.1 hmem
    rw [← isHexDigit_toLower, ← hlower, isHexDigit_toLower]
    exact h.hex e he

theorem lower (h : IsDigest algorithm digest) :
    IsDigest algorithm (String.ofList (digest.toList.map Char.toLower)) := by
  refine h.of_sameLetters ?_
  rw [SameLetters, String.toList_ofList, List.map_map]
  exact List.map_congr_left fun d _ => toLower_toLower d

end IsDigest

/-! ## Prefixed checksums -/

theorem parse_name (algorithm : HashAlgorithm) : HashAlgorithm.parse algorithm.name = .ok algorithm := by
  cases algorithm <;> rfl

theorem name_chars (algorithm : HashAlgorithm) : ∀ d ∈ algorithm.name.toList, isBlank d = false ∧ ':' ≠ d := by
  cases algorithm <;> simp [HashAlgorithm.name, isBlank]

theorem parse_written (hdigest : IsDigest algorithm digest) :
    parse (render ⟨algorithm, digest⟩) = ofDigest algorithm digest := by
  have htext : (render ⟨algorithm, digest⟩).toList = algorithm.name.toList ++ ':' :: digest.toList := by
    simp [render]
  have hsolid : ∀ d ∈ algorithm.name.toList ++ ':' :: digest.toList, isBlank d = false := by
    rw [List.forall_mem_append, List.forall_mem_cons]
    refine ⟨fun d hd => (name_chars algorithm d hd).1, by decide, fun d hd => ?_⟩
    exact isBlank_of_isAlphanumeric (isAlphanumeric_of_isHexDigit (hdigest.hex d hd))
  have hcut : cutAt ':' (algorithm.name.toList ++ ':' :: digest.toList) =
      some (algorithm.name.toList, digest.toList) :=
    cutAt_append (fun hmem => (name_chars algorithm ':' hmem).2 rfl) digest.toList
  rw [parse, htext, trim_eq_self hsolid]
  simp only [hcut, String.ofList_toList, parse_name]
  rfl

/-! ## Verification -/

theorem isMatch_iff {data : List UInt8} : c.isMatch data ↔ hashBytes c.algorithm data = c.value := by
  rw [isMatch, beq_iff_eq]

theorem verify_read {files : FileTree} {path : Path} {content : ByteArray} (h : files.read path = .ok content) :
    c.verify files path =
      if hashBytes c.algorithm content.toList = c.value then .ok ()
      else .error (.checksumMismatch path c.render
        (render ⟨c.algorithm, hashBytes c.algorithm content.toList⟩)) := by
  have hdigest : hashReads c.algorithm (readsOf content.toList) = hashBytes c.algorithm content.toList := by
    rw [hashReads, digestPieces_readsOf, hashBytes]
  have hsame : (⟨c.algorithm, hashBytes c.algorithm content.toList⟩ : Checksum) = c ↔
      hashBytes c.algorithm content.toList = c.value :=
    ⟨fun h => congrArg value h, fun h => by rw [h]⟩
  simp only [verify, h, hdigest, hsame]

/-- A digest is accepted if it has the right number of hex digits, and its letters may be of either case. The
checksum is read back from its text; it matches the data that the digest is of, and a file of such data is found to
be right, while a file with any other content is reported with what it has in place of the digest. -/
theorem ofDigest_pins (algorithm : HashAlgorithm) (digest : String) :
    ((∃ c, ofDigest algorithm digest = .ok c) ↔
      digest.toList.length = algorithm.hexLength ∧ ∀ d ∈ digest.toList, isHexDigit d) ∧
    ∀ c, ofDigest algorithm digest = .ok c →
      parse c.render = .ok c ∧
      (∀ other, SameLetters other digest → ofDigest algorithm other = .ok c) ∧
      (∀ data, c.isMatch data ↔ SameLetters digest (hashBytes algorithm data)) ∧
      ∀ files path content, files.read path = .ok content →
        c.verify files path =
          if SameLetters digest (hashBytes algorithm content.toList) then .ok ()
          else .error (.checksumMismatch path c.render
            (algorithm.name ++ ":" ++ hashBytes algorithm content.toList)) := by
  refine ⟨⟨?_, fun ⟨hlength, hex⟩ => ⟨_, ofDigest_ok.2 ⟨⟨hlength, hex⟩, rfl⟩⟩⟩, fun c hc => ?_⟩
  · rintro ⟨c, hc⟩
    have hdigest := (ofDigest_ok.1 hc).1
    exact ⟨hdigest.length, hdigest.hex⟩
  obtain ⟨hdigest, rfl⟩ := ofDigest_ok.1 hc
  refine ⟨?_, fun other hother => ?_, fun data => ?_, fun files path content hread => ?_⟩
  · rw [parse_written hdigest.lower, ofDigest_ok]
    refine ⟨hdigest.lower, ?_⟩
    rw [String.toList_ofList, List.map_map]
    exact congrArg _ (congrArg _ (List.map_congr_left fun d _ => (toLower_toLower d).symm))
  · rw [ofDigest_ok, hother]
    exact ⟨hdigest.of_sameLetters hother, rfl⟩
  · rw [isMatch_iff, sameLetters_hashBytes, eq_comm]
  · simp only [verify_read hread, sameLetters_hashBytes, eq_comm, render]

/-- Two archives side by side. -/
def archives : FileTree :=
  ⟨[(["hello"], .file ⟨#[104, 101, 108, 108, 111]⟩), (["other"], .file ⟨#[104, 101, 108, 108, 111, 10]⟩)]⟩

theorem ofDigest_pins_hello :
    ofDigest .md5 "5D41402ABC4B2A76B9719D911017c592" = .ok ⟨.md5, "5d41402abc4b2a76b9719d911017c592"⟩ ∧
      archives.read ⟨"hello"⟩ = .ok ⟨#[104, 101, 108, 108, 111]⟩ ∧
      archives.read ⟨"other"⟩ = .ok ⟨#[104, 101, 108, 108, 111, 10]⟩ ∧
      verify ⟨.md5, "5d41402abc4b2a76b9719d911017c592"⟩ archives ⟨"hello"⟩ = .ok () ∧
      verify ⟨.md5, "5d41402abc4b2a76b9719d911017c592"⟩ archives ⟨"other"⟩ =
        .error (.checksumMismatch ⟨"other"⟩ "md5:5d41402abc4b2a76b9719d911017c592"
          "md5:b1946ac92492d2347c6235b4d2611184") := by
  have hdigest : ofDigest .md5 "5D41402ABC4B2A76B9719D911017c592" =
      .ok ⟨.md5, "5d41402abc4b2a76b9719d911017c592"⟩ := by rfl
  have hhello : archives.read ⟨"hello"⟩ = .ok ⟨#[104, 101, 108, 108, 111]⟩ := rfl
  have hother : archives.read ⟨"other"⟩ = .ok ⟨#[104, 101, 108, 108, 111, 10]⟩ := rfl
  obtain ⟨-, -, -, hverify⟩ := (ofDigest_pins .md5 "5D41402ABC4B2A76B9719D911017c592").2 _ hdigest
  refine ⟨hdigest, hhello, hother, ?_, ?_⟩
  · rw [hverify _ _ _ hhello, if_pos (by decide +kernel)]
  · have hactual : hashBytes .md5 (ByteArray.toList ⟨#[104, 101, 108, 108, 111, 10]⟩) =
        "b1946ac92492d2347c6235b4d2611184" := by decide +kernel
    rw [hverify _ _ _ hother, hactual, if_neg (by decide)]
    rfl

end Checksum

end PackageRecipes
