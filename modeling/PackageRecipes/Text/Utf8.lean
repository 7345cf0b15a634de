import PackageRecipes.Text

/-! Reading bytes as text, whatever they are. -/
namespace PackageRecipes.Text

/-- What stands for bytes that are no text. -/
def replacement : Char := '\ufffd'

/-- How many bytes follow a lead byte, the bounds of the first of them, and the bits of the lead
byte that count. -/
def leadOf? (b : Nat) : Option (Nat × Nat × Nat × Nat) :=
  if 0xC2 ≤ b && b ≤ 0xDF then some (1, 0x80, 0xBF, b - 0xC0)
  else if b = 0xE0 then some (2, 0xA0, 0xBF, 0)
  else if b = 0xED then some (2, 0x80, 0x9F, 0xD)
  else if 0xE1 ≤ b && b ≤ 0xEF then some (2, 0x80, 0xBF, b - 0xE0)
  else if b = 0xF0 then some (3, 0x90, 0xBF, 0)
  else if b = 0xF4 then some (3, 0x80, 0x8F, 4)
  else if 0xF1 ≤ b && b ≤ 0xF3 then some (3, 0x80, 0xBF, b - 0xF0)
  else none

/-- Reads the bytes that have to follow; stops at the first that cannot. -/
def followers : (count low high value : Nat) → List UInt8 → Option Nat × List UInt8
  | 0, _, _, value, bytes => (some value, bytes)
  | _ + 1, _, _, _, [] => (none, [])
  | count + 1, low, high, value, b :: rest =>
    if low ≤ b.toNat && b.toNat ≤ high then
      followers count 0x80 0xBF (value * 64 + (b.toNat - 0x80)) rest
    else (none, b :: rest)

theorem followers_length (count low high value : Nat) (bytes : List UInt8) :
    (followers count low high value bytes).2.length ≤ bytes.length := by
  induction count generalizing low high value bytes with
  | zero => simp [followers]
  | succ count ih =>
    cases bytes with
    | nil => simp [followers]
    | cons b rest =>
      simp only [followers]
      split
      · exact Nat.le_trans (ih ..) (Nat.le_succ _)
      · exact Nat.le_refl _

/-- Reads UTF-8; each run of bytes that begins a character without ending it, and each byte that
begins none, is replaced. -/
def decodeUtf8 : List UInt8 → List Char
  | [] => []
  | b :: rest =>
    if b.toNat < 0x80 then Char.ofNat b.toNat :: decodeUtf8 rest
    else match leadOf? b.toNat with
      | none => replacement :: decodeUtf8 rest
      | some (count, low, high, value) =>
        ((followers count low high value rest).1.elim replacement Char.ofNat)
          :: decodeUtf8 (followers count low high value rest).2
termination_by bytes => bytes.length
decreasing_by
  · simp
  · simp
  · exact Nat.lt_succ_of_le (followers_length ..)

end PackageRecipes.Text
