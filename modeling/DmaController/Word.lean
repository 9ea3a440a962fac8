/-!
The machine words of the controller: 32-bit registers and byte buffers.
-/
namespace DmaController

abbrev Word := BitVec 32

abbrev Bytes := Array UInt8

namespace Word

/-- Some bit of `mask` is set in `word`. -/
def hasAny (word mask : Word) : Bool := word &&& mask != 0

/-- Hexadecimal text without leading zeros, marked by `0x`. -/
def hex (word : Word) : String := "0x" ++ String.ofList (Nat.toDigits 16 word.toNat)

theorem hasAny_zero_left (mask : Word) : hasAny 0 mask = false := by simp [hasAny]

theorem hasAny_zero_right (word : Word) : hasAny word 0 = false := by simp [hasAny]

/-- For a mask of one bit, `hasAny` reads that bit. -/
theorem hasAny_twoPow (word : Word) {i : Nat} (hi : i < 32) :
    hasAny word (BitVec.twoPow 32 i) = word.getLsbD i := by
  rw [hasAny, Bool.eq_iff_iff, bne_iff_ne, BitVec.and_twoPow]
  by_cases h : word.getLsbD i
  · have hne : BitVec.twoPow 32 i ≠ 0#32 := by
      intro h0
      have := congrArg (·.getLsbD i) h0
      simp [hi] at this
    simp [h, hne]
  · simp [h]

theorem hasAny_or_left {word mask other : Word} (h : hasAny word mask = true) :
    hasAny (word ||| other) mask = true := by
  refine bne_iff_ne.2 fun hzero => bne_iff_ne.1 h ?_
  ext i hi
  have hbit := congrArg (·.getLsbD i) hzero
  simp [hi] at hbit ⊢
  exact fun hword => hbit (.inl hword)

theorem hasAny_or_right {word mask : Word} (h : mask ≠ 0) :
    hasAny (word ||| mask) mask = true := by
  refine bne_iff_ne.2 fun hzero => h ?_
  ext i hi
  have hbit := congrArg (·.getLsbD i) hzero
  simp [hi] at hbit ⊢
  cases hmask : mask[i] with
  | false => rfl
  | true => exact absurd (hbit (.inr hmask)) (by simp [hmask])

end Word
end DmaController
