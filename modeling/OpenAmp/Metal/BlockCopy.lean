import OpenAmp.Metal.Io

/-!
# Block copies

The loops of `metal_io_block_read` and `metal_io_block_write` of
`libmetal/lib/io.c`: single bytes until both pointers are aligned, words as
long as there are four bytes left, and single bytes again. The length is an
`int` and all loops count it down; the two loops over single bytes go on
until it is zero, also from below.

A copy is given by the stretches it moves at a time, counted from where the
two pointers stand in the beginning. However the pointers are aligned, the
stretches make up the length without a gap.
-/

namespace OpenAmp.Metal

open OpenAmp.Lib

/-- The last loop, with `n` for the number of steps down to zero. -/
def copyTail : Nat → Nat → List Span
  | 0, _ => []
  | n + 1, i => ⟨i, 1⟩ :: copyTail n (i + 1)

/-- The loop over words. A number from `2 ^ 31` on is a negative `int`. -/
def copyWords : Nat → Nat → List Span
  | n + 4, i =>
    if n + 4 < 2 ^ 31 then ⟨i, 4⟩ :: copyWords n (i + 4)
    else copyTail (n + 4) i
  | n, i => copyTail n i

/-- The first loop. -/
def copyHead (p q : UInt64) : Nat → Nat → List Span
  | 0, i => copyWords 0 i
  | n + 1, i =>
    if (p + UInt64.ofNat i) % 4 ≠ 0 ∨ (q + UInt64.ofNat i) % 4 ≠ 0 then
      ⟨i, 1⟩ :: copyHead p q n (i + 1)
    else copyWords (n + 1) i

/-- The stretches that are copied for the offset `offset` of the region and
the buffer at `buf`, and the length that is returned. -/
def blockCopy (io : MetalIoRegion) (offset buf : UInt64) (len : Int32) :
    Int32 × List Span :=
  let ptr := metalIoVirt io offset
  if ptr = 0 then (-34, [])
  else
    let len := clipLen io offset len
    (len, copyHead ptr buf len.toUInt32.toNat 0)

/-! ## Copies have no gap -/

theorem tiles_copyTail (n : Nat) : ∀ i, Tiles (copyTail n i) i n := by
  induction n with
  | zero => exact fun _ => rfl
  | succ n ih =>
    intro i
    exact ⟨rfl, Nat.le_add_left 1 n, ih (i + 1)⟩

theorem tiles_copyWords (n i : Nat) : Tiles (copyWords n i) i n := by
  fun_induction copyWords n i with
  | case1 n i _ ih => exact ⟨rfl, Nat.le_add_left 4 n, ih⟩
  | case2 n i _ => exact tiles_copyTail (n + 4) i
  | case3 n i _ => exact tiles_copyTail n i

theorem tiles_copyHead (p q : UInt64) (n : Nat) :
    ∀ i, Tiles (copyHead p q n i) i n := by
  induction n with
  | zero => exact tiles_copyWords 0
  | succ n ih =>
    intro i
    unfold copyHead
    split
    · exact ⟨rfl, Nat.le_add_left 1 n, ih (i + 1)⟩
    · exact tiles_copyWords (n + 1) i

/-- A copy moves its length without a gap, the negative lengths as what is
left to go to zero. -/
theorem tiles_blockCopy {io : MetalIoRegion} {offset : UInt64}
    (hvirt : metalIoVirt io offset ≠ 0) (buf : UInt64) (len : Int32) :
    Tiles (blockCopy io offset buf len).2 0
      (clipLen io offset len).toUInt32.toNat := by
  simp only [blockCopy, if_neg hvirt]
  exact tiles_copyHead _ _ _ 0

/-- Through the physical addresses of the region a copy has the same
length. -/
theorem metalIoBlockLoad_length (io : MetalIoRegion) (m : Mem)
    (offset buf : UInt64) (len : Int32) (a : Nat) :
    (metalIoBlockLoad io m offset len).2.length =
      (loadSpans m a (blockCopy io offset buf len).2).length := by
  by_cases hvirt : metalIoVirt io offset = 0
  · simp only [metalIoBlockLoad, blockCopy, hvirt, if_true]
    rfl
  · rw [(tiles_blockCopy hvirt buf len).load, length_readBytes]
    simp only [metalIoBlockLoad, if_neg hvirt, physLoad, List.length_map,
      List.length_range]

end OpenAmp.Metal
