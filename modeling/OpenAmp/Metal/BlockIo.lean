import OpenAmp.Lib.Pointer
import OpenAmp.Metal.BlockCopy

/-!
# Block access

`metal_io_block_read`, `metal_io_block_write` and `metal_io_block_set` of
`libmetal/lib/io.c` on the memory the processor sees: the loops move single
bytes and words between the region and the caller's buffer. However the two
are aligned, what is moved is the length cut off at the region's end, byte
by byte.

A region that has no address for an offset below its size, since it is
mapped nowhere or the sum is the null pointer, answers as if the offset
were beyond the end.
-/

namespace OpenAmp.Metal

open OpenAmp.Lib

/-! ## The functions -/

namespace BlockIo

/-- `metal_io_block_read` without an access hook. -/
def metalIoBlockRead (io : MetalIoRegion) (m : Mem) (offset dst : UInt64)
    (len : Int32) : Int32 × Mem :=
  let ptr := metalIoVirt io offset
  let (retlen, spans) := blockCopy io offset dst len
  (retlen, spans.foldl (moveSpan dst ptr) m)

/-- `metal_io_block_write` without an access hook. -/
def metalIoBlockWrite (io : MetalIoRegion) (m : Mem) (offset src : UInt64)
    (len : Int32) : Int32 × Mem :=
  let ptr := metalIoVirt io offset
  let (retlen, spans) := blockCopy io offset src len
  (retlen, spans.foldl (moveSpan ptr src) m)

/-- The `int` of `metal_io_block_set` with `value` in every byte. -/
def cint (value : UInt8) : UInt32 :=
  ([1, 2, 3] : List UInt32).foldl
    (fun cint i => cint ||| value.toUInt32 <<< (8 * i)) value.toUInt32

/-- What is stored for `value`, by width. -/
def fillValue (value : UInt8) (width : Nat) : Nat :=
  if width = 1 then value.toNat else (cint value).toNat

/-- `metal_io_block_set` without an access hook. Its loops look at one
pointer, as those of a copy do whose pointers are the same. -/
def metalIoBlockSet (io : MetalIoRegion) (m : Mem) (offset : UInt64)
    (value : UInt8) (len : Int32) : Int32 × Mem :=
  let ptr := metalIoVirt io offset
  let (retlen, spans) := blockCopy io offset ptr len
  (retlen, spans.foldl (fillSpan ptr (fillValue value)) m)

end BlockIo

/-! ## Bytes and words -/

/-- The pointer is aligned after so many bytes. -/
def AlignedAt (p : UInt64) (i : Nat) : Prop := (p.toNat + i) % 4 = 0

theorem alignedAt_iff (p : UInt64) (i : Nat) :
    AlignedAt p i ↔ (p + UInt64.ofNat i) % 4 = 0 := by
  rw [AlignedAt, ← UInt64.toNat_inj, UInt64.toNat_mod, UInt64.toNat_add,
    UInt64.toNat_ofNat', UInt64.toNat_zero, show (4 : UInt64).toNat = 4 from rfl]
  omega

/-- An aligned word does not run over the end of the address space. -/
theorem unbroken_word {p : UInt64} {i : Nat} (h : AlignedAt p i) :
    Unbroken p ⟨i, 4⟩ := by
  rw [AlignedAt] at h
  rw [Unbroken, byteAt_eq]
  simp only
  omega

/-- A byte or a word, the bytes of which follow on each other. -/
structure Access (p : UInt64) (s : Span) : Prop where
  width : s.len = 1 ∨ s.len = 4
  unbroken : Unbroken p s

theorem access_byte (p : UInt64) (i : Nat) : Access p ⟨i, 1⟩ :=
  ⟨.inl rfl, unbroken_byte p i⟩

theorem access_copyTail (p : UInt64) (n : Nat) :
    ∀ i, ∀ s ∈ copyTail n i, Access p s := by
  induction n with
  | zero => exact fun _ _ hs => absurd hs List.not_mem_nil
  | succ n ih =>
    intro i s hs
    rcases List.mem_cons.mp hs with rfl | hs
    · exact access_byte p i
    · exact ih (i + 1) s hs

theorem access_copyWords {p : UInt64} (n i : Nat) (h : AlignedAt p i) :
    ∀ s ∈ copyWords n i, Access p s := by
  fun_induction copyWords n i with
  | case1 n i _ ih =>
    intro s hs
    rcases List.mem_cons.mp hs with rfl | hs
    · exact ⟨.inr rfl, unbroken_word h⟩
    · refine ih ?_ s hs
      rw [AlignedAt] at h ⊢
      omega
  | case2 n i _ => exact access_copyTail p (n + 4) i
  | case3 n i _ => exact access_copyTail p n i

/-- Words are moved only where both pointers are aligned. -/
theorem access_copyHead (p q : UInt64) (n : Nat) :
    ∀ i, ∀ s ∈ copyHead p q n i, Access p s ∧ Access q s := by
  induction n with
  | zero => exact fun _ _ hs => absurd hs List.not_mem_nil
  | succ n ih =>
    intro i s hs
    unfold copyHead at hs
    split at hs
    · rcases List.mem_cons.mp hs with rfl | hs
      · exact ⟨access_byte p i, access_byte q i⟩
      · exact ih (i + 1) s hs
    · next halign =>
      obtain ⟨hp, hq⟩ := not_or.mp halign
      exact ⟨access_copyWords (n + 1) i
          ((alignedAt_iff p i).mpr (not_not.mp hp)) s hs,
        access_copyWords (n + 1) i
          ((alignedAt_iff q i).mpr (not_not.mp hq)) s hs⟩

/-- Each byte of the word is the value. -/
theorem cint_byte (value : UInt8) {j : Nat} (hj : j < 4) :
    (BlockIo.cint value).toNat / 256 ^ j % 256 = value.toNat := by
  have hall : ∀ n < 256, ∀ j < 4,
      (BlockIo.cint (UInt8.ofNat n)).toNat / 256 ^ j % 256 = n := by
    decide +kernel
  have h := hall value.toNat value.toNat_lt j hj
  rwa [UInt8.ofNat_toNat] at h

theorem fillValue_byte (value : UInt8) {width j : Nat}
    (hwidth : width = 1 ∨ width = 4) (hj : j < width) :
    UInt8.ofNat (BlockIo.fillValue value width / 256 ^ j) = value := by
  apply UInt8.toNat_inj.mp
  rw [UInt8.toNat_ofNat']
  rcases hwidth with rfl | rfl
  · obtain rfl : j = 0 := Nat.lt_one_iff.mp hj
    rw [BlockIo.fillValue, if_pos rfl, Nat.pow_zero, Nat.div_one]
    exact Nat.mod_eq_of_lt value.toNat_lt
  · exact cint_byte value hj

/-! ## The length -/

section

variable {io : MetalIoRegion} {offset : UInt64} {len : Int32}

/-- The region has an address for the offset. -/
def Addressed (io : MetalIoRegion) (offset : UInt64) : Prop :=
  offset < io.size ∧ io.virt ≠ METAL_BAD_VA ∧ io.virt + offset ≠ 0

instance (io : MetalIoRegion) (offset : UInt64) :
    Decidable (Addressed io offset) :=
  inferInstanceAs (Decidable (_ ∧ _))

theorem Addressed.virt (h : Addressed io offset) :
    metalIoVirt io offset = io.virt + offset := by
  rw [metalIoVirt, if_pos ⟨h.2.1, h.1⟩]

theorem virt_of_not_addressed (h : ¬ Addressed io offset) :
    metalIoVirt io offset = 0 := by
  rw [metalIoVirt]
  split
  · next hin =>
    by_contra hne
    exact h ⟨hin.2, hin.1, hne⟩
  · rfl

/-- The bytes of a length from the offset to the region's end. -/
def clamped (io : MetalIoRegion) (offset : UInt64) (len : Int32) : Nat :=
  min len.toInt.toNat (io.size.toNat - offset.toNat)

/-- In `int` and `size_t` the length comes out as in numbers. -/
theorem clipLen_toInt (hsize : io.size.toNat < 2 ^ 31) (hlen : 0 ≤ len.toInt)
    (hoff : offset < io.size) :
    (clipLen io offset len).toInt = clamped io offset len := by
  have hlt := len.toInt_lt
  have hwide := toNat_intToSize hlen
  have hsub : (io.size - offset).toNat = io.size.toNat - offset.toNat :=
    UInt64.toNat_sub_of_le _ _ (UInt64.le_of_lt hoff)
  rw [UInt64.lt_iff_toNat_lt] at hoff
  rw [clipLen, clamped]
  split
  · next hcut =>
    rw [UInt64.lt_iff_toNat_lt, UInt64.toNat_add, hwide] at hcut
    rw [sizeToInt_toInt (by omega), hsub]
    omega
  · next hfit =>
    rw [UInt64.lt_iff_toNat_lt, UInt64.toNat_add, hwide] at hfit
    omega

theorem clipLen_toUInt32 (hsize : io.size.toNat < 2 ^ 31)
    (hlen : 0 ≤ len.toInt) (hoff : offset < io.size) :
    (clipLen io offset len).toUInt32.toNat = clamped io offset len := by
  have hint := clipLen_toInt hsize hlen hoff
  have hbits := toNat_toUInt32_int (clipLen io offset len)
  rw [hint, if_pos (Int.natCast_nonneg _)] at hbits
  exact Int.ofNat.inj hbits

/-! ## What a call does -/

/-- The call moved the bytes `bytes`, `k` of them, behind `dest`, and
returned how many. -/
def BlockMoved (m : Mem) (r : Int32 × Mem) (dest : UInt64)
    (bytes : Nat → UInt8) (k : Nat) : Prop :=
  r.1.toInt = k ∧ Moved m r.2 dest bytes 0 k

/-- The call returned an error and changed nothing. -/
def BlockRefused (m : Mem) (r : Int32 × Mem) : Prop :=
  r.1.toInt < 0 ∧ r.2 = m

theorem blockCopy_of_not_addressed (h : ¬ Addressed io offset) (buf : UInt64) :
    blockCopy io offset buf len = (-34, []) := by
  simp only [blockCopy, virt_of_not_addressed h, if_true]

theorem blockRefused_of_not_addressed (m : Mem) (len : Int32)
    (h : ¬ Addressed io offset) :
    (∀ dst, BlockRefused m (BlockIo.metalIoBlockRead io m offset dst len)) ∧
    (∀ src, BlockRefused m (BlockIo.metalIoBlockWrite io m offset src len)) ∧
    ∀ value, BlockRefused m
      (BlockIo.metalIoBlockSet io m offset value len) := by
  have hneg : (-34 : Int32).toInt < 0 := by decide
  refine ⟨fun dst => ?_, fun src => ?_, fun value => ?_⟩
  · rw [BlockIo.metalIoBlockRead, blockCopy_of_not_addressed h]
    exact ⟨hneg, rfl⟩
  · rw [BlockIo.metalIoBlockWrite, blockCopy_of_not_addressed h]
    exact ⟨hneg, rfl⟩
  · rw [BlockIo.metalIoBlockSet, blockCopy_of_not_addressed h]
    exact ⟨hneg, rfl⟩

/-- What is moved at a time has no gap, and is a byte or a word that is
aligned on both sides. -/
theorem Addressed.blockCopy (h : Addressed io offset)
    (hsize : io.size.toNat < 2 ^ 31) (hlen : 0 ≤ len.toInt) (buf : UInt64) :
    (blockCopy io offset buf len).1.toInt = clamped io offset len ∧
    Tiles (blockCopy io offset buf len).2 0 (clamped io offset len) ∧
    ∀ s ∈ (blockCopy io offset buf len).2,
      Access (io.virt + offset) s ∧ Access buf s := by
  have hcount := clipLen_toUInt32 hsize hlen h.1
  simp only [Metal.blockCopy, h.virt, if_neg h.2.2, hcount]
  exact ⟨clipLen_toInt hsize hlen h.1, tiles_copyHead _ _ _ 0,
    access_copyHead _ _ _ 0⟩

theorem clamped_le (io : MetalIoRegion) (offset : UInt64) (len : Int32) :
    clamped io offset len ≤ 2 ^ 64 := by
  have hlt := io.size.toNat_lt
  rw [clamped]
  omega

/-- The bytes that are moved between the region and the buffer are not in
both. -/
def NoOverlap (io : MetalIoRegion) (offset buf : UInt64) (len : Int32) : Prop :=
  ∀ i < clamped io offset len, ∀ j < clamped io offset len,
    byteAt (io.virt + offset) i ≠ byteAt buf j

theorem Addressed.read {m : Mem} {dst : UInt64} (h : Addressed io offset)
    (hsize : io.size.toNat < 2 ^ 31) (hlen : 0 ≤ len.toInt)
    (hapart : NoOverlap io offset dst len) :
    BlockMoved m (BlockIo.metalIoBlockRead io m offset dst len) dst
      (fun j => m (byteAt (io.virt + offset) j)) (clamped io offset len) := by
  obtain ⟨hret, htiles, haccess⟩ := h.blockCopy hsize hlen dst
  refine ⟨hret, ?_⟩
  simp only [BlockIo.metalIoBlockRead, h.virt]
  exact moved_moveSpans htiles (clamped_le io offset len)
    (fun s hs => (haccess s hs).2.unbroken)
    (fun s hs => (haccess s hs).1.unbroken)
    (fun i hi j hj => (hapart j hj i hi).symm)

theorem Addressed.write {m : Mem} {src : UInt64} (h : Addressed io offset)
    (hsize : io.size.toNat < 2 ^ 31) (hlen : 0 ≤ len.toInt)
    (hapart : NoOverlap io offset src len) :
    BlockMoved m (BlockIo.metalIoBlockWrite io m offset src len)
      (io.virt + offset) (fun j => m (byteAt src j))
      (clamped io offset len) := by
  obtain ⟨hret, htiles, haccess⟩ := h.blockCopy hsize hlen src
  refine ⟨hret, ?_⟩
  simp only [BlockIo.metalIoBlockWrite, h.virt]
  exact moved_moveSpans htiles (clamped_le io offset len)
    (fun s hs => (haccess s hs).1.unbroken)
    (fun s hs => (haccess s hs).2.unbroken) hapart

theorem Addressed.set {m : Mem} (h : Addressed io offset)
    (hsize : io.size.toNat < 2 ^ 31) (hlen : 0 ≤ len.toInt) (value : UInt8) :
    BlockMoved m (BlockIo.metalIoBlockSet io m offset value len)
      (io.virt + offset) (fun _ => value) (clamped io offset len) := by
  obtain ⟨hret, htiles, haccess⟩ := h.blockCopy hsize hlen (io.virt + offset)
  simp only [BlockIo.metalIoBlockSet, h.virt]
  refine ⟨hret, moved_fillSpans htiles (clamped_le io offset len)
    (fun s hs => (haccess s hs).1.unbroken) ?_⟩
  exact fun s hs j hj => fillValue_byte value (haccess s hs).1.width hj

/-! ## The region by its offsets -/

/-- The bytes of the region by offset, as `metalIoBlockWrite` has them. -/
def regionBytes (io : MetalIoRegion) (m : Mem) : Mem :=
  fun o => m (byteAt io.virt o)

/-- The first bytes behind the pointer. -/
def bytesBehind (m : Mem) (p : UInt64) (n : Nat) : List UInt8 :=
  (List.range n).map fun j => m (byteAt p j)

theorem byteAt_offset (io : MetalIoRegion) (offset : UInt64) (j : Nat) :
    byteAt (io.virt + offset) j = byteAt io.virt (offset.toNat + j) := by
  rw [byteAt_eq, byteAt_eq, UInt64.toNat_add]
  omega

theorem metalIoBlockWrite_clamped (h : Addressed io offset)
    (hsize : io.size.toNat < 2 ^ 31) (hlen : 0 ≤ len.toInt)
    (m : Mem) {src : List UInt8} (hsrc : src.length = len.toInt.toNat) :
    metalIoBlockWrite io m offset src =
      ((clamped io offset len : Int),
        writeBytes m offset.toNat (src.take (clamped io offset len))) := by
  have hlt := len.toInt_lt
  have hoff := UInt64.lt_iff_toNat_lt.mp h.1
  have hsub : (io.size - offset).toNat = io.size.toNat - offset.toNat :=
    UInt64.toNat_sub_of_le _ _ (UInt64.le_of_lt h.1)
  have hcut : (if io.size < offset + UInt64.ofNat src.length
      then (io.size - offset).toNat else src.length) = clamped io offset len := by
    simp only [UInt64.lt_iff_toNat_lt, UInt64.toNat_add, UInt64.toNat_ofNat',
      hsrc, hsub, clamped]
    split <;> omega
  have hvirt : metalIoVirt io offset ≠ 0 := by
    rw [h.virt]
    exact h.2.2
  simp only [metalIoBlockWrite, if_neg hvirt, hcut]

/-- Seen by offset, a write through pointers is the write of the list of
the buffer's bytes. -/
theorem Addressed.write_regionBytes {m : Mem} {src : UInt64}
    (h : Addressed io offset) (hsize : io.size.toNat < 2 ^ 31)
    (hlen : 0 ≤ len.toInt) (hapart : NoOverlap io offset src len)
    {o : Nat} (ho : o < 2 ^ 64) :
    regionBytes io (BlockIo.metalIoBlockWrite io m offset src len).2 o =
      (metalIoBlockWrite io (regionBytes io m) offset
        (bytesBehind m src len.toInt.toNat)).2 o := by
  have hcount : clamped io offset len ≤ len.toInt.toNat := Nat.min_le_left _ _
  have hbytes : (bytesBehind m src len.toInt.toNat).length = len.toInt.toNat := by
    rw [bytesBehind, List.length_map, List.length_range]
  have htake : ((bytesBehind m src len.toInt.toNat).take
      (clamped io offset len)).length = clamped io offset len := by
    rw [List.length_take, hbytes, Nat.min_eq_left hcount]
  obtain ⟨_, hmoved⟩ := h.write (m := m) hsize hlen hapart
  rw [metalIoBlockWrite_clamped h hsize hlen _ hbytes]
  show _ = writeBytes (regionBytes io m) offset.toNat _ o
  by_cases hin : offset.toNat ≤ o ∧ o < offset.toNat + clamped io offset len
  · obtain ⟨j, rfl⟩ := Nat.exists_eq_add_of_le hin.1
    have hj : j < clamped io offset len := by omega
    rw [writeBytes_at _ hin.1 (by omega), regionBytes, ← byteAt_offset,
      hmoved.put j (Nat.zero_le j) (by omega), Nat.add_sub_cancel_left,
      List.getD_eq_getElem?_getD, List.getElem?_take_of_lt hj, bytesBehind,
      List.getElem?_map, List.getElem?_range (by omega), Option.map_some,
      Option.getD_some]
  · rw [writeBytes_of_not _ (by omega)]
    refine hmoved.kept _ fun j _ hj heq => hin ?_
    rw [byteAt_offset] at heq
    have hend := io.size.toNat_lt
    have hoff := UInt64.lt_iff_toNat_lt.mp h.1
    have hmin : clamped io offset len ≤ io.size.toNat - offset.toNat :=
      Nat.min_le_right _ _
    have := byteAt_inj ho (by omega) heq
    omega

end

/-- **Block access is a clamped byte copy.** Where the region has no
address for the offset, the three functions answer with an error and change
nothing. Everywhere else they move the length cut off at the region's end,
and return it, however the two pointers are aligned. -/
theorem blockAccess_clamped_copy (io : MetalIoRegion) (m : Mem)
    (offset buf : UInt64) (value : UInt8) (len : Int32)
    (hsize : io.size.toNat < 2 ^ 31) (hlen : 0 ≤ len.toInt) :
    (¬ Addressed io offset →
      BlockRefused m (BlockIo.metalIoBlockRead io m offset buf len) ∧
      BlockRefused m (BlockIo.metalIoBlockWrite io m offset buf len) ∧
      BlockRefused m (BlockIo.metalIoBlockSet io m offset value len)) ∧
    (Addressed io offset →
      let k := min len.toInt.toNat (io.size.toNat - offset.toNat)
      BlockMoved m (BlockIo.metalIoBlockSet io m offset value len)
        (io.virt + offset) (fun _ => value) k ∧
      ((∀ i < k, ∀ j < k, byteAt (io.virt + offset) i ≠ byteAt buf j) →
        BlockMoved m (BlockIo.metalIoBlockRead io m offset buf len)
          buf (fun j => m (byteAt (io.virt + offset) j)) k ∧
        BlockMoved m (BlockIo.metalIoBlockWrite io m offset buf len)
          (io.virt + offset) (fun j => m (byteAt buf j)) k)) := by
  refine ⟨fun h => ?_, fun h => ?_⟩
  · obtain ⟨hread, hwrite, hset⟩ := blockRefused_of_not_addressed m len h
    exact ⟨hread buf, hwrite buf, hset value⟩
  · exact ⟨h.set hsize hlen value, fun hapart =>
      ⟨h.read hsize hlen hapart, h.write hsize hlen hapart⟩⟩

/-- Sixteen bytes at an odd address. -/
def oddRegion : MetalIoRegion := metalIoInit 0x1001 none 16 12

/-- Of thirty bytes from the offset 2 on, the fourteen up to the region's
end are moved to an even address, one at a time. -/
theorem blockAccess_clamped_copy_odd :
    BlockMoved (fun a => UInt8.ofNat a)
      (BlockIo.metalIoBlockRead oddRegion (fun a => UInt8.ofNat a) 2 0x2002 30)
      0x2002 (fun j => UInt8.ofNat (byteAt 0x1003 j)) 14 := by
  have h := (blockAccess_clamped_copy oddRegion (fun a => UInt8.ofNat a) 2
    0x2002 0 30 (by decide) (by decide)).2 (by decide)
  exact (h.2 (by decide)).1

/-- Sixteen bytes that are mapped nowhere. -/
def unmappedRegion : MetalIoRegion := metalIoInit METAL_BAD_VA none 16 12

/-- The offset 0 is below the size, and still nothing is moved. -/
theorem unmappedRegion_not_moved :
    0 < unmappedRegion.size ∧
    (∀ i < 4, ∀ j < 4,
      byteAt (unmappedRegion.virt + 0) i ≠ byteAt 0x2000 j) ∧
    ∀ m : Mem,
      ¬ BlockMoved m (BlockIo.metalIoBlockRead unmappedRegion m 0 0x2000 4)
        0x2000 (fun j => m (byteAt (unmappedRegion.virt + 0) j)) 4 ∧
      ¬ BlockMoved m (BlockIo.metalIoBlockWrite unmappedRegion m 0 0x2000 4)
        (unmappedRegion.virt + 0) (fun j => m (byteAt 0x2000 j)) 4 ∧
      ¬ BlockMoved m (BlockIo.metalIoBlockSet unmappedRegion m 0 7 4)
        (unmappedRegion.virt + 0) (fun _ => 7) 4 := by
  refine ⟨by decide, by decide, fun m => ?_⟩
  have herange : (-34 : Int32).toInt ≠ (4 : Nat) := by decide
  exact ⟨fun h => herange h.1, fun h => herange h.1, fun h => herange h.1⟩

end OpenAmp.Metal
