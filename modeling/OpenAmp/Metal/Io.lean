import Mathlib.Algebra.Group.Int.Defs
import OpenAmp.Lib.Bytes

/-!
# libmetal I/O regions

`libmetal/lib/io.h`: a region of physical memory mapped at one virtual
address, and the translations between virtual addresses, region offsets
and physical addresses. All three are 64-bit words and wrap as the C
expressions do; an address outside the region is answered with the
`METAL_BAD_*` constants.

Where the bytes behind a region are seen by their physical addresses,
as in the memory of a remote processor, a store through the region is a
store at the translated addresses.

A region may override the physical translation by hooks (`io->ops`);
the two hooks these functions look at are kept, the access hooks are not.
-/

namespace OpenAmp.Metal

open OpenAmp.Lib

/-- `METAL_BAD_OFFSET`, `((unsigned long)-1)`. -/
def METAL_BAD_OFFSET : UInt64 := 0xFFFFFFFFFFFFFFFF

/-- `METAL_BAD_PHYS`, `((metal_phys_addr_t)-1)`. -/
def METAL_BAD_PHYS : UInt64 := 0xFFFFFFFFFFFFFFFF

/-- `METAL_BAD_VA`, `((void *)-1)`. -/
def METAL_BAD_VA : UInt64 := 0xFFFFFFFFFFFFFFFF

/-- `struct metal_io_region`. `physmap = none` is the null table. -/
structure MetalIoRegion where
  virt : UInt64
  physmap : Option (UInt64 → UInt64)
  size : UInt64
  pageShift : UInt64
  pageMask : UInt64
  offsetToPhys : Option (UInt64 → UInt64) := none
  physToOffset : Option (UInt64 → UInt64) := none

/-- `metal_io_init`, without the system mapping hook. -/
def metalIoInit (virt : UInt64) (physmap : Option (UInt64 → UInt64))
    (size pageShift : UInt64) : MetalIoRegion where
  virt := virt
  physmap := physmap
  size := size
  pageShift := pageShift
  pageMask := if 64 ≤ pageShift then 0xFFFFFFFFFFFFFFFF
    else (1 <<< pageShift) - 1

/-- `metal_io_virt`: the virtual address of an offset, null outside. -/
def metalIoVirt (io : MetalIoRegion) (offset : UInt64) : UInt64 :=
  if io.virt ≠ METAL_BAD_VA ∧ offset < io.size then io.virt + offset else 0

/-- `metal_io_virt_to_offset`. -/
def metalIoVirtToOffset (io : MetalIoRegion) (virt : UInt64) : UInt64 :=
  let offset := virt - io.virt
  if offset < io.size then offset else METAL_BAD_OFFSET

/-- `metal_io_phys`. -/
def metalIoPhys (io : MetalIoRegion) (offset : UInt64) : UInt64 :=
  match io.offsetToPhys with
  | some hook => hook offset
  | none =>
    let page := if 64 ≤ io.pageShift then 0 else offset >>> io.pageShift
    match io.physmap with
    | some physmap =>
      if offset < io.size then physmap page + (offset &&& io.pageMask)
      else METAL_BAD_PHYS
    | none => METAL_BAD_PHYS

/-- The `do … while` of `metal_io_phys_to_offset`, one unit of fuel a
round; `none` when the fuel is used up. -/
def physToOffsetLoop (io : MetalIoRegion) (phys : UInt64) :
    Nat → UInt64 → Option UInt64
  | 0, _ => none
  | fuel + 1, offset =>
    if metalIoPhys io offset = phys then some offset
    else
      let offset' := offset + (io.pageMask + 1)
      if offset' < io.size then physToOffsetLoop io phys fuel offset'
      else some METAL_BAD_OFFSET

/-- The offset at which the search of `metal_io_phys_to_offset` begins. -/
def physToOffsetStart (io : MetalIoRegion) (phys : UInt64) : UInt64 :=
  if io.pageMask = 0xFFFFFFFFFFFFFFFF then phys - (io.physmap.elim 0 (· 0))
  else phys &&& io.pageMask

/-- `metal_io_phys_to_offset`. The loop state is one 64-bit offset, so a
search still running after `2 ^ 64` rounds runs forever; that case is
answered with `METAL_BAD_OFFSET` to keep the function total. -/
def metalIoPhysToOffset (io : MetalIoRegion) (phys : UInt64) : UInt64 :=
  match io.physToOffset with
  | some hook => hook phys
  | none =>
    (physToOffsetLoop io phys (2 ^ 64) (physToOffsetStart io phys)).getD
      METAL_BAD_OFFSET

/-- `metal_io_phys_to_virt`. -/
def metalIoPhysToVirt (io : MetalIoRegion) (phys : UInt64) : UInt64 :=
  metalIoVirt io (metalIoPhysToOffset io phys)

/-- `metal_io_virt_to_phys`. -/
def metalIoVirtToPhys (io : MetalIoRegion) (virt : UInt64) : UInt64 :=
  metalIoPhys io (metalIoVirtToOffset io virt)

/-- `metal_io_block_write` without its access hook, on the region's bytes
by offset: the number of bytes written, cut off at the region's end, or
`-ERANGE` (`-34`). -/
def metalIoBlockWrite (io : MetalIoRegion) (m : Mem) (offset : UInt64)
    (src : List UInt8) : Int × Mem :=
  if metalIoVirt io offset = 0 then (-34, m)
  else
    let len := if io.size < offset + UInt64.ofNat src.length
      then (io.size - offset).toNat else src.length
    (len, writeBytes m offset.toNat (src.take len))

/-- A write that stays in the region writes everything. -/
theorem metalIoBlockWrite_of_fits {io : MetalIoRegion} {offset : UInt64}
    {src : List UInt8} (m : Mem) (hvirt : metalIoVirt io offset ≠ 0)
    (hfit : offset.toNat + src.length ≤ io.size.toNat) :
    metalIoBlockWrite io m offset src =
      ((src.length : Int), writeBytes m offset.toNat src) := by
  have hlt := io.size.toNat_lt
  have hno : ¬ io.size < offset + UInt64.ofNat src.length := by
    rw [UInt64.lt_iff_toNat_lt, UInt64.toNat_add, UInt64.toNat_ofNat']
    omega
  simp only [metalIoBlockWrite, if_neg hvirt, if_neg hno, List.take_length]

/-- Nothing written is nothing changed. -/
theorem metalIoBlockWrite_nil (io : MetalIoRegion) (m : Mem)
    (offset : UInt64) :
    ∃ status, metalIoBlockWrite io m offset [] = (status, m) := by
  simp only [metalIoBlockWrite]
  split
  · exact ⟨_, rfl⟩
  · rw [List.take_nil, writeBytes_nil]
    exact ⟨_, rfl⟩

/-- No write reaches outside the source's length. -/
theorem agree_metalIoBlockWrite {io : MetalIoRegion} {offset : UInt64}
    {src : List UInt8} {m : Mem} {a k : Nat}
    (h : a + k ≤ offset.toNat ∨ offset.toNat + src.length ≤ a) :
    Agree m (metalIoBlockWrite io m offset src).2 a k := by
  simp only [metalIoBlockWrite]
  split
  · exact fun _ _ _ => rfl
  · refine agree_writeBytes ?_
    rw [List.length_take]
    omega

/-! ## Physical memory behind a region -/

/-- Bytes stored through the region from `offset` on, in physical
memory. -/
def physStore (io : MetalIoRegion) (m : Mem) (offset : UInt64) :
    List UInt8 → Mem
  | [] => m
  | b :: bs =>
    physStore io (Function.update m (metalIoPhys io offset).toNat b)
      (offset + 1) bs

/-- The `n` bytes loaded through the region from `offset` on. -/
def physLoad (io : MetalIoRegion) (m : Mem) (offset : UInt64) (n : Nat) :
    List UInt8 :=
  (List.range n).map fun i =>
    m (metalIoPhys io (offset + UInt64.ofNat i)).toNat

/-- The conversion of a `size_t` to `int`. -/
def sizeToInt (n : UInt64) : Int32 := n.toUInt32.toInt32

/-- The conversion of an `int` to `size_t`, with its sign. -/
def intToSize (len : Int32) : UInt64 := UInt64.ofNat (len.toInt % 2 ^ 64).toNat

/-- The length the block functions go by: cut off where `offset + len`
passes the region's end. -/
def clipLen (io : MetalIoRegion) (offset : UInt64) (len : Int32) : Int32 :=
  if io.size < offset + intToSize len then sizeToInt (io.size - offset)
  else len

/-- `metal_io_block_set`. The byte loop counts `len` down to zero, past
the negative numbers if it starts there. -/
def metalIoBlockSet (io : MetalIoRegion) (m : Mem) (offset : UInt64)
    (value : UInt8) (len : Int32) : Int32 × Mem :=
  if metalIoVirt io offset = 0 then (-34, m)
  else
    let len := clipLen io offset len
    (len, physStore io m offset (List.replicate len.toUInt32.toNat value))

/-- `metal_io_block_write` of the first `len` bytes at `src`. -/
def metalIoBlockStore (io : MetalIoRegion) (m : Mem) (offset : UInt64)
    (src : Mem) (len : Int32) : Int32 × Mem :=
  if metalIoVirt io offset = 0 then (-34, m)
  else
    let len := clipLen io offset len
    (len, physStore io m offset (readBytes src 0 len.toUInt32.toNat))

/-- `metal_io_block_read`: the result and the bytes read. -/
def metalIoBlockLoad (io : MetalIoRegion) (m : Mem) (offset : UInt64)
    (len : Int32) : Int32 × List UInt8 :=
  if metalIoVirt io offset = 0 then (-34, [])
  else
    let len := clipLen io offset len
    (len, physLoad io m offset len.toUInt32.toNat)

/-- The region is exactly the `size` bytes of physical memory at `pa`. -/
structure Covers (io : MetalIoRegion) (pa size : UInt64) : Prop where
  size_eq : io.size = size
  nowrap : pa.toNat + size.toNat < 2 ^ 64
  mapped : ∀ o, o < size → metalIoVirt io o ≠ 0
  phys : ∀ o, o < size → metalIoPhys io o = pa + o
  back : ∀ o, o < size → metalIoPhysToOffset io (pa + o) = o
  outside : ∀ p, (∀ o, o < size → p ≠ pa + o) →
    size ≤ metalIoPhysToOffset io p

/-- A region of one page, as `metal_io_init` sets it up. -/
def flatRegion (virt pa size : UInt64) : MetalIoRegion :=
  metalIoInit virt (some fun _ => pa) size 0xFFFFFFFFFFFFFFFF

/-- In a region of one page an offset is a distance. -/
theorem metalIoPhys_onePage {shift : UInt64} (hshift : 64 ≤ shift)
    (virt : UInt64) (physmap : UInt64 → UInt64) (size o : UInt64) :
    metalIoPhys (metalIoInit virt (some physmap) size shift) o =
      if o < size then physmap 0 + o else METAL_BAD_PHYS := by
  have hmask : o &&& 0xFFFFFFFFFFFFFFFF = o := UInt64.and_neg_one
  simp only [metalIoPhys, metalIoInit, if_pos hshift, hmask]

/-- The search of a region of one page ends in its first round. -/
theorem physToOffsetLoop_onePage {shift : UInt64} (hshift : 64 ≤ shift)
    (virt : UInt64) (physmap : UInt64 → UInt64) (size p : UInt64) :
    let io := metalIoInit virt (some physmap) size shift
    physToOffsetLoop io p (2 ^ 64) (physToOffsetStart io p) =
      some (if p - physmap 0 < size ∨ p = METAL_BAD_PHYS then p - physmap 0
        else METAL_BAD_OFFSET) := by
  intro io
  have hphys := metalIoPhys_onePage hshift virt physmap size
  have hstart : physToOffsetStart io p = p - physmap 0 := by
    simp [io, physToOffsetStart, metalIoInit, hshift]
  have hstep : io.pageMask + 1 = 0 := by
    simp [io, metalIoInit, hshift]
  have hsize : io.size = size := rfl
  have hback : physmap 0 + (p - physmap 0) = p := by
    rw [UInt64.add_comm, UInt64.sub_add_cancel]
  have hfuel : (2 : Nat) ^ 64 = (2 ^ 64 - 1) + 1 := by omega
  rw [hstart, hfuel, physToOffsetLoop, hstep, hsize, hphys, hback,
    UInt64.add_zero]
  by_cases hin : p - physmap 0 < size
  · simp [hin]
  · by_cases hbad : p = METAL_BAD_PHYS
    · simp [hbad]
    · simp [hin, hbad, Ne.symm hbad]

theorem metalIoPhysToOffset_onePage {shift : UInt64} (hshift : 64 ≤ shift)
    (virt : UInt64) (physmap : UInt64 → UInt64) (size p : UInt64) :
    metalIoPhysToOffset (metalIoInit virt (some physmap) size shift) p =
      if p - physmap 0 < size ∨ p = METAL_BAD_PHYS then p - physmap 0
      else METAL_BAD_OFFSET := by
  have hloop := physToOffsetLoop_onePage hshift virt physmap size p
  rw [metalIoPhysToOffset]
  simp only [metalIoInit] at hloop ⊢
  rw [hloop, Option.getD_some]

theorem metalIoPhys_flatRegion (virt pa size o : UInt64) :
    metalIoPhys (flatRegion virt pa size) o =
      if o < size then pa + o else METAL_BAD_PHYS :=
  metalIoPhys_onePage (by decide) virt (fun _ => pa) size o

theorem metalIoPhysToOffset_flatRegion (virt pa size p : UInt64) :
    metalIoPhysToOffset (flatRegion virt pa size) p =
      if p - pa < size ∨ p = METAL_BAD_PHYS then p - pa
      else METAL_BAD_OFFSET :=
  metalIoPhysToOffset_onePage (by decide) virt (fun _ => pa) size p

/-- Two mappings of one page have its bytes at the same offsets. -/
theorem flatRegion_same (virt virt' pa : UInt64) {size o : UInt64}
    (ho : o < size) :
    metalIoPhysToOffset (flatRegion virt' pa size)
      (metalIoPhys (flatRegion virt pa size) o) = o := by
  have hsub : pa + o - pa = o := by
    rw [UInt64.add_comm, UInt64.add_sub_cancel]
  rw [metalIoPhys_flatRegion, if_pos ho, metalIoPhysToOffset_flatRegion, hsub,
    if_pos (.inl ho)]

/-- A region of one page covers the memory behind its page. -/
theorem covers_onePage {shift virt size : UInt64} {physmap : UInt64 → UInt64}
    (hshift : 64 ≤ shift) (hvirt : 0 < virt)
    (hend : virt.toNat + size.toNat < 2 ^ 64)
    (hnowrap : (physmap 0).toNat + size.toNat < 2 ^ 64) :
    Covers (metalIoInit virt (some physmap) size shift) (physmap 0) size where
  size_eq := rfl
  nowrap := hnowrap
  mapped := by
    intro o ho hzero
    have ho' := UInt64.lt_iff_toNat_lt.mp ho
    have hv := UInt64.lt_iff_toNat_lt.mp hvirt
    have hne : virt ≠ METAL_BAD_VA := by
      rintro rfl
      have : METAL_BAD_VA.toNat = 2 ^ 64 - 1 := rfl
      omega
    rw [metalIoVirt, if_pos ⟨hne, ho⟩] at hzero
    have hsum := congrArg UInt64.toNat hzero
    rw [UInt64.toNat_add, UInt64.toNat_zero] at hsum
    have hflat : (metalIoInit virt (some physmap) size shift).virt = virt := rfl
    rw [hflat, Nat.mod_eq_of_lt (by omega)] at hsum
    simp only [UInt64.toNat_zero] at hv
    omega
  phys := fun o ho => by rw [metalIoPhys_onePage hshift, if_pos ho]
  back := by
    intro o ho
    have hsub : physmap 0 + o - physmap 0 = o := by
      rw [UInt64.add_comm, UInt64.add_sub_cancel]
    rw [metalIoPhysToOffset_onePage hshift, hsub, if_pos (.inl ho)]
  outside := by
    intro p hp
    have hback : physmap 0 + (p - physmap 0) = p := by
      rw [UInt64.add_comm, UInt64.sub_add_cancel]
    have hnot : ¬ p - physmap 0 < size := fun hlt => hp _ hlt hback.symm
    rw [metalIoPhysToOffset_onePage hshift]
    split
    · exact UInt64.not_lt.mp hnot
    · rw [UInt64.le_iff_toNat_le]
      exact Nat.le_of_lt_succ size.toNat_lt

theorem covers_flatRegion {virt pa size : UInt64} (hvirt : 0 < virt)
    (hend : virt.toNat + size.toNat < 2 ^ 64)
    (hnowrap : pa.toNat + size.toNat < 2 ^ 64) :
    Covers (flatRegion virt pa size) pa size :=
  @covers_onePage _ virt size (fun _ => pa) (by decide) hvirt hend hnowrap

theorem Covers.phys_toNat {io : MetalIoRegion} {pa size o : UInt64}
    (h : Covers io pa size) (ho : o < size) :
    (metalIoPhys io o).toNat = pa.toNat + o.toNat := by
  have hn := h.nowrap
  have := UInt64.lt_iff_toNat_lt.mp ho
  rw [h.phys o ho, UInt64.toNat_add, Nat.mod_eq_of_lt (by omega)]

/-- A store inside a region is a store of the bytes where they belong. -/
theorem Covers.physStore {io : MetalIoRegion} {pa size : UInt64}
    (h : Covers io pa size) (bs : List UInt8) : ∀ (m : Mem) (offset : UInt64),
    offset.toNat + bs.length ≤ size.toNat →
    physStore io m offset bs = writeBytes m (pa.toNat + offset.toNat) bs := by
  induction bs with
  | nil =>
    intro m offset _
    funext a
    simp [Metal.physStore, writeBytes]
  | cons b bs ih =>
    intro m offset hfit
    have hn := h.nowrap
    have hlt := size.toNat_lt
    rw [List.length_cons] at hfit
    have hnext : (offset + 1).toNat = offset.toNat + 1 := by
      rw [UInt64.toNat_add, UInt64.toNat_one, Nat.mod_eq_of_lt (by omega)]
    rw [Metal.physStore, ih _ _ (by omega), hnext,
      h.phys_toNat (UInt64.lt_iff_toNat_lt.mpr (by omega))]
    funext a
    simp only [writeBytes]
    by_cases ha : a = pa.toNat + offset.toNat
    · subst ha
      rw [if_neg (by omega), if_pos (Nat.le_refl _), Function.update_self]
      simp
    · rw [Function.update_of_ne ha]
      by_cases hle : pa.toNat + offset.toNat ≤ a
      · rw [if_pos (by omega), if_pos hle]
        have hsub : a - (pa.toNat + offset.toNat) =
            (a - (pa.toNat + (offset.toNat + 1))) + 1 := by omega
        rw [hsub, List.getElem?_cons_succ]
      · rw [if_neg (by omega), if_neg hle]

theorem Covers.physLoad {io : MetalIoRegion} {pa size offset : UInt64}
    (h : Covers io pa size) (m : Mem) {n : Nat}
    (hfit : offset.toNat + n ≤ size.toNat) :
    physLoad io m offset n = readBytes m (pa.toNat + offset.toNat) n := by
  have hlt := size.toNat_lt
  refine List.map_congr_left fun i hi => ?_
  have hi := List.mem_range.mp hi
  have hsum : (offset + UInt64.ofNat i).toNat = offset.toNat + i := by
    rw [UInt64.toNat_add, UInt64.toNat_ofNat']
    omega
  rw [h.phys_toNat (UInt64.lt_iff_toNat_lt.mpr (by omega)), hsum,
    Nat.add_assoc]

theorem sizeToInt_count (n : UInt64) :
    (sizeToInt n).toUInt32.toNat = n.toNat % 2 ^ 32 := by
  simp [sizeToInt]

theorem sizeToInt_toInt {n : UInt64} (hn : n.toNat < 2 ^ 31) :
    (sizeToInt n).toInt = n.toNat := by
  have h : sizeToInt n = Int32.ofNat n.toNat := rfl
  rw [h, Int32.toInt_ofNat_of_lt hn]

/-- The bits of an `int` as a number. -/
theorem toNat_toUInt32_int (x : Int32) :
    (x.toUInt32.toNat : Int) =
      if 0 ≤ x.toInt then x.toInt else x.toInt + 2 ^ 32 := by
  have hx : x.toInt = x.toUInt32.toBitVec.toInt := rfl
  have hlt := x.toUInt32.toNat_lt
  rw [hx, BitVec.toInt_eq_toNat_cond, UInt32.toNat_toBitVec]
  split <;> split <;> omega

theorem toNat_intToSize {len : Int32} (h : 0 ≤ len.toInt) :
    (intToSize len).toNat = len.toInt.toNat := by
  have hlt := len.toInt_lt
  rw [intToSize, UInt64.toNat_ofNat']
  omega

/-- Back from `int`, with its sign. -/
theorem intToSize_sizeToInt (n : UInt64) :
    (intToSize (sizeToInt n)).toNat =
      if n.toNat % 2 ^ 32 < 2 ^ 31 then n.toNat % 2 ^ 32
      else n.toNat % 2 ^ 32 + (2 ^ 64 - 2 ^ 32) := by
  have hint : (sizeToInt n).toInt = (n.toNat : Int).bmod (2 ^ 32) := by
    have h : sizeToInt n = Int32.ofNat n.toNat := rfl
    rw [h]
    exact Int32.toInt_ofNat'
  rw [intToSize, hint, UInt64.toNat_ofNat']
  rw [Int.bmod_def]
  split <;> split <;> omega

/-- A length that fits the region is not cut off. -/
theorem clipLen_of_le {io : MetalIoRegion} {offset : UInt64} {len : Int32}
    (hlen : 0 ≤ len.toInt)
    (hfit : offset.toNat + len.toInt.toNat ≤ io.size.toNat) :
    clipLen io offset len = len := by
  have hlt := io.size.toNat_lt
  rw [clipLen, if_neg]
  rw [UInt64.lt_iff_toNat_lt, UInt64.toNat_add, toNat_intToSize hlen,
    Nat.mod_eq_of_lt (by omega)]
  omega

theorem clipLen_of_fits {io : MetalIoRegion} {offset n : UInt64}
    (hn : n.toNat < 2 ^ 31) (hfit : offset.toNat + n.toNat ≤ io.size.toNat) :
    clipLen io offset (sizeToInt n) = sizeToInt n := by
  have hint := sizeToInt_toInt hn
  exact clipLen_of_le (by omega) (by omega)

end OpenAmp.Metal
