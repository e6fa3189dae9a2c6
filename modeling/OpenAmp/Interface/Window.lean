import OpenAmp.Interface.Layout

/-!
# The translation window

`openamp_dev_create` sets up one I/O region, and every address a peer
writes into a descriptor is translated through it. The region begins with
the buffers; its size is that of the whole memory less the status area, so
that it ends behind the mapping by what lies between the two.
-/

namespace OpenAmp.Interface

open OpenAmp.Lib OpenAmp.Metal

namespace OpenampVirtioDevice

/-- The bytes the I/O region gives access to. -/
def window (dev : OpenampVirtioDevice) : Span :=
  ⟨dev.ioRegion.virt.toNat, dev.ioRegion.size.toNat⟩

/-- An address of the pool has the physical address that lies as far into
the memory. -/
def PoolTranslated (dev : OpenampVirtioDevice) : Prop :=
  ∀ va : UInt64, dev.vringBuf.toNat ≤ va.toNat →
    va.toNat < dev.vringBuf.toNat + dev.vringSize.toNat →
    metalIoVirtToPhys dev.ioRegion va = dev.shmPhysaddr + (va - dev.shmVaddr)

/-- Only physical addresses of the memory are translated back. -/
def PhysInside (dev : OpenampVirtioDevice) : Prop :=
  ∀ p : UInt64, metalIoPhysToVirt dev.ioRegion p ≠ 0 →
    p - dev.shmPhysaddr < dev.shmSize.toUInt64

/-- The I/O region gives access to the mapping and to nothing else. -/
structure WindowOk (dev : OpenampVirtioDevice) : Prop where
  covered : dev.window.Within dev.mapping
  pool : dev.PoolTranslated
  inside : dev.PhysInside

/-- The rings lie in the mapping, and a pool that is not empty. -/
structure Fits (dev : OpenampVirtioDevice) : Prop where
  within : ∀ s ∈ dev.parts, s.Within dev.mapping
  pool : dev.vringSize ≠ 0

/-- No byte is left for either ring, and none for padding, so that the
buffers begin where the status area ends. -/
def NoRingSpace (dev : OpenampVirtioDevice) (shmVaddr : UInt64) : Prop :=
  ringSpace dev.txNum = 0 ∧ ringSpace dev.rxNum = 0 ∧
    ALIGN (shmVaddr + dev.vdevStatusSize.toUInt64) dev.alignSize =
      shmVaddr + dev.vdevStatusSize.toUInt64

instance (dev : OpenampVirtioDevice) (shmVaddr : UInt64) :
    Decidable (dev.NoRingSpace shmVaddr) :=
  inferInstanceAs (Decidable (_ ∧ _))

end OpenampVirtioDevice

/-! ## Where the buffers begin -/

section Divide

variable {dev : OpenampVirtioDevice} {shmVaddr : UInt64}

theorem alignSize_ne_of_accepted (haccepted : dev.accepted = true) :
    dev.alignSize ≠ 0 := by
  simp only [OpenampVirtioDevice.accepted, Bool.and_eq_true,
    Bool.not_eq_true', Bool.or_eq_false_iff, decide_eq_false_iff_not]
    at haccepted
  exact haccepted.2.2

/-- The status area comes before the first ring. -/
theorem divide_vringTx_ge (haccepted : dev.accepted = true)
    (hlow : shmVaddr.toNat + dev.shmSize.toNat ≤ 2 ^ 63) :
    shmVaddr.toNat + dev.vdevStatusSize.toNat ≤
      (dev.divide shmVaddr).vringTx.toNat := by
  have h := ALIGN_add_bounds (alignSize_ne_of_accepted haccepted)
    (by omega : shmVaddr.toNat < 2 ^ 63 + 2 ^ 34)
    (n := dev.vdevStatusSize.toUInt64) dev.vdevStatusSize.toNat_lt
  exact h.1

theorem toNat_add_status (dev : OpenampVirtioDevice)
    (hlow : shmVaddr.toNat + dev.shmSize.toNat ≤ 2 ^ 63) :
    (shmVaddr + dev.vdevStatusSize.toUInt64).toNat =
      shmVaddr.toNat + dev.vdevStatusSize.toNat := by
  have hlt := dev.vdevStatusSize.toNat_lt
  rw [UInt64.toNat_add, UInt32.toNat_toUInt64]
  omega

/-- The buffers begin where the status area ends exactly if nothing lies
between. -/
theorem divide_vringBuf_le_iff (haccepted : dev.accepted = true)
    (hlow : shmVaddr.toNat + dev.shmSize.toNat ≤ 2 ^ 63) :
    (dev.divide shmVaddr).vringBuf.toNat ≤
        shmVaddr.toNat + dev.vdevStatusSize.toNat ↔
      dev.NoRingSpace shmVaddr := by
  have hdiv := divide_divided haccepted hlow
  have htx := divide_vringTx_ge haccepted hlow
  have hrx := hdiv.rx
  have hbuf := hdiv.buf
  have hstatus := toNat_add_status dev hlow
  constructor
  · intro hle
    -- every step of the chain from the status area to the buffers is even
    have hspaceTx : (ringSpace dev.txNum).toNat = 0 := by
      show (ringSpace (dev.divide shmVaddr).txNum).toNat = 0
      omega
    have hspaceRx : (ringSpace dev.rxNum).toNat = 0 := by
      show (ringSpace (dev.divide shmVaddr).rxNum).toNat = 0
      omega
    refine ⟨UInt64.toNat_inj.mp hspaceTx, UInt64.toNat_inj.mp hspaceRx, ?_⟩
    apply UInt64.toNat_inj.mp
    show (dev.divide shmVaddr).vringTx.toNat = _
    omega
  · rintro ⟨hspaceTx, hspaceRx, hpad⟩
    apply Nat.le_of_eq
    rw [← hstatus]
    simp only [OpenampVirtioDevice.divide, hspaceTx, hspaceRx, hpad,
      UInt64.add_zero]

/-- The size of the I/O region, where the status area fits the memory. -/
theorem divide_regionSize
    (hle : dev.vdevStatusSize.toNat ≤ dev.shmSize.toNat) :
    (dev.divide shmVaddr).ioRegion.size.toNat =
      dev.shmSize.toNat - dev.vdevStatusSize.toNat := by
  show (dev.shmSize - dev.vdevStatusSize).toUInt64.toNat = _
  rw [UInt32.toNat_toUInt64,
    UInt32.toNat_sub_of_le _ _ (UInt32.le_iff_toNat_le.mpr hle)]

/-! ## Translation -/

theorem DEFAULT_PAGE_SHIFT_ge : 64 ≤ DEFAULT_PAGE_SHIFT := by decide

/-- Inside the region, an address is translated by its distance from the
start of the memory. -/
theorem divide_virtToPhys {va : UInt64}
    (hin : va - (dev.divide shmVaddr).vringBuf <
      (dev.divide shmVaddr).ioRegion.size) :
    metalIoVirtToPhys (dev.divide shmVaddr).ioRegion va =
      dev.shmPhysaddr + (va - shmVaddr) := by
  have hoffset : metalIoVirtToOffset (dev.divide shmVaddr).ioRegion va =
      va - (dev.divide shmVaddr).vringBuf := if_pos hin
  rw [metalIoVirtToPhys, hoffset]
  refine (metalIoPhys_onePage DEFAULT_PAGE_SHIFT_ge _ _ _ _).trans ?_
  refine (if_pos hin).trans ?_
  show dev.shmPhysaddr + ((dev.divide shmVaddr).vringBuf - shmVaddr) + _ = _
  grind

/-- A physical address is translated back exactly if it lies in the region,
as long as the region does not reach the end of the address space. -/
theorem divide_physToVirt_ne {p : UInt64}
    (hpos : 0 < (dev.divide shmVaddr).vringBuf.toNat)
    (hend : (dev.divide shmVaddr).vringBuf.toNat +
      (dev.divide shmVaddr).ioRegion.size.toNat < 2 ^ 64) :
    metalIoPhysToVirt (dev.divide shmVaddr).ioRegion p ≠ 0 ↔
      p - (dev.divide shmVaddr).shmPhysmap <
        (dev.divide shmVaddr).ioRegion.size := by
  have hback := metalIoPhysToOffset_onePage DEFAULT_PAGE_SHIFT_ge
    (dev.divide shmVaddr).vringBuf (fun _ => (dev.divide shmVaddr).shmPhysmap)
    (dev.divide shmVaddr).ioRegion.size p
  have hregion : metalIoInit (dev.divide shmVaddr).vringBuf
      (some fun _ => (dev.divide shmVaddr).shmPhysmap)
      (dev.divide shmVaddr).ioRegion.size DEFAULT_PAGE_SHIFT =
        (dev.divide shmVaddr).ioRegion := rfl
  rw [hregion] at hback
  rw [metalIoPhysToVirt, hback]
  have hvirt : (dev.divide shmVaddr).ioRegion.virt =
      (dev.divide shmVaddr).vringBuf := rfl
  constructor
  · intro hne
    by_contra hout
    apply hne
    -- what the search answers outside the region is no offset of it
    rw [metalIoVirt, if_neg]
    rintro ⟨-, hlt⟩
    split at hlt
    · exact hout hlt
    · have hbad : METAL_BAD_OFFSET.toNat = 2 ^ 64 - 1 := rfl
      have hlt := UInt64.lt_iff_toNat_lt.mp hlt
      omega
  · intro hin hzero
    rw [if_pos (.inl hin), metalIoVirt, hvirt] at hzero
    have hlt := UInt64.lt_iff_toNat_lt.mp hin
    have hne : (dev.divide shmVaddr).vringBuf ≠ METAL_BAD_VA := by
      intro hbad
      have hlast : METAL_BAD_VA.toNat = 2 ^ 64 - 1 := rfl
      rw [hbad, hlast] at hend
      omega
    rw [if_pos ⟨hne, hin⟩] at hzero
    have hsum := congrArg UInt64.toNat hzero
    rw [UInt64.toNat_add, UInt64.toNat_zero, Nat.mod_eq_of_lt (by omega)]
      at hsum
    omega

end Divide

/-! ## The window -/

section Created

variable {dev : OpenampVirtioDevice} {shmVaddr : UInt64}

/-- What the parts being in the mapping says of the numbers: the pool ends
with the mapping, and the region is longer than the pool by what lies
between the status area and the buffers. -/
structure OpenampVirtioDevice.Measured (dev : OpenampVirtioDevice) :
    Prop where
  mapped : 0 < dev.vringBuf.toNat
  low : dev.shmVaddr.toNat + dev.shmSize.toNat ≤ 2 ^ 63
  start : dev.shmVaddr.toNat + dev.vdevStatusSize.toNat ≤ dev.vringBuf.toNat
  pool : 0 < dev.vringSize.toNat
  poolEnd : dev.vringBuf.toNat + dev.vringSize.toNat =
    dev.shmVaddr.toNat + dev.shmSize.toNat
  region : dev.ioRegion.size.toNat =
    dev.shmSize.toNat - dev.vdevStatusSize.toNat

theorem divide_measured (haccepted : dev.accepted = true)
    (hlow : shmVaddr.toNat + dev.shmSize.toNat ≤ 2 ^ 63)
    (hfits : (dev.divide shmVaddr).Fits) :
    (dev.divide shmVaddr).Measured := by
  have hdiv := divide_divided haccepted hlow
  have htx := divide_vringTx_ge haccepted hlow
  have hrx := hdiv.rx
  have hbuf := hdiv.buf
  have hpos : (dev.divide shmVaddr).vringSize.toNat ≠ 0 := fun h0 =>
    hfits.pool (UInt32.toNat_inj.mp h0)
  have hin : shmVaddr.toNat ≤ (dev.divide shmVaddr).vringBuf.toNat ∧
      (dev.divide shmVaddr).vringBuf.toNat +
        (dev.divide shmVaddr).vringSize.toNat ≤
          shmVaddr.toNat + dev.shmSize.toNat :=
    hfits.within ⟨(dev.divide shmVaddr).vringBuf.toNat,
      (dev.divide shmVaddr).vringSize.toNat⟩
      (by simp [OpenampVirtioDevice.parts])
  have hstart : shmVaddr.toNat + dev.vdevStatusSize.toNat ≤
      (dev.divide shmVaddr).vringBuf.toNat := by omega
  have hfirst := hdiv.tx
  refine ⟨?_, hlow, hstart, by omega, hdiv.pool ?_, divide_regionSize ?_⟩
  · omega
  · show _ ≤ shmVaddr.toNat + dev.shmSize.toNat
    omega
  · omega

/-- The division changes neither the memory nor the sizes asked for. -/
theorem measured_divide (h : (dev.divide shmVaddr).Measured) :
    shmVaddr.toNat + dev.vdevStatusSize.toNat ≤
      (dev.divide shmVaddr).vringBuf.toNat ∧
    (dev.divide shmVaddr).vringBuf.toNat +
      (dev.divide shmVaddr).vringSize.toNat =
        shmVaddr.toNat + dev.shmSize.toNat ∧
    (dev.divide shmVaddr).ioRegion.size.toNat =
      dev.shmSize.toNat - dev.vdevStatusSize.toNat :=
  ⟨h.start, h.poolEnd, h.region⟩

/-- The region lies in the mapping exactly if it begins where the status
area ends. -/
theorem window_within_iff (h : (dev.divide shmVaddr).Measured) :
    (dev.divide shmVaddr).window.Within (dev.divide shmVaddr).mapping ↔
      (dev.divide shmVaddr).vringBuf.toNat ≤
        shmVaddr.toNat + dev.vdevStatusSize.toNat := by
  have hpool := h.pool
  obtain ⟨hstart, hpoolEnd, hsize⟩ := measured_divide h
  show shmVaddr.toNat ≤ (dev.divide shmVaddr).vringBuf.toNat ∧
    (dev.divide shmVaddr).vringBuf.toNat +
      (dev.divide shmVaddr).ioRegion.size.toNat ≤
        shmVaddr.toNat + dev.shmSize.toNat ↔ _
  omega

/-- The buffers themselves are translated as they should be. -/
theorem poolTranslated_divide (h : (dev.divide shmVaddr).Measured) :
    (dev.divide shmVaddr).PoolTranslated := by
  intro va hlo hhi
  apply divide_virtToPhys
  obtain ⟨hstart, hpoolEnd, hsize⟩ := measured_divide h
  rw [UInt64.lt_iff_toNat_lt,
    UInt64.toNat_sub_of_le _ _ (UInt64.le_iff_toNat_le.mpr hlo)]
  omega

/-- The distance of a physical address from the start of the memory is that
from the start of the buffers, and theirs. -/
theorem sub_shmPhysaddr (dev : OpenampVirtioDevice) (shmVaddr p : UInt64) :
    p - dev.shmPhysaddr = (p - (dev.divide shmVaddr).shmPhysmap) +
      ((dev.divide shmVaddr).vringBuf - shmVaddr) := by
  show _ = p - (dev.shmPhysaddr +
    ((dev.divide shmVaddr).vringBuf - shmVaddr)) + _
  grind

/-- Physical addresses outside the memory are refused exactly if the region
begins where the status area ends: otherwise its last byte is one. -/
theorem physInside_iff (h : (dev.divide shmVaddr).Measured) :
    (dev.divide shmVaddr).PhysInside ↔
      (dev.divide shmVaddr).vringBuf.toNat ≤
        shmVaddr.toNat + dev.vdevStatusSize.toNat := by
  have hlow : shmVaddr.toNat + dev.shmSize.toNat ≤ 2 ^ 63 := h.low
  have hpool := h.pool
  obtain ⟨hstart, hpoolEnd, hsize⟩ := measured_divide h
  have hshm : dev.shmSize.toUInt64.toNat = dev.shmSize.toNat :=
    UInt32.toNat_toUInt64 _
  have hlt := dev.shmSize.toNat_lt
  have hdist : ((dev.divide shmVaddr).vringBuf - shmVaddr).toNat =
      (dev.divide shmVaddr).vringBuf.toNat - shmVaddr.toNat :=
    UInt64.toNat_sub_of_le _ _ (UInt64.le_iff_toNat_le.mpr (by omega))
  have hne := fun p => divide_physToVirt_ne (p := p) h.mapped (by omega)
  constructor
  · intro hinside
    let last := (dev.divide shmVaddr).ioRegion.size - 1
    have hlast : last.toNat =
        (dev.divide shmVaddr).ioRegion.size.toNat - 1 :=
      UInt64.toNat_sub_of_le _ 1 (UInt64.le_iff_toNat_le.mpr (by
        show 1 ≤ _
        omega))
    have hoff : (dev.divide shmVaddr).shmPhysmap + last -
        (dev.divide shmVaddr).shmPhysmap = last := by
      rw [UInt64.add_comm, UInt64.add_sub_cancel]
    have hin := hinside ((dev.divide shmVaddr).shmPhysmap + last)
      ((hne _).mpr (by
        rw [hoff, UInt64.lt_iff_toNat_lt]
        omega))
    have hsub := sub_shmPhysaddr dev shmVaddr
      ((dev.divide shmVaddr).shmPhysmap + last)
    rw [hoff] at hsub
    have hin : (dev.divide shmVaddr).shmPhysmap + last - dev.shmPhysaddr <
      dev.shmSize.toUInt64 := hin
    rw [hsub, UInt64.lt_iff_toNat_lt, UInt64.toNat_add, hdist, hshm,
      Nat.mod_eq_of_lt (by omega)] at hin
    omega
  · intro hle p hp
    have hin := UInt64.lt_iff_toNat_lt.mp ((hne p).mp hp)
    show p - dev.shmPhysaddr < dev.shmSize.toUInt64
    rw [sub_shmPhysaddr dev shmVaddr, UInt64.lt_iff_toNat_lt,
      UInt64.toNat_add, hdist, hshm, Nat.mod_eq_of_lt (by omega)]
    omega

/-- Where the rings and the buffers do not overlap there is space for the
rings. -/
theorem not_noRingSpace_of_apart (haccepted : dev.accepted = true)
    (hlow : shmVaddr.toNat + dev.shmSize.toNat ≤ 2 ^ 63)
    (hapart : (dev.divide shmVaddr).parts.Pairwise Span.Disjoint) :
    ¬ dev.NoRingSpace shmVaddr := by
  intro hnone
  have hle := (divide_vringBuf_le_iff haccepted hlow).mpr hnone
  have hdiv := divide_divided haccepted hlow
  have htx := divide_vringTx_ge haccepted hlow
  have hrx := hdiv.rx
  have hbuf := hdiv.buf
  have hringTx := ringBytes_pos dev.txNum
  have hringRx := ringBytes_pos dev.rxNum
  obtain ⟨-, hapart⟩ := List.pairwise_cons.mp hapart
  obtain ⟨hapartTx, -⟩ := List.pairwise_cons.mp hapart
  -- the rings begin at one address and neither is empty
  have hrings : (dev.divide shmVaddr).vringTx.toNat + ringBytes dev.txNum ≤
      (dev.divide shmVaddr).vringRx.toNat ∨
        (dev.divide shmVaddr).vringRx.toNat + ringBytes dev.rxNum ≤
          (dev.divide shmVaddr).vringTx.toNat :=
    hapartTx _ List.mem_cons_self
  omega

end Created

/-- **The I/O region gives access to the mapping alone exactly if there is
no space for the rings.** Where the parts do not overlap there is, and
then the pool is translated as it should be, but the region reaches
behind the mapping and so does what is translated back. -/
theorem window_ok_iff {host : HostCalls} {dev dev' : OpenampVirtioDevice}
    (hcreate : openampDevCreate host dev = some (0, dev'))
    (hlow : host.mmap.toNat + dev.shmSize.toNat ≤ 2 ^ 63)
    (hfits : dev'.Fits) :
    (dev'.WindowOk ↔ dev.NoRingSpace host.mmap) ∧
      (dev'.parts.Pairwise Span.Disjoint →
        dev'.PoolTranslated ∧ ¬ dev'.window.Within dev'.mapping ∧
          ¬ dev'.PhysInside) := by
  obtain ⟨haccepted, rfl⟩ := openampDevCreate_eq_zero hcreate
  have hiff := @divide_vringBuf_le_iff { dev with fd := host.openDev }
    host.mmap haccepted hlow
  have hmeasured := @divide_measured { dev with fd := host.openDev }
    host.mmap haccepted hlow ⟨hfits.within, hfits.pool⟩
  have hwithin := (window_within_iff hmeasured).trans hiff
  have hpool := poolTranslated_divide hmeasured
  have hinside := (physInside_iff hmeasured).trans hiff
  refine ⟨⟨fun h => hwithin.mp h.covered, fun h => ?_⟩, fun hapart => ?_⟩
  · exact ⟨hwithin.mpr h, hpool, hinside.mpr h⟩
  · have hspace := @not_noRingSpace_of_apart { dev with fd := host.openDev }
      host.mmap haccepted hlow hapart
    exact ⟨hpool, fun h => hspace (hwithin.mp h), fun h =>
      hspace (hinside.mp h)⟩

/-- The rings of the small device and its pool lie in the mapping. -/
theorem createdDev_fits : (createdDev 8 0x10000).Fits := by
  refine ⟨?_, by decide +kernel⟩
  show ∀ s ∈ [_, _, _, _], _
  simp only [List.mem_cons, List.not_mem_nil, or_false, forall_eq_or_imp,
    forall_eq]
  decide +kernel

theorem createdDev_apart :
    (createdDev 8 0x10000).parts.Pairwise Span.Disjoint := by
  show [_, _, _, _].Pairwise _
  simp only [List.pairwise_cons, List.mem_cons, List.not_mem_nil, or_false,
    forall_eq_or_imp, forall_eq, false_implies, implies_true,
    List.Pairwise.nil, and_true]
  decide +kernel

/-- The pool of the small device is translated as it should be, and its
region reaches behind the mapping. -/
theorem createdDev_window :
    openampDevCreate quietHost (smallDev 8 0x10000) =
        some (0, createdDev 8 0x10000) ∧
      (createdDev 8 0x10000).PoolTranslated ∧
      ¬ (createdDev 8 0x10000).window.Within
        (createdDev 8 0x10000).mapping ∧
      ¬ (createdDev 8 0x10000).PhysInside := by
  have hcreate : openampDevCreate quietHost (smallDev 8 0x10000) =
      some (0, createdDev 8 0x10000) := rfl
  exact ⟨hcreate, (window_ok_iff hcreate (by decide) createdDev_fits).2
    createdDev_apart⟩

/-- The first byte behind a memory of 64 KiB is translated to the first
address behind the mapping. -/
theorem window_behind_mapping :
    openampDevCreate quietHost (smallDev 8 0x10000) =
        some (0, createdDev 8 0x10000) ∧
      (createdDev 8 0x10000).Fits ∧
      (createdDev 8 0x10000).parts.Pairwise Span.Disjoint ∧
      metalIoPhysToVirt (createdDev 8 0x10000).ioRegion 0x70010000 =
        0x20000 ∧
      ¬ (createdDev 8 0x10000).WindowOk := by
  have hoffset : metalIoPhysToOffset (createdDev 8 0x10000).ioRegion
      0x70010000 = 0xFDBC := by
    refine (metalIoPhysToOffset_onePage DEFAULT_PAGE_SHIFT_ge _ _ _ _).trans ?_
    decide +kernel
  refine ⟨rfl, createdDev_fits, createdDev_apart, ?_, fun h => ?_⟩
  · rw [metalIoPhysToVirt, hoffset]
    decide +kernel
  · exact absurd h.covered (by decide +kernel)

end OpenAmp.Interface
