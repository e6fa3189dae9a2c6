import OpenAmp.Remoteproc.Segment

/-!
# Address translation

A memory of a remote processor has three names for each of its bytes: the
device address, the physical address and the virtual address. The list is
searched by a different one each time, first match first.

Where no two memories share an address of a kind, whatever the order of the
list, every search ends at the memory the byte is in, and the three
addresses are the same distance from the three beginnings of that memory.
-/

namespace OpenAmp.Remoteproc

open OpenAmp.Lib OpenAmp.Metal

/-! ## Memories that share no address -/

/-- A memory behind a region of one page that maps its physical range, with
all its ranges ending below the last address. -/
structure RemoteprocMem.OnePage (mem : RemoteprocMem) : Prop where
  region : ∃ virt physmap shift, 64 ≤ shift ∧ physmap 0 = mem.pa ∧
    mem.io = metalIoInit virt (some physmap) mem.size shift
  virt_ne : mem.io.virt ≠ 0
  virt_end : mem.io.virt.toNat + mem.size.toNat < 2 ^ 64
  pa_end : mem.pa.toNat + mem.size.toNat < 2 ^ 64
  da_end : mem.da.toNat + mem.size.toNat < 2 ^ 64

/-- The memory's device addresses. -/
def RemoteprocMem.daSpan (mem : RemoteprocMem) : Span :=
  ⟨mem.da.toNat, mem.size.toNat⟩

/-- The memory's physical addresses. -/
def RemoteprocMem.paSpan (mem : RemoteprocMem) : Span :=
  ⟨mem.pa.toNat, mem.size.toNat⟩

/-- The memory's virtual addresses. -/
def RemoteprocMem.vaSpan (mem : RemoteprocMem) : Span :=
  ⟨mem.io.virt.toNat, mem.size.toNat⟩

/-- No two of the memories share an address of any kind. -/
structure MemsApart (mems : List RemoteprocMem) : Prop where
  onePage : ∀ mem ∈ mems, mem.OnePage
  da : Apart (mems.map RemoteprocMem.daSpan)
  pa : Apart (mems.map RemoteprocMem.paSpan)
  va : Apart (mems.map RemoteprocMem.vaSpan)

theorem RemoteprocMem.OnePage.valid {mem : RemoteprocMem} (h : mem.OnePage) :
    mem.Valid := by
  obtain ⟨virt, physmap, shift, hshift, hpa, hio⟩ := h.region
  have hvirt : mem.io.virt = virt := by rw [hio]; rfl
  refine ⟨h.da_end, ?_⟩
  rw [hio, ← hpa]
  apply covers_onePage hshift
  · rw [← hvirt]
    exact UInt64.pos_iff_ne_zero.mpr h.virt_ne
  · rw [← hvirt]
    exact h.virt_end
  · rw [hpa]
    exact h.pa_end

variable {mems : List RemoteprocMem} {mem : RemoteprocMem} {o size : UInt64}

/-! ## The three names of a byte -/

/-- The byte `o` behind the beginning of the memory, by all its names. -/
def RemoteprocMem.at (mem : RemoteprocMem) (o : UInt64) : MmapResult :=
  ⟨mem.io.virt + o, mem.pa + o, mem.da + o, some mem.io⟩

theorem RemoteprocMem.at_da (mem : RemoteprocMem) (da : UInt64) :
    (mem.at (da - mem.da)).da = da := by
  show mem.da + (da - mem.da) = da
  rw [UInt64.add_comm, UInt64.sub_add_cancel]

/-- An address behind the beginning of a range, where the range does not
wrap. -/
theorem toNat_behind {start : UInt64}
    (hend : start.toNat + mem.size.toNat < 2 ^ 64) (ho : o < mem.size) :
    (start + o).toNat = start.toNat + o.toNat := by
  have ho' := UInt64.lt_iff_toNat_lt.mp ho
  rw [UInt64.toNat_add, Nat.mod_eq_of_lt (by omega)]

theorem RemoteprocMem.OnePage.physToVirt (h : mem.OnePage) (ho : o < mem.size) :
    metalIoPhysToVirt mem.io (mem.pa + o) = mem.io.virt + o := by
  have hcovers := h.valid.covers
  have ho' := UInt64.lt_iff_toNat_lt.mp ho
  have hend := h.virt_end
  have hne : mem.io.virt ≠ METAL_BAD_VA := by
    intro heq
    rw [heq, show METAL_BAD_VA.toNat = 2 ^ 64 - 1 from rfl] at hend
    omega
  rw [metalIoPhysToVirt, hcovers.back o ho, metalIoVirt, hcovers.size_eq,
    if_pos ⟨hne, ho⟩]

theorem RemoteprocMem.OnePage.virt_behind_ne (h : mem.OnePage)
    (ho : o < mem.size) : mem.io.virt + o ≠ 0 := by
  intro heq
  have hva := toNat_behind h.virt_end ho
  have hpos : 0 < mem.io.virt.toNat :=
    UInt64.lt_iff_toNat_lt.mp (UInt64.pos_iff_ne_zero.mpr h.virt_ne)
  rw [heq, UInt64.toNat_zero] at hva
  omega

/-- A virtual address has an offset in the region of a memory exactly if it
is one of its addresses. -/
theorem RemoteprocMem.OnePage.virtToOffset_iff (h : mem.OnePage) (va : UInt64) :
    metalIoVirtToOffset mem.io va ≠ METAL_BAD_OFFSET ↔
      mem.vaSpan.Holds va.toNat := by
  have hsize := h.valid.covers.size_eq
  have hend := h.virt_end
  have hlt := va.toNat_lt
  have hv := mem.io.virt.toNat_lt
  have hholds : va - mem.io.virt < mem.size ↔ mem.vaSpan.Holds va.toNat := by
    show _ ↔ mem.io.virt.toNat ≤ va.toNat ∧
      va.toNat < mem.io.virt.toNat + mem.size.toNat
    rw [UInt64.lt_iff_toNat_lt, UInt64.toNat_sub]
    omega
  rw [← hholds, metalIoVirtToOffset, hsize]
  constructor
  · intro hne
    by_contra hout
    exact hne (if_neg hout)
  · intro hin heq
    -- the last offset of all lies outside every region
    rw [if_pos hin] at heq
    rw [heq] at hin
    exact absurd hin (UInt64.not_lt.mpr (UInt64.le_iff_toNat_le.mpr
      (Nat.le_of_lt_succ mem.size.toNat_lt)))

/-! ## Searches -/

/-- A search by device or physical address. -/
theorem MemsApart.select (h : MemsApart mems) (hmem : mem ∈ mems)
    {key : MemKey} (hin : key.In mem) (hfit : key.Inside size mem) :
    key.select mems size = some mem := by
  have hvalid := fun m hm => (h.onePage m hm).valid
  rw [MemKey.select_eq (hin.ne_bad (hvalid mem hmem))]
  have hapart : Apart (mems.map fun m => ⟨(key.start m).toNat, m.size.toNat⟩) := by
    cases key with
    | pa addr => exact h.pa
    | da addr => exact h.da
  refine find?_of_apart (a := key.addr.toNat) hapart (fun m hm htest => ?_)
    hmem ?_
  · rw [inMemRange_iff _ _ ((hvalid m hm).start_nowrap key)] at htest
    exact ⟨htest.1, htest.2.1⟩
  · rw [inMemRange_iff _ _ ((hvalid mem hmem).start_nowrap key)]
    exact ⟨hin.1, hin.2, .inl hfit.2⟩

theorem RemoteprocMem.OnePage.key_inside (h : mem.OnePage) {key : MemKey}
    (hkey : key.addr = key.start mem + o) (hsize : 0 < size)
    (hfit : o.toNat + size.toNat ≤ mem.size.toNat) :
    o < mem.size ∧ key.In mem ∧ key.Inside size mem := by
  have hpos : 0 < size.toNat := UInt64.lt_iff_toNat_lt.mp hsize
  have ho : o < mem.size := UInt64.lt_iff_toNat_lt.mpr (by omega)
  have haddr : key.addr.toNat = (key.start mem).toNat + o.toNat := by
    rw [hkey, toNat_behind (h.valid.start_nowrap key) ho]
  refine ⟨ho, ⟨?_, ?_⟩, ?_, ?_⟩ <;> omega

/-- A mapping by the device address of a byte. -/
theorem MemsApart.mmap_da (h : MemsApart mems) (hmem : mem ∈ mems)
    (ops : MemOps) (hsize : 0 < size)
    (hfit : o.toNat + size.toNat ≤ mem.size.toNat) {pa : Option UInt64}
    (hpa : pa = none ∨ pa = some METAL_BAD_PHYS) (io : Option MetalIoRegion) :
    remoteprocMmap mems ops pa (some (mem.da + o)) size io = mem.at o := by
  have hpage := h.onePage mem hmem
  obtain ⟨ho, hin, hinside⟩ :=
    @RemoteprocMem.OnePage.key_inside mem o size hpage
      (.da (mem.da + o)) rfl hsize hfit
  have hbad : mem.da + o ≠ METAL_BAD_PHYS := hin.ne_bad hpage.valid
  have hdatopa : remoteprocDatopa mem (mem.da + o) = mem.pa + o := by
    rw [remoteprocDatopa]
    grind
  rw [remoteprocMmap_da ops hbad (UInt64.pos_iff_ne_zero.mp hsize)
    (h.select hmem hin hinside) pa hpa io, hdatopa, hpage.physToVirt ho]
  rfl

/-- A mapping by the physical address of a byte: what stands behind the
other pointer does not matter. -/
theorem MemsApart.mmap_pa (h : MemsApart mems) (hmem : mem ∈ mems)
    (ops : MemOps) (hsize : 0 < size)
    (hfit : o.toNat + size.toNat ≤ mem.size.toNat) (da : Option UInt64)
    (io : Option MetalIoRegion) :
    remoteprocMmap mems ops (some (mem.pa + o)) da size io = mem.at o := by
  have hpage := h.onePage mem hmem
  obtain ⟨ho, hin, hinside⟩ :=
    @RemoteprocMem.OnePage.key_inside mem o size hpage
      (.pa (mem.pa + o)) rfl hsize hfit
  have hbad : mem.pa + o ≠ METAL_BAD_PHYS := hin.ne_bad hpage.valid
  have hpatoda : remoteprocPatoda mem (mem.pa + o) = mem.da + o := by
    rw [remoteprocPatoda]
    grind
  have hfound := h.select hmem hin hinside
  rw [@MemKey.select_eq mems (.pa (mem.pa + o)) size hbad] at hfound
  have hloop : memLoop none (mem.pa + o) (da.getD METAL_BAD_PHYS) 0 size mems =
      some (some mem) := by
    rw [memLoop_eq_find? (memTest_pa hbad _ 0)]
    exact congrArg (Option.map some) hfound
  simp only [remoteprocMmap, Option.getD_some, remoteprocGetMem,
    Option.any_none, Bool.false_eq_true, if_false, hloop, if_pos hbad,
    UInt64.pos_iff_ne_zero.mp hsize, reduceCtorEq, false_and, or_self, hpatoda,
    hpage.physToVirt ho]
  rfl

/-- The search by the virtual address of a byte. -/
theorem MemsApart.getIoWithVa (h : MemsApart mems) (hmem : mem ∈ mems)
    (ops : MemOps) (ho : o < mem.size) :
    remoteprocGetIoWithVa mems ops (mem.io.virt + o) = some mem.io := by
  have hpage := h.onePage mem hmem
  have ho' := UInt64.lt_iff_toNat_lt.mp ho
  have hva := toNat_behind hpage.virt_end ho
  have hne := hpage.virt_behind_ne ho
  have hholds : mem.vaSpan.Holds (mem.io.virt + o).toNat := by
    rw [hva]
    exact ⟨Nat.le_add_right _ _, Nat.add_lt_add_left ho' _⟩
  generalize mem.io.virt + o = va at hne hholds ⊢
  have hfind : mems.find? (fun m =>
      decide (metalIoVirtToOffset m.io va ≠ METAL_BAD_OFFSET)) = some mem := by
    refine find?_of_apart (a := va.toNat) h.va (fun m hm htest => ?_) hmem ?_
    · exact ((h.onePage m hm).virtToOffset_iff va).mp (of_decide_eq_true htest)
    · exact decide_eq_true ((hpage.virtToOffset_iff va).mpr hholds)
  have hloop : memLoop none METAL_BAD_PHYS METAL_BAD_PHYS va 0 mems =
      some (some mem) := by
    rw [memLoop_eq_find? (memTest_va hne)]
    exact congrArg (Option.map some) hfind
  simp only [remoteprocGetIoWithVa, remoteprocGetMem, Option.any_none,
    Bool.false_eq_true, if_false, hloop, Option.map_some]

/-! ## Round trips -/

/-- Whatever the order of the list and whatever the hooks answer, a mapping
by device address and a mapping by the physical address it delivers say the
same, the three addresses are equally far behind the three beginnings of the
memory, and the virtual address leads back to its region. -/
theorem remoteproc_addresses_roundTrip (h : MemsApart mems)
    (hmem : mem ∈ mems) (ops : MemOps) {da : UInt64} (hsize : 0 < size)
    (hin : (MemKey.da da).Inside size mem) {pa : Option UInt64}
    (hpa : pa = none ∨ pa = some METAL_BAD_PHYS) (io : Option MetalIoRegion) :
    let r := remoteprocMmap mems ops pa (some da) size io
    r.va ≠ 0 ∧ r.io = some mem.io ∧
    (∀ da' io', let r' := remoteprocMmap mems ops (some r.pa) da' size io'
      r'.da = da ∧ r'.va = r.va) ∧
    r.va - mem.io.virt = da - mem.da ∧ da - mem.da = r.pa - mem.pa ∧
    remoteprocGetIoWithVa mems ops r.va = some mem.io := by
  have hback : mem.da + (da - mem.da) = da := mem.at_da da
  have hstart : mem.da.toNat ≤ da.toNat := hin.1
  have hend : da.toNat + size.toNat ≤ mem.da.toNat + mem.size.toNat := hin.2
  have hfit : (da - mem.da).toNat + size.toNat ≤ mem.size.toNat := by
    rw [UInt64.toNat_sub_of_le _ _ (UInt64.le_iff_toNat_le.mpr hstart)]
    omega
  generalize da - mem.da = o at hback hfit
  subst hback
  have hpage := h.onePage mem hmem
  obtain ⟨ho, -⟩ := @RemoteprocMem.OnePage.key_inside mem o size hpage
    (.da (mem.da + o)) rfl hsize hfit
  simp only [h.mmap_da hmem ops hsize hfit hpa io]
  have hne : mem.io.virt + o ≠ 0 := hpage.virt_behind_ne ho
  refine ⟨hne, rfl, fun da' io' => ?_, ?_, ?_, h.getIoWithVa hmem ops ho⟩
  · show (remoteprocMmap mems ops (some (mem.pa + o)) da' size io').da = _ ∧
      (remoteprocMmap mems ops (some (mem.pa + o)) da' size io').va = _
    rw [h.mmap_pa hmem ops hsize hfit da' io']
    exact ⟨rfl, rfl⟩
  · show mem.io.virt + o - mem.io.virt = o
    rw [UInt64.add_comm, UInt64.add_sub_cancel]
  · show o = mem.pa + o - mem.pa
    rw [UInt64.add_comm, UInt64.add_sub_cancel]

/-- A memory behind a flat region. -/
def flatMem (da pa size virt : UInt64) : RemoteprocMem :=
  ⟨da, pa, size, [], flatRegion virt pa size⟩

/-- The device addresses of one memory are physical addresses of the other. -/
def crossedMems : List RemoteprocMem :=
  [flatMem 0x2000 0x9000 0x1000 0x70000, flatMem 0x9000 0x2000 0x800 0x71000]

theorem crossedMems_apart : MemsApart crossedMems where
  onePage := by
    intro mem hmem
    simp only [crossedMems, List.mem_cons, List.not_mem_nil, or_false] at hmem
    rcases hmem with rfl | rfl
    · exact ⟨⟨0x70000, fun _ => 0x9000, 0xFFFFFFFFFFFFFFFF, by decide, rfl, rfl⟩,
        by decide, by decide, by decide, by decide⟩
    · exact ⟨⟨0x71000, fun _ => 0x2000, 0xFFFFFFFFFFFFFFFF, by decide, rfl, rfl⟩,
        by decide, by decide, by decide, by decide⟩
  da := by
    refine List.pairwise_pair.mpr fun a h h' => ?_
    have h1 : a < 0x2000 + 0x1000 := h.2
    have h2 : 0x9000 ≤ a := h'.1
    omega
  pa := by
    refine List.pairwise_pair.mpr fun a h h' => ?_
    have h1 : 0x9000 ≤ a := h.1
    have h2 : a < 0x2000 + 0x800 := h'.2
    omega
  va := by
    refine List.pairwise_pair.mpr fun a h h' => ?_
    have h1 : a < 0x70000 + 0x1000 := h.2
    have h2 : 0x71000 ≤ a := h'.1
    omega

theorem remoteproc_addresses_roundTrip_crossed :
    let ops : MemOps := ⟨none, none⟩
    let r := remoteprocMmap crossedMems ops none (some 0x9010) 0x20 none
    r.va ≠ 0 ∧ r.io = some (flatRegion 0x71000 0x2000 0x800) ∧
    (∀ da' io', let r' := remoteprocMmap crossedMems ops (some r.pa) da' 0x20 io'
      r'.da = 0x9010 ∧ r'.va = r.va) ∧
    r.va - 0x71000 = 0x10 ∧ (0x10 : UInt64) = r.pa - 0x2000 ∧
    remoteprocGetIoWithVa crossedMems ops r.va =
      some (flatRegion 0x71000 0x2000 0x800) :=
  @remoteproc_addresses_roundTrip crossedMems
    (flatMem 0x9000 0x2000 0x800 0x71000) 0x20 crossedMems_apart
    (List.mem_cons_of_mem _ List.mem_cons_self) ⟨none, none⟩ 0x9010 (by decide)
    ⟨by decide, by decide⟩ none (.inl rfl) none

end OpenAmp.Remoteproc
