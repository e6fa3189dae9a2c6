import OpenAmp.Lib.Align
import OpenAmp.Metal.Paging

/-!
# Shared memory on Linux

`metal_shmem_try_map` of `libmetal/lib/system/linux/shmem.c` maps a file and
asks the kernel for the physical address of every page. A page without one
is entered in the table as `METAL_BAD_OFFSET`, and `metal_io_phys` adds the
place in the page to whatever the table has.
-/

namespace OpenAmp.Metal

open OpenAmp.Lib

/-- `errno` after a call that failed. -/
abbrev Errno := { e : Nat // 0 < e }

/-- `struct metal_page_size`, as `metal_add_page_size` enters it. -/
structure MetalPageSize where
  pageSize : UInt64
  pageShift : UInt64
  shift_lt : pageShift < 64
  size_eq : pageSize = 1 <<< pageShift

/-- What the calls of the system answer, and the fields of `_metal` that are
looked at. -/
structure ShmemEnv where
  pagemapFd : Int32
  /-- `_metal.page_shift`. -/
  pageShift : UInt64
  /-- What `pread` leaves in `entry`. -/
  pread : UInt64 → Except Errno UInt64
  /-- `metal_map` of so many bytes. -/
  metalMap : UInt64 → Except Errno UInt64
  /-- The new table with what its memory held, if there is one. -/
  mallocPhys : Option (UInt64 → UInt64)
  mallocIo : Bool

/-- `metal_virt2phys`: `-EINVAL`, the error of `pread`, `-ENOENT`, or the
address of the frame. -/
def metalVirt2phys (env : ShmemEnv) (addr : UInt64) : Except Int UInt64 :=
  if env.pagemapFd < 0 then .error (-22)
  else
    let offset := (addr >>> env.pageShift) * 8
    match env.pread offset with
    | .error errno => .error (-errno.val)
    | .ok entry =>
      -- present and not swapped
      if entry >>> 62 ≠ 2 then .error (-2)
      else .ok ((entry &&& ((1 : UInt64) <<< (54 : UInt64) - 1)) <<<
        env.pageShift)

/-- The loop of `metal_shmem_try_map` over the pages. -/
def fillPhys (env : ShmemEnv) (ps : MetalPageSize) (mem : UInt64) :
    Nat → (UInt64 → UInt64) → UInt64 → UInt64
  | 0, phys => phys
  | n + 1, phys =>
    let phys := fillPhys env ps mem n phys
    let page := UInt64.ofNat n
    match metalVirt2phys env (mem + page * ps.pageSize) with
    | .ok addr => Function.update phys page addr
    | .error error =>
      if error < 0 then Function.update phys page METAL_BAD_OFFSET else phys

/-- `metal_shmem_try_map`. -/
def metalShmemTryMap (env : ShmemEnv) (ps : MetalPageSize) (size : UInt64) :
    Except Int MetalIoRegion :=
  let size := alignUp size ps.pageSize
  let pages := size / ps.pageSize
  match env.metalMap size with
  | .error errno => .error (-errno.val)
  | .ok mem =>
    match env.mallocPhys with
    | none => .error (-12)
    | some phys =>
      if ¬ env.mallocIo then .error (-12)
      else if env.pagemapFd < 0 then
        .ok (metalIoInit mem (some (Function.update phys 0 0)) size 0xFFFFFFFF)
      else
        .ok (metalIoInit mem (some (fillPhys env ps mem pages.toNat phys)) size
          ps.pageShift)

/-! ## The table -/

section Table

variable {env : ShmemEnv} {ps : MetalPageSize} {mem addr size page : UInt64}
  {phys : UInt64 → UInt64} {error : Int}

theorem metalVirt2phys_error_neg (h : metalVirt2phys env addr = .error error) :
    error < 0 := by
  simp only [metalVirt2phys] at h
  split at h
  · cases h
    decide
  · split at h
    · next errno _ =>
      cases h
      have hpos := errno.2
      omega
    · split at h
      · cases h
        decide
      · cases h

/-- What the table has for a page. -/
def pageEntry (env : ShmemEnv) (ps : MetalPageSize) (mem page : UInt64) :
    UInt64 :=
  (metalVirt2phys env (mem + page * ps.pageSize)).toOption.getD METAL_BAD_OFFSET

theorem fillPhys_succ (n : Nat) :
    fillPhys env ps mem (n + 1) phys =
      Function.update (fillPhys env ps mem n phys) (UInt64.ofNat n)
        (pageEntry env ps mem (UInt64.ofNat n)) := by
  rw [fillPhys, pageEntry]
  cases h : metalVirt2phys env (mem + UInt64.ofNat n * ps.pageSize) with
  | ok addr => rfl
  | error error => exact if_pos (metalVirt2phys_error_neg h)

/-- After the loop the table has every page. -/
theorem fillPhys_of_lt {n : Nat} (hn : n ≤ 2 ^ 64) (hpage : page.toNat < n) :
    fillPhys env ps mem n phys page = pageEntry env ps mem page := by
  induction n with
  | zero => exact absurd hpage (Nat.not_lt_zero _)
  | succ n ih =>
    rw [fillPhys_succ]
    by_cases heq : page = UInt64.ofNat n
    · rw [heq, Function.update_self]
    · rw [Function.update_of_ne heq]
      refine ih (by omega) ?_
      have hne : page.toNat ≠ n := fun h => heq (by rw [← h, UInt64.ofNat_toNat])
      omega

end Table

/-! ## What the region tells -/

/-- The frame of a page of the region, if it has one. -/
def pageFrame (env : ShmemEnv) (ps : MetalPageSize) (io : MetalIoRegion)
    (page : UInt64) : Option UInt64 :=
  (metalVirt2phys env (io.virt + page * ps.pageSize)).toOption

/-- Unmapped pages are reported as such: an address without a frame is
`METAL_BAD_PHYS`, one with a frame lies in it, and a physical address that is
in no frame of the region has no offset. -/
structure PagesReported (env : ShmemEnv) (ps : MetalPageSize)
    (io : MetalIoRegion) : Prop where
  unmapped : ∀ offset, offset < io.size →
    pageFrame env ps io (offset / ps.pageSize) = none →
    metalIoPhys io offset = METAL_BAD_PHYS
  mapped : ∀ offset addr, offset < io.size →
    pageFrame env ps io (offset / ps.pageSize) = some addr →
    metalIoPhys io offset = addr + offset % ps.pageSize
  foreign : ∀ phys, phys ≠ METAL_BAD_PHYS →
    (∀ page addr, page < io.size / ps.pageSize →
      pageFrame env ps io page = some addr → ¬ phys - addr < ps.pageSize) →
    physToOffsetLoop io phys (2 ^ 64) (physToOffsetStart io phys) =
        some METAL_BAD_OFFSET ∧
      metalIoPhysToOffset io phys = METAL_BAD_OFFSET

section Region

variable {env : ShmemEnv} {ps : MetalPageSize} {io : MetalIoRegion}
  {size offset phys : UInt64}

theorem MetalPageSize.pageSize_toNat (ps : MetalPageSize) :
    ps.pageSize.toNat = pageBytes ps.pageShift := by
  rw [ps.size_eq, toNat_pageSize ps.shift_lt]

/-- A region that was mapped with the addresses of its pages: whole pages,
and a table of their frames. -/
structure MappedPages (env : ShmemEnv) (ps : MetalPageSize)
    (io : MetalIoRegion) : Prop where
  whole : io.size.toNat % pageBytes ps.pageShift = 0
  init : ∃ virt physmap size,
    io = metalIoInit virt (some physmap) size ps.pageShift ∧
    ∀ page, page < io.size / ps.pageSize →
      physmap page = (pageFrame env ps io page).getD METAL_BAD_OFFSET

theorem metalShmemTryMap_mapped (hfd : 0 ≤ env.pagemapFd)
    (h : metalShmemTryMap env ps size = .ok io) : MappedPages env ps io := by
  have hnot : ¬ env.pagemapFd < 0 := Int32.not_lt.mpr hfd
  unfold metalShmemTryMap at h
  cases hmap : env.metalMap (alignUp size ps.pageSize) with
  | error errno =>
    simp only [hmap] at h
    cases h
  | ok mem =>
    cases hphys : env.mallocPhys with
    | none =>
      simp only [hmap, hphys] at h
      cases h
    | some phys =>
      simp only [hmap, hphys, if_neg hnot] at h
      split at h
      · cases h
      · cases h
        refine ⟨alignUp_mod ps.pageSize_toNat size, _, _, _, rfl,
          fun page hpage => ?_⟩
        have hlt := (alignUp size ps.pageSize / ps.pageSize).toNat_lt
        exact fillPhys_of_lt (Nat.le_of_lt hlt) (UInt64.lt_iff_toNat_lt.mp hpage)

namespace MappedPages

theorem page_eq (offset : UInt64) :
    offset / ps.pageSize = offset >>> ps.pageShift := by
  apply UInt64.toNat_inj.mp
  rw [UInt64.toNat_div, ps.pageSize_toNat, toNat_page ps.shift_lt]

theorem place_toNat (offset : UInt64) :
    (offset % ps.pageSize).toNat = offset.toNat % pageBytes ps.pageShift := by
  rw [UInt64.toNat_mod, ps.pageSize_toNat]

/-- The page of an offset in the region is one of its pages. -/
theorem page_lt (h : MappedPages env ps io) (ho : offset < io.size) :
    offset / ps.pageSize < io.size / ps.pageSize := by
  have hwhole := h.whole
  have hpos := pageBytes_pos ps.pageShift
  have hlt := UInt64.lt_iff_toNat_lt.mp ho
  rw [UInt64.lt_iff_toNat_lt, UInt64.toNat_div, UInt64.toNat_div,
    ps.pageSize_toNat]
  exact Nat.div_lt_div_of_lt_of_dvd (Nat.dvd_of_mod_eq_zero hwhole) hlt

/-- The translation of an offset, whether its page has a frame or not. -/
theorem phys_eq (h : MappedPages env ps io) (ho : offset < io.size) :
    metalIoPhys io offset =
      (pageFrame env ps io (offset / ps.pageSize)).getD METAL_BAD_OFFSET +
        offset % ps.pageSize := by
  have hpage := h.page_lt ho
  obtain ⟨-, virt, physmap, size, rfl, htable⟩ := h
  have hin : offset < size := ho
  rw [← htable _ hpage, metalIoPhys_paged ps.shift_lt, if_pos hin, page_eq]
  congr 1
  apply UInt64.toNat_inj.mp
  rw [toNat_and_pageMask ps.shift_lt, place_toNat]

/-- A page of more than one byte has a second one. -/
theorem exists_second {page : UInt64} (hsize : ps.pageSize ≠ 1)
    (hpage : page < io.size / ps.pageSize) : ∃ offset, offset < io.size ∧
      offset / ps.pageSize = page ∧ offset % ps.pageSize = 1 := by
  have hpos := pageBytes_pos ps.pageShift
  have hbytes := ps.pageSize_toNat
  have hone : ps.pageSize.toNat ≠ 1 := fun h =>
    hsize (UInt64.toNat_inj.mp (h.trans UInt64.toNat_one.symm))
  have hlt := UInt64.lt_iff_toNat_lt.mp hpage
  rw [UInt64.toNat_div, hbytes] at hlt
  have hend : (page.toNat + 1) * pageBytes ps.pageShift ≤ io.size.toNat :=
    (Nat.le_div_iff_mul_le hpos).mp hlt
  rw [Nat.succ_mul] at hend
  have hsize := io.size.toNat_lt
  have hoffset : (page * ps.pageSize + 1).toNat =
      1 + page.toNat * pageBytes ps.pageShift := by
    rw [UInt64.toNat_add, UInt64.toNat_mul, hbytes, UInt64.toNat_one,
      Nat.mod_eq_of_lt (by omega : page.toNat * pageBytes ps.pageShift < 2 ^ 64),
      Nat.mod_eq_of_lt (by omega), Nat.add_comm]
  refine ⟨page * ps.pageSize + 1, ?_, ?_, ?_⟩
  · rw [UInt64.lt_iff_toNat_lt, hoffset]
    omega
  · apply UInt64.toNat_inj.mp
    rw [UInt64.toNat_div, hbytes, hoffset, Nat.add_mul_div_right _ _ hpos,
      Nat.div_eq_of_lt (by omega), Nat.zero_add]
  · apply UInt64.toNat_inj.mp
    rw [place_toNat, hoffset, Nat.add_mul_mod_self_right, UInt64.toNat_one]
    exact Nat.mod_eq_of_lt (by omega)

/-- There is room for one page more below the end of the address space. -/
theorem room (h : MappedPages env ps io) :
    io.size.toNat + pageBytes ps.pageShift ≤ 2 ^ 64 := by
  have hshift : ps.pageShift.toNat < 64 := UInt64.lt_iff_toNat_lt.mp ps.shift_lt
  obtain ⟨a, ha⟩ := Nat.dvd_of_mod_eq_zero h.whole
  have hb : 2 ^ 64 = pageBytes ps.pageShift * 2 ^ (64 - ps.pageShift.toNat) := by
    rw [pageBytes, ← Nat.pow_add, Nat.add_sub_cancel' (Nat.le_of_lt hshift)]
  have hlt := io.size.toNat_lt
  rw [ha, hb] at hlt
  rw [ha, hb, ← Nat.mul_succ]
  exact Nat.mul_le_mul_left _ (Nat.lt_of_mul_lt_mul_left hlt)

/-- In a page without a frame the address after the marker is one less than
the place in the page. -/
theorem bad_add_place {place : UInt64} (hne : METAL_BAD_OFFSET + place ≠
    METAL_BAD_PHYS) : (METAL_BAD_OFFSET + place).toNat + 1 = place.toNat := by
  have hbad : METAL_BAD_OFFSET.toNat = 2 ^ 64 - 1 := rfl
  have hlt := place.toNat_lt
  have hpos : place.toNat ≠ 0 := by
    intro hzero
    refine hne ?_
    rw [UInt64.toNat_inj.mp (hzero.trans UInt64.toNat_zero.symm),
      UInt64.add_zero]
    rfl
  rw [UInt64.toNat_add, hbad]
  omega

/-- Nothing is found of an address that is in no frame. -/
theorem foreign (h : MappedPages env ps io) (hne : phys ≠ METAL_BAD_PHYS)
    (hforeign : ∀ page addr, page < io.size / ps.pageSize →
      pageFrame env ps io page = some addr → ¬ phys - addr < ps.pageSize) :
    physToOffsetLoop io phys (2 ^ 64) (physToOffsetStart io phys) =
        some METAL_BAD_OFFSET ∧
      metalIoPhysToOffset io phys = METAL_BAD_OFFSET := by
  obtain ⟨virt, physmap, size, rfl, -⟩ := h.init
  obtain ⟨r, hloop, hr, hsearched⟩ :=
    metalIoPhysToOffset_paged ps.shift_lt h.room virt physmap phys
  rcases hsearched with ⟨⟨k, hk⟩, hphys⟩ | ⟨rfl, -⟩
  · exfalso
    have hin := lt_size_of_phys rfl hphys hne
    have heq := (h.phys_eq hin).symm.trans hphys
    have hplace : r.toNat % pageBytes ps.pageShift =
        phys.toNat % pageBytes ps.pageShift := by
      rw [hk, Nat.add_mul_mod_self_right, Nat.mod_mod]
    cases hframe : pageFrame env ps
        (metalIoInit virt (some physmap) size ps.pageShift)
        (r / ps.pageSize) with
    | some addr =>
      refine hforeign _ addr (h.page_lt hin) hframe ?_
      rw [hframe, Option.getD_some] at heq
      rw [← heq, UInt64.add_comm, UInt64.add_sub_cancel, UInt64.lt_iff_toNat_lt,
        place_toNat, ps.pageSize_toNat]
      exact Nat.mod_lt _ (pageBytes_pos _)
    | none =>
      -- the address would be one less than its own place in the page
      rw [hframe, Option.getD_none] at heq
      have hone := bad_add_place (heq ▸ hne)
      have hlt := Nat.mod_lt r.toNat (pageBytes_pos ps.pageShift)
      rw [heq, place_toNat] at hone
      rw [Nat.mod_eq_of_lt (by omega : phys.toNat < pageBytes ps.pageShift)]
        at hplace
      omega
  · exact ⟨hloop, hr⟩

end MappedPages

/-- **Unmapped pages are reported exactly** if there are none, or a page is
one byte. -/
theorem pages_reported_iff (hfd : 0 ≤ env.pagemapFd)
    (h : metalShmemTryMap env ps size = .ok io) :
    PagesReported env ps io ↔ ps.pageSize = 1 ∨
      ∀ page, page < io.size / ps.pageSize →
        ∃ addr, metalVirt2phys env (io.virt + page * ps.pageSize) = .ok addr := by
  have hm := metalShmemTryMap_mapped hfd h
  constructor
  · intro hrep
    by_contra hnot
    obtain ⟨hsize, hmiss⟩ := not_or.mp hnot
    refine hmiss fun page hpage => ?_
    obtain ⟨offset, ho, hpg, hplace⟩ := MappedPages.exists_second hsize hpage
    cases hframe : metalVirt2phys env (io.virt + page * ps.pageSize) with
    | ok addr => exact ⟨addr, rfl⟩
    | error error =>
      -- the second byte of the page gets address zero
      have hnone : pageFrame env ps io (offset / ps.pageSize) = none := by
        rw [hpg, pageFrame, hframe]
        rfl
      have hphys := hrep.unmapped offset ho hnone
      rw [hm.phys_eq ho, hnone, Option.getD_none, hplace] at hphys
      exact absurd hphys (by decide)
  · intro hall
    refine ⟨fun offset ho hframe => ?_, fun offset addr ho hframe => ?_,
      fun phys hne hforeign => hm.foreign hne hforeign⟩
    · rw [hm.phys_eq ho, hframe, Option.getD_none]
      rcases hall with hone | hall
      · have hplace : offset % ps.pageSize = 0 := by
          apply UInt64.toNat_inj.mp
          rw [UInt64.toNat_mod, hone, UInt64.toNat_one, Nat.mod_one,
            UInt64.toNat_zero]
        rw [hplace, UInt64.add_zero]
        rfl
      · obtain ⟨addr, haddr⟩ := hall _ (hm.page_lt ho)
        rw [pageFrame, haddr] at hframe
        cases hframe
    · rw [hm.phys_eq ho, hframe, Option.getD_some]

end Region

/-- One page of 4096 bytes in the frame at `0x5000`. -/
def presentPage : ShmemEnv where
  pagemapFd := 3
  pageShift := 12
  pread := fun _ => .ok 0x8000000000000005
  metalMap := fun _ => .ok 0x7000
  mallocPhys := some fun _ => 0
  mallocIo := true

def smallPage : MetalPageSize := ⟨4096, 12, by decide, by decide⟩

theorem presentPage_reported : ∃ io,
    metalShmemTryMap presentPage smallPage 4096 = .ok io ∧
      PagesReported presentPage smallPage io := by
  refine ⟨_, rfl, (@pages_reported_iff presentPage smallPage _ 4096 (by decide)
    rfl).mpr (.inr fun page hpage => ?_)⟩
  have hpage : page.toNat < 1 := UInt64.lt_iff_toNat_lt.mp hpage
  obtain rfl : page = 0 := UInt64.toNat_inj.mp (Nat.lt_one_iff.mp hpage)
  exact ⟨0x5000, rfl⟩

/-- One page of 4096 bytes that is not present. -/
def absentPage : ShmemEnv where
  pagemapFd := 3
  pageShift := 12
  pread := fun _ => .ok 0
  metalMap := fun _ => .ok 0x7000
  mallocPhys := some fun _ => 0
  mallocIo := true

/-- The second byte of the page has the physical address 0. -/
theorem absentPage_not_reported : ∃ io,
    metalShmemTryMap absentPage smallPage 4096 = .ok io ∧
      pageFrame absentPage smallPage io 0 = none ∧ metalIoPhys io 1 = 0 ∧
      ¬ PagesReported absentPage smallPage io := by
  refine ⟨_, rfl, rfl, by decide, fun h => ?_⟩
  exact absurd (h.unmapped 1 (by decide) rfl) (by decide)

end OpenAmp.Metal
