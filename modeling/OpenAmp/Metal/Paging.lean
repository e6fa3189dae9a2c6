import OpenAmp.Metal.Io

/-!
# Regions of pages

The translations of `libmetal/lib/io.h` in a region that `metal_io_init`
sets up with a table of pages: the search of `metal_io_phys_to_offset` goes
from page to page with the place in the page fixed, and it comes to an end
since the step is not zero.
-/

namespace OpenAmp.Metal

variable {virt size shift : UInt64} {physmap : UInt64 → UInt64}

/-- The bytes of a page. -/
def pageBytes (shift : UInt64) : Nat := 2 ^ shift.toNat

theorem pageBytes_pos (shift : UInt64) : 0 < pageBytes shift :=
  Nat.two_pow_pos shift.toNat

/-! ## Pages and places in them -/

section Pages

variable (hshift : shift < 64)
include hshift

theorem pageBytes_le : pageBytes shift ≤ 2 ^ 63 := by
  have hlt := UInt64.lt_iff_toNat_lt.mp hshift
  exact Nat.pow_le_pow_right (by decide) (Nat.le_of_lt_succ hlt)

theorem toNat_pageSize : (1 <<< shift : UInt64).toNat = pageBytes shift := by
  have hlt : shift.toNat < 64 := UInt64.lt_iff_toNat_lt.mp hshift
  have hle := pageBytes_le hshift
  rw [UInt64.toNat_shiftLeft, Nat.mod_eq_of_lt hlt, UInt64.toNat_one,
    Nat.one_shiftLeft]
  exact Nat.mod_eq_of_lt (Nat.lt_of_le_of_lt hle (by decide))

theorem toNat_pageMask (virt : UInt64) (physmap : Option (UInt64 → UInt64))
    (size : UInt64) :
    (metalIoInit virt physmap size shift).pageMask.toNat =
      pageBytes shift - 1 := by
  have hnot : ¬ 64 ≤ shift := UInt64.not_le.mpr hshift
  have hpos := pageBytes_pos shift
  have hle := pageBytes_le hshift
  simp only [metalIoInit, if_neg hnot]
  rw [UInt64.toNat_sub_of_le, toNat_pageSize hshift, UInt64.toNat_one]
  rw [UInt64.le_iff_toNat_le, toNat_pageSize hshift, UInt64.toNat_one]
  exact hpos

/-- The place in a page, -/
theorem toNat_and_pageMask (virt : UInt64)
    (physmap : Option (UInt64 → UInt64)) (size x : UInt64) :
    (x &&& (metalIoInit virt physmap size shift).pageMask).toNat =
      x.toNat % pageBytes shift := by
  rw [UInt64.toNat_and, toNat_pageMask hshift, pageBytes,
    Nat.and_two_pow_sub_one_eq_mod]

/-- and the page. -/
theorem toNat_page (x : UInt64) :
    (x >>> shift).toNat = x.toNat / pageBytes shift := by
  have hlt : shift.toNat < 64 := UInt64.lt_iff_toNat_lt.mp hshift
  rw [UInt64.toNat_shiftRight, Nat.mod_eq_of_lt hlt,
    Nat.shiftRight_eq_div_pow, pageBytes]

theorem metalIoPhys_paged (virt : UInt64) (physmap : UInt64 → UInt64)
    (size o : UInt64) :
    metalIoPhys (metalIoInit virt (some physmap) size shift) o =
      if o < size then physmap (o >>> shift) + (o &&&
        (metalIoInit virt (some physmap) size shift).pageMask)
      else METAL_BAD_PHYS := by
  have hnot : ¬ 64 ≤ shift := UInt64.not_le.mpr hshift
  simp only [metalIoPhys, metalIoInit, if_neg hnot]

end Pages

/-! ## The search -/

/-- What a search says that began at the place `start`: an offset on its way
that is translated to `phys`, or that there is none. -/
def Searched (io : MetalIoRegion) (stride : Nat) (phys : UInt64) (start : Nat)
    (r : UInt64) : Prop :=
  (∃ k, r.toNat = start + k * stride) ∧ metalIoPhys io r = phys ∨
    r = METAL_BAD_OFFSET ∧ ∀ x k, x < io.size →
      x.toNat = start + k * stride → metalIoPhys io x ≠ phys

theorem Searched.last {io : MetalIoRegion} {stride : Nat} {phys o : UInt64}
    (hne : metalIoPhys io o ≠ phys)
    (hlast : io.size.toNat ≤ o.toNat + stride) :
    Searched io stride phys o.toNat METAL_BAD_OFFSET := by
  refine .inr ⟨rfl, fun x k hx hk => ?_⟩
  cases k with
  | zero =>
    have heq : x = o := UInt64.toNat_inj.mp (by omega)
    rwa [heq]
  | succ k =>
    have hlt := UInt64.lt_iff_toNat_lt.mp hx
    rw [Nat.succ_mul] at hk
    omega

theorem Searched.next {io : MetalIoRegion} {stride : Nat} {phys o r : UInt64}
    (hne : metalIoPhys io o ≠ phys)
    (h : Searched io stride phys (o.toNat + stride) r) :
    Searched io stride phys o.toNat r := by
  rcases h with ⟨⟨k, hk⟩, hphys⟩ | ⟨hr, hnone⟩
  · refine .inl ⟨⟨k + 1, ?_⟩, hphys⟩
    rw [hk, Nat.succ_mul]
    omega
  · refine .inr ⟨hr, fun x k hx hk => ?_⟩
    cases k with
    | zero =>
      have heq : x = o := UInt64.toNat_inj.mp (by omega)
      rwa [heq]
    | succ k =>
      refine hnone x k hx ?_
      rw [hk, Nat.succ_mul]
      omega

/-- One round of the search, and what comes behind it. -/
theorem physToOffsetLoop_round {io : MetalIoRegion} {stride n : Nat}
    {phys o : UInt64}
    (hnext : (o + (io.pageMask + 1)).toNat = o.toNat + stride)
    (hrest : o.toNat + stride < io.size.toNat →
      ∃ r, physToOffsetLoop io phys n (o + (io.pageMask + 1)) = some r ∧
        Searched io stride phys (o.toNat + stride) r) :
    ∃ r, physToOffsetLoop io phys (n + 1) o = some r ∧
      Searched io stride phys o.toNat r := by
  rw [physToOffsetLoop]
  by_cases hphys : metalIoPhys io o = phys
  · exact ⟨o, if_pos hphys, .inl ⟨⟨0, by omega⟩, hphys⟩⟩
  · rw [if_neg hphys]
    by_cases hin : o + (io.pageMask + 1) < io.size
    · have hlt := UInt64.lt_iff_toNat_lt.mp hin
      rw [hnext] at hlt
      obtain ⟨r, hr, hsearched⟩ := hrest hlt
      exact ⟨r, by rw [if_pos hin, hr], hsearched.next hphys⟩
    · have hge := UInt64.lt_iff_toNat_lt.not.mp hin
      rw [hnext] at hge
      exact ⟨_, if_neg hin, .last hphys (Nat.le_of_not_lt hge)⟩

/-- **The search ends**, from any place it may begin at. -/
theorem physToOffsetLoop_searched {io : MetalIoRegion} {stride : Nat}
    (hstride : (io.pageMask + 1).toNat = stride)
    (hsize : io.size.toNat + stride ≤ 2 ^ 64) (phys : UInt64) (n : Nat) :
    ∀ o : UInt64, o.toNat + stride < 2 ^ 64 →
      io.size.toNat ≤ o.toNat + (n + 1) * stride →
      ∃ r, physToOffsetLoop io phys (n + 1) o = some r ∧
        Searched io stride phys o.toNat r := by
  have hnext : ∀ o : UInt64, o.toNat + stride < 2 ^ 64 →
      (o + (io.pageMask + 1)).toNat = o.toNat + stride := by
    intro o ho
    rw [UInt64.toNat_add, hstride, Nat.mod_eq_of_lt ho]
  induction n with
  | zero =>
    intro o ho hend
    refine physToOffsetLoop_round (hnext o ho) fun hin => ?_
    omega
  | succ n ih =>
    intro o ho hend
    refine physToOffsetLoop_round (hnext o ho) fun hin => ?_
    rw [Nat.succ_mul] at hend
    rw [← hnext o ho] at hin ⊢
    exact ih (o + (io.pageMask + 1)) (by omega) (by rw [hnext o ho]; omega)

/-- `metal_io_phys_to_offset` in a region of pages: it begins at the place in
the page and looks at that place in every page. -/
theorem metalIoPhysToOffset_paged (hshift : shift < 64)
    (hsize : size.toNat + pageBytes shift ≤ 2 ^ 64) (virt : UInt64)
    (physmap : UInt64 → UInt64) (phys : UInt64) :
    let io := metalIoInit virt (some physmap) size shift
    ∃ r, physToOffsetLoop io phys (2 ^ 64) (physToOffsetStart io phys) =
        some r ∧
      metalIoPhysToOffset io phys = r ∧
      Searched io (pageBytes shift) phys (phys.toNat % pageBytes shift) r := by
  intro io
  have hpos := pageBytes_pos shift
  have hle := pageBytes_le hshift
  have hmask : io.pageMask.toNat = pageBytes shift - 1 :=
    toNat_pageMask hshift virt _ size
  have hstride : (io.pageMask + 1).toNat = pageBytes shift := by
    rw [UInt64.toNat_add, hmask, UInt64.toNat_one]
    omega
  have hstart : physToOffsetStart io phys = phys &&& io.pageMask := by
    refine if_neg fun hall => ?_
    have hones := congrArg UInt64.toNat hall
    rw [hmask, show (0xFFFFFFFFFFFFFFFF : UInt64).toNat = 2 ^ 64 - 1 from rfl]
      at hones
    omega
  have hplace : (physToOffsetStart io phys).toNat =
      phys.toNat % pageBytes shift := by
    rw [hstart]
    exact toNat_and_pageMask hshift virt _ size phys
  have hlt := Nat.mod_lt phys.toNat hpos
  have hio : io.size.toNat = size.toNat := rfl
  have hfuel : (2 : Nat) ^ 64 = 2 ^ 64 - 1 + 1 := by omega
  obtain ⟨r, hr, hsearched⟩ := physToOffsetLoop_searched hstride hsize phys
    (2 ^ 64 - 1) (physToOffsetStart io phys) (by omega) (by omega)
  rw [← hfuel] at hr
  rw [hplace] at hsearched
  refine ⟨r, hr, ?_, hsearched⟩
  show (physToOffsetLoop io phys (2 ^ 64) (physToOffsetStart io phys)).getD
    METAL_BAD_OFFSET = r
  rw [hr, Option.getD_some]

/-! ## Round trips -/

/-- A table of pages, each at its own place in physical memory, on page
boundaries and before the last page, which `METAL_BAD_PHYS` is in. -/
structure PageTable (physmap : UInt64 → UInt64) (size shift : UInt64) :
    Prop where
  shift_lt : shift < 64
  aligned : ∀ page, page.toNat * pageBytes shift < size.toNat →
    (physmap page).toNat % pageBytes shift = 0
  below : ∀ page, page.toNat * pageBytes shift < size.toNat →
    (physmap page).toNat < 2 ^ 64 - pageBytes shift
  distinct : ∀ page page', page.toNat * pageBytes shift < size.toNat →
    page'.toNat * pageBytes shift < size.toNat →
    physmap page = physmap page' → page = page'

namespace PageTable

variable {o o' : UInt64}

theorem page_lt (h : PageTable physmap size shift) (ho : o < size) :
    (o >>> shift).toNat * pageBytes shift < size.toNat := by
  rw [toNat_page h.shift_lt]
  exact Nat.lt_of_le_of_lt (Nat.div_mul_le_self _ _)
    (UInt64.lt_iff_toNat_lt.mp ho)

/-- The last page is not touched. -/
theorem phys_lt (h : PageTable physmap size shift) (ho : o < size) :
    (physmap (o >>> shift)).toNat + o.toNat % pageBytes shift < 2 ^ 64 - 1 := by
  have hbelow := h.below _ (h.page_lt ho)
  have hlt := Nat.mod_lt o.toNat (pageBytes_pos shift)
  omega

theorem phys_toNat (h : PageTable physmap size shift) (virt : UInt64)
    (ho : o < size) :
    (metalIoPhys (metalIoInit virt (some physmap) size shift) o).toNat =
      (physmap (o >>> shift)).toNat + o.toNat % pageBytes shift := by
  have hlt := h.phys_lt ho
  rw [metalIoPhys_paged h.shift_lt, if_pos ho, UInt64.toNat_add,
    toNat_and_pageMask h.shift_lt]
  exact Nat.mod_eq_of_lt (by omega)

theorem phys_ne_bad (h : PageTable physmap size shift) (virt : UInt64)
    (ho : o < size) :
    metalIoPhys (metalIoInit virt (some physmap) size shift) o ≠
      METAL_BAD_PHYS := by
  intro hbad
  have hlt := h.phys_lt ho
  have hsum := h.phys_toNat virt ho
  rw [hbad, show METAL_BAD_PHYS.toNat = 2 ^ 64 - 1 from rfl] at hsum
  omega

/-- The place in the page is that of the physical address. -/
theorem phys_mod (h : PageTable physmap size shift) (virt : UInt64)
    (ho : o < size) :
    (metalIoPhys (metalIoInit virt (some physmap) size shift) o).toNat %
      pageBytes shift = o.toNat % pageBytes shift := by
  rw [h.phys_toNat virt ho, Nat.add_mod, h.aligned _ (h.page_lt ho),
    Nat.zero_add, Nat.mod_mod, Nat.mod_mod]

/-- No two offsets have one physical address. -/
theorem phys_inj (h : PageTable physmap size shift) (virt : UInt64)
    (ho : o < size) (ho' : o' < size)
    (heq : metalIoPhys (metalIoInit virt (some physmap) size shift) o =
      metalIoPhys (metalIoInit virt (some physmap) size shift) o') : o = o' := by
  have hplace : o.toNat % pageBytes shift = o'.toNat % pageBytes shift := by
    rw [← h.phys_mod virt ho, heq, h.phys_mod virt ho']
  have hsum := congrArg UInt64.toNat heq
  rw [h.phys_toNat virt ho, h.phys_toNat virt ho', hplace] at hsum
  have hpage := congrArg UInt64.toNat (h.distinct _ _ (h.page_lt ho)
    (h.page_lt ho') (UInt64.toNat_inj.mp (Nat.add_right_cancel hsum)))
  rw [toNat_page h.shift_lt, toNat_page h.shift_lt] at hpage
  apply UInt64.toNat_inj.mp
  rw [← Nat.div_add_mod o.toNat (pageBytes shift), hpage, hplace,
    Nat.div_add_mod]

end PageTable

/-- What the translations of a region owe to each other. -/
structure RoundTrips (io : MetalIoRegion) : Prop where
  phys : ∀ offset, offset < io.size →
    metalIoPhysToOffset io (metalIoPhys io offset) = offset
  virt : ∀ offset, offset < io.size →
    metalIoVirtToOffset io (metalIoVirt io offset) = offset
  back : ∀ phys, phys ≠ METAL_BAD_PHYS → ∃ r,
    physToOffsetLoop io phys (2 ^ 64) (physToOffsetStart io phys) = some r ∧
      metalIoPhysToOffset io phys = r ∧
      (r = METAL_BAD_OFFSET ∨ r < io.size ∧ metalIoPhys io r = phys)

theorem metalIoVirtToOffset_virt {io : MetalIoRegion}
    (hvirt : io.virt ≠ METAL_BAD_VA) {o : UInt64} (ho : o < io.size) :
    metalIoVirtToOffset io (metalIoVirt io o) = o := by
  have hsub : io.virt + o - io.virt = o := by
    rw [UInt64.add_comm, UInt64.add_sub_cancel]
  rw [metalIoVirt, if_pos ⟨hvirt, ho⟩, metalIoVirtToOffset, hsub]
  exact if_pos ho

/-- An address that is none to the search is in the region where it is
found. -/
theorem lt_size_of_phys {io : MetalIoRegion} (hhook : io.offsetToPhys = none)
    {r phys : UInt64} (hphys : metalIoPhys io r = phys)
    (hne : phys ≠ METAL_BAD_PHYS) : r < io.size := by
  by_contra hr
  refine hne (hphys.symm.trans ?_)
  rw [metalIoPhys, hhook]
  cases io.physmap with
  | none => rfl
  | some physmap => exact if_neg hr

theorem roundTrips_paged (hvirt : virt ≠ METAL_BAD_VA)
    (h : PageTable physmap size shift) (hsize : size.toNat ≤ 2 ^ 63) :
    RoundTrips (metalIoInit virt (some physmap) size shift) where
  phys := by
    intro o ho
    have hle := pageBytes_le h.shift_lt
    have hfit : size.toNat + pageBytes shift ≤ 2 ^ 64 := by omega
    obtain ⟨r, -, hr, hfound | ⟨-, hnone⟩⟩ := metalIoPhysToOffset_paged
      h.shift_lt hfit virt physmap
      (metalIoPhys (metalIoInit virt (some physmap) size shift) o)
    · have hin := lt_size_of_phys rfl hfound.2 (h.phys_ne_bad virt ho)
      rw [hr]
      exact h.phys_inj virt hin ho hfound.2
    · refine absurd rfl (hnone o (o.toNat / pageBytes shift) ho ?_)
      rw [h.phys_mod virt ho, Nat.mul_comm, Nat.mod_add_div]
  virt := fun o ho => metalIoVirtToOffset_virt hvirt ho
  back := by
    intro phys hphys
    have hle := pageBytes_le h.shift_lt
    have hfit : size.toNat + pageBytes shift ≤ 2 ^ 64 := by omega
    obtain ⟨r, hloop, hr, hsearched⟩ :=
      metalIoPhysToOffset_paged h.shift_lt hfit virt physmap phys
    refine ⟨r, hloop, hr, ?_⟩
    rcases hsearched with ⟨-, hfound⟩ | ⟨hbad, -⟩
    · exact .inr ⟨lt_size_of_phys rfl hfound hphys, hfound⟩
    · exact .inl hbad

theorem roundTrips_onePage (hvirt : virt ≠ METAL_BAD_VA)
    (hshift : 64 ≤ shift) :
    RoundTrips (metalIoInit virt (some physmap) size shift) where
  phys := by
    intro o ho
    have hin : o < size := ho
    have hsub : physmap 0 + o - physmap 0 = o := by
      rw [UInt64.add_comm, UInt64.add_sub_cancel]
    rw [metalIoPhys_onePage hshift, if_pos hin,
      metalIoPhysToOffset_onePage hshift, hsub, if_pos (.inl hin)]
  virt := fun o ho => metalIoVirtToOffset_virt hvirt ho
  back := by
    intro phys hphys
    have hback : physmap 0 + (phys - physmap 0) = phys := by
      rw [UInt64.add_comm, UInt64.sub_add_cancel]
    refine ⟨_, physToOffsetLoop_onePage hshift virt physmap size phys,
      metalIoPhysToOffset_onePage hshift virt physmap size phys, ?_⟩
    by_cases hin : phys - physmap 0 < size
    · rw [if_pos (.inl hin), metalIoPhys_onePage hshift, if_pos hin]
      exact .inr ⟨hin, hback⟩
    · rw [if_neg (not_or.mpr ⟨hin, hphys⟩)]
      exact .inl rfl

/-- **Addresses come back** from every translation of a region that
`metal_io_init` sets up, as one page or with a table of pages. -/
theorem translation_roundTrips (hvirt : virt ≠ METAL_BAD_VA)
    (hsize : size.toNat ≤ 2 ^ 63)
    (h : 64 ≤ shift ∨ PageTable physmap size shift) :
    RoundTrips (metalIoInit virt (some physmap) size shift) := by
  rcases h with hshift | htable
  · exact roundTrips_onePage hvirt hshift
  · exact roundTrips_paged hvirt htable hsize

/-- Two pages out of order, the last one only half in the region. -/
def twoPages (page : UInt64) : UInt64 := if page = 0 then 0x9000 else 0x5000

theorem translation_roundTrips_twoPages :
    RoundTrips (metalIoInit 0x7000 (some twoPages) 0x1800 12) := by
  have hpage : ∀ page : UInt64,
      page.toNat * pageBytes 12 < (0x1800 : UInt64).toNat →
      page = 0 ∨ page = 1 := by
    intro page hlt
    have hlt : page.toNat * 4096 < 6144 := hlt
    have hcases : page.toNat = 0 ∨ page.toNat = 1 := by omega
    exact hcases.imp UInt64.toNat_inj.mp UInt64.toNat_inj.mp
  refine translation_roundTrips (by decide) (by decide)
    (.inr ⟨by decide, fun page hlt => ?_, fun page hlt => ?_,
      fun page page' hlt hlt' heq => ?_⟩)
  · rcases hpage page hlt with rfl | rfl <;> decide
  · rcases hpage page hlt with rfl | rfl <;> decide
  · rcases hpage page hlt with rfl | rfl <;>
      rcases hpage page' hlt' with rfl | rfl
    · rfl
    · exact absurd heq (by decide)
    · exact absurd heq (by decide)
    · rfl

end OpenAmp.Metal
