import OpenAmp.Interface.Layout
import OpenAmp.Remoteproc.Memory
import OpenAmp.Remoteproc.Notified
import OpenAmp.Virtio.System

/-!
# Rings of the resource table

`remoteproc_create_virtio` maps the vrings that the entry of a virtio
device describes, and `virtqueue_create` lays a ring out in each mapping.
Size and alignment are the firmware's numbers: a ring may have no or any
number of entries up to `RPROC_MAX_VRING_DESC`, and any alignment.
-/

namespace OpenAmp.Remoteproc

open OpenAmp.Interface OpenAmp.Lib OpenAmp.Metal OpenAmp.Virtio

/-! ## Setting a ring up -/

/-- `struct fw_rsc_vdev_vring`, less what is reserved. -/
structure FwRscVdevVring where
  da : UInt32
  align : UInt32
  num : UInt32
  notifyid : UInt32
deriving DecidableEq, Repr

/-- `struct vring_alloc_info`, less its padding. -/
structure VringAllocInfo where
  vaddr : UInt64
  align : UInt32
  numDescs : UInt16
deriving DecidableEq, Repr

/-- `rproc_virtio_init_vring` on a device of `vringsNum` vrings: what it
stores for vring `index`, if it returns zero. -/
def rprocVirtioInitVring (vringsNum index : Nat) (va : UInt64)
    (numDescs align : UInt32) : Option VringAllocInfo :=
  if vringsNum ≤ index ∨ RPROC_MAX_VRING_DESC < numDescs then none
  else some ⟨va, align, numDescs.toUInt16⟩

/-- The `for` loop of `remoteproc_create_virtio` from vring `i` on;
`none` is the jump to `err1`. -/
def createVringLoop (mems : List RemoteprocMem) (ops : MemOps)
    (vringsNum : Nat) :
    Nat → List FwRscVdevVring → Option (List VringAllocInfo)
  | _, [] => some []
  | i, rsc :: rscs =>
    let size := sizeOfInt (vringSize rsc.num rsc.align.toUInt64)
    let va := (remoteprocMmap mems ops none (some rsc.da.toUInt64) size none).va
    if va = 0 then none
    else
      match rprocVirtioInitVring vringsNum i va rsc.num rsc.align with
      | none => none
      | some info =>
        (createVringLoop mems ops vringsNum (i + 1) rscs).map (info :: ·)

/-- The vrings of a device that `remoteproc_create_virtio` creates. -/
def remoteprocCreateVrings (mems : List RemoteprocMem) (ops : MemOps)
    (rscs : List FwRscVdevVring) : Option (List VringAllocInfo) :=
  createVringLoop mems ops rscs.length 0 rscs

/-- `struct vring`. -/
structure VringPlace where
  num : UInt32
  desc : UInt64
  avail : UInt64
  used : UInt64
deriving DecidableEq, Repr

/-- `vring_init`. -/
def vringInit (num : UInt32) (p align : UInt64) : VringPlace :=
  let avail := p + num.toUInt64 * 16
  { num := num
    desc := p
    avail := avail
    used := alignUp (avail + (4 + num.toUInt64 * 2) + 2) align }

/-- The ring that `vq_ring_init` lays out in a mapping. The alignment
goes through an `int`. -/
def VringAllocInfo.vring (info : VringAllocInfo) : VringPlace :=
  vringInit info.numDescs.toUInt32 info.vaddr (sizeOfInt info.align.toInt32)

section VringAccepted

variable {mems : List RemoteprocMem} {ops : MemOps} {vringsNum i k : Nat}
  {rscs : List FwRscVdevVring} {rsc : FwRscVdevVring}
  {infos : List VringAllocInfo} {info : VringAllocInfo}

/-- Entry number `k` of a device that was created. -/
structure VringAccepted (mems : List RemoteprocMem) (ops : MemOps)
    (rscs : List FwRscVdevVring) (k : Nat) (rsc : FwRscVdevVring)
    (info : VringAllocInfo) : Prop where
  created : ∃ infos, remoteprocCreateVrings mems ops rscs = some infos ∧
    infos[k]? = some info
  entry : rscs[k]? = some rsc

theorem createVringLoop_getElem?
    (h : createVringLoop mems ops vringsNum i rscs = some infos)
    (hrsc : rscs[k]? = some rsc) (hinfo : infos[k]? = some info) :
    info = ⟨(remoteprocMmap mems ops none (some rsc.da.toUInt64)
      (sizeOfInt (vringSize rsc.num rsc.align.toUInt64)) none).va, rsc.align,
        rsc.num.toUInt16⟩ ∧ info.vaddr ≠ 0 ∧ rsc.num.toNat ≤ 65535 := by
  induction rscs generalizing i k infos with
  | nil => cases hrsc
  | cons r rscs ih =>
    simp only [createVringLoop] at h
    split at h
    · cases h
    next hva =>
    split at h
    · cases h
    next first hfirst =>
    obtain ⟨rest, hrest, rfl⟩ := Option.map_eq_some_iff.mp h
    cases k with
    | zero =>
      cases hrsc
      cases hinfo
      simp only [rprocVirtioInitVring] at hfirst
      split at hfirst
      · cases hfirst
      next hno =>
      cases hfirst
      have hle := UInt32.not_lt.mp fun hlt => hno (.inr hlt)
      exact ⟨rfl, hva, UInt32.le_iff_toNat_le.mp hle⟩
    | succ k => exact ih hrest hrsc hinfo

/-- What an entry has been found to be, and how it is kept. -/
theorem VringAccepted.spec (h : VringAccepted mems ops rscs k rsc info) :
    info = ⟨(remoteprocMmap mems ops none (some rsc.da.toUInt64)
      (sizeOfInt (vringSize rsc.num rsc.align.toUInt64)) none).va, rsc.align,
        rsc.num.toUInt16⟩ ∧ info.vaddr ≠ 0 ∧ rsc.num.toNat ≤ 65535 := by
  obtain ⟨⟨infos, hcreated, hinfo⟩, hrsc⟩ := h
  exact createVringLoop_getElem? hcreated hrsc hinfo

theorem VringAccepted.toNat_numDescs
    (h : VringAccepted mems ops rscs k rsc info) :
    info.numDescs.toNat = rsc.num.toNat := by
  obtain ⟨rfl, -, hle⟩ := h.spec
  rw [UInt32.toNat_toUInt16]
  omega

end VringAccepted

/-! ## Usable sizes -/

/-- A queue of the size asked for: any `num` indices in a row have slots
of their own. -/
structure UsableSize (num : UInt32) (nentries : UInt16) : Prop where
  pos : 0 < num.toNat
  stored : nentries.toNat = num.toNat
  below : ∀ (start : UInt16), ∀ i < num.toNat,
    ((start + UInt16.ofNat i) &&& (nentries - 1)).toNat < num.toNat
  apart : ∀ (start : UInt16), ∀ i < num.toNat, ∀ j < num.toNat,
    (start + UInt16.ofNat i) &&& (nentries - 1) =
      (start + UInt16.ofNat j) &&& (nentries - 1) → i = j

/-- The mask works for a power of two, and for no other number. -/
theorem usableSize_iff {num : UInt32} {nentries : UInt16}
    (hstored : nentries.toNat = num.toNat) :
    UsableSize num nentries ↔ ∃ k, num.toNat = 2 ^ k := by
  have hlt := nentries.toNat_lt
  constructor
  · intro h
    have hpos := h.pos
    have hone : (nentries - 1).toNat = num.toNat - 1 := by
      rw [UInt16.toNat_sub, UInt16.toNat_one]
      omega
    refine two_pow_of_mask hpos fun i hi hne hzero => hne ?_
    refine h.apart 0 i hi 0 hpos (UInt16.toNat_inj.mp ?_)
    rw [UInt16.toNat_and, UInt16.toNat_and, hone, UInt16.zero_add,
      UInt16.zero_add, UInt16.toNat_ofNat', UInt16.toNat_ofNat',
      Nat.mod_eq_of_lt (by omega), hzero]
    simp
  · rintro ⟨k, hk⟩
    have hk15 : k ≤ 15 := by
      by_contra hbig
      have := Nat.pow_le_pow_right (show 0 < 2 by decide)
        (show 16 ≤ k by omega)
      omega
    have hpos := Nat.two_pow_pos k
    have hent : nentries = UInt16.ofNat (2 ^ k) := by
      rw [← hk, ← hstored, UInt16.ofNat_toNat]
    have hsum : ∀ (start : UInt16) (i : Nat),
        start + UInt16.ofNat i = UInt16.ofNat (start.toNat + i) := by
      intro start i
      rw [UInt16.ofNat_add, UInt16.ofNat_toNat]
    refine ⟨by omega, hstored, fun start i hi => ?_,
      fun start i hi j hj heq => ?_⟩
    · rw [hent, hsum, counter_mask hk15, UInt16.toNat_ofNat', hk]
      exact Nat.lt_of_le_of_lt (Nat.mod_le _ _) (Nat.mod_lt _ hpos)
    · rw [hent, hsum, hsum] at heq
      rcases Nat.lt_trichotomy i j with hij | hij | hij
      · have hne := (slotsOf_mask hk15).ne (p := start.toNat + i)
          (d := j - i) (by omega) (by omega)
        rw [show start.toNat + i + (j - i) = start.toNat + j by omega] at hne
        exact absurd heq hne
      · exact hij
      · have hne := (slotsOf_mask hk15).ne (p := start.toNat + j)
          (d := i - j) (by omega) (by omega)
        rw [show start.toNat + j + (i - j) = start.toNat + i by omega] at hne
        exact absurd heq.symm hne

/-- **The size of a ring is usable** exactly if it is a power of two,
which nothing checks. -/
theorem ring_size_usable_iff {mems : List RemoteprocMem} {ops : MemOps}
    {rscs : List FwRscVdevVring} {k : Nat} {rsc : FwRscVdevVring}
    {info : VringAllocInfo} (h : VringAccepted mems ops rscs k rsc info)
    (dev : VirtioDevice) (notify : Bool) (vq : Virtqueue) (vr : Vring) :
    UsableSize rsc.num
        (virtqueueCreate dev info.numDescs notify vq vr).2.1.vqNentries ↔
      ∃ k, rsc.num.toNat = 2 ^ k := by
  have hnum : (virtqueueCreate dev info.numDescs notify vq vr).2.1.vqNentries =
      info.numDescs := by
    simp only [virtqueueCreate, vqRingInit]
    split <;> rfl
  rw [hnum]
  exact usableSize_iff h.toNat_numDescs

/-- Sixty-four kilobytes at device address `0x10000`, mapped at
`0x40000`. -/
def ringMemory : RemoteprocMem where
  da := 0x10000
  pa := 0x80000
  size := 0x10000
  name := []
  io := flatRegion 0x40000 0x80000 0x10000

def noHooks : MemOps := ⟨none, none⟩

/-- An entry that is accepted, by a check. -/
theorem accepted_of_check {rsc : FwRscVdevVring} {info : VringAllocInfo}
    (h : remoteprocCreateVrings [ringMemory] noHooks [rsc] = some [info]) :
    VringAccepted [ringMemory] noHooks [rsc] 0 rsc info :=
  ⟨⟨_, h, rfl⟩, rfl⟩

theorem ring_size_usable_iff_eight :
    VringAccepted [ringMemory] noHooks [⟨0x10000, 0x1000, 8, 1⟩] 0
        ⟨0x10000, 0x1000, 8, 1⟩ ⟨0x40000, 0x1000, 8⟩ ∧
      (UsableSize 8 (virtqueueCreate ⟨.driver, 0⟩ 8 true
          (virtqueueAllocate ⟨.driver, 0⟩ ringMemory.io)
          zeroedVring).2.1.vqNentries ↔ ∃ k, (8 : UInt32).toNat = 2 ^ k) := by
  have hacc : VringAccepted [ringMemory] noHooks [⟨0x10000, 0x1000, 8, 1⟩] 0
      ⟨0x10000, 0x1000, 8, 1⟩ ⟨0x40000, 0x1000, 8⟩ :=
    accepted_of_check (by decide +kernel)
  exact ⟨hacc, ring_size_usable_iff hacc _ _ _ _⟩

/-- A ring of 96 entries is accepted, and entries 0 and 32 share a
slot. -/
theorem ring_size_unusable :
    ∃ (rsc : FwRscVdevVring) (info : VringAllocInfo), rsc.num = 96 ∧
      VringAccepted [ringMemory] noHooks [rsc] 0 rsc info ∧
      ∀ (vq : Virtqueue) (vr : Vring), ¬ UsableSize rsc.num
        (virtqueueCreate ⟨.driver, 0⟩ info.numDescs true vq vr).2.1.vqNentries
        := by
  refine ⟨⟨0x10000, 0x1000, 96, 1⟩, ⟨0x40000, 0x1000, 96⟩, rfl,
    accepted_of_check (by decide +kernel), fun vq vr h => ?_⟩
  have hslot := h.apart 0 0 (by decide) 32 (by decide) (by
    show (0 + UInt16.ofNat 0) &&& (96 - 1 : UInt16) =
      (0 + UInt16.ofNat 32) &&& (96 - 1)
    decide)
  cases hslot

/-! ## The place of a ring -/

/-- The descriptor table, the available ring with `used_event` and the
used ring with `avail_event`. -/
def VringPlace.parts (vr : VringPlace) : List Span :=
  [⟨vr.desc.toNat, 16 * vr.num.toNat⟩,
    ⟨vr.avail.toNat, 4 + 2 * vr.num.toNat + 2⟩,
    ⟨vr.used.toNat, 4 + 8 * vr.num.toNat + 2⟩]

/-- The parts lie apart and in the `size` bytes from `va` on. -/
structure VringPlace.Fits (vr : VringPlace) (va : UInt64) (size : Int) :
    Prop where
  apart : vr.parts.Pairwise Span.Disjoint
  inside : ∀ s ∈ vr.parts, va.toNat ≤ s.start ∧
    ((s.start + s.len : Nat) : Int) ≤ va.toNat + size

/-- The bytes of a ring up to the end of `used_event`. -/
def availEnd (num : UInt32) : UInt64 := num.toUInt64 * 18 + 6

/-- What the rounding mask of `vring_size` cuts off at the end of the
available ring. -/
def sizeCut (num align : UInt32) : UInt64 :=
  let mask := align.toUInt64 - 1
  (availEnd num + mask) &&& mask

/-- What the rounding mask of `vring_init` cuts off there, in a mapping
at `va`. -/
def placeCut (num align : UInt32) (va : UInt64) : UInt64 :=
  let mask := sizeOfInt align.toInt32 - 1
  (va + availEnd num + mask) &&& mask

/-- The alignment adds no more behind the available ring at its address
than it does behind one at address zero, as `vring_size` has it, and the
sizes can be counted: `vring_init` counts in 64 bits, with an alignment
that was an `int`, and `vring_size` in 31. -/
structure RingAligned (num align : UInt32) (va : UInt64) : Prop where
  address : va.toNat + (18 * num.toNat + 6) +
    (sizeOfInt align.toInt32 - 1).toNat < 2 ^ 64
  size : 26 * num.toNat + 12 + (align.toUInt64 - 1).toNat <
    2147483648 + (sizeCut num align).toNat
  padding : (sizeOfInt align.toInt32 - 1).toNat + (sizeCut num align).toNat ≤
    (align.toUInt64 - 1).toNat + (placeCut num align va).toNat

section Placement

variable {num align : UInt32} {va : UInt64}

/-- Rounding up adds the mask and cuts off its bits. -/
theorem toNat_alignUp (x align : UInt64) :
    (alignUp x align).toNat + ((x + (align - 1)) &&& (align - 1)).toNat =
      (x.toNat + (align - 1).toNat) % 2 ^ 64 := by
  have hadd : x + align - 1 = x + (align - 1) := by
    rw [UInt64.sub_eq_add_neg, UInt64.add_assoc, ← UInt64.sub_eq_add_neg]
  rw [alignUp, hadd, toNat_and_not, UInt64.toNat_add]

theorem toNat_availEnd (h : num.toNat ≤ 65535) :
    (availEnd num).toNat = 18 * num.toNat + 6 := by
  simp only [availEnd, UInt64.toNat_add, UInt64.toNat_mul,
    UInt32.toNat_toUInt64, UInt64.reduceToNat]
  omega

/-- The low word of a sum does not see where an `int` was in between. -/
theorem addSize_intOfSize (x n : UInt64) :
    addSize (intOfSize x) n = intOfSize (x + n) := by
  have h := toNat_sizeOfInt_intOfSize x
  have hlow : (sizeOfInt (intOfSize x) + n).toUInt32 = (x + n).toUInt32 := by
    apply UInt32.toNat_inj.mp
    rw [UInt64.toNat_toUInt32, UInt64.toNat_toUInt32, UInt64.toNat_add,
      UInt64.toNat_add, h]
    split <;> omega
  rw [addSize, intOfSize, hlow, intOfSize]

theorem toInt_intOfSize (x : UInt64) :
    (intOfSize x).toInt = if x.toNat % 2 ^ 32 < 2 ^ 31 then
      ((x.toNat % 2 ^ 32 : Nat) : Int)
    else ((x.toNat % 2 ^ 32 : Nat) : Int) - 2 ^ 32 := by
  have hx : (intOfSize x).toInt = x.toUInt32.toBitVec.toInt := rfl
  have hlow : x.toUInt32.toBitVec.toNat = x.toNat % 2 ^ 32 :=
    UInt64.toNat_toUInt32 x
  rw [hx, BitVec.toInt_eq_toNat_cond, hlow]
  split <;> split <;> omega

/-- `vring_size` of a ring that is accepted, by the rounded end of the
available ring. -/
theorem vringSize_eq (h : num.toNat ≤ 65535) (align : UInt64) :
    vringSize num align = intOfSize (alignUp (availEnd num) align +
      (4 + num.toUInt64 * 8 + 2)) := by
  have hend : sizeOfInt (addSize (intOfSize (num.toUInt64 * 16))
      (4 + num.toUInt64 * 2 + 2)) = availEnd num := by
    have hsum : num.toUInt64 * 16 + (4 + num.toUInt64 * 2 + 2) =
        availEnd num := by
      apply UInt64.toNat_inj.mp
      simp only [availEnd, UInt64.toNat_add, UInt64.toNat_mul,
        UInt32.toNat_toUInt64, UInt64.reduceToNat]
      omega
    have hav := toNat_availEnd h
    apply UInt64.toNat_inj.mp
    rw [addSize_intOfSize, hsum, toNat_sizeOfInt_of_lt (by omega)]
  show addSize (intOfSize (alignUp (sizeOfInt (addSize _ _)) align)) _ = _
  rw [hend, addSize_intOfSize]

/-- The parts by numbers: `used` is where the rounding puts it. -/
theorem parts_vringInit (num : UInt32) (va align : UInt64) :
    (vringInit num va align).parts =
      [⟨va.toNat, 16 * num.toNat⟩,
        ⟨(va.toNat + 16 * num.toNat) % 2 ^ 64, 4 + 2 * num.toNat + 2⟩,
        ⟨(alignUp (va + availEnd num) align).toNat,
          4 + 8 * num.toNat + 2⟩] := by
  have hsum : va + num.toUInt64 * 16 + (4 + num.toUInt64 * 2) + 2 =
      va + availEnd num := by
    apply UInt64.toNat_inj.mp
    simp only [availEnd, UInt64.toNat_add, UInt64.toNat_mul,
      UInt32.toNat_toUInt64, UInt64.reduceToNat]
    omega
  have hdesc : (va + num.toUInt64 * 16).toNat =
      (va.toNat + 16 * num.toNat) % 2 ^ 64 := by
    simp only [UInt64.toNat_add, UInt64.toNat_mul, UInt32.toNat_toUInt64,
      UInt64.reduceToNat]
    omega
  simp only [VringPlace.parts, vringInit, hsum, hdesc]

/-- Whether three parts lie apart and inside is a matter of the last. -/
theorem parts_fit_iff {v n u : Nat} {t : Int} (hv : v < 2 ^ 64)
    (hn : n ≤ 65535) :
    ([⟨v, 16 * n⟩, ⟨(v + 16 * n) % 2 ^ 64, 4 + 2 * n + 2⟩,
        ⟨u, 4 + 8 * n + 2⟩] : List Span).Pairwise Span.Disjoint ∧
      (∀ s ∈ ([⟨v, 16 * n⟩, ⟨(v + 16 * n) % 2 ^ 64, 4 + 2 * n + 2⟩,
          ⟨u, 4 + 8 * n + 2⟩] : List Span),
        v ≤ s.start ∧ ((s.start + s.len : Nat) : Int) ≤ v + t) ↔
      v + 16 * n < 2 ^ 64 ∧ v + (18 * n + 6) ≤ u ∧
        ((u + (8 * n + 6) : Nat) : Int) ≤ v + t := by
  simp only [List.pairwise_cons, List.mem_cons, List.not_mem_nil, or_false,
    forall_eq_or_imp, forall_eq, false_imp_iff, implies_true, and_true,
    List.Pairwise.nil, Span.Disjoint]
  by_cases hwrap : v + 16 * n < 2 ^ 64
  · rw [Nat.mod_eq_of_lt hwrap]
    omega
  · -- the available ring would begin below the mapping
    have hlow : (v + 16 * n) % 2 ^ 64 < v := by omega
    omega

/-- The arithmetic of two roundings: `r` is `18 * n + 6` rounded up, and
`u` the same behind `v`. -/
theorem place_arith {v n m m' cut cut' r u : Nat} (hv : v < 2 ^ 64)
    (hn : n ≤ 65535) (hm' : m' < 2 ^ 64) (hm : m ≤ 4294967294)
    (hcut : cut ≤ m) (hcut' : cut' ≤ m')
    (hround : r + cut = (18 * n + 6 + m) % 2 ^ 64)
    (hplace : u + cut' = ((v + (18 * n + 6)) % 2 ^ 64 + m') % 2 ^ 64) :
    (v + 16 * n < 2 ^ 64 ∧ v + (18 * n + 6) ≤ u ∧
      ((u + (8 * n + 6) : Nat) : Int) ≤ v +
        if (r + (8 * n + 6)) % 2 ^ 64 % 2 ^ 32 < 2 ^ 31 then
          (((r + (8 * n + 6)) % 2 ^ 64 % 2 ^ 32 : Nat) : Int)
        else (((r + (8 * n + 6)) % 2 ^ 64 % 2 ^ 32 : Nat) : Int) - 2 ^ 32) ↔
      v + (18 * n + 6) + m' < 2 ^ 64 ∧
        26 * n + 12 + m < 2147483648 + cut ∧ m' + cut ≤ m + cut' := by
  have hr : r + cut = 18 * n + 6 + m := by omega
  have hrlt : (r + (8 * n + 6)) % 2 ^ 64 = r + (8 * n + 6) := by omega
  rw [hrlt]
  constructor
  · rintro ⟨hdesc, hlow, hhigh⟩
    have haddr : v + (18 * n + 6) + m' < 2 ^ 64 := by omega
    have hu : u + cut' = v + (18 * n + 6) + m' := by omega
    have hsize : r + (8 * n + 6) < 2 ^ 31 := by
      split at hhigh <;> omega
    rw [if_pos (by omega)] at hhigh
    omega
  · rintro ⟨haddr, hsize, hpad⟩
    have hu : u + cut' = v + (18 * n + 6) + m' := by omega
    rw [if_pos (by omega)]
    omega

/-- A cut is part of the mask it is made with. -/
theorem sizeCut_le (num align : UInt32) :
    (sizeCut num align).toNat ≤ (align.toUInt64 - 1).toNat := by
  rw [sizeCut, UInt64.toNat_and]
  exact Nat.and_le_right

theorem placeCut_le (num align : UInt32) (va : UInt64) :
    (placeCut num align va).toNat ≤ (sizeOfInt align.toInt32 - 1).toNat := by
  rw [placeCut, UInt64.toNat_and]
  exact Nat.and_le_right

/-- Where `vring_size` lets the used ring begin. -/
theorem toNat_sizeEnd (h : num.toNat ≤ 65535) (align : UInt32) :
    (alignUp (availEnd num) align.toUInt64).toNat + (sizeCut num align).toNat =
      (18 * num.toNat + 6 + (align.toUInt64 - 1).toNat) % 2 ^ 64 := by
  rw [← toNat_availEnd h]
  exact toNat_alignUp _ _

/-- Where `vring_init` puts it. -/
theorem toNat_placeEnd (h : num.toNat ≤ 65535) (align : UInt32) (va : UInt64) :
    (alignUp (va + availEnd num) (sizeOfInt align.toInt32)).toNat +
        (placeCut num align va).toNat =
      ((va.toNat + (18 * num.toNat + 6)) % 2 ^ 64 +
        (sizeOfInt align.toInt32 - 1).toNat) % 2 ^ 64 := by
  rw [← toNat_availEnd h, ← UInt64.toNat_add]
  exact toNat_alignUp _ _

/-- The used ring has eight bytes an entry and six of its own. -/
theorem toNat_usedEnd (x : UInt64) (num : UInt32) :
    (x + (4 + num.toUInt64 * 8 + 2)).toNat =
      (x.toNat + (8 * num.toNat + 6)) % 2 ^ 64 := by
  simp only [UInt64.toNat_add, UInt64.toNat_mul, UInt32.toNat_toUInt64,
    UInt64.reduceToNat]
  omega

/-- Without an alignment both masks are all ones. -/
theorem alignMask_cases (align : UInt32) :
    (align.toUInt64 - 1).toNat ≤ 4294967294 ∨
      (sizeOfInt align.toInt32 - 1).toNat = 2 ^ 64 - 1 := by
  by_cases h0 : align = 0
  · subst h0
    exact .inr rfl
  · have hpos : align.toNat ≠ 0 := fun hz => h0 (UInt32.toNat_inj.mp hz)
    have hlt := align.toNat_lt
    left
    rw [UInt64.toNat_sub, UInt32.toNat_toUInt64, UInt64.toNat_one]
    omega

/-- The parts by their places. -/
theorem fits_vringInit_iff (h : num.toNat ≤ 65535) (align : UInt64) (t : Int) :
    (vringInit num va align).Fits va t ↔
      va.toNat + 16 * num.toNat < 2 ^ 64 ∧
        va.toNat + (18 * num.toNat + 6) ≤
          (alignUp (va + availEnd num) align).toNat ∧
        (((alignUp (va + availEnd num) align).toNat +
          (8 * num.toNat + 6) : Nat) : Int) ≤ va.toNat + t := by
  have hfit := @parts_fit_iff va.toNat num.toNat
    (alignUp (va + availEnd num) align).toNat t va.toNat_lt h
  rw [← parts_vringInit num va align] at hfit
  constructor
  · intro hf
    exact hfit.mp ⟨hf.apart, hf.inside⟩
  · intro hf
    exact ⟨(hfit.mpr hf).1, (hfit.mpr hf).2⟩

/-- **A ring fits its mapping** exactly if it is aligned so. -/
theorem vringPlace_fits_iff (h : num.toNat ≤ 65535) :
    (vringInit num va (sizeOfInt align.toInt32)).Fits va
        (vringSize num align.toUInt64).toInt ↔ RingAligned num align va := by
  have hv := va.toNat_lt
  have hplace := toNat_placeEnd h align va
  have hcut' := placeCut_le num align va
  rw [fits_vringInit_iff h, vringSize_eq h, toInt_intOfSize, toNat_usedEnd]
  rcases alignMask_cases align with hsmall | hones
  · refine (place_arith hv h (UInt64.toNat_lt _) hsmall (sizeCut_le num align)
      hcut' (toNat_sizeEnd h align) hplace).trans ?_
    exact ⟨fun ⟨h1, h2, h3⟩ => ⟨h1, h2, h3⟩, fun ⟨h1, h2, h3⟩ => ⟨h1, h2, h3⟩⟩
  · -- the used ring begins before the end of the available ring
    rw [hones] at hplace
    refine iff_of_false ?_ fun hal => ?_
    · rintro ⟨-, hlow, -⟩
      omega
    · have haddr := hal.address
      rw [hones] at haddr
      omega

/-- A mask of `k` ones cuts off a remainder. -/
theorem toNat_cut {x mask : UInt64} {k : Nat} (hmask : mask.toNat = 2 ^ k - 1)
    (hlt : x.toNat + mask.toNat < 2 ^ 64) :
    ((x + mask) &&& mask).toNat = (x.toNat + (2 ^ k - 1)) % 2 ^ k := by
  rw [UInt64.toNat_and, UInt64.toNat_add, Nat.mod_eq_of_lt hlt, hmask,
    Nat.and_two_pow_sub_one_eq_mod]

/-- An alignment that an `int` can hold comes back as it was. -/
theorem sizeOfInt_toInt32 {align : UInt32} (h : align.toNat < 2 ^ 31) :
    sizeOfInt align.toInt32 = align.toUInt64 := by
  have hsame : align.toInt32 = intOfSize align.toUInt64 := by
    rw [intOfSize, UInt32.toUInt32_toUInt64]
  apply UInt64.toNat_inj.mp
  rw [hsame, toNat_sizeOfInt_of_lt]
  rw [UInt32.toNat_toUInt64]
  exact h

/-- For a power of two the condition is that the offset of the mapping
in its block and that of the last byte of the available ring together
stay in one block. -/
theorem ringAligned_pow_iff (h : num.toNat ≤ 65535) {k : Nat} (hk : k ≤ 30)
    (halign : align.toNat = 2 ^ k)
    (hfit : va.toNat + (18 * num.toNat + 6) + 2 ^ k ≤ 2 ^ 64) :
    RingAligned num align va ↔
      va.toNat % 2 ^ k + (18 * num.toNat + 5) % 2 ^ k < 2 ^ k := by
  have hpos := Nat.two_pow_pos k
  have hle := Nat.pow_le_pow_right (show 0 < 2 by decide) hk
  have hav := toNat_availEnd h
  have hint := sizeOfInt_toInt32 (show align.toNat < 2 ^ 31 by omega)
  have hmask : (align.toUInt64 - 1).toNat = 2 ^ k - 1 := by
    rw [UInt64.toNat_sub, UInt32.toNat_toUInt64, UInt64.toNat_one]
    omega
  have hcut : (sizeCut num align).toNat = (18 * num.toNat + 5) % 2 ^ k := by
    have hshift : 18 * num.toNat + 6 + (2 ^ k - 1) =
        18 * num.toNat + 5 + 2 ^ k := by omega
    rw [sizeCut, toNat_cut hmask (by omega), hav, hshift, Nat.add_mod_right]
  have hplace : (placeCut num align va).toNat =
      (va.toNat % 2 ^ k + (18 * num.toNat + 5) % 2 ^ k) % 2 ^ k := by
    have hsum : (va + availEnd num).toNat =
        va.toNat + (18 * num.toNat + 6) := by
      rw [UInt64.toNat_add, hav]
      omega
    have hshift : va.toNat + (18 * num.toNat + 6) + (2 ^ k - 1) =
        va.toNat + (18 * num.toNat + 5) + 2 ^ k := by omega
    rw [placeCut, hint, toNat_cut hmask (by omega), hsum, hshift,
      Nat.add_mod_right, Nat.add_mod]
  have hlow := Nat.mod_lt va.toNat hpos
  have hend := Nat.mod_lt (18 * num.toNat + 5) hpos
  constructor
  · rintro ⟨-, -, hpad⟩
    rw [hint, hcut, hplace] at hpad
    by_contra hover
    have hwrap : (va.toNat % 2 ^ k + (18 * num.toNat + 5) % 2 ^ k) % 2 ^ k =
        va.toNat % 2 ^ k + (18 * num.toNat + 5) % 2 ^ k - 2 ^ k := by
      rw [Nat.mod_eq_sub_mod (Nat.not_lt.mp hover)]
      exact Nat.mod_eq_of_lt (by omega)
    rw [hwrap] at hpad
    omega
  · intro hblock
    rw [Nat.mod_eq_of_lt hblock] at hplace
    refine ⟨?_, ?_, ?_⟩
    · rw [hint, hmask]
      omega
    · rw [hmask]
      omega
    · rw [hint, hcut, hplace]
      omega

end Placement

/-- **The ring of an accepted entry fits its mapping** exactly if its
alignment adds no more at the address of the mapping than `vring_size`
reckons with. -/
theorem ring_fits_iff {mems : List RemoteprocMem} {ops : MemOps}
    {rscs : List FwRscVdevVring} {k : Nat} {rsc : FwRscVdevVring}
    {info : VringAllocInfo} (h : VringAccepted mems ops rscs k rsc info) :
    info.vring.Fits info.vaddr
        (vringSize rsc.num rsc.align.toUInt64).toInt ↔
      RingAligned rsc.num rsc.align info.vaddr := by
  have hle := h.spec.2.2
  have hnum : info.numDescs.toUInt32 = rsc.num := by
    apply UInt32.toNat_inj.mp
    rw [UInt16.toNat_toUInt32, h.toNat_numDescs]
  have halign : info.align = rsc.align := by
    rw [h.spec.1]
  rw [VringAllocInfo.vring, hnum, halign]
  exact vringPlace_fits_iff hle

/-- On a page of its own. -/
theorem ring_fits_iff_page :
    VringAccepted [ringMemory] noHooks [⟨0x10000, 0x1000, 8, 1⟩] 0
        ⟨0x10000, 0x1000, 8, 1⟩ ⟨0x40000, 0x1000, 8⟩ ∧
      ((vringInit 8 0x40000 0x1000).Fits 0x40000 (vringSize 8 0x1000).toInt ↔
        RingAligned 8 0x1000 0x40000) := by
  have hacc : VringAccepted [ringMemory] noHooks [⟨0x10000, 0x1000, 8, 1⟩] 0
      ⟨0x10000, 0x1000, 8, 1⟩ ⟨0x40000, 0x1000, 8⟩ :=
    accepted_of_check (by decide +kernel)
  exact ⟨hacc, ring_fits_iff hacc⟩

/-- Half a block off its alignment, the used ring begins 128 bytes later
than `vring_size` reckons, and so does it end. Without an alignment it
begins at address zero. -/
theorem ring_overruns :
    (∃ (rsc : FwRscVdevVring) (info : VringAllocInfo), rsc.align = 0x100 ∧
      VringAccepted [ringMemory] noHooks [rsc] 0 rsc info ∧
      info.vring.used.toNat + 70 = info.vaddr.toNat +
        (vringSize rsc.num rsc.align.toUInt64).toInt + 128 ∧
      ¬ info.vring.Fits info.vaddr
        (vringSize rsc.num rsc.align.toUInt64).toInt) ∧
    ∃ (rsc : FwRscVdevVring) (info : VringAllocInfo), rsc.align = 0 ∧
      VringAccepted [ringMemory] noHooks [rsc] 0 rsc info ∧
      info.vring.used = 0 ∧ ¬ info.vring.Fits info.vaddr
        (vringSize rsc.num rsc.align.toUInt64).toInt := by
  constructor
  · refine ⟨⟨0x10080, 0x100, 8, 1⟩, ⟨0x40080, 0x100, 8⟩, rfl,
      accepted_of_check (by decide +kernel), by decide, fun h => ?_⟩
    have hused := h.inside ⟨0x40200, 70⟩ (by decide)
    revert hused
    decide
  · refine ⟨⟨0x10000, 0, 8, 1⟩, ⟨0x40000, 0, 8⟩, rfl,
      accepted_of_check (by decide +kernel), by decide, fun h => ?_⟩
    have hused := h.inside ⟨0, 70⟩ (by decide)
    revert hused
    decide

end OpenAmp.Remoteproc
