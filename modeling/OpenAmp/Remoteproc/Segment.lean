import Mathlib.Data.List.Find
import OpenAmp.Remoteproc.Image

/-!
# Segments in target memory

Where `remoteproc_load` puts a loadable segment: the memory its device
address is found in, what the store is asked to write there and what is
filled with padding behind it.

The lookup compares the end of the request in 64 bits, the store is
asked for the file size although the lookup was made for the memory
size, and the padding is counted in an `int`. The last section says
exactly when all of that stays in the memory found.
-/

namespace OpenAmp.Remoteproc

open OpenAmp.Lib OpenAmp.Metal

variable {mems : List RemoteprocMem} {mem : RemoteprocMem}

/-! ## Mapping by device address -/

theorem memLoop_of_select {da size : UInt64}
    (h : (MemKey.da da).select mems size = some mem) :
    memLoop none METAL_BAD_PHYS da 0 size mems = some (some mem) :=
  Option.join_eq_some_iff.mp h

/-- A mapping by device address from the list. -/
theorem remoteprocMmap_da (ops : MemOps) {da size : UInt64} (hda : da ≠ METAL_BAD_PHYS)
    (hsize : size ≠ 0) (h : (MemKey.da da).select mems size = some mem)
    (pa : Option UInt64) (hpa : pa = none ∨ pa = some METAL_BAD_PHYS)
    (io : Option MetalIoRegion) :
    remoteprocMmap mems ops pa (some da) size io =
      ⟨metalIoPhysToVirt mem.io (remoteprocDatopa mem da),
        remoteprocDatopa mem da, da, some mem.io⟩ := by
  have hbad : pa.getD METAL_BAD_PHYS = METAL_BAD_PHYS := by
    rcases hpa with rfl | rfl <;> rfl
  simp only [remoteprocMmap, hbad, Option.getD_some, remoteprocGetMem,
    Option.any_none, Bool.false_eq_true, if_false, memLoop_of_select h]
  simp [hsize, hda]

/-- Where the device address lies in physical memory. -/
theorem remoteprocDatopa_toNat (hmem : mem.Valid) {da : UInt64}
    (hin : (MemKey.da da).In mem) :
    (remoteprocDatopa mem da).toNat =
      mem.pa.toNat + (da.toNat - mem.da.toNat) := by
  have h1 : mem.da.toNat ≤ da.toNat := hin.1
  have h2 : da.toNat < mem.da.toNat + mem.size.toNat := hin.2
  have h3 := hmem.covers.nowrap
  have h4 := hmem.da_nowrap
  rw [remoteprocDatopa, UInt64.toNat_sub, UInt64.toNat_add]
  omega

theorem remoteprocDatopa_ne_bad (hmem : mem.Valid) {da : UInt64}
    (hin : (MemKey.da da).In mem) :
    remoteprocDatopa mem da ≠ METAL_BAD_PHYS := by
  intro heq
  have h := remoteprocDatopa_toNat hmem hin
  have h1 : mem.da.toNat ≤ da.toNat := hin.1
  have h2 : da.toNat < mem.da.toNat + mem.size.toNat := hin.2
  have h3 := hmem.covers.nowrap
  rw [heq, show METAL_BAD_PHYS.toNat = 2 ^ 64 - 1 from rfl] at h
  omega

/-- The region offset of a physical address behind the mapped one. -/
theorem physToOffset_behind (hmem : mem.Valid) {da n : UInt64}
    (hin : (MemKey.da da).In mem)
    (hn : da.toNat + n.toNat < mem.da.toNat + mem.size.toNat) :
    (metalIoPhysToOffset mem.io (remoteprocDatopa mem da + n)).toNat =
      da.toNat - mem.da.toNat + n.toNat := by
  have h1 : mem.da.toNat ≤ da.toNat := hin.1
  have h3 := hmem.covers.nowrap
  have h4 := mem.size.toNat_lt
  have hlt : (UInt64.ofNat (da.toNat - mem.da.toNat + n.toNat)).toNat =
      da.toNat - mem.da.toNat + n.toNat := by
    rw [UInt64.toNat_ofNat']
    omega
  have heq : remoteprocDatopa mem da + n =
      mem.pa + UInt64.ofNat (da.toNat - mem.da.toNat + n.toNat) := by
    apply UInt64.toNat_inj.mp
    rw [UInt64.toNat_add, UInt64.toNat_add, remoteprocDatopa_toNat hmem hin, hlt]
    congr 1
    omega
  rw [heq, hmem.covers.back _ (by rw [UInt64.lt_iff_toNat_lt, hlt]; omega), hlt]

/-- Past the memory there is no offset of the region. -/
theorem physToOffset_past (hmem : mem.Valid) {da n : UInt64}
    (hin : (MemKey.da da).In mem)
    (hn : mem.da.toNat + mem.size.toNat ≤ da.toNat + n.toNat)
    (hwrap : (remoteprocDatopa mem da).toNat + n.toNat < 2 ^ 64) :
    mem.size ≤ metalIoPhysToOffset mem.io (remoteprocDatopa mem da + n) := by
  refine hmem.covers.outside _ fun o ho heq => ?_
  have h1 : mem.da.toNat ≤ da.toNat := hin.1
  have h3 := hmem.covers.nowrap
  have ho' := UInt64.lt_iff_toNat_lt.mp ho
  have h := congrArg UInt64.toNat heq
  rw [UInt64.toNat_add, UInt64.toNat_add, Nat.mod_eq_of_lt hwrap,
    remoteprocDatopa_toNat hmem hin, Nat.mod_eq_of_lt (by omega)] at h
  omega

/-! ## A segment that fits -/

/-- The bytes a segment has in memory: those of the file, then zeros. -/
def Image.segment (img : Image) (offset filesz memsz : UInt64) : List UInt8 :=
  readBytes img.bytes offset.toNat filesz.toNat ++
    List.replicate (memsz.toNat - filesz.toNat) 0

variable {store : ImageStoreOps} {img : Image}

/-- What a segment's way to the target leaves alone. -/
structure LoadRun.Keeps (run run' : LoadRun) : Prop where
  rproc : run'.rproc = run.rproc
  info : run'.info = run.info
  offset : run'.offset = run.offset
  len : run'.len = run.len
  lastLoadState : run'.lastLoadState = run.lastLoadState

/-- The file part goes where the segment begins. -/
theorem fetchSegment_of_serves (hserves : Serves store img) (run : LoadRun)
    {d : DataOut} (pa : UInt64)
    (himg : 0 < d.nlen → d.noffset.toNat + d.nlen.toNat ≤ img.len) :
    (fetchSegment store run d pa).1 = true ∧
    (fetchSegment store run d pa).2.target = writeBytes run.target pa.toNat
      (readBytes img.bytes d.noffset.toNat d.nlen.toNat) ∧
    run.Keeps (fetchSegment store run d pa).2 := by
  unfold fetchSegment
  split
  · next hfile =>
    have hret := hserves.ret run.calls.length d.noffset d.nlen (some pa)
      run.target (himg hfile)
    have htar := hserves.target run.calls.length d.noffset d.nlen pa
      run.target (himg hfile)
    simp only [LoadRun.ask, Option.isSome_some, if_true, hret, htar,
      decide_true, true_and]
    exact ⟨rfl, rfl, rfl, rfl, rfl⟩
  · next hfile =>
    have hzero : d.nlen.toNat = 0 := by
      rw [UInt64.lt_iff_toNat_lt] at hfile
      simpa using hfile
    rw [hzero, readBytes, List.range_zero, List.map_nil, writeBytes_nil]
    exact ⟨rfl, rfl, rfl, rfl, rfl, rfl, rfl⟩

/-- What `elf_load` hands out for a loadable segment. -/
def ElfSegment.out (seg : ElfSegment) (ret : Int32) (info : Option ElfInfo) :
    DataOut :=
  ⟨ret, info, seg.paddr, seg.offset, seg.filesz, 0, seg.memsz⟩

/-- Target memory after a segment of the image has gone to a memory. -/
def Image.place (img : Image) (mem : RemoteprocMem) (seg : ElfSegment)
    (target : Mem) : Mem :=
  let pa := remoteprocDatopa mem seg.paddr
  let target := writeBytes target pa.toNat
    (readBytes img.bytes seg.offset.toNat seg.filesz.toNat)
  if seg.filesz < seg.memsz then
    (metalIoBlockSet mem.io target (metalIoPhysToOffset mem.io (pa + seg.filesz))
      0 (sizeToInt (seg.memsz - seg.filesz))).2
  else target

theorem padSegment_target (run : LoadRun) (seg : ElfSegment) (ret : Int32)
    (info : Option ElfInfo) (pa : UInt64) (io : MetalIoRegion) :
    (padSegment run (seg.out ret info) pa io).target =
      if seg.filesz < seg.memsz then
        (metalIoBlockSet io run.target (metalIoPhysToOffset io (pa + seg.filesz))
          0 (sizeToInt (seg.memsz - seg.filesz))).2
      else run.target := by
  unfold padSegment
  split
  · next h => exact (if_pos h).symm
  · next h => exact (if_neg h).symm

theorem padSegment_keeps (run : LoadRun) (d : DataOut) (pa : UInt64)
    (io : MetalIoRegion) : run.Keeps (padSegment run d pa io) := by
  unfold padSegment
  split <;> exact ⟨rfl, rfl, rfl, rfl, rfl⟩

theorem padSegment_calls (run : LoadRun) (d : DataOut) (pa : UInt64)
    (io : MetalIoRegion) : (padSegment run d pa io).calls = run.calls := by
  unfold padSegment
  split <;> rfl

/-- The request for a file part, with any store. -/
theorem fetchSegment_any (store : ImageStoreOps) (run : LoadRun) (d : DataOut)
    (pa : UInt64) :
    let r := fetchSegment store run d pa
    run.Keeps r.2 ∧ run.calls ⊆ r.2.calls ∧
    (r.1 = true → 0 < d.nlen → ∃ c ∈ r.2.calls, c.offset = d.noffset ∧
      c.size = d.nlen ∧ c.ret = sizeToInt d.nlen) := by
  intro r
  simp only [r, fetchSegment]
  by_cases hfile : 0 < d.nlen
  · simp only [if_pos hfile, LoadRun.ask]
    refine ⟨⟨rfl, rfl, rfl, rfl, rfl⟩, List.subset_append_left _ _,
      fun hok _ => ?_⟩
    exact ⟨_, List.mem_append_right _ (List.mem_singleton.mpr rfl), rfl, rfl,
      of_decide_eq_true hok⟩
  · simp only [if_neg hfile]
    exact ⟨⟨rfl, rfl, rfl, rfl, rfl⟩, fun _ h => h, fun _ h => absurd h hfile⟩

/-- A segment's way to the target, with any store. -/
theorem storeSegment_any (store : ImageStoreOps) (run : LoadRun) (d : DataOut) :
    let r := storeSegment store run d
    run.Keeps r.run ∧ run.calls ⊆ r.run.calls ∧
    (∀ err, r.err = some err → err < 0) ∧
    (r.err = none → 0 < d.nlen → ∃ c ∈ r.run.calls, c.offset = d.noffset ∧
      c.size = d.nlen ∧ c.ret = sizeToInt d.nlen) := by
  intro r
  simp only [r, storeSegment]
  generalize remoteprocMmap run.rproc.mems run.rproc.ops (some METAL_BAD_PHYS)
    (some d.da) d.nmemsize run.io = map
  cases hio : map.io with
  | none =>
    -- no memory takes the segment
    refine ⟨⟨rfl, rfl, rfl, rfl, rfl⟩, fun _ h => h, ?_, fun h => nomatch h⟩
    rintro err ⟨⟩
    exact neg_einval
  | some io =>
    simp only
    by_cases hpa : map.pa = METAL_BAD_PHYS
    · rw [if_pos hpa]
      refine ⟨⟨rfl, rfl, rfl, rfl, rfl⟩, fun _ h => h, ?_, fun h => nomatch h⟩
      rintro err ⟨⟩
      exact neg_einval
    rw [if_neg hpa]
    obtain ⟨hkeeps, hcalls, hasked⟩ := fetchSegment_any store
      { run with imgData := none, io := some io } d map.pa
    generalize fetchSegment store
      { run with imgData := none, io := some io } d map.pa = r at *
    cases hok : r.1 with
    | false =>
      refine ⟨⟨hkeeps.1, hkeeps.2, hkeeps.3, hkeeps.4, hkeeps.5⟩, hcalls, ?_,
        fun h => nomatch h⟩
      rintro err ⟨⟩
      exact neg_einval
    | true =>
      have hpad := padSegment_keeps r.2 d map.pa io
      have hpadc := padSegment_calls r.2 d map.pa io
      refine ⟨⟨hpad.1.trans hkeeps.1, hpad.2.trans hkeeps.2,
        hpad.3.trans hkeeps.3, hpad.4.trans hkeeps.4, hpad.5.trans hkeeps.5⟩,
        ?_, (fun _ h => nomatch h), fun _ hfile => ?_⟩
      · simp only [if_true, hpadc]
        exact hcalls
      · simp only [if_true, hpadc]
        exact hasked hok hfile

/-- A segment that is given a memory is placed there, and nothing else of
the remote processor changes. -/
theorem storeSegment_place (hserves : Serves store img) (hmem : mem.Valid)
    (run : LoadRun) {seg : ElfSegment}
    (hsel : (MemKey.da seg.paddr).select run.rproc.mems seg.memsz = some mem)
    (hin : (MemKey.da seg.paddr).In mem) (hpos : seg.memsz ≠ 0)
    (himg : 0 < seg.filesz → seg.offset.toNat + seg.filesz.toNat ≤ img.len)
    (ret : Int32) (info : Option ElfInfo) :
    (storeSegment store run (seg.out ret info)).err = none ∧
    (storeSegment store run (seg.out ret info)).run.target =
      img.place mem seg run.target ∧
    run.Keeps (storeSegment store run (seg.out ret info)).run := by
  have hda : seg.paddr ≠ METAL_BAD_PHYS := hin.ne_bad hmem
  have hmap : remoteprocMmap run.rproc.mems run.rproc.ops
      (some METAL_BAD_PHYS) (some (seg.out ret info).da)
      (seg.out ret info).nmemsize run.io =
      ⟨metalIoPhysToVirt mem.io (remoteprocDatopa mem seg.paddr),
        remoteprocDatopa mem seg.paddr, seg.paddr, some mem.io⟩ :=
    remoteprocMmap_da run.rproc.ops hda hpos hsel _ (.inr rfl) run.io
  have hfetch := fetchSegment_of_serves (d := seg.out ret info) hserves
    { run with imgData := none, io := some mem.io }
    (remoteprocDatopa mem seg.paddr) himg
  unfold storeSegment
  rw [hmap]
  simp only [if_neg (remoteprocDatopa_ne_bad hmem hin)]
  generalize fetchSegment store
    { run with imgData := none, io := some mem.io } (seg.out ret info)
    (remoteprocDatopa mem seg.paddr) = fetched at hfetch
  obtain ⟨hok, htarget, hkeeps⟩ := hfetch
  rw [hok, if_pos rfl]
  refine ⟨rfl, ?_, ?_⟩
  · rw [padSegment_target, htarget]
    rfl
  · have hpad := padSegment_keeps fetched.2 (seg.out ret info)
      (remoteprocDatopa mem seg.paddr) mem.io
    exact ⟨hpad.rproc.trans hkeeps.rproc, hpad.info.trans hkeeps.info,
      hpad.offset.trans hkeeps.offset, hpad.len.trans hkeeps.len,
      hpad.lastLoadState.trans hkeeps.lastLoadState⟩

/-- A segment without memory is refused. -/
theorem storeSegment_empty (store : ImageStoreOps) (run : LoadRun) {seg : ElfSegment}
    (hzero : seg.memsz = 0) (ret : Int32) (info : Option ElfInfo) :
    (storeSegment store run (seg.out ret info)).err = some (-RPROC_EINVAL32) ∧
    (storeSegment store run (seg.out ret info)).run.target = run.target ∧
    run.Keeps (storeSegment store run (seg.out ret info)).run := by
  have hzero' : (seg.out ret info).nmemsize = 0 := hzero
  unfold storeSegment remoteprocMmap
  rw [if_pos (.inl hzero')]
  cases hio : run.io with
  | none => exact ⟨rfl, rfl, rfl, rfl, rfl, rfl, rfl⟩
  | some io => exact ⟨rfl, rfl, rfl, rfl, rfl, rfl, rfl⟩

/-- **A segment that fits a memory is stored there whole**: the bytes of
the file, then zeros. -/
theorem Image.place_of_fits (hmem : mem.Valid) {seg : ElfSegment}
    (hin : (MemKey.da seg.paddr).In mem)
    (hfit : seg.paddr.toNat + seg.memsz.toNat ≤ mem.da.toNat + mem.size.toNat)
    (hint : seg.memsz.toNat < 2 ^ 31) (hle : seg.filesz ≤ seg.memsz)
    (target : Mem) :
    img.place mem seg target = writeBytes target
      (remoteprocDatopa mem seg.paddr).toNat
      (img.segment seg.offset seg.filesz seg.memsz) := by
  have hle' := UInt64.le_iff_toNat_le.mp hle
  simp only [Image.place]
  split
  · next hlt =>
    have hlt' := UInt64.lt_iff_toNat_lt.mp hlt
    have h1 : mem.da.toNat ≤ seg.paddr.toNat := hin.1
    -- the padding begins behind the bytes of the file
    have hoff := physToOffset_behind hmem hin (n := seg.filesz) (by omega)
    have hsub : (seg.memsz - seg.filesz).toNat =
        seg.memsz.toNat - seg.filesz.toNat := UInt64.toNat_sub_of_le _ _ hle
    have hsize : mem.io.size.toNat = mem.size.toNat := by
      rw [hmem.covers.size_eq]
    generalize metalIoPhysToOffset mem.io
      (remoteprocDatopa mem seg.paddr + seg.filesz) = off at hoff
    have hlow : off < mem.size := by
      rw [UInt64.lt_iff_toNat_lt, hoff]
      omega
    have hplace : mem.pa.toNat + off.toNat =
        (remoteprocDatopa mem seg.paddr).toNat + seg.filesz.toNat := by
      rw [hoff, remoteprocDatopa_toNat hmem hin]
      omega
    simp only [metalIoBlockSet, if_neg (hmem.covers.mapped off hlow)]
    rw [clipLen_of_fits (by rw [hsub]; omega) (by rw [hsub, hoff, hsize]; omega),
      sizeToInt_count, hsub, Nat.mod_eq_of_lt (by omega),
      hmem.covers.physStore _ _ _ (by rw [List.length_replicate, hoff]; omega),
      hplace, Image.segment, ← writeBytes_append, length_readBytes]
  · next hlt =>
    rw [UInt64.lt_iff_toNat_lt] at hlt
    have hzero : seg.memsz.toNat - seg.filesz.toNat = 0 := by omega
    rw [Image.segment, hzero, List.replicate_zero, List.append_nil]

/-! ## Where a segment is written -/

/-- The region offset at which the padding begins. -/
def padStart (mem : RemoteprocMem) (d : DataOut) : UInt64 :=
  metalIoPhysToOffset mem.io (remoteprocDatopa mem d.da + d.nlen)

/-- How many bytes of padding are written. -/
def padCount (mem : RemoteprocMem) (d : DataOut) : Nat :=
  if d.nlen < d.nmemsize ∧ metalIoVirt mem.io (padStart mem d) ≠ 0 then
    (clipLen mem.io (padStart mem d)
      (sizeToInt (d.nmemsize - d.nlen))).toUInt32.toNat
  else 0

/-- The byte at a physical address is written when the segment is stored
in the memory: the store is asked for it, or the padding runs over it. -/
def SegmentWrites (mem : RemoteprocMem) (d : DataOut) (a : Nat) : Prop :=
  (∃ i < d.nlen.toNat, a = (remoteprocDatopa mem d.da).toNat + i) ∨
    ∃ i < padCount mem d, a = mem.pa.toNat + (padStart mem d).toNat + i

/-- The physical address belongs to the memory. -/
def RemoteprocMem.Holds (mem : RemoteprocMem) (a : Nat) : Prop :=
  mem.pa.toNat ≤ a ∧ a < mem.pa.toNat + mem.size.toNat

/-- Wherever the list sends the segment, it stays. -/
def SegmentInside (mems : List RemoteprocMem) (d : DataOut) : Prop :=
  ∀ mem, (MemKey.da d.da).select mems d.nmemsize = some mem →
    ∀ a, SegmentWrites mem d a → mem.Holds a

/-- The padding of the segment as an `int` counts it, as a number of bytes
and as the `size_t` it is compared with. -/
def padLen (d : DataOut) : Nat := (d.nmemsize.toNat - d.nlen.toNat) % 2 ^ 32

def padWide (d : DataOut) : Nat :=
  if padLen d < 2 ^ 31 then padLen d else padLen d + (2 ^ 64 - 2 ^ 32)

/-- The file part ends in the memory, and either the padding does too or
the cut at the end of the region sees that it does not. -/
def SegmentFits (mem : RemoteprocMem) (d : DataOut) : Prop :=
  d.da.toNat + d.nlen.toNat ≤ mem.da.toNat + mem.size.toNat ∧
  (d.nlen < d.nmemsize →
    d.da.toNat + d.nlen.toNat < mem.da.toNat + mem.size.toNat →
    d.da.toNat + d.nlen.toNat + padLen d ≤ mem.da.toNat + mem.size.toNat ∨
    mem.size.toNat <
      (d.da.toNat - mem.da.toNat + d.nlen.toNat + padWide d) % 2 ^ 64)

theorem padCount_of_done {d : DataOut} (h : ¬ d.nlen < d.nmemsize) :
    padCount mem d = 0 := if_neg fun hc => h hc.1

theorem padCount_at_end (hmem : mem.Valid) {d : DataOut}
    (hin : (MemKey.da d.da).In mem)
    (hend : d.da.toNat + d.nlen.toNat = mem.da.toNat + mem.size.toNat) :
    padCount mem d = 0 := by
  have h1 : mem.da.toNat ≤ d.da.toNat := hin.1
  have h3 := hmem.covers.nowrap
  have hpast := physToOffset_past hmem hin (n := d.nlen) (by omega)
    (by rw [remoteprocDatopa_toNat hmem hin]; omega)
  refine if_neg fun hc => hc.2 ?_
  rw [metalIoVirt, if_neg]
  rw [hmem.covers.size_eq]
  exact fun hlt => absurd hlt.2 (UInt64.not_lt.mpr hpast)

/-- The padding of a segment whose file part ends inside the memory. -/
theorem padCount_behind (hmem : mem.Valid) {d : DataOut}
    (hin : (MemKey.da d.da).In mem) (hlt : d.nlen < d.nmemsize)
    (hend : d.da.toNat + d.nlen.toNat < mem.da.toNat + mem.size.toNat) :
    padCount mem d =
      if mem.size.toNat <
        (d.da.toNat - mem.da.toNat + d.nlen.toNat + padWide d) % 2 ^ 64
      then (mem.size.toNat - (d.da.toNat - mem.da.toNat + d.nlen.toNat)) % 2 ^ 32
      else padLen d := by
  have h1 : mem.da.toNat ≤ d.da.toNat := hin.1
  have hoff : (padStart mem d).toNat = d.da.toNat - mem.da.toNat + d.nlen.toNat :=
    physToOffset_behind hmem hin hend
  have hlow : padStart mem d < mem.size := by
    rw [UInt64.lt_iff_toNat_lt, hoff]
    omega
  have hsub : (d.nmemsize - d.nlen).toNat = d.nmemsize.toNat - d.nlen.toNat :=
    UInt64.toNat_sub_of_le _ _ (UInt64.le_of_lt hlt)
  -- `metal_io_block_set` clips, with a sum of 64 bits
  have hcut : (mem.io.size < padStart mem d +
      intToSize (sizeToInt (d.nmemsize - d.nlen))) ↔ mem.size.toNat <
        (d.da.toNat - mem.da.toNat + d.nlen.toNat + padWide d) % 2 ^ 64 := by
    rw [hmem.covers.size_eq, UInt64.lt_iff_toNat_lt, UInt64.toNat_add, hoff,
      intToSize_sizeToInt, hsub]
    rfl
  have hrest : (mem.io.size - padStart mem d).toNat =
      mem.size.toNat - (d.da.toNat - mem.da.toNat + d.nlen.toNat) := by
    rw [hmem.covers.size_eq, UInt64.toNat_sub_of_le _ _ (UInt64.le_of_lt hlow),
      hoff]
  rw [padCount, if_pos ⟨hlt, hmem.covers.mapped _ hlow⟩, clipLen]
  simp only [hcut]
  split
  · rw [sizeToInt_count, hrest]
  · rw [sizeToInt_count, hsub, padLen]

/-- **A segment stays in its memory exactly when it fits.** -/
theorem segmentWrites_inside_iff (hmem : mem.Valid) {d : DataOut}
    (hin : (MemKey.da d.da).In mem) :
    (∀ a, SegmentWrites mem d a → mem.Holds a) ↔ SegmentFits mem d := by
  have h1 : mem.da.toNat ≤ d.da.toNat := hin.1
  have h2 : d.da.toNat < mem.da.toNat + mem.size.toNat := hin.2
  have hpa := remoteprocDatopa_toNat hmem hin
  constructor
  · intro h
    -- the last byte of the file part
    have hfile : d.da.toNat + d.nlen.toNat ≤ mem.da.toNat + mem.size.toNat := by
      by_contra hover
      have hlast := (h _ (.inl ⟨d.nlen.toNat - 1, by omega, rfl⟩)).2
      omega
    refine ⟨hfile, fun hlt hend => ?_⟩
    have hoff : (padStart mem d).toNat =
        d.da.toNat - mem.da.toNat + d.nlen.toNat :=
      physToOffset_behind hmem hin hend
    have hcount := padCount_behind hmem hin hlt hend
    by_contra hbad
    rw [not_or] at hbad
    rw [if_neg hbad.2] at hcount
    have hlast := (h _ (.inr ⟨padCount mem d - 1, by omega, rfl⟩)).2
    omega
  · rintro ⟨hfile, hpad⟩ a (⟨i, hi, rfl⟩ | ⟨i, hi, rfl⟩)
    · exact ⟨by omega, by omega⟩
    · by_cases hlt : d.nlen < d.nmemsize
      · by_cases hend : d.da.toNat + d.nlen.toNat <
            mem.da.toNat + mem.size.toNat
        · have hoff : (padStart mem d).toNat =
              d.da.toNat - mem.da.toNat + d.nlen.toNat :=
            physToOffset_behind hmem hin hend
          rw [padCount_behind hmem hin hlt hend] at hi
          have hpad := hpad hlt hend
          constructor
          · omega
          · split at hi
            · have := Nat.mod_le (mem.size.toNat -
                (d.da.toNat - mem.da.toNat + d.nlen.toNat)) (2 ^ 32)
              omega
            · omega
        · rw [padCount_at_end hmem hin (by omega)] at hi
          omega
      · rw [padCount_of_done hlt] at hi
        omega
/-- A store that writes nothing but what it is asked for. -/
def Contained (store : ImageStoreOps) : Prop :=
  ∀ n (offset size pa : UInt64) target a,
    ¬ (pa.toNat ≤ a ∧ a < pa.toNat + size.toNat) →
    (store.load n offset size (some pa) target).target a = target a

theorem fetchSegment_frame (hstore : Contained store) (run : LoadRun)
    {d : DataOut} {pa : UInt64} {a : Nat}
    (ha : ¬ ∃ i < d.nlen.toNat, a = pa.toNat + i) :
    (fetchSegment store run d pa).2.target a = run.target a := by
  unfold fetchSegment
  split
  · refine hstore run.calls.length d.noffset d.nlen pa run.target a fun h => ha ?_
    exact ⟨a - pa.toNat, by omega, by omega⟩
  · rfl

theorem padSegment_frame (hmem : mem.Valid) (run : LoadRun) {d : DataOut}
    (hfits : ∀ i < padCount mem d,
      mem.Holds (mem.pa.toNat + (padStart mem d).toNat + i))
    {a : Nat} (ha : ¬ ∃ i < padCount mem d,
      a = mem.pa.toNat + (padStart mem d).toNat + i) :
    (padSegment run d (remoteprocDatopa mem d.da) mem.io).target a =
      run.target a := by
  unfold padSegment
  split
  · next hlt =>
    change (metalIoBlockSet mem.io run.target (padStart mem d) d.padding
      (sizeToInt (d.nmemsize - d.nlen))).2 a = run.target a
    unfold metalIoBlockSet
    split
    · rfl
    · next hvirt =>
      have hcount : (clipLen mem.io (padStart mem d)
          (sizeToInt (d.nmemsize - d.nlen))).toUInt32.toNat = padCount mem d :=
        (if_pos ⟨hlt, hvirt⟩).symm
      have hroom : (padStart mem d).toNat + padCount mem d ≤ mem.size.toNat := by
        by_cases hzero : padCount mem d = 0
        · -- an empty padding still starts inside, else it had no address
          have hlow : padStart mem d < mem.io.size := by
            by_contra hge
            exact hvirt (if_neg fun hc => hge hc.2)
          rw [hmem.covers.size_eq, UInt64.lt_iff_toNat_lt] at hlow
          omega
        · have hlast := (hfits (padCount mem d - 1) (by omega)).2
          omega
      simp only [hcount]
      rw [hmem.covers.physStore _ _ _ (by rw [List.length_replicate]; omega)]
      refine agree_writeBytes (l := 1) ?_ a (Nat.le_refl _) (by omega)
      rw [List.length_replicate]
      by_contra hover
      refine ha ⟨a - (mem.pa.toNat + (padStart mem d).toNat), ?_, ?_⟩ <;> omega
  · rfl

/-- The memory in which a request is looked up, in unbounded numbers: the
first that holds the address and either the end as well, or an end that
passes the last address. -/
def MemKey.first (mems : List RemoteprocMem) (key : MemKey) (size : UInt64) :
    Option RemoteprocMem :=
  mems.find? fun mem =>
    (key.start mem).toNat ≤ key.addr.toNat ∧
    key.addr.toNat < (key.start mem).toNat + mem.size.toNat ∧
    (key.addr.toNat + size.toNat ≤ (key.start mem).toNat + mem.size.toNat ∨
      2 ^ 64 ≤ key.addr.toNat + size.toNat)

theorem MemKey.select_eq_first {key : MemKey} {size : UInt64}
    (hmems : ∀ mem ∈ mems, mem.Valid) :
    key.select mems size = key.first mems size := by
  by_cases hkey : key.addr = METAL_BAD_PHYS
  · rw [MemKey.select_bad hkey, eq_comm, MemKey.first, List.find?_eq_none]
    intro mem hmem hin
    have hin := of_decide_eq_true hin
    exact absurd hkey (MemKey.In.ne_bad (hmems mem hmem) ⟨hin.1, hin.2.1⟩)
  · rw [MemKey.select_eq hkey, MemKey.first]
    refine List.find?_congr fun mem hmem => ?_
    rw [Bool.eq_iff_iff, decide_eq_true_eq]
    exact inMemRange_iff _ _ ((hmems mem hmem).start_nowrap key)
/-- A segment changes nothing outside the memories of the list, as long as
it fits the one it goes to and the list has one for it. -/
theorem storeSegment_frame (hstore : Contained store) (run : LoadRun)
    {d : DataOut} (hmem : mem.Valid)
    (hsel : (MemKey.da d.da).select run.rproc.mems d.nmemsize = some mem)
    (hda : d.da ≠ METAL_BAD_PHYS)
    (hinside : ∀ a, SegmentWrites mem d a → mem.Holds a) {a : Nat}
    (ha : ¬ mem.Holds a) :
    (storeSegment store run d).run.target a = run.target a := by
  have hfile : ¬ ∃ i < d.nlen.toNat,
      a = (remoteprocDatopa mem d.da).toNat + i := fun h => ha (hinside a (.inl h))
  have hpad : ¬ ∃ i < padCount mem d,
      a = mem.pa.toNat + (padStart mem d).toNat + i :=
    fun h => ha (hinside a (.inr h))
  by_cases hzero : d.nmemsize = 0
  · -- nothing is mapped for a segment without memory
    unfold storeSegment remoteprocMmap
    rw [if_pos (.inl hzero)]
    cases run.io <;> rfl
  · have hmap := remoteprocMmap_da run.rproc.ops hda hzero hsel
      (some METAL_BAD_PHYS) (.inr rfl) run.io
    unfold storeSegment
    rw [hmap]
    simp only []
    have hfetch := fetchSegment_frame hstore
      { run with imgData := none, io := some mem.io } hfile
    split
    · rfl
    · split
      · rw [padSegment_frame hmem _ (fun i hi => hinside _ (.inr ⟨i, hi, rfl⟩))
          hpad]
        exact hfetch
      · exact hfetch

/-- One memory at `0x1000`, of `0x1000` bytes. -/
def pageMem : RemoteprocMem where
  da := 0x1000
  pa := 0x1000
  size := 0x1000
  name := []
  io := flatRegion 0x10000 0x1000 0x1000

theorem pageMem_valid : pageMem.Valid :=
  ⟨by decide, covers_flatRegion (by decide) (by decide) (by decide)⟩

/-- A remote processor with that memory and no hooks. -/
def pageRproc : Rproc where
  rscTable := 0
  rscLen := 0
  rscIo := none
  mems := [pageMem]
  bitmap := fun _ => 0
  ops := ⟨none, none⟩
  handleRsc := none
  bootaddr := 0
  loader := false
  state := .configured

end OpenAmp.Remoteproc
