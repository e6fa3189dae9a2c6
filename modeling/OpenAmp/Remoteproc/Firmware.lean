import OpenAmp.Remoteproc.DataRun
import OpenAmp.Remoteproc.RscSection

/-!
# Loading a well-formed firmware

`remoteproc_load` as a whole on a well-formed image: the headers, the
segments and the resource table, with a store that has the image. The
outcome is a function of the image, the memories and what was in target
memory before.
-/

namespace OpenAmp.Remoteproc

open OpenAmp.Lib OpenAmp.Metal

section Parts

variable {store : ImageStoreOps} {heap : Heap}

/-- The end of `remoteproc_load`, after the data. -/
def finishLoad (store : ImageStoreOps) (heap : Heap) (rsc : RscFound)
    (run : LoadRun) : LoadOut :=
  let found := if rsc.size = 0 then (locateRscTable store heap run rsc).val
    else (rsc, run)
  let run := updateRscTable found.2 found.1
  ⟨0, { run with rproc := { run.rproc with
    bootaddr := elfGetEntry run.info, state := .ready } }⟩

/-- The end of `remoteproc_load`, by how the data loop has ended. -/
def LoopEnd.out (store : ImageStoreOps) (heap : Heap) (rsc : RscFound)
    (e : LoopEnd) : LoadOut :=
  match e.err with
  | some err => ⟨err, e.run⟩
  | none => finishLoad store heap rsc e.run

/-- The parts of `remoteproc_load` one after another. -/
theorem loadImage_val {fuel : Nat} {run run₁ : LoadRun}
    (hheader : (headerLoop store heap fuel run 0 0).val = some ⟨none, run₁⟩)
    {rsc : RscFound} {run₂ : LoadRun}
    (hrsc : (locateRscTable store heap run₁ ⟨none, 0, 0, 0⟩).val = (rsc, run₂))
    {e : LoopEnd}
    (hdata : (dataLoop store heap fuel
      { run₂ with offset := 0, len := 0 }).val = some e) :
    (loadImage store heap fuel run).val = some (e.out store heap rsc) := by
  obtain ⟨err, run₃⟩ := e
  simp only [loadImage, Traced.val_bind]
  rw [hheader]
  simp only [Traced.val_bind, hrsc, hdata]
  cases err with
  | some err => rfl
  | none =>
    simp only [LoopEnd.out, finishLoad]
    by_cases hsize : rsc.size = 0
    · rw [if_pos hsize, if_pos hsize]
      rfl
    · rw [if_neg hsize, if_neg hsize]
      rfl

/-- An error of the header loop is the result. -/
theorem loadImage_header_error {fuel : Nat} {run run₁ : LoadRun} {err : Int32}
    (hheader : (headerLoop store heap fuel run 0 0).val =
      some ⟨some err, run₁⟩) :
    (loadImage store heap fuel run).val = some ⟨err, run₁⟩ := by
  simp only [loadImage, Traced.val_bind]
  rw [hheader]
  rfl

/-- `remoteproc_load` comes to an end when its two loops do. -/
theorem loadImage_settles {run : LoadRun} {P : LoadRun → Prop}
    {Q : RscFound → LoopEnd → Prop}
    (hheader : Settles (fun fuel => (headerLoop store heap fuel run 0 0).val)
      fun e => e.err = none ∧ P e.run)
    (hdata : ∀ run₁, P run₁ → ∃ rsc run₂,
      (locateRscTable store heap run₁ ⟨none, 0, 0, 0⟩).val = (rsc, run₂) ∧
      Settles (fun fuel => (dataLoop store heap fuel
        { run₂ with offset := 0, len := 0 }).val) (Q rsc)) :
    Settles (fun fuel => (loadImage store heap fuel run).val) fun out =>
      ∃ rsc e, Q rsc e ∧ out = e.out store heap rsc := by
  obtain ⟨⟨err, run₁⟩, ⟨herr, hP⟩, n, hn⟩ := hheader
  obtain rfl : err = none := herr
  obtain ⟨rsc, run₂, hlocate, e, hQ, m, hm⟩ := hdata run₁ hP
  refine ⟨_, ⟨rsc, e, hQ, rfl⟩, max n m, fun fuel hfuel => ?_⟩
  exact loadImage_val (hn fuel (by omega)) hlocate (hm fuel (by omega))

end Parts

/-! ## The resource table -/

section Locate

variable {store : ImageStoreOps} {heap : Heap}

/-- Locating and parsing, with what `elf_locate_rsc_table` answers. -/
theorem locateRscTable_val {run : LoadRun} {rsc : RscFound} {l : LocateOut}
    (h : (elfLocateRscTable run.info rsc.da rsc.offset rsc.size).val = l) :
    (locateRscTable store heap run rsc).val =
      if l.ret = 0 ∧ 0 < l.size then
        let got := remoteprocGetRscTable store heap run l.offset l.size
        (⟨got.1, l.da, l.offset, l.size⟩, got.2)
      else (⟨rsc.table, l.da, l.offset, l.size⟩, run) := by
  simp only [locateRscTable, Traced.val_bind, h, Traced.val_ite]
  rfl

/-- What locating the resource table leaves alone. -/
structure LoadRun.KeepsState (run run' : LoadRun) : Prop where
  info : run'.info = run.info
  lastLoadState : run'.lastLoadState = run.lastLoadState
  calls : run.calls ⊆ run'.calls
  state : run'.rproc.state = run.rproc.state
  bootaddr : run'.rproc.bootaddr = run.rproc.bootaddr

theorem LoadRun.KeepsState.refl (run : LoadRun) : run.KeepsState run :=
  ⟨rfl, rfl, fun _ h => h, rfl, rfl⟩

theorem remoteprocGetRscTable_keeps (store : ImageStoreOps) (heap : Heap)
    (run : LoadRun) (offset len : UInt64) :
    run.KeepsState (remoteprocGetRscTable store heap run offset len).2 := by
  have hask : run.KeepsState (run.ask store offset len none).2 :=
    ⟨rfl, rfl, List.subset_append_left _ _, rfl, rfl⟩
  unfold remoteprocGetRscTable
  generalize run.ask store offset len none = r at hask
  obtain ⟨ans, run'⟩ := r
  split
  · exact .refl run
  · simp only
    split
    · exact hask
    · split
      · exact hask
      · exact ⟨hask.1, hask.2, hask.3, hask.4, hask.5⟩

theorem locateRscTable_keeps (store : ImageStoreOps) (heap : Heap)
    (run : LoadRun) (rsc : RscFound) :
    run.KeepsState (locateRscTable store heap run rsc).val.2 := by
  rw [locateRscTable_val rfl]
  split
  · exact remoteprocGetRscTable_keeps store heap run _ _
  · exact .refl run

theorem updateRscTable_keeps (run : LoadRun) (rsc : RscFound) :
    run.KeepsState (updateRscTable run rsc) := by
  simp only [updateRscTable]
  split
  · exact .refl run
  · split
    · split
      · exact ⟨rfl, rfl, fun _ h => h, rfl, rfl⟩
      · exact ⟨rfl, rfl, fun _ h => h, rfl, rfl⟩
    · exact ⟨rfl, rfl, fun _ h => h, rfl, rfl⟩

theorem LoadRun.KeepsState.trans {run run' run'' : LoadRun}
    (h : run.KeepsState run') (h' : run'.KeepsState run'') :
    run.KeepsState run'' :=
  ⟨h'.1.trans h.1, h'.2.trans h.2, fun _ hc => h'.3 (h.3 hc), h'.4.trans h.4,
    h'.5.trans h.5⟩

end Locate

/-! ## From the open image on -/

/-- What the store hands out on opening is a first chunk of the image.
Where it ends before the class byte, the image has room for either
header. -/
structure FirstChunk (store : ImageStoreOps) (img : Image) : Prop where
  inside : store.openImg.1.toInt ≤ img.len
  bytes : ∀ i < store.openImg.1.toInt.toNat, store.openImg.2 i = img.bytes i
  known : 4 < store.openImg.1.toInt ∨ 64 ≤ img.len

/-- The first chunk is long enough to identify the image. -/
structure Opens (store : ImageStoreOps) (img : Image) : Prop
    extends FirstChunk store img where
  ident : 4 ≤ store.openImg.1.toInt

/-- The load is refused: the remote processor is in no state for it, the
image cannot be opened, or it is not identified. -/
def LoadRefused (store : ImageStoreOps) (rproc : Rproc) : Prop :=
  (rproc.state ≠ .ready ∧ rproc.state ≠ .configured) ∨
    store.openImg.1.toInt ≤ 0 ∨
    (rproc.loader = false ∧ store.openImg.1.toInt < 4)

/-- The variables of `remoteproc_load` when the image has been opened and
the loader is set. -/
def openedRun (store : ImageStoreOps) (rproc : Rproc) (target : Mem) : LoadRun where
  rproc := { rproc with loader := true }
  target := target
  calls := []
  info := none
  imgData := some store.openImg.2
  offset := 0
  len := intToSize store.openImg.1
  lastLoadState := RPROC_LOADER_NOT_READY
  io := none

/-- `remoteproc_load` fails at once, with nothing changed, or goes on with
the image. -/
theorem remoteprocLoad_cases (store : ImageStoreOps) (heap : Heap)
    (rproc : Rproc) (target : Mem) :
    (∀ fuel, (remoteprocLoad store heap fuel rproc target).val =
      some ⟨-RPROC_EINVAL32, { openedRun store rproc target with
        rproc := rproc }⟩) ∨
    0 < store.openImg.1.toInt ∧ ∀ fuel,
      remoteprocLoad store heap fuel rproc target =
        loadImage store heap fuel (openedRun store rproc target) := by
  by_cases hstate : rproc.state ≠ .ready ∧ rproc.state ≠ .configured
  · refine .inl fun fuel => ?_
    simp only [remoteprocLoad, if_pos hstate, Traced.val_pure]
    rfl
  by_cases hpos : store.openImg.1 ≤ 0
  · refine .inl fun fuel => ?_
    simp only [remoteprocLoad, if_neg hstate, if_pos hpos, Traced.val_pure]
    rfl
  by_cases hid : rproc.loader = false ∧
      elfIdentify store.openImg.2 (intToSize store.openImg.1) = false
  · refine .inl fun fuel => ?_
    simp only [remoteprocLoad, if_neg hstate, if_neg hpos, if_pos hid,
      Traced.val_pure]
    rfl
  refine .inr ⟨?_, fun fuel => ?_⟩
  · rw [Int32.le_iff_toInt_le] at hpos
    exact Int.not_le.mp hpos
  · simp only [remoteprocLoad, if_neg hstate, if_neg hpos, if_neg hid]
    rfl

section Open

variable {store : ImageStoreOps} {heap : Heap} {img : Image} {rproc : Rproc}

theorem LoadRefused.len_toNat (hgo : ¬ LoadRefused store rproc) :
    (intToSize store.openImg.1).toNat = store.openImg.1.toInt.toNat := by
  have hpos : ¬ store.openImg.1.toInt ≤ 0 := fun h => hgo (.inr (.inl h))
  exact toNat_intToSize (by omega)

theorem FirstChunk.opened (hopen : FirstChunk store img)
    (hgo : ¬ LoadRefused store rproc) (target : Mem) :
    Opened img (openedRun store rproc target) where
  info := rfl
  state := rfl
  offset := rfl
  chunk := by
    have h2 := hopen.inside
    refine ⟨?_, fun i hi => ?_⟩
    · change 0 + (intToSize store.openImg.1).toNat ≤ img.len
      rw [LoadRefused.len_toNat hgo]
      omega
    · change i < (intToSize store.openImg.1).toNat at hi
      rw [LoadRefused.len_toNat hgo] at hi
      rw [UInt64.toNat_zero, Nat.zero_add]
      exact hopen.bytes i hi

theorem FirstChunk.class_known (hopen : FirstChunk store img)
    (hgo : ¬ LoadRefused store rproc) (target : Mem) :
    EI_CLASS < (openedRun store rproc target).len.toNat ∨ 64 ≤ img.len := by
  refine hopen.known.imp (fun h => ?_) id
  change 4 < (intToSize store.openImg.1).toNat
  rw [LoadRefused.len_toNat hgo]
  omega

/-- The stage in which the header loop ends. -/
def Image.headerStage (img : Image) (store : ImageStoreOps) : HdrStage :=
  let len := img.headerLen store.openImg.2 (intToSize store.openImg.1)
  img.settle store.seek 3 0 len (img.advance 0 len .phdrs)

/-- A well-formed image is identified by its first four bytes. -/
theorem FirstChunk.identified (hopen : FirstChunk store img)
    (hwf : img.WellFormed) (hident : 4 ≤ store.openImg.1.toInt) :
    elfIdentify store.openImg.2 (intToSize store.openImg.1) = true := by
  have hmagic : readBytes store.openImg.2 0 4 = readBytes img.bytes 0 4 := by
    refine List.map_congr_left fun i hi => ?_
    have hi := List.mem_range.mp hi
    rw [Nat.zero_add]
    exact hopen.bytes i (by omega)
  have hlen : (4 : UInt64) ≤ intToSize store.openImg.1 := by
    rw [UInt64.le_iff_toNat_le, toNat_intToSize (by omega)]
    change 4 ≤ _
    omega
  simp only [elfIdentify, hmagic, hwf.magic, hlen, and_self, decide_true]

theorem Opens.go (hopen : Opens store img)
    (hstate : rproc.state = .ready ∨ rproc.state = .configured) :
    ¬ LoadRefused store rproc := by
  have hident := hopen.ident
  rintro (⟨h1, h2⟩ | h | ⟨-, h⟩)
  · exact hstate.elim h1 h2
  · omega
  · omega

theorem Image.headerStage_ne_phdrs (img : Image) (store : ImageStoreOps) :
    img.headerStage store ≠ .phdrs :=
  img.settle_ne_phdrs store.seek 3 _ _ _ (Nat.le_add_right 3 _)

theorem Image.headerStage_ok (img : Image) (store : ImageStoreOps) :
    img.StageOk (img.headerStage store) := by
  refine img.settle_ok store.seek 3 _ _ _ (img.advance_ok ?_ _ _)
  rintro (h | h) <;> cases h

/-- `remoteproc_load` of a well-formed image, when it is not refused. -/
theorem remoteprocLoad_opened (hopen : FirstChunk store img)
    (hwf : img.WellFormed) (hgo : ¬ LoadRefused store rproc) (target : Mem)
    (fuel : Nat) :
    remoteprocLoad store heap fuel rproc target =
      loadImage store heap fuel (openedRun store rproc target) := by
  have hst : ¬ (rproc.state ≠ .ready ∧ rproc.state ≠ .configured) :=
    fun h => hgo (.inl h)
  have hpos : ¬ store.openImg.1 ≤ 0 := by
    rw [Int32.le_iff_toInt_le]
    exact fun h => hgo (.inr (.inl h))
  have hid : ¬ (rproc.loader = false ∧
      elfIdentify store.openImg.2 (intToSize store.openImg.1) = false) := by
    rintro ⟨hloader, h⟩
    have hident : ¬ store.openImg.1.toInt < 4 :=
      fun h => hgo (.inr (.inr ⟨hloader, h⟩))
    rw [hopen.identified hwf (by omega)] at h
    cases h
  simp only [remoteprocLoad, if_neg hst, if_neg hpos, if_neg hid]
  rfl

end Open

/-! ## Without a resource table -/

/-- Where a segment goes in target memory: its address translated by the
memory that holds it. -/
def placeOf (mems : List RemoteprocMem) (seg : ElfSegment) : Nat :=
  match (MemKey.da seg.paddr).first mems seg.memsz with
  | some mem => mem.pa.toNat + (seg.paddr.toNat - mem.da.toNat)
  | none => 0

/-- The segment fits a registered memory and an `int`, and its bytes are
in the image. -/
structure Image.Fits (img : Image) (mems : List RemoteprocMem)
    (seg : ElfSegment) : Prop where
  filesz_le : seg.filesz ≤ seg.memsz
  memsz_pos : 0 < seg.memsz
  memsz_lt : seg.memsz.toNat < 2 ^ 31
  inside : ∃ mem ∈ mems, (MemKey.da seg.paddr).Inside seg.memsz mem
  bytes : 0 < seg.filesz → seg.offset.toNat + seg.filesz.toNat ≤ img.len

/-- What is left in target memory when all loadable segments are in
place. -/
def Image.program (img : Image) (mems : List RemoteprocMem) (target : Mem) :
    Mem :=
  img.loads.foldl (fun m seg => writeBytes m (placeOf mems seg)
    (img.segment seg.offset seg.filesz seg.memsz)) target

section Program

variable {store : ImageStoreOps} {heap : Heap} {img : Image}
  {mems : List RemoteprocMem}

theorem Image.registered_of_fits (h : ∀ seg ∈ img.loads, img.Fits mems seg) :
    img.Registered mems := by
  intro seg hseg
  have hfits := h seg hseg
  obtain ⟨mem, hmem, hinside⟩ := hfits.inside
  have hpos := UInt64.lt_iff_toNat_lt.mp hfits.memsz_pos
  rw [UInt64.toNat_zero] at hpos
  have h2 := hinside.2
  exact ⟨⟨mem, hmem, ⟨hinside.1, by omega⟩, hinside⟩, hfits.bytes⟩

/-- Segments that fit are all placed, as plain writes. -/
theorem Image.placeAll_of_fits (hmems : ∀ mem ∈ mems, mem.Valid)
    (hreg : img.Registered mems) (loads : List ElfSegment) :
    (∀ seg ∈ loads, seg ∈ img.loads ∧ img.Fits mems seg) → ∀ target,
    img.placeAll mems loads target =
      (loads.foldl (fun m seg => writeBytes m (placeOf mems seg)
        (img.segment seg.offset seg.filesz seg.memsz)) target, true) := by
  induction loads with
  | nil => intro _ target; rfl
  | cons seg rest ih =>
    intro h target
    obtain ⟨hseg, hfits⟩ := h seg (by simp)
    obtain ⟨mem, hmem, hin, hinside, hsel⟩ := hreg.select hmems hseg
    have hpos : seg.memsz ≠ 0 := by
      intro hzero
      have hlt := hfits.memsz_pos
      rw [hzero] at hlt
      exact absurd hlt (by decide)
    have hplace : placeOf mems seg = (remoteprocDatopa mem seg.paddr).toNat := by
      rw [remoteprocDatopa_toNat hmem hin, placeOf,
        ← MemKey.select_eq_first hmems, hsel]
    rw [Image.placeAll, hsel]
    simp only [if_neg hpos, List.foldl_cons]
    rw [ih (fun s hs => h s (by simp [hs])), hplace,
      img.place_of_fits hmem hin hinside.2 hfits.memsz_lt hfits.filesz_le]

/-- Without a resource table there is nothing to locate. -/
theorem locateRscTable_none (hwf : img.WellFormed) (hnone : img.rscSection = none)
    {run : LoadRun} {phase : LoadPhase} {k : Nat}
    (hinfo : run.info = some (img.infoAt heap .complete phase k)) :
    (locateRscTable store heap run ⟨none, 0, 0, 0⟩).val =
      (⟨none, 0, 0, 0⟩, run) := by
  have hval := img.elfLocateRscTable_complete hwf heap phase k 0 0 0
  rw [hnone, ← hinfo] at hval
  exact (locateRscTable_val hval).trans (if_neg (by simp))

/-- **The program is placed.** A well-formed image without a resource
table, whose segments fit the registered memories, is loaded: the load
succeeds, the remote processor is ready to start at the entry point, and
target memory is what it was with each loadable segment written in turn. -/
theorem load_places_program {rproc : Rproc} (hwf : img.WellFormed)
    (hopen : Opens store img) (hserves : Serves store img)
    (hseek : store.seek = true) (halloc : ∀ size, heap.alloc size = true)
    (hstate : rproc.state = .ready ∨ rproc.state = .configured)
    (hmems : ∀ mem ∈ rproc.mems, mem.Valid)
    (hfits : ∀ seg ∈ img.loads, img.Fits rproc.mems seg)
    (hnone : ∀ i < img.ehdr.shnum.toNat, ¬ img.IsRscTable i) (target : Mem) :
    Settles (fun fuel => (remoteprocLoad store heap fuel rproc target).val)
      fun out => out.ret = 0 ∧ out.run.rproc.state = .ready ∧
        out.run.rproc.bootaddr = img.ehdr.entry ∧
        out.run.target = img.program rproc.mems target := by
  have hreg := img.registered_of_fits hfits
  have hsection : img.rscSection = none := by
    rw [Image.rscSection, List.find?_eq_none]
    intro i hi
    simpa using hnone i (List.mem_range.mp hi)
  have hgo := hopen.go hstate
  have hheader := headerLoop_opened hserves hwf halloc
    (hopen.opened hgo target) (hopen.class_known hgo target) 0 0
  simp only [hseek, img.settle_seek 3 _ _ _ (Nat.le_add_right 3 _)] at hheader
  have hload := loadImage_settles
    (P := fun run => HeadersAt img heap (openedRun store rproc target) run
      .complete)
    (Q := fun rsc e => rsc = ⟨none, 0, 0, 0⟩ ∧
      DataDone img heap (openedRun store rproc target)
        (img.program rproc.mems target) .complete e) hheader ?_
  · simp only [remoteprocLoad_opened hopen.toFirstChunk hwf hgo]
    refine hload.mono ?_
    rintro out ⟨rsc, e, ⟨rfl, hdone⟩, rfl⟩
    obtain ⟨k, hinfo⟩ := hdone.info
    have hfinish : e.out store heap ⟨none, 0, 0, 0⟩ =
        ⟨0, { e.run with rproc := { e.run.rproc with
          bootaddr := elfGetEntry e.run.info, state := .ready } }⟩ := by
      simp only [LoopEnd.out, hdone.err, finishLoad,
        locateRscTable_none hwf hsection hinfo, if_true, updateRscTable]
    have hentry : elfGetEntry e.run.info = img.ehdr.entry := by
      rw [hinfo]
      rfl
    rw [hfinish]
    exact ⟨rfl, rfl, hentry, hdone.target⟩
  · intro run₁ hat
    refine ⟨_, run₁, locateRscTable_none hwf hsection hat.info, ?_⟩
    have hok : img.StageOk .complete := by
      rintro (h | h) <;> cases h
    have hdata := dataLoop_ready hserves hwf halloc hmems hreg
      (img.ehdr.phnum.toNat + 1) { run₁ with offset := 0, len := 0 } .complete 0
      (by omega) (by rw [hat.rproc]; rfl) ⟨hat.info, hat.state⟩ (by decide) hok
      (by decide) (by omega) rfl rfl
    refine hdata.mono fun e he => ⟨rfl, ?_⟩
    have hplaced : img.placeAll run₁.rproc.mems (loadsFrom img.segmentAt
        img.ehdr.phnum.toNat 0) run₁.target =
        (img.program rproc.mems target, true) := by
      rw [hat.rproc, hat.target, ← img.loads_eq]
      exact img.placeAll_of_fits hmems hreg img.loads
        (fun seg hseg => ⟨hseg, hfits seg hseg⟩) target
    simp only [DataEnd, hplaced, if_true, ite_self] at he
    exact ⟨he.err, he.target, he.rproc.trans hat.rproc, he.info⟩

end Program

/-- One segment of four bytes, with four more in memory. -/
def oneSegment : Image :=
  .ofBytes (elf32Ehdr 1 0 0 0 ++ elf32Phdr 1 84 0x1010 4 8 ++ [1, 2, 3, 4])

theorem oneSegment_loads : oneSegment.loads = [⟨1, 84, 0x1010, 4, 8⟩] := by
  decide +kernel

theorem oneSegment_wellFormed : oneSegment.WellFormed where
  len_lt := by decide +kernel
  magic := by decide +kernel
  ehdr_in := by decide +kernel
  phentsize := by decide +kernel
  phnum_le := by decide +kernel
  phdrs_in := by decide +kernel
  shentsize := by decide +kernel
  shdrs_in h := absurd (by decide +kernel) h
  shstrndx_lt h := absurd (by decide +kernel) h
  strtab_in h := absurd (by decide +kernel) h
  name_lt i h := by
    have hzero : oneSegment.ehdr.shnum.toNat = 0 := by decide +kernel
    omega
  terminated h := absurd (by decide +kernel) h

/-- A heap that never fails. -/
def plainHeap : Heap := ⟨fun _ => true, fun _ => 0⟩

theorem load_places_oneSegment :
    oneSegment.WellFormed ∧
    Settles (fun fuel => (remoteprocLoad (oneSegment.store 60 true) plainHeap fuel
      pageRproc fun _ => 0xFF).val) fun out => out.ret = 0 ∧
        out.run.rproc.state = .ready ∧
        out.run.rproc.bootaddr = oneSegment.ehdr.entry ∧
        out.run.target = oneSegment.program [pageMem] fun _ => 0xFF := by
  refine ⟨oneSegment_wellFormed, load_places_program oneSegment_wellFormed
    ⟨⟨by decide +kernel, fun _ _ => rfl, .inl (by decide)⟩, by decide⟩
    (oneSegment.serves_store 60 true) rfl (fun _ => rfl) (.inr rfl) ?_ ?_ ?_ _⟩
  · intro mem hmem
    rw [List.mem_singleton.mp hmem]
    exact pageMem_valid
  · intro seg hseg
    rw [oneSegment_loads, List.mem_singleton] at hseg
    subst hseg
    exact ⟨by decide, by decide, by decide,
      ⟨pageMem, by simp [pageRproc], by decide, by decide⟩,
      fun _ => by decide +kernel⟩
  · intro i hi
    have hzero : oneSegment.ehdr.shnum.toNat = 0 := by decide +kernel
    omega

end OpenAmp.Remoteproc
