import OpenAmp.Remoteproc.Firmware

/-!
# Loading with and without seeking

With a store that can seek, the section headers come before the data.
Without, the header loop may stop before them; they are then read after
the data, but only if the last program header is that of a loadable
segment. Where they are never read the resource table is not found, and
the load succeeds all the same. This module computes both outcomes and
says exactly when they agree.
-/

namespace OpenAmp.Remoteproc

open OpenAmp.Lib OpenAmp.Metal

/-! ## The resource table -/

/-- The local copy of the resource table at `offset`, after its entries
have been handled, if that goes well, and the notify ids then in use. -/
def Image.readRsc (img : Image) (heap : Heap) (rproc : Rproc)
    (offset len : UInt64) : Option Mem × Bitmap :=
  if sizeToInt len < 0 then (none, rproc.bitmap)
  else
    let table : Mem := fun i =>
      if i < len.toNat then img.bytes (offset.toNat + i) else heap.beyond i
    let r := (Parser.handleRscTable
      ⟨rproc.mems, rproc.ops, rproc.handleRsc, len⟩ 0 none
      ⟨table, rproc.bitmap⟩).val
    (if r.1 < 0 then none else some r.2.mem, r.2.bitmap)

/-- The resource table is in the image and, where it has a size, in a
registered memory. -/
def Image.RscRegistered (img : Image) (mems : List RemoteprocMem) : Prop :=
  ∀ i, img.rscSection = some i → 0 < (img.sectionAt i).size →
    (img.sectionAt i).offset.toNat + (img.sectionAt i).size.toNat ≤ img.len ∧
    ∃ mem ∈ mems,
      (MemKey.da (img.sectionAt i).addr).Inside (img.sectionAt i).size mem

/-- What is known of the resource table once all headers are loaded. -/
def Image.rscFound (img : Image) (heap : Heap) (rproc : Rproc) :
    RscFound × Bitmap :=
  match img.rscSection with
  | none => (⟨none, 0, 0, 0⟩, rproc.bitmap)
  | some i =>
    let sec := img.sectionAt i
    if 0 < sec.size then
      let r := img.readRsc heap rproc sec.offset sec.size
      (⟨r.1, sec.addr, sec.offset, sec.size⟩, r.2)
    else (⟨none, sec.addr, sec.offset, sec.size⟩, rproc.bitmap)

section Table

variable {store : ImageStoreOps} {heap : Heap} {img : Image}

theorem remoteprocGetRscTable_served (hserves : Serves store img)
    (halloc : ∀ size, heap.alloc size = true) (run : LoadRun)
    {offset len : UInt64} (hin : offset.toNat + len.toNat ≤ img.len) :
    ∃ calls, remoteprocGetRscTable store heap run offset len =
      ((img.readRsc heap run.rproc offset len).1,
        { run with
          calls := calls
          rproc := { run.rproc with
            bitmap := (img.readRsc heap run.rproc offset len).2 } }) := by
  obtain ⟨data, hdata, hbytes⟩ :=
    hserves.data run.calls.length offset len run.target hin
  have hret := hserves.ret run.calls.length offset len none run.target hin
  have htable : (fun i => if i < len.toNat then data i else heap.beyond i) =
      fun i => if i < len.toNat then img.bytes (offset.toNat + i)
        else heap.beyond i := by
    funext i
    by_cases hi : i < len.toNat
    · rw [if_pos hi, if_pos hi, hbytes i hi]
    · rw [if_neg hi, if_neg hi]
  refine ⟨run.calls ++ [⟨offset, len, none, sizeToInt len⟩], ?_⟩
  simp only [remoteprocGetRscTable, halloc, LoadRun.ask, hdata, hret, htable,
    Image.readRsc]
  by_cases hneg : sizeToInt len < 0
  · simp [hneg]
  · simp [hneg]

/-- Locating the table with all headers at hand. -/
theorem locateRscTable_complete (hserves : Serves store img)
    (hwf : img.WellFormed) (halloc : ∀ size, heap.alloc size = true)
    (run : LoadRun) (hreg : img.RscRegistered run.rproc.mems)
    {phase : LoadPhase} {k : Nat}
    (hinfo : run.info = some (img.infoAt heap .complete phase k)) :
    ∃ calls, (locateRscTable store heap run ⟨none, 0, 0, 0⟩).val =
      ((img.rscFound heap run.rproc).1, { run with
        calls := calls
        rproc := { run.rproc with
          bitmap := (img.rscFound heap run.rproc).2 } }) := by
  have hval := img.elfLocateRscTable_complete hwf heap phase k 0 0 0
  rw [← hinfo] at hval
  cases hsec : img.rscSection with
  | none =>
    rw [hsec] at hval
    refine ⟨run.calls, (locateRscTable_val hval).trans ?_⟩
    simp [Image.rscFound, hsec]
  | some i =>
    rw [hsec] at hval
    by_cases hpos : 0 < (img.sectionAt i).size
    · obtain ⟨calls, hget⟩ := remoteprocGetRscTable_served hserves halloc run
        (hreg i hsec hpos).1
      refine ⟨calls, (locateRscTable_val hval).trans
        ((if_pos ⟨rfl, hpos⟩).trans ?_)⟩
      simp only [hget, Image.rscFound, hsec, if_pos hpos]
    · refine ⟨run.calls, (locateRscTable_val hval).trans
        ((if_neg fun h => hpos h.2).trans ?_)⟩
      simp only [Image.rscFound, hsec, if_neg hpos]

/-- Looking again for an empty table. -/
theorem locateRscTable_again (hwf : img.WellFormed) {run : LoadRun}
    {rproc : Rproc} {phase : LoadPhase} {k : Nat}
    (hinfo : run.info = some (img.infoAt heap .complete phase k))
    (hzero : (img.rscFound heap rproc).1.size = 0) :
    (locateRscTable store heap run (img.rscFound heap rproc).1).val =
      ((img.rscFound heap rproc).1, run) := by
  have hval := img.elfLocateRscTable_complete hwf heap phase k
    (img.rscFound heap rproc).1.da (img.rscFound heap rproc).1.offset
    (img.rscFound heap rproc).1.size
  rw [← hinfo] at hval
  cases hsec : img.rscSection with
  | none =>
    rw [hsec] at hval
    refine (locateRscTable_val hval).trans ((if_neg (by simp)).trans ?_)
    simp only [Image.rscFound, hsec]
  | some i =>
    rw [hsec] at hval
    have hpos : ¬ 0 < (img.sectionAt i).size := by
      intro hpos
      simp only [Image.rscFound, hsec, if_pos hpos] at hzero
      rw [hzero] at hpos
      exact absurd hpos (by decide)
    refine (locateRscTable_val hval).trans ((if_neg fun h => hpos h.2).trans ?_)
    simp only [Image.rscFound, hsec, if_neg hpos]

/-- Without all headers the table is not found. -/
theorem locateRscTable_missing {run : LoadRun} {stage : HdrStage}
    (hstage : stage ≠ .complete) {phase : LoadPhase} {k : Nat}
    (hinfo : run.info = some (img.infoAt heap stage phase k)) :
    (locateRscTable store heap run ⟨none, 0, 0, 0⟩).val =
      (⟨none, 0, 0, 0⟩, run) := by
  have hval := img.elfLocateRscTable_missing heap hstage phase k 0 0 0
  rw [← hinfo] at hval
  exact (locateRscTable_val hval).trans (if_neg (by decide))

end Table

/-! ## The outcome -/

/-- Target memory and what `struct remoteproc` says of the resource
table. -/
structure RscView where
  target : Mem
  rscTable : UInt64
  rscLen : UInt64
  rscIo : Option MetalIoRegion

def LoadRun.rscView (run : LoadRun) : RscView :=
  ⟨run.target, run.rproc.rscTable, run.rproc.rscLen, run.rproc.rscIo⟩

/-- The resource table put in its place in target memory. -/
def RscFound.install (rsc : RscFound) (mems : List RemoteprocMem)
    (v : RscView) : RscView :=
  match rsc.table, (MemKey.da rsc.da).select mems rsc.size with
  | some table, some mem =>
    let va := metalIoPhysToVirt mem.io (remoteprocDatopa mem rsc.da)
    { target := (metalIoBlockStore mem.io v.target
        (metalIoVirtToOffset mem.io va) table (sizeToInt rsc.size)).2
      rscTable := va
      rscLen := rsc.size
      rscIo := some mem.io }
  | _, _ => v

/-- What a load can be told by. -/
structure LoadView where
  ret : Int32
  bootaddr : UInt64
  rsc : RscView

def LoadOut.view (out : LoadOut) : LoadView :=
  ⟨out.ret, out.run.rproc.bootaddr, out.run.rscView⟩

/-- What `remoteproc_load` makes of an image: with all headers, or
without. -/
def Image.outcome (img : Image) (heap : Heap) (rproc : Rproc) (target : Mem)
    (headers : Bool) : LoadView :=
  let placed := img.placeAll rproc.mems img.loads target
  let v : RscView := ⟨placed.1, rproc.rscTable, rproc.rscLen, rproc.rscIo⟩
  if placed.2 then
    ⟨0, img.ehdr.entry,
      if headers then (img.rscFound heap rproc).1.install rproc.mems v else v⟩
  else ⟨-RPROC_EINVAL32, rproc.bootaddr, v⟩

section Outcome

variable {store : ImageStoreOps} {heap : Heap} {img : Image}

/-- The address of a byte in a valid memory is not null. -/
theorem physToVirt_ne_zero {mem : RemoteprocMem} (hmem : mem.Valid)
    {da : UInt64} (hin : (MemKey.da da).In mem) :
    metalIoPhysToVirt mem.io (remoteprocDatopa mem da) ≠ 0 := by
  have h1 : mem.da.toNat ≤ da.toNat := hin.1
  have h2 : da.toNat < mem.da.toNat + mem.size.toNat := hin.2
  have hoff := physToOffset_behind hmem hin (n := 0) (by simpa using h2)
  rw [UInt64.add_zero, UInt64.toNat_zero, Nat.add_zero] at hoff
  refine hmem.covers.mapped _ ?_
  rw [UInt64.lt_iff_toNat_lt, hoff]
  omega

/-- A table that was read has a size and a memory. -/
theorem rscFound_select {rproc : Rproc} (hmems : ∀ mem ∈ rproc.mems, mem.Valid)
    (hreg : img.RscRegistered rproc.mems) {table : Mem}
    (h : (img.rscFound heap rproc).1.table = some table) :
    (img.rscFound heap rproc).1.size ≠ 0 ∧ ∃ mem, mem.Valid ∧
      (MemKey.da (img.rscFound heap rproc).1.da).In mem ∧
      (MemKey.da (img.rscFound heap rproc).1.da).select rproc.mems
        (img.rscFound heap rproc).1.size = some mem := by
  cases hsec : img.rscSection with
  | none =>
    simp only [Image.rscFound, hsec] at h
    cases h
  | some i =>
    by_cases hpos : 0 < (img.sectionAt i).size
    · obtain ⟨-, mem, hmem, hinside⟩ := hreg i hsec hpos
      have hpos' := UInt64.lt_iff_toNat_lt.mp hpos
      rw [UInt64.toNat_zero] at hpos'
      have h2 := hinside.2
      have hin : (MemKey.da (img.sectionAt i).addr).In mem :=
        ⟨hinside.1, by omega⟩
      obtain ⟨found, hfound⟩ :=
        MemKey.select_isSome hmems hmem hin (.inl hinside)
      -- the section ends inside a memory, so its end does not wrap
      have hwrap : (MemKey.da (img.sectionAt i).addr).addr.toNat +
          (img.sectionAt i).size.toNat < 2 ^ 64 :=
        Nat.lt_of_le_of_lt hinside.2 ((hmems mem hmem).start_nowrap _)
      obtain ⟨hmem', hin', -⟩ := MemKey.select_inside hmems hwrap hfound
      simp only [Image.rscFound, hsec, if_pos hpos]
      refine ⟨fun hzero => ?_, found, hmems found hmem', hin', hfound⟩
      rw [hzero] at hpos
      exact absurd hpos (by decide)
    · simp only [Image.rscFound, hsec, if_neg hpos] at h
      cases h

/-- "Update resource table" puts the table in its place. -/
theorem updateRscTable_view (heap : Heap) {run : LoadRun} {rproc : Rproc}
    (hrproc : run.rproc.mems = rproc.mems)
    (hmems : ∀ mem ∈ rproc.mems, mem.Valid)
    (hreg : img.RscRegistered rproc.mems) :
    (updateRscTable run (img.rscFound heap rproc).1).rscView =
      (img.rscFound heap rproc).1.install rproc.mems run.rscView ∧
    (updateRscTable run (img.rscFound heap rproc).1).info = run.info := by
  cases htable : (img.rscFound heap rproc).1.table with
  | none => simp only [updateRscTable, RscFound.install, htable, and_self]
  | some table =>
    obtain ⟨hsize, mem, hmem, hin, hsel⟩ := rscFound_select hmems hreg htable
    have hda : (img.rscFound heap rproc).1.da ≠ METAL_BAD_PHYS := hin.ne_bad hmem
    have hmap := remoteprocMmap_da run.rproc.ops hda hsize hsel none (.inl rfl)
      run.io
    have hva := physToVirt_ne_zero hmem hin
    simp only [updateRscTable, RscFound.install, htable, hrproc, hsel]
    rw [hmap]
    simp only [if_pos hva]
    exact ⟨rfl, trivial⟩

/-- The end of a load that has all headers. -/
theorem finishLoad_view {run : LoadRun} {rproc : Rproc} {rsc : RscFound}
    (run' : LoadRun)
    (hfound : (if rsc.size = 0 then (locateRscTable store heap run rsc).val
      else (rsc, run)) = ((img.rscFound heap rproc).1, run'))
    (hrproc : run'.rproc.mems = rproc.mems)
    (hmems : ∀ mem ∈ rproc.mems, mem.Valid)
    (hreg : img.RscRegistered rproc.mems) {phase : LoadPhase} {k : Nat}
    (hinfo : run'.info = some (img.infoAt heap .complete phase k)) :
    (finishLoad store heap rsc run).view = ⟨0, img.ehdr.entry,
      (img.rscFound heap rproc).1.install rproc.mems run'.rscView⟩ := by
  obtain ⟨hview, hkeep⟩ := updateRscTable_view heap hrproc hmems hreg
  simp only [finishLoad, hfound, LoadOut.view]
  rw [← hview, hkeep, hinfo]
  rfl

/-- The end of the data loop, as it shows in the outcome. -/
theorem DataEnd.view {run : LoadRun} {stage : HdrStage}
    {e : LoopEnd} (h : DataEnd img heap run stage img.loads e) :
    let placed := img.placeAll run.rproc.mems img.loads run.target
    e.run.rproc = run.rproc ∧
    e.run.rscView = ⟨placed.1, run.rproc.rscTable, run.rproc.rscLen,
      run.rproc.rscIo⟩ ∧
    if placed.2 then e.err = none ∧ ∃ k, e.run.info = some (img.infoAt heap
      (if img.EndsLoad then .complete else stage) .complete k)
    else e.err = some (-RPROC_EINVAL32) := by
  intro placed
  simp only [DataEnd] at h
  simp only [LoadRun.rscView]
  by_cases hok : (img.placeAll run.rproc.mems img.loads run.target).2 = true
  · rw [if_pos hok] at h
    rw [if_pos hok, h.rproc, h.target]
    exact ⟨rfl, rfl, h.err, h.info⟩
  · rw [if_neg hok] at h
    rw [if_neg hok, h.2.2, h.2.1]
    exact ⟨rfl, rfl, h.1⟩

theorem DataEnd.done {run : LoadRun} {stage : HdrStage} {e : LoopEnd}
    (h : DataEnd img heap run stage img.loads e) (herr : e.err = none) :
    e.run.rproc = run.rproc ∧ ∃ k, e.run.info = some (img.infoAt heap
      (if img.EndsLoad then .complete else stage) .complete k) := by
  obtain ⟨hrproc, -, hend⟩ := h.view
  split at hend
  · exact ⟨hrproc, hend.2⟩
  · rw [herr] at hend
    cases hend

/-- The outcome, from the end of the data loop on. -/
theorem LoopEnd.out_view (store : ImageStoreOps) {run : LoadRun}
    {stage : HdrStage} {e : LoopEnd}
    (h : DataEnd img heap run stage img.loads e) (rproc : Rproc)
    (rsc : RscFound) (headers : Bool) {b : Bitmap}
    (hrun : run.rproc = { rproc with loader := true, bitmap := b })
    (hfinish : e.err = none → (finishLoad store heap rsc e.run).view =
      ⟨0, img.ehdr.entry,
        if headers then (img.rscFound heap rproc).1.install rproc.mems
          e.run.rscView
        else e.run.rscView⟩) :
    (e.out store heap rsc).view = img.outcome heap rproc run.target headers := by
  obtain ⟨hrproc, hview, hend⟩ := h.view
  rw [hrun] at hview hend
  simp only [Image.outcome]
  by_cases hok : (img.placeAll rproc.mems img.loads run.target).2 = true
  · rw [if_pos hok] at hend
    rw [if_pos hok, ← hview, ← hfinish hend.1, LoopEnd.out]
    simp only [hend.1]
  · rw [if_neg hok] at hend
    rw [if_neg hok, ← hview, LoopEnd.out]
    simp only [hend, LoadOut.view, hrproc, hrun]

variable {rproc : Rproc} (hwf : img.WellFormed) (hserves : Serves store img)
  (halloc : ∀ size, heap.alloc size = true)
  (hmems : ∀ mem ∈ rproc.mems, mem.Valid) (hreg : img.Registered rproc.mems)

include hwf hserves halloc hmems hreg

/-- The data loop from its start. -/
theorem dataLoop_start (run : LoadRun) {stage : HdrStage}
    (hmem : run.rproc.mems = rproc.mems) (hat : DataAt img heap run stage .ready 0)
    (hph : stage ≠ .phdrs) (hok : img.StageOk stage) :
    Settles (fun fuel => (dataLoop store heap fuel
        { run with offset := 0, len := 0 }).val)
      (DataEnd img heap { run with offset := 0, len := 0 } stage img.loads) := by
  rw [img.loads_eq]
  exact dataLoop_ready hserves hwf halloc hmems hreg
    (img.ehdr.phnum.toNat + 1) { run with offset := 0, len := 0 } stage 0
    (by omega) hmem ⟨hat.info, hat.state⟩ hph hok (by decide) (by omega) rfl rfl

variable (hrsc : img.RscRegistered rproc.mems)

include hrsc

/-- The rest of a load with all headers. -/
theorem load_rest_complete {run : LoadRun} {target : Mem}
    (hat : HeadersAt img heap (openedRun store rproc target) run .complete) :
    ∃ rsc run', (locateRscTable store heap run ⟨none, 0, 0, 0⟩).val =
        (rsc, run') ∧
      Settles (fun fuel => (dataLoop store heap fuel
          { run' with offset := 0, len := 0 }).val)
        fun e => (e.out store heap rsc).view =
          img.outcome heap rproc target true := by
  have hrproc : run.rproc = { rproc with loader := true } := hat.rproc
  obtain ⟨calls, hlocate⟩ := locateRscTable_complete hserves hwf halloc run
    (by rw [hrproc]; exact hrsc) hat.info
  have hfound : img.rscFound heap run.rproc = img.rscFound heap rproc := by
    rw [hrproc]
    rfl
  rw [hfound] at hlocate
  refine ⟨_, _, hlocate, ?_⟩
  have hdata := dataLoop_start hwf hserves halloc hmems hreg
    { run with
      calls := calls
      rproc := { run.rproc with bitmap := (img.rscFound heap rproc).2 } }
    (by rw [hrproc]) ⟨hat.info, hat.state⟩ (by decide)
    (by rintro (h | h) <;> cases h)
  refine hdata.mono fun e he => ?_
  -- with all headers there the table is found now, or there is none and
  -- looking again after the data finds none either
  have hview := LoopEnd.out_view store he rproc (img.rscFound heap rproc).1
    true (by rw [hrproc]) ?_
  · rw [hview, hat.target]
    rfl
  · intro herr
    obtain ⟨hsame, k, hinfo⟩ := he.done herr
    rw [ite_self] at hinfo
    refine finishLoad_view e.run ?_ (by rw [hsame, hrproc]) hmems hrsc hinfo
    by_cases hsize : (img.rscFound heap rproc).1.size = 0
    · rw [if_pos hsize, locateRscTable_again hwf hinfo hsize]
    · rw [if_neg hsize]

/-- The rest of a load that has not all headers. -/
theorem load_rest_missing {run : LoadRun} {target : Mem} {stage : HdrStage}
    (hat : HeadersAt img heap (openedRun store rproc target) run stage)
    (hstage : stage ≠ .complete) (hph : stage ≠ .phdrs)
    (hok : img.StageOk stage) :
    ∃ rsc run', (locateRscTable store heap run ⟨none, 0, 0, 0⟩).val =
        (rsc, run') ∧
      Settles (fun fuel => (dataLoop store heap fuel
          { run' with offset := 0, len := 0 }).val)
        fun e => (e.out store heap rsc).view =
          img.outcome heap rproc target img.EndsLoad := by
  have hrproc : run.rproc = { rproc with loader := true } := hat.rproc
  refine ⟨_, _, locateRscTable_missing hstage hat.info, ?_⟩
  have hdata := dataLoop_start hwf hserves halloc hmems hreg run
    (by rw [hrproc]) ⟨hat.info, hat.state⟩ hph hok
  refine hdata.mono fun e he => ?_
  have hview := LoopEnd.out_view store he rproc ⟨none, 0, 0, 0⟩
    img.EndsLoad (b := rproc.bitmap) (by rw [hrproc]) ?_
  · rw [hview, hat.target]
    rfl
  · intro herr
    obtain ⟨hsame, k, hinfo⟩ := he.done herr
    by_cases hends : img.EndsLoad
    · -- the missing headers have been loaded behind the data
      rw [if_pos hends] at hinfo
      simp only [hends, decide_true, if_true]
      obtain ⟨calls', hagain⟩ := locateRscTable_complete hserves hwf halloc
        e.run (by rw [hsame, hrproc]; exact hrsc) hinfo
      have hfound : img.rscFound heap e.run.rproc = img.rscFound heap rproc := by
        rw [hsame, hrproc]
        rfl
      rw [hfound] at hagain
      exact finishLoad_view { e.run with
          calls := calls'
          rproc := { e.run.rproc with bitmap := (img.rscFound heap rproc).2 } }
        ((if_pos rfl).trans hagain) (by rw [hsame, hrproc]) hmems hrsc hinfo
    · -- they have not, so the table is never found
      rw [if_neg hends] at hinfo
      simp only [hends, decide_false, Bool.false_eq_true, if_false]
      simp only [finishLoad, if_true, locateRscTable_missing hstage hinfo,
        updateRscTable, LoadOut.view, hinfo]
      rfl

/-- **The outcome of a load**, by the stage in which the header loop
ends. -/
theorem load_outcome (hopen : FirstChunk store img)
    (hgo : ¬ LoadRefused store rproc) (target : Mem) :
    Settles (fun fuel => (remoteprocLoad store heap fuel rproc target).val)
      fun out => out.view = img.outcome heap rproc target
        (img.headerStage store = .complete ∨ img.EndsLoad) := by
  have hheader := headerLoop_opened hserves hwf halloc
    (hopen.opened hgo target) (hopen.class_known hgo target) 0 0
  change Settles _ fun e : LoopEnd => e.err = none ∧ HeadersAt img heap
    (openedRun store rproc target) e.run (img.headerStage store) at hheader
  have hph := img.headerStage_ne_phdrs store
  have hok := img.headerStage_ok store
  generalize img.headerStage store = stage at hheader hph hok ⊢
  simp only [remoteprocLoad_opened hopen hwf hgo]
  refine (loadImage_settles
    (P := fun run => HeadersAt img heap (openedRun store rproc target) run stage)
    (Q := fun rsc e => (e.out store heap rsc).view =
      img.outcome heap rproc target (stage = .complete ∨ img.EndsLoad))
    hheader ?_).mono ?_
  · intro run hat
    by_cases hstage : stage = .complete
    · subst hstage
      simp only [true_or, decide_true]
      exact load_rest_complete hwf hserves halloc hmems hreg hrsc hat
    · simp only [hstage, false_or]
      exact load_rest_missing hwf hserves halloc hmems hreg hrsc hat hstage hph hok
  · rintro out ⟨rsc, e, hQ, rfl⟩
    exact hQ

end Outcome

/-! ## When both agree -/

namespace Image

variable (img : Image)

/-- The chunk at hand once the headers of a stage are loaded: the one
before if it has them, else the one that was asked for. -/
def reach (c : UInt64 × UInt64) (stage : HdrStage) : UInt64 × UInt64 :=
  if img.lacks c.1 c.2 stage then img.piece stage else c

/-- The headers of the stage begin behind the end of the chunk. -/
def Beyond (c : UInt64 × UInt64) (stage : HdrStage) : Prop :=
  img.lacks c.1 c.2 stage = true ∧ c.1 + c.2 < (img.piece stage).1

/-- The headers can be read one after another without skipping: neither
the section headers nor the string table begin behind the chunk at
hand. -/
def StreamsHeaders (len : UInt64) : Prop :=
  let c := img.reach (0, len) .phdrs
  img.ehdr.shnum = 0 ∨
    (¬ img.Beyond c .shdrs ∧ ¬ img.Beyond (img.reach c .shdrs) .shstrtab)

instance (c : UInt64 × UInt64) (stage : HdrStage) :
    Decidable (img.Beyond c stage) := inferInstanceAs (Decidable (_ ∧ _))

instance (len : UInt64) : Decidable (img.StreamsHeaders len) :=
  inferInstanceAs (Decidable (_ ∨ _))

theorem settle_fromShstrtab (n : Nat) (c : UInt64 × UInt64) :
    img.settle false (n + 1) c.1 c.2 (img.fromShstrtab c.1 c.2) = .complete ↔
      ¬ img.Beyond c .shstrtab := by
  have hstop : img.headersEnd false c.1 c.2 .shstrtab =
      decide (c.1 + c.2 < (img.piece .shstrtab).1) := by
    simp [headersEnd]
  have hpiece := img.lacks_piece .shstrtab
  simp only [fromShstrtab, Beyond]
  cases hlacks : img.lacks c.1 c.2 .shstrtab with
  | false => simp [settle, headersEnd]
  | true =>
    by_cases hbeyond : c.1 + c.2 < (img.piece .shstrtab).1
    · simp [settle, hstop, hbeyond]
    · have hdone : img.settle false n (img.piece .shstrtab).1
          (img.piece .shstrtab).2 .complete = .complete := by
        cases n <;> simp [settle, headersEnd]
      simp [settle, hstop, hbeyond, advance, fromShstrtab, hpiece, hdone]

theorem settle_fromShdrs (n : Nat) (c : UInt64 × UInt64) :
    img.settle false (n + 2) c.1 c.2 (img.fromShdrs c.1 c.2) = .complete ↔
      img.ehdr.shnum = 0 ∨ (¬ img.Beyond c .shdrs ∧
        ¬ img.Beyond (img.reach c .shdrs) .shstrtab) := by
  have hstop : img.headersEnd false c.1 c.2 .shdrs =
      decide (c.1 + c.2 < (img.piece .shdrs).1) := by
    simp [headersEnd]
  have hpiece := img.lacks_piece .shdrs
  by_cases hnone : img.ehdr.shnum = 0
  · simp [fromShdrs, hnone, settle, headersEnd]
  · cases hlacks : img.lacks c.1 c.2 .shdrs with
    | false =>
      have hfrom : img.fromShdrs c.1 c.2 = img.fromShstrtab c.1 c.2 := by
        simp [fromShdrs, hnone, hlacks]
      rw [hfrom, img.settle_fromShstrtab (n + 1) c]
      simp [Beyond, hnone, hlacks, reach]
    | true =>
      have hfrom : img.fromShdrs c.1 c.2 = .shdrs := by
        simp [fromShdrs, hnone, hlacks]
      have hnext : img.advance (img.piece .shdrs).1 (img.piece .shdrs).2 .shdrs =
          img.fromShstrtab (img.piece .shdrs).1 (img.piece .shdrs).2 := by
        simp [advance, fromShdrs, hnone, hpiece]
      by_cases hbeyond : c.1 + c.2 < (img.piece .shdrs).1
      · -- the table lies ahead of the stream, which stops here
        simp [hfrom, settle, hstop, hbeyond, hnone, Beyond, hlacks]
      · rw [hfrom, settle, hstop, if_neg (by simpa using hbeyond)]
        simp only [hnext, reach, hlacks, if_true]
        rw [img.settle_fromShstrtab n (img.piece .shdrs)]
        simp [Beyond, hnone, hbeyond]

/-- Without seeking, the header loop gets all headers exactly when they
can be read one after another. -/
theorem headerStage_stream_iff (store : ImageStoreOps) (hseek : store.seek = false) :
    img.headerStage store = .complete ↔ img.StreamsHeaders
      (img.headerLen store.openImg.2 (intToSize store.openImg.1)) := by
  simp only [headerStage, hseek, StreamsHeaders]
  generalize img.headerLen store.openImg.2 (intToSize store.openImg.1) = len
  have hpiece := img.lacks_piece .phdrs
  cases hlacks : img.lacks 0 len .phdrs with
  | false =>
    simp only [advance, hlacks, reach, Bool.false_eq_true, if_false]
    exact img.settle_fromShdrs 1 (0, len)
  | true =>
    have hgo : img.headersEnd false 0 len .phdrs = false := by
      simp [headersEnd]
    simp only [advance, hlacks, reach, if_true, settle, hgo, hpiece,
      Bool.false_eq_true, if_false]
    exact img.settle_fromShdrs 0 (img.piece .phdrs)

/-- All segments of registered memory are placed, unless one takes no
memory. -/
theorem placeAll_ok_iff {mems : List RemoteprocMem}
    (hmems : ∀ mem ∈ mems, mem.Valid) (hreg : img.Registered mems)
    (loads : List ElfSegment) : (∀ seg ∈ loads, seg ∈ img.loads) → ∀ target,
    ((img.placeAll mems loads target).2 = true ↔
      ∀ seg ∈ loads, seg.memsz ≠ 0) := by
  induction loads with
  | nil => simp [placeAll]
  | cons seg rest ih =>
    intro hall target
    obtain ⟨mem, -, -, -, hsel⟩ := hreg.select hmems (hall seg (by simp))
    have hrest := ih (fun s hs => hall s (by simp [hs]))
      (img.place mem seg target)
    by_cases hzero : seg.memsz = 0
    · simp only [placeAll, hsel, if_pos hzero, List.forall_mem_cons]
      constructor
      · intro h
        cases h
      · intro h
        exact absurd hzero h.1
    · simp only [placeAll, hsel, if_neg hzero, List.forall_mem_cons]
      rw [hrest]
      exact ⟨fun h => ⟨hzero, h⟩, fun h => h.2⟩

/-- There is no resource table that passes its handling, or the remote
processor has it already, with its bytes in the memory given. -/
def RscInPlace (heap : Heap) (rproc : Rproc) (placed : Mem) : Prop :=
  let rsc := (img.rscFound heap rproc).1
  ∀ table, rsc.table = some table →
    ∀ mem, (MemKey.da rsc.da).select rproc.mems rsc.size = some mem →
    let va := metalIoPhysToVirt mem.io (remoteprocDatopa mem rsc.da)
    rproc.rscTable = va ∧ rproc.rscLen = rsc.size ∧
      rproc.rscIo = some mem.io ∧
      (metalIoBlockStore mem.io placed (metalIoVirtToOffset mem.io va) table
        (sizeToInt rsc.size)).2 = placed

theorem install_eq_iff (heap : Heap) (rproc : Rproc) (placed : Mem) :
    (img.rscFound heap rproc).1.install rproc.mems
        ⟨placed, rproc.rscTable, rproc.rscLen, rproc.rscIo⟩ =
      ⟨placed, rproc.rscTable, rproc.rscLen, rproc.rscIo⟩ ↔
    img.RscInPlace heap rproc placed := by
  simp only [RscInPlace, RscFound.install]
  generalize (img.rscFound heap rproc).1 = rsc
  cases htable : rsc.table with
  | none => simp
  | some table =>
    cases hsel : (MemKey.da rsc.da).select rproc.mems rsc.size with
    | none => simp
    | some mem =>
      simp only [Option.some.injEq, forall_eq', RscView.mk.injEq]
      constructor
      · rintro ⟨h1, h2, h3, h4⟩
        exact ⟨h2.symm, h3.symm, h4.symm, h1⟩
      · rintro ⟨h2, h3, h4, h1⟩
        exact ⟨h1, h2.symm, h3.symm, h4.symm⟩

/-- The outcome without all headers is the one with them exactly when the
load fails or has no table to lose. -/
theorem outcome_eq_iff (heap : Heap) (rproc : Rproc) (target : Mem) :
    img.outcome heap rproc target true = img.outcome heap rproc target false ↔
      (img.placeAll rproc.mems img.loads target).2 = false ∨
      img.RscInPlace heap rproc (img.placeAll rproc.mems img.loads target).1 := by
  rw [← img.install_eq_iff heap rproc]
  cases hok : (img.placeAll rproc.mems img.loads target).2 with
  | false => simp [outcome, hok]
  | true => simp [outcome, hok]

end Image

/-- A refused load changes nothing. -/
theorem load_refused (store : ImageStoreOps) {rproc : Rproc}
    (h : LoadRefused store rproc) (heap : Heap) (target : Mem) :
    Settles (fun fuel => (remoteprocLoad store heap fuel rproc target).val)
      fun out => out.view = ⟨-RPROC_EINVAL32, rproc.bootaddr, target,
        rproc.rscTable, rproc.rscLen, rproc.rscIo⟩ := by
  refine .of_eq (a := ⟨-RPROC_EINVAL32, rproc, target, [], none,
    some store.openImg.2, 0, intToSize store.openImg.1,
    RPROC_LOADER_NOT_READY, none⟩) (fun fuel => ?_) rfl
  by_cases hstate : rproc.state ≠ .ready ∧ rproc.state ≠ .configured
  · simp only [remoteprocLoad, if_pos hstate, Traced.val_pure]
  by_cases hpos : store.openImg.1 ≤ 0
  · simp only [remoteprocLoad, if_neg hstate, if_pos hpos, Traced.val_pure]
  have hpos' : ¬ store.openImg.1.toInt ≤ 0 := fun hle =>
    hpos (Int32.le_iff_toInt_le.mpr hle)
  obtain ⟨hloader, hlen⟩ := (h.resolve_left hstate).resolve_left hpos'
  have hshort : ¬ (4 : UInt64) ≤ intToSize store.openImg.1 := by
    rw [UInt64.le_iff_toNat_le, toNat_intToSize (by omega)]
    change ¬ 4 ≤ _
    omega
  have hid : rproc.loader = false ∧
      elfIdentify store.openImg.2 (intToSize store.openImg.1) = false := by
    refine ⟨hloader, ?_⟩
    simp only [elfIdentify, hshort, false_and, decide_false]
  simp only [remoteprocLoad, if_neg hstate, if_neg hpos, if_pos hid,
    Traced.val_pure]

/-- The store, able to seek or not. -/
def ImageStoreOps.withSeek (store : ImageStoreOps) (seek : Bool) :
    ImageStoreOps := { store with seek := seek }

/-- Both loads come to an end, and nobody can tell one from the other. -/
def SeekAgrees (store : ImageStoreOps) (heap : Heap) (rproc : Rproc)
    (target : Mem) : Prop :=
  ∃ v : LoadView, ∀ seek,
    Settles (fun fuel =>
      (remoteprocLoad (store.withSeek seek) heap fuel rproc target).val)
      fun out => out.view = v

section Agree

variable {store : ImageStoreOps} {heap : Heap} {img : Image} {rproc : Rproc}
  (hwf : img.WellFormed) (hopen : FirstChunk store img)
  (hserves : Serves store img) (halloc : ∀ size, heap.alloc size = true)
  (hmems : ∀ mem ∈ rproc.mems, mem.Valid) (hreg : img.Registered rproc.mems)
  (hrsc : img.RscRegistered rproc.mems)

include hwf hopen hserves halloc hmems hreg hrsc

/-- Both loads agree when their outcomes are the same. -/
theorem seekAgrees_iff_outcome (hgo : ¬ LoadRefused store rproc) (target : Mem) :
    SeekAgrees store heap rproc target ↔
      img.outcome heap rproc target true = img.outcome heap rproc target
        (img.headerStage (store.withSeek false) = .complete ∨ img.EndsLoad) := by
  have hload : ∀ seek, Settles (fun fuel => (remoteprocLoad
      (store.withSeek seek) heap fuel rproc target).val) fun out =>
        out.view = img.outcome heap rproc target
          (img.headerStage (store.withSeek seek) = .complete ∨ img.EndsLoad) := by
    intro seek
    have hserves' : Serves (store.withSeek seek) img :=
      ⟨hserves.1, hserves.2, hserves.3⟩
    have hopen' : FirstChunk (store.withSeek seek) img :=
      ⟨hopen.1, hopen.2, hopen.3⟩
    exact load_outcome hwf hserves' halloc hmems hreg hrsc hopen' hgo target
  have hseek : img.headerStage (store.withSeek true) = .complete :=
    img.settle_seek 3 _ _ _ (Nat.le_add_right 3 _)
  have htrue := hload true
  simp only [hseek, true_or, decide_true] at htrue
  constructor
  · rintro ⟨v, hv⟩
    obtain ⟨out, ⟨h1, h2⟩, -⟩ := (hv true).unique htrue
    obtain ⟨out', ⟨h1', h2'⟩, -⟩ := (hv false).unique (hload false)
    rw [← h2, h1, ← h2', h1']
  · intro heq
    refine ⟨img.outcome heap rproc target true, fun seek => ?_⟩
    cases seek with
    | true => exact htrue
    | false =>
      rw [heq]
      exact hload false

/-- **Seeking and streaming.** Both loads agree exactly when streaming does
not lose the resource table: the load is refused or fails, the headers
can be read one after another, the last program header is loadable so
that the missing ones are read after the data, or there is no table to
lose. -/
theorem seek_agrees_iff (target : Mem) :
    SeekAgrees store heap rproc target ↔
      LoadRefused store rproc ∨
      (∃ seg ∈ img.loads, seg.memsz = 0) ∨
      img.StreamsHeaders
        (img.headerLen store.openImg.2 (intToSize store.openImg.1)) ∨
      img.EndsLoad ∨
      img.RscInPlace heap rproc (img.placeAll rproc.mems img.loads target).1 := by
  by_cases href : LoadRefused store rproc
  · exact ⟨fun _ => .inl href, fun _ =>
      ⟨_, fun seek => load_refused (store.withSeek seek) href heap target⟩⟩
  have hstream := img.headerStage_stream_iff (store.withSeek false) rfl
  change _ ↔ img.StreamsHeaders
    (img.headerLen store.openImg.2 (intToSize store.openImg.1)) at hstream
  have hplaced := img.placeAll_ok_iff hmems hreg img.loads (fun _ h => h) target
  have hfails : (img.placeAll rproc.mems img.loads target).2 = false ↔
      ∃ seg ∈ img.loads, seg.memsz = 0 := by
    rw [← Bool.not_eq_true, hplaced]
    simp only [not_forall, not_not, exists_prop]
  rw [seekAgrees_iff_outcome hwf hopen hserves halloc hmems hreg hrsc href,
    ← hstream, ← hfails]
  by_cases hall : img.headerStage (store.withSeek false) = .complete ∨ img.EndsLoad
  · -- streaming gets all headers in the end
    simp only [hall, decide_true, true_iff]
    rcases hall with h | h
    · exact .inr (.inr (.inl h))
    · exact .inr (.inr (.inr (.inl h)))
  · -- it does not: only the resource table can tell the loads apart
    simp only [hall, decide_false, img.outcome_eq_iff]
    rw [not_or] at hall
    simp only [href, hall.1, hall.2, false_or]

end Agree

theorem tableAndNote_registered : tableAndNote.Registered [pageMem] := by
  have hloads : tableAndNote.loads = [⟨1, 116, 0x1000, 16, 16⟩] := by
    decide +kernel
  intro seg hseg
  rw [hloads, List.mem_singleton] at hseg
  subst hseg
  exact ⟨⟨pageMem, by simp, ⟨by decide, by decide⟩, by decide, by decide⟩,
    fun _ => by decide +kernel⟩

theorem tableAndNote_rscRegistered : tableAndNote.RscRegistered [pageMem] := by
  have hsection : tableAndNote.rscSection = some 1 := by decide +kernel
  intro i hi _
  rw [hsection] at hi
  cases hi
  exact ⟨by decide +kernel, pageMem, by simp, by decide +kernel,
    by decide +kernel⟩

theorem pageRproc_valid : ∀ mem ∈ pageRproc.mems, mem.Valid := by
  intro mem hmem
  rw [List.mem_singleton.mp hmem]
  exact pageMem_valid

/-- With the whole image in the first chunk. -/
theorem seek_agrees_whole :
    SeekAgrees (tableAndNote.store 269 true) plainHeap pageRproc fun _ => 0xFF :=
  (seek_agrees_iff tableAndNote_wellFormed
    ⟨by decide +kernel, fun _ _ => rfl, .inl (by decide)⟩
    (tableAndNote.serves_store 269 true) (fun _ => rfl) pageRproc_valid
    tableAndNote_registered tableAndNote_rscRegistered _).mpr
    (.inr (.inr (.inl (by decide +kernel))))

/-- With the headers up to the program headers in the first chunk, a store
that cannot seek loses the resource table. -/
theorem seek_differs_note :
    tableAndNote.WellFormed ∧ tableAndNote.Registered pageRproc.mems ∧
    tableAndNote.RscRegistered pageRproc.mems ∧
    FirstChunk (tableAndNote.store 116 true) tableAndNote ∧
    Serves (tableAndNote.store 116 true) tableAndNote ∧
    ¬ SeekAgrees (tableAndNote.store 116 true) plainHeap pageRproc
      fun _ => 0xFF := by
  have hopen : FirstChunk (tableAndNote.store 116 true) tableAndNote :=
    ⟨by decide +kernel, fun _ _ => rfl, .inl (by decide)⟩
  have hserves := tableAndNote.serves_store 116 true
  refine ⟨tableAndNote_wellFormed, tableAndNote_registered,
    tableAndNote_rscRegistered, hopen, hserves, ?_⟩
  have hgo : ¬ LoadRefused (tableAndNote.store 116 true) pageRproc := by
    simp only [LoadRefused]
    decide
  rw [seekAgrees_iff_outcome tableAndNote_wellFormed hopen hserves
    (fun _ => rfl) pageRproc_valid tableAndNote_registered
    tableAndNote_rscRegistered hgo]
  have hlost : decide (tableAndNote.headerStage
      ((tableAndNote.store 116 true).withSeek false) = .complete ∨
      tableAndNote.EndsLoad) = false := by decide +kernel
  rw [hlost, tableAndNote.outcome_eq_iff]
  have hplaced : (tableAndNote.placeAll pageRproc.mems tableAndNote.loads
      fun _ => 0xFF).2 = true := by decide +kernel
  have hfound : (tableAndNote.rscFound plainHeap pageRproc).1.table.isSome := by
    decide +kernel
  obtain ⟨table, htable⟩ := Option.isSome_iff_exists.mp hfound
  rintro (h | h)
  · rw [hplaced] at h
    cases h
  · obtain ⟨-, mem, hmem, hin, hsel⟩ := rscFound_select pageRproc_valid
      tableAndNote_rscRegistered htable
    exact physToVirt_ne_zero hmem hin (h table htable mem hsel).1.symm

end OpenAmp.Remoteproc
