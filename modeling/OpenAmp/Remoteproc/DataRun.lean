import OpenAmp.Remoteproc.ElfSegments
import OpenAmp.Remoteproc.HeaderRun
import OpenAmp.Remoteproc.Segment

/-!
# Loading the data

The second loop of `remoteproc_load` on a well-formed image whose
loadable segments go to registered memories. Every loadable segment is
stored once, in the order of the program headers. Behind the last
program header, if it is loadable, the loop goes on with the headers
that are still missing; otherwise it ends and they stay missing.
-/

namespace OpenAmp.Remoteproc

open OpenAmp.Lib OpenAmp.Metal

/-! ## Rounds of the loop -/

section Rounds

variable {store : ImageStoreOps} {heap : Heap} {run : LoadRun} {d : DataOut}

/-- The run after `elf_load` has returned. -/
def LoadRun.after (run : LoadRun) (d : DataOut) : LoadRun :=
  { run with info := d.info, lastLoadState := d.ret }

variable (hcall : (elfLoad heap run.img run.offset run.len run.info
    run.lastLoadState RPROC_LOAD_ANYADDR 0 0 0 0).val = d)
  (hret : ¬ d.ret < 0)

include hcall hret

theorem dataLoop_segment (hda : d.da ≠ RPROC_LOAD_ANYADDR) (fuel : Nat) :
    (dataLoop store heap (fuel + 1) run).val =
      match (storeSegment store (run.after d) d).err with
      | some err => some ⟨some err, (storeSegment store (run.after d) d).run⟩
      | none =>
        (dataLoop store heap fuel (storeSegment store (run.after d) d).run).val := by
  simp only [dataLoop, Traced.val_bind, Traced.val_ite]
  rw [hcall, if_neg hret, if_pos hda]
  have hrun : ({ run with info := d.info, lastLoadState := d.ret } : LoadRun) =
      run.after d := rfl
  simp only [hrun]
  cases (storeSegment store (run.after d) d).err <;> rfl

theorem dataLoop_done (hda : d.da = RPROC_LOAD_ANYADDR) (hlen : d.nlen = 0)
    (fuel : Nat) :
    (dataLoop store heap (fuel + 1) run).val = some ⟨none, run.after d⟩ := by
  simp only [dataLoop, Traced.val_bind, Traced.val_ite]
  rw [hcall, if_neg hret, if_neg (not_not.mpr hda), if_neg (not_not.mpr hlen)]
  rfl

/-- A round that asks for more headers. -/
theorem dataLoop_header {img : Image} (hserves : Serves store img)
    (hda : d.da = RPROC_LOAD_ANYADDR) (hlen : d.nlen ≠ 0)
    (hin : d.noffset.toNat + d.nlen.toNat ≤ img.len) :
    ∃ data calls, img.Chunk data d.noffset d.nlen ∧ ∀ fuel,
      (dataLoop store heap (fuel + 1) run).val =
        (dataLoop store heap fuel { run.after d with
          calls := calls
          imgData := some data
          offset := d.noffset
          len := d.nlen }).val := by
  obtain ⟨data, hdata, hchunk⟩ :=
    hserves.chunk (n := run.calls.length) run.target hin
  have hans := hserves.ret run.calls.length d.noffset d.nlen none run.target hin
  refine ⟨data, run.calls ++ [⟨d.noffset, d.nlen, none, sizeToInt d.nlen⟩],
    hchunk, fun fuel => ?_⟩
  simp only [dataLoop, Traced.val_bind, Traced.val_ite]
  rw [hcall, if_neg hret, if_neg (not_not.mpr hda), if_pos hlen]
  simp only [LoadRun.ask]
  rw [hans, if_neg (fun h => Int32.lt_irrefl h), hdata]
  rfl

end Rounds

/-! ## The segments of an image -/

namespace Image

variable {img : Image}

/-- The program headers are read the same from a copy of the table. -/
theorem segmentAt_block (heap : Heap) {i : Nat}
    (hroom : i * phdrSize img.ehdr.is64 + segmentEnd img.ehdr.is64 ≤
      img.ehdr.phdrsSize.toNat) :
    (img.block heap img.ehdr.phoff img.ehdr.phdrsSize).segmentAt
      img.ehdr.is64 i = img.segmentAt i := by
  simp only [Block.segmentAt, segmentAt, elfParseSegment, Traced.val_bind,
    Traced.val_pure]
  cases hc : img.ehdr.is64 with
  | true =>
    simp only [hc, phdrSize, segmentEnd, if_true] at hroom
    simp only [wordSize, phdrSize, if_true]
    rw [load_block heap _ _ (by omega), load_block heap _ _ (by omega),
      load_block heap _ _ (by omega), load_block heap _ _ (by omega),
      load_block heap _ _ (by omega)]
  | false =>
    simp only [hc, phdrSize, segmentEnd, Bool.false_eq_true, if_false] at hroom
    simp only [wordSize, phdrSize, Bool.false_eq_true, if_false]
    rw [load_block heap _ _ (by omega), load_block heap _ _ (by omega),
      load_block heap _ _ (by omega), load_block heap _ _ (by omega),
      load_block heap _ _ (by omega)]

theorem loads_eq : img.loads = loadsFrom img.segmentAt img.ehdr.phnum.toNat 0 := by
  rw [loads, segments, loadsFrom, List.range_eq_range', Nat.sub_zero]
  rfl

/-- The last program header is that of a loadable segment. -/
def EndsLoad (img : Image) : Prop :=
  0 < img.ehdr.phnum.toNat ∧ (img.segmentAt (img.ehdr.phnum.toNat - 1)).IsLoad

instance : Decidable img.EndsLoad := inferInstanceAs (Decidable (_ ∧ _))

/-- Every loadable segment has its address and its memory in a registered
memory, and its bytes in the image. -/
def Registered (img : Image) (mems : List RemoteprocMem) : Prop :=
  ∀ seg ∈ img.loads,
    (∃ mem ∈ mems, (MemKey.da seg.paddr).In mem ∧
      (MemKey.da seg.paddr).Inside seg.memsz mem) ∧
    (0 < seg.filesz → seg.offset.toNat + seg.filesz.toNat ≤ img.len)

/-- Target memory after segments have been placed one after another, and
whether none of them was refused. -/
def placeAll (img : Image) (mems : List RemoteprocMem) :
    List ElfSegment → Mem → Mem × Bool
  | [], target => (target, true)
  | seg :: rest, target =>
    match (MemKey.da seg.paddr).select mems seg.memsz with
    | some mem =>
      if seg.memsz = 0 then (target, false)
      else img.placeAll mems rest (img.place mem seg target)
    | none => (target, false)

end Image

theorem loadsFrom_congr {f g : Nat → ElfSegment} {n : Nat} (k : Nat)
    (h : ∀ i < n, f i = g i) : loadsFrom f n k = loadsFrom g n k := by
  simp only [loadsFrom]
  congr 1
  refine List.map_congr_left fun i hi => ?_
  rw [List.mem_range'_1] at hi
  exact h i (by omega)

theorem mem_loadsFrom {f : Nat → ElfSegment} {n k : Nat} {seg : ElfSegment} :
    seg ∈ loadsFrom f n k ↔ seg.IsLoad ∧ ∃ i, k ≤ i ∧ i < n ∧ f i = seg := by
  simp only [loadsFrom, List.mem_filter, List.mem_map, List.mem_range'_1,
    decide_eq_true_eq]
  constructor
  · rintro ⟨⟨i, hi, rfl⟩, hload⟩
    exact ⟨hload, i, hi.1, by omega, rfl⟩
  · rintro ⟨hload, i, h1, h2, rfl⟩
    exact ⟨⟨i, ⟨h1, by omega⟩, rfl⟩, hload⟩

theorem Image.mem_loads (img : Image) {j : Nat}
    (hj : j < img.ehdr.phnum.toNat) (hload : (img.segmentAt j).IsLoad) :
    img.segmentAt j ∈ img.loads := by
  rw [img.loads_eq]
  exact mem_loadsFrom.mpr ⟨hload, j, Nat.zero_le j, hj, rfl⟩

/-! ## Calls of `elf_load` on an image -/

namespace Image

variable {img : Image}

/-- In the data phase, with the program headers of the image. -/
theorem elfLoad_ready_val (hroom : ∀ i < img.ehdr.phnum.toNat,
      i * phdrSize img.ehdr.is64 + segmentEnd img.ehdr.is64 ≤
        img.ehdr.phdrsSize.toNat) {heap : Heap}
    {info : ElfInfo} (hehdr : info.ehdr = img.ehdr)
    (hphdrs : info.phdrs =
      some (img.block heap img.ehdr.phoff img.ehdr.phdrsSize))
    (data : Mem) (offset len : UInt64) {stage : HdrStage} {k : Nat}
    (hstate : info.loadState = pack stage .ready k)
    (hn : k % 256 ≤ img.ehdr.phnum.toNat) :
    let n := img.ehdr.phnum.toNat
    let f := img.segmentAt
    let call := (elfLoad heap data offset len (some info) (pack stage .ready k)
      RPROC_LOAD_ANYADDR 0 0 0 0).val
    (∃ j, k % 256 ≤ j ∧ j < n ∧ (f j).IsLoad ∧
      loadsFrom f n (k % 256) = f j :: loadsFrom f n (j + 1) ∧
      let state := pack stage (if j + 1 = n then .post else .ready) (j + 1)
      call = (f j).out state (some { info with loadState := state })) ∨
    (loadsFrom f n (k % 256) = [] ∧
      let state := pack stage .complete n
      ∃ noffset, call = ⟨state, some { info with loadState := state },
        RPROC_LOAD_ANYADDR, noffset, 0, 0, 0⟩) := by
  intro n f call
  have hcall : call = (elfLoadSegment info RPROC_LOAD_ANYADDR 0 0 0).val := by
    simp only [call]
    rw [elfLoad_ready heap data offset len RPROC_LOAD_ANYADDR 0 0 0 0 hstate]
  have hval := elfLoadSegment_val hphdrs hstate (by rw [hehdr]; exact hn)
    RPROC_LOAD_ANYADDR 0 0 0
  have hseg : ∀ i < n, (img.block heap img.ehdr.phoff
      img.ehdr.phdrsSize).segmentAt img.ehdr.is64 i = f i :=
    fun i hi => segmentAt_block heap (hroom i hi)
  have hfrom : ∀ i, loadsFrom ((img.block heap img.ehdr.phoff
      img.ehdr.phdrsSize).segmentAt img.ehdr.is64) n i = loadsFrom f n i :=
    fun i => loadsFrom_congr i hseg
  simp only [hehdr] at hval
  rw [hcall]
  rcases hval with ⟨j, h1, h2, h3, h4, h5⟩ | ⟨h1, noffset, h2⟩
  · have hj : (img.block heap img.ehdr.phoff
        img.ehdr.phdrsSize).segmentAt img.ehdr.is64 j = f j := hseg j h2
    have h4' : loadsFrom f n (k % 256) = f j :: loadsFrom f n (j + 1) := by
      rw [← hfrom (k % 256), ← hfrom (j + 1), ← hj]
      exact h4
    refine .inl ⟨j, h1, h2, hj ▸ h3, h4', ?_⟩
    refine h5.trans ?_
    simp only [hj, hehdr, ElfSegment.out]
    rfl
  · refine .inr ⟨(hfrom (k % 256)).symm.trans h1, noffset, h2.trans ?_⟩
    simp only [hehdr]
    rfl

/-- After the data, what a call makes of the headers it gets. -/
theorem elfLoadPost_val {heap : Heap} {data : Mem} {offset len : UInt64}
    {info : ElfInfo} {state : Int32} {next : HdrStage} {k : Nat}
    (hinfo : info.loadState &&& ELF_STATE_HDRS_COMPLETE = 0)
    (hcall : (elfLoadHeader heap data offset len (some info) state 0 0).val =
      img.headerOut heap next .post k 0) :
    let phase := if next = .complete then .complete else .post
    (elfLoadPost heap data offset len info state RPROC_LOAD_ANYADDR 0 0 0).val =
      ⟨pack next phase k, some (img.infoAt heap next phase k),
        RPROC_LOAD_ANYADDR, if next = .complete then 0 else (img.piece next).1,
        (img.piece next).2, 0, 0⟩ := by
  intro phase
  have hneg := pack_nonneg next .post k
  rw [elfLoadPost, if_pos hinfo, Traced.val_bind, hcall]
  change (if pack next .post k < 0 then _ else _ : Traced Access DataOut).val = _
  rw [if_neg hneg]
  by_cases hdone : next = .complete
  · subst hdone
    have hbit : (img.headerOut heap .complete .post k 0).ret &&&
        ELF_STATE_HDRS_COMPLETE ≠ 0 :=
      fun h => (pack_hdrsComplete .complete .post k).mp h rfl
    have hstate : withPhase (pack .complete .post k) RPROC_LOADER_LOAD_COMPLETE =
        pack .complete .complete k := withPhase_pack .complete .post .complete k
    rw [if_pos hbit]
    simp only [Traced.val_pure, infoAt, headerOut, hstate, if_true]
    rfl
  · have hbit : ¬ (img.headerOut heap next .post k 0).ret &&&
        ELF_STATE_HDRS_COMPLETE ≠ 0 :=
      not_not.mpr ((pack_hdrsComplete next .post k).mpr hdone)
    have hphase : phase = .post := if_neg hdone
    rw [if_neg hbit, hphase]
    simp only [Traced.val_pure, headerOut, if_neg hdone]
    rfl

/-- After the data: the missing headers are loaded. -/
theorem elfLoad_post_val (hwf : img.WellFormed) {heap : Heap}
    (halloc : ∀ size, heap.alloc size = true) {data : Mem}
    {offset len : UInt64} (hchunk : img.Chunk data offset len)
    {stage : HdrStage} (hstage : stage = .shdrs ∨ stage = .shstrtab)
    (hok : img.StageOk stage) (k : Nat) :
    let next := img.advance offset len stage
    let phase := if next = .complete then .complete else .post
    (elfLoad heap data offset len (some (img.infoAt heap stage .post k))
      (pack stage .post k) RPROC_LOAD_ANYADDR 0 0 0 0).val =
      ⟨pack next phase k, some (img.infoAt heap next phase k),
        RPROC_LOAD_ANYADDR, if next = .complete then 0 else (img.piece next).1,
        (img.piece next).2, 0, 0⟩ := by
  have hne : stage ≠ .complete := by rcases hstage with rfl | rfl <;> decide
  have hph : stage = .phdrs → LoadPhase.post = .notReady ∧ k = 0 := by
    rcases hstage with rfl | rfl <;> intro h <;> cases h
  have hcall := img.elfLoadHeader_val hwf.sound halloc hchunk hne hph
    (fun h => hok (.inr h)) 0 0
  have hphase : img.phaseAfter offset len stage .post = .post := by
    rcases hstage with rfl | rfl <;> simp [phaseAfter]
  rw [hphase] at hcall
  rw [elfLoad_post heap data offset len RPROC_LOAD_ANYADDR 0 0 0 0 rfl]
  exact elfLoadPost_val ((pack_hdrsComplete stage .post k).mpr hne) hcall

/-- After the data, with all headers. -/
theorem elfLoad_post_complete (img : Image) (heap : Heap) (data : Mem)
    (offset len : UInt64) (k : Nat) :
    (elfLoad heap data offset len (some (img.infoAt heap .complete .post k))
      (pack .complete .post k) RPROC_LOAD_ANYADDR 0 0 0 0).val =
      ⟨pack .complete .complete k,
        some (img.infoAt heap .complete .complete k), RPROC_LOAD_ANYADDR, 0, 0,
        0, 0⟩ := by
  have hbit : ¬ (img.infoAt heap .complete .post k).loadState &&&
      ELF_STATE_HDRS_COMPLETE = 0 :=
    fun h => (pack_hdrsComplete .complete .post k).mp h rfl
  have hstate : withPhase (pack .complete .post k) RPROC_LOADER_LOAD_COMPLETE =
      pack .complete .complete k := withPhase_pack .complete .post .complete k
  rw [elfLoad_post heap data offset len RPROC_LOAD_ANYADDR 0 0 0 0 rfl,
    elfLoadPost, if_neg hbit]
  simp only [Traced.val_pure, infoAt, hstate]

end Image

/-! ## The loop on an image -/

/-- Where the loader stands. -/
structure DataAt (img : Image) (heap : Heap) (run : LoadRun)
    (stage : HdrStage) (phase : LoadPhase) (k : Nat) : Prop where
  info : run.info = some (img.infoAt heap stage phase k)
  state : run.lastLoadState = pack stage phase k

/-- The loop has ended well with the headers of a stage, and has left this
target memory. -/
structure DataDone (img : Image) (heap : Heap) (run : LoadRun) (target : Mem)
    (stage : HdrStage) (e : LoopEnd) : Prop where
  err : e.err = none
  target : e.run.target = target
  rproc : e.run.rproc = run.rproc
  info : ∃ k, e.run.info = some (img.infoAt heap stage .complete k)

section Loop

variable {store : ImageStoreOps} {heap : Heap} {img : Image}

/-- After the data all headers are loaded. -/
theorem dataLoop_post (hserves : Serves store img) (hwf : img.WellFormed)
    (halloc : ∀ size, heap.alloc size = true) (n : Nat) :
    ∀ (run : LoadRun) (stage : HdrStage) (k : Nat),
    DataAt img heap run stage .post k → stage ≠ .phdrs → img.StageOk stage →
    img.Chunk run.img run.offset run.len →
    4 ≤ n + (img.advance run.offset run.len stage).rank →
    Settles (fun fuel => (dataLoop store heap fuel run).val)
      (DataDone img heap run run.target .complete) := by
  induction n with
  | zero =>
    intro run stage k hat hph hok hchunk hrank
    -- no stage has a rank above three
    have hle := (img.advance run.offset run.len stage).rank_le
    omega
  | succ n ih =>
    intro run stage k hat hph hok hchunk hrank
    by_cases hdone : stage = .complete
    · -- `elf_load` finds every header there
      subst hdone
      have hcall := img.elfLoad_post_complete heap run.img run.offset run.len k
      rw [← hat.info, ← hat.state] at hcall
      exact .of_eq (dataLoop_done hcall (pack_nonneg _ _ _) rfl rfl)
        ⟨rfl, rfl, rfl, k, rfl⟩
    · have hstage : stage = .shdrs ∨ stage = .shstrtab := by
        cases stage with
        | phdrs => exact absurd rfl hph
        | shdrs => exact .inl rfl
        | shstrtab => exact .inr rfl
        | complete => exact absurd rfl hdone
      have hcall := img.elfLoad_post_val hwf halloc hchunk hstage hok k
      rw [← hat.info, ← hat.state] at hcall
      have hok' := img.advance_ok hok run.offset run.len
      have hrank' := img.rank_le_advance run.offset run.len stage
      generalize img.advance run.offset run.len stage = next at *
      by_cases hnext : next = .complete
      · -- the chunk at hand was the last one missing
        subst hnext
        exact .of_eq (dataLoop_done hcall (pack_nonneg _ _ _) rfl rfl)
          ⟨rfl, rfl, rfl, k, rfl⟩
      · have hwait : next = .shdrs ∨ next = .shstrtab := by
          cases next with
          | phdrs =>
            rcases hstage with rfl | rfl <;> exact absurd hrank' (by decide)
          | shdrs => exact .inl rfl
          | shstrtab => exact .inr rfl
          | complete => exact absurd rfl hnext
        -- what is asked for is what is missing, so the rank grows
        have hgrow := img.rank_advance_piece hnext
        have hrank₂ : 4 ≤ n +
            (img.advance (img.piece next).1 (img.piece next).2 next).rank := by
          omega
        simp only [if_neg hnext] at hcall
        obtain ⟨data, calls, hchunk', hround⟩ := dataLoop_header hcall
          (pack_nonneg _ _ _) hserves rfl (hwf.piece_ne_zero hok' hwait)
          (hwf.piece_in hok')
        have hph' : next ≠ .phdrs := by
          rcases hwait with rfl | rfl <;> decide
        have hrest := ih { run with
            info := some (img.infoAt heap next .post k)
            lastLoadState := pack next .post k
            calls := calls
            imgData := some data
            offset := (img.piece next).1
            len := (img.piece next).2 } next k ⟨rfl, rfl⟩ hph' hok' hchunk'
          hrank₂
        refine .step hround (hrest.mono ?_)
        rintro e ⟨herr, htarget, hrproc, hinfo⟩
        exact ⟨herr, htarget, hrproc, hinfo⟩

theorem Image.chunk_empty (img : Image) (data : Mem) : img.Chunk data 0 0 :=
  ⟨Nat.zero_le _, fun _ hi => absurd hi (Nat.not_lt_zero _)⟩

/-- A loadable segment of the image has a memory. -/
theorem Image.Registered.select {mems : List RemoteprocMem}
    (hreg : img.Registered mems) (hmems : ∀ mem ∈ mems, mem.Valid)
    {seg : ElfSegment} (hseg : seg ∈ img.loads) :
    ∃ mem, mem.Valid ∧ (MemKey.da seg.paddr).In mem ∧
      (MemKey.da seg.paddr).Inside seg.memsz mem ∧
      (MemKey.da seg.paddr).select mems seg.memsz = some mem := by
  obtain ⟨⟨mem, hmem, hin, hinside⟩, -⟩ := hreg seg hseg
  obtain ⟨found, hfound⟩ :=
    MemKey.select_isSome hmems hmem hin (.inl hinside)
  have hwrap : (MemKey.da seg.paddr).addr.toNat + seg.memsz.toNat < 2 ^ 64 :=
    Nat.lt_of_le_of_lt hinside.2 ((hmems mem hmem).start_nowrap _)
  obtain ⟨hmem', hin', hinside'⟩ := MemKey.select_inside hmems hwrap hfound
  exact ⟨found, hmems found hmem', hin', hinside', hfound⟩

/-- How the data loop ends: with all segments placed, or refused at one
that takes no memory. -/
def DataEnd (img : Image) (heap : Heap) (run : LoadRun) (stage : HdrStage)
    (loads : List ElfSegment) (e : LoopEnd) : Prop :=
  let placed := img.placeAll run.rproc.mems loads run.target
  if placed.2 then
    DataDone img heap run placed.1
      (if img.EndsLoad then .complete else stage) e
  else
    e.err = some (-RPROC_EINVAL32) ∧ e.run.target = placed.1 ∧
      e.run.rproc = run.rproc

/-- A round that finds a segment without memory ends the loop. -/
theorem dataLoop_refused {run : LoadRun} {seg : ElfSegment} {ret : Int32}
    {info : Option ElfInfo}
    (hcall : (elfLoad heap run.img run.offset run.len run.info
      run.lastLoadState RPROC_LOAD_ANYADDR 0 0 0 0).val = seg.out ret info)
    (hret : ¬ ret < 0) (hda : seg.paddr ≠ RPROC_LOAD_ANYADDR)
    (hzero : seg.memsz = 0) :
    ∃ e, (∀ fuel, (dataLoop store heap (fuel + 1) run).val = some e) ∧
      e.err = some (-RPROC_EINVAL32) ∧ e.run.target = run.target ∧
      e.run.rproc = run.rproc := by
  obtain ⟨herr, htarget, hkeeps⟩ :=
    storeSegment_empty store (run.after (seg.out ret info)) hzero ret info
  refine ⟨⟨some (-RPROC_EINVAL32), _⟩, fun fuel => ?_, rfl, htarget,
    hkeeps.rproc⟩
  rw [dataLoop_segment hcall hret hda, herr]

/-- A round that finds one with memory stores it. -/
theorem dataLoop_stored (hserves : Serves store img) {run : LoadRun}
    {mem : RemoteprocMem} (hmem : mem.Valid) {seg : ElfSegment}
    (hsel : (MemKey.da seg.paddr).select run.rproc.mems seg.memsz = some mem)
    (hin : (MemKey.da seg.paddr).In mem)
    (himg : 0 < seg.filesz → seg.offset.toNat + seg.filesz.toNat ≤ img.len)
    (hzero : seg.memsz ≠ 0) {stage : HdrStage} {phase : LoadPhase} {k : Nat}
    (hcall : (elfLoad heap run.img run.offset run.len run.info
      run.lastLoadState RPROC_LOAD_ANYADDR 0 0 0 0).val =
        seg.out (pack stage phase k) (some (img.infoAt heap stage phase k))) :
    ∃ run', (∀ fuel, (dataLoop store heap (fuel + 1) run).val =
        (dataLoop store heap fuel run').val) ∧
      DataAt img heap run' stage phase k ∧
      run'.target = img.place mem seg run.target ∧
      run'.rproc = run.rproc ∧ run'.offset = run.offset ∧
      run'.len = run.len := by
  obtain ⟨herr, htarget, hkeeps⟩ := storeSegment_place hserves hmem
    (run.after (seg.out (pack stage phase k)
      (some (img.infoAt heap stage phase k)))) hsel hin hzero himg
    (pack stage phase k) (some (img.infoAt heap stage phase k))
  refine ⟨_, fun fuel => ?_, ⟨hkeeps.info, hkeeps.lastLoadState⟩, htarget,
    hkeeps.rproc, hkeeps.offset, hkeeps.len⟩
  rw [dataLoop_segment hcall (pack_nonneg _ _ _) (hin.ne_bad hmem), herr]

/-- How the loop ends after a segment was stored is how it ends from
before. -/
theorem DataEnd.cons {run run' : LoadRun} {stage : HdrStage}
    {seg : ElfSegment} {loads : List ElfSegment} {mem : RemoteprocMem}
    (hsel : (MemKey.da seg.paddr).select run.rproc.mems seg.memsz = some mem)
    (hzero : seg.memsz ≠ 0)
    (htarget : run'.target = img.place mem seg run.target)
    (hrproc : run'.rproc = run.rproc) {e : LoopEnd}
    (he : DataEnd img heap run' stage loads e) :
    DataEnd img heap run stage (seg :: loads) e := by
  have hplaced : img.placeAll run.rproc.mems (seg :: loads) run.target =
      img.placeAll run'.rproc.mems loads run'.target := by
    simp only [Image.placeAll, hsel, if_neg hzero, hrproc, htarget]
  rw [DataEnd] at he
  rw [DataEnd, hplaced]
  split at he
  · next hsucc =>
    rw [if_pos hsucc]
    exact ⟨he.err, he.target, he.rproc.trans hrproc, he.info⟩
  · next hsucc =>
    rw [if_neg hsucc]
    exact ⟨he.1, he.2.1, he.2.2.trans hrproc⟩

/-- With no segment left, no header is that of a last one. -/
theorem Image.not_endsLoad {k : Nat}
    (hk : k < img.ehdr.phnum.toNat ∨ img.ehdr.phnum.toNat = 0 ∧ k = 0)
    (hnone : loadsFrom img.segmentAt img.ehdr.phnum.toNat k = []) :
    ¬ img.EndsLoad := by
  rintro ⟨hpos, hlast⟩
  have hmem : img.segmentAt (img.ehdr.phnum.toNat - 1) ∈
      loadsFrom img.segmentAt img.ehdr.phnum.toNat k :=
    mem_loadsFrom.mpr ⟨hlast, _, by omega, by omega, rfl⟩
  rw [hnone] at hmem
  cases hmem

/-- **The data is loaded**, from program header `k` on. -/
theorem dataLoop_ready (hserves : Serves store img) (hwf : img.WellFormed)
    (halloc : ∀ size, heap.alloc size = true) {mems : List RemoteprocMem}
    (hmems : ∀ mem ∈ mems, mem.Valid) (hreg : img.Registered mems) (m : Nat) :
    ∀ (run : LoadRun) (stage : HdrStage) (k : Nat),
    img.ehdr.phnum.toNat - k < m → run.rproc.mems = mems →
    DataAt img heap run stage .ready k → stage ≠ .phdrs → img.StageOk stage →
    k < 256 → k < img.ehdr.phnum.toNat ∨ img.ehdr.phnum.toNat = 0 ∧ k = 0 →
    run.offset = 0 → run.len = 0 →
    Settles (fun fuel => (dataLoop store heap fuel run).val)
      (DataEnd img heap run stage
        (loadsFrom img.segmentAt img.ehdr.phnum.toNat k)) := by
  induction m with
  | zero =>
    intro run stage k hm
    omega
  | succ m ih =>
    intro run stage k hm hrm hat hph hok hk hkn hoff hlen
    have hphdrs : (img.infoAt heap stage .ready k).phdrs =
        some (img.block heap img.ehdr.phoff img.ehdr.phdrsSize) := if_neg hph
    have hcall := img.elfLoad_ready_val
      (segmentEnd_le (Nat.le_of_eq hwf.phdrsSize_toNat.symm)) rfl hphdrs run.img
      run.offset run.len rfl (by omega)
    simp only [← hat.info, ← hat.state, Nat.mod_eq_of_lt hk] at hcall
    rcases hcall with ⟨j, h1, h2, hload, hloads, hcall⟩ | ⟨hnone, no, hcall⟩
    · -- `j` is the next loadable segment
      have hseg := img.mem_loads h2 hload
      obtain ⟨mem, hmem, hin, -, hsel⟩ := hreg.select hmems hseg
      rw [← hrm] at hsel
      generalize hphase : (if j + 1 = img.ehdr.phnum.toNat then LoadPhase.post
        else .ready) = phase at hcall
      change _ = (img.segmentAt j).out (pack stage phase (j + 1))
        (some (img.infoAt heap stage phase (j + 1))) at hcall
      rw [hloads]
      by_cases hzero : (img.segmentAt j).memsz = 0
      · -- a segment without memory stops the load with an error
        obtain ⟨e, hround, herr, htarget, hrproc⟩ :=
          dataLoop_refused hcall (pack_nonneg _ _ _) (hin.ne_bad hmem) hzero
        refine .of_eq hround ?_
        simp only [DataEnd, Image.placeAll, hsel, if_pos hzero,
          Bool.false_eq_true, if_false]
        exact ⟨herr, htarget, hrproc⟩
      obtain ⟨run', hround, hat', htarget, hrproc, hoff', hlen'⟩ :=
        dataLoop_stored hserves hmem hsel hin (hreg _ hseg).2 hzero hcall
      refine .step hround
        (.mono ?_ fun e => DataEnd.cons hsel hzero htarget hrproc)
      by_cases hlast : j + 1 = img.ehdr.phnum.toNat
      · -- behind the last header: the rest of the headers
        rw [if_pos hlast] at hphase
        subst hphase
        have hends : img.EndsLoad := by
          refine ⟨by omega, ?_⟩
          rw [← hlast, Nat.add_sub_cancel]
          exact hload
        have hchunk : img.Chunk run'.img run'.offset run'.len := by
          rw [hoff', hlen', hoff, hlen]
          exact img.chunk_empty run'.img
        refine (dataLoop_post hserves hwf halloc 4 run' stage (j + 1) hat' hph
          hok hchunk (by omega)).mono fun e he => ?_
        rw [DataEnd, loadsFrom_end (Nat.le_of_eq hlast.symm)]
        simpa only [Image.placeAll, if_true, if_pos hends] using he
      · -- more headers follow
        rw [if_neg hlast] at hphase
        subst hphase
        have hphnum := hwf.phnum_le
        exact ih run' stage (j + 1) (by omega) (by rw [hrproc, hrm]) hat' hph
          hok (by omega) (.inl (by omega)) (hoff'.trans hoff) (hlen'.trans hlen)
    · -- no loadable segment is left
      refine .of_eq (dataLoop_done hcall (pack_nonneg _ _ _) rfl rfl) ?_
      rw [hnone, DataEnd]
      simp only [Image.placeAll, if_true, if_neg (Image.not_endsLoad hkn hnone)]
      exact ⟨rfl, rfl, rfl, _, rfl⟩

end Loop

end OpenAmp.Remoteproc
