import OpenAmp.Remoteproc.NoblockRun

/-!
# A load without blocking, from the first chunk to the entry point

The rounds of `load_exectuable_noblock` on a well-formed image. The header
rounds pass at least one stage each, the data rounds put one loadable
segment in its place each, and behind the last program header, if it is
loadable, the headers that are still missing follow.

Behind a segment the caller passes the chunk it still has under the
offset and the length of the segment. The loader sees through this only
because the tables it waits for do not lie in the segment.
-/

namespace OpenAmp.Remoteproc

open OpenAmp.Lib OpenAmp.Metal

/-! ## The loop on an image -/

/-- What a load without blocking can be told by. -/
def noblockView (out : Int32 × NoblockRun) : LoadView :=
  ⟨out.1, out.2.vars.rproc.bootaddr, out.2.vars.rscView⟩

/-- What it has to come to once this is in target memory. -/
def Image.loadedView (img : Image) (heap : Heap) (rproc : Rproc) (target : Mem)
    (headers : Bool) : LoadView :=
  let v : RscView := ⟨target, rproc.rscTable, rproc.rscLen, rproc.rscIo⟩
  ⟨0, img.ehdr.entry,
    if headers then (img.rscFound heap rproc).1.install rproc.mems v else v⟩

/-- Where the caller stands before a round. -/
structure NoblockAt (img : Image) (heap : Heap) (rproc : Rproc) (target : Mem)
    (run : NoblockRun) (stage : HdrStage) (phase : LoadPhase) (k : Nat) :
    Prop where
  info : run.vars.info = some (img.infoAt heap stage phase k)
  rproc : run.vars.rproc = rproc
  target : run.vars.target = target

/-- The tables that may be waited for behind the segments do not lie in one
of them. -/
def Image.TablesApart (img : Image) : Prop :=
  ∀ seg ∈ img.loads, ∀ stage, stage = .shdrs ∨ stage = .shstrtab →
    img.StageOk stage → img.lacks seg.offset seg.filesz stage = true

/-- There is something to load, every loadable segment takes memory and has
its part of the file in the image, and none holds a table. -/
structure Image.LoadsPlain (img : Image) : Prop where
  loads_ne : img.loads ≠ []
  memsz_ne : ∀ seg ∈ img.loads, seg.memsz ≠ 0
  inside : ∀ seg ∈ img.loads, seg.offset.toNat + seg.filesz.toNat ≤ img.len
  apart : img.TablesApart

/-- What the loads of an image rest on. -/
structure NoblockWorld (store : ImageStoreOps) (env : NoblockEnv) (img : Image)
    (rproc : Rproc) : Prop where
  wellFormed : img.WellFormed
  plain : img.LoadsPlain
  serves : Serves store img
  alloc : ∀ size, env.heap.alloc size = true
  mems : ∀ mem ∈ rproc.mems, mem.Valid
  registered : img.Registered rproc.mems
  rscRegistered : img.RscRegistered rproc.mems

section Loop

variable {store : ImageStoreOps} {env : NoblockEnv} {img : Image}
  {rproc : Rproc}

variable (env) in
/-- The call of a round in the middle of a load. -/
theorem NoblockAt.call {run : NoblockRun} {target : Mem} {stage : HdrStage}
    {phase : LoadPhase} {k : Nat}
    (hat : NoblockAt img env.heap rproc target run stage phase k)
    (hstate : rproc.state = .ready) (hloader : rproc.loader = true) :
    remoteprocLoadNoblock env run.imgData run.offset run.len run.vars.reset =
      noblockHeader env run.imgData run.offset run.len
        (some (img.infoAt env.heap stage phase k)) (pack stage phase k)
        run.vars.start := by
  rw [remoteprocLoadNoblock_go (by rw [hat.rproc]; exact hstate)
    (.inl (by rw [hat.rproc]; exact hloader))
    (.inr ⟨_, hat.info, rfl, pack_nonneg stage phase k⟩), hat.info]
  rfl

theorem NoblockAt.start_rproc {run : NoblockRun} {target : Mem}
    {stage : HdrStage} {phase : LoadPhase} {k : Nat}
    (hat : NoblockAt img env.heap rproc target run stage phase k)
    (hloader : rproc.loader = true) : run.vars.start.rproc = rproc := by
  have h : run.vars.start.rproc = { run.vars.rproc with loader := true } := rfl
  rw [h, hat.rproc, ← hloader]

/-- The round that has everything ends the load. -/
theorem noblockLoop_complete (hworld : NoblockWorld store env img rproc)
    {run : NoblockRun} {v : NoblockVars} {stage : HdrStage} {phase : LoadPhase}
    {k : Nat} (hcall : (remoteprocLoadNoblock env run.imgData run.offset run.len
      run.vars.reset).val =
        (noblockComplete env (some (img.infoAt env.heap stage phase k)) v).val)
    (hrproc : v.rproc = rproc) (hlen : v.nlen = 0) (hmem : v.nmlen = 0)
    (hcarried : stage = .complete → img.RscCarried env rproc v.target) :
    Settles (fun fuel => (noblockLoop store env fuel run).val) fun out =>
      noblockView out =
        img.loadedView env.heap rproc v.target (stage = .complete) := by
  subst hrproc
  obtain ⟨v', hval, hfin⟩ := noblockComplete_val hworld.wellFormed
    hworld.alloc hworld.mems hworld.rscRegistered hcarried phase k
  rw [hval] at hcall
  refine .of_eq (noblockLoop_done hcall (hfin.nlen.trans hlen)
    (hfin.nmlen.trans hmem)) ?_
  simp only [noblockView, Image.loadedView, hfin.bootaddr, hfin.rscView]
  rfl

/-! ### Behind the data -/

/-- Neither the headers nor the segments stop a call in this phase. -/
theorem post_tests (stage : HdrStage) (k : Nat) :
    (pack stage .post k &&& RPROC_LOADER_READY_TO_LOAD = 0 ∧
      pack stage .post k &&& RPROC_LOADER_LOAD_COMPLETE = 0) ∧
    pack stage .post k &&& RPROC_LOADER_POST_DATA_LOAD ≠ 0 := by
  refine ⟨⟨?_, ?_⟩, (pack_post stage .post k).mpr rfl⟩
  · exact not_not.mp fun h => nomatch (pack_ready stage .post k).mp h
  · exact not_not.mp fun h => nomatch (pack_loadComplete stage .post k).mp h

/-- A round whose chunk leads to the last stage ends the load. -/
theorem noblockLoop_post_done (hworld : NoblockWorld store env img rproc)
    (hstate : rproc.state = .ready) (hloader : rproc.loader = true)
    {run : NoblockRun} {target : Mem} {stage : HdrStage} {k : Nat}
    (hat : NoblockAt img env.heap rproc target run stage .post k)
    (hcarried : img.RscCarried env rproc target)
    (hheader : (elfLoadHeader env.heap (chunkOf run.imgData) run.offset run.len
      (some (img.infoAt env.heap stage .post k)) (pack stage .post k)
      run.vars.start.noffset run.vars.start.nlen).val =
        img.headerOut env.heap .complete .post k run.vars.start.noffset) :
    Settles (fun fuel => (noblockLoop store env fuel run).val) fun out =>
      noblockView out = img.loadedView env.heap rproc target true := by
  have hgo := noblockHeader_go (post_tests stage k).1 hheader
    (pack_nonneg .complete .post k) (.inl rfl)
  have hpost := (post_tests .complete k).2
  have hdone := (pack_loadComplete .complete .complete k).mpr rfl
  have hload := img.elfLoad_post_done env.heap (chunkOf run.imgData) run.offset
    run.len k run.vars.start.noffset 0 run.vars.start.padding
    run.vars.start.nmlen
  have hdata := @noblockData_none env run.imgData run.offset run.len _ _
    { run.vars.start with nlen := 0 } _ (.inr hpost) hload (pack_nonneg _ _ _)
    rfl hdone
  simp only [ne_eq, not_true, if_false] at hdata
  have hcall := congrArg Traced.val (hat.call env hstate hloader)
  have hstart := hat.start_rproc hloader
  have hloop := noblockLoop_complete hworld (hcall.trans (hgo.trans hdata))
    hstart rfl rfl (fun _ => by
      change img.RscCarried env rproc run.vars.target
      rw [hat.target]
      exact hcarried)
  refine hloop.mono fun out hout => hout.trans ?_
  have htarget : run.vars.start.target = target := hat.target
  simp only [htarget, decide_true]

/-- A round that finds out what is missing asks for it. -/
theorem noblockLoop_post_ask (hworld : NoblockWorld store env img rproc)
    (hstate : rproc.state = .ready) (hloader : rproc.loader = true)
    {run : NoblockRun} {target : Mem} {stage next : HdrStage} {k : Nat}
    (hat : NoblockAt img env.heap rproc target run stage .post k)
    (hwait : next = .shdrs ∨ next = .shstrtab) (hok : img.StageOk next)
    (hheader : (elfLoadHeader env.heap (chunkOf run.imgData) run.offset run.len
      (some (img.infoAt env.heap stage .post k)) (pack stage .post k)
      run.vars.start.noffset run.vars.start.nlen).val =
        img.headerOut env.heap next .post k run.vars.start.noffset) :
    ∃ run', (∀ fuel, (noblockLoop store env (fuel + 1) run).val =
        (noblockLoop store env fuel run').val) ∧
      NoblockAt img env.heap rproc target run' next .post k ∧
      img.Chunk (chunkOf run'.imgData) run'.offset run'.len ∧
      run'.offset = (img.piece next).1 ∧ run'.len = (img.piece next).2 := by
  have hnext : next ≠ .complete := by rcases hwait with rfl | rfl <;> decide
  have hne := hworld.wellFormed.piece_ne_zero hok hwait
  have hcall := congrArg Traced.val (hat.call env hstate hloader)
  rw [noblockHeader_wait (post_tests stage k).1 hheader
    (pack_nonneg next .post k) hne (post_tests next k).1.1] at hcall
  have hno : (img.headerOut env.heap next .post k
      run.vars.start.noffset).noffset = (img.piece next).1 := if_neg hnext
  rw [hno] at hcall
  obtain ⟨data, hchunk, hround⟩ := noblockLoop_ask hcall hworld.serves hne
    rfl rfl (hworld.wellFormed.piece_in hok)
  exact ⟨_, hround, ⟨rfl, hat.start_rproc hloader, hat.target⟩, hchunk, rfl, rfl⟩

/-- **After the data** the missing headers are loaded, and with them the
load ends. -/
theorem noblockLoop_post (hworld : NoblockWorld store env img rproc)
    (hstate : rproc.state = .ready) (hloader : rproc.loader = true)
    {target : Mem} (hcarried : img.RscCarried env rproc target) (n : Nat) :
    ∀ (run : NoblockRun) (stage : HdrStage) (k : Nat),
    NoblockAt img env.heap rproc target run stage .post k → stage ≠ .phdrs →
    img.StageOk stage →
    (stage ≠ .complete →
      img.Chunk (chunkOf run.imgData) run.offset run.len) →
    4 ≤ n + (img.advance run.offset run.len stage).rank →
    Settles (fun fuel => (noblockLoop store env fuel run).val) fun out =>
      noblockView out = img.loadedView env.heap rproc target true := by
  have hwf := hworld.wellFormed
  induction n with
  | zero =>
    intro run stage k _ _ _ _ hrank
    have hle := (img.advance run.offset run.len stage).rank_le
    omega
  | succ n ih =>
    intro run stage k hat hph hok hchunk hrank
    by_cases hdone : stage = .complete
    · subst hdone
      exact noblockLoop_post_done hworld hstate hloader hat hcarried
        (img.elfLoadHeader_complete env.heap _ _ _ .post k _ _)
    · have hstage : stage = .shdrs ∨ stage = .shstrtab := by
        cases stage with
        | phdrs => exact absurd rfl hph
        | shdrs => exact .inl rfl
        | shstrtab => exact .inr rfl
        | complete => exact absurd rfl hdone
      have hphase : img.phaseAfter run.offset run.len stage .post = .post := by
        rcases hstage with rfl | rfl <;> simp [Image.phaseAfter]
      have hnot : stage = .phdrs → LoadPhase.post = .notReady ∧ k = 0 :=
        fun h => absurd h hph
      have hheader := img.elfLoadHeader_val hwf.sound hworld.alloc
        (hchunk hdone) hdone hnot (fun h => hok (.inr h)) run.vars.start.noffset
        run.vars.start.nlen
      rw [hphase] at hheader
      have hok' := img.advance_ok hok run.offset run.len
      have hrank' := img.rank_le_advance run.offset run.len stage
      generalize img.advance run.offset run.len stage = next at *
      by_cases hnext : next = .complete
      · -- the chunk at hand was the last one missing
        subst hnext
        exact noblockLoop_post_done hworld hstate hloader hat hcarried hheader
      · have hwait : next = .shdrs ∨ next = .shstrtab := by
          cases next with
          | phdrs =>
            rcases hstage with rfl | rfl <;> exact absurd hrank' (by decide)
          | shdrs => exact .inl rfl
          | shstrtab => exact .inr rfl
          | complete => exact absurd rfl hnext
        have hph' : next ≠ .phdrs := by
          rcases hwait with rfl | rfl <;> decide
        obtain ⟨run', hround, hat', hchunk', hoff, hlen⟩ :=
          noblockLoop_post_ask hworld hstate hloader hat hwait hok' hheader
        -- what is asked for is what is missing, so the rank grows
        have hgrow := img.rank_advance_piece hnext
        exact .step hround (ih run' next k hat' hph' hok' (fun _ => hchunk')
          (by rw [hoff, hlen]; omega))

/-- Behind the last segment: the chunk at hand is passed under the offset
of the segment, and found to lack what is waited for. -/
theorem noblockLoop_behind (hworld : NoblockWorld store env img rproc)
    (hstate : rproc.state = .ready) (hloader : rproc.loader = true)
    {run : NoblockRun} {target : Mem} {stage : HdrStage} {k : Nat}
    (hat : NoblockAt img env.heap rproc target run stage .post k)
    (hcarried : img.RscCarried env rproc target) (hph : stage ≠ .phdrs)
    (hok : img.StageOk stage) {seg : ElfSegment} (hseg : seg ∈ img.loads)
    (hoff : run.offset = seg.offset) (hlen : run.len = seg.filesz) :
    Settles (fun fuel => (noblockLoop store env fuel run).val) fun out =>
      noblockView out = img.loadedView env.heap rproc target true := by
  by_cases hdone : stage = .complete
  · subst hdone
    exact noblockLoop_post hworld hstate hloader hcarried 1 run .complete k hat
      hph hok (fun h => absurd rfl h) (Nat.le_refl 4)
  · have hwait : stage = .shdrs ∨ stage = .shstrtab := by
      cases stage with
      | phdrs => exact absurd rfl hph
      | shdrs => exact .inl rfl
      | shstrtab => exact .inr rfl
      | complete => exact absurd rfl hdone
    have hlacks := hworld.plain.apart seg hseg stage hwait hok
    rw [← hoff, ← hlen] at hlacks
    have hheader := img.elfLoadHeader_lacks hworld.wellFormed env.heap
      (chunkOf run.imgData) hwait hok hlacks .post k run.vars.start.noffset
      run.vars.start.nlen
    obtain ⟨run', hround, hat', hchunk, hoff', hlen'⟩ :=
      noblockLoop_post_ask hworld hstate hloader hat hwait hok hheader
    exact .step hround (noblockLoop_post hworld hstate hloader hcarried 4 run'
      stage k hat' hph hok (fun _ => hchunk) (by omega))

/-! ### The data -/

/-- What is behind the file part of a segment is filled. -/
theorem NoblockVars.pad_handOut (v : NoblockVars) (seg : ElfSegment)
    (mem : RemoteprocMem) (info : Option ElfInfo) (target : Mem) :
    ({ v.handOut seg mem info with target := target } : NoblockVars).pad =
      { v.handOut seg mem info with
        target := if seg.filesz < seg.memsz then
            (metalIoBlockSet mem.io target (metalIoPhysToOffset mem.io
              (remoteprocDatopa mem seg.paddr + seg.filesz)) 0
              (sizeToInt (seg.memsz - seg.filesz))).2
          else target } := by
  by_cases h : seg.filesz < seg.memsz
  · rw [if_pos h]
    exact if_pos h
  · rw [if_neg h]
    exact if_neg h

/-- A round that hands out a segment has it placed. -/
theorem noblockLoop_segment (hserves : Serves store img) {run : NoblockRun}
    {v : NoblockVars} {seg : ElfSegment} {mem : RemoteprocMem}
    {stage : HdrStage} {phase : LoadPhase} {k : Nat}
    (hcall : (remoteprocLoadNoblock env run.imgData run.offset run.len
      run.vars.reset).val = (0, v.handOut seg mem
        (some (img.infoAt env.heap stage phase k))))
    (hmem : mem.Valid) (hin : (MemKey.da seg.paddr).In mem)
    (hpos : seg.memsz ≠ 0)
    (himg : seg.offset.toNat + seg.filesz.toNat ≤ img.len) :
    ∃ run', (∀ fuel, (noblockLoop store env (fuel + 1) run).val =
        (noblockLoop store env fuel run').val) ∧
      NoblockAt img env.heap v.rproc (img.place mem seg v.target) run' stage
        phase k ∧
      run'.offset = seg.offset ∧ run'.len = seg.filesz := by
  obtain ⟨data, hround⟩ := noblockLoop_place hcall hserves
    (fun h => hpos h.2) (remoteprocDatopa_ne_bad hmem hin) himg
  simp only [NoblockVars.pad_handOut] at hround
  exact ⟨_, hround, ⟨rfl, rfl, rfl⟩, rfl, rfl⟩

/-- **The data is loaded**, from program header `k` on. `v` is what the
caller's variables hold when `elf_load` is called. -/
theorem noblockLoop_ready (hworld : NoblockWorld store env img rproc)
    (hstate : rproc.state = .ready) (hloader : rproc.loader = true) (m : Nat) :
    ∀ (run : NoblockRun) (v : NoblockVars) (stage : HdrStage) (k : Nat),
    img.ehdr.phnum.toNat - k < m →
    (remoteprocLoadNoblock env run.imgData run.offset run.len
      run.vars.reset).val = (noblockData env run.imgData run.offset run.len
        (some (img.infoAt env.heap stage .ready k)) (pack stage .ready k) v).val →
    v.rproc = rproc → v.nmlen = 0 →
    v.nlen = 0 ∨ loadsFrom img.segmentAt img.ehdr.phnum.toNat k ≠ [] →
    stage ≠ .phdrs → img.StageOk stage → k < 256 → k < img.ehdr.phnum.toNat →
    (stage = .complete ∨ img.EndsLoad → img.RscCarried env rproc
      (img.placeAll rproc.mems
        (loadsFrom img.segmentAt img.ehdr.phnum.toNat k) v.target).1) →
    Settles (fun fuel => (noblockLoop store env fuel run).val) fun out =>
      noblockView out = img.loadedView env.heap rproc
        (img.placeAll rproc.mems
          (loadsFrom img.segmentAt img.ehdr.phnum.toNat k) v.target).1
        (stage = .complete ∨ img.EndsLoad) := by
  have hwf := hworld.wellFormed
  induction m with
  | zero =>
    intro run v stage k hm
    omega
  | succ m ih =>
    intro run v stage k hm hcall hrproc hmlen hlen hph hok hk hkn hcarried
    subst hrproc
    have hready := (pack_ready stage .ready k).mpr rfl
    rcases img.elfLoad_next hwf env.heap (chunkOf run.imgData) run.offset run.len
      hph hk (Nat.le_of_lt hkn) v.noffset v.nlen v.padding v.nmlen with
      ⟨j, h1, h2, hload, hloads, hnext⟩ | ⟨hnone, no, hnext⟩
    · -- `j` is the next loadable segment
      have hseg := img.mem_loads h2 hload
      obtain ⟨mem, hmem, hin, -, hsel⟩ :=
        hworld.registered.select hworld.mems hseg
      have hpos := hworld.plain.memsz_ne _ hseg
      generalize hphase : (if j + 1 = img.ehdr.phnum.toNat then LoadPhase.post
        else .ready) = phase at hnext
      have hmore : pack stage phase (j + 1) &&& RPROC_LOADER_LOAD_COMPLETE = 0 := by
        refine not_not.mp fun h => ?_
        have h := (pack_loadComplete stage phase (j + 1)).mp h
        rw [h] at hphase
        split at hphase <;> cases hphase
      rw [noblockData_segment (.inl hready) hnext (pack_nonneg _ _ _) hmore hmem
        hsel hin hpos] at hcall
      obtain ⟨run', hround, hat, hoff', hlen'⟩ := noblockLoop_segment
        hworld.serves hcall hmem hin hpos (hworld.plain.inside _ hseg)
      have hplaced : img.placeAll v.rproc.mems (loadsFrom img.segmentAt
          img.ehdr.phnum.toNat k) v.target = img.placeAll v.rproc.mems
          (loadsFrom img.segmentAt img.ehdr.phnum.toNat (j + 1))
          (img.place mem (img.segmentAt j) v.target) := by
        rw [hloads]
        simp only [Image.placeAll, hsel, if_neg hpos]
      rw [hplaced] at hcarried ⊢
      refine .step hround ?_
      by_cases hlast : j + 1 = img.ehdr.phnum.toNat
      · -- behind the last header: the rest of the headers
        rw [if_pos hlast] at hphase
        subst hphase
        have hends : img.EndsLoad := by
          refine ⟨by omega, ?_⟩
          rw [← hlast, Nat.add_sub_cancel]
          exact hload
        rw [loadsFrom_end (Nat.le_of_eq hlast.symm)] at hcarried ⊢
        simp only [Image.placeAll, hends, or_true, decide_true, forall_const]
          at hcarried ⊢
        exact noblockLoop_behind hworld hstate hloader hat hcarried hph hok hseg
          hoff' hlen'
      · rw [if_neg hlast] at hphase
        subst hphase
        have hphnum := hwf.phnum_le
        have hcall' := congrArg Traced.val
          (hat.call env hstate hloader)
        rw [noblockHeader_ready ((pack_ready stage .ready (j + 1)).mpr rfl)]
          at hcall'
        have htarget : run'.vars.start.target =
            img.place mem (img.segmentAt j) v.target := hat.target
        rw [← htarget] at hcarried ⊢
        exact ih run' run'.vars.start stage (j + 1) (by omega) hcall'
          (hat.start_rproc hloader) rfl (.inl rfl) hph hok (by omega) (by omega)
          hcarried
    · -- no loadable segment is left
      have hzero : v.nlen = 0 := hlen.resolve_right (not_not.mpr hnone)
      have hdone := (pack_loadComplete stage .complete
        img.ehdr.phnum.toNat).mpr rfl
      have hval := noblockData_none (.inl hready) hnext (pack_nonneg _ _ _) rfl
        hdone
      have hnot := Image.not_endsLoad (.inl hkn) hnone
      simp only [hzero, ne_eq, not_true, if_false] at hval
      rw [hnone] at hcarried ⊢
      simp only [Image.placeAll, hnot, or_false] at hcarried ⊢
      have hloop := noblockLoop_complete hworld (hcall.trans hval) rfl rfl hmlen
        hcarried
      exact hloop

/-! ### The headers -/

/-- The stage in which the data begins, after a first chunk of this length
with the whole ELF header. -/
def Image.dataStage (img : Image) (len : UInt64) : HdrStage :=
  if img.advance 0 len .phdrs = .phdrs then
    img.advance (img.piece .phdrs).1 (img.piece .phdrs).2 .phdrs
  else img.advance 0 len .phdrs

theorem Image.stageOk_phdrs (img : Image) : img.StageOk .phdrs := by
  rintro (h | h) <;> cases h

/-- Before the data, neither of the bits that would stop a header call is
set. -/
theorem notReady_tests :
    pack .phdrs .notReady 0 &&& RPROC_LOADER_READY_TO_LOAD = 0 ∧
      pack .phdrs .notReady 0 &&& RPROC_LOADER_LOAD_COMPLETE = 0 := by
  decide

/-- The outcome of a load whose data begins in this stage. -/
def Image.Outcome (img : Image) (heap : Heap) (rproc : Rproc) (target : Mem)
    (stage : HdrStage) (out : Int32 × NoblockRun) : Prop :=
  noblockView out = img.loadedView heap rproc
    (img.placeAll rproc.mems img.loads target).1
    (stage = .complete ∨ img.EndsLoad)

/-- Where all headers come, the resource table comes with the program. -/
def Image.CarriedIf (img : Image) (env : NoblockEnv) (rproc : Rproc)
    (target : Mem) (stage : HdrStage) : Prop :=
  stage = .complete ∨ img.EndsLoad → img.RscCarried env rproc
    (img.placeAll rproc.mems img.loads target).1

/-- With the program headers at hand the call goes on to the data. -/
theorem noblockLoop_data (hworld : NoblockWorld store env img rproc)
    (hstate : rproc.state = .ready) (hloader : rproc.loader = true)
    {run : NoblockRun} {info : Option ElfInfo} {last : Int32}
    (hcall : remoteprocLoadNoblock env run.imgData run.offset run.len
      run.vars.reset = noblockHeader env run.imgData run.offset run.len info
        last run.vars.start)
    (hlast : last &&& RPROC_LOADER_READY_TO_LOAD = 0 ∧
      last &&& RPROC_LOADER_LOAD_COMPLETE = 0)
    {stage : HdrStage} (hph : stage ≠ .phdrs) (hok : img.StageOk stage)
    (hheader : (elfLoadHeader env.heap (chunkOf run.imgData) run.offset run.len
      info last run.vars.start.noffset run.vars.start.nlen).val =
        img.headerOut env.heap stage .ready 0 run.vars.start.noffset)
    (hrproc : run.vars.start.rproc = rproc)
    (hcarried : img.CarriedIf env rproc run.vars.target stage) :
    Settles (fun fuel => (noblockLoop store env fuel run).val)
      (img.Outcome env.heap rproc run.vars.target stage) := by
  have hloads := hworld.plain.loads_ne
  rw [img.loads_eq] at hloads
  have hpos : 0 < img.ehdr.phnum.toNat := by
    refine Nat.pos_of_ne_zero fun hzero => hloads ?_
    exact loadsFrom_end (Nat.le_of_eq hzero)
  have hgo := noblockHeader_go hlast hheader (pack_nonneg stage .ready 0)
    (.inr ((pack_ready stage .ready 0).mpr rfl))
  have hval := (congrArg Traced.val hcall).trans hgo
  simp only [Image.CarriedIf, img.loads_eq] at hcarried
  have hloop := noblockLoop_ready hworld hstate hloader
    (img.ehdr.phnum.toNat + 1) run _ stage 0 (by omega) hval hrproc rfl
    (.inr hloads) hph hok (by decide) hpos hcarried
  refine hloop.mono fun out hout => ?_
  rw [Image.Outcome, img.loads_eq]
  exact hout

/-- The caller before the ELF header is known. -/
structure NoblockOpened (img : Image) (rproc : Rproc) (target : Mem)
    (run : NoblockRun) : Prop where
  info : run.vars.info = none
  offset : run.offset = 0
  chunk : img.Chunk (chunkOf run.imgData) 0 run.len
  identified : run.Identified
  rproc : run.vars.start.rproc = rproc
  target : run.vars.target = target

variable (env) in
theorem NoblockOpened.call {run : NoblockRun} {target : Mem}
    (hopen : NoblockOpened img rproc target run) (hstate : rproc.state = .ready) :
    remoteprocLoadNoblock env run.imgData run.offset run.len run.vars.reset =
      noblockHeader env run.imgData run.offset run.len none ELF_STATE_INIT
        run.vars.start := by
  have hst : run.vars.rproc.state = .ready := by
    rw [← hstate, ← hopen.rproc]
    rfl
  rw [remoteprocLoadNoblock_go hst hopen.identified (.inl ⟨hopen.info, rfl⟩),
    hopen.info]
  rfl

/-- An image with something to load has program headers. -/
theorem NoblockWorld.phdrs_ne_zero (hworld : NoblockWorld store env img rproc) :
    (img.piece .phdrs).2 ≠ 0 := by
  intro hzero
  have hsize := congrArg UInt64.toNat hzero
  rw [show (img.piece .phdrs).2 = img.ehdr.phdrsSize from rfl,
    hworld.wellFormed.phdrsSize_toNat, UInt64.toNat_zero] at hsize
  have hbig : 0 < phdrSize img.ehdr.is64 := by cases img.ehdr.is64 <;> decide
  have hnum : img.ehdr.phnum.toNat = 0 :=
    (Nat.mul_eq_zero.mp hsize).resolve_right (by omega)
  apply hworld.plain.loads_ne
  rw [img.loads_eq]
  exact loadsFrom_end (Nat.le_of_eq hnum)

theorem HdrStage.phase_ready {stage : HdrStage} (h : stage ≠ .phdrs) :
    stage.phase = .ready := by
  cases stage with
  | phdrs => exact absurd rfl h
  | _ => rfl

/-- The round that has been given the program headers. -/
theorem noblockLoop_phdrs (hworld : NoblockWorld store env img rproc)
    (hstate : rproc.state = .ready) (hloader : rproc.loader = true)
    {run : NoblockRun} {target : Mem}
    (hat : NoblockAt img env.heap rproc target run .phdrs .notReady 0)
    (hchunk : img.Chunk (chunkOf run.imgData) run.offset run.len)
    (hoff : run.offset = (img.piece .phdrs).1)
    (hlen : run.len = (img.piece .phdrs).2)
    (hcarried : img.CarriedIf env rproc target
      (img.advance (img.piece .phdrs).1 (img.piece .phdrs).2 .phdrs)) :
    Settles (fun fuel => (noblockLoop store env fuel run).val)
      (img.Outcome env.heap rproc target
        (img.advance (img.piece .phdrs).1 (img.piece .phdrs).2 .phdrs)) := by
  have hnot : HdrStage.phdrs ≠ .complete := by decide
  have hfirst : HdrStage.phdrs = .phdrs → LoadPhase.notReady = .notReady ∧ 0 = 0 :=
    fun _ => ⟨rfl, rfl⟩
  have hheader := img.elfLoadHeader_val hworld.wellFormed.sound hworld.alloc
    hchunk hnot hfirst (nomatch ·) run.vars.start.noffset run.vars.start.nlen
  have hphase := img.phaseAfter_phase run.offset run.len .phdrs
  have hnext := img.rank_advance_piece hnot
  have hok := img.advance_ok img.stageOk_phdrs run.offset run.len
  rw [← hoff, ← hlen] at hcarried hnext ⊢
  have hph : img.advance run.offset run.len .phdrs ≠ .phdrs := by
    intro h
    rw [h] at hnext
    exact absurd hnext (by decide)
  rw [show LoadPhase.notReady = HdrStage.phase .phdrs from rfl, hphase,
    HdrStage.phase_ready hph] at hheader
  rw [← hat.target] at hcarried ⊢
  exact noblockLoop_data hworld hstate hloader (hat.call env hstate hloader)
    notReady_tests hph hok hheader (hat.start_rproc hloader) hcarried

/-- The rounds from the one on that has the whole ELF header. -/
theorem noblockLoop_whole (hworld : NoblockWorld store env img rproc)
    (hstate : rproc.state = .ready) (hloader : rproc.loader = true)
    {run : NoblockRun} {target : Mem}
    (hopen : NoblockOpened img rproc target run)
    (hlen : (ehdrSize img.ehdr.is64).toNat ≤ run.len.toNat)
    (hcarried : img.CarriedIf env rproc target (img.dataStage run.len)) :
    Settles (fun fuel => (noblockLoop store env fuel run).val)
      (img.Outcome env.heap rproc target (img.dataStage run.len)) := by
  have hwf := hworld.wellFormed
  have hfirst : (elfLoadHeader env.heap (chunkOf run.imgData) run.offset run.len
      none ELF_STATE_INIT run.vars.start.noffset run.vars.start.nlen).val =
      img.headerOut env.heap (img.advance 0 run.len .phdrs)
        (img.advance 0 run.len .phdrs).phase 0 run.vars.start.noffset := by
    rw [hopen.offset, ← img.phaseAfter_phase 0 run.len .phdrs]
    exact Image.elfLoadHeader_first hwf.sound hworld.alloc hopen.chunk hlen _ _
  have hcall := hopen.call env hstate
  by_cases hph : img.advance 0 run.len .phdrs = .phdrs
  · -- the program headers have to be asked for
    have hstage : img.dataStage run.len = img.advance (img.piece .phdrs).1
        (img.piece .phdrs).2 .phdrs := if_pos hph
    rw [hph] at hfirst
    have hne := hworld.phdrs_ne_zero
    have hval := (congrArg Traced.val hcall).trans
      (noblockHeader_wait (by decide) hfirst (pack_nonneg _ _ _) hne
        notReady_tests.1)
    obtain ⟨data, hchunk, hround⟩ := noblockLoop_ask hval hworld.serves hne rfl
      rfl (hwf.piece_in img.stageOk_phdrs)
    refine .step hround ?_
    rw [hstage] at hcarried ⊢
    exact noblockLoop_phdrs hworld hstate hloader
      ⟨rfl, hopen.rproc, hopen.target⟩ hchunk rfl rfl hcarried
  · have hstage : img.dataStage run.len = img.advance 0 run.len .phdrs :=
      if_neg hph
    rw [hstage, ← hopen.target] at hcarried ⊢
    rw [HdrStage.phase_ready hph] at hfirst
    exact noblockLoop_data hworld hstate hloader hcall (by decide) hph
      (img.advance_ok img.stageOk_phdrs 0 run.len) hfirst hopen.rproc hcarried

variable (env) in
/-- A round without the whole ELF header asks for it. -/
theorem noblockLoop_short (hserves : Serves store img)
    (hstate : rproc.state = .ready) {run : NoblockRun} {target : Mem}
    (hopen : NoblockOpened img rproc target run)
    (hlen : run.len < ehdrSize (elfIs64 (chunkOf run.imgData)))
    (hin : (ehdrSize (elfIs64 (chunkOf run.imgData))).toNat ≤ img.len) :
    ∃ run', NoblockOpened img rproc target run' ∧
      run'.len = ehdrSize (elfIs64 (chunkOf run.imgData)) ∧
      ∀ fuel, (noblockLoop store env (fuel + 1) run).val =
        (noblockLoop store env fuel run').val := by
  have hne : ehdrSize (elfIs64 (chunkOf run.imgData)) ≠ 0 := by
    cases elfIs64 (chunkOf run.imgData) <;> decide
  have hcall := (congrArg Traced.val (hopen.call env hstate)).trans
    (noblockHeader_wait (by decide) (Image.elfLoadHeader_short env.heap
      run.offset none hlen _ _) (by change ¬ ELF_STATE_INIT < 0; decide) hne
      (by change ELF_STATE_INIT &&& RPROC_LOADER_READY_TO_LOAD = 0; decide))
  obtain ⟨data, hchunk, hround⟩ := noblockLoop_ask hcall hserves hne rfl rfl
    (by
      change (0 : UInt64).toNat + _ ≤ img.len
      rw [UInt64.toNat_zero, Nat.zero_add]
      exact hin)
  refine ⟨_, ?_, ?_, hround⟩
  · exact ⟨rfl, rfl, hchunk, .inl rfl, hopen.rproc, hopen.target⟩
  · rfl

/-- **From the first chunk on** the load comes to its end. -/
theorem noblockLoop_opened (hworld : NoblockWorld store env img rproc)
    (hstate : rproc.state = .ready) (hloader : rproc.loader = true)
    {run : NoblockRun} {target : Mem}
    (hopen : NoblockOpened img rproc target run)
    (hclass : EI_CLASS < run.len.toNat ∨ 64 ≤ img.len)
    (hcarried : img.CarriedIf env rproc target
      (img.dataStage (img.headerLen (chunkOf run.imgData) run.len))) :
    Settles (fun fuel => (noblockLoop store env fuel run).val)
      (img.Outcome env.heap rproc target
        (img.dataStage (img.headerLen (chunkOf run.imgData) run.len))) := by
  have hwf := hworld.wellFormed
  have hsmall : ∀ c, (ehdrSize c).toNat ≤ 64 := by decide
  have hlarge : ∀ c, EI_CLASS < (ehdrSize c).toNat := by decide
  simp only [Image.headerLen] at hcarried ⊢
  by_cases hshort : run.len < ehdrSize (elfIs64 (chunkOf run.imgData))
  · -- the first chunk ends inside the ELF header
    rw [if_pos hshort] at hcarried ⊢
    have hin : (ehdrSize (elfIs64 (chunkOf run.imgData))).toNat ≤ img.len := by
      rcases hclass with h | h
      · rw [Image.elfIs64_of_chunk hopen.chunk h]
        exact hwf.ehdr_in
      · exact Nat.le_trans (hsmall _) h
    obtain ⟨run₁, hopen₁, hlen₁, hround₁⟩ :=
      noblockLoop_short env hworld.serves hstate hopen hshort hin
    refine .step hround₁ ?_
    by_cases hsize : ehdrSize (elfIs64 (chunkOf run.imgData)) <
        ehdrSize img.ehdr.is64
    · -- the class was read from behind a very short chunk: ask once more
      rw [if_pos hsize] at hcarried ⊢
      have hclass₁ : elfIs64 (chunkOf run₁.imgData) = img.ehdr.is64 := by
        refine Image.elfIs64_of_chunk hopen₁.chunk ?_
        rw [hlen₁]
        exact hlarge _
      obtain ⟨run₂, hopen₂, hlen₂, hround₂⟩ := noblockLoop_short env
        hworld.serves hstate hopen₁ (by rw [hlen₁, hclass₁]; exact hsize)
        (by rw [hclass₁]; exact hwf.ehdr_in)
      rw [hclass₁] at hlen₂
      rw [← hlen₂] at hcarried ⊢
      exact .step hround₂ (noblockLoop_whole hworld hstate hloader hopen₂
        (Nat.le_of_eq (by rw [hlen₂])) hcarried)
    · rw [if_neg hsize, ← hlen₁] at hcarried ⊢
      exact noblockLoop_whole hworld hstate hloader hopen₁
        (by rw [hlen₁]; exact UInt64.le_iff_toNat_le.mp (UInt64.not_lt.mp hsize))
        hcarried
  · -- the whole header is there at once
    rw [if_neg hshort] at hcarried ⊢
    have hge := UInt64.le_iff_toNat_le.mp (UInt64.not_lt.mp hshort)
    have hwhole : EI_CLASS < run.len.toNat := Nat.lt_of_lt_of_le (hlarge _) hge
    rw [Image.elfIs64_of_chunk hopen.chunk hwhole] at hge
    exact noblockLoop_whole hworld hstate hloader hopen hge hcarried

end Loop

/-! ## With and without blocking -/

section Agree

variable {store : ImageStoreOps} {env : NoblockEnv} {img : Image}
  {rproc : Rproc}

/-- The stage in which the data begins, by what the store opens with. -/
def Image.noblockStage (img : Image) (store : ImageStoreOps) : HdrStage :=
  img.dataStage (img.headerLen store.openImg.2 (intToSize store.openImg.1))

/-- The remote processor once its loader is known. -/
def Rproc.identified (rproc : Rproc) : Rproc := { rproc with loader := true }

/-- The load without blocking comes to its end, with the program in place
and the entry point known. -/
theorem loadExectuableNoblock_outcome
    (hworld : NoblockWorld store env img rproc) (hopen : Opens store img)
    (hstate : rproc.state = .ready) (target : Mem)
    (hcarried : img.CarriedIf env rproc target (img.noblockStage store))
    (noffset : UInt64) (padding : UInt8) :
    Settles (fun fuel => (loadExectuableNoblock store env fuel rproc target
      noffset padding).val)
      (img.Outcome env.heap rproc target (img.noblockStage store)) := by
  have hgo := hopen.go (.inl hstate)
  have hident := hopen.ident
  have hpos : ¬ store.openImg.1 ≤ 0 := by
    rw [Int32.le_iff_toInt_le]
    exact fun h => hgo (.inr (.inl h))
  have hlen := LoadRefused.len_toNat hgo
  have hopened := hopen.toFirstChunk.opened hgo target
  simp only [loadExectuableNoblock, if_neg hpos]
  have hworld' : NoblockWorld store env img rproc.identified :=
    ⟨hworld.1, hworld.2, hworld.3, hworld.4, hworld.5, hworld.6, hworld.7⟩
  have hcarried' : img.CarriedIf env rproc.identified target
      (img.noblockStage store) := fun hall => ⟨(hcarried hall).1,
    (hcarried hall).2, (hcarried hall).3, (hcarried hall).4⟩
  have hnonempty : intToSize store.openImg.1 ≠ 0 := by
    intro hzero
    have hzero : (intToSize store.openImg.1).toNat = 0 :=
      congrArg UInt64.toNat hzero
    omega
  have hfirst : NoblockOpened img rproc.identified target
      ⟨⟨rproc, target, none, METAL_BAD_PHYS, none, noffset, 0, 0, padding⟩, 0,
        some store.openImg.2, 0, intToSize store.openImg.1⟩ :=
    ⟨rfl, rfl, hopened.chunk, .inr ⟨rfl, rfl, hnonempty,
      hopen.toFirstChunk.identified hworld.wellFormed hident⟩, rfl, rfl⟩
  have hloop := noblockLoop_opened hworld' hstate rfl hfirst
    (hopen.toFirstChunk.class_known hgo target) hcarried'
  exact hloop

/-- Both loads come to an end, and nobody can tell one from the other. -/
def NoblockAgrees (store : ImageStoreOps) (env : NoblockEnv) (rproc : Rproc)
    (target : Mem) : Prop :=
  ∃ v : LoadView,
    Settles (fun fuel => (remoteprocLoad (store.withSeek true) env.heap fuel
      rproc target).val) (fun out => out.view = v) ∧
    ∀ noffset padding, Settles (fun fuel => (loadExectuableNoblock store env
      fuel rproc target noffset padding).val) fun out => noblockView out = v

end Agree

/-- A remote processor that has been configured. -/
def readyRproc : Rproc := { pageRproc with state := .ready }

theorem tableAndNote_plain : tableAndNote.LoadsPlain := by
  have hloads : tableAndNote.loads = [⟨1, 116, 0x1000, 16, 16⟩] := by
    decide +kernel
  refine ⟨by rw [hloads]; exact List.cons_ne_nil _ _, ?_, ?_, ?_⟩
  · rw [hloads]
    decide
  · rw [hloads]
    decide +kernel
  · intro seg hseg stage hstage _
    rw [hloads, List.mem_singleton] at hseg
    subst hseg
    rcases hstage with rfl | rfl <;> decide +kernel

theorem tableAndNote_world (first : Int32) :
    NoblockWorld (tableAndNote.store first true) ⟨plainHeap, 0⟩ tableAndNote
      readyRproc where
  wellFormed := tableAndNote_wellFormed
  plain := tableAndNote_plain
  serves := tableAndNote.serves_store first true
  alloc _ := rfl
  mems := pageRproc_valid
  registered := tableAndNote_registered
  rscRegistered := tableAndNote_rscRegistered

end OpenAmp.Remoteproc
