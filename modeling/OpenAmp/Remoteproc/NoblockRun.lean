import OpenAmp.Remoteproc.Noblock
import OpenAmp.Remoteproc.Stream

/-!
# A round of a load without blocking

What a call of `remoteproc_load_noblock` comes to on a well-formed image,
part by part, and what its caller makes of it: a chunk is fetched, a
segment is placed, or the load is over. The resource table that came with
the program is handled as the one in the image is.
-/

namespace OpenAmp.Remoteproc

open OpenAmp.Lib OpenAmp.Metal

/-! ## Rounds -/

section Rounds

variable {store : ImageStoreOps} {env : NoblockEnv} {run : NoblockRun}
  {v : NoblockVars}

/-- The variables as the call goes on to the headers. -/
def NoblockVars.start (v : NoblockVars) : NoblockVars :=
  { v.reset with rproc := { v.rproc with loader := true } }

/-- The image can be told from the chunk, if that is still to be done. -/
def NoblockRun.Identified (run : NoblockRun) : Prop :=
  run.vars.rproc.loader = true ∨
    run.imgData.isSome ∧ run.offset = 0 ∧ run.len ≠ 0 ∧
      elfIdentify (chunkOf run.imgData) run.len = true

/-- The call of a round, once it is admitted. -/
theorem remoteprocLoadNoblock_go (hstate : run.vars.rproc.state = .ready)
    (hid : run.Identified) {last : Int32}
    (hlast : run.vars.info = none ∧ last = 0 ∨
      ∃ info, run.vars.info = some info ∧ info.loadState = last ∧ ¬ last < 0) :
    remoteprocLoadNoblock env run.imgData run.offset run.len run.vars.reset =
      noblockHeader env run.imgData run.offset run.len run.vars.info last
        run.vars.start := by
  have hst : ¬ run.vars.reset.rproc.state ≠ .ready := not_not.mpr hstate
  have hno : ¬ (run.vars.reset.rproc.loader = false ∧ (run.imgData.isNone ∨
      run.offset ≠ 0 ∨ run.len = 0 ∨
      elfIdentify (chunkOf run.imgData) run.len = false)) := by
    rintro ⟨hloader, hbad⟩
    have hloader : run.vars.rproc.loader = false := hloader
    rcases hid with h | ⟨hsome, hoff, hlen, hident⟩
    · rw [hloader] at h
      cases h
    · rcases hbad with h | h | h | h
      · rw [Option.isNone_iff_eq_none] at h
        rw [h] at hsome
        cases hsome
      · exact h hoff
      · exact hlen h
      · rw [hident] at h
        cases h
  have hval : (if run.vars.info.isNone then 0
      else elfGetLoadState run.vars.info) = last ∧ ¬ last < 0 := by
    rcases hlast with ⟨hnone, rfl⟩ | ⟨info, hsome, hload, hneg⟩
    · rw [hnone]
      exact ⟨rfl, by decide⟩
    · rw [hsome, ← hload]
      exact ⟨rfl, by rwa [hload]⟩
  rw [remoteprocLoadNoblock, if_neg hst, if_neg hno]
  change (if (if run.vars.info.isNone then 0
      else elfGetLoadState run.vars.info) < 0 then _
    else noblockHeader env run.imgData run.offset run.len run.vars.info
      (if run.vars.info.isNone then 0 else elfGetLoadState run.vars.info)
      run.vars.start : Traced Access _) = _
  rw [hval.1, if_neg hval.2]

variable (hcall : (remoteprocLoadNoblock env run.imgData run.offset run.len
  run.vars.reset).val = (0, v))

include hcall

/-- A round that wants nothing more. -/
theorem noblockLoop_done (hlen : v.nlen = 0) (hmem : v.nmlen = 0) (fuel : Nat) :
    (noblockLoop store env (fuel + 1) run).val =
      some (0, { run with vars := v }) := by
  simp only [noblockLoop, Traced.val_bind, Traced.val_ite]
  rw [hcall]
  simp [hlen, hmem]

/-- A round that wants a chunk for the loader. -/
theorem noblockLoop_ask {img : Image} (hserves : Serves store img)
    (hlen : v.nlen ≠ 0) (hpa : v.pa = METAL_BAD_PHYS) (hio : v.io = none)
    (hin : v.noffset.toNat + v.nlen.toNat ≤ img.len) :
    ∃ data, img.Chunk data v.noffset v.nlen ∧ ∀ fuel,
      (noblockLoop store env (fuel + 1) run).val =
        (noblockLoop store env fuel
          ⟨v, run.calls + 1, some data, v.noffset, v.nlen⟩).val := by
  obtain ⟨data, hdata, hchunk⟩ :=
    hserves.chunk (n := run.calls) v.target hin
  have hret := hserves.ret run.calls v.noffset v.nlen none v.target hin
  have hpad : v.pad = v := by
    simp only [NoblockVars.pad, hio]
  refine ⟨data, hchunk, fun fuel => ?_⟩
  simp only [noblockLoop, Traced.val_bind, Traced.val_ite]
  rw [hcall]
  have hmore : ¬ (v.nlen = 0 ∧ v.nmlen = 0) := fun h => hlen h.1
  have hpa' : v.storePa = none := if_pos hpa
  simp only [NoblockRun.fetch, hpa', if_neg hmore, Option.isSome_none,
    Bool.false_eq_true, if_false, hret, hdata, Option.some_or]
  simp [hpad]

/-- A round that wants a segment in target memory. -/
theorem noblockLoop_place {img : Image} (hserves : Serves store img)
    (hmore : ¬ (v.nlen = 0 ∧ v.nmlen = 0)) (hpa : v.pa ≠ METAL_BAD_PHYS)
    (hin : v.noffset.toNat + v.nlen.toNat ≤ img.len) :
    ∃ data, ∀ fuel,
      (noblockLoop store env (fuel + 1) run).val =
        (noblockLoop store env fuel ⟨({ v with
            target := writeBytes v.target v.pa.toNat (readBytes img.bytes
              v.noffset.toNat v.nlen.toNat) } : NoblockVars).pad,
          run.calls + 1, data, v.noffset, v.nlen⟩).val := by
  have hret := hserves.ret run.calls v.noffset v.nlen (some v.pa) v.target hin
  have htarget :=
    hserves.target run.calls v.noffset v.nlen v.pa v.target hin
  refine ⟨(store.load run.calls v.noffset v.nlen (some v.pa) v.target).data.or
    run.imgData, fun fuel => ?_⟩
  simp only [noblockLoop, Traced.val_bind, Traced.val_ite]
  rw [hcall]
  simp only [NoblockRun.fetch, NoblockVars.storePa, if_neg hpa, if_neg hmore,
    Option.isSome_some, if_true, hret, htarget]
  simp

end Rounds

/-! ## Parts of a call -/

section Parts

variable {env : NoblockEnv} {data : Option Mem} {offset len : UInt64}
  {info : Option ElfInfo} {last : Int32} {v : NoblockVars}

/-- A header call that has to be followed by another. -/
theorem noblockHeader_wait {h : HeaderOut}
    (hlast : last &&& RPROC_LOADER_READY_TO_LOAD = 0 ∧
      last &&& RPROC_LOADER_LOAD_COMPLETE = 0)
    (hcall : (elfLoadHeader env.heap (chunkOf data) offset len info last
      v.noffset v.nlen).val = h)
    (hret : ¬ h.ret < 0) (hlen : h.nlen ≠ 0)
    (hready : h.ret &&& RPROC_LOADER_READY_TO_LOAD = 0) :
    (noblockHeader env data offset len info last v).val =
      (0, { v with noffset := h.noffset, nlen := h.nlen, info := h.info }) := by
  rw [noblockHeader, if_pos hlast]
  simp only [Traced.val_bind, Traced.val_ite]
  rw [hcall, if_neg hret, if_pos ⟨hlen, hready⟩]
  rfl

/-- A header call behind which the data can be seen to. -/
theorem noblockHeader_go {h : HeaderOut}
    (hlast : last &&& RPROC_LOADER_READY_TO_LOAD = 0 ∧
      last &&& RPROC_LOADER_LOAD_COMPLETE = 0)
    (hcall : (elfLoadHeader env.heap (chunkOf data) offset len info last
      v.noffset v.nlen).val = h)
    (hret : ¬ h.ret < 0)
    (hgo : h.nlen = 0 ∨ h.ret &&& RPROC_LOADER_READY_TO_LOAD ≠ 0) :
    (noblockHeader env data offset len info last v).val =
      (noblockData env data offset len h.info h.ret
        { v with noffset := h.noffset, nlen := h.nlen }).val := by
  have hno : ¬ (h.nlen ≠ 0 ∧ h.ret &&& RPROC_LOADER_READY_TO_LOAD = 0) :=
    fun hwait => hgo.elim hwait.1 (fun hne => hne hwait.2)
  rw [noblockHeader, if_pos hlast]
  simp only [Traced.val_bind, Traced.val_ite]
  rw [hcall, if_neg hret, if_neg hno]

/-- The caller's variables when a segment is handed out. -/
def NoblockVars.handOut (v : NoblockVars) (seg : ElfSegment)
    (mem : RemoteprocMem) (info : Option ElfInfo) : NoblockVars :=
  { v with
    info := info
    pa := remoteprocDatopa mem seg.paddr
    io := some mem.io
    noffset := seg.offset
    nlen := seg.filesz
    nmlen := seg.memsz
    padding := 0 }

/-- The call hands out a segment that a memory takes. -/
theorem noblockData_segment {seg : ElfSegment} {ret : Int32}
    {info' : Option ElfInfo}
    (hlast : last &&& RPROC_LOADER_READY_TO_LOAD ≠ 0 ∨
      last &&& RPROC_LOADER_POST_DATA_LOAD ≠ 0)
    (hcall : (elfLoad env.heap (chunkOf data) offset len info last
      RPROC_LOAD_ANYADDR v.noffset v.nlen v.padding v.nmlen).val =
        seg.out ret info')
    (hret : ¬ ret < 0) (hmore : ret &&& RPROC_LOADER_LOAD_COMPLETE = 0)
    {mem : RemoteprocMem} (hmem : mem.Valid)
    (hsel : (MemKey.da seg.paddr).select v.rproc.mems seg.memsz = some mem)
    (hin : (MemKey.da seg.paddr).In mem) (hpos : seg.memsz ≠ 0) :
    (noblockData env data offset len info last v).val =
      (0, v.handOut seg mem info') := by
  have hda : seg.paddr ≠ METAL_BAD_PHYS := hin.ne_bad hmem
  have hda' : seg.paddr ≠ RPROC_LOAD_ANYADDR := hda
  have hmap : remoteprocMmap v.rproc.mems v.rproc.ops (some METAL_BAD_PHYS)
      (some seg.paddr) seg.memsz v.io =
      ⟨metalIoPhysToVirt mem.io (remoteprocDatopa mem seg.paddr),
        remoteprocDatopa mem seg.paddr, seg.paddr, some mem.io⟩ :=
    remoteprocMmap_da v.rproc.ops hda hpos hsel _ (.inr rfl) v.io
  have hpa := remoteprocDatopa_ne_bad hmem hin
  rw [noblockData, if_pos hlast]
  simp only [Traced.val_bind, Traced.val_ite]
  rw [hcall]
  simp only [ElfSegment.out, if_neg hret, hmap, if_pos hda', hpa, and_false,
    if_false, hmore, ne_eq, not_true_eq_false, Traced.val_pure, ite_self]
  rfl

/-- The call has no segment to hand out. -/
theorem noblockData_none {d : DataOut}
    (hlast : last &&& RPROC_LOADER_READY_TO_LOAD ≠ 0 ∨
      last &&& RPROC_LOADER_POST_DATA_LOAD ≠ 0)
    (hcall : (elfLoad env.heap (chunkOf data) offset len info last
      RPROC_LOAD_ANYADDR v.noffset v.nlen v.padding v.nmlen).val = d)
    (hret : ¬ d.ret < 0) (hda : d.da = RPROC_LOAD_ANYADDR)
    (hdone : d.ret &&& RPROC_LOADER_LOAD_COMPLETE ≠ 0) :
    let v' : NoblockVars := { v with
      noffset := d.noffset
      nlen := d.nlen
      padding := d.padding
      nmlen := d.nmemsize }
    (noblockData env data offset len info last v).val =
      if d.nlen ≠ 0 then (0, { v' with info := d.info })
      else (noblockComplete env d.info v').val := by
  have hno : ¬ d.da ≠ RPROC_LOAD_ANYADDR := not_not.mpr hda
  intro v'
  rw [noblockData, if_pos hlast]
  simp only [Traced.val_bind, Traced.val_ite]
  rw [hcall]
  simp only [if_neg hret, hno, false_and, if_false, if_pos hdone]
  rfl

/-- Once everything is loaded, neither headers nor data are asked for. -/
theorem noblockHeader_complete
    (hready : last &&& RPROC_LOADER_READY_TO_LOAD = 0)
    (hpost : last &&& RPROC_LOADER_POST_DATA_LOAD = 0)
    (hdone : last &&& RPROC_LOADER_LOAD_COMPLETE ≠ 0) :
    noblockHeader env data offset len info last v =
      noblockComplete env info v := by
  have hno : ¬ (last &&& RPROC_LOADER_READY_TO_LOAD ≠ 0 ∨
      last &&& RPROC_LOADER_POST_DATA_LOAD ≠ 0) :=
    not_or.mpr ⟨not_not.mpr hready, not_not.mpr hpost⟩
  rw [noblockHeader, if_neg (fun h => hdone h.2), noblockData, if_neg hno,
    if_pos hdone]

/-- While segments are handed out, the headers are left alone. -/
theorem noblockHeader_ready
    (hready : last &&& RPROC_LOADER_READY_TO_LOAD ≠ 0) :
    noblockHeader env data offset len info last v =
      noblockData env data offset len info last v := by
  rw [noblockHeader, if_neg (fun h => hready h.1)]

end Parts

/-! ## Calls on an image -/

namespace Image

variable {img : Image}

/-- **The next segment**, whatever the caller's variables hold: program
header `j` is handed out, or none is left. -/
theorem elfLoad_next (hwf : img.WellFormed) (heap : Heap) (data : Mem)
    (offset len : UInt64) {stage : HdrStage} (hph : stage ≠ .phdrs) {k : Nat}
    (hk : k < 256) (hn : k ≤ img.ehdr.phnum.toNat) (noffset nlen : UInt64)
    (padding : UInt8) (nmlen : UInt64) :
    let n := img.ehdr.phnum.toNat
    let f := img.segmentAt
    let call := (elfLoad heap data offset len
      (some (img.infoAt heap stage .ready k)) (pack stage .ready k)
      RPROC_LOAD_ANYADDR noffset nlen padding nmlen).val
    (∃ j, k ≤ j ∧ j < n ∧ (f j).IsLoad ∧
      loadsFrom f n k = f j :: loadsFrom f n (j + 1) ∧
      let phase := if j + 1 = n then LoadPhase.post else .ready
      call = (f j).out (pack stage phase (j + 1))
        (some (img.infoAt heap stage phase (j + 1)))) ∨
    (loadsFrom f n k = [] ∧ ∃ noffset', call =
      ⟨pack stage .complete n, some (img.infoAt heap stage .complete n),
        RPROC_LOAD_ANYADDR, noffset', nlen, 0, nmlen⟩) := by
  intro n f call
  have hphdrs : (img.infoAt heap stage .ready k).phdrs =
      some (img.block heap img.ehdr.phoff img.ehdr.phdrsSize) := if_neg hph
  have hmod : k % 256 = k := Nat.mod_eq_of_lt hk
  have hstate : (img.infoAt heap stage .ready k).loadState =
      pack stage .ready k := rfl
  have hval := elfLoadSegment_val hphdrs hstate (by rw [hmod]; exact hn)
    RPROC_LOAD_ANYADDR noffset nlen nmlen
  rw [hmod, ← elfLoad_ready heap data offset len RPROC_LOAD_ANYADDR noffset nlen
    padding nmlen hstate] at hval
  have hroom := segmentEnd_le (Nat.le_of_eq hwf.phdrsSize_toNat.symm)
  have hseg : ∀ i < n, (img.block heap img.ehdr.phoff
      img.ehdr.phdrsSize).segmentAt img.ehdr.is64 i = f i :=
    fun i hi => segmentAt_block heap (hroom i hi)
  have hfrom : ∀ i, loadsFrom ((img.block heap img.ehdr.phoff
      img.ehdr.phdrsSize).segmentAt img.ehdr.is64) n i = loadsFrom f n i :=
    fun i => loadsFrom_congr i hseg
  have hehdr : (img.infoAt heap stage .ready k).ehdr = img.ehdr := rfl
  simp only [hehdr] at hval
  rcases hval with ⟨j, h1, h2, hload, hloads, hcall⟩ | ⟨hnone, noffset', hcall⟩
  · have hj := hseg j h2
    have hloads' : loadsFrom f n k = f j :: loadsFrom f n (j + 1) := by
      rw [← hfrom k, ← hfrom (j + 1), ← hj]
      exact hloads
    refine .inl ⟨j, h1, h2, hj ▸ hload, hloads', ?_⟩
    refine hcall.trans ?_
    simp only [hj, ElfSegment.out]
    rfl
  · exact .inr ⟨(hfrom k).symm.trans hnone, noffset', hcall⟩

/-- A chunk without what a stage waits for leads nowhere, whatever it
holds. -/
theorem elfLoadHeader_lacks (hwf : img.WellFormed) (heap : Heap) (data : Mem)
    {offset len : UInt64} {stage : HdrStage}
    (hstage : stage = .shdrs ∨ stage = .shstrtab) (hok : img.StageOk stage)
    (hlacks : img.lacks offset len stage = true) (phase : LoadPhase) (k : Nat)
    (noffset nlen : UInt64) :
    (elfLoadHeader heap data offset len (some (img.infoAt heap stage phase k))
      (pack stage phase k) noffset nlen).val =
      img.headerOut heap stage phase k noffset := by
  have hsh := hok hstage
  have hstate : (img.infoAt heap stage phase k).loadState =
      pack stage phase k := rfl
  have hwait : ¬ pack stage phase k = ELF_STATE_WAIT_FOR_PHDRS := by
    have hph : stage = .phdrs → phase = .notReady ∧ k = 0 := by
      rcases hstage with rfl | rfl <;> intro h <;> cases h
    rw [pack_eq_waitPhdrs stage phase k hph]
    rcases hstage with rfl | rfl <;> decide
  unfold elfLoadHeader
  rw [if_neg (pack_ne_init stage phase k)]
  simp only [hstate, ne_eq, not_true, if_false, if_neg hwait]
  rcases hstage with rfl | rfl
  · have hl : chunkLacks offset len img.ehdr.shoff img.ehdr.shdrsSize = true :=
      hlacks
    have hehdr : (img.infoAt heap .shdrs phase k).ehdr = img.ehdr := rfl
    rw [if_pos ((pack_shdrs .shdrs phase k).mpr rfl), elfLoadShdrs, hehdr,
      if_neg hsh, if_pos hl]
    rfl
  · have hl : chunkLacks offset len img.strRange.1 img.strRange.2 = true :=
      hlacks
    have hno : ¬ ¬ pack .shstrtab phase k &&& ELF_STATE_WAIT_FOR_SHDRS = 0 :=
      fun h => absurd ((pack_shdrs .shstrtab phase k).mp h) (by decide)
    have hndx := hwf.shstrndx_lt hsh
    have hsection : elfGetSectionFromIndex (img.infoAt heap .shstrtab phase k)
        img.ehdr.shstrndx.toNat =
        some (img.block heap img.ehdr.shoff img.ehdr.shdrsSize) := by
      simp [elfGetSectionFromIndex, infoAt, hsh, hndx]
    have hehdr : (img.infoAt heap .shstrtab phase k).ehdr = img.ehdr := rfl
    have hrange := strRange_block heap
      (hwf.sound.entry hndx (hwf.shdrs_in hsh))
    rw [if_neg hno, if_pos ((pack_shstrtab .shstrtab phase k).mpr rfl),
      elfLoadShstrtab, hehdr, hsection]
    simp only [Traced.val_bind, Traced.val_ite, hrange]
    rw [if_pos hl]
    rfl

/-- With all headers a further header call changes nothing. -/
theorem elfLoadHeader_complete (img : Image) (heap : Heap) (data : Mem)
    (offset len : UInt64) (phase : LoadPhase) (k : Nat)
    (noffset nlen : UInt64) :
    (elfLoadHeader heap data offset len
      (some (img.infoAt heap .complete phase k)) (pack .complete phase k)
      noffset nlen).val =
      ⟨pack .complete phase k, some (img.infoAt heap .complete phase k),
        noffset, nlen⟩ := by
  have hstate : (img.infoAt heap .complete phase k).loadState =
      pack .complete phase k := rfl
  have hwait : ¬ pack .complete phase k = ELF_STATE_WAIT_FOR_PHDRS :=
    fun h => nomatch (pack_eq_waitPhdrs .complete phase k (nomatch ·)).mp h
  have hshdrs : ¬ ¬ pack .complete phase k &&& ELF_STATE_WAIT_FOR_SHDRS = 0 :=
    fun h => nomatch (pack_shdrs .complete phase k).mp h
  have hstr : ¬ ¬ pack .complete phase k &&& ELF_STATE_WAIT_FOR_SHSTRTAB = 0 :=
    fun h => nomatch (pack_shstrtab .complete phase k).mp h
  unfold elfLoadHeader
  rw [if_neg (pack_ne_init .complete phase k)]
  simp only [hstate, ne_eq, not_true, if_false, if_neg hwait, if_neg hshdrs,
    if_neg hstr]
  rfl

/-- After the data, with all headers, whatever the caller's variables
hold. -/
theorem elfLoad_post_done (img : Image) (heap : Heap) (data : Mem)
    (offset len : UInt64) (k : Nat) (noffset nlen : UInt64) (padding : UInt8)
    (nmlen : UInt64) :
    (elfLoad heap data offset len (some (img.infoAt heap .complete .post k))
      (pack .complete .post k) RPROC_LOAD_ANYADDR noffset nlen padding
      nmlen).val =
      ⟨pack .complete .complete k,
        some (img.infoAt heap .complete .complete k), RPROC_LOAD_ANYADDR,
        noffset, 0, 0, nmlen⟩ := by
  have hbit : ¬ (img.infoAt heap .complete .post k).loadState &&&
      ELF_STATE_HDRS_COMPLETE = 0 :=
    fun h => (pack_hdrsComplete .complete .post k).mp h rfl
  have hstate : withPhase (pack .complete .post k) RPROC_LOADER_LOAD_COMPLETE =
      pack .complete .complete k := withPhase_pack .complete .post .complete k
  rw [elfLoad_post heap data offset len RPROC_LOAD_ANYADDR noffset nlen padding
    nmlen rfl, elfLoadPost, if_neg hbit]
  simp only [Traced.val_pure, infoAt, hstate]

end Image

/-! ## The resource table -/

namespace Parser

/-- Where no region is known for the table, its address does not matter. -/
theorem rscLoop_base (env : RscEnv) (base : UInt64) (fuel : Nat) :
    ∀ idx st, rscLoop env base none fuel idx st =
      rscLoop env 0 none fuel idx st := by
  induction fuel with
  | zero => exact fun _ _ => rfl
  | succ fuel ih =>
    intro idx st
    simp only [rscLoop, outsideIo, Option.any_none, Bool.false_eq_true, if_false,
      ih]

theorem handleRscTable_base (env : RscEnv) (base : UInt64) (st : RscState) :
    handleRscTable env base none st = handleRscTable env 0 none st := by
  simp only [handleRscTable, rscLoop_base env base]

end Parser

/-- The address of an offset leads back to it. -/
theorem virtToOffset_virt {io : MetalIoRegion} {o : UInt64} (ho : o < io.size)
    (hmapped : metalIoVirt io o ≠ 0) :
    metalIoVirtToOffset io (metalIoVirt io o) = o := by
  have hvirt : metalIoVirt io o = io.virt + o := by
    rw [metalIoVirt] at hmapped ⊢
    split at hmapped
    · next h => rw [if_pos h]
    · exact absurd rfl hmapped
  have hsub : io.virt + o - io.virt = o := by
    rw [UInt64.add_comm, UInt64.add_sub_cancel]
  simp only [metalIoVirtToOffset, hvirt, hsub, if_pos ho]

/-- The resource table, where the image has one, comes with the program, and
its entries are handled without an error. Its copy is in no region of the
remote processor. -/
structure Image.RscCarried (img : Image) (env : NoblockEnv) (rproc : Rproc)
    (target : Mem) : Prop where
  copy : remoteprocGetIoWithVa rproc.mems rproc.ops env.copy = none
  size_lt : ∀ i, img.rscSection = some i →
    (img.sectionAt i).size.toNat < 2 ^ 31
  handled : ∀ i, img.rscSection = some i → 0 < (img.sectionAt i).size →
    (img.rscFound env.heap rproc).1.table.isSome
  bytes : ∀ i mem, img.rscSection = some i →
    (MemKey.da (img.sectionAt i).addr).select rproc.mems
      (img.sectionAt i).size = some mem →
    ∀ j < (img.sectionAt i).size.toNat,
      target ((remoteprocDatopa mem (img.sectionAt i).addr).toNat + j) =
        img.bytes ((img.sectionAt i).offset.toNat + j)

def NoblockVars.rscView (v : NoblockVars) : RscView :=
  ⟨v.target, v.rproc.rscTable, v.rproc.rscLen, v.rproc.rscIo⟩

section Table

variable {env : NoblockEnv} {img : Image} {v : NoblockVars}

/-- The offset of a device address in the region of its memory, and back. -/
theorem virtToOffset_da {mem : RemoteprocMem} (hmem : mem.Valid) {da : UInt64}
    (hin : (MemKey.da da).In mem) :
    let off := metalIoVirtToOffset mem.io
      (metalIoPhysToVirt mem.io (remoteprocDatopa mem da))
    off.toNat = da.toNat - mem.da.toNat ∧ metalIoVirt mem.io off ≠ 0 := by
  have h1 : mem.da.toNat ≤ da.toNat := hin.1
  have h2 : da.toNat < mem.da.toNat + mem.size.toNat := hin.2
  have hoff := physToOffset_behind hmem hin (n := 0) (by simpa using h2)
  rw [UInt64.add_zero, UInt64.toNat_zero, Nat.add_zero] at hoff
  have hlt : metalIoPhysToOffset mem.io (remoteprocDatopa mem da) < mem.size := by
    rw [UInt64.lt_iff_toNat_lt, hoff]
    omega
  have hmapped := hmem.covers.mapped _ hlt
  have hback := virtToOffset_virt (by rw [hmem.covers.size_eq]; exact hlt) hmapped
  intro off
  have heq : off = metalIoPhysToOffset mem.io (remoteprocDatopa mem da) := hback
  rw [heq]
  exact ⟨hoff, hmapped⟩

/-- What is read of a device address is what target memory has there. -/
theorem metalIoBlockLoad_da {mem : RemoteprocMem} (hmem : mem.Valid)
    {da size : UInt64} (hin : (MemKey.da da).In mem)
    (hinside : (MemKey.da da).Inside size mem) (hsize : size.toNat < 2 ^ 31)
    (target : Mem) :
    metalIoBlockLoad mem.io target (metalIoVirtToOffset mem.io
      (metalIoPhysToVirt mem.io (remoteprocDatopa mem da))) (sizeToInt size) =
      (sizeToInt size,
        readBytes target (remoteprocDatopa mem da).toNat size.toNat) := by
  obtain ⟨hoff, hmapped⟩ := virtToOffset_da hmem hin
  have h1 : mem.da.toNat ≤ da.toNat := hin.1
  have h2 : da.toNat + size.toNat ≤ mem.da.toNat + mem.size.toNat := hinside.2
  generalize metalIoVirtToOffset mem.io
    (metalIoPhysToVirt mem.io (remoteprocDatopa mem da)) = off at hoff hmapped
  have hfit : off.toNat + size.toNat ≤ mem.size.toNat := by omega
  have hcount : (sizeToInt size).toUInt32.toNat = size.toNat := by
    rw [sizeToInt_count]
    omega
  have hplace : mem.pa.toNat + off.toNat = (remoteprocDatopa mem da).toNat := by
    rw [remoteprocDatopa_toNat hmem hin, hoff]
  simp only [metalIoBlockLoad, if_neg hmapped]
  rw [clipLen_of_fits hsize (by rw [hmem.covers.size_eq]; exact hfit), hcount,
    hmem.covers.physLoad target hfit, hplace]

/-- The table in target memory is handled as the one in the image is, and
put back where `remoteproc_load` puts it. -/
theorem NoblockVars.getRsc_carried {i : Nat} (hsec : img.rscSection = some i)
    (hpos : 0 < (img.sectionAt i).size)
    (halloc : ∀ size, env.heap.alloc size = true)
    (hmems : ∀ mem ∈ v.rproc.mems, mem.Valid)
    (hreg : img.RscRegistered v.rproc.mems)
    (hcarried : img.RscCarried env v.rproc v.target) :
    ∃ v', v.getRsc env (img.sectionAt i).addr (img.sectionAt i).size =
        (0, true, v') ∧ v'.nlen = v.nlen ∧ v'.nmlen = v.nmlen ∧
      v'.rscView = (img.rscFound env.heap v.rproc).1.install v.rproc.mems
        v.rscView := by
  have hsize := hcarried.size_lt i hsec
  have hfound : img.rscFound env.heap v.rproc = (⟨(img.readRsc env.heap v.rproc
      (img.sectionAt i).offset (img.sectionAt i).size).1,
      (img.sectionAt i).addr, (img.sectionAt i).offset,
      (img.sectionAt i).size⟩, (img.readRsc env.heap v.rproc
      (img.sectionAt i).offset (img.sectionAt i).size).2) := by
    simp only [Image.rscFound, hsec, if_pos hpos]
  obtain ⟨table, htable⟩ :=
    Option.isSome_iff_exists.mp (hcarried.handled i hsec hpos)
  obtain ⟨hne, mem, hmem, hin, hsel⟩ := rscFound_select hmems hreg htable
  have hbytes := fun h => hcarried.bytes i mem hsec h
  have hinside : (MemKey.da (img.sectionAt i).addr).select v.rproc.mems
      (img.sectionAt i).size = some mem →
      (MemKey.da (img.sectionAt i).addr).Inside (img.sectionAt i).size mem := by
    intro h
    obtain ⟨-, mem', hmem', hinside'⟩ := hreg i hsec hpos
    have hwrap : (MemKey.da (img.sectionAt i).addr).addr.toNat +
        (img.sectionAt i).size.toNat < 2 ^ 64 :=
      Nat.lt_of_le_of_lt hinside'.2 ((hmems mem' hmem').start_nowrap _)
    exact (MemKey.select_inside hmems hwrap h).2.2
  rw [hfound] at htable hne hin hsel ⊢
  have hinside := hinside hsel
  have hbytes := hbytes hsel
  have hda : (img.sectionAt i).addr ≠ METAL_BAD_PHYS := hin.ne_bad hmem
  have hmap := remoteprocMmap_da v.rproc.ops hda hne hsel none (.inl rfl) v.io
  have hread := metalIoBlockLoad_da hmem hin hinside hsize v.target
  -- the copy holds what the image has of the table
  have hcopy : (fun j => (readBytes v.target (remoteprocDatopa mem
      (img.sectionAt i).addr).toNat (img.sectionAt i).size.toNat).getD j
        (env.heap.beyond j)) =
      fun j => if j < (img.sectionAt i).size.toNat then
        img.bytes ((img.sectionAt i).offset.toNat + j) else env.heap.beyond j := by
    funext j
    by_cases hj : j < (img.sectionAt i).size.toNat
    · rw [if_pos hj, ← hbytes j hj]
      simp [readBytes, hj]
    · rw [if_neg hj]
      simp [readBytes, hj]
  have hneg : ¬ sizeToInt (img.sectionAt i).size < 0 := by
    rw [Int32.lt_iff_toInt_lt, sizeToInt_toInt hsize]
    simp
  simp only [Image.readRsc, if_neg hneg] at htable
  simp only [Image.readRsc, if_neg hneg, NoblockVars.getRsc, halloc, hmap, hread,
    NoblockVars.handleRsc, hcarried.copy, Parser.handleRscTable_base _ env.copy,
    hcopy, RscFound.install, hsel]
  generalize (Parser.handleRscTable _ 0 none _).val = r at htable ⊢
  have hok : ¬ r.1 < 0 := by
    intro h
    rw [if_pos h] at htable
    cases htable
  simp only [if_neg hok, Bool.true_eq_false, if_false, ne_eq, not_true]
  exact ⟨_, rfl, rfl, rfl, rfl⟩

/-- What the end of a load shows: the entry point is known, and with all
headers the resource table is in its place. -/
structure NoblockVars.Finished (v v' : NoblockVars) (img : Image) (heap : Heap)
    (headers : Bool) : Prop where
  nlen : v'.nlen = v.nlen
  nmlen : v'.nmlen = v.nmlen
  bootaddr : v'.rproc.bootaddr = img.ehdr.entry
  rscView : v'.rscView = if headers then
      (img.rscFound heap v.rproc).1.install v.rproc.mems v.rscView
    else v.rscView

/-- Nothing is located: only the entry point is taken over. -/
theorem noblockComplete_none {info : Option ElfInfo} {l : LocateOut}
    (h : (elfLocateRscTable info 0 0 0).val = l)
    (hno : ¬ (l.ret = 0 ∧ 0 < l.size)) :
    (noblockComplete env info v).val = (0, { v with
      rproc := { v.rproc with bootaddr := elfGetEntry info }
      info := info }) := by
  simp only [noblockComplete, Traced.val_bind, Traced.val_ite]
  rw [h, if_neg hno]
  rfl

theorem noblockComplete_val (hwf : img.WellFormed)
    (halloc : ∀ size, env.heap.alloc size = true)
    (hmems : ∀ mem ∈ v.rproc.mems, mem.Valid)
    (hreg : img.RscRegistered v.rproc.mems) {stage : HdrStage}
    (hcarried : stage = .complete → img.RscCarried env v.rproc v.target)
    (phase : LoadPhase) (k : Nat) :
    ∃ v', (noblockComplete env
        (some (img.infoAt env.heap stage phase k)) v).val = (0, v') ∧
      v.Finished v' img env.heap (stage = .complete) := by
  by_cases hstage : stage = .complete
  · subst hstage
    have hval := img.elfLocateRscTable_complete hwf env.heap phase k 0 0 0
    cases hsec : img.rscSection with
    | none =>
      rw [hsec] at hval
      refine ⟨_, noblockComplete_none hval (by simp), rfl, rfl, rfl, ?_⟩
      simp only [decide_true, if_true, Image.rscFound, hsec, RscFound.install]
      rfl
    | some i =>
      rw [hsec] at hval
      by_cases hpos : 0 < (img.sectionAt i).size
      · obtain ⟨v', hget, hlen, hmem, hview⟩ := NoblockVars.getRsc_carried hsec
          hpos halloc hmems hreg (hcarried rfl)
        refine ⟨{ v' with
          rproc := { v'.rproc with bootaddr := img.ehdr.entry }
          info := some (img.infoAt env.heap .complete phase k) }, ?_, hlen,
          hmem, rfl, ?_⟩
        · simp only [noblockComplete, Traced.val_bind, Traced.val_ite]
          rw [hval, if_pos ⟨rfl, hpos⟩, hget]
          rfl
        · simp only [decide_true, if_true]
          exact hview
      · refine ⟨_, noblockComplete_none hval (fun h => hpos h.2), rfl, rfl, rfl,
          ?_⟩
        simp only [decide_true, if_true, Image.rscFound, hsec, if_neg hpos,
          RscFound.install]
        rfl
  · have hval := img.elfLocateRscTable_missing env.heap hstage phase k 0 0 0
    refine ⟨_, noblockComplete_none hval ?_, rfl, rfl, rfl, ?_⟩
    · exact fun h => absurd h.1 (by decide)
    · simp only [hstage, decide_false, Bool.false_eq_true, if_false]
      rfl

end Table

end OpenAmp.Remoteproc
