import OpenAmp.Remoteproc.ReadBounds

/-!
# Loading without a stray read

The two loops of `remoteproc_load` feed the parser with chunks of any
image: a first chunk, then the ranges it asks for, until one of them
leaves the image and is refused. The invariant of both loops is that the
tables are copies of the image and the chunk at hand is part of it.
-/

namespace OpenAmp.Remoteproc

open OpenAmp.Lib OpenAmp.Metal

/-- The store feeds an image: the first bytes of it, then exactly the
ranges asked for. A range that leaves the image is refused with an
error. -/
structure Feeds (store : ImageStoreOps) (img : Image) : Prop where
  first : 0 < store.openImg.1.toInt →
    img.Chunk store.openImg.2 0 (intToSize store.openImg.1)
  data : ∀ n (offset size : UInt64) target,
    offset.toNat + size.toNat ≤ img.len →
    ∃ data, (store.load n offset size none target).data = some data ∧
      img.Chunk data offset size
  refuse : ∀ n (offset size : UInt64) target,
    img.len < offset.toNat + size.toNat →
    (store.load n offset size none target).ret < 0

section Headers

variable {store : ImageStoreOps} {heap : Heap} {img : Image}

/-- A request whose size an error can be told from is refused, or answered
with a chunk of the image. -/
theorem Feeds.chunk (hfeeds : Feeds store img) (n : Nat)
    {offset size : UInt64} (target : Mem)
    (hint : offset.toNat + size.toNat ≤ img.len ∨ 0 ≤ sizeToInt size)
    (hret : ¬ (store.load n offset size none target).ret < sizeToInt size) :
    ∃ data, (store.load n offset size none target).data = some data ∧
      img.Chunk data offset size := by
  by_cases hin : offset.toNat + size.toNat ≤ img.len
  · exact hfeeds.data n offset size target hin
  · have hneg := hfeeds.refuse n offset size target (Nat.not_le.mp hin)
    have hpos := hint.resolve_left hin
    rw [Int32.lt_iff_toInt_lt] at hret hneg
    rw [Int32.le_iff_toInt_le] at hpos
    rw [Int32.toInt_zero] at hneg hpos
    omega

/-- What a stage asks for has such a size. -/
theorem Image.ReadsOk.int (hok : img.ReadsOk) {stage : HdrStage}
    (hgot : img.Got stage) (hsh : stage = .shdrs → img.ehdr.shnum ≠ 0) :
    img.In stage ∨ 0 ≤ sizeToInt (img.piece stage).2 := by
  cases stage with
  | phdrs => exact hok.phdrs_int
  | shdrs => exact hok.shdrs_int (hsh rfl)
  | shstrtab => exact hok.strtab_int hgot.2.2.2 hgot.2.2.1
  | complete => exact .inr (show (0 : Int32) ≤ sizeToInt 0 by decide)

/-- The header loop at the start of a round: before the header is known,
or with tables and chunk from the image. -/
inductive HeaderFed (img : Image) (heap : Heap) (run : LoadRun) : Prop
  | opened (h : Opened img run) (hclass : EI_CLASS < run.len.toNat)
  | waiting (stage : HdrStage) (hstage : stage ≠ .complete)
    (hgot : img.Got stage)
    (hinfo : run.info = some (img.infoAt heap stage stage.phase 0))
    (hstate : run.lastLoadState = pack stage stage.phase 0)
    (hchunk : img.Chunk run.img run.offset run.len)

/-- What the call of `elf_load_header` in a round can answer. -/
inductive HeaderAnswer (img : Image) (heap : Heap) (out : HeaderOut) : Prop
  | fails (h : out.ret < 0)
  | short (c : Bool) (h : out = ⟨ELF_STATE_INIT, none, 0, ehdrSize c⟩)
  | moves (stage : HdrStage) (noffset : UInt64)
    (h : out = img.headerOut heap stage stage.phase 0 noffset)
    (hgot : img.Got stage) (hsh : stage = .shdrs → img.ehdr.shnum ≠ 0)

theorem advance_shdrs {img : Image} {offset len : UInt64} {stage : HdrStage}
    (hnext : img.advance offset len stage = .shdrs) : img.ehdr.shnum ≠ 0 := by
  have hfrom : ∀ h : img.fromShdrs offset len = .shdrs, img.ehdr.shnum ≠ 0 := by
    intro h hzero
    simp [Image.fromShdrs, hzero] at h
  cases stage with
  | phdrs =>
    simp only [Image.advance] at hnext
    split at hnext
    · cases hnext
    · exact hfrom hnext
  | shdrs => exact hfrom hnext
  | shstrtab =>
    simp only [Image.advance, Image.fromShstrtab] at hnext
    split at hnext <;> cases hnext
  | complete => cases hnext

theorem HeaderFed.call (hok : img.ReadsOk) {run : LoadRun}
    (h : HeaderFed img heap run) (noffset nlen : UInt64) :
    let call := elfLoadHeader heap run.img run.offset run.len run.info
      run.lastLoadState noffset nlen
    call.Safe Access.Inside ∧ HeaderAnswer img heap call.val := by
  intro call
  cases h with
  | opened hopen hclass =>
    simp only [call, hopen.info, hopen.state, hopen.offset]
    refine ⟨Image.elfLoadHeader_first_safe heap hok.toRangesOk hopen.chunk
      hclass noffset nlen, ?_⟩
    have hc := Image.elfIs64_of_chunk hopen.chunk hclass
    by_cases hshort : run.len < ehdrSize (elfIs64 run.img)
    · rw [Image.elfLoadHeader_short heap 0 none hshort]
      exact .short _ rfl
    · have hlen := UInt64.le_iff_toNat_le.mp (UInt64.not_lt.mp hshort)
      rw [hc] at hlen
      have hans : img.Answers heap _ _ _ _ _ := Image.elfLoadHeader_first_answer
        hok.toRangesOk hopen.chunk hlen noffset nlen
      rw [show LoadPhase.notReady = HdrStage.phase .phdrs from rfl,
        img.phaseAfter_phase] at hans
      rcases hans with ⟨hval, hgot⟩ | ⟨hneg, -⟩
      · exact .moves _ noffset hval hgot advance_shdrs
      · exact .fails hneg
  | waiting stage hstage hgot hinfo hstate hchunk =>
    have hph : stage = .phdrs → stage.phase = .notReady ∧ 0 = 0 := by
      rintro rfl
      exact ⟨rfl, rfl⟩
    simp only [call, hinfo, hstate]
    refine ⟨Image.elfLoadHeader_safe heap hok.toRangesOk hchunk hph hgot noffset
      nlen, ?_⟩
    have hans : img.Answers heap _ _ _ _ _ := Image.elfLoadHeader_answer
      hok.toRangesOk hchunk hstage hph hgot noffset nlen
    rw [img.phaseAfter_phase] at hans
    rcases hans with ⟨hval, hgot'⟩ | ⟨hneg, -⟩
    · exact .moves _ noffset hval hgot' advance_shdrs
    · exact .fails hneg

/-- The image information after the headers, before any data. -/
def HeadersFed (img : Image) (heap : Heap) (run : LoadRun) : Prop :=
  ∃ stage, stage ≠ .phdrs ∧ img.Got stage ∧
    run.info = some (img.infoAt heap stage .ready 0) ∧
    run.lastLoadState = pack stage .ready 0

theorem HeaderAnswer.headersFed {run : LoadRun} {out : HeaderOut}
    (h : HeaderAnswer img heap out) (hneg : ¬ out.ret < 0)
    (hinfo : run.info = out.info) (hstate : run.lastLoadState = out.ret)
    (hdone : headersDone store run out = true) : HeadersFed img heap run := by
  cases h with
  | fails h => exact absurd h hneg
  | short c h =>
    subst h
    simp [headersDone, ELF_STATE_INIT] at hdone
  | moves stage no h hgot hsh =>
    subst h
    obtain ⟨hph, hready⟩ := headersDone_ready rfl hdone
    refine ⟨stage, hph, hgot, hinfo.trans ?_, hstate.trans ?_⟩
    · rw [← hready]
      rfl
    · rw [← hready]
      rfl

/-- With an answer that is not short the next round has what it needs. -/
theorem HeaderAnswer.headerFed (hok : img.ReadsOk) (hfeeds : Feeds store img)
    {run run' : LoadRun} {out : HeaderOut} (h : HeaderAnswer img heap out)
    (hneg : ¬ out.ret < 0) (hdone : ¬ headersDone store run out = true)
    {n : Nat} {target : Mem}
    (hfull : ¬ (store.load n out.noffset out.nlen none target).ret <
      sizeToInt out.nlen)
    (hinfo : run'.info = out.info) (hstate : run'.lastLoadState = out.ret)
    (hdata : run'.imgData =
      (store.load n out.noffset out.nlen none target).data)
    (hoffset : run'.offset = out.noffset) (hlen : run'.len = out.nlen) :
    HeaderFed img heap run' := by
  have hchunk : ∀ data, (store.load n out.noffset out.nlen none target).data =
      some data → img.Chunk data out.noffset out.nlen →
      img.Chunk run'.img run'.offset run'.len := by
    intro data hans hchunk
    simp only [LoadRun.img, hdata, hans, hoffset, hlen]
    exact hchunk
  cases h with
  | fails h => exact absurd h hneg
  | short c h =>
    have hsize : out.nlen = ehdrSize c := by rw [h]
    have hint : 0 ≤ sizeToInt out.nlen := by
      rw [hsize]
      cases c <;> decide
    -- the ELF header is asked for, in the size of the class byte read
    obtain ⟨data, hans, hgot⟩ := hfeeds.chunk n target (.inr hint) hfull
    have hread := hchunk data hans hgot
    have hstart : run'.offset = 0 := hoffset.trans (by rw [h])
    rw [hstart] at hread
    refine .opened ⟨hinfo.trans (by rw [h]), hstate.trans (by rw [h]), hstart,
      hread⟩ ?_
    rw [hlen, hsize]
    cases c <;> decide
  | moves stage no h hgot hsh =>
    have hmore : stage ≠ .complete := by
      rintro rfl
      refine hdone (headersDone_complete store _ ?_ ?_) <;> rw [h] <;> rfl
    have hno : out.noffset = (img.piece stage).1 := by
      rw [h]
      exact if_neg hmore
    have hnl : out.nlen = (img.piece stage).2 := by
      rw [h]
      rfl
    -- the next piece lies in the image, so the answer holds it
    have hint := hok.int hgot hsh
    rw [Image.In, ← hno, ← hnl] at hint
    obtain ⟨data, hans, hread⟩ := hfeeds.chunk n target hint hfull
    refine .waiting stage hmore hgot (hinfo.trans ?_) (hstate.trans ?_)
      (hchunk data hans hread)
    · rw [h]
      rfl
    · rw [h]
      rfl

variable (heap) in
/-- **The header loop** makes no stray read. -/
theorem headerLoop_safe (hok : img.ReadsOk) (hfeeds : Feeds store img)
    (fuel : Nat) : ∀ (run : LoadRun) (noffset nlen : UInt64),
    HeaderFed img heap run →
    (headerLoop store heap fuel run noffset nlen).Safe Access.Inside ∧
    ∀ e, (headerLoop store heap fuel run noffset nlen).val = some e →
      e.err = none → HeadersFed img heap e.run := by
  induction fuel with
  | zero =>
    intro run noffset nlen _
    exact ⟨Traced.safe_pure _, fun e h => nomatch h⟩
  | succ fuel ih =>
    intro run noffset nlen hfed
    obtain ⟨hsafe, hans⟩ := hfed.call hok noffset nlen
    simp only [headerLoop]
    rw [Traced.safe_bind, Traced.val_bind]
    generalize (elfLoadHeader heap run.img run.offset run.len run.info
      run.lastLoadState noffset nlen).val = out at hans ⊢
    by_cases hneg : out.ret < 0
    · rw [if_pos hneg]
      refine ⟨⟨hsafe, Traced.safe_pure _⟩, ?_⟩
      rintro e ⟨⟩ herr
      cases herr
    rw [if_neg hneg]
    by_cases hdone : headersDone store
        { run with info := out.info, lastLoadState := out.ret } out = true
    · rw [if_pos hdone]
      refine ⟨⟨hsafe, Traced.safe_pure _⟩, ?_⟩
      rintro e ⟨⟩ -
      exact hans.headersFed hneg rfl rfl hdone
    rw [if_neg hdone]
    simp only [LoadRun.ask]
    by_cases hshort : (store.load run.calls.length out.noffset out.nlen none
        run.target).ret < sizeToInt out.nlen
    · -- a short answer ends the loop before it is read
      rw [if_pos (by exact hshort)]
      refine ⟨⟨hsafe, Traced.safe_pure _⟩, ?_⟩
      rintro e ⟨⟩ herr
      cases herr
    rw [if_neg (by exact hshort)]
    have hnext := ih { run with
      info := out.info
      lastLoadState := out.ret
      calls := run.calls ++ [⟨out.noffset, out.nlen, none,
        (store.load run.calls.length out.noffset out.nlen none run.target).ret⟩]
      imgData := (store.load run.calls.length out.noffset out.nlen none
        run.target).data
      offset := out.noffset
      len := out.nlen } out.noffset out.nlen
      (hans.headerFed hok hfeeds hneg hdone hshort rfl rfl rfl rfl rfl)
    exact ⟨⟨hsafe, hnext.1⟩, hnext.2⟩

end Headers

/-! ## Data -/

section Data

variable {store : ImageStoreOps} {heap : Heap} {img : Image}

/-- The data loop at the start of a round: handing out segments, or
loading the headers that are still missing from a chunk of the image. -/
inductive DataFed (img : Image) (heap : Heap) (run : LoadRun) : Prop
  | ready (stage : HdrStage) (k : Nat) (hph : stage ≠ .phdrs)
    (hgot : img.Got stage) (hk : k ≤ img.ehdr.phnum.toNat)
    (hinfo : run.info = some (img.infoAt heap stage .ready k))
    (hstate : run.lastLoadState = pack stage .ready k)
    (hoffset : run.offset = 0) (hlen : run.len = 0)
  | post (stage : HdrStage) (k : Nat) (hph : stage ≠ .phdrs)
    (hgot : img.Got stage)
    (hinfo : run.info = some (img.infoAt heap stage .post k))
    (hstate : run.lastLoadState = pack stage .post k)
    (hchunk : img.Chunk run.img run.offset run.len)

/-- What the call of `elf_load` in a round can answer: an error, a segment
for target memory, the end, or a request for headers. -/
inductive DataAnswer (img : Image) (heap : Heap) (run : LoadRun) (d : DataOut) :
    Prop
  | fails (h : d.ret < 0)
  | segment (stage : HdrStage) (phase : LoadPhase) (k : Nat) (hph : stage ≠ .phdrs)
    (hgot : img.Got stage) (hk : k ≤ img.ehdr.phnum.toNat)
    (hphase : phase = .ready ∨ phase = .post)
    (hinfo : d.info = some (img.infoAt heap stage phase k))
    (hret : d.ret = pack stage phase k) (hda : d.da ≠ RPROC_LOAD_ANYADDR)
    (hoffset : run.offset = 0) (hlen : run.len = 0)
  | ends (stage : HdrStage) (phase : LoadPhase) (k : Nat) (hgot : img.Got stage)
    (hinfo : d.info = some (img.infoAt heap stage phase k))
    (hret : d.ret = pack stage phase k) (hda : d.da = RPROC_LOAD_ANYADDR)
    (hlen : d.nlen = 0)
  | asks (stage : HdrStage) (k : Nat) (hph : stage ≠ .phdrs)
    (hgot : img.Got stage) (hsh : stage = .shdrs → img.ehdr.shnum ≠ 0)
    (hinfo : d.info = some (img.infoAt heap stage .post k))
    (hret : d.ret = pack stage .post k) (hda : d.da = RPROC_LOAD_ANYADDR)
    (hno : d.noffset = (img.piece stage).1) (hnl : d.nlen = (img.piece stage).2)

theorem Image.Got.phdrs_in {stage : HdrStage} (hgot : img.Got stage)
    (hph : stage ≠ .phdrs) : img.In .phdrs := by
  cases stage with
  | phdrs => exact absurd rfl hph
  | shdrs => exact hgot
  | shstrtab => exact hgot.1
  | complete => exact hgot.1

/-- Handing out a segment. -/
theorem DataFed.call_ready (hok : img.ReadsOk) {run : LoadRun} {stage : HdrStage}
    {k : Nat} (hph : stage ≠ .phdrs) (hgot : img.Got stage)
    (hk : k ≤ img.ehdr.phnum.toNat)
    (hinfo : run.info = some (img.infoAt heap stage .ready k))
    (hstate : run.lastLoadState = pack stage .ready k)
    (hoffset : run.offset = 0) (hlen : run.len = 0) :
    let call := elfLoad heap run.img run.offset run.len run.info
      run.lastLoadState RPROC_LOAD_ANYADDR 0 0 0 0
    call.Safe Access.Inside ∧ DataAnswer img heap run call.val := by
  intro call
  have hin := hgot.phdrs_in hph
  have hroom := hok.segments hin
  have hphdrs : (img.infoAt heap stage .ready k).phdrs =
      some (img.block heap img.ehdr.phoff img.ehdr.phdrsSize) := if_neg hph
  have hmod : k % 256 ≤ img.ehdr.phnum.toNat :=
    Nat.le_trans (Nat.mod_le k 256) hk
  simp only [call, hinfo, hstate]
  constructor
  · rw [elfLoad_ready heap run.img run.offset run.len RPROC_LOAD_ANYADDR 0 0 0 0
      rfl]
    have hseg : ((img.infoAt heap stage .ready k).loadState &&&
        ELF_NEXT_SEGMENT_MASK).toInt.toNat = k % 256 :=
      pack_segment stage .ready k
    simp only [elfLoadSegment, Traced.safe_bind, Traced.safe_pure, and_true,
      elfNextLoadSegment, hphdrs, hseg]
    exact Image.nextLoadLoop_safe _ _ _ _ _
      fun i _ hi => hroom i (by
        change i < k % 256 + (img.ehdr.phnum.toNat - k % 256) at hi
        omega)
  · rcases img.elfLoad_ready_val hroom rfl hphdrs run.img run.offset run.len rfl
      hmod with ⟨j, h1, h2, hload, -, hval⟩ | ⟨-, no, hval⟩
    · have hseg := img.mem_loads h2 hload
      rw [hval]
      refine .segment stage _ (j + 1) hph hgot h2 ?_ rfl rfl
        (hok.paddr_ne hin _ hseg) hoffset hlen
      split
      · exact .inr rfl
      · exact .inl rfl
    · rw [hval]
      exact .ends stage .complete img.ehdr.phnum.toNat hgot rfl rfl rfl rfl

/-- Loading the headers that are missing. -/
theorem DataFed.call_post (hok : img.ReadsOk) {run : LoadRun} {stage : HdrStage}
    {k : Nat} (hph : stage ≠ .phdrs) (hgot : img.Got stage)
    (hinfo : run.info = some (img.infoAt heap stage .post k))
    (hstate : run.lastLoadState = pack stage .post k)
    (hchunk : img.Chunk run.img run.offset run.len) :
    let call := elfLoad heap run.img run.offset run.len run.info
      run.lastLoadState RPROC_LOAD_ANYADDR 0 0 0 0
    call.Safe Access.Inside ∧ DataAnswer img heap run call.val := by
  intro call
  simp only [call, hinfo, hstate]
  by_cases hdone : stage = .complete
  · -- nothing is read any more
    subst hdone
    constructor
    · rw [elfLoad_post heap run.img run.offset run.len RPROC_LOAD_ANYADDR 0 0 0 0
        rfl]
      have hbit : ¬ (img.infoAt heap .complete .post k).loadState &&&
          ELF_STATE_HDRS_COMPLETE = 0 :=
        fun h => (pack_hdrsComplete .complete .post k).mp h rfl
      rw [elfLoadPost, if_neg hbit]
      exact Traced.safe_pure _
    · rw [img.elfLoad_post_complete]
      exact .ends .complete .complete k hgot rfl rfl rfl rfl
  have hbit : (img.infoAt heap stage .post k).loadState &&&
      ELF_STATE_HDRS_COMPLETE = 0 := (pack_hdrsComplete stage .post k).mpr hdone
  have hph' : stage = .phdrs → LoadPhase.post = .notReady ∧ k = 0 :=
    fun h => absurd h hph
  have hsafe := Image.elfLoadHeader_safe heap hok.toRangesOk hchunk hph' hgot 0 0
  have hans : img.Answers heap _ _ _ _ _ := Image.elfLoadHeader_answer
    hok.toRangesOk hchunk hdone hph' hgot 0 0
  rw [elfLoad_post heap run.img run.offset run.len RPROC_LOAD_ANYADDR 0 0 0 0 rfl]
  constructor
  · rw [elfLoadPost, if_pos hbit, Traced.safe_bind]
    refine ⟨hsafe, ?_⟩
    split
    · exact Traced.safe_pure _
    · split
      · exact Traced.safe_pure _
      · split
        · exact Traced.safe_pure _
        · exact Traced.safe_pure _
  · -- the phase is set with the program headers only
    have hphase : img.phaseAfter run.offset run.len stage .post = .post :=
      if_neg (fun h => hph h.1)
    rw [hphase] at hans
    rcases hans with ⟨hval, hgot'⟩ | ⟨hneg, -⟩
    · rw [img.elfLoadPost_val hbit hval]
      have hrank := img.rank_le_advance run.offset run.len stage
      have hshnum : img.advance run.offset run.len stage = .shdrs →
          img.ehdr.shnum ≠ 0 := advance_shdrs
      generalize img.advance run.offset run.len stage = next at hgot' hrank hshnum ⊢
      by_cases hnext : next = .complete
      · subst hnext
        exact .ends .complete .complete k hgot' rfl rfl rfl rfl
      · have hph' : next ≠ .phdrs := by
          rintro rfl
          cases stage <;> simp_all [HdrStage.rank]
        simp only [if_neg hnext]
        exact .asks next k hph' hgot' hshnum rfl rfl rfl rfl rfl
    · refine .fails ?_
      rw [elfLoadPost, if_pos hbit, Traced.val_bind]
      generalize (elfLoadHeader heap run.img run.offset run.len
        (some (img.infoAt heap stage .post k)) (pack stage .post k) 0 0).val =
        out at hneg ⊢
      cases out.info with
      | none => exact hneg
      | some info =>
        simp only [if_pos hneg]
        exact hneg

theorem DataFed.call (hok : img.ReadsOk) {run : LoadRun}
    (h : DataFed img heap run) :
    let call := elfLoad heap run.img run.offset run.len run.info
      run.lastLoadState RPROC_LOAD_ANYADDR 0 0 0 0
    call.Safe Access.Inside ∧ DataAnswer img heap run call.val := by
  cases h with
  | ready stage k hph hgot hk hinfo hstate hoffset hlen =>
    exact DataFed.call_ready hok hph hgot hk hinfo hstate hoffset hlen
  | post stage k hph hgot hinfo hstate hchunk =>
    exact DataFed.call_post hok hph hgot hinfo hstate hchunk

/-- Without a chunk the loop can be in either phase. -/
theorem DataFed.of_phase {run : LoadRun} {stage : HdrStage}
    {phase : LoadPhase} {k : Nat} (hphase : phase = .ready ∨ phase = .post)
    (hph : stage ≠ .phdrs) (hgot : img.Got stage)
    (hk : k ≤ img.ehdr.phnum.toNat)
    (hinfo : run.info = some (img.infoAt heap stage phase k))
    (hstate : run.lastLoadState = pack stage phase k)
    (hoffset : run.offset = 0) (hlen : run.len = 0) :
    DataFed img heap run := by
  rcases hphase with rfl | rfl
  · exact .ready stage k hph hgot hk hinfo hstate hoffset hlen
  · refine .post stage k hph hgot hinfo hstate ?_
    rw [hoffset, hlen]
    exact img.chunk_empty run.img

variable (heap) in
/-- **The data loop** makes no stray read. -/
theorem dataLoop_safe (hok : img.ReadsOk) (hfeeds : Feeds store img)
    (fuel : Nat) : ∀ run : LoadRun, DataFed img heap run →
    (dataLoop store heap fuel run).Safe Access.Inside ∧
    ∀ e, (dataLoop store heap fuel run).val = some e → e.err = none →
      ∃ stage phase k, img.Got stage ∧
        e.run.info = some (img.infoAt heap stage phase k) := by
  induction fuel with
  | zero =>
    intro run _
    exact ⟨Traced.safe_pure _, fun e h => nomatch h⟩
  | succ fuel ih =>
    intro run hfed
    obtain ⟨hsafe, hans⟩ := hfed.call hok
    simp only [dataLoop]
    rw [Traced.safe_bind, Traced.val_bind]
    generalize (elfLoad heap run.img run.offset run.len run.info
      run.lastLoadState RPROC_LOAD_ANYADDR 0 0 0 0).val = d at hans ⊢
    cases hans with
    | fails hneg =>
      rw [if_pos hneg]
      refine ⟨⟨hsafe, Traced.safe_pure _⟩, ?_⟩
      rintro e ⟨⟩ herr
      cases herr
    | segment stage phase k hph hgot hk hphase hinfo hret hda hoffset hlen =>
      rw [if_neg (not_neg_of_pack hret), if_pos hda]
      -- storing a segment reads nothing of the loader
      obtain ⟨hkeeps, -, -, -⟩ := storeSegment_any store
        { run with info := d.info, lastLoadState := d.ret } d
      generalize storeSegment store
        { run with info := d.info, lastLoadState := d.ret } d = r at hkeeps ⊢
      cases herr : r.err with
      | some err =>
        simp only
        refine ⟨⟨hsafe, Traced.safe_pure _⟩, ?_⟩
        rintro e ⟨⟩ herr'
        cases herr'
      | none =>
        simp only
        have hfed' : DataFed img heap r.run :=
          .of_phase hphase hph hgot hk (hkeeps.info.trans hinfo)
            (hkeeps.lastLoadState.trans hret) (hkeeps.offset.trans hoffset)
            (hkeeps.len.trans hlen)
        obtain ⟨h1, h2⟩ := ih r.run hfed'
        exact ⟨⟨hsafe, h1⟩, h2⟩
    | ends stage phase k hgot hinfo hret hda hlen =>
      rw [if_neg (not_neg_of_pack hret), if_neg (not_not.mpr hda),
        if_neg (not_not.mpr hlen)]
      refine ⟨⟨hsafe, Traced.safe_pure _⟩, ?_⟩
      rintro e ⟨⟩ -
      exact ⟨stage, phase, k, hgot, hinfo⟩
    | asks stage k hph hgot hsh hinfo hret hda hno hnl =>
      have hpost : d.ret &&& RPROC_LOADER_POST_DATA_LOAD ≠ 0 := by
        rw [hret]
        exact (pack_post stage .post k).mpr rfl
      rw [if_neg (not_neg_of_pack hret), if_neg (not_not.mpr hda)]
      by_cases hlen : d.nlen = 0
      · rw [if_neg (not_not.mpr hlen)]
        refine ⟨⟨hsafe, Traced.safe_pure _⟩, ?_⟩
        rintro e ⟨⟩ -
        exact ⟨stage, .post, k, hgot, hinfo⟩
      rw [if_pos hlen]
      simp only [LoadRun.ask]
      by_cases hshort : (store.load run.calls.length d.noffset d.nlen none
          run.target).ret < sizeToInt d.nlen
      · -- after the data a short answer is no error, the loop just ends
        rw [if_pos (by exact hshort), if_pos (by exact hpost)]
        refine ⟨⟨hsafe, Traced.safe_pure _⟩, ?_⟩
        rintro e ⟨⟩ -
        exact ⟨stage, .post, k, hgot, hinfo⟩
      rw [if_neg (by exact hshort)]
      have hint := hok.int hgot hsh
      rw [Image.In, ← hno, ← hnl] at hint
      obtain ⟨data, hdata, hchunk⟩ :=
        hfeeds.chunk run.calls.length run.target hint hshort
      have hnext := ih { run with
        info := d.info
        lastLoadState := d.ret
        calls := run.calls ++ [⟨d.noffset, d.nlen, none,
          (store.load run.calls.length d.noffset d.nlen none run.target).ret⟩]
        imgData := (store.load run.calls.length d.noffset d.nlen none
          run.target).data.or run.imgData
        offset := d.noffset
        len := d.nlen } (.post stage k hph hgot hinfo hret (by
          simp only [LoadRun.img, hdata]
          exact hchunk))
      exact ⟨⟨hsafe, hnext.1⟩, hnext.2⟩

end Data

/-! ## The load -/

section Load

variable {store : ImageStoreOps} {heap : Heap} {img : Image}

theorem locateRscTable_safe (hok : img.ReadsOk) {run : LoadRun}
    {stage : HdrStage} (hgot : img.Got stage) {phase : LoadPhase} {k : Nat}
    (hinfo : run.info = some (img.infoAt heap stage phase k)) (rsc : RscFound) :
    (locateRscTable store heap run rsc).Safe Access.Inside := by
  rw [locateRscTable, hinfo, Traced.safe_bind]
  refine ⟨Image.elfLocateRscTable_safe hok heap hgot phase k rsc.da rsc.offset
    rsc.size, ?_⟩
  simp only [Traced.safe_ite, Traced.safe_pure, implies_true, and_self]

variable (heap) in
theorem loadImage_safe (hok : img.ReadsOk) (hfeeds : Feeds store img)
    {run : LoadRun} (hopen : Opened img run) (hclass : EI_CLASS < run.len.toNat)
    (fuel : Nat) : (loadImage store heap fuel run).Safe Access.Inside := by
  obtain ⟨hheader, hafter⟩ := headerLoop_safe heap hok hfeeds fuel run 0 0
    (.opened hopen hclass)
  rw [loadImage, Traced.safe_bind]
  refine ⟨hheader, ?_⟩
  generalize (headerLoop store heap fuel run 0 0).val = r at hafter ⊢
  rcases r with _ | ⟨ret, run₁⟩
  · exact Traced.safe_pure _
  cases ret with
  | some err => exact Traced.safe_pure _
  | none =>
    obtain ⟨stage, hph, hgot, hinfo, hstate⟩ := hafter _ rfl rfl
    have hkeep := locateRscTable_keeps store heap run₁ ⟨none, 0, 0, 0⟩
    simp only
    rw [Traced.safe_bind]
    refine ⟨locateRscTable_safe hok hgot hinfo _, ?_⟩
    generalize (locateRscTable store heap run₁ ⟨none, 0, 0, 0⟩).val = found
      at hkeep ⊢
    obtain ⟨hdata, hend⟩ := dataLoop_safe heap hok hfeeds fuel
      { found.2 with offset := 0, len := 0 }
      (.ready stage 0 hph hgot (Nat.zero_le _) (hkeep.info.trans hinfo)
        (hkeep.lastLoadState.trans hstate) rfl rfl)
    rw [Traced.safe_bind]
    refine ⟨hdata, ?_⟩
    generalize (dataLoop store heap fuel
      { found.2 with offset := 0, len := 0 }).val = r' at hend ⊢
    rcases r' with _ | ⟨ret', run₂⟩
    · exact Traced.safe_pure _
    cases ret' with
    | some err => exact Traced.safe_pure _
    | none =>
      obtain ⟨stage', phase, k, hgot', hinfo'⟩ := hend _ rfl rfl
      simp only
      rw [Traced.safe_ite]
      refine ⟨fun _ => ?_, fun _ => ?_⟩
      · rw [Traced.safe_bind]
        exact ⟨locateRscTable_safe hok hgot' hinfo' _, Traced.safe_pure _⟩
      · rw [Traced.safe_bind]
        exact ⟨Traced.safe_pure _, Traced.safe_pure _⟩

end Load

theorem Image.feeds_store (img : Image) (first : Int32) (seek : Bool)
    (hfirst : (intToSize first).toNat ≤ img.len) :
    Feeds (img.store first seek) img where
  first _ := by
    refine ⟨by rw [UInt64.toNat_zero, Nat.zero_add]; exact hfirst, ?_⟩
    intro i _
    rw [UInt64.toNat_zero, Nat.zero_add]
    rfl
  data := by
    intro n offset size target hin
    exact ⟨_, by simp only [Image.store, if_pos hin], hin, fun _ _ => rfl⟩
  refuse := by
    intro n offset size target hout
    simp only [Image.store, if_neg (Nat.not_le.mpr hout)]
    decide

theorem tableAndNote_readsOk : tableAndNote.ReadsOk where
  toRangesOk := tableAndNote_wellFormed.sound.toRangesOk
  phdrs_int := .inl (by simp only [Image.In]; decide +kernel)
  shdrs_int _ := .inl (by simp only [Image.In]; decide +kernel)
  strtab_int _ _ := .inl (by simp only [Image.In]; decide +kernel)
  segments _ := by decide +kernel
  sections _ _ _ := by
    simp only [Image.NameInside]
    decide +kernel
  paddr_ne _ := by
    have hloads : tableAndNote.loads = [⟨1, 116, 0x1000, 16, 16⟩] := by
      decide +kernel
    rw [hloads]
    decide

/-- One segment whose header is said to be one byte long. -/
def tinyEntries : Image :=
  { oneSegment with bytes := fun i => if i = 42 then 1 else oneSegment.bytes i }

end OpenAmp.Remoteproc
