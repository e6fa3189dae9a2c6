import OpenAmp.Remoteproc.Firmware
import OpenAmp.Remoteproc.HeaderAny

/-!
# The result of a load, with any store

`remoteproc_load` against a store that may fail, or answer short, at any
call. When the load returns zero, the remote processor is ready, its
boot address is the entry point and the store has delivered every
loadable segment; otherwise the result is negative and nothing of that
has changed. This needs a condition: while headers are loaded, a short
answer is handed on as the result, and some program headers are taken
for something else.
-/

namespace OpenAmp.Remoteproc

open OpenAmp.Lib OpenAmp.Metal

/-- The store was asked for the file part of the segment and returned all
of it. Of an empty file part nothing need be asked. -/
def Asked (calls : List StoreCall) (seg : ElfSegment) : Prop :=
  seg.filesz = 0 ∨ ∃ c ∈ calls, c.offset = seg.offset ∧ c.size = seg.filesz ∧
    c.ret.toInt = seg.filesz.toNat

theorem Asked.mono {calls calls' : List StoreCall} {seg : ElfSegment}
    (h : Asked calls seg) (hsub : calls ⊆ calls') : Asked calls' seg := by
  refine h.imp id ?_
  rintro ⟨c, hc, hask⟩
  exact ⟨c, hsub hc, hask⟩

/-- The loadable segments can be told from other requests, their size from
an error and their number from the next round. -/
structure Image.SegmentsOk (img : Image) : Prop where
  filesz_lt : ∀ seg ∈ img.loads, seg.filesz.toNat < 2 ^ 31
  paddr_ne : ∀ seg ∈ img.loads, seg.paddr ≠ RPROC_LOAD_ANYADDR
  number : ∀ i, 255 ≤ i → i + 1 < img.ehdr.phnum.toNat →
    ¬ (img.segmentAt i).IsLoad

section Data

variable {store : ImageStoreOps} {heap : Heap} {img : Image}

/-- One round of the data loop that asks for headers, with any store. -/
theorem dataLoop_asks (store : ImageStoreOps) {run : LoadRun} {d : DataOut}
    (hcall : (elfLoad heap run.img run.offset run.len run.info
      run.lastLoadState RPROC_LOAD_ANYADDR 0 0 0 0).val = d)
    (hret : ¬ d.ret < 0) (hda : d.da = RPROC_LOAD_ANYADDR) (hlen : d.nlen ≠ 0)
    (hpost : d.ret &&& RPROC_LOADER_POST_DATA_LOAD ≠ 0) :
    ∃ calls img, run.calls ⊆ calls ∧
      ((∀ fuel, (dataLoop store heap (fuel + 1) run).val = some ⟨none,
        { run with
          info := d.info
          lastLoadState := d.ret
          calls := calls
          imgData := img }⟩) ∨
      ∀ fuel, (dataLoop store heap (fuel + 1) run).val =
        (dataLoop store heap fuel
          { run with
            info := d.info
            lastLoadState := d.ret
            calls := calls
            imgData := img
            offset := d.noffset
            len := d.nlen }).val) := by
  let ans := store.load run.calls.length d.noffset d.nlen none run.target
  refine ⟨run.calls ++ [⟨d.noffset, d.nlen, none, ans.ret⟩],
    ans.data.or run.imgData, List.subset_append_left _ _, ?_⟩
  by_cases hshort : ans.ret < sizeToInt d.nlen
  · refine .inl fun fuel => ?_
    simp only [dataLoop, Traced.val_bind, Traced.val_ite]
    rw [hcall, if_neg hret, if_neg (not_not.mpr hda), if_pos hlen]
    simp only [LoadRun.ask]
    rw [if_pos (by exact hshort), if_pos hpost]
    rfl
  · refine .inr fun fuel => ?_
    simp only [dataLoop, Traced.val_bind, Traced.val_ite]
    rw [hcall, if_neg hret, if_neg (not_not.mpr hda), if_pos hlen]
    simp only [LoadRun.ask]
    rw [if_neg (by exact hshort)]
    rfl

/-- How the data loop can end: with an error, or with the loadable
segments asked for. -/
structure DataEndAny (img : Image) (run : LoadRun) (loads : List ElfSegment)
    (e : LoopEnd) : Prop where
  rproc : e.run.rproc = run.rproc
  calls : run.calls ⊆ e.run.calls
  err : ∀ err, e.err = some err → err < 0
  done : e.err = none → (∃ info, e.run.info = some info ∧
    info.ehdr = img.ehdr) ∧ ∀ seg ∈ loads, Asked e.run.calls seg

/-- What `elf_load` can answer after the data: an error, the end, or a
request for the headers of a stage. -/
structure PostAnswer (img : Image) (k n : Nat) (i : ElfInfo) (d : DataOut) :
    Prop where
  info : d.info = some i
  ehdr : i.ehdr = img.ehdr
  ret : ¬ d.ret < 0
  da : d.da = RPROC_LOAD_ANYADDR
  next : d.nlen = 0 ∨ ∃ stage, stage ≠ .complete ∧ stage ≠ .phdrs ∧
    i.loadState = pack stage .post k ∧ d.ret = pack stage .post k ∧
    d.noffset = (i.piece stage).1 ∧ d.nlen = (i.piece stage).2 ∧
    4 ≤ n + stage.rank

theorem elfLoad_post_any (heap : Heap) (data : Mem) (offset len : UInt64)
    (info : ElfInfo) {stage : HdrStage} {k : Nat}
    (hstate : info.loadState = pack stage .post k)
    (hehdr : info.ehdr = img.ehdr) (hph : stage ≠ .phdrs) {n : Nat}
    (hrank : 4 ≤ n + stage.rank ∨ offset = (info.piece stage).1 ∧
      len = (info.piece stage).2 ∧ 3 ≤ n + stage.rank) :
    let d := (elfLoad heap data offset len (some info) (pack stage .post k)
      RPROC_LOAD_ANYADDR 0 0 0 0).val
    d.ret < 0 ∨ ∃ info', PostAnswer img k n info' d := by
  intro d
  have hcall := elfLoad_post heap data offset len RPROC_LOAD_ANYADDR 0 0 0 0
    hstate
  simp only [d, hcall, elfLoadPost]
  by_cases hdone : stage = .complete
  · subst hdone
    have hbit : ¬ info.loadState &&& ELF_STATE_HDRS_COMPLETE = 0 := by
      rw [hstate]
      exact fun h => (pack_hdrsComplete .complete .post k).mp h rfl
    have hnext := withPhase_pack .complete .post .complete k
    rw [← hstate] at hnext
    rw [if_neg hbit]
    refine .inr ⟨_, rfl, hehdr, ?_, rfl, .inl rfl⟩
    exact hnext ▸ pack_nonneg .complete .complete k
  have hbit : info.loadState &&& ELF_STATE_HDRS_COMPLETE = 0 := by
    rw [hstate]
    exact (pack_hdrsComplete stage .post k).mpr hdone
  rw [if_pos hbit, Traced.val_bind]
  have hspec := elfLoadHeader_spec heap data offset len info hstate hdone
    (fun h => absurd h hph) 0 0
  generalize (elfLoadHeader heap data offset len (some info)
    (pack stage .post k) 0 0).val = out at *
  rcases hspec with hneg | ⟨stage', phase', info', hawaits, hadv⟩
  · left
    cases out.info with
    | none => exact hneg
    | some info' =>
      simp only [if_pos hneg]
      exact hneg
  right
  -- `elf_load_header` sets the phase with the program headers only
  have hphase : phase' = .post := by
    rw [hadv.phase, if_neg (fun h => hph h.1)]
  subst hphase
  have hph' : stage' ≠ .phdrs := by
    rintro rfl
    have hle := hadv.rank
    cases stage <;> simp_all [HdrStage.rank]
  have hpos : ¬ out.ret < 0 := not_neg_of_pack hawaits.ret
  rw [hawaits.info]
  simp only [if_neg hpos]
  by_cases hdone' : stage' = .complete
  · subst hdone'
    have hbit' : out.ret &&& ELF_STATE_HDRS_COMPLETE ≠ 0 := by
      rw [hawaits.ret]
      exact fun h => (pack_hdrsComplete .complete .post k).mp h rfl
    have hnext := withPhase_pack .complete .post .complete k
    rw [← hawaits.state] at hnext
    rw [if_pos hbit']
    refine ⟨_, rfl, hadv.ehdr.trans hehdr, ?_, rfl, .inl rfl⟩
    exact hnext ▸ pack_nonneg .complete .complete k
  · have hbit' : ¬ out.ret &&& ELF_STATE_HDRS_COMPLETE ≠ 0 := by
      rw [hawaits.ret]
      exact not_not.mpr ((pack_hdrsComplete stage' .post k).mpr hdone')
    obtain ⟨-, hno, hnl⟩ := hawaits.asks hdone'
    rw [if_neg hbit']
    -- progress: either a round is left over, or the answer fills a piece
    have hrank' : 4 ≤ n + stage'.rank := by
      rcases hrank with h | ⟨rfl, rfl, h⟩
      · have hle := hadv.rank
        omega
      · have hlt := hadv.later hdone hawaits
        omega
    refine ⟨info', rfl, hadv.ehdr.trans hehdr, ?_, rfl, .inr ⟨stage', hdone',
      hph', hawaits.state, hawaits.state, hno, hnl, hrank'⟩⟩
    exact hawaits.state ▸ pack_nonneg stage' .post k

/-- A round in which `elf_load` fails. -/
theorem dataLoop_fails (store : ImageStoreOps) {run : LoadRun} {d : DataOut}
    (hcall : (elfLoad heap run.img run.offset run.len run.info
      run.lastLoadState RPROC_LOAD_ANYADDR 0 0 0 0).val = d)
    (hret : d.ret < 0) (loads : List ElfSegment) :
    Settles (fun fuel => (dataLoop store heap fuel run).val)
      (DataEndAny img run loads) := by
  refine .of_eq (a := ⟨some d.ret, { run with info := d.info }⟩) (fun fuel => ?_)
    ⟨rfl, fun _ h => h, ?_, fun h => nomatch h⟩
  · simp only [dataLoop, Traced.val_bind, Traced.val_ite]
    rw [hcall, if_pos hret]
    rfl
  · rintro err ⟨⟩
    exact hret

/-- After the data, with any store. -/
theorem dataLoop_any_post (k n : Nat) : ∀ (run : LoadRun) (d : DataOut),
    (elfLoad heap run.img run.offset run.len run.info run.lastLoadState
      RPROC_LOAD_ANYADDR 0 0 0 0).val = d →
    (d.ret < 0 ∨ ∃ info, PostAnswer img k n info d) →
    Settles (fun fuel => (dataLoop store heap fuel run).val)
      (DataEndAny img run []) := by
  induction n with
  | zero =>
    intro run d hcall hanswer
    rcases hanswer with hneg | ⟨info, hans⟩
    · exact dataLoop_fails store hcall hneg []
    rcases hans.next with hlen | ⟨stage, -, -, -, -, -, -, hrank⟩
    · exact .of_eq (dataLoop_done hcall hans.ret hans.da hlen)
        ⟨rfl, fun _ h => h, (fun _ h => nomatch h),
          fun _ => ⟨⟨info, hans.info, hans.ehdr⟩, fun _ h => nomatch h⟩⟩
    · have hle := stage.rank_le
      omega
  | succ n ih =>
    intro run d hcall hanswer
    rcases hanswer with hneg | ⟨info, hans⟩
    · exact dataLoop_fails store hcall hneg []
    have hended : ∀ calls data, run.calls ⊆ calls → DataEndAny img run []
        ⟨none, { run with
          info := d.info
          lastLoadState := d.ret
          calls := calls
          imgData := data }⟩ := fun calls data hcalls =>
      ⟨rfl, hcalls, (fun _ h => nomatch h),
        fun _ => ⟨⟨info, hans.info, hans.ehdr⟩, fun _ h => nomatch h⟩⟩
    by_cases hlen : d.nlen = 0
    · exact .of_eq (dataLoop_done hcall hans.ret hans.da hlen)
        (hended run.calls run.imgData fun _ h => h)
    obtain ⟨stage, hmore, hph, hstate, hret, hno, hnl, hrank⟩ :=
      hans.next.resolve_left hlen
    have hpost : d.ret &&& RPROC_LOADER_POST_DATA_LOAD ≠ 0 := by
      rw [hret]
      exact (pack_post stage .post k).mpr rfl
    obtain ⟨calls, data, hcalls, hround | hround⟩ :=
      dataLoop_asks store hcall hans.ret hans.da hlen hpost
    · -- the store answered short, which is no error here
      exact .of_eq hround (hended calls data hcalls)
    · refine .step hround ?_
      have hnext := elfLoad_post_any heap (data.getD fun _ => 0)
        d.noffset d.nlen info hstate hans.ehdr hph (n := n)
        (.inr ⟨hno, hnl, by omega⟩)
      rw [← hans.info, ← hret] at hnext
      refine (ih { run with
        info := d.info
        lastLoadState := d.ret
        calls := calls
        imgData := data
        offset := d.noffset
        len := d.nlen } _ rfl hnext).mono fun e he => ?_
      exact ⟨he.rproc, fun c hc => he.calls (hcalls hc), he.err, he.done⟩

/-- How the loop ends after a segment was asked for is how it ends from
before. -/
theorem DataEndAny.cons {run run' : LoadRun} {seg : ElfSegment}
    {loads : List ElfSegment} (hrproc : run'.rproc = run.rproc)
    (hcalls : run.calls ⊆ run'.calls) (hasked : Asked run'.calls seg)
    {e : LoopEnd} (he : DataEndAny img run' loads e) :
    DataEndAny img run (seg :: loads) e := by
  refine ⟨he.rproc.trans hrproc, fun c hc => he.calls (hcalls hc), he.err,
    fun hnone => ⟨(he.done hnone).1, ?_⟩⟩
  rw [List.forall_mem_cons]
  exact ⟨hasked.mono he.calls, (he.done hnone).2⟩

/-- A round that finds a segment, with any store: it ends the loop with an
error, or the store returned all of the segment. -/
theorem dataLoop_any_segment (store : ImageStoreOps) {run : LoadRun}
    {seg : ElfSegment} {ret : Int32} {info : Option ElfInfo}
    (hcall : (elfLoad heap run.img run.offset run.len run.info
      run.lastLoadState RPROC_LOAD_ANYADDR 0 0 0 0).val = seg.out ret info)
    (hret : ¬ ret < 0) (hda : seg.paddr ≠ RPROC_LOAD_ANYADDR)
    (hsize : seg.filesz.toNat < 2 ^ 31) (loads : List ElfSegment) :
    (∃ e, (∀ fuel, (dataLoop store heap (fuel + 1) run).val = some e) ∧
      DataEndAny img run loads e) ∨
    ∃ run', (∀ fuel, (dataLoop store heap (fuel + 1) run).val =
        (dataLoop store heap fuel run').val) ∧
      run'.info = info ∧ run'.lastLoadState = ret ∧
      run'.rproc = run.rproc ∧ run.calls ⊆ run'.calls ∧
      Asked run'.calls seg := by
  have hround : ∀ fuel, (dataLoop store heap (fuel + 1) run).val = _ :=
    dataLoop_segment hcall hret hda
  obtain ⟨hkeeps, hcalls, hfails, hasked⟩ := storeSegment_any store
    (run.after (seg.out ret info)) (seg.out ret info)
  generalize storeSegment store (run.after (seg.out ret info))
    (seg.out ret info) = r at *
  cases herr : r.err with
  | some err =>
    simp only [herr] at hround
    refine .inl ⟨_, hround, hkeeps.rproc, hcalls, ?_, fun h => nomatch h⟩
    rintro err' ⟨⟩
    exact hfails err herr
  | none =>
    simp only [herr] at hround
    refine .inr ⟨r.run, hround, hkeeps.info, hkeeps.lastLoadState,
      hkeeps.rproc, hcalls, ?_⟩
    by_cases hzero : seg.filesz = 0
    · exact .inl hzero
    · obtain ⟨c, hc, ho, hs, hr⟩ := hasked herr (by
        rw [UInt64.pos_iff_ne_zero]
        exact hzero)
      refine .inr ⟨c, hc, ho, hs, ?_⟩
      rw [hr]
      exact sizeToInt_toInt hsize

variable (store) in
/-- **The data loop ends**, whatever the store answers, from program
header `k` on. -/
theorem dataLoop_any_ready (htable : img.TableOk) (hsegs : img.SegmentsOk)
    (m : Nat) : ∀ (run : LoadRun) (stage : HdrStage) (k : Nat) (info : ElfInfo),
    img.ehdr.phnum.toNat - k < m → run.info = some info →
    info.loadState = pack stage .ready k →
    run.lastLoadState = pack stage .ready k → stage ≠ .phdrs →
    KnownAt img heap stage info → k < 256 →
    k < img.ehdr.phnum.toNat ∨ img.ehdr.phnum.toNat = 0 ∧ k = 0 →
    Settles (fun fuel => (dataLoop store heap fuel run).val)
      (DataEndAny img run
        (loadsFrom img.segmentAt img.ehdr.phnum.toNat k)) := by
  induction m with
  | zero =>
    intro run stage k info hm
    omega
  | succ m ih =>
    intro run stage k info hm hinfo hstate hlast hph hknown hk hkn
    have hcall := img.elfLoad_ready_val
      (segmentEnd_le htable.phdrsSize_toNat.1) hknown.ehdr (hknown.phdrs hph)
      run.img run.offset run.len hstate (by omega)
    simp only [← hinfo, ← hlast, Nat.mod_eq_of_lt hk] at hcall
    rcases hcall with ⟨j, h1, h2, hload, hloads, hcall⟩ | ⟨hnone, no, hcall⟩
    · have hseg := img.mem_loads h2 hload
      generalize hphase : (if j + 1 = img.ehdr.phnum.toNat then LoadPhase.post
        else .ready) = phase at hcall
      rw [hloads]
      rcases dataLoop_any_segment store hcall (pack_nonneg _ _ _)
          (hsegs.paddr_ne _ hseg) (hsegs.filesz_lt _ hseg) _ with
        ⟨e, hround, he⟩ | ⟨run', hround, hinfo', hlast', hrproc, hcalls, hasked⟩
      · exact .of_eq hround he
      refine .step hround
        (.mono ?_ fun e => DataEndAny.cons hrproc hcalls hasked)
      by_cases hend : j + 1 = img.ehdr.phnum.toNat
      · rw [if_pos hend] at hphase
        subst hphase
        rw [loadsFrom_end (Nat.le_of_eq hend.symm)]
        have hpost := elfLoad_post_any heap run'.img run'.offset run'.len
          { info with loadState := pack stage .post (j + 1) } rfl
          hknown.ehdr hph (n := 4) (.inl (by omega))
        rw [← hinfo', ← hlast'] at hpost
        exact dataLoop_any_post (j + 1) 4 run' _ rfl hpost
      · rw [if_neg hend] at hphase
        subst hphase
        have hnum : j < 255 := by
          by_contra hge
          exact hsegs.number j (by omega) (by omega) hload
        exact ih run' stage (j + 1) _ (by omega) hinfo' rfl hlast' hph
          ⟨hknown.ehdr, hknown.phdrs⟩ (by omega) (.inl (by omega))
    · -- no loadable segment is left
      refine .of_eq (dataLoop_done hcall (pack_nonneg _ _ _) rfl rfl)
        ⟨rfl, fun _ h => h, (fun _ h => nomatch h), fun _ => ⟨⟨_, rfl,
          hknown.ehdr⟩, ?_⟩⟩
      rw [hnone]
      exact fun _ h => nomatch h

end Data

/-! ## The result -/

/-- The result is honest: zero for a loaded image, else negative and the
remote processor neither ready nor with another boot address. -/
structure Honest (img : Image) (rproc : Rproc) (out : LoadOut) : Prop where
  loaded : out.ret = 0 → out.run.rproc.state = .ready ∧
    out.run.rproc.bootaddr = img.ehdr.entry ∧
    ∀ seg ∈ img.loads, Asked out.run.calls seg
  failed : out.ret ≠ 0 → out.ret < 0 ∧ out.run.rproc.state = rproc.state ∧
    out.run.rproc.bootaddr = rproc.bootaddr

/-- No request for headers is answered with fewer bytes than asked for,
other than with an error. -/
def HeadersAnswered (store : ImageStoreOps) (heap : Heap) (rproc : Rproc)
    (target : Mem) : Prop :=
  ∀ fuel e, (headerLoop store heap fuel (openedRun store rproc target) 0 0).val =
    some e → ∀ c ∈ e.run.calls, ¬ c.Short

section Result

variable {store : ImageStoreOps} {heap : Heap} {img : Image}

/-- The end of a load whose segments have all been asked for. -/
theorem finishLoad_honest {run : LoadRun} {info : ElfInfo}
    (hinfo : run.info = some info) (hehdr : info.ehdr = img.ehdr)
    (hasked : ∀ seg ∈ img.loads, Asked run.calls seg) (rsc : RscFound)
    (rproc : Rproc) : Honest img rproc (finishLoad store heap rsc run) := by
  have hkeep : run.KeepsState
      (if rsc.size = 0 then (locateRscTable store heap run rsc).val
        else (rsc, run)).2 := by
    split
    · exact locateRscTable_keeps store heap run rsc
    · exact .refl run
  simp only [finishLoad]
  generalize (if rsc.size = 0 then (locateRscTable store heap run rsc).val
    else (rsc, run)) = found at hkeep
  have hall := hkeep.trans (updateRscTable_keeps found.2 found.1)
  refine ⟨fun _ => ⟨rfl, ?_, fun seg hseg => (hasked seg hseg).mono hall.calls⟩,
    fun h => absurd rfl h⟩
  simp only [hall.info, hinfo, elfGetEntry, Option.elim_some, hehdr]

theorem honest_of_error {rproc : Rproc} {err : Int32} {run : LoadRun}
    (hneg : err < 0) (hstate : run.rproc.state = rproc.state)
    (hboot : run.rproc.bootaddr = rproc.bootaddr) :
    Honest img rproc ⟨err, run⟩ := by
  refine ⟨fun hzero => ?_, fun _ => ⟨hneg, hstate, hboot⟩⟩
  rw [show err = 0 from hzero] at hneg
  exact absurd hneg (by decide)

end Result

theorem oneSegment_tableOk : oneSegment.TableOk :=
  ⟨.inr (.inl (by decide +kernel)), by decide +kernel⟩

theorem oneSegment_segmentsOk : oneSegment.SegmentsOk := by
  have hnum : oneSegment.ehdr.phnum.toNat = 1 := by decide +kernel
  refine ⟨?_, ?_, fun i h1 h2 => by omega⟩
  · rw [oneSegment_loads]
    decide
  · rw [oneSegment_loads]
    decide

theorem Image.handsOut_store (img : Image) (first : Int32) (seek : Bool)
    (hlen : img.len < 2 ^ 64)
    (hfirst : (intToSize first).toNat ≤ img.len) :
    HandsOut (img.store first seek) img where
  len_lt := hlen
  first _ := by
    refine ⟨by rw [UInt64.toNat_zero, Nat.zero_add]; exact hfirst, ?_⟩
    intro i _
    rw [UInt64.toNat_zero, Nat.zero_add]
    rfl
  data := by
    intro n offset size target hsize hret
    simp only [Image.store] at hret ⊢
    split at hret
    · next hin => exact ⟨_, by rw [if_pos hin], hin, fun _ _ => rfl⟩
    · exact absurd hret (by simp; omega)

/-- A store that opens an image and then has nothing more to give. -/
def Image.drained (img : Image) (first : Int32) : ImageStoreOps :=
  { img.store first true with load := fun _ _ _ _ target => ⟨0, none, target⟩ }

end OpenAmp.Remoteproc
