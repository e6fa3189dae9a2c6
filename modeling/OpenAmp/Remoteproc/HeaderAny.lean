import OpenAmp.Remoteproc.HeaderSpec

/-!
# The header loop with any store

A store may answer every request as it likes. What it hands out is taken
to be the image: where it returns as many bytes as were asked for, they
are there. Then the header loop ends with an error, or with the header
and the program headers of the image.
-/

namespace OpenAmp.Remoteproc

open OpenAmp.Lib OpenAmp.Metal

/-- The bytes that the store hands out are those of the image. Its return
values can be anything. -/
structure HandsOut (store : ImageStoreOps) (img : Image) : Prop where
  len_lt : img.len < 2 ^ 64
  first : 0 < store.openImg.1.toInt →
    img.Chunk store.openImg.2 0 (intToSize store.openImg.1)
  data : ∀ n (offset size : UInt64) target, 0 < size.toNat →
    (size.toNat : Int) ≤ (store.load n offset size none target).ret.toInt →
    ∃ data, (store.load n offset size none target).data = some data ∧
      img.Chunk data offset size

/-- The program header table has entries of the size the loader goes by,
and an end. A single entry may be larger. -/
structure Image.TableOk (img : Image) : Prop where
  phentsize : img.ehdr.phnum.toNat = 0 ∨
    img.ehdr.phentsize.toNat = phdrSize img.ehdr.is64 ∨
    img.ehdr.phnum.toNat = 1 ∧
      phdrSize img.ehdr.is64 ≤ img.ehdr.phentsize.toNat
  nowrap : img.ehdr.phoff.toNat + img.ehdr.phdrsSize.toNat < 2 ^ 64

/-- A request was answered with fewer bytes than asked for, and not with
an error. -/
def StoreCall.Short (c : StoreCall) : Prop :=
  0 ≤ c.ret ∧ c.ret < sizeToInt c.size

section Loop

variable {store : ImageStoreOps} {heap : Heap} {img : Image}

theorem Image.TableOk.phdrsSize_toNat (htable : img.TableOk) :
    img.ehdr.phnum.toNat * phdrSize img.ehdr.is64 ≤ img.ehdr.phdrsSize.toNat ∧
      img.ehdr.phdrsSize.toNat < 2 ^ 31 := by
  have h1 := img.ehdr.phnum.toNat_lt
  have h2 := img.ehdr.phentsize.toNat_lt
  have h3 : phdrSize img.ehdr.is64 ≤ 56 := by cases img.ehdr.is64 <;> decide
  rw [ElfEhdr.phdrsSize, UInt64.toNat_mul, UInt16.toNat_toUInt64,
    UInt16.toNat_toUInt64]
  rcases htable.phentsize with h | h | ⟨h, hle⟩
  · simp [h]
  · have h4 : img.ehdr.phnum.toNat * phdrSize img.ehdr.is64 ≤ 2 ^ 16 * 56 :=
      Nat.mul_le_mul (by omega) h3
    rw [h, Nat.mod_eq_of_lt (by omega)]
    exact ⟨Nat.le_refl _, by omega⟩
  · rw [h, Nat.one_mul, Nat.one_mul, Nat.mod_eq_of_lt (by omega)]
    exact ⟨hle, by omega⟩

/-- The image information is that of the image, as far as the program
headers go. -/
structure KnownAt (img : Image) (heap : Heap) (stage : HdrStage)
    (info : ElfInfo) : Prop where
  ehdr : info.ehdr = img.ehdr
  phdrs : stage ≠ .phdrs →
    info.phdrs = some (img.block heap img.ehdr.phoff img.ehdr.phdrsSize)

/-- The program headers copied from a chunk are those of the image. -/
theorem KnownAt.phdrsFrom (hlen : img.len < 2 ^ 64) (htable : img.TableOk)
    {info : ElfInfo} {stage : HdrStage} (hknown : KnownAt img heap stage info)
    {data : Mem} {offset len : UInt64}
    (hchunk : 0 < img.ehdr.phdrsSize.toNat → img.Chunk data offset len)
    (hlacks : info.lacks offset len .phdrs = false) :
    info.phdrsFrom heap data offset len =
      img.block heap img.ehdr.phoff img.ehdr.phdrsSize := by
  simp only [ElfInfo.phdrsFrom, ElfInfo.lacks, ElfInfo.piece, hknown.ehdr]
    at hlacks ⊢
  by_cases hpos : 0 < img.ehdr.phdrsSize.toNat
  · exact copyBlock_of_chunk (hchunk hpos) heap hlen htable.nowrap hlacks
  · simp only [copyBlock, val_accessAt, Image.block, Block.mk.injEq, true_and]
    funext i
    rw [if_neg (by omega), if_neg (by omega)]

/-- In the header loop the phase follows from the stage. -/
theorem Advances.phase_eq {info info' : ElfInfo} {data : Mem}
    {offset len : UInt64} {stage stage' : HdrStage} {phase' : LoadPhase}
    (h : Advances heap data offset len info stage stage.phase stage' phase'
      info') : phase' = stage'.phase := by
  have hrank := h.rank
  rw [h.phase]
  cases stage <;> cases stage' <;> simp_all [HdrStage.phase, HdrStage.rank]

/-- What is known of the image after a further call. -/
theorem KnownAt.advances (hlen : img.len < 2 ^ 64) (htable : img.TableOk)
    {info info' : ElfInfo} {stage stage' : HdrStage}
    (hknown : KnownAt img heap stage info) {data : Mem} {offset len : UInt64}
    (hchunk : stage = .phdrs → 0 < img.ehdr.phdrsSize.toNat →
      img.Chunk data offset len) {phase phase' : LoadPhase}
    (h : Advances heap data offset len info stage phase stage' phase' info') :
    KnownAt img heap stage' info' := by
  refine ⟨h.ehdr.trans hknown.ehdr, fun hne => ?_⟩
  by_cases hph : stage = .phdrs
  · obtain ⟨hlacks, hphdrs⟩ := h.loaded hph hne
    rw [hphdrs, hknown.phdrsFrom hlen htable (hchunk hph) hlacks]
  · rw [h.kept hph, hknown.phdrs hph]

/-- One round of the header loop. -/
theorem headerLoop_round (store : ImageStoreOps) (run : LoadRun)
    {noffset nlen : UInt64} {out : HeaderOut}
    (hcall : (elfLoadHeader heap run.img run.offset run.len run.info
      run.lastLoadState noffset nlen).val = out) (fuel : Nat) :
    (headerLoop store heap (fuel + 1) run noffset nlen).val =
      if out.ret < 0 then some ⟨some out.ret,
        { run with info := out.info, lastLoadState := out.ret }⟩
      else if headersDone store
          { run with info := out.info, lastLoadState := out.ret } out then
        some ⟨none, { run with info := out.info, lastLoadState := out.ret }⟩
      else
        let ans := store.load run.calls.length out.noffset out.nlen none run.target
        let calls := run.calls ++ [⟨out.noffset, out.nlen, none, ans.ret⟩]
        if ans.ret < sizeToInt out.nlen then some ⟨some ans.ret,
          { run with
            info := out.info
            lastLoadState := out.ret
            calls := calls
            imgData := ans.data }⟩
        else (headerLoop store heap fuel
          { run with
            info := out.info
            lastLoadState := out.ret
            calls := calls
            imgData := ans.data
            offset := out.noffset
            len := out.nlen } out.noffset out.nlen).val := by
  simp only [headerLoop, Traced.val_bind, Traced.val_ite]
  rw [hcall]
  rfl

/-- How the header loop can end: with an error, after a short answer, or
with the program headers of the image. -/
structure HeaderEnd (img : Image) (heap : Heap) (run : LoadRun) (e : LoopEnd) :
    Prop where
  rproc : e.run.rproc = run.rproc
  err : ∀ err, e.err = some err → err < 0 ∨ ∃ c ∈ e.run.calls, c.Short
  done : e.err = none → ∃ stage info, stage ≠ .phdrs ∧
    KnownAt img heap stage info ∧ e.run.info = some info ∧
    info.loadState = pack stage .ready 0 ∧
    e.run.lastLoadState = pack stage .ready 0

/-- A round in which `elf_load_header` fails. -/
theorem headerLoop_fails (store : ImageStoreOps) {run : LoadRun}
    {noffset nlen : UInt64} {out : HeaderOut}
    (hcall : (elfLoadHeader heap run.img run.offset run.len run.info
      run.lastLoadState noffset nlen).val = out) (hneg : out.ret < 0) :
    Settles (fun fuel => (headerLoop store heap fuel run noffset nlen).val)
      (HeaderEnd img heap run) := by
  have hround := headerLoop_round store run hcall
  simp only [if_pos hneg] at hround
  refine .of_eq hround ⟨rfl, ?_, by rintro ⟨⟩⟩
  rintro err ⟨⟩
  exact .inl hneg

/-- An answer that is not short has the program headers of the image. -/
theorem HandsOut.phdrs_chunk (hout : HandsOut store img)
    (htable : img.TableOk) (n : Nat) (offset : UInt64) (target : Mem)
    {len : UInt64} (hlen : len = img.ehdr.phdrsSize)
    (hpos : 0 < img.ehdr.phdrsSize.toNat)
    (hfull : ¬ (store.load n offset len none target).ret < sizeToInt len) :
    img.Chunk ((store.load n offset len none target).data.getD fun _ => 0)
      offset len := by
  have hlt := htable.phdrsSize_toNat.2
  rw [← hlen] at hlt hpos
  rw [Int32.lt_iff_toInt_lt, sizeToInt_toInt hlt] at hfull
  obtain ⟨data, hdata, hchunk⟩ :=
    hout.data n offset len target hpos (Int.not_lt.mp hfull)
  rw [hdata]
  exact hchunk

/-- The loop from an answer of `elf_load_header` on. -/
theorem headerLoop_any (hout : HandsOut store img) (htable : img.TableOk)
    (n : Nat) : ∀ (run : LoadRun) (noffset nlen : UInt64) (out : HeaderOut),
    (elfLoadHeader heap run.img run.offset run.len run.info run.lastLoadState
      noffset nlen).val = out →
    (out.ret < 0 ∨ ∃ stage info,
      Awaits run.offset run.len stage stage.phase 0 info out ∧
      KnownAt img heap stage info ∧ 4 ≤ n + stage.rank) →
    Settles (fun fuel => (headerLoop store heap fuel run noffset nlen).val)
      (HeaderEnd img heap run) := by
  induction n with
  | zero =>
    intro run noffset nlen out hcall hanswer
    rcases hanswer with hneg | ⟨stage, info, -, -, hrank⟩
    · exact headerLoop_fails store hcall hneg
    · -- no stage has a rank above three
      have hle := stage.rank_le
      omega
  | succ n ih =>
    intro run noffset nlen out hcall hanswer
    rcases hanswer with hneg | ⟨stage, info, hawaits, hknown, hrank⟩
    · exact headerLoop_fails store hcall hneg
    have hround := headerLoop_round store run hcall
    have hpos : ¬ out.ret < 0 := not_neg_of_pack hawaits.ret
    simp only [if_neg hpos] at hround
    by_cases hdone : headersDone store
        { run with info := out.info, lastLoadState := out.ret } out = true
    · -- the loop is left, which it is in the ready phase only
      simp only [if_pos hdone] at hround
      refine .of_eq hround ⟨rfl, by rintro _ ⟨⟩, fun _ => ?_⟩
      obtain ⟨hph, hready⟩ := headersDone_ready hawaits.ret hdone
      refine ⟨stage, info, hph, hknown, hawaits.info, ?_, ?_⟩
      · rw [hawaits.state, hready]
      · exact hready ▸ hawaits.ret
    simp only [if_neg hdone] at hround
    have hmore : stage ≠ .complete := by
      rintro rfl
      exact hdone (headersDone_complete store _ hawaits.ret (hawaits.nlen rfl))
    obtain ⟨-, hno, hnl⟩ := hawaits.asks hmore
    by_cases hshort : (store.load run.calls.length out.noffset out.nlen none
        run.target).ret < sizeToInt out.nlen
    · -- a short answer is returned as it is, so an error is either the
      -- store's own or the short answer itself
      simp only [if_pos hshort] at hround
      refine .of_eq hround ⟨rfl, ?_, by rintro ⟨⟩⟩
      rintro err ⟨⟩
      by_cases hneg : (store.load run.calls.length out.noffset out.nlen none
          run.target).ret < 0
      · exact .inl hneg
      · exact .inr ⟨_, List.mem_append_right _ (List.mem_singleton.mpr rfl),
          Int32.not_lt.mp hneg, hshort⟩
    · simp only [if_neg hshort] at hround
      refine .step hround ?_
      have hph : stage = .phdrs → stage.phase = .notReady ∧ 0 = 0 := by
        rintro rfl
        exact ⟨rfl, rfl⟩
      -- only the program headers have to be those of the image
      have hchunk : stage = .phdrs → 0 < img.ehdr.phdrsSize.toNat →
          img.Chunk ((store.load run.calls.length out.noffset out.nlen none
            run.target).data.getD fun _ => 0) out.noffset out.nlen := by
        rintro rfl hsize
        have hnl' : out.nlen = img.ehdr.phdrsSize := by
          rw [hnl, ElfInfo.piece, hknown.ehdr]
        exact hout.phdrs_chunk htable _ _ _ hnl' hsize hshort
      generalize store.load run.calls.length out.noffset out.nlen none
        run.target = ans at *
      have hspec := elfLoadHeader_spec heap (ans.data.getD fun _ => 0)
        out.noffset out.nlen info hawaits.state hmore hph out.noffset out.nlen
      refine (ih _ _ _ _ rfl ?_).mono
        fun e he => ⟨he.rproc, he.err, he.done⟩
      rw [← hawaits.info, ← hawaits.ret] at hspec
      refine hspec.imp id ?_
      rintro ⟨stage', phase', info', hawaits', hadv⟩
      have hphase := hadv.phase_eq
      subst hphase
      -- the piece asked for has come, so the stage is passed
      have hlater : stage.rank < stage'.rank := by
        rw [hno, hnl] at hawaits' hadv
        exact hadv.later hmore hawaits'
      exact ⟨stage', info', hawaits', hknown.advances hout.len_lt htable hchunk
        hadv, by omega⟩

/-- The loop from a chunk with the whole header on. -/
theorem headerLoop_any_whole (hout : HandsOut store img) (htable : img.TableOk)
    {run : LoadRun} (hopen : Opened img run)
    (hlen : (ehdrSize img.ehdr.is64).toNat ≤ run.len.toNat)
    (noffset nlen : UInt64) :
    Settles (fun fuel => (headerLoop store heap fuel run noffset nlen).val)
      (HeaderEnd img heap run) := by
  have hge : 52 ≤ run.len.toNat := by
    refine Nat.le_trans ?_ hlen
    cases img.ehdr.is64 <;> decide
  have hclass := Image.elfIs64_of_chunk hopen.chunk (by simp [EI_CLASS]; omega)
  have hno : ¬ run.len < ehdrSize img.ehdr.is64 := by
    rw [UInt64.lt_iff_toNat_lt]
    omega
  refine headerLoop_any hout htable 4 run noffset nlen _ rfl ?_
  rw [hopen.info, hopen.state, elfLoadHeader]
  simp only [if_true, Traced.val_bind, Traced.val_ite]
  simp only [val_accessAt, hclass, Image.ofBytes_of_chunk hopen.chunk hlen,
    Option.bind_none]
  rw [if_neg hno]
  by_cases halloc : heap.alloc (elfInfoSize img.ehdr.is64) = false
  · rw [if_pos ⟨rfl, halloc⟩]
    exact .inl neg_enomem
  rw [if_neg (fun h => halloc h.2)]
  refine (elfLoadPhdrs_spec heap run.img run.offset run.len
    ⟨img.ehdr, ELF_STATE_WAIT_FOR_PHDRS, none, none, none⟩ pack_init noffset
    nlen).imp id ?_
  rintro ⟨stage, phase, info, hawaits, hadv⟩
  change Advances heap run.img run.offset run.len _ .phdrs
    (HdrStage.phase .phdrs) stage phase info at hadv
  obtain rfl := hadv.phase_eq
  have hknown : KnownAt img heap .phdrs
      ⟨img.ehdr, ELF_STATE_WAIT_FOR_PHDRS, none, none, none⟩ :=
    ⟨rfl, fun h => absurd rfl h⟩
  refine ⟨stage, info, hawaits, hknown.advances hout.len_lt htable
    (fun _ _ => ?_) hadv, by omega⟩
  rw [hopen.offset]
  exact hopen.chunk

/-- A chunk without the whole header: the loop asks for it. -/
theorem headerLoop_any_short (hout : HandsOut store img) {run : LoadRun}
    (hopen : Opened img run) (hlen : run.len < ehdrSize (elfIs64 run.img))
    (hrest : ∀ run' noffset nlen, Opened img run' →
      run'.len = ehdrSize (elfIs64 run.img) → run'.rproc = run.rproc →
      Settles (fun fuel => (headerLoop store heap fuel run' noffset nlen).val)
        (HeaderEnd img heap run'))
    (noffset nlen : UInt64) :
    Settles (fun fuel => (headerLoop store heap fuel run noffset nlen).val)
      (HeaderEnd img heap run) := by
  have hcall := Image.elfLoadHeader_short heap run.offset run.info hlen noffset
    nlen
  rw [← hopen.state] at hcall
  have hround := headerLoop_round store run hcall
  have hsmall : (ehdrSize (elfIs64 run.img)).toNat < 2 ^ 31 := by
    cases elfIs64 run.img <;> decide
  have hlarge : 0 < (ehdrSize (elfIs64 run.img)).toNat := by
    cases elfIs64 run.img <;> decide
  generalize ehdrSize (elfIs64 run.img) = size at *
  rw [hopen.state] at hround
  -- the initial state is not the ready one
  have hdone : ¬ headersDone store
      { run with info := run.info, lastLoadState := ELF_STATE_INIT }
      ⟨ELF_STATE_INIT, run.info, 0, size⟩ = true := by
    simp [headersDone, ELF_STATE_INIT]
  simp only [if_neg (show ¬ ELF_STATE_INIT < 0 by decide), if_neg hdone]
    at hround
  by_cases hshort : (store.load run.calls.length 0 size none
      run.target).ret < sizeToInt size
  · simp only [if_pos hshort] at hround
    refine .of_eq hround ⟨rfl, ?_, by rintro ⟨⟩⟩
    rintro err ⟨⟩
    by_cases hneg : (store.load run.calls.length 0 size none run.target).ret < 0
    · exact .inl hneg
    · exact .inr ⟨_, List.mem_append_right _ (List.mem_singleton.mpr rfl),
        Int32.not_lt.mp hneg, hshort⟩
  · simp only [if_neg hshort] at hround
    have hcount : (size.toNat : Int) ≤ (store.load run.calls.length 0 size none
        run.target).ret.toInt := by
      rw [Int32.lt_iff_toInt_lt, sizeToInt_toInt hsmall] at hshort
      omega
    obtain ⟨data, hdata, hchunk⟩ := hout.data run.calls.length 0 size run.target
      hlarge hcount
    simp only [hdata] at hround
    have hnext := hrest { run with
      lastLoadState := ELF_STATE_INIT
      calls := run.calls ++ [⟨0, size, none,
        (store.load run.calls.length 0 size none run.target).ret⟩]
      imgData := some data
      offset := 0
      len := size } 0 size ⟨hopen.info, rfl, rfl, hchunk⟩ rfl rfl
    exact .step hround (hnext.mono fun e he => ⟨he.rproc, he.err, he.done⟩)

variable (heap) in
/-- **The header loop ends**, whatever the store answers: with an error,
or with the program headers of the image. -/
theorem headerLoop_any_opened (hout : HandsOut store img)
    (htable : img.TableOk) {run : LoadRun} (hopen : Opened img run)
    (noffset nlen : UInt64) :
    Settles (fun fuel => (headerLoop store heap fuel run noffset nlen).val)
      (HeaderEnd img heap run) := by
  have hlarge : ∀ c, EI_CLASS < (ehdrSize c).toNat := by decide
  -- with the class byte in the chunk, at most one more request is made
  have hclass : ∀ (run : LoadRun) (noffset nlen : UInt64), Opened img run →
      EI_CLASS < run.len.toNat →
      Settles (fun fuel => (headerLoop store heap fuel run noffset nlen).val)
        (HeaderEnd img heap run) := by
    intro run noffset nlen hopen hlen
    have hknown := Image.elfIs64_of_chunk hopen.chunk hlen
    by_cases hshort : run.len < ehdrSize (elfIs64 run.img)
    · refine headerLoop_any_short hout hopen hshort ?_ noffset nlen
      intro run' no nl hopen' hlen' _
      refine headerLoop_any_whole hout htable hopen' ?_ no nl
      exact Nat.le_of_eq (by rw [hlen', hknown])
    · refine headerLoop_any_whole hout htable hopen ?_ noffset nlen
      rw [← hknown]
      exact UInt64.le_iff_toNat_le.mp (UInt64.not_lt.mp hshort)
  by_cases hshort : run.len < ehdrSize (elfIs64 run.img)
  · refine headerLoop_any_short hout hopen hshort ?_ noffset nlen
    intro run' no nl hopen' hlen' _
    refine hclass run' no nl hopen' ?_
    rw [hlen']
    exact hlarge _
  · refine hclass run noffset nlen hopen ?_
    exact Nat.lt_of_lt_of_le (hlarge _)
      (UInt64.le_iff_toNat_le.mp (UInt64.not_lt.mp hshort))

end Loop

end OpenAmp.Remoteproc
