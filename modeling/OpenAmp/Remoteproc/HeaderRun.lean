import OpenAmp.Lib.Fuel
import OpenAmp.Remoteproc.Image

/-!
# Loading the headers

The first loop of `remoteproc_load` on a well-formed image. A call of
`elf_load_header` goes through the header stages as far as its chunk
reaches and asks for the next piece; the loop fetches that piece, so
each further round passes at least one stage. With a store that can seek
the loop ends with all headers; without, it also ends where the next
piece begins behind the chunk.
-/

namespace OpenAmp.Remoteproc

open OpenAmp.Lib OpenAmp.Metal

namespace Image

variable (img : Image)

/-- Where the name of section `i` begins in the string table. -/
def nameAt (i : Nat) : Nat :=
  ((img.raw img.ehdr.shoff img.ehdr.shdrsSize).load
    (i * shdrSize img.ehdr.is64) 4).val.toNat

/-- An ELF image whose tables lie inside it and have entries of the size
the loader is compiled for, with a terminated string table. -/
structure WellFormed : Prop where
  len_lt : img.len < 2 ^ 64
  magic : readBytes img.bytes 0 4 = ELFMAG
  ehdr_in : (ehdrSize img.ehdr.is64).toNat ≤ img.len
  phentsize : img.ehdr.phentsize.toNat = phdrSize img.ehdr.is64
  phnum_le : img.ehdr.phnum.toNat ≤ 256
  phdrs_in : img.ehdr.phoff.toNat + img.ehdr.phdrsSize.toNat ≤ img.len
  shentsize : img.ehdr.shentsize.toNat = shdrSize img.ehdr.is64
  shdrs_in : img.ehdr.shnum ≠ 0 →
    img.ehdr.shoff.toNat + img.ehdr.shdrsSize.toNat ≤ img.len
  shstrndx_lt : img.ehdr.shnum ≠ 0 →
    img.ehdr.shstrndx.toNat < img.ehdr.shnum.toNat
  strtab_in : img.ehdr.shnum ≠ 0 →
    img.strRange.1.toNat + img.strRange.2.toNat ≤ img.len
  name_lt : ∀ i < img.ehdr.shnum.toNat, img.nameAt i < img.strRange.2.toNat
  terminated : img.ehdr.shnum ≠ 0 →
    img.bytes (img.strRange.1.toNat + img.strRange.2.toNat - 1) = 0

variable {img}

theorem WellFormed.phdrsSize_toNat (hwf : img.WellFormed) :
    img.ehdr.phdrsSize.toNat =
      img.ehdr.phnum.toNat * phdrSize img.ehdr.is64 := by
  have h1 := img.ehdr.phnum.toNat_lt
  have h2 : phdrSize img.ehdr.is64 ≤ 56 := by cases img.ehdr.is64 <;> decide
  have h3 : img.ehdr.phnum.toNat * phdrSize img.ehdr.is64 ≤ 2 ^ 16 * 56 :=
    Nat.mul_le_mul (by omega) h2
  rw [ElfEhdr.phdrsSize, UInt64.toNat_mul, UInt16.toNat_toUInt64,
    UInt16.toNat_toUInt64, hwf.phentsize, Nat.mod_eq_of_lt (by omega)]

theorem WellFormed.shdrsSize_toNat (hwf : img.WellFormed) :
    img.ehdr.shdrsSize.toNat =
      img.ehdr.shnum.toNat * shdrSize img.ehdr.is64 := by
  have h1 := img.ehdr.shnum.toNat_lt
  have h2 : shdrSize img.ehdr.is64 ≤ 64 := by cases img.ehdr.is64 <;> decide
  have h3 : img.ehdr.shnum.toNat * shdrSize img.ehdr.is64 ≤ 2 ^ 16 * 64 :=
    Nat.mul_le_mul (by omega) h2
  rw [ElfEhdr.shdrsSize, UInt64.toNat_mul, UInt16.toNat_toUInt64,
    UInt16.toNat_toUInt64, hwf.shentsize, Nat.mod_eq_of_lt (by omega)]

theorem shnum_pos (h : img.ehdr.shnum ≠ 0) : 0 < img.ehdr.shnum.toNat := by
  rcases Nat.eq_zero_or_pos img.ehdr.shnum.toNat with h0 | h0
  · exact absurd (UInt16.toNat_inj.mp h0) h
  · exact h0

theorem WellFormed.sound (hwf : img.WellFormed) : img.Sound where
  len_lt := hwf.len_lt
  phdrs := Nat.lt_of_le_of_lt hwf.phdrs_in hwf.len_lt
  shdrs h := Nat.lt_of_le_of_lt (hwf.shdrs_in h) hwf.len_lt
  shstrndx := hwf.shstrndx_lt
  phdrs_in := hwf.phdrs_in
  shdrs_in := hwf.shdrs_in
  entry h _ := by
    have hroom := Nat.mul_le_mul_right (shdrSize img.ehdr.is64)
      (Nat.succ_le_of_lt h)
    have hend : rangeEnd img.ehdr.is64 ≤ shdrSize img.ehdr.is64 := by
      cases img.ehdr.is64 <;> decide
    rw [Nat.succ_mul] at hroom
    rw [hwf.shdrsSize_toNat]
    omega
  strtab h _ := by
    have hsh : img.ehdr.shnum ≠ 0 := by
      intro hzero
      rw [hzero] at h
      exact absurd h (Nat.not_lt_zero _)
    exact Nat.lt_of_le_of_lt (hwf.strtab_in hsh) hwf.len_lt

/-- A stage that the loader can be left in: sections exist where they are
waited for. -/
def StageOk (img : Image) (stage : HdrStage) : Prop :=
  stage = .shdrs ∨ stage = .shstrtab → img.ehdr.shnum ≠ 0

theorem fromShstrtab_ok (h : img.ehdr.shnum ≠ 0) (offset len : UInt64) :
    img.StageOk (img.fromShstrtab offset len) := fun _ => h

theorem fromShdrs_ok (offset len : UInt64) :
    img.StageOk (img.fromShdrs offset len) := by
  unfold fromShdrs
  split
  · intro h
    rcases h with h | h <;> cases h
  · next h => exact fun _ => h

theorem advance_ok {stage : HdrStage} (hok : img.StageOk stage)
    (offset len : UInt64) : img.StageOk (img.advance offset len stage) := by
  cases stage with
  | phdrs =>
    rw [advance]
    split
    · exact hok
    · exact fromShdrs_ok offset len
  | shdrs => exact fromShdrs_ok offset len
  | shstrtab => exact fromShstrtab_ok (hok (.inr rfl)) offset len
  | complete => exact hok

/-- The pieces of a well-formed image are inside it. -/
theorem WellFormed.piece_in (hwf : img.WellFormed) {stage : HdrStage}
    (hok : img.StageOk stage) :
    (img.piece stage).1.toNat + (img.piece stage).2.toNat ≤ img.len := by
  cases stage with
  | phdrs => exact hwf.phdrs_in
  | shdrs => exact hwf.shdrs_in (hok (.inl rfl))
  | shstrtab => exact hwf.strtab_in (hok (.inr rfl))
  | complete => exact Nat.zero_le _

/-- Sections and their names take room. -/
theorem WellFormed.piece_ne_zero (hwf : img.WellFormed) {stage : HdrStage}
    (hok : img.StageOk stage) (hstage : stage = .shdrs ∨ stage = .shstrtab) :
    (img.piece stage).2 ≠ 0 := by
  have hsh := hok hstage
  have hpos := shnum_pos hsh
  intro hzero
  have hzero := congrArg UInt64.toNat hzero
  rw [UInt64.toNat_zero] at hzero
  rcases hstage with rfl | rfl
  · have h1 : img.ehdr.shdrsSize.toNat = 0 := hzero
    have h2 : 0 < shdrSize img.ehdr.is64 := by cases img.ehdr.is64 <;> decide
    have h3 := Nat.mul_pos hpos h2
    rw [hwf.shdrsSize_toNat] at h1
    omega
  · have h1 : img.strRange.2.toNat = 0 := hzero
    have h2 := hwf.name_lt 0 hpos
    omega

/-- A piece has what its stage needs. -/
theorem lacks_piece (stage : HdrStage) :
    img.lacks (img.piece stage).1 (img.piece stage).2 stage = false := by
  simp only [lacks, chunkLacks, decide_eq_false_iff_not, not_or, UInt64.not_lt]
  exact ⟨UInt64.le_refl _, UInt64.le_refl _⟩

end Image

/-- How far a stage is. -/
def HdrStage.rank : HdrStage → Nat
  | .phdrs => 0
  | .shdrs => 1
  | .shstrtab => 2
  | .complete => 3

theorem HdrStage.rank_le (stage : HdrStage) : stage.rank ≤ 3 := by
  cases stage <;> decide

/-- The phase that goes with a stage before data is loaded. -/
def HdrStage.phase : HdrStage → LoadPhase
  | .phdrs => .notReady
  | _ => .ready

namespace Image

variable {img : Image}

theorem rank_fromShstrtab (offset len : UInt64) :
    2 ≤ (img.fromShstrtab offset len).rank := by
  unfold fromShstrtab
  split <;> decide

theorem rank_fromShdrs (offset len : UInt64) :
    1 ≤ (img.fromShdrs offset len).rank := by
  unfold fromShdrs
  split
  · decide
  · split
    · decide
    · exact Nat.le_trans (by decide) (rank_fromShstrtab offset len)

/-- No chunk leads back. -/
theorem rank_le_advance (offset len : UInt64) (stage : HdrStage) :
    stage.rank ≤ (img.advance offset len stage).rank := by
  cases stage with
  | phdrs => exact Nat.zero_le _
  | shdrs => exact rank_fromShdrs offset len
  | shstrtab => exact rank_fromShstrtab offset len
  | complete => exact Nat.le_refl _

/-- With its piece a stage is passed. -/
theorem rank_advance_piece {stage : HdrStage} (hstage : stage ≠ .complete) :
    stage.rank < (img.advance (img.piece stage).1 (img.piece stage).2 stage).rank := by
  have hl := img.lacks_piece stage
  cases stage with
  | phdrs =>
    rw [advance, hl]
    exact rank_fromShdrs _ _
  | shdrs =>
    simp only [advance, fromShdrs, hl]
    split
    · decide
    · exact rank_fromShstrtab _ _
  | shstrtab =>
    simp only [advance, fromShstrtab, hl]
    decide
  | complete => exact absurd rfl hstage

theorem phaseAfter_phase (offset len : UInt64) (stage : HdrStage) :
    img.phaseAfter offset len stage stage.phase =
      (img.advance offset len stage).phase := by
  have hsh : (img.fromShdrs offset len).phase = .ready := by
    have h : 1 ≤ (img.fromShdrs offset len).rank := rank_fromShdrs offset len
    cases hs : img.fromShdrs offset len with
    | phdrs => rw [hs] at h; exact absurd h (by decide)
    | _ => rfl
  have hstr : (img.fromShstrtab offset len).phase = .ready := by
    unfold fromShstrtab
    split <;> rfl
  cases stage with
  | phdrs =>
    simp only [phaseAfter, advance]
    cases img.lacks offset len .phdrs with
    | true => rfl
    | false => exact hsh.symm
  | shdrs => exact hsh.symm
  | shstrtab => exact hstr.symm
  | complete => rfl

end Image

/-! ## The loop -/

/-- Whether the header loop ends after a chunk that led to the stage. -/
def Image.headersEnd (img : Image) (seek : Bool) (offset len : UInt64)
    (stage : HdrStage) : Bool :=
  stage = .complete ∨
    (stage ≠ .phdrs ∧ seek = false ∧ offset + len < (img.piece stage).1)

/-- The stage in which the header loop ends, after a chunk that led to
the stage given. -/
def Image.settle (img : Image) (seek : Bool) :
    Nat → UInt64 → UInt64 → HdrStage → HdrStage
  | 0, _, _, stage => stage
  | n + 1, offset, len, stage =>
    if img.headersEnd seek offset len stage then stage
    else
      let (noffset, nlen) := img.piece stage
      img.settle seek n noffset nlen (img.advance noffset nlen stage)

/-- A store that can seek gets all headers. -/
theorem Image.settle_seek (img : Image) (n : Nat) :
    ∀ (offset len : UInt64) (stage : HdrStage), 3 ≤ n + stage.rank →
    img.settle true n offset len stage = .complete := by
  induction n with
  | zero =>
    intro offset len stage hrank
    cases stage with
    | complete => rfl
    | _ => exact absurd hrank (by decide)
  | succ n ih =>
    intro offset len stage hrank
    by_cases hstage : stage = .complete
    · subst hstage
      rfl
    · have hnext := img.rank_advance_piece hstage
      rw [Image.settle, if_neg (by simp [Image.headersEnd, hstage])]
      exact ih (img.piece stage).1 (img.piece stage).2
        (img.advance (img.piece stage).1 (img.piece stage).2 stage) (by omega)

/-- The loop does not end before the program headers are there. -/
theorem Image.settle_ne_phdrs (img : Image) (seek : Bool) (n : Nat) :
    ∀ (offset len : UInt64) (stage : HdrStage), 3 ≤ n + stage.rank →
    img.settle seek n offset len stage ≠ .phdrs := by
  induction n with
  | zero =>
    intro offset len stage hrank
    cases stage with
    | complete => exact fun h => nomatch h
    | _ => exact absurd hrank (by decide)
  | succ n ih =>
    intro offset len stage hrank
    rw [Image.settle]
    split
    · next hend =>
      rintro rfl
      simp [Image.headersEnd] at hend
    · next hend =>
      have hstage : stage ≠ .complete := by
        rintro rfl
        simp [Image.headersEnd] at hend
      have hnext := img.rank_advance_piece hstage
      exact ih (img.piece stage).1 (img.piece stage).2
        (img.advance (img.piece stage).1 (img.piece stage).2 stage) (by omega)

theorem Image.settle_ok (img : Image) (seek : Bool) (n : Nat) :
    ∀ (offset len : UInt64) (stage : HdrStage), img.StageOk stage →
    img.StageOk (img.settle seek n offset len stage) := by
  induction n with
  | zero => exact fun _ _ _ h => h
  | succ n ih =>
    intro offset len stage hok
    rw [Image.settle]
    split
    · exact hok
    · exact ih (img.piece stage).1 (img.piece stage).2 _ (img.advance_ok hok _ _)

/-- The headers are loaded up to the stage, and nothing else has
happened. -/
structure HeadersAt (img : Image) (heap : Heap) (start run : LoadRun)
    (stage : HdrStage) : Prop where
  info : run.info = some (img.infoAt heap stage .ready 0)
  state : run.lastLoadState = pack stage .ready 0
  rproc : run.rproc = start.rproc
  target : run.target = start.target
  io : run.io = start.io

section Loop

variable {store : ImageStoreOps} {heap : Heap} {img : Image}

theorem phase_of_headersEnd {seek : Bool} {offset len : UInt64}
    {stage : HdrStage} (h : img.headersEnd seek offset len stage = true) :
    stage.phase = .ready := by
  cases stage with
  | phdrs => simp [Image.headersEnd] at h
  | _ => rfl

/-- The loop is left with the program headers, -/
theorem headersDone_ready {store : ImageStoreOps} {run : LoadRun}
    {out : HeaderOut} {stage : HdrStage}
    (hret : out.ret = pack stage stage.phase 0)
    (hdone : headersDone store run out = true) :
    stage ≠ .phdrs ∧ stage.phase = .ready := by
  simp only [headersDone, decide_eq_true_eq, hret] at hdone
  have hready : stage.phase = .ready :=
    (pack_ready stage stage.phase 0).mp hdone.1
  refine ⟨?_, hready⟩
  rintro rfl
  cases hready

/-- and with all the headers it is left. -/
theorem headersDone_complete (store : ImageStoreOps) (run : LoadRun)
    {out : HeaderOut} (hret : out.ret = pack .complete .ready 0)
    (hlen : out.nlen = 0) : headersDone store run out = true := by
  simp only [headersDone, decide_eq_true_eq, hret]
  exact ⟨(pack_ready .complete .ready 0).mpr rfl, .inl hlen⟩

/-- The test that ends the loop, in terms of the stage. -/
theorem headersDone_iff (hwf : img.WellFormed) (store : ImageStoreOps)
    (heap : Heap) (run : LoadRun) {stage : HdrStage} (hok : img.StageOk stage)
    (noffset : UInt64) :
    headersDone store run (img.headerOut heap stage stage.phase 0 noffset) =
      img.headersEnd store.seek run.offset run.len stage := by
  rw [Bool.eq_iff_iff]
  simp only [headersDone, Image.headersEnd, Image.headerOut,
    pack_ready stage stage.phase 0, decide_eq_true_eq]
  cases stage with
  | phdrs => simp [HdrStage.phase]
  | shdrs =>
    have hne := hwf.piece_ne_zero hok (.inl rfl)
    simp [HdrStage.phase, hne, and_comm]
  | shstrtab =>
    have hne := hwf.piece_ne_zero hok (.inr rfl)
    simp [HdrStage.phase, hne, and_comm]
  | complete => simp [HdrStage.phase, Image.piece]

/-- The answer of a store that has the image. -/
theorem Serves.chunk (hserves : Serves store img) {n : Nat}
    {offset size : UInt64} (target : Mem)
    (h : offset.toNat + size.toNat ≤ img.len) :
    ∃ data, (store.load n offset size none target).data = some data ∧
      img.Chunk data offset size := by
  obtain ⟨data, hdata, hbytes⟩ := hserves.data n offset size target h
  exact ⟨data, hdata, h, hbytes⟩

/-- A round of the header loop. -/
theorem headerLoop_succ (hserves : Serves store img) (hwf : img.WellFormed)
    (run : LoadRun) {stage : HdrStage} (hok : img.StageOk stage)
    {noffset nlen : UInt64}
    (hcall : (elfLoadHeader heap run.img run.offset run.len run.info
      run.lastLoadState noffset nlen).val =
      img.headerOut heap stage stage.phase 0 noffset) :
    let run' := { run with
      info := some (img.infoAt heap stage stage.phase 0)
      lastLoadState := pack stage stage.phase 0 }
    if img.headersEnd store.seek run.offset run.len stage then
      ∀ fuel, (headerLoop store heap (fuel + 1) run noffset nlen).val =
        some ⟨none, run'⟩
    else
      ∃ data, img.Chunk data (img.piece stage).1 (img.piece stage).2 ∧
        ∃ calls, ∀ fuel,
        (headerLoop store heap (fuel + 1) run noffset nlen).val =
        (headerLoop store heap fuel
          { run' with
            imgData := some data
            calls := calls
            offset := (img.piece stage).1
            len := (img.piece stage).2 }
          (img.piece stage).1 (img.piece stage).2).val := by
  intro run'
  have hneg : ¬ (img.headerOut heap stage stage.phase 0 noffset).ret < 0 :=
    pack_nonneg stage stage.phase 0
  have hdone : ∀ r : LoadRun, r.offset = run.offset → r.len = run.len →
      headersDone store r (img.headerOut heap stage stage.phase 0 noffset) =
        img.headersEnd store.seek run.offset run.len stage := by
    intro r ho hl
    rw [headersDone_iff hwf store heap r hok noffset, ho, hl]
  cases hend : img.headersEnd store.seek run.offset run.len stage with
  | true =>
    intro fuel
    simp only [hend] at hdone
    simp only [headerLoop, Traced.val_bind, Traced.val_ite]
    rw [hcall, if_neg hneg, if_pos (by exact hdone _ rfl rfl)]
    rfl
  | false =>
    simp only [hend] at hdone
    have hnot : stage ≠ .complete := by
      rintro rfl
      simp [Image.headersEnd] at hend
    have hin := hwf.piece_in hok
    obtain ⟨data, hdata, hchunk⟩ :=
      hserves.chunk (n := run.calls.length) run.target hin
    refine ⟨data, hchunk, run.calls ++ [⟨(img.piece stage).1,
      (img.piece stage).2, none, sizeToInt (img.piece stage).2⟩], fun fuel => ?_⟩
    have hret := hserves.ret run.calls.length (img.piece stage).1
      (img.piece stage).2 none run.target hin
    have hno : (img.headerOut heap stage stage.phase 0 noffset).noffset =
        (img.piece stage).1 := if_neg hnot
    have hnl : (img.headerOut heap stage stage.phase 0 noffset).nlen =
        (img.piece stage).2 := rfl
    simp only [headerLoop, Traced.val_bind, Traced.val_ite]
    rw [hcall, if_neg hneg, if_neg (by
      rw [Bool.not_eq_true]
      exact hdone _ rfl rfl)]
    simp only [LoadRun.ask, hno, hnl]
    rw [hret, if_neg (fun h => Int32.lt_irrefl h), hdata]
    rfl

/-- The header loop ends in the stage `settle` says. -/
theorem headerLoop_from (hserves : Serves store img) (hwf : img.WellFormed)
    (halloc : ∀ size, heap.alloc size = true) (n : Nat) :
    ∀ (run : LoadRun) (stage : HdrStage) (noffset nlen : UInt64),
    img.StageOk stage → 3 ≤ n + stage.rank →
    (elfLoadHeader heap run.img run.offset run.len run.info run.lastLoadState
      noffset nlen).val = img.headerOut heap stage stage.phase 0 noffset →
    Settles (fun fuel => (headerLoop store heap fuel run noffset nlen).val)
      fun e => e.err = none ∧ HeadersAt img heap run e.run
        (img.settle store.seek n run.offset run.len stage) := by
  induction n with
  | zero =>
    intro run stage noffset nlen hok hrank hcall
    -- nothing is left to be loaded
    have hcomplete : stage = .complete := by
      cases stage with
      | complete => rfl
      | _ => exact absurd hrank (by decide)
    have hround := headerLoop_succ hserves hwf run hok hcall
    rw [hcomplete] at hround
    simp only [Image.headersEnd, true_or, decide_true, if_true] at hround
    refine .of_eq hround ⟨rfl, ?_⟩
    rw [Image.settle, hcomplete]
    exact ⟨rfl, rfl, rfl, rfl, rfl⟩
  | succ n ih =>
    intro run stage noffset nlen hok hrank hcall
    have hround := headerLoop_succ hserves hwf run hok hcall
    simp only [Image.settle]
    split at hround
    · next hend =>
      rw [if_pos hend]
      have hphase := phase_of_headersEnd hend
      refine .of_eq hround ⟨rfl, ?_⟩
      rw [hphase]
      exact ⟨rfl, rfl, rfl, rfl, rfl⟩
    · next hend =>
      rw [if_neg hend]
      have hnot : stage ≠ .complete := by
        rintro rfl
        simp [Image.headersEnd] at hend
      obtain ⟨data, hchunk, calls, hround⟩ := hround
      -- the piece is served whole, so the stage is passed
      have hnext := img.rank_advance_piece hnot
      have hph : stage = .phdrs → stage.phase = .notReady ∧ 0 = 0 := by
        rintro rfl
        exact ⟨rfl, rfl⟩
      have hcall' := img.elfLoadHeader_val hwf.sound halloc hchunk hnot hph
        (fun h => hok (.inr h)) (img.piece stage).1 (img.piece stage).2
      rw [img.phaseAfter_phase] at hcall'
      have hrest := ih { run with
          info := some (img.infoAt heap stage stage.phase 0)
          lastLoadState := pack stage stage.phase 0
          imgData := some data
          calls := calls
          offset := (img.piece stage).1
          len := (img.piece stage).2 } _ _ _
        (img.advance_ok hok _ _) (by omega) hcall'
      refine .step hround (hrest.mono ?_)
      rintro e ⟨herr, hat⟩
      exact ⟨herr, hat.info, hat.state, hat.rproc, hat.target, hat.io⟩

/-- The loop before the header of the image is known. -/
structure Opened (img : Image) (run : LoadRun) : Prop where
  info : run.info = none
  state : run.lastLoadState = ELF_STATE_INIT
  offset : run.offset = 0
  chunk : img.Chunk run.img 0 run.len

/-- A round without the whole header asks for it. -/
theorem headerLoop_short (hserves : Serves store img) (heap : Heap)
    {run : LoadRun} (hopen : Opened img run) (hlen : run.len < ehdrSize (elfIs64 run.img))
    (hin : (ehdrSize (elfIs64 run.img)).toNat ≤ img.len)
    (noffset nlen : UInt64) :
    ∃ run', Opened img run' ∧ run'.len = ehdrSize (elfIs64 run.img) ∧
      run'.rproc = run.rproc ∧ run'.target = run.target ∧ run'.io = run.io ∧
      ∃ noffset' nlen', ∀ fuel,
        (headerLoop store heap (fuel + 1) run noffset nlen).val =
          (headerLoop store heap fuel run' noffset' nlen').val := by
  have hin' : (0 : UInt64).toNat + (ehdrSize (elfIs64 run.img)).toNat ≤ img.len := by
    rw [UInt64.toNat_zero, Nat.zero_add]
    exact hin
  obtain ⟨data, hdata, hchunk⟩ :=
    hserves.chunk (n := run.calls.length) run.target hin'
  have hret := hserves.ret run.calls.length 0 (ehdrSize (elfIs64 run.img)) none
    run.target hin'
  have hcall := Image.elfLoadHeader_short heap run.offset run.info hlen noffset
    nlen
  refine ⟨{ run with
    lastLoadState := ELF_STATE_INIT
    calls := run.calls ++ [⟨0, ehdrSize (elfIs64 run.img), none,
      sizeToInt (ehdrSize (elfIs64 run.img))⟩]
    imgData := some data
    offset := 0
    len := ehdrSize (elfIs64 run.img) },
    ⟨hopen.info, rfl, rfl, hchunk⟩, rfl, rfl, rfl, rfl, 0,
    ehdrSize (elfIs64 run.img), fun fuel => ?_⟩
  have hinit : ¬ ELF_STATE_INIT < 0 := by decide
  simp only [headerLoop, Traced.val_bind, Traced.val_ite]
  rw [hopen.state, hcall, if_neg hinit, if_neg (by simp [headersDone, ELF_STATE_INIT])]
  simp only [LoadRun.ask]
  rw [hret, if_neg (fun h => Int32.lt_irrefl h), hdata]
  rfl

/-- The length of the chunk from which the header is read. -/
def Image.headerLen (img : Image) (data : Mem) (len : UInt64) : UInt64 :=
  let size := ehdrSize (elfIs64 data)
  if len < size then
    if size < ehdrSize img.ehdr.is64 then ehdrSize img.ehdr.is64 else size
  else len

theorem headerLoop_whole (hserves : Serves store img) (hwf : img.WellFormed)
    (halloc : ∀ size, heap.alloc size = true) {run : LoadRun}
    (hopen : Opened img run)
    (hlen : (ehdrSize img.ehdr.is64).toNat ≤ run.len.toNat)
    (noffset nlen : UInt64) :
    Settles (fun fuel => (headerLoop store heap fuel run noffset nlen).val)
      fun e => e.err = none ∧ HeadersAt img heap run e.run
        (img.settle store.seek 3 0 run.len (img.advance 0 run.len .phdrs)) := by
  have hcall := Image.elfLoadHeader_first hwf.sound halloc hopen.chunk hlen
    noffset nlen
  have hphase := img.phaseAfter_phase 0 run.len .phdrs
  have hok : img.StageOk .phdrs := by
    intro h
    rcases h with h | h <;> cases h
  rw [show LoadPhase.notReady = HdrStage.phase .phdrs from rfl, hphase] at hcall
  have hloop := headerLoop_from hserves hwf halloc 3 run _ noffset nlen
    (img.advance_ok hok 0 run.len) (by omega)
    (by rw [hopen.offset, hopen.info, hopen.state]; exact hcall)
  rw [hopen.offset] at hloop
  exact hloop

/-- **The headers are loaded.** From the first chunk on, the loop comes to
an end without an error, in a stage that depends on the layout only. -/
theorem headerLoop_opened (hserves : Serves store img) (hwf : img.WellFormed)
    (halloc : ∀ size, heap.alloc size = true) {run : LoadRun}
    (hopen : Opened img run)
    (hclass : EI_CLASS < run.len.toNat ∨ 64 ≤ img.len) (noffset nlen : UInt64) :
    let len := img.headerLen run.img run.len
    Settles (fun fuel => (headerLoop store heap fuel run noffset nlen).val)
      fun e => e.err = none ∧ HeadersAt img heap run e.run
        (img.settle store.seek 3 0 len (img.advance 0 len .phdrs)) := by
  simp only [Image.headerLen]
  have hsmall : ∀ c, (ehdrSize c).toNat ≤ 64 := by decide
  have hlarge : ∀ c, EI_CLASS < (ehdrSize c).toNat := by decide
  by_cases hshort : run.len < ehdrSize (elfIs64 run.img)
  · -- the first chunk ends inside the ELF header
    rw [if_pos hshort]
    have hin : (ehdrSize (elfIs64 run.img)).toNat ≤ img.len := by
      rcases hclass with h | h
      · rw [Image.elfIs64_of_chunk hopen.chunk h]
        exact hwf.ehdr_in
      · exact Nat.le_trans (hsmall _) h
    obtain ⟨run₁, hopen₁, hlen₁, hr₁, ht₁, hi₁, no₁, nl₁, hstep₁⟩ :=
      headerLoop_short hserves heap hopen hshort hin noffset nlen
    refine .step hstep₁ ?_
    by_cases hsize : ehdrSize (elfIs64 run.img) < ehdrSize img.ehdr.is64
    · -- the class was read from behind a very short chunk: ask once more
      rw [if_pos hsize]
      have hclass₁ : elfIs64 run₁.img = img.ehdr.is64 := by
        refine Image.elfIs64_of_chunk hopen₁.chunk ?_
        rw [hlen₁]
        exact hlarge _
      obtain ⟨run₂, hopen₂, hlen₂, hr₂, ht₂, hi₂, no₂, nl₂, hstep₂⟩ :=
        headerLoop_short hserves heap hopen₁ (by rw [hlen₁, hclass₁]; exact hsize)
          (by rw [hclass₁]; exact hwf.ehdr_in) no₁ nl₁
      rw [hclass₁] at hlen₂
      have hloop := headerLoop_whole hserves hwf halloc hopen₂
        (Nat.le_of_eq (by rw [hlen₂])) no₂ nl₂
      rw [hlen₂] at hloop
      refine .step hstep₂ (hloop.mono ?_)
      rintro e ⟨herr, hat⟩
      exact ⟨herr, hat.info, hat.state, hat.rproc.trans (hr₂.trans hr₁),
        hat.target.trans (ht₂.trans ht₁), hat.io.trans (hi₂.trans hi₁)⟩
    · rw [if_neg hsize]
      have hloop := headerLoop_whole hserves hwf halloc hopen₁
        (by rw [hlen₁]; exact UInt64.le_iff_toNat_le.mp (UInt64.not_lt.mp hsize))
        no₁ nl₁
      rw [hlen₁] at hloop
      refine hloop.mono ?_
      rintro e ⟨herr, hat⟩
      exact ⟨herr, hat.info, hat.state, hat.rproc.trans hr₁,
        hat.target.trans ht₁, hat.io.trans hi₁⟩
  · -- the whole header is there at once
    rw [if_neg hshort]
    have hge := UInt64.le_iff_toNat_le.mp (UInt64.not_lt.mp hshort)
    have hwhole : EI_CLASS < run.len.toNat :=
      Nat.lt_of_lt_of_le (hlarge _) hge
    rw [Image.elfIs64_of_chunk hopen.chunk hwhole] at hge
    exact headerLoop_whole hserves hwf halloc hopen hge noffset nlen

end Loop

end OpenAmp.Remoteproc
