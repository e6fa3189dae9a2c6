import OpenAmp.Remoteproc.HeaderRun

/-!
# Headers of any image

What `elf_load_header` can answer, whatever the bytes of the image and
whether or not memory can be allocated. It fails, or it keeps what it
has loaded, moves on to a later header stage and asks for the range that
this stage needs and the chunk lacks. The header loop ends in any case,
because a chunk that was asked for is not lacking.
-/

namespace OpenAmp.Remoteproc

open OpenAmp.Lib OpenAmp.Metal

/-- The range of the image that a stage needs. -/
def ElfInfo.piece (info : ElfInfo) : HdrStage → UInt64 × UInt64
  | .phdrs => (info.ehdr.phoff, info.ehdr.phdrsSize)
  | .shdrs => (info.ehdr.shoff, info.ehdr.shdrsSize)
  | .shstrtab =>
    match info.shdrs with
    | some shdrs => (elfParseSectionRange info.ehdr.is64 shdrs
        info.ehdr.shstrndx.toNat).val
    | none => (0, 0)
  | .complete => (0, 0)

/-- The chunk lacks part of what the stage needs. -/
def ElfInfo.lacks (info : ElfInfo) (offset len : UInt64) (stage : HdrStage) :
    Bool :=
  chunkLacks offset len (info.piece stage).1 (info.piece stage).2

/-- A chunk that was asked for is not lacking. -/
theorem ElfInfo.lacks_piece (info : ElfInfo) (stage : HdrStage) :
    info.lacks (info.piece stage).1 (info.piece stage).2 stage = false := by
  simp only [lacks, chunkLacks, decide_eq_false_iff_not, not_or, UInt64.not_lt]
  exact ⟨UInt64.le_refl _, UInt64.le_refl _⟩

/-- The answer of `elf_load_header` that leaves the image in a stage. -/
structure Awaits (offset len : UInt64) (stage : HdrStage) (phase : LoadPhase)
    (k : Nat) (i : ElfInfo) (out : HeaderOut) : Prop where
  ret : out.ret = pack stage phase k
  info : out.info = some i
  state : i.loadState = pack stage phase k
  nlen : stage = .complete → out.nlen = 0
  asks : stage ≠ .complete → i.lacks offset len stage = true ∧
    out.noffset = (i.piece stage).1 ∧ out.nlen = (i.piece stage).2

section Stages

variable (heap : Heap) (img : Mem) (offset len : UInt64) (info : ElfInfo)
  {phase : LoadPhase} {k : Nat}

theorem elfLoadShstrtab_spec (hstate : info.loadState = pack .shstrtab phase k)
    (noffset nlen : UInt64) :
    let out := (elfLoadShstrtab heap img offset len info noffset nlen).val
    out.ret < 0 ∨ ∃ stage info', Awaits offset len stage phase k info' out ∧
      info'.ehdr = info.ehdr ∧ info'.phdrs = info.phdrs ∧ 2 ≤ stage.rank ∧
      (stage = .shstrtab → info' = info) := by
  intro out
  simp only [out, elfLoadShstrtab]
  cases hsec : elfGetSectionFromIndex info info.ehdr.shstrndx.toNat with
  | none => exact .inl neg_einval
  | some shdrs =>
    have hshdrs : info.shdrs = some shdrs := by
      cases hs : info.shdrs with
      | none => simp [elfGetSectionFromIndex, hs] at hsec
      | some b =>
        simp only [elfGetSectionFromIndex, hs] at hsec
        split at hsec
        · rw [hsec]
        · cases hsec
    have hpiece : (elfParseSectionRange info.ehdr.is64 shdrs
        info.ehdr.shstrndx.toNat).val = info.piece .shstrtab := by
      simp only [ElfInfo.piece, hshdrs]
    simp only [Traced.val_bind, Traced.val_ite]
    rw [hpiece]
    by_cases hlacks : info.lacks offset len .shstrtab = true
    · rw [if_pos (by exact hlacks)]
      exact .inr ⟨.shstrtab, info, ⟨hstate, rfl, hstate, by rintro ⟨⟩,
        fun _ => ⟨hlacks, rfl, rfl⟩⟩, rfl, rfl, by decide, fun _ => rfl⟩
    · rw [if_neg (by exact hlacks)]
      by_cases halloc : heap.alloc (info.piece .shstrtab).2 = false
      · rw [if_pos halloc]
        exact .inl neg_enomem
      · rw [if_neg halloc]
        have hdone := withStage_pack .shstrtab .complete phase k
        rw [← hstate] at hdone
        exact .inr ⟨.complete, _, ⟨hdone, rfl, hdone, fun _ => rfl,
          fun h => absurd rfl h⟩, rfl, rfl, by decide, by rintro ⟨⟩⟩

theorem elfLoadShdrs_spec (hstate : info.loadState = pack .shdrs phase k)
    (noffset nlen : UInt64) :
    let out := (elfLoadShdrs heap img offset len info noffset nlen).val
    out.ret < 0 ∨ ∃ stage info', Awaits offset len stage phase k info' out ∧
      info'.ehdr = info.ehdr ∧ info'.phdrs = info.phdrs ∧ 1 ≤ stage.rank ∧
      (stage = .shdrs → info' = info) := by
  intro out
  simp only [out, elfLoadShdrs, Traced.val_bind, Traced.val_ite]
  by_cases hnone : info.ehdr.shnum = 0
  · rw [if_pos hnone]
    have hdone := withStage_pack .shdrs .complete phase k
    rw [← hstate] at hdone
    exact .inr ⟨.complete, _, ⟨hdone, rfl, hdone, fun _ => rfl,
      fun h => absurd rfl h⟩, rfl, rfl, by decide, fun h => nomatch h⟩
  rw [if_neg hnone]
  by_cases hlacks : info.lacks offset len .shdrs = true
  · rw [if_pos (by exact hlacks)]
    exact .inr ⟨.shdrs, info, ⟨hstate, rfl, hstate, (fun h => nomatch h),
      fun _ => ⟨hlacks, rfl, rfl⟩⟩, rfl, rfl, by decide, fun _ => rfl⟩
  rw [if_neg (by exact hlacks)]
  by_cases halloc : heap.alloc info.ehdr.shdrsSize = false
  · rw [if_pos halloc]
    exact .inl neg_enomem
  rw [if_neg halloc]
  have hnext := withStage_pack .shdrs .shstrtab phase k
  rw [← hstate] at hnext
  have hrest := elfLoadShstrtab_spec heap img offset len
    { info with
      shdrs := some (copyBlock heap img len (info.ehdr.shoff - offset)
        info.ehdr.shdrsSize).val
      loadState := withStage info.loadState ELF_STATE_WAIT_FOR_SHSTRTAB }
    hnext noffset nlen
  refine hrest.imp id ?_
  rintro ⟨stage, info', hawaits, hehdr, hphdrs, hrank, -⟩
  refine ⟨stage, info', hawaits, hehdr, hphdrs, by omega, ?_⟩
  rintro rfl
  exact absurd hrank (by decide)

/-- The copy of the program headers made from a chunk. -/
def ElfInfo.phdrsFrom (info : ElfInfo) : Block :=
  (copyBlock heap img len (info.ehdr.phoff - offset) info.ehdr.phdrsSize).val

/-- How the image information moves on from one stage to another. -/
structure Advances (stage : HdrStage) (phase : LoadPhase) (stage' : HdrStage)
    (phase' : LoadPhase) (info' : ElfInfo) : Prop where
  ehdr : info'.ehdr = info.ehdr
  kept : stage ≠ .phdrs → info'.phdrs = info.phdrs
  loaded : stage = .phdrs → stage' ≠ .phdrs →
    info.lacks offset len .phdrs = false ∧
    info'.phdrs = some (info.phdrsFrom heap img offset len)
  phase : phase' = if stage = .phdrs ∧ stage' ≠ .phdrs then .ready else phase
  rank : stage.rank ≤ stage'.rank
  stays : stage' = stage → info' = info

theorem elfLoadPhdrs_spec (hstate : info.loadState = pack .phdrs .notReady 0)
    (noffset nlen : UInt64) :
    let out := (elfLoadPhdrs heap img offset len info noffset nlen).val
    out.ret < 0 ∨ ∃ stage phase info', Awaits offset len stage phase 0 info' out ∧
      Advances heap img offset len info .phdrs .notReady stage phase info' := by
  intro out
  simp only [out, elfLoadPhdrs, Traced.val_bind, Traced.val_ite]
  by_cases hlacks : info.lacks offset len .phdrs = true
  · rw [if_pos (by exact hlacks)]
    exact .inr ⟨.phdrs, .notReady, info,
      ⟨hstate, rfl, hstate, (fun h => nomatch h), fun _ => ⟨hlacks, rfl, rfl⟩⟩,
      rfl, fun _ => rfl, fun _ h => absurd rfl h, rfl, Nat.le_refl _,
      fun _ => rfl⟩
  rw [if_neg (by exact hlacks)]
  by_cases halloc : heap.alloc info.ehdr.phdrsSize = false
  · rw [if_pos halloc]
    exact .inl neg_enomem
  rw [if_neg halloc]
  have hrest := elfLoadShdrs_spec heap img offset len
    { info with
      phdrs := some (info.phdrsFrom heap img offset len)
      loadState := ELF_STATE_WAIT_FOR_SHDRS ||| RPROC_LOADER_READY_TO_LOAD }
    pack_first_ready noffset nlen
  refine hrest.imp id ?_
  rintro ⟨stage, info', hawaits, hehdr, hphdrs, hrank, -⟩
  have hne : stage ≠ .phdrs := by
    rintro rfl
    exact absurd hrank (by decide)
  exact ⟨stage, .ready, info', hawaits, hehdr, fun h => absurd rfl h,
    fun _ _ => ⟨Bool.not_eq_true _ ▸ hlacks, hphdrs⟩, (if_pos ⟨rfl, hne⟩).symm,
    Nat.zero_le _, fun h => absurd h hne⟩

/-- **What `elf_load_header` can answer** while headers are missing. -/
theorem elfLoadHeader_spec {stage : HdrStage}
    (hstate : info.loadState = pack stage phase k) (hstage : stage ≠ .complete)
    (hph : stage = .phdrs → phase = .notReady ∧ k = 0) (noffset nlen : UInt64) :
    let out := (elfLoadHeader heap img offset len (some info)
      (pack stage phase k) noffset nlen).val
    out.ret < 0 ∨ ∃ stage' phase' info',
      Awaits offset len stage' phase' k info' out ∧
      Advances heap img offset len info stage phase stage' phase' info' := by
  intro out
  have hcall : elfLoadHeader heap img offset len (some info)
      (pack stage phase k) noffset nlen =
      if stage = .phdrs then elfLoadPhdrs heap img offset len info noffset nlen
      else if stage = .shdrs then
        elfLoadShdrs heap img offset len info noffset nlen
      else elfLoadShstrtab heap img offset len info noffset nlen := by
    simp only [elfLoadHeader, if_neg (pack_ne_init stage phase k), hstate,
      pack_eq_waitPhdrs stage phase k hph, pack_shdrs, pack_shstrtab]
    cases stage with
    | complete => exact absurd rfl hstage
    | _ => simp
  simp only [out, hcall]
  cases stage with
  | phdrs =>
    obtain ⟨rfl, rfl⟩ := hph rfl
    exact elfLoadPhdrs_spec heap img offset len info hstate noffset nlen
  | shdrs =>
    refine (elfLoadShdrs_spec heap img offset len info hstate noffset nlen).imp
      id ?_
    rintro ⟨stage', info', hawaits, hehdr, hphdrs, hrank, hstay⟩
    exact ⟨stage', phase, info', hawaits, hehdr, fun _ => hphdrs,
      (fun h => nomatch h), by simp, hrank, hstay⟩
  | shstrtab =>
    refine (elfLoadShstrtab_spec heap img offset len info hstate noffset
      nlen).imp id ?_
    rintro ⟨stage', info', hawaits, hehdr, hphdrs, hrank, hstay⟩
    exact ⟨stage', phase, info', hawaits, hehdr, fun _ => hphdrs,
      (fun h => nomatch h), by simp, hrank, hstay⟩
  | complete => exact absurd rfl hstage

variable {heap img info} in
/-- A chunk that was asked for leads to a later stage. -/
theorem Advances.later {stage stage' : HdrStage} {phase phase' : LoadPhase}
    {info' : ElfInfo} {out : HeaderOut} (hstage : stage ≠ .complete)
    (hawaits : Awaits (info.piece stage).1 (info.piece stage).2 stage' phase' k
      info' out)
    (h : Advances heap img (info.piece stage).1 (info.piece stage).2 info stage
      phase stage' phase' info') :
    stage.rank < stage'.rank := by
  have hne : stage' ≠ stage := by
    intro heq
    subst heq
    have hlacks := (hawaits.asks hstage).1
    rw [h.stays rfl, info.lacks_piece] at hlacks
    cases hlacks
  have hle := h.rank
  cases stage <;> cases stage' <;> simp_all [HdrStage.rank]

end Stages

end OpenAmp.Remoteproc
