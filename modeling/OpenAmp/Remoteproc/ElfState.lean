import OpenAmp.Remoteproc.Elf

/-!
# The packed loader state

The `int` of the ELF loader holds three fields: the header stage, the
load phase and the number of the next segment. The masks of the source
take them apart and put them together again.
-/

namespace OpenAmp.Remoteproc

/-- The next header part to be read. -/
inductive HdrStage where
  | phdrs
  | shdrs
  | shstrtab
  | complete
deriving DecidableEq, Repr

inductive LoadPhase where
  | notReady
  | ready
  | post
  | complete
deriving DecidableEq, Repr

def HdrStage.bits : HdrStage → Int32
  | .phdrs => ELF_STATE_WAIT_FOR_PHDRS
  | .shdrs => ELF_STATE_WAIT_FOR_SHDRS
  | .shstrtab => ELF_STATE_WAIT_FOR_SHSTRTAB
  | .complete => ELF_STATE_HDRS_COMPLETE

def LoadPhase.bits : LoadPhase → Int32
  | .notReady => RPROC_LOADER_NOT_READY
  | .ready => RPROC_LOADER_READY_TO_LOAD
  | .post => RPROC_LOADER_POST_DATA_LOAD
  | .complete => RPROC_LOADER_LOAD_COMPLETE

/-- The packed state; the number of the next segment has eight bits. -/
def pack (stage : HdrStage) (phase : LoadPhase) (seg : Nat) : Int32 :=
  phase.bits ||| stage.bits ||| (Int32.ofNat seg &&& ELF_NEXT_SEGMENT_MASK)

theorem int32_or_and (a b m : Int32) :
    (a ||| b) &&& m = (a &&& m) ||| (b &&& m) := by
  refine Int32.toBitVec_inj.1 ?_
  ext i
  simp [Bool.and_or_distrib_right]

/-- Masks that leave the segment out see only the other two fields. -/
theorem pack_and {m : Int32} (h : ELF_NEXT_SEGMENT_MASK &&& m = 0)
    (stage : HdrStage) (phase : LoadPhase) (seg : Nat) :
    pack stage phase seg &&& m = (phase.bits ||| stage.bits) &&& m := by
  rw [pack, int32_or_and, Int32.and_assoc, h, Int32.and_zero, Int32.or_zero]

section Fields

variable (stage stage' : HdrStage) (phase phase' : LoadPhase) (seg : Nat)

theorem withStage_pack :
    withStage (pack stage phase seg) stage'.bits = pack stage' phase seg := by
  have hseg : ELF_NEXT_SEGMENT_MASK &&& ~~~ELF_STATE_MASK =
      ELF_NEXT_SEGMENT_MASK := by decide
  have hrest : (phase.bits ||| stage.bits) &&& ~~~ELF_STATE_MASK =
      phase.bits := by
    cases stage <;> cases phase <;> decide
  rw [withStage, pack, int32_or_and, hrest, Int32.and_assoc, hseg, pack,
    Int32.or_assoc, Int32.or_assoc, Int32.or_comm stage'.bits]

theorem withPhase_pack :
    withPhase (pack stage phase seg) phase'.bits = pack stage phase' seg := by
  have hseg : ELF_NEXT_SEGMENT_MASK &&& ~~~RPROC_LOADER_MASK =
      ELF_NEXT_SEGMENT_MASK := by decide
  have hrest : (phase.bits ||| stage.bits) &&& ~~~RPROC_LOADER_MASK =
      stage.bits := by
    cases stage <;> cases phase <;> decide
  rw [withPhase, pack, int32_or_and, hrest, Int32.and_assoc, hseg, pack,
    Int32.or_comm, Int32.or_assoc]

theorem withSegment_pack (n : Nat) :
    withSegment (pack stage phase seg) n = pack stage phase n := by
  have hrest : (phase.bits ||| stage.bits) &&& ~~~ELF_NEXT_SEGMENT_MASK =
      phase.bits ||| stage.bits := by
    cases stage <;> cases phase <;> decide
  rw [withSegment, pack, int32_or_and, hrest, Int32.and_assoc,
    Int32.and_not_self, Int32.and_zero, Int32.or_zero, pack]

theorem pack_segment :
    (pack stage phase seg &&& ELF_NEXT_SEGMENT_MASK).toInt.toNat = seg % 256 := by
  have hrest : (phase.bits ||| stage.bits) &&& ELF_NEXT_SEGMENT_MASK = 0 := by
    cases stage <;> cases phase <;> decide
  rw [pack, int32_or_and, hrest, Int32.and_assoc, Int32.and_self,
    Int32.or_comm, Int32.or_zero]
  have hnat : (Int32.ofNat seg &&& ELF_NEXT_SEGMENT_MASK).toBitVec.toNat =
      seg % 256 := by
    change (BitVec.ofNat 32 seg &&& 255#32).toNat = seg % 256
    rw [BitVec.toNat_and, BitVec.toNat_ofNat]
    exact (Nat.and_two_pow_sub_one_eq_mod _ 8).trans (by omega)
  have hint : (Int32.ofNat seg &&& ELF_NEXT_SEGMENT_MASK).toInt =
      ((seg % 256 : Nat) : Int) := by
    rw [← hnat]
    exact BitVec.toInt_eq_toNat_of_lt (by rw [hnat]; omega)
  rw [hint, Int.toNat_natCast]

theorem pack_nonneg : ¬ pack stage phase seg < 0 := by
  have hbit : pack stage phase seg &&& Int32.minValue = 0 := by
    rw [pack_and (by decide)]
    cases stage <;> cases phase <;> decide
  have hmsb : (pack stage phase seg).toBitVec.msb = false := by
    have h := congrArg (fun x : Int32 => x.toBitVec.msb) hbit
    have hmin : Int32.minValue.toBitVec.msb = true := by decide
    simp only [Int32.toBitVec_and, BitVec.msb_and, hmin, Bool.and_true] at h
    exact h
  rw [Int32.lt_iff_toInt_lt]
  have hint : (pack stage phase seg).toInt =
      (pack stage phase seg).toBitVec.toNat := BitVec.toInt_eq_toNat_of_msb hmsb
  rw [hint]
  simp

theorem not_neg_of_pack {ret : Int32} {stage : HdrStage} {phase : LoadPhase}
    {k : Nat} (hret : ret = pack stage phase k) : ¬ ret < 0 := by
  rw [hret]
  exact pack_nonneg _ _ _

/-! The tests of the source. -/

theorem pack_ready :
    pack stage phase seg &&& RPROC_LOADER_READY_TO_LOAD ≠ 0 ↔
      phase = .ready := by
  rw [pack_and (by decide)]
  cases stage <;> cases phase <;> decide

theorem pack_post :
    pack stage phase seg &&& RPROC_LOADER_POST_DATA_LOAD ≠ 0 ↔
      phase = .post := by
  rw [pack_and (by decide)]
  cases stage <;> cases phase <;> decide

theorem pack_notReady :
    pack stage phase seg &&& RPROC_LOADER_MASK = RPROC_LOADER_NOT_READY ↔
      phase = .notReady := by
  rw [pack_and (by decide)]
  cases stage <;> cases phase <;> decide

theorem pack_loadComplete :
    pack stage phase seg &&& RPROC_LOADER_LOAD_COMPLETE ≠ 0 ↔
      phase = .complete := by
  rw [pack_and (by decide)]
  cases stage <;> cases phase <;> decide

theorem pack_shdrs :
    pack stage phase seg &&& ELF_STATE_WAIT_FOR_SHDRS ≠ 0 ↔
      stage = .shdrs := by
  rw [pack_and (by decide)]
  cases stage <;> cases phase <;> decide

theorem pack_shstrtab :
    pack stage phase seg &&& ELF_STATE_WAIT_FOR_SHSTRTAB ≠ 0 ↔
      stage = .shstrtab := by
  rw [pack_and (by decide)]
  cases stage <;> cases phase <;> decide

theorem pack_hdrsComplete :
    pack stage phase seg &&& ELF_STATE_HDRS_COMPLETE = 0 ↔
      stage ≠ .complete := by
  rw [pack_and (by decide)]
  cases stage <;> cases phase <;> decide

theorem pack_ne_init : pack stage phase seg ≠ ELF_STATE_INIT := by
  intro heq
  have h := congrArg (· &&& ELF_STATE_MASK) heq
  simp only [pack_and (show ELF_NEXT_SEGMENT_MASK &&& ELF_STATE_MASK = 0 by decide)] at h
  revert h
  cases stage <;> cases phase <;> decide

/-- Only the first stage, before anything is loaded, is the bare constant. -/
theorem pack_eq_waitPhdrs (hphase : stage = .phdrs → phase = .notReady ∧ seg = 0) :
    pack stage phase seg = ELF_STATE_WAIT_FOR_PHDRS ↔ stage = .phdrs := by
  constructor
  · intro heq
    have h := congrArg (· &&& ELF_STATE_MASK) heq
    simp only [pack_and (show ELF_NEXT_SEGMENT_MASK &&& ELF_STATE_MASK = 0 by decide)] at h
    revert h
    cases stage <;> cases phase <;> decide
  · intro hst
    obtain ⟨rfl, rfl⟩ := hphase hst
    subst hst
    decide

end Fields

theorem pack_init : ELF_STATE_WAIT_FOR_PHDRS = pack .phdrs .notReady 0 := by
  decide

theorem pack_first_ready :
    ELF_STATE_WAIT_FOR_SHDRS ||| RPROC_LOADER_READY_TO_LOAD =
      pack .shdrs .ready 0 := by
  decide

end OpenAmp.Remoteproc
