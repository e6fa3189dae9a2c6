import OpenAmp.Remoteproc.ElfState

/-!
# Going through the program headers

`elf_load` hands out the loadable segments of the program header table
one after another. The number of the next header is part of the packed
state, in eight bits; the last header, if it is loadable, ends the data
phase in another way than a header behind it that is not.
-/

namespace OpenAmp.Remoteproc

open OpenAmp.Lib OpenAmp.Metal

/-- The end of the fields of a program header that the loader reads. -/
def segmentEnd (is64 : Bool) : Nat := if is64 then 48 else 24

/-- A table with room for whole headers has room for their fields. -/
theorem segmentEnd_le {is64 : Bool} {n size : Nat}
    (h : n * phdrSize is64 ≤ size) :
    ∀ i < n, i * phdrSize is64 + segmentEnd is64 ≤ size := by
  intro i hi
  have hroom := Nat.le_trans (Nat.mul_le_mul_right (phdrSize is64)
    (Nat.succ_le_of_lt hi)) h
  have hend : segmentEnd is64 ≤ phdrSize is64 := by cases is64 <;> decide
  rw [Nat.succ_mul] at hroom
  omega

/-- Program header `i` of a table. -/
def Block.segmentAt (is64 : Bool) (phdrs : Block) (i : Nat) : ElfSegment :=
  (elfParseSegment is64 phdrs i).val

def ElfSegment.IsLoad (seg : ElfSegment) : Prop := seg.type.toNat = PT_LOAD

instance (seg : ElfSegment) : Decidable seg.IsLoad :=
  inferInstanceAs (Decidable (_ = _))

/-- The loadable segments from header `k` on, out of `n`. -/
def loadsFrom (f : Nat → ElfSegment) (n k : Nat) : List ElfSegment :=
  ((List.range' k (n - k)).map f).filter fun seg => seg.IsLoad

section Loads

variable {f : Nat → ElfSegment} {n k : Nat}

theorem loadsFrom_end (h : n ≤ k) : loadsFrom f n k = [] := by
  rw [loadsFrom, Nat.sub_eq_zero_of_le h]
  rfl

theorem loadsFrom_succ (h : k < n) :
    loadsFrom f n k = if (f k).IsLoad then f k :: loadsFrom f n (k + 1)
      else loadsFrom f n (k + 1) := by
  have hsub : n - k = (n - (k + 1)) + 1 := by omega
  rw [loadsFrom, hsub, List.range'_succ, List.map_cons, List.filter_cons]
  simp only [decide_eq_true_eq]
  rfl

end Loads

/-- What the search for the next loadable header comes to: it finds
header `j`, or it runs past the last one. -/
theorem nextLoadLoop_val (is64 : Bool) (phdrs : Block) (left : Nat) :
    ∀ (k : Nat) (last : Option ElfSegment),
    let f := phdrs.segmentAt is64
    (∃ j, k ≤ j ∧ j < k + left ∧ (f j).IsLoad ∧
      loadsFrom f (k + left) k = f j :: loadsFrom f (k + left) (j + 1) ∧
      (nextLoadLoop is64 phdrs left k last).val = ⟨true, j + 1, some (f j)⟩) ∨
    (loadsFrom f (k + left) k = [] ∧
      ∃ seg, (nextLoadLoop is64 phdrs left k last).val =
        ⟨false, k + left, seg⟩) := by
  induction left with
  | zero =>
    intro k last f
    exact .inr ⟨loadsFrom_end (Nat.le_refl _), last, rfl⟩
  | succ left ih =>
    intro k last f
    have hstep := loadsFrom_succ (f := f) (n := k + (left + 1)) (k := k)
      (by omega)
    have hassoc : k + 1 + left = k + (left + 1) := by omega
    by_cases hload : (f k).IsLoad
    · rw [if_pos hload] at hstep
      refine .inl ⟨k, Nat.le_refl k, by omega, hload, hstep, ?_⟩
      simp only [nextLoadLoop, Traced.val_bind, Traced.val_ite]
      exact if_pos hload
    · rw [if_neg hload] at hstep
      have hval : (nextLoadLoop is64 phdrs (left + 1) k last).val =
          (nextLoadLoop is64 phdrs left (k + 1) (some (f k))).val := by
        simp only [nextLoadLoop, Traced.val_bind, Traced.val_ite]
        exact if_neg hload
      rw [hstep, hval]
      have hrest := ih (k + 1) (some (f k))
      simp only [hassoc] at hrest
      rcases hrest with ⟨j, h1, h2, h3, h4, h5⟩ | hnone
      · exact .inl ⟨j, by omega, h2, h3, h4, h5⟩
      · exact .inr hnone

/-- **One call of `elf_load` in the data phase**: the next loadable segment
from header `k` on is handed out, or there is none. -/
theorem elfLoadSegment_val {info : ElfInfo} {phdrs : Block}
    (hphdrs : info.phdrs = some phdrs) {stage : HdrStage} {k : Nat}
    (hstate : info.loadState = pack stage .ready k)
    (hk : k % 256 ≤ info.ehdr.phnum.toNat) (da noffset nlen nmemsize : UInt64) :
    let n := info.ehdr.phnum.toNat
    let f := phdrs.segmentAt info.ehdr.is64
    (∃ j, k % 256 ≤ j ∧ j < n ∧ (f j).IsLoad ∧
      loadsFrom f n (k % 256) = f j :: loadsFrom f n (j + 1) ∧
      let state := pack stage (if j + 1 = n then .post else .ready) (j + 1)
      (elfLoadSegment info da noffset nlen nmemsize).val =
        ⟨state, some { info with loadState := state }, (f j).paddr,
          (f j).offset, (f j).filesz, 0, (f j).memsz⟩) ∨
    (loadsFrom f n (k % 256) = [] ∧
      let state := pack stage .complete n
      ∃ noffset', (elfLoadSegment info da noffset nlen nmemsize).val =
        ⟨state, some { info with loadState := state }, RPROC_LOAD_ANYADDR,
          noffset', nlen, 0, nmemsize⟩) := by
  intro n f
  have hnseg : (info.loadState &&& ELF_NEXT_SEGMENT_MASK).toInt.toNat =
      k % 256 := by
    rw [hstate, pack_segment]
  have hsum : k % 256 + (n - k % 256) = n := Nat.add_sub_cancel' hk
  have hsearch : elfNextLoadSegment info
      (info.loadState &&& ELF_NEXT_SEGMENT_MASK).toInt.toNat =
      nextLoadLoop info.ehdr.is64 phdrs (n - k % 256) (k % 256) none := by
    simp only [elfNextLoadSegment, hphdrs, hnseg]
    rfl
  have hnext := nextLoadLoop_val info.ehdr.is64 phdrs (n - k % 256) (k % 256) none
  simp only [hsum] at hnext
  rw [← hsearch] at hnext
  simp only [elfLoadSegment, Traced.val_bind, Traced.val_pure]
  rcases hnext with ⟨j, h1, h2, h3, h4, h5⟩ | ⟨h1, seg, h2⟩
  · refine .inl ⟨j, h1, h2, h3, h4, ?_⟩
    rw [h5]
    simp only [if_true, Option.elim_some]
    by_cases hlast : j + 1 = n
    · have hphase : withPhase info.loadState RPROC_LOADER_POST_DATA_LOAD =
          pack stage .post k := by
        rw [hstate]
        exact withPhase_pack stage .ready .post k
      rw [if_pos hlast, if_pos hlast, hphase, withSegment_pack]
    · rw [if_neg hlast, if_neg hlast, hstate, withSegment_pack]
  · refine .inr ⟨h1, seg.elim noffset (·.offset), ?_⟩
    have hphase : withPhase info.loadState RPROC_LOADER_LOAD_COMPLETE =
        pack stage .complete k := by
      rw [hstate]
      exact withPhase_pack stage .ready .complete k
    rw [h2]
    simp only [Bool.false_eq_true, if_false]
    rw [if_pos rfl, hphase, withSegment_pack]

/-! ## The phases of `elf_load` -/

section Phases

variable (heap : Heap) (img : Mem) (offset len : UInt64) {info : ElfInfo}
  {stage : HdrStage} {k : Nat} (da noffset nlen : UInt64) (padding : UInt8)
  (nmemsize : UInt64)

theorem elfLoad_ready (hstate : info.loadState = pack stage .ready k) :
    elfLoad heap img offset len (some info) (pack stage .ready k) da noffset
      nlen padding nmemsize =
      elfLoadSegment info da noffset nlen nmemsize := by
  have hnot : ¬ pack stage .ready k &&& RPROC_LOADER_MASK =
      RPROC_LOADER_NOT_READY :=
    fun h => absurd ((pack_notReady stage .ready k).mp h) (by decide)
  rw [elfLoad, if_neg hnot, elfLoadReady, hstate,
    if_pos ((pack_ready stage .ready k).mpr rfl)]

theorem elfLoad_post (hstate : info.loadState = pack stage .post k) :
    elfLoad heap img offset len (some info) (pack stage .post k) da noffset
      nlen padding nmemsize =
      elfLoadPost heap img offset len info (pack stage .post k) da noffset nlen
        nmemsize := by
  have hnot : ¬ pack stage .post k &&& RPROC_LOADER_MASK =
      RPROC_LOADER_NOT_READY :=
    fun h => absurd ((pack_notReady stage .post k).mp h) (by decide)
  have hready : ¬ pack stage .post k &&& RPROC_LOADER_READY_TO_LOAD ≠ 0 :=
    fun h => absurd ((pack_ready stage .post k).mp h) (by decide)
  rw [elfLoad, if_neg hnot, elfLoadReady, hstate, if_neg hready,
    if_pos ((pack_post stage .post k).mpr rfl)]

end Phases

end OpenAmp.Remoteproc
