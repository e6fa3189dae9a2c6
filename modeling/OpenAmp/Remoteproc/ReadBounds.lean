import OpenAmp.Remoteproc.Firmware

/-!
# The bounds of the parser's reads

Every read of the ELF parser goes to the chunk at hand or to one of the
three tables. The sizes of the tables and the places in them come from
the image, and not all of them are checked. This module says of which
images the parser reads nothing else, whatever else is wrong with them.
-/

namespace OpenAmp.Remoteproc

open OpenAmp.Lib OpenAmp.Metal

/-! ## Comparing names -/

/-- How many bytes of a literal are found at `start`. -/
def matched (m : Mem) : List UInt8 → Nat → Nat
  | [], _ => 0
  | a :: rest, start => if m start = a then matched m rest (start + 1) + 1 else 0

/-- `strcmp` reads up to the first difference. -/
theorem strcmpEq_safe (b : Block) (lit : List UInt8) : ∀ start,
    (strcmpEq b lit start).Safe Access.Inside ↔
      start + matched b.bytes lit start < b.size.toNat := by
  induction lit with
  | nil =>
    intro start
    simp only [strcmpEq, Traced.safe_bind, safe_accessAt, Traced.safe_pure,
      and_true, matched]
    omega
  | cons a rest ih =>
    intro start
    rw [strcmpEq, Traced.safe_bind, safe_accessAt, val_accessAt,
      Traced.safe_ite, matched]
    have hrest := ih (start + 1)
    by_cases h : b.bytes start = a
    · simp only [h, true_implies, hrest, not_true, false_implies, and_true,
        if_true]
      omega
    · simp only [h, false_implies, not_false_iff, true_implies,
        Traced.safe_pure, and_true, if_false]
      omega

theorem strcmpEq_cons_val (b : Block) (a : UInt8) (rest : List UInt8)
    (start : Nat) : (strcmpEq b (a :: rest) start).val =
      if b.bytes start = a then (strcmpEq b rest (start + 1)).val else false := by
  rw [strcmpEq, Traced.val_bind, Traced.val_ite]
  rfl

/-- A block that agrees as far as the table goes compares the same. -/
theorem strcmpEq_congr {b b' : Block} {n : Nat}
    (hagree : ∀ i < n, b.bytes i = b'.bytes i) (lit : List UInt8) : ∀ start,
    start + matched b'.bytes lit start < n →
    matched b.bytes lit start = matched b'.bytes lit start ∧
      (strcmpEq b lit start).val = (strcmpEq b' lit start).val := by
  induction lit with
  | nil =>
    intro start h
    refine ⟨rfl, ?_⟩
    change decide (b.bytes start = 0) = decide (b'.bytes start = 0)
    rw [decide_eq_decide, hagree start (by simpa [matched] using h)]
  | cons a rest ih =>
    intro start h
    have hstart := hagree start (by omega)
    simp only [matched, strcmpEq_cons_val, hstart] at h ⊢
    by_cases heq : b'.bytes start = a
    · rw [if_pos heq] at h
      obtain ⟨h1, h2⟩ := ih (start + 1) (by omega)
      simp only [if_pos heq]
      exact ⟨by rw [h1], h2⟩
    · simp only [if_neg heq]
      exact ⟨trivial, trivial⟩

namespace Image

variable (img : Image)

/-- Comparing the name of section `i` ends inside the string table. -/
def NameInside (i : Nat) : Prop :=
  img.nameAt i + matched (img.raw img.strRange.1 img.strRange.2).bytes
    rscTableName (img.nameAt i) < img.strRange.2.toNat

variable {img}

/-- Comparing a name in a copy of the string table. -/
theorem strcmpEq_nameAt (heap : Heap) {i : Nat} (h : img.NameInside i) :
    (strcmpEq (img.block heap img.strRange.1 img.strRange.2) rscTableName
      (img.nameAt i)).Safe Access.Inside ∧
    (strcmpEq (img.block heap img.strRange.1 img.strRange.2) rscTableName
      (img.nameAt i)).val = decide (img.IsRscTable i) := by
  have hagree : ∀ j < img.strRange.2.toNat,
      (img.block heap img.strRange.1 img.strRange.2).bytes j =
        (img.raw img.strRange.1 img.strRange.2).bytes j := fun j hj => if_pos hj
  obtain ⟨h1, h2⟩ := strcmpEq_congr hagree rscTableName (img.nameAt i) h
  constructor
  · rw [strcmpEq_safe, h1]
    exact h
  · rw [h2, strcmpEq_val, decide_eq_decide, IsRscTable]
    have hread : readBytes (img.raw img.strRange.1 img.strRange.2).bytes
        (img.nameAt i) (rscTableName.length + 1) =
        readBytes img.bytes (img.strRange.1.toNat + img.nameAt i)
          (rscTableName.length + 1) := by
      refine List.map_congr_left fun j _ => ?_
      simp only [raw, Nat.add_assoc]
    rw [hread]

/-! ## Tables -/

variable (img) in
/-- The parser's reads stay where they should. The ranges in the headers
end below `2 ^ 64` and, unless they lie in the image, have a size that an
error can be told from. The headers that are read lie in their tables,
the comparisons of names end in the string table, and no segment's
address stands for no address. -/
structure ReadsOk : Prop extends RangesOk img where
  phdrs_int : img.In .phdrs ∨ 0 ≤ sizeToInt img.ehdr.phdrsSize
  shdrs_int : img.ehdr.shnum ≠ 0 →
    img.In .shdrs ∨ 0 ≤ sizeToInt img.ehdr.shdrsSize
  strtab_int : img.ehdr.shstrndx.toNat < img.ehdr.shnum.toNat →
    img.In .shdrs → img.In .shstrtab ∨ 0 ≤ sizeToInt img.strRange.2
  segments : img.In .phdrs → ∀ i < img.ehdr.phnum.toNat,
    i * phdrSize img.ehdr.is64 + segmentEnd img.ehdr.is64 ≤
      img.ehdr.phdrsSize.toNat
  sections : img.ehdr.shstrndx.toNat < img.ehdr.shnum.toNat → img.In .shdrs →
    img.In .shstrtab → ∀ i < img.ehdr.shnum.toNat,
    (∀ j < i, ¬ img.IsRscTable j) →
      i * shdrSize img.ehdr.is64 + 4 ≤ img.ehdr.shdrsSize.toNat ∧
      img.NameInside i ∧
      (img.IsRscTable i → i * shdrSize img.ehdr.is64 +
        rangeEnd img.ehdr.is64 ≤ img.ehdr.shdrsSize.toNat)
  paddr_ne : img.In .phdrs → ∀ seg ∈ img.loads, seg.paddr ≠ RPROC_LOAD_ANYADDR

/-- A copy of a part of a chunk stays in the chunk. -/
theorem copyBlock_safe {data : Mem} {offset len : UInt64}
    (hchunk : img.Chunk data offset len) (hlen : img.len < 2 ^ 64) (heap : Heap)
    {start size : UInt64} (hwrap : start.toNat + size.toNat < 2 ^ 64)
    (h : chunkLacks offset len start size = false) :
    (copyBlock heap data len (start - offset) size).Safe Access.Inside := by
  obtain ⟨hsub, hlow, hhigh⟩ := hchunk.within hlen hwrap h
  rw [copyBlock, safe_accessAt, hsub]
  omega

theorem load_safe {b : Block} {off width : Nat} (h : off + width ≤ b.size.toNat) :
    (b.load off width).Safe Access.Inside := by
  rw [Block.load, safe_accessAt]
  exact h

/-- Where a section is, is read in its header. -/
theorem elfParseSectionRange_safe {is64 : Bool} {b : Block} {i : Nat}
    (h : i * shdrSize is64 + rangeEnd is64 ≤ b.size.toNat) :
    (elfParseSectionRange is64 b i).Safe Access.Inside := by
  simp only [elfParseSectionRange, Traced.safe_bind, Traced.safe_pure, and_true]
  cases is64 with
  | true =>
    simp only [shdrSize, rangeEnd, if_true] at h
    exact ⟨load_safe (by simp [wordSize, shdrSize]; omega),
      load_safe (by simp [wordSize, shdrSize]; omega)⟩
  | false =>
    simp only [shdrSize, rangeEnd, Bool.false_eq_true, if_false] at h
    exact ⟨load_safe (by simp [wordSize, shdrSize]; omega),
      load_safe (by simp [wordSize, shdrSize]; omega)⟩

theorem elfParseSection_safe {is64 : Bool} {b : Block} {i : Nat}
    (h : i * shdrSize is64 + rangeEnd is64 ≤ b.size.toNat) :
    (elfParseSection is64 b i).Safe Access.Inside := by
  simp only [elfParseSection, Traced.safe_bind, Traced.safe_pure, and_true]
  refine ⟨load_safe ?_, elfParseSectionRange_safe h⟩
  cases is64 with
  | true =>
    simp only [shdrSize, rangeEnd, wordSize, if_true] at h ⊢
    omega
  | false =>
    simp only [shdrSize, rangeEnd, wordSize, Bool.false_eq_true, if_false] at h ⊢
    omega

/-- A segment is read in its header. -/
theorem elfParseSegment_safe {is64 : Bool} {b : Block} {i : Nat}
    (h : i * phdrSize is64 + segmentEnd is64 ≤ b.size.toNat) :
    (elfParseSegment is64 b i).Safe Access.Inside := by
  simp only [elfParseSegment, Traced.safe_bind, Traced.safe_pure, and_true]
  cases is64 with
  | true =>
    simp only [phdrSize, segmentEnd, if_true] at h
    refine ⟨load_safe ?_, load_safe ?_, load_safe ?_, load_safe ?_, load_safe ?_⟩
    all_goals
      simp only [phdrSize, wordSize, if_true]
      omega
  | false =>
    simp only [phdrSize, segmentEnd, Bool.false_eq_true, if_false] at h
    refine ⟨load_safe ?_, load_safe ?_, load_safe ?_, load_safe ?_, load_safe ?_⟩
    all_goals
      simp only [phdrSize, wordSize, Bool.false_eq_true, if_false]
      omega

/-- The search for the next loadable segment. -/
theorem nextLoadLoop_safe (is64 : Bool) (b : Block) (left : Nat) :
    ∀ (k : Nat) (last : Option ElfSegment),
    (∀ i, k ≤ i → i < k + left →
      i * phdrSize is64 + segmentEnd is64 ≤ b.size.toNat) →
    (nextLoadLoop is64 b left k last).Safe Access.Inside := by
  induction left with
  | zero => exact fun _ _ _ => Traced.safe_pure _
  | succ left ih =>
    intro k last h
    simp only [nextLoadLoop, Traced.safe_bind, Traced.safe_ite,
      Traced.safe_pure, implies_true, true_and]
    refine ⟨elfParseSegment_safe (h k (Nat.le_refl k) (by omega)), fun _ => ?_⟩
    exact ih (k + 1) _ fun i h1 h2 => h i (by omega) (by omega)

/-! ## Headers -/

section Header

variable (heap : Heap) {data : Mem} {offset len : UInt64}

theorem elfLoadShstrtab_safe (hranges : img.RangesOk)
    (hchunk : img.Chunk data offset len) (hsh : img.ehdr.shnum ≠ 0)
    (hin : img.In .shdrs) (phase : LoadPhase) (seg : Nat)
    (noffset nlen : UInt64) :
    (elfLoadShstrtab heap data offset len (img.infoAt heap .shstrtab phase seg)
      noffset nlen).Safe Access.Inside := by
  have hehdr : (img.infoAt heap .shstrtab phase seg).ehdr = img.ehdr := rfl
  unfold elfLoadShstrtab
  by_cases hndx : img.ehdr.shstrndx.toNat < img.ehdr.shnum.toNat
  · have hidx : elfGetSectionFromIndex (img.infoAt heap .shstrtab phase seg)
        img.ehdr.shstrndx.toNat =
        some (img.block heap img.ehdr.shoff img.ehdr.shdrsSize) := by
      simp [elfGetSectionFromIndex, infoAt, hsh, hndx]
    have hentry := hranges.entry hndx hin
    rw [hehdr, hidx]
    simp only [Traced.safe_bind]
    rw [strRange_block heap hentry]
    refine ⟨elfParseSectionRange_safe hentry, ?_⟩
    rw [Traced.safe_ite]
    refine ⟨fun _ => Traced.safe_pure _, fun hl => ?_⟩
    rw [Traced.safe_ite]
    refine ⟨fun _ => Traced.safe_pure _, fun _ => ?_⟩
    simp only [Traced.safe_bind, Traced.safe_pure, and_true]
    exact copyBlock_safe hchunk hranges.len_lt heap (hranges.strtab hndx hin)
      (Bool.not_eq_true _ ▸ hl)
  · have hidx : elfGetSectionFromIndex (img.infoAt heap .shstrtab phase seg)
        img.ehdr.shstrndx.toNat = none := by
      simp [elfGetSectionFromIndex, infoAt, hsh, hndx]
    rw [hehdr, hidx]
    exact Traced.safe_pure _

theorem elfLoadShdrs_safe (hranges : img.RangesOk)
    (hchunk : img.Chunk data offset len) (phase : LoadPhase) (seg : Nat)
    (noffset nlen : UInt64) :
    (elfLoadShdrs heap data offset len (img.infoAt heap .shdrs phase seg)
      noffset nlen).Safe Access.Inside := by
  have hehdr : (img.infoAt heap .shdrs phase seg).ehdr = img.ehdr := rfl
  unfold elfLoadShdrs
  rw [hehdr, Traced.safe_ite]
  refine ⟨fun _ => Traced.safe_pure _, fun hsh => ?_⟩
  rw [Traced.safe_ite]
  refine ⟨fun _ => Traced.safe_pure _, fun hl => ?_⟩
  have hl' : chunkLacks offset len img.ehdr.shoff img.ehdr.shdrsSize = false :=
    Bool.not_eq_true _ ▸ hl
  rw [Traced.safe_ite]
  refine ⟨fun _ => Traced.safe_pure _, fun _ => ?_⟩
  rw [Traced.safe_bind]
  refine ⟨copyBlock_safe hchunk hranges.len_lt heap (hranges.shdrs hsh) hl', ?_⟩
  have hinfo : ({ img.infoAt heap .shdrs phase seg with
      shdrs := some (img.block heap img.ehdr.shoff img.ehdr.shdrsSize)
      loadState := withStage (img.infoAt heap .shdrs phase seg).loadState
        ELF_STATE_WAIT_FOR_SHSTRTAB } : ElfInfo) =
      img.infoAt heap .shstrtab phase seg := by
    have hstate := withStage_pack .shdrs .shstrtab phase seg
    simp [infoAt, hsh]
    exact hstate
  rw [copyBlock_of_chunk hchunk heap hranges.len_lt (hranges.shdrs hsh) hl']
  have hin : img.In .shdrs :=
    in_of_chunk hchunk hranges.len_lt (hranges.shdrs hsh) hl'
  have hrest := elfLoadShstrtab_safe heap hranges hchunk hsh hin phase
    seg noffset nlen
  rw [← hinfo] at hrest
  exact hrest

theorem elfLoadPhdrs_safe (hranges : img.RangesOk)
    (hchunk : img.Chunk data offset len) (noffset nlen : UInt64) :
    (elfLoadPhdrs heap data offset len (img.infoAt heap .phdrs .notReady 0)
      noffset nlen).Safe Access.Inside := by
  have hehdr : (img.infoAt heap .phdrs .notReady 0).ehdr = img.ehdr := rfl
  unfold elfLoadPhdrs
  rw [hehdr, Traced.safe_ite]
  refine ⟨fun _ => Traced.safe_pure _, fun hl => ?_⟩
  have hl' : chunkLacks offset len img.ehdr.phoff img.ehdr.phdrsSize = false :=
    Bool.not_eq_true _ ▸ hl
  rw [Traced.safe_ite]
  refine ⟨fun _ => Traced.safe_pure _, fun _ => ?_⟩
  rw [Traced.safe_bind]
  refine ⟨copyBlock_safe hchunk hranges.len_lt heap hranges.phdrs hl', ?_⟩
  have hinfo : ({ img.infoAt heap .phdrs .notReady 0 with
      phdrs := some (img.block heap img.ehdr.phoff img.ehdr.phdrsSize)
      loadState := ELF_STATE_WAIT_FOR_SHDRS ||| RPROC_LOADER_READY_TO_LOAD } :
        ElfInfo) = img.infoAt heap .shdrs .ready 0 := by
    simp [infoAt, pack_first_ready]
  rw [copyBlock_of_chunk hchunk heap hranges.len_lt hranges.phdrs hl']
  have hrest := elfLoadShdrs_safe heap hranges hchunk .ready 0 noffset
    nlen
  rw [← hinfo] at hrest
  exact hrest

/-- **A call of `elf_load_header`** reads in its chunk and its tables. -/
theorem elfLoadHeader_safe (hranges : img.RangesOk)
    (hchunk : img.Chunk data offset len) {stage : HdrStage} {phase : LoadPhase}
    {seg : Nat} (hph : stage = .phdrs → phase = .notReady ∧ seg = 0)
    (hgot : img.Got stage) (noffset nlen : UInt64) :
    (elfLoadHeader heap data offset len (some (img.infoAt heap stage phase seg))
      (pack stage phase seg) noffset nlen).Safe Access.Inside := by
  have hload : (img.infoAt heap stage phase seg).loadState =
      pack stage phase seg := rfl
  unfold elfLoadHeader
  rw [if_neg (pack_ne_init stage phase seg)]
  simp only [hload, ne_eq, not_true, if_false,
    pack_eq_waitPhdrs stage phase seg hph]
  cases stage with
  | phdrs =>
    obtain ⟨rfl, rfl⟩ := hph rfl
    rw [if_pos rfl]
    exact elfLoadPhdrs_safe heap hranges hchunk noffset nlen
  | shdrs =>
    rw [if_neg (by decide), if_pos ((pack_shdrs .shdrs phase seg).mpr rfl)]
    exact elfLoadShdrs_safe heap hranges hchunk phase seg noffset nlen
  | shstrtab =>
    have hno : ¬ ¬ pack .shstrtab phase seg &&& ELF_STATE_WAIT_FOR_SHDRS = 0 :=
      fun h => absurd ((pack_shdrs .shstrtab phase seg).mp h) (by decide)
    obtain ⟨-, hsh, hin, -⟩ := hgot
    rw [if_neg (by decide), if_neg hno,
      if_pos ((pack_shstrtab .shstrtab phase seg).mpr rfl)]
    exact elfLoadShstrtab_safe heap hranges hchunk hsh hin phase seg noffset nlen
  | complete =>
    have hno : ¬ ¬ pack .complete phase seg &&& ELF_STATE_WAIT_FOR_SHDRS = 0 :=
      fun h => absurd ((pack_shdrs .complete phase seg).mp h) (by decide)
    have hno' : ¬ ¬ pack .complete phase seg &&& ELF_STATE_WAIT_FOR_SHSTRTAB = 0 :=
      fun h => absurd ((pack_shstrtab .complete phase seg).mp h) (by decide)
    rw [if_neg (by decide), if_neg hno, if_neg hno']
    exact Traced.safe_pure _

/-- The first calls, which need the class byte in the chunk. -/
theorem elfLoadHeader_first_safe (hranges : img.RangesOk)
    (hchunk : img.Chunk data 0 len) (hclass : EI_CLASS < len.toNat)
    (noffset nlen : UInt64) :
    (elfLoadHeader heap data 0 len none ELF_STATE_INIT noffset nlen).Safe
      Access.Inside := by
  have hc := elfIs64_of_chunk hchunk hclass
  unfold elfLoadHeader
  rw [if_pos rfl, Traced.safe_bind, safe_accessAt, val_accessAt, hc]
  refine ⟨hclass, ?_⟩
  rw [Traced.safe_ite]
  refine ⟨fun _ => Traced.safe_pure _, fun hlen => ?_⟩
  have hle := UInt64.le_iff_toNat_le.mp (UInt64.not_lt.mp hlen)
  rw [Traced.safe_ite]
  refine ⟨fun _ => Traced.safe_pure _, fun _ => ?_⟩
  rw [Traced.safe_bind, safe_accessAt, val_accessAt]
  refine ⟨by omega, ?_⟩
  have hinfo : (⟨img.ehdr, ELF_STATE_WAIT_FOR_PHDRS, none, none, none⟩ : ElfInfo) =
      img.infoAt heap .phdrs .notReady 0 := by
    simp [infoAt, pack_init]
  rw [ofBytes_of_chunk hchunk hle]
  have hrest := elfLoadPhdrs_safe heap hranges hchunk noffset nlen
  rw [← hinfo] at hrest
  exact hrest

end Header

/-! ## The resource table -/

/-- The loop over the sections, and what it can find. -/
theorem sectionLoop_safe (hok : img.ReadsOk) (heap : Heap)
    (hndx : img.ehdr.shstrndx.toNat < img.ehdr.shnum.toNat)
    (hin : img.In .shdrs) (hstr : img.In .shstrtab) (left : Nat) : ∀ i,
    i + left = img.ehdr.shnum.toNat → (∀ j < i, ¬ img.IsRscTable j) →
    let loop := sectionLoop img.ehdr.is64
      (img.block heap img.ehdr.shoff img.ehdr.shdrsSize)
      (img.block heap img.strRange.1 img.strRange.2) rscTableName left i
    loop.Safe Access.Inside ∧ ∀ r, loop.val = some r →
      r * shdrSize img.ehdr.is64 + rangeEnd img.ehdr.is64 ≤
        img.ehdr.shdrsSize.toNat := by
  induction left with
  | zero =>
    intro i _ _
    exact ⟨Traced.safe_pure _, fun r h => nomatch h⟩
  | succ left ih =>
    intro i hi hnone loop
    obtain ⟨hroom, hname, hfound⟩ := hok.sections hndx hin hstr i (by omega) hnone
    have hval : ((img.block heap img.ehdr.shoff img.ehdr.shdrsSize).load
        (i * shdrSize img.ehdr.is64) 4).val.toNat = img.nameAt i := by
      rw [load_block heap _ _ hroom]
      rfl
    obtain ⟨hsafe, hcmp⟩ := strcmpEq_nameAt heap hname
    simp only [loop, sectionLoop]
    rw [Traced.safe_bind, Traced.val_bind, hval, Traced.safe_bind,
      Traced.val_bind, hcmp]
    by_cases hrsc : img.IsRscTable i
    · simp only [hrsc, decide_true, if_true]
      refine ⟨⟨load_safe hroom, hsafe, Traced.safe_pure _⟩, ?_⟩
      rintro r ⟨⟩
      exact hfound hrsc
    · have hnone' : ∀ j < i + 1, ¬ img.IsRscTable j := by
        intro j hj
        rcases Nat.lt_succ_iff_lt_or_eq.mp hj with h | rfl
        · exact hnone j h
        · exact hrsc
      obtain ⟨h1, h2⟩ := ih (i + 1) (by omega) hnone'
      simp only [hrsc, decide_false, Bool.false_eq_true, if_false]
      exact ⟨⟨load_safe hroom, hsafe, h1⟩, h2⟩

/-- **A call of `elf_locate_rsc_table`** reads in its tables. -/
theorem elfLocateRscTable_safe (hok : img.ReadsOk) (heap : Heap)
    {stage : HdrStage} (hgot : img.Got stage) (phase : LoadPhase) (k : Nat)
    (da offset size : UInt64) :
    (elfLocateRscTable (some (img.infoAt heap stage phase k)) da offset
      size).Safe Access.Inside := by
  simp only [elfLocateRscTable]
  rw [Traced.safe_ite]
  refine ⟨fun _ => Traced.safe_pure _, fun hbit => ?_⟩
  have hstage : stage = .complete := by
    by_contra hne
    exact hbit ((pack_hdrsComplete stage phase k).mpr hne)
  subst hstage
  by_cases hsh : img.ehdr.shnum = 0
  · have hnone : elfGetSectionFromName (img.infoAt heap .complete phase k)
        rscTableName = pure none := by
      simp [elfGetSectionFromName, infoAt, hsh]
    rw [hnone]
    exact Traced.safe_bind.mpr ⟨Traced.safe_pure _, Traced.safe_pure _⟩
  obtain ⟨hin, hndx, hstr⟩ := hgot.2 hsh
  have hshdrs : (img.infoAt heap .complete phase k).shdrs =
      some (img.block heap img.ehdr.shoff img.ehdr.shdrsSize) :=
    if_neg (by simp [hsh])
  have hstrtab : (img.infoAt heap .complete phase k).shstrtab =
      some (img.block heap img.strRange.1 img.strRange.2) := if_pos ⟨rfl, hsh⟩
  have hehdr : (img.infoAt heap .complete phase k).ehdr = img.ehdr := rfl
  obtain ⟨hsafe, hfound⟩ := sectionLoop_safe hok heap hndx hin hstr
    img.ehdr.shnum.toNat 0 (by omega) (fun j hj => absurd hj (Nat.not_lt_zero j))
  rw [elfGetSectionFromName, hshdrs, hstrtab, hehdr]
  simp only
  rw [Traced.safe_bind]
  refine ⟨hsafe, ?_⟩
  generalize hr : (sectionLoop img.ehdr.is64
    (img.block heap img.ehdr.shoff img.ehdr.shdrsSize)
    (img.block heap img.strRange.1 img.strRange.2) rscTableName
    img.ehdr.shnum.toNat 0).val = r at hfound ⊢
  cases r with
  | none => exact Traced.safe_pure _
  | some i =>
    simp only
    rw [Traced.safe_bind]
    exact ⟨elfParseSection_safe (hfound i rfl), Traced.safe_pure _⟩

end Image

end OpenAmp.Remoteproc
