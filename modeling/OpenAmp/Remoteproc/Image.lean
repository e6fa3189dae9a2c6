import OpenAmp.Remoteproc.ElfState
import OpenAmp.Remoteproc.Load

/-!
# Firmware images

What a firmware image says by itself: its header, its tables and its
string table, and what the loader knows of them at each header stage
when it is fed chunks of the image. A store serves an image when it
answers every request inside it with the bytes of the image.
-/

namespace OpenAmp.Remoteproc

open OpenAmp.Lib OpenAmp.Metal

/-- A firmware image. -/
structure Image where
  bytes : Mem
  len : Nat

namespace Image

variable (img : Image)

def ehdr : ElfEhdr := ElfEhdr.ofBytes img.bytes

/-- The bytes from `start` on, as a block. -/
def raw (start size : UInt64) : Block where
  size := size
  bytes i := img.bytes (start.toNat + i)

/-- Program header `i`. -/
def segmentAt (i : Nat) : ElfSegment :=
  (elfParseSegment img.ehdr.is64 (img.raw img.ehdr.phoff img.ehdr.phdrsSize)
    i).val

/-- All program headers, in their order. -/
def segments : List ElfSegment :=
  (List.range img.ehdr.phnum.toNat).map img.segmentAt

/-- The program headers of loadable segments. -/
def loads : List ElfSegment :=
  img.segments.filter fun seg => seg.type.toNat = PT_LOAD

/-- Section header `i`. -/
def sectionAt (i : Nat) : ElfSection :=
  (elfParseSection img.ehdr.is64 (img.raw img.ehdr.shoff img.ehdr.shdrsSize)
    i).val

/-- Offset and size of the section with the names of the sections. -/
def strRange : UInt64 × UInt64 :=
  (elfParseSectionRange img.ehdr.is64
    (img.raw img.ehdr.shoff img.ehdr.shdrsSize) img.ehdr.shstrndx.toNat).val

/-- What the loader needs in a header stage. -/
def piece : HdrStage → UInt64 × UInt64
  | .phdrs => (img.ehdr.phoff, img.ehdr.phdrsSize)
  | .shdrs => (img.ehdr.shoff, img.ehdr.shdrsSize)
  | .shstrtab => img.strRange
  | .complete => (0, 0)

/-- The data has the bytes of the image from `offset` on. -/
structure Chunk (data : Mem) (offset len : UInt64) : Prop where
  inside : offset.toNat + len.toNat ≤ img.len
  bytes : ∀ i < len.toNat, data i = img.bytes (offset.toNat + i)

/-- A block copied from the image. -/
def block (heap : Heap) (start size : UInt64) : Block where
  size := size
  bytes i := if i < size.toNat then img.bytes (start.toNat + i)
    else heap.beyond i

end Image

/-- A range that the chunk does not lack lies in it. -/
theorem Image.Chunk.within {img : Image} {data : Mem} {offset len : UInt64}
    (hchunk : img.Chunk data offset len) {start size : UInt64}
    (hlen : img.len < 2 ^ 64) (hwrap : start.toNat + size.toNat < 2 ^ 64)
    (h : chunkLacks offset len start size = false) :
    (start - offset).toNat = start.toNat - offset.toNat ∧
      offset.toNat ≤ start.toNat ∧
      start.toNat + size.toNat ≤ offset.toNat + len.toNat := by
  have hin := hchunk.inside
  simp only [chunkLacks, decide_eq_false_iff_not, not_or, UInt64.not_lt,
    UInt64.le_iff_toNat_le, UInt64.toNat_add] at h
  rw [Nat.mod_eq_of_lt hwrap, Nat.mod_eq_of_lt (by omega)] at h
  exact ⟨UInt64.toNat_sub_of_le _ _ (UInt64.le_iff_toNat_le.mpr h.1), h.1, h.2⟩

/-- A copy of a part of a chunk is a copy of the image. -/
theorem copyBlock_of_chunk {img : Image} {data : Mem} {offset len : UInt64}
    (hchunk : img.Chunk data offset len) (heap : Heap) {start size : UInt64}
    (hlen : img.len < 2 ^ 64) (hwrap : start.toNat + size.toNat < 2 ^ 64)
    (h : chunkLacks offset len start size = false) :
    (copyBlock heap data len (start - offset) size).val =
      img.block heap start size := by
  obtain ⟨hsub, hlow, hhigh⟩ := hchunk.within hlen hwrap h
  simp only [copyBlock, val_accessAt, Image.block, Block.mk.injEq, true_and]
  funext i
  split
  · rw [hsub, hchunk.bytes _ (by omega)]
    congr 1
    omega
  · rfl

/-! ## Stores -/

/-- The store has the image: a request inside it is answered with the
bytes, in local memory or at the physical address given. -/
structure Serves (store : ImageStoreOps) (img : Image) : Prop where
  ret : ∀ n (offset size : UInt64) pa target,
    offset.toNat + size.toNat ≤ img.len →
    (store.load n offset size pa target).ret = sizeToInt size
  data : ∀ n (offset size : UInt64) target,
    offset.toNat + size.toNat ≤ img.len →
    ∃ data, (store.load n offset size none target).data = some data ∧
      ∀ i < size.toNat, data i = img.bytes (offset.toNat + i)
  target : ∀ n (offset size pa : UInt64) target,
    offset.toNat + size.toNat ≤ img.len →
    (store.load n offset size (some pa) target).target =
      writeBytes target pa.toNat (readBytes img.bytes offset.toNat size.toNat)

/-- A store that has the image, opens it with its first bytes and fails a
request that leaves it. -/
def Image.store (img : Image) (first : Int32) (seek : Bool) : ImageStoreOps where
  openImg := (first, img.bytes)
  load _ offset size pa target :=
    if offset.toNat + size.toNat ≤ img.len then
      { ret := sizeToInt size
        data := some fun i => img.bytes (offset.toNat + i)
        target := pa.elim target fun pa => writeBytes target pa.toNat
          (readBytes img.bytes offset.toNat size.toNat) }
    else ⟨-1, none, target⟩
  seek := seek

theorem Image.serves_store (img : Image) (first : Int32) (seek : Bool) :
    Serves (img.store first seek) img where
  ret := by
    intro n offset size pa target h
    simp only [Image.store, if_pos h]
  data := by
    intro n offset size target h
    refine ⟨fun i => img.bytes (offset.toNat + i), ?_, fun i _ => rfl⟩
    simp only [Image.store, if_pos h]
  target := by
    intro n offset size pa target h
    simp only [Image.store, if_pos h, Option.elim_some]

/-! ## Small ELF32 images -/

/-- An ELF32 header with its program headers right behind it. -/
def elf32Ehdr (phnum shoff shnum shstrndx : Nat) : List UInt8 :=
  ELFMAG ++ [1, 1, 1, 0] ++ leBytes 8 0 ++ leBytes 2 2 ++ leBytes 2 40 ++
    leBytes 4 1 ++ leBytes 4 0x1000 ++ leBytes 4 52 ++ leBytes 4 shoff ++
    leBytes 4 0 ++ leBytes 2 52 ++ leBytes 2 32 ++ leBytes 2 phnum ++
    leBytes 2 40 ++ leBytes 2 shnum ++ leBytes 2 shstrndx

def elf32Phdr (type offset paddr filesz memsz : Nat) : List UInt8 :=
  leBytes 4 type ++ leBytes 4 offset ++ leBytes 4 paddr ++ leBytes 4 paddr ++
    leBytes 4 filesz ++ leBytes 4 memsz ++ leBytes 4 7 ++ leBytes 4 4

def elf32Shdr (name type addr offset size : Nat) : List UInt8 :=
  leBytes 4 name ++ leBytes 4 type ++ leBytes 4 0 ++ leBytes 4 addr ++
    leBytes 4 offset ++ leBytes 4 size ++ leBytes 4 0 ++ leBytes 4 0 ++
    leBytes 4 1 ++ leBytes 4 0

def Image.ofBytes (bs : List UInt8) : Image where
  bytes i := bs.getD i 0
  len := bs.length

/-! ## Header stages -/

namespace Image

variable (img : Image)

/-- What the stage needs lies in the image. -/
def In (stage : HdrStage) : Prop :=
  (img.piece stage).1.toNat + (img.piece stage).2.toNat ≤ img.len

/-- The end of the fields of a section header that say where the section
is. -/
def rangeEnd (is64 : Bool) : Nat := if is64 then 40 else 24

/-- The ranges that the headers give end below `2 ^ 64`, and the section
with the names, if it is one of the sections, has its header in the
table. -/
structure RangesOk : Prop where
  len_lt : img.len < 2 ^ 64
  phdrs : img.ehdr.phoff.toNat + img.ehdr.phdrsSize.toNat < 2 ^ 64
  shdrs : img.ehdr.shnum ≠ 0 →
    img.ehdr.shoff.toNat + img.ehdr.shdrsSize.toNat < 2 ^ 64
  entry : img.ehdr.shstrndx.toNat < img.ehdr.shnum.toNat → img.In .shdrs →
    img.ehdr.shstrndx.toNat * shdrSize img.ehdr.is64 + rangeEnd img.ehdr.is64 ≤
      img.ehdr.shdrsSize.toNat
  strtab : img.ehdr.shstrndx.toNat < img.ehdr.shnum.toNat → img.In .shdrs →
    img.strRange.1.toNat + img.strRange.2.toNat < 2 ^ 64

/-- What must lie in the image for the loader to come to a stage. -/
def Got : HdrStage → Prop
  | .phdrs => True
  | .shdrs => img.In .phdrs
  | .shstrtab => img.In .phdrs ∧ img.ehdr.shnum ≠ 0 ∧ img.In .shdrs ∧
    img.ehdr.shstrndx.toNat < img.ehdr.shnum.toNat
  | .complete => img.In .phdrs ∧ (img.ehdr.shnum ≠ 0 → img.In .shdrs ∧
    img.ehdr.shstrndx.toNat < img.ehdr.shnum.toNat ∧ img.In .shstrtab)

/-- Besides, the section with the names is one of the sections, and the
tables are there. -/
structure Sound : Prop extends RangesOk img where
  shstrndx : img.ehdr.shnum ≠ 0 → img.ehdr.shstrndx.toNat < img.ehdr.shnum.toNat
  phdrs_in : img.In .phdrs
  shdrs_in : img.ehdr.shnum ≠ 0 → img.In .shdrs

/-- There is a reason for `elf_load_header` to fail: memory can run out,
or the section with the names is none of the sections. -/
def CanFail (heap : Heap) : Prop :=
  (∃ size, heap.alloc size = false) ∨
    img.ehdr.shnum ≠ 0 ∧ img.ehdr.shnum.toNat ≤ img.ehdr.shstrndx.toNat

/-- What the loader knows of the image in a header stage. -/
def infoAt (heap : Heap) (stage : HdrStage) (phase : LoadPhase) (seg : Nat) :
    ElfInfo where
  ehdr := img.ehdr
  loadState := pack stage phase seg
  phdrs := if stage = .phdrs then none
    else some (img.block heap img.ehdr.phoff img.ehdr.phdrsSize)
  shdrs := if stage = .phdrs ∨ stage = .shdrs ∨ img.ehdr.shnum = 0 then none
    else some (img.block heap img.ehdr.shoff img.ehdr.shdrsSize)
  shstrtab := if stage = .complete ∧ img.ehdr.shnum ≠ 0 then
      some (img.block heap img.strRange.1 img.strRange.2)
    else none

/-- The chunk lacks what the stage needs. -/
def lacks (offset len : UInt64) (stage : HdrStage) : Bool :=
  chunkLacks offset len (img.piece stage).1 (img.piece stage).2

/-- The stage a chunk leads to from the string table on. -/
def fromShstrtab (offset len : UInt64) : HdrStage :=
  if img.lacks offset len .shstrtab then .shstrtab else .complete

/-- The stage a chunk leads to from the section headers on. -/
def fromShdrs (offset len : UInt64) : HdrStage :=
  if img.ehdr.shnum = 0 then .complete
  else if img.lacks offset len .shdrs then .shdrs
  else img.fromShstrtab offset len

/-- The stage a chunk leads to from a stage. -/
def advance (offset len : UInt64) : HdrStage → HdrStage
  | .phdrs =>
    if img.lacks offset len .phdrs then .phdrs else img.fromShdrs offset len
  | .shdrs => img.fromShdrs offset len
  | .shstrtab => img.fromShstrtab offset len
  | .complete => .complete

/-- The phase a chunk leads to: data can be loaded once the program
headers are there. -/
def phaseAfter (offset len : UInt64) (stage : HdrStage) (phase : LoadPhase) :
    LoadPhase :=
  if stage = .phdrs ∧ img.lacks offset len .phdrs = false then .ready else phase

/-- What `elf_load_header` delivers in a stage. -/
def headerOut (heap : Heap) (stage : HdrStage) (phase : LoadPhase) (seg : Nat)
    (noffset : UInt64) : HeaderOut where
  ret := pack stage phase seg
  info := some (img.infoAt heap stage phase seg)
  noffset := if stage = .complete then noffset else (img.piece stage).1
  nlen := (img.piece stage).2

variable {img}

/-- A word of a copy inside the copied range. -/
theorem load_block (heap : Heap) (start size : UInt64) {off width : Nat}
    (h : off + width ≤ size.toNat) :
    ((img.block heap start size).load off width).val =
      ((img.raw start size).load off width).val := by
  have hagree : Agree (img.raw start size).bytes (img.block heap start size).bytes
      off width := fun i _ hi => if_pos (by omega)
  simp only [Block.load, val_accessAt, loadLE_congr hagree]

/-- The names' section is read the same from a copy of the table. -/
theorem strRange_block (heap : Heap)
    (hentry : img.ehdr.shstrndx.toNat * shdrSize img.ehdr.is64 +
      rangeEnd img.ehdr.is64 ≤ img.ehdr.shdrsSize.toNat) :
    (elfParseSectionRange img.ehdr.is64
      (img.block heap img.ehdr.shoff img.ehdr.shdrsSize)
      img.ehdr.shstrndx.toNat).val = img.strRange := by
  simp only [strRange, elfParseSectionRange, Traced.val_bind, Traced.val_pure]
  cases hc : img.ehdr.is64 with
  | true =>
    simp only [hc, shdrSize, rangeEnd, if_true] at hentry
    rw [load_block heap _ _ (by simp only [wordSize, shdrSize, if_true]; omega),
      load_block heap _ _ (by simp only [wordSize, shdrSize, if_true]; omega)]
  | false =>
    simp only [hc, shdrSize, rangeEnd, Bool.false_eq_true, if_false] at hentry
    rw [load_block heap _ _ (by simp [wordSize, shdrSize]; omega),
      load_block heap _ _ (by simp [wordSize, shdrSize]; omega)]

/-- A chunk that does not lack what a stage needs has it, and so has the
image. -/
theorem in_of_chunk {data : Mem} {offset len : UInt64}
    (hchunk : img.Chunk data offset len) (hlen : img.len < 2 ^ 64)
    {stage : HdrStage} (hwrap : (img.piece stage).1.toNat +
      (img.piece stage).2.toNat < 2 ^ 64)
    (h : img.lacks offset len stage = false) : img.In stage := by
  have hin := hchunk.inside
  simp only [lacks, chunkLacks, decide_eq_false_iff_not, not_or, UInt64.not_lt,
    UInt64.le_iff_toNat_le, UInt64.toNat_add] at h
  rw [Nat.mod_eq_of_lt hwrap, Nat.mod_eq_of_lt (by omega)] at h
  simp only [In]
  omega

section Answers

variable {heap : Heap} {data : Mem} {offset len : UInt64}

/-- An answer that moves the image on to a stage, or an error for which
there is a reason. -/
def Answers (heap : Heap) (next : HdrStage) (phase : LoadPhase) (seg : Nat)
    (noffset : UInt64) (out : HeaderOut) : Prop :=
  out = img.headerOut heap next phase seg noffset ∧ img.Got next ∨
    out.ret < 0 ∧ img.CanFail heap

/-- Stage by stage: the string table. -/
theorem elfLoadShstrtab_answer (hranges : img.RangesOk)
    (hchunk : img.Chunk data offset len) (hph : img.In .phdrs)
    (hsh : img.ehdr.shnum ≠ 0) (hin : img.In .shdrs) (phase : LoadPhase)
    (seg : Nat) (noffset nlen : UInt64) :
    img.Answers heap (img.fromShstrtab offset len) phase seg noffset
      (elfLoadShstrtab heap data offset len (img.infoAt heap .shstrtab phase seg)
        noffset nlen).val := by
  have hehdr : (img.infoAt heap .shstrtab phase seg).ehdr = img.ehdr := rfl
  unfold elfLoadShstrtab Answers
  by_cases hndx : img.ehdr.shstrndx.toNat < img.ehdr.shnum.toNat
  · have hidx : elfGetSectionFromIndex (img.infoAt heap .shstrtab phase seg)
        img.ehdr.shstrndx.toNat =
        some (img.block heap img.ehdr.shoff img.ehdr.shdrsSize) := by
      simp [elfGetSectionFromIndex, infoAt, hsh, hndx]
    rw [hehdr, hidx]
    simp only [Traced.val_bind, Traced.val_ite]
    rw [strRange_block heap (hranges.entry hndx hin), fromShstrtab]
    cases hl : img.lacks offset len .shstrtab with
    | true =>
      have hl' : chunkLacks offset len img.strRange.1 img.strRange.2 = true := hl
      refine .inl ⟨?_, hph, hsh, hin, hndx⟩
      simp [headerOut, piece, hl', infoAt]
    | false =>
      have hl' : chunkLacks offset len img.strRange.1 img.strRange.2 = false := hl
      have hstr : img.In .shstrtab :=
        in_of_chunk hchunk hranges.len_lt (hranges.strtab hndx hin) hl
      by_cases halloc : heap.alloc img.strRange.2 = false
      · right
        simp only [hl', Bool.false_eq_true, if_false, halloc, if_true]
        exact ⟨neg_enomem, .inl ⟨_, halloc⟩⟩
      · refine .inl ⟨?_, hph, fun _ => ⟨hin, hndx, hstr⟩⟩
        have hcopy := copyBlock_of_chunk hchunk heap hranges.len_lt
          (hranges.strtab hndx hin) hl'
        have hstate := withStage_pack .shstrtab .complete phase seg
        simp [headerOut, piece, hl', infoAt, hcopy, hsh, halloc]
        exact hstate
  · -- the index of the string table is out of range
    have hidx : elfGetSectionFromIndex (img.infoAt heap .shstrtab phase seg)
        img.ehdr.shstrndx.toNat = none := by
      simp [elfGetSectionFromIndex, infoAt, hsh, hndx]
    rw [hehdr, hidx]
    exact .inr ⟨neg_einval, .inr ⟨hsh, Nat.not_lt.mp hndx⟩⟩

/-- The section headers, and what follows. -/
theorem elfLoadShdrs_answer (hranges : img.RangesOk)
    (hchunk : img.Chunk data offset len) (hph : img.In .phdrs)
    (phase : LoadPhase) (seg : Nat) (noffset nlen : UInt64) :
    img.Answers heap (img.fromShdrs offset len) phase seg noffset
      (elfLoadShdrs heap data offset len (img.infoAt heap .shdrs phase seg)
        noffset nlen).val := by
  have hehdr : (img.infoAt heap .shdrs phase seg).ehdr = img.ehdr := rfl
  unfold elfLoadShdrs
  rw [hehdr, fromShdrs]
  simp only [Traced.val_ite, Traced.val_bind]
  by_cases hsh : img.ehdr.shnum = 0
  · -- an image without sections is complete at once
    have hstate := withStage_pack .shdrs .complete phase seg
    rw [if_pos hsh, if_pos hsh]
    refine .inl ⟨?_, hph, fun h => absurd hsh h⟩
    simp [hsh, headerOut, piece, infoAt]
    exact hstate
  rw [if_neg hsh, if_neg hsh]
  cases hl : img.lacks offset len .shdrs with
  | true =>
    have hl' : chunkLacks offset len img.ehdr.shoff img.ehdr.shdrsSize = true :=
      hl
    refine .inl ⟨?_, hph⟩
    simp [headerOut, hl', piece, infoAt]
  | false =>
    have hl' : chunkLacks offset len img.ehdr.shoff img.ehdr.shdrsSize = false :=
      hl
    by_cases halloc : heap.alloc img.ehdr.shdrsSize = false
    · right
      simp only [hl', Bool.false_eq_true, if_false, halloc, if_true]
      exact ⟨neg_enomem, .inl ⟨_, halloc⟩⟩
    · have hcopy := copyBlock_of_chunk hchunk heap hranges.len_lt
        (hranges.shdrs hsh) hl'
      have hstate := withStage_pack .shdrs .shstrtab phase seg
      -- the state falls through to the string table in the same call
      have hinfo : (⟨img.ehdr,
          withStage (img.infoAt heap .shdrs phase seg).loadState
            ELF_STATE_WAIT_FOR_SHSTRTAB,
          (img.infoAt heap .shdrs phase seg).phdrs,
          some (img.block heap img.ehdr.shoff img.ehdr.shdrsSize),
          (img.infoAt heap .shdrs phase seg).shstrtab⟩ : ElfInfo) =
          img.infoAt heap .shstrtab phase seg := by
        simp [infoAt, hsh]
        exact hstate
      have hin : img.In .shdrs :=
        in_of_chunk hchunk hranges.len_lt (hranges.shdrs hsh) hl
      rw [hl', if_neg (by decide), if_neg halloc, hcopy, hinfo,
        if_neg (by decide)]
      exact elfLoadShstrtab_answer hranges hchunk hph hsh hin phase seg noffset
        nlen

/-- The program headers, and what follows. -/
theorem elfLoadPhdrs_answer (hranges : img.RangesOk)
    (hchunk : img.Chunk data offset len) (noffset nlen : UInt64) :
    img.Answers heap (img.advance offset len .phdrs)
      (img.phaseAfter offset len .phdrs .notReady) 0 noffset
      (elfLoadPhdrs heap data offset len (img.infoAt heap .phdrs .notReady 0)
        noffset nlen).val := by
  have hehdr : (img.infoAt heap .phdrs .notReady 0).ehdr = img.ehdr := rfl
  unfold elfLoadPhdrs
  rw [hehdr, advance, phaseAfter]
  simp only [Traced.val_ite, Traced.val_bind]
  cases hl : img.lacks offset len .phdrs with
  | true =>
    have hl' : chunkLacks offset len img.ehdr.phoff img.ehdr.phdrsSize = true :=
      hl
    refine .inl ⟨?_, trivial⟩
    simp [headerOut, hl', piece, infoAt]
  | false =>
    have hl' : chunkLacks offset len img.ehdr.phoff img.ehdr.phdrsSize = false :=
      hl
    by_cases halloc : heap.alloc img.ehdr.phdrsSize = false
    · right
      simp only [hl', Bool.false_eq_true, if_false, halloc, if_true]
      exact ⟨neg_enomem, .inl ⟨_, halloc⟩⟩
    · have hcopy := copyBlock_of_chunk hchunk heap hranges.len_lt hranges.phdrs
        hl'
      have hinfo : (⟨img.ehdr,
          ELF_STATE_WAIT_FOR_SHDRS ||| RPROC_LOADER_READY_TO_LOAD,
          some (img.block heap img.ehdr.phoff img.ehdr.phdrsSize),
          (img.infoAt heap .phdrs .notReady 0).shdrs,
          (img.infoAt heap .phdrs .notReady 0).shstrtab⟩ : ElfInfo) =
          img.infoAt heap .shdrs .ready 0 := by
        simp [infoAt, pack_first_ready]
      have hin : img.In .phdrs :=
        in_of_chunk hchunk hranges.len_lt hranges.phdrs hl
      rw [hl', if_neg (by decide), if_pos ⟨trivial, rfl⟩, if_neg (by decide),
        if_neg halloc, hcopy, hinfo]
      exact elfLoadShdrs_answer hranges hchunk hin .ready 0 noffset nlen

/-- **One call of `elf_load_header`** on a chunk of the image, past the
first state. -/
theorem elfLoadHeader_answer (hranges : img.RangesOk)
    (hchunk : img.Chunk data offset len) {stage : HdrStage} {phase : LoadPhase}
    {seg : Nat} (hstage : stage ≠ .complete)
    (hph : stage = .phdrs → phase = .notReady ∧ seg = 0)
    (hgot : img.Got stage) (noffset nlen : UInt64) :
    img.Answers heap (img.advance offset len stage)
      (img.phaseAfter offset len stage phase) seg noffset
      (elfLoadHeader heap data offset len (some (img.infoAt heap stage phase seg))
        (pack stage phase seg) noffset nlen).val := by
  have hload : (img.infoAt heap stage phase seg).loadState =
      pack stage phase seg := rfl
  unfold elfLoadHeader
  rw [if_neg (pack_ne_init stage phase seg)]
  simp only [hload, ne_eq, not_true, if_false, Traced.val_ite,
    pack_eq_waitPhdrs stage phase seg hph]
  cases stage with
  | phdrs =>
    obtain ⟨rfl, rfl⟩ := hph rfl
    rw [if_pos rfl]
    exact elfLoadPhdrs_answer hranges hchunk noffset nlen
  | shdrs =>
    rw [if_neg (by decide), if_pos ((pack_shdrs .shdrs phase seg).mpr rfl),
      advance, phaseAfter, if_neg (fun h => nomatch h.1)]
    exact elfLoadShdrs_answer hranges hchunk hgot phase seg noffset nlen
  | shstrtab =>
    have hno : ¬ ¬ pack .shstrtab phase seg &&& ELF_STATE_WAIT_FOR_SHDRS = 0 :=
      fun h => absurd ((pack_shdrs .shstrtab phase seg).mp h) (by decide)
    obtain ⟨hin, hsh, hin', -⟩ := hgot
    rw [if_neg (by decide), if_neg hno,
      if_pos ((pack_shstrtab .shstrtab phase seg).mpr rfl),
      advance, phaseAfter, if_neg (fun h => nomatch h.1)]
    exact elfLoadShstrtab_answer hranges hchunk hin hsh hin' phase seg noffset
      nlen
  | complete => exact absurd rfl hstage

theorem Sound.got (hsound : img.Sound) {stage : HdrStage}
    (hstage : stage ≠ .complete)
    (hstr : stage = .shstrtab → img.ehdr.shnum ≠ 0) : img.Got stage := by
  cases stage with
  | phdrs => trivial
  | shdrs => exact hsound.phdrs_in
  | shstrtab =>
    have hsh := hstr rfl
    exact ⟨hsound.phdrs_in, hsh, hsound.shdrs_in hsh, hsound.shstrndx hsh⟩
  | complete => exact absurd rfl hstage

theorem Sound.cannotFail (hsound : img.Sound)
    (halloc : ∀ size, heap.alloc size = true) : ¬ img.CanFail heap := by
  rintro (⟨size, h⟩ | ⟨hsh, h⟩)
  · rw [halloc size] at h
    cases h
  · exact Nat.not_lt.mpr h (hsound.shstrndx hsh)

/-- Where it cannot fail, the call moves the image on. -/
theorem elfLoadHeader_val (hsound : img.Sound)
    (halloc : ∀ size, heap.alloc size = true)
    (hchunk : img.Chunk data offset len) {stage : HdrStage} {phase : LoadPhase}
    {seg : Nat} (hstage : stage ≠ .complete)
    (hph : stage = .phdrs → phase = .notReady ∧ seg = 0)
    (hstr : stage = .shstrtab → img.ehdr.shnum ≠ 0) (noffset nlen : UInt64) :
    (elfLoadHeader heap data offset len (some (img.infoAt heap stage phase seg))
      (pack stage phase seg) noffset nlen).val =
      img.headerOut heap (img.advance offset len stage)
        (img.phaseAfter offset len stage phase) seg noffset := by
  have hanswer : img.Answers heap _ _ _ _ _ := elfLoadHeader_answer
    hsound.toRangesOk hchunk hstage hph (hsound.got hstage hstr) noffset nlen
  exact (hanswer.resolve_right fun h => hsound.cannotFail halloc h.2).1

end Answers

/-- The header is read the same from a chunk that has all of it. -/
theorem ofBytes_of_chunk {data : Mem} {len : UInt64}
    (hchunk : img.Chunk data 0 len)
    (hlen : (ehdrSize img.ehdr.is64).toNat ≤ len.toNat) :
    ElfEhdr.ofBytes data = img.ehdr := by
  have hagree : Agree img.bytes data 0 len.toNat := by
    intro i _ hi
    have h := hchunk.bytes i (by omega)
    rwa [UInt64.toNat_zero, Nat.zero_add] at h
  have hge : 52 ≤ len.toNat := by
    refine Nat.le_trans ?_ hlen
    cases img.ehdr.is64 <;> decide
  have hclass : elfIs64 data = elfIs64 img.bytes := by
    rw [elfIs64, elfIs64, hagree EI_CLASS (by decide) (by simp [EI_CLASS]; omega)]
  have hload : ∀ a k, a + k ≤ len.toNat → loadLE data a k = loadLE img.bytes a k :=
    fun a k h => loadLE_congr (hagree.mono (by omega) (by omega))
  have h64 : img.ehdr.is64 = elfIs64 img.bytes := rfl
  rw [h64] at hlen
  rw [ehdr, ElfEhdr.ofBytes, ElfEhdr.ofBytes, hclass]
  cases hc : elfIs64 img.bytes with
  | true =>
    have h64 : 64 ≤ len.toNat := by
      rw [hc] at hlen
      exact hlen
    simp only [xword, half, wordSize, if_true]
    rw [hload 24 8 (by omega), hload 32 8 (by omega), hload 40 8 (by omega),
      hload 54 2 (by omega), hload 56 2 (by omega), hload 58 2 (by omega),
      hload 60 2 (by omega), hload 62 2 (by omega)]
  | false =>
    simp only [xword, half, wordSize, Bool.false_eq_true, if_false]
    rw [hload 24 4 (by omega), hload 28 4 (by omega), hload 32 4 (by omega),
      hload 42 2 (by omega), hload 44 2 (by omega), hload 46 2 (by omega),
      hload 48 2 (by omega), hload 50 2 (by omega)]

theorem elfIs64_of_chunk {data : Mem} {len : UInt64}
    (hchunk : img.Chunk data 0 len) (hlen : EI_CLASS < len.toNat) :
    elfIs64 data = img.ehdr.is64 := by
  have h := hchunk.bytes EI_CLASS hlen
  rw [UInt64.toNat_zero, Nat.zero_add] at h
  rw [elfIs64, h]
  rfl

/-- A first chunk without the whole header. -/
theorem elfLoadHeader_short (heap : Heap) {data : Mem} (offset : UInt64)
    {len : UInt64} (info : Option ElfInfo) (h : len < ehdrSize (elfIs64 data))
    (noffset nlen : UInt64) :
    (elfLoadHeader heap data offset len info ELF_STATE_INIT noffset nlen).val =
      ⟨ELF_STATE_INIT, info, 0, ehdrSize (elfIs64 data)⟩ := by
  unfold elfLoadHeader
  simp [h]

/-- The first call of `elf_load_header` that has the whole header. -/
theorem elfLoadHeader_first_answer (hranges : img.RangesOk) {heap : Heap}
    {data : Mem} {len : UInt64} (hchunk : img.Chunk data 0 len)
    (hlen : (ehdrSize img.ehdr.is64).toNat ≤ len.toNat) (noffset nlen : UInt64) :
    img.Answers heap (img.advance 0 len .phdrs)
      (img.phaseAfter 0 len .phdrs .notReady) 0 noffset
      (elfLoadHeader heap data 0 len none ELF_STATE_INIT noffset nlen).val := by
  have hge : 52 ≤ len.toNat := by
    refine Nat.le_trans ?_ hlen
    cases img.ehdr.is64 <;> decide
  have hclass := elfIs64_of_chunk hchunk (by simp [EI_CLASS]; omega)
  have hno : ¬ len < ehdrSize img.ehdr.is64 := by
    rw [UInt64.lt_iff_toNat_lt]
    omega
  have hinfo : (⟨img.ehdr, ELF_STATE_WAIT_FOR_PHDRS, none, none, none⟩ : ElfInfo) =
      img.infoAt heap .phdrs .notReady 0 := by
    simp [infoAt, pack_init]
  unfold elfLoadHeader
  simp only [if_true, Traced.val_bind, Traced.val_ite]
  simp only [val_accessAt, hclass, ofBytes_of_chunk hchunk hlen,
    Option.bind_none, hinfo]
  rw [if_neg hno]
  by_cases halloc : heap.alloc (elfInfoSize img.ehdr.is64) = false
  · rw [if_pos ⟨rfl, halloc⟩]
    exact .inr ⟨neg_enomem, .inl ⟨_, halloc⟩⟩
  · rw [if_neg (fun h => halloc h.2)]
    exact elfLoadPhdrs_answer hranges hchunk noffset nlen

theorem elfLoadHeader_first (hsound : img.Sound) {heap : Heap}
    (halloc : ∀ size, heap.alloc size = true) {data : Mem} {len : UInt64}
    (hchunk : img.Chunk data 0 len)
    (hlen : (ehdrSize img.ehdr.is64).toNat ≤ len.toNat) (noffset nlen : UInt64) :
    (elfLoadHeader heap data 0 len none ELF_STATE_INIT noffset nlen).val =
      img.headerOut heap (img.advance 0 len .phdrs)
        (img.phaseAfter 0 len .phdrs .notReady) 0 noffset := by
  have hanswer : img.Answers heap _ _ _ _ _ := elfLoadHeader_first_answer
    hsound.toRangesOk hchunk hlen noffset nlen
  exact (hanswer.resolve_right fun h => hsound.cannotFail halloc h.2).1

end Image

end OpenAmp.Remoteproc
