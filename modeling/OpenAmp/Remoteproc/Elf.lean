import OpenAmp.Lib.Bytes
import OpenAmp.Lib.Traced
import OpenAmp.Metal.Io

/-!
# The ELF loader

`open-amp/lib/remoteproc/elf_loader.c` with the structures of
`elf_loader.h`, on a little-endian host. The loader is a state machine
over one packed `int`: a header stage, a load phase and the number of
the next segment. It is fed chunks of the image, and each call records
what it reads of the chunk and of the blocks it has allocated.

A chunk or a block is memory with a length. What lies behind the length
can be read like the rest; the record tells.
-/

namespace OpenAmp.Remoteproc

open OpenAmp.Lib OpenAmp.Metal

def RPROC_ENOMEM : Int32 := 1
def RPROC_EINVAL32 : Int32 := 2
def RPROC_ERR_LOADER_STATE : Int32 := 12

theorem neg_einval : -RPROC_EINVAL32 < 0 := by decide

theorem neg_enomem : -RPROC_ENOMEM < 0 := by decide

/-- `RPROC_LOAD_ANYADDR`, `((metal_phys_addr_t)-1)`. -/
def RPROC_LOAD_ANYADDR : UInt64 := 0xFFFFFFFFFFFFFFFF

def RPROC_LOADER_NOT_READY : Int32 := 0
def RPROC_LOADER_READY_TO_LOAD : Int32 := 0x10000
def RPROC_LOADER_POST_DATA_LOAD : Int32 := 0x20000
def RPROC_LOADER_LOAD_COMPLETE : Int32 := 0x40000
def RPROC_LOADER_MASK : Int32 := 0x00FF0000

def ELF_STATE_INIT : Int32 := 0
def ELF_STATE_WAIT_FOR_PHDRS : Int32 := 0x100
def ELF_STATE_WAIT_FOR_SHDRS : Int32 := 0x200
def ELF_STATE_WAIT_FOR_SHSTRTAB : Int32 := 0x400
def ELF_STATE_HDRS_COMPLETE : Int32 := 0x800
def ELF_STATE_MASK : Int32 := 0xFF00
def ELF_NEXT_SEGMENT_MASK : Int32 := 0x00FF

def EI_CLASS : Nat := 4
def ELFCLASS64 : UInt8 := 2
def PT_LOAD : Nat := 1

/-- The magic `"\177ELF"`. -/
def ELFMAG : List UInt8 := [0x7f, 0x45, 0x4c, 0x46]

/-! ## Layout -/

/-- `sizeof(Elf64_Ehdr)`, `sizeof(Elf32_Ehdr)`. -/
def ehdrSize (is64 : Bool) : UInt64 := if is64 then 64 else 52

/-- `sizeof(Elf64_Phdr)`, `sizeof(Elf32_Phdr)`. -/
def phdrSize (is64 : Bool) : Nat := if is64 then 56 else 32

/-- `sizeof(Elf64_Shdr)`, `sizeof(Elf32_Shdr)`. -/
def shdrSize (is64 : Bool) : Nat := if is64 then 64 else 40

/-- `sizeof(struct elf64_info)`, `sizeof(struct elf32_info)`. -/
def elfInfoSize (is64 : Bool) : UInt64 := if is64 then 96 else 80

/-- The width of addresses, offsets and sizes. -/
def wordSize (is64 : Bool) : Nat := if is64 then 8 else 4

/-- The fields of `Elf32_Ehdr` and `Elf64_Ehdr` that the loader uses. -/
structure ElfEhdr where
  is64 : Bool
  entry : UInt64
  phoff : UInt64
  shoff : UInt64
  phentsize : UInt16
  phnum : UInt16
  shentsize : UInt16
  shnum : UInt16
  shstrndx : UInt16
deriving DecidableEq, Repr

/-- `elf_is_64`. -/
def elfIs64 (m : Mem) : Bool := m EI_CLASS = ELFCLASS64

def half (m : Mem) (a : Nat) : UInt16 := UInt16.ofNat (loadLE m a 2)

/-- An address, offset or size. -/
def xword (is64 : Bool) (m : Mem) (a : Nat) : UInt64 :=
  UInt64.ofNat (loadLE m a (wordSize is64))

/-- The header at the start of an image. -/
def ElfEhdr.ofBytes (m : Mem) : ElfEhdr :=
  let is64 := elfIs64 m
  -- the five 16-bit fields follow each other
  let h := if is64 then 54 else 42
  { is64 := is64
    entry := xword is64 m 24
    phoff := xword is64 m (if is64 then 32 else 28)
    shoff := xword is64 m (if is64 then 40 else 32)
    phentsize := half m h
    phnum := half m (h + 2)
    shentsize := half m (h + 4)
    shnum := half m (h + 6)
    shstrndx := half m (h + 8) }

/-- `phnum * phentsize`. -/
def ElfEhdr.phdrsSize (ehdr : ElfEhdr) : UInt64 :=
  ehdr.phnum.toUInt64 * ehdr.phentsize.toUInt64

/-- `shnum * shentsize`. -/
def ElfEhdr.shdrsSize (ehdr : ElfEhdr) : UInt64 :=
  ehdr.shnum.toUInt64 * ehdr.shentsize.toUInt64

/-- What `metal_allocate_memory` does: whether a block of a size can be
had, and what lies behind a block. -/
structure Heap where
  alloc : UInt64 → Bool
  beyond : Mem

/-- An allocated block. -/
structure Block where
  size : UInt64
  bytes : Mem

/-- A word of `width` bytes of a block. -/
def Block.load (b : Block) (off width : Nat) : Traced Access UInt64 :=
  accessAt (UInt64.ofNat (loadLE b.bytes off width)) off width b.size.toNat

/-- `memcpy` of `size` bytes at `off` of a chunk of `len` bytes into a
new block. -/
def copyBlock (heap : Heap) (img : Mem) (len off size : UInt64) :
    Traced Access Block :=
  accessAt
    { size := size
      bytes := fun i =>
        if i < size.toNat then img (off.toNat + i) else heap.beyond i }
    off.toNat size.toNat len.toNat

/-- `struct elf32_info` and `struct elf64_info`. -/
structure ElfInfo where
  ehdr : ElfEhdr
  loadState : Int32
  phdrs : Option Block
  shdrs : Option Block
  shstrtab : Option Block

/-! ## Program and section headers -/

/-- The fields `elf_parse_segment` delivers. -/
structure ElfSegment where
  type : UInt64
  offset : UInt64
  paddr : UInt64
  filesz : UInt64
  memsz : UInt64
deriving DecidableEq, Repr

/-- `elf_parse_segment` of program header `index`. -/
def elfParseSegment (is64 : Bool) (phdrs : Block) (index : Nat) :
    Traced Access ElfSegment := do
  let phdr := index * phdrSize is64
  let w := wordSize is64
  let type ← phdrs.load phdr 4
  let offset ← phdrs.load (phdr + if is64 then 8 else 4) w
  let paddr ← phdrs.load (phdr + if is64 then 24 else 12) w
  let filesz ← phdrs.load (phdr + if is64 then 32 else 16) w
  let memsz ← phdrs.load (phdr + if is64 then 40 else 20) w
  pure ⟨type, offset, paddr, filesz, memsz⟩

/-- The fields of a section header that the loader uses. -/
structure ElfSection where
  addr : UInt64
  offset : UInt64
  size : UInt64
deriving DecidableEq, Repr

/-- `elf_parse_section` of section header `index` for offset and size. -/
def elfParseSectionRange (is64 : Bool) (shdrs : Block) (index : Nat) :
    Traced Access (UInt64 × UInt64) := do
  let shdr := index * shdrSize is64
  let offset ← shdrs.load (shdr + if is64 then 24 else 16) (wordSize is64)
  let size ← shdrs.load (shdr + if is64 then 32 else 20) (wordSize is64)
  pure (offset, size)

/-- `elf_parse_section` of section header `index` for the address too. -/
def elfParseSection (is64 : Bool) (shdrs : Block) (index : Nat) :
    Traced Access ElfSection := do
  let addr ← shdrs.load (index * shdrSize is64 + if is64 then 16 else 12)
    (wordSize is64)
  let (offset, size) ← elfParseSectionRange is64 shdrs index
  pure ⟨addr, offset, size⟩

/-- `strcmp` of a literal with the string at `start` of a block: whether
they are equal. -/
def strcmpEq (b : Block) : List UInt8 → Nat → Traced Access Bool
  | [], start => do
    let c ← accessAt (b.bytes start) start 1 b.size.toNat
    pure (c = 0)
  | a :: rest, start => do
    let c ← accessAt (b.bytes start) start 1 b.size.toNat
    if c = a then strcmpEq b rest (start + 1) else pure false

/-- The loop of `elf_get_section_from_name` with `left` sections to go,
at section `i`. -/
def sectionLoop (is64 : Bool) (shdrs shstrtab : Block) (name : List UInt8) :
    Nat → Nat → Traced Access (Option Nat)
  | 0, _ => pure none
  | left + 1, i => do
    let shName ← shdrs.load (i * shdrSize is64) 4
    let found ← strcmpEq shstrtab name shName.toNat
    if found then pure (some i)
    else sectionLoop is64 shdrs shstrtab name left (i + 1)

/-- `elf_get_section_from_name`: the number of the section. -/
def elfGetSectionFromName (info : ElfInfo) (name : List UInt8) :
    Traced Access (Option Nat) :=
  match info.shdrs, info.shstrtab with
  | some shdrs, some shstrtab =>
    sectionLoop info.ehdr.is64 shdrs shstrtab name info.ehdr.shnum.toNat 0
  | _, _ => pure none

/-- `elf_get_section_from_index`: the table, when it has the section. -/
def elfGetSectionFromIndex (info : ElfInfo) (index : Nat) : Option Block :=
  match info.shdrs with
  | some shdrs => if index < info.ehdr.shnum.toNat then some shdrs else none
  | none => none

/-- `elf_identify` on a chunk of `len` bytes. -/
def elfIdentify (img : Mem) (len : UInt64) : Bool :=
  4 ≤ len ∧ readBytes img 0 4 = ELFMAG

/-! ## Headers -/

/-- The outcome of `elf_load_header`, with what its pointers hold. -/
structure HeaderOut where
  ret : Int32
  info : Option ElfInfo
  noffset : UInt64
  nlen : UInt64

/-- The test whether the chunk lacks part of a range, in 64 bits. -/
def chunkLacks (offset len start size : UInt64) : Bool :=
  start < offset ∨ offset + len < start + size

/-- A load state in another header stage. -/
def withStage (state stage : Int32) : Int32 :=
  (state &&& ~~~ELF_STATE_MASK) ||| stage

/-- A load state in another phase. -/
def withPhase (state phase : Int32) : Int32 :=
  (state &&& ~~~RPROC_LOADER_MASK) ||| phase

/-- A load state at another segment. -/
def withSegment (state : Int32) (nsegment : Nat) : Int32 :=
  (state &&& ~~~ELF_NEXT_SEGMENT_MASK) |||
    (Int32.ofNat nsegment &&& ELF_NEXT_SEGMENT_MASK)

section Header

variable (heap : Heap) (img : Mem) (offset len : UInt64)

/-- `elf_load_header` from "Get ELF SHSTRTAB section" on. -/
def elfLoadShstrtab (info : ElfInfo) (noffset nlen : UInt64) :
    Traced Access HeaderOut :=
  match elfGetSectionFromIndex info info.ehdr.shstrndx.toNat with
  | none => pure ⟨-RPROC_EINVAL32, some info, noffset, nlen⟩
  | some shdrs => do
    let (start, size) ← elfParseSectionRange info.ehdr.is64 shdrs
      info.ehdr.shstrndx.toNat
    if chunkLacks offset len start size then
      pure ⟨info.loadState, some info, start, size⟩
    else if heap.alloc size = false then
      pure ⟨-RPROC_ENOMEM, some { info with shstrtab := none }, noffset, nlen⟩
    else
      let shstrtab ← copyBlock heap img len (start - offset) size
      let state := withStage info.loadState ELF_STATE_HDRS_COMPLETE
      pure ⟨state, some { info with
        shstrtab := some shstrtab, loadState := state }, noffset, 0⟩

/-- `elf_load_header` from "Get ELF Section Headers" on. -/
def elfLoadShdrs (info : ElfInfo) (noffset nlen : UInt64) :
    Traced Access HeaderOut :=
  let start := info.ehdr.shoff
  let size := info.ehdr.shdrsSize
  if info.ehdr.shnum = 0 then
    let state := withStage info.loadState ELF_STATE_HDRS_COMPLETE
    pure ⟨state, some { info with loadState := state }, noffset, 0⟩
  else if chunkLacks offset len start size then
    pure ⟨info.loadState, some info, start, size⟩
  else if heap.alloc size = false then
    pure ⟨-RPROC_ENOMEM, some { info with shdrs := none }, noffset, nlen⟩
  else do
    let shdrs ← copyBlock heap img len (start - offset) size
    elfLoadShstrtab heap img offset len
      { info with
        shdrs := some shdrs
        loadState := withStage info.loadState ELF_STATE_WAIT_FOR_SHSTRTAB }
      noffset nlen

/-- `elf_load_header` from "Get ELF program headers" on. -/
def elfLoadPhdrs (info : ElfInfo) (noffset nlen : UInt64) :
    Traced Access HeaderOut :=
  let start := info.ehdr.phoff
  let size := info.ehdr.phdrsSize
  if chunkLacks offset len start size then
    pure ⟨info.loadState, some info, start, size⟩
  else if heap.alloc size = false then
    pure ⟨-RPROC_ENOMEM, some { info with phdrs := none }, noffset, nlen⟩
  else do
    let phdrs ← copyBlock heap img len (start - offset) size
    elfLoadShdrs heap img offset len
      { info with
        phdrs := some phdrs
        loadState := ELF_STATE_WAIT_FOR_SHDRS ||| RPROC_LOADER_READY_TO_LOAD }
      noffset nlen

/-- `elf_load_header`. Without image information outside the first state
its assertion fails; that is answered with an error here. -/
def elfLoadHeader (info : Option ElfInfo) (lastLoadState : Int32)
    (noffset nlen : UInt64) : Traced Access HeaderOut :=
  if lastLoadState = ELF_STATE_INIT then do
    let is64 ← accessAt (elfIs64 img) EI_CLASS 1 len.toNat
    if len < ehdrSize is64 then
      pure ⟨ELF_STATE_INIT, info, 0, ehdrSize is64⟩
    else if info.isNone ∧ heap.alloc (elfInfoSize is64) = false then
      pure ⟨-RPROC_ENOMEM, info, noffset, nlen⟩
    else
      let ehdr ← accessAt (ElfEhdr.ofBytes img) 0 (ehdrSize is64).toNat len.toNat
      elfLoadPhdrs heap img offset len
        { ehdr := ehdr
          loadState := ELF_STATE_WAIT_FOR_PHDRS
          phdrs := info.bind (·.phdrs)
          shdrs := info.bind (·.shdrs)
          shstrtab := info.bind (·.shstrtab) }
        noffset nlen
  else
    match info with
    | none => pure ⟨-RPROC_EINVAL32, none, noffset, nlen⟩
    | some info =>
      if lastLoadState ≠ info.loadState then
        pure ⟨-RPROC_EINVAL32, some info, noffset, nlen⟩
      else if info.loadState = ELF_STATE_WAIT_FOR_PHDRS then
        elfLoadPhdrs heap img offset len info noffset nlen
      else if info.loadState &&& ELF_STATE_WAIT_FOR_SHDRS ≠ 0 then
        elfLoadShdrs heap img offset len info noffset nlen
      else if info.loadState &&& ELF_STATE_WAIT_FOR_SHSTRTAB ≠ 0 then
        elfLoadShstrtab heap img offset len info noffset nlen
      else pure ⟨lastLoadState, some info, noffset, nlen⟩

end Header

/-! ## Data -/

/-- What `elf_next_load_segment` leaves behind: whether it found one,
the number of the next segment and the segment read last. -/
structure NextSegment where
  found : Bool
  nseg : Nat
  last : Option ElfSegment
deriving DecidableEq, Repr

/-- The loop of `elf_next_load_segment` with `left` headers to go. -/
def nextLoadLoop (is64 : Bool) (phdrs : Block) :
    Nat → Nat → Option ElfSegment → Traced Access NextSegment
  | 0, nseg, last => pure ⟨false, nseg, last⟩
  | left + 1, nseg, _ => do
    let seg ← elfParseSegment is64 phdrs nseg
    if seg.type.toNat = PT_LOAD then pure ⟨true, nseg + 1, some seg⟩
    else nextLoadLoop is64 phdrs left (nseg + 1) (some seg)

/-- `elf_next_load_segment`. -/
def elfNextLoadSegment (info : ElfInfo) (nseg : Nat) :
    Traced Access NextSegment :=
  match info.phdrs with
  | some phdrs =>
    nextLoadLoop info.ehdr.is64 phdrs (info.ehdr.phnum.toNat - nseg) nseg none
  | none => pure ⟨false, nseg, none⟩

/-- The outcome of `elf_load`, with what its pointers hold. -/
structure DataOut where
  ret : Int32
  info : Option ElfInfo
  da : UInt64
  noffset : UInt64
  nlen : UInt64
  padding : UInt8
  nmemsize : UInt64

/-- The part of `elf_load` in `RPROC_LOADER_READY_TO_LOAD`. -/
def elfLoadSegment (info : ElfInfo) (da noffset nlen nmemsize : UInt64) :
    Traced Access DataOut := do
  let r ← elfNextLoadSegment info
    (info.loadState &&& ELF_NEXT_SEGMENT_MASK).toInt.toNat
  -- headers that are not loadable leave their address and offset behind
  let da := r.last.elim da (·.paddr)
  let noffset := r.last.elim noffset (·.offset)
  let (nlen, nmemsize) := match r.found, r.last with
    | true, some seg => (seg.filesz, seg.memsz)
    | _, _ => (nlen, nmemsize)
  let (state, da) :=
    if r.nseg = info.ehdr.phnum.toNat then
      if r.found then
        (withPhase info.loadState RPROC_LOADER_POST_DATA_LOAD, da)
      else (withPhase info.loadState RPROC_LOADER_LOAD_COMPLETE,
        RPROC_LOAD_ANYADDR)
    else (info.loadState, da)
  let state := withSegment state r.nseg
  pure ⟨state, some { info with loadState := state }, da, noffset, nlen, 0,
    nmemsize⟩

/-- The part of `elf_load` in `RPROC_LOADER_POST_DATA_LOAD`. -/
def elfLoadPost (heap : Heap) (img : Mem) (offset len : UInt64)
    (info : ElfInfo) (lastLoadState : Int32) (da noffset nlen nmemsize : UInt64) :
    Traced Access DataOut :=
  if info.loadState &&& ELF_STATE_HDRS_COMPLETE = 0 then do
    let h ← elfLoadHeader heap img offset len (some info) lastLoadState
      noffset nlen
    match h.info with
    | none => pure ⟨h.ret, none, da, h.noffset, h.nlen, 0, nmemsize⟩
    | some info' =>
      if h.ret < 0 then
        pure ⟨h.ret, some info', da, h.noffset, h.nlen, 0, nmemsize⟩
      else if h.ret &&& ELF_STATE_HDRS_COMPLETE ≠ 0 then
        let state := withPhase info'.loadState RPROC_LOADER_LOAD_COMPLETE
        pure ⟨state, some { info' with loadState := state },
          RPROC_LOAD_ANYADDR, h.noffset, 0, 0, nmemsize⟩
      else
        pure ⟨info'.loadState, some info', RPROC_LOAD_ANYADDR, h.noffset,
          h.nlen, 0, nmemsize⟩
  else
    let state := withPhase info.loadState RPROC_LOADER_LOAD_COMPLETE
    pure ⟨state, some { info with loadState := state }, da, noffset, 0, 0,
      nmemsize⟩

/-- `elf_load` once the headers allow it; without image information its
assertion fails. -/
def elfLoadReady (heap : Heap) (img : Mem) (offset len : UInt64)
    (info : Option ElfInfo) (lastLoadState : Int32)
    (da noffset nlen nmemsize : UInt64) : Traced Access DataOut :=
  match info with
  | none => pure ⟨-RPROC_EINVAL32, none, da, noffset, nlen, 0, nmemsize⟩
  | some info =>
    if info.loadState &&& RPROC_LOADER_READY_TO_LOAD ≠ 0 then
      elfLoadSegment info da noffset nlen nmemsize
    else if info.loadState &&& RPROC_LOADER_POST_DATA_LOAD ≠ 0 then
      elfLoadPost heap img offset len info lastLoadState da noffset nlen
        nmemsize
    else
      pure ⟨info.loadState, some info, da, noffset, nlen, 0, nmemsize⟩

/-- `elf_load`. -/
def elfLoad (heap : Heap) (img : Mem) (offset len : UInt64)
    (info : Option ElfInfo) (lastLoadState : Int32)
    (da noffset nlen : UInt64) (padding : UInt8) (nmemsize : UInt64) :
    Traced Access DataOut :=
  if lastLoadState &&& RPROC_LOADER_MASK = RPROC_LOADER_NOT_READY then do
    let h ← elfLoadHeader heap img offset len info lastLoadState noffset nlen
    if h.ret &&& RPROC_LOADER_MASK = RPROC_LOADER_NOT_READY then
      pure ⟨h.ret, h.info, RPROC_LOAD_ANYADDR, h.noffset, h.nlen, padding,
        nmemsize⟩
    else
      elfLoadReady heap img offset len h.info h.ret da h.noffset h.nlen
        nmemsize
  else
    elfLoadReady heap img offset len info lastLoadState da noffset nlen
      nmemsize

/-! ## Results -/

/-- `elf_get_entry`. -/
def elfGetEntry (info : Option ElfInfo) : UInt64 :=
  info.elim METAL_BAD_PHYS (·.ehdr.entry)

/-- `elf_get_load_state`. -/
def elfGetLoadState (info : Option ElfInfo) : Int32 :=
  info.elim (-RPROC_EINVAL32) (·.loadState)

/-- `".resource_table"`. -/
def rscTableName : List UInt8 :=
  [0x2e, 0x72, 0x65, 0x73, 0x6f, 0x75, 0x72, 0x63, 0x65, 0x5f, 0x74, 0x61,
    0x62, 0x6c, 0x65]

/-- The outcome of `elf_locate_rsc_table`, with what its pointers hold. -/
structure LocateOut where
  ret : Int32
  da : UInt64
  offset : UInt64
  size : UInt64
deriving DecidableEq, Repr

/-- `elf_locate_rsc_table`. -/
def elfLocateRscTable (info : Option ElfInfo) (da offset size : UInt64) :
    Traced Access LocateOut :=
  match info with
  | none => pure ⟨-RPROC_EINVAL32, da, offset, size⟩
  | some info =>
    if info.loadState &&& ELF_STATE_HDRS_COMPLETE = 0 then
      pure ⟨-RPROC_ERR_LOADER_STATE, da, offset, size⟩
    else do
      let found ← elfGetSectionFromName info rscTableName
      match found, info.shdrs with
      | some i, some shdrs =>
        let sec ← elfParseSection info.ehdr.is64 shdrs i
        pure ⟨0, sec.addr, sec.offset, sec.size⟩
      | _, _ => pure ⟨0, da, offset, 0⟩

end OpenAmp.Remoteproc
