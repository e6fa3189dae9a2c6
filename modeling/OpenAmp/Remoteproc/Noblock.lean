import OpenAmp.Remoteproc.Load

/-!
# Loading without blocking

`remoteproc_load_noblock` of `open-amp/lib/remoteproc/remoteproc.c` and
the caller the repository has for it, `load_exectuable_noblock` of
`apps/examples/load_fw/load_fw.c`. The caller holds the chunk of the image
that it was asked for last; every call says what it wants next, for itself
or in target memory.

Where `remoteproc_load` reads the resource table from the image, this
function reads it from target memory, after the program has gone there.
-/

namespace OpenAmp.Remoteproc

open OpenAmp.Lib OpenAmp.Metal

/-- What the pointers given to `remoteproc_load_noblock` refer to, with the
remote processor and target memory. -/
structure NoblockVars where
  rproc : Rproc
  target : Mem
  info : Option ElfInfo
  pa : UInt64
  io : Option MetalIoRegion
  noffset : UInt64
  nlen : UInt64
  nmlen : UInt64
  padding : UInt8

/-- `heap` is the allocator, `copy` the address at which it has room for
the copy of the resource table. -/
structure NoblockEnv where
  heap : Heap
  copy : UInt64

section Noblock

variable (env : NoblockEnv)

/-- The copy of the resource table is handled and put back. The second
component says whether the call goes on. -/
def NoblockVars.handleRsc (v : NoblockVars) (io : MetalIoRegion) (va : UInt64)
    (size : UInt64) (lrscTable : Mem) : Int32 × Bool × NoblockVars :=
  let r := (Parser.handleRscTable
    ⟨v.rproc.mems, v.rproc.ops, v.rproc.handleRsc, size⟩ env.copy
    (remoteprocGetIoWithVa v.rproc.mems v.rproc.ops env.copy)
    ⟨lrscTable, v.rproc.bitmap⟩).val
  let v := { v with rproc := { v.rproc with bitmap := r.2.bitmap } }
  if r.1 < 0 then (Int32.ofInt r.1, false, v)
  else
    let written := metalIoBlockStore io v.target (metalIoVirtToOffset io va)
      r.2.mem (sizeToInt size)
    (0, true, { v with
      target := written.2
      rproc := { v.rproc with
        rscTable := va
        rscLen := size
        rscIo := some io } })

/-- "Get resource table", when there is one. A table that is mapped nowhere
ends the call with the zero of `elf_locate_rsc_table`. -/
def NoblockVars.getRsc (v : NoblockVars) (da size : UInt64) :
    Int32 × Bool × NoblockVars :=
  if env.heap.alloc size = false then (-RPROC_ENOMEM, false, v)
  else
    let map := remoteprocMmap v.rproc.mems v.rproc.ops none (some da) size v.io
    let v := { v with io := map.io }
    match map.io with
    | none => (0, false, v)
    | some io =>
      let read := metalIoBlockLoad io v.target (metalIoVirtToOffset io map.va)
        (sizeToInt size)
      if read.1 ≠ sizeToInt size then (read.1, false, v)
      else
        v.handleRsc env io map.va size fun i =>
          read.2.getD i (env.heap.beyond i)

/-- `remoteproc_load_noblock` from "Get resource table" on. -/
def noblockComplete (info : Option ElfInfo) (v : NoblockVars) :
    Traced Access (Int32 × NoblockVars) := do
  let l ← elfLocateRscTable info 0 0 0
  if l.ret = 0 ∧ 0 < l.size then
    let (ret, go, v) := v.getRsc env l.da l.size
    if go then
      pure (0, { v with
        rproc := { v.rproc with bootaddr := elfGetEntry info }
        info := info })
    else pure (ret, v)
  else
    pure (0, { v with
      rproc := { v.rproc with bootaddr := elfGetEntry info }
      info := info })

variable (img : Option Mem) (offset len : UInt64)

/-- The chunk the caller has passed; a null pointer has no bytes. -/
def chunkOf : Mem := img.getD fun _ => 0

/-- `remoteproc_load_noblock` from the test for the data on. -/
def noblockData (info : Option ElfInfo) (lastLoadState : Int32)
    (v : NoblockVars) : Traced Access (Int32 × NoblockVars) :=
  if lastLoadState &&& RPROC_LOADER_READY_TO_LOAD ≠ 0 ∨
      lastLoadState &&& RPROC_LOADER_POST_DATA_LOAD ≠ 0 then do
    let d ← elfLoad env.heap (chunkOf img) offset len info lastLoadState
      RPROC_LOAD_ANYADDR v.noffset v.nlen v.padding v.nmlen
    let v := { v with
      noffset := d.noffset
      nlen := d.nlen
      padding := d.padding
      nmlen := d.nmemsize }
    if d.ret < 0 then pure (d.ret, v)
    else
      let map := remoteprocMmap v.rproc.mems v.rproc.ops (some METAL_BAD_PHYS)
        (some d.da) d.nmemsize v.io
      let v := if d.da ≠ RPROC_LOAD_ANYADDR then
        { v with pa := map.pa, io := map.io } else v
      if d.da ≠ RPROC_LOAD_ANYADDR ∧ v.pa = METAL_BAD_PHYS then
        pure (-RPROC_EINVAL32, v)
      else if d.nlen ≠ 0 then pure (0, { v with info := d.info })
      else if d.ret &&& RPROC_LOADER_LOAD_COMPLETE ≠ 0 then
        noblockComplete env d.info v
      else pure (0, { v with info := d.info })
  else if lastLoadState &&& RPROC_LOADER_LOAD_COMPLETE ≠ 0 then
    noblockComplete env info v
  else pure (0, { v with info := info })

/-- `remoteproc_load_noblock` from the test for the headers on. -/
def noblockHeader (info : Option ElfInfo) (lastLoadState : Int32)
    (v : NoblockVars) : Traced Access (Int32 × NoblockVars) :=
  if lastLoadState &&& RPROC_LOADER_READY_TO_LOAD = 0 ∧
      lastLoadState &&& RPROC_LOADER_LOAD_COMPLETE = 0 then do
    let h ← elfLoadHeader env.heap (chunkOf img) offset len info lastLoadState
      v.noffset v.nlen
    let v := { v with noffset := h.noffset, nlen := h.nlen }
    if h.ret < 0 then pure (h.ret, v)
    else if h.nlen ≠ 0 ∧ h.ret &&& RPROC_LOADER_READY_TO_LOAD = 0 then
      pure (0, { v with info := h.info })
    else noblockData env img offset len h.info h.ret v
  else noblockData env img offset len info lastLoadState v

/-- `remoteproc_load_noblock`, with a place for the image information. After
an error that information has been released, and the caller is left with
what it had. -/
def remoteprocLoadNoblock (v : NoblockVars) :
    Traced Access (Int32 × NoblockVars) :=
  if v.rproc.state ≠ .ready then pure (-RPROC_EINVAL32, v)
  else if v.rproc.loader = false ∧ (img.isNone ∨ offset ≠ 0 ∨ len = 0 ∨
      elfIdentify (chunkOf img) len = false) then
    pure (-RPROC_EINVAL32, v)
  else
    let v := { v with rproc := { v.rproc with loader := true } }
    let lastLoadState := if v.info.isNone then 0 else elfGetLoadState v.info
    if lastLoadState < 0 then pure (-RPROC_EINVAL32, v)
    else
      noblockHeader env img offset len v.info lastLoadState { v with nlen := 0 }

end Noblock

/-! ## The caller -/

/-- The variables of `load_exectuable_noblock` that outlive a round. `calls`
counts the requests to the store. -/
structure NoblockRun where
  vars : NoblockVars
  calls : Nat
  imgData : Option Mem
  offset : UInt64
  len : UInt64

section Caller

variable (store : ImageStoreOps) (env : NoblockEnv)

/-- The variables as a round begins. -/
def NoblockVars.reset (v : NoblockVars) : NoblockVars :=
  { v with nlen := 0, pa := METAL_BAD_PHYS, io := none, nmlen := 0 }

/-- The physical address for the store. -/
def NoblockVars.storePa (v : NoblockVars) : Option UInt64 :=
  if v.pa = METAL_BAD_PHYS then none else some v.pa

/-- The request of a round to the store. -/
def NoblockRun.fetch (run : NoblockRun) : StoreAnswer × NoblockRun :=
  let v := run.vars
  let ans := store.load run.calls v.noffset v.nlen v.storePa v.target
  (ans, {
    vars := { v with
      target := if v.storePa.isSome then ans.target else v.target }
    calls := run.calls + 1
    imgData := ans.data.or run.imgData
    offset := v.noffset
    len := v.nlen })

/-- "pad the rest of the memory". -/
def NoblockVars.pad (v : NoblockVars) : NoblockVars :=
  match v.io with
  | some io =>
    if v.nlen < v.nmlen then
      { v with target := (metalIoBlockSet io v.target
          (metalIoPhysToOffset io (v.pa + v.nlen)) v.padding
          (sizeToInt (v.nmlen - v.nlen))).2 }
    else v
  | none => v

/-- The loop of `load_exectuable_noblock`. -/
def noblockLoop : Nat → NoblockRun → Traced Access (Option (Int32 × NoblockRun))
  | 0, _ => pure none
  | fuel + 1, run => do
    let (ret, v) ← remoteprocLoadNoblock env run.imgData run.offset run.len
      run.vars.reset
    let run := { run with vars := v }
    if ret ≠ 0 then pure (some (ret, run))
    else if v.nlen = 0 ∧ v.nmlen = 0 then pure (some (0, run))
    else
      let (ans, run) := run.fetch store
      if ans.ret ≠ sizeToInt v.nlen then pure (some (ans.ret, run))
      else noblockLoop fuel { run with vars := run.vars.pad }

/-- `load_exectuable_noblock` from the open image to the start of the remote
processor. `noffset` and `padding` are what the variables happen to hold. -/
def loadExectuableNoblock (fuel : Nat) (rproc : Rproc) (target : Mem)
    (noffset : UInt64) (padding : UInt8) :
    Traced Access (Option (Int32 × NoblockRun)) :=
  let (ret, img) := store.openImg
  let run : NoblockRun := {
    vars := {
      rproc := rproc
      target := target
      info := none
      pa := METAL_BAD_PHYS
      io := none
      noffset := noffset
      nlen := 0
      nmlen := 0
      padding := padding }
    calls := 0
    imgData := some img
    offset := 0
    len := intToSize ret }
  if ret ≤ 0 then pure (some (-RPROC_EINVAL32, run))
  else noblockLoop store env fuel run

end Caller

end OpenAmp.Remoteproc
