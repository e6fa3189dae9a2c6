import OpenAmp.Remoteproc.Elf
import OpenAmp.Remoteproc.RscParser

/-!
# Loading a remote processor

`remoteproc_load` of `open-amp/lib/remoteproc/remoteproc.c`. The image
store is the application's: it answers every call as it likes, and the
run keeps the list of calls with what they returned. The memory of the
remote processor is seen by physical address.

The two loops of the function run on fuel; `none` says that they have
not come to an end yet. The parser's accesses are recorded along the way.
-/

namespace OpenAmp.Remoteproc

open OpenAmp.Lib OpenAmp.Metal

/-- `enum remoteproc_state`. -/
inductive RprocState where
  | offline
  | configured
  | ready
  | running
  | suspended
  | error
  | stopped
deriving DecidableEq, Repr

/-- `struct remoteproc`, without its list of virtio devices. `rscTable`
is the virtual address of the resource table, zero for none, `loader`
whether a loader is set. -/
structure Rproc where
  rscTable : UInt64
  rscLen : UInt64
  rscIo : Option MetalIoRegion
  mems : List RemoteprocMem
  bitmap : Bitmap
  ops : MemOps
  handleRsc : Option (Nat → UInt32 → Int)
  bootaddr : UInt64
  loader : Bool
  state : RprocState

/-- The answer to a `load` call: the return value, the data pointer if
the callback sets it, and the target memory it leaves. -/
structure StoreAnswer where
  ret : Int32
  data : Option Mem
  target : Mem

/-- `struct image_store_ops` with its store. `load` is told how many
calls came before, so that it can answer any way it likes; `pa` is
`none` for `RPROC_LOAD_ANYADDR`. -/
structure ImageStoreOps where
  openImg : Int32 × Mem
  load : Nat → UInt64 → UInt64 → Option UInt64 → Mem → StoreAnswer
  seek : Bool

/-- A call of `load` and what it returned. -/
structure StoreCall where
  offset : UInt64
  size : UInt64
  pa : Option UInt64
  ret : Int32
deriving DecidableEq, Repr

/-- The variables of `remoteproc_load` that outlive a loop round. -/
structure LoadRun where
  rproc : Rproc
  target : Mem
  calls : List StoreCall
  info : Option ElfInfo
  imgData : Option Mem
  offset : UInt64
  len : UInt64
  lastLoadState : Int32
  io : Option MetalIoRegion

/-- The bytes behind the data pointer; a null pointer has none. -/
def LoadRun.img (run : LoadRun) : Mem := run.imgData.getD fun _ => 0

/-- How a loop ends: with an error on its way to the exits, or not. -/
structure LoopEnd where
  err : Option Int32
  run : LoadRun

section Load

variable (store : ImageStoreOps) (heap : Heap)

/-- A call of `store_ops->load`. -/
def LoadRun.ask (run : LoadRun) (offset size : UInt64) (pa : Option UInt64) :
    StoreAnswer × LoadRun :=
  let ans := store.load run.calls.length offset size pa run.target
  (ans, { run with
    calls := run.calls ++ [⟨offset, size, pa, ans.ret⟩]
    target := if pa.isSome then ans.target else run.target })

/-- The test that ends the header loop. -/
def headersDone (run : LoadRun) (h : HeaderOut) : Bool :=
  h.ret &&& RPROC_LOADER_READY_TO_LOAD ≠ 0 ∧
    (h.nlen = 0 ∨ (run.offset + run.len < h.noffset ∧ store.seek = false))

/-- The loop "Load executable headers". -/
def headerLoop : Nat → LoadRun → UInt64 → UInt64 → Traced Access (Option LoopEnd)
  | 0, _, _, _ => pure none
  | fuel + 1, run, noffset, nlen => do
    let h ← elfLoadHeader heap run.img run.offset run.len run.info
      run.lastLoadState noffset nlen
    let run := { run with info := h.info, lastLoadState := h.ret }
    if h.ret < 0 then pure (some ⟨some h.ret, run⟩)
    else if headersDone store run h then pure (some ⟨none, run⟩)
    else
      let (ans, run) := run.ask store h.noffset h.nlen none
      let run := { run with imgData := ans.data }
      if ans.ret < sizeToInt h.nlen then pure (some ⟨some ans.ret, run⟩)
      else
        headerLoop fuel { run with offset := h.noffset, len := h.nlen }
          h.noffset h.nlen

/-- The file part of a segment is asked for, unless it is empty; whether
that goes well. -/
def fetchSegment (run : LoadRun) (d : DataOut) (pa : UInt64) :
    Bool × LoadRun :=
  if 0 < d.nlen then
    let (ans, run) := run.ask store d.noffset d.nlen (some pa)
    (ans.ret = sizeToInt d.nlen, { run with imgData := ans.data })
  else (true, run)

/-- The rest of the segment is filled. -/
def padSegment (run : LoadRun) (d : DataOut) (pa : UInt64)
    (io : MetalIoRegion) : LoadRun :=
  if d.nlen < d.nmemsize then
    let tmpoffset := metalIoPhysToOffset io (pa + d.nlen)
    { run with target := (metalIoBlockSet io run.target tmpoffset d.padding
        (sizeToInt (d.nmemsize - d.nlen))).2 }
  else run

/-- The body of the data loop where a segment goes to target memory. -/
def storeSegment (run : LoadRun) (d : DataOut) : LoopEnd :=
  let map := remoteprocMmap run.rproc.mems run.rproc.ops (some METAL_BAD_PHYS)
    (some d.da) d.nmemsize run.io
  let run := { run with imgData := none, io := map.io }
  match map.io with
  | none => ⟨some (-RPROC_EINVAL32), run⟩
  | some io =>
    if map.pa = METAL_BAD_PHYS then ⟨some (-RPROC_EINVAL32), run⟩
    else
      let (ok, run) := fetchSegment store run d map.pa
      if ok then ⟨none, padSegment run d map.pa io⟩
      else ⟨some (-RPROC_EINVAL32), run⟩

/-- The loop "load executable data". -/
def dataLoop : Nat → LoadRun → Traced Access (Option LoopEnd)
  | 0, _ => pure none
  | fuel + 1, run => do
    let d ← elfLoad heap run.img run.offset run.len run.info run.lastLoadState
      RPROC_LOAD_ANYADDR 0 0 0 0
    let run := { run with info := d.info }
    if d.ret < 0 then pure (some ⟨some d.ret, run⟩)
    else
      let run := { run with lastLoadState := d.ret }
      if d.da ≠ RPROC_LOAD_ANYADDR then
        let seg := storeSegment store run d
        match seg.err with
        | some err => pure (some ⟨some err, seg.run⟩)
        | none => dataLoop fuel seg.run
      else if d.nlen ≠ 0 then
        let img := run.imgData
        let (ans, run) := run.ask store d.noffset d.nlen none
        let run := { run with imgData := ans.data.or img }
        if ans.ret < sizeToInt d.nlen then
          if d.ret &&& RPROC_LOADER_POST_DATA_LOAD ≠ 0 then
            pure (some ⟨none, run⟩)
          else pure (some ⟨some ans.ret, run⟩)
        else dataLoop fuel { run with offset := d.noffset, len := d.nlen }
      else pure (some ⟨none, run⟩)

/-- `remoteproc_get_rsc_table`: the local copy of the table after its
entries have been handled, if that goes well. -/
def remoteprocGetRscTable (run : LoadRun) (offset len : UInt64) :
    Option Mem × LoadRun :=
  if heap.alloc len = false then (none, run)
  else
    let (ans, run) := run.ask store offset len none
    match ans.data with
    | none => (none, run)
    | some data =>
      if ans.ret < 0 ∨ ans.ret < sizeToInt len then (none, run)
      else
        let table : Mem := fun i =>
          if i < len.toNat then data i else heap.beyond i
        let (status, st) := (Parser.handleRscTable
          ⟨run.rproc.mems, run.rproc.ops, run.rproc.handleRsc, len⟩ 0 none
          ⟨table, run.rproc.bitmap⟩).val
        let run := { run with rproc := { run.rproc with bitmap := st.bitmap } }
        (if status < 0 then none else some st.mem, run)

/-- What is known of the resource table: its local copy, and what
`elf_locate_rsc_table` stored. -/
structure RscFound where
  table : Option Mem
  da : UInt64
  offset : UInt64
  size : UInt64

/-- Locating the resource table and parsing it, after the headers and
again after the data. -/
def locateRscTable (run : LoadRun) (rsc : RscFound) :
    Traced Access (RscFound × LoadRun) := do
  let l ← elfLocateRscTable run.info rsc.da rsc.offset rsc.size
  let rsc : RscFound := ⟨rsc.table, l.da, l.offset, l.size⟩
  if l.ret = 0 ∧ 0 < l.size then
    let (table, run) := remoteprocGetRscTable store heap run l.offset l.size
    pure ({ rsc with table := table }, run)
  else pure (rsc, run)

/-- "Update resource table". -/
def updateRscTable (run : LoadRun) (rsc : RscFound) : LoadRun :=
  match rsc.table with
  | none => run
  | some table =>
    let map := remoteprocMmap run.rproc.mems run.rproc.ops none (some rsc.da)
      rsc.size run.io
    let run := { run with io := map.io }
    match map.io with
    | some io =>
      if map.va ≠ 0 then
        let off := metalIoVirtToOffset io map.va
        { run with
          target := (metalIoBlockStore io run.target off table
            (sizeToInt rsc.size)).2
          rproc := { run.rproc with
            rscTable := map.va
            rscLen := rsc.size
            rscIo := some io } }
      else run
    | none => run

/-- What `remoteproc_load` leaves behind. -/
structure LoadOut where
  ret : Int32
  run : LoadRun

/-- `remoteproc_load` from the open image on, the loader being set. -/
def loadImage (fuel : Nat) (run : LoadRun) : Traced Access (Option LoadOut) := do
  match ← headerLoop store heap fuel run 0 0 with
  | none => pure none
  | some ⟨some err, run⟩ => pure (some ⟨err, run⟩)
  | some ⟨none, run⟩ =>
    let (rsc, run) ← locateRscTable store heap run ⟨none, 0, 0, 0⟩
    match ← dataLoop store heap fuel { run with offset := 0, len := 0 } with
    | none => pure none
    | some ⟨some err, run⟩ => pure (some ⟨err, run⟩)
    | some ⟨none, run⟩ =>
      let (rsc, run) ←
        if rsc.size = 0 then locateRscTable store heap run rsc
        else pure (rsc, run)
      let run := updateRscTable run rsc
      pure (some ⟨0, { run with rproc := { run.rproc with
        bootaddr := elfGetEntry run.info, state := .ready } }⟩)

/-- `remoteproc_load`. -/
def remoteprocLoad (fuel : Nat) (rproc : Rproc) (target : Mem) :
    Traced Access (Option LoadOut) :=
  let (ret, img) := store.openImg
  let run : LoadRun := {
    rproc := rproc
    target := target
    calls := []
    info := none
    imgData := some img
    offset := 0
    len := intToSize ret
    lastLoadState := RPROC_LOADER_NOT_READY
    io := none }
  if rproc.state ≠ .ready ∧ rproc.state ≠ .configured then
    pure (some ⟨-RPROC_EINVAL32, run⟩)
  else if ret ≤ 0 then pure (some ⟨-RPROC_EINVAL32, run⟩)
  else if rproc.loader = false ∧ elfIdentify img run.len = false then
    pure (some ⟨-RPROC_EINVAL32, run⟩)
  else
    loadImage store heap fuel { run with rproc := { rproc with loader := true } }

end Load

end OpenAmp.Remoteproc
