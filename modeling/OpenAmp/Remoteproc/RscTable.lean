import OpenAmp.Metal.Bitmap
import OpenAmp.Metal.Io

/-!
# Resource tables

`open-amp/lib/remoteproc/rsc_table_parser.c` with
`remoteproc_allocate_id`: a table is checked and its entries are handled
one after another; virtio entries get their notify ids from the bitmap
of the remote processor.

A table is the list of its entries, each with the offset at which it
lies; entries do not overlap. What the platform decides — whether a
carveout can be mapped, what its vendor handler answers — is a parameter
that may depend on the entry's place in the table.
-/

namespace OpenAmp.Remoteproc

open OpenAmp.Metal

def RPROC_EINVAL : Int := 2
def RPROC_ERR_RSC_TAB_TRUNC : Int := 5
def RPROC_ERR_RSC_TAB_VER : Int := 6
def RPROC_ERR_RSC_TAB_RSVD : Int := 7
def RPROC_ERR_RSC_TAB_NP : Int := 10
def RPROC_ERR_RSC_TAB_NS : Int := 11

def RSC_NOTIFY_ID_ANY : UInt32 := 0xFFFFFFFF
def FW_RSC_U32_ADDR_ANY : UInt32 := 0xFFFFFFFF
def RSC_TAB_SUPPORTED_VERSION : UInt32 := 1

/-- `struct fw_rsc_vdev`, what the parser reads of it: its own notify id
and those of its vrings. -/
structure FwRscVdev where
  notifyid : UInt32
  vrings : List UInt32
deriving DecidableEq, Repr

/-- A resource entry by its type. `unknown` is a type in none of the
ranges of `enum fw_resource_type`. -/
inductive FwRsc where
  | carveout (da pa len flags reserved : UInt32)
  | devmem
  | trace (da len : UInt32)
  | vdev (v : FwRscVdev)
  | vendor (len : UInt32)
  | unknown
deriving DecidableEq, Repr

/-- `struct resource_table` at address `base`, its entries with their
offsets; `num` is their number. -/
structure ResourceTable where
  base : UInt64
  ver : UInt32
  reserved0 : UInt32
  reserved1 : UInt32
  entries : List (UInt32 × FwRsc)

/-- The decisions of the platform: whether `remoteproc_mmap` maps the
carveout that is entry number `i`, and the answer of `ops->handle_rsc`
to the vendor entry that is entry number `i`. -/
structure Platform where
  mmap : Nat → Bool
  handleRsc : Option (Nat → Int)

/-- `remoteproc_allocate_id` on the bitmap of the remote processor. -/
def remoteprocAllocateId (bitmap : Bitmap) (start stop : UInt32) :
    UInt32 × Bitmap :=
  let start := if start = RSC_NOTIFY_ID_ANY then 0 else start
  let stop := if stop = RSC_NOTIFY_ID_ANY then
    UInt32.ofNat METAL_BITS_PER_ULONG else stop
  if start < 64 ∧ stop ≤ 64 then
    let notifyid := metalBitmapNextClearBit bitmap start stop
    if notifyid ≠ stop then
      (notifyid, metalBitmapSetBit bitmap notifyid.toNat)
    else (RSC_NOTIFY_ID_ANY, bitmap)
  else (RSC_NOTIFY_ID_ANY, bitmap)

/-- The call `handle_vdev_rsc` makes for one requested id. -/
def allocateNotifyId (bitmap : Bitmap) (notifyid : UInt32) : UInt32 × Bitmap :=
  remoteprocAllocateId bitmap notifyid
    (if notifyid = RSC_NOTIFY_ID_ANY then RSC_NOTIFY_ID_ANY else notifyid + 1)

/-- The loop of `handle_vdev_rsc` over the vrings to go, after those in
`done`: the notify ids left in all vrings, the bitmap, and whether every
vring got one. Where one does not, the ids of `done` are given back. -/
def vringLoop (bitmap : Bitmap) (done : List UInt32) :
    List UInt32 → Bool × List UInt32 × Bitmap
  | [] => (true, done, bitmap)
  | r :: rest =>
    let (notifyid, bitmap) := allocateNotifyId bitmap r
    if notifyid ≠ RSC_NOTIFY_ID_ANY then
      vringLoop bitmap (done ++ [notifyid]) rest
    else
      (false, done ++ r :: rest,
        done.foldr (fun id bitmap => metalBitmapClearBit bitmap id.toNat) bitmap)

/-- `handle_vdev_rsc`. -/
def handleVdevRsc (bitmap : Bitmap) (v : FwRscVdev) :
    Int × FwRscVdev × Bitmap :=
  let (notifyid, bitmap) := allocateNotifyId bitmap v.notifyid
  if notifyid ≠ RSC_NOTIFY_ID_ANY then
    let (ok, vrings, bitmap) := vringLoop bitmap [] v.vrings
    if ok then (0, ⟨notifyid, vrings⟩, bitmap)
    else (-RPROC_ERR_RSC_TAB_NP, ⟨notifyid, vrings⟩,
      metalBitmapClearBit bitmap notifyid.toNat)
  else (-RPROC_ERR_RSC_TAB_NP, v, bitmap)

/-- `handle_carve_out_rsc`; `mapped` is the answer of `remoteproc_mmap`. -/
def handleCarveOutRsc (reserved : UInt32) (mapped : Bool) : Int :=
  if reserved ≠ 0 then -RPROC_ERR_RSC_TAB_RSVD
  else if mapped then 0 else -RPROC_EINVAL

/-- `handle_trace_rsc`. -/
def handleTraceRsc (da len : UInt32) : Int :=
  if da ≠ FW_RSC_U32_ADDR_ANY ∧ len ≠ 0 then 0 else -RPROC_ERR_RSC_TAB_NS

/-- `handle_vendor_rsc`. -/
def handleVendorRsc (platform : Platform) (i : Nat) : Int :=
  match platform.handleRsc with
  | some handleRsc => handleRsc i
  | none => -RPROC_ERR_RSC_TAB_NS

/-- The dispatch of `handle_rsc_table` on entry number `i`. An unknown
type leaves `status` at the zero the previous round left behind. -/
def handleRsc (platform : Platform) (bitmap : Bitmap) (i : Nat) :
    FwRsc → Int × FwRsc × Bitmap
  | .carveout da pa len flags reserved =>
    (handleCarveOutRsc reserved (platform.mmap i),
      .carveout da pa len flags reserved, bitmap)
  | .devmem => (-RPROC_ERR_RSC_TAB_NS, .devmem, bitmap)
  | .trace da len => (handleTraceRsc da len, .trace da len, bitmap)
  | .vdev v =>
    let (status, v, bitmap) := handleVdevRsc bitmap v
    (status, .vdev v, bitmap)
  | .vendor len => (handleVendorRsc platform i, .vendor len, bitmap)
  | .unknown => (0, .unknown, bitmap)

/-- The `for` loop of `handle_rsc_table` from entry `i` on, with `io` the
region the table is checked against. -/
def rscLoop (platform : Platform) (base : UInt64) (io : Option MetalIoRegion) :
    Bitmap → Nat → List (UInt32 × FwRsc) →
      Int × List (UInt32 × FwRsc) × Bitmap
  | bitmap, _, [] => (0, [], bitmap)
  | bitmap, i, (offset, rsc) :: rest =>
    let hdr := base + offset.toUInt64
    if io.any fun io => metalIoVirtToOffset io hdr = METAL_BAD_OFFSET then
      (-RPROC_ERR_RSC_TAB_TRUNC, (offset, rsc) :: rest, bitmap)
    else
      let (status, rsc, bitmap) := handleRsc platform bitmap i rsc
      if status = 0 ∨ status = -RPROC_ERR_RSC_TAB_NS then
        let (status, rest, bitmap) := rscLoop platform base io bitmap (i + 1) rest
        (status, (offset, rsc) :: rest, bitmap)
      else (status, (offset, rsc) :: rest, bitmap)

/-- `handle_rsc_table`: the status, the table left behind and the bitmap.
`sizeof(struct resource_table)` is 16 and an offset takes 4 bytes; the
end of the offset array is kept in 32 bits. -/
def handleRscTable (platform : Platform) (bitmap : Bitmap)
    (table : ResourceTable) (size : UInt64) (io : Option MetalIoRegion) :
    Int × ResourceTable × Bitmap :=
  if size < 16 then (-RPROC_ERR_RSC_TAB_TRUNC, table, bitmap)
  else if table.ver ≠ RSC_TAB_SUPPORTED_VERSION then
    (-RPROC_ERR_RSC_TAB_VER, table, bitmap)
  else if size.toNat < (16 + table.entries.length * 4) % 2 ^ 32 then
    (-RPROC_ERR_RSC_TAB_TRUNC, table, bitmap)
  else if table.reserved0 ≠ 0 ∨ table.reserved1 ≠ 0 then
    (-RPROC_ERR_RSC_TAB_RSVD, table, bitmap)
  else
    let (status, entries, bitmap) :=
      rscLoop platform table.base io bitmap 0 table.entries
    (status, { table with entries := entries }, bitmap)

end OpenAmp.Remoteproc
