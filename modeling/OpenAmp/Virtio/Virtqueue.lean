import OpenAmp.Metal.Io
import OpenAmp.Virtio.Ring

/-!
# Virtqueues

`open-amp/lib/virtio/virtqueue.c`, function by function, in the build
this repository ships: `VQUEUE_DEBUG` is not defined, so `VQASSERT`,
`VQ_PARAM_CHK`, `VQUEUE_BUSY` and `VQUEUE_IDLE` expand to nothing and no
argument is checked, and without `VIRTIO_USE_DCACHE` the cache macros
expand to nothing either. The role tests are the plain comparisons of
`openamp/virtio.h`; a side is built with the branches of its own role.

A `Virtqueue` is the private side of a queue, a `Vring` the memory both
sides share; an operation takes both and returns both. Pointers are
64-bit words with `0` for null.
-/

namespace OpenAmp.Virtio

open OpenAmp.Metal

def VQUEUE_SUCCESS : Int := 0
def ERROR_VRING_NO_BUFF : Int := -3007

/-- The end of a descriptor chain: `2 ^ 15`, never a valid index. -/
def VQ_RING_DESC_CHAIN_END : UInt16 := 32768

def VIRTIO_RING_F_EVENT_IDX : UInt32 := 0x20000000

/-- `VIRTIO_DEV_DRIVER` and `VIRTIO_DEV_DEVICE`. -/
inductive VirtioRole where
  | driver
  | device
deriving DecidableEq, Repr

/-- What `virtqueue.c` consults of `struct virtio_device`. -/
structure VirtioDevice where
  role : VirtioRole
  features : UInt32
deriving DecidableEq, Repr

/-- `vq->vq_dev->features & VIRTIO_RING_F_EVENT_IDX`. -/
def VirtioDevice.eventIdx (dev : VirtioDevice) : Bool :=
  dev.features &&& VIRTIO_RING_F_EVENT_IDX ≠ 0

/-- `struct virtqueue_buf`. -/
structure VirtqueueBuf where
  buf : UInt64
  len : Int32
deriving DecidableEq, Repr

/-- `struct vq_desc_extra`. -/
structure VqDescExtra where
  cookie : UInt64
  ndescs : UInt16
deriving DecidableEq, Inhabited, Repr

/-- `struct virtqueue`, less its name, its index and the callback.
`vqRingNum` is `vq_ring.num`; `notify` says whether a notify hook is
installed. -/
structure Virtqueue where
  vqDev : VirtioDevice
  vqNentries : UInt16
  notify : Bool
  vqRingNum : UInt32
  vqFreeCnt : UInt16
  vqQueuedCnt : UInt16
  shmIo : MetalIoRegion
  vqDescHeadIdx : UInt16
  vqUsedConsIdx : UInt16
  vqAvailableIdx : UInt16
  vqDescx : UInt16 → VqDescExtra

/-- `virtqueue_phys_to_virt`. -/
def virtqueuePhysToVirt (vq : Virtqueue) (phys : UInt64) : UInt64 :=
  metalIoPhysToVirt vq.shmIo phys

/-- `virtqueue_virt_to_phys`. -/
def virtqueueVirtToPhys (vq : Virtqueue) (buf : UInt64) : UInt64 :=
  metalIoVirtToPhys vq.shmIo buf

/-! ## Creation -/

/-- `virtqueue_allocate`: the block is cleared. The device pointer and
the I/O region are set by the callers before they are used. -/
def virtqueueAllocate (dev : VirtioDevice) (io : MetalIoRegion) :
    Virtqueue where
  vqDev := dev
  vqNentries := 0
  notify := false
  vqRingNum := 0
  vqFreeCnt := 0
  vqQueuedCnt := 0
  shmIo := io
  vqDescHeadIdx := 0
  vqUsedConsIdx := 0
  vqAvailableIdx := 0
  vqDescx := fun _ => ⟨0, 0⟩

/-- `desc[i].next = v`. -/
def setNext (desc : UInt16 → VringDesc) (i v : UInt16) :
    UInt16 → VringDesc :=
  Function.update desc i { desc i with next := v }

/-- The `for` loop of `vq_ring_init` over the first `m` descriptors. -/
def linkDescs (desc : UInt16 → VringDesc) : Nat → (UInt16 → VringDesc)
  | 0 => desc
  | m + 1 => setNext (linkDescs desc m) (UInt16.ofNat m) (UInt16.ofNat (m + 1))

/-- `vq_ring_init`. -/
def vqRingInit (vq : Virtqueue) (vr : Vring) : Virtqueue × Vring :=
  let size := vq.vqNentries.toNat
  let vq := { vq with vqRingNum := vq.vqNentries.toUInt32 }
  if vq.vqDev.role = .driver then
    let desc := linkDescs vr.desc (size - 1)
    (vq, { vr with
      desc := setNext desc (UInt16.ofNat (size - 1)) VQ_RING_DESC_CHAIN_END })
  else (vq, vr)

/-- `virtqueue_create`: always successful in this build. -/
def virtqueueCreate (dev : VirtioDevice) (numDescs : UInt16) (notify : Bool)
    (vq : Virtqueue) (vr : Vring) : Int × Virtqueue × Vring :=
  (VQUEUE_SUCCESS, vqRingInit { vq with
    vqDev := dev
    vqNentries := numDescs
    vqFreeCnt := numDescs
    notify := notify } vr)

/-! ## Driver side -/

/-- `dp->flags` of buffer number `i` of a chain of `needed`. -/
def descFlags (readable needed : Int) (i : Nat) : UInt16 :=
  (if (i : Int) < needed - 1 then VRING_DESC_F_NEXT else 0) |||
    (if readable ≤ (i : Int) then VRING_DESC_F_WRITE else 0)

/-- The `for` loop of `vq_ring_add_buffer` with `m` rounds to go, at
buffer `i` and descriptor `idx`. `next` is read, never written. -/
def addBufferLoop (vq : Virtqueue) (bufList : Nat → VirtqueueBuf)
    (readable needed : Int) :
    Nat → Nat → UInt16 → (UInt16 → VringDesc) → (UInt16 → VringDesc) × UInt16
  | 0, _, idx, desc => (desc, idx)
  | m + 1, i, idx, desc =>
    addBufferLoop vq bufList readable needed m (i + 1) (desc idx).next
      (Function.update desc idx
        { addr := virtqueueVirtToPhys vq (bufList i).buf
          len := (bufList i).len.toUInt32
          flags := descFlags readable needed i
          next := (desc idx).next })

/-- `vq_ring_add_buffer`. -/
def vqRingAddBuffer (vq : Virtqueue) (desc : UInt16 → VringDesc)
    (headIdx : UInt16) (bufList : Nat → VirtqueueBuf)
    (readable writable : Int) : (UInt16 → VringDesc) × UInt16 :=
  let needed := readable + writable
  addBufferLoop vq bufList readable needed needed.toNat 0 headIdx desc

/-- `vq_ring_update_avail`. -/
def vqRingUpdateAvail (vq : Virtqueue) (vr : Vring) (descIdx : UInt16) :
    Virtqueue × Vring :=
  let availIdx := vr.avail.idx &&& (vq.vqNentries - 1)
  ({ vq with vqQueuedCnt := vq.vqQueuedCnt + 1 },
    { vr with avail := { vr.avail with
        ring := Function.update vr.avail.ring availIdx descIdx
        idx := vr.avail.idx + 1 } })

/-- `virtqueue_add_buffer`. -/
def virtqueueAddBuffer (vq : Virtqueue) (vr : Vring)
    (bufList : Nat → VirtqueueBuf) (readable writable : Int)
    (cookie : UInt64) : Int × Virtqueue × Vring :=
  let needed := readable + writable
  let headIdx := vq.vqDescHeadIdx
  let dxp := { cookie := cookie, ndescs := UInt16.ofInt needed }
  let vq := { vq with vqDescx := Function.update vq.vqDescx headIdx dxp }
  let (desc, idx) :=
    vqRingAddBuffer vq vr.desc headIdx bufList readable writable
  let vq := { vq with
    vqDescHeadIdx := idx
    vqFreeCnt := vq.vqFreeCnt - UInt16.ofInt needed }
  (VQUEUE_SUCCESS, vqRingUpdateAvail vq { vr with desc := desc } headIdx)

/-- The `while` loop of `vq_ring_free_chain`, one unit of fuel a round:
the last descriptor of the chain and the remaining `ndescs`. -/
def freeChainLoop (desc : UInt16 → VringDesc) :
    Nat → UInt16 → UInt16 → Option (UInt16 × UInt16)
  | 0, _, _ => none
  | fuel + 1, dp, ndescs =>
    if (desc dp).flags &&& VRING_DESC_F_NEXT ≠ 0 then
      freeChainLoop desc fuel (desc dp).next (ndescs - 1)
    else some (dp, ndescs)

/-- `vq_ring_free_chain`; `none` when the chain never ends. The loop
writes no descriptor, so a walk of `2 ^ 16` rounds has come back to a
descriptor it met before and goes on forever. -/
def vqRingFreeChain (vq : Virtqueue) (vr : Vring) (descIdx : UInt16) :
    Option (Virtqueue × Vring) :=
  let dxp := vq.vqDescx descIdx
  let ndescs := dxp.ndescs - 1
  let tail :=
    if (vr.desc descIdx).flags &&& VRING_DESC_F_INDIRECT = 0 then
      freeChainLoop vr.desc (2 ^ 16) descIdx ndescs
    else some (descIdx, ndescs)
  tail.map fun (dp, ndescs) =>
    ({ vq with
        vqFreeCnt := vq.vqFreeCnt + dxp.ndescs
        vqDescx := Function.update vq.vqDescx descIdx
          { dxp with ndescs := ndescs }
        vqDescHeadIdx := descIdx },
      { vr with desc := setNext vr.desc dp vq.vqDescHeadIdx })

/-- What `virtqueue_get_buffer` returns and stores through `len` and
`idx`. -/
structure GotBuffer where
  cookie : UInt64
  len : UInt32
  idx : UInt16
deriving DecidableEq, Repr

/-- `virtqueue_get_buffer`. The inner `none` is the null result of an
empty used ring, the outer one a chain that never ends. -/
def virtqueueGetBuffer (vq : Virtqueue) (vr : Vring) :
    Option (Option GotBuffer × Virtqueue × Vring) :=
  if vq.vqUsedConsIdx = vr.used.idx then some (none, vq, vr)
  else
    let usedIdx := vq.vqUsedConsIdx &&& (vq.vqNentries - 1)
    let vq := { vq with vqUsedConsIdx := vq.vqUsedConsIdx + 1 }
    let uep := vr.used.ring usedIdx
    let descIdx := uep.id.toUInt16
    (vqRingFreeChain vq vr descIdx).map fun (vq, vr) =>
      let dxp := vq.vqDescx descIdx
      (some { cookie := dxp.cookie, len := uep.len, idx := usedIdx },
        { vq with
          vqDescx := Function.update vq.vqDescx descIdx
            { dxp with cookie := 0 } }, vr)

/-! ## Device side -/

/-- `virtqueue_get_buffer_length`. -/
def virtqueueGetBufferLength (vr : Vring) (idx : UInt16) : UInt32 :=
  (vr.desc idx).len

/-- `virtqueue_get_buffer_addr`. -/
def virtqueueGetBufferAddr (vq : Virtqueue) (vr : Vring) (idx : UInt16) :
    UInt64 :=
  virtqueuePhysToVirt vq (vr.desc idx).addr

/-- What `virtqueue_get_available_buffer` returns and stores through
`avail_idx` and `len`. -/
structure AvailableBuffer where
  buffer : UInt64
  availIdx : UInt16
  len : UInt32
deriving DecidableEq, Repr

/-- `virtqueue_get_available_buffer`; `none` for an empty ring. -/
def virtqueueGetAvailableBuffer (vq : Virtqueue) (vr : Vring) :
    Option AvailableBuffer × Virtqueue :=
  if vq.vqAvailableIdx = vr.avail.idx then (none, vq)
  else
    let headIdx := vq.vqAvailableIdx &&& (vq.vqNentries - 1)
    let availIdx := vr.avail.ring headIdx
    (some { buffer := virtqueueGetBufferAddr vq vr availIdx
            availIdx := availIdx
            len := virtqueueGetBufferLength vr availIdx },
      { vq with vqAvailableIdx := vq.vqAvailableIdx + 1 })

/-- `virtqueue_add_consumed_buffer`. -/
def virtqueueAddConsumedBuffer (vq : Virtqueue) (vr : Vring)
    (headIdx : UInt16) (len : UInt32) : Int × Virtqueue × Vring :=
  if vq.vqNentries ≤ headIdx then (ERROR_VRING_NO_BUFF, vq, vr)
  else
    let usedIdx := vr.used.idx &&& (vq.vqNentries - 1)
    (VQUEUE_SUCCESS, { vq with vqQueuedCnt := vq.vqQueuedCnt + 1 },
      { vr with used := { vr.used with
          ring := Function.update vr.used.ring usedIdx
            { id := headIdx.toUInt32, len := len }
          idx := vr.used.idx + 1 } })

/-- `virtqueue_get_desc_size`. -/
def virtqueueGetDescSize (vq : Virtqueue) (vr : Vring) : UInt32 :=
  if vq.vqAvailableIdx = vr.avail.idx then 0
  else
    let headIdx := vq.vqAvailableIdx &&& (vq.vqNentries - 1)
    (vr.desc (vr.avail.ring headIdx)).len

/-! ## Notification -/

/-- `virtqueue_nused`. -/
def virtqueueNused (vq : Virtqueue) (vr : Vring) : UInt16 :=
  vr.used.idx - vq.vqUsedConsIdx

/-- `virtqueue_navail`. -/
def virtqueueNavail (vq : Virtqueue) (vr : Vring) : UInt16 :=
  vr.avail.idx - vq.vqAvailableIdx

/-- The first half of `vq_ring_enable_interrupt`: ask for an interrupt
`ndesc` entries from here. -/
def armInterrupt (vq : Virtqueue) (vr : Vring) (ndesc : UInt16) : Vring :=
  if vq.vqDev.eventIdx then
    match vq.vqDev.role with
    | .driver => setVringUsedEvent vq.vqRingNum vr (vq.vqUsedConsIdx + ndesc)
    | .device => setVringAvailEvent vq.vqRingNum vr (vq.vqAvailableIdx + ndesc)
  else
    match vq.vqDev.role with
    | .driver => { vr with avail := { vr.avail with
        flags := vr.avail.flags &&& ~~~VRING_AVAIL_F_NO_INTERRUPT } }
    | .device => { vr with used := { vr.used with
        flags := vr.used.flags &&& ~~~VRING_USED_F_NO_NOTIFY } }

/-- `vq_ring_enable_interrupt`. -/
def vqRingEnableInterrupt (vq : Virtqueue) (vr : Vring) (ndesc : UInt16) :
    Int × Vring :=
  let vr := armInterrupt vq vr ndesc
  let pending :=
    match vq.vqDev.role with
    | .driver => virtqueueNused vq vr
    | .device => virtqueueNavail vq vr
  (if ndesc < pending then 1 else 0, vr)

/-- `virtqueue_enable_cb`. -/
def virtqueueEnableCb (vq : Virtqueue) (vr : Vring) : Int × Vring :=
  vqRingEnableInterrupt vq vr 0

/-- `virtqueue_disable_cb`. -/
def virtqueueDisableCb (vq : Virtqueue) (vr : Vring) : Vring :=
  if vq.vqDev.eventIdx then
    match vq.vqDev.role with
    | .driver => setVringUsedEvent vq.vqRingNum vr
        (vq.vqUsedConsIdx - vq.vqNentries - 1)
    | .device => setVringAvailEvent vq.vqRingNum vr
        (vq.vqAvailableIdx - vq.vqNentries - 1)
  else
    match vq.vqDev.role with
    | .driver => { vr with avail := { vr.avail with
        flags := vr.avail.flags ||| VRING_AVAIL_F_NO_INTERRUPT } }
    | .device => { vr with used := { vr.used with
        flags := vr.used.flags ||| VRING_USED_F_NO_NOTIFY } }

/-- `vq_ring_must_notify`. -/
def vqRingMustNotify (vq : Virtqueue) (vr : Vring) : Bool :=
  if vq.vqDev.eventIdx then
    match vq.vqDev.role with
    | .driver =>
      let newIdx := vr.avail.idx
      let prevIdx := newIdx - vq.vqQueuedCnt
      vringNeedEvent (vringAvailEvent vq.vqRingNum vr) newIdx prevIdx
    | .device =>
      let newIdx := vr.used.idx
      let prevIdx := newIdx - vq.vqQueuedCnt
      vringNeedEvent (vringUsedEvent vq.vqRingNum vr) newIdx prevIdx
  else
    match vq.vqDev.role with
    | .driver => vr.used.flags &&& VRING_USED_F_NO_NOTIFY = 0
    | .device => vr.avail.flags &&& VRING_AVAIL_F_NO_INTERRUPT = 0

/-- `virtqueue_kick`: whether the notify hook was invoked, and the queue
with its pending count cleared. -/
def virtqueueKick (vq : Virtqueue) (vr : Vring) : Bool × Virtqueue :=
  (vqRingMustNotify vq vr && vq.notify, { vq with vqQueuedCnt := 0 })

end OpenAmp.Virtio
