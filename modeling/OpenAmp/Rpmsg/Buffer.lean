import OpenAmp.Lib.Bytes
import OpenAmp.Virtio.Virtqueue

/-!
# Buffers

The buffer handling of `open-amp/lib/rpmsg/rpmsg_virtio.c`: the shared
pool, the header word that carries a buffer's index and hold count, and
the two ends of a buffer's way — transmission with its list of reclaimed
buffers, and reception.

The shared region `shbuf_io` is a memory by region offset; a pointer into
it stands for the byte at its distance from the address the side has the
region mapped at. The list of reclaimed buffers is kept in the buffers
themselves: `struct vbuff_reclaimer_t` overlays the header, its list node
in the first sixteen bytes and its index in the two after them. Only the
head of the list is private memory.

Two functions take the device lock for a part of their work only:
`rpmsg_virtio_get_tx_payload_buffer` notes the index of the buffer it got
after the lock is released, `rpmsg_virtio_send_offchannel_nocopy` writes
the header before it is taken, and `rpmsg_virtio_rx_callback` calls the
endpoint between two locked parts. The parts are functions of their own
here.
-/

namespace OpenAmp.Rpmsg

open OpenAmp.Lib OpenAmp.Metal OpenAmp.Virtio

/-! ## The header word -/

/-- `sizeof(struct rpmsg_hdr)`. -/
def RPMSG_HDR_SIZE : Nat := 16

/-- `RPMSG_BUF_HELD_COUNTER`. -/
def rpmsgBufHeldCounter (reserved : UInt32) : UInt32 :=
  (reserved &&& 0xFFFF0000) >>> 16

/-- `RPMSG_BUF_HELD_INC`. -/
def rpmsgBufHeldInc (reserved : UInt32) : UInt32 := reserved + 0x10000

/-- `RPMSG_BUF_HELD_DEC`. -/
def rpmsgBufHeldDec (reserved : UInt32) : UInt32 := reserved - 0x10000

/-- `RPMSG_BUF_INDEX`. -/
def rpmsgBufIndex (reserved : UInt32) : UInt16 :=
  (reserved &&& ~~~0xFFFF0000).toUInt16

/-- `rpmsg_virtio_buf_held_dec_test` on the header word. -/
def rpmsgVirtioBufHeldDecTest (reserved : UInt32) : Bool × UInt32 :=
  if rpmsgBufHeldCounter reserved ≤ 0 then (false, reserved)
  else
    let reserved := rpmsgBufHeldDec reserved
    if 0 < rpmsgBufHeldCounter reserved then (false, reserved)
    else (true, reserved)

/-- The header word of a buffer with index `idx` held `count` times. -/
def bufWord (idx : UInt16) (count : Nat) : UInt32 :=
  UInt32.ofNat (idx.toNat + count * 65536)

theorem toNat_rpmsgBufHeldCounter (r : UInt32) :
    (rpmsgBufHeldCounter r).toNat = r.toNat / 65536 := by
  have hr := r.toNat_lt
  unfold rpmsgBufHeldCounter
  rw [UInt32.toNat_shiftRight, UInt32.toNat_and,
    show (16 : UInt32).toNat % 32 = 16 from rfl, Nat.shiftRight_and_distrib,
    show (0xFFFF0000 : UInt32).toNat >>> 16 = 2 ^ 16 - 1 from rfl,
    Nat.and_two_pow_sub_one_eq_mod, Nat.shiftRight_eq_div_pow]
  omega

theorem toNat_rpmsgBufIndex (r : UInt32) :
    (rpmsgBufIndex r).toNat = r.toNat % 65536 := by
  unfold rpmsgBufIndex
  rw [UInt32.toNat_toUInt16, UInt32.toNat_and,
    show (~~~(0xFFFF0000 : UInt32)).toNat = 2 ^ 16 - 1 by decide,
    Nat.and_two_pow_sub_one_eq_mod]
  omega

theorem toNat_bufWord {idx : UInt16} {count : Nat} (h : count < 65536) :
    (bufWord idx count).toNat = idx.toNat + count * 65536 := by
  have := idx.toNat_lt
  rw [bufWord, UInt32.toNat_ofNat']
  omega

@[simp] theorem bufWord_zero (idx : UInt16) : bufWord idx 0 = idx.toUInt32 := by
  simp [bufWord]

@[simp] theorem rpmsgBufHeldInc_bufWord (idx : UInt16) (count : Nat) :
    rpmsgBufHeldInc (bufWord idx count) = bufWord idx (count + 1) := by
  apply UInt32.toNat_inj.mp
  simp only [rpmsgBufHeldInc, bufWord, UInt32.toNat_add, UInt32.toNat_ofNat',
    UInt32.reduceToNat]
  omega

theorem rpmsgBufIndex_bufWord (idx : UInt16) {count : Nat}
    (h : count < 65536) : rpmsgBufIndex (bufWord idx count) = idx := by
  have := idx.toNat_lt
  apply UInt16.toNat_inj.mp
  rw [toNat_rpmsgBufIndex, toNat_bufWord h]
  omega

/-- The index is what is left of the word as an `uint16_t`. -/
theorem toUInt16_bufWord (idx : UInt16) {count : Nat} (h : count < 65536) :
    (bufWord idx count).toUInt16 = idx := by
  have := idx.toNat_lt
  apply UInt16.toNat_inj.mp
  rw [UInt32.toNat_toUInt16, toNat_bufWord h]
  omega

/-- The last hold, and only it, reports that the buffer can go. -/
theorem rpmsgVirtioBufHeldDecTest_bufWord (idx : UInt16) {count : Nat}
    (h : count + 1 < 65536) :
    rpmsgVirtioBufHeldDecTest (bufWord idx (count + 1)) =
      (decide (count = 0), bufWord idx count) := by
  have hidx := idx.toNat_lt
  have hdec : rpmsgBufHeldDec (bufWord idx (count + 1)) = bufWord idx count := by
    apply UInt32.toNat_inj.mp
    rw [rpmsgBufHeldDec, UInt32.toNat_sub, toNat_bufWord h,
      toNat_bufWord (by omega)]
    simp only [UInt32.reduceToNat]
    omega
  have hcnt : ∀ c : Nat, c < 65536 →
      (rpmsgBufHeldCounter (bufWord idx c)).toNat = c := by
    intro c hc
    rw [toNat_rpmsgBufHeldCounter, toNat_bufWord hc]
    omega
  have hpos : ¬ rpmsgBufHeldCounter (bufWord idx (count + 1)) ≤ 0 := by
    rw [UInt32.le_iff_toNat_le, hcnt _ h]
    simp
  simp only [rpmsgVirtioBufHeldDecTest, if_neg hpos, hdec]
  rcases Nat.eq_zero_or_pos count with rfl | hc
  · rw [if_neg]
    · simp
    · rw [UInt32.lt_iff_toNat_lt, hcnt 0 (by omega)]
      simp
  · rw [if_pos]
    · simp [Nat.ne_of_gt hc]
    · rw [UInt32.lt_iff_toNat_lt, hcnt count (by omega)]
      simpa using hc

/-! ## The shared pool -/

/-- `struct rpmsg_virtio_shm_pool`. -/
structure ShmPool where
  base : UInt64
  avail : UInt64
  size : UInt64
deriving DecidableEq, Repr

/-- `rpmsg_virtio_init_shm_pool` on a non-empty region. -/
def rpmsgVirtioInitShmPool (shb size : UInt64) : ShmPool := ⟨shb, size, size⟩

/-- `rpmsg_virtio_shm_pool_get_buffer`; null when the pool cannot. -/
def rpmsgVirtioShmPoolGetBuffer (shpool : ShmPool) (size : UInt64) :
    UInt64 × ShmPool :=
  if size = 0 ∨ shpool.avail < size then (0, shpool)
  else (shpool.base + shpool.size - shpool.avail,
    { shpool with avail := shpool.avail - size })

/-- The pool is a piece of the mapped region. -/
structure PoolMapped (io : MetalIoRegion) (pool : ShmPool) : Prop where
  base_ne : pool.base ≠ 0
  avail_le : pool.avail ≤ pool.size
  mapped : io.virt ≤ pool.base
  bound : pool.base.toNat + pool.size.toNat < 2 ^ 64

/-- **The pool hands out its first unallocated bytes.** -/
theorem PoolMapped.getBuffer {io : MetalIoRegion} {pool : ShmPool}
    (h : PoolMapped io pool) {size : UInt64} (hsize : size ≠ 0)
    (hle : size ≤ pool.avail) :
    ∃ p : UInt64, p ≠ 0 ∧
      rpmsgVirtioShmPoolGetBuffer pool size =
        (p, { pool with avail := pool.avail - size }) ∧
      p.toNat + pool.avail.toNat = pool.base.toNat + pool.size.toNat ∧
      PoolMapped io { pool with avail := pool.avail - size } := by
  have hb := h.bound
  have hav := UInt64.le_iff_toNat_le.mp h.avail_le
  have hbase : pool.base.toNat ≠ 0 := fun h0 =>
    h.base_ne (UInt64.toNat_inj.mp h0)
  have hno : ¬ (size = 0 ∨ pool.avail < size) :=
    not_or.mpr ⟨hsize, UInt64.not_lt.mpr hle⟩
  have hp : (pool.base + pool.size - pool.avail).toNat + pool.avail.toNat =
      pool.base.toNat + pool.size.toNat := by
    rw [UInt64.toNat_sub_of_le, UInt64.toNat_add]
    · omega
    · rw [UInt64.le_iff_toNat_le, UInt64.toNat_add]
      omega
  refine ⟨_, ?_, by simp only [rpmsgVirtioShmPoolGetBuffer, if_neg hno], hp,
    h.base_ne, ?_, h.mapped, hb⟩
  · intro h0
    rw [h0] at hp
    simp only [UInt64.toNat_zero] at hp
    omega
  · rw [UInt64.le_iff_toNat_le, UInt64.toNat_sub_of_le _ _ hle]
    exact Nat.le_trans (Nat.sub_le _ _) hav

/-! ## Headers in shared memory -/

/-- The region offset a pointer stands for. -/
def shmOff (io : MetalIoRegion) (p : UInt64) : Nat := (p - io.virt).toNat

/-- Offsets keep the order of addresses behind the mapping's start. -/
theorem shmOff_eq {io : MetalIoRegion} {p : UInt64}
    (h : io.virt.toNat ≤ p.toNat) :
    shmOff io p = p.toNat - io.virt.toNat :=
  UInt64.toNat_sub_of_le _ _ (UInt64.le_iff_toNat_le.mpr h)

/-- `rp_hdr->reserved`. -/
def hdrReserved (io : MetalIoRegion) (m : Mem) (p : UInt64) : UInt32 :=
  UInt32.ofNat (loadLE m (shmOff io p + 8) 4)

/-- `rp_hdr->reserved = reserved`. -/
def setHdrReserved (io : MetalIoRegion) (m : Mem) (p : UInt64)
    (reserved : UInt32) : Mem :=
  storeLE m (shmOff io p + 8) 4 reserved.toNat

theorem hdrReserved_setHdrReserved (io : MetalIoRegion) (m : Mem) (p : UInt64)
    (v : UInt32) : hdrReserved io (setHdrReserved io m p v) p = v := by
  rw [hdrReserved, setHdrReserved, loadLE_storeLE _ _ _ _ v.toNat_lt,
    UInt32.ofNat_toNat]

/-- Only the four bytes of the field are written. -/
theorem agree_setHdrReserved {io : MetalIoRegion} {m : Mem} {p : UInt64}
    {v : UInt32} {a k : Nat}
    (h : a + k ≤ shmOff io p + 8 ∨ shmOff io p + 12 ≤ a) :
    Agree m (setHdrReserved io m p v) a k :=
  agree_storeLE h

theorem hdrReserved_congr {io : MetalIoRegion} {m m' : Mem} {p : UInt64}
    (h : Agree m m' (shmOff io p + 8) 4) :
    hdrReserved io m' p = hdrReserved io m p :=
  congrArg UInt32.ofNat (loadLE_congr h)

/-- `struct rpmsg_hdr`. -/
structure RpmsgHdr where
  src : UInt32
  dst : UInt32
  reserved : UInt32
  len : UInt16
  flags : UInt16
deriving DecidableEq, Repr

/-- The header as it lies in memory. -/
def RpmsgHdr.bytes (hdr : RpmsgHdr) : List UInt8 :=
  leBytes 4 hdr.src.toNat ++ leBytes 4 hdr.dst.toNat ++
    leBytes 4 hdr.reserved.toNat ++ leBytes 2 hdr.len.toNat ++
    leBytes 2 hdr.flags.toNat

/-- `*rp_hdr`. -/
def readHdr (io : MetalIoRegion) (m : Mem) (p : UInt64) : RpmsgHdr :=
  let a := shmOff io p
  { src := UInt32.ofNat (loadLE m a 4)
    dst := UInt32.ofNat (loadLE m (a + 4) 4)
    reserved := UInt32.ofNat (loadLE m (a + 8) 4)
    len := UInt16.ofNat (loadLE m (a + 12) 2)
    flags := UInt16.ofNat (loadLE m (a + 14) 2) }

/-! ## The list of reclaimed buffers -/

/-- The shared bytes with the list threaded through them: `reclaimer` is
the address of the list head, `first` and `last` its two pointers. -/
structure TxMem where
  io : MetalIoRegion
  shm : Mem
  reclaimer : UInt64
  first : UInt64
  last : UInt64

/-- `node->next`. -/
def TxMem.next (m : TxMem) (node : UInt64) : UInt64 :=
  if node = m.reclaimer then m.first
  else UInt64.ofNat (loadLE m.shm (shmOff m.io node) 8)

/-- `node->prev`. -/
def TxMem.prev (m : TxMem) (node : UInt64) : UInt64 :=
  if node = m.reclaimer then m.last
  else UInt64.ofNat (loadLE m.shm (shmOff m.io node + 8) 8)

/-- `node->next = v`. -/
def TxMem.setNext (m : TxMem) (node v : UInt64) : TxMem :=
  if node = m.reclaimer then { m with first := v }
  else { m with shm := storeLE m.shm (shmOff m.io node) 8 v.toNat }

/-- `node->prev = v`. -/
def TxMem.setPrev (m : TxMem) (node v : UInt64) : TxMem :=
  if node = m.reclaimer then { m with last := v }
  else { m with shm := storeLE m.shm (shmOff m.io node + 8) 8 v.toNat }

/-- `metal_list_first` of the reclaimer. -/
def TxMem.listFirst (m : TxMem) : Option UInt64 :=
  if m.next m.reclaimer = m.reclaimer then none else some (m.next m.reclaimer)

/-- `metal_list_del`. -/
def TxMem.listDel (m : TxMem) (node : UInt64) : TxMem :=
  let m := m.setPrev (m.next node) (m.prev node)
  let m := m.setNext (m.prev node) (m.next node)
  let m := m.setPrev node node
  m.setNext node node

/-- `metal_list_add_tail` to the reclaimer. -/
def TxMem.listAddTail (m : TxMem) (node : UInt64) : TxMem :=
  let m := m.setPrev node (m.prev m.reclaimer)
  let m := m.setNext node m.reclaimer
  let m := m.setPrev (m.next node) node
  m.setNext (m.prev node) node

/-- `r_desc->idx`. -/
def TxMem.idx (m : TxMem) (node : UInt64) : UInt16 :=
  UInt16.ofNat (loadLE m.shm (shmOff m.io node + 16) 2)

/-- `r_desc->idx = idx`. -/
def TxMem.setIdx (m : TxMem) (node : UInt64) (idx : UInt16) : TxMem :=
  { m with shm := storeLE m.shm (shmOff m.io node + 16) 2 idx.toNat }

/-! ## Transmission -/

/-- What the transmission functions use of `struct rpmsg_virtio_device`,
with the ring of its send queue and the memory. -/
structure TxDevice where
  h2rBufSize : UInt32
  shpool : ShmPool
  svq : Virtqueue
  ring : Vring
  mem : TxMem

/-- The role of the device. -/
def TxDevice.role (rvdev : TxDevice) : VirtioRole := rvdev.svq.vqDev.role

/-- A buffer with the length and index its source gave it. -/
structure VqBuffer where
  data : UInt64
  len : UInt32
  idx : UInt16
deriving DecidableEq, Repr

/-- The bytes of a buffer. -/
def VqBuffer.span (io : MetalIoRegion) (b : VqBuffer) : Span :=
  ⟨shmOff io b.data, b.len.toNat⟩

/-- `rpmsg_virtio_get_tx_buffer`. The outer `none` is a chain of the
send queue that never ends; the inner one is the null pointer. -/
def rpmsgVirtioGetTxBuffer (rvdev : TxDevice) :
    Option (Option VqBuffer × TxDevice) :=
  match rvdev.mem.listFirst with
  | some node =>
    let mem := rvdev.mem.listDel node
    let idx := mem.idx node
    let len := match rvdev.role with
      | .driver => rvdev.h2rBufSize
      | .device => virtqueueGetBufferLength rvdev.ring idx
    some (some ⟨node, len, idx⟩, { rvdev with mem := mem })
  | none =>
    match rvdev.role with
    | .driver =>
      match virtqueueGetBuffer rvdev.svq rvdev.ring with
      | none => none
      | some (some got, svq, ring) =>
        let rvdev := { rvdev with svq := svq, ring := ring }
        if got.cookie ≠ 0 then
          some (some ⟨got.cookie, got.len, got.idx⟩, rvdev)
        else some (rpmsgVirtioGetPoolBuffer rvdev)
      | some (none, svq, ring) =>
        some (rpmsgVirtioGetPoolBuffer { rvdev with svq := svq, ring := ring })
    | .device =>
      let (got, svq) := virtqueueGetAvailableBuffer rvdev.svq rvdev.ring
      some (got.bind fun a =>
          if a.buffer = 0 then none else some ⟨a.buffer, a.len, a.availIdx⟩,
        { rvdev with svq := svq })
where
  /-- `if (!data && rvdev->svq->vq_free_cnt)` with `data` null. -/
  rpmsgVirtioGetPoolBuffer (rvdev : TxDevice) : Option VqBuffer × TxDevice :=
    if rvdev.svq.vqFreeCnt = 0 then (none, rvdev)
    else
      let (data, shpool) := rpmsgVirtioShmPoolGetBuffer rvdev.shpool
        rvdev.h2rBufSize.toUInt64
      (if data = 0 then none else some ⟨data, rvdev.h2rBufSize, 0⟩,
        { rvdev with shpool := shpool })

/-- The end of `rpmsg_virtio_get_tx_payload_buffer`: the index of the
buffer got and one hold are noted in its header. -/
def noteTxBuffer (io : MetalIoRegion) (shm : Mem) (b : VqBuffer) : Mem :=
  let shm := setHdrReserved io shm b.data b.idx.toUInt32
  setHdrReserved io shm b.data (rpmsgBufHeldInc (hdrReserved io shm b.data))

theorem hdrReserved_noteTxBuffer (io : MetalIoRegion) (shm : Mem)
    (b : VqBuffer) :
    hdrReserved io (noteTxBuffer io shm b) b.data = bufWord b.idx 1 := by
  simp only [noteTxBuffer, hdrReserved_setHdrReserved]
  rw [← bufWord_zero, rpmsgBufHeldInc_bufWord]

theorem agree_noteTxBuffer {io : MetalIoRegion} {shm : Mem} {b : VqBuffer}
    {a k : Nat} (h : a + k ≤ shmOff io b.data + 8 ∨ shmOff io b.data + 12 ≤ a) :
    Agree shm (noteTxBuffer io shm b) a k :=
  (agree_setHdrReserved h).trans (agree_setHdrReserved h)

/-- One round of `rpmsg_virtio_get_tx_payload_buffer` on a ready device:
the buffer and its payload size. -/
def rpmsgVirtioGetTxPayloadBuffer (rvdev : TxDevice) :
    Option (Option (UInt64 × UInt32) × TxDevice) :=
  (rpmsgVirtioGetTxBuffer rvdev).map fun (b, rvdev) =>
    match b with
    | none => (none, rvdev)
    | some b =>
      (some (b.data, b.len - UInt32.ofNat RPMSG_HDR_SIZE),
        { rvdev with
          mem := { rvdev.mem with
            shm := noteTxBuffer rvdev.mem.io rvdev.mem.shm b } })

/-- `rpmsg_virtio_enqueue_buffer`. -/
def rpmsgVirtioEnqueueBuffer (rvdev : TxDevice) (buffer : UInt64)
    (len : UInt32) (idx : UInt16) : Int × TxDevice :=
  match rvdev.role with
  | .driver =>
    let (status, svq, ring) := virtqueueAddBuffer rvdev.svq rvdev.ring
      (fun _ => ⟨buffer, len.toInt32⟩) 1 0 buffer
    (status, { rvdev with svq := svq, ring := ring })
  | .device =>
    let (status, svq, ring) :=
      virtqueueAddConsumedBuffer rvdev.svq rvdev.ring idx len
    (status, { rvdev with svq := svq, ring := ring })

/-- The first part of `rpmsg_virtio_send_offchannel_nocopy`: the index
noted in the header is fetched and the header written. -/
def initTxHdr (io : MetalIoRegion) (shm : Mem) (src dst : UInt32)
    (hdr : UInt64) (len : Int32) : UInt16 × Mem :=
  let rpHdr : RpmsgHdr :=
    { src := src
      dst := dst
      reserved := 0
      len := len.toUInt32.toUInt16
      flags := 0 }
  ((hdrReserved io shm hdr).toUInt16,
    (metalIoBlockWrite io shm (metalIoVirtToOffset io hdr) rpHdr.bytes).2)

/-- The locked part of `rpmsg_virtio_send_offchannel_nocopy`: the status
of the enqueueing, whether the peer was notified, and the device. -/
def enqueueTxBuffer (rvdev : TxDevice) (hdr : UInt64) (idx : UInt16) :
    Int × Bool × TxDevice :=
  let buffLen := match rvdev.role with
    | .driver => rvdev.h2rBufSize
    | .device => virtqueueGetBufferLength rvdev.ring idx
  let (status, rvdev) := rpmsgVirtioEnqueueBuffer rvdev hdr buffLen idx
  let (notified, svq) := virtqueueKick rvdev.svq rvdev.ring
  (status, notified, { rvdev with svq := svq })

/-- `rpmsg_virtio_send_offchannel_nocopy` on the buffer whose header is
at `hdr`; the value returned is `len`. -/
def rpmsgVirtioSendOffchannelNocopy (rvdev : TxDevice) (src dst : UInt32)
    (hdr : UInt64) (len : Int32) : Int32 × TxDevice :=
  let (idx, shm) := initTxHdr rvdev.mem.io rvdev.mem.shm src dst hdr len
  let rvdev := { rvdev with mem := { rvdev.mem with shm := shm } }
  (len, (enqueueTxBuffer rvdev hdr idx).2.2)

/-- `rpmsg_virtio_release_tx_buffer` on the buffer whose header is at
`hdr`. -/
def rpmsgVirtioReleaseTxBuffer (mem : TxMem) (hdr : UInt64) : TxMem :=
  let (last, reserved) :=
    rpmsgVirtioBufHeldDecTest (hdrReserved mem.io mem.shm hdr)
  let mem := { mem with shm := setHdrReserved mem.io mem.shm hdr reserved }
  if last then (mem.setIdx hdr (rpmsgBufIndex reserved)).listAddTail hdr
  else mem

/-! ## Reception -/

/-- What the reception functions use of `struct rpmsg_virtio_device`,
with the ring of its receive queue and the memory. -/
structure RxDevice where
  rvq : Virtqueue
  ring : Vring
  io : MetalIoRegion
  shm : Mem

/-- The role of the device. -/
def RxDevice.role (rvdev : RxDevice) : VirtioRole := rvdev.rvq.vqDev.role

/-- `rpmsg_virtio_get_rx_buffer`, with the results of
`rpmsg_virtio_get_tx_buffer`. -/
def rpmsgVirtioGetRxBuffer (rvdev : RxDevice) :
    Option (Option VqBuffer × RxDevice) :=
  match rvdev.role with
  | .driver =>
    (virtqueueGetBuffer rvdev.rvq rvdev.ring).map fun (got, rvq, ring) =>
      (got.bind fun g =>
          if g.cookie = 0 then none else some ⟨g.cookie, g.len, g.idx⟩,
        { rvdev with rvq := rvq, ring := ring })
  | .device =>
    let (got, rvq) := virtqueueGetAvailableBuffer rvdev.rvq rvdev.ring
    some (got.bind fun a =>
        if a.buffer = 0 then none else some ⟨a.buffer, a.len, a.availIdx⟩,
      { rvdev with rvq := rvq })

/-- `rpmsg_virtio_return_buffer`. -/
def rpmsgVirtioReturnBuffer (rvdev : RxDevice) (buffer : UInt64)
    (len : UInt32) (idx : UInt16) : Int × RxDevice :=
  match rvdev.role with
  | .driver =>
    let (status, rvq, ring) := virtqueueAddBuffer rvdev.rvq rvdev.ring
      (fun _ => ⟨buffer, len.toInt32⟩) 0 1 buffer
    (status, { rvdev with rvq := rvq, ring := ring })
  | .device =>
    let (status, rvq, ring) :=
      virtqueueAddConsumedBuffer rvdev.rvq rvdev.ring idx len
    (status, { rvdev with rvq := rvq, ring := ring })

/-- `rpmsg_virtio_release_rx_buffer_nolock`. -/
def rpmsgVirtioReleaseRxBufferNolock (rvdev : RxDevice) (hdr : UInt64) :
    Int × RxDevice :=
  let idx := rpmsgBufIndex (hdrReserved rvdev.io rvdev.shm hdr)
  let len := virtqueueGetBufferLength rvdev.ring idx
  rpmsgVirtioReturnBuffer rvdev hdr len idx

/-- `rpmsg_virtio_hold_rx_buffer`. -/
def rpmsgVirtioHoldRxBuffer (rvdev : RxDevice) (hdr : UInt64) : RxDevice :=
  { rvdev with
    shm := setHdrReserved rvdev.io rvdev.shm hdr
      (rpmsgBufHeldInc (hdrReserved rvdev.io rvdev.shm hdr)) }

/-- `rpmsg_virtio_release_rx_buffer`, which is also the second locked
part of a round of `rpmsg_virtio_rx_callback`: the status of the return
when the buffer went back, and the device. -/
def rpmsgVirtioReleaseRxBuffer (rvdev : RxDevice) (hdr : UInt64) :
    Option Int × RxDevice :=
  let (last, reserved) :=
    rpmsgVirtioBufHeldDecTest (hdrReserved rvdev.io rvdev.shm hdr)
  let rvdev := { rvdev with
    shm := setHdrReserved rvdev.io rvdev.shm hdr reserved }
  if last then
    let (status, rvdev) := rpmsgVirtioReleaseRxBufferNolock rvdev hdr
    (some status, { rvdev with rvq := (virtqueueKick rvdev.rvq rvdev.ring).2 })
  else (none, rvdev)

/-- The first locked part of a round of `rpmsg_virtio_rx_callback`: the
buffer received, its index and one hold noted in its header. -/
def rxTakeBuffer (rvdev : RxDevice) : Option (Option VqBuffer × RxDevice) :=
  (rpmsgVirtioGetRxBuffer rvdev).map fun (b, rvdev) =>
    match b with
    | none => (none, rvdev)
    | some b =>
      let shm := setHdrReserved rvdev.io rvdev.shm b.data b.idx.toUInt32
      let shm := setHdrReserved rvdev.io shm b.data
        (rpmsgBufHeldInc (hdrReserved rvdev.io shm b.data))
      (some b, { rvdev with shm := shm })

end OpenAmp.Rpmsg
