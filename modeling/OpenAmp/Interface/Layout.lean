import OpenAmp.Lib.Align
import OpenAmp.Remoteproc.Queues

/-!
# The layout of the shared memory

`openamp_dev_create` of `operation_interface.c` maps the shared memory and
divides it: a status byte, the tx ring, the rx ring, and what is left for
the buffers. The rings get `(num + 1) * 0x20` bytes each, which is not what
`vring_size` says, and what is left is a difference that is not checked.
-/

namespace OpenAmp.Interface

open OpenAmp.Lib OpenAmp.Metal OpenAmp.Virtio OpenAmp.Rpmsg
open OpenAmp.Remoteproc

/-! ## Sizes -/

/-- The value of a `size_t` assigned to an `int`. -/
def intOfSize (size : UInt64) : Int32 := size.toUInt32.toInt32

/-- The value of an `int` in an expression of type `size_t`. -/
def sizeOfInt (size : Int32) : UInt64 := size.toInt64.toUInt64

/-- `size += n` on an `int`, with an `n` of type `size_t`. -/
def addSize (size : Int32) (n : UInt64) : Int32 :=
  intOfSize (sizeOfInt size + n)

/-- `vring_size`. The sum is kept in an `int` and every summand is a
`size_t`. -/
def vringSize (num : UInt32) (align : UInt64) : Int32 :=
  let size := intOfSize (num.toUInt64 * 16)
  let size := addSize size (4 + num.toUInt64 * 2 + 2)
  let size := intOfSize (alignUp (sizeOfInt size) align)
  addSize size (4 + num.toUInt64 * 8 + 2)

/-- `ALIGN` of `operation_interface.h`. -/
def ALIGN (size : UInt64) (align : UInt32) : UInt64 :=
  alignUp size align.toUInt64

/-- The bytes `openamp_dev_create` leaves for a ring. -/
def ringSpace (num : UInt32) : UInt64 := ((num + 1) * 0x20).toUInt64

/-! ## The device -/

/-- `secondary_config`, without the path of the firmware. -/
structure SecondaryConfig where
  cpuId : Int32
  entry : Int64
  irqId : Int32
deriving DecidableEq, Repr

/-- `struct virtio_vring_info` with the place of its ring. -/
structure PlacedVring where
  vaddr : UInt64
  align : UInt32
  info : VringInfo
deriving DecidableEq, Repr

/-- `struct openamp_virtio_device`: what the caller fills in, and what
`openamp_dev_create` does. `initStatus` is the result of
`rpmsg_init_vdev`, which the code drops, and `shpool` the pool that
`rpmsg_init_vdev` is given. -/
structure OpenampVirtioDevice where
  devName : Option String
  shmMpaddr : UInt64
  shmPhysaddr : UInt64
  shmSize : UInt32
  secondaryConfig : SecondaryConfig
  txNum : UInt32
  rxNum : UInt32
  alignSize : UInt32
  vdevStatusSize : UInt32
  fd : Int := 0
  shmVaddr : UInt64 := 0
  vringTx : UInt64 := 0
  vringRx : UInt64 := 0
  vringBuf : UInt64 := 0
  vringSize : UInt32 := 0
  shmPhysmap : UInt64 := 0
  ioRegion : MetalIoRegion := metalIoInit 0 none 0 0
  vring0 : PlacedVring := ⟨0, 0, ⟨0, 0, none⟩⟩
  vring1 : PlacedVring := ⟨0, 0, ⟨0, 0, none⟩⟩
  shpool : ShmPool := ⟨0, 0, 0⟩
  initStatus : Int := 0

/-- The requests made of the driver of the secondary processor. -/
inductive IoctlRequest where
  | loadFirmware
  | irqInstall
  | cpuDownline
  | cpuOnline
deriving DecidableEq, Repr

/-- What the system answers to the calls of `openamp_dev_create`.
`allocate i` tells whether there is memory for queue `i`. -/
structure HostCalls where
  openDev : Int
  ioctl : IoctlRequest → Int
  mmap : UInt64
  allocate : Nat → Bool
  pthreadCreate : Int

def MAP_FAILED : UInt64 := 0xFFFFFFFFFFFFFFFF
def EPERM : Int := 1
def DEFAULT_PAGE_SHIFT : UInt64 := 0xFFFFFFFF

/-- `RPMSG_VIRTIO_DEFAULT_CONFIG`. -/
def RPMSG_VIRTIO_DEFAULT_CONFIG : RpmsgVirtioConfig := ⟨512, 512, false⟩

/-- `virtio_create_virtqueues` of a device without a function of its own
for it. The results of `metal_io_block_set` are dropped, and
`virtqueue_create` checks nothing in this build. -/
def virtioCreateVirtqueues (vringsNum nvqs : Nat) : Int :=
  if vringsNum < nvqs then ERROR_VQUEUE_INVLD_PARAM else 0

/-- `rpmsg_init_vdev` for the device of `openamp_dev_create`, which is the
driver; its result. -/
def rpmsgInitVdev (shmIo : MetalIoRegion) (shpool : ShmPool)
    (vrings : List VringInfo) : Int :=
  let args : InitArgs := ⟨some shmIo, some (shpool, shpool),
    some RPMSG_VIRTIO_DEFAULT_CONFIG, fun _ => true⟩
  let status := rpmsgInitChecks .driver args
  if status ≠ RPMSG_SUCCESS then status
  else
    let status := virtioCreateVirtqueues vrings.length RPMSG_NUM_VRINGS
    if status ≠ RPMSG_SUCCESS then status
    else if rxBuffersServed .driver args vrings = false then
      RPMSG_ERR_NO_BUFF
    else RPMSG_SUCCESS

/-- `rpmsg_virtio_init_shm_pool`, which leaves the pool as it is where
there is nothing to put into it. -/
def initShmPool (shpool : ShmPool) (shb size : UInt64) : ShmPool :=
  if shb = 0 ∨ size = 0 then shpool else rpmsgVirtioInitShmPool shb size

/-! ## Creation -/

/-- The checks of `openamp_dev_create` on what the caller filled in. -/
def OpenampVirtioDevice.accepted (dev : OpenampVirtioDevice) : Bool :=
  !(dev.devName.isNone || dev.shmMpaddr = 0 || dev.shmPhysaddr = 0 ||
    dev.shmSize = 0) &&
  !(dev.secondaryConfig.cpuId < 0 || dev.secondaryConfig.entry = 0 ||
    dev.secondaryConfig.irqId < 0) &&
  !(dev.txNum = 0 || dev.rxNum = 0) &&
  !(dev.vdevStatusSize = 0 || dev.alignSize = 0)

/-- The division of the memory, from the mapping to `metal_io_init`. -/
def OpenampVirtioDevice.divide (dev : OpenampVirtioDevice)
    (shmVaddr : UInt64) : OpenampVirtioDevice :=
  let vringTx := ALIGN (shmVaddr + dev.vdevStatusSize.toUInt64) dev.alignSize
  let vringRx := ALIGN (vringTx + ringSpace dev.txNum) dev.alignSize
  let vringBuf := ALIGN (vringRx + ringSpace dev.rxNum) dev.alignSize
  let shmPhysmap := dev.shmPhysaddr + (vringBuf - shmVaddr)
  { dev with
    shmVaddr := shmVaddr
    vringTx := vringTx
    vringRx := vringRx
    vringBuf := vringBuf
    vringSize := (shmVaddr + dev.shmSize.toUInt64 - vringBuf).toUInt32
    shmPhysmap := shmPhysmap
    ioRegion := metalIoInit vringBuf (some fun _ => shmPhysmap)
      (dev.shmSize - dev.vdevStatusSize).toUInt64 DEFAULT_PAGE_SHIFT }

/-- The rings and the pool over a divided memory, and the rpmsg device
over them. -/
def OpenampVirtioDevice.setUp (dev : OpenampVirtioDevice) :
    OpenampVirtioDevice :=
  let info0 := { dev.vring0.info with numDescs := dev.txNum, vq := some 0 }
  let info1 := { dev.vring1.info with numDescs := dev.rxNum, vq := some 1 }
  let shpool := initShmPool dev.shpool dev.vringBuf dev.vringSize.toUInt64
  { dev with
    vring0 := ⟨dev.vringTx, 4, info0⟩
    vring1 := ⟨dev.vringRx, 4, info1⟩
    shpool := shpool
    initStatus := rpmsgInitVdev dev.ioRegion shpool [info0, info1] }

/-- `openamp_dev_create`; without a result where it ends the program. A
store behind the mapping is not seen to fail: that depends on the page the
mapping ends in. -/
def openampDevCreate (host : HostCalls) (dev : OpenampVirtioDevice) :
    Option (Int × OpenampVirtioDevice) :=
  if dev.accepted = false then some (-1, dev)
  else
    let dev := { dev with fd := host.openDev }
    if dev.fd < 0 ∨ host.ioctl .loadFirmware < 0 ∨
        host.ioctl .irqInstall < 0 then some (-1, dev)
    else if host.mmap = MAP_FAILED then
      some (-EPERM, { dev with shmVaddr := host.mmap })
    else
      let dev := dev.divide host.mmap
      if host.allocate 0 = false ∨ host.allocate 1 = false then some (-1, dev)
      else
        let dev := dev.setUp
        if host.pthreadCreate ≠ 0 then none
        else if host.ioctl .cpuDownline < 0 ∨ host.ioctl .cpuOnline < 0 then
          some (-1, dev)
        else some (0, dev)

/-! ## What the layout should be -/

/-- The bytes of a ring of `num` entries, as a `size_t`. -/
def ringBytes (num : UInt32) : Nat := (sizeOfInt (vringSize num 4)).toNat

namespace OpenampVirtioDevice

/-- The mapped memory. -/
def mapping (dev : OpenampVirtioDevice) : Span :=
  ⟨dev.shmVaddr.toNat, dev.shmSize.toNat⟩

/-- The status byte, the rings and the buffer pool. -/
def parts (dev : OpenampVirtioDevice) : List Span :=
  [⟨dev.shmVaddr.toNat, 1⟩,
   ⟨dev.vringTx.toNat, ringBytes dev.txNum⟩,
   ⟨dev.vringRx.toNat, ringBytes dev.rxNum⟩,
   ⟨dev.vringBuf.toNat, dev.vringSize.toNat⟩]

/-- The memory is divided among its parts, and `rpmsg_init_vdev`
succeeded on them. -/
structure LaidOut (dev : OpenampVirtioDevice) : Prop where
  apart : dev.parts.Pairwise Span.Disjoint
  within : ∀ s ∈ dev.parts, s.Within dev.mapping
  base : dev.shpool.base = dev.vringBuf
  size : dev.shpool.size = dev.vringSize.toUInt64
  init : dev.initStatus = RPMSG_SUCCESS

/-- The bytes the buffers of the tx ring take, and at least one. -/
def poolNeed (dev : OpenampVirtioDevice) : Nat :=
  max 1 (512 * dev.txNum.toUInt16.toNat)

/-- Each ring, as `vring_size` has it, fits into the space left for it,
and the buffers into what remains of the memory at `shmVaddr`. -/
def LargeEnough (dev : OpenampVirtioDevice) (shmVaddr : UInt64) : Prop :=
  let tx := ALIGN (shmVaddr + dev.vdevStatusSize.toUInt64) dev.alignSize
  let rx := ALIGN (tx + ringSpace dev.txNum) dev.alignSize
  let buf := ALIGN (rx + ringSpace dev.rxNum) dev.alignSize
  tx.toNat + ringBytes dev.txNum ≤ rx.toNat ∧
    rx.toNat + ringBytes dev.rxNum ≤ buf.toNat ∧
    buf.toNat + dev.poolNeed ≤ shmVaddr.toNat + dev.shmSize.toNat

end OpenampVirtioDevice

/-! ## The size of a ring -/

/-- A size that went through an `int`: the low half, with its sign. -/
theorem toNat_sizeOfInt_intOfSize (size : UInt64) :
    (sizeOfInt (intOfSize size)).toNat = size.toNat % 2 ^ 32 +
      if 2 ^ 31 ≤ size.toNat % 2 ^ 32 then 2 ^ 64 - 2 ^ 32 else 0 := by
  have hbits : (sizeOfInt (intOfSize size)).toNat =
      (size.toUInt32.toBitVec.signExtend 64).toNat := rfl
  have hnat : size.toUInt32.toBitVec.toNat = size.toNat % 2 ^ 32 := rfl
  rw [hbits, BitVec.toNat_signExtend, BitVec.toNat_setWidth,
    BitVec.msb_eq_decide, hnat]
  have hlt : size.toNat % 2 ^ 32 < 2 ^ 32 := Nat.mod_lt _ (by decide)
  rw [Nat.mod_eq_of_lt (Nat.lt_trans hlt (by decide))]
  simp only [decide_eq_true_eq, Nat.add_one_sub_one]

theorem toNat_sizeOfInt_mod_four (size : UInt64) :
    (sizeOfInt (intOfSize size)).toNat % 4 = size.toNat % 4 := by
  rw [toNat_sizeOfInt_intOfSize]
  split <;> omega

theorem toNat_sizeOfInt_of_lt {size : UInt64} (h : size.toNat < 2 ^ 31) :
    (sizeOfInt (intOfSize size)).toNat = size.toNat := by
  rw [toNat_sizeOfInt_intOfSize, if_neg (by omega)]
  omega

theorem toNat_addSize_of_lt {size : Int32} {n : UInt64}
    (h : (sizeOfInt size).toNat + n.toNat < 2 ^ 31) :
    (sizeOfInt (addSize size n)).toNat = (sizeOfInt size).toNat + n.toNat := by
  have hsum : (sizeOfInt size + n).toNat = (sizeOfInt size).toNat + n.toNat := by
    rw [UInt64.toNat_add]
    omega
  rw [addSize, toNat_sizeOfInt_of_lt (by omega), hsum]

/-- The bytes of a ring are two more than a multiple of four, so that no
ring is empty. -/
theorem ringBytes_pos (num : UInt32) : 0 < ringBytes num := by
  simp only [ringBytes, vringSize]
  generalize addSize _ (4 + num.toUInt64 * 2 + 2) = size
  have hpad : (sizeOfInt (intOfSize (alignUp (sizeOfInt size) 4))).toNat % 4 =
      0 := by
    rw [toNat_sizeOfInt_mod_four]
    exact alignUp_mod (k := 2) rfl _
  have h : (sizeOfInt (addSize (intOfSize (alignUp (sizeOfInt size) 4))
      (4 + num.toUInt64 * 8 + 2))).toNat % 4 = 2 := by
    rw [addSize, toNat_sizeOfInt_mod_four]
    simp only [UInt64.toNat_add, UInt64.toNat_mul, UInt64.reduceToNat]
    omega
  omega

/-- A ring of less than 2 GiB is no longer than the space left for it. -/
theorem ringBytes_le {num : UInt32} (h : num.toNat ≤ 82595524) :
    ringBytes num ≤ (ringSpace num).toNat := by
  have hspace : (ringSpace num).toNat = (num.toNat + 1) * 32 := by
    simp only [ringSpace, UInt32.toNat_toUInt64, UInt32.toNat_mul,
      UInt32.toNat_add, UInt32.reduceToNat]
    omega
  have hdesc : (num.toUInt64 * 16).toNat = num.toNat * 16 := by
    simp only [UInt64.toNat_mul, UInt32.toNat_toUInt64, UInt64.reduceToNat]
    omega
  have havail : (4 + num.toUInt64 * 2 + 2).toNat = num.toNat * 2 + 6 := by
    simp only [UInt64.toNat_add, UInt64.toNat_mul, UInt32.toNat_toUInt64,
      UInt64.reduceToNat]
    omega
  have hused : (4 + num.toUInt64 * 8 + 2).toNat = num.toNat * 8 + 6 := by
    simp only [UInt64.toNat_add, UInt64.toNat_mul, UInt32.toNat_toUInt64,
      UInt64.reduceToNat]
    omega
  -- the sum of `vring_size`, one assignment at a time
  simp only [ringBytes, vringSize]
  generalize hs₁ : intOfSize (num.toUInt64 * 16) = s₁
  generalize hs₂ : addSize s₁ (4 + num.toUInt64 * 2 + 2) = s₂
  generalize hs₃ : intOfSize (alignUp (sizeOfInt s₂) 4) = s₃
  have h₁ : (sizeOfInt s₁).toNat = num.toNat * 16 := by
    rw [← hs₁, toNat_sizeOfInt_of_lt (by omega), hdesc]
  have h₂ : (sizeOfInt s₂).toNat = num.toNat * 18 + 6 := by
    rw [← hs₂, toNat_addSize_of_lt (by omega)]
    omega
  have h₃ : (sizeOfInt s₃).toNat < num.toNat * 18 + 10 := by
    have hfour : (4 : UInt64).toNat = 4 := rfl
    have hpad := alignUp_bounds (by omega : 0 < (4 : UInt64).toNat)
      (by omega : (sizeOfInt s₂).toNat + (4 : UInt64).toNat ≤ 2 ^ 64)
    rw [← hs₃, toNat_sizeOfInt_of_lt (by omega)]
    omega
  rw [toNat_addSize_of_lt (by omega)]
  omega

/-! ## The pool -/

/-- A pool serves a number of buffers exactly if it has the bytes. -/
theorem poolServes_iff {io : MetalIoRegion} {bufSize : UInt32}
    (hsize : bufSize ≠ 0) (k : Nat) : ∀ {pool : ShmPool}, PoolMapped io pool →
    (poolServes bufSize k pool = true ↔
      k * bufSize.toNat ≤ pool.avail.toNat) := by
  have hne : bufSize.toUInt64 ≠ 0 := fun h0 =>
    hsize (UInt32.toNat_inj.mp (congrArg UInt64.toNat h0))
  have hnat : bufSize.toUInt64.toNat = bufSize.toNat :=
    UInt32.toNat_toUInt64 _
  induction k with
  | zero =>
    intro pool _
    simp [poolServes]
  | succ k ih =>
    intro pool hpool
    simp only [poolServes]
    by_cases hle : bufSize.toUInt64 ≤ pool.avail
    · obtain ⟨p, hp, hget, -, hnext⟩ := hpool.getBuffer hne hle
      have hav := UInt64.le_iff_toNat_le.mp hle
      simp only [hget, hp, ne_eq, not_false_eq_true, decide_true,
        Bool.true_and]
      rw [ih hnext, UInt64.toNat_sub_of_le _ _ hle, Nat.add_one_mul]
      omega
    · have hlt := UInt64.not_le.mp hle
      have hav := UInt64.lt_iff_toNat_lt.mp hlt
      simp only [rpmsgVirtioShmPoolGetBuffer, hlt, or_true, if_true, ne_eq,
        not_true_eq_false, decide_false, Bool.false_and, Bool.false_eq_true,
        false_iff, Nat.add_one_mul]
      omega

/-- `rpmsg_init_vdev` succeeds exactly if there is a pool and it has a
buffer for each entry of the first ring. -/
theorem rpmsgInitVdev_eq_success {io : MetalIoRegion} {pool : ShmPool}
    {info0 info1 : VringInfo} :
    rpmsgInitVdev io pool [info0, info1] = RPMSG_SUCCESS ↔
      pool.size ≠ 0 ∧
        poolServes 512 info0.numDescs.toUInt16.toNat pool = true := by
  have hchecks : rpmsgInitChecks .driver ⟨some io, some (pool, pool),
      some RPMSG_VIRTIO_DEFAULT_CONFIG, fun _ => true⟩ =
        if pool.size = 0 then RPMSG_ERR_NO_BUFF else RPMSG_SUCCESS := by
    simp [rpmsgInitChecks, RPMSG_VIRTIO_DEFAULT_CONFIG]
  have hqueues : virtioCreateVirtqueues [info0, info1].length
      RPMSG_NUM_VRINGS = RPMSG_SUCCESS := rfl
  have hserved : rxBuffersServed .driver ⟨some io, some (pool, pool),
      some RPMSG_VIRTIO_DEFAULT_CONFIG, fun _ => true⟩ [info0, info1] =
        poolServes 512 info0.numDescs.toUInt16.toNat pool := rfl
  have hne : RPMSG_ERR_NO_BUFF ≠ RPMSG_SUCCESS := by decide
  simp only [rpmsgInitVdev, hchecks, hqueues, hserved]
  by_cases hsize : pool.size = 0
  · simp only [hsize, if_true, ne_eq, hne, not_false_eq_true,
      not_true_eq_false, false_and]
  · cases poolServes 512 info0.numDescs.toUInt16.toNat pool with
    | false => simp [hsize, hne]
    | true => simp [hsize]

/-! ## Where the parts lie -/

/-- A device that was created is its memory divided and set up. -/
theorem openampDevCreate_eq_zero {host : HostCalls}
    {dev dev' : OpenampVirtioDevice}
    (h : openampDevCreate host dev = some (0, dev')) :
    dev.accepted = true ∧
      dev' = ({ dev with fd := host.openDev }.divide host.mmap).setUp := by
  unfold openampDevCreate at h
  split at h
  · cases h
  next haccepted =>
  refine ⟨by simpa using haccepted, ?_⟩
  dsimp only at h
  split at h
  · cases h
  split at h
  · cases h
  split at h
  · cases h
  split at h
  · cases h
  split at h
  · cases h
  · cases h
    rfl

/-- The parts come one after another, each from the end of the space of
the one before, and the pool ends with the mapping if it begins in it. -/
structure OpenampVirtioDevice.Divided (dev : OpenampVirtioDevice) : Prop where
  tx : dev.shmVaddr.toNat < dev.vringTx.toNat
  rx : dev.vringTx.toNat + (ringSpace dev.txNum).toNat ≤ dev.vringRx.toNat
  buf : dev.vringRx.toNat + (ringSpace dev.rxNum).toNat ≤ dev.vringBuf.toNat
  bound : dev.vringBuf.toNat < 2 ^ 63 + 2 ^ 35
  pool : dev.vringBuf.toNat ≤ dev.shmVaddr.toNat + dev.shmSize.toNat →
    dev.vringBuf.toNat + dev.vringSize.toNat =
      dev.shmVaddr.toNat + dev.shmSize.toNat

/-- An address after `n` bytes, rounded up, far from the end of the address
space. -/
theorem ALIGN_add_bounds {x n : UInt64} {align : UInt32} (ha : align ≠ 0)
    (hx : x.toNat < 2 ^ 63 + 2 ^ 34) (hn : n.toNat < 2 ^ 32) :
    x.toNat + n.toNat ≤ (ALIGN (x + n) align).toNat ∧
      (ALIGN (x + n) align).toNat < x.toNat + 2 ^ 33 := by
  have hsum : (x + n).toNat = x.toNat + n.toNat := by
    rw [UInt64.toNat_add]
    omega
  have hnat : align.toUInt64.toNat = align.toNat := UInt32.toNat_toUInt64 _
  have hpos : align.toNat ≠ 0 := fun h0 => ha (UInt32.toNat_inj.mp h0)
  have hlt := align.toNat_lt
  have h := alignUp_bounds (by omega : 0 < align.toUInt64.toNat)
    (by omega : (x + n).toNat + align.toUInt64.toNat ≤ 2 ^ 64)
  rw [ALIGN]
  omega

theorem divide_divided {dev : OpenampVirtioDevice} {shmVaddr : UInt64}
    (haccepted : dev.accepted = true)
    (hlow : shmVaddr.toNat + dev.shmSize.toNat ≤ 2 ^ 63) :
    (dev.divide shmVaddr).Divided := by
  simp only [OpenampVirtioDevice.accepted, Bool.and_eq_true,
    Bool.not_eq_true', Bool.or_eq_false_iff, decide_eq_false_iff_not]
    at haccepted
  obtain ⟨-, hstatus, ha⟩ := haccepted
  have hpos : dev.vdevStatusSize.toUInt64.toNat ≠ 0 := fun h0 =>
    hstatus (UInt32.toNat_inj.mp h0)
  have hword : ∀ n : UInt32, n.toUInt64.toNat < 2 ^ 32 := fun n =>
    n.toNat_lt
  simp only [OpenampVirtioDevice.divide]
  generalize hetx : ALIGN (shmVaddr + dev.vdevStatusSize.toUInt64)
    dev.alignSize = tx
  generalize herx : ALIGN (tx + ringSpace dev.txNum) dev.alignSize = rx
  generalize hebuf : ALIGN (rx + ringSpace dev.rxNum) dev.alignSize = buf
  -- each boundary is the one before plus an aligned 32-bit space
  have htx := ALIGN_add_bounds ha (by omega : shmVaddr.toNat < 2 ^ 63 + 2 ^ 34)
    (hword dev.vdevStatusSize)
  rw [hetx] at htx
  have hrx := ALIGN_add_bounds ha (by omega : tx.toNat < 2 ^ 63 + 2 ^ 34)
    (hword ((dev.txNum + 1) * 0x20))
  rw [← ringSpace, herx] at hrx
  have hbuf := ALIGN_add_bounds ha (by omega : rx.toNat < 2 ^ 63 + 2 ^ 34)
    (hword ((dev.rxNum + 1) * 0x20))
  rw [← ringSpace, hebuf] at hbuf
  refine ⟨?_, ?_, ?_, ?_, ?_⟩
  · dsimp only
    omega
  · dsimp only
    omega
  · dsimp only
    omega
  · dsimp only
    omega
  · dsimp only
    intro hle
    -- `vring_size` is the difference cut to 32 bits
    have hsize : dev.shmSize.toUInt64.toNat = dev.shmSize.toNat :=
      UInt32.toNat_toUInt64 _
    have hlt := dev.shmSize.toNat_lt
    rw [UInt64.toNat_toUInt32, UInt64.toNat_sub, UInt64.toNat_add]
    omega

section SetUp

variable {dev : OpenampVirtioDevice}

theorem OpenampVirtioDevice.Divided.vringBuf_ne (h : dev.Divided) :
    dev.vringBuf ≠ 0 := by
  intro h0
  have htx := h.tx
  have hrx := h.rx
  have hbuf := h.buf
  rw [h0, UInt64.toNat_zero] at hbuf
  omega

theorem setUp_shpool (h : dev.Divided) (hne : dev.vringSize ≠ 0) :
    dev.setUp.shpool =
      rpmsgVirtioInitShmPool dev.vringBuf dev.vringSize.toUInt64 := by
  have hsize : dev.vringSize.toUInt64 ≠ 0 := fun h0 =>
    hne (UInt32.toNat_inj.mp (congrArg UInt64.toNat h0))
  simp only [OpenampVirtioDevice.setUp, initShmPool, h.vringBuf_ne, hsize,
    or_self, if_false]

/-- `rpmsg_init_vdev` succeeds on the pool the device was given exactly if
the pool has the bytes. -/
theorem setUp_init_iff (h : dev.Divided) :
    (dev.setUp.shpool.size = dev.vringSize.toUInt64 ∧
      dev.setUp.initStatus = RPMSG_SUCCESS) ↔
        dev.poolNeed ≤ dev.vringSize.toNat := by
  have hinit : dev.setUp.initStatus = RPMSG_SUCCESS ↔
      dev.setUp.shpool.size ≠ 0 ∧
        poolServes 512 dev.txNum.toUInt16.toNat dev.setUp.shpool = true :=
    rpmsgInitVdev_eq_success
  rw [hinit, OpenampVirtioDevice.poolNeed]
  by_cases hne : dev.vringSize = 0
  · -- the pool is not touched, and an empty one is refused
    rw [hne]
    constructor
    · rintro ⟨hsize, hsome, -⟩
      exact absurd hsize hsome
    · intro hle
      rw [UInt32.toNat_zero] at hle
      omega
  · have hnat : dev.vringSize.toUInt64.toNat = dev.vringSize.toNat :=
      UInt32.toNat_toUInt64 _
    have hpos : dev.vringSize.toNat ≠ 0 := fun h0 =>
      hne (UInt32.toNat_inj.mp h0)
    have hlt := dev.vringSize.toNat_lt
    have hbound := h.bound
    have hmapped : PoolMapped (metalIoInit dev.vringBuf none 0 0)
        dev.setUp.shpool := by
      rw [setUp_shpool h hne]
      refine ⟨h.vringBuf_ne, UInt64.le_refl _, UInt64.le_refl _, ?_⟩
      simp only [rpmsgVirtioInitShmPool]
      omega
    have hserves := poolServes_iff (by decide : (512 : UInt32) ≠ 0)
      dev.txNum.toUInt16.toNat hmapped
    rw [hserves, setUp_shpool h hne]
    have hsize : dev.vringSize.toUInt64 ≠ 0 := fun h0 =>
      hpos (congrArg UInt64.toNat h0)
    simp only [rpmsgVirtioInitShmPool, hnat, hsize, ne_eq, not_false_eq_true,
      true_and, UInt32.reduceToNat]
    omega

end SetUp

/-- Over a divided memory the device is as it should be exactly if the
three spaces suffice. -/
theorem setUp_laidOut_iff {dev : OpenampVirtioDevice} (h : dev.Divided) :
    dev.setUp.LaidOut ↔
      dev.vringTx.toNat + ringBytes dev.txNum ≤ dev.vringRx.toNat ∧
      dev.vringRx.toNat + ringBytes dev.rxNum ≤ dev.vringBuf.toNat ∧
      dev.vringBuf.toNat + dev.poolNeed ≤
        dev.shmVaddr.toNat + dev.shmSize.toNat := by
  have hinit := setUp_init_iff h
  have htx := h.tx
  have hrx := h.rx
  have hbuf := h.buf
  have hringTx := ringBytes_pos dev.txNum
  have hringRx := ringBytes_pos dev.rxNum
  constructor
  · rintro ⟨hapart, hwithin, hbase, hsize, hstatus⟩
    have hneed := hinit.mp ⟨hsize, hstatus⟩
    have hsome : 1 ≤ dev.poolNeed := Nat.le_max_left _ _
    obtain ⟨-, hapart⟩ := List.pairwise_cons.mp hapart
    obtain ⟨hapartTx, hapart⟩ := List.pairwise_cons.mp hapart
    obtain ⟨hapartRx, -⟩ := List.pairwise_cons.mp hapart
    -- the boundaries come in this order, so of the two ways to be disjoint
    -- only one is left
    have hfitTx : dev.vringTx.toNat + ringBytes dev.txNum ≤
        dev.vringRx.toNat ∨ dev.vringRx.toNat + ringBytes dev.rxNum ≤
          dev.vringTx.toNat := hapartTx _ List.mem_cons_self
    have hfitRx : dev.vringRx.toNat + ringBytes dev.rxNum ≤
        dev.vringBuf.toNat ∨ dev.vringBuf.toNat + dev.vringSize.toNat ≤
          dev.vringRx.toNat := hapartRx _ List.mem_cons_self
    have hin : dev.shmVaddr.toNat ≤ dev.vringBuf.toNat ∧
        dev.vringBuf.toNat + dev.vringSize.toNat ≤
          dev.shmVaddr.toNat + dev.shmSize.toNat :=
      hwithin ⟨dev.vringBuf.toNat, dev.vringSize.toNat⟩
        (by simp [OpenampVirtioDevice.parts, OpenampVirtioDevice.setUp])
    omega
  · rintro ⟨hfitTx, hfitRx, hfitBuf⟩
    have hpool := h.pool (by omega)
    obtain ⟨hsize, hstatus⟩ := hinit.mpr (by omega)
    have hne : dev.vringSize ≠ 0 := by
      intro h0
      have hsome : 1 ≤ dev.poolNeed := Nat.le_max_left _ _
      rw [h0, UInt32.toNat_zero] at hpool
      omega
    refine ⟨?_, ?_, ?_, hsize, hstatus⟩
    · simp only [OpenampVirtioDevice.parts, OpenampVirtioDevice.setUp,
        List.pairwise_cons, List.mem_cons, List.not_mem_nil, or_false,
        forall_eq_or_imp, forall_eq, Span.Disjoint]
      refine ⟨⟨.inl ?_, .inl ?_, .inl ?_⟩, ⟨.inl hfitTx, .inl ?_⟩,
        .inl hfitRx, nofun, .nil⟩ <;> omega
    · simp only [OpenampVirtioDevice.parts, OpenampVirtioDevice.setUp,
        OpenampVirtioDevice.mapping, List.mem_cons, List.not_mem_nil, or_false,
        forall_eq_or_imp, forall_eq, Span.Within]
      omega
    · rw [setUp_shpool h hne]
      rfl

/-- Where the rings are below 2 GiB only the buffers count. -/
theorem largeEnough_iff_buffers {dev : OpenampVirtioDevice}
    {shmVaddr : UInt64} (h : (dev.divide shmVaddr).Divided)
    (htx : dev.txNum.toNat ≤ 82595524) (hrx : dev.rxNum.toNat ≤ 82595524) :
    dev.LargeEnough shmVaddr ↔
      (dev.divide shmVaddr).vringBuf.toNat + dev.poolNeed ≤
        shmVaddr.toNat + dev.shmSize.toNat := by
  constructor
  · rintro ⟨-, -, hfitBuf⟩
    exact hfitBuf
  · intro hfitBuf
    refine ⟨Nat.le_trans ?_ h.rx, Nat.le_trans ?_ h.buf, hfitBuf⟩
    · exact Nat.add_le_add_left (ringBytes_le htx) _
    · exact Nat.add_le_add_left (ringBytes_le hrx) _

/-- **The shared memory is divided as it should be**, and the rpmsg device
comes up on it, exactly if the memory is large enough. The mapping of a
process lies in the lower half of the address space. -/
theorem layout_ok_iff {host : HostCalls} {dev dev' : OpenampVirtioDevice}
    (hcreate : openampDevCreate host dev = some (0, dev'))
    (hlow : host.mmap.toNat + dev.shmSize.toNat ≤ 2 ^ 63) :
    dev'.LaidOut ↔ dev.LargeEnough host.mmap := by
  obtain ⟨haccepted, rfl⟩ := openampDevCreate_eq_zero hcreate
  exact setUp_laidOut_iff (divide_divided haccepted hlow)

/-- The system serves every call and maps the memory at `0x10000`. -/
def quietHost : HostCalls where
  openDev := 3
  ioctl := fun _ => 0
  mmap := 0x10000
  allocate := fun _ => true
  pthreadCreate := 0

/-- A device with `num` entries in either ring and a memory of `size`
bytes. -/
def smallDev (num size : UInt32) : OpenampVirtioDevice where
  devName := some "/dev/openamp"
  shmMpaddr := 0x70000000
  shmPhysaddr := 0x70000000
  shmSize := size
  secondaryConfig := ⟨1, 0x80000000, 4⟩
  txNum := num
  rxNum := num
  alignSize := 4
  vdevStatusSize := 4

/-- What creation makes of it. -/
def createdDev (num size : UInt32) : OpenampVirtioDevice :=
  ({ smallDev num size with fd := 3 }.divide 0x10000).setUp

/-- With eight entries in either ring 64 KiB are enough. -/
theorem smallDev_laidOut :
    openampDevCreate quietHost (smallDev 8 0x10000) =
      some (0, createdDev 8 0x10000) ∧ (createdDev 8 0x10000).LaidOut := by
  have hcreate : openampDevCreate quietHost (smallDev 8 0x10000) =
      some (0, createdDev 8 0x10000) := rfl
  refine ⟨hcreate, (layout_ok_iff hcreate (by decide)).mpr ?_⟩
  refine ⟨?_, ?_, ?_⟩ <;> decide +kernel

/-- In 64 bytes the buffers begin behind the end of the mapping, for
almost 4 GiB, and the device comes up. -/
theorem small_memory_overrun :
    openampDevCreate quietHost (smallDev 1 64) = some (0, createdDev 1 64) ∧
      (createdDev 1 64).vringBuf = 0x10084 ∧
      (createdDev 1 64).vringSize = 0xFFFFFFBC ∧
      (createdDev 1 64).initStatus = RPMSG_SUCCESS ∧
      ¬ (createdDev 1 64).LaidOut := by
  refine ⟨rfl, rfl, rfl, by decide +kernel, fun h => ?_⟩
  have hin := h.within ⟨(createdDev 1 64).vringBuf.toNat,
    (createdDev 1 64).vringSize.toNat⟩ (by simp [OpenampVirtioDevice.parts])
  exact absurd hin.2 (by decide +kernel)

end OpenAmp.Interface
