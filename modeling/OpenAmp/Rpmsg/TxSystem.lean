import OpenAmp.Lib.Lifecycle
import OpenAmp.Rpmsg.Reclaimer
import OpenAmp.Virtio.Queue

/-!
# Transmission as a system

One side of a link with its application, and the peer at the other end
of the send queue. Every critical section and every stretch of code
between two of them is one step, so that any number of threads may be
anywhere in their calls; the peer's queue calls interleave with them.

A state keeps, beside the device and the peer's queue:

* `held` — the buffers that are with the application or with a thread on
  its way through a call;
* `taken` — what the peer took from the queue and has not returned (it
  is a virtio device when we are the driver);
* `log` — what happened to every buffer so far, for the statements.

The promises of the application are in the steps: it hands back only
buffers it holds, each at most once, and writes only their payload. An
honest peer follows the queue protocol and writes no byte of a buffer
that is held or reclaimed here; as a driver it offers buffers in shared
memory that do not overlap those still in the queue.
-/

namespace OpenAmp.Rpmsg

open OpenAmp.Lib OpenAmp.Metal OpenAmp.Virtio

/-- How far the thread that has a buffer has come with it: got from
`rpmsg_virtio_get_tx_buffer`, handed to the application with its index
noted, header written and about to be enqueued. -/
inductive TxPhase where
  | fetched
  | noted
  | sealed
deriving DecidableEq, Repr

structure TxHeld where
  buf : VqBuffer
  phase : TxPhase
deriving DecidableEq, Repr

/-- What can happen to a transmission buffer. `offered` is the peer's
giving it (back), `collected` a driver's taking the message out. -/
inductive TxEvent where
  | got
  | released
  | sent
  | collected
  | offered
deriving DecidableEq, Repr

/-- Which event may come after which in the life of a buffer. -/
def TxFollows : Option TxEvent → TxEvent → Prop
  | none, .got | some .released, .got | some .offered, .got => True
  | some .got, .released | some .got, .sent => True
  | some .sent, .offered | some .sent, .collected => True
  | none, .offered | some .collected, .offered => True
  | _, _ => False

/-- The pool is a piece of the mapped region, and the list head, which is
in private memory, is not inside it. -/
structure PoolOk (io : MetalIoRegion) (pool : ShmPool) (reclaimer : UInt64) :
    Prop extends PoolMapped io pool where
  outside : reclaimer.toNat < pool.base.toNat ∨
    pool.base.toNat + pool.size.toNat ≤ reclaimer.toNat

/-- What is fixed for a run. Every transmission buffer has at least
`room` bytes. -/
structure TxConfig where
  vq : VqConfig
  role : VirtioRole
  room : Nat
  h2rBufSize : UInt32
  shpool : ShmPool
  shm : Mem
  reclaimer : UInt64
  room_le : role = .driver → room ≤ h2rBufSize.toNat
  pool_ok : role = .driver → PoolOk vq.drvIo shpool reclaimer

/-- Our mapping of the shared region. -/
def TxConfig.io (cfg : TxConfig) : MetalIoRegion :=
  match cfg.role with
  | .driver => cfg.vq.drvIo
  | .device => cfg.vq.devIo

/-- Our address of a buffer that a driver at the other end has at `buf`. -/
def TxConfig.view (cfg : TxConfig) (buf : UInt64) : UInt64 :=
  metalIoPhysToVirt cfg.vq.devIo (metalIoVirtToPhys cfg.vq.drvIo buf)

structure TxSystem where
  us : TxDevice
  peer : Virtqueue
  held : List TxHeld
  taken : List AvailableBuffer
  log : List (UInt64 × TxEvent)

/-- As `rpmsg_init_vdev` leaves the device. -/
def TxSystem.init (cfg : TxConfig) : TxSystem :=
  let q := VqSystem.init cfg.vq
  let (svq, peer) := match cfg.role with
    | .driver => (q.drv, q.dev)
    | .device => (q.dev, q.drv)
  { us :=
      { h2rBufSize := cfg.h2rBufSize
        shpool := cfg.shpool
        svq := svq
        ring := virtqueueDisableCb svq q.ring
        mem := ⟨cfg.io, cfg.shm, cfg.reclaimer, cfg.reclaimer, cfg.reclaimer⟩ }
    peer := peer
    held := []
    taken := []
    log := [] }

/-! ## Where the buffers are -/

/-- The bytes of a buffer at `p`. -/
def TxSystem.span (s : TxSystem) (p : UInt64) (len : UInt32) : Span :=
  ⟨shmOff s.us.mem.io p, len.toNat⟩

/-- `rvdev->reclaimer`, walked in memory. -/
def TxSystem.reclaimed (s : TxSystem) : List UInt64 :=
  ringWalk s.us.mem.next s.us.mem.reclaimer (2 ^ 16) s.us.mem.reclaimer

/-- The length `rpmsg_virtio_get_tx_buffer` will give a reclaimed
buffer. -/
def TxSystem.reclaimedLen (s : TxSystem) (p : UInt64) : UInt32 :=
  match s.us.role with
  | .driver => s.us.h2rBufSize
  | .device => virtqueueGetBufferLength s.us.ring (s.us.mem.idx p)

/-- Address and length of the buffers queued in `svq`. A driver finds
them in its book-keeping; for a device they are the ones offered in the
available ring and the ones in the used ring. -/
def TxSystem.queued (s : TxSystem) : List (UInt64 × UInt32) :=
  match s.us.role with
  | .driver => s.us.svq.cookies.map fun c => (c, s.us.h2rBufSize)
  | .device =>
    (s.us.svq.availHeads s.us.ring ++ s.peer.usedHeads s.us.ring).map fun i =>
      (virtqueueGetBufferAddr s.us.svq s.us.ring i,
        virtqueueGetBufferLength s.us.ring i)

def TxSystem.heldSpans (s : TxSystem) : List Span :=
  s.held.map fun h => s.span h.buf.data h.buf.len

def TxSystem.reclaimedSpans (s : TxSystem) : List Span :=
  s.reclaimed.map fun p => s.span p (s.reclaimedLen p)

def TxSystem.queuedSpans (s : TxSystem) : List Span :=
  s.queued.map fun q => s.span q.1 q.2

/-- The unallocated remainder of the pool; only a driver has a pool. -/
def TxSystem.unallocated (s : TxSystem) : List Span :=
  match s.us.role with
  | .driver =>
    let pool := s.us.shpool
    [⟨shmOff s.us.mem.io (pool.base + pool.size - pool.avail),
      pool.avail.toNat⟩]
  | .device => []

/-- `rpmsg_virtio_get_tx_buffer` of a driver would now cut a buffer from
the pool: nothing is reclaimed, nothing has come back, a descriptor is
free and the pool is not used up. -/
def TxSystem.drawsPool (s : TxSystem) : Prop :=
  s.us.role = .driver ∧ s.us.mem.listFirst = none ∧
    s.us.svq.vqUsedConsIdx = s.us.ring.used.idx ∧ s.us.svq.vqFreeCnt ≠ 0 ∧
    s.us.h2rBufSize ≠ 0 ∧ s.us.h2rBufSize.toUInt64 ≤ s.us.shpool.avail

/-! ## Steps -/

/-- Which part of the system moves. -/
inductive TxAct where
  | get
  | note
  | write
  | header
  | enqueue
  | release
  | peer
deriving DecidableEq, Repr

/-- The device with other bytes in shared memory. -/
def TxDevice.withShm (rvdev : TxDevice) (shm : Mem) : TxDevice :=
  { rvdev with mem := { rvdev.mem with shm := shm } }

inductive TxStep (cfg : TxConfig) : TxSystem → TxAct → TxSystem → Prop where
  | get {s : TxSystem} {r : Option VqBuffer} {us : TxDevice}
      (h : rpmsgVirtioGetTxBuffer s.us = some (r, us)) :
      TxStep cfg s .get { s with
        us := us
        held := s.held ++ r.toList.map fun b => ⟨b, .fetched⟩
        log := s.log ++ r.toList.map fun b => (b.data, .got) }
  | note {s : TxSystem} {l₁ l₂ : List TxHeld} {b : VqBuffer}
      (hheld : s.held = l₁ ++ ⟨b, .fetched⟩ :: l₂) :
      TxStep cfg s .note { s with
        us := s.us.withShm (noteTxBuffer s.us.mem.io s.us.mem.shm b)
        held := l₁ ++ ⟨b, .noted⟩ :: l₂ }
  | write {s : TxSystem} {b : VqBuffer} {shm : Mem}
      (hheld : ⟨b, .noted⟩ ∈ s.held)
      (hpay : ∀ x, (x < shmOff s.us.mem.io b.data + RPMSG_HDR_SIZE ∨
        shmOff s.us.mem.io b.data + b.len.toNat ≤ x) → shm x = s.us.mem.shm x) :
      TxStep cfg s .write { s with us := s.us.withShm shm }
  | header {s : TxSystem} {l₁ l₂ : List TxHeld} {b : VqBuffer} (src dst : UInt32)
      (len : Int32) {idx : UInt16} {shm : Mem}
      (hheld : s.held = l₁ ++ ⟨b, .noted⟩ :: l₂)
      (h : initTxHdr s.us.mem.io s.us.mem.shm src dst b.data len = (idx, shm)) :
      TxStep cfg s .header { s with
        us := s.us.withShm shm
        held := l₁ ++ ⟨{ b with idx := idx }, .sealed⟩ :: l₂ }
  | enqueue {s : TxSystem} {l₁ l₂ : List TxHeld} {b : VqBuffer} {status : Int}
      {notified : Bool} {us : TxDevice}
      (hheld : s.held = l₁ ++ ⟨b, .sealed⟩ :: l₂)
      (h : enqueueTxBuffer s.us b.data b.idx = (status, notified, us)) :
      TxStep cfg s .enqueue { s with
        us := us
        held := l₁ ++ l₂
        log := s.log ++ [(b.data, .sent)] }
  | release {s : TxSystem} {l₁ l₂ : List TxHeld} {b : VqBuffer}
      (hheld : s.held = l₁ ++ ⟨b, .noted⟩ :: l₂) :
      TxStep cfg s .release { s with
        us := { s.us with mem := rpmsgVirtioReleaseTxBuffer s.us.mem b.data }
        held := l₁ ++ l₂
        log := s.log ++ [(b.data, .released)] }
  | peerWrite {s : TxSystem} {shm : Mem}
      (hown : ∀ a ∈ s.heldSpans ++ s.reclaimedSpans,
        Agree s.us.mem.shm shm a.start a.len) :
      TxStep cfg s .peer { s with us := s.us.withShm shm }
  | peerTake {s : TxSystem} {r : Option AvailableBuffer} {peer : Virtqueue}
      (hrole : cfg.role = .driver)
      (h : virtqueueGetAvailableBuffer s.peer s.us.ring = (r, peer)) :
      TxStep cfg s .peer { s with peer := peer, taken := s.taken ++ r.toList }
  | peerPut {s : TxSystem} {a : AvailableBuffer} {status : Int}
      {peer : Virtqueue} {ring : Vring} (hrole : cfg.role = .driver)
      (ha : a ∈ s.taken)
      (h : virtqueueAddConsumedBuffer s.peer s.us.ring a.availIdx
        (virtqueueGetBufferLength s.us.ring a.availIdx) = (status, peer, ring)) :
      TxStep cfg s .peer { s with
        us := { s.us with ring := ring }
        peer := peer
        taken := s.taken.erase a
        log := s.log ++ [((s.us.svq.vqDescx a.availIdx).cookie, .offered)] }
  | peerAdd {s : TxSystem} {buf : UInt64} {len : Int32} {status : Int}
      {peer : Virtqueue} {ring : Vring} (hrole : cfg.role = .device)
      (hfree : s.peer.vqFreeCnt ≠ 0) (hbuf : buf ≠ 0)
      (hview : cfg.view buf ≠ 0 ∧ cfg.view buf ≠ cfg.reclaimer)
      (hroom : cfg.room ≤ len.toUInt32.toNat)
      (hapart : ∀ i : UInt16, i.toNat < cfg.vq.num →
        (s.peer.vqDescx i).cookie ≠ 0 →
        (s.span (cfg.view buf) len.toUInt32).Disjoint
          (s.span (virtqueueGetBufferAddr s.us.svq s.us.ring i)
            (virtqueueGetBufferLength s.us.ring i)))
      (h : virtqueueAddBuffer s.peer s.us.ring (fun _ => ⟨buf, len⟩) 0 1 buf =
        (status, peer, ring)) :
      TxStep cfg s .peer { s with
        us := { s.us with ring := ring }
        peer := peer
        log := s.log ++ [(cfg.view buf, .offered)] }
  | peerGet {s : TxSystem} {r : Option GotBuffer} {peer : Virtqueue}
      {ring : Vring} (hrole : cfg.role = .device)
      (h : virtqueueGetBuffer s.peer s.us.ring = some (r, peer, ring)) :
      TxStep cfg s .peer { s with
        us := { s.us with ring := ring }
        peer := peer
        log := s.log ++ r.toList.map fun g => (cfg.view g.cookie, .collected) }
  | peerKick {s : TxSystem} :
      TxStep cfg s .peer { s with peer := (virtqueueKick s.peer s.us.ring).2 }
  | peerEnableCb {s : TxSystem} :
      TxStep cfg s .peer { s with
        us := { s.us with ring := (virtqueueEnableCb s.peer s.us.ring).2 } }
  | peerDisableCb {s : TxSystem} :
      TxStep cfg s .peer { s with
        us := { s.us with ring := virtqueueDisableCb s.peer s.us.ring } }

end OpenAmp.Rpmsg
