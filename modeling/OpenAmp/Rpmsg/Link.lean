import OpenAmp.Lib.Transition
import OpenAmp.Rpmsg.Endpoint
import OpenAmp.Rpmsg.Message
import OpenAmp.Rpmsg.Reception

/-!
# A host and a remote

Both ends of a link as `rpmsg_init_vdev` leaves them, over one pair of
rings and one shared memory. The link is two lanes, one a direction: the
host is the driver of both queues, so the sender of the lane to the
remote is a driver and the sender of the lane to the host a device. The
lanes share nothing but the memory.

On every lane one thread sends by `rpmsg_send_offchannel_raw` and one
receives in `rpmsg_virtio_rx_callback`. Every critical section and every
stretch between two of them is one step. A round of the callback is
three: taking the buffer and looking up the endpoint, calling it, giving
the buffer back. The endpoint may write over the payload it was called
with until the buffer is given back, and the endpoints of the receiver
may change at any time.
-/

namespace OpenAmp.Rpmsg

open OpenAmp.Lib OpenAmp.Metal OpenAmp.Virtio

/-- A pool that both sides see at the same place of the shared region. -/
structure PoolShared (drv dev : MetalIoRegion) (pool : ShmPool) : Prop extends
    PoolMapped drv pool where
  drvValid : drv.virt ≠ METAL_BAD_VA
  devValid : dev.virt ≠ METAL_BAD_VA
  drvInside : shmOff drv pool.base + pool.size.toNat ≤ drv.size.toNat
  devInside : shmOff drv pool.base + pool.size.toNat ≤ dev.size.toNat
  devStart : 0 < dev.virt.toNat + shmOff drv pool.base
  devBound : dev.virt.toNat + shmOff drv pool.base + pool.size.toNat < 2 ^ 64
  same : ∀ o : UInt64, shmOff drv pool.base ≤ o.toNat →
    o.toNat < shmOff drv pool.base + pool.size.toNat →
    metalIoPhysToOffset dev (metalIoPhys drv o) = o

/-- What is fixed for a lane. `role` is the sender's; `shpool` is the pool
as it stands before the first buffer of the lane is cut from it. -/
structure LaneConfig where
  vq : VqConfig
  role : VirtioRole
  bufSize : UInt32
  shpool : ShmPool
  reclaimer : UInt64
  pool_ok : PoolShared vq.drvIo vq.devIo shpool

/-- A buffer of the lane has room for a header, and an `int` counts the
room behind it. -/
structure LaneConfig.Sized (cfg : LaneConfig) : Prop where
  header : RPMSG_HDR_SIZE ≤ cfg.bufSize.toNat
  payload : cfg.bufSize.toNat < 2147483648 + RPMSG_HDR_SIZE

def LaneConfig.senderIo (cfg : LaneConfig) : MetalIoRegion :=
  match cfg.role with
  | .driver => cfg.vq.drvIo
  | .device => cfg.vq.devIo

def LaneConfig.receiverIo (cfg : LaneConfig) : MetalIoRegion :=
  match cfg.role with
  | .driver => cfg.vq.devIo
  | .device => cfg.vq.drvIo

/-- The arguments of `rpmsg_send_offchannel_raw`. -/
structure SendCall where
  src : UInt32
  dst : UInt32
  data : List UInt8
deriving DecidableEq, Repr

/-- How far the sending thread has come: outside, with a buffer, with its
index noted, with the payload copied, with the header written. -/
inductive SendState where
  | idle
  | fetched (b : VqBuffer) (call : SendCall)
  | noted (b : VqBuffer) (call : SendCall)
  | copied (b : VqBuffer) (call : SendCall) (n : Int32)
  | sealed (b : VqBuffer) (call : SendCall) (n : Int32)
deriving DecidableEq, Repr

/-- A send that was successful, with the value it returned. -/
structure Sent where
  call : SendCall
  n : Int32
deriving DecidableEq, Repr

/-- The message: the first `n` bytes sent. -/
def Sent.message (m : Sent) : Message :=
  ⟨m.call.src, m.call.dst, m.call.data.take m.n.toNatClampNeg⟩

/-- A call of an endpoint's callback. -/
structure CbCall where
  ept : Nat
  data : List UInt8
  len : Nat
  src : UInt32
deriving DecidableEq, Repr

inductive RoundPhase where
  | found
  | called
  | finished
deriving DecidableEq, Repr

/-- A round of `rpmsg_virtio_rx_callback`: the buffer, the device with its
endpoints at the time of the lookup, the endpoint found, the callbacks
called and the status of the buffer's return. -/
structure Round where
  buf : VqBuffer
  rdev : RpmsgDevice
  ept : Option Nat
  phase : RoundPhase
  calls : List CbCall
  status : Option Int

/-- The two ends of one direction: the sender's queue, pool and list of
reclaimed buffers, the receiver's queue, and the ring. -/
structure LaneEnds where
  svq : Virtqueue
  rvq : Virtqueue
  ring : Vring
  shpool : ShmPool
  first : UInt64
  last : UInt64

/-- One direction of the link: its ends, the receiver's endpoints, what
has been sent so far, the rounds of the receiver that are over and the
one it is in. -/
structure Lane extends LaneEnds where
  rdev : RpmsgDevice
  thread : SendState
  sent : List Sent
  rx : List Round
  round : Option Round

/-- All rounds, in the order they were opened. -/
def Lane.rounds (l : Lane) : List Round := l.rx ++ l.round.toList

/-- The sending side of a lane. -/
def LaneEnds.sender (cfg : LaneConfig) (shm : Mem) (l : LaneEnds) :
    TxDevice where
  h2rBufSize := cfg.bufSize
  shpool := l.shpool
  svq := l.svq
  ring := l.ring
  mem := ⟨cfg.senderIo, shm, cfg.reclaimer, l.first, l.last⟩

def LaneEnds.withSender (l : LaneEnds) (rvdev : TxDevice) : LaneEnds :=
  { l with
    svq := rvdev.svq
    ring := rvdev.ring
    shpool := rvdev.shpool
    first := rvdev.mem.first
    last := rvdev.mem.last }

/-- The receiving side of a lane. -/
def LaneEnds.receiver (cfg : LaneConfig) (shm : Mem) (l : LaneEnds) :
    RxDevice :=
  ⟨l.rvq, l.ring, cfg.receiverIo, shm⟩

def LaneEnds.withReceiver (l : LaneEnds) (rvdev : RxDevice) : LaneEnds :=
  { l with rvq := rvdev.rvq, ring := rvdev.ring }

def Lane.withSender (l : Lane) (rvdev : TxDevice) : Lane :=
  { l with toLaneEnds := l.toLaneEnds.withSender rvdev }

def Lane.withReceiver (l : Lane) (rvdev : RxDevice) : Lane :=
  { l with toLaneEnds := l.toLaneEnds.withReceiver rvdev }

/-- The lookup in the first locked part of a round. -/
def Lane.found (cfg : LaneConfig) (shm : Mem) (l : Lane) (b : VqBuffer) :
    Lane :=
  let ept := rpmsgGetEptFromAddr l.rdev (readHdr cfg.receiverIo shm b.data).dst
  { l with
    rdev := ept.elim l.rdev (l.rdev.modify · rpmsgEptIncref)
    round := some ⟨b, l.rdev, ept, .found, [], none⟩ }

/-- The call `ept->cb(ept, data, rp_hdr->len, rp_hdr->src, ept->priv)`. -/
def eptCall (io : MetalIoRegion) (shm : Mem) (b : VqBuffer) (ept : Nat) :
    CbCall :=
  let rpHdr := readHdr io shm b.data
  ⟨ept, readBytes shm (shmOff io b.data + RPMSG_HDR_SIZE) rpHdr.len.toNat,
    rpHdr.len.toNat, rpHdr.src⟩

inductive LaneStep (cfg : LaneConfig) : Mem → Lane → Mem → Lane → Prop where
  | get {shm : Mem} {l : Lane} (call : SendCall) {b : Option VqBuffer}
      {rvdev : TxDevice} (hthread : l.thread = .idle)
      (hdst : call.dst ≠ RPMSG_ADDR_ANY) (hlen : call.data.length < 2 ^ 31)
      (h : rpmsgVirtioGetTxBuffer (l.sender cfg shm) = some (b, rvdev)) :
      LaneStep cfg shm l rvdev.mem.shm { l.withSender rvdev with
        thread := b.elim .idle (.fetched · call) }
  | note {shm : Mem} {l : Lane} {b : VqBuffer} {call : SendCall}
      (hthread : l.thread = .fetched b call) :
      LaneStep cfg shm l (noteTxBuffer cfg.senderIo shm b)
        { l with thread := .noted b call }
  | copy {shm shm' : Mem} {l : Lane} {b : VqBuffer} {call : SendCall}
      {n : Int32} {status : Int} (hthread : l.thread = .noted b call)
      (h : writeTxPayload cfg.senderIo shm b.data
        (b.len - UInt32.ofNat RPMSG_HDR_SIZE) call.data
        (Int32.ofNat call.data.length) = (n, status, shm')) :
      LaneStep cfg shm l shm' { l with thread := .copied b call n }
  | header {shm shm' : Mem} {l : Lane} {b : VqBuffer} {call : SendCall}
      {n : Int32} {idx : UInt16} (hthread : l.thread = .copied b call n)
      (h : initTxHdr cfg.senderIo shm call.src call.dst b.data n =
        (idx, shm')) :
      LaneStep cfg shm l shm'
        { l with thread := .sealed { b with idx := idx } call n }
  | enqueue {shm : Mem} {l : Lane} {b : VqBuffer} {call : SendCall}
      {n : Int32} {status : Int} {notified : Bool} {rvdev : TxDevice}
      (hthread : l.thread = .sealed b call n)
      (h : enqueueTxBuffer (l.sender cfg shm) b.data b.idx =
        (status, notified, rvdev)) :
      LaneStep cfg shm l rvdev.mem.shm { l.withSender rvdev with
        thread := .idle
        sent := l.sent ++ [⟨call, n⟩] }
  | take {shm : Mem} {l : Lane} {b : Option VqBuffer} {rvdev : RxDevice}
      (hround : l.round = none)
      (h : rxTakeBuffer (l.receiver cfg shm) = some (b, rvdev)) :
      LaneStep cfg shm l rvdev.shm
        (b.elim id (fun b l => l.found cfg rvdev.shm b)
          (l.withReceiver rvdev))
  | call {shm : Mem} {l : Lane} {r : Round} (hround : l.round = some r)
      (hphase : r.phase = .found) :
      LaneStep cfg shm l shm { l with
        rdev := r.ept.elim l.rdev (l.rdev.modify ·
          (learnDest (readHdr cfg.receiverIo shm r.buf.data).src))
        round := some { r with
          phase := .called
          calls := r.calls ++
            r.ept.toList.map (eptCall cfg.receiverIo shm r.buf) } }
  | write {shm shm' : Mem} {l : Lane} {r : Round} (hround : l.round = some r)
      (hphase : r.phase = .called)
      (hpay : ∀ x, (x < shmOff cfg.receiverIo r.buf.data + RPMSG_HDR_SIZE ∨
        shmOff cfg.receiverIo r.buf.data + cfg.bufSize.toNat ≤ x) →
        shm' x = shm x) :
      LaneStep cfg shm l shm' l
  | finish {shm : Mem} {l : Lane} {r : Round} {st : Option Int}
      {rvdev : RxDevice} (hround : l.round = some r)
      (hphase : r.phase = .called)
      (h : rpmsgVirtioReleaseRxBuffer (l.receiver cfg shm) r.buf.data =
        (st, rvdev)) :
      LaneStep cfg shm l rvdev.shm { l.withReceiver rvdev with
        rdev := r.ept.elim l.rdev (l.rdev.modify · rpmsgEptDecref)
        rx := l.rx ++ [{ r with phase := .finished, status := st }]
        round := none }
  | endpoints {shm : Mem} {l : Lane} (rdev : RpmsgDevice) :
      LaneStep cfg shm l shm { l with rdev := rdev }

/-! ## The two lanes -/

/-- What is fixed for a link, whatever the two buffer sizes are. `split` is
the second pool of a `split_shpool` configuration. -/
structure LinkLayout where
  h2r : VqConfig
  r2h : VqConfig
  h2rBufSize : UInt32
  r2hBufSize : UInt32
  shpool : ShmPool
  split : Option ShmPool
  shm : Mem
  hostReclaimer : UInt64
  remoteReclaimer : UInt64
  hostRdev : RpmsgDevice
  remoteRdev : RpmsgDevice
  host_io : h2r.drvIo = r2h.drvIo
  remote_io : h2r.devIo = r2h.devIo
  pool_ok : PoolShared r2h.drvIo r2h.devIo shpool
  split_ok : ∀ pool ∈ split, PoolShared r2h.drvIo r2h.devIo pool ∧
    (Span.mk shpool.base.toNat shpool.size.toNat).Disjoint
      ⟨pool.base.toNat, pool.size.toNat⟩

/-- A link whose buffers have room for a payload and no room for one that
the length field of the header cannot count. -/
structure LinkConfig extends LinkLayout where
  h2r_gt : RPMSG_HDR_SIZE < h2rBufSize.toNat
  h2r_le : h2rBufSize.toNat ≤ 65551
  r2h_gt : RPMSG_HDR_SIZE < r2hBufSize.toNat
  r2h_le : r2hBufSize.toNat ≤ 65551

structure LinkSystem where
  shm : Mem
  toRemote : Lane
  toHost : Lane

/-- Both sides after `rpmsg_init_vdev`, if the host's succeeds. -/
def LinkSystem.init (cfg : LinkLayout) : Option LinkSystem :=
  let h2r := VqSystem.init cfg.h2r
  let r2h := VqSystem.init cfg.r2h
  (rpmsgInitRxBuffers cfg.r2hBufSize cfg.r2h.num cfg.shpool r2h.drv
    r2h.ring).map fun (shpool, rvq, ring) =>
    { shm := cfg.shm
      toRemote :=
        { svq := h2r.drv
          rvq := h2r.dev
          ring := virtqueueDisableCb h2r.drv h2r.ring
          shpool := cfg.split.getD shpool
          first := cfg.hostReclaimer
          last := cfg.hostReclaimer
          rdev := cfg.remoteRdev
          thread := .idle
          sent := []
          rx := []
          round := none }
      toHost :=
        { svq := r2h.dev
          rvq := rvq
          ring := virtqueueDisableCb r2h.dev ring
          shpool := ⟨0, 0, 0⟩
          first := cfg.remoteReclaimer
          last := cfg.remoteReclaimer
          rdev := cfg.hostRdev
          thread := .idle
          sent := []
          rx := []
          round := none } }

theorem PoolShared.shrink {drv dev : MetalIoRegion} {pool : ShmPool}
    (h : PoolShared drv dev pool) {avail : UInt64} (hle : avail ≤ pool.avail) :
    PoolShared drv dev { pool with avail := avail } :=
  { h with avail_le := UInt64.le_trans hle h.avail_le }

/-- The pool the host's transmission buffers are cut from: the second
pool, or what the receive buffers leave of the first. -/
def LinkLayout.txPool (cfg : LinkLayout) : ShmPool :=
  cfg.split.getD { cfg.shpool with
    avail := UInt64.ofNat
      (cfg.shpool.avail.toNat - cfg.r2h.num * cfg.r2hBufSize.toNat) }

theorem LinkLayout.txPool_ok (cfg : LinkLayout) :
    PoolShared cfg.r2h.drvIo cfg.r2h.devIo cfg.txPool := by
  unfold LinkLayout.txPool
  cases hs : cfg.split with
  | none =>
    refine cfg.pool_ok.shrink ?_
    have := cfg.shpool.avail.toNat_lt
    rw [UInt64.le_iff_toNat_le, UInt64.toNat_ofNat']
    omega
  | some pool => exact (cfg.split_ok pool (by simp [hs])).1

def LinkLayout.toRemote (cfg : LinkLayout) : LaneConfig where
  vq := cfg.h2r
  role := .driver
  bufSize := cfg.h2rBufSize
  shpool := cfg.txPool
  reclaimer := cfg.hostReclaimer
  pool_ok := by
    rw [cfg.host_io, cfg.remote_io]
    exact cfg.txPool_ok

def LinkLayout.toHost (cfg : LinkLayout) : LaneConfig where
  vq := cfg.r2h
  role := .device
  bufSize := cfg.r2hBufSize
  shpool := cfg.shpool
  reclaimer := cfg.remoteReclaimer
  pool_ok := cfg.pool_ok

inductive LinkStep (cfg : LinkLayout) : LinkSystem → LinkSystem → Prop where
  | toRemote {s : LinkSystem} {shm : Mem} {l : Lane}
      (h : LaneStep cfg.toRemote s.shm s.toRemote shm l) :
      LinkStep cfg s { s with shm := shm, toRemote := l }
  | toHost {s : LinkSystem} {shm : Mem} {l : Lane}
      (h : LaneStep cfg.toHost s.shm s.toHost shm l) :
      LinkStep cfg s { s with shm := shm, toHost := l }

/-- The states of all runs of a link. -/
def LinkReachable (cfg : LinkConfig) : LinkSystem → Prop :=
  Reachable (fun s => LinkSystem.init cfg.toLinkLayout = some s)
    (LinkStep cfg.toLinkLayout)

/-- A step sends on a lane only if the buffers of the lane are sized. On
the others the length is negative and the copy does not come to an end. -/
structure SizedSends (cfg : LinkLayout) (s t : LinkSystem) : Prop where
  toRemote : s.toRemote.thread = .idle → t.toRemote.thread ≠ .idle →
    cfg.toRemote.Sized
  toHost : s.toHost.thread = .idle → t.toHost.thread ≠ .idle →
    cfg.toHost.Sized

/-- The states of all runs, whatever the two buffer sizes are, in which no
send is begun on a lane that has no room for it. -/
def LayoutReachable (cfg : LinkLayout) : LinkSystem → Prop :=
  Reachable (fun s => LinkSystem.init cfg = some s)
    (fun s t => LinkStep cfg s t ∧ SizedSends cfg s t)

/-! ## What is said about a run -/

/-- Round `r` conveys the message sent as `m`: the endpoint looked up is
one with the address `dst`, unless there was none; it is called once,
with as many bytes as the length field of the header says, their number
and the sender's address; and at the end the buffer is back on the
ring. -/
structure Round.Conveys (r : Round) (m : Sent) : Prop where
  match_addr : ∀ e ∈ r.ept,
    e ∈ r.rdev.endpoints ∧ (r.rdev.epts e).addr = m.call.dst
  no_match : r.ept = none →
    ∀ e ∈ r.rdev.endpoints, (r.rdev.epts e).addr ≠ m.call.dst
  calls : r.calls = if r.phase = .found then [] else
    r.ept.toList.map fun e =>
      ⟨e, m.call.data.take (m.n.toNatClampNeg % 65536),
        m.n.toNatClampNeg % 65536, m.call.src⟩
  returned : r.status =
    if r.phase = .finished then some VQUEUE_SUCCESS else none

/-- Round `r` serves the message sent as `m`: the endpoint looked up is
one with the address `dst`, unless there was none; it is called once,
with the first `n` bytes sent, their number and the sender's address; and
at the end the buffer is back on the ring. -/
structure Round.Serves (r : Round) (m : Sent) : Prop where
  match_addr : ∀ e ∈ r.ept,
    e ∈ r.rdev.endpoints ∧ (r.rdev.epts e).addr = m.call.dst
  no_match : r.ept = none →
    ∀ e ∈ r.rdev.endpoints, (r.rdev.epts e).addr ≠ m.call.dst
  calls : r.calls = if r.phase = .found then [] else
    r.ept.toList.map fun e =>
      ⟨e, m.call.data.take m.n.toNatClampNeg, m.n.toNatClampNeg, m.call.src⟩
  returned : r.status =
    if r.phase = .finished then some VQUEUE_SUCCESS else none

/-- Where the length field counts the whole message, it is served. -/
theorem Round.Conveys.serves {r : Round} {m : Sent} (h : r.Conveys m)
    (hn : m.n.toNatClampNeg < 65536) : r.Serves m := by
  have hcalls := h.calls
  rw [Nat.mod_eq_of_lt hn] at hcalls
  exact ⟨h.match_addr, h.no_match, hcalls, h.returned⟩

/-- What a lane promises: every successful send returned what was sent of
its data, the rounds serve the sends one by one in their order, each is
over when the next is opened, and the receiver finds a buffer to open one
for as long as there is a message that has none. -/
structure Lane.Delivers (cfg : LaneConfig) (shm : Mem) (l : Lane) : Prop where
  returns : ∀ m ∈ l.sent, m.n.toInt =
    ((min m.call.data.length (cfg.bufSize.toNat - RPMSG_HDR_SIZE) : Nat) : Int)
  rounds : l.rounds.length ≤ l.sent.length
  serves : ∀ (i : Nat) (r : Round) (m : Sent), l.rounds[i]? = some r →
    l.sent[i]? = some m → r.Serves m
  closed : ∀ r ∈ l.rx, r.phase = .finished
  next : ∃ b rvdev, rxTakeBuffer (l.receiver cfg shm) = some (b, rvdev) ∧
    (b = none ↔ l.rounds.length = l.sent.length)

end OpenAmp.Rpmsg
