import OpenAmp.Lib.Transition
import OpenAmp.Rpmsg.Reception

/-!
# Reception as a system

One side of a link whose application holds and releases the buffers of
its receive queue, and the peer at the other end. As in the transmission
system every critical section is one step, so any number of threads may
be inside `rpmsg_virtio_rx_callback` or in a call on a buffer it handed
out.

`rx` lists all receptions so far, those that are over included: the
buffer as `rpmsg_virtio_get_rx_buffer` gave it, how far the callback has
come, and how often the buffer was held, released and put back on the
queue.

The promises of the application are in the steps: it holds a buffer only
inside the endpoint callback, fewer than 65535 times, never releases it
more often than it held it, and writes only payload. An honest peer
follows the queue protocol, sends only buffers with room for the message
header, and writes no byte of a buffer that is received here; as a
driver it sends no buffer that overlaps one still in the queue.
-/

namespace OpenAmp.Rpmsg

open OpenAmp.Lib OpenAmp.Metal OpenAmp.Virtio

/-- The endpoint callback is running, has returned, or has returned and
the second locked part of the round is over. -/
inductive RxPhase where
  | calling
  | returned
  | finished
deriving DecidableEq, Repr

structure Received where
  buf : VqBuffer
  phase : RxPhase
  holds : Nat
  releases : Nat
  putBacks : Nat
deriving DecidableEq, Repr

/-- How many parties hold the buffer: the callback's round and the holds
not yet released. -/
def Received.count (r : Received) : Nat :=
  (if r.phase = .finished then 0 else 1) + (r.holds - r.releases)

/-- What is fixed for a run. -/
structure RxConfig where
  vq : VqConfig
  role : VirtioRole
  r2hBufSize : UInt32
  shpool : ShmPool
  shm : Mem
  pool_ok : role = .driver → PoolMapped vq.drvIo shpool

/-- Our mapping of the shared region. -/
def RxConfig.io (cfg : RxConfig) : MetalIoRegion :=
  match cfg.role with
  | .driver => cfg.vq.drvIo
  | .device => cfg.vq.devIo

/-- Our address of a buffer that a driver at the other end has at `buf`. -/
def RxConfig.view (cfg : RxConfig) (buf : UInt64) : UInt64 :=
  metalIoPhysToVirt cfg.vq.devIo (metalIoVirtToPhys cfg.vq.drvIo buf)

structure RxSystem where
  us : RxDevice
  peer : Virtqueue
  rx : List Received
  taken : List AvailableBuffer

/-- As `rpmsg_init_vdev` leaves the device, if it succeeds: a driver has
lent all entries of the queue. -/
def RxSystem.init (cfg : RxConfig) : Option RxSystem :=
  let q := VqSystem.init cfg.vq
  match cfg.role with
  | .driver =>
    (rpmsgInitRxBuffers cfg.r2hBufSize cfg.vq.num cfg.shpool q.drv q.ring).map
      fun (_, rvq, ring) => ⟨⟨rvq, ring, cfg.io, cfg.shm⟩, q.dev, [], []⟩
  | .device => some ⟨⟨q.dev, q.ring, cfg.io, cfg.shm⟩, q.drv, [], []⟩

/-- The buffers received and not yet put back. -/
def RxSystem.outs (s : RxSystem) : List VqBuffer :=
  (s.rx.filter fun r => r.putBacks = 0).map (·.buf)

/-! ## Steps -/

/-- Which part of the system moves. -/
inductive RxAct where
  | take
  | hold
  | release
  | ret
  | finish
  | write
  | peer
deriving DecidableEq, Repr

inductive RxStep (cfg : RxConfig) : RxSystem → RxAct → RxSystem → Prop where
  | take {s : RxSystem} {b : Option VqBuffer} {us : RxDevice}
      (h : rxTakeBuffer s.us = some (b, us)) :
      RxStep cfg s .take { s with
        us := us
        rx := s.rx ++ b.toList.map fun b => ⟨b, .calling, 0, 0, 0⟩ }
  | hold {s : RxSystem} {l₁ l₂ : List Received} {r : Received}
      (hrx : s.rx = l₁ ++ r :: l₂) (hphase : r.phase = .calling)
      (hfew : r.holds + 1 < 65535) :
      RxStep cfg s .hold { s with
        us := rpmsgVirtioHoldRxBuffer s.us r.buf.data
        rx := l₁ ++ { r with holds := r.holds + 1 } :: l₂ }
  | release {s : RxSystem} {l₁ l₂ : List Received} {r : Received}
      {st : Option Int} {us : RxDevice} (hrx : s.rx = l₁ ++ r :: l₂)
      (hheld : r.releases < r.holds)
      (h : rpmsgVirtioReleaseRxBuffer s.us r.buf.data = (st, us)) :
      RxStep cfg s .release { s with
        us := us
        rx := l₁ ++ { r with
          releases := r.releases + 1
          putBacks := r.putBacks + st.toList.length } :: l₂ }
  | ret {s : RxSystem} {l₁ l₂ : List Received} {r : Received}
      (hrx : s.rx = l₁ ++ r :: l₂) (hphase : r.phase = .calling) :
      RxStep cfg s .ret { s with
        rx := l₁ ++ { r with phase := .returned } :: l₂ }
  | finish {s : RxSystem} {l₁ l₂ : List Received} {r : Received}
      {st : Option Int} {us : RxDevice} (hrx : s.rx = l₁ ++ r :: l₂)
      (hphase : r.phase = .returned)
      (h : rpmsgVirtioReleaseRxBuffer s.us r.buf.data = (st, us)) :
      RxStep cfg s .finish { s with
        us := us
        rx := l₁ ++ { r with
          phase := .finished
          putBacks := r.putBacks + st.toList.length } :: l₂ }
  | write {s : RxSystem} {r : Received} {shm : Mem} (hrx : r ∈ s.rx)
      (huse : r.phase = .calling ∨ r.releases < r.holds)
      (hpay : ∀ x, (x < shmOff s.us.io r.buf.data + RPMSG_HDR_SIZE ∨
        shmOff s.us.io r.buf.data + r.buf.len.toNat ≤ x) →
        shm x = s.us.shm x) :
      RxStep cfg s .write { s with us := { s.us with shm := shm } }
  | peerWrite {s : RxSystem} {shm : Mem}
      (hown : ∀ b ∈ s.outs, Agree s.us.shm shm (b.span s.us.io).start
        (b.span s.us.io).len) :
      RxStep cfg s .peer { s with us := { s.us with shm := shm } }
  | peerTake {s : RxSystem} {r : Option AvailableBuffer} {peer : Virtqueue}
      (hrole : cfg.role = .driver)
      (h : virtqueueGetAvailableBuffer s.peer s.us.ring = (r, peer)) :
      RxStep cfg s .peer { s with peer := peer, taken := s.taken ++ r.toList }
  | peerPut {s : RxSystem} {a : AvailableBuffer} {status : Int}
      {peer : Virtqueue} {ring : Vring} (hrole : cfg.role = .driver)
      (ha : a ∈ s.taken)
      (hroom : RPMSG_HDR_SIZE ≤
        (virtqueueGetBufferLength s.us.ring a.availIdx).toNat)
      (h : virtqueueAddConsumedBuffer s.peer s.us.ring a.availIdx
        (virtqueueGetBufferLength s.us.ring a.availIdx) =
          (status, peer, ring)) :
      RxStep cfg s .peer { s with
        us := { s.us with ring := ring }
        peer := peer
        taken := s.taken.erase a }
  | peerAdd {s : RxSystem} {buf : UInt64} {len : Int32} {status : Int}
      {peer : Virtqueue} {ring : Vring} (hrole : cfg.role = .device)
      (hfree : s.peer.vqFreeCnt ≠ 0) (hbuf : buf ≠ 0)
      (hview : cfg.view buf ≠ 0)
      (hroom : RPMSG_HDR_SIZE ≤ len.toUInt32.toNat)
      (hapart : ∀ i : UInt16, i.toNat < cfg.vq.num →
        (s.peer.vqDescx i).cookie ≠ 0 →
        (Span.mk (shmOff s.us.io (cfg.view buf)) len.toUInt32.toNat).Disjoint
          ⟨shmOff s.us.io (virtqueueGetBufferAddr s.us.rvq s.us.ring i),
            (virtqueueGetBufferLength s.us.ring i).toNat⟩)
      (h : virtqueueAddBuffer s.peer s.us.ring (fun _ => ⟨buf, len⟩) 1 0 buf =
        (status, peer, ring)) :
      RxStep cfg s .peer { s with
        us := { s.us with ring := ring }
        peer := peer }
  | peerGet {s : RxSystem} {r : Option GotBuffer} {peer : Virtqueue}
      {ring : Vring} (hrole : cfg.role = .device)
      (h : virtqueueGetBuffer s.peer s.us.ring = some (r, peer, ring)) :
      RxStep cfg s .peer { s with
        us := { s.us with ring := ring }
        peer := peer }
  | peerKick {s : RxSystem} :
      RxStep cfg s .peer { s with peer := (virtqueueKick s.peer s.us.ring).2 }
  | peerEnableCb {s : RxSystem} :
      RxStep cfg s .peer { s with
        us := { s.us with ring := (virtqueueEnableCb s.peer s.us.ring).2 } }
  | peerDisableCb {s : RxSystem} :
      RxStep cfg s .peer { s with
        us := { s.us with ring := virtqueueDisableCb s.peer s.us.ring } }

/-- The states of all runs. -/
def RxReachable (cfg : RxConfig) : RxSystem → Prop :=
  Reachable (fun s => RxSystem.init cfg = some s) fun s t =>
    ∃ a, RxStep cfg s a t

/-! ## What is said about a run -/

/-- Every reception has been put back once if its callback has returned
and every hold has been released, and not at all before. -/
def RxSystem.ReturnedOnce (s : RxSystem) : Prop :=
  ∀ r ∈ s.rx, r.putBacks =
    if r.phase = .finished ∧ r.releases = r.holds then 1 else 0

/-- Between `us` and `us'` buffer `b` was put back on the queue: by
`virtqueue_add_buffer` with a free descriptor at hand, or by
`virtqueue_add_consumed_buffer` under the index it came with. -/
def PutBack (role : VirtioRole) (us us' : RxDevice) (b : VqBuffer) : Prop :=
  ∃ len : UInt32, ∃ rvq ring,
    (match role with
      | .driver => 1 ≤ us.rvq.vqFreeCnt ∧
          virtqueueAddBuffer us.rvq us.ring (fun _ => ⟨b.data, len.toInt32⟩)
            0 1 b.data = (VQUEUE_SUCCESS, rvq, ring)
      | .device => virtqueueAddConsumedBuffer us.rvq us.ring b.idx len =
          (VQUEUE_SUCCESS, rvq, ring)) ∧
    us'.rvq = (virtqueueKick rvq ring).2 ∧ us'.ring = ring

/-- What a step on a received buffer does to the queue: nothing, or one
reception is put back and counted. -/
def RxEffect (cfg : RxConfig) (s t : RxSystem) : Prop :=
  (t.us.rvq = s.us.rvq ∧ t.us.ring = s.us.ring ∧
    t.rx.map (·.putBacks) = s.rx.map (·.putBacks)) ∨
  ∃ l₁ r r' l₂, s.rx = l₁ ++ r :: l₂ ∧ t.rx = l₁ ++ r' :: l₂ ∧
    r'.buf = r.buf ∧ r'.putBacks = r.putBacks + 1 ∧
    PutBack cfg.role s.us t.us r.buf

end OpenAmp.Rpmsg
