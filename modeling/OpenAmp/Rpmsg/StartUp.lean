import OpenAmp.Remoteproc.Virtio
import OpenAmp.Rpmsg.Delivery

/-!
# How a link comes up

`rpmsg_init_vdev` on the host and on the remote, each at its own pace. The
host clears the rings, makes its queues, lends the receive buffers and then
writes `DRIVER_OK` into the status byte of the resource table. The remote
begins with `rpmsg_virtio_wait_remote_ready`, which looks at that byte until
it says so. A host that is done sends and receives while the remote still
waits.

Only the status byte orders the two sides, and it is the one the firmware
brings along, or the one a previous start has left behind.

The buffers the host lends are cleared first, which nothing depends on; the
memory of the link is the memory after that. `canReset` is the build option
`VIRTIO_DRIVER_SUPPORT` of the remote: without it the device has no
`set_status`.
-/

namespace OpenAmp.Rpmsg

open OpenAmp.Lib OpenAmp.Metal OpenAmp.Virtio OpenAmp.Remoteproc

/-! ## Who takes a step on a lane -/

/-- The steps of the thread that sends. -/
inductive SenderStep (cfg : LaneConfig) : Mem → Lane → Mem → Lane → Prop where
  | get {shm : Mem} {l : Lane} (call : SendCall) {b : Option VqBuffer}
      {rvdev : TxDevice} (hthread : l.thread = .idle)
      (hdst : call.dst ≠ RPMSG_ADDR_ANY) (hlen : call.data.length < 2 ^ 31)
      (h : rpmsgVirtioGetTxBuffer (l.sender cfg shm) = some (b, rvdev)) :
      SenderStep cfg shm l rvdev.mem.shm { l.withSender rvdev with
        thread := b.elim .idle (.fetched · call) }
  | note {shm : Mem} {l : Lane} {b : VqBuffer} {call : SendCall}
      (hthread : l.thread = .fetched b call) :
      SenderStep cfg shm l (noteTxBuffer cfg.senderIo shm b)
        { l with thread := .noted b call }
  | copy {shm shm' : Mem} {l : Lane} {b : VqBuffer} {call : SendCall}
      {n : Int32} {status : Int} (hthread : l.thread = .noted b call)
      (h : writeTxPayload cfg.senderIo shm b.data
        (b.len - UInt32.ofNat RPMSG_HDR_SIZE) call.data
        (Int32.ofNat call.data.length) = (n, status, shm')) :
      SenderStep cfg shm l shm' { l with thread := .copied b call n }
  | header {shm shm' : Mem} {l : Lane} {b : VqBuffer} {call : SendCall}
      {n : Int32} {idx : UInt16} (hthread : l.thread = .copied b call n)
      (h : initTxHdr cfg.senderIo shm call.src call.dst b.data n =
        (idx, shm')) :
      SenderStep cfg shm l shm'
        { l with thread := .sealed { b with idx := idx } call n }
  | enqueue {shm : Mem} {l : Lane} {b : VqBuffer} {call : SendCall}
      {n : Int32} {status : Int} {notified : Bool} {rvdev : TxDevice}
      (hthread : l.thread = .sealed b call n)
      (h : enqueueTxBuffer (l.sender cfg shm) b.data b.idx =
        (status, notified, rvdev)) :
      SenderStep cfg shm l rvdev.mem.shm { l.withSender rvdev with
        thread := .idle
        sent := l.sent ++ [⟨call, n⟩] }

/-- The steps of the side that receives. -/
inductive ReceiverStep (cfg : LaneConfig) :
    Mem → Lane → Mem → Lane → Prop where
  | take {shm : Mem} {l : Lane} {b : Option VqBuffer} {rvdev : RxDevice}
      (hround : l.round = none)
      (h : rxTakeBuffer (l.receiver cfg shm) = some (b, rvdev)) :
      ReceiverStep cfg shm l rvdev.shm
        (b.elim id (fun b l => l.found cfg rvdev.shm b)
          (l.withReceiver rvdev))
  | call {shm : Mem} {l : Lane} {r : Round} (hround : l.round = some r)
      (hphase : r.phase = .found) :
      ReceiverStep cfg shm l shm { l with
        rdev := r.ept.elim l.rdev (l.rdev.modify ·
          (learnDest (readHdr cfg.receiverIo shm r.buf.data).src))
        round := some { r with
          phase := .called
          calls := r.calls ++
            r.ept.toList.map (eptCall cfg.receiverIo shm r.buf) } }
  | write {shm shm' : Mem} {l : Lane} {r : Round} (hround : l.round = some r)
      (hphase : r.phase = .called)
      (hpay : ∀ x, (x < shmOff cfg.receiverIo r.buf.data + RPMSG_HDR_SIZE ∨
        shmOff cfg.receiverIo r.buf.data + cfg.bufSize.toNat ≤ x) →
        shm' x = shm x) :
      ReceiverStep cfg shm l shm' l
  | finish {shm : Mem} {l : Lane} {r : Round} {st : Option Int}
      {rvdev : RxDevice} (hround : l.round = some r)
      (hphase : r.phase = .called)
      (h : rpmsgVirtioReleaseRxBuffer (l.receiver cfg shm) r.buf.data =
        (st, rvdev)) :
      ReceiverStep cfg shm l rvdev.shm { l.withReceiver rvdev with
        rdev := r.ept.elim l.rdev (l.rdev.modify · rpmsgEptDecref)
        rx := l.rx ++ [{ r with phase := .finished, status := st }]
        round := none }
  | endpoints {shm : Mem} {l : Lane} (rdev : RpmsgDevice) :
      ReceiverStep cfg shm l shm { l with rdev := rdev }

section Lane

variable {cfg : LaneConfig} {shm shm' : Mem} {l l' : Lane}

theorem laneStep_iff : LaneStep cfg shm l shm' l' ↔
    SenderStep cfg shm l shm' l' ∨ ReceiverStep cfg shm l shm' l' := by
  constructor
  · intro h
    cases h with
    | get call hthread hdst hlen h => exact .inl (.get call hthread hdst hlen h)
    | note hthread => exact .inl (.note hthread)
    | copy hthread h => exact .inl (.copy hthread h)
    | header hthread h => exact .inl (.header hthread h)
    | enqueue hthread h => exact .inl (.enqueue hthread h)
    | take hround h => exact .inr (.take hround h)
    | call hround hphase => exact .inr (.call hround hphase)
    | write hround hphase hpay => exact .inr (.write hround hphase hpay)
    | finish hround hphase h => exact .inr (.finish hround hphase h)
    | endpoints rdev => exact .inr (.endpoints rdev)
  · rintro (h | h)
    · cases h with
      | get call hthread hdst hlen h => exact .get call hthread hdst hlen h
      | note hthread => exact .note hthread
      | copy hthread h => exact .copy hthread h
      | header hthread h => exact .header hthread h
      | enqueue hthread h => exact .enqueue hthread h
    · cases h with
      | take hround h => exact .take hround h
      | call hround hphase => exact .call hround hphase
      | write hround hphase hpay => exact .write hround hphase hpay
      | finish hround hphase h => exact .finish hround hphase h
      | endpoints rdev => exact .endpoints rdev

/-- A receiver that begins, on the queue it has made. -/
def Lane.withFreshReceiver (l : Lane) (rvq : Virtqueue) (rdev : RpmsgDevice) :
    Lane :=
  { l with rvq := rvq, rdev := rdev, rx := [], round := none }

/-- A sender does not look at the other side. -/
theorem SenderStep.withFreshReceiver (h : SenderStep cfg shm l shm' l')
    (rvq : Virtqueue) (rdev : RpmsgDevice) :
    SenderStep cfg shm (l.withFreshReceiver rvq rdev) shm'
      (l'.withFreshReceiver rvq rdev) := by
  cases h with
  | get call hthread hdst hlen h => exact .get call hthread hdst hlen h
  | note hthread => exact .note hthread
  | copy hthread h => exact .copy hthread h
  | header hthread h => exact .header hthread h
  | enqueue hthread h =>
    exact .enqueue (l := l.withFreshReceiver rvq rdev) hthread h

/-- The receiver is a driver, it is in no round, and no buffer has been
returned to it that it has not seen. -/
structure Lane.Unused (l : Lane) : Prop where
  driver : l.rvq.vqDev.role = .driver
  seen : l.rvq.vqUsedConsIdx = l.ring.used.idx
  out : l.round = none

/-- **Nothing is received** before the other side returns a buffer. -/
theorem ReceiverStep.unused (h : ReceiverStep cfg shm l shm' l')
    (hl : l.Unused) :
    shm' = shm ∧ (l' = l ∨ ∃ rdev, l' = { l with rdev := rdev }) := by
  cases h with
  | take hround h =>
    have hnone : rxTakeBuffer (l.receiver cfg shm) =
        some (none, l.receiver cfg shm) := by
      have hrole : (l.receiver cfg shm).role = .driver := hl.driver
      have hget : virtqueueGetBuffer (l.receiver cfg shm).rvq
          (l.receiver cfg shm).ring = some (none, (l.receiver cfg shm).rvq,
            (l.receiver cfg shm).ring) := if_pos hl.seen
      simp only [rxTakeBuffer, rpmsgVirtioGetRxBuffer, hrole, hget,
        Option.map_some, Option.bind_none]
    rw [hnone] at h
    cases h
    exact ⟨rfl, .inl rfl⟩
  | call hround => cases hl.out.symm.trans hround
  | write hround => cases hl.out.symm.trans hround
  | finish hround => cases hl.out.symm.trans hround
  | endpoints rdev => exact ⟨rfl, .inr ⟨rdev, rfl⟩⟩

end Lane

/-! ## The two sides -/

/-- Where `rpmsg_init_vdev` is on the host: before its queues, with the
queue it receives from, with both, lending with some rounds to go, done. -/
inductive HostPhase where
  | start
  | rxMade
  | txMade
  | lending (left : Nat) (shpool : ShmPool)
  | running
  | failed
deriving DecidableEq, Repr

/-- Where it is on the remote: about to look at the status, about to clear
it, let in, done. It ends without success when the status cannot be
cleared, or when a queue is not allocated. -/
inductive RemotePhase where
  | waiting
  | resetting
  | admitted
  | running
  | refused
  | failed
deriving DecidableEq, Repr

/-- The entry of the device in the resource table, both sides, and the
link between them as far as it is made. -/
structure StartState where
  rsc : VdevRsc
  host : HostPhase
  remote : RemotePhase
  link : LinkSystem

/-- `rproc_virtio_create_virtqueue` of a driver, which clears the ring. -/
def driverCreateVirtqueue (vq : VqConfig) : Virtqueue × Vring :=
  let dev := ⟨.driver, vq.drvFeatures⟩
  (virtqueueCreate dev vq.nentries vq.drvNotify
    (virtqueueAllocate dev vq.drvIo) zeroedVring).2

/-- `rproc_virtio_create_virtqueue` of a device. -/
def deviceCreateVirtqueue (vq : VqConfig) (ring : Vring) :
    Virtqueue × Vring :=
  let dev := ⟨.device, vq.devFeatures⟩
  (virtqueueCreate dev vq.nentries vq.devNotify
    (virtqueueAllocate dev vq.devIo) ring).2

namespace LinkSystem

variable (cfg : LinkLayout) (l : LinkSystem)

/-- The first queue of the host, `rx_vq`. -/
def makeRxVq : LinkSystem :=
  let (rvq, ring) := driverCreateVirtqueue cfg.r2h
  { l with toHost := { l.toHost with rvq := rvq, ring := ring } }

/-- The second, `tx_vq`. -/
def makeTxVq : LinkSystem :=
  let (svq, ring) := driverCreateVirtqueue cfg.h2r
  { l with toRemote := { l.toRemote with svq := svq, ring := ring } }

/-- `virtqueue_disable_cb(rvdev->svq)` of the host. -/
def quietTxVq : LinkSystem :=
  { l with toRemote := { l.toRemote with
      ring := virtqueueDisableCb l.toRemote.svq l.toRemote.ring } }

/-- A receive buffer has been lent. -/
def lent (rvq : Virtqueue) (ring : Vring) : LinkSystem :=
  { l with toHost := { l.toHost with rvq := rvq, ring := ring } }

/-- The host is ready: what is left of the pool, or the second one, is for
sending, and there are endpoints. Nothing has been sent or received. -/
def hostUp (shpool : ShmPool) : LinkSystem :=
  { l with
    toRemote := { l.toRemote with
      shpool := cfg.split.getD shpool
      first := cfg.hostReclaimer
      last := cfg.hostReclaimer
      thread := .idle
      sent := [] }
    toHost := { l.toHost with
      rdev := cfg.hostRdev
      rx := []
      round := none } }

/-- The remote from its queues on. It writes to the ring it sends on, to be
left alone when the host puts a buffer back. It has no pool. -/
def remoteUp : LinkSystem :=
  let (svq, sring) := deviceCreateVirtqueue cfg.r2h l.toHost.ring
  let (rvq, rring) := deviceCreateVirtqueue cfg.h2r l.toRemote.ring
  { l with
    toRemote := { l.toRemote with
      rvq := rvq
      ring := rring
      rdev := cfg.remoteRdev
      rx := []
      round := none }
    toHost := { l.toHost with
      svq := svq
      ring := virtqueueDisableCb svq sring
      shpool := ⟨0, 0, 0⟩
      first := cfg.remoteReclaimer
      last := cfg.remoteReclaimer
      thread := .idle
      sent := [] } }

end LinkSystem

/-- What the remote does after a look at the status. -/
def afterLook (canReset : Bool) : RemoteReady → RemotePhase
  | .ready => .admitted
  | .reset => if canReset then .resetting else .refused
  | .notYet => .waiting

/-- One step of one side. -/
inductive StartStep (cfg : LinkLayout) (canReset : Bool) :
    StartState → StartState → Prop where
  | makeRxVq {s : StartState} (h : s.host = .start) :
      StartStep cfg canReset s { s with
        host := .rxMade
        link := s.link.makeRxVq cfg }
  | makeTxVq {s : StartState} (h : s.host = .rxMade) :
      StartStep cfg canReset s { s with
        host := .txMade
        link := s.link.makeTxVq cfg }
  | noQueue {s : StartState} (h : s.host = .start ∨ s.host = .rxMade) :
      StartStep cfg canReset s { s with host := .failed }
  | quietTxVq {s : StartState} (h : s.host = .txMade) :
      StartStep cfg canReset s { s with
        host := .lending cfg.r2h.num cfg.shpool
        link := s.link.quietTxVq }
  | lend {s : StartState} {left : Nat} {shpool shpool' : ShmPool}
      {buffer : UInt64} {rvq : Virtqueue} {ring : Vring}
      (h : s.host = .lending (left + 1) shpool)
      (hget : rpmsgVirtioShmPoolGetBuffer shpool cfg.r2hBufSize.toUInt64 =
        (buffer, shpool')) (hbuffer : buffer ≠ 0)
      (hadd : virtqueueAddBuffer s.link.toHost.rvq s.link.toHost.ring
        (fun _ => ⟨buffer, cfg.r2hBufSize.toInt32⟩) 0 1 buffer =
          (VQUEUE_SUCCESS, rvq, ring)) :
      StartStep cfg canReset s { s with
        host := .lending left shpool'
        link := s.link.lent rvq ring }
  | noBuffer {s : StartState} {left : Nat} {shpool : ShmPool}
      (h : s.host = .lending (left + 1) shpool)
      (hget : (rpmsgVirtioShmPoolGetBuffer shpool
        cfg.r2hBufSize.toUInt64).1 = 0) :
      StartStep cfg canReset s { s with host := .failed }
  | setStatus {s : StartState} {shpool : ShmPool}
      (h : s.host = .lending 0 shpool) :
      StartStep cfg canReset s { s with
        host := .running
        rsc := rprocVirtioSetStatus s.rsc VIRTIO_CONFIG_STATUS_DRIVER_OK
        link := s.link.hostUp cfg shpool }
  | look {s : StartState} (h : s.remote = .waiting) :
      StartStep cfg canReset s { s with
        remote := afterLook canReset (rpmsgVirtioRemoteReady s.rsc) }
  | clearStatus {s : StartState} (h : s.remote = .resetting) :
      StartStep cfg canReset s { s with
        remote := .waiting
        rsc := rprocVirtioSetStatus s.rsc 0 }
  | remoteUp {s : StartState} (h : s.remote = .admitted) :
      StartStep cfg canReset s { s with
        remote := .running
        link := s.link.remoteUp cfg }
  | remoteFails {s : StartState} (h : s.remote = .admitted) :
      StartStep cfg canReset s { s with remote := .failed }
  | hostSends {s : StartState} {shm : Mem} {l : Lane}
      (h : s.host = .running)
      (hst : SenderStep cfg.toRemote s.link.shm s.link.toRemote shm l) :
      StartStep cfg canReset s { s with
        link := { s.link with shm := shm, toRemote := l } }
  | hostReceives {s : StartState} {shm : Mem} {l : Lane}
      (h : s.host = .running)
      (hst : ReceiverStep cfg.toHost s.link.shm s.link.toHost shm l) :
      StartStep cfg canReset s { s with
        link := { s.link with shm := shm, toHost := l } }
  | remoteSends {s : StartState} {shm : Mem} {l : Lane}
      (h : s.remote = .running)
      (hst : SenderStep cfg.toHost s.link.shm s.link.toHost shm l) :
      StartStep cfg canReset s { s with
        link := { s.link with shm := shm, toHost := l } }
  | remoteReceives {s : StartState} {shm : Mem} {l : Lane}
      (h : s.remote = .running)
      (hst : ReceiverStep cfg.toRemote s.link.shm s.link.toRemote shm l) :
      StartStep cfg canReset s { s with
        link := { s.link with shm := shm, toRemote := l } }

/-- Neither side has begun. Rings and queues are as they happen to be. -/
structure StartState.Init (cfg : LinkLayout) (rsc : VdevRsc)
    (s : StartState) : Prop where
  rsc_eq : s.rsc = rsc
  host : s.host = .start
  remote : s.remote = .waiting
  shm : s.link.shm = cfg.shm

/-- The states of all runs that begin with the entry `rsc`. -/
def StartReachable (cfg : LinkLayout) (canReset : Bool) (rsc : VdevRsc) :
    StartState → Prop :=
  Reachable (StartState.Init cfg rsc) (StartStep cfg canReset)

/-- The remote goes on after the host is ready, and not otherwise: one that
still waits finds the status set. When both are up they are a link. -/
structure StartState.InOrder (cfg : LinkConfig) (s : StartState) : Prop where
  after : s.remote = .admitted ∨ s.remote = .running → s.host = .running
  told : s.host = .running → s.remote = .waiting →
    rpmsgVirtioRemoteReady s.rsc = .ready
  accepted : s.remote ≠ .refused
  link : s.host = .running → s.remote = .running → LinkReachable cfg s.link

/-- **Every run comes up in order**, and to every state of the link. -/
structure ComesUp (cfg : LinkConfig) (canReset : Bool) (rsc : VdevRsc) :
    Prop where
  inOrder : ∀ s, StartReachable cfg.toLinkLayout canReset rsc s →
    s.InOrder cfg
  complete : ∀ l, LinkReachable cfg l → ∃ rsc',
    StartReachable cfg.toLinkLayout canReset rsc ⟨rsc', .running, .running, l⟩

/-! ## What each side has made -/

section Made

variable {cfg : LinkLayout} {l : LinkSystem} {len : UInt32}
  {rvq rvq' : Virtqueue} {ring ring' : Vring} {shpool shpool' : ShmPool}
  {buffer : UInt64} {left : Nat}

/-- What the host has made, phase by phase; while it lends, the rounds to go
lead where all of them did. -/
def HostMade (cfg : LinkLayout) (l : LinkSystem) : HostPhase → Prop
  | .start => True
  | .rxMade =>
    l.toHost.rvq = (driverCreateVirtqueue cfg.r2h).1 ∧
      l.toHost.ring = (driverCreateVirtqueue cfg.r2h).2
  | .txMade =>
    (l.toHost.rvq = (driverCreateVirtqueue cfg.r2h).1 ∧
      l.toHost.ring = (driverCreateVirtqueue cfg.r2h).2) ∧
    l.toRemote.svq = (driverCreateVirtqueue cfg.h2r).1 ∧
      l.toRemote.ring = (driverCreateVirtqueue cfg.h2r).2
  | .lending left shpool =>
    l.toRemote.svq = (driverCreateVirtqueue cfg.h2r).1 ∧
      l.toRemote.ring = virtqueueDisableCb (driverCreateVirtqueue cfg.h2r).1
        (driverCreateVirtqueue cfg.h2r).2 ∧
      rpmsgInitRxBuffers cfg.r2hBufSize left shpool l.toHost.rvq
        l.toHost.ring = rpmsgInitRxBuffers cfg.r2hBufSize cfg.r2h.num
          cfg.shpool (driverCreateVirtqueue cfg.r2h).1
            (driverCreateVirtqueue cfg.r2h).2 ∧
      l.toHost.rvq.vqDev.role = .driver ∧
      l.toHost.rvq.vqUsedConsIdx = l.toHost.ring.used.idx
  | .running => False
  | .failed => True

theorem rpmsgInitRxBuffers_lend
    (hget : rpmsgVirtioShmPoolGetBuffer shpool len.toUInt64 =
      (buffer, shpool')) (hbuffer : buffer ≠ 0)
    (hadd : virtqueueAddBuffer rvq ring (fun _ => ⟨buffer, len.toInt32⟩) 0 1
      buffer = (VQUEUE_SUCCESS, rvq', ring')) :
    rpmsgInitRxBuffers len (left + 1) shpool rvq ring =
      rpmsgInitRxBuffers len left shpool' rvq' ring' := by
  simp only [rpmsgInitRxBuffers, hget, if_neg hbuffer, hadd, ne_eq,
    not_true_eq_false, if_false]

theorem addBuffer_unseen {bufs : Nat → VirtqueueBuf} {r w st : Int}
    {cookie : UInt64}
    (h : virtqueueAddBuffer rvq ring bufs r w cookie = (st, rvq', ring')) :
    rvq'.vqDev = rvq.vqDev ∧ rvq'.vqUsedConsIdx = rvq.vqUsedConsIdx ∧
      ring'.used = ring.used := by
  simp only [virtqueueAddBuffer, vqRingUpdateAvail, Prod.mk.injEq] at h
  obtain ⟨-, rfl, rfl⟩ := h
  exact ⟨rfl, rfl, rfl⟩

theorem HostMade.quietTxVq (h : HostMade cfg l .txMade) :
    HostMade cfg l.quietTxVq (.lending cfg.r2h.num cfg.shpool) := by
  obtain ⟨⟨hrvq, hring⟩, hsvq, hsring⟩ := h
  refine ⟨hsvq, ?_, ?_, ?_, ?_⟩
  · rw [← hsvq, ← hsring]
    rfl
  · rw [← hrvq, ← hring]
    rfl
  · change l.toHost.rvq.vqDev.role = _
    rw [hrvq]
    rfl
  · change l.toHost.rvq.vqUsedConsIdx = l.toHost.ring.used.idx
    rw [hrvq, hring]
    rfl

theorem HostMade.lend (h : HostMade cfg l (.lending (left + 1) shpool))
    (hget : rpmsgVirtioShmPoolGetBuffer shpool cfg.r2hBufSize.toUInt64 =
      (buffer, shpool')) (hbuffer : buffer ≠ 0)
    (hadd : virtqueueAddBuffer l.toHost.rvq l.toHost.ring
      (fun _ => ⟨buffer, cfg.r2hBufSize.toInt32⟩) 0 1 buffer =
        (VQUEUE_SUCCESS, rvq, ring)) :
    HostMade cfg (l.lent rvq ring) (.lending left shpool') := by
  obtain ⟨hsvq, hring, hloop, hrole, hseen⟩ := h
  obtain ⟨hdev, hcons, hused⟩ := addBuffer_unseen hadd
  refine ⟨hsvq, hring, ?_, ?_, ?_⟩
  · rw [← hloop, rpmsgInitRxBuffers_lend hget hbuffer hadd]
    rfl
  · rw [← hrole, ← hdev]
    rfl
  · rw [← hused] at hseen
    exact hcons.trans hseen

theorem HostMade.init (h : HostMade cfg l (.lending 0 shpool))
    (hshm : l.shm = cfg.shm) :
    LinkSystem.init cfg = some ((l.hostUp cfg shpool).remoteUp cfg) := by
  obtain ⟨hsvq, hring, hloop, -, -⟩ := h
  have hloop' : rpmsgInitRxBuffers cfg.r2hBufSize cfg.r2h.num cfg.shpool
      (VqSystem.init cfg.r2h).drv (VqSystem.init cfg.r2h).ring =
        some (shpool, l.toHost.rvq, l.toHost.ring) := hloop.symm
  simp only [LinkSystem.init, hloop', Option.map_some, Option.some.injEq,
    LinkSystem.hostUp, LinkSystem.remoteUp, LinkSystem.mk.injEq]
  refine ⟨hshm.symm, ?_, rfl⟩
  rw [hsvq, show (deviceCreateVirtqueue cfg.h2r l.toRemote.ring).2 =
    l.toRemote.ring from rfl, hring]
  rfl

end Made

/-! ## Runs that begin with a clear status -/

section Run

variable {cfg : LinkConfig} {canReset : Bool} {rsc : VdevRsc}
  {s s' : StartState} {link l₀ : LinkSystem} {shm : Mem} {l : Lane}

theorem remoteReady_driverOk (rsc : VdevRsc) : rpmsgVirtioRemoteReady
    (rprocVirtioSetStatus rsc VIRTIO_CONFIG_STATUS_DRIVER_OK) = .ready := by
  have hreset : VIRTIO_CONFIG_STATUS_DRIVER_OK &&&
      VIRTIO_CONFIG_STATUS_NEEDS_RESET = 0 := by decide
  have hok : VIRTIO_CONFIG_STATUS_DRIVER_OK &&&
      VIRTIO_CONFIG_STATUS_DRIVER_OK ≠ 0 := by decide
  exact (if_neg (not_not.mpr hreset)).trans (if_pos hok)

theorem remoteReady_clear (rsc : VdevRsc) :
    rpmsgVirtioRemoteReady (rprocVirtioSetStatus rsc 0) = .notYet := by
  have hreset : ¬ (0 : UInt8) &&& VIRTIO_CONFIG_STATUS_NEEDS_RESET ≠ 0 := by
    decide
  have hok : ¬ (0 : UInt8) &&& VIRTIO_CONFIG_STATUS_DRIVER_OK ≠ 0 := by decide
  exact (if_neg hreset).trans (if_neg hok)

/-- The host is at work, the remote is, or both are up. While the remote is
at work, the link is what it is going to be with the remote's part added. -/
inductive StartInv (cfg : LinkConfig) : StartState → Prop where
  | host {rsc : VdevRsc} {host : HostPhase} {link : LinkSystem}
      (hstatus : rpmsgVirtioRemoteReady rsc = .notYet)
      (hmade : HostMade cfg.toLinkLayout link host)
      (hshm : link.shm = cfg.shm) : StartInv cfg ⟨rsc, host, .waiting, link⟩
  | remote {rsc : VdevRsc} {remote : RemotePhase} {link : LinkSystem}
      (hstatus : rpmsgVirtioRemoteReady rsc = .ready)
      (hremote : remote = .waiting ∨ remote = .admitted ∨ remote = .failed)
      (hunused : link.toHost.Unused)
      (hlink : LinkReachable cfg (link.remoteUp cfg.toLinkLayout)) :
      StartInv cfg ⟨rsc, .running, remote, link⟩
  | up {rsc : VdevRsc} {link : LinkSystem}
      (hlink : LinkReachable cfg link) :
      StartInv cfg ⟨rsc, .running, .running, link⟩

/-- A host that is up may send at once, -/
theorem remoteUp_sends
    (h : LinkReachable cfg (link.remoteUp cfg.toLinkLayout))
    (hst : SenderStep cfg.toLinkLayout.toRemote link.shm link.toRemote shm l) :
    LinkReachable cfg (({ link with shm := shm, toRemote := l } :
      LinkSystem).remoteUp cfg.toLinkLayout) := by
  have hstep := hst.withFreshReceiver
    (deviceCreateVirtqueue cfg.h2r link.toRemote.ring).1 cfg.remoteRdev
  exact h.next (.toRemote (laneStep_iff.mpr (.inl hstep)))

/-- and look for messages, though there are none yet. -/
theorem remoteUp_receives
    (h : LinkReachable cfg (link.remoteUp cfg.toLinkLayout))
    (hunused : link.toHost.Unused)
    (hst : ReceiverStep cfg.toLinkLayout.toHost link.shm link.toHost shm l) :
    l.Unused ∧ LinkReachable cfg (({ link with shm := shm, toHost := l } :
      LinkSystem).remoteUp cfg.toLinkLayout) := by
  obtain ⟨rfl, rfl | ⟨rdev, rfl⟩⟩ := hst.unused hunused
  · exact ⟨hunused, h⟩
  · exact ⟨⟨hunused.driver, hunused.seen, hunused.out⟩,
      h.next (.toHost (.endpoints rdev))⟩

/-- **Every step keeps the order.** -/
theorem StartInv.step (h : StartInv cfg s)
    (hst : StartStep cfg.toLinkLayout canReset s s') : StartInv cfg s' := by
  cases h with
  | host hstatus hmade hshm =>
    cases hst with
    | makeRxVq => exact .host hstatus ⟨rfl, rfl⟩ hshm
    | makeTxVq hhost =>
      cases hhost
      exact .host hstatus ⟨hmade, rfl, rfl⟩ hshm
    | noQueue => exact .host hstatus trivial hshm
    | quietTxVq hhost =>
      cases hhost
      exact .host hstatus hmade.quietTxVq hshm
    | lend hhost hget hbuffer hadd =>
      cases hhost
      exact .host hstatus (hmade.lend hget hbuffer hadd) hshm
    | noBuffer => exact .host hstatus trivial hshm
    | setStatus hhost =>
      cases hhost
      exact .remote (remoteReady_driverOk _) (.inl rfl)
        ⟨hmade.2.2.2.1, hmade.2.2.2.2, rfl⟩ (.start (hmade.init hshm))
    | look =>
      rw [show afterLook canReset _ = .waiting from
        congrArg (afterLook canReset) hstatus]
      exact .host hstatus hmade hshm
    | clearStatus hremote => cases hremote
    | remoteUp hremote => cases hremote
    | remoteFails hremote => cases hremote
    | hostSends hhost =>
      cases hhost
      exact hmade.elim
    | hostReceives hhost =>
      cases hhost
      exact hmade.elim
    | remoteSends hremote => cases hremote
    | remoteReceives hremote => cases hremote
  | remote hstatus hremote hunused hlink =>
    cases hst with
    | makeRxVq hhost => cases hhost
    | makeTxVq hhost => cases hhost
    | noQueue hhost => rcases hhost with hhost | hhost <;> cases hhost
    | quietTxVq hhost => cases hhost
    | lend hhost => cases hhost
    | noBuffer hhost => cases hhost
    | setStatus hhost => cases hhost
    | look =>
      rw [show afterLook canReset _ = .admitted from
        congrArg (afterLook canReset) hstatus]
      exact .remote hstatus (.inr (.inl rfl)) hunused hlink
    | clearStatus hreset =>
      cases hreset
      rcases hremote with h | h | h <;> cases h
    | remoteUp => exact .up hlink
    | remoteFails => exact .remote hstatus (.inr (.inr rfl)) hunused hlink
    | hostSends _ hsend =>
      exact .remote hstatus hremote hunused (remoteUp_sends hlink hsend)
    | hostReceives _ hrecv =>
      obtain ⟨hunused', hlink'⟩ := remoteUp_receives hlink hunused hrecv
      exact .remote hstatus hremote hunused' hlink'
    | remoteSends hup =>
      cases hup
      rcases hremote with h | h | h <;> cases h
    | remoteReceives hup =>
      cases hup
      rcases hremote with h | h | h <;> cases h
  | up hlink =>
    cases hst with
    | makeRxVq hhost => cases hhost
    | makeTxVq hhost => cases hhost
    | noQueue hhost => rcases hhost with hhost | hhost <;> cases hhost
    | quietTxVq hhost => cases hhost
    | lend hhost => cases hhost
    | noBuffer hhost => cases hhost
    | setStatus hhost => cases hhost
    | look hremote => cases hremote
    | clearStatus hremote => cases hremote
    | remoteUp hremote => cases hremote
    | remoteFails hremote => cases hremote
    | hostSends _ hsend =>
      exact .up (hlink.next (.toRemote (laneStep_iff.mpr (.inl hsend))))
    | hostReceives _ hrecv =>
      exact .up (hlink.next (.toHost (laneStep_iff.mpr (.inr hrecv))))
    | remoteSends _ hsend =>
      exact .up (hlink.next (.toHost (laneStep_iff.mpr (.inl hsend))))
    | remoteReceives _ hrecv =>
      exact .up (hlink.next (.toRemote (laneStep_iff.mpr (.inr hrecv))))

theorem StartReachable.inv
    (h : StartReachable cfg.toLinkLayout canReset rsc s)
    (hrsc : rpmsgVirtioRemoteReady rsc = .notYet) : StartInv cfg s := by
  refine Reachable.invariant ?_ (fun _ _ _ hs hst => hs.step hst) h
  rintro ⟨_, _, _, link⟩ ⟨rfl, rfl, rfl, hshm⟩
  exact .host hrsc trivial hshm

theorem StartInv.inOrder (h : StartInv cfg s) : s.InOrder cfg := by
  cases h with
  | host hstatus hmade =>
    refine ⟨?_, ?_, nofun, ?_⟩
    · rintro (h | h) <;> cases h
    · rintro rfl
      exact hmade.elim
    · exact fun _ => nofun
  | remote hstatus hremote =>
    refine ⟨fun _ => rfl, fun _ _ => hstatus, ?_, ?_⟩
    · rintro rfl
      rcases hremote with h | h | h <;> cases h
    · rintro - rfl
      rcases hremote with h | h | h <;> cases h
  | up hlink => exact ⟨fun _ => rfl, fun _ => nofun, nofun, fun _ _ => hlink⟩

/-! ## What a run can come to -/

/-- The rounds of the loop that lends the buffers, one after the other. -/
theorem lends {left : Nat} : ∀ {rsc' : VdevRsc} {remote : RemotePhase}
    {link : LinkSystem} {shpool : ShmPool},
    StartReachable cfg.toLinkLayout canReset rsc
      ⟨rsc', .lending left shpool, remote, link⟩ →
    HostMade cfg.toLinkLayout link (.lending left shpool) →
    link.shm = cfg.shm →
    (rpmsgInitRxBuffers cfg.r2hBufSize left shpool link.toHost.rvq
      link.toHost.ring).isSome →
    ∃ link' shpool', StartReachable cfg.toLinkLayout canReset rsc
        ⟨rsc', .lending 0 shpool', remote, link'⟩ ∧
      HostMade cfg.toLinkLayout link' (.lending 0 shpool') ∧
      link'.shm = cfg.shm := by
  induction left with
  | zero => exact fun h hmade hshm _ => ⟨_, _, h, hmade, hshm⟩
  | succ left ih =>
    intro rsc' remote link shpool h hmade hshm hloop
    rcases hget : rpmsgVirtioShmPoolGetBuffer shpool
      cfg.r2hBufSize.toUInt64 with ⟨buffer, shpool'⟩
    rcases hadd : virtqueueAddBuffer link.toHost.rvq link.toHost.ring
      (fun _ => ⟨buffer, cfg.r2hBufSize.toInt32⟩) 0 1 buffer with
        ⟨st, rvq, ring⟩
    obtain rfl : st = VQUEUE_SUCCESS := (congrArg Prod.fst hadd).symm
    by_cases hbuffer : buffer = 0
    · simp [rpmsgInitRxBuffers, hget, hbuffer] at hloop
    · rw [rpmsgInitRxBuffers_lend hget hbuffer hadd] at hloop
      exact ih (h.next (.lend rfl hget hbuffer hadd))
        (hmade.lend hget hbuffer hadd) hshm hloop

/-- **The host comes up**, whatever the remote is doing. -/
theorem hostComesUp {rsc' : VdevRsc} {remote : RemotePhase}
    (h : StartReachable cfg.toLinkLayout canReset rsc
      ⟨rsc', .start, remote, link⟩) (hshm : link.shm = cfg.shm)
    (hinit : LinkSystem.init cfg.toLinkLayout = some l₀) :
    ∃ link', link'.remoteUp cfg.toLinkLayout = l₀ ∧
      StartReachable cfg.toLinkLayout canReset rsc
        ⟨rprocVirtioSetStatus rsc' VIRTIO_CONFIG_STATUS_DRIVER_OK, .running,
          remote, link'⟩ := by
  have hqueues := ((h.next (.makeRxVq rfl)).next (.makeTxVq rfl)).next
    (.quietTxVq rfl)
  have hmade : HostMade cfg.toLinkLayout ((link.makeRxVq
      cfg.toLinkLayout).makeTxVq cfg.toLinkLayout) .txMade :=
    ⟨⟨rfl, rfl⟩, rfl, rfl⟩
  have hserved : (rpmsgInitRxBuffers cfg.r2hBufSize cfg.r2h.num cfg.shpool
      (driverCreateVirtqueue cfg.r2h).1
      (driverCreateVirtqueue cfg.r2h).2).isSome := by
    have hsome := congrArg Option.isSome hinit
    rwa [LinkSystem.init, Option.isSome_map] at hsome
  obtain ⟨link', shpool, hlent, hmade', hshm'⟩ :=
    lends hqueues hmade.quietTxVq hshm hserved
  refine ⟨_, ?_, hlent.next (.setStatus rfl)⟩
  exact Option.some.inj ((hmade'.init hshm').symm.trans hinit)

/-- A link as it is before either side begins. -/
theorem startReachable_start (canReset : Bool) (rsc : VdevRsc)
    (hinit : LinkSystem.init cfg.toLinkLayout = some l₀) :
    StartReachable cfg.toLinkLayout canReset rsc
      ⟨rsc, .start, .waiting, l₀⟩ ∧ l₀.shm = cfg.shm := by
  simp only [LinkSystem.init, Option.map_eq_some_iff] at hinit
  obtain ⟨_, -, rfl⟩ := hinit
  exact ⟨.start ⟨rfl, rfl, rfl, rfl⟩, rfl⟩

/-- **Every state of the link is come to.** -/
theorem link_complete (canReset : Bool) (rsc : VdevRsc) {l : LinkSystem}
    (h : LinkReachable cfg l) : ∃ rsc',
    StartReachable cfg.toLinkLayout canReset rsc
      ⟨rsc', .running, .running, l⟩ := by
  induction h with
  | start hinit =>
    obtain ⟨hstart, hshm⟩ := startReachable_start canReset rsc hinit
    obtain ⟨link, hlink, hup⟩ := hostComesUp hstart hshm hinit
    have hlook := hup.next (.look rfl)
    rw [show afterLook canReset _ = .admitted from
      congrArg (afterLook canReset) (remoteReady_driverOk _)] at hlook
    have hboth := hlook.next (.remoteUp rfl)
    rw [hlink] at hboth
    exact ⟨_, hboth⟩
  | next _ hst ih =>
    obtain ⟨rsc', hup⟩ := ih
    refine ⟨rsc', ?_⟩
    cases hst with
    | toRemote h =>
      rcases laneStep_iff.mp h with h | h
      · exact hup.next (.hostSends rfl h)
      · exact hup.next (.remoteReceives rfl h)
    | toHost h =>
      rcases laneStep_iff.mp h with h | h
      · exact hup.next (.remoteSends rfl h)
      · exact hup.next (.hostReceives rfl h)

/-- A status that is set lets the remote in before the host has begun. -/
theorem early_remote (hinit : LinkSystem.init cfg.toLinkLayout = some l₀)
    (hrsc : rpmsgVirtioRemoteReady rsc = .ready) :
    ¬ ComesUp cfg canReset rsc := by
  intro h
  have hlook := (startReachable_start canReset rsc hinit).1.next (.look rfl)
  rw [show afterLook canReset _ = .admitted from
    congrArg (afterLook canReset) hrsc] at hlook
  cases (h.inOrder _ hlook).after (.inl rfl)

/-- A reset that is asked for is refused, or it takes back what the host has
said in the meantime. -/
theorem lost_status (hinit : LinkSystem.init cfg.toLinkLayout = some l₀)
    (hrsc : rpmsgVirtioRemoteReady rsc = .reset) :
    ¬ ComesUp cfg canReset rsc := by
  intro h
  obtain ⟨hstart, hshm⟩ := startReachable_start canReset rsc hinit
  have hlook := hstart.next (.look rfl)
  rw [show afterLook canReset _ = if canReset then .resetting else .refused from
    congrArg (afterLook canReset) hrsc] at hlook
  cases canReset with
  | false => exact (h.inOrder _ hlook).accepted rfl
  | true =>
    obtain ⟨link, -, hup⟩ := hostComesUp hlook hshm hinit
    have htold := (h.inOrder _ (hup.next (.clearStatus rfl))).told rfl rfl
    cases htold.symm.trans (remoteReady_clear _)

/-- **The two sides come up in order, and as a link**, exactly if the status
they find says neither that the driver is ready nor that a reset is
needed. -/
theorem comesUp_iff (hinit : (LinkSystem.init cfg.toLinkLayout).isSome) :
    ComesUp cfg canReset rsc ↔ rpmsgVirtioRemoteReady rsc = .notYet := by
  obtain ⟨l₀, hl₀⟩ := Option.isSome_iff_exists.mp hinit
  constructor
  · intro h
    cases hrsc : rpmsgVirtioRemoteReady rsc with
    | ready => exact absurd h (early_remote hl₀ hrsc)
    | reset => exact absurd h (lost_status hl₀ hrsc)
    | notYet => rfl
  · intro hrsc
    exact ⟨fun s hs => (hs.inv hrsc).inOrder,
      fun l hl => link_complete canReset rsc hl⟩

/-- A table fresh from the firmware, and one that says `DRIVER_OK` as a
previous start has left it. -/
theorem comesUp_iff_pair :
    ComesUp pairLink true ⟨7, 1, 0, 0, 2⟩ ∧
      ¬ ComesUp pairLink true ⟨7, 1, 1, VIRTIO_CONFIG_STATUS_DRIVER_OK, 2⟩ := by
  have hinit : (LinkSystem.init pairLink.toLinkLayout).isSome := by
    rw [LinkSystem.init, Option.isSome_map]
    decide
  refine ⟨(comesUp_iff hinit).mpr (by decide), fun h => ?_⟩
  exact absurd ((comesUp_iff hinit).mp h) (by decide)

end Run

end OpenAmp.Rpmsg
