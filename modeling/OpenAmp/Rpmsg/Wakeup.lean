import OpenAmp.Rpmsg.Reception
import OpenAmp.Virtio.Notify

/-!
# Waking the receiver

One direction of a link, from `rpmsg_init_vdev` on: the sender's send
queue and the receiver's receive queue over one ring. Either side may be
the driver. `rpmsg_init_vdev` silences the callback of the send queue
and never arms that of the receive queue, and no rpmsg function arms or
disarms a callback later on. So whether the kick of a send wakes the
receiver depends on what the ring held from the start.

Nothing is promised about the callers: any number of threads send, call
`rpmsg_virtio_rx_callback`, hold and release, with any buffer and index,
and the bytes of the shared memory may change at any time.
-/

namespace OpenAmp.Rpmsg

open OpenAmp.Lib OpenAmp.Metal OpenAmp.Virtio

/-- What is fixed for a direction: `role` is the sender's, `features` the
feature word of both sides, and both sides have a notify hook. -/
structure WireConfig where
  order : Nat
  order_le : order ≤ 15
  role : VirtioRole
  features : UInt32
  drvIo : MetalIoRegion
  devIo : MetalIoRegion
  h2rBufSize : UInt32
  r2hBufSize : UInt32
  shpool : ShmPool
  shm : Mem
  reclaimer : UInt64

def WireConfig.vq (cfg : WireConfig) : VqConfig where
  order := cfg.order
  order_le := cfg.order_le
  drvFeatures := cfg.features
  devFeatures := cfg.features
  drvIo := cfg.drvIo
  devIo := cfg.devIo
  drvNotify := true
  devNotify := true

def WireConfig.io (cfg : WireConfig) : VirtioRole → MetalIoRegion
  | .driver => cfg.drvIo
  | .device => cfg.devIo

/-- Both ends of a direction. `running` counts the threads that are in
`rpmsg_virtio_rx_callback`, `sent` the sends completed. -/
structure KickWire where
  us : TxDevice
  rvq : Virtqueue
  running : Nat
  sent : Nat

/-- Both ends as `rpmsg_init_vdev` leaves them, if it succeeds: the
sender has disabled the callback of its queue, and a receiving driver has
lent all entries. -/
def KickWire.init (cfg : WireConfig) : Option KickWire :=
  let q := VqSystem.init cfg.vq
  let start (svq rvq : Virtqueue) (ring : Vring) : KickWire :=
    { us :=
        { h2rBufSize := cfg.h2rBufSize
          shpool := cfg.shpool
          svq := svq
          ring := virtqueueDisableCb svq ring
          mem := ⟨cfg.io cfg.role, cfg.shm, cfg.reclaimer, cfg.reclaimer,
            cfg.reclaimer⟩ }
      rvq := rvq
      running := 0
      sent := 0 }
  match cfg.role with
  | .driver => some (start q.drv q.dev q.ring)
  | .device =>
    (rpmsgInitRxBuffers cfg.r2hBufSize cfg.vq.num cfg.shpool q.drv q.ring).map
      fun (_, rvq, ring) => start q.dev rvq ring

/-- The receiving side. -/
def KickWire.receiver (cfg : WireConfig) (s : KickWire) : RxDevice :=
  ⟨s.rvq, s.us.ring, cfg.io cfg.role.peer, s.us.mem.shm⟩

def KickWire.withReceiver (s : KickWire) (rvdev : RxDevice) : KickWire :=
  { s with
    us := { s.us with
      ring := rvdev.ring
      mem := { s.us.mem with shm := rvdev.shm } }
    rvq := rvdev.rvq }

/-- The locked parts of the rpmsg functions, and the writing of shared
memory in between. -/
inductive WireCall where
  | getTxBuffer
  | write (f : Mem → Mem)
  | send (hdr : UInt64) (idx : UInt16)
  | releaseTxBuffer (hdr : UInt64)
  | rxCallback
  | rxTake
  | holdRxBuffer (hdr : UInt64)
  | releaseRxBuffer (hdr : UInt64)

/-- One step; `none` when the call cannot happen or does not end. The
callback ends when it takes no buffer. -/
def KickWire.exec (cfg : WireConfig) (s : KickWire) : WireCall → Option KickWire
  | .getTxBuffer =>
    (rpmsgVirtioGetTxBuffer s.us).map fun (_, us) => { s with us := us }
  | .write f =>
    some { s with us := { s.us with
      mem := { s.us.mem with shm := f s.us.mem.shm } } }
  | .send hdr idx =>
    let (status, _, us) := enqueueTxBuffer s.us hdr idx
    if status = VQUEUE_SUCCESS then
      some { s with us := us, sent := s.sent + 1 }
    else none
  | .releaseTxBuffer hdr =>
    some { s with us := { s.us with
      mem := rpmsgVirtioReleaseTxBuffer s.us.mem hdr } }
  | .rxCallback => some { s with running := s.running + 1 }
  | .rxTake =>
    if s.running = 0 then none
    else (rxTakeBuffer (s.receiver cfg)).map fun (b, rvdev) =>
      { s.withReceiver rvdev with
        running := if b.isNone then s.running - 1 else s.running }
  | .holdRxBuffer hdr =>
    some (s.withReceiver (rpmsgVirtioHoldRxBuffer (s.receiver cfg) hdr))
  | .releaseRxBuffer hdr =>
    some (s.withReceiver (rpmsgVirtioReleaseRxBuffer (s.receiver cfg) hdr).2)

/-- The states of all runs. -/
def WireReachable (cfg : WireConfig) : KickWire → Prop :=
  Reachable (fun s => KickWire.init cfg = some s) fun s t =>
    ∃ c, s.exec cfg c = some t

/-- The receiver has drained its queue: no thread is in the callback, and
one that called it now would find nothing. -/
def KickWire.Drained (cfg : WireConfig) (s : KickWire) : Prop :=
  s.running = 0 ∧
    (rxTakeBuffer (s.receiver cfg)).map (·.1.isNone) = some true

/-- The kick inside a send from `s` invokes the notify hook, if the send
is completed. -/
def KickWire.SendWakes (s : KickWire) : Prop :=
  ∀ hdr idx notified us,
    enqueueTxBuffer s.us hdr idx = (VQUEUE_SUCCESS, notified, us) →
    notified = true

/-! ## What the receiver leaves alone -/

variable {p : VirtioRole} {num : UInt16} {vr vr' : Vring}

/-- The words of the ring that decide the kicks of side `p` stay. -/
structure KicksKept (p : VirtioRole) (num : UInt16) (vr vr' : Vring) :
    Prop where
  flag : vr.flagClear p → vr'.flagClear p
  event : vr'.eventFor num.toUInt32 p = vr.eventFor num.toUInt32 p
  prod : vr'.prodIdx p = vr.prodIdx p

theorem KicksKept.refl (p : VirtioRole) (num : UInt16) (vr : Vring) :
    KicksKept p num vr vr := ⟨id, rfl, rfl⟩

/-- A masked index never reaches the cell behind the last entry. -/
theorem mask_ne (x : UInt16) (hnum : num ≠ 0) : num ≠ x &&& (num - 1) := by
  intro h
  have hle : x &&& (num - 1) ≤ num - 1 := UInt16.and_le_right
  rw [← h, UInt16.le_iff_toNat_le] at hle
  have hpos : num.toNat ≠ 0 := fun h0 => hnum (UInt16.toNat_inj.mp h0)
  have hone : 1 ≤ num := by
    rw [UInt16.le_iff_toNat_le, UInt16.toNat_one]
    omega
  rw [UInt16.toNat_sub_of_le _ _ hone, UInt16.toNat_one] at hle
  omega

theorem kicksKept_addBuffer {vq : Virtqueue} {bufList : Nat → VirtqueueBuf}
    {readable writable : Int} {cookie : UInt64} {r : Int × Virtqueue × Vring}
    (h : virtqueueAddBuffer vq vr bufList readable writable cookie = r)
    (hnum : vq.vqNentries ≠ 0) :
    KicksKept .device vq.vqNentries vr r.2.2 := by
  subst h
  refine ⟨id, ?_, rfl⟩
  simp [Vring.eventFor, vringUsedEvent, virtqueueAddBuffer, vqRingUpdateAvail,
    Function.update_of_ne (mask_ne _ hnum)]

theorem kicksKept_addConsumedBuffer {vq : Virtqueue} {head : UInt16}
    {len : UInt32} {r : Int × Virtqueue × Vring}
    (h : virtqueueAddConsumedBuffer vq vr head len = r)
    (hnum : vq.vqNentries ≠ 0) :
    KicksKept .driver vq.vqNentries vr r.2.2 := by
  subst h
  unfold virtqueueAddConsumedBuffer
  split
  · exact .refl _ _ _
  · refine ⟨id, ?_, rfl⟩
    simp [Vring.eventFor, vringAvailEvent,
      Function.update_of_ne (mask_ne _ hnum)]

theorem addConsumedBuffer_fixed {vq : Virtqueue} {head : UInt16}
    {len : UInt32} {r : Int × Virtqueue × Vring}
    (h : virtqueueAddConsumedBuffer vq vr head len = r) :
    r.2.1.vqDev = vq.vqDev ∧ r.2.1.vqNentries = vq.vqNentries := by
  subst h
  unfold virtqueueAddConsumedBuffer
  split <;> exact ⟨rfl, rfl⟩

theorem kicksKept_getBuffer {vq vq' : Virtqueue} {r : Option GotBuffer}
    (h : virtqueueGetBuffer vq vr = some (r, vq', vr')) :
    KicksKept .device num vr vr' := by
  unfold virtqueueGetBuffer at h
  split at h
  · obtain ⟨-, -, rfl⟩ : r = none ∧ vq' = vq ∧ vr' = vr := by simp_all
    exact .refl _ _ _
  · obtain ⟨⟨vq₁, vr₁⟩, hfree, heq⟩ := Option.map_eq_some_iff.mp h
    obtain ⟨⟨dp, nd⟩, -, hring⟩ := Option.map_eq_some_iff.mp hfree
    obtain ⟨rfl, rfl⟩ := Prod.mk.inj hring
    obtain ⟨rfl, rfl⟩ := Prod.mk.inj (Prod.mk.inj heq).2
    exact ⟨id, rfl, rfl⟩

/-- What a step of the receiver does to its queue and to the ring of side
`p`. -/
structure RxKept (p : VirtioRole) (d d' : RxDevice) : Prop where
  dev : d'.rvq.vqDev = d.rvq.vqDev
  nentries : d'.rvq.vqNentries = d.rvq.vqNentries
  kept : KicksKept p d.rvq.vqNentries d.ring d'.ring

variable {d d' : RxDevice}

theorem rxKept_getRxBuffer (hrole : d.role = p.peer) {b : Option VqBuffer}
    (h : rpmsgVirtioGetRxBuffer d = some (b, d')) : RxKept p d d' := by
  cases p with
  | driver =>
    simp only [rpmsgVirtioGetRxBuffer, hrole, VirtioRole.peer,
      Option.some.injEq, Prod.mk.injEq] at h
    obtain ⟨-, rfl⟩ := h
    obtain ⟨hown, -⟩ : OwnStep .device d.rvq _ d.ring _ 0 ∧ _ :=
      ownStep_getAvailableBuffer rfl
    exact ⟨hown.dev, hown.nentries, .refl _ _ _⟩
  | device =>
    simp only [rpmsgVirtioGetRxBuffer, hrole, VirtioRole.peer] at h
    obtain ⟨⟨g, rvq, ring⟩, hget, heq⟩ := Option.map_eq_some_iff.mp h
    obtain ⟨-, rfl⟩ := Prod.mk.inj heq
    obtain ⟨hown, -⟩ := ownStep_getBuffer hget
    exact ⟨hown.dev, hown.nentries, kicksKept_getBuffer hget⟩

theorem rxKept_takeBuffer (hrole : d.role = p.peer) {b : Option VqBuffer}
    (h : rxTakeBuffer d = some (b, d')) : RxKept p d d' := by
  obtain ⟨⟨b', d₁⟩, hget, heq⟩ := Option.map_eq_some_iff.mp h
  have hkept := rxKept_getRxBuffer hrole hget
  cases b' with
  | none =>
    obtain ⟨-, rfl⟩ := Prod.mk.inj heq
    exact hkept
  | some b' =>
    obtain ⟨-, rfl⟩ := Prod.mk.inj heq
    exact ⟨hkept.dev, hkept.nentries, hkept.kept⟩

theorem rxKept_returnBuffer (hrole : d.role = p.peer)
    (hnum : d.rvq.vqNentries ≠ 0) {buffer : UInt64} {len : UInt32}
    {idx : UInt16} {st : Int}
    (h : rpmsgVirtioReturnBuffer d buffer len idx = (st, d')) :
    RxKept p d d' := by
  cases p with
  | driver =>
    simp only [rpmsgVirtioReturnBuffer, hrole, VirtioRole.peer] at h
    rcases hadd : virtqueueAddConsumedBuffer d.rvq d.ring idx len with
      ⟨st', rvq, ring⟩
    have hkept := kicksKept_addConsumedBuffer hadd hnum
    obtain ⟨hdev, hn⟩ := addConsumedBuffer_fixed hadd
    simp only [hadd, Prod.mk.injEq] at h
    obtain ⟨-, rfl⟩ := h
    exact ⟨hdev, hn, hkept⟩
  | device =>
    simp only [rpmsgVirtioReturnBuffer, hrole, VirtioRole.peer] at h
    rcases hadd : virtqueueAddBuffer d.rvq d.ring
      (fun _ => ⟨buffer, len.toInt32⟩) 0 1 buffer with ⟨st', rvq, ring⟩
    have hkept := kicksKept_addBuffer hadd hnum
    obtain ⟨hown, -⟩ := ownStep_addBuffer _ _ _ _ _ _ hadd
    simp only [hadd, Prod.mk.injEq] at h
    obtain ⟨-, rfl⟩ := h
    exact ⟨hown.dev, hown.nentries, hkept⟩

theorem rxKept_releaseRxBuffer (hrole : d.role = p.peer)
    (hnum : d.rvq.vqNentries ≠ 0) {hdr : UInt64} {st : Option Int}
    (h : rpmsgVirtioReleaseRxBuffer d hdr = (st, d')) : RxKept p d d' := by
  simp only [rpmsgVirtioReleaseRxBuffer] at h
  split at h
  · rcases hret : rpmsgVirtioReleaseRxBufferNolock { d with
      shm := setHdrReserved d.io d.shm hdr (rpmsgVirtioBufHeldDecTest
        (hdrReserved d.io d.shm hdr)).2 } hdr with ⟨st', d₁⟩
    have hkept := rxKept_returnBuffer (by exact hrole) (by exact hnum) hret
    simp only [hret, Prod.mk.injEq] at h
    obtain ⟨-, rfl⟩ := h
    exact ⟨hkept.dev, hkept.nentries, hkept.kept⟩
  · obtain ⟨-, rfl⟩ := Prod.mk.inj h
    exact ⟨rfl, rfl, .refl _ _ _⟩

/-! ## What the sender does -/

variable {us us' : TxDevice}

theorem getPoolBuffer_queue {b : Option VqBuffer}
    (h : rpmsgVirtioGetTxBuffer.rpmsgVirtioGetPoolBuffer us = (b, us')) :
    us'.svq = us.svq ∧ us'.ring = us.ring := by
  unfold rpmsgVirtioGetTxBuffer.rpmsgVirtioGetPoolBuffer at h
  split at h <;> obtain ⟨-, rfl⟩ := Prod.mk.inj h <;> exact ⟨rfl, rfl⟩

theorem ownStep_getTxBuffer (hrole : us.role = p) {b : Option VqBuffer}
    (h : rpmsgVirtioGetTxBuffer us = some (b, us')) :
    OwnStep p us.svq us'.svq us.ring us'.ring 0 ∧
      us'.svq.vqQueuedCnt = us.svq.vqQueuedCnt := by
  have hsame : OwnStep p us.svq us.svq us.ring us.ring 0 :=
    ⟨rfl, rfl, rfl, rfl, by simp, fun _ => rfl, id⟩
  unfold rpmsgVirtioGetTxBuffer at h
  split at h
  · -- a reclaimed buffer: the queue is not looked at
    obtain ⟨-, rfl⟩ := Prod.mk.inj (Option.some.inj h)
    exact ⟨hsame, rfl⟩
  · cases p with
    | driver =>
      simp only [hrole] at h
      rcases hget : virtqueueGetBuffer us.svq us.ring with
        _ | ⟨_ | g, svq, ring⟩
      · simp [hget] at h
      · -- nothing has come back, the pool is asked
        simp only [hget, Option.some.injEq] at h
        obtain ⟨hown, hq⟩ := ownStep_getBuffer hget
        obtain ⟨hsvq, hring⟩ := getPoolBuffer_queue h
        rw [hsvq, hring]
        exact ⟨hown, hq⟩
      · simp only [hget] at h
        obtain ⟨hown, hq⟩ := ownStep_getBuffer hget
        split at h
        · obtain ⟨-, rfl⟩ := Prod.mk.inj (Option.some.inj h)
          exact ⟨hown, hq⟩
        · obtain ⟨hsvq, hring⟩ := getPoolBuffer_queue (Option.some.inj h)
          rw [hsvq, hring]
          exact ⟨hown, hq⟩
    | device =>
      simp only [hrole, Option.some.injEq, Prod.mk.injEq] at h
      obtain ⟨-, rfl⟩ := h
      exact ownStep_getAvailableBuffer rfl

/-- A completed send adds one entry and asks `vq_ring_must_notify` with
one entry queued. -/
theorem enqueueTxBuffer_own (hrole : us.role = p) {hdr : UInt64}
    {idx : UInt16} {notified : Bool}
    (h : enqueueTxBuffer us hdr idx = (VQUEUE_SUCCESS, notified, us')) :
    ∃ svq, OwnStep p us.svq svq us.ring us'.ring 1 ∧
      svq.vqQueuedCnt = us.svq.vqQueuedCnt + 1 ∧
      us'.svq = { svq with vqQueuedCnt := 0 } ∧
      notified = (vqRingMustNotify svq us'.ring && svq.notify) := by
  cases p with
  | driver =>
    simp only [enqueueTxBuffer, rpmsgVirtioEnqueueBuffer, hrole] at h
    rcases hadd : virtqueueAddBuffer us.svq us.ring
      (fun _ => ⟨hdr, us.h2rBufSize.toInt32⟩) 1 0 hdr with ⟨st, svq, ring⟩
    obtain ⟨hown, hq⟩ := ownStep_addBuffer _ _ _ _ _ _ hadd
    simp only [hadd, Prod.mk.injEq] at h
    obtain ⟨-, rfl, rfl⟩ := h
    exact ⟨svq, hown, hq, rfl, rfl⟩
  | device =>
    simp only [enqueueTxBuffer, rpmsgVirtioEnqueueBuffer, hrole] at h
    rcases hadd : virtqueueAddConsumedBuffer us.svq us.ring idx
      (virtqueueGetBufferLength us.ring idx) with ⟨st, svq, ring⟩
    simp only [hadd, Prod.mk.injEq] at h
    obtain ⟨rfl, rfl, rfl⟩ := h
    obtain ⟨hown, hq⟩ := ownStep_addConsumedBuffer hadd
    exact ⟨svq, hown, hq, rfl, rfl⟩

/-! ## What every run keeps -/

variable {cfg : WireConfig} {s t : KickWire}

/-- The receiver's silence: the flag of the sender's kicks is clear and
its event index is the zero the ring started with; the sender's index is
the number of messages sent, and it has no entry unannounced. -/
structure WireInv (cfg : WireConfig) (s : KickWire) : Prop where
  sendDev : s.us.svq.vqDev = ⟨cfg.role, cfg.features⟩
  sendNum : s.us.svq.vqRingNum = cfg.vq.nentries.toUInt32
  sendHook : s.us.svq.notify = true
  queued : s.us.svq.vqQueuedCnt = 0
  recvDev : s.rvq.vqDev = ⟨cfg.role.peer, cfg.features⟩
  recvNentries : s.rvq.vqNentries = cfg.vq.nentries
  flag : s.us.ring.flagClear cfg.role
  event : s.us.ring.eventFor cfg.vq.nentries.toUInt32 cfg.role = 0
  prod : s.us.ring.prodIdx cfg.role = UInt16.ofNat s.sent

theorem WireInv.senderRole (h : WireInv cfg s) : s.us.role = cfg.role := by
  rw [TxDevice.role, h.sendDev]

theorem WireInv.receiverRole (h : WireInv cfg s) :
    (s.receiver cfg).role = cfg.role.peer := by
  rw [RxDevice.role, KickWire.receiver, h.recvDev]

theorem WireConfig.nentries_ne (cfg : WireConfig) : cfg.vq.nentries ≠ 0 := by
  intro h
  have h0 := congrArg UInt16.toNat h
  rw [VqConfig.toNat_nentries, VqConfig.num, UInt16.toNat_zero] at h0
  exact absurd h0 (Nat.pos_iff_ne_zero.mp (Nat.two_pow_pos _))

/-- A step of the sender that adds nothing. -/
theorem WireInv.sender (h : WireInv cfg s) {us : TxDevice}
    (hown : OwnStep cfg.role s.us.svq us.svq s.us.ring us.ring 0)
    (hq : us.svq.vqQueuedCnt = s.us.svq.vqQueuedCnt) :
    WireInv cfg { s with us := us } where
  sendDev := hown.dev.trans h.sendDev
  sendNum := hown.ringNum.trans h.sendNum
  sendHook := hown.notify.trans h.sendHook
  queued := hq.trans h.queued
  recvDev := h.recvDev
  recvNentries := h.recvNentries
  flag := hown.flag h.flag
  event := (hown.event _).trans h.event
  prod := by rw [hown.prod, h.prod, UInt16.add_zero]

/-- A step of the receiver. -/
theorem WireInv.receiver (h : WireInv cfg s) {d : RxDevice} {n : Nat}
    (hkept : RxKept cfg.role (s.receiver cfg) d) :
    WireInv cfg { s.withReceiver d with running := n } where
  sendDev := h.sendDev
  sendNum := h.sendNum
  sendHook := h.sendHook
  queued := h.queued
  recvDev := hkept.dev.trans h.recvDev
  recvNentries := hkept.nentries.trans h.recvNentries
  flag := hkept.kept.flag h.flag
  event := by
    have hev := hkept.kept.event
    simp only [KickWire.receiver, h.recvNentries] at hev
    exact hev.trans h.event
  prod := hkept.kept.prod.trans h.prod

/-- A completed send. -/
theorem WireInv.send (h : WireInv cfg s) {hdr : UInt64} {idx : UInt16}
    {notified : Bool} {us : TxDevice}
    (heq : enqueueTxBuffer s.us hdr idx = (VQUEUE_SUCCESS, notified, us)) :
    WireInv cfg { s with us := us, sent := s.sent + 1 } := by
  obtain ⟨svq, hown, -, hsvq, -⟩ := enqueueTxBuffer_own h.senderRole heq
  constructor
  · simpa only [hsvq] using hown.dev.trans h.sendDev
  · simpa only [hsvq] using hown.ringNum.trans h.sendNum
  · simpa only [hsvq] using hown.notify.trans h.sendHook
  · simp only [hsvq]
  · exact h.recvDev
  · exact h.recvNentries
  · exact hown.flag h.flag
  · exact (hown.event _).trans h.event
  · simp only [hown.prod, h.prod, UInt16.ofNat_add, UInt16.ofNat_one]

theorem WireInv.exec (h : WireInv cfg s) {c : WireCall}
    (hst : s.exec cfg c = some t) : WireInv cfg t := by
  have hnum : (s.receiver cfg).rvq.vqNentries ≠ 0 := by
    simpa only [KickWire.receiver, h.recvNentries] using cfg.nentries_ne
  have hsame : OwnStep cfg.role s.us.svq s.us.svq s.us.ring s.us.ring 0 :=
    ⟨rfl, rfl, rfl, rfl, by simp, fun _ => rfl, id⟩
  cases c with
  | getTxBuffer =>
    obtain ⟨⟨b, us⟩, hget, rfl⟩ := Option.map_eq_some_iff.mp hst
    obtain ⟨hown, hq⟩ := ownStep_getTxBuffer h.senderRole hget
    exact h.sender hown hq
  | write f =>
    obtain rfl := Option.some.inj hst
    exact h.sender hsame rfl
  | send hdr idx =>
    rcases heq : enqueueTxBuffer s.us hdr idx with ⟨st, notified, us⟩
    simp only [KickWire.exec, heq] at hst
    -- only a message that was enqueued is a step
    split at hst
    case isTrue hok =>
      obtain rfl := Option.some.inj hst
      rw [hok] at heq
      exact h.send heq
    case isFalse => simp at hst
  | releaseTxBuffer hdr =>
    obtain rfl := Option.some.inj hst
    exact h.sender hsame rfl
  | rxCallback =>
    obtain rfl := Option.some.inj hst
    exact ⟨h.sendDev, h.sendNum, h.sendHook, h.queued, h.recvDev,
      h.recvNentries, h.flag, h.event, h.prod⟩
  | rxTake =>
    simp only [KickWire.exec] at hst
    split at hst
    · simp at hst
    · obtain ⟨⟨b, d⟩, htake, rfl⟩ := Option.map_eq_some_iff.mp hst
      exact h.receiver (rxKept_takeBuffer h.receiverRole htake)
  | holdRxBuffer hdr =>
    obtain rfl := Option.some.inj hst
    exact h.receiver ⟨rfl, rfl, .refl _ _ _⟩
  | releaseRxBuffer hdr =>
    obtain rfl := Option.some.inj hst
    exact h.receiver (rxKept_releaseRxBuffer h.receiverRole hnum rfl)

/-- Lending leaves the kicks of the peer as they are. -/
theorem rxKept_initRxBuffers (size : UInt32) (k : Nat) :
    ∀ {pool pool' : ShmPool} {rvq rvq' : Virtqueue} {ring ring' : Vring},
    rvq.vqNentries ≠ 0 →
    rpmsgInitRxBuffers size k pool rvq ring = some (pool', rvq', ring') →
    rvq'.vqDev = rvq.vqDev ∧ rvq'.vqNentries = rvq.vqNentries ∧
      KicksKept .device rvq.vqNentries ring ring' := by
  induction k with
  | zero =>
    intro pool pool' rvq rvq' ring ring' _ h
    simp only [rpmsgInitRxBuffers, Option.some.injEq, Prod.mk.injEq] at h
    obtain ⟨-, rfl, rfl⟩ := h
    exact ⟨rfl, rfl, .refl _ _ _⟩
  | succ k ih =>
    intro pool pool' rvq rvq' ring ring' hnum h
    simp only [rpmsgInitRxBuffers] at h
    rcases hget : rpmsgVirtioShmPoolGetBuffer pool size.toUInt64 with
      ⟨buffer, pool₁⟩
    rcases hadd : virtqueueAddBuffer rvq ring
      (fun _ => ⟨buffer, size.toInt32⟩) 0 1 buffer with ⟨st, rvq₁, ring₁⟩
    simp only [hget, hadd] at h
    obtain ⟨hown, -⟩ := ownStep_addBuffer _ _ _ _ _ _ hadd
    have hkept := kicksKept_addBuffer hadd hnum
    split at h
    · simp at h
    split at h
    · simp at h
    have hn : rvq₁.vqNentries = rvq.vqNentries := hown.nentries
    obtain ⟨hdev, hnent, hrest⟩ := ih (by rwa [hn]) h
    rw [hn] at hnent hrest
    exact ⟨hdev.trans hown.dev, hnent, fun hf => hrest.flag (hkept.flag hf),
      hrest.event.trans hkept.event, hrest.prod.trans hkept.prod⟩

/-- A fresh ring is silent for neither side. -/
theorem freshRing_kicks (cfg : VqConfig) (p : VirtioRole) :
    (VqSystem.init cfg).ring.flagClear p ∧
      (VqSystem.init cfg).ring.eventFor cfg.nentries.toUInt32 p = 0 ∧
      (VqSystem.init cfg).ring.prodIdx p = 0 := by
  cases p <;> exact ⟨UInt16.zero_and, rfl, rfl⟩

theorem wireInv_init (h : KickWire.init cfg = some s) : WireInv cfg s := by
  unfold KickWire.init at h
  obtain ⟨hflag, hevent, hprod⟩ := freshRing_kicks cfg.vq cfg.role
  cases hrole : cfg.role with
  | driver =>
    simp only [hrole, Option.some.injEq] at h hflag hevent hprod
    subst h
    have hown : OwnStep .driver _ _ _ _ 0 := ownStep_disableCb
      (VqSystem.init cfg.vq).drv (VqSystem.init cfg.vq).ring rfl
    refine ⟨?_, rfl, rfl, rfl, ?_, rfl, ?_, ?_, ?_⟩ <;> rw [hrole]
    · rfl
    · rfl
    · exact hown.flag hflag
    · exact (hown.event _).trans hevent
    · exact hown.prod.trans (by rw [hprod]; rfl)
  | device =>
    simp only [hrole] at h hflag hevent hprod
    obtain ⟨⟨pool, rvq, ring⟩, hlend, rfl⟩ := Option.map_eq_some_iff.mp h
    obtain ⟨hdev, hnum, hkept⟩ :=
      rxKept_initRxBuffers _ _ cfg.nentries_ne hlend
    have hown : OwnStep .device _ _ _ _ 0 :=
      ownStep_disableCb (VqSystem.init cfg.vq).dev ring rfl
    refine ⟨?_, rfl, rfl, rfl, ?_, hnum, ?_, ?_, ?_⟩ <;> rw [hrole]
    · rfl
    · exact hdev
    · exact hown.flag (hkept.flag hflag)
    · exact (hown.event _).trans (hkept.event.trans hevent)
    · exact hown.prod.trans (by rw [hkept.prod, hprod]; rfl)

theorem WireReachable.inv (h : WireReachable cfg s) : WireInv cfg s :=
  h.invariant (fun _ hi => wireInv_init hi)
    fun _ _ _ hs ⟨_, hst⟩ => hs.exec hst

/-- **When a send wakes the receiver.** Without event indices every send
does. With them the event index stays at zero, and only the messages
with the numbers `0`, `65536`, ... of a direction wake it, whatever the
receiver has served in between. -/
theorem send_wakes_iff (h : WireReachable cfg s) {hdr : UInt64}
    {idx : UInt16} {notified : Bool} {us : TxDevice}
    (hsend : enqueueTxBuffer s.us hdr idx = (VQUEUE_SUCCESS, notified, us)) :
    notified = true ↔
      cfg.features &&& VIRTIO_RING_F_EVENT_IDX = 0 ∨ s.sent % 65536 = 0 := by
  have hinv := h.inv
  obtain ⟨svq, hown, hq, -, rfl⟩ := enqueueTxBuffer_own hinv.senderRole hsend
  have hdev := hown.dev.trans hinv.sendDev
  have hnum := hown.ringNum.trans hinv.sendNum
  have hevent := (hown.event cfg.vq.nentries.toUInt32).trans hinv.event
  have hprod := hown.prod.trans (congrArg (· + 1) hinv.prod)
  have hflag := hown.flag hinv.flag
  rw [hinv.queued] at hq
  rw [hown.notify.trans hinv.sendHook, Bool.and_true]
  -- a kick after one entry reaches event index zero from zero only
  have hneed : vringNeedEvent 0 (UInt16.ofNat s.sent + 1)
      (UInt16.ofNat s.sent + 1 - (0 + 1)) = true ↔ s.sent % 65536 = 0 := by
    have h1 : UInt16.ofNat s.sent + 1 - 0 - 1 = UInt16.ofNat s.sent := by grind
    have h2 : UInt16.ofNat s.sent + 1 - (UInt16.ofNat s.sent + 1 - (0 + 1)) =
        1 := by grind
    rw [vringNeedEvent, h1, h2, decide_eq_true_eq, UInt16.lt_iff_toNat_lt,
      UInt16.toNat_ofNat', UInt16.toNat_one]
    omega
  by_cases hon : cfg.features &&& VIRTIO_RING_F_EVENT_IDX = 0
  · cases hrole : cfg.role <;> rw [hrole] at hdev hflag <;>
      simpa [vqRingMustNotify, hdev, VirtioDevice.eventIdx, hon,
        Vring.flagClear] using hflag
  · rw [← hneed]
    cases hrole : cfg.role <;> rw [hrole] at hdev hevent hprod <;>
      simp only [Vring.prodIdx, Vring.eventFor] at hprod hevent <;>
      simp [vqRingMustNotify, hdev, VirtioDevice.eventIdx, hon, hq, hnum,
        hevent, hprod]

/-! ## A second message -/

/-- Calls one after another. -/
def KickWire.run (cfg : WireConfig) : KickWire → List WireCall → Option KickWire
  | s, [] => some s
  | s, c :: cs => (s.exec cfg c).bind (KickWire.run cfg · cs)

theorem WireReachable.run (cs : List WireCall) :
    ∀ {s t : KickWire}, WireReachable cfg s → s.run cfg cs = some t →
      WireReachable cfg t := by
  induction cs with
  | nil =>
    intro s t hs h
    obtain rfl := Option.some.inj h
    exact hs
  | cons c cs ih =>
    intro s t hs h
    obtain ⟨m, hm, hrest⟩ := Option.bind_eq_some_iff.mp h
    exact ih (hs.next ⟨c, hm⟩) hrest

/-- A host with a pool of two buffers of 32 bytes. -/
def hostWire (features : UInt32) : WireConfig where
  order := 1
  order_le := order_one_le
  role := .driver
  features := features
  drvIo := metalIoInit 0x1000 (some fun _ => 0x1000) 0x1000 64
  devIo := metalIoInit 0x1000 (some fun _ => 0x1000) 0x1000 64
  h2rBufSize := 32
  r2hBufSize := 32
  shpool := rpmsgVirtioInitShmPool 0x1000 64
  shm := fun _ => 0
  reclaimer := 0x8000

/-- A send up to its locked part, with the buffer at the start of the
pool. -/
def prepareSend (features : UInt32) : List WireCall :=
  let io := (hostWire features).drvIo
  [.getTxBuffer,
    .write fun shm => noteTxBuffer io shm ⟨0x1000, 32, 0⟩,
    .write fun shm => (initTxHdr io shm 1024 1025 0x1000 8).2]

/-- The host sends a message, the remote's callback serves it, finds
nothing more and returns, and the host is about to send another. -/
def secondMessage (features : UInt32) : List WireCall :=
  prepareSend features ++ [.send 0x1000 0, .rxCallback, .rxTake,
    .releaseRxBuffer 0x1000, .rxTake] ++ prepareSend features

/-- What is seen at the end of `secondMessage`. -/
theorem secondMessage_seen (features : UInt32) {b : Bool}
    (h : ((KickWire.init (hostWire features)).bind
      (·.run (hostWire features) (secondMessage features))).map (fun s =>
        (s.running, s.sent, (rxTakeBuffer (s.receiver
          (hostWire features))).map (·.1.isNone),
          (enqueueTxBuffer s.us 0x1000 0).1,
          (enqueueTxBuffer s.us 0x1000 0).2.1)) =
      some (0, 1, some true, VQUEUE_SUCCESS, b)) :
    ∃ s us, WireReachable (hostWire features) s ∧
      s.Drained (hostWire features) ∧ s.sent = 1 ∧
      enqueueTxBuffer s.us 0x1000 0 = (VQUEUE_SUCCESS, b, us) := by
  obtain ⟨s, hs, heq⟩ := Option.map_eq_some_iff.mp h
  obtain ⟨s₀, h₀, hrun⟩ := Option.bind_eq_some_iff.mp hs
  simp only [Prod.mk.injEq] at heq
  obtain ⟨hrunning, hsent, hnone, hst, hb⟩ := heq
  exact ⟨s, _, WireReachable.run _ (.start h₀) hrun, ⟨hrunning, hnone⟩, hsent,
    Prod.ext hst (Prod.ext hb rfl)⟩

/-- Without event indices the second message wakes the remote. -/
theorem second_message_wakes : ∃ s us b, WireReachable (hostWire 0) s ∧
    s.Drained (hostWire 0) ∧ s.sent = 1 ∧
    enqueueTxBuffer s.us 0x1000 0 = (VQUEUE_SUCCESS, b, us) ∧ b = true := by
  obtain ⟨s, us, hs, hdr, hsent, heq⟩ :=
    secondMessage_seen 0 (b := true) (by decide +kernel)
  exact ⟨s, us, _, hs, hdr, hsent, heq, (send_wakes_iff hs heq).mpr (.inl rfl)⟩

/-- With them it does not. -/
theorem second_message_lost :
    ¬ ∀ s, WireReachable (hostWire VIRTIO_RING_F_EVENT_IDX) s →
      s.Drained (hostWire VIRTIO_RING_F_EVENT_IDX) → s.SendWakes := by
  intro hall
  obtain ⟨s, us, hs, hdr, -, heq⟩ := secondMessage_seen
    VIRTIO_RING_F_EVENT_IDX (b := false) (by decide +kernel)
  exact absurd (hall s hs hdr _ _ _ _ heq) (by decide)

end OpenAmp.Rpmsg
