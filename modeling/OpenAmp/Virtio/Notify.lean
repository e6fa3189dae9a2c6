import OpenAmp.Lib.Transition
import OpenAmp.Virtio.Invariant

/-!
# Notification

The kick and callback protocol of a ring, on its own: both sides add,
take, kick, enable and disable in any order. Nothing is promised about
what they add or take, and the ring may have any number of entries;
the one promise is that fewer than `2 ^ 16` entries are added
between two kicks, without which `vq_queued_cnt` wraps.

Each step shows an event, so a result can speak about the order of kicks
and adds in a run.
-/

namespace OpenAmp.Virtio

open OpenAmp.Metal OpenAmp.Lib

/-- The other side of the ring. -/
def VirtioRole.peer : VirtioRole → VirtioRole
  | .driver => .device
  | .device => .driver

/-- What a step of one side shows. -/
inductive VqEvent where
  | add (side : VirtioRole)
  | take (side : VirtioRole)
  | kick (side : VirtioRole) (notified : Bool)
  | enableCb (side : VirtioRole) (ret : Int)
  | disableCb (side : VirtioRole)
deriving DecidableEq, Repr

/-- The side that takes the step. -/
def VqEvent.side : VqEvent → VirtioRole
  | .add side | .take side | .kick side _ | .enableCb side _
  | .disableCb side => side

/-- A ring whose two sides agree on `VIRTIO_RING_F_EVENT_IDX`. -/
structure NotifyConfig where
  nentries : UInt16
  features : VirtioRole → UInt32
  agree : features .driver &&& VIRTIO_RING_F_EVENT_IDX =
    features .device &&& VIRTIO_RING_F_EVENT_IDX
  io : VirtioRole → MetalIoRegion

/-- Both queues, the ring and, for either side, the number of entries it
added since its last kick. No queue function reads that number. -/
structure NotifyState where
  vq : VirtioRole → Virtqueue
  ring : Vring
  adds : VirtioRole → Nat

/-- Both queues created over a zeroed ring, with their notify hooks. -/
def NotifyState.init (cfg : NotifyConfig) : NotifyState :=
  let create side ring := (virtqueueCreate ⟨side, cfg.features side⟩
    cfg.nentries true (virtqueueAllocate ⟨side, cfg.features side⟩ (cfg.io side))
    ring).2
  let (drv, ring) := create .driver zeroedVring
  let (dev, ring) := create .device ring
  { vq := fun
      | .driver => drv
      | .device => dev
    ring := ring
    adds := fun _ => 0 }

/-- Side `side` leaves its queue as `vq` and the ring as `ring`. -/
def NotifyState.put (s : NotifyState) (side : VirtioRole) (vq : Virtqueue)
    (ring : Vring) (adds : Nat) : NotifyState where
  vq := Function.update s.vq side vq
  ring := ring
  adds := Function.update s.adds side adds

inductive NotifyStep : NotifyState → VqEvent → NotifyState → Prop where
  | addBuffer {s : NotifyState} (bufList : Nat → VirtqueueBuf)
      (readable writable : Int) (cookie : UInt64) {ret vq ring}
      (h : virtqueueAddBuffer (s.vq .driver) s.ring bufList readable writable
        cookie = (ret, vq, ring))
      (hadds : s.adds .driver + 1 < 2 ^ 16) :
      NotifyStep s (.add .driver) (s.put .driver vq ring (s.adds .driver + 1))
  | addConsumedBuffer {s : NotifyState} (head : UInt16) (len : UInt32) {vq ring}
      (h : virtqueueAddConsumedBuffer (s.vq .device) s.ring head len =
        (VQUEUE_SUCCESS, vq, ring))
      (hadds : s.adds .device + 1 < 2 ^ 16) :
      NotifyStep s (.add .device) (s.put .device vq ring (s.adds .device + 1))
  | getBuffer {s : NotifyState} {r vq ring}
      (h : virtqueueGetBuffer (s.vq .driver) s.ring = some (r, vq, ring)) :
      NotifyStep s (.take .driver) (s.put .driver vq ring (s.adds .driver))
  | getAvailableBuffer {s : NotifyState} {r vq}
      (h : virtqueueGetAvailableBuffer (s.vq .device) s.ring = (r, vq)) :
      NotifyStep s (.take .device) (s.put .device vq s.ring (s.adds .device))
  | kick {s : NotifyState} (side : VirtioRole) {notified vq}
      (h : virtqueueKick (s.vq side) s.ring = (notified, vq)) :
      NotifyStep s (.kick side notified) (s.put side vq s.ring 0)
  | enableCb {s : NotifyState} (side : VirtioRole) {ret ring}
      (h : virtqueueEnableCb (s.vq side) s.ring = (ret, ring)) :
      NotifyStep s (.enableCb side ret) (s.put side (s.vq side) ring (s.adds side))
  | disableCb {s : NotifyState} (side : VirtioRole) :
      NotifyStep s (.disableCb side) (s.put side (s.vq side)
        (virtqueueDisableCb (s.vq side) s.ring) (s.adds side))

/-- The runs from the initial state. -/
def NotifyRun (cfg : NotifyConfig) : List VqEvent → NotifyState → Prop :=
  Path NotifyStep (NotifyState.init cfg)

/-! ## What a side offers and asks for -/

/-- The free-running index side `side` adds at. -/
def Vring.prodIdx (vr : Vring) : VirtioRole → UInt16
  | .driver => vr.avail.idx
  | .device => vr.used.idx

/-- The event index that decides the kicks of side `side`. -/
def Vring.eventFor (vr : Vring) (num : UInt32) : VirtioRole → UInt16
  | .driver => vringAvailEvent num vr
  | .device => vringUsedEvent num vr

/-- Whether the flag that silences the kicks of side `side` is clear. -/
def Vring.flagClear (vr : Vring) : VirtioRole → Prop
  | .driver => vr.used.flags &&& VRING_USED_F_NO_NOTIFY = 0
  | .device => vr.avail.flags &&& VRING_AVAIL_F_NO_INTERRUPT = 0

/-- What never changes of a queue. -/
structure QueueFixed (cfg : NotifyConfig) (side : VirtioRole)
    (vq : Virtqueue) : Prop where
  dev : vq.vqDev = ⟨side, cfg.features side⟩
  nentries : vq.vqNentries = cfg.nentries
  ringNum : vq.vqRingNum = cfg.nentries.toUInt32
  notify : vq.notify = true

/-- What every run keeps: `vq_queued_cnt` has not wrapped. -/
structure NotifyInv (cfg : NotifyConfig) (s : NotifyState) : Prop where
  fixed : ∀ side, QueueFixed cfg side (s.vq side)
  queued : ∀ side, (s.vq side).vqQueuedCnt = UInt16.ofNat (s.adds side)
  bound : ∀ side, s.adds side < 2 ^ 16

/-- Whether the two sides use event indices. -/
def NotifyConfig.eventIdx (cfg : NotifyConfig) : Bool :=
  (VirtioDevice.mk .driver (cfg.features .driver)).eventIdx

theorem NotifyConfig.eventIdx_eq (cfg : NotifyConfig) (side : VirtioRole) :
    (VirtioDevice.mk side (cfg.features side)).eventIdx = cfg.eventIdx := by
  cases side with
  | driver => rfl
  | device => simp [eventIdx, VirtioDevice.eventIdx, cfg.agree]

/-- The peer of `p` waits for the next entry of `p`, and `p` has added
`k` entries since, all of them after its last kick. -/
structure Armed (cfg : NotifyConfig) (p : VirtioRole) (k : Nat)
    (s : NotifyState) : Prop where
  event : cfg.eventIdx = true →
    s.ring.prodIdx p = s.ring.eventFor cfg.nentries.toUInt32 p + UInt16.ofNat k
  flag : cfg.eventIdx = false → s.ring.flagClear p
  adds : k ≤ s.adds p

/-! ## What the steps of a side leave alone -/

/-- What one step of side `side` does to its own queue and to the ring:
the queue's fixed fields stay, the half of the ring its peer writes
stays, and its index advances by `k`. -/
structure OwnStep (side : VirtioRole) (vq vq' : Virtqueue) (vr vr' : Vring)
    (k : UInt16) : Prop where
  dev : vq'.vqDev = vq.vqDev
  nentries : vq'.vqNentries = vq.vqNentries
  ringNum : vq'.vqRingNum = vq.vqRingNum
  notify : vq'.notify = vq.notify
  prod : vr'.prodIdx side = vr.prodIdx side + k
  event : ∀ num, vr'.eventFor num side = vr.eventFor num side
  flag : vr.flagClear side → vr'.flagClear side

theorem ownStep_addBuffer (vq : Virtqueue) (vr : Vring)
    (bufList : Nat → VirtqueueBuf) (readable writable : Int)
    (cookie : UInt64) {r : Int × Virtqueue × Vring}
    (h : virtqueueAddBuffer vq vr bufList readable writable cookie = r) :
    OwnStep .driver vq r.2.1 vr r.2.2 1 ∧
      r.2.1.vqQueuedCnt = vq.vqQueuedCnt + 1 := by
  subst h
  exact ⟨⟨rfl, rfl, rfl, rfl, rfl, fun _ => rfl, fun hf => hf⟩, rfl⟩

theorem ownStep_addConsumedBuffer {vq vq' : Virtqueue} {vr vr' : Vring}
    {head : UInt16} {len : UInt32}
    (h : virtqueueAddConsumedBuffer vq vr head len =
      (VQUEUE_SUCCESS, vq', vr')) :
    OwnStep .device vq vq' vr vr' 1 ∧
      vq'.vqQueuedCnt = vq.vqQueuedCnt + 1 := by
  unfold virtqueueAddConsumedBuffer at h
  split at h
  · simp [VQUEUE_SUCCESS, ERROR_VRING_NO_BUFF] at h
  · obtain ⟨rfl, rfl⟩ := Prod.mk.inj (Prod.mk.inj h).2
    exact ⟨⟨rfl, rfl, rfl, rfl, rfl, fun _ => rfl, fun hf => hf⟩, rfl⟩

theorem ownStep_freeChain {vq vq' : Virtqueue} {vr vr' : Vring}
    {descIdx : UInt16} (h : vqRingFreeChain vq vr descIdx = some (vq', vr')) :
    OwnStep .driver vq vq' vr vr' 0 ∧ vq'.vqQueuedCnt = vq.vqQueuedCnt := by
  unfold vqRingFreeChain at h
  obtain ⟨⟨dp, nd⟩, -, heq⟩ := Option.map_eq_some_iff.mp h
  obtain ⟨rfl, rfl⟩ := Prod.mk.inj heq
  exact ⟨⟨rfl, rfl, rfl, rfl, by simp [Vring.prodIdx], fun _ => rfl,
    fun hf => hf⟩, rfl⟩

theorem ownStep_getBuffer {vq vq' : Virtqueue} {vr vr' : Vring}
    {r : Option GotBuffer}
    (h : virtqueueGetBuffer vq vr = some (r, vq', vr')) :
    OwnStep .driver vq vq' vr vr' 0 ∧ vq'.vqQueuedCnt = vq.vqQueuedCnt := by
  unfold virtqueueGetBuffer at h
  split at h
  · obtain ⟨-, rfl, rfl⟩ : r = none ∧ vq' = vq ∧ vr' = vr := by simp_all
    exact ⟨⟨rfl, rfl, rfl, rfl, by simp, fun _ => rfl, fun hf => hf⟩, rfl⟩
  · obtain ⟨⟨vq₁, vr₁⟩, hfree, heq⟩ := Option.map_eq_some_iff.mp h
    obtain ⟨hown, hq⟩ := ownStep_freeChain hfree
    obtain ⟨rfl, rfl⟩ := Prod.mk.inj (Prod.mk.inj heq).2
    exact ⟨⟨hown.dev, hown.nentries, hown.ringNum, hown.notify, hown.prod,
      hown.event, hown.flag⟩, hq⟩

theorem ownStep_getAvailableBuffer {vq vq' : Virtqueue} {vr : Vring}
    {r : Option AvailableBuffer}
    (h : virtqueueGetAvailableBuffer vq vr = (r, vq')) :
    OwnStep .device vq vq' vr vr 0 ∧ vq'.vqQueuedCnt = vq.vqQueuedCnt := by
  unfold virtqueueGetAvailableBuffer at h
  split at h <;> obtain ⟨-, rfl⟩ := Prod.mk.inj h <;>
    exact ⟨⟨rfl, rfl, rfl, rfl, by simp, fun _ => rfl, fun hf => hf⟩, rfl⟩

/-- Arming and disarming touch the half of the ring the side itself
writes. -/
theorem ownStep_enableCb {vq : Virtqueue} {vr : Vring} {side : VirtioRole}
    (hrole : vq.vqDev.role = side) {r : Int × Vring}
    (h : virtqueueEnableCb vq vr = r) : OwnStep side vq vq vr r.2 0 := by
  subst h
  refine ⟨rfl, rfl, rfl, rfl, ?_, ?_, ?_⟩ <;>
    simp only [virtqueueEnableCb, vqRingEnableInterrupt, armInterrupt, hrole] <;>
    cases side <;> split <;>
    simp [Vring.prodIdx, Vring.eventFor, Vring.flagClear, vringAvailEvent,
      vringUsedEvent]

theorem ownStep_disableCb (vq : Virtqueue) (vr : Vring) {side : VirtioRole}
    (hrole : vq.vqDev.role = side) :
    OwnStep side vq vq vr (virtqueueDisableCb vq vr) 0 := by
  refine ⟨rfl, rfl, rfl, rfl, ?_, ?_, ?_⟩ <;>
    simp only [virtqueueDisableCb, hrole] <;> cases side <;> split <;>
    simp [Vring.prodIdx, Vring.eventFor, Vring.flagClear, vringAvailEvent,
      vringUsedEvent]

/-! ## The invariant along a run -/

variable {cfg : NotifyConfig} {s t : NotifyState} {e : VqEvent}
  {p : VirtioRole} {k : Nat}

/-- Whether a step adds an entry. -/
def VqEvent.isAdd : VqEvent → Bool
  | .add _ => true
  | _ => false

/-- Whether a step is a kick. -/
def VqEvent.isKick : VqEvent → Bool
  | .kick _ _ => true
  | _ => false

/-- **What a step can do**: it is an `OwnStep` of its side, advancing
the side's index by one when it adds and not at all otherwise, and it
keeps count of the adds since the last kick. -/
theorem NotifyStep.own (hst : NotifyStep s e t) (h : NotifyInv cfg s) :
    ∃ vq ring n, t = s.put e.side vq ring n ∧
      OwnStep e.side (s.vq e.side) vq s.ring ring
        (UInt16.ofNat e.isAdd.toNat) ∧
      vq.vqQueuedCnt = UInt16.ofNat n ∧ n < 2 ^ 16 ∧
      (e.isKick = false → n = s.adds e.side + e.isAdd.toNat) := by
  cases hst with
  | addBuffer bufList readable writable cookie heq hadds =>
    obtain ⟨hown, hq⟩ := ownStep_addBuffer _ _ _ _ _ _ heq
    refine ⟨_, _, _, rfl, hown, ?_, hadds, fun _ => rfl⟩
    rw [hq, h.queued, UInt16.ofNat_add]
    rfl
  | addConsumedBuffer head len heq hadds =>
    obtain ⟨hown, hq⟩ := ownStep_addConsumedBuffer heq
    refine ⟨_, _, _, rfl, hown, ?_, hadds, fun _ => rfl⟩
    rw [hq, h.queued, UInt16.ofNat_add]
    rfl
  | getBuffer heq =>
    obtain ⟨hown, hq⟩ := ownStep_getBuffer heq
    exact ⟨_, _, _, rfl, hown, hq.trans (h.queued _), h.bound _, fun _ => rfl⟩
  | getAvailableBuffer heq =>
    obtain ⟨hown, hq⟩ := ownStep_getAvailableBuffer heq
    exact ⟨_, _, _, rfl, hown, hq.trans (h.queued _), h.bound _, fun _ => rfl⟩
  | kick side heq =>
    obtain ⟨-, rfl⟩ := Prod.mk.inj heq
    refine ⟨_, _, _, rfl, ?_, rfl, by decide, fun hk => by
      simp [VqEvent.isKick] at hk⟩
    exact ⟨rfl, rfl, rfl, rfl, by simp [VqEvent.isAdd], fun _ => rfl,
      fun hf => hf⟩
  | enableCb side heq =>
    have hrole : (s.vq side).vqDev.role = side := by rw [(h.fixed side).dev]
    exact ⟨_, _, _, rfl, ownStep_enableCb hrole heq, h.queued _, h.bound _,
      fun _ => rfl⟩
  | disableCb side =>
    have hrole : (s.vq side).vqDev.role = side := by rw [(h.fixed side).dev]
    exact ⟨_, _, _, rfl, ownStep_disableCb _ _ hrole, h.queued _, h.bound _,
      fun _ => rfl⟩

theorem notifyInv_init (cfg : NotifyConfig) :
    NotifyInv cfg (NotifyState.init cfg) where
  fixed side := by cases side <;> exact ⟨rfl, rfl, rfl, rfl⟩
  queued side := by cases side <;> rfl
  bound _ := Nat.two_pow_pos 16

theorem NotifyInv.step (h : NotifyInv cfg s) (hst : NotifyStep s e t) :
    NotifyInv cfg t := by
  obtain ⟨vq, ring, n, rfl, hown, hq, hn, -⟩ := hst.own h
  refine ⟨fun side => ?_, fun side => ?_, fun side => ?_⟩ <;>
    by_cases hside : side = e.side
  · subst hside
    have hfix := h.fixed e.side
    simp only [NotifyState.put, Function.update_self]
    exact ⟨hown.dev.trans hfix.dev, hown.nentries.trans hfix.nentries,
      hown.ringNum.trans hfix.ringNum, hown.notify.trans hfix.notify⟩
  · simpa [NotifyState.put, hside] using h.fixed side
  · subst hside
    simpa [NotifyState.put] using hq
  · simpa [NotifyState.put, hside] using h.queued side
  · subst hside
    simpa [NotifyState.put] using hn
  · simpa [NotifyState.put, hside] using h.bound side

theorem NotifyRun.inv {tr : List VqEvent} (h : NotifyRun cfg tr s) :
    NotifyInv cfg s :=
  Path.keeps (fun _ _ _ hi hst => hi.step hst) h (notifyInv_init cfg)

/-! ## Armed until the next kick -/

/-- `virtqueue_enable_cb` answering zero leaves the peer armed: nothing
was pending when it looked. -/
theorem NotifyInv.armed_enableCb (h : NotifyInv cfg s)
    (hst : NotifyStep s (.enableCb p.peer 0) t) : Armed cfg p 0 t := by
  cases hst with
  | enableCb side heq =>
    have hfix := h.fixed p.peer
    have hev := cfg.eventIdx_eq p.peer
    cases p with
    | driver =>
      simp only [VirtioRole.peer] at hfix hev heq
      simp only [virtqueueEnableCb, vqRingEnableInterrupt, hfix.dev,
        Prod.mk.injEq] at heq
      obtain ⟨hret, rfl⟩ := heq
      refine ⟨fun hon => ?_, fun hoff => ?_, Nat.zero_le _⟩
      · simp only [armInterrupt, hfix.dev, hfix.ringNum, hev, hon, if_true,
          virtqueueNavail, setVringAvailEvent_avail] at hret
        simp only [NotifyState.put, armInterrupt, hfix.dev, hfix.ringNum, hev,
          hon, if_true, Vring.prodIdx, Vring.eventFor, vringAvailEvent_set,
          setVringAvailEvent_avail, VirtioRole.peer]
        grind
      · simp only [NotifyState.put, armInterrupt, hfix.dev, hev, hoff,
          Vring.flagClear, VirtioRole.peer]
        simp [VRING_USED_F_NO_NOTIFY, UInt16.and_assoc]
    | device =>
      simp only [VirtioRole.peer] at hfix hev heq
      simp only [virtqueueEnableCb, vqRingEnableInterrupt, hfix.dev,
        Prod.mk.injEq] at heq
      obtain ⟨hret, rfl⟩ := heq
      refine ⟨fun hon => ?_, fun hoff => ?_, Nat.zero_le _⟩
      · simp only [armInterrupt, hfix.dev, hfix.ringNum, hev, hon, if_true,
          virtqueueNused, setVringUsedEvent_used] at hret
        simp only [NotifyState.put, armInterrupt, hfix.dev, hfix.ringNum, hev,
          hon, if_true, Vring.prodIdx, Vring.eventFor, vringUsedEvent_set,
          setVringUsedEvent_used, VirtioRole.peer]
        grind
      · simp only [NotifyState.put, armInterrupt, hfix.dev, hev, hoff,
          Vring.flagClear, VirtioRole.peer]
        simp [VRING_AVAIL_F_NO_INTERRUPT, UInt16.and_assoc]

/-- The steps of `p` keep its peer armed, with one more entry when they
add. A kick does so only before the first entry. -/
theorem Armed.step (ha : Armed cfg p k s) (h : NotifyInv cfg s)
    (hst : NotifyStep s e t) (hside : e.side = p)
    (hkick : e.isKick = true → k = 0) :
    Armed cfg p (k + e.isAdd.toNat) t := by
  obtain ⟨vq, ring, n, rfl, hown, -, -, hn⟩ := hst.own h
  subst hside
  refine ⟨fun hon => ?_, fun hoff => hown.flag (ha.flag hoff), ?_⟩
  · have hev := ha.event hon
    simp only [NotifyState.put, hown.prod, hown.event, hev, UInt16.ofNat_add]
    grind
  · have hadds := ha.adds
    simp only [NotifyState.put, Function.update_self]
    cases hk : e.isKick with
    | false =>
      rw [hn hk]
      omega
    | true =>
      have hadd : e.isAdd = false := by cases e <;> simp_all [VqEvent.isKick,
        VqEvent.isAdd]
      simp [hkick hk, hadd]

/-- The kick after an entry the peer waits for: `new - event - 1` is
`k - 1`, `new - prev` is the number of adds since the last kick, and
that is at least `k`. -/
theorem Armed.kick {b : Bool} (ha : Armed cfg p k s) (h : NotifyInv cfg s)
    (hk : 0 < k) (hst : NotifyStep s (.kick p b) t) : b = true := by
  cases hst with
  | kick side heq =>
    have hfix := h.fixed p
    have hev := cfg.eventIdx_eq p
    have hq := h.queued p
    have hadds := ha.adds
    have hbound := h.bound p
    -- the arithmetic both roles come down to
    have hneed : ∀ event new : UInt16, new = event + UInt16.ofNat k →
        vringNeedEvent event new (new - UInt16.ofNat (s.adds p)) = true := by
      intro event new hnew
      have h1 : new - event - 1 = UInt16.ofNat (k - 1) := by
        obtain ⟨j, rfl⟩ : ∃ j, k = j + 1 := ⟨k - 1, by omega⟩
        rw [hnew, UInt16.ofNat_add, UInt16.ofNat_one, Nat.add_sub_cancel]
        grind
      have h2 : new - (new - UInt16.ofNat (s.adds p)) =
          UInt16.ofNat (s.adds p) := by grind
      simp only [vringNeedEvent, h1, h2, decide_eq_true_eq, UInt16.lt_iff_toNat_lt,
        UInt16.toNat_ofNat']
      omega
    have hmust : vqRingMustNotify (s.vq p) s.ring = true := by
      cases hon : cfg.eventIdx with
      | true =>
        have hevent := ha.event hon
        rw [hon] at hev
        cases p <;> simp only [vqRingMustNotify, hfix.dev, hfix.ringNum, hev,
          if_true, hq] <;> exact hneed _ _ hevent
      | false =>
        have hflag := ha.flag hon
        rw [hon] at hev
        cases p <;>
          simpa [vqRingMustNotify, hfix.dev, hev, Vring.flagClear] using hflag
    obtain ⟨hb, -⟩ := Prod.mk.inj heq
    rw [← hb, hmust, hfix.notify]
    rfl

/-- **No lost wake-up.** In every run in which the peer of `p` enabled
its callback with answer zero and took no step afterwards, the first
kick of `p` after its next add invokes notify. Before that add `p` may
have kicked any number of times, before that kick it may have added any
number of entries, and it may have served the other direction of the
ring throughout. -/
theorem no_lost_wakeup {cfg : NotifyConfig} (p : VirtioRole)
    (pre idle busy : List VqEvent) {b : Bool} {s : NotifyState}
    (hrun : NotifyRun cfg (pre ++ .enableCb p.peer 0 ::
      (idle ++ .add p :: (busy ++ [.kick p b]))) s)
    (hidle : ∀ e ∈ idle, e.side = p ∧ e.isAdd = false)
    (hbusy : ∀ e ∈ busy, e.side = p ∧ e.isKick = false) : b = true := by
  obtain ⟨s₀, hpre, hrest⟩ := Path.split pre hrun
  have hinv₀ := NotifyRun.inv hpre
  cases hrest with
  | cons hen hrest =>
  obtain ⟨s₁, hid, hrest⟩ := Path.split idle hrest
  cases hrest with
  | cons hadd hrest =>
  obtain ⟨s₂, hbu, hrest⟩ := Path.split busy hrest
  cases hrest with
  | cons hkick hrest =>
  -- armed with no entry through the idle steps
  obtain ⟨hinv₁, harm₁⟩ := Path.invariant
    (P := fun s => NotifyInv cfg s ∧ Armed cfg p 0 s)
    (fun s e t he hs hst => by
      refine ⟨hs.1.step hst, ?_⟩
      have := hs.2.step hs.1 hst he.1 (fun _ => rfl)
      rwa [he.2] at this)
    hid hidle ⟨hinv₀.step hen, hinv₀.armed_enableCb hen⟩
  -- armed with some entries from the add to the kick
  obtain ⟨hinv₂, k, hk, harm₂⟩ := Path.invariant
    (P := fun s => NotifyInv cfg s ∧ ∃ k, 0 < k ∧ Armed cfg p k s)
    (fun s e t he hs hst => by
      obtain ⟨hi, k, hk, ha⟩ := hs
      refine ⟨hi.step hst, _, by omega, ha.step hi hst he.1 ?_⟩
      simp [he.2])
    hbu hbusy ⟨hinv₁.step hadd, 1, Nat.one_pos,
      harm₁.step hinv₁ hadd rfl (fun _ => rfl)⟩
  exact harm₂.kick hinv₂ hk hkick

/-- A ring of two entries with event indices. -/
def eventConfig : NotifyConfig where
  nentries := 2
  features := fun _ => VIRTIO_RING_F_EVENT_IDX
  agree := rfl
  io := fun _ => metalIoInit 0x1000 (some fun _ => 0x1000) 0x1000 64

/-- The device arms its callback on a fresh ring, the driver adds and
kicks. -/
theorem no_lost_wakeup_fresh : ∃ b s, NotifyRun eventConfig
    [.enableCb .device 0, .add .driver, .kick .driver b] s ∧ b = true := by
  let s₀ := NotifyState.init eventConfig
  have hret : (virtqueueEnableCb (s₀.vq .device) s₀.ring).1 = 0 := by
    decide +kernel
  have hrun : NotifyRun eventConfig
      [.enableCb .device 0, .add .driver, .kick .driver _] _ :=
    .cons (.enableCb .device (Prod.ext hret rfl))
      (.cons (.addBuffer (fun _ => ⟨0x1100, 16⟩) 1 0 7 rfl (by decide +kernel))
        (.cons (.kick .driver rfl) (.nil _)))
  exact ⟨_, _, hrun, no_lost_wakeup .driver [] [] [] hrun (by simp)
    (by simp)⟩

end OpenAmp.Virtio
