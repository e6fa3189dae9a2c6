import OpenAmp.Rpmsg.BufferSize
import OpenAmp.Rpmsg.Endpoint
import OpenAmp.Rpmsg.Length

/-!
# The size query

`rpmsg_virtio_get_tx_buffer_size` tells an application how much it can
send. A remote answers with the length of the next buffer in the
available ring. `rpmsg_virtio_get_tx_buffer` looks there only after the
list of reclaimed buffers, which the query never consults.
-/

namespace OpenAmp.Rpmsg

open OpenAmp.Lib OpenAmp.Metal OpenAmp.Virtio

/-- `rpmsg_virtio_get_tx_buffer_size`. The difference is taken in
`size_t` and cut down to an `int`. -/
def rpmsgVirtioGetTxBufferSize (rvdev : TxDevice) : Int :=
  let bufSize := match rvdev.role with
    | .driver => rvdev.h2rBufSize
    | .device => virtqueueGetDescSize rvdev.svq rvdev.ring
  let size := (bufSize - UInt32.ofNat RPMSG_HDR_SIZE).toInt32
  if size ≤ 0 then RPMSG_ERR_NO_BUFF else size.toInt

/-- The length a call of `rpmsg_virtio_get_tx_payload_buffer` that does
not wait would report, if it returned a buffer. -/
def TxDevice.payloadSize (rvdev : TxDevice) : Option UInt32 :=
  (rpmsgVirtioGetTxPayloadBuffer rvdev).bind fun r => r.1.map Prod.snd

/-- The query promises a size exactly if there is a buffer to get, and
the size of that one. -/
structure TxDevice.SizeAgrees (rvdev : TxDevice) : Prop where
  offered : 0 < rpmsgVirtioGetTxBufferSize rvdev ↔
    ∃ len, rvdev.payloadSize = some len
  reported : ∀ len, rvdev.payloadSize = some len →
    0 < rpmsgVirtioGetTxBufferSize rvdev →
    rpmsgVirtioGetTxBufferSize rvdev = len.toNat

/-- The length of a buffer with a payload that an `int` can count. -/
def Countable (len : UInt32) : Prop :=
  RPMSG_HDR_SIZE < len.toNat ∧ len.toNat < 2147483648 + RPMSG_HDR_SIZE

instance (len : UInt32) : Decidable (Countable len) :=
  inferInstanceAs (Decidable (_ ∧ _))

/-- `virtqueue_get_available_buffer` would return a buffer: the ring is
not empty, and its next buffer can be seen from here. -/
def TxDevice.Offered (rvdev : TxDevice) : Prop :=
  rvdev.svq.vqAvailableIdx ≠ rvdev.ring.avail.idx ∧
    virtqueueGetBufferAddr rvdev.svq rvdev.ring (rvdev.ring.avail.ring
      (rvdev.svq.vqAvailableIdx &&& (rvdev.svq.vqNentries - 1))) ≠ 0

/-- The size of the next buffer is known: the next length in the
available ring can be counted and is the one of the first reclaimed
buffer, or nothing is reclaimed and the next length can be counted
exactly if the buffer is offered. -/
def TxDevice.SizeKnown (rvdev : TxDevice) : Prop :=
  match rvdev.mem.listFirst with
  | some node => Countable (virtqueueGetDescSize rvdev.svq rvdev.ring) ∧
      virtqueueGetBufferLength rvdev.ring
          ((rvdev.mem.listDel node).idx node) =
        virtqueueGetDescSize rvdev.svq rvdev.ring
  | none => Countable (virtqueueGetDescSize rvdev.svq rvdev.ring) ↔
      rvdev.Offered

section Query

variable {rvdev : TxDevice}

/-- What the query makes of a length. -/
theorem querySize_spec (len : UInt32) :
    let size := (len - UInt32.ofNat RPMSG_HDR_SIZE).toInt32
    let answer := if size ≤ 0 then RPMSG_ERR_NO_BUFF else size.toInt
    (0 < answer ↔ Countable len) ∧
      (Countable len →
        answer = (len - UInt32.ofNat RPMSG_HDR_SIZE).toNat) := by
  intro size answer
  have hlt := len.toNat_lt
  have hsub : (len - UInt32.ofNat RPMSG_HDR_SIZE).toNat =
      (4294967296 - 16 + len.toNat) % 4294967296 := by
    rw [UInt32.toNat_sub]
    rfl
  have hneg : ¬ (0 : Int) < RPMSG_ERR_NO_BUFF := by decide
  by_cases hc : Countable len
  · have hc' := hc
    simp only [Countable, RPMSG_HDR_SIZE] at hc'
    have hval : size.toInt = (len - UInt32.ofNat RPMSG_HDR_SIZE).toNat :=
      toInt_toInt32 (by omega)
    have hpos : ¬ size ≤ 0 := by
      rw [Int32.le_iff_toInt_le, hval, Int32.toInt_zero]
      omega
    have hans : answer = size.toInt := if_neg hpos
    refine ⟨⟨fun _ => hc, fun _ => ?_⟩, fun _ => hans.trans hval⟩
    rw [hans, hval]
    omega
  · have hneg' : size ≤ 0 := by
      rw [Int32.le_iff_toInt_le, Int32.toInt_zero]
      simp only [Countable, RPMSG_HDR_SIZE, not_and_or] at hc
      by_cases h16 : len.toNat = 16
      · have h0 : size.toInt = _ := toInt_toInt32 (by omega)
        rw [h0]
        omega
      · exact Int.le_of_lt (toInt_toInt32_neg (by omega))
    have hans : answer = RPMSG_ERR_NO_BUFF := if_pos hneg'
    exact ⟨⟨fun h => absurd (hans ▸ h) hneg, fun h => absurd h hc⟩,
      fun h => absurd h hc⟩

/-- A reclaimed buffer comes first. -/
theorem payloadSize_reclaimed (hr : rvdev.role = .device) {node : UInt64}
    (h : rvdev.mem.listFirst = some node) :
    rvdev.payloadSize = some (virtqueueGetBufferLength rvdev.ring
      ((rvdev.mem.listDel node).idx node) -
        UInt32.ofNat RPMSG_HDR_SIZE) := by
  simp [TxDevice.payloadSize, rpmsgVirtioGetTxPayloadBuffer,
    rpmsgVirtioGetTxBuffer, h, hr]

/-- Without one, the next available buffer comes, if it is offered. -/
theorem payloadSize_offered (hr : rvdev.role = .device)
    (h : rvdev.mem.listFirst = none) (ho : rvdev.Offered) :
    rvdev.payloadSize = some (virtqueueGetDescSize rvdev.svq rvdev.ring -
      UInt32.ofNat RPMSG_HDR_SIZE) := by
  obtain ⟨hidx, haddr⟩ := ho
  simp [TxDevice.payloadSize, rpmsgVirtioGetTxPayloadBuffer,
    rpmsgVirtioGetTxBuffer, h, hr, virtqueueGetAvailableBuffer, hidx, haddr,
    virtqueueGetDescSize, virtqueueGetBufferLength]

theorem payloadSize_not_offered (hr : rvdev.role = .device)
    (h : rvdev.mem.listFirst = none) (ho : ¬ rvdev.Offered) :
    rvdev.payloadSize = none := by
  by_cases hidx : rvdev.svq.vqAvailableIdx = rvdev.ring.avail.idx
  · simp [TxDevice.payloadSize, rpmsgVirtioGetTxPayloadBuffer,
      rpmsgVirtioGetTxBuffer, h, hr, virtqueueGetAvailableBuffer, hidx]
  · have haddr := not_not.mp (not_and.mp ho hidx)
    simp [TxDevice.payloadSize, rpmsgVirtioGetTxPayloadBuffer,
      rpmsgVirtioGetTxBuffer, h, hr, virtqueueGetAvailableBuffer, hidx, haddr]

theorem payloadSize_iff_offered (hr : rvdev.role = .device)
    (h : rvdev.mem.listFirst = none) :
    (∃ len, rvdev.payloadSize = some len) ↔ rvdev.Offered := by
  constructor
  · rintro ⟨len, hlen⟩
    by_contra ho
    rw [payloadSize_not_offered hr h ho] at hlen
    cases hlen
  · intro ho
    exact ⟨_, payloadSize_offered hr h ho⟩

/-- The query agrees with the acquisition exactly when the size of the
next buffer is known. -/
theorem TxDevice.sizeAgrees_iff (hr : rvdev.role = .device) :
    rvdev.SizeAgrees ↔ rvdev.SizeKnown := by
  have hquery : rpmsgVirtioGetTxBufferSize rvdev =
      (let size := (virtqueueGetDescSize rvdev.svq rvdev.ring -
        UInt32.ofNat RPMSG_HDR_SIZE).toInt32
      if size ≤ 0 then RPMSG_ERR_NO_BUFF else size.toInt) := by
    simp only [rpmsgVirtioGetTxBufferSize, hr]
  obtain ⟨hpos, hval⟩ :=
    querySize_spec (virtqueueGetDescSize rvdev.svq rvdev.ring)
  rw [← hquery] at hpos hval
  cases hfirst : rvdev.mem.listFirst with
  | some node =>
    have hsize := payloadSize_reclaimed hr hfirst
    simp only [TxDevice.SizeKnown, hfirst]
    constructor
    · intro h
      have hc := hpos.mp (h.offered.mpr ⟨_, hsize⟩)
      refine ⟨hc, ?_⟩
      have heq := h.reported _ hsize (hpos.mpr hc)
      rw [hval hc] at heq
      exact (UInt32.sub_left_inj _).mp
        (UInt32.toNat_inj.mp (Int.ofNat_inj.mp heq)).symm
    · rintro ⟨hc, hlen⟩
      rw [hlen] at hsize
      refine ⟨⟨fun _ => ⟨_, hsize⟩, fun _ => hpos.mpr hc⟩, ?_⟩
      intro len hl _
      rw [hsize] at hl
      cases hl
      exact hval hc
  | none =>
    have hsome := payloadSize_iff_offered hr hfirst
    simp only [TxDevice.SizeKnown, hfirst]
    constructor
    · intro h
      rw [← hpos, h.offered, hsome]
    · intro h
      refine ⟨by rw [hpos, h, hsome], fun len hl hlt => ?_⟩
      have hc := hpos.mp hlt
      rw [payloadSize_offered hr hfirst (h.mp hc)] at hl
      cases hl
      exact hval hc

end Query

/-! ## A remote in a run -/

section Runs

variable {cfg : TxConfig} {s : TxSystem} {f : Flow} {recl : List VqBuffer}

/-- A device that takes a buffer is one after it. -/
theorem virtqueueGetAvailableBuffer_vqDev (vq : Virtqueue) (vr : Vring) :
    (virtqueueGetAvailableBuffer vq vr).2.vqDev = vq.vqDev := by
  unfold virtqueueGetAvailableBuffer
  split <;> rfl

theorem rpmsgVirtioGetTxBuffer_device {rvdev us : TxDevice}
    {r : Option VqBuffer} (hr : rvdev.role = .device)
    (h : rpmsgVirtioGetTxBuffer rvdev = some (r, us)) :
    us.role = .device := by
  unfold rpmsgVirtioGetTxBuffer at h
  split at h
  · cases h
    exact hr
  · simp only [hr, Option.some.injEq, Prod.mk.injEq] at h
    obtain ⟨-, rfl⟩ := h
    exact (congrArg VirtioDevice.role
      (virtqueueGetAvailableBuffer_vqDev _ _)).trans hr

theorem enqueueTxBuffer_device {rvdev us : TxDevice} {hdr : UInt64}
    {idx : UInt16} {status : Int} {notified : Bool}
    (hr : rvdev.role = .device)
    (h : enqueueTxBuffer rvdev hdr idx = (status, notified, us)) :
    us.role = .device := by
  simp only [enqueueTxBuffer, rpmsgVirtioEnqueueBuffer, hr,
    virtqueueAddConsumedBuffer] at h
  split at h <;>
  · obtain ⟨-, -, rfl⟩ := h
    exact hr

theorem TxStep.device {a : TxAct} {t : TxSystem} (hst : TxStep cfg s a t)
    (hs : s.us.role = .device) : t.us.role = .device := by
  cases hst with
  | get hget => exact rpmsgVirtioGetTxBuffer_device hs hget
  | enqueue hheld henq => exact enqueueTxBuffer_device hs henq
  | _ => exact hs

theorem TxReachable.device (h : TxReachable cfg s)
    (hr : cfg.role = .device) : s.us.role = .device := by
  refine Reachable.invariant (P := fun s => s.us.role = .device) ?_ ?_ h
  · rintro s rfl
    simp only [TxSystem.init, hr]
    rfl
  · rintro s t - hs ⟨a, hst⟩
    exact hst.device hs

/-- A device never cuts a buffer from a pool, so each of its runs is
sound. -/
theorem TxReachable.device_inv (h : TxReachable cfg s)
    (hr : cfg.role = .device) (hroom : RECLAIMER_SIZE ≤ cfg.room) :
    ∃ f recl, TxInv cfg s f recl := by
  refine Reachable.invariant (P := fun s => ∃ f recl, TxInv cfg s f recl)
    ?_ ?_ h
  · rintro s rfl
    exact ⟨_, _, txInv_init cfg⟩
  · rintro s t - ⟨f, recl, hinv⟩ ⟨a, hst⟩
    refine hinv.step hroom hst fun _ hdraws => ?_
    have hrole := hdraws.1.symm.trans (hinv.side.role.trans hr)
    cases hrole

/-- Whatever a driver puts into the ring can be seen by the device. -/
theorem TxInv.offered_iff (h : TxInv cfg s f recl) (hr : cfg.role = .device) :
    s.us.Offered ↔ s.us.svq.vqAvailableIdx ≠ s.us.ring.avail.idx := by
  have hside := h.side
  simp only [SideInv, hr] at hside
  refine ⟨And.left, fun hidx => ⟨hidx, ?_⟩⟩
  cases ha : f.avail with
  | nil =>
    rcases hside.queue.getAvailableBuffer with ⟨-, heq⟩ | ⟨c, avail, _, hc, -⟩
    · simp [virtqueueGetAvailableBuffer, hidx] at heq
    · rw [ha] at hc
      cases hc
  | cons c avail =>
    obtain ⟨a, svq, heq, hne, -⟩ := hside.getAvail hr ha
    simp only [virtqueueGetAvailableBuffer, if_neg hidx, Prod.mk.injEq,
      Option.some.injEq] at heq
    obtain ⟨rfl, -⟩ := heq
    exact hne

theorem countable_descSize {rvdev : TxDevice}
    (h : Countable (virtqueueGetDescSize rvdev.svq rvdev.ring)) :
    rvdev.svq.vqAvailableIdx ≠ rvdev.ring.avail.idx := by
  intro heq
  rw [virtqueueGetDescSize, if_pos heq] at h
  exact absurd h (by decide)

/-- **In a run**, the query agrees exactly when nothing is reclaimed and
the ring is empty, or the next length in the ring can be counted and is
that of the first reclaimed buffer, if there is one. -/
theorem tx_size_agrees_reachable (h : TxReachable cfg s)
    (hr : cfg.role = .device) (hroom : RECLAIMER_SIZE ≤ cfg.room) :
    s.us.SizeAgrees ↔
      (s.reclaimed = [] ∧ s.us.svq.vqAvailableIdx = s.us.ring.avail.idx) ∨
      (Countable (virtqueueGetDescSize s.us.svq s.us.ring) ∧
        ∀ p ∈ s.reclaimed.head?,
          s.reclaimedLen p = virtqueueGetDescSize s.us.svq s.us.ring) := by
  obtain ⟨f, recl, hinv⟩ := h.device_inv hr hroom
  have hrole := h.device hr
  rw [TxDevice.sizeAgrees_iff hrole, hinv.reclaimed_eq]
  cases recl with
  | nil =>
    have hoff := hinv.offered_iff hr
    simp only [TxDevice.SizeKnown, hinv.listed.listFirst_nil, hoff,
      List.map_nil, List.head?_nil, true_and, reduceCtorEq, false_imp_iff,
      implies_true, and_true, Option.mem_def]
    constructor
    · intro hiff
      by_cases hc : Countable (virtqueueGetDescSize s.us.svq s.us.ring)
      · exact .inr hc
      · exact .inl (not_not.mp fun hne => hc (hiff.mpr hne))
    · rintro (hempty | hc)
      · exact iff_of_false (fun hc => countable_descSize hc hempty)
          (not_not.mpr hempty)
      · exact iff_of_true hc (countable_descSize hc)
  | cons b recl =>
    obtain ⟨hfirst, hidx, -⟩ := hinv.reuse
    have hlen : s.reclaimedLen b.data =
        virtqueueGetBufferLength s.us.ring b.idx := by
      simp only [TxSystem.reclaimedLen, hrole, hinv.listed.idx b (by simp)]
    simp only [TxDevice.SizeKnown, hfirst, hidx, List.map_cons,
      List.head?_cons, Option.mem_def, Option.some.injEq, forall_eq', hlen,
      reduceCtorEq, false_and, false_or]

end Runs

/-! ## The two applications of a link -/

/-- The remote gets both buffers the host has offered, and releases the
first. -/
def emptyRingScript : List AppLinkCmd :=
  [.toHost (.send .get), .toHost (.send (.note 0)),
    .toHost (.send .get), .toHost (.send (.note 1)),
    .toHost (.send (.release 0))]

/-- The remote of a state of the pair. -/
def AppLink.remote (s : AppLink) : TxDevice :=
  s.toHost.sender appPairLink.toLinkLayout.toHost s.shm

/-- A run of the pair that leaves its remote with what a check shows. -/
theorem appPair_run (cs : List AppLinkCmd) (p : TxDevice → Bool)
    (h : (AppLink.init appPairLink.toLinkLayout).any (fun s₀ =>
      passes (AppLink.exec appPairLink) appPairLink.boundedCheck s₀ cs &&
        p (cs.foldl (AppLink.exec appPairLink) s₀).remote) = true) :
    ∃ s, AppLinkReachable appPairLink s ∧ p s.remote = true := by
  obtain ⟨s₀, hs, hok⟩ := Option.any_eq_true _ _ |>.mp h
  rw [Bool.and_eq_true] at hok
  exact ⟨_, AppLinkReachable.run (.start hs) hok.1, hok.2⟩

end OpenAmp.Rpmsg
