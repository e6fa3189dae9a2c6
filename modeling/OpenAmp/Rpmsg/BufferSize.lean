import OpenAmp.Rpmsg.AppInvariant
import OpenAmp.Rpmsg.Delivery
import OpenAmp.Rpmsg.RxReturn
import OpenAmp.Rpmsg.TxOwnership

/-!
# Buffer sizes stay constant

No side of a link keeps the size of a buffer: a transmission buffer is
reported with the length that comes back from the peer, and a received
one is returned with the length found under the index noted in its
header. Over the whole link both are always the size the host was
initialised with.
-/

namespace OpenAmp.Rpmsg

open OpenAmp.Lib OpenAmp.Metal OpenAmp.Virtio

/-- `RPMSG_BUF_HELD_DEC` on the buffer at `hdr`. -/
def RxDevice.decHeld (rvdev : RxDevice) (hdr : UInt64) : RxDevice :=
  { rvdev with
    shm := setHdrReserved rvdev.io rvdev.shm hdr
      (rpmsgVirtioBufHeldDecTest (hdrReserved rvdev.io rvdev.shm hdr)).2 }

/-- What a lane keeps of its buffer size: every successful call of
`rpmsg_virtio_get_tx_payload_buffer` reports the size less the header, a
buffer with the sender has the size, and what
`rpmsg_virtio_release_rx_buffer_nolock` would read as the length of a
received one is the size. -/
structure AppLane.SizeKept (cfg : LaneConfig) (shm : Mem) (l : AppLane)
    (size : UInt32) : Prop where
  reported : ∀ (data : UInt64) (len : UInt32) (rvdev : TxDevice),
    rpmsgVirtioGetTxPayloadBuffer (l.sender cfg shm) =
      some (some (data, len), rvdev) →
    len.toNat + RPMSG_HDR_SIZE = size.toNat
  held : ∀ x ∈ l.held, x.buf.len = size
  released : ∀ r ∈ l.rx, r.putBacks = 0 →
    let rvdev := (l.receiver cfg shm).decHeld r.buf.data
    virtqueueGetBufferLength rvdev.ring
      (rpmsgBufIndex (hdrReserved rvdev.io rvdev.shm r.buf.data)) = size

section Lane

variable {cfg : AppLaneConfig} {shm : Mem} {l : AppLane}
  {recl : List VqBuffer} {pend : List Nat}

/-- The sender gets buffers of the lane's size, wherever they are from. -/
theorem AppInv.get_length (h : AppInv cfg shm l recl pend) {b : VqBuffer}
    {rvdev : TxDevice}
    (hget : rpmsgVirtioGetTxBuffer (l.sender cfg.toLaneConfig shm) =
      some (some b, rvdev)) : b.len = cfg.bufSize := by
  cases recl with
  | nil => exact h.queue.get_length h.tx.listed.listFirst_nil hget
  | cons c recl =>
    rw [h.get_reclaimed] at hget
    cases hget
    exact (h.queue.laid.ownAt b (by simp)).1

theorem AppInv.reported (h : AppInv cfg shm l recl pend) {data : UInt64}
    {len : UInt32} {rvdev : TxDevice}
    (hget : rpmsgVirtioGetTxPayloadBuffer (l.sender cfg.toLaneConfig shm) =
      some (some (data, len), rvdev)) :
    len.toNat + RPMSG_HDR_SIZE = cfg.bufSize.toNat := by
  obtain ⟨⟨b, rvdev₁⟩, hgot, heq⟩ := Option.map_eq_some_iff.mp hget
  cases b with
  | none => cases heq
  | some b =>
    cases heq
    have hlen := h.get_length hgot
    have hroom : RPMSG_HDR_SIZE ≤ cfg.bufSize.toNat :=
      Nat.le_trans (by decide) cfg.room
    have hhdr : (UInt32.ofNat RPMSG_HDR_SIZE).toNat = RPMSG_HDR_SIZE := rfl
    have hle : UInt32.ofNat RPMSG_HDR_SIZE ≤ cfg.bufSize := by
      rw [UInt32.le_iff_toNat_le, hhdr]
      exact hroom
    rw [hlen, UInt32.toNat_sub_of_le _ _ hle, hhdr]
    omega

/-- The index read after the decrement is the one the buffer came with. -/
theorem AppInv.released (h : AppInv cfg shm l recl pend) {r : Received}
    (hr : r ∈ l.rx) (h0 : r.putBacks = 0) :
    let rvdev := (l.receiver cfg.toLaneConfig shm).decHeld r.buf.data
    virtqueueGetBufferLength rvdev.ring
      (rpmsgBufIndex (hdrReserved rvdev.io rvdev.shm r.buf.data)) =
        cfg.bufSize := by
  intro rvdev
  have hok := h.rx.books r hr
  have hpos : r.count ≠ 0 := fun hc => by
    have honce := hok.once
    rw [if_pos hc, h0] at honce
    cases honce
  obtain ⟨n, hn⟩ := Nat.exists_eq_succ_of_ne_zero hpos
  have hlt := hok.count_lt
  have hword : hdrReserved cfg.receiverIo shm r.buf.data =
      bufWord r.buf.idx (n + 1) := by
    rw [← Nat.succ_eq_add_one, ← hn]
    exact h.rx.words r hr h0
  have hidx : rpmsgBufIndex (hdrReserved rvdev.io rvdev.shm r.buf.data) =
      r.buf.idx := by
    show rpmsgBufIndex (hdrReserved cfg.receiverIo (setHdrReserved
      cfg.receiverIo shm r.buf.data (rpmsgVirtioBufHeldDecTest
        (hdrReserved cfg.receiverIo shm r.buf.data)).2) r.buf.data) = _
    rw [hdrReserved_setHdrReserved, hword,
      rpmsgVirtioBufHeldDecTest_bufWord _ (by omega)]
    exact rpmsgBufIndex_bufWord _ (by omega)
  rw [hidx]
  exact h.queue.outs_length (mem_outsOf hr h0)

theorem AppInv.sizeKept (h : AppInv cfg shm l recl pend) :
    l.SizeKept cfg.toLaneConfig shm cfg.bufSize where
  reported := fun _ _ _ hget => h.reported hget
  held := fun x hx => (h.queue.laid.ownAt x.buf
    (List.mem_append_right _ (List.mem_map.mpr ⟨x, hx, rfl⟩))).1
  released := fun _ hr h0 => h.released hr h0

end Lane

/-! ## Every state -/

variable {cfg : AppLinkConfig} {s t : AppLink}

/-- A lane is in order. -/
def AppOk (cfg : AppLaneConfig) (shm : Mem) (l : AppLane) : Prop :=
  ∃ recl pend, AppInv cfg shm l recl pend

/-- Both lanes are in order, apart from each other. -/
structure AppLinkInv (cfg : AppLinkConfig) (s : AppLink) : Prop where
  apart : cfg.toRemote.area.Disjoint cfg.toHost.area
  toRemote : AppOk cfg.toRemote s.shm s.toRemote
  toHost : AppOk cfg.toHost s.shm s.toHost

theorem AppOk.frame {cfg : AppLaneConfig} {shm shm' : Mem} {l : AppLane}
    (h : AppOk cfg shm l) {s : Span} (ht : Touches s shm shm')
    (hd : s.Disjoint cfg.area) : AppOk cfg shm' l := by
  obtain ⟨recl, pend, hinv⟩ := h
  exact ⟨recl, pend, hinv.frame ht hd⟩

/-- **One step of a lane keeps it in order** and writes in its area only. -/
theorem AppOk.step {cfg : AppLaneConfig} {shm shm' : Mem} {l l' : AppLane}
    (h : AppOk cfg shm l) (hst : AppLaneStep cfg shm l shm' l')
    (hbound : cfg.role = .driver → l'.outstanding ≤ cfg.vq.num) :
    AppOk cfg shm' l' ∧ Touches cfg.area shm shm' := by
  obtain ⟨recl, pend, hinv⟩ := h
  cases hst with
  | send ha hst =>
    obtain ⟨⟨recl', new, hinv'⟩, ht⟩ := hinv.send hst ha hbound
    exact ⟨⟨recl', _, hinv'⟩, ht⟩
  | receive ha hst =>
    obtain ⟨⟨pend', hinv', -⟩, ht⟩ := hinv.receive hst ha
    exact ⟨⟨recl, pend', hinv'⟩, ht⟩

/-- A lane on which nothing has happened yet. -/
theorem appOk_fresh {cfg : AppLaneConfig} {l : AppLane} (shm : Mem)
    (hheld : l.held = []) (hrx : l.rx = []) (hfirst : l.first = cfg.reclaimer)
    (hlast : l.last = cfg.reclaimer)
    (hq : LaneQueue cfg.toLaneConfig l.toLaneEnds [] [] []) :
    AppOk cfg shm l := by
  refine ⟨[], [], ?_, ⟨⟨⟨?_, ?_⟩, by simp⟩, by simp [hheld], ?_⟩, ?_⟩
  · rw [hheld, hrx]
    exact hq
  · simp [TxMem.next, LaneEnds.sender, hfirst]
  · simp [TxMem.prev, LaneEnds.sender, hlast]
  · rw [hheld]
    exact ⟨.nil, by simp, by simp⟩
  · rw [hrx]
    exact ⟨by simp, by simp, .nil, by simp [outsOf]⟩

theorem appLinkInv_init (h : AppLink.init cfg.toLinkLayout = some s) :
    AppLinkInv cfg s := by
  obtain ⟨s₀, hinit, rfl⟩ := Option.map_eq_some_iff.mp h
  obtain ⟨hapart, hremote, hhost⟩ := LinkSystem.init_queues hinit
  simp only [LinkSystem.init, Option.map_eq_some_iff] at hinit
  obtain ⟨_, -, rfl⟩ := hinit
  exact ⟨hapart, appOk_fresh _ rfl rfl rfl rfl hremote,
    appOk_fresh _ rfl rfl rfl rfl hhost⟩

theorem AppLinkInv.step (h : AppLinkInv cfg s) (hst : AppLinkStep cfg s t)
    (hbound : t.toRemote.outstanding ≤ cfg.h2r.num) : AppLinkInv cfg t := by
  cases hst with
  | toRemote hlane =>
    obtain ⟨hok, ht⟩ := h.toRemote.step hlane fun _ => hbound
    exact ⟨h.apart, hok, h.toHost.frame ht h.apart⟩
  | toHost hlane =>
    -- the remote is a device, and cuts no buffers
    obtain ⟨hok, ht⟩ := h.toHost.step hlane fun hr => by cases hr
    exact ⟨h.apart, h.toRemote.frame ht h.apart.symm, hok⟩

theorem AppLinkReachable.inv (h : AppLinkReachable cfg s) :
    AppLinkInv cfg s := by
  refine Reachable.invariant (P := AppLinkInv cfg) ?_ ?_ h
  · exact fun s hs => appLinkInv_init hs
  · exact fun s t _ hs hst => hs.step hst.1 hst.2

/-! ## Scripted runs -/

/-- A call of the sender or of the receiver of a lane. -/
inductive AppCmd where
  | send (c : TxCmd)
  | receive (c : RxCmd)

/-- The state after a call; one that is the peer's does nothing. -/
def AppLane.exec (cfg : LaneConfig) (shm : Mem) (l : AppLane) :
    AppCmd → Mem × AppLane
  | .send c =>
    let t := (l.txSystem cfg shm).exec c
    (t.us.mem.shm, l.withTx t)
  | .receive c =>
    if c.act = .peer then (shm, l)
    else
      let t := (l.rxSystem cfg shm).exec c
      (t.us.shm, l.withRx t)

theorem AppLane.exec_step (cfg : AppLaneConfig) (shm : Mem) (l : AppLane)
    (c : AppCmd) : l.exec cfg.toLaneConfig shm c = (shm, l) ∨
      AppLaneStep cfg shm l (l.exec cfg.toLaneConfig shm c).1
        (l.exec cfg.toLaneConfig shm c).2 := by
  cases c with
  | send c =>
    rcases (l.txSystem cfg.toLaneConfig shm).exec_step cfg.tx c with hsame | hst
    · left
      simp only [AppLane.exec, hsame]
      rfl
    · refine .inr (.send ?_ hst)
      cases c <;> exact fun hc => by cases hc
  | receive c =>
    simp only [AppLane.exec]
    split
    · exact .inl rfl
    · next hpeer =>
      rcases @RxSystem.exec_step cfg.rx (l.rxSystem cfg.toLaneConfig shm) c
        fun hc => absurd hc hpeer with hsame | hst
      · left
        rw [hsame]
        rfl
      · exact .inr (.receive hpeer hst)

/-- A call on the lane to the remote, or on the other one. -/
inductive AppLinkCmd where
  | toRemote (c : AppCmd)
  | toHost (c : AppCmd)

def AppLink.exec (cfg : AppLinkConfig) (s : AppLink) : AppLinkCmd → AppLink
  | .toRemote c =>
    let (shm, l) := s.toRemote.exec cfg.toLinkLayout.toRemote s.shm c
    { s with shm := shm, toRemote := l }
  | .toHost c =>
    let (shm, l) := s.toHost.exec cfg.toLinkLayout.toHost s.shm c
    { s with shm := shm, toHost := l }

theorem AppLink.exec_step (cfg : AppLinkConfig) (s : AppLink)
    (c : AppLinkCmd) : s.exec cfg c = s ∨ AppLinkStep cfg s (s.exec cfg c) := by
  cases c with
  | toRemote c =>
    rcases s.toRemote.exec_step cfg.toRemote s.shm c with hsame | hst
    · left
      have hsame : s.toRemote.exec cfg.toLinkLayout.toRemote s.shm c =
        (s.shm, s.toRemote) := hsame
      simp only [AppLink.exec, hsame]
    · exact .inr (.toRemote hst)
  | toHost c =>
    rcases s.toHost.exec_step cfg.toHost s.shm c with hsame | hst
    · left
      have hsame : s.toHost.exec cfg.toLinkLayout.toHost s.shm c =
        (s.shm, s.toHost) := hsame
      simp only [AppLink.exec, hsame]
    · exact .inr (.toHost hst)

/-- The check that the host has never more than `vq_nentries` buffers
outstanding. -/
def AppLinkConfig.boundedCheck (cfg : AppLinkConfig) (s : AppLink)
    (c : AppLinkCmd) : Bool :=
  (s.exec cfg c).toRemote.outstanding ≤ cfg.h2r.num

theorem AppLinkReachable.run {s₀ : AppLink} {cs : List AppLinkCmd}
    (h : AppLinkReachable cfg s₀)
    (hp : passes (AppLink.exec cfg) cfg.boundedCheck s₀ cs) :
    AppLinkReachable cfg (cs.foldl (AppLink.exec cfg) s₀) :=
  Reachable.script (fun s c hok => (s.exec_step cfg c).imp_right
    fun hst => ⟨hst, of_decide_eq_true hok⟩) cs h hp

/-- Either queue of the pair, two entries. -/
def appPairQueue : VqConfig :=
  ⟨1, order_one_le, 0, 0, hostIo, remoteIo, true, true⟩

theorem appPairQueue_pool : PoolShared appPairQueue.drvIo appPairQueue.devIo
    (rpmsgVirtioInitShmPool 0x1000 0x400) := poolShared_page

theorem appPairQueue_split : ∀ pool ∈ (none : Option ShmPool),
    PoolShared appPairQueue.drvIo appPairQueue.devIo pool ∧
      (Span.mk (rpmsgVirtioInitShmPool 0x1000 0x400).base.toNat
        (rpmsgVirtioInitShmPool 0x1000 0x400).size.toNat).Disjoint
        ⟨pool.base.toNat, pool.size.toNat⟩ := nofun

/-- Buffers of 64 and of 48 bytes. -/
def appPairLayout : LinkLayout where
  h2r := appPairQueue
  r2h := appPairQueue
  h2rBufSize := 64
  r2hBufSize := 48
  shpool := rpmsgVirtioInitShmPool 0x1000 0x400
  split := none
  shm := fun _ => 0
  hostReclaimer := 1
  remoteReclaimer := 1
  hostRdev := oneEndpoint 0x400
  remoteRdev := oneEndpoint 0x401
  host_io := rfl
  remote_io := rfl
  pool_ok := appPairQueue_pool
  split_ok := appPairQueue_split

theorem appPairLayout_room :
    RECLAIMER_SIZE ≤ appPairLayout.h2rBufSize.toNat ∧
      RECLAIMER_SIZE ≤ appPairLayout.r2hBufSize.toNat := by decide

theorem appPairLayout_outside :
    appPairLayout.toRemote.Outside ∧ appPairLayout.toHost.Outside :=
  ⟨.inr (by decide +kernel), .inr (by decide +kernel)⟩

def appPairLink : AppLinkConfig where
  toLinkLayout := appPairLayout
  h2r_room := appPairLayout_room.1
  r2h_room := appPairLayout_room.2
  host_outside := appPairLayout_outside.1
  remote_outside := appPairLayout_outside.2

/-! ## The result -/

/-- **Buffer sizes stay constant.** In every state of every run of a link
with at most `vq_nentries` host buffers outstanding, the host is reported
`h2r_buf_size` and the remote `r2h_buf_size`, less the header; received
buffers go back with the size they came in; and every descriptor of the
host's receive queue has the length `r2h_buf_size`. -/
theorem buffer_sizes_constant {cfg : AppLinkConfig} {s : AppLink}
    (h : AppLinkReachable cfg s) :
    s.toRemote.SizeKept cfg.toLinkLayout.toRemote s.shm cfg.h2rBufSize ∧
      s.toHost.SizeKept cfg.toLinkLayout.toHost s.shm cfg.r2hBufSize ∧
      ∀ i : UInt16, i.toNat < cfg.r2h.num →
        (s.toHost.ring.desc i).len = cfg.r2hBufSize := by
  obtain ⟨-, ⟨recl, pend, hremote⟩, ⟨recl', pend', hhost⟩⟩ := h.inv
  have hq : LaneQueue cfg.toLinkLayout.toHost s.toHost.toLaneEnds _ _ _ :=
    hhost.queue
  obtain ⟨f, hlane, -⟩ := hq
  exact ⟨hremote.sizeKept, hhost.sizeKept, hlane.descs⟩

/-- A message there and its buffer back, another one released, and a
message the other way, held on. -/
def appPairScript : List AppLinkCmd :=
  [.toRemote (.send .get), .toRemote (.send (.note 0)),
    .toRemote (.send (.header 0)), .toRemote (.send (.enqueue 0)),
    .toRemote (.receive .take), .toRemote (.receive (.ret 0)),
    .toRemote (.receive (.finish 0)),
    .toRemote (.send .get), .toRemote (.send (.note 0)),
    .toRemote (.send (.release 0)),
    .toHost (.send .get), .toHost (.send (.note 0)),
    .toHost (.send (.header 0)), .toHost (.send (.enqueue 0)),
    .toHost (.receive .take), .toHost (.receive (.hold 0))]

/-- The payload sizes the two sides would be reported now. -/
def AppLink.sizes (cfg : AppLinkConfig) (s : AppLink) :
    Option UInt32 × Option UInt32 :=
  let size (rvdev : TxDevice) : Option UInt32 :=
    (rpmsgVirtioGetTxPayloadBuffer rvdev).bind fun r => r.1.map Prod.snd
  (size (s.toRemote.sender cfg.toLinkLayout.toRemote s.shm),
    size (s.toHost.sender cfg.toLinkLayout.toHost s.shm))

theorem appPair_sizes :
    ∃ s, AppLinkReachable appPairLink s ∧
      s.sizes appPairLink = (some 48, some 32) ∧
      s.toHost.rx.map (·.putBacks) = [0] ∧
      s.toRemote.SizeKept appPairLink.toLinkLayout.toRemote s.shm 64 ∧
      s.toHost.SizeKept appPairLink.toLinkLayout.toHost s.shm 48 := by
  obtain ⟨s₀, hs⟩ := Option.isSome_iff_exists.mp
    (show (AppLink.init appPairLink.toLinkLayout).isSome = true by
      decide +kernel)
  have hrun : (AppLink.init appPairLink.toLinkLayout).map (fun s₀ =>
      (passes (AppLink.exec appPairLink) appPairLink.boundedCheck s₀
          appPairScript,
        (appPairScript.foldl (AppLink.exec appPairLink) s₀).sizes appPairLink,
        (appPairScript.foldl (AppLink.exec appPairLink) s₀).toHost.rx.map
          (·.putBacks))) = some (true, (some 48, some 32), [0]) := by
    decide +kernel
  rw [hs] at hrun
  obtain ⟨hpass, hrest⟩ := Prod.mk.inj (Option.some.inj hrun)
  obtain ⟨hsizes, hputs⟩ := Prod.mk.inj hrest
  have hreach : AppLinkReachable appPairLink _ :=
    AppLinkReachable.run (.start hs) hpass
  obtain ⟨hremote, hhost, -⟩ := buffer_sizes_constant hreach
  exact ⟨_, hreach, hsizes, hputs, hremote, hhost⟩

end OpenAmp.Rpmsg
