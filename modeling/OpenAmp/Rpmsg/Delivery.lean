import OpenAmp.Rpmsg.LaneInvariant

/-!
# Messages are delivered

The two lanes of a link have their buffers in different places, so no
step on one disturbs the other, and both deliver in every run.
-/

namespace OpenAmp.Rpmsg

open OpenAmp.Lib OpenAmp.Metal OpenAmp.Virtio

variable {s t : LinkSystem}

section Layout

variable {cfg : LinkLayout}

/-- **The lanes have their buffers in different places**, if the host's
initialisation succeeded. -/
theorem LinkLayout.areas_disjoint (cfg : LinkLayout)
    (hfit : cfg.r2h.num * cfg.r2hBufSize.toNat ≤ cfg.shpool.avail.toNat) :
    cfg.toRemote.area.Disjoint cfg.toHost.area := by
  have hok := cfg.pool_ok
  have hav := UInt64.le_iff_toNat_le.mp hok.avail_le
  have hvirt := UInt64.le_iff_toNat_le.mp hok.mapped
  cases hs : cfg.split with
  | none =>
    have hlt := cfg.shpool.avail.toNat_lt
    have hrest : (UInt64.ofNat (cfg.shpool.avail.toNat -
        cfg.r2h.num * cfg.r2hBufSize.toNat)).toNat =
          cfg.shpool.avail.toNat - cfg.r2h.num * cfg.r2hBufSize.toNat := by
      rw [UInt64.toNat_ofNat']
      omega
    simp only [Span.Disjoint, LaneConfig.area, LinkLayout.toRemote,
      LinkLayout.toHost, LinkLayout.txPool, hs, Option.getD_none, cfg.host_io,
      hrest]
    omega
  | some pool =>
    obtain ⟨hpool, hdis⟩ := cfg.split_ok pool (by simp [hs])
    have hav' := UInt64.le_iff_toNat_le.mp hpool.avail_le
    have hvirt' := UInt64.le_iff_toNat_le.mp hpool.mapped
    simp only [Span.Disjoint, LaneConfig.area, LinkLayout.toRemote,
      LinkLayout.toHost, LinkLayout.txPool, hs, Option.getD_some, cfg.host_io]
      at hdis ⊢
    rw [shmOff_eq hvirt, shmOff_eq hvirt']
    omega

/-- Both lanes are in order, apart from each other. -/
structure LinkInv (cfg : LinkLayout) (s : LinkSystem) : Prop where
  apart : cfg.toRemote.area.Disjoint cfg.toHost.area
  toRemote : LaneOk cfg.toRemote s.shm s.toRemote
  toHost : LaneOk cfg.toHost s.shm s.toHost

/-- The host sends: nothing is cut from its pool yet. -/
theorem laneQueue_toRemote {shpool : ShmPool} {l : LaneEnds}
    (hsvq : l.svq = (VqSystem.init cfg.h2r).drv)
    (hrvq : l.rvq = (VqSystem.init cfg.h2r).dev)
    (hring : l.ring = virtqueueDisableCb (VqSystem.init cfg.h2r).drv
      (VqSystem.init cfg.h2r).ring)
    (hpool : l.shpool = cfg.split.getD shpool)
    (hbase : shpool.base = cfg.shpool.base)
    (hsize : shpool.size = cfg.shpool.size)
    (hav : shpool.avail.toNat + cfg.r2h.num * cfg.r2hBufSize.toNat =
      cfg.shpool.avail.toNat) : LaneQueue cfg.toRemote l [] [] [] := by
  have hcar := carries_init cfg.h2r
  have hquiet := hcar.notify (VqSystem.init cfg.h2r).drv.vqQueuedCnt
    (VqSystem.init cfg.h2r).dev.vqQueuedCnt
    (sameQueues_disableCb _ hcar.fixed.drvRing)
  have hsame : l.shpool.base = cfg.txPool.base ∧
      l.shpool.size = cfg.txPool.size ∧
      l.shpool.avail.toNat = cfg.txPool.avail.toNat := by
    rw [hpool, LinkLayout.txPool]
    cases cfg.split with
    | none =>
      have hlt := shpool.avail.toNat_lt
      simp only [Option.getD_none, hbase, hsize, UInt64.toNat_ofNat', true_and]
      omega
    | some pool => exact ⟨rfl, rfl, rfl⟩
  refine ⟨Flow.init cfg.h2r, 0, ⟨⟨?_, by simp, by simp, ?_, by simp, ?_, ?_⟩,
    ?_, hsame.1, hsame.2.1, ?_, Nat.zero_le _⟩, rfl⟩
  · simp [Flow.init, Flow.live]
  · simp [Flow.init]
  · simp [Flow.init]
  · simp [Flow.init, Flow.live, ShmPool.cut]
  · rw [hsvq, hrvq, hring]
    exact hquiet
  · rw [Nat.zero_mul]
    exact hsame.2.2

/-- The remote sends: the host has lent it a buffer for every entry. -/
theorem laneQueue_toHost {l : LaneEnds} {f : Flow} {chains : List Chain}
    {ring : Vring}
    (hcar : Carries cfg.r2h l.rvq (VqSystem.init cfg.r2h).dev ring f)
    (hsvq : l.svq = (VqSystem.init cfg.r2h).dev)
    (hring : l.ring = virtqueueDisableCb (VqSystem.init cfg.r2h).dev ring)
    (hpos : cfg.r2h.num ≠ 0 → 0 < cfg.r2hBufSize.toNat)
    (hfit : cfg.r2h.num * cfg.r2hBufSize.toNat ≤ cfg.shpool.avail.toNat)
    (hlive : f.live = chains) (hheld : f.held = []) (hused : f.used = [])
    (hcut : chains.map (·.call.cookie) =
      cfg.shpool.cut cfg.r2hBufSize.toNat cfg.r2h.num)
    (hbare : ∀ c ∈ f.live, Bare cfg.r2hBufSize c) :
    LaneQueue cfg.toHost l [] [] [] := by
  have hquiet := hcar.notify l.rvq.vqQueuedCnt
    (VqSystem.init cfg.r2h).dev.vqQueuedCnt
    (sameQueues_disableCb _ hcar.fixed.devRing)
  rw [← hring, ← hsvq] at hquiet
  have hfull : f.live.length = cfg.r2h.num := by
    have := congrArg List.length hcut
    simp only [ShmPool.cut, List.length_map, List.length_range] at this
    rw [hlive, this]
  refine ⟨f, ⟨⟨hbare, hpos, hfit, by simp [hused], by simp, ?_, ?_⟩, hquiet,
    ?_, by simp⟩, ?_⟩
  · simp [hheld]
  · rw [hlive, hcut]
    exact .refl _
  · intro i hi
    obtain ⟨c, hc, rfl⟩ := hquiet.head_of_full hfull hi
    exact (hquiet.chain hc).len.trans (hbare c hc).len
  · simp [hused]

/-- **Where a link begins**: no buffer is in use, and the lanes have
different places for theirs. -/
theorem LinkSystem.init_queues (h : LinkSystem.init cfg = some s) :
    cfg.toRemote.area.Disjoint cfg.toHost.area ∧
      LaneQueue cfg.toRemote s.toRemote.toLaneEnds [] [] [] ∧
      LaneQueue cfg.toHost s.toHost.toLaneEnds [] [] [] := by
  simp only [LinkSystem.init, Option.map_eq_some_iff] at h
  obtain ⟨⟨shpool, rvq, ring⟩, hloop, rfl⟩ := h
  obtain ⟨hfit, -, hbase, hsize, hav, chains, f, hcar, ha, hh, hu, hcut,
      hbare⟩ := rpmsgInitRxBuffers_spec _ cfg.pool_ok.toPoolMapped
    (carries_init cfg.r2h) (by simp [Flow.init, Flow.live])
    (by simp [Flow.init]) hloop
  have hlive : f.live = chains := by simp [Flow.live, ha, hh, hu, Flow.init]
  exact ⟨cfg.areas_disjoint hfit,
    laneQueue_toRemote rfl rfl rfl rfl hbase hsize hav,
    laneQueue_toHost hcar rfl rfl
      (rpmsgInitRxBuffers_pos (by rw [hloop]; rfl)) hfit hlive hh hu hcut hbare⟩

theorem linkInv_init (h : LinkSystem.init cfg = some s) : LinkInv cfg s := by
  obtain ⟨hapart, hremote, hhost⟩ := LinkSystem.init_queues h
  simp only [LinkSystem.init, Option.map_eq_some_iff] at h
  obtain ⟨_, -, rfl⟩ := h
  exact ⟨hapart, laneOk_fresh _ rfl rfl rfl rfl rfl hremote,
    laneOk_fresh _ rfl rfl rfl rfl rfl hhost⟩

/-- **One step keeps both lanes in order.** -/
theorem LinkInv.step (h : LinkInv cfg s) (hst : LinkStep cfg s t)
    (hsized : SizedSends cfg s t) : LinkInv cfg t := by
  cases hst with
  | toRemote hlane =>
    obtain ⟨pend, old, cur, new, hinv⟩ := h.toRemote
    obtain ⟨hok, ht⟩ := hinv.step hlane hsized.toRemote
    exact ⟨h.apart, hok, h.toHost.frame ht h.apart⟩
  | toHost hlane =>
    obtain ⟨pend, old, cur, new, hinv⟩ := h.toHost
    obtain ⟨hok, ht⟩ := hinv.step hlane hsized.toHost
    exact ⟨h.apart, h.toRemote.frame ht h.apart.symm, hok⟩

theorem LayoutReachable.inv (h : LayoutReachable cfg s) : LinkInv cfg s := by
  refine Reachable.invariant (P := LinkInv cfg) ?_ ?_ h
  · exact fun s hs => linkInv_init hs
  · exact fun s t _ hs hst => hs.step hst.1 hst.2

end Layout

variable {cfg : LinkConfig}

theorem LinkConfig.sized (cfg : LinkConfig) :
    cfg.toRemote.Sized ∧ cfg.toHost.Sized := by
  have h1 := cfg.h2r_gt
  have h2 := cfg.h2r_le
  have h3 := cfg.r2h_gt
  have h4 := cfg.r2h_le
  refine ⟨⟨?_, ?_⟩, ⟨?_, ?_⟩⟩ <;>
    simp only [LinkLayout.toRemote, LinkLayout.toHost] <;> omega

/-- Every send is made on a lane with room for it. -/
theorem LinkReachable.layout (h : LinkReachable cfg s) :
    LayoutReachable cfg.toLinkLayout s := by
  obtain ⟨h1, h2⟩ := cfg.sized
  induction h with
  | start hi => exact .start hi
  | next _ hst ih => exact .next ih ⟨hst, fun _ _ => h1, fun _ _ => h2⟩

/-! ## Scripted runs -/

/-- The next step of one of a lane's threads. -/
inductive LaneCmd where
  | get (call : SendCall)
  | send
  | receive

/-- The state after a command; one that is not allowed does nothing. -/
def Lane.exec (cfg : LaneConfig) (shm : Mem) (l : Lane) : LaneCmd → Mem × Lane
  | .get call =>
    match l.thread, rpmsgVirtioGetTxBuffer (l.sender cfg shm) with
    | .idle, some (b, rvdev) =>
      if call.dst ≠ RPMSG_ADDR_ANY ∧ call.data.length < 2 ^ 31 then
        (rvdev.mem.shm, { l.withSender rvdev with
          thread := b.elim .idle (.fetched · call) })
      else (shm, l)
    | _, _ => (shm, l)
  | .send =>
    match l.thread with
    | .idle => (shm, l)
    | .fetched b call =>
      (noteTxBuffer cfg.senderIo shm b, { l with thread := .noted b call })
    | .noted b call =>
      let (n, _, shm) := writeTxPayload cfg.senderIo shm b.data
        (b.len - UInt32.ofNat RPMSG_HDR_SIZE) call.data
        (Int32.ofNat call.data.length)
      (shm, { l with thread := .copied b call n })
    | .copied b call n =>
      let (idx, shm) := initTxHdr cfg.senderIo shm call.src call.dst b.data n
      (shm, { l with thread := .sealed { b with idx := idx } call n })
    | .sealed b call n =>
      let (_, _, rvdev) := enqueueTxBuffer (l.sender cfg shm) b.data b.idx
      (rvdev.mem.shm, { l.withSender rvdev with
        thread := .idle
        sent := l.sent ++ [⟨call, n⟩] })
  | .receive =>
    match l.round with
    | none =>
      match rxTakeBuffer (l.receiver cfg shm) with
      | none => (shm, l)
      | some (b, rvdev) => (rvdev.shm,
          b.elim id (fun b l => l.found cfg rvdev.shm b)
            (l.withReceiver rvdev))
    | some r =>
      match r.phase with
      | .found => (shm, { l with
          rdev := r.ept.elim l.rdev (l.rdev.modify ·
            (learnDest (readHdr cfg.receiverIo shm r.buf.data).src))
          round := some { r with
            phase := .called
            calls := r.calls ++
              r.ept.toList.map (eptCall cfg.receiverIo shm r.buf) } })
      | .called =>
        let (st, rvdev) :=
          rpmsgVirtioReleaseRxBuffer (l.receiver cfg shm) r.buf.data
        (rvdev.shm, { l.withReceiver rvdev with
          rdev := r.ept.elim l.rdev (l.rdev.modify · rpmsgEptDecref)
          rx := l.rx ++ [{ r with phase := .finished, status := st }]
          round := none })
      | .finished => (shm, l)

theorem Lane.exec_step (cfg : LaneConfig) (shm : Mem) (l : Lane)
    (c : LaneCmd) : l.exec cfg shm c = (shm, l) ∨
      LaneStep cfg shm l (l.exec cfg shm c).1 (l.exec cfg shm c).2 := by
  cases c with
  | get call =>
    simp only [Lane.exec]
    split
    · next b rvdev hthread hget =>
      split
      · next hok => exact .inr (.get call hthread hok.1 hok.2 hget)
      · exact .inl rfl
    · exact .inl rfl
  | send =>
    simp only [Lane.exec]
    split
    · exact .inl rfl
    · next hthread => exact .inr (.note hthread)
    · next hthread => exact .inr (.copy hthread rfl)
    · next hthread => exact .inr (.header hthread rfl)
    · next hthread => exact .inr (.enqueue hthread rfl)
  | receive =>
    simp only [Lane.exec]
    split
    · next hround =>
      split
      · exact .inl rfl
      · next htake => exact .inr (.take hround htake)
    · next r hround =>
      split
      · next hphase => exact .inr (.call hround hphase)
      · next hphase => exact .inr (.finish hround hphase rfl)
      · exact .inl rfl

/-- A command on the lane to the remote, or on the other one. -/
inductive LinkCmd where
  | toRemote (c : LaneCmd)
  | toHost (c : LaneCmd)

def LinkSystem.exec (cfg : LinkConfig) (s : LinkSystem) :
    LinkCmd → LinkSystem
  | .toRemote c =>
    let (shm, l) := s.toRemote.exec cfg.toRemote s.shm c
    { s with shm := shm, toRemote := l }
  | .toHost c =>
    let (shm, l) := s.toHost.exec cfg.toHost s.shm c
    { s with shm := shm, toHost := l }

theorem LinkSystem.exec_step (cfg : LinkConfig) (s : LinkSystem)
    (c : LinkCmd) : s.exec cfg c = s ∨
      LinkStep cfg.toLinkLayout s (s.exec cfg c) := by
  cases c with
  | toRemote c =>
    rcases s.toRemote.exec_step cfg.toRemote s.shm c with hsame | hst
    · refine .inl ?_
      simp only [LinkSystem.exec, hsame]
    · exact .inr (.toRemote hst)
  | toHost c =>
    rcases s.toHost.exec_step cfg.toHost s.shm c with hsame | hst
    · refine .inl ?_
      simp only [LinkSystem.exec, hsame]
    · exact .inr (.toHost hst)

/-- The state a script reaches from the initial one. -/
def LinkSystem.run (cfg : LinkConfig) (cs : List LinkCmd) :
    Option LinkSystem :=
  (LinkSystem.init cfg.toLinkLayout).map fun s => cs.foldl (LinkSystem.exec cfg) s

theorem LinkReachable.run {cs : List LinkCmd}
    (h : LinkSystem.run cfg cs = some s) : LinkReachable cfg s := by
  obtain ⟨s₀, h0, rfl⟩ := Option.map_eq_some_iff.mp h
  exact Reachable.script (fun s c _ => s.exec_step cfg c) cs (.start h0)
    (passes_true _ cs)

/-- The region of the example, as the host and as the remote map it. -/
def hostIo : MetalIoRegion := flatRegion 0x1000 0x8000 0x1000

def remoteIo : MetalIoRegion := flatRegion 0x5000 0x8000 0x1000

/-- The first kilobyte of the region is a pool both sides share. -/
theorem poolShared_page :
    PoolShared hostIo remoteIo (rpmsgVirtioInitShmPool 0x1000 0x400) where
  base_ne := by decide
  avail_le := by decide
  mapped := by decide
  bound := by decide
  drvValid := by decide
  devValid := by decide
  drvInside := by decide
  devInside := by decide
  devStart := by decide
  devBound := by decide
  same := by
    intro o _ hlt
    refine flatRegion_same _ _ _ (UInt64.lt_iff_toNat_lt.mpr ?_)
    exact Nat.lt_of_lt_of_le hlt (by decide)

/-- One endpoint, with the given address. -/
def oneEndpoint (addr : UInt32) : RpmsgDevice where
  epts := fun _ => ⟨[], true, addr, RPMSG_ADDR_ANY, 1, false⟩
  endpoints := [0]
  bitmap := fun _ => 0
  bitnext := 0
  supportNs := false

/-- Two entries in each ring and buffers of 64 bytes from one pool. -/
def pairLink : LinkConfig where
  h2r := ⟨1, order_one_le, 0, 0, hostIo, remoteIo, true, true⟩
  r2h := ⟨1, order_one_le, 0, 0, hostIo, remoteIo, true, true⟩
  h2rBufSize := 64
  r2hBufSize := 64
  shpool := rpmsgVirtioInitShmPool 0x1000 0x400
  split := none
  shm := fun _ => 0
  hostReclaimer := 1
  remoteReclaimer := 1
  hostRdev := oneEndpoint 0x400
  remoteRdev := oneEndpoint 0x401
  host_io := rfl
  remote_io := rfl
  h2r_gt := by decide
  h2r_le := by decide
  r2h_gt := by decide
  r2h_le := by decide
  pool_ok := poolShared_page
  split_ok := by simp

/-! ## The result -/

/-- A message each way, the second to an address nobody has. -/
def pairScript : List LinkCmd :=
  [.toRemote (.get ⟨0x400, 0x401, [1, 2, 3]⟩),
    .toHost (.get ⟨0x401, 0x7ff, [4]⟩),
    .toRemote .send, .toHost .send, .toRemote .send, .toHost .send,
    .toRemote .send, .toHost .send, .toRemote .send, .toHost .send,
    .toRemote .receive, .toHost .receive, .toRemote .receive,
    .toHost .receive, .toRemote .receive, .toHost .receive]

end OpenAmp.Rpmsg
