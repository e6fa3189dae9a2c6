import OpenAmp.Rpmsg.RxSystem

/-!
# The reception invariant

A driver's receive buffers are the pieces of the pool it lent out at
initialisation: each is received and not yet put back, or in the queue.
A device's are the chains it has taken. `RxSide` says so for either
role; two lemmas on it cover the calls of our side, and the peer has
its own. `RxInv` adds what the header words spell.
-/

namespace OpenAmp.Rpmsg

open OpenAmp.Lib OpenAmp.Metal OpenAmp.Virtio

/-- A chain of the receive queue as a device has it. -/
def RxConfig.chainBuf (cfg : RxConfig) (c : Chain) : VqBuffer :=
  ⟨(c.call.view cfg.vq).buffer, (c.call.view cfg.vq).len, c.call.head⟩

/-- What holds of a driver that has not put back `outs`. -/
structure RxDriver (cfg : RxConfig) (outs : List VqBuffer) (us : RxDevice)
    (peer : Virtqueue) (taken : List AvailableBuffer) (f : Flow) : Prop where
  queue : Carries cfg.vq us.rvq peer us.ring f
  bare : ∀ c ∈ f.live, Bare cfg.r2hBufSize c
  lens : ∀ i : UInt16, i.toNat < cfg.vq.num →
    (us.ring.desc i).len = cfg.r2hBufSize
  sent : ∀ u ∈ f.used, u.2 = cfg.r2hBufSize ∧
    RPMSG_HDR_SIZE ≤ cfg.r2hBufSize.toNat
  own : ∀ b ∈ outs, b.len = cfg.r2hBufSize ∧ b.idx.toNat < cfg.vq.num ∧
    RPMSG_HDR_SIZE ≤ cfg.r2hBufSize.toNat
  taken : taken.Perm (f.held.map (·.call.view cfg.vq))
  fits : cfg.vq.num * cfg.r2hBufSize.toNat ≤ cfg.shpool.avail.toNat
  bufs : (outs.map (·.data) ++ f.live.map (·.call.cookie)).Perm
    (cfg.shpool.cut cfg.r2hBufSize.toNat cfg.vq.num)

/-- What holds of a device that has not put back `outs`. -/
structure RxDev (cfg : RxConfig) (outs : List VqBuffer) (us : RxDevice)
    (peer : Virtqueue) (f : Flow) : Prop where
  queue : Carries cfg.vq peer us.rvq us.ring f
  shape : ∀ c ∈ f.live, (cfg.chainBuf c).data ≠ 0 ∧
    RPMSG_HDR_SIZE ≤ (cfg.chainBuf c).len.toNat
  own : outs.Perm (f.held.map cfg.chainBuf)
  apart : (f.live.map cfg.chainBuf).Pairwise fun a b =>
    (a.span cfg.vq.devIo).Disjoint (b.span cfg.vq.devIo)

/-- What holds of our side in its role. -/
def RxSide (cfg : RxConfig) (outs : List VqBuffer) (us : RxDevice)
    (peer : Virtqueue) (taken : List AvailableBuffer) (f : Flow) : Prop :=
  match cfg.role with
  | .driver => RxDriver cfg outs us peer taken f
  | .device => RxDev cfg outs us peer f

/-- The books of one reception are in order. -/
structure Received.Ok (r : Received) : Prop where
  le : r.releases ≤ r.holds
  few : r.holds < 65535
  once : r.putBacks = if r.count = 0 then 1 else 0

/-- **The reception invariant**, with the flow of the receive queue. -/
structure RxInv (cfg : RxConfig) (s : RxSystem) (f : Flow) : Prop where
  io : s.us.io = cfg.io
  books : ∀ r ∈ s.rx, r.Ok
  words : ∀ r ∈ s.rx, r.putBacks = 0 →
    Counted s.us.io s.us.shm r.buf r.count
  side : RxSide cfg s.outs s.us s.peer s.taken f

variable {cfg : RxConfig} {outs outs' : List VqBuffer} {us : RxDevice}
  {peer : Virtqueue} {taken : List AvailableBuffer} {f : Flow} {b : VqBuffer}

/-! ## One side -/

theorem RxSide.perm (h : RxSide cfg outs us peer taken f)
    (hp : outs.Perm outs') : RxSide cfg outs' us peer taken f := by
  unfold RxSide at *
  split at h
  · refine { h with own := ?_, bufs := ?_ }
    · exact fun b hb => h.own b (hp.mem_iff.mpr hb)
    · exact ((hp.map _).append_right _).symm.trans h.bufs
  · exact { h with own := hp.symm.trans h.own }

/-- The bytes in memory have no part in the role's invariant. -/
theorem RxSide.withShm (h : RxSide cfg outs us peer taken f) (shm : Mem) :
    RxSide cfg outs { us with shm := shm } peer taken f := by
  unfold RxSide at *
  split at h
  · exact { h with }
  · exact { h with }

/-- The buffers not put back lie apart, with room for their headers. -/
theorem RxSide.apart (h : RxSide cfg outs us peer taken f) :
    outs.Pairwise (fun a b => (a.span cfg.io).Disjoint (b.span cfg.io)) ∧
      ∀ b ∈ outs, RPMSG_HDR_SIZE ≤ b.len.toNat := by
  unfold RxSide at h
  split at h
  · next hr =>
    have hcut := (cfg.pool_ok hr).cut_apart h.fits
    have hall := (h.bufs.pairwise_iff fun h => h.symm).mpr hcut
    have hdata := List.pairwise_map.mp (List.pairwise_append.mp hall).1
    refine ⟨hdata.imp_of_mem fun {a b} ha hb hab => ?_, fun b hb => ?_⟩
    · simp only [VqBuffer.span, RxConfig.io, hr, (h.own a ha).1,
        (h.own b hb).1]
      exact hab
    · rw [(h.own b hb).1]
      exact (h.own b hb).2.2
  · next hr =>
    have hheld : (f.held.map cfg.chainBuf).Sublist
        (f.live.map cfg.chainBuf) := by
      refine List.Sublist.map _ ?_
      unfold Flow.live
      exact (List.sublist_append_right _ _).trans
        (List.sublist_append_left _ _)
    refine ⟨?_, fun b hb => ?_⟩
    · simp only [RxConfig.io, hr]
      exact (h.own.pairwise_iff fun h => h.symm).mpr (h.apart.sublist hheld)
    · obtain ⟨c, hc, rfl⟩ := List.mem_map.mp (h.own.mem_iff.mp hb)
      exact (h.shape c (by simp [Flow.live, hc])).2

/-- A driver with a buffer in hand has a free descriptor for it. -/
theorem RxDriver.freeCnt_pos (h : RxDriver cfg (b :: outs) us peer taken f) :
    us.rvq.vqFreeCnt ≠ 0 := by
  have hlen := h.bufs.length_eq
  simp only [ShmPool.cut, List.length_append, List.length_map,
    List.length_range, List.length_cons] at hlen
  exact h.queue.freeCnt_ne_zero (fun c hc => (h.bare c hc).needed) (by omega)

/-- No buffer of the pool is a null pointer. -/
theorem RxDriver.ne_zero (hr : cfg.role = .driver)
    (h : RxDriver cfg outs us peer taken f) (hb : b ∈ outs) : b.data ≠ 0 := by
  have hok := cfg.pool_ok hr
  have hmem := h.bufs.mem_iff.mp (List.mem_append_left _
    (List.mem_map.mpr ⟨b, hb, rfl⟩))
  obtain ⟨i, hi, heq⟩ := List.mem_map.mp hmem
  have hnat := hok.cut_toNat h.fits (List.mem_range.mp hi)
  have hav := UInt64.le_iff_toNat_le.mp hok.avail_le
  have hbase : cfg.shpool.base.toNat ≠ 0 := fun h0 =>
    hok.base_ne (UInt64.toNat_inj.mp h0)
  intro h0
  rw [heq, h0, UInt64.toNat_zero] at hnat
  omega

/-- **A message is got**: nothing, or one buffer more in our hands. -/
theorem RxSide.get (h : RxSide cfg outs us peer taken f)
    {r : Option VqBuffer} {us' : RxDevice}
    (hget : rpmsgVirtioGetRxBuffer us = some (r, us')) :
    (r = none ∧ us' = us) ∨ ∃ b f', r = some b ∧ us'.io = us.io ∧
      us'.shm = us.shm ∧ RxSide cfg (b :: outs) us' peer taken f' := by
  unfold RxSide at h ⊢
  cases hr : cfg.role with
  | driver =>
    simp only [hr] at h ⊢
    rcases getRxBuffer_driver us h.queue with
      ⟨-, heq⟩ | ⟨c, len, used, idx, rvq, ring, hu, heq, hidx, hcar, hlen⟩
    · rw [heq] at hget
      cases hget
      exact .inl ⟨rfl, rfl⟩
    · rw [heq] at hget
      cases hget
      have hlive := Flow.live_get hu
      have hin := h.sent (c, len) (by simp [hu])
      refine .inr ⟨_, f.get c, rfl, rfl, rfl, hcar, ?_, ?_, ?_, ?_, h.taken,
        h.fits, ?_⟩
      · exact fun c' hc' => h.bare c' (hlive.mem_iff.mpr (by simp [hc']))
      · exact fun i hi => (hlen i).trans (h.lens i hi)
      · intro u hu'
        refine h.sent u ?_
        simp only [Flow.get, hu, List.tail_cons] at hu'
        simp [hu, hu']
      · intro b hb
        rcases List.mem_cons.mp hb with rfl | hb
        · exact ⟨hin.1, hidx, hin.2⟩
        · exact h.own b hb
      · -- the buffer goes from the queue into our hands
        refine List.Perm.trans ?_ h.bufs
        have hmove := (hlive.map (·.call.cookie)).append_left
          (outs.map (·.data))
        refine (List.Perm.trans ?_ hmove.symm)
        exact List.perm_middle.symm
  | device =>
    simp only [hr] at h ⊢
    rcases getRxBuffer_device us h.queue fun c hc =>
        (h.shape c (by simp [Flow.live, hc])).1 with
      ⟨-, heq⟩ | ⟨c, avail, rvq, ha, heq, hcar⟩
    · rw [heq] at hget
      cases hget
      exact .inl ⟨rfl, rfl⟩
    · rw [heq] at hget
      cases hget
      have hlive := Flow.live_take ha
      refine .inr ⟨_, f.take c, rfl, rfl, rfl, hcar, ?_, ?_, ?_⟩
      · exact fun c' hc' => h.shape c' (hlive.mem_iff.mp hc')
      · simp only [Flow.take, List.map_append, List.map_cons, List.map_nil]
        exact (h.own.cons _).trans (List.perm_append_singleton _ _).symm
      · exact ((hlive.map _).pairwise_iff fun h => h.symm).mpr h.apart

/-- **A buffer goes back on the queue**: a driver finds a free descriptor
for it, a device returns it under the index it came with. -/
theorem RxSide.putBack (h : RxSide cfg (b :: outs) us peer taken f) :
    ∃ us' f', rpmsgVirtioReturnBuffer us b.data
        (virtqueueGetBufferLength us.ring b.idx) b.idx =
          (VQUEUE_SUCCESS, us') ∧ us'.io = us.io ∧ us'.shm = us.shm ∧
      PutBack cfg.role us
        { us' with rvq := (virtqueueKick us'.rvq us'.ring).2 } b ∧
      RxSide cfg outs { us' with rvq := (virtqueueKick us'.rvq us'.ring).2 }
        peer taken f' := by
  unfold RxSide at h ⊢
  cases hr : cfg.role with
  | driver =>
    simp only [hr] at h ⊢
    -- every descriptor of the table has the length it was lent with
    have hlen : virtqueueGetBufferLength us.ring b.idx = cfg.r2hBufSize :=
      h.lens b.idx (h.own b (by simp)).2.1
    obtain ⟨c, rvq, ring, hadd, heq, hc, hbare, hcar, hlens⟩ :=
      returnBuffer_driver us h.queue h.freeCnt_pos (h.ne_zero hr List.mem_cons_self)
        cfg.r2hBufSize b.idx
    rw [hlen]
    have hlive := f.live_add c
    refine ⟨_, f.add c, heq, rfl, rfl, ⟨cfg.r2hBufSize, rvq, ring,
      ⟨?_, hadd⟩, rfl, rfl⟩, hcar.drvKick, ?_, ?_, h.sent, ?_, h.taken,
      h.fits, ?_⟩
    · have hne : us.rvq.vqFreeCnt.toNat ≠ 0 := fun h0 =>
        h.freeCnt_pos (UInt16.toNat_inj.mp h0)
      rw [UInt16.le_iff_toNat_le, UInt16.toNat_one]
      omega
    · intro c' hc'
      rcases List.mem_cons.mp (hlive.mem_iff.mp hc') with rfl | hc'
      · exact hbare
      · exact h.bare c' hc'
    · intro i hi
      rcases hlens i with hl | hl
      · exact hl
      · exact hl.trans (h.lens i hi)
    · exact fun x hx => h.own x (by simp [hx])
    · refine List.Perm.trans ?_ h.bufs
      have hmove := (hlive.map (·.call.cookie)).append_left (outs.map (·.data))
      refine hmove.trans ?_
      rw [List.map_cons, hc]
      exact List.perm_middle
  | device =>
    simp only [hr] at h ⊢
    obtain ⟨c, hc, rfl⟩ := List.mem_map.mp
      (h.own.mem_iff.mp (List.mem_cons_self (a := b)))
    obtain ⟨l₁, l₂, hsplit⟩ := List.append_of_mem hc
    obtain ⟨rvq, ring, hadd, heq, hcar, -⟩ := returnBuffer_device us h.queue
      hsplit (cfg.chainBuf c).data
      (virtqueueGetBufferLength us.ring c.call.head)
    have hlive := Flow.live_put hsplit
      (virtqueueGetBufferLength us.ring c.call.head)
    refine ⟨_, f.put l₁ l₂ c _, heq, rfl, rfl, ⟨_, rvq, ring, hadd, rfl, rfl⟩,
      hcar.devKick, ?_, ?_, ?_⟩
    · exact fun c' hc' => h.shape c' (hlive.mem_iff.mp hc')
    · have hmid : (f.held.map cfg.chainBuf).Perm
          (cfg.chainBuf c :: (l₁ ++ l₂).map cfg.chainBuf) := by
        rw [hsplit]
        exact List.perm_middle.map _
      exact (List.perm_cons _).mp (h.own.trans hmid)
    · exact ((hlive.map _).pairwise_iff fun h => h.symm).mpr h.apart

/-! ## The peer -/

theorem RxDriver.peerTake (h : RxDriver cfg outs us peer taken f)
    {r : Option AvailableBuffer} {peer' : Virtqueue}
    (hget : virtqueueGetAvailableBuffer peer us.ring = (r, peer')) :
    ∃ f', RxDriver cfg outs us peer' (taken ++ r.toList) f' := by
  rcases h.queue.getAvailableBuffer with
    ⟨-, heq⟩ | ⟨c, avail, dev, ha, heq, hcar⟩
  · rw [heq] at hget
    cases hget
    exact ⟨f, by simpa using h⟩
  · rw [heq] at hget
    cases hget
    have hlive := Flow.live_take ha
    refine ⟨f.take c, hcar, ?_, h.lens, h.sent, h.own, ?_, h.fits, ?_⟩
    · exact fun c' hc' => h.bare c' (hlive.mem_iff.mp hc')
    · simp only [Flow.take, List.map_append, List.map_cons, List.map_nil]
      exact h.taken.append_right _
    · exact ((hlive.map _).append_left _).trans h.bufs

theorem RxDriver.peerPut (h : RxDriver cfg outs us peer taken f)
    {a : AvailableBuffer} (ha : a ∈ taken)
    (hroom : RPMSG_HDR_SIZE ≤
      (virtqueueGetBufferLength us.ring a.availIdx).toNat)
    {status : Int} {peer' : Virtqueue} {ring : Vring}
    (hput : virtqueueAddConsumedBuffer peer us.ring a.availIdx
      (virtqueueGetBufferLength us.ring a.availIdx) = (status, peer', ring)) :
    ∃ f', RxDriver cfg outs { us with ring := ring } peer' (taken.erase a)
      f' := by
  obtain ⟨c, hc, rfl⟩ := List.mem_map.mp (h.taken.mem_iff.mp ha)
  obtain ⟨l₁, l₂, hsplit⟩ := List.append_of_mem hc
  have hcl : c ∈ f.live := by simp [Flow.live, hc]
  have hlen : virtqueueGetBufferLength us.ring c.call.head = cfg.r2hBufSize :=
    h.lens _ (h.queue.head_lt hcl)
  have hhead : (c.call.view cfg.vq).availIdx = c.call.head := rfl
  rw [hhead, hlen] at hput hroom
  obtain ⟨dev, ring', hadd, hcar, hdesc⟩ :=
    h.queue.addConsumedBuffer hsplit cfg.r2hBufSize
  rw [hadd] at hput
  cases hput
  have hlive := Flow.live_put hsplit cfg.r2hBufSize
  refine ⟨_, hcar, ?_, ?_, ?_, h.own, ?_, h.fits, ?_⟩
  · exact fun c' hc' => h.bare c' (hlive.mem_iff.mp hc')
  · exact fun i hi => (congrArg (fun d => (d i).len) hdesc).trans (h.lens i hi)
  · intro u hu
    rcases List.mem_append.mp hu with hu | hu
    · exact h.sent u hu
    · rw [List.mem_singleton.mp hu]
      exact ⟨rfl, hroom⟩
  · have hmid : (f.held.map (·.call.view cfg.vq)).Perm
        (c.call.view cfg.vq :: (l₁ ++ l₂).map (·.call.view cfg.vq)) := by
      rw [hsplit]
      exact List.perm_middle.map _
    have herase := (h.taken.trans hmid).erase (c.call.view cfg.vq)
    rwa [List.erase_cons_head] at herase
  · exact ((hlive.map _).append_left _).trans h.bufs

/-- The descriptor of a chain tells a device where the buffer is. -/
theorem RxDev.descriptor (h : RxDev cfg outs us peer f) {c : Chain}
    (hc : c ∈ f.live) :
    virtqueueGetBufferAddr us.rvq us.ring c.call.head = (cfg.chainBuf c).data ∧
      virtqueueGetBufferLength us.ring c.call.head = (cfg.chainBuf c).len := by
  refine ⟨?_, (h.queue.chain hc).len⟩
  rw [virtqueueGetBufferAddr, virtqueuePhysToVirt, (h.queue.chain hc).addr,
    h.queue.fixed.devIo]
  rfl

theorem RxDev.peerAdd (h : RxDev cfg outs us peer f) (hio : us.io = cfg.vq.devIo)
    {buf : UInt64} {len : Int32} (hfree : peer.vqFreeCnt ≠ 0) (hbuf : buf ≠ 0)
    (hview : cfg.view buf ≠ 0) (hroom : RPMSG_HDR_SIZE ≤ len.toUInt32.toNat)
    (hapart : ∀ i : UInt16, i.toNat < cfg.vq.num →
      (peer.vqDescx i).cookie ≠ 0 →
      (Span.mk (shmOff us.io (cfg.view buf)) len.toUInt32.toNat).Disjoint
        ⟨shmOff us.io (virtqueueGetBufferAddr us.rvq us.ring i),
          (virtqueueGetBufferLength us.ring i).toNat⟩)
    {status : Int} {peer' : Virtqueue} {ring : Vring}
    (hadd : virtqueueAddBuffer peer us.ring (fun _ => ⟨buf, len⟩) 1 0 buf =
      (status, peer', ring)) :
    ∃ f', RxDev cfg outs { us with ring := ring } peer' f' := by
  obtain ⟨c, drv, ring', hadd', hcall, hcar, -⟩ := h.queue.addBuffer ⟨buf, len⟩
    (show (1 : Int) + 0 = 1 by rfl) hfree hbuf
  rw [hadd'] at hadd
  cases hadd
  have hlive := f.live_add c
  have hdata : (cfg.chainBuf c).data = cfg.view buf := by
    rw [RxConfig.chainBuf, hcall]
    rfl
  have hlen : (cfg.chainBuf c).len = len.toUInt32 := by
    rw [RxConfig.chainBuf, hcall]
    rfl
  refine ⟨f.add c, hcar, ?_, h.own, ?_⟩
  · intro c' hc'
    rcases List.mem_cons.mp (hlive.mem_iff.mp hc') with rfl | hc'
    · rw [hdata, hlen]
      exact ⟨hview, hroom⟩
    · exact h.shape c' hc'
  · refine ((hlive.map _).pairwise_iff fun h => h.symm).mpr ?_
    rw [List.map_cons, List.pairwise_cons]
    -- what the driver adds is apart from every buffer in the table
    refine ⟨fun b hb => ?_, h.apart⟩
    obtain ⟨c', hc', rfl⟩ := List.mem_map.mp hb
    have hchain := h.queue.chain hc'
    have hdis := hapart c'.call.head (h.queue.head_lt hc')
      (by rw [hchain.cookie]; exact hchain.cookie_ne)
    obtain ⟨haddr, hl⟩ := h.descriptor hc'
    rw [haddr, hl, hio] at hdis
    simp only [VqBuffer.span, hdata, hlen]
    exact hdis

theorem RxDev.peerGet (h : RxDev cfg outs us peer f) {r : Option GotBuffer}
    {peer' : Virtqueue} {ring : Vring}
    (hget : virtqueueGetBuffer peer us.ring = some (r, peer', ring)) :
    ∃ f', RxDev cfg outs { us with ring := ring } peer' f' := by
  rcases h.queue.getBuffer with
    ⟨-, heq⟩ | ⟨c, len, used, g, drv, ring', hu, heq, -, -, hcar, -⟩
  · rw [heq] at hget
    cases hget
    exact ⟨f, h⟩
  · rw [heq] at hget
    cases hget
    have hlive := Flow.live_get hu
    refine ⟨f.get c, hcar, ?_, h.own, ?_⟩
    · exact fun c' hc' => h.shape c' (hlive.mem_iff.mpr (by simp [hc']))
    · have := ((hlive.map cfg.chainBuf).pairwise_iff fun h => h.symm).mp h.apart
      exact (List.pairwise_cons.mp this).2

/-- The notification calls of the peer change nothing the invariant
speaks of. -/
theorem RxSide.peerNotify (h : RxSide cfg outs us peer taken f) {ring : Vring}
    {n : UInt16} (hsame : SameQueues cfg.vq us.ring ring) :
    RxSide cfg outs { us with ring := ring } { peer with vqQueuedCnt := n }
      taken f := by
  unfold RxSide at *
  split at h
  · refine { h with queue := h.queue.notify _ _ hsame, lens := fun i hi => ?_ }
    exact (congrArg (fun d => (d i).len) hsame.desc).trans (h.lens i hi)
  · exact { h with queue := h.queue.notify _ _ hsame }

theorem RxSide.peerRing (h : RxSide cfg outs us peer taken f) :
    peer.vqRingNum = cfg.vq.nentries.toUInt32 := by
  unfold RxSide at h
  split at h
  · exact h.queue.fixed.devRing
  · exact h.queue.fixed.drvRing

end OpenAmp.Rpmsg
