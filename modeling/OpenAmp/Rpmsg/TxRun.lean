import OpenAmp.Lib.Transition
import OpenAmp.Rpmsg.TxRoles

/-!
# Runs of the transmission system

`rpmsg_virtio_get_tx_buffer` with its three sources, the steps of the
peer, and from all steps together the run lemma: as long as no buffer is
cut from the pool while the application holds as many as there are free
descriptors, every reachable state satisfies the invariant.
-/

namespace OpenAmp.Rpmsg

open OpenAmp.Lib OpenAmp.Metal OpenAmp.Virtio

variable {cfg : TxConfig} {s : TxSystem} {f : Flow} {recl : List VqBuffer}
  {b : VqBuffer}

/-! ## Getting a buffer -/

/-- What a step that got nothing leaves. -/
theorem TxInv.nothing (h : TxInv cfg s f recl) :
    TxInv cfg { s with held := s.held ++ [], log := s.log ++ [] } f recl := by
  simpa using h

/-- A reclaimed buffer comes first. -/
theorem TxInv.get_reclaimed (h : TxInv cfg s f (b :: recl)) :
    rpmsgVirtioGetTxBuffer s.us =
      some (some b, { s.us with mem := s.us.mem.listDel b.data }) := by
  obtain ⟨hfirst, hidx, -⟩ := h.reuse
  have hlen := h.side.bufferLength (b := b) (by simp)
  cases hr : s.us.role <;> simp only [hr] at hlen <;>
    simp only [rpmsgVirtioGetTxBuffer, hfirst, hidx, hr, hlen]

/-- A driver with nothing reclaimed and nothing come back cuts the first
unallocated bytes of the pool. -/
theorem TxInv.get_fresh (h : TxInv cfg s f recl) (hd : s.drawsPool) :
    ∃ p : UInt64, rpmsgVirtioGetTxBuffer s.us =
        some (some ⟨p, s.us.h2rBufSize, 0⟩, { s.us with
          shpool := { s.us.shpool with
            avail := s.us.shpool.avail - s.us.h2rBufSize.toUInt64 } }) ∧
      p.toNat + s.us.shpool.avail.toNat =
        cfg.shpool.base.toNat + cfg.shpool.size.toNat := by
  obtain ⟨hrole, hnil, hempty, hfree, hsize, havail⟩ := hd
  have hr : cfg.role = .driver := h.side.role.symm.trans hrole
  have hside := h.side
  simp only [SideInv, hr] at hside
  obtain ⟨p, hp0, hpget, hp⟩ := hside.pool_get hr hsize havail
  refine ⟨p, ?_, hp⟩
  have heq : virtqueueGetBuffer s.us.svq s.us.ring =
      some (none, s.us.svq, s.us.ring) := by
    simp [virtqueueGetBuffer, hempty]
  simp only [rpmsgVirtioGetTxBuffer, hnil, hrole, heq,
    rpmsgVirtioGetTxBuffer.rpmsgVirtioGetPoolBuffer, if_neg hfree, hpget,
    if_neg hp0]

/-- A driver without reclaimed buffers. -/
theorem TxInv.get_driver (h : TxInv cfg s f []) (hr : cfg.role = .driver)
    (hroom : RECLAIMER_SIZE ≤ cfg.room) {r : Option VqBuffer} {us : TxDevice}
    (hget : rpmsgVirtioGetTxBuffer s.us = some (r, us))
    (hcap : s.drawsPool → s.held.length < s.us.svq.vqFreeCnt.toNat) :
    ∃ f', TxInv cfg { s with
      us := us
      held := s.held ++ r.toList.map fun b => ⟨b, .fetched⟩
      log := s.log ++ r.toList.map fun b => (b.data, .got) } f' [] := by
  have hnil := h.listed.listFirst_nil
  have hrole : s.us.role = .driver := h.side.role.trans hr
  have hside := h.side
  simp only [SideInv, hr] at hside
  cases hu : f.used with
  | cons u used =>
    -- a buffer has come back
    obtain ⟨c, len⟩ := u
    obtain ⟨g, svq, ring, heq, hg1, hg2, hs⟩ := hside.getUsed hu
    have hne : g.cookie ≠ 0 := hs.ne_zero hr List.mem_cons_self
    simp only [rpmsgVirtioGetTxBuffer, hnil, hrole, heq, ne_eq, hne,
      not_false_eq_true, if_true, Option.some.injEq, Prod.mk.injEq] at hget
    obtain ⟨rfl, rfl⟩ := hget
    refine ⟨f.get c, h.fetched rfl ?_ ?_⟩
    · have hq := tagged_queue [] s.held (queuedChains_get_driver hr hu)
      have hdata : (cfg.chainBuf c).data = g.cookie := by
        simp only [TxConfig.chainBuf, hr, hg1]
      have hlen : (cfg.chainBuf c).len = g.len := by
        simp only [TxConfig.chainBuf, hr, hg2]
      have hmove := (h.custody.perm hq).move ⟨g.cookie, g.len, g.idx⟩ .got
        trivial hdata.symm hlen.symm
      simp only [hdata] at hmove
      exact hmove
    · simp only [SideInv, hr]
      exact hs
  | nil =>
    have hempty := hside.queue.used_empty_iff.mpr hu
    by_cases hd : s.drawsPool
    · -- a fresh buffer
      obtain ⟨p, hfresh, hp⟩ := h.get_fresh hd
      rw [hfresh] at hget
      simp only [Option.some.injEq, Prod.mk.injEq] at hget
      obtain ⟨rfl, rfl⟩ := hget
      obtain ⟨-, -, -, -, hsize, havail⟩ := id hd
      have hle := UInt64.le_iff_toNat_le.mp havail
      rw [UInt32.toNat_toUInt64, hside.size] at hle
      refine ⟨f, h.fetched rfl ?_ ?_⟩
      · rw [hside.size]
        exact h.custody.enter (h.placed_fresh hr hroom hle hp) trivial
          fun hdev => by simp [hr] at hdev
      · simp only [SideInv, hr]
        exact hside.fresh havail hp (by simpa using hcap hd)
    · -- no descriptor is free, or the pool is used up
      have heq : virtqueueGetBuffer s.us.svq s.us.ring =
          some (none, s.us.svq, s.us.ring) := by
        simp [virtqueueGetBuffer, hempty]
      simp only [rpmsgVirtioGetTxBuffer, hnil, hrole, heq,
        rpmsgVirtioGetTxBuffer.rpmsgVirtioGetPoolBuffer] at hget
      by_cases hfree : s.us.svq.vqFreeCnt = 0
      · rw [if_pos hfree, Option.some.injEq, Prod.mk.injEq] at hget
        obtain ⟨rfl, rfl⟩ := hget
        exact ⟨f, h.nothing⟩
      · rw [if_neg hfree] at hget
        have hnone : s.us.h2rBufSize.toUInt64 = 0 ∨
            s.us.shpool.avail < s.us.h2rBufSize.toUInt64 := by
          by_cases h0 : s.us.h2rBufSize = 0
          · exact .inl (by rw [h0]; rfl)
          · exact .inr (UInt64.not_le.mp fun hle =>
              hd ⟨hrole, hnil, hempty, hfree, h0, hle⟩)
        simp only [rpmsgVirtioShmPoolGetBuffer, if_pos hnone, if_true,
          Option.some.injEq, Prod.mk.injEq] at hget
        obtain ⟨rfl, rfl⟩ := hget
        exact ⟨f, h.nothing⟩

/-- A device without reclaimed buffers. -/
theorem TxInv.get_device (h : TxInv cfg s f []) (hr : cfg.role = .device)
    {r : Option VqBuffer} {us : TxDevice}
    (hget : rpmsgVirtioGetTxBuffer s.us = some (r, us)) :
    ∃ f', TxInv cfg { s with
      us := us
      held := s.held ++ r.toList.map fun b => ⟨b, .fetched⟩
      log := s.log ++ r.toList.map fun b => (b.data, .got) } f' [] := by
  have hnil := h.listed.listFirst_nil
  have hrole : s.us.role = .device := h.side.role.trans hr
  have hside := h.side
  simp only [SideInv, hr] at hside
  simp only [rpmsgVirtioGetTxBuffer, hnil, hrole] at hget
  cases ha : f.avail with
  | nil =>
    rcases hside.queue.getAvailableBuffer with
      ⟨-, heq⟩ | ⟨c, avail, dev, hcons, -, -⟩
    · simp only [heq, Option.bind_none, Option.some.injEq, Prod.mk.injEq] at hget
      obtain ⟨rfl, rfl⟩ := hget
      exact ⟨f, h.nothing⟩
    · rw [ha] at hcons
      cases hcons
  | cons c avail =>
    obtain ⟨a, svq, heq, hne, hbuf, hs⟩ := hside.getAvail hr ha
    simp only [heq, Option.bind_some, if_neg hne, hbuf, Option.some.injEq,
      Prod.mk.injEq] at hget
    obtain ⟨rfl, rfl⟩ := hget
    refine ⟨f.take c, h.fetched rfl ?_ ?_⟩
    · have hq := tagged_queue [] s.held (queuedChains_take_device hr ha)
      exact (h.custody.perm hq).move _ .got trivial rfl rfl
    · simp only [SideInv, hr]
      exact hs

/-- **Getting a buffer** keeps the invariant. -/
theorem TxInv.get (h : TxInv cfg s f recl) (hroom : RECLAIMER_SIZE ≤ cfg.room)
    {r : Option VqBuffer} {us : TxDevice}
    (hget : rpmsgVirtioGetTxBuffer s.us = some (r, us))
    (hcap : s.drawsPool → s.held.length < s.us.svq.vqFreeCnt.toNat) :
    ∃ f' recl', TxInv cfg { s with
      us := us
      held := s.held ++ r.toList.map fun b => ⟨b, .fetched⟩
      log := s.log ++ r.toList.map fun b => (b.data, .got) } f' recl' := by
  cases recl with
  | cons b recl =>
    rw [h.get_reclaimed] at hget
    simp only [Option.some.injEq, Prod.mk.injEq] at hget
    obtain ⟨rfl, rfl⟩ := hget
    exact ⟨f, recl, h.reuse.2.2⟩
  | nil =>
    cases hr : cfg.role with
    | driver =>
      obtain ⟨f', hf⟩ := h.get_driver hr hroom hget hcap
      exact ⟨f', [], hf⟩
    | device =>
      obtain ⟨f', hf⟩ := h.get_device hr hget
      exact ⟨f', [], hf⟩

/-! ## What a state shows -/

/-- Walking the list in memory gives the reclaimed buffers. -/
theorem TxInv.reclaimed_eq (h : TxInv cfg s f recl) :
    s.reclaimed = recl.map (·.data) := by
  have hlen := h.side.length_le
  have hnum := cfg.vq.num_le
  have hnd := (h.placed.sublist (List.sublist_append_left _ _)).nodup
  refine h.listed.chain.ringWalk_eq _ (List.nodup_cons.mp hnd).1 ?_
  rw [List.length_append] at hlen
  rw [List.length_map]
  omega

theorem TxInv.reclaimedSpans_eq (h : TxInv cfg s f recl) :
    s.reclaimedSpans = recl.map (·.span s.us.mem.io) := by
  rw [TxSystem.reclaimedSpans, h.reclaimed_eq, List.map_map]
  refine List.map_congr_left fun b hb => ?_
  have hlen := h.side.bufferLength (b := b) (by simp [hb])
  have hsame : s.reclaimedLen b.data = b.len := by
    unfold TxSystem.reclaimedLen
    rw [h.listed.idx b hb]
    cases hr : s.us.role <;> simpa only [hr] using hlen
  simp only [Function.comp_apply, TxSystem.span, VqBuffer.span, hsame]

/-- The queue holds the buffers of its chains. -/
theorem TxInv.queued_perm (h : TxInv cfg s f recl) :
    s.queued.Perm ((cfg.queuedChains f).map fun q =>
      ((cfg.chainBuf q.1).data, (cfg.chainBuf q.1).len)) := by
  have hside := h.side
  have hrole := h.side.role
  cases hr : cfg.role with
  | driver =>
    simp only [SideInv, hr] at hside
    have hp := hside.queue.cookies_perm.map fun c => (c, cfg.h2rBufSize)
    simp only [TxSystem.queued, hrole, hr, hside.size, TxConfig.queuedChains,
      TxConfig.chainBuf]
    refine hp.trans (List.Perm.of_eq ?_)
    simp [Flow.live, Function.comp_def]
  | device =>
    simp only [SideInv, hr] at hside
    simp only [TxSystem.queued, hrole, hr, TxConfig.queuedChains,
      hside.queue.availHeads_eq, hside.queue.usedHeads_eq]
    refine List.Perm.of_eq ?_
    simp only [List.map_append, List.map_map]
    congr 1
    · refine List.map_congr_left fun c hc => ?_
      have hcl : c ∈ f.live := by simp [Flow.live, hc]
      simp only [Function.comp_apply, hside.bufferAddr hr hcl,
        hside.bufferLength hr hcl]
    · refine List.map_congr_left fun u hu => ?_
      have hcl : u.1 ∈ f.live := by
        simp only [Flow.live, List.mem_append, List.mem_map]
        exact .inr ⟨u, hu, rfl⟩
      simp only [Function.comp_apply, hside.bufferAddr hr hcl,
        hside.bufferLength hr hcl]

/-! ## The peer -/

/-- A step of the peer that leaves the bytes of our buffers alone. -/
theorem TxInv.peerWrite (h : TxInv cfg s f recl) {shm : Mem}
    (hown : ∀ a ∈ s.heldSpans ++ s.reclaimedSpans,
      Agree s.us.mem.shm shm a.start a.len) :
    TxInv cfg { s with us := s.us.withShm shm } f recl := by
  refine h.change (h.hands.congr rfl rfl rfl rfl fun b hb => hown _ ?_) rfl
  rw [h.reclaimedSpans_eq]
  rcases List.mem_append.mp hb with hb | hb
  · exact List.mem_append_right _ (List.mem_map.mpr ⟨b, hb, rfl⟩)
  · obtain ⟨x, hx, rfl⟩ := List.mem_map.mp hb
    exact List.mem_append_left _ (List.mem_map.mpr ⟨x, hx, rfl⟩)

/-- A queue call of the peer. -/
theorem TxInv.peerQueue (h : TxInv cfg s f recl) {ring : Vring}
    {peer : Virtqueue} {taken : List AvailableBuffer} {f' : Flow}
    {log : List (UInt64 × TxEvent)}
    (hcust : Custody cfg s.us.mem (cfg.tagged recl s.held f') log)
    (hs : SideInv cfg (recl ++ s.held.map (·.buf)) { s.us with ring := ring }
      peer taken f') :
    TxInv cfg { s with
      us := { s.us with ring := ring }
      peer := peer
      taken := taken
      log := log } f' recl :=
  ⟨h.io, h.head, h.listed, h.noted, hcust, hs⟩

/-- The notification calls of the peer change nothing the invariant
speaks of. -/
theorem SideInv.peerNotify {own : List VqBuffer} {us : TxDevice}
    {peer : Virtqueue} {taken : List AvailableBuffer}
    (h : SideInv cfg own us peer taken f) {ring : Vring} {n : UInt16}
    (hsame : SameQueues cfg.vq us.ring ring) :
    SideInv cfg own { us with ring := ring }
      { peer with vqQueuedCnt := n } taken f := by
  unfold SideInv at *
  split at h
  · exact { h with queue := h.queue.notify _ _ hsame }
  · exact { h with queue := h.queue.notify _ _ hsame }

theorem SideInv.peerRing {own : List VqBuffer} {us : TxDevice}
    {peer : Virtqueue} {taken : List AvailableBuffer}
    (h : SideInv cfg own us peer taken f) :
    peer.vqRingNum = cfg.vq.nentries.toUInt32 := by
  unfold SideInv at h
  split at h
  · exact h.queue.fixed.devRing
  · exact h.queue.fixed.drvRing

theorem TxInv.peerTake (h : TxInv cfg s f recl) (hr : cfg.role = .driver)
    {r : Option AvailableBuffer} {peer : Virtqueue}
    (hget : virtqueueGetAvailableBuffer s.peer s.us.ring = (r, peer)) :
    ∃ f', TxInv cfg { s with peer := peer, taken := s.taken ++ r.toList }
      f' recl := by
  have hside := h.side
  simp only [SideInv, hr] at hside
  obtain ⟨f', hs, hf⟩ := hside.peerTake hget
  refine ⟨f', h.peerQueue ?_ (by simp only [SideInv, hr]; exact hs)⟩
  rcases hf with rfl | ⟨c, avail, ha, rfl⟩
  · exact h.custody
  · refine h.custody.perm ?_
    exact ((queuedChains_take_driver hr ha).symm.map _).append_left _

theorem TxInv.peerPut (h : TxInv cfg s f recl) (hr : cfg.role = .driver)
    {a : AvailableBuffer} (ha : a ∈ s.taken) {status : Int} {peer : Virtqueue}
    {ring : Vring} (hput : virtqueueAddConsumedBuffer s.peer s.us.ring
      a.availIdx (virtqueueGetBufferLength s.us.ring a.availIdx) =
        (status, peer, ring)) :
    ∃ f', TxInv cfg { s with
      us := { s.us with ring := ring }
      peer := peer
      taken := s.taken.erase a
      log := s.log ++ [((s.us.svq.vqDescx a.availIdx).cookie, .offered)] }
      f' recl := by
  have hside := h.side
  simp only [SideInv, hr] at hside
  obtain ⟨c, k₁, k₂, hsplit, hcookie, hs⟩ := hside.peerPut ha hput
  refine ⟨_, h.peerQueue ?_ (by simp only [SideInv, hr]; exact hs)⟩
  have hcust := h.custody.perm
    (tagged_queue recl s.held (queuedChains_held_driver hr hsplit))
  have hmove := hcust.move _ .offered trivial rfl rfl
  have hdata : (cfg.chainBuf c).data = c.call.cookie := by
    simp only [TxConfig.chainBuf, hr]
  rw [hcookie, ← hdata]
  exact hmove.perm
    (tagged_queue recl s.held (queuedChains_put_driver hr)).symm

theorem TxInv.peerAdd (h : TxInv cfg s f recl) (hr : cfg.role = .device)
    (hroom : RECLAIMER_SIZE ≤ cfg.room) {buf : UInt64} {len : Int32}
    (hfree : s.peer.vqFreeCnt ≠ 0) (hbuf : buf ≠ 0)
    (hview : cfg.view buf ≠ 0 ∧ cfg.view buf ≠ cfg.reclaimer)
    (hlen : cfg.room ≤ len.toUInt32.toNat)
    (hapart : ∀ i : UInt16, i.toNat < cfg.vq.num →
      (s.peer.vqDescx i).cookie ≠ 0 →
      (s.span (cfg.view buf) len.toUInt32).Disjoint
        (s.span (virtqueueGetBufferAddr s.us.svq s.us.ring i)
          (virtqueueGetBufferLength s.us.ring i)))
    {status : Int} {peer : Virtqueue} {ring : Vring}
    (hadd : virtqueueAddBuffer s.peer s.us.ring (fun _ => ⟨buf, len⟩) 0 1 buf =
      (status, peer, ring)) :
    ∃ f', TxInv cfg { s with
      us := { s.us with ring := ring }
      peer := peer
      log := s.log ++ [(cfg.view buf, .offered)] } f' recl := by
  have hside := h.side
  simp only [SideInv, hr] at hside
  obtain ⟨c, hdata, hclen, hs⟩ :=
    hside.peerAdd hr hfree hbuf hview.1 hadd
  refine ⟨_, h.peerQueue ?_ (by simp only [SideInv, hr]; exact hs)⟩
  rw [← hdata]
  refine (h.custody.enter (b := cfg.chainBuf c) (k := .offered) ?_ trivial
    fun _ => trivial).perm
    (tagged_queue recl s.held (queuedChains_add_device hr)).symm
  -- every buffer of the link is a live chain, and the peer keeps clear of
  -- these
  have hlive : ∀ x ∈ (cfg.tagged recl s.held f).map Prod.fst,
      ∃ c' ∈ f.live, x.span s.us.mem.io =
        (cfg.chainBuf c').span s.us.mem.io := by
    intro x hx
    rw [h.tagged_fst] at hx
    rcases List.mem_append.mp hx with hx | hx
    · obtain ⟨c', hc', rfl⟩ := List.mem_map.mp (hside.own.mem_iff.mp hx)
      exact ⟨c', by simp [Flow.live, hc'], rfl⟩
    · obtain ⟨q, hq, rfl⟩ := List.mem_map.mp hx
      exact ⟨q.1, mem_queuedChains hq, rfl⟩
  have hplaced := h.custody.placed
  refine ⟨List.pairwise_cons.mpr ⟨fun x hx => ?_, hplaced.apart⟩, ?_, ?_⟩
  · obtain ⟨c', hc', hspan⟩ := hlive x hx
    have hchain := hside.queue.chain hc'
    have hne : (s.peer.vqDescx c'.call.head).cookie ≠ 0 := by
      rw [hchain.cookie]
      exact hchain.cookie_ne
    have hdis := hapart c'.call.head (hside.queue.head_lt hc') hne
    rw [hside.bufferAddr hr hc', hside.bufferLength hr hc'] at hdis
    rw [hspan]
    simpa only [VqBuffer.span, TxSystem.span, hdata, hclen] using hdis
  · intro x hx
    rcases List.mem_cons.mp hx with rfl | hx
    · rw [hclen]
      exact Nat.le_trans hroom hlen
    · exact hplaced.room x hx
  · intro x hx
    rcases List.mem_cons.mp hx with rfl | hx
    · rw [hdata, h.head]
      exact hview.2
    · exact hplaced.outside x hx

theorem TxInv.peerGet (h : TxInv cfg s f recl) (hr : cfg.role = .device)
    {r : Option GotBuffer} {peer : Virtqueue} {ring : Vring}
    (hget : virtqueueGetBuffer s.peer s.us.ring = some (r, peer, ring)) :
    ∃ f', TxInv cfg { s with
      us := { s.us with ring := ring }
      peer := peer
      log := s.log ++ r.toList.map fun g => (cfg.view g.cookie, .collected) }
      f' recl := by
  have hside := h.side
  simp only [SideInv, hr] at hside
  rcases hside.peerGet hr hget with
    ⟨rfl, hs⟩ | ⟨g, c, len, used, rfl, hu, hview, hs⟩
  · refine ⟨f, h.peerQueue ?_ (by simp only [SideInv, hr]; exact hs)⟩
    simpa using h.custody
  · refine ⟨_, h.peerQueue ?_ (by simp only [SideInv, hr]; exact hs)⟩
    have hcust := h.custody.perm
      (tagged_queue recl s.held (queuedChains_get_device hr hu))
    simp only [Option.toList_some, List.map_cons, List.map_nil, hview]
    exact hcust.leave hr

/-! ## Runs -/

theorem txInv_init (cfg : TxConfig) :
    TxInv cfg (TxSystem.init cfg) (Flow.init cfg.vq) [] := by
  have hcar := carries_init cfg.vq
  have hempty : (Flow.init cfg.vq).live = [] := rfl
  have hmem : (TxSystem.init cfg).us.mem =
      ⟨cfg.io, cfg.shm, cfg.reclaimer, cfg.reclaimer, cfg.reclaimer⟩ := rfl
  have hlist : Reclaimed (TxSystem.init cfg).us.mem [] := by
    refine ⟨⟨?_, ?_⟩, by simp⟩ <;> simp [hmem, TxMem.next, TxMem.prev]
  have htag : cfg.tagged [] [] (Flow.init cfg.vq) = [] := by
    unfold TxConfig.tagged TxConfig.queuedChains
    split <;> rfl
  refine ⟨rfl, rfl, hlist, by simp [TxSystem.init], ?_, ?_⟩
  · simp only [TxSystem.init, htag]
    exact ⟨⟨.nil, by simp, by simp⟩, .nil⟩
  · cases hr : cfg.role with
    | driver =>
      simp only [SideInv, TxSystem.init, hr]
      have hq := hcar.notify 0 0
        (sameQueues_disableCb _ hcar.fixed.drvRing)
      exact ⟨rfl, hq, by simp [Flow.Single, hempty], by simp [hempty], by simp,
        by simp [Flow.init], by simp [Flow.init], rfl, rfl,
        (cfg.pool_ok hr).avail_le, by simp [hempty], by simp [hempty]⟩
    | device =>
      simp only [SideInv, TxSystem.init, hr]
      have hq := hcar.notify 0 0
        (sameQueues_disableCb _ hcar.fixed.devRing)
      exact ⟨hq, by simp [Flow.Single, hempty], by simp [hempty],
        by simp [Flow.init]⟩

/-- The condition under which `rpmsg_virtio_get_tx_buffer` keeps the
count of buffers: whenever it cuts one from the pool, fewer buffers are
held than descriptors are free. -/
def TxSystem.Sound (s : TxSystem) (a : TxAct) : Prop :=
  a = .get → s.drawsPool → s.held.length < s.us.svq.vqFreeCnt.toNat

/-- **One step keeps the transmission invariant.** -/
theorem TxInv.step (h : TxInv cfg s f recl) (hroom : RECLAIMER_SIZE ≤ cfg.room)
    {a : TxAct} {t : TxSystem} (hst : TxStep cfg s a t) (hsound : s.Sound a) :
    ∃ f' recl', TxInv cfg t f' recl' := by
  cases hst with
  | get hget => exact h.get hroom hget (hsound rfl)
  | note hheld => exact ⟨f, recl, h.note hheld⟩
  | write hheld hpay => exact ⟨f, recl, h.write hheld hpay⟩
  | header src dst len hheld heq =>
    have hhdr := h.header src dst len hheld
    rw [heq] at hhdr
    exact ⟨f, recl, hhdr⟩
  | enqueue hheld henq =>
    obtain ⟨-, f', hf⟩ := h.enqueue hheld henq
    exact ⟨f', recl, hf⟩
  | release hheld => exact ⟨f, _, h.release hheld⟩
  | peerWrite hown => exact ⟨f, recl, h.peerWrite hown⟩
  | peerTake hr hget =>
    obtain ⟨f', hf⟩ := h.peerTake hr hget
    exact ⟨f', recl, hf⟩
  | peerPut hr ha hput =>
    obtain ⟨f', hf⟩ := h.peerPut hr ha hput
    exact ⟨f', recl, hf⟩
  | peerAdd hr hfree hbuf hview hlen hapart hadd =>
    obtain ⟨f', hf⟩ := h.peerAdd hr hroom hfree hbuf hview hlen hapart hadd
    exact ⟨f', recl, hf⟩
  | peerGet hr hget =>
    obtain ⟨f', hf⟩ := h.peerGet hr hget
    exact ⟨f', recl, hf⟩
  | peerKick =>
    exact ⟨f, recl, h.peerQueue h.custody
      (h.side.peerNotify (SameQueues.refl cfg.vq s.us.ring))⟩
  | peerEnableCb =>
    exact ⟨f, recl, h.peerQueue h.custody
      (h.side.peerNotify (sameQueues_enableCb _ h.side.peerRing))⟩
  | peerDisableCb =>
    exact ⟨f, recl, h.peerQueue h.custody
      (h.side.peerNotify (sameQueues_disableCb _ h.side.peerRing))⟩

/-- The states of the runs in which every call meets the condition. -/
def TxSoundReachable (cfg : TxConfig) : TxSystem → Prop :=
  Reachable (· = TxSystem.init cfg) fun s t =>
    ∃ a, TxStep cfg s a t ∧ s.Sound a

/-- The states of the runs in which never more than `vq_nentries` buffers
are outstanding: held by the application or queued. -/
def TxBoundedReachable (cfg : TxConfig) : TxSystem → Prop :=
  Reachable (· = TxSystem.init cfg) fun s t =>
    (∃ a, TxStep cfg s a t) ∧ t.held.length + t.queued.length ≤ cfg.vq.num

/-- **Every state of a sound run satisfies the invariant.** -/
theorem txSound_inv (hroom : RECLAIMER_SIZE ≤ cfg.room)
    (h : TxSoundReachable cfg s) : ∃ f recl, TxInv cfg s f recl := by
  refine Reachable.invariant (P := fun s => ∃ f recl, TxInv cfg s f recl)
    ?_ ?_ h
  · rintro s rfl
    exact ⟨_, _, txInv_init cfg⟩
  · rintro s t - ⟨f, recl, hinv⟩ ⟨a, hst, hsound⟩
    exact hinv.step hroom hst hsound

/-- A bound on the buffers outstanding after a step makes it sound. -/
theorem TxInv.sound_of_bounded (h : TxInv cfg s f recl) {a : TxAct}
    {t : TxSystem} (hst : TxStep cfg s a t)
    (hb : t.held.length + t.queued.length ≤ cfg.vq.num) : s.Sound a := by
  rintro rfl hd
  obtain ⟨p, hfresh, -⟩ := h.get_fresh hd
  have hr : cfg.role = .driver := h.side.role.symm.trans hd.1
  have hside := h.side
  simp only [SideInv, hr] at hside
  have hfree := hside.queue.free_add_live hside.single
  have hcnt := hside.queue.freeCnt
  have hlen := hside.queue.cookies_perm.length_eq
  rw [List.length_map] at hlen
  cases hst with
  | get hget =>
    rw [hfresh] at hget
    simp only [Option.some.injEq, Prod.mk.injEq] at hget
    obtain ⟨rfl, rfl⟩ := hget
    have hrole : ({ s.us with shpool := { s.us.shpool with
        avail := s.us.shpool.avail - s.us.h2rBufSize.toUInt64 } } :
        TxDevice).role = .driver := hd.1
    simp only [TxSystem.queued, hrole, List.length_append, List.length_map,
      Option.toList_some, List.length_singleton] at hb
    omega

theorem txBounded_inv (hroom : RECLAIMER_SIZE ≤ cfg.room)
    (h : TxBoundedReachable cfg s) : ∃ f recl, TxInv cfg s f recl := by
  refine Reachable.invariant (P := fun s => ∃ f recl, TxInv cfg s f recl)
    ?_ ?_ h
  · rintro s rfl
    exact ⟨_, _, txInv_init cfg⟩
  · rintro s t - ⟨f, recl, hinv⟩ ⟨⟨a, hst⟩, hb⟩
    exact hinv.step hroom hst (hinv.sound_of_bounded hst hb)

end OpenAmp.Rpmsg
