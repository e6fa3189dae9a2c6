import OpenAmp.Rpmsg.TxPreservation

/-!
# The send queue in the two roles

A driver gets its buffers back from the used ring or cuts them from the
pool and adds them to the queue; a device takes them from the available
ring and returns them. Each of these calls has one lemma on
`DriverSide` or `DeviceSide`, and the calls of the peer have theirs.
-/

namespace OpenAmp.Rpmsg

open OpenAmp.Lib OpenAmp.Metal OpenAmp.Virtio

variable {cfg : TxConfig} {own : List VqBuffer} {us : TxDevice}
  {peer : Virtqueue} {taken : List AvailableBuffer} {f : Flow} {b : VqBuffer}

/-! ## The driver -/

/-- A buffer in use is no null pointer. -/
theorem DriverSide.ne_zero (hr : cfg.role = .driver)
    (h : DriverSide cfg own us peer taken f) (hb : b ∈ own) : b.data ≠ 0 := by
  have hpos : cfg.shpool.base.toNat ≠ 0 := fun h0 =>
    (cfg.pool_ok hr).base_ne (UInt64.toNat_inj.mp h0)
  have hin := h.within b.data (List.mem_append_left _ (List.mem_map.mpr ⟨b, hb, rfl⟩))
  intro h0
  rw [h0] at hin
  simp only [UInt64.toNat_zero] at hin
  omega

/-- While the driver has a buffer in hand, a descriptor is free. -/
theorem DriverSide.freeCnt_pos (h : DriverSide cfg own us peer taken f)
    (hne : own ≠ []) : us.svq.vqFreeCnt ≠ 0 := by
  have htot := h.total
  have hpos := List.length_pos_iff.mpr hne
  exact h.queue.freeCnt_ne_zero h.single (by omega)

/-- **Enqueueing as a driver**: `virtqueue_add_buffer` finds a free
descriptor and the buffer becomes a chain of the queue. -/
theorem DriverSide.enqueue (hr : cfg.role = .driver)
    (h : DriverSide cfg (b :: own) us peer taken f) :
    ∃ c notified us', enqueueTxBuffer us b.data b.idx =
        (VQUEUE_SUCCESS, notified, us') ∧ us'.mem = us.mem ∧
      c.call.cookie = b.data ∧ DriverSide cfg own us' peer taken (f.add c) := by
  have hrole : us.role = .driver := by
    rw [TxDevice.role, h.queue.fixed.drvDev]
  obtain ⟨c, svq, ring, hadd, hcall, hcar, -⟩ := h.queue.addBuffer
    ⟨b.data, us.h2rBufSize.toInt32⟩ (show (1 : Int) + 0 = 1 by rfl)
    (h.freeCnt_pos (by simp)) (h.ne_zero hr List.mem_cons_self)
  have hlive := f.live_add c
  refine ⟨c, (virtqueueKick svq ring).1,
    { us with svq := (virtqueueKick svq ring).2, ring := ring },
    ?_, rfl, by rw [hcall], ?_⟩
  · simp only [enqueueTxBuffer, hrole, rpmsgVirtioEnqueueBuffer, hadd]
  · have hmem : ∀ c' ∈ (f.add c).live, c' = c ∨ c' ∈ f.live := fun c' hc' =>
      List.mem_cons.mp (hlive.mem_iff.mp hc')
    refine ⟨h.size, hcar.drvKick, ?_, ?_, ?_, h.usedLen, h.taken, h.base,
      h.poolSize, h.avail, ?_, ?_⟩
    · intro c' hc'
      rcases hmem c' hc' with rfl | hc'
      · rw [hcall]
      · exact h.single c' hc'
    · intro c' hc'
      rcases hmem c' hc' with rfl | hc'
      · rw [hcall]
        simp [h.size]
      · exact h.shape c' hc'
    · exact fun x hx => h.lens x (by simp [hx])
    · intro p hp
      refine h.within p ?_
      simp only [List.mem_append, List.mem_map, List.map_cons,
        List.mem_cons] at hp ⊢
      rcases hp with hp | ⟨c', hc', rfl⟩
      · exact .inl (.inr hp)
      · rcases hmem c' hc' with rfl | hc'
        · exact .inl (.inl (by rw [hcall]))
        · exact .inr ⟨c', hc', rfl⟩
    · -- one buffer less in our hands, one chain more in the ring
      have := h.total
      rw [hlive.length_eq]
      simp only [List.length_cons] at this ⊢
      omega

/-- **Getting a buffer back as a driver.** -/
theorem DriverSide.getUsed (h : DriverSide cfg own us peer taken f)
    {c : Chain} {len : UInt32} {used : List (Chain × UInt32)}
    (hu : f.used = (c, len) :: used) :
    ∃ g svq ring, virtqueueGetBuffer us.svq us.ring = some (some g, svq, ring) ∧
      g.cookie = c.call.cookie ∧ g.len = cfg.h2rBufSize ∧
      DriverSide cfg (⟨g.cookie, g.len, g.idx⟩ :: own)
        { us with svq := svq, ring := ring } peer taken (f.get c) := by
  rcases h.queue.getBuffer with
    ⟨hnil, -⟩ | ⟨c', len', used', g, svq, ring, hu', hget, hg1, hg2, hcar, -⟩
  · rw [hu] at hnil
    cases hnil
  · rw [hu] at hu'
    cases hu'
    have hlive := Flow.live_get hu
    have hglen : g.len = cfg.h2rBufSize := by
      rw [hg2]
      exact h.usedLen (c, len) (by simp [hu])
    have hsub : ∀ c' ∈ (f.get c).live, c' ∈ f.live := fun c' hc' =>
      hlive.mem_iff.mpr (by simp [hc'])
    have htail : ∀ u ∈ (f.get c).used, u ∈ f.used := fun u hu' => by
      rw [hu]
      simp only [Flow.get, hu, List.tail_cons] at hu'
      simp [hu']
    refine ⟨g, svq, ring, hget, hg1, hglen, h.size, hcar, ?_, ?_, ?_, ?_,
      h.taken, h.base, h.poolSize, h.avail, ?_, ?_⟩
    · exact fun c' hc' => h.single c' (hsub c' hc')
    · exact fun c' hc' => h.shape c' (hsub c' hc')
    · intro x hx
      rcases List.mem_cons.mp hx with rfl | hx
      · exact hglen
      · exact h.lens x hx
    · exact fun u hu' => h.usedLen u (htail u hu')
    · intro p hp
      -- the buffer got back is one of the pool, being a cookie before
      refine h.within p ?_
      simp only [List.mem_append, List.mem_map, List.map_cons,
        List.mem_cons] at hp ⊢
      rcases hp with (rfl | hp) | ⟨c', hc', rfl⟩
      · exact .inr ⟨c, hlive.mem_iff.mpr (by simp), hg1.symm⟩
      · exact .inl hp
      · exact .inr ⟨c', hsub c' hc', rfl⟩
    · have := h.total
      rw [hlive.length_eq] at this
      simp only [List.length_cons] at this ⊢
      omega

/-- The pool hands out its first unallocated bytes. -/
theorem DriverSide.pool_get (hr : cfg.role = .driver)
    (h : DriverSide cfg own us peer taken f)
    (hsize : us.h2rBufSize ≠ 0)
    (havail : us.h2rBufSize.toUInt64 ≤ us.shpool.avail) :
    ∃ p : UInt64, p ≠ 0 ∧
      rpmsgVirtioShmPoolGetBuffer us.shpool us.h2rBufSize.toUInt64 =
        (p, { us.shpool with
          avail := us.shpool.avail - us.h2rBufSize.toUInt64 }) ∧
      p.toNat + us.shpool.avail.toNat =
        cfg.shpool.base.toNat + cfg.shpool.size.toNat := by
  have hok := cfg.pool_ok hr
  have hmap : PoolMapped cfg.vq.drvIo us.shpool :=
    ⟨h.base ▸ hok.base_ne, h.avail, h.base ▸ hok.mapped,
      by rw [h.base, h.poolSize]; exact hok.bound⟩
  have hs64 : us.h2rBufSize.toUInt64 ≠ 0 := by
    intro h0
    apply hsize
    apply UInt32.toNat_inj.mp
    simpa using congrArg UInt64.toNat h0
  obtain ⟨p, hp0, hget, hp, -⟩ := hmap.getBuffer hs64 havail
  exact ⟨p, hp0, hget, by rw [hp, h.base, h.poolSize]⟩

/-- **Cutting a buffer from the pool** while there is room for it in the
ring. -/
theorem DriverSide.fresh (h : DriverSide cfg own us peer taken f)
    {p : UInt64} (havail : us.h2rBufSize.toUInt64 ≤ us.shpool.avail)
    (hp : p.toNat + us.shpool.avail.toNat =
      cfg.shpool.base.toNat + cfg.shpool.size.toNat)
    (hroom : own.length < us.svq.vqFreeCnt.toNat) :
    DriverSide cfg (⟨p, us.h2rBufSize, 0⟩ :: own)
      { us with
        shpool := { us.shpool with
          avail := us.shpool.avail - us.h2rBufSize.toUInt64 } }
      peer taken f := by
  have hle := UInt64.le_iff_toNat_le.mp havail
  have hav := UInt64.le_iff_toNat_le.mp h.avail
  have hsub : (us.shpool.avail - us.h2rBufSize.toUInt64).toNat =
      us.shpool.avail.toNat - us.h2rBufSize.toNat := by
    rw [UInt64.toNat_sub_of_le _ _ havail, UInt32.toNat_toUInt64]
  rw [UInt32.toNat_toUInt64] at hle
  have hfree := h.queue.free_add_live h.single
  have hcnt := h.queue.freeCnt
  refine ⟨h.size, h.queue, h.single, h.shape, ?_, h.usedLen, h.taken, h.base,
    h.poolSize, ?_, ?_, ?_⟩
  · intro x hx
    rcases List.mem_cons.mp hx with rfl | hx
    · exact h.size
    · exact h.lens x hx
  · rw [UInt64.le_iff_toNat_le, hsub]
    exact Nat.le_trans (Nat.sub_le _ _) hav
  · intro q hq
    rw [hsub, ← h.size]
    simp only [List.map_cons, List.cons_append, List.mem_cons] at hq
    rcases hq with rfl | hq
    · rw [h.poolSize] at hav
      omega
    · have := h.within q hq
      rw [h.size]
      rw [h.size] at hle
      omega
  · simp only [List.length_cons]
    omega

/-- The peer takes the next buffer. -/
theorem DriverSide.peerTake (h : DriverSide cfg own us peer taken f)
    {r : Option AvailableBuffer} {peer' : Virtqueue}
    (hget : virtqueueGetAvailableBuffer peer us.ring = (r, peer')) :
    ∃ f', DriverSide cfg own us peer' (taken ++ r.toList) f' ∧
      (f' = f ∨ ∃ c avail, f.avail = c :: avail ∧ f' = f.take c) := by
  rcases h.queue.getAvailableBuffer with
    ⟨-, heq⟩ | ⟨c, avail, dev, ha, heq, hcar⟩
  · rw [heq] at hget
    cases hget
    exact ⟨f, by simpa using h, .inl rfl⟩
  · rw [heq] at hget
    cases hget
    have hlive := Flow.live_take ha
    refine ⟨f.take c, ⟨h.size, hcar, ?_, ?_, h.lens, h.usedLen, ?_, h.base,
      h.poolSize, h.avail, ?_, ?_⟩, .inr ⟨c, avail, ha, rfl⟩⟩
    · exact fun c' hc' => h.single c' (hlive.mem_iff.mp hc')
    · exact fun c' hc' => h.shape c' (hlive.mem_iff.mp hc')
    · simp only [Flow.take, List.map_append, List.map_cons, List.map_nil]
      exact h.taken.append_right _
    · exact fun p hp => h.within p (((hlive.map _).append_left _).mem_iff.mp hp)
    · rw [hlive.length_eq]
      exact h.total

/-- The peer returns a buffer it has taken. -/
theorem DriverSide.peerPut (h : DriverSide cfg own us peer taken f)
    {a : AvailableBuffer} (ha : a ∈ taken) {status : Int} {peer' : Virtqueue}
    {ring : Vring} (hput : virtqueueAddConsumedBuffer peer us.ring a.availIdx
      (virtqueueGetBufferLength us.ring a.availIdx) = (status, peer', ring)) :
    ∃ c k₁ k₂, f.held = k₁ ++ c :: k₂ ∧
      (us.svq.vqDescx a.availIdx).cookie = c.call.cookie ∧
      DriverSide cfg own { us with ring := ring } peer' (taken.erase a)
        (f.put k₁ k₂ c cfg.h2rBufSize) := by
  obtain ⟨c, hc, rfl⟩ := List.mem_map.mp (h.taken.mem_iff.mp ha)
  obtain ⟨k₁, k₂, hsplit⟩ := List.append_of_mem hc
  have hcl : c ∈ f.live := by simp [Flow.live, hc]
  have hchain := h.queue.chain hcl
  have hlen : virtqueueGetBufferLength us.ring c.call.head =
      cfg.h2rBufSize := hchain.len.trans (h.shape c hcl)
  obtain ⟨dev, ring', hadd, hcar, -⟩ :=
    h.queue.addConsumedBuffer hsplit cfg.h2rBufSize
  simp only [Added.view, hlen, hadd] at hput
  cases hput
  have hlive := Flow.live_put hsplit cfg.h2rBufSize
  refine ⟨c, k₁, k₂, hsplit, hchain.cookie, h.size, hcar, ?_, ?_, h.lens, ?_,
    ?_, h.base, h.poolSize, h.avail, ?_, ?_⟩
  · exact fun c' hc' => h.single c' (hlive.mem_iff.mp hc')
  · exact fun c' hc' => h.shape c' (hlive.mem_iff.mp hc')
  · intro u hu
    rcases List.mem_append.mp hu with hu | hu
    · exact h.usedLen u hu
    · rw [List.mem_singleton.mp hu]
  · have hmid : (f.held.map (·.call.view cfg.vq)).Perm
        (c.call.view cfg.vq :: (k₁ ++ k₂).map (·.call.view cfg.vq)) := by
      rw [hsplit]
      exact List.perm_middle.map _
    have herase := (h.taken.trans hmid).erase (c.call.view cfg.vq)
    rwa [List.erase_cons_head] at herase
  · exact fun p hp => h.within p (((hlive.map _).append_left _).mem_iff.mp hp)
  · rw [hlive.length_eq]
    exact h.total

/-! ## The device -/

theorem chainBuf_device (hr : cfg.role = .device) (c : Chain) :
    cfg.chainBuf c = ⟨(c.call.view cfg.vq).buffer, (c.call.view cfg.vq).len,
      c.call.head⟩ := by
  simp only [TxConfig.chainBuf, hr]

/-- The length noted for a chain is the one its descriptor has. -/
theorem DeviceSide.bufferLength (hr : cfg.role = .device)
    (h : DeviceSide cfg own us peer f) {c : Chain} (hc : c ∈ f.live) :
    virtqueueGetBufferLength us.ring c.call.head = (cfg.chainBuf c).len := by
  rw [chainBuf_device hr]
  exact (h.queue.chain hc).len

/-- The address noted for a chain is the one its descriptor has. -/
theorem DeviceSide.bufferAddr (hr : cfg.role = .device)
    (h : DeviceSide cfg own us peer f) {c : Chain} (hc : c ∈ f.live) :
    virtqueueGetBufferAddr us.svq us.ring c.call.head =
      (cfg.chainBuf c).data := by
  rw [chainBuf_device hr, virtqueueGetBufferAddr, virtqueuePhysToVirt,
    (h.queue.chain hc).addr, h.queue.fixed.devIo]
  rfl

/-- **Enqueueing as a device**: the chain the buffer belongs to is
returned under its own head. -/
theorem DeviceSide.enqueue (hr : cfg.role = .device)
    (h : DeviceSide cfg (b :: own) us peer f) :
    ∃ c k₁ k₂ len notified us', f.held = k₁ ++ c :: k₂ ∧
      cfg.chainBuf c = b ∧
      enqueueTxBuffer us b.data b.idx = (VQUEUE_SUCCESS, notified, us') ∧
      us'.mem = us.mem ∧ DeviceSide cfg own us' peer (f.put k₁ k₂ c len) := by
  have hrole : us.role = .device := by
    rw [TxDevice.role, h.queue.fixed.devDev]
  obtain ⟨c, hc, rfl⟩ := List.mem_map.mp
    (h.own.mem_iff.mp (List.mem_cons_self (a := b)))
  obtain ⟨k₁, k₂, hsplit⟩ := List.append_of_mem hc
  have hcl : c ∈ f.live := by simp [Flow.live, hc]
  obtain ⟨dev, ring, hadd, hcar, -⟩ :=
    h.queue.addConsumedBuffer hsplit (cfg.chainBuf c).len
  have hlive := Flow.live_put hsplit (cfg.chainBuf c).len
  refine ⟨c, k₁, k₂, (cfg.chainBuf c).len, (virtqueueKick dev ring).1,
    { us with svq := (virtqueueKick dev ring).2, ring := ring }, hsplit, rfl,
    ?_, rfl, hcar.devKick, ?_, ?_, ?_⟩
  · have hidx : (cfg.chainBuf c).idx = c.call.head := by rw [chainBuf_device hr]
    simp only [enqueueTxBuffer, hrole, rpmsgVirtioEnqueueBuffer, hidx,
      h.bufferLength hr hcl, hadd]
  · exact fun c' hc' => h.single c' (hlive.mem_iff.mp hc')
  · exact fun c' hc' => h.shape c' (hlive.mem_iff.mp hc')
  · have hmid : (f.held.map cfg.chainBuf).Perm
        (cfg.chainBuf c :: (k₁ ++ k₂).map cfg.chainBuf) := by
      rw [hsplit]
      exact List.perm_middle.map _
    exact (List.perm_cons _).mp (h.own.trans hmid)

/-- **Taking an offered buffer as a device.** -/
theorem DeviceSide.getAvail (hr : cfg.role = .device)
    (h : DeviceSide cfg own us peer f) {c : Chain} {avail : List Chain}
    (ha : f.avail = c :: avail) :
    ∃ a svq, virtqueueGetAvailableBuffer us.svq us.ring = (some a, svq) ∧
      a.buffer ≠ 0 ∧ ⟨a.buffer, a.len, a.availIdx⟩ = cfg.chainBuf c ∧
      DeviceSide cfg (cfg.chainBuf c :: own) { us with svq := svq } peer
        (f.take c) := by
  rcases h.queue.getAvailableBuffer with
    ⟨hnil, -⟩ | ⟨c', avail', dev, ha', heq, hcar⟩
  · rw [ha] at hnil
    cases hnil
  · rw [ha] at ha'
    cases ha'
    have hlive := Flow.live_take ha
    have hcl : c ∈ f.live := by simp [Flow.live, ha]
    refine ⟨_, dev, heq, (h.shape c hcl).2, ?_, hcar, ?_, ?_, ?_⟩
    · rw [chainBuf_device hr]
      rfl
    · exact fun c' hc' => h.single c' (hlive.mem_iff.mp hc')
    · exact fun c' hc' => h.shape c' (hlive.mem_iff.mp hc')
    · simp only [Flow.take, List.map_append, List.map_cons, List.map_nil]
      exact (h.own.cons _).trans (List.perm_append_singleton _ _).symm

/-- The peer offers a buffer. -/
theorem DeviceSide.peerAdd (hr : cfg.role = .device)
    (h : DeviceSide cfg own us peer f) {buf : UInt64} {len : Int32}
    (hfree : peer.vqFreeCnt ≠ 0) (hbuf : buf ≠ 0) (hview : cfg.view buf ≠ 0)
    {status : Int} {peer' : Virtqueue} {ring : Vring}
    (hadd : virtqueueAddBuffer peer us.ring (fun _ => ⟨buf, len⟩) 0 1 buf =
      (status, peer', ring)) :
    ∃ c, (cfg.chainBuf c).data = cfg.view buf ∧
      (cfg.chainBuf c).len = len.toUInt32 ∧
      DeviceSide cfg own { us with ring := ring } peer' (f.add c) := by
  obtain ⟨c, drv, ring', hadd', hcall, hcar, -⟩ := h.queue.addBuffer ⟨buf, len⟩
    (show (0 : Int) + 1 = 1 by rfl) hfree hbuf
  rw [hadd'] at hadd
  cases hadd
  have hlive := f.live_add c
  have hmem : ∀ c' ∈ (f.add c).live, c' = c ∨ c' ∈ f.live := fun c' hc' =>
    List.mem_cons.mp (hlive.mem_iff.mp hc')
  have hbufc : (c.call.view cfg.vq).buffer = cfg.view buf := by
    rw [hcall]
    rfl
  refine ⟨c, by rw [chainBuf_device hr, hbufc], ?_, hcar, ?_, ?_, h.own⟩
  · rw [chainBuf_device hr, hcall]
    rfl
  · intro c' hc'
    rcases hmem c' hc' with rfl | hc'
    · rw [hcall]
    · exact h.single c' hc'
  · intro c' hc'
    rcases hmem c' hc' with rfl | hc'
    · exact ⟨by rw [hcall], hbufc ▸ hview⟩
    · exact h.shape c' hc'

/-- The peer collects a message. -/
theorem DeviceSide.peerGet (hr : cfg.role = .device)
    (h : DeviceSide cfg own us peer f) {r : Option GotBuffer}
    {peer' : Virtqueue} {ring : Vring}
    (hget : virtqueueGetBuffer peer us.ring = some (r, peer', ring)) :
    (r = none ∧ DeviceSide cfg own { us with ring := ring } peer' f) ∨
    ∃ g c len used, r = some g ∧ f.used = (c, len) :: used ∧
      cfg.view g.cookie = (cfg.chainBuf c).data ∧
      DeviceSide cfg own { us with ring := ring } peer' (f.get c) := by
  rcases h.queue.getBuffer with
    ⟨-, heq⟩ | ⟨c, len, used, g, drv, ring', hu, heq, hg, -, hcar, -⟩
  · rw [heq] at hget
    cases hget
    exact .inl ⟨rfl, h⟩
  · rw [heq] at hget
    cases hget
    have hlive := Flow.live_get hu
    have hsub : ∀ c' ∈ (f.get c).live, c' ∈ f.live := fun c' hc' =>
      hlive.mem_iff.mpr (by simp [hc'])
    have hcl : c ∈ f.live := hlive.mem_iff.mpr (by simp)
    refine .inr ⟨g, c, len, used, rfl, hu, ?_, hcar, ?_, ?_, h.own⟩
    · rw [hg, ← (h.shape c hcl).1, chainBuf_device hr]
      rfl
    · exact fun c' hc' => h.single c' (hsub c' hc')
    · exact fun c' hc' => h.shape c' (hsub c' hc')

/-! ## Whole steps -/

section Steps

variable {s : TxSystem} {recl : List VqBuffer} {l₁ l₂ : List TxHeld}

theorem tagged_snoc (held : List TxHeld) (x : TxHeld) :
    (cfg.tagged recl (held ++ [x]) f).Perm
      ((x.buf, .got) :: cfg.tagged recl held f) := by
  have hsplit := tagged_split cfg recl f held [] x
  rwa [List.append_nil] at hsplit

theorem own_snoc (held : List TxHeld) (x : TxHeld) :
    (x.buf :: (recl ++ held.map (·.buf))).Perm
      (recl ++ (held ++ [x]).map (·.buf)) := by
  rw [List.map_append, ← List.append_assoc]
  exact (List.perm_append_singleton _ _).symm

/-- **Enqueueing** succeeds in either role, and the buffer goes from the
thread that has it to the queue. -/
theorem TxInv.enqueue (h : TxInv cfg s f recl)
    (hheld : s.held = l₁ ++ ⟨b, .sealed⟩ :: l₂) {status : Int}
    {notified : Bool} {us' : TxDevice}
    (henq : enqueueTxBuffer s.us b.data b.idx = (status, notified, us')) :
    status = VQUEUE_SUCCESS ∧ ∃ f', TxInv cfg { s with
      us := us'
      held := l₁ ++ l₂
      log := s.log ++ [(b.data, .sent)] } f' recl := by
  have hside := h.side.perm (hheld ▸ held_split recl l₁ l₂ _)
  have hcust := h.custody.perm (hheld ▸ tagged_split cfg recl f l₁ l₂ _)
  have hnoted : ∀ x, ⟨x, .noted⟩ ∈ l₁ ++ l₂ → Noted s.us.mem x := by
    intro x hx
    refine h.noted x ?_
    rw [hheld]
    rcases List.mem_append.mp hx with hx | hx <;> simp [hx]
  -- where the buffer becomes chain `c` of the queue
  have hbuild : ∀ {f' : Flow} {c : Chain}, us'.mem = s.us.mem →
      (cfg.queuedChains f').Perm ((c, .sent) :: cfg.queuedChains f) →
      (cfg.chainBuf c).data = b.data → (cfg.chainBuf c).len = b.len →
      SideInv cfg (recl ++ (l₁ ++ l₂).map (·.buf)) us' s.peer s.taken f' →
      TxInv cfg { s with
        us := us'
        held := l₁ ++ l₂
        log := s.log ++ [(b.data, .sent)] } f' recl := by
    intro f' c hmem hq hd hl hs
    refine ⟨hmem ▸ h.io, hmem ▸ h.head, hmem ▸ h.listed, hmem ▸ hnoted, ?_, hs⟩
    simp only [hmem]
    exact (hcust.move _ .sent trivial hd hl).perm (tagged_queue recl _ hq).symm
  cases hr : cfg.role with
  | driver =>
    simp only [SideInv, hr] at hside
    obtain ⟨c, ntf, us₁, heq, hmem, hcookie, hs⟩ := hside.enqueue hr
    rw [heq] at henq
    cases henq
    refine ⟨rfl, _, hbuild (c := c) hmem (queuedChains_add_driver hr) ?_ ?_ ?_⟩
    · simp only [TxConfig.chainBuf, hr, hcookie]
    · simp only [TxConfig.chainBuf, hr]
      exact (hside.lens b (by simp)).symm
    · simp only [SideInv, hr]
      exact hs
  | device =>
    simp only [SideInv, hr] at hside
    obtain ⟨c, k₁, k₂, len, ntf, us₁, hsplit, hcb, heq, hmem, hs⟩ :=
      hside.enqueue hr
    rw [heq] at henq
    cases henq
    refine ⟨rfl, f.put k₁ k₂ c len,
      hbuild (c := c) hmem (queuedChains_put_device hr) ?_ ?_ ?_⟩
    · rw [hcb]
    · rw [hcb]
    · simp only [SideInv, hr]
      exact hs

/-- A buffer that a thread has got, whatever it came from: the memory is
untouched and the role's invariant is known. -/
theorem TxInv.fetched (h : TxInv cfg s f recl) {us' : TxDevice} {f' : Flow}
    (hmem : us'.mem = s.us.mem)
    (hcust : Custody cfg s.us.mem ((b, .got) :: cfg.tagged recl s.held f')
      (s.log ++ [(b.data, .got)]))
    (hs : SideInv cfg (b :: (recl ++ s.held.map (·.buf))) us' s.peer s.taken
      f') :
    TxInv cfg { s with
      us := us'
      held := s.held ++ [⟨b, .fetched⟩]
      log := s.log ++ [(b.data, .got)] } f' recl := by
  refine ⟨hmem ▸ h.io, hmem ▸ h.head, hmem ▸ h.listed, ?_, ?_,
    hs.perm (own_snoc s.held ⟨b, .fetched⟩)⟩
  · intro x hx
    have hx' : ⟨x, .noted⟩ ∈ s.held := by simpa using hx
    simp only [hmem]
    exact h.noted x hx'
  · simp only [hmem]
    exact hcust.perm (tagged_snoc s.held ⟨b, .fetched⟩).symm

/-- The length the code computes for a buffer in our hands is its own. -/
theorem SideInv.bufferLength (h : SideInv cfg own us peer taken f)
    (hb : b ∈ own) :
    (match us.role with
      | .driver => us.h2rBufSize
      | .device => virtqueueGetBufferLength us.ring b.idx) = b.len := by
  rw [h.role]
  cases hr : cfg.role with
  | driver =>
    simp only [SideInv, hr] at h
    exact h.size.trans (h.lens b hb).symm
  | device =>
    simp only [SideInv, hr] at h
    obtain ⟨c, hc, rfl⟩ := List.mem_map.mp (h.own.mem_iff.mp hb)
    have hidx : (cfg.chainBuf c).idx = c.call.head := by rw [chainBuf_device hr]
    simp only [hidx]
    exact h.bufferLength hr (by simp [Flow.live, hc])

theorem mem_queuedChains {q : Chain × TxEvent} (h : q ∈ cfg.queuedChains f) :
    q.1 ∈ f.live := by
  unfold TxConfig.queuedChains at h
  split at h
  · simp only [List.mem_append, List.mem_map] at h
    rcases h with ⟨c, hc, rfl⟩ | ⟨u, hu, rfl⟩
    · rcases hc with hc | hc <;> simp [Flow.live, hc]
    · simp only [Flow.live, List.mem_append, List.mem_map]
      exact .inr ⟨u, hu, rfl⟩
  · simp only [List.mem_append, List.mem_map] at h
    rcases h with ⟨c, hc, rfl⟩ | ⟨u, hu, rfl⟩
    · simp [Flow.live, hc]
    · simp only [Flow.live, List.mem_append, List.mem_map]
      exact .inr ⟨u, hu, rfl⟩

/-- The first unallocated bytes of the pool lie apart from every buffer
in use. -/
theorem TxInv.placed_fresh (h : TxInv cfg s f recl) (hr : cfg.role = .driver)
    (hroom : RECLAIMER_SIZE ≤ cfg.room) {p : UInt64}
    (hle : cfg.h2rBufSize.toNat ≤ s.us.shpool.avail.toNat)
    (hp : p.toNat + s.us.shpool.avail.toNat =
      cfg.shpool.base.toNat + cfg.shpool.size.toNat) :
    Placed s.us.mem (⟨p, cfg.h2rBufSize, 0⟩ ::
      (cfg.tagged recl s.held f).map Prod.fst) := by
  have hok := cfg.pool_ok hr
  have hside := h.side
  simp only [SideInv, hr] at hside
  have hio : s.us.mem.io = cfg.vq.drvIo := by
    rw [h.io, TxConfig.io, hr]
  have hvirt := UInt64.le_iff_toNat_le.mp hok.mapped
  have hbig := Nat.le_trans hroom (cfg.room_le hr)
  have hav := UInt64.le_iff_toNat_le.mp hside.avail
  rw [hside.poolSize] at hav
  -- what is in use ends where the remainder begins
  have hbelow : ∀ x ∈ (cfg.tagged recl s.held f).map Prod.fst,
      x.len = cfg.h2rBufSize ∧ cfg.shpool.base.toNat ≤ x.data.toNat ∧
        x.data.toNat + cfg.h2rBufSize.toNat ≤ p.toNat := by
    intro x hx
    rw [h.tagged_fst] at hx
    rcases List.mem_append.mp hx with hx | hx
    · have := hside.within x.data
        (List.mem_append_left _ (List.mem_map.mpr ⟨x, hx, rfl⟩))
      exact ⟨hside.lens x hx, this.1, by omega⟩
    · obtain ⟨q, hq, rfl⟩ := List.mem_map.mp hx
      have := hside.within q.1.call.cookie (List.mem_append_right _
        (List.mem_map.mpr ⟨q.1, mem_queuedChains hq, rfl⟩))
      simp only [TxConfig.chainBuf, hr]
      exact ⟨trivial, this.1, by omega⟩
  have hplaced := h.custody.placed
  refine ⟨List.pairwise_cons.mpr ⟨fun x hx => ?_, hplaced.apart⟩, ?_, ?_⟩
  · obtain ⟨hlen, hlo, hhi⟩ := hbelow x hx
    simp only [VqBuffer.span, Span.Disjoint, hlen, hio]
    rw [shmOff_eq (by omega), shmOff_eq (by omega)]
    omega
  · intro x hx
    rcases List.mem_cons.mp hx with rfl | hx
    · exact hbig
    · exact hplaced.room x hx
  · intro x hx
    rcases List.mem_cons.mp hx with rfl | hx
    · have hout := hok.outside
      simp only [RECLAIMER_SIZE] at hbig
      rw [h.head]
      rintro rfl
      omega
    · exact hplaced.outside x hx

end Steps

end OpenAmp.Rpmsg
