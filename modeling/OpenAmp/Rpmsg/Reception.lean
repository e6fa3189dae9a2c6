import OpenAmp.Rpmsg.Buffer
import OpenAmp.Virtio.Queue

/-!
# The receive queue, call by call

A driver lends all entries of its receive queue to the peer when it is
initialised, gets a buffer back with a message in it, and lends it out
again; a device takes the buffers the peer sends and returns them. Here
each of these calls has one lemma over the flow of the queue, and the
header word of a received buffer has its own: it always spells the index
the buffer came with and the number of parties that hold it.
-/

namespace OpenAmp.Rpmsg

open OpenAmp.Lib OpenAmp.Metal OpenAmp.Virtio

/-! ## Lending the receive buffers -/

/-- The loop of `rpmsg_init_vdev_with_config` over the entries of the
receive queue, with `k` rounds to go; `none` is `RPMSG_ERR_NO_BUFF`. The
loop also clears the buffers, which nothing depends on. -/
def rpmsgInitRxBuffers (r2hBufSize : UInt32) :
    Nat → ShmPool → Virtqueue → Vring → Option (ShmPool × Virtqueue × Vring)
  | 0, shpool, rvq, ring => some (shpool, rvq, ring)
  | k + 1, shpool, rvq, ring =>
    let (buffer, shpool) :=
      rpmsgVirtioShmPoolGetBuffer shpool r2hBufSize.toUInt64
    if buffer = 0 then none
    else
      let (status, rvq, ring) := virtqueueAddBuffer rvq ring
        (fun _ => ⟨buffer, r2hBufSize.toInt32⟩) 0 1 buffer
      if status ≠ VQUEUE_SUCCESS then none
      else rpmsgInitRxBuffers r2hBufSize k shpool rvq ring

/-- The next `k` buffers of `size` bytes that the pool will hand out. -/
def ShmPool.cut (pool : ShmPool) (size k : Nat) : List UInt64 :=
  (List.range k).map fun i => UInt64.ofNat
    (pool.base.toNat + pool.size.toNat - pool.avail.toNat + i * size)

/-- A chain of one descriptor for the `len` bytes at its cookie. -/
structure Bare (len : UInt32) (c : Chain) : Prop where
  needed : c.call.needed = 1
  buf : c.call.first.buf = c.call.cookie
  len : c.call.first.len.toUInt32 = len

variable {io : MetalIoRegion} {pool : ShmPool} {size k : Nat}

/-- The buffers of a pool lie in it, one behind the other. -/
theorem PoolMapped.cut_toNat (h : PoolMapped io pool)
    (hk : k * size ≤ pool.avail.toNat) {i : Nat} (hi : i < k) :
    (UInt64.ofNat (pool.base.toNat + pool.size.toNat - pool.avail.toNat +
      i * size)).toNat =
        pool.base.toNat + pool.size.toNat - pool.avail.toNat + i * size := by
  have hb := h.bound
  have hav := UInt64.le_iff_toNat_le.mp h.avail_le
  have him : i * size ≤ k * size := Nat.mul_le_mul_right _ (by omega)
  rw [UInt64.toNat_ofNat']
  omega

theorem PoolMapped.cut_apart (h : PoolMapped io pool)
    (hk : k * size ≤ pool.avail.toNat) :
    (pool.cut size k).Pairwise fun p q =>
      (Span.mk (shmOff io p) size).Disjoint ⟨shmOff io q, size⟩ := by
  have hvirt := UInt64.le_iff_toNat_le.mp h.mapped
  have hav := UInt64.le_iff_toNat_le.mp h.avail_le
  rw [ShmPool.cut, List.pairwise_map]
  refine List.pairwise_lt_range.imp_of_mem fun {i j} hi hj hij => .inl ?_
  rw [List.mem_range] at hi hj
  have hmul : (i + 1) * size ≤ j * size := Nat.mul_le_mul_right _ hij
  rw [Nat.add_mul, Nat.one_mul] at hmul
  have hpi := h.cut_toNat hk hi
  have hpj := h.cut_toNat hk hj
  rw [shmOff_eq (by omega), shmOff_eq (by omega), hpi, hpj]
  simp only
  omega

theorem ShmPool.cut_succ (pool' : ShmPool) (hav : pool.avail ≤ pool.size)
    (hsize : size ≤ pool.avail.toNat)
    (hpool : pool'.base = pool.base ∧ pool'.size = pool.size ∧
      pool'.avail.toNat = pool.avail.toNat - size) (k : Nat) :
    pool.cut size (k + 1) =
      UInt64.ofNat (pool.base.toNat + pool.size.toNat - pool.avail.toNat) ::
        pool'.cut size k := by
  have hle := UInt64.le_iff_toNat_le.mp hav
  obtain ⟨hb, hs, ha⟩ := hpool
  rw [ShmPool.cut, List.range_succ_eq_map, List.map_cons, List.map_map,
    ShmPool.cut, Nat.zero_mul, Nat.add_zero]
  congr 1
  refine List.map_congr_left fun i _ => congrArg UInt64.ofNat ?_
  rw [hb, hs, ha, Nat.succ_mul]
  omega

variable {cfg : VqConfig} {rvq peer : Virtqueue} {ring : Vring} {f : Flow}
  {len : UInt32}

/-- **Lending one buffer** to the peer while a descriptor is free. -/
theorem carries_lend (h : Carries cfg rvq peer ring f) (len : UInt32)
    {p : UInt64} (hfree : rvq.vqFreeCnt ≠ 0) (hp : p ≠ 0) :
    ∃ c rvq' ring', virtqueueAddBuffer rvq ring
        (fun _ => ⟨p, len.toInt32⟩) 0 1 p = (VQUEUE_SUCCESS, rvq', ring') ∧
      c.call.cookie = p ∧ Bare len c ∧ Carries cfg rvq' peer ring' (f.add c) ∧
      ∀ x, (ring'.desc x).len = len ∨
        (ring'.desc x).len = (ring.desc x).len := by
  obtain ⟨c, rvq', ring', hadd, hcall, hcar, hlen⟩ := h.addBuffer
    ⟨p, len.toInt32⟩ (show (0 : Int) + 1 = 1 by rfl) hfree hp
  refine ⟨c, rvq', ring', hadd, by rw [hcall], ?_, hcar, fun x => ?_⟩
  · constructor <;> rw [hcall]
    simp
  · rw [hlen]
    split
    · simp
    · exact .inr rfl

/-- **The loop lends consecutive pieces of the pool**, if it succeeds. -/
theorem rpmsgInitRxBuffers_spec (k : Nat) : ∀ {pool pool' : ShmPool}
    {rvq rvq' : Virtqueue} {ring ring' : Vring} {f : Flow},
    PoolMapped io pool → Carries cfg rvq peer ring f →
    (∀ c ∈ f.live, Bare len c) → k ≤ f.free.length →
    rpmsgInitRxBuffers len k pool rvq ring = some (pool', rvq', ring') →
    k * len.toNat ≤ pool.avail.toNat ∧ PoolMapped io pool' ∧
      pool'.base = pool.base ∧ pool'.size = pool.size ∧
      pool'.avail.toNat + k * len.toNat = pool.avail.toNat ∧
      ∃ chains f', Carries cfg rvq' peer ring' f' ∧
        f'.avail = f.avail ++ chains ∧ f'.held = f.held ∧ f'.used = f.used ∧
        chains.map (·.call.cookie) = pool.cut len.toNat k ∧
        ∀ c ∈ f'.live, Bare len c := by
  induction k with
  | zero =>
    intro pool pool' rvq rvq' ring ring' f hp hq hb _ h
    simp only [rpmsgInitRxBuffers, Option.some.injEq, Prod.mk.injEq] at h
    obtain ⟨rfl, rfl, rfl⟩ := h
    exact ⟨by simp, hp, rfl, rfl, by simp, [], f, hq, by simp, rfl, rfl,
      by simp [ShmPool.cut], hb⟩
  | succ k ih =>
    intro pool pool' rvq rvq' ring ring' f hp hq hb hk h
    have hcnt := hq.freeCnt
    have hfree : rvq.vqFreeCnt ≠ 0 := by
      intro h0
      rw [h0] at hcnt
      simp only [UInt16.toNat_zero] at hcnt
      omega
    -- the pool could serve this round, else the loop had failed
    have hroom : len.toUInt64 ≠ 0 ∧ len.toUInt64 ≤ pool.avail := by
      by_contra hno
      have hnull : len.toUInt64 = 0 ∨ pool.avail < len.toUInt64 := by
        by_cases h0 : len.toUInt64 = 0
        · exact .inl h0
        · exact .inr (UInt64.not_le.mp fun hle => hno ⟨h0, hle⟩)
      simp [rpmsgInitRxBuffers, rpmsgVirtioShmPoolGetBuffer, if_pos hnull] at h
    obtain ⟨p, hp0, hget, hpn, hp'⟩ := hp.getBuffer hroom.1 hroom.2
    obtain ⟨c, rvq₁, ring₁, hadd, hcookie, hbare, hcar, -⟩ :=
      carries_lend hq len hfree hp0
    simp only [rpmsgInitRxBuffers, hget, if_neg hp0, hadd, ne_eq,
      not_true_eq_false, if_false] at h
    have hle := UInt64.le_iff_toNat_le.mp hroom.2
    have hsub := UInt64.toNat_sub_of_le _ _ hroom.2
    rw [UInt32.toNat_toUInt64] at hle hsub
    have hdescs : c.descs.length = 1 := by
      have := (hcar.chain (c := c) (by simp [Flow.add, Flow.live])).needed
      rw [hbare.needed] at this
      omega
    obtain ⟨hfit, hmap, hbase, hsize, hav, chains, f', hcar', ha, hh, hu, hcut,
        hbare'⟩ := ih hp' hcar
      (fun c' hc' => by
        rcases List.mem_cons.mp ((f.live_add c).mem_iff.mp hc') with rfl | hc'
        · exact hbare
        · exact hb c' hc')
      (by simp only [Flow.add, List.length_drop, hdescs]; omega) h
    have hval : p = UInt64.ofNat
        (pool.base.toNat + pool.size.toNat - pool.avail.toNat) := by
      rw [← UInt64.ofNat_toNat (x := p)]
      congr 1
      omega
    simp only at hfit hav hbase hsize
    rw [Nat.succ_mul]
    refine ⟨by omega, hmap, hbase, hsize, by omega, c :: chains, f', hcar', ?_,
      hh, hu, ?_, hbare'⟩
    · simp [ha, Flow.add]
    · rw [List.map_cons, hcut, hcookie, hval]
      refine (ShmPool.cut_succ _ hp.avail_le hle ?_ k).symm
      exact ⟨rfl, rfl, hsub⟩

/-- The pool has no buffers of no bytes. -/
theorem rpmsgInitRxBuffers_pos {k : Nat} {pool : ShmPool} {rvq : Virtqueue}
    {ring : Vring}
    (h : (rpmsgInitRxBuffers len k pool rvq ring).isSome) (hk : k ≠ 0) :
    0 < len.toNat := by
  obtain ⟨k, rfl⟩ := Nat.exists_eq_succ_of_ne_zero hk
  refine Nat.pos_of_ne_zero fun h0 => ?_
  obtain rfl : len = 0 := UInt32.toNat_inj.mp h0
  simp [rpmsgInitRxBuffers, rpmsgVirtioShmPoolGetBuffer] at h

/-! ## The two roles -/

variable {us : RxDevice}

/-- **Getting a message as a driver.** -/
theorem getRxBuffer_driver (us : RxDevice)
    (h : Carries cfg us.rvq peer us.ring f) :
    (f.used = [] ∧ rpmsgVirtioGetRxBuffer us = some (none, us)) ∨
    ∃ c len used idx rvq ring, f.used = (c, len) :: used ∧
      rpmsgVirtioGetRxBuffer us = some (some ⟨c.call.cookie, len, idx⟩,
        { us with rvq := rvq, ring := ring }) ∧
      idx.toNat < cfg.num ∧ Carries cfg rvq peer ring (f.get c) ∧
      ∀ x, (ring.desc x).len = (us.ring.desc x).len := by
  have hrole : us.role = .driver := by rw [RxDevice.role, h.fixed.drvDev]
  rcases h.getBuffer with ⟨hu, hget⟩ |
    ⟨c, len, used, g, rvq, ring, hu, hget, hg1, hg2, hcar, hlen, hidx⟩
  · refine .inl ⟨hu, ?_⟩
    simp only [rpmsgVirtioGetRxBuffer, hrole, hget, Option.map_some,
      Option.bind_none]
  · refine .inr ⟨c, len, used, g.idx, rvq, ring, hu, ?_, hidx, hcar, hlen⟩
    have hne := (h.chain (c := c) (by simp [Flow.live, hu])).cookie_ne
    simp only [rpmsgVirtioGetRxBuffer, hrole, hget, Option.map_some,
      Option.bind_some, hg1, hg2, if_neg hne]

/-- **Getting a message as a device.** -/
theorem getRxBuffer_device (us : RxDevice)
    (h : Carries cfg peer us.rvq us.ring f)
    (hne : ∀ c ∈ f.avail, (c.call.view cfg).buffer ≠ 0) :
    (f.avail = [] ∧ rpmsgVirtioGetRxBuffer us = some (none, us)) ∨
    ∃ c avail rvq, f.avail = c :: avail ∧
      rpmsgVirtioGetRxBuffer us = some (some ⟨(c.call.view cfg).buffer,
        (c.call.view cfg).len, c.call.head⟩, { us with rvq := rvq }) ∧
      Carries cfg peer rvq us.ring (f.take c) := by
  have hrole : us.role = .device := by rw [RxDevice.role, h.fixed.devDev]
  rcases h.getAvailableBuffer with ⟨ha, hget⟩ | ⟨c, avail, rvq, ha, hget, hcar⟩
  · refine .inl ⟨ha, ?_⟩
    simp only [rpmsgVirtioGetRxBuffer, hrole, hget, Option.bind_none]
  · refine .inr ⟨c, avail, rvq, ha, ?_, hcar⟩
    have := hne c (by simp [ha])
    simp only [rpmsgVirtioGetRxBuffer, hrole, hget, Option.bind_some,
      if_neg this]
    rfl

/-- **Lending a buffer again as a driver.** -/
theorem returnBuffer_driver (us : RxDevice)
    (h : Carries cfg us.rvq peer us.ring f)
    {p : UInt64} (hfree : us.rvq.vqFreeCnt ≠ 0) (hp : p ≠ 0) (len : UInt32)
    (idx : UInt16) :
    ∃ c rvq ring, virtqueueAddBuffer us.rvq us.ring
        (fun _ => ⟨p, len.toInt32⟩) 0 1 p = (VQUEUE_SUCCESS, rvq, ring) ∧
      rpmsgVirtioReturnBuffer us p len idx =
        (VQUEUE_SUCCESS, { us with rvq := rvq, ring := ring }) ∧
      c.call.cookie = p ∧ Bare len c ∧ Carries cfg rvq peer ring (f.add c) ∧
      ∀ x, (ring.desc x).len = len ∨
        (ring.desc x).len = (us.ring.desc x).len := by
  have hrole : us.role = .driver := by rw [RxDevice.role, h.fixed.drvDev]
  obtain ⟨c, rvq, ring, hadd, hc, hbare, hcar, hlen⟩ :=
    carries_lend h len hfree hp
  exact ⟨c, rvq, ring, hadd,
    by simp only [rpmsgVirtioReturnBuffer, hrole, hadd], hc, hbare, hcar, hlen⟩

/-- **Returning a buffer as a device**, under its own head. -/
theorem returnBuffer_device (us : RxDevice)
    (h : Carries cfg peer us.rvq us.ring f)
    {l₁ l₂ : List Chain} {c : Chain} (hsplit : f.held = l₁ ++ c :: l₂)
    (p : UInt64) (len : UInt32) :
    ∃ rvq ring, virtqueueAddConsumedBuffer us.rvq us.ring c.call.head len =
        (VQUEUE_SUCCESS, rvq, ring) ∧
      rpmsgVirtioReturnBuffer us p len c.call.head =
        (VQUEUE_SUCCESS, { us with rvq := rvq, ring := ring }) ∧
      Carries cfg peer rvq ring (f.put l₁ l₂ c len) ∧
      ring.desc = us.ring.desc := by
  have hrole : us.role = .device := by rw [RxDevice.role, h.fixed.devDev]
  obtain ⟨rvq, ring, hadd, hcar, hdesc⟩ := h.addConsumedBuffer hsplit len
  exact ⟨rvq, ring, hadd,
    by simp only [rpmsgVirtioReturnBuffer, hrole, hadd], hcar, hdesc⟩

/-! ## The header word of a received buffer -/

/-- The header word spells the buffer's index and `count` holds. -/
def Counted (io : MetalIoRegion) (m : Mem) (b : VqBuffer) (count : Nat) :
    Prop :=
  hdrReserved io m b.data = bufWord b.idx count

variable {m m' : Mem} {b : VqBuffer} {count : Nat}

theorem Counted.congr (h : Counted io m b count)
    (hag : Agree m m' (shmOff io b.data + 8) 4) : Counted io m' b count :=
  (hdrReserved_congr hag).trans h

/-- The first locked part of a round of `rpmsg_virtio_rx_callback` notes
index and hold as the transmission side does. -/
theorem rxTakeBuffer_eq {r : Option VqBuffer} {us' : RxDevice}
    (h : rpmsgVirtioGetRxBuffer us = some (r, us')) :
    rxTakeBuffer us = some (r, { us' with
      shm := r.elim us'.shm (noteTxBuffer us'.io us'.shm) }) := by
  cases r <;> simp only [rxTakeBuffer, h, Option.map_some] <;> rfl

theorem Counted.hold (h : Counted us.io us.shm b count) :
    Counted us.io (rpmsgVirtioHoldRxBuffer us b.data).shm b (count + 1) := by
  simp only [Counted, rpmsgVirtioHoldRxBuffer, hdrReserved_setHdrReserved]
  rw [h, rpmsgBufHeldInc_bufWord]

/-- **Giving up one of several holds** changes the header word alone. -/
theorem Counted.release (h : Counted us.io us.shm b (count + 2))
    (hlt : count + 2 < 65536) :
    ∃ shm, rpmsgVirtioReleaseRxBuffer us b.data =
        (none, { us with shm := shm }) ∧
      shm = setHdrReserved us.io us.shm b.data (bufWord b.idx (count + 1)) := by
  refine ⟨_, ?_, rfl⟩
  rw [rpmsgVirtioReleaseRxBuffer, h,
    rpmsgVirtioBufHeldDecTest_bufWord b.idx hlt]
  simp

/-- **Giving up the last hold** puts the buffer back, under the index it
came with. -/
theorem Counted.releaseLast (h : Counted us.io us.shm b 1) {status : Int}
    {us' : RxDevice}
    (hret : rpmsgVirtioReturnBuffer { us with
        shm := setHdrReserved us.io us.shm b.data (bufWord b.idx 0) }
      b.data (virtqueueGetBufferLength us.ring b.idx) b.idx = (status, us')) :
    rpmsgVirtioReleaseRxBuffer us b.data = (some status,
      { us' with rvq := (virtqueueKick us'.rvq us'.ring).2 }) := by
  have hidx : rpmsgBufIndex (bufWord b.idx 0) = b.idx :=
    rpmsgBufIndex_bufWord b.idx (by decide)
  have hdec : rpmsgVirtioBufHeldDecTest (bufWord b.idx 1) =
      (true, bufWord b.idx 0) :=
    rpmsgVirtioBufHeldDecTest_bufWord b.idx (by decide)
  rw [rpmsgVirtioReleaseRxBuffer, h, hdec]
  simp only [if_true, rpmsgVirtioReleaseRxBufferNolock,
    hdrReserved_setHdrReserved, hidx, hret]

end OpenAmp.Rpmsg
