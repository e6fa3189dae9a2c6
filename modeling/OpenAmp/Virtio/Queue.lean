import OpenAmp.Virtio.Preservation

/-!
# A queue as its users see it

`Carries cfg drv dev ring f` is the ring invariant without the logs of
`VqSystem`: the two queues and their ring hold flow `f`. Each queue
function has one lemma that says what it returns and which flow it
leaves; code built on a virtqueue is verified with these alone.

The messaging code uses chains of one descriptor only. For such a flow
the free descriptors and the live chains make up the ring.
-/

namespace OpenAmp.Virtio

open OpenAmp.Metal OpenAmp.Lib

/-- The two queues and their ring carry flow `f`. -/
def Carries (cfg : VqConfig) (drv dev : Virtqueue) (ring : Vring)
    (f : Flow) : Prop :=
  ∃ s : VqSystem, VqInv cfg s f ∧ s.drv = drv ∧ s.dev = dev ∧ s.ring = ring

/-- Every chain has one descriptor. -/
def Flow.Single (f : Flow) : Prop := ∀ c ∈ f.live, c.call.needed = 1

/-- The flow without a chain that the device holds. -/
def Flow.without (f : Flow) (l₁ l₂ : List Chain) : Flow :=
  { f with held := l₁ ++ l₂ }

/-- The cookies the driver's book-keeping holds: what it has added and
not got back. -/
def Virtqueue.cookies (vq : Virtqueue) : List UInt64 :=
  ((indices vq.vqNentries.toNat).map fun i => (vq.vqDescx i).cookie).filter
    (· ≠ 0)

/-- The heads of the chains added and not yet taken, as the device will
find them. -/
def Virtqueue.availHeads (vq : Virtqueue) (vr : Vring) : List UInt16 :=
  (List.range (virtqueueNavail vq vr).toNat).map fun k =>
    vr.avail.ring ((vq.vqAvailableIdx + UInt16.ofNat k) &&& (vq.vqNentries - 1))

/-- The heads of the chains returned and not yet got back, as the driver
will find them. -/
def Virtqueue.usedHeads (vq : Virtqueue) (vr : Vring) : List UInt16 :=
  (List.range (virtqueueNused vq vr).toNat).map fun k =>
    (vr.used.ring ((vq.vqUsedConsIdx + UInt16.ofNat k) &&&
      (vq.vqNentries - 1))).id.toUInt16

variable {cfg : VqConfig} {drv dev : Virtqueue} {ring : Vring} {f : Flow}

theorem carries_init (cfg : VqConfig) :
    Carries cfg (VqSystem.init cfg).drv (VqSystem.init cfg).dev
      (VqSystem.init cfg).ring (Flow.init cfg) :=
  ⟨_, vqInv_init cfg, rfl, rfl, rfl⟩

theorem Carries.fixed (h : Carries cfg drv dev ring f) : VqFixed cfg drv dev := by
  obtain ⟨s, hs, rfl, rfl, rfl⟩ := h
  exact hs.fixed

theorem Carries.chain (h : Carries cfg drv dev ring f) {c : Chain}
    (hc : c ∈ f.live) : ChainOk cfg.drvIo ring.desc drv.vqDescx c := by
  obtain ⟨s, hs, rfl, rfl, rfl⟩ := h
  exact hs.table.chains c hc

theorem Carries.freeCnt (h : Carries cfg drv dev ring f) :
    drv.vqFreeCnt.toNat = f.free.length := by
  obtain ⟨s, hs, rfl, rfl, rfl⟩ := h
  exact hs.table.freeCnt_toNat

theorem Carries.length_le (h : Carries cfg drv dev ring f) :
    f.free.length + f.avail.length + f.held.length + f.used.length ≤
      cfg.num := by
  obtain ⟨s, hs, rfl, rfl, rfl⟩ := h
  exact hs.length_le

theorem Carries.used_empty_iff (h : Carries cfg drv dev ring f) :
    drv.vqUsedConsIdx = ring.used.idx ↔ f.used = [] := by
  obtain ⟨s, hs, rfl, rfl, rfl⟩ := h
  exact hs.used_empty_iff

theorem Carries.head_lt (h : Carries cfg drv dev ring f) {c : Chain}
    (hc : c ∈ f.live) : c.call.head.toNat < cfg.num := by
  obtain ⟨s, hs, rfl, rfl, rfl⟩ := h
  exact (hs.table.mem_iff c.call.head).mp (List.mem_append_right _
    (List.mem_flatMap.mpr ⟨c, hc, (hs.table.chains c hc).head_mem⟩))

/-- No two live chains have the same head. -/
theorem Carries.heads_nodup (h : Carries cfg drv dev ring f) :
    (f.live.map (·.call.head)).Nodup := by
  obtain ⟨s, hs, rfl, rfl, rfl⟩ := h
  have hnd := (List.nodup_append'.mp hs.table.nodup).2.1
  have hok := hs.table.chains
  revert hnd hok
  induction f.live with
  | nil => simp
  | cons c live ih =>
    intro hnd hok
    rw [List.flatMap_cons] at hnd
    obtain ⟨-, hrest, hdisj⟩ := List.nodup_append'.mp hnd
    refine List.nodup_cons.mpr ⟨?_, ih hrest fun c' hc' => hok c' (by simp [hc'])⟩
    intro hmem
    obtain ⟨c', hc', heq⟩ := List.mem_map.mp hmem
    refine hdisj (hok c (by simp)).head_mem ?_
    rw [show c.call.head = c'.call.head from heq.symm]
    exact List.mem_flatMap.mpr ⟨c', hc', (hok c' (by simp [hc'])).head_mem⟩

/-- With as many chains as descriptors every descriptor is a head. -/
theorem Carries.head_of_full (h : Carries cfg drv dev ring f)
    (hfull : f.live.length = cfg.num) {i : UInt16} (hi : i.toNat < cfg.num) :
    ∃ c ∈ f.live, c.call.head = i := by
  have hsub : f.live.map (·.call.head) ⊆ indices cfg.num := by
    intro x hx
    obtain ⟨c, hc, rfl⟩ := List.mem_map.mp hx
    exact (mem_indices cfg.num_le _).mpr (h.head_lt hc)
  have hlen : (indices cfg.num).length ≤ (f.live.map (·.call.head)).length := by
    simp [hfull]
  have hperm := (List.subperm_of_subset h.heads_nodup hsub).perm_of_length_le
    hlen
  exact List.mem_map.mp
    (hperm.mem_iff.mpr ((mem_indices cfg.num_le i).mpr hi))

theorem length_flatMap_single {live : List Chain}
    (h : ∀ c ∈ live, c.descs.length = 1) :
    (live.flatMap Chain.descs).length = live.length := by
  induction live with
  | nil => rfl
  | cons c live ih =>
    rw [List.flatMap_cons, List.length_append, h c (by simp),
      ih fun c' hc' => h c' (by simp [hc']), List.length_cons]
    omega

/-- With chains of one descriptor nothing of the ring is unaccounted. -/
theorem Carries.free_add_live (h : Carries cfg drv dev ring f)
    (hs : f.Single) : f.free.length + f.live.length = cfg.num := by
  obtain ⟨s, hinv, rfl, rfl, rfl⟩ := h
  have hlen := hinv.table.part.length_eq
  rw [length_indices, List.length_append, length_flatMap_single] at hlen
  · exact hlen
  · intro c hc
    have := (hinv.table.chains c hc).needed
    rw [hs c hc] at this
    omega

theorem Carries.freeCnt_ne_zero (h : Carries cfg drv dev ring f)
    (hs : f.Single) (hroom : f.live.length < cfg.num) :
    drv.vqFreeCnt ≠ 0 := by
  have hfree := h.free_add_live hs
  have hcnt := h.freeCnt
  intro h0
  rw [h0, UInt16.toNat_zero] at hcnt
  omega

/-- **The book-keeping holds exactly the cookies of the live chains.** -/
theorem Carries.cookies_perm (h : Carries cfg drv dev ring f) :
    drv.cookies.Perm (f.live.map (·.call.cookie)) := by
  have hnd := h.heads_nodup
  have hchain := fun c hc => h.chain (c := c) hc
  have hnum : drv.vqNentries.toNat = cfg.num := by
    rw [h.fixed.drvNum, cfg.toNat_nentries]
  obtain ⟨s, hs, rfl, rfl, rfl⟩ := h
  have hheads : ((indices cfg.num).filter fun i =>
      (s.drv.vqDescx i).cookie ≠ 0).Perm (f.live.map (·.call.head)) := by
    refine (List.perm_ext_iff_of_nodup
      ((nodup_indices cfg.num_le).filter _) hnd).mpr fun i => ?_
    rw [List.mem_filter, mem_indices cfg.num_le, decide_eq_true_iff]
    constructor
    · rintro ⟨hi, hne⟩
      by_contra hnot
      exact hne (hs.table.idle i hi hnot)
    · intro hi
      obtain ⟨c, hc, rfl⟩ := List.mem_map.mp hi
      refine ⟨(hs.table.mem_iff _).mp (List.mem_append_right _
        (List.mem_flatMap.mpr ⟨c, hc, (hchain c hc).head_mem⟩)), ?_⟩
      rw [(hchain c hc).cookie]
      exact (hchain c hc).cookie_ne
  have hmap := hheads.map fun i => (s.drv.vqDescx i).cookie
  rw [List.map_map] at hmap
  rw [Virtqueue.cookies, hnum, List.filter_map]
  refine hmap.trans (List.Perm.of_eq (List.map_congr_left fun c hc => ?_))
  exact (hchain c hc).cookie

/-- The distance of two wrapped counters. -/
theorem toNat_counter_sub {a b : Nat} (h : a ≤ b) (hd : b - a < 2 ^ 16) :
    (UInt16.ofNat b - UInt16.ofNat a).toNat = b - a := by
  rw [UInt16.toNat_sub, UInt16.toNat_ofNat', UInt16.toNat_ofNat']
  omega

theorem Carries.availHeads_eq (h : Carries cfg drv dev ring f) :
    dev.availHeads ring = f.avail.map (·.call.head) := by
  obtain ⟨s, hs, rfl, rfl, rfl⟩ := h
  have hsent := hs.log.sent
  have hcap := hs.length_le
  have hnum := cfg.num_le
  have hlen : (virtqueueNavail s.dev s.ring).toNat = f.avail.length := by
    rw [virtqueueNavail, hs.rings.availIdx, hs.rings.availCons,
      toNat_counter_sub (by omega) (by omega)]
    omega
  have hread := hs.rings.availRing.read
  rw [List.length_map] at hread
  rw [Virtqueue.availHeads, hlen, ← hread]
  refine List.map_congr_left fun k _ => ?_
  rw [hs.rings.availCons, hs.fixed.devNum, ← UInt16.ofNat_add]
  rfl

theorem Carries.usedHeads_eq (h : Carries cfg drv dev ring f) :
    drv.usedHeads ring = f.used.map (·.1.call.head) := by
  obtain ⟨s, hs, rfl, rfl, rfl⟩ := h
  have hulen := hs.log.used_length
  have hgot := hs.log.gotLen
  have hcap := hs.length_le
  have hnum := cfg.num_le
  have hlen : (virtqueueNused s.drv s.ring).toNat = f.used.length := by
    rw [virtqueueNused, hs.rings.usedIdx, hs.rings.usedCons,
      toNat_counter_sub (by omega) (by omega)]
    omega
  have hread := congrArg (List.map fun e : VringUsedElem => e.id.toUInt16)
    hs.rings.usedRing.read
  rw [List.length_map, List.map_map, List.map_map] at hread
  rw [Virtqueue.usedHeads, hlen]
  refine Eq.trans (List.map_congr_left fun k _ => ?_) (hread.trans ?_)
  · rw [hs.rings.usedCons, hs.fixed.drvNum, ← UInt16.ofNat_add]
    rfl
  · exact List.map_congr_left fun u _ => UInt16.toUInt16_toUInt32 _

/-! ## The calls -/

/-- `virtqueue_add_buffer` of one buffer, as a term. -/
theorem virtqueueAddBuffer_one (vq : Virtqueue) (vr : Vring)
    (b : VirtqueueBuf) {readable writable : Int} (cookie : UInt64)
    (h1 : readable + writable = 1) :
    virtqueueAddBuffer vq vr (fun _ => b) readable writable cookie =
      (VQUEUE_SUCCESS,
        { vq with
          vqDescx := Function.update vq.vqDescx vq.vqDescHeadIdx ⟨cookie, 1⟩
          vqDescHeadIdx := (vr.desc vq.vqDescHeadIdx).next
          vqFreeCnt := vq.vqFreeCnt - 1
          vqQueuedCnt := vq.vqQueuedCnt + 1 },
        { vr with
          desc := Function.update vr.desc vq.vqDescHeadIdx
            { addr := metalIoVirtToPhys vq.shmIo b.buf
              len := b.len.toUInt32
              flags := descFlags readable 1 0
              next := (vr.desc vq.vqDescHeadIdx).next }
          avail := { vr.avail with
            ring := Function.update vr.avail.ring
              (vr.avail.idx &&& (vq.vqNentries - 1)) vq.vqDescHeadIdx
            idx := vr.avail.idx + 1 } }) := by
  have hone : UInt16.ofInt 1 = 1 := by decide
  simp only [virtqueueAddBuffer, vqRingAddBuffer, vqRingUpdateAvail, h1,
    Int.toNat_one, addBufferLoop, hone]
  rfl

/-- **Adding one buffer** while a descriptor is free. -/
theorem Carries.addBuffer (h : Carries cfg drv dev ring f)
    (b : VirtqueueBuf) {readable writable : Int} {cookie : UInt64}
    (h1 : readable + writable = 1) (hfree : drv.vqFreeCnt ≠ 0)
    (hcookie : cookie ≠ 0) :
    ∃ c drv' ring',
      virtqueueAddBuffer drv ring (fun _ => b) readable writable cookie =
        (VQUEUE_SUCCESS, drv', ring') ∧
      c.call = ⟨drv.vqDescHeadIdx, b, readable, 1, cookie⟩ ∧
      Carries cfg drv' dev ring' (f.add c) ∧
      ∀ x, (ring'.desc x).len =
        if x = drv.vqDescHeadIdx then b.len.toUInt32 else (ring.desc x).len := by
  obtain ⟨s, hs, rfl, rfl, rfl⟩ := h
  have hpos : 0 < s.drv.vqFreeCnt.toNat := by
    have hne : s.drv.vqFreeCnt.toNat ≠ 0 := fun h0 =>
      hfree (UInt16.toNat_inj.mp h0)
    omega
  obtain ⟨c, -, hcall, hinv⟩ := hs.addBuffer (fun _ => b)
    (show 1 ≤ readable + writable by omega) (by omega) hcookie
  have hadd := virtqueueAddBuffer_one s.drv s.ring b cookie h1
  refine ⟨c, _, _, hadd, by rw [hcall, h1], ⟨_, hinv, ?_, ?_, ?_⟩, ?_⟩
  · simp only [VqSystem.addBuffer, hadd]
  · rfl
  · simp only [VqSystem.addBuffer, hadd]
  · intro x
    by_cases hx : x = s.drv.vqDescHeadIdx <;> simp [hx]

/-- **Getting a buffer back**: null on an empty used queue, otherwise the
first chain of it. -/
theorem Carries.getBuffer (h : Carries cfg drv dev ring f) :
    (f.used = [] ∧
      virtqueueGetBuffer drv ring = some (none, drv, ring)) ∨
    ∃ c len used g drv' ring', f.used = (c, len) :: used ∧
      virtqueueGetBuffer drv ring = some (some g, drv', ring') ∧
      g.cookie = c.call.cookie ∧ g.len = len ∧
      Carries cfg drv' dev ring' (f.get c) ∧
      (∀ x, (ring'.desc x).len = (ring.desc x).len) ∧
      g.idx.toNat < cfg.num := by
  obtain ⟨s, hs, rfl, rfl, rfl⟩ := h
  rcases hs.getBuffer with
    ⟨hu, hget⟩ | ⟨c, len, used, g, drv', ring', hu, hget, hg1, hg2, hinv⟩
  · exact .inl ⟨hu, hget⟩
  · refine .inr ⟨c, len, used, g, drv', ring', hu, hget, hg1, hg2,
      ⟨_, hinv, rfl, rfl, rfl⟩, ?_⟩
    simp only [virtqueueGetBuffer] at hget
    split at hget
    · simp at hget
    · simp only [vqRingFreeChain, Option.map_map, Option.map_eq_some_iff] at hget
      obtain ⟨⟨dp, nd⟩, -, heq⟩ := hget
      simp only [Function.comp_apply, Prod.mk.injEq, Option.some.injEq] at heq
      constructor
      · -- only `next` of the chain's last descriptor is written
        intro x
        rw [← heq.2.2]
        exact setNext_len _ _ _ _
      · rw [← heq.1, hs.fixed.drvNum, hs.rings.usedCons]
        exact cfg.slot_lt s.got.length

/-- **Taking the next available buffer**: null on an empty available
queue, otherwise the first chain of it as it was added. -/
theorem Carries.getAvailableBuffer (h : Carries cfg drv dev ring f) :
    (f.avail = [] ∧ virtqueueGetAvailableBuffer dev ring = (none, dev)) ∨
    ∃ c avail dev', f.avail = c :: avail ∧
      virtqueueGetAvailableBuffer dev ring = (some (c.call.view cfg), dev') ∧
      Carries cfg drv dev' ring (f.take c) := by
  obtain ⟨s, hs, rfl, rfl, rfl⟩ := h
  rcases hs.getAvailableBuffer with
    ⟨ha, hget⟩ | ⟨c, avail, dev', ha, -, hget, hinv⟩
  · exact .inl ⟨ha, hget⟩
  · exact .inr ⟨c, avail, dev', ha, hget, _, hinv, rfl, rfl, rfl⟩

/-- **Returning a buffer** the device holds. -/
theorem Carries.addConsumedBuffer (h : Carries cfg drv dev ring f)
    {l₁ l₂ : List Chain} {c : Chain} (hsplit : f.held = l₁ ++ c :: l₂)
    (len : UInt32) :
    ∃ dev' ring', virtqueueAddConsumedBuffer dev ring c.call.head len =
        (VQUEUE_SUCCESS, dev', ring') ∧
      Carries cfg drv dev' ring' (f.put l₁ l₂ c len) ∧
      ring'.desc = ring.desc := by
  obtain ⟨s, hs, rfl, rfl, rfl⟩ := h
  have hlt := hs.head_lt (c := c) (by simp [Flow.live, hsplit])
  have hadd : virtqueueAddConsumedBuffer s.dev s.ring c.call.head len =
      (VQUEUE_SUCCESS,
        (s.addConsumedBuffer c.num c.call.head len).dev,
        (s.addConsumedBuffer c.num c.call.head len).ring) := by
    simp only [VqSystem.addConsumedBuffer, virtqueueAddConsumedBuffer,
      if_neg hlt]
  refine ⟨_, _, hadd, ⟨_, hs.put hsplit len, rfl, rfl, rfl⟩, ?_⟩
  simp only [VqSystem.addConsumedBuffer, virtqueueAddConsumedBuffer,
    if_neg hlt]

/-- Notification calls leave the flow as it is. -/
theorem Carries.notify (h : Carries cfg drv dev ring f) {ring' : Vring}
    (dq vq : UInt16) (hs : SameQueues cfg ring ring') :
    Carries cfg { drv with vqQueuedCnt := dq }
      { dev with vqQueuedCnt := vq } ring' f := by
  obtain ⟨s, hinv, rfl, rfl, rfl⟩ := h
  exact ⟨_, hinv.notify hs, rfl, rfl, rfl⟩

theorem SameQueues.refl (cfg : VqConfig) (vr : Vring) : SameQueues cfg vr vr :=
  ⟨rfl, rfl, rfl, fun _ => rfl, fun _ => rfl⟩

theorem Carries.drvKick (h : Carries cfg drv dev ring f) :
    Carries cfg (virtqueueKick drv ring).2 dev ring f :=
  h.notify 0 dev.vqQueuedCnt (SameQueues.refl cfg ring)

theorem Carries.devKick (h : Carries cfg drv dev ring f) :
    Carries cfg drv (virtqueueKick dev ring).2 ring f :=
  h.notify drv.vqQueuedCnt 0 (SameQueues.refl cfg ring)

end OpenAmp.Virtio
