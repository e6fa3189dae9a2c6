import OpenAmp.Virtio.Fifo

/-!
# What goes unchecked

`virtqueue_add_buffer` and `virtqueue_create` carry the checks of their
arguments in `VQ_PARAM_CHK`, which is empty in this build. The first
takes a buffer whether or not there is a descriptor for it; the second
leaves the fields alone that `virtqueue_allocate` has cleared, whether or
not the queue is a new one.
-/

namespace OpenAmp.Virtio

open OpenAmp.Lib OpenAmp.Metal

/-! ## Adding to a full ring -/

/-- There is a descriptor for every buffer, and at least one buffer. -/
def Virtqueue.HasRoom (vq : Virtqueue) (readable writable : Int) : Prop :=
  1 ≤ readable + writable ∧ readable + writable ≤ vq.vqFreeCnt.toNat

instance (vq : Virtqueue) (readable writable : Int) :
    Decidable (vq.HasRoom readable writable) :=
  inferInstanceAs (Decidable (_ ∧ _))

/-- What a rejected `virtqueue_add_buffer` must not have touched. -/
structure AddUntouched (vq vq' : Virtqueue) (vr vr' : Vring) : Prop where
  desc : vr'.desc = vr.desc
  avail : vr'.avail = vr.avail
  descx : vq'.vqDescx = vq.vqDescx
  head : vq'.vqDescHeadIdx = vq.vqDescHeadIdx
  freeCnt : vq'.vqFreeCnt = vq.vqFreeCnt
  queued : vq'.vqQueuedCnt = vq.vqQueuedCnt

/-- A call of `virtqueue_add_buffer` succeeds where there is room, and
reports an error and changes nothing where there is none. -/
def AddAtomic (vq : Virtqueue) (vr : Vring) (bufList : Nat → VirtqueueBuf)
    (readable writable : Int) (cookie : UInt64) : Prop :=
  let (status, vq', vr') :=
    virtqueueAddBuffer vq vr bufList readable writable cookie
  if vq.HasRoom readable writable then status = VQUEUE_SUCCESS
  else status ≠ VQUEUE_SUCCESS ∧ AddUntouched vq vq' vr vr'

/-- **A buffer is rejected as it should be** exactly where it need not be
rejected: every call reports success. -/
theorem add_buffer_atomic_iff (vq : Virtqueue) (vr : Vring)
    (bufList : Nat → VirtqueueBuf) (readable writable : Int)
    (cookie : UInt64) :
    AddAtomic vq vr bufList readable writable cookie ↔
      vq.HasRoom readable writable := by
  have hstatus : (virtqueueAddBuffer vq vr bufList readable writable
      cookie).1 = VQUEUE_SUCCESS := rfl
  by_cases hroom : vq.HasRoom readable writable
  · simp only [AddAtomic, hroom, if_true, iff_true]
    exact hstatus
  · simp only [AddAtomic, hroom, if_false, iff_false]
    exact fun h => h.1 hstatus

section Full

variable {cfg : VqConfig} {s : VqSystem}

/-- On a full ring the free list is empty, and its head is the end
marker, which is no index of the table. -/
theorem VqReachable.full_head (h : VqReachable cfg s)
    (hfull : s.drv.vqFreeCnt = 0) :
    s.drv.vqDescHeadIdx = VQ_RING_DESC_CHAIN_END ∧
      s.drv.vqNentries ≤ VQ_RING_DESC_CHAIN_END := by
  obtain ⟨f, hinv⟩ := vqReachable_inv h
  have hlen := hinv.table.freeCnt_toNat
  rw [hfull] at hlen
  have hnil : f.free = [] := List.length_eq_zero_iff.mp hlen.symm
  have hthread := hinv.table.thread
  rw [hnil] at hthread
  refine ⟨hthread, ?_⟩
  have hle := cfg.num_le
  rw [hinv.fixed.drvNum, UInt16.le_iff_toNat_le, cfg.toNat_nentries]
  exact hle

/-- **One buffer more** than the ring has entries is written behind the
table, its cookie behind the book-keeping, and the device is shown the
end marker as a head. -/
theorem add_full_outside (h : VqReachable cfg s)
    (hfull : s.drv.vqFreeCnt = 0) (buf : VirtqueueBuf) (cookie : UInt64) :
    ∃ drv ring, virtqueueAddBuffer s.drv s.ring (fun _ => buf) 0 1 cookie =
        (VQUEUE_SUCCESS, drv, ring) ∧
      (ring.desc VQ_RING_DESC_CHAIN_END).len = buf.len.toUInt32 ∧
      (drv.vqDescx VQ_RING_DESC_CHAIN_END).cookie = cookie ∧
      ring.avail.ring (s.ring.avail.idx &&& (cfg.nentries - 1)) =
        VQ_RING_DESC_CHAIN_END ∧
      drv.vqFreeCnt = 65535 := by
  obtain ⟨hhead, -⟩ := h.full_head hfull
  obtain ⟨f, hinv⟩ := vqReachable_inv h
  refine ⟨_, _, rfl, ?_, ?_, ?_, ?_⟩
  · simp [hhead]
  · simp [hhead]
  · simp [hhead, hinv.fixed.drvNum]
  · show s.drv.vqFreeCnt - UInt16.ofInt 1 = 65535
    rw [hfull]
    decide

end Full

/-- Both descriptors of a ring in use. -/
def fullPair : VqSystem :=
  ((VqSystem.init pairConfig).addBuffer (fun _ => ⟨0x1100, 16⟩) 1 0 7).addBuffer
    (fun _ => ⟨0x1200, 16⟩) 1 0 8

theorem fullPair_reachable : VqReachable pairConfig fullPair := by
  have h0 : VqReachable pairConfig (VqSystem.init pairConfig) := .start rfl
  have h1 := h0.next (.addBuffer (fun _ => ⟨0x1100, 16⟩) 1 0 7
    (by decide) (by decide) (by decide))
  exact h1.next (.addBuffer (fun _ => ⟨0x1200, 16⟩) 1 0 8
    (by decide) (by decide +kernel) (by decide))

/-- A third buffer is taken as well. -/
theorem add_buffer_full_accepted :
    VqReachable pairConfig fullPair ∧ fullPair.drv.vqFreeCnt = 0 ∧
      (virtqueueAddBuffer fullPair.drv fullPair.ring
        (fun _ => ⟨0x1300, 16⟩) 1 0 9).1 = VQUEUE_SUCCESS ∧
      ¬ AddAtomic fullPair.drv fullPair.ring (fun _ => ⟨0x1300, 16⟩) 1 0 9 := by
  have hfull : fullPair.drv.vqFreeCnt = 0 := by decide +kernel
  refine ⟨fullPair_reachable, hfull, rfl, fun h => ?_⟩
  have hno : ¬ fullPair.drv.HasRoom 1 0 := by
    rw [Virtqueue.HasRoom, hfull]
    decide
  simp only [AddAtomic, if_neg hno] at h
  exact h.1 rfl

/-! ## Creating a queue again -/

/-- `virtqueue_create` of a driver over a cleared ring, with an object
that may have been in use. -/
def virtqueueRecreate (cfg : VqConfig) (vq : Virtqueue) :
    Int × Virtqueue × Vring :=
  virtqueueCreate ⟨.driver, cfg.drvFeatures⟩ cfg.nentries cfg.drvNotify vq
    zeroedVring

/-- What a queue with nothing in it looks like: the free list is the
whole table, and nothing is outstanding in either direction. -/
structure Established (vq : Virtqueue) (vr : Vring) : Prop where
  freeCnt : vq.vqFreeCnt = vq.vqNentries
  free : ∃ free : List UInt16,
    Linked (nextOf vr.desc) VQ_RING_DESC_CHAIN_END vq.vqDescHeadIdx free ∧
      free.Nodup ∧ free.length = vq.vqFreeCnt.toNat ∧
      ∀ i ∈ free, i < vq.vqNentries
  idle : ∀ i < vq.vqNentries, (vq.vqDescx i).cookie = 0
  usedCons : vq.vqUsedConsIdx = vr.used.idx
  queued : vq.vqQueuedCnt = 0

/-- What `virtqueue_allocate` leaves in the fields that
`virtqueue_create` does not set. -/
structure Virtqueue.Cleared (vq : Virtqueue) (n : Nat) : Prop where
  head : vq.vqDescHeadIdx = 0
  idle : ∀ i : UInt16, i.toNat < n → (vq.vqDescx i).cookie = 0
  usedCons : vq.vqUsedConsIdx = 0
  queued : vq.vqQueuedCnt = 0

section Recreate

variable {cfg : VqConfig} {s : VqSystem} {vq : Virtqueue}

theorem virtqueueRecreate_ring (cfg : VqConfig) (vq : Virtqueue) :
    (virtqueueRecreate cfg vq).2.2.desc =
      setNext (linkDescs zeroedVring.desc (cfg.num - 1))
        (UInt16.ofNat (cfg.num - 1)) VQ_RING_DESC_CHAIN_END := by
  simp [virtqueueRecreate, virtqueueCreate, vqRingInit]

/-- No descriptor of a linked table leads back to the first. -/
theorem nextOf_recreate_ne_zero (vq : Virtqueue) {i : UInt16}
    (hi : i.toNat < cfg.num) :
    nextOf (virtqueueRecreate cfg vq).2.2.desc i ≠ 0 := by
  have hle := cfg.num_le
  rw [virtqueueRecreate_ring, nextOf_setNext]
  by_cases hlast : i = UInt16.ofNat (cfg.num - 1)
  · rw [hlast, Function.update_self]
    decide
  · rw [Function.update_of_ne hlast]
    have hne : i.toNat ≠ cfg.num - 1 := fun h =>
      hlast (by rw [← h, UInt16.ofNat_toNat])
    have hnext := nextOf_linkDescs zeroedVring.desc (cfg.num - 1) (by omega)
      i.toNat (by omega)
    rw [UInt16.ofNat_toNat] at hnext
    rw [hnext]
    intro h0
    have := ofNat_inj16 (b := 0) (by omega) (by decide) h0
    omega

/-- A list of all the table that begins somewhere else would come to the
first descriptor from another one. -/
theorem head_eq_zero {free : List UInt16} {h : UInt16}
    (hl : Linked (nextOf (virtqueueRecreate cfg vq).2.2.desc)
      VQ_RING_DESC_CHAIN_END h free)
    (hnd : free.Nodup) (hlen : free.length = cfg.num)
    (hmem : ∀ i ∈ free, i.toNat < cfg.num) : h = 0 := by
  have hle := cfg.num_le
  have hsub : free ⊆ indices cfg.num := fun i hi =>
    (mem_indices hle i).mpr (hmem i hi)
  have hperm : free.Perm (indices cfg.num) :=
    (List.subperm_of_subset hnd hsub).perm_of_length_le
      (Nat.le_of_eq (by rw [length_indices, hlen]))
  have hzero : (0 : UInt16) ∈ free :=
    hperm.mem_iff.mpr ((mem_indices hle 0).mpr cfg.num_pos)
  obtain ⟨l₁, l₂, rfl⟩ := List.append_of_mem hzero
  obtain ⟨m, hpre, rfl, -⟩ := linked_append.mp hl
  rcases List.eq_nil_or_concat l₁ with rfl | ⟨l, x, rfl⟩
  · exact hpre
  · rw [List.concat_eq_append, linked_append] at hpre
    obtain ⟨_, -, rfl, hnext⟩ := hpre
    have hnext : nextOf (virtqueueRecreate cfg vq).2.2.desc _ = 0 := hnext
    exact absurd hnext (nextOf_recreate_ne_zero vq (hmem _ (by simp)))

/-- **Creating a queue again establishes it** exactly if the object is as
`virtqueue_allocate` leaves one, in the fields that are not set. -/
theorem virtqueue_recreate_iff (cfg : VqConfig) (vq : Virtqueue) :
    Established (virtqueueRecreate cfg vq).2.1
      (virtqueueRecreate cfg vq).2.2 ↔ vq.Cleared cfg.num := by
  have hle := cfg.num_le
  constructor
  · rintro ⟨-, ⟨free, hl, hnd, hlen, hmem⟩, hidle, hcons, hqueued⟩
    have hnum : (virtqueueRecreate cfg vq).2.1.vqNentries = cfg.nentries := rfl
    simp only [hnum, UInt16.lt_iff_toNat_lt, cfg.toNat_nentries] at hmem hidle
    have hcnt : free.length = cfg.num := by
      rw [hlen]
      exact cfg.toNat_nentries
    exact ⟨head_eq_zero hl hnd hcnt hmem, hidle, hcons, hqueued⟩
  · intro h
    refine ⟨rfl, ⟨indices cfg.num, ?_, nodup_indices hle, ?_, ?_⟩, ?_, h.usedCons,
      h.queued⟩
    · rw [virtqueueRecreate_ring]
      have hlink := linked_init zeroedVring.desc cfg.num_pos hle
      rw [← h.head] at hlink
      exact hlink
    · rw [length_indices]
      exact cfg.toNat_nentries.symm
    · intro i hi
      show i < cfg.nentries
      rw [UInt16.lt_iff_toNat_lt, cfg.toNat_nentries]
      exact (mem_indices hle i).mp hi
    · intro i hi
      have hi : i < cfg.nentries := hi
      rw [UInt16.lt_iff_toNat_lt, cfg.toNat_nentries] at hi
      exact h.idle i hi

/-- No chain is alive exactly if no cookie is noted. -/
theorem VqInv.idle_iff {f : Flow} (h : VqInv cfg s f) :
    (∀ i : UInt16, i.toNat < cfg.num → (s.drv.vqDescx i).cookie = 0) ↔
      s.outstanding = [] := by
  have hlen := h.log.outstanding_perm.length_eq
  rw [List.length_map] at hlen
  constructor
  · intro hidle
    cases hlive : f.live with
    | nil =>
      rw [hlive, List.length_nil] at hlen
      exact List.length_eq_zero_iff.mp (by omega)
    | cons c l =>
      have hc : c ∈ f.live := by simp [hlive]
      have hok := h.table.chains c hc
      have hlt := UInt16.not_le.mp (h.head_lt hc)
      rw [h.fixed.devNum, UInt16.lt_iff_toNat_lt, cfg.toNat_nentries] at hlt
      have hzero := hidle _ hlt
      exact absurd (hok.cookie.symm.trans hzero) hok.cookie_ne
  · intro hnone i hi
    rw [hnone, List.length_nil] at hlen
    have hlive : f.live = [] := List.length_eq_zero_iff.mp (by omega)
    exact h.table.idle i hi (by simp [hlive])

/-- **The driver's queue after a run** is cleared exactly if no chain is
outstanding, the number of buffers got is a multiple of `2 ^ 16`, and
head and pending count happen to be zero. -/
theorem cleared_iff (h : VqReachable cfg s) :
    s.drv.Cleared cfg.num ↔ s.outstanding = [] ∧
      s.got.length % 65536 = 0 ∧ s.drv.vqDescHeadIdx = 0 ∧
      s.drv.vqQueuedCnt = 0 := by
  obtain ⟨f, hinv⟩ := vqReachable_inv h
  have hcons : s.drv.vqUsedConsIdx = 0 ↔ s.got.length % 65536 = 0 := by
    rw [hinv.rings.usedCons, ← UInt16.toNat_inj, UInt16.toNat_ofNat']
    exact Iff.rfl
  rw [← hinv.idle_iff, ← hcons]
  exact ⟨fun ⟨h1, h2, h3, h4⟩ => ⟨h2, h3, h1, h4⟩,
    fun ⟨h1, h2, h3, h4⟩ => ⟨h3, h1, h2, h4⟩⟩

end Recreate

/-- After one buffer has gone there and back, the queue created again
goes on with the second entry of the used ring. -/
theorem recreate_stale :
    ∃ s, VqReachable pairConfig s ∧
      (virtqueueRecreate pairConfig s.drv).2.1.vqUsedConsIdx = 1 ∧
      (virtqueueRecreate pairConfig s.drv).2.2.used.idx = 0 ∧
      ¬ Established (virtqueueRecreate pairConfig s.drv).2.1
        (virtqueueRecreate pairConfig s.drv).2.2 := by
  obtain ⟨s, hs, hr⟩ := pairRoundTrip_reachable
  have hcons : pairRoundTrip.map (·.drv.vqUsedConsIdx) = some 1 := by
    decide +kernel
  rw [hs] at hcons
  have hcons : (virtqueueRecreate pairConfig s.drv).2.1.vqUsedConsIdx = 1 :=
    Option.some.inj hcons
  refine ⟨s, hr, hcons, rfl, fun h => ?_⟩
  have heq : (1 : UInt16) = 0 := hcons.symm.trans h.usedCons
  exact absurd heq (by decide)

end OpenAmp.Virtio
