import OpenAmp.Virtio.Preservation

/-!
# What driver and device can rely on

The two contracts of a split virtqueue, for runs of any length of the
two-party system: both directions are FIFO without loss or duplication,
and the descriptor table is partitioned into the free list and the
outstanding chains.
-/

namespace OpenAmp.Virtio

open OpenAmp.Metal OpenAmp.Lib

variable {cfg : VqConfig} {s : VqSystem} {f : Flow}

/-! ## FIFO in both directions -/

/-- The cookies of the returned chains are those of the used queue's
logs: no returned number is out of range. -/
theorem LogInv.returnedCookies_getElem? (h : LogInv cfg s f) (i : Nat) :
    s.returnedCookies[i]? = s.returned[i]?.bind fun r =>
      s.added[r.1]?.map fun a => (a.cookie, r.2) := by
  have hall : ∀ r ∈ s.returned, ∃ a, s.added[r.1]? = some a := by
    intro r hr
    have hlt : r.1 < s.added.length := by
      rw [← List.take_append_drop s.got.length s.returned, h.back] at hr
      rcases List.mem_append.mp hr with hgot | hused
      · exact List.mem_range.mp (h.nums.mem_iff.mp
          (List.mem_append_right _ (List.mem_map_of_mem hgot)))
      · obtain ⟨u, hu, rfl⟩ := List.mem_map.mp hused
        have hlive : u.1 ∈ f.live := by
          simp only [Flow.live, List.mem_append, List.mem_map]
          exact .inr ⟨u, hu, rfl⟩
        exact (List.getElem?_eq_some_iff.mp (h.calls _ hlive)).1
    exact ⟨_, List.getElem?_eq_getElem hlt⟩
  have hgen : ∀ l : List (Nat × UInt32),
      (∀ r ∈ l, ∃ a, s.added[r.1]? = some a) → ∀ i : Nat,
      (l.filterMap fun r => s.added[r.1]?.map fun a => (a.cookie, r.2))[i]? =
        l[i]?.bind fun r => s.added[r.1]?.map fun a => (a.cookie, r.2) := by
    intro l
    induction l with
    | nil => intro _ i; simp
    | cons r l ih =>
      intro hl i
      obtain ⟨a, ha⟩ := hl r (by simp)
      have hrest := ih fun r' hr' => hl r' (by simp [hr'])
      cases i with
      | zero => simp [ha]
      | succ i => simpa [ha] using hrest i
  exact hgen s.returned hall i

theorem LogInv.taken_prefix (h : LogInv cfg s f) :
    s.taken <+: s.added.map (·.view cfg) := by
  rw [List.prefix_iff_getElem?]
  intro i hi
  obtain ⟨a, ha, hb⟩ := h.takenView i _ (List.getElem?_eq_getElem hi)
  rw [List.getElem?_map, ha, hb]
  rfl

theorem LogInv.got_prefix (h : LogInv cfg s f) :
    s.got.map (fun g => (g.cookie, g.len)) <+: s.returnedCookies := by
  rw [List.prefix_iff_getElem?]
  intro i hi
  have hi' : i < s.got.length := by simpa using hi
  obtain ⟨j, len, a, hj, ha, hc, hl⟩ :=
    h.gotView i _ (List.getElem?_eq_getElem hi')
  rw [h.returnedCookies_getElem?, hj]
  simp [ha, hc, hl]

/-- **FIFO, no loss, no duplication.** Whatever the interleaving and
however often the 16-bit counters have wrapped: the device takes the
chains the driver added, in that order and as they were added; the
driver gets back, with the cookie it passed and the length the device
returned, the chains the device returned, in the order of their return.
A null result of either reader means that it has caught up, and
`virtqueue_get_buffer` always returns. -/
theorem virtqueue_fifo {cfg : VqConfig} {s : VqSystem}
    (h : VqReachable cfg s) :
    s.taken <+: s.added.map (·.view cfg) ∧
    s.got.map (fun g => (g.cookie, g.len)) <+: s.returnedCookies ∧
    ((virtqueueGetAvailableBuffer s.dev s.ring).1 = none ↔
      s.taken.length = s.added.length) ∧
    ∃ r, virtqueueGetBuffer s.drv s.ring = some r ∧
      (r.1 = none ↔ s.got.length = s.returned.length) := by
  obtain ⟨f, hf⟩ := vqReachable_inv h
  refine ⟨hf.log.taken_prefix, hf.log.got_prefix, ?_, ?_⟩
  · have hsent := hf.log.sent
    rcases hf.getAvailableBuffer with ⟨ha, hs⟩ | ⟨c, avail, dev, ha, -, hs, -⟩
    · rw [ha, List.length_nil] at hsent
      simp [hs, hsent]
    · rw [ha, List.length_cons] at hsent
      simp only [hs, reduceCtorEq, false_iff]
      omega
  · have hlen := hf.log.used_length
    rcases hf.getBuffer with ⟨hu, hs⟩ | ⟨c, len, used, g, drv, ring, hu, hs, -⟩
    · rw [hu, List.length_nil] at hlen
      exact ⟨_, hs, by simp [hlen]⟩
    · rw [hu, List.length_cons] at hlen
      refine ⟨_, hs, ?_⟩
      simp only [reduceCtorEq, false_iff]
      omega

/-! ## One run -/

/-- A ring of two entries, both sides on one page mapped at its own
address. -/
def pairConfig : VqConfig where
  order := 1
  order_le := order_one_le
  drvFeatures := 0
  devFeatures := 0
  drvIo := metalIoInit 0x1000 (some fun _ => 0x1000) 0x1000 64
  devIo := metalIoInit 0x1000 (some fun _ => 0x1000) 0x1000 64
  drvNotify := true
  devNotify := true

/-- One readable buffer of sixteen bytes goes to the device and comes
back with eight bytes written. -/
def pairRoundTrip : Option VqSystem :=
  let s := (VqSystem.init pairConfig).addBuffer (fun _ => ⟨0x1100, 16⟩) 1 0 7
  (s.getAvailableBuffer.addConsumedBuffer 0 0 8).getBuffer

theorem pairRoundTrip_reachable :
    ∃ s, pairRoundTrip = some s ∧ VqReachable pairConfig s := by
  have h0 : VqReachable pairConfig (VqSystem.init pairConfig) := .start rfl
  have h1 := h0.next (.addBuffer (fun _ => ⟨0x1100, 16⟩) 1 0 7
    (by decide) (by decide) (by decide))
  have h2 := h1.next .getAvailableBuffer
  have h3 := h2.next (.addConsumedBuffer 0 ⟨0x1100, 0, 16⟩ 8
    (by decide +kernel) (by decide +kernel))
  have hsome : pairRoundTrip.isSome := by decide +kernel
  obtain ⟨s, hs⟩ := Option.isSome_iff_exists.mp hsome
  exact ⟨s, hs, h3.next (.getBuffer hs)⟩

theorem virtqueue_fifo_roundTrip :
    pairRoundTrip.map (·.got) = some [⟨7, 8, 0⟩] ∧
    ∃ s, pairRoundTrip = some s ∧
      s.taken <+: s.added.map (·.view pairConfig) ∧
      s.got.map (fun g => (g.cookie, g.len)) <+: s.returnedCookies := by
  obtain ⟨s, hs, hr⟩ := pairRoundTrip_reachable
  exact ⟨by decide +kernel, s, hs, (virtqueue_fifo hr).1,
    (virtqueue_fifo hr).2.1⟩

/-! ## The descriptor table is partitioned -/

/-- The descriptors met from `i` through `VRING_DESC_F_NEXT`, at most
`fuel` of them. -/
def chainOf (desc : UInt16 → VringDesc) : Nat → UInt16 → List UInt16
  | 0, _ => []
  | fuel + 1, i =>
    i :: if (desc i).flags &&& VRING_DESC_F_NEXT ≠ 0 then
      chainOf desc fuel (desc i).next else []

/-- The descriptors met through `next` from `vq_desc_head_idx`, as many
as `vq_free_cnt` says. -/
def VqSystem.freeWalk (s : VqSystem) : List UInt16 :=
  follow (nextOf s.ring.desc) s.drv.vqFreeCnt.toNat s.drv.vqDescHeadIdx

/-- The descriptors of chain number `j`, read off the table. -/
def VqSystem.chainWalk (s : VqSystem) (j : Nat) : List UInt16 :=
  match s.added[j]? with
  | none => []
  | some a => chainOf s.ring.desc (2 ^ 16) a.head

theorem chainOf_spec {desc : UInt16 → VringDesc} {e x : UInt16}
    (hx : ¬ (desc x).flags &&& VRING_DESC_F_NEXT ≠ 0) (l : List UInt16) :
    ∀ (fuel : Nat) (h : UInt16), l.length < fuel →
    Linked (nextOf desc) e h (l ++ [x]) →
    (∀ y ∈ l, (desc y).flags &&& VRING_DESC_F_NEXT ≠ 0) →
    chainOf desc fuel h = l ++ [x] := by
  induction l with
  | nil =>
    intro fuel h hf hl _
    obtain ⟨rfl, -⟩ := hl
    cases fuel with
    | zero => simp at hf
    | succ fuel => rw [chainOf, if_neg hx]; rfl
  | cons y l ih =>
    intro fuel h hf hl hflags
    obtain ⟨rfl, hrest⟩ := hl
    cases fuel with
    | zero => simp at hf
    | succ fuel =>
      have htail := ih fuel (desc h).next (by simpa using hf) hrest
        fun z hz => hflags z (by simp [hz])
      rw [chainOf, if_pos (hflags h (by simp)), htail]
      rfl

theorem descFlags_write (readable needed : Int) (i : Nat) :
    descFlags readable needed i &&& VRING_DESC_F_WRITE ≠ 0 ↔
      readable ≤ (i : Int) := by
  unfold descFlags
  by_cases h1 : (i : Int) < needed - 1 <;>
    by_cases h2 : readable ≤ (i : Int) <;> simp only [h1, h2] <;> decide

/-- A live chain is what a walk through its flags meets. -/
theorem ChainOk.chainOf_eq {io desc descx c} (h : ChainOk io desc descx c)
    (hle : c.descs.length ≤ 2 ^ 15) :
    chainOf desc (2 ^ 16) c.call.head = c.descs := by
  obtain ⟨e, hlink⟩ := h.link
  have hsplit := List.dropLast_append_getLast h.nonempty
  have hlen : c.descs.dropLast.length + 1 = c.descs.length := by
    have := List.length_pos_iff.mpr h.nonempty
    rw [List.length_dropLast]
    omega
  have hlast : c.descs[c.descs.dropLast.length]? =
      some (c.descs.getLast h.nonempty) := by
    rw [List.getLast_eq_getElem, List.length_dropLast]
    exact List.getElem?_eq_getElem _
  rw [← hsplit] at hlink
  rw [← hsplit]
  refine chainOf_spec ?_ _ _ _ (by omega) hlink ?_
  · rw [h.flags _ _ hlast, descFlags_next, h.needed]
    omega
  · intro y hy
    obtain ⟨i, hi, rfl⟩ := List.getElem_of_mem hy
    have hget : c.descs[i]? = some (c.descs.dropLast[i]) := by
      rw [List.getElem_dropLast]
      exact List.getElem?_eq_getElem _
    rw [h.flags _ _ hget, descFlags_next, h.needed]
    omega

/-- The outstanding chains are the live ones. -/
theorem LogInv.outstanding_perm (h : LogInv cfg s f) :
    s.outstanding.Perm (f.live.map (·.num)) := by
  have hnd := h.nums.nodup_iff.mpr List.nodup_range
  have hfilter := h.nums.symm.filter fun j =>
    decide (j ∉ (s.returned.take s.got.length).map Prod.fst)
  refine hfilter.trans (List.Perm.of_eq ?_)
  rw [List.filter_append, List.filter_eq_self.mpr, List.filter_eq_nil_iff.mpr,
    List.append_nil]
  · intro j hj
    simp only [decide_eq_true_eq, not_not]
    exact hj
  · intro j hj
    simp only [decide_eq_true_eq]
    exact List.disjoint_of_nodup_append hnd hj

theorem VqInv.mem_outstanding (h : VqInv cfg s f) {j : Nat} :
    j ∈ s.outstanding ↔ ∃ c ∈ f.live, c.num = j := by
  rw [h.log.outstanding_perm.mem_iff, List.mem_map]

theorem VqInv.descs_length_le (h : VqInv cfg s f) {c : Chain}
    (hc : c ∈ f.live) : c.descs.length ≤ cfg.num := by
  have hlen := h.table.part.length_eq
  have hsub := (List.sublist_flatten_of_mem
    (List.mem_map_of_mem (f := Chain.descs) hc)).length_le
  rw [List.length_append, length_indices, List.flatMap_def] at hlen
  omega

theorem VqInv.chainWalk_num (h : VqInv cfg s f) {c : Chain}
    (hc : c ∈ f.live) : s.chainWalk c.num = c.descs := by
  have hle := h.descs_length_le hc
  have := cfg.num_le
  rw [VqSystem.chainWalk, h.log.calls c hc]
  exact (h.table.chains c hc).chainOf_eq (by omega)

theorem VqInv.freeWalk_eq (h : VqInv cfg s f) : s.freeWalk = f.free := by
  rw [VqSystem.freeWalk, h.table.freeCnt_toNat]
  exact h.table.thread.follow_eq.1

/-- What the walks read off the table is the partition of the flow. -/
theorem VqInv.walks_perm (h : VqInv cfg s f) :
    (s.freeWalk ++ s.outstanding.flatMap s.chainWalk).Perm
      (f.free ++ f.live.flatMap Chain.descs) := by
  rw [h.freeWalk_eq]
  refine List.Perm.append_left _ ?_
  refine (h.log.outstanding_perm.flatMap_right _).trans (List.Perm.of_eq ?_)
  rw [List.flatMap_map]
  exact List.flatMap_congr fun c hc => h.chainWalk_num hc

/-- **The table is partitioned.** In every reachable state the walk from
`vq_desc_head_idx` meets `vq_free_cnt` different descriptors and ends at
`VQ_RING_DESC_CHAIN_END`; every outstanding chain has the number of
descriptors the driver noted, linked by `VRING_DESC_F_NEXT`, the
readable ones first; free list and chains are disjoint and cover the
table; and the noted cookies are those of the outstanding heads. -/
theorem descriptor_partition {cfg : VqConfig} {s : VqSystem}
    (h : VqReachable cfg s) :
    (s.freeWalk.length = s.drv.vqFreeCnt.toNat ∧ s.freeWalk.Nodup ∧
      (∀ i ∈ s.freeWalk, i.toNat < cfg.num) ∧
      (nextOf s.ring.desc)^[s.drv.vqFreeCnt.toNat] s.drv.vqDescHeadIdx =
        VQ_RING_DESC_CHAIN_END) ∧
    (∀ j ∈ s.outstanding, ∃ a, s.added[j]? = some a ∧
      (s.chainWalk j).head? = some a.head ∧
      (s.chainWalk j).length = (s.drv.vqDescx a.head).ndescs.toNat ∧
      (s.chainWalk j).length = a.needed ∧
      ∀ i x, (s.chainWalk j)[i]? = some x →
        ((s.ring.desc x).flags &&& VRING_DESC_F_NEXT ≠ 0 ↔
          i + 1 < (s.chainWalk j).length) ∧
        ((s.ring.desc x).flags &&& VRING_DESC_F_WRITE ≠ 0 ↔
          a.readable ≤ i)) ∧
    (s.freeWalk ++ s.outstanding.flatMap s.chainWalk).Nodup ∧
    (∀ i, i ∈ s.freeWalk ++ s.outstanding.flatMap s.chainWalk ↔
      i.toNat < cfg.num) ∧
    ∀ i, i.toNat < cfg.num → ((s.drv.vqDescx i).cookie ≠ 0 ↔
      ∃ j ∈ s.outstanding, ∃ a, s.added[j]? = some a ∧ a.head = i) := by
  obtain ⟨f, hf⟩ := vqReachable_inv h
  have hnum := cfg.num_le
  refine ⟨⟨?_, ?_, ?_, ?_⟩, ?_, ?_, ?_, ?_⟩
  · rw [hf.freeWalk_eq, hf.table.freeCnt_toNat]
  · rw [hf.freeWalk_eq]
    exact hf.table.free_nodup
  · intro i hi
    rw [hf.freeWalk_eq] at hi
    exact (hf.table.mem_iff i).mp (List.mem_append_left _ hi)
  · rw [hf.table.freeCnt_toNat]
    exact hf.table.thread.follow_eq.2
  · intro j hj
    obtain ⟨c, hc, rfl⟩ := hf.mem_outstanding.mp hj
    have hok := hf.table.chains c hc
    have hle := hf.descs_length_le hc
    refine ⟨c.call, hf.log.calls c hc, ?_⟩
    rw [hf.chainWalk_num hc]
    refine ⟨?_, ?_, hok.needed.symm, ?_⟩
    · obtain ⟨e, hlink⟩ := hok.link
      cases hd : c.descs with
      | nil => exact absurd hd hok.nonempty
      | cons x l =>
        rw [hd] at hlink
        simp [hlink.1]
    · rw [hok.ndescs, UInt16.toNat_ofNat']
      omega
    · intro i x hi
      rw [hok.flags i x hi, descFlags_next, descFlags_write, hok.needed]
      exact ⟨by omega, Iff.rfl⟩
  · exact hf.walks_perm.nodup_iff.mpr hf.table.nodup
  · intro i
    rw [hf.walks_perm.mem_iff, hf.table.mem_iff]
  · intro i hi
    constructor
    · intro hcookie
      by_contra hno
      refine hcookie (hf.table.idle i hi fun hmem => hno ?_)
      obtain ⟨c, hc, rfl⟩ := List.mem_map.mp hmem
      exact ⟨c.num, hf.mem_outstanding.mpr ⟨c, hc, rfl⟩, c.call,
        hf.log.calls c hc, rfl⟩
    · rintro ⟨j, hj, a, ha, rfl⟩
      obtain ⟨c, hc, rfl⟩ := hf.mem_outstanding.mp hj
      rw [hf.log.calls c hc, Option.some.injEq] at ha
      subst ha
      rw [(hf.table.chains c hc).cookie]
      exact (hf.table.chains c hc).cookie_ne

theorem descriptor_partition_roundTrip :
    ∃ s, pairRoundTrip = some s ∧
      (s.freeWalk ++ s.outstanding.flatMap s.chainWalk).Nodup := by
  obtain ⟨s, hs, hr⟩ := pairRoundTrip_reachable
  exact ⟨s, hs, (descriptor_partition hr).2.2.1⟩

end OpenAmp.Virtio
