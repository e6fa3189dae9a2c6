import OpenAmp.Virtio.Invariant

/-!
# Every step keeps the ring invariant

One lemma for each call of either side. The two that move descriptors,
`virtqueue_add_buffer` and `virtqueue_get_buffer`, first get an exact
description on the table the invariant promises them; the rest is which
list of the flow an element moves to.
-/

namespace OpenAmp.Virtio

open OpenAmp.Metal OpenAmp.Lib

variable {cfg : VqConfig} {s : VqSystem} {f : Flow}

/-! ## Reading the invariant -/

theorem ChainOk.head_mem {io desc descx c} (h : ChainOk io desc descx c) :
    c.call.head ∈ c.descs := by
  obtain ⟨e, hl⟩ := h.link
  cases hd : c.descs with
  | nil => exact absurd hd h.nonempty
  | cons x l =>
    rw [hd] at hl
    simp [hl.1]

/-- A chain sees only its own descriptors and its own extra entry. -/
theorem ChainOk.frame {io desc descx c} {desc' : UInt16 → VringDesc}
    {descx' : UInt16 → VqDescExtra} (h : ChainOk io desc descx c)
    (hd : ∀ x ∈ c.descs, desc' x = desc x)
    (hx : descx' c.call.head = descx c.call.head) :
    ChainOk io desc' descx' c := by
  obtain ⟨e, hl⟩ := h.link
  refine ⟨⟨e, hl.congr fun x hm => ?_⟩, h.nonempty, h.needed, ?_, ?_, ?_, ?_,
    ?_, h.cookie_ne⟩
  · simp [nextOf, hd x hm]
  · intro i x hi
    rw [hd x (List.mem_of_getElem? hi)]
    exact h.flags i x hi
  · rw [hd _ h.head_mem]; exact h.addr
  · rw [hd _ h.head_mem]; exact h.len
  · rw [hx]; exact h.ndescs
  · rw [hx]; exact h.cookie

section Table

variable {drv : Virtqueue} {desc : UInt16 → VringDesc} {free : List UInt16}
  {live : List Chain}

/-- The order of the live chains is of no account to the table. -/
theorem TableInv.perm (h : TableInv cfg drv desc free live)
    {live' : List Chain} (hp : live'.Perm live) :
    TableInv cfg drv desc free live' where
  thread := h.thread
  freeCnt := h.freeCnt
  part := ((List.Perm.refl _).append (hp.flatMap_right _)).trans h.part
  chains := fun c hc => h.chains c (hp.mem_iff.mp hc)
  idle := fun i hi hn => h.idle i hi
    fun hm => hn ((hp.map _).mem_iff.mpr hm)

theorem TableInv.nodup (h : TableInv cfg drv desc free live) :
    (free ++ live.flatMap Chain.descs).Nodup :=
  h.part.nodup_iff.mpr (nodup_indices cfg.num_le)

theorem TableInv.free_nodup (h : TableInv cfg drv desc free live) :
    free.Nodup := (List.nodup_append'.mp h.nodup).1

theorem TableInv.mem_iff (h : TableInv cfg drv desc free live) (i : UInt16) :
    i ∈ free ++ live.flatMap Chain.descs ↔ i.toNat < cfg.num := by
  rw [h.part.mem_iff, mem_indices cfg.num_le]

/-- Free descriptors belong to no live chain. -/
theorem TableInv.free_disjoint (h : TableInv cfg drv desc free live)
    {c : Chain} (hc : c ∈ live) {x : UInt16} (hx : x ∈ c.descs) :
    x ∉ free := by
  intro hf
  exact List.disjoint_of_nodup_append h.nodup hf
    (List.mem_flatMap.mpr ⟨c, hc, hx⟩)

/-- The first live chain shares no descriptor with the others. -/
theorem TableInv.head_disjoint {c : Chain}
    (h : TableInv cfg drv desc free (c :: live)) {c' : Chain}
    (hc' : c' ∈ live) {x : UInt16} (hx : x ∈ c'.descs) : x ∉ c.descs := by
  have hnd := (List.nodup_append'.mp h.nodup).2.1
  rw [List.flatMap_cons] at hnd
  intro hxc
  exact List.disjoint_of_nodup_append hnd hxc
    (List.mem_flatMap.mpr ⟨c', hc', hx⟩)

theorem length_le_flatMap {l : List Chain} (h : ∀ c ∈ l, c.descs ≠ []) :
    l.length ≤ (l.flatMap Chain.descs).length := by
  induction l with
  | nil => simp
  | cons c l ih =>
    have hc : 0 < c.descs.length := List.length_pos_iff.mpr (h c (by simp))
    have := ih fun c' hc' => h c' (by simp [hc'])
    simp only [List.length_cons, List.flatMap_cons, List.length_append]
    omega

/-- Every live chain takes a descriptor from the free list. -/
theorem TableInv.length_le (h : TableInv cfg drv desc free live) :
    free.length + live.length ≤ cfg.num := by
  have hlen := h.part.length_eq
  rw [length_indices, List.length_append] at hlen
  have := length_le_flatMap fun c hc => (h.chains c hc).nonempty
  omega

theorem TableInv.freeCnt_toNat (h : TableInv cfg drv desc free live) :
    drv.vqFreeCnt.toNat = free.length := by
  have := h.length_le
  have := cfg.num_le
  rw [h.freeCnt, UInt16.toNat_ofNat']
  omega

end Table

theorem VqInv.length_le (h : VqInv cfg s f) :
    f.free.length + f.avail.length + f.held.length + f.used.length ≤
      cfg.num := by
  have := h.table.length_le
  simp only [Flow.live, List.length_append, List.length_map] at this
  omega

/-- The used queue is as long as the counters say. -/
theorem LogInv.used_length (h : LogInv cfg s f) :
    s.returned.length = s.got.length + f.used.length := by
  have := congrArg List.length h.back
  have := h.gotLen
  simp only [List.length_drop, List.length_map] at *
  omega

/-- Comparing the wrapped counters decides whether a queue is empty: a
queue is never as long as the counters' range. -/
theorem VqInv.used_empty_iff (h : VqInv cfg s f) :
    s.drv.vqUsedConsIdx = s.ring.used.idx ↔ f.used = [] := by
  have hcap := h.length_le
  have hnum := cfg.num_le
  have hulen := h.log.used_length
  rw [h.rings.usedCons, h.rings.usedIdx,
    counter_eq_iff h.log.gotLen (by omega), ← List.length_eq_zero_iff]
  omega

theorem VqInv.avail_empty_iff (h : VqInv cfg s f) :
    s.dev.vqAvailableIdx = s.ring.avail.idx ↔ f.avail = [] := by
  have hcap := h.length_le
  have hnum := cfg.num_le
  have hsent := h.log.sent
  rw [h.rings.availCons, h.rings.availIdx,
    counter_eq_iff (by omega) (by omega), ← List.length_eq_zero_iff]
  omega

/-! ## `virtqueue_add_buffer` -/

theorem ofInt_natCast16 (n : Nat) : UInt16.ofInt (n : Int) = UInt16.ofNat n := by
  apply UInt16.toNat_inj.mp
  simp [UInt16.ofInt]
  omega

/-- **`virtqueue_add_buffer`** on a free segment of the size asked for. -/
theorem virtqueueAddBuffer_spec {vq : Virtqueue} {vr : Vring}
    (bufList : Nat → VirtqueueBuf) {readable writable : Int}
    (cookie : UInt64) {e : UInt16} {pre : List UInt16} (hnd : pre.Nodup)
    (hlen : readable + writable = pre.length)
    (hl : Linked (nextOf vr.desc) e vq.vqDescHeadIdx pre) :
    ∃ desc, virtqueueAddBuffer vq vr bufList readable writable cookie =
      (VQUEUE_SUCCESS,
        { vq with
          vqDescx := Function.update vq.vqDescx vq.vqDescHeadIdx
            ⟨cookie, UInt16.ofNat pre.length⟩
          vqDescHeadIdx := e
          vqFreeCnt := vq.vqFreeCnt - UInt16.ofNat pre.length
          vqQueuedCnt := vq.vqQueuedCnt + 1 },
        { vr with
          desc := desc
          avail := { vr.avail with
            ring := Function.update vr.avail.ring
              (vr.avail.idx &&& (vq.vqNentries - 1)) vq.vqDescHeadIdx
            idx := vr.avail.idx + 1 } }) ∧
      nextOf desc = nextOf vr.desc ∧ (∀ x, x ∉ pre → desc x = vr.desc x) ∧
      ∀ j x, pre[j]? = some x → desc x =
        { addr := metalIoVirtToPhys vq.shmIo (bufList j).buf
          len := (bufList j).len.toUInt32
          flags := descFlags readable (readable + writable) j
          next := nextOf vr.desc x } := by
  have htoNat : (readable + writable).toNat = pre.length := by omega
  have hof : UInt16.ofInt (readable + writable) = UInt16.ofNat pre.length := by
    rw [hlen, ofInt_natCast16]
  let dxp : VqDescExtra := ⟨cookie, UInt16.ofNat pre.length⟩
  obtain ⟨hidx, hnext, hout, hin⟩ := addBufferLoop_spec
    { vq with vqDescx := Function.update vq.vqDescx vq.vqDescHeadIdx dxp }
    bufList readable (readable + writable) pre 0 vq.vqDescHeadIdx vr.desc hnd hl _ rfl
  refine ⟨_, ?_, hnext, hout, fun j x hj => ?_⟩
  · simp only [virtqueueAddBuffer, vqRingAddBuffer, vqRingUpdateAvail, hof,
      htoNat, dxp] at hidx ⊢
    rw [hidx]
  · rw [hin j x hj, Nat.zero_add]
    rfl

/-- The table after `virtqueue_add_buffer`: the segment has become a
live chain. -/
theorem TableInv.add {drv drv' : Virtqueue} {desc desc' : UInt16 → VringDesc}
    {rest : List UInt16} {live : List Chain} {c : Chain}
    (h : TableInv cfg drv desc (c.descs ++ rest) live)
    (hhead : c.call.head = drv.vqDescHeadIdx) (hne : c.descs ≠ [])
    (hneeded : c.call.needed = c.descs.length) (hcookie : c.call.cookie ≠ 0)
    (hnext : nextOf desc' = nextOf desc)
    (hout : ∀ x, x ∉ c.descs → desc' x = desc x)
    (hin : ∀ j x, c.descs[j]? = some x →
      (desc' x).flags = descFlags c.call.readable c.call.needed j)
    (haddr : (desc' c.call.head).addr = metalIoVirtToPhys cfg.drvIo c.call.first.buf)
    (hlen : (desc' c.call.head).len = c.call.first.len.toUInt32)
    (hdescx : drv'.vqDescx = Function.update drv.vqDescx drv.vqDescHeadIdx
      ⟨c.call.cookie, UInt16.ofNat c.descs.length⟩)
    (hidx : Linked (nextOf desc) VQ_RING_DESC_CHAIN_END drv'.vqDescHeadIdx rest)
    (hseg : Linked (nextOf desc) drv'.vqDescHeadIdx drv.vqDescHeadIdx c.descs)
    (hcnt : drv'.vqFreeCnt = drv.vqFreeCnt - UInt16.ofNat c.descs.length) :
    TableInv cfg drv' desc' rest (c :: live) := by
  have hsep : ∀ c' ∈ live, ∀ x ∈ c'.descs, x ∉ c.descs := by
    intro c' hc' x hx hxc
    exact h.free_disjoint hc' hx (by simp [hxc])
  have hmem : c.call.head ∈ c.descs := by
    cases hd : c.descs with
    | nil => exact absurd hd hne
    | cons x l =>
      rw [hd] at hseg
      simp [hhead, hseg.1]
  refine ⟨by rw [hnext]; exact hidx, ?_, ?_, ?_, ?_⟩
  · rw [hcnt, h.freeCnt, List.length_append, UInt16.ofNat_add]
    grind
  · refine List.Perm.trans ?_ h.part
    rw [List.flatMap_cons, ← List.append_assoc]
    exact List.perm_append_comm.append_right _
  · intro c' hc'
    rcases List.mem_cons.mp hc' with rfl | hold
    · refine ⟨⟨drv'.vqDescHeadIdx, ?_⟩, hne, hneeded, hin, haddr, hlen, ?_, ?_,
        hcookie⟩
      · rw [hnext, hhead]; exact hseg
      · rw [hdescx, hhead]; simp
      · rw [hdescx, hhead]; simp
    · -- a chain that was live before shares no descriptor with the new one
      refine (h.chains c' hold).frame (fun x hx => hout x (hsep c' hold x hx)) ?_
      rw [hdescx, Function.update_of_ne]
      rintro heq
      exact hsep c' hold _ (h.chains c' hold).head_mem
        (by rw [heq, ← hhead]; exact hmem)
  · intro i hi hnot
    simp only [List.map_cons, List.mem_cons, not_or] at hnot
    rw [hdescx, Function.update_of_ne (by rw [← hhead]; exact hnot.1)]
    exact h.idle i hi hnot.2

/-- The flow after adding chain `c`. -/
def Flow.add (f : Flow) (c : Chain) : Flow :=
  { f with
    free := f.free.drop c.descs.length
    avail := f.avail ++ [c] }

theorem Flow.live_add (f : Flow) (c : Chain) :
    (f.add c).live.Perm (c :: f.live) := by
  simp only [Flow.add, Flow.live, List.append_assoc]
  exact List.perm_middle

theorem LogInv.add (h : LogInv cfg s f) {c : Chain}
    (hnum : c.num = s.added.length) {drv : Virtqueue} {ring : Vring} :
    LogInv cfg { s with drv := drv, ring := ring, added := s.added ++ [c.call] }
      (f.add c) := by
  have hgrow : ∀ {j : Nat} {a : Added}, s.added[j]? = some a →
      (s.added ++ [c.call])[j]? = some a := by
    intro j a ha
    rw [List.getElem?_append_left (List.getElem?_eq_some_iff.mp ha).1]
    exact ha
  refine ⟨?_, ?_, ?_, ?_, ?_, h.heldNum, h.heldTaken, h.back, h.gotLen, ?_⟩
  · intro c' hc'
    rcases List.mem_cons.mp ((f.live_add c).mem_iff.mp hc') with rfl | hold
    · simp [hnum]
    · exact hgrow (h.calls c' hold)
  · simp only [List.length_append, List.length_singleton, List.range_succ]
    refine (((f.live_add c).map _).append_right _).trans ?_
    rw [List.map_cons, List.cons_append, hnum]
    exact (h.nums.cons _).trans (List.perm_append_singleton _ _).symm
  · simp only [Flow.add, List.length_append, List.length_singleton, h.sent]
    omega
  · simp only [Flow.add, List.map_append, h.availNum, List.map_cons,
      List.map_nil, List.length_append, List.length_singleton, hnum, h.sent]
    rw [List.range'_concat, Nat.one_mul]
  · intro i b hi
    obtain ⟨a, ha, hb⟩ := h.takenView i b hi
    exact ⟨a, hgrow ha, hb⟩
  · intro i g hi
    obtain ⟨j, len, a, hj, ha, hg⟩ := h.gotView i g hi
    exact ⟨j, len, a, hj, hgrow ha, hg⟩

/-- Adding keeps the invariant: a prefix of the free list becomes the
descriptors of a new chain at the end of the available queue. -/
theorem VqInv.addBuffer (h : VqInv cfg s f) (bufList : Nat → VirtqueueBuf)
    {readable writable : Int} {cookie : UInt64}
    (hpos : 1 ≤ readable + writable)
    (hroom : readable + writable ≤ s.drv.vqFreeCnt.toNat)
    (hcookie : cookie ≠ 0) :
    ∃ c : Chain, c.num = s.added.length ∧
      c.call = ⟨s.drv.vqDescHeadIdx, bufList 0, readable, readable + writable,
        cookie⟩ ∧
      VqInv cfg (s.addBuffer bufList readable writable cookie) (f.add c) := by
  have hcnt := h.table.freeCnt_toNat
  have hcap := h.length_le
  -- the segment of the free list the chain gets
  obtain ⟨pre, rest, hfree, hlen⟩ : ∃ pre rest, f.free = pre ++ rest ∧
      readable + writable = (pre.length : Int) := by
    refine ⟨f.free.take (readable + writable).toNat,
      f.free.drop (readable + writable).toNat, by simp, ?_⟩
    rw [List.length_take]
    omega
  have hne : pre ≠ [] := by
    rintro rfl
    simp only [List.length_nil] at hlen
    omega
  have hpre0 : pre[0]? = some s.drv.vqDescHeadIdx := by
    have hl := hfree ▸ h.table.thread
    cases pre with
    | nil => exact absurd rfl hne
    | cons x l => simp [hl.1]
  have hnd : pre.Nodup := by
    have := h.table.free_nodup
    rw [hfree] at this
    exact (List.nodup_append'.mp this).1
  obtain ⟨m, hseg, hrest⟩ := linked_append.mp (hfree ▸ h.table.thread)
  obtain ⟨desc, hadd, hnext, hout, hin⟩ := virtqueueAddBuffer_spec
    bufList cookie hnd hlen hseg
  let c : Chain :=
    { num := s.added.length
      descs := pre
      call := ⟨s.drv.vqDescHeadIdx, bufList 0, readable, readable + writable,
        cookie⟩ }
  have hdrop : (f.add c).free = rest := by simp [Flow.add, c, hfree]
  refine ⟨c, rfl, rfl, ?_⟩
  simp only [VqSystem.addBuffer, hadd]
  refine ⟨⟨h.fixed.drvDev, h.fixed.devDev, h.fixed.drvNum, h.fixed.devNum,
    h.fixed.drvRing, h.fixed.devRing, h.fixed.drvIo, h.fixed.devIo,
    h.fixed.drvNotify, h.fixed.devNotify⟩, ?_, ?_, h.log.add (c := c) rfl⟩
  · have htab : TableInv cfg s.drv s.ring.desc (c.descs ++ rest) f.live :=
      hfree ▸ h.table
    rw [hdrop]
    refine TableInv.perm ?_ (f.live_add c)
    have haddr : (desc s.drv.vqDescHeadIdx).addr =
        metalIoVirtToPhys cfg.drvIo (bufList 0).buf := by
      rw [hin 0 _ hpre0, h.fixed.drvIo]
    have hlen0 : (desc s.drv.vqDescHeadIdx).len = (bufList 0).len.toUInt32 := by
      rw [hin 0 _ hpre0]
    exact htab.add rfl hne hlen hcookie hnext hout
      (fun j x hj => congrArg VringDesc.flags (hin j x hj)) haddr hlen0 rfl
      hrest hseg rfl
  · -- the slot written is the one behind the queue, and there is room
    have hfl : f.free.length = pre.length + rest.length := by
      rw [hfree, List.length_append]
    have hroom' : (f.avail.map (·.call.head)).length < cfg.num := by
      rw [List.length_map]; omega
    have hslot : s.ring.avail.idx &&& (s.drv.vqNentries - 1) =
        cfg.slot (s.taken.length + (f.avail.map (·.call.head)).length) := by
      rw [h.rings.availIdx, h.fixed.drvNum, h.log.sent, List.length_map]
      rfl
    refine ⟨by simp [h.rings.availIdx], h.rings.availCons, ?_,
      h.rings.usedIdx, h.rings.usedCons, h.rings.usedRing⟩
    simp only [Flow.add, List.map_append, List.map_cons, List.map_nil, hslot]
    exact h.rings.availRing.push cfg.slotsOf hroom' _

/-! ## `virtqueue_get_buffer` -/

/-- **`virtqueue_get_buffer`** when the next used entry names a live
chain: the walk of `vq_ring_free_chain` ends on the chain's last
descriptor, whose `next` is pointed at the old free list. -/
theorem virtqueueGetBuffer_spec {vq : Virtqueue} {vr : Vring}
    {io : MetalIoRegion} {c : Chain} {len : UInt32}
    (hne : vq.vqUsedConsIdx ≠ vr.used.idx)
    (helem : vr.used.ring (vq.vqUsedConsIdx &&& (vq.vqNentries - 1)) =
      ⟨c.call.head.toUInt32, len⟩)
    (hc : ChainOk io vr.desc vq.vqDescx c) (hle : c.descs.length ≤ 2 ^ 15) :
    ∃ pre last, c.descs = pre ++ [last] ∧ virtqueueGetBuffer vq vr =
      some (some ⟨c.call.cookie, len, vq.vqUsedConsIdx &&& (vq.vqNentries - 1)⟩,
        { vq with
          vqUsedConsIdx := vq.vqUsedConsIdx + 1
          vqFreeCnt := vq.vqFreeCnt + UInt16.ofNat c.descs.length
          vqDescx := Function.update vq.vqDescx c.call.head ⟨0, 0⟩
          vqDescHeadIdx := c.call.head },
        { vr with desc := setNext vr.desc last vq.vqDescHeadIdx }) := by
  obtain ⟨pre, last, hdescs⟩ : ∃ pre last, c.descs = pre ++ [last] :=
    ⟨_, _, (List.dropLast_append_getLast hc.nonempty).symm⟩
  obtain ⟨e, hl⟩ := hc.link
  have hlen : c.descs.length = pre.length + 1 := by rw [hdescs]; simp
  have hwalk : freeChainLoop vr.desc (2 ^ 16) c.call.head
      (UInt16.ofNat c.descs.length - 1) = some (last, 0) := by
    have hspec := freeChainLoop_spec (e := e)
      c.call.readable pre last (2 ^ 16) 0 c.call.head
      (UInt16.ofNat c.descs.length - 1) (by omega) (hdescs ▸ hl)
      (fun j y hj => by
        rw [hc.flags j y (hdescs ▸ hj), hc.needed, hlen, Nat.zero_add,
          Nat.zero_add])
    rw [hspec, hlen, UInt16.ofNat_add, UInt16.ofNat_one]
    congr 2
    grind
  have hflag : (vr.desc c.call.head).flags &&& VRING_DESC_F_INDIRECT = 0 := by
    obtain ⟨i, hi⟩ := List.mem_iff_getElem?.mp hc.head_mem
    rw [hc.flags i _ hi, descFlags_indirect]
  refine ⟨pre, last, hdescs, ?_⟩
  simp only [virtqueueGetBuffer, if_neg hne, helem, UInt16.toUInt16_toUInt32,
    vqRingFreeChain, hflag, if_true, hc.ndescs, hwalk, Option.map_some,
    Function.update_self, Function.update_idem, hc.cookie]

/-- The table after `virtqueue_get_buffer`: the chain is free again, in
front of the old free list. -/
theorem TableInv.get {drv drv' : Virtqueue} {desc : UInt16 → VringDesc}
    {free : List UInt16} {live : List Chain} {c : Chain} {pre : List UInt16}
    {last : UInt16} (h : TableInv cfg drv desc free (c :: live))
    (hdescs : c.descs = pre ++ [last])
    (hhead : drv'.vqDescHeadIdx = c.call.head)
    (hcnt : drv'.vqFreeCnt = drv.vqFreeCnt + UInt16.ofNat c.descs.length)
    (hdescx : drv'.vqDescx = Function.update drv.vqDescx c.call.head ⟨0, 0⟩) :
    TableInv cfg drv' (setNext desc last drv.vqDescHeadIdx)
      (c.descs ++ free) live := by
  have hc := h.chains c (by simp)
  have hcnd : c.descs.Nodup := by
    have hnd := (List.nodup_append'.mp h.nodup).2.1
    rw [List.flatMap_cons] at hnd
    exact (List.nodup_append'.mp hnd).1
  have hlast : last ∈ c.descs := by simp [hdescs]
  obtain ⟨e, hl⟩ := hc.link
  refine ⟨?_, ?_, ?_, ?_, ?_⟩
  · -- the chain in front of the free list is one list again
    rw [hhead, nextOf_setNext]
    refine linked_append.mpr ⟨drv.vqDescHeadIdx, ?_, ?_⟩
    · rw [hdescs] at hl hcnd ⊢
      exact hl.redirect hcnd _
    · refine h.thread.congr fun x hx => ?_
      rw [Function.update_of_ne]
      rintro rfl
      exact h.free_disjoint (by simp) hlast hx
  · rw [hcnt, h.freeCnt, List.length_append, UInt16.ofNat_add, UInt16.add_comm]
  · refine List.Perm.trans ?_ h.part
    rw [List.flatMap_cons, ← List.append_assoc]
    exact List.perm_append_comm.append_right _
  · intro c' hc'
    have hsep : ∀ x ∈ c'.descs, x ∉ c.descs := fun x hx =>
      h.head_disjoint hc' hx
    have hc'ok := h.chains c' (by simp [hc'])
    refine hc'ok.frame (fun x hx => ?_) ?_
    · rw [setNext, Function.update_of_ne]
      rintro rfl
      exact hsep x hx hlast
    · rw [hdescx, Function.update_of_ne]
      intro heq
      exact hsep _ hc'ok.head_mem (heq ▸ hc.head_mem)
  · intro i hi hnot
    rw [hdescx]
    by_cases hic : i = c.call.head
    · simp [hic]
    · rw [Function.update_of_ne hic]
      exact h.idle i hi (by simp [hic, hnot])

/-- The flow after the driver got chain `c` back. -/
def Flow.get (f : Flow) (c : Chain) : Flow :=
  { f with
    free := c.descs ++ f.free
    used := f.used.tail }

theorem Flow.live_get {f : Flow} {c : Chain} {len : UInt32}
    {used : List (Chain × UInt32)} (hu : f.used = (c, len) :: used) :
    f.live.Perm (c :: (f.get c).live) := by
  simp only [Flow.get, Flow.live, hu, List.tail_cons, List.map_cons]
  exact List.perm_middle

theorem LogInv.get (h : LogInv cfg s f) {c : Chain} {len : UInt32}
    {used : List (Chain × UInt32)} (hu : f.used = (c, len) :: used)
    {g : GotBuffer} (hcookie : g.cookie = c.call.cookie) (hlen : g.len = len)
    {drv : Virtqueue} {ring : Vring} :
    LogInv cfg { s with drv := drv, ring := ring, got := s.got ++ [g] }
      (f.get c) := by
  have hlive := Flow.live_get hu
  have hsub : ∀ c' ∈ (f.get c).live, c' ∈ f.live := fun c' hc' =>
    hlive.mem_iff.mpr (by simp [hc'])
  have hback : s.returned.drop s.got.length =
      (c.num, len) :: used.map fun u => (u.1.num, u.2) := by
    rw [h.back, hu]
    rfl
  have hlt : s.got.length < s.returned.length := by
    have := h.used_length
    rw [hu, List.length_cons] at this
    omega
  -- the number got is the oldest one that was returned
  have hgetlast : s.returned[s.got.length]? = some (c.num, len) := by
    have h0 := congrArg (fun l => l[0]?) hback
    simpa using h0
  refine ⟨fun c' hc' => h.calls c' (hsub c' hc'), ?_, h.sent, h.availNum,
    h.takenView, h.heldNum, h.heldTaken, ?_, ?_, ?_⟩
  · -- the number got joins those already got
    refine List.Perm.trans ?_ h.nums
    have hnums := (hlive.map (·.num)).append_right
      ((s.returned.take s.got.length).map Prod.fst)
    refine List.Perm.trans ?_ hnums.symm
    simp only [List.length_append, List.length_singleton,
      List.take_add_one, hgetlast, Option.toList_some, List.map_append,
      List.map_cons, List.map_nil]
    rw [← List.append_assoc]
    exact List.perm_append_singleton _ _
  · simp only [List.length_append, List.length_singleton, Flow.get, hu,
      List.tail_cons]
    rw [← List.drop_drop, hback]
    rfl
  · simp only [List.length_append, List.length_singleton]
    omega
  · intro i g' hi
    rcases getElem?_concat hi with hold | ⟨rfl, rfl⟩
    · exact h.gotView i g' hold
    · exact ⟨c.num, len, c.call, hgetlast,
        h.calls c (hlive.mem_iff.mpr (by simp)), hcookie, hlen⟩

/-- **`virtqueue_get_buffer` keeps the invariant and always returns**:
null on an empty used queue, otherwise the first chain of it. -/
theorem VqInv.getBuffer (h : VqInv cfg s f) :
    (f.used = [] ∧
      virtqueueGetBuffer s.drv s.ring = some (none, s.drv, s.ring)) ∨
    ∃ c len used g drv ring, f.used = (c, len) :: used ∧
      virtqueueGetBuffer s.drv s.ring = some (some g, drv, ring) ∧
      g.cookie = c.call.cookie ∧ g.len = len ∧
      VqInv cfg { s with drv := drv, ring := ring, got := s.got ++ [g] }
        (f.get c) := by
  cases hu : f.used with
  | nil =>
    left
    have heq := h.used_empty_iff.mpr hu
    exact ⟨rfl, by simp [virtqueueGetBuffer, heq]⟩
  | cons u used =>
    right
    obtain ⟨c, len⟩ := u
    have hne : s.drv.vqUsedConsIdx ≠ s.ring.used.idx := by
      intro heq
      have := h.used_empty_iff.mp heq
      simp [hu] at this
    -- the window on the used ring moves by one
    have hwin := h.rings.usedRing
    rw [hu, List.map_cons] at hwin
    obtain ⟨helem, hwin'⟩ := hwin.pop
    have hlive := Flow.live_get hu
    have htab : TableInv cfg s.drv s.ring.desc f.free (c :: (f.get c).live) :=
      h.table.perm hlive.symm
    -- the count freed is kept in 16 bits
    have hcle : c.descs.length ≤ 2 ^ 15 := by
      have hnum := cfg.num_le
      have hlen := htab.part.length_eq
      simp only [length_indices, List.length_append, List.flatMap_cons] at hlen
      omega
    have hslot : s.drv.vqUsedConsIdx &&& (s.drv.vqNentries - 1) =
        cfg.slot s.got.length := by
      rw [h.rings.usedCons, h.fixed.drvNum]
      rfl
    obtain ⟨pre, last, hdescs, hget⟩ := virtqueueGetBuffer_spec
      (c := c) hne
      (by rw [hslot]; exact helem) (htab.chains c (by simp)) hcle
    refine ⟨c, len, used, _, _, _, rfl, hget, rfl, rfl, ?_⟩
    refine ⟨⟨h.fixed.drvDev, h.fixed.devDev, h.fixed.drvNum, h.fixed.devNum,
      h.fixed.drvRing, h.fixed.devRing, h.fixed.drvIo, h.fixed.devIo,
      h.fixed.drvNotify, h.fixed.devNotify⟩, htab.get hdescs rfl rfl rfl, ?_,
      h.log.get hu rfl rfl⟩
    refine ⟨h.rings.availIdx, h.rings.availCons, h.rings.availRing,
      h.rings.usedIdx, ?_, ?_⟩
    · simp [h.rings.usedCons]
    · simpa [Flow.get, hu] using hwin'

/-! ## The device's calls -/

/-- The flow after the device took the first available chain. -/
def Flow.take (f : Flow) (c : Chain) : Flow :=
  { f with
    avail := f.avail.tail
    held := f.held ++ [c] }

theorem Flow.live_take {f : Flow} {c : Chain} {avail : List Chain}
    (ha : f.avail = c :: avail) : (f.take c).live.Perm f.live := by
  simp only [Flow.take, Flow.live, ha, List.tail_cons, List.append_assoc,
    List.cons_append, List.nil_append]
  rw [← List.append_assoc]
  exact List.perm_middle.trans (by simp)

theorem LogInv.take (h : LogInv cfg s f) {c : Chain} {avail : List Chain}
    (ha : f.avail = c :: avail) (hnum : c.num = s.taken.length)
    {dev : Virtqueue} :
    LogInv cfg { s with
      dev := dev
      taken := s.taken ++ [c.call.view cfg]
      held := s.held ++ [s.taken.length] } (f.take c) := by
  have hlive : (f.take c).live.Perm f.live := Flow.live_take ha
  have hsent := h.sent
  have hnums := h.availNum
  rw [ha, List.map_cons, List.length_cons, List.range'_succ,
    List.cons.injEq] at hnums
  refine ⟨fun c' hc' => h.calls c' (hlive.mem_iff.mp hc'),
    ((hlive.map _).append_right _).trans h.nums, ?_, ?_, ?_, ?_, ?_,
    h.back, h.gotLen, h.gotView⟩
  · simp only [Flow.take, ha, List.tail_cons, List.length_append,
      List.length_singleton]
    rw [hsent, ha, List.length_cons]
    omega
  · simp only [Flow.take, ha, List.tail_cons, List.length_append,
      List.length_singleton]
    exact hnums.2
  · intro i b hi
    rcases getElem?_concat hi with hold | ⟨rfl, rfl⟩
    · exact h.takenView i b hold
    · exact ⟨c.call, hnum ▸ h.calls c (by simp [Flow.live, ha]), rfl⟩
  · simp only [Flow.take, List.map_append, List.map_cons, List.map_nil, hnum]
    exact h.heldNum.append_right _
  · intro c' hc'
    simp only [Flow.take, List.mem_append, List.mem_singleton] at hc'
    rw [List.length_append, List.length_singleton]
    rcases hc' with hold | rfl
    · have hlt := h.heldTaken c' hold
      omega
    · omega

/-- **`virtqueue_get_available_buffer` keeps the invariant**: null on an
empty available queue, otherwise the first chain of it as it was added. -/
theorem VqInv.getAvailableBuffer (h : VqInv cfg s f) :
    (f.avail = [] ∧
      virtqueueGetAvailableBuffer s.dev s.ring = (none, s.dev)) ∨
    ∃ c avail dev, f.avail = c :: avail ∧ c.num = s.taken.length ∧
      virtqueueGetAvailableBuffer s.dev s.ring =
        (some (c.call.view cfg), dev) ∧
      VqInv cfg { s with
        dev := dev
        taken := s.taken ++ [c.call.view cfg]
        held := s.held ++ [s.taken.length] } (f.take c) := by
  cases ha : f.avail with
  | nil =>
    left
    have heq := h.avail_empty_iff.mpr ha
    exact ⟨rfl, by simp [virtqueueGetAvailableBuffer, heq]⟩
  | cons c avail =>
    right
    have hne : s.dev.vqAvailableIdx ≠ s.ring.avail.idx := by
      intro heq
      have := h.avail_empty_iff.mp heq
      simp [ha] at this
    have hwin := h.rings.availRing
    rw [ha, List.map_cons] at hwin
    obtain ⟨helem, hwin'⟩ := hwin.pop
    have hlive : (f.take c).live.Perm f.live := Flow.live_take ha
    have hcmem : c ∈ f.live := by simp [Flow.live, ha]
    have hc := h.table.chains c hcmem
    -- the chains of the available queue are numbered without a gap
    have hnums := h.log.availNum
    rw [ha, List.map_cons, List.length_cons, List.range'_succ,
      List.cons.injEq] at hnums
    have hslot : s.dev.vqAvailableIdx &&& (s.dev.vqNentries - 1) =
        cfg.slot s.taken.length := by
      rw [h.rings.availCons, h.fixed.devNum]
      rfl
    have hstep : virtqueueGetAvailableBuffer s.dev s.ring =
        (some (c.call.view cfg),
          { s.dev with vqAvailableIdx := s.dev.vqAvailableIdx + 1 }) := by
      simp only [virtqueueGetAvailableBuffer, if_neg hne, hslot, helem,
        virtqueueGetBufferAddr, virtqueuePhysToVirt, virtqueueGetBufferLength,
        hc.addr, hc.len, h.fixed.devIo]
      rfl
    refine ⟨c, avail, _, rfl, hnums.1, hstep, ?_⟩
    refine ⟨⟨h.fixed.drvDev, h.fixed.devDev, h.fixed.drvNum, h.fixed.devNum,
      h.fixed.drvRing, h.fixed.devRing, h.fixed.drvIo, h.fixed.devIo,
      h.fixed.drvNotify, h.fixed.devNotify⟩, h.table.perm hlive, ?_, ?_⟩
    · refine ⟨h.rings.availIdx, by simp [h.rings.availCons], ?_,
        h.rings.usedIdx, h.rings.usedCons, h.rings.usedRing⟩
      simpa [Flow.take, ha] using hwin'
    · exact h.log.take ha hnums.1

/-- The flow after the device returned the chain between `l₁` and `l₂`. -/
def Flow.put (f : Flow) (l₁ l₂ : List Chain) (c : Chain) (len : UInt32) :
    Flow :=
  { f with
    held := l₁ ++ l₂
    used := f.used ++ [(c, len)] }

theorem Flow.live_put {f : Flow} {l₁ l₂ : List Chain} {c : Chain}
    (hh : f.held = l₁ ++ c :: l₂) (len : UInt32) :
    (f.put l₁ l₂ c len).live.Perm f.live := by
  have hput : (f.put l₁ l₂ c len).live =
      f.avail ++ l₁ ++ (l₂ ++ f.used.map Prod.fst) ++ [c] := by
    simp [Flow.put, Flow.live]
  have hlive : f.live = f.avail ++ l₁ ++ c :: (l₂ ++ f.used.map Prod.fst) := by
    simp [Flow.live, hh]
  rw [hput, hlive]
  exact (List.perm_append_singleton _ _).trans List.perm_middle.symm

/-- The device's bound check lets the head of every live chain pass. -/
theorem VqInv.head_lt (h : VqInv cfg s f) {c : Chain} (hc : c ∈ f.live) :
    ¬ s.dev.vqNentries ≤ c.call.head := by
  have hmem := (h.table.mem_iff c.call.head).mp (List.mem_append_right _
    (List.mem_flatMap.mpr ⟨c, hc, (h.table.chains c hc).head_mem⟩))
  rw [h.fixed.devNum, UInt16.le_iff_toNat_le, cfg.toNat_nentries]
  omega

theorem LogInv.put (h : LogInv cfg s f) {l₁ l₂ : List Chain} {c : Chain}
    (hsplit : f.held = l₁ ++ c :: l₂) (len : UInt32) {dev : Virtqueue}
    {ring : Vring} :
    LogInv cfg { s with
      dev := dev
      ring := ring
      returned := s.returned ++ [(c.num, len)]
      held := s.held.erase c.num } (f.put l₁ l₂ c len) := by
  have hlive : (f.put l₁ l₂ c len).live.Perm f.live := Flow.live_put hsplit len
  have hgot := h.gotLen
  refine ⟨fun c' hc' => h.calls c' (hlive.mem_iff.mp hc'), ?_, h.sent,
    h.availNum, h.takenView, ?_, ?_, ?_, ?_, ?_⟩
  · rw [List.take_append_of_le_length hgot]
    exact ((hlive.map _).append_right _).trans h.nums
  · -- the number leaves the held ones wherever it stood
    refine (h.heldNum.erase c.num).trans ?_
    rw [hsplit]
    have hmid : ((l₁ ++ c :: l₂).map (·.num)).Perm
        (c.num :: (l₁ ++ l₂).map (·.num)) := List.perm_middle.map _
    refine (hmid.erase c.num).trans ?_
    rw [List.erase_cons_head]
    exact List.Perm.refl _
  · intro c' hc'
    refine h.heldTaken c' ?_
    simp only [Flow.put, List.mem_append] at hc'
    rw [hsplit]
    simp only [List.mem_append, List.mem_cons]
    tauto
  · rw [List.drop_append_of_le_length hgot, h.back]
    simp [Flow.put]
  · simp only [List.length_append]
    omega
  · intro i g hi
    obtain ⟨j', len', a', hj', hrest⟩ := h.gotView i g hi
    refine ⟨j', len', a', ?_, hrest⟩
    rw [List.getElem?_append_left (List.getElem?_eq_some_iff.mp hj').1]
    exact hj'

/-- **`virtqueue_add_consumed_buffer` keeps the invariant** on a chain
the device holds. -/
theorem VqInv.put (h : VqInv cfg s f) {l₁ l₂ : List Chain} {c : Chain}
    (hsplit : f.held = l₁ ++ c :: l₂) (len : UInt32) :
    VqInv cfg (s.addConsumedBuffer c.num c.call.head len)
      (f.put l₁ l₂ c len) := by
  have hc : c ∈ f.held := by simp [hsplit]
  have hcap := h.length_le
  have hlive : (f.put l₁ l₂ c len).live.Perm f.live := Flow.live_put hsplit len
  have hlt := h.head_lt (c := c) (by simp [Flow.live, hc])
  simp only [VqSystem.addConsumedBuffer, virtqueueAddConsumedBuffer, if_neg hlt]
  refine ⟨⟨h.fixed.drvDev, h.fixed.devDev, h.fixed.drvNum, h.fixed.devNum,
    h.fixed.drvRing, h.fixed.devRing, h.fixed.drvIo, h.fixed.devIo,
    h.fixed.drvNotify, h.fixed.devNotify⟩, h.table.perm hlive, ?_, ?_⟩
  · -- the chain leaves the held ones, so the used ring has a slot for it
    have hulen := h.log.used_length
    have hheldpos : 0 < f.held.length := List.length_pos_of_mem hc
    have hroom : (f.used.map fun u => (⟨u.1.call.head.toUInt32, u.2⟩ :
        VringUsedElem)).length < cfg.num := by
      rw [List.length_map]; omega
    have hslot : s.ring.used.idx &&& (s.dev.vqNentries - 1) =
        cfg.slot (s.got.length + (f.used.map fun u =>
          (⟨u.1.call.head.toUInt32, u.2⟩ : VringUsedElem)).length) := by
      rw [h.rings.usedIdx, h.fixed.devNum, hulen, List.length_map]
      rfl
    refine ⟨h.rings.availIdx, h.rings.availCons, h.rings.availRing,
      by simp [h.rings.usedIdx], h.rings.usedCons, ?_⟩
    simp only [Flow.put, List.map_append, List.map_cons, List.map_nil, hslot]
    exact h.rings.usedRing.push cfg.slotsOf hroom _
  · exact h.log.put hsplit len

theorem VqInv.addConsumedBuffer (h : VqInv cfg s f) {j : Nat}
    {a : AvailableBuffer} (hheld : j ∈ s.held) (htaken : s.taken[j]? = some a)
    (len : UInt32) :
    ∃ l₁ c l₂, f.held = l₁ ++ c :: l₂ ∧ c.num = j ∧ c.call.head = a.availIdx ∧
      VqInv cfg (s.addConsumedBuffer j a.availIdx len)
        (f.put l₁ l₂ c len) := by
  obtain ⟨c, hc, rfl⟩ := List.mem_map.mp (h.log.heldNum.mem_iff.mp hheld)
  obtain ⟨l₁, l₂, hsplit⟩ := List.append_of_mem hc
  have hhead : c.call.head = a.availIdx := by
    obtain ⟨b, hb, rfl⟩ := h.log.takenView c.num a htaken
    rw [h.log.calls c (by simp [Flow.live, hc])] at hb
    cases hb
    rfl
  exact ⟨l₁, c, l₂, hsplit, rfl, hhead, hhead ▸ h.put hsplit len⟩

/-! ## Notification calls -/

theorem VqConfig.slot_lt (cfg : VqConfig) (p : Nat) :
    (cfg.slot p).toNat < cfg.num := by
  have hle := cfg.num_le
  have hslot : cfg.slot p = UInt16.ofNat (p % cfg.num) :=
    counter_mask cfg.order_le p
  have hlt := Nat.mod_lt p cfg.num_pos
  rw [hslot, UInt16.toNat_ofNat']
  omega

/-- No ring slot is the cell of the event index behind the ring. -/
theorem VqConfig.slot_ne (cfg : VqConfig) (p : Nat) :
    cfg.slot p ≠ cfg.nentries.toUInt32.toUInt16 := by
  have hlt := cfg.slot_lt p
  rw [UInt16.toUInt16_toUInt32]
  intro heq
  rw [heq, cfg.toNat_nentries] at hlt
  omega

/-- Only the counters and the slots of the ring matter, and of the
queues not the pending count. -/
theorem VqInv.frame (h : VqInv cfg s f) {ring : Vring} {dq vq : UInt16}
    (hdesc : ring.desc = s.ring.desc) (hai : ring.avail.idx = s.ring.avail.idx)
    (hui : ring.used.idx = s.ring.used.idx)
    (ha : ∀ p, ring.avail.ring (cfg.slot p) = s.ring.avail.ring (cfg.slot p))
    (hu : ∀ p, ring.used.ring (cfg.slot p) = s.ring.used.ring (cfg.slot p)) :
    VqInv cfg { s with
      drv := { s.drv with vqQueuedCnt := dq }
      dev := { s.dev with vqQueuedCnt := vq }
      ring := ring } f where
  fixed := ⟨h.fixed.drvDev, h.fixed.devDev, h.fixed.drvNum, h.fixed.devNum,
    h.fixed.drvRing, h.fixed.devRing, h.fixed.drvIo, h.fixed.devIo,
    h.fixed.drvNotify, h.fixed.devNotify⟩
  table := by
    simp only [hdesc]
    exact ⟨h.table.thread, h.table.freeCnt, h.table.part, h.table.chains,
      h.table.idle⟩
  rings := ⟨hai.trans h.rings.availIdx, h.rings.availCons,
    h.rings.availRing.congr fun i _ => ha _, hui.trans h.rings.usedIdx,
    h.rings.usedCons, h.rings.usedRing.congr fun i _ => hu _⟩
  log := ⟨h.log.calls, h.log.nums, h.log.sent, h.log.availNum, h.log.takenView,
    h.log.heldNum, h.log.heldTaken, h.log.back, h.log.gotLen, h.log.gotView⟩

/-- What arming or suppressing notifications leaves alone. -/
structure SameQueues (cfg : VqConfig) (vr vr' : Vring) : Prop where
  desc : vr'.desc = vr.desc
  availIdx : vr'.avail.idx = vr.avail.idx
  usedIdx : vr'.used.idx = vr.used.idx
  avail : ∀ p, vr'.avail.ring (cfg.slot p) = vr.avail.ring (cfg.slot p)
  used : ∀ p, vr'.used.ring (cfg.slot p) = vr.used.ring (cfg.slot p)

theorem sameQueues_usedEvent (vr : Vring) (event : UInt16) :
    SameQueues cfg vr (setVringUsedEvent cfg.nentries.toUInt32 vr event) :=
  ⟨rfl, rfl, rfl, fun p => Function.update_of_ne (cfg.slot_ne p) _ _,
    fun _ => rfl⟩

theorem sameQueues_availEvent (vr : Vring) (event : UInt16) :
    SameQueues cfg vr (setVringAvailEvent cfg.nentries.toUInt32 vr event) :=
  ⟨rfl, rfl, rfl, fun _ => rfl,
    fun p => Function.update_of_ne (cfg.slot_ne p) _ _⟩

/-- Arming and suppressing set an event index, where the device has those,
and otherwise a flag; which one is a matter of the role. -/
theorem sameQueues_signal (vr : Vring) (eventIdx : Bool) (role : VirtioRole)
    (used avail availFlags usedFlags : UInt16) :
    SameQueues cfg vr (if eventIdx then
      match role with
      | .driver => setVringUsedEvent cfg.nentries.toUInt32 vr used
      | .device => setVringAvailEvent cfg.nentries.toUInt32 vr avail
    else
      match role with
      | .driver => { vr with avail := { vr.avail with flags := availFlags } }
      | .device => { vr with used := { vr.used with flags := usedFlags } }) := by
  cases eventIdx with
  | true =>
    cases role with
    | driver => exact sameQueues_usedEvent vr used
    | device => exact sameQueues_availEvent vr avail
  | false =>
    cases role <;> exact ⟨rfl, rfl, rfl, fun _ => rfl, fun _ => rfl⟩

theorem sameQueues_enableCb (vr : Vring) {vq : Virtqueue}
    (hvq : vq.vqRingNum = cfg.nentries.toUInt32) :
    SameQueues cfg vr (virtqueueEnableCb vq vr).2 := by
  simp only [virtqueueEnableCb, vqRingEnableInterrupt, armInterrupt, hvq]
  exact sameQueues_signal vr _ _ _ _ _ _

theorem sameQueues_disableCb (vr : Vring) {vq : Virtqueue}
    (hvq : vq.vqRingNum = cfg.nentries.toUInt32) :
    SameQueues cfg vr (virtqueueDisableCb vq vr) := by
  simp only [virtqueueDisableCb, hvq]
  exact sameQueues_signal vr _ _ _ _ _ _

theorem VqInv.notify (h : VqInv cfg s f) {ring : Vring} {dq vq : UInt16}
    (hs : SameQueues cfg s.ring ring) :
    VqInv cfg { s with
      drv := { s.drv with vqQueuedCnt := dq }
      dev := { s.dev with vqQueuedCnt := vq }
      ring := ring } f :=
  h.frame hs.desc hs.availIdx hs.usedIdx hs.avail hs.used

/-! ## The run lemma -/

/-- **One step keeps the ring invariant.** -/
theorem VqInv.step (h : VqInv cfg s f) {t : VqSystem} (hst : VqStep s t) :
    ∃ f', VqInv cfg t f' := by
  have hsame : SameQueues cfg s.ring s.ring :=
    ⟨rfl, rfl, rfl, fun _ => rfl, fun _ => rfl⟩
  cases hst with
  | addBuffer bufList readable writable cookie hpos hroom hcookie =>
    obtain ⟨c, -, -, hc⟩ := h.addBuffer bufList hpos hroom hcookie
    exact ⟨_, hc⟩
  | getBuffer hget =>
    rcases h.getBuffer with
      ⟨-, hs⟩ | ⟨c, len, used, g, drv, ring, -, hs, -, -, hinv⟩
    · simp [VqSystem.getBuffer, hs] at hget
      exact ⟨f, hget ▸ h⟩
    · simp only [VqSystem.getBuffer, hs, Option.map_some, Option.toList_some,
        Option.some.injEq] at hget
      exact ⟨_, hget ▸ hinv⟩
  | getAvailableBuffer =>
    rcases h.getAvailableBuffer with
      ⟨-, hs⟩ | ⟨c, avail, dev, -, -, hs, hinv⟩
    · exact ⟨f, by simpa only [VqSystem.getAvailableBuffer, hs] using h⟩
    · exact ⟨_, by simpa only [VqSystem.getAvailableBuffer, hs] using hinv⟩
  | addConsumedBuffer j a len hheld htaken =>
    obtain ⟨l₁, c, l₂, -, -, -, hinv⟩ := h.addConsumedBuffer hheld htaken len
    exact ⟨_, hinv⟩
  | drvKick => exact ⟨f, h.notify hsame⟩
  | devKick => exact ⟨f, h.notify hsame⟩
  | drvEnableCb =>
    exact ⟨f, h.notify (sameQueues_enableCb _ h.fixed.drvRing)⟩
  | devEnableCb =>
    exact ⟨f, h.notify (sameQueues_enableCb _ h.fixed.devRing)⟩
  | drvDisableCb =>
    exact ⟨f, h.notify (sameQueues_disableCb _ h.fixed.drvRing)⟩
  | devDisableCb =>
    exact ⟨f, h.notify (sameQueues_disableCb _ h.fixed.devRing)⟩

/-- **Every reachable state carries a flow.** -/
theorem vqReachable_inv {cfg : VqConfig} {s : VqSystem}
    (h : VqReachable cfg s) : ∃ f, VqInv cfg s f := by
  refine Reachable.invariant (P := fun s => ∃ f, VqInv cfg s f) ?_ ?_ h
  · rintro s rfl
    exact ⟨_, vqInv_init cfg⟩
  · rintro s t - ⟨f, hf⟩ hst
    exact hf.step hst

end OpenAmp.Virtio
