import OpenAmp.Lib.Traced
import OpenAmp.Virtio.Invariant

/-!
# A driver's queue and a device it cannot trust

The ring invariant needs both sides. What a driver knows of its queue
when the device may write anything into the shared rings is less: which
descriptors are free, as they are threaded through the table, and that
every other one is a chain by itself with a cookie in the private
`vq_descx`. `Lent` says so and does not mention the two rings.

`virtqueue_get_buffer` also comes with the record of the descriptors it
looks at, each an index into a table of `vq_nentries`.
-/

namespace OpenAmp.Virtio

open OpenAmp.Metal OpenAmp.Lib

/-! ## The descriptors a call looks at -/

/-- The loop of `vq_ring_free_chain` with every descriptor it is at. -/
def freeChainWalk (desc : UInt16 → VringDesc) :
    Nat → UInt16 → UInt16 → Traced UInt16 (Option (UInt16 × UInt16))
  | 0, _, _ => pure none
  | fuel + 1, dp, ndescs => do
    Traced.record dp
    if (desc dp).flags &&& VRING_DESC_F_NEXT ≠ 0 then
      freeChainWalk desc fuel (desc dp).next (ndescs - 1)
    else pure (some (dp, ndescs))

/-- `vq_ring_free_chain` with the indices into `vq_descx` and the table. -/
def vqRingFreeChainWalk (vq : Virtqueue) (vr : Vring) (descIdx : UInt16) :
    Traced UInt16 (Option (Virtqueue × Vring)) := do
  Traced.record descIdx
  let dxp := vq.vqDescx descIdx
  let ndescs := dxp.ndescs - 1
  let tail ←
    if (vr.desc descIdx).flags &&& VRING_DESC_F_INDIRECT = 0 then
      freeChainWalk vr.desc (2 ^ 16) descIdx ndescs
    else pure (some (descIdx, ndescs))
  return tail.map fun (dp, ndescs) =>
    ({ vq with
        vqFreeCnt := vq.vqFreeCnt + dxp.ndescs
        vqDescx := Function.update vq.vqDescx descIdx
          { dxp with ndescs := ndescs }
        vqDescHeadIdx := descIdx },
      { vr with desc := setNext vr.desc dp vq.vqDescHeadIdx })

/-- `virtqueue_get_buffer` with the indices into `vq_descx` and the
table. -/
def virtqueueGetBufferWalk (vq : Virtqueue) (vr : Vring) :
    Traced UInt16 (Option (Option GotBuffer × Virtqueue × Vring)) :=
  if vq.vqUsedConsIdx = vr.used.idx then pure (some (none, vq, vr))
  else do
    let usedIdx := vq.vqUsedConsIdx &&& (vq.vqNentries - 1)
    let vq := { vq with vqUsedConsIdx := vq.vqUsedConsIdx + 1 }
    let uep := vr.used.ring usedIdx
    let descIdx := uep.id.toUInt16
    let freed ← vqRingFreeChainWalk vq vr descIdx
    Traced.record descIdx
    return freed.map fun (vq, vr) =>
      let dxp := vq.vqDescx descIdx
      (some { cookie := dxp.cookie, len := uep.len, idx := usedIdx },
        { vq with
          vqDescx := Function.update vq.vqDescx descIdx
            { dxp with cookie := 0 } }, vr)

theorem val_freeChainWalk (desc : UInt16 → VringDesc) (fuel : Nat)
    (dp ndescs : UInt16) : (freeChainWalk desc fuel dp ndescs).val =
      freeChainLoop desc fuel dp ndescs := by
  induction fuel generalizing dp ndescs with
  | zero => rfl
  | succ fuel ih =>
    simp only [freeChainWalk, freeChainLoop, Traced.val_bind, Traced.val_ite,
      Traced.val_pure, ih]

theorem val_vqRingFreeChainWalk (vq : Virtqueue) (vr : Vring)
    (descIdx : UInt16) : (vqRingFreeChainWalk vq vr descIdx).val =
      vqRingFreeChain vq vr descIdx := by
  simp only [vqRingFreeChainWalk, vqRingFreeChain, Traced.val_bind,
    Traced.val_ite, Traced.val_pure, val_freeChainWalk]
  split <;> rfl

/-- The record is kept along the way, the result is that of the call. -/
theorem val_virtqueueGetBufferWalk (vq : Virtqueue) (vr : Vring) :
    (virtqueueGetBufferWalk vq vr).val = virtqueueGetBuffer vq vr := by
  simp only [virtqueueGetBufferWalk, virtqueueGetBuffer, Traced.val_ite,
    Traced.val_bind, Traced.val_pure, val_vqRingFreeChainWalk]

/-! ## What the driver knows -/

/-- The descriptors `free` of a table of `n` are threaded from
`vq_desc_head_idx`; each of the others is a chain of one, with a cookie
that meets `p`. -/
structure Lent (n : Nat) (p : UInt64 → Prop) (vq : Virtqueue)
    (desc : UInt16 → VringDesc) (free : List UInt16) : Prop where
  thread : Linked (nextOf desc) VQ_RING_DESC_CHAIN_END vq.vqDescHeadIdx free
  nodup : free.Nodup
  lt : ∀ i ∈ free, i.toNat < n
  freeCnt : vq.vqFreeCnt = UInt16.ofNat free.length
  vacant : ∀ i, i.toNat < n → (i ∈ free ↔ (vq.vqDescx i).cookie = 0)
  ndescs : ∀ i, i.toNat < n → i ∉ free → (vq.vqDescx i).ndescs = 1
  single : ∀ i, i.toNat < n → i ∉ free →
    (desc i).flags &&& VRING_DESC_F_NEXT = 0
  cookies : ∀ i, i.toNat < n → i ∉ free → p (vq.vqDescx i).cookie

variable {n : Nat} {p : UInt64 → Prop} {vq : Virtqueue} {vr : Vring}
  {desc desc' : UInt16 → VringDesc} {free : List UInt16}

theorem Lent.length_le (h : Lent n p vq desc free) (hn : n ≤ 2 ^ 15) :
    free.length ≤ n := by
  have hsub : free ⊆ indices n := fun i hi => (mem_indices hn i).mpr (h.lt i hi)
  have hle := (List.subperm_of_subset h.nodup hsub).length_le
  rwa [length_indices] at hle

/-- A free count within the table. -/
theorem Lent.freeCnt_le (h : Lent n p vq desc free) (hn : n ≤ 2 ^ 15) :
    vq.vqFreeCnt.toNat ≤ n := by
  have hle := h.length_le hn
  rw [h.freeCnt, UInt16.toNat_ofNat']
  omega

/-- Kicks and the like leave all of it alone. -/
theorem Lent.withQueued (h : Lent n p vq desc free) (c : UInt16) :
    Lent n p { vq with vqQueuedCnt := c } desc free := { h with }

/-- What the device may write without harm: all but the links of the free
descriptors and the flags of the others. -/
theorem Lent.withDesc (h : Lent n p vq desc free)
    (hnext : ∀ i ∈ free, (desc' i).next = (desc i).next)
    (hflags : ∀ i, i.toNat < n → i ∉ free → (desc' i).flags = (desc i).flags) :
    Lent n p vq desc' free :=
  { h with
    thread := h.thread.congr hnext
    single := fun i hi hout => by
      rw [hflags i hi hout]
      exact h.single i hi hout }

/-! ## The calls -/

/-- A new queue has lent nothing. -/
theorem Lent.create (p : UInt64 → Prop) (dev : VirtioDevice)
    (hrole : dev.role = .driver) {num : UInt16} (hpos : 0 < num.toNat)
    (hle : num.toNat ≤ 2 ^ 15) (notify : Bool) (io : MetalIoRegion) (vr : Vring) :
    ∃ vq' vr', virtqueueCreate dev num notify (virtqueueAllocate dev io) vr =
        (VQUEUE_SUCCESS, vq', vr') ∧
      vq'.vqDev = dev ∧ Lent num.toNat p vq' vr'.desc (indices num.toNat) := by
  simp only [virtqueueCreate, vqRingInit, hrole, if_true]
  refine ⟨_, _, rfl, rfl, ?_⟩
  constructor
  · exact linked_init vr.desc hpos hle
  · exact nodup_indices hle
  · exact fun i hi => (mem_indices hle i).mp hi
  · simp
  · intro i hi
    simp [virtqueueAllocate, (mem_indices hle i).mpr hi]
  all_goals exact fun i hi hout => absurd ((mem_indices hle i).mpr hi) hout

/-- **One buffer is added** to a queue with a descriptor free. -/
theorem Lent.add {x : UInt16} (h : Lent n p vq vr.desc (x :: free))
    (buf : VirtqueueBuf) {readable writable : Int}
    (hone : readable + writable = 1) {cookie : UInt64} (hne : cookie ≠ 0)
    (hp : p cookie) :
    ∃ vq' vr', virtqueueAddBuffer vq vr (fun _ => buf) readable writable
        cookie = (VQUEUE_SUCCESS, vq', vr') ∧
      vq'.vqDev = vq.vqDev ∧ Lent n p vq' vr'.desc free := by
  obtain ⟨hhead, hrest⟩ := h.thread
  obtain ⟨hx, hnd⟩ := List.nodup_cons.mp h.nodup
  have hxn := h.lt x (by simp)
  have hflag : descFlags readable (readable + writable) 0 &&&
      VRING_DESC_F_NEXT = 0 := by
    have hno : ¬ descFlags readable (readable + writable) 0 &&&
        VRING_DESC_F_NEXT ≠ 0 := by
      rw [descFlags_next]
      omega
    exact not_not.mp hno
  have hout : ∀ {i}, i ≠ x → i ∉ free → i ∉ x :: free := by
    intro i hix hi hmem
    rcases List.mem_cons.mp hmem with rfl | hmem
    · exact hix rfl
    · exact hi hmem
  simp only [virtqueueAddBuffer, vqRingAddBuffer, hone, Int.toNat_one,
    addBufferLoop, vqRingUpdateAvail, hhead]
  refine ⟨_, _, rfl, rfl, ?_⟩
  constructor
  · show Linked (nextOf (Function.update vr.desc x _)) _ (nextOf vr.desc x) _
    rw [nextOf_update (by rfl)]
    exact hrest
  · exact hnd
  · exact fun i hi => h.lt i (by simp [hi])
  · rw [h.freeCnt, List.length_cons, UInt16.ofNat_add]
    simp
  · intro i hi
    by_cases hix : i = x
    · subst hix
      simp [hx, hne]
    · simp only [Function.update_of_ne hix]
      rw [← h.vacant i hi, List.mem_cons]
      simp [hix]
  · intro i hi hnot
    by_cases hix : i = x
    · subst hix
      simp
    · simp only [Function.update_of_ne hix]
      exact h.ndescs i hi (hout hix hnot)
  · intro i hi hnot
    by_cases hix : i = x
    · subst hix
      rw [hone] at hflag
      simpa using hflag
    · simp only [Function.update_of_ne hix]
      exact h.single i hi (hout hix hnot)
  · intro i hi hnot
    by_cases hix : i = x
    · subst hix
      simpa using hp
    · simp only [Function.update_of_ne hix]
      exact h.cookies i hi (hout hix hnot)

/-- The used element that `virtqueue_get_buffer` looks at next. -/
def nextUsed (vq : Virtqueue) (vr : Vring) : VringUsedElem :=
  vr.used.ring (vq.vqUsedConsIdx &&& (vq.vqNentries - 1))

/-- **One buffer is got back**, if the used element names one that is
lent: nothing but its descriptor is looked at, and it is free again. -/
theorem Lent.get (h : Lent n p vq vr.desc free)
    (hnew : vq.vqUsedConsIdx ≠ vr.used.idx) {x : UInt16}
    (hx : (nextUsed vq vr).id.toUInt16 = x) (hxn : x.toNat < n)
    (hlent : (vq.vqDescx x).cookie ≠ 0) :
    (∀ i ∈ (virtqueueGetBufferWalk vq vr).log, i = x) ∧
    ∃ g vq' vr', virtqueueGetBuffer vq vr = some (some g, vq', vr') ∧
      g.cookie = (vq.vqDescx x).cookie ∧ p g.cookie ∧
      vq'.vqDev = vq.vqDev ∧ Lent n p vq' vr'.desc (x :: free) := by
  have hout : x ∉ free := fun hin => hlent ((h.vacant x hxn).mp hin)
  have hflag := h.single x hxn hout
  have hnd := h.ndescs x hxn hout
  -- the loop stops on the descriptor it starts from
  have hwalk : ∀ c, freeChainWalk vr.desc (2 ^ 16) x c =
      ⟨some (x, c), [x]⟩ := by
    intro c
    rw [show (2 : Nat) ^ 16 = 65535 + 1 from rfl, freeChainWalk,
      if_neg (not_not.mpr hflag)]
    rfl
  have hloop : ∀ c, freeChainLoop vr.desc (2 ^ 16) x c = some (x, c) := by
    intro c
    rw [← val_freeChainWalk, hwalk]
  rw [nextUsed] at hx
  constructor
  · intro i hi
    simp only [virtqueueGetBufferWalk, if_neg hnew, hx, vqRingFreeChainWalk,
      hwalk, Traced.log_bind, Traced.log_record, Traced.log_pure] at hi
    split at hi <;> simpa using hi
  · have hfree : ∀ vq₁ : Virtqueue, vq₁.vqDescx = vq.vqDescx →
        vqRingFreeChain vq₁ vr x = some ({ vq₁ with
          vqFreeCnt := vq₁.vqFreeCnt + 1
          vqDescx := Function.update vq.vqDescx x
            ⟨(vq.vqDescx x).cookie, 0⟩
          vqDescHeadIdx := x },
          { vr with desc := setNext vr.desc x vq₁.vqDescHeadIdx }) := by
      intro vq₁ hdescx
      simp only [vqRingFreeChain, hloop, hdescx, hnd, ite_self,
        Option.map_some]
      rfl
    simp only [virtqueueGetBuffer, if_neg hnew, hx, hfree, Option.map_some]
    refine ⟨_, _, _, rfl, by simp, ?_, rfl, ?_⟩
    · simpa using h.cookies x hxn hout
    have hkeep : ∀ {i}, i ∉ x :: free → i ≠ x ∧ i ∉ free := by
      intro i hi
      simpa using hi
    constructor
    · refine ⟨rfl, ?_⟩
      simp only [nextOf_setNext, Function.update_self]
      refine h.thread.congr fun i hi => Function.update_of_ne ?_ _ _
      exact fun heq => hout (heq ▸ hi)
    · exact List.nodup_cons.mpr ⟨hout, h.nodup⟩
    · intro i hi
      rcases List.mem_cons.mp hi with rfl | hi
      · exact hxn
      · exact h.lt i hi
    · rw [h.freeCnt, List.length_cons, UInt16.ofNat_add]
      rfl
    · intro i hi
      by_cases hix : i = x
      · subst hix
        simp
      · simp [hix, h.vacant i hi]
    · intro i hi hnot
      obtain ⟨hix, hnot⟩ := hkeep hnot
      simpa [hix] using h.ndescs i hi hnot
    · intro i hi hnot
      obtain ⟨hix, hnot⟩ := hkeep hnot
      simpa [setNext, hix] using h.single i hi hnot
    · intro i hi hnot
      obtain ⟨hix, hnot⟩ := hkeep hnot
      simpa [hix] using h.cookies i hi hnot

end OpenAmp.Virtio
