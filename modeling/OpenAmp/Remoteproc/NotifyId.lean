import Mathlib.Data.List.Nodup
import OpenAmp.Remoteproc.RscTable

/-!
# Notify ids

What a table whose handling succeeds has done to the notify ids: they
were allocated one after another, in table order. An allocation keeps
the ids apart exactly when the id it asks for — or, for a wildcard, any
id at all — is free at its turn; otherwise the cyclic search of the
bitmap answers with a different id or with one that is taken, and the
comparison with the end of the range notices neither.
-/

namespace OpenAmp.Remoteproc

open OpenAmp.Metal

/-- The notify ids of a virtio entry and its vrings. -/
def FwRsc.notifyIds : FwRsc → List UInt32
  | .vdev v => v.notifyid :: v.vrings
  | _ => []

/-- The notify ids of all virtio entries and their vrings, in table
order. -/
def ResourceTable.notifyIds (table : ResourceTable) : List UInt32 :=
  table.entries.flatMap fun e => e.2.notifyIds

/-! ## Handling a table is allocating its ids in order -/

/-- One allocation after another: the ids granted and the bitmap;
`none` as soon as one is refused. -/
def allocateAll : Bitmap → List UInt32 → Option (List UInt32 × Bitmap)
  | bitmap, [] => some ([], bitmap)
  | bitmap, r :: rest =>
    let (notifyid, bitmap) := allocateNotifyId bitmap r
    if notifyid ≠ RSC_NOTIFY_ID_ANY then
      (allocateAll bitmap rest).map fun (ids, bitmap) => (notifyid :: ids, bitmap)
    else none

theorem allocateAll_cons {b b' : Bitmap} {r : UInt32} {rest l : List UInt32} :
    allocateAll b (r :: rest) = some (l, b') ↔
      (allocateNotifyId b r).1 ≠ RSC_NOTIFY_ID_ANY ∧
      ∃ ids, allocateAll (allocateNotifyId b r).2 rest = some (ids, b') ∧
        l = (allocateNotifyId b r).1 :: ids := by
  simp only [allocateAll]
  by_cases hany : (allocateNotifyId b r).1 ≠ RSC_NOTIFY_ID_ANY
  · rw [if_pos hany, Option.map_eq_some_iff]
    constructor
    · rintro ⟨⟨ids, b₁⟩, hrest, heq⟩
      obtain ⟨rfl, rfl⟩ := Prod.mk.inj heq
      exact ⟨hany, ids, hrest, rfl⟩
    · rintro ⟨-, ids, hrest, rfl⟩
      exact ⟨(ids, b'), hrest, rfl⟩
  · rw [if_neg hany]
    constructor
    · intro h
      cases h
    · exact fun h => absurd h.1 hany

theorem allocateAll_append {b b₁ b₂ : Bitmap} {l₁ l₂ ids₁ ids₂ : List UInt32}
    (h₁ : allocateAll b l₁ = some (ids₁, b₁))
    (h₂ : allocateAll b₁ l₂ = some (ids₂, b₂)) :
    allocateAll b (l₁ ++ l₂) = some (ids₁ ++ ids₂, b₂) := by
  induction l₁ generalizing b ids₁ with
  | nil =>
    simp only [allocateAll, Option.some.injEq, Prod.mk.injEq] at h₁
    obtain ⟨rfl, rfl⟩ := h₁
    exact h₂
  | cons r l ih =>
    obtain ⟨hany, ids, hrest, rfl⟩ := allocateAll_cons.mp h₁
    exact allocateAll_cons.mpr ⟨hany, ids ++ ids₂, ih hrest, rfl⟩

theorem vringLoop_allocateAll {b b' : Bitmap} {done todo vrings : List UInt32}
    (h : vringLoop b done todo = (true, vrings, b')) :
    ∃ ids, vrings = done ++ ids ∧ allocateAll b todo = some (ids, b') := by
  induction todo generalizing b done with
  | nil =>
    simp only [vringLoop, Prod.mk.injEq, true_and] at h
    obtain ⟨rfl, rfl⟩ := h
    exact ⟨[], by simp, rfl⟩
  | cons r rest ih =>
    simp only [vringLoop] at h
    split at h
    · next hany =>
      obtain ⟨ids, hv, hids⟩ := ih h
      exact ⟨_ :: ids, by rw [hv, List.append_assoc]; rfl,
        allocateAll_cons.mpr ⟨hany, ids, hids, rfl⟩⟩
    · simp at h

theorem handleVdevRsc_allocateAll {b b' : Bitmap} {v v' : FwRscVdev}
    (h : handleVdevRsc b v = (0, v', b')) :
    allocateAll b (v.notifyid :: v.vrings) =
      some (v'.notifyid :: v'.vrings, b') := by
  simp only [handleVdevRsc] at h
  split at h
  · next hany =>
    cases hloop : vringLoop (allocateNotifyId b v.notifyid).2 [] v.vrings with
    | mk ok r =>
      obtain ⟨vrings, b₁⟩ := r
      rw [hloop] at h
      cases ok with
      | false => simp [RPROC_ERR_RSC_TAB_NP] at h
      | true =>
        simp only [if_true, Prod.mk.injEq, true_and] at h
        obtain ⟨rfl, rfl⟩ := h
        obtain ⟨ids, hv, hids⟩ := vringLoop_allocateAll hloop
        rw [List.nil_append] at hv
        subst hv
        exact allocateAll_cons.mpr ⟨hany, _, hids, rfl⟩
  · simp [RPROC_ERR_RSC_TAB_NP] at h

/-- An entry that does not stop the loop has its ids allocated. -/
theorem handleRsc_allocateAll {platform : Platform} {b b' : Bitmap} {i : Nat}
    {rsc rsc' : FwRsc} {status : Int}
    (h : handleRsc platform b i rsc = (status, rsc', b'))
    (hstatus : status = 0 ∨ status = -RPROC_ERR_RSC_TAB_NS) :
    allocateAll b rsc.notifyIds = some (rsc'.notifyIds, b') := by
  cases rsc with
  | vdev v =>
    simp only [handleRsc] at h
    cases hv : handleVdevRsc b v with
    | mk st r =>
      obtain ⟨v', b₁⟩ := r
      rw [hv] at h
      simp only [Prod.mk.injEq] at h
      obtain ⟨rfl, rfl, rfl⟩ := h
      have hzero : st = 0 := by
        refine hstatus.resolve_right fun hns => ?_
        -- a virtio entry answers zero or "no place", never "no service"
        simp only [handleVdevRsc] at hv
        split at hv
        · split at hv <;> simp_all [RPROC_ERR_RSC_TAB_NP, RPROC_ERR_RSC_TAB_NS]
        · simp_all [RPROC_ERR_RSC_TAB_NP, RPROC_ERR_RSC_TAB_NS]
      subst hzero
      exact handleVdevRsc_allocateAll hv
  | carveout | devmem | trace | vendor | unknown =>
    simp only [handleRsc, Prod.mk.injEq] at h
    obtain ⟨-, rfl, rfl⟩ := h
    rfl

theorem rscLoop_allocateAll {platform : Platform} {base : UInt64}
    {io : Option MetalIoRegion} {b b' : Bitmap} {i : Nat}
    {entries entries' : List (UInt32 × FwRsc)}
    (h : rscLoop platform base io b i entries = (0, entries', b')) :
    allocateAll b (entries.flatMap fun e => e.2.notifyIds) =
      some (entries'.flatMap fun e => e.2.notifyIds, b') := by
  induction entries generalizing b i entries' with
  | nil =>
    simp only [rscLoop, Prod.mk.injEq, true_and] at h
    obtain ⟨rfl, rfl⟩ := h
    rfl
  | cons e rest ih =>
    obtain ⟨offset, rsc⟩ := e
    simp only [rscLoop] at h
    split at h
    · simp [RPROC_ERR_RSC_TAB_TRUNC] at h
    · cases hh : handleRsc platform b i rsc with
      | mk status r =>
        obtain ⟨rsc', b₁⟩ := r
        rw [hh] at h
        simp only at h
        split at h
        · next hst =>
          cases hr : rscLoop platform base io b₁ (i + 1) rest with
          | mk st r =>
            obtain ⟨rest', b₂⟩ := r
            rw [hr] at h
            simp only [Prod.mk.injEq] at h
            obtain ⟨rfl, rfl, rfl⟩ := h
            simp only [List.flatMap_cons]
            exact allocateAll_append (handleRsc_allocateAll hh hst) (ih hr)
        · next hst =>
          simp only [Prod.mk.injEq] at h
          exact absurd (.inl h.1) hst

theorem handleRscTable_allocateAll {platform : Platform} {b b' : Bitmap}
    {table table' : ResourceTable} {size : UInt64} {io : Option MetalIoRegion}
    (h : handleRscTable platform b table size io = (0, table', b')) :
    allocateAll b table.notifyIds = some (table'.notifyIds, b') := by
  unfold handleRscTable at h
  split at h
  · simp [RPROC_ERR_RSC_TAB_TRUNC] at h
  split at h
  · simp [RPROC_ERR_RSC_TAB_VER] at h
  split at h
  · simp [RPROC_ERR_RSC_TAB_TRUNC] at h
  split at h
  · simp [RPROC_ERR_RSC_TAB_RSVD] at h
  cases hl : rscLoop platform table.base io b 0 table.entries with
  | mk st r =>
    obtain ⟨entries', b₁⟩ := r
    rw [hl] at h
    simp only [Prod.mk.injEq] at h
    obtain ⟨rfl, rfl, rfl⟩ := h
    exact rscLoop_allocateAll hl

/-! ## One allocation -/

/-- The id `r` asks for is free; for a wildcard, some id is. -/
def Free (b : Bitmap) (r : UInt32) : Prop :=
  if r = RSC_NOTIFY_ID_ANY then
    ∃ i < METAL_BITS_PER_ULONG, metalBitmapIsBitSet b i = false
  else metalBitmapIsBitSet b r.toNat = false

/-- The lowest free id. -/
def lowestFree (b : Bitmap) : Nat :=
  ((List.range METAL_BITS_PER_ULONG).find? fun i =>
    !metalBitmapIsBitSet b i).getD 0

theorem lowestFree_eq {b : Bitmap} {d : Nat} (hd : d < 64)
    (hclear : metalBitmapIsBitSet b d = false)
    (hset : ∀ j < d, metalBitmapIsBitSet b j = true) : lowestFree b = d := by
  have hfind : (List.range METAL_BITS_PER_ULONG).find?
      (fun i => !metalBitmapIsBitSet b i) = some d := by
    rw [List.find?_range_eq_some]
    refine ⟨by simp [hclear], by simpa [METAL_BITS_PER_ULONG] using hd, ?_⟩
    intro j hj
    simp [hset j hj]
  rw [lowestFree, hfind]
  rfl

/-- From zero on the search finds the lowest free id, -/
theorem nextClearBit_lowestFree {b : Bitmap}
    (hfree : ∃ i < METAL_BITS_PER_ULONG, metalBitmapIsBitSet b i = false) :
    metalBitmapIsBitSet b (metalBitmapNextClearBit b 0 64).toNat = false ∧
      (metalBitmapNextClearBit b 0 64).toNat = lowestFree b := by
  obtain ⟨i, hi, hclear⟩ := hfree
  rcases metalBitmapNextClearBit_spec b (show 0 < (64 : UInt32) by decide)
    (by decide) (show (0 : UInt32).toNat + _ < _ by decide) with
    ⟨d, hd, heq, hbit, hset⟩ | ⟨hall, -⟩
  · simp only [UInt32.reduceToNat, Nat.zero_add] at hd heq hbit hset
    rw [Nat.mod_eq_of_lt hd] at heq hbit
    rw [heq]
    refine ⟨hbit, (lowestFree_eq hd hbit fun j hj => ?_).symm⟩
    have hbefore := hset j hj
    rwa [Nat.mod_eq_of_lt (by omega)] at hbefore
  · rw [hall i hi] at hclear
    cases hclear

/-- and from a free id on that id. -/
theorem nextClearBit_self {b : Bitmap} {r : UInt32} (hr : r.toNat < 64)
    (hmax : (r + 1).toNat = r.toNat + 1)
    (hclear : metalBitmapIsBitSet b r.toNat = false) :
    (metalBitmapNextClearBit b r (r + 1)).toNat = r.toNat := by
  have hmod : r.toNat % (r.toNat + 1) = r.toNat := Nat.mod_eq_of_lt (by omega)
  rcases metalBitmapNextClearBit_spec b
    (show 0 < r + 1 by rw [UInt32.lt_iff_toNat_lt, hmax]; simp)
    (by omega) (show r.toNat + _ < _ by omega) with
    ⟨d, hd, heq, hbit, hset⟩ | ⟨hall, -⟩
  · rw [hmax] at heq hset
    cases d with
    | zero => rwa [Nat.add_zero, hmod] at heq
    | succ d =>
      -- the first bit looked at is the id itself, which is free
      have hfirst := hset 0 (by omega)
      rw [Nat.add_zero, hmod, hclear] at hfirst
      cases hfirst
  · rw [hall r.toNat (by omega)] at hclear
    cases hclear

theorem nextClearBit_lt {b : Bitmap} {start stop : UInt32} (h0 : 0 < stop)
    (h64 : stop ≤ 64) :
    (metalBitmapNextClearBit b start stop).toNat < METAL_BITS_PER_ULONG := by
  have hpos := UInt32.lt_iff_toNat_lt.mp h0
  rw [metalBitmapNextClearBit, UInt32.toNat_mod]
  exact Nat.lt_of_lt_of_le (Nat.mod_lt _ hpos) (UInt32.le_iff_toNat_le.mp h64)

/-- What a successful allocation does: it marks the id it returns, and
if the request could be met, it was. -/
theorem allocateNotifyId_spec {b : Bitmap} {r : UInt32}
    (h : (allocateNotifyId b r).1 ≠ RSC_NOTIFY_ID_ANY) :
    (allocateNotifyId b r).2 =
      metalBitmapSetBit b (allocateNotifyId b r).1.toNat ∧
    (allocateNotifyId b r).1.toNat < METAL_BITS_PER_ULONG ∧
    (Free b r → metalBitmapIsBitSet b (allocateNotifyId b r).1.toNat = false ∧
      (allocateNotifyId b r).1.toNat =
        if r = RSC_NOTIFY_ID_ANY then lowestFree b else r.toNat) := by
  unfold allocateNotifyId remoteprocAllocateId at *
  by_cases hany : r = RSC_NOTIFY_ID_ANY
  · -- any id: the search covers the whole word, from zero
    subst hany
    have hstop : UInt32.ofNat METAL_BITS_PER_ULONG = 64 := rfl
    simp only [if_true, hstop] at h ⊢
    have hcond : (0 : UInt32) < 64 ∧ (64 : UInt32) ≤ 64 := by decide
    rw [if_pos hcond] at h ⊢
    split at h
    · next hne =>
      rw [if_pos hne]
      refine ⟨rfl, nextClearBit_lt hcond.1 hcond.2, fun hfree => ?_⟩
      simp only [Free, if_true] at hfree
      exact nextClearBit_lowestFree hfree
    · exact absurd rfl h
  · -- one id: the search starts at it and goes around below it
    simp only [if_neg hany] at h ⊢
    have hr64 : r < 64 := by
      by_contra hno
      exact h (by simp [hno])
    have hr : r.toNat < 64 := UInt32.lt_iff_toNat_lt.mp hr64
    have hmax : (r + 1).toNat = r.toNat + 1 := by
      rw [UInt32.toNat_add, UInt32.toNat_one]
      omega
    have hnext : r + 1 ≠ RSC_NOTIFY_ID_ANY := by
      intro heq
      have hnat := congrArg UInt32.toNat heq
      rw [hmax] at hnat
      simp only [RSC_NOTIFY_ID_ANY, UInt32.reduceToNat] at hnat
      omega
    have hcond : r < 64 ∧ r + 1 ≤ 64 :=
      ⟨hr64, UInt32.le_iff_toNat_le.mpr (by rw [hmax]; exact hr)⟩
    simp only [if_neg hnext] at h ⊢
    rw [if_pos hcond] at h ⊢
    split at h
    · next hne =>
      have hpos : 0 < r + 1 := by
        rw [UInt32.lt_iff_toNat_lt, hmax]
        exact Nat.succ_pos _
      rw [if_pos hne]
      refine ⟨rfl, nextClearBit_lt hpos hcond.2, fun hfree => ?_⟩
      simp only [Free, if_neg hany] at hfree
      have hself := nextClearBit_self hr hmax hfree
      exact ⟨hself ▸ hfree, hself⟩
    · exact absurd rfl h

/-! ## All allocations -/

/-- The ids asked for can be granted one after another: each request
finds its id free, a wildcard takes the lowest free one. -/
def Grantable : Bitmap → List UInt32 → Prop
  | _, [] => True
  | b, r :: rest => Free b r ∧ Grantable (metalBitmapSetBit b
      (if r = RSC_NOTIFY_ID_ANY then lowestFree b else r.toNat)) rest

/-- The notify ids `ids` left behind by requests `reqs`, with the bitmap
going from `b` to `b'`, are unique: pairwise different ids of the bitmap
that were free, all of them and nothing else marked, and every specific
request met. -/
structure UniqueIds (b : Bitmap) (reqs ids : List UInt32) (b' : Bitmap) :
    Prop where
  nodup : ids.Nodup
  free : ∀ x ∈ ids, x.toNat < METAL_BITS_PER_ULONG ∧
    metalBitmapIsBitSet b x.toNat = false
  marked : ∀ i, metalBitmapIsBitSet b' i = true ↔
    metalBitmapIsBitSet b i = true ∨ ∃ x ∈ ids, x.toNat = i
  kept : ∀ (k : Nat) r x, reqs[k]? = some r → ids[k]? = some x →
    r ≠ RSC_NOTIFY_ID_ANY → x = r

theorem uniqueIds_nil (b : Bitmap) : UniqueIds b [] [] b :=
  ⟨by simp, by simp, by simp, by simp⟩

/-- Unique ids, the first one taken apart. -/
theorem uniqueIds_cons {b b' : Bitmap} {r x : UInt32} {reqs ids : List UInt32}
    (hx : x.toNat < METAL_BITS_PER_ULONG) :
    UniqueIds b (r :: reqs) (x :: ids) b' ↔
      metalBitmapIsBitSet b x.toNat = false ∧
      (r ≠ RSC_NOTIFY_ID_ANY → x = r) ∧
      UniqueIds (metalBitmapSetBit b x.toNat) reqs ids b' := by
  constructor
  · intro h
    obtain ⟨hxids, hnd⟩ := List.nodup_cons.mp h.nodup
    refine ⟨(h.free x (by simp)).2, h.kept 0 r x rfl rfl, hnd, ?_, ?_, ?_⟩
    · intro y hy
      have hne : y.toNat ≠ x.toNat := fun heq =>
        hxids (UInt32.toNat_inj.mp heq ▸ hy)
      have := h.free y (by simp [hy])
      simp [hne, this.1, this.2]
    · intro i
      rw [h.marked i, isBitSet_setBit]
      simp only [List.mem_cons, exists_eq_or_imp, Bool.or_eq_true,
        decide_eq_true_eq]
      grind
    · intro k r' x' hk hk'
      exact h.kept (k + 1) r' x' (by simpa using hk) (by simpa using hk')
  · rintro ⟨hclear, hkept, h⟩
    have hne : ∀ y ∈ ids, y.toNat ≠ x.toNat ∧
        metalBitmapIsBitSet b y.toNat = false := by
      intro y hy
      have := (h.free y hy).2
      simpa using this
    refine ⟨?_, ?_, ?_, ?_⟩
    · exact List.nodup_cons.mpr ⟨fun hmem => (hne x hmem).1 rfl, h.nodup⟩
    · intro y hy
      rcases List.mem_cons.mp hy with rfl | hy
      · exact ⟨hx, hclear⟩
      · exact ⟨(h.free y hy).1, (hne y hy).2⟩
    · intro i
      rw [h.marked i, isBitSet_setBit]
      simp only [List.mem_cons, exists_eq_or_imp, Bool.or_eq_true,
        decide_eq_true_eq]
      grind
    · intro k r' x' hk hk' hany
      cases k with
      | zero =>
        simp only [List.getElem?_cons_zero, Option.some.injEq] at hk hk'
        subst hk hk'
        exact hkept hany
      | succ k => exact h.kept k r' x' (by simpa using hk) (by simpa using hk') hany

/-- Sequential allocation leaves unique ids exactly when the requests
can be granted one after another. -/
theorem allocateAll_unique_iff {reqs : List UInt32} :
    ∀ {b b' : Bitmap} {ids : List UInt32},
    allocateAll b reqs = some (ids, b') →
    (UniqueIds b reqs ids b' ↔ Grantable b reqs) := by
  induction reqs with
  | nil =>
    intro b b' ids h
    simp only [allocateAll, Option.some.injEq, Prod.mk.injEq] at h
    obtain ⟨rfl, rfl⟩ := h
    exact iff_of_true (uniqueIds_nil b) trivial
  | cons r rest ih =>
    intro b b' l h
    obtain ⟨hany, ids, hrest, rfl⟩ := allocateAll_cons.mp h
    obtain ⟨hset, hlt, hgrant⟩ := allocateNotifyId_spec hany
    rw [hset] at hrest
    rw [uniqueIds_cons hlt, Grantable]
    constructor
    · rintro ⟨hclear, hkept, hu⟩
      have hfree : Free b r := by
        by_cases hr : r = RSC_NOTIFY_ID_ANY
        · rw [Free, if_pos hr]
          exact ⟨_, hlt, hclear⟩
        · rw [Free, if_neg hr, ← hkept hr]
          exact hclear
      refine ⟨hfree, ?_⟩
      rw [← (hgrant hfree).2]
      exact (ih hrest).mp hu
    · rintro ⟨hfree, hg⟩
      obtain ⟨hclear, heq⟩ := hgrant hfree
      rw [← heq] at hg
      refine ⟨hclear, fun hr => ?_, (ih hrest).mpr hg⟩
      rw [if_neg hr] at heq
      exact UInt32.toNat_inj.mp heq

/-- A table with one virtio entry of one vring. -/
def oneVdevTable (notifyid vring : UInt32) : ResourceTable where
  base := 0
  ver := 1
  reserved0 := 0
  reserved1 := 0
  entries := [(20, .vdev ⟨notifyid, [vring]⟩)]

/-- A platform without hooks. -/
def barePlatform : Platform := ⟨fun _ => true, none⟩

end OpenAmp.Remoteproc
