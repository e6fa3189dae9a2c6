import OpenAmp.Remoteproc.RscTable

/-!
# The bitmap search and its callers' bounds

What `metal_bitmap_next_clear_bit` and `metal_bitmap_for_each_clear_bit`
are for, against what they do, and with which bound
`remoteproc_allocate_id` calls the search. The last step of the search is
a modulo, so that no answer says "nothing found": a search of a full
bitmap answers its starting point, and the iteration starts again from
the bottom instead of ending.
-/

namespace OpenAmp.Remoteproc

open OpenAmp.Metal

/-! ## What a search is for -/

section Search
variable (bitmap : Bitmap) (start max : UInt32)

/-- The answer is a clear bit below `max` if there is one, and no bit
below `max` otherwise. -/
structure SearchMeets : Prop where
  found : (∃ i < max.toNat, metalBitmapIsBitSet bitmap i = false) →
    metalBitmapNextClearBit bitmap start max < max ∧
      metalBitmapIsBitSet bitmap
        (metalBitmapNextClearBit bitmap start max).toNat = false
  exhausted : (∀ i < max.toNat, metalBitmapIsBitSet bitmap i = true) →
    max ≤ metalBitmapNextClearBit bitmap start max

/-- Some bit below `max` is clear, and so is the one at which the loop
stops: bit `start` if `start + max` wraps, otherwise the first one in
cyclic order whose `int` number names a clear bit. -/
def SearchStopsRight : Prop :=
  if start.toNat + max.toNat < 2 ^ 32 then
    ∃ d < max.toNat,
      metalBitmapIsBitSet bitmap ((start.toNat + d) % max.toNat) = false ∧
      metalBitmapIsBitSet bitmap
        (intBit ((start.toNat + d) % max.toNat)) = false ∧
      ∀ j < d, metalBitmapIsBitSet bitmap
        (intBit ((start.toNat + j) % max.toNat)) = true
  else metalBitmapIsBitSet bitmap start.toNat = false

/-- The iteration ends, and its visits are the clear bits below `max`,
each once and in ascending order. -/
def VisitsClearBits : Prop :=
  ∃ fuel visited, metalBitmapForEachClearBit bitmap max fuel = some visited ∧
    visited.Pairwise (· < ·) ∧
    ∀ bit, bit ∈ visited ↔
      bit < max ∧ metalBitmapIsBitSet bitmap bit.toNat = false

end Search

variable {bitmap : Bitmap} {start max : UInt32}

/-- A search that meets its purpose answers a clear bit below `max`. -/
theorem SearchMeets.clear (hmax : 0 < max)
    (h : SearchMeets bitmap start max) :
    metalBitmapIsBitSet bitmap
      (metalBitmapNextClearBit bitmap start max).toNat = false := by
  have hlt : metalBitmapNextClearBit bitmap start max < max :=
    nextClearBit_lt_max bitmap hmax
  by_cases hex : ∃ i < max.toNat, metalBitmapIsBitSet bitmap i = false
  · exact (h.found hex).2
  · -- no answer says that there is nothing to find
    have hall : ∀ i < max.toNat, metalBitmapIsBitSet bitmap i = true := by
      intro i hi
      by_contra hclear
      exact hex ⟨i, hi, by simpa using hclear⟩
    exact absurd hlt (UInt32.not_lt.mpr (h.exhausted hall))

/-- One that answers a clear bit meets it. -/
theorem searchMeets_of_clear (hmax : 0 < max)
    (hclear : metalBitmapIsBitSet bitmap
      (metalBitmapNextClearBit bitmap start max).toNat = false) :
    SearchMeets bitmap start max := by
  have hlt : metalBitmapNextClearBit bitmap start max < max :=
    nextClearBit_lt_max bitmap hmax
  refine ⟨fun _ => ⟨hlt, hclear⟩, fun hall => ?_⟩
  rw [hall _ (UInt32.lt_iff_toNat_lt.mp hlt)] at hclear
  cases hclear

/-- When the search meets its purpose. -/
theorem searchMeets_iff (hmax : 0 < max) (hstart : start < max) :
    SearchMeets bitmap start max ↔ SearchStopsRight bitmap start max := by
  have hlt := UInt32.lt_iff_toNat_lt.mp hstart
  unfold SearchStopsRight
  split
  · next hsum =>
    constructor
    · intro h
      have hclear := h.clear hmax
      rcases metalBitmapNextClearBit_stops bitmap hmax hsum with
        ⟨d, hd, heq, hread, hset⟩ | ⟨hall, heq⟩
      · exact ⟨d, hd, heq ▸ hclear, hread, hset⟩
      · -- `start` is below `2 ^ 31` here, and was looked up as set
        have hmax' := max.toNat_lt
        rw [heq, Nat.mod_eq_of_lt hlt,
          ← intBit_of_lt (show start.toNat < 2 ^ 31 by omega),
          hall _ hlt] at hclear
        cases hclear
    · rintro ⟨d, hd, hclear, hread, hset⟩
      apply searchMeets_of_clear hmax
      rcases metalBitmapNextClearBit_stops bitmap hmax hsum with
        ⟨d', hd', heq, hread', hset'⟩ | ⟨hall, -⟩
      · -- both are the first bit looked up as clear
        have h1 : ¬ d < d' := fun h => by
          rw [hset' d h] at hread
          cases hread
        have h2 : ¬ d' < d := fun h => by
          rw [hset d' h] at hread'
          cases hread'
        rwa [heq, show d' = d from by omega]
      · rw [hall _ (Nat.mod_lt _ (by omega))] at hread
        cases hread
  · next hsum =>
    have heq := nextClearBit_of_wrap bitmap hstart (by omega)
    constructor
    · intro h
      have hclear := h.clear hmax
      rwa [heq] at hclear
    · intro h
      exact searchMeets_of_clear hmax (by rwa [heq])

/-- With bounds that are `int`s the condition is that a clear bit exists. -/
theorem searchStopsRight_iff (hstart : start < max)
    (hint : max.toNat ≤ 2 ^ 31) :
    SearchStopsRight bitmap start max ↔
      ∃ i < max.toNat, metalBitmapIsBitSet bitmap i = false := by
  have hlt := UInt32.lt_iff_toNat_lt.mp hstart
  have hmax : 0 < max := by
    rw [UInt32.lt_iff_toNat_lt, UInt32.toNat_zero]
    omega
  rw [← searchMeets_iff hmax hstart]
  constructor
  · intro h
    exact ⟨_, UInt32.lt_iff_toNat_lt.mp (nextClearBit_lt_max bitmap hmax),
      h.clear hmax⟩
  · rintro ⟨i, hi, hclear⟩
    exact searchMeets_of_clear hmax
      (nextClearBit_of_clear bitmap hmax hint (by omega) hi hclear).2

/-! ## The caller -/

/-- The bounds with which `remoteproc_allocate_id` calls the search, if it
does. -/
def allocateIdSearch (start stop : UInt32) : Option (UInt32 × UInt32) :=
  let start := if start = RSC_NOTIFY_ID_ANY then 0 else start
  let stop := if stop = RSC_NOTIFY_ID_ANY then
    UInt32.ofNat METAL_BITS_PER_ULONG else stop
  if start < 64 ∧ stop ≤ 64 then some (start, stop) else none

/-- The call goes through that search. -/
theorem remoteprocAllocateId_eq (bitmap : Bitmap) (start stop : UInt32) :
    remoteprocAllocateId bitmap start stop =
      match allocateIdSearch start stop with
      | none => (RSC_NOTIFY_ID_ANY, bitmap)
      | some (start, stop) =>
        if metalBitmapNextClearBit bitmap start stop ≠ stop then
          (metalBitmapNextClearBit bitmap start stop, metalBitmapSetBit bitmap
            (metalBitmapNextClearBit bitmap start stop).toNat)
        else (RSC_NOTIFY_ID_ANY, bitmap) := by
  simp only [remoteprocAllocateId, allocateIdSearch]
  generalize (if start = RSC_NOTIFY_ID_ANY then 0 else start) = first
  generalize (if stop = RSC_NOTIFY_ID_ANY then
    UInt32.ofNat METAL_BITS_PER_ULONG else stop) = last
  by_cases hcond : first < 64 ∧ last ≤ 64
  · rw [if_pos hcond, if_pos hcond]
  · rw [if_neg hcond, if_neg hcond]

/-- A search happens under the two tests, with the two defaults. -/
theorem allocateIdSearch_eq_some {start stop first last : UInt32} :
    allocateIdSearch start stop = some (first, last) ↔
      first = (if start = RSC_NOTIFY_ID_ANY then 0 else start) ∧
      last = (if stop = RSC_NOTIFY_ID_ANY then 64 else stop) ∧
      first < 64 ∧ last ≤ 64 := by
  have h64 : UInt32.ofNat METAL_BITS_PER_ULONG = 64 := by decide
  simp only [allocateIdSearch, h64, Option.ite_none_right_eq_some,
    Option.some.injEq, Prod.mk.injEq]
  constructor
  · rintro ⟨hcond, rfl, rfl⟩
    exact ⟨rfl, rfl, hcond⟩
  · rintro ⟨rfl, rfl, hcond⟩
    exact ⟨hcond, rfl, rfl⟩

/-- A search with the bound 0 is an `end` of 0 behind a `start` that
passes. -/
theorem allocateIdSearch_bound_zero (start stop : UInt32) :
    (∃ first, allocateIdSearch start stop = some (first, 0)) ↔
      stop = 0 ∧ (start < 64 ∨ start = RSC_NOTIFY_ID_ANY) := by
  simp only [allocateIdSearch_eq_some]
  constructor
  · rintro ⟨first, hfirst, hstop, hlt, -⟩
    have hany : stop ≠ RSC_NOTIFY_ID_ANY := by
      intro hany
      rw [if_pos hany] at hstop
      exact absurd hstop (by decide)
    rw [if_neg hany] at hstop
    refine ⟨hstop.symm, ?_⟩
    by_cases hs : start = RSC_NOTIFY_ID_ANY
    · exact .inr hs
    · rw [if_neg hs] at hfirst
      exact .inl (hfirst ▸ hlt)
  · rintro ⟨rfl, hstart⟩
    refine ⟨_, rfl, by decide, ?_, by decide⟩
    by_cases hs : start = RSC_NOTIFY_ID_ANY
    · rw [if_pos hs]
      decide
    · rw [if_neg hs]
      exact hstart.resolve_right hs

/-! ## All three -/

/-- **The search, the iteration and the caller**: the search meets its
purpose exactly when it can stop on a clear bit, the iteration never
does, and the caller stays away from the bound 0 exactly when its `end`
is not 0 or its `start` is refused. -/
theorem search_iteration_caller_iff (hmax : 0 < max) (hstart : start < max)
    (first stop : UInt32) :
    (SearchMeets bitmap start max ↔ SearchStopsRight bitmap start max) ∧
    ¬ VisitsClearBits bitmap max ∧
    ((∀ n, allocateIdSearch first stop ≠ some (n, 0)) ↔
      stop ≠ 0 ∨ 64 ≤ first ∧ first ≠ RSC_NOTIFY_ID_ANY) := by
  refine ⟨searchMeets_iff hmax hstart, ?_, ?_⟩
  · rintro ⟨fuel, visited, hsome, -⟩
    rw [metalBitmapForEachClearBit_eq_none bitmap hmax fuel] at hsome
    cases hsome
  · have hzero := not_congr (allocateIdSearch_bound_zero first stop)
    rw [not_exists] at hzero
    rw [show (∀ n, allocateIdSearch first stop ≠ some (n, 0)) ↔
      ∀ n, ¬ allocateIdSearch first stop = some (n, 0) from Iff.rfl, hzero,
      not_and_or, not_or, UInt32.not_lt]

/-- An empty bitmap of two bits, and the ids from 3 on. -/
theorem search_iteration_caller_empty :
    (SearchMeets (fun _ => 0) 1 2 ↔ SearchStopsRight (fun _ => 0) 1 2) ∧
    ¬ VisitsClearBits (fun _ => 0) 2 ∧
    ((∀ n, allocateIdSearch 3 RSC_NOTIFY_ID_ANY ≠ some (n, 0)) ↔
      RSC_NOTIFY_ID_ANY ≠ 0 ∨ 64 ≤ (3 : UInt32) ∧
        (3 : UInt32) ≠ RSC_NOTIFY_ID_ANY) :=
  search_iteration_caller_iff (by decide) (by decide) 3 RSC_NOTIFY_ID_ANY

/-- A full bitmap of one bit: the search answers bit 0, which is below the
bound and set, and the iteration over it does not end. The ids from 0 to
0 are searched with the bound 0. -/
theorem search_iteration_caller_fails :
    ¬ SearchMeets (fun _ => 1) 0 1 ∧ ¬ VisitsClearBits (fun _ => 1) 1 ∧
    allocateIdSearch 0 0 = some (0, 0) := by
  refine ⟨fun h => absurd (h.clear (by decide)) (by decide), ?_, by decide⟩
  rintro ⟨fuel, visited, hsome, -⟩
  rw [metalBitmapForEachClearBit_eq_none _ (by decide) fuel] at hsome
  cases hsome

end OpenAmp.Remoteproc
