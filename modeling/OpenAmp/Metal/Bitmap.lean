import Mathlib.Algebra.Group.Nat.Defs
import Mathlib.Logic.Function.Basic
import Mathlib.Tactic.Common

/-!
# libmetal bitmaps

The bitmap functions of `libmetal/lib/utilities.h` on a 64-bit target. A
bitmap is an array of `unsigned long`; a bit is read and written through
its word and its position in the word.

`metal_bitmap_next_clear_bit` searches cyclically: from `start` it looks
at `max` bits modulo `max`. A search that finds nothing stops at
`start + max`, and the final `% max` maps that to `start % max`: the
caller cannot tell it from a hit.
-/

namespace OpenAmp.Metal

def METAL_BITS_PER_ULONG : Nat := 64

/-- An array of `unsigned long`. -/
abbrev Bitmap := Nat → UInt64

/-- `metal_bit`. -/
def metalBit (bit : Nat) : UInt64 := 1 <<< UInt64.ofNat bit

/-- `metal_bitmap_set_bit`. -/
def metalBitmapSetBit (bitmap : Bitmap) (bit : Nat) : Bitmap :=
  Function.update bitmap (bit / METAL_BITS_PER_ULONG)
    (bitmap (bit / METAL_BITS_PER_ULONG) |||
      metalBit (bit % METAL_BITS_PER_ULONG))

/-- `metal_bitmap_is_bit_set`. -/
def metalBitmapIsBitSet (bitmap : Bitmap) (bit : Nat) : Bool :=
  bitmap (bit / METAL_BITS_PER_ULONG) &&&
    metalBit (bit % METAL_BITS_PER_ULONG) ≠ 0

/-- `metal_bitmap_clear_bit`. -/
def metalBitmapClearBit (bitmap : Bitmap) (bit : Nat) : Bitmap :=
  Function.update bitmap (bit / METAL_BITS_PER_ULONG)
    (bitmap (bit / METAL_BITS_PER_ULONG) &&&
      ~~~metalBit (bit % METAL_BITS_PER_ULONG))

/-- The number under which the bit functions look a bit up: their
parameter is an `int`, and the division by `METAL_BITS_PER_ULONG` makes
that an `unsigned long`. -/
def intBit (bit : Nat) : Nat :=
  if bit < 2 ^ 31 then bit else 2 ^ 64 - 2 ^ 32 + bit

/-- The `for` loop of `metal_bitmap_next_clear_bit` from `bit` on. It
runs while `start ≤ bit < max + start`, so `max` rounds are enough. -/
def nextClearBitLoop (bitmap : Bitmap) (start max : UInt32) :
    Nat → UInt32 → UInt32
  | 0, bit => bit
  | rounds + 1, bit =>
    if bit < max + start ∧
        metalBitmapIsBitSet bitmap (intBit (bit % max).toNat) then
      nextClearBitLoop bitmap start max rounds (bit + 1)
    else bit

/-- `metal_bitmap_next_clear_bit`. -/
def metalBitmapNextClearBit (bitmap : Bitmap) (start max : UInt32) : UInt32 :=
  nextClearBitLoop bitmap start max max.toNat start % max

/-- `metal_bitmap_for_each_clear_bit` from `bit` on: the bits visited when
the loop ends within `fuel` rounds. -/
def forEachClearBit (bitmap : Bitmap) (max : UInt32) :
    Nat → UInt32 → Option (List UInt32)
  | 0, _ => none
  | fuel + 1, bit =>
    if bit < max then do
      let visited ← forEachClearBit bitmap max fuel
        (metalBitmapNextClearBit bitmap (bit + 1) max)
      return bit :: visited
    else some []

/-- `metal_bitmap_for_each_clear_bit`, with at most `fuel` rounds. -/
def metalBitmapForEachClearBit (bitmap : Bitmap) (max : UInt32)
    (fuel : Nat) : Option (List UInt32) :=
  forEachClearBit bitmap max fuel (metalBitmapNextClearBit bitmap 0 max)

/-! ## Single bits -/

theorem metalBit_getLsbD {k : Nat} (hk : k < 64) (i : Nat) :
    (metalBit k).toBitVec.getLsbD i = decide (i = k) := by
  have hk' : k % 18446744073709551616 % 64 = k := by omega
  simp only [metalBit, UInt64.toBitVec_shiftLeft, UInt64.toBitVec_one,
    UInt64.toBitVec_ofNat']
  rw [Bool.eq_iff_iff]
  simp [BitVec.getLsbD_shiftLeft, BitVec.getLsbD_one, BitVec.toNat_umod, hk']
  omega

/-- A bit is set when the word's bit at its position is. -/
theorem metalBitmapIsBitSet_eq (bitmap : Bitmap) (bit : Nat) :
    metalBitmapIsBitSet bitmap bit =
      (bitmap (bit / 64)).toBitVec.getLsbD (bit % 64) := by
  have hk : bit % 64 < 64 := Nat.mod_lt _ (by decide)
  unfold metalBitmapIsBitSet METAL_BITS_PER_ULONG
  generalize bitmap (bit / 64) = w
  cases hb : w.toBitVec.getLsbD (bit % 64) with
  | true =>
    simp only [ne_eq, decide_eq_true_eq]
    intro h0
    have := congrArg (fun x : UInt64 => x.toBitVec.getLsbD (bit % 64)) h0
    simp [metalBit_getLsbD hk, hb] at this
  | false =>
    simp only [ne_eq, decide_eq_false_iff_not, not_not]
    apply UInt64.toBitVec_inj.mp
    apply BitVec.eq_of_getLsbD_eq
    intro i hi
    by_cases hik : i = bit % 64
    · subst hik
      simp [hb]
    · simp [metalBit_getLsbD hk, hik]

/-- Setting a bit sets that bit and no other. -/
@[simp] theorem isBitSet_setBit (bitmap : Bitmap) (bit i : Nat) :
    metalBitmapIsBitSet (metalBitmapSetBit bitmap bit) i =
      (decide (i = bit) || metalBitmapIsBitSet bitmap i) := by
  have hk : bit % 64 < 64 := Nat.mod_lt _ (by decide)
  have hi : i % 64 < 64 := Nat.mod_lt _ (by decide)
  simp only [metalBitmapIsBitSet_eq, metalBitmapSetBit, METAL_BITS_PER_ULONG]
  by_cases hw : i / 64 = bit / 64
  · rw [hw, Function.update_self, UInt64.toBitVec_or, BitVec.getLsbD_or,
      metalBit_getLsbD hk, Bool.or_comm]
    congr 1
    simp only [decide_eq_decide]
    omega
  · rw [Function.update_of_ne hw]
    have hne : i ≠ bit := fun h => hw (by rw [h])
    simp [hne]

/-- Clearing a bit clears that bit and no other. -/
@[simp] theorem isBitSet_clearBit (bitmap : Bitmap) (bit i : Nat) :
    metalBitmapIsBitSet (metalBitmapClearBit bitmap bit) i =
      (decide (i ≠ bit) && metalBitmapIsBitSet bitmap i) := by
  have hk : bit % 64 < 64 := Nat.mod_lt _ (by decide)
  have hi : i % 64 < 64 := Nat.mod_lt _ (by decide)
  simp only [metalBitmapIsBitSet_eq, metalBitmapClearBit, METAL_BITS_PER_ULONG]
  by_cases hw : i / 64 = bit / 64
  · rw [hw, Function.update_self, UInt64.toBitVec_and, BitVec.getLsbD_and,
      UInt64.toBitVec_not, BitVec.getLsbD_not, metalBit_getLsbD hk, Bool.and_comm]
    have hiff : i = bit ↔ i % 64 = bit % 64 := by omega
    simp [hiff, hi]
  · rw [Function.update_of_ne hw]
    have hne : i ≠ bit := fun h => hw (by rw [h])
    simp [hne]

/-- Bitmaps with the same bits have the same words. -/
theorem bitmap_ext {bitmap bitmap' : Bitmap}
    (h : ∀ i, metalBitmapIsBitSet bitmap i = metalBitmapIsBitSet bitmap' i) :
    bitmap = bitmap' := by
  funext w
  apply UInt64.toBitVec_inj.mp
  apply BitVec.eq_of_getLsbD_eq
  intro k hk
  have hbit := h (64 * w + k)
  have hdiv : (64 * w + k) / 64 = w := by omega
  have hmod : (64 * w + k) % 64 = k := by omega
  rwa [metalBitmapIsBitSet_eq, metalBitmapIsBitSet_eq, hdiv, hmod] at hbit

/-- Clearing a bit takes back that it was set. -/
theorem clearBit_setBit {bitmap : Bitmap} {bit : Nat}
    (hclear : metalBitmapIsBitSet bitmap bit = false) :
    metalBitmapClearBit (metalBitmapSetBit bitmap bit) bit = bitmap := by
  apply bitmap_ext
  intro i
  rw [isBitSet_clearBit, isBitSet_setBit]
  by_cases hi : i = bit
  · subst hi
    simp [hclear]
  · simp [hi]

/-! ## The cyclic search -/

variable (bitmap : Bitmap) {start max : UInt32}

theorem intBit_of_lt {bit : Nat} (h : bit < 2 ^ 31) : intBit bit = bit :=
  if_pos h

/-- Where the loop stops, `d` bits behind where it stands: all bits
looked up before are set, and it stops on a clear one or after all
rounds. -/
theorem nextClearBitLoop_spec (hsum : start.toNat + max.toNat < 2 ^ 32)
    (rounds : Nat) : ∀ (done : Nat), done + rounds = max.toNat →
    ∃ d ≤ rounds,
      nextClearBitLoop bitmap start max rounds (start + UInt32.ofNat done) =
        UInt32.ofNat (start.toNat + done + d) ∧
      (∀ j < d, metalBitmapIsBitSet bitmap
        (intBit ((start.toNat + done + j) % max.toNat)) = true) ∧
      (d < rounds → metalBitmapIsBitSet bitmap
        (intBit ((start.toNat + done + d) % max.toNat)) = false) := by
  induction rounds with
  | zero =>
    intro done hdone
    refine ⟨0, Nat.le_refl 0, ?_, by simp, by simp⟩
    simp [nextClearBitLoop]
  | succ rounds ih =>
    intro done hdone
    have hbit : (start + UInt32.ofNat done).toNat = start.toNat + done := by
      rw [UInt32.toNat_add, UInt32.toNat_ofNat']
      omega
    have hlt : start + UInt32.ofNat done < max + start := by
      rw [UInt32.lt_iff_toNat_lt, hbit, UInt32.toNat_add]
      omega
    rw [nextClearBitLoop]
    simp only [hlt, true_and, UInt32.toNat_mod, hbit]
    split
    · next hset =>
      obtain ⟨d, hd, heq, hall, hstop⟩ := ih (done + 1) (by omega)
      refine ⟨d + 1, by omega, ?_, ?_, ?_⟩
      · rw [show start + UInt32.ofNat done + 1 =
          start + UInt32.ofNat (done + 1) from by
            rw [UInt32.ofNat_add, UInt32.ofNat_one, UInt32.add_assoc], heq]
        congr 1
        omega
      · intro j hj
        cases j with
        | zero => simpa using hset
        | succ j =>
          have := hall j (by omega)
          rwa [show start.toNat + (done + 1) + j =
            start.toNat + done + (j + 1) from by omega] at this
      · intro hlt'
        have := hstop (by omega)
        rwa [show start.toNat + (done + 1) + d =
          start.toNat + done + (d + 1) from by omega] at this
    · next hclear =>
      refine ⟨0, Nat.zero_le _, ?_, by simp, fun _ => by simpa using hclear⟩
      apply UInt32.toNat_inj.mp
      rw [hbit, UInt32.toNat_ofNat']
      omega

/-- What the search returns: the first bit in cyclic order from `start`
that it reads as clear, or `start % max` when it reads none. -/
theorem metalBitmapNextClearBit_stops (hmax : 0 < max)
    (hsum : start.toNat + max.toNat < 2 ^ 32) :
    (∃ d < max.toNat,
      (metalBitmapNextClearBit bitmap start max).toNat =
        (start.toNat + d) % max.toNat ∧
      metalBitmapIsBitSet bitmap
        (intBit ((start.toNat + d) % max.toNat)) = false ∧
      ∀ j < d, metalBitmapIsBitSet bitmap
        (intBit ((start.toNat + j) % max.toNat)) = true) ∨
    ((∀ i < max.toNat, metalBitmapIsBitSet bitmap (intBit i) = true) ∧
      (metalBitmapNextClearBit bitmap start max).toNat =
        start.toNat % max.toNat) := by
  have hpos : 0 < max.toNat := UInt32.lt_iff_toNat_lt.mp hmax
  obtain ⟨d, hd, heq, hall, hstop⟩ :=
    nextClearBitLoop_spec bitmap hsum max.toNat 0 (by omega)
  have hres : (metalBitmapNextClearBit bitmap start max).toNat =
      (start.toNat + d) % max.toNat := by
    rw [metalBitmapNextClearBit, UInt32.toNat_mod]
    rw [show start + UInt32.ofNat 0 = start from by simp] at heq
    rw [heq, UInt32.toNat_ofNat']
    congr 1
    omega
  rcases Nat.lt_or_ge d max.toNat with hlt | hge
  · exact .inl ⟨d, hlt, hres, hstop hlt, hall⟩
  · obtain rfl : d = max.toNat := by omega
    refine .inr ⟨fun i hi => ?_, by rw [hres, Nat.add_mod_right]⟩
    -- the bits at distance `0 … max - 1` from `start` are all of them
    have hj := hall ((i + (max.toNat - start.toNat % max.toNat)) % max.toNat)
      (Nat.mod_lt _ hpos)
    have hmod := Nat.mod_lt start.toNat hpos
    rwa [Nat.add_zero, Nat.add_mod_mod, ← Nat.mod_add_mod,
      show start.toNat % max.toNat +
        (i + (max.toNat - start.toNat % max.toNat)) = i + max.toNat from by
          omega, Nat.add_mod_right, Nat.mod_eq_of_lt hi] at hj

/-- **What the search returns** where every bit number is an `int`: the
first clear bit in cyclic order from `start`, or `start % max` when all of
the first `max` bits are set. -/
theorem metalBitmapNextClearBit_spec (hmax : 0 < max)
    (hint : max.toNat ≤ 2 ^ 31) (hsum : start.toNat + max.toNat < 2 ^ 32) :
    (∃ d < max.toNat,
      (metalBitmapNextClearBit bitmap start max).toNat =
        (start.toNat + d) % max.toNat ∧
      metalBitmapIsBitSet bitmap ((start.toNat + d) % max.toNat) = false ∧
      ∀ j < d, metalBitmapIsBitSet bitmap
        ((start.toNat + j) % max.toNat) = true) ∨
    ((∀ i < max.toNat, metalBitmapIsBitSet bitmap i = true) ∧
      (metalBitmapNextClearBit bitmap start max).toNat =
        start.toNat % max.toNat) := by
  have hpos : 0 < max.toNat := UInt32.lt_iff_toNat_lt.mp hmax
  have hbit : ∀ n, intBit (n % max.toNat) = n % max.toNat := fun n =>
    intBit_of_lt (Nat.lt_of_lt_of_le (Nat.mod_lt n hpos) hint)
  rcases metalBitmapNextClearBit_stops bitmap hmax hsum with
    ⟨d, hd, heq, hclear, hset⟩ | ⟨hall, heq⟩
  · rw [hbit] at hclear
    exact .inl ⟨d, hd, heq, hclear, fun j hj => hbit _ ▸ hset j hj⟩
  · refine .inr ⟨fun i hi => ?_, heq⟩
    rw [← intBit_of_lt (Nat.lt_of_lt_of_le hi hint)]
    exact hall i hi

/-- A search with a clear bit to find finds one. -/
theorem nextClearBit_of_clear (hmax : 0 < max) (hint : max.toNat ≤ 2 ^ 31)
    (hsum : start.toNat + max.toNat < 2 ^ 32) {i : Nat} (hi : i < max.toNat)
    (hclear : metalBitmapIsBitSet bitmap i = false) :
    (metalBitmapNextClearBit bitmap start max).toNat < max.toNat ∧
      metalBitmapIsBitSet bitmap
        (metalBitmapNextClearBit bitmap start max).toNat = false := by
  rcases metalBitmapNextClearBit_spec bitmap hmax hint hsum with
    ⟨d, hd, heq, hbit, -⟩ | ⟨hall, -⟩
  · rw [heq]
    exact ⟨Nat.mod_lt _ (by omega), hbit⟩
  · rw [hall i hi] at hclear
    cases hclear

/-- The search never answers `max` or more: the last step takes the
answer modulo `max`. -/
theorem nextClearBit_lt_max (hmax : 0 < max) :
    metalBitmapNextClearBit bitmap start max < max := by
  rw [UInt32.lt_iff_toNat_lt, metalBitmapNextClearBit, UInt32.toNat_mod]
  exact Nat.mod_lt _ (UInt32.lt_iff_toNat_lt.mp hmax)

/-- Where `max + start` wraps, the loop stops before its first round. -/
theorem nextClearBit_of_wrap (hstart : start < max)
    (hsum : 2 ^ 32 ≤ start.toNat + max.toNat) :
    metalBitmapNextClearBit bitmap start max = start := by
  have hlt := UInt32.lt_iff_toNat_lt.mp hstart
  have hmax := max.toNat_lt
  have hstop : ¬ start < max + start := by
    rw [UInt32.lt_iff_toNat_lt, UInt32.toNat_add]
    omega
  have hloop : nextClearBitLoop bitmap start max max.toNat start = start := by
    cases max.toNat with
    | zero => rfl
    | succ rounds => exact if_neg fun h => hstop h.1
  apply UInt32.toNat_inj.mp
  rw [metalBitmapNextClearBit, hloop, UInt32.toNat_mod, Nat.mod_eq_of_lt hlt]

/-- The iteration over the clear bits never ends: each search answers a
bit below `max`. -/
theorem metalBitmapForEachClearBit_eq_none (hmax : 0 < max) (fuel : Nat) :
    metalBitmapForEachClearBit bitmap max fuel = none := by
  have hloop : ∀ fuel bit, bit < max →
      forEachClearBit bitmap max fuel bit = none := by
    intro fuel
    induction fuel with
    | zero => exact fun _ _ => rfl
    | succ fuel ih =>
      intro bit hbit
      rw [forEachClearBit, if_pos hbit,
        ih _ (nextClearBit_lt_max bitmap hmax)]
      rfl
  exact hloop fuel _ (nextClearBit_lt_max bitmap hmax)

/-! ## The search for set bits -/

/-- The `for` loop of `metal_bitmap_next_set_bit` from `bit` on. -/
def nextSetBitLoop (bitmap : Bitmap) (max : UInt32) : Nat → UInt32 → UInt32
  | 0, bit => bit
  | rounds + 1, bit =>
    if bit < max ∧ metalBitmapIsBitSet bitmap (intBit bit.toNat) = false then
      nextSetBitLoop bitmap max rounds (bit + 1)
    else bit

/-- `metal_bitmap_next_set_bit`. -/
def metalBitmapNextSetBit (bitmap : Bitmap) (start max : UInt32) : UInt32 :=
  nextSetBitLoop bitmap max (max.toNat - start.toNat) start

/-- `metal_bitmap_for_each_set_bit` from `bit` on. -/
def forEachSetBit (bitmap : Bitmap) (max : UInt32) :
    Nat → UInt32 → List UInt32
  | 0, _ => []
  | fuel + 1, bit =>
    if bit < max then
      bit :: forEachSetBit bitmap max fuel
        (metalBitmapNextSetBit bitmap (bit + 1) max)
    else []

/-- `metal_bitmap_for_each_set_bit`: the bits visited. Each is behind the
one before, so that `max` rounds and the last test are enough. -/
def metalBitmapForEachSetBit (bitmap : Bitmap) (max : UInt32) :
    List UInt32 :=
  forEachSetBit bitmap max (max.toNat + 1) (metalBitmapNextSetBit bitmap 0 max)

theorem nextSetBitLoop_spec (hint : max.toNat ≤ 2 ^ 31) (rounds : Nat) :
    ∀ {bit : UInt32}, bit.toNat + rounds = max.toNat →
    ∃ d ≤ rounds,
      (nextSetBitLoop bitmap max rounds bit).toNat = bit.toNat + d ∧
      (∀ j < d, metalBitmapIsBitSet bitmap (bit.toNat + j) = false) ∧
      (d < rounds → metalBitmapIsBitSet bitmap (bit.toNat + d) = true) := by
  induction rounds with
  | zero =>
    intro bit _
    exact ⟨0, Nat.le_refl 0, rfl, by simp, by simp⟩
  | succ rounds ih =>
    intro bit hsum
    have hlt : bit < max := UInt32.lt_iff_toNat_lt.mpr (by omega)
    have hbit : intBit bit.toNat = bit.toNat := intBit_of_lt (by omega)
    rw [nextSetBitLoop]
    simp only [hlt, true_and, hbit]
    split
    · next hclear =>
      have hnext : (bit + 1).toNat = bit.toNat + 1 := by
        rw [UInt32.toNat_add, UInt32.toNat_one]
        omega
      obtain ⟨d, hd, heq, hall, hstop⟩ := ih (by omega : (bit + 1).toNat +
        rounds = max.toNat)
      refine ⟨d + 1, by omega, by omega, ?_, ?_⟩
      · intro j hj
        cases j with
        | zero => exact hclear
        | succ j =>
          have hj' := hall j (by omega)
          rwa [hnext, Nat.add_assoc, Nat.add_comm 1 j] at hj'
      · intro hlt'
        have hd' := hstop (by omega)
        rwa [hnext, Nat.add_assoc, Nat.add_comm 1 d] at hd'
    · next hset =>
      exact ⟨0, Nat.zero_le _, rfl, by simp, fun _ => by simpa using hset⟩

/-- The first set bit from `start` on, or `max`. -/
theorem metalBitmapNextSetBit_spec (hint : max.toNat ≤ 2 ^ 31)
    (hstart : start ≤ max) :
    start ≤ metalBitmapNextSetBit bitmap start max ∧
      metalBitmapNextSetBit bitmap start max ≤ max ∧
      (∀ x, start ≤ x → x < metalBitmapNextSetBit bitmap start max →
        metalBitmapIsBitSet bitmap x.toNat = false) ∧
      (metalBitmapNextSetBit bitmap start max < max →
        metalBitmapIsBitSet bitmap
          (metalBitmapNextSetBit bitmap start max).toNat = true) := by
  have hle := UInt32.le_iff_toNat_le.mp hstart
  obtain ⟨d, hd, heq, hall, hstop⟩ := nextSetBitLoop_spec bitmap hint
    (max.toNat - start.toNat) (by omega : start.toNat + _ = max.toNat)
  rw [← metalBitmapNextSetBit] at heq
  simp only [UInt32.le_iff_toNat_le, UInt32.lt_iff_toNat_lt, heq]
  refine ⟨by omega, by omega, fun x hx hlt => ?_, fun hlt => hstop (by omega)⟩
  have hx' := hall (x.toNat - start.toNat) (by omega)
  rwa [Nat.add_sub_cancel' hx] at hx'

theorem mem_forEachSetBit (hint : max.toNat ≤ 2 ^ 31) (fuel : Nat) :
    ∀ {bit x : UInt32}, bit ≤ max → max.toNat < bit.toNat + fuel →
    (bit < max → metalBitmapIsBitSet bitmap bit.toNat = true) →
    (x ∈ forEachSetBit bitmap max fuel bit ↔
      bit ≤ x ∧ x < max ∧ metalBitmapIsBitSet bitmap x.toNat = true) := by
  induction fuel with
  | zero =>
    intro bit x hle hfuel _
    have hle' := UInt32.le_iff_toNat_le.mp hle
    omega
  | succ fuel ih =>
    intro bit x hle hfuel hset
    rw [forEachSetBit]
    split
    · next hlt =>
      have hlt' := UInt32.lt_iff_toNat_lt.mp hlt
      have hnext : (bit + 1).toNat = bit.toNat + 1 := by
        rw [UInt32.toNat_add, UInt32.toNat_one]
        omega
      obtain ⟨hfrom, hto, hclear, hset'⟩ := metalBitmapNextSetBit_spec bitmap
        hint (UInt32.le_iff_toNat_le.mpr (by omega) : bit + 1 ≤ max)
      have hfrom' := UInt32.le_iff_toNat_le.mp hfrom
      rw [List.mem_cons, ih hto (by omega) hset']
      constructor
      · rintro (rfl | ⟨hx, hxlt, hxset⟩)
        · exact ⟨UInt32.le_refl _, hlt, hset hlt⟩
        · refine ⟨UInt32.le_iff_toNat_le.mpr ?_, hxlt, hxset⟩
          have hx' := UInt32.le_iff_toNat_le.mp hx
          omega
      · rintro ⟨hx, hxlt, hxset⟩
        by_cases heq : x = bit
        · exact .inl heq
        · refine .inr ⟨?_, hxlt, hxset⟩
          -- what lies before the next set bit is clear
          by_contra hbefore
          have hx' := UInt32.le_iff_toNat_le.mp hx
          have hne : x.toNat ≠ bit.toNat := fun h =>
            heq (UInt32.toNat_inj.mp h)
          have hbefore' := hclear x (UInt32.le_iff_toNat_le.mpr (by omega))
            (UInt32.not_le.mp hbefore)
          rw [hxset] at hbefore'
          cases hbefore'
    · next hge =>
      constructor
      · intro hx
        cases hx
      · rintro ⟨hx, hxlt, -⟩
        exact absurd (UInt32.lt_of_le_of_lt hx hxlt) hge

/-- **The iteration visits the set bits.** -/
theorem mem_metalBitmapForEachSetBit (hint : max.toNat ≤ 2 ^ 31)
    {x : UInt32} : x ∈ metalBitmapForEachSetBit bitmap max ↔
      x < max ∧ metalBitmapIsBitSet bitmap x.toNat = true := by
  have hzero : (0 : UInt32) ≤ max :=
    UInt32.le_iff_toNat_le.mpr (by simp)
  obtain ⟨-, hto, hclear, hset⟩ :=
    metalBitmapNextSetBit_spec bitmap hint hzero
  rw [metalBitmapForEachSetBit,
    mem_forEachSetBit bitmap hint _ hto (by omega) hset]
  constructor
  · exact fun h => h.2
  · rintro ⟨hlt, hx⟩
    refine ⟨?_, hlt, hx⟩
    by_contra hbefore
    have hx' := hclear x (UInt32.le_iff_toNat_le.mpr (by simp))
      (UInt32.not_le.mp hbefore)
    rw [hx] at hx'
    cases hx'

end OpenAmp.Metal
