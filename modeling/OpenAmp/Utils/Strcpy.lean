import OpenAmp.Lib.Bytes
import OpenAmp.Lib.Traced

/-!
# The bounded string copy

`safe_strcpy` of `open-amp/lib/utils/utilities.c`. One counter runs down
while the bytes are copied; what is left of it gives the length of the
zero fill and the result. Both are right for a string that fills its
source buffer in front of a larger destination, and for one that ends in
the part of the source that is not larger than the destination; in the
other two cases the fill is one byte too long or the result counts the
character that the terminator replaces.
-/

namespace OpenAmp.Utils

open OpenAmp.Lib

/-- The `while` loop of `safe_strcpy` at byte `i` of both strings, behind
the decrement of `nleft`: what is left of it, where `dst` stands, and the
destination. Reads and writes are recorded against the two sizes. -/
def strcpyLoop (dSize sSize : Nat) (src : Mem) :
    Nat → Nat → Mem → Traced Access (Nat × Nat × Mem)
  | 0, i, dst => pure (0, i, dst)
  | nleft + 1, i, dst => do
    let c ← accessAt (src i) i 1 sSize
    let dst ← accessAt (Function.update dst i c) i 1 dSize
    if c = 0 then pure (nleft + 1, i + 1, dst)
    else strcpyLoop dSize sSize src nleft (i + 1) dst

/-- `safe_strcpy`. Where `size + 1` wraps to zero, the first decrement
takes it back to `size`. -/
def safeStrcpy (dst : Mem) (dSize : Nat) (src : Mem) (sSize : Nat) :
    Traced Access (Nat × Mem) :=
  let size := min sSize dSize
  if dSize = 0 then pure (0, dst)
  else do
    let (nleft, i, dst) ← strcpyLoop dSize sSize src size 0 dst
    let dst ← if size < dSize then
        let n := dSize - size + nleft
        accessAt (writeBytes dst i (List.replicate n 0)) i n dSize
      else accessAt (Function.update dst (dSize - 1) 0) (dSize - 1) 1 dSize
    pure (size - nleft, dst)

/-- The contract: accesses stay in the two buffers, the destination holds
the longest part of the source string that fits in front of a terminator,
and its length is returned. -/
structure StrcpyMeets (dst : Mem) (dSize : Nat) (src : Mem) (sSize : Nat) :
    Prop where
  inside : (safeStrcpy dst dSize src sSize).Safe Access.Inside
  terminated : strnlen (safeStrcpy dst dSize src sSize).val.2 0 dSize < dSize
  longest : strnlen (safeStrcpy dst dSize src sSize).val.2 0 dSize =
    min (strnlen src 0 sSize) (dSize - 1)
  copied : Agree src (safeStrcpy dst dSize src sSize).val.2 0
    (min (strnlen src 0 sSize) (dSize - 1))
  returned : (safeStrcpy dst dSize src sSize).val.1 =
    strnlen (safeStrcpy dst dSize src sSize).val.2 0 dSize

/-- A zero comes among the bytes that both buffers have room for, exactly
when the destination is not the larger one. -/
def StrcpySizes (dSize : Nat) (src : Mem) (sSize : Nat) : Prop :=
  dSize ≤ sSize ↔ ∃ i < min sSize dSize, src i = 0

instance (dSize : Nat) (src : Mem) (sSize : Nat) :
    Decidable (StrcpySizes dSize src sSize) :=
  inferInstanceAs (Decidable (_ ↔ _))

/-! ## The loop -/

/-- The number of bytes the loop copies: the terminator with them if there
is one. -/
def copyLen (src : Mem) (i k : Nat) : Nat := min (strnlen src i k + 1) k

variable {dSize sSize : Nat} {src : Mem}

theorem strcpyLoop_succ_val (k i : Nat) (dst : Mem) :
    (strcpyLoop dSize sSize src (k + 1) i dst).val =
      if src i = 0 then (k + 1, i + 1, Function.update dst i (src i))
      else (strcpyLoop dSize sSize src k (i + 1)
        (Function.update dst i (src i))).val :=
  Traced.val_ite (src i = 0) (pure _) _

/-- What is left of the counter, where the pointers stand, and which bytes
were copied. -/
theorem strcpyLoop_val (k : Nat) : ∀ (i : Nat) (dst : Mem),
    (strcpyLoop dSize sSize src k i dst).val =
      (k - strnlen src i k, i + copyLen src i k,
        fun j => if i ≤ j ∧ j < i + copyLen src i k then src j else dst j) := by
  induction k with
  | zero =>
    intro i dst
    have hno : ∀ j, ¬ (i ≤ j ∧ j < i + copyLen src i 0) := by
      intro j
      simp only [copyLen]
      omega
    simp only [strcpyLoop, hno, if_false]
    rfl
  | succ k ih =>
    intro i dst
    rw [strcpyLoop_succ_val]
    split
    · next h0 =>
      have hlen : strnlen src i (k + 1) = 0 := by rw [strnlen, if_pos h0]
      have hcopy : copyLen src i (k + 1) = 1 := by
        simp only [copyLen, hlen]
        omega
      rw [hlen, hcopy, h0]
      refine congrArg (fun m => (k + 1, i + 1, m)) (funext fun j => ?_)
      by_cases hj : j = i
      · subst hj
        rw [Function.update_self, if_pos ⟨Nat.le_refl j, Nat.lt_succ_self j⟩,
          h0]
      · rw [Function.update_of_ne hj, if_neg (by omega)]
    · next hne =>
      have hlen : strnlen src i (k + 1) = strnlen src (i + 1) k + 1 := by
        rw [strnlen, if_neg hne]
      have hcopy : copyLen src i (k + 1) = copyLen src (i + 1) k + 1 := by
        simp only [copyLen, hlen]
        omega
      rw [ih, hlen, hcopy, Nat.add_sub_add_right]
      refine congrArg₂ (fun a m => (k - strnlen src (i + 1) k, a, m))
        (by omega) (funext fun j => ?_)
      by_cases hj : j = i
      · subst hj
        rw [if_neg (by omega), if_pos (by omega), Function.update_self]
      · rw [Function.update_of_ne hj]
        have hiff : (i + 1 ≤ j ∧ j < i + 1 + copyLen src (i + 1) k) ↔
            (i ≤ j ∧ j < i + (copyLen src (i + 1) k + 1)) := by omega
        simp only [hiff]

/-- It stays in both buffers if its rounds do. -/
theorem strcpyLoop_safe (k : Nat) : ∀ (i : Nat) (dst : Mem),
    i + k ≤ min sSize dSize →
      (strcpyLoop dSize sSize src k i dst).Safe Access.Inside := by
  induction k with
  | zero => exact fun i dst _ => Traced.safe_pure _
  | succ k ih =>
    intro i dst hk
    simp only [strcpyLoop, Traced.safe_bind, safe_accessAt, Traced.safe_ite,
      Traced.safe_pure]
    exact ⟨by omega, by omega, fun _ => trivial,
      fun _ => ih (i + 1) _ (by omega)⟩

/-! ## The whole function -/

variable {dst : Mem}

/-- What it returns: the number of bytes before the first zero among those
that both buffers have room for. -/
theorem safeStrcpy_ret (hd : 0 < dSize) :
    (safeStrcpy dst dSize src sSize).val.1 =
      strnlen src 0 (min sSize dSize) := by
  have hle := strnlen_le src 0 (min sSize dSize)
  simp only [safeStrcpy, if_neg (Nat.ne_of_gt hd), Traced.val_bind,
    Traced.val_pure, Traced.val_ite, strcpyLoop_val]
  split <;> omega

/-- What it leaves in the destination: the copied bytes and, behind them,
zeros up to where the fill ends, or one zero in the last place. -/
theorem safeStrcpy_mem (hd : 0 < dSize) (j : Nat) :
    (safeStrcpy dst dSize src sSize).val.2 j =
      if sSize < dSize then
        if j < copyLen src 0 sSize then src j
        else if j < copyLen src 0 sSize + (dSize - strnlen src 0 sSize) then 0
        else dst j
      else if j = dSize - 1 then 0
      else if j < copyLen src 0 dSize then src j else dst j := by
  simp only [safeStrcpy, if_neg (Nat.ne_of_gt hd), Traced.val_bind,
    Traced.val_pure, Traced.val_ite, val_accessAt, strcpyLoop_val,
    Nat.zero_add, Nat.zero_le, true_and]
  by_cases hlt : sSize < dSize
  · have hmin : min sSize dSize = sSize := Nat.min_eq_left (Nat.le_of_lt hlt)
    have hle := strnlen_le src 0 sSize
    rw [hmin, if_pos hlt, if_pos hlt]
    generalize copyLen src 0 sSize = c
    rw [show dSize - sSize + (sSize - strnlen src 0 sSize) =
      dSize - strnlen src 0 sSize from by omega]
    simp only [writeBytes]
    by_cases hc : j < c
    · rw [if_neg (by omega), if_pos hc, if_pos hc]
    · rw [if_pos (by omega), if_neg hc, if_neg hc]
      by_cases hj : j < c + (dSize - strnlen src 0 sSize)
      · rw [if_pos hj, List.getElem?_replicate, if_pos (by omega)]
        rfl
      · rw [if_neg hj, List.getElem?_replicate, if_neg (by omega)]
        rfl
  · have hmin : min sSize dSize = dSize := Nat.min_eq_right (by omega)
    rw [hmin, if_neg (Nat.lt_irrefl dSize), if_neg hlt]
    dsimp only
    by_cases hj : j = dSize - 1
    · subst hj
      rw [Function.update_self, if_pos rfl]
    · rw [Function.update_of_ne hj, if_neg hj]

/-- Its accesses stay in the buffers unless a string ends before the end
of a source that is smaller than the destination. -/
theorem safeStrcpy_safe (hd : 0 < dSize) :
    (safeStrcpy dst dSize src sSize).Safe Access.Inside ↔
      (sSize < dSize → strnlen src 0 sSize = sSize) := by
  simp only [safeStrcpy, if_neg (Nat.ne_of_gt hd), Traced.safe_bind,
    Traced.safe_ite, Traced.safe_pure, safe_accessAt, strcpyLoop_val, and_true,
    Nat.zero_add]
  have hloop : (strcpyLoop dSize sSize src (min sSize dSize) 0 dst).Safe
      Access.Inside := strcpyLoop_safe _ _ _ (by omega)
  have hle := strnlen_le src 0 sSize
  rw [and_iff_right hloop]
  by_cases hlt : sSize < dSize
  · have hmin : min sSize dSize = sSize := Nat.min_eq_left (Nat.le_of_lt hlt)
    rw [hmin]
    simp only [hlt, true_implies, not_true_eq_false, false_implies, and_true]
    simp only [copyLen]
    omega
  · have hmin : min sSize dSize = dSize := Nat.min_eq_right (by omega)
    rw [hmin]
    simp only [hlt, Nat.lt_irrefl, false_implies, not_false_eq_true,
      true_implies, true_and, iff_true]
    omega

/-- The string it leaves is always the longest part that fits, -/
theorem safeStrcpy_copied (hd : 0 < dSize) :
    Agree src (safeStrcpy dst dSize src sSize).val.2 0
      (min (strnlen src 0 sSize) (dSize - 1)) := by
  intro j _ hj
  have hle := strnlen_le src 0 sSize
  rw [safeStrcpy_mem hd]
  by_cases hlt : sSize < dSize
  · rw [if_pos hlt, if_pos (by simp only [copyLen]; omega)]
  · have hcopy : j < copyLen src 0 dSize := by
      simp only [copyLen]
      by_contra hge
      -- a zero at or before `j` would end the source string there
      have hend : strnlen src 0 dSize < dSize := by omega
      have := strnlen_of_le hend (show dSize ≤ sSize by omega)
      omega
    rw [if_neg hlt, if_neg (by omega), if_pos hcopy]

/-- and a terminator follows it. -/
theorem safeStrcpy_longest (hd : 0 < dSize) :
    strnlen (safeStrcpy dst dSize src sSize).val.2 0 dSize =
      min (strnlen src 0 sSize) (dSize - 1) := by
  have hle := strnlen_le src 0 sSize
  apply strnlen_eq (by omega)
  · intro i hi
    have hcopied := @safeStrcpy_copied dSize sSize src dst hd i
      (Nat.zero_le i) (by omega)
    rw [Nat.zero_add, hcopied, ← Nat.zero_add i]
    exact ne_zero_of_lt_strnlen (show i < strnlen src 0 sSize by omega)
  · intro hn
    rw [Nat.zero_add, safeStrcpy_mem hd]
    by_cases hlt : sSize < dSize
    · have hmin : min (strnlen src 0 sSize) (dSize - 1) =
          strnlen src 0 sSize := by omega
      rw [if_pos hlt, hmin]
      by_cases hend : strnlen src 0 sSize < sSize
      · have h0 := strnlen_end hend
        rw [Nat.zero_add] at h0
        rw [if_pos (by simp only [copyLen]; omega), h0]
      · rw [if_neg (by simp only [copyLen]; omega),
          if_pos (by simp only [copyLen]; omega)]
    · rw [if_neg hlt]
      by_cases hlast : min (strnlen src 0 sSize) (dSize - 1) = dSize - 1
      · rw [if_pos hlast]
      · have hend : strnlen src 0 sSize < sSize := by omega
        have h0 := strnlen_end hend
        rw [Nat.zero_add] at h0
        have hmin : min (strnlen src 0 sSize) (dSize - 1) =
            strnlen src 0 sSize := by omega
        have hlen : strnlen src 0 dSize = strnlen src 0 sSize :=
          strnlen_eq (by omega) (fun _ hi => ne_zero_of_lt_strnlen hi)
            fun _ => by rwa [Nat.zero_add]
        rw [if_neg hlast, hmin, if_pos (by simp only [copyLen]; omega), h0]

/-- The result is that length unless a string does not end in the room
there is for it. -/
theorem safeStrcpy_returned (hd : 0 < dSize) :
    (safeStrcpy dst dSize src sSize).val.1 =
        strnlen (safeStrcpy dst dSize src sSize).val.2 0 dSize ↔
      (dSize ≤ sSize → strnlen src 0 dSize < dSize) := by
  rw [safeStrcpy_ret hd, safeStrcpy_longest hd]
  have hle := strnlen_le src 0 dSize
  by_cases hlt : sSize < dSize
  · have hle' := strnlen_le src 0 sSize
    rw [Nat.min_eq_left (Nat.le_of_lt hlt)]
    omega
  · rw [Nat.min_eq_right (show dSize ≤ sSize by omega)]
    by_cases hend : strnlen src 0 dSize < dSize
    · have := strnlen_of_le hend (show dSize ≤ sSize by omega)
      omega
    · omega

/-- **The bounded string copy**: it meets its contract exactly when the
sizes and the end of the string go together. -/
theorem safeStrcpy_meets_iff (hd : 0 < dSize) :
    StrcpyMeets dst dSize src sSize ↔ StrcpySizes dSize src sSize := by
  have hsizes : StrcpySizes dSize src sSize ↔
      (dSize ≤ sSize ↔ strnlen src 0 (min sSize dSize) < min sSize dSize) := by
    simp only [StrcpySizes, strnlen_lt_iff, Nat.zero_add]
  have hboth : StrcpySizes dSize src sSize ↔
      (sSize < dSize → strnlen src 0 sSize = sSize) ∧
        (dSize ≤ sSize → strnlen src 0 dSize < dSize) := by
    rw [hsizes]
    by_cases hlt : sSize < dSize
    · have hle := strnlen_le src 0 sSize
      rw [Nat.min_eq_left (Nat.le_of_lt hlt)]
      omega
    · rw [Nat.min_eq_right (show dSize ≤ sSize by omega)]
      omega
  rw [hboth, ← @safeStrcpy_safe dSize sSize src dst hd,
    ← @safeStrcpy_returned dSize sSize src dst hd]
  constructor
  · exact fun h => ⟨h.inside, h.returned⟩
  · rintro ⟨hinside, hreturned⟩
    have hlong := @safeStrcpy_longest dSize sSize src dst hd
    exact ⟨hinside, by omega, hlong, safeStrcpy_copied hd, hreturned⟩

/-- The three bytes `a`, `b` and a zero, between buffers of that size. -/
theorem safeStrcpy_meets_iff_ab :
    StrcpyMeets (fun _ => 255) 3 (fun i => [97, 98, 0].getD i 255) 3 ↔
      StrcpySizes 3 (fun i => [97, 98, 0].getD i 255) 3 :=
  safeStrcpy_meets_iff (by decide)

/-- The string `a` in a source of two bytes for a destination of three: the
fill runs over the end. Two characters without a terminator for a
destination of two: the result counts the one that was replaced. -/
theorem safeStrcpy_not_meets :
    ¬ StrcpyMeets (fun _ => 255) 3 (fun i => [97, 0].getD i 255) 2 ∧
    (safeStrcpy (fun _ => 255) 3 (fun i => [97, 0].getD i 255) 2).log =
      [⟨0, 1, 2⟩, ⟨0, 1, 3⟩, ⟨1, 1, 2⟩, ⟨1, 1, 3⟩, ⟨2, 2, 3⟩] ∧
    ¬ StrcpyMeets (fun _ => 255) 2 (fun i => [97, 98].getD i 255) 2 ∧
    (safeStrcpy (fun _ => 255) 2 (fun i => [97, 98].getD i 255) 2).val.1 =
      2 := by
  refine ⟨fun h => ?_, by decide, fun h => ?_, by decide⟩
  · exact absurd (h.inside ⟨2, 2, 3⟩ (by decide)) (by decide)
  · exact absurd h.returned (by decide)

end OpenAmp.Utils
