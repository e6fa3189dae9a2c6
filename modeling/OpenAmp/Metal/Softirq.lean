import OpenAmp.Metal.Irq

/-!
# Software interrupts

`metal_softirq_init` and `metal_softirq_allocate` of
`libmetal/lib/softirq.c`. The numbers of one interrupt controller are
handed out from the bottom, by a counter that every request moves. The
limit test refuses the request that would take the last number, and nothing
looks at the sign of a request.

The counter is an `int` and its sum with a request wraps; interrupt numbers
are integers, as for the other controllers.
-/

namespace OpenAmp.Metal

open OpenAmp.Lib

def METAL_SOFTIRQ_NUM : Int32 := 64

/-- The `num` numbers from `base` on. -/
structure SoftirqRange where
  base : Int
  num : Int32
deriving DecidableEq, Repr

/-- The number is in the range. -/
def SoftirqRange.Covers (r : SoftirqRange) (irq : Int) : Prop :=
  r.base ≤ irq ∧ irq < r.base + r.num.toInt

instance (r : SoftirqRange) (irq : Int) : Decidable (r.Covers irq) :=
  inferInstanceAs (Decidable (_ ∧ _))

/-- `metal_softirq_cntr.irq_base` and `metal_softirq_avail`, with what has
happened: the ranges returned, and the requests refused, each with how many
numbers were left. -/
structure SoftirqState where
  irqBase : Int
  avail : Int32
  granted : List SoftirqRange
  refused : List (Int32 × Nat)

namespace SoftirqState

variable (s : SoftirqState)

/-- How many of the controller's numbers are in no range returned. -/
def left : Nat :=
  (List.range 64).countP fun i : Nat =>
    s.granted.all fun r => ¬ r.Covers (s.irqBase + i)

/-- The numbers returned are disjoint and the controller's, and no request
was refused for which there were enough left. -/
structure Right : Prop where
  disjoint : s.granted.Pairwise fun r r' => ∀ irq,
    ¬ (r.Covers irq ∧ r'.Covers irq)
  inside : ∀ r ∈ s.granted, ∀ irq, r.Covers irq →
    s.irqBase ≤ irq ∧ irq < s.irqBase + METAL_SOFTIRQ_NUM.toInt
  exhausted : ∀ q ∈ s.refused, 0 < q.1 → (q.2 : Int) < q.1.toInt

/-- The request is not negative, its sum with the counter is an `int`, and
it does not ask for exactly the numbers that are left. -/
structure Fits (num : Int32) : Prop where
  nonneg : 0 ≤ num.toInt
  noWrap : s.avail.toInt + num.toInt < 2147483648
  notLast : 0 < num.toInt → s.avail.toInt + num.toInt ≠ 64

/-- The counter says which numbers were returned. -/
structure Counted : Prop where
  nonneg : 0 ≤ s.avail.toInt
  lt : s.avail.toInt < 64
  covered : ∀ irq, (∃ r ∈ s.granted, r.Covers irq) ↔
    s.irqBase ≤ irq ∧ irq < s.irqBase + s.avail.toInt

end SoftirqState

/-- `metal_softirq_init` after the registrations of `cntrs`: the state in
which it leaves the allocation. -/
def metalSoftirqInit (cntrs : IrqCntrs) : SoftirqState where
  irqBase := metalIrqAllocate cntrs METAL_IRQ_ANY METAL_SOFTIRQ_NUM.toInt
  avail := 0
  granted := []
  refused := []

/-- `metal_softirq_allocate`. -/
def metalSoftirqAllocate (s : SoftirqState) (num : Int32) :
    Int × SoftirqState :=
  if METAL_SOFTIRQ_NUM ≤ s.avail + num then
    (-IRQ_EINVAL, { s with refused := (num, s.left) :: s.refused })
  else
    let irqBase := s.avail.toInt + s.irqBase
    (irqBase, { s with
      avail := s.avail + num
      granted := ⟨irqBase, num⟩ :: s.granted })

/-- One request. -/
def AllocateStep (s : SoftirqState) (num : Int32) (t : SoftirqState) : Prop :=
  t = (metalSoftirqAllocate s num).2

/-! ## One request -/

namespace SoftirqState

variable {s : SoftirqState} {num : Int32}

/-- How many numbers are left, by the counter. -/
theorem Counted.left_eq (h : s.Counted) :
    (s.left : Int) = 64 - s.avail.toInt := by
  have hcount : ∀ a n, (List.range n).countP (fun i => decide (a ≤ i)) =
      n - a := by
    intro a n
    induction n with
    | zero => simp
    | succ n ih =>
      rw [List.range_succ, List.countP_append, ih, List.countP_singleton]
      by_cases ha : a ≤ n
      · simp [ha]
        omega
      · simp [ha]
        omega
  have hpred : ∀ i : Nat, (s.granted.all fun r =>
      ¬ r.Covers (s.irqBase + i)) = decide (s.avail.toInt.toNat ≤ i) := by
    intro i
    have hcov := h.covered (s.irqBase + i)
    rw [Bool.eq_iff_iff, List.all_eq_true, decide_eq_true_eq]
    simp only [decide_eq_true_eq]
    have hnone : (∀ r ∈ s.granted, ¬ r.Covers (s.irqBase + i)) ↔
        ¬ ∃ r ∈ s.granted, r.Covers (s.irqBase + i) := by
      simp
    rw [hnone, hcov]
    omega
  have hlt := h.lt
  have hnn := h.nonneg
  rw [left]
  simp only [hpred, hcount]
  omega

theorem sum_toInt (h : s.Counted) (hfit : s.Fits num) :
    (s.avail + num).toInt = s.avail.toInt + num.toInt := by
  have hnn := h.nonneg
  have hnum := hfit.nonneg
  have hwrap := hfit.noWrap
  rw [Int32.toInt_add, Int.bmod_eq_of_le (by omega) (by omega)]

/-- A request that fits is refused where too few numbers are left, -/
theorem allocate_refused (h : s.Counted) (hfit : s.Fits num)
    (hfull : METAL_SOFTIRQ_NUM ≤ s.avail + num) :
    (s.left : Int) < num.toInt := by
  have hle := Int32.le_iff_toInt_le.mp hfull
  have h64 : METAL_SOFTIRQ_NUM.toInt = 64 := rfl
  have hnum := hfit.nonneg
  have hlt := h.lt
  have hlast := hfit.notLast
  rw [sum_toInt h hfit, h64] at hle
  rw [h.left_eq]
  omega

/-- and otherwise takes the numbers behind those returned. -/
theorem allocate_counted (h : s.Counted) (hfit : s.Fits num) :
    (metalSoftirqAllocate s num).2.Counted := by
  unfold metalSoftirqAllocate
  by_cases hfull : METAL_SOFTIRQ_NUM ≤ s.avail + num
  · rw [if_pos hfull]
    exact ⟨h.nonneg, h.lt, h.covered⟩
  · rw [if_neg hfull]
    have hsum := sum_toInt h hfit
    have hlt := mt Int32.le_iff_toInt_le.mpr hfull
    have h64 : METAL_SOFTIRQ_NUM.toInt = 64 := rfl
    have hnn := h.nonneg
    have hnum := hfit.nonneg
    refine ⟨?_, ?_, fun irq => ?_⟩
    · dsimp only
      omega
    · dsimp only
      omega
    · have hcov := h.covered irq
      simp only [List.mem_cons, exists_eq_or_imp]
      rw [hcov, hsum]
      simp only [SoftirqRange.Covers]
      omega

theorem allocate_right (h : s.Counted) (hright : s.Right)
    (hfit : s.Fits num) : (metalSoftirqAllocate s num).2.Right := by
  have hafter := allocate_counted h hfit
  unfold metalSoftirqAllocate at hafter ⊢
  by_cases hfull : METAL_SOFTIRQ_NUM ≤ s.avail + num
  · rw [if_pos hfull]
    refine ⟨hright.disjoint, hright.inside, fun q hq hpos => ?_⟩
    rcases List.mem_cons.mp hq with rfl | hq
    · exact allocate_refused h hfit hfull
    · exact hright.exhausted q hq hpos
  · rw [if_neg hfull] at hafter ⊢
    refine ⟨List.pairwise_cons.mpr ⟨?_, hright.disjoint⟩, ?_,
      hright.exhausted⟩
    · -- what was returned before lies below the counter
      rintro r hr irq ⟨hnew, hold⟩
      have hbelow := (h.covered irq).mp ⟨r, hr, hold⟩
      simp only [SoftirqRange.Covers] at hnew
      omega
    · intro r hr irq hcov
      have hin := (hafter.covered irq).mp ⟨r, hr, hcov⟩
      have hlt := hafter.lt
      have h64 : METAL_SOFTIRQ_NUM.toInt = 64 := rfl
      dsimp only at hin hlt ⊢
      omega

/-- A request that does not fit shows at once, or when one number is asked
for next. -/
theorem allocate_not_fits (h : s.Counted) (hnot : ¬ s.Fits num) :
    ¬ ((metalSoftirqAllocate s num).2.Right ∧
      (metalSoftirqAllocate (metalSoftirqAllocate s num).2 1).2.Right) := by
  have hnn := h.nonneg
  have hlt := h.lt
  have h64 : METAL_SOFTIRQ_NUM.toInt = 64 := rfl
  have h1 : (1 : Int32).toInt = 1 := rfl
  have hhigh := num.toInt_lt
  have hlow := num.le_toInt
  rintro ⟨hfirst, hnext⟩
  by_cases hneg : num.toInt < 0
  · -- the counter falls below what was returned
    have hsum : (s.avail + num).toInt = s.avail.toInt + num.toInt := by
      rw [Int32.toInt_add, Int.bmod_eq_of_le (by omega) (by omega)]
    have hok : ¬ METAL_SOFTIRQ_NUM ≤ s.avail + num := by
      rw [Int32.le_iff_toInt_le]
      omega
    have hsum1 : (s.avail + num + 1).toInt = s.avail.toInt + num.toInt + 1 := by
      rw [Int32.toInt_add, hsum, h1, Int.bmod_eq_of_le (by omega) (by omega)]
    have hok1 : ¬ METAL_SOFTIRQ_NUM ≤ s.avail + num + 1 := by
      rw [Int32.le_iff_toInt_le]
      omega
    simp only [metalSoftirqAllocate, if_neg hok, if_neg hok1] at hnext
    have hcov : SoftirqRange.Covers ⟨(s.avail + num).toInt + s.irqBase, 1⟩
        ((s.avail + num).toInt + s.irqBase) := by
      simp only [SoftirqRange.Covers]
      omega
    have hin := hnext.inside _ List.mem_cons_self _ hcov
    dsimp only at hin
    obtain ⟨r, hr, hold⟩ := (h.covered ((s.avail + num).toInt + s.irqBase)).mpr
      (by omega)
    have hdis := (List.pairwise_cons.mp hnext.disjoint).1 r
      (List.mem_cons_of_mem _ hr)
    exact hdis _ ⟨hcov, hold⟩
  · by_cases hwrap : s.avail.toInt + num.toInt < 2147483648
    · have hsum : (s.avail + num).toInt = s.avail.toInt + num.toInt := by
        rw [Int32.toInt_add, Int.bmod_eq_of_le (by omega) (by omega)]
      -- the numbers that are left are refused
      have hlast : 0 < num.toInt ∧ s.avail.toInt + num.toInt = 64 := by
        by_contra hno
        exact hnot ⟨by omega, hwrap, fun hpos heq => hno ⟨hpos, heq⟩⟩
      have hfull : METAL_SOFTIRQ_NUM ≤ s.avail + num := by
        rw [Int32.le_iff_toInt_le]
        omega
      simp only [metalSoftirqAllocate, if_pos hfull] at hfirst
      have hex := hfirst.exhausted _ List.mem_cons_self
        (Int32.lt_iff_toInt_lt.mpr hlast.1)
      dsimp only at hex
      rw [h.left_eq] at hex
      omega
    · -- the sum wraps to a negative number
      have hsum : (s.avail + num).toInt = s.avail.toInt + num.toInt - 2 ^ 32 := by
        rw [Int32.toInt_add, Int.bmod_def]
        split <;> omega
      have hok : ¬ METAL_SOFTIRQ_NUM ≤ s.avail + num := by
        rw [Int32.le_iff_toInt_le]
        omega
      simp only [metalSoftirqAllocate, if_neg hok] at hfirst
      have hin := hfirst.inside _ List.mem_cons_self
        (s.irqBase + 64) (by simp only [SoftirqRange.Covers]; omega)
      dsimp only at hin
      omega

end SoftirqState

/-! ## Runs -/

theorem metalSoftirqInit_counted (cntrs : IrqCntrs) :
    (metalSoftirqInit cntrs).Counted := by
  have h0 : (metalSoftirqInit cntrs).avail.toInt = 0 := rfl
  refine ⟨by omega, by omega, fun irq => ?_⟩
  have hnone : (metalSoftirqInit cntrs).granted = [] := rfl
  rw [h0, hnone]
  simp

/-- **Software interrupts** are right throughout a run whose requests all
fit. -/
theorem softirqs_right (cntrs : IrqCntrs) (nums : List Int32)
    (h : EachStep AllocateStep (metalSoftirqInit cntrs) nums
      SoftirqState.Fits) :
    Throughout AllocateStep (metalSoftirqInit cntrs) nums
      SoftirqState.Right := by
  have hstep : ∀ s num t, s.Counted ∧ s.Right → SoftirqState.Fits s num →
      AllocateStep s num t → t.Counted ∧ t.Right := by
    rintro s num t ⟨hcounted, hright⟩ hfit rfl
    exact ⟨SoftirqState.allocate_counted hcounted hfit,
      SoftirqState.allocate_right hcounted hright hfit⟩
  have hinit : (metalSoftirqInit cntrs).Right :=
    ⟨List.Pairwise.nil, fun r hr => absurd hr (by simp [metalSoftirqInit]),
      fun q hq => absurd hq (by simp [metalSoftirqInit])⟩
  intro done rest s htr hpath
  exact (h.throughout hstep ⟨metalSoftirqInit_counted cntrs, hinit⟩ done rest s
    htr hpath).2

/-- Requests for 60 numbers, for none, for ten, which are refused, and for
three. -/
theorem softirqs_right_sixty :
    Throughout AllocateStep (metalSoftirqInit []) [60, 0, 10, 3]
      SoftirqState.Right := by
  refine softirqs_right [] [60, 0, 10, 3] ?_
  refine EachStep.cons ⟨by decide, by decide, by decide⟩ fun s hs => ?_
  subst hs
  refine EachStep.cons ⟨by decide, by decide, by decide⟩ fun s hs => ?_
  subst hs
  refine EachStep.cons ⟨by decide, by decide, by decide⟩ fun s hs => ?_
  subst hs
  exact EachStep.cons ⟨by decide, by decide, by decide⟩ fun _ _ => eachStep_nil _ _

/-- All 64 numbers are refused to the first request that asks for them.
After a request for ten and one for minus five, two numbers are handed out
a second time. -/
theorem softirqs_not_right :
    (∃ s, Path AllocateStep (metalSoftirqInit []) [64] s ∧
      s.refused = [(64, 64)] ∧ ¬ s.Right) ∧
    ∃ s, Path AllocateStep (metalSoftirqInit []) [10, -5, 2] s ∧ ¬ s.Right := by
  refine ⟨⟨_, .cons rfl (.nil _), by decide, fun h => ?_⟩,
    _, .cons rfl (.cons rfl (.cons rfl (.nil _))), fun h => ?_⟩
  · exact absurd (h.exhausted (64, 64) (by decide) (by decide)) (by decide)
  · have hdis := List.pairwise_cons.mp h.disjoint
    exact hdis.1 ⟨0, 10⟩ (by decide) 5 (by decide)

end OpenAmp.Metal
