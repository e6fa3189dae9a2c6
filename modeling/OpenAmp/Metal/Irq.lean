import OpenAmp.Lib.Transition

/-!
# Interrupt controllers

`metal_irq_register_controller` and `metal_irq_get_controller` of
`libmetal/lib/irq.c`. A controller owns the interrupt numbers from its base
on; one registered without a base gets the first place at which one pass
over the list of controllers leaves the search. The list is in the order of
registration, so a controller that was passed can lie behind the place to
which a later one moves the search.

Interrupt numbers are integers: no range is taken to overflow an `int`.
-/

namespace OpenAmp.Metal

open OpenAmp.Lib

def METAL_IRQ_ANY : Int := -1

/-- `EINVAL` as `metal_irq_register_controller` returns it. -/
def IRQ_EINVAL : Int := 22

/-- `struct metal_irq_controller`, known by its list node. -/
structure IrqController where
  node : Nat
  irqBase : Int
  irqNum : Int
deriving DecidableEq, Repr

namespace IrqController

variable (c : IrqController) (irq base num : Int)

/-- The end of the controller's range. -/
def irqEnd : Int := c.irqBase + c.irqNum

/-- The number is in the controller's range. -/
def Covers : Prop := c.irqBase ≤ irq ∧ irq < c.irqEnd

instance : Decidable (c.Covers irq) := inferInstanceAs (Decidable (_ ∧ _))

/-- Some of the `num` numbers from `base` on are the controller's. -/
def Overlaps : Prop := base < c.irqEnd ∧ c.irqBase < base + num

instance : Decidable (c.Overlaps base num) :=
  inferInstanceAs (Decidable (_ ∧ _))

/-- What callers promise: numbers to own, and a base or none. -/
def Valid : Prop := 0 < c.irqNum ∧ (0 ≤ c.irqBase ∨ c.irqBase = METAL_IRQ_ANY)

instance : Decidable c.Valid := inferInstanceAs (Decidable (_ ∧ _))

end IrqController

/-- The list of controllers, in the order of registration. -/
abbrev IrqCntrs := List IrqController

/-- The loop of `metal_irq_allocate` over the controllers to go, with
`irq_tocheck` so far. -/
def irqAllocateLoop (irqBase irqNum : Int) : IrqCntrs → Int → Int
  | [], irqTocheck => irqTocheck
  | cntr :: rest, irqTocheck =>
    if cntr.Overlaps irqTocheck irqNum then
      if irqBase ≠ METAL_IRQ_ANY then METAL_IRQ_ANY
      else irqAllocateLoop irqBase irqNum rest cntr.irqEnd
    else irqAllocateLoop irqBase irqNum rest irqTocheck

/-- `metal_irq_allocate`. -/
def metalIrqAllocate (cntrs : IrqCntrs) (irqBase irqNum : Int) : Int :=
  if irqNum = 0 then METAL_IRQ_ANY
  else irqAllocateLoop irqBase irqNum cntrs
    (if irqBase = METAL_IRQ_ANY then 0 else irqBase)

/-- `metal_irq_register_controller`. -/
def metalIrqRegisterController (cntrs : IrqCntrs) (cntr : IrqController) :
    Int × IrqCntrs :=
  if cntrs.any (·.node = cntr.node) then (0, cntrs)
  else
    let irqBase := metalIrqAllocate cntrs cntr.irqBase cntr.irqNum
    if irqBase = METAL_IRQ_ANY then (-IRQ_EINVAL, cntrs)
    else (0, cntrs ++ [{ cntr with irqBase := irqBase }])

/-- `metal_irq_get_controller`. -/
def metalIrqGetController (cntrs : IrqCntrs) (irq : Int) :
    Option IrqController :=
  cntrs.find? (·.Covers irq)

/-! ## Unshared numbers -/

/-- No two controllers have a number in common, and a number finds the one
controller that has it. -/
structure IrqsUnshared (cntrs : IrqCntrs) : Prop where
  disjoint : cntrs.Pairwise fun c d => ∀ irq, ¬ (c.Covers irq ∧ d.Covers irq)
  found : ∀ irq c, metalIrqGetController cntrs irq = some c ↔
    c ∈ cntrs ∧ c.Covers irq

/-- In its pass over `rest`, after `passed`, the search moves behind a
controller for the last time, and one that it has passed has numbers
there. -/
def Overtakes (irqNum : Int) : IrqCntrs → IrqCntrs → Int → Prop
  | _, [], _ => False
  | passed, q :: rest, irqTocheck =>
    if q.Overlaps irqTocheck irqNum then
      (∀ c ∈ rest, ¬ c.Overlaps q.irqEnd irqNum) ∧
          (∃ p ∈ passed, p.Overlaps q.irqEnd irqNum) ∨
        Overtakes irqNum (passed ++ [q]) rest q.irqEnd
    else Overtakes irqNum (passed ++ [q]) rest irqTocheck

/-- The registration of a controller that is not registered and has no
base overtakes one. -/
def RegisterOvertakes (cntrs : IrqCntrs) (cntr : IrqController) : Prop :=
  (∀ c ∈ cntrs, c.node ≠ cntr.node) ∧ cntr.irqBase = METAL_IRQ_ANY ∧
    Overtakes cntr.irqNum [] cntrs 0

/-- One registration. -/
def RegisterStep (cntrs : IrqCntrs) (cntr : IrqController)
    (cntrs' : IrqCntrs) : Prop :=
  cntr.Valid ∧ cntrs' = (metalIrqRegisterController cntrs cntr).2

/-- Registered controllers own numbers and have a base. -/
def IrqsBased (cntrs : IrqCntrs) : Prop :=
  ∀ c ∈ cntrs, 0 ≤ c.irqBase ∧ 0 < c.irqNum

/-! ## The search -/

variable {cntrs rest passed : IrqCntrs} {base num irqTocheck : Int}

/-- Two ranges meet where one overlaps the other. -/
theorem overlaps_iff {c d : IrqController} (hc : 0 < c.irqNum)
    (hd : 0 < d.irqNum) :
    c.Overlaps d.irqBase d.irqNum ↔ ∃ irq, c.Covers irq ∧ d.Covers irq := by
  simp only [IrqController.Overlaps, IrqController.Covers, IrqController.irqEnd]
  constructor
  · intro h
    exact ⟨max c.irqBase d.irqBase, by omega, by omega⟩
  · rintro ⟨irq, h1, h2⟩
    omega

/-- A search from a base stays there or fails. -/
theorem irqAllocateLoop_fixed (hbase : base ≠ METAL_IRQ_ANY) :
    irqAllocateLoop base num rest irqTocheck =
      if ∃ c ∈ rest, c.Overlaps irqTocheck num then METAL_IRQ_ANY
      else irqTocheck := by
  induction rest with
  | nil => rw [if_neg (by simp)]; rfl
  | cons c rest ih =>
    rw [irqAllocateLoop]
    by_cases hc : c.Overlaps irqTocheck num
    · rw [if_pos hc, if_pos hbase, if_pos ⟨c, List.mem_cons_self, hc⟩]
    · rw [if_neg hc, ih]
      simp [hc]

/-- One without a base that meets no controller stays too. -/
theorem irqAllocateLoop_stay
    (h : ∀ c ∈ rest, ¬ c.Overlaps irqTocheck num) :
    irqAllocateLoop base num rest irqTocheck = irqTocheck := by
  induction rest with
  | nil => rfl
  | cons c rest ih =>
    rw [irqAllocateLoop, if_neg (h c List.mem_cons_self)]
    exact ih fun c' hc' => h c' (List.mem_cons_of_mem c hc')

theorem not_overtakes_stay (h : ∀ c ∈ rest, ¬ c.Overlaps irqTocheck num) :
    ¬ Overtakes num passed rest irqTocheck := by
  induction rest generalizing passed with
  | nil => exact not_false
  | cons c rest ih =>
    rw [Overtakes, if_neg (h c List.mem_cons_self)]
    exact ih fun c' hc' => h c' (List.mem_cons_of_mem c hc')

/-- Where the search ends lies a controller exactly if it was overtaken.
The place to start from is free among the controllers passed, or will be
left. -/
theorem overtakes_iff
    (hstart : (∀ p ∈ passed, ¬ p.Overlaps irqTocheck num) ∨
      ∃ c ∈ rest, c.Overlaps irqTocheck num) :
    Overtakes num passed rest irqTocheck ↔
      ∃ c ∈ passed ++ rest, c.Overlaps
        (irqAllocateLoop METAL_IRQ_ANY num rest irqTocheck) num := by
  induction rest generalizing passed irqTocheck with
  | nil =>
    rw [Overtakes, irqAllocateLoop, false_iff, List.append_nil]
    have hclean := hstart.resolve_right (by simp)
    rintro ⟨c, hc, hov⟩
    exact hclean c hc hov
  | cons q rest ih =>
    have hmem : ∀ c, c ∈ passed ++ q :: rest ↔ c ∈ passed ++ [q] ++ rest := by
      simp
    simp only [hmem]
    rw [Overtakes, irqAllocateLoop]
    by_cases hq : q.Overlaps irqTocheck num
    · rw [if_pos hq, if_pos hq, if_neg (not_not.mpr rfl)]
      have hself : ¬ q.Overlaps q.irqEnd num := fun h =>
        absurd h.1 (Int.lt_irrefl _)
      by_cases hlast : ∀ c ∈ rest, ¬ c.Overlaps q.irqEnd num
      · -- this is the last move: only the controllers passed are left
        rw [irqAllocateLoop_stay hlast, or_iff_left (not_overtakes_stay hlast),
          and_iff_right hlast]
        constructor
        · rintro ⟨p, hp, hov⟩
          exact ⟨p, by simp [hp], hov⟩
        · rintro ⟨c, hc, hov⟩
          simp only [List.mem_append, List.mem_singleton] at hc
          rcases hc with (hc | rfl) | hc
          · exact ⟨c, hc, hov⟩
          · exact absurd hov hself
          · exact absurd hov (hlast c hc)
      · rw [or_iff_right (fun h => hlast h.1)]
        refine ih (.inr ?_)
        simpa using hlast
    · rw [if_neg hq, if_neg hq]
      refine ih ?_
      rcases hstart with hclean | ⟨c, hc, hov⟩
      · left
        intro p hp
        rw [List.mem_append, List.mem_singleton] at hp
        rcases hp with hp | rfl
        · exact hclean p hp
        · exact hq
      · right
        rcases List.mem_cons.mp hc with rfl | hc
        · exact absurd hov hq
        · exact ⟨c, hc, hov⟩

/-- A search without a base among controllers that have one finds one. -/
theorem irqAllocateLoop_nonneg (h : IrqsBased rest) (hstart : 0 ≤ irqTocheck) :
    0 ≤ irqAllocateLoop METAL_IRQ_ANY num rest irqTocheck := by
  induction rest generalizing irqTocheck with
  | nil => exact hstart
  | cons c rest ih =>
    have hrest : IrqsBased rest := fun c' hc' => h c' (List.mem_cons_of_mem c hc')
    obtain ⟨hbase, hnum⟩ := h c List.mem_cons_self
    rw [irqAllocateLoop]
    split
    · rw [if_neg (not_not.mpr rfl)]
      exact ih hrest (by simp only [IrqController.irqEnd]; omega)
    · exact ih hrest hstart

/-! ## One registration -/

/-- What a registration does: nothing, or it adds the controller at a place
with a base of its own that is the one it asked for or free of all but an
overtaken controller. -/
theorem register_cases {c : IrqController} (hcntrs : IrqsBased cntrs)
    (hc : c.Valid) :
    (metalIrqRegisterController cntrs c).2 = cntrs ∧
        ¬ RegisterOvertakes cntrs c ∨
    ∃ irqBase, 0 ≤ irqBase ∧ (metalIrqRegisterController cntrs c).2 =
        cntrs ++ [{ c with irqBase := irqBase }] ∧
      (RegisterOvertakes cntrs c ↔
        ∃ d ∈ cntrs, d.Overlaps irqBase c.irqNum) := by
  obtain ⟨hnum, hbase⟩ := hc
  have hne : c.irqNum ≠ 0 := by omega
  unfold metalIrqRegisterController
  by_cases hnew : cntrs.any (·.node = c.node)
  · rw [if_pos hnew]
    refine .inl ⟨rfl, fun h => ?_⟩
    simp only [List.any_eq_true, decide_eq_true_eq] at hnew
    obtain ⟨d, hd, heq⟩ := hnew
    exact h.1 d hd heq
  rw [if_neg hnew]
  have hnode : ∀ d ∈ cntrs, d.node ≠ c.node := by simpa using hnew
  simp only [metalIrqAllocate, if_neg hne]
  by_cases hany : c.irqBase = METAL_IRQ_ANY
  · have hfound : 0 ≤ irqAllocateLoop METAL_IRQ_ANY c.irqNum cntrs 0 :=
      irqAllocateLoop_nonneg hcntrs (Int.le_refl 0)
    have hov := @overtakes_iff cntrs [] c.irqNum 0 (.inl (by simp))
    rw [if_pos hany, hany]
    rw [List.nil_append] at hov
    generalize irqAllocateLoop METAL_IRQ_ANY c.irqNum cntrs 0 = found at *
    have hok : found ≠ METAL_IRQ_ANY := by
      simp only [METAL_IRQ_ANY]
      omega
    rw [if_neg hok]
    refine .inr ⟨found, hfound, rfl, ?_⟩
    rw [← hov]
    exact ⟨fun h => h.2.2, fun h => ⟨hnode, hany, h⟩⟩
  · rw [if_neg hany, irqAllocateLoop_fixed hany]
    have hno : ¬ RegisterOvertakes cntrs c := fun h => hany h.2.1
    by_cases hov : ∃ d ∈ cntrs, d.Overlaps c.irqBase c.irqNum
    · rw [if_pos hov, if_pos rfl]
      exact .inl ⟨rfl, hno⟩
    · rw [if_neg hov, if_neg hany]
      exact .inr ⟨c.irqBase, hbase.resolve_right hany, rfl,
        iff_of_false hno hov⟩

theorem registerStep_based {c : IrqController} {cntrs' : IrqCntrs}
    (h : IrqsBased cntrs) (hst : RegisterStep cntrs c cntrs') :
    IrqsBased cntrs' := by
  obtain ⟨hc, rfl⟩ := hst
  rcases register_cases h hc with ⟨heq, -⟩ | ⟨irqBase, hbase, heq, -⟩
  · rwa [heq]
  · rw [heq]
    intro d hd
    rcases List.mem_append.mp hd with hd | hd
    · exact h d hd
    · rw [List.mem_singleton.mp hd]
      exact ⟨hbase, hc.1⟩

/-- Disjoint ranges are found by their numbers. -/
theorem irqsUnshared_iff :
    IrqsUnshared cntrs ↔
      cntrs.Pairwise fun c d => ∀ irq, ¬ (c.Covers irq ∧ d.Covers irq) := by
  refine ⟨fun h => h.disjoint, fun h => ⟨h, ?_⟩⟩
  intro irq c
  unfold metalIrqGetController
  induction cntrs with
  | nil => simp
  | cons d rest ih =>
    obtain ⟨hd, hrest⟩ := List.pairwise_cons.mp h
    rw [List.find?_cons]
    by_cases hcov : d.Covers irq
    · simp only [hcov, decide_true, Option.some.injEq, List.mem_cons]
      constructor
      · rintro rfl
        exact ⟨.inl rfl, hcov⟩
      · rintro ⟨rfl | hc, hcov'⟩
        · rfl
        · exact absurd ⟨hcov, hcov'⟩ (hd c hc irq)
    · simp only [hcov, decide_false, List.mem_cons]
      rw [ih hrest]
      constructor
      · exact fun ⟨hc, hcov'⟩ => ⟨.inr hc, hcov'⟩
      · rintro ⟨rfl | hc, hcov'⟩
        · exact absurd hcov' hcov
        · exact ⟨hc, hcov'⟩

/-- One registration keeps the numbers unshared exactly if it does not
overtake a controller. -/
theorem registerStep_unshared_iff {c : IrqController} {cntrs' : IrqCntrs}
    (hbased : IrqsBased cntrs) (h : IrqsUnshared cntrs)
    (hst : RegisterStep cntrs c cntrs') :
    IrqsUnshared cntrs' ↔ ¬ RegisterOvertakes cntrs c := by
  obtain ⟨hc, rfl⟩ := hst
  rcases register_cases hbased hc with ⟨heq, hno⟩ | ⟨irqBase, -, heq, hiff⟩
  · rw [heq]
    exact iff_of_true h hno
  · rw [heq, hiff, irqsUnshared_iff, List.pairwise_append, not_exists]
    have hov : ∀ d ∈ cntrs, d.Overlaps irqBase c.irqNum ↔
        ∃ irq, d.Covers irq ∧
          ({ c with irqBase := irqBase } : IrqController).Covers irq :=
      fun d hd => overlaps_iff (d := { c with irqBase := irqBase })
        (hbased d hd).2 hc.1
    constructor
    · rintro ⟨-, -, hnew⟩ d ⟨hd, hover⟩
      obtain ⟨irq, hboth⟩ := (hov d hd).mp hover
      exact hnew d hd _ (List.mem_singleton_self _) irq hboth
    · intro hnew
      refine ⟨h.disjoint, List.pairwise_singleton _ _, ?_⟩
      intro d hd e he irq hboth
      rw [List.mem_singleton.mp he] at hboth
      exact hnew d ⟨hd, (hov d hd).mpr ⟨irq, hboth⟩⟩

/-- **Interrupt numbers are unshared** throughout a run of registrations
exactly if none of them overtakes a controller. -/
theorem irqs_unshared_iff (tr : List IrqController) :
    Throughout RegisterStep [] tr IrqsUnshared ↔
      EachStep RegisterStep [] tr fun cntrs c =>
        ¬ RegisterOvertakes cntrs c := by
  have hbased : ∀ cntrs c cntrs', IrqsBased cntrs →
      RegisterStep cntrs c cntrs' → IrqsBased cntrs' :=
    fun _ _ _ => registerStep_based
  have hstep : ∀ cntrs c cntrs', IrqsBased cntrs → IrqsUnshared cntrs →
      RegisterStep cntrs c cntrs' →
      (IrqsUnshared cntrs' ↔ ¬ RegisterOvertakes cntrs c) :=
    fun _ _ _ => registerStep_unshared_iff
  have hnone : IrqsBased [] := fun c hc => absurd hc (by simp)
  exact throughout_iff_of_invariant hbased hstep hnone
    (irqsUnshared_iff.mpr List.Pairwise.nil) tr

/-- Ten numbers from 10 on, five from 0 on, and six anywhere: they are put
behind the five, where they share number 10 with the first controller. -/
theorem irqs_shared :
    Path RegisterStep [] [⟨0, 10, 10⟩, ⟨1, 0, 5⟩, ⟨2, METAL_IRQ_ANY, 6⟩]
      [⟨0, 10, 10⟩, ⟨1, 0, 5⟩, ⟨2, 5, 6⟩] ∧
    ¬ IrqsUnshared [⟨0, 10, 10⟩, ⟨1, 0, 5⟩, ⟨2, 5, 6⟩] ∧
    metalIrqGetController [⟨0, 10, 10⟩, ⟨1, 0, 5⟩, ⟨2, 5, 6⟩] 10 =
      some ⟨0, 10, 10⟩ ∧
    (⟨2, 5, 6⟩ : IrqController).Covers 10 := by
  refine ⟨?_, fun h => ?_, by decide, by decide⟩
  · exact .cons ⟨by decide, rfl⟩ (.cons ⟨by decide, rfl⟩
      (.cons ⟨by decide, rfl⟩ (.nil _)))
  · have hfirst := (List.pairwise_cons.mp h.disjoint).1 ⟨2, 5, 6⟩ (by simp)
    exact hfirst 10 (by decide)

end OpenAmp.Metal
