import OpenAmp.Lib.Flags
import OpenAmp.Metal.Irq
import Mathlib.Logic.Function.Basic

/-!
# The dispatch of software interrupts

`metal_softirq_dispatch` of `libmetal/lib/softirq.c` between the calls that
set a software interrupt, enable or disable it and register its handler.
Every flag is an atomic variable of its own, and nothing is locked: any
number of dispatches may be under way, a handler may set its own interrupt
again or start a dispatch, which is another one here.

`metal_irq_enable`, `metal_irq_disable` and `metal_irq_register` look for
the controller of the number; `metal_softirq_set` does not. What a handler
is matters to nobody, only whether there is one.
-/

namespace OpenAmp.Metal

open OpenAmp.Lib

/-- The numbers of a controller count from its base. -/
def IrqController.offset (cntr : IrqController) (irq : Int) : Option Nat :=
  if cntr.Covers irq then some (irq - cntr.irqBase).toNat else none

/-- Where a number leads that is looked for among the controllers: to the
offset in `cntr` if that is its controller. -/
def irqOffset (cntrs : IrqCntrs) (cntr : IrqController) (irq : Int) :
    Option Nat :=
  match metalIrqGetController cntrs irq with
  | some c => if c = cntr then cntr.offset irq else none
  | none => none

/-- Where a `metal_softirq_dispatch` is. -/
inductive DispatchPc where
  | out
  /-- before it looks whether `i` is enabled -/
  | testing (i : Nat)
  /-- before it looks whether `i` is pending -/
  | exchanging (i : Nat)
  /-- before `metal_irq_handle` -/
  | taken (i : Nat)
  /-- in the handler -/
  | handling (i : Nat)
deriving DecidableEq, Repr

/-- What it does next. -/
inductive DispatchAct where
  | begin
  /-- `i` is not enabled -/
  | skip (i : Nat)
  /-- `i` is enabled -/
  | load (i : Nat)
  /-- `i` is not pending -/
  | miss (i : Nat)
  /-- `i` is pending no more -/
  | take (i : Nat)
  /-- the handler is called -/
  | enter (i : Nat)
  /-- there is no handler -/
  | drop (i : Nat)
  | leave (i : Nat)
  | finish
deriving DecidableEq, Repr

/-- It has not come past `i`, and has not taken it. -/
def DispatchPc.Before (i : Nat) : DispatchPc → Prop
  | .out => False
  | .testing j => j ≤ i
  | .exchanging j => j ≤ i
  | .taken j => j < i
  | .handling j => j < i

/-- The arrays of `softirq.c` and the dispatches. -/
structure SoftirqSystem (δ : Type) where
  pending : Nat → Bool
  enabled : Nat → Bool
  hd : Nat → Bool
  dispatch : δ → DispatchPc

/-- The calls, and what the dispatches do. -/
inductive SoftirqEvent (δ : Type) where
  | set (irq : Int)
  | enable (irq : Int) (on : Bool)
  | register (irq : Int) (hd : Bool)
  | dispatch (d : δ) (a : DispatchAct)
deriving DecidableEq

namespace SoftirqSystem

variable {δ : Type} [DecidableEq δ] (cntrs : IrqCntrs) (cntr : IrqController)

/-- `metal_softirq_set`. -/
def metalSoftirqSet (s : SoftirqSystem δ) (irq : Int) : SoftirqSystem δ :=
  match cntr.offset irq with
  | none => s
  | some i => { s with pending := Function.update s.pending i true }

/-- `_metal_irq_set_enable`, with `metal_softirq_set_enable` for the numbers
of `cntr`. -/
def metalIrqSetEnable (s : SoftirqSystem δ) (irq : Int) (on : Bool) :
    SoftirqSystem δ :=
  match irqOffset cntrs cntr irq with
  | none => s
  | some i => { s with enabled := Function.update s.enabled i on }

/-- `metal_irq_register`. -/
def metalIrqRegister (s : SoftirqSystem δ) (irq : Int) (hd : Bool) :
    SoftirqSystem δ :=
  match irqOffset cntrs cntr irq with
  | none => s
  | some i => { s with hd := Function.update s.hd i hd }

/-- One turn of the loop of `metal_softirq_dispatch` after the other. -/
inductive Move (s : SoftirqSystem δ) :
    DispatchPc → DispatchAct → DispatchPc → Prop where
  | begin : Move s .out .begin (.testing 0)
  | skip {i : Nat} (hi : i < 64) (h : s.enabled i = false) :
      Move s (.testing i) (.skip i) (.testing (i + 1))
  | load {i : Nat} (hi : i < 64) (h : s.enabled i = true) :
      Move s (.testing i) (.load i) (.exchanging i)
  | miss {i : Nat} (h : s.pending i = false) :
      Move s (.exchanging i) (.miss i) (.testing (i + 1))
  | take {i : Nat} (h : s.pending i = true) :
      Move s (.exchanging i) (.take i) (.taken i)
  | enter {i : Nat} (h : s.hd i = true) :
      Move s (.taken i) (.enter i) (.handling i)
  | drop {i : Nat} (h : s.hd i = false) :
      Move s (.taken i) (.drop i) (.testing (i + 1))
  | leave {i : Nat} : Move s (.handling i) (.leave i) (.testing (i + 1))
  | finish : Move s (.testing 64) .finish .out

/-- The exchange clears the flag it finds set. -/
def clear (s : SoftirqSystem δ) : DispatchAct → SoftirqSystem δ
  | .take i => { s with pending := Function.update s.pending i false }
  | _ => s

inductive Step (s : SoftirqSystem δ) :
    SoftirqEvent δ → SoftirqSystem δ → Prop where
  | set (irq : Int) : Step s (.set irq) (s.metalSoftirqSet cntr irq)
  | enable (irq : Int) (on : Bool) :
      Step s (.enable irq on) (s.metalIrqSetEnable cntrs cntr irq on)
  | register (irq : Int) (hd : Bool) :
      Step s (.register irq hd) (s.metalIrqRegister cntrs cntr irq hd)
  | dispatch {d : δ} {a : DispatchAct} {q p : DispatchPc}
      (hpc : s.dispatch d = q) (h : s.Move q a p) :
      Step s (.dispatch d a)
        { s.clear a with dispatch := Function.update s.dispatch d p }

/-- After `metal_softirq_init`. -/
def Init (s : SoftirqSystem δ) : Prop :=
  (∀ i, s.pending i = false ∧ s.enabled i = false ∧ s.hd i = false) ∧
    ∀ d, s.dispatch d = .out

end SoftirqSystem

/-! ## What a software interrupt is -/

namespace SoftirqEvent

variable {δ : Type} (cntrs : IrqCntrs) (cntr : IrqController) (i : Nat)

/-- What becomes of `pending`: who sets a software interrupt writes it, and
who takes it. -/
def pendingWrite : SoftirqEvent δ → Option (Nat × Bool)
  | set irq => (cntr.offset irq).map (·, true)
  | dispatch _ (.take i) => some (i, false)
  | _ => none

def enabledWrite : SoftirqEvent δ → Option (Nat × Bool)
  | enable irq on => (irqOffset cntrs cntr irq).map (·, on)
  | _ => none

def hdWrite : SoftirqEvent δ → Option (Nat × Bool)
  | register irq hd => (irqOffset cntrs cntr irq).map (·, hd)
  | _ => none

/-- It was set and not taken since. -/
def Pending (tr : List (SoftirqEvent δ)) : Prop :=
  Written (pendingWrite cntr) i tr

/-- It was enabled and not disabled since. -/
def Enabled (tr : List (SoftirqEvent δ)) : Prop :=
  Written (enabledWrite cntrs cntr) i tr

/-- It has a handler. -/
def Registered (tr : List (SoftirqEvent δ)) : Prop :=
  Written (hdWrite cntrs cntr) i tr

/-- **What is promised of software interrupts**, said of what is done alone:
each is taken only where it was set after it was last taken; one that is
pending and enabled when a dispatch begins, and not disabled meanwhile, is
taken before the dispatch returns, by it or by another one; one that is not
enabled then or meanwhile is not taken by it; and whoever takes one calls its
handler next, unless it has none. -/
structure Served (tr : List (SoftirqEvent δ)) : Prop where
  once : ∀ done d i rest, tr = done ++ dispatch d (.take i) :: rest →
    Pending cntr i done
  swept : ∀ done d mid rest i,
    tr = done ++ dispatch d .begin :: (mid ++ dispatch d .finish :: rest) →
    dispatch d .finish ∉ mid → i < 64 → Pending cntr i done →
    Enabled cntrs cntr i done →
    (∀ e ∈ mid, enabledWrite cntrs cntr e ≠ some (i, false)) →
    ∃ d', dispatch d' (.take i) ∈ mid
  masked : ∀ done d mid rest i,
    tr = done ++ dispatch d .begin :: (mid ++ rest) →
    ¬ Enabled cntrs cntr i done →
    (∀ e ∈ mid, enabledWrite cntrs cntr e ≠ some (i, true)) →
    dispatch d (.take i) ∉ mid
  handled : ∀ done d i mid a rest,
    tr = done ++ dispatch d (.take i) :: (mid ++ dispatch d a :: rest) →
    (∀ b, dispatch d b ∉ mid) →
    Registered cntrs cntr i (done ++ dispatch d (.take i) :: mid) ∧
        a = .enter i ∨
      ¬ Registered cntrs cntr i (done ++ dispatch d (.take i) :: mid) ∧
        a = .drop i

end SoftirqEvent

/-! ## One step -/

namespace SoftirqSystem

open SoftirqEvent

variable {δ : Type} [DecidableEq δ] {cntrs : IrqCntrs} {cntr : IrqController}
  {s t : SoftirqSystem δ} {e : SoftirqEvent δ} {tr : List (SoftirqEvent δ)}
  {d : δ} {i : Nat} {a : DispatchAct} {p : DispatchPc}

theorem writes_pending :
    Writes (Step (δ := δ) cntrs cntr) pending (pendingWrite cntr) := by
  intro s e t h
  cases h with
  | set irq =>
    simp only [metalSoftirqSet, pendingWrite]
    cases cntr.offset irq <;> rfl
  | enable irq on =>
    simp only [metalIrqSetEnable, pendingWrite]
    cases irqOffset cntrs cntr irq <;> rfl
  | register irq hd =>
    simp only [metalIrqRegister, pendingWrite]
    cases irqOffset cntrs cntr irq <;> rfl
  | dispatch _ h => cases h <;> rfl

theorem writes_enabled :
    Writes (Step (δ := δ) cntrs cntr) enabled (enabledWrite cntrs cntr) := by
  intro s e t h
  cases h with
  | set irq =>
    simp only [metalSoftirqSet, enabledWrite]
    cases cntr.offset irq <;> rfl
  | enable irq on =>
    simp only [metalIrqSetEnable, enabledWrite]
    cases irqOffset cntrs cntr irq <;> rfl
  | register irq hd =>
    simp only [metalIrqRegister, enabledWrite]
    cases irqOffset cntrs cntr irq <;> rfl
  | dispatch _ h => cases h <;> rfl

theorem writes_hd :
    Writes (Step (δ := δ) cntrs cntr) hd (hdWrite cntrs cntr) := by
  intro s e t h
  cases h with
  | set irq =>
    simp only [metalSoftirqSet, hdWrite]
    cases cntr.offset irq <;> rfl
  | enable irq on =>
    simp only [metalIrqSetEnable, hdWrite]
    cases irqOffset cntrs cntr irq <;> rfl
  | register irq hd =>
    simp only [metalIrqRegister, hdWrite]
    cases irqOffset cntrs cntr irq <;> rfl
  | dispatch _ h => cases h <;> rfl

/-- A dispatch is where its own last act has left it. -/
theorem Step.dispatch_eq (h : Step cntrs cntr s e t) (d : δ) :
    (∀ a, e ≠ .dispatch d a) ∧ t.dispatch d = s.dispatch d ∨
      ∃ a, e = .dispatch d a ∧ s.Move (s.dispatch d) a (t.dispatch d) := by
  cases h with
  | set irq =>
    left
    simp only [metalSoftirqSet]
    split <;> exact ⟨by simp, rfl⟩
  | enable irq on =>
    left
    simp only [metalIrqSetEnable]
    split <;> exact ⟨by simp, rfl⟩
  | register irq hd =>
    left
    simp only [metalIrqRegister]
    split <;> exact ⟨by simp, rfl⟩
  | @dispatch u a q p hpc h =>
    by_cases hu : d = u
    · subst hu
      right
      refine ⟨a, rfl, ?_⟩
      simp only [Function.update_self]
      rw [hpc]
      exact h
    · left
      refine ⟨fun b hb => ?_, Function.update_of_ne hu ..⟩
      cases hb
      exact hu rfl

/-! ## One dispatch -/

omit [DecidableEq δ] in
theorem pendingWrite_low :
    pendingWrite cntr e = some (i, false) ↔ ∃ d, e = .dispatch d (.take i) := by
  constructor
  · intro h
    cases e with
    | set irq =>
      simp only [pendingWrite, Option.map_eq_some_iff] at h
      obtain ⟨_, -, h⟩ := h
      cases h
    | dispatch d a =>
      cases a with
      | take j =>
        cases h
        exact ⟨d, rfl⟩
      | _ => cases h
    | _ => cases h
  · rintro ⟨d, rfl⟩
    rfl

omit [DecidableEq δ] in
/-- It does not come past a software interrupt that is pending and enabled
without taking it. -/
theorem Move.before {q : DispatchPc} (h : s.Move q a p) (hq : q.Before i)
    (hpending : s.pending i = true) (henabled : s.enabled i = true)
    (htake : a ≠ .take i) (hfinish : a ≠ .finish) : p.Before i := by
  cases h with
  | begin => exact Nat.zero_le i
  | @skip j _ hj =>
    have hne : j ≠ i := by
      rintro rfl
      exact absurd (hj.symm.trans henabled) Bool.false_ne_true
    exact Nat.lt_of_le_of_ne hq hne
  | load => exact hq
  | @miss j hj =>
    have hne : j ≠ i := by
      rintro rfl
      exact absurd (hj.symm.trans hpending) Bool.false_ne_true
    exact Nat.lt_of_le_of_ne hq hne
  | @take j =>
    have hne : j ≠ i := by
      rintro rfl
      exact htake rfl
    exact Nat.lt_of_le_of_ne hq hne
  | enter => exact hq
  | drop => exact hq
  | leave => exact hq
  | finish => exact absurd rfl hfinish

/-- Nobody takes the interrupt and `d` does not return: it is still ahead of
it. -/
theorem before_of_run (hpath : Path (Step cntrs cntr) s tr t)
    (hbefore : (s.dispatch d).Before i) (hpending : s.pending i = true)
    (henabled : s.enabled i = true)
    (htr : ∀ e ∈ tr, e ≠ .dispatch d .finish ∧
      (∀ d', e ≠ .dispatch d' (.take i)) ∧
      enabledWrite cntrs cntr e ≠ some (i, false)) :
    (t.dispatch d).Before i := by
  refine (Path.invariant (P := fun s : SoftirqSystem δ => s.pending i = true ∧
    s.enabled i = true ∧ (s.dispatch d).Before i) ?_ hpath htr
    ⟨hpending, henabled, hbefore⟩).2.2
  rintro s e t ⟨hfinish, htake, hdisable⟩ ⟨hpending, henabled, hbefore⟩ hst
  refine ⟨writes_pending.stays hst hpending ?_,
    writes_enabled.stays hst henabled hdisable, ?_⟩
  · rw [Ne, pendingWrite_low]
    rintro ⟨d', hd'⟩
    exact htake d' hd'
  · rcases hst.dispatch_eq d with ⟨-, heq⟩ | ⟨a, rfl, hmove⟩
    · rw [heq]
      exact hbefore
    · refine hmove.before hbefore hpending henabled ?_ ?_
      · rintro rfl
        exact htake d rfl
      · rintro rfl
        exact hfinish rfl

/-- A dispatch that is not about to look for the interrupt, which stays
disabled, does not take it. -/
theorem not_exchanging_of_run (hpath : Path (Step cntrs cntr) s tr t)
    (hpc : s.dispatch d ≠ .exchanging i) (henabled : s.enabled i = false)
    (htr : ∀ e ∈ tr, enabledWrite cntrs cntr e ≠ some (i, true)) :
    t.dispatch d ≠ .exchanging i := by
  refine (Path.invariant (P := fun s : SoftirqSystem δ => s.enabled i = false ∧
    s.dispatch d ≠ .exchanging i) ?_ hpath htr ⟨henabled, hpc⟩).2
  rintro s e t henable ⟨henabled, hpc⟩ hst
  refine ⟨writes_enabled.stays_low hst henabled henable, ?_⟩
  rcases hst.dispatch_eq d with ⟨-, heq⟩ | ⟨a, rfl, hmove⟩
  · rw [heq]
    exact hpc
  · intro hnext
    rw [hnext] at hmove
    generalize s.dispatch d = q at hmove
    cases hmove with
    | load _ h => exact absurd (henabled.symm.trans h) Bool.false_ne_true

/-- Others leave a dispatch where it is. -/
theorem dispatch_of_run (hpath : Path (Step cntrs cntr) s tr t)
    (htr : ∀ b, SoftirqEvent.dispatch d b ∉ tr) :
    t.dispatch d = s.dispatch d := by
  refine Path.invariant (P := fun t : SoftirqSystem δ => t.dispatch d =
    s.dispatch d) (E := fun e => ∀ b, e ≠ .dispatch d b) ?_ hpath ?_ rfl
  · rintro u e v hother hu hst
    rcases hst.dispatch_eq d with ⟨-, heq⟩ | ⟨a, ha, -⟩
    · exact heq.trans hu
    · exact absurd ha (hother a)
  · rintro e he b rfl
    exact htr b he

/-! ## Runs -/

variable {s₀ : SoftirqSystem δ}

/-- Where a dispatch has begun. -/
theorem Step.begun (h : Step cntrs cntr s (.dispatch d .begin) t) :
    t.dispatch d = .testing 0 ∧ t.pending = s.pending ∧
      t.enabled = s.enabled := by
  cases h with
  | dispatch _ h =>
    cases h
    exact ⟨Function.update_self .., rfl, rfl⟩

theorem Init.pending_iff (h : s₀.Init)
    (hpath : Path (Step cntrs cntr) s₀ tr s) :
    s.pending i = true ↔ Pending cntr i tr :=
  writes_pending.written_iff hpath (h.1 i).1

theorem Init.enabled_iff (h : s₀.Init)
    (hpath : Path (Step cntrs cntr) s₀ tr s) :
    s.enabled i = true ↔ Enabled cntrs cntr i tr :=
  writes_enabled.written_iff hpath (h.1 i).2.1

theorem Init.hd_iff (h : s₀.Init) (hpath : Path (Step cntrs cntr) s₀ tr s) :
    s.hd i = true ↔ Registered cntrs cntr i tr :=
  writes_hd.written_iff hpath (h.1 i).2.2

section Served

variable {done mid rest : List (SoftirqEvent δ)}

theorem Init.taken_once (hinit : s₀.Init) (h : Path (Step cntrs cntr) s₀
    (done ++ .dispatch d (.take i) :: rest) s) : Pending cntr i done := by
  obtain ⟨m, n, hdone, hst, -⟩ := Path.split_cons done h
  cases hst with
  | dispatch _ hmove =>
    cases hmove with
    | take htake => exact (hinit.pending_iff hdone).mp htake

/-- The dispatch would return ahead of a number below 64. -/
theorem Init.pending_swept (hinit : s₀.Init) (h : Path (Step cntrs cntr) s₀
      (done ++ .dispatch d .begin :: (mid ++ .dispatch d .finish :: rest)) s)
    (hreturn : SoftirqEvent.dispatch d .finish ∉ mid) (hi : i < 64)
    (hpending : Pending cntr i done) (henabled : Enabled cntrs cntr i done)
    (hkept : ∀ e ∈ mid, enabledWrite cntrs cntr e ≠ some (i, false)) :
    ∃ d', SoftirqEvent.dispatch d' (.take i) ∈ mid := by
  obtain ⟨m, n, hdone, hst, hrest⟩ := Path.split_cons done h
  obtain ⟨u, v, hmid, hfinish, -⟩ := Path.split_cons mid hrest
  obtain ⟨hpc, hsame, hsame'⟩ := hst.begun
  by_contra hnone
  have hbefore : (u.dispatch d).Before i := by
    refine before_of_run hmid ?_ ?_ ?_ fun e he => ⟨?_, ?_, hkept e he⟩
    · rw [hpc]
      exact Nat.zero_le i
    · rw [hsame]
      exact (hinit.pending_iff hdone).mpr hpending
    · rw [hsame']
      exact (hinit.enabled_iff hdone).mpr henabled
    · rintro rfl
      exact hreturn he
    · rintro d' rfl
      exact hnone ⟨d', he⟩
  cases hfinish with
  | dispatch hpc hmove =>
    cases hmove
    rw [hpc] at hbefore
    exact absurd hi (Nat.not_lt.mpr hbefore)

theorem Init.disabled_masked (hinit : s₀.Init)
    (h : Path (Step cntrs cntr) s₀
      (done ++ .dispatch d .begin :: (mid ++ rest)) s)
    (hdisabled : ¬ Enabled cntrs cntr i done)
    (hkept : ∀ e ∈ mid, enabledWrite cntrs cntr e ≠ some (i, true)) :
    SoftirqEvent.dispatch d (.take i) ∉ mid := by
  intro hmem
  obtain ⟨m, n, hdone, hst, hrest⟩ := Path.split_cons done h
  obtain ⟨u, hmid, -⟩ := Path.split mid hrest
  obtain ⟨hpc, -, hsame⟩ := hst.begun
  obtain ⟨before, after, rfl⟩ := List.append_of_mem hmem
  obtain ⟨v, w, hbefore, htake, -⟩ := Path.split_cons before hmid
  have hlow : n.enabled i = false := by
    rw [hsame, Bool.eq_false_iff, Ne, hinit.enabled_iff hdone]
    exact hdisabled
  have hnot : v.dispatch d ≠ .exchanging i := by
    refine not_exchanging_of_run hbefore ?_ hlow fun e he =>
      hkept e (List.mem_append_left _ he)
    rw [hpc]
    exact nofun
  cases htake with
  | dispatch hpc hmove =>
    cases hmove
    exact hnot hpc

theorem Init.taken_handled (hinit : s₀.Init)
    (h : Path (Step cntrs cntr) s₀
      (done ++ .dispatch d (.take i) :: (mid ++ .dispatch d a :: rest)) s)
    (hothers : ∀ b, SoftirqEvent.dispatch d b ∉ mid) :
    Registered cntrs cntr i (done ++ .dispatch d (.take i) :: mid) ∧
        a = .enter i ∨
      ¬ Registered cntrs cntr i (done ++ .dispatch d (.take i) :: mid) ∧
        a = .drop i := by
  rw [← List.cons_append, ← List.append_assoc] at h
  obtain ⟨v, w, hbefore, hact, -⟩ := Path.split_cons _ h
  have hhd := hinit.hd_iff (i := i) hbefore
  obtain ⟨m, n, -, htake, hmid⟩ := Path.split_cons done hbefore
  have hpc : v.dispatch d = .taken i := by
    rw [dispatch_of_run hmid hothers]
    cases htake with
    | dispatch _ hmove =>
      cases hmove
      exact Function.update_self ..
  cases hact with
  | dispatch hpc' hmove =>
    cases hpc'.symm.trans hpc
    cases hmove with
    | enter hsome => exact .inl ⟨hhd.mp hsome, rfl⟩
    | drop hnone =>
      refine .inr ⟨fun hreg => ?_, rfl⟩
      exact absurd (hnone.symm.trans (hhd.mpr hreg)) Bool.false_ne_true

end Served

/-- **Software interrupts are served**, in every order of the calls and of
the steps of any number of dispatches. -/
theorem softirqs_served (hinit : s₀.Init)
    (h : Path (Step cntrs cntr) s₀ tr s) : Served cntrs cntr tr where
  once := by
    rintro done d i rest rfl
    exact hinit.taken_once h
  swept := by
    rintro done d mid rest i rfl hreturn hi hpending henabled hkept
    exact hinit.pending_swept h hreturn hi hpending henabled hkept
  masked := by
    rintro done d mid rest i rfl hdisabled hkept
    exact hinit.disabled_masked h hdisabled hkept
  handled := by
    rintro done d i mid a rest rfl hothers
    exact hinit.taken_handled h hothers

/-- Number 0 is set, gets a handler and is enabled, and is handled. -/
theorem softirqs_served_first :
    Served [⟨0, 0, 64⟩] ⟨0, 0, 64⟩ [.set 0, .register 0 true, .enable 0 true,
      .dispatch () .begin, .dispatch () (.load 0), .dispatch () (.take 0),
      .dispatch () (.enter 0)] := by
  have hinit : (⟨fun _ => false, fun _ => false, fun _ => false,
      fun _ => .out⟩ : SoftirqSystem Unit).Init :=
    ⟨fun _ => ⟨rfl, rfl, rfl⟩, fun _ => rfl⟩
  have hpath : ∃ s, Path (Step [⟨0, 0, 64⟩] ⟨0, 0, 64⟩) (⟨fun _ => false,
      fun _ => false, fun _ => false, fun _ => .out⟩ : SoftirqSystem Unit)
      [.set 0, .register 0 true, .enable 0 true, .dispatch () .begin,
        .dispatch () (.load 0), .dispatch () (.take 0),
        .dispatch () (.enter 0)] s :=
    ⟨_, .cons (.set 0) <| .cons (.register 0 true) <|
      .cons (.enable 0 true) <| .cons (.dispatch rfl .begin) <|
      .cons (.dispatch rfl (.load (by decide) rfl)) <|
      .cons (.dispatch rfl (.take rfl)) <|
      .cons (.dispatch rfl (.enter rfl)) (.nil _)⟩
  obtain ⟨s, hpath⟩ := hpath
  exact softirqs_served hinit hpath

end SoftirqSystem

end OpenAmp.Metal
