import OpenAmp.Lib.Transition
import Mathlib.Logic.Function.Basic
import Mathlib.Tactic.Common

/-!
# The generic mutex

`__metal_mutex_acquire`, `__metal_mutex_try_acquire` and
`__metal_mutex_release` of `libmetal/lib/system/generic/mutex.h`, run by any
number of threads in any order of their atomic operations.

A failed compare-and-exchange writes what it found to `unlocked`, and the
loop of an acquire tries again with that. So an acquire that was refused
expects the mutex to be held, and takes it where it finds it so.
-/

namespace OpenAmp.Metal

open OpenAmp.Lib

def METAL_MUTEX_UNLOCKED : Int32 := 0

def METAL_MUTEX_LOCKED : Int32 := 1

/-- What a thread does next. -/
inductive GenericPhase where
  /-- no call is in progress, and it does not hold the mutex -/
  | out
  /-- `atomic_compare_exchange_weak` of an acquire -/
  | trying (unlocked : Int32)
  /-- its release -/
  | holding
deriving DecidableEq, Repr

/-- `metal_mutex_t` and the threads that use it. -/
structure GenericMutex (ι : Type) where
  v : Int32
  phase : ι → GenericPhase

/-- What a thread may do. A weak exchange `fails` now and then although it
finds what it expects. -/
inductive GenericCall (ι : Type) where
  | acquire (t : ι)
  | exchange (t : ι) (fails : Bool)
  | tryAcquire (t : ι)
  | release (t : ι)

namespace GenericMutex

variable {ι : Type} [DecidableEq ι]

/-- The word becomes `v` and thread `t` goes on to `p`. -/
def go (s : GenericMutex ι) (t : ι) (v : Int32) (p : GenericPhase) :
    GenericMutex ι where
  v := v
  phase := Function.update s.phase t p

/-- One step of a thread. -/
inductive Step (s : GenericMutex ι) : GenericCall ι → GenericMutex ι → Prop where
  | acquire {t : ι} (h : s.phase t = .out) :
      Step s (.acquire t) (s.go t s.v (.trying METAL_MUTEX_UNLOCKED))
  /-- where it fails, `unlocked` becomes what was found -/
  | exchange {t : ι} {unlocked : Int32} {fails : Bool}
      (h : s.phase t = .trying unlocked) :
      Step s (.exchange t fails) (if s.v = unlocked ∧ fails = false then
          s.go t METAL_MUTEX_LOCKED .holding
        else s.go t s.v (.trying s.v))
  | tryAcquire {t : ι} (h : s.phase t = .out) :
      Step s (.tryAcquire t) (if s.v = METAL_MUTEX_UNLOCKED then
          s.go t METAL_MUTEX_LOCKED .holding
        else s.go t s.v .out)
  | release {t : ι} (h : s.phase t = .holding) :
      Step s (.release t) (s.go t METAL_MUTEX_UNLOCKED .out)

/-- `METAL_MUTEX_INIT`, before any call. -/
def Init (s : GenericMutex ι) : Prop :=
  s.v = METAL_MUTEX_UNLOCKED ∧ ∀ t, s.phase t = .out

/-- At most one thread holds the mutex. -/
def Exclusive (s : GenericMutex ι) : Prop :=
  ∀ t u, s.phase t = .holding → s.phase u = .holding → t = u

/-- The mutex is free and nobody holds it, or it is locked and one thread
does. -/
def Owned (s : GenericMutex ι) : Prop :=
  s.v = METAL_MUTEX_UNLOCKED ∧ (∀ t, s.phase t ≠ .holding) ∨
    s.v = METAL_MUTEX_LOCKED ∧
      ∃ t, s.phase t = .holding ∧ ∀ u, s.phase u = .holding → u = t

/-- The call is not a second try of an acquire on a mutex that is still as
the first found it: held. -/
def NotAgain (s : GenericMutex ι) (e : GenericCall ι) : Prop :=
  ∀ t unlocked, e = .exchange t false → s.phase t = .trying unlocked →
    s.v = unlocked → unlocked = METAL_MUTEX_UNLOCKED

variable {s : GenericMutex ι} {t u : ι} {v : Int32} {p : GenericPhase}

@[simp] theorem go_v : (s.go t v p).v = v := rfl

@[simp] theorem go_phase_self : (s.go t v p).phase t = p :=
  Function.update_self ..

theorem go_phase_of_ne (h : u ≠ t) : (s.go t v p).phase u = s.phase u :=
  Function.update_of_ne h ..

omit [DecidableEq ι] in
theorem Init.owned (h : s.Init) : s.Owned :=
  .inl ⟨h.1, fun t ht => by rw [h.2 t] at ht; cases ht⟩

omit [DecidableEq ι] in
theorem Owned.exclusive (h : s.Owned) : s.Exclusive := by
  intro t u ht hu
  rcases h with ⟨-, hnone⟩ | ⟨-, o, -, hone⟩
  · exact absurd ht (hnone t)
  · rw [hone t ht, hone u hu]

/-- A thread that does not hold the mutex goes on without it. -/
theorem Owned.go_out (h : s.Owned) (ht : s.phase t ≠ .holding)
    (hp : p ≠ .holding) : (s.go t s.v p).Owned := by
  have hsame : ∀ u, (s.go t s.v p).phase u = .holding ↔ s.phase u = .holding := by
    intro u
    by_cases hu : u = t
    · subst hu
      rw [go_phase_self]
      exact iff_of_false hp ht
    · rw [go_phase_of_ne hu]
  rcases h with ⟨hv, hnone⟩ | ⟨hv, o, ho, hone⟩
  · exact .inl ⟨hv, fun u hu => hnone u ((hsame u).mp hu)⟩
  · exact .inr ⟨hv, o, (hsame o).mpr ho, fun u hu => hone u ((hsame u).mp hu)⟩

/-- A thread takes a free mutex. -/
theorem Owned.go_take (h : s.Owned) (hv : s.v = METAL_MUTEX_UNLOCKED) :
    (s.go t METAL_MUTEX_LOCKED .holding).Owned := by
  have hnone : ∀ u, s.phase u ≠ .holding := by
    rcases h with ⟨-, hnone⟩ | ⟨hlocked, -⟩
    · exact hnone
    · rw [hlocked] at hv
      exact absurd hv (by decide)
  refine .inr ⟨rfl, t, go_phase_self, fun u hu => ?_⟩
  by_contra hne
  rw [go_phase_of_ne hne] at hu
  exact hnone u hu

/-- The holder gives it back. -/
theorem Owned.go_free (h : s.Owned) (ht : s.phase t = .holding) :
    (s.go t METAL_MUTEX_UNLOCKED .out).Owned := by
  refine .inl ⟨rfl, fun u hu => ?_⟩
  by_cases hne : u = t
  · subst hne
    rw [go_phase_self] at hu
    cases hu
  · rw [go_phase_of_ne hne] at hu
    exact hne (h.exclusive u t hu ht)

theorem Owned.step {s' : GenericMutex ι} {e : GenericCall ι} (h : s.Owned)
    (hnot : s.NotAgain e) (hst : Step s e s') : s'.Owned := by
  cases hst with
  | acquire ht => exact h.go_out (by rw [ht]; nofun) nofun
  | @exchange t unlocked fails ht =>
    by_cases hok : s.v = unlocked ∧ fails = false
    · rw [if_pos hok]
      obtain ⟨hv, rfl⟩ := hok
      exact h.go_take (hv.trans (hnot t unlocked rfl ht hv))
    · rw [if_neg hok]
      exact h.go_out (by rw [ht]; nofun) nofun
  | @tryAcquire t ht =>
    by_cases hv : s.v = METAL_MUTEX_UNLOCKED
    · rw [if_pos hv]
      exact h.go_take hv
    · rw [if_neg hv]
      exact h.go_out (by rw [ht]; nofun) nofun
  | release ht => exact h.go_free ht

/-- A second try on a held mutex makes a second holder. -/
theorem Owned.notAgain {s' : GenericMutex ι} {e : GenericCall ι} (h : s.Owned)
    (hst : Step s e s') (hexcl : s'.Exclusive) : s.NotAgain e := by
  rintro t unlocked rfl ht hv
  cases hst with
  | exchange ht' =>
    rw [ht] at ht'
    cases ht'
    rw [if_pos ⟨hv, rfl⟩] at hexcl
    rcases h with ⟨hfree, -⟩ | ⟨-, o, ho, -⟩
    · exact hv.symm.trans hfree
    · -- the holder and the one that has just taken it
      have hne : o ≠ t := by
        rintro rfl
        rw [ht] at ho
        cases ho
      exact absurd (hexcl o t (by rwa [go_phase_of_ne hne]) go_phase_self) hne

end GenericMutex

/-- **The generic mutex excludes as long as nobody tries twice.** In a run
from the start at most one thread holds the mutex throughout exactly when no
acquire that was refused tries again on a mutex that is still held. -/
theorem genericMutex_exclusive_iff {ι : Type} [DecidableEq ι]
    {s₀ : GenericMutex ι} (h0 : s₀.Init) (tr : List (GenericCall ι)) :
    Throughout GenericMutex.Step s₀ tr GenericMutex.Exclusive ↔
      EachStep GenericMutex.Step s₀ tr GenericMutex.NotAgain :=
  throughout_iff_of_stronger (Q := GenericMutex.Owned) (fun _ h => h.exclusive)
    (fun _ _ _ h hnot hst => h.step hnot hst)
    (fun _ _ _ h hst hexcl => h.notAgain hst hexcl) h0.owned tr

/-- Thread `true` takes the mutex; `false` is refused, tries again and has
it too. -/
theorem genericMutex_exclusive_iff_twice :
    ¬ Throughout GenericMutex.Step (⟨0, fun _ => .out⟩ : GenericMutex Bool)
      [.tryAcquire true, .acquire false, .exchange false false,
        .exchange false false] GenericMutex.Exclusive := by
  rw [genericMutex_exclusive_iff ⟨rfl, fun _ => rfl⟩]
  intro h
  have h₁ := GenericMutex.Step.tryAcquire
    (s := (⟨0, fun _ => .out⟩ : GenericMutex Bool)) (t := true) rfl
  have h₂ := GenericMutex.Step.acquire (t := false)
    (s := (⟨0, fun _ => .out⟩ : GenericMutex Bool).go true 1 .holding) rfl
  have h₃ : GenericMutex.Step (((⟨0, fun _ => .out⟩ : GenericMutex Bool).go true
      1 .holding).go false 1 (.trying 0)) (.exchange false false) _ :=
    .exchange rfl
  have h₄ : GenericMutex.Step ((((⟨0, fun _ => .out⟩ : GenericMutex Bool).go true
      1 .holding).go false 1 (.trying 0)).go false 1 (.trying 1))
      (.exchange false false) _ := .exchange rfl
  have hpath := Path.cons h₁ (.cons h₂ (.cons h₃ (.nil _)))
  have hnot := h [.tryAcquire true, .acquire false, .exchange false false]
    (.exchange false false) [] _ _ rfl hpath h₄
  exact absurd (hnot false 1 rfl rfl rfl) (by decide)

end OpenAmp.Metal
