import OpenAmp.Lib.Transition

/-!
# The Linux mutex

`__metal_mutex_acquire`, `__metal_mutex_try_acquire` and
`__metal_mutex_release` of `libmetal/lib/system/linux/mutex.h`, run by any
number of threads. The word is 0 when the mutex is free, 1 when it is taken
and 2 when it is taken and someone may sleep on it. A release of a word 2
takes two steps to 0, and the thread that is between them owns the word
although it has given the mutex up.

Every atomic operation and every futex call is a step, in any order of the
threads. A wait sleeps only on a word 2; a sleeper may wake up on its own;
a wake wakes at least one sleeper if there is one.
-/

namespace OpenAmp.Metal

open OpenAmp.Lib

/-- What a thread does next. -/
inductive MutexPhase where
  /-- no call is in progress, and it does not hold the mutex -/
  | out
  /-- `atomic_exchange`, before a wait or after one that did not sleep -/
  | exchange
  /-- `FUTEX_WAIT` -/
  | wait
  /-- nothing: it sleeps -/
  | sleeping
  /-- `atomic_exchange`, after it was woken -/
  | woken
  /-- the first step of its release -/
  | holding
  /-- `atomic_store`, in its release -/
  | store
  /-- `FUTEX_WAKE` -/
  | wake
deriving DecidableEq, Repr

/-- `metal_mutex_t` and the threads that use it. -/
structure MutexState (ι : Type) where
  v : Int
  phase : ι → MutexPhase

section Steps
variable {ι : Type} [DecidableEq ι]

/-- The word becomes `v` and thread `t` goes on to `p`. -/
def MutexState.go (s : MutexState ι) (t : ι) (v : Int) (p : MutexPhase) :
    MutexState ι where
  v := v
  phase := Function.update s.phase t p

/-- `FUTEX_WAKE` by thread `t` that wakes the threads in `woken`. -/
def MutexState.wakeUp (s : MutexState ι) (t : ι) (woken : ι → Bool) :
    MutexState ι where
  v := s.v
  phase u := if u = t then .out else if woken u then .woken else s.phase u

/-- One step of a thread. -/
inductive MutexStep (s : MutexState ι) : MutexState ι → Prop where
  /-- the first step of an acquire or a try, which takes a free mutex -/
  | take {t : ι} (h : s.phase t = .out) (hv : s.v = 0) :
      MutexStep s (s.go t 1 .holding)
  /-- a try that fails -/
  | refuse {t : ι} (h : s.phase t = .out) (hv : s.v ≠ 0) :
      MutexStep s (s.go t s.v .out)
  /-- the first step of an acquire that finds the mutex taken -/
  | contend {t : ι} (h : s.phase t = .out) (hv : s.v ≠ 0) :
      MutexStep s (s.go t s.v (if s.v ≠ 2 then .exchange else .wait))
  | exchange {t : ι} (h : s.phase t = .exchange ∨ s.phase t = .woken) :
      MutexStep s (s.go t 2 (if s.v = 0 then .holding else .wait))
  | wait {t : ι} (h : s.phase t = .wait) :
      MutexStep s (s.go t s.v (if s.v = 2 then .sleeping else .exchange))
  | spurious {t : ι} (h : s.phase t = .sleeping) :
      MutexStep s (s.go t s.v .woken)
  /-- the first step of a release -/
  | release {t : ι} (h : s.phase t = .holding) :
      MutexStep s (s.go t (s.v - 1) (if s.v ≠ 1 then .store else .out))
  | store {t : ι} (h : s.phase t = .store) :
      MutexStep s (s.go t 0 .wake)
  | wake {t : ι} (h : s.phase t = .wake) {woken : ι → Bool}
      (hsleep : ∀ u, woken u = true → s.phase u = .sleeping)
      (hsome : (∃ u, s.phase u = .sleeping) → ∃ u, woken u = true) :
      MutexStep s (s.wakeUp t woken)

/-- `METAL_MUTEX_INIT`, before any call. -/
def MutexState.Init (s : MutexState ι) : Prop :=
  s.v = 0 ∧ ∀ t, s.phase t = .out

/-- The states that any interleaving leads to. -/
def MutexReachable (s : MutexState ι) : Prop :=
  Reachable MutexState.Init MutexStep s

end Steps

/-! ## The invariant -/

namespace MutexState

variable {ι : Type} (s : MutexState ι)

/-- At most one thread holds the mutex, and a sleeper will be seen to: the
word tells of it, or a thread has its wake still before it, or one was
woken and has its exchange before it. -/
structure Safe : Prop where
  exclusive : ∀ t u, s.phase t = .holding → s.phase u = .holding → t = u
  seen : (∃ t, s.phase t = .sleeping) →
    s.v = 2 ∨ (∃ u, s.phase u = .store ∨ s.phase u = .wake) ∨
      ∃ u, s.phase u = .woken

/-- The thread has taken the word and not set it back. -/
def Owns (t : ι) : Prop := s.phase t = .holding ∨ s.phase t = .store

/-- The word is 0 and nobody owns it, or it is 1 or 2 and one thread
does. -/
def Owned : Prop :=
  s.v = 0 ∧ (∀ t, ¬ s.Owns t) ∨
    (s.v = 1 ∨ s.v = 2) ∧ ∃ t, s.Owns t ∧ ∀ u, s.Owns u → u = t

/-- Someone has its wake, or its exchange after being woken, before it. -/
def Pending : Prop :=
  ∃ u, s.phase u = .store ∨ s.phase u = .wake ∨ s.phase u = .woken

structure Inv : Prop where
  owned : s.Owned
  seen : (∃ t, s.phase t = .sleeping) → s.v = 2 ∨ s.Pending

variable {s} {t : ι}

/-- An owner is the only one, and the word is not 0. -/
theorem Owned.of_owns (h : s.Owned) (ht : s.Owns t) :
    (s.v = 1 ∨ s.v = 2) ∧ ∀ u, s.Owns u → u = t := by
  rcases h with ⟨-, hnone⟩ | ⟨h12, o, -, hone⟩
  · exact absurd ht (hnone t)
  · refine ⟨h12, fun u hu => ?_⟩
    rw [hone u hu, hone t ht]

theorem not_owns {q : MutexPhase} (h : s.phase t = q)
    (hq : q ≠ .holding ∧ q ≠ .store) : ¬ s.Owns t := by
  rw [Owns, h]
  exact not_or.mpr hq

theorem Inv.safe (h : s.Inv) : s.Safe where
  exclusive t u ht hu := by
    rcases h.owned with ⟨-, hnone⟩ | ⟨-, o, -, hone⟩
    · exact absurd (.inl ht) (hnone t)
    · rw [hone t (.inl ht), hone u (.inl hu)]
  seen hsleep := by
    rcases h.seen hsleep with hv | ⟨u, hu | hu | hu⟩
    · exact .inl hv
    · exact .inr (.inl ⟨u, .inl hu⟩)
    · exact .inr (.inl ⟨u, .inr hu⟩)
    · exact .inr (.inr ⟨u, hu⟩)

section
variable [DecidableEq ι] {u : ι} {v : Int} {p : MutexPhase}

@[simp] theorem go_v : (s.go t v p).v = v := rfl

@[simp] theorem go_phase_self : (s.go t v p).phase t = p :=
  Function.update_self ..

theorem go_phase_of_ne (h : u ≠ t) : (s.go t v p).phase u = s.phase u :=
  Function.update_of_ne h ..

/-! ## Who owns the word -/

/-- A thread that does not own the word and does not take it leaves it with
its owner. -/
theorem Owned.go_same (h : s.Owned) (hbefore : ¬ s.Owns t)
    (hafter : p ≠ .holding ∧ p ≠ .store)
    (hv : v = s.v ∨ s.v ≠ 0 ∧ v = 2) : (s.go t v p).Owned := by
  have hown : ∀ u, (s.go t v p).Owns u ↔ s.Owns u := by
    intro u
    by_cases hu : u = t
    · subst hu
      refine iff_of_false ?_ hbefore
      rw [Owns, go_phase_self]
      exact not_or.mpr hafter
    · rw [Owns, Owns, go_phase_of_ne hu]
  rcases h with ⟨h0, hnone⟩ | ⟨h12, o, ho, hone⟩
  · left
    refine ⟨hv.elim (fun heq => heq.trans h0) (fun hne => absurd h0 hne.1), ?_⟩
    exact fun u => (hown u).not.mpr (hnone u)
  · right
    refine ⟨?_, o, (hown o).mpr ho, fun u hu => hone u ((hown u).mp hu)⟩
    rw [go_v]
    rcases hv with heq | ⟨-, heq⟩
    · rwa [heq]
    · exact .inr heq

/-- Of a free word a thread becomes the owner. -/
theorem Owned.go_take (h : s.Owned) (h0 : s.v = 0) (hv : v = 1 ∨ v = 2) :
    (s.go t v .holding).Owned := by
  have hnone : ∀ u, ¬ s.Owns u := by
    rcases h with ⟨-, hnone⟩ | ⟨h12, -⟩
    · exact hnone
    · omega
  refine .inr ⟨hv, t, .inl go_phase_self, fun u hu => ?_⟩
  by_contra hne
  rw [Owns, go_phase_of_ne hne] at hu
  exact hnone u hu

/-- It may go on owning a word that is not 0, -/
theorem Owned.go_keep (h : s.Owned) (ht : s.Owns t)
    (hp : p = .holding ∨ p = .store) (hv : v = 1 ∨ v = 2) :
    (s.go t v p).Owned := by
  refine .inr ⟨hv, t, by rwa [Owns, go_phase_self], fun u hu => ?_⟩
  by_contra hne
  rw [Owns, go_phase_of_ne hne] at hu
  exact hne ((h.of_owns ht).2 u hu)

/-- or set it to 0 and give it up. -/
theorem Owned.go_free (h : s.Owned) (ht : s.Owns t)
    (hp : p ≠ .holding ∧ p ≠ .store) : (s.go t 0 p).Owned := by
  refine .inl ⟨rfl, fun u hu => ?_⟩
  by_cases hne : u = t
  · subst hne
    rw [Owns, go_phase_self] at hu
    exact (not_or.mpr hp) hu
  · rw [Owns, go_phase_of_ne hne] at hu
    exact hne ((h.of_owns ht).2 u hu)

/-! ## Who sees to a sleeper -/

/-- What another thread has before it stays before it. -/
theorem pending_go (h : ∃ u, u ≠ t ∧
      (s.phase u = .store ∨ s.phase u = .wake ∨ s.phase u = .woken)) :
    (s.go t v p).Pending := by
  obtain ⟨u, hne, hu⟩ := h
  exact ⟨u, by rwa [go_phase_of_ne hne]⟩

/-- A thread with nothing of this before it does not take it away. -/
theorem Pending.go (h : s.Pending)
    (ht : s.phase t ≠ .store ∧ s.phase t ≠ .wake ∧ s.phase t ≠ .woken) :
    (s.go t v p).Pending := by
  obtain ⟨u, hu⟩ := h
  refine pending_go ⟨u, fun heq => ?_, hu⟩
  subst heq
  rcases hu with hu | hu | hu
  · exact ht.1 hu
  · exact ht.2.1 hu
  · exact ht.2.2 hu

/-- A thread that does not go to sleep was seen to, if it slept. -/
theorem sleeping_of_go (hp : p ≠ .sleeping)
    (h : ∃ u, (s.go t v p).phase u = .sleeping) :
    ∃ u, s.phase u = .sleeping := by
  obtain ⟨u, hu⟩ := h
  by_cases hne : u = t
  · subst hne
    rw [go_phase_self] at hu
    exact absurd hu hp
  · rw [go_phase_of_ne hne] at hu
    exact ⟨u, hu⟩

/-- A thread that leaves the word and has nothing of this before it leaves
the sleepers seen to. -/
theorem Inv.seen_go (h : s.Inv) (hp : p ≠ .sleeping)
    (ht : s.phase t ≠ .store ∧ s.phase t ≠ .wake ∧ s.phase t ≠ .woken)
    (hv : v = s.v ∨ v = 2 ∨ s.v ≠ 2) :
    (∃ u, (s.go t v p).phase u = .sleeping) →
      (s.go t v p).v = 2 ∨ (s.go t v p).Pending := by
  intro hsleep
  rcases h.seen (sleeping_of_go hp hsleep) with h2 | hpend
  · rcases hv with heq | heq | hne
    · exact .inl (heq.trans h2)
    · exact .inl heq
    · exact absurd h2 hne
  · exact .inr (hpend.go ht)

/-! ## Every step -/

/-- A wake takes nobody's word and leaves a woken thread if there was a
sleeper. -/
theorem Inv.wakeUp (h : s.Inv) (ht : s.phase t = .wake) {woken : ι → Bool}
    (hsleep : ∀ u, woken u = true → s.phase u = .sleeping)
    (hsome : (∃ u, s.phase u = .sleeping) → ∃ u, woken u = true) :
    (s.wakeUp t woken).Inv := by
  have hown : ∀ u, (s.wakeUp t woken).Owns u ↔ s.Owns u := by
    intro u
    simp only [Owns, MutexState.wakeUp]
    by_cases hu : u = t
    · subst hu
      simp [ht]
    · rw [if_neg hu]
      by_cases hw : woken u = true
      · simp [hw, hsleep u hw]
      · rw [if_neg hw]
  constructor
  · rcases h.owned with ⟨h0, hnone⟩ | ⟨h12, o, ho, hone⟩
    · exact .inl ⟨h0, fun u => (hown u).not.mpr (hnone u)⟩
    · exact .inr ⟨h12, o, (hown o).mpr ho, fun u hu => hone u ((hown u).mp hu)⟩
  · rintro ⟨u, hu⟩
    have hslept : s.phase u = .sleeping := by
      simp only [MutexState.wakeUp] at hu
      split at hu
      · cases hu
      · split at hu
        · cases hu
        · exact hu
    -- of the sleepers one is woken
    obtain ⟨w, hw⟩ := hsome ⟨u, hslept⟩
    refine .inr ⟨w, .inr (.inr ?_)⟩
    have hne : w ≠ t := by
      rintro rfl
      rw [hsleep w hw] at ht
      cases ht
    simp only [MutexState.wakeUp]
    rw [if_neg hne, if_pos hw]

theorem Inv.step {s' : MutexState ι} (h : s.Inv) (hst : MutexStep s s') :
    s'.Inv := by
  cases hst with
  | @take t ht hv =>
    exact ⟨h.owned.go_take hv (.inl rfl),
      h.seen_go (by decide) (by simp [ht]) (.inr (.inr (by omega)))⟩
  | @refuse t ht hv =>
    exact ⟨h.owned.go_same (not_owns ht (by decide)) (by decide) (.inl rfl),
      h.seen_go (by decide) (by simp [ht]) (.inl rfl)⟩
  | @contend t ht hv =>
    refine ⟨h.owned.go_same (not_owns ht (by decide)) ?_ (.inl rfl),
      h.seen_go ?_ (by simp [ht]) (.inl rfl)⟩ <;> split <;> decide
  | @exchange t ht =>
    refine ⟨?_, fun _ => .inl rfl⟩
    have hno : ¬ s.Owns t := by
      rcases ht with ht | ht <;> exact not_owns ht (by decide)
    by_cases hv : s.v = 0
    · rw [if_pos hv]
      exact h.owned.go_take hv (.inr rfl)
    · rw [if_neg hv]
      exact h.owned.go_same hno (by decide) (.inr ⟨hv, rfl⟩)
  | @wait t ht =>
    by_cases hv : s.v = 2
    · rw [if_pos hv]
      exact ⟨h.owned.go_same (not_owns ht (by decide)) (by decide) (.inl rfl),
        fun _ => .inl hv⟩
    · rw [if_neg hv]
      exact ⟨h.owned.go_same (not_owns ht (by decide)) (by decide) (.inl rfl),
        h.seen_go (by decide) (by simp [ht]) (.inl rfl)⟩
  | @spurious t ht =>
    exact ⟨h.owned.go_same (not_owns ht (by decide)) (by decide) (.inl rfl),
      fun _ => .inr ⟨t, .inr (.inr go_phase_self)⟩⟩
  | @release t ht =>
    obtain ⟨h12, -⟩ := h.owned.of_owns (.inl ht)
    by_cases hv : s.v = 1
    · rw [if_neg (not_not.mpr hv), hv]
      exact ⟨h.owned.go_free (.inl ht) (by decide),
        h.seen_go (by decide) (by simp [ht]) (.inr (.inr (by omega)))⟩
    · -- the word was 2: the wake comes after the store
      rw [if_pos hv]
      exact ⟨h.owned.go_keep (.inl ht) (.inr rfl) (by omega),
        fun _ => .inr ⟨t, .inl go_phase_self⟩⟩
  | @store t ht =>
    exact ⟨h.owned.go_free (.inr ht) (by decide),
      fun _ => .inr ⟨t, .inr (.inl go_phase_self)⟩⟩
  | @wake t ht woken hsleep hsome => exact h.wakeUp ht hsleep hsome

end

theorem Init.inv (h : s.Init) : s.Inv := by
  obtain ⟨hv, hout⟩ := h
  refine ⟨.inl ⟨hv, fun t => not_owns (hout t) (by decide)⟩, ?_⟩
  rintro ⟨t, ht⟩
  rw [hout t] at ht
  cases ht

end MutexState

/-- **The mutex excludes and loses no waiter**, in any interleaving of any
number of threads. -/
theorem mutex_safe {ι : Type} [DecidableEq ι] {s : MutexState ι}
    (h : MutexReachable s) : s.Safe :=
  (h.invariant (fun _ hinit => MutexState.Init.inv hinit)
    (fun _ _ _ hinv hst => hinv.step hst)).safe

/-- Thread `false` holds the mutex until `true` sleeps on it, and has begun
its release. -/
theorem mutex_safe_two : ∃ s : MutexState Bool, s.Safe ∧
    s.phase true = .sleeping ∧ s.phase false = .store ∧ s.v = 1 := by
  let s₀ : MutexState Bool := ⟨0, fun _ => .out⟩
  have h₀ : MutexReachable s₀ := .start ⟨rfl, fun _ => rfl⟩
  have h₁ := h₀.next (.take (t := false) rfl rfl)
  have h₂ := h₁.next (.contend (t := true) rfl (by decide))
  have h₃ := h₂.next (.exchange (t := true) (.inl rfl))
  have h₄ := h₃.next (.wait (t := true) rfl)
  have h₅ := h₄.next (.release (t := false) rfl)
  exact ⟨_, mutex_safe h₅, rfl, rfl, rfl⟩

end OpenAmp.Metal
