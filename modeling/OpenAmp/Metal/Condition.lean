import OpenAmp.Lib.Tally
import OpenAmp.Metal.Mutex

/-!
# Condition variables on Linux

`metal_condition_wait` and `metal_condition_signal` of
`libmetal/lib/system/linux`, run by the consumers and producers of
`libmetal/test/system/linux/condition.c` over the mutex of `Mutex.lean`.
Any number of threads of each kind run to their end; what they wait with is
the repository's own, down to the futex.

A thread is inside `metal_mutex_acquire` or `metal_mutex_release` as long as
its program counter says so, and meanwhile the mutex takes its steps. Every
other step is one atomic operation, one futex call or one access to
`counter`.
-/

namespace OpenAmp.Metal

open OpenAmp.Lib

/-! ## The condition variable -/

/-- `struct metal_condition`. The words are 32 bits wide; `waiters` is
compared with 0, `wakeups` only with itself. -/
structure MetalCondition where
  mptr : UInt64
  waiters : Int32
  wakeups : UInt32
deriving DecidableEq, Repr

namespace MetalCondition

/-- The compare-and-exchange of a wait, and the test behind it: `none` is
`-EINVAL`. -/
def attach (cv : MetalCondition) (mptr : UInt64) : Option MetalCondition :=
  if cv.mptr = 0 then some { cv with mptr := mptr }
  else if cv.mptr ≠ mptr then none
  else some cv

def enter (cv : MetalCondition) : MetalCondition :=
  { cv with waiters := cv.waiters + 1 }

def leave (cv : MetalCondition) : MetalCondition :=
  { cv with waiters := cv.waiters - 1 }

def signal (cv : MetalCondition) : MetalCondition :=
  { cv with wakeups := cv.wakeups + 1 }

/-- Attaching a mutex wakes nobody and counts nobody. -/
theorem attach_eq {cv cv' : MetalCondition} {mptr : UInt64}
    (h : cv.attach mptr = some cv') :
    cv'.waiters = cv.waiters ∧ cv'.wakeups = cv.wakeups := by
  unfold attach at h
  split at h
  · cases h
    exact ⟨rfl, rfl⟩
  · split at h
    · cases h
    · cases h
      exact ⟨rfl, rfl⟩

end MetalCondition

/-! ## Consumers and producers -/

def COUNTER_MAX : UInt32 := 10

/-- `consumer_thread` and `producer_thread`. -/
inductive Role where
  | consumer
  | producer
deriving DecidableEq, Repr

namespace Role

def other : Role → Role
  | .consumer => .producer
  | .producer => .consumer

/-- The condition of the loop around the wait. -/
def blocked : Role → UInt32 → Bool
  | .consumer, counter => counter = 0
  | .producer, counter => counter = COUNTER_MAX

/-- `counter--` and `counter++`. -/
def change : Role → UInt32 → UInt32
  | .consumer, counter => counter - 1
  | .producer, counter => counter + 1

@[simp] theorem other_other (r : Role) : r.other.other = r := by cases r <;> rfl

theorem other_ne (r : Role) : r.other ≠ r := by cases r <;> decide

theorem eq_or_other (r q : Role) : q = r ∨ q = r.other := by
  cases r <;> cases q <;> decide

end Role

/-- What a thread does next. `v` is the number of wakeups it has seen. -/
inductive CondPc where
  /-- `metal_mutex_acquire`, at the start -/
  | acquire
  /-- the condition of the loop -/
  | test
  /-- `metal_mutex_is_acquired`, in the wait -/
  | check
  /-- the compare-and-exchange of `mptr` -/
  | attach
  /-- `v = atomic_load(&cv->wakeups)` -/
  | load
  /-- `atomic_fetch_add(&cv->waiters, 1)` -/
  | enter (v : UInt32)
  /-- `metal_mutex_release`, in the wait -/
  | unlock (v : UInt32)
  /-- `FUTEX_WAIT` -/
  | futex (v : UInt32)
  /-- nothing: it sleeps -/
  | asleep (v : UInt32)
  /-- `atomic_fetch_sub(&cv->waiters, 1)` -/
  | leave
  /-- `metal_mutex_acquire`, in the wait -/
  | relock
  /-- `counter--` or `counter++` -/
  | change
  /-- `atomic_fetch_add(&cv->wakeups, 1)` of the other condition variable -/
  | signal
  /-- `atomic_load(&cv->waiters) > 0` -/
  | look
  /-- `FUTEX_WAKE` -/
  | wake
  /-- `metal_mutex_release`, at the end -/
  | release
  /-- nothing: it has returned -/
  | done
deriving DecidableEq, Repr

/-- The threads and what they share. `cond .consumer` is `nempty_condv`,
which the consumers wait on, `cond .producer` is `nfull_condv`. -/
structure CondState (ι : Type) where
  mutex : MutexState ι
  counter : UInt32
  cond : Role → MetalCondition
  pc : ι → CondPc

namespace CondState

variable {ι : Type} [DecidableEq ι]

/-- Thread `t` goes on to `p`. -/
def go (s : CondState ι) (t : ι) (p : CondPc) : CondState ι :=
  { s with pc := Function.update s.pc t p }

/-- The condition variable that `r` waits on becomes `cv`. -/
def setCond (s : CondState ι) (r : Role) (cv : MetalCondition) :
    CondState ι :=
  { s with cond := Function.update s.cond r cv }

end CondState

/-- The mutex takes a step in which only a thread in an acquire begins one,
and only a thread in a release gives the mutex up. -/
structure MutexTurn {ι : Type} [DecidableEq ι] (s : CondState ι)
    (m : MutexState ι) : Prop where
  step : MutexStep s.mutex m
  acquires : ∀ t, s.mutex.phase t = .out → m.phase t ≠ .out →
    s.pc t = .acquire ∨ s.pc t = .relock
  releases : ∀ t, s.mutex.phase t = .holding → m.phase t ≠ .holding →
    s.pc t = .release ∨ ∃ v, s.pc t = .unlock v

/-- One step of the threads. `lock` is the address of the mutex. -/
inductive CondStep {ι : Type} [DecidableEq ι] (lock : UInt64) (role : ι → Role)
    (s : CondState ι) : CondState ι → Prop where
  | mutex {m : MutexState ι} (h : MutexTurn s m) :
      CondStep lock role s { s with mutex := m }
  | acquired {t : ι} (h : s.pc t = .acquire ∨ s.pc t = .relock)
      (hm : s.mutex.phase t = .holding) :
      CondStep lock role s (s.go t .test)
  | test {t : ι} (h : s.pc t = .test) :
      CondStep lock role s
        (s.go t (if (role t).blocked s.counter then .check else .change))
  /-- with `-EINVAL` the wait returns at once -/
  | check {t : ι} (h : s.pc t = .check) :
      CondStep lock role s
        (s.go t (if lock = 0 ∨ s.mutex.v = 0 then .test else .attach))
  | attach {t : ι} {cv : MetalCondition} (h : s.pc t = .attach)
      (hcv : (s.cond (role t)).attach lock = some cv) :
      CondStep lock role s ((s.setCond (role t) cv).go t .load)
  /-- another mutex is attached: `-EINVAL` again -/
  | refused {t : ι} (h : s.pc t = .attach)
      (hcv : (s.cond (role t)).attach lock = none) :
      CondStep lock role s (s.go t .test)
  | load {t : ι} (h : s.pc t = .load) :
      CondStep lock role s (s.go t (.enter (s.cond (role t)).wakeups))
  | enter {t : ι} {v : UInt32} (h : s.pc t = .enter v) :
      CondStep lock role s
        ((s.setCond (role t) (s.cond (role t)).enter).go t (.unlock v))
  | unlocked {t : ι} {v : UInt32} (h : s.pc t = .unlock v)
      (hm : s.mutex.phase t = .out) :
      CondStep lock role s (s.go t (.futex v))
  | futex {t : ι} {v : UInt32} (h : s.pc t = .futex v) :
      CondStep lock role s
        (s.go t (if (s.cond (role t)).wakeups = v then .asleep v else .leave))
  | spurious {t : ι} {v : UInt32} (h : s.pc t = .asleep v) :
      CondStep lock role s (s.go t .leave)
  | leave {t : ι} (h : s.pc t = .leave) :
      CondStep lock role s
        ((s.setCond (role t) (s.cond (role t)).leave).go t .relock)
  | change {t : ι} (h : s.pc t = .change) :
      CondStep lock role s
        (CondState.go { s with counter := (role t).change s.counter } t .signal)
  | signal {t : ι} (h : s.pc t = .signal) :
      CondStep lock role s
        ((s.setCond (role t).other (s.cond (role t).other).signal).go t .look)
  | look {t : ι} (h : s.pc t = .look) :
      CondStep lock role s
        (s.go t (if 0 < (s.cond (role t).other).waiters then .wake else .release))
  /-- a futex wake of one wakes one sleeper, any of them -/
  | wake {t u : ι} {v : UInt32} (h : s.pc t = .wake) (hu : s.pc u = .asleep v)
      (hrole : role u = (role t).other) :
      CondStep lock role s ((s.go u .leave).go t .release)
  /-- and nobody if nobody sleeps -/
  | wakeNone {t : ι} (h : s.pc t = .wake)
      (hnone : ∀ u v, role u = (role t).other → s.pc u ≠ .asleep v) :
      CondStep lock role s (s.go t .release)
  | released {t : ι} (h : s.pc t = .release) (hm : s.mutex.phase t = .out) :
      CondStep lock role s (s.go t .done)

/-- Before the threads start. The condition variables may have been used
before. -/
structure CondState.Init {ι : Type} (s : CondState ι) : Prop where
  mutex : s.mutex.Init
  counter : s.counter = 0
  waiters : ∀ r, (s.cond r).waiters = 0
  pc : ∀ t, s.pc t = .acquire

/-- The states that any interleaving leads to. -/
def CondReachable {ι : Type} [DecidableEq ι] (lock : UInt64) (role : ι → Role)
    (s : CondState ι) : Prop :=
  Reachable CondState.Init (CondStep lock role) s

end OpenAmp.Metal
