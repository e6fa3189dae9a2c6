import OpenAmp.Lib.Guard
import OpenAmp.Lib.Transition
import OpenAmp.Metal.Bitmap

/-!
# The interrupt thread of Linux

`libmetal/lib/system/linux/irq.c`: one thread polls the descriptors of the
enabled interrupts and runs their handlers; other threads enable and
disable interrupts, keep handlers away with `metal_irq_save_disable`, or
shut the thread down.

The thread takes down which interrupts are enabled while it holds
`irq_lock`, and polls without it. Who changes them afterwards writes to an
event descriptor that is polled as well. A handler runs with the lock held,
and `metal_mutex_acquire` knows no owner: a handler that enables or
disables an interrupt waits for the thread it runs in.

`irq_lock` is a lock by the results about the mutex. A handler's own calls
of `metal_irq_save_disable` and `metal_irq_restore_enable` do nothing. Nobody
enables the event descriptor itself as an interrupt.
-/

namespace OpenAmp.Metal

open OpenAmp.Lib

/-- `FD_SETSIZE - 1`. The numbers of `linux_irq_cntr` begin at 0. -/
def MAX_IRQS : UInt32 := 1023

/-- What `metal_linux_irq_set_enable` accepts. -/
def LinuxIrq (irq : Int) : Prop := 0 ≤ irq ∧ irq < MAX_IRQS.toNat

instance (irq : Int) : Decidable (LinuxIrq irq) :=
  inferInstanceAs (Decidable (_ ∧ _))

/-- Where `metal_linux_irq_handling` is. -/
inductive IrqThreadPc where
  /-- before `metal_mutex_acquire` at the top of its loop -/
  | top
  /-- behind it -/
  | inside
  | polling (pfds : List UInt32)
  /-- `poll` has returned, with the event descriptor readable -/
  | woken (ready : List UInt32)
  /-- before the next descriptor -/
  | serving (ready : List UInt32)
  /-- in a handler -/
  | handling (rest : List UInt32)
  /-- in `metal_mutex_acquire` called from a handler -/
  | stuck
  | done
deriving DecidableEq, Repr

/-- It holds the lock. -/
def IrqThreadPc.locked : IrqThreadPc → Bool
  | .inside => true
  | .handling _ => true
  | .stuck => true
  | _ => false

/-- It is in `metal_mutex_acquire`. -/
def IrqThreadPc.waits : IrqThreadPc → Bool
  | .top => true
  | .serving (_ :: _) => true
  | .stuck => true
  | _ => false

/-- Where another thread is. -/
inductive IrqCallerPc where
  | out
  /-- `metal_linux_irq_set_enable` before the lock -/
  | setting (irq : Int) (enable : Bool)
  | changing (irq : Int) (enable : Bool)
  /-- before `metal_linux_irq_notify` -/
  | notifying
  /-- `metal_irq_save_disable` before the lock -/
  | saving
  /-- until `metal_irq_restore_enable` -/
  | critical
  /-- `metal_linux_irq_shutdown` before `metal_linux_irq_notify` -/
  | stopping
  /-- in `pthread_join` -/
  | joining
deriving DecidableEq, Repr

def IrqCallerPc.locked : IrqCallerPc → Bool
  | .changing _ _ => true
  | .critical => true
  | _ => false

/-- Who may own the lock. -/
inductive IrqParty (ι : Type) where
  | thread
  | caller (t : ι)

/-- The variables of `irq.c`, the count of the event descriptor and the
threads. -/
structure IrqSystem (ι : Type) where
  irqsEnabled : Bitmap
  notifyCount : Nat
  irqLock : Option (IrqParty ι)
  irqHandlingStop : Bool
  thread : IrqThreadPc
  caller : ι → IrqCallerPc

/-- Who takes a step; the calls of a handler are told apart. -/
inductive IrqEvent (ι : Type) where
  | thread
  | handlerSets (irq : Int)
  | caller (t : ι)

namespace IrqSystem

variable {ι : Type} [DecidableEq ι]

/-- Thread `t` goes on to `p`. -/
def go (s : IrqSystem ι) (t : ι) (p : IrqCallerPc) : IrqSystem ι :=
  { s with caller := Function.update s.caller t p }

/-- The bit is set or cleared. -/
def setEnable (s : IrqSystem ι) (irq : Int) (enable : Bool) : IrqSystem ι :=
  { s with irqsEnabled :=
      if enable then metalBitmapSetBit s.irqsEnabled irq.toNat
      else metalBitmapClearBit s.irqsEnabled irq.toNat }

/-- `metal_linux_irq_notify`. -/
def notify (s : IrqSystem ι) : IrqSystem ι :=
  { s with notifyCount := s.notifyCount + 1 }

/-- One step. `poll` returns when a descriptor is readable, or fails. -/
inductive Step (s : IrqSystem ι) : IrqEvent ι → IrqSystem ι → Prop where
  | acquire (h : s.thread = .top) (hfree : s.irqLock = none) :
      Step s .thread { s with irqLock := some .thread, thread := .inside }
  | stop (h : s.thread = .inside) (hstop : s.irqHandlingStop = true) :
      Step s .thread { s with irqLock := none, thread := .done }
  | collect (h : s.thread = .inside) (hstop : s.irqHandlingStop = false) :
      Step s .thread { s with
        irqLock := none
        thread := .polling (metalBitmapForEachSetBit s.irqsEnabled MAX_IRQS) }
  | wake {pfds ready : List UInt32} (h : s.thread = .polling pfds)
      (hready : ready.Sublist pfds) (hcount : 0 < s.notifyCount) :
      Step s .thread { s with thread := .woken ready }
  | interrupt {pfds ready : List UInt32} (h : s.thread = .polling pfds)
      (hready : ready.Sublist pfds) (hcount : s.notifyCount = 0)
      (hsome : ready ≠ []) :
      Step s .thread { s with thread := .serving ready }
  | pollFails {pfds : List UInt32} (h : s.thread = .polling pfds) :
      Step s .thread { s with thread := .done }
  | readNotify {ready : List UInt32} (h : s.thread = .woken ready) :
      Step s .thread { s with notifyCount := 0, thread := .serving ready }
  | handle {fd : UInt32} {rest : List UInt32}
      (h : s.thread = .serving (fd :: rest)) (hfree : s.irqLock = none) :
      Step s .thread { s with
        irqLock := some .thread
        thread := .handling rest }
  | handled {rest : List UInt32} (h : s.thread = .handling rest) :
      Step s .thread { s with irqLock := none, thread := .serving rest }
  | round (h : s.thread = .serving []) :
      Step s .thread { s with thread := .top }
  | handlerSets {rest : List UInt32} {irq : Int}
      (h : s.thread = .handling rest) :
      Step s (.handlerSets irq) { s with
        thread := if LinuxIrq irq then .stuck else .handling rest }
  | set {t : ι} (irq : Int) (enable : Bool) (h : s.caller t = .out) :
      Step s (.caller t)
        (s.go t (if LinuxIrq irq then .setting irq enable else .out))
  | lockSet {t : ι} {irq : Int} {enable : Bool}
      (h : s.caller t = .setting irq enable) (hfree : s.irqLock = none) :
      Step s (.caller t) { s.go t (.changing irq enable) with
        irqLock := some (.caller t) }
  | change {t : ι} {irq : Int} {enable : Bool}
      (h : s.caller t = .changing irq enable) :
      Step s (.caller t) { (s.setEnable irq enable).go t .notifying with
        irqLock := none }
  | notify {t : ι} (h : s.caller t = .notifying) :
      Step s (.caller t) (s.notify.go t .out)
  | save {t : ι} (h : s.caller t = .out) :
      Step s (.caller t) (s.go t .saving)
  | lockSave {t : ι} (h : s.caller t = .saving) (hfree : s.irqLock = none) :
      Step s (.caller t) { s.go t .critical with irqLock := some (.caller t) }
  | restore {t : ι} (h : s.caller t = .critical) :
      Step s (.caller t) { s.go t .out with irqLock := none }
  | shutdown {t : ι} (h : s.caller t = .out) :
      Step s (.caller t) { s.go t .stopping with irqHandlingStop := true }
  | notifyStop {t : ι} (h : s.caller t = .stopping) :
      Step s (.caller t) (s.notify.go t .joining)
  | join {t : ι} (h : s.caller t = .joining) (hdone : s.thread = .done) :
      Step s (.caller t) (s.go t .out)

/-- After `metal_linux_irq_init`: nothing is enabled. -/
def Init (s : IrqSystem ι) : Prop :=
  s.irqLock = none ∧ s.irqHandlingStop = false ∧ s.thread = .top ∧
    ∀ t, s.caller t = .out

/-- The descriptors are those of the enabled interrupts, or the thread is
about to be told. -/
def Told (s : IrqSystem ι) (pfds : List UInt32) : Prop :=
  (∀ fd, fd ∈ pfds ↔ fd < MAX_IRQS ∧
    metalBitmapIsBitSet s.irqsEnabled fd.toNat = true) ∨
    0 < s.notifyCount ∨ ∃ t, s.caller t = .notifying

/-- It is not to stop, or about to be told. -/
def StopTold (s : IrqSystem ι) : Prop :=
  s.irqHandlingStop = false ∨ 0 < s.notifyCount ∨
    ∃ t, s.caller t = .stopping

/-- **What the thread owes its callers**: it polls for the interrupts that
are enabled and does not sleep through a change of them or a shutdown, no
handler runs in a section between `metal_irq_save_disable` and
`metal_irq_restore_enable`, and it does not wait for itself. -/
structure Right (s : IrqSystem ι) : Prop where
  polled : ∀ pfds, s.thread = .polling pfds → s.Told pfds
  stopped : ∀ pfds, s.thread = .polling pfds → s.StopTold
  away : ∀ t rest, s.caller t = .critical → s.thread ≠ .handling rest
  waits : s.thread.waits = true → s.irqLock ≠ some .thread

/-- No handler enables or disables an interrupt of the thread. -/
def HandlersKeep (_ : IrqSystem ι) (e : IrqEvent ι) : Prop :=
  ∀ irq, e = .handlerSets irq → ¬ LinuxIrq irq

/-! ## The lock -/

/-- Who is between taking the lock and giving it back. -/
def inside (thread : IrqThreadPc) (caller : ι → IrqCallerPc) :
    IrqParty ι → Bool
  | .thread => thread.locked
  | .caller t => (caller t).locked

variable {s s' : IrqSystem ι} {t u : ι} {p q : IrqCallerPc} {pc : IrqThreadPc}
  {pfds : List UInt32} {e : IrqEvent ι}

omit [DecidableEq ι] in
/-- The lock is as it was, -/
theorem guards_thread (h : Guards s.irqLock (inside s.thread s.caller))
    (hpc : pc.locked = s.thread.locked) :
    Guards s.irqLock (inside pc s.caller) := by
  refine h.congr fun o => ?_
  cases o with
  | thread => exact hpc
  | caller t => rfl

omit [DecidableEq ι] in
/-- the thread takes it, -/
theorem guards_thread_enter (h : Guards s.irqLock (inside s.thread s.caller))
    (hfree : s.irqLock = none) (hpc : pc.locked = true) :
    Guards (some .thread) (inside pc s.caller) := by
  rw [hfree] at h
  refine h.enter hpc fun o ho => ?_
  cases o with
  | thread => exact absurd rfl ho
  | caller t => rfl

omit [DecidableEq ι] in
/-- or gives it back. -/
theorem guards_thread_leave (h : Guards s.irqLock (inside s.thread s.caller))
    (hin : s.thread.locked = true) (hpc : pc.locked = false) :
    Guards none (inside pc s.caller) := by
  refine h.leave (p := .thread) hin hpc fun o ho => ?_
  cases o with
  | thread => exact absurd rfl ho
  | caller t => rfl

/-- What one caller does is nothing to the others. -/
theorem inside_update_of_ne {o : IrqParty ι} (ho : o ≠ .caller t) :
    inside pc (Function.update s.caller t p) o = inside pc s.caller o := by
  cases o with
  | thread => rfl
  | caller u =>
    have hu : u ≠ t := fun heq => ho (congrArg IrqParty.caller heq)
    simp only [inside, Function.update_of_ne hu]

theorem inside_update_self :
    inside pc (Function.update s.caller t p) (.caller t) = p.locked := by
  simp only [inside, Function.update_self]

theorem guards_caller (h : Guards s.irqLock (inside s.thread s.caller))
    (hp : p.locked = (s.caller t).locked) :
    Guards s.irqLock (inside s.thread (Function.update s.caller t p)) := by
  refine h.congr fun o => ?_
  by_cases ho : o = .caller t
  · rw [ho, inside_update_self]
    exact hp
  · exact inside_update_of_ne ho

theorem guards_caller_enter (h : Guards s.irqLock (inside s.thread s.caller))
    (hfree : s.irqLock = none) (hp : p.locked = true) :
    Guards (some (.caller t))
      (inside s.thread (Function.update s.caller t p)) := by
  rw [hfree] at h
  exact h.enter (inside_update_self.trans hp) fun o ho =>
    inside_update_of_ne ho

theorem guards_caller_leave (h : Guards s.irqLock (inside s.thread s.caller))
    (hin : (s.caller t).locked = true) (hp : p.locked = false) :
    Guards none (inside s.thread (Function.update s.caller t p)) :=
  h.leave (p := .caller t) hin (inside_update_self.trans hp) fun _ ho =>
    inside_update_of_ne ho

/-! ## What the thread is told -/

omit [DecidableEq ι] in
/-- Nothing is enabled or disabled, and who was to notify has done so or is
still to do it. -/
theorem Told.mono (h : s.Told pfds)
    (hbits : s'.irqsEnabled = s.irqsEnabled)
    (hcount : s.notifyCount ≤ s'.notifyCount)
    (hcaller : ∀ u, s.caller u = .notifying →
      s'.caller u = .notifying ∨ 0 < s'.notifyCount) : s'.Told pfds := by
  rcases h with h | h | ⟨u, h⟩
  · left
    rw [hbits]
    exact h
  · exact .inr (.inl (Nat.lt_of_lt_of_le h hcount))
  · rcases hcaller u h with h | h
    · exact .inr (.inr ⟨u, h⟩)
    · exact .inr (.inl h)

omit [DecidableEq ι] in
theorem StopTold.mono (h : s.StopTold)
    (hstop : s'.irqHandlingStop = s.irqHandlingStop)
    (hcount : s.notifyCount ≤ s'.notifyCount)
    (hcaller : ∀ u, s.caller u = .stopping →
      s'.caller u = .stopping ∨ 0 < s'.notifyCount) : s'.StopTold := by
  rcases h with h | h | ⟨u, h⟩
  · exact .inl (hstop.trans h)
  · exact .inr (.inl (Nat.lt_of_lt_of_le h hcount))
  · rcases hcaller u h with h | h
    · exact .inr (.inr ⟨u, h⟩)
    · exact .inr (.inl h)

/-- A caller that goes on from elsewhere is not the one in this place. -/
theorem update_keeps (hne : s.caller t ≠ q) (hu : s.caller u = q) :
    Function.update s.caller t p u = q := by
  have hut : u ≠ t := by
    rintro rfl
    exact hne hu
  rw [Function.update_of_ne hut]
  exact hu

/-- What holds throughout. -/
structure Inv (s : IrqSystem ι) : Prop where
  guards : Guards s.irqLock (inside s.thread s.caller)
  polled : ∀ pfds, s.thread = .polling pfds → s.Told pfds
  stopped : ∀ pfds, s.thread = .polling pfds → s.StopTold
  free : s.thread ≠ .stuck

omit [DecidableEq ι] in
theorem Init.inv (h : s.Init) : s.Inv := by
  obtain ⟨hlock, -, hthread, hcaller⟩ := h
  have hout : ∀ o, inside s.thread s.caller o = false := by
    intro o
    cases o with
    | thread => simp only [inside, hthread, IrqThreadPc.locked]
    | caller t => simp only [inside, hcaller, IrqCallerPc.locked]
  refine ⟨fun o => ?_, fun pfds h => ?_, fun pfds h => ?_, ?_⟩
  · rw [hlock, hout]
    exact iff_of_false (Option.some_ne_none o).symm Bool.false_ne_true
  · cases hthread.symm.trans h
  · cases hthread.symm.trans h
  · rw [hthread]
    decide

omit [DecidableEq ι] in
theorem Inv.right (h : s.Inv) : s.Right where
  polled := h.polled
  stopped := h.stopped
  away := by
    intro t rest hcritical hhandling
    have hone := h.guards.unique (p := .thread) (q := .caller t)
      (by rw [inside, hhandling]; rfl) (by rw [inside, hcritical]; rfl)
    cases hone
  waits := by
    intro hwaits hlock
    have hlocked : s.thread.locked = true := (h.guards .thread).mp hlock
    cases hpc : s.thread with
    | stuck => exact h.free hpc
    | top =>
      rw [hpc] at hlocked
      cases hlocked
    | serving =>
      rw [hpc] at hlocked
      cases hlocked
    | _ =>
      rw [hpc] at hwaits
      cases hwaits

omit [DecidableEq ι] in
/-- The thread goes on to where it does not poll. -/
theorem Inv.thread {s' : IrqSystem ι}
    (hguards : Guards s'.irqLock (inside s'.thread s'.caller))
    (hpc : ∀ pfds, s'.thread ≠ .polling pfds) (hfree : s'.thread ≠ .stuck) :
    s'.Inv :=
  ⟨hguards, fun pfds h => absurd h (hpc pfds),
    fun pfds h => absurd h (hpc pfds), hfree⟩

/-- A caller goes on that was not about to notify. -/
theorem Inv.caller (h : s.Inv) (hthread : s'.thread = s.thread)
    (hguards : Guards s'.irqLock (inside s'.thread s'.caller))
    (hbits : s'.irqsEnabled = s.irqsEnabled)
    (hcount : s'.notifyCount = s.notifyCount)
    (hstop : s'.irqHandlingStop = s.irqHandlingStop)
    (hcaller : s'.caller = Function.update s.caller t p)
    (hne : s.caller t ≠ .notifying ∧ s.caller t ≠ .stopping) : s'.Inv where
  guards := hguards
  polled := fun pfds hpoll => (h.polled pfds (hthread.symm.trans hpoll)).mono
    hbits (Nat.le_of_eq hcount.symm) fun u hu => .inl <| by
      rw [hcaller]
      exact update_keeps hne.1 hu
  stopped := fun pfds hpoll => (h.stopped pfds (hthread.symm.trans hpoll)).mono
    hstop (Nat.le_of_eq hcount.symm) fun u hu => .inl <| by
      rw [hcaller]
      exact update_keeps hne.2 hu
  free := by
    rw [hthread]
    exact h.free

/-- **One step**, if it is not a handler's call. -/
theorem Inv.step (h : s.Inv) (hst : Step s e s') (hkeep : HandlersKeep s e) :
    s'.Inv := by
  have hg := h.guards
  cases hst with
  | acquire hpc hfree =>
    exact .thread (guards_thread_enter (s := s) hg hfree rfl) nofun nofun
  | stop hpc =>
    have hin : s.thread.locked = true := by rw [hpc]; rfl
    exact .thread (guards_thread_leave (s := s) hg hin rfl) nofun nofun
  | collect hpc hstop =>
    have hin : s.thread.locked = true := by rw [hpc]; rfl
    refine ⟨guards_thread_leave (s := s) hg hin rfl, ?_, ?_, nofun⟩
    · rintro _ ⟨⟩
      exact .inl fun fd => mem_metalBitmapForEachSetBit _ (by decide)
    · exact fun _ _ => .inl hstop
  | wake hpc =>
    refine .thread (guards_thread (s := s) hg ?_) nofun nofun
    rw [hpc]
    rfl
  | interrupt hpc =>
    refine .thread (guards_thread (s := s) hg ?_) nofun nofun
    rw [hpc]
    rfl
  | pollFails hpc =>
    refine .thread (guards_thread (s := s) hg ?_) nofun nofun
    rw [hpc]
    rfl
  | readNotify hpc =>
    refine .thread (guards_thread (s := s) hg ?_) nofun nofun
    rw [hpc]
    rfl
  | handle hpc hfree =>
    exact .thread (guards_thread_enter (s := s) hg hfree rfl) nofun nofun
  | handled hpc =>
    have hin : s.thread.locked = true := by rw [hpc]; rfl
    exact .thread (guards_thread_leave (s := s) hg hin rfl) nofun nofun
  | round hpc =>
    refine .thread (guards_thread (s := s) hg ?_) nofun nofun
    rw [hpc]
    rfl
  | @handlerSets _ irq hpc =>
    rw [if_neg (hkeep irq rfl)]
    refine .thread (guards_thread (s := s) hg ?_) nofun nofun
    rw [hpc]
  | set irq enable hpc =>
    refine h.caller rfl (guards_caller (s := s) hg ?_) rfl rfl rfl rfl ?_
    · rw [hpc]
      split <;> rfl
    · rw [hpc]
      exact ⟨nofun, nofun⟩
  | lockSet hpc hfree =>
    refine h.caller rfl (guards_caller_enter (s := s) hg hfree rfl) rfl rfl rfl
      rfl ?_
    rw [hpc]
    exact ⟨nofun, nofun⟩
  | @change t irq enable hpc =>
    -- the bits change, and this caller is about to notify
    have hin : (s.caller t).locked = true := by rw [hpc]; rfl
    have hne : s.caller t ≠ .stopping := by rw [hpc]; nofun
    refine ⟨guards_caller_leave (s := s) hg hin rfl, ?_, ?_, h.free⟩
    · exact fun _ _ => .inr (.inr ⟨t, Function.update_self ..⟩)
    · exact fun pfds hpoll => (h.stopped pfds hpoll).mono rfl (Nat.le_refl _)
        fun u hu => .inl (update_keeps hne hu)
  | notify hpc =>
    refine ⟨guards_caller (s := s) hg ?_, ?_, ?_, h.free⟩
    · rw [hpc]
      rfl
    · exact fun _ _ => .inr (.inl (Nat.succ_pos _))
    · exact fun _ _ => .inr (.inl (Nat.succ_pos _))
  | save hpc =>
    refine h.caller rfl (guards_caller (s := s) hg ?_) rfl rfl rfl rfl ?_
    · rw [hpc]
      rfl
    · rw [hpc]
      exact ⟨nofun, nofun⟩
  | lockSave hpc hfree =>
    refine h.caller rfl (guards_caller_enter (s := s) hg hfree rfl) rfl rfl rfl
      rfl ?_
    rw [hpc]
    exact ⟨nofun, nofun⟩
  | @restore t hpc =>
    have hin : (s.caller t).locked = true := by rw [hpc]; rfl
    refine h.caller rfl (guards_caller_leave (s := s) hg hin rfl) rfl rfl rfl
      rfl ?_
    rw [hpc]
    exact ⟨nofun, nofun⟩
  | @shutdown t hpc =>
    have hne : s.caller t ≠ .notifying := by rw [hpc]; nofun
    refine ⟨guards_caller (s := s) hg ?_, ?_, ?_, h.free⟩
    · rw [hpc]
      rfl
    · exact fun pfds hpoll => (h.polled pfds hpoll).mono rfl (Nat.le_refl _)
        fun u hu => .inl (update_keeps hne hu)
    · exact fun _ _ => .inr (.inr ⟨t, Function.update_self ..⟩)
  | notifyStop hpc =>
    refine ⟨guards_caller (s := s) hg ?_, ?_, ?_, h.free⟩
    · rw [hpc]
      rfl
    · exact fun _ _ => .inr (.inl (Nat.succ_pos _))
    · exact fun _ _ => .inr (.inl (Nat.succ_pos _))
  | join hpc =>
    refine h.caller rfl (guards_caller (s := s) hg ?_) rfl rfl rfl rfl ?_
    · rw [hpc]
      rfl
    · rw [hpc]
      exact ⟨nofun, nofun⟩

/-- A handler that enables or disables an interrupt waits for its own
thread. -/
theorem Inv.handlersKeep (h : s.Inv) (hst : Step s e s') (hright : s'.Right) :
    HandlersKeep s e := by
  rintro irq rfl hirq
  cases hst with
  | handlerSets hpc =>
    have hlock : s.irqLock = some .thread :=
      (h.guards .thread).mpr (by rw [inside, hpc]; rfl)
    rw [if_pos hirq] at hright
    exact hright.waits rfl hlock

/-- **The interrupt thread does what it owes** in every state of a run
exactly if no handler enables or disables an interrupt of the thread. -/
theorem irqThread_right_iff {s₀ : IrqSystem ι} (h : s₀.Init)
    (tr : List (IrqEvent ι)) :
    Throughout Step s₀ tr Right ↔ EachStep Step s₀ tr HandlersKeep :=
  throughout_iff_of_stronger (fun _ hs => hs.right)
    (fun _ _ _ hs hkeep hst => hs.step hst hkeep)
    (fun _ _ _ hs hst hright => hs.handlersKeep hst hright) h.inv tr

/-- A caller enables an interrupt while the thread starts to poll. -/
theorem irqThread_right_iff_enable :
    Throughout Step (⟨fun _ => 0, 0, none, false, .top, fun _ => .out⟩ :
      IrqSystem Unit) [.caller (), .thread, .thread, .caller (), .caller (),
        .caller (), .thread, .thread] Right := by
  refine (irqThread_right_iff ⟨rfl, rfl, rfl, fun _ => rfl⟩ _).mpr ?_
  rintro done e rest s t htr - - irq rfl
  have hmem : IrqEvent.handlerSets irq ∈ done ++ .handlerSets irq :: rest :=
    List.mem_append_right _ List.mem_cons_self
  rw [← htr] at hmem
  simp at hmem

end IrqSystem

end OpenAmp.Metal
