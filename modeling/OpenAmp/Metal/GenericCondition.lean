import OpenAmp.Metal.GenericMutex

/-!
# The generic condition variable

`metal_condition_wait` and `metal_condition_signal` of
`libmetal/lib/system/generic`, called by any number of threads with any
mutexes of `GenericMutex.lean`. A wait polls: it notes the value before it
gives its mutex back, and looks at it again until it is another one. A
signal counts it up, and wakes whoever polls.

A signal may come from anywhere, interrupt handlers included; a broadcast is
a signal.
-/

namespace OpenAmp.Metal

open OpenAmp.Lib

/-- Where a `metal_condition_wait` is. -/
inductive GenericWaitPc (μ : Type) where
  | out
  /-- before the compare-and-exchange of `mptr` -/
  | attaching (m : μ)
  /-- before `v = atomic_load(&cv->v)` -/
  | loading (m : μ)
  /-- before `metal_mutex_release` -/
  | releasing (m : μ) (v : Int32)
  /-- in the loop -/
  | polling (m : μ) (v : Int32)
  /-- in `metal_mutex_acquire` -/
  | reacquiring (m : μ)
deriving DecidableEq, Repr

namespace GenericWaitPc

variable {μ : Type} (m : μ)

/-- It has not given back the mutex of its wait. -/
def Inside : GenericWaitPc μ → Prop
  | attaching n => n = m
  | loading n => n = m
  | releasing n _ => n = m
  | _ => False

/-- It has come past `mptr`. -/
def Attached : GenericWaitPc μ → Prop
  | loading n => n = m
  | releasing n _ => n = m
  | polling n _ => n = m
  | reacquiring n => n = m
  | _ => False

end GenericWaitPc

/-- What a thread does. An operation of a mutex tells whether it has given
the mutex to the thread. -/
inductive GenericCondEvent (ι μ : Type) where
  | mutex (m : μ) (c : GenericCall ι) (taken : Bool)
  | wait (t : ι) (m : μ)
  | attach (t : ι) (m : μ)
  | load (t : ι) (m : μ)
  | release (t : ι) (m : μ)
  /-- one turn of the loop -/
  | poll (t : ι) (m : μ)
  | signal

/-- `struct metal_condition`, the mutexes and the threads. -/
structure GenericCond (ι μ : Type) where
  mptr : Option μ
  v : Int32
  mutex : μ → GenericMutex ι
  pc : ι → GenericWaitPc μ

def GenericCall.caller {ι : Type} : GenericCall ι → ι
  | acquire t => t
  | exchange t _ => t
  | tryAcquire t => t
  | release t => t

/-- It is a `metal_condition_signal`. -/
def GenericCondEvent.signals {ι μ : Type} : GenericCondEvent ι μ → Bool
  | signal => true
  | _ => false

namespace GenericCond

variable {ι μ : Type} [DecidableEq ι] [DecidableEq μ]

/-- Thread `t` goes on to `p`. -/
def go (s : GenericCond ι μ) (t : ι) (p : GenericWaitPc μ) : GenericCond ι μ :=
  { s with pc := Function.update s.pc t p }

/-- So does mutex `m` to `x`. -/
def put (s : GenericCond ι μ) (m : μ) (x : GenericMutex ι) (t : ι)
    (p : GenericWaitPc μ) : GenericCond ι μ :=
  { s.go t p with mutex := Function.update s.mutex m x }

/-- One step. A thread uses the mutexes outside of its waits, and at the end
of a wait until it has the mutex again. -/
inductive Step (s : GenericCond ι μ) :
    GenericCondEvent ι μ → GenericCond ι μ → Prop where
  | mutex {m : μ} {c : GenericCall ι} {x : GenericMutex ι}
      (hpc : s.pc c.caller = .out ∨ s.pc c.caller = .reacquiring m ∧
        ∃ fails, c = .exchange c.caller fails)
      (h : GenericMutex.Step (s.mutex m) c x) :
      Step s (.mutex m c (decide (x.phase c.caller = .holding)))
        (s.put m x c.caller
          (if x.phase c.caller = .holding then .out else s.pc c.caller))
  | wait {t : ι} {m : μ} (h : s.pc t = .out) :
      Step s (.wait t m) (s.go t
        (if (s.mutex m).v = METAL_MUTEX_UNLOCKED then .out else .attaching m))
  | attach {t : ι} {m : μ} (h : s.pc t = .attaching m) :
      Step s (.attach t m) (if s.mptr = none ∨ s.mptr = some m then
          { s with mptr := some m }.go t (.loading m)
        else s.go t .out)
  | load {t : ι} {m : μ} (h : s.pc t = .loading m) :
      Step s (.load t m) (s.go t (.releasing m s.v))
  | release {t : ι} {m : μ} {v : Int32} (h : s.pc t = .releasing m v) :
      Step s (.release t m)
        (s.put m ((s.mutex m).go t METAL_MUTEX_UNLOCKED .out) t (.polling m v))
  /-- and the call of `metal_mutex_acquire` behind the last one -/
  | poll {t : ι} {m : μ} {v : Int32} (h : s.pc t = .polling m v) :
      Step s (.poll t m) (if s.v ≠ v then
          s.put m ((s.mutex m).go t (s.mutex m).v
            (.trying METAL_MUTEX_UNLOCKED)) t (.reacquiring m)
        else s)
  | signal : Step s .signal { s with v := s.v + 1 }

/-- `METAL_CONDITION_INIT`, with all the mutexes free, before any call. -/
def Init (s : GenericCond ι μ) : Prop :=
  s.mptr = none ∧ s.v = 0 ∧ (∀ m, (s.mutex m).Init) ∧ ∀ t, s.pc t = .out

/-- A mutex that is held is waited with by its holder; and no acquire that
was refused tries again on a mutex that is still held. -/
structure Orderly (s : GenericCond ι μ) (e : GenericCondEvent ι μ) : Prop where
  waits : ∀ t m, e = .wait t m →
    (s.mutex m).v = METAL_MUTEX_UNLOCKED ∨ (s.mutex m).phase t = .holding
  tries : ∀ m c b, e = .mutex m c b → (s.mutex m).NotAgain c

/-- What holds throughout. -/
structure Inv (s : GenericCond ι μ) : Prop where
  owned : ∀ m, (s.mutex m).Owned
  held : ∀ t m, (s.pc t).Inside m → (s.mutex m).phase t = .holding
  away : ∀ t m v, s.pc t = .polling m v → (s.mutex m).phase t ≠ .holding
  attached : ∀ t m, (s.pc t).Attached m → s.mptr = some m

variable {s s' : GenericCond ι μ} {t u : ι} {m n : μ} {p q : GenericWaitPc μ}
  {x : GenericMutex ι} {v w : Int32} {e : GenericCondEvent ι μ}
  {tr : List (GenericCondEvent ι μ)}

/-! ## One step -/

omit [DecidableEq μ] in
/-- A thread does nothing to where the others are in a mutex. -/
theorem phase_of_ne {y z : GenericMutex ι} {c : GenericCall ι}
    (h : GenericMutex.Step y c z) (hu : u ≠ c.caller) :
    z.phase u = y.phase u := by
  cases h with
  | acquire => exact GenericMutex.go_phase_of_ne hu
  | exchange =>
    split
    · exact GenericMutex.go_phase_of_ne hu
    · exact GenericMutex.go_phase_of_ne hu
  | tryAcquire =>
    split
    · exact GenericMutex.go_phase_of_ne hu
    · exact GenericMutex.go_phase_of_ne hu
  | release => exact GenericMutex.go_phase_of_ne hu

omit [DecidableEq μ] in
/-- A thread goes on alone. -/
theorem Inv.go (h : s.Inv)
    (hheld : ∀ m, p.Inside m → (s.mutex m).phase t = .holding)
    (haway : ∀ m v, p = .polling m v → (s.mutex m).phase t ≠ .holding)
    (hattached : ∀ m, p.Attached m → s.mptr = some m) : (s.go t p).Inv := by
  refine ⟨h.owned, fun u m hu => ?_, fun u m v hu => ?_, fun u m hu => ?_⟩
  · by_cases hut : u = t
    · subst hut
      simp only [GenericCond.go, Function.update_self] at hu
      exact hheld m hu
    · simp only [GenericCond.go, Function.update_of_ne hut] at hu
      exact h.held u m hu
  · by_cases hut : u = t
    · subst hut
      simp only [GenericCond.go, Function.update_self] at hu
      exact haway m v hu
    · simp only [GenericCond.go, Function.update_of_ne hut] at hu
      exact h.away u m v hu
  · by_cases hut : u = t
    · subst hut
      simp only [GenericCond.go, Function.update_self] at hu
      exact hattached m hu
    · simp only [GenericCond.go, Function.update_of_ne hut] at hu
      exact h.attached u m hu

omit [DecidableEq ι] in
/-- A mutex goes on, by the call of a thread in no wait. -/
theorem Inv.setMutex (h : s.Inv) (hx : x.Owned)
    (hothers : ∀ u, u ≠ t → x.phase u = (s.mutex m).phase u)
    (hpc : s.pc t = .out) :
    { s with mutex := Function.update s.mutex m x }.Inv := by
  have hsame : ∀ u n, s.pc u ≠ .out →
      (Function.update s.mutex m x n).phase u = (s.mutex n).phase u := by
    intro u n hu
    have hut : u ≠ t := by
      rintro rfl
      exact hu hpc
    by_cases hn : n = m
    · subst hn
      rw [Function.update_self]
      exact hothers u hut
    · rw [Function.update_of_ne hn]
  refine ⟨fun n => ?_, fun u n hu => ?_, fun u n v hu => ?_, h.attached⟩
  · by_cases hn : n = m
    · subst hn
      simp only [Function.update_self]
      exact hx
    · simp only [Function.update_of_ne hn]
      exact h.owned n
  · have hne : s.pc u ≠ .out := by
      intro hout
      rw [hout] at hu
      exact hu
    exact (hsame u n hne).trans (h.held u n hu)
  · have hne : s.pc u ≠ .out := by
      intro hout
      cases hout.symm.trans hu
    rw [Ne, hsame u n hne]
    exact h.away u n v hu

theorem Inv.put (h : s.Inv) (hx : x.Owned)
    (hothers : ∀ u, u ≠ t → x.phase u = (s.mutex m).phase u)
    (hin : ∀ n, ¬ p.Inside n)
    (haway : ∀ n v, p = .polling n v → n = m ∧ x.phase t ≠ .holding)
    (hattached : ∀ n, p.Attached n → s.mptr = some n) :
    (s.put m x t p).Inv := by
  -- by way of the state in which the thread is out
  have hout : (s.go t .out).Inv :=
    h.go (fun _ => False.elim) (fun _ _ => nofun) fun _ => False.elim
  have hset := Inv.setMutex (t := t) (m := m) hout hx hothers
    (Function.update_self ..)
  have heq : s.put m x t p =
      { s.go t .out with mutex := Function.update s.mutex m x }.go t p := by
    simp only [GenericCond.put, GenericCond.go, Function.update_idem]
  rw [heq]
  refine Inv.go hset (fun n hn => absurd hn (hin n)) (fun n v hn => ?_) hattached
  obtain ⟨rfl, hphase⟩ := haway n v hn
  simp only [Function.update_self]
  exact hphase

omit [DecidableEq ι] [DecidableEq μ] in
theorem Inv.setMptr (h : s.Inv) (hm : s.mptr = none ∨ s.mptr = some m) :
    { s with mptr := some m }.Inv := by
  refine ⟨h.owned, h.held, h.away, fun u n hu => ?_⟩
  have hn := h.attached u n hu
  rcases hm with hm | hm
  · cases hm.symm.trans hn
  · exact hm.symm.trans hn

theorem Inv.step (h : s.Inv) (hst : Step s e s') (horder : Orderly s e) :
    s'.Inv := by
  cases hst with
  | @mutex m c x hpc hmutex =>
    refine h.put ((h.owned m).step (horder.tries m c _ rfl) hmutex)
      (fun u hu => phase_of_ne hmutex hu) (fun n hn => ?_) (fun n v hn => ?_)
      fun n hn => ?_
    · split at hn
      · exact hn
      · rcases hpc with hpc | ⟨hpc, -⟩
        · rw [hpc] at hn
          exact hn
        · rw [hpc] at hn
          exact hn
    · split at hn
      · cases hn
      · rcases hpc with hpc | ⟨hpc, -⟩
        · cases hpc.symm.trans hn
        · cases hpc.symm.trans hn
    · split at hn
      · exact False.elim hn
      · exact h.attached _ n hn
  | @wait t m hpc =>
    by_cases hv : (s.mutex m).v = METAL_MUTEX_UNLOCKED
    · rw [if_pos hv]
      exact h.go (fun _ => False.elim) (fun _ _ => nofun) fun _ => False.elim
    · rw [if_neg hv]
      refine h.go ?_ (fun _ _ => nofun) fun _ => False.elim
      rintro n rfl
      exact (horder.waits t m rfl).resolve_left hv
  | @attach t m hpc =>
    by_cases hm : s.mptr = none ∨ s.mptr = some m
    · rw [if_pos hm]
      refine Inv.go (h.setMptr hm) ?_ (fun _ _ => nofun) ?_
      · rintro n rfl
        exact h.held t m (by rw [hpc]; rfl)
      · rintro n rfl
        rfl
    · rw [if_neg hm]
      exact h.go (fun _ => False.elim) (fun _ _ => nofun) fun _ => False.elim
  | @load t m hpc =>
    refine h.go ?_ (fun _ _ => nofun) ?_
    · rintro n rfl
      exact h.held t m (by rw [hpc]; rfl)
    · rintro n rfl
      exact h.attached t m (by rw [hpc]; rfl)
  | @release t m v hpc =>
    have hheld := h.held t m (by rw [hpc]; rfl)
    refine h.put ((h.owned m).go_free hheld)
      (fun u hu => GenericMutex.go_phase_of_ne hu) (fun _ => id) ?_ ?_
    · rintro n w ⟨⟩
      rw [GenericMutex.go_phase_self]
      exact ⟨rfl, nofun⟩
    · rintro n rfl
      exact h.attached t m (by rw [hpc]; rfl)
  | @poll t m v hpc =>
    by_cases hv : s.v ≠ v
    · rw [if_pos hv]
      refine h.put ((h.owned m).go_out (h.away t m v hpc) nofun)
        (fun u hu => GenericMutex.go_phase_of_ne hu) (fun _ => id)
        (fun _ _ => nofun) ?_
      rintro n rfl
      exact h.attached t m (by rw [hpc]; rfl)
    · rw [if_neg hv]
      exact h
  | signal => exact ⟨h.owned, h.held, h.away, h.attached⟩

omit [DecidableEq ι] [DecidableEq μ] in
theorem Init.inv (h : s.Init) : s.Inv := by
  obtain ⟨-, -, hmutex, hpc⟩ := h
  refine ⟨fun m => (hmutex m).owned, fun t m hin => ?_, fun t m v hpoll => ?_,
    fun t m hat => ?_⟩
  · rw [hpc] at hin
    exact False.elim hin
  · cases (hpc t).symm.trans hpoll
  · rw [hpc] at hat
    exact False.elim hat

/-- Where a step takes a thread. -/
inductive Move (s : GenericCond ι μ) (t : ι) :
    GenericCondEvent ι μ → GenericWaitPc μ → GenericWaitPc μ → Prop where
  | wait {m : μ} {p : GenericWaitPc μ} : Move s t (.wait t m) .out p
  | attach {m : μ} : Move s t (.attach t m) (.attaching m) (.loading m)
  | refuse {m : μ} : Move s t (.attach t m) (.attaching m) .out
  | load {m : μ} : Move s t (.load t m) (.loading m) (.releasing m s.v)
  | release {m : μ} {v : Int32} :
      Move s t (.release t m) (.releasing m v) (.polling m v)
  | poll {m : μ} {v : Int32} :
      Move s t (.poll t m) (.polling m v) (.reacquiring m)
  | mutex {m : μ} {c : GenericCall ι} :
      Move s t (.mutex m c true) (.reacquiring m) .out

/-- It stays where it is, or makes its own next step. -/
theorem Step.pc_eq (hst : Step s e s') (t : ι) :
    s'.pc t = s.pc t ∨ s.Move t e (s.pc t) (s'.pc t) := by
  have hgo : ∀ {s : GenericCond ι μ} {u p}, u ≠ t → (s.go u p).pc t = s.pc t :=
    fun hu => Function.update_of_ne hu.symm ..
  cases hst with
  | @mutex m c x hpc hmutex =>
    by_cases hu : c.caller = t
    · subst hu
      simp only [GenericCond.put, GenericCond.go, Function.update_self]
      split
      · next hx =>
        rcases hpc with hpc | ⟨hpc, -⟩
        · exact .inl hpc.symm
        · rw [hpc, decide_eq_true hx]
          exact .inr .mutex
      · exact .inl rfl
    · exact .inl (hgo hu)
  | @wait u m hpc =>
    by_cases hu : u = t
    · subst hu
      rw [hpc]
      exact .inr .wait
    · exact .inl (hgo hu)
  | @attach u m hpc =>
    by_cases hu : u = t
    · subst hu
      rw [hpc]
      right
      split
      · simp only [GenericCond.go, Function.update_self]
        exact .attach
      · simp only [GenericCond.go, Function.update_self]
        exact .refuse
    · left
      split
      · exact hgo hu
      · exact hgo hu
  | @load u m hpc =>
    by_cases hu : u = t
    · subst hu
      rw [hpc]
      simp only [GenericCond.go, Function.update_self]
      exact .inr .load
    · exact .inl (hgo hu)
  | @release u m v hpc =>
    by_cases hu : u = t
    · subst hu
      rw [hpc]
      simp only [GenericCond.put, GenericCond.go, Function.update_self]
      exact .inr .release
    · exact .inl (hgo hu)
  | @poll u m v hpc =>
    by_cases hv : s.v ≠ v
    · rw [if_pos hv]
      by_cases hu : u = t
      · subst hu
        rw [hpc]
        simp only [GenericCond.put, GenericCond.go, Function.update_self]
        exact .inr .poll
      · exact .inl (hgo hu)
    · rw [if_neg hv]
      exact .inl rfl
  | signal => exact .inl rfl

end GenericCond

end OpenAmp.Metal
