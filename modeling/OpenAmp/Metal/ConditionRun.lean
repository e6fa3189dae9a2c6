import OpenAmp.Metal.Condition

/-!
# What the threads of the condition variables keep

What holds in every state of `Condition.lean`: who is inside the mutex, what
`waiters` counts, and how far behind `wakeups` a thread can be that is about
to fall asleep.
-/

namespace OpenAmp.Metal

open OpenAmp.Lib

/-! ## The mutex and the program -/

/-- What a step of the mutex can do to a thread. -/
def MutexPhase.Next : MutexPhase → MutexPhase → Bool
  | .out, q => q = .holding ∨ q = .exchange ∨ q = .wait
  | .exchange, q | .woken, q => q = .holding ∨ q = .wait
  | .wait, q => q = .sleeping ∨ q = .exchange
  | .sleeping, q => q = .woken
  | .holding, q => q = .store ∨ q = .out
  | .store, q => q = .wake
  | .wake, q => q = .out

section Mutex

variable {ι : Type} [DecidableEq ι]

theorem MutexState.next_go {s : MutexState ι} {t : ι} {v : Int}
    {p : MutexPhase} (h : p = s.phase t ∨ (s.phase t).Next p) (u : ι) :
    (s.go t v p).phase u = s.phase u ∨
      (s.phase u).Next ((s.go t v p).phase u) := by
  by_cases hu : u = t
  · subst hu
    rwa [MutexState.go_phase_self]
  · exact .inl (MutexState.go_phase_of_ne hu)

theorem MutexStep.next {s m : MutexState ι} (h : MutexStep s m) (u : ι) :
    m.phase u = s.phase u ∨ (s.phase u).Next (m.phase u) := by
  cases h with
  | take h => exact MutexState.next_go (.inr (by rw [h]; rfl)) u
  | refuse h => exact MutexState.next_go (.inl h.symm) u
  | contend h =>
    refine MutexState.next_go (.inr ?_) u
    rw [h]
    split <;> rfl
  | exchange h =>
    refine MutexState.next_go (.inr ?_) u
    rcases h with h | h <;> rw [h] <;> split <;> rfl
  | wait h =>
    refine MutexState.next_go (.inr ?_) u
    rw [h]
    split <;> rfl
  | spurious h => exact MutexState.next_go (.inr (by rw [h]; rfl)) u
  | release h =>
    refine MutexState.next_go (.inr ?_) u
    rw [h]
    split <;> rfl
  | store h => exact MutexState.next_go (.inr (by rw [h]; rfl)) u
  | @wake t h woken hsleep _ =>
    simp only [MutexState.wakeUp]
    by_cases hu : u = t
    · subst hu
      rw [if_pos rfl, h]
      exact .inr rfl
    · rw [if_neg hu]
      by_cases hw : woken u = true
      · rw [if_pos hw, hsleep u hw]
        exact .inr rfl
      · rw [if_neg hw]
        exact .inl rfl

end Mutex

/-- Where a thread is with respect to the mutex. -/
inductive LockPart where
  | outside
  | acquiring
  | inside
  | releasing
deriving DecidableEq, Repr

/-- What the mutex knows of such a thread. -/
def LockPart.Fits : LockPart → MutexPhase → Prop
  | .outside, p => p = .out
  | .acquiring, p => p ≠ .store ∧ p ≠ .wake
  | .inside, p => p = .holding
  | .releasing, p => p = .holding ∨ p = .store ∨ p = .wake ∨ p = .out

def CondPc.part : CondPc → LockPart
  | .acquire | .relock => .acquiring
  | .unlock _ | .release => .releasing
  | .futex _ | .asleep _ | .leave | .done => .outside
  | _ => .inside

theorem LockPart.Fits.next {k : LockPart} {p q : MutexPhase} (h : k.Fits p)
    (hnext : p.Next q = true) (hin : p = .out → q ≠ .out → k = .acquiring)
    (hout : p = .holding → q ≠ .holding → k = .releasing) : k.Fits q := by
  cases k with
  | outside =>
    by_contra hne
    exact nomatch hin h hne
  | inside =>
    by_contra hne
    exact nomatch hout h hne
  | acquiring =>
    by_cases hp : p = .holding
    · by_cases hq : q = .holding
      · rw [hq]
        exact ⟨nofun, nofun⟩
      · exact nomatch hout hp hq
    · cases p <;> cases q <;> simp_all [Fits, MutexPhase.Next]
  | releasing =>
    by_cases hp : p = .out
    · by_cases hq : q = .out
      · exact .inr (.inr (.inr hq))
      · exact nomatch hin hp hq
    · rcases h with rfl | rfl | rfl | rfl
      · cases q <;> simp_all [Fits, MutexPhase.Next]
      · cases q <;> simp_all [Fits, MutexPhase.Next]
      · cases q <;> simp_all [Fits, MutexPhase.Next]
      · exact absurd rfl hp

namespace CondState

variable {ι : Type} {s : CondState ι}

/-- The program counters agree with the mutex. -/
structure Linked (s : CondState ι) : Prop where
  mutex : s.mutex.Inv
  fits : ∀ t, (s.pc t).part.Fits (s.mutex.phase t)

theorem Init.linked (h : s.Init) : s.Linked where
  mutex := MutexState.Init.inv h.mutex
  fits t := by
    rw [h.pc t, h.mutex.2 t]
    exact ⟨nofun, nofun⟩

/-- Only one thread is inside. -/
theorem Linked.alone (h : s.Linked) {t u : ι} (ht : (s.pc t).part = .inside)
    (hu : (s.pc u).part = .inside) : u = t := by
  have hfit := h.fits t
  have hfit' := h.fits u
  rw [ht] at hfit
  rw [hu] at hfit'
  exact h.mutex.safe.exclusive u t hfit' hfit

variable {t u : ι} {p : CondPc} {r : Role} {cv : MetalCondition}

@[simp] theorem setCond_mutex : (s.setCond r cv).mutex = s.mutex := rfl

@[simp] theorem setCond_counter : (s.setCond r cv).counter = s.counter := rfl

@[simp] theorem setCond_pc : (s.setCond r cv).pc = s.pc := rfl

@[simp] theorem setCond_cond_self : (s.setCond r cv).cond r = cv :=
  Function.update_self ..

theorem setCond_cond_of_ne {q : Role} (h : q ≠ r) :
    (s.setCond r cv).cond q = s.cond q :=
  Function.update_of_ne h ..

theorem Linked.setCond (h : s.Linked) : (s.setCond r cv).Linked :=
  ⟨h.mutex, h.fits⟩

variable [DecidableEq ι]

@[simp] theorem go_mutex : (s.go t p).mutex = s.mutex := rfl

@[simp] theorem go_counter : (s.go t p).counter = s.counter := rfl

@[simp] theorem go_cond : (s.go t p).cond = s.cond := rfl

@[simp] theorem go_pc_self : (s.go t p).pc t = p := Function.update_self ..

theorem go_pc_of_ne (h : u ≠ t) : (s.go t p).pc u = s.pc u :=
  Function.update_of_ne h ..

/-- What holds of the threads as they were and of the one that went on holds
of all. -/
theorem go_pc_cases {P : ι → CondPc → Prop} (hself : P t p)
    (hother : ∀ u, u ≠ t → P u (s.pc u)) (u : ι) : P u ((s.go t p).pc u) := by
  by_cases hu : u = t
  · subst hu
    rwa [go_pc_self]
  · rw [go_pc_of_ne hu]
    exact hother u hu

/-- A thread may go on where the mutex allows it. -/
theorem Linked.go (h : s.Linked) (hp : p.part.Fits (s.mutex.phase t)) :
    (s.go t p).Linked where
  mutex := h.mutex
  fits u := by
    by_cases hu : u = t
    · subst hu
      rwa [go_pc_self]
    · rw [go_pc_of_ne hu]
      exact h.fits u

/-- It may go on to where it is in the same part. -/
theorem Linked.go_same (h : s.Linked) (hp : p.part = (s.pc t).part) :
    (s.go t p).Linked := by
  refine h.go ?_
  rw [hp]
  exact h.fits t

theorem Linked.turn {m : MutexState ι} (h : s.Linked) (hturn : MutexTurn s m) :
    ({ s with mutex := m } : CondState ι).Linked where
  mutex := h.mutex.step hturn.step
  fits t := by
    rcases hturn.step.next t with hsame | hnext
    · change (s.pc t).part.Fits (m.phase t)
      rw [hsame]
      exact h.fits t
    · refine (h.fits t).next hnext (fun hp hq => ?_) fun hp hq => ?_
      · rcases hturn.acquires t hp hq with hpc | hpc <;> rw [hpc] <;> rfl
      · rcases hturn.releases t hp hq with hpc | ⟨v, hpc⟩ <;> rw [hpc] <;> rfl

variable {lock : UInt64} {role : ι → Role}

theorem Linked.step {s' : CondState ι} (h : s.Linked)
    (hst : CondStep lock role s s') : s'.Linked := by
  cases hst with
  | mutex hturn => exact h.turn hturn
  | acquired _ hm => exact h.go hm
  | test hpc =>
    refine h.go_same ?_
    rw [hpc]
    split <;> rfl
  | check hpc =>
    refine h.go_same ?_
    rw [hpc]
    split <;> rfl
  | attach hpc => exact h.setCond.go_same (by rw [setCond_pc, hpc]; rfl)
  | refused hpc => exact h.go_same (by rw [hpc]; rfl)
  | load hpc => exact h.go_same (by rw [hpc]; rfl)
  | @enter t v hpc =>
    have hin := h.fits t
    rw [hpc] at hin
    exact h.setCond.go (.inl hin)
  | unlocked _ hm => exact h.go hm
  | @futex t v hpc =>
    refine h.go_same ?_
    rw [hpc]
    split <;> rfl
  | spurious hpc => exact h.go_same (by rw [hpc]; rfl)
  | @leave t hpc =>
    have hout := h.fits t
    rw [hpc] at hout
    refine h.setCond.go ?_
    rw [setCond_mutex, show s.mutex.phase t = .out from hout]
    exact ⟨nofun, nofun⟩
  | @change t hpc =>
    have h' : Linked { s with counter := (role t).change s.counter } :=
      ⟨h.mutex, h.fits⟩
    exact h'.go_same (by rw [hpc]; rfl)
  | signal hpc => exact h.setCond.go_same (by rw [setCond_pc, hpc]; rfl)
  | @look t hpc =>
    have hin : s.mutex.phase t = .holding := by
      have hin := h.fits t
      rwa [hpc] at hin
    refine h.go ?_
    rw [hin]
    split
    · rfl
    · exact .inl rfl
  | @wake t u v hpc hu hrole =>
    have hin := h.fits t
    rw [hpc] at hin
    exact (h.go_same (by rw [hu]; rfl)).go (.inl hin)
  | @wakeNone t hpc =>
    have hin := h.fits t
    rw [hpc] at hin
    exact h.go (.inl hin)
  | released _ hm => exact h.go hm

end CondState

/-! ## What the threads count for -/

namespace CondPc

/-- It is counted in `waiters`. -/
def counted : CondPc → Bool
  | .unlock _ | .futex _ | .asleep _ | .leave => true
  | _ => false

/-- It has used the counter. -/
def past : CondPc → Bool
  | .signal | .look | .wake | .release | .done => true
  | _ => false

/-- It has raised `wakeups`. -/
def signalled : CondPc → Bool
  | .look | .wake | .release | .done => true
  | _ => false

/-- It has raised `wakeups` and not looked after the sleepers yet. -/
def waking : CondPc → Bool
  | .look | .wake => true
  | _ => false

/-- It owes a wakeup. -/
def signalling : CondPc → Bool
  | .signal | .look | .wake => true
  | _ => false

/-- What it will wait with. -/
def ticket : CondPc → Option UInt32
  | .enter v | .unlock v | .futex v => some v
  | _ => none

/-- It waits, or will fall asleep as things are. `w` is the word. -/
def waiting (w : UInt32) : CondPc → Bool
  | .check | .attach | .load | .enter _ | .asleep _ => true
  | .unlock v | .futex v => v = w
  | _ => false

/-- It is on its way to use the counter. -/
def able (w : UInt32) : CondPc → Bool
  | .acquire | .test | .leave | .relock | .change => true
  | .unlock v | .futex v => v ≠ w
  | _ => false

theorem part_of_waking {p : CondPc} (h : p.waking = true) :
    p.part = .inside := by
  cases p with
  | look => rfl
  | wake => rfl
  | _ => cases h

end CondPc

/-- One signal more than `d` is not the word seen. -/
theorem ne_of_signalled {v w : UInt32} {d : Nat} (h : v + UInt32.ofNat d = w)
    (hlt : d + 1 < 2 ^ 32) : v ≠ w + 1 := by
  intro heq
  subst h
  have hnat := congrArg UInt32.toNat heq
  have hv := v.toNat_lt
  simp only [UInt32.toNat_add, UInt32.toNat_ofNat', UInt32.reduceToNat] at hnat
  omega

namespace CondState

/-- With a thread inside that wakes nobody, nobody is in a wake. -/
theorem Linked.waking_false {ι : Type} {s : CondState ι} (h : s.Linked) {t : ι}
    (ht : (s.pc t).part = .inside) (hnot : (s.pc t).waking = false) (u : ι) :
    (s.pc u).waking = false := by
  by_contra hw
  have hw := Bool.eq_true_of_not_eq_false hw
  rw [h.alone ht (CondPc.part_of_waking hw), hnot] at hw
  cases hw

variable {ι : Type} [Fintype ι] {s : CondState ι} {role : ι → Role}
  {t u : ι} {p : CondPc} {q r : Role} {cv : MetalCondition} {f g : CondPc → Bool}

/-- How many threads of a role `f` counts. -/
def tallyOf (s : CondState ι) (role : ι → Role) (r : Role) (f : CondPc → Bool) :
    Nat :=
  tally fun t => decide (role t = r) && f (s.pc t)

theorem tallyOf_le (s : CondState ι) (role : ι → Role) (r : Role)
    (f : CondPc → Bool) : s.tallyOf role r f ≤ Fintype.card ι :=
  tally_le_card _

theorem tallyOf_pos (hr : role t = r) (hf : f (s.pc t) = true) :
    0 < s.tallyOf role r f :=
  tally_pos (t := t) (by simp [hr, hf])

theorem tallyOf_mono {s' : CondState ι} (h : ∀ u, role u = r →
    f (s.pc u) = true → g (s'.pc u) = true) :
    s.tallyOf role r f ≤ s'.tallyOf role r g := by
  refine tally_mono fun u hu => ?_
  simp only [Bool.and_eq_true, decide_eq_true_eq] at hu ⊢
  exact ⟨hu.1, h u hu.1 hu.2⟩

variable [DecidableEq ι]

/-- One of them goes on. -/
theorem tallyOf_go (hr : role t = r) :
    (s.go t p).tallyOf role r f + (f (s.pc t)).toNat =
      s.tallyOf role r f + (f p).toNat := by
  have h := tally_change (t := t) (f := fun u => decide (role u = r) && f (s.pc u))
    (g := fun u => decide (role u = r) && f ((s.go t p).pc u))
    fun u hu => by rw [go_pc_of_ne hu]
  simp only [hr, decide_true, Bool.true_and, go_pc_self] at h
  exact h

theorem tallyOf_go_other (hr : role t ≠ r) :
    (s.go t p).tallyOf role r f = s.tallyOf role r f := by
  refine tally_congr fun u => ?_
  by_cases hu : u = t
  · subst hu
    simp [hr]
  · rw [go_pc_of_ne hu]

theorem tallyOf_go_same (h : f p = f (s.pc t)) :
    (s.go t p).tallyOf role r f = s.tallyOf role r f := by
  by_cases hr : role t = r
  · have hgo := tallyOf_go (s := s) (p := p) (f := f) hr
    rw [h] at hgo
    omega
  · exact tallyOf_go_other hr

/-! ### The waiters -/

/-- `waiters` counts the threads between its two changes. -/
def Counts (s : CondState ι) (role : ι → Role) : Prop :=
  ∀ r, (s.cond r).waiters.toInt = s.tallyOf role r CondPc.counted

omit [DecidableEq ι] in
theorem Init.counts (h : s.Init) : s.Counts role := by
  intro r
  have hzero : s.tallyOf role r CondPc.counted = 0 :=
    tally_eq_zero fun t => by rw [h.pc t]; exact Bool.and_false _
  rw [h.waiters r, hzero]
  rfl

theorem Counts.go_same (h : s.Counts role) (hp : p.counted = (s.pc t).counted) :
    (s.go t p).Counts role := by
  intro r
  rw [tallyOf_go_same hp]
  exact h r

omit [DecidableEq ι] in
theorem Counts.setCond (h : s.Counts role)
    (hcv : cv.waiters = (s.cond q).waiters) : (s.setCond q cv).Counts role := by
  intro r
  by_cases hr : r = q
  · subst hr
    rw [setCond_cond_self, hcv]
    exact h r
  · rw [setCond_cond_of_ne hr]
    exact h r

/-- There are too few threads for the counter to wrap around. -/
theorem Counts.enter (h : s.Counts role) (hcard : Fintype.card ι < 2147483648)
    {v : UInt32} (hpc : s.pc t = .enter v) :
    ((s.setCond (role t) (s.cond (role t)).enter).go t (.unlock v)).Counts
      role := by
  intro r
  by_cases hr : role t = r
  · subst hr
    have hgo := tallyOf_go (s := s.setCond (role t) (s.cond (role t)).enter)
      (p := .unlock v) (f := CondPc.counted) (rfl : role t = role t)
    rw [setCond_pc, hpc] at hgo
    have hle := ((s.setCond (role t) (s.cond (role t)).enter).go t
      (.unlock v)).tallyOf_le role (role t) CondPc.counted
    have hsame : (s.setCond (role t) (s.cond (role t)).enter).tallyOf role
      (role t) CondPc.counted = s.tallyOf role (role t) CondPc.counted := rfl
    have hnow := h (role t)
    change _ + 0 = _ + 1 at hgo
    rw [go_cond, setCond_cond_self]
    change ((s.cond (role t)).waiters + 1).toInt = _
    rw [Int32.toInt_add, hnow, Int.bmod_eq_of_le]
    all_goals
      simp only [Int32.reduceToInt]
      omega
  · rw [go_cond, setCond_cond_of_ne (Ne.symm hr), tallyOf_go_other hr]
    exact h r

theorem Counts.leave (h : s.Counts role) (hcard : Fintype.card ι < 2147483648)
    (hpc : s.pc t = .leave) :
    ((s.setCond (role t) (s.cond (role t)).leave).go t .relock).Counts
      role := by
  intro r
  by_cases hr : role t = r
  · subst hr
    have hgo := tallyOf_go (s := s.setCond (role t) (s.cond (role t)).leave)
      (p := .relock) (f := CondPc.counted) (rfl : role t = role t)
    rw [setCond_pc, hpc] at hgo
    have hle := s.tallyOf_le role (role t) CondPc.counted
    have hsame : (s.setCond (role t) (s.cond (role t)).leave).tallyOf role
      (role t) CondPc.counted = s.tallyOf role (role t) CondPc.counted := rfl
    have hnow := h (role t)
    change _ + 1 = _ + 0 at hgo
    rw [go_cond, setCond_cond_self]
    change ((s.cond (role t)).waiters - 1).toInt = _
    rw [Int32.toInt_sub, hnow, Int.bmod_eq_of_le]
    all_goals
      simp only [Int32.reduceToInt]
      omega
  · rw [go_cond, setCond_cond_of_ne (Ne.symm hr), tallyOf_go_other hr]
    exact h r

variable {lock : UInt64}

theorem Counts.step {s' : CondState ι} (h : s.Counts role)
    (hcard : Fintype.card ι < 2147483648) (hst : CondStep lock role s s') :
    s'.Counts role := by
  cases hst with
  | mutex => exact h
  | acquired hpc =>
    refine h.go_same ?_
    rcases hpc with hpc | hpc <;> rw [hpc] <;> rfl
  | test hpc =>
    refine h.go_same ?_
    rw [hpc]
    split <;> rfl
  | check hpc =>
    refine h.go_same ?_
    rw [hpc]
    split <;> rfl
  | attach hpc hcv =>
    exact (h.setCond (MetalCondition.attach_eq hcv).1).go_same
      (by rw [setCond_pc, hpc]; rfl)
  | refused hpc => exact h.go_same (by rw [hpc]; rfl)
  | load hpc => exact h.go_same (by rw [hpc]; rfl)
  | enter hpc => exact h.enter hcard hpc
  | unlocked hpc => exact h.go_same (by rw [hpc]; rfl)
  | futex hpc =>
    refine h.go_same ?_
    rw [hpc]
    split <;> rfl
  | spurious hpc => exact h.go_same (by rw [hpc]; rfl)
  | leave hpc => exact h.leave hcard hpc
  | @change t hpc =>
    have h' : Counts { s with counter := (role t).change s.counter } role := h
    exact h'.go_same (by rw [hpc]; rfl)
  | @signal t hpc =>
    have hsame : (s.cond (role t).other).signal.waiters =
        (s.cond (role t).other).waiters := rfl
    exact (h.setCond hsame).go_same (by rw [setCond_pc, hpc]; rfl)
  | look hpc =>
    refine h.go_same ?_
    rw [hpc]
    split <;> rfl
  | @wake t u v hpc hu hrole =>
    have hne : t ≠ u := fun heq => by
      rw [heq, hu] at hpc
      cases hpc
    refine (h.go_same (by rw [hu]; rfl)).go_same ?_
    rw [go_pc_of_ne hne, hpc]
    rfl
  | wakeNone hpc => exact h.go_same (by rw [hpc]; rfl)
  | released hpc => exact h.go_same (by rw [hpc]; rfl)

/-! ### The wakeups -/

/-- Who is going to wait has seen `wakeups` at most as many signals ago as
there are threads, and who is about to wake finds nobody about to fall
asleep. -/
structure Tickets (s : CondState ι) (role : ι → Role) : Prop where
  seen : ∀ u v, (s.pc u).ticket = some v →
    ∃ d ≤ s.tallyOf role (role u).other CondPc.signalled,
      v + UInt32.ofNat d = (s.cond (role u)).wakeups
  stale : ∀ t u, (s.pc t).waking = true → role u = (role t).other →
    ∀ v, s.pc u = .unlock v ∨ s.pc u = .futex v → v ≠ (s.cond (role u)).wakeups

omit [DecidableEq ι] in
theorem Init.tickets (h : s.Init) : s.Tickets role where
  seen u v hv := by
    rw [h.pc u] at hv
    cases hv
  stale t u ht := by
    rw [h.pc t] at ht
    cases ht

omit [DecidableEq ι] in
theorem Tickets.setCond (h : s.Tickets role)
    (hcv : cv.wakeups = (s.cond q).wakeups) : (s.setCond q cv).Tickets role := by
  have hsame : ∀ r, ((s.setCond q cv).cond r).wakeups = (s.cond r).wakeups := by
    intro r
    by_cases hr : r = q
    · subst hr
      rw [setCond_cond_self, hcv]
    · rw [setCond_cond_of_ne hr]
  constructor
  · intro u v hv
    rw [hsame]
    exact h.seen u v hv
  · intro t u ht hrole v hv
    rw [hsame]
    exact h.stale t u ht hrole v hv

/-- A thread goes on that takes no new ticket, is in no new wake and has
raised no `wakeups`. -/
theorem Tickets.go (h : s.Tickets role)
    (hticket : ∀ v, p.ticket = some v →
      ∃ d ≤ s.tallyOf role (role t).other CondPc.signalled,
        v + UInt32.ofNat d = (s.cond (role t)).wakeups)
    (hsleep : ∀ v, p = .unlock v ∨ p = .futex v →
      (s.pc t = .unlock v ∨ s.pc t = .futex v) ∨
        ∀ u, role t = (role u).other → (s.pc u).waking = false)
    (hwaking : p.waking = true → (s.pc t).waking = true)
    (hsig : p.signalled = (s.pc t).signalled) : (s.go t p).Tickets role := by
  constructor
  · refine go_pc_cases (P := fun u pc => ∀ v, pc.ticket = some v →
      ∃ d ≤ (s.go t p).tallyOf role (role u).other CondPc.signalled,
        v + UInt32.ofNat d = (s.cond (role u)).wakeups) ?_ fun u _ => ?_
    · rw [tallyOf_go_same hsig]
      exact hticket
    · rw [tallyOf_go_same hsig]
      exact h.seen u
  · have hkeep := go_pc_cases
      (P := fun w pc => pc.waking = true → (s.pc w).waking = true) hwaking
      fun w _ hw => hw
    intro w u hw hrole
    have hw := hkeep w hw
    revert hrole
    refine go_pc_cases (P := fun u pc => role u = (role w).other → ∀ v,
      pc = .unlock v ∨ pc = .futex v → v ≠ ((s.go t p).cond (role u)).wakeups)
      ?_ (fun u _ hrole => h.stale w u hw hrole) u
    intro hrole v hv
    rcases hsleep v hv with hold | hnone
    · exact h.stale w t hw hrole v hold
    · rw [hnone w hrole] at hw
      cases hw

/-- Where there is no ticket in the new place, the rest is enough. -/
theorem Tickets.go_none (h : s.Tickets role) (hticket : p.ticket = none)
    (hwaking : p.waking = true → (s.pc t).waking = true)
    (hsig : p.signalled = (s.pc t).signalled) : (s.go t p).Tickets role := by
  refine h.go (fun v hv => ?_) (fun v hv => ?_) hwaking hsig
  · rw [hticket] at hv
    cases hv
  · rcases hv with rfl | rfl <;> cases hticket

theorem Tickets.signal (h : s.Tickets role) (hlink : s.Linked)
    (hcard : Fintype.card ι < 2147483648) (hpc : s.pc t = .signal) :
    ((s.setCond (role t).other (s.cond (role t).other).signal).go t
      .look).Tickets role := by
  have hgo := tallyOf_go
    (s := s.setCond (role t).other (s.cond (role t).other).signal) (p := .look)
    (f := CondPc.signalled) (rfl : role t = role t)
  rw [setCond_pc, hpc] at hgo
  generalize hs' : (s.setCond (role t).other
    (s.cond (role t).other).signal).go t .look = s' at hgo ⊢
  have hsame : (s.setCond (role t).other (s.cond (role t).other).signal).tallyOf
    role (role t) CondPc.signalled = s.tallyOf role (role t) CondPc.signalled :=
      rfl
  simp only [CondPc.signalled, Bool.toNat_false, Bool.toNat_true, hsame] at hgo
  have hword : ∀ u, role u = (role t).other →
      (s'.cond (role u)).wakeups = (s.cond (role u)).wakeups + 1 := by
    intro u hu
    rw [← hs', go_cond, hu, setCond_cond_self]
    rfl
  have hother : ∀ u, u ≠ t → s'.pc u = s.pc u := by
    intro u hu
    rw [← hs', go_pc_of_ne hu, setCond_pc]
  have hself : s'.pc t = .look := by rw [← hs', go_pc_self]
  constructor
  · intro u v hv
    have hu : u ≠ t := by
      rintro rfl
      rw [hself] at hv
      cases hv
    rw [hother u hu] at hv
    obtain ⟨d, hd, hsum⟩ := h.seen u v hv
    by_cases hrole : role u = (role t).other
    · -- one signal more for the waiters of this condition variable
      refine ⟨d + 1, ?_, ?_⟩
      · rw [hrole, Role.other_other] at hd ⊢
        omega
      · rw [hword u hrole, UInt32.ofNat_add, ← UInt32.add_assoc, hsum]
        rfl
    · refine ⟨d, ?_, ?_⟩
      · rw [(Role.eq_or_other _ _).resolve_right hrole] at hd ⊢
        rw [← hs', tallyOf_go_other (Role.other_ne _).symm]
        exact hd
      · rw [← hs', go_cond, setCond_cond_of_ne hrole]
        exact hsum
  · intro w u hw hrole v hv
    have hwt : w = t := by
      by_contra hne
      rw [hother w hne, hlink.waking_false (by rw [hpc]; rfl) (by rw [hpc]; rfl)]
        at hw
      cases hw
    subst hwt
    have hu : u ≠ w := fun heq => Role.other_ne (role w) (by rw [← hrole, heq])
    rw [hother u hu] at hv
    obtain ⟨d, hd, hsum⟩ := h.seen u v
      (by rcases hv with hv | hv <;> rw [hv] <;> rfl)
    rw [hrole, Role.other_other] at hd
    have hle := s'.tallyOf_le role (role w) CondPc.signalled
    rw [hword u hrole]
    exact ne_of_signalled hsum (by omega)

theorem Tickets.step {s' : CondState ι} (h : s.Tickets role) (hlink : s.Linked)
    (hcard : Fintype.card ι < 2147483648) (hst : CondStep lock role s s') :
    s'.Tickets role := by
  cases hst with
  | mutex => exact ⟨h.seen, h.stale⟩
  | acquired hpc =>
    refine h.go_none rfl nofun ?_
    rcases hpc with hpc | hpc <;> rw [hpc] <;> rfl
  | test hpc => split <;> exact h.go_none rfl nofun (by rw [hpc]; rfl)
  | check hpc => split <;> exact h.go_none rfl nofun (by rw [hpc]; rfl)
  | attach hpc hcv =>
    exact (h.setCond (MetalCondition.attach_eq hcv).2).go_none rfl nofun
      (by rw [setCond_pc, hpc]; rfl)
  | refused hpc => exact h.go_none rfl nofun (by rw [hpc]; rfl)
  | load hpc =>
    refine h.go (fun v hv => ⟨0, Nat.zero_le _, ?_⟩) nofun nofun
      (by rw [hpc]; rfl)
    cases hv
    exact UInt32.add_zero _
  | @enter t v hpc =>
    have hsame : (s.cond (role t)).enter.wakeups = (s.cond (role t)).wakeups :=
      rfl
    refine (h.setCond hsame).go (fun w hw => ?_) (fun w _ => .inr fun u _ => ?_)
      nofun (by rw [setCond_pc, hpc]; rfl)
    · cases hw
      obtain ⟨d, hd, hsum⟩ := h.seen t v (by rw [hpc]; rfl)
      exact ⟨d, hd, by rw [setCond_cond_self]; exact hsum⟩
    · exact hlink.waking_false (by rw [hpc]; rfl) (by rw [hpc]; rfl) u
  | @unlocked t v hpc =>
    refine h.go (fun w hw => h.seen t w ?_) (fun w hw => .inl ?_) nofun
      (by rw [hpc]; rfl)
    · rw [hpc]
      exact hw
    · rcases hw with hw | hw <;> cases hw
      exact .inl hpc
  | futex hpc => split <;> exact h.go_none rfl nofun (by rw [hpc]; rfl)
  | spurious hpc => exact h.go_none rfl nofun (by rw [hpc]; rfl)
  | @leave t hpc =>
    have hsame : (s.cond (role t)).leave.wakeups = (s.cond (role t)).wakeups :=
      rfl
    exact (h.setCond hsame).go_none rfl nofun (by rw [setCond_pc, hpc]; rfl)
  | @change t hpc =>
    have h' : Tickets { s with counter := (role t).change s.counter } role :=
      ⟨h.seen, h.stale⟩
    exact h'.go_none rfl nofun (by rw [hpc]; rfl)
  | signal hpc => exact h.signal hlink hcard hpc
  | look hpc =>
    split
    · exact h.go_none rfl (fun _ => by rw [hpc]; rfl) (by rw [hpc]; rfl)
    · exact h.go_none rfl nofun (by rw [hpc]; rfl)
  | @wake t u v hpc hu hrole =>
    have hne : t ≠ u := fun heq => by
      rw [heq, hu] at hpc
      cases hpc
    have h' : (s.go u .leave).Tickets role :=
      h.go_none rfl nofun (by rw [hu]; rfl)
    refine h'.go_none rfl nofun ?_
    rw [go_pc_of_ne hne, hpc]
    rfl
  | wakeNone hpc => exact h.go_none rfl nofun (by rw [hpc]; rfl)
  | released hpc => exact h.go_none rfl nofun (by rw [hpc]; rfl)

end CondState

end OpenAmp.Metal
