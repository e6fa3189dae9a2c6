import OpenAmp.Metal.ConditionRun

/-!
# The consumers and producers never get stuck

What the sleepers wait for is owed to them. As long as someone waits for the
counter to change, at least as many threads are on their way to use it as it
has to offer, or a signal for one of them is under way. So when nobody can
go on, everybody has returned.
-/

namespace OpenAmp.Metal

open OpenAmp.Lib

/-- How often the counter can be used before the role is blocked. -/
def Role.avail : Role → UInt32 → Nat
  | .consumer, counter => counter.toNat
  | .producer, counter => COUNTER_MAX.toNat - counter.toNat

theorem Role.avail_blocked {r : Role} {counter : UInt32}
    (h : r.blocked counter = true) : r.avail counter = 0 := by
  cases r <;> rw [of_decide_eq_true h] <;> rfl

/-- Using the counter takes one away, and gives one to the others. -/
theorem Role.avail_change {r : Role} {counter : UInt32}
    (h : r.blocked counter = false) (hmax : counter.toNat ≤ COUNTER_MAX.toNat) :
    (r.change counter).toNat ≤ COUNTER_MAX.toNat ∧
      r.avail (r.change counter) + 1 = r.avail counter ∧
      r.other.avail (r.change counter) = r.other.avail counter + 1 := by
  have hten : COUNTER_MAX.toNat = 10 := rfl
  cases r with
  | consumer =>
    have hne : counter ≠ 0 := of_decide_eq_false h
    have hzero : counter.toNat ≠ 0 := fun h => hne (UInt32.toNat_inj.mp h)
    have hval : (counter - 1).toNat = counter.toNat - 1 :=
      UInt32.toNat_sub_of_le _ _ (UInt32.le_iff_toNat_le.mpr
        (Nat.one_le_iff_ne_zero.mpr hzero))
    simp only [avail, change, other, hval]
    omega
  | producer =>
    have hne : counter ≠ COUNTER_MAX := of_decide_eq_false h
    have hlast : counter.toNat ≠ 10 := fun h => hne (UInt32.toNat_inj.mp h)
    have hval : (counter + 1).toNat = counter.toNat + 1 := by
      rw [UInt32.toNat_add]
      exact Nat.mod_eq_of_lt (by simp only [UInt32.toNat_one]; omega)
    simp only [avail, change, other, hval]
    exact ⟨by omega, by omega, trivial⟩

namespace CondState

/-! ## The counter -/

variable {ι : Type} [Fintype ι] {s : CondState ι} {role : ι → Role}
  {t u : ι} {p : CondPc} {q r : Role} {cv : MetalCondition} {lock : UInt64}

/-- The counter is what the producers have put in and the consumers have not
taken out, and who is about to change it may. -/
structure Balanced (s : CondState ι) (role : ι → Role) : Prop where
  sum : s.counter.toNat + s.tallyOf role .consumer CondPc.past =
    s.tallyOf role .producer CondPc.past
  le : s.counter.toNat ≤ COUNTER_MAX.toNat
  ready : ∀ t, s.pc t = .change → (role t).blocked s.counter = false

theorem Init.balanced (h : s.Init) : s.Balanced role where
  sum := by
    have hzero : ∀ r, s.tallyOf role r CondPc.past = 0 := fun r =>
      tally_eq_zero fun t => by rw [h.pc t]; exact Bool.and_false _
    rw [h.counter, hzero, hzero]
    rfl
  le := by
    rw [h.counter]
    decide
  ready t ht := by
    rw [h.pc t] at ht
    cases ht

theorem Balanced.setCond (h : s.Balanced role) :
    (s.setCond r cv).Balanced role :=
  ⟨h.sum, h.le, h.ready⟩

variable [DecidableEq ι]

theorem Balanced.go (h : s.Balanced role) (hpast : p.past = (s.pc t).past)
    (hready : p = .change → (role t).blocked s.counter = false) :
    (s.go t p).Balanced role where
  sum := by
    rw [tallyOf_go_same hpast, tallyOf_go_same hpast]
    exact h.sum
  le := h.le
  ready := go_pc_cases (P := fun u pc => pc = .change →
    (role u).blocked s.counter = false) hready fun u _ => h.ready u

theorem Balanced.change (h : s.Balanced role) (hlink : s.Linked)
    (hpc : s.pc t = .change) :
    (CondState.go { s with counter := (role t).change s.counter } t
      .signal).Balanced role := by
  obtain ⟨hmax, hown, hother⟩ := Role.avail_change (h.ready t hpc) h.le
  have hgo := tallyOf_go (s := { s with counter := (role t).change s.counter })
    (p := .signal) (f := CondPc.past) (rfl : role t = role t)
  have hsame := tallyOf_go_other
    (s := { s with counter := (role t).change s.counter }) (p := .signal)
    (f := CondPc.past) (Role.other_ne (role t)).symm
  simp only [hpc, CondPc.past, Bool.toNat_false, Bool.toNat_true] at hgo
  have hsum := h.sum
  have hten : COUNTER_MAX.toNat = 10 := rfl
  have hkeep : ∀ r f, tallyOf { s with counter := (role t).change s.counter }
    role r f = s.tallyOf role r f := fun _ _ => rfl
  rw [hkeep] at hgo hsame
  refine ⟨?_, hmax, ?_⟩
  · rw [go_counter]
    cases hr : role t <;> rw [hr] at hgo hsame hown hother hmax <;>
      simp only [Role.other, Role.avail] at hgo hsame hown hother ⊢ <;> omega
  · refine go_pc_cases (P := fun u pc => pc = .change →
      (role u).blocked ((role t).change s.counter) = false) nofun fun u hu hp => ?_
    -- nobody else is inside
    exact absurd (hlink.alone (by rw [hpc]; rfl) (by rw [hp]; rfl)) hu

theorem Balanced.step {s' : CondState ι} (h : s.Balanced role)
    (hlink : s.Linked) (hst : CondStep lock role s s') : s'.Balanced role := by
  cases hst with
  | mutex => exact ⟨h.sum, h.le, h.ready⟩
  | acquired hpc =>
    refine h.go ?_ nofun
    rcases hpc with hpc | hpc <;> rw [hpc] <;> rfl
  | @test t hpc =>
    by_cases hb : (role t).blocked s.counter = true
    · rw [if_pos hb]
      exact h.go (by rw [hpc]; rfl) nofun
    · rw [if_neg hb]
      exact h.go (by rw [hpc]; rfl) fun _ => Bool.eq_false_of_not_eq_true hb
  | check hpc => split <;> exact h.go (by rw [hpc]; rfl) nofun
  | attach hpc => exact h.setCond.go (by rw [setCond_pc, hpc]; rfl) nofun
  | refused hpc => exact h.go (by rw [hpc]; rfl) nofun
  | load hpc => exact h.go (by rw [hpc]; rfl) nofun
  | enter hpc => exact h.setCond.go (by rw [setCond_pc, hpc]; rfl) nofun
  | unlocked hpc => exact h.go (by rw [hpc]; rfl) nofun
  | futex hpc => split <;> exact h.go (by rw [hpc]; rfl) nofun
  | spurious hpc => exact h.go (by rw [hpc]; rfl) nofun
  | leave hpc => exact h.setCond.go (by rw [setCond_pc, hpc]; rfl) nofun
  | change hpc => exact h.change hlink hpc
  | signal hpc => exact h.setCond.go (by rw [setCond_pc, hpc]; rfl) nofun
  | look hpc => split <;> exact h.go (by rw [hpc]; rfl) nofun
  | @wake t u v hpc hu hrole =>
    have hne : t ≠ u := fun heq => by
      rw [heq, hu] at hpc
      cases hpc
    have h' : (s.go u .leave).Balanced role := h.go (by rw [hu]; rfl) nofun
    refine h'.go ?_ nofun
    rw [go_pc_of_ne hne, hpc]
    rfl
  | wakeNone hpc => exact h.go (by rw [hpc]; rfl) nofun
  | released hpc => exact h.go (by rw [hpc]; rfl) nofun

/-! ## What is owed to the waiters -/

/-- A thread of this role waits, or will fall asleep as things are. -/
def Waits (s : CondState ι) (role : ι → Role) (r : Role) : Prop :=
  ∃ u, role u = r ∧ (s.pc u).waiting (s.cond r).wakeups = true

/-- If one waits, enough are on their way. -/
def Owed (s : CondState ι) (role : ι → Role) (r : Role) : Prop :=
  s.Waits role r → r.avail s.counter ≤
    s.tallyOf role r (CondPc.able (s.cond r).wakeups) +
      s.tallyOf role r.other CondPc.signalling

omit [DecidableEq ι] in
theorem Init.owed (h : s.Init) : s.Owed role r := by
  rintro ⟨u, -, hu⟩
  rw [h.pc u] at hu
  cases hu

omit [DecidableEq ι] in
theorem Owed.setCond (h : s.Owed role r)
    (hcv : cv.wakeups = (s.cond q).wakeups) : (s.setCond q cv).Owed role r := by
  have hsame : ((s.setCond q cv).cond r).wakeups = (s.cond r).wakeups := by
    by_cases hr : r = q
    · subst hr
      rw [setCond_cond_self, hcv]
    · rw [setCond_cond_of_ne hr]
  unfold Owed Waits
  rw [hsame]
  exact h

/-- A thread goes on that does not begin to wait, to another place on its
way or in its signal. -/
theorem Owed.go (h : s.Owed role r)
    (hwait : role t = r → p.waiting (s.cond r).wakeups = true →
      (s.pc t).waiting (s.cond r).wakeups = true)
    (hable : role t = r → (s.pc t).able (s.cond r).wakeups = true →
      p.able (s.cond r).wakeups = true)
    (hsig : role t = r.other → (s.pc t).signalling = true →
      p.signalling = true) : (s.go t p).Owed role r := by
  rintro ⟨u, hu, hw⟩
  have hbefore : s.Waits role r := by
    refine ⟨u, hu, ?_⟩
    revert hu hw
    exact go_pc_cases (P := fun u pc => role u = r →
      pc.waiting (s.cond r).wakeups = true →
      (s.pc u).waiting (s.cond r).wakeups = true) hwait (fun _ _ _ hw => hw) u
  have hnow := h hbefore
  have habler : s.tallyOf role r (CondPc.able (s.cond r).wakeups) ≤
      (s.go t p).tallyOf role r (CondPc.able (s.cond r).wakeups) :=
    tallyOf_mono <| go_pc_cases (P := fun u pc => role u = r →
      (s.pc u).able (s.cond r).wakeups = true →
      pc.able (s.cond r).wakeups = true) hable fun _ _ _ ha => ha
  have hsigr : s.tallyOf role r.other CondPc.signalling ≤
      (s.go t p).tallyOf role r.other CondPc.signalling :=
    tallyOf_mono <| go_pc_cases (P := fun u pc => role u = r.other →
      (s.pc u).signalling = true → pc.signalling = true) hsig fun _ _ _ ha => ha
  rw [go_counter, go_cond]
  omega

/-- Most steps are of this kind, whatever the role. -/
theorem Owed.go_plain (h : s.Owed role r)
    (hwait : ∀ w, p.waiting w = true → (s.pc t).waiting w = true)
    (hable : ∀ w, (s.pc t).able w = true → p.able w = true)
    (hsig : (s.pc t).signalling = true → p.signalling = true) :
    (s.go t p).Owed role r :=
  h.go (fun _ => hwait _) (fun _ => hable _) fun _ => hsig

/-! ### The steps that are not -/

/-- Who finds the counter blocked waits for nothing the counter has. -/
theorem Owed.block (h : s.Owed role r) (hpc : s.pc t = .test)
    (hb : (role t).blocked s.counter = true) : (s.go t .check).Owed role r := by
  by_cases hr : role t = r
  · intro _
    rw [go_counter, ← hr, Role.avail_blocked hb]
    exact Nat.zero_le _
  · refine h.go (fun h => absurd h hr) (fun h => absurd h hr) fun _ hs => ?_
    rw [hpc] at hs
    cases hs

theorem Owed.change (h : s.Owed role r) (hbal : s.Balanced role)
    (hpc : s.pc t = .change) :
    (CondState.go { s with counter := (role t).change s.counter } t
      .signal).Owed role r := by
  obtain ⟨-, hown, hother⟩ := Role.avail_change (hbal.ready t hpc) hbal.le
  rintro ⟨u, hu, hw⟩
  have hbefore : s.Waits role r := by
    refine ⟨u, hu, ?_⟩
    revert hw
    exact go_pc_cases (s := { s with counter := (role t).change s.counter })
      (p := .signal) (P := fun u pc => pc.waiting (s.cond r).wakeups = true →
        (s.pc u).waiting (s.cond r).wakeups = true) nofun (fun _ _ hw => hw) u
  have hnow := h hbefore
  have hkeep : ∀ q f, tallyOf { s with counter := (role t).change s.counter }
    role q f = s.tallyOf role q f := fun _ _ => rfl
  rw [go_counter, go_cond]
  by_cases hr : role t = r
  · subst hr
    have hable := tallyOf_go (s := { s with counter := (role t).change s.counter })
      (p := .signal) (f := CondPc.able (s.cond (role t)).wakeups)
      (rfl : role t = role t)
    have hsig := tallyOf_go_other
      (s := { s with counter := (role t).change s.counter }) (p := .signal)
      (f := CondPc.signalling) (Role.other_ne (role t)).symm
    rw [hkeep] at hable hsig
    simp only [hpc, CondPc.able, Bool.toNat_false, Bool.toNat_true] at hable
    change (role t).avail ((role t).change s.counter) ≤ _
    simp only [hsig]
    omega
  · have hrole : r = (role t).other :=
      (Role.eq_or_other (role t) r).resolve_left (Ne.symm hr)
    subst hrole
    rw [Role.other_other] at hnow ⊢
    have hable := tallyOf_go_other
      (s := { s with counter := (role t).change s.counter }) (p := .signal)
      (f := CondPc.able (s.cond (role t).other).wakeups)
      (Role.other_ne (role t)).symm
    have hsig := tallyOf_go (s := { s with counter := (role t).change s.counter })
      (p := .signal) (f := CondPc.signalling) (rfl : role t = role t)
    rw [hkeep] at hable hsig
    simp only [hpc, CondPc.signalling, Bool.toNat_false, Bool.toNat_true] at hsig
    change (role t).other.avail ((role t).change s.counter) ≤ _
    simp only [hable]
    omega

/-- Raising `wakeups` sends those on that were about to fall asleep. -/
theorem Owed.signal (h : s.Owed role r) (htick : s.Tickets role)
    (hlink : s.Linked) (hcard : Fintype.card ι < 2147483648)
    (hpc : s.pc t = .signal) :
    ((s.setCond (role t).other (s.cond (role t).other).signal).go t
      .look).Owed role r := by
  have hstale := (htick.signal hlink hcard hpc).stale
  by_cases hr : role t = r
  · -- its own condition variable is not touched
    have hsame : (s.setCond (role t).other (s.cond (role t).other).signal).Owed
        role r := by
      have hcond : (s.setCond (role t).other
          (s.cond (role t).other).signal).cond (role t) = s.cond (role t) :=
        setCond_cond_of_ne (Role.other_ne (role t)).symm
      unfold Owed Waits
      rw [← hr, hcond, hr]
      exact h
    exact hsame.go_plain nofun (by rw [setCond_pc, hpc]; nofun) fun _ => rfl
  · have hrole : r = (role t).other :=
      (Role.eq_or_other (role t) r).resolve_left (Ne.symm hr)
    subst hrole
    generalize hs' : (s.setCond (role t).other
      (s.cond (role t).other).signal).go t .look = s' at hstale ⊢
    have hpcs : ∀ u, u ≠ t → s'.pc u = s.pc u := by
      intro u hu
      rw [← hs', go_pc_of_ne hu, setCond_pc]
    have hself : s'.pc t = .look := by rw [← hs', go_pc_self]
    have hne : ∀ u, role u = (role t).other → u ≠ t := by
      rintro u hu rfl
      exact Role.other_ne (role u) hu.symm
    have hstale' : ∀ u, role u = (role t).other → ∀ v,
        s.pc u = .unlock v ∨ s.pc u = .futex v →
        v ≠ (s'.cond (role t).other).wakeups := by
      intro u hu v hv
      rw [← hpcs u (hne u hu)] at hv
      rw [← hu]
      exact hstale t u (by rw [hself]; rfl) hu v hv
    rintro ⟨u, hu, hw⟩
    rw [hpcs u (hne u hu)] at hw
    have hbefore : s.Waits role (role t).other := by
      refine ⟨u, hu, ?_⟩
      cases hpu : s.pc u with
      | unlock v =>
        rw [hpu] at hw
        exact absurd (of_decide_eq_true hw) (hstale' u hu v (.inl hpu))
      | futex v =>
        rw [hpu] at hw
        exact absurd (of_decide_eq_true hw) (hstale' u hu v (.inr hpu))
      | _ =>
        rw [hpu] at hw
        exact hw
    have hnow := h hbefore
    have hable : s.tallyOf role (role t).other
          (CondPc.able (s.cond (role t).other).wakeups) ≤
        s'.tallyOf role (role t).other
          (CondPc.able (s'.cond (role t).other).wakeups) := by
      refine tallyOf_mono fun u hu ha => ?_
      rw [hpcs u (hne u hu)]
      cases hpu : s.pc u with
      | unlock v => exact decide_eq_true (hstale' u hu v (.inl hpu))
      | futex v => exact decide_eq_true (hstale' u hu v (.inr hpu))
      | _ =>
        rw [hpu] at ha
        exact ha
    have hsig : s.tallyOf role (role t).other.other CondPc.signalling ≤
        s'.tallyOf role (role t).other.other CondPc.signalling := by
      refine tallyOf_mono fun u _ hs => ?_
      by_cases hut : u = t
      · rw [hut, hself]
        rfl
      · rwa [hpcs u hut]
    have hcounter : s'.counter = s.counter := by
      rw [← hs', go_counter, setCond_counter]
    rw [hcounter]
    omega

omit [DecidableEq ι] in
/-- While a wake is under way, only sleepers wait. -/
theorem asleep_of_waits (htick : s.Tickets role) (hlink : s.Linked)
    (hw : (s.pc t).waking = true) (hwait : s.Waits role (role t).other) :
    ∃ u v, role u = (role t).other ∧ s.pc u = .asleep v := by
  obtain ⟨u, hu, hpu⟩ := hwait
  have hout : (s.pc u).part ≠ .inside := by
    intro hin
    have heq := hlink.alone (CondPc.part_of_waking hw) hin
    subst heq
    exact Role.other_ne (role u) hu.symm
  have hstale := htick.stale t u hw hu
  rw [← hu] at hpu
  cases hp : s.pc u with
  | asleep v => exact ⟨u, v, hu, hp⟩
  | unlock v =>
    rw [hp] at hpu
    exact absurd (of_decide_eq_true hpu) (hstale v (.inl hp))
  | futex v =>
    rw [hp] at hpu
    exact absurd (of_decide_eq_true hpu) (hstale v (.inr hp))
  | check | attach | load | enter =>
    rw [hp] at hout
    exact absurd rfl hout
  | _ =>
    rw [hp] at hpu
    cases hpu

/-- A wake is over that had nobody to wake. -/
theorem Owed.give_up (h : s.Owed role r) (htick : s.Tickets role)
    (hlink : s.Linked) (hw : (s.pc t).waking = true)
    (hnone : ∀ u v, role u = (role t).other → s.pc u ≠ .asleep v) :
    (s.go t .release).Owed role r := by
  have hnot : ∀ w, (s.pc t).able w = false := by
    intro w
    cases hp : s.pc t <;> rw [hp] at hw <;> first | rfl | cases hw
  by_cases hr : role t = r
  · refine h.go nofun (fun _ ha => ?_) fun hrole => ?_
    · rw [hnot] at ha
      cases ha
    · rw [hr] at hrole
      exact absurd hrole.symm (Role.other_ne r)
  · have hrole : r = (role t).other :=
      (Role.eq_or_other (role t) r).resolve_left (Ne.symm hr)
    subst hrole
    rintro ⟨u, hu, hpu⟩
    have hne : u ≠ t := by
      rintro rfl
      exact Role.other_ne (role u) hu.symm
    rw [go_pc_of_ne hne] at hpu
    obtain ⟨w, v, hrw, hpw⟩ := asleep_of_waits htick hlink hw ⟨u, hu, hpu⟩
    exact absurd hpw (hnone w v hrw)

/-- A wake sends one sleeper on. -/
theorem Owed.wake (h : s.Owed role r) (hpc : s.pc t = .wake) {v : UInt32}
    (hpu : s.pc u = .asleep v) (hrole : role u = (role t).other) :
    ((s.go u .leave).go t .release).Owed role r := by
  have hne : t ≠ u := fun heq => by
    rw [heq, hpu] at hpc
    cases hpc
  have hpt : (s.go u .leave).pc t = .wake := by rw [go_pc_of_ne hne, hpc]
  have hleave : (s.go u .leave).Owed role r :=
    h.go_plain nofun (by rw [hpu]; nofun) (by rw [hpu]; nofun)
  by_cases hr : role t = r
  · refine hleave.go nofun (fun _ ha => ?_) fun hother => ?_
    · rw [hpt] at ha
      cases ha
    · rw [hr] at hother
      exact absurd hother.symm (Role.other_ne r)
  · have hother : r = (role t).other :=
      (Role.eq_or_other (role t) r).resolve_left (Ne.symm hr)
    subst hother
    intro _
    have hnow := h ⟨u, hrole, by rw [hpu]; rfl⟩
    -- one more on its way, one signal less
    have hable := tallyOf_go (s := s) (p := .leave)
      (f := CondPc.able (s.cond (role t).other).wakeups) hrole
    have hable' := tallyOf_go_other (s := s.go u .leave) (p := .release)
      (f := CondPc.able (s.cond (role t).other).wakeups)
      (Role.other_ne (role t)).symm
    have hsig : (s.go u .leave).tallyOf role (role t) CondPc.signalling =
        s.tallyOf role (role t) CondPc.signalling :=
      tallyOf_go_same (by rw [hpu]; rfl)
    have hsig' := tallyOf_go (s := s.go u .leave) (p := .release)
      (f := CondPc.signalling) (rfl : role t = role t)
    simp only [hpu, CondPc.able, Bool.toNat_false, Bool.toNat_true] at hable
    simp only [hpt, CondPc.signalling, Bool.toNat_false, Bool.toNat_true]
      at hsig'
    rw [Role.other_other] at hnow ⊢
    simp only [go_counter, go_cond, hable']
    omega

end CondState

/-! ## Every step -/

/-- What holds in every state of the threads. -/
structure CondState.Inv {ι : Type} [Fintype ι] (s : CondState ι)
    (role : ι → Role) : Prop where
  linked : s.Linked
  counts : s.Counts role
  tickets : s.Tickets role
  balanced : s.Balanced role
  owed : ∀ r, s.Owed role r

namespace CondState

variable {ι : Type} [Fintype ι] {s : CondState ι} {role : ι → Role}

theorem Init.inv (h : s.Init) : s.Inv role :=
  ⟨h.linked, h.counts, h.tickets, h.balanced, fun _ => h.owed⟩

variable [DecidableEq ι] {lock : UInt64}

theorem Inv.owed_step {s' : CondState ι} (h : s.Inv role)
    (hcard : Fintype.card ι < 2147483648) (hst : CondStep lock role s s')
    (r : Role) : s'.Owed role r := by
  have ho := h.owed r
  cases hst with
  | mutex => exact ho
  | acquired hpc =>
    refine ho.go_plain nofun (fun _ _ => rfl) fun hs => ?_
    rcases hpc with hpc | hpc <;> rw [hpc] at hs <;> cases hs
  | @test t hpc =>
    by_cases hb : (role t).blocked s.counter = true
    · rw [if_pos hb]
      exact ho.block hpc hb
    · rw [if_neg hb]
      exact ho.go_plain nofun (fun _ _ => rfl) (by rw [hpc]; nofun)
  | check hpc =>
    split
    · exact ho.go_plain nofun (fun _ _ => rfl) (by rw [hpc]; nofun)
    · exact ho.go_plain (fun _ _ => by rw [hpc]; rfl) (by rw [hpc]; nofun)
        (by rw [hpc]; nofun)
  | attach hpc hcv =>
    exact (ho.setCond (MetalCondition.attach_eq hcv).2).go_plain
      (fun _ _ => by rw [setCond_pc, hpc]; rfl)
      (by rw [setCond_pc, hpc]; nofun) (by rw [setCond_pc, hpc]; nofun)
  | refused hpc =>
    exact ho.go_plain nofun (fun _ _ => rfl) (by rw [hpc]; nofun)
  | load hpc =>
    exact ho.go_plain (fun _ _ => by rw [hpc]; rfl) (by rw [hpc]; nofun)
      (by rw [hpc]; nofun)
  | @enter t v hpc =>
    have hsame : (s.cond (role t)).enter.wakeups = (s.cond (role t)).wakeups :=
      rfl
    exact (ho.setCond hsame).go_plain (fun _ _ => by rw [setCond_pc, hpc]; rfl)
      (by rw [setCond_pc, hpc]; nofun) (by rw [setCond_pc, hpc]; nofun)
  | unlocked hpc =>
    exact ho.go_plain (fun _ hw => by rw [hpc]; exact hw)
      (fun _ ha => by rw [hpc] at ha; exact ha) (by rw [hpc]; nofun)
  | @futex t v hpc =>
    by_cases hv : (s.cond (role t)).wakeups = v
    · rw [if_pos hv]
      refine ho.go (fun hr _ => ?_) (fun hr ha => ?_) (by rw [hpc]; nofun)
      · rw [hpc, ← hr, hv]
        exact decide_eq_true rfl
      · rw [hpc, ← hr, hv] at ha
        exact absurd rfl (of_decide_eq_true ha)
    · rw [if_neg hv]
      exact ho.go_plain nofun (fun _ _ => rfl) (by rw [hpc]; nofun)
  | spurious hpc =>
    exact ho.go_plain nofun (fun _ _ => rfl) (by rw [hpc]; nofun)
  | @leave t hpc =>
    have hsame : (s.cond (role t)).leave.wakeups = (s.cond (role t)).wakeups :=
      rfl
    exact (ho.setCond hsame).go_plain nofun (fun _ _ => rfl)
      (by rw [setCond_pc, hpc]; nofun)
  | change hpc => exact ho.change h.balanced hpc
  | signal hpc => exact ho.signal h.tickets h.linked hcard hpc
  | @look t hpc =>
    by_cases hpos : 0 < (s.cond (role t).other).waiters
    · rw [if_pos hpos]
      exact ho.go_plain nofun (by rw [hpc]; nofun) fun _ => rfl
    · rw [if_neg hpos]
      refine ho.give_up h.tickets h.linked (by rw [hpc]; rfl) fun u v hu hpu => ?_
      -- a sleeper is counted
      apply hpos
      have hone := tallyOf_pos (s := s) (f := CondPc.counted) hu (by rw [hpu]; rfl)
      rw [Int32.lt_iff_toInt_lt, h.counts]
      exact Int.natCast_pos.mpr hone
  | wake hpc hpu hrole => exact ho.wake hpc hpu hrole
  | wakeNone hpc hnone =>
    exact ho.give_up h.tickets h.linked (by rw [hpc]; rfl) hnone
  | released hpc => exact ho.go_plain nofun (by rw [hpc]; nofun) (by rw [hpc]; nofun)

theorem Inv.step {s' : CondState ι} (h : s.Inv role)
    (hcard : Fintype.card ι < 2147483648) (hst : CondStep lock role s s') :
    s'.Inv role where
  linked := h.linked.step hst
  counts := h.counts.step hcard hst
  tickets := h.tickets.step h.linked hcard hst
  balanced := h.balanced.step h.linked hst
  owed := h.owed_step hcard hst

end CondState

theorem CondReachable.inv {ι : Type} [Fintype ι] [DecidableEq ι]
    {lock : UInt64} {role : ι → Role} {s : CondState ι}
    (h : CondReachable lock role s) (hcard : Fintype.card ι < 2147483648) :
    s.Inv role :=
  h.invariant (fun _ hinit => hinit.inv) fun _ _ _ hinv hst =>
    hinv.step hcard hst

/-! ## Who can go on -/

namespace CondState

variable {ι : Type} {s : CondState ι} {role : ι → Role} {t : ι}

/-- It sleeps on a futex, of the mutex or of a condition variable. -/
def Asleep (s : CondState ι) (t : ι) : Prop :=
  (∃ v, s.pc t = .asleep v) ∨ s.mutex.phase t = .sleeping

variable [DecidableEq ι] {lock : UInt64}

/-- There is a step that takes the thread on, in its program or in the
mutex. -/
def Acts (lock : UInt64) (role : ι → Role) (s : CondState ι) (t : ι) : Prop :=
  ∃ s', CondStep lock role s s' ∧
    (s'.pc t ≠ s.pc t ∨ s'.mutex.phase t ≠ s.mutex.phase t)

theorem Acts.pc {p : CondPc} (hst : CondStep lock role s (s.go t p))
    (hp : p ≠ s.pc t) : s.Acts lock role t :=
  ⟨_, hst, .inl (by rwa [go_pc_self])⟩

theorem Acts.setCond {p : CondPc} {r : Role} {cv : MetalCondition}
    (hst : CondStep lock role s ((s.setCond r cv).go t p)) (hp : p ≠ s.pc t) :
    s.Acts lock role t :=
  ⟨_, hst, .inl (by rwa [go_pc_self])⟩

/-- A step of the mutex that takes one thread on. -/
theorem Acts.mutex {v : Int} {q : MutexPhase}
    (hst : MutexStep s.mutex (s.mutex.go t v q)) (hq : q ≠ s.mutex.phase t)
    (hin : s.mutex.phase t = .out → s.pc t = .acquire ∨ s.pc t = .relock)
    (hout : s.mutex.phase t = .holding →
      s.pc t = .release ∨ ∃ v, s.pc t = .unlock v) : s.Acts lock role t := by
  have hself : ∀ u, s.mutex.phase u ≠ (s.mutex.go t v q).phase u → u = t := by
    intro u hne
    by_contra hu
    exact hne (MutexState.go_phase_of_ne hu).symm
  refine ⟨_, .mutex ⟨hst, fun u hu hne => ?_, fun u hu hne => ?_⟩, .inr ?_⟩
  · have heq := hself u (by rw [hu]; exact hne.symm)
    subst heq
    exact hin hu
  · have heq := hself u (by rw [hu]; exact hne.symm)
    subst heq
    exact hout hu
  · change (s.mutex.go t v q).phase t ≠ _
    rwa [MutexState.go_phase_self]

/-- A thread in an acquire that does not sleep takes the mutex on. -/
theorem acts_of_acquiring (hlink : s.Linked)
    (hpc : s.pc t = .acquire ∨ s.pc t = .relock)
    (hawake : s.mutex.phase t ≠ .sleeping) : s.Acts lock role t := by
  have hfit : s.mutex.phase t ≠ .store ∧ s.mutex.phase t ≠ .wake := by
    have hfit := hlink.fits t
    rcases hpc with hpc | hpc <;> rwa [hpc] at hfit
  cases hp : s.mutex.phase t with
  | out =>
    by_cases hv : s.mutex.v = 0
    · exact .mutex (.take hp hv) (by rw [hp]; nofun) (fun _ => hpc)
        (by rw [hp]; nofun)
    · refine .mutex (.contend hp hv) ?_ (fun _ => hpc) (by rw [hp]; nofun)
      rw [hp]
      split <;> nofun
  | exchange =>
    refine .mutex (.exchange (.inl hp)) ?_ (fun _ => hpc) (by rw [hp]; nofun)
    rw [hp]
    split <;> nofun
  | wait =>
    refine .mutex (.wait hp) ?_ (fun _ => hpc) (by rw [hp]; nofun)
    rw [hp]
    split <;> nofun
  | sleeping => exact absurd hp hawake
  | woken =>
    refine .mutex (.exchange (.inr hp)) ?_ (fun _ => hpc) (by rw [hp]; nofun)
    rw [hp]
    split <;> nofun
  | holding =>
    refine .pc (.acquired hpc hp) ?_
    rcases hpc with hpc | hpc <;> rw [hpc] <;> nofun
  | store => exact absurd hp hfit.1
  | wake => exact absurd hp hfit.2

/-- So does one in a release, until it is over. -/
theorem acts_of_releasing (hlink : s.Linked)
    (hpc : s.pc t = .release ∨ ∃ v, s.pc t = .unlock v) :
    s.Acts lock role t := by
  have hfit : s.mutex.phase t = .holding ∨ s.mutex.phase t = .store ∨
      s.mutex.phase t = .wake ∨ s.mutex.phase t = .out := by
    have hfit := hlink.fits t
    rcases hpc with hpc | ⟨v, hpc⟩ <;> rwa [hpc] at hfit
  rcases hfit with hp | hp | hp | hp
  · refine .mutex (.release hp) ?_ (by rw [hp]; simp) fun _ => hpc
    rw [hp]
    split <;> decide
  · exact .mutex (.store hp) (by rw [hp]; decide) (by rw [hp]; simp)
      (by rw [hp]; simp)
  · -- the wake may wake every sleeper
    let woken : ι → Bool := fun u => s.mutex.phase u = .sleeping
    have hst : MutexStep s.mutex (s.mutex.wakeUp t woken) :=
      .wake hp (fun u hu => of_decide_eq_true hu) fun hsome =>
        hsome.imp fun u hu => decide_eq_true hu
    have hkeep : ∀ u, s.mutex.phase u = .out ∨ s.mutex.phase u = .holding →
        (s.mutex.wakeUp t woken).phase u = s.mutex.phase u := by
      intro u hu
      have hut : u ≠ t := by
        rintro rfl
        rw [hp] at hu
        rcases hu with hu | hu <;> cases hu
      have hw : woken u = false := by
        rcases hu with hu | hu <;> exact decide_eq_false (by rw [hu]; decide)
      simp [MutexState.wakeUp, hut, hw]
    refine ⟨_, .mutex ⟨hst, fun u hu hne => ?_, fun u hu hne => ?_⟩, .inr ?_⟩
    · rw [hkeep u (.inl hu)] at hne
      exact absurd hu hne
    · rw [hkeep u (.inr hu)] at hne
      exact absurd hu hne
    · rw [hp]
      simp [MutexState.wakeUp]
  · rcases hpc with hpc | ⟨v, hpc⟩
    · exact .pc (.released hpc hp) (by rw [hpc]; decide)
    · exact .pc (.unlocked hpc hp) (by rw [hpc]; simp)

/-- **Whoever is awake can go on.** -/
theorem acts (hlink : s.Linked) (hdone : s.pc t ≠ .done)
    (hawake : ¬ s.Asleep t) : s.Acts lock role t := by
  cases hpc : s.pc t with
  | acquire =>
    exact acts_of_acquiring hlink (.inl hpc) fun h => hawake (.inr h)
  | relock =>
    exact acts_of_acquiring hlink (.inr hpc) fun h => hawake (.inr h)
  | release => exact acts_of_releasing hlink (.inl hpc)
  | unlock v => exact acts_of_releasing hlink (.inr ⟨v, hpc⟩)
  | test =>
    refine .pc (.test hpc) ?_
    rw [hpc]
    split <;> nofun
  | check =>
    refine .pc (.check hpc) ?_
    rw [hpc]
    split <;> nofun
  | attach =>
    cases hcv : (s.cond (role t)).attach lock with
    | none => exact .pc (.refused hpc hcv) (by rw [hpc]; nofun)
    | some cv => exact .setCond (.attach hpc hcv) (by rw [hpc]; nofun)
  | load => exact .pc (.load hpc) (by rw [hpc]; nofun)
  | enter v => exact .setCond (.enter hpc) (by rw [hpc]; nofun)
  | futex v =>
    refine .pc (.futex hpc) ?_
    rw [hpc]
    split <;> nofun
  | asleep v => exact absurd (.inl ⟨v, hpc⟩) hawake
  | leave => exact .setCond (.leave hpc) (by rw [hpc]; nofun)
  | change => exact ⟨_, .change hpc, .inl (by rw [go_pc_self, hpc]; nofun)⟩
  | signal => exact .setCond (.signal hpc) (by rw [hpc]; nofun)
  | look =>
    refine .pc (.look hpc) ?_
    rw [hpc]
    split <;> nofun
  | wake =>
    by_cases hsome : ∃ u v, role u = (role t).other ∧ s.pc u = .asleep v
    · obtain ⟨u, v, hu, hpu⟩ := hsome
      exact ⟨_, .wake hpc hpu hu, .inl (by rw [go_pc_self, hpc]; nofun)⟩
    · exact .pc (.wakeNone hpc fun u v hu hpu => hsome ⟨u, v, hu, hpu⟩)
        (by rw [hpc]; nofun)
  | done => exact absurd hpc hdone

/-! ## Nobody can go on -/

omit [DecidableEq ι] in
/-- Where everybody sleeps or has returned, nobody sleeps on the mutex. -/
theorem Linked.quiet (h : s.Linked)
    (hquiet : ∀ t, s.pc t = .done ∨ s.Asleep t) (t : ι) :
    s.pc t = .done ∨ ∃ v, s.pc t = .asleep v := by
  rcases hquiet t with hdone | hcond | hsleep
  · exact .inl hdone
  · exact .inr hcond
  · -- a sleeper is seen to, by somebody who is neither
    have hbusy : ∀ u, s.mutex.phase u ≠ .out → s.mutex.phase u ≠ .sleeping →
        False := by
      intro u hout hnot
      have hfit := h.fits u
      rcases hquiet u with hu | ⟨v, hu⟩ | hu
      · rw [hu] at hfit
        exact hout hfit
      · rw [hu] at hfit
        exact hout hfit
      · exact hnot hu
    exfalso
    rcases h.mutex.seen ⟨t, hsleep⟩ with hv | ⟨u, hu⟩
    · rcases h.mutex.owned with ⟨h0, -⟩ | ⟨-, o, ho, -⟩
      · rw [h0] at hv
        cases hv
      · rcases ho with ho | ho <;> exact hbusy o (by rw [ho]; nofun)
          (by rw [ho]; nofun)
    · rcases hu with hu | hu | hu <;> exact hbusy u (by rw [hu]; nofun)
        (by rw [hu]; nofun)

omit [DecidableEq ι] in
/-- Where everybody sleeps or has returned, a role of which one sleeps has
nothing left to use. -/
theorem Inv.quiet [Fintype ι] (h : s.Inv role)
    (hquiet : ∀ t, s.pc t = .done ∨ ∃ v, s.pc t = .asleep v) {v : UInt32}
    (ht : s.pc t = .asleep v) : (role t).avail s.counter = 0 := by
  have hwait : s.Waits role (role t) := ⟨t, rfl, by rw [ht]; rfl⟩
  have hzero : ∀ r (f : CondPc → Bool), f .done = false →
      (∀ v, f (.asleep v) = false) → s.tallyOf role r f = 0 := by
    intro r f hdone hasleep
    refine tally_eq_zero fun u => ?_
    rcases hquiet u with hu | ⟨w, hu⟩ <;> simp [hu, hdone, hasleep]
  have hnow := h.owed (role t) hwait
  rw [hzero _ _ rfl fun _ => rfl, hzero _ _ rfl fun _ => rfl] at hnow
  exact Nat.le_zero.mp hnow

end CondState

/-- **The consumers and producers never get stuck.** As long as there are as
many of one kind as of the other, and whatever the order of their steps,
some thread that does not sleep can go on until all have returned, and then
the counter is 0 again. -/
theorem condition_never_stuck {ι : Type} [Fintype ι] [DecidableEq ι]
    {lock : UInt64} {role : ι → Role} {s : CondState ι}
    (h : CondReachable lock role s) (hcard : Fintype.card ι < 2147483648)
    (heven : (tally fun t => decide (role t = .consumer)) =
      tally fun t => decide (role t = .producer)) :
    (∀ t, s.pc t = .done) ∧ s.counter = 0 ∨
      ∃ t, ¬ s.Asleep t ∧ s.pc t ≠ .done ∧ s.Acts lock role t := by
  have hinv := h.inv hcard
  by_cases hsome : ∃ t, ¬ s.Asleep t ∧ s.pc t ≠ .done
  · obtain ⟨t, hawake, hdone⟩ := hsome
    exact .inr ⟨t, hawake, hdone, CondState.acts hinv.linked hdone hawake⟩
  · have hquiet := hinv.linked.quiet fun t => by
      by_contra hnot
      exact hsome ⟨t, fun h => hnot (.inr h), fun h => hnot (.inl h)⟩
    -- who has used the counter has returned
    have hpast : ∀ t, (s.pc t).past = decide (s.pc t = .done) := by
      intro t
      rcases hquiet t with ht | ⟨v, ht⟩ <;> rw [ht] <;> rfl
    have hsum := hinv.balanced.sum
    have hmax := hinv.balanced.le
    have hle : ∀ r, s.tallyOf role r CondPc.past ≤
        tally fun t => decide (role t = r) := fun r =>
      tally_mono fun t ht => (Bool.and_eq_true_iff.mp ht).1
    -- a sleeper has not, so one of its kind is missing
    have hlt : ∀ t v, s.pc t = .asleep v → s.tallyOf role (role t) CondPc.past <
        tally fun u => decide (role u = role t) := fun t v ht =>
      tally_lt (t := t) (fun u hu => (Bool.and_eq_true_iff.mp hu).1)
        (by rw [ht]; exact Bool.and_false _) (decide_eq_true rfl)
    have hmiss : ∀ r, s.tallyOf role r CondPc.past <
        (tally fun t => decide (role t = r)) →
        ∃ t v, role t = r ∧ s.pc t = .asleep v := by
      intro r hr
      obtain ⟨t, hf, hg⟩ := exists_of_tally_lt hr
      have hrole := of_decide_eq_true hg
      rcases hquiet t with ht | ⟨v, ht⟩
      · simp [hrole, ht, CondPc.past] at hf
      · exact ⟨t, v, hrole, ht⟩
    have hnone : ∀ r t v, role t = r → s.pc t ≠ .asleep v := by
      have hten : COUNTER_MAX.toNat = 10 := rfl
      intro r t v hr ht
      have havail := hinv.quiet hquiet ht
      have hltt := hlt t v ht
      have hc := hle .consumer
      have hp := hle .producer
      rw [hr] at havail hltt
      cases r with
      | consumer =>
        obtain ⟨u, w, hu, hpu⟩ := hmiss .producer (by
          change s.counter.toNat = 0 at havail
          omega)
        have havail' := hinv.quiet hquiet hpu
        rw [hu] at havail'
        change s.counter.toNat = 0 at havail
        change COUNTER_MAX.toNat - s.counter.toNat = 0 at havail'
        omega
      | producer =>
        obtain ⟨u, w, hu, hpu⟩ := hmiss .consumer (by
          change COUNTER_MAX.toNat - s.counter.toNat = 0 at havail
          omega)
        have havail' := hinv.quiet hquiet hpu
        rw [hu] at havail'
        change s.counter.toNat = 0 at havail'
        change COUNTER_MAX.toNat - s.counter.toNat = 0 at havail
        omega
    have hall : ∀ t, s.pc t = .done := fun t =>
      (hquiet t).resolve_right fun ⟨v, hv⟩ => hnone _ t v rfl hv
    refine .inl ⟨hall, ?_⟩
    have hfull : ∀ r, s.tallyOf role r CondPc.past =
        tally fun t => decide (role t = r) := fun r =>
      tally_congr fun t => by rw [hall t]; exact Bool.and_true _
    rw [hfull, hfull] at hsum
    exact UInt32.toNat_inj.mp (by rw [UInt32.toNat_zero]; omega)

/-- One consumer, asleep, and one producer that has not begun. -/
theorem condition_never_stuck_asleep : ∃ s : CondState Bool,
    s.pc true = .asleep 0 ∧ s.pc false = .acquire ∧
      ∃ t, ¬ s.Asleep t ∧ s.pc t ≠ .done ∧
        s.Acts 1 (fun t => if t then .consumer else .producer) t := by
  let role : Bool → Role := fun t => if t then .consumer else .producer
  let s₀ : CondState Bool :=
    ⟨⟨0, fun _ => .out⟩, 0, fun _ => ⟨0, 0, 0⟩, fun _ => .acquire⟩
  have h₀ : CondReachable 1 role s₀ :=
    .start ⟨⟨rfl, fun _ => rfl⟩, rfl, fun _ => rfl, fun _ => rfl⟩
  have h₁ := h₀.next (.mutex ⟨.take (t := true) rfl rfl, fun _ _ _ => .inl rfl,
    fun u hu => by cases u <;> cases hu⟩)
  have h₂ := h₁.next (.acquired (t := true) (.inl rfl) rfl)
  have h₃ := h₂.next (.test (t := true) rfl)
  have h₄ := h₃.next (.check (t := true) rfl)
  have h₅ := h₄.next (.attach (t := true) rfl rfl)
  have h₆ := h₅.next (.load (t := true) rfl)
  have h₇ := h₆.next (.enter (t := true) (v := 0) rfl)
  have h₈ := h₇.next (.mutex ⟨.release (t := true) rfl, fun u hu hne => ?_,
    fun u hu hne => ?_⟩)
  have h₉ := h₈.next (.unlocked (t := true) (v := 0) rfl rfl)
  have h₁₀ := h₉.next (.futex (t := true) (v := 0) rfl)
  refine ⟨_, rfl, rfl, (condition_never_stuck h₁₀ (by decide)
    (by decide)).resolve_left fun h => ?_⟩
  · exact nomatch h.1 false
  · cases u
    · exact absurd rfl hne
    · cases hu
  · cases u
    · cases hu
    · exact .inr ⟨0, rfl⟩

end OpenAmp.Metal
