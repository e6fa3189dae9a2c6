import OpenAmp.Rpmsg.Threads

/-!
# The life of an endpoint

One endpoint from its creation to its destruction, while any number of
threads use it and any other endpoint. With a release callback, the
callback is called once, when the endpoint is off the list and the last
user is done with it. Without one, what a second destruction does depends
on whether a message is still being dispatched to the endpoint.
-/

namespace OpenAmp.Rpmsg

open OpenAmp.Lib OpenAmp.Metal

/-! ## Who uses an endpoint -/

/-- The task works with endpoint `o`. -/
def RxTask.Uses (o : Nat) (task : RxTask) : Prop :=
  task.ept = o ∨ ∃ work, task.phase = .naming work ∧ work.ept = o

/-- A receive or unbind callback on `o` is in progress; that of the name
service lasts while it handles a message. -/
def RxTask.Calls (o : Nat) (task : RxTask) : Prop :=
  match task.phase with
  | .calling => task.ept = o
  | .naming work => task.ept = o ∨ work.ept = o ∧ work.phase = .unbinding
  | _ => False

theorem RxTask.Calls.uses {o : Nat} {task : RxTask} (h : task.Calls o) :
    task.Uses o := by
  obtain ⟨ept, phase⟩ := task
  cases phase with
  | calling => exact .inl h
  | naming work =>
    rcases h with hept | ⟨hwork, -⟩
    · exact .inl hept
    · exact .inr ⟨work, rfl, hwork⟩
  | found src => exact h.elim
  | returned => exact h.elim

/-- The name service took a reference to the endpoints with a release
callback. -/
def NamedWith (cb : Nat → Bool) (rx : List RxTask) : Prop :=
  ∀ task ∈ rx, ∀ work, task.phase = .naming work → work.counted = cb work.ept

/-- There is a receive buffer for each task, and the references of the name
service are as they should be. -/
structure Regulated (nentries : UInt16) (s : EptSystem) : Prop where
  room : s.rx.length ≤ nentries.toNat
  named : NamedWith (fun e => (s.rdev.epts e).releaseCb) s.rx

section Regulated

variable {nentries : UInt16} {ns : Nat} {s t : EptSystem} {l : EptLabel}
variable {cb : Nat → Bool} {rx l₁ l₂ : List RxTask} {x y : RxTask} {o : Nat}

theorem NamedWith.replace (h : NamedWith cb (l₁ ++ x :: l₂))
    (hy : ∀ work, y.phase = .naming work → work.counted = cb work.ept) :
    NamedWith cb (l₁ ++ y :: l₂) := by
  intro task htask
  rcases List.mem_append.mp htask with h1 | h2
  · exact h task (List.mem_append_left _ h1)
  · rcases List.mem_cons.mp h2 with rfl | h2
    · exact hy
    · exact h task (List.mem_append_right _ (List.mem_cons_of_mem _ h2))

theorem NamedWith.remove (h : NamedWith cb (l₁ ++ x :: l₂)) :
    NamedWith cb (l₁ ++ l₂) := by
  intro task htask
  rcases List.mem_append.mp htask with h1 | h2
  · exact h task (List.mem_append_left _ h1)
  · exact h task (List.mem_append_right _ (List.mem_cons_of_mem _ h2))

/-- What a step leaves of the tasks. -/
theorem EptStep.tasks (hstep : EptStep nentries ns s l t)
    (hroom : s.rx.length ≤ nentries.toNat)
    (hnamed : NamedWith (fun e => (s.rdev.epts e).releaseCb) s.rx) :
    t.rx.length ≤ nentries.toNat ∧
      NamedWith (fun e => (s.rdev.epts e).releaseCb) t.rx := by
  have hgo : ∀ {l₁ l₂ : List RxTask} {x y : RxTask},
      s.rx = l₁ ++ x :: l₂ →
      (∀ work, y.phase = .naming work →
        work.counted = (s.rdev.epts work.ept).releaseCb) →
      (l₁ ++ y :: l₂).length ≤ nentries.toNat ∧
        NamedWith (fun e => (s.rdev.epts e).releaseCb) (l₁ ++ y :: l₂) := by
    intro l₁ l₂ x y hrx hy
    rw [hrx] at hroom hnamed
    exact ⟨by simpa using hroom, hnamed.replace hy⟩
  have hns : ∀ {l₁ l₂ : List RxTask} {ept e : Nat} {counted : Bool}
      {phase phase' : NsPhase},
      s.rx = l₁ ++ ⟨ept, .naming ⟨e, counted, phase⟩⟩ :: l₂ →
      (l₁ ++ ⟨ept, .naming ⟨e, counted, phase'⟩⟩ :: l₂).length ≤
          nentries.toNat ∧
        NamedWith (fun e => (s.rdev.epts e).releaseCb)
          (l₁ ++ ⟨ept, .naming ⟨e, counted, phase'⟩⟩ :: l₂) := by
    intro l₁ l₂ ept e counted phase phase' hrx
    refine hgo hrx fun work hwork => ?_
    cases hwork
    have hmem : ⟨ept, .naming ⟨e, counted, phase⟩⟩ ∈ s.rx := by simp [hrx]
    exact hnamed _ hmem ⟨e, counted, phase⟩ rfl
  cases hstep with
  | rxTake src dst hbuf hfind =>
    refine ⟨hbuf, fun task htask => ?_⟩
    rcases List.mem_cons.mp htask with rfl | htask
    · exact nofun
    · exact hnamed task htask
  | rxCall hrx => exact hgo hrx nofun
  | rxReturn hrx => exact hgo hrx nofun
  | rxDone hrx =>
    rw [hrx] at hroom hnamed
    refine ⟨?_, hnamed.remove⟩
    simp only [List.length_append, List.length_cons] at hroom
    simp only [EptSystem.decref, List.length_append]
    omega
  | nsDestroy name dest hrx hfind =>
    refine hgo hrx fun work hwork => ?_
    cases hwork
    rfl
  | nsUnbind hrx => exact hns hrx
  | nsNoUnbind hrx => exact hns hrx
  | nsUnbound hrx => exact hns hrx
  | nsDone hrx => exact hgo hrx nofun
  | nsDoneUncounted hrx => exact hgo hrx nofun
  | _ => exact ⟨hroom, hnamed⟩

theorem EptStep.releaseCb_eq (hstep : EptStep nentries ns s l t)
    (hroom : s.rx.length ≤ nentries.toNat) (o : Nat) :
    (t.rdev.epts o).releaseCb = (s.rdev.epts o).releaseCb :=
  (hstep.moves hroom o).notify_told.1

theorem Regulated.step (h : Regulated nentries s)
    (hstep : EptStep nentries ns s l t) : Regulated nentries t := by
  obtain ⟨hroom, hnamed⟩ := hstep.tasks h.room h.named
  have hcb : (fun e => (t.rdev.epts e).releaseCb) =
      fun e => (s.rdev.epts e).releaseCb := by
    funext e
    exact hstep.releaseCb_eq h.room e
  exact ⟨hroom, by rw [hcb]; exact hnamed⟩

theorem heldBy_eq_zero_iff :
    heldBy o rx = 0 ↔ ∀ task ∈ rx, task.refs o = 0 := by
  induction rx with
  | nil => simp [heldBy]
  | cons task rx ih =>
    rw [heldBy_cons, List.forall_mem_cons, ← ih]
    omega

/-- An endpoint with a release callback is held by all who use it. -/
theorem Regulated.held_iff (h : Regulated nentries s)
    (hcb : (s.rdev.epts o).releaseCb = true) :
    heldBy o s.rx = 0 ↔ ∀ task ∈ s.rx, ¬ task.Uses o := by
  rw [heldBy_eq_zero_iff]
  refine forall₂_congr fun task htask => ?_
  obtain ⟨ept, phase⟩ := task
  have hnamed := h.named _ htask
  cases phase with
  | naming work =>
    have hcounted := hnamed work rfl
    simp only [RxTask.refs, TaskPhase.refs, RxTask.Uses, hcounted]
    by_cases hwork : work.ept = o
    · simp [hwork, hcb]
    · simp [hwork]
  | _ => simp [RxTask.refs, TaskPhase.refs, RxTask.Uses]

/-- One without is held by the tasks that dispatch to it. -/
theorem Regulated.held_iff_of_no_cb (h : Regulated nentries s)
    (hcb : (s.rdev.epts o).releaseCb = false) :
    heldBy o s.rx = 0 ↔ ∀ task ∈ s.rx, task.ept ≠ o := by
  rw [heldBy_eq_zero_iff]
  refine forall₂_congr fun task htask => ?_
  obtain ⟨ept, phase⟩ := task
  have hnamed := h.named _ htask
  cases phase with
  | naming work =>
    have hcounted := hnamed work rfl
    simp only [RxTask.refs, TaskPhase.refs, hcounted]
    by_cases hwork : work.ept = o
    · simp [hwork, hcb]
    · simp [hwork]
  | _ => simp [RxTask.refs, TaskPhase.refs]

end Regulated

/-! ## Runs with one endpoint in view -/

/-- The system with what was done with one endpoint so far. -/
structure EptLife where
  sys : EptSystem
  story : Story

/-- A step, of which the endpoint `o` of the application takes notice. -/
def LifeStep (nentries : UInt16) (ns o : Nat) (s : EptLife) (l : EptLabel)
    (t : EptLife) : Prop :=
  EptStep nentries ns s.sys l t.sys ∧
    s.story.next (s.sys.view o) (l.actOn o) = some t.story

/-- A state from which `o` begins its life: it is in no use. -/
structure Idle (nentries : UInt16) (o : Nat) (s : EptSystem) : Prop where
  regulated : Regulated nentries s
  endpoints : o ∉ s.rdev.endpoints
  rx : ∀ task ∈ s.rx, ¬ task.Uses o
  released : o ∉ s.released

def EptLife.tracked (s : EptLife) (o : Nat) : Tracked :=
  ⟨s.sys.view o, s.story⟩

/-- What holds of every run that began so, if the creation succeeded and
the destruction came after it. -/
structure LifeInv (nentries : UInt16) (o : Nat) (s : EptLife) : Prop where
  regulated : Regulated nentries s.sys
  regular : (s.tracked o).RegularInv

section Life

variable {nentries : UInt16} {ns o : Nat} {s t s₀ : EptLife} {l : EptLabel}

theorem cap_fits (nentries : UInt16) :
    2 * nentries.toNat + 1 < UInt32.size := by
  have hlt : nentries.toNat < 65536 := nentries.toNat_lt
  show 2 * nentries.toNat + 1 < 4294967296
  omega

theorem LifeStep.tracked (hstep : LifeStep nentries ns o s l t)
    (hroom : s.sys.rx.length ≤ nentries.toNat) :
    (s.tracked o).Step (2 * nentries.toNat) (l.actOn o) (t.tracked o) :=
  ⟨hstep.1.moves hroom o, hstep.2⟩

theorem LifeInv.step (h : LifeInv nentries o s)
    (hstep : LifeStep nentries ns o s l t) : LifeInv nentries o t where
  regulated := h.regulated.step hstep.1
  regular := h.regular.step (cap_fits nentries)
    (hstep.tracked h.regulated.room)

theorem heldBy_of_unused {rx : List RxTask}
    (h : ∀ task ∈ rx, ¬ task.Uses o) : heldBy o rx = 0 := by
  rw [heldBy_eq_zero_iff]
  intro task htask
  have hno := h task htask
  obtain ⟨ept, phase⟩ := task
  have hept : ept ≠ o := fun heq => hno (.inl heq)
  cases phase with
  | naming work =>
    have hwork : work.ept ≠ o := fun heq => hno (.inr ⟨work, rfl, heq⟩)
    simp [RxTask.refs, TaskPhase.refs, hept, hwork]
  | _ => simp [RxTask.refs, TaskPhase.refs, hept]

theorem Idle.lifeInv (h : Idle nentries o s.sys) (hstart : s.story = .start) :
    LifeInv nentries o s where
  regulated := h.regulated
  regular := by
    intro _
    refine .inl ⟨?_, ?_, ?_, ?_, ?_⟩
    · show s.story.made = .before
      rw [hstart]
      rfl
    · show s.story.fate = .kept
      rw [hstart]
      rfl
    · exact List.count_eq_zero.mpr h.endpoints
    · exact heldBy_of_unused h.rx
    · exact List.count_eq_zero.mpr h.released

/-- The release callback is called by a step after which all callbacks in
progress still are. -/
theorem EptStep.uses_of_calls {s t : EptSystem}
    (hstep : EptStep nentries ns s l t) (hrel : t.released ≠ s.released)
    {task : RxTask} (htask : task ∈ s.rx) (hcalls : task.Calls o) :
    ∃ task' ∈ t.rx, task'.Uses o := by
  cases hstep with
  | @rxDone l₁ l₂ ept hrx =>
    rw [hrx] at htask
    refine ⟨task, ?_, hcalls.uses⟩
    show task ∈ l₁ ++ l₂
    simp only [List.mem_append, List.mem_cons] at htask ⊢
    rcases htask with h1 | rfl | h2
    · exact .inl h1
    · exact hcalls.elim
    · exact .inr h2
  | @nsDone l₁ l₂ e hrx =>
    rw [hrx] at htask
    simp only [List.mem_append, List.mem_cons] at htask
    rcases htask with h1 | rfl | h2
    · exact ⟨task, by simp [EptSystem.decref, h1], hcalls.uses⟩
    · -- the name service's own dispatch goes on
      rcases hcalls with hself | ⟨-, hphase⟩
      · exact ⟨⟨ns, .returned⟩, by simp [EptSystem.decref], .inl hself⟩
      · cases hphase
    · exact ⟨task, by simp [EptSystem.decref, h2], hcalls.uses⟩
  | createFailed hept hrdev => exact ⟨task, htask, hcalls.uses⟩
  | destroyEnd hept hrdev => exact ⟨task, htask, hcalls.uses⟩
  | _ => exact absurd rfl hrel

theorem life_run {tr : List EptLabel} (hidle : Idle nentries o s₀.sys)
    (hstart : s₀.story = .start)
    (hrun : Path (LifeStep nentries ns o) s₀ tr s) :
    LifeInv nentries o s ∧ (s.sys.rdev.epts o).releaseCb =
      (s₀.sys.rdev.epts o).releaseCb := by
  refine hrun.keeps (P := fun s => LifeInv nentries o s ∧
    (s.sys.rdev.epts o).releaseCb = (s₀.sys.rdev.epts o).releaseCb) ?_
    ⟨hidle.lifeInv hstart, rfl⟩
  rintro s l t ⟨hinv, hcb⟩ hstep
  refine ⟨hinv.step hstep, ?_⟩
  rw [hstep.1.releaseCb_eq hinv.regulated.room, hcb]

/-- **The release callback is called once, when all is over.** Once the
endpoint was destroyed and nobody uses it any more the callback was called
once, before that it was not; and where it is called, the endpoint is off
the list and no callback on it is in progress. -/
theorem release_once {tr : List EptLabel} (hidle : Idle nentries o s₀.sys)
    (hstart : s₀.story = .start)
    (hcb : (s₀.sys.rdev.epts o).releaseCb = true)
    (hrun : Path (LifeStep nentries ns o) s₀ tr s)
    (hregular : s.story.regular = true) :
    s.sys.released.count o ≤ 1 ∧
      (s.story.fate = .left ∨ s.story.fate = .freed →
        (∀ task ∈ s.sys.rx, ¬ task.Uses o) → s.sys.released.count o = 1) ∧
      (s.story.fate = .kept ∨ s.story.fate = .leaving ∨
        (∃ task ∈ s.sys.rx, task.Uses o) → s.sys.released.count o = 0) ∧
      ∀ l t, LifeStep nentries ns o s l t → t.story.regular = true →
        t.sys.released.count o ≠ s.sys.released.count o →
        o ∉ t.sys.rdev.endpoints ∧ ∀ task ∈ s.sys.rx, ¬ task.Calls o := by
  obtain ⟨hinv, hsame⟩ := life_run hidle hstart hrun
  rw [hcb] at hsame
  have hheld := hinv.regulated.held_iff hsame
  have htold : s.sys.released.count o =
      if (s.story.fate = .left ∨ s.story.fate = .freed) ∧
        heldBy o s.sys.rx = 0 then 1 else 0 :=
    hinv.regular.told_eq hregular hsame
  refine ⟨?_, fun hfate hunused => ?_, fun hearly => ?_, ?_⟩
  · rw [htold]
    split <;> omega
  · rw [htold, if_pos ⟨hfate, hheld.mpr hunused⟩]
  · rw [htold, if_neg]
    rintro ⟨hfate, hnone⟩
    rcases hearly with h | h | ⟨task, htask, huses⟩
    · rw [h] at hfate
      simp at hfate
    · rw [h] at hfate
      simp at hfate
    · exact hheld.mp hnone task htask huses
  · intro l t hstep hregular' hcall
    have hinv' := hinv.step hstep
    have hsame' : (t.sys.rdev.epts o).releaseCb = true := by
      rw [hstep.1.releaseCb_eq hinv.regulated.room, hsame]
    have htold' : t.sys.released.count o =
        if (t.story.fate = .left ∨ t.story.fate = .freed) ∧
          heldBy o t.sys.rx = 0 then 1 else 0 :=
      hinv'.regular.told_eq hregular' hsame'
    have hgrows : s.sys.released.count o ≤ t.sys.released.count o :=
      (hstep.1.moves hinv.regulated.room o).notify_told.2
    -- the callback was called now, so all that it waits for has happened
    obtain ⟨hfate, hnone⟩ : (t.story.fate = .left ∨ t.story.fate = .freed) ∧
        heldBy o t.sys.rx = 0 := by
      by_contra hnot
      rw [if_neg hnot] at htold'
      omega
    constructor
    · exact List.count_eq_zero.mp
        (hinv'.regular.listed_eq hregular' hfate)
    · intro task htask hcalls
      have hrel : t.sys.released ≠ s.sys.released := by
        intro heq
        rw [heq] at hcall
        exact hcall rfl
      obtain ⟨task', htask', huses⟩ :=
        hstep.1.uses_of_calls hrel htask hcalls
      exact (hinv'.regulated.held_iff hsame').mp hnone task' htask' huses

/-- The system as `rpmsg_init_vdev` leaves it without the name service. -/
def EptLife.init (releaseCb : Bool) : EptLife :=
  ⟨⟨.init false 0 fun _ => releaseCb, [], [], [], [], []⟩, .start⟩

theorem EptLife.init_idle (releaseCb : Bool) (o : Nat) :
    Idle 2 o (EptLife.init releaseCb).sys where
  regulated := ⟨Nat.zero_le _, nofun⟩
  endpoints := List.not_mem_nil
  rx := nofun
  released := List.not_mem_nil

/-- A run in which endpoint 1 is destroyed by its own receive callback. -/
theorem destroyed_in_callback (cb : Bool) :
    ∃ tr s, Path (LifeStep 2 0 1) (EptLife.init cb) tr s ∧ s.sys.rx = [] ∧
      s.story.fate = .left ∧ s.story.regular = true :=
  ⟨_, ⟨_, _⟩,
    .cons (m := ⟨_, _⟩) ⟨@EptStep.createLocked 2 0 _ 1 _ none 7 7
      List.not_mem_nil rfl, rfl⟩ <|
    .cons (m := ⟨_, _⟩) ⟨@EptStep.createQuiet 2 0 _ 1 List.mem_cons_self rfl,
      rfl⟩ <|
    .cons (m := ⟨_, _⟩) ⟨@EptStep.rxTake 2 0 _ 1 5 7
      (by exact Nat.zero_lt_succ 1) rfl, rfl⟩ <|
    .cons (m := ⟨_, _⟩) ⟨@EptStep.rxCall 2 0 _ [] [] _ _ rfl, rfl⟩ <|
    .cons (m := ⟨_, _⟩) ⟨.destroyBegin 1, rfl⟩ <|
    .cons (m := ⟨_, _⟩) ⟨@EptStep.destroyEnd 2 0 _ 1 List.mem_cons_self rfl,
      rfl⟩ <|
    .cons (m := ⟨_, _⟩) ⟨@EptStep.rxReturn 2 0 _ [] [] _ rfl, rfl⟩ <|
    .cons (m := ⟨_, _⟩) ⟨@EptStep.rxDone 2 0 _ [] [] _ rfl, rfl⟩ <|
    .nil _,
    rfl, rfl, rfl⟩

theorem destroyed_in_callback_released :
    ∃ tr s, Path (LifeStep 2 0 1) (EptLife.init true) tr s ∧
      s.sys.released.count 1 = 1 := by
  obtain ⟨tr, s, hrun, hrx, hfate, hregular⟩ := destroyed_in_callback true
  have hlife := release_once (EptLife.init_idle true 1) rfl rfl hrun hregular
  refine ⟨tr, s, hrun, hlife.2.1 (.inl hfate) ?_⟩
  rw [hrx]
  exact nofun

/-! ## A second destruction -/

/-- `rpmsg_destroy_ept` changes none of the device's books and sends
nothing. -/
structure DestroyNoop (rdev : RpmsgDevice) (ept : Nat) : Prop where
  endpoints : (rpmsgDestroyEpt rdev ept).endpoints = rdev.endpoints
  bitmap : (rpmsgDestroyEpt rdev ept).bitmap = rdev.bitmap
  refcnt : ∀ e, ((rpmsgDestroyEpt rdev ept).epts e).refcnt =
    (rdev.epts e).refcnt
  quiet : ¬ ((rdev.epts ept).rdev = true ∧ announcesDestroy rdev ept = true)

theorem destroyNoop_iff (rdev : RpmsgDevice) (ept : Nat) :
    DestroyNoop rdev ept ↔ (rdev.epts ept).rdev = false := by
  constructor
  · intro h
    by_contra hrdev
    have hcount := h.refcnt ept
    rw [rpmsgDestroyEpt, if_neg hrdev, rpmsgUnregisterEndpoint_self,
      rpmsgEptDecref_refcnt] at hcount
    -- no number is its own predecessor
    grind
  · intro hrdev
    have hsame : rpmsgDestroyEpt rdev ept = rdev := if_pos hrdev
    refine ⟨?_, ?_, ?_, ?_⟩
    · rw [hsame]
    · rw [hsame]
    · intro e
      rw [hsame]
    · rw [hrdev]
      exact nofun

/-- **When a second destruction does nothing.** After an endpoint without a
release callback was created and destroyed once, `rpmsg_destroy_ept` does
nothing to it exactly if no message is being dispatched to it. -/
theorem second_destroy_iff {tr : List EptLabel}
    (hidle : Idle nentries o s₀.sys) (hstart : s₀.story = .start)
    (hcb : (s₀.sys.rdev.epts o).releaseCb = false)
    (hrun : Path (LifeStep nentries ns o) s₀ tr s)
    (hregular : s.story.regular = true) (hfate : s.story.fate = .left) :
    DestroyNoop s.sys.rdev o ↔ ∀ task ∈ s.sys.rx, task.ept ≠ o := by
  obtain ⟨hinv, hsame⟩ := life_run hidle hstart hrun
  rw [hcb] at hsame
  rw [destroyNoop_iff, ← hinv.regulated.held_iff_of_no_cb hsame]
  have hlive : (s.sys.rdev.epts o).rdev = true ↔ heldBy o s.sys.rx ≠ 0 :=
    hinv.regular.live_iff hregular hsame hfate
  constructor
  · intro hrdev
    by_contra hheld
    rw [hlive.mpr hheld] at hrdev
    cases hrdev
  · intro hheld
    by_contra hrdev
    exact hlive.mp (Bool.of_not_eq_false hrdev) hheld

theorem second_destroy_late :
    ∃ tr s, Path (LifeStep 2 0 1) (EptLife.init false) tr s ∧
      s.story.fate = .left ∧ DestroyNoop s.sys.rdev 1 := by
  obtain ⟨tr, s, hrun, hrx, hfate, hregular⟩ := destroyed_in_callback false
  refine ⟨tr, s, hrun, hfate, (second_destroy_iff (EptLife.init_idle false 1)
    rfl rfl hrun hregular hfate).mpr ?_⟩
  rw [hrx]
  exact nofun

/-- Endpoint 1 is destroyed in its receive callback and endpoint 2 takes
its address. The second destruction, before the dispatch is over, gives the
address away. -/
theorem second_destroy_early :
    ∃ tr s, Path (LifeStep 2 0 1) (EptLife.init false) tr s ∧
      s.story.regular = true ∧ s.story.fate = .left ∧
      s.sys.rdev.endpoints = [2] ∧ (s.sys.rdev.epts 2).addr = 1024 ∧
      metalBitmapIsBitSet s.sys.rdev.bitmap 0 = true ∧
      metalBitmapIsBitSet (rpmsgDestroyEpt s.sys.rdev 1).bitmap 0 = false ∧
      ¬ DestroyNoop s.sys.rdev 1 := by
  have hrun : ∃ tr s, Path (LifeStep 2 0 1) (EptLife.init false) tr s ∧
      s.story.regular = true ∧ s.story.fate = .left ∧
      s.sys.rdev.endpoints = [2] ∧ (s.sys.rdev.epts 2).addr = 1024 ∧
      metalBitmapIsBitSet s.sys.rdev.bitmap 0 = true ∧
      metalBitmapIsBitSet (rpmsgDestroyEpt s.sys.rdev 1).bitmap 0 = false :=
    ⟨_, ⟨_, _⟩,
      .cons (m := ⟨_, _⟩) ⟨@EptStep.createLocked 2 0 _ 1 _ none 1024 7
        (by decide) rfl, rfl⟩ <|
      .cons (m := ⟨_, _⟩) ⟨@EptStep.createQuiet 2 0 _ 1 (by decide) rfl,
        rfl⟩ <|
      .cons (m := ⟨_, _⟩) ⟨@EptStep.rxTake 2 0 _ 1 5 1024 (by decide) rfl,
        rfl⟩ <|
      .cons (m := ⟨_, _⟩) ⟨@EptStep.rxCall 2 0 _ [] [] _ _ rfl, rfl⟩ <|
      .cons (m := ⟨_, _⟩) ⟨.destroyBegin 1, rfl⟩ <|
      .cons (m := ⟨_, _⟩) ⟨@EptStep.destroyEnd 2 0 _ 1 (by decide) rfl,
        rfl⟩ <|
      .cons (m := ⟨_, _⟩) ⟨@EptStep.createLocked 2 0 _ 2 _ none 1024 7
        (by decide) rfl, rfl⟩ <|
      .nil _,
      rfl, rfl, rfl, rfl, rfl, rfl⟩
  obtain ⟨tr, s, hpath, hregular, hfate, hendpoints, haddr, hset, hclear⟩ :=
    hrun
  refine ⟨tr, s, hpath, hregular, hfate, hendpoints, haddr, hset, hclear, ?_⟩
  intro hnoop
  rw [hnoop.bitmap, hset] at hclear
  cases hclear

end Life

end OpenAmp.Rpmsg
