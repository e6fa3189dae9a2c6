import OpenAmp.Lib.Transition
import OpenAmp.Remoteproc.Firmware
import OpenAmp.Remoteproc.Rollback

/-!
# The life cycle of a remote processor

`remoteproc_config`, `remoteproc_start`, `remoteproc_stop`,
`remoteproc_shutdown` and `remoteproc_set_rsc_table` of
`open-amp/lib/remoteproc/remoteproc.c`, with `remoteproc_load` from
`Load`, as they are called in any order from `remoteproc_init` on.

The notify ids are reclaimed by `remoteproc_stop` alone. The way to
`RPROC_OFFLINE` leads through `remoteproc_shutdown`, which stops a
processor by itself when it has to, and which leaves the ids marked.
-/

namespace OpenAmp.Remoteproc

open OpenAmp.Lib OpenAmp.Metal

def RPROC_ENODEV : Int := 3

/-! ## The operations

A hook is `none` where the platform has none, and else what it
returned. -/

/-- `remoteproc_config`. -/
def remoteprocConfig (rproc : Rproc) (config : Option Int) : Int × Rproc :=
  if rproc.state = .offline then
    let ret := config.getD 0
    (ret, if ret = 0 then { rproc with state := .ready } else rproc)
  else (-RPROC_EINVAL, rproc)

/-- `remoteproc_start`: a platform without the hook cannot start. -/
def remoteprocStart (rproc : Rproc) (start : Option Int) : Int × Rproc :=
  if rproc.state = .ready then
    let ret := start.getD (-RPROC_ENODEV)
    (ret, if ret = 0 then { rproc with state := .running } else rproc)
  else (-RPROC_EINVAL, rproc)

/-- `remoteproc_stop`: nor can it stop. -/
def remoteprocStop (rproc : Rproc) (stop : Option Int) : Int × Rproc :=
  if rproc.state ≠ .stopped ∧ rproc.state ≠ .offline then
    let ret := stop.getD (-RPROC_ENODEV)
    (ret, if ret = 0 then
      { rproc with state := .stopped, bitmap := fun _ => 0 } else rproc)
  else (0, rproc)

/-- `remoteproc_shutdown`. -/
def remoteprocShutdown (rproc : Rproc) (stop shutdown : Option Int) :
    Int × Rproc :=
  if rproc.state ≠ .offline then
    let ret := if rproc.state ≠ .stopped then stop.getD 0 else 0
    if ret = 0 then
      let ret := shutdown.getD ret
      (ret, if ret = 0 then { rproc with state := .offline } else rproc)
    else (ret, rproc)
  else (0, rproc)

/-- What the parser is given by the remote processor. -/
def Rproc.rscEnv (rproc : Rproc) (size : UInt64) : Parser.RscEnv :=
  ⟨rproc.mems, rproc.ops, rproc.handleRsc, size⟩

/-- `handle_rsc_table` called for a remote processor: the status, the
table with its ids and the bitmap. -/
def Rproc.handleRscTable (rproc : Rproc) (base size : UInt64)
    (io : Option MetalIoRegion) (table : Mem) : Int × Parser.RscState :=
  (Parser.handleRscTable (rproc.rscEnv size) base io
    ⟨table, rproc.bitmap⟩).val

/-- `remoteproc_set_rsc_table` on the `size` bytes of `table` at address
`rscTable`. -/
def remoteprocSetRscTable (rproc : Rproc) (rscTable size : UInt64)
    (table : Mem) : Int × Rproc × Mem :=
  if rscTable = 0 ∨ size = 0 then (-RPROC_EINVAL, rproc, table)
  else
    match remoteprocGetIoWithVa rproc.mems rproc.ops rscTable with
    | none => (-RPROC_EINVAL, rproc, table)
    | some io =>
      let (ret, st) := rproc.handleRscTable rscTable size (some io) table
      let rproc := { rproc with bitmap := st.bitmap }
      (ret, if ret = 0 then
        { rproc with rscTable := rscTable, rscLen := size, rscIo := some io }
        else rproc, st.mem)

/-- A call, with what its hooks return and what it finds in memory. -/
inductive RprocCall where
  | config (hook : Option Int)
  | load (store : ImageStoreOps) (heap : Heap) (fuel : Nat) (target : Mem)
  | setRscTable (rscTable size : UInt64) (table : Mem)
  | start (hook : Option Int)
  | stop (hook : Option Int)
  | shutdown (stopHook shutdownHook : Option Int)

/-- The remote processor after a call; `none` for a load that has not
come to its end. -/
def RprocCall.run (rproc : Rproc) : RprocCall → Option Rproc
  | .config hook => some (remoteprocConfig rproc hook).2
  | .load store heap fuel target =>
    (remoteprocLoad store heap fuel rproc target).val.map (·.run.rproc)
  | .setRscTable rscTable size table =>
    some (remoteprocSetRscTable rproc rscTable size table).2.1
  | .start hook => some (remoteprocStart rproc hook).2
  | .stop hook => some (remoteprocStop rproc hook).2
  | .shutdown stopHook shutdownHook =>
    some (remoteprocShutdown rproc stopHook shutdownHook).2

/-- A remote processor as `remoteproc_init` leaves it, its memories
registered. -/
structure Rproc.IsInit (rproc : Rproc) : Prop where
  offline : rproc.state = .offline
  bitmap : rproc.bitmap = fun _ => 0

/-- One call of a run. -/
def RprocStep (s : Rproc) (c : RprocCall) (t : Rproc) : Prop :=
  c.run s = some t

/-! ## What a call leaves alone -/

/-- The memories and hooks of the platform are the same. -/
structure Rproc.SamePlatform (r r' : Rproc) : Prop where
  mems : r'.mems = r.mems
  ops : r'.ops = r.ops
  handleRsc : r'.handleRsc = r.handleRsc

theorem Rproc.SamePlatform.refl (r : Rproc) : r.SamePlatform r :=
  ⟨rfl, rfl, rfl⟩

theorem Rproc.SamePlatform.trans {r r' r'' : Rproc} (h : r.SamePlatform r')
    (h' : r'.SamePlatform r'') : r.SamePlatform r'' :=
  ⟨h'.mems.trans h.mems, h'.ops.trans h.ops, h'.handleRsc.trans h.handleRsc⟩

section Load

variable (store : ImageStoreOps) (heap : Heap)

theorem fetchSegment_rproc (run : LoadRun) (d : DataOut) (pa : UInt64) :
    (fetchSegment store run d pa).2.rproc = run.rproc := by
  unfold fetchSegment
  split <;> rfl

theorem padSegment_rproc (run : LoadRun) (d : DataOut) (pa : UInt64)
    (io : MetalIoRegion) : (padSegment run d pa io).rproc = run.rproc := by
  unfold padSegment
  split <;> rfl

theorem storeSegment_rproc (run : LoadRun) (d : DataOut) :
    (storeSegment store run d).run.rproc = run.rproc := by
  unfold storeSegment
  simp only
  split
  · rfl
  · split
    · rfl
    · split
      · rw [padSegment_rproc, fetchSegment_rproc]
      · rw [fetchSegment_rproc]

/-- The loops of `remoteproc_load` leave the remote processor alone. -/
theorem headerLoop_rproc (fuel : Nat) : ∀ {run : LoadRun}
    {noffset nlen : UInt64} {e : LoopEnd},
    (headerLoop store heap fuel run noffset nlen).val = some e →
    e.run.rproc = run.rproc := by
  induction fuel with
  | zero =>
    intro run noffset nlen e h
    cases h
  | succ fuel ih =>
    intro run noffset nlen e h
    simp only [headerLoop, Traced.val_bind, Traced.val_ite,
      Traced.val_pure] at h
    split at h
    · cases h
      rfl
    split at h
    · cases h
      rfl
    split at h
    · cases h
      rfl
    · have hrest := ih h
      exact hrest

theorem dataLoop_rproc (fuel : Nat) : ∀ {run : LoadRun} {e : LoopEnd},
    (dataLoop store heap fuel run).val = some e →
    e.run.rproc = run.rproc := by
  induction fuel with
  | zero =>
    intro run e h
    cases h
  | succ fuel ih =>
    intro run e h
    simp only [dataLoop, Traced.val_bind, Traced.val_ite,
      Traced.val_pure] at h
    split at h
    · cases h
      rfl
    split at h
    · split at h
      · cases h
        exact storeSegment_rproc store _ _
      · have hrest := ih h
        exact hrest.trans (storeSegment_rproc store _ _)
    split at h
    · split at h
      · split at h
        · cases h
          rfl
        · cases h
          rfl
      · have hrest := ih h
        exact hrest
    · cases h
      rfl

theorem remoteprocGetRscTable_platform (run : LoadRun) (offset len : UInt64) :
    run.rproc.SamePlatform
      (remoteprocGetRscTable store heap run offset len).2.rproc ∧
    (remoteprocGetRscTable store heap run offset len).2.rproc.state =
      run.rproc.state := by
  unfold remoteprocGetRscTable
  split
  · exact ⟨.refl _, rfl⟩
  simp only
  split
  · exact ⟨.refl _, rfl⟩
  split
  · exact ⟨.refl _, rfl⟩
  · exact ⟨⟨rfl, rfl, rfl⟩, rfl⟩

theorem locateRscTable_platform (run : LoadRun) (rsc : RscFound) :
    run.rproc.SamePlatform (locateRscTable store heap run rsc).val.2.rproc ∧
    (locateRscTable store heap run rsc).val.2.rproc.state =
      run.rproc.state := by
  simp only [locateRscTable, Traced.val_bind, Traced.val_ite, Traced.val_pure]
  split
  · exact remoteprocGetRscTable_platform store heap run _ _
  · exact ⟨.refl _, rfl⟩

theorem updateRscTable_platform (run : LoadRun) (rsc : RscFound) :
    run.rproc.SamePlatform (updateRscTable run rsc).rproc := by
  simp only [updateRscTable]
  split
  · exact .refl _
  split
  · split
    · exact ⟨rfl, rfl, rfl⟩
    · exact ⟨rfl, rfl, rfl⟩
  · exact ⟨rfl, rfl, rfl⟩

theorem finishLoad_platform (run : LoadRun) (rsc : RscFound) :
    run.rproc.SamePlatform (finishLoad store heap rsc run).run.rproc := by
  have hfound : run.rproc.SamePlatform
      (if rsc.size = 0 then (locateRscTable store heap run rsc).val
        else (rsc, run)).2.rproc := by
    split
    · exact (locateRscTable_platform store heap run rsc).1
    · exact .refl _
  simp only [finishLoad]
  generalize (if rsc.size = 0 then (locateRscTable store heap run rsc).val
    else (rsc, run)) = found at hfound ⊢
  have hupdate := hfound.trans (updateRscTable_platform found.2 found.1)
  exact ⟨hupdate.mems, hupdate.ops, hupdate.handleRsc⟩

/-- From the open image on: a load that ends has left the platform alone,
and the processor in its state or ready. -/
theorem loadImage_platform {fuel : Nat} {run : LoadRun} {out : LoadOut}
    (h : (loadImage store heap fuel run).val = some out) :
    run.rproc.SamePlatform out.run.rproc ∧
    (out.run.rproc.state = run.rproc.state ∨ out.run.rproc.state = .ready) := by
  cases hheader : (headerLoop store heap fuel run 0 0).val with
  | none =>
    simp only [loadImage, Traced.val_bind, hheader] at h
    cases h
  | some e =>
    obtain ⟨err, run₁⟩ := e
    have hrun₁ : run₁.rproc = run.rproc :=
      headerLoop_rproc store heap fuel hheader
    cases err with
    | some err =>
      rw [loadImage_header_error hheader] at h
      cases h
      rw [hrun₁]
      exact ⟨.refl _, .inl rfl⟩
    | none =>
      obtain ⟨hplat, hstate⟩ :=
        locateRscTable_platform store heap run₁ ⟨none, 0, 0, 0⟩
      cases hrsc : (locateRscTable store heap run₁ ⟨none, 0, 0, 0⟩).val with
      | mk rsc run₂ =>
        rw [hrsc, hrun₁] at hplat hstate
        cases hdata : (dataLoop store heap fuel
            { run₂ with offset := 0, len := 0 }).val with
        | none =>
          simp only [loadImage, Traced.val_bind, hheader, hrsc, hdata] at h
          cases h
        | some e =>
          obtain ⟨err, run₃⟩ := e
          have hrun₃ : run₃.rproc = run₂.rproc :=
            dataLoop_rproc store heap fuel hdata
          rw [← hrun₃] at hplat hstate
          rw [loadImage_val hheader hrsc hdata] at h
          cases h
          cases err with
          | some err => exact ⟨hplat, .inl hstate⟩
          | none =>
            exact ⟨hplat.trans (finishLoad_platform store heap run₃ rsc),
              .inr rfl⟩

/-- A load that ends has left the platform alone; out of `RPROC_OFFLINE`
it has done nothing, and there is no way back into it. -/
theorem remoteprocLoad_platform {fuel : Nat} {rproc : Rproc} {target : Mem}
    {out : LoadOut}
    (h : (remoteprocLoad store heap fuel rproc target).val = some out) :
    rproc.SamePlatform out.run.rproc ∧
    (out.run.rproc = rproc ∨ out.run.rproc.state ≠ .offline) := by
  by_cases hstate : rproc.state ≠ .ready ∧ rproc.state ≠ .configured
  · simp only [remoteprocLoad, Traced.val_pure, if_pos hstate] at h
    cases h
    exact ⟨.refl _, .inl rfl⟩
  simp only [remoteprocLoad, Traced.val_ite, Traced.val_pure,
    if_neg hstate] at h
  split at h
  · cases h
    exact ⟨.refl _, .inl rfl⟩
  split at h
  · cases h
    exact ⟨.refl _, .inl rfl⟩
  obtain ⟨hplat, hend⟩ := loadImage_platform store heap h
  refine ⟨⟨hplat.mems, hplat.ops, hplat.handleRsc⟩, .inr fun hoff => ?_⟩
  rcases hend with hsame | hready
  · rw [hoff] at hsame
    apply hstate
    rw [← show RprocState.offline = rproc.state from hsame]
    decide
  · rw [hoff] at hready
    cases hready

end Load

/-- A table that is not looked at leaves the processor alone; else its
bitmap is what the parser has left. -/
theorem remoteprocSetRscTable_cases (rproc : Rproc) (va size : UInt64)
    (table : Mem) :
    (remoteprocSetRscTable rproc va size table).2.1 = rproc ∧
      (va ≠ 0 → size ≠ 0 →
        remoteprocGetIoWithVa rproc.mems rproc.ops va = none) ∨
    va ≠ 0 ∧ size ≠ 0 ∧
    ∃ io, remoteprocGetIoWithVa rproc.mems rproc.ops va = some io ∧
      (remoteprocSetRscTable rproc va size table).2.1.bitmap =
        (rproc.handleRscTable va size (some io) table).2.bitmap ∧
      rproc.SamePlatform (remoteprocSetRscTable rproc va size table).2.1 ∧
      (remoteprocSetRscTable rproc va size table).2.1.state =
        rproc.state := by
  unfold remoteprocSetRscTable
  split
  · next hbad =>
    exact .inl ⟨rfl, fun hva hsize => absurd hbad (not_or.mpr ⟨hva, hsize⟩)⟩
  next hok =>
  simp only [not_or] at hok
  cases hio : remoteprocGetIoWithVa rproc.mems rproc.ops va with
  | none => exact .inl ⟨rfl, fun _ _ => rfl⟩
  | some io =>
    refine .inr ⟨hok.1, hok.2, io, rfl, ?_⟩
    simp only
    split
    · exact ⟨rfl, ⟨rfl, rfl, rfl⟩, rfl⟩
    · exact ⟨rfl, ⟨rfl, rfl, rfl⟩, rfl⟩

theorem remoteprocConfig_cases (s : Rproc) (hook : Option Int) :
    (remoteprocConfig s hook).2 = s ∨
      (remoteprocConfig s hook).2 = { s with state := .ready } := by
  unfold remoteprocConfig
  split
  · exact (ite_eq_or_eq _ _ _).symm
  · exact .inl rfl

theorem remoteprocStart_cases (s : Rproc) (hook : Option Int) :
    (remoteprocStart s hook).2 = s ∨
      (remoteprocStart s hook).2 = { s with state := .running } := by
  unfold remoteprocStart
  split
  · exact (ite_eq_or_eq _ _ _).symm
  · exact .inl rfl

theorem remoteprocStop_cases (s : Rproc) (hook : Option Int) :
    (remoteprocStop s hook).2 = s ∨
      (remoteprocStop s hook).2 =
        { s with state := .stopped, bitmap := fun _ => 0 } := by
  unfold remoteprocStop
  split
  · exact (ite_eq_or_eq _ _ _).symm
  · exact .inl rfl

/-- `remoteproc_shutdown` goes through: no hook it calls refuses. -/
def shutsDown (s : Rproc) (stop shutdown : Option Int) : Prop :=
  s.state ≠ .offline ∧ (s.state ≠ .stopped → stop.getD 0 = 0) ∧
    shutdown.getD 0 = 0

theorem remoteprocShutdown_cases (s : Rproc) (stop shutdown : Option Int) :
    shutsDown s stop shutdown ∧ (remoteprocShutdown s stop shutdown).2 =
      { s with state := .offline } ∨
    ¬ shutsDown s stop shutdown ∧
      (remoteprocShutdown s stop shutdown).2 = s := by
  unfold remoteprocShutdown shutsDown
  by_cases hoff : s.state ≠ .offline
  · rw [if_pos hoff]
    have hret : (if s.state ≠ .stopped then stop.getD 0 else 0) = 0 ↔
        (s.state ≠ .stopped → stop.getD 0 = 0) := by
      split
      · next hne => exact ⟨fun h _ => h, fun h => h hne⟩
      · next heq => exact ⟨fun _ hne => absurd hne heq, fun _ => rfl⟩
    by_cases hstop : (if s.state ≠ .stopped then stop.getD 0 else 0) = 0
    · simp only [hstop, if_true]
      by_cases hdown : shutdown.getD 0 = 0
      · rw [if_pos hdown]
        exact .inl ⟨⟨hoff, hret.mp hstop, hdown⟩, rfl⟩
      · rw [if_neg hdown]
        exact .inr ⟨fun h => hdown h.2.2, rfl⟩
    · simp only [hstop, if_false]
      exact .inr ⟨fun h => hstop (hret.mpr h.2.1), trivial⟩
  · rw [if_neg hoff]
    exact .inr ⟨fun h => hoff h.1, rfl⟩

/-- The platform is the same in all of a run. -/
theorem RprocCall.run_platform {c : RprocCall} {s t : Rproc}
    (h : c.run s = some t) : s.SamePlatform t := by
  cases c with
  | load store heap fuel target =>
    obtain ⟨out, hout, rfl⟩ := Option.map_eq_some_iff.mp h
    exact (remoteprocLoad_platform store heap hout).1
  | setRscTable va size table =>
    cases h
    rcases remoteprocSetRscTable_cases s va size table with
      ⟨hsame, -⟩ | ⟨-, -, io, -, -, hplat, -⟩
    · rw [hsame]
      exact .refl s
    · exact hplat
  | config hook =>
    cases h
    rcases remoteprocConfig_cases s hook with hsame | hdone
    · rw [hsame]
      exact .refl s
    · rw [hdone]
      exact ⟨rfl, rfl, rfl⟩
  | start hook =>
    cases h
    rcases remoteprocStart_cases s hook with hsame | hdone
    · rw [hsame]
      exact .refl s
    · rw [hdone]
      exact ⟨rfl, rfl, rfl⟩
  | stop hook =>
    cases h
    rcases remoteprocStop_cases s hook with hsame | hdone
    · rw [hsame]
      exact .refl s
    · rw [hdone]
      exact ⟨rfl, rfl, rfl⟩
  | shutdown stopHook shutdownHook =>
    cases h
    rcases remoteprocShutdown_cases s stopHook shutdownHook with
      ⟨-, hdone⟩ | ⟨-, hsame⟩
    · rw [hdone]
      exact ⟨rfl, rfl, rfl⟩
    · rw [hsame]
      exact .refl s

/-! ## Coming back to offline -/

/-- No id is marked in a processor that is offline. -/
def Rproc.OfflineClean (s : Rproc) : Prop :=
  s.state = .offline → s.bitmap = fun _ => 0

/-- What a call must not do: shut down a processor that has ids, or take
ids for one that is offline. -/
def RprocCall.Clean (s : Rproc) : RprocCall → Prop
  | .shutdown stopHook shutdownHook =>
    shutsDown s stopHook shutdownHook → s.bitmap = fun _ => 0
  | .setRscTable va size table =>
    s.state = .offline → va ≠ 0 → size ≠ 0 →
      ∀ io, remoteprocGetIoWithVa s.mems s.ops va = some io →
        Parser.LeavesBitmap (fun _ => s.rscEnv size) va (some io)
          ⟨table, s.bitmap⟩
  | _ => True

/-- **One call** keeps the bitmap of an offline processor empty exactly
when it is clean. -/
theorem RprocCall.run_clean_iff {c : RprocCall} {s t : Rproc}
    (h : c.run s = some t) (hs : s.OfflineClean) :
    t.OfflineClean ↔ c.Clean s := by
  cases c with
  | load store heap fuel target =>
    obtain ⟨out, hout, rfl⟩ := Option.map_eq_some_iff.mp h
    refine iff_of_true ?_ trivial
    rcases (remoteprocLoad_platform store heap hout).2 with hsame | hne
    · rw [hsame]
      exact hs
    · exact fun hoff => absurd hoff hne
  | config hook =>
    cases h
    refine iff_of_true ?_ trivial
    rcases remoteprocConfig_cases s hook with hsame | hdone
    · rw [hsame]
      exact hs
    · rw [hdone]
      exact fun hoff => nomatch hoff
  | start hook =>
    cases h
    refine iff_of_true ?_ trivial
    rcases remoteprocStart_cases s hook with hsame | hdone
    · rw [hsame]
      exact hs
    · rw [hdone]
      exact fun hoff => nomatch hoff
  | stop hook =>
    cases h
    refine iff_of_true ?_ trivial
    rcases remoteprocStop_cases s hook with hsame | hdone
    · rw [hsame]
      exact hs
    · rw [hdone]
      exact fun hoff => nomatch hoff
  | shutdown stopHook shutdownHook =>
    cases h
    simp only [Rproc.OfflineClean, RprocCall.Clean]
    rcases remoteprocShutdown_cases s stopHook shutdownHook with
      ⟨hgoes, hdone⟩ | ⟨hno, hsame⟩
    · rw [hdone]
      exact ⟨fun hclean _ => hclean rfl, fun hclean _ => hclean hgoes⟩
    · rw [hsame]
      exact iff_of_true hs fun hgoes => absurd hgoes hno
  | setRscTable va size table =>
    cases h
    simp only [Rproc.OfflineClean, RprocCall.Clean]
    rcases remoteprocSetRscTable_cases s va size table with
      ⟨hsame, hnone⟩ | ⟨hva, hsize, io, hio, hbm, -, hstate⟩
    · rw [hsame]
      refine iff_of_true hs fun _ hva hsize io hio => ?_
      rw [hnone hva hsize] at hio
      cases hio
    · rw [hstate, hbm]
      -- an offline processor comes to the table with an empty bitmap
      have hleaves : s.state = .offline →
          ((s.handleRscTable va size (some io) table).2.bitmap = (fun _ => 0) ↔
            Parser.LeavesBitmap (fun _ => s.rscEnv size) va (some io)
              ⟨table, s.bitmap⟩) := by
        intro hoff
        rw [← Parser.leavesBitmap_iff, ← Parser.handleRscTable_eq, hs hoff]
        simp only [Rproc.handleRscTable, hs hoff]
      constructor
      · intro hclean hoff _ _ io' hio'
        rw [hio] at hio'
        cases hio'
        exact (hleaves hoff).mp (hclean hoff)
      · intro hclean hoff
        exact (hleaves hoff).mpr (hclean hoff hva hsize io hio)

/-! ## Whole runs -/

/-- A remote processor that can be booted as if for the first time. -/
structure Reboots (init s : Rproc) : Prop where
  clean : s.OfflineClean
  again : s.state = .offline → ∀ (hook hook₀ : Option Int),
    (remoteprocConfig s hook).1 = 0 → (remoteprocConfig init hook₀).1 = 0 →
    ∀ (base size : UInt64) (io : Option MetalIoRegion) (table : Mem),
      (remoteprocConfig s hook).2.handleRscTable base size io table =
        (remoteprocConfig init hook₀).2.handleRscTable base size io table

/-- What comes out of the parser depends on the platform and the bitmap. -/
theorem Rproc.SamePlatform.handleRscTable {r r' : Rproc}
    (h : r.SamePlatform r') (hbm : r'.bitmap = r.bitmap) (base size : UInt64)
    (io : Option MetalIoRegion) (table : Mem) :
    r'.handleRscTable base size io table =
      r.handleRscTable base size io table := by
  simp only [Rproc.handleRscTable, Rproc.rscEnv, h.mems, h.ops, h.handleRsc,
    hbm]

theorem remoteprocConfig_bitmap (s : Rproc) (hook : Option Int) :
    (remoteprocConfig s hook).2.bitmap = s.bitmap := by
  rcases remoteprocConfig_cases s hook with hsame | hdone
  · rw [hsame]
  · rw [hdone]

theorem reboots_of_clean {init s : Rproc} (hinit : init.IsInit)
    (hplat : init.SamePlatform s) (h : s.OfflineClean) : Reboots init s where
  clean := h
  again := by
    intro hoff hook hook₀ _ _ base size io table
    have hconfig : ∀ (r : Rproc) (hk : Option Int),
        r.SamePlatform (remoteprocConfig r hk).2 := fun r hk =>
      RprocCall.run_platform (c := .config hk) rfl
    have hsame : (remoteprocConfig s hook).2.handleRscTable base size io table =
        s.handleRscTable base size io table :=
      (hconfig s hook).handleRscTable (remoteprocConfig_bitmap s hook) ..
    have hsame₀ : (remoteprocConfig init hook₀).2.handleRscTable base size io
        table = init.handleRscTable base size io table :=
      (hconfig init hook₀).handleRscTable
        (remoteprocConfig_bitmap init hook₀) ..
    rw [hsame, hsame₀]
    exact hplat.handleRscTable (by rw [h hoff, hinit.bitmap]) ..

theorem path_platform {s t : Rproc} {calls : List RprocCall}
    (h : Path RprocStep s calls t) : s.SamePlatform t := by
  refine Path.keeps (P := s.SamePlatform) ?_ h (.refl s)
  intro s' c t' hplat hrun
  exact hplat.trans (RprocCall.run_platform hrun)

/-- **A remote can be rebooted** any number of times exactly in the runs
that never shut a processor down while it has ids, and never take ids for
one that is offline. -/
theorem reboots_iff {init : Rproc} (hinit : init.IsInit)
    (calls : List RprocCall) :
    Throughout RprocStep init calls (Reboots init) ↔
      EachStep RprocStep init calls fun s c => c.Clean s := by
  have hrule : Throughout RprocStep init calls Rproc.OfflineClean ↔
      EachStep RprocStep init calls fun s c => c.Clean s := by
    apply throughout_iff (P := Rproc.OfflineClean)
    · intro s c t hs hrun
      exact RprocCall.run_clean_iff hrun hs
    · exact fun _ => hinit.bitmap
  rw [← hrule]
  constructor
  · intro h done rest s hcalls hpath
    exact (h done rest s hcalls hpath).clean
  · intro h done rest s hcalls hpath
    exact reboots_of_clean hinit (path_platform hpath)
      (h done rest s hcalls hpath)

/-- A remote processor with a shared memory at `0x1000`. -/
def boardRproc : Rproc where
  rscTable := 0
  rscLen := 0
  rscIo := none
  mems := [⟨0x1000, 0x1000, 0x100, [], metalIoInit 0x1000 none 0x100 63⟩]
  bitmap := fun _ => 0
  ops := ⟨none, none⟩
  handleRsc := none
  bootaddr := 0
  loader := false
  state := .offline

theorem boardRproc_isInit : boardRproc.IsInit := ⟨rfl, rfl⟩

/-- A table with one virtio entry, of device 7 and without vrings, that
asks for id 5. -/
def boardTable : Mem := fun a =>
  [1, 0, 0, 0, 1, 0, 0, 0, 0, 0, 0, 0, 0, 0, 0, 0, 20, 0, 0, 0,
    3, 0, 0, 0, 7, 0, 0, 0, 5, 0, 0, 0, 0, 0, 0, 0, 0, 0, 0, 0, 0, 0, 0, 0,
    0, 0, 0, 0].getD a 0

/-- The board with its table set. -/
def readyBoard : Rproc :=
  (remoteprocSetRscTable (remoteprocConfig boardRproc (some 0)).2 0x1000 48
    boardTable).2.1

theorem readyBoard_state : readyBoard.state = .ready := by decide +kernel

/-- Stopped before it is shut down, it can be booted again. -/
theorem board_reboots :
    Throughout RprocStep boardRproc [.config (some 0),
      .setRscTable 0x1000 48 boardTable, .start (some 0), .stop (some 0),
      .shutdown none (some 0)] (Reboots boardRproc) := by
  apply (reboots_iff boardRproc_isInit _).mpr
  refine EachStep.cons trivial ?_
  rintro s ⟨⟩
  refine EachStep.cons (fun hoff => nomatch hoff) ?_
  rintro s ⟨⟩
  refine EachStep.cons trivial ?_
  rintro s ⟨⟩
  refine EachStep.cons trivial ?_
  rintro s ⟨⟩
  refine EachStep.cons (fun _ => ?_) fun _ _ => eachStep_nil _ _
  -- the hook of `remoteproc_stop` has agreed, which empties the bitmap
  change (remoteprocStop (remoteprocStart readyBoard (some 0)).2
    (some 0)).2.bitmap = _
  simp [remoteprocStart, remoteprocStop, readyBoard_state]

/-- Shut down without having been started, it is offline with id 5
marked. -/
theorem shutdown_keeps_ids :
    Path RprocStep boardRproc [.config (some 0),
      .setRscTable 0x1000 48 boardTable, .shutdown (some 0) (some 0)]
      { readyBoard with state := .offline } ∧
    metalBitmapIsBitSet readyBoard.bitmap 5 = true ∧
    ¬ Reboots boardRproc { readyBoard with state := .offline } := by
  have hset : metalBitmapIsBitSet readyBoard.bitmap 5 = true := by
    decide +kernel
  refine ⟨.cons rfl (.cons rfl (.cons ?_ (.nil _))), hset, ?_⟩
  · change some (remoteprocShutdown readyBoard (some 0) (some 0)).2 = _
    simp [remoteprocShutdown, readyBoard_state]
  · intro h
    rw [show readyBoard.bitmap = fun _ => 0 from h.clean rfl] at hset
    exact absurd hset (by decide)

end OpenAmp.Remoteproc
