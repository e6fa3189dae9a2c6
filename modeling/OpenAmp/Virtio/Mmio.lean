import OpenAmp.Lib.Traced
import OpenAmp.Lib.Transition
import OpenAmp.Virtio.Virtqueue

/-!
# Queues of a virtio MMIO device

`open-amp/lib/virtio_mmio/virtio_mmio_drv.c`: registration of queues that
exist already, their setup, and the interrupt handler. The three share the
table `vrings_info` and its counter `vrings_num`. Registration fills the
table and sets the counter to its length; the setup of a queue writes the
queue once more, where the counter points to, and advances it; the
interrupt handler goes by the counter.

Queues are numbers. A step is recorded with its accesses to the table and
to the registers, and with the callbacks it makes, which leave the driver
alone.
-/

namespace OpenAmp.Virtio

open OpenAmp.Lib OpenAmp.Metal

def EINVAL : Int := 22
def ENODEV : Int := 19
def VIRTIO_MMIO_INT_VRING : UInt32 := 1

/-- The registers these functions use. -/
inductive MmioRegister where
  | interruptStatus
  | interruptAck
  | queueSel
  | queueNumMax
  | queueNum
  | queueAlign
  | queuePfn
deriving DecidableEq, Repr

/-- What a step does outside the driver's own fields. -/
inductive MmioEvent where
  | vringInfo (i : Nat)
  | read32 (reg : MmioRegister)
  | write32 (reg : MmioRegister) (value : UInt32)
  | enableCb (vq : Nat)
  | callback (vq f : Nat) (priv : UInt64)
deriving DecidableEq, Repr

/-- The fields of `struct virtqueue` in use; a function is a number. -/
structure MmioQueue where
  nentries : UInt16
  freeCnt : UInt16
  desc : UInt64
  queueIndex : UInt16
  name : Option String
  callback : Option Nat
  priv : UInt64
deriving DecidableEq, Repr

/-- A ring has been laid out in the queue, and nothing is in it. -/
def MmioQueue.configured (q : MmioQueue) : Bool :=
  q.nentries ≠ 0 ∧ q.nentries = q.freeCnt ∧ q.desc ≠ 0

/-- `struct virtio_device` with the queues. `vringsInfo` is the memory from
the start of the table on, also behind its end. -/
structure MmioDevice where
  role : VirtioRole
  version : UInt32
  shmIo : MetalIoRegion
  vringsInfo : Option (Nat → Option Nat)
  vringsNum : UInt32
  queues : Nat → MmioQueue

/-- `vrings_info[i].vq`. -/
def MmioDevice.vringVq (dev : MmioDevice) (i : Nat) : Option Nat :=
  dev.vringsInfo.bind (· i)

def MmioDevice.setQueue (dev : MmioDevice) (vq : Nat) (q : MmioQueue) :
    MmioDevice :=
  { dev with queues := Function.update dev.queues vq q }

/-- `vrings_info[vrings_num].vq = vq` and `vrings_num++`. -/
def MmioDevice.addVring (dev : MmioDevice) (vq : Nat) : MmioDevice :=
  { dev with
    vringsInfo := dev.vringsInfo.map fun table =>
      Function.update table dev.vringsNum.toNat (some vq)
    vringsNum := dev.vringsNum + 1 }

/-- `virtio_mmio_register_device`; `memory` is what the allocated memory
and what lies behind it hold. -/
def virtioMmioRegisterDevice (dev : MmioDevice) (vqs : List Nat)
    (memory : Nat → Option Nat) : MmioDevice :=
  { dev with
    vringsInfo := some fun i => if i < vqs.length then vqs[i]? else memory i
    vringsNum := UInt32.ofNat vqs.length }

/-! ## Setup -/

/-- `virtio_mmio_get_max_elem`. The device answers for the queue that was
selected last. -/
def virtioMmioGetMaxElem (numMax : UInt32 → UInt32) (idx : UInt32) :
    Traced MmioEvent UInt32 := do
  Traced.record (.write32 .queueSel idx)
  Traced.record (.read32 .queueNumMax)
  pure (numMax idx)

/-- A queue, null, or the end of the program. -/
inductive SetupResult where
  | vq (vq : Nat)
  | null
  | ended
deriving DecidableEq, Repr

/-- `virtqueue_create` on a queue with a ring, and what the caller sets
behind it. -/
def MmioQueue.create (q : MmioQueue) (idx : UInt32) (cb : Option Nat)
    (cbArg : UInt64) (name : Option String) : MmioQueue :=
  { q with
    name := name
    queueIndex := idx.toUInt16
    freeCnt := q.nentries
    callback := cb
    priv := cbArg }

/-- `virtio_mmio_setup_virtqueue`. Without a ring `virtqueue_create` is
given no queue, and it does not check for one. -/
def virtioMmioSetupVirtqueue (dev : MmioDevice) (numMax : UInt32 → UInt32)
    (idx : UInt32) (vq cb : Option Nat) (cbArg : UInt64)
    (name : Option String) : Traced MmioEvent (SetupResult × MmioDevice) :=
  if dev.role ≠ .driver then pure (.null, dev)
  else
    match vq with
    | none => pure (.null, dev)
    | some vq =>
      if dev.version ≠ 1 then pure (.null, dev)
      else do
        let _ ← virtioMmioGetMaxElem numMax idx
        let q := dev.queues vq
        if q.configured = false then pure (.ended, dev)
        else
          let dev := dev.setQueue vq (q.create idx cb cbArg name)
          let maxq ← virtioMmioGetMaxElem numMax idx
          if maxq = 0 ∨ maxq < q.nentries.toUInt32 then pure (.ended, dev)
          else
            Traced.record (.write32 .queueNum q.nentries.toUInt32)
            Traced.record (.write32 .queueAlign 4096)
            Traced.record (.write32 .queuePfn
              (metalIoVirtToPhys dev.shmIo q.desc / 4096).toUInt32)
            Traced.record (.vringInfo dev.vringsNum.toNat)
            let dev := dev.addVring vq
            Traced.record (.enableCb vq)
            pure (.vq vq, dev)

/-- What `virtio_mmio_create_virtqueues` is called with, less the flags;
the device answers `numMax` meanwhile. -/
structure CreateArgs where
  nvqs : UInt32
  names : Option (Nat → Option String)
  callbacks : Option (Nat → Option Nat)
  callbackArgs : Option (Nat → UInt64)
  numMax : UInt32 → UInt32

/-- The queue of entry `i`, which is read once more if it is there. -/
def MmioDevice.loadVringVq (dev : MmioDevice) (i : Nat) :
    Traced MmioEvent (Option Nat) :=
  match dev.vringVq i with
  | none => ⟨none, [.vringInfo i]⟩
  | some vq => ⟨some vq, [.vringInfo i, .vringInfo i]⟩

/-- The loop of `virtio_mmio_create_virtqueues` from queue `i` on; no
status where it ends the program. -/
def createVirtqueuesLoop (args : CreateArgs) (names : Nat → Option String) :
    Nat → Nat → MmioDevice → Traced MmioEvent (Option Int × MmioDevice)
  | 0, _, dev => pure (some 0, dev)
  | left + 1, i, dev => do
    let vringVq ← dev.loadVringVq i
    let cb := args.callbacks.bind (· i)
    let cbArg := args.callbackArgs.elim 0 (· i)
    let r ← virtioMmioSetupVirtqueue dev args.numMax (UInt32.ofNat i) vringVq
      cb cbArg (names i)
    match r.1 with
    | .vq _ => createVirtqueuesLoop args names left (i + 1) r.2
    | .null => pure (some (-ENODEV), r.2)
    | .ended => pure (none, r.2)

/-- `virtio_mmio_create_virtqueues`. -/
def virtioMmioCreateVirtqueues (args : CreateArgs) (dev : MmioDevice) :
    Traced MmioEvent (Option Int × MmioDevice) :=
  match args.names with
  | none => pure (some (-EINVAL), dev)
  | some names =>
    if dev.vringsInfo.isNone then pure (some (-EINVAL), dev)
    else createVirtqueuesLoop args names args.nvqs.toNat 0 dev

/-! ## The interrupt -/

/-- The loop of `virtio_mmio_isr` from entry `i` on. A null entry is
dereferenced, which ends the program. -/
def isrLoop (dev : MmioDevice) : Nat → Nat → Traced MmioEvent Bool
  | 0, _ => pure true
  | left + 1, i => do
    Traced.record (.vringInfo i)
    match dev.vringVq i with
    | none => pure false
    | some vq =>
      let q := dev.queues vq
      match q.callback with
      | none => isrLoop dev left (i + 1)
      | some f =>
        Traced.record (.callback vq f q.priv)
        isrLoop dev left (i + 1)

/-- The calls of `virtio_mmio_isr`. -/
def isrCallbacks (dev : MmioDevice) (isr : UInt32) : Traced MmioEvent Bool :=
  if isr &&& VIRTIO_MMIO_INT_VRING ≠ 0 then
    isrLoop dev dev.vringsNum.toNat 0
  else pure true

/-- `virtio_mmio_isr` with the value `isr` of the status register; whether
the program goes on. -/
def virtioMmioIsr (dev : MmioDevice) (isr : UInt32) :
    Traced MmioEvent Bool := do
  Traced.record (.read32 .interruptStatus)
  let lives ← isrCallbacks dev isr
  if lives then
    Traced.record (.write32 .interruptAck isr)
    pure true
  else pure false

/-! ## Runs -/

/-- A registered device and the queues that were set up on it. -/
structure MmioRun where
  dev : MmioDevice
  created : List Nat

inductive MmioOp where
  | create (args : CreateArgs)
  | isr (status : UInt32)

/-- What a step does. -/
def MmioOp.log (dev : MmioDevice) : MmioOp → List MmioEvent
  | .create args => (virtioMmioCreateVirtqueues args dev).log
  | .isr status => (virtioMmioIsr dev status).log

/-- The queue an event completes the setup of. -/
def MmioEvent.enabled : MmioEvent → Option Nat
  | .enableCb vq => some vq
  | _ => none

def MmioRun.exec (s : MmioRun) : MmioOp → MmioRun
  | .create args =>
    let r := virtioMmioCreateVirtqueues args s.dev
    ⟨r.val.2, s.created ++ r.log.filterMap MmioEvent.enabled⟩
  | .isr _ => s

/-- The creations succeed and ask for no more queues than there are. -/
def MmioOp.Admissible (vqNum : Nat) (s : MmioRun) : MmioOp → Prop
  | .create args => args.nvqs.toNat ≤ vqNum ∧
      (virtioMmioCreateVirtqueues args s.dev).val.1 = some 0
  | .isr _ => True

/-- One step of a device with `vqNum` queues. -/
def MmioStep (vqNum : Nat) (s : MmioRun) (op : MmioOp) (t : MmioRun) : Prop :=
  op.Admissible vqNum s ∧ t = s.exec op

/-- How often the callback of a queue is called. -/
def callsOf (vq : Nat) (log : List MmioEvent) : Nat :=
  log.countP fun
    | .callback q _ _ => q = vq
    | _ => false

/-- Every access to the table is to one of its entries, and an interrupt
for the queues calls each queue that was set up once. -/
structure StepOk (vqNum : Nat) (s : MmioRun) (op : MmioOp) : Prop where
  table : ∀ i, .vringInfo i ∈ op.log s.dev → i < vqNum
  once : ∀ status, op = .isr status → status &&& VIRTIO_MMIO_INT_VRING ≠ 0 →
    ∀ vq ∈ s.created, (s.dev.queues vq).callback ≠ none →
      callsOf vq (op.log s.dev) = 1

/-- No queue is asked for. -/
def MmioOp.CreatesNothing : MmioOp → Prop
  | .create args => args.nvqs = 0
  | .isr _ => True

/-! ## Single steps -/

section Steps

variable {dev : MmioDevice} {args : CreateArgs}

theorem create_none (hzero : args.nvqs = 0) :
    virtioMmioCreateVirtqueues args dev = pure (some 0, dev) ∨
      virtioMmioCreateVirtqueues args dev = pure (some (-EINVAL), dev) := by
  unfold virtioMmioCreateVirtqueues
  split
  · exact .inr rfl
  · split
    · exact .inr rfl
    · rw [hzero]
      exact .inl rfl

/-- A setup that comes to its end has written the entry the counter points
to. -/
theorem setup_writes {numMax : UInt32 → UInt32} {idx : UInt32}
    {vq cb : Option Nat} {cbArg : UInt64} {name : Option String} {v : Nat}
    (h : (virtioMmioSetupVirtqueue dev numMax idx vq cb cbArg name).val.1 =
      .vq v) :
    .vringInfo dev.vringsNum.toNat ∈
      (virtioMmioSetupVirtqueue dev numMax idx vq cb cbArg name).log := by
  revert h
  unfold virtioMmioSetupVirtqueue
  split
  · intro h
    cases h
  split
  · intro h
    cases h
  split
  · intro h
    cases h
  simp only [Traced.val_bind, Traced.log_bind, List.mem_append]
  split
  · intro h
    cases h
  simp only [Traced.val_bind, Traced.log_bind, List.mem_append]
  split
  · intro h
    cases h
  · intro _
    simp only [Traced.log_bind, Traced.log_record, List.mem_append,
      List.mem_singleton, MmioDevice.setQueue]
    simp

/-- A loop over queues that succeeds has set up its first one. -/
theorem createVirtqueuesLoop_writes {names : Nat → Option String}
    {left i : Nat}
    (hok : (createVirtqueuesLoop args names (left + 1) i dev).val.1 =
      some 0) :
    .vringInfo dev.vringsNum.toNat ∈
      (createVirtqueuesLoop args names (left + 1) i dev).log := by
  simp only [createVirtqueuesLoop, Traced.val_bind, Traced.log_bind,
    List.mem_append] at hok ⊢
  generalize hsetup : virtioMmioSetupVirtqueue dev args.numMax (UInt32.ofNat i)
    (dev.loadVringVq i).val (args.callbacks.bind (· i))
    (args.callbackArgs.elim 0 (· i)) (names i) = r at hok ⊢
  cases hres : r.val.1 with
  | vq v =>
    rw [← hsetup] at hres
    have hin := setup_writes hres
    rw [hsetup] at hin
    exact .inr (.inl hin)
  | null =>
    rw [hres] at hok
    exact absurd hok (by decide : some (-ENODEV) ≠ some 0)
  | ended =>
    rw [hres] at hok
    cases hok

/-- A creation of some queue has written the entry the counter points to. -/
theorem create_writes (hsome : args.nvqs ≠ 0)
    (hok : (virtioMmioCreateVirtqueues args dev).val.1 = some 0) :
    .vringInfo dev.vringsNum.toNat ∈
      (virtioMmioCreateVirtqueues args dev).log := by
  have hpos : args.nvqs.toNat ≠ 0 := fun h0 =>
    hsome (UInt32.toNat_inj.mp h0)
  obtain ⟨left, hleft⟩ : ∃ left, args.nvqs.toNat = left + 1 :=
    ⟨args.nvqs.toNat - 1, by omega⟩
  revert hok
  unfold virtioMmioCreateVirtqueues
  have hinval : some (-EINVAL) ≠ some 0 := by decide
  split
  · intro hok
    exact absurd hok hinval
  split
  · intro hok
    exact absurd hok hinval
  rw [hleft]
  exact createVirtqueuesLoop_writes

/-- The events that are not accesses to the table behind entry `n`. -/
def MmioEvent.Below (n : Nat) : MmioEvent → Prop
  | .vringInfo i => i < n
  | _ => True

theorem isrLoop_below (dev : MmioDevice) (left : Nat) : ∀ i,
    (isrLoop dev left i).Safe (MmioEvent.Below (i + left)) := by
  induction left with
  | zero =>
    intro i
    exact Traced.safe_pure true
  | succ left ih =>
    intro i
    have hnext : (isrLoop dev left (i + 1)).Safe
        (MmioEvent.Below (i + (left + 1))) := by
      have h := ih (i + 1)
      rwa [show i + 1 + left = i + (left + 1) from by omega] at h
    rw [isrLoop]
    refine Traced.safe_bind.mpr ⟨Traced.safe_record.mpr ?_, ?_⟩
    · show i < i + (left + 1)
      omega
    split
    · exact Traced.safe_pure false
    · dsimp only
      split
      · exact hnext
      · refine Traced.safe_bind.mpr ⟨Traced.safe_record.mpr ?_, hnext⟩
        exact trivial

/-- The interrupt handler goes through the table up to the counter. -/
theorem isr_below (dev : MmioDevice) (status : UInt32) :
    (virtioMmioIsr dev status).Safe
      (MmioEvent.Below dev.vringsNum.toNat) := by
  have hloop := isrLoop_below dev dev.vringsNum.toNat 0
  rw [Nat.zero_add] at hloop
  have hcalls : (isrCallbacks dev status).Safe
      (MmioEvent.Below dev.vringsNum.toNat) := by
    unfold isrCallbacks
    split
    · exact hloop
    · exact Traced.safe_pure true
  refine Traced.safe_bind.mpr ⟨Traced.safe_record.mpr trivial, ?_⟩
  refine Traced.safe_bind.mpr ⟨hcalls, ?_⟩
  split
  · exact Traced.safe_bind.mpr ⟨Traced.safe_record.mpr trivial,
      Traced.safe_pure true⟩
  · exact Traced.safe_pure false

end Steps

/-! ## Whole runs -/

section Runs

variable {vqNum : Nat} {s t : MmioRun}

/-- As registration leaves the device: nothing is set up, and the counter
is the length of the table. -/
structure Fresh (vqNum : Nat) (s : MmioRun) : Prop where
  counter : s.dev.vringsNum.toNat = vqNum
  created : s.created = []

/-- On a registered device a step is as it should be exactly if it sets up
no queue. -/
theorem Fresh.stepOk_iff (h : Fresh vqNum s) {op : MmioOp}
    (hstep : MmioStep vqNum s op t) :
    StepOk vqNum s op ↔ op.CreatesNothing := by
  cases op with
  | create args =>
    constructor
    · intro hok
      by_contra hsome
      have hin := create_writes hsome hstep.1.2
      exact absurd (hok.table _ hin) (by rw [h.counter]; omega)
    · intro hzero
      have hlog : (virtioMmioCreateVirtqueues args s.dev).log = [] := by
        rcases @create_none s.dev args hzero with heq | heq <;> rw [heq] <;> rfl
      refine ⟨fun i hi => ?_, fun status heq => by cases heq⟩
      have hi : .vringInfo i ∈ (virtioMmioCreateVirtqueues args s.dev).log := hi
      rw [hlog] at hi
      cases hi
  | isr status =>
    refine ⟨fun _ => trivial, fun _ => ⟨fun i hi => ?_, ?_⟩⟩
    · have hbelow := isr_below s.dev status _ hi
      rwa [h.counter] at hbelow
    · intro status' _ _ vq hvq
      rw [h.created] at hvq
      cases hvq

/-- A step that sets up no queue changes nothing. -/
theorem Fresh.keeps (h : Fresh vqNum s) {op : MmioOp}
    (hnone : op.CreatesNothing) (hstep : MmioStep vqNum s op t) :
    Fresh vqNum t := by
  obtain ⟨-, rfl⟩ := hstep
  cases op with
  | create args =>
    rcases @create_none s.dev args hnone with heq | heq
    all_goals
      refine ⟨?_, ?_⟩
      · simp only [MmioRun.exec, heq]
        exact h.counter
      · simp only [MmioRun.exec, heq]
        rw [h.created]
        rfl
  | isr status => exact h

theorem Fresh.eachStep_iff {ops : List MmioOp}
    (hrun : Path (MmioStep vqNum) s ops t) (h : Fresh vqNum s) :
    EachStep (MmioStep vqNum) s ops (StepOk vqNum) ↔
      ∀ op ∈ ops, op.CreatesNothing := by
  induction hrun with
  | nil s =>
    exact ⟨fun _ => List.forall_mem_nil _, fun _ => eachStep_nil s _⟩
  | @cons s m t op ops hstep hrest ih =>
    rw [List.forall_mem_cons, ← h.stepOk_iff hstep]
    have hdet : ∀ m', MmioStep vqNum s op m' → m' = m := fun m' hm' =>
      hm'.2.trans hstep.2.symm
    constructor
    · intro hall
      have hfirst := hall [] op ops s m rfl (.nil s) hstep
      refine ⟨hfirst, (ih (h.keeps ((h.stepOk_iff hstep).mp hfirst) hstep)).mp
        (hall.tail hstep)⟩
    · rintro ⟨hfirst, hlater⟩
      refine .cons hfirst fun m' hm' => ?_
      rw [hdet m' hm']
      exact (ih (h.keeps ((h.stepOk_iff hstep).mp hfirst) hstep)).mpr hlater

end Runs

/-- **The table is used as it should be exactly if no queue is ever set
up.** On any device, after any list of queues was registered, in every
run of successful creations and interrupts. -/
theorem vring_table_iff (dev : MmioDevice) (vqs : List Nat)
    (hint : vqs.length < 2 ^ 31) (memory : Nat → Option Nat)
    {ops : List MmioOp} {t : MmioRun}
    (hrun : Path (MmioStep vqs.length)
      ⟨virtioMmioRegisterDevice dev vqs memory, []⟩ ops t) :
    EachStep (MmioStep vqs.length)
        ⟨virtioMmioRegisterDevice dev vqs memory, []⟩ ops
        (StepOk vqs.length) ↔
      ∀ op ∈ ops, op.CreatesNothing := by
  refine Fresh.eachStep_iff hrun ⟨?_, rfl⟩
  show (UInt32.ofNat vqs.length).toNat = vqs.length
  rw [UInt32.toNat_ofNat']
  omega

/-- A driver whose queues all have a ring of four entries. -/
def mmioDriver : MmioDevice where
  role := .driver
  version := 1
  shmIo := flatRegion 0x1000 0x1000 0x10000
  vringsInfo := none
  vringsNum := 0
  queues := fun _ => ⟨4, 4, 0x1000, 0, none, none, 0⟩

/-- The driver with queue 0 registered. -/
def oneQueue : MmioRun :=
  ⟨virtioMmioRegisterDevice mmioDriver [0] fun _ => none, []⟩

/-- A creation of `nvqs` queues with one callback. -/
def createQueues (nvqs : UInt32) : MmioOp :=
  .create ⟨nvqs, some fun _ => none, some fun _ => some 7, none, fun _ => 4⟩

/-- Without a queue set up the interrupt handler stays in the table. -/
theorem vring_table_unused :
    EachStep (MmioStep 1) oneQueue [createQueues 0, .isr 1] (StepOk 1) := by
  have hrun : Path (MmioStep 1) oneQueue [createQueues 0, .isr 1]
      ((oneQueue.exec (createQueues 0)).exec (.isr 1)) :=
    .cons ⟨⟨by decide, rfl⟩, rfl⟩ (.cons ⟨trivial, rfl⟩ (.nil _))
  refine (vring_table_iff mmioDriver [0] (by decide) (fun _ => none)
    hrun).mpr ?_
  show ∀ op ∈ [createQueues 0, .isr 1], op.CreatesNothing
  simp only [List.forall_mem_cons, List.not_mem_nil, false_implies,
    implies_true, and_true]
  exact ⟨rfl, trivial⟩

/-- One queue, registered and set up: its entry is written behind the table,
and an interrupt calls it twice. -/
theorem vring_table_overrun :
    ((mmioDriver.queues 0).configured = true ∧
      (createQueues 1).Admissible 1 oneQueue) ∧
      .vringInfo 1 ∈ (createQueues 1).log oneQueue.dev ∧
      callsOf 0 ((MmioOp.isr 1).log (oneQueue.exec (createQueues 1)).dev) =
        2 ∧
      ¬ EachStep (MmioStep 1) oneQueue [createQueues 1, .isr 1]
        (StepOk 1) := by
  have hok : (createQueues 1).Admissible 1 oneQueue := ⟨by decide, by decide⟩
  have hin : .vringInfo 1 ∈ (createQueues 1).log oneQueue.dev := by decide
  refine ⟨⟨by decide, hok⟩, hin, by decide, fun hall => ?_⟩
  have hstep := hall [] (createQueues 1) [.isr 1] oneQueue _ rfl (.nil _)
    ⟨hok, rfl⟩
  exact absurd (hstep.table 1 hin) (by decide)

end OpenAmp.Virtio
