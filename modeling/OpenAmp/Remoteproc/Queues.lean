import OpenAmp.Lib.Transition
import OpenAmp.Rpmsg.Endpoint
import OpenAmp.Rpmsg.Reception

/-!
# Who owns a virtqueue

The creation and deletion of virtqueues in
`open-amp/lib/remoteproc/remoteproc_virtio.c`, as `rpmsg_init_vdev` and
`rpmsg_deinit_vdev` of `open-amp/lib/rpmsg/rpmsg_virtio.c` call them, over
a heap of virtqueue objects.

`vrings_info[i].vq` is what both decide from whether a queue exists.
Creation sets it; deletion frees what it points to and leaves it as it
is.
-/

namespace OpenAmp.Remoteproc

open OpenAmp.Lib OpenAmp.Metal OpenAmp.Virtio OpenAmp.Rpmsg

def ERROR_VQUEUE_INVLD_PARAM : Int := -3008
def ERROR_NO_MEM : Int := -3004
def RPMSG_NUM_VRINGS : Nat := 2

/-! ## Virtqueue objects -/

/-- The virtqueue objects by the order of their allocation: how many there
have been, and the calls that freed one, the last call first. -/
structure VqHeap where
  next : Nat
  freed : List Nat
deriving DecidableEq, Repr

/-- Allocated and not freed. -/
def VqHeap.Live (heap : VqHeap) (vq : Nat) : Prop :=
  vq < heap.next ∧ vq ∉ heap.freed

instance (heap : VqHeap) (vq : Nat) : Decidable (heap.Live vq) :=
  inferInstanceAs (Decidable (_ ∧ _))

/-- `virtqueue_free`. -/
def virtqueueFree (heap : VqHeap) (vq : Nat) : VqHeap :=
  { heap with freed := vq :: heap.freed }

/-- `struct virtio_vring_info`, without the memory of the ring. -/
structure VringInfo where
  notifyid : UInt32
  numDescs : UInt32
  vq : Option Nat
deriving DecidableEq, Repr

/-- A virtio device with the rpmsg device over it. `listed` tells whether
`rdev->endpoints` is a list, `up` whether the device is initialised. No
code reads `up`. -/
structure Vdev where
  role : VirtioRole
  notifyid : UInt32
  vringsInfo : List VringInfo
  listed : Bool
  up : Bool
deriving DecidableEq, Repr

/-- The loop of `rproc_virtio_delete_virtqueues`. -/
def rprocVirtioDeleteVirtqueues : List VringInfo → VqHeap → VqHeap
  | [], heap => heap
  | vring :: vrings, heap =>
    rprocVirtioDeleteVirtqueues vrings
      (match vring.vq with
        | some vq => virtqueueFree heap vq
        | none => heap)

/-- `rproc_virtio_create_virtqueue`; `alloc` tells whether the allocation
for queue `idx` succeeds. `virtqueue_create` checks nothing in this
build. -/
def rprocVirtioCreateVirtqueue (alloc : Nat → Bool) (vrings : List VringInfo)
    (idx : Nat) (heap : VqHeap) : Int × List VringInfo × VqHeap :=
  match vrings[idx]? with
  | none => (0, vrings, heap)
  | some vring =>
    if vring.vq ≠ none then (ERROR_VQUEUE_INVLD_PARAM, vrings, heap)
    else if alloc idx = false then (ERROR_NO_MEM, vrings, heap)
    else (0, vrings.set idx { vring with vq := some heap.next },
      { heap with next := heap.next + 1 })

/-- The loop of `rproc_virtio_create_virtqueues` with `left` rounds to go,
and its error path. -/
def createLoop (alloc : Nat → Bool) :
    Nat → Nat → List VringInfo → VqHeap → Int × List VringInfo × VqHeap
  | 0, _, vrings, heap => (0, vrings, heap)
  | left + 1, i, vrings, heap =>
    let (ret, vrings, heap) := rprocVirtioCreateVirtqueue alloc vrings i heap
    if ret ≠ 0 then (ret, vrings, rprocVirtioDeleteVirtqueues vrings heap)
    else createLoop alloc left (i + 1) vrings heap

/-- `rproc_virtio_create_virtqueues`. -/
def rprocVirtioCreateVirtqueues (alloc : Nat → Bool) (nvqs : Nat)
    (vrings : List VringInfo) (heap : VqHeap) :
    Int × List VringInfo × VqHeap :=
  if vrings.length < nvqs then (ERROR_VQUEUE_INVLD_PARAM, vrings, heap)
  else createLoop alloc nvqs 0 vrings heap

/-! ## Initialisation -/

/-- `struct rpmsg_virtio_config`. -/
structure RpmsgVirtioConfig where
  h2rBufSize : UInt32
  r2hBufSize : UInt32
  splitShpool : Bool
deriving DecidableEq, Repr

/-- What `rpmsg_init_vdev_with_config` is given: the region and the pools,
`none` for a null pointer, the configuration, and the allocations that
succeed. With `split_shpool` there is a second pool behind the first. -/
structure InitArgs where
  shmIo : Option MetalIoRegion
  shpool : Option (ShmPool × ShmPool)
  config : Option RpmsgVirtioConfig
  alloc : Nat → Bool

/-- The pool serves `k` more rounds of the loop over the receive queue. -/
def poolServes (r2hBufSize : UInt32) : Nat → ShmPool → Bool
  | 0, _ => true
  | k + 1, shpool =>
    let (buffer, shpool) :=
      rpmsgVirtioShmPoolGetBuffer shpool r2hBufSize.toUInt64
    buffer ≠ 0 && poolServes r2hBufSize k shpool

/-- `virtqueue_add_buffer` does not fail, so that this is what decides the
loop that lends the receive buffers. -/
theorem rpmsgInitRxBuffers_isSome (r2hBufSize : UInt32) (k : Nat) :
    ∀ (shpool : ShmPool) (rvq : Virtqueue) (ring : Vring),
    (rpmsgInitRxBuffers r2hBufSize k shpool rvq ring).isSome =
      poolServes r2hBufSize k shpool := by
  induction k with
  | zero =>
    intro shpool rvq ring
    rfl
  | succ k ih =>
    intro shpool rvq ring
    simp only [rpmsgInitRxBuffers, poolServes]
    split
    · next hnull => simp [hnull]
    · next hbuffer =>
      have hadd : (virtqueueAddBuffer rvq ring (fun _ =>
          ⟨(rpmsgVirtioShmPoolGetBuffer shpool r2hBufSize.toUInt64).1,
            r2hBufSize.toInt32⟩) 0 1
          (rpmsgVirtioShmPoolGetBuffer shpool r2hBufSize.toUInt64).1).1 =
            VQUEUE_SUCCESS := rfl
      rw [if_neg (not_not.mpr hadd), ih]
      simp [hbuffer]

/-- The checks of `rpmsg_init_vdev_with_config` before it comes to the
queues. `virtio_get_features` does not fail, nor does a device stop
waiting for its driver. -/
def rpmsgInitChecks (role : VirtioRole) (args : InitArgs) : Int :=
  if args.shmIo.isNone then RPMSG_ERR_PARAM
  else
    match role with
    | .device => RPMSG_SUCCESS
    | .driver =>
      match args.config, args.shpool with
      | none, _ => RPMSG_ERR_PARAM
      | some _, none => RPMSG_ERR_PARAM
      | some config, some (shpool, behind) =>
        let own := if config.splitShpool then behind else shpool
        if shpool.size = 0 ∨ own.size = 0 then RPMSG_ERR_NO_BUFF
        else RPMSG_SUCCESS

/-- The pool has a buffer for each entry of the receive queue, which is
the first queue of a driver. A device gets its buffers from the driver. -/
def rxBuffersServed (role : VirtioRole) (args : InitArgs)
    (vrings : List VringInfo) : Bool :=
  match role, args.config, args.shpool, vrings with
  | .driver, some config, some (shpool, _), vring :: _ =>
    poolServes config.r2hBufSize vring.numDescs.toUInt16.toNat shpool
  | _, _, _, _ => true

/-- `rpmsg_init_vdev_with_config`. The endpoint list is cleared at the
start, unless an argument is missing, and made at the end. -/
def rpmsgInitVdevWithConfig (args : InitArgs) (dev : Vdev) (heap : VqHeap) :
    Int × Vdev × VqHeap :=
  let status := rpmsgInitChecks dev.role args
  let dev := { dev with listed := dev.listed && args.shmIo.isNone }
  if status ≠ RPMSG_SUCCESS then (status, dev, heap)
  else
    let (status, vrings, heap) := rprocVirtioCreateVirtqueues args.alloc
      RPMSG_NUM_VRINGS dev.vringsInfo heap
    let dev := { dev with vringsInfo := vrings, up := false }
    if status ≠ RPMSG_SUCCESS then (status, dev, heap)
    else if rxBuffersServed dev.role args vrings = false then
      (RPMSG_ERR_NO_BUFF, dev, rprocVirtioDeleteVirtqueues vrings heap)
    else (RPMSG_SUCCESS, { dev with listed := true, up := true }, heap)

/-- `rpmsg_deinit_vdev`, its endpoints destroyed one by one. It follows
the pointers of the list, so without one there is no result. -/
def rpmsgDeinitVdev (dev : Vdev) (heap : VqHeap) : Option (Vdev × VqHeap) :=
  if dev.listed then
    some ({ dev with up := false },
      rprocVirtioDeleteVirtqueues dev.vringsInfo heap)
  else none

/-! ## What an initialisation can do -/

/-- The queues a device points to. -/
def queues (vrings : List VringInfo) : List Nat :=
  vrings.filterMap (·.vq)

theorem rprocVirtioDeleteVirtqueues_eq (vrings : List VringInfo)
    (heap : VqHeap) :
    rprocVirtioDeleteVirtqueues vrings heap =
      { heap with freed := (queues vrings).reverse ++ heap.freed } := by
  induction vrings generalizing heap with
  | nil => rfl
  | cons vring vrings ih =>
    rw [rprocVirtioDeleteVirtqueues, ih]
    cases hvq : vring.vq with
    | none => simp [queues, hvq]
    | some vq => simp [queues, hvq, virtqueueFree]

/-- The queue of a vring, set to `vq`. -/
def VringInfo.withQueue (vring : VringInfo) (vq : Nat) : VringInfo :=
  { vring with vq := some vq }

/-- The ends of `rpmsg_init_vdev_with_config`: it comes to no queue, or
stops at the first one, at the second, or at the buffers, or is done. -/
inductive InitEnd (args : InitArgs) (dev : Vdev) (heap : VqHeap) :
    Int → Vdev → VqHeap → Prop where
  | refused {ret : Int} (hne : ret ≠ 0)
      (h : rpmsgInitChecks dev.role args ≠ RPMSG_SUCCESS) :
      InitEnd args dev heap ret
        { dev with listed := dev.listed && args.shmIo.isNone } heap
  | short {ret : Int} (hne : ret ≠ 0)
      (h : rpmsgInitChecks dev.role args = RPMSG_SUCCESS)
      (hlen : dev.vringsInfo.length < RPMSG_NUM_VRINGS) :
      InitEnd args dev heap ret { dev with listed := false, up := false } heap
  | first {ret : Int} {v₀ v₁ : VringInfo} {rest : List VringInfo}
      (hne : ret ≠ 0)
      (h : rpmsgInitChecks dev.role args = RPMSG_SUCCESS)
      (hvrings : dev.vringsInfo = v₀ :: v₁ :: rest)
      (hfail : v₀.vq ≠ none ∨ args.alloc 0 = false) :
      InitEnd args dev heap ret
        { dev with
          vringsInfo := v₀ :: v₁ :: rest
          listed := false
          up := false }
        (rprocVirtioDeleteVirtqueues (v₀ :: v₁ :: rest) heap)
  | second {ret : Int} {v₀ v₁ : VringInfo} {rest : List VringInfo}
      (hne : ret ≠ 0)
      (h : rpmsgInitChecks dev.role args = RPMSG_SUCCESS)
      (hvrings : dev.vringsInfo = v₀ :: v₁ :: rest)
      (h₀ : v₀.vq = none) (ha₀ : args.alloc 0 = true)
      (hfail : v₁.vq ≠ none ∨ args.alloc 1 = false) :
      InitEnd args dev heap ret
        { dev with
          vringsInfo := v₀.withQueue heap.next :: v₁ :: rest
          listed := false
          up := false }
        (rprocVirtioDeleteVirtqueues (v₀.withQueue heap.next :: v₁ :: rest)
          { heap with next := heap.next + 1 })
  | buffers {ret : Int} {v₀ v₁ : VringInfo} {rest : List VringInfo}
      (hne : ret ≠ 0)
      (h : rpmsgInitChecks dev.role args = RPMSG_SUCCESS)
      (hvrings : dev.vringsInfo = v₀ :: v₁ :: rest)
      (h₀ : v₀.vq = none) (ha₀ : args.alloc 0 = true)
      (h₁ : v₁.vq = none) (ha₁ : args.alloc 1 = true)
      (hfail : rxBuffersServed dev.role args dev.vringsInfo = false) :
      InitEnd args dev heap ret
        { dev with
          vringsInfo := v₀.withQueue heap.next ::
            v₁.withQueue (heap.next + 1) :: rest
          listed := false
          up := false }
        (rprocVirtioDeleteVirtqueues (v₀.withQueue heap.next ::
            v₁.withQueue (heap.next + 1) :: rest)
          { heap with next := heap.next + 1 + 1 })
  | done {v₀ v₁ : VringInfo} {rest : List VringInfo}
      (h : rpmsgInitChecks dev.role args = RPMSG_SUCCESS)
      (hvrings : dev.vringsInfo = v₀ :: v₁ :: rest)
      (h₀ : v₀.vq = none) (ha₀ : args.alloc 0 = true)
      (h₁ : v₁.vq = none) (ha₁ : args.alloc 1 = true)
      (hserved : rxBuffersServed dev.role args dev.vringsInfo = true) :
      InitEnd args dev heap 0
        { dev with
          vringsInfo := v₀.withQueue heap.next ::
            v₁.withQueue (heap.next + 1) :: rest
          listed := true
          up := true }
        { heap with next := heap.next + 1 + 1 }

section Create

variable {alloc : Nat → Bool} {v₀ v₁ : VringInfo} {rest : List VringInfo}
  {heap : VqHeap}

theorem createVirtqueues_loop :
    rprocVirtioCreateVirtqueues alloc RPMSG_NUM_VRINGS (v₀ :: v₁ :: rest)
      heap = createLoop alloc 2 0 (v₀ :: v₁ :: rest) heap :=
  if_neg (by simp [RPMSG_NUM_VRINGS])

theorem createVirtqueues_first (hfail : v₀.vq ≠ none ∨ alloc 0 = false)
    (v₁ : VringInfo) (rest : List VringInfo) (heap : VqHeap) :
    ∃ ret, ret ≠ 0 ∧
      rprocVirtioCreateVirtqueues alloc RPMSG_NUM_VRINGS (v₀ :: v₁ :: rest)
        heap = (ret, v₀ :: v₁ :: rest,
          rprocVirtioDeleteVirtqueues (v₀ :: v₁ :: rest) heap) := by
  by_cases h₀ : v₀.vq = none
  · have ha₀ := hfail.resolve_left (not_not.mpr h₀)
    refine ⟨ERROR_NO_MEM, by decide, ?_⟩
    simp [createVirtqueues_loop, createLoop, rprocVirtioCreateVirtqueue,
      h₀, ha₀, ERROR_NO_MEM]
  · refine ⟨ERROR_VQUEUE_INVLD_PARAM, by decide, ?_⟩
    simp [createVirtqueues_loop, createLoop, rprocVirtioCreateVirtqueue,
      h₀, ERROR_VQUEUE_INVLD_PARAM]

theorem createVirtqueues_second (h₀ : v₀.vq = none) (ha₀ : alloc 0 = true)
    (hfail : v₁.vq ≠ none ∨ alloc 1 = false) (rest : List VringInfo)
    (heap : VqHeap) :
    ∃ ret, ret ≠ 0 ∧
      rprocVirtioCreateVirtqueues alloc RPMSG_NUM_VRINGS (v₀ :: v₁ :: rest)
        heap = (ret, v₀.withQueue heap.next :: v₁ :: rest,
          rprocVirtioDeleteVirtqueues (v₀.withQueue heap.next :: v₁ :: rest)
            { heap with next := heap.next + 1 }) := by
  by_cases h₁ : v₁.vq = none
  · have ha₁ := hfail.resolve_left (not_not.mpr h₁)
    refine ⟨ERROR_NO_MEM, by decide, ?_⟩
    simp [createVirtqueues_loop, createLoop, rprocVirtioCreateVirtqueue,
      h₀, ha₀, h₁, ha₁, ERROR_NO_MEM,
      VringInfo.withQueue]
  · refine ⟨ERROR_VQUEUE_INVLD_PARAM, by decide, ?_⟩
    simp [createVirtqueues_loop, createLoop, rprocVirtioCreateVirtqueue,
      h₀, ha₀, h₁, ERROR_VQUEUE_INVLD_PARAM,
      VringInfo.withQueue]

theorem createVirtqueues_both (h₀ : v₀.vq = none) (ha₀ : alloc 0 = true)
    (h₁ : v₁.vq = none) (ha₁ : alloc 1 = true) :
    rprocVirtioCreateVirtqueues alloc RPMSG_NUM_VRINGS (v₀ :: v₁ :: rest)
      heap = (0, v₀.withQueue heap.next ::
        v₁.withQueue (heap.next + 1) :: rest,
        { heap with next := heap.next + 1 + 1 }) := by
  simp [createVirtqueues_loop, createLoop, rprocVirtioCreateVirtqueue,
    h₀, ha₀, h₁, ha₁, VringInfo.withQueue]

end Create

/-- A check that passes has been given a region. -/
theorem shmIo_of_checks {role : VirtioRole} {args : InitArgs}
    (h : rpmsgInitChecks role args = RPMSG_SUCCESS) :
    args.shmIo.isNone = false := by
  cases hio : args.shmIo with
  | some io => rfl
  | none =>
    have hbad : rpmsgInitChecks role args = RPMSG_ERR_PARAM := by
      unfold rpmsgInitChecks
      rw [hio]
      rfl
    rw [hbad] at h
    exact absurd h (by decide)

section Init

variable {args : InitArgs} {dev : Vdev} {heap heap' : VqHeap}
  {vrings : List VringInfo}

theorem rpmsgInitVdevWithConfig_failed {status : Int}
    (hchecks : rpmsgInitChecks dev.role args = RPMSG_SUCCESS)
    (hcreate : rprocVirtioCreateVirtqueues args.alloc RPMSG_NUM_VRINGS
      dev.vringsInfo heap = (status, vrings, heap')) (hne : status ≠ 0) :
    rpmsgInitVdevWithConfig args dev heap = (status,
      { dev with vringsInfo := vrings, listed := false, up := false },
      heap') := by
  rw [rpmsgInitVdevWithConfig, if_neg (not_not.mpr hchecks)]
  simp only [hcreate, shmIo_of_checks hchecks, Bool.and_false]
  exact if_pos hne

theorem rpmsgInitVdevWithConfig_created
    (hchecks : rpmsgInitChecks dev.role args = RPMSG_SUCCESS)
    (hcreate : rprocVirtioCreateVirtqueues args.alloc RPMSG_NUM_VRINGS
      dev.vringsInfo heap = (0, vrings, heap')) :
    rpmsgInitVdevWithConfig args dev heap =
      if rxBuffersServed dev.role args vrings = false then
        (RPMSG_ERR_NO_BUFF,
          { dev with vringsInfo := vrings, listed := false, up := false },
          rprocVirtioDeleteVirtqueues vrings heap')
      else (RPMSG_SUCCESS,
        { dev with vringsInfo := vrings, listed := true, up := true },
        heap') := by
  rw [rpmsgInitVdevWithConfig, if_neg (not_not.mpr hchecks)]
  simp only [hcreate, shmIo_of_checks hchecks, Bool.and_false]
  exact if_neg (not_not.mpr rfl)

/-- The number of buffers is that of the vring. -/
theorem rxBuffersServed_withQueue (role : VirtioRole) (args : InitArgs)
    (v₀ : VringInfo) (q : Nat) (rest rest' : List VringInfo) :
    rxBuffersServed role args (v₀.withQueue q :: rest) =
      rxBuffersServed role args (v₀ :: rest') := by
  unfold rxBuffersServed
  cases role <;> cases args.config <;> cases args.shpool <;> rfl

/-- **One initialisation** ends in one of these ways. -/
theorem rpmsgInitVdevWithConfig_end (args : InitArgs) (dev : Vdev)
    (heap : VqHeap) : ∃ ret dev' heap',
    rpmsgInitVdevWithConfig args dev heap = (ret, dev', heap') ∧
      InitEnd args dev heap ret dev' heap' := by
  by_cases hchecks : rpmsgInitChecks dev.role args = RPMSG_SUCCESS
  swap
  · rw [rpmsgInitVdevWithConfig, if_pos hchecks]
    exact ⟨_, _, _, rfl, .refused hchecks hchecks⟩
  by_cases hlen : dev.vringsInfo.length < RPMSG_NUM_VRINGS
  · have hcreate : rprocVirtioCreateVirtqueues args.alloc RPMSG_NUM_VRINGS
        dev.vringsInfo heap = (ERROR_VQUEUE_INVLD_PARAM, dev.vringsInfo, heap) :=
      if_pos hlen
    have hne : ERROR_VQUEUE_INVLD_PARAM ≠ 0 := by decide
    rw [rpmsgInitVdevWithConfig_failed hchecks hcreate hne]
    exact ⟨_, _, _, rfl, .short hne hchecks hlen⟩
  obtain ⟨v₀, v₁, rest, hvrings⟩ : ∃ v₀ v₁ rest,
      dev.vringsInfo = v₀ :: v₁ :: rest := by
    match hv : dev.vringsInfo with
    | [] => simp [hv, RPMSG_NUM_VRINGS] at hlen
    | [_] => simp [hv, RPMSG_NUM_VRINGS] at hlen
    | v₀ :: v₁ :: rest => exact ⟨v₀, v₁, rest, rfl⟩
  by_cases hfirst : v₀.vq ≠ none ∨ args.alloc 0 = false
  · obtain ⟨ret, hne, hcreate⟩ := createVirtqueues_first hfirst v₁ rest heap
    rw [rpmsgInitVdevWithConfig_failed hchecks (by rw [hvrings, hcreate]) hne]
    exact ⟨_, _, _, rfl, .first hne hchecks hvrings hfirst⟩
  -- from here on the first queue exists, and an error deletes it
  obtain ⟨h₀, ha₀⟩ := not_or.mp hfirst
  rw [not_not] at h₀
  rw [Bool.not_eq_false] at ha₀
  by_cases hsecond : v₁.vq ≠ none ∨ args.alloc 1 = false
  · obtain ⟨ret, hne, hcreate⟩ :=
      createVirtqueues_second h₀ ha₀ hsecond rest heap
    rw [rpmsgInitVdevWithConfig_failed hchecks (by rw [hvrings, hcreate]) hne]
    exact ⟨_, _, _, rfl, .second hne hchecks hvrings h₀ ha₀ hsecond⟩
  obtain ⟨h₁, ha₁⟩ := not_or.mp hsecond
  rw [not_not] at h₁
  rw [Bool.not_eq_false] at ha₁
  rw [rpmsgInitVdevWithConfig_created hchecks
    (by rw [hvrings, createVirtqueues_both h₀ ha₀ h₁ ha₁])]
  -- the buffers are taken from the pool, not from the vrings
  rw [rxBuffersServed_withQueue _ _ _ _ _ (v₁ :: rest), ← hvrings]
  have hne : RPMSG_ERR_NO_BUFF ≠ 0 := by decide
  split
  · next hdry =>
    exact ⟨_, _, _, rfl, .buffers hne hchecks hvrings h₀ ha₀ h₁ ha₁ hdry⟩
  · next hok =>
    rw [Bool.not_eq_false] at hok
    exact ⟨_, _, _, rfl, .done hchecks hvrings h₀ ha₀ h₁ ha₁ hok⟩

end Init

/-! ## The invariant -/

/-- What holds of a device in any order of calls: there are queues for the
first two vrings only, none of them freed while it is initialised, all of
them freed while it is not. -/
structure Vdev.Queues (dev : Vdev) (heap : VqHeap) : Prop where
  below : ∀ q ∈ queues dev.vringsInfo, q < heap.next
  two : ∀ v ∈ dev.vringsInfo.drop 2, v.vq = none
  up : dev.up = true → 2 ≤ dev.vringsInfo.length ∧
    ∀ v ∈ dev.vringsInfo.take 2, ∃ q, v.vq = some q ∧ q ∉ heap.freed
  down : dev.up = false → ∀ q ∈ queues dev.vringsInfo, q ∈ heap.freed

/-- Only allocated objects are freed. -/
def VqHeap.Sound (heap : VqHeap) : Prop := ∀ q ∈ heap.freed, q < heap.next

theorem mem_queues {vrings : List VringInfo} {q : Nat} :
    q ∈ queues vrings ↔ ∃ v ∈ vrings, v.vq = some q := by
  simp [queues]

theorem queues_eq_nil_iff {vrings : List VringInfo} :
    queues vrings = [] ↔ ∀ v ∈ vrings, v.vq = none :=
  List.filterMap_eq_nil_iff

/-- What a call on one device does to the others: objects are allocated,
and only its own are freed. -/
structure OwnsChange (dev : Vdev) (heap : VqHeap) (dev' : Vdev)
    (heap' : VqHeap) : Prop where
  next : heap.next ≤ heap'.next
  freed : ∀ q ∈ heap.freed, q ∈ heap'.freed
  frees : ∀ q ∈ heap'.freed,
    q ∈ heap.freed ∨ q ∈ queues dev.vringsInfo ∨ heap.next ≤ q
  own : ∀ q ∈ queues dev'.vringsInfo,
    q ∈ queues dev.vringsInfo ∨ heap.next ≤ q

/-- What is kept by a call. -/
structure Keeps (dev : Vdev) (heap : VqHeap) (dev' : Vdev) (heap' : VqHeap) :
    Prop where
  queues : dev'.Queues heap'
  sound : heap'.Sound
  change : OwnsChange dev heap dev' heap'

/-- A deletion after which the device is not initialised, with no more
queues than new ones before it. -/
theorem Keeps.deleted {dev dev' : Vdev} {heap heap₁ : VqHeap}
    (hheap : heap.Sound) (hnext : heap.next ≤ heap₁.next)
    (hfreed : heap₁.freed = heap.freed)
    (hown : ∀ q ∈ Remoteproc.queues dev'.vringsInfo, q < heap₁.next ∧
      (q ∈ Remoteproc.queues dev.vringsInfo ∨ heap.next ≤ q))
    (htwo : ∀ v ∈ dev'.vringsInfo.drop 2, v.vq = none)
    (hup : dev'.up = false) :
    Keeps dev heap dev'
      (rprocVirtioDeleteVirtqueues dev'.vringsInfo heap₁) := by
  have hmem : ∀ q ∈ (rprocVirtioDeleteVirtqueues dev'.vringsInfo heap₁).freed,
      q ∈ Remoteproc.queues dev'.vringsInfo ∨ q ∈ heap.freed := by
    intro q hq
    simpa [rprocVirtioDeleteVirtqueues_eq, hfreed] using hq
  rw [rprocVirtioDeleteVirtqueues_eq] at hmem ⊢
  constructor
  case queues =>
    refine ⟨fun q hq => (hown q hq).1, htwo, fun h => ?_, fun _ q hq => ?_⟩
    · rw [hup] at h
      cases h
    · simp [hq]
  case sound =>
    intro q hq
    rcases hmem q hq with hq | hq
    · exact (hown q hq).1
    · exact Nat.lt_of_lt_of_le (hheap q hq) hnext
  case change =>
    refine ⟨hnext, fun q hq => ?_, fun q hq => ?_, fun q hq => (hown q hq).2⟩
    · simp [hfreed, hq]
    · rcases hmem q hq with hq | hq
      · exact .inr (hown q hq).2
      · exact .inl hq

/-- A call that leaves the queues alone. -/
theorem Keeps.quiet {dev dev' : Vdev} {heap : VqHeap} (hdev : dev.Queues heap)
    (hheap : heap.Sound) (hvrings : dev'.vringsInfo = dev.vringsInfo)
    (hup : dev'.up = dev.up) : Keeps dev heap dev' heap := by
  obtain ⟨hbelow, htwo, hlive, hdown⟩ := hdev
  refine ⟨⟨?_, ?_, ?_, ?_⟩, hheap, Nat.le_refl _, fun _ hq => hq,
    fun _ hq => .inl hq, fun q hq => ?_⟩
  · rwa [hvrings]
  · rwa [hvrings]
  · rwa [hvrings, hup]
  · rwa [hvrings, hup]
  · rw [hvrings] at hq
    exact .inl hq

theorem Vdev.Queues.rest {dev : Vdev} {heap : VqHeap}
    (hdev : dev.Queues heap) {v₀ v₁ : VringInfo} {rest : List VringInfo}
    (hvrings : dev.vringsInfo = v₀ :: v₁ :: rest) :
    ∀ v ∈ rest, v.vq = none := by
  intro v hv
  apply hdev.two
  rw [hvrings]
  exact hv

/-- Both queues are new and there are no more. -/
theorem Vdev.Queues.created {dev : Vdev} {heap : VqHeap}
    (hdev : dev.Queues heap) {v₀ v₁ : VringInfo} {rest : List VringInfo}
    (hvrings : dev.vringsInfo = v₀ :: v₁ :: rest) (n m : Nat) :
    Remoteproc.queues (v₀.withQueue n :: v₁.withQueue m :: rest) = [n, m] := by
  have hrest : Remoteproc.queues rest = [] :=
    queues_eq_nil_iff.mpr (hdev.rest hvrings)
  change n :: m :: Remoteproc.queues rest = _
  rw [hrest]

/-- **An initialisation keeps the invariant.** -/
theorem InitEnd.keeps {args : InitArgs} {dev dev' : Vdev}
    {heap heap' : VqHeap} {ret : Int}
    (h : InitEnd args dev heap ret dev' heap') (hdev : dev.Queues heap)
    (hheap : heap.Sound) : Keeps dev heap dev' heap' := by
  cases h with
  | refused hne h => exact .quiet hdev hheap rfl rfl
  | short hne h hlen =>
    -- a device with less than two vrings has never been initialised
    have hup : dev.up = false := by
      by_contra hup
      have := (hdev.up (by simpa using hup)).1
      simp only [RPMSG_NUM_VRINGS] at hlen
      omega
    exact .quiet hdev hheap rfl hup.symm
  | first hne h hvrings hfail =>
    refine .deleted hheap (Nat.le_refl _) rfl ?_ ?_ rfl
    · intro q hq
      rw [← hvrings] at hq
      exact ⟨hdev.below q hq, .inl hq⟩
    · rw [← hvrings]
      exact hdev.two
  | @second _ v₀ v₁ rest hne h hvrings h₀ ha₀ hfail =>
    refine .deleted hheap (Nat.le_succ _) rfl ?_ ?_ rfl
    · intro q hq
      rcases List.mem_cons.mp hq with rfl | hq
      · exact ⟨Nat.lt_succ_self _, .inr (Nat.le_refl _)⟩
      · have hq : q ∈ Remoteproc.queues dev.vringsInfo := by
          rw [hvrings, Remoteproc.queues, List.filterMap_cons_none h₀]
          exact hq
        exact ⟨Nat.lt_succ_of_lt (hdev.below q hq), .inl hq⟩
    · exact hdev.rest hvrings
  | @buffers _ v₀ v₁ rest hne h hvrings h₀ ha₀ h₁ ha₁ hfail =>
    refine .deleted hheap (Nat.le_add_right _ 2) rfl ?_ ?_ rfl
    · intro q hq
      rw [hdev.created hvrings] at hq
      simp only [List.mem_cons, List.not_mem_nil, or_false] at hq
      show q < heap.next + 1 + 1 ∧ _
      omega
    · exact hdev.rest hvrings
  | @done v₀ v₁ rest h hvrings h₀ ha₀ h₁ ha₁ hserved =>
    have hnew : ∀ q, heap.next ≤ q → q ∉ heap.freed := by
      intro q hle hq
      have := hheap q hq
      omega
    have hqueues : ∀ q ∈ Remoteproc.queues (v₀.withQueue heap.next ::
        v₁.withQueue (heap.next + 1) :: rest),
        heap.next ≤ q ∧ q < heap.next + 1 + 1 := by
      intro q hq
      rw [hdev.created hvrings] at hq
      simp only [List.mem_cons, List.not_mem_nil, or_false] at hq
      omega
    constructor
    case queues =>
      refine ⟨fun q hq => (hqueues q hq).2, ?_, fun _ => ⟨?_, ?_⟩, ?_⟩
      · exact hdev.rest hvrings
      · simp
      · intro v hv
        simp only [List.take_succ_cons, List.take_zero, List.mem_cons,
          List.not_mem_nil, or_false] at hv
        rcases hv with rfl | rfl
        · exact ⟨heap.next, rfl, hnew _ (by omega)⟩
        · exact ⟨heap.next + 1, rfl, hnew _ (by omega)⟩
      · exact fun h => nomatch h
    case sound =>
      intro q hq
      have := hheap q hq
      show q < heap.next + 1 + 1
      omega
    case change =>
      refine ⟨by simp only; omega, fun _ hq => hq, fun _ hq => .inl hq, ?_⟩
      exact fun q hq => .inr (hqueues q hq).1

/-- And so does `rpmsg_deinit_vdev`. -/
theorem rpmsgDeinitVdev_keeps {dev dev' : Vdev} {heap heap' : VqHeap}
    (h : rpmsgDeinitVdev dev heap = some (dev', heap'))
    (hdev : dev.Queues heap) (hheap : heap.Sound) :
    Keeps dev heap dev' heap' := by
  unfold rpmsgDeinitVdev at h
  split at h
  · cases h
    exact .deleted hheap (Nat.le_refl _) rfl
      (fun q hq => ⟨hdev.below q hq, .inl hq⟩) hdev.two rfl
  · cases h

/-! ## Ownership over re-initialisation -/

/-- The calls on one device. -/
inductive VdevCall where
  | init (args : InitArgs)
  | deinit

/-- A device and the virtqueue objects. -/
structure VdevState where
  dev : Vdev
  heap : VqHeap

/-- One call; `rpmsg_init_vdev` is called only on a device that is not
initialised. -/
inductive VdevStep : VdevState → VdevCall → VdevState → Prop where
  | init {s : VdevState} (args : InitArgs) (hup : s.dev.up = false) :
      VdevStep s (.init args)
        ⟨(rpmsgInitVdevWithConfig args s.dev s.heap).2.1,
          (rpmsgInitVdevWithConfig args s.dev s.heap).2.2⟩
  | deinit {s : VdevState} {dev : Vdev} {heap : VqHeap}
      (h : rpmsgDeinitVdev s.dev s.heap = some (dev, heap)) :
      VdevStep s .deinit ⟨dev, heap⟩

/-- `rproc_virtio_create_vdev` and `rproc_virtio_init_vring`: no queues
yet, for any number of vrings. -/
structure Vdev.IsNew (dev : Vdev) : Prop where
  vq : ∀ v ∈ dev.vringsInfo, v.vq = none
  listed : dev.listed = false
  up : dev.up = false

theorem Vdev.IsNew.queues_eq_nil {dev : Vdev} (h : dev.IsNew) :
    Remoteproc.queues dev.vringsInfo = [] :=
  queues_eq_nil_iff.mpr h.vq

theorem Vdev.IsNew.queues {dev : Vdev} (h : dev.IsNew) (heap : VqHeap) :
    dev.Queues heap where
  below := by
    rw [h.queues_eq_nil]
    exact fun q hq => nomatch hq
  two := fun v hv => h.vq v (List.mem_of_mem_drop hv)
  up := by
    intro hup
    rw [h.up] at hup
    cases hup
  down := by
    rw [h.queues_eq_nil]
    exact fun _ q hq => nomatch hq

/-- Everything `rpmsg_init_vdev` needs is there. -/
structure Resources (args : InitArgs) (dev : Vdev) : Prop where
  checks : rpmsgInitChecks dev.role args = RPMSG_SUCCESS
  vrings : RPMSG_NUM_VRINGS ≤ dev.vringsInfo.length
  first : args.alloc 0 = true
  second : args.alloc 1 = true
  buffers : rxBuffersServed dev.role args dev.vringsInfo = true

/-- Every queue pointed to is live, none was freed twice, and a device
that is not initialised can be. -/
structure VqOwned (s : VdevState) : Prop where
  live : ∀ v ∈ s.dev.vringsInfo, ∀ q, v.vq = some q → s.heap.Live q
  once : s.heap.freed.Nodup
  again : s.dev.up = false → ∀ args, Resources args s.dev →
    (rpmsgInitVdevWithConfig args s.dev s.heap).1 = RPMSG_SUCCESS

/-- The initialisation fails behind the allocation of its first queue. -/
structure FailsLate (args : InitArgs) (dev : Vdev) : Prop where
  checks : rpmsgInitChecks dev.role args = RPMSG_SUCCESS
  vrings : RPMSG_NUM_VRINGS ≤ dev.vringsInfo.length
  first : args.alloc 0 = true
  fails : args.alloc 1 = false ∨
    rxBuffersServed dev.role args dev.vringsInfo = false

/-- What a call must not do: delete queues that exist. -/
def VdevCall.Clean (s : VdevState) : VdevCall → Prop
  | .init args => ¬ FailsLate args s.dev
  | .deinit => s.dev.up = false

section Owned

variable {args : InitArgs} {dev : Vdev} {heap : VqHeap}

theorem rpmsgInitVdevWithConfig_succeeds (hnone : queues dev.vringsInfo = [])
    (h : Resources args dev) :
    (rpmsgInitVdevWithConfig args dev heap).1 = RPMSG_SUCCESS := by
  have hvq := queues_eq_nil_iff.mp hnone
  obtain ⟨ret, dev', heap', heq, hend⟩ :=
    rpmsgInitVdevWithConfig_end args dev heap
  rw [heq]
  cases hend with
  | refused hne hbad => exact absurd h.checks hbad
  | short hne hok hlen => exact absurd h.vrings (by omega)
  | first hne hok hvrings hfail =>
    rcases hfail with hfail | hfail
    · exact absurd (hvq _ (by rw [hvrings]; simp)) hfail
    · rw [h.first] at hfail
      cases hfail
  | second hne hok hvrings h₀ ha₀ hfail =>
    rcases hfail with hfail | hfail
    · exact absurd (hvq _ (by rw [hvrings]; simp)) hfail
    · rw [h.second] at hfail
      cases hfail
  | buffers hne hok hvrings h₀ ha₀ h₁ ha₁ hfail =>
    rw [h.buffers] at hfail
    cases hfail
  | done => rfl

/-- A device without queues can be initialised. -/
theorem VqOwned.of_none (hnone : queues dev.vringsInfo = [])
    (hfreed : heap.freed.Nodup) : VqOwned ⟨dev, heap⟩ where
  live := by
    intro v hv q hq
    have hmem : q ∈ queues dev.vringsInfo := mem_queues.mpr ⟨v, hv, hq⟩
    rw [hnone] at hmem
    cases hmem
  once := hfreed
  again := fun _ _ h => rpmsgInitVdevWithConfig_succeeds hnone h

/-- A device does not own a queue that it has deleted. -/
theorem not_owned_of_deleted {s : VdevState} {q : Nat}
    (hq : q ∈ queues s.dev.vringsInfo)
    (hheap : s.heap = rprocVirtioDeleteVirtqueues s.dev.vringsInfo heap) :
    ¬ VqOwned s := by
  intro h
  obtain ⟨v, hv, hvq⟩ := mem_queues.mp hq
  apply (h.live v hv q hvq).2
  rw [hheap, rprocVirtioDeleteVirtqueues_eq]
  simp [hq]

theorem rprocVirtioDeleteVirtqueues_none (hnone : queues dev.vringsInfo = []) :
    rprocVirtioDeleteVirtqueues dev.vringsInfo heap = heap := by
  rw [rprocVirtioDeleteVirtqueues_eq, hnone]
  rfl

/-- What a device owns is live, so one that is not initialised points to
no queue. -/
theorem VqOwned.queues_eq_nil {s : VdevState} (h : VqOwned s)
    (hdev : s.dev.Queues s.heap) (hup : s.dev.up = false) :
    queues s.dev.vringsInfo = [] := by
  rw [List.eq_nil_iff_forall_not_mem]
  intro q hq
  obtain ⟨v, hv, hvq⟩ := mem_queues.mp hq
  exact (h.live v hv q hvq).2 (hdev.down hup q hq)

end Owned

/-- **One call** leaves a device with what it owns exactly when it deletes
no queue that exists. -/
theorem VdevStep.owned_iff {s t : VdevState} {c : VdevCall}
    (hstep : VdevStep s c t) (hdev : s.dev.Queues s.heap)
    (hheap : s.heap.Sound) (hs : VqOwned s) : VqOwned t ↔ c.Clean s := by
  cases hstep with
  | deinit h =>
    unfold rpmsgDeinitVdev at h
    split at h
    swap
    · cases h
    cases h
    cases hup : s.dev.up with
    | false =>
      have hnone := hs.queues_eq_nil hdev hup
      rw [rprocVirtioDeleteVirtqueues_none hnone]
      exact iff_of_true (.of_none hnone hs.once) hup
    | true =>
      -- its queues are freed, but the vrings keep pointing to them
      obtain ⟨hlen, hlive⟩ := hdev.up hup
      obtain ⟨v, hv⟩ : ∃ v, v ∈ s.dev.vringsInfo.take 2 :=
        List.exists_mem_of_length_pos (by rw [List.length_take]; omega)
      obtain ⟨q, hvq, -⟩ := hlive v hv
      have hq : q ∈ queues s.dev.vringsInfo :=
        mem_queues.mpr ⟨v, List.mem_of_mem_take hv, hvq⟩
      refine iff_of_false (not_owned_of_deleted hq rfl) ?_
      simp [VdevCall.Clean, hup]
  | init args hup =>
    have hnone := hs.queues_eq_nil hdev hup
    have hvq := queues_eq_nil_iff.mp hnone
    obtain ⟨ret, dev, heap, heq, hend⟩ :=
      rpmsgInitVdevWithConfig_end args s.dev s.heap
    have hkeeps := hend.keeps hdev hheap
    rw [heq]
    simp only [VdevCall.Clean]
    cases hend with
    | refused hne hbad =>
      exact iff_of_true (.of_none hnone hs.once) fun hlate =>
        hbad hlate.checks
    | short hne hok hlen =>
      refine iff_of_true (.of_none hnone hs.once) fun hlate => ?_
      have := hlate.vrings
      omega
    | first hne hok hvrings hfail =>
      have ha₀ := hfail.resolve_left
        (not_not.mpr (hvq _ (by rw [hvrings]; simp)))
      rw [← hvrings, rprocVirtioDeleteVirtqueues_none hnone]
      refine iff_of_true (.of_none hnone hs.once) fun hlate => ?_
      rw [hlate.first] at ha₀
      cases ha₀
    | @second _ v₀ v₁ rest hne hok hvrings h₀ ha₀ hfail =>
      -- the first queue was made and is freed again
      have ha₁ := hfail.resolve_left
        (not_not.mpr (hvq _ (by rw [hvrings]; simp)))
      refine iff_of_false (not_owned_of_deleted (q := s.heap.next) ?_ rfl)
        (not_not.mpr ⟨hok, ?_, ha₀, .inl ha₁⟩)
      · exact List.mem_cons_self
      · rw [hvrings]
        simp [RPMSG_NUM_VRINGS]
    | @buffers _ v₀ v₁ rest hne hok hvrings h₀ ha₀ h₁ ha₁ hfail =>
      refine iff_of_false (not_owned_of_deleted (q := s.heap.next) ?_ rfl)
        (not_not.mpr ⟨hok, ?_, ha₀, .inr hfail⟩)
      · exact List.mem_cons_self
      · rw [hvrings]
        simp [RPMSG_NUM_VRINGS]
    | @done v₀ v₁ rest hok hvrings h₀ ha₀ h₁ ha₁ hserved =>
      refine iff_of_true ⟨?_, hs.once, fun h => nomatch h⟩ fun hlate => ?_
      · intro v hv q hvq
        have hq := mem_queues.mpr ⟨v, hv, hvq⟩
        refine ⟨hkeeps.queues.below q hq, fun hfreed => ?_⟩
        rw [hdev.created hvrings] at hq
        -- both are new, so neither can have been freed before
        simp only [List.mem_cons, List.not_mem_nil, or_false] at hq
        have := hheap q hfreed
        omega
      · rcases hlate.fails with hno | hno
        · rw [ha₁] at hno
          cases hno
        · rw [hserved] at hno
          cases hno

/-- A device with two vrings of 8 descriptors, on the side that is not
the driver. -/
def remoteVdev : Vdev where
  role := .device
  notifyid := 1
  vringsInfo := [⟨2, 8, none⟩, ⟨3, 8, none⟩]
  listed := false
  up := false

theorem remoteVdev_isNew : remoteVdev.IsNew := ⟨by decide, rfl, rfl⟩

/-- Arguments with which it can be initialised, if there is memory. -/
def remoteArgs (memory : Bool) : InitArgs where
  shmIo := some (metalIoInit 0x1000 none 0x1000 63)
  shpool := none
  config := none
  alloc := fun _ => memory

end OpenAmp.Remoteproc
