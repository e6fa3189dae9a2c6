import OpenAmp.Lib.Counted
import OpenAmp.Rpmsg.Endpoint

/-!
# Endpoints used by several threads

The functions of `rpmsg.c` and `rpmsg_virtio.c` hold `rdev->lock` for a
part of their work only. Here each part under the lock is one step, and so
is each part between two of them: the user callbacks, the announcements
and what is read of an endpoint meanwhile. Any number of calls can be in
progress at a time, nested or on threads of their own; their steps
interleave in any order. A step that would follow a device pointer that
is cleared has no successor.

A dispatch of a message occupies a receive buffer until it is done, so
that there are no more dispatches in progress than the queue has entries.
The name service works inside the dispatch of a message to its own
endpoint.
-/

namespace OpenAmp.Rpmsg

open OpenAmp.Lib OpenAmp.Metal

/-! ## Calls in progress -/

/-- How far `rpmsg_virtio_ns_callback` has come with a `RPMSG_NS_DESTROY`:
the endpoint was selected, its unbind callback runs, or has returned. -/
inductive NsPhase where
  | selected
  | unbinding
  | unbound
deriving DecidableEq, Repr

/-- The endpoint it works on, and whether it took a reference to it. -/
structure NsWork where
  ept : Nat
  counted : Bool
  phase : NsPhase
deriving DecidableEq, Repr

/-- How far a round of `rpmsg_virtio_rx_callback` has come: the endpoint
was found for a message from `src`, its callback runs, the callback is that
of the name service and handles a destruction, or it has returned. -/
inductive TaskPhase where
  | found (src : UInt32)
  | calling
  | naming (work : NsWork)
  | returned
deriving DecidableEq, Repr

/-- A message being dispatched to an endpoint. -/
structure RxTask where
  ept : Nat
  phase : TaskPhase
deriving DecidableEq, Repr

/-- The device, the dispatches in progress, the calls of
`rpmsg_create_ept` that have registered and those that announce, the calls
of `rpmsg_destroy_ept` that are about to unregister, and the calls of
release callbacks so far. -/
structure EptSystem where
  rdev : RpmsgDevice
  rx : List RxTask
  creating : List Nat
  announcing : List Nat
  destroying : List Nat
  released : List Nat

/-- `rpmsg_ept_decref`, with the call of the release callback. -/
def EptSystem.decref (s : EptSystem) (ept : Nat) : EptSystem :=
  let e := s.rdev.epts ept
  { s with
    rdev := s.rdev.modify ept rpmsgEptDecref
    released := s.released ++
      if e.refcnt - 1 = 0 ∧ e.releaseCb = true then [ept] else [] }

/-- `rpmsg_unregister_endpoint`, with the call of the release callback. -/
def EptSystem.unregister (s : EptSystem) (ept : Nat) : EptSystem :=
  let e := s.rdev.epts ept
  { s with
    rdev := rpmsgUnregisterEndpoint s.rdev ept
    released := s.released ++
      if e.refcnt - 1 = 0 ∧ e.releaseCb = true then [ept] else [] }

/-- What `rpmsg_virtio_ns_callback` does under the lock to the endpoint of
a destruction. -/
def selectDestroyed (e : RpmsgEndpoint) : RpmsgEndpoint :=
  let e := { e with destAddr := RPMSG_ADDR_ANY }
  if e.releaseCb then rpmsgEptIncref e else e

/-- An assignment of the peer's address. -/
def bindDest (dest : UInt32) (e : RpmsgEndpoint) : RpmsgEndpoint :=
  { e with destAddr := dest }

/-- What a step shows: the endpoint it acts on and how, and for a step of
the receive path the endpoints it reads or writes. -/
structure EptLabel where
  ept : Nat
  act : Counted.Act
  touched : Option (List Nat)

/-- The part of a step that concerns endpoint `o`. -/
def EptLabel.actOn (l : EptLabel) (o : Nat) : Counted.Act :=
  if l.ept = o then l.act else .idle

/-! ## Steps -/

/-- One step of a device with `nentries` receive buffers whose name service
has the endpoint `ns`. -/
inductive EptStep (nentries : UInt16) (ns : Nat) :
    EptSystem → EptLabel → EptSystem → Prop where
  /-- A message is taken from the queue and its endpoint is found. -/
  | rxTake {s : EptSystem} {ept : Nat} (src dst : UInt32)
      (hbuf : s.rx.length < nentries.toNat)
      (hfind : rpmsgGetEptFromAddr s.rdev dst = some ept) :
      EptStep nentries ns s ⟨ept, .take, some s.rdev.endpoints⟩
        { s with
          rdev := s.rdev.modify ept rpmsgEptIncref
          rx := ⟨ept, .found src⟩ :: s.rx }
  /-- No endpoint has its address. -/
  | rxMiss {s : EptSystem} (dst : UInt32)
      (hfind : rpmsgGetEptFromAddr s.rdev dst = none) :
      EptStep nentries ns s ⟨0, .idle, some s.rdev.endpoints⟩ s
  /-- The endpoint's callback is called. -/
  | rxCall {s : EptSystem} {l₁ l₂ : List RxTask} {ept : Nat} {src : UInt32}
      (hrx : s.rx = l₁ ++ ⟨ept, .found src⟩ :: l₂) :
      EptStep nentries ns s ⟨ept, .idle, some [ept]⟩
        { s with
          rdev := s.rdev.modify ept (learnDest src)
          rx := l₁ ++ ⟨ept, .calling⟩ :: l₂ }
  /-- It returns. -/
  | rxReturn {s : EptSystem} {l₁ l₂ : List RxTask} {ept : Nat}
      (hrx : s.rx = l₁ ++ ⟨ept, .calling⟩ :: l₂) :
      EptStep nentries ns s ⟨ept, .idle, none⟩
        { s with rx := l₁ ++ ⟨ept, .returned⟩ :: l₂ }
  /-- The round drops its reference. -/
  | rxDone {s : EptSystem} {l₁ l₂ : List RxTask} {ept : Nat}
      (hrx : s.rx = l₁ ++ ⟨ept, .returned⟩ :: l₂) :
      EptStep nentries ns s ⟨ept, .drop, some [ept]⟩
        (EptSystem.decref { s with rx := l₁ ++ l₂ } ept)
  /-- The name service selects an endpoint for a destruction. -/
  | nsDestroy {s : EptSystem} {l₁ l₂ : List RxTask} {e : Nat}
      (name : List UInt8) (dest : UInt32)
      (hrx : s.rx = l₁ ++ ⟨ns, .calling⟩ :: l₂)
      (hfind : rpmsgGetEndpoint s.rdev (some name) RPMSG_ADDR_ANY dest =
        some e) :
      EptStep nentries ns s
        ⟨e, if (s.rdev.epts e).releaseCb then .take else .peek,
          some s.rdev.endpoints⟩
        { s with
          rdev := s.rdev.modify e selectDestroyed
          rx := l₁ ++ ⟨ns, .naming ⟨e, (s.rdev.epts e).releaseCb,
            .selected⟩⟩ :: l₂ }
  /-- It finds none, or binds one to the peer's address. -/
  | nsMiss {s : EptSystem} (name : List UInt8) (dest : UInt32)
      (hrx : ⟨ns, .calling⟩ ∈ s.rx)
      (hfind : rpmsgGetEndpoint s.rdev (some name) RPMSG_ADDR_ANY dest =
        none) :
      EptStep nentries ns s ⟨0, .idle, some s.rdev.endpoints⟩ s
  | nsCreate {s : EptSystem} {e : Nat} (name : List UInt8) (dest : UInt32)
      (hrx : ⟨ns, .calling⟩ ∈ s.rx)
      (hfind : rpmsgGetEndpoint s.rdev (some name) RPMSG_ADDR_ANY dest =
        some e) :
      EptStep nentries ns s ⟨e, .idle, some s.rdev.endpoints⟩
        { s with rdev := s.rdev.modify e (bindDest dest) }
  /-- The unbind callback of the endpoint is looked up, and called. -/
  | nsUnbind {s : EptSystem} {l₁ l₂ : List RxTask} {e : Nat} {counted : Bool}
      (hrx : s.rx = l₁ ++ ⟨ns, .naming ⟨e, counted, .selected⟩⟩ :: l₂) :
      EptStep nentries ns s ⟨e, if counted then .idle else .unpeek, some [e]⟩
        { s with rx := l₁ ++ ⟨ns, .naming ⟨e, counted, .unbinding⟩⟩ :: l₂ }
  /-- There is none. -/
  | nsNoUnbind {s : EptSystem} {l₁ l₂ : List RxTask} {e : Nat}
      {counted : Bool}
      (hrx : s.rx = l₁ ++ ⟨ns, .naming ⟨e, counted, .selected⟩⟩ :: l₂) :
      EptStep nentries ns s ⟨e, if counted then .idle else .unpeek, some [e]⟩
        { s with rx := l₁ ++ ⟨ns, .naming ⟨e, counted, .unbound⟩⟩ :: l₂ }
  /-- It returns. -/
  | nsUnbound {s : EptSystem} {l₁ l₂ : List RxTask} {e : Nat} {counted : Bool}
      (hrx : s.rx = l₁ ++ ⟨ns, .naming ⟨e, counted, .unbinding⟩⟩ :: l₂) :
      EptStep nentries ns s ⟨e, .idle, none⟩
        { s with rx := l₁ ++ ⟨ns, .naming ⟨e, counted, .unbound⟩⟩ :: l₂ }
  /-- The reference, if there is one, is dropped. -/
  | nsDone {s : EptSystem} {l₁ l₂ : List RxTask} {e : Nat}
      (hrx : s.rx = l₁ ++ ⟨ns, .naming ⟨e, true, .unbound⟩⟩ :: l₂) :
      EptStep nentries ns s ⟨e, .drop, some [e]⟩
        (EptSystem.decref { s with rx := l₁ ++ ⟨ns, .returned⟩ :: l₂ } e)
  | nsDoneUncounted {s : EptSystem} {l₁ l₂ : List RxTask} {e : Nat}
      (hrx : s.rx = l₁ ++ ⟨ns, .naming ⟨e, false, .unbound⟩⟩ :: l₂) :
      EptStep nentries ns s ⟨e, .idle, none⟩
        { s with rx := l₁ ++ ⟨ns, .returned⟩ :: l₂ }
  /-- `rpmsg_create_ept` registers an object that is not on the list, or
  refuses. -/
  | createLocked {s : EptSystem} {ept : Nat} {rdev : RpmsgDevice}
      (name : Option (List UInt8)) (src dest : UInt32)
      (hept : ept ∉ s.rdev.endpoints)
      (hok : createEptLocked s.rdev ept name src dest = .ok rdev) :
      EptStep nentries ns s ⟨ept, .publish, none⟩
        { s with rdev := rdev, creating := ept :: s.creating }
  | createRefused {s : EptSystem} {ept : Nat} {status : Int}
      (name : Option (List UInt8)) (src dest : UInt32)
      (hno : createEptLocked s.rdev ept name src dest = .error status) :
      EptStep nentries ns s ⟨ept, .idle, none⟩ s
  /-- It returns without an announcement, or makes one. -/
  | createQuiet {s : EptSystem} {ept : Nat} (hept : ept ∈ s.creating)
      (hquiet : announcesCreate s.rdev ept = false) :
      EptStep nentries ns s ⟨ept, .settle true, none⟩
        { s with creating := s.creating.erase ept }
  | createAnnounce {s : EptSystem} {ept : Nat} (hept : ept ∈ s.creating)
      (hannounces : announcesCreate s.rdev ept = true) :
      EptStep nentries ns s ⟨ept, .idle, none⟩
        { s with
          creating := s.creating.erase ept
          announcing := ept :: s.announcing }
  /-- The announcement was sent, or failed. -/
  | createSent {s : EptSystem} {ept : Nat} (hept : ept ∈ s.announcing) :
      EptStep nentries ns s ⟨ept, .settle true, none⟩
        { s with announcing := s.announcing.erase ept }
  | createFailed {s : EptSystem} {ept : Nat} (hept : ept ∈ s.announcing)
      (hrdev : (s.rdev.epts ept).rdev = true) :
      EptStep nentries ns s ⟨ept, .settle false, none⟩
        (EptSystem.unregister
          { s with announcing := s.announcing.erase ept } ept)
  /-- `rpmsg_destroy_ept` looks at the endpoint and announces, if it goes
  on. -/
  | destroyBegin {s : EptSystem} (ept : Nat) :
      EptStep nentries ns s ⟨ept, .retire, none⟩
        { s with destroying :=
          if (s.rdev.epts ept).rdev then ept :: s.destroying
          else s.destroying }
  /-- It unregisters the endpoint. -/
  | destroyEnd {s : EptSystem} {ept : Nat} (hept : ept ∈ s.destroying)
      (hrdev : (s.rdev.epts ept).rdev = true) :
      EptStep nentries ns s ⟨ept, .delist, none⟩
        (EptSystem.unregister
          { s with destroying := s.destroying.erase ept } ept)
  /-- The application frees the object, or sets the peer's address. -/
  | free {s : EptSystem} (ept : Nat) :
      EptStep nentries ns s ⟨ept, .free, none⟩ s
  | setDest {s : EptSystem} (ept : Nat) (dest : UInt32) :
      EptStep nentries ns s ⟨ept, .idle, none⟩
        { s with rdev := s.rdev.modify ept (bindDest dest) }

/-! ## One endpoint seen alone -/

/-- The references a phase holds besides that to the endpoint of its
message. -/
def TaskPhase.refs (o : Nat) : TaskPhase → Nat
  | .naming work => if work.ept = o ∧ work.counted = true then 1 else 0
  | _ => 0

/-- The accesses it has still to make without a reference. -/
def TaskPhase.peeks (o : Nat) : TaskPhase → Nat
  | .naming work =>
    if work.ept = o ∧ work.counted = false ∧ work.phase = .selected then 1
    else 0
  | _ => 0

def RxTask.refs (o : Nat) (task : RxTask) : Nat :=
  (if task.ept = o then 1 else 0) + task.phase.refs o

def heldBy (o : Nat) (rx : List RxTask) : Nat :=
  rx.foldr (fun task n => task.refs o + n) 0

def peekedBy (o : Nat) (rx : List RxTask) : Nat :=
  rx.foldr (fun task n => task.phase.peeks o + n) 0

/-- Endpoint `o` as a counted object. -/
def EptSystem.view (s : EptSystem) (o : Nat) : Counted where
  notify := (s.rdev.epts o).releaseCb
  count := (s.rdev.epts o).refcnt
  live := (s.rdev.epts o).rdev
  listed := s.rdev.endpoints.count o
  held := heldBy o s.rx
  peeked := peekedBy o s.rx
  told := s.released.count o

section View

variable {s : EptSystem} {o ept : Nat} {l₁ l₂ : List RxTask} {x : RxTask}

@[simp] theorem heldBy_cons :
    heldBy o (x :: l₂) = x.refs o + heldBy o l₂ := rfl

@[simp] theorem heldBy_append :
    heldBy o (l₁ ++ l₂) = heldBy o l₁ + heldBy o l₂ := by
  induction l₁ with
  | nil => exact (Nat.zero_add _).symm
  | cons task l₁ ih =>
    rw [List.cons_append, heldBy_cons, heldBy_cons, ih, Nat.add_assoc]

@[simp] theorem peekedBy_cons :
    peekedBy o (x :: l₂) = x.phase.peeks o + peekedBy o l₂ := rfl

@[simp] theorem peekedBy_append :
    peekedBy o (l₁ ++ l₂) = peekedBy o l₁ + peekedBy o l₂ := by
  induction l₁ with
  | nil => exact (Nat.zero_add _).symm
  | cons task l₁ ih =>
    rw [List.cons_append, peekedBy_cons, peekedBy_cons, ih, Nat.add_assoc]

theorem RxTask.refs_le (o : Nat) (task : RxTask) : task.refs o ≤ 2 := by
  obtain ⟨ept, phase⟩ := task
  have hphase : phase.refs o ≤ 1 := by
    cases phase with
    | naming work =>
      simp only [TaskPhase.refs]
      split <;> omega
    | _ => exact Nat.zero_le 1
  simp only [RxTask.refs]
  split <;> omega

theorem heldBy_le (o : Nat) (rx : List RxTask) :
    heldBy o rx ≤ 2 * rx.length := by
  induction rx with
  | nil => exact Nat.le_refl 0
  | cons task rx ih =>
    have hle := task.refs_le o
    rw [heldBy_cons, List.length_cons]
    omega

/-- A change of other fields than these is not seen. -/
theorem view_modify (f : RpmsgEndpoint → RpmsgEndpoint) (rx : List RxTask)
    (hf : ∀ e, (f e).refcnt = e.refcnt ∧ (f e).rdev = e.rdev ∧
      (f e).releaseCb = e.releaseCb) :
    { s with rdev := s.rdev.modify ept f, rx := rx }.view o =
      { s with rx := rx }.view o := by
  by_cases hept : o = ept
  · subst hept
    obtain ⟨h1, h2, h3⟩ := hf (s.rdev.epts o)
    simp only [EptSystem.view, RpmsgDevice.modify_self, h1, h2, h3]
    rfl
  · simp only [EptSystem.view, RpmsgDevice.modify_of_ne _ _ hept]
    rfl

/-- A change of the tasks that is none for the endpoint. -/
theorem view_rx {rx : List RxTask} (hheld : heldBy o rx = heldBy o s.rx)
    (hpeeked : peekedBy o rx = peekedBy o s.rx) :
    { s with rx := rx }.view o = s.view o := by
  simp only [EptSystem.view, hheld, hpeeked]

/-- The part of a reference that is dropped. -/
theorem view_decref (s : EptSystem) (ept o : Nat) :
    (s.decref ept).view o =
      if ept = o then (s.view o).decref else s.view o := by
  by_cases hept : ept = o
  · subst hept
    rw [if_pos rfl]
    by_cases h0 : (s.rdev.epts ept).refcnt - 1 = 0
    · cases hcb : (s.rdev.epts ept).releaseCb with
      | true =>
        simp [EptSystem.view, EptSystem.decref, Counted.decref, rpmsgEptDecref,
          h0, hcb]
      | false =>
        simp [EptSystem.view, EptSystem.decref, Counted.decref, rpmsgEptDecref,
          h0, hcb]
    · simp [EptSystem.view, EptSystem.decref, Counted.decref, rpmsgEptDecref,
        h0]
  · rw [if_neg hept]
    have htold : (s.decref ept).released.count o = s.released.count o := by
      simp only [EptSystem.decref, List.count_append]
      split
      · rw [List.count_singleton, if_neg (by simpa using hept), Nat.add_zero]
      · rfl
    simp only [EptSystem.view, htold]
    simp only [EptSystem.decref, RpmsgDevice.modify_of_ne _ _ (Ne.symm hept),
      RpmsgDevice.modify_endpoints]

theorem view_unregister (s : EptSystem) (ept o : Nat) :
    (s.unregister ept).view o =
      if ept = o then (s.view o).delist else s.view o := by
  by_cases hept : ept = o
  · subst hept
    rw [if_pos rfl]
    have hlisted : ((s.rdev.endpoints.erase ept).count ept) =
        s.rdev.endpoints.count ept - 1 := List.count_erase_self
    simp only [EptSystem.view, EptSystem.unregister, Counted.delist,
      rpmsgUnregisterEndpoint_self, rpmsgUnregisterEndpoint_endpoints, hlisted]
    by_cases h0 : (s.rdev.epts ept).refcnt - 1 = 0
    · cases hcb : (s.rdev.epts ept).releaseCb with
      | true => simp [Counted.decref, rpmsgEptDecref, h0, hcb]
      | false => simp [Counted.decref, rpmsgEptDecref, h0, hcb]
    · simp [Counted.decref, rpmsgEptDecref, h0]
  · rw [if_neg hept]
    have hne : o ≠ ept := Ne.symm hept
    have htold : (s.unregister ept).released.count o =
        s.released.count o := by
      simp only [EptSystem.unregister, List.count_append]
      split
      · rw [List.count_singleton, if_neg (by simpa using hept), Nat.add_zero]
      · rfl
    simp only [EptSystem.view, htold]
    simp only [EptSystem.unregister, rpmsgUnregisterEndpoint_endpoints,
      rpmsgUnregisterEndpoint_other _ _ hne, List.count_erase_of_ne hne]

end View

/-! ## What a step does to one endpoint -/

section Moves

variable {nentries : UInt16} {ns : Nat} {s t : EptSystem} {l : EptLabel}

/-- Endpoints are found on the list. -/
theorem rpmsgGetEndpoint_mem {rdev : RpmsgDevice}
    {name : Option (List UInt8)} {addr dest : UInt32} {ept : Nat}
    (h : rpmsgGetEndpoint rdev name addr dest = some ept) :
    ept ∈ rdev.endpoints := List.mem_of_find?_eq_some h

/-- `rpmsg_create_ept` registers the object at the address it chose. -/
theorem createEptLocked_registers {rdev rdev' : RpmsgDevice} {ept : Nat}
    {name : Option (List UInt8)} {src dest : UInt32}
    (h : createEptLocked rdev ept name src dest = .ok rdev') :
    ∃ bitmap bitnext addr, rdev' = rpmsgRegisterEndpoint
      { rdev with bitmap := bitmap, bitnext := bitnext } ept name addr
      dest := by
  simp only [createEptLocked] at h
  split at h
  · split at h
    · cases h
    · exact ⟨_, _, _, (Except.ok.inj h).symm⟩
  · split at h
    · split at h
      · exact ⟨_, _, _, (Except.ok.inj h).symm⟩
      · split at h <;> cases h
    · exact ⟨_, _, _, (Except.ok.inj h).symm⟩

/-- An object newly registered, seen alone. -/
theorem view_registered {rdev : RpmsgDevice} {creating : List Nat}
    {name : Option (List UInt8)} {src dest : UInt32} {ept : Nat}
    (h : createEptLocked s.rdev ept name src dest = .ok rdev) (o : Nat) :
    { s with rdev := rdev, creating := creating }.view o =
      if ept = o then (s.view o).enlist else s.view o := by
  obtain ⟨bitmap, bitnext, addr, rfl⟩ := createEptLocked_registers h
  by_cases hept : ept = o
  · subst hept
    rw [if_pos rfl]
    simp [EptSystem.view, rpmsgRegisterEndpoint, Counted.enlist]
  · rw [if_neg hept]
    simp [EptSystem.view, rpmsgRegisterEndpoint, hept,
      RpmsgDevice.modify_of_ne _ _ (Ne.symm hept)]

/-- A step moves the endpoint it acts on and no other. -/
theorem moves_of_eq {cap ept o : Nat} {act : Counted.Act}
    {touched : Option (List Nat)} {v : Counted}
    (hself : ept = o → (s.view o).Moves cap act v)
    (hother : ept ≠ o → v = s.view o) :
    (s.view o).Moves cap (EptLabel.actOn ⟨ept, act, touched⟩ o) v := by
  simp only [EptLabel.actOn]
  split
  · exact hself ‹_›
  · exact hother ‹_›

theorem moves_idle {cap ept o : Nat} {touched : Option (List Nat)}
    {v : Counted} (h : v = s.view o) :
    (s.view o).Moves cap (EptLabel.actOn ⟨ept, .idle, touched⟩ o) v :=
  moves_of_eq (fun _ => h) fun _ => h

/-- A task that goes on without a change of its references. -/
theorem view_rx_phase {l₁ l₂ : List RxTask} {x y : RxTask} {o : Nat}
    (hrx : s.rx = l₁ ++ x :: l₂) (hrefs : y.refs o = x.refs o)
    (hpeeks : y.phase.peeks o = x.phase.peeks o) :
    { s with rx := l₁ ++ y :: l₂ }.view o = s.view o := by
  apply view_rx
  · rw [hrx]
    simp only [heldBy_append, heldBy_cons, hrefs]
  · rw [hrx]
    simp only [peekedBy_append, peekedBy_cons, hpeeks]

/-- There is room for the reference of a message that is taken, and for one
more of the name service while it handles a message. -/
theorem held_lt_of_room {o : Nat} (hbuf : s.rx.length < nentries.toNat) :
    heldBy o s.rx < 2 * nentries.toNat := by
  have hle := heldBy_le o s.rx
  omega

theorem held_lt_of_naming {l₁ l₂ : List RxTask} {ept o : Nat}
    (hrx : s.rx = l₁ ++ ⟨ept, .calling⟩ :: l₂)
    (hlen : s.rx.length ≤ nentries.toNat) :
    heldBy o s.rx < 2 * nentries.toNat := by
  have h1 := heldBy_le o l₁
  have h2 := heldBy_le o l₂
  have hself : RxTask.refs o ⟨ept, .calling⟩ ≤ 1 := by
    simp only [RxTask.refs, TaskPhase.refs]
    split <;> omega
  rw [hrx, List.length_append, List.length_cons] at hlen
  rw [hrx, heldBy_append, heldBy_cons]
  omega

/-- A task drops a reference to `ept`. -/
theorem moves_drop {cap ept o : Nat} {touched : Option (List Nat)}
    {rx : List RxTask}
    (hheld : heldBy o s.rx = heldBy o rx + if ept = o then 1 else 0)
    (hpeeked : peekedBy o rx = peekedBy o s.rx) :
    (s.view o).Moves cap (EptLabel.actOn ⟨ept, .drop, touched⟩ o)
      ((EptSystem.decref { s with rx := rx } ept).view o) := by
  rw [view_decref]
  refine moves_of_eq (fun h => ?_) fun h => ?_
  · rw [if_pos h] at hheld ⊢
    refine ⟨?_, ?_⟩
    · show heldBy o s.rx ≠ 0
      omega
    · simp only [EptSystem.view, Counted.drop, hheld, hpeeked,
        Nat.add_sub_cancel]
  · rw [if_neg h] at hheld ⊢
    exact view_rx hheld.symm hpeeked

/-- The name service looks at the endpoint it selected without a
reference. -/
theorem moves_unpeek {cap ept o : Nat} {touched : Option (List Nat)}
    {rx : List RxTask} (hheld : heldBy o rx = heldBy o s.rx)
    (hpeeked : peekedBy o s.rx =
      peekedBy o rx + if ept = o then 1 else 0) :
    (s.view o).Moves cap (EptLabel.actOn ⟨ept, .unpeek, touched⟩ o)
      ({ s with rx := rx }.view o) := by
  refine moves_of_eq (fun h => ?_) fun h => ?_
  · rw [if_pos h] at hpeeked
    refine ⟨?_, ?_⟩
    · show peekedBy o s.rx ≠ 0
      omega
    · simp only [EptSystem.view, hheld, hpeeked, Nat.add_sub_cancel]
  · rw [if_neg h] at hpeeked
    exact view_rx hheld hpeeked.symm

/-- The name service goes on with an endpoint it selected. -/
theorem moves_unbind {cap e o : Nat} {touched : Option (List Nat)}
    {l₁ l₂ : List RxTask} {counted : Bool} {phase : NsPhase}
    (hrx : s.rx = l₁ ++ ⟨ns, .naming ⟨e, counted, .selected⟩⟩ :: l₂)
    (hphase : phase ≠ .selected) :
    (s.view o).Moves cap
      (EptLabel.actOn ⟨e, if counted then .idle else .unpeek, touched⟩ o)
      (EptSystem.view { s with
        rx := l₁ ++ ⟨ns, .naming ⟨e, counted, phase⟩⟩ :: l₂ } o) := by
  cases counted with
  | true => exact moves_idle (view_rx_phase hrx rfl (by simp [TaskPhase.peeks]))
  | false =>
    apply moves_unpeek
    · rw [hrx]
      simp [RxTask.refs, TaskPhase.refs]
    · rw [hrx]
      simp only [peekedBy_append, peekedBy_cons, TaskPhase.peeks, hphase,
        and_false, and_true, if_false]
      omega

/-- It selects an endpoint. -/
theorem moves_select {e o : Nat} {touched : Option (List Nat)}
    {l₁ l₂ : List RxTask} (hmem : e ∈ s.rdev.endpoints)
    (hrx : s.rx = l₁ ++ ⟨ns, .calling⟩ :: l₂)
    (hlen : s.rx.length ≤ nentries.toNat) :
    (s.view o).Moves (2 * nentries.toNat)
      (EptLabel.actOn
        ⟨e, if (s.rdev.epts e).releaseCb then .take else .peek, touched⟩ o)
      (EptSystem.view { s with
        rdev := s.rdev.modify e selectDestroyed
        rx := l₁ ++ ⟨ns, .naming ⟨e, (s.rdev.epts e).releaseCb,
          .selected⟩⟩ :: l₂ } o) := by
  have hlisted : s.rdev.endpoints.count e ≠ 0 :=
    Nat.ne_of_gt (List.count_pos_iff.mpr hmem)
  refine moves_of_eq ?_ fun hne => ?_
  · rintro rfl
    have hroom := held_lt_of_naming (o := e) hrx hlen
    cases hcb : (s.rdev.epts e).releaseCb with
    | true =>
      refine ⟨hlisted, hroom, ?_⟩
      simp [EptSystem.view, Counted.take, selectDestroyed, rpmsgEptIncref,
        RxTask.refs, TaskPhase.refs, TaskPhase.peeks, hrx, hcb]
      omega
    | false =>
      refine ⟨hlisted, ?_⟩
      simp [EptSystem.view, selectDestroyed, RxTask.refs, TaskPhase.refs,
        TaskPhase.peeks, hrx, hcb]
      omega
  · simp [EptSystem.view, RxTask.refs, TaskPhase.refs, TaskPhase.peeks, hne,
      hrx, RpmsgDevice.modify_of_ne _ _ (Ne.symm hne)]

/-- **A step moves each endpoint as a counted object.** -/
theorem EptStep.moves (hstep : EptStep nentries ns s l t)
    (hlen : s.rx.length ≤ nentries.toNat) (o : Nat) :
    (s.view o).Moves (2 * nentries.toNat) (l.actOn o) (t.view o) := by
  cases hstep with
  | @rxTake ept src dst hbuf hfind =>
    have hmem := rpmsgGetEndpoint_mem hfind
    refine moves_of_eq ?_ fun hne => ?_
    · rintro rfl
      refine ⟨?_, held_lt_of_room hbuf, ?_⟩
      · exact Nat.ne_of_gt (List.count_pos_iff.mpr hmem)
      · simp [EptSystem.view, Counted.take, rpmsgEptIncref, RxTask.refs,
          TaskPhase.refs, TaskPhase.peeks, Nat.add_comm]
    · simp [EptSystem.view, RxTask.refs, TaskPhase.refs, TaskPhase.peeks, hne,
        RpmsgDevice.modify_of_ne _ _ (Ne.symm hne)]
  | rxMiss dst hfind => exact moves_idle rfl
  | @rxCall l₁ l₂ ept src hrx =>
    apply moves_idle
    refine (view_modify (learnDest src) _ ?_).trans ?_
    · intro e
      simp only [learnDest]
      split <;> exact ⟨rfl, rfl, rfl⟩
    · exact view_rx_phase hrx rfl rfl
  | rxReturn hrx => exact moves_idle (view_rx_phase hrx rfl rfl)
  | @rxDone l₁ l₂ ept hrx =>
    apply moves_drop
    · rw [hrx]
      simp [RxTask.refs, TaskPhase.refs]
      omega
    · rw [hrx]
      simp [TaskPhase.peeks]
  | nsDestroy name dest hrx hfind =>
    exact moves_select (rpmsgGetEndpoint_mem hfind) hrx hlen
  | nsMiss name dest hrx hfind => exact moves_idle rfl
  | nsCreate name dest hrx hfind =>
    exact moves_idle (view_modify _ s.rx fun e => ⟨rfl, rfl, rfl⟩)
  | nsUnbind hrx => exact moves_unbind hrx (by decide)
  | nsNoUnbind hrx => exact moves_unbind hrx (by decide)
  | nsUnbound hrx =>
    exact moves_idle (view_rx_phase hrx rfl (by simp [TaskPhase.peeks]))
  | @nsDone l₁ l₂ e hrx =>
    apply moves_drop
    · rw [hrx]
      simp [RxTask.refs, TaskPhase.refs]
      omega
    · rw [hrx]
      simp [TaskPhase.peeks]
  | nsDoneUncounted hrx =>
    refine moves_idle (view_rx_phase hrx ?_ ?_)
    · simp [RxTask.refs, TaskPhase.refs]
    · simp [TaskPhase.peeks]
  | createLocked name src dest hept hok =>
    rw [view_registered hok]
    refine moves_of_eq (fun h => ?_) fun h => ?_
    · rw [if_pos h]
      rfl
    · rw [if_neg h]
  | createRefused name src dest hno => exact moves_idle rfl
  | createQuiet hept hquiet => exact moves_of_eq (fun _ => rfl) fun _ => rfl
  | createAnnounce hept hannounces => exact moves_idle rfl
  | createSent hept => exact moves_of_eq (fun _ => rfl) fun _ => rfl
  | createFailed hept hrdev =>
    rw [view_unregister]
    refine moves_of_eq (fun h => ?_) fun h => ?_
    · rw [if_pos h]
      rfl
    · rw [if_neg h]
      rfl
  | destroyBegin ept => exact moves_of_eq (fun _ => rfl) fun _ => rfl
  | destroyEnd hept hrdev =>
    rw [view_unregister]
    refine moves_of_eq (fun h => ?_) fun h => ?_
    · rw [if_pos h]
      rfl
    · rw [if_neg h]
      rfl
  | free ept => exact moves_of_eq (fun _ => rfl) fun _ => rfl
  | setDest ept dest =>
    exact moves_idle (view_modify _ s.rx fun e => ⟨rfl, rfl, rfl⟩)

theorem heldBy_ne_zero {l₁ l₂ : List RxTask} {x : RxTask} {o : Nat}
    (hrx : s.rx = l₁ ++ x :: l₂) (hx : x.refs o ≠ 0) :
    (s.view o).held ≠ 0 := by
  show heldBy o s.rx ≠ 0
  rw [hrx, heldBy_append, heldBy_cons]
  omega

/-- The name service looks at an endpoint that it holds, or that it has
selected. -/
theorem used_of_selected {l₁ l₂ : List RxTask} {ept e o : Nat}
    {counted : Bool}
    (hrx : s.rx = l₁ ++ ⟨ept, .naming ⟨e, counted, .selected⟩⟩ :: l₂)
    (ho : o ∈ [e]) :
    (s.view o).held ≠ 0 ∨ (s.view o).peeked ≠ 0 := by
  obtain rfl := List.mem_singleton.mp ho
  cases counted with
  | true => exact .inl (heldBy_ne_zero hrx (by simp [RxTask.refs,
      TaskPhase.refs]))
  | false =>
    right
    show peekedBy o s.rx ≠ 0
    rw [hrx, peekedBy_append, peekedBy_cons]
    simp [TaskPhase.peeks]

/-- The receive path works with endpoints that are on the list, held, or
selected. -/
theorem EptStep.touched_used (hstep : EptStep nentries ns s l t)
    {touched : List Nat} {o : Nat} (htouched : l.touched = some touched)
    (ho : o ∈ touched) :
    (s.view o).listed ≠ 0 ∨ (s.view o).held ≠ 0 ∨ (s.view o).peeked ≠ 0 := by
  have hlist : o ∈ s.rdev.endpoints → (s.view o).listed ≠ 0 := fun hmem =>
    Nat.ne_of_gt (List.count_pos_iff.mpr hmem)
  cases hstep with
  | rxTake src dst hbuf hfind =>
    cases htouched
    exact .inl (hlist ho)
  | rxMiss dst hfind =>
    cases htouched
    exact .inl (hlist ho)
  | rxCall hrx =>
    cases htouched
    obtain rfl := List.mem_singleton.mp ho
    exact .inr (.inl (heldBy_ne_zero hrx (by simp [RxTask.refs])))
  | rxDone hrx =>
    cases htouched
    obtain rfl := List.mem_singleton.mp ho
    exact .inr (.inl (heldBy_ne_zero hrx (by simp [RxTask.refs])))
  | nsDestroy name dest hrx hfind =>
    cases htouched
    exact .inl (hlist ho)
  | nsMiss name dest hrx hfind =>
    cases htouched
    exact .inl (hlist ho)
  | nsCreate name dest hrx hfind =>
    cases htouched
    exact .inl (hlist ho)
  | nsUnbind hrx =>
    cases htouched
    exact .inr (used_of_selected hrx ho)
  | nsNoUnbind hrx =>
    cases htouched
    exact .inr (used_of_selected hrx ho)
  | nsDone hrx =>
    cases htouched
    obtain rfl := List.mem_singleton.mp ho
    exact .inr (.inl (heldBy_ne_zero hrx (by simp [RxTask.refs,
      TaskPhase.refs])))
  | _ => cases htouched

end Moves

end OpenAmp.Rpmsg
