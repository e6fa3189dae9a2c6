import OpenAmp.Remoteproc.Queues
import OpenAmp.Remoteproc.RscTable

/-!
# Notifications and the queues they reach

`remoteproc_get_notification` of `open-amp/lib/remoteproc/remoteproc.c`
hands an id to every virtio device of a remote processor, and
`rproc_virtio_notified` calls the queue of every vring that has it. The
other processor sends ids whenever it likes: between
`remoteproc_create_virtio` and `rpmsg_init_vdev` the queues are not there
yet, and after `rpmsg_deinit_vdev` they are not there any more.
-/

namespace OpenAmp.Remoteproc

open OpenAmp.Lib OpenAmp.Virtio

def RPROC_MAX_VRING_DESC : UInt32 := 65535

/-! ## The remote processor and its devices -/

/-- What `remoteproc_create_virtio` reads of a `struct fw_rsc_vdev`: its
id, and the id and size of each vring. -/
structure VdevEntry where
  notifyid : UInt32
  vrings : List (UInt32 × UInt32)
deriving DecidableEq, Repr

/-- `rproc_virtio_init_vring` for every vring from vring `i` on; `mapped`
tells which of them `remoteproc_mmap` maps. -/
def initVrings (mapped : Nat → Bool) :
    Nat → List (UInt32 × UInt32) → Option (List VringInfo)
  | _, [] => some []
  | i, (notifyid, num) :: vrings =>
    if mapped i = false then none
    else if RPROC_MAX_VRING_DESC < num then none
    else (initVrings mapped (i + 1) vrings).map (⟨notifyid, num, none⟩ :: ·)

/-- `remoteproc_create_virtio` on the entry it finds, if it does: the
devices of the remote processor after it. A device that has the id is
there already, and one whose vrings cannot be set up is removed again. -/
def remoteprocCreateVirtio (role : VirtioRole) (rsc : Option VdevEntry)
    (memory : Bool) (mapped : Nat → Bool) (vdevs : List Vdev) : List Vdev :=
  match rsc with
  | none => vdevs
  | some rsc =>
    if vdevs.any (·.notifyid = rsc.notifyid) then vdevs
    else if memory = false then vdevs
    else
      match initVrings mapped 0 rsc.vrings with
      | none => vdevs
      | some vrings => vdevs ++ [⟨role, rsc.notifyid, vrings, false, false⟩]

/-- The vring has the id, or the id is for all. -/
def VringInfo.addressed (v : VringInfo) (notifyid : UInt32) : Bool :=
  v.notifyid = notifyid || notifyid = RSC_NOTIFY_ID_ANY

/-- `rproc_virtio_notified`: the arguments `virtqueue_notification` is
called with. A device does nothing for its own id. -/
def rprocVirtioNotified (dev : Vdev) (notifyid : UInt32) :
    List (Option Nat) :=
  if dev.notifyid = notifyid then []
  else (dev.vringsInfo.filter (·.addressed notifyid)).map (·.vq)

/-- `remoteproc_get_notification`. -/
def remoteprocGetNotification (vdevs : List Vdev) (notifyid : UInt32) :
    List (Option Nat) :=
  vdevs.flatMap (rprocVirtioNotified · notifyid)

/-! ## Runs -/

/-- A remote processor with its virtio devices. -/
structure NotifyState where
  vdevs : List Vdev
  heap : VqHeap

/-- `dev` is the place of a device in the list. -/
inductive NotifyCall where
  | create (role : VirtioRole) (rsc : Option VdevEntry) (memory : Bool)
      (mapped : Nat → Bool)
  | init (dev : Nat) (args : InitArgs)
  | deinit (dev : Nat)
  | notification (notifyid : UInt32)

inductive NotifyStep : NotifyState → NotifyCall → NotifyState → Prop where
  | create {s : NotifyState} (role : VirtioRole) (rsc : Option VdevEntry)
      (memory : Bool) (mapped : Nat → Bool) :
      NotifyStep s (.create role rsc memory mapped)
        { s with vdevs :=
            remoteprocCreateVirtio role rsc memory mapped s.vdevs }
  | init {s : NotifyState} {i : Nat} {dev dev' : Vdev} {args : InitArgs}
      {ret : Int} {heap' : VqHeap} (hdev : s.vdevs[i]? = some dev)
      (h : rpmsgInitVdevWithConfig args dev s.heap = (ret, dev', heap')) :
      NotifyStep s (.init i args) ⟨s.vdevs.set i dev', heap'⟩
  | deinit {s : NotifyState} {i : Nat} {dev dev' : Vdev} {heap' : VqHeap}
      (hdev : s.vdevs[i]? = some dev)
      (h : rpmsgDeinitVdev dev s.heap = some (dev', heap')) :
      NotifyStep s (.deinit i) ⟨s.vdevs.set i dev', heap'⟩
  | notification {s : NotifyState} (notifyid : UInt32) :
      NotifyStep s (.notification notifyid) s

/-- Nothing has been created. -/
def NotifyState.start : NotifyState := ⟨[], ⟨0, []⟩⟩

/-! ## The invariant -/

/-- Every device is in order, and no two point to the same queue. -/
structure NotifyState.Inv (s : NotifyState) : Prop where
  sound : s.heap.Sound
  queues : ∀ dev ∈ s.vdevs, dev.Queues s.heap
  disjoint : ∀ {i j : Nat} {d e : Vdev}, s.vdevs[i]? = some d →
    s.vdevs[j]? = some e → i ≠ j →
    ∀ q ∈ Remoteproc.queues d.vringsInfo, q ∉ Remoteproc.queues e.vringsInfo

/-- A device whose queues are none of those that a call is about is not
affected by it. -/
theorem Vdev.Queues.other {dev dev' e : Vdev} {heap heap' : VqHeap}
    (he : e.Queues heap) (hchange : OwnsChange dev heap dev' heap')
    (hdisj : ∀ q ∈ Remoteproc.queues e.vringsInfo,
      q ∉ Remoteproc.queues dev.vringsInfo) : e.Queues heap' where
  below := fun q hq => Nat.lt_of_lt_of_le (he.below q hq) hchange.next
  two := he.two
  up := by
    intro hup
    obtain ⟨hlen, hlive⟩ := he.up hup
    refine ⟨hlen, fun v hv => ?_⟩
    obtain ⟨q, hvq, hnot⟩ := hlive v hv
    have hq : q ∈ Remoteproc.queues e.vringsInfo :=
      mem_queues.mpr ⟨v, List.mem_of_mem_take hv, hvq⟩
    refine ⟨q, hvq, fun hfreed => ?_⟩
    rcases hchange.frees q hfreed with h | h | h
    · exact hnot h
    · exact hdisj q hq h
    · have := he.below q hq
      omega
  down := fun hup q hq => hchange.freed q (he.down hup q hq)

/-- A call on one device keeps the invariant. -/
theorem NotifyState.Inv.set {s : NotifyState} (h : s.Inv) {i : Nat}
    {dev dev' : Vdev} {heap' : VqHeap} (hdev : s.vdevs[i]? = some dev)
    (hkeeps : Keeps dev s.heap dev' heap') :
    NotifyState.Inv ⟨s.vdevs.set i dev', heap'⟩ := by
  have hi : i < s.vdevs.length := (List.getElem?_eq_some_iff.mp hdev).1
  have hget : ∀ {j : Nat} {e : Vdev}, (s.vdevs.set i dev')[j]? = some e →
      i = j ∧ e = dev' ∨ i ≠ j ∧ s.vdevs[j]? = some e := by
    intro j e hj
    rw [List.getElem?_set] at hj
    split at hj
    · next heq =>
      exact .inl ⟨heq, (Option.some.inj hj).symm⟩
    · next hne => exact .inr ⟨hne, hj⟩
  -- the queues of the device are those it had, or new
  have hown : ∀ {j : Nat} {e : Vdev}, s.vdevs[j]? = some e → i ≠ j →
      ∀ q ∈ Remoteproc.queues dev'.vringsInfo,
        q ∉ Remoteproc.queues e.vringsInfo := by
    intro j e hj hne q hq hq'
    rcases hkeeps.change.own q hq with hold | hnew
    · exact h.disjoint hdev hj hne q hold hq'
    · have := (h.queues e (List.mem_of_getElem? hj)).below q hq'
      omega
  constructor
  case sound => exact hkeeps.sound
  case queues =>
    intro e he
    obtain ⟨j, hj⟩ := List.mem_iff_getElem?.mp he
    rcases hget hj with ⟨-, rfl⟩ | ⟨hne, hj⟩
    · exact hkeeps.queues
    · exact (h.queues e (List.mem_of_getElem? hj)).other hkeeps.change
        (h.disjoint hj hdev hne.symm)
  case disjoint =>
    intro j k d e hj hk hne q hq hq'
    rcases hget hj with ⟨hij, rfl⟩ | ⟨hij, hold⟩
    · rcases hget hk with ⟨hik, -⟩ | ⟨hik, hold⟩
      · exact hne (hij.symm.trans hik)
      · exact hown hold hik q hq hq'
    · rcases hget hk with ⟨hik, rfl⟩ | ⟨hik, hold'⟩
      · exact hown hold hij q hq' hq
      · exact h.disjoint hold hold' hne q hq hq'

theorem initVrings_none {mapped : Nat → Bool} :
    ∀ {i : Nat} {rs : List (UInt32 × UInt32)} {vrings : List VringInfo},
    initVrings mapped i rs = some vrings → ∀ v ∈ vrings, v.vq = none := by
  intro i rs
  induction rs generalizing i with
  | nil =>
    intro vrings h
    cases h
    exact fun v hv => nomatch hv
  | cons r rs ih =>
    intro vrings h v hv
    obtain ⟨notifyid, num⟩ := r
    simp only [initVrings] at h
    split at h
    · cases h
    split at h
    · cases h
    obtain ⟨rest, hrest, rfl⟩ := Option.map_eq_some_iff.mp h
    rcases List.mem_cons.mp hv with rfl | hv
    · rfl
    · exact ih hrest v hv

/-- What the list of devices is after a creation: as it was, or with one
more device, which has no queues. -/
theorem remoteprocCreateVirtio_cases (role : VirtioRole)
    (rsc : Option VdevEntry) (memory : Bool) (mapped : Nat → Bool)
    (vdevs : List Vdev) :
    remoteprocCreateVirtio role rsc memory mapped vdevs = vdevs ∨
    ∃ dev : Vdev, dev.IsNew ∧
      remoteprocCreateVirtio role rsc memory mapped vdevs = vdevs ++ [dev] := by
  unfold remoteprocCreateVirtio
  split
  · exact .inl rfl
  split
  · exact .inl rfl
  split
  · exact .inl rfl
  split
  · exact .inl rfl
  · next vrings hvrings =>
    exact .inr ⟨_, ⟨initVrings_none hvrings, rfl, rfl⟩, rfl⟩

theorem NotifyState.Inv.append {s : NotifyState} (h : s.Inv) {dev : Vdev}
    (hnew : dev.IsNew) : NotifyState.Inv { s with vdevs := s.vdevs ++ [dev] } where
  sound := h.sound
  queues := by
    intro e he
    rcases List.mem_append.mp he with he | he
    · exact h.queues e he
    · rw [List.mem_singleton.mp he]
      exact hnew.queues s.heap
  disjoint := by
    intro i j d e hi hj hne q hq hq'
    rcases getElem?_concat hi with hold | ⟨-, rfl⟩
    · rcases getElem?_concat hj with hold' | ⟨-, rfl⟩
      · exact h.disjoint hold hold' hne q hq hq'
      · rw [hnew.queues_eq_nil] at hq'
        cases hq'
    · rw [hnew.queues_eq_nil] at hq
      cases hq

/-- **A step keeps the invariant.** -/
theorem NotifyStep.inv {s t : NotifyState} {c : NotifyCall}
    (hstep : NotifyStep s c t) (h : s.Inv) : t.Inv := by
  cases hstep with
  | create role rsc memory mapped =>
    rcases remoteprocCreateVirtio_cases role rsc memory mapped s.vdevs with
      hsame | ⟨dev, hnew, hadd⟩
    · rw [hsame]
      exact h
    · rw [hadd]
      exact h.append hnew
  | init hdev hinit =>
    obtain ⟨ret, dev', heap', heq, hend⟩ :=
      rpmsgInitVdevWithConfig_end _ _ s.heap
    rw [hinit] at heq
    cases heq
    exact h.set hdev
      (hend.keeps (h.queues _ (List.mem_of_getElem? hdev)) h.sound)
  | deinit hdev hdeinit =>
    exact h.set hdev (rpmsgDeinitVdev_keeps hdeinit
      (h.queues _ (List.mem_of_getElem? hdev)) h.sound)
  | notification notifyid => exact h

theorem start_inv : NotifyState.start.Inv where
  sound := fun q hq => nomatch hq
  queues := fun dev hdev => nomatch hdev
  disjoint := by
    intro i j d e hi
    simp [NotifyState.start] at hi

/-! ## What a notification reaches -/

/-- Every queue that is called has been created and not been freed. -/
def Delivered (s : NotifyState) (notifyid : UInt32) : Prop :=
  ∀ vq ∈ remoteprocGetNotification s.vdevs notifyid,
    ∃ q, vq = some q ∧ s.heap.Live q

/-- A device can take the id: it is its own, or it is for the first two
vrings only, of a device that is initialised, if it is for a vring at
all. -/
def Vdev.Takes (dev : Vdev) (notifyid : UInt32) : Prop :=
  dev.notifyid = notifyid ∨
    ∀ i v, dev.vringsInfo[i]? = some v → v.addressed notifyid = true →
      dev.up = true ∧ i < RPMSG_NUM_VRINGS

/-- The queue of a vring is live exactly while the device is initialised,
if it is one of the first two. -/
theorem Vdev.Queues.live_iff {dev : Vdev} {heap : VqHeap}
    (h : dev.Queues heap) {i : Nat} {v : VringInfo}
    (hv : dev.vringsInfo[i]? = some v) :
    (∃ q, v.vq = some q ∧ heap.Live q) ↔
      dev.up = true ∧ i < RPMSG_NUM_VRINGS := by
  have hmem : v ∈ dev.vringsInfo := List.mem_of_getElem? hv
  constructor
  · rintro ⟨q, hvq, hlive⟩
    constructor
    · by_contra hup
      exact hlive.2 (h.down (by simpa using hup) q (mem_queues.mpr ⟨v, hmem, hvq⟩))
    · by_contra hi
      have hdrop : v ∈ dev.vringsInfo.drop 2 := by
        rw [List.mem_iff_getElem?]
        refine ⟨i - 2, ?_⟩
        simp only [RPMSG_NUM_VRINGS] at hi
        rw [List.getElem?_drop, Nat.add_sub_cancel' (by omega), hv]
      rw [h.two v hdrop] at hvq
      cases hvq
  · rintro ⟨hup, hi⟩
    have hi : i < 2 := hi
    have htake : v ∈ dev.vringsInfo.take 2 := by
      rw [List.mem_iff_getElem?]
      exact ⟨i, by rw [List.getElem?_take_of_lt hi, hv]⟩
    obtain ⟨q, hvq, hnot⟩ := (h.up hup).2 v htake
    exact ⟨q, hvq, h.below q (mem_queues.mpr ⟨v, hmem, hvq⟩), hnot⟩

/-- In a state that is in order a notification is delivered exactly when
every device can take it. -/
theorem delivered_iff {s : NotifyState} (h : s.Inv) (notifyid : UInt32) :
    Delivered s notifyid ↔ ∀ dev ∈ s.vdevs, dev.Takes notifyid := by
  constructor
  · intro hdel dev hdev
    by_cases hown : dev.notifyid = notifyid
    · exact .inl hown
    refine .inr fun i v hv haddr => ?_
    apply ((h.queues dev hdev).live_iff hv).mp
    apply hdel
    rw [remoteprocGetNotification, List.mem_flatMap]
    refine ⟨dev, hdev, ?_⟩
    rw [rprocVirtioNotified, if_neg hown, List.mem_map]
    exact ⟨v, List.mem_filter.mpr ⟨List.mem_of_getElem? hv, haddr⟩, rfl⟩
  · intro htakes vq hvq
    rw [remoteprocGetNotification, List.mem_flatMap] at hvq
    obtain ⟨dev, hdev, hvq⟩ := hvq
    rw [rprocVirtioNotified] at hvq
    split at hvq
    · cases hvq
    next hown =>
    obtain ⟨v, hv, rfl⟩ := List.mem_map.mp hvq
    obtain ⟨hmem, haddr⟩ := List.mem_filter.mp hv
    obtain ⟨i, hi⟩ := List.mem_iff_getElem?.mp hmem
    exact ((h.queues dev hdev).live_iff hi).mpr
      ((htakes dev hdev).resolve_left hown i v hi haddr)

/-- What a call of a run is asked for: a notification reaches only queues
that are there. -/
def NotifyCall.Delivers (s : NotifyState) : NotifyCall → Prop
  | .notification notifyid => Delivered s notifyid
  | _ => True

/-- No id comes for a vring of a device that is not initialised, nor for
one behind the first two. -/
def NotifyCall.Awaited (s : NotifyState) : NotifyCall → Prop
  | .notification notifyid => ∀ dev ∈ s.vdevs, dev.Takes notifyid
  | _ => True

/-- The entry of a device with vrings 2 and 3. -/
def twoVrings : VdevEntry := ⟨1, [(2, 8), (3, 8)]⟩

end OpenAmp.Remoteproc
