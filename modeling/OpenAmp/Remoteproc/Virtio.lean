import OpenAmp.Virtio.Virtqueue

/-!
# Virtio devices over the resource table

The feature and status half of `open-amp/lib/remoteproc/remoteproc_virtio.c`
with the wrappers of `virtio.h` and what `rpmsg_init_vdev` does through
them. The `fw_rsc_vdev` entry is shared by both processors; the
`virtio_device` is private to the side that created it.

`deviceSupport` is the build option `VIRTIO_DEVICE_SUPPORT`: without it
the macro `VIRTIO_ROLE_IS_DEVICE` is false whatever the role. A build in
the driver role has `VIRTIO_DRIVER_SUPPORT`.
-/

namespace OpenAmp.Remoteproc

open OpenAmp.Virtio

def VIRTIO_CONFIG_STATUS_DRIVER_OK : UInt8 := 0x04
def VIRTIO_CONFIG_STATUS_NEEDS_RESET : UInt8 := 0x40
def VIRTIO_RPMSG_F_NS : UInt32 := 0

/-- `struct fw_rsc_vdev`, what the virtio device reads and writes of it. -/
structure VdevRsc where
  id : UInt32
  dfeatures : UInt32
  gfeatures : UInt32
  status : UInt8
  numOfVrings : UInt8
deriving DecidableEq, Repr

/-- `struct remoteproc_virtio`: `vdev` is the part of the virtio device
that the queues consult. -/
structure RemoteprocVirtio where
  vdev : VirtioDevice
  notifyid : UInt32
  deviceId : UInt32
  vringsNum : UInt8
deriving DecidableEq, Repr

/-! ## The dispatch table -/

/-- `rproc_virtio_get_dfeatures`. -/
def rprocVirtioGetDfeatures (rsc : VdevRsc) : UInt32 := rsc.dfeatures

/-- `rproc_virtio_get_features`. -/
def rprocVirtioGetFeatures (rsc : VdevRsc) : UInt32 :=
  rprocVirtioGetDfeatures rsc &&& rsc.gfeatures

/-- `rproc_virtio_set_features`. -/
def rprocVirtioSetFeatures (rsc : VdevRsc) (features : UInt32) : VdevRsc :=
  { rsc with gfeatures := features }

/-- `rproc_virtio_negotiate_features`. -/
def rprocVirtioNegotiateFeatures (rsc : VdevRsc) (features : UInt32) :
    UInt32 × VdevRsc :=
  let features := features &&& rprocVirtioGetDfeatures rsc
  (features, rprocVirtioSetFeatures rsc features)

/-- `rproc_virtio_set_status`. -/
def rprocVirtioSetStatus (rsc : VdevRsc) (status : UInt8) : VdevRsc :=
  { rsc with status := status }

/-- `rproc_virtio_create_vdev`. The device starts zeroed; a driver
writes the negotiated features to the entry, and the mask it gets back
is not kept. -/
def rprocVirtioCreateVdev (role : VirtioRole) (notifyid : UInt32)
    (rsc : VdevRsc) : RemoteprocVirtio × VdevRsc :=
  let rpvdev : RemoteprocVirtio :=
    { vdev := { role := role, features := 0 }
      notifyid := notifyid
      deviceId := rsc.id
      vringsNum := rsc.numOfVrings }
  match role with
  | .driver =>
    (rpvdev, (rprocVirtioNegotiateFeatures rsc (rprocVirtioGetDfeatures rsc)).2)
  | .device => (rpvdev, rsc)

/-! ## The wrappers of `virtio.h` -/

/-- `VIRTIO_ROLE_IS_DEVICE`. -/
def virtioRoleIsDevice (deviceSupport : Bool) (vdev : VirtioDevice) : Bool :=
  deviceSupport ∧ vdev.role = .device

/-- `virtio_get_features`: only a device keeps what it reads. -/
def virtioGetFeatures (deviceSupport : Bool) (vdev : VirtioDevice)
    (rsc : VdevRsc) : UInt32 × VirtioDevice :=
  let features := rprocVirtioGetFeatures rsc
  if virtioRoleIsDevice deviceSupport vdev then
    (features, { vdev with features := features })
  else (features, vdev)

/-- `virtio_negotiate_features`, the path that keeps the outcome in
`vdev->features`. Creation does not take it. -/
def virtioNegotiateFeatures (vdev : VirtioDevice) (rsc : VdevRsc)
    (features : UInt32) : VirtioDevice × VdevRsc :=
  let (final, rsc) := rprocVirtioNegotiateFeatures rsc features
  ({ vdev with features := final }, rsc)

/-- On that path the device holds what the entry does. -/
theorem virtioNegotiateFeatures_features (vdev : VirtioDevice) (rsc : VdevRsc)
    (features : UInt32) :
    (virtioNegotiateFeatures vdev rsc features).1.features =
      rprocVirtioGetFeatures (virtioNegotiateFeatures vdev rsc features).2 := by
  simp only [virtioNegotiateFeatures, rprocVirtioNegotiateFeatures,
    rprocVirtioGetFeatures, rprocVirtioGetDfeatures, rprocVirtioSetFeatures]
  rw [UInt32.and_comm features, ← UInt32.and_assoc, UInt32.and_self]

/-! ## Initialisation of rpmsg -/

/-- One look of `rpmsg_virtio_wait_remote_ready` at the status. -/
inductive RemoteReady where
  | ready
  | reset
  | notYet
deriving DecidableEq, Repr

def rpmsgVirtioRemoteReady (rsc : VdevRsc) : RemoteReady :=
  if rsc.status &&& VIRTIO_CONFIG_STATUS_NEEDS_RESET ≠ 0 then .reset
  else if rsc.status &&& VIRTIO_CONFIG_STATUS_DRIVER_OK ≠ 0 then .ready
  else .notYet

/-- `rpmsg_init_vdev` as far as the device and its entry go: the status,
whether name service is on, the device and the entry. `setup` is the
outcome of what it does with pools and queues in between. A device that
does not find its driver ready waits: `none`. -/
def rpmsgInitVdev (deviceSupport : Bool) (setup : Int) (vdev : VirtioDevice)
    (rsc : VdevRsc) : Option (Int × Bool × VirtioDevice × VdevRsc) :=
  if virtioRoleIsDevice deviceSupport vdev ∧
      rpmsgVirtioRemoteReady rsc ≠ .ready then none
  else
    let (features, vdev) := virtioGetFeatures deviceSupport vdev rsc
    let supportNs := features &&& (1 <<< VIRTIO_RPMSG_F_NS) ≠ 0
    if setup ≠ 0 then some (setup, supportNs, vdev, rsc)
    else
      let rsc := match vdev.role with
        | .driver => rprocVirtioSetStatus rsc VIRTIO_CONFIG_STATUS_DRIVER_OK
        | .device => rsc
      some (0, supportNs, vdev, rsc)

/-- The driver creates and initialises its device on the entry, then the
other side does; both succeed with their queues. -/
def bringUp (deviceSupport : Bool) (rsc : VdevRsc)
    (notifyid : VirtioRole → UInt32) :
    Option (VirtioDevice × VirtioDevice × VdevRsc) := do
  let (drv, rsc) := rprocVirtioCreateVdev .driver (notifyid .driver) rsc
  let (_, _, drv, rsc) ← rpmsgInitVdev deviceSupport 0 drv.vdev rsc
  let (dev, rsc) := rprocVirtioCreateVdev .device (notifyid .device) rsc
  let (_, _, dev, rsc) ← rpmsgInitVdev deviceSupport 0 dev.vdev rsc
  pure (drv, dev, rsc)

/-! ## What the two sides end up with -/

/-- The driver offers all features of the firmware, and waits for no
one. -/
theorem bringUp_eq (deviceSupport : Bool) (rsc : VdevRsc)
    (notifyid : VirtioRole → UInt32) :
    bringUp deviceSupport rsc notifyid = some (
      ⟨.driver, 0⟩,
      ⟨.device, if deviceSupport then rsc.dfeatures else 0⟩,
      { rsc with
        gfeatures := rsc.dfeatures
        status := VIRTIO_CONFIG_STATUS_DRIVER_OK }) := by
  have hready : rpmsgVirtioRemoteReady { rsc with
      gfeatures := rsc.dfeatures
      status := VIRTIO_CONFIG_STATUS_DRIVER_OK } = .ready := by
    have hreset : VIRTIO_CONFIG_STATUS_DRIVER_OK &&&
        VIRTIO_CONFIG_STATUS_NEEDS_RESET = 0 := by decide
    have hok : VIRTIO_CONFIG_STATUS_DRIVER_OK &&&
        VIRTIO_CONFIG_STATUS_DRIVER_OK ≠ 0 := by decide
    simp only [rpmsgVirtioRemoteReady, hreset, hok, ne_eq, not_true,
      not_false_eq_true, if_true, if_false]
  cases deviceSupport <;>
    simp [bringUp, rprocVirtioCreateVdev, rpmsgInitVdev, virtioRoleIsDevice,
      virtioGetFeatures, rprocVirtioGetFeatures, rprocVirtioGetDfeatures,
      rprocVirtioNegotiateFeatures, rprocVirtioSetFeatures,
      rprocVirtioSetStatus, hready]

/-- Both devices are up, consult the same `VIRTIO_RING_F_EVENT_IDX`, and
hold the features negotiated in the entry. -/
def FeaturesAgree (deviceSupport : Bool) (rsc : VdevRsc)
    (notifyid : VirtioRole → UInt32) : Prop :=
  ∃ drv dev rsc', bringUp deviceSupport rsc notifyid = some (drv, dev, rsc') ∧
    drv.eventIdx = dev.eventIdx ∧
    drv.features = rsc'.gfeatures &&& rsc'.dfeatures ∧
    dev.features = rsc'.gfeatures &&& rsc'.dfeatures

/-- **The two ends agree on their features** only where the firmware has
none to offer: the driver never keeps what it negotiated. -/
theorem features_agree_iff (deviceSupport : Bool) (rsc : VdevRsc)
    (notifyid : VirtioRole → UInt32) :
    FeaturesAgree deviceSupport rsc notifyid ↔ rsc.dfeatures = 0 := by
  unfold FeaturesAgree
  rw [bringUp_eq]
  constructor
  · rintro ⟨drv, dev, rsc', heq, -, hdrv, -⟩
    cases heq
    simpa using hdrv.symm
  · intro h
    refine ⟨_, _, _, rfl, ?_, ?_, ?_⟩ <;> simp [h, VirtioDevice.eventIdx]

/-- On a build with device support the sides differ in what
`virtqueue.c` consults exactly when the firmware offers event indices. -/
theorem eventIdx_differ_iff (rsc : VdevRsc) (notifyid : VirtioRole → UInt32) :
    (∃ drv dev rsc', bringUp true rsc notifyid = some (drv, dev, rsc') ∧
      drv.eventIdx ≠ dev.eventIdx) ↔
      rsc.dfeatures &&& VIRTIO_RING_F_EVENT_IDX ≠ 0 := by
  rw [bringUp_eq]
  constructor
  · rintro ⟨drv, dev, rsc', heq, hne⟩
    cases heq
    simpa [VirtioDevice.eventIdx] using hne
  · intro h
    exact ⟨_, _, _, rfl, by simpa [VirtioDevice.eventIdx] using h⟩

/-- A firmware that offers event indices: the driver runs without, the
device with them. -/
theorem features_disagree_eventIdx :
    ¬ FeaturesAgree true ⟨7, VIRTIO_RING_F_EVENT_IDX, 0, 0, 2⟩ (fun _ => 0) := by
  rw [FeaturesAgree, bringUp_eq]
  rintro ⟨drv, dev, rsc', heq, hbit, -, -⟩
  cases heq
  revert hbit
  decide

end OpenAmp.Remoteproc
