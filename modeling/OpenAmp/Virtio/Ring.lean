import Mathlib.Algebra.Group.Nat.Defs
import Mathlib.Logic.Function.Basic
import Mathlib.Tactic.Common

/-!
# The shared vring

`openamp/virtio_ring.h`. The three parts of a ring that driver and
device share: the descriptor table, the available ring (written by the
driver) and the used ring (written by the device). A table is a function
of its 16-bit index; the cell `ring[num]` behind the last entry of the
available and the used ring carries the event index of the other side,
exactly where the C macros put it.
-/

namespace OpenAmp.Virtio

def VRING_DESC_F_NEXT : UInt16 := 1
def VRING_DESC_F_WRITE : UInt16 := 2
def VRING_DESC_F_INDIRECT : UInt16 := 4
def VRING_USED_F_NO_NOTIFY : UInt16 := 1
def VRING_AVAIL_F_NO_INTERRUPT : UInt16 := 1

/-- `struct vring_desc`. -/
structure VringDesc where
  addr : UInt64
  len : UInt32
  flags : UInt16
  next : UInt16
deriving DecidableEq, Inhabited, Repr

/-- `struct vring_avail`. -/
structure VringAvail where
  flags : UInt16
  idx : UInt16
  ring : UInt16 → UInt16

/-- `struct vring_used_elem`; the union's `event` is the low half of
`id` (little endian). -/
structure VringUsedElem where
  id : UInt32
  len : UInt32
deriving DecidableEq, Inhabited, Repr

/-- `struct vring_used`. -/
structure VringUsed where
  flags : UInt16
  idx : UInt16
  ring : UInt16 → VringUsedElem

/-- The memory behind the three pointers of `struct vring`. -/
structure Vring where
  desc : UInt16 → VringDesc
  avail : VringAvail
  used : VringUsed

/-- A ring whose bytes are all zero. -/
def zeroedVring : Vring where
  desc := fun _ => ⟨0, 0, 0, 0⟩
  avail := ⟨0, 0, fun _ => 0⟩
  used := ⟨0, 0, fun _ => ⟨0, 0⟩⟩

/-- `vring_used_event(vr)`, `avail->ring[num]`. -/
def vringUsedEvent (num : UInt32) (vr : Vring) : UInt16 :=
  vr.avail.ring num.toUInt16

/-- Assignment to `vring_used_event(vr)`. -/
def setVringUsedEvent (num : UInt32) (vr : Vring) (event : UInt16) : Vring :=
  { vr with avail := { vr.avail with
      ring := Function.update vr.avail.ring num.toUInt16 event } }

/-- `vring_avail_event(vr)`, `used->ring[num].event`. -/
def vringAvailEvent (num : UInt32) (vr : Vring) : UInt16 :=
  (vr.used.ring num.toUInt16).id.toUInt16

/-- Assignment to `vring_avail_event(vr)`: the low half of `id`. -/
def setVringAvailEvent (num : UInt32) (vr : Vring) (event : UInt16) : Vring :=
  let old := vr.used.ring num.toUInt16
  { vr with used := { vr.used with
      ring := Function.update vr.used.ring num.toUInt16
        { old with id := (old.id &&& 0xFFFF0000) ||| event.toUInt32 } } }

/-- `vring_need_event`: all three differences are taken modulo `2 ^ 16`. -/
def vringNeedEvent (eventIdx newIdx old : UInt16) : Bool :=
  newIdx - eventIdx - 1 < newIdx - old

@[simp] theorem setVringUsedEvent_desc (num : UInt32) (vr : Vring)
    (event : UInt16) : (setVringUsedEvent num vr event).desc = vr.desc := rfl

@[simp] theorem setVringUsedEvent_used (num : UInt32) (vr : Vring)
    (event : UInt16) : (setVringUsedEvent num vr event).used = vr.used := rfl

@[simp] theorem setVringUsedEvent_idx (num : UInt32) (vr : Vring)
    (event : UInt16) :
    (setVringUsedEvent num vr event).avail.idx = vr.avail.idx := rfl

@[simp] theorem setVringAvailEvent_desc (num : UInt32) (vr : Vring)
    (event : UInt16) : (setVringAvailEvent num vr event).desc = vr.desc := rfl

@[simp] theorem setVringAvailEvent_avail (num : UInt32) (vr : Vring)
    (event : UInt16) :
    (setVringAvailEvent num vr event).avail = vr.avail := rfl

@[simp] theorem setVringAvailEvent_idx (num : UInt32) (vr : Vring)
    (event : UInt16) :
    (setVringAvailEvent num vr event).used.idx = vr.used.idx := rfl

@[simp] theorem vringUsedEvent_set (num : UInt32) (vr : Vring)
    (event : UInt16) :
    vringUsedEvent num (setVringUsedEvent num vr event) = event := by
  simp [vringUsedEvent, setVringUsedEvent]

@[simp] theorem vringAvailEvent_set (num : UInt32) (vr : Vring)
    (event : UInt16) :
    vringAvailEvent num (setVringAvailEvent num vr event) = event := by
  simp only [vringAvailEvent, setVringAvailEvent, Function.update_self]
  apply UInt16.toBitVec_inj.mp
  simp only [UInt32.toBitVec_toUInt16, UInt32.toBitVec_or, UInt32.toBitVec_and,
    UInt16.toBitVec_toUInt32]
  ext i hi
  simp

end OpenAmp.Virtio
