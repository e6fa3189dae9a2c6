import OpenAmp.Lib.Transition
import OpenAmp.Virtio.Virtqueue

/-!
# Driver and device on one ring

The system the queue functions are written for: a driver-side virtqueue
and a device-side virtqueue over one shared ring, each call one atomic
step. A state keeps, beside the two queues and the ring, what the two
programs have observed so far:

* `added` — the chains the driver added, in order;
* `taken` — what the device's `virtqueue_get_available_buffer` returned;
* `held` — the numbers (positions in `taken`) of the chains the device
  took and has not returned;
* `returned` — number and length of every chain the device returned;
* `got` — what the driver's `virtqueue_get_buffer` returned.

No queue function reads these lists.

The step relation carries the promises of the two programs: the driver
asks for at least one and at most `vq_free_cnt` descriptors and passes a
cookie, the device returns only chains it holds. Notification calls of
either side may happen at any time.
-/

namespace OpenAmp.Virtio

open OpenAmp.Metal OpenAmp.Lib

/-- One `virtqueue_add_buffer` call as the driver made it: the head the
chain got, its first buffer, its size and its cookie. -/
structure Added where
  head : UInt16
  first : VirtqueueBuf
  readable : Int
  needed : Int
  cookie : UInt64
deriving DecidableEq, Repr

/-- What is fixed for a run: the ring has `2 ^ order` entries, at most
`2 ^ 15`; the feature words, the I/O regions and the notify hooks of the
two sides are arbitrary. -/
structure VqConfig where
  order : Nat
  order_le : order ≤ 15
  drvFeatures : UInt32
  devFeatures : UInt32
  drvIo : MetalIoRegion
  devIo : MetalIoRegion
  drvNotify : Bool
  devNotify : Bool

/-- Two entries are a ring. -/
theorem order_one_le : 1 ≤ 15 := by decide

/-- The number of ring entries. -/
def VqConfig.num (cfg : VqConfig) : Nat := 2 ^ cfg.order

/-- The ring size as the queues store it. -/
def VqConfig.nentries (cfg : VqConfig) : UInt16 := UInt16.ofNat cfg.num

structure VqSystem where
  drv : Virtqueue
  dev : Virtqueue
  ring : Vring
  added : List Added
  taken : List AvailableBuffer
  held : List Nat
  returned : List (Nat × UInt32)
  got : List GotBuffer

/-- Both queues freshly allocated and created over a zeroed ring. -/
def VqSystem.init (cfg : VqConfig) : VqSystem :=
  let drvDev := ⟨.driver, cfg.drvFeatures⟩
  let devDev := ⟨.device, cfg.devFeatures⟩
  let (_, drv, ring) := virtqueueCreate drvDev cfg.nentries cfg.drvNotify
    (virtqueueAllocate drvDev cfg.drvIo) zeroedVring
  let (_, dev, ring) := virtqueueCreate devDev cfg.nentries cfg.devNotify
    (virtqueueAllocate devDev cfg.devIo) ring
  { drv := drv, dev := dev, ring := ring,
    added := [], taken := [], held := [], returned := [], got := [] }

/-! ## The calls -/

/-- Driver: `virtqueue_add_buffer`. -/
def VqSystem.addBuffer (s : VqSystem) (bufList : Nat → VirtqueueBuf)
    (readable writable : Int) (cookie : UInt64) : VqSystem :=
  let (_, drv, ring) :=
    virtqueueAddBuffer s.drv s.ring bufList readable writable cookie
  { s with
    drv := drv
    ring := ring
    added := s.added ++ [{
      head := s.drv.vqDescHeadIdx
      first := bufList 0
      readable := readable
      needed := readable + writable
      cookie := cookie }] }

/-- Driver: `virtqueue_get_buffer`. -/
def VqSystem.getBuffer (s : VqSystem) : Option VqSystem :=
  (virtqueueGetBuffer s.drv s.ring).map fun (r, drv, ring) =>
    { s with drv := drv, ring := ring, got := s.got ++ r.toList }

/-- Device: `virtqueue_get_available_buffer`. -/
def VqSystem.getAvailableBuffer (s : VqSystem) : VqSystem :=
  let (r, dev) := virtqueueGetAvailableBuffer s.dev s.ring
  match r with
  | none => { s with dev := dev }
  | some a => { s with
      dev := dev
      taken := s.taken ++ [a]
      held := s.held ++ [s.taken.length] }

/-- Device: `virtqueue_add_consumed_buffer` on the head of chain `j`. -/
def VqSystem.addConsumedBuffer (s : VqSystem) (j : Nat) (head : UInt16)
    (len : UInt32) : VqSystem :=
  let (_, dev, ring) := virtqueueAddConsumedBuffer s.dev s.ring head len
  { s with
    dev := dev
    ring := ring
    held := s.held.erase j
    returned := s.returned ++ [(j, len)] }

/-- One atomic step of the system. -/
inductive VqStep : VqSystem → VqSystem → Prop where
  | addBuffer {s : VqSystem} (bufList : Nat → VirtqueueBuf)
      (readable writable : Int) (cookie : UInt64)
      (hpos : 1 ≤ readable + writable)
      (hroom : readable + writable ≤ s.drv.vqFreeCnt.toNat)
      (hcookie : cookie ≠ 0) :
      VqStep s (s.addBuffer bufList readable writable cookie)
  | getBuffer {s t : VqSystem} (h : s.getBuffer = some t) : VqStep s t
  | getAvailableBuffer {s : VqSystem} : VqStep s s.getAvailableBuffer
  | addConsumedBuffer {s : VqSystem} (j : Nat) (a : AvailableBuffer)
      (len : UInt32) (hheld : j ∈ s.held) (htaken : s.taken[j]? = some a) :
      VqStep s (s.addConsumedBuffer j a.availIdx len)
  | drvKick {s : VqSystem} :
      VqStep s { s with drv := (virtqueueKick s.drv s.ring).2 }
  | devKick {s : VqSystem} :
      VqStep s { s with dev := (virtqueueKick s.dev s.ring).2 }
  | drvEnableCb {s : VqSystem} :
      VqStep s { s with ring := (virtqueueEnableCb s.drv s.ring).2 }
  | devEnableCb {s : VqSystem} :
      VqStep s { s with ring := (virtqueueEnableCb s.dev s.ring).2 }
  | drvDisableCb {s : VqSystem} :
      VqStep s { s with ring := virtqueueDisableCb s.drv s.ring }
  | devDisableCb {s : VqSystem} :
      VqStep s { s with ring := virtqueueDisableCb s.dev s.ring }

/-- The states of all runs of the two programs. -/
def VqReachable (cfg : VqConfig) : VqSystem → Prop :=
  Reachable (· = VqSystem.init cfg) VqStep

/-! ## What a run is observed to do -/

/-- What the device sees of a chain: its head, and its first buffer at
the address the device's region gives it. -/
def Added.view (cfg : VqConfig) (a : Added) : AvailableBuffer where
  buffer := metalIoPhysToVirt cfg.devIo (metalIoVirtToPhys cfg.drvIo a.first.buf)
  availIdx := a.head
  len := a.first.len.toUInt32

/-- The (cookie, len) pairs of the chains the device returned, in the
order of their return: the cookie the driver passed for the chain and
the length the device returned it with. -/
def VqSystem.returnedCookies (s : VqSystem) : List (UInt64 × UInt32) :=
  s.returned.filterMap fun (j, len) =>
    s.added[j]?.map fun a => (a.cookie, len)

/-- The numbers of the chains the driver added and has not got back. -/
def VqSystem.outstanding (s : VqSystem) : List Nat :=
  (List.range s.added.length).filter fun j =>
    j ∉ (s.returned.take s.got.length).map Prod.fst

end OpenAmp.Virtio
