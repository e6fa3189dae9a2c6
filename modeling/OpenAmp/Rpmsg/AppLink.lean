import OpenAmp.Rpmsg.Link
import OpenAmp.Rpmsg.RxSystem
import OpenAmp.Rpmsg.TxSystem
import OpenAmp.Virtio.Notify

/-!
# A link with its applications

Both ends of a link as `rpmsg_init_vdev` leaves them, with an application
at either end that gets, sends and releases transmission buffers and
holds and releases received ones, in any number of threads. The sender of
a lane moves as `TxStep` says and its receiver as `RxStep` says; nobody
else moves, so what those relations leave to an honest peer is done by
the code at the other end.
-/

namespace OpenAmp.Rpmsg

open OpenAmp.Lib OpenAmp.Metal OpenAmp.Virtio

/-- The sender's list head, which is in its own memory, is not inside the
pool. -/
def LaneConfig.Outside (cfg : LaneConfig) : Prop :=
  shmOff cfg.senderIo cfg.reclaimer < shmOff cfg.vq.drvIo cfg.shpool.base ∨
    shmOff cfg.vq.drvIo cfg.shpool.base + cfg.shpool.size.toNat ≤
      shmOff cfg.senderIo cfg.reclaimer

/-- A lane whose buffers have room for a node of the list of reclaimed
ones. -/
structure AppLaneConfig extends LaneConfig where
  shm : Mem
  room : RECLAIMER_SIZE ≤ bufSize.toNat
  outside : toLaneConfig.Outside

theorem AppLaneConfig.pool_outside (cfg : AppLaneConfig)
    (hr : cfg.role = .driver) :
    PoolOk cfg.vq.drvIo cfg.shpool cfg.reclaimer where
  toPoolMapped := cfg.pool_ok.toPoolMapped
  outside := by
    have hvirt := UInt64.le_iff_toNat_le.mp cfg.pool_ok.mapped
    have hout := cfg.outside
    simp only [LaneConfig.Outside, LaneConfig.senderIo, hr] at hout
    rw [shmOff_eq hvirt] at hout
    by_contra hin
    have hrec : cfg.vq.drvIo.virt.toNat ≤ cfg.reclaimer.toNat := by omega
    rw [shmOff_eq hrec] at hout
    omega

/-- The sender of the lane. -/
def AppLaneConfig.tx (cfg : AppLaneConfig) : TxConfig where
  vq := cfg.vq
  role := cfg.role
  room := RECLAIMER_SIZE
  h2rBufSize := cfg.bufSize
  shpool := cfg.shpool
  shm := cfg.shm
  reclaimer := cfg.reclaimer
  room_le := fun _ => cfg.room
  pool_ok := cfg.pool_outside

/-- The receiver of the lane. -/
def AppLaneConfig.rx (cfg : AppLaneConfig) : RxConfig where
  vq := cfg.vq
  role := cfg.role.peer
  r2hBufSize := cfg.bufSize
  shpool := cfg.shpool
  shm := cfg.shm
  pool_ok := fun _ => cfg.pool_ok.toPoolMapped

/-- One direction of the link: its ends, the buffers with the sending
application, and all receptions so far. -/
structure AppLane extends LaneEnds where
  held : List TxHeld
  rx : List Received

/-- The sender's part of a lane. -/
def AppLane.txSystem (cfg : LaneConfig) (shm : Mem) (l : AppLane) :
    TxSystem where
  us := l.sender cfg shm
  peer := l.rvq
  held := l.held
  taken := []
  log := []

/-- The lane after a step of its sender. -/
def AppLane.withTx (l : AppLane) (t : TxSystem) : AppLane :=
  { l with toLaneEnds := l.toLaneEnds.withSender t.us, held := t.held }

/-- The receiver's part of a lane. -/
def AppLane.rxSystem (cfg : LaneConfig) (shm : Mem) (l : AppLane) :
    RxSystem where
  us := l.receiver cfg shm
  peer := l.svq
  rx := l.rx
  taken := []

/-- The lane after a step of its receiver. -/
def AppLane.withRx (l : AppLane) (t : RxSystem) : AppLane :=
  { l with toLaneEnds := l.toLaneEnds.withReceiver t.us, rx := t.rx }

inductive AppLaneStep (cfg : AppLaneConfig) :
    Mem → AppLane → Mem → AppLane → Prop where
  | send {shm : Mem} {l : AppLane} {a : TxAct} {t : TxSystem}
      (ha : a ≠ .peer)
      (h : TxStep cfg.tx (l.txSystem cfg.toLaneConfig shm) a t) :
      AppLaneStep cfg shm l t.us.mem.shm (l.withTx t)
  | receive {shm : Mem} {l : AppLane} {a : RxAct} {t : RxSystem}
      (ha : a ≠ .peer)
      (h : RxStep cfg.rx (l.rxSystem cfg.toLaneConfig shm) a t) :
      AppLaneStep cfg shm l t.us.shm (l.withRx t)

/-- The transmission buffers a driver has outstanding: with the
application, or queued. -/
def AppLane.outstanding (l : AppLane) : Nat :=
  l.held.length + l.svq.cookies.length

/-! ## The two lanes -/

/-- A link whose buffers have room for a node of the list of reclaimed
ones, with both list heads outside the pools. -/
structure AppLinkConfig extends LinkLayout where
  h2r_room : RECLAIMER_SIZE ≤ h2rBufSize.toNat
  r2h_room : RECLAIMER_SIZE ≤ r2hBufSize.toNat
  host_outside : toLinkLayout.toRemote.Outside
  remote_outside : toLinkLayout.toHost.Outside

def AppLinkConfig.toRemote (cfg : AppLinkConfig) : AppLaneConfig where
  toLaneConfig := cfg.toLinkLayout.toRemote
  shm := cfg.shm
  room := cfg.h2r_room
  outside := cfg.host_outside

def AppLinkConfig.toHost (cfg : AppLinkConfig) : AppLaneConfig where
  toLaneConfig := cfg.toLinkLayout.toHost
  shm := cfg.shm
  room := cfg.r2h_room
  outside := cfg.remote_outside

structure AppLink where
  shm : Mem
  toRemote : AppLane
  toHost : AppLane

/-- Both sides after `rpmsg_init_vdev`, if the host's succeeds. -/
def AppLink.init (cfg : LinkLayout) : Option AppLink :=
  (LinkSystem.init cfg).map fun s =>
    { shm := s.shm
      toRemote := { s.toRemote.toLaneEnds with held := [], rx := [] }
      toHost := { s.toHost.toLaneEnds with held := [], rx := [] } }

inductive AppLinkStep (cfg : AppLinkConfig) : AppLink → AppLink → Prop where
  | toRemote {s : AppLink} {shm : Mem} {l : AppLane}
      (h : AppLaneStep cfg.toRemote s.shm s.toRemote shm l) :
      AppLinkStep cfg s { s with shm := shm, toRemote := l }
  | toHost {s : AppLink} {shm : Mem} {l : AppLane}
      (h : AppLaneStep cfg.toHost s.shm s.toHost shm l) :
      AppLinkStep cfg s { s with shm := shm, toHost := l }

/-- The states of the runs in which the host never has more than
`vq_nentries` transmission buffers outstanding. -/
def AppLinkReachable (cfg : AppLinkConfig) : AppLink → Prop :=
  Reachable (fun s => AppLink.init cfg.toLinkLayout = some s) fun s t =>
    AppLinkStep cfg s t ∧ t.toRemote.outstanding ≤ cfg.h2r.num

end OpenAmp.Rpmsg
