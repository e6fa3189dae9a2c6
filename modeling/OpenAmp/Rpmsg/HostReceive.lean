import OpenAmp.Rpmsg.Delivery
import OpenAmp.Virtio.Untrusted

/-!
# The host's receive path and any peer

The host side of the receive queue alone. Whatever else has access to the
shared memory is one step that may put anything in place of the rings,
the descriptor table and the bytes of the buffers; nothing is left to the
host but what it keeps for itself.

The steps of the host are its critical sections and the stretches between
them, in any number of threads: the application may hold or release a
buffer it was handed out at any time, as often as it likes.

A state keeps, beside the device, the receptions so far, every index into
`vq_descx` or the descriptor table that `virtqueue_get_buffer` has used,
and the calls of endpoint callbacks. No function reads these three.
-/

namespace OpenAmp.Rpmsg

open OpenAmp.Lib OpenAmp.Metal OpenAmp.Virtio

/-! ## The system -/

/-- What is fixed for a run; `ring` is the shared memory of the queue as
`virtqueue_create` finds it. -/
structure HostRxConfig where
  vq : VqConfig
  r2hBufSize : UInt32
  shpool : ShmPool
  shm : Mem
  ring : Vring
  rdev : RpmsgDevice
  pool_ok : PoolMapped vq.drvIo shpool

/-- A buffer received, the endpoint found for it, and how often it was put
back on the queue. -/
structure HostRound where
  buf : VqBuffer
  ept : Option Nat
  phase : RoundPhase
  putBacks : Nat
deriving DecidableEq, Repr

/-- The arguments of a call of an endpoint's callback. -/
structure HostCall where
  ept : Nat
  data : UInt64
  len : UInt16
  src : UInt32
deriving DecidableEq, Repr

structure HostRx where
  us : RxDevice
  rdev : RpmsgDevice
  rounds : List HostRound
  indexed : List UInt16
  calls : List HostCall

/-- The receive queue as `rpmsg_init_vdev_with_config` leaves it, if it
succeeds. -/
def HostRx.init (cfg : HostRxConfig) : Option HostRx :=
  let dev := ⟨.driver, cfg.vq.drvFeatures⟩
  let (_, rvq, ring) := virtqueueCreate dev cfg.vq.nentries cfg.vq.drvNotify
    (virtqueueAllocate dev cfg.vq.drvIo) cfg.ring
  (rpmsgInitRxBuffers cfg.r2hBufSize cfg.vq.num cfg.shpool rvq ring).map
    fun (_, rvq, ring) =>
      ⟨⟨rvq, ring, cfg.vq.drvIo, cfg.shm⟩, cfg.rdev, [], [], []⟩

/-- The lookup in the first locked part of a round. -/
def HostRx.found (s : HostRx) (b : VqBuffer) : HostRx :=
  let ept := rpmsgGetEptFromAddr s.rdev (readHdr s.us.io s.us.shm b.data).dst
  { s with
    rdev := ept.elim s.rdev (s.rdev.modify · rpmsgEptIncref)
    rounds := s.rounds ++ [⟨b, ept, .found, 0⟩] }

/-- The first locked part of a round. A walk that never ends uses its
indices and gets no further. -/
def HostRx.take (s : HostRx) : HostRx :=
  let walk := virtqueueGetBufferWalk s.us.rvq s.us.ring
  let s := { s with indexed := s.indexed ++ walk.log }
  match rxTakeBuffer s.us with
  | none => s
  | some (none, us) => { s with us := us }
  | some (some b, us) => { s with us := us }.found b

/-- The arguments of `ept->cb`; the data is behind the header. -/
def hostCall (us : RxDevice) (b : VqBuffer) (ept : Nat) : HostCall :=
  let rpHdr := readHdr us.io us.shm b.data
  ⟨ept, b.data + UInt64.ofNat RPMSG_HDR_SIZE, rpHdr.len, rpHdr.src⟩

/-- What moves, with what the move depends on. -/
inductive HostAct where
  | take
  | call (r : HostRound)
  | giveUp (r : HostRound)
  | hold
  | endpoints
  | peer (ring : Vring) (shm : Mem)

inductive HostStep : HostRx → HostAct → HostRx → Prop where
  | take {s : HostRx} : HostStep s .take s.take
  | call {s : HostRx} {l₁ l₂ : List HostRound} {r : HostRound}
      (hrounds : s.rounds = l₁ ++ r :: l₂) (hphase : r.phase = .found) :
      HostStep s (.call r) { s with
        rdev := r.ept.elim s.rdev (s.rdev.modify ·
          (learnDest (readHdr s.us.io s.us.shm r.buf.data).src))
        rounds := l₁ ++ { r with phase := .called } :: l₂
        calls := s.calls ++ r.ept.toList.map (hostCall s.us r.buf) }
  | finish {s : HostRx} {l₁ l₂ : List HostRound} {r : HostRound}
      {st : Option Int} {us : RxDevice} (hrounds : s.rounds = l₁ ++ r :: l₂)
      (hphase : r.phase = .called)
      (h : rpmsgVirtioReleaseRxBuffer s.us r.buf.data = (st, us)) :
      HostStep s (.giveUp r) { s with
        us := us
        rdev := r.ept.elim s.rdev (s.rdev.modify · rpmsgEptDecref)
        rounds := l₁ ++ { r with
          phase := .finished
          putBacks := r.putBacks + st.toList.length } :: l₂ }
  | release {s : HostRx} {l₁ l₂ : List HostRound} {r : HostRound}
      {st : Option Int} {us : RxDevice} (hrounds : s.rounds = l₁ ++ r :: l₂)
      (h : rpmsgVirtioReleaseRxBuffer s.us r.buf.data = (st, us)) :
      HostStep s (.giveUp r) { s with
        us := us
        rounds := l₁ ++ { r with
          putBacks := r.putBacks + st.toList.length } :: l₂ }
  | hold {s : HostRx} {r : HostRound} (hr : r ∈ s.rounds) :
      HostStep s .hold { s with us := rpmsgVirtioHoldRxBuffer s.us r.buf.data }
  | endpoints {s : HostRx} (rdev : RpmsgDevice) :
      HostStep s .endpoints { s with rdev := rdev }
  | peer {s : HostRx} (ring : Vring) (shm : Mem) :
      HostStep s (.peer ring shm)
        { s with us := { s.us with ring := ring, shm := shm } }

/-! ## What is said about a run -/

/-- What a callback is called with is the payload part of a buffer of the
pool. -/
structure HostCall.Inside (cfg : HostRxConfig) (c : HostCall) : Prop where
  ne_null : c.data ≠ 0
  pool : ∃ p ∈ cfg.shpool.cut cfg.r2hBufSize.toNat cfg.vq.num,
    c.data = p + UInt64.ofNat RPMSG_HDR_SIZE
  len : c.len.toNat + RPMSG_HDR_SIZE ≤ cfg.r2hBufSize.toNat

/-- The peer has done no harm: indices stay in the tables, the free count
stays within the queue, and endpoints see payload only. -/
structure HostRx.Unharmed (cfg : HostRxConfig) (s : HostRx) : Prop where
  indexed : ∀ i ∈ s.indexed, i.toNat < cfg.vq.num
  freeCnt : s.us.rvq.vqFreeCnt.toNat ≤ cfg.vq.num
  calls : ∀ c ∈ s.calls, c.Inside cfg

/-- What the step finds in shared memory is in order: the used element
names a descriptor that is lent, the length in the header fits the buffer,
the hold count lets a buffer go only once, and the peer leaves the links
of the free descriptors and the flags of the others as they are. -/
def HostRx.InOrder (cfg : HostRxConfig) (s : HostRx) : HostAct → Prop
  | .take => s.us.rvq.vqUsedConsIdx = s.us.ring.used.idx ∨
      (nextUsed s.us.rvq s.us.ring).id.toUInt16.toNat < cfg.vq.num ∧
        (s.us.rvq.vqDescx
          (nextUsed s.us.rvq s.us.ring).id.toUInt16).cookie ≠ 0
  | .call r => r.ept.isSome →
      (readHdr s.us.io s.us.shm r.buf.data).len.toNat + RPMSG_HDR_SIZE ≤
        cfg.r2hBufSize.toNat
  | .giveUp r => (rpmsgVirtioBufHeldDecTest
      (hdrReserved s.us.io s.us.shm r.buf.data)).1 = true → r.putBacks = 0
  | .peer ring _ => ∀ i : UInt16, i.toNat < cfg.vq.num →
      if (s.us.rvq.vqDescx i).cookie = 0 then
        (ring.desc i).next = (s.us.ring.desc i).next
      else (ring.desc i).flags = (s.us.ring.desc i).flags
  | _ => True

/-! ## The invariant -/

/-- The buffers of the pool that the receive queue goes round with. -/
def HostRxConfig.Pooled (cfg : HostRxConfig) (p : UInt64) : Prop :=
  p ∈ cfg.shpool.cut cfg.r2hBufSize.toNat cfg.vq.num

/-- The receptions not yet put back. -/
def stillOut (rounds : List HostRound) : Nat :=
  rounds.countP fun r => r.putBacks = 0

/-- **The invariant of the receive path**, with the free descriptors. -/
structure HostRxInv (cfg : HostRxConfig) (s : HostRx) (free : List UInt16) :
    Prop where
  io : s.us.io = cfg.vq.drvIo
  role : s.us.role = .driver
  lent : Lent cfg.vq.num cfg.Pooled s.us.rvq s.us.ring.desc free
  fits : cfg.vq.num * cfg.r2hBufSize.toNat ≤ cfg.shpool.avail.toNat
  out : free.length = stillOut s.rounds
  bufs : ∀ r ∈ s.rounds, cfg.Pooled r.buf.data ∧ r.buf.data ≠ 0
  indexed : ∀ i ∈ s.indexed, i.toNat < cfg.vq.num
  calls : ∀ c ∈ s.calls, c.Inside cfg

variable {cfg : HostRxConfig} {s : HostRx} {free : List UInt16}
  {l₁ l₂ : List HostRound} {r r' : HostRound} {us : RxDevice} {n : Nat}
  {p : UInt64 → Prop}

theorem HostRxInv.unharmed (h : HostRxInv cfg s free) : s.Unharmed cfg where
  indexed := h.indexed
  freeCnt := h.lent.freeCnt_le cfg.vq.num_le
  calls := h.calls

theorem stillOut_append (l₁ l₂ : List HostRound) :
    stillOut (l₁ ++ l₂) = stillOut l₁ + stillOut l₂ :=
  List.countP_append

theorem stillOut_replace (h : r'.putBacks = r.putBacks) :
    stillOut (l₁ ++ r' :: l₂) = stillOut (l₁ ++ r :: l₂) := by
  simp only [stillOut, List.countP_append, List.countP_cons, h]

/-! ## Initialisation -/

/-- **The buffers lent at initialisation** are the pool's first pieces. -/
theorem rpmsgInitRxBuffers_lent {io : MetalIoRegion} {size : UInt32}
    (k : Nat) : ∀ {pool pool' : ShmPool} {rvq rvq' : Virtqueue}
    {ring ring' : Vring} {free : List UInt16},
    PoolMapped io pool → Lent n p rvq ring.desc free → k ≤ free.length →
    (∀ b ∈ pool.cut size.toNat k, p b) →
    rpmsgInitRxBuffers size k pool rvq ring = some (pool', rvq', ring') →
    k * size.toNat ≤ pool.avail.toNat ∧ rvq'.vqDev = rvq.vqDev ∧
      Lent n p rvq' ring'.desc (free.drop k) := by
  induction k with
  | zero =>
    intro pool pool' rvq rvq' ring ring' free _ hl _ _ h
    simp only [rpmsgInitRxBuffers, Option.some.injEq, Prod.mk.injEq] at h
    obtain ⟨rfl, rfl, rfl⟩ := h
    exact ⟨by simp, rfl, hl⟩
  | succ k ih =>
    intro pool pool' rvq rvq' ring ring' free hp hl hk hb h
    obtain ⟨x, rest, rfl⟩ := List.exists_cons_of_length_pos
      (show 0 < free.length by omega)
    -- the pool could serve this round, else the loop had failed
    have hroom : size.toUInt64 ≠ 0 ∧ size.toUInt64 ≤ pool.avail := by
      by_contra hno
      have hnull : size.toUInt64 = 0 ∨ pool.avail < size.toUInt64 := by
        by_cases h0 : size.toUInt64 = 0
        · exact .inl h0
        · exact .inr (UInt64.not_le.mp fun hle => hno ⟨h0, hle⟩)
      simp [rpmsgInitRxBuffers, rpmsgVirtioShmPoolGetBuffer, if_pos hnull] at h
    obtain ⟨b, hb0, hget, hbn, hp'⟩ := hp.getBuffer hroom.1 hroom.2
    have hle := UInt64.le_iff_toNat_le.mp hroom.2
    have hsub := UInt64.toNat_sub_of_le _ _ hroom.2
    rw [UInt32.toNat_toUInt64] at hle hsub
    have hval : b = UInt64.ofNat
        (pool.base.toNat + pool.size.toNat - pool.avail.toNat) := by
      rw [← UInt64.ofNat_toNat (x := b)]
      congr 1
      omega
    have hcut := ShmPool.cut_succ { pool with
      avail := pool.avail - size.toUInt64 } hp.avail_le hle ⟨rfl, rfl, hsub⟩ k
    rw [hcut, ← hval] at hb
    obtain ⟨rvq₁, ring₁, hadd, hdev, hl₁⟩ := hl.add
      ⟨b, size.toInt32⟩ (show (0 : Int) + 1 = 1 by rfl) hb0 (hb b (by simp))
    simp only [rpmsgInitRxBuffers, hget, if_neg hb0, hadd, ne_eq,
      not_true_eq_false, if_false] at h
    obtain ⟨hfit, hdev', hl'⟩ := ih hp' hl₁ (by simpa using hk)
      (fun c hc => hb c (by simp [hc])) h
    simp only at hfit
    rw [Nat.succ_mul]
    exact ⟨by omega, hdev'.trans hdev, hl'⟩

/-- Everything is lent, nothing received. -/
theorem hostRxInv_init (h : HostRx.init cfg = some s) :
    HostRxInv cfg s [] := by
  have hnum := cfg.vq.toNat_nentries
  obtain ⟨rvq, ring, hcreate, hdev, hlent⟩ := Lent.create cfg.Pooled
    ⟨.driver, cfg.vq.drvFeatures⟩ rfl
    (show 0 < cfg.vq.nentries.toNat from hnum ▸ cfg.vq.num_pos)
    (hnum ▸ cfg.vq.num_le) cfg.vq.drvNotify cfg.vq.drvIo cfg.ring
  simp only [HostRx.init, hcreate, Option.map_eq_some_iff] at h
  obtain ⟨⟨pool, rvq', ring'⟩, hbufs, rfl⟩ := h
  rw [hnum] at hlent
  obtain ⟨hfit, hdev', hlent'⟩ := rpmsgInitRxBuffers_lent cfg.vq.num
    cfg.pool_ok hlent (by simp) (fun b hb => hb) hbufs
  rw [List.drop_eq_nil_of_le (by simp)] at hlent'
  refine ⟨rfl, ?_, hlent', hfit, rfl, ?_, ?_, ?_⟩
  · simp only [RxDevice.role, hdev', hdev]
  all_goals
    intro x hx
    cases hx

/-! ## The steps -/

/-- **A reception** whose used element is in order. -/
theorem HostRxInv.take (h : HostRxInv cfg s free)
    (hord : s.InOrder cfg .take) : ∃ free', HostRxInv cfg s.take free' := by
  have hrole := h.role
  rw [RxDevice.role] at hrole
  by_cases hnew : s.us.rvq.vqUsedConsIdx = s.us.ring.used.idx
  · have hget : rpmsgVirtioGetRxBuffer s.us = some (none, s.us) := by
      simp only [rpmsgVirtioGetRxBuffer, RxDevice.role, hrole,
        virtqueueGetBuffer, if_pos hnew, Option.map_some, Option.bind_none]
    refine ⟨free, ?_⟩
    simp only [HostRx.take, rxTakeBuffer_eq hget, virtqueueGetBufferWalk,
      if_pos hnew, Traced.log_pure, List.append_nil, Option.elim_none]
    exact h
  · obtain ⟨hlt, hlent⟩ := hord.resolve_left hnew
    obtain ⟨hlog, g, rvq, ring, hgot, hg, hp, hdev, hl⟩ :=
      h.lent.get hnew rfl hlt hlent
    have hne : g.cookie ≠ 0 := hg ▸ hlent
    have hget : rpmsgVirtioGetRxBuffer s.us = some (some
        ⟨g.cookie, g.len, g.idx⟩, { s.us with rvq := rvq, ring := ring }) := by
      simp only [rpmsgVirtioGetRxBuffer, RxDevice.role, hrole, hgot,
        Option.map_some, Option.bind_some, if_neg hne]
    refine ⟨(nextUsed s.us.rvq s.us.ring).id.toUInt16 :: free, ?_⟩
    simp only [HostRx.take, rxTakeBuffer_eq hget, HostRx.found,
      Option.elim_some]
    refine ⟨h.io, ?_, hl, h.fits, ?_, ?_, ?_, h.calls⟩
    · simp only [RxDevice.role, hdev, hrole]
    · rw [stillOut_append, ← h.out]
      rfl
    · intro r hr
      rcases List.mem_append.mp hr with hr | hr
      · exact h.bufs r hr
      · rw [List.mem_singleton.mp hr]
        exact ⟨hp, hne⟩
    · intro i hi
      rcases List.mem_append.mp hi with hi | hi
      · exact h.indexed i hi
      · rw [hlog i hi]
        exact hlt

/-- **Giving up a hold**: the buffer goes back if the hold count lets it,
and a descriptor is free for it. -/
theorem release_lent (hrole : us.role = .driver)
    (h : Lent n p us.rvq us.ring.desc free) {data : UInt64} (hne : data ≠ 0)
    (hp : p data)
    (hfree : (rpmsgVirtioBufHeldDecTest (hdrReserved us.io us.shm data)).1 =
      true → free ≠ []) {st : Option Int} {us' : RxDevice}
    (hrel : rpmsgVirtioReleaseRxBuffer us data = (st, us')) :
    us'.io = us.io ∧ us'.role = .driver ∧
      (st.isSome ↔ (rpmsgVirtioBufHeldDecTest
        (hdrReserved us.io us.shm data)).1 = true) ∧
      Lent n p us'.rvq us'.ring.desc (free.drop st.toList.length) := by
  rw [RxDevice.role] at hrole
  unfold rpmsgVirtioReleaseRxBuffer at hrel
  generalize rpmsgVirtioBufHeldDecTest (hdrReserved us.io us.shm data) = t
    at hfree hrel ⊢
  obtain ⟨last, reserved⟩ := t
  cases last with
  | false =>
    simp only [Bool.false_eq_true, if_false] at hrel
    cases hrel
    exact ⟨rfl, hrole, by simp, h⟩
  | true =>
    obtain ⟨x, rest, rfl⟩ := List.exists_cons_of_ne_nil (hfree rfl)
    simp only [if_true, rpmsgVirtioReleaseRxBufferNolock,
      rpmsgVirtioReturnBuffer, RxDevice.role, hrole] at hrel
    -- whatever length the index in the header leads to
    generalize virtqueueGetBufferLength us.ring _ = len at hrel
    obtain ⟨rvq, ring, hadd, hdev, hl⟩ := h.add ⟨data, len.toInt32⟩
      (show (0 : Int) + 1 = 1 by rfl) hne hp
    rw [hadd] at hrel
    cases hrel
    refine ⟨rfl, ?_, by simp, hl.withQueued 0⟩
    simp only [RxDevice.role, virtqueueKick, hdev, hrole]

theorem HostRxInv.giveUp (h : HostRxInv cfg s free)
    (hrounds : s.rounds = l₁ ++ r :: l₂) (hord : s.InOrder cfg (.giveUp r))
    {st : Option Int}
    (hrel : rpmsgVirtioReleaseRxBuffer s.us r.buf.data = (st, us))
    (hbuf : r'.buf = r.buf)
    (hputs : r'.putBacks = r.putBacks + st.toList.length)
    (rdev : RpmsgDevice) :
    ∃ free', HostRxInv cfg { s with
      us := us
      rdev := rdev
      rounds := l₁ ++ r' :: l₂ } free' := by
  have hr : r ∈ s.rounds := by simp [hrounds]
  have hout := h.out
  rw [hrounds] at hout
  have hfree : (rpmsgVirtioBufHeldDecTest
      (hdrReserved s.us.io s.us.shm r.buf.data)).1 = true → free ≠ [] := by
    intro hlast h0
    -- a buffer not put back has its descriptor free
    simp [stillOut, hord hlast, h0] at hout
  obtain ⟨hio, hrole, hst, hl⟩ := release_lent h.role h.lent
    (h.bufs r hr).2 (h.bufs r hr).1 hfree hrel
  refine ⟨_, hio.trans h.io, hrole, hl, h.fits, ?_, ?_, h.indexed, h.calls⟩
  · cases st with
    | none =>
      show free.length = _
      rw [hout]
      exact (stillOut_replace hputs).symm
    | some status =>
      have h0 := hord (hst.mp rfl)
      have hgone : r'.putBacks ≠ 0 := by rw [hputs]; simp
      simp only [stillOut, List.countP_append, List.countP_cons, h0,
        decide_true, if_true] at hout
      simp only [stillOut, List.length_drop, List.countP_append,
        List.countP_cons, hgone, decide_false, Option.toList_some,
        List.length_singleton, hout, Bool.false_eq_true, if_false]
      omega
  · intro x hx
    rcases List.mem_append.mp hx with hx | hx
    · exact h.bufs x (by simp [hrounds, hx])
    · rcases List.mem_cons.mp hx with rfl | hx
      · rw [hbuf]
        exact h.bufs r hr
      · exact h.bufs x (by simp [hrounds, hx])

/-- **A callback** is called with payload of a pool buffer, if the length
in the header is in order. -/
theorem HostRxInv.inside (h : HostRxInv cfg s free) (hr : r ∈ s.rounds)
    (hord : s.InOrder cfg (.call r)) {e : Nat} (he : r.ept = some e) :
    (hostCall s.us r.buf e).Inside cfg := by
  have hlen := hord (by simp [he])
  have hbuf := (h.bufs r hr).1
  obtain ⟨i, hi, heq⟩ := List.mem_map.mp hbuf
  rw [List.mem_range] at hi
  have hnat := cfg.pool_ok.cut_toNat h.fits hi
  rw [heq] at hnat
  have hmul : (i + 1) * cfg.r2hBufSize.toNat ≤
      cfg.vq.num * cfg.r2hBufSize.toNat := Nat.mul_le_mul_right _ hi
  rw [Nat.succ_mul] at hmul
  have hbound := cfg.pool_ok.bound
  have hav := UInt64.le_iff_toNat_le.mp cfg.pool_ok.avail_le
  have hfits := h.fits
  refine ⟨?_, ⟨r.buf.data, hbuf, rfl⟩, hlen⟩
  intro h0
  have h0' := congrArg UInt64.toNat h0
  rw [hostCall, UInt64.toNat_add, UInt64.toNat_ofNat'] at h0'
  simp only [RPMSG_HDR_SIZE, UInt64.toNat_zero] at h0' hlen
  omega

/-- **A step that finds shared memory in order** keeps the invariant. -/
theorem HostRxInv.step (h : HostRxInv cfg s free) {a : HostAct} {t : HostRx}
    (hord : s.InOrder cfg a) (hst : HostStep s a t) :
    ∃ free', HostRxInv cfg t free' := by
  cases hst with
  | take => exact h.take hord
  | @call l₁ l₂ r hrounds hphase =>
    have hr : r ∈ s.rounds := by simp [hrounds]
    refine ⟨free, h.io, h.role, h.lent, h.fits, ?_, ?_, h.indexed, ?_⟩
    · rw [h.out, hrounds]
      exact (stillOut_replace (by rfl)).symm
    · intro x hx
      rcases List.mem_append.mp hx with hx | hx
      · exact h.bufs x (by simp [hrounds, hx])
      · rcases List.mem_cons.mp hx with rfl | hx
        · exact h.bufs r hr
        · exact h.bufs x (by simp [hrounds, hx])
    · intro c hc
      rcases List.mem_append.mp hc with hc | hc
      · exact h.calls c hc
      · obtain ⟨e, he, rfl⟩ := List.mem_map.mp hc
        exact h.inside hr hord (Option.mem_toList.mp he)
  | finish hrounds hphase hrel => exact h.giveUp hrounds hord hrel (by rfl) (by rfl) _
  | release hrounds hrel => exact h.giveUp hrounds hord hrel (by rfl) (by rfl) _
  | hold hr =>
    exact ⟨free, h.io, h.role, h.lent, h.fits, h.out, h.bufs, h.indexed,
      h.calls⟩
  | endpoints rdev =>
    exact ⟨free, h.io, h.role, h.lent, h.fits, h.out, h.bufs, h.indexed,
      h.calls⟩
  | peer ring shm =>
    refine ⟨free, h.io, h.role, h.lent.withDesc ?_ ?_, h.fits, h.out, h.bufs,
      h.indexed, h.calls⟩
    · intro i hi
      have hin := h.lent.lt i hi
      have hsame := hord i hin
      rwa [if_pos ((h.lent.vacant i hin).mp hi)] at hsame
    · intro i hin hi
      have hsame := hord i hin
      rwa [if_neg fun h0 => hi ((h.lent.vacant i hin).mpr h0)] at hsame

/-! ## The result -/

/-- **The receive path is unharmed** in every run whose steps all find the
shared memory in order. -/
theorem unharmed_of_inOrder {s₀ : HostRx} {tr : List HostAct}
    (hinit : HostRx.init cfg = some s₀) (hrun : Path HostStep s₀ tr s)
    (hord : EachStep HostStep s₀ tr (HostRx.InOrder cfg)) :
    s.Unharmed cfg := by
  have hinv : ∃ free, HostRxInv cfg s free := by
    refine hord.keeps (P := fun s => ∃ free, HostRxInv cfg s free) ?_ hrun ?_
    · rintro s a t ⟨free, h⟩ hs hst
      exact h.step hs hst
    · exact ⟨[], hostRxInv_init hinit⟩
  obtain ⟨free, h⟩ := hinv
  exact h.unharmed

/-- A queue of two buffers of 64 bytes, and one endpoint. -/
def peeredHost : HostRxConfig where
  vq := ⟨1, order_one_le, 0, 0, hostIo, remoteIo, true, true⟩
  r2hBufSize := 64
  shpool := rpmsgVirtioInitShmPool 0x1000 0x400
  shm := fun _ => 0
  ring := zeroedVring
  rdev := oneEndpoint 0x400
  pool_ok := poolShared_page.toPoolMapped

theorem peeredHost_starts : (HostRx.init peeredHost).isSome = true := by
  decide +kernel

def peeredStart : HostRx := (HostRx.init peeredHost).get peeredHost_starts

/-- The peer returns descriptor `id`, and its first buffer has a header for
the endpoint with the length `len`. -/
def peerSends (id : UInt32) (len : UInt16) : HostAct :=
  .peer { peeredStart.us.ring with used := ⟨0, 1, fun _ => ⟨id, 64⟩⟩ }
    (writeBytes (fun _ => 0) 0 (RpmsgHdr.bytes ⟨0x401, 0x400, 0, len, 0⟩))

/-- The reception of the buffer sent. -/
def peeredRound : HostRound := ⟨⟨0x1000, 64, 0⟩, some 0, .found, 0⟩

theorem honest_peer_unharmed :
    ∃ s tr, Path HostStep peeredStart tr s ∧
      s.calls = [⟨0, 0x1010, 4, 0x401⟩] ∧ s.Unharmed peeredHost := by
  have hrun : Path HostStep peeredStart
      [peerSends 0 4, .take, .call peeredRound] _ :=
    .cons (.peer _ _) <| .cons .take <|
      .cons (@HostStep.call _ [] [] peeredRound (by decide +kernel) rfl) <|
        .nil _
  refine ⟨_, _, hrun, by decide +kernel, unharmed_of_inOrder
    (Option.some_get peeredHost_starts).symm hrun ?_⟩
  refine EachStep.cons (fun i _ => ?_) ?_
  · split <;> rfl
  · intro s hs
    cases hs
    refine EachStep.cons (.inr (by decide +kernel)) ?_
    intro s hs
    cases hs
    exact EachStep.cons (fun _ => by decide +kernel) fun _ _ => eachStep_nil _ _

/-- The peer writes a hold into the header of the same buffer. -/
def peerHolds : HostAct :=
  .peer peeredStart.us.ring
    (writeBytes (fun _ => 0) 0 (RpmsgHdr.bytes ⟨0, 0, 0x10000, 0, 0⟩))

/-- A message is received, and its buffer released after the round. -/
def releasedTwice : List HostAct :=
  [peerSends 0 4, .take, .call peeredRound,
    .giveUp { peeredRound with phase := .called }, peerHolds,
    .giveUp { peeredRound with phase := .finished, putBacks := 1 }]

/-- An index past the queue, a length past the buffer, and a buffer put
back twice. -/
theorem hostile_peer_harms :
    (∃ s, Path HostStep peeredStart [peerSends 2 4, .take] s ∧
      2 ∈ s.indexed ∧ ¬ s.Unharmed peeredHost) ∧
    (∃ s, Path HostStep peeredStart
        [peerSends 0 0xffff, .take, .call peeredRound] s ∧
      s.calls = [⟨0, 0x1010, 0xffff, 0x401⟩] ∧ ¬ s.Unharmed peeredHost) ∧
    ∃ s, Path HostStep peeredStart releasedTwice s ∧
      s.us.rvq.vqFreeCnt = 0xffff ∧ ¬ s.Unharmed peeredHost := by
  have hindex : Path HostStep peeredStart [peerSends 2 4, .take] _ :=
    .cons (.peer _ _) <| .cons .take <| .nil _
  have hlen : Path HostStep peeredStart
      [peerSends 0 0xffff, .take, .call peeredRound] _ :=
    .cons (.peer _ _) <| .cons .take <|
      .cons (@HostStep.call _ [] [] peeredRound (by decide +kernel) rfl) <|
        .nil _
  have htwice : Path HostStep peeredStart releasedTwice _ :=
    .cons (.peer _ _) <| .cons .take <|
      .cons (@HostStep.call _ [] [] peeredRound (by decide +kernel) rfl) <|
      .cons (@HostStep.finish _ [] [] { peeredRound with phase := .called }
        _ _ (by decide +kernel) rfl rfl) <|
      .cons (.peer _ _) <|
      .cons (@HostStep.release _ [] []
        { peeredRound with phase := .finished, putBacks := 1 }
        _ _ (by decide +kernel) rfl) <|
        .nil _
  refine ⟨⟨_, hindex, by decide +kernel, fun h => ?_⟩,
    ⟨_, hlen, by decide +kernel, fun h => ?_⟩,
    ⟨_, htwice, by decide +kernel, fun h => ?_⟩⟩
  · have hlt := h.indexed 2 (by decide +kernel)
    exact absurd hlt (by decide)
  · have hin := h.calls ⟨0, 0x1010, 0xffff, 0x401⟩ (by decide +kernel)
    exact absurd hin.len (by decide)
  · exact absurd h.freeCnt (by decide +kernel)

end OpenAmp.Rpmsg
