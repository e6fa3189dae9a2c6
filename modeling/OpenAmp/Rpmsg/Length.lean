import OpenAmp.Rpmsg.Delivery

/-!
# The length of a message

The length of a message is an `int` for the sender, a sixteen bit field
of its header and a `uint32_t` for the buffers. The host's configuration
sets the two buffer sizes without a check. A size with no room for a
header, or with more room behind it than an `int` counts, makes the
length of every send negative. With any other size the sender is told
how much was sent, and the receiver the same modulo `2 ^ 16`.
-/

namespace OpenAmp.Rpmsg

open OpenAmp.Lib OpenAmp.Metal OpenAmp.Virtio

/-- What a lane keeps of lengths: a send returns a length that fits
behind the header; the callback gets the same length exactly if the field
of the header counts it, that is if the message or the buffer is short
enough; what the sending thread writes lies in its buffer; and where the
size is of no use, no send comes to a length. -/
structure Lane.Faithful (cfg : LaneConfig) (shm : Mem) (l : Lane) :
    Prop where
  bounded : ∀ m ∈ l.sent, 0 ≤ m.n.toInt ∧
    m.n.toInt + (RPMSG_HDR_SIZE : Nat) ≤ (cfg.bufSize.toNat : Int)
  received : ∀ (i : Nat) (r : Round) (m : Sent), l.rounds[i]? = some r →
    l.sent[i]? = some m → r.phase ≠ .found → ∀ e ∈ r.ept,
      ∃ c, r.calls = [c] ∧ c.ept = e ∧ ((c.len : Int) = m.n.toInt ↔
        m.call.data.length < 65536 ∨ cfg.bufSize.toNat < 65552)
  contained : ∀ (shm' : Mem) (l' : Lane), LaneStep cfg shm l shm' l' →
    l'.thread ≠ l.thread → ∀ x, shm' x ≠ shm x → ∃ b ∈ l.thread.bufs,
      shmOff cfg.senderIo b.data ≤ x ∧
        x < shmOff cfg.senderIo b.data + cfg.bufSize.toNat
  refused : ¬ cfg.Sized → ∀ len : Nat, len < 2147483648 →
    (sendLen (Int32.ofNat len)
      (cfg.bufSize - UInt32.ofNat RPMSG_HDR_SIZE)).toInt < 0

variable {cfg : LaneConfig} {shm shm' : Mem} {l l' : Lane} {pend : List Nat}
  {old cur new : List Sent} {m : Sent}

/-! ## Lengths -/

/-- A word with its top bit set is a negative `int`. -/
theorem toInt_toInt32_neg {x : UInt32} (h : 2147483648 ≤ x.toNat) :
    x.toInt32.toInt < 0 := by
  have hlt := x.toNat_lt
  have hx : x.toBitVec.toNat = x.toNat := rfl
  show x.toBitVec.toInt < 0
  rw [BitVec.toInt_eq_toNat_cond, hx]
  split <;> omega

/-- **A size of no use makes every length negative.** -/
theorem sendLen_neg (hsize : ¬ cfg.Sized) {len : Nat}
    (hlen : len < 2147483648) :
    (sendLen (Int32.ofNat len)
      (cfg.bufSize - UInt32.ofNat RPMSG_HDR_SIZE)).toInt < 0 := by
  have hlt := cfg.bufSize.toNat_lt
  have hroom : 2147483648 ≤
      (cfg.bufSize - UInt32.ofNat RPMSG_HDR_SIZE).toNat := by
    have hhdr : (UInt32.ofNat RPMSG_HDR_SIZE).toNat = RPMSG_HDR_SIZE := rfl
    rw [UInt32.toNat_sub, hhdr]
    by_cases hh : RPMSG_HDR_SIZE ≤ cfg.bufSize.toNat
    · have hbig : ¬ cfg.bufSize.toNat < 2147483648 + RPMSG_HDR_SIZE :=
        fun hb => hsize ⟨hh, hb⟩
      simp only [RPMSG_HDR_SIZE] at *
      omega
    · simp only [RPMSG_HDR_SIZE] at *
      omega
  have hneg := toInt_toInt32_neg hroom
  have hpos := Int32.toInt_ofNat_of_lt hlen
  unfold sendLen
  split
  · exact hneg
  · next h =>
    rw [Int32.lt_iff_toInt_lt] at h
    omega

/-- The sixteen bits count the message where it or its buffer is short. -/
theorem Sent.Ok.counted_iff (h : m.Ok cfg) :
    ((m.n.toNatClampNeg % 65536 : Nat) : Int) = m.n.toInt ↔
      m.call.data.length < 65536 ∨ cfg.bufSize.toNat < 65552 := by
  have hret := h.returned
  have hcnt := h.count
  have hsize := h.sized.header
  simp only [RPMSG_HDR_SIZE] at *
  omega

/-! ## Every state of a lane in order -/

theorem LaneInv.bounded (h : LaneInv cfg shm l pend old cur new)
    (hm : m ∈ l.sent) : 0 ≤ m.n.toInt ∧
      m.n.toInt + (RPMSG_HDR_SIZE : Nat) ≤ (cfg.bufSize.toNat : Int) := by
  have hok := h.ok m hm
  have hret := hok.returned
  have hsize := hok.sized.header
  omega

theorem LaneInv.received (h : LaneInv cfg shm l pend old cur new) {i : Nat}
    {r : Round} (hr : l.rounds[i]? = some r) (hm : l.sent[i]? = some m)
    (hphase : r.phase ≠ .found) {e : Nat} (he : e ∈ r.ept) :
    ∃ c, r.calls = [c] ∧ c.ept = e ∧ ((c.len : Int) = m.n.toInt ↔
      m.call.data.length < 65536 ∨ cfg.bufSize.toNat < 65552) := by
  have hcalls := (h.conveys hr hm).calls
  rw [if_neg hphase, Option.mem_def.mp he] at hcalls
  exact ⟨_, hcalls, rfl, (h.ok m (List.mem_of_getElem? hm)).counted_iff⟩

/-- Nothing is written where a buffer is only got. -/
theorem LaneInv.get_shm (h : LaneInv cfg shm l pend old cur new)
    (hthread : l.thread = .idle) {b : Option VqBuffer} {rvdev : TxDevice}
    (hget : rpmsgVirtioGetTxBuffer (l.sender cfg shm) = some (b, rvdev)) :
    rvdev.mem.shm = shm := by
  have hq := h.queue
  rw [hthread] at hq
  obtain ⟨b', rvdev', heq, hmem, -⟩ := hq.get shm h.listFirst h.capacity
  rw [heq] at hget
  cases hget
  exact congrArg TxMem.shm hmem

/-- **A step of the sending thread writes in its buffer only.** -/
theorem LaneInv.contained (h : LaneInv cfg shm l pend old cur new)
    (hst : LaneStep cfg shm l shm' l') (hne : l'.thread ≠ l.thread) {x : Nat}
    (hx : shm' x ≠ shm x) : ∃ b ∈ l.thread.bufs,
      shmOff cfg.senderIo b.data ≤ x ∧
        x < shmOff cfg.senderIo b.data + cfg.bufSize.toNat := by
  have hown : ∀ {b : VqBuffer}, Touches (cfg.own b) shm shm' →
      shmOff cfg.senderIo b.data ≤ x ∧
        x < shmOff cfg.senderIo b.data + cfg.bufSize.toNat := by
    intro b ht
    by_contra hno
    refine hx (ht x ?_)
    simp only [LaneConfig.own]
    omega
  cases hst with
  | get _ hthread _ _ hget =>
    exact absurd (congrFun (h.get_shm hthread hget) x) hx
  | note hthread =>
    exact ⟨_, by rw [hthread]; simp [SendState.bufs], hown (h.note hthread).2⟩
  | copy hthread hcopy =>
    exact ⟨_, by rw [hthread]; simp [SendState.bufs],
      hown (h.copy hthread hcopy).2⟩
  | header hthread hinit =>
    exact ⟨_, by rw [hthread]; simp [SendState.bufs],
      hown (h.header hthread hinit).2⟩
  | enqueue hthread henq =>
    exact absurd (congrFun (h.enqueue hthread henq).1 x) hx
  | @take _ b =>
    -- the receiver leaves the other thread where it is
    refine absurd ?_ hne
    cases b <;> rfl
  | call => exact absurd rfl hne
  | write => exact absurd rfl hne
  | finish => exact absurd rfl hne
  | endpoints => exact absurd rfl hne

theorem LaneOk.faithful (h : LaneOk cfg shm l) : l.Faithful cfg shm := by
  obtain ⟨pend, old, cur, new, hinv⟩ := h
  exact
    { bounded := fun m hm => hinv.bounded hm
      received := fun i r m hr hm hphase e he => hinv.received hr hm hphase he
      contained := fun shm' l' hst hne x hx => hinv.contained hst hne hx
      refused := fun hsize len hlen => sendLen_neg hsize hlen }

/-! ## A message on its way -/

section Progress

variable {cfg : LinkLayout} {s : LinkSystem}

/-- Nothing has been sent at the start. -/
theorem LinkSystem.init_toRemote (h : LinkSystem.init cfg = some s) :
    s.toRemote.thread = .idle ∧ s.toRemote.sent = [] ∧ s.toRemote.rx = [] ∧
      s.toRemote.round = none ∧ s.toRemote.rdev = cfg.remoteRdev := by
  simp only [LinkSystem.init, Option.map_eq_some_iff] at h
  obtain ⟨_, -, rfl⟩ := h
  exact ⟨rfl, rfl, rfl, rfl, rfl⟩

theorem LayoutReachable.laneStep (h : LayoutReachable cfg s)
    (hsized : cfg.toRemote.Sized) {shm : Mem} {l : Lane}
    (hst : LaneStep cfg.toRemote s.shm s.toRemote shm l) :
    LayoutReachable cfg { s with shm := shm, toRemote := l } :=
  .next h ⟨.toRemote hst, fun _ _ => hsized, fun hidle hne => absurd hidle hne⟩

/-- **A host that gets a buffer sends its message.** -/
theorem LayoutReachable.send (h : LayoutReachable cfg s) (call : SendCall)
    (hsized : cfg.toRemote.Sized) (hthread : s.toRemote.thread = .idle)
    (hdst : call.dst ≠ RPMSG_ADDR_ANY) (hlen : call.data.length < 2 ^ 31)
    {b : VqBuffer} {rvdev : TxDevice}
    (hget : rpmsgVirtioGetTxBuffer (s.toRemote.sender cfg.toRemote s.shm) =
      some (some b, rvdev)) :
    ∃ t n, LayoutReachable cfg t ∧
      t.toRemote.sent = s.toRemote.sent ++ [⟨call, n⟩] ∧
      t.toRemote.rdev = s.toRemote.rdev ∧ t.toRemote.rx = s.toRemote.rx ∧
      t.toRemote.round = s.toRemote.round := by
  have hgot := h.laneStep hsized (.get call hthread hdst hlen hget)
  have hnoted := hgot.laneStep hsized (.note rfl)
  have hcopied := hnoted.laneStep hsized (.copy rfl rfl)
  have hsealed := hcopied.laneStep hsized (.header rfl rfl)
  exact ⟨_, _, hsealed.laneStep hsized (.enqueue rfl rfl), rfl, rfl, rfl, rfl⟩

/-- **A message that has had no round gets one**, and its endpoint is
called. -/
theorem LayoutReachable.receive (h : LayoutReachable cfg s)
    (hsized : cfg.toRemote.Sized) (hround : s.toRemote.round = none)
    (hmore : s.toRemote.rounds.length ≠ s.toRemote.sent.length) :
    ∃ t r, LayoutReachable cfg t ∧ t.toRemote.sent = s.toRemote.sent ∧
      t.toRemote.rounds = s.toRemote.rounds ++ [r] ∧ r.phase = .called ∧
      r.rdev = s.toRemote.rdev := by
  obtain ⟨pend, old, cur, new, hinv⟩ := h.inv.toRemote
  obtain ⟨b, rvdev, htake, hnone⟩ := hinv.next
  obtain ⟨b, rfl⟩ := Option.ne_none_iff_exists'.mp fun hb => hmore (hnone.mp hb)
  have hfound := h.laneStep hsized (.take hround htake)
  have hrounds : s.toRemote.rounds = s.toRemote.rx := by
    rw [Lane.rounds, hround, Option.toList_none, List.append_nil]
  rw [hrounds]
  exact ⟨_, _, hfound.laneStep hsized (.call rfl rfl), rfl,
    (rfl : _ ++ [_] = _), by rfl, by rfl⟩

end Progress

/-! ## The result -/

/-- **Lengths are kept up to the length field.** In every run of a link of
any two buffer sizes that begins no send on a lane without room for it,
both lanes are faithful: a message of `n` bytes arrives as one of `n`
exactly if it or its buffer has less than `65536` bytes of payload. -/
theorem length_faithful {cfg : LinkLayout} {s : LinkSystem}
    (h : LayoutReachable cfg s) :
    s.toRemote.Faithful cfg.toRemote s.shm ∧
      s.toHost.Faithful cfg.toHost s.shm :=
  ⟨h.inv.toRemote.faithful, h.inv.toHost.faithful⟩

theorem pair_faithful :
    ∃ s, LinkSystem.run pairLink pairScript = some s ∧
      (s.toRemote.rx.map fun r => r.calls.map (·.len)) = [[3]] ∧
      s.toRemote.Faithful pairLink.toRemote s.shm ∧
      s.toHost.Faithful pairLink.toHost s.shm := by
  have hrx : (LinkSystem.run pairLink pairScript).map (fun s =>
      s.toRemote.rx.map fun r => r.calls.map (·.len)) = some [[3]] := by
    decide +kernel
  obtain ⟨s, hs, hlens⟩ := Option.map_eq_some_iff.mp hrx
  exact ⟨s, hs, hlens, length_faithful (LinkReachable.run hs).layout⟩

/-- Room for two buffers of 64 bytes and one of 128 KiB. -/
theorem poolShared_wide :
    PoolShared (flatRegion 0x1000 0x100000 0x40000)
      (flatRegion 0x80000 0x100000 0x40000)
      (rpmsgVirtioInitShmPool 0x1000 0x30000) where
  base_ne := by decide
  avail_le := by decide
  mapped := by decide
  bound := by decide
  drvValid := by decide
  devValid := by decide
  drvInside := by decide
  devInside := by decide
  devStart := by decide
  devBound := by decide
  same := by
    intro o _ hlt
    refine flatRegion_same _ _ _ (UInt64.lt_iff_toNat_lt.mpr ?_)
    exact Nat.lt_of_lt_of_le hlt (by decide)

/-- Buffers of 128 KiB towards the remote. -/
def wideLink : LinkLayout where
  h2r := ⟨1, order_one_le, 0, 0, flatRegion 0x1000 0x100000 0x40000,
    flatRegion 0x80000 0x100000 0x40000, true, true⟩
  r2h := ⟨1, order_one_le, 0, 0, flatRegion 0x1000 0x100000 0x40000,
    flatRegion 0x80000 0x100000 0x40000, true, true⟩
  h2rBufSize := 0x20000
  r2hBufSize := 64
  shpool := rpmsgVirtioInitShmPool 0x1000 0x30000
  split := none
  shm := fun _ => 0
  hostReclaimer := 1
  remoteReclaimer := 1
  hostRdev := oneEndpoint 0x400
  remoteRdev := oneEndpoint 0x401
  host_io := rfl
  remote_io := rfl
  pool_ok := poolShared_wide
  split_ok := by simp

theorem wideLink_sized : wideLink.toRemote.Sized := by
  constructor <;> decide

/-- The host gets its first buffer. -/
theorem wideLink_get : ∃ s b rvdev, LinkSystem.init wideLink = some s ∧
    rpmsgVirtioGetTxBuffer (s.toRemote.sender wideLink.toRemote s.shm) =
      some (some b, rvdev) := by
  have hgot : ((LinkSystem.init wideLink).bind fun s =>
      (rpmsgVirtioGetTxBuffer (s.toRemote.sender wideLink.toRemote s.shm)).bind
        fun p => p.1).isSome = true := by
    decide +kernel
  obtain ⟨b, hb⟩ := Option.isSome_iff_exists.mp hgot
  obtain ⟨s, hinit, hb⟩ := Option.bind_eq_some_iff.mp hb
  obtain ⟨⟨_, rvdev⟩, hget, rfl⟩ := Option.bind_eq_some_iff.mp hb
  exact ⟨s, b, rvdev, hinit, hget⟩

/-- Any 65536 bytes are sent, and arrive as none. -/
theorem wideLink_delivers {data : List UInt8} (hlen : data.length = 65536) :
    ∃ s r, LayoutReachable wideLink s ∧
      s.toRemote.sent = [⟨⟨0x400, 0x401, data⟩, 65536⟩] ∧
      s.toRemote.rounds = [r] ∧ r.calls.map (·.len) = [0] := by
  obtain ⟨s₀, b, rvdev, hinit, hget⟩ := wideLink_get
  obtain ⟨hidle, hsent₀, hrx₀, hround₀, hrdev₀⟩ := LinkSystem.init_toRemote hinit
  have hr₀ : LayoutReachable wideLink s₀ := .start hinit
  have hdst : (0x401 : UInt32) ≠ RPMSG_ADDR_ANY := by decide
  obtain ⟨s₁, n, hr₁, hsent₁, hrdev₁, hrx₁, hround₁⟩ := hr₀.send
    ⟨0x400, 0x401, data⟩ wideLink_sized hidle hdst (by rw [hlen]; decide) hget
  rw [hsent₀, List.nil_append] at hsent₁
  have hnone : s₁.toRemote.rounds = [] := by
    rw [Lane.rounds, hrx₁, hround₁, hrx₀, hround₀]
    rfl
  obtain ⟨s, r, hr, hsent, hrounds, hphase, hrdev⟩ := hr₁.receive
    wideLink_sized (hround₁.trans hround₀)
    (by rw [hnone, hsent₁]; exact Nat.zero_ne_one)
  rw [hsent₁] at hsent
  rw [hnone, List.nil_append] at hrounds
  obtain ⟨pend, old, cur, new, hinv⟩ := hr.inv.toRemote
  obtain ⟨m, hm⟩ : ∃ m, m = Sent.mk ⟨0x400, 0x401, data⟩ n := ⟨_, rfl⟩
  rw [← hm] at hsent
  have hret : m.n.toInt = (65536 : Nat) := by
    rw [(hinv.ok m (by simp [hsent])).returned, hm, hlen]
    rfl
  obtain ⟨hn, hcnt⟩ := eq_ofNat_of_toInt hret
  have hconv : r.Conveys m :=
    hinv.conveys (i := 0) (by simp [hrounds]) (by simp [hsent])
  -- the one endpoint of the remote has the address
  have hept : r.ept ≠ none := by
    intro hno
    refine hconv.no_match hno 0 ?_ ?_
    · rw [hrdev, hrdev₁, hrdev₀]
      exact List.mem_singleton.mpr rfl
    · rw [hrdev, hrdev₁, hrdev₀, hm]
      rfl
  obtain ⟨e, he⟩ := Option.ne_none_iff_exists'.mp hept
  refine ⟨s, r, hr, ?_, hrounds, ?_⟩
  · rw [hsent, hm]
    rw [hm] at hn
    exact congrArg (fun n => [Sent.mk ⟨0x400, 0x401, data⟩ n]) hn
  · have hcalls := hconv.calls
    rw [if_neg (by simp [hphase]), hcnt, he] at hcalls
    rw [hcalls]
    rfl

/-- **A message of 65536 bytes arrives as one of none**: the send returns
`65536` and the callback is called with the length `0`. -/
theorem wide_truncated :
    ∃ s r, LayoutReachable wideLink s ∧
      s.toRemote.sent = [⟨⟨0x400, 0x401, List.replicate 65536 7⟩, 65536⟩] ∧
      s.toRemote.rounds = [r] ∧ r.calls.map (·.len) = [0] :=
  wideLink_delivers List.length_replicate

end OpenAmp.Rpmsg
