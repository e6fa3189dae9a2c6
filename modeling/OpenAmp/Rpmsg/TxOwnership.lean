import OpenAmp.Rpmsg.TxRun

/-!
# Ownership of transmission buffers

Two results about every run of the transmission system. At every moment
the buffers of the application, of the list of reclaimed buffers, of the
send queue and the rest of the pool are disjoint bytes, and a buffer
goes from hand to hand without being lost or handed out twice
(`tx_ownership_exclusive`). A driver never has more buffers under way
than ring entries, so enqueueing always finds a free descriptor
(`tx_never_overcommitted`).

Both need room for a list node and its index in every buffer, which
`rpmsg_init_vdev` does not ask for, and the second needs that the pool
is not drawn on while as many buffers are held as descriptors are free,
which `rpmsg_virtio_get_tx_buffer` does not check: it looks at the free
descriptors alone, and these are taken only when a buffer is sent.
-/

namespace OpenAmp.Rpmsg

open OpenAmp.Lib OpenAmp.Metal OpenAmp.Virtio

variable {cfg : TxConfig} {s : TxSystem} {f : Flow} {recl : List VqBuffer}

/-- Exclusive ownership: the places buffers are kept in are disjoint
bytes, a buffer handed out is in one of them (or, sent by a device, with
the peer that collected it), and it is handed out again only after it
was released, or sent and returned. -/
structure TxExclusive (cfg : TxConfig) (s : TxSystem) : Prop where
  apart : (s.heldSpans ++ s.reclaimedSpans ++ s.queuedSpans ++
    s.unallocated).Pairwise Span.Disjoint
  kept : ∀ p, (p, .got) ∈ s.log →
    p ∈ s.held.map (·.buf.data) ∨ p ∈ s.reclaimed ∨
      p ∈ s.queued.map Prod.fst ∨
      (cfg.role = .device ∧ lastKind p s.log = some .collected)
  once : ∀ p l₁ l₂ l₃, s.log = l₁ ++ (p, .got) :: l₂ ++ (p, .got) :: l₃ →
    (p, .released) ∈ l₂ ∨
      ∃ m₁ m₂, l₂ = m₁ ++ (p, .sent) :: m₂ ∧ (p, .offered) ∈ m₂

/-- The bytes of all buffers of the link. -/
theorem TxInv.spans_perm (h : TxInv cfg s f recl) :
    (s.heldSpans ++ s.reclaimedSpans ++ s.queuedSpans).Perm
      (((cfg.tagged recl s.held f).map Prod.fst).map (·.span s.us.mem.io)) := by
  have hq := h.queued_perm.map fun q => s.span q.1 q.2
  have hheld : s.heldSpans = (s.held.map (·.buf)).map (·.span s.us.mem.io) := by
    simp [TxSystem.heldSpans, TxSystem.span, VqBuffer.span]
  rw [h.tagged_fst, List.map_append, List.map_append, h.reclaimedSpans_eq,
    ← hheld]
  refine (List.perm_append_comm.append_right _).trans (List.Perm.append_left _ ?_)
  refine hq.trans (List.Perm.of_eq ?_)
  simp [TxSystem.span, VqBuffer.span]

/-- A driver's buffers end where the rest of the pool begins. -/
theorem TxInv.apart_unallocated (h : TxInv cfg s f recl) :
    ∀ x ∈ (cfg.tagged recl s.held f).map Prod.fst, ∀ a ∈ s.unallocated,
      (x.span s.us.mem.io).Disjoint a := by
  intro x hx a ha
  have hside := h.side
  have hrole := h.side.role
  cases hr : cfg.role with
  | device => simp [TxSystem.unallocated, hrole, hr] at ha
  | driver =>
    simp only [SideInv, hr] at hside
    have hok := cfg.pool_ok hr
    have hvirt := UInt64.le_iff_toNat_le.mp hok.mapped
    have hb := hok.bound
    have hav := UInt64.le_iff_toNat_le.mp hside.avail
    rw [hside.poolSize] at hav
    have hio : s.us.mem.io = cfg.vq.drvIo := by
      rw [h.io, TxConfig.io, hr]
    simp only [TxSystem.unallocated, hrole, hr, List.mem_singleton] at ha
    -- where the remainder of the pool begins
    have hstart : (s.us.shpool.base + s.us.shpool.size -
        s.us.shpool.avail).toNat = cfg.shpool.base.toNat +
          cfg.shpool.size.toNat - s.us.shpool.avail.toNat := by
      rw [UInt64.toNat_sub_of_le, UInt64.toNat_add, hside.base, hside.poolSize]
      · omega
      · rw [UInt64.le_iff_toNat_le, UInt64.toNat_add, hside.base,
          hside.poolSize]
        omega
    -- every buffer in use was cut before it
    have hin : x.len = cfg.h2rBufSize ∧
        x.data ∈ (recl ++ s.held.map (·.buf)).map (·.data) ++
          f.live.map (·.call.cookie) := by
      rw [h.tagged_fst] at hx
      rcases List.mem_append.mp hx with hx | hx
      · exact ⟨hside.lens x hx,
          List.mem_append_left _ (List.mem_map.mpr ⟨x, hx, rfl⟩)⟩
      · obtain ⟨q, hq, rfl⟩ := List.mem_map.mp hx
        simp only [TxConfig.chainBuf, hr]
        exact ⟨trivial, List.mem_append_right _
          (List.mem_map.mpr ⟨q.1, mem_queuedChains hq, rfl⟩)⟩
    have hwithin := hside.within x.data hin.2
    rw [ha]
    simp only [VqBuffer.span, Span.Disjoint, hin.1, hio]
    rw [shmOff_eq (by omega), shmOff_eq (by omega), hstart]
    omega

theorem TxInv.kept (h : TxInv cfg s f recl) {p : UInt64}
    (hp : (p, .got) ∈ s.log) :
    p ∈ s.held.map (·.buf.data) ∨ p ∈ s.reclaimed ∨
      p ∈ s.queued.map Prod.fst ∨
      (cfg.role = .device ∧ lastKind p s.log = some .collected) := by
  obtain ⟨k, hk⟩ := exists_lastKind hp
  by_cases hout : cfg.role = .device ∧ k = .collected
  · exact .inr (.inr (.inr ⟨hout.1, hout.2 ▸ hk⟩))
  · have hmem := h.custody.tracks.mem hk hout
    simp only [TxConfig.tagged, List.map_append, List.mem_append,
      List.mem_map] at hmem
    rcases hmem with (⟨-, ⟨b, hb, rfl⟩, heq⟩ | ⟨-, ⟨x, hx, rfl⟩, heq⟩) |
      ⟨-, ⟨q, hq, rfl⟩, heq⟩
    · simp only [Prod.mk.injEq] at heq
      rw [h.reclaimed_eq]
      exact .inr (.inl (List.mem_map.mpr ⟨b, hb, heq.1⟩))
    · simp only [Prod.mk.injEq] at heq
      exact .inl (List.mem_map.mpr ⟨x, hx, heq.1⟩)
    · simp only [Prod.mk.injEq] at heq
      have hq' := (h.queued_perm.map Prod.fst).mem_iff (a := p)
      refine .inr (.inr (.inl (hq'.mpr ?_)))
      simp only [List.map_map, List.mem_map, Function.comp_apply]
      exact ⟨q, hq, heq.1⟩

/-- A log that obeys the life cycle hands a buffer out again only after
its release, or its sending and return. -/
theorem Lawful.handed_once {log : List (UInt64 × TxEvent)}
    (h : Lawful TxFollows log) {p : UInt64} {l₁ l₂ l₃ : List (UInt64 × TxEvent)}
    (hlog : log = l₁ ++ (p, .got) :: l₂ ++ (p, .got) :: l₃) :
    (p, .released) ∈ l₂ ∨
      ∃ m₁ m₂, l₂ = m₁ ++ (p, .sent) :: m₂ ∧ (p, .offered) ∈ m₂ := by
  subst hlog
  rcases h.between with hno | ⟨m₁, ka, m₂, kb, rfl, hfirst, hm, hmem, hlast⟩
  · exact absurd hno id
  · cases ka with
    | released => exact .inl (by simp)
    | sent =>
      cases kb with
      | released => exact .inl hmem
      | offered =>
        -- the first event was the sending, so the return came after it
        refine .inr ⟨m₁, m₂, rfl, ?_⟩
        simp only [List.mem_append, List.mem_cons, Prod.mk.injEq,
          reduceCtorEq, and_false, false_or] at hmem
        exact hmem.resolve_left fun hbad => hm _ hbad rfl
      | got => exact absurd hlast id
      | sent => exact absurd hlast id
      | collected => exact absurd hlast id
    | got => exact absurd hfirst id
    | collected => exact absurd hfirst id
    | offered => exact absurd hfirst id

theorem TxInv.exclusive (h : TxInv cfg s f recl) : TxExclusive cfg s where
  apart := by
    rw [List.pairwise_append]
    refine ⟨?_, ?_, fun a ha b hb => ?_⟩
    · rw [h.spans_perm.pairwise_iff fun h => h.symm, List.pairwise_map]
      exact h.custody.placed.apart
    · unfold TxSystem.unallocated
      split <;> simp
    · obtain ⟨x, hx, rfl⟩ := List.mem_map.mp (h.spans_perm.mem_iff.mp ha)
      exact h.apart_unallocated x hx b hb
  kept := fun _ hp => h.kept hp
  once := fun _ _ _ _ hlog => Lawful.handed_once h.custody.tracks.lawful hlog

/-! ## Scripted runs -/

/-- A call of our side, on the held buffer of the given number. -/
inductive TxCmd where
  | get
  | note (i : Nat)
  | header (i : Nat)
  | enqueue (i : Nat)
  | release (i : Nat)

/-- The state after a call; a call on a buffer that is not there does
nothing. -/
def TxSystem.exec (s : TxSystem) : TxCmd → TxSystem
  | .get =>
    match rpmsgVirtioGetTxBuffer s.us with
    | none => s
    | some (r, us) => { s with
        us := us
        held := s.held ++ r.toList.map fun b => ⟨b, .fetched⟩
        log := s.log ++ r.toList.map fun b => (b.data, .got) }
  | .note i =>
    match s.held[i]? with
    | some ⟨b, .fetched⟩ => { s with
        us := s.us.withShm (noteTxBuffer s.us.mem.io s.us.mem.shm b)
        held := s.held.take i ++ ⟨b, .noted⟩ :: s.held.drop (i + 1) }
    | _ => s
  | .header i =>
    match s.held[i]? with
    | some ⟨b, .noted⟩ =>
      let r := initTxHdr s.us.mem.io s.us.mem.shm 0 0 b.data 0
      { s with
        us := s.us.withShm r.2
        held := s.held.take i ++ ⟨{ b with idx := r.1 }, .sealed⟩ ::
          s.held.drop (i + 1) }
    | _ => s
  | .enqueue i =>
    match s.held[i]? with
    | some ⟨b, .sealed⟩ => { s with
        us := (enqueueTxBuffer s.us b.data b.idx).2.2
        held := s.held.take i ++ s.held.drop (i + 1)
        log := s.log ++ [(b.data, .sent)] }
    | _ => s
  | .release i =>
    match s.held[i]? with
    | some ⟨b, .noted⟩ => { s with
        us := { s.us with mem := rpmsgVirtioReleaseTxBuffer s.us.mem b.data }
        held := s.held.take i ++ s.held.drop (i + 1)
        log := s.log ++ [(b.data, .released)] }
    | _ => s

/-- The step a call is. -/
def TxCmd.act : TxCmd → TxAct
  | .get => .get
  | .note _ => .note
  | .header _ => .header
  | .enqueue _ => .enqueue
  | .release _ => .release

theorem TxSystem.exec_step (cfg : TxConfig) (s : TxSystem) (c : TxCmd) :
    s.exec c = s ∨ TxStep cfg s c.act (s.exec c) := by
  cases c with
  | get =>
    simp only [TxSystem.exec]
    split
    · exact .inl rfl
    · next r us heq => exact .inr (.get heq)
  | note i =>
    simp only [TxSystem.exec]
    split
    · next b heq => exact .inr (.note (split_getElem? heq))
    · exact .inl rfl
  | header i =>
    simp only [TxSystem.exec]
    split
    · next b heq => exact .inr (.header 0 0 0 (split_getElem? heq) rfl)
    · exact .inl rfl
  | enqueue i =>
    simp only [TxSystem.exec]
    split
    · next b heq => exact .inr (.enqueue (split_getElem? heq) rfl)
    · exact .inl rfl
  | release i =>
    simp only [TxSystem.exec]
    split
    · next b heq => exact .inr (.release (split_getElem? heq))
    · exact .inl rfl

theorem TxSystem.exec_enqueue {s : TxSystem} {i : Nat} {b : VqBuffer}
    (h : s.held[i]? = some ⟨b, .sealed⟩) :
    TxStep cfg s .enqueue (s.exec (.enqueue i)) := by
  simp only [TxSystem.exec, h]
  exact .enqueue (split_getElem? h) rfl

def TxSystem.run (s : TxSystem) (cs : List TxCmd) : TxSystem :=
  cs.foldl TxSystem.exec s

/-- The check that never more than `vq_nentries` buffers are outstanding. -/
def TxConfig.boundedCheck (cfg : TxConfig) (s : TxSystem) (c : TxCmd) : Bool :=
  (s.exec c).held.length + (s.exec c).queued.length ≤ cfg.vq.num

theorem TxBoundedReachable.run (cfg : TxConfig) (cs : List TxCmd)
    (hp : passes TxSystem.exec cfg.boundedCheck (TxSystem.init cfg) cs) :
    TxBoundedReachable cfg ((TxSystem.init cfg).run cs) :=
  Reachable.script (fun s c hok => (s.exec_step cfg c).imp_right
    fun hst => ⟨⟨_, hst⟩, of_decide_eq_true hok⟩) cs (.start rfl) hp

instance (s : TxSystem) : Decidable s.drawsPool :=
  inferInstanceAs (Decidable (_ ∧ _))

instance (s : TxSystem) (a : TxAct) : Decidable (s.Sound a) :=
  inferInstanceAs (Decidable (_ → _))

/-- The states of all runs. -/
def TxReachable (cfg : TxConfig) : TxSystem → Prop :=
  Reachable (· = TxSystem.init cfg) fun s t => ∃ a, TxStep cfg s a t

theorem TxReachable.run (cfg : TxConfig) (cs : List TxCmd) :
    TxReachable cfg ((TxSystem.init cfg).run cs) :=
  Reachable.script (fun s c _ => (s.exec_step cfg c).imp_right
    fun hst => ⟨_, hst⟩) cs (.start rfl) (passes_true _ cs)

theorem TxSoundReachable.run (cfg : TxConfig) (cs : List TxCmd)
    (hp : passes TxSystem.exec (fun s c => s.Sound c.act) (TxSystem.init cfg)
      cs) :
    TxSoundReachable cfg ((TxSystem.init cfg).run cs) :=
  Reachable.script (fun s c hok => (s.exec_step cfg c).imp_right
    fun hst => ⟨_, hst, of_decide_eq_true hok⟩) cs (.start rfl) hp

/-- The region of the examples: four kilobytes mapped at `0x1000`. -/
def linkIo : MetalIoRegion :=
  metalIoInit 0x1000 (some fun _ => 0x1000) 0x1000 64

/-- A driver with `2 ^ order` ring entries and a pool of `size` bytes cut
into buffers of `h2rBufSize`. -/
def linkConfig (order : Nat) (ho : order ≤ 15) (h2rBufSize : UInt32)
    (size : UInt64) (hsize : size ≤ 0x1000) : TxConfig where
  vq := ⟨order, ho, 0, 0, linkIo, linkIo, true, true⟩
  role := .driver
  room := h2rBufSize.toNat
  h2rBufSize := h2rBufSize
  shpool := rpmsgVirtioInitShmPool 0x1000 size
  shm := fun _ => 0
  reclaimer := 16
  room_le := fun _ => Nat.le_refl _
  pool_ok := fun _ => by
    have hle := UInt64.le_iff_toNat_le.mp hsize
    simp only [UInt64.reduceToNat] at hle
    refine ⟨⟨by simp [rpmsgVirtioInitShmPool], UInt64.le_refl _,
      by simp [rpmsgVirtioInitShmPool, linkIo, metalIoInit], ?_⟩, .inl ?_⟩
    · simp only [rpmsgVirtioInitShmPool, UInt64.reduceToNat]
      omega
    · simp only [rpmsgVirtioInitShmPool, UInt64.reduceToNat]
      omega

/-! ## Results -/

/-- **Transmission buffers have one owner.** In either role, in every
run with at most `vq_nentries` buffers outstanding, when every buffer
has room for a reclaimed buffer's node and index. -/
theorem tx_ownership_exclusive {cfg : TxConfig} {s : TxSystem}
    (hroom : RECLAIMER_SIZE ≤ cfg.room) (h : TxBoundedReachable cfg s) :
    TxExclusive cfg s := by
  obtain ⟨f, recl, hinv⟩ := txBounded_inv hroom h
  exact hinv.exclusive

/-- Two buffers got, one released, the other sent. -/
theorem tx_ownership_exclusive_sentAndReleased :
    let cfg := linkConfig 1 (by decide) 512 1024 (by decide)
    let s := (TxSystem.init cfg).run
      [.get, .note 0, .get, .note 1, .release 1, .header 0, .enqueue 0]
    s.reclaimed = [0x1200] ∧ s.queued = [(0x1000, 512)] ∧
      TxExclusive cfg s :=
  ⟨by decide +kernel, by decide +kernel,
    tx_ownership_exclusive (by decide) (TxBoundedReachable.run _ _
      (by decide +kernel))⟩

/-- Buffers of seventeen bytes: releasing the first one writes the high
byte of its index over the list node of the second, and the third is
gone from the list. -/
theorem tx_buffer_lost :
    ∃ cfg : TxConfig, cfg.h2rBufSize = 17 ∧ cfg.role = .driver ∧
      ∃ s, TxBoundedReachable cfg s ∧ ¬ TxExclusive cfg s := by
  let cfg := linkConfig 2 (by decide) 17 51 (by decide)
  refine ⟨cfg, rfl, rfl, (TxSystem.init cfg).run
    [.get, .note 0, .get, .note 1, .get, .note 2, .release 1, .release 1,
      .release 0], TxBoundedReachable.run cfg _ (by decide +kernel), ?_⟩
  intro hex
  have hlost := hex.kept 0x1022 (by decide +kernel)
  revert hlost
  decide +kernel

/-- **A driver never has more buffers under way than ring entries**, and
enqueueing finds a free descriptor, in every run in which the pool is
drawn on only while fewer buffers are held than descriptors are free. -/
theorem tx_never_overcommitted {cfg : TxConfig} {s : TxSystem}
    (hr : cfg.role = .driver) (hroom : RECLAIMER_SIZE ≤ cfg.room)
    (h : TxSoundReachable cfg s) :
    s.held.length + s.reclaimed.length + s.queued.length ≤
      s.us.svq.vqNentries.toNat ∧
    ∀ t, TxStep cfg s .enqueue t → 1 ≤ s.us.svq.vqFreeCnt := by
  obtain ⟨f, recl, hinv⟩ := txSound_inv hroom h
  have hside := hinv.side
  simp only [SideInv, hr] at hside
  refine ⟨?_, fun t hst => ?_⟩
  · have htot := hside.total
    have hlen := hinv.queued_perm.length_eq
    rw [List.length_map] at hlen
    have hq : (cfg.queuedChains f).length = f.live.length := by
      simp only [TxConfig.queuedChains, hr, Flow.live, List.length_append,
        List.length_map]
    rw [hside.queue.fixed.drvNum, cfg.vq.toNat_nentries, hinv.reclaimed_eq,
      hlen, hq, List.length_map]
    simp only [List.length_append, List.length_map] at htot
    omega
  · cases hst with
    | enqueue hheld henq =>
      have hne := hside.freeCnt_pos (by simp [hheld])
      rw [UInt16.le_iff_toNat_le]
      have hne' : s.us.svq.vqFreeCnt.toNat ≠ 0 := fun h0 =>
        hne (UInt16.toNat_inj.mp h0)
      simp only [UInt16.toNat_one]
      omega

/-- Both entries of a ring taken, one by a sent buffer. -/
theorem tx_never_overcommitted_full :
    let cfg := linkConfig 1 (by decide) 512 4096 (by decide)
    let s := (TxSystem.init cfg).run
      [.get, .note 0, .header 0, .enqueue 0, .get, .note 0]
    s.held.length + s.reclaimed.length + s.queued.length = 2 ∧
    s.held.length + s.reclaimed.length + s.queued.length ≤
      s.us.svq.vqNentries.toNat ∧
    ∀ t, TxStep cfg s .enqueue t → 1 ≤ s.us.svq.vqFreeCnt :=
  ⟨by decide +kernel, tx_never_overcommitted rfl (by decide)
    (TxSoundReachable.run _ _ (by decide +kernel))⟩

/-- A ring of one entry and a pool of two buffers: both are handed out,
and the second is enqueued with no descriptor free. -/
theorem tx_overcommitted :
    ∃ cfg : TxConfig, cfg.role = .driver ∧ RECLAIMER_SIZE ≤ cfg.room ∧
      (∃ s, TxReachable cfg s ∧ s.us.svq.vqNentries.toNat <
        s.held.length + s.reclaimed.length + s.queued.length) ∧
      ∃ s t, TxReachable cfg s ∧ TxStep cfg s .enqueue t ∧
        s.us.svq.vqFreeCnt = 0 := by
  refine ⟨linkConfig 0 (by decide) 512 1024 (by decide), rfl, by decide,
    ⟨_, TxReachable.run _ [.get, .get], by decide +kernel⟩, ?_⟩
  refine ⟨_, _, TxReachable.run _ [.get, .note 0, .get, .note 1, .header 0,
    .enqueue 0, .header 0], TxSystem.exec_enqueue (i := 0) (b := ⟨0x1200, 512, 0⟩)
      (by decide +kernel), by decide +kernel⟩

end OpenAmp.Rpmsg
