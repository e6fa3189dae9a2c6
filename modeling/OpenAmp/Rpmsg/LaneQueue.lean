import OpenAmp.Rpmsg.Link

/-!
# The queue of a lane

All buffers of a lane are pieces of one pool, at the same offset of the
shared region for either side. A buffer is with the sending thread, under
way as a message, with the receiver, or on its way back. `LaneQueue` says
which: `own` and `outs` are what the two threads have, `pend` are the
offsets of the messages under way, oldest first. The driver's queue and
the device's are read in opposite directions, so each role of the sender
has its own invariant; the four queue calls of a message's way have one
lemma each over both.
-/

namespace OpenAmp.Rpmsg

open OpenAmp.Lib OpenAmp.Metal OpenAmp.Virtio

/-! ## The pieces of the pool -/

/-- A chain of the lane's queue as the device has it. -/
def LaneConfig.chainBuf (cfg : LaneConfig) (c : Chain) : VqBuffer :=
  ⟨(c.call.view cfg.vq).buffer, (c.call.view cfg.vq).len, c.call.head⟩

/-- The offsets the buffers of a lane are at: what is left of the pool for
a driver that cuts them as it sends, the pieces lent out at the start for
a device. -/
def LaneConfig.area (cfg : LaneConfig) : Span where
  start := shmOff cfg.vq.drvIo cfg.shpool.base +
    (cfg.shpool.size.toNat - cfg.shpool.avail.toNat)
  len := match cfg.role with
    | .driver => cfg.shpool.avail.toNat
    | .device => cfg.vq.num * cfg.bufSize.toNat

/-- The device's address of the bytes the driver has at `p`. -/
def LaneConfig.view (cfg : LaneConfig) (p : UInt64) : UInt64 :=
  metalIoPhysToVirt cfg.vq.devIo (metalIoVirtToPhys cfg.vq.drvIo p)

/-- What holds of a piece of the pool, on either side. -/
structure LaneConfig.Piece (cfg : LaneConfig) (p : UInt64) : Prop where
  drv : BufAt cfg.vq.drvIo p cfg.bufSize.toNat
  dev : BufAt cfg.vq.devIo (cfg.view p) cfg.bufSize.toNat
  same : shmOff cfg.vq.devIo (cfg.view p) = shmOff cfg.vq.drvIo p

/-- **The driver's address and the device's are the same bytes.** -/
theorem LaneConfig.piece (cfg : LaneConfig) {p : UInt64}
    (hpos : 0 < cfg.bufSize.toNat) (hlo : cfg.shpool.base.toNat ≤ p.toNat)
    (hhi : p.toNat + cfg.bufSize.toNat ≤
      cfg.shpool.base.toNat + cfg.shpool.size.toNat) : cfg.Piece p := by
  have hok := cfg.pool_ok
  have hb := hok.bound
  have hvirt := UInt64.le_iff_toNat_le.mp hok.mapped
  have hbase : cfg.shpool.base.toNat ≠ 0 := fun h0 =>
    hok.base_ne (UInt64.toNat_inj.mp h0)
  have hdrv := hok.drvInside
  have hdev := hok.devInside
  have hstart := hok.devStart
  have hend := hok.devBound
  have hoffb : shmOff cfg.vq.drvIo cfg.shpool.base =
      cfg.shpool.base.toNat - cfg.vq.drvIo.virt.toNat := shmOff_eq hvirt
  have hoff : shmOff cfg.vq.drvIo p = p.toNat - cfg.vq.drvIo.virt.toNat :=
    shmOff_eq (by omega)
  -- the offset as the word the translations work on
  obtain ⟨o, ho⟩ : ∃ o, o = p - cfg.vq.drvIo.virt := ⟨_, rfl⟩
  have hon : o.toNat = shmOff cfg.vq.drvIo p := by rw [ho]; rfl
  have hin : p - cfg.vq.drvIo.virt < cfg.vq.drvIo.size := by
    rw [← ho, UInt64.lt_iff_toNat_lt, hon]
    omega
  have hto : metalIoVirtToOffset cfg.vq.drvIo p = o := by
    simp only [metalIoVirtToOffset, if_pos hin, ho]
  have hback : metalIoPhysToOffset cfg.vq.devIo (metalIoPhys cfg.vq.drvIo o) =
      o := hok.same o (by omega) (by omega)
  have hodev : o < cfg.vq.devIo.size := by
    rw [UInt64.lt_iff_toNat_lt, hon]
    omega
  have hview : cfg.view p = cfg.vq.devIo.virt + o := by
    rw [LaneConfig.view, metalIoPhysToVirt, metalIoVirtToPhys, hto, hback,
      metalIoVirt, if_pos ⟨hok.devValid, hodev⟩]
  have hvn : (cfg.view p).toNat = cfg.vq.devIo.virt.toNat + o.toNat := by
    rw [hview, UInt64.toNat_add, Nat.mod_eq_of_lt]
    omega
  have hsame : shmOff cfg.vq.devIo (cfg.view p) = shmOff cfg.vq.drvIo p := by
    rw [shmOff_eq (by omega), hvn, ← hon]
    omega
  refine ⟨⟨hok.drvValid, ?_, by omega, by omega⟩, ⟨hok.devValid, ?_, by omega,
    by rw [hsame]; omega⟩, hsame⟩
  · rintro rfl
    simp only [UInt64.toNat_zero] at hlo
    omega
  · intro h0
    rw [h0, UInt64.toNat_zero] at hvn
    omega

/-- A piece cut from the pool lies in it. -/
theorem LaneConfig.mem_cut (cfg : LaneConfig) {k : Nat} {p : UInt64}
    (hpos : k ≠ 0 → 0 < cfg.bufSize.toNat)
    (hk : k * cfg.bufSize.toNat ≤ cfg.shpool.avail.toNat)
    (hp : p ∈ cfg.shpool.cut cfg.bufSize.toNat k) :
    cfg.Piece p ∧ (Span.mk (shmOff cfg.vq.drvIo p) cfg.bufSize.toNat).Within
      ⟨cfg.area.start, k * cfg.bufSize.toNat⟩ := by
  obtain ⟨i, hi, rfl⟩ := List.mem_map.mp hp
  have hi := List.mem_range.mp hi
  have hnat := cfg.pool_ok.cut_toNat hk hi
  have hav := UInt64.le_iff_toNat_le.mp cfg.pool_ok.avail_le
  have hvirt := UInt64.le_iff_toNat_le.mp cfg.pool_ok.mapped
  have hmul : (i + 1) * cfg.bufSize.toNat ≤ k * cfg.bufSize.toNat :=
    Nat.mul_le_mul_right _ hi
  rw [Nat.add_mul, Nat.one_mul] at hmul
  refine ⟨cfg.piece (hpos (by omega)) (by omega) (by omega), ?_⟩
  rw [Span.Within, shmOff_eq (by omega), hnat]
  simp only [LaneConfig.area]
  rw [shmOff_eq hvirt]
  omega

theorem ShmPool.cut_snoc (pool : ShmPool) (size k : Nat) :
    pool.cut size (k + 1) = pool.cut size k ++ [UInt64.ofNat
      (pool.base.toNat + pool.size.toNat - pool.avail.toNat + k * size)] := by
  simp [ShmPool.cut, List.range_succ]

/-! ## Who has which buffer -/

/-- A buffer of the lane is one of the first `k` pieces of the pool, in its
full length: the side that drives the queue has it, or it is a chain of
the queue, which the other side may have taken. -/
structure Pieces (cfg : LaneConfig) (mine theirs : List VqBuffer) (f : Flow)
    (k : Nat) : Prop where
  bare : ∀ c ∈ f.live, Bare cfg.bufSize c
  pos : k ≠ 0 → 0 < cfg.bufSize.toNat
  fits : k * cfg.bufSize.toNat ≤ cfg.shpool.avail.toNat
  usedLen : ∀ u ∈ f.used, u.2 = cfg.bufSize
  lens : ∀ b ∈ mine, b.len = cfg.bufSize
  taken : theirs.Perm (f.held.map cfg.chainBuf)
  bufs : (mine.map (·.data) ++ f.live.map (·.call.cookie)).Perm
    (cfg.shpool.cut cfg.bufSize.toNat k)

variable {cfg : LaneConfig} {l : LaneEnds} {mine theirs own outs : List VqBuffer}
  {pend : List Nat} {f : Flow} {k : Nat} {b : VqBuffer} {c : Chain}

theorem Bare.chainBuf (h : Bare cfg.bufSize c) :
    cfg.chainBuf c = ⟨cfg.view c.call.cookie, cfg.bufSize, c.call.head⟩ := by
  simp only [LaneConfig.chainBuf, Added.view, h.len, LaneConfig.view, h.buf]

theorem Flow.mem_held (hc : c ∈ f.held) : c ∈ f.live := by
  simp [Flow.live, hc]

theorem Pieces.piece (h : Pieces cfg mine theirs f k) (hc : c ∈ f.live) :
    cfg.Piece c.call.cookie :=
  (cfg.mem_cut h.pos h.fits (h.bufs.mem_iff.mp (List.mem_append_right _
    (List.mem_map.mpr ⟨c, hc, rfl⟩)))).1

theorem Pieces.piece_mine (h : Pieces cfg mine theirs f k) (hb : b ∈ mine) :
    cfg.Piece b.data :=
  (cfg.mem_cut h.pos h.fits (h.bufs.mem_iff.mp (List.mem_append_left _
    (List.mem_map.mpr ⟨b, hb, rfl⟩)))).1

theorem Pieces.chain_of_mem (h : Pieces cfg mine theirs f k)
    (hb : b ∈ theirs) : ∃ c l₁ l₂, f.held = l₁ ++ c :: l₂ ∧
      cfg.chainBuf c = b ∧ c ∈ f.live := by
  obtain ⟨c, hc, hcb⟩ := List.mem_map.mp (h.taken.mem_iff.mp hb)
  obtain ⟨l₁, l₂, hsplit⟩ := List.append_of_mem hc
  exact ⟨c, l₁, l₂, hsplit, hcb, Flow.mem_held hc⟩

/-- The device's address of a chain's buffer. -/
theorem Pieces.buffer (h : Pieces cfg mine theirs f k) (hc : c ∈ f.live) :
    (c.call.view cfg.vq).buffer = cfg.view c.call.cookie :=
  congrArg VqBuffer.data (h.bare c hc).chainBuf

/-- A chain of the queue is taken. -/
theorem Pieces.take (h : Pieces cfg mine theirs f k) {avail : List Chain}
    (ha : f.avail = c :: avail) :
    Pieces cfg mine (cfg.chainBuf c :: theirs) (f.take c) k := by
  have hlive := Flow.live_take ha
  refine ⟨fun c' hc' => h.bare c' (hlive.mem_iff.mp hc'), h.pos, h.fits,
    h.usedLen, h.lens, ?_, ((hlive.map _).append_left _).trans h.bufs⟩
  simp only [Flow.take, List.map_append, List.map_cons, List.map_nil]
  exact (h.taken.cons _).trans (List.perm_append_singleton _ _).symm

/-- A chain that was taken is returned. -/
theorem Pieces.put (h : Pieces cfg mine (cfg.chainBuf c :: theirs) f k)
    {l₁ l₂ : List Chain} (hsplit : f.held = l₁ ++ c :: l₂) :
    Pieces cfg mine theirs (f.put l₁ l₂ c cfg.bufSize) k := by
  have hlive := Flow.live_put hsplit cfg.bufSize
  refine ⟨fun c' hc' => h.bare c' (hlive.mem_iff.mp hc'), h.pos, h.fits,
    fun u hu => ?_, h.lens, ?_, ((hlive.map _).append_left _).trans h.bufs⟩
  · rcases List.mem_append.mp hu with hu | hu
    · exact h.usedLen u hu
    · rw [List.mem_singleton.mp hu]
  have hmid : (f.held.map cfg.chainBuf).Perm
      (cfg.chainBuf c :: (l₁ ++ l₂).map cfg.chainBuf) := by
    rw [hsplit]
    exact List.perm_middle.map _
  exact (List.perm_cons _).mp (h.taken.trans hmid)

/-- A chain that was returned is got back. -/
theorem Pieces.get (h : Pieces cfg mine theirs f k) {len : UInt32}
    {used : List (Chain × UInt32)} (hu : f.used = (c, len) :: used)
    (hb : b.data = c.call.cookie) (hl : b.len = len) :
    Pieces cfg (b :: mine) theirs (f.get c) k := by
  have hlive := Flow.live_get hu
  have hlen : len = cfg.bufSize := h.usedLen (c, len) (by simp [hu])
  refine ⟨fun c' hc' => h.bare c' (hlive.mem_iff.mpr (by simp [hc'])), h.pos,
    h.fits, fun u hu' => h.usedLen u ?_, ?_, h.taken, ?_⟩
  · simp only [Flow.get, hu, List.tail_cons] at hu'
    simp [hu, hu']
  · intro x hx
    rcases List.mem_cons.mp hx with rfl | hx
    · exact hl.trans hlen
    · exact h.lens x hx
  have hmove := (hlive.map (·.call.cookie)).append_left (mine.map (·.data))
  rw [List.map_cons, hb]
  exact (List.perm_middle.symm.trans hmove.symm).trans h.bufs

/-- A buffer becomes a chain of the queue. -/
theorem Pieces.add (h : Pieces cfg (b :: mine) theirs f k)
    (hb : c.call.cookie = b.data) (hbare : Bare cfg.bufSize c) :
    Pieces cfg mine theirs (f.add c) k := by
  have hlive := f.live_add c
  refine ⟨fun c' hc' => ?_, h.pos, h.fits, h.usedLen,
    fun x hx => h.lens x (by simp [hx]), h.taken, List.Perm.trans ?_ h.bufs⟩
  · rcases List.mem_cons.mp (hlive.mem_iff.mp hc') with rfl | hc'
    · exact hbare
    · exact h.bare c' hc'
  · have hmove := (hlive.map (·.call.cookie)).append_left (mine.map (·.data))
    refine hmove.trans ?_
    rw [List.map_cons, hb]
    exact List.perm_middle

/-- While the driving side has a buffer, a descriptor is free for it. -/
theorem Pieces.freeCnt_pos (h : Pieces cfg (b :: mine) theirs f k)
    {drv dev : Virtqueue} {ring : Vring}
    (hq : Carries cfg.vq drv dev ring f) (hk : k ≤ cfg.vq.num) :
    drv.vqFreeCnt ≠ 0 := by
  have hlen := h.bufs.length_eq
  simp only [ShmPool.cut, List.length_append, List.length_map,
    List.length_range, List.length_cons] at hlen
  exact hq.freeCnt_ne_zero (fun c hc => (h.bare c hc).needed) (by omega)

/-! ## The two roles of the sender -/

/-- A driver sends: it has cut `k` buffers from the pool so far. -/
structure DriverLane (cfg : LaneConfig) (l : LaneEnds)
    (own outs : List VqBuffer) (f : Flow) (k : Nat) : Prop extends
    Pieces cfg own outs f k where
  queue : Carries cfg.vq l.svq l.rvq l.ring f
  base : l.shpool.base = cfg.shpool.base
  poolSize : l.shpool.size = cfg.shpool.size
  avail : l.shpool.avail.toNat + k * cfg.bufSize.toNat =
    cfg.shpool.avail.toNat
  total : k ≤ cfg.vq.num

/-- A device sends: the receiver lends it the buffers, one for every entry
of the ring. -/
structure DeviceLane (cfg : LaneConfig) (l : LaneEnds)
    (own outs : List VqBuffer) (f : Flow) : Prop extends
    Pieces cfg outs own f cfg.vq.num where
  queue : Carries cfg.vq l.rvq l.svq l.ring f
  descs : ∀ i : UInt16, i.toNat < cfg.vq.num →
    (l.ring.desc i).len = cfg.bufSize
  slots : ∀ b ∈ outs, b.idx.toNat < cfg.vq.num

/-- The offset of a chain's buffer. -/
def LaneConfig.chainOff (cfg : LaneConfig) (c : Chain) : Nat :=
  shmOff cfg.vq.drvIo c.call.cookie

/-- **The queue of a lane** with the messages `pend` under way. -/
def LaneQueue (cfg : LaneConfig) (l : LaneEnds) (own outs : List VqBuffer)
    (pend : List Nat) : Prop :=
  match cfg.role with
  | .driver => ∃ f k, DriverLane cfg l own outs f k ∧
      pend = f.avail.map cfg.chainOff
  | .device => ∃ f, DeviceLane cfg l own outs f ∧
      pend = f.used.map fun u => cfg.chainOff u.1

/-- Neither list is read in an order. -/
theorem Pieces.perm (h : Pieces cfg mine theirs f k)
    {mine' theirs' : List VqBuffer} (hm : mine.Perm mine')
    (ht : theirs.Perm theirs') : Pieces cfg mine' theirs' f k :=
  { h with
    lens := fun b hb => h.lens b (hm.mem_iff.mpr hb)
    taken := ht.symm.trans h.taken
    bufs := ((hm.map _).append_right _).symm.trans h.bufs }

theorem LaneQueue.perm (h : LaneQueue cfg l own outs pend)
    {own' outs' : List VqBuffer} (ho : own.Perm own')
    (ht : outs.Perm outs') : LaneQueue cfg l own' outs' pend := by
  unfold LaneQueue at *
  split at h
  · obtain ⟨f, k, h, hp⟩ := h
    exact ⟨f, k, { h with toPieces := h.perm ho ht }, hp⟩
  · obtain ⟨f, h, hp⟩ := h
    exact ⟨f, { h with
      toPieces := h.perm ht ho
      slots := fun b hb => h.slots b (ht.mem_iff.mpr hb) }, hp⟩

/-- The list of reclaimed buffers has no part in the queue. -/
theorem LaneQueue.withList (h : LaneQueue cfg l own outs pend)
    (first last : UInt64) :
    LaneQueue cfg { l with first := first, last := last } own outs pend := by
  unfold LaneQueue at *
  split at h
  · obtain ⟨f, k, h, hp⟩ := h
    exact ⟨f, k, { h with }, hp⟩
  · obtain ⟨f, h, hp⟩ := h
    exact ⟨f, { h with }, hp⟩

/-! ## Where the buffers are -/

/-- The offsets of the buffers in use. -/
def LaneConfig.offsets (cfg : LaneConfig) (own outs : List VqBuffer)
    (pend : List Nat) : List Nat :=
  own.map (fun b => shmOff cfg.senderIo b.data) ++
    outs.map (fun b => shmOff cfg.receiverIo b.data) ++ pend

/-- Two stretches of a buffer's size have no byte in common. -/
def LaneConfig.Apart (cfg : LaneConfig) (o o' : Nat) : Prop :=
  (Span.mk o cfg.bufSize.toNat).Disjoint ⟨o', cfg.bufSize.toNat⟩

theorem LaneConfig.Apart.symm {o o' : Nat} (h : cfg.Apart o o') :
    cfg.Apart o' o :=
  Span.Disjoint.symm h

/-- The buffers in use are where either side can reach them, apart from
each other and in the lane's area. -/
structure Laid (cfg : LaneConfig) (own outs : List VqBuffer)
    (pend : List Nat) : Prop where
  ownAt : ∀ b ∈ own, b.len = cfg.bufSize ∧
    BufAt cfg.senderIo b.data cfg.bufSize.toNat
  outsAt : ∀ b ∈ outs, b.len = cfg.bufSize ∧
    BufAt cfg.receiverIo b.data cfg.bufSize.toNat
  inside : ∀ o ∈ cfg.offsets own outs pend,
    (Span.mk o cfg.bufSize.toNat).Within cfg.area
  apart : (cfg.offsets own outs pend).Pairwise cfg.Apart

/-- What was taken lies where the driving side has it. -/
theorem Pieces.taken_off (h : Pieces cfg mine theirs f k) :
    (theirs.map fun b => shmOff cfg.vq.devIo b.data).Perm
      (f.held.map cfg.chainOff) := by
  have hmap := h.taken.map fun b => shmOff cfg.vq.devIo b.data
  rw [List.map_map] at hmap
  refine hmap.trans (.of_eq (List.map_congr_left fun c hc => ?_))
  simp only [Function.comp_apply, (h.bare c (Flow.mem_held hc)).chainBuf]
  exact (h.piece (Flow.mem_held hc)).same

theorem Pieces.dev_of_mem (h : Pieces cfg mine theirs f k)
    (hb : b ∈ theirs) : b.len = cfg.bufSize ∧
      BufAt cfg.vq.devIo b.data cfg.bufSize.toNat := by
  obtain ⟨c, -, -, -, rfl, hc⟩ := h.chain_of_mem hb
  rw [(h.bare c hc).chainBuf]
  exact ⟨rfl, (h.piece hc).dev⟩

/-- **The pieces lie apart in the area**, whatever order they are in. -/
theorem Pieces.laid (h : Pieces cfg mine theirs f k) (os rest : List Nat)
    (hlen : k * cfg.bufSize.toNat ≤ cfg.area.len)
    (hp : (os ++ rest).Perm (mine.map (fun b => shmOff cfg.vq.drvIo b.data) ++
      theirs.map (fun b => shmOff cfg.vq.devIo b.data) ++
      f.avail.map cfg.chainOff ++ f.used.map fun u => cfg.chainOff u.1)) :
    (∀ o ∈ os, (Span.mk o cfg.bufSize.toNat).Within cfg.area) ∧
      os.Pairwise cfg.Apart := by
  -- whoever has a piece, it is one of the `k` cut from the pool: counting
  -- gets around the order
  have hcut : (os ++ rest).Perm ((cfg.shpool.cut cfg.bufSize.toNat k).map
      (shmOff cfg.vq.drvIo)) := by
    refine (hp.trans (List.perm_iff_count.mpr fun a => ?_)).trans
      (h.bufs.map (shmOff cfg.vq.drvIo))
    have hcnt := h.taken_off.count_eq a
    have hchain : cfg.chainOff = fun c => shmOff cfg.vq.drvIo c.call.cookie :=
      rfl
    simp only [Flow.live, List.map_append, List.map_map, List.count_append,
      hcnt, Function.comp_def, hchain]
    omega
  constructor
  · intro o ho
    obtain ⟨p, hpm, rfl⟩ := List.mem_map.mp
      (hcut.mem_iff.mp (List.mem_append_left _ ho))
    have hw := (cfg.mem_cut h.pos h.fits hpm).2
    simp only [Span.Within] at hw ⊢
    omega
  · have hoffs : ((cfg.shpool.cut cfg.bufSize.toNat k).map
        (shmOff cfg.vq.drvIo)).Pairwise cfg.Apart :=
      List.pairwise_map.mpr (cfg.pool_ok.cut_apart h.fits)
    have hall := (hcut.pairwise_iff fun h => h.symm).mpr hoffs
    exact (List.pairwise_append.mp hall).1

theorem LaneQueue.laid (h : LaneQueue cfg l own outs pend) :
    Laid cfg own outs pend := by
  unfold LaneQueue at h
  cases hr : cfg.role with
  | driver =>
    simp only [hr] at h
    obtain ⟨f, k, h, rfl⟩ := h
    obtain ⟨hin, hapart⟩ := h.laid
      (cfg.offsets own outs (f.avail.map cfg.chainOff)) _
      (by simp only [LaneConfig.area, hr]; exact h.fits)
      (by simp only [LaneConfig.offsets, LaneConfig.senderIo,
        LaneConfig.receiverIo, hr]; exact .refl _)
    refine ⟨fun b hb => ⟨h.lens b hb, ?_⟩, fun b hb => ?_, hin, hapart⟩
    · simp only [LaneConfig.senderIo, hr]
      exact (h.piece_mine hb).drv
    · simp only [LaneConfig.receiverIo, hr]
      exact h.dev_of_mem hb
  | device =>
    simp only [hr] at h
    obtain ⟨f, h, rfl⟩ := h
    obtain ⟨hin, hapart⟩ := h.laid
      (cfg.offsets own outs (f.used.map fun u => cfg.chainOff u.1))
      (f.avail.map cfg.chainOff)
      (by simp only [LaneConfig.area, hr]; exact Nat.le_refl _)
      (by
        refine List.perm_iff_count.mpr fun a => ?_
        simp only [LaneConfig.offsets, LaneConfig.senderIo,
          LaneConfig.receiverIo, hr, List.count_append]
        omega)
    refine ⟨fun b hb => ?_, fun b hb => ?_, hin, hapart⟩
    · simp only [LaneConfig.senderIo, hr]
      exact h.dev_of_mem hb
    · refine ⟨h.lens b hb, ?_⟩
      simp only [LaneConfig.receiverIo, hr]
      exact (h.piece_mine hb).drv

/-- The buffers of a lane are a part of its pool. -/
theorem LaneQueue.area_within (h : LaneQueue cfg l own outs pend) :
    cfg.area.Within
      ⟨shmOff cfg.vq.drvIo cfg.shpool.base, cfg.shpool.size.toNat⟩ := by
  have hav := UInt64.le_iff_toNat_le.mp cfg.pool_ok.avail_le
  unfold LaneQueue at h
  cases hr : cfg.role with
  | driver =>
    simp only [Span.Within, LaneConfig.area, hr]
    omega
  | device =>
    simp only [hr] at h
    obtain ⟨f, h, -⟩ := h
    have hfits := h.fits
    simp only [Span.Within, LaneConfig.area, hr]
    omega

/-! ## Receiving -/

/-- **The oldest message under way is received.** -/
theorem LaneQueue.take (h : LaneQueue cfg l own outs pend) (shm : Mem) :
    (pend = [] ∧ rpmsgVirtioGetRxBuffer (l.receiver cfg shm) =
      some (none, l.receiver cfg shm)) ∨
    ∃ b rvdev rest, pend = shmOff cfg.receiverIo b.data :: rest ∧
      rpmsgVirtioGetRxBuffer (l.receiver cfg shm) = some (some b, rvdev) ∧
      rvdev.io = cfg.receiverIo ∧ rvdev.shm = shm ∧
      LaneQueue cfg (l.withReceiver rvdev) own (b :: outs) rest := by
  unfold LaneQueue at h ⊢
  cases hr : cfg.role with
  | driver =>
    simp only [hr] at h ⊢
    obtain ⟨f, k, h, rfl⟩ := h
    -- the receiver is the device: it takes from the available ring
    have hne : ∀ c ∈ f.avail, (c.call.view cfg.vq).buffer ≠ 0 := by
      intro c hc
      have hcl : c ∈ f.live := by simp [Flow.live, hc]
      rw [h.buffer hcl]
      exact (h.piece hcl).dev.ne_zero
    rcases getRxBuffer_device (l.receiver cfg shm) h.queue hne with
      ⟨ha, hget⟩ | ⟨c, avail, rvq, ha, hget, hcar⟩
    · exact .inl ⟨by simp [ha], hget⟩
    · have hcl : c ∈ f.live := by simp [Flow.live, ha]
      refine .inr ⟨cfg.chainBuf c, _, avail.map cfg.chainOff, ?_, hget, rfl,
        rfl, f.take c, k, { h.take ha with
          queue := hcar
          base := h.base
          poolSize := h.poolSize
          avail := h.avail
          total := h.total }, by simp [Flow.take, ha]⟩
      simp only [ha, List.map_cons, LaneConfig.receiverIo, hr,
        (h.bare c hcl).chainBuf]
      rw [(h.piece hcl).same]
      rfl
  | device =>
    simp only [hr] at h ⊢
    obtain ⟨f, h, rfl⟩ := h
    rcases getRxBuffer_driver (l.receiver cfg shm) h.queue with
      ⟨hu, hget⟩ | ⟨c, len, used, idx, rvq, ring, hu, hget, hidx, hcar, hlens⟩
    · exact .inl ⟨by simp [hu], hget⟩
    · -- the receiver is the driver: it gets from the used ring
      have hgot : Pieces cfg (⟨c.call.cookie, len, idx⟩ :: outs) own (f.get c)
          cfg.vq.num := h.get hu rfl rfl
      refine .inr ⟨⟨c.call.cookie, len, idx⟩, _,
        used.map fun u => cfg.chainOff u.1, ?_, hget, rfl, rfl, f.get c,
        { hgot with
          queue := hcar
          descs := fun i hi => (hlens i).trans (h.descs i hi)
          slots := ?_ }, by simp [Flow.get, hu]⟩
      · simp only [hu, List.map_cons, LaneConfig.receiverIo, hr]
        rfl
      · intro b hb
        rcases List.mem_cons.mp hb with rfl | hb
        · exact hidx
        · exact h.slots b hb

/-- The length of a received buffer is in the descriptor it is noted
under. -/
theorem LaneQueue.outs_length (h : LaneQueue cfg l own outs pend)
    (hb : b ∈ outs) : virtqueueGetBufferLength l.ring b.idx = cfg.bufSize := by
  unfold LaneQueue at h
  split at h
  · obtain ⟨f, k, h, -⟩ := h
    obtain ⟨c, -, -, -, rfl, hc⟩ := h.chain_of_mem hb
    exact (h.queue.chain hc).len.trans (h.bare c hc).len
  · obtain ⟨f, h, -⟩ := h
    exact h.descs b.idx (h.slots b hb)

/-- **A received buffer goes back**, in its full length. -/
theorem LaneQueue.giveBack (h : LaneQueue cfg l own (b :: outs) pend)
    (shm : Mem) :
    ∃ rvdev, rpmsgVirtioReturnBuffer (l.receiver cfg shm) b.data
        (virtqueueGetBufferLength l.ring b.idx) b.idx =
          (VQUEUE_SUCCESS, rvdev) ∧ rvdev.shm = shm ∧
      LaneQueue cfg (l.withReceiver
        { rvdev with rvq := (virtqueueKick rvdev.rvq rvdev.ring).2 })
        own outs pend := by
  rw [h.outs_length List.mem_cons_self]
  unfold LaneQueue at h ⊢
  cases hr : cfg.role with
  | driver =>
    simp only [hr] at h ⊢
    obtain ⟨f, k, h, rfl⟩ := h
    -- the device puts the chain it holds on the used ring
    obtain ⟨c, l₁, l₂, hsplit, rfl, -⟩ := h.chain_of_mem List.mem_cons_self
    obtain ⟨rvq, ring, -, hret, hcar, -⟩ := returnBuffer_device
      (l.receiver cfg shm) h.queue hsplit (cfg.chainBuf c).data cfg.bufSize
    refine ⟨_, hret, rfl, f.put l₁ l₂ c cfg.bufSize, k,
      { h.put hsplit with
        queue := hcar.devKick
        base := h.base
        poolSize := h.poolSize
        avail := h.avail
        total := h.total }, rfl⟩
  | device =>
    simp only [hr] at h ⊢
    obtain ⟨f, h, rfl⟩ := h
    -- the driver adds the buffer anew, in the length its old descriptor
    -- still shows
    obtain ⟨c, rvq, ring, -, hret, hcookie, hbare, hcar, hlens⟩ :=
      returnBuffer_driver (l.receiver cfg shm) h.queue
        (h.freeCnt_pos h.queue (Nat.le_refl _))
        (h.piece_mine List.mem_cons_self).drv.ne_zero cfg.bufSize b.idx
    refine ⟨_, hret, rfl, f.add c, { h.add hcookie hbare with
      queue := hcar.drvKick
      descs := ?_
      slots := fun x hx => h.slots x (by simp [hx]) }, rfl⟩
    intro i hi
    rcases hlens i with hl | hl
    · exact hl
    · exact hl.trans (h.descs i hi)

/-! ## Sending -/

/-- A driver gets back the buffer whose message was received first. -/
theorem DriverLane.getUsed (h : DriverLane cfg l own outs f k) {len : UInt32}
    {used : List (Chain × UInt32)} (hu : f.used = (c, len) :: used)
    {idx : UInt16} {svq : Virtqueue} {ring : Vring}
    (hcar : Carries cfg.vq svq l.rvq ring (f.get c)) :
    DriverLane cfg { l with svq := svq, ring := ring }
      (⟨c.call.cookie, len, idx⟩ :: own) outs (f.get c) k where
  toPieces := h.get hu rfl rfl
  queue := hcar
  base := h.base
  poolSize := h.poolSize
  avail := h.avail
  total := h.total

/-- A driver with nothing come back is about to cut a buffer from the
pool: a descriptor is free and the pool is not used up. -/
structure LaneEnds.Draws (cfg : LaneConfig) (l : LaneEnds) : Prop where
  role : cfg.role = .driver
  empty : l.svq.vqUsedConsIdx = l.ring.used.idx
  free : l.svq.vqFreeCnt ≠ 0
  size : cfg.bufSize.toUInt64 ≠ 0
  avail : cfg.bufSize.toUInt64 ≤ l.shpool.avail

/-- While fewer buffers are in the driver's hands than descriptors are
free, one more may be cut. -/
theorem DriverLane.room (h : DriverLane cfg l own outs f k)
    (hcap : own.length < l.svq.vqFreeCnt.toNat) : k + 1 ≤ cfg.vq.num := by
  have hlive := h.queue.free_add_live fun c hc => (h.bare c hc).needed
  have hlen := h.bufs.length_eq
  have hcnt := h.queue.freeCnt
  simp only [ShmPool.cut, List.length_append, List.length_map,
    List.length_range] at hlen
  omega

/-- What is left of the pool. -/
theorem DriverLane.pool_ok (h : DriverLane cfg l own outs f k) :
    PoolMapped cfg.vq.drvIo l.shpool := by
  have hav := UInt64.le_iff_toNat_le.mp cfg.pool_ok.avail_le
  have hcnt := h.avail
  refine ⟨h.base ▸ cfg.pool_ok.base_ne, ?_, h.base ▸ cfg.pool_ok.mapped,
    by rw [h.base, h.poolSize]; exact cfg.pool_ok.bound⟩
  rw [UInt64.le_iff_toNat_le, h.poolSize]
  omega

/-- A driver cuts one more buffer, if the pool has one. -/
theorem DriverLane.getPool (h : DriverLane cfg l own outs f k) (shm : Mem)
    (hr : cfg.role = .driver) (hempty : l.svq.vqUsedConsIdx = l.ring.used.idx)
    (hcap : l.Draws cfg → own.length < l.svq.vqFreeCnt.toNat)
    {b : Option VqBuffer} {rvdev : TxDevice}
    (hget : rpmsgVirtioGetTxBuffer.rpmsgVirtioGetPoolBuffer
      (l.sender cfg shm) = (b, rvdev)) :
    rvdev.mem = (l.sender cfg shm).mem ∧
      ∃ k', DriverLane cfg (l.withSender rvdev) (b.toList ++ own) outs f
        k' := by
  have hsame : DriverLane cfg (l.withSender (l.sender cfg shm)) own outs f k := h
  unfold rpmsgVirtioGetTxBuffer.rpmsgVirtioGetPoolBuffer at hget
  split at hget
  · -- the descriptor table is full
    cases hget
    exact ⟨rfl, k, hsame⟩
  · next hfree =>
    have hsize : cfg.bufSize.toUInt64.toNat = cfg.bufSize.toNat :=
      UInt32.toNat_toUInt64 _
    by_cases hfit : cfg.bufSize.toUInt64 = 0 ∨
        l.shpool.avail < cfg.bufSize.toUInt64
    · -- the pool is used up, or not asked for a single byte
      have hpool : rpmsgVirtioShmPoolGetBuffer l.shpool cfg.bufSize.toUInt64 =
          (0, l.shpool) := if_pos hfit
      simp only [LaneEnds.sender, hpool, if_true] at hget
      cases hget
      exact ⟨rfl, k, hsame⟩
    · obtain ⟨hne, hlt⟩ := not_or.mp hfit
      have hle := UInt64.not_lt.mp hlt
      have hpos : 0 < cfg.bufSize.toNat := by
        rw [← hsize]
        exact Nat.pos_of_ne_zero fun h0 => hne (UInt64.toNat_inj.mp h0)
      obtain ⟨p, hp0, hpool, hpn, -⟩ := h.pool_ok.getBuffer hne hle
      have hsub := UInt64.toNat_sub_of_le _ _ hle
      have hlen := UInt64.le_iff_toNat_le.mp hle
      have hav := UInt64.le_iff_toNat_le.mp cfg.pool_ok.avail_le
      have hcnt := h.avail
      -- the buffer begins where the `k` cut so far end
      have hp : p = UInt64.ofNat (cfg.shpool.base.toNat +
          cfg.shpool.size.toNat - cfg.shpool.avail.toNat +
            k * cfg.bufSize.toNat) := by
        rw [← UInt64.ofNat_toNat (x := p)]
        congr 1
        rw [h.base, h.poolSize] at hpn
        omega
      have hk : (k + 1) * cfg.bufSize.toNat ≤ cfg.shpool.avail.toNat := by
        rw [Nat.add_mul, Nat.one_mul]
        omega
      simp only [LaneEnds.sender, hpool, if_neg hp0] at hget
      cases hget
      refine ⟨rfl, k + 1, ⟨h.bare, fun _ => hpos, hk, h.usedLen, ?_, h.taken,
        ?_⟩, h.queue, h.base, h.poolSize, ?_,
        h.room (hcap ⟨hr, hempty, hfree, hne, hle⟩)⟩
      · intro b hb
        rcases List.mem_cons.mp hb with rfl | hb
        · rfl
        · exact h.lens b hb
      · rw [ShmPool.cut_snoc, ← hp]
        exact (h.bufs.cons p).trans (List.perm_append_singleton _ _).symm
      · simp only [LaneEnds.withSender]
        rw [hsub, hsize, Nat.add_mul, Nat.one_mul]
        omega

/-- **The sender gets a buffer**, if there is one and none is on the list
of reclaimed buffers. -/
theorem LaneQueue.get (h : LaneQueue cfg l own outs pend) (shm : Mem)
    (hlist : (l.sender cfg shm).mem.listFirst = none)
    (hcap : l.Draws cfg → own.length < l.svq.vqFreeCnt.toNat) :
    ∃ b rvdev, rpmsgVirtioGetTxBuffer (l.sender cfg shm) = some (b, rvdev) ∧
      rvdev.mem = (l.sender cfg shm).mem ∧
      LaneQueue cfg (l.withSender rvdev) (b.toList ++ own) outs pend := by
  unfold LaneQueue at h ⊢
  cases hr : cfg.role with
  | driver =>
    simp only [hr] at h ⊢
    obtain ⟨f, k, h, rfl⟩ := h
    have hrole : (l.sender cfg shm).role = .driver := by
      rw [TxDevice.role, LaneEnds.sender, h.queue.fixed.drvDev]
    rcases h.queue.getBuffer with
      ⟨hu, hget⟩ | ⟨c, len, used, g, svq, ring, hu, hget, hg1, hg2, hcar, -⟩
    · -- nothing has come back yet: a fresh one from the pool
      obtain ⟨⟨b, rvdev⟩, hpool⟩ : ∃ r,
          rpmsgVirtioGetTxBuffer.rpmsgVirtioGetPoolBuffer (l.sender cfg shm) =
            r := ⟨_, rfl⟩
      obtain ⟨hmem, k', hl⟩ := h.getPool shm hr
        (h.queue.used_empty_iff.mpr hu) hcap hpool
      refine ⟨b, rvdev, ?_, hmem, f, k', hl, rfl⟩
      rw [rpmsgVirtioGetTxBuffer, hlist, hrole]
      simp only [LaneEnds.sender, hget]
      exact congrArg some hpool
    · -- a buffer the peer is done with
      have hne := (h.queue.chain (c := c) (by simp [Flow.live, hu])).cookie_ne
      refine ⟨some ⟨c.call.cookie, len, g.idx⟩,
        { l.sender cfg shm with svq := svq, ring := ring }, ?_, rfl, f.get c, k,
        h.getUsed hu hcar, rfl⟩
      rw [rpmsgVirtioGetTxBuffer, hlist, hrole]
      simp only [LaneEnds.sender, hget, hg1, hg2, if_pos hne]
  | device =>
    simp only [hr] at h ⊢
    obtain ⟨f, h, rfl⟩ := h
    have hrole : (l.sender cfg shm).role = .device := by
      rw [TxDevice.role, LaneEnds.sender, h.queue.fixed.devDev]
    rcases h.queue.getAvailableBuffer with
      ⟨ha, hget⟩ | ⟨c, avail, svq, ha, hget, hcar⟩
    · refine ⟨none, l.sender cfg shm, ?_, rfl, f, h, rfl⟩
      rw [rpmsgVirtioGetTxBuffer, hlist, hrole]
      simp only [LaneEnds.sender, hget, Option.bind_none]
    · have hcl : c ∈ f.live := by simp [Flow.live, ha]
      have hne : (c.call.view cfg.vq).buffer ≠ 0 := by
        rw [h.buffer hcl]
        exact (h.piece hcl).dev.ne_zero
      refine ⟨some (cfg.chainBuf c), { l.sender cfg shm with svq := svq }, ?_,
        rfl, f.take c, { h.take ha with
          queue := hcar
          descs := h.descs
          slots := h.slots }, rfl⟩
      rw [rpmsgVirtioGetTxBuffer, hlist, hrole]
      simp only [LaneEnds.sender, hget, Option.bind_some, if_neg hne]
      rfl

/-- A driver that is about to cut a buffer from the pool gets one. -/
theorem DriverLane.get_draw (h : DriverLane cfg l own outs f k) (shm : Mem)
    (hlist : (l.sender cfg shm).mem.listFirst = none) (hd : l.Draws cfg) :
    ∃ p rvdev, rpmsgVirtioGetTxBuffer (l.sender cfg shm) =
      some (some ⟨p, cfg.bufSize, 0⟩, rvdev) ∧ rvdev.svq = l.svq := by
  obtain ⟨p, hp0, hpool, -, -⟩ := h.pool_ok.getBuffer hd.size hd.avail
  have hrole : (l.sender cfg shm).role = .driver := by
    rw [TxDevice.role, LaneEnds.sender, h.queue.fixed.drvDev]
  have hempty : virtqueueGetBuffer l.svq l.ring =
      some (none, l.svq, l.ring) := by
    simp [virtqueueGetBuffer, hd.empty]
  refine ⟨p, { l.sender cfg shm with
    shpool := { l.shpool with
      avail := l.shpool.avail - cfg.bufSize.toUInt64 } }, ?_, rfl⟩
  rw [rpmsgVirtioGetTxBuffer, hlist, hrole]
  simp only [LaneEnds.sender, hempty,
    rpmsgVirtioGetTxBuffer.rpmsgVirtioGetPoolBuffer, if_neg hd.free, hpool,
    if_neg hp0]

/-- If never more buffers are outstanding than the ring has entries, a
descriptor is left for the one that is cut. -/
theorem LaneQueue.capacity (h : LaneQueue cfg l own outs pend) {shm : Mem}
    (hlist : (l.sender cfg shm).mem.listFirst = none) {b : Option VqBuffer}
    {rvdev : TxDevice}
    (hget : rpmsgVirtioGetTxBuffer (l.sender cfg shm) = some (b, rvdev))
    (hb : own.length + b.toList.length + rvdev.svq.cookies.length ≤
      cfg.vq.num) (hd : l.Draws cfg) :
    own.length < l.svq.vqFreeCnt.toNat := by
  simp only [LaneQueue, hd.role] at h
  obtain ⟨f, k, h, -⟩ := h
  obtain ⟨p, rvdev', heq, hsvq⟩ := h.get_draw shm hlist hd
  rw [heq] at hget
  cases hget
  have hfree := h.queue.free_add_live fun c hc => (h.bare c hc).needed
  have hcnt := h.queue.freeCnt
  have hlen := h.queue.cookies_perm.length_eq
  rw [List.length_map] at hlen
  rw [hsvq] at hb
  simp only [Option.toList_some, List.length_singleton] at hb
  omega

/-- **A buffer got has the lane's size**, whether it was cut from the pool
or has come back. -/
theorem LaneQueue.get_length (h : LaneQueue cfg l own outs pend) {shm : Mem}
    (hlist : (l.sender cfg shm).mem.listFirst = none) {b : VqBuffer}
    {rvdev : TxDevice}
    (hget : rpmsgVirtioGetTxBuffer (l.sender cfg shm) =
      some (some b, rvdev)) : b.len = cfg.bufSize := by
  by_cases hd : l.Draws cfg
  · simp only [LaneQueue, hd.role] at h
    obtain ⟨f, k, h, -⟩ := h
    obtain ⟨p, rvdev', heq, -⟩ := h.get_draw shm hlist hd
    rw [heq] at hget
    cases hget
    rfl
  · obtain ⟨b', rvdev', heq, -, hq⟩ := h.get shm hlist fun hd' => absurd hd' hd
    rw [heq] at hget
    cases hget
    exact (hq.laid.ownAt b (by simp)).1

/-- The length the code computes for a buffer the sender has. -/
theorem LaneQueue.own_length (h : LaneQueue cfg l own outs pend) (shm : Mem)
    (hb : b ∈ own) :
    (match (l.sender cfg shm).role with
      | .driver => cfg.bufSize
      | .device => virtqueueGetBufferLength l.ring b.idx) = cfg.bufSize := by
  cases hr : (l.sender cfg shm).role with
  | driver => rfl
  | device =>
    unfold LaneQueue at h
    split at h
    · obtain ⟨f, k, h, -⟩ := h
      rw [TxDevice.role, LaneEnds.sender, h.queue.fixed.drvDev] at hr
      cases hr
    · obtain ⟨f, h, -⟩ := h
      obtain ⟨c, -, -, -, rfl, hc⟩ := h.chain_of_mem hb
      exact h.descs c.call.head (h.queue.head_lt hc)

/-- **The sender enqueues a buffer**: one more message is under way. -/
theorem LaneQueue.enqueue (h : LaneQueue cfg l (b :: own) outs pend)
    (shm : Mem) :
    ∃ notified rvdev, enqueueTxBuffer (l.sender cfg shm) b.data b.idx =
        (VQUEUE_SUCCESS, notified, rvdev) ∧
      rvdev.mem = (l.sender cfg shm).mem ∧
      LaneQueue cfg (l.withSender rvdev) own outs
        (pend ++ [shmOff cfg.senderIo b.data]) := by
  unfold LaneQueue at h ⊢
  cases hr : cfg.role with
  | driver =>
    simp only [hr] at h ⊢
    obtain ⟨f, k, h, rfl⟩ := h
    have hrole : (l.sender cfg shm).role = .driver := by
      rw [TxDevice.role, LaneEnds.sender, h.queue.fixed.drvDev]
    -- the buffer becomes a chain of one descriptor
    obtain ⟨c, svq, ring, hadd, hcall, hcar, -⟩ := h.queue.addBuffer
      ⟨b.data, cfg.bufSize.toInt32⟩ (show (1 : Int) + 0 = 1 by rfl)
      (h.freeCnt_pos h.queue h.total)
      (h.piece_mine List.mem_cons_self).drv.ne_zero
    have hcookie : c.call.cookie = b.data := by rw [hcall]
    have hbare : Bare cfg.bufSize c := by
      constructor <;> rw [hcall]
      simp
    refine ⟨(virtqueueKick svq ring).1, { l.sender cfg shm with
      svq := (virtqueueKick svq ring).2
      ring := ring }, ?_, rfl, f.add c, k, { h.add hcookie hbare with
        queue := hcar.drvKick
        base := h.base
        poolSize := h.poolSize
        avail := h.avail
        total := h.total }, ?_⟩
    · simp only [enqueueTxBuffer, rpmsgVirtioEnqueueBuffer, hrole]
      simp only [LaneEnds.sender, hadd]
    · simp only [Flow.add, List.map_append, List.map_cons, List.map_nil,
        LaneConfig.chainOff, hcookie, LaneConfig.senderIo, hr]
  | device =>
    simp only [hr] at h ⊢
    obtain ⟨f, h, rfl⟩ := h
    have hrole : (l.sender cfg shm).role = .device := by
      rw [TxDevice.role, LaneEnds.sender, h.queue.fixed.devDev]
    -- the chain the buffer came in goes to the used ring
    obtain ⟨c, l₁, l₂, hsplit, rfl, hcl⟩ := h.chain_of_mem List.mem_cons_self
    have hlen : virtqueueGetBufferLength l.ring c.call.head = cfg.bufSize :=
      (h.queue.chain hcl).len.trans (h.bare c hcl).len
    obtain ⟨svq, ring, hadd, hcar, hdesc⟩ :=
      h.queue.addConsumedBuffer hsplit cfg.bufSize
    have hidx : (cfg.chainBuf c).idx = c.call.head := rfl
    refine ⟨(virtqueueKick svq ring).1, { l.sender cfg shm with
      svq := (virtqueueKick svq ring).2
      ring := ring }, ?_, rfl, f.put l₁ l₂ c cfg.bufSize,
      { h.put hsplit with
        queue := hcar.devKick
        descs := fun i hi =>
          (congrArg (fun d => (d i).len) hdesc).trans (h.descs i hi)
        slots := h.slots }, ?_⟩
    · simp only [enqueueTxBuffer, rpmsgVirtioEnqueueBuffer, hrole, hidx]
      simp only [LaneEnds.sender, hlen, hadd]
    · simp only [Flow.put, List.map_append, List.map_cons, List.map_nil,
        LaneConfig.senderIo, hr, (h.bare c hcl).chainBuf]
      rw [(h.piece hcl).same]
      rfl

end OpenAmp.Rpmsg
