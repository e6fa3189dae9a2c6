import OpenAmp.Rpmsg.TxSystem

/-!
# The transmission invariant

Every buffer of a link is in one of three places: on the list of
reclaimed buffers, with the application, or in the send queue. `Custody`
is the abstract picture, a list of buffers tagged with the event that
put them where they are: they lie apart, and the log agrees with the
tags. `TxInv` ties a state of the system to it, through the flow of the
send queue and the list threaded through the reclaimed buffers; what
differs between the two roles is in `DriverSide` and `DeviceSide`.
-/

namespace OpenAmp.Rpmsg

open OpenAmp.Lib OpenAmp.Metal OpenAmp.Virtio

/-! ## Custody -/

/-- The tagged buffers lie apart, and each has gone last through the
event it is tagged with. Only a device loses sight of a buffer, when the
peer collects the message in it. -/
structure Custody (cfg : TxConfig) (m : TxMem) (tagged : List (VqBuffer × TxEvent))
    (log : List (UInt64 × TxEvent)) : Prop where
  placed : Placed m (tagged.map Prod.fst)
  tracks : Tracks TxFollows (fun k => cfg.role = .device ∧ k = .collected)
    (tagged.map fun e => (e.1.data, e.2)) log

section Custody

variable {cfg : TxConfig} {m m' : TxMem} {b b' : VqBuffer} {k k' : TxEvent}
  {tagged tagged' : List (VqBuffer × TxEvent)}
  {log : List (UInt64 × TxEvent)}

theorem Custody.perm (h : Custody cfg m tagged log) (hp : tagged.Perm tagged') :
    Custody cfg m tagged' log :=
  ⟨h.placed.perm (hp.map _), h.tracks.perm (hp.map _)⟩

theorem Custody.congr (h : Custody cfg m tagged log) (hio : m'.io = m.io)
    (hr : m'.reclaimer = m.reclaimer) : Custody cfg m' tagged log :=
  ⟨h.placed.congr hio hr, h.tracks⟩

/-- The index a buffer carries has no part in where it lies. -/
theorem Placed.reindex {bs : List VqBuffer} (h : Placed m (b :: bs))
    (hd : b'.data = b.data) (hl : b'.len = b.len) : Placed m (b' :: bs) := by
  have hspan : b'.span m.io = b.span m.io := by simp [VqBuffer.span, hd, hl]
  obtain ⟨h1, h2⟩ := List.pairwise_cons.mp h.apart
  refine ⟨List.pairwise_cons.mpr ⟨fun x hx => hspan ▸ h1 x hx, h2⟩, ?_, ?_⟩
  · intro x hx
    rcases List.mem_cons.mp hx with rfl | hx
    · rw [hl]
      exact h.room b (by simp)
    · exact h.room x (by simp [hx])
  · intro x hx
    rcases List.mem_cons.mp hx with rfl | hx
    · rw [hd]
      exact h.outside b (by simp)
    · exact h.outside x (by simp [hx])

/-- A buffer goes from one place to another. -/
theorem Custody.move (h : Custody cfg m ((b, k) :: tagged) log)
    (b' : VqBuffer) (k' : TxEvent) (hf : TxFollows (some k) k') (hd : b'.data = b.data)
    (hl : b'.len = b.len) :
    Custody cfg m ((b', k') :: tagged) (log ++ [(b.data, k')]) := by
  refine ⟨h.placed.reindex hd hl, ?_⟩
  have hmove := Tracks.move h.tracks hf
  rw [← hd] at hmove ⊢
  exact hmove

/-- A buffer that lies apart from all others comes in. -/
theorem Custody.enter (h : Custody cfg m tagged log)
    (hp : Placed m (b :: tagged.map Prod.fst)) (hnone : TxFollows none k)
    (hout : cfg.role = .device → TxFollows (some .collected) k) :
    Custody cfg m ((b, k) :: tagged) (log ++ [(b.data, k)]) := by
  refine ⟨hp, h.tracks.enter ?_ hnone ?_⟩
  · have hnd := (List.nodup_cons.mp hp.nodup).2
    rw [List.map_cons, List.nodup_cons, List.map_map] at hnd
    rw [List.map_map]
    exact hnd.1
  · rintro k' ⟨hr, rfl⟩
    exact hout hr

/-- A message leaves with its buffer. -/
theorem Custody.leave (h : Custody cfg m ((b, .sent) :: tagged) log)
    (hr : cfg.role = .device) :
    Custody cfg m tagged (log ++ [(b.data, .collected)]) :=
  ⟨h.placed.sublist (List.sublist_cons_self _ _),
    h.tracks.leave trivial ⟨hr, rfl⟩⟩

end Custody

/-! ## The invariant -/

/-- A chain of the send queue as a buffer on our side. -/
def TxConfig.chainBuf (cfg : TxConfig) (c : Chain) : VqBuffer :=
  match cfg.role with
  | .driver => ⟨c.call.cookie, cfg.h2rBufSize, 0⟩
  | .device =>
    ⟨(c.call.view cfg.vq).buffer, (c.call.view cfg.vq).len, c.call.head⟩

/-- The chains that are queued for us or by us, with the event that put
them there. Those a device holds are in its own hands. -/
def TxConfig.queuedChains (cfg : TxConfig) (f : Flow) : List (Chain × TxEvent) :=
  match cfg.role with
  | .driver =>
    (f.avail ++ f.held).map (fun c => (c, .sent)) ++
      f.used.map fun u => (u.1, .offered)
  | .device =>
    f.avail.map (fun c => (c, .offered)) ++ f.used.map fun u => (u.1, .sent)

/-- All buffers of the link, each with its tag. -/
def TxConfig.tagged (cfg : TxConfig) (recl : List VqBuffer)
    (held : List TxHeld) (f : Flow) : List (VqBuffer × TxEvent) :=
  recl.map (fun b => (b, .released)) ++ held.map (fun h => (h.buf, .got)) ++
    (cfg.queuedChains f).map fun q => (cfg.chainBuf q.1, q.2)

/-- What holds of a driver with buffers `own` in its own hands: all
buffers are cut from the pool below its remainder, and there are never
more than ring entries. -/
structure DriverSide (cfg : TxConfig) (own : List VqBuffer) (us : TxDevice)
    (peer : Virtqueue) (taken : List AvailableBuffer) (f : Flow) : Prop where
  size : us.h2rBufSize = cfg.h2rBufSize
  queue : Carries cfg.vq us.svq peer us.ring f
  single : f.Single
  shape : ∀ c ∈ f.live, c.call.first.len.toUInt32 = cfg.h2rBufSize
  lens : ∀ b ∈ own, b.len = cfg.h2rBufSize
  usedLen : ∀ u ∈ f.used, u.2 = cfg.h2rBufSize
  taken : taken.Perm (f.held.map (·.call.view cfg.vq))
  base : us.shpool.base = cfg.shpool.base
  poolSize : us.shpool.size = cfg.shpool.size
  avail : us.shpool.avail ≤ us.shpool.size
  within : ∀ p ∈ own.map (·.data) ++ f.live.map (·.call.cookie),
    cfg.shpool.base.toNat ≤ p.toNat ∧
    p.toNat + cfg.h2rBufSize.toNat + us.shpool.avail.toNat ≤
      cfg.shpool.base.toNat + cfg.shpool.size.toNat
  total : own.length + f.live.length ≤ cfg.vq.num

/-- What holds of a device: its buffers are exactly the chains it has
taken from the queue. -/
structure DeviceSide (cfg : TxConfig) (own : List VqBuffer) (us : TxDevice)
    (peer : Virtqueue) (f : Flow) : Prop where
  queue : Carries cfg.vq peer us.svq us.ring f
  single : f.Single
  shape : ∀ c ∈ f.live, c.call.first.buf = c.call.cookie ∧
    (c.call.view cfg.vq).buffer ≠ 0
  own : own.Perm (f.held.map cfg.chainBuf)

/-- What holds of our side in its role. -/
def SideInv (cfg : TxConfig) (own : List VqBuffer) (us : TxDevice)
    (peer : Virtqueue) (taken : List AvailableBuffer) (f : Flow) : Prop :=
  match cfg.role with
  | .driver => DriverSide cfg own us peer taken f
  | .device => DeviceSide cfg own us peer f

/-- **The transmission invariant**, with the flow of the send queue and
the buffers on the list. -/
structure TxInv (cfg : TxConfig) (s : TxSystem) (f : Flow)
    (recl : List VqBuffer) : Prop where
  io : s.us.mem.io = cfg.io
  head : s.us.mem.reclaimer = cfg.reclaimer
  listed : Reclaimed s.us.mem recl
  noted : ∀ b, ⟨b, .noted⟩ ∈ s.held → Noted s.us.mem b
  custody : Custody cfg s.us.mem (cfg.tagged recl s.held f) s.log
  side : SideInv cfg (recl ++ s.held.map (·.buf)) s.us s.peer s.taken f

section Basic

variable {cfg : TxConfig} {s : TxSystem} {f : Flow} {recl : List VqBuffer}
  {own own' : List VqBuffer} {us : TxDevice} {peer : Virtqueue}
  {taken : List AvailableBuffer} {b : VqBuffer}

theorem SideInv.perm (h : SideInv cfg own us peer taken f)
    (hp : own.Perm own') : SideInv cfg own' us peer taken f := by
  unfold SideInv at *
  split at h
  · refine { h with lens := ?_, within := ?_, total := ?_ }
    · exact fun b hb => h.lens b (hp.mem_iff.mpr hb)
    · exact fun p hp' => h.within p
        (((hp.map _).append_right _).mem_iff.mpr hp')
    · exact hp.length_eq ▸ h.total
  · exact { h with own := hp.symm.trans h.own }

/-- The bytes in memory have no part in the role's invariant. -/
theorem SideInv.withMem (h : SideInv cfg own us peer taken f) (mem : TxMem) :
    SideInv cfg own { us with mem := mem } peer taken f := by
  unfold SideInv at *
  split at h
  · exact { h with }
  · exact { h with }

theorem SideInv.role (h : SideInv cfg own us peer taken f) :
    us.role = cfg.role := by
  unfold SideInv at h
  split at h
  · next hr => rw [TxDevice.role, h.queue.fixed.drvDev, hr]
  · next hr => rw [TxDevice.role, h.queue.fixed.devDev, hr]

/-- No more buffers in our own hands than ring entries. -/
theorem SideInv.length_le (h : SideInv cfg own us peer taken f) :
    own.length ≤ cfg.vq.num := by
  unfold SideInv at h
  split at h
  · have := h.total
    omega
  · have := h.queue.length_le
    have := h.own.length_eq
    rw [List.length_map] at this
    omega

theorem TxInv.tagged_fst (_ : TxInv cfg s f recl) :
    (cfg.tagged recl s.held f).map Prod.fst =
      recl ++ s.held.map (·.buf) ++
        (cfg.queuedChains f).map fun q => cfg.chainBuf q.1 := by
  simp [TxConfig.tagged, Function.comp_def]

/-- The buffers in our own hands lie apart. -/
theorem TxInv.placed (h : TxInv cfg s f recl) :
    Placed s.us.mem (recl ++ s.held.map (·.buf)) := by
  have := h.custody.placed
  rw [h.tagged_fst] at this
  exact this.sublist (List.sublist_append_left _ _)

/-- A held buffer, seen first in the custody. -/
theorem tagged_split (cfg : TxConfig) (recl : List VqBuffer) (f : Flow)
    (l₁ l₂ : List TxHeld) (x : TxHeld) :
    (cfg.tagged recl (l₁ ++ x :: l₂) f).Perm
      ((x.buf, .got) :: cfg.tagged recl (l₁ ++ l₂) f) := by
  simp only [TxConfig.tagged, List.map_append, List.map_cons,
    List.append_assoc, List.cons_append]
  rw [← List.append_assoc, ← List.append_assoc (recl.map _)]
  exact List.perm_middle

end Basic

end OpenAmp.Rpmsg
