import OpenAmp.Rpmsg.RxInvariant
import OpenAmp.Rpmsg.TxSystem

/-!
# Buffers in hand

What a side keeps in its own buffers: the list threaded through the
reclaimed ones, index and hold in the header of every other. Which queue
the buffers came from has no part in it. `TxHands` are the buffers of the
send queue, `RxHands` those of the receive queue; each call of the
application has one lemma, which says what it leaves in the hands and in
which buffers it writes.
-/

namespace OpenAmp.Rpmsg

open OpenAmp.Lib OpenAmp.Metal OpenAmp.Virtio

/-- Nothing is written outside the buffers `bs`. -/
def WritesIn (io : MetalIoRegion) (bs : List VqBuffer) (shm shm' : Mem) :
    Prop :=
  ∀ a : Span, (∀ x ∈ bs, (x.span io).Disjoint a) → Agree shm shm' a.start a.len

section Writes

variable {io : MetalIoRegion} {shm shm' : Mem} {b : VqBuffer}
  {bs bs' : List VqBuffer}

theorem writesIn_refl (io : MetalIoRegion) (bs : List VqBuffer) (shm : Mem) :
    WritesIn io bs shm shm :=
  fun _ _ _ _ _ => rfl

theorem WritesIn.mono (h : WritesIn io bs shm shm') (hs : bs ⊆ bs') :
    WritesIn io bs' shm shm' :=
  fun a ha => h a fun x hx => ha x (hs hx)

theorem WritesIn.agree (h : WritesIn io [b] shm shm') {a : Span}
    (ha : (b.span io).Disjoint a) : Agree shm shm' a.start a.len :=
  h a fun x hx => by
    rw [List.mem_singleton.mp hx]
    exact ha

/-- Buffers that lie in a stretch are written inside it. -/
theorem WritesIn.touches (h : WritesIn io bs shm shm') {s : Span}
    (hin : ∀ b ∈ bs, (b.span io).Within s) : Touches s shm shm' := by
  intro x hx
  refine h ⟨x, 1⟩ (fun b hb => ?_) x (Nat.le_refl _) (Nat.lt_succ_self _)
  have hb := hin b hb
  simp only [Span.Within, Span.Disjoint] at hb ⊢
  omega

theorem writesIn_setHdrReserved (hroom : RPMSG_HDR_SIZE ≤ b.len.toNat)
    (v : UInt32) :
    WritesIn io [b] shm (setHdrReserved io shm b.data v) := by
  intro a ha
  have hab := ha b (by simp)
  simp only [VqBuffer.span, Span.Disjoint, RPMSG_HDR_SIZE] at hab hroom
  exact agree_setHdrReserved (by omega)

theorem writesIn_noteTxBuffer (hroom : RPMSG_HDR_SIZE ≤ b.len.toNat) :
    WritesIn io [b] shm (noteTxBuffer io shm b) := by
  intro a ha
  have hab := ha b (by simp)
  simp only [VqBuffer.span, Span.Disjoint, RPMSG_HDR_SIZE] at hab hroom
  exact agree_noteTxBuffer (by omega)

theorem writesIn_payload
    (hpay : ∀ x, (x < shmOff io b.data + RPMSG_HDR_SIZE ∨
      shmOff io b.data + b.len.toNat ≤ x) → shm' x = shm x) :
    WritesIn io [b] shm shm' := by
  intro a ha x h1 h2
  have hab := ha b (by simp)
  simp only [VqBuffer.span, Span.Disjoint] at hab
  exact hpay x (by omega)

/-- The header is written inside its own sixteen bytes. -/
theorem agree_initTxHdr {src dst : UInt32} {hdr : UInt64} {len : Int32}
    {a k : Nat}
    (h : shmOff io hdr + RPMSG_HDR_SIZE ≤ a ∨ a + k ≤ shmOff io hdr) :
    Agree shm (initTxHdr io shm src dst hdr len).2 a k := by
  simp only [initTxHdr, metalIoVirtToOffset]
  split
  · refine agree_metalIoBlockWrite ?_
    simp only [RpmsgHdr.bytes, List.length_append, length_leBytes,
      shmOff, RPMSG_HDR_SIZE] at h ⊢
    omega
  · -- an address outside the region is refused
    have hlt : ¬ METAL_BAD_OFFSET < io.size := by
      rw [UInt64.lt_iff_toNat_lt]
      have := io.size.toNat_lt
      have hbad : METAL_BAD_OFFSET.toNat = 2 ^ 64 - 1 := rfl
      omega
    have hnull : metalIoVirt io METAL_BAD_OFFSET = 0 := by
      simp [metalIoVirt, hlt]
    simp only [metalIoBlockWrite, hnull, if_true]
    exact fun _ _ _ => rfl

theorem writesIn_initTxHdr (hroom : RPMSG_HDR_SIZE ≤ b.len.toNat)
    (src dst : UInt32) (len : Int32) :
    WritesIn io [b] shm (initTxHdr io shm src dst b.data len).2 := by
  intro a ha
  have hab := ha b (by simp)
  simp only [VqBuffer.span, Span.Disjoint] at hab
  exact agree_initTxHdr (by omega)

end Writes

/-! ## Of the send queue -/

/-- `recl` are the buffers on the list, `held` the ones with the
application or with a thread on its way through a call. -/
structure TxHands (m : TxMem) (recl : List VqBuffer) (held : List TxHeld) :
    Prop where
  listed : Reclaimed m recl
  noted : ∀ b, ⟨b, .noted⟩ ∈ held → Noted m b
  placed : Placed m (recl ++ held.map (·.buf))

section TxHands

variable {m m' : TxMem} {recl : List VqBuffer} {held l₁ l₂ : List TxHeld}
  {x : TxHeld} {b : VqBuffer}

/-- A held buffer, seen first among those in hand. -/
theorem held_split (recl : List VqBuffer) (l₁ l₂ : List TxHeld) (x : TxHeld) :
    (recl ++ (l₁ ++ x :: l₂).map (·.buf)).Perm
      (x.buf :: (recl ++ (l₁ ++ l₂).map (·.buf))) := by
  rw [List.map_append, List.map_cons, List.map_append, ← List.append_assoc,
    ← List.append_assoc]
  exact List.perm_middle

/-- It lies apart from all others. -/
theorem TxHands.split (h : TxHands m recl (l₁ ++ x :: l₂)) :
    Placed m (x.buf :: (recl ++ (l₁ ++ l₂).map (·.buf))) :=
  h.placed.perm (held_split recl l₁ l₂ x)

theorem TxHands.room (h : TxHands m recl (l₁ ++ x :: l₂)) :
    RPMSG_HDR_SIZE ≤ x.buf.len.toNat := by
  have hroom := h.split.room x.buf (by simp)
  simp only [RECLAIMER_SIZE, RPMSG_HDR_SIZE] at hroom ⊢
  omega

/-- What is in the hands depends on its own bytes only. -/
theorem TxHands.congr (h : TxHands m recl held) (hio : m'.io = m.io)
    (hr : m'.reclaimer = m.reclaimer) (hf : m'.first = m.first)
    (hl : m'.last = m.last)
    (hag : ∀ b ∈ recl ++ held.map (·.buf),
      Agree m.shm m'.shm (b.span m.io).start (b.span m.io).len) :
    TxHands m' recl held := by
  have hroom := h.placed.room
  refine ⟨h.listed.congr hio hr hf hl fun b hb => ?_, fun b hb => ?_,
    h.placed.congr hio hr⟩
  · have hb' : b ∈ recl ++ held.map (·.buf) := List.mem_append_left _ hb
    exact (hag b hb').mono (Nat.le_refl _)
      (by simpa [VqBuffer.span] using hroom b hb')
  · have hb' : b ∈ recl ++ held.map (·.buf) :=
      List.mem_append_right _ (List.mem_map.mpr ⟨_, hb, rfl⟩)
    have hlen := hroom b hb'
    refine (h.noted b hb).congr hio ((hag b hb').mono (Nat.le_refl _) ?_)
    simp only [VqBuffer.span, RECLAIMER_SIZE] at hlen ⊢
    omega

/-- The held buffers are in no order. -/
theorem TxHands.perm (h : TxHands m recl held) {held' : List TxHeld}
    (hp : held.Perm held') : TxHands m recl held' :=
  ⟨h.listed, fun b hb => h.noted b (hp.mem_iff.mpr hb),
    h.placed.perm ((hp.map _).append_left _)⟩

/-- **A write inside one held buffer** that leaves the thread that has it
in another phase. -/
theorem TxHands.touch (h : TxHands m recl (l₁ ++ x :: l₂)) (x' : TxHeld)
    {shm : Mem} (hbuf : x'.buf = x.buf)
    (hw : WritesIn m.io [x.buf] m.shm shm)
    (hnoted : x'.phase = .noted → Noted { m with shm := shm } x'.buf) :
    TxHands { m with shm := shm } recl (l₁ ++ x' :: l₂) := by
  have hp := h.split
  have hdis := (List.pairwise_cons.mp hp.apart).1
  have hown : (l₁ ++ x' :: l₂).map (·.buf) =
      (l₁ ++ x :: l₂).map (·.buf) := by
    simp [hbuf]
  -- the other buffers in hand do not see the write
  have hrest : TxHands m recl (l₁ ++ l₂) := by
    refine ⟨h.listed, fun y hy => h.noted y ?_,
      hp.sublist (List.sublist_cons_self _ _)⟩
    rcases List.mem_append.mp hy with hy | hy <;> simp [hy]
  have hsee : TxHands { m with shm := shm } recl (l₁ ++ l₂) :=
    hrest.congr rfl rfl rfl rfl fun y hy => hw.agree (hdis y hy)
  refine ⟨hsee.listed, fun y hy => ?_, ?_⟩
  · rcases List.mem_cons.mp (List.perm_middle.mem_iff.mp hy) with rfl | hy
    · exact hnoted rfl
    · exact hsee.noted y hy
  · rw [hown]
    exact h.placed.congr rfl rfl

theorem TxHands.note (h : TxHands m recl (l₁ ++ ⟨b, .fetched⟩ :: l₂)) :
    TxHands { m with shm := noteTxBuffer m.io m.shm b } recl
      (l₁ ++ ⟨b, .noted⟩ :: l₂) :=
  h.touch _ rfl (writesIn_noteTxBuffer h.room) fun _ =>
    hdrReserved_noteTxBuffer _ _ _

theorem TxHands.write (h : TxHands m recl held) {shm : Mem}
    (hheld : ⟨b, .noted⟩ ∈ held)
    (hpay : ∀ x, (x < shmOff m.io b.data + RPMSG_HDR_SIZE ∨
      shmOff m.io b.data + b.len.toNat ≤ x) → shm x = m.shm x) :
    TxHands { m with shm := shm } recl held := by
  obtain ⟨l₁, l₂, rfl⟩ := List.append_of_mem hheld
  refine h.touch ⟨b, .noted⟩ rfl (writesIn_payload hpay) fun _ =>
    (h.noted b hheld).congr rfl fun x _ hx => hpay x (.inl hx)

/-- The index fetched from the header is the one that was noted. -/
theorem TxHands.header_idx (h : TxHands m recl (l₁ ++ ⟨b, .noted⟩ :: l₂))
    (src dst : UInt32) (len : Int32) :
    (initTxHdr m.io m.shm src dst b.data len).1 = b.idx := by
  have hn := h.noted b (by simp)
  rw [Noted] at hn
  simp only [initTxHdr, hn]
  exact toUInt16_bufWord b.idx (by decide)

theorem TxHands.header (h : TxHands m recl (l₁ ++ ⟨b, .noted⟩ :: l₂))
    (src dst : UInt32) (len : Int32) :
    TxHands { m with shm := (initTxHdr m.io m.shm src dst b.data len).2 } recl
      (l₁ ++ ⟨{ b with
        idx := (initTxHdr m.io m.shm src dst b.data len).1 }, .sealed⟩ ::
        l₂) := by
  refine h.touch _ ?_ (writesIn_initTxHdr h.room src dst len) fun hph => ?_
  · simp [h.header_idx]
  · simp at hph

/-- A held buffer is gone from the hands. -/
theorem TxHands.drop (h : TxHands m recl (l₁ ++ x :: l₂)) :
    TxHands m recl (l₁ ++ l₂) := by
  refine ⟨h.listed, fun y hy => h.noted y ?_,
    h.split.sublist (List.sublist_cons_self _ _)⟩
  rcases List.mem_append.mp hy with hy | hy <;> simp [hy]

/-- **A held buffer is released** to the end of the list. -/
theorem TxHands.release (h : TxHands m recl (l₁ ++ ⟨b, .noted⟩ :: l₂)) :
    (rpmsgVirtioReleaseTxBuffer m b.data).io = m.io ∧
    (rpmsgVirtioReleaseTxBuffer m b.data).reclaimer = m.reclaimer ∧
    TxHands (rpmsgVirtioReleaseTxBuffer m b.data) (recl ++ [b]) (l₁ ++ l₂) ∧
    WritesIn m.io (b :: recl) m.shm
      (rpmsgVirtioReleaseTxBuffer m b.data).shm := by
  have hp := h.split
  have hpl : Placed m (b :: recl) :=
    hp.sublist ((List.sublist_append_left _ _).cons_cons _)
  obtain ⟨hio, hr, hlist, hw⟩ := h.listed.push hpl (h.noted b (by simp))
  refine ⟨hio, hr, ⟨hlist, fun y hy => ?_, ?_⟩, hw⟩
  · -- the remaining held buffers are apart from `b` and from the list
    have hmem : y ∈ (l₁ ++ l₂).map (·.buf) := List.mem_map.mpr ⟨_, hy, rfl⟩
    have happ := hp.apart
    rw [← List.cons_append] at happ
    have hlen := hp.room y (by simp only [List.mem_cons, List.mem_append, hmem,
      or_true])
    have hag := hw (y.span m.io) fun z hz =>
      (List.pairwise_append.mp happ).2.2 z hz _ hmem
    refine (h.drop.noted y hy).congr hio (hag.mono (Nat.le_refl _) ?_)
    simp only [VqBuffer.span, RECLAIMER_SIZE] at hlen ⊢
    omega
  · refine (hp.perm ?_).congr hio hr
    rw [List.append_assoc]
    exact List.perm_middle.symm

/-- **A buffer is taken off the list.** -/
theorem TxHands.reuse (h : TxHands m (b :: recl) held) :
    m.listFirst = some b.data ∧ (m.listDel b.data).idx b.data = b.idx ∧
    (m.listDel b.data).io = m.io ∧
    (m.listDel b.data).reclaimer = m.reclaimer ∧
    TxHands (m.listDel b.data) recl (held ++ [⟨b, .fetched⟩]) ∧
    WritesIn m.io (b :: recl) m.shm (m.listDel b.data).shm := by
  have hpl : Placed m (b :: recl) :=
    h.placed.sublist (List.sublist_append_left _ _)
  obtain ⟨hfirst, hio, hr, hidx, hlist, hw⟩ := h.listed.pop hpl
  refine ⟨hfirst, hidx, hio, hr, ⟨hlist, fun y hy => ?_, ?_⟩, hw⟩
  · have hy' : ⟨y, .noted⟩ ∈ held := by simpa using hy
    have hmem : y ∈ held.map (·.buf) := List.mem_map.mpr ⟨_, hy', rfl⟩
    have hlen := h.placed.room y (List.mem_append_right _ hmem)
    have hag := hw (y.span m.io) fun z hz =>
      (List.pairwise_append.mp h.placed.apart).2.2 z hz _ hmem
    refine (h.noted y hy').congr hio (hag.mono (Nat.le_refl _) ?_)
    simp only [VqBuffer.span, RECLAIMER_SIZE] at hlen ⊢
    omega
  · refine (h.placed.perm ?_).congr hio hr
    rw [List.map_append, List.cons_append, ← List.append_assoc]
    exact (List.perm_append_singleton _ _).symm

/-- A buffer that lies apart from those in hand comes in. -/
theorem TxHands.fetch (h : TxHands m recl held)
    (hp : Placed m (b :: (recl ++ held.map (·.buf)))) :
    TxHands m recl (held ++ [⟨b, .fetched⟩]) := by
  refine ⟨h.listed, fun y hy => h.noted y (by simpa using hy), hp.perm ?_⟩
  rw [List.map_append, ← List.append_assoc]
  exact (List.perm_append_singleton _ _).symm

end TxHands

/-! ## Of the receive queue -/

theorem Received.count_eq_zero {r : Received} (h : r.releases ≤ r.holds) :
    r.count = 0 ↔ r.phase = .finished ∧ r.releases = r.holds := by
  unfold Received.count
  split
  · next hp =>
    simp only [hp, true_and]
    omega
  · next hp =>
    simp only [hp, false_and, iff_false]
    omega

@[simp] theorem Received.count_putBacks (r : Received) (n : Nat) :
    ({ r with putBacks := n } : Received).count = r.count := rfl

theorem Received.Ok.out {r : Received} (h : r.Ok) (hpos : r.count ≠ 0) :
    r.putBacks = 0 := by
  rw [h.once, if_neg hpos]

/-- Fewer holds than the counter has room for. -/
theorem Received.Ok.count_lt {r : Received} (h : r.Ok) : r.count < 65536 := by
  have hfew := h.few
  unfold Received.count
  split <;> omega

/-- The buffers of some receptions that have not been put back. -/
def outsOf (rx : List Received) : List VqBuffer :=
  (rx.filter fun r => r.putBacks = 0).map (·.buf)

section Outs

variable {l₁ l₂ : List Received} {r : Received}

theorem outsOf_append (l l' : List Received) :
    outsOf (l ++ l') = outsOf l ++ outsOf l' := by
  simp [outsOf]

theorem outsOf_out (l₁ l₂ : List Received) (h : r.putBacks = 0) :
    (outsOf (l₁ ++ r :: l₂)).Perm (r.buf :: outsOf (l₁ ++ l₂)) := by
  rw [List.append_cons, outsOf_append, outsOf_append, outsOf_append]
  simp only [outsOf, h, List.filter_cons_of_pos, decide_true,
    List.filter_nil, List.map_cons, List.map_nil, List.append_assoc,
    List.cons_append, List.nil_append]
  exact List.perm_middle

theorem outsOf_back (h : r.putBacks ≠ 0) :
    outsOf (l₁ ++ r :: l₂) = outsOf (l₁ ++ l₂) := by
  simp [outsOf, h]

theorem outsOf_same {r' : Received} (h : r.putBacks = 0)
    (h' : r'.putBacks = 0) (hbuf : r'.buf = r.buf) :
    (outsOf (l₁ ++ r :: l₂)).Perm (outsOf (l₁ ++ r' :: l₂)) := by
  have hp := outsOf_out l₁ l₂ h'
  rw [hbuf] at hp
  exact (outsOf_out l₁ l₂ h).trans hp.symm

theorem outsOf_perm {rx rx' : List Received} (h : rx.Perm rx') :
    (outsOf rx).Perm (outsOf rx') :=
  (h.filter _).map _

theorem mem_outsOf {rx : List Received} (hr : r ∈ rx) (h : r.putBacks = 0) :
    r.buf ∈ outsOf rx :=
  List.mem_map.mpr ⟨r, List.mem_filter.mpr ⟨hr, by simp [h]⟩, rfl⟩

end Outs

/-- The books of all receptions are in order, and the buffers not yet put
back lie apart, each with index and holds in its header. -/
structure RxHands (io : MetalIoRegion) (shm : Mem) (rx : List Received) :
    Prop where
  books : ∀ r ∈ rx, r.Ok
  words : ∀ r ∈ rx, r.putBacks = 0 → Counted io shm r.buf r.count
  apart : (outsOf rx).Pairwise fun a b => (a.span io).Disjoint (b.span io)
  room : ∀ b ∈ outsOf rx, RPMSG_HDR_SIZE ≤ b.len.toNat

section RxHands

variable {io : MetalIoRegion} {shm shm' : Mem} {rx l₁ l₂ : List Received}
  {r : Received} {b : VqBuffer}

theorem RxHands.congr (h : RxHands io shm rx)
    (hag : ∀ b ∈ outsOf rx, Agree shm shm' (b.span io).start (b.span io).len) :
    RxHands io shm' rx := by
  refine { h with words := fun r hr h0 => (h.words r hr h0).congr ?_ }
  have hroom := h.room r.buf (mem_outsOf hr h0)
  refine (hag r.buf (mem_outsOf hr h0)).mono (Nat.le_add_right _ _) ?_
  simp only [VqBuffer.span, RPMSG_HDR_SIZE] at hroom ⊢
  omega

/-- Nor are the receptions. -/
theorem RxHands.perm (h : RxHands io shm rx) {rx' : List Received}
    (hp : rx.Perm rx') : RxHands io shm rx' where
  books := fun r hr => h.books r (hp.mem_iff.mpr hr)
  words := fun r hr => h.words r (hp.mem_iff.mpr hr)
  apart := ((outsOf_perm hp).pairwise_iff fun h => h.symm).mp h.apart
  room := fun b hb => h.room b ((outsOf_perm hp).mem_iff.mpr hb)

/-- A reception in hand lies apart from the other ones. -/
theorem RxHands.split (h : RxHands io shm (l₁ ++ r :: l₂))
    (h0 : r.putBacks = 0) :
    (∀ b ∈ outsOf (l₁ ++ l₂), (r.buf.span io).Disjoint (b.span io)) ∧
      RPMSG_HDR_SIZE ≤ r.buf.len.toNat ∧ RxHands io shm (l₁ ++ l₂) := by
  have hp := outsOf_out l₁ l₂ h0
  have happ := List.pairwise_cons.mp
    ((hp.pairwise_iff fun h => h.symm).mp h.apart)
  have hmem : ∀ x ∈ l₁ ++ l₂, x ∈ l₁ ++ r :: l₂ := fun x hx =>
    List.perm_middle.mem_iff.mpr (List.mem_cons_of_mem _ hx)
  exact ⟨happ.1, h.room _ (hp.mem_iff.mpr List.mem_cons_self),
    fun x hx => h.books x (hmem x hx), fun x hx => h.words x (hmem x hx),
    happ.2, fun b hb => h.room b (hp.mem_iff.mpr (List.mem_cons_of_mem _ hb))⟩

/-- **A write inside one buffer in hand** that changes what the books say
of it. -/
theorem RxHands.touch (h : RxHands io shm (l₁ ++ r :: l₂))
    (h0 : r.putBacks = 0) {r' : Received} (hbuf : r'.buf = r.buf)
    (hok : r'.Ok) (hw : WritesIn io [r.buf] shm shm')
    (hcnt : r'.putBacks = 0 → Counted io shm' r.buf r'.count) :
    RxHands io shm' (l₁ ++ r' :: l₂) := by
  obtain ⟨hdis, hroom, hrest⟩ := h.split h0
  -- the other buffers in hand do not see the write
  have hsee := hrest.congr fun b hb => hw.agree (hdis b hb)
  have hmem : ∀ x ∈ l₁ ++ r' :: l₂, x = r' ∨ x ∈ l₁ ++ l₂ := fun x hx =>
    List.mem_cons.mp (List.perm_middle.mem_iff.mp hx)
  -- it is one of the buffers in hand still, or it has been put back
  have hlay : (outsOf (l₁ ++ r' :: l₂)).Pairwise
      (fun a b => (a.span io).Disjoint (b.span io)) ∧
      ∀ b ∈ outsOf (l₁ ++ r' :: l₂), RPMSG_HDR_SIZE ≤ b.len.toNat := by
    by_cases h0' : r'.putBacks = 0
    · have hp := outsOf_out l₁ l₂ h0'
      refine ⟨(hp.pairwise_iff fun h => h.symm).mpr ?_, fun b hb => ?_⟩
      · exact List.pairwise_cons.mpr ⟨hbuf ▸ hdis, hsee.apart⟩
      · rcases List.mem_cons.mp (hp.mem_iff.mp hb) with rfl | hb
        · exact hbuf ▸ hroom
        · exact hsee.room b hb
    · rw [outsOf_back h0']
      exact ⟨hsee.apart, hsee.room⟩
  refine ⟨fun x hx => ?_, fun x hx hx0 => ?_, hlay.1, hlay.2⟩
  · rcases hmem x hx with rfl | hx
    · exact hok
    · exact hsee.books x hx
  · rcases hmem x hx with rfl | hx
    · exact hbuf ▸ hcnt hx0
    · exact hsee.words x hx hx0

theorem RxHands.hold {us : RxDevice}
    (h : RxHands us.io us.shm (l₁ ++ r :: l₂)) (hphase : r.phase = .calling)
    (hfew : r.holds + 1 < 65535) :
    WritesIn us.io [r.buf] us.shm (rpmsgVirtioHoldRxBuffer us r.buf.data).shm ∧
      RxHands us.io (rpmsgVirtioHoldRxBuffer us r.buf.data).shm
        (l₁ ++ { r with holds := r.holds + 1 } :: l₂) := by
  have hok := h.books r (by simp)
  have hle := hok.le
  have hcount : ({ r with holds := r.holds + 1 } : Received).count =
      r.count + 1 := by
    simp only [Received.count, hphase]
    omega
  have h0 := hok.out (by simp [Received.count, hphase])
  have hw : WritesIn us.io [r.buf] us.shm
      (rpmsgVirtioHoldRxBuffer us r.buf.data).shm :=
    writesIn_setHdrReserved (h.split h0).2.1 _
  refine ⟨hw, h.touch h0 rfl ⟨by simp only; omega, hfew, ?_⟩ hw fun _ => ?_⟩
  · rw [hcount, if_neg (Nat.succ_ne_zero _)]
    exact h0
  · rw [hcount]
    exact (h.words r (by simp) h0).hold

/-- **Giving up one hold** of a reception: if somebody else still holds
the buffer it stays in hand, and if not it is put back. -/
theorem RxHands.giveUp {us : RxDevice}
    (h : RxHands us.io us.shm (l₁ ++ r :: l₂)) {r' : Received}
    (hbuf : r'.buf = r.buf) (hle : r'.releases ≤ r'.holds)
    (hfew : r'.holds < 65535) (hcount : r.count = r'.count + 1) :
    r.putBacks = 0 ∧ ∃ shm, WritesIn us.io [r.buf] us.shm shm ∧
      ((rpmsgVirtioReleaseRxBuffer us r.buf.data =
          (none, { us with shm := shm }) ∧
        RxHands us.io shm (l₁ ++ { r' with putBacks := r.putBacks } :: l₂)) ∨
      ((∀ status us', rpmsgVirtioReturnBuffer { us with shm := shm } r.buf.data
            (virtqueueGetBufferLength us.ring r.buf.idx) r.buf.idx =
              (status, us') →
          rpmsgVirtioReleaseRxBuffer us r.buf.data = (some status,
            { us' with rvq := (virtqueueKick us'.rvq us'.ring).2 })) ∧
        RxHands us.io shm
          (l₁ ++ { r' with putBacks := r.putBacks + 1 } :: l₂))) := by
  have hok := h.books r (by simp)
  have h0 := hok.out (by omega)
  have hword := h.words r (by simp) h0
  have hbound := hok.count_lt
  have hroom := (h.split h0).2.1
  cases hc : r'.count with
  | succ n =>
    -- somebody else still holds the buffer
    rw [hcount, hc] at hword hbound
    obtain ⟨shm, heq, hshm⟩ := hword.release hbound
    have hw : WritesIn us.io [r.buf] us.shm shm := by
      rw [hshm]
      exact writesIn_setHdrReserved hroom _
    refine ⟨h0, shm, hw, .inl ⟨heq, h.touch h0 hbuf ⟨hle, hfew, ?_⟩ hw
      fun _ => ?_⟩⟩
    · rw [Received.count_putBacks, hc, if_neg (Nat.succ_ne_zero _)]
      exact h0
    · rw [Received.count_putBacks, hc, hshm]
      exact hdrReserved_setHdrReserved _ _ _ _
  | zero =>
    -- this was the last hold
    rw [hcount, hc] at hword
    have hw : WritesIn us.io [r.buf] us.shm
        (setHdrReserved us.io us.shm r.buf.data (bufWord r.buf.idx 0)) :=
      writesIn_setHdrReserved hroom _
    refine ⟨h0, _, hw, .inr ⟨fun status us' => hword.releaseLast,
      h.touch h0 hbuf ⟨hle, hfew, ?_⟩ hw fun h1 => ?_⟩⟩
    · rw [Received.count_putBacks, hc, if_pos rfl]
      exact congrArg (· + 1) h0
    · exact absurd h1 (Nat.succ_ne_zero _)

theorem RxHands.ret (h : RxHands io shm (l₁ ++ r :: l₂))
    (hphase : r.phase = .calling) :
    RxHands io shm (l₁ ++ { r with phase := .returned } :: l₂) := by
  have hok := h.books r (by simp)
  have hcount : ({ r with phase := .returned } : Received).count = r.count := by
    simp [Received.count, hphase]
  have h0 := hok.out (by simp [Received.count, hphase])
  refine h.touch h0 rfl ⟨hok.le, hok.few, ?_⟩ (writesIn_refl _ _ _) fun _ => ?_
  · rw [hcount]
    exact hok.once
  · rw [hcount]
    exact h.words r (by simp) h0

/-- The application writes in a buffer it has. -/
theorem RxHands.write (h : RxHands io shm rx) (hr : r ∈ rx)
    (huse : r.phase = .calling ∨ r.releases < r.holds)
    (hpay : ∀ x, (x < shmOff io r.buf.data + RPMSG_HDR_SIZE ∨
      shmOff io r.buf.data + r.buf.len.toNat ≤ x) → shm' x = shm x) :
    r.putBacks = 0 ∧ WritesIn io [r.buf] shm shm' ∧ RxHands io shm' rx := by
  obtain ⟨l₁, l₂, rfl⟩ := List.append_of_mem hr
  have hok := h.books r hr
  have h0 : r.putBacks = 0 := by
    refine hok.out fun hc => ?_
    obtain ⟨hf, heq⟩ := (Received.count_eq_zero hok.le).mp hc
    rcases huse with hcall | hlt
    · rw [hf] at hcall
      cases hcall
    · omega
  have hw := writesIn_payload hpay
  refine ⟨h0, hw, h.touch h0 rfl hok hw fun _ =>
    (h.words r hr h0).congr fun x _ hx => hpay x (.inl ?_)⟩
  simp only [RPMSG_HDR_SIZE]
  omega

/-- A buffer that lies apart from those in hand is received. -/
theorem RxHands.take (h : RxHands io shm rx)
    (hdis : ∀ x ∈ outsOf rx, (b.span io).Disjoint (x.span io))
    (hroom : RPMSG_HDR_SIZE ≤ b.len.toNat) :
    WritesIn io [b] shm (noteTxBuffer io shm b) ∧
      RxHands io (noteTxBuffer io shm b)
        (rx ++ [⟨b, .calling, 0, 0, 0⟩]) := by
  have hw : WritesIn io [b] shm (noteTxBuffer io shm b) :=
    writesIn_noteTxBuffer hroom
  have hsee := h.congr fun x hx => hw.agree (hdis x hx)
  have hp : (outsOf (rx ++ [⟨b, .calling, 0, 0, 0⟩])).Perm
      (b :: outsOf rx) := by
    rw [outsOf_append]
    exact List.perm_append_singleton _ _
  refine ⟨hw, fun r hr => ?_, fun r hr h0 => ?_, ?_, fun x hx => ?_⟩
  · rcases List.mem_append.mp hr with hr | hr
    · exact hsee.books r hr
    · rw [List.mem_singleton.mp hr]
      exact ⟨Nat.le_refl _, Nat.succ_pos _, by simp [Received.count]⟩
  · rcases List.mem_append.mp hr with hr | hr
    · exact hsee.words r hr h0
    · rw [List.mem_singleton.mp hr]
      exact hdrReserved_noteTxBuffer _ _ _
  · exact (hp.pairwise_iff fun h => h.symm).mpr
      (List.pairwise_cons.mpr ⟨hdis, hsee.apart⟩)
  · rcases List.mem_cons.mp (hp.mem_iff.mp hx) with rfl | hx
    · exact hroom
    · exact hsee.room x hx

end RxHands

end OpenAmp.Rpmsg
