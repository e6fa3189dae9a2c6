import OpenAmp.Rpmsg.AppLink
import OpenAmp.Rpmsg.Hands
import OpenAmp.Rpmsg.LaneQueue

/-!
# The invariant of a lane with its applications

A lane is in order if its queue is, with the reclaimed buffers and the
ones with the sending application on one side and the received ones on
the other, and if either side has its hands in order. The queue says that
the two sides have different buffers, so what one writes in its own the
other does not see, and what happens outside the lane's area neither.
-/

namespace OpenAmp.Rpmsg

open OpenAmp.Lib OpenAmp.Metal OpenAmp.Virtio

/-! ## Two sides apart -/

section Laid

variable {cfg : LaneConfig} {own outs : List VqBuffer} {pend : List Nat}
  {b : VqBuffer} {shm shm' : Mem}

theorem Laid.own_span (h : Laid cfg own outs pend) (hb : b ∈ own) :
    b.span cfg.senderIo =
      ⟨shmOff cfg.senderIo b.data, cfg.bufSize.toNat⟩ := by
  rw [VqBuffer.span, (h.ownAt b hb).1]

theorem Laid.outs_span (h : Laid cfg own outs pend) (hb : b ∈ outs) :
    b.span cfg.receiverIo =
      ⟨shmOff cfg.receiverIo b.data, cfg.bufSize.toNat⟩ := by
  rw [VqBuffer.span, (h.outsAt b hb).1]

theorem Laid.own_within (h : Laid cfg own outs pend) (hb : b ∈ own) :
    (b.span cfg.senderIo).Within cfg.area := by
  rw [h.own_span hb]
  refine h.inside _ (List.mem_append_left _ (List.mem_append_left _ ?_))
  exact List.mem_map.mpr ⟨b, hb, rfl⟩

theorem Laid.outs_within (h : Laid cfg own outs pend) (hb : b ∈ outs) :
    (b.span cfg.receiverIo).Within cfg.area := by
  rw [h.outs_span hb]
  refine h.inside _ (List.mem_append_left _ (List.mem_append_right _ ?_))
  exact List.mem_map.mpr ⟨b, hb, rfl⟩

theorem Laid.own_apart (h : Laid cfg own outs pend) :
    own.Pairwise fun a b =>
      (a.span cfg.senderIo).Disjoint (b.span cfg.senderIo) := by
  have happ := (List.pairwise_append.mp (List.pairwise_append.mp h.apart).1).1
  refine (List.pairwise_map.mp happ).imp_of_mem fun ha hb hab => ?_
  rw [h.own_span ha, h.own_span hb]
  exact hab

theorem Laid.outs_apart (h : Laid cfg own outs pend) :
    outs.Pairwise fun a b =>
      (a.span cfg.receiverIo).Disjoint (b.span cfg.receiverIo) := by
  have happ := (List.pairwise_append.mp
    (List.pairwise_append.mp h.apart).1).2.1
  refine (List.pairwise_map.mp happ).imp_of_mem fun ha hb hab => ?_
  rw [h.outs_span ha, h.outs_span hb]
  exact hab

theorem Laid.own_outs (h : Laid cfg own outs pend) {a : VqBuffer}
    (ha : a ∈ own) (hb : b ∈ outs) :
    (a.span cfg.senderIo).Disjoint (b.span cfg.receiverIo) := by
  have happ := (List.pairwise_append.mp
    (List.pairwise_append.mp h.apart).1).2.2
  rw [h.own_span ha, h.outs_span hb]
  exact happ _ (List.mem_map.mpr ⟨a, ha, rfl⟩) _
    (List.mem_map.mpr ⟨b, hb, rfl⟩)

/-- **The sender writes in its own buffers.** -/
theorem Laid.writeOwn (h : Laid cfg own outs pend)
    (hw : WritesIn cfg.senderIo own shm shm') :
    (∀ b ∈ outs, Agree shm shm' (b.span cfg.receiverIo).start
      (b.span cfg.receiverIo).len) ∧ Touches cfg.area shm shm' :=
  ⟨fun _ hb => hw _ fun _ ha => h.own_outs ha hb,
    hw.touches fun _ hb => h.own_within hb⟩

/-- **The receiver writes in its own buffers.** -/
theorem Laid.writeOuts (h : Laid cfg own outs pend)
    (hw : WritesIn cfg.receiverIo outs shm shm') :
    (∀ b ∈ own, Agree shm shm' (b.span cfg.senderIo).start
      (b.span cfg.senderIo).len) ∧ Touches cfg.area shm shm' :=
  ⟨fun _ ha => hw _ fun _ hb => (h.own_outs ha hb).symm,
    hw.touches fun _ hb => h.outs_within hb⟩

end Laid

/-- The sender's buffers lie as the list threaded through them needs. -/
theorem AppLaneConfig.placed (cfg : AppLaneConfig) {l : LaneEnds}
    {own outs : List VqBuffer} {pend : List Nat}
    (h : LaneQueue cfg.toLaneConfig l own outs pend) {m : TxMem}
    (hio : m.io = cfg.senderIo) (hr : m.reclaimer = cfg.reclaimer) :
    Placed m own := by
  have hlaid := h.laid
  have hroom := cfg.room
  refine ⟨hio ▸ hlaid.own_apart, fun b hb => ?_, fun b hb heq => ?_⟩
  · rw [(hlaid.ownAt b hb).1]
    exact hroom
  · -- the list head is not in the pool, and the buffer is
    have hin := hlaid.own_within hb
    have harea := h.area_within
    have hout := cfg.outside
    simp only [LaneConfig.Outside, ← hr, ← heq] at hout
    rw [hlaid.own_span hb] at hin
    simp only [Span.Within, RECLAIMER_SIZE] at hin harea hroom
    omega

/-! ## The invariant -/

/-- **The invariant of a lane** with `recl` on the sender's list and the
messages at `pend` under way. -/
structure AppInv (cfg : AppLaneConfig) (shm : Mem) (l : AppLane)
    (recl : List VqBuffer) (pend : List Nat) : Prop where
  queue : LaneQueue cfg.toLaneConfig l.toLaneEnds
    (recl ++ l.held.map (·.buf)) (outsOf l.rx) pend
  tx : TxHands (l.sender cfg.toLaneConfig shm).mem recl l.held
  rx : RxHands cfg.receiverIo shm l.rx

variable {cfg : AppLaneConfig} {shm shm' : Mem} {l : AppLane}
  {recl : List VqBuffer} {pend : List Nat} {b : VqBuffer}

/-- **What is written elsewhere does not matter to a lane.** -/
theorem AppInv.frame (h : AppInv cfg shm l recl pend) {s : Span}
    (ht : Touches s shm shm') (hd : s.Disjoint cfg.area) :
    AppInv cfg shm' l recl pend := by
  have hlaid := h.queue.laid
  refine ⟨h.queue, h.tx.congr rfl rfl rfl rfl fun b hb => ?_,
    h.rx.congr fun b hb => ?_⟩
  · have hin := hlaid.own_within hb
    exact (ht.agree hd).mono hin.1 hin.2
  · have hin := hlaid.outs_within hb
    exact (ht.agree hd).mono hin.1 hin.2

/-- Neither side's buffers are in an order. -/
theorem AppInv.perm (h : AppInv cfg shm l recl pend) {held : List TxHeld}
    {rx : List Received} (hh : l.held.Perm held) (hr : l.rx.Perm rx) :
    AppInv cfg shm { l with held := held, rx := rx } recl pend :=
  ⟨h.queue.perm ((hh.map _).append_left _) (outsOf_perm hr), h.tx.perm hh,
    h.rx.perm hr⟩

/-! ## The sender -/

/-- The memory a sender has been left with is the one its lane shows. -/
theorem TxHands.shown {cfg : LaneConfig} {m : TxMem} {recl : List VqBuffer}
    {held : List TxHeld} (h : TxHands m recl held)
    (hio : m.io = cfg.senderIo) (hr : m.reclaimer = cfg.reclaimer) :
    TxHands ⟨cfg.senderIo, m.shm, cfg.reclaimer, m.first, m.last⟩ recl
      held := by
  rw [← hio, ← hr]
  exact h

/-- The sender changes its hands and the bytes of its buffers. -/
theorem AppInv.writeTx (h : AppInv cfg shm l recl pend) {held : List TxHeld}
    (hands : TxHands (l.sender cfg.toLaneConfig shm').mem recl held)
    (hown : held.map (·.buf) = l.held.map (·.buf))
    (hw : WritesIn cfg.senderIo (recl ++ l.held.map (·.buf)) shm shm') :
    AppInv cfg shm' { l with held := held } recl pend ∧
      Touches cfg.area shm shm' := by
  obtain ⟨hag, ht⟩ := h.queue.laid.writeOwn hw
  exact ⟨⟨hown ▸ h.queue, hands, h.rx.congr hag⟩, ht⟩

/-- A buffer on the sender's list comes first. -/
theorem AppInv.get_reclaimed (h : AppInv cfg shm l (b :: recl) pend) :
    rpmsgVirtioGetTxBuffer (l.sender cfg.toLaneConfig shm) = some (some b,
      { l.sender cfg.toLaneConfig shm with
        mem := (l.sender cfg.toLaneConfig shm).mem.listDel b.data }) := by
  obtain ⟨hfirst, hidx, -⟩ := h.tx.reuse
  have hlen := h.queue.own_length shm (b := b) (by simp)
  have hb := (h.queue.laid.ownAt b (by simp)).1
  rw [← hb] at hlen
  have hsize : (l.sender cfg.toLaneConfig shm).h2rBufSize = b.len := hb.symm
  have hring : (l.sender cfg.toLaneConfig shm).ring = l.ring := rfl
  cases hr : (l.sender cfg.toLaneConfig shm).role <;>
    simp only [hr] at hlen <;>
    simp only [rpmsgVirtioGetTxBuffer, hfirst, hidx, hr, hsize, hring, hlen]

/-- **The sender gets a buffer**, off its list or from the queue. -/
theorem AppInv.get (h : AppInv cfg shm l recl pend) {r : Option VqBuffer}
    {rvdev : TxDevice}
    (hget : rpmsgVirtioGetTxBuffer (l.sender cfg.toLaneConfig shm) =
      some (r, rvdev))
    (hbound : cfg.role = .driver → l.held.length + r.toList.length +
      rvdev.svq.cookies.length ≤ cfg.vq.num) :
    (∃ recl', AppInv cfg rvdev.mem.shm { l with
      toLaneEnds := l.toLaneEnds.withSender rvdev
      held := l.held ++ r.toList.map fun b => ⟨b, .fetched⟩ } recl' pend) ∧
      Touches cfg.area shm rvdev.mem.shm := by
  cases recl with
  | cons b recl =>
    rw [h.get_reclaimed] at hget
    cases hget
    obtain ⟨-, -, hio, hr, hnew, hw⟩ := h.tx.reuse
    have hw' : WritesIn cfg.senderIo (b :: recl ++ l.held.map (·.buf)) shm
        ((l.sender cfg.toLaneConfig shm).mem.listDel b.data).shm :=
      hw.mono fun x hx => List.mem_append_left _ hx
    obtain ⟨hag, ht⟩ := h.queue.laid.writeOwn hw'
    refine ⟨⟨recl, (h.queue.perm ?_ (.refl _)).withList _ _, ?_,
      h.rx.congr hag⟩, ht⟩
    · simp only [Option.toList_some, List.map_append, List.map_cons,
        List.map_nil, List.cons_append]
      rw [← List.append_assoc]
      exact (List.perm_append_singleton _ _).symm
    · exact hnew.shown hio hr
  | nil =>
    have hlist := h.tx.listed.listFirst_nil
    obtain ⟨r', rvdev', heq, hmem, hq⟩ := h.queue.get shm hlist fun hd =>
      h.queue.capacity hlist hget (by simpa using hbound hd.role) hd
    rw [heq] at hget
    cases hget
    have hshm : rvdev.mem.shm = shm := congrArg TxMem.shm hmem
    refine ⟨⟨[], ?_, ?_, hshm ▸ h.rx⟩, fun _ _ => by rw [hshm]⟩
    · refine hq.perm ?_ (.refl _)
      simp only [List.nil_append, List.map_append, List.map_map]
      cases r with
      | none => simp
      | some b => exact (List.perm_append_singleton _ _).symm
    · refine TxHands.shown ?_ (by rw [hmem]; rfl) (by rw [hmem]; rfl)
      rw [hmem]
      cases r with
      | none => simpa using h.tx
      | some b => exact h.tx.fetch (cfg.placed hq rfl rfl)

/-- **The sender enqueues a buffer.** -/
theorem AppInv.enqueue (h : AppInv cfg shm l recl pend) {l₁ l₂ : List TxHeld}
    (hheld : l.held = l₁ ++ ⟨b, .sealed⟩ :: l₂) {status : Int}
    {notified : Bool} {rvdev : TxDevice}
    (henq : enqueueTxBuffer (l.sender cfg.toLaneConfig shm) b.data b.idx =
      (status, notified, rvdev)) :
    AppInv cfg rvdev.mem.shm { l with
      toLaneEnds := l.toLaneEnds.withSender rvdev
      held := l₁ ++ l₂ } recl (pend ++ [shmOff cfg.senderIo b.data]) ∧
      Touches cfg.area shm rvdev.mem.shm := by
  have htx := h.tx
  rw [hheld] at htx
  have hown : LaneQueue cfg.toLaneConfig l.toLaneEnds
      (b :: (recl ++ (l₁ ++ l₂).map (·.buf))) (outsOf l.rx) pend :=
    h.queue.perm (hheld ▸ held_split recl l₁ l₂ _) (.refl _)
  obtain ⟨notified', rvdev', heq, hmem, hq⟩ := hown.enqueue shm
  rw [heq] at henq
  cases henq
  have hshm : rvdev.mem.shm = shm := congrArg TxMem.shm hmem
  refine ⟨⟨hq, ?_, hshm ▸ h.rx⟩, fun _ _ => by rw [hshm]⟩
  refine TxHands.shown ?_ (by rw [hmem]; rfl) (by rw [hmem]; rfl)
  rw [hmem]
  exact htx.drop

/-- **The sender writes the header.** -/
theorem AppInv.header (h : AppInv cfg shm l recl pend) (src dst : UInt32)
    (len : Int32) {l₁ l₂ : List TxHeld}
    (hheld : l.held = l₁ ++ ⟨b, .noted⟩ :: l₂) :
    AppInv cfg (initTxHdr cfg.senderIo shm src dst b.data len).2 { l with
      held := l₁ ++ ⟨{ b with
        idx := (initTxHdr cfg.senderIo shm src dst b.data len).1 },
        .sealed⟩ :: l₂ } recl pend ∧
      Touches cfg.area shm
        (initTxHdr cfg.senderIo shm src dst b.data len).2 := by
  have htx := h.tx
  rw [hheld] at htx
  have hidx : (initTxHdr cfg.senderIo shm src dst b.data len).1 = b.idx :=
    htx.header_idx src dst len
  refine h.writeTx (htx.header src dst len) ?_
    ((writesIn_initTxHdr htx.room src dst len).mono fun y hy => ?_)
  · simp [hheld, hidx]
  · rw [List.mem_singleton.mp hy, hheld]
    simp

/-- **The sender releases a buffer** to its list. -/
theorem AppInv.release (h : AppInv cfg shm l recl pend) {l₁ l₂ : List TxHeld}
    (hheld : l.held = l₁ ++ ⟨b, .noted⟩ :: l₂) :
    let mem := rpmsgVirtioReleaseTxBuffer
      (l.sender cfg.toLaneConfig shm).mem b.data
    AppInv cfg mem.shm { l with
      toLaneEnds := { l.toLaneEnds with first := mem.first, last := mem.last }
      held := l₁ ++ l₂ } (recl ++ [b]) pend ∧
      Touches cfg.area shm mem.shm := by
  intro mem
  have htx := h.tx
  rw [hheld] at htx
  obtain ⟨hio, hr, hnew, hw⟩ := htx.release
  have hsub : b :: recl ⊆ recl ++ l.held.map (·.buf) := by
    intro x hx
    rcases List.mem_cons.mp hx with rfl | hx
    · simp [hheld]
    · exact List.mem_append_left _ hx
  obtain ⟨hag, ht⟩ := h.queue.laid.writeOwn (hw.mono hsub)
  refine ⟨⟨(h.queue.perm ?_ (.refl _)).withList _ _, ?_, h.rx.congr hag⟩, ht⟩
  · rw [hheld, List.append_assoc]
    refine List.Perm.append_left _ ?_
    rw [List.map_append, List.map_cons, List.map_append]
    exact List.perm_middle
  · exact hnew.shown hio hr

/-! ## The receiver -/

/-- The receiver changes its hands and the bytes of its buffers. -/
theorem AppInv.writeRx (h : AppInv cfg shm l recl pend) {rx : List Received}
    (hands : RxHands cfg.receiverIo shm' rx)
    (hp : (outsOf l.rx).Perm (outsOf rx))
    (hw : WritesIn cfg.receiverIo (outsOf l.rx) shm shm') :
    AppInv cfg shm' { l with rx := rx } recl pend ∧
      Touches cfg.area shm shm' := by
  obtain ⟨hag, ht⟩ := h.queue.laid.writeOuts hw
  exact ⟨⟨h.queue.perm (.refl _) hp, h.tx.congr rfl rfl rfl rfl hag, hands⟩,
    ht⟩

/-- **The receiver takes a message**, if there is one. -/
theorem AppInv.take (h : AppInv cfg shm l recl pend) {r : Option VqBuffer}
    {rvdev : RxDevice}
    (htake : rxTakeBuffer (l.receiver cfg.toLaneConfig shm) =
      some (r, rvdev)) :
    (∃ pend', AppInv cfg rvdev.shm { l with
      toLaneEnds := l.toLaneEnds.withReceiver rvdev
      rx := l.rx ++ r.toList.map fun b => ⟨b, .calling, 0, 0, 0⟩ } recl pend' ∧
      pend = r.toList.map (fun b => shmOff cfg.receiverIo b.data) ++ pend') ∧
      Touches cfg.area shm rvdev.shm := by
  rcases h.queue.take shm with ⟨-, hget⟩ | ⟨b, rvdev', rest, hpend, hget, hio,
    hshm, hq⟩
  · rw [rxTakeBuffer_eq hget] at htake
    cases htake
    refine ⟨⟨pend, ?_, rfl⟩, fun _ _ => rfl⟩
    simp only [Option.toList_none, List.map_nil, List.append_nil]
    exact h
  · rw [rxTakeBuffer_eq hget, hio, hshm] at htake
    cases htake
    have hlaid := hq.laid
    have hroom : RPMSG_HDR_SIZE ≤ b.len.toNat := by
      rw [(hlaid.outsAt b (by simp)).1]
      exact Nat.le_trans (by decide) cfg.room
    obtain ⟨hw, hnew⟩ :=
      h.rx.take (List.pairwise_cons.mp hlaid.outs_apart).1 hroom
    have hw' : WritesIn cfg.receiverIo (b :: outsOf l.rx) shm
        (noteTxBuffer cfg.receiverIo shm b) := hw.mono (by simp)
    obtain ⟨hag, ht⟩ := hlaid.writeOuts hw'
    refine ⟨⟨rest, ⟨hq.perm (.refl _) ?_, h.tx.congr rfl rfl rfl rfl hag, hnew⟩,
      hpend⟩, ht⟩
    rw [outsOf_append]
    exact (List.perm_append_singleton _ _).symm

/-- **One hold of a received buffer is given up**; the last one sends the
buffer back. -/
theorem AppInv.giveUp (h : AppInv cfg shm l recl pend)
    {l₁ l₂ : List Received} {r : Received} (r' : Received)
    (hrx : l.rx = l₁ ++ r :: l₂) (hbuf : r'.buf = r.buf)
    (hle : r'.releases ≤ r'.holds) (hfew : r'.holds < 65535)
    (hcount : r.count = r'.count + 1) {st : Option Int} {rvdev : RxDevice}
    (hrel : rpmsgVirtioReleaseRxBuffer (l.receiver cfg.toLaneConfig shm)
      r.buf.data = (st, rvdev)) :
    AppInv cfg rvdev.shm { l with
      toLaneEnds := l.toLaneEnds.withReceiver rvdev
      rx := l₁ ++ { r' with putBacks := r.putBacks + st.toList.length } :: l₂ }
        recl pend ∧ Touches cfg.area shm rvdev.shm := by
  have hands : RxHands (l.receiver cfg.toLaneConfig shm).io
      (l.receiver cfg.toLaneConfig shm).shm (l₁ ++ r :: l₂) := hrx ▸ h.rx
  obtain ⟨h0, shm₁, hw, hcases⟩ := hands.giveUp hbuf hle hfew hcount
  have hw' : WritesIn cfg.receiverIo (outsOf l.rx) shm shm₁ :=
    hw.mono fun x hx => by
      rw [List.mem_singleton.mp hx]
      exact mem_outsOf (by simp [hrx]) h0
  rcases hcases with ⟨heq, hstay⟩ | ⟨hlast, hback⟩
  · rw [heq] at hrel
    cases hrel
    refine h.writeRx hstay ?_ hw'
    rw [hrx]
    exact outsOf_same h0 h0 hbuf
  · -- the buffer leaves our hands with its header written
    obtain ⟨hag, ht⟩ := h.queue.laid.writeOuts hw'
    obtain ⟨rvdev₁, hret, hshm, hq⟩ :=
      (h.queue.perm (.refl _) (hrx ▸ outsOf_out l₁ l₂ h0)).giveBack shm₁
    rw [hlast _ _ hret] at hrel
    cases hrel
    simp only [hshm]
    refine ⟨⟨hq.perm (.refl _) ?_, h.tx.congr rfl rfl rfl rfl hag, hback⟩, ht⟩
    have hgone : r.putBacks + 1 ≠ 0 := Nat.succ_ne_zero _
    exact .of_eq (outsOf_back hgone).symm

/-! ## Every step -/

theorem AppInv.send (h : AppInv cfg shm l recl pend) {a : TxAct} {t : TxSystem}
    (hst : TxStep cfg.tx (l.txSystem cfg.toLaneConfig shm) a t)
    (ha : a ≠ .peer)
    (hbound : cfg.role = .driver → (l.withTx t).outstanding ≤ cfg.vq.num) :
    (∃ recl' new, AppInv cfg t.us.mem.shm (l.withTx t) recl' (pend ++ new)) ∧
      Touches cfg.area shm t.us.mem.shm := by
  have hmem : ∀ {l₁ l₂ : List TxHeld} {x : TxHeld}, l.held = l₁ ++ x :: l₂ →
      [x.buf] ⊆ recl ++ l.held.map (·.buf) := by
    intro l₁ l₂ x hheld y hy
    rw [List.mem_singleton.mp hy, hheld]
    simp
  have hsame : ∀ {shm' l' recl'}, AppInv cfg shm' l' recl' pend →
      ∃ recl' new, AppInv cfg shm' l' recl' (pend ++ new) :=
    fun hinv => ⟨_, [], by rw [List.append_nil]; exact hinv⟩
  cases hst with
  | get hget =>
    obtain ⟨⟨recl', hinv⟩, ht⟩ := h.get hget fun hr => by
      simpa [AppLane.outstanding, AppLane.withTx, AppLane.txSystem,
        LaneEnds.withSender] using hbound hr
    exact ⟨hsame hinv, ht⟩
  | @note l₁ l₂ b hheld =>
    have hheld : l.held = l₁ ++ ⟨b, .fetched⟩ :: l₂ := hheld
    have htx := h.tx
    rw [hheld] at htx
    obtain ⟨hinv, ht⟩ := h.writeTx htx.note (by simp [hheld])
      ((writesIn_noteTxBuffer htx.room).mono (hmem hheld))
    exact ⟨hsame hinv, ht⟩
  | write hheld hpay =>
    obtain ⟨l₁, l₂, hsplit⟩ := List.append_of_mem hheld
    obtain ⟨hinv, ht⟩ := h.writeTx (h.tx.write hheld hpay) rfl
      ((writesIn_payload hpay).mono (hmem hsplit))
    exact ⟨hsame hinv, ht⟩
  | header src dst len hheld heq =>
    obtain ⟨hinv, ht⟩ := h.header src dst len hheld
    have heq : initTxHdr cfg.senderIo shm src dst _ len = _ := heq
    rw [heq] at hinv ht
    exact ⟨hsame hinv, ht⟩
  | enqueue hheld henq =>
    obtain ⟨hinv, ht⟩ := h.enqueue hheld henq
    exact ⟨⟨recl, _, hinv⟩, ht⟩
  | release hheld =>
    obtain ⟨hinv, ht⟩ := h.release hheld
    exact ⟨hsame hinv, ht⟩
  | _ => exact absurd rfl ha

/-- The buffers of the receptions that are new in `rx`. -/
def AppLane.added (l : AppLane) (rx : List Received) : List VqBuffer :=
  (rx.drop l.rx.length).map (·.buf)

theorem AppInv.receive (h : AppInv cfg shm l recl pend) {a : RxAct}
    {t : RxSystem} (hst : RxStep cfg.rx (l.rxSystem cfg.toLaneConfig shm) a t)
    (ha : a ≠ .peer) :
    (∃ pend', AppInv cfg t.us.shm (l.withRx t) recl pend' ∧
      pend = (l.added t.rx).map (fun b => shmOff cfg.receiverIo b.data) ++
        pend') ∧ Touches cfg.area shm t.us.shm := by
  have hmem : ∀ {r : Received}, r ∈ l.rx → r.putBacks = 0 →
      [r.buf] ⊆ outsOf l.rx := by
    intro r hr h0 x hx
    rw [List.mem_singleton.mp hx]
    exact mem_outsOf hr h0
  have hnone : ∀ {rx : List Received}, rx.length = l.rx.length →
      pend = (l.added rx).map (fun b => shmOff cfg.receiverIo b.data) ++
        pend := by
    intro rx hlen
    simp [AppLane.added, List.drop_of_length_le (Nat.le_of_eq hlen)]
  cases hst with
  | @take b us htake =>
    obtain ⟨⟨pend', hinv, hpend⟩, ht⟩ := h.take htake
    refine ⟨⟨pend', hinv, ?_⟩, ht⟩
    simpa [AppLane.added, AppLane.rxSystem, Function.comp_def] using hpend
  | @hold l₁ l₂ r hrx hphase hfew =>
    have hrx : l.rx = l₁ ++ r :: l₂ := hrx
    have hin : r ∈ l.rx := by simp [hrx]
    have h0 := (h.rx.books r hin).out (by simp [Received.count, hphase])
    have hands : RxHands (l.receiver cfg.toLaneConfig shm).io
        (l.receiver cfg.toLaneConfig shm).shm (l₁ ++ r :: l₂) := hrx ▸ h.rx
    obtain ⟨hw, hnew⟩ := hands.hold hphase hfew
    obtain ⟨hinv, ht⟩ := h.writeRx hnew (hrx ▸ outsOf_same h0 h0 rfl)
      (hw.mono (hmem hin h0))
    exact ⟨⟨pend, hinv, hnone (by simp [hrx])⟩, ht⟩
  | @release l₁ l₂ r st us hrx hheld hrel =>
    have hrx : l.rx = l₁ ++ r :: l₂ := hrx
    have hok := h.rx.books r (by simp [hrx])
    obtain ⟨hinv, ht⟩ := h.giveUp { r with releases := r.releases + 1 } hrx rfl
      hheld hok.few (by simp only [Received.count]; omega) hrel
    exact ⟨⟨pend, hinv, hnone (by simp [hrx])⟩, ht⟩
  | @ret l₁ l₂ r hrx hphase =>
    have hrx : l.rx = l₁ ++ r :: l₂ := hrx
    have hin : r ∈ l.rx := by simp [hrx]
    have h0 := (h.rx.books r hin).out (by simp [Received.count, hphase])
    have hands := h.rx
    rw [hrx] at hands
    obtain ⟨hinv, ht⟩ := h.writeRx (hands.ret hphase)
      (hrx ▸ outsOf_same h0 h0 rfl) (writesIn_refl _ _ _)
    exact ⟨⟨pend, hinv, hnone (by simp [hrx])⟩, ht⟩
  | @finish l₁ l₂ r st us hrx hphase hrel =>
    have hrx : l.rx = l₁ ++ r :: l₂ := hrx
    have hok := h.rx.books r (by simp [hrx])
    obtain ⟨hinv, ht⟩ := h.giveUp { r with phase := .finished } hrx rfl hok.le
      hok.few (by simp [Received.count, hphase]; omega) hrel
    exact ⟨⟨pend, hinv, hnone (by simp [hrx])⟩, ht⟩
  | write hr huse hpay =>
    obtain ⟨h0, hw, hnew⟩ := h.rx.write hr huse hpay
    obtain ⟨hinv, ht⟩ := h.writeRx hnew (.refl _) (hw.mono (hmem hr h0))
    exact ⟨⟨pend, hinv, hnone rfl⟩, ht⟩
  | _ => exact absurd rfl ha

end OpenAmp.Rpmsg
