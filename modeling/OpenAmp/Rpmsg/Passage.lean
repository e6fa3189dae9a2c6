import OpenAmp.Rpmsg.Beside
import OpenAmp.Rpmsg.BufferSize
import OpenAmp.Rpmsg.Length

/-!
# One send among many

A send of `rpmsg_send_offchannel_raw` on a lane whose ends are used by any
number of other threads, for sends of their own and for everything else
an application may do with its buffers. The state of the lane is kept
without the buffer of this send, so that the steps of the others are the
steps of the lane: nobody has to be told which buffer is not his.

The message is followed from the buffer it is copied to, over the queue,
into the round of `rpmsg_virtio_rx_callback` that calls the endpoint with
it.
-/

namespace OpenAmp.Rpmsg

open OpenAmp.Lib OpenAmp.Metal OpenAmp.Virtio

/-! ## The way of a message -/

/-- How far a send has come: at the wait for a buffer, refused, in one of
the stretches between two critical sections; then, with the value returned,
its message in the buffer at an offset on the queue, taken by the receiver
for an endpoint, handed to that endpoint. -/
inductive Passage where
  | waiting
  | refused (status : Int32)
  | fetched (b : VqBuffer)
  | noted (b : VqBuffer)
  | copied (b : VqBuffer) (n : Int32)
  | sealed (b : VqBuffer) (n : Int32)
  | queued (o : Nat) (n : Int32)
  | received (r : Round) (n : Int32)
  | delivered (r : Round) (n : Int32)

namespace Passage

/-- The sending thread, as the only one of a lane. -/
def thread (call : SendCall) : Passage → SendState
  | .fetched b => .fetched b call
  | .noted b => .noted b call
  | .copied b n => .copied b call n
  | .sealed b n => .sealed b call n
  | _ => .idle

/-- The buffer of the sending thread, among those of the sender. -/
def held : Passage → List TxHeld
  | .fetched b => [⟨b, .fetched⟩]
  | .noted b | .copied b _ => [⟨b, .noted⟩]
  | .sealed b _ => [⟨b, .sealed⟩]
  | _ => []

/-- The buffer the receiver has taken, among its receptions. -/
def rx : Passage → List Received
  | .received r _ => [⟨r.buf, .calling, 0, 0, 0⟩]
  | _ => []

/-- Where on the queue the message is. -/
def queuedAt : Passage → Option Nat
  | .queued o _ => some o
  | _ => none

/-- The message has been put on the queue. -/
def sent : Passage → Bool
  | .queued _ _ | .received _ _ | .delivered _ _ => true
  | _ => false

/-- The value `rpmsg_virtio_send_offchannel_raw` returns, from the moment
it is fixed. -/
def sentLen : Passage → Option Int32
  | .copied _ n | .sealed _ n | .queued _ n | .received _ n | .delivered _ n =>
    some n
  | _ => none

/-- The lane with the buffer of this send put back. -/
def full (p : Passage) (l : AppLane) : AppLane :=
  { l with held := p.held ++ l.held, rx := p.rx ++ l.rx }

/-- The offset of the buffer the message is in or will be in, until the
endpoint has it. -/
def place (cfg : LaneConfig) : Passage → Option Nat
  | .fetched b | .noted b | .copied b _ | .sealed b _ =>
    some (shmOff cfg.senderIo b.data)
  | .queued o _ => some o
  | .received r _ => some (shmOff cfg.receiverIo r.buf.data)
  | _ => none

end Passage

/-- One step of the send `call`, of the receiver on its message, or of
anybody else. -/
inductive PassageStep (cfg : AppLaneConfig) (call : SendCall) :
    Mem → AppLane → Passage → Mem → AppLane → Passage → Prop where
  | other {shm shm' : Mem} {l l' : AppLane} {p : Passage}
      (h : AppLaneStep cfg shm l shm' l')
      (hours : ∀ b ∈ l.added l'.rx,
        p.queuedAt ≠ some (shmOff cfg.receiverIo b.data)) :
      PassageStep cfg call shm l p shm' l' p
  | get {shm : Mem} {l : AppLane} {b : Option VqBuffer} {rvdev : TxDevice}
      (h : rpmsgVirtioGetTxBuffer (l.sender cfg.toLaneConfig shm) =
        some (b, rvdev)) :
      PassageStep cfg call shm l .waiting rvdev.mem.shm
        { l with toLaneEnds := l.toLaneEnds.withSender rvdev }
        (b.elim .waiting .fetched)
  | giveUp {shm : Mem} {l : AppLane} :
      -- the device is not ready, or the wait is over
      PassageStep cfg call shm l .waiting shm l
        (.refused (Int32.ofInt RPMSG_ERR_NO_BUFF))
  | note {shm : Mem} {l : AppLane} {b : VqBuffer} :
      PassageStep cfg call shm l (.fetched b)
        (noteTxBuffer cfg.senderIo shm b) l (.noted b)
  | copy {shm shm' : Mem} {l : AppLane} {b : VqBuffer} {n : Int32}
      {status : Int}
      (h : writeTxPayload cfg.senderIo shm b.data
        (b.len - UInt32.ofNat RPMSG_HDR_SIZE) call.data
        (Int32.ofNat call.data.length) = (n, status, shm')) :
      PassageStep cfg call shm l (.noted b) shm' l (.copied b n)
  | header {shm shm' : Mem} {l : AppLane} {b : VqBuffer} {n : Int32}
      {idx : UInt16}
      (h : initTxHdr cfg.senderIo shm call.src call.dst b.data n =
        (idx, shm')) :
      PassageStep cfg call shm l (.copied b n) shm' l
        (.sealed { b with idx := idx } n)
  | enqueue {shm : Mem} {l : AppLane} {b : VqBuffer} {n : Int32} {status : Int}
      {notified : Bool} {rvdev : TxDevice}
      (h : enqueueTxBuffer (l.sender cfg.toLaneConfig shm) b.data b.idx =
        (status, notified, rvdev)) :
      PassageStep cfg call shm l (.sealed b n) rvdev.mem.shm
        { l with toLaneEnds := l.toLaneEnds.withSender rvdev }
        (.queued (shmOff cfg.senderIo b.data) n)
  | take {shm : Mem} {l : AppLane} {b : VqBuffer} {n : Int32}
      {rvdev : RxDevice} (rdev : RpmsgDevice)
      (h : rxTakeBuffer (l.receiver cfg.toLaneConfig shm) =
        some (some b, rvdev)) :
      PassageStep cfg call shm l (.queued (shmOff cfg.receiverIo b.data) n)
        rvdev.shm { l with toLaneEnds := l.toLaneEnds.withReceiver rvdev }
        (.received ⟨b, rdev, rpmsgGetEptFromAddr rdev
          (readHdr cfg.receiverIo rvdev.shm b.data).dst, .found, [], none⟩ n)
  | call {shm : Mem} {l : AppLane} {r : Round} {n : Int32} :
      PassageStep cfg call shm l (.received r n) shm
        { l with rx := l.rx ++ [⟨r.buf, .calling, 0, 0, 0⟩] }
        (.delivered { r with
          phase := .called
          calls := r.calls ++
            r.ept.toList.map (eptCall cfg.receiverIo shm r.buf) } n)

/-! ## The message on its way -/

/-- The message of a send is where the send says it is. -/
def Passage.Carries (cfg : LaneConfig) (call : SendCall) (shm : Mem) :
    Passage → Prop
  | .queued o n => Sent.Ok cfg ⟨call, n⟩ ∧
      MsgAt shm o (Sent.message ⟨call, n⟩)
  | .received r n => Sent.Ok cfg ⟨call, n⟩ ∧ r.phase = .found ∧
      r.Conveys ⟨call, n⟩ ∧
      MsgAt shm (shmOff cfg.receiverIo r.buf.data) (Sent.message ⟨call, n⟩)
  | .delivered r n => Sent.Ok cfg ⟨call, n⟩ ∧ r.phase = .called ∧
      r.Conveys ⟨call, n⟩
  | p => (p.thread call).Ok cfg shm

/-- **A send among others is in order**: its message is on the queue, of
the length that fits, and on a lane with room for one it is carried. -/
structure Passage.Ok (cfg : LaneConfig) (call : SendCall) (shm : Mem)
    (pend : List Nat) (p : Passage) : Prop where
  queued : ∀ o ∈ p.queuedAt, o ∈ pend
  length : ∀ n ∈ p.sentLen, n = sendLen (Int32.ofNat call.data.length)
    (cfg.bufSize - UInt32.ofNat RPMSG_HDR_SIZE)
  status : ∀ st, p = .refused st → st < 0
  carries : cfg.Sized → p.Carries cfg call shm

section Passage

variable {cfg : AppLaneConfig} {call : SendCall} {shm shm' : Mem}
  {l l' : AppLane} {p p' : Passage} {recl : List VqBuffer} {pend : List Nat}
  {o : Nat}

/-- What is carried depends on the bytes of its buffer only. -/
theorem Passage.Carries.frame {cfg : LaneConfig} (h : p.Carries cfg call shm)
    (hag : ∀ o ∈ p.place cfg, Agree shm shm' o cfg.bufSize.toNat) :
    p.Carries cfg call shm' := by
  have hown : ∀ {b : VqBuffer} {t : SendState}, t.Ok cfg shm → t.bufs = [b] →
      p.place cfg = some (shmOff cfg.senderIo b.data) → t.Ok cfg shm' := by
    intro b t ht hb hp
    refine ht.frame fun b' hb' => hag _ ?_
    rw [hb] at hb'
    rw [List.mem_singleton.mp hb', hp]
    rfl
  cases p with
  | waiting => trivial
  | refused status => trivial
  | fetched b => exact h
  | noted b => exact hown (t := .noted b call) h rfl rfl
  | copied b n => exact hown (t := .copied b call n) h rfl rfl
  | sealed b n => exact hown (t := .sealed b call n) h rfl rfl
  | queued o n => exact ⟨h.1, h.2.frame h.1 (hag o rfl)⟩
  | received r n =>
    obtain ⟨hm, hphase, hconv, hmsg⟩ := h
    exact ⟨hm, hphase, hconv, hmsg.frame hm (hag _ rfl)⟩
  | delivered r n => exact h

/-- **The buffer of a send is one of the lane's**, beside those of
everybody else and those of the other messages on the queue. -/
theorem Passage.offsets_perm {cfg : LaneConfig}
    (hq : ∀ o ∈ p.queuedAt, o ∈ pend) (ho : o ∈ p.place cfg) :
    ∃ pend', (∀ o' ∈ pend, p.queuedAt ≠ some o' → o' ∈ pend') ∧
      (cfg.offsets (recl ++ (p.full l).held.map (·.buf))
        (outsOf (p.full l).rx) pend).Perm
        (o :: cfg.offsets (recl ++ l.held.map (·.buf)) (outsOf l.rx)
          pend') := by
  -- a buffer of the sending thread is one more of the sender's
  have hown : ∀ {x : TxHeld}, p.held = [x] → p.rx = [] →
      o = shmOff cfg.senderIo x.buf.data →
      (cfg.offsets (recl ++ (p.full l).held.map (·.buf))
        (outsOf (p.full l).rx) pend).Perm
        (o :: cfg.offsets (recl ++ l.held.map (·.buf)) (outsOf l.rx)
          pend) := by
    intro x hheld hrx hox
    simp only [full, hheld, hrx, List.nil_append, List.singleton_append,
      LaneConfig.offsets, hox, ← List.cons_append]
    exact (((held_split recl [] l.held x).map _).append_right _).append_right _
  cases p with
  | waiting => cases ho
  | refused status => cases ho
  | fetched b =>
    cases ho
    exact ⟨pend, fun _ h _ => h, hown rfl rfl rfl⟩
  | noted b =>
    cases ho
    exact ⟨pend, fun _ h _ => h, hown rfl rfl rfl⟩
  | copied b n =>
    cases ho
    exact ⟨pend, fun _ h _ => h, hown rfl rfl rfl⟩
  | sealed b n =>
    cases ho
    exact ⟨pend, fun _ h _ => h, hown rfl rfl rfl⟩
  | queued o n =>
    cases ho
    obtain ⟨l₁, l₂, rfl⟩ := List.append_of_mem (hq o rfl)
    refine ⟨l₁ ++ l₂, fun o' ho' hne => ?_, ?_⟩
    · have hne : o' ≠ o := fun heq => hne (by rw [heq]; rfl)
      simpa [hne] using ho'
    · simp only [LaneConfig.offsets, ← List.append_assoc]
      exact List.perm_middle
  | received r n =>
    cases ho
    refine ⟨pend, fun _ h _ => h, ?_⟩
    simp only [LaneConfig.offsets]
    exact List.perm_middle.append_right _
  | delivered r n => cases ho

/-- It lies apart from all of them, -/
theorem Passage.apart (h : Laid cfg.toLaneConfig
      (recl ++ (p.full l).held.map (·.buf)) (outsOf (p.full l).rx) pend)
    (hq : ∀ o ∈ p.queuedAt, o ∈ pend) (ho : o ∈ p.place cfg.toLaneConfig) :
    ∃ pend', (∀ o' ∈ pend, p.queuedAt ≠ some o' → o' ∈ pend') ∧
      ∀ o' ∈ cfg.offsets (recl ++ l.held.map (·.buf)) (outsOf l.rx) pend',
        cfg.Apart o' o := by
  obtain ⟨pend', hsub, hp⟩ := Passage.offsets_perm hq ho
  have hpair := (hp.pairwise_iff fun h => h.symm).mp h.apart
  exact ⟨pend', hsub, fun o' ho' =>
    ((List.pairwise_cons.mp hpair).1 o' ho').symm⟩

/-- and in the area of the lane. -/
theorem Passage.inside (h : AppInv cfg shm (p.full l) recl pend)
    (hq : ∀ o ∈ p.queuedAt, o ∈ pend) (ho : o ∈ p.place cfg.toLaneConfig) :
    (Span.mk o cfg.bufSize.toNat).Within cfg.area := by
  obtain ⟨pend', -, hp⟩ := Passage.offsets_perm hq ho
  exact h.queue.laid.inside o (hp.mem_iff.mpr List.mem_cons_self)

/-- A message comes in a buffer of the lane's size. -/
theorem AppInv.take_length (h : AppInv cfg shm l recl pend) {b : VqBuffer}
    {rvdev : RxDevice} (htake : rxTakeBuffer (l.receiver cfg.toLaneConfig shm) =
      some (some b, rvdev)) : b.len = cfg.bufSize := by
  rcases h.queue.take shm with ⟨-, hget⟩ | ⟨b', rvdev', rest, -, hget, -, -, hq⟩
  · rw [rxTakeBuffer_eq hget] at htake
    cases htake
  · rw [rxTakeBuffer_eq hget] at htake
    cases htake
    exact (hq.laid.outsAt b (by simp)).1

theorem Passage.added_full (p : Passage) (l : AppLane) (rx : List Received) :
    (p.full l).added (p.rx ++ rx) = l.added rx := by
  simp [AppLane.added, full, List.drop_append]

/-- **What is written elsewhere does not matter to a send.** -/
theorem Passage.Ok.frame (hok : p.Ok cfg.toLaneConfig call shm pend)
    (h : AppInv cfg shm (p.full l) recl pend) {s : Span}
    (ht : Touches s shm shm') (hd : s.Disjoint cfg.area) :
    p.Ok cfg.toLaneConfig call shm' pend :=
  { hok with
    carries := fun hs => (hok.carries hs).frame fun o ho => by
      have hin := Passage.inside h hok.queued ho
      exact (ht.agree hd).mono hin.1 hin.2 }

/-- **Somebody else sends**, with the buffers he has. -/
theorem Passage.Ok.send (hok : p.Ok cfg.toLaneConfig call shm pend)
    (h : AppInv cfg shm (p.full l) recl pend) {a : TxAct} {t : TxSystem}
    (ha : a ≠ .peer)
    (hst : TxStep cfg.tx (l.txSystem cfg.toLaneConfig shm) a t)
    (hbound : cfg.role = .driver →
      (p.full (l.withTx t)).outstanding ≤ cfg.vq.num) :
    (∃ recl' pend', AppInv cfg t.us.mem.shm (p.full (l.withTx t)) recl' pend' ∧
      p.Ok cfg.toLaneConfig call t.us.mem.shm pend') ∧
      Touches cfg.area shm t.us.mem.shm := by
  have hlaid := h.queue.laid
  obtain ⟨⟨recl', new, hinv⟩, ht⟩ := h.send (hst.beside ha p.held) ha hbound
  have hw := hst.writesIn ha h.tx
  refine ⟨⟨recl', _, hinv, fun o ho =>
    List.mem_append_left _ (hok.queued o ho), hok.length, hok.status,
    fun hs => (hok.carries hs).frame fun o ho => ?_⟩, ht⟩
  obtain ⟨pend', -, hapart⟩ := Passage.apart hlaid hok.queued ho
  refine hw ⟨o, cfg.bufSize.toNat⟩ fun b hb => ?_
  have hin : b ∈ recl ++ (p.full l).held.map (·.buf) := by
    simp only [full, List.map_append, List.mem_append] at hb ⊢
    tauto
  show (b.span cfg.senderIo).Disjoint _
  rw [hlaid.own_span hin]
  refine hapart _ (List.mem_append_left _ (List.mem_append_left _ ?_))
  exact List.mem_map.mpr ⟨b, hb, rfl⟩

/-- **Somebody else receives**, any message but the one of this send. -/
theorem Passage.Ok.receive (hok : p.Ok cfg.toLaneConfig call shm pend)
    (h : AppInv cfg shm (p.full l) recl pend) {a : RxAct} {t : RxSystem}
    (ha : a ≠ .peer)
    (hst : RxStep cfg.rx (l.rxSystem cfg.toLaneConfig shm) a t)
    (hours : ∀ b ∈ l.added t.rx,
      p.queuedAt ≠ some (shmOff cfg.receiverIo b.data)) :
    (∃ recl' pend', AppInv cfg t.us.shm (p.full (l.withRx t)) recl' pend' ∧
      p.Ok cfg.toLaneConfig call t.us.shm pend') ∧
      Touches cfg.area shm t.us.shm := by
  have hlaid := h.queue.laid
  obtain ⟨⟨pend', hinv, hpend⟩, ht⟩ := h.receive (hst.beside ha p.rx) ha
  have hlen : ∀ b us, rxTakeBuffer (l.receiver cfg.toLaneConfig shm) =
      some (some b, us) → b.len = cfg.bufSize := fun b us hb => h.take_length hb
  have hw := hst.writesIn ha h.rx fun b us hb => by
    rw [hlen b us hb]
    exact Nat.le_trans (by decide) cfg.room
  have hadded : (p.full l).added (p.rx ++ t.rx) = l.added t.rx :=
    p.added_full l t.rx
  simp only [hadded] at hpend
  refine ⟨⟨recl, pend', hinv, fun o ho => ?_, hok.length, hok.status,
    fun hs => (hok.carries hs).frame fun o ho => ?_⟩, ht⟩
  · have hin := hok.queued o ho
    rw [hpend] at hin
    rcases List.mem_append.mp hin with hin | hin
    · obtain ⟨b, hb, rfl⟩ := List.mem_map.mp hin
      exact absurd ho (hours b hb)
    · exact hin
  · obtain ⟨rest, hsub, hapart⟩ := Passage.apart hlaid hok.queued ho
    refine hw ⟨o, cfg.bufSize.toNat⟩ fun b hb => ?_
    show (b.span cfg.receiverIo).Disjoint _
    rcases List.mem_append.mp hb with hb | hb
    · have hin : b ∈ outsOf (p.full l).rx := by
        simp only [full, outsOf_append, List.mem_append]
        exact .inr hb
      rw [hlaid.outs_span hin]
      refine hapart _ (List.mem_append_left _ (List.mem_append_right _ ?_))
      exact List.mem_map.mpr ⟨b, hb, rfl⟩
    · -- a buffer somebody else takes carries another message
      obtain ⟨us, htake⟩ := hst.added ha hb
      rw [VqBuffer.span, hlen b us htake]
      refine hapart _ (List.mem_append_right _ (hsub _ ?_ (hours b hb)))
      rw [hpend]
      exact List.mem_append_left _ (List.mem_map.mpr ⟨b, hb, rfl⟩)

/-- A copy of any length stays behind the header of its buffer. -/
theorem touches_writeTxPayload {cfg : LaneConfig} {b : VqBuffer}
    {data : List UInt8} (hdata : data.length < 2 ^ 31)
    (hroom : RPMSG_HDR_SIZE ≤ cfg.bufSize.toNat) (hlen : b.len = cfg.bufSize)
    (hat : BufAt cfg.senderIo b.data cfg.bufSize.toNat) {n : Int32}
    {status : Int} (heq : writeTxPayload cfg.senderIo shm b.data
      (b.len - UInt32.ofNat RPMSG_HDR_SIZE) data (Int32.ofNat data.length) =
        (n, status, shm')) :
    Touches ⟨shmOff cfg.senderIo b.data + RPMSG_HDR_SIZE,
      cfg.bufSize.toNat - RPMSG_HDR_SIZE⟩ shm shm' := by
  have hsize : (b.len - UInt32.ofNat RPMSG_HDR_SIZE).toNat =
      cfg.bufSize.toNat - RPMSG_HDR_SIZE := by
    rw [hlen, UInt32.toNat_sub_of_le]
    · rfl
    · exact UInt32.le_iff_toNat_le.mpr hroom
  by_cases hs : cfg.Sized
  · have hle := hs.payload
    have hbuff : (b.len - UInt32.ofNat RPMSG_HDR_SIZE).toNat +
        RPMSG_HDR_SIZE = cfg.bufSize.toNat := by omega
    obtain ⟨n', status', -, hcopy⟩ :=
      hat.writeTxPayload shm hbuff (by omega) hdata
    rw [hcopy] at heq
    cases heq
    refine (touches_writeBytes _ _ _).mono ?_
    simp only [Span.Within, List.length_take]
    omega
  · -- the length is negative
    have hneg := sendLen_neg hs hdata
    rw [← hlen] at hneg
    have hnil : (sendLen (Int32.ofNat data.length)
        (b.len - UInt32.ofNat RPMSG_HDR_SIZE)).toNatClampNeg = 0 :=
      Int.toNat_of_nonpos (by omega)
    obtain ⟨status', hw⟩ := metalIoBlockWrite_nil cfg.senderIo shm
      (metalIoVirtToOffset cfg.senderIo
        (b.data + UInt64.ofNat RPMSG_HDR_SIZE))
    simp only [writeTxPayload, hnil, List.take_zero, hw] at heq
    cases heq
    exact fun _ _ => rfl

/-- The arguments passed the checks of `rpmsg_send_offchannel_raw`. -/
structure SendCall.Checked (call : SendCall) : Prop where
  dst : call.dst ≠ RPMSG_ADDR_ANY
  len : call.data.length < 2 ^ 31

/-- **A buffer is got**, or the wait goes on. -/
theorem Passage.Ok.get (h : AppInv cfg shm l recl pend)
    (hcall : call.Checked) {b : Option VqBuffer} {rvdev : TxDevice}
    (hget : rpmsgVirtioGetTxBuffer (l.sender cfg.toLaneConfig shm) =
      some (b, rvdev)) :
    let p' : Passage := b.elim .waiting .fetched
    let l' := { l with toLaneEnds := l.toLaneEnds.withSender rvdev }
    (cfg.role = .driver → (p'.full l').outstanding ≤ cfg.vq.num) →
    (∃ recl', AppInv cfg rvdev.mem.shm (p'.full l') recl' pend ∧
      p'.Ok cfg.toLaneConfig call rvdev.mem.shm pend) ∧
      Touches cfg.area shm rvdev.mem.shm := by
  intro p' l' hbound
  obtain ⟨⟨recl', hinv⟩, ht⟩ := h.get hget fun hr => by
    cases b <;> simpa [p', l', full, held, AppLane.outstanding,
      LaneEnds.withSender, Nat.add_comm] using hbound hr
  refine ⟨⟨recl', ?_⟩, ht⟩
  cases b with
  | none =>
    rw [Option.toList_none, List.map_nil, List.append_nil] at hinv
    exact ⟨hinv, by simp [p', queuedAt], by simp [p', sentLen], by simp [p'],
      fun _ => trivial⟩
  | some b =>
    exact ⟨hinv.perm (List.perm_append_singleton _ _) (.refl _),
      by simp [p', queuedAt], by simp [p', sentLen], by simp [p'],
      fun hs => ⟨hs, hcall.dst, hcall.len⟩⟩

/-- The buffer the payload is copied to, -/
theorem AppInv.noted_at {b : VqBuffer}
    (h : AppInv cfg shm ((Passage.noted b).full l) recl pend) :
    b.len = cfg.bufSize ∧ BufAt cfg.senderIo b.data cfg.bufSize.toNat := by
  have hin : ⟨b, .noted⟩ ∈ ((Passage.noted b).full l).held :=
    List.mem_cons_self
  exact h.queue.laid.ownAt b (List.mem_append_right _
    (List.mem_map.mpr ⟨_, hin, rfl⟩))

/-- and what the copy leaves as it was. -/
theorem AppInv.copy_payload {b : VqBuffer}
    (h : AppInv cfg shm ((Passage.noted b).full l) recl pend)
    (hcall : call.Checked) {n : Int32} {status : Int}
    (hcopy : writeTxPayload cfg.senderIo shm b.data
      (b.len - UInt32.ofNat RPMSG_HDR_SIZE) call.data
      (Int32.ofNat call.data.length) = (n, status, shm')) (x : Nat)
    (hx : x < shmOff cfg.senderIo b.data + RPMSG_HDR_SIZE ∨
      shmOff cfg.senderIo b.data + b.len.toNat ≤ x) : shm' x = shm x := by
  have hroom : RPMSG_HDR_SIZE ≤ cfg.bufSize.toNat :=
    Nat.le_trans (by decide) cfg.room
  obtain ⟨hlen, hat⟩ := h.noted_at
  refine touches_writeTxPayload hcall.len hroom hlen hat hcopy x ?_
  rw [hlen] at hx
  simp only
  omega

/-- **The payload is copied.** -/
theorem Passage.Ok.copy {b : VqBuffer} {n : Int32} {status : Int}
    (hok : (Passage.noted b).Ok cfg.toLaneConfig call shm pend)
    (h : AppInv cfg shm ((Passage.noted b).full l) recl pend)
    (hcall : call.Checked)
    (hcopy : writeTxPayload cfg.senderIo shm b.data
      (b.len - UInt32.ofNat RPMSG_HDR_SIZE) call.data
      (Int32.ofNat call.data.length) = (n, status, shm')) :
    (AppInv cfg shm' ((Passage.copied b n).full l) recl pend ∧
      (Passage.copied b n).Ok cfg.toLaneConfig call shm' pend) ∧
      Touches cfg.area shm shm' := by
  have hin : ⟨b, .noted⟩ ∈ ((Passage.noted b).full l).held :=
    List.mem_cons_self
  have hsub : [b] ⊆ recl ++ ((Passage.noted b).full l).held.map (·.buf) := by
    intro y hy
    rw [List.mem_singleton.mp hy]
    exact List.mem_append_right _ (List.mem_map.mpr ⟨_, hin, rfl⟩)
  obtain ⟨hlen, hat⟩ := h.noted_at
  have hpay := h.copy_payload hcall hcopy
  obtain ⟨hinv, ht⟩ := h.writeTx (h.tx.write hin hpay) rfl
    ((writesIn_payload hpay).mono hsub)
  refine ⟨⟨hinv, by simp [queuedAt], ?_, by simp,
    fun hs => (SendState.Ok.copy (hok.carries hs) hlen hat hcopy).1⟩, ht⟩
  intro k hk
  cases hk
  rw [← hlen]
  exact (congrArg Prod.fst hcopy).symm

/-- **The header is written.** -/
theorem Passage.Ok.header {b : VqBuffer} {n : Int32}
    (hok : (Passage.copied b n).Ok cfg.toLaneConfig call shm pend)
    (h : AppInv cfg shm ((Passage.copied b n).full l) recl pend)
    {idx : UInt16} (hinit : initTxHdr cfg.senderIo shm call.src call.dst b.data
      n = (idx, shm')) :
    (AppInv cfg shm' ((Passage.sealed { b with idx := idx } n).full l) recl
        pend ∧
      (Passage.sealed { b with idx := idx } n).Ok cfg.toLaneConfig call shm'
        pend) ∧ Touches cfg.area shm shm' := by
  have hheld : ((Passage.copied b n).full l).held =
      [] ++ ⟨b, .noted⟩ :: l.held := rfl
  obtain ⟨hinv, ht⟩ := h.header call.src call.dst n hheld
  have hat := (h.queue.laid.ownAt b (by simp [hheld])).2
  rw [hinit] at hinv ht
  exact ⟨⟨hinv, by simp [queuedAt], hok.length, by simp,
    fun hs => (SendState.Ok.header (hok.carries hs) hat hinit).2.1⟩, ht⟩

/-- **The message is put on the queue.** -/
theorem Passage.Ok.enqueue {b : VqBuffer} {n : Int32}
    (hok : (Passage.sealed b n).Ok cfg.toLaneConfig call shm pend)
    (h : AppInv cfg shm ((Passage.sealed b n).full l) recl pend)
    {status : Int} {notified : Bool} {rvdev : TxDevice}
    (henq : enqueueTxBuffer (l.sender cfg.toLaneConfig shm) b.data b.idx =
      (status, notified, rvdev)) :
    let p' := Passage.queued (shmOff cfg.senderIo b.data) n
    let l' := { l with toLaneEnds := l.toLaneEnds.withSender rvdev }
    let pend' := pend ++ [shmOff cfg.senderIo b.data]
    (AppInv cfg rvdev.mem.shm (p'.full l') recl pend' ∧
      p'.Ok cfg.toLaneConfig call rvdev.mem.shm pend') ∧
      Touches cfg.area shm rvdev.mem.shm := by
  intro p' l' pend'
  have hheld : ((Passage.sealed b n).full l).held =
      [] ++ ⟨b, .sealed⟩ :: l.held := rfl
  obtain ⟨hinv, ht⟩ := h.enqueue hheld henq
  have hmem := enqueueTxBuffer_mem (l.sender cfg.toLaneConfig shm) b.data b.idx
  rw [henq] at hmem
  have hshm : rvdev.mem.shm = shm := congrArg TxMem.shm hmem
  refine ⟨⟨hinv, ?_, hok.length, by simp [p'], fun hs => ?_⟩, ht⟩
  · intro o ho
    cases ho
    simp [pend']
  · rw [hshm]
    exact hok.carries hs

/-- **The receiver takes the message.** -/
theorem Passage.Ok.take {b : VqBuffer} {n : Int32} {rvdev : RxDevice}
    (rdev : RpmsgDevice)
    (hok : (Passage.queued (shmOff cfg.receiverIo b.data) n).Ok
      cfg.toLaneConfig call shm pend)
    (h : AppInv cfg shm ((Passage.queued (shmOff cfg.receiverIo b.data)
      n).full l) recl pend)
    (htake : rxTakeBuffer (l.receiver cfg.toLaneConfig shm) =
      some (some b, rvdev)) :
    let p' := Passage.received ⟨b, rdev, rpmsgGetEptFromAddr rdev
      (readHdr cfg.receiverIo rvdev.shm b.data).dst, .found, [], none⟩ n
    let l' := { l with toLaneEnds := l.toLaneEnds.withReceiver rvdev }
    (∃ pend', AppInv cfg rvdev.shm (p'.full l') recl pend' ∧
      p'.Ok cfg.toLaneConfig call rvdev.shm pend') ∧
      Touches cfg.area shm rvdev.shm := by
  intro p' l'
  obtain ⟨⟨pend', hinv, -⟩, ht⟩ := h.take htake
  have hshm : rvdev.shm = noteTxBuffer cfg.receiverIo shm b :=
    rxTakeBuffer_mem htake
  refine ⟨⟨pend', hinv.perm (.refl _) (List.perm_append_singleton _ _),
    by simp [p', queuedAt], hok.length, by simp [p'], fun hs => ?_⟩, ht⟩
  obtain ⟨hm, hmsg⟩ := hok.carries hs
  have hmsg' : MsgAt rvdev.shm (shmOff cfg.receiverIo b.data)
      (Sent.message ⟨call, n⟩) := by
    rw [hshm]
    exact hmsg.note
  exact ⟨hm, rfl, hmsg'.found hm rdev, hmsg'⟩

/-- **The endpoint is called.** -/
theorem Passage.Ok.callEpt {r : Round} {n : Int32}
    (hok : (Passage.received r n).Ok cfg.toLaneConfig call shm pend)
    (h : AppInv cfg shm ((Passage.received r n).full l) recl pend) :
    let p' := Passage.delivered { r with
      phase := .called
      calls := r.calls ++
        r.ept.toList.map (eptCall cfg.receiverIo shm r.buf) } n
    let l' := { l with rx := l.rx ++ [⟨r.buf, .calling, 0, 0, 0⟩] }
    AppInv cfg shm (p'.full l') recl pend ∧
      p'.Ok cfg.toLaneConfig call shm pend := by
  intro p' l'
  refine ⟨h.perm (.refl _) (List.perm_append_singleton _ _).symm,
    by simp [p', queuedAt], hok.length, by simp [p'], fun hs => ?_⟩
  obtain ⟨hm, hphase, hconv, hmsg⟩ := hok.carries hs
  exact ⟨hm, rfl, hconv.called hphase hmsg hm⟩

/-- **One step keeps a send among others in order**, whoever takes it. -/
theorem Passage.Ok.step (hok : p.Ok cfg.toLaneConfig call shm pend)
    (h : AppInv cfg shm (p.full l) recl pend) (hcall : call.Checked)
    (hst : PassageStep cfg call shm l p shm' l' p')
    (hbound : cfg.role = .driver → (p'.full l').outstanding ≤ cfg.vq.num) :
    (∃ recl' pend', AppInv cfg shm' (p'.full l') recl' pend' ∧
      p'.Ok cfg.toLaneConfig call shm' pend') ∧ Touches cfg.area shm shm' := by
  cases hst with
  | other hst hours =>
    cases hst with
    | send ha hst => exact hok.send h ha hst hbound
    | receive ha hst => exact hok.receive h ha hst hours
  | get hget =>
    obtain ⟨⟨recl', hinv⟩, ht⟩ := Passage.Ok.get h hcall hget hbound
    exact ⟨⟨recl', pend, hinv⟩, ht⟩
  | giveUp =>
    refine ⟨⟨recl, pend, h, by simp [queuedAt], by simp [sentLen], ?_,
      fun _ => trivial⟩, fun _ _ => rfl⟩
    intro st hst
    cases hst
    decide
  | @note _ b =>
    have hheld : ((Passage.fetched b).full l).held =
        [] ++ ⟨b, .fetched⟩ :: l.held := rfl
    have htx := h.tx
    rw [hheld] at htx
    obtain ⟨hinv, ht⟩ := h.writeTx htx.note (by simp [hheld])
      ((writesIn_noteTxBuffer htx.room).mono (by simp [hheld]))
    exact ⟨⟨recl, pend, hinv, by simp [queuedAt], by simp [sentLen], by simp,
      fun hs => ⟨hok.carries hs, hdrReserved_noteTxBuffer _ _ _⟩⟩, ht⟩
  | copy hcopy =>
    obtain ⟨hinv, ht⟩ := hok.copy h hcall hcopy
    exact ⟨⟨recl, pend, hinv⟩, ht⟩
  | header hinit =>
    obtain ⟨hinv, ht⟩ := hok.header h hinit
    exact ⟨⟨recl, pend, hinv⟩, ht⟩
  | enqueue henq =>
    obtain ⟨hinv, ht⟩ := hok.enqueue h henq
    exact ⟨⟨recl, _, hinv⟩, ht⟩
  | take rdev htake =>
    obtain ⟨⟨pend', hinv⟩, ht⟩ := hok.take rdev h htake
    exact ⟨⟨recl, pend', hinv⟩, ht⟩
  | call => exact ⟨⟨recl, pend, hok.callEpt h⟩, fun _ _ => rfl⟩

end Passage

/-! ## On a link -/

/-- The lane whose sender has the role. -/
def AppLinkConfig.lane (cfg : AppLinkConfig) : VirtioRole → AppLaneConfig
  | .driver => cfg.toRemote
  | .device => cfg.toHost

def AppLink.lane (s : AppLink) : VirtioRole → AppLane
  | .driver => s.toRemote
  | .device => s.toHost

/-- The link after a step on a lane. -/
def AppLink.setLane (s : AppLink) (role : VirtioRole) (shm : Mem)
    (l : AppLane) : AppLink :=
  match role with
  | .driver => { s with shm := shm, toRemote := l }
  | .device => { s with shm := shm, toHost := l }

/-- The link with the buffer of a send put back. -/
def AppLink.withPassage (s : AppLink) (role : VirtioRole) (p : Passage) :
    AppLink :=
  s.setLane role s.shm (p.full (s.lane role))

/-- One step on a link with a send of the side that has the role. -/
inductive LinkPassageStep (cfg : AppLinkConfig) (role : VirtioRole)
    (call : SendCall) : AppLink × Passage → AppLink × Passage → Prop where
  | lane {s : AppLink} {p p' : Passage} {shm : Mem} {l : AppLane}
      (h : PassageStep (cfg.lane role) call s.shm (s.lane role) p shm l p') :
      LinkPassageStep cfg role call (s, p) (s.setLane role shm l, p')
  | otherLane {s : AppLink} {p : Passage} {shm : Mem} {l : AppLane}
      (h : AppLaneStep (cfg.lane role.peer) s.shm (s.lane role.peer) shm l) :
      LinkPassageStep cfg role call (s, p) (s.setLane role.peer shm l, p)

/-- The states of the runs in which a send begins in any state of the link,
and in which the host never has more than `vq_nentries` transmission buffers
outstanding. -/
def PassageReachable (cfg : AppLinkConfig) (role : VirtioRole)
    (call : SendCall) : AppLink × Passage → Prop :=
  Reachable (fun s => AppLinkReachable cfg s.1 ∧ s.2 = .waiting) fun s t =>
    LinkPassageStep cfg role call s t ∧
      (t.1.withPassage role t.2).toRemote.outstanding ≤ cfg.h2r.num

/-- Both lanes are in order, apart from each other, and the send on one of
them is. -/
structure PassageInv (cfg : AppLinkConfig) (role : VirtioRole)
    (call : SendCall) (s : AppLink × Passage) : Prop where
  apart : (cfg.lane role).area.Disjoint (cfg.lane role.peer).area
  ours : ∃ recl pend,
    AppInv (cfg.lane role) s.1.shm (s.2.full (s.1.lane role)) recl pend ∧
      s.2.Ok (cfg.lane role).toLaneConfig call s.1.shm pend
  peer : AppOk (cfg.lane role.peer) s.1.shm (s.1.lane role.peer)

section Link

variable {cfg : AppLinkConfig} {role : VirtioRole} {call : SendCall}
  {s t : AppLink × Passage}

theorem AppLinkInv.passage {s : AppLink} (h : AppLinkInv cfg s)
    (role : VirtioRole) (call : SendCall) :
    PassageInv cfg role call (s, .waiting) := by
  have hok : ∀ {shm : Mem} {pend : List Nat}, Passage.Ok
      (cfg.lane role).toLaneConfig call shm pend .waiting := by
    intro shm pend
    exact ⟨by simp [Passage.queuedAt], by simp [Passage.sentLen], by simp,
      fun _ => trivial⟩
  cases role with
  | driver =>
    obtain ⟨recl, pend, hinv⟩ := h.toRemote
    exact ⟨h.apart, ⟨recl, pend, hinv, hok⟩, h.toHost⟩
  | device =>
    obtain ⟨recl, pend, hinv⟩ := h.toHost
    exact ⟨h.apart.symm, ⟨recl, pend, hinv, hok⟩, h.toRemote⟩

theorem PassageInv.step (h : PassageInv cfg role call s)
    (hcall : call.Checked) (hst : LinkPassageStep cfg role call s t)
    (hbound : (t.1.withPassage role t.2).toRemote.outstanding ≤ cfg.h2r.num) :
    PassageInv cfg role call t := by
  obtain ⟨recl, pend, hinv, hok⟩ := h.ours
  cases hst with
  | @lane s p p' shm l hst =>
    obtain ⟨hours, ht⟩ := hok.step hinv hcall hst fun hr => by
      cases role with
      | driver => exact hbound
      | device => cases hr
    have hpeer := h.peer.frame ht h.apart
    cases role <;> exact ⟨h.apart, hours, hpeer⟩
  | @otherLane s p shm l hst =>
    obtain ⟨hpeer, ht⟩ := h.peer.step hst fun hr => by
      cases role with
      | driver => cases hr
      | device => exact hbound
    have hinv' := hinv.frame ht h.apart.symm
    have hok' := hok.frame hinv ht h.apart.symm
    cases role <;> exact ⟨h.apart, ⟨recl, pend, hinv', hok'⟩, hpeer⟩

/-- **In every run** a send among others is in order. -/
theorem PassageReachable.inv (h : PassageReachable cfg role call s)
    (hcall : call.Checked) : PassageInv cfg role call s := by
  refine Reachable.invariant (P := PassageInv cfg role call) ?_ ?_ h
  · rintro ⟨s, p⟩ ⟨hs, rfl⟩
    exact hs.inv.passage role call
  · exact fun s t _ hs hst => hs.step hcall hst.1 hst.2

/-- The peer finds a message while this one is on the queue. -/
theorem PassageInv.finds {s : AppLink} {o : Nat} {n : Int32}
    (h : PassageInv cfg role call (s, .queued o n)) :
    ∃ b rvdev, rxTakeBuffer ((s.lane role).receiver
      (cfg.lane role).toLaneConfig s.shm) = some (some b, rvdev) := by
  obtain ⟨recl, pend, hinv, hok⟩ := h.ours
  rcases hinv.queue.take s.shm with ⟨hnil, -⟩ | ⟨b, rvdev, rest, -, hget, -⟩
  · have hin := hok.queued o rfl
    rw [hnil] at hin
    cases hin
  · exact ⟨b, _, rxTakeBuffer_eq hget⟩

end Link

end OpenAmp.Rpmsg
