import Mathlib.Data.List.Forall2
import OpenAmp.Rpmsg.LaneQueue

/-!
# The delivery invariant of a lane

What was sent on a lane is cut in three: messages whose round is over,
the one the receiver is in, and those under way. A buffer under way
carries its message until the receiver has called the endpoint; in the
meantime no step writes to it but for the word of its header in which the
receiver notes index and hold. The sending thread's buffer is brought
from nothing to a message by three writes of its own.

A step of a lane writes in the buffer of one thread only, so every step
keeps the invariant, and a lane in order delivers.
-/

namespace OpenAmp.Rpmsg

open OpenAmp.Lib OpenAmp.Metal OpenAmp.Virtio

/-! ## What a lane holds -/

/-- The buffers the sending thread has. -/
def SendState.bufs : SendState → List VqBuffer
  | .idle => []
  | .fetched b _ => [b]
  | .noted b _ => [b]
  | .copied b _ _ => [b]
  | .sealed b _ _ => [b]

/-- The arguments passed the checks of `rpmsg_send_offchannel_raw`, on a
lane with room for a message. -/
structure SendCall.Ok (cfg : LaneConfig) (call : SendCall) : Prop where
  sized : cfg.Sized
  dst : call.dst ≠ RPMSG_ADDR_ANY
  len : call.data.length < 2 ^ 31

/-- A send of these arguments returned what fits of the data. -/
structure Sent.Ok (cfg : LaneConfig) (m : Sent) : Prop extends
    SendCall.Ok cfg m.call where
  returned : m.n.toInt =
    ((min m.call.data.length (cfg.bufSize.toNat - RPMSG_HDR_SIZE) : Nat) : Int)

/-- What the sending thread has brought into its buffer. -/
def SendState.Ok (cfg : LaneConfig) (shm : Mem) : SendState → Prop
  | .idle => True
  | .fetched _ call => call.Ok cfg
  | .noted b call => call.Ok cfg ∧ Counted cfg.senderIo shm b 1
  | .copied b call n => Sent.Ok cfg ⟨call, n⟩ ∧ Counted cfg.senderIo shm b 1 ∧
      PayloadAt shm (shmOff cfg.senderIo b.data) (Sent.message ⟨call, n⟩).payload
  | .sealed b call n => Sent.Ok cfg ⟨call, n⟩ ∧
      MsgAt shm (shmOff cfg.senderIo b.data) (Sent.message ⟨call, n⟩)

/-- The round the receiver is in conveys a message, which is in its buffer
until the endpoint is called. -/
structure Round.Ok (cfg : LaneConfig) (shm : Mem) (r : Round) (m : Sent) :
    Prop where
  conveys : r.Conveys m
  counted : Counted cfg.receiverIo shm r.buf 1
  message : r.phase = .found →
    MsgAt shm (shmOff cfg.receiverIo r.buf.data) m.message
  running : r.phase ≠ .finished

/-- A round that is over has conveyed a message. -/
def Round.Over (r : Round) (m : Sent) : Prop :=
  r.phase = .finished ∧ r.Conveys m

/-- The buffers the receiver has. -/
def Lane.outs (l : Lane) : List VqBuffer := l.round.toList.map (·.buf)

/-- **The delivery invariant** of a lane whose sends are cut in `old`,
`cur` and `new`, the last in the buffers at `pend`. -/
structure LaneInv (cfg : LaneConfig) (shm : Mem) (l : Lane) (pend : List Nat)
    (old cur new : List Sent) : Prop where
  queue : LaneQueue cfg l.toLaneEnds l.thread.bufs l.outs pend
  empty : l.first = cfg.reclaimer
  thread : l.thread.Ok cfg shm
  sent : l.sent = old ++ cur ++ new
  ok : ∀ m ∈ l.sent, m.Ok cfg
  done : List.Forall₂ Round.Over l.rx old
  current : List.Forall₂ (Round.Ok cfg shm) l.round.toList cur
  waiting : List.Forall₂ (fun o m => MsgAt shm o (Sent.message m)) pend new

variable {cfg : LaneConfig} {shm shm' : Mem} {l : Lane} {pend : List Nat}
  {old cur new : List Sent} {b : VqBuffer} {m : Sent}

theorem Sent.Ok.count (h : m.Ok cfg) : m.n.toNatClampNeg =
    min m.call.data.length (cfg.bufSize.toNat - RPMSG_HDR_SIZE) :=
  (eq_ofNat_of_toInt h.returned).2

/-- As many bytes as the send returned. -/
theorem Sent.Ok.payload_length (h : m.Ok cfg) :
    m.message.payload.length = m.n.toNatClampNeg := by
  have hn := h.count
  simp only [Sent.message, List.length_take]
  omega

theorem Sent.Ok.fits (h : m.Ok cfg) :
    RPMSG_HDR_SIZE + m.message.payload.length ≤ cfg.bufSize.toNat := by
  have hgt := h.sized.header
  have hn := h.count
  rw [h.payload_length]
  omega

/-! ## What a call brings into a buffer -/

section Content

variable {call : SendCall} {n : Int32}

/-- **The payload is copied**, and only its place is written. -/
theorem SendState.Ok.copy (h : (SendState.noted b call).Ok cfg shm)
    (hlen : b.len = cfg.bufSize)
    (hat : BufAt cfg.senderIo b.data cfg.bufSize.toNat) {status : Int}
    (hcopy : writeTxPayload cfg.senderIo shm b.data
      (b.len - UInt32.ofNat RPMSG_HDR_SIZE) call.data
      (Int32.ofNat call.data.length) = (n, status, shm')) :
    (SendState.copied b call n).Ok cfg shm' ∧
      Touches ⟨shmOff cfg.senderIo b.data + RPMSG_HDR_SIZE,
        cfg.bufSize.toNat - RPMSG_HDR_SIZE⟩ shm shm' := by
  obtain ⟨hcall, hword⟩ := h
  have hgt := hcall.sized.header
  have hle := hcall.sized.payload
  have hroom : (b.len - UInt32.ofNat RPMSG_HDR_SIZE).toNat =
      cfg.bufSize.toNat - RPMSG_HDR_SIZE := by
    rw [hlen, UInt32.toNat_sub_of_le]
    · rfl
    · exact UInt32.le_iff_toNat_le.mpr hgt
  have hbuff : (b.len - UInt32.ofNat RPMSG_HDR_SIZE).toNat + RPMSG_HDR_SIZE =
      cfg.bufSize.toNat := by omega
  obtain ⟨n', status', hn, heq⟩ :=
    hat.writeTxPayload shm hbuff (by omega) hcall.len
  rw [heq] at hcopy
  cases hcopy
  rw [hroom] at hn ⊢
  have hsent : Sent.Ok cfg ⟨call, n⟩ := { hcall with returned := hn }
  -- what is copied is the payload the message is said to carry
  have htake : call.data.take (min call.data.length
      (cfg.bufSize.toNat - RPMSG_HDR_SIZE)) =
        (Sent.message ⟨call, n⟩).payload := by
    rw [← hsent.count]
    rfl
  have hfit := hsent.fits
  rw [htake]
  refine ⟨⟨hsent, ?_, payloadAt_writeBytes _ _ _⟩,
    (touches_writeBytes _ _ _).mono ?_⟩
  · -- the word in the header is not written yet
    refine hword.congr (agree_writeBytes (.inl ?_))
    simp only [RPMSG_HDR_SIZE]
    omega
  · simp only [Span.Within]
    omega

/-- **The header is written**, and nothing behind it. The index comes back
out of the word noted before. -/
theorem SendState.Ok.header (h : (SendState.copied b call n).Ok cfg shm)
    (hat : BufAt cfg.senderIo b.data cfg.bufSize.toNat) {idx : UInt16}
    (hinit : initTxHdr cfg.senderIo shm call.src call.dst b.data n =
      (idx, shm')) :
    idx = b.idx ∧
      (SendState.sealed { b with idx := idx } call n).Ok cfg shm' ∧
      Touches ⟨shmOff cfg.senderIo b.data, RPMSG_HDR_SIZE⟩ shm shm' := by
  obtain ⟨hsent, hword, hpay⟩ := h
  have hidx : (hdrReserved cfg.senderIo shm b.data).toUInt16 = b.idx := by
    rw [hword]
    exact toUInt16_bufWord b.idx (by decide)
  rw [hat.initTxHdr shm hsent.sized.header, hidx] at hinit
  cases hinit
  refine ⟨rfl, ⟨hsent, hpay.header ?_⟩, (touches_writeBytes _ _ _).mono ?_⟩
  · rw [hsent.payload_length, hsent.count]
    exact hsent.returned
  · simp only [Span.Within, RpmsgHdr.bytes, List.length_append,
      length_leBytes, RPMSG_HDR_SIZE]
    omega

/-- **The lookup** finds an endpoint with the address, unless there is
none. -/
theorem rpmsgGetEptFromAddr_spec (rdev : RpmsgDevice) {addr : UInt32}
    (haddr : addr ≠ RPMSG_ADDR_ANY) :
    (∀ e ∈ rpmsgGetEptFromAddr rdev addr,
      e ∈ rdev.endpoints ∧ (rdev.epts e).addr = addr) ∧
    (rpmsgGetEptFromAddr rdev addr = none →
      ∀ e ∈ rdev.endpoints, (rdev.epts e).addr ≠ addr) := by
  have hmatch : ∀ e, endpointMatches none addr RPMSG_ADDR_ANY (rdev.epts e) =
      decide ((rdev.epts e).addr = addr) := by
    intro e
    simp [endpointMatches, haddr]
  constructor
  · intro e he
    have hp := List.find?_some he
    rw [hmatch, decide_eq_true_iff] at hp
    exact ⟨List.mem_of_find?_eq_some he, hp⟩
  · intro hnone e he heq
    have hno := List.find?_eq_none.mp hnone e he
    rw [hmatch] at hno
    exact hno (decide_eq_true heq)

/-- The message is still there when index and hold are noted, -/
theorem MsgAt.note (h : MsgAt shm (shmOff cfg.receiverIo b.data) m.message) :
    MsgAt (noteTxBuffer cfg.receiverIo shm b)
      (shmOff cfg.receiverIo b.data) m.message :=
  h.congr (agree_noteTxBuffer (.inl (Nat.le_refl _)))
    (agree_noteTxBuffer (.inr (Nat.le_refl _)))

/-- and the round opened with it conveys it. -/
theorem MsgAt.found (h : MsgAt shm (shmOff cfg.receiverIo b.data) m.message)
    (hm : m.Ok cfg) (rdev : RpmsgDevice) :
    Round.Conveys ⟨b, rdev, rpmsgGetEptFromAddr rdev
      (OpenAmp.Rpmsg.readHdr cfg.receiverIo shm b.data).dst, .found, [],
        none⟩ m := by
  have hdst := h.readHdr.2.1
  obtain ⟨hsome, hnone⟩ := rpmsgGetEptFromAddr_spec rdev hm.dst
  rw [hdst]
  exact ⟨hsome, hnone, rfl, rfl⟩

/-- The header still says what the sender wrote, in sixteen bits. -/
theorem MsgAt.eptCall (h : MsgAt shm (shmOff cfg.receiverIo b.data) m.message)
    (hm : m.Ok cfg) (e : Nat) :
    OpenAmp.Rpmsg.eptCall cfg.receiverIo shm b e = ⟨e,
      m.call.data.take (m.n.toNatClampNeg % 65536),
      m.n.toNatClampNeg % 65536, m.call.src⟩ := by
  obtain ⟨hsrc, -, hlen⟩ := h.readHdr
  have hpay := h.payload
  have hle := Nat.mod_le m.n.toNatClampNeg 65536
  rw [PayloadAt, hm.payload_length] at hpay
  simp only [OpenAmp.Rpmsg.eptCall, hlen, hsrc, hm.payload_length]
  rw [readBytes_take _ _ hle, hpay]
  simp only [Sent.message, List.take_take, Nat.min_eq_left hle]

/-- **The endpoint is called** with what was sent. -/
theorem Round.Conveys.called {r : Round} (h : r.Conveys m)
    (hphase : r.phase = .found)
    (hmsg : MsgAt shm (shmOff cfg.receiverIo r.buf.data) m.message)
    (hm : m.Ok cfg) :
    Round.Conveys { r with
      phase := .called
      calls := r.calls ++ r.ept.toList.map
        (OpenAmp.Rpmsg.eptCall cfg.receiverIo shm r.buf) } m := by
  have hcalls := h.calls
  rw [if_pos hphase] at hcalls
  refine ⟨h.match_addr, h.no_match, ?_, ?_⟩
  · rw [hcalls, List.nil_append, funext (hmsg.eptCall hm), if_neg (by simp)]
  · have hst := h.returned
    rw [if_neg (by simp [hphase])] at hst
    simp [hst]

end Content

/-! ## Frames -/

/-- A buffer under way keeps its message while nothing is written to it. -/
theorem MsgAt.frame {o : Nat} (h : MsgAt shm o m.message) (hm : m.Ok cfg)
    (hag : Agree shm shm' o cfg.bufSize.toNat) : MsgAt shm' o m.message := by
  have hfit := hm.fits
  simp only [RPMSG_HDR_SIZE] at hfit
  exact h.congr (hag.mono (by omega) (by omega)) (hag.mono (by omega) (by omega))

theorem SendState.Ok.frame {t : SendState} (h : t.Ok cfg shm)
    (hag : ∀ b ∈ t.bufs, Agree shm shm' (shmOff cfg.senderIo b.data)
      cfg.bufSize.toNat) : t.Ok cfg shm' := by
  cases t with
  | idle => trivial
  | fetched b call => exact h
  | noted b call =>
    have hgt := h.1.sized.header
    simp only [RPMSG_HDR_SIZE] at hgt
    exact ⟨h.1, h.2.congr ((hag b (by simp [SendState.bufs])).mono (by omega)
      (by omega))⟩
  | copied b call n =>
    have hab := hag b (by simp [SendState.bufs])
    have hfit := h.1.fits
    have hgt := h.1.sized.header
    simp only [RPMSG_HDR_SIZE] at hgt
    refine ⟨h.1, h.2.1.congr (hab.mono (by omega) (by omega)),
      h.2.2.congr (hab.mono (by omega) (by omega))⟩
  | sealed b call n =>
    exact ⟨h.1, h.2.frame h.1 (hag b (by simp [SendState.bufs]))⟩

theorem Round.Ok.frame {r : Round} (h : r.Ok cfg shm m) (hm : m.Ok cfg)
    (hag : Agree shm shm' (shmOff cfg.receiverIo r.buf.data)
      cfg.bufSize.toNat) : r.Ok cfg shm' m := by
  have hgt := hm.sized.header
  simp only [RPMSG_HDR_SIZE] at hgt
  exact { h with
    counted := h.counted.congr (hag.mono (by omega) (by omega))
    message := fun hp => (h.message hp).frame hm hag }

/-- Related lists stay related where the members allow it. -/
theorem forall₂_imp_of_mem {α β : Type*} {R S : α → β → Prop} {xs : List α}
    {ys : List β} (h : List.Forall₂ R xs ys)
    (himp : ∀ x ∈ xs, ∀ y ∈ ys, R x y → S x y) : List.Forall₂ S xs ys := by
  induction h with
  | nil => exact .nil
  | cons hxy _ ih =>
    refine .cons (himp _ (by simp) _ (by simp) hxy) (ih fun x hx y hy => ?_)
    exact himp x (by simp [hx]) y (by simp [hy])

theorem LaneInv.ok_cur (h : LaneInv cfg shm l pend old cur new) :
    ∀ m ∈ cur, m.Ok cfg := fun m hm => h.ok m (by simp [h.sent, hm])

theorem LaneInv.waiting_frame (h : LaneInv cfg shm l pend old cur new)
    (hag : ∀ o ∈ pend, Agree shm shm' o cfg.bufSize.toNat) :
    List.Forall₂ (fun o m => MsgAt shm' o (Sent.message m)) pend new := by
  refine forall₂_imp_of_mem h.waiting fun o ho m hm hmsg => ?_
  exact hmsg.frame (h.ok m (by simp [h.sent, hm])) (hag o ho)

theorem LaneInv.current_frame (h : LaneInv cfg shm l pend old cur new)
    (hag : ∀ b ∈ l.outs, Agree shm shm' (shmOff cfg.receiverIo b.data)
      cfg.bufSize.toNat) :
    List.Forall₂ (Round.Ok cfg shm') l.round.toList cur := by
  refine forall₂_imp_of_mem h.current fun r hr m hm hok => ?_
  exact hok.frame (h.ok_cur m hm) (hag r.buf (List.mem_map.mpr ⟨r, hr, rfl⟩))

/-- **What is written elsewhere does not matter to a lane.** -/
theorem LaneInv.frame (h : LaneInv cfg shm l pend old cur new) {s : Span}
    (ht : Touches s shm shm') (hd : s.Disjoint cfg.area) :
    LaneInv cfg shm' l pend old cur new := by
  have hag : ∀ o ∈ cfg.offsets l.thread.bufs l.outs pend,
      Agree shm shm' o cfg.bufSize.toNat := by
    intro o ho
    have hin := h.queue.laid.inside o ho
    exact (ht.agree hd).mono hin.1 hin.2
  simp only [LaneConfig.offsets, List.mem_append, List.mem_map] at hag
  exact { h with
    thread := h.thread.frame fun b hb => hag _ (.inl (.inl ⟨b, hb, rfl⟩))
    current := h.current_frame fun b hb => hag _ (.inl (.inr ⟨b, hb, rfl⟩))
    waiting := h.waiting_frame fun o ho => hag o (.inr ho) }

/-- The buffer of the sending thread, as bytes of the region. -/
def LaneConfig.own (cfg : LaneConfig) (b : VqBuffer) : Span :=
  ⟨shmOff cfg.senderIo b.data, cfg.bufSize.toNat⟩

theorem LaneInv.own_within (h : LaneInv cfg shm l pend old cur new)
    (hb : l.thread.bufs = [b]) : (cfg.own b).Within cfg.area :=
  h.queue.laid.inside _ (by simp [LaneConfig.offsets, hb])

/-- **The sending thread writes in its buffer**, and only there. -/
theorem LaneInv.writeOwn (h : LaneInv cfg shm l pend old cur new)
    (hb : l.thread.bufs = [b]) (t : SendState) (htb : t.bufs = [b])
    (hok : t.Ok cfg shm') (ht : Touches (cfg.own b) shm shm') :
    LaneInv cfg shm' { l with thread := t } pend old cur new ∧
      Touches (cfg.own b) shm shm' := by
  have hlaid := h.queue.laid
  rw [hb] at hlaid
  have hag : ∀ o ∈ l.outs.map (fun b => shmOff cfg.receiverIo b.data) ++ pend,
      Agree shm shm' o cfg.bufSize.toNat := by
    intro o ho
    have hapart := hlaid.apart
    simp only [LaneConfig.offsets, List.map_cons, List.map_nil,
      List.cons_append, List.nil_append, List.pairwise_cons] at hapart
    exact ht.agree (hapart.1 o ho)
  simp only [List.mem_append, List.mem_map] at hag
  refine ⟨{ h with
    queue := ?_
    thread := hok
    current := h.current_frame fun b hb => hag _ (.inl ⟨b, hb, rfl⟩)
    waiting := h.waiting_frame fun o ho => hag o (.inr ho) }, ht⟩
  have hq := h.queue
  rw [hb, ← htb] at hq
  exact hq

/-- The other buffers of a lane, where the receiver writes in its own. -/
theorem Laid.elsewhere {own : List VqBuffer} (h : Laid cfg own [b] pend)
    (ht : Touches ⟨shmOff cfg.receiverIo b.data, cfg.bufSize.toNat⟩ shm
      shm') :
    (∀ x ∈ own, Agree shm shm' (shmOff cfg.senderIo x.data)
      cfg.bufSize.toNat) ∧
    (∀ o ∈ pend, Agree shm shm' o cfg.bufSize.toNat) ∧
    Touches cfg.area shm shm' := by
  have hapart := h.apart
  simp only [LaneConfig.offsets, List.map_cons, List.map_nil,
    List.append_assoc, List.cons_append, List.nil_append] at hapart
  have hmid := (List.perm_middle.pairwise_iff fun h => h.symm).mp hapart
  have hag : ∀ o ∈ own.map (fun b => shmOff cfg.senderIo b.data) ++ pend,
      Agree shm shm' o cfg.bufSize.toNat :=
    fun o ho => ht.agree ((List.pairwise_cons.mp hmid).1 o ho)
  refine ⟨fun x hx => hag _ (List.mem_append_left _ ?_),
    fun o ho => hag o (List.mem_append_right _ ho), ht.mono (h.inside _ ?_)⟩
  · exact List.mem_map.mpr ⟨x, hx, rfl⟩
  · simp [LaneConfig.offsets]

/-- **The receiver writes in its buffer**, and only there. -/
theorem LaneInv.writeOut (h : LaneInv cfg shm l pend old [m] new)
    {r : Round} (hr : l.round = some r) (r' : Round) (hbuf : r'.buf = r.buf)
    (hok : r'.Ok cfg shm' m) (rdev : RpmsgDevice)
    (ht : Touches ⟨shmOff cfg.receiverIo r.buf.data,
      cfg.bufSize.toNat⟩ shm shm') :
    LaneInv cfg shm' { l with rdev := rdev, round := some r' } pend old [m]
        new ∧
      Touches cfg.area shm shm' := by
  have hq := h.queue
  have houts : l.outs = [r.buf] := by simp [Lane.outs, hr]
  rw [houts] at hq
  obtain ⟨hown, hpend, harea⟩ := hq.laid.elsewhere ht
  rw [← hbuf] at hq
  exact ⟨{ h with
    queue := hq
    thread := h.thread.frame hown
    current := .cons hok .nil
    waiting := h.waiting_frame hpend }, harea⟩

/-! ## The sending thread -/

variable {call : SendCall} {n : Int32}

/-- The list of reclaimed buffers stays empty. -/
theorem LaneInv.listFirst (h : LaneInv cfg shm l pend old cur new) :
    (l.sender cfg shm).mem.listFirst = none := by
  simp [TxMem.listFirst, TxMem.next, LaneEnds.sender, h.empty]

/-- The one thread that sends has nothing in its hands when it draws. -/
theorem LaneInv.capacity (_ : LaneInv cfg shm l pend old cur new)
    (hd : l.Draws cfg) : ([] : List VqBuffer).length < l.svq.vqFreeCnt.toNat :=
  Nat.pos_of_ne_zero fun h0 => hd.free (UInt16.toNat_inj.mp h0)

theorem LaneInv.get (h : LaneInv cfg shm l pend old cur new)
    (hthread : l.thread = .idle) {b : Option VqBuffer} {rvdev : TxDevice}
    (hcall : b ≠ none → call.Ok cfg)
    (hget : rpmsgVirtioGetTxBuffer (l.sender cfg shm) = some (b, rvdev)) :
    rvdev.mem.shm = shm ∧ LaneInv cfg shm { l.withSender rvdev with
      thread := b.elim .idle (.fetched · call) } pend old cur new := by
  have hq := h.queue
  rw [hthread] at hq
  obtain ⟨b', rvdev', heq, hmem, hq'⟩ := hq.get shm h.listFirst h.capacity
  rw [heq] at hget
  cases hget
  have hbufs : (b.elim SendState.idle (.fetched · call)).bufs = b.toList := by
    cases b <;> rfl
  simp only [SendState.bufs, List.append_nil] at hq'
  refine ⟨congrArg TxMem.shm hmem, ⟨?_, (congrArg TxMem.first hmem).trans
    h.empty, ?_, h.sent, h.ok, h.done, h.current, h.waiting⟩⟩
  · simp only [hbufs]
    exact hq'
  · cases b with
    | none => trivial
    | some b => exact hcall (by simp)

/-- The four bytes of the header word. -/
theorem touches_noteTxBuffer (io : MetalIoRegion) (shm : Mem) (b : VqBuffer)
    {size : Nat} (hsize : RPMSG_HDR_SIZE ≤ size) :
    Touches ⟨shmOff io b.data, size⟩ shm (noteTxBuffer io shm b) := by
  simp only [RPMSG_HDR_SIZE] at hsize
  have hin : (Span.mk (shmOff io b.data + 8) 4).Within
      ⟨shmOff io b.data, size⟩ := by
    simp only [Span.Within]
    omega
  exact ((touches_storeLE _ _ _ _).mono hin).trans
    ((touches_storeLE _ _ _ _).mono hin)

theorem LaneInv.note (h : LaneInv cfg shm l pend old cur new)
    (hthread : l.thread = .fetched b call) :
    LaneInv cfg (noteTxBuffer cfg.senderIo shm b)
        { l with thread := .noted b call } pend old cur new ∧
      Touches (cfg.own b) shm (noteTxBuffer cfg.senderIo shm b) := by
  have hok := h.thread
  rw [hthread] at hok
  refine h.writeOwn (by rw [hthread]; rfl) (.noted b call) rfl ⟨hok, ?_⟩
    (touches_noteTxBuffer _ _ _ hok.sized.header)
  exact hdrReserved_noteTxBuffer _ _ _

theorem LaneInv.ownAt (h : LaneInv cfg shm l pend old cur new)
    (hb : l.thread.bufs = [b]) : b.len = cfg.bufSize ∧
      BufAt cfg.senderIo b.data cfg.bufSize.toNat :=
  h.queue.laid.ownAt b (by simp [hb])

theorem LaneInv.copy (h : LaneInv cfg shm l pend old cur new)
    (hthread : l.thread = .noted b call) {status : Int}
    (hcopy : writeTxPayload cfg.senderIo shm b.data
      (b.len - UInt32.ofNat RPMSG_HDR_SIZE) call.data
      (Int32.ofNat call.data.length) = (n, status, shm')) :
    LaneInv cfg shm' { l with thread := .copied b call n } pend old cur new ∧
      Touches (cfg.own b) shm shm' := by
  have hok := h.thread
  rw [hthread] at hok
  have hbufs : l.thread.bufs = [b] := by rw [hthread]; rfl
  obtain ⟨hlen, hat⟩ := h.ownAt hbufs
  obtain ⟨hcopied, ht⟩ := hok.copy hlen hat hcopy
  have hgt := hok.1.sized.header
  refine h.writeOwn hbufs (.copied b call n) rfl hcopied (ht.mono ?_)
  simp only [Span.Within, LaneConfig.own]
  omega

theorem LaneInv.header (h : LaneInv cfg shm l pend old cur new)
    (hthread : l.thread = .copied b call n) {idx : UInt16}
    (hinit : initTxHdr cfg.senderIo shm call.src call.dst b.data n =
      (idx, shm')) :
    LaneInv cfg shm' { l with thread := .sealed { b with idx := idx } call n }
        pend old cur new ∧
      Touches (cfg.own b) shm shm' := by
  have hok := h.thread
  rw [hthread] at hok
  have hbufs : l.thread.bufs = [b] := by rw [hthread]; rfl
  obtain ⟨hidx, hsealed, ht⟩ := hok.header (h.ownAt hbufs).2 hinit
  have hgt := hok.1.sized.header
  refine h.writeOwn hbufs _ ?_ hsealed (ht.mono ?_)
  · rw [hidx]
    rfl
  · simp only [Span.Within, LaneConfig.own]
    omega

theorem LaneInv.enqueue (h : LaneInv cfg shm l pend old cur new)
    (hthread : l.thread = .sealed b call n) {status : Int} {notified : Bool}
    {rvdev : TxDevice} (henq : enqueueTxBuffer (l.sender cfg shm) b.data b.idx =
      (status, notified, rvdev)) :
    rvdev.mem.shm = shm ∧ LaneInv cfg shm { l.withSender rvdev with
      thread := .idle
      sent := l.sent ++ [⟨call, n⟩] } (pend ++ [shmOff cfg.senderIo b.data]) old
        cur (new ++ [⟨call, n⟩]) := by
  have hok := h.thread
  have hq := h.queue
  rw [hthread] at hok hq
  obtain ⟨hsent, hmsg⟩ := hok
  obtain ⟨notified', rvdev', heq, hmem, hq'⟩ := LaneQueue.enqueue hq shm
  rw [heq] at henq
  cases henq
  refine ⟨congrArg TxMem.shm hmem, ⟨hq', (congrArg TxMem.first hmem).trans
    h.empty, trivial, ?_, ?_, h.done, h.current,
    List.rel_append h.waiting (.cons hmsg .nil)⟩⟩
  · simp only [h.sent, List.append_assoc]
  · intro m hm
    rcases List.mem_append.mp hm with hm | hm
    · exact h.ok m hm
    · rw [List.mem_singleton.mp hm]
      exact hsent

/-! ## The receiver -/

/-- **The oldest message is taken** and its endpoint looked up. -/
theorem LaneInv.take (h : LaneInv cfg shm l pend old cur new)
    (hround : l.round = none) {b : Option VqBuffer} {rvdev : RxDevice}
    (htake : rxTakeBuffer (l.receiver cfg shm) = some (b, rvdev)) :
    (∃ pend' cur' new', LaneInv cfg rvdev.shm
      (b.elim id (fun b l => l.found cfg rvdev.shm b) (l.withReceiver rvdev))
        pend' old cur' new') ∧ Touches cfg.area shm rvdev.shm := by
  have hq := h.queue
  have houts : l.outs = [] := by simp [Lane.outs, hround]
  have hcur : cur = [] := by
    have := h.current
    rw [hround] at this
    cases this
    rfl
  subst hcur
  rw [houts] at hq
  rcases hq.take shm with ⟨-, hget⟩ | ⟨b', rvdev', rest, hpend, hget, hio,
    hshm, hq'⟩
  · rw [rxTakeBuffer_eq hget] at htake
    cases htake
    exact ⟨⟨pend, [], new, h⟩, fun _ _ => rfl⟩
  · rw [rxTakeBuffer_eq hget, hio, hshm] at htake
    cases htake
    subst hpend
    obtain ⟨m, new, hmsg, hwait, rfl⟩ := List.forall₂_cons_left_iff.mp h.waiting
    have hm : m.Ok cfg := h.ok m (by simp [h.sent])
    have ht : Touches ⟨shmOff cfg.receiverIo b'.data, cfg.bufSize.toNat⟩ shm
        (noteTxBuffer cfg.receiverIo shm b') :=
      touches_noteTxBuffer _ _ _ hm.sized.header
    have hmsg' := hmsg.note
    have hconveys : Round.Ok cfg (noteTxBuffer cfg.receiverIo shm b')
        ⟨b', l.rdev, rpmsgGetEptFromAddr l.rdev (readHdr cfg.receiverIo
          (noteTxBuffer cfg.receiverIo shm b') b'.data).dst, .found, [], none⟩
          m :=
      ⟨hmsg'.found hm l.rdev, hdrReserved_noteTxBuffer _ _ _, fun _ => hmsg',
        by simp⟩
    obtain ⟨hown, hrest, harea⟩ := hq'.laid.elsewhere ht
    refine ⟨⟨rest, [m], new, hq', h.empty, h.thread.frame hown, ?_,
      h.ok, h.done, ?_, ?_⟩, harea⟩
    · have hsent := h.sent
      rw [List.append_nil] at hsent
      rw [List.append_assoc]
      exact hsent
    · exact .cons hconveys .nil
    · refine forall₂_imp_of_mem hwait fun o ho m' hm' hmsg => ?_
      exact hmsg.frame (h.ok m' (by simp [h.sent, hm'])) (hrest o ho)

theorem LaneInv.current_cons (h : LaneInv cfg shm l pend old cur new)
    {r : Round} (hround : l.round = some r) :
    ∃ m, cur = [m] ∧ r.Ok cfg shm m ∧ m.Ok cfg := by
  have hcur := h.current
  rw [hround] at hcur
  obtain ⟨m, cur', hok, hnil, rfl⟩ := List.forall₂_cons_left_iff.mp hcur
  rw [List.forall₂_nil_left_iff.mp hnil]
  exact ⟨m, rfl, hok, h.ok m (by simp [h.sent])⟩

/-- **The endpoint is called** with what was sent. -/
theorem LaneInv.callEpt (h : LaneInv cfg shm l pend old cur new) {r : Round}
    (hround : l.round = some r) (hphase : r.phase = .found) :
    LaneInv cfg shm { l with
      rdev := r.ept.elim l.rdev (l.rdev.modify ·
        (learnDest (readHdr cfg.receiverIo shm r.buf.data).src))
      round := some { r with
        phase := .called
        calls := r.calls ++
          r.ept.toList.map (eptCall cfg.receiverIo shm r.buf) } }
      pend old cur new := by
  obtain ⟨m, rfl, hok, hm⟩ := h.current_cons hround
  have hconveys := hok.conveys.called hphase (hok.message hphase) hm
  refine (h.writeOut hround _ ?_ ⟨hconveys, hok.counted, by simp, by simp⟩ _
    fun _ _ => rfl).1
  rfl

/-- The endpoint may write over the payload. -/
theorem LaneInv.write (h : LaneInv cfg shm l pend old cur new) {r : Round}
    (hround : l.round = some r) (hphase : r.phase = .called)
    (hpay : ∀ x, (x < shmOff cfg.receiverIo r.buf.data + RPMSG_HDR_SIZE ∨
      shmOff cfg.receiverIo r.buf.data + cfg.bufSize.toNat ≤ x) →
      shm' x = shm x) :
    LaneInv cfg shm' l pend old cur new ∧ Touches cfg.area shm shm' := by
  obtain ⟨m, rfl, hok, -⟩ := h.current_cons hround
  have hsame : l = { l with rdev := l.rdev, round := some r } := by
    rw [← hround]
  rw [hsame]
  refine h.writeOut hround r rfl { hok with
    counted := hok.counted.congr fun x _ hx => hpay x (.inl ?_)
    message := fun hf => ?_ } l.rdev fun x hx => hpay x ?_
  · simp only [RPMSG_HDR_SIZE]
    omega
  · rw [hphase] at hf
    cases hf
  · simp only at hx
    omega

/-- **The buffer is given back**, and the round is over. -/
theorem LaneInv.finish (h : LaneInv cfg shm l pend old cur new) {r : Round}
    (hround : l.round = some r) (hphase : r.phase = .called) {st : Option Int}
    {rvdev : RxDevice}
    (hrel : rpmsgVirtioReleaseRxBuffer (l.receiver cfg shm) r.buf.data =
      (st, rvdev)) :
    (∃ old', LaneInv cfg rvdev.shm { l.withReceiver rvdev with
      rdev := r.ept.elim l.rdev (l.rdev.modify · rpmsgEptDecref)
      rx := l.rx ++ [{ r with phase := .finished, status := st }]
      round := none } pend old' [] new) ∧ Touches cfg.area shm rvdev.shm := by
  obtain ⟨m, rfl, hok, hm⟩ := h.current_cons hround
  have hgt := hm.sized.header
  simp only [RPMSG_HDR_SIZE] at hgt
  obtain ⟨shm₁, hshm₁⟩ : ∃ shm₁, shm₁ = setHdrReserved cfg.receiverIo shm
    r.buf.data (bufWord r.buf.idx 0) := ⟨_, rfl⟩
  have ht : Touches ⟨shmOff cfg.receiverIo r.buf.data, cfg.bufSize.toNat⟩ shm
      shm₁ := by
    rw [hshm₁]
    refine (touches_storeLE _ _ _ _).mono ?_
    simp only [Span.Within]
    omega
  have hq := h.queue
  have houts : l.outs = [r.buf] := by simp [Lane.outs, hround]
  rw [houts] at hq
  obtain ⟨rvdev₁, hret, hshm, hq'⟩ := hq.giveBack shm₁
  -- this hold is the only one, so the buffer goes back
  have hword : Counted (l.receiver cfg shm).io (l.receiver cfg shm).shm r.buf
      1 := hok.counted
  rw [hshm₁] at hret
  rw [hword.releaseLast hret] at hrel
  cases hrel
  have hlaid := h.queue.laid
  rw [houts] at hlaid
  -- nobody else has the bytes of the word that is written
  obtain ⟨hown, hpend, harea⟩ := hlaid.elsewhere ht
  simp only [hshm]
  refine ⟨⟨old ++ [m], hq', h.empty, h.thread.frame hown, ?_, h.ok,
    ?_, .nil, h.waiting_frame hpend⟩, harea⟩
  · rw [List.append_nil]
    exact h.sent
  · refine List.rel_append h.done (.cons ⟨rfl, ?_⟩ .nil)
    refine ⟨hok.conveys.match_addr, hok.conveys.no_match, ?_, by simp⟩
    have hcalls := hok.conveys.calls
    rw [if_neg (by rw [hphase]; simp)] at hcalls
    simpa using hcalls

/-! ## Runs of a lane -/

/-- **One step keeps the delivery invariant** and writes in the lane's
area only. -/
theorem LaneInv.step (h : LaneInv cfg shm l pend old cur new) {l' : Lane}
    (hst : LaneStep cfg shm l shm' l')
    (hsized : l.thread = .idle → l'.thread ≠ .idle → cfg.Sized) :
    (∃ pend' old' cur' new', LaneInv cfg shm' l' pend' old' cur' new') ∧
      Touches cfg.area shm shm' := by
  have hsame : ∀ {shm' : Mem}, shm' = shm → Touches cfg.area shm shm' := by
    rintro _ rfl _ _
    rfl
  cases hst with
  | @get _ call b _ hthread hdst hlen hget =>
    have hcall : b ≠ none → call.Ok cfg := fun hb => by
      obtain ⟨b, rfl⟩ := Option.ne_none_iff_exists'.mp hb
      exact ⟨hsized hthread (by simp), hdst, hlen⟩
    obtain ⟨hshm, hinv⟩ := h.get hthread hcall hget
    exact ⟨⟨_, _, _, _, hshm ▸ hinv⟩, hsame hshm⟩
  | note hthread =>
    obtain ⟨hinv, ht⟩ := h.note hthread
    exact ⟨⟨_, _, _, _, hinv⟩, ht.mono (h.own_within (by rw [hthread]; rfl))⟩
  | copy hthread hcopy =>
    obtain ⟨hinv, ht⟩ := h.copy hthread hcopy
    exact ⟨⟨_, _, _, _, hinv⟩, ht.mono (h.own_within (by rw [hthread]; rfl))⟩
  | header hthread hinit =>
    obtain ⟨hinv, ht⟩ := h.header hthread hinit
    exact ⟨⟨_, _, _, _, hinv⟩, ht.mono (h.own_within (by rw [hthread]; rfl))⟩
  | enqueue hthread henq =>
    obtain ⟨hshm, hinv⟩ := h.enqueue hthread henq
    exact ⟨⟨_, _, _, _, hshm ▸ hinv⟩, hsame hshm⟩
  | take hround htake =>
    obtain ⟨⟨pend', cur', new', hinv⟩, ht⟩ := h.take hround htake
    exact ⟨⟨_, _, _, _, hinv⟩, ht⟩
  | call hround hphase =>
    exact ⟨⟨_, _, _, _, h.callEpt hround hphase⟩, hsame rfl⟩
  | write hround hphase hpay =>
    obtain ⟨hinv, ht⟩ := h.write hround hphase hpay
    exact ⟨⟨_, _, _, _, hinv⟩, ht⟩
  | finish hround hphase hrel =>
    obtain ⟨⟨old', hinv⟩, ht⟩ := h.finish hround hphase hrel
    exact ⟨⟨_, _, _, _, hinv⟩, ht⟩
  | endpoints rdev =>
    exact ⟨⟨_, _, _, _, { h with }⟩,
      hsame rfl⟩

/-- The rounds convey the messages in their order. -/
theorem LaneInv.conveyed (h : LaneInv cfg shm l pend old cur new) :
    List.Forall₂ Round.Conveys l.rounds (old ++ cur) :=
  List.rel_append (h.done.imp fun _ _ hr => hr.2)
    (h.current.imp fun _ _ hr => hr.conveys)

/-- A message whose round is open or over is conveyed by that round. -/
theorem LaneInv.conveys (h : LaneInv cfg shm l pend old cur new) {i : Nat}
    {r : Round} (hr : l.rounds[i]? = some r) (hm : l.sent[i]? = some m) :
    r.Conveys m := by
  have hlen := h.conveyed.length_eq
  obtain ⟨hi, rfl⟩ := List.getElem?_eq_some_iff.mp hr
  have hm' : (old ++ cur)[i]? = some m := by
    rw [h.sent, List.getElem?_append_left (by omega)] at hm
    exact hm
  obtain ⟨hi', rfl⟩ := List.getElem?_eq_some_iff.mp hm'
  exact h.conveyed.get hi hi'

theorem LaneInv.sent_length (h : LaneInv cfg shm l pend old cur new) :
    l.sent.length = l.rounds.length + pend.length := by
  rw [h.sent, List.length_append, h.conveyed.length_eq, h.waiting.length_eq]

/-- The receiver finds a buffer as long as a message has had no round. -/
theorem LaneInv.next (h : LaneInv cfg shm l pend old cur new) :
    ∃ b rvdev, rxTakeBuffer (l.receiver cfg shm) = some (b, rvdev) ∧
      (b = none ↔ l.rounds.length = l.sent.length) := by
  have hsent := h.sent_length
  -- the ring is empty exactly when every message has had its round
  rcases h.queue.take shm with ⟨hpend, hget⟩ | ⟨b, rvdev, rest, hpend, hget, -⟩
  · refine ⟨none, _, rxTakeBuffer_eq hget, fun _ => ?_, fun _ => rfl⟩
    rw [hsent, hpend]
    rfl
  · refine ⟨some b, _, rxTakeBuffer_eq hget, fun hb => absurd hb (by simp),
      fun hall => ?_⟩
    rw [hsent, hpend, List.length_cons] at hall
    omega

/-- **A lane in order delivers**, where the length field can count what a
buffer holds. -/
theorem LaneInv.delivers (h : LaneInv cfg shm l pend old cur new)
    (hsmall : cfg.bufSize.toNat ≤ 65551) : l.Delivers cfg shm := by
  have hover := h.done.length_eq
  have hsent := h.sent_length
  refine ⟨fun m hm => (h.ok m hm).returned, by omega, fun i r m hr hm => ?_, ?_,
    h.next⟩
  · refine (h.conveys hr hm).serves ?_
    rw [(h.ok m (List.mem_of_getElem? hm)).count]
    simp only [RPMSG_HDR_SIZE]
    omega
  · intro r hr
    obtain ⟨i, hi, rfl⟩ := List.getElem_of_mem hr
    exact (h.done.get hi (by omega)).1

/-- A lane is in order. -/
def LaneOk (cfg : LaneConfig) (shm : Mem) (l : Lane) : Prop :=
  ∃ pend old cur new, LaneInv cfg shm l pend old cur new

theorem LaneOk.frame (h : LaneOk cfg shm l) {s : Span}
    (ht : Touches s shm shm') (hd : s.Disjoint cfg.area) :
    LaneOk cfg shm' l := by
  obtain ⟨pend, old, cur, new, hinv⟩ := h
  exact ⟨pend, old, cur, new, hinv.frame ht hd⟩

theorem LaneOk.delivers (h : LaneOk cfg shm l)
    (hsmall : cfg.bufSize.toNat ≤ 65551) : l.Delivers cfg shm := by
  obtain ⟨pend, old, cur, new, hinv⟩ := h
  exact hinv.delivers hsmall

/-- A lane on which nothing has happened yet. -/
theorem laneOk_fresh (shm : Mem) (hthread : l.thread = .idle)
    (hsent : l.sent = []) (hrx : l.rx = []) (hround : l.round = none)
    (hfirst : l.first = cfg.reclaimer)
    (hq : LaneQueue cfg l.toLaneEnds [] [] []) : LaneOk cfg shm l := by
  refine ⟨[], [], [], [], ?_, hfirst, ?_, hsent, by simp [hsent], ?_, ?_, .nil⟩
  · rw [hthread, Lane.outs, hround]
    exact hq
  · rw [hthread]
    trivial
  · rw [hrx]
    exact .nil
  · rw [hround]
    exact .nil

end OpenAmp.Rpmsg
