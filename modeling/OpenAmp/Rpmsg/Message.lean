import OpenAmp.Rpmsg.Buffer

/-!
# Messages in memory

What `rpmsg_virtio_send_offchannel_raw` leaves in a buffer and what
`rpmsg_virtio_rx_callback` reads there. `MsgAt m o msg` says that the
buffer at offset `o` carries `msg`; the reserved word of the header is
no part of it, since both sides keep their own notes in it while the
message is under way.
-/

namespace OpenAmp.Rpmsg

open OpenAmp.Lib OpenAmp.Metal

structure Message where
  src : UInt32
  dst : UInt32
  payload : List UInt8
deriving DecidableEq, Repr

/-! ## Sending -/

/-- `if (len > (int)buff_len) len = buff_len;`. -/
def sendLen (len : Int32) (buffLen : UInt32) : Int32 :=
  if buffLen.toInt32 < len then buffLen.toInt32 else len

/-- The part of `rpmsg_virtio_send_offchannel_raw` between getting the
payload buffer behind `hdr` and sending it: the length to send, the
status of the copy and the memory. -/
def writeTxPayload (io : MetalIoRegion) (shm : Mem) (hdr : UInt64)
    (buffLen : UInt32) (data : List UInt8) (len : Int32) :
    Int32 × Int × Mem :=
  let len := sendLen len buffLen
  let buffer := hdr + UInt64.ofNat RPMSG_HDR_SIZE
  let (status, shm) := metalIoBlockWrite io shm (metalIoVirtToOffset io buffer)
    (data.take len.toNatClampNeg)
  (len, status, shm)

theorem toInt_toInt32 {x : UInt32} (h : x.toNat < 2 ^ 31) :
    x.toInt32.toInt = x.toNat := by
  have hx : x.toInt32 = Int32.ofNat x.toNat := by
    rw [← UInt32.toInt32_ofNat', UInt32.ofNat_toNat]
  rw [hx, Int32.toInt_ofNat_of_lt h]

/-- What is sent is cut off at the size of the payload buffer. -/
theorem toInt_sendLen {k : Nat} {buffLen : UInt32} (hk : k < 2 ^ 31)
    (hb : buffLen.toNat < 2 ^ 31) :
    (sendLen (Int32.ofNat k) buffLen).toInt =
      ((min k buffLen.toNat : Nat) : Int) := by
  have h1 := Int32.toInt_ofNat_of_lt hk
  have h2 := toInt_toInt32 hb
  unfold sendLen
  split
  · next h =>
    rw [Int32.lt_iff_toInt_lt, h1, h2] at h
    rw [h2]
    omega
  · next h =>
    rw [Int32.lt_iff_toInt_lt, h1, h2] at h
    rw [h1]
    omega

theorem eq_ofNat_of_toInt {x : Int32} {k : Nat} (h : x.toInt = k) :
    x = Int32.ofNat k ∧ x.toNatClampNeg = k := by
  have hlt : k < 2 ^ 31 := by
    have := x.toInt_lt
    omega
  have hx : x = Int32.ofNat k :=
    Int32.toInt.inj (by rw [h, Int32.toInt_ofNat_of_lt hlt])
  exact ⟨hx, by rw [hx, Int32.toNatClampNeg_ofNat_of_lt hlt]⟩

/-- The `size` bytes at `p` lie in the region as it is mapped. -/
structure BufAt (io : MetalIoRegion) (p : UInt64) (size : Nat) : Prop where
  valid : io.virt ≠ METAL_BAD_VA
  ne_zero : p ≠ 0
  nowrap : p.toNat + size < 2 ^ 64
  inside : shmOff io p + size ≤ io.size.toNat

/-- A block written through a pointer into the region. -/
theorem metalIoBlockWrite_ptr {io : MetalIoRegion} {p : UInt64} (m : Mem)
    (bs : List UInt8) (hbad : io.virt ≠ METAL_BAD_VA) (hp : p ≠ 0)
    (hlt : shmOff io p < io.size.toNat)
    (hfit : shmOff io p + bs.length ≤ io.size.toNat) :
    metalIoBlockWrite io m (metalIoVirtToOffset io p) bs =
      ((bs.length : Int), writeBytes m (shmOff io p) bs) := by
  have hin : p - io.virt < io.size := UInt64.lt_iff_toNat_lt.mpr hlt
  have hoff : metalIoVirtToOffset io p = p - io.virt := by
    simp only [metalIoVirtToOffset, if_pos hin]
  have hvirt : metalIoVirt io (p - io.virt) = p := by
    rw [metalIoVirt, if_pos ⟨hbad, hin⟩, UInt64.add_comm,
      UInt64.sub_add_cancel]
  rw [hoff, metalIoBlockWrite_of_fits m (by rw [hvirt]; exact hp) hfit]
  rfl

variable {io : MetalIoRegion} {m m' : Mem} {p : UInt64} {size o : Nat}
  {data payload : List UInt8} {src dst : UInt32}

/-- **The payload is copied** behind the header, as much of it as fits. -/
theorem BufAt.writeTxPayload (h : BufAt io p size) (m : Mem)
    {buffLen : UInt32} (hb : buffLen.toNat + RPMSG_HDR_SIZE = size)
    (hhi : buffLen.toNat < 2 ^ 31) (hd : data.length < 2 ^ 31) :
    ∃ (n : Int32) (status : Int),
      n.toInt = ((min data.length buffLen.toNat : Nat) : Int) ∧
      OpenAmp.Rpmsg.writeTxPayload io m p buffLen data
          (Int32.ofNat data.length) =
        (n, status, writeBytes m (shmOff io p + RPMSG_HDR_SIZE)
          (data.take (min data.length buffLen.toNat))) := by
  have hn := toInt_sendLen hd hhi
  rcases Nat.eq_zero_or_pos buffLen.toNat with hzero | hpos
  · -- nothing is written to a payload buffer of no bytes, wherever it is
    obtain ⟨status, hw⟩ := metalIoBlockWrite_nil io m
      (metalIoVirtToOffset io (p + UInt64.ofNat RPMSG_HDR_SIZE))
    refine ⟨_, status, hn, ?_⟩
    simp only [OpenAmp.Rpmsg.writeTxPayload, (eq_ofNat_of_toInt hn).2, hzero,
      Nat.min_zero, List.take_zero, hw, writeBytes_nil]
  have hlo : RPMSG_HDR_SIZE < size := by omega
  refine ⟨_, (min data.length buffLen.toNat : Nat), hn, ?_⟩
  have hnw := h.nowrap
  have hin := h.inside
  have hsz := io.size.toNat_lt
  have hq : (p + UInt64.ofNat RPMSG_HDR_SIZE).toNat = p.toNat + RPMSG_HDR_SIZE := by
    rw [UInt64.toNat_add, UInt64.toNat_ofNat']
    simp only [RPMSG_HDR_SIZE] at *
    omega
  have hoff : shmOff io (p + UInt64.ofNat RPMSG_HDR_SIZE) =
      shmOff io p + RPMSG_HDR_SIZE := by
    have hsub : p + UInt64.ofNat RPMSG_HDR_SIZE - io.virt =
        p - io.virt + UInt64.ofNat RPMSG_HDR_SIZE := by
      grind
    rw [shmOff, hsub, UInt64.toNat_add, UInt64.toNat_ofNat']
    simp only [RPMSG_HDR_SIZE, shmOff] at *
    omega
  have hne : p + UInt64.ofNat RPMSG_HDR_SIZE ≠ 0 := by
    intro h0
    rw [h0] at hq
    simp only [UInt64.toNat_zero, RPMSG_HDR_SIZE] at hq
    omega
  have hlen : (data.take (min data.length buffLen.toNat)).length =
      min data.length buffLen.toNat := by
    rw [List.length_take]
    omega
  have hw := metalIoBlockWrite_ptr m (data.take (min data.length buffLen.toNat))
    h.valid hne (by omega) (by omega)
  simp only [OpenAmp.Rpmsg.writeTxPayload, (eq_ofNat_of_toInt hn).2, hw, hlen,
    hoff]

/-- **The header is written**; the index noted before is fetched first. -/
theorem BufAt.initTxHdr (h : BufAt io p size) (m : Mem)
    (hlo : RPMSG_HDR_SIZE ≤ size) (src dst : UInt32) (len : Int32) :
    initTxHdr io m src dst p len = ((hdrReserved io m p).toUInt16,
      writeBytes m (shmOff io p)
        (RpmsgHdr.bytes ⟨src, dst, 0, len.toUInt32.toUInt16, 0⟩)) := by
  have hin := h.inside
  simp only [OpenAmp.Rpmsg.initTxHdr]
  rw [metalIoBlockWrite_ptr m _ h.valid h.ne_zero]
  · simp only [RPMSG_HDR_SIZE] at hlo
    omega
  · simp only [RpmsgHdr.bytes, List.length_append, length_leBytes,
      RPMSG_HDR_SIZE] at hlo ⊢
    omega

/-! ## Carrying -/

/-- The payload bytes are in their place. -/
def PayloadAt (m : Mem) (o : Nat) (payload : List UInt8) : Prop :=
  readBytes m (o + RPMSG_HDR_SIZE) payload.length = payload

/-- The buffer at offset `o` carries the message. The length field of the
header has sixteen bits. -/
structure MsgAt (m : Mem) (o : Nat) (msg : Message) : Prop where
  src : loadLE m o 4 = msg.src.toNat
  dst : loadLE m (o + 4) 4 = msg.dst.toNat
  len : loadLE m (o + 12) 2 = msg.payload.length % 65536
  payload : PayloadAt m o msg.payload

theorem PayloadAt.congr (h : PayloadAt m o payload)
    (hag : Agree m m' (o + RPMSG_HDR_SIZE) payload.length) :
    PayloadAt m' o payload :=
  (readBytes_congr hag).trans h

theorem payloadAt_writeBytes (m : Mem) (o : Nat) (payload : List UInt8) :
    PayloadAt (writeBytes m (o + RPMSG_HDR_SIZE) payload) o payload := by
  rw [PayloadAt, readBytes_writeBytes_take m _ (Nat.le_refl _),
    List.take_length]

/-- The message does not depend on the reserved word. -/
theorem MsgAt.congr {msg : Message} (h : MsgAt m o msg)
    (hlo : Agree m m' o 8)
    (hhi : Agree m m' (o + 12) (4 + msg.payload.length)) :
    MsgAt m' o msg where
  src := (loadLE_congr (hlo.mono (by omega) (by omega))).trans h.src
  dst := (loadLE_congr (hlo.mono (by omega) (by omega))).trans h.dst
  len := (loadLE_congr (hhi.mono (by omega) (by omega))).trans h.len
  payload := h.payload.congr (hhi.mono (by simp [RPMSG_HDR_SIZE])
    (by simp only [RPMSG_HDR_SIZE]; omega))

/-- **Header and payload make the message.** -/
theorem PayloadAt.header (h : PayloadAt m o payload) {len : Int32}
    (hlen : len.toInt = payload.length) :
    MsgAt (writeBytes m o
      (RpmsgHdr.bytes ⟨src, dst, 0, len.toUInt32.toUInt16, 0⟩)) o
        ⟨src, dst, payload⟩ := by
  have hl16 : len.toUInt32.toUInt16.toNat = payload.length % 65536 := by
    have hlt := len.toInt_lt
    rw [(eq_ofNat_of_toInt hlen).1]
    simp only [Int32.toUInt32_ofNat', UInt32.toNat_toUInt16,
      UInt32.toNat_ofNat']
    omega
  -- the fields of the header, as they are read back
  have hfield : ∀ (i k v : Nat), v < 256 ^ k → i + k ≤ 16 →
      ((RpmsgHdr.bytes ⟨src, dst, 0, len.toUInt32.toUInt16, 0⟩).drop i).take k
        = leBytes k v →
      loadLE (writeBytes m o
        (RpmsgHdr.bytes ⟨src, dst, 0, len.toUInt32.toUInt16, 0⟩)) (o + i) k
          = v := by
    intro i k v hv hik heq
    refine loadLE_of_readBytes k hv ?_
    rw [readBytes_writeBytes, heq]
    simp only [RpmsgHdr.bytes, List.length_append, length_leBytes]
    omega
  refine ⟨?_, ?_, ?_, ?_⟩
  · refine hfield 0 4 _ src.toNat_lt (by omega) ?_
    simp [RpmsgHdr.bytes]
  · refine hfield 4 4 _ dst.toNat_lt (by omega) ?_
    simp [RpmsgHdr.bytes]
  · have hv := hfield 12 2 len.toUInt32.toUInt16.toNat
      (UInt16.toNat_lt _) (by omega) (by simp [RpmsgHdr.bytes, leBytes])
    rw [hv, hl16]
  · refine h.congr (agree_writeBytes (.inr ?_))
    simp [RpmsgHdr.bytes, RPMSG_HDR_SIZE]

/-- **What the receiver reads** in the header. -/
theorem MsgAt.readHdr {msg : Message} (h : MsgAt m (shmOff io p) msg) :
    (readHdr io m p).src = msg.src ∧ (readHdr io m p).dst = msg.dst ∧
      (readHdr io m p).len.toNat = msg.payload.length % 65536 := by
  have hlt := loadLE_lt m 2 (shmOff io p + 12)
  simp only [OpenAmp.Rpmsg.readHdr, h.src, h.dst, UInt32.ofNat_toNat,
    UInt16.toNat_ofNat', true_and]
  rw [h.len] at hlt ⊢
  omega

end OpenAmp.Rpmsg
