import OpenAmp.Rpmsg.RxReturn

/-!
# The default receive callback

`default_bind_cb` of `operation_interface.c`, which the endpoint of an
announced name has until the application registers another one. It puts a
zero behind the payload and prints it as a string. The buffers of a pool
lie back to back, so behind a payload that fills its buffer that is the
first byte of the next one.

The callback runs in a round of `rpmsg_virtio_rx_callback`. A run here is
one of the reception system with calls of it anywhere between the steps,
also of calls that have written behind their buffer.
-/

namespace OpenAmp.Interface.DefaultCallback

open OpenAmp.Lib OpenAmp.Metal OpenAmp.Virtio OpenAmp.Rpmsg

/-- What a call of the callback prints and returns, and the memory. -/
structure CbRun where
  src : UInt32
  len : UInt64
  text : List UInt8
  status : Int
  shm : Mem

/-- `default_bind_cb`. -/
def defaultBindCb (io : MetalIoRegion) (shm : Mem) (data len : UInt64)
    (src : UInt32) : CbRun :=
  let shm := writeBytes shm (shmOff io (data + len)) [0]
  -- `data:%s`
  let text := readBytes shm (shmOff io data)
    (strnlen shm (shmOff io data) (len.toNat + 1))
  ⟨src, len, text, 0, shm⟩

/-- `ept->cb(ept, RPMSG_LOCATE_DATA(rp_hdr), rp_hdr->len, rp_hdr->src,
ept->priv)` of an endpoint with this callback. -/
def callDefaultBindCb (io : MetalIoRegion) (shm : Mem) (b : VqBuffer) :
    CbRun :=
  let rpHdr := readHdr io shm b.data
  defaultBindCb io shm (b.data + UInt64.ofNat RPMSG_HDR_SIZE)
    rpHdr.len.toUInt64 rpHdr.src

/-- The length of the payload in a buffer, as its header has it. -/
def payloadLen (s : RxSystem) (b : VqBuffer) : Nat :=
  (readHdr s.us.io s.us.shm b.data).len.toNat

/-- The bytes of a receive buffer. -/
def rxSpan (cfg : RxConfig) (b : VqBuffer) : Span :=
  ⟨shmOff cfg.io b.data, cfg.r2hBufSize.toNat⟩

/-- The reception after a call of the callback on the buffer. -/
def afterCb (s : RxSystem) (b : VqBuffer) : RxSystem :=
  { s with us := { s.us with
      shm := (callDefaultBindCb s.us.io s.us.shm b).shm } }

inductive CbStep (cfg : RxConfig) : RxSystem → RxSystem → Prop where
  | rx {s t : RxSystem} {a : RxAct} (h : RxStep cfg s a t) : CbStep cfg s t
  | callback {s : RxSystem} {r : Received} (hr : r ∈ s.rx)
      (hphase : r.phase = .calling)
      (hlen : payloadLen s r.buf + RPMSG_HDR_SIZE ≤ cfg.r2hBufSize.toNat) :
      CbStep cfg s (afterCb s r.buf)

/-- The states of all runs in which no payload is longer than a buffer has
room for. -/
def CbReachable (cfg : RxConfig) : RxSystem → Prop :=
  Reachable (fun s => RxSystem.init cfg = some s) (CbStep cfg)

variable {cfg : RxConfig} {s : RxSystem} {f : Flow} {r : Received}
  {b : VqBuffer}

/-! ## Where the zero goes -/

/-- The buffers of a driver lie where it has the pool mapped. -/
theorem rxInv_placed (h : RxInv cfg s f) (hrole : cfg.role = .driver)
    (hb : b ∈ s.outs) : cfg.io.virt.toNat ≤ b.data.toNat ∧
      b.data.toNat + cfg.r2hBufSize.toNat < 2 ^ 64 := by
  have hside := h.side
  simp only [RxSide, hrole] at hside
  have hok := cfg.pool_ok hrole
  have hmem := hside.bufs.mem_iff.mp (List.mem_append_left _
    (List.mem_map.mpr ⟨b, hb, rfl⟩))
  obtain ⟨i, hi, heq⟩ := List.mem_map.mp hmem
  have hi := List.mem_range.mp hi
  have hnat := hok.cut_toNat hside.fits hi
  have hfits := hside.fits
  have hav := UInt64.le_iff_toNat_le.mp hok.avail_le
  have hvirt := UInt64.le_iff_toNat_le.mp hok.mapped
  have hbound := hok.bound
  have hio : cfg.io = cfg.vq.drvIo := by simp only [RxConfig.io, hrole]
  have hmul : (i + 1) * cfg.r2hBufSize.toNat ≤
      cfg.vq.num * cfg.r2hBufSize.toNat := Nat.mul_le_mul_right _ hi
  rw [Nat.add_mul, Nat.one_mul] at hmul
  rw [heq] at hnat
  rw [hio]
  omega

theorem rxInv_out (h : RxInv cfg s f) (hr : r ∈ s.rx)
    (hphase : r.phase = .calling) : r.putBacks = 0 ∧ r.buf ∈ s.outs := by
  have h0 := (h.books r hr).out (by simp [Received.count, hphase])
  exact ⟨h0, mem_outsOf hr h0⟩

/-- **One byte is written**, the one behind the payload. -/
theorem callDefaultBindCb_shm (h : RxInv cfg s f) (hrole : cfg.role = .driver)
    (hb : b ∈ s.outs)
    (hlen : payloadLen s b + RPMSG_HDR_SIZE ≤ cfg.r2hBufSize.toNat) :
    (callDefaultBindCb s.us.io s.us.shm b).shm = writeBytes s.us.shm
      (shmOff cfg.io b.data + (RPMSG_HDR_SIZE + payloadLen s b)) [0] := by
  obtain ⟨hlo, hhi⟩ := rxInv_placed h hrole hb
  have hsum : (b.data + UInt64.ofNat RPMSG_HDR_SIZE +
      (readHdr s.us.io s.us.shm b.data).len.toUInt64).toNat =
        b.data.toNat + (RPMSG_HDR_SIZE + payloadLen s b) := by
    have hhdr : (UInt64.ofNat RPMSG_HDR_SIZE).toNat = RPMSG_HDR_SIZE := rfl
    rw [UInt64.toNat_add, UInt64.toNat_add, UInt16.toNat_toUInt64, hhdr]
    simp only [payloadLen] at hlen ⊢
    omega
  have hoff : shmOff cfg.io (b.data + UInt64.ofNat RPMSG_HDR_SIZE +
      (readHdr s.us.io s.us.shm b.data).len.toUInt64) =
        shmOff cfg.io b.data + (RPMSG_HDR_SIZE + payloadLen s b) := by
    rw [shmOff_eq hlo, shmOff_eq (by omega), hsum]
    omega
  rw [← hoff, ← h.io]
  rfl

/-! ## Runs with the callback -/

/-- **A call keeps the reception in order**, even one that writes behind
its buffer: what it may hit there is the first byte of another buffer. -/
theorem rxInv_callback (h : RxInv cfg s f) (hrole : cfg.role = .driver)
    (hr : r ∈ s.rx) (hphase : r.phase = .calling)
    (hlen : payloadLen s r.buf + RPMSG_HDR_SIZE ≤ cfg.r2hBufSize.toNat) :
    RxInv cfg (afterCb s r.buf) f := by
  obtain ⟨h0, hout⟩ := rxInv_out h hr hphase
  have hshm := callDefaultBindCb_shm h hrole hout hlen
  have hown : r.buf.len = cfg.r2hBufSize := by
    have hside := h.side
    simp only [RxSide, hrole] at hside
    exact (hside.own r.buf hout).1
  obtain ⟨l₁, l₂, hsplit⟩ := List.append_of_mem hr
  have hands := h.hands
  have hapart : ∀ x ∈ outsOf (l₁ ++ l₂),
      (r.buf.span s.us.io).Disjoint (x.span s.us.io) :=
    ((hsplit ▸ hands).split h0).1
  refine h.change { hands with words := fun x hx hx0 => ?_ } (.refl _)
  refine (hands.words x hx hx0).congr ?_
  have hroom := hands.room x.buf (mem_outsOf hx hx0)
  rw [hshm, ← h.io]
  refine agree_writeBytes ?_
  rw [hsplit] at hx
  rcases List.mem_cons.mp (List.perm_middle.mem_iff.mp hx) with rfl | hx
  · -- its own index and holds are in front of the payload
    simp only [RPMSG_HDR_SIZE, List.length_singleton]
    omega
  · have hdis := hapart x.buf (mem_outsOf hx hx0)
    simp only [VqBuffer.span, Span.Disjoint, hown] at hdis
    simp only [RPMSG_HDR_SIZE, List.length_singleton] at hroom hlen ⊢
    omega

theorem cbReachable_inv (hrole : cfg.role = .driver)
    (h : CbReachable cfg s) : ∃ f, RxInv cfg s f := by
  refine Reachable.invariant (P := fun s => ∃ f, RxInv cfg s f) ?_ ?_ h
  · exact fun s hs => rxInv_init hs
  · rintro s t - ⟨f, hinv⟩ hst
    cases hst with
    | rx hst => exact hinv.step hst
    | callback hr hphase hlen =>
      exact ⟨f, rxInv_callback hinv hrole hr hphase hlen⟩

/-! ## A full message -/

/-- A driver with two receive buffers of the default size. -/
def fullConfig : RxConfig where
  vq := ⟨1, order_one_le, 0, 0, rxIo, rxIo, true, true⟩
  role := .driver
  r2hBufSize := 512
  shpool := rpmsgVirtioInitShmPool 0x1000 0x800
  shm := fun _ => 0
  pool_ok := fun _ => ⟨by decide, by decide, by decide, by decide⟩

/-- A message that fills the first buffer, and a short one in the second. -/
def fullShm : Mem :=
  let shm := writeBytes (fun _ => 0) 0
    (RpmsgHdr.bytes ⟨0x401, 0x400, 0, 496, 0⟩)
  writeBytes shm 512 (RpmsgHdr.bytes ⟨0x401, 0x400, 0, 5, 0⟩)

/-- The peer has taken both buffers, sends both messages, and the first is
received. -/
def fullRun : Option RxSystem :=
  (RxSystem.init fullConfig).map fun s =>
    let s := [RxCmd.peerTake, .peerTake].foldl RxSystem.exec s
    [RxCmd.peerPut, .peerPut, .take].foldl RxSystem.exec
      { s with us := { s.us with shm := fullShm } }

theorem cbReachable_script (hrole : cfg.role = .driver) (cs : List RxCmd)
    (h : CbReachable cfg s) : CbReachable cfg (cs.foldl RxSystem.exec s) :=
  Reachable.script (fun s c _ => (s.exec_step c fun _ => hrole).imp_right .rx)
    cs h (passes_true _ cs)

theorem fullRun_reachable (h : fullRun = some s) :
    CbReachable fullConfig s := by
  obtain ⟨s₀, h0, rfl⟩ := Option.map_eq_some_iff.mp h
  have hinit : CbReachable fullConfig s₀ := .start h0
  have hnone : s₀.rx = [] := by
    simp only [RxSystem.init, fullConfig, Option.map_eq_some_iff] at h0
    obtain ⟨_, -, rfl⟩ := h0
    rfl
  refine cbReachable_script rfl _
    (.next (cbReachable_script rfl _ hinit) (.rx (.peerWrite ?_)))
  -- nothing has been received yet
  intro b hb
  have houts : outsOf s₀.rx = [] := by rw [hnone]; rfl
  have hb : b ∈ outsOf s₀.rx := hb
  rw [houts] at hb
  cases hb

theorem fullRun_received : ∃ s r, fullRun = some s ∧ r ∈ s.rx ∧
    r.phase = .calling ∧ payloadLen s r.buf = 496 ∧
    shmOff fullConfig.io r.buf.data = 0 ∧ s.us.shm 512 = 1 ∧
    (callDefaultBindCb s.us.io s.us.shm r.buf).shm 512 = 0 := by
  have hrun : fullRun.map (fun s => (s.rx.map fun r => (r.phase,
      payloadLen s r.buf, shmOff fullConfig.io r.buf.data, s.us.shm 512,
      (callDefaultBindCb s.us.io s.us.shm r.buf).shm 512))) =
        some [(.calling, 496, 0, 1, 0)] := by
    decide +kernel
  obtain ⟨s, hs, hrx⟩ := Option.map_eq_some_iff.mp hrun
  obtain ⟨r, hr, heq⟩ := List.map_eq_singleton_iff.mp hrx
  simp only [Prod.mk.injEq] at heq
  exact ⟨s, r, hs, by simp [hr], heq⟩

/-! ## The result -/

/-- **The default callback stays inside its buffer** exactly if the
payload does not fill it, or the byte behind it is zero already. -/
theorem defaultBindCb_contained_iff (hrole : cfg.role = .driver)
    (h : CbReachable cfg s) (hr : r ∈ s.rx) (hphase : r.phase = .calling)
    (hlen : payloadLen s r.buf + RPMSG_HDR_SIZE ≤ cfg.r2hBufSize.toNat) :
    (∀ x, ¬ (rxSpan cfg r.buf).Holds x →
      (callDefaultBindCb s.us.io s.us.shm r.buf).shm x = s.us.shm x) ↔
    payloadLen s r.buf + RPMSG_HDR_SIZE < cfg.r2hBufSize.toNat ∨
      s.us.shm (shmOff cfg.io r.buf.data + cfg.r2hBufSize.toNat) = 0 := by
  obtain ⟨f, hinv⟩ := cbReachable_inv hrole h
  rw [callDefaultBindCb_shm hinv hrole (rxInv_out hinv hr hphase).2 hlen]
  constructor
  · intro hsame
    by_contra hno
    obtain ⟨hfull, hbyte⟩ := not_or.mp hno
    have hend : RPMSG_HDR_SIZE + payloadLen s r.buf =
        cfg.r2hBufSize.toNat := by omega
    have hout : ¬ (rxSpan cfg r.buf).Holds
        (shmOff cfg.io r.buf.data + cfg.r2hBufSize.toNat) := by
      simp [Span.Holds, rxSpan]
    have hzero := hsame _ hout
    rw [hend, writeBytes_at _ (Nat.le_refl _) (by simp), Nat.sub_self] at hzero
    exact hbyte hzero.symm
  · rintro (hshort | hbyte) x hx
    · refine writeBytes_of_not _ ?_
      simp only [Span.Holds, rxSpan, RPMSG_HDR_SIZE, List.length_singleton]
        at hx hshort ⊢
      omega
    · by_cases heq : x = shmOff cfg.io r.buf.data +
          (RPMSG_HDR_SIZE + payloadLen s r.buf)
      · have hend : RPMSG_HDR_SIZE + payloadLen s r.buf =
            cfg.r2hBufSize.toNat := by
          simp only [Span.Holds, rxSpan] at hx
          omega
        rw [writeBytes_at _ (by omega) (by simp; omega), heq, hend,
          Nat.sub_self, hbyte]
        rfl
      · refine writeBytes_of_not _ ?_
        simp only [List.length_singleton]
        omega

theorem defaultBindCb_contained_iff_full : ∃ s r,
    CbReachable fullConfig s ∧ r ∈ s.rx ∧ payloadLen s r.buf = 496 ∧
    ((∀ x, ¬ (rxSpan fullConfig r.buf).Holds x →
      (callDefaultBindCb s.us.io s.us.shm r.buf).shm x = s.us.shm x) ↔
    payloadLen s r.buf + RPMSG_HDR_SIZE < fullConfig.r2hBufSize.toNat ∨
      s.us.shm (shmOff fullConfig.io r.buf.data +
        fullConfig.r2hBufSize.toNat) = 0) := by
  obtain ⟨s, r, hs, hr, hphase, hlen, -⟩ := fullRun_received
  have hreach := fullRun_reachable hs
  exact ⟨s, r, hreach, hr, hlen, defaultBindCb_contained_iff rfl hreach hr
    hphase (by rw [hlen]; decide)⟩

/-- The message that fills its buffer: the first byte of the next message,
the low byte of its source address, is lost. -/
theorem defaultBindCb_not_contained : ∃ s r,
    CbReachable fullConfig s ∧ r ∈ s.rx ∧ r.phase = .calling ∧
    payloadLen s r.buf + RPMSG_HDR_SIZE = fullConfig.r2hBufSize.toNat ∧
    ¬ ∀ x, ¬ (rxSpan fullConfig r.buf).Holds x →
      (callDefaultBindCb s.us.io s.us.shm r.buf).shm x = s.us.shm x := by
  obtain ⟨s, r, hs, hr, hphase, hlen, hoff, hbefore, hafter⟩ :=
    fullRun_received
  refine ⟨s, r, fullRun_reachable hs, hr, hphase, by rw [hlen]; rfl,
    fun hsame => ?_⟩
  have hout : ¬ (rxSpan fullConfig r.buf).Holds 512 := by
    rw [rxSpan, hoff]
    decide
  have hbyte := hsame 512 hout
  rw [hbefore, hafter] at hbyte
  cases hbyte

end OpenAmp.Interface.DefaultCallback
