import OpenAmp.Metal.BlockCopy

/-!
# The config space of a virtio device

`rproc_virtio_read_config` and `rproc_virtio_write_config` of
`open-amp/lib/remoteproc/remoteproc_virtio.c`. The config space follows the
vrings of the device's entry in the resource table. The bound is checked on
`offset + length`, which is counted in 32 bits without a sign although the
length has one; the copy that follows knows the bounds of the whole region
only.

Memory is seen by its virtual addresses.
-/

namespace OpenAmp.Remoteproc

open OpenAmp.Lib OpenAmp.Metal

/-- What the two functions read of a device: where its `struct fw_rsc_vdev`
lies, the number of its vrings, the length of the config space and the
region of the table. -/
structure VdevConfig where
  rsc : UInt64
  vringsNum : UInt32
  configLen : UInt32
  io : MetalIoRegion

namespace VdevConfig

variable (c : VdevConfig)

/-- `&vdev_rsc->vring[vdev->vrings_num]`. -/
def config : UInt64 := c.rsc + 28 + 20 * c.vringsNum.toUInt64

/-- The offset in the region that an offset in the config space becomes. -/
def regionOffset (offset : UInt32) : UInt64 :=
  metalIoVirtToOffset c.io (c.config + offset.toUInt64)

/-- The stretches that are copied between the region and the buffer at
`buf`. -/
def copied (offset : UInt32) (buf : UInt64) (length : Int32) : List Span :=
  if offset + length.toUInt32 ≤ c.configLen then
    (blockCopy c.io (c.regionOffset offset) buf length).2
  else []

/-- The address that is read from or written to. -/
def pointer (offset : UInt32) : UInt64 :=
  metalIoVirt c.io (c.regionOffset offset)

/-- `rproc_virtio_read_config`: the bytes that are stored at `dst`. -/
def rprocVirtioReadConfig (m : Mem) (offset : UInt32) (dst : UInt64)
    (length : Int32) : List UInt8 :=
  loadSpans m (c.pointer offset).toNat (c.copied offset dst length)

/-- `rproc_virtio_write_config` from the buffer at `src` that holds `buf`:
the memory after it, and whether the other side is notified. -/
def rprocVirtioWriteConfig (m : Mem) (offset : UInt32) (src : UInt64)
    (buf : Mem) (length : Int32) : Mem × Bool :=
  (storeSpans (c.pointer offset).toNat buf m (c.copied offset src length),
    offset + length.toUInt32 ≤ c.configLen)

/-- The entry with its config space lies in the region. -/
structure Inside : Prop where
  nowrap : c.io.virt.toNat + c.io.size.toNat < 2 ^ 64
  start : c.io.virt.toNat ≤ c.rsc.toNat
  stop : c.rsc.toNat + 28 + 20 * c.vringsNum.toNat + c.configLen.toNat ≤
    c.io.virt.toNat + c.io.size.toNat

/-- The range asked for lies in the config space. -/
def InConfig (offset : UInt32) (length : Int32) : Prop :=
  0 ≤ length.toInt ∧ offset.toNat + length.toInt ≤ c.configLen.toNat

instance (offset : UInt32) (length : Int32) :
    Decidable (c.InConfig offset length) :=
  inferInstanceAs (Decidable (_ ∧ _))

/-- Exactly the range asked for is transferred where it lies in the config
space, and nothing where it does not. -/
structure Bounded (offset : UInt32) (length : Int32) : Prop where
  touched : ∀ buf, ∀ s ∈ c.copied offset buf length,
    (⟨(c.pointer offset).toNat + s.start, s.len⟩ : Span).Within
      ⟨c.config.toNat, c.configLen.toNat⟩ ∧
    s.start + s.len ≤ length.toInt.toNat
  read : ∀ m dst, c.rprocVirtioReadConfig m offset dst length =
    if c.InConfig offset length then
      readBytes m (c.config.toNat + offset.toNat) length.toInt.toNat
    else []
  write : ∀ m src buf, (c.rprocVirtioWriteConfig m offset src buf length).1 =
    if c.InConfig offset length then
      writeBytes m (c.config.toNat + offset.toNat)
        (readBytes buf 0 length.toInt.toNat)
    else m

/-- The check stops the call or has counted right, or there is nothing to
copy: the address lies outside the region, or what is left of the region is
cut down to zero. -/
inductive Honest (offset : UInt32) (length : Int32) : Prop where
  | stopped (h : c.configLen < offset + length.toUInt32)
  | counted (hlength : 0 ≤ length.toInt)
      (h : offset.toNat + length.toInt < 2 ^ 32)
  | outside (h : c.pointer offset = 0)
  | empty (h : clipLen c.io (c.regionOffset offset) length = 0)

variable {c}

theorem Inside.config_toNat (h : c.Inside) :
    c.config.toNat = c.rsc.toNat + 28 + 20 * c.vringsNum.toNat := by
  have h1 := h.nowrap
  have h2 := h.stop
  have h3 := c.vringsNum.toNat_lt
  simp only [config, UInt64.toNat_add, UInt64.toNat_mul, UInt32.toNat_toUInt64,
    UInt64.reduceToNat]
  omega

/-! ## What is copied -/

variable {offset : UInt32} {length : Int32}

theorem copied_of_stopped (h : c.configLen < offset + length.toUInt32)
    (buf : UInt64) : c.copied offset buf length = [] :=
  if_neg (UInt32.not_le.mpr h)

theorem copied_of_outside (h : c.pointer offset = 0) (buf : UInt64) :
    c.copied offset buf length = [] := by
  have hvirt : metalIoVirt c.io (c.regionOffset offset) = 0 := h
  unfold copied
  split
  · simp only [blockCopy, hvirt, if_true]
  · rfl

theorem copied_of_empty
    (h : clipLen c.io (c.regionOffset offset) length = 0) (buf : UInt64) :
    c.copied offset buf length = [] := by
  unfold copied
  split
  · simp only [blockCopy, h]
    split <;> rfl
  · rfl

/-- Past the check, and with an address in the region, the copy is made. -/
theorem copied_tiles (hcheck : offset + length.toUInt32 ≤ c.configLen)
    (hptr : c.pointer offset ≠ 0) (buf : UInt64) :
    Tiles (c.copied offset buf length) 0
      (clipLen c.io (c.regionOffset offset) length).toUInt32.toNat := by
  rw [copied, if_pos hcheck]
  exact tiles_blockCopy hptr buf length

/-- The check, without a wrap. -/
theorem check_iff (hlength : 0 ≤ length.toInt)
    (hsum : offset.toNat + length.toInt < 2 ^ 32) :
    offset + length.toUInt32 ≤ c.configLen ↔ c.InConfig offset length := by
  have hword := toNat_toUInt32_int length
  rw [if_pos hlength] at hword
  rw [UInt32.le_iff_toNat_le, UInt32.toNat_add, InConfig,
    Nat.mod_eq_of_lt (by omega)]
  omega

/-- The check lets the ranges of the config space pass. -/
theorem InConfig.check (h : c.InConfig offset length) :
    offset + length.toUInt32 ≤ c.configLen := by
  have hlen := c.configLen.toNat_lt
  have h1 := h.2
  exact (check_iff h.1 (by omega)).mpr h

/-- An address of the region is the pointer. -/
theorem Inside.pointer_eq (hin : c.Inside)
    (hlt : c.config + offset.toUInt64 - c.io.virt < c.io.size) :
    c.regionOffset offset = c.config + offset.toUInt64 - c.io.virt ∧
    c.pointer offset = c.config + offset.toUInt64 := by
  have h1 := hin.nowrap
  have hoff : c.regionOffset offset = c.config + offset.toUInt64 - c.io.virt :=
    if_pos hlt
  have hvirt : c.io.virt ≠ METAL_BAD_VA := by
    intro heq
    have hlt' := UInt64.lt_iff_toNat_lt.mp hlt
    rw [heq, show METAL_BAD_VA.toNat = 2 ^ 64 - 1 from rfl] at h1
    omega
  refine ⟨hoff, ?_⟩
  rw [VdevConfig.pointer, hoff, metalIoVirt, if_pos ⟨hvirt, hlt⟩,
    UInt64.add_comm, UInt64.sub_add_cancel]

theorem pointer_eq_zero
    (hno : ¬ c.config + offset.toUInt64 - c.io.virt < c.io.size) :
    c.pointer offset = 0 := by
  have hoff : c.regionOffset offset = METAL_BAD_OFFSET := if_neg hno
  rw [VdevConfig.pointer, hoff, metalIoVirt, if_neg]
  intro h
  exact absurd h.2 (UInt64.not_lt.mpr (UInt64.le_iff_toNat_le.mpr
    (Nat.le_of_lt_succ c.io.size.toNat_lt)))

/-- In a range of the config space the region is large enough. -/
theorem InConfig.pointer (hin : c.Inside) (h : c.InConfig offset length)
    (hpos : 0 < length.toInt) :
    (c.pointer offset).toNat = c.config.toNat + offset.toNat ∧
    c.pointer offset ≠ 0 ∧
    clipLen c.io (c.regionOffset offset) length = length := by
  have hconfig := hin.config_toNat
  have h1 := hin.nowrap
  have h2 := hin.start
  have h3 := hin.stop
  have h4 := h.2
  have haddr : (c.config + offset.toUInt64).toNat =
      c.config.toNat + offset.toNat := by
    rw [UInt64.toNat_add, UInt32.toNat_toUInt64, Nat.mod_eq_of_lt (by omega)]
  have hsub : (c.config + offset.toUInt64 - c.io.virt).toNat =
      c.config.toNat + offset.toNat - c.io.virt.toNat := by
    rw [UInt64.toNat_sub_of_le _ _ (UInt64.le_iff_toNat_le.mpr (by omega)),
      haddr]
  have hlt : c.config + offset.toUInt64 - c.io.virt < c.io.size := by
    rw [UInt64.lt_iff_toNat_lt, hsub]
    omega
  obtain ⟨hoff, hptr⟩ := hin.pointer_eq hlt
  refine ⟨by rw [hptr, haddr], ?_, ?_⟩
  · rw [hptr]
    intro hzero
    rw [hzero, UInt64.toNat_zero] at haddr
    omega
  · refine clipLen_of_le h.1 ?_
    rw [hoff, hsub]
    omega

/-! ## When an access is bounded -/

theorem bounded_of_nil (hnil : ∀ buf, c.copied offset buf length = [])
    (hnone : c.InConfig offset length → length.toInt = 0) :
    c.Bounded offset length := by
  refine ⟨fun buf s hs => ?_, fun m dst => ?_, fun m src buf => ?_⟩
  · rw [hnil] at hs
    cases hs
  · rw [rprocVirtioReadConfig, hnil]
    split
    · next h =>
      rw [hnone h]
      rfl
    · rfl
  · show storeSpans _ _ _ _ = _
    rw [hnil]
    split
    · next h =>
      rw [hnone h]
      exact (writeBytes_nil m _).symm
    · rfl

theorem copied_of_zero (hzero : length.toInt = 0) (buf : UInt64) :
    c.copied offset buf length = [] := by
  by_cases hptr : c.pointer offset = 0
  · exact copied_of_outside hptr buf
  · apply copied_of_empty
    have hlt : c.regionOffset offset < c.io.size := by
      by_contra hno
      exact hptr (if_neg fun h => hno h.2)
    rw [UInt64.lt_iff_toNat_lt] at hlt
    rw [clipLen_of_le (by omega) (by omega)]
    exact Int32.toInt_inj.mp hzero

theorem bounded_of_inConfig (hin : c.Inside) (h : c.InConfig offset length) :
    c.Bounded offset length := by
  rcases Int.le_iff_lt_or_eq.mp h.1 with hpos | hzero
  · obtain ⟨hptr, hne, hclip⟩ := h.pointer hin hpos
    have htiles := fun buf => copied_tiles h.check hne buf
    have hword := toNat_toUInt32_int length
    rw [if_pos h.1] at hword
    have hcount : length.toUInt32.toNat = length.toInt.toNat := by omega
    rw [hclip, hcount] at htiles
    have h4 := h.2
    refine ⟨fun buf s hs => ?_, fun m dst => ?_, fun m src buf => ?_⟩
    · have hs' := (htiles buf).mem s hs
      rw [hptr]
      refine ⟨⟨?_, ?_⟩, by omega⟩ <;> simp only <;> omega
    · rw [rprocVirtioReadConfig, (htiles dst).load, hptr, if_pos h, Nat.add_zero]
    · show storeSpans _ _ _ _ = _
      rw [(htiles src).store, hptr, if_pos h, Nat.add_zero]
  · exact bounded_of_nil (copied_of_zero hzero.symm) fun _ => hzero.symm

/-- A copy that is made although the range is not in the config space. -/
theorem not_bounded (hcheck : offset + length.toUInt32 ≤ c.configLen)
    (hptr : c.pointer offset ≠ 0)
    (hclip : clipLen c.io (c.regionOffset offset) length ≠ 0)
    (hout : ¬ c.InConfig offset length) : ¬ c.Bounded offset length := by
  intro h
  have hread := h.read (fun _ => 0) 0
  rw [rprocVirtioReadConfig, (copied_tiles hcheck hptr 0).load, if_neg hout]
    at hread
  have hcount := congrArg List.length hread
  rw [length_readBytes] at hcount
  apply hclip
  exact congrArg Int32.ofUInt32 (UInt32.toNat_inj.mp hcount)

/-- The distance of an address behind the config space from the beginning
of the region, which no offset of 32 bits carries around the address
space. -/
theorem Inside.distance (hin : c.Inside) (hsize : c.io.size.toNat < 2 ^ 31)
    (offset : UInt32) :
    (c.config + offset.toUInt64 - c.io.virt).toNat =
      c.config.toNat - c.io.virt.toNat + offset.toNat := by
  have hconfig := hin.config_toNat
  have h2 := hin.start
  have h3 := hin.stop
  have h4 := offset.toNat_lt
  have h5 := c.io.virt.toNat_lt
  have h6 := c.config.toNat_lt
  rw [UInt64.toNat_sub, UInt64.toNat_add, UInt32.toNat_toUInt64]
  omega

/-- A negative length that passes the check there is not cut off. -/
theorem Inside.clipLen_of_passed (hin : c.Inside)
    (hsize : c.io.size.toNat < 2 ^ 31)
    (hlt : c.config + offset.toUInt64 - c.io.virt < c.io.size)
    (hneg : ¬ 0 ≤ length.toInt)
    (hcheck : offset + length.toUInt32 ≤ c.configLen) :
    clipLen c.io (c.regionOffset offset) length = length := by
  have h2 := hin.start
  have h3 := hin.stop
  have hconfig := hin.config_toNat
  have hdist := hin.distance hsize offset
  have hcast := toNat_toUInt32_int length
  have hmin := length.le_toInt
  have hword := length.toUInt32.toNat_lt
  have hoffset := offset.toNat_lt
  have hlt' := UInt64.lt_iff_toNat_lt.mp hlt
  rw [if_neg hneg] at hcast
  rw [UInt32.le_iff_toNat_le, UInt32.toNat_add] at hcheck
  -- the sum came out small because the offset makes up for the length
  have hback : 0 ≤ offset.toNat + length.toInt := by
    by_contra hno
    rw [Nat.mod_eq_of_lt (by omega)] at hcheck
    omega
  have hint : (intToSize length).toNat = (length.toInt + 2 ^ 64).toNat := by
    rw [intToSize, UInt64.toNat_ofNat']
    omega
  rw [clipLen, if_neg]
  rw [UInt64.lt_iff_toNat_lt, UInt64.toNat_add, (hin.pointer_eq hlt).1, hint]
  rw [hdist] at hlt' ⊢
  omega

/-- In a region below two gigabytes only negative lengths deceive the
check. -/
theorem honest_small_iff (hin : c.Inside) (hsize : c.io.size.toNat < 2 ^ 31) :
    c.Honest offset length ↔ 0 ≤ length.toInt ∨
      c.configLen < offset + length.toUInt32 ∨
      c.io.virt.toNat + c.io.size.toNat ≤ c.config.toNat + offset.toNat := by
  have hconfig := hin.config_toNat
  have h1 := hin.nowrap
  have h2 := hin.start
  have h3 := hin.stop
  have hdist := hin.distance hsize offset
  have hcast := toNat_toUInt32_int length
  by_cases hlt : c.config + offset.toUInt64 - c.io.virt < c.io.size
  · obtain ⟨hoff, hptr⟩ := hin.pointer_eq hlt
    have hlt' := UInt64.lt_iff_toNat_lt.mp hlt
    rw [hdist] at hlt'
    have haddr : (c.config + offset.toUInt64).toNat =
        c.config.toNat + offset.toNat := by
      rw [UInt64.toNat_add, UInt32.toNat_toUInt64, Nat.mod_eq_of_lt (by omega)]
    have hmax := length.toInt_lt
    by_cases hneg : 0 ≤ length.toInt
    · exact iff_of_true (.counted hneg (by omega)) (.inl hneg)
    by_cases hstop : c.configLen < offset + length.toUInt32
    · exact iff_of_true (.stopped hstop) (.inr (.inl hstop))
    · refine iff_of_false (fun h => ?_) fun h => ?_
      · cases h with
        | stopped h => exact hstop h
        | counted hlength h => exact hneg hlength
        | outside h =>
          rw [← hptr, h, UInt64.toNat_zero] at haddr
          omega
        | empty h =>
          rw [hin.clipLen_of_passed hsize hlt hneg (UInt32.not_lt.mp hstop)] at h
          rw [h] at hneg
          exact hneg (by decide)
      · rcases h with h | h | h
        · exact hneg h
        · exact hstop h
        · omega
  · have hptr := pointer_eq_zero hlt
    rw [UInt64.lt_iff_toNat_lt, hdist] at hlt
    exact iff_of_true (.outside hptr) (.inr (.inr (by omega)))

end VdevConfig

/-- **Accesses to the config space are bounded** exactly if the check stops
them or has counted right, or nothing is copied. -/
theorem config_access_bounded_iff {c : VdevConfig} (hin : c.Inside)
    (offset : UInt32) (length : Int32) :
    c.Bounded offset length ↔ c.Honest offset length := by
  constructor
  · intro h
    by_contra hno
    have hcheck : offset + length.toUInt32 ≤ c.configLen :=
      UInt32.not_lt.mp fun hlt => hno (.stopped hlt)
    have hout : ¬ c.InConfig offset length := by
      intro hrange
      have hlen := c.configLen.toNat_lt
      have h2 := hrange.2
      exact hno (.counted hrange.1 (by omega))
    exact VdevConfig.not_bounded hcheck (fun hp => hno (.outside hp))
      (fun hc => hno (.empty hc)) hout h
  · intro h
    by_cases hrange : c.InConfig offset length
    · exact VdevConfig.bounded_of_inConfig hin hrange
    · refine VdevConfig.bounded_of_nil ?_ fun h => absurd h hrange
      cases h with
      | stopped h => exact VdevConfig.copied_of_stopped h
      | counted hlength h =>
        have hcheck := mt (VdevConfig.check_iff hlength h).mp hrange
        exact VdevConfig.copied_of_stopped (UInt32.not_le.mp hcheck)
      | outside h => exact VdevConfig.copied_of_outside h
      | empty h => exact VdevConfig.copied_of_empty h

/-- A device with two vrings and 24 bytes of config space, in a page. -/
def pageConfig : VdevConfig where
  rsc := 0x40080
  vringsNum := 2
  configLen := 24
  io := flatRegion 0x40000 0x80000 0x1000

theorem pageConfig_inside : pageConfig.Inside :=
  ⟨by decide, by decide, by decide⟩

theorem config_access_bounded_iff_page :
    pageConfig.Inside ∧ pageConfig.Bounded 4 8 :=
  ⟨pageConfig_inside, (config_access_bounded_iff pageConfig_inside 4 8).mpr
    (.counted (by decide) (by decide))⟩

/-- With offset 8 and length -8 the check sees zero, and four gigabytes but
for eight bytes are copied. -/
theorem config_access_unbounded :
    pageConfig.Inside ∧
    (∀ m dst, (pageConfig.rprocVirtioReadConfig m 8 dst (-8)).length =
      2 ^ 32 - 8) ∧
    ¬ pageConfig.Bounded 8 (-8) := by
  have hcheck : 8 + (-8 : Int32).toUInt32 ≤ pageConfig.configLen := by decide
  have hptr : pageConfig.pointer 8 ≠ 0 := by decide
  have hclip : clipLen pageConfig.io (pageConfig.regionOffset 8) (-8) = -8 := by
    decide
  refine ⟨pageConfig_inside, fun m dst => ?_, ?_⟩
  · rw [VdevConfig.rprocVirtioReadConfig,
      (VdevConfig.copied_tiles hcheck hptr dst).load, length_readBytes, hclip]
    decide
  · apply VdevConfig.not_bounded hcheck hptr
    · rw [hclip]
      decide
    · decide

end OpenAmp.Remoteproc
