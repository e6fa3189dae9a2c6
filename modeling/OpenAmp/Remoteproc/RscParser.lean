import OpenAmp.Lib.Traced
import OpenAmp.Remoteproc.Memory
import OpenAmp.Remoteproc.NotifyId

/-!
# Resource tables as bytes

`rsc_table_parser.c` over the memory the table lies in, with a record of
every access the parser makes through the table pointer. Offsets count
from the start of the table; what lies behind its `size` bytes is part
of the memory and can be read and written like them.

The two levels differ in what they take for granted: `RscTable` has the
entries apart from each other, here an entry may lie anywhere, also over
the header or another entry, and is read as the bytes found there.
-/

namespace OpenAmp.Remoteproc.Parser

open OpenAmp.Lib OpenAmp.Metal

def RSC_CARVEOUT : Nat := 0
def RSC_DEVMEM : Nat := 1
def RSC_TRACE : Nat := 2
def RSC_VDEV : Nat := 3
def RSC_LAST : Nat := 4
def RSC_VENDOR_START : Nat := 128
def RSC_VENDOR_END : Nat := 512

/-- What the parser is given besides the table: the memories and hooks
of the remote processor, its vendor handler by entry offset and length,
and the size of the table. -/
structure RscEnv where
  mems : List RemoteprocMem
  ops : MemOps
  handleRsc : Option (Nat → UInt32 → Int)
  size : UInt64

/-- What the handlers change. -/
structure RscState where
  mem : Mem
  bitmap : Bitmap

/-- The 32-bit word at `off`. -/
def word (m : Mem) (off : Nat) : UInt32 := UInt32.ofNat (loadLE m off 4)

section Handlers

variable (env : RscEnv)

def read32 (m : Mem) (off : Nat) : Traced Access UInt32 :=
  accessAt (word m off) off 4 env.size.toNat

def read8 (m : Mem) (off : Nat) : Traced Access UInt8 :=
  accessAt (m off) off 1 env.size.toNat

def write32 (m : Mem) (off : Nat) (v : UInt32) : Traced Access Mem :=
  accessAt (storeLE m off 4 v.toNat) off 4 env.size.toNat

/-- `handle_carve_out_rsc` on the entry at `off`. -/
def handleCarveOutRsc (off : Nat) (st : RscState) :
    Traced Access (Int × RscState) := do
  let reserved ← read32 env st.mem (off + 20)
  if reserved ≠ 0 then pure (-RPROC_ERR_RSC_TAB_RSVD, st)
  else
    let pa ← read32 env st.mem (off + 8)
    let da ← read32 env st.mem (off + 4)
    let len ← read32 env st.mem (off + 12)
    let _flags ← read32 env st.mem (off + 16)
    let va := (remoteprocMmap env.mems env.ops (some pa.toUInt64)
      (some da.toUInt64) len.toUInt64 none).va
    pure (if va ≠ 0 then 0 else -RPROC_EINVAL, st)

/-- `handle_trace_rsc`. -/
def handleTraceRsc (off : Nat) (st : RscState) :
    Traced Access (Int × RscState) := do
  let da ← read32 env st.mem (off + 4)
  if da ≠ FW_RSC_U32_ADDR_ANY then
    let len ← read32 env st.mem (off + 8)
    pure (if len ≠ 0 then 0 else -RPROC_ERR_RSC_TAB_NS, st)
  else pure (-RPROC_ERR_RSC_TAB_NS, st)

/-- Where vring `i` of the virtio entry at `off` keeps its notify id. -/
def vringNotifyid (off i : Nat) : Nat := off + 28 + 20 * i + 12

/-- The first loop after `err`: the ids of the vrings below `i` are
given back, the last first. -/
def releaseVrings (off : Nat) (m : Mem) :
    Nat → Bitmap → Traced Access Bitmap
  | 0, bitmap => pure bitmap
  | i + 1, bitmap => do
    let notifyid ← read32 env m (vringNotifyid off i)
    releaseVrings off m i (metalBitmapClearBit bitmap notifyid.toNat)

/-- The loop of `handle_vdev_rsc` with `left` vrings to go, at vring
`i`. -/
def vringLoop (off : Nat) : Nat → Nat → RscState →
    Traced Access (Int × RscState)
  | 0, _, st => pure (0, st)
  | left + 1, i, st => do
    let notifyid ← read32 env st.mem (vringNotifyid off i)
    let (notifyid, bitmap) := allocateNotifyId st.bitmap notifyid
    if notifyid ≠ RSC_NOTIFY_ID_ANY then
      let m ← write32 env st.mem (vringNotifyid off i) notifyid
      vringLoop off left (i + 1) ⟨m, bitmap⟩
    else
      let bitmap ← releaseVrings env off st.mem i bitmap
      let notifyid ← read32 env st.mem (off + 8)
      pure (-RPROC_ERR_RSC_TAB_NP,
        ⟨st.mem, metalBitmapClearBit bitmap notifyid.toNat⟩)

/-- `handle_vdev_rsc`. -/
def handleVdevRsc (off : Nat) (st : RscState) :
    Traced Access (Int × RscState) := do
  let notifyid ← read32 env st.mem (off + 8)
  let (notifyid, bitmap) := allocateNotifyId st.bitmap notifyid
  if notifyid ≠ RSC_NOTIFY_ID_ANY then
    let m ← write32 env st.mem (off + 8) notifyid
    let numVrings ← read8 env m (off + 25)
    vringLoop env off numVrings.toNat 0 ⟨m, bitmap⟩
  else pure (-RPROC_ERR_RSC_TAB_NP, ⟨st.mem, bitmap⟩)

/-- `handle_vendor_rsc`. -/
def handleVendorRsc (off : Nat) (st : RscState) :
    Traced Access (Int × RscState) :=
  match env.handleRsc with
  | some handleRsc => do
    let len ← read32 env st.mem (off + 4)
    pure (handleRsc off len, st)
  | none => pure (-RPROC_ERR_RSC_TAB_NS, st)

/-- What `handle_rsc_table` does with the entry at `off`, of the type
found there. An unknown type leaves `status` at the zero the previous
round left behind. -/
def handleRsc (off : Nat) (st : RscState) :
    Traced Access (Int × RscState) := do
  let type ← read32 env st.mem off
  if type.toNat = RSC_CARVEOUT then handleCarveOutRsc env off st
  else if type.toNat = RSC_DEVMEM then pure (-RPROC_ERR_RSC_TAB_NS, st)
  else if type.toNat = RSC_TRACE then handleTraceRsc env off st
  else if type.toNat = RSC_VDEV then handleVdevRsc env off st
  else if RSC_VENDOR_START ≤ type.toNat ∧ type.toNat ≤ RSC_VENDOR_END then
    handleVendorRsc env off st
  else pure (0, st)

/-- Whether the region refuses the address of the entry at `off`. -/
def outsideIo (base : UInt64) (io : Option MetalIoRegion) (off : UInt32) :
    Bool :=
  io.any fun io =>
    metalIoVirtToOffset io (base + off.toUInt64) = METAL_BAD_OFFSET

/-- The `for` loop of `handle_rsc_table`; `num` is read again every
round. -/
def rscLoop (base : UInt64) (io : Option MetalIoRegion) :
    Nat → Nat → RscState → Traced Access (Int × RscState)
  | 0, _, st => pure (0, st)
  | fuel + 1, idx, st => do
    let num ← read32 env st.mem 4
    if idx < num.toNat then
      let off ← read32 env st.mem (16 + 4 * idx)
      if outsideIo base io off then pure (-RPROC_ERR_RSC_TAB_TRUNC, st)
      else
        let (status, st) ← handleRsc env off.toNat st
        if status = 0 ∨ status = -RPROC_ERR_RSC_TAB_NS then
          rscLoop base io fuel (idx + 1) st
        else pure (status, st)
    else pure (0, st)

/-- `handle_rsc_table` on the table at address `base`. The index is a
32-bit number below `num`, so `2 ^ 32` rounds are enough. -/
def handleRscTable (base : UInt64) (io : Option MetalIoRegion)
    (st : RscState) : Traced Access (Int × RscState) :=
  if env.size < 16 then pure (-RPROC_ERR_RSC_TAB_TRUNC, st)
  else do
    let ver ← read32 env st.mem 0
    if ver ≠ RSC_TAB_SUPPORTED_VERSION then
      pure (-RPROC_ERR_RSC_TAB_VER, st)
    else
      let num ← read32 env st.mem 4
      -- the end of the offset array is kept in 32 bits
      if env.size.toNat < (16 + num.toNat * 4) % 2 ^ 32 then
        pure (-RPROC_ERR_RSC_TAB_TRUNC, st)
      else
        let reserved0 ← read32 env st.mem 8
        let reserved1 ← read32 env st.mem 12
        if reserved0 ≠ 0 ∨ reserved1 ≠ 0 then
          pure (-RPROC_ERR_RSC_TAB_RSVD, st)
        else rscLoop env base io (2 ^ 32) 0 st

end Handlers

/-! ## What an entry has to offer -/

/-- The requests `remoteproc_allocate_id` does not refuse. -/
def Grants (r : UInt32) : Prop := r = RSC_NOTIFY_ID_ANY ∨ r < 64

theorem allocateNotifyId_granted (b : Bitmap) (r : UInt32) :
    (allocateNotifyId b r).1 ≠ RSC_NOTIFY_ID_ANY ↔ Grants r := by
  constructor
  · intro h
    by_cases hany : r = RSC_NOTIFY_ID_ANY
    · exact .inl hany
    · refine .inr ?_
      by_contra hno
      exact h (by simp [allocateNotifyId, remoteprocAllocateId, hany, hno])
  · intro h
    have hlow : ∀ start stop : UInt32, stop ≤ 64 → 0 < stop →
        metalBitmapNextClearBit b start stop ≠ RSC_NOTIFY_ID_ANY ∧
        metalBitmapNextClearBit b start stop ≠ stop := by
      intro start stop hstop hpos
      have h1 := UInt32.le_iff_toNat_le.mp hstop
      have h2 := UInt32.lt_iff_toNat_lt.mp hpos
      have h3 : (metalBitmapNextClearBit b start stop).toNat < stop.toNat := by
        rw [metalBitmapNextClearBit, UInt32.toNat_mod]
        exact Nat.mod_lt _ (by simpa using h2)
      simp only [UInt32.reduceToNat] at h1
      constructor
      · intro heq
        rw [heq] at h3
        simp only [RSC_NOTIFY_ID_ANY, UInt32.reduceToNat] at h3
        omega
      · intro heq
        rw [heq] at h3
        omega
    rcases h with rfl | hlt
    · have h64 : UInt32.ofNat METAL_BITS_PER_ULONG = 64 := rfl
      have hne := hlow 0 64 (by decide) (by decide)
      simp [allocateNotifyId, remoteprocAllocateId, h64, hne.1, hne.2]
    · have hr := UInt32.lt_iff_toNat_lt.mp hlt
      simp only [UInt32.reduceToNat] at hr
      have hany : r ≠ RSC_NOTIFY_ID_ANY := by
        rintro rfl
        simp [RSC_NOTIFY_ID_ANY] at hr
      have hnext : (r + 1).toNat = r.toNat + 1 := by
        rw [UInt32.toNat_add, UInt32.toNat_one]
        omega
      have hany' : r + 1 ≠ RSC_NOTIFY_ID_ANY := by
        intro heq
        rw [heq] at hnext
        simp only [RSC_NOTIFY_ID_ANY, UInt32.reduceToNat] at hnext
        omega
      have hle : r + 1 ≤ 64 := by
        rw [UInt32.le_iff_toNat_le, hnext]
        exact hr
      have hpos : 0 < r + 1 := by
        rw [UInt32.lt_iff_toNat_lt, hnext]
        exact Nat.succ_pos _
      have hne := hlow r (r + 1) hle hpos
      simp [allocateNotifyId, remoteprocAllocateId, hany, hany', hlt, hle,
        hne.1, hne.2]

/-- The vrings of the virtio entry at `off` that its handler gets to:
each one before was granted its id. -/
def VringReached (m : Mem) (off i : Nat) : Prop :=
  ∀ j < i, Grants (word m (vringNotifyid off j))

/-- The fields that the handler of the entry at `off` uses lie in the
table, by the type found there. -/
structure EntryFits (env : RscEnv) (m : Mem) (off : Nat) : Prop where
  type : off + 4 ≤ env.size.toNat
  carveout : (word m off).toNat = RSC_CARVEOUT → off + 24 ≤ env.size.toNat
  trace : (word m off).toNat = RSC_TRACE → off + 8 ≤ env.size.toNat ∧
    (word m (off + 4) ≠ FW_RSC_U32_ADDR_ANY → off + 12 ≤ env.size.toNat)
  vdev : (word m off).toNat = RSC_VDEV → off + 12 ≤ env.size.toNat ∧
    (Grants (word m (off + 8)) → off + 26 ≤ env.size.toNat ∧
      ∀ i < (m (off + 25)).toNat, VringReached m off i →
        off + 28 + 20 * i + 16 ≤ env.size.toNat)
  vendor : RSC_VENDOR_START ≤ (word m off).toNat →
    (word m off).toNat ≤ RSC_VENDOR_END → env.handleRsc ≠ none →
    off + 8 ≤ env.size.toNat

variable {env : RscEnv} {off : Nat} {m : Mem} {st : RscState}

@[simp] theorem val_read32 : (read32 env m off).val = word m off := rfl

@[simp] theorem val_read8 : (read8 env m off).val = m off := rfl

@[simp] theorem val_write32 (v : UInt32) :
    (write32 env m off v).val = storeLE m off 4 v.toNat := rfl

theorem safe_read32 : (read32 env m off).Safe Access.Inside ↔
    off + 4 ≤ env.size.toNat := safe_accessAt ..

theorem safe_read8 : (read8 env m off).Safe Access.Inside ↔
    off + 1 ≤ env.size.toNat := safe_accessAt ..

theorem safe_write32 {v : UInt32} : (write32 env m off v).Safe Access.Inside ↔
    off + 4 ≤ env.size.toNat := safe_accessAt ..

theorem word_storeLE {a b : Nat} {v : Nat} (h : b + 4 ≤ a ∨ a + 4 ≤ b) :
    word (storeLE m a 4 v) b = word m b := by
  rw [word, word, loadLE_congr (agree_storeLE h)]

theorem safe_handleCarveOutRsc :
    (handleCarveOutRsc env off st).Safe Access.Inside ↔
      off + 24 ≤ env.size.toNat := by
  simp only [handleCarveOutRsc, Traced.safe_bind, Traced.safe_ite,
    safe_read32, Traced.safe_pure]
  constructor
  · rintro ⟨h, -⟩
    omega
  · intro h
    refine ⟨by omega, fun _ => trivial, fun _ => ?_⟩
    exact ⟨by omega, by omega, by omega, by omega, trivial⟩

theorem safe_handleTraceRsc :
    (handleTraceRsc env off st).Safe Access.Inside ↔
      off + 8 ≤ env.size.toNat ∧
      (word st.mem (off + 4) ≠ FW_RSC_U32_ADDR_ANY →
        off + 12 ≤ env.size.toNat) := by
  simp only [handleTraceRsc, Traced.safe_bind, Traced.safe_ite, safe_read32,
    Traced.safe_pure, and_true]
  simp only [val_read32]
  constructor
  · rintro ⟨h1, h2, -⟩
    exact ⟨by omega, fun hda => by have := h2 hda; omega⟩
  · rintro ⟨h1, h2⟩
    exact ⟨by omega, fun hda => by have := h2 hda; omega, fun _ => trivial⟩

theorem safe_releaseVrings (i : Nat) (bitmap : Bitmap)
    (h : ∀ j < i, off + 28 + 20 * j + 16 ≤ env.size.toNat) :
    (releaseVrings env off m i bitmap).Safe Access.Inside := by
  induction i generalizing bitmap with
  | zero => exact Traced.safe_pure _
  | succ i ih =>
    have hi := h i (by omega)
    simp only [releaseVrings, Traced.safe_bind, safe_read32]
    refine ⟨?_, ih _ fun j hj => h j (by omega)⟩
    simp only [vringNotifyid]
    omega

/-- The loop is safe when every vring it gets to is in the table. -/
theorem safe_vringLoop (left : Nat) : ∀ (i : Nat) (st : RscState),
    off + 12 ≤ env.size.toNat →
    (∀ j < i, off + 28 + 20 * j + 16 ≤ env.size.toNat) →
    ((vringLoop env off left i st).Safe Access.Inside ↔
      ∀ k < left,
        (∀ j < k, Grants (word st.mem (vringNotifyid off (i + j)))) →
        off + 28 + 20 * (i + k) + 16 ≤ env.size.toNat) := by
  induction left with
  | zero =>
    intro i st _ _
    simp [vringLoop]
  | succ left ih =>
    intro i st hvdev hdone
    have hhere : vringNotifyid off i + 4 = off + 28 + 20 * i + 16 := by
      simp only [vringNotifyid]
    simp only [vringLoop, Traced.safe_bind, safe_read32, Traced.safe_ite,
      safe_write32, hhere]
    simp only [val_read32, val_write32, allocateNotifyId_granted]
    by_cases hi : off + 28 + 20 * i + 16 ≤ env.size.toNat
    · have hdone' : ∀ j < i + 1, off + 28 + 20 * j + 16 ≤ env.size.toNat := by
        intro j hj
        by_cases hji : j = i
        · rw [hji]
          exact hi
        · exact hdone j (by omega)
      by_cases hg : Grants (word st.mem (vringNotifyid off i))
      · simp only [hi, hg, true_and, forall_const, not_true, false_imp_iff,
          and_true]
        rw [ih (i + 1) _ hvdev hdone']
        -- the id written at vring `i` is not seen at the later ones
        have hkeep : ∀ j : Nat,
            word (storeLE st.mem (vringNotifyid off i) 4 (allocateNotifyId
              st.bitmap (word st.mem (vringNotifyid off i))).1.toNat)
              (vringNotifyid off (i + 1 + j)) =
            word st.mem (vringNotifyid off (i + (j + 1))) := by
          intro j
          rw [word_storeLE (by simp only [vringNotifyid]; omega)]
          congr 2
          omega
        simp only [hkeep]
        constructor
        · rintro h k hk hgr
          cases k with
          | zero => simpa using hi
          | succ k =>
            have := h k (by omega) fun j hj => hgr (j + 1) (by omega)
            omega
        · rintro h k hk hgr
          have := h (k + 1) (by omega) fun j hj => by
            cases j with
            | zero => simpa using hg
            | succ j => exact hgr j (by omega)
          omega
      · simp only [hi, hg, true_and, false_imp_iff, not_false_eq_true,
          forall_const, Traced.safe_pure, and_true]
        constructor
        · rintro - k hk hgr
          cases k with
          | zero => simpa using hi
          | succ k => exact absurd (by simpa using hgr 0 (by omega)) hg
        · intro _
          exact ⟨safe_releaseVrings i _ hdone, by omega⟩
    · simp only [hi, false_and, false_iff]
      intro h
      exact hi (by simpa using h 0 (by omega) (fun j hj => by omega))

theorem safe_handleVdevRsc :
    (handleVdevRsc env off st).Safe Access.Inside ↔
      off + 12 ≤ env.size.toNat ∧
      (Grants (word st.mem (off + 8)) → off + 26 ≤ env.size.toNat ∧
        ∀ i < (st.mem (off + 25)).toNat, VringReached st.mem off i →
          off + 28 + 20 * i + 16 ≤ env.size.toNat) := by
  have h8 : off + 8 + 4 = off + 12 := by omega
  simp only [handleVdevRsc, Traced.safe_bind, safe_read32, safe_write32,
    safe_read8, Traced.safe_ite, Traced.safe_pure, h8, implies_true, and_true]
  simp only [val_read32, val_write32, val_read8, allocateNotifyId_granted]
  refine and_congr_right fun h12 => ?_
  refine forall_congr' fun hg => ?_
  simp only [h12, true_and]
  refine and_congr (by omega) ?_
  rw [safe_vringLoop _ 0 _ h12 (fun j hj => by omega)]
  -- the notify id of the device lies before everything read afterwards
  have hnum : storeLE st.mem (off + 8) 4
      (allocateNotifyId st.bitmap (word st.mem (off + 8))).1.toNat (off + 25) =
      st.mem (off + 25) :=
    storeLE_of_not _ _ _ _ (by omega)
  have hvring : ∀ j : Nat, word (storeLE st.mem (off + 8) 4
      (allocateNotifyId st.bitmap (word st.mem (off + 8))).1.toNat)
      (vringNotifyid off j) = word st.mem (vringNotifyid off j) :=
    fun j => word_storeLE (by simp only [vringNotifyid]; omega)
  simp only [hnum, hvring, Nat.zero_add, VringReached]

theorem safe_handleVendorRsc :
    (handleVendorRsc env off st).Safe Access.Inside ↔
      (env.handleRsc ≠ none → off + 8 ≤ env.size.toNat) := by
  unfold handleVendorRsc
  split
  · next h =>
    simp only [h, ne_eq, reduceCtorEq, not_false_eq_true, forall_const,
      Traced.safe_bind, safe_read32, Traced.safe_pure, and_true]
  · next h => simp [h]

/-- An entry is handled inside the table exactly when it fits. -/
theorem safe_handleRsc :
    (handleRsc env off st).Safe Access.Inside ↔ EntryFits env st.mem off := by
  simp only [handleRsc, Traced.safe_bind, safe_read32, Traced.safe_ite,
    safe_handleCarveOutRsc, safe_handleTraceRsc, safe_handleVdevRsc,
    safe_handleVendorRsc, Traced.safe_pure, implies_true, true_and, and_true]
  simp only [val_read32]
  constructor
  · rintro ⟨h, hc, hrest⟩
    refine ⟨h, hc, fun ht => ?_, fun hv => ?_, fun h1 h2 h3 => ?_⟩
    · exact (hrest (by rw [ht]; decide) (by rw [ht]; decide)).1 ht
    · exact ((hrest (by rw [hv]; decide) (by rw [hv]; decide)).2
        (by rw [hv]; decide)).1 hv
    · simp only [RSC_VENDOR_START] at h1
      have hne : ∀ k < 128, ¬ (word st.mem off).toNat = k := by omega
      exact ((hrest (hne _ (by decide)) (hne _ (by decide))).2
        (hne _ (by decide))).2 (hne _ (by decide)) ⟨h1, h2⟩ h3
  · intro h
    refine ⟨h.type, h.carveout, fun _ _ => ⟨h.trace, fun _ => ⟨h.vdev, ?_⟩⟩⟩
    exact fun _ hr => h.vendor hr.1 hr.2

/-! ## The whole table -/

/-- The entry count in the header, as far as the table is intact. -/
def numEntries (m : Mem) : Nat := (word m 4).toNat

/-- Where entry `idx` begins, by the offset array. -/
def entryOffset (m : Mem) (idx : Nat) : UInt32 := word m (16 + 4 * idx)

section Loop

variable {base : UInt64} {io : Option MetalIoRegion}

/-- The loop at entry `idx` gets to entry `idx'`: all entries in between
are in the region and handled without error. -/
inductive Reaches (env : RscEnv) (base : UInt64) (io : Option MetalIoRegion) :
    RscState → Nat → RscState → Nat → Prop where
  | here (st : RscState) (idx : Nat) : Reaches env base io st idx st idx
  | next {st st' : RscState} {idx idx' : Nat}
      (hnum : idx < numEntries st.mem)
      (hio : outsideIo base io (entryOffset st.mem idx) = false)
      (hok : (handleRsc env (entryOffset st.mem idx).toNat st).val.1 = 0 ∨
        (handleRsc env (entryOffset st.mem idx).toNat st).val.1 =
          -RPROC_ERR_RSC_TAB_NS)
      (hrest : Reaches env base io
        (handleRsc env (entryOffset st.mem idx).toNat st).val.2 (idx + 1)
        st' idx') :
      Reaches env base io st idx st' idx'

theorem Reaches.le {st st' : RscState} {idx idx' : Nat}
    (h : Reaches env base io st idx st' idx') : idx ≤ idx' := by
  induction h with
  | here => exact Nat.le_refl _
  | next _ _ _ _ ih => omega

/-- The offset of the entry, and unless the region refuses it the entry
itself, lie in the table. -/
def AtFits (env : RscEnv) (base : UInt64) (io : Option MetalIoRegion)
    (st : RscState) (idx : Nat) : Prop :=
  16 + 4 * idx + 4 ≤ env.size.toNat ∧
    (outsideIo base io (entryOffset st.mem idx) = false →
      EntryFits env st.mem (entryOffset st.mem idx).toNat)

theorem safe_rscLoop (hsize : 16 ≤ env.size.toNat) (fuel : Nat) :
    ∀ (idx : Nat) (st : RscState), 2 ^ 32 ≤ idx + fuel →
    ((rscLoop env base io fuel idx st).Safe Access.Inside ↔
      ∀ st' idx', Reaches env base io st idx st' idx' →
        idx' < numEntries st'.mem → AtFits env base io st' idx') := by
  induction fuel with
  | zero =>
    intro idx st hfuel
    -- no index reaches this far
    have hno : ∀ st' idx', Reaches env base io st idx st' idx' →
        ¬ idx' < numEntries st'.mem := by
      intro st' idx' h hlt
      have h1 := h.le
      have h2 := (word st'.mem 4).toNat_lt
      simp only [numEntries] at hlt
      omega
    exact ⟨fun _ st' idx' h hlt => absurd hlt (hno st' idx' h),
      fun _ => Traced.safe_pure _⟩
  | succ fuel ih =>
    intro idx st hfuel
    have hnum : 4 + 4 ≤ env.size.toNat := by omega
    simp only [rscLoop, Traced.safe_bind, safe_read32, Traced.safe_ite,
      Traced.safe_pure, hnum, true_and, safe_handleRsc, implies_true, and_true]
    simp only [val_read32]
    constructor
    · rintro h st' idx' hreach hlt
      cases hreach with
      | here =>
        obtain ⟨hoff, hrest⟩ := h hlt
        exact ⟨hoff, fun hio =>
          (hrest (by simpa [entryOffset] using hio)).1⟩
      | next hlt' hio hok hrest =>
        obtain ⟨-, hentry⟩ := h hlt'
        have hsafe := (hentry (by simpa [entryOffset] using hio)).2 hok
        exact (ih _ _ (by omega)).mp hsafe st' idx' hrest hlt
    · intro h hlt
      obtain ⟨hoff, hfit⟩ := h st idx (.here st idx) hlt
      refine ⟨hoff, fun hio => ?_⟩
      have hio' : outsideIo base io (entryOffset st.mem idx) = false := by
        simpa [entryOffset] using hio
      refine ⟨hfit hio', fun hok => ?_⟩
      rw [ih _ _ (by omega)]
      exact fun st' idx' hreach => h st' idx' (.next hlt hio' hok hreach)

/-- The table is turned down by its header alone. -/
def HeaderRejected (env : RscEnv) (m : Mem) : Prop :=
  env.size < 16 ∨ word m 0 ≠ RSC_TAB_SUPPORTED_VERSION ∨
    env.size.toNat < (16 + numEntries m * 4) % 2 ^ 32 ∨
    word m 8 ≠ 0 ∨ word m 12 ≠ 0

theorem safe_handleRscTable (env : RscEnv) (base : UInt64)
    (io : Option MetalIoRegion) (st : RscState) :
    (handleRscTable env base io st).Safe Access.Inside ↔
      HeaderRejected env st.mem ∨
      ∀ st' idx, Reaches env base io st 0 st' idx →
        idx < numEntries st'.mem → AtFits env base io st' idx := by
  by_cases hsize : env.size < 16
  · simp [handleRscTable, HeaderRejected, hsize]
  · have h16 : 16 ≤ env.size.toNat := by
      rw [UInt64.lt_iff_toNat_lt] at hsize
      simpa using hsize
    have h0 : 0 + 4 ≤ env.size.toNat := by omega
    have h4 : 4 + 4 ≤ env.size.toNat := by omega
    have h8 : 8 + 4 ≤ env.size.toNat := by omega
    have h12 : 12 + 4 ≤ env.size.toNat := by omega
    simp only [handleRscTable, if_neg hsize, Traced.safe_bind, safe_read32,
      Traced.safe_ite, Traced.safe_pure, h0, h4, h8, h12, true_and,
      implies_true]
    simp only [val_read32, HeaderRejected, hsize, false_or]
    rw [safe_rscLoop h16 (2 ^ 32) 0 st (by omega)]
    simp only [numEntries]
    tauto

theorem HeaderRejected.status {env : RscEnv} {st : RscState}
    (h : HeaderRejected env st.mem) (base : UInt64)
    (io : Option MetalIoRegion) :
    (handleRscTable env base io st).val.1 < 0 := by
  unfold handleRscTable
  by_cases hsize : env.size < 16
  · rw [if_pos hsize]
    exact (by decide : -RPROC_ERR_RSC_TAB_TRUNC < 0)
  rw [if_neg hsize]
  simp only [Traced.val_bind, Traced.val_ite, Traced.val_pure]
  split
  · exact (by decide : -RPROC_ERR_RSC_TAB_VER < 0)
  next hver =>
  split
  · exact (by decide : -RPROC_ERR_RSC_TAB_TRUNC < 0)
  next htrunc =>
  split
  · exact (by decide : -RPROC_ERR_RSC_TAB_RSVD < 0)
  next hres =>
  simp only [val_read32] at hver htrunc hres
  simp only [HeaderRejected, numEntries] at h
  tauto

/-- The parser comes to an entry that does not lie in the table. -/
def Strays (env : RscEnv) (base : UInt64) (io : Option MetalIoRegion)
    (st : RscState) : Prop :=
  ∃ st' idx, Reaches env base io st 0 st' idx ∧ idx < numEntries st'.mem ∧
    ¬ AtFits env base io st' idx

/-- Every access is inside the table, and a table where that cannot be
is turned down. -/
structure StaysInside (env : RscEnv) (base : UInt64)
    (io : Option MetalIoRegion) (st : RscState) : Prop where
  inside : (handleRscTable env base io st).Safe Access.Inside
  rejects : Strays env base io st →
    (handleRscTable env base io st).val.1 < 0

/-- **The parser stays inside the table** exactly when the header stops
it, or every entry it gets to has its offset and all the fields its
handler uses inside. -/
theorem rsc_table_inside_iff (env : RscEnv) (base : UInt64)
    (io : Option MetalIoRegion) (st : RscState) :
    StaysInside env base io st ↔
      HeaderRejected env st.mem ∨
      ∀ st' idx, Reaches env base io st 0 st' idx →
        idx < numEntries st'.mem → AtFits env base io st' idx := by
  constructor
  · exact fun h => (safe_handleRscTable env base io st).mp h.inside
  · intro h
    refine ⟨(safe_handleRscTable env base io st).mpr h, ?_⟩
    rintro ⟨st', idx, hreach, hlt, hno⟩
    rcases h with hrej | hall
    · exact hrej.status base io
    · exact absurd (hall st' idx hreach hlt) hno

end Loop

/-- A table of one entry, at `0x1000`, with only twenty bytes to it;
everything behind it reads as twos. -/
def strayTable : RscState where
  mem := fun a => [1, 0, 0, 0, 1, 0, 0, 0, 0, 0, 0, 0, 0, 0, 0, 0, 0, 0x10,
    0, 0].getD a 2
  bitmap := fun _ => 0

/-- The entry outside is read, and the table accepted. -/
theorem rsc_table_read_outside :
    (handleRscTable ⟨[], ⟨none, none⟩, none, 20⟩ 0 none strayTable).val.1 = 0 ∧
    ¬ StaysInside ⟨[], ⟨none, none⟩, none, 20⟩ 0 none strayTable := by
  constructor
  · decide +kernel
  · intro h
    have hsafe := h.inside
    revert hsafe
    unfold Traced.Safe
    decide +kernel

end OpenAmp.Remoteproc.Parser
