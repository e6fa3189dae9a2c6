import OpenAmp.Remoteproc.RingSetup
import OpenAmp.Remoteproc.Rollback

/-!
# Addresses left to the host

Firmware that is not linked to fixed addresses puts `FW_RSC_U32_ADDR_ANY`
in an entry and expects to find there the address the host has chosen.
The host asks its `mmap` hook; the hook chooses where it is given
`METAL_BAD_PHYS`.

An entry has 32 bits for the address and the hook is asked with 64, so that
the two ways to say "any" are different addresses. The answer, too, stays
where it is: `handle_carve_out_rsc` and `remoteproc_create_virtio` have
copied the address before.
-/

namespace OpenAmp.Remoteproc.Parser

open OpenAmp.Interface OpenAmp.Lib OpenAmp.Metal OpenAmp.Virtio

/-! ## Questions to the hook -/

/-- The arguments of the `mmap` hook. -/
structure MmapCall where
  pa : UInt64
  da : UInt64
  size : UInt64
deriving DecidableEq, Repr

/-- The call of the hook that `remoteproc_mmap` makes, if it makes one. -/
def mmapAsk (env : RscEnv) (pa da : Option UInt64) (size : UInt64) :
    Option MmapCall :=
  let lpa := pa.getD METAL_BAD_PHYS
  let lda := da.getD METAL_BAD_PHYS
  if size = 0 ∨ (pa = none ∧ da = none) then none
  else
    match remoteprocGetMem env.mems env.ops none lpa lda 0 size with
    | some _ => none
    | none => env.ops.mmap.map fun _ => ⟨lpa, lda, size⟩

/-- Where the hook is called, its answer is the mapping. -/
theorem remoteprocMmap_of_ask {env : RscEnv} {pa da : Option UInt64}
    {size : UInt64} {call : MmapCall} (h : mmapAsk env pa da size = some call)
    (io : Option MetalIoRegion) :
    ∃ mmap, env.ops.mmap = some mmap ∧
      remoteprocMmap env.mems env.ops pa da size io =
        { mmap call.pa call.da call.size with
          io := (mmap call.pa call.da call.size).io.or io } := by
  simp only [mmapAsk] at h
  split at h
  · cases h
  next hgiven =>
  split at h
  · cases h
  next hmem =>
  obtain ⟨mmap, hmmap, rfl⟩ := Option.map_eq_some_iff.mp h
  refine ⟨mmap, hmmap, ?_⟩
  simp only [remoteprocMmap, if_neg hgiven, hmem, hmmap]

/-- The hook is asked with the device address the caller has. -/
theorem mmapAsk_da {env : RscEnv} {pa : Option UInt64} {da size : UInt64}
    {call : MmapCall} (h : mmapAsk env pa (some da) size = some call) :
    call.da = da := by
  simp only [mmapAsk] at h
  split at h
  · cases h
  split at h
  · cases h
  · obtain ⟨_, -, rfl⟩ := Option.map_eq_some_iff.mp h
    rfl

/-- No 32-bit address is the one that means none is given. -/
theorem toUInt64_ne_bad (w : UInt32) : w.toUInt64 ≠ METAL_BAD_PHYS := by
  intro h
  have hw := w.toNat_lt
  have hbad := congrArg UInt64.toNat h
  rw [UInt32.toNat_toUInt64, show METAL_BAD_PHYS.toNat = 2 ^ 64 - 1 from rfl]
    at hbad
  omega

/-- The hook chooses an address where it is given none. -/
def PicksAddress (ops : MemOps) : Prop :=
  ∃ mmap, ops.mmap = some mmap ∧ ∀ size, size ≠ 0 →
    (mmap METAL_BAD_PHYS METAL_BAD_PHYS size).va ≠ 0 ∧
    (mmap METAL_BAD_PHYS METAL_BAD_PHYS size).da ≠ METAL_BAD_PHYS

/-- The hook was asked to choose, and its choice is `da`. -/
def Negotiated (ops : MemOps) (ask : Option MmapCall) (da : UInt32) : Prop :=
  ∃ mmap call, ops.mmap = some mmap ∧ ask = some call ∧
    call.da = METAL_BAD_PHYS ∧
    da.toUInt64 = (mmap call.pa call.da call.size).da

theorem not_negotiated {env : RscEnv} {pa : Option UInt64} {w : UInt32}
    {size : UInt64} (da : UInt32) :
    ¬ Negotiated env.ops (mmapAsk env pa (some w.toUInt64) size) da := by
  rintro ⟨_, call, -, hask, hbad, -⟩
  exact toUInt64_ne_bad w ((mmapAsk_da hask).symm.trans hbad)

/-! ## Carveouts -/

/-- The entry is a carveout whose device address is left to the host. -/
structure AnyCarveout (m : Mem) (off : Nat) : Prop where
  type : (word m off).toNat = RSC_CARVEOUT
  da : word m (off + 4) = FW_RSC_U32_ADDR_ANY

/-- The question that `handle_carve_out_rsc` puts to the hook. -/
def carveoutAsk (env : RscEnv) (m : Mem) (off : Nat) : Option MmapCall :=
  mmapAsk env (some (word m (off + 8)).toUInt64)
    (some (word m (off + 4)).toUInt64) (word m (off + 12)).toUInt64

section Table

variable (env : Nat → RscEnv) (base : UInt64) (io : Option MetalIoRegion)

/-- The loop at entry `idx` hands entry `idx'` to its handler. -/
inductive HandedFrom : RscState → Nat → RscState → Nat → Prop where
  | here {st : RscState} {idx : Nat} (hnum : idx < numEntries st.mem)
      (hio : outsideIo base io (entryOffset st.mem idx) = false) :
      HandedFrom st idx st idx
  | later {st st' : RscState} {idx idx' : Nat}
      (hnum : idx < numEntries st.mem)
      (hio : outsideIo base io (entryOffset st.mem idx) = false)
      (h : ¬ EntryRefused (env idx) st.mem (entryOffset st.mem idx).toNat)
      (hrest : HandedFrom
        (handleRsc (env idx) (entryOffset st.mem idx).toNat st).val.2
        (idx + 1) st' idx') :
      HandedFrom st idx st' idx'

/-- `handle_rsc_table` hands entry `idx` to its handler, in state `st'`. -/
def Handed (st st' : RscState) (idx : Nat) : Prop :=
  ¬ HeaderRejected (env 0) st.mem ∧ HandedFrom env base io st 0 st' idx

/-- Every carveout whose address is left to the host, if it is accepted, has
in the end the address that the hook has chosen for it. -/
def CarveoutsNegotiated (st : RscState) : Prop :=
  ∀ st' idx, Handed env base io st st' idx →
    let off := (entryOffset st'.mem idx).toNat
    AnyCarveout st'.mem off → (handleRsc (env idx) off st').val.1 = 0 →
    Negotiated (env idx).ops (carveoutAsk (env idx) st'.mem off)
      (word (handleRscTableAt env base io st).val.2.mem (off + 4))

/-- Every such carveout is turned down. -/
def CarveoutsRefused (st : RscState) : Prop :=
  ∀ st' idx, Handed env base io st st' idx →
    AnyCarveout st'.mem (entryOffset st'.mem idx).toNat →
    EntryRefused (env idx) st'.mem (entryOffset st'.mem idx).toNat

end Table

/-- A carveout is accepted or turned down; nothing else. -/
theorem carveout_accepted_iff {env : RscEnv} {off : Nat} {st : RscState}
    (htype : (word st.mem off).toNat = RSC_CARVEOUT) :
    (handleRsc env off st).val.1 = 0 ↔ ¬ EntryRefused env st.mem off := by
  have hns : (handleRsc env off st).val.1 ≠ -RPROC_ERR_RSC_TAB_NS := by
    rw [handleRsc_val, if_pos htype, handleCarveOutRsc_val]
    show (if _ then -RPROC_ERR_RSC_TAB_RSVD else if _ then 0 else -RPROC_EINVAL)
      ≠ _
    split
    · decide
    split <;> decide
  rw [entryRefused_iff, not_not, or_iff_left hns]

theorem carveouts_negotiated_iff (env : Nat → RscEnv) (base : UInt64)
    (io : Option MetalIoRegion) (st : RscState) :
    CarveoutsNegotiated env base io st ↔ CarveoutsRefused env base io st := by
  constructor
  · intro h st' idx hhanded hany
    by_contra hno
    have hacc := (carveout_accepted_iff hany.type).mpr hno
    exact not_negotiated _ (h st' idx hhanded hany hacc)
  · intro h st' idx hhanded off hany hacc
    exact absurd (h st' idx hhanded hany)
      ((carveout_accepted_iff hany.type).mp hacc)

/-! ## Vrings -/

/-- Where vring `i` of the virtio entry at `off` begins. -/
def vringOff (off i : Nat) : Nat := off + 28 + 20 * i

/-- Vring `i` of the virtio entry at `off`. -/
def vringRsc (m : Mem) (off i : Nat) : FwRscVdevVring where
  da := word m (vringOff off i)
  align := word m (vringOff off i + 4)
  num := word m (vringOff off i + 8)
  notifyid := word m (vringOff off i + 12)

/-- The mapping that `remoteproc_create_virtio` makes for a vring. -/
def mapVring (env : RscEnv) (rsc : FwRscVdevVring) : MmapResult :=
  remoteprocMmap env.mems env.ops none (some rsc.da.toUInt64)
    (sizeOfInt (vringSize rsc.num rsc.align.toUInt64)) none

/-- The question it puts to the hook. -/
def vringAsk (env : RscEnv) (rsc : FwRscVdevVring) : Option MmapCall :=
  mmapAsk env none (some rsc.da.toUInt64)
    (sizeOfInt (vringSize rsc.num rsc.align.toUInt64))

/-- The `for` loop of `remoteproc_create_virtio` over the table, at vring `i`
with `left` to go; `env i` is the platform as vring number `i` meets it. -/
def createVringsFrom (env : Nat → RscEnv) (m : Mem) (off vringsNum : Nat) :
    Nat → Nat → Option (List VringAllocInfo)
  | 0, _ => some []
  | left + 1, i =>
    let rsc := vringRsc m off i
    let va := (mapVring (env i) rsc).va
    if va = 0 then none
    else
      match rprocVirtioInitVring vringsNum i va rsc.num rsc.align with
      | none => none
      | some info =>
        (createVringsFrom env m off vringsNum left (i + 1)).map (info :: ·)

/-- `rproc_virtio_negotiate_features` as `rproc_virtio_create_vdev` calls
it, with all the features the entry offers. -/
def negotiateAllFeatures (base : UInt64) (io : MetalIoRegion) (m : Mem)
    (off : Nat) : Mem :=
  if metalIoVirtToOffset io (base + UInt64.ofNat (off + 16)) =
      METAL_BAD_OFFSET then m
  else storeLE m (off + 16) 4 (word m (off + 12)).toNat

/-- `remoteproc_create_virtio` from `rproc_virtio_create_vdev` on, for the
virtio entry at `off` of the table at `base`: the vrings of the device, if
it is returned, and the table afterwards. -/
def createVirtio (env : Nat → RscEnv) (base : UInt64) (io : MetalIoRegion)
    (role : VirtioRole) (m : Mem) (off : Nat) :
    Option (List VringAllocInfo) × Mem :=
  let m := match role with
    | .driver => negotiateAllFeatures base io m off
    | .device => m
  let num := (m (off + 25)).toNat
  (createVringsFrom env m off num num 0, m)

/-- On a platform that does not change this is the loop over the vrings. -/
theorem createVringsFrom_eq (env : RscEnv) (m : Mem) (off vringsNum left : Nat) :
    ∀ i, createVringsFrom (fun _ => env) m off vringsNum left i =
      createVringLoop env.mems env.ops vringsNum i
        ((List.range' i left).map (vringRsc m off)) := by
  induction left with
  | zero => exact fun _ => rfl
  | succ left ih =>
    intro i
    rw [List.range'_succ, List.map_cons, createVringsFrom, createVringLoop,
      ← ih (i + 1)]
    rfl

/-- The vring cannot be set up: nothing maps it, or it has too many
entries. -/
def VringRefused (env : RscEnv) (rsc : FwRscVdevVring) : Prop :=
  (mapVring env rsc).va = 0 ∨ RPROC_MAX_VRING_DESC < rsc.num

theorem createVringsFrom_isSome_iff {env : Nat → RscEnv} {m : Mem}
    {off vringsNum : Nat} (left : Nat) : ∀ i, i + left ≤ vringsNum →
    ((createVringsFrom env m off vringsNum left i).isSome ↔
      ∀ j, i ≤ j → j < i + left → ¬ VringRefused (env j) (vringRsc m off j)) := by
  induction left with
  | zero =>
    intro i _
    exact iff_of_true rfl fun j h1 h2 => absurd h2 (by omega)
  | succ left ih =>
    intro i hle
    have hrest := ih (i + 1) (by omega)
    have hidx : ¬ vringsNum ≤ i := by omega
    by_cases hva : (mapVring (env i) (vringRsc m off i)).va = 0
    · simp only [createVringsFrom, hva, if_true, Option.isSome_none,
        Bool.false_eq_true, false_iff]
      exact fun h => h i (Nat.le_refl i) (by omega) (.inl hva)
    by_cases hnum : RPROC_MAX_VRING_DESC < (vringRsc m off i).num
    · simp only [createVringsFrom, hva, if_false, rprocVirtioInitVring, hnum,
        or_true, if_true, Option.isSome_none, Bool.false_eq_true, false_iff]
      exact fun h => h i (Nat.le_refl i) (by omega) (.inr hnum)
    · simp only [createVringsFrom, hva, if_false, rprocVirtioInitVring, hnum,
        hidx, or_self, Option.isSome_map, hrest]
      constructor
      · intro h j h1 h2
        rcases Nat.eq_or_lt_of_le h1 with rfl | hlt
        · exact fun hr => hr.elim hva hnum
        · exact h j hlt (by omega)
      · exact fun h j h1 h2 => h j (by omega) (by omega)

section Create

variable (env : Nat → RscEnv) (base : UInt64) (io : MetalIoRegion)
  (role : VirtioRole) (m : Mem) (off : Nat)

/-- Every vring whose address is left to the host, if the device is
returned, has in the end the address that the hook has chosen for it. -/
def VringsNegotiated : Prop :=
  ∀ i < (m (off + 25)).toNat, word m (vringOff off i) = FW_RSC_U32_ADDR_ANY →
    (createVirtio env base io role m off).1.isSome →
    Negotiated (env i).ops (vringAsk (env i) (vringRsc m off i))
      (word (createVirtio env base io role m off).2 (vringOff off i))

/-- Every device with such a vring is turned down. -/
def VringsRefused : Prop :=
  ∀ i < (m (off + 25)).toNat, word m (vringOff off i) = FW_RSC_U32_ADDR_ANY →
    ∃ j < (m (off + 25)).toNat, VringRefused (env j) (vringRsc m off j)

end Create

/-- What is stored in the entry lies before its vrings. -/
theorem createVirtio_agree (env : Nat → RscEnv) (base : UInt64)
    (io : MetalIoRegion) (role : VirtioRole) (m : Mem) (off : Nat) (n : Nat) :
    Agree m (createVirtio env base io role m off).2 (off + 20) n := by
  cases role with
  | device => exact fun _ _ _ => rfl
  | driver =>
    show Agree m (negotiateAllFeatures base io m off) (off + 20) n
    unfold negotiateAllFeatures
    split
    · exact fun _ _ _ => rfl
    · exact agree_storeLE (.inr (Nat.le_refl _))

/-- Memories that are the same behind the first words of the entry have the
same vrings there. -/
theorem vringRsc_congr {m m' : Mem} {off : Nat}
    (h : ∀ n, Agree m m' (off + 20) n) (i : Nat) :
    vringRsc m' off i = vringRsc m off i := by
  have hword : ∀ a, off + 20 ≤ a → word m' a = word m a := by
    intro a ha
    rw [word, word, loadLE_congr ((h (a - off)).mono ha (by omega))]
  simp only [vringRsc, vringOff]
  rw [hword _ (by omega), hword _ (by omega), hword _ (by omega),
    hword _ (by omega)]

theorem createVirtio_isSome_iff (env : Nat → RscEnv) (base : UInt64)
    (io : MetalIoRegion) (role : VirtioRole) (m : Mem) (off : Nat) :
    (createVirtio env base io role m off).1.isSome ↔
      ∀ j < (m (off + 25)).toNat, ¬ VringRefused (env j) (vringRsc m off j) := by
  have hagree := createVirtio_agree env base io role m off
  have hnum : (createVirtio env base io role m off).2 (off + 25) =
      m (off + 25) :=
    hagree 6 (off + 25) (by omega) (by omega)
  have hval : (createVirtio env base io role m off).1 =
      createVringsFrom env (createVirtio env base io role m off).2 off
        ((createVirtio env base io role m off).2 (off + 25)).toNat
        ((createVirtio env base io role m off).2 (off + 25)).toNat 0 := rfl
  rw [hval, hnum, createVringsFrom_isSome_iff _ 0 (by omega)]
  simp only [vringRsc_congr hagree, Nat.zero_le, Nat.zero_add, true_imp_iff]

theorem vrings_negotiated_iff (env : Nat → RscEnv) (base : UInt64)
    (io : MetalIoRegion) (role : VirtioRole) (m : Mem) (off : Nat) :
    VringsNegotiated env base io role m off ↔ VringsRefused env m off := by
  have hsome := createVirtio_isSome_iff env base io role m off
  constructor
  · intro h i hi hany
    by_contra hno
    refine not_negotiated _ (h i hi hany (hsome.mpr fun j hj hr => ?_))
    exact hno ⟨j, hj, hr⟩
  · intro h i hi hany hacc
    obtain ⟨j, hj, hr⟩ := h i hi hany
    exact absurd hr (hsome.mp hacc j hj)

/-- **An address left to the host is never negotiated**: a table and a device
keep the promise only where they turn every such entry down. -/
theorem any_address_negotiated_iff (env : Nat → RscEnv) (base : UInt64) :
    (∀ (io : Option MetalIoRegion) (st : RscState),
      CarveoutsNegotiated env base io st ↔ CarveoutsRefused env base io st) ∧
    ∀ (io : MetalIoRegion) (role : VirtioRole) (m : Mem) (off : Nat),
      VringsNegotiated env base io role m off ↔ VringsRefused env m off :=
  ⟨carveouts_negotiated_iff env base, vrings_negotiated_iff env base⟩

/-- A hook that maps what it is asked for at `0x50000`, and chooses
`0x10000` where it is asked for nothing. -/
def choosyHook (pa da : UInt64) (_size : UInt64) : MmapResult :=
  if pa = METAL_BAD_PHYS ∧ da = METAL_BAD_PHYS then
    ⟨0x40000, 0x80000, 0x10000, none⟩
  else ⟨0x50000, pa, da, none⟩

/-- A table with a carveout of 256 bytes and a device with one vring of
eight entries, both without an address. -/
def anyTable : Mem := fun a =>
  [1, 0, 0, 0, 2, 0, 0, 0, 0, 0, 0, 0, 0, 0, 0, 0, 24, 0, 0, 0, 80, 0, 0, 0,
    0, 0, 0, 0, 0xFF, 0xFF, 0xFF, 0xFF, 0xFF, 0xFF, 0xFF, 0xFF, 0, 1, 0, 0,
    0, 0, 0, 0, 0, 0, 0, 0, 0, 0, 0, 0, 0, 0, 0, 0, 0, 0, 0, 0, 0, 0, 0, 0,
    0, 0, 0, 0, 0, 0, 0, 0, 0, 0, 0, 0, 0, 0, 0, 0,
    3, 0, 0, 0, 7, 0, 0, 0, 0, 0, 0, 0, 0, 0, 0, 0, 0, 0, 0, 0, 0, 0, 0, 0,
    0, 1, 0, 0,
    0xFF, 0xFF, 0xFF, 0xFF, 0, 16, 0, 0, 8, 0, 0, 0, 1, 0, 0, 0, 0, 0, 0, 0
    ].getD a 0

def choosyEnv : RscEnv := ⟨[], ⟨none, some choosyHook⟩, none, 128⟩

theorem choosyEnv_picks : PicksAddress choosyEnv.ops :=
  ⟨choosyHook, rfl, fun _ _ => ⟨(by decide : (0x40000 : UInt64) ≠ 0),
    (by decide : (0x10000 : UInt64) ≠ METAL_BAD_PHYS)⟩⟩

/-- Table and device are accepted; the hook was asked for the very address
`0xFFFFFFFF`, and never to choose one. -/
theorem any_address_not_negotiated :
    PicksAddress choosyEnv.ops ∧
    (handleRscTableAt (fun _ => choosyEnv) 0 none ⟨anyTable, fun _ => 0⟩).val.1 =
      0 ∧
    carveoutAsk choosyEnv anyTable 24 = some ⟨0xFFFFFFFF, 0xFFFFFFFF, 256⟩ ∧
    ¬ CarveoutsNegotiated (fun _ => choosyEnv) 0 none ⟨anyTable, fun _ => 0⟩ ∧
    (createVirtio (fun _ => choosyEnv) 0x20000 (flatRegion 0x20000 0 0x1000)
      .driver anyTable 80).1.isSome ∧
    vringAsk choosyEnv (vringRsc anyTable 80 0) =
      some ⟨METAL_BAD_PHYS, 0xFFFFFFFF, 4166⟩ ∧
    ¬ VringsNegotiated (fun _ => choosyEnv) 0x20000
      (flatRegion 0x20000 0 0x1000) .driver anyTable 80 := by
  have hdev : (createVirtio (fun _ => choosyEnv) 0x20000
      (flatRegion 0x20000 0 0x1000) .driver anyTable 80).1.isSome := by
    decide +kernel
  refine ⟨choosyEnv_picks, by decide +kernel, by decide +kernel, fun h => ?_,
    hdev, by decide +kernel, fun h => ?_⟩
  · have hhanded : Handed (fun _ => choosyEnv) 0 none ⟨anyTable, fun _ => 0⟩
        ⟨anyTable, fun _ => 0⟩ 0 := by
      refine ⟨?_, .here (by decide +kernel) rfl⟩
      unfold HeaderRejected
      decide +kernel
    exact not_negotiated _ (h _ 0 hhanded
      ⟨by decide +kernel, by decide +kernel⟩ (by decide +kernel))
  · exact not_negotiated _ (h 0 (by decide +kernel) (by decide +kernel) hdev)

end OpenAmp.Remoteproc.Parser
