import OpenAmp.Metal.Io

/-!
# Memories of a remote processor

The memories registered with `remoteproc_add_mem` and the lookups of
`open-amp/lib/remoteproc/remoteproc.c` over them, by name, physical,
device or virtual address. Addresses and sizes are 64 bits and wrap.

What the platform's `get_mem` and `mmap` hooks answer is a parameter.
-/

namespace OpenAmp.Remoteproc

open OpenAmp.Metal

def RPROC_MAX_NAME_LEN : Nat := 32

/-- `struct remoteproc_mem`; `name` holds the characters before the
terminating zero. -/
structure RemoteprocMem where
  da : UInt64
  pa : UInt64
  size : UInt64
  name : List UInt8
  io : MetalIoRegion

/-- What `ops->mmap` answers: a virtual address, the addresses left in
`*pa` and `*da`, and the region it stores in `*io` if it does. -/
structure MmapResult where
  va : UInt64
  pa : UInt64
  da : UInt64
  io : Option MetalIoRegion

/-- The hooks of `struct remoteproc_ops` that the lookups use. -/
structure MemOps where
  getMem : Option (Option (List UInt8) → UInt64 → UInt64 → UInt64 → UInt64 →
    Option RemoteprocMem)
  mmap : Option (UInt64 → UInt64 → UInt64 → MmapResult)

/-! ## Lookup -/

/-- The range test of `remoteproc_get_mem`, for physical and for device
addresses. -/
def inMemRange (start size addr n : UInt64) : Bool :=
  start ≤ addr ∧ addr + n ≤ start + size ∧ addr < start + size

/-- What the loop of `remoteproc_get_mem` does at a memory. -/
inductive MemTest where
  | take
  | skip
  | stop
deriving DecidableEq, Repr

def MemTest.ofBool (b : Bool) : MemTest := if b then .take else .skip

def memTest (name : Option (List UInt8)) (pa da va size : UInt64)
    (mem : RemoteprocMem) : MemTest :=
  match name with
  | some name => .ofBool (name.take RPROC_MAX_NAME_LEN =
      mem.name.take RPROC_MAX_NAME_LEN)
  | none =>
    if pa ≠ METAL_BAD_PHYS then .ofBool (inMemRange mem.pa mem.size pa size)
    else if da ≠ METAL_BAD_PHYS then
      .ofBool (inMemRange mem.da mem.size da size)
    else if va ≠ 0 then
      .ofBool (metalIoVirtToOffset mem.io va ≠ METAL_BAD_OFFSET)
    else .stop

/-- The loop itself: `none` when it runs off the list. -/
def memLoop (name : Option (List UInt8)) (pa da va size : UInt64) :
    List RemoteprocMem → Option (Option RemoteprocMem)
  | [] => none
  | mem :: rest =>
    match memTest name pa da va size mem with
    | .take => some (some mem)
    | .stop => some none
    | .skip => memLoop name pa da va size rest

/-- `remoteproc_get_mem`. -/
def remoteprocGetMem (mems : List RemoteprocMem) (ops : MemOps)
    (name : Option (List UInt8)) (pa da va size : UInt64) :
    Option RemoteprocMem :=
  if name.any fun name => RPROC_MAX_NAME_LEN < name.length then none
  else
    match memLoop name pa da va size mems with
    | some mem => mem
    | none => ops.getMem.bind fun getMem => getMem name pa da va size

/-- `remoteproc_datopa`. -/
def remoteprocDatopa (mem : RemoteprocMem) (da : UInt64) : UInt64 :=
  mem.pa + da - mem.da

/-- `remoteproc_patoda`. -/
def remoteprocPatoda (mem : RemoteprocMem) (pa : UInt64) : UInt64 :=
  mem.da + pa - mem.pa

/-- `remoteproc_mmap`. `pa` and `da` are the values behind the pointers,
`none` for a null pointer; `io` is what `*io` holds before the call, and
what comes back in `MmapResult.io` is what it holds after. -/
def remoteprocMmap (mems : List RemoteprocMem) (ops : MemOps)
    (pa da : Option UInt64) (size : UInt64) (io : Option MetalIoRegion) :
    MmapResult :=
  let lpa := pa.getD METAL_BAD_PHYS
  let lda := da.getD METAL_BAD_PHYS
  if size = 0 ∨ (pa = none ∧ da = none) then ⟨0, lpa, lda, io⟩
  else
    match remoteprocGetMem mems ops none lpa lda 0 size with
    | some mem =>
      let (lpa, lda) :=
        if lpa ≠ METAL_BAD_PHYS then (lpa, remoteprocPatoda mem lpa)
        else if lda ≠ METAL_BAD_PHYS then (remoteprocDatopa mem lda, lda)
        else (lpa, lda)
      ⟨metalIoPhysToVirt mem.io lpa, lpa, lda, some mem.io⟩
    | none =>
      match ops.mmap with
      | some mmap =>
        let r := mmap lpa lda size
        { r with io := r.io.or io }
      | none => ⟨0, lpa, lda, io⟩

/-- `remoteproc_get_io_with_va`. -/
def remoteprocGetIoWithVa (mems : List RemoteprocMem) (ops : MemOps)
    (va : UInt64) : Option MetalIoRegion :=
  (remoteprocGetMem mems ops none METAL_BAD_PHYS METAL_BAD_PHYS va 0).map
    (·.io)

/-! ## What a lookup by address finds -/

/-- A memory whose ranges end below the last address, with a region that
is exactly its physical range. -/
structure RemoteprocMem.Valid (mem : RemoteprocMem) : Prop where
  da_nowrap : mem.da.toNat + mem.size.toNat < 2 ^ 64
  covers : Covers mem.io mem.pa mem.size

/-- Over a range that does not wrap, the test admits what lies inside,
and whatever starts inside and wraps. -/
theorem inMemRange_iff {start size : UInt64} (addr n : UInt64)
    (h : start.toNat + size.toNat < 2 ^ 64) :
    inMemRange start size addr n = true ↔
      start.toNat ≤ addr.toNat ∧ addr.toNat < start.toNat + size.toNat ∧
      (addr.toNat + n.toNat ≤ start.toNat + size.toNat ∨
        2 ^ 64 ≤ addr.toNat + n.toNat) := by
  have hend : (start + size).toNat = start.toNat + size.toNat := by
    rw [UInt64.toNat_add, Nat.mod_eq_of_lt h]
  have hn := n.toNat_lt
  have ha := addr.toNat_lt
  simp only [inMemRange, decide_eq_true_eq, UInt64.le_iff_toNat_le,
    UInt64.lt_iff_toNat_lt, hend, UInt64.toNat_add]
  by_cases hwrap : addr.toNat + n.toNat < 2 ^ 64
  · rw [Nat.mod_eq_of_lt hwrap]
    omega
  · have hmod : (addr.toNat + n.toNat) % 2 ^ 64 =
        addr.toNat + n.toNat - 2 ^ 64 := by
      rw [Nat.mod_eq_sub_mod (by omega), Nat.mod_eq_of_lt (by omega)]
    rw [hmod]
    omega

/-- A lookup by physical or by device address. -/
inductive MemKey where
  | pa (addr : UInt64)
  | da (addr : UInt64)
deriving DecidableEq, Repr

def MemKey.addr : MemKey → UInt64
  | .pa addr => addr
  | .da addr => addr

/-- Where the memory begins in the address space of the key. -/
def MemKey.start (mem : RemoteprocMem) : MemKey → UInt64
  | .pa _ => mem.pa
  | .da _ => mem.da

/-- The element of the list that `remoteproc_get_mem` selects. -/
def MemKey.select (mems : List RemoteprocMem) (key : MemKey) (size : UInt64) :
    Option RemoteprocMem :=
  match key with
  | .pa addr => (memLoop none addr METAL_BAD_PHYS 0 size mems).join
  | .da addr => (memLoop none METAL_BAD_PHYS addr 0 size mems).join

/-- The address lies in the memory. -/
def MemKey.In (key : MemKey) (mem : RemoteprocMem) : Prop :=
  (key.start mem).toNat ≤ key.addr.toNat ∧
    key.addr.toNat < (key.start mem).toNat + mem.size.toNat

/-- All `size` bytes from the address on lie in the memory. -/
def MemKey.Inside (key : MemKey) (size : UInt64) (mem : RemoteprocMem) : Prop :=
  (key.start mem).toNat ≤ key.addr.toNat ∧
    key.addr.toNat + size.toNat ≤ (key.start mem).toNat + mem.size.toNat

theorem RemoteprocMem.Valid.start_nowrap {mem : RemoteprocMem}
    (h : mem.Valid) (key : MemKey) :
    (key.start mem).toNat + mem.size.toNat < 2 ^ 64 := by
  cases key with
  | pa addr => exact h.covers.nowrap
  | da addr => exact h.da_nowrap

variable {mems : List RemoteprocMem} {key : MemKey} {size : UInt64}

/-- A loop that never stops early is a search through the list. -/
theorem memLoop_eq_find? {name : Option (List UInt8)} {pa da va : UInt64}
    {p : RemoteprocMem → Bool}
    (htest : ∀ mem, memTest name pa da va size mem = .ofBool (p mem)) :
    memLoop name pa da va size mems = (mems.find? p).map some := by
  induction mems with
  | nil => rfl
  | cons mem rest ih =>
    rw [memLoop, htest, List.find?_cons]
    cases p mem with
    | true => rfl
    | false => exact ih

/-- A physical address that is given decides alone. -/
theorem memTest_pa {pa : UInt64} (hpa : pa ≠ METAL_BAD_PHYS) (da va : UInt64)
    (mem : RemoteprocMem) :
    memTest none pa da va size mem =
      .ofBool (inMemRange mem.pa mem.size pa size) :=
  if_pos hpa

theorem memTest_da {da : UInt64} (hda : da ≠ METAL_BAD_PHYS) (va : UInt64)
    (mem : RemoteprocMem) :
    memTest none METAL_BAD_PHYS da va size mem =
      .ofBool (inMemRange mem.da mem.size da size) :=
  if_pos hda

theorem memTest_va {va : UInt64} (hva : va ≠ 0) (mem : RemoteprocMem) :
    memTest none METAL_BAD_PHYS METAL_BAD_PHYS va size mem =
      .ofBool (metalIoVirtToOffset mem.io va ≠ METAL_BAD_OFFSET) :=
  if_pos hva

/-- The selection is the first memory that passes the range test, unless
the address is the one that means none is given. -/
theorem MemKey.select_eq (hkey : key.addr ≠ METAL_BAD_PHYS) :
    key.select mems size =
      mems.find? fun mem => inMemRange (key.start mem) mem.size key.addr size := by
  have hjoin : ∀ o : Option RemoteprocMem, (o.map some).join = o := by
    intro o
    cases o <;> rfl
  cases key with
  | pa addr =>
    have hne : addr ≠ METAL_BAD_PHYS := hkey
    rw [MemKey.select, memLoop_eq_find? (memTest_pa hne METAL_BAD_PHYS 0)]
    exact hjoin _
  | da addr =>
    have hne : addr ≠ METAL_BAD_PHYS := hkey
    rw [MemKey.select, memLoop_eq_find? (memTest_da hne 0)]
    exact hjoin _

theorem MemKey.select_bad (hkey : key.addr = METAL_BAD_PHYS) :
    key.select mems size = none := by
  cases key with
  | pa addr =>
    have heq : addr = METAL_BAD_PHYS := hkey
    cases mems <;> simp [MemKey.select, memLoop, memTest, heq]
  | da addr =>
    have heq : addr = METAL_BAD_PHYS := hkey
    cases mems <;> simp [MemKey.select, memLoop, memTest, heq]

/-- No valid memory holds the address that means none is given. -/
theorem MemKey.In.ne_bad {mem : RemoteprocMem} (hmem : mem.Valid)
    (h : key.In mem) : key.addr ≠ METAL_BAD_PHYS := by
  intro heq
  have h1 := hmem.start_nowrap key
  have h2 := h.2
  rw [heq] at h2
  have h3 : METAL_BAD_PHYS.toNat = 2 ^ 64 - 1 := rfl
  omega

/-- A request that does not wrap gets a memory it fits into. -/
theorem MemKey.select_inside (hmems : ∀ mem ∈ mems, mem.Valid)
    (hwrap : key.addr.toNat + size.toNat < 2 ^ 64) {mem : RemoteprocMem}
    (h : key.select mems size = some mem) :
    mem ∈ mems ∧ key.In mem ∧ key.Inside size mem := by
  by_cases hkey : key.addr = METAL_BAD_PHYS
  · rw [MemKey.select_bad hkey] at h
    cases h
  · rw [MemKey.select_eq hkey] at h
    have hmem := List.mem_of_find?_eq_some h
    have hin := List.find?_some h
    rw [inMemRange_iff _ _ ((hmems mem hmem).start_nowrap key)] at hin
    obtain ⟨h1, h2, h3 | h3⟩ := hin
    · exact ⟨hmem, ⟨h1, h2⟩, h1, h3⟩
    · omega

/-- A request that starts in a memory and fits or wraps is granted. -/
theorem MemKey.select_isSome (hmems : ∀ mem ∈ mems, mem.Valid)
    {mem : RemoteprocMem} (hmem : mem ∈ mems) (hin : key.In mem)
    (h : key.Inside size mem ∨ 2 ^ 64 ≤ key.addr.toNat + size.toNat) :
    ∃ found, key.select mems size = some found := by
  rw [MemKey.select_eq (hin.ne_bad (hmems mem hmem)),
    ← Option.isSome_iff_exists, List.find?_isSome]
  refine ⟨mem, hmem, ?_⟩
  rw [inMemRange_iff _ _ ((hmems mem hmem).start_nowrap key)]
  exact ⟨hin.1, hin.2, h.imp (fun hi => hi.2) id⟩

/-- Whatever the list offers for the request holds all of it. -/
def MemKey.SelectsInside (mems : List RemoteprocMem) (key : MemKey)
    (size : UInt64) : Prop :=
  ∀ mem, key.select mems size = some mem → key.Inside size mem

/-- The lookup is right about every request whose end does not wrap, and
about those that wrap only where no memory holds the address. -/
theorem MemKey.selectsInside_iff (hmems : ∀ mem ∈ mems, mem.Valid) :
    key.SelectsInside mems size ↔
      key.addr.toNat + size.toNat < 2 ^ 64 ∨ ∀ mem ∈ mems, ¬ key.In mem := by
  constructor
  · intro h
    by_cases hwrap : key.addr.toNat + size.toNat < 2 ^ 64
    · exact .inl hwrap
    · refine .inr fun mem hmem hin => ?_
      have hover : 2 ^ 64 ≤ key.addr.toNat + size.toNat := by omega
      obtain ⟨found, hfound⟩ :=
        MemKey.select_isSome hmems hmem hin (.inr hover)
      have hinside := h found hfound
      have hbad : key.addr ≠ METAL_BAD_PHYS := hin.ne_bad (hmems mem hmem)
      rw [MemKey.select_eq hbad] at hfound
      have hn := (hmems found (List.mem_of_find?_eq_some hfound)).start_nowrap key
      have h2 := hinside.2
      omega
  · rintro (hwrap | hnone) mem hsel
    · exact (MemKey.select_inside hmems hwrap hsel).2.2
    · by_cases hkey : key.addr = METAL_BAD_PHYS
      · rw [MemKey.select_bad hkey] at hsel
        cases hsel
      · rw [MemKey.select_eq hkey] at hsel
        have hmem := List.mem_of_find?_eq_some hsel
        have hin := List.find?_some hsel
        rw [inMemRange_iff _ _ ((hmems mem hmem).start_nowrap key)] at hin
        exact absurd ⟨hin.1, hin.2.1⟩ (hnone mem hmem)

end OpenAmp.Remoteproc
