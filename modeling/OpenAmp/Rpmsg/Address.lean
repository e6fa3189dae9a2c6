import Mathlib.Data.List.Nodup
import OpenAmp.Lib.Transition
import OpenAmp.Rpmsg.Endpoint

/-!
# Address uniqueness

Runs of `rpmsg_create_ept` and `rpmsg_destroy_ept` on one device. As
long as a creation that asks for any address finds one free, the table
of addresses is exact and no two endpoints share one. With all addresses
in use the search of the table cannot report that, and the creation
succeeds with an address that belongs to somebody else.
-/

namespace OpenAmp.Rpmsg

open OpenAmp.Metal OpenAmp.Lib

/-! ## The table of addresses -/

theorem toInt32_bmp_range (x : UInt32) :
    (0 ≤ x.toInt32 ∧ x.toInt32 < RPMSG_ADDR_BMP_SIZE) ↔ x.toNat < 128 := by
  have hint : x.toInt32.toInt =
      if 2 * x.toNat < 2 ^ 32 then (x.toNat : Int) else x.toNat - 2 ^ 32 := by
    rw [← Int32.toInt_toBitVec, UInt32.toBitVec_toInt32,
      BitVec.toInt_eq_toNat_cond]
    rfl
  have hx := x.toNat_lt
  rw [Int32.le_iff_toInt_le, Int32.lt_iff_toInt_lt, hint,
    show (0 : Int32).toInt = 0 from rfl,
    show RPMSG_ADDR_BMP_SIZE.toInt = 128 from rfl]
  split <;> omega

/-- The addresses with a bit are `1024 … 1151`. -/
theorem addrBit_eq (addr : UInt32) :
    addrBit RPMSG_ADDR_BMP_SIZE addr.toInt32 =
      if 1024 ≤ addr.toNat ∧ addr.toNat < 1152 then some (addr.toNat - 1024)
      else none := by
  have hx := addr.toNat_lt
  have hsub : addr.toInt32 - RPMSG_RESERVED_ADDRESSES.toInt32 =
      (addr - 1024).toInt32 := rfl
  have hnat : (addr - 1024).toNat = (addr.toNat + (2 ^ 32 - 1024)) % 2 ^ 32 := by
    rw [UInt32.toNat_sub]
    simp
    omega
  have hrange := toInt32_bmp_range (addr - 1024)
  unfold addrBit
  simp only [hsub]
  by_cases h : 1024 ≤ addr.toNat ∧ addr.toNat < 1152
  · have hbit := hrange.mpr (by omega)
    rw [if_pos h, if_pos hbit, ← Int32.toNat_toUInt32_of_le hbit.1]
    simp only [UInt32.toUInt32_toInt32, hnat, Option.some.injEq]
    omega
  · rw [if_neg h, if_neg (fun hbit => h (by have := hrange.mp hbit; omega))]

theorem rpmsgIsAddressSet_eq (bitmap : Bitmap) (addr : UInt32) :
    rpmsgIsAddressSet bitmap RPMSG_ADDR_BMP_SIZE addr.toInt32 =
      if 1024 ≤ addr.toNat ∧ addr.toNat < 1152 then
        if metalBitmapIsBitSet bitmap (addr.toNat - 1024) then 1 else 0
      else RPMSG_ERR_PARAM := by
  rw [rpmsgIsAddressSet, addrBit_eq]
  by_cases h : 1024 ≤ addr.toNat ∧ addr.toNat < 1152 <;> simp [h]

theorem rpmsgReleaseAddress_bit (bitmap : Bitmap) (addr : UInt32) (i : Nat) :
    metalBitmapIsBitSet
        (rpmsgReleaseAddress bitmap RPMSG_ADDR_BMP_SIZE addr.toInt32) i =
      (decide (¬(addr.toNat < 1152 ∧ addr.toNat = 1024 + i)) &&
        metalBitmapIsBitSet bitmap i) := by
  rw [rpmsgReleaseAddress, addrBit_eq]
  by_cases h : 1024 ≤ addr.toNat ∧ addr.toNat < 1152
  · simp only [if_pos h, isBitSet_clearBit]
    congr 1
    simp only [decide_eq_decide]
    omega
  · have hno : ¬(addr.toNat < 1152 ∧ addr.toNat = 1024 + i) := by omega
    simp [if_neg h, hno]

/-- What a search for a free address returns while there is one. -/
theorem rpmsgGetAddress_spec {bitmap : Bitmap} {start : UInt32}
    (hstart : start.toNat < 128) {i : Nat} (hi : i < 128)
    (hclear : metalBitmapIsBitSet bitmap i = false) :
    ∃ bit < 128, metalBitmapIsBitSet bitmap bit = false ∧
      rpmsgGetAddress bitmap start RPMSG_ADDR_BMP_SIZE =
        (UInt32.ofNat (1024 + bit), metalBitmapSetBit bitmap bit) := by
  have hsize : RPMSG_ADDR_BMP_SIZE.toUInt32 = 128 := rfl
  obtain ⟨hlt, hbit⟩ := nextClearBit_of_clear bitmap
    (show 0 < (128 : UInt32) by decide) (by decide)
    (show start.toNat + _ < 2 ^ 32 by simp only [UInt32.reduceToNat]; omega)
    (by simpa using hi) hclear
  refine ⟨_, by simpa using hlt, hbit, ?_⟩
  rw [rpmsgGetAddress, hsize, if_pos (UInt32.lt_iff_toNat_lt.mpr hlt)]
  simp [RPMSG_RESERVED_ADDRESSES]

/-! ## Runs -/

/-- A call of the application. -/
inductive EptCall where
  | create (ept : Nat) (name : Option (List UInt8)) (src dest : UInt32)
      (send : SendOutcome)
  | destroy (ept : Nat)

/-- What the call does; creation passes a callback. -/
def EptCall.run (s : RpmsgDevice) : EptCall → RpmsgDevice
  | .create ept name src dest send =>
    (rpmsgCreateEpt s ept name src dest true send).2
  | .destroy ept => rpmsgDestroyEpt s ept

/-- The one promise of the application: it creates endpoints on objects
that are not registered. -/
def EptCall.Allowed (s : RpmsgDevice) : EptCall → Prop
  | .create ept _ _ _ _ => ept ∉ s.endpoints
  | .destroy _ => True

/-- All addresses of the table belong to registered endpoints. -/
def RpmsgDevice.AllInUse (s : RpmsgDevice) : Prop :=
  ∀ i < 128, ∃ e ∈ s.endpoints, (s.epts e).addr.toNat = 1024 + i

/-- The calls the address table survives: any address is only asked for
while one is free, and an endpoint whose release callback has been told
is not destroyed again. -/
def EptCall.Sound (s : RpmsgDevice) : EptCall → Prop
  | .create _ _ src _ _ => src = RPMSG_ADDR_ANY → ¬ s.AllInUse
  | .destroy ept => ept ∈ s.endpoints ∨ (s.epts ept).releaseCb = false

/-- An initialised device. -/
def RpmsgDevice.IsInit (s : RpmsgDevice) : Prop :=
  ∃ supportNs ns releaseCb, s = RpmsgDevice.init supportNs ns releaseCb

/-- Any sequence of allowed calls. -/
def EptReachable : RpmsgDevice → Prop :=
  Reachable RpmsgDevice.IsInit fun s t => ∃ c : EptCall, c.Allowed s ∧ t = c.run s

/-- Any sequence of allowed calls that are all sound. -/
def EptSoundReachable : RpmsgDevice → Prop :=
  Reachable RpmsgDevice.IsInit fun s t =>
    ∃ c : EptCall, c.Allowed s ∧ c.Sound s ∧ t = c.run s

/-! ## The invariant -/

/-- What sound calls keep. -/
structure AddrInv (s : RpmsgDevice) : Prop where
  nodup : s.endpoints.Nodup
  range : ∀ e ∈ s.endpoints, (s.epts e).addr.toNat < 1152
  unique : ∀ e ∈ s.endpoints, ∀ e' ∈ s.endpoints,
    1024 ≤ (s.epts e).addr.toNat → (s.epts e).addr = (s.epts e').addr → e = e'
  bits : ∀ i < 128, metalBitmapIsBitSet s.bitmap i = true ↔
    ∃ e ∈ s.endpoints, (s.epts e).addr.toNat = 1024 + i
  next : s.bitnext.toNat < 128
  refs : ∀ e ∈ s.endpoints, (s.epts e).refcnt = 1
  idle : ∀ e, e ∉ s.endpoints → (s.epts e).releaseCb = false →
    (s.epts e).rdev = false

variable {s : RpmsgDevice} {ept : Nat}

/-- Registering an object under an address nobody has, with the table
updated for it. -/
theorem AddrInv.register (h : AddrInv s) (hept : ept ∉ s.endpoints)
    {name : Option (List UInt8)} (src : UInt32) {dest : UInt32}
    (bitmap : Bitmap) (bitnext : UInt32) (hsrc : src.toNat < 1152) (hnext : bitnext.toNat < 128)
    (hfree : 1024 ≤ src.toNat → ∀ e ∈ s.endpoints, (s.epts e).addr ≠ src)
    (hbits : ∀ i < 128, metalBitmapIsBitSet bitmap i = true ↔
      src.toNat = 1024 + i ∨ metalBitmapIsBitSet s.bitmap i = true) :
    AddrInv (rpmsgRegisterEndpoint
      { s with bitmap := bitmap, bitnext := bitnext } ept name src dest) := by
  have hold : ∀ e ∈ s.endpoints, e ≠ ept := fun e he heq => hept (heq ▸ he)
  have hmem : ∀ e, e ∈ s.endpoints ++ [ept] ↔ e ∈ s.endpoints ∨ e = ept := by
    simp
  refine ⟨?_, ?_, ?_, ?_, hnext, ?_, ?_⟩ <;>
    simp only [rpmsgRegisterEndpoint, RpmsgDevice.modify, hmem]
  · rw [List.nodup_append]
    refine ⟨h.nodup, by simp, fun a ha b hb => ?_⟩
    rw [List.mem_singleton.mp hb]
    exact hold a ha
  · rintro e (he | rfl)
    · rw [Function.update_of_ne (hold e he)]
      exact h.range e he
    · simpa using hsrc
  · rintro e (he | rfl) e' (he' | rfl) hge heq
    · rw [Function.update_of_ne (hold e he)] at hge heq
      rw [Function.update_of_ne (hold e' he')] at heq
      exact h.unique e he e' he' hge heq
    · rw [Function.update_of_ne (hold e he)] at hge heq
      rw [Function.update_self] at heq
      have hsrc' : (s.epts e).addr = src := heq
      exact absurd hsrc' (hfree (hsrc' ▸ hge) e he)
    · rw [Function.update_self] at hge heq
      rw [Function.update_of_ne (hold e' he')] at heq
      exact absurd heq.symm (hfree hge e' he')
    · rfl
  · intro i hi
    rw [hbits i hi, h.bits i hi]
    constructor
    · rintro (hs | ⟨e, he, ha⟩)
      · exact ⟨ept, .inr rfl, by simpa using hs⟩
      · exact ⟨e, .inl he, by rw [Function.update_of_ne (hold e he)]; exact ha⟩
    · rintro ⟨e, he | rfl, ha⟩
      · rw [Function.update_of_ne (hold e he)] at ha
        exact .inr ⟨e, he, ha⟩
      · exact .inl (by simpa using ha)
  · rintro e (he | rfl)
    · rw [Function.update_of_ne (hold e he)]
      exact h.refs e he
    · simp
  · intro e he
    have hne : e ≠ ept := fun heq => he (.inr heq)
    rw [Function.update_of_ne hne]
    exact h.idle e fun hmem => he (.inl hmem)

/-- Taking a registered object off the list gives its address back. -/
theorem AddrInv.unregister (h : AddrInv s) (hept : ept ∈ s.endpoints) :
    AddrInv (rpmsgUnregisterEndpoint s ept) := by
  have hany : (s.epts ept).addr ≠ RPMSG_ADDR_ANY := by
    intro heq
    have := h.range ept hept
    rw [heq] at this
    simp [RPMSG_ADDR_ANY] at this
  have hmem : ∀ e, e ∈ s.endpoints.erase ept ↔ e ≠ ept ∧ e ∈ s.endpoints :=
    fun e => h.nodup.mem_erase_iff
  refine ⟨?_, ?_, ?_, ?_, ?_, ?_, ?_⟩ <;>
    simp only [rpmsgUnregisterEndpoint, RpmsgDevice.modify, if_pos hany, hmem]
  · exact h.nodup.erase ept
  · rintro e ⟨hne, he⟩
    rw [Function.update_of_ne hne]
    exact h.range e he
  · rintro e ⟨hne, he⟩ e' ⟨hne', he'⟩
    rw [Function.update_of_ne hne, Function.update_of_ne hne']
    exact h.unique e he e' he'
  · intro i hi
    rw [rpmsgReleaseAddress_bit, Bool.and_eq_true, decide_eq_true_eq,
      h.bits i hi]
    constructor
    · rintro ⟨hno, e, he, ha⟩
      have hne : e ≠ ept := by
        rintro rfl
        exact hno ⟨h.range e he, ha⟩
      exact ⟨e, ⟨hne, he⟩, by rw [Function.update_of_ne hne]; exact ha⟩
    · rintro ⟨e, ⟨hne, he⟩, ha⟩
      rw [Function.update_of_ne hne] at ha
      -- two endpoints on one address would be the same
      refine ⟨fun hsame => hne ?_, e, he, ha⟩
      exact h.unique e he ept hept (by omega)
        (UInt32.toNat_inj.mp (ha.trans hsame.2.symm))
  · exact h.next
  · rintro e ⟨hne, he⟩
    rw [Function.update_of_ne hne]
    exact h.refs e he
  · intro e he hrel
    by_cases hne : e = ept
    · -- the last reference goes, unless a callback keeps the object
      subst hne
      rw [Function.update_self] at hrel ⊢
      have hrel' : (s.epts e).releaseCb = false := by simpa using hrel
      simp [rpmsgEptDecref, h.refs e hept, hrel']
    · rw [Function.update_of_ne hne] at hrel ⊢
      exact h.idle e (fun hin => he ⟨hne, hin⟩) hrel

/-- A bit nobody has is clear. -/
theorem AddrInv.exists_clear (h : AddrInv s) (hfull : ¬ s.AllInUse) :
    ∃ i < 128, metalBitmapIsBitSet s.bitmap i = false := by
  unfold RpmsgDevice.AllInUse at hfull
  push Not at hfull
  obtain ⟨i, hi, hno⟩ := hfull
  refine ⟨i, hi, ?_⟩
  rw [← Bool.not_eq_true, h.bits i hi]
  rintro ⟨e, he, ha⟩
  exact hno e he ha

/-- What the table looks like after it gave out `addr`: an address below
it is not recorded, and one of its own was free before. -/
inductive TookAddress (bitmap : Bitmap) (addr : UInt32) : Bitmap → Prop
  | reserved (hlt : addr.toNat < 1024) : TookAddress bitmap addr bitmap
  | recorded {bit : Nat} (hbit : bit < 128) (haddr : addr.toNat = 1024 + bit)
      (hclear : metalBitmapIsBitSet bitmap bit = false) :
      TookAddress bitmap addr (metalBitmapSetBit bitmap bit)

theorem TookAddress.bit {bitmap bitmap' : Bitmap} {addr : UInt32}
    (h : TookAddress bitmap addr bitmap') {i : Nat} (hi : i < 128) :
    metalBitmapIsBitSet bitmap' i = true ↔
      addr.toNat = 1024 + i ∨ metalBitmapIsBitSet bitmap i = true := by
  cases h with
  | reserved hlt =>
    constructor
    · exact .inr
    · rintro (heq | hset)
      · omega
      · exact hset
  | recorded hbit haddr hclear =>
    rw [isBitSet_setBit, Bool.or_eq_true, decide_eq_true_eq, haddr]
    constructor <;> rintro (heq | hset)
    · exact .inl (by omega)
    · exact .inr hset
    · exact .inl (by omega)
    · exact .inr hset

theorem TookAddress.lt {bitmap bitmap' : Bitmap} {addr : UInt32}
    (h : TookAddress bitmap addr bitmap') : addr.toNat < 1152 := by
  cases h with
  | reserved hlt => omega
  | recorded hbit haddr hclear => omega

/-- No endpoint has the address that was given out. -/
theorem AddrInv.not_held (h : AddrInv s) {bitmap' : Bitmap} {addr : UInt32}
    (htook : TookAddress s.bitmap addr bitmap') (hge : 1024 ≤ addr.toNat) :
    ∀ e ∈ s.endpoints, (s.epts e).addr ≠ addr := by
  intro e he heq
  cases htook with
  | reserved hlt => omega
  | recorded hbit haddr hclear =>
    rw [← Bool.not_eq_true, h.bits _ hbit] at hclear
    exact hclear ⟨e, he, by rw [heq, haddr]⟩

/-- The critical section of a creation, while there is an address to be
picked if one is to be: it refuses with an error, or registers the object
under the address it was asked for or one it picked. -/
theorem createEptLocked_cases (hnext : s.bitnext.toNat < 128)
    (name : Option (List UInt8)) {src : UInt32} (dest : UInt32)
    (hfree : src = RPMSG_ADDR_ANY →
      ∃ i < 128, metalBitmapIsBitSet s.bitmap i = false) :
    (src ≠ RPMSG_ADDR_ANY ∧ ∃ status ≠ 0,
      createEptLocked s ept name src dest = .error status) ∨
    ∃ bitmap bitnext addr, TookAddress s.bitmap addr bitmap ∧
      bitnext.toNat < 128 ∧
      (if src = RPMSG_ADDR_ANY then 1024 ≤ addr.toNat else addr = src) ∧
      createEptLocked s ept name src dest = .ok (rpmsgRegisterEndpoint
        { s with bitmap := bitmap, bitnext := bitnext } ept name addr
          dest) := by
  unfold createEptLocked
  by_cases hany : src = RPMSG_ADDR_ANY
  · -- an address is picked from the bitmap, which has a free one
    obtain ⟨i, hi, hclear⟩ := hfree hany
    obtain ⟨bit, hbit, hclear, hget⟩ := rpmsgGetAddress_spec hnext hi hclear
    have haddr : (UInt32.ofNat (1024 + bit)).toNat = 1024 + bit := by
      rw [UInt32.toNat_ofNat']
      omega
    have hne : UInt32.ofNat (1024 + bit) ≠ RPMSG_ADDR_ANY := by
      intro heq
      rw [heq] at haddr
      simp [RPMSG_ADDR_ANY] at haddr
      omega
    rw [if_pos hany, hget]
    simp only [if_neg hne]
    refine .inr ⟨_, _, _, .recorded hbit haddr hclear, ?_, ?_, rfl⟩
    · rw [UInt32.toNat_mod]
      exact Nat.mod_lt _ (by decide)
    · rw [if_pos hany]
      omega
  simp only [if_neg hany]
  by_cases hres : RPMSG_RESERVED_ADDRESSES ≤ src
  · have hge : 1024 ≤ src.toNat := UInt32.le_iff_toNat_le.mp hres
    simp only [if_pos hres, rpmsgIsAddressSet_eq]
    by_cases hlt : src.toNat < 1152
    · simp only [if_pos (And.intro hge hlt)]
      cases hset : metalBitmapIsBitSet s.bitmap (src.toNat - 1024) with
      | true => exact .inl ⟨hany, RPMSG_ERR_ADDR, by decide, by simp⟩
      | false =>
        simp only [Bool.false_eq_true, if_false, if_true, rpmsgSetAddress,
          addrBit_eq, if_pos (And.intro hge hlt)]
        refine .inr ⟨_, s.bitnext, src, ?_, hnext, rfl, rfl⟩
        exact .recorded (by omega) (by omega) hset
    · -- beyond the bitmap the address is refused
      have hno : ¬(1024 ≤ src.toNat ∧ src.toNat < 1152) := fun hc => hlt hc.2
      refine .inl ⟨hany, RPMSG_ERR_PARAM, by decide, ?_⟩
      simp [if_neg hno, RPMSG_ERR_PARAM]
  · -- reserved addresses are not in the bitmap and not checked
    rw [if_neg hres]
    have hlt : src.toNat < 1024 := by
      have := UInt32.le_iff_toNat_le.not.mp hres
      simpa [RPMSG_RESERVED_ADDRESSES] using this
    exact .inr ⟨s.bitmap, s.bitnext, src, .reserved hlt, hnext, rfl, rfl⟩

/-- The critical section of a sound creation either refuses an explicit
address or registers the object. -/
theorem AddrInv.createEptLocked (h : AddrInv s) (hept : ept ∉ s.endpoints)
    (name : Option (List UInt8)) {src : UInt32} (dest : UInt32)
    (hsound : src = RPMSG_ADDR_ANY → ¬ s.AllInUse) :
    (src ≠ RPMSG_ADDR_ANY ∧
      ∃ status, createEptLocked s ept name src dest = .error status) ∨
    ∃ t, createEptLocked s ept name src dest = .ok t ∧ AddrInv t ∧
      ept ∈ t.endpoints := by
  rcases createEptLocked_cases h.next name dest
      fun hany => h.exists_clear (hsound hany) with
    ⟨hany, status, -, heq⟩ | ⟨bitmap, bitnext, addr, htook, hnext, -, heq⟩
  · exact .inl ⟨hany, status, heq⟩
  · refine .inr ⟨_, heq, ?_, by simp [rpmsgRegisterEndpoint,
      RpmsgDevice.modify]⟩
    exact h.register hept addr bitmap bitnext htook.lt hnext
      (h.not_held htook) fun i hi => htook.bit hi

theorem AddrInv.create (h : AddrInv s) (hept : ept ∉ s.endpoints)
    {name : Option (List UInt8)} {src dest : UInt32} {send : SendOutcome}
    (hsound : src = RPMSG_ADDR_ANY → ¬ s.AllInUse) :
    AddrInv (rpmsgCreateEpt s ept name src dest true send).2 := by
  unfold rpmsgCreateEpt
  rcases h.createEptLocked hept name dest hsound with
    ⟨-, status, heq⟩ | ⟨t, heq, ht, hmem⟩
  · simp only [heq]
    exact h
  · simp only [heq, Bool.true_eq_false, if_false]
    generalize (if announcesCreate t ept = true then send.status
      else RPMSG_SUCCESS) = status
    by_cases hfail : status ≠ 0
    · rw [if_pos hfail]
      exact ht.unregister hmem
    · rw [if_neg hfail]
      exact ht

/-- Whatever the state, the search for an address reports a hit: its
result is reduced modulo the size of the table. -/
theorem createEptLocked_any (s : RpmsgDevice) (ept : Nat)
    (name : Option (List UInt8)) (dest : UInt32) :
    ∃ bitmap bitnext addr, 1024 ≤ addr.toNat ∧ addr.toNat < 1152 ∧
      createEptLocked s ept name RPMSG_ADDR_ANY dest =
        .ok (rpmsgRegisterEndpoint
          { s with bitmap := bitmap, bitnext := bitnext } ept name addr dest) := by
  have hlt : metalBitmapNextClearBit s.bitmap s.bitnext
      RPMSG_ADDR_BMP_SIZE.toUInt32 < RPMSG_ADDR_BMP_SIZE.toUInt32 :=
    nextClearBit_lt_max s.bitmap (by decide)
  have haddr : (RPMSG_RESERVED_ADDRESSES + metalBitmapNextClearBit s.bitmap
      s.bitnext RPMSG_ADDR_BMP_SIZE.toUInt32).toNat =
      1024 + (metalBitmapNextClearBit s.bitmap s.bitnext
        RPMSG_ADDR_BMP_SIZE.toUInt32).toNat := by
    have hlt' := UInt32.lt_iff_toNat_lt.mp hlt
    rw [UInt32.toNat_add]
    simp only [RPMSG_RESERVED_ADDRESSES, UInt32.reduceToNat,
      show RPMSG_ADDR_BMP_SIZE.toUInt32.toNat = 128 from rfl] at hlt' ⊢
    omega
  have hlt' := UInt32.lt_iff_toNat_lt.mp hlt
  rw [show RPMSG_ADDR_BMP_SIZE.toUInt32.toNat = 128 from rfl] at hlt'
  rw [createEptLocked, if_pos rfl, rpmsgGetAddress, if_pos hlt]
  generalize RPMSG_RESERVED_ADDRESSES + metalBitmapNextClearBit s.bitmap
    s.bitnext RPMSG_ADDR_BMP_SIZE.toUInt32 = addr at haddr
  have hne : addr ≠ RPMSG_ADDR_ANY := by
    rintro rfl
    simp only [RPMSG_ADDR_ANY, UInt32.reduceToNat] at haddr
    omega
  simp only [if_neg hne]
  exact ⟨_, _, addr, by omega, by omega, rfl⟩

theorem rpmsgCreateEpt_any_status (s : RpmsgDevice) (ept : Nat)
    (name : Option (List UInt8)) (dest : UInt32) (send : SendOutcome) :
    (rpmsgCreateEpt s ept name RPMSG_ADDR_ANY dest true send).1 ≠
      RPMSG_ERR_ADDR := by
  obtain ⟨bitmap, bitnext, addr, -, -, ht⟩ :=
    createEptLocked_any s ept name dest
  generalize rpmsgRegisterEndpoint _ _ _ _ _ = t at ht
  have hstatus : (if announcesCreate t ept = true then send.status
      else RPMSG_SUCCESS) ≠ RPMSG_ERR_ADDR := by
    cases announcesCreate t ept <;> cases send <;> decide
  simp only [rpmsgCreateEpt, Bool.true_eq_false, if_false, ht]
  generalize (if announcesCreate t ept = true then send.status
    else RPMSG_SUCCESS) = status at hstatus
  split <;> exact hstatus

theorem AddrInv.run (h : AddrInv s) {c : EptCall} (hallowed : c.Allowed s)
    (hsound : c.Sound s) : AddrInv (c.run s) := by
  cases c with
  | create ept name src dest send => exact h.create hallowed hsound
  | destroy ept =>
    simp only [EptCall.run, rpmsgDestroyEpt]
    by_cases hmem : ept ∈ s.endpoints
    · split
      · exact h
      · exact h.unregister hmem
    · rw [if_pos (h.idle ept hmem (hsound.resolve_left hmem))]
      exact h

theorem addrInv_init (hs : s.IsInit) : AddrInv s := by
  obtain ⟨supportNs, ns, releaseCb, rfl⟩ := hs
  have hzero : ∀ i, metalBitmapIsBitSet (fun _ => 0) i = false := by
    simp [metalBitmapIsBitSet]
  have hempty : AddrInv ⟨fun ept => ⟨[], false, 0, 0, 0, releaseCb ept⟩, [],
      fun _ => 0, 0, supportNs⟩ := by
    refine ⟨by simp, by simp, by simp, ?_, by simp, by simp, by simp⟩
    intro i _
    simp [hzero]
  cases supportNs with
  | false => exact hempty
  | true =>
    refine hempty.register (by simp) RPMSG_NS_EPT_ADDR (fun _ => 0) 0
      (by decide) (by decide)
      (fun h => absurd h (by decide)) fun i _ => ?_
    simp only [hzero, Bool.false_eq_true, or_false, false_iff,
      RPMSG_NS_EPT_ADDR]
    simp
    omega

theorem addrInv_of_reachable (h : EptSoundReachable s) : AddrInv s :=
  h.invariant (fun _ hi => addrInv_init hi) fun s t _ hs hst => by
    obtain ⟨c, hallowed, hsound, rfl⟩ := hst
    exact hs.run hallowed hsound

/-! ## Uniqueness, and where it ends -/

/-- No two registered endpoints share an address of the table. -/
def RpmsgDevice.AddrsDistinct (s : RpmsgDevice) : Prop :=
  ((s.endpoints.map fun e => (s.epts e).addr).filter
    (RPMSG_RESERVED_ADDRESSES ≤ ·)).Nodup

theorem AddrInv.addrsDistinct (h : AddrInv s) : s.AddrsDistinct := by
  unfold RpmsgDevice.AddrsDistinct
  rw [List.filter_map]
  refine List.Nodup.map_on ?_ (h.nodup.filter _)
  intro e he e' he' heq
  rw [List.mem_filter] at he he'
  refine h.unique e he.1 e' he'.1 ?_ heq
  have := he.2
  simpa [RPMSG_RESERVED_ADDRESSES, UInt32.le_iff_toNat_le] using this

/-- **Addresses are unique** in every run in which an arbitrary address
is asked for only while one is free: registered endpoints have different
addresses and a bit of the table is set exactly when its address is
registered. A creation that asks for any address reports
`RPMSG_ERR_ADDR` exactly when all are in use — if and only if they are
not. -/
theorem endpoint_addresses_unique {s : RpmsgDevice}
    (h : EptSoundReachable s) :
    s.AddrsDistinct ∧
    (∀ a : UInt32, RPMSG_RESERVED_ADDRESSES ≤ a →
      ((∃ e ∈ s.endpoints, (s.epts e).addr = a) ↔
        a.toNat < 1152 ∧
          metalBitmapIsBitSet s.bitmap (a.toNat - 1024) = true)) ∧
    ∀ ept name dest send,
      ((rpmsgCreateEpt s ept name RPMSG_ADDR_ANY dest true send).1 =
          RPMSG_ERR_ADDR ↔ s.AllInUse) ↔
        (EptCall.create ept name RPMSG_ADDR_ANY dest send).Sound s := by
  have hinv := addrInv_of_reachable h
  refine ⟨hinv.addrsDistinct, ?_, ?_⟩
  · intro a ha
    have hge : 1024 ≤ a.toNat := UInt32.le_iff_toNat_le.mp ha
    constructor
    · rintro ⟨e, he, rfl⟩
      have hlt := hinv.range e he
      exact ⟨hlt, (hinv.bits _ (by omega)).mpr ⟨e, he, by omega⟩⟩
    · rintro ⟨hlt, hset⟩
      obtain ⟨e, he, hea⟩ := (hinv.bits _ (by omega)).mp hset
      exact ⟨e, he, UInt32.toNat_inj.mp (by omega)⟩
  · intro ept name dest send
    have hne := rpmsgCreateEpt_any_status s ept name dest send
    constructor
    · exact fun hiff _ hall => hne (hiff.mpr hall)
    · exact fun hsound => ⟨fun heq => absurd heq hne,
        fun hall => absurd hall (hsound rfl)⟩

/-- `n` endpoints created one after another under any address. -/
def createMany (s : RpmsgDevice) : Nat → RpmsgDevice
  | 0 => s
  | n + 1 => (EptCall.create n none RPMSG_ADDR_ANY RPMSG_ADDR_ANY .sent).run
      (createMany s n)

/-- A device without name service. -/
def plainDevice : RpmsgDevice := RpmsgDevice.init false 0 fun _ => false

theorem endpoint_addresses_unique_first :
    EptSoundReachable (createMany plainDevice 1) ∧
      (createMany plainDevice 1).AddrsDistinct := by
  have h0 : EptSoundReachable plainDevice := .start ⟨false, 0, _, rfl⟩
  have hfree : ¬ plainDevice.AllInUse := by
    intro hall
    obtain ⟨e, he, -⟩ := hall 0 (by decide)
    cases he
  have h1 : EptSoundReachable (createMany plainDevice 1) :=
    h0.next ⟨.create 0 none RPMSG_ADDR_ANY RPMSG_ADDR_ANY .sent,
      List.not_mem_nil, fun _ => hfree, rfl⟩
  exact ⟨h1, (endpoint_addresses_unique h1).1⟩

theorem createMany_endpoints (s : RpmsgDevice) (hs : s.endpoints = [])
    (n : Nat) : (createMany s n).endpoints = List.range n := by
  induction n with
  | zero => exact hs
  | succ n ih =>
    obtain ⟨bitmap, bitnext, addr, -, -, ht⟩ :=
      createEptLocked_any (createMany s n) n none RPMSG_ADDR_ANY
    simp only [createMany, EptCall.run, rpmsgCreateEpt, Bool.true_eq_false,
      if_false, ht]
    simp [announcesCreate, rpmsgRegisterEndpoint, RpmsgDevice.modify,
      RPMSG_SUCCESS, List.range_succ, ih]

/-- The creation after the last free address: two endpoints share one. -/
theorem endpoint_address_collision :
    EptReachable (createMany plainDevice 129) ∧
      ¬ (createMany plainDevice 129).AddrsDistinct := by
  refine ⟨?_, ?_⟩
  · have hall : ∀ n, EptReachable (createMany plainDevice n) := by
      intro n
      induction n with
      | zero => exact .start ⟨false, 0, _, rfl⟩
      | succ n ih =>
        refine ih.next ⟨_, ?_, rfl⟩
        simp [EptCall.Allowed, createMany_endpoints plainDevice rfl]
    exact hall 129
  · unfold RpmsgDevice.AddrsDistinct
    decide +kernel

end OpenAmp.Rpmsg
