import OpenAmp.Rpmsg.Address

/-!
# Creation leaves nothing half done

`rpmsg_create_ept` takes an address and publishes the endpoint before it
announces it, and takes both back when the announcement cannot be sent.
What it takes back it reads from the endpoint. That undoes the creation as
long as the address was free before; a search in a full table finds the
address of another endpoint.
-/

namespace OpenAmp.Rpmsg

open OpenAmp.Metal

variable {s t : RpmsgDevice} {ept : Nat} {src dest : UInt32}
  {name : Option (List UInt8)}

/-- An address of the table that no endpoint has. -/
def RpmsgDevice.FreeAddr (s : RpmsgDevice) (addr : UInt32) : Prop :=
  1024 ≤ addr.toNat ∧ addr.toNat < 1152 ∧
    ∀ e ∈ s.endpoints, (s.epts e).addr ≠ addr

/-- The list and the table are those of before, and the object is not on
the list. -/
structure Untouched (s t : RpmsgDevice) (ept : Nat) : Prop where
  endpoints : t.endpoints = s.endpoints
  bitmap : t.bitmap = s.bitmap
  absent : ept ∉ t.endpoints

/-- The object was added and nothing else changed: it has the address that
was asked for, or one that was free, and the table records just that. -/
structure Added (s t : RpmsgDevice) (ept : Nat) (src : UInt32) : Prop where
  endpoints : t.endpoints = s.endpoints ++ [ept]
  others : ∀ e, e ≠ ept → t.epts e = s.epts e
  addr : if src = RPMSG_ADDR_ANY then s.FreeAddr (t.epts ept).addr
    else (t.epts ept).addr = src
  bits : ∀ i < 128, metalBitmapIsBitSet t.bitmap i = true ↔
    (t.epts ept).addr.toNat = 1024 + i ∨ metalBitmapIsBitSet s.bitmap i = true

/-- A creation that returned `r.1` and left `r.2` did all of its work or
none. -/
def AllOrNothing (s : RpmsgDevice) (ept : Nat) (src : UInt32)
    (r : Int × RpmsgDevice) : Prop :=
  (r.1 ≠ 0 → Untouched s r.2 ept) ∧ (r.1 = 0 → Added s r.2 ept src)

/-! ## One registration -/

/-- Taking an object off the list to whose end it was put. -/
theorem unregister_register (hept : ept ∉ s.endpoints) (addr : UInt32) :
    (rpmsgUnregisterEndpoint (rpmsgRegisterEndpoint s ept name addr dest)
      ept).endpoints = s.endpoints := by
  rw [rpmsgUnregisterEndpoint_endpoints]
  show (s.endpoints ++ [ept]).erase ept = s.endpoints
  rw [List.erase_append_right _ hept]
  simp

/-- The table after a registration is taken back. -/
theorem unregister_register_bitmap {addr : UInt32} (hlt : addr.toNat < 1152) :
    (rpmsgUnregisterEndpoint (rpmsgRegisterEndpoint s ept name addr dest)
      ept).bitmap =
        rpmsgReleaseAddress s.bitmap RPMSG_ADDR_BMP_SIZE addr.toInt32 := by
  have hany : addr ≠ RPMSG_ADDR_ANY := by
    rintro rfl
    exact absurd hlt (by decide)
  simp only [rpmsgUnregisterEndpoint, rpmsgRegisterEndpoint,
    RpmsgDevice.modify, Function.update_self, ne_eq, hany, not_false_eq_true,
    if_true]

/-- Releasing an address takes back that it was given out. -/
theorem TookAddress.release {bitmap bitmap' : Bitmap} {addr : UInt32}
    (h : TookAddress bitmap addr bitmap') :
    rpmsgReleaseAddress bitmap' RPMSG_ADDR_BMP_SIZE addr.toInt32 = bitmap := by
  rw [rpmsgReleaseAddress, addrBit_eq]
  cases h with
  | reserved hlt =>
    rw [if_neg (by omega)]
  | recorded hbit haddr hclear =>
    rw [if_pos (by omega), haddr, Nat.add_sub_cancel_left]
    exact clearBit_setBit hclear

/-- A creation is a registration and its announcement, which may take the
registration back. -/
theorem rpmsgCreateEpt_of_ok (send : SendOutcome)
    (h : createEptLocked s ept name src dest = .ok t) :
    rpmsgCreateEpt s ept name src dest true send = (RPMSG_SUCCESS, t) ∨
      ∃ status ≠ 0, rpmsgCreateEpt s ept name src dest true send =
        (status, rpmsgUnregisterEndpoint t ept) := by
  simp only [rpmsgCreateEpt, Bool.true_eq_false, if_false, h]
  generalize hstatus : (if announcesCreate t ept = true then send.status
    else RPMSG_SUCCESS) = status
  by_cases hzero : status = 0
  · left
    rw [if_neg (not_not.mpr hzero), hzero]
    rfl
  · right
    exact ⟨status, hzero, if_pos hzero⟩

/-! ## Creation -/

/-- While an address is free, or none is to be picked, a creation is done
or undone. -/
theorem AddrInv.allOrNothing (h : AddrInv s) (hept : ept ∉ s.endpoints)
    (hsound : src = RPMSG_ADDR_ANY → ¬ s.AllInUse) (send : SendOutcome) :
    AllOrNothing s ept src
      (rpmsgCreateEpt s ept name src dest true send) := by
  rcases @createEptLocked_cases s ept h.next name src dest
      fun hany => h.exists_clear (hsound hany) with
    ⟨-, status, hne, heq⟩ | ⟨bitmap, bitnext, addr, htook, -, haddr, heq⟩
  · -- refused under the lock
    have hres : rpmsgCreateEpt s ept name src dest true send =
        (status, s) := by
      simp only [rpmsgCreateEpt, heq, Bool.true_eq_false, if_false]
    rw [hres]
    exact ⟨fun _ => ⟨rfl, rfl, hept⟩, fun h0 => absurd h0 hne⟩
  rcases rpmsgCreateEpt_of_ok send heq with hres | ⟨status, hne, hres⟩
  · -- announced, or not to be
    rw [hres]
    refine ⟨fun h0 => absurd rfl h0, fun _ => ⟨rfl, ?_, ?_, ?_⟩⟩
    · intro e he
      exact Function.update_of_ne he _ _
    · simp only [rpmsgRegisterEndpoint, RpmsgDevice.modify,
        Function.update_self]
      split
      next hany =>
        rw [if_pos hany] at haddr
        exact ⟨haddr, htook.lt, h.not_held htook haddr⟩
      next hany =>
        rwa [if_neg hany] at haddr
    · intro i hi
      simp only [rpmsgRegisterEndpoint, RpmsgDevice.modify,
        Function.update_self]
      exact htook.bit hi
  · -- the announcement failed
    have hend : (rpmsgUnregisterEndpoint (rpmsgRegisterEndpoint
        { s with bitmap := bitmap, bitnext := bitnext } ept name addr dest)
        ept).endpoints = s.endpoints :=
      unregister_register (s := { s with bitmap := bitmap, bitnext := bitnext })
        hept addr
    rw [hres]
    refine ⟨fun _ => ⟨hend, ?_, ?_⟩, fun h0 => absurd h0 hne⟩
    · exact (unregister_register_bitmap htook.lt).trans htook.release
    · show ept ∉ (rpmsgUnregisterEndpoint _ ept).endpoints
      rw [hend]
      exact hept

/-- With every address in use the search still answers with one: a creation
that succeeds has the address of another endpoint, and one that fails takes
it from the table. -/
theorem AddrInv.not_allOrNothing (h : AddrInv s) (hfull : s.AllInUse)
    (send : SendOutcome) :
    ¬ AllOrNothing s ept RPMSG_ADDR_ANY
      (rpmsgCreateEpt s ept name RPMSG_ADDR_ANY dest true send) := by
  obtain ⟨bitmap, bitnext, addr, hge, hlt, heq⟩ :=
    createEptLocked_any s ept name dest
  obtain ⟨e, he, hea⟩ := hfull (addr.toNat - 1024) (by omega)
  rintro ⟨hfailed, hdone⟩
  rcases rpmsgCreateEpt_of_ok send heq with hres | ⟨status, hne, hres⟩
  · rw [hres] at hdone
    have hfree := (hdone rfl).addr
    simp only [if_true, rpmsgRegisterEndpoint, RpmsgDevice.modify,
      Function.update_self] at hfree
    exact hfree.2.2 e he (UInt32.toNat_inj.mp (by omega))
  · rw [hres] at hfailed
    have hsame := (hfailed hne).bitmap
    have hset := (h.bits _ (by omega)).mpr ⟨e, he, hea⟩
    rw [← hsame, unregister_register_bitmap hlt, rpmsgReleaseAddress_bit]
      at hset
    have hown : addr.toNat < 1152 ∧ addr.toNat = 1024 + (addr.toNat - 1024) :=
      ⟨hlt, by omega⟩
    simp [hown.1, ← hown.2] at hset

/-- It takes 128 endpoints to use all addresses. -/
theorem RpmsgDevice.AllInUse.length_le (h : s.AllInUse) :
    128 ≤ s.endpoints.length := by
  have hsub : List.range 128 ⊆
      s.endpoints.map fun e => (s.epts e).addr.toNat - 1024 := by
    intro i hi
    obtain ⟨e, he, hea⟩ := h i (List.mem_range.mp hi)
    exact List.mem_map.mpr ⟨e, he, by omega⟩
  have hle := List.Nodup.length_le_of_subset List.nodup_range hsub
  rwa [List.length_range, List.length_map] at hle

theorem createMany_reachable : ∀ n ≤ 128,
    EptSoundReachable (createMany plainDevice n) := by
  intro n
  induction n with
  | zero =>
    intro _
    exact .start ⟨false, 0, _, rfl⟩
  | succ n ih =>
    intro hn
    have hends := createMany_endpoints plainDevice rfl n
    refine (ih (by omega)).next ⟨.create n none RPMSG_ADDR_ANY RPMSG_ADDR_ANY
      .sent, ?_, fun _ hall => ?_, rfl⟩
    · simp [EptCall.Allowed, hends]
    · have hle := hall.length_le
      rw [hends, List.length_range] at hle
      omega

end OpenAmp.Rpmsg
