import OpenAmp.Metal.Bitmap

/-!
# Endpoints and their addresses

The endpoint half of `open-amp/lib/rpmsg/rpmsg.c`: the table of local
addresses, registration and lookup of endpoints, creation and
destruction. Endpoint objects belong to the application; here an object
is a number, and a device carries the contents of all objects with the
list of those it has registered.

`int` arithmetic on addresses is two's complement. The outcome of an
announcement is decided outside these functions and handed in.
-/

namespace OpenAmp.Rpmsg

open OpenAmp.Metal

def RPMSG_NAME_SIZE : Nat := 32
def RPMSG_ADDR_BMP_SIZE : Int32 := 128
def RPMSG_NS_EPT_ADDR : UInt32 := 0x35
def RPMSG_RESERVED_ADDRESSES : UInt32 := 1024
def RPMSG_ADDR_ANY : UInt32 := 0xFFFFFFFF

def RPMSG_SUCCESS : Int := 0
def RPMSG_ERR_NO_BUFF : Int := -2002
def RPMSG_ERR_PARAM : Int := -2003
def RPMSG_ERR_ADDR : Int := -2007

/-! ## The address table -/

/-- `rpmsg_get_address`. -/
def rpmsgGetAddress (bitmap : Bitmap) (start : UInt32) (size : Int32) :
    UInt32 × Bitmap :=
  let nextbit := metalBitmapNextClearBit bitmap start size.toUInt32
  if nextbit < size.toUInt32 then
    (RPMSG_RESERVED_ADDRESSES + nextbit,
      metalBitmapSetBit bitmap nextbit.toNat)
  else (RPMSG_ADDR_ANY, bitmap)

/-- `addr - RPMSG_RESERVED_ADDRESSES` when that is a bit of the table. -/
def addrBit (size addr : Int32) : Option Nat :=
  let addr := addr - RPMSG_RESERVED_ADDRESSES.toInt32
  if 0 ≤ addr ∧ addr < size then some addr.toNatClampNeg else none

/-- `rpmsg_release_address`. -/
def rpmsgReleaseAddress (bitmap : Bitmap) (size addr : Int32) : Bitmap :=
  match addrBit size addr with
  | some bit => metalBitmapClearBit bitmap bit
  | none => bitmap

/-- `rpmsg_is_address_set`. -/
def rpmsgIsAddressSet (bitmap : Bitmap) (size addr : Int32) : Int :=
  match addrBit size addr with
  | some bit => if metalBitmapIsBitSet bitmap bit then 1 else 0
  | none => RPMSG_ERR_PARAM

/-- `rpmsg_set_address`. -/
def rpmsgSetAddress (bitmap : Bitmap) (size addr : Int32) : Int × Bitmap :=
  match addrBit size addr with
  | some bit => (RPMSG_SUCCESS, metalBitmapSetBit bitmap bit)
  | none => (RPMSG_ERR_PARAM, bitmap)

/-! ## Devices and endpoints -/

/-- `struct rpmsg_endpoint`. `name` holds the characters before the
terminating zero, `rdev` whether the device pointer is set, `releaseCb`
whether a release callback is installed. -/
structure RpmsgEndpoint where
  name : List UInt8
  rdev : Bool
  addr : UInt32
  destAddr : UInt32
  refcnt : UInt32
  releaseCb : Bool
deriving DecidableEq, Repr

/-- `struct rpmsg_device` with the endpoint objects: `endpoints` is the
list of registered ones, in its order. -/
structure RpmsgDevice where
  epts : Nat → RpmsgEndpoint
  endpoints : List Nat
  bitmap : Bitmap
  bitnext : UInt32
  supportNs : Bool

/-- `safe_strcpy` into a name array: at most 31 characters are kept. -/
def copyName (name : List UInt8) : List UInt8 :=
  (name.takeWhile (· ≠ 0)).take (RPMSG_NAME_SIZE - 1)

/-- Assignment to fields of endpoint `ept`. -/
def RpmsgDevice.modify (rdev : RpmsgDevice) (ept : Nat)
    (f : RpmsgEndpoint → RpmsgEndpoint) : RpmsgDevice :=
  { rdev with epts := Function.update rdev.epts ept (f (rdev.epts ept)) }

/-- `rpmsg_ept_incref`. -/
def rpmsgEptIncref (e : RpmsgEndpoint) : RpmsgEndpoint :=
  { e with refcnt := e.refcnt + 1 }

/-- `rpmsg_ept_decref`: the last reference clears the device pointer,
unless a release callback is there to be told. -/
def rpmsgEptDecref (e : RpmsgEndpoint) : RpmsgEndpoint :=
  let e := { e with refcnt := e.refcnt - 1 }
  if e.refcnt = 0 ∧ e.releaseCb = false then { e with rdev := false } else e

@[simp] theorem rpmsgEptDecref_releaseCb (e : RpmsgEndpoint) :
    (rpmsgEptDecref e).releaseCb = e.releaseCb := by
  simp only [rpmsgEptDecref]
  split <;> rfl

@[simp] theorem rpmsgEptDecref_destAddr (e : RpmsgEndpoint) :
    (rpmsgEptDecref e).destAddr = e.destAddr := by
  simp only [rpmsgEptDecref]
  split <;> rfl

@[simp] theorem rpmsgEptDecref_refcnt (e : RpmsgEndpoint) :
    (rpmsgEptDecref e).refcnt = e.refcnt - 1 := by
  simp only [rpmsgEptDecref]
  split <;> rfl

@[simp] theorem RpmsgDevice.modify_self (rdev : RpmsgDevice) (o : Nat)
    (f : RpmsgEndpoint → RpmsgEndpoint) :
    (rdev.modify o f).epts o = f (rdev.epts o) := by
  simp [RpmsgDevice.modify]

theorem RpmsgDevice.modify_of_ne (rdev : RpmsgDevice) {o o' : Nat}
    (f : RpmsgEndpoint → RpmsgEndpoint) (h : o' ≠ o) :
    (rdev.modify o f).epts o' = rdev.epts o' := by
  simp [RpmsgDevice.modify, h]

@[simp] theorem RpmsgDevice.modify_endpoints (rdev : RpmsgDevice) (o : Nat)
    (f : RpmsgEndpoint → RpmsgEndpoint) :
    (rdev.modify o f).endpoints = rdev.endpoints := rfl

@[simp] theorem RpmsgDevice.modify_supportNs (rdev : RpmsgDevice) (o : Nat)
    (f : RpmsgEndpoint → RpmsgEndpoint) :
    (rdev.modify o f).supportNs = rdev.supportNs := rfl

/-- The test `rpmsg_get_endpoint` makes on one endpoint. -/
def endpointMatches (name : Option (List UInt8)) (addr destAddr : UInt32)
    (e : RpmsgEndpoint) : Bool :=
  (addr ≠ RPMSG_ADDR_ANY ∧ e.addr = addr) ∨
    (name = some e.name ∧
      ((destAddr ≠ RPMSG_ADDR_ANY ∧ e.destAddr = destAddr) ∨
        (addr = RPMSG_ADDR_ANY ∧ e.destAddr = RPMSG_ADDR_ANY)))

/-- `rpmsg_get_endpoint`: the first match in list order. -/
def rpmsgGetEndpoint (rdev : RpmsgDevice) (name : Option (List UInt8))
    (addr destAddr : UInt32) : Option Nat :=
  rdev.endpoints.find? fun ept =>
    endpointMatches name addr destAddr (rdev.epts ept)

/-- `rpmsg_get_ept_from_addr`. -/
def rpmsgGetEptFromAddr (rdev : RpmsgDevice) (addr : UInt32) : Option Nat :=
  rpmsgGetEndpoint rdev none addr RPMSG_ADDR_ANY

/-- `rpmsg_unregister_endpoint`. -/
def rpmsgUnregisterEndpoint (rdev : RpmsgDevice) (ept : Nat) : RpmsgDevice :=
  let e := rdev.epts ept
  let rdev := if e.addr ≠ RPMSG_ADDR_ANY then
      { rdev with bitmap :=
          rpmsgReleaseAddress rdev.bitmap RPMSG_ADDR_BMP_SIZE e.addr.toInt32 }
    else rdev
  { rdev with endpoints := rdev.endpoints.erase ept }.modify ept rpmsgEptDecref

section Unregister

variable (rdev : RpmsgDevice) (id : Nat)

theorem rpmsgUnregisterEndpoint_endpoints :
    (rpmsgUnregisterEndpoint rdev id).endpoints = rdev.endpoints.erase id := by
  simp only [rpmsgUnregisterEndpoint, RpmsgDevice.modify_endpoints]
  split <;> rfl

theorem rpmsgUnregisterEndpoint_self :
    (rpmsgUnregisterEndpoint rdev id).epts id =
      rpmsgEptDecref (rdev.epts id) := by
  simp only [rpmsgUnregisterEndpoint, RpmsgDevice.modify_self]
  split <;> rfl

theorem rpmsgUnregisterEndpoint_other {o : Nat} (ho : o ≠ id) :
    (rpmsgUnregisterEndpoint rdev id).epts o = rdev.epts o := by
  simp only [rpmsgUnregisterEndpoint]
  rw [RpmsgDevice.modify_of_ne _ _ ho]
  split <;> rfl

theorem rpmsgUnregisterEndpoint_supportNs :
    (rpmsgUnregisterEndpoint rdev id).supportNs = rdev.supportNs := by
  simp only [rpmsgUnregisterEndpoint, RpmsgDevice.modify_supportNs]
  split <;> rfl

end Unregister

/-- `rpmsg_register_endpoint`; the callbacks are not kept. -/
def rpmsgRegisterEndpoint (rdev : RpmsgDevice) (ept : Nat)
    (name : Option (List UInt8)) (src dest : UInt32) : RpmsgDevice :=
  { rdev with endpoints := rdev.endpoints ++ [ept] }.modify ept fun e =>
    { e with
      name := (name.map copyName).getD []
      refcnt := 1
      addr := src
      destAddr := dest
      rdev := true }

/-! ## Creation and destruction -/

/-- What `rpmsg_send_offchannel_raw` of `rpmsg_virtio.c` can answer to a
well-formed announcement. -/
inductive SendOutcome where
  | sent
  | param
  | noBuff
deriving DecidableEq, Repr

/-- The status `rpmsg_send_ns_message` makes of it. -/
def SendOutcome.status : SendOutcome → Int
  | .sent => RPMSG_SUCCESS
  | .param => RPMSG_ERR_PARAM
  | .noBuff => RPMSG_ERR_NO_BUFF

/-- The critical section of `rpmsg_create_ept`: choose or check the
address and register. An error is the status returned at `ret_status`. -/
def createEptLocked (rdev : RpmsgDevice) (ept : Nat)
    (name : Option (List UInt8)) (src dest : UInt32) :
    Except Int RpmsgDevice :=
  if src = RPMSG_ADDR_ANY then
    let (addr, bitmap) :=
      rpmsgGetAddress rdev.bitmap rdev.bitnext RPMSG_ADDR_BMP_SIZE
    if addr = RPMSG_ADDR_ANY then .error RPMSG_ERR_ADDR
    else
      let rdev := { rdev with
        bitmap := bitmap
        bitnext := (addr + 1) % RPMSG_ADDR_BMP_SIZE.toUInt32 }
      .ok (rpmsgRegisterEndpoint rdev ept name addr dest)
  else if RPMSG_RESERVED_ADDRESSES ≤ src then
    let status :=
      rpmsgIsAddressSet rdev.bitmap RPMSG_ADDR_BMP_SIZE src.toInt32
    if status = 0 then
      let rdev := { rdev with bitmap :=
        (rpmsgSetAddress rdev.bitmap RPMSG_ADDR_BMP_SIZE src.toInt32).2 }
      .ok (rpmsgRegisterEndpoint rdev ept name src dest)
    else if 0 < status then .error RPMSG_ERR_ADDR
    else .error status
  else .ok (rpmsgRegisterEndpoint rdev ept name src dest)

/-- Whether `rpmsg_create_ept` announces the endpoint it registered. -/
def announcesCreate (rdev : RpmsgDevice) (ept : Nat) : Bool :=
  (rdev.epts ept).name ≠ [] ∧ rdev.supportNs ∧
    (rdev.epts ept).destAddr = RPMSG_ADDR_ANY

/-- `rpmsg_create_ept`, with the answer `send` to the announcement if
one is made. `cb` says whether a receive callback was passed. -/
def rpmsgCreateEpt (rdev : RpmsgDevice) (ept : Nat)
    (name : Option (List UInt8)) (src dest : UInt32) (cb : Bool)
    (send : SendOutcome) : Int × RpmsgDevice :=
  if cb = false then (RPMSG_ERR_PARAM, rdev)
  else
    match createEptLocked rdev ept name src dest with
    | .error status => (status, rdev)
    | .ok rdev =>
      let status := if announcesCreate rdev ept then send.status
        else RPMSG_SUCCESS
      if status ≠ 0 then (status, rpmsgUnregisterEndpoint rdev ept)
      else (status, rdev)

/-- Whether `rpmsg_destroy_ept` announces the destruction. -/
def announcesDestroy (rdev : RpmsgDevice) (ept : Nat) : Bool :=
  (rdev.epts ept).name ≠ [] ∧ rdev.supportNs ∧
    RPMSG_RESERVED_ADDRESSES ≤ (rdev.epts ept).addr

/-- `rpmsg_destroy_ept`; the answer to its announcement is ignored. -/
def rpmsgDestroyEpt (rdev : RpmsgDevice) (ept : Nat) : RpmsgDevice :=
  if (rdev.epts ept).rdev = false then rdev
  else rpmsgUnregisterEndpoint rdev ept

/-! ## Reception -/

/-- `enum rpmsg_ns_flags`, the two values in use. -/
inductive NsFlags where
  | create
  | destroy
deriving DecidableEq, Repr

/-- `struct rpmsg_ns_msg`. -/
structure RpmsgNsMsg where
  name : List UInt8
  addr : UInt32
  flags : NsFlags
deriving DecidableEq, Repr

/-- `rpmsg_virtio_ns_callback`, with bind and unbind callbacks that do
nothing. A release callback is protected by a reference meanwhile. -/
def rpmsgVirtioNsCallback (rdev : RpmsgDevice) (msg : RpmsgNsMsg) :
    RpmsgDevice :=
  match rpmsgGetEndpoint rdev (some msg.name) RPMSG_ADDR_ANY msg.addr with
  | none => rdev
  | some ept =>
    match msg.flags with
    | .destroy => rdev.modify ept fun e =>
      let e := { e with destAddr := RPMSG_ADDR_ANY }
      if e.releaseCb then rpmsgEptDecref (rpmsgEptIncref e) else e
    | .create => rdev.modify ept fun e => { e with destAddr := msg.addr }

/-- The first message tells an endpoint where its peer is. -/
def learnDest (src : UInt32) (e : RpmsgEndpoint) : RpmsgEndpoint :=
  if e.destAddr = RPMSG_ADDR_ANY then { e with destAddr := src } else e

/-- What `rpmsg_virtio_rx_callback` does before it calls the endpoint
addressed by a message: find it, take a reference, and learn the peer's
address from the first message. -/
def rxLookup (rdev : RpmsgDevice) (src dst : UInt32) :
    Option Nat × RpmsgDevice :=
  match rpmsgGetEptFromAddr rdev dst with
  | none => (none, rdev)
  | some ept => (some ept, rdev.modify ept fun e =>
      let e := rpmsgEptIncref e
      if e.destAddr = RPMSG_ADDR_ANY then { e with destAddr := src } else e)

/-- What it does after the endpoint's callback. -/
def rxDone (rdev : RpmsgDevice) (ept : Option Nat) : RpmsgDevice :=
  match ept with
  | none => rdev
  | some ept => rdev.modify ept rpmsgEptDecref

/-! ## Initialisation -/

/-- The name `"NS"`. -/
def nsName : List UInt8 := [78, 83]

/-- The device as `rpmsg_init_vdev` leaves it: everything zero, and the
name-service endpoint, object `ns`, registered when the feature is on.
The application's objects are zero but for their release callbacks. -/
def RpmsgDevice.init (supportNs : Bool) (ns : Nat) (releaseCb : Nat → Bool) :
    RpmsgDevice :=
  let rdev : RpmsgDevice := {
    epts := fun ept => ⟨[], false, 0, 0, 0, releaseCb ept⟩
    endpoints := []
    bitmap := fun _ => 0
    bitnext := 0
    supportNs := supportNs }
  if supportNs then
    rpmsgRegisterEndpoint rdev ns (some nsName) RPMSG_NS_EPT_ADDR
      RPMSG_NS_EPT_ADDR
  else rdev

end OpenAmp.Rpmsg
