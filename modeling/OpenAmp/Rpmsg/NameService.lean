import Mathlib.Data.List.TakeWhile
import OpenAmp.Lib.Binding
import OpenAmp.Rpmsg.Address

/-!
# Name service

Two devices with name service, joined by two in-order channels, each
with at most one live endpoint of a given name. The application creates
and destroys the endpoint and sends to whatever it is bound to; creation
registers in one step and announces in another, and an endpoint is
destroyed after the call that created it has returned.

The devices run the code of `rpmsg.c` and `rpmsg_virtio.c`. Seen through
the live endpoint, a device is a party of `OpenAmp.Lib.Parties`, and
every step of the devices is a step of the parties or none at all; what
the parties agree on at rest, the devices do.
-/

namespace OpenAmp.Rpmsg

open OpenAmp.Lib

/-! ## The system -/

/-- The object of the name-service endpoint. -/
def nsEpt : Nat := 0

/-- A message under way: its header addresses, and its payload where
that has the size of an announcement. -/
structure Wire where
  src : UInt32
  dst : UInt32
  ns : Option RpmsgNsMsg
deriving DecidableEq, Repr

/-- The two devices, the creation each is in the middle of, and the
messages under way from each. -/
structure NsState where
  dev : Bool → RpmsgDevice
  creating : Bool → Option Nat
  chan : Bool → List Wire

/-- Both devices initialised, nothing under way. -/
def NsState.init (releaseCb : Bool → Nat → Bool) : NsState where
  dev := fun i => RpmsgDevice.init true nsEpt (releaseCb i)
  creating := fun _ => none
  chan := fun _ => []

/-- `rpmsg_send_ns_message`. -/
def nsMessage (rdev : RpmsgDevice) (ept : Nat) (flags : NsFlags) : Wire where
  src := (rdev.epts ept).addr
  dst := RPMSG_NS_EPT_ADDR
  ns := some ⟨copyName (rdev.epts ept).name, (rdev.epts ept).addr, flags⟩

/-- One round of `rpmsg_virtio_rx_callback`: the endpoint addressed is
called. Only the name-service endpoint's callback touches the device. -/
def receive (rdev : RpmsgDevice) (w : Wire) : RpmsgDevice :=
  let (ept, rdev) := rxLookup rdev w.src w.dst
  let rdev := match w.ns with
    | some msg => if ept = some nsEpt then rpmsgVirtioNsCallback rdev msg
      else rdev
    | none => rdev
  rxDone rdev ept

/-- Device `i` becomes `rdev` and sends `ws`. -/
def NsState.put (s : NsState) (i : Bool) (rdev : RpmsgDevice)
    (creating : Option Nat) (ws : List Wire) : NsState where
  dev := Function.update s.dev i rdev
  creating := Function.update s.creating i creating
  chan := Function.update s.chan i (s.chan i ++ ws)

inductive NsStep (name : List UInt8) : NsState → NsState → Prop where
  | register {s : NsState} (i : Bool) (ept : Nat) {rdev : RpmsgDevice}
      (hnone : ∀ e ∈ (s.dev i).endpoints, e = nsEpt) (hept : ept ≠ nsEpt)
      (hidle : s.creating i = none)
      (h : createEptLocked (s.dev i) ept (some name) RPMSG_ADDR_ANY
        RPMSG_ADDR_ANY = .ok rdev) :
      NsStep name s (s.put i rdev (some ept) [])
  | announce {s : NsState} (i : Bool) {ept : Nat}
      (hcreating : s.creating i = some ept) :
      NsStep name s (s.put i (s.dev i) none
        (if announcesCreate (s.dev i) ept then
          [nsMessage (s.dev i) ept .create] else []))
  | destroy {s : NsState} (i : Bool) {ept : Nat}
      (hmem : ept ∈ (s.dev i).endpoints) (hept : ept ≠ nsEpt)
      (hidle : s.creating i = none) :
      NsStep name s (s.put i (rpmsgDestroyEpt (s.dev i) ept) none
        (if announcesDestroy (s.dev i) ept then
          [nsMessage (s.dev i) ept .destroy] else []))
  | send {s : NsState} (i : Bool) {ept : Nat} (payload : Option RpmsgNsMsg)
      (hmem : ept ∈ (s.dev i).endpoints) (hept : ept ≠ nsEpt)
      (hdest : ((s.dev i).epts ept).destAddr ≠ RPMSG_ADDR_ANY) :
      NsStep name s (s.put i (s.dev i) (s.creating i)
        [⟨((s.dev i).epts ept).addr, ((s.dev i).epts ept).destAddr, payload⟩])
  | deliver {s : NsState} (i : Bool) {w : Wire} {rest : List Wire}
      (h : s.chan i = w :: rest) :
      NsStep name s { s with
        dev := Function.update s.dev (!i) (receive (s.dev !i) w)
        chan := Function.update s.chan i rest }

/-- The states of all runs with endpoints named `name`. -/
def NsReachable (name : List UInt8) : NsState → Prop :=
  Reachable (fun s => ∃ releaseCb, s = NsState.init releaseCb) (NsStep name)

/-! ## A device with at most one live endpoint -/

/-- The addresses `rpmsg_get_address` hands out. -/
def UserAddr (a : UInt32) : Prop := 1024 ≤ a.toNat ∧ a.toNat < 1152

theorem UserAddr.ne_any {a : UInt32} (h : UserAddr a) : a ≠ RPMSG_ADDR_ANY := by
  rintro rfl
  simp [UserAddr, RPMSG_ADDR_ANY] at h

theorem UserAddr.ne_ns {a : UInt32} (h : UserAddr a) :
    a ≠ RPMSG_NS_EPT_ADDR := by
  rintro rfl
  simp [UserAddr, RPMSG_NS_EPT_ADDR] at h

/-- A live endpoint of the name. -/
structure EptOk (name : List UInt8) (e : RpmsgEndpoint) : Prop where
  name : e.name = copyName name
  addr : UserAddr e.addr
  dest : e.destAddr = RPMSG_ADDR_ANY ∨ UserAddr e.destAddr
  refcnt : e.refcnt = 1
  rdev : e.rdev = true

/-- A device with the name-service endpoint and `live`. -/
structure SideOk (name : List UInt8) (rdev : RpmsgDevice)
    (live : Option Nat) : Prop where
  list : rdev.endpoints = nsEpt :: live.toList
  live_ne : ∀ o, live = some o → o ≠ nsEpt
  nsNamed : (rdev.epts nsEpt).name = nsName
  nsAddr : (rdev.epts nsEpt).addr = RPMSG_NS_EPT_ADDR
  nsDest : (rdev.epts nsEpt).destAddr ≠ RPMSG_ADDR_ANY
  support : rdev.supportNs = true
  ept : ∀ o, live = some o → EptOk name (rdev.epts o)

/-- A message one of the two applications or devices sent. -/
def WireOk (name : List UInt8) (w : Wire) : Prop :=
  (w.dst = RPMSG_NS_EPT_ADDR ∧ ∃ x flags,
    w.ns = some ⟨copyName name, x, flags⟩ ∧ UserAddr x) ∨
  (UserAddr w.src ∧ UserAddr w.dst)

/-- What an endpoint is bound to. -/
def boundTo (e : RpmsgEndpoint) : Option UInt32 :=
  if e.destAddr = RPMSG_ADDR_ANY then none else some e.destAddr

/-- The live endpoint as a port. -/
def portOf (rdev : RpmsgDevice) : Option (Port UInt32) :=
  rdev.endpoints[1]?.map fun o => ⟨(rdev.epts o).addr, boundTo (rdev.epts o)⟩

/-- An announcement as the parties see it. -/
def NsFlags.announce (x : UInt32) : NsFlags → Announce UInt32
  | .create => .create x
  | .destroy => .destroy x

/-- A message as the parties see it. -/
def announceOf (w : Wire) : Announce UInt32 :=
  match w.ns with
  | some msg => if w.dst = RPMSG_NS_EPT_ADDR then msg.flags.announce msg.addr
    else .data w.src w.dst
  | none => .data w.src w.dst

theorem decref_incref (e : RpmsgEndpoint) (h : e.refcnt = 1) :
    rpmsgEptDecref (rpmsgEptIncref e) = e := by
  have h1 : e.refcnt + 1 - 1 = e.refcnt := by simp
  have h2 : e.refcnt ≠ 0 := by rw [h]; decide
  simp [rpmsgEptDecref, rpmsgEptIncref, h1, h2]

variable {name : List UInt8} {rdev : RpmsgDevice} {live : Option Nat}

theorem SideOk.live_eq (h : SideOk name rdev live) {ept : Nat}
    (hmem : ept ∈ rdev.endpoints) (hept : ept ≠ nsEpt) : live = some ept := by
  rw [h.list] at hmem
  cases live with
  | none => simp [hept] at hmem
  | some o => simpa [hept, eq_comm] using hmem

/-- A change to the live endpoint that keeps it one. -/
theorem SideOk.modify {o : Nat} (h : SideOk name rdev (some o))
    {f : RpmsgEndpoint → RpmsgEndpoint} (hf : EptOk name (f (rdev.epts o))) :
    SideOk name (rdev.modify o f) (some o) := by
  have hne := h.live_ne o rfl
  refine ⟨h.list, h.live_ne, ?_, ?_, ?_, h.support, ?_⟩
  · rw [rdev.modify_of_ne f (Ne.symm hne)]
    exact h.nsNamed
  · rw [rdev.modify_of_ne f (Ne.symm hne)]
    exact h.nsAddr
  · rw [rdev.modify_of_ne f (Ne.symm hne)]
    exact h.nsDest
  · rintro o' ho'
    cases ho'
    rw [RpmsgDevice.modify_self]
    exact hf

/-- References to the name-service endpoint come and go unnoticed. -/
theorem SideOk.modify_ns (h : SideOk name rdev live)
    {f : RpmsgEndpoint → RpmsgEndpoint}
    (hf : ∀ e, e.destAddr ≠ RPMSG_ADDR_ANY →
      (f e).name = e.name ∧ (f e).addr = e.addr ∧ (f e).destAddr = e.destAddr) :
    SideOk name (rdev.modify nsEpt f) live ∧
      portOf (rdev.modify nsEpt f) = portOf rdev := by
  obtain ⟨hname, haddr, hdest⟩ := hf (rdev.epts nsEpt) h.nsDest
  have hother : ∀ o, live = some o →
      (rdev.modify nsEpt f).epts o = rdev.epts o :=
    fun o ho => rdev.modify_of_ne f (h.live_ne o ho)
  refine ⟨⟨h.list, h.live_ne, ?_, ?_, ?_, h.support, ?_⟩, ?_⟩
  · rw [RpmsgDevice.modify_self, hname]
    exact h.nsNamed
  · rw [RpmsgDevice.modify_self, haddr]
    exact h.nsAddr
  · rw [RpmsgDevice.modify_self, hdest]
    exact h.nsDest
  · intro o ho
    rw [hother o ho]
    exact h.ept o ho
  · cases live with
    | none => simp [portOf, h.list]
    | some o => simp [portOf, h.list, hother o rfl]

theorem SideOk.portOf_none (h : SideOk name rdev none) : portOf rdev = none := by
  simp [portOf, h.list]

theorem SideOk.portOf_some {o : Nat} (h : SideOk name rdev (some o)) :
    portOf rdev = some ⟨(rdev.epts o).addr, boundTo (rdev.epts o)⟩ := by
  simp [portOf, h.list]

theorem boundTo_any {e : RpmsgEndpoint} (h : e.destAddr = RPMSG_ADDR_ANY) :
    boundTo e = none := if_pos h

theorem boundTo_user {e : RpmsgEndpoint} {x : UInt32} (h : e.destAddr = x)
    (hx : UserAddr x) : boundTo e = some x := by
  rw [boundTo, if_neg (h ▸ hx.ne_any), h]

/-- The condition under which an announcement for `x` concerns a port. -/
theorem boundTo_iff {e : RpmsgEndpoint} {x : UInt32} (hx : UserAddr x) :
    (boundTo e = none ∨ boundTo e = some x) ↔
      (x ≠ RPMSG_ADDR_ANY ∧ e.destAddr = x) ∨ e.destAddr = RPMSG_ADDR_ANY := by
  unfold boundTo
  by_cases h : e.destAddr = RPMSG_ADDR_ANY
  · simp [h]
  · simp [h, hx.ne_any]

/-- Announcements reach the live endpoint of the name and no other. -/
theorem SideOk.nsLookup (h : SideOk name rdev live)
    (hname : copyName name ≠ nsName) (x : UInt32) :
    rpmsgGetEndpoint rdev (some (copyName name)) RPMSG_ADDR_ANY x =
      live.filter fun o =>
        decide ((x ≠ RPMSG_ADDR_ANY ∧ (rdev.epts o).destAddr = x) ∨
          (rdev.epts o).destAddr = RPMSG_ADDR_ANY) := by
  have hns : endpointMatches (some (copyName name)) RPMSG_ADDR_ANY x
      (rdev.epts nsEpt) = false := by
    simp [endpointMatches, h.nsNamed, hname]
  rw [rpmsgGetEndpoint, h.list, List.find?_cons, hns]
  cases live with
  | none => rfl
  | some o =>
    have hmatch : endpointMatches (some (copyName name)) RPMSG_ADDR_ANY x
        (rdev.epts o) = decide ((x ≠ RPMSG_ADDR_ANY ∧ (rdev.epts o).destAddr = x) ∨
          (rdev.epts o).destAddr = RPMSG_ADDR_ANY) := by
      simp [endpointMatches, (h.ept o rfl).name]
    simp only [Option.toList_some, List.find?_cons, hmatch, List.find?_nil,
      Option.filter_some]
    split <;> simp_all

/-- An announcement binds or unbinds the live endpoint as it does a
port. -/
theorem SideOk.nsCallback (h : SideOk name rdev live)
    (hname : copyName name ≠ nsName) {x : UInt32} (hx : UserAddr x)
    (flags : NsFlags) :
    SideOk name (rpmsgVirtioNsCallback rdev ⟨copyName name, x, flags⟩) live ∧
    portOf (rpmsgVirtioNsCallback rdev ⟨copyName name, x, flags⟩) =
      (portOf rdev).map (Port.hear · (flags.announce x)) := by
  rw [rpmsgVirtioNsCallback]
  simp only [h.nsLookup hname x]
  cases live with
  | none =>
    refine ⟨h, ?_⟩
    show portOf rdev = _
    rw [h.portOf_none]
    rfl
  | some o =>
    have hok := h.ept o rfl
    rw [h.portOf_some, Option.filter_some, Option.map_some]
    by_cases hm : (x ≠ RPMSG_ADDR_ANY ∧ (rdev.epts o).destAddr = x) ∨
        (rdev.epts o).destAddr = RPMSG_ADDR_ANY
    · have hbound := (boundTo_iff hx).mpr hm
      rw [decide_eq_true hm]
      cases flags with
      | create =>
        have hside := h.modify (f := fun e => { e with destAddr := x })
          ⟨hok.name, hok.addr, .inr hx, hok.refcnt, hok.rdev⟩
        refine ⟨hside, ?_⟩
        simp only [if_true]
        rw [hside.portOf_some, RpmsgDevice.modify_self, boundTo_user rfl hx,
          NsFlags.announce, Port.hear, if_pos hbound]
      | destroy =>
        -- the reference around the unbind callback leaves no trace
        have hkeep : ∀ e : RpmsgEndpoint, e.refcnt = 1 →
            (if e.releaseCb then rpmsgEptDecref (rpmsgEptIncref e) else e) = e := by
          intro e he
          split
          · exact decref_incref e he
          · rfl
        have hside := h.modify
          (f := fun e => { e with destAddr := RPMSG_ADDR_ANY })
          ⟨hok.name, hok.addr, .inl rfl, hok.refcnt, hok.rdev⟩
        have heq : (rdev.modify o fun e =>
            let e := { e with destAddr := RPMSG_ADDR_ANY }
            if e.releaseCb then rpmsgEptDecref (rpmsgEptIncref e) else e) =
            rdev.modify o fun e => { e with destAddr := RPMSG_ADDR_ANY } := by
          unfold RpmsgDevice.modify
          congr 2
          exact hkeep { rdev.epts o with destAddr := RPMSG_ADDR_ANY } hok.refcnt
        simp only [if_true]
        rw [heq]
        refine ⟨hside, ?_⟩
        rw [hside.portOf_some, RpmsgDevice.modify_self, boundTo_any rfl,
          NsFlags.announce, Port.hear, if_pos hbound]
    · have hbound : ¬(boundTo (rdev.epts o) = none ∨
          boundTo (rdev.epts o) = some x) := fun hc => hm ((boundTo_iff hx).mp hc)
      rw [decide_eq_false hm]
      refine ⟨h, ?_⟩
      show portOf rdev = _
      rw [h.portOf_some]
      cases flags <;> simp only [NsFlags.announce, Port.hear] <;>
        rw [if_neg hbound]

/-! ## Reception as a port sees it -/

theorem SideOk.lookup_ns (h : SideOk name rdev live) :
    rpmsgGetEptFromAddr rdev RPMSG_NS_EPT_ADDR = some nsEpt := by
  have hmatch : endpointMatches none RPMSG_NS_EPT_ADDR RPMSG_ADDR_ANY
      (rdev.epts nsEpt) = true := by
    simp [endpointMatches, h.nsAddr, RPMSG_NS_EPT_ADDR, RPMSG_ADDR_ANY]
  rw [rpmsgGetEptFromAddr, rpmsgGetEndpoint, h.list, List.find?_cons, hmatch]

theorem SideOk.lookup_user (h : SideOk name rdev live) {dst : UInt32}
    (hdst : UserAddr dst) :
    rpmsgGetEptFromAddr rdev dst =
      live.filter fun o => decide ((rdev.epts o).addr = dst) := by
  have hns : endpointMatches none dst RPMSG_ADDR_ANY (rdev.epts nsEpt) =
      false := by
    simp [endpointMatches, h.nsAddr, hdst.ne_ns.symm]
  rw [rpmsgGetEptFromAddr, rpmsgGetEndpoint, h.list, List.find?_cons, hns]
  cases live with
  | none => rfl
  | some o =>
    have hmatch : endpointMatches none dst RPMSG_ADDR_ANY (rdev.epts o) =
        decide ((rdev.epts o).addr = dst) := by
      simp [endpointMatches, hdst.ne_any]
    simp only [Option.toList_some, List.find?_cons, hmatch, List.find?_nil,
      Option.filter_some]
    split <;> simp_all

theorem SideOk.receive_ns (h : SideOk name rdev live)
    (hname : copyName name ≠ nsName) {w : Wire} {x : UInt32} {flags : NsFlags}
    (hdst : w.dst = RPMSG_NS_EPT_ADDR)
    (hns : w.ns = some ⟨copyName name, x, flags⟩) (hx : UserAddr x) :
    SideOk name (receive rdev w) live ∧
      portOf (receive rdev w) =
        (portOf rdev).map (Port.hear · (flags.announce x)) := by
  obtain ⟨h1, hp1⟩ := h.modify_ns (f := fun e =>
    let e := rpmsgEptIncref e
    if e.destAddr = RPMSG_ADDR_ANY then { e with destAddr := w.src } else e)
    (fun e he => by
      have he' : (rpmsgEptIncref e).destAddr ≠ RPMSG_ADDR_ANY := he
      simp only [if_neg he']
      exact ⟨rfl, rfl, rfl⟩)
  obtain ⟨h2, hp2⟩ := h1.nsCallback hname hx flags
  obtain ⟨h3, hp3⟩ := h2.modify_ns (f := rpmsgEptDecref) (fun e _ => by
    simp only [rpmsgEptDecref]
    split <;> exact ⟨rfl, rfl, rfl⟩)
  have heq : receive rdev w = (rpmsgVirtioNsCallback (rdev.modify nsEpt fun e =>
      let e := rpmsgEptIncref e
      if e.destAddr = RPMSG_ADDR_ANY then { e with destAddr := w.src } else e)
      ⟨copyName name, x, flags⟩).modify nsEpt rpmsgEptDecref := by
    simp only [receive, rxLookup, hdst, h.lookup_ns, hns, if_true, rxDone]
  rw [heq]
  exact ⟨h3, by rw [hp3, hp2, hp1]⟩

theorem SideOk.receive_data (h : SideOk name rdev live) {w : Wire}
    (hsrc : UserAddr w.src) (hdst : UserAddr w.dst) :
    SideOk name (receive rdev w) live ∧
      portOf (receive rdev w) =
        (portOf rdev).map (Port.hear · (.data w.src w.dst)) := by
  cases live with
  | none =>
    -- nobody listens there, so nothing changes
    have heq : receive rdev w = rdev := by
      have hlook := h.lookup_user hdst
      rw [Option.filter_none] at hlook
      simp only [receive, rxLookup, hlook, rxDone]
      cases w.ns <;> simp
    rw [heq, h.portOf_none]
    exact ⟨h, rfl⟩
  | some o =>
    have hok := h.ept o rfl
    have hlook := h.lookup_user hdst
    rw [h.portOf_some, Option.map_some]
    by_cases haddr : (rdev.epts o).addr = w.dst
    · -- the reference is given back, the address may have been learnt
      have heq : receive rdev w = rdev.modify o fun e =>
          if e.destAddr = RPMSG_ADDR_ANY then { e with destAddr := w.src }
          else e := by
        rw [Option.filter_some, decide_eq_true haddr, if_pos rfl] at hlook
        have hne : (some o = some nsEpt) = False := by
          simpa using h.live_ne o rfl
        have hcb : ∀ d : RpmsgDevice, (match w.ns with
            | some msg => if some o = some nsEpt then rpmsgVirtioNsCallback d msg
              else d
            | none => d) = d := by
          intro d
          cases w.ns <;> simp [hne]
        simp only [receive, rxLookup, hlook, hcb, rxDone, RpmsgDevice.modify,
          Function.update_self, Function.update_idem]
        congr 2
        by_cases hany : (rdev.epts o).destAddr = RPMSG_ADDR_ANY
        · have hany' : (rpmsgEptIncref (rdev.epts o)).destAddr =
            RPMSG_ADDR_ANY := hany
          rw [if_pos hany', if_pos hany]
          exact decref_incref { rdev.epts o with destAddr := w.src } hok.refcnt
        · have hany' : (rpmsgEptIncref (rdev.epts o)).destAddr ≠
            RPMSG_ADDR_ANY := hany
          rw [if_neg hany', if_neg hany]
          exact decref_incref _ hok.refcnt
      rw [heq]
      by_cases hany : (rdev.epts o).destAddr = RPMSG_ADDR_ANY
      · have hside := h.modify (f := fun e =>
            if e.destAddr = RPMSG_ADDR_ANY then { e with destAddr := w.src }
            else e) (by
          rw [if_pos hany]
          exact ⟨hok.name, hok.addr, .inr hsrc, hok.refcnt, hok.rdev⟩)
        refine ⟨hside, ?_⟩
        rw [hside.portOf_some, RpmsgDevice.modify_self, if_pos hany,
          boundTo_user rfl hsrc, Port.hear, if_pos ⟨haddr, boundTo_any hany⟩]
      · have hside := h.modify (f := fun e =>
            if e.destAddr = RPMSG_ADDR_ANY then { e with destAddr := w.src }
            else e) (by rw [if_neg hany]; exact hok)
        have hbound : boundTo (rdev.epts o) ≠ none := by simp [boundTo, hany]
        refine ⟨hside, ?_⟩
        rw [hside.portOf_some, RpmsgDevice.modify_self, if_neg hany, Port.hear,
          if_neg fun hc => hbound hc.2]
    · -- the message is for somebody else
      have heq : receive rdev w = rdev := by
        rw [Option.filter_some, decide_eq_false haddr] at hlook
        simp only [receive, rxLookup, hlook, rxDone]
        cases w.ns <;> simp
      rw [heq, h.portOf_some, Port.hear, if_neg fun hc => haddr hc.1]
      exact ⟨h, rfl⟩

/-- **Reception is hearing**: a device does with a message what the
parties do with its announcement. -/
theorem SideOk.reception (h : SideOk name rdev live)
    (hname : copyName name ≠ nsName) {w : Wire} (hw : WireOk name w) :
    SideOk name (receive rdev w) live ∧
      portOf (receive rdev w) =
        (portOf rdev).map (Port.hear · (announceOf w)) := by
  rcases hw with ⟨hdst, x, flags, hns, hx⟩ | ⟨hsrc, hdst⟩
  · have ha : announceOf w = flags.announce x := by
      simp [announceOf, hns, hdst]
    rw [ha]
    exact h.receive_ns hname hdst hns hx
  · have ha : announceOf w = .data w.src w.dst := by
      unfold announceOf
      split
      · rw [if_neg hdst.ne_ns]
      · rfl
    rw [ha]
    exact h.receive_data hsrc hdst

/-! ## The devices refine the parties -/

/-- The system as the parties see it. -/
def partiesOf (s : NsState) : Parties UInt32 where
  port := fun i => portOf (s.dev i)
  chan := fun i => (s.chan i).map announceOf

theorem partiesOf_put (s : NsState) (i : Bool) (rdev : RpmsgDevice)
    (creating : Option Nat) (ws : List Wire) :
    partiesOf (s.put i rdev creating ws) =
      { port := Function.update (partiesOf s).port i (portOf rdev)
        chan := Function.update (partiesOf s).chan i
          ((partiesOf s).chan i ++ ws.map announceOf) } := by
  unfold partiesOf NsState.put
  congr 1 <;> funext j <;> by_cases hj : j = i
  · subst hj
    simp
  · simp [hj]
  · subst hj
    simp
  · simp [hj]

/-- Nobody bound and nothing under way. -/
theorem consistent_of_silent {s : NsState}
    (h : ∀ i, s.chan i = [] ∧ ∀ p, portOf (s.dev i) = some p → p.dest = none)
    (i : Bool) : (partiesOf s).Consistent i := by
  refine ⟨fun p x hp hx => ?_, ?_⟩
  · rw [(h !i).2 p hp] at hx
    cases hx
  · simp only [partiesOf, (h i).1]
    trivial

/-- What every run keeps. Endpoints without a name are never announced,
so nothing is ever said about them. -/
structure NsInv (name : List UInt8) (s : NsState) : Prop where
  side : ∀ i, ∃ live, SideOk name (s.dev i) live ∧
    ∀ o, s.creating i = some o → live = some o
  wires : ∀ i, ∀ w ∈ s.chan i, WireOk name w
  agree : ∀ i, (partiesOf s).Consistent i
  unnamed : copyName name = [] → ∀ i, s.chan i = [] ∧
    ∀ p, portOf (s.dev i) = some p → p.dest = none

theorem copyName_copyName (name : List UInt8) :
    copyName (copyName name) = copyName name := by
  have hall : ∀ x ∈ copyName name, x ≠ 0 := by
    intro x hx
    have := List.mem_takeWhile_imp (List.mem_of_mem_take hx)
    simpa using this
  have htake : (copyName name).takeWhile (· ≠ 0) = copyName name := by
    rw [List.takeWhile_eq_self_iff]
    intro x hx
    simpa using hall x hx
  rw [copyName, htake, copyName, List.take_take, Nat.min_self]

variable {s : NsState} {i : Bool}

/-- The conditions on one device after a step of it. -/
theorem NsInv.side_put (h : NsInv name s) {rdev : RpmsgDevice}
    {creating : Option Nat} {ws : List Wire} {live : Option Nat}
    (hside : SideOk name rdev live)
    (hcreating : ∀ o, creating = some o → live = some o) :
    ∀ j, ∃ live, SideOk name ((s.put i rdev creating ws).dev j) live ∧
      ∀ o, (s.put i rdev creating ws).creating j = some o → live = some o := by
  intro j
  by_cases hj : j = i
  · subst hj
    exact ⟨live, by simpa [NsState.put] using hside,
      by simpa [NsState.put] using hcreating⟩
  · simpa [NsState.put, hj] using h.side j

theorem NsInv.wires_put (h : NsInv name s) {rdev : RpmsgDevice}
    {creating : Option Nat} {ws : List Wire} (hws : ∀ w ∈ ws, WireOk name w) :
    ∀ j, ∀ w ∈ (s.put i rdev creating ws).chan j, WireOk name w := by
  intro j w hw
  by_cases hj : j = i
  · subst hj
    simp only [NsState.put, Function.update_self, List.mem_append] at hw
    exact hw.elim (h.wires j w) (hws w)
  · simp only [NsState.put, Function.update_of_ne hj] at hw
    exact h.wires j w hw

theorem NsInv.unnamed_put (h : NsInv name s) (i : Bool) (rdev : RpmsgDevice)
    (creating : Option Nat) (ws : List Wire)
    (hnew : copyName name = [] → ws = [] ∧
      ∀ p, portOf rdev = some p → p.dest = none) :
    copyName name = [] → ∀ j, (s.put i rdev creating ws).chan j = [] ∧
      ∀ p, portOf ((s.put i rdev creating ws).dev j) = some p →
        p.dest = none := by
  intro hempty j
  obtain ⟨hws, hport⟩ := hnew hempty
  by_cases hj : j = i
  · subst hj
    simpa [NsState.put, hws, (h.unnamed hempty j).1] using hport
  · simpa [NsState.put, hj] using h.unnamed hempty j

/-- Registration opens a port. -/
theorem NsInv.register (h : NsInv name s) {ept : Nat} {rdev : RpmsgDevice}
    (hnone : ∀ e ∈ (s.dev i).endpoints, e = nsEpt) (hept : ept ≠ nsEpt)
    (hlock : createEptLocked (s.dev i) ept (some name) RPMSG_ADDR_ANY
      RPMSG_ADDR_ANY = .ok rdev) : NsInv name (s.put i rdev (some ept) []) := by
  obtain ⟨live, hside, -⟩ := h.side i
  -- only the name service is on the list
  have hlive : live = none := by
    cases live with
    | none => rfl
    | some o =>
      have := hnone o (by rw [hside.list]; simp)
      exact absurd this (hside.live_ne o rfl)
  subst hlive
  obtain ⟨bitmap, bitnext, addr, hlo, hhi, heq⟩ :=
    createEptLocked_any (s.dev i) ept (some name) RPMSG_ADDR_ANY
  rw [heq] at hlock
  cases hlock
  generalize hr : rpmsgRegisterEndpoint _ ept (some name) addr RPMSG_ADDR_ANY =
    rdev
  have hns : rdev.epts nsEpt = (s.dev i).epts nsEpt := by
    rw [← hr, rpmsgRegisterEndpoint, RpmsgDevice.modify_of_ne _ _ (Ne.symm hept)]
  have hnew : rdev.epts ept = { (s.dev i).epts ept with
      name := copyName name
      refcnt := 1
      addr := addr
      destAddr := RPMSG_ADDR_ANY
      rdev := true } := by
    rw [← hr, rpmsgRegisterEndpoint, RpmsgDevice.modify_self]
    rfl
  have hlist : rdev.endpoints = [nsEpt, ept] := by
    rw [← hr]
    simp [rpmsgRegisterEndpoint, hside.list]
  have hok : SideOk name rdev (some ept) := by
    refine ⟨hlist, fun o ho => ?_, ?_, ?_, ?_, ?_, fun o ho => ?_⟩
    · cases ho
      exact hept
    · rw [hns]
      exact hside.nsNamed
    · rw [hns]
      exact hside.nsAddr
    · rw [hns]
      exact hside.nsDest
    · rw [← hr]
      exact hside.support
    · cases ho
      rw [hnew]
      exact ⟨rfl, ⟨hlo, hhi⟩, .inl rfl, rfl, rfl⟩
  have hport : portOf rdev = some ⟨addr, none⟩ := by
    rw [hok.portOf_some, hnew, boundTo_any rfl]
  refine ⟨h.side_put hok (fun o ho => ho), h.wires_put (by simp), ?_,
    h.unnamed_put _ _ _ _ fun _ => ⟨rfl, fun p hp => ?_⟩⟩
  · have hstep : Parties.Step (partiesOf s) (partiesOf (s.put i rdev (some ept) [])) := by
      rw [partiesOf_put, hport]
      simpa [Parties.setPort] using
        Parties.Step.openPort i addr (s := partiesOf s) hside.portOf_none
    exact hstep.consistent h.agree
  · rw [hport] at hp
    cases hp
    rfl

/-- The announcement of a live endpoint. -/
theorem SideOk.nsMessage {o : Nat} (h : SideOk name rdev (some o))
    (flags : NsFlags) :
    WireOk name (nsMessage rdev o flags) ∧
      announceOf (nsMessage rdev o flags) =
        flags.announce (rdev.epts o).addr := by
  have hok := h.ept o rfl
  refine ⟨.inl ⟨rfl, (rdev.epts o).addr, flags, ?_, hok.addr⟩, ?_⟩
  · rw [OpenAmp.Rpmsg.nsMessage, hok.name, copyName_copyName]
  · simp [announceOf, OpenAmp.Rpmsg.nsMessage]

/-- Announcing a creation says so, or nothing at all. -/
theorem NsInv.announce (h : NsInv name s) {ept : Nat}
    (hcreating : s.creating i = some ept) :
    NsInv name (s.put i (s.dev i) none
      (if announcesCreate (s.dev i) ept then
        [OpenAmp.Rpmsg.nsMessage (s.dev i) ept .create] else [])) := by
  obtain ⟨live, hside, hlive⟩ := h.side i
  have hlive := hlive ept hcreating
  subst hlive
  obtain ⟨hwire, hann⟩ := hside.nsMessage .create
  cases hc : announcesCreate (s.dev i) ept with
  | false =>
    refine ⟨h.side_put hside (by simp), h.wires_put (by simp), ?_,
      h.unnamed_put _ _ _ _ fun hempty => ⟨rfl, (h.unnamed hempty i).2⟩⟩
    have heq : partiesOf (s.put i (s.dev i) none []) = partiesOf s := by
      rw [partiesOf_put]
      simp [partiesOf]
    simp only [Bool.false_eq_true, if_false]
    rw [heq]
    exact h.agree
  | true =>
    have hnamed : copyName name ≠ [] := by
      have := (hside.ept ept rfl).name
      simp only [announcesCreate, decide_eq_true_eq] at hc
      rw [← this]
      exact hc.1
    refine ⟨h.side_put hside (by simp), h.wires_put (by simpa using hwire), ?_,
      h.unnamed_put _ _ _ _ fun hempty => absurd hempty hnamed⟩
    have hstep : Parties.Step (partiesOf s) (partiesOf (s.put i (s.dev i) none
        [OpenAmp.Rpmsg.nsMessage (s.dev i) ept .create])) := by
      rw [partiesOf_put]
      simpa [Parties.emit, hann, NsFlags.announce, partiesOf] using
        Parties.Step.announce i (s := partiesOf s) hside.portOf_some
    exact hstep.consistent h.agree

/-- Destruction closes the port and says so. -/
theorem NsInv.destroy (h : NsInv name s) {ept : Nat}
    (hmem : ept ∈ (s.dev i).endpoints) (hept : ept ≠ nsEpt) :
    NsInv name (s.put i (rpmsgDestroyEpt (s.dev i) ept) none
      (if announcesDestroy (s.dev i) ept then
        [OpenAmp.Rpmsg.nsMessage (s.dev i) ept .destroy] else [])) := by
  obtain ⟨live, hside, -⟩ := h.side i
  have hlive : live = some ept := hside.live_eq hmem hept
  subst hlive
  have hok := hside.ept ept rfl
  have hns : (rpmsgDestroyEpt (s.dev i) ept).epts nsEpt = (s.dev i).epts nsEpt := by
    rw [rpmsgDestroyEpt, if_neg (by simp [hok.rdev]), rpmsgUnregisterEndpoint,
      RpmsgDevice.modify_of_ne _ _ (Ne.symm hept)]
    split <;> rfl
  have hnew : SideOk name (rpmsgDestroyEpt (s.dev i) ept) none := by
    refine ⟨?_, by simp, ?_, ?_, ?_, ?_, by simp⟩
    · rw [rpmsgDestroyEpt, if_neg (by simp [hok.rdev]), rpmsgUnregisterEndpoint,
        if_pos hok.addr.ne_any]
      simp [hside.list, Ne.symm hept]
    · rw [hns]
      exact hside.nsNamed
    · rw [hns]
      exact hside.nsAddr
    · rw [hns]
      exact hside.nsDest
    · rw [rpmsgDestroyEpt, if_neg (by simp [hok.rdev]), rpmsgUnregisterEndpoint,
        if_pos hok.addr.ne_any]
      exact hside.support
  obtain ⟨hwire, hann⟩ := hside.nsMessage .destroy
  by_cases hnamed : copyName name = []
  · -- nothing was ever said about the endpoint, so nothing refers to it
    have hquiet : announcesDestroy (s.dev i) ept = false := by
      simp [announcesDestroy, hok.name, hnamed]
    have hun := h.unnamed_put i (rpmsgDestroyEpt (s.dev i) ept) none []
      (fun _ => ⟨rfl, by simp [hnew.portOf_none]⟩)
    rw [hquiet]
    exact ⟨h.side_put hnew (by simp), h.wires_put (by simp),
      consistent_of_silent (hun hnamed), hun⟩
  · -- the name and an address outside the reserved ones: it is announced
    have hloud : announcesDestroy (s.dev i) ept = true := by
      have hge : RPMSG_RESERVED_ADDRESSES ≤ ((s.dev i).epts ept).addr :=
        UInt32.le_iff_toNat_le.mpr hok.addr.1
      simp [announcesDestroy, hok.name, hnamed, hside.support, hge]
    rw [hloud]
    refine ⟨h.side_put hnew (by simp), h.wires_put (by simpa using hwire), ?_,
      h.unnamed_put _ _ _ _ fun hempty => absurd hempty hnamed⟩
    have hstep : Parties.Step (partiesOf s) (partiesOf (s.put i
        (rpmsgDestroyEpt (s.dev i) ept) none
        [OpenAmp.Rpmsg.nsMessage (s.dev i) ept .destroy])) := by
      rw [partiesOf_put, hnew.portOf_none]
      simpa [Parties.emit, Parties.setPort, hann, NsFlags.announce] using
        Parties.Step.close i (s := partiesOf s) hside.portOf_some
    exact hstep.consistent h.agree

/-- A message of the application is data between ports. -/
theorem NsInv.send (h : NsInv name s) {ept : Nat} (payload : Option RpmsgNsMsg)
    (hmem : ept ∈ (s.dev i).endpoints) (hept : ept ≠ nsEpt)
    (hdest : ((s.dev i).epts ept).destAddr ≠ RPMSG_ADDR_ANY) :
    NsInv name (s.put i (s.dev i) (s.creating i)
      [⟨((s.dev i).epts ept).addr, ((s.dev i).epts ept).destAddr, payload⟩]) := by
  obtain ⟨live, hside, hcreating⟩ := h.side i
  have hlive : live = some ept := hside.live_eq hmem hept
  subst hlive
  have hok := hside.ept ept rfl
  have hd := hok.dest.resolve_left hdest
  refine ⟨h.side_put hside hcreating,
    h.wires_put (by simpa using .inr ⟨hok.addr, hd⟩), ?_, ?_⟩
  · have hann : announceOf ⟨((s.dev i).epts ept).addr,
        ((s.dev i).epts ept).destAddr, payload⟩ =
        .data ((s.dev i).epts ept).addr ((s.dev i).epts ept).destAddr := by
      cases payload <;> simp [announceOf, hd.ne_ns]
    have hstep : Parties.Step (partiesOf s) (partiesOf (s.put i (s.dev i)
        (s.creating i) [⟨((s.dev i).epts ept).addr,
          ((s.dev i).epts ept).destAddr, payload⟩])) := by
      rw [partiesOf_put]
      simpa [Parties.emit, hann, partiesOf] using
        Parties.Step.send i (s := partiesOf s) hside.portOf_some
          (boundTo_user rfl hd)
    exact hstep.consistent h.agree
  · refine h.unnamed_put _ _ _ _ fun hempty => ?_
    have := (h.unnamed hempty i).2 _ hside.portOf_some
    rw [boundTo_user rfl hd] at this
    cases this

/-- Delivery is hearing. -/
theorem NsInv.deliver (h : NsInv name s) (hname : copyName name ≠ nsName)
    {w : Wire} {rest : List Wire} (hq : s.chan i = w :: rest) :
    NsInv name { s with
      dev := Function.update s.dev (!i) (receive (s.dev !i) w)
      chan := Function.update s.chan i rest } := by
  obtain ⟨live, hside, hcreating⟩ := h.side (!i)
  obtain ⟨hnew, hport⟩ := hside.reception hname
    (h.wires i w (by rw [hq]; simp))
  refine ⟨fun j => ?_, fun j w' hw' => ?_, ?_, fun hempty => ?_⟩
  · by_cases hj : j = !i
    · subst hj
      exact ⟨live, by simpa using hnew, hcreating⟩
    · simpa [hj] using h.side j
  · by_cases hj : j = i
    · subst hj
      have hrest : w' ∈ rest := by simpa using hw'
      exact h.wires j w' (by rw [hq]; exact List.mem_cons_of_mem _ hrest)
    · exact h.wires j w' (by simpa [hj] using hw')
  · -- seen from above, one announcement is heard
    have hstep := Parties.Step.deliver i (s := partiesOf s)
      (show _ = announceOf w :: rest.map announceOf by simp [partiesOf, hq])
    have heq : partiesOf { s with
        dev := Function.update s.dev (!i) (receive (s.dev !i) w)
        chan := Function.update s.chan i rest } =
        { (partiesOf s) with
          chan := Function.update (partiesOf s).chan i
            (rest.map announceOf) }.setPort (!i)
          (((partiesOf s).port !i).map (Port.hear · (announceOf w))) := by
      unfold partiesOf Parties.setPort
      congr 1 <;> funext j
      · by_cases hj : j = !i
        · subst hj
          simpa using hport
        · simp [hj]
      · by_cases hj : j = i
        · subst hj
          simp
        · simp [hj]
    rw [heq]
    exact hstep.consistent h.agree
  · have := (h.unnamed hempty i).1
    rw [hq] at this
    cases this

theorem nsInv_init (name : List UInt8) (releaseCb : Bool → Nat → Bool) :
    NsInv name (NsState.init releaseCb) where
  side i := by
    refine ⟨none, ⟨rfl, by simp, ?_, ?_, ?_, rfl, by simp⟩, by simp [NsState.init]⟩
    · simp [NsState.init, RpmsgDevice.init, rpmsgRegisterEndpoint, copyName,
        nsName, RPMSG_NAME_SIZE]
    · simp [NsState.init, RpmsgDevice.init, rpmsgRegisterEndpoint]
    · simp [NsState.init, RpmsgDevice.init, rpmsgRegisterEndpoint,
        RPMSG_NS_EPT_ADDR, RPMSG_ADDR_ANY]
  wires i w hw := by simp [NsState.init] at hw
  agree i := by
    refine ⟨fun p x hp => ?_, trivial⟩
    simp [partiesOf, portOf, NsState.init, RpmsgDevice.init,
      rpmsgRegisterEndpoint] at hp
  unnamed _ i := by
    refine ⟨rfl, fun p hp => ?_⟩
    simp [portOf, NsState.init, RpmsgDevice.init, rpmsgRegisterEndpoint] at hp

theorem NsInv.step (h : NsInv name s) (hname : copyName name ≠ nsName)
    {t : NsState} (hst : NsStep name s t) : NsInv name t := by
  cases hst with
  | register i ept hnone hept _ hlock => exact h.register hnone hept hlock
  | announce i hcreating => exact h.announce hcreating
  | destroy i hmem hept _ => exact h.destroy hmem hept
  | send i payload hmem hept hdest => exact h.send payload hmem hept hdest
  | deliver i hq => exact h.deliver hname hq

theorem nsReachable_inv (hname : copyName name ≠ nsName)
    (h : NsReachable name s) : NsInv name s :=
  h.invariant (fun s hs => by obtain ⟨r, rfl⟩ := hs; exact nsInv_init name r)
    fun _ _ _ hs hst => hs.step hname hst

/-- The registration step as a function. -/
def NsState.registerEpt (s : NsState) (name : List UInt8) (i : Bool)
    (ept : Nat) : NsState :=
  match createEptLocked (s.dev i) ept (some name) RPMSG_ADDR_ANY
    RPMSG_ADDR_ANY with
  | .ok rdev => s.put i rdev (some ept) []
  | .error _ => s

/-- Both sides register an endpoint `"a"` as object 1. -/
def bothRegistered : NsState :=
  ((NsState.init fun _ _ => false).registerEpt [97] true 1).registerEpt [97]
    false 1

/-- One side announces, and the other hears of it. -/
def oneBound : NsState :=
  let s := bothRegistered.put true (bothRegistered.dev true) none
    [nsMessage (bothRegistered.dev true) 1 .create]
  { s with
    dev := Function.update s.dev false (receive (s.dev false)
      (nsMessage (bothRegistered.dev true) 1 .create))
    chan := Function.update s.chan true [] }

theorem NsReachable.registerEpt {s : NsState} (h : NsReachable name s)
    (i : Bool) (ept : Nat) (hnone : ∀ e ∈ (s.dev i).endpoints, e = nsEpt)
    (hept : ept ≠ nsEpt) (hidle : s.creating i = none) :
    NsReachable name (s.registerEpt name i ept) := by
  unfold NsState.registerEpt
  split
  · next rdev hok => exact h.next (.register i ept hnone hept hidle hok)
  · exact h

theorem oneBound_reachable : NsReachable [97] oneBound := by
  have h0 : NsReachable [97] (NsState.init fun _ _ => false) := .start ⟨_, rfl⟩
  have h1 := h0.registerEpt true 1 (by decide +kernel)
    (by decide) rfl
  have h2 : NsReachable [97] bothRegistered :=
    h1.registerEpt false 1 (by decide +kernel) (by decide)
      (by decide +kernel)
  have hann := h2.next (.announce true
    (show bothRegistered.creating true = some 1 by decide +kernel))
  have hloud : announcesCreate (bothRegistered.dev true) 1 = true := by
    decide +kernel
  rw [if_pos hloud] at hann
  refine hann.next (.deliver true (show _ = _ :: [] from ?_))
  decide +kernel

/-- The endpoint whose `ns_unbind_cb` the callback runs; `unbindCb` says
which objects have one installed. -/
def nsUnbindCalled (unbindCb : Nat → Bool) (rdev : RpmsgDevice)
    (msg : RpmsgNsMsg) : Option Nat :=
  match msg.flags with
  | .destroy => (rpmsgGetEndpoint rdev (some msg.name) RPMSG_ADDR_ANY
      msg.addr).filter unbindCb
  | .create => none

/-- A registered endpoint of the name, bound to `dest`. -/
def RpmsgDevice.BoundTo (rdev : RpmsgDevice) (name : List UInt8)
    (dest : UInt32) (ept : Nat) : Prop :=
  ept ∈ rdev.endpoints ∧ (rdev.epts ept).name = name ∧
    (rdev.epts ept).destAddr = dest

/-- The destruction of the peer's endpoint `dest` unbinds an endpoint
that was bound to it, and touches nothing when there is none. -/
structure UnbindsRight (unbindCb : Nat → Bool) (rdev : RpmsgDevice)
    (name : List UInt8) (dest : UInt32) : Prop where
  bound : (∃ ept, rdev.BoundTo name dest ept) →
    ∃ ept, rdev.BoundTo name dest ept ∧
      ((rpmsgVirtioNsCallback rdev ⟨name, dest, .destroy⟩).epts ept).destAddr =
        RPMSG_ADDR_ANY ∧
      (∀ o ≠ ept,
        ((rpmsgVirtioNsCallback rdev ⟨name, dest, .destroy⟩).epts o).destAddr =
          (rdev.epts o).destAddr) ∧
      nsUnbindCalled unbindCb rdev ⟨name, dest, .destroy⟩ =
        if unbindCb ept then some ept else none
  none : (¬ ∃ ept, rdev.BoundTo name dest ept) →
    (∀ o,
      ((rpmsgVirtioNsCallback rdev ⟨name, dest, .destroy⟩).epts o).destAddr =
        (rdev.epts o).destAddr) ∧
    nsUnbindCalled unbindCb rdev ⟨name, dest, .destroy⟩ = none

/-- The endpoints of the name that are bound to `dest` or to nothing. -/
def boundOrFree (rdev : RpmsgDevice) (name : List UInt8) (dest : UInt32)
    (ept : Nat) : Bool :=
  (rdev.epts ept).name = name ∧
    ((rdev.epts ept).destAddr = dest ∨
      (rdev.epts ept).destAddr = RPMSG_ADDR_ANY)

theorem rpmsgGetEndpoint_announced {dest : UInt32}
    (hdest : dest ≠ RPMSG_ADDR_ANY) (rdev : RpmsgDevice) (name : List UInt8) :
    rpmsgGetEndpoint rdev (some name) RPMSG_ADDR_ANY dest =
      rdev.endpoints.find? (boundOrFree rdev name dest) := by
  unfold rpmsgGetEndpoint
  congr 1
  funext ept
  simp [endpointMatches, boundOrFree, hdest, eq_comm]

/-- A found endpoint loses its binding, no other does. -/
theorem nsCallback_destroy_destAddr (rdev : RpmsgDevice) {msg : RpmsgNsMsg}
    (hflags : msg.flags = .destroy) (o : Nat) :
    ((rpmsgVirtioNsCallback rdev msg).epts o).destAddr =
      if rpmsgGetEndpoint rdev (some msg.name) RPMSG_ADDR_ANY msg.addr = some o
        then RPMSG_ADDR_ANY else (rdev.epts o).destAddr := by
  unfold rpmsgVirtioNsCallback
  split
  · next h => simp [h]
  · next ept h =>
    rw [hflags, h]
    by_cases ho : o = ept
    · subst ho
      -- the reference around the unbind callback leaves the binding alone
      simp only [RpmsgDevice.modify_self, if_true]
      split
      · exact rpmsgEptDecref_destAddr _
      · rfl
    · have hne : ¬ some ept = some o := fun heq => ho (Option.some.inj heq).symm
      simp only [rdev.modify_of_ne _ ho, if_neg hne]

/-- The first endpoint of the name that is bound to `dest` or free, if
there is one, is bound to `dest`, or is free without a callback while no
endpoint is bound to `dest`. -/
def FirstIsBound (unbindCb : Nat → Bool) (rdev : RpmsgDevice)
    (name : List UInt8) (dest : UInt32) : Prop :=
  ∀ ept, rdev.endpoints.find? (boundOrFree rdev name dest) = some ept →
    (rdev.epts ept).destAddr = dest ∨
      (unbindCb ept = false ∧ ¬ ∃ o, rdev.BoundTo name dest o)

variable {unbindCb : Nat → Bool} {dest : UInt32}

theorem boundOrFree_found {ept : Nat}
    (h : rdev.endpoints.find? (boundOrFree rdev name dest) = some ept) :
    ept ∈ rdev.endpoints ∧ (rdev.epts ept).name = name ∧
      ((rdev.epts ept).destAddr = dest ∨
        (rdev.epts ept).destAddr = RPMSG_ADDR_ANY) := by
  have hp := List.find?_some h
  simp only [boundOrFree, decide_eq_true_eq] at hp
  exact ⟨List.mem_of_find?_eq_some h, hp⟩

theorem RpmsgDevice.BoundTo.found {ept : Nat} (h : rdev.BoundTo name dest ept) :
    ∃ o, rdev.endpoints.find? (boundOrFree rdev name dest) = some o := by
  rw [← Option.isSome_iff_exists, List.find?_isSome]
  exact ⟨ept, h.1, by simp [boundOrFree, h.2.1, h.2.2]⟩

/-- **A destruction announced by the peer reaches the right endpoint**
exactly when the lookup does not stop at a free one first. -/
theorem destroy_unbinds_right_iff (unbindCb : Nat → Bool)
    (rdev : RpmsgDevice) (name : List UInt8) {dest : UInt32}
    (hdest : dest ≠ RPMSG_ADDR_ANY) :
    UnbindsRight unbindCb rdev name dest ↔
      FirstIsBound unbindCb rdev name dest := by
  have hget := rpmsgGetEndpoint_announced hdest rdev name
  have hdst := nsCallback_destroy_destAddr rdev
    (show (RpmsgNsMsg.mk name dest .destroy).flags = .destroy from rfl)
  have hcalled : nsUnbindCalled unbindCb rdev ⟨name, dest, .destroy⟩ =
      (rdev.endpoints.find? (boundOrFree rdev name dest)).filter unbindCb := by
    rw [← hget]
    rfl
  simp only [hget] at hdst
  constructor
  · intro h ept hfirst
    obtain ⟨hmem, hname, hd | hany⟩ := boundOrFree_found hfirst
    · exact .inl hd
    · refine .inr ?_
      rw [hfirst] at hdst hcalled
      have hnone : ¬ ∃ o, rdev.BoundTo name dest o := by
        intro hex
        obtain ⟨o, ho, hreset, -, -⟩ := h.bound hex
        -- the one that was bound is still bound
        have hne : ¬ some ept = some o := by
          rintro heq
          cases heq
          exact hdest (ho.2.2.symm.trans hany)
        rw [hdst, if_neg hne, ho.2.2] at hreset
        exact hdest hreset
      refine ⟨?_, hnone⟩
      have hquiet := (h.none hnone).2
      rw [hcalled] at hquiet
      simpa [Option.filter_some] using hquiet
  · intro hfirst
    constructor
    · rintro ⟨e, he⟩
      obtain ⟨ept, hfound⟩ := he.found
      obtain ⟨hmem, hname, -⟩ := boundOrFree_found hfound
      have hd : (rdev.epts ept).destAddr = dest := by
        rcases hfirst ept hfound with hd | ⟨-, hnone⟩
        · exact hd
        · exact absurd ⟨e, he⟩ hnone
      rw [hfound] at hdst hcalled
      refine ⟨ept, ⟨hmem, hname, hd⟩, ?_, ?_, ?_⟩
      · rw [hdst, if_pos rfl]
      · intro o ho
        have hne : ¬ some ept = some o :=
          fun heq => ho (Option.some.inj heq).symm
        rw [hdst, if_neg hne]
      · rw [hcalled, Option.filter_some]
    · intro hnone
      rcases hfound : rdev.endpoints.find? (boundOrFree rdev name dest) with
        _ | ept
      · rw [hfound] at hdst hcalled
        exact ⟨fun o => by rw [hdst, if_neg (by simp)], hcalled⟩
      · obtain ⟨hmem, hname, hor⟩ := boundOrFree_found hfound
        rcases hfirst ept hfound with hd | ⟨hcb, -⟩
        · exact absurd ⟨ept, hmem, hname, hd⟩ hnone
        · rcases hor with hd | hany
          · exact absurd ⟨ept, hmem, hname, hd⟩ hnone
          · rw [hfound] at hdst hcalled
            refine ⟨fun o => ?_, by rw [hcalled, Option.filter_some, hcb]; rfl⟩
            rw [hdst]
            split
            · next heq => rw [← Option.some.inj heq, hany]
            · rfl

/-- A service `"a"` that waits for a peer, and a second endpoint of the
name already bound to the peer's endpoint 1024. -/
def waitingAndBound : RpmsgDevice :=
  (EptCall.create 2 (some [97]) RPMSG_ADDR_ANY 1024 .sent).run
    ((EptCall.create 1 (some [97]) RPMSG_ADDR_ANY RPMSG_ADDR_ANY .sent).run
      (RpmsgDevice.init true nsEpt fun _ => false))

/-- The endpoint that waits hears of the destruction, the bound one
stays bound. -/
theorem destroy_unbinds_wrong :
    EptReachable waitingAndBound ∧
    ¬ UnbindsRight (fun _ => true) waitingAndBound [97] 1024 := by
  constructor
  · have h0 : EptReachable (RpmsgDevice.init true nsEpt fun _ => false) :=
      .start ⟨true, nsEpt, _, rfl⟩
    have h1 := h0.next ⟨.create 1 (some [97]) RPMSG_ADDR_ANY RPMSG_ADDR_ANY
      .sent, by unfold EptCall.Allowed; decide +kernel, rfl⟩
    exact h1.next ⟨.create 2 (some [97]) RPMSG_ADDR_ANY 1024 .sent,
      by unfold EptCall.Allowed; decide +kernel, rfl⟩
  · intro h
    have hbound : waitingAndBound.BoundTo [97] 1024 2 := by
      unfold RpmsgDevice.BoundTo
      decide +kernel
    obtain ⟨o, ho, hreset, -, -⟩ := h.bound ⟨2, hbound⟩
    have hmem : o ∈ [nsEpt, 1, 2] := ho.1
    simp only [List.mem_cons, List.not_mem_nil, or_false] at hmem
    have hd := ho.2.2
    rcases hmem with rfl | rfl | rfl
    · exact absurd hd (by decide +kernel)
    · exact absurd hd (by decide +kernel)
    · exact absurd hreset (by decide +kernel)

theorem destroy_unbinds_right_oneBound :
    UnbindsRight (fun _ => true) (oneBound.dev false) [97] 1024 := by
  rw [destroy_unbinds_right_iff _ _ _ (by decide)]
  intro ept hfirst
  have h1 : (oneBound.dev false).endpoints.find?
      (boundOrFree (oneBound.dev false) [97] 1024) = some 1 := by
    decide +kernel
  rw [h1] at hfirst
  cases hfirst
  exact .inl (by decide +kernel)

end OpenAmp.Rpmsg
