import OpenAmp.Interface.Registry

/-!
# The endpoints of the nodes

A node of the registry carries its endpoint. Registration puts the node
on the list of nodes and then has `rpmsg_create_ept` put the endpoint on
the list of the device, which fails where the announcement cannot be sent;
removal takes both off. Between them come the messages of the peer:
announcements, which `rpmsg_virtio_ns_callback` hands to
`openamp_ns_bind_cb` or to the unbind callback of an endpoint, and others,
from which an endpoint may learn its destination.
-/

namespace OpenAmp.Interface

open OpenAmp.Lib OpenAmp.Rpmsg

/-! ## Messages of the peer -/

/-- `rpmsg_virtio_ns_callback` over the registry: `ns_bind_cb` is
`openamp_ns_bind_cb`, and the unbind callback of an endpoint removes its
node if it is the default one. What another one does comes in as calls
that follow. -/
def nsCallback (reg : Registry) (msg : RpmsgNsMsg) (send : SendOutcome) :
    Registry :=
  let name := cString msg.name
  match msg.flags, rpmsgGetEndpoint reg.rdev (some name) RPMSG_ADDR_ANY
    msg.addr with
  | .destroy, none => reg
  | .destroy, some ept =>
    let reg := { reg with rdev := reg.rdev.modify ept fun e =>
      { e with destAddr := RPMSG_ADDR_ANY } }
    match reg.nodes.find? (·.id = ept) with
    | some node =>
      if node.eptUnbindCb = defaultUnbindCb then
        (openampAppNodeUnregister reg (reg.rdev.epts ept).name).2
      else reg
    | none => reg
  | .create, none => openampNsBindCb reg name msg.addr send
  | .create, some ept => { reg with rdev := reg.rdev.modify ept fun e =>
      { e with destAddr := msg.addr } }

/-- `rpmsg_virtio_rx_callback` for any message, around the callback of the
endpoint. -/
def rxMessage (reg : Registry) (src dst : UInt32) : Registry :=
  let (ept, rdev) := rxLookup reg.rdev src dst
  { reg with rdev := rxDone rdev ept }

/-- What happens to a registry and its device. -/
inductive NodeCall where
  | call (c : RegCall)
  | announcement (msg : RpmsgNsMsg) (send : SendOutcome)
  | message (src dst : UInt32)

def NodeCall.run (reg : Registry) : NodeCall → Registry
  | .call (.register name cb unbindCb send) =>
    (openampAppNodeRegister reg name cb unbindCb send).2
  | .call (.bind name dest send) => openampNsBindCb reg name dest send
  | .call (.unregister name) => (openampAppNodeUnregister reg name).2
  | .announcement msg send => nsCallback reg msg send
  | .message src dst => rxMessage reg src dst

def NodeStep (reg : Registry) (c : NodeCall) (reg' : Registry) : Prop :=
  reg' = c.run reg

/-- Every node has a live endpoint, and endpoints of nodes are linked only
while their nodes are. -/
structure NodesLive (reg : Registry) : Prop where
  linked : ∀ node ∈ reg.nodes, node.id ∈ reg.rdev.endpoints ∧
    (reg.rdev.epts node.id).rdev = true
  only : ∀ ept ∈ reg.rdev.endpoints,
    ept = nsEpt ∨ ∃ node ∈ reg.nodes, node.id = ept

/-- The announcement of a node that comes in under `name` is sent; there
is none for the empty name. -/
def Announced (reg : Registry) (name : List UInt8) (send : SendOutcome) :
    Prop :=
  openampFindAppNode reg.nodes name = none → cString name ≠ [] → send = .sent

/-- The condition on a call. -/
def NodeCall.Sent (reg : Registry) : NodeCall → Prop
  | .call (.register name _ _ send) => Announced reg name send
  | .call (.bind name _ send) => Announced reg name send
  | .call (.unregister _) => True
  | .announcement msg send => msg.flags = .create →
      rpmsgGetEndpoint reg.rdev (some (cString msg.name)) RPMSG_ADDR_ANY
        msg.addr = none →
      Announced reg msg.name send
  | .message _ _ => True

/-! ## Creation and destruction of an endpoint -/

/-- What `rpmsg_create_ept` makes of a cleared endpoint that is not
linked: it is linked, or all is as before but the endpoint itself. -/
structure EptAdded (rdev : RpmsgDevice) (id : Nat) (name : List UInt8)
    (ok : Prop) (rdev' : RpmsgDevice) : Prop where
  other : ∀ o ≠ id, rdev'.epts o = rdev.epts o
  support : rdev'.supportNs = rdev.supportNs
  releaseCb : (rdev'.epts id).releaseCb = false
  destAddr : (rdev'.epts id).destAddr = RPMSG_ADDR_ANY
  linked : ok → rdev'.endpoints = rdev.endpoints ++ [id] ∧
    (rdev'.epts id).name = name ∧ (rdev'.epts id).rdev = true ∧
    (rdev'.epts id).refcnt = 1
  unlinked : ¬ ok → rdev'.endpoints = rdev.endpoints ∧
    (rdev'.epts id).rdev = false

/-- The endpoints are those of before, and the new one if it was linked. -/
theorem EptAdded.mem_endpoints {rdev rdev' : RpmsgDevice} {id : Nat}
    {name : List UInt8} {ok : Prop} (h : EptAdded rdev id name ok rdev')
    {ept : Nat} :
    ept ∈ rdev'.endpoints ↔ ept ∈ rdev.endpoints ∨ ept = id ∧ ok := by
  by_cases hok : ok
  · rw [(h.linked hok).1, List.mem_append, List.mem_singleton]
    simp only [hok, and_true]
  · rw [(h.unlinked hok).1]
    simp only [hok, and_false, or_false]

theorem copyName_cString {name : List UInt8} (hlen : name.length ≤ 31)
    (hne : ∀ c ∈ name, c ≠ 0) : copyName name = name := by
  rw [copyName, List.takeWhile_eq_self_iff.mpr (by simpa using hne),
    List.take_of_length_le (show _ ≤ RPMSG_NAME_SIZE - 1 from hlen)]

/-- The last reference of an endpoint without a release callback. -/
theorem rpmsgEptDecref_last {e : RpmsgEndpoint} (href : e.refcnt = 1)
    (hcb : e.releaseCb = false) : (rpmsgEptDecref e).rdev = false := by
  simp [rpmsgEptDecref, href, hcb]

theorem rpmsgCreateEpt_added {rdev : RpmsgDevice} {id : Nat}
    {name : List UInt8} (hfresh : id ∉ rdev.endpoints)
    (hsupport : rdev.supportNs = true) (hlen : name.length ≤ 31)
    (hne : ∀ c ∈ name, c ≠ 0) (send : SendOutcome) :
    EptAdded rdev id name (name ≠ [] → send = .sent)
      (rpmsgCreateEpt (rdev.modify id fun _ => clearedEpt) id
        (some name) RPMSG_ADDR_ANY RPMSG_ADDR_ANY true send).2 := by
  obtain ⟨bitmap, bitnext, addr, -, -, hlock⟩ := createEptLocked_any
    (rdev.modify id fun _ => clearedEpt) id (some name)
    RPMSG_ADDR_ANY
  generalize ht : rpmsgRegisterEndpoint _ _ _ _ _ = t at hlock
  have hendpoints : t.endpoints = rdev.endpoints ++ [id] := by
    rw [← ht]
    rfl
  have hept : t.epts id = ⟨name, true, addr, RPMSG_ADDR_ANY, 1, false⟩ := by
    rw [← ht, rpmsgRegisterEndpoint, RpmsgDevice.modify_self]
    simp [RpmsgDevice.modify, clearedEpt, copyName_cString hlen hne]
  have hother : ∀ o ≠ id, t.epts o = rdev.epts o := by
    intro o ho
    rw [← ht, rpmsgRegisterEndpoint, RpmsgDevice.modify_of_ne _ _ ho]
    exact rdev.modify_of_ne (fun _ => clearedEpt) ho
  have htsupport : t.supportNs = rdev.supportNs := by
    rw [← ht]
    rfl
  have hannounces : announcesCreate t id = true ↔ name ≠ [] := by
    simp [announcesCreate, hept, htsupport, hsupport]
  simp only [rpmsgCreateEpt, Bool.true_eq_false, if_false, hlock]
  by_cases hok : name ≠ [] → send = .sent
  · -- no announcement, or one that is sent
    have hstatus : (if announcesCreate t id = true then send.status
        else RPMSG_SUCCESS) = 0 := by
      split
      · next h =>
        rw [hok (hannounces.mp h)]
        rfl
      · rfl
    rw [if_neg (not_not.mpr hstatus)]
    refine ⟨hother, htsupport, by rw [hept], by rw [hept], fun _ => ?_,
      fun h => absurd hok h⟩
    exact ⟨hendpoints, by rw [hept], by rw [hept], by rw [hept]⟩
  · -- the announcement failed: the endpoint is taken off the list again and
    -- loses its only reference
    obtain ⟨hname, hsend⟩ := Classical.not_imp.mp hok
    have hstatus : (if announcesCreate t id = true then send.status
        else RPMSG_SUCCESS) ≠ 0 := by
      rw [if_pos (hannounces.mpr hname)]
      cases send with
      | sent => exact absurd rfl hsend
      | param => decide
      | noBuff => decide
    rw [if_pos hstatus]
    have hself := rpmsgUnregisterEndpoint_self t id
    rw [hept] at hself
    refine ⟨?_, ?_, by rw [hself, rpmsgEptDecref_releaseCb],
      by rw [hself, rpmsgEptDecref_destAddr], fun h => absurd h hok,
      fun _ => ⟨?_, by rw [hself, rpmsgEptDecref_last rfl rfl]⟩⟩
    · intro o ho
      rw [rpmsgUnregisterEndpoint_other t id ho, hother o ho]
    · rw [rpmsgUnregisterEndpoint_supportNs, htsupport]
    · rw [rpmsgUnregisterEndpoint_endpoints, hendpoints,
        List.erase_append_right _ hfresh, List.erase_cons_head,
        List.append_nil]

/-! ## The invariant -/

/-- What holds in any order of calls, whatever is sent: a linked endpoint
is that of the name service or of a node, whose name it has. -/
structure Registry.Inv (reg : Registry) : Prop where
  sound : reg.Sound
  nsName : (reg.rdev.epts nsEpt).name = Rpmsg.nsName
  notNs : ∀ node ∈ reg.nodes, node.id ≠ nsEpt
  pos : nsEpt < reg.next
  support : reg.rdev.supportNs = true
  nodup : reg.rdev.endpoints.Nodup
  below : ∀ ept ∈ reg.rdev.endpoints, ept < reg.next
  owned : ∀ ept ∈ reg.rdev.endpoints, ept = nsEpt ∨
    ∃ node ∈ reg.nodes, node.id = ept ∧
      (reg.rdev.epts ept).name = node.cName
  ref : ∀ ept ∈ reg.rdev.endpoints, (reg.rdev.epts ept).rdev = true ∧
    (reg.rdev.epts ept).refcnt = 1 ∧ (reg.rdev.epts ept).releaseCb = false
  off : ∀ node ∈ reg.nodes, node.id ∉ reg.rdev.endpoints →
    (reg.rdev.epts node.id).rdev = false

/-- Where all is in order, only linking can go wrong. -/
theorem Registry.Inv.live_iff {reg : Registry} (h : reg.Inv) :
    NodesLive reg ↔ ∀ node ∈ reg.nodes, node.id ∈ reg.rdev.endpoints := by
  constructor
  · intro hlive node hnode
    exact (hlive.linked node hnode).1
  · intro hlinked
    constructor
    · intro node hnode
      exact ⟨hlinked node hnode, (h.ref _ (hlinked node hnode)).1⟩
    · intro ept hept
      rcases h.owned ept hept with hns | ⟨node, hnode, hid, -⟩
      · exact .inl hns
      · exact .inr ⟨node, hnode, hid⟩

/-- A new destination for an endpoint. -/
theorem Registry.Inv.setDest {reg : Registry} (h : reg.Inv) (ept : Nat)
    (dest : UInt32) : Registry.Inv { reg with
      rdev := reg.rdev.modify ept fun e => { e with destAddr := dest } } := by
  have hget : ∀ o, ∃ d, (reg.rdev.modify ept fun e =>
      { e with destAddr := dest }).epts o =
        { reg.rdev.epts o with destAddr := d } := by
    intro o
    by_cases ho : o = ept
    · subst ho
      exact ⟨dest, RpmsgDevice.modify_self ..⟩
    · exact ⟨_, RpmsgDevice.modify_of_ne _ _ ho⟩
  constructor
  case sound => exact ⟨h.sound.ids, h.sound.below, h.sound.array⟩
  case nsName =>
    obtain ⟨d, hd⟩ := hget nsEpt
    simp only [hd]
    exact h.nsName
  case notNs => exact h.notNs
  case pos => exact h.pos
  case support => exact h.support
  case nodup => exact h.nodup
  case below => exact h.below
  case owned =>
    intro o ho
    obtain ⟨d, hd⟩ := hget o
    simp only [hd]
    exact h.owned o ho
  case ref =>
    intro o ho
    obtain ⟨d, hd⟩ := hget o
    simp only [hd]
    exact h.ref o ho
  case off =>
    intro node hnode hout
    obtain ⟨d, hd⟩ := hget node.id
    simp only [hd]
    exact h.off node hnode hout

/-- A change of callbacks. -/
theorem Registry.Inv.map {reg : Registry} (h : reg.Inv)
    {f : AppNode → AppNode}
    (hf : ∀ n, (f n).id = n.id ∧ (f n).name = n.name ∧ (f n).src = n.src)
    {next : Nat} (hnext : reg.next ≤ next) :
    Registry.Inv { reg with nodes := reg.nodes.map f, next := next } := by
  have hcname : ∀ n, (f n).cName = n.cName := by
    intro n
    rw [AppNode.cName, (hf n).2.1, (hf n).2.2, AppNode.cName]
  constructor
  case sound => exact h.sound.map rfl hnext fun n => ⟨(hf n).1, (hf n).2.1⟩
  case nsName => exact h.nsName
  case notNs =>
    intro node hnode
    obtain ⟨n, hn, rfl⟩ := List.mem_map.mp hnode
    rw [(hf n).1]
    exact h.notNs n hn
  case pos => exact Nat.lt_of_lt_of_le h.pos hnext
  case support => exact h.support
  case nodup => exact h.nodup
  case below => exact fun o ho => Nat.lt_of_lt_of_le (h.below o ho) hnext
  case owned =>
    intro o ho
    rcases h.owned o ho with hns | ⟨n, hn, hid, hname⟩
    · exact .inl hns
    · exact .inr ⟨f n, List.mem_map_of_mem hn, by rw [(hf n).1, hid],
        by rw [hcname, hname]⟩
  case ref => exact h.ref
  case off =>
    intro node hnode hout
    obtain ⟨n, hn, rfl⟩ := List.mem_map.mp hnode
    rw [(hf n).1] at hout ⊢
    exact h.off n hn hout

/-- The names of nodes fit the names of endpoints. -/
theorem newNode_cName_fits (id : Nat) (name : List UInt8) (dest : UInt32)
    (cb unbindCb : Nat) :
    (newNode id name dest cb unbindCb).cName.length ≤ 31 ∧
      ∀ c ∈ (newNode id name dest cb unbindCb).cName, c ≠ 0 := by
  rw [newNode_cName]
  constructor
  · rw [List.length_take]
    simp only [OPENAMP_APP_NODE_NAME_MAXLEN]
    omega
  · exact fun c hc => cString_ne_zero c (List.mem_of_mem_take hc)

theorem newNode_cName_eq_nil (id : Nat) (name : List UInt8) (dest : UInt32)
    (cb unbindCb : Nat) :
    (newNode id name dest cb unbindCb).cName = [] ↔ cString name = [] := by
  rw [newNode_cName, List.take_eq_nil_iff]
  simp [OPENAMP_APP_NODE_NAME_MAXLEN]

theorem Registry.Inv.addNode_added {reg : Registry} (h : reg.Inv)
    (name : List UInt8) (dest : UInt32) (cb unbindCb : Nat)
    (send : SendOutcome) :
    EptAdded reg.rdev reg.next
      (newNode reg.next name dest cb unbindCb).cName
      (cString name ≠ [] → send = .sent)
      (addNode reg (newNode reg.next name dest cb unbindCb) send).rdev := by
  obtain ⟨hlen, hne⟩ := newNode_cName_fits reg.next name dest cb unbindCb
  have hfresh : reg.next ∉ reg.rdev.endpoints := fun hmem =>
    Nat.lt_irrefl _ (h.below _ hmem)
  have hadded := rpmsgCreateEpt_added hfresh h.support hlen hne send
  rw [ne_eq, newNode_cName_eq_nil] at hadded
  exact hadded

/-- A node comes in, with or without its endpoint. -/
theorem Registry.Inv.addNode {reg : Registry} (h : reg.Inv)
    (name : List UInt8) (dest : UInt32) (cb unbindCb : Nat)
    (send : SendOutcome) :
    (Interface.addNode reg (newNode reg.next name dest cb unbindCb)
      send).Inv := by
  have hadded := h.addNode_added name dest cb unbindCb send
  -- the object is new, so no node and no endpoint is this one
  have hne : ∀ ept ∈ reg.rdev.endpoints, ept ≠ reg.next := fun ept hept heq =>
    Nat.lt_irrefl _ (heq ▸ h.below ept hept)
  have hnode : ∀ node ∈ reg.nodes, node.id ≠ reg.next := fun node hnode heq =>
    Nat.lt_irrefl _ (heq ▸ h.sound.below node hnode)
  have hns : nsEpt ≠ reg.next := Nat.ne_of_lt h.pos
  constructor
  case sound => exact h.sound.cons rfl rfl
  case nsName =>
    rw [hadded.other nsEpt hns]
    exact h.nsName
  case notNs =>
    intro node hmem
    rcases List.mem_cons.mp hmem with rfl | hmem
    · exact hns.symm
    · exact h.notNs node hmem
  case pos => exact Nat.lt_succ_of_lt h.pos
  case support => exact hadded.support.trans h.support
  case nodup =>
    by_cases hok : cString name ≠ [] → send = .sent
    · rw [(hadded.linked hok).1]
      refine List.Nodup.append h.nodup (List.nodup_singleton _) ?_
      intro ept hept hnew
      exact hne ept hept (List.mem_singleton.mp hnew)
    · rw [(hadded.unlinked hok).1]
      exact h.nodup
  case below =>
    intro ept hept
    rcases hadded.mem_endpoints.mp hept with hold | ⟨rfl, -⟩
    · exact Nat.lt_succ_of_lt (h.below ept hold)
    · exact Nat.lt_succ_self _
  case owned =>
    intro ept hept
    rcases hadded.mem_endpoints.mp hept with hold | ⟨rfl, hok⟩
    · rw [hadded.other ept (hne ept hold)]
      rcases h.owned ept hold with hns | ⟨node, hnode, hid, hname⟩
      · exact .inl hns
      · exact .inr ⟨node, List.mem_cons_of_mem _ hnode, hid, hname⟩
    · exact .inr ⟨_, List.mem_cons_self, rfl, (hadded.linked hok).2.1⟩
  case ref =>
    intro ept hept
    rcases hadded.mem_endpoints.mp hept with hold | ⟨rfl, hok⟩
    · rw [hadded.other ept (hne ept hold)]
      exact h.ref ept hold
    · obtain ⟨-, -, hrdev, href⟩ := hadded.linked hok
      exact ⟨hrdev, href, hadded.releaseCb⟩
  case off =>
    intro node hmem hout
    rcases List.mem_cons.mp hmem with rfl | hmem
    · refine (hadded.unlinked fun hok => hout ?_).2
      exact hadded.mem_endpoints.mpr (.inr ⟨rfl, hok⟩)
    · rw [hadded.other node.id (hnode node hmem)]
      apply h.off node hmem
      intro hlinked
      exact hout (hadded.mem_endpoints.mpr (.inl hlinked))

/-- Which nodes are linked after one came in. -/
theorem Registry.Inv.live_addNode {reg : Registry} (h : reg.Inv)
    (hlive : NodesLive reg) (name : List UInt8) (dest : UInt32)
    (cb unbindCb : Nat) (send : SendOutcome) :
    NodesLive (Interface.addNode reg
      (newNode reg.next name dest cb unbindCb) send) ↔
    (cString name ≠ [] → send = .sent) := by
  have hadded := h.addNode_added name dest cb unbindCb send
  rw [(h.addNode name dest cb unbindCb send).live_iff]
  constructor
  · intro hall
    rcases hadded.mem_endpoints.mp (hall _ List.mem_cons_self) with
      hold | ⟨-, hok⟩
    · exact absurd (h.below _ hold) (Nat.lt_irrefl _)
    · exact hok
  · intro hok node hnode
    apply hadded.mem_endpoints.mpr
    rcases List.mem_cons.mp hnode with rfl | hnode
    · exact .inr ⟨rfl, hok⟩
    · exact .inl (hlive.linked node hnode).1

/-- `rpmsg_destroy_ept` takes an endpoint off the list, if it is there. -/
theorem Registry.Inv.destroyed {reg : Registry} (h : reg.Inv) (id : Nat) :
    (rpmsgDestroyEpt reg.rdev id).supportNs = reg.rdev.supportNs ∧
    (rpmsgDestroyEpt reg.rdev id).endpoints = reg.rdev.endpoints.erase id ∧
    ∀ o ≠ id, (rpmsgDestroyEpt reg.rdev id).epts o = reg.rdev.epts o := by
  unfold rpmsgDestroyEpt
  split
  · next hoff =>
    refine ⟨rfl, ?_, fun _ _ => rfl⟩
    have hout : id ∉ reg.rdev.endpoints := by
      intro hmem
      rw [(h.ref id hmem).1] at hoff
      cases hoff
    exact (List.erase_of_not_mem hout).symm
  · exact ⟨rpmsgUnregisterEndpoint_supportNs _ _,
      rpmsgUnregisterEndpoint_endpoints _ _,
      fun o ho => rpmsgUnregisterEndpoint_other _ _ ho⟩

/-- A node goes, with its endpoint if that is linked. -/
theorem Registry.Inv.remove {reg : Registry} (h : reg.Inv) {node : AppNode}
    (hnode : node ∈ reg.nodes) : Registry.Inv { reg with
      nodes := reg.nodes.filter (·.id ≠ node.id)
      rdev := rpmsgDestroyEpt reg.rdev node.id } := by
  obtain ⟨hsupport, hendpoints, hother⟩ := h.destroyed node.id
  have hmem : ∀ ept ∈ (rpmsgDestroyEpt reg.rdev node.id).endpoints,
      ept ≠ node.id ∧ ept ∈ reg.rdev.endpoints := by
    intro ept hept
    rw [hendpoints, h.nodup.mem_erase_iff] at hept
    exact hept
  have hnodes : ∀ n ∈ reg.nodes.filter (·.id ≠ node.id),
      n ∈ reg.nodes ∧ n.id ≠ node.id := by
    intro n hn
    obtain ⟨hmem, hne⟩ := List.mem_filter.mp hn
    exact ⟨hmem, by simpa using hne⟩
  constructor
  case sound => exact h.sound.filter rfl rfl
  case nsName =>
    rw [hother nsEpt (h.notNs node hnode).symm]
    exact h.nsName
  case notNs => exact fun n hn => h.notNs n (hnodes n hn).1
  case pos => exact h.pos
  case support => exact hsupport.trans h.support
  case nodup =>
    rw [hendpoints]
    exact h.nodup.erase _
  case below => exact fun ept hept => h.below ept (hmem ept hept).2
  case owned =>
    intro ept hept
    obtain ⟨hne, hold⟩ := hmem ept hept
    rw [hother ept hne]
    rcases h.owned ept hold with hns | ⟨n, hn, rfl, hname⟩
    · exact .inl hns
    · exact .inr ⟨n, List.mem_filter.mpr ⟨hn, by simpa using hne⟩, rfl, hname⟩
  case ref =>
    intro ept hept
    obtain ⟨hne, hold⟩ := hmem ept hept
    rw [hother ept hne]
    exact h.ref ept hold
  case off =>
    intro n hn hout
    obtain ⟨hold, hne⟩ := hnodes n hn
    rw [hother n.id hne]
    apply h.off n hold
    intro hlinked
    apply hout
    rw [hendpoints, h.nodup.mem_erase_iff]
    exact ⟨hne, hlinked⟩

theorem Registry.Inv.unregister {reg : Registry} (h : reg.Inv)
    (name : List UInt8) : (openampAppNodeUnregister reg name).2.Inv := by
  cases hfind : openampFindAppNode reg.nodes name with
  | none =>
    rw [openampAppNodeUnregister, hfind]
    exact h
  | some node =>
    rw [openampAppNodeUnregister, hfind]
    exact h.remove (findAppNode_some hfind).1

/-- The nodes that stay keep their endpoints. -/
theorem Registry.Inv.live_unregister {reg : Registry} (h : reg.Inv)
    (hlive : NodesLive reg) (name : List UInt8) :
    NodesLive (openampAppNodeUnregister reg name).2 := by
  rw [(h.unregister name).live_iff]
  cases hfind : openampFindAppNode reg.nodes name with
  | none =>
    rw [openampAppNodeUnregister, hfind]
    exact fun n hn => (hlive.linked n hn).1
  | some node =>
    rw [openampAppNodeUnregister, hfind]
    intro n hn
    obtain ⟨hold, hne⟩ := List.mem_filter.mp hn
    show n.id ∈ (rpmsgDestroyEpt reg.rdev node.id).endpoints
    rw [(h.destroyed node.id).2.1, h.nodup.mem_erase_iff]
    exact ⟨by simpa using hne, (hlive.linked n hold).1⟩

/-! ## One call -/

theorem Registry.Inv.bind {reg : Registry} (h : reg.Inv) (name : List UInt8)
    (dest : UInt32) (send : SendOutcome) :
    (openampNsBindCb reg name dest send).Inv := by
  cases hfind : openampFindAppNode reg.nodes name with
  | some node =>
    rw [openampNsBindCb, hfind]
    have hmap := h.map (f := id) (fun n => ⟨rfl, rfl, rfl⟩) (Nat.le_succ _)
    rw [List.map_id] at hmap
    exact hmap
  | none =>
    rw [openampNsBindCb, hfind]
    exact (h.addNode name dest defaultBindCb defaultUnbindCb send).setDest
      reg.next dest

theorem Registry.Inv.live_bind {reg : Registry} (h : reg.Inv)
    (hlive : NodesLive reg) (name : List UInt8) (dest : UInt32)
    (send : SendOutcome) :
    NodesLive (openampNsBindCb reg name dest send) ↔
      Announced reg name send := by
  rw [(h.bind name dest send).live_iff]
  cases hfind : openampFindAppNode reg.nodes name with
  | some node =>
    rw [openampNsBindCb, hfind]
    refine iff_of_true (fun n hn => (hlive.linked n hn).1) fun hnone => ?_
    rw [hfind] at hnone
    cases hnone
  | none =>
    have hadd := h.live_addNode hlive name dest defaultBindCb defaultUnbindCb
      send
    rw [(h.addNode name dest defaultBindCb defaultUnbindCb send).live_iff]
      at hadd
    rw [openampNsBindCb, hfind]
    exact hadd.trans ⟨fun hok _ => hok, fun hok => hok hfind⟩

theorem Registry.Inv.register {reg : Registry} (h : reg.Inv)
    (name : List UInt8) (cb unbindCb : Nat) (send : SendOutcome) :
    (openampAppNodeRegister reg name cb unbindCb send).2.Inv := by
  rcases openampAppNodeRegister_nodes reg name cb unbindCb send with
    ⟨node, f, -, hf, -, heq⟩ | ⟨-, heq⟩
  · rw [heq]
    exact h.map hf (Nat.le_refl _)
  · rw [heq]
    exact h.addNode name 0 cb unbindCb send

theorem Registry.Inv.live_register {reg : Registry} (h : reg.Inv)
    (hlive : NodesLive reg) (name : List UInt8) (cb unbindCb : Nat)
    (send : SendOutcome) :
    NodesLive (openampAppNodeRegister reg name cb unbindCb send).2 ↔
      Announced reg name send := by
  rcases openampAppNodeRegister_nodes reg name cb unbindCb send with
    ⟨node, f, hfind, hf, -, heq⟩ | ⟨hnone, heq⟩
  · rw [(h.register name cb unbindCb send).live_iff, heq]
    refine iff_of_true ?_ fun hnone => ?_
    · intro n hn
      obtain ⟨n', hn', rfl⟩ := List.mem_map.mp hn
      rw [(hf n').1]
      exact (hlive.linked n' hn').1
    · rw [hfind] at hnone
      cases hnone
  · rw [heq]
    exact (h.live_addNode hlive name 0 cb unbindCb send).trans
      ⟨fun hok _ => hok, fun hok => hok hnone⟩

theorem learn_incref (e : RpmsgEndpoint) (src : UInt32) :
    (if (rpmsgEptIncref e).destAddr = RPMSG_ADDR_ANY then
      { rpmsgEptIncref e with destAddr := src } else rpmsgEptIncref e) =
    rpmsgEptIncref { e with destAddr :=
      if e.destAddr = RPMSG_ADDR_ANY then src else e.destAddr } := by
  have hsame : (rpmsgEptIncref e).destAddr = e.destAddr := rfl
  rw [hsame]
  by_cases hany : e.destAddr = RPMSG_ADDR_ANY
  · rw [if_pos hany, if_pos hany]
    rfl
  · rw [if_neg hany, if_neg hany]

/-- A message that is received changes a destination at most. -/
theorem Registry.Inv.rxMessage_cases {reg : Registry} (h : reg.Inv)
    (src dst : UInt32) :
    rxMessage reg src dst = reg ∨ ∃ ept dest, rxMessage reg src dst =
      { reg with rdev := reg.rdev.modify ept fun e =>
        { e with destAddr := dest } } := by
  cases hfind : rpmsgGetEptFromAddr reg.rdev dst with
  | none =>
    left
    simp only [rxMessage, rxLookup, hfind, rxDone]
  | some ept =>
    right
    have hmem : ept ∈ reg.rdev.endpoints := by
      rw [rpmsgGetEptFromAddr, rpmsgGetEndpoint] at hfind
      exact List.mem_of_find?_eq_some hfind
    obtain ⟨-, href, -⟩ := h.ref ept hmem
    refine ⟨ept, if (reg.rdev.epts ept).destAddr = RPMSG_ADDR_ANY then src
      else (reg.rdev.epts ept).destAddr, ?_⟩
    simp only [rxMessage, rxLookup, hfind, rxDone, RpmsgDevice.modify,
      Function.update_self, Function.update_idem]
    congr 3
    -- the reference is taken and given back
    rw [learn_incref]
    exact decref_incref _ href

/-- What an announcement does: it changes a destination, after which a
node may go, or it is for `openamp_ns_bind_cb`. -/
theorem nsCallback_cases (reg : Registry) (msg : RpmsgNsMsg)
    (send : SendOutcome) :
    nsCallback reg msg send = reg ∧ msg.flags = .destroy ∨
    (∃ ept dest, rpmsgGetEndpoint reg.rdev (some (cString msg.name))
        RPMSG_ADDR_ANY msg.addr = some ept ∧
      ∃ reg₁, reg₁ = { reg with rdev := reg.rdev.modify ept fun e =>
          { e with destAddr := dest } } ∧
        (nsCallback reg msg send = reg₁ ∨ msg.flags = .destroy ∧ ∃ name,
          nsCallback reg msg send = (openampAppNodeUnregister reg₁ name).2)) ∨
    msg.flags = .create ∧ rpmsgGetEndpoint reg.rdev (some (cString msg.name))
        RPMSG_ADDR_ANY msg.addr = none ∧
      nsCallback reg msg send =
        openampNsBindCb reg (cString msg.name) msg.addr send := by
  unfold nsCallback
  simp only
  cases hfind : rpmsgGetEndpoint reg.rdev (some (cString msg.name))
    RPMSG_ADDR_ANY msg.addr with
  | none =>
    cases hflags : msg.flags with
    | destroy => exact .inl ⟨rfl, rfl⟩
    | create => exact .inr (.inr ⟨rfl, rfl, rfl⟩)
  | some ept =>
    right
    left
    cases hflags : msg.flags with
    | create => exact ⟨ept, msg.addr, rfl, _, rfl, .inl rfl⟩
    | destroy =>
      refine ⟨ept, RPMSG_ADDR_ANY, rfl, _, rfl, ?_⟩
      simp only
      split
      · split
        · exact .inr ⟨trivial, _, rfl⟩
        · exact .inl rfl
      · exact .inl rfl

theorem Registry.Inv.live_setDest {reg : Registry} (h : reg.Inv)
    (hlive : NodesLive reg) (ept : Nat) (dest : UInt32) :
    NodesLive { reg with rdev := reg.rdev.modify ept fun e =>
      { e with destAddr := dest } } := by
  rw [(h.setDest ept dest).live_iff]
  exact fun n hn => (hlive.linked n hn).1

/-- **A step keeps the invariant.** -/
theorem NodeStep.inv {reg reg' : Registry} {c : NodeCall}
    (hstep : NodeStep reg c reg') (h : reg.Inv) : reg'.Inv := by
  subst hstep
  cases c with
  | call c =>
    cases c with
    | register name cb unbindCb send => exact h.register name cb unbindCb send
    | bind name dest send => exact h.bind name dest send
    | unregister name => exact h.unregister name
  | announcement msg send =>
    simp only [NodeCall.run]
    -- the name service may set a destination, unbind or bind
    rcases nsCallback_cases reg msg send with
      ⟨hsame, -⟩ | ⟨ept, dest, -, reg₁, rfl, hset | ⟨-, name, hgone⟩⟩ |
        ⟨-, -, hbind⟩
    · rw [hsame]
      exact h
    · rw [hset]
      exact h.setDest ept dest
    · rw [hgone]
      exact (h.setDest ept dest).unregister name
    · rw [hbind]
      exact h.bind _ _ _
  | message src dst =>
    simp only [NodeCall.run]
    rcases h.rxMessage_cases src dst with hsame | ⟨ept, dest, hset⟩
    · rw [hsame]
      exact h
    · rw [hset]
      exact h.setDest ept dest

/-- **One step** leaves every node with a live endpoint exactly when the
announcement of the node it brings, if there is one, is sent. -/
theorem NodeStep.live_iff {reg reg' : Registry} {c : NodeCall}
    (hstep : NodeStep reg c reg') (h : reg.Inv) (hlive : NodesLive reg) :
    NodesLive reg' ↔ c.Sent reg := by
  subst hstep
  cases c with
  | call c =>
    cases c with
    | register name cb unbindCb send =>
      exact h.live_register hlive name cb unbindCb send
    | bind name dest send => exact h.live_bind hlive name dest send
    | unregister name => exact iff_of_true (h.live_unregister hlive name) trivial
  | announcement msg send =>
    simp only [NodeCall.run, NodeCall.Sent]
    rcases nsCallback_cases reg msg send with
      ⟨hsame, hflags⟩ | ⟨ept, dest, hfind, reg₁, rfl, hset | ⟨-, name, hgone⟩⟩ |
        ⟨hflags, hnone, hbind⟩
    · rw [hsame, hflags]
      exact iff_of_true hlive fun hcreate => nomatch hcreate
    · rw [hset, hfind]
      exact iff_of_true (h.live_setDest hlive ept dest) fun _ hno => nomatch hno
    · rw [hgone, hfind]
      exact iff_of_true ((h.setDest ept dest).live_unregister
        (h.live_setDest hlive ept dest) name) fun _ hno => nomatch hno
    · rw [hbind, h.live_bind hlive]
      simp only [Announced, openampFindAppNode, cString_cString]
      exact ⟨fun hok _ _ => hok, fun hok => hok hflags hnone⟩
  | message src dst =>
    simp only [NodeCall.run, NodeCall.Sent]
    rcases h.rxMessage_cases src dst with hsame | ⟨ept, dest, hset⟩
    · rw [hsame]
      exact iff_of_true hlive trivial
    · rw [hset]
      exact iff_of_true (h.live_setDest hlive ept dest) trivial

theorem Registry.init_inv : Registry.init.Inv where
  sound := ⟨List.nodup_nil, fun n hn => (nomatch hn), fun n hn => (nomatch hn)⟩
  nsName := rfl
  notNs := fun n hn => nomatch hn
  pos := by decide
  support := rfl
  nodup := by decide
  below := by decide
  owned := fun ept hept => .inl (List.mem_singleton.mp hept)
  ref := by decide
  off := fun n hn => nomatch hn

/-- **Every registered node has a live endpoint** in a run exactly when
every announcement of a node that comes in is sent. -/
theorem nodes_live_iff (calls : List NodeCall) :
    Throughout NodeStep .init calls NodesLive ↔
      EachStep NodeStep .init calls fun reg c => c.Sent reg := by
  apply throughout_iff_of_invariant (I := Registry.Inv)
  · intro reg c reg' h hstep
    exact hstep.inv h
  · intro reg c reg' h hlive hstep
    exact hstep.live_iff h hlive
  · exact Registry.init_inv
  · rw [Registry.init_inv.live_iff]
    exact fun n hn => nomatch hn

/-- A node whose announcement finds no buffer is on the list, and its
endpoint is not. -/
theorem unsent_node_dead : ∃ reg,
    Path NodeStep .init [.call (.register [97] 1 1 .noBuff)] reg ∧
    reg.nodes.map (·.id) = [1] ∧ reg.rdev.endpoints = [nsEpt] ∧
    (reg.rdev.epts 1).rdev = false ∧ ¬ NodesLive reg := by
  refine ⟨_, .cons rfl (.nil _), by decide +kernel, by decide +kernel,
    by decide +kernel, fun h => ?_⟩
  obtain ⟨node, hnode, hid⟩ : ∃ node ∈ (NodeCall.run .init
      (.call (.register [97] 1 1 .noBuff))).nodes, node.id = 1 :=
    ⟨_, List.mem_cons_self, rfl⟩
  have hlinked := (h.linked node hnode).1
  rw [hid] at hlinked
  exact absurd hlinked (by decide +kernel)

end OpenAmp.Interface
