import OpenAmp.Interface.NodeEndpoint

/-!
# Announcements and the registry

What becomes of an announcement in the registry. It is looked up twice:
by name and destination among the endpoints, and, where no endpoint
answers, by name alone among the nodes. A node of that name that is bound
to another destination is in the way of the second, and stays as it is.
-/

namespace OpenAmp.Interface

open OpenAmp.Lib OpenAmp.Rpmsg

/-- The announcement of an endpoint `dest` of the peer. -/
def createMsg (name : List UInt8) (dest : UInt32) : RpmsgNsMsg :=
  ⟨name, dest, .create⟩

/-- The registry after it, the announcement of a new node being sent. -/
def announced (reg : Registry) (name : List UInt8) (dest : UInt32) :
    Registry :=
  nsCallback reg (createMsg name dest) .sent

/-- What a node is bound to. -/
def Registry.destOf (reg : Registry) (node : AppNode) : UInt32 :=
  (reg.rdev.epts node.id).destAddr

/-- A linked endpoint of a node has its name. -/
theorem Registry.Inv.eptName {reg : Registry} (h : reg.Inv) {node : AppNode}
    (hnode : node ∈ reg.nodes) (hlinked : node.id ∈ reg.rdev.endpoints) :
    (reg.rdev.epts node.id).name = node.cName := by
  rcases h.owned node.id hlinked with hns | ⟨owner, howner, hid, hname⟩
  · exact absurd hns (h.notNs node hnode)
  · rw [hname, List.inj_on_of_nodup_map h.sound.ids howner hnode hid]

/-- The endpoint an announcement is for is that of a node of the name. -/
theorem Registry.Inv.getEndpoint_some {reg : Registry} (h : reg.Inv)
    {name : List UInt8} (hns : cString name ≠ Rpmsg.nsName) {dest : UInt32}
    {ept : Nat} (hget : rpmsgGetEndpoint reg.rdev (some (cString name))
      RPMSG_ADDR_ANY dest = some ept) :
    ∃ node ∈ reg.nodes, node.id = ept ∧ node.cName = cString name ∧
      (reg.destOf node = dest ∨ reg.destOf node = RPMSG_ADDR_ANY) := by
  rw [rpmsgGetEndpoint] at hget
  have hmem := List.mem_of_find?_eq_some hget
  have hmatch := List.find?_some hget
  simp only [endpointMatches, ne_eq, not_true_eq_false, false_and, false_or,
    true_and, decide_eq_true_eq, Option.some.injEq] at hmatch
  obtain ⟨hname, hdest⟩ := hmatch
  rcases h.owned ept hmem with rfl | ⟨node, hnode, rfl, howner⟩
  · rw [h.nsName] at hname
    exact absurd hname hns
  · refine ⟨node, hnode, rfl, by rw [hname, howner], ?_⟩
    exact hdest.imp_left And.right

/-- A linked node of the name that is unbound, or bound to the endpoint
announced, is found. -/
theorem Registry.Inv.getEndpoint_none {reg : Registry} (h : reg.Inv)
    {name : List UInt8} {dest : UInt32}
    (hget : rpmsgGetEndpoint reg.rdev (some (cString name)) RPMSG_ADDR_ANY
      dest = none)
    {node : AppNode} (hnode : node ∈ reg.nodes)
    (hname : node.cName = cString name)
    (hlinked : node.id ∈ reg.rdev.endpoints) :
    reg.destOf node ≠ RPMSG_ADDR_ANY := by
  intro hany
  have hno := List.find?_eq_none.mp hget node.id hlinked
  apply hno
  have hdest : (reg.rdev.epts node.id).destAddr = RPMSG_ADDR_ANY := hany
  simp [endpointMatches, h.eptName hnode hlinked, hname, hdest]

/-- What an announcement is answered with. A node of the name is in the
registry, and is bound to the endpoint announced if there was none before,
or one that was bound to it already, or one that was linked and not bound
at all. One that was bound to another endpoint is left alone. -/
structure Answered (reg : Registry) (name : List UInt8) (dest : UInt32)
    (reg' : Registry) : Prop where
  named : ∃ node ∈ reg'.nodes, node.cName = cString name
  bound : (∀ old ∈ reg.nodes, old.cName = cString name →
      reg.destOf old = dest ∨
        reg.destOf old = RPMSG_ADDR_ANY ∧ old.id ∈ reg.rdev.endpoints) →
    ∃ node ∈ reg'.nodes, node.cName = cString name ∧ reg'.destOf node = dest
  kept : ∀ old ∈ reg.nodes, old.cName = cString name →
    reg.destOf old ≠ dest → reg.destOf old ≠ RPMSG_ADDR_ANY →
    old ∈ reg'.nodes ∧ reg'.destOf old = reg.destOf old

/-- The announcement is for an endpoint that is found. -/
theorem Registry.Inv.answered_endpoint {reg : Registry} (h : reg.Inv)
    {name : List UInt8} (hns : cString name ≠ Rpmsg.nsName) {dest : UInt32}
    {ept : Nat} (hget : rpmsgGetEndpoint reg.rdev (some (cString name))
      RPMSG_ADDR_ANY dest = some ept) :
    Answered reg name dest { reg with rdev := reg.rdev.modify ept fun e =>
      { e with destAddr := dest } } := by
  obtain ⟨node, hnode, rfl, hname, hdest⟩ := h.getEndpoint_some hns hget
  have hset : Registry.destOf { reg with
      rdev := reg.rdev.modify node.id fun e =>
        { e with destAddr := dest } } node = dest := by
    simp [Registry.destOf]
  constructor
  case named => exact ⟨node, hnode, hname⟩
  case bound => exact fun _ => ⟨node, hnode, hname, hset⟩
  case kept =>
    intro old hold _ hne hany
    refine ⟨hold, ?_⟩
    -- the node found is not the one that is bound elsewhere
    have hids : old.id ≠ node.id := by
      intro heq
      have hsame := List.inj_on_of_nodup_map h.sound.ids hold hnode heq
      subst hsame
      exact hdest.elim hne hany
    simp only [Registry.destOf]
    rw [RpmsgDevice.modify_of_ne _ _ hids]

/-- It is for none, and goes to `openamp_ns_bind_cb`. -/
theorem Registry.Inv.answered_bind {reg : Registry} (h : reg.Inv)
    {name : List UInt8} {dest : UInt32}
    (hshort : (cString name).length < OPENAMP_APP_NODE_NAME_MAXLEN)
    (hget : rpmsgGetEndpoint reg.rdev (some (cString name)) RPMSG_ADDR_ANY
      dest = none) :
    Answered reg name dest
      (openampNsBindCb reg (cString name) dest .sent) := by
  cases hfind : openampFindAppNode reg.nodes (cString name) with
  | some node =>
    obtain ⟨hnode, hname⟩ := findAppNode_some hfind
    rw [cString_cString] at hname
    rw [openampNsBindCb, hfind]
    constructor
    case named => exact ⟨node, hnode, hname⟩
    case bound =>
      intro hold
      refine ⟨node, hnode, hname, ?_⟩
      rcases hold node hnode hname with hdest | ⟨hany, hlinked⟩
      · exact hdest
      · exact absurd hany (h.getEndpoint_none hget hnode hname hlinked)
    case kept => exact fun old hold _ _ _ => ⟨hold, rfl⟩
  | none =>
    have hno : ∀ old ∈ reg.nodes, old.cName ≠ cString name := by
      intro old hold
      have := findAppNode_none hfind old hold
      rwa [cString_cString] at this
    have hnamed : (newNode reg.next (cString name) dest defaultBindCb
        defaultUnbindCb).cName = cString name := by
      rw [newNode_cName, cString_cString,
        List.take_of_length_le (Nat.le_of_lt hshort)]
    rw [openampNsBindCb, hfind]
    constructor
    case named => exact ⟨_, List.mem_cons_self, hnamed⟩
    case bound =>
      refine fun _ => ⟨_, List.mem_cons_self, hnamed, ?_⟩
      simp [Registry.destOf, newNode]
    case kept =>
      intro old hold hname
      exact absurd hname (hno old hold)

/-- **Announcements are honoured** by the registry, but for a node that is
bound to another endpoint. -/
theorem announcement_answered {calls : List NodeCall} {reg : Registry}
    (hreach : Path NodeStep .init calls reg) {name : List UInt8}
    (hshort : (cString name).length < OPENAMP_APP_NODE_NAME_MAXLEN)
    (hns : cString name ≠ Rpmsg.nsName) (dest : UInt32) :
    Answered reg name dest (announced reg name dest) := by
  have h : reg.Inv := hreach.keeps (fun _ _ _ hs hst => hst.inv hs)
    Registry.init_inv
  cases hget : rpmsgGetEndpoint reg.rdev (some (cString name)) RPMSG_ADDR_ANY
    dest with
  | some ept =>
    have heq : announced reg name dest = { reg with
        rdev := reg.rdev.modify ept fun e => { e with destAddr := dest } } := by
      simp only [announced, nsCallback, createMsg, hget]
    rw [heq]
    exact h.answered_endpoint hns hget
  | none =>
    have heq : announced reg name dest =
        openampNsBindCb reg (cString name) dest .sent := by
      simp only [announced, nsCallback, createMsg, hget]
    rw [heq]
    exact h.answered_bind hshort hget

/-- The first announcement of endpoint 1024 as `a`. -/
theorem first_announcement :
    ∃ node ∈ (announced .init [97] 1024).nodes,
      node.cName = cString [97] ∧
        (announced .init [97] 1024).destOf node = 1024 :=
  (announcement_answered (.nil _) (by decide) (by decide) 1024).bound
    fun old hold => nomatch hold

/-- A restarted peer announces itself under a new address, and the node
stays bound to the old one. -/
theorem reannouncement_ignored : ∃ reg,
    Path NodeStep .init [.announcement (createMsg [97] 1024) .sent] reg ∧
    (announced reg [97] 1025).nodes.map (·.cName) = [[97]] ∧
    (announced reg [97] 1025).nodes.map (announced reg [97] 1025).destOf =
      [1024] ∧
    ¬ ∃ node ∈ (announced reg [97] 1025).nodes,
      node.cName = cString [97] ∧
        (announced reg [97] 1025).destOf node = 1025 := by
  have hdest : (announced (announced .init [97] 1024) [97] 1025).nodes.map
      (announced (announced .init [97] 1024) [97] 1025).destOf = [1024] := by
    decide +kernel
  refine ⟨announced .init [97] 1024, .cons rfl (.nil _), by decide +kernel,
    hdest, ?_⟩
  rintro ⟨node, hnode, -, hbound⟩
  have hmem := List.mem_map_of_mem hnode
    (f := (announced (announced .init [97] 1024) [97] 1025).destOf)
  rw [hdest, hbound] at hmem
  exact absurd hmem (by decide)

end OpenAmp.Interface
