import OpenAmp.Lib.Bytes
import OpenAmp.Rpmsg.NameService

/-!
# The registry of application nodes

`openamp_app_node_register`, `openamp_app_node_unregister`,
`openamp_find_app_node` and `openamp_ns_bind_cb` of
`operation_interface/operation_interface.c`. A node carries a name, an
endpoint and callbacks; the nodes are kept in one list, and are found by
their names.

The name of a node is an array of twenty characters that `strncpy`
fills. What `strcmp` takes for the name runs on into the field behind the
array where the array holds no zero.
-/

namespace OpenAmp.Interface

open OpenAmp.Lib OpenAmp.Rpmsg

def OPENAMP_APP_NODE_NAME_MAXLEN : Nat := 20

/-- The numbers of `default_bind_cb` and `default_unbind_cb` among the
callbacks. -/
def defaultBindCb : Nat := 0
def defaultUnbindCb : Nat := 0

/-! ## C strings -/

/-- The characters of the string that starts with these bytes. -/
def cString (bytes : List UInt8) : List UInt8 := bytes.takeWhile (· ≠ 0)

/-- `strncpy` into an array of `n` characters. -/
def strncpy (n : Nat) (src : List UInt8) : List UInt8 :=
  (cString src).take n ++ List.replicate (n - (cString src).length) 0

theorem cString_ne_zero {bytes : List UInt8} :
    ∀ c ∈ cString bytes, c ≠ 0 := by
  intro c hc
  simpa using List.mem_takeWhile_imp hc

theorem cString_of_ne_zero {bytes : List UInt8} (h : ∀ c ∈ bytes, c ≠ 0) :
    cString bytes = bytes := by
  rw [cString, List.takeWhile_eq_self_iff]
  simpa using h

theorem cString_append_zero {bytes rest : List UInt8}
    (h : ∀ c ∈ bytes, c ≠ 0) : cString (bytes ++ 0 :: rest) = bytes := by
  rw [cString, List.takeWhile_append_of_pos (by simpa using h)]
  simp

/-- A zero among the bytes ends the string before their end. -/
theorem cString_length_lt {bytes : List UInt8} (rest : List UInt8)
    (h : 0 ∈ bytes) : (cString (bytes ++ rest)).length < bytes.length := by
  induction bytes with
  | nil => cases h
  | cons c bytes ih =>
    by_cases hc : c = 0
    · subst hc
      simp [cString]
    · have hmem : 0 ∈ bytes := (List.mem_cons.mp h).resolve_left (Ne.symm hc)
      have hlt := ih hmem
      have hcons : cString (c :: bytes ++ rest) =
          c :: cString (bytes ++ rest) := by
        simp [cString, hc]
      rw [hcons, List.length_cons, List.length_cons]
      omega

@[simp] theorem cString_cString (bytes : List UInt8) :
    cString (cString bytes) = cString bytes :=
  cString_of_ne_zero cString_ne_zero

/-! ## Nodes -/

/-- `struct openamp_app_node`: `id` stands for its address and for that of
its endpoint, whose callbacks are `eptCb` and `eptUnbindCb`. -/
structure AppNode where
  id : Nat
  name : List UInt8
  src : UInt32
  dest : UInt32
  cb : Nat
  unbindCb : Nat
  eptCb : Nat
  eptUnbindCb : Nat
deriving DecidableEq, Repr

/-- What `strcmp` reads as the name of a node. -/
def AppNode.cName (node : AppNode) : List UInt8 :=
  cString (node.name ++ leBytes 4 node.src.toNat)

/-- `app_node_head.node_list`, the next node to be allocated, and the rpmsg
device. -/
structure Registry where
  nodes : List AppNode
  next : Nat
  rdev : RpmsgDevice

/-- `openamp_find_app_node`, the search that the other functions make as
well. -/
def openampFindAppNode (nodes : List AppNode) (name : List UInt8) :
    Option AppNode :=
  nodes.find? fun node => cString name = node.cName

/-- A new node, cleared and filled in. Its endpoint gets the callbacks of
the node. -/
def newNode (id : Nat) (name : List UInt8) (dest : UInt32)
    (cb unbindCb : Nat) : AppNode where
  id := id
  name := strncpy OPENAMP_APP_NODE_NAME_MAXLEN name
  src := 0
  dest := dest
  cb := cb
  unbindCb := unbindCb
  eptCb := cb
  eptUnbindCb := unbindCb

/-- An endpoint as `memset` leaves it. -/
def clearedEpt : RpmsgEndpoint := ⟨[], false, 0, 0, 0, false⟩

/-- The node is put at the head of the list and `rpmsg_create_ept` is
called for its endpoint; what that returns is not looked at. -/
def addNode (reg : Registry) (node : AppNode) (send : SendOutcome) :
    Registry where
  nodes := node :: reg.nodes
  next := reg.next + 1
  rdev := (rpmsgCreateEpt (reg.rdev.modify node.id fun _ => clearedEpt)
    node.id (some node.cName) RPMSG_ADDR_ANY RPMSG_ADDR_ANY true send).2

/-- `openamp_app_node_register` with two callbacks: the node returned. -/
def openampAppNodeRegister (reg : Registry) (name : List UInt8)
    (cb unbindCb : Nat) (send : SendOutcome) : Nat × Registry :=
  match openampFindAppNode reg.nodes name with
  | some node =>
    if node.eptCb = cb ∧ node.eptUnbindCb = unbindCb then (node.id, reg)
    else (node.id, { reg with nodes := reg.nodes.map fun n =>
      if n.id = node.id then
        { n with eptCb := cb, eptUnbindCb := unbindCb }
      else n })
  | none =>
    (reg.next, addNode reg (newNode reg.next name 0 cb unbindCb) send)

/-- `openamp_ns_bind_cb`, without the hook of the application. The node it
allocates is freed where the name is taken. -/
def openampNsBindCb (reg : Registry) (name : List UInt8) (dest : UInt32)
    (send : SendOutcome) : Registry :=
  match openampFindAppNode reg.nodes name with
  | some _ => { reg with next := reg.next + 1 }
  | none =>
    let reg' := addNode reg
      (newNode reg.next name dest defaultBindCb defaultUnbindCb) send
    { reg' with rdev := reg'.rdev.modify reg.next fun e =>
      { e with destAddr := dest } }

/-- `openamp_app_node_unregister`. -/
def openampAppNodeUnregister (reg : Registry) (name : List UInt8) :
    Int × Registry :=
  match openampFindAppNode reg.nodes name with
  | some node => (0, { reg with
      nodes := reg.nodes.filter (·.id ≠ node.id)
      rdev := rpmsgDestroyEpt reg.rdev node.id })
  | none => (-1, reg)

/-- No nodes yet; the device is initialised, with name service. -/
def Registry.init : Registry :=
  ⟨[], 1, RpmsgDevice.init true nsEpt fun _ => false⟩

/-! ## What is stored of a name -/

theorem newNode_cName (id : Nat) (name : List UInt8) (dest : UInt32)
    (cb unbindCb : Nat) : (newNode id name dest cb unbindCb).cName =
      (cString name).take OPENAMP_APP_NODE_NAME_MAXLEN := by
  have hne : ∀ c ∈ (cString name).take OPENAMP_APP_NODE_NAME_MAXLEN, c ≠ 0 :=
    fun c hc => cString_ne_zero c (List.mem_of_mem_take hc)
  have hzeros : List.replicate (OPENAMP_APP_NODE_NAME_MAXLEN -
      (cString name).length) (0 : UInt8) ++ leBytes 4 0 =
        0 :: List.replicate (OPENAMP_APP_NODE_NAME_MAXLEN -
          (cString name).length + 3) 0 := by
    rw [show leBytes 4 0 = List.replicate 4 0 from rfl,
      List.replicate_append_replicate, ← List.replicate_succ]
  rw [AppNode.cName, newNode]
  change cString (strncpy OPENAMP_APP_NODE_NAME_MAXLEN name ++ leBytes 4 0) = _
  rw [strncpy, List.append_assoc, hzeros, cString_append_zero hne]

/-- The array ends in a zero exactly where the name is shorter than it. -/
theorem newNode_terminated (id : Nat) (name : List UInt8) (dest : UInt32)
    (cb unbindCb : Nat) : 0 ∈ (newNode id name dest cb unbindCb).name ↔
      (cString name).length < OPENAMP_APP_NODE_NAME_MAXLEN := by
  have hne : (0 : UInt8) ∉
      (cString name).take OPENAMP_APP_NODE_NAME_MAXLEN :=
    fun h => cString_ne_zero 0 (List.mem_of_mem_take h) rfl
  simp only [newNode, strncpy, List.mem_append, hne, false_or,
    List.mem_replicate, and_true]
  omega

/-! ## Calls and runs -/

/-- The calls on the registry, with the outcome of the announcement. -/
inductive RegCall where
  | register (name : List UInt8) (cb unbindCb : Nat) (send : SendOutcome)
  | bind (name : List UInt8) (dest : UInt32) (send : SendOutcome)
  | unregister (name : List UInt8)

/-- The registry, and the node each name was last registered with, if it
was not unregistered since. -/
structure RegState where
  reg : Registry
  granted : List UInt8 → Option Nat

def RegCall.run (s : RegState) : RegCall → RegState
  | .register name cb unbindCb send =>
    let (id, reg) := openampAppNodeRegister s.reg name cb unbindCb send
    ⟨reg, Function.update s.granted (cString name) (some id)⟩
  | .bind name dest send => ⟨openampNsBindCb s.reg name dest send, s.granted⟩
  | .unregister name =>
    ⟨(openampAppNodeUnregister s.reg name).2,
      Function.update s.granted (cString name) none⟩

def RegStep (s : RegState) (c : RegCall) (t : RegState) : Prop := t = c.run s

def RegState.init : RegState := ⟨.init, fun _ => none⟩

/-- The registry answers to `name` with node `id`: a search and a further
registration return it, and it is what `openamp_app_node_unregister`
removes. -/
structure Kept (reg : Registry) (name : List UInt8) (id : Nat) : Prop where
  found : (openampFindAppNode reg.nodes name).map (·.id) = some id
  again : ∀ cb unbindCb send,
    (openampAppNodeRegister reg name cb unbindCb send).1 = id
  removed : (openampAppNodeUnregister reg name).1 = 0 ∧
    ∃ before node after, reg.nodes = before ++ node :: after ∧ node.id = id ∧
      (openampAppNodeUnregister reg name).2.nodes = before ++ after

/-- Names end inside their arrays, are distinct, and are kept. -/
structure NamesKept (s : RegState) : Prop where
  terminated : ∀ node ∈ s.reg.nodes, 0 ∈ node.name
  distinct : (s.reg.nodes.map AppNode.cName).Nodup
  kept : ∀ name id, s.granted (cString name) = some id → Kept s.reg name id

/-- A name that comes into the registry has at most 19 characters. -/
def RegCall.Short : RegCall → Prop
  | .register name _ _ _ => (cString name).length < OPENAMP_APP_NODE_NAME_MAXLEN
  | .bind name _ _ => (cString name).length < OPENAMP_APP_NODE_NAME_MAXLEN
  | .unregister _ => True

/-! ## Lists of nodes -/

section Nodes

variable {nodes : List AppNode} {name : List UInt8}

theorem findAppNode_some {node : AppNode}
    (h : openampFindAppNode nodes name = some node) :
    node ∈ nodes ∧ node.cName = cString name := by
  rw [openampFindAppNode] at h
  have hname := List.find?_some h
  exact ⟨List.mem_of_find?_eq_some h, (of_decide_eq_true hname).symm⟩

theorem findAppNode_none (h : openampFindAppNode nodes name = none) :
    ∀ node ∈ nodes, node.cName ≠ cString name := by
  intro node hnode heq
  have := List.find?_eq_none.mp h node hnode
  simp [heq] at this

/-- Where names are distinct, a node is found by its name. -/
theorem findAppNode_of_mem (hdistinct : (nodes.map AppNode.cName).Nodup)
    {node : AppNode} (hnode : node ∈ nodes) (hname : node.cName = cString name) :
    openampFindAppNode nodes name = some node := by
  cases hfind : openampFindAppNode nodes name with
  | none => exact absurd hname (findAppNode_none hfind node hnode)
  | some found =>
    obtain ⟨hmem, hsame⟩ := findAppNode_some hfind
    rw [List.inj_on_of_nodup_map hdistinct hmem hnode (hsame.trans hname.symm)]

end Nodes

/-- Nodes are distinct objects, with names in arrays of the same size. -/
structure Registry.Sound (reg : Registry) : Prop where
  ids : (reg.nodes.map (·.id)).Nodup
  below : ∀ node ∈ reg.nodes, node.id < reg.next
  array : ∀ node ∈ reg.nodes, node.name.length = OPENAMP_APP_NODE_NAME_MAXLEN

/-- The node that is removed by its address is removed alone. -/
theorem filter_id_ne {before after : List AppNode} {node : AppNode}
    (h : ((before ++ node :: after).map (·.id)).Nodup) :
    (before ++ node :: after).filter (·.id ≠ node.id) = before ++ after := by
  simp only [List.map_append, List.map_cons, List.nodup_append,
    List.nodup_cons, List.mem_cons] at h
  obtain ⟨-, ⟨hafter, -⟩, hbefore⟩ := h
  have h₁ : before.filter (·.id ≠ node.id) = before := by
    rw [List.filter_eq_self]
    intro n hn
    simpa using hbefore n.id (List.mem_map_of_mem hn) node.id (.inl rfl)
  have h₂ : after.filter (·.id ≠ node.id) = after := by
    rw [List.filter_eq_self]
    intro n hn
    have hne : n.id ≠ node.id := fun heq =>
      hafter (heq ▸ List.mem_map_of_mem hn)
    simpa using hne
  rw [List.filter_append, h₁, List.filter_cons_of_neg (by simp), h₂]

/-- A node whose name is the only one of its kind keeps it. -/
theorem Kept.of_mem {reg : Registry} {name : List UInt8} {node : AppNode}
    (hsound : reg.Sound) (hdistinct : (reg.nodes.map AppNode.cName).Nodup)
    (hnode : node ∈ reg.nodes) (hname : node.cName = cString name) :
    Kept reg name node.id := by
  have hfind := findAppNode_of_mem hdistinct hnode hname
  constructor
  case found => rw [hfind]; rfl
  case again =>
    intro cb unbindCb send
    rw [openampAppNodeRegister, hfind]
    simp only
    split <;> rfl
  case removed =>
    obtain ⟨before, after, hsplit⟩ := List.append_of_mem hnode
    rw [openampAppNodeUnregister, hfind]
    refine ⟨rfl, before, node, after, hsplit, rfl, ?_⟩
    have hids := hsound.ids
    simp only [hsplit] at hids ⊢
    exact filter_id_ne hids

/-- What is asked of the names comes down to what nodes there are. -/
theorem namesKept_iff {s : RegState} (hsound : s.reg.Sound) :
    NamesKept s ↔ (∀ node ∈ s.reg.nodes, 0 ∈ node.name) ∧
      (s.reg.nodes.map AppNode.cName).Nodup ∧
      ∀ name id, s.granted (cString name) = some id →
        ∃ node ∈ s.reg.nodes, node.id = id ∧ node.cName = cString name := by
  constructor
  · intro h
    refine ⟨h.terminated, h.distinct, fun name id hid => ?_⟩
    obtain ⟨node, hfind, hnode⟩ :=
      Option.map_eq_some_iff.mp (h.kept name id hid).found
    obtain ⟨hmem, hname⟩ := findAppNode_some hfind
    exact ⟨node, hmem, hnode, hname⟩
  · rintro ⟨hterm, hdistinct, hnodes⟩
    refine ⟨hterm, hdistinct, fun name id hid => ?_⟩
    obtain ⟨node, hmem, rfl, hname⟩ := hnodes name id hid
    exact .of_mem hsound hdistinct hmem hname

/-- The calls say what they do to the list of nodes. -/
theorem openampAppNodeRegister_nodes (reg : Registry) (name : List UInt8)
    (cb unbindCb : Nat) (send : SendOutcome) :
    (∃ node f, openampFindAppNode reg.nodes name = some node ∧
      (∀ n : AppNode, (f n).id = n.id ∧ (f n).name = n.name ∧
        (f n).src = n.src) ∧
      (openampAppNodeRegister reg name cb unbindCb send).1 = node.id ∧
      (openampAppNodeRegister reg name cb unbindCb send).2 =
        { reg with nodes := reg.nodes.map f }) ∨
    openampFindAppNode reg.nodes name = none ∧
      openampAppNodeRegister reg name cb unbindCb send =
        (reg.next, addNode reg (newNode reg.next name 0 cb unbindCb) send) := by
  cases hfind : openampFindAppNode reg.nodes name with
  | none =>
    refine .inr ⟨rfl, ?_⟩
    rw [openampAppNodeRegister, hfind]
  | some node =>
    left
    rw [openampAppNodeRegister, hfind]
    simp only
    split
    · refine ⟨node, id, rfl, fun n => ⟨rfl, rfl, rfl⟩, rfl, ?_⟩
      rw [List.map_id]
    · refine ⟨node, _, rfl, fun n => ?_, rfl, rfl⟩
      split <;> exact ⟨rfl, rfl, rfl⟩

theorem openampNsBindCb_nodes (reg : Registry) (name : List UInt8)
    (dest : UInt32) (send : SendOutcome) :
    (∃ node, openampFindAppNode reg.nodes name = some node ∧
      openampNsBindCb reg name dest send =
        { reg with next := reg.next + 1 }) ∨
    openampFindAppNode reg.nodes name = none ∧
      (openampNsBindCb reg name dest send).nodes =
        newNode reg.next name dest defaultBindCb defaultUnbindCb ::
          reg.nodes ∧
      (openampNsBindCb reg name dest send).next = reg.next + 1 := by
  cases hfind : openampFindAppNode reg.nodes name with
  | none =>
    right
    rw [openampNsBindCb, hfind]
    exact ⟨rfl, rfl, rfl⟩
  | some node =>
    left
    rw [openampNsBindCb, hfind]
    exact ⟨node, rfl, rfl⟩

/-! ## The invariant -/

theorem Registry.Sound.map {reg reg' : Registry} (h : reg.Sound)
    {f : AppNode → AppNode} (hnodes : reg'.nodes = reg.nodes.map f)
    (hnext : reg.next ≤ reg'.next)
    (hf : ∀ n, (f n).id = n.id ∧ (f n).name = n.name) : reg'.Sound := by
  constructor
  case ids =>
    rw [hnodes, List.map_map]
    have : (fun n : AppNode => n.id) ∘ f = fun n => n.id :=
      funext fun n => (hf n).1
    rw [this]
    exact h.ids
  case below =>
    intro node hnode
    rw [hnodes] at hnode
    obtain ⟨n, hn, rfl⟩ := List.mem_map.mp hnode
    rw [(hf n).1]
    exact Nat.lt_of_lt_of_le (h.below n hn) hnext
  case array =>
    intro node hnode
    rw [hnodes] at hnode
    obtain ⟨n, hn, rfl⟩ := List.mem_map.mp hnode
    rw [(hf n).2]
    exact h.array n hn

theorem Registry.Sound.cons {reg reg' : Registry} (h : reg.Sound)
    {name : List UInt8} {dest : UInt32} {cb unbindCb : Nat}
    (hnodes : reg'.nodes = newNode reg.next name dest cb unbindCb :: reg.nodes)
    (hnext : reg'.next = reg.next + 1) : reg'.Sound := by
  constructor
  case ids =>
    rw [hnodes, List.map_cons, List.nodup_cons]
    refine ⟨fun hmem => ?_, h.ids⟩
    obtain ⟨n, hn, hid⟩ := List.mem_map.mp hmem
    have hlt := h.below n hn
    have hid : n.id = reg.next := hid
    omega
  case below =>
    intro node hnode
    rw [hnodes] at hnode
    rw [hnext]
    rcases List.mem_cons.mp hnode with rfl | hnode
    · exact Nat.lt_succ_self _
    · exact Nat.lt_succ_of_lt (h.below node hnode)
  case array =>
    intro node hnode
    rw [hnodes] at hnode
    rcases List.mem_cons.mp hnode with rfl | hnode
    · simp only [newNode, strncpy, List.length_append, List.length_take,
        List.length_replicate]
      omega
    · exact h.array node hnode

theorem Registry.Sound.filter {reg reg' : Registry} (h : reg.Sound)
    {p : AppNode → Bool} (hnodes : reg'.nodes = reg.nodes.filter p)
    (hnext : reg'.next = reg.next) : reg'.Sound := by
  constructor
  case ids =>
    rw [hnodes]
    exact h.ids.sublist (List.filter_sublist.map _)
  case below =>
    intro node hnode
    rw [hnodes] at hnode
    rw [hnext]
    exact h.below node (List.mem_of_mem_filter hnode)
  case array =>
    intro node hnode
    rw [hnodes] at hnode
    exact h.array node (List.mem_of_mem_filter hnode)

theorem openampAppNodeRegister_sound {reg : Registry} (h : reg.Sound)
    (name : List UInt8) (cb unbindCb : Nat) (send : SendOutcome) :
    (openampAppNodeRegister reg name cb unbindCb send).2.Sound := by
  rcases openampAppNodeRegister_nodes reg name cb unbindCb send with
    ⟨node, f, -, hf, -, heq⟩ | ⟨-, heq⟩
  · rw [heq]
    exact h.map rfl (Nat.le_refl _) fun n => ⟨(hf n).1, (hf n).2.1⟩
  · rw [heq]
    exact h.cons rfl rfl

theorem openampNsBindCb_sound {reg : Registry} (h : reg.Sound)
    (name : List UInt8) (dest : UInt32) (send : SendOutcome) :
    (openampNsBindCb reg name dest send).Sound := by
  rcases openampNsBindCb_nodes reg name dest send with
    ⟨node, -, heq⟩ | ⟨-, hnodes, hnext⟩
  · rw [heq]
    exact h.map (List.map_id _).symm (Nat.le_succ _) fun n => ⟨rfl, rfl⟩
  · exact h.cons hnodes hnext

theorem openampAppNodeUnregister_sound {reg : Registry} (h : reg.Sound)
    (name : List UInt8) : (openampAppNodeUnregister reg name).2.Sound := by
  unfold openampAppNodeUnregister
  split
  · exact h.filter rfl rfl
  · exact h

theorem RegStep.sound {s t : RegState} {c : RegCall} (hstep : RegStep s c t)
    (h : s.reg.Sound) : t.reg.Sound := by
  subst hstep
  cases c with
  | register name cb unbindCb send =>
    exact openampAppNodeRegister_sound h name cb unbindCb send
  | bind name dest send => exact openampNsBindCb_sound h name dest send
  | unregister name => exact openampAppNodeUnregister_sound h name

/-! ## Names over whole runs -/

/-- A node that comes in under a name that is not taken leaves the names
in order exactly when its own is short. -/
theorem namesKept_cons {s t : RegState} (hs : NamesKept s)
    (hsound : s.reg.Sound) (ht : t.reg.Sound) {name : List UInt8}
    {dest : UInt32} {cb unbindCb : Nat}
    (hnone : openampFindAppNode s.reg.nodes name = none)
    (hnodes : t.reg.nodes =
      newNode s.reg.next name dest cb unbindCb :: s.reg.nodes)
    (hgranted : ∀ m id, t.granted m = some id →
      m = cString name ∧ id = s.reg.next ∨ s.granted m = some id) :
    NamesKept t ↔ (cString name).length < OPENAMP_APP_NODE_NAME_MAXLEN := by
  constructor
  · intro h
    rw [← newNode_terminated s.reg.next name dest cb unbindCb]
    exact h.terminated _ (by rw [hnodes]; simp)
  · intro hshort
    -- a short name is copied whole
    have hname : (newNode s.reg.next name dest cb unbindCb).cName =
        cString name := by
      rw [newNode_cName, List.take_of_length_le (Nat.le_of_lt hshort)]
    obtain ⟨hterm, hdistinct, hkept⟩ := (namesKept_iff hsound).mp hs
    rw [namesKept_iff ht, hnodes]
    refine ⟨?_, ?_, ?_⟩
    · intro node hnode
      rcases List.mem_cons.mp hnode with rfl | hnode
      · exact (newNode_terminated _ _ _ _ _).mpr hshort
      · exact hterm node hnode
    · rw [List.map_cons, hname, List.nodup_cons]
      refine ⟨fun hmem => ?_, hdistinct⟩
      obtain ⟨n, hn, hsame⟩ := List.mem_map.mp hmem
      exact findAppNode_none hnone n hn hsame
    · intro m id hid
      rcases hgranted (cString m) id hid with ⟨hm, rfl⟩ | hold
      · exact ⟨_, List.mem_cons_self, rfl, by rw [hname, hm]⟩
      · obtain ⟨node, hnode, hnid, hncname⟩ := hkept m id hold
        exact ⟨node, List.mem_cons_of_mem _ hnode, hnid, hncname⟩

/-- A change of callbacks leaves the names in order. -/
theorem namesKept_map {s t : RegState} (hs : NamesKept s)
    (hsound : s.reg.Sound) (ht : t.reg.Sound) {f : AppNode → AppNode}
    (hf : ∀ n, (f n).id = n.id ∧ (f n).name = n.name ∧ (f n).src = n.src)
    (hnodes : t.reg.nodes = s.reg.nodes.map f)
    (hgranted : ∀ m id, t.granted m = some id →
      s.granted m = some id ∨
        ∃ node ∈ s.reg.nodes, node.id = id ∧ node.cName = m) :
    NamesKept t := by
  have hcname : ∀ n, (f n).cName = n.cName := by
    intro n
    rw [AppNode.cName, (hf n).2.1, (hf n).2.2, AppNode.cName]
  obtain ⟨hterm, hdistinct, hkept⟩ := (namesKept_iff hsound).mp hs
  rw [namesKept_iff ht, hnodes]
  refine ⟨?_, ?_, ?_⟩
  · intro node hnode
    obtain ⟨n, hn, rfl⟩ := List.mem_map.mp hnode
    rw [(hf n).2.1]
    exact hterm n hn
  · rw [List.map_map]
    have : AppNode.cName ∘ f = AppNode.cName := funext hcname
    rw [this]
    exact hdistinct
  · intro m id hid
    obtain ⟨node, hnode, hnid, hncname⟩ : ∃ node ∈ s.reg.nodes,
        node.id = id ∧ node.cName = cString m :=
      (hgranted _ id hid).elim (hkept m id) fun h => h
    exact ⟨f node, List.mem_map_of_mem hnode, by rw [(hf node).1, hnid],
      by rw [hcname, hncname]⟩

/-- A node that is removed takes its name with it, and no other. -/
theorem namesKept_unregister {s : RegState} {name : List UInt8}
    (hs : NamesKept s) (hsound : s.reg.Sound)
    (ht : (RegCall.run s (.unregister name)).reg.Sound) :
    NamesKept (RegCall.run s (.unregister name)) := by
  obtain ⟨hterm, hdistinct, hkept⟩ := (namesKept_iff hsound).mp hs
  rw [namesKept_iff ht]
  have hother : ∀ m id, (RegCall.run s (.unregister name)).granted m =
      some id → m ≠ cString name ∧ s.granted m = some id := by
    intro m id hid
    simp only [RegCall.run, Function.update_apply] at hid
    split at hid
    · cases hid
    · next hne => exact ⟨hne, hid⟩
  cases hfind : openampFindAppNode s.reg.nodes name with
  | none =>
    have hnodes : (RegCall.run s (.unregister name)).reg.nodes =
        s.reg.nodes := by
      simp only [RegCall.run, openampAppNodeUnregister, hfind]
    rw [hnodes]
    exact ⟨hterm, hdistinct, fun m id hid => hkept m id (hother _ id hid).2⟩
  | some node =>
    have hnodes : (RegCall.run s (.unregister name)).reg.nodes =
        s.reg.nodes.filter (·.id ≠ node.id) := by
      simp only [RegCall.run, openampAppNodeUnregister, hfind]
    obtain ⟨hmem, hname⟩ := findAppNode_some hfind
    rw [hnodes]
    refine ⟨fun n hn => hterm n (List.mem_of_mem_filter hn),
      hdistinct.sublist (List.filter_sublist.map _), fun m id hid => ?_⟩
    obtain ⟨hne, hold⟩ := hother _ id hid
    obtain ⟨n, hn, hnid, hncname⟩ := hkept m id hold
    refine ⟨n, List.mem_filter.mpr ⟨hn, ?_⟩, hnid, hncname⟩
    -- two nodes of different names are different objects
    have hids : n.id ≠ node.id := by
      intro heq
      have := List.inj_on_of_nodup_map hsound.ids hn hmem heq
      rw [this, hname] at hncname
      exact hne hncname.symm
    simpa using hids

/-- A search that finds a node was for a short name. -/
theorem short_of_found {s : RegState} (hs : NamesKept s)
    (hsound : s.reg.Sound) {name : List UInt8} {node : AppNode}
    (hfind : openampFindAppNode s.reg.nodes name = some node) :
    (cString name).length < OPENAMP_APP_NODE_NAME_MAXLEN := by
  obtain ⟨hmem, hname⟩ := findAppNode_some hfind
  rw [← hname, ← hsound.array node hmem]
  exact cString_length_lt _ (hs.terminated node hmem)

/-- **One call** leaves the names in order exactly when the name it brings
is short. -/
theorem RegStep.namesKept_iff {s t : RegState} {c : RegCall}
    (hstep : RegStep s c t) (hsound : s.reg.Sound) (hs : NamesKept s) :
    NamesKept t ↔ c.Short := by
  have ht := hstep.sound hsound
  subst hstep
  cases c with
  | register name cb unbindCb send =>
    rcases openampAppNodeRegister_nodes s.reg name cb unbindCb send with
      ⟨node, f, hfind, hf, hret, heq⟩ | ⟨hnone, heq⟩
    · -- a node that was found has a name that fitted
      refine iff_of_true ?_ (short_of_found hs hsound hfind)
      refine namesKept_map hs hsound ht hf (by simp only [RegCall.run, heq]) ?_
      intro m id hid
      simp only [RegCall.run, hret, Function.update_apply] at hid
      split at hid
      · next hm =>
        obtain ⟨hmem, hname⟩ := findAppNode_some hfind
        exact .inr ⟨node, hmem, Option.some.inj hid, by rw [hname, hm]⟩
      · exact .inl hid
    · refine namesKept_cons hs hsound ht hnone
        (by simp only [RegCall.run, heq]; rfl) ?_
      intro m id hid
      simp only [RegCall.run, heq, Function.update_apply] at hid
      split at hid
      · next hm => exact .inl ⟨hm, (Option.some.inj hid).symm⟩
      · exact .inr hid
  | bind name dest send =>
    rcases openampNsBindCb_nodes s.reg name dest send with
      ⟨node, hfind, heq⟩ | ⟨hnone, hnodes, -⟩
    · refine iff_of_true ?_ (short_of_found hs hsound hfind)
      refine namesKept_map hs hsound ht (fun n => ⟨rfl, rfl, rfl⟩)
        (f := id) ?_ fun m id hid => .inl hid
      simp only [RegCall.run, heq, List.map_id]
    · exact namesKept_cons hs hsound ht hnone hnodes
        fun m id hid => .inr hid
  | unregister name =>
    exact iff_of_true (namesKept_unregister hs hsound ht) trivial

/-- **The registry keeps its names** in a run of registrations, bindings
and unregistrations exactly when every name that is registered or bound
has at most 19 characters. -/
theorem names_kept_iff (calls : List RegCall) :
    Throughout RegStep .init calls NamesKept ↔
      EachStep RegStep .init calls fun _ c => c.Short := by
  apply throughout_iff_of_invariant (I := fun s => s.reg.Sound)
  · intro s c t hs hstep
    exact hstep.sound hs
  · intro s c t hsound hs hstep
    exact hstep.namesKept_iff hsound hs
  · constructor
    · exact List.nodup_nil
    · exact fun n hn => nomatch hn
    · exact fun n hn => nomatch hn
  · constructor
    · exact fun n hn => nomatch hn
    · exact List.nodup_nil
    · exact fun m id h => nomatch h

/-- A name of 21 characters. -/
def longName : List UInt8 := List.replicate 21 97

/-- Registered twice under it, there are two nodes of the same name, both
without a zero, and neither is found or removed by it. -/
theorem long_name_duplicates : ∃ s,
    Path RegStep .init [.register longName 1 1 .sent,
      .register longName 1 1 .sent] s ∧
    s.reg.nodes.map (·.id) = [2, 1] ∧
    s.reg.nodes.map AppNode.cName =
      [List.replicate 20 97, List.replicate 20 97] ∧
    openampFindAppNode s.reg.nodes longName = none ∧
    (openampAppNodeUnregister s.reg longName).1 = -1 ∧ ¬ NamesKept s := by
  refine ⟨_, .cons rfl (.cons rfl (.nil _)), rfl, by decide, by decide,
    by decide, fun h => ?_⟩
  exact absurd h.distinct (by decide)

end OpenAmp.Interface
