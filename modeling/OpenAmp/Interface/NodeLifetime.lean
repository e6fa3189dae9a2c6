import OpenAmp.Interface.Registry
import OpenAmp.Rpmsg.Lifetime

/-!
# The end of a node

`openamp_app_node_unregister` takes a node off the list, has
`rpmsg_destroy_ept` take its endpoint off the list of the device, and frees
the memory of both. Other threads receive messages meanwhile, and the call
may come from a callback of the endpoint itself; so may the call of
`rpmsg_create_ept` for a node that was just put on the list still be to
come.
-/

namespace OpenAmp.Interface

open OpenAmp.Lib OpenAmp.Rpmsg

/-! ## Nodes and threads -/

/-- The device with its threads, the list of nodes, the nodes allocated so
far, and what was done with the endpoint of each. -/
structure NodeSystem where
  sys : EptSystem
  nodes : List AppNode
  added : List Nat
  story : Nat → Story

/-- A node is put on the list or taken off, or something happens to
endpoints. -/
inductive AppEvent where
  | link (id : Nat)
  | unlink (name : List UInt8)
  | ept (l : EptLabel)

def AppEvent.actOn (o : Nat) : AppEvent → Counted.Act
  | .ept l => l.actOn o
  | _ => .idle

/-- The parts of `openamp_app_node_register`, `openamp_ns_bind_cb` and
`openamp_app_node_unregister`, and everything else that happens to
endpoints. `rpmsg_create_ept` is called once for a node; the endpoint is
destroyed once, after the node was taken off the list, and freed then. -/
inductive AppStep (nentries : UInt16) (ns : Nat) :
    NodeSystem → AppEvent → NodeSystem → Prop where
  /-- A cleared node in memory that is not in use. -/
  | link {s : NodeSystem} (id : Nat) (name : List UInt8) (dest : UInt32)
      (cb unbindCb : Nat) (hfind : openampFindAppNode s.nodes name = none)
      (hnew : id ∉ s.added) (hlist : id ∉ s.sys.rdev.endpoints)
      (huse : ∀ task ∈ s.sys.rx, ¬ task.Uses id) :
      AppStep nentries ns s (.link id)
        { sys := { s.sys with
            rdev := s.sys.rdev.modify id fun _ => clearedEpt }
          nodes := newNode id name dest cb unbindCb :: s.nodes
          added := id :: s.added
          story := Function.update s.story id .start }
  | unlink {s : NodeSystem} (name : List UInt8) {node : AppNode}
      (hfind : openampFindAppNode s.nodes name = some node) :
      AppStep nentries ns s (.unlink name)
        { s with nodes := s.nodes.filter (·.id ≠ node.id) }
  | node {s : NodeSystem} {l : EptLabel} {sys : EptSystem} {y : Story}
      (hstep : EptStep nentries ns s.sys l sys) (hadded : l.ept ∈ s.added)
      (hnext : (s.story l.ept).next (s.sys.view l.ept) l.act = some y)
      (hgone : l.act = .retire → ∀ node ∈ s.nodes, node.id ≠ l.ept) :
      AppStep nentries ns s (.ept l)
        { s with sys := sys, story := Function.update s.story l.ept y }
  | other {s : NodeSystem} {l : EptLabel} {sys : EptSystem}
      (hstep : EptStep nentries ns s.sys l sys) (hother : l.ept ∉ s.added) :
      AppStep nentries ns s (.ept l) { s with sys := sys }

def NodeSystem.tracked (s : NodeSystem) (o : Nat) : Tracked :=
  ⟨s.sys.view o, s.story o⟩

/-- A freed node had an endpoint with counter zero; it is on no list, and
no thread works with it. -/
def NodesFreedUnused (s : NodeSystem) : Prop :=
  ∀ o ∈ s.added, (s.tracked o).FreedUnused

/-- The event frees no node that is in use, and creates no endpoint in a
freed one. -/
def FreeAllowed (s : NodeSystem) (e : AppEvent) : Prop :=
  ∀ o ∈ s.added, (s.tracked o).FreeOk (e.actOn o)

structure NodeInv (nentries : UInt16) (s : NodeSystem) : Prop where
  regulated : Regulated nentries s.sys
  ledger : ∀ o ∈ s.added, (s.tracked o).Ledger (2 * nentries.toNat)

section Steps

variable {nentries : UInt16} {ns o : Nat} {s t : NodeSystem} {e : AppEvent}

theorem view_cleared {sys : EptSystem} {id : Nat} (hne : o ≠ id) :
    { sys with rdev := sys.rdev.modify id fun _ => clearedEpt }.view o =
      sys.view o := by
  simp only [EptSystem.view, RpmsgDevice.modify_of_ne _ _ hne]
  rfl

/-- Each node moves as a counted object with an owner. -/
theorem AppStep.tracked (hstep : AppStep nentries ns s e t)
    (hroom : s.sys.rx.length ≤ nentries.toNat) (ho : o ∈ s.added) :
    (s.tracked o).Step (2 * nentries.toNat) (e.actOn o) (t.tracked o) := by
  cases hstep with
  | link id name dest cb unbindCb hfind hnew hlist huse =>
    have hne : o ≠ id := fun heq => hnew (heq ▸ ho)
    refine ⟨view_cleared hne, ?_⟩
    show some (s.story o) = some (Function.update s.story id .start o)
    rw [Function.update_of_ne hne]
  | unlink name hfind => exact ⟨rfl, rfl⟩
  | @node l sys y hstep hadded hnext hgone =>
    refine ⟨hstep.moves hroom o, ?_⟩
    show (s.story o).next (s.sys.view o) (l.actOn o) =
      some (Function.update s.story l.ept y o)
    by_cases heq : l.ept = o
    · subst heq
      rw [Function.update_self, EptLabel.actOn, if_pos rfl]
      exact hnext
    · rw [Function.update_of_ne (Ne.symm heq), EptLabel.actOn, if_neg heq]
      rfl
  | @other l sys hstep hother =>
    refine ⟨hstep.moves hroom o, ?_⟩
    have hne : l.ept ≠ o := fun heq => hother (heq ▸ ho)
    show (s.story o).next (s.sys.view o) (l.actOn o) = some (s.story o)
    rw [EptLabel.actOn, if_neg hne]
    rfl

theorem peekedBy_of_unused {rx : List RxTask}
    (h : ∀ task ∈ rx, ¬ task.Uses o) : peekedBy o rx = 0 := by
  induction rx with
  | nil => rfl
  | cons task rx ih =>
    have hhead := h task List.mem_cons_self
    have htail := ih fun task htask => h task (List.mem_cons_of_mem _ htask)
    rw [peekedBy_cons, htail]
    obtain ⟨ept, phase⟩ := task
    cases phase with
    | naming work =>
      have hwork : work.ept ≠ o := fun heq => hhead (.inr ⟨work, rfl, heq⟩)
      simp [TaskPhase.peeks, hwork]
    | _ => rfl

/-- The nodes allocated so far, and one more. -/
theorem AppStep.added_cases (hstep : AppStep nentries ns s e t) :
    (∀ o ∈ s.added, o ∈ t.added) ∧
      ∀ o ∈ t.added, o ∈ s.added ∨ (t.tracked o).Fresh := by
  cases hstep with
  | link id name dest cb unbindCb hfind hnew hlist huse =>
    refine ⟨fun o ho => List.mem_cons_of_mem _ ho, fun o ho => ?_⟩
    rcases List.mem_cons.mp ho with rfl | ho
    · refine .inr ⟨?_, ?_, ?_, ?_, ?_, ?_⟩
      · exact Function.update_self ..
      · simp [NodeSystem.tracked, EptSystem.view, clearedEpt]
      · simp [NodeSystem.tracked, EptSystem.view, clearedEpt]
      · exact List.count_eq_zero.mpr hlist
      · exact heldBy_of_unused huse
      · exact peekedBy_of_unused huse
    · exact .inl ho
  | unlink name hfind => exact ⟨fun _ h => h, fun _ h => .inl h⟩
  | node hstep hadded hnext hgone => exact ⟨fun _ h => h, fun _ h => .inl h⟩
  | other hstep hother => exact ⟨fun _ h => h, fun _ h => .inl h⟩

theorem AppStep.regulated (hstep : AppStep nentries ns s e t)
    (h : Regulated nentries s.sys) : Regulated nentries t.sys := by
  cases hstep with
  | link id name dest cb unbindCb hfind hnew hlist huse =>
    refine ⟨h.room, fun task htask work hwork => ?_⟩
    have hne : work.ept ≠ id := fun heq =>
      huse task htask (.inr ⟨work, hwork, heq⟩)
    show work.counted =
      ((s.sys.rdev.modify id fun _ => clearedEpt).epts work.ept).releaseCb
    rw [RpmsgDevice.modify_of_ne _ _ hne]
    exact h.named task htask work hwork
  | unlink name hfind => exact h
  | node hstep hadded hnext hgone => exact h.step hstep
  | other hstep hother => exact h.step hstep

theorem NodeInv.step (h : NodeInv nentries s)
    (hstep : AppStep nentries ns s e t) : NodeInv nentries t where
  regulated := hstep.regulated h.regulated
  ledger o ho := by
    rcases hstep.added_cases.2 o ho with hold | hfresh
    · exact (h.ledger o hold).step (hstep.tracked h.regulated.room hold)
    · exact hfresh.ledger

/-- An event keeps the freed nodes unused exactly if it may happen. -/
theorem AppStep.freedUnused_iff (hstep : AppStep nentries ns s e t)
    (h : NodeInv nentries s) (hunused : NodesFreedUnused s) :
    NodesFreedUnused t ↔ FreeAllowed s e := by
  have hnode : ∀ o ∈ s.added,
      ((t.tracked o).FreedUnused ↔ (s.tracked o).FreeOk (e.actOn o)) :=
    fun o ho => (h.ledger o ho).freedUnused_iff (hunused o ho)
      (hstep.tracked h.regulated.room ho)
  constructor
  · intro hafter o ho
    exact (hnode o ho).mp (hafter o (hstep.added_cases.1 o ho))
  · intro hallowed o ho
    rcases hstep.added_cases.2 o ho with hold | hfresh
    · exact (hnode o hold).mpr (hallowed o hold)
    · exact hfresh.freedUnused

end Steps

/-! ## Freed nodes -/

section Freed

variable {nentries : UInt16} {ns : Nat}

/-- The system before any node is registered. -/
structure NodeSystem.Initial (nentries : UInt16) (s : NodeSystem) : Prop where
  regulated : Regulated nentries s.sys
  added : s.added = []

theorem NodeSystem.Initial.inv {s : NodeSystem} (h : s.Initial nentries) :
    NodeInv nentries s where
  regulated := h.regulated
  ledger := by
    rw [h.added]
    exact nofun

theorem NodeSystem.Initial.unused {s : NodeSystem}
    (h : s.Initial nentries) : NodesFreedUnused s := by
  intro o ho
  rw [h.added] at ho
  cases ho

/-- The system after `rpmsg_init_vdev`. -/
def NodeSystem.init : NodeSystem where
  sys := ⟨.init true nsEpt fun _ => false, [], [], [], [], []⟩
  nodes := []
  added := []
  story := fun _ => .start

theorem NodeSystem.init_initial : NodeSystem.init.Initial 2 :=
  ⟨⟨Nat.zero_le _, nofun⟩, rfl⟩

/-- A run in which every creation is refused. -/
theorem allowed_of_refused {s₀ : NodeSystem} (h0 : s₀.Initial nentries)
    (tr : List AppEvent) (htr : ∀ e ∈ tr, ∀ o, e.actOn o ≠ .publish) :
    EachStep (AppStep nentries ns) s₀ tr FreeAllowed := by
  intro done e rest s t hsplit hpath hstep o ho
  have hinv : NodeInv nentries s ∧
      ∀ o ∈ s.added, (s.story o).made = .before := by
    refine hpath.invariant (P := fun s => NodeInv nentries s ∧
      ∀ o ∈ s.added, (s.story o).made = .before)
      (E := fun e => ∀ o, e.actOn o ≠ .publish) ?_ ?_ ⟨h0.inv, ?_⟩
    · rintro s e t he ⟨hinv, hmade⟩ hstep
      refine ⟨hinv.step hstep, fun o ho => ?_⟩
      rcases hstep.added_cases.2 o ho with hold | hfresh
      · exact Story.next_before (hstep.tracked hinv.regulated.room hold).2
          (hmade o hold) (he o)
      · have hstory : t.story o = .start := hfresh.story
        rw [hstory]
        rfl
    · intro e he
      exact htr e (by rw [hsplit]; exact List.mem_append_left _ he)
    · rw [h0.added]
      exact nofun
  refine (hinv.1.ledger o ho).freeOk_of_before (hinv.2 o ho) ?_
  exact htr e (by simp [hsplit]) o

end Freed

end OpenAmp.Interface
