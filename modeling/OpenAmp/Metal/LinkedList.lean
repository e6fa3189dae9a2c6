import OpenAmp.Lib.DoublyLinked
import OpenAmp.Lib.Transition

/-!
# Intrusive lists

`libmetal/lib/list.h`: a list is a cycle through the `struct metal_list`s
of its head and its nodes, which lie in the structures that are listed.
The functions write the pointers of two neighbours and of the node that is
put between them or taken out; the head of an empty list is its own
neighbour on both sides.
-/

namespace OpenAmp.Metal

open OpenAmp.Lib

variable {ι : Type*}

/-- The two fields of every `struct metal_list`, by its address. -/
structure ListMem (ι : Type*) where
  next : ι → ι
  prev : ι → ι

section Code

variable [DecidableEq ι]

/-- `node->next = x`. -/
def ListMem.setNext (m : ListMem ι) (node x : ι) : ListMem ι :=
  { m with next := Function.update m.next node x }

/-- `node->prev = x`. -/
def ListMem.setPrev (m : ListMem ι) (node x : ι) : ListMem ι :=
  { m with prev := Function.update m.prev node x }

@[simp] theorem ListMem.setNext_next (m : ListMem ι) (node x : ι) :
    (m.setNext node x).next = Function.update m.next node x := rfl

@[simp] theorem ListMem.setNext_prev (m : ListMem ι) (node x : ι) :
    (m.setNext node x).prev = m.prev := rfl

@[simp] theorem ListMem.setPrev_next (m : ListMem ι) (node x : ι) :
    (m.setPrev node x).next = m.next := rfl

@[simp] theorem ListMem.setPrev_prev (m : ListMem ι) (node x : ι) :
    (m.setPrev node x).prev = Function.update m.prev node x := rfl

/-- `metal_list_init`. -/
def metalListInit (m : ListMem ι) (list : ι) : ListMem ι :=
  let m := m.setPrev list list
  m.setNext list list

/-- `metal_list_add_before`. -/
def metalListAddBefore (m : ListMem ι) (node newNode : ι) : ListMem ι :=
  let m := m.setPrev newNode (m.prev node)
  let m := m.setNext newNode node
  let m := m.setPrev (m.next newNode) newNode
  m.setNext (m.prev newNode) newNode

/-- `metal_list_add_after`. -/
def metalListAddAfter (m : ListMem ι) (node newNode : ι) : ListMem ι :=
  let m := m.setPrev newNode node
  let m := m.setNext newNode (m.next node)
  let m := m.setPrev (m.next newNode) newNode
  m.setNext (m.prev newNode) newNode

/-- `metal_list_add_head`. -/
def metalListAddHead (m : ListMem ι) (list node : ι) : ListMem ι :=
  metalListAddAfter m list node

/-- `metal_list_add_tail`. -/
def metalListAddTail (m : ListMem ι) (list node : ι) : ListMem ι :=
  metalListAddBefore m list node

/-- `metal_list_is_empty`. -/
def metalListIsEmpty (m : ListMem ι) (list : ι) : Bool :=
  m.next list = list

/-- `metal_list_del`. -/
def metalListDel (m : ListMem ι) (node : ι) : ListMem ι :=
  let m := m.setPrev (m.next node) (m.prev node)
  let m := m.setNext (m.prev node) (m.next node)
  let m := m.setPrev node node
  m.setNext node node

/-- `metal_list_first`. -/
def metalListFirst (m : ListMem ι) (list : ι) : Option ι :=
  if metalListIsEmpty m list then none else some (m.next list)

/-- The nodes `metal_list_for_each` comes to. -/
def metalListForEach (m : ListMem ι) (list : ι) (fuel : Nat) :
    Option (List ι) :=
  walk m.next list fuel (m.next list)

/-- The loop of `metal_list_find_node`. -/
def findNodeLoop (m : ListMem ι) (list node : ι) : Nat → ι → Option Bool
  | 0, _ => none
  | fuel + 1, n =>
    if n ≠ list then
      if n = node then some true else findNodeLoop m list node fuel (m.next n)
    else some false

/-- `metal_list_find_node`. -/
def metalListFindNode (m : ListMem ι) (list node : ι) (fuel : Nat) :
    Option Bool :=
  findNodeLoop m list node fuel (m.next list)

end Code

/-! ## The operations on cycles -/

/-- A cycle in memory. -/
abbrev ListMem.Holds (m : ListMem ι) (h : ι) (l : List ι) : Prop :=
  DoublyLinked m.next m.prev h l

/-- Only these cells have been written. -/
def ListMem.SameOff (m m' : ListMem ι) (cells : List ι) : Prop :=
  ∀ c ∉ cells, m'.next c = m.next c ∧ m'.prev c = m.prev c

section Cycles

variable {m m' : ListMem ι} {h n x a b : ι} {l l₁ l₂ cells : List ι}

theorem ListMem.Holds.frame (hd : m.Holds h l) (hoff : m.SameOff m' cells)
    (hl : ∀ c ∈ h :: l, c ∉ cells) : m'.Holds h l :=
  hd.congr (fun c hc => (hoff c (hl c hc)).1) fun c hc => (hoff c (hl c hc)).2

variable [DecidableEq ι]

theorem holds_metalListInit (m : ListMem ι) (n : ι) :
    (metalListInit m n).Holds n [] :=
  .nil (by simp [metalListInit]) (by simp [metalListInit])

theorem sameOff_metalListInit (m : ListMem ι) (n : ι) :
    m.SameOff (metalListInit m n) [n] := by
  intro c hc
  rw [List.mem_singleton] at hc
  simp [metalListInit, hc]

/-- The new node is put between two cells, whichever of them is named. -/
def linkBetween (m : ListMem ι) (a b n : ι) : ListMem ι where
  next := Function.update (Function.update m.next n b) a n
  prev := Function.update (Function.update m.prev n a) b n

theorem metalListAddBefore_eq (hprev : m.prev b = a) (hb : n ≠ b) :
    metalListAddBefore m b n = linkBetween m a b n := by
  simp [metalListAddBefore, linkBetween, ListMem.setNext, ListMem.setPrev,
    hprev, hb]

theorem metalListAddAfter_eq (hnext : m.next a = b) (hb : n ≠ b) :
    metalListAddAfter m a n = linkBetween m a b n := by
  simp [metalListAddAfter, linkBetween, ListMem.setNext, ListMem.setPrev,
    hnext, hb]

theorem sameOff_linkBetween (m : ListMem ι) (a b n : ι) :
    m.SameOff (linkBetween m a b n) [n, a, b] := by
  intro c hc
  simp only [List.mem_cons, List.not_mem_nil, or_false, not_or] at hc
  obtain ⟨hcn, hca, hcb⟩ := hc
  simp [linkBetween, hcn, hca, hcb]

/-- What an insertion into a list does: the list has one more node, and
nothing but its cells and the new node is written. -/
structure Inserted (m m' : ListMem ι) (h n : ι) (l₁ l₂ : List ι) : Prop where
  holds : m'.Holds h (l₁ ++ n :: l₂)
  same : m.SameOff m' (n :: h :: (l₁ ++ l₂))

theorem inserted_linkBetween {p q : List ι} (hd : m.Holds h (l₁ ++ l₂))
    (hn : n ∉ h :: (l₁ ++ l₂)) (ha : h :: l₁ = p ++ [a])
    (hb : l₂ ++ [h] = b :: q) :
    Inserted m (linkBetween m a b n) h n l₁ l₂ where
  holds := hd.insert ha hb hn
  same := by
    intro c hc
    obtain ⟨hca, hcb⟩ := DoublyLinked.ne_neighbours ha hb
      fun hin => hc (List.mem_cons_of_mem n hin)
    have hcn : c ≠ n := by
      rintro rfl
      exact hc List.mem_cons_self
    exact sameOff_linkBetween m a b n c (by simp [hcn, hca, hcb])

/-- Before the first of the nodes behind the place, or the head. -/
theorem inserted_metalListAddBefore (hd : m.Holds h (l₁ ++ l₂))
    (hn : n ∉ h :: (l₁ ++ l₂)) (hx : (l₂ ++ [h]).head? = some x) :
    Inserted m (metalListAddBefore m x n) h n l₁ l₂ := by
  obtain ⟨p, a, b, q, ha, hb⟩ := DoublyLinked.exists_neighbours h l₁ l₂
  obtain rfl : b = x := by simpa [hb] using hx
  obtain ⟨-, hprev⟩ := DoublyLinked.neighbours ha hb hd
  rw [metalListAddBefore_eq hprev (DoublyLinked.ne_neighbours ha hb hn).2]
  exact inserted_linkBetween hd hn ha hb

/-- After the last of the nodes before the place, or the head. -/
theorem inserted_metalListAddAfter (hd : m.Holds h (l₁ ++ l₂))
    (hn : n ∉ h :: (l₁ ++ l₂)) (hx : (h :: l₁).getLast? = some x) :
    Inserted m (metalListAddAfter m x n) h n l₁ l₂ := by
  obtain ⟨p, a, b, q, ha, hb⟩ := DoublyLinked.exists_neighbours h l₁ l₂
  obtain rfl : a = x := by simpa [ha] using hx
  obtain ⟨hnext, -⟩ := DoublyLinked.neighbours ha hb hd
  rw [metalListAddAfter_eq hnext (DoublyLinked.ne_neighbours ha hb hn).2]
  exact inserted_linkBetween hd hn ha hb

theorem metalListDel_eq (hprev : m.prev n = a) (hnext : m.next n = b)
    (hb : n ≠ b) :
    metalListDel m n =
      ⟨Function.update (Function.update m.next a b) n n,
        Function.update (Function.update m.prev b a) n n⟩ := by
  simp [metalListDel, ListMem.setNext, ListMem.setPrev, hprev, hnext, hb]

/-- A node that is on no list any more stays as it is. -/
theorem metalListDel_lone (hd : m.Holds n []) : metalListDel m n = m := by
  obtain ⟨hnext, hprev⟩ : Joined m.next m.prev n n := by simpa using hd.joined
  have hn : Function.update m.next n n = m.next :=
    Function.update_eq_self_iff.mpr hnext.symm
  have hp : Function.update m.prev n n = m.prev :=
    Function.update_eq_self_iff.mpr hprev.symm
  simp [metalListDel, ListMem.setNext, ListMem.setPrev, hprev, hnext, hn, hp]

/-- What a deletion does. -/
structure Deleted (m m' : ListMem ι) (h n : ι) (l₁ l₂ : List ι) : Prop where
  holds : m'.Holds h (l₁ ++ l₂)
  lone : m'.Holds n []
  same : m.SameOff m' (n :: h :: (l₁ ++ l₂))

theorem deleted_metalListDel (hd : m.Holds h (l₁ ++ n :: l₂)) :
    Deleted m (metalListDel m n) h n l₁ l₂ := by
  obtain ⟨p, a, b, q, ha, hb⟩ := DoublyLinked.exists_neighbours h l₁ l₂
  obtain ⟨hnext, hprev⟩ := DoublyLinked.neighbours_of ha hb hd
  have hn : n ∉ h :: (l₁ ++ l₂) := (List.nodup_cons.mp
    ((perm_cons_middle h n l₁ l₂).nodup_iff.mp hd.nodup)).1
  rw [metalListDel_eq hprev hnext (DoublyLinked.ne_neighbours ha hb hn).2]
  refine ⟨hd.remove ha hb, .nil (by simp) (by simp), fun c hc => ?_⟩
  obtain ⟨hcn, hc⟩ := not_or.mp (List.mem_cons.not.mp hc)
  obtain ⟨hca, hcb⟩ := DoublyLinked.ne_neighbours ha hb hc
  simp [hcn, hca, hcb]

end Cycles

/-! ## Any number of lists -/

/-- The operations of `list.h`. -/
inductive ListOp (ι : Type*) where
  | init (list : ι)
  | addHead (list node : ι)
  | addTail (list node : ι)
  | addBefore (node newNode : ι)
  | addAfter (node newNode : ι)
  | del (node : ι)

/-- The cells an operation is called with. -/
def ListOp.cells : ListOp ι → List ι
  | .init list => [list]
  | .addHead list node | .addTail list node => [list, node]
  | .addBefore node newNode | .addAfter node newNode => [node, newNode]
  | .del node => [node]

/-- What a program means by its cells: the nodes behind each head. A cell
that is initialised, or has been deleted, is the head of nothing. -/
abbrev Lists (ι : Type*) := ι → Option (List ι)

/-- A cell on no list, with nothing behind it. -/
structure Lists.Free (s : Lists ι) (n : ι) : Prop where
  alone : ∀ l, s n = some l → l = []
  off : ∀ h l, s h = some l → n ∉ l

/-- The memory holds the lists, and no cell is on two of them. -/
structure ListMem.Represents (m : ListMem ι) (s : Lists ι) : Prop where
  holds : ∀ h l, s h = some l → m.Holds h l
  apart : ∀ h k l l', h ≠ k → s h = some l → s k = some l' →
    (h :: l).Disjoint (k :: l')

section Lists

variable {m m' : ListMem ι} {s t : Lists ι} {op : ListOp ι} {h n : ι}
  {l l₁ l₂ : List ι}

/-- A free cell is in no list but its own. -/
theorem Lists.Free.not_mem (hn : s.Free n) (hh : s h = some l) (hne : n ≠ h) :
    n ∉ h :: l := by
  rw [List.mem_cons, not_or]
  exact ⟨hne, hn.off h l hh⟩

/-- A list with a cell that another one does not have is not that one. -/
theorem Lists.ne_of_not_mem {k c : ι} {l' : List ι} (hk : s k = some l')
    (hh : s h = some l) (hc : c ∈ k :: l') (hnot : c ∉ h :: l) : h ≠ k := by
  rintro rfl
  obtain rfl := Option.some.inj (hk.symm.trans hh)
  exact hnot hc

/-- The cells of another list are not those of an operation. -/
theorem ListMem.Represents.disjoint {k : ι} {l' : List ι} (hm : m.Represents s)
    (hh : s h = some l) (hk : s k = some l') (hne : k ≠ h) (hn : n ∉ k :: l') :
    (k :: l').Disjoint (n :: h :: l) :=
  List.disjoint_cons_right.mpr ⟨hn, hm.apart k h l' l hne hk hh⟩

/-- Lists that are made anew in cells that are written, beside lists that
have none of these cells. -/
theorem ListMem.Represents.change {cells : List ι} (new : List ι)
    (hm : m.Represents s)
    (hoff : m.SameOff m' cells)
    (ht : ∀ k l, t k = some l →
      (k ∈ new ∧ m'.Holds k l ∧ k :: l ⊆ cells) ∨
        (s k = some l ∧ (k :: l).Disjoint cells))
    (hnew : ∀ k ∈ new, ∀ k' ∈ new, k ≠ k' → ∀ l l', t k = some l →
      t k' = some l' → (k :: l).Disjoint (k' :: l')) :
    m'.Represents t where
  holds := by
    intro k l hk
    rcases ht k l hk with ⟨-, hholds, -⟩ | ⟨hs, hdis⟩
    · exact hholds
    · exact (hm.holds k l hs).frame hoff fun c hc => hdis hc
  apart := by
    intro k k' l l' hne hk hk'
    rcases ht k l hk with ⟨hin, -, hsub⟩ | ⟨hs, hdis⟩
    · rcases ht k' l' hk' with ⟨hin', -, -⟩ | ⟨-, hdis'⟩
      · exact hnew k hin k' hin' hne l l' hk hk'
      · exact List.disjoint_symm (List.disjoint_of_subset_right hsub hdis')
    · rcases ht k' l' hk' with ⟨-, -, hsub'⟩ | ⟨hs', -⟩
      · exact List.disjoint_of_subset_right hsub' hdis
      · exact hm.apart k k' l l' hne hs hs'

variable [DecidableEq ι]

/-- `metal_list_…` on memory. -/
def ListMem.exec (m : ListMem ι) : ListOp ι → ListMem ι
  | .init list => metalListInit m list
  | .addHead list node => metalListAddHead m list node
  | .addTail list node => metalListAddTail m list node
  | .addBefore node newNode => metalListAddBefore m node newNode
  | .addAfter node newNode => metalListAddAfter m node newNode
  | .del node => metalListDel m node

/-- The node is on the list of `h`, which is `l` now. -/
def Lists.link (s : Lists ι) (h n : ι) (l : List ι) : Lists ι :=
  Function.update (Function.update s n none) h (some l)

/-- The node is on no list, and that of `h` is `l` now. -/
def Lists.unlink (s : Lists ι) (h n : ι) (l : List ι) : Lists ι :=
  Function.update (Function.update s n (some [])) h (some l)

theorem Lists.link_self (s : Lists ι) (h n : ι) (l : List ι) :
    s.link h n l h = some l :=
  Function.update_self h _ _

theorem Lists.link_node (s : Lists ι) (l : List ι) (hne : n ≠ h) :
    s.link h n l n = none := by
  rw [Lists.link, Function.update_of_ne hne, Function.update_self]

theorem Lists.link_of_ne {k : ι} (s : Lists ι) (l : List ι) (hkh : k ≠ h)
    (hkn : k ≠ n) : s.link h n l k = s k := by
  rw [Lists.link, Function.update_of_ne hkh, Function.update_of_ne hkn]

theorem Lists.unlink_self (s : Lists ι) (h n : ι) (l : List ι) :
    s.unlink h n l h = some l :=
  Function.update_self h _ _

theorem Lists.unlink_node (s : Lists ι) (l : List ι) (hne : n ≠ h) :
    s.unlink h n l n = some [] := by
  rw [Lists.unlink, Function.update_of_ne hne, Function.update_self]

theorem Lists.unlink_of_ne {k : ι} (s : Lists ι) (l : List ι) (hkh : k ≠ h)
    (hkn : k ≠ n) : s.unlink h n l k = s k := by
  rw [Lists.unlink, Function.update_of_ne hkh, Function.update_of_ne hkn]

/-- What an operation is for, and when it may be called: a node is put on a
list while it is on none, behind or before a node or the head. -/
inductive ListStep (s : Lists ι) : ListOp ι → Lists ι → Prop where
  | init {n : ι} (hn : s.Free n) :
      ListStep s (.init n) (Function.update s n (some []))
  | addHead {h n : ι} {l : List ι} (hh : s h = some l) (hn : s.Free n)
      (hne : n ≠ h) : ListStep s (.addHead h n) (s.link h n (n :: l))
  | addTail {h n : ι} {l : List ι} (hh : s h = some l) (hn : s.Free n)
      (hne : n ≠ h) : ListStep s (.addTail h n) (s.link h n (l ++ [n]))
  | addBefore {h n x : ι} {l₁ l₂ : List ι} (hh : s h = some (l₁ ++ x :: l₂))
      (hn : s.Free n) (hne : n ≠ h) :
      ListStep s (.addBefore x n) (s.link h n (l₁ ++ n :: x :: l₂))
  | addBeforeHead {h n : ι} {l : List ι} (hh : s h = some l) (hn : s.Free n)
      (hne : n ≠ h) : ListStep s (.addBefore h n) (s.link h n (l ++ [n]))
  | addAfter {h n x : ι} {l₁ l₂ : List ι} (hh : s h = some (l₁ ++ x :: l₂))
      (hn : s.Free n) (hne : n ≠ h) :
      ListStep s (.addAfter x n) (s.link h n (l₁ ++ x :: n :: l₂))
  | addAfterHead {h n : ι} {l : List ι} (hh : s h = some l) (hn : s.Free n)
      (hne : n ≠ h) : ListStep s (.addAfter h n) (s.link h n (n :: l))
  | del {h n : ι} {l₁ l₂ : List ι} (hh : s h = some (l₁ ++ n :: l₂)) :
      ListStep s (.del n) (s.unlink h n (l₁ ++ l₂))
  | delAgain {n : ι} (hn : s n = some []) : ListStep s (.del n) s

theorem ListMem.Represents.init (hm : m.Represents s) (hn : s.Free n) :
    (metalListInit m n).Represents (Function.update s n (some [])) := by
  refine hm.change [n] (sameOff_metalListInit m n) ?_ ?_
  · intro k l hk
    by_cases hkn : k = n
    · subst hkn
      rw [Function.update_self, Option.some.injEq] at hk
      subst hk
      exact .inl ⟨List.mem_singleton_self k, holds_metalListInit m k, by simp⟩
    · rw [Function.update_of_ne hkn] at hk
      refine .inr ⟨hk, List.disjoint_singleton.mpr ?_⟩
      exact hn.not_mem hk (Ne.symm hkn)
  · intro k hk k' hk' hne
    rw [List.mem_singleton.mp hk, List.mem_singleton.mp hk'] at hne
    exact absurd rfl hne

theorem ListMem.Represents.link (hm : m.Represents s)
    (hh : s h = some (l₁ ++ l₂)) (hn : s.Free n)
    (hi : Inserted m m' h n l₁ l₂) :
    m'.Represents (s.link h n (l₁ ++ n :: l₂)) := by
  refine hm.change [h] hi.same ?_ ?_
  · intro k l hk
    by_cases hkh : k = h
    · subst hkh
      rw [Lists.link_self, Option.some.injEq] at hk
      subst hk
      refine .inl ⟨List.mem_singleton_self k, hi.holds, ?_⟩
      exact (perm_cons_middle k n l₁ l₂).subset
    · by_cases hkn : k = n
      · subst hkn
        rw [Lists.link_node s _ hkh] at hk
        cases hk
      · rw [Lists.link_of_ne s _ hkh hkn] at hk
        exact .inr ⟨hk, hm.disjoint hh hk hkh (hn.not_mem hk (Ne.symm hkn))⟩
  · intro k hk k' hk' hne
    rw [List.mem_singleton.mp hk, List.mem_singleton.mp hk'] at hne
    exact absurd rfl hne

theorem ListMem.Represents.unlink (hm : m.Represents s)
    (hh : s h = some (l₁ ++ n :: l₂)) (hd : Deleted m m' h n l₁ l₂) :
    m'.Represents (s.unlink h n (l₁ ++ l₂)) := by
  have hperm := perm_cons_middle h n l₁ l₂
  obtain ⟨hn, -⟩ := List.nodup_cons.mp
    (hperm.nodup_iff.mp (hm.holds h _ hh).nodup)
  have hnh : n ≠ h := fun heq => hn (heq ▸ List.mem_cons_self)
  have hh' := s.unlink_self h n (l₁ ++ l₂)
  have hn' := s.unlink_node (l₁ ++ l₂) hnh
  have hapart : (h :: (l₁ ++ l₂)).Disjoint [n] := List.disjoint_singleton.mpr hn
  refine hm.change [h, n] hd.same ?_ ?_
  · intro k l hk
    by_cases hkh : k = h
    · subst hkh
      obtain rfl := Option.some.inj (hh'.symm.trans hk)
      exact .inl ⟨by simp, hd.holds, List.subset_cons_self n _⟩
    · by_cases hkn : k = n
      · subst hkn
        obtain rfl := Option.some.inj (hn'.symm.trans hk)
        exact .inl ⟨by simp, hd.lone, by simp⟩
      · rw [Lists.unlink_of_ne s _ hkh hkn] at hk
        have hdis := hm.apart k h l _ hkh hk hh
        exact .inr ⟨hk, List.disjoint_of_subset_right hperm.symm.subset hdis⟩
  · intro k hk k' hk' hne l l' hl hl'
    simp only [List.mem_cons, List.not_mem_nil, or_false] at hk hk'
    rcases hk with rfl | rfl <;> rcases hk' with rfl | rfl
    · exact absurd rfl hne
    · obtain rfl := Option.some.inj (hh'.symm.trans hl)
      obtain rfl := Option.some.inj (hn'.symm.trans hl')
      exact hapart
    · obtain rfl := Option.some.inj (hn'.symm.trans hl)
      obtain rfl := Option.some.inj (hh'.symm.trans hl')
      exact List.disjoint_symm hapart
    · exact absurd rfl hne

/-- What an operation does to the memory and to what is meant by it. -/
inductive ListChange (m m' : ListMem ι) (s t : Lists ι) (cells : List ι) :
    Prop where
  | made {n : ι} (hn : s.Free n) (hcells : cells = [n])
      (hm' : m' = metalListInit m n) (ht : t = Function.update s n (some []))
  | linked {h n x : ι} {l₁ l₂ : List ι} (hh : s h = some (l₁ ++ l₂))
      (hn : s.Free n) (hx : x ∈ h :: (l₁ ++ l₂)) (hcells : cells = [x, n])
      (hm' : Inserted m m' h n l₁ l₂) (ht : t = s.link h n (l₁ ++ n :: l₂))
  | unlinked {h n : ι} {l₁ l₂ : List ι} (hh : s h = some (l₁ ++ n :: l₂))
      (hcells : cells = [n]) (hm' : Deleted m m' h n l₁ l₂)
      (ht : t = s.unlink h n (l₁ ++ l₂))
  | kept (hm' : m' = m) (ht : t = s)

theorem ListMem.Represents.addBefore {x : ι} (hm : m.Represents s)
    (hh : s h = some (l₁ ++ l₂)) (hn : s.Free n) (hne : n ≠ h)
    (hx : (l₂ ++ [h]).head? = some x) :
    ListChange m (metalListAddBefore m x n) s (s.link h n (l₁ ++ n :: l₂))
      [x, n] := by
  have hin : x ∈ l₂ ++ [h] := List.mem_of_mem_head? hx
  refine .linked hh hn ?_ rfl (inserted_metalListAddBefore (hm.holds h _ hh)
    (hn.not_mem hh hne) hx) rfl
  simp only [List.mem_append, List.mem_cons, List.not_mem_nil] at hin ⊢
  tauto

theorem ListMem.Represents.addAfter {x : ι} (hm : m.Represents s)
    (hh : s h = some (l₁ ++ l₂)) (hn : s.Free n) (hne : n ≠ h)
    (hx : (h :: l₁).getLast? = some x) :
    ListChange m (metalListAddAfter m x n) s (s.link h n (l₁ ++ n :: l₂))
      [x, n] :=
  .linked hh hn (List.mem_append_left l₂ (List.mem_of_getLast? hx)) rfl
    (inserted_metalListAddAfter (hm.holds h _ hh) (hn.not_mem hh hne) hx) rfl

theorem ListStep.change (hst : ListStep s op t) (hm : m.Represents s) :
    ListChange m (m.exec op) s t op.cells := by
  cases hst with
  | init hn => exact .made hn rfl rfl rfl
  | @addHead h n l hh hn hne =>
    exact hm.addAfter (List.nil_append l ▸ hh) hn hne rfl
  | @addTail h n l hh hn hne =>
    exact hm.addBefore ((List.append_nil l).symm ▸ hh) hn hne rfl
  | addBefore hh hn hne => exact hm.addBefore hh hn hne rfl
  | @addBeforeHead h n l hh hn hne =>
    exact hm.addBefore ((List.append_nil l).symm ▸ hh) hn hne rfl
  | @addAfter h n x l₁ l₂ hh hn hne =>
    have hh' : s h = some (l₁ ++ [x] ++ l₂) := by
      rw [hh, List.append_assoc, List.singleton_append]
    have hlast : (h :: (l₁ ++ [x])).getLast? = some x := by
      rw [← List.cons_append, List.getLast?_concat]
    have hchange := hm.addAfter hh' hn hne hlast
    rw [List.append_assoc] at hchange
    exact hchange
  | @addAfterHead h n l hh hn hne =>
    exact hm.addAfter (List.nil_append l ▸ hh) hn hne rfl
  | del hh =>
    exact .unlinked hh rfl (deleted_metalListDel (hm.holds _ _ hh)) rfl
  | delAgain hn => exact .kept (metalListDel_lone (hm.holds _ _ hn)) rfl

theorem ListChange.represents {cells : List ι} (hc : ListChange m m' s t cells)
    (hm : m.Represents s) : m'.Represents t := by
  cases hc with
  | made hn hcells hm' ht =>
    rw [hm', ht]
    exact hm.init hn
  | linked hh hn hx hcells hm' ht =>
    rw [ht]
    exact hm.link hh hn hm'
  | unlinked hh hcells hm' ht =>
    rw [ht]
    exact hm.unlink hh hm'
  | kept hm' ht =>
    rw [hm', ht]
    exact hm

/-- **A list with none of the cells that are named** is left alone. -/
theorem ListChange.other {cells : List ι} (hc : ListChange m m' s t cells)
    (hm : m.Represents s) (hh : s h = some l) (hoff : ∀ c ∈ cells, c ∉ h :: l) :
    t h = some l ∧ ∀ c ∈ h :: l, m'.next c = m.next c ∧ m'.prev c = m.prev c := by
  cases hc with
  | @made n hn hcells hm' ht =>
    subst hcells hm' ht
    have hnot : n ∉ h :: l := hoff n List.mem_cons_self
    have hne : h ≠ n := (List.ne_of_not_mem_cons hnot).symm
    refine ⟨(Function.update_of_ne hne _ _).trans hh, fun c hin => ?_⟩
    refine sameOff_metalListInit m n c fun hcn => hnot ?_
    rwa [← List.mem_singleton.mp hcn]
  | @linked k n x l₁ l₂ hk hn hx hcells hm' ht =>
    subst hcells ht
    have hnot : n ∉ h :: l := hoff n (by simp)
    have hne : h ≠ n := (List.ne_of_not_mem_cons hnot).symm
    have hhk : h ≠ k := Lists.ne_of_not_mem hk hh hx (hoff x (by simp))
    refine ⟨?_, fun c hin => hm'.same c ?_⟩
    · rw [Lists.link_of_ne s _ hhk hne, hh]
    · exact hm.disjoint hk hh hhk hnot hin
  | @unlinked k n l₁ l₂ hk hcells hm' ht =>
    subst hcells ht
    have hnot : n ∉ h :: l := hoff n (by simp)
    have hne : h ≠ n := (List.ne_of_not_mem_cons hnot).symm
    have hhk : h ≠ k := Lists.ne_of_not_mem hk hh (by simp) hnot
    refine ⟨?_, fun c hin => hm'.same c fun hcell => ?_⟩
    · rw [Lists.unlink_of_ne s _ hhk hne, hh]
    · exact hm.apart h k l _ hhk hh hk hin
        ((perm_cons_middle k n l₁ l₂).symm.subset hcell)
  | kept hm' ht =>
    subst hm' ht
    exact ⟨hh, fun _ _ => ⟨rfl, rfl⟩⟩

theorem findNodeLoop_settles {x : ι} (hl : Linked m.next h x l) (hh : h ∉ l)
    (n : ι) :
    Settles (fun fuel => findNodeLoop m h n fuel x) (· = decide (n ∈ l)) := by
  induction l generalizing x with
  | nil =>
    obtain rfl := (linked_nil _ _ _).mp hl
    refine .of_eq (a := false) (fun fuel => ?_) (by simp)
    rw [findNodeLoop, if_neg (not_not.mpr rfl)]
  | cons y l ih =>
    obtain ⟨rfl, hrest⟩ := hl
    obtain ⟨hne, hh⟩ := not_or.mp (List.mem_cons.not.mp hh)
    by_cases hxn : x = n
    · refine .of_eq (a := true) (fun fuel => ?_) (by simp [hxn])
      rw [findNodeLoop, if_pos (Ne.symm hne), if_pos hxn]
    · refine .step (fun fuel => ?_) ((ih hrest hh).mono fun r hr => ?_)
      · rw [findNodeLoop, if_pos (Ne.symm hne), if_neg hxn]
      · simp [hr, Ne.symm hxn]

/-- **What is read of a list** is its sequence: along `next` from the head,
along `prev` the other way round, and by the functions that look at it. -/
structure ListMem.ReadsAs (m : ListMem ι) (h : ι) (l : List ι) : Prop where
  next : Settles (metalListForEach m h) (· = l)
  prev : Settles (fun fuel => walk m.prev h fuel (m.prev h)) (· = l.reverse)
  isEmpty : metalListIsEmpty m h = l.isEmpty
  first : metalListFirst m h = l.head?
  findNode : ∀ n, Settles (metalListFindNode m h n) (· = decide (n ∈ l))

theorem ListMem.Holds.isEmpty (hd : m.Holds h l) :
    metalListIsEmpty m h = l.isEmpty := by
  have hl := hd.linked
  have hh := (List.nodup_cons.mp hd.nodup).1
  cases l with
  | nil => simpa [metalListIsEmpty] using hl
  | cons x l =>
    obtain ⟨hx, -⟩ := hl
    have hne : x ≠ h := fun heq => hh (heq ▸ List.mem_cons_self)
    simp [metalListIsEmpty, hx, hne]

theorem ListMem.Holds.first (hd : m.Holds h l) :
    metalListFirst m h = l.head? := by
  rw [metalListFirst, ListMem.Holds.isEmpty hd]
  cases l with
  | nil => rfl
  | cons x l => exact congrArg some hd.linked.1

theorem ListMem.Holds.readsAs (hd : m.Holds h l) : m.ReadsAs h l where
  next := hd.walk_next
  prev := hd.walk_prev
  isEmpty := ListMem.Holds.isEmpty hd
  first := ListMem.Holds.first hd
  findNode := fun n =>
    findNodeLoop_settles hd.linked (List.nodup_cons.mp hd.nodup).1 n

theorem represents_run {ops : List (ListOp ι)}
    (hm : m.Represents s) (hrun : Path ListStep s ops t) :
    (ops.foldl ListMem.exec m).Represents t := by
  induction hrun generalizing m with
  | nil => exact hm
  | cons hst _ ih => exact ih ((hst.change hm).represents hm)

/-- **The lists in memory are the sequences meant**, after any operations
on any number of lists, and an operation leaves the other lists alone. -/
theorem lists_refine_sequences (m : ListMem ι) {ops : List (ListOp ι)}
    (hrun : Path ListStep (fun _ => none) ops s) :
    (∀ h l, s h = some l → (ops.foldl ListMem.exec m).ReadsAs h l) ∧
      ∀ op t, ListStep s op t → ∀ h l, s h = some l →
        (∀ c ∈ op.cells, c ∉ h :: l) → t h = some l ∧ ∀ c ∈ h :: l,
          ((ops.foldl ListMem.exec m).exec op).next c =
            (ops.foldl ListMem.exec m).next c ∧
          ((ops.foldl ListMem.exec m).exec op).prev c =
            (ops.foldl ListMem.exec m).prev c := by
  have hstart : m.Represents fun _ => none := ⟨nofun, nofun⟩
  have hm := represents_run hstart hrun
  exact ⟨fun h l hh => (hm.holds h l hh).readsAs, fun op t hst h l hh hoff =>
    (hst.change hm).other hm hh hoff⟩

/-- A head and a node, in memory that held anything before. -/
theorem lists_refine_sequences_one :
    (List.foldl ListMem.exec (⟨fun _ => 7, fun _ => 8⟩ : ListMem Nat)
      [.init 0, .addTail 0 1]).ReadsAs 0 [1] := by
  have hfree : Lists.Free (Function.update (fun _ => none) 0 (some [])) 1 := by
    constructor
    · exact fun l hl => by cases hl
    · intro h l hl
      rcases eq_or_ne h 0 with rfl | hne
      · cases hl
        exact List.not_mem_nil
      · rw [Function.update_of_ne hne] at hl
        cases hl
  have hrun : Path ListStep (fun _ => none) [.init 0, .addTail 0 1] _ :=
    .cons (.init ⟨nofun, nofun⟩) <|
    .cons (.addTail (l := []) rfl hfree (by decide)) <| .nil _
  exact (lists_refine_sequences ⟨fun _ => 7, fun _ => 8⟩ hrun).1 0 [1] rfl

end Lists

end OpenAmp.Metal
