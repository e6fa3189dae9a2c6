import Mathlib.Data.List.Pairwise
import OpenAmp.Lib.Ring
import OpenAmp.Rpmsg.Buffer

/-!
# The list of reclaimed buffers

`metal_list_add_tail` and `metal_list_del` on nodes that lie in shared
memory. A released buffer's first eighteen bytes are its node and its
index, so two nodes disturb each other unless their buffers have room
for that much: `NodesApart` is this condition, `Reclaimed` what the list
holds, and `TxMem.push` and `TxMem.pop` the two lemmas the transmission
code is verified with.
-/

namespace OpenAmp.Rpmsg

open OpenAmp.Lib OpenAmp.Metal

/-- The bytes of `struct vbuff_reclaimer_t` in use. -/
def RECLAIMER_SIZE : Nat := 18

/-- The list head is private, and every other node of `S` has its bytes
to itself. -/
def NodesApart (m : TxMem) (S : List UInt64) : Prop :=
  ∀ p ∈ S, ∀ q ∈ S, p ≠ q → p ≠ m.reclaimer → q ≠ m.reclaimer →
    shmOff m.io p + RECLAIMER_SIZE ≤ shmOff m.io q ∨
      shmOff m.io q + RECLAIMER_SIZE ≤ shmOff m.io p

/-- No byte of a list node in `S` is among the `k` bytes at `a`. -/
def NodesOff (m : TxMem) (S : List UInt64) (a k : Nat) : Prop :=
  ∀ p ∈ S, p ≠ m.reclaimer →
    shmOff m.io p + 16 ≤ a ∨ a + k ≤ shmOff m.io p

section Fields

variable {m : TxMem} {S : List UInt64} {p q v : UInt64} {a k : Nat}

theorem loadLE_storeLE64 (mem : Mem) (a : Nat) (v : UInt64) :
    UInt64.ofNat (loadLE (storeLE mem a 8 v.toNat) a 8) = v := by
  rw [loadLE_storeLE _ _ _ _ v.toNat_lt, UInt64.ofNat_toNat]

@[simp] theorem setNext_io (m : TxMem) (p v : UInt64) :
    (m.setNext p v).io = m.io := by
  unfold TxMem.setNext; split <;> rfl

@[simp] theorem setNext_reclaimer (m : TxMem) (p v : UInt64) :
    (m.setNext p v).reclaimer = m.reclaimer := by
  unfold TxMem.setNext; split <;> rfl

@[simp] theorem setPrev_io (m : TxMem) (p v : UInt64) :
    (m.setPrev p v).io = m.io := by
  unfold TxMem.setPrev; split <;> rfl

@[simp] theorem setPrev_reclaimer (m : TxMem) (p v : UInt64) :
    (m.setPrev p v).reclaimer = m.reclaimer := by
  unfold TxMem.setPrev; split <;> rfl

@[simp] theorem nodesApart_setNext :
    NodesApart (m.setNext p v) S ↔ NodesApart m S := by
  simp [NodesApart]

@[simp] theorem nodesApart_setPrev :
    NodesApart (m.setPrev p v) S ↔ NodesApart m S := by
  simp [NodesApart]

/-- `node->next = v` writes inside the node. -/
theorem agree_setNext (h : p ≠ m.reclaimer →
    shmOff m.io p + 8 ≤ a ∨ a + k ≤ shmOff m.io p) :
    Agree m.shm (m.setNext p v).shm a k := by
  unfold TxMem.setNext
  split
  · exact fun _ _ _ => rfl
  · next hp =>
    have := h hp
    exact agree_storeLE (by omega)

/-- `node->prev = v` writes inside the node. -/
theorem agree_setPrev (h : p ≠ m.reclaimer →
    shmOff m.io p + 16 ≤ a ∨ a + k ≤ shmOff m.io p + 8) :
    Agree m.shm (m.setPrev p v).shm a k := by
  unfold TxMem.setPrev
  split
  · exact fun _ _ _ => rfl
  · next hp =>
    have := h hp
    exact agree_storeLE (by omega)

theorem next_setNext (h : NodesApart m S) (hp : p ∈ S) (hq : q ∈ S) :
    (m.setNext p v).next q = if q = p then v else m.next q := by
  by_cases hqp : q = p
  · subst hqp
    rw [if_pos rfl]
    unfold TxMem.next TxMem.setNext
    by_cases hr : q = m.reclaimer
    · simp [hr]
    · simp [hr, loadLE_storeLE64]
  · rw [if_neg hqp]
    unfold TxMem.next
    rw [setNext_reclaimer, setNext_io]
    by_cases hr : q = m.reclaimer
    · -- the head's pointer is no shared byte
      have hpr : p ≠ m.reclaimer := fun h => hqp (hr.trans h.symm)
      simp [hr, TxMem.setNext, hpr]
    · rw [if_neg hr, if_neg hr]
      refine congrArg UInt64.ofNat (loadLE_congr (agree_setNext fun hpr => ?_))
      have := h p hp q hq (fun h => hqp h.symm) hpr hr
      simp only [RECLAIMER_SIZE] at this
      omega

theorem prev_setNext (h : NodesApart m S) (hp : p ∈ S) (hq : q ∈ S) :
    (m.setNext p v).prev q = m.prev q := by
  unfold TxMem.prev
  rw [setNext_reclaimer, setNext_io]
  by_cases hr : q = m.reclaimer
  · rw [if_pos hr, if_pos hr]
    unfold TxMem.setNext
    split <;> rfl
  · rw [if_neg hr, if_neg hr]
    refine congrArg UInt64.ofNat (loadLE_congr (agree_setNext fun hpr => ?_))
    by_cases hqp : p = q
    · subst hqp; omega
    · have := h p hp q hq hqp hpr hr
      simp only [RECLAIMER_SIZE] at this
      omega

theorem prev_setPrev (h : NodesApart m S) (hp : p ∈ S) (hq : q ∈ S) :
    (m.setPrev p v).prev q = if q = p then v else m.prev q := by
  by_cases hqp : q = p
  · subst hqp
    rw [if_pos rfl]
    unfold TxMem.prev TxMem.setPrev
    by_cases hr : q = m.reclaimer
    · simp [hr]
    · simp [hr, loadLE_storeLE64]
  · rw [if_neg hqp]
    unfold TxMem.prev
    rw [setPrev_reclaimer, setPrev_io]
    by_cases hr : q = m.reclaimer
    · have hpr : p ≠ m.reclaimer := fun h => hqp (hr.trans h.symm)
      simp [hr, TxMem.setPrev, hpr]
    · rw [if_neg hr, if_neg hr]
      refine congrArg UInt64.ofNat (loadLE_congr (agree_setPrev fun hpr => ?_))
      have := h p hp q hq (fun h => hqp h.symm) hpr hr
      simp only [RECLAIMER_SIZE] at this
      omega

theorem next_setPrev (h : NodesApart m S) (hp : p ∈ S) (hq : q ∈ S) :
    (m.setPrev p v).next q = m.next q := by
  unfold TxMem.next
  rw [setPrev_reclaimer, setPrev_io]
  by_cases hr : q = m.reclaimer
  · rw [if_pos hr, if_pos hr]
    unfold TxMem.setPrev
    split <;> rfl
  · rw [if_neg hr, if_neg hr]
    refine congrArg UInt64.ofNat (loadLE_congr (agree_setPrev fun hpr => ?_))
    by_cases hqp : p = q
    · subst hqp; omega
    · have := h p hp q hq hqp hpr hr
      simp only [RECLAIMER_SIZE] at this
      omega

theorem NodesOff.setNext (h : NodesOff m S a k) (hp : p ∈ S) :
    Agree m.shm (m.setNext p v).shm a k := by
  refine agree_setNext fun hpr => ?_
  have := h p hp hpr
  omega

theorem NodesOff.setPrev (h : NodesOff m S a k) (hp : p ∈ S) :
    Agree m.shm (m.setPrev p v).shm a k := by
  refine agree_setPrev fun hpr => ?_
  have := h p hp hpr
  omega

end Fields

@[simp] theorem nodesOff_setNext {m : TxMem} {S : List UInt64}
    {p v : UInt64} {a k : Nat} :
    NodesOff (m.setNext p v) S a k ↔ NodesOff m S a k := by
  simp [NodesOff]

@[simp] theorem nodesOff_setPrev {m : TxMem} {S : List UInt64}
    {p v : UInt64} {a k : Nat} :
    NodesOff (m.setPrev p v) S a k ↔ NodesOff m S a k := by
  simp [NodesOff]

/-! ## The two list operations -/

/-- Both operations are four writes, to `prev` and `next` in turn. -/
def TxMem.relink (m : TxMem) (n₁ v₁ n₂ v₂ n₃ v₃ n₄ v₄ : UInt64) : TxMem :=
  (((m.setPrev n₁ v₁).setNext n₂ v₂).setPrev n₃ v₃).setNext n₄ v₄

section Operations

variable {m : TxMem} {S l : List UInt64} {x n₁ n₂ n₃ n₄ v₁ v₂ v₃ v₄ : UInt64}

@[simp] theorem relink_io :
    (m.relink n₁ v₁ n₂ v₂ n₃ v₃ n₄ v₄).io = m.io := by
  simp [TxMem.relink]

@[simp] theorem relink_reclaimer :
    (m.relink n₁ v₁ n₂ v₂ n₃ v₃ n₄ v₄).reclaimer = m.reclaimer := by
  simp [TxMem.relink]

theorem relink_next (hS : NodesApart m S) (h₁ : n₁ ∈ S) (h₂ : n₂ ∈ S)
    (h₃ : n₃ ∈ S) (h₄ : n₄ ∈ S) {y : UInt64} (hy : y ∈ S) :
    (m.relink n₁ v₁ n₂ v₂ n₃ v₃ n₄ v₄).next y =
      if y = n₄ then v₄ else if y = n₂ then v₂ else m.next y := by
  rw [TxMem.relink, next_setNext (S := S) (by simpa using hS) h₄ hy,
    next_setPrev (S := S) (by simpa using hS) h₃ hy,
    next_setNext (S := S) (by simpa using hS) h₂ hy, next_setPrev hS h₁ hy]

theorem relink_prev (hS : NodesApart m S) (h₁ : n₁ ∈ S) (h₂ : n₂ ∈ S)
    (h₃ : n₃ ∈ S) (h₄ : n₄ ∈ S) {y : UInt64} (hy : y ∈ S) :
    (m.relink n₁ v₁ n₂ v₂ n₃ v₃ n₄ v₄).prev y =
      if y = n₃ then v₃ else if y = n₁ then v₁ else m.prev y := by
  rw [TxMem.relink, prev_setNext (S := S) (by simpa using hS) h₄ hy,
    prev_setPrev (S := S) (by simpa using hS) h₃ hy,
    prev_setNext (S := S) (by simpa using hS) h₂ hy, prev_setPrev hS h₁ hy]

theorem relink_agree {a k : Nat} (hoff : NodesOff m S a k) (h₁ : n₁ ∈ S)
    (h₂ : n₂ ∈ S) (h₃ : n₃ ∈ S) (h₄ : n₄ ∈ S) :
    Agree m.shm (m.relink n₁ v₁ n₂ v₂ n₃ v₃ n₄ v₄).shm a k :=
  ((hoff.setPrev h₁).trans (NodesOff.setNext (S := S) (by simpa using hoff) h₂)
    |>.trans (NodesOff.setPrev (S := S) (by simpa using hoff) h₃)).trans
    (NodesOff.setNext (S := S) (by simpa using hoff) h₄)

/-- **`metal_list_add_tail`.** -/
theorem TxMem.listAddTail_spec
    (hc : Chained m.next m.prev m.reclaimer l m.reclaimer)
    (hnd : (m.reclaimer :: l).Nodup) (hx : x ∉ m.reclaimer :: l)
    (hS : NodesApart m (m.reclaimer :: x :: l)) :
    (m.listAddTail x).io = m.io ∧
    (m.listAddTail x).reclaimer = m.reclaimer ∧
    Chained (m.listAddTail x).next (m.listAddTail x).prev m.reclaimer
      (l ++ [x]) m.reclaimer ∧
    ∀ a k, NodesOff m (m.reclaimer :: x :: l) a k →
      Agree m.shm (m.listAddTail x).shm a k := by
  obtain ⟨hp, -⟩ := hc.prev_mem
  have hpx : m.prev m.reclaimer ≠ x := fun h => hx (h ▸ hp)
  have hxr : x ≠ m.reclaimer := fun h => hx (by simp [h])
  have hsub : ∀ y ∈ m.reclaimer :: l, y ∈ m.reclaimer :: x :: l := by
    intro y hy
    rcases List.mem_cons.mp hy with rfl | hy
    · simp
    · simp [hy]
  have hxS : x ∈ m.reclaimer :: x :: l := by simp
  have hrS : m.reclaimer ∈ m.reclaimer :: x :: l := by simp
  have hpS := hsub _ hp
  -- the pointers the four writes go through, resolved
  have heq : m.listAddTail x = m.relink x (m.prev m.reclaimer) x m.reclaimer
      m.reclaimer x (m.prev m.reclaimer) x := by
    simp only [TxMem.listAddTail, setPrev_reclaimer, TxMem.relink]
    rw [next_setNext (S := m.reclaimer :: x :: l) (by simpa using hS) hxS hxS,
      if_pos rfl,
      prev_setPrev (S := m.reclaimer :: x :: l) (by simpa using hS) hrS hxS,
      if_neg hxr,
      prev_setNext (S := m.reclaimer :: x :: l) (by simpa using hS) hxS hxS,
      prev_setPrev (S := m.reclaimer :: x :: l) hS hxS hxS, if_pos rfl]
  rw [heq]
  refine ⟨relink_io, relink_reclaimer, ?_,
    fun a k hoff => relink_agree hoff hxS hxS hrS hpS⟩
  refine hc.addTail hnd hx ?_ ?_ ?_ ?_ (fun y hy hyp => ?_) fun y hy => ?_
  · rw [relink_next hS hxS hxS hrS hpS hxS, if_neg hpx.symm, if_pos rfl]
  · rw [relink_prev hS hxS hxS hrS hpS hxS, if_neg hxr, if_pos rfl]
  · rw [relink_prev hS hxS hxS hrS hpS hrS, if_pos rfl]
  · rw [relink_next hS hxS hxS hrS hpS hpS, if_pos rfl]
  · have hyx : y ≠ x := fun h => hx (h ▸ hy)
    rw [relink_next hS hxS hxS hrS hpS (hsub y hy), if_neg hyp, if_neg hyx]
  · have hyx : y ≠ x := fun h => hx (h ▸ List.mem_cons_of_mem _ hy)
    have hyr : y ≠ m.reclaimer := fun h => (List.nodup_cons.mp hnd).1 (h ▸ hy)
    rw [relink_prev hS hxS hxS hrS hpS (by simp [hy]), if_neg hyr, if_neg hyx]

/-- **`metal_list_del`** of the first node. -/
theorem TxMem.listDel_spec
    (hc : Chained m.next m.prev m.reclaimer (x :: l) m.reclaimer)
    (hnd : (m.reclaimer :: x :: l).Nodup)
    (hS : NodesApart m (m.reclaimer :: x :: l)) :
    (m.listDel x).io = m.io ∧ (m.listDel x).reclaimer = m.reclaimer ∧
    Chained (m.listDel x).next (m.listDel x).prev m.reclaimer l
      m.reclaimer ∧
    ∀ a k, NodesOff m (m.reclaimer :: x :: l) a k →
      Agree m.shm (m.listDel x).shm a k := by
  have hxS : x ∈ m.reclaimer :: x :: l := by simp
  have hrS : m.reclaimer ∈ m.reclaimer :: x :: l := by simp
  obtain ⟨⟨-, hpx⟩, hrest⟩ := id hc
  have hne : m.reclaimer ∉ x :: l ∧ x ∉ l :=
    ⟨(List.nodup_cons.mp hnd).1,
      (List.nodup_cons.mp (List.nodup_cons.mp hnd).2).1⟩
  have hxr : x ≠ m.reclaimer := fun h => hne.1 (by simp [h])
  have hxl : ∀ y ∈ m.reclaimer :: l, y ≠ x := by
    rintro y hy rfl
    rcases List.mem_cons.mp hy with h | h
    · exact hxr h
    · exact hne.2 h
  have hsub : ∀ y ∈ m.reclaimer :: l, y ∈ m.reclaimer :: x :: l := by
    intro y hy
    rcases List.mem_cons.mp hy with rfl | hy
    · simp
    · simp [hy]
  have hn : m.next x ∈ m.reclaimer :: l := by
    cases l with
    | nil => simp [hrest.1]
    | cons y l => simp [hrest.1.1]
  have hnx := hxl _ hn
  have hnS := hsub _ hn
  have heq : m.listDel x = m.relink (m.next x) m.reclaimer m.reclaimer
      (m.next x) x x x x := by
    simp only [TxMem.listDel, TxMem.relink]
    rw [hpx, prev_setPrev (S := m.reclaimer :: x :: l) hS hnS hxS,
      if_neg hnx.symm, hpx,
      next_setPrev (S := m.reclaimer :: x :: l) hS hnS hxS]
  rw [heq]
  refine ⟨relink_io, relink_reclaimer, ?_,
    fun a k hoff => relink_agree hoff hnS hrS hxS hxS⟩
  refine hc.delFirst hnd ?_ ?_ (fun y hy => ?_) fun y hy hyn => ?_
  · rw [relink_next hS hnS hrS hxS hxS hrS, if_neg hxr.symm, if_pos rfl]
  · rw [relink_prev hS hnS hrS hxS hxS hnS, if_neg hnx, if_pos rfl]
  · have hyx := hxl y (by simp [hy])
    have hyr : y ≠ m.reclaimer := fun h => hne.1 (by simp [← h, hy])
    rw [relink_next hS hnS hrS hxS hxS (by simp [hy]), if_neg hyx, if_neg hyr]
  · rw [relink_prev hS hnS hrS hxS hxS (hsub y hy), if_neg (hxl y hy),
      if_neg hyn]

end Operations

/-! ## Buffers on the list -/

/-- The buffers lie apart, each with room for a node and its index, and
none is the list head. -/
structure Placed (m : TxMem) (bs : List VqBuffer) : Prop where
  apart : bs.Pairwise fun a b => (a.span m.io).Disjoint (b.span m.io)
  room : ∀ b ∈ bs, RECLAIMER_SIZE ≤ b.len.toNat
  outside : ∀ b ∈ bs, b.data ≠ m.reclaimer

/-- The list holds `bs`. -/
structure Reclaimed (m : TxMem) (bs : List VqBuffer) : Prop where
  chain : Chained m.next m.prev m.reclaimer (bs.map (·.data)) m.reclaimer
  idx : ∀ b ∈ bs, m.idx b.data = b.idx

/-- The header of `b` notes its index and one hold. -/
def Noted (m : TxMem) (b : VqBuffer) : Prop :=
  hdrReserved m.io m.shm b.data = bufWord b.idx 1

section Buffers

variable {m m' : TxMem} {b b' : VqBuffer} {bs bs' : List VqBuffer}

theorem Placed.perm (h : Placed m bs) (hp : bs.Perm bs') : Placed m bs' where
  apart := (hp.pairwise_iff fun h => h.symm).mp h.apart
  room := fun b hb => h.room b (hp.mem_iff.mpr hb)
  outside := fun b hb => h.outside b (hp.mem_iff.mpr hb)

theorem Placed.sublist (h : Placed m bs) (hs : bs'.Sublist bs) :
    Placed m bs' where
  apart := h.apart.sublist hs
  room := fun b hb => h.room b (hs.subset hb)
  outside := fun b hb => h.outside b (hs.subset hb)

/-- Where a buffer lies does not depend on the bytes. -/
theorem Placed.congr (h : Placed m bs) (hio : m'.io = m.io)
    (hr : m'.reclaimer = m.reclaimer) : Placed m' bs :=
  ⟨hio ▸ h.apart, h.room, hr ▸ h.outside⟩

/-- Buffers of different places have different addresses. -/
theorem Placed.data_pairwise (h : Placed m bs) :
    (bs.map (·.data)).Pairwise fun p q =>
      p ≠ q ∧ (shmOff m.io p + RECLAIMER_SIZE ≤ shmOff m.io q ∨
        shmOff m.io q + RECLAIMER_SIZE ≤ shmOff m.io p) := by
  rw [List.pairwise_map]
  refine h.apart.imp_of_mem fun {a b} ha hb hab => ?_
  have h1 := h.room a ha
  have h2 := h.room b hb
  simp only [VqBuffer.span, Span.Disjoint, RECLAIMER_SIZE] at hab h1 h2 ⊢
  refine ⟨?_, by omega⟩
  intro heq
  rw [heq] at hab
  omega

theorem Placed.nodup (h : Placed m bs) :
    (m.reclaimer :: bs.map (·.data)).Nodup := by
  refine List.nodup_cons.mpr ⟨?_, h.data_pairwise.imp fun hpq => hpq.1⟩
  intro hmem
  obtain ⟨b, hb, heq⟩ := List.mem_map.mp hmem
  exact h.outside b hb heq

theorem Placed.nodesApart (h : Placed m bs) :
    NodesApart m (m.reclaimer :: bs.map (·.data)) := by
  intro p hp q hq hpq hpr hqr
  have hp' := (List.mem_cons.mp hp).resolve_left hpr
  have hq' := (List.mem_cons.mp hq).resolve_left hqr
  have hsymm : Std.Symm fun p q : UInt64 =>
      p ≠ q ∧ (shmOff m.io p + RECLAIMER_SIZE ≤ shmOff m.io q ∨
        shmOff m.io q + RECLAIMER_SIZE ≤ shmOff m.io p) :=
    ⟨fun _ _ h => ⟨h.1.symm, h.2.symm⟩⟩
  exact (h.data_pairwise.forall hp' hq' hpq).2

/-- The list nodes of buffers apart from `b` are outside its bytes. -/
theorem nodesOff_of_disjoint (hroom : ∀ x ∈ bs, RECLAIMER_SIZE ≤ x.len.toNat)
    {s : Span} (hdis : ∀ x ∈ bs, (x.span m.io).Disjoint s) :
    NodesOff m (m.reclaimer :: bs.map (·.data)) s.start s.len := by
  intro p hp hpr
  obtain ⟨x, hx, rfl⟩ := List.mem_map.mp
    ((List.mem_cons.mp hp).resolve_left hpr)
  have h1 := hroom x hx
  have h2 := hdis x hx
  simp only [VqBuffer.span, Span.Disjoint, RECLAIMER_SIZE] at h1 h2
  omega

/-- The index of a node is outside all list nodes. -/
theorem Placed.idx_off (h : Placed m bs) (hb : b ∈ bs) :
    NodesOff m (m.reclaimer :: bs.map (·.data)) (shmOff m.io b.data + 16) 2 := by
  intro p hp hpr
  by_cases hpb : p = b.data
  · rw [hpb]
    omega
  · have := h.nodesApart p hp b.data (by simpa using .inr ⟨b, hb, rfl⟩) hpb hpr
      (h.outside b hb)
    simp only [RECLAIMER_SIZE] at this
    omega

/-- What is on the list depends on its own bytes only. -/
theorem Reclaimed.congr (h : Reclaimed m bs) (hio : m'.io = m.io) (hr : m'.reclaimer = m.reclaimer)
    (hf : m'.first = m.first) (hl : m'.last = m.last)
    (hag : ∀ b ∈ bs, Agree m.shm m'.shm (shmOff m.io b.data) RECLAIMER_SIZE) :
    Reclaimed m' bs := by
  have hnode : ∀ y ∈ m.reclaimer :: bs.map (·.data),
      m'.next y = m.next y ∧ m'.prev y = m.prev y := by
    intro y hy
    unfold TxMem.next TxMem.prev
    rw [hr, hio, hf, hl]
    by_cases hyr : y = m.reclaimer
    · simp [hyr]
    · obtain ⟨b, hb, rfl⟩ := List.mem_map.mp ((List.mem_cons.mp hy).resolve_left hyr)
      have hab := hag b hb
      rw [if_neg hyr, if_neg hyr, if_neg hyr, if_neg hyr,
        loadLE_congr (hab.mono (by omega) (by simp [RECLAIMER_SIZE])),
        loadLE_congr (hab.mono (by omega) (by simp [RECLAIMER_SIZE]))]
      exact ⟨rfl, rfl⟩
  refine ⟨?_, fun b hb => ?_⟩
  · rw [hr]
    refine h.chain.congr (fun y hy => (hnode y hy).1) fun y hy => ?_
    refine (hnode y ?_).2
    simp only [List.mem_append, List.mem_singleton] at hy
    rcases hy with hy | rfl
    · exact List.mem_cons_of_mem _ hy
    · exact List.mem_cons_self
  · rw [← h.idx b hb, TxMem.idx, TxMem.idx, hio,
      loadLE_congr ((hag b hb).mono (by omega) (by simp [RECLAIMER_SIZE]))]

theorem Noted.congr (h : Noted m b) (hio : m'.io = m.io)
    (hag : Agree m.shm m'.shm (shmOff m.io b.data) 16) : Noted m' b := by
  unfold Noted hdrReserved at *
  rw [hio, loadLE_congr (hag.mono (by omega) (by omega))]
  exact h

theorem Reclaimed.listFirst_nil (h : Reclaimed m []) : m.listFirst = none := by
  have hn : m.next m.reclaimer = m.reclaimer := h.chain.1
  simp [TxMem.listFirst, hn]

/-- **Taking the first buffer off the list**: its index has survived,
and no byte outside the nodes has changed. -/
theorem Reclaimed.pop (h : Reclaimed m (b :: bs)) (hp : Placed m (b :: bs)) :
    m.listFirst = some b.data ∧ (m.listDel b.data).io = m.io ∧
    (m.listDel b.data).reclaimer = m.reclaimer ∧
    (m.listDel b.data).idx b.data = b.idx ∧
    Reclaimed (m.listDel b.data) bs ∧
    ∀ s : Span, (∀ x ∈ b :: bs, (x.span m.io).Disjoint s) →
      Agree m.shm (m.listDel b.data).shm s.start s.len := by
  obtain ⟨hio, hr, hc, hag⟩ := TxMem.listDel_spec h.chain hp.nodup hp.nodesApart
  have hidx : ∀ x ∈ b :: bs, (m.listDel b.data).idx x.data = x.idx := by
    intro x hx
    rw [← h.idx x hx, TxMem.idx, TxMem.idx, hio,
      loadLE_congr (hag _ _ (hp.idx_off hx))]
  refine ⟨?_, hio, hr, hidx b (by simp), ⟨?_, fun x hx => hidx x (by simp [hx])⟩,
    fun s hs => hag _ _ (nodesOff_of_disjoint hp.room hs)⟩
  · have hn : m.next m.reclaimer = b.data := h.chain.1.1
    rw [TxMem.listFirst, hn, if_neg (hp.outside b (by simp))]
  · rw [hr]
    exact hc

/-- **Releasing a held buffer** puts it at the end of the list, its index
saved before the node overwrites the header. -/
theorem Reclaimed.push (h : Reclaimed m bs) (hp : Placed m (b :: bs))
    (hb : Noted m b) :
    (rpmsgVirtioReleaseTxBuffer m b.data).io = m.io ∧
    (rpmsgVirtioReleaseTxBuffer m b.data).reclaimer = m.reclaimer ∧
    Reclaimed (rpmsgVirtioReleaseTxBuffer m b.data) (bs ++ [b]) ∧
    ∀ s : Span, (∀ x ∈ b :: bs, (x.span m.io).Disjoint s) →
      Agree m.shm (rpmsgVirtioReleaseTxBuffer m b.data).shm s.start s.len := by
  -- the memory the node is put into
  let m₁ : TxMem := TxMem.setIdx
    { m with shm := setHdrReserved m.io m.shm b.data (bufWord b.idx 0) }
    b.data b.idx
  have heq : rpmsgVirtioReleaseTxBuffer m b.data = m₁.listAddTail b.data := by
    simp only [rpmsgVirtioReleaseTxBuffer, show hdrReserved m.io m.shm b.data =
        bufWord b.idx (0 + 1) from hb,
      rpmsgVirtioBufHeldDecTest_bufWord b.idx (by omega : 0 + 1 < 65536),
      decide_true, if_true, rpmsgBufIndex_bufWord b.idx (by omega : 0 < 65536)]
    rfl
  have hroom := hp.room b (by simp)
  -- the two stores before it stay inside the buffer
  have hag₁ : ∀ s : Span, (b.span m.io).Disjoint s →
      Agree m.shm m₁.shm s.start s.len := by
    intro s hs
    simp only [VqBuffer.span, Span.Disjoint, RECLAIMER_SIZE] at hs hroom
    exact (agree_storeLE (a := shmOff m.io b.data + 8) (by omega)).trans
      (agree_storeLE (a := shmOff m.io b.data + 16) (by omega))
  have hidx₁ : m₁.idx b.data = b.idx := by
    rw [TxMem.idx, show m₁.io = m.io from rfl]
    exact (congrArg UInt16.ofNat (loadLE_storeLE _ _ _ _ b.idx.toNat_lt)).trans
      UInt16.ofNat_toNat
  have hp₁ : Placed m₁ (b :: bs) := hp.congr rfl rfl
  have hbs : Placed m bs := hp.sublist (List.sublist_cons_self _ _)
  have hdis := (List.pairwise_cons.mp hp.apart).1
  have h₁ : Reclaimed m₁ bs := h.congr rfl rfl rfl rfl fun x hx => by
    have hx1 := hbs.room x hx
    have hx2 := hag₁ _ (hdis x hx)
    exact hx2.mono (Nat.le_refl _) (by simpa [VqBuffer.span] using hx1)
  obtain ⟨hio, hr, hc, hag⟩ := TxMem.listAddTail_spec (x := b.data) h₁.chain
    (hp₁.sublist (List.sublist_cons_self _ _)).nodup
    (by
      have := hp₁.nodup
      simp only [List.map_cons, List.nodup_cons, List.mem_cons, not_or] at this ⊢
      exact ⟨fun h => this.1.1 h.symm, this.2.1⟩)
    hp₁.nodesApart
  rw [heq]
  refine ⟨hio, hr, ⟨?_, fun x hx => ?_⟩, fun s hs =>
    (hag₁ s (hs b (by simp))).trans (hag _ _ (nodesOff_of_disjoint hp.room hs))⟩
  · rw [hr, List.map_append]
    exact hc
  · have hxm : x ∈ b :: bs := by
      simpa [or_comm] using hx
    have hold : m₁.idx x.data = x.idx := by
      rcases List.mem_cons.mp hxm with rfl | hx'
      · exact hidx₁
      · exact h₁.idx x hx'
    rw [← hold, TxMem.idx, TxMem.idx, hio,
      loadLE_congr (hag _ _ (hp₁.idx_off hxm))]

end Buffers

end OpenAmp.Rpmsg
