import OpenAmp.Rpmsg.Hands
import OpenAmp.Rpmsg.TxInvariant

/-!
# Every transmission step keeps the invariant

The steps fall into three groups: the ones that write into one held
buffer and change nothing else, the ones that move a buffer to or from
the list of reclaimed buffers, and the ones that go through the send
queue, where the two roles part.
-/

namespace OpenAmp.Rpmsg

open OpenAmp.Lib OpenAmp.Metal OpenAmp.Virtio

variable {cfg : TxConfig} {s : TxSystem} {f : Flow} {recl : List VqBuffer}
  {l₁ l₂ : List TxHeld} {b : VqBuffer}

/-! ## Inside one held buffer -/

theorem TxInv.hands (h : TxInv cfg s f recl) : TxHands s.us.mem recl s.held :=
  ⟨h.listed, h.noted, h.placed⟩

/-- A step that writes in the shared memory and leaves every buffer where
it is. -/
theorem TxInv.change (h : TxInv cfg s f recl) {shm : Mem} {held : List TxHeld}
    (hands : TxHands { s.us.mem with shm := shm } recl held)
    (hown : held.map (·.buf) = s.held.map (·.buf)) :
    TxInv cfg { s with us := s.us.withShm shm, held := held } f recl := by
  refine ⟨h.io, h.head, hands.listed, hands.noted, ?_, ?_⟩
  · have hgot : held.map (fun x => (x.buf, TxEvent.got)) =
        s.held.map fun x => (x.buf, TxEvent.got) := by
      simpa [Function.comp_def] using
        congrArg (List.map fun b => (b, TxEvent.got)) hown
    have htag : cfg.tagged recl held f = cfg.tagged recl s.held f := by
      simp only [TxConfig.tagged, hgot]
    simp only [htag]
    exact h.custody.congr rfl rfl
  · simp only [hown]
    exact h.side.withMem _

theorem TxInv.note (h : TxInv cfg s f recl)
    (hheld : s.held = l₁ ++ ⟨b, .fetched⟩ :: l₂) :
    TxInv cfg { s with
      us := s.us.withShm (noteTxBuffer s.us.mem.io s.us.mem.shm b)
      held := l₁ ++ ⟨b, .noted⟩ :: l₂ } f recl := by
  have hands := h.hands
  rw [hheld] at hands
  exact h.change hands.note (by simp [hheld])

theorem TxInv.write (h : TxInv cfg s f recl) {shm : Mem}
    (hheld : ⟨b, .noted⟩ ∈ s.held)
    (hpay : ∀ x, (x < shmOff s.us.mem.io b.data + RPMSG_HDR_SIZE ∨
      shmOff s.us.mem.io b.data + b.len.toNat ≤ x) →
      shm x = s.us.mem.shm x) :
    TxInv cfg { s with us := s.us.withShm shm } f recl :=
  h.change (h.hands.write hheld hpay) rfl

theorem TxInv.header (h : TxInv cfg s f recl) (src dst : UInt32) (len : Int32)
    (hheld : s.held = l₁ ++ ⟨b, .noted⟩ :: l₂) :
    TxInv cfg { s with
      us := s.us.withShm
        (initTxHdr s.us.mem.io s.us.mem.shm src dst b.data len).2
      held := l₁ ++ ⟨{ b with
        idx := (initTxHdr s.us.mem.io s.us.mem.shm src dst b.data len).1 },
        .sealed⟩ :: l₂ } f recl := by
  have hands := h.hands
  rw [hheld] at hands
  refine h.change (hands.header src dst len) ?_
  simp [hheld, hands.header_idx]

/-! ## The list of reclaimed buffers -/

theorem TxInv.release (h : TxInv cfg s f recl)
    (hheld : s.held = l₁ ++ ⟨b, .noted⟩ :: l₂) :
    TxInv cfg { s with
      us := { s.us with mem := rpmsgVirtioReleaseTxBuffer s.us.mem b.data }
      held := l₁ ++ l₂
      log := s.log ++ [(b.data, .released)] } f (recl ++ [b]) := by
  have hands := h.hands
  rw [hheld] at hands
  obtain ⟨hio, hr, hnew, -⟩ := hands.release
  refine ⟨hio.trans h.io, hr.trans h.head, hnew.listed, hnew.noted, ?_, ?_⟩
  · -- in the log, the buffer goes from the holders to the list
    have hcust := h.custody.perm (hheld ▸ tagged_split cfg recl f l₁ l₂ _)
    refine ((hcust.move b .released trivial rfl rfl).perm ?_).congr
      hio hr
    simp only [TxConfig.tagged, List.map_append, List.map_cons, List.map_nil,
      List.append_assoc, List.cons_append, List.nil_append]
    exact List.perm_middle.symm
  · refine (h.side.withMem _).perm ?_
    rw [hheld, List.map_append, List.map_cons, List.append_assoc,
      List.map_append]
    refine List.Perm.append_left _ ?_
    exact List.perm_middle

/-- A buffer taken off the list. -/
theorem TxInv.reuse (h : TxInv cfg s f (b :: recl)) :
    s.us.mem.listFirst = some b.data ∧
    (s.us.mem.listDel b.data).idx b.data = b.idx ∧
    TxInv cfg { s with
      us := { s.us with mem := s.us.mem.listDel b.data }
      held := s.held ++ [⟨b, .fetched⟩]
      log := s.log ++ [(b.data, .got)] } f recl := by
  obtain ⟨hfirst, hidx, hio, hr, hnew, -⟩ := h.hands.reuse
  refine ⟨hfirst, hidx, hio.trans h.io, hr.trans h.head, hnew.listed,
    hnew.noted, ?_, ?_⟩
  · -- in the log, the buffer goes from the list to a holder
    have hcust : Custody cfg s.us.mem ((b, .released) :: cfg.tagged recl s.held f)
        s.log := h.custody
    have hsplit := tagged_split cfg recl f s.held [] ⟨b, .fetched⟩
    rw [List.append_nil] at hsplit
    exact ((hcust.move b .got trivial rfl rfl).perm
      hsplit.symm).congr hio hr
  · refine (h.side.withMem _).perm ?_
    rw [List.map_append, List.cons_append, ← List.append_assoc]
    exact (List.perm_append_singleton _ _).symm

/-! ## Chains and custody -/

/-- A chain that the queue gains or loses, seen first in the custody. -/
theorem tagged_queue (recl : List VqBuffer) (held : List TxHeld) {f' : Flow}
    {q : Chain × TxEvent} (h : (cfg.queuedChains f).Perm (q :: cfg.queuedChains f')) :
    (cfg.tagged recl held f).Perm
      ((cfg.chainBuf q.1, q.2) :: cfg.tagged recl held f') := by
  unfold TxConfig.tagged
  refine ((h.map _).append_left _).trans ?_
  rw [List.map_cons]
  exact List.perm_middle

section Chains

variable {c : Chain} {len : UInt32} {k₁ k₂ avail : List Chain}
  {used : List (Chain × UInt32)}

theorem queuedChains_add_driver (hr : cfg.role = .driver) :
    (cfg.queuedChains (f.add c)).Perm ((c, .sent) :: cfg.queuedChains f) := by
  simp only [TxConfig.queuedChains, hr, Flow.add, List.append_assoc,
    List.map_append, List.map_cons, List.cons_append, List.nil_append]
  exact List.perm_middle

theorem queuedChains_get_driver (hr : cfg.role = .driver)
    (hu : f.used = (c, len) :: used) :
    (cfg.queuedChains f).Perm ((c, .offered) :: cfg.queuedChains (f.get c)) := by
  simp only [TxConfig.queuedChains, hr, Flow.get, hu, List.map_cons,
    List.tail_cons]
  exact List.perm_middle

theorem queuedChains_take_driver (hr : cfg.role = .driver)
    (ha : f.avail = c :: avail) :
    (cfg.queuedChains (f.take c)).Perm (cfg.queuedChains f) := by
  simp only [TxConfig.queuedChains, hr, Flow.take, ha, List.tail_cons]
  refine List.Perm.append_right _ (List.Perm.map _ ?_)
  rw [← List.append_assoc]
  exact List.perm_append_singleton _ _

theorem queuedChains_held_driver (hr : cfg.role = .driver)
    (hh : f.held = k₁ ++ c :: k₂) :
    (cfg.queuedChains f).Perm
      ((c, .sent) :: cfg.queuedChains (f.without k₁ k₂)) := by
  simp only [TxConfig.queuedChains, hr, Flow.without, hh]
  rw [← List.cons_append, ← List.map_cons (f := fun c => (c, TxEvent.sent))]
  refine List.Perm.append_right _ (List.Perm.map _ ?_)
  rw [← List.append_assoc, ← List.append_assoc]
  exact List.perm_middle

theorem queuedChains_put_driver (hr : cfg.role = .driver) :
    (cfg.queuedChains (f.put k₁ k₂ c len)).Perm
      ((c, .offered) :: cfg.queuedChains (f.without k₁ k₂)) := by
  simp only [TxConfig.queuedChains, hr, Flow.put, Flow.without]
  rw [List.map_append (f := fun u : Chain × UInt32 => (u.1, TxEvent.offered)),
    ← List.append_assoc]
  exact List.perm_append_singleton _ _

theorem queuedChains_add_device (hr : cfg.role = .device) :
    (cfg.queuedChains (f.add c)).Perm
      ((c, .offered) :: cfg.queuedChains f) := by
  simp only [TxConfig.queuedChains, hr, Flow.add, List.append_assoc,
    List.map_append, List.map_cons, List.map_nil, List.cons_append,
    List.nil_append]
  exact List.perm_middle

theorem queuedChains_get_device (hr : cfg.role = .device)
    (hu : f.used = (c, len) :: used) :
    (cfg.queuedChains f).Perm ((c, .sent) :: cfg.queuedChains (f.get c)) := by
  simp only [TxConfig.queuedChains, hr, Flow.get, hu, List.map_cons,
    List.tail_cons]
  exact List.perm_middle

theorem queuedChains_take_device (hr : cfg.role = .device)
    (ha : f.avail = c :: avail) :
    (cfg.queuedChains f).Perm
      ((c, .offered) :: cfg.queuedChains (f.take c)) := by
  simp [TxConfig.queuedChains, hr, Flow.take, ha]

theorem queuedChains_put_device (hr : cfg.role = .device) :
    (cfg.queuedChains (f.put k₁ k₂ c len)).Perm
      ((c, .sent) :: cfg.queuedChains f) := by
  simp only [TxConfig.queuedChains, hr, Flow.put, List.map_append,
    List.map_cons, List.map_nil]
  rw [← List.append_assoc]
  exact List.perm_append_singleton _ _

end Chains

end OpenAmp.Rpmsg
