import OpenAmp.Rpmsg.Hands

/-!
# Threads beside each other

What a step of one thread is to the others. Whatever else is in the hands
of its side, the thread takes the same step, and the bytes it writes are
those of its own buffers: of the ones that are listed with it, of the
reclaimed ones, and of one it takes from the queue.
-/

namespace OpenAmp.Rpmsg

open OpenAmp.Lib OpenAmp.Metal OpenAmp.Virtio

/-! ## What the calls leave in memory -/

section Calls

theorem rpmsgVirtioGetPoolBuffer_mem (rvdev : TxDevice) :
    (rpmsgVirtioGetTxBuffer.rpmsgVirtioGetPoolBuffer rvdev).2.mem =
      rvdev.mem := by
  unfold rpmsgVirtioGetTxBuffer.rpmsgVirtioGetPoolBuffer
  split <;> rfl

/-- A buffer on the list is taken off it; one from the queue or the pool
comes as it is. -/
theorem rpmsgVirtioGetTxBuffer_mem {rvdev us : TxDevice} {r : Option VqBuffer}
    (h : rpmsgVirtioGetTxBuffer rvdev = some (r, us)) :
    us.mem = rvdev.mem.listFirst.elim rvdev.mem rvdev.mem.listDel := by
  have hpool : ∀ {us₁ : TxDevice}, some
      (rpmsgVirtioGetTxBuffer.rpmsgVirtioGetPoolBuffer us₁) = some (r, us) →
      us.mem = us₁.mem := by
    intro us₁ heq
    rw [← rpmsgVirtioGetPoolBuffer_mem us₁, Option.some.inj heq]
  unfold rpmsgVirtioGetTxBuffer at h
  cases hfirst : rvdev.mem.listFirst with
  | some node =>
    rw [hfirst] at h
    cases h
    rfl
  | none =>
    rw [hfirst] at h
    simp only at h
    split at h
    · split at h
      · cases h
      · split at h
        · cases h
          rfl
        · exact (hpool h).trans rfl
      · exact (hpool h).trans rfl
    · cases h
      rfl

theorem enqueueTxBuffer_mem (rvdev : TxDevice) (hdr : UInt64) (idx : UInt16) :
    (enqueueTxBuffer rvdev hdr idx).2.2.mem = rvdev.mem := by
  simp only [enqueueTxBuffer, rpmsgVirtioEnqueueBuffer]
  cases rvdev.role <;> rfl

theorem rxTakeBuffer_mem {us us' : RxDevice} {r : Option VqBuffer}
    (h : rxTakeBuffer us = some (r, us')) :
    us'.shm = r.elim us.shm (noteTxBuffer us.io us.shm) := by
  obtain ⟨⟨b, us₁⟩, hget, heq⟩ := Option.map_eq_some_iff.mp h
  -- getting a buffer writes in the queue only
  have hsame : us₁.io = us.io ∧ us₁.shm = us.shm := by
    unfold rpmsgVirtioGetRxBuffer at hget
    split at hget
    · obtain ⟨x, -, hx⟩ := Option.map_eq_some_iff.mp hget
      cases hx
      exact ⟨rfl, rfl⟩
    · cases hget
      exact ⟨rfl, rfl⟩
  cases b <;> cases heq
  · exact hsame.2
  · simp only [hsame.1, hsame.2]
    rfl

theorem rpmsgVirtioReleaseRxBuffer_mem (us : RxDevice) (hdr : UInt64) :
    (rpmsgVirtioReleaseRxBuffer us hdr).2.shm = setHdrReserved us.io us.shm hdr
      (rpmsgVirtioBufHeldDecTest (hdrReserved us.io us.shm hdr)).2 := by
  simp only [rpmsgVirtioReleaseRxBuffer]
  split
  · simp only [rpmsgVirtioReleaseRxBufferNolock, rpmsgVirtioReturnBuffer]
    split <;> rfl
  · rfl

end Calls

/-! ## The steps of the others -/

section Others

/-- Buffers of somebody else do not keep a thread from its step. -/
theorem TxStep.beside {cfg : TxConfig} {s t : TxSystem} {a : TxAct}
    (h : TxStep cfg s a t) (ha : a ≠ .peer) (x : List TxHeld) :
    TxStep cfg { s with held := x ++ s.held } a
      { t with held := x ++ t.held } := by
  have hat : ∀ {y : TxHeld} {l₁ l₂ : List TxHeld}, s.held = l₁ ++ y :: l₂ →
      x ++ s.held = (x ++ l₁) ++ y :: l₂ := by
    intro y l₁ l₂ hheld
    rw [hheld, List.append_assoc]
  cases h with
  | get hget =>
    have h' := @TxStep.get cfg { s with held := x ++ s.held } _ _ hget
    rwa [List.append_assoc] at h'
  | note hheld =>
    have h' := @TxStep.note cfg { s with held := x ++ s.held } _ _ _ (hat hheld)
    rwa [List.append_assoc] at h'
  | write hheld hpay =>
    exact @TxStep.write cfg { s with held := x ++ s.held } _ _
      (List.mem_append_right _ hheld) hpay
  | header src dst len hheld heq =>
    have h' := @TxStep.header cfg { s with held := x ++ s.held } _ _ _
      src dst len _ _ (hat hheld) heq
    rwa [List.append_assoc] at h'
  | enqueue hheld heq =>
    have h' := @TxStep.enqueue cfg { s with held := x ++ s.held } _ _ _ _ _ _
      (hat hheld) heq
    rwa [List.append_assoc] at h'
  | release hheld =>
    have h' := @TxStep.release cfg { s with held := x ++ s.held } _ _ _
      (hat hheld)
    rwa [List.append_assoc] at h'
  | _ => exact absurd rfl ha

theorem RxStep.beside {cfg : RxConfig} {s t : RxSystem} {a : RxAct}
    (h : RxStep cfg s a t) (ha : a ≠ .peer) (x : List Received) :
    RxStep cfg { s with rx := x ++ s.rx } a { t with rx := x ++ t.rx } := by
  have hat : ∀ {y : Received} {l₁ l₂ : List Received}, s.rx = l₁ ++ y :: l₂ →
      x ++ s.rx = (x ++ l₁) ++ y :: l₂ := by
    intro y l₁ l₂ hrx
    rw [hrx, List.append_assoc]
  cases h with
  | take htake =>
    have h' := @RxStep.take cfg { s with rx := x ++ s.rx } _ _ htake
    rwa [List.append_assoc] at h'
  | hold hrx hphase hfew =>
    have h' := @RxStep.hold cfg { s with rx := x ++ s.rx } _ _ _ (hat hrx)
      hphase hfew
    rwa [List.append_assoc] at h'
  | release hrx hheld hrel =>
    have h' := @RxStep.release cfg { s with rx := x ++ s.rx } _ _ _ _ _
      (hat hrx) hheld hrel
    rwa [List.append_assoc] at h'
  | ret hrx hphase =>
    have h' := @RxStep.ret cfg { s with rx := x ++ s.rx } _ _ _ (hat hrx) hphase
    rwa [List.append_assoc] at h'
  | finish hrx hphase hrel =>
    have h' := @RxStep.finish cfg { s with rx := x ++ s.rx } _ _ _ _ _
      (hat hrx) hphase hrel
    rwa [List.append_assoc] at h'
  | write hr huse hpay =>
    exact @RxStep.write cfg { s with rx := x ++ s.rx } _ _
      (List.mem_append_right _ hr) huse hpay
  | _ => exact absurd rfl ha

/-- **A sender writes in its own buffers**, those on the list and those it
holds, whatever else is in its hands. -/
theorem TxStep.writesIn {cfg : TxConfig} {s t : TxSystem} {a : TxAct}
    (h : TxStep cfg s a t) (ha : a ≠ .peer) {recl : List VqBuffer}
    {x : List TxHeld} (hands : TxHands s.us.mem recl (x ++ s.held)) :
    WritesIn s.us.mem.io (recl ++ s.held.map (·.buf)) s.us.mem.shm
      t.us.mem.shm := by
  have hmem : ∀ {l₁ l₂ : List TxHeld} {y : TxHeld}, s.held = l₁ ++ y :: l₂ →
      [y.buf] ⊆ recl ++ s.held.map (·.buf) := by
    intro l₁ l₂ y hheld z hz
    rw [List.mem_singleton.mp hz, hheld]
    simp
  have hat : ∀ {y : TxHeld} {l₁ l₂ : List TxHeld}, s.held = l₁ ++ y :: l₂ →
      TxHands s.us.mem recl ((x ++ l₁) ++ y :: l₂) := by
    intro y l₁ l₂ hheld
    rw [List.append_assoc, ← hheld]
    exact hands
  cases h with
  | get hget =>
    simp only [rpmsgVirtioGetTxBuffer_mem hget]
    cases recl with
    | nil =>
      rw [hands.listed.listFirst_nil]
      exact writesIn_refl _ _ _
    | cons b recl =>
      obtain ⟨hfirst, -, -, -, -, hw⟩ := hands.reuse
      rw [hfirst]
      exact hw.mono fun y hy => List.mem_append_left _ hy
  | note hheld =>
    exact (writesIn_noteTxBuffer (hat hheld).room).mono (hmem hheld)
  | write hheld hpay =>
    obtain ⟨l₁, l₂, hsplit⟩ := List.append_of_mem hheld
    exact (writesIn_payload hpay).mono (hmem hsplit)
  | header src dst len hheld heq =>
    have hw := @writesIn_initTxHdr s.us.mem.io s.us.mem.shm _ (hat hheld).room
      src dst len
    rw [heq] at hw
    exact hw.mono (hmem hheld)
  | @enqueue l₁ l₂ b status notified us hheld heq =>
    have hsame := enqueueTxBuffer_mem s.us b.data b.idx
    rw [heq] at hsame
    rw [show us.mem = s.us.mem from hsame]
    exact writesIn_refl _ _ _
  | release hheld =>
    obtain ⟨-, -, -, hw⟩ := (hat hheld).release
    refine hw.mono fun y hy => ?_
    rcases List.mem_cons.mp hy with rfl | hy
    · exact hmem hheld (by simp)
    · exact List.mem_append_left _ hy
  | _ => exact absurd rfl ha

/-- A reception that is new comes from the queue. -/
theorem RxStep.added {cfg : RxConfig} {s t : RxSystem} {a : RxAct}
    (h : RxStep cfg s a t) (ha : a ≠ .peer) {b : VqBuffer}
    (hb : b ∈ (t.rx.drop s.rx.length).map (·.buf)) :
    ∃ us, rxTakeBuffer s.us = some (some b, us) := by
  have hnone : t.rx.length = s.rx.length →
      ∃ us, rxTakeBuffer s.us = some (some b, us) := by
    intro hlen
    rw [List.drop_of_length_le (Nat.le_of_eq hlen)] at hb
    cases hb
  cases h with
  | @take r us htake =>
    simp only [List.drop_left, List.map_map, List.mem_map,
      Option.mem_toList] at hb
    obtain ⟨c, hc, rfl⟩ := hb
    rw [hc] at htake
    exact ⟨us, htake⟩
  | hold hrx => exact hnone (by simp [hrx])
  | release hrx => exact hnone (by simp [hrx])
  | ret hrx => exact hnone (by simp [hrx])
  | finish hrx => exact hnone (by simp [hrx])
  | write => exact hnone rfl
  | _ => exact absurd rfl ha

/-- **A receiver writes in its own buffers**, those it has and the one it
takes. -/
theorem RxStep.writesIn {cfg : RxConfig} {s t : RxSystem} {a : RxAct}
    (h : RxStep cfg s a t) (ha : a ≠ .peer) {x : List Received}
    (hands : RxHands s.us.io s.us.shm (x ++ s.rx))
    (hroom : ∀ b us, rxTakeBuffer s.us = some (some b, us) →
      RPMSG_HDR_SIZE ≤ b.len.toNat) :
    WritesIn s.us.io
      (outsOf s.rx ++ (t.rx.drop s.rx.length).map (·.buf)) s.us.shm
        t.us.shm := by
  -- the word of a buffer in hand is written
  have hword : ∀ {r : Received} (v : UInt32), r ∈ s.rx → r.count ≠ 0 →
      ∀ bs, WritesIn s.us.io (outsOf s.rx ++ bs) s.us.shm
        (setHdrReserved s.us.io s.us.shm r.buf.data v) := by
    intro r v hr hc bs
    have hin : r ∈ x ++ s.rx := List.mem_append_right _ hr
    have h0 := (hands.books r hin).out hc
    refine (writesIn_setHdrReserved (hands.room _ (mem_outsOf hin h0)) v).mono
      fun y hy => ?_
    rw [List.mem_singleton.mp hy]
    exact List.mem_append_left _ (mem_outsOf hr h0)
  have hrel : ∀ {r : Received} {st : Option Int} {us : RxDevice}, r ∈ s.rx →
      r.count ≠ 0 → rpmsgVirtioReleaseRxBuffer s.us r.buf.data = (st, us) →
      ∀ bs, WritesIn s.us.io (outsOf s.rx ++ bs) s.us.shm us.shm := by
    intro r st us hr hc heq bs
    have hshm := rpmsgVirtioReleaseRxBuffer_mem s.us r.buf.data
    rw [heq] at hshm
    rw [hshm]
    exact hword _ hr hc bs
  cases h with
  | @take b us htake =>
    simp only [rxTakeBuffer_mem htake]
    cases b with
    | none => exact writesIn_refl _ _ _
    | some b =>
      refine (writesIn_noteTxBuffer (hroom b us htake)).mono fun y hy => ?_
      rw [List.mem_singleton.mp hy]
      simp
  | hold hrx hphase hfew =>
    exact hword _ (by simp [hrx]) (by simp [Received.count, hphase]) _
  | release hrx hheld heq =>
    exact hrel (by simp [hrx]) (by simp only [Received.count]; omega) heq _
  | ret hrx hphase => exact writesIn_refl _ _ _
  | finish hrx hphase heq =>
    exact hrel (by simp [hrx]) (by simp [Received.count, hphase]) heq _
  | write hr huse hpay =>
    obtain ⟨h0, hw, -⟩ := hands.write (List.mem_append_right _ hr) huse hpay
    refine hw.mono fun y hy => ?_
    rw [List.mem_singleton.mp hy]
    exact List.mem_append_left _ (mem_outsOf hr h0)
  | _ => exact absurd rfl ha

end Others

/-! ## In any order -/

section Order

/-- Where a member of a list stands in another order of it. -/
theorem split_of_perm {α : Type*} {x : α} {l₁ l₂ m : List α}
    (h : (l₁ ++ x :: l₂).Perm m) :
    ∃ m₁ m₂, m = m₁ ++ x :: m₂ ∧ (l₁ ++ l₂).Perm (m₁ ++ m₂) := by
  have hx : x ∈ m := h.mem_iff.mp (by simp)
  obtain ⟨m₁, m₂, rfl⟩ := List.append_of_mem hx
  refine ⟨m₁, m₂, rfl, (List.perm_cons x).mp ?_⟩
  exact (List.perm_middle.symm.trans h).trans List.perm_middle

theorem perm_insert {α : Type*} {l₁ l₂ m₁ m₂ : List α}
    (h : (l₁ ++ l₂).Perm (m₁ ++ m₂)) (y : α) :
    (l₁ ++ y :: l₂).Perm (m₁ ++ y :: m₂) :=
  (List.perm_middle.trans (h.cons y)).trans List.perm_middle.symm

/-- A sender takes its step in whatever order its buffers are listed. -/
theorem TxStep.perm {cfg : TxConfig} {s t : TxSystem} {a : TxAct}
    (h : TxStep cfg s a t) (ha : a ≠ .peer) {held : List TxHeld}
    (hp : s.held.Perm held) : ∃ held', t.held.Perm held' ∧
      TxStep cfg { s with held := held } a { t with held := held' } := by
  cases h with
  | get hget =>
    exact ⟨_, hp.append_right _,
      @TxStep.get cfg { s with held := held } _ _ hget⟩
  | note hheld =>
    rw [hheld] at hp
    obtain ⟨m₁, m₂, rfl, hrest⟩ := split_of_perm hp
    exact ⟨_, perm_insert hrest _,
      @TxStep.note cfg { s with held := _ } m₁ m₂ _ rfl⟩
  | write hheld hpay =>
    exact ⟨held, hp, @TxStep.write cfg { s with held := held } _ _
      (hp.mem_iff.mp hheld) hpay⟩
  | header src dst len hheld heq =>
    rw [hheld] at hp
    obtain ⟨m₁, m₂, rfl, hrest⟩ := split_of_perm hp
    exact ⟨_, perm_insert hrest _,
      @TxStep.header cfg { s with held := _ } m₁ m₂ _ src dst len _ _ rfl heq⟩
  | enqueue hheld heq =>
    rw [hheld] at hp
    obtain ⟨m₁, m₂, rfl, hrest⟩ := split_of_perm hp
    exact ⟨_, hrest,
      @TxStep.enqueue cfg { s with held := _ } m₁ m₂ _ _ _ _ rfl heq⟩
  | release hheld =>
    rw [hheld] at hp
    obtain ⟨m₁, m₂, rfl, hrest⟩ := split_of_perm hp
    exact ⟨_, hrest, @TxStep.release cfg { s with held := _ } m₁ m₂ _ rfl⟩
  | _ => exact absurd rfl ha

/-- So does a receiver. -/
theorem RxStep.perm {cfg : RxConfig} {s t : RxSystem} {a : RxAct}
    (h : RxStep cfg s a t) (ha : a ≠ .peer) {rx : List Received}
    (hp : s.rx.Perm rx) : ∃ rx', t.rx.Perm rx' ∧
      RxStep cfg { s with rx := rx } a { t with rx := rx' } := by
  cases h with
  | take htake =>
    exact ⟨_, hp.append_right _, @RxStep.take cfg { s with rx := rx } _ _ htake⟩
  | hold hrx hphase hfew =>
    rw [hrx] at hp
    obtain ⟨m₁, m₂, rfl, hrest⟩ := split_of_perm hp
    exact ⟨_, perm_insert hrest _,
      @RxStep.hold cfg { s with rx := _ } m₁ m₂ _ rfl hphase hfew⟩
  | release hrx hheld hrel =>
    rw [hrx] at hp
    obtain ⟨m₁, m₂, rfl, hrest⟩ := split_of_perm hp
    exact ⟨_, perm_insert hrest _,
      @RxStep.release cfg { s with rx := _ } m₁ m₂ _ _ _ rfl hheld hrel⟩
  | ret hrx hphase =>
    rw [hrx] at hp
    obtain ⟨m₁, m₂, rfl, hrest⟩ := split_of_perm hp
    exact ⟨_, perm_insert hrest _,
      @RxStep.ret cfg { s with rx := _ } m₁ m₂ _ rfl hphase⟩
  | finish hrx hphase hrel =>
    rw [hrx] at hp
    obtain ⟨m₁, m₂, rfl, hrest⟩ := split_of_perm hp
    exact ⟨_, perm_insert hrest _,
      @RxStep.finish cfg { s with rx := _ } m₁ m₂ _ _ _ rfl hphase hrel⟩
  | write hr huse hpay =>
    exact ⟨rx, hp, @RxStep.write cfg { s with rx := rx } _ _
      (hp.mem_iff.mp hr) huse hpay⟩
  | _ => exact absurd rfl ha

end Order

end OpenAmp.Rpmsg
