import OpenAmp.Rpmsg.Hands

/-!
# Receive buffers are returned once

Every step of the reception system keeps the invariant. The two places
that give up a hold, `rpmsg_release_rx_buffer` and the second locked part
of the callback's round, are one lemma: whichever of them comes last puts
the buffer back, and no other does.
-/

namespace OpenAmp.Rpmsg

open OpenAmp.Lib OpenAmp.Metal OpenAmp.Virtio

variable {cfg : RxConfig} {s : RxSystem} {f : Flow} {l₁ l₂ : List Received}
  {r : Received}

theorem RxSystem.outs_eq (s : RxSystem) : s.outs = outsOf s.rx := rfl

theorem RxInv.hands (h : RxInv cfg s f) :
    RxHands s.us.io s.us.shm s.rx := by
  obtain ⟨hapart, hroom⟩ := h.side.apart
  rw [← h.io] at hapart
  exact ⟨h.books, h.words, hapart, hroom⟩

/-- A step that leaves the same buffers in our hands. -/
theorem RxInv.change (h : RxInv cfg s f) {shm : Mem} {rx : List Received}
    (hands : RxHands s.us.io shm rx) (hp : (outsOf s.rx).Perm (outsOf rx)) :
    RxInv cfg { s with us := { s.us with shm := shm }, rx := rx } f :=
  ⟨h.io, hands.books, hands.words, (h.side.withShm shm).perm hp⟩

theorem RxInv.side_out (h : RxInv cfg s f) (hrx : s.rx = l₁ ++ r :: l₂)
    (h0 : r.putBacks = 0) :
    RxSide cfg (r.buf :: outsOf (l₁ ++ l₂)) s.us s.peer s.taken f := by
  refine h.side.perm ?_
  rw [s.outs_eq, hrx]
  exact outsOf_out l₁ l₂ h0

theorem RxInv.hold (h : RxInv cfg s f) (hrx : s.rx = l₁ ++ r :: l₂)
    (hphase : r.phase = .calling) (hfew : r.holds + 1 < 65535) :
    RxInv cfg { s with
      us := rpmsgVirtioHoldRxBuffer s.us r.buf.data
      rx := l₁ ++ { r with holds := r.holds + 1 } :: l₂ } f := by
  have hands := h.hands
  have h0 := (h.books r (by simp [hrx])).out (by simp [Received.count, hphase])
  rw [hrx] at hands
  refine h.change (hands.hold hphase hfew).2 ?_
  rw [hrx]
  exact outsOf_same h0 h0 rfl

/-- **Giving up one hold** of a reception: the buffer is put back if it
was the last one, and stays with us otherwise. -/
theorem RxInv.giveUp (h : RxInv cfg s f) (r' : Received)
    (hrx : s.rx = l₁ ++ r :: l₂) (hbuf : r'.buf = r.buf) (hle : r'.releases ≤ r'.holds)
    (hfew : r'.holds < 65535) (hcount : r.count = r'.count + 1)
    {st : Option Int} {us' : RxDevice}
    (hrel : rpmsgVirtioReleaseRxBuffer s.us r.buf.data = (st, us')) :
    let t : RxSystem := { s with
      us := us'
      rx := l₁ ++ { r' with putBacks := r.putBacks + st.toList.length } :: l₂ }
    (∃ f', RxInv cfg t f') ∧ RxEffect cfg s t := by
  intro t
  have hands := h.hands
  rw [hrx] at hands
  obtain ⟨h0, shm, -, ⟨heq, hstay⟩ | ⟨hlast, hback⟩⟩ :=
    hands.giveUp hbuf hle hfew hcount
  · -- somebody else still holds the buffer
    rw [heq] at hrel
    cases hrel
    refine ⟨⟨f, h.change hstay ?_⟩, .inl ⟨rfl, rfl, ?_⟩⟩
    · rw [hrx]
      exact outsOf_same h0 h0 hbuf
    · simp [t, hrx]
  · -- this was the last hold
    obtain ⟨us₁, f', hret, hio, hshm, hput, hside⟩ :=
      ((h.side_out hrx h0).withShm shm).putBack
    rw [hlast _ _ hret] at hrel
    cases hrel
    have hgone : r.putBacks + 1 ≠ 0 := Nat.succ_ne_zero _
    refine ⟨⟨f', hio.trans h.io, hback.books, fun x hx hx0 => ?_, ?_⟩, ?_⟩
    · simp only [t, hio, hshm]
      exact hback.words x hx hx0
    · have houts : t.outs = outsOf (l₁ ++ l₂) := outsOf_back hgone
      rw [houts]
      exact hside
    · exact .inr ⟨l₁, r, _, l₂, hrx, rfl, hbuf, rfl, hput⟩

/-! ## Every step -/

theorem RxInv.take (h : RxInv cfg s f) {b : Option VqBuffer} {us : RxDevice}
    (htake : rxTakeBuffer s.us = some (b, us)) :
    ∃ f', RxInv cfg { s with
      us := us
      rx := s.rx ++ b.toList.map fun b => ⟨b, .calling, 0, 0, 0⟩ } f' := by
  obtain ⟨⟨b', us'⟩, hget, -⟩ := Option.map_eq_some_iff.mp htake
  rw [rxTakeBuffer_eq hget] at htake
  rcases h.side.get hget with ⟨rfl, rfl⟩ | ⟨x, f', rfl, hio, hshm, hside⟩
  · cases htake
    exact ⟨f, by simpa using h⟩
  · cases htake
    obtain ⟨hapart, hroom⟩ := hside.apart
    rw [← h.io] at hapart
    have hnew := (h.hands.take (List.pairwise_cons.mp hapart).1
      (hroom x (by simp))).2
    refine ⟨f', hio.trans h.io, hnew.books, fun r hr h0 => ?_, ?_⟩
    · simp only [Option.elim_some, hio, hshm]
      exact hnew.words r hr h0
    · refine (hside.withShm _).perm ?_
      rw [s.outs_eq, RxSystem.outs_eq, outsOf_append]
      exact (List.perm_append_singleton _ _).symm

theorem RxInv.ret (h : RxInv cfg s f) (hrx : s.rx = l₁ ++ r :: l₂)
    (hphase : r.phase = .calling) :
    RxInv cfg { s with rx := l₁ ++ { r with phase := .returned } :: l₂ } f := by
  have hands := h.hands
  have h0 := (h.books r (by simp [hrx])).out (by simp [Received.count, hphase])
  rw [hrx] at hands
  refine h.change (hands.ret hphase) ?_
  rw [hrx]
  exact outsOf_same h0 h0 rfl

theorem RxInv.write (h : RxInv cfg s f) {shm : Mem} (hr : r ∈ s.rx)
    (huse : r.phase = .calling ∨ r.releases < r.holds)
    (hpay : ∀ x, (x < shmOff s.us.io r.buf.data + RPMSG_HDR_SIZE ∨
      shmOff s.us.io r.buf.data + r.buf.len.toNat ≤ x) →
      shm x = s.us.shm x) :
    RxInv cfg { s with us := { s.us with shm := shm } } f :=
  h.change (h.hands.write hr huse hpay).2.2 (.refl _)

theorem RxInv.peerWrite (h : RxInv cfg s f) {shm : Mem}
    (hown : ∀ b ∈ s.outs, Agree s.us.shm shm (b.span s.us.io).start
      (b.span s.us.io).len) :
    RxInv cfg { s with us := { s.us with shm := shm } } f :=
  h.change (h.hands.congr hown) (.refl _)

/-- A queue call of the peer. -/
theorem RxInv.peerQueue (h : RxInv cfg s f) {ring : Vring} {peer : Virtqueue}
    {taken : List AvailableBuffer} {f' : Flow}
    (hs : RxSide cfg s.outs { s.us with ring := ring } peer taken f') :
    RxInv cfg { s with
      us := { s.us with ring := ring }
      peer := peer
      taken := taken } f' :=
  ⟨h.io, h.books, h.words, hs⟩

theorem RxInv.release (h : RxInv cfg s f) (hrx : s.rx = l₁ ++ r :: l₂)
    (hheld : r.releases < r.holds) {st : Option Int} {us' : RxDevice}
    (hrel : rpmsgVirtioReleaseRxBuffer s.us r.buf.data = (st, us')) :
    let t : RxSystem := { s with
      us := us'
      rx := l₁ ++ { r with
        releases := r.releases + 1
        putBacks := r.putBacks + st.toList.length } :: l₂ }
    (∃ f', RxInv cfg t f') ∧ RxEffect cfg s t := by
  have hok := h.books r (by simp [hrx])
  refine h.giveUp { r with releases := r.releases + 1 } hrx rfl hheld
    hok.few ?_ hrel
  simp only [Received.count]
  omega

theorem RxInv.finish (h : RxInv cfg s f) (hrx : s.rx = l₁ ++ r :: l₂)
    (hphase : r.phase = .returned) {st : Option Int} {us' : RxDevice}
    (hrel : rpmsgVirtioReleaseRxBuffer s.us r.buf.data = (st, us')) :
    let t : RxSystem := { s with
      us := us'
      rx := l₁ ++ { r with
        phase := .finished
        putBacks := r.putBacks + st.toList.length } :: l₂ }
    (∃ f', RxInv cfg t f') ∧ RxEffect cfg s t := by
  have hok := h.books r (by simp [hrx])
  refine h.giveUp { r with phase := .finished } hrx rfl hok.le
    hok.few ?_ hrel
  simp only [Received.count, hphase]
  simp
  omega

theorem rxInv_init {cfg : RxConfig} {s : RxSystem}
    (h : RxSystem.init cfg = some s) : ∃ f, RxInv cfg s f := by
  have hcar := carries_init cfg.vq
  unfold RxSystem.init at h
  cases hr : cfg.role with
  | driver =>
    simp only [hr, Option.map_eq_some_iff] at h
    obtain ⟨⟨pool', rvq, ring⟩, hloop, rfl⟩ := h
    obtain ⟨hfit, -, -, -, -, chains, f', hcar', ha, hh, hu, hcut, hbare⟩ :=
      rpmsgInitRxBuffers_spec _ (cfg.pool_ok hr) hcar
        (by simp [Flow.init, Flow.live])
        (by simp [Flow.init]) hloop
    have hlive : f'.live = chains := by
      simp [Flow.live, ha, hh, hu, Flow.init]
    refine ⟨f', rfl, by simp, by simp, ?_⟩
    simp only [RxSide, hr]
    refine ⟨hcar', hbare, ?_, by simp [hu, Flow.init], by simp [RxSystem.outs],
      by simp [hh, Flow.init], hfit, ?_⟩
    · -- every entry of the queue is lent out
      intro i hi
      have hfull : f'.live.length = cfg.vq.num := by
        have := congrArg List.length hcut
        simp only [ShmPool.cut, List.length_map, List.length_range] at this
        rw [hlive, this]
      obtain ⟨c, hc, rfl⟩ := hcar'.head_of_full hfull hi
      exact (hcar'.chain hc).len.trans (hbare c hc).len
    · simp only [RxSystem.outs, List.filter_nil, List.map_nil,
        List.nil_append, hlive, hcut]
      exact .refl _
  | device =>
    simp only [hr, Option.some.injEq] at h
    subst h
    refine ⟨Flow.init cfg.vq, rfl, by simp, by simp, ?_⟩
    simp only [RxSide, hr]
    exact ⟨hcar, by simp [Flow.init, Flow.live], by simp [RxSystem.outs, Flow.init],
      by simp [Flow.init, Flow.live]⟩

/-- **One step keeps the reception invariant.** -/
theorem RxInv.step (h : RxInv cfg s f) {a : RxAct} {t : RxSystem}
    (hst : RxStep cfg s a t) : ∃ f', RxInv cfg t f' := by
  have hside := h.side
  cases hst with
  | take htake => exact h.take htake
  | hold hrx hphase hfew => exact ⟨f, h.hold hrx hphase hfew⟩
  | release hrx hheld hrel => exact (h.release hrx hheld hrel).1
  | ret hrx hphase => exact ⟨f, h.ret hrx hphase⟩
  | finish hrx hphase hrel => exact (h.finish hrx hphase hrel).1
  | write hr huse hpay => exact ⟨f, h.write hr huse hpay⟩
  | peerWrite hown => exact ⟨f, h.peerWrite hown⟩
  | peerTake hr hget =>
    simp only [RxSide, hr] at hside
    obtain ⟨f', hs⟩ := hside.peerTake hget
    exact ⟨f', h.peerQueue (by simp only [RxSide, hr]; exact hs)⟩
  | peerPut hr ha hroom hput =>
    simp only [RxSide, hr] at hside
    obtain ⟨f', hs⟩ := hside.peerPut ha hroom hput
    exact ⟨f', h.peerQueue (by simp only [RxSide, hr]; exact hs)⟩
  | peerAdd hr hfree hbuf hview hroom hapart hadd =>
    simp only [RxSide, hr] at hside
    have hio : s.us.io = cfg.vq.devIo := by rw [h.io, RxConfig.io, hr]
    obtain ⟨f', hs⟩ := hside.peerAdd hio hfree hbuf hview hroom hapart hadd
    exact ⟨f', h.peerQueue (by simp only [RxSide, hr]; exact hs)⟩
  | peerGet hr hget =>
    simp only [RxSide, hr] at hside
    obtain ⟨f', hs⟩ := hside.peerGet hget
    exact ⟨f', h.peerQueue (by simp only [RxSide, hr]; exact hs)⟩
  | peerKick =>
    exact ⟨f, h.peerQueue
      (h.side.peerNotify (SameQueues.refl cfg.vq s.us.ring))⟩
  | peerEnableCb =>
    exact ⟨f, h.peerQueue
      (h.side.peerNotify (sameQueues_enableCb _ h.side.peerRing))⟩
  | peerDisableCb =>
    exact ⟨f, h.peerQueue
      (h.side.peerNotify (sameQueues_disableCb _ h.side.peerRing))⟩

/-- **Every reachable state satisfies the reception invariant.** -/
theorem rxReachable_inv (h : RxReachable cfg s) : ∃ f, RxInv cfg s f := by
  refine Reachable.invariant (P := fun s => ∃ f, RxInv cfg s f) ?_ ?_ h
  · exact fun s hs => rxInv_init hs
  · rintro s t - ⟨f, hinv⟩ ⟨a, hst⟩
    exact hinv.step hst

/-- What the steps on received buffers do to the queue. -/
theorem RxInv.effect (h : RxInv cfg s f) {a : RxAct} {t : RxSystem}
    (hst : RxStep cfg s a t) (ha : a ≠ .take) (hp : a ≠ .peer) :
    RxEffect cfg s t := by
  cases hst with
  | take => exact absurd rfl ha
  | hold hrx => exact .inl ⟨rfl, rfl, by simp [hrx]⟩
  | release hrx hheld hrel => exact (h.release hrx hheld hrel).2
  | ret hrx => exact .inl ⟨rfl, rfl, by simp [hrx]⟩
  | finish hrx hphase hrel => exact (h.finish hrx hphase hrel).2
  | write => exact .inl ⟨rfl, rfl, rfl⟩
  | peerWrite => exact absurd rfl hp
  | peerTake => exact absurd rfl hp
  | peerPut => exact absurd rfl hp
  | peerAdd => exact absurd rfl hp
  | peerGet => exact absurd rfl hp
  | peerKick => exact absurd rfl hp
  | peerEnableCb => exact absurd rfl hp
  | peerDisableCb => exact absurd rfl hp

/-! ## Scripted runs of a driver -/

/-- A call on the reception of the given number, or a call of the peer:
taking the next buffer, and sending the first one taken. -/
inductive RxCmd where
  | take
  | hold (i : Nat)
  | release (i : Nat)
  | ret (i : Nat)
  | finish (i : Nat)
  | peerTake
  | peerPut

/-- The state after a call; a call that is not allowed does nothing. -/
def RxSystem.exec (s : RxSystem) : RxCmd → RxSystem
  | .take =>
    match rxTakeBuffer s.us with
    | none => s
    | some (b, us) => { s with
        us := us
        rx := s.rx ++ b.toList.map fun b => ⟨b, .calling, 0, 0, 0⟩ }
  | .hold i =>
    match s.rx[i]? with
    | none => s
    | some r =>
      if r.phase = .calling ∧ r.holds + 1 < 65535 then { s with
        us := rpmsgVirtioHoldRxBuffer s.us r.buf.data
        rx := s.rx.take i ++ { r with holds := r.holds + 1 } ::
          s.rx.drop (i + 1) }
      else s
  | .release i =>
    match s.rx[i]? with
    | none => s
    | some r =>
      if r.releases < r.holds then
        let (st, us) := rpmsgVirtioReleaseRxBuffer s.us r.buf.data
        { s with
          us := us
          rx := s.rx.take i ++ { r with
            releases := r.releases + 1
            putBacks := r.putBacks + st.toList.length } ::
              s.rx.drop (i + 1) }
      else s
  | .ret i =>
    match s.rx[i]? with
    | none => s
    | some r =>
      if r.phase = .calling then { s with
        rx := s.rx.take i ++ { r with phase := .returned } ::
          s.rx.drop (i + 1) }
      else s
  | .finish i =>
    match s.rx[i]? with
    | none => s
    | some r =>
      if r.phase = .returned then
        let (st, us) := rpmsgVirtioReleaseRxBuffer s.us r.buf.data
        { s with
          us := us
          rx := s.rx.take i ++ { r with
            phase := .finished
            putBacks := r.putBacks + st.toList.length } ::
              s.rx.drop (i + 1) }
      else s
  | .peerTake =>
    let (r, peer) := virtqueueGetAvailableBuffer s.peer s.us.ring
    { s with peer := peer, taken := s.taken ++ r.toList }
  | .peerPut =>
    match s.taken.head? with
    | none => s
    | some a =>
      let len := virtqueueGetBufferLength s.us.ring a.availIdx
      if RPMSG_HDR_SIZE ≤ len.toNat then
        let (_, peer, ring) :=
          virtqueueAddConsumedBuffer s.peer s.us.ring a.availIdx len
        { s with
          us := { s.us with ring := ring }
          peer := peer
          taken := s.taken.erase a }
      else s

/-- The step a call is. -/
def RxCmd.act : RxCmd → RxAct
  | .take => .take
  | .hold _ => .hold
  | .release _ => .release
  | .ret _ => .ret
  | .finish _ => .finish
  | .peerTake | .peerPut => .peer

theorem RxSystem.exec_step (s : RxSystem) (c : RxCmd)
    (hr : c.act = .peer → cfg.role = .driver) :
    s.exec c = s ∨ RxStep cfg s c.act (s.exec c) := by
  cases c with
  | take =>
    simp only [RxSystem.exec]
    split
    · exact .inl rfl
    · next b us heq => exact .inr (.take heq)
  | hold i =>
    simp only [RxSystem.exec]
    split
    · exact .inl rfl
    · next r heq =>
      split
      · next h => exact .inr (.hold (split_getElem? heq) h.1 h.2)
      · exact .inl rfl
  | release i =>
    simp only [RxSystem.exec]
    split
    · exact .inl rfl
    · next r heq =>
      split
      · next h => exact .inr (.release (split_getElem? heq) h rfl)
      · exact .inl rfl
  | ret i =>
    simp only [RxSystem.exec]
    split
    · exact .inl rfl
    · next r heq =>
      split
      · next h => exact .inr (.ret (split_getElem? heq) h)
      · exact .inl rfl
  | finish i =>
    simp only [RxSystem.exec]
    split
    · exact .inl rfl
    · next r heq =>
      split
      · next h => exact .inr (.finish (split_getElem? heq) h rfl)
      · exact .inl rfl
  | peerTake => exact .inr (.peerTake (hr rfl) rfl)
  | peerPut =>
    simp only [RxSystem.exec]
    split
    · exact .inl rfl
    · next a heq =>
      split
      · next h =>
        exact .inr (.peerPut (hr rfl) (List.mem_of_mem_head? heq) h rfl)
      · exact .inl rfl

/-- The state a script reaches from the initial one. -/
def RxSystem.run (cfg : RxConfig) (cs : List RxCmd) : Option RxSystem :=
  (RxSystem.init cfg).map fun s => cs.foldl RxSystem.exec s

theorem RxReachable.run (hr : cfg.role = .driver) {cs : List RxCmd}
    (h : RxSystem.run cfg cs = some s) : RxReachable cfg s := by
  obtain ⟨s₀, h0, rfl⟩ := Option.map_eq_some_iff.mp h
  exact Reachable.script (fun s c _ => (s.exec_step c fun _ => hr).imp_right
    fun hst => ⟨_, hst⟩) cs (.start h0) (passes_true _ cs)

/-- The region of the example: four kilobytes mapped at `0x1000`. -/
def rxIo : MetalIoRegion :=
  metalIoInit 0x1000 (some fun _ => 0x1000) 0x1000 64

/-- A driver with two receive buffers of 64 bytes. -/
def rxPairConfig : RxConfig where
  vq := ⟨1, order_one_le, 0, 0, rxIo, rxIo, true, true⟩
  role := .driver
  r2hBufSize := 64
  shpool := rpmsgVirtioInitShmPool 0x1000 0x100
  shm := fun _ => 0
  pool_ok := fun _ => ⟨by decide, by decide, by decide, by decide⟩

/-! ## The result -/

/-- **Receive buffers are returned once and never early.** In every state
a reception has been put back once if its callback has returned and all
holds are released, and not at all otherwise; and whenever a step on a
received buffer changes the queue, it puts that one buffer back, a driver
with a free descriptor at hand, a device under the original index. -/
theorem rx_returned_once {cfg : RxConfig} {s : RxSystem}
    (h : RxReachable cfg s) :
    s.ReturnedOnce ∧ ∀ a t, RxStep cfg s a t → a ≠ .take → a ≠ .peer →
      RxEffect cfg s t := by
  obtain ⟨f, hinv⟩ := rxReachable_inv h
  refine ⟨fun r hr => ?_, fun a t hst ha hp => hinv.effect hst ha hp⟩
  have hok := hinv.books r hr
  simp only [hok.once, Received.count_eq_zero hok.le]

/-- A message held once and released after the callback: the release puts
the buffer back, the callback's return before it does not. -/
theorem rx_returned_once_held :
    ∃ s, RxSystem.run rxPairConfig [.peerTake, .peerPut, .take, .hold 0,
        .ret 0, .finish 0, .release 0] = some s ∧
      s.rx.map (·.putBacks) = [1] ∧
      s.ReturnedOnce ∧ ∀ a t, RxStep rxPairConfig s a t → a ≠ .take →
        a ≠ .peer → RxEffect rxPairConfig s t := by
  obtain ⟨s, hs⟩ := Option.isSome_iff_exists.mp
    (show (RxSystem.run rxPairConfig [.peerTake, .peerPut, .take, .hold 0,
      .ret 0, .finish 0, .release 0]).isSome = true by decide +kernel)
  have hput : (RxSystem.run rxPairConfig [.peerTake, .peerPut, .take, .hold 0,
      .ret 0, .finish 0, .release 0]).map (fun s => s.rx.map (·.putBacks)) =
        some [1] := by decide +kernel
  rw [hs] at hput
  exact ⟨s, hs, Option.some.inj hput, rx_returned_once (.run rfl hs)⟩

end OpenAmp.Rpmsg
