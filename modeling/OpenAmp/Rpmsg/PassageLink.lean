import OpenAmp.Rpmsg.Passage

/-!
# The link under a send

A run in which one send is followed is a run of the link: with the buffer
of the send put back, every step is one of the sender or of the receiver
of its lane, or none. The buffers are in the same hands, if not in the
same order.
-/

namespace OpenAmp.Rpmsg

open OpenAmp.Lib OpenAmp.Metal OpenAmp.Virtio

/-- The same lane, whatever order its buffers are listed in. -/
structure AppLane.Same (l m : AppLane) : Prop where
  ends : m.toLaneEnds = l.toLaneEnds
  held : l.held.Perm m.held
  rx : l.rx.Perm m.rx

section Lane

variable {cfg : AppLaneConfig} {call : SendCall} {shm shm' : Mem}
  {l l' m k : AppLane} {p p' : Passage} {recl : List VqBuffer}
  {pend : List Nat}

theorem AppLane.Same.refl (l : AppLane) : l.Same l := ⟨rfl, .refl _, .refl _⟩

theorem AppLane.Same.symm (h : l.Same m) : m.Same l :=
  ⟨h.ends.symm, h.held.symm, h.rx.symm⟩

theorem AppLane.Same.trans (h : l.Same m) (h' : m.Same k) : l.Same k :=
  ⟨h'.ends.trans h.ends, h.held.trans h'.held, h.rx.trans h'.rx⟩

theorem AppLane.Same.outstanding (h : l.Same m) :
    m.outstanding = l.outstanding := by
  rw [AppLane.outstanding, AppLane.outstanding, h.ends, h.held.length_eq]

/-- A lane takes its step in any order. -/
theorem AppLaneStep.perm (h : AppLaneStep cfg shm l shm' l') (hs : l.Same m) :
    ∃ m', l'.Same m' ∧ AppLaneStep cfg shm m shm' m' := by
  obtain ⟨ends, held, rx⟩ := m
  obtain ⟨rfl, hheld, hrx⟩ := hs
  cases h with
  | @send a t ha h =>
    obtain ⟨held', hp, h'⟩ := h.perm ha hheld
    exact ⟨AppLane.withTx ⟨l.toLaneEnds, held, rx⟩ { t with held := held' },
      ⟨rfl, hp, hrx⟩, AppLaneStep.send (l := ⟨l.toLaneEnds, held, rx⟩) ha h'⟩
  | @receive a t ha h =>
    obtain ⟨rx', hp, h'⟩ := h.perm ha hrx
    exact ⟨AppLane.withRx ⟨l.toLaneEnds, held, rx⟩ { t with rx := rx' },
      ⟨rfl, hheld, hp⟩,
      AppLaneStep.receive (l := ⟨l.toLaneEnds, held, rx⟩) ha h'⟩

/-- **A step with a send in view is a step of the lane**, or none: the
callback's beginning is part of the reception there. -/
theorem PassageStep.lane (hst : PassageStep cfg call shm l p shm' l' p')
    (h : AppInv cfg shm (p.full l) recl pend) (hcall : call.Checked) :
    (∃ m, AppLaneStep cfg shm (p.full l) shm' m ∧ m.Same (p'.full l')) ∨
      (shm' = shm ∧ (p.full l).Same (p'.full l')) := by
  cases hst with
  | other hst hours =>
    cases hst with
    | @send a t ha hst =>
      exact .inl ⟨(p.full l).withTx { t with held := p.held ++ t.held },
        AppLaneStep.send (l := p.full l) ha (hst.beside ha p.held), .refl _⟩
    | @receive a t ha hst =>
      exact .inl ⟨(p.full l).withRx { t with rx := p.rx ++ t.rx },
        AppLaneStep.receive (l := p.full l) ha (hst.beside ha p.rx), .refl _⟩
  | @get _ b rvdev hget =>
    have hst : AppLaneStep cfg shm (Passage.waiting.full l) _ _ :=
      .send (a := .get) nofun (.get hget)
    refine .inl ⟨_, hst, ?_⟩
    cases b with
    | none => exact ⟨rfl, .of_eq (List.append_nil _), .refl _⟩
    | some b => exact ⟨rfl, List.perm_append_singleton _ _, .refl _⟩
  | giveUp => exact .inr ⟨rfl, .refl _⟩
  | @note _ b =>
    have hst : AppLaneStep cfg shm ((Passage.fetched b).full l) _ _ :=
      .send (a := .note) nofun (@TxStep.note _ _ [] l.held b rfl)
    exact .inl ⟨_, hst, .refl _⟩
  | @copy _ _ b n status hcopy =>
    have hst : AppLaneStep cfg shm ((Passage.noted b).full l) _ _ :=
      .send (a := .write) nofun
        (.write List.mem_cons_self (h.copy_payload hcall hcopy))
    exact .inl ⟨_, hst, .refl _⟩
  | @header _ _ b n idx hinit =>
    have hst : AppLaneStep cfg shm ((Passage.copied b n).full l) _ _ :=
      .send (a := .header) nofun
        (@TxStep.header _ _ [] l.held b call.src call.dst n _ _ rfl hinit)
    exact .inl ⟨_, hst, .refl _⟩
  | @enqueue _ b n status notified rvdev henq =>
    have hst : AppLaneStep cfg shm ((Passage.sealed b n).full l) _ _ :=
      .send (a := .enqueue) nofun
        (@TxStep.enqueue _ _ [] l.held b _ _ _ rfl henq)
    exact .inl ⟨_, hst, .refl _⟩
  | @take _ b n rvdev rdev htake =>
    have hst : AppLaneStep cfg shm l _ _ :=
      .receive (a := .take) nofun (.take htake)
    exact .inl ⟨_, hst, rfl, .refl _, List.perm_append_singleton _ _⟩
  | call =>
    exact .inr ⟨rfl, rfl, .refl _, (List.perm_append_singleton _ _).symm⟩

end Lane

/-- The same link, whatever order the buffers of its lanes are listed in. -/
structure AppLink.Same (s t : AppLink) : Prop where
  shm : t.shm = s.shm
  lane : ∀ role, (s.lane role).Same (t.lane role)

section Link

variable {cfg : AppLinkConfig} {role : VirtioRole} {call : SendCall}
  {s t s' k : AppLink} {shm : Mem} {l m : AppLane} {p : Passage}

theorem AppLink.Same.refl (s : AppLink) : s.Same s := ⟨rfl, fun _ => .refl _⟩

theorem AppLink.Same.symm (h : s.Same t) : t.Same s :=
  ⟨h.shm.symm, fun role => (h.lane role).symm⟩

theorem AppLink.Same.trans (h : s.Same t) (h' : t.Same k) : s.Same k :=
  ⟨h'.shm.trans h.shm, fun role => (h.lane role).trans (h'.lane role)⟩

theorem AppLink.Same.setLane (h : s.Same t) (role : VirtioRole) (shm : Mem)
    (hl : l.Same m) : (s.setLane role shm l).Same (t.setLane role shm m) := by
  have hr := h.lane .driver
  have hh := h.lane .device
  cases role
  · exact ⟨rfl, fun role => by cases role <;> assumption⟩
  · exact ⟨rfl, fun role => by cases role <;> assumption⟩

theorem AppLinkStep.lane
    (h : AppLaneStep (cfg.lane role) s.shm (s.lane role) shm l) :
    AppLinkStep cfg s (s.setLane role shm l) := by
  cases role with
  | driver => exact .toRemote h
  | device => exact .toHost h

theorem AppLinkStep.exists_lane (h : AppLinkStep cfg s s') : ∃ role shm l,
    AppLaneStep (cfg.lane role) s.shm (s.lane role) shm l ∧
      s' = s.setLane role shm l := by
  cases h with
  | toRemote h => exact ⟨.driver, _, _, h, rfl⟩
  | toHost h => exact ⟨.device, _, _, h, rfl⟩

theorem AppLinkStep.perm (h : AppLinkStep cfg s s') (hs : s.Same t) :
    ∃ t', s'.Same t' ∧ AppLinkStep cfg t t' := by
  obtain ⟨role, shm, l, hl, rfl⟩ := h.exists_lane
  obtain ⟨m, hm, hl'⟩ := hl.perm (hs.lane role)
  rw [← hs.shm] at hl'
  exact ⟨t.setLane role shm m, hs.setLane role shm hm, .lane hl'⟩

theorem AppLink.withPassage_setLane (s : AppLink) (role : VirtioRole)
    (p : Passage) (shm : Mem) (m : AppLane) :
    (s.withPassage role p).setLane role shm m = s.setLane role shm m := by
  cases role <;> rfl

theorem AppLink.setLane_withPassage (s : AppLink) (role : VirtioRole)
    (p : Passage) (shm : Mem) (l : AppLane) :
    (s.setLane role shm l).withPassage role p =
      s.setLane role shm (p.full l) := by
  cases role <;> rfl

theorem AppLink.setLane_peer_withPassage (s : AppLink) (role : VirtioRole)
    (p : Passage) (shm : Mem) (l : AppLane) :
    (s.setLane role.peer shm l).withPassage role p =
      (s.withPassage role p).setLane role.peer shm l := by
  cases role <;> rfl

/-- **Every step with a send in view is a step of the link**, or none. -/
theorem LinkPassageStep.link {s t : AppLink × Passage}
    (hst : LinkPassageStep cfg role call s t) (h : PassageInv cfg role call s)
    (hcall : call.Checked) :
    (∃ k, AppLinkStep cfg (s.1.withPassage role s.2) k ∧
      k.Same (t.1.withPassage role t.2)) ∨
      (s.1.withPassage role s.2).Same (t.1.withPassage role t.2) := by
  obtain ⟨recl, pend, hinv, -⟩ := h.ours
  cases hst with
  | @lane s p p' shm l hst =>
    rw [AppLink.setLane_withPassage]
    rcases hst.lane hinv hcall with ⟨m, hlane, hm⟩ | ⟨rfl, hm⟩
    · have hl : AppLaneStep (cfg.lane role) (s.withPassage role p).shm
          ((s.withPassage role p).lane role) shm m := by
        cases role <;> exact hlane
      refine .inl ⟨_, .lane hl, ?_⟩
      rw [AppLink.withPassage_setLane]
      exact (AppLink.Same.refl s).setLane role shm hm
    · exact .inr ((AppLink.Same.refl s).setLane role s.shm hm)
  | @otherLane s p shm l hst =>
    have hl : AppLaneStep (cfg.lane role.peer) (s.withPassage role p).shm
        ((s.withPassage role p).lane role.peer) shm l := by
      cases role <;> exact hst
    refine .inl ⟨_, .lane hl, ?_⟩
    rw [AppLink.setLane_peer_withPassage]
    exact .refl _

/-- **A run with a send in view is a run of the link.** -/
theorem PassageReachable.link {s : AppLink × Passage}
    (h : PassageReachable cfg role call s) (hcall : call.Checked) :
    ∃ k, AppLinkReachable cfg k ∧ k.Same (s.1.withPassage role s.2) := by
  refine Reachable.invariant (P := fun s => ∃ k, AppLinkReachable cfg k ∧
    k.Same (s.1.withPassage role s.2)) ?_ ?_ h
  · rintro ⟨s, p⟩ ⟨hs, rfl⟩
    refine ⟨s, hs, ?_⟩
    cases role <;> exact .refl _
  · rintro s t hs ⟨k, hk, hsame⟩ ⟨hst, hbound⟩
    have hinv := PassageReachable.inv hs hcall
    rcases hst.link hinv hcall with ⟨k₁, hstep, hk₁⟩ | hk₁
    · obtain ⟨k₂, hk₂, hstep⟩ := hstep.perm hsame.symm
      have hs₂ : k₂.Same (t.1.withPassage role t.2) := hk₂.symm.trans hk₁
      refine ⟨k₂, hk.next ⟨hstep, ?_⟩, hs₂⟩
      exact (hs₂.lane .driver).outstanding ▸ hbound
    · exact ⟨k, hk, hsame.trans hk₁⟩

end Link

end OpenAmp.Rpmsg
