import Mathlib.Logic.Function.Basic
import OpenAmp.Lib.Transition

/-!
# Binding by announcement

Two parties, each with at most one port open at a time, announce their
ports to each other over in-order channels: `create` when one opens,
`destroy` when it closes, and `data` from port to port in between. A
port binds to what it hears of first — an announcement or the source of
a message — and unbinds when that is destroyed.

Whatever the interleaving, and although addresses may be used again: a
port bound to `x` is bound to the peer's open port, or the `destroy` of
`x` is still under way. So two parties with empty channels agree.
-/

namespace OpenAmp.Lib

variable {α : Type*}

/-- What travels from one party to the other. -/
inductive Announce (α : Type*) where
  | create (x : α)
  | destroy (x : α)
  | data (src dst : α)

/-- An open port: its address and what it is bound to. -/
structure Port (α : Type*) where
  addr : α
  dest : Option α

/-- Both parties' ports and the messages under way from either. -/
structure Parties (α : Type*) where
  port : Bool → Option (Port α)
  chan : Bool → List (Announce α)

/-- What hearing a message does to a port. -/
def Port.hear [DecidableEq α] (p : Port α) : Announce α → Port α
  | .create x =>
    if p.dest = none ∨ p.dest = some x then { p with dest := some x } else p
  | .destroy x =>
    if p.dest = none ∨ p.dest = some x then { p with dest := none } else p
  | .data src dst =>
    if p.addr = dst ∧ p.dest = none then { p with dest := some src } else p

/-- Message `m` leaves party `i`. -/
def Parties.emit (s : Parties α) (i : Bool) (m : Announce α) : Parties α :=
  { s with chan := Function.update s.chan i (s.chan i ++ [m]) }

/-- The port of party `i` becomes `p`. -/
def Parties.setPort (s : Parties α) (i : Bool) (p : Option (Port α)) :
    Parties α :=
  { s with port := Function.update s.port i p }

inductive Parties.Step [DecidableEq α] : Parties α → Parties α → Prop where
  | openPort {s : Parties α} (i : Bool) (x : α) (h : s.port i = none) :
      Step s (s.setPort i (some ⟨x, none⟩))
  | announce {s : Parties α} (i : Bool) {p : Port α} (h : s.port i = some p) :
      Step s (s.emit i (.create p.addr))
  | close {s : Parties α} (i : Bool) {p : Port α} (h : s.port i = some p) :
      Step s ((s.emit i (.destroy p.addr)).setPort i none)
  | send {s : Parties α} (i : Bool) {p : Port α} {d : α}
      (h : s.port i = some p) (hd : p.dest = some d) :
      Step s (s.emit i (.data p.addr d))
  | deliver {s : Parties α} (i : Bool) {m : Announce α}
      {rest : List (Announce α)} (h : s.chan i = m :: rest) :
      Step s ({ s with chan := Function.update s.chan i rest }.setPort (!i)
        ((s.port !i).map (Port.hear · m)))

/-- Address `x` belongs to the open port `p`, or its end is announced in
`q`. -/
def Owned (p : Option (Port α)) (q : List (Announce α)) (x : α) : Prop :=
  (∃ o, p = some o ∧ o.addr = x) ∨ .destroy x ∈ q

/-- The address a message speaks for. -/
def Announce.origin : Announce α → Option α
  | .create x => some x
  | .destroy _ => none
  | .data src _ => some src

/-- Every message of `q` speaks for an address that is owned as far as
the messages behind it say. -/
def Spoken (p : Option (Port α)) : List (Announce α) → Prop
  | [] => True
  | m :: q => (∀ x, m.origin = some x → Owned p q x) ∧ Spoken p q

/-- The port of party `i`, the messages from it and what its peer is
bound to are consistent. -/
structure Parties.Consistent (s : Parties α) (i : Bool) : Prop where
  bound : ∀ p x, s.port (!i) = some p → p.dest = some x →
    Owned (s.port i) (s.chan i) x
  spoken : Spoken (s.port i) (s.chan i)

variable {s : Parties α} {i : Bool} {p : Option (Port α)} {o : Port α}
  {q : List (Announce α)} {m : Announce α} {x : α}

/-! ## One direction -/

theorem Owned.append (h : Owned p q x) (m : Announce α) :
    Owned p (q ++ [m]) x :=
  h.imp_right fun hm => List.mem_append_left _ hm

/-- Opening a port takes nothing away. -/
theorem Owned.opened (h : Owned none q x) (p : Option (Port α)) :
    Owned p q x := by
  rcases h with ⟨o, ho, -⟩ | hd
  · cases ho
  · exact .inr hd

/-- What belonged to a port is announced as destroyed when it closes. -/
theorem Owned.closed (h : Owned (some o) q x) :
    Owned none (q ++ [.destroy o.addr]) x := by
  rcases h with ⟨o', ho, rfl⟩ | hd
  · cases ho
    exact .inr (by simp)
  · exact .inr (List.mem_append_left _ hd)

/-- A message other than the end of `x` may be taken off the front. -/
theorem Owned.tail (h : Owned p (m :: q) x) (hm : m ≠ .destroy x) :
    Owned p q x :=
  h.imp_right fun hd => (List.mem_cons.mp hd).resolve_left (Ne.symm hm)

theorem Spoken.opened (h : Spoken none q) (p : Option (Port α)) :
    Spoken p q := by
  induction q with
  | nil => trivial
  | cons m q ih => exact ⟨fun x hx => (h.1 x hx).opened p, ih h.2⟩

theorem Spoken.closed (h : Spoken (some o) q) :
    Spoken none (q ++ [.destroy o.addr]) := by
  induction q with
  | nil =>
    refine ⟨fun x hx => ?_, trivial⟩
    cases hx
  | cons m q ih => exact ⟨fun x hx => (h.1 x hx).closed, ih h.2⟩

theorem Spoken.emit (h : Spoken (some o) q)
    (hm : ∀ x, m.origin = some x → o.addr = x) : Spoken (some o) (q ++ [m]) := by
  induction q with
  | nil => exact ⟨fun x hx => .inl ⟨o, rfl, hm x hx⟩, trivial⟩
  | cons m' q ih => exact ⟨fun x hx => (h.1 x hx).append m, ih h.2⟩

/-- **Agreement at rest.** When nothing is under way from `i`, its peer
is bound to nothing or to the port `i` has open. -/
theorem Parties.Consistent.agree (h : s.Consistent i) (hq : s.chan i = [])
    (hp : s.port (!i) = some o) :
    o.dest = none ∨ ∃ o', s.port i = some o' ∧ o.dest = some o'.addr := by
  cases hd : o.dest with
  | none => exact .inl rfl
  | some x =>
    rcases h.bound o x hp hd with ⟨o', ho', rfl⟩ | hmem
    · exact .inr ⟨o', ho', rfl⟩
    · rw [hq] at hmem
      cases hmem

/-! ## Every step keeps both directions consistent -/

theorem Parties.Consistent.of_both (h : s.Consistent i)
    (h' : s.Consistent (!i)) : ∀ j, s.Consistent j := by
  intro j
  by_cases hij : j = i
  · exact hij ▸ h
  · rwa [show j = !i from by cases i <;> cases j <;> simp_all]

/-- A message that speaks for the sender's own port. -/
theorem Parties.consistent_emit (h : ∀ j, s.Consistent j)
    (hp : s.port i = some o) (hm : ∀ x, m.origin = some x → o.addr = x) :
    ∀ j, (s.emit i m).Consistent j := by
  refine Parties.Consistent.of_both (i := i) ⟨fun p x hpeer hx => ?_, ?_⟩ ?_
  · simp only [Parties.emit, Function.update_self]
    exact ((h i).bound p x hpeer hx).append m
  · have hspoken := (h i).spoken
    simp only [Parties.emit, Function.update_self, hp] at hspoken ⊢
    exact hspoken.emit hm
  · have hchan : (s.emit i m).chan (!i) = s.chan (!i) := by simp [Parties.emit]
    exact ⟨by rw [hchan]; exact (h !i).bound, by rw [hchan]; exact (h !i).spoken⟩

theorem Parties.consistent_open (h : ∀ j, s.Consistent j)
    (hp : s.port i = none) (x : α) :
    ∀ j, (s.setPort i (some ⟨x, none⟩)).Consistent j := by
  have hown := h i
  refine Parties.Consistent.of_both (i := i) ⟨fun p y hpeer hy => ?_, ?_⟩
    ⟨fun p y hpeer hy => ?_, ?_⟩
  · have hpeer' : s.port (!i) = some p := by
      simpa [Parties.setPort] using hpeer
    have := hown.bound p y hpeer' hy
    rw [hp] at this
    exact this.opened _
  · have := hown.spoken
    rw [hp] at this
    exact this.opened _
  · -- the new port is bound to nothing
    simp only [Parties.setPort, Bool.not_not, Function.update_self,
      Option.some.injEq] at hpeer
    subst hpeer
    cases hy
  · have := (h !i).spoken
    simpa [Parties.setPort] using this

theorem Parties.consistent_close (h : ∀ j, s.Consistent j)
    (hp : s.port i = some o) :
    ∀ j, ((s.emit i (.destroy o.addr)).setPort i none).Consistent j := by
  have hown := h i
  refine Parties.Consistent.of_both (i := i) ⟨fun p y hpeer hy => ?_, ?_⟩
    ⟨fun p y hpeer hy => ?_, ?_⟩
  · have hpeer' : s.port (!i) = some p := by
      simpa [Parties.setPort, Parties.emit] using hpeer
    have := hown.bound p y hpeer' hy
    simp only [Parties.setPort, Parties.emit, Function.update_self]
    rw [hp] at this
    exact this.closed
  · have := hown.spoken
    simp only [Parties.setPort, Parties.emit, Function.update_self]
    rw [hp] at this
    exact this.closed
  · simp only [Parties.setPort, Bool.not_not, Function.update_self] at hpeer
    cases hpeer
  · have := (h !i).spoken
    simpa [Parties.setPort, Parties.emit] using this

variable [DecidableEq α]

theorem Port.hear_addr (o : Port α) (m : Announce α) :
    (o.hear m).addr = o.addr := by
  cases m <;> simp only [Port.hear] <;> split <;> rfl

/-- What a port is bound to after hearing `m`: what `m` speaks for, or
what it was bound to before, and that was not destroyed by `m`. -/
theorem Port.hear_dest {o : Port α} {m : Announce α} {x : α}
    (h : (o.hear m).dest = some x) :
    m.origin = some x ∨ (o.dest = some x ∧ m ≠ .destroy x) := by
  cases m with
  | create y =>
    simp only [Port.hear] at h
    split at h
    · exact .inl h
    · exact .inr ⟨h, by simp⟩
  | destroy y =>
    simp only [Port.hear] at h
    split at h
    · cases h
    · next hno =>
      refine .inr ⟨h, fun heq => hno (.inr ?_)⟩
      cases heq
      exact h
  | data src dst =>
    simp only [Port.hear] at h
    split at h
    · exact .inl h
    · exact .inr ⟨h, by simp⟩

theorem Parties.consistent_deliver (h : ∀ j, s.Consistent j)
    (hq : s.chan i = m :: q) :
    ∀ j, ({ s with chan := Function.update s.chan i q }.setPort (!i)
      ((s.port !i).map (Port.hear · m))).Consistent j := by
  have hown := h i
  have hspoken := hown.spoken
  rw [hq] at hspoken
  have hport : Function.update s.port (!i)
      ((s.port !i).map (Port.hear · m)) i = s.port i := by
    simp
  refine Parties.Consistent.of_both (i := i) ⟨fun p y hpeer hy => ?_, ?_⟩
    ⟨fun p y hpeer hy => ?_, ?_⟩
  · simp only [Parties.setPort, Function.update_self] at hpeer
    obtain ⟨o, ho, rfl⟩ := Option.map_eq_some_iff.mp hpeer
    simp only [Parties.setPort, Function.update_self, hport]
    rcases Port.hear_dest hy with horigin | ⟨hold, hne⟩
    · exact hspoken.1 y horigin
    · have := hown.bound o y ho hold
      rw [hq] at this
      exact this.tail hne
  · simp only [Parties.setPort, Function.update_self, hport]
    exact hspoken.2
  · -- the hearer's own address has not changed
    simp only [Parties.setPort, Bool.not_not, hport] at hpeer
    have hpeer' := (h !i).bound p y (by simpa using hpeer) hy
    simp only [Parties.setPort, Function.update_self]
    rw [Function.update_of_ne (by simp)]
    refine hpeer'.imp_left ?_
    rintro ⟨o, ho, rfl⟩
    exact ⟨o.hear m, by rw [ho]; rfl, o.hear_addr m⟩
  · have hpeer := (h !i).spoken
    simp only [Parties.setPort, Function.update_self]
    rw [Function.update_of_ne (by simp)]
    cases ho : s.port !i with
    | none =>
      rw [ho] at hpeer
      exact hpeer
    | some o =>
      rw [ho] at hpeer
      simp only [Option.map_some]
      generalize s.chan (!i) = l at hpeer
      induction l with
      | nil => trivial
      | cons m' l ih =>
        refine ⟨fun x hx => (hpeer.1 x hx).imp_left ?_, ih hpeer.2⟩
        rintro ⟨o', ho', rfl⟩
        cases ho'
        exact ⟨o.hear m, rfl, o.hear_addr m⟩

theorem Parties.Step.consistent {t : Parties α} (hst : Parties.Step s t)
    (h : ∀ j, s.Consistent j) : ∀ j, t.Consistent j := by
  cases hst with
  | openPort i x hp => exact Parties.consistent_open h hp x
  | announce i hp =>
    exact Parties.consistent_emit h hp fun x hx => by
      simpa [Announce.origin] using hx
  | close i hp => exact Parties.consistent_close h hp
  | send i hp hd =>
    exact Parties.consistent_emit h hp fun x hx => by
      simpa [Announce.origin] using hx
  | deliver i hq => exact Parties.consistent_deliver h hq

end OpenAmp.Lib
