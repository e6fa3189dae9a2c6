import Mathlib.Data.List.Induction

/-!
# Transition systems

The one induction every safety result of the development goes through:
what the initial states satisfy and every step keeps holds in every
reachable state. A system is a predicate on initial states and a step
RELATION, so a guard (what the environment promises) is simply part of
the relation and the unguarded system is the same notion with a larger
one.
-/

namespace OpenAmp.Lib

variable {σ τ : Type*}

/-- The states a system reaches from `init` by any number of `step`s. -/
inductive Reachable (init : σ → Prop) (step : σ → σ → Prop) : σ → Prop where
  | start {s : σ} : init s → Reachable init step s
  | next {s t : σ} : Reachable init step s → step s t → Reachable init step t

variable {init : σ → Prop} {step : σ → σ → Prop}

/-- **The invariant rule.** The step may use that its source is
reachable, so an invariant proved earlier is available to a later one. -/
theorem Reachable.invariant {P : σ → Prop} (h0 : ∀ s, init s → P s)
    (hstep : ∀ s t, Reachable init step s → P s → step s t → P t)
    {s : σ} (h : Reachable init step s) : P s := by
  induction h with
  | start hi => exact h0 _ hi
  | next hr hs ih => exact hstep _ _ hr ih hs

/-! ## Scripts -/

section Scripts

variable {γ : Type*} {exec : σ → γ → σ} {ok : σ → γ → Bool}

/-- Every command of a script passes a check where it is executed. -/
def passes (exec : σ → γ → σ) (ok : σ → γ → Bool) : σ → List γ → Bool
  | _, [] => true
  | s, c :: cs => ok s c && passes exec ok (exec s c) cs

theorem passes_true (s : σ) (cs : List γ) :
    passes exec (fun _ _ => true) s cs = true := by
  induction cs generalizing s with
  | nil => rfl
  | cons c cs ih => exact ih (exec s c)

/-- A script whose commands are steps, or do nothing, stays inside the
reachable states. -/
theorem Reachable.script
    (hexec : ∀ s c, ok s c = true → exec s c = s ∨ step s (exec s c))
    (cs : List γ) {s : σ} (h : Reachable init step s)
    (hp : passes exec ok s cs = true) :
    Reachable init step (cs.foldl exec s) := by
  induction cs generalizing s with
  | nil => exact h
  | cons c cs ih =>
    simp only [passes, Bool.and_eq_true] at hp
    refine ih ?_ hp.2
    rcases hexec s c hp.1 with hsame | hst
    · rw [hsame]
      exact h
    · exact h.next hst

/-- A command that names an object by its number finds it in between. -/
theorem split_getElem? {α : Type*} {l : List α} {i : Nat} {x : α}
    (h : l[i]? = some x) : l = l.take i ++ x :: l.drop (i + 1) := by
  obtain ⟨hlt, rfl⟩ := List.getElem?_eq_some_iff.mp h
  rw [List.getElem_cons_drop, List.take_append_drop]

end Scripts

/-! ## Labelled runs -/

variable {ε : Type*} {lstep : σ → ε → σ → Prop}

/-- A run of a labelled system with the events it shows. -/
inductive Path (lstep : σ → ε → σ → Prop) : σ → List ε → σ → Prop where
  | nil (s : σ) : Path lstep s [] s
  | cons {s m t : σ} {e : ε} {tr : List ε} :
      lstep s e m → Path lstep m tr t → Path lstep s (e :: tr) t

/-- A run showing `tr₁ ++ tr₂` passes through a state in between. -/
theorem Path.split {s t : σ} (tr₁ : List ε) {tr₂ : List ε}
    (h : Path lstep s (tr₁ ++ tr₂) t) :
    ∃ m, Path lstep s tr₁ m ∧ Path lstep m tr₂ t := by
  induction tr₁ generalizing s with
  | nil => exact ⟨s, .nil s, h⟩
  | cons e tr ih =>
    cases h with
    | cons hstep hrest =>
      obtain ⟨m, h1, h2⟩ := ih hrest
      exact ⟨m, .cons hstep h1, h2⟩

/-- One that shows `e` takes that step. -/
theorem Path.split_cons {s t : σ} (tr₁ : List ε) {e : ε} {tr₂ : List ε}
    (h : Path lstep s (tr₁ ++ e :: tr₂) t) :
    ∃ m n, Path lstep s tr₁ m ∧ lstep m e n ∧ Path lstep n tr₂ t := by
  obtain ⟨m, hbefore, hrest⟩ := Path.split tr₁ h
  cases hrest with
  | cons hst hafter => exact ⟨m, _, hbefore, hst, hafter⟩

/-- What every step showing an event of a class keeps is kept by every
run showing only events of that class. -/
theorem Path.invariant {P : σ → Prop} {E : ε → Prop}
    (hstep : ∀ s e t, E e → P s → lstep s e t → P t) {s t : σ} {tr : List ε}
    (h : Path lstep s tr t) (hE : ∀ e ∈ tr, E e) (hs : P s) : P t := by
  induction h with
  | nil => exact hs
  | cons hst _ ih =>
    exact ih (fun e he => hE e (by simp [he])) (hstep _ _ _ (hE _ (by simp)) hs hst)

theorem Path.keeps {P : σ → Prop}
    (hstep : ∀ s e t, P s → lstep s e t → P t) {s t : σ} {tr : List ε}
    (h : Path lstep s tr t) (hs : P s) : P t :=
  h.invariant (E := fun _ => True) (fun s e t _ => hstep s e t)
    (fun _ _ => trivial) hs

theorem Path.concat {s m t : σ} {tr : List ε} {e : ε}
    (h : Path lstep s tr m) (hst : lstep m e t) :
    Path lstep s (tr ++ [e]) t := by
  induction h with
  | nil s => exact .cons hst (.nil t)
  | cons hfirst _ ih => exact .cons hfirst (ih hst)

/-- In every state a run showing `tr` comes through. -/
def Throughout (lstep : σ → ε → σ → Prop) (s₀ : σ) (tr : List ε)
    (P : σ → Prop) : Prop :=
  ∀ done rest s, tr = done ++ rest → Path lstep s₀ done s → P s

/-- At every step it takes. -/
def EachStep (lstep : σ → ε → σ → Prop) (s₀ : σ) (tr : List ε)
    (C : σ → ε → Prop) : Prop :=
  ∀ done e rest s t, tr = done ++ e :: rest → Path lstep s₀ done s →
    lstep s e t → C s e

theorem eachStep_nil (s₀ : σ) (C : σ → ε → Prop) :
    EachStep lstep s₀ [] C := by
  intro done e rest s t htr
  simp at htr

/-- A run meets a condition at its first step and from there on. -/
theorem EachStep.cons {s₀ : σ} {e : ε} {tr : List ε} {C : σ → ε → Prop}
    (hfirst : C s₀ e)
    (hrest : ∀ m, lstep s₀ e m → EachStep lstep m tr C) :
    EachStep lstep s₀ (e :: tr) C := by
  intro done e' rest s t htr hpath hst
  cases hpath with
  | nil =>
    cases htr
    exact hfirst
  | cons hstep hlater =>
    cases htr
    exact hrest _ hstep _ e' rest s t rfl hlater hst

theorem EachStep.tail {s₀ m : σ} {e : ε} {tr : List ε} {C : σ → ε → Prop}
    (h : EachStep lstep s₀ (e :: tr) C) (hst : lstep s₀ e m) :
    EachStep lstep m tr C := by
  intro done e' rest s t htr hpath hlast
  refine h (e :: done) e' rest s t ?_ (.cons hst hpath) hlast
  rw [htr, List.cons_append]

/-- So does what is left of it. -/
theorem EachStep.after {s₀ m : σ} {tr₁ tr₂ : List ε} {C : σ → ε → Prop}
    (h : EachStep lstep s₀ (tr₁ ++ tr₂) C) (hpath : Path lstep s₀ tr₁ m) :
    EachStep lstep m tr₂ C := by
  induction hpath with
  | nil => exact h
  | cons hst _ ih => exact ih (h.tail hst)

/-- **The guarded invariant rule.** What every step meeting a condition
keeps, a run keeps whose steps all meet it. -/
theorem EachStep.keeps {P : σ → Prop} {C : σ → ε → Prop}
    (hstep : ∀ s e t, P s → C s e → lstep s e t → P t) {s₀ s : σ}
    {tr : List ε} (hrun : Path lstep s₀ tr s) (h : EachStep lstep s₀ tr C)
    (h0 : P s₀) : P s := by
  induction hrun with
  | nil => exact h0
  | @cons s₀ m _ e tr hst _ ih =>
    have hfirst : C s₀ e := h [] e tr s₀ m rfl (.nil s₀) hst
    exact ih (h.tail hst) (hstep _ _ _ h0 hfirst hst)

/-- Such a run keeps it in every state it comes through. -/
theorem EachStep.throughout {P : σ → Prop} {C : σ → ε → Prop}
    (hstep : ∀ s e t, P s → C s e → lstep s e t → P t) {s₀ : σ}
    {tr : List ε} (h : EachStep lstep s₀ tr C) (h0 : P s₀) :
    Throughout lstep s₀ tr P := by
  intro done rest s htr hpath
  refine EachStep.keeps hstep hpath ?_ h0
  intro done' e rest' s' t hdone hpath' hst
  refine h done' e (rest' ++ rest) s' t ?_ hpath' hst
  rw [htr, hdone, List.append_assoc, List.cons_append]

/-- Conditions that agree under an invariant are met by the same runs. -/
theorem eachStep_congr {I : σ → Prop} {C D : σ → ε → Prop}
    (hinv : ∀ s e t, I s → lstep s e t → I t)
    (hiff : ∀ s e, I s → (C s e ↔ D s e)) {s₀ : σ} (hI : I s₀)
    (tr : List ε) :
    EachStep lstep s₀ tr C ↔ EachStep lstep s₀ tr D := by
  constructor
  · intro h done e rest s t htr hpath hst
    exact (hiff s e (hpath.keeps hinv hI)).mp
      (h done e rest s t htr hpath hst)
  · intro h done e rest s t htr hpath hst
    exact (hiff s e (hpath.keeps hinv hI)).mpr
      (h done e rest s t htr hpath hst)

/-- **The exact invariant rule.** Where, under an invariant, a step keeps
`P` exactly under a condition on the state before it, a run keeps `P`
throughout exactly when each of its steps meets the condition. -/
theorem throughout_iff_of_invariant {I P : σ → Prop} {C : σ → ε → Prop}
    (hinv : ∀ s e t, I s → lstep s e t → I t)
    (hstep : ∀ s e t, I s → P s → lstep s e t → (P t ↔ C s e)) {s₀ : σ}
    (hI : I s₀) (hP : P s₀) (tr : List ε) :
    Throughout lstep s₀ tr P ↔ EachStep lstep s₀ tr C := by
  have hI' : ∀ {done s}, Path lstep s₀ done s → I s := fun hpath =>
    hpath.keeps hinv hI
  constructor
  · intro h done e rest s t htr hpath hst
    have hs : P s := h done (e :: rest) s htr hpath
    have ht : P t := h (done ++ [e]) rest t (by rw [htr]; simp)
      (hpath.concat hst)
    exact (hstep s e t (hI' hpath) hs hst).mp ht
  · intro h done
    induction done using List.reverseRecOn with
    | nil =>
      intro rest s _ hpath
      cases hpath
      exact hP
    | append_singleton done e ih =>
      intro rest t htr hpath
      obtain ⟨s, hbefore, hlast⟩ := hpath.split
      have htr' : tr = done ++ e :: rest := by rw [htr]; simp
      cases hlast with
      | cons hst hnil =>
        cases hnil
        have hs : P s := ih (e :: rest) s htr' hbefore
        exact (hstep s e t (hI' hbefore) hs hst).mpr
          (h done e rest s t htr' hbefore hst)

theorem throughout_iff {P : σ → Prop} {C : σ → ε → Prop}
    (hstep : ∀ s e t, P s → lstep s e t → (P t ↔ C s e)) {s₀ : σ}
    (h0 : P s₀) (tr : List ε) :
    Throughout lstep s₀ tr P ↔ EachStep lstep s₀ tr C :=
  throughout_iff_of_invariant (I := fun _ => True) (fun _ _ _ _ _ => trivial)
    (fun s e t _ => hstep s e t) trivial h0 tr

/-- **The exact rule with a stronger invariant.** Where a step keeps `Q`
under a condition, and breaks the weaker `P` without it, a run keeps `P`
throughout exactly when each of its steps meets the condition. -/
theorem throughout_iff_of_stronger {P Q : σ → Prop} {C : σ → ε → Prop}
    (hweak : ∀ s, Q s → P s)
    (hkeep : ∀ s e t, Q s → C s e → lstep s e t → Q t)
    (hbreak : ∀ s e t, Q s → lstep s e t → P t → C s e) {s₀ : σ} (h0 : Q s₀)
    (tr : List ε) :
    Throughout lstep s₀ tr P ↔ EachStep lstep s₀ tr C := by
  constructor
  · intro h
    have hQ : Throughout lstep s₀ tr Q := by
      intro done
      induction done using List.reverseRecOn with
      | nil =>
        intro rest s _ hpath
        cases hpath
        exact h0
      | append_singleton done e ih =>
        intro rest t htr hpath
        obtain ⟨s, hbefore, hlast⟩ := hpath.split
        cases hlast with
        | cons hst hnil =>
          cases hnil
          have hs : Q s := ih (e :: rest) s (by rw [htr]; simp) hbefore
          exact hkeep s e t hs (hbreak s e t hs hst (h _ rest t htr hpath)) hst
    intro done e rest s t htr hpath hst
    have hs : Q s := hQ done (e :: rest) s htr hpath
    exact hbreak s e t hs hst
      (h (done ++ [e]) rest t (by rw [htr]; simp) (hpath.concat hst))
  · intro h done rest s htr hpath
    exact hweak s (h.throughout hkeep h0 done rest s htr hpath)

end OpenAmp.Lib
