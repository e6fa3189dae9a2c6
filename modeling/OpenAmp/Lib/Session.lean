import Mathlib.Tactic.Common

/-!
# Sessions

A service that is asked for one thing after the other, and one that stands
in for it. Where the two give the same answer exactly under a condition on
the state of the first, a whole session gives the same answers exactly when
every request meets the condition where it is made.
-/

namespace OpenAmp.Lib

variable {σ τ γ ρ : Type*}

/-- The answers to a list of requests, and the state they leave. -/
def session (step : σ → γ → σ × ρ) : σ → List γ → σ × List ρ
  | s, [] => (s, [])
  | s, c :: cs =>
    let (s, r) := step s c
    let (s, rs) := session step s cs
    (s, r :: rs)

/-- Every request meets a condition in the state it is made in. -/
def MetThroughout (step : σ → γ → σ × ρ) (F : σ → γ → Prop) : σ → List γ → Prop
  | _, [] => True
  | s, c :: cs => F s c ∧ MetThroughout step F (step s c).1 cs

/-- The second service gives the answers of the first, and goes on standing
for it, under a condition, and another answer otherwise. -/
structure StandsIn (direct : σ → γ → σ × ρ) (remote : τ → γ → τ × ρ)
    (rel : σ → τ → Prop) (ok : γ → Prop) (F : σ → γ → Prop) : Prop where
  same : ∀ s t c, rel s t → ok c → F s c →
    (remote t c).2 = (direct s c).2 ∧ rel (direct s c).1 (remote t c).1
  differs : ∀ s t c, rel s t → ok c → ¬ F s c →
    (remote t c).2 ≠ (direct s c).2

variable {direct : σ → γ → σ × ρ} {remote : τ → γ → τ × ρ}
  {rel : σ → τ → Prop} {ok : γ → Prop} {F : σ → γ → Prop}

/-- **Whole sessions** agree exactly when every request meets the condition,
and then the states still stand for each other. -/
theorem StandsIn.session_iff (h : StandsIn direct remote rel ok F) {s : σ}
    {t : τ} (hrel : rel s t) {cs : List γ} (hok : ∀ c ∈ cs, ok c) :
    (session remote t cs).2 = (session direct s cs).2 ∧
        rel (session direct s cs).1 (session remote t cs).1 ↔
      MetThroughout direct F s cs := by
  induction cs generalizing s t with
  | nil => exact iff_of_true ⟨rfl, hrel⟩ trivial
  | cons c cs ih =>
    have hc := hok c (List.mem_cons_self ..)
    have hcs : ∀ d ∈ cs, ok d := fun d hd => hok d (List.mem_cons_of_mem _ hd)
    simp only [session, MetThroughout]
    by_cases hF : F s c
    · obtain ⟨hsame, hnext⟩ := h.same s t c hrel hc hF
      rw [and_iff_right hF, ← ih hnext hcs, List.cons_eq_cons,
        and_iff_right hsame]
    · refine iff_of_false (fun heq => ?_) fun hmet => hF hmet.1
      exact h.differs s t c hrel hc hF (List.cons_eq_cons.mp heq.1).1

end OpenAmp.Lib
