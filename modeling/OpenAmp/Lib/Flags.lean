import OpenAmp.Lib.Transition
import Mathlib.Logic.Function.Basic

/-!
# Flags that events write

An array of flags in the state of a labelled system, of which an event
writes one or none. What a flag says is what has happened: it was raised,
and not lowered since.
-/

namespace OpenAmp.Lib

variable {σ ε ι : Type*} [DecidableEq ι] {lstep : σ → ε → σ → Prop}
  {flags : σ → ι → Bool} {writes : ε → Option (ι × Bool)} {s t : σ} {e : ε}
  {tr : List ε} {i : ι}

/-- Flag `i` was raised, and not lowered since. -/
def Written (writes : ε → Option (ι × Bool)) (i : ι) (tr : List ε) : Prop :=
  ∃ before e after, tr = before ++ e :: after ∧ writes e = some (i, true) ∧
    ∀ x ∈ after, writes x ≠ some (i, false)

omit [DecidableEq ι] in
theorem not_written_nil : ¬ Written writes i [] := by
  rintro ⟨before, e, after, htr, -⟩
  simp at htr

omit [DecidableEq ι] in
theorem written_cons :
    Written writes i (e :: tr) ↔ Written writes i tr ∨
      writes e = some (i, true) ∧ ∀ x ∈ tr, writes x ≠ some (i, false) := by
  constructor
  · rintro ⟨before, x, after, htr, hx, hafter⟩
    cases before with
    | nil =>
      cases htr
      exact .inr ⟨hx, hafter⟩
    | cons b before =>
      cases htr
      exact .inl ⟨before, x, after, rfl, hx, hafter⟩
  · rintro (⟨before, x, after, rfl, hx, hafter⟩ | ⟨hx, hafter⟩)
    · exact ⟨e :: before, x, after, rfl, hx, hafter⟩
    · exact ⟨[], e, tr, rfl, hx, hafter⟩

/-- What a step does to the flags. -/
def Writes (lstep : σ → ε → σ → Prop) (flags : σ → ι → Bool)
    (writes : ε → Option (ι × Bool)) : Prop :=
  ∀ s e t, lstep s e t → flags t =
    match writes e with
    | none => flags s
    | some (i, b) => Function.update (flags s) i b

namespace Writes

theorem step_iff (h : Writes lstep flags writes) (hst : lstep s e t) :
    flags t i = true ↔ writes e = some (i, true) ∨
      flags s i = true ∧ writes e ≠ some (i, false) := by
  rw [h s e t hst]
  cases hw : writes e with
  | none => simp
  | some w =>
    obtain ⟨j, b⟩ := w
    by_cases hij : i = j
    · subst hij
      cases b <;> simp
    · simp [Function.update_of_ne hij, Ne.symm hij]

theorem run_iff (h : Writes lstep flags writes) (hpath : Path lstep s tr t) :
    flags t i = true ↔ Written writes i tr ∨
      flags s i = true ∧ ∀ x ∈ tr, writes x ≠ some (i, false) := by
  induction hpath with
  | nil => simp [not_written_nil]
  | cons hst _ ih =>
    rw [ih, h.step_iff hst, written_cons, List.forall_mem_cons]
    tauto

/-- A flag that begins low is up exactly if it was raised and not lowered
since. -/
theorem written_iff (h : Writes lstep flags writes)
    (hpath : Path lstep s tr t) (hs : flags s i = false) :
    flags t i = true ↔ Written writes i tr := by
  rw [h.run_iff hpath, hs]
  simp

theorem stays (h : Writes lstep flags writes) (hst : lstep s e t)
    (hs : flags s i = true) (he : writes e ≠ some (i, false)) :
    flags t i = true :=
  (h.step_iff hst).mpr (.inr ⟨hs, he⟩)

theorem stays_low (h : Writes lstep flags writes) (hst : lstep s e t)
    (hs : flags s i = false) (he : writes e ≠ some (i, true)) :
    flags t i = false := by
  rw [Bool.eq_false_iff, Ne, h.step_iff hst, hs]
  simp [he]

end Writes

end OpenAmp.Lib
