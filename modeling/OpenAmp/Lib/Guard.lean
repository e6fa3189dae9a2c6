import Mathlib.Tactic.Common

/-!
# A lock and who is inside

A lock that names its owner, next to a test that tells which parties are
between taking it and giving it back. The two say the same as long as a
party goes in only where the lock is free, and out only by freeing it.
-/

namespace OpenAmp.Lib

variable {π : Type*} {lock : Option π} {inside inside' : π → Bool} {p q : π}

/-- The lock names the one party that is inside. -/
def Guards (lock : Option π) (inside : π → Bool) : Prop :=
  ∀ p, lock = some p ↔ inside p = true

theorem Guards.unique (h : Guards lock inside) (hp : inside p = true)
    (hq : inside q = true) : p = q :=
  Option.some.inj (((h p).mpr hp).symm.trans ((h q).mpr hq))

theorem Guards.congr (h : Guards lock inside)
    (hsame : ∀ p, inside' p = inside p) : Guards lock inside' := by
  intro p
  rw [hsame]
  exact h p

/-- Where the lock is free nobody is inside, and the next one may be. -/
theorem Guards.enter (h : Guards none inside) (hp : inside' p = true)
    (hsame : ∀ q, q ≠ p → inside' q = inside q) : Guards (some p) inside' := by
  intro q
  by_cases hq : q = p
  · subst hq
    exact iff_of_true rfl hp
  · have hout : inside q ≠ true := fun hin =>
      Option.some_ne_none q ((h q).mpr hin).symm
    rw [hsame q hq]
    exact iff_of_false (fun heq => hq (Option.some.inj heq).symm) hout

theorem Guards.leave (h : Guards lock inside) (hp : inside p = true)
    (hp' : inside' p = false) (hsame : ∀ q, q ≠ p → inside' q = inside q) :
    Guards none inside' := by
  intro q
  refine iff_of_false (Option.some_ne_none q).symm fun hq => ?_
  by_cases heq : q = p
  · rw [heq, hp'] at hq
    cases hq
  · rw [hsame q heq] at hq
    exact heq (h.unique hq hp)

end OpenAmp.Lib
