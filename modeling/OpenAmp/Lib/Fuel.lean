import Mathlib.Tactic.Common

/-!
# Loops on fuel

A loop of a program without an obvious bound is modelled with fuel:
`f n` is what it has come to within `n` rounds, `none` while it is still
running. `Settles` says that the loop comes to an end, and where.
-/

namespace OpenAmp.Lib

variable {α β : Type*}

/-- With enough fuel the loop ends at one place, which satisfies `P`. -/
def Settles (f : Nat → Option α) (P : α → Prop) : Prop :=
  ∃ a, P a ∧ ∃ n, ∀ fuel, n ≤ fuel → f fuel = some a

namespace Settles

variable {f g : Nat → Option α} {P Q : α → Prop}

theorem of_eq {a : α} (h : ∀ fuel, f (fuel + 1) = some a) (ha : P a) :
    Settles f P := by
  refine ⟨a, ha, 1, fun fuel hfuel => ?_⟩
  obtain ⟨n, rfl⟩ : ∃ n, fuel = n + 1 := ⟨fuel - 1, by omega⟩
  exact h n

/-- A loop ends when the rest of it after one round does. -/
theorem step (h : ∀ fuel, f (fuel + 1) = g fuel) (hg : Settles g P) :
    Settles f P := by
  obtain ⟨a, ha, n, hn⟩ := hg
  refine ⟨a, ha, n + 1, fun fuel hfuel => ?_⟩
  obtain ⟨m, rfl⟩ : ∃ m, fuel = m + 1 := ⟨fuel - 1, by omega⟩
  rw [h m]
  exact hn m (by omega)

/-- A loop whose first round adds to what the rest of it comes to. -/
theorem step_map {g : Nat → Option β} {R : β → Prop} (φ : β → α)
    (h : ∀ fuel, f (fuel + 1) = (g fuel).map φ) (hφ : ∀ b, R b → P (φ b))
    (hg : Settles g R) : Settles f P := by
  obtain ⟨b, hb, n, hn⟩ := hg
  refine ⟨φ b, hφ b hb, n + 1, fun fuel hfuel => ?_⟩
  obtain ⟨m, rfl⟩ : ∃ m, fuel = m + 1 := ⟨fuel - 1, by omega⟩
  rw [h m, hn m (by omega), Option.map_some]

theorem mono (hf : Settles f P) (h : ∀ a, P a → Q a) : Settles f Q := by
  obtain ⟨a, ha, hn⟩ := hf
  exact ⟨a, h a ha, hn⟩

/-- One loop after another, on the same fuel. -/
theorem bind {k : α → Nat → Option β} {R : β → Prop} (hf : Settles f P)
    (hk : ∀ a, P a → Settles (k a) R) :
    Settles (fun fuel => (f fuel).bind fun a => k a fuel) R := by
  obtain ⟨a, ha, n, hn⟩ := hf
  obtain ⟨b, hb, m, hm⟩ := hk a ha
  refine ⟨b, hb, max n m, fun fuel hfuel => ?_⟩
  change (f fuel).bind _ = some b
  rw [hn fuel (by omega), Option.bind_some, hm fuel (by omega)]

/-- A loop ends at one place only. -/
theorem unique (hf : Settles f P) (hf' : Settles f Q) : Settles f fun a => P a ∧ Q a := by
  obtain ⟨a, ha, n, hn⟩ := hf
  obtain ⟨b, hb, m, hm⟩ := hf'
  have h := (hn (max n m) (by omega)).symm.trans (hm (max n m) (by omega))
  obtain rfl := Option.some.inj h
  exact ⟨a, ⟨ha, hb⟩, n, hn⟩

end Settles

end OpenAmp.Lib
