import Mathlib.Logic.Basic
import Mathlib.Tactic.Common

/-!
# Computations with a record of their accesses

A computation that says, besides its value, what it touched and in which
order. The value is what the program computes; the record is what a
statement about memory safety is about. `Safe` says that all of the
record meets a condition, and distributes over sequencing and branching,
so that it can be settled one access at a time.
-/

namespace OpenAmp.Lib

/-- A value and the record of what was done to compute it. -/
structure Traced (ε : Type) (α : Type) where
  val : α
  log : List ε

namespace Traced

variable {ε α β : Type} {p : ε → Prop}

instance : Monad (Traced ε) where
  pure a := ⟨a, []⟩
  bind x f := ⟨(f x.val).val, x.log ++ (f x.val).log⟩

@[simp] theorem val_pure (a : α) : (pure a : Traced ε α).val = a := rfl

@[simp] theorem val_bind (x : Traced ε α) (f : α → Traced ε β) :
    (x >>= f).val = (f x.val).val := rfl

@[simp] theorem log_pure (a : α) : (pure a : Traced ε α).log = [] := rfl

@[simp] theorem log_bind (x : Traced ε α) (f : α → Traced ε β) :
    (x >>= f).log = x.log ++ (f x.val).log := rfl

@[simp] theorem val_ite (c : Prop) [Decidable c] (x y : Traced ε α) :
    (if c then x else y).val = if c then x.val else y.val :=
  apply_ite val c x y

/-- Nothing but an entry in the record. -/
def record (e : ε) : Traced ε Unit := ⟨(), [e]⟩

@[simp] theorem log_record (e : ε) : (record e).log = [e] := rfl

/-- Everything recorded meets `p`. -/
def Safe (p : ε → Prop) (x : Traced ε α) : Prop := ∀ e ∈ x.log, p e

@[simp] theorem safe_pure (a : α) : Safe p (pure a : Traced ε α) := by
  intro e he
  cases he

@[simp] theorem safe_record {e : ε} : Safe p (record e) ↔ p e := by
  simp [Safe]

@[simp] theorem safe_bind {x : Traced ε α} {f : α → Traced ε β} :
    Safe p (x >>= f) ↔ Safe p x ∧ Safe p (f x.val) := by
  simp only [Safe, log_bind, List.mem_append]
  constructor
  · exact fun h => ⟨fun e he => h e (.inl he), fun e he => h e (.inr he)⟩
  · rintro ⟨h1, h2⟩ e (he | he)
    · exact h1 e he
    · exact h2 e he

@[simp] theorem safe_ite {c : Prop} [Decidable c] {x y : Traced ε α} :
    Safe p (if c then x else y) ↔ (c → Safe p x) ∧ (¬ c → Safe p y) := by
  by_cases h : c <;> simp [h]

end Traced

/-- An access to `len` bytes at offset `off` of a block of `size` bytes. -/
structure Access where
  off : Nat
  len : Nat
  size : Nat
deriving DecidableEq, Repr

/-- The access stays in its block. -/
def Access.Inside (a : Access) : Prop := a.off + a.len ≤ a.size

instance (a : Access) : Decidable a.Inside :=
  inferInstanceAs (Decidable (_ ≤ _))

/-- The value `v`, with an access to `len` bytes at `off`. -/
def accessAt {α : Type} (v : α) (off len size : Nat) : Traced Access α :=
  ⟨v, [⟨off, len, size⟩]⟩

@[simp] theorem val_accessAt {α : Type} (v : α) (off len size : Nat) :
    (accessAt v off len size).val = v := rfl

@[simp] theorem safe_accessAt {α : Type} (v : α) (off len size : Nat) :
    (accessAt v off len size).Safe Access.Inside ↔ off + len ≤ size := by
  simp [accessAt, Traced.Safe, Access.Inside]

end OpenAmp.Lib
