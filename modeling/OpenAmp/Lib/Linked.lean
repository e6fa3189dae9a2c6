import Mathlib.Data.List.Nodup
import Mathlib.Logic.Function.Iterate

/-!
# Lists threaded through a next map

A `next` table threads lists through its index type: the free list of a
descriptor table, the chain of a request. `Linked next e h l` says which
list a walk visits; the lemmas say how a walk splits, which writes it
does not see, and what the executable walk `follow` returns on it.
-/

namespace OpenAmp.Lib

variable {ι : Type*}

/-- Following `next` from `h` visits exactly `l`, in order, and then
stands on `e`. -/
def Linked (next : ι → ι) (e : ι) : ι → List ι → Prop
  | h, [] => h = e
  | h, x :: l => h = x ∧ Linked next e (next x) l

@[simp] theorem linked_nil (next : ι → ι) (e h : ι) :
    Linked next e h [] ↔ h = e := Iff.rfl

@[simp] theorem linked_cons (next : ι → ι) (e h x : ι) (l : List ι) :
    Linked next e h (x :: l) ↔ h = x ∧ Linked next e (next x) l := Iff.rfl

/-- A walk over `l₁ ++ l₂` is a walk over `l₁` to where `l₂` begins. -/
theorem linked_append {next : ι → ι} {e h : ι} {l₁ l₂ : List ι} :
    Linked next e h (l₁ ++ l₂) ↔
      ∃ m, Linked next m h l₁ ∧ Linked next e m l₂ := by
  induction l₁ generalizing h with
  | nil => simp
  | cons x l ih => simp [ih, and_assoc]

/-- A walk sees only the cells it visits. -/
theorem Linked.congr {next next' : ι → ι} {e h : ι} {l : List ι}
    (heq : ∀ x ∈ l, next' x = next x) (hl : Linked next e h l) :
    Linked next' e h l := by
  induction l generalizing h with
  | nil => exact hl
  | cons x l ih =>
    obtain ⟨rfl, hrest⟩ := hl
    refine ⟨rfl, ?_⟩
    rw [heq h (by simp)]
    exact ih (fun y hy => heq y (by simp [hy])) hrest

/-- Redirecting the last cell of a walk redirects where the walk ends. -/
theorem Linked.redirect [DecidableEq ι] {next : ι → ι} {e h x : ι}
    {l : List ι} (hnd : (l ++ [x]).Nodup) (e' : ι)
    (hl : Linked next e h (l ++ [x])) :
    Linked (Function.update next x e') e' h (l ++ [x]) := by
  obtain ⟨m, hpre, hlast⟩ := linked_append.mp hl
  refine linked_append.mpr ⟨m, hpre.congr fun y hy => ?_, ?_⟩
  · have hne : y ≠ x := by
      rintro rfl
      exact List.disjoint_of_nodup_append hnd hy (by simp)
    rw [Function.update_of_ne hne]
  · obtain ⟨rfl, -⟩ := hlast
    simp

/-- A counted run of cells, each pointing to the following one. -/
theorem linked_range' {next : ι → ι} {cell : Nat → ι} (n s : Nat)
    (hnext : ∀ i, s ≤ i → i < s + n → next (cell i) = cell (i + 1)) :
    Linked next (cell (s + n)) (cell s) ((List.range' s n).map cell) := by
  induction n generalizing s with
  | zero => rfl
  | succ n ih =>
    rw [List.range'_succ, List.map_cons, linked_cons,
      hnext s (Nat.le_refl s) (by omega)]
    refine ⟨rfl, ?_⟩
    have hrest := ih (s + 1) (fun i h1 h2 => hnext i (by omega) (by omega))
    rwa [show s + 1 + n = s + (n + 1) from by omega] at hrest

/-- The cells met on a walk of `k` steps. -/
def follow (next : ι → ι) : Nat → ι → List ι
  | 0, _ => []
  | k + 1, h => h :: follow next k (next h)

/-- The executable walk of the right length returns the threaded list
and ends where the list does. -/
theorem Linked.follow_eq {next : ι → ι} {e h : ι} {l : List ι}
    (hl : Linked next e h l) :
    follow next l.length h = l ∧ next^[l.length] h = e := by
  induction l generalizing h with
  | nil => exact ⟨rfl, hl⟩
  | cons x l ih =>
    obtain ⟨rfl, hrest⟩ := hl
    obtain ⟨hwalk, hend⟩ := ih hrest
    exact ⟨by simp [follow, hwalk], by simpa using hend⟩

end OpenAmp.Lib
