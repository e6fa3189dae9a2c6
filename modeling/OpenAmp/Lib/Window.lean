import Mathlib.Algebra.Group.Nat.Defs
import Mathlib.Logic.Function.Basic
import Mathlib.Data.List.Basic
import Mathlib.Data.Nat.Bitwise
import Mathlib.Data.Nat.Size
import Mathlib.Tactic.Common

/-!
# Bounded queues on a ring of slots

A free-running counter `lo` and a ring of `n` slots carry a queue: the
element that entered as number `p` stands in slot `p`, where two
positions share a slot only when they agree modulo `n`. `Window` is that
picture; `push` needs room for one more element, `pop` needs nothing.

The counters themselves are 16 bits wide. `counter_eq_iff` is why
comparing them decides emptiness although they wrap: the distance never
reaches `2 ^ 16`.
-/

namespace OpenAmp.Lib

variable {ι α β : Type*}

/-- Positions that share a slot agree modulo `n`. -/
def SlotsOf (n : Nat) (slot : Nat → ι) : Prop :=
  ∀ p q, slot p = slot q → p % n = q % n

/-- The ring holds the queue `q` whose first element is number `lo`. -/
def Window (slot : Nat → ι) (ring : ι → α) (lo : Nat) (q : List α) : Prop :=
  ∀ i x, q[i]? = some x → ring (slot (lo + i)) = x

variable {slot : Nat → ι} {ring : ι → α} {lo n : Nat} {q : List α} {x : α}

@[simp] theorem Window.nil (slot : Nat → ι) (ring : ι → α) (lo : Nat) :
    Window slot ring lo [] := by
  intro i x h
  simp at h

/-- Fewer than `n` steps apart, different positions have different slots. -/
theorem SlotsOf.ne (hs : SlotsOf n slot) {p d : Nat} (h0 : 0 < d)
    (hd : d < n) : slot p ≠ slot (p + d) := by
  intro h
  have hmod := hs _ _ h
  have hsub : (p + d - p) % n = 0 := Nat.sub_mod_eq_zero_of_mod_eq hmod.symm
  rw [Nat.add_sub_cancel_left, Nat.mod_eq_of_lt hd] at hsub
  omega

/-- An element of a list with one more at its end. -/
theorem getElem?_concat {l : List α} {x y : α} {i : Nat}
    (h : (l ++ [x])[i]? = some y) : l[i]? = some y ∨ i = l.length ∧ x = y := by
  rcases Nat.lt_or_ge i l.length with hlt | hge
  · left
    rwa [List.getElem?_append_left hlt] at h
  · right
    have hlast : i = l.length := by
      have hlt := (List.getElem?_eq_some_iff.mp h).1
      rw [List.length_append, List.length_singleton] at hlt
      omega
    subst hlast
    rw [List.getElem?_concat_length] at h
    exact ⟨rfl, Option.some.inj h⟩

/-- Entering one more element where there is room for it. -/
theorem Window.push [DecidableEq ι] (hs : SlotsOf n slot)
    (hw : Window slot ring lo q) (hroom : q.length < n) (x : α) :
    Window slot (Function.update ring (slot (lo + q.length)) x) lo
      (q ++ [x]) := by
  intro i y hi
  rcases getElem?_concat hi with hold | ⟨rfl, rfl⟩
  · have hlt := (List.getElem?_eq_some_iff.mp hold).1
    have hne : slot (lo + i) ≠ slot (lo + q.length) := by
      have := hs.ne (p := lo + i) (d := q.length - i) (by omega) (by omega)
      rwa [show lo + i + (q.length - i) = lo + q.length from by omega] at this
    rw [Function.update_of_ne hne]
    exact hw i y hold
  · exact Function.update_self _ _ _

/-- The first element stands in the first slot, the rest one further. -/
theorem Window.pop (hw : Window slot ring lo (x :: q)) :
    ring (slot lo) = x ∧ Window slot ring (lo + 1) q := by
  refine ⟨by simpa using hw 0 x rfl, fun i y hi => ?_⟩
  have := hw (i + 1) y (by simpa using hi)
  rwa [show lo + (i + 1) = lo + 1 + i from by omega] at this

/-- A write outside the queue's slots is not seen by the queue. -/
theorem Window.congr {ring' : ι → α} (hw : Window slot ring lo q)
    (heq : ∀ i < q.length, ring' (slot (lo + i)) = ring (slot (lo + i))) :
    Window slot ring' lo q := by
  intro i y hi
  rw [heq i (List.getElem?_eq_some_iff.mp hi).1]
  exact hw i y hi

/-- Reading the slots from the first element on gives the queue. -/
theorem Window.read (hw : Window slot ring lo q) :
    (List.range q.length).map (fun i => ring (slot (lo + i))) = q := by
  apply List.ext_getElem
  · simp
  · intro i h1 h2
    simpa using hw i q[i] (List.getElem?_eq_getElem h2)

/-! ## 16-bit counters -/

/-- Two 16-bit views of counters less than `2 ^ 16` apart are equal only
when the counters are. -/
theorem counter_eq_iff {a b : Nat} (hab : a ≤ b) (hd : b - a < 2 ^ 16) :
    UInt16.ofNat a = UInt16.ofNat b ↔ a = b := by
  refine ⟨fun h => ?_, fun h => by rw [h]⟩
  have hmod : a % 2 ^ 16 = b % 2 ^ 16 := by
    simpa [UInt16.toNat_ofNat'] using congrArg UInt16.toNat h
  omega

/-- Masking a 16-bit counter with a power of two less one is reduction
modulo that power. -/
theorem counter_mask {k : Nat} (hk : k ≤ 15) (a : Nat) :
    UInt16.ofNat a &&& (UInt16.ofNat (2 ^ k) - 1) = UInt16.ofNat (a % 2 ^ k) := by
  have hpow : 2 ^ k ≤ 2 ^ 15 := Nat.pow_le_pow_right (by decide) hk
  have hpos : 0 < 2 ^ k := Nat.two_pow_pos k
  apply UInt16.toNat_inj.mp
  have hm : (UInt16.ofNat (2 ^ k) - 1).toNat = 2 ^ k - 1 := by
    rw [UInt16.toNat_sub, UInt16.toNat_ofNat']
    simp only [UInt16.toNat_one]
    omega
  rw [UInt16.toNat_and, hm, Nat.and_two_pow_sub_one_eq_mod,
    UInt16.toNat_ofNat', UInt16.toNat_ofNat', Nat.mod_mod_of_dvd]
  · exact (Nat.mod_eq_of_lt (Nat.lt_of_lt_of_le (Nat.mod_lt _ hpos)
      (by omega))).symm
  · exact Nat.pow_dvd_pow 2 (by omega)

/-- The masked slots of a power-of-two ring. -/
theorem slotsOf_mask {k : Nat} (hk : k ≤ 15) :
    SlotsOf (2 ^ k) fun p => UInt16.ofNat p &&& (UInt16.ofNat (2 ^ k) - 1) := by
  intro p q h
  have hpow : 2 ^ k ≤ 2 ^ 15 := Nat.pow_le_pow_right (by decide) hk
  have hpos : 0 < 2 ^ k := Nat.two_pow_pos k
  simp only [counter_mask hk] at h
  have hmod := congrArg UInt16.toNat h
  have hp := Nat.mod_lt p hpos
  have hq := Nat.mod_lt q hpos
  rw [UInt16.toNat_ofNat', UInt16.toNat_ofNat'] at hmod
  omega

/-- **A mask that tells the first `n` numbers apart** is all ones: a bit
missing below the top one would make the number with just that bit share
its slot with zero. -/
theorem two_pow_of_mask {n : Nat} (hn : 0 < n)
    (hinj : ∀ i < n, i ≠ 0 → i &&& (n - 1) ≠ 0) : ∃ k, n = 2 ^ k := by
  have hbit : ∀ b, 2 ^ b ≤ n - 1 → (n - 1).testBit b = true := by
    intro b hb
    have hpos := Nat.two_pow_pos b
    cases hclear : (n - 1).testBit b with
    | true => rfl
    | false =>
      refine absurd ?_ (hinj (2 ^ b) (by omega) (by omega))
      rw [Nat.and_comm, Nat.and_two_pow, hclear]
      simp
  refine ⟨(n - 1).size, ?_⟩
  have hones : n - 1 = 2 ^ (n - 1).size - 1 := by
    apply Nat.eq_of_testBit_eq
    intro b
    rw [Nat.testBit_two_pow_sub_one]
    by_cases hb : b < (n - 1).size
    · rw [hbit b (Nat.lt_size.mp hb), decide_eq_true hb]
    · rw [decide_eq_false hb]
      exact Nat.testBit_lt_two_pow (Nat.size_le.mp (Nat.not_lt.mp hb))
  have hpos := Nat.two_pow_pos (n - 1).size
  omega

end OpenAmp.Lib
