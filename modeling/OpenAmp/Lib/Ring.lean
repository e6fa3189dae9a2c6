import Mathlib.Data.List.Nodup

/-!
# Circular doubly linked lists

A list threaded through two pointer maps, closed into a ring by its
head: `Chained next prev a l b` is the stretch from `a` over the nodes
`l` to `b`, and a ring is the stretch from the head to itself. The
lemmas are stated for the values the maps have at the nodes concerned,
so that they apply to pointers kept in memory.
-/

namespace OpenAmp.Lib

variable {ι : Type*}

/-- From `a` over `l` to `b`, linked both ways. -/
def Chained (next prev : ι → ι) : ι → List ι → ι → Prop
  | a, [], b => next a = b ∧ prev b = a
  | a, x :: l, b => (next a = x ∧ prev x = a) ∧ Chained next prev x l b

variable {next prev next' prev' : ι → ι} {a b h x p : ι} {l l' : List ι}

theorem chained_append :
    Chained next prev a (l ++ x :: l') b ↔
      Chained next prev a l x ∧ Chained next prev x l' b := by
  induction l generalizing a with
  | nil => simp [Chained]
  | cons y l ih => simp [Chained, ih, and_assoc]

/-- A stretch sees `next` of all but its end and `prev` of all but its
start. -/
theorem Chained.congr (hn : ∀ y ∈ a :: l, next' y = next y)
    (hp : ∀ y ∈ l ++ [b], prev' y = prev y) (hc : Chained next prev a l b) :
    Chained next' prev' a l b := by
  induction l generalizing a with
  | nil =>
    obtain ⟨h1, h2⟩ := hc
    exact ⟨(hn a (by simp)).trans h1, (hp b (by simp)).trans h2⟩
  | cons y l ih =>
    obtain ⟨⟨h1, h2⟩, hrest⟩ := hc
    exact ⟨⟨(hn a (by simp)).trans h1, (hp y (by simp)).trans h2⟩,
      ih (fun z hz => hn z (List.mem_cons_of_mem _ hz))
        (fun z hz => hp z (by simpa using .inr (by simpa using hz))) hrest⟩

/-- The node before the end of a stretch. -/
theorem Chained.prev_mem (hc : Chained next prev a l b) :
    prev b ∈ a :: l ∧ next (prev b) = b := by
  induction l generalizing a with
  | nil => simp [hc.2, hc.1]
  | cons y l ih =>
    obtain ⟨h1, h2⟩ := ih hc.2
    exact ⟨List.mem_cons_of_mem _ h1, h2⟩

/-- **Adding at the tail.** The new node points to the head and to the
old last node, and these two point to it. -/
theorem Chained.addTail (hc : Chained next prev h l h)
    (hnd : (h :: l).Nodup) (hx : x ∉ h :: l) (hnx : next' x = h)
    (hpx : prev' x = prev h) (hph : prev' h = x) (hnp : next' (prev h) = x)
    (hn : ∀ y ∈ h :: l, y ≠ prev h → next' y = next y)
    (hp : ∀ y ∈ l, prev' y = prev y) :
    Chained next' prev' h (l ++ [x]) h := by
  refine chained_append.mpr ⟨?_, hnx, hph⟩
  rcases List.eq_nil_or_concat l with rfl | ⟨k, z, rfl⟩
  · obtain ⟨-, hprev⟩ := hc
    rw [hprev] at hnp hpx
    exact ⟨hnp, hpx⟩
  · -- the old last node `z` is what the head's `prev` named
    rw [List.concat_eq_append] at *
    obtain ⟨hfront, hnz, hpz⟩ := chained_append.mp hc
    subst hpz
    have hlast : prev h ∉ h :: k := by
      intro hmem
      rw [← List.cons_append] at hnd
      exact List.disjoint_of_nodup_append hnd hmem (by simp)
    refine chained_append.mpr ⟨hfront.congr ?_ hp, hnp, hpx⟩
    intro y hy
    refine hn y (by
      rw [← List.cons_append]
      exact List.mem_append_left _ hy) fun heq => hlast (heq ▸ hy)

/-- **Taking the first node out.** -/
theorem Chained.delFirst (hc : Chained next prev h (x :: l) h)
    (hnd : (h :: x :: l).Nodup) (hnh : next' h = next x)
    (hpn : prev' (next x) = h)
    (hn : ∀ y ∈ l, next' y = next y)
    (hp : ∀ y ∈ h :: l, y ≠ next x → prev' y = prev y) :
    Chained next' prev' h l h := by
  obtain ⟨-, hrest⟩ := hc
  cases l with
  | nil =>
    obtain ⟨hnx, -⟩ := hrest
    rw [hnx] at hnh hpn
    exact ⟨hnh, hpn⟩
  | cons y l =>
    obtain ⟨⟨hnx, -⟩, htail⟩ := hrest
    rw [hnx] at hnh hpn hp
    have hy : y ∉ l ++ [h] := by
      simp only [List.nodup_cons, List.mem_cons, not_or] at hnd
      simp only [List.mem_append, List.mem_singleton, not_or]
      exact ⟨hnd.2.2.1, fun heq => hnd.1.2.1 heq.symm⟩
    refine ⟨⟨hnh, hpn⟩, htail.congr hn fun z hz => hp z ?_ fun heq => hy (heq ▸ hz)⟩
    simp only [List.mem_append, List.mem_singleton] at hz
    rcases hz with hz | rfl
    · exact List.mem_cons_of_mem _ (List.mem_cons_of_mem _ hz)
    · simp

/-- The nodes met on the way from the head back to it, at most `fuel`
of them. -/
def ringWalk [DecidableEq ι] (next : ι → ι) (h : ι) : Nat → ι → List ι
  | 0, _ => []
  | fuel + 1, a =>
    if next a = h then [] else next a :: ringWalk next h fuel (next a)

theorem Chained.ringWalk_eq [DecidableEq ι] (fuel : Nat) :
    ∀ {a : ι} {l : List ι}, Chained next prev a l h → h ∉ l →
    l.length < fuel → ringWalk next h fuel a = l := by
  induction fuel with
  | zero => intro a l _ _ hf; omega
  | succ fuel ih =>
    intro a l hc hl hf
    cases l with
    | nil => simp [ringWalk, hc.1]
    | cons x l =>
      obtain ⟨⟨hna, -⟩, hrest⟩ := hc
      simp only [List.mem_cons, not_or] at hl
      rw [ringWalk, hna, if_neg (fun heq => hl.1 heq.symm),
        ih hrest hl.2 (by simpa using hf)]

end OpenAmp.Lib
