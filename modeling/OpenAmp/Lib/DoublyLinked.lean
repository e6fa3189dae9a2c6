import Mathlib.Data.List.Chain
import OpenAmp.Lib.Fuel
import OpenAmp.Lib.Linked

/-!
# Cycles linked in both directions

A head and the cells behind it, linked to a cycle by a `next` and a `prev`
table. `DoublyLinked next prev h l` says that `l` is the list behind `h`;
the lemmas say what the cycle is after a cell has been put between two
neighbours or taken out, which writes it does not see, and where a walk in
either direction goes.
-/

namespace OpenAmp.Lib

variable {ι : Type*}

/-- Two neighbours point to each other. -/
def Joined (next prev : ι → ι) (x y : ι) : Prop := next x = y ∧ prev y = x

/-- The cells `l` make up a cycle with the head `h`. -/
structure DoublyLinked (next prev : ι → ι) (h : ι) (l : List ι) : Prop where
  nodup : (h :: l).Nodup
  joined : (h :: l ++ [h]).IsChain (Joined next prev)

/-- A cell in the list stands beside the head and the others. -/
theorem perm_cons_middle (h x : ι) (l₁ l₂ : List ι) :
    (h :: (l₁ ++ x :: l₂)).Perm (x :: h :: (l₁ ++ l₂)) :=
  (List.perm_middle.cons h).trans (.swap x h _)

section Chain

variable {next prev next' prev' : ι → ι}

/-- Neighbours stay joined if the first ones keep their `next` and the
second ones their `prev`. -/
theorem isChain_joined_congr {l : List ι} (hl : l.IsChain (Joined next prev))
    (hnext : ∀ x ∈ l.dropLast, next' x = next x)
    (hprev : ∀ x ∈ l.tail, prev' x = prev x) :
    l.IsChain (Joined next' prev') := by
  induction l with
  | nil => exact .nil
  | cons x l ih =>
    cases l with
    | nil => exact .singleton x
    | cons y l =>
      rw [List.isChain_cons_cons] at hl ⊢
      obtain ⟨⟨hxy, hyx⟩, hrest⟩ := hl
      refine ⟨⟨?_, ?_⟩, ih hrest (fun z hz => hnext z ?_) fun z hz => hprev z ?_⟩
      · rw [hnext x (by simp), hxy]
      · rw [hprev y (by simp), hyx]
      · rw [List.dropLast_cons_cons]
        exact List.mem_cons_of_mem x hz
      · exact List.mem_cons_of_mem y hz

end Chain

namespace DoublyLinked

variable {next prev next' prev' : ι → ι} {h a b x : ι} {l l₁ l₂ : List ι}

/-- A cell linked to itself is an empty cycle. -/
theorem nil (hnext : next h = h) (hprev : prev h = h) :
    DoublyLinked next prev h [] :=
  ⟨List.nodup_singleton h, by simpa [Joined] using ⟨hnext, hprev⟩⟩

/-- A cycle sees only its own cells. -/
theorem congr (hd : DoublyLinked next prev h l)
    (hnext : ∀ x ∈ h :: l, next' x = next x)
    (hprev : ∀ x ∈ h :: l, prev' x = prev x) :
    DoublyLinked next' prev' h l := by
  refine ⟨hd.nodup, isChain_joined_congr hd.joined (fun x hx => hnext x ?_)
    fun x hx => hprev x ?_⟩
  · rwa [List.dropLast_concat] at hx
  · rcases List.mem_append.mp (List.mem_of_mem_tail hx) with hin | hin
    · exact hin
    · exact List.mem_singleton.mp hin ▸ List.mem_cons_self

/-- Where a list of cells is cut there is a last one before and a first one
behind, the head standing at both ends. -/
theorem exists_neighbours (h : ι) (l₁ l₂ : List ι) :
    ∃ p a b q, h :: l₁ = p ++ [a] ∧ l₂ ++ [h] = b :: q := by
  obtain ⟨b, q, hb⟩ := List.exists_cons_of_ne_nil
    (List.append_ne_nil_of_right_ne_nil l₂ (List.cons_ne_nil h []))
  exact ⟨_, _, b, q, (List.dropLast_append_getLast (List.cons_ne_nil h l₁)).symm,
    hb⟩

section Cut

variable {p q : List ι} (ha : h :: l₁ = p ++ [a]) (hb : l₂ ++ [h] = b :: q)
include ha hb

theorem around (m : List ι) :
    h :: (l₁ ++ m ++ l₂) ++ [h] = p ++ a :: (m ++ b :: q) := by
  rw [List.append_assoc, ← List.cons_append, ha, List.append_assoc,
    List.append_assoc, List.append_assoc, hb]
  rfl

/-- Another cell is none of the two. -/
theorem ne_neighbours (hx : x ∉ h :: (l₁ ++ l₂)) : x ≠ a ∧ x ≠ b := by
  constructor
  · rintro rfl
    exact hx (List.mem_append_left l₂ (ha ▸ by simp : x ∈ h :: l₁))
  · rintro rfl
    have hin : x ∈ l₂ ++ [h] := hb ▸ List.mem_cons_self
    simp only [List.mem_append, List.mem_cons, List.not_mem_nil] at hin hx
    tauto

/-- The cycle on either side of a cut does not see what is between, nor the
`next` of the cell before it and the `prev` of the cell behind. -/
theorem sides (next' prev' : ι → ι) {m : List ι}
    (hd : DoublyLinked next prev h (l₁ ++ m ++ l₂))
    (hnext : ∀ y ∈ h :: (l₁ ++ l₂), y ≠ a → next' y = next y)
    (hprev : ∀ y ∈ h :: (l₁ ++ l₂), y ≠ b → prev' y = prev y) :
    (p ++ [a]).IsChain (Joined next' prev') ∧
      (b :: q).IsChain (Joined next' prev') := by
  have hnd : (h :: (l₁ ++ l₂)).Nodup :=
    hd.nodup.sublist (by simp)
  have hfirst : (p ++ [a] ++ l₂).Nodup := by rwa [← ha]
  have hsecond : (l₁ ++ b :: q).Nodup := by
    rw [← hb, ← List.append_assoc]
    exact (List.perm_append_singleton _ _).nodup_iff.mpr hnd
  have hjoined := hd.joined
  rw [around ha hb] at hjoined
  obtain ⟨hleft, hright⟩ := List.isChain_split.mp hjoined
  rw [← List.cons_append] at hright
  constructor
  · refine isChain_joined_congr hleft (fun y hy => ?_) fun y hy => ?_
    · rw [List.dropLast_concat] at hy
      have hin : y ∈ h :: l₁ := ha ▸ List.mem_append_left [a] hy
      refine hnext y (List.mem_append_left l₂ hin) ?_
      rintro rfl
      exact List.disjoint_of_nodup_append hfirst.of_append_left hy (by simp)
    · rw [← ha] at hy
      refine hprev y (List.mem_cons_of_mem h (List.mem_append_left l₂ hy)) ?_
      rintro rfl
      exact List.disjoint_of_nodup_append hsecond hy List.mem_cons_self
  · refine isChain_joined_congr hright.right_of_append (fun y hy => ?_)
      fun y hy => ?_
    · rw [← hb, List.dropLast_concat] at hy
      refine hnext y (List.mem_append_right (h :: l₁) hy) ?_
      rintro rfl
      exact List.disjoint_of_nodup_append hfirst (by simp) hy
    · have hin : y ∈ l₂ ++ [h] := hb ▸ List.mem_cons_of_mem b hy
      refine hprev y ?_ ?_
      · simp only [List.mem_append, List.mem_cons, List.not_mem_nil] at hin ⊢
        tauto
      · rintro rfl
        exact (List.nodup_cons.mp hsecond.of_append_right).1 hy

/-- They are neighbours. -/
theorem neighbours (hd : DoublyLinked next prev h (l₁ ++ l₂)) :
    next a = b ∧ prev b = a := by
  have hjoined := hd.joined
  rw [← List.append_nil l₁, around ha hb, List.nil_append,
    List.isChain_append_cons_cons] at hjoined
  exact hjoined.2.1

/-- A cell between them points to both. -/
theorem neighbours_of (hd : DoublyLinked next prev h (l₁ ++ x :: l₂)) :
    next x = b ∧ prev x = a := by
  have hbefore := neighbours ha (List.cons_append (a := x)) hd
  rw [← List.singleton_append, ← List.append_assoc] at hd
  have hbehind := neighbours (List.cons_append (a := h)).symm hb hd
  exact ⟨hbehind.1, hbefore.2⟩

/-- **A cell is put between them.** -/
theorem insert [DecidableEq ι] (hd : DoublyLinked next prev h (l₁ ++ l₂))
    (hx : x ∉ h :: (l₁ ++ l₂)) :
    DoublyLinked (Function.update (Function.update next x b) a x)
      (Function.update (Function.update prev x a) b x) h (l₁ ++ x :: l₂) := by
  obtain ⟨hxa, hxb⟩ := ne_neighbours ha hb hx
  have hne : ∀ y ∈ h :: (l₁ ++ l₂), y ≠ x := by
    rintro y hy rfl
    exact hx hy
  rw [← List.append_nil l₁] at hd
  obtain ⟨hleft, hright⟩ := sides ha hb
    (Function.update (Function.update next x b) a x)
    (Function.update (Function.update prev x a) b x) hd
    (fun y hy hya => by
      rw [Function.update_of_ne hya, Function.update_of_ne (hne y hy)])
    (fun y hy hyb => by
      rw [Function.update_of_ne hyb, Function.update_of_ne (hne y hy)])
  constructor
  · rw [List.append_nil] at hd
    exact (perm_cons_middle h x l₁ l₂).nodup_iff.mpr
      (List.nodup_cons.mpr ⟨hx, hd.nodup⟩)
  · have haround := around ha hb [x]
    rw [List.append_assoc, List.singleton_append] at haround
    rw [haround, List.singleton_append, List.isChain_append_cons_cons,
      List.isChain_cons_cons]
    refine ⟨hleft, ⟨?_, ?_⟩, ⟨?_, ?_⟩, hright⟩
    · rw [Function.update_self]
    · rw [Function.update_of_ne hxb, Function.update_self]
    · rw [Function.update_of_ne hxa, Function.update_self]
    · rw [Function.update_self]

/-- **The cell between them is taken out**, and linked to itself. -/
theorem remove [DecidableEq ι]
    (hd : DoublyLinked next prev h (l₁ ++ x :: l₂)) :
    DoublyLinked (Function.update (Function.update next a b) x x)
      (Function.update (Function.update prev b a) x x) h (l₁ ++ l₂) := by
  obtain ⟨hx, hnd⟩ := List.nodup_cons.mp
    ((perm_cons_middle h x l₁ l₂).nodup_iff.mp hd.nodup)
  obtain ⟨hxa, hxb⟩ := ne_neighbours ha hb hx
  have hne : ∀ y ∈ h :: (l₁ ++ l₂), y ≠ x := by
    rintro y hy rfl
    exact hx hy
  have hd' : DoublyLinked next prev h (l₁ ++ [x] ++ l₂) := by
    rwa [List.append_assoc, List.singleton_append]
  obtain ⟨hleft, hright⟩ := sides ha hb
    (Function.update (Function.update next a b) x x)
    (Function.update (Function.update prev b a) x x) hd'
    (fun y hy hya => by
      rw [Function.update_of_ne (hne y hy), Function.update_of_ne hya])
    (fun y hy hyb => by
      rw [Function.update_of_ne (hne y hy), Function.update_of_ne hyb])
  refine ⟨hnd, ?_⟩
  have haround := around ha hb []
  rw [List.append_nil] at haround
  rw [haround, List.nil_append, List.isChain_append_cons_cons]
  refine ⟨hleft, ⟨?_, ?_⟩, hright⟩
  · rw [Function.update_of_ne hxa.symm, Function.update_self]
  · rw [Function.update_of_ne hxb.symm, Function.update_self]

end Cut

/-- In the other direction the list is reversed. -/
theorem reverse (hd : DoublyLinked next prev h l) :
    DoublyLinked prev next h l.reverse := by
  have hnd := List.nodup_cons.mp hd.nodup
  refine ⟨List.nodup_cons.mpr ⟨?_, List.nodup_reverse.mpr hnd.2⟩, ?_⟩
  · simpa using hnd.1
  · have hflip : (h :: l.reverse ++ [h]) = (h :: l ++ [h]).reverse := by simp
    rw [hflip, List.isChain_reverse]
    exact hd.joined.imp fun _ _ hxy => ⟨hxy.2, hxy.1⟩

/-- A walk from the head visits the list and comes back to the head. -/
theorem linked (hd : DoublyLinked next prev h l) : Linked next h (next h) l := by
  have hall : ∀ (l : List ι) (x : ι),
      (x :: l ++ [h]).IsChain (Joined next prev) → Linked next h (next x) l := by
    intro l
    induction l with
    | nil => exact fun x hc => (List.isChain_pair.mp hc).1
    | cons y l ih =>
      intro x hc
      obtain ⟨⟨hxy, -⟩, hrest⟩ := List.isChain_cons_cons.mp hc
      exact ⟨hxy, ih y hrest⟩
  exact hall l h hd.joined

end DoublyLinked

/-! ## Walks -/

section Walk

variable [DecidableEq ι]

/-- The cells a loop meets that follows `step` until it stands on `e`. -/
def walk (step : ι → ι) (e : ι) : Nat → ι → Option (List ι)
  | 0, _ => none
  | fuel + 1, x =>
    if x = e then some [] else (walk step e fuel (step x)).map (x :: ·)

theorem Linked.walk_eq {step : ι → ι} {e x : ι} {l : List ι}
    (hl : Linked step e x l) (he : e ∉ l) :
    Settles (fun fuel => walk step e fuel x) (· = l) := by
  induction l generalizing x with
  | nil =>
    refine .of_eq (fun fuel => ?_) rfl
    rw [walk, if_pos ((linked_nil step e x).mp hl)]
  | cons y l ih =>
    obtain ⟨rfl, hrest⟩ := hl
    rw [List.mem_cons, not_or] at he
    refine .step_map (x :: ·) (fun fuel => ?_) (fun m hm => ?_) (ih hrest he.2)
    · rw [walk, if_neg (Ne.symm he.1)]
    · rw [hm]

namespace DoublyLinked

variable {next prev : ι → ι} {h : ι} {l : List ι}

theorem walk_next (hd : DoublyLinked next prev h l) :
    Settles (fun fuel => walk next h fuel (next h)) (· = l) :=
  hd.linked.walk_eq (List.nodup_cons.mp hd.nodup).1

theorem walk_prev (hd : DoublyLinked next prev h l) :
    Settles (fun fuel => walk prev h fuel (prev h)) (· = l.reverse) :=
  hd.reverse.walk_next

end DoublyLinked

end Walk

end OpenAmp.Lib
