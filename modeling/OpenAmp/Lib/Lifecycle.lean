import Mathlib.Data.List.Induction
import Mathlib.Data.List.Nodup
import Mathlib.Data.List.Perm.Basic

/-!
# Life cycles

A log of what has happened to a set of objects: one entry an object and
the kind of event it went through. `follows` says which kind may come
after which in the life of one object; a log is lawful when every entry
obeys it. `Tracks` ties a log to the places objects are kept in now: the
place of an object is named by the last event it went through.
-/

namespace OpenAmp.Lib

variable {α κ : Type*} [DecidableEq α]

/-- The kind of the last event of `x`. -/
def lastKind (x : α) (log : List (α × κ)) : Option κ :=
  log.foldl (fun k e => if e.1 = x then some e.2 else k) none

/-- Every event may come after what its object went through before. -/
def Lawful (follows : Option κ → κ → Prop) (log : List (α × κ)) : Prop :=
  ∀ l₁ x k l₂, log = l₁ ++ (x, k) :: l₂ → follows (lastKind x l₁) k

variable {x y : α} {k k' : κ} {log l₁ l₂ l₃ : List (α × κ)}
  {follows : Option κ → κ → Prop}

@[simp] theorem lastKind_snoc :
    lastKind x (log ++ [(y, k)]) =
      if y = x then some k else lastKind x log := by
  simp [lastKind]

theorem lastKind_append_of_notMem (h : ∀ e ∈ l₂, e.1 ≠ x) :
    lastKind x (l₁ ++ l₂) = lastKind x l₁ := by
  induction l₂ using List.reverseRecOn with
  | nil => simp
  | append_singleton l e ih =>
    obtain ⟨y, k⟩ := e
    rw [← List.append_assoc, lastKind_snoc,
      if_neg (h (y, k) (by simp)), ih fun e he => h e (by simp [he])]

/-- A kind that is last is in the log, and stays so when earlier events
are put before it. -/
theorem lastKind_append_cons (x : α) (k : κ) (l₁ l₂ : List (α × κ)) :
    lastKind x (l₁ ++ (x, k) :: l₂) = some k ∧ (∀ e ∈ l₂, e.1 ≠ x) ∨
      ∃ k', lastKind x (l₁ ++ (x, k) :: l₂) = some k' ∧ (x, k') ∈ l₂ := by
  induction l₂ using List.reverseRecOn with
  | nil => simp
  | append_singleton l e ih =>
    obtain ⟨y, ky⟩ := e
    rw [← List.cons_append, ← List.append_assoc, lastKind_snoc]
    by_cases hy : y = x
    · exact .inr ⟨ky, by simp [hy], by simp [hy]⟩
    · rw [if_neg hy]
      rcases ih with ⟨h1, h2⟩ | ⟨k', h1, h2⟩
      · refine .inl ⟨h1, fun e he => ?_⟩
        rcases List.mem_append.mp he with he | he
        · exact h2 e he
        · rw [List.mem_singleton.mp he]
          exact hy
      · exact .inr ⟨k', h1, by simp [h2]⟩

/-- An object that went through an event went through a last one. -/
theorem exists_lastKind (h : (x, k) ∈ log) :
    ∃ k', lastKind x log = some k' := by
  obtain ⟨l₁, l₂, rfl⟩ := List.append_of_mem h
  rcases lastKind_append_cons x k l₁ l₂ with ⟨hk, -⟩ | ⟨k', hk, -⟩
  · exact ⟨k, hk⟩
  · exact ⟨k', hk⟩

theorem Lawful.nil : Lawful follows ([] : List (α × κ)) := by
  intro l₁ x k l₂ h
  simp at h

theorem Lawful.snoc (h : Lawful follows log)
    (hf : follows (lastKind x log) k) : Lawful follows (log ++ [(x, k)]) := by
  intro l₁ y k' l₂ heq
  rcases List.eq_nil_or_concat l₂ with rfl | ⟨l, e, rfl⟩
  · obtain ⟨rfl, he⟩ := List.append_inj' heq rfl
    cases he
    exact hf
  · rw [List.concat_eq_append, ← List.cons_append, ← List.append_assoc] at heq
    exact h l₁ y k' l (List.append_inj' heq rfl).1

/-- The first event of `x` in a log that has one. -/
theorem exists_first {l : List (α × κ)} (h : ∃ e ∈ l, e.1 = x) :
    ∃ m₁ k m₂, l = m₁ ++ (x, k) :: m₂ ∧ ∀ e ∈ m₁, e.1 ≠ x := by
  induction l with
  | nil => simp at h
  | cons e l ih =>
    obtain ⟨y, k⟩ := e
    by_cases hy : y = x
    · subst hy
      exact ⟨[], k, l, rfl, by simp⟩
    · obtain ⟨e, he, hex⟩ := h
      have hmem : e ∈ l := by
        rcases List.mem_cons.mp he with rfl | he
        · exact absurd hex hy
        · exact he
      obtain ⟨m₁, k', m₂, rfl, hm⟩ := ih ⟨e, hmem, hex⟩
      refine ⟨(y, k) :: m₁, k', m₂, rfl, fun e he => ?_⟩
      rcases List.mem_cons.mp he with rfl | he
      · exact hy
      · exact hm e he

/-- **Between two events of one object.** Either the second may directly
follow the first, or the object went through something in between: a
first event, that may follow the first one, and a last one, that the
second may follow. -/
theorem Lawful.between
    (h : Lawful follows (l₁ ++ (x, k) :: l₂ ++ (x, k') :: l₃)) :
    follows (some k) k' ∨
      ∃ m₁ ka m₂ kb, l₂ = m₁ ++ (x, ka) :: m₂ ∧ follows (some k) ka ∧
        (∀ e ∈ m₁, e.1 ≠ x) ∧ (x, kb) ∈ l₂ ∧ follows (some kb) k' := by
  have hlast := h _ x k' l₃ rfl
  rcases lastKind_append_cons x k l₁ l₂ with
    ⟨hk, -⟩ | ⟨kb, hkb, hmem⟩
  · rw [hk] at hlast
    exact .inl hlast
  · rw [hkb] at hlast
    obtain ⟨m₁, ka, m₂, rfl, hm⟩ := exists_first ⟨_, hmem, rfl⟩
    have hfirst := h (l₁ ++ (x, k) :: m₁) x ka (m₂ ++ (x, k') :: l₃) (by simp)
    have hka : lastKind x (l₁ ++ (x, k) :: m₁) = some k := by
      rw [List.append_cons, lastKind_append_of_notMem hm, lastKind_snoc,
        if_pos rfl]
    rw [hka] at hfirst
    exact .inr ⟨m₁, ka, m₂, kb, rfl, hfirst, hm, hmem, hlast⟩

/-! ## Places -/

/-- The objects at hand, each in the place its last event names, no
object twice; the life of any other object has not begun or has stopped
at an event of `out`. -/
structure Tracks (follows : Option κ → κ → Prop) (out : κ → Prop)
    (places : List (α × κ)) (log : List (α × κ)) : Prop where
  lawful : Lawful follows log
  nodup : (places.map Prod.fst).Nodup
  here : ∀ e ∈ places, lastKind e.1 log = some e.2
  away : ∀ x, x ∉ places.map Prod.fst →
    lastKind x log = none ∨ ∃ k, lastKind x log = some k ∧ out k

variable {out : κ → Prop} {places places' : List (α × κ)}

theorem Tracks.nil : Tracks follows out ([] : List (α × κ)) [] :=
  ⟨.nil, by simp, by simp, fun _ _ => .inl rfl⟩

theorem Tracks.perm (h : Tracks follows out places log)
    (hp : places.Perm places') : Tracks follows out places' log where
  lawful := h.lawful
  nodup := (hp.map _).nodup_iff.mp h.nodup
  here := fun e he => h.here e (hp.mem_iff.mpr he)
  away := fun x hx => h.away x fun hx' => hx ((hp.map _).mem_iff.mp hx')

/-- An object goes from one place to the next. -/
theorem Tracks.move (h : Tracks follows out ((x, k) :: places) log)
    (hf : follows (some k) k') :
    Tracks follows out ((x, k') :: places) (log ++ [(x, k')]) := by
  have hx := List.nodup_cons.mp h.nodup
  refine ⟨h.lawful.snoc ?_, h.nodup, fun e he => ?_, fun y hy => ?_⟩
  · rw [h.here (x, k) (by simp)]
    exact hf
  · rw [lastKind_snoc]
    rcases List.mem_cons.mp he with rfl | he'
    · simp
    · have hne : x ≠ e.1 := by
        rintro rfl
        exact hx.1 (List.mem_map.mpr ⟨e, he', rfl⟩)
      rw [if_neg hne, h.here e (by simp [he'])]
  · have hne : x ≠ y := fun heq => hy (by simp [heq])
    rw [lastKind_snoc, if_neg hne]
    exact h.away y hy

/-- An object comes in. -/
theorem Tracks.enter (h : Tracks follows out places log)
    (hx : x ∉ places.map Prod.fst) (hnone : follows none k)
    (hout : ∀ k', out k' → follows (some k') k) :
    Tracks follows out ((x, k) :: places) (log ++ [(x, k)]) := by
  refine ⟨h.lawful.snoc ?_, List.nodup_cons.mpr ⟨hx, h.nodup⟩,
    fun e he => ?_, fun y hy => ?_⟩
  · rcases h.away x hx with hl | ⟨k', hl, hk⟩ <;> rw [hl]
    · exact hnone
    · exact hout k' hk
  · rw [lastKind_snoc]
    rcases List.mem_cons.mp he with rfl | he'
    · simp
    · have hne : x ≠ e.1 := by
        rintro rfl
        exact hx (List.mem_map.mpr ⟨e, he', rfl⟩)
      rw [if_neg hne, h.here e he']
  · simp only [List.map_cons, List.mem_cons, not_or] at hy
    rw [lastKind_snoc, if_neg fun heq => hy.1 heq.symm]
    exact h.away y hy.2

/-- An object goes out. -/
theorem Tracks.leave (h : Tracks follows out ((x, k) :: places) log)
    (hf : follows (some k) k') (hk : out k') :
    Tracks follows out places (log ++ [(x, k')]) := by
  have hm := h.move hf
  refine ⟨hm.lawful, (List.nodup_cons.mp h.nodup).2,
    fun e he => hm.here e (by simp [he]), fun y hy => ?_⟩
  by_cases hyx : y = x
  · exact .inr ⟨k', by simp [hyx], hk⟩
  · exact hm.away y (by simp [hyx, hy])

/-- An object whose last event is not an exit is in the place named. -/
theorem Tracks.mem (h : Tracks follows out places log)
    (hl : lastKind x log = some k) (hk : ¬ out k) : (x, k) ∈ places := by
  by_contra hnot
  have hx : x ∉ places.map Prod.fst := by
    intro hmem
    obtain ⟨⟨y, k'⟩, he, rfl⟩ := List.mem_map.mp hmem
    have := h.here _ he
    rw [hl] at this
    cases this
    exact hnot he
  rcases h.away x hx with h0 | ⟨k', h0, hk'⟩
  · rw [hl] at h0
    cases h0
  · rw [hl] at h0
    cases h0
    exact hk hk'

end OpenAmp.Lib
