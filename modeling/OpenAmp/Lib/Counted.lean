import OpenAmp.Lib.Transition
import Mathlib.Tactic.Common

/-!
# Objects with a reference counter

An object is published on a list, found there by any number of users, and
taken off the list again. A user that holds a reference has raised the
counter and will lower it; a user that only peeks has not. Whoever lowers
the counter to zero tells the object's owner, if the owner asked for it,
and clears the object's mark of being alive otherwise.

`Counted` is one such object with its users counted, `Story` what its
owner has done with it: the object is published once, in two parts of
which the second may take the publication back, and retired once, in two
parts that others come between.
-/

namespace OpenAmp.Lib

/-- A counted object: whether the owner is told of the end, the counter,
the mark, how often it is on the list, the references held, the users that
have still to look at it without one, and how often the owner was told. -/
@[ext] structure Counted where
  notify : Bool
  count : UInt32
  live : Bool
  listed : Nat
  held : Nat
  peeked : Nat
  told : Nat

namespace Counted

/-- Lowering the counter. -/
def decref (o : Counted) : Counted :=
  let o := { o with count := o.count - 1 }
  if o.count ≠ 0 then o
  else if o.notify then { o with told := o.told + 1 }
  else { o with live := false }

def enlist (o : Counted) : Counted :=
  { o with listed := o.listed + 1, count := 1, live := true }

def delist (o : Counted) : Counted :=
  { o with listed := o.listed - 1 }.decref

def take (o : Counted) : Counted :=
  { o with held := o.held + 1, count := o.count + 1 }

def drop (o : Counted) : Counted :=
  { o with held := o.held - 1 }.decref

/-- What can happen to an object; `settle` ends its publication, `retire`
begins its removal, `free` ends its life. -/
inductive Act where
  | publish
  | settle (ok : Bool)
  | retire
  | delist
  | free
  | take
  | drop
  | peek
  | unpeek
  | idle
deriving DecidableEq, Repr

/-- The object before and after. Users find it on the list only, and no
more than `cap` hold it. -/
def Moves (cap : Nat) (o : Counted) : Act → Counted → Prop
  | .publish, t => t = o.enlist
  | .settle true, t => t = o
  | .settle false, t => t = o.delist
  | .retire, t => t = o
  | .delist, t => t = o.delist
  | .free, t => t = o
  | .take, t => o.listed ≠ 0 ∧ o.held < cap ∧ t = o.take
  | .drop, t => o.held ≠ 0 ∧ t = o.drop
  | .peek, t => o.listed ≠ 0 ∧ t = { o with peeked := o.peeked + 1 }
  | .unpeek, t => o.peeked ≠ 0 ∧ t = { o with peeked := o.peeked - 1 }
  | .idle, t => t = o

variable {o : Counted} {cap : Nat}

@[simp] theorem decref_notify : o.decref.notify = o.notify := by
  simp only [decref]
  split
  · rfl
  · split <;> rfl

@[simp] theorem decref_listed : o.decref.listed = o.listed := by
  simp only [decref]
  split
  · rfl
  · split <;> rfl

@[simp] theorem decref_held : o.decref.held = o.held := by
  simp only [decref]
  split
  · rfl
  · split <;> rfl

@[simp] theorem decref_peeked : o.decref.peeked = o.peeked := by
  simp only [decref]
  split
  · rfl
  · split <;> rfl

@[simp] theorem decref_count : o.decref.count = o.count - 1 := by
  simp only [decref]
  split
  · rfl
  · split <;> rfl

theorem told_le_decref (o : Counted) : o.told ≤ o.decref.told := by
  simp only [decref]
  split
  · exact Nat.le_refl _
  · split
    · exact Nat.le_succ _
    · exact Nat.le_refl _

/-- Whether the owner is told stays, and what it was told is not taken
back. -/
theorem Moves.notify_told {a : Act} {t : Counted} (h : o.Moves cap a t) :
    t.notify = o.notify ∧ o.told ≤ t.told := by
  cases a with
  | publish =>
    obtain rfl : t = o.enlist := h
    exact ⟨rfl, Nat.le_refl _⟩
  | settle ok =>
    cases ok with
    | true =>
      obtain rfl : t = o := h
      exact ⟨rfl, Nat.le_refl _⟩
    | false =>
      obtain rfl : t = o.delist := h
      exact ⟨decref_notify, told_le_decref { o with listed := o.listed - 1 }⟩
  | delist =>
    obtain rfl : t = o.delist := h
    exact ⟨decref_notify, told_le_decref { o with listed := o.listed - 1 }⟩
  | take =>
    obtain ⟨-, -, rfl⟩ := h
    exact ⟨rfl, Nat.le_refl _⟩
  | drop =>
    obtain ⟨-, rfl⟩ := h
    exact ⟨decref_notify, told_le_decref { o with held := o.held - 1 }⟩
  | peek =>
    obtain ⟨-, rfl⟩ := h
    exact ⟨rfl, Nat.le_refl _⟩
  | unpeek =>
    obtain ⟨-, rfl⟩ := h
    exact ⟨rfl, Nat.le_refl _⟩
  | retire =>
    obtain rfl : t = o := h
    exact ⟨rfl, Nat.le_refl _⟩
  | free =>
    obtain rfl : t = o := h
    exact ⟨rfl, Nat.le_refl _⟩
  | idle =>
    obtain rfl : t = o := h
    exact ⟨rfl, Nat.le_refl _⟩

/-! ## Books that balance -/

/-- The counter counts the list and the references, and the end was noted
if there is none of either. -/
structure Fair (o : Counted) : Prop where
  count : o.count.toNat = o.listed + o.held
  told : o.told = if o.notify ∧ o.listed + o.held = 0 then 1 else 0
  live : o.live = true ↔ o.notify ∨ o.listed + o.held ≠ 0

/-- Lowering the counter together with what it counts. -/
theorem fair_decref (hcount : o.count.toNat = o.listed + o.held + 1)
    (htold : o.told = 0) (hlive : o.live = true) : o.decref.Fair := by
  have hsub : (o.count - 1).toNat = o.listed + o.held := by
    have hle : (1 : UInt32) ≤ o.count := by
      rw [UInt32.le_iff_toNat_le, hcount, UInt32.toNat_one]
      omega
    rw [UInt32.toNat_sub_of_le _ _ hle, hcount, UInt32.toNat_one,
      Nat.add_sub_cancel]
  have hzero : o.count - 1 = 0 ↔ o.listed + o.held = 0 := by
    rw [← UInt32.toNat_inj, hsub]
    rfl
  by_cases h0 : o.count - 1 = 0
  · have hnone := hzero.mp h0
    cases hn : o.notify with
    | true =>
      have heq : o.decref =
          { o with count := o.count - 1, told := o.told + 1 } := by
        simp [decref, h0, hn]
      rw [heq]
      exact ⟨hsub, by simp [htold, hn, hnone], by simp [hlive, hn]⟩
    | false =>
      have heq : o.decref = { o with count := o.count - 1, live := false } := by
        simp [decref, h0, hn]
      rw [heq]
      exact ⟨hsub, by simp [htold, hn], by simp [hn, hnone]⟩
  · have hsome : o.listed + o.held ≠ 0 := fun h => h0 (hzero.mpr h)
    have heq : o.decref = { o with count := o.count - 1 } := by
      simp [decref, h0]
    rw [heq]
    refine ⟨hsub, ?_, ?_⟩
    · rw [if_neg fun h => hsome h.2]
      exact htold
    · exact iff_of_true hlive (.inr hsome)

namespace Fair

/-- While the object is on the list or held its end was not noted. -/
theorem not_told (h : o.Fair) (hsome : o.listed + o.held ≠ 0) :
    o.told = 0 := by
  rw [h.told, if_neg fun hend => hsome hend.2]

theorem is_live (h : o.Fair) (hsome : o.listed + o.held ≠ 0) :
    o.live = true := h.live.mpr (.inr hsome)

theorem delist (h : o.Fair) (hlisted : o.listed ≠ 0) : o.delist.Fair := by
  have hsome : o.listed + o.held ≠ 0 := by omega
  refine fair_decref ?_ (h.not_told hsome) (h.is_live hsome)
  have hcount := h.count
  dsimp only
  omega

theorem drop (h : o.Fair) (hheld : o.held ≠ 0) : o.drop.Fair := by
  have hsome : o.listed + o.held ≠ 0 := by omega
  refine fair_decref ?_ (h.not_told hsome) (h.is_live hsome)
  have hcount := h.count
  dsimp only
  omega

theorem take (h : o.Fair) (hlisted : o.listed ≠ 0)
    (hroom : o.listed + o.held + 1 < UInt32.size) : o.take.Fair := by
  have hsome : o.listed + o.held ≠ 0 := by omega
  refine ⟨?_, ?_, ?_⟩
  · show (o.count + 1).toNat = o.listed + (o.held + 1)
    rw [UInt32.toNat_add, h.count, UInt32.toNat_one]
    exact Nat.mod_eq_of_lt hroom
  · show o.told = _
    rw [h.not_told hsome, if_neg fun hend => ?_]
    exact absurd hend.2 (Nat.succ_ne_zero _)
  · refine iff_of_true (h.is_live hsome) (.inr ?_)
    exact Nat.succ_ne_zero _

end Fair

theorem fair_enlist (hlisted : o.listed = 0) (hheld : o.held = 0)
    (htold : o.told = 0) : o.enlist.Fair := by
  refine ⟨?_, ?_, ?_⟩
  · show (1 : UInt32).toNat = o.listed + 1 + o.held
    rw [hlisted, hheld]
    rfl
  · show o.told = _
    rw [htold, if_neg fun hend => ?_]
    have hsum : o.listed + 1 + o.held = 0 := hend.2
    omega
  · refine iff_of_true rfl (.inr ?_)
    show o.listed + 1 + o.held ≠ 0
    omega

theorem Fair.peek (h : o.Fair) (n : Nat) : { o with peeked := n }.Fair :=
  ⟨h.count, h.told, h.live⟩

end Counted

/-! ## The owner's part -/

/-- How far the publication has come. -/
inductive Made where
  | before
  | published
  | done
deriving DecidableEq, Repr

/-- How far the removal has come. -/
inductive Fate where
  | kept
  | leaving
  | left
  | freed
deriving DecidableEq, Repr

/-- How often the publication may have taken the object off the list. -/
def Made.turns : Made → Nat
  | .done => 1
  | _ => 0

/-- How often the removal has. -/
def Fate.turns : Fate → Nat
  | .kept => 0
  | .leaving => 0
  | .left => 1
  | .freed => 1

/-- What the owner has done: `delists` counts how often the object was
taken off the list, `regular` says that the publication was not taken back
and that the removal did not begin before it, and `last` is the counter at
the end of the object's life. -/
structure Story where
  made : Made
  fate : Fate
  delists : Nat
  regular : Bool
  last : UInt32
deriving DecidableEq, Repr

/-- The owner publishes once and retires once. A removal goes on only if
the object is marked alive when it begins. -/
def Story.next (y : Story) (o : Counted) : Counted.Act → Option Story
  | .publish =>
    if y.made = .before then some { y with made := .published } else none
  | .settle ok =>
    if y.made = .published then some { y with
      made := .done
      delists := if ok then y.delists else y.delists + 1
      regular := y.regular && ok }
    else none
  | .retire =>
    if y.fate = .kept then some { y with
      fate := if o.live then .leaving else .left
      regular := y.regular && decide (y.made ≠ .before) }
    else none
  | .delist =>
    if y.fate = .leaving then some { y with
      fate := .left, delists := y.delists + 1 }
    else none
  | .free =>
    if y.fate = .left then some { y with fate := .freed, last := o.count }
    else none
  | _ => some y

/-- Only the publication makes a published object. -/
theorem Story.next_before {y y' : Story} {o : Counted} {a : Counted.Act}
    (h : y.next o a = some y') (hmade : y.made = .before)
    (ha : a ≠ .publish) : y'.made = .before := by
  cases a with
  | publish => exact absurd rfl ha
  | settle ok =>
    have hpublished := (Option.ite_none_right_eq_some.mp h).1
    rw [hmade] at hpublished
    cases hpublished
  | retire =>
    obtain ⟨-, ⟨⟩⟩ := Option.ite_none_right_eq_some.mp h
    exact hmade
  | delist =>
    obtain ⟨-, ⟨⟩⟩ := Option.ite_none_right_eq_some.mp h
    exact hmade
  | free =>
    obtain ⟨-, ⟨⟩⟩ := Option.ite_none_right_eq_some.mp h
    exact hmade
  | _ =>
    obtain rfl : y = y' := Option.some.inj h
    exact hmade

/-- An object and its story. -/
structure Tracked where
  obj : Counted
  story : Story

def Tracked.Step (cap : Nat) (s : Tracked) (a : Counted.Act) (t : Tracked) :
    Prop :=
  s.obj.Moves cap a t.obj ∧ s.story.next s.obj a = some t.story

/-- The object as its owner begins with it. -/
def Story.start : Story := ⟨.before, .kept, 0, true, 0⟩

namespace Tracked

variable {cap : Nat} {s t : Tracked} {a : Counted.Act}

/-- Not published yet, and nothing of it is in use. -/
structure Unborn (s : Tracked) : Prop where
  made : s.story.made = .before
  fate : s.story.fate = .kept
  listed : s.obj.listed = 0
  held : s.obj.held = 0
  told : s.obj.told = 0

/-- Published, with balanced books, and on the list until it was taken
off. -/
structure Born (s : Tracked) : Prop where
  made : s.story.made ≠ .before
  fair : s.obj.Fair
  listed : s.obj.listed =
    if s.story.fate = .kept ∨ s.story.fate = .leaving then 1 else 0

theorem Born.listed_le (h : s.Born) : s.obj.listed ≤ 1 := by
  rw [h.listed]
  split <;> omega

/-- In a regular story the object is one or the other. -/
def RegularInv (s : Tracked) : Prop :=
  s.story.regular = true → s.Unborn ∨ s.Born

/-- What a user does keeps the state of the object. -/
theorem Born.use (h : s.Born) (hcap : cap + 1 < UInt32.size)
    (ha : a = .take ∨ a = .drop ∨ a = .peek ∨ a = .unpeek)
    (hstep : s.Step cap a t) : t.Born := by
  obtain ⟨obj', story'⟩ := t
  rcases ha with rfl | rfl | rfl | rfl
  · obtain ⟨⟨hlisted, hroom, rfl⟩, hnext⟩ := hstep
    obtain rfl : s.story = story' := Option.some.inj hnext
    have hle := h.listed_le
    exact ⟨h.made, h.fair.take hlisted (by omega), h.listed⟩
  · obtain ⟨⟨hheld, rfl⟩, hnext⟩ := hstep
    obtain rfl : s.story = story' := Option.some.inj hnext
    refine ⟨h.made, h.fair.drop hheld, ?_⟩
    exact Counted.decref_listed.trans h.listed
  · obtain ⟨⟨hlisted, rfl⟩, hnext⟩ := hstep
    obtain rfl : s.story = story' := Option.some.inj hnext
    exact ⟨h.made, h.fair.peek _, h.listed⟩
  · obtain ⟨⟨hpeeked, rfl⟩, hnext⟩ := hstep
    obtain rfl : s.story = story' := Option.some.inj hnext
    exact ⟨h.made, h.fair.peek _, h.listed⟩

theorem Unborn.use (h : s.Unborn)
    (ha : a = .take ∨ a = .drop ∨ a = .peek ∨ a = .unpeek)
    (hstep : s.Step cap a t) : t.Unborn := by
  obtain ⟨obj', story'⟩ := t
  rcases ha with rfl | rfl | rfl | rfl
  · exact absurd h.listed hstep.1.1
  · exact absurd h.held hstep.1.1
  · exact absurd h.listed hstep.1.1
  · obtain ⟨⟨-, rfl⟩, hnext⟩ := hstep
    obtain rfl : s.story = story' := Option.some.inj hnext
    exact ⟨h.made, h.fate, h.listed, h.held, h.told⟩

/-- What the owner does keeps a regular story's books. -/
theorem RegularInv.step (h : s.RegularInv) (hcap : cap + 1 < UInt32.size)
    (hstep : s.Step cap a t) : t.RegularInv := by
  have huse : a = .take ∨ a = .drop ∨ a = .peek ∨ a = .unpeek →
      t.RegularInv := by
    intro ha hreg
    have hsame : t.story = s.story := by
      rcases ha with rfl | rfl | rfl | rfl <;>
        exact (Option.some.inj hstep.2).symm
    rw [hsame] at hreg
    rcases h hreg with hunborn | hborn
    · exact .inl (hunborn.use ha hstep)
    · exact .inr (hborn.use hcap ha hstep)
  obtain ⟨obj', story'⟩ := t
  cases a with
  | publish =>
    obtain ⟨rfl, hnext⟩ := hstep
    obtain ⟨hmade, ⟨⟩⟩ := Option.ite_none_right_eq_some.mp hnext
    intro hreg
    rcases h hreg with hunborn | hborn
    · refine .inr ⟨nofun, ?_, ?_⟩
      · exact Counted.fair_enlist hunborn.listed hunborn.held hunborn.told
      · show s.obj.listed + 1 = _
        rw [hunborn.listed, if_pos (.inl hunborn.fate)]
    · exact absurd hmade hborn.made
  | settle ok =>
    obtain ⟨hmove, hnext⟩ := hstep
    obtain ⟨hmade, ⟨⟩⟩ := Option.ite_none_right_eq_some.mp hnext
    intro hreg
    -- a publication that is taken back is not regular
    obtain ⟨hbefore, rfl⟩ : s.story.regular = true ∧ ok = true := by
      simpa using hreg
    obtain rfl : obj' = s.obj := hmove
    rcases h hbefore with hunborn | hborn
    · exact absurd (hmade.symm.trans hunborn.made) nofun
    · exact .inr ⟨nofun, hborn.fair, hborn.listed⟩
  | retire =>
    obtain ⟨hmove, hnext⟩ := hstep
    obtain ⟨hfate, ⟨⟩⟩ := Option.ite_none_right_eq_some.mp hnext
    intro hreg
    obtain ⟨hbefore, hmade⟩ : s.story.regular = true ∧
        s.story.made ≠ .before := by
      simpa using hreg
    obtain rfl : obj' = s.obj := hmove
    rcases h hbefore with hunborn | hborn
    · exact absurd hunborn.made hmade
    · -- still on the list, the object is alive
      have hlisted := hborn.listed
      rw [if_pos (.inl hfate)] at hlisted
      have hlive := hborn.fair.is_live (by omega)
      refine .inr ⟨hborn.made, hborn.fair, ?_⟩
      simp only [hlive, if_true, or_true]
      exact hlisted
  | delist =>
    obtain ⟨rfl, hnext⟩ := hstep
    obtain ⟨hfate, ⟨⟩⟩ := Option.ite_none_right_eq_some.mp hnext
    intro hreg
    rcases h hreg with hunborn | hborn
    · exact absurd (hfate.symm.trans hunborn.fate) nofun
    · have hlisted := hborn.listed
      rw [if_pos (.inr hfate)] at hlisted
      refine .inr ⟨hborn.made, hborn.fair.delist (by omega), ?_⟩
      refine Counted.decref_listed.trans ?_
      show s.obj.listed - 1 = 0
      omega
  | free =>
    obtain ⟨hmove, hnext⟩ := hstep
    obtain ⟨hfate, ⟨⟩⟩ := Option.ite_none_right_eq_some.mp hnext
    obtain rfl : obj' = s.obj := hmove
    intro hreg
    rcases h hreg with hunborn | hborn
    · exact absurd (hfate.symm.trans hunborn.fate) nofun
    · refine .inr ⟨hborn.made, hborn.fair, ?_⟩
      rw [hborn.listed, hfate]
      rfl
  | take => exact huse (.inl rfl)
  | drop => exact huse (.inr (.inl rfl))
  | peek => exact huse (.inr (.inr (.inl rfl)))
  | unpeek => exact huse (.inr (.inr (.inr rfl)))
  | idle =>
    obtain ⟨hmove, hnext⟩ := hstep
    obtain rfl : obj' = s.obj := hmove
    obtain rfl : s.story = story' := Option.some.inj hnext
    exact h

/-- The owner that asked for it is told once the object was taken off the
list and nobody holds it. -/
theorem RegularInv.told_eq (h : s.RegularInv)
    (hregular : s.story.regular = true) (hnotify : s.obj.notify = true) :
    s.obj.told =
      if (s.story.fate = .left ∨ s.story.fate = .freed) ∧ s.obj.held = 0
      then 1 else 0 := by
  rcases h hregular with hunborn | hborn
  · rw [hunborn.told, hunborn.fate]
    simp
  · rw [hborn.fair.told, hborn.listed]
    cases s.story.fate <;> simp [hnotify]

theorem RegularInv.listed_eq (h : s.RegularInv)
    (hregular : s.story.regular = true)
    (hfate : s.story.fate = .left ∨ s.story.fate = .freed) :
    s.obj.listed = 0 := by
  rcases h hregular with hunborn | hborn
  · exact hunborn.listed
  · rw [hborn.listed]
    rcases hfate with h | h <;> rw [h] <;> rfl

/-- Without being told, the owner sees from the mark whether a removed
object is still held. -/
theorem RegularInv.live_iff (h : s.RegularInv)
    (hregular : s.story.regular = true) (hnotify : s.obj.notify = false)
    (hfate : s.story.fate = .left) :
    s.obj.live = true ↔ s.obj.held ≠ 0 := by
  rcases h hregular with hunborn | hborn
  · exact absurd (hfate.symm.trans hunborn.fate) nofun
  · have hlisted := h.listed_eq hregular (.inl hfate)
    rw [hborn.fair.live, hnotify, hlisted]
    simp

/-! ## The end of an object's life -/

/-- The books of any story that begins with a cleared object: the counter
is short by one for every time the object was taken off the list. -/
structure Ledger (cap : Nat) (s : Tracked) : Prop where
  unborn : s.story.made = .before → s.obj.count = 0 ∧ s.obj.live = false ∧
    s.obj.listed = 0 ∧ s.obj.held = 0 ∧ s.obj.peeked = 0 ∧
    s.story.delists = 0 ∧ s.story.fate ≠ .leaving
  born : s.story.made ≠ .before →
    s.obj.count + UInt32.ofNat s.story.delists =
      1 + UInt32.ofNat s.obj.held ∧
    s.obj.listed = if s.story.delists = 0 then 1 else 0
  few : s.story.delists ≤ s.story.made.turns + s.story.fate.turns
  bound : s.obj.held ≤ cap

/-- An object its owner has just made. -/
structure Fresh (s : Tracked) : Prop where
  story : s.story = .start
  count : s.obj.count = 0
  live : s.obj.live = false
  listed : s.obj.listed = 0
  held : s.obj.held = 0
  peeked : s.obj.peeked = 0

theorem Fresh.ledger (h : s.Fresh) : s.Ledger cap where
  unborn _ := by
    refine ⟨h.count, h.live, h.listed, h.held, h.peeked, ?_, ?_⟩
    · rw [h.story]
      rfl
    · rw [h.story]
      exact nofun
  born hmade := absurd (by rw [h.story]; rfl) hmade
  few := by
    rw [h.story]
    exact Nat.zero_le _
  bound := by
    rw [h.held]
    exact Nat.zero_le _

theorem uint32_ofNat_succ (n : Nat) :
    UInt32.ofNat (n + 1) = UInt32.ofNat n + 1 := by
  rw [UInt32.ofNat_add]
  rfl

/-- Taken off the list once more, the counter is short by one more. -/
theorem Ledger.short (h : s.Ledger cap) (hmade : s.story.made ≠ .before) :
    s.obj.delist.count + UInt32.ofNat (s.story.delists + 1) =
      1 + UInt32.ofNat s.obj.delist.held ∧ s.obj.delist.listed = 0 := by
  obtain ⟨hcount, hlisted⟩ := h.born hmade
  have hheld : s.obj.delist.held = s.obj.held := Counted.decref_held
  have hcount' : s.obj.delist.count = s.obj.count - 1 := Counted.decref_count
  have hlisted' : s.obj.delist.listed = s.obj.listed - 1 :=
    Counted.decref_listed
  constructor
  · rw [hcount', hheld, uint32_ofNat_succ, ← hcount]
    grind
  · rw [hlisted', hlisted]
    split <;> rfl

/-- What a user does keeps the books. -/
theorem Ledger.use (h : s.Ledger cap)
    (ha : a = .take ∨ a = .drop ∨ a = .peek ∨ a = .unpeek)
    (hstep : s.Step cap a t) : t.Ledger cap := by
  obtain ⟨obj', story'⟩ := t
  rcases ha with rfl | rfl | rfl | rfl
  · obtain ⟨⟨hlisted, hroom, rfl⟩, hnext⟩ := hstep
    obtain rfl : s.story = story' := Option.some.inj hnext
    refine ⟨fun hmade => ?_, fun hmade => ?_, h.few, hroom⟩
    · exact absurd (h.unborn hmade).2.2.1 hlisted
    · obtain ⟨hcount, hlist⟩ := h.born hmade
      refine ⟨?_, hlist⟩
      show s.obj.count + 1 + _ = 1 + UInt32.ofNat (s.obj.held + 1)
      rw [uint32_ofNat_succ]
      grind
  · obtain ⟨⟨hheld, rfl⟩, hnext⟩ := hstep
    obtain rfl : s.story = story' := Option.some.inj hnext
    have hheld' : s.obj.drop.held = s.obj.held - 1 := Counted.decref_held
    refine ⟨fun hmade => ?_, fun hmade => ?_, h.few, ?_⟩
    · exact absurd (h.unborn hmade).2.2.2.1 hheld
    · obtain ⟨hcount, hlist⟩ := h.born hmade
      refine ⟨?_, Counted.decref_listed.trans hlist⟩
      have hcount' : s.obj.drop.count = s.obj.count - 1 :=
        Counted.decref_count
      obtain ⟨n, hn⟩ : ∃ n, s.obj.held = n + 1 :=
        ⟨s.obj.held - 1, by omega⟩
      rw [hn, uint32_ofNat_succ] at hcount
      show s.obj.drop.count + _ = 1 + UInt32.ofNat s.obj.drop.held
      rw [hcount', hheld', hn, Nat.add_sub_cancel]
      grind
    · have hbound := h.bound
      show s.obj.drop.held ≤ cap
      omega
  · obtain ⟨⟨hlisted, rfl⟩, hnext⟩ := hstep
    obtain rfl : s.story = story' := Option.some.inj hnext
    refine ⟨fun hmade => ?_, h.born, h.few, h.bound⟩
    exact absurd (h.unborn hmade).2.2.1 hlisted
  · obtain ⟨⟨hpeeked, rfl⟩, hnext⟩ := hstep
    obtain rfl : s.story = story' := Option.some.inj hnext
    refine ⟨fun hmade => ?_, h.born, h.few, h.bound⟩
    exact absurd (h.unborn hmade).2.2.2.2.1 hpeeked

theorem Ledger.step (h : s.Ledger cap) (hstep : s.Step cap a t) :
    t.Ledger cap := by
  have huse : a = .take ∨ a = .drop ∨ a = .peek ∨ a = .unpeek →
      t.Ledger cap := fun ha => h.use ha hstep
  have hfew := h.few
  obtain ⟨obj', story'⟩ := t
  cases a with
  | publish =>
    obtain ⟨rfl, hnext⟩ := hstep
    obtain ⟨hmade, ⟨⟩⟩ := Option.ite_none_right_eq_some.mp hnext
    obtain ⟨-, -, hlisted, hheld, -, hdelists, -⟩ := h.unborn hmade
    refine ⟨nofun, fun _ => ⟨?_, ?_⟩, ?_, h.bound⟩
    · show 1 + UInt32.ofNat s.story.delists = 1 + UInt32.ofNat s.obj.held
      rw [hdelists, hheld]
    · show s.obj.listed + 1 = if s.story.delists = 0 then 1 else 0
      rw [hlisted, if_pos hdelists]
    · show s.story.delists ≤ _
      rw [hdelists]
      exact Nat.zero_le _
  | settle ok =>
    obtain ⟨hmove, hnext⟩ := hstep
    obtain ⟨hmade, ⟨⟩⟩ := Option.ite_none_right_eq_some.mp hnext
    have hborn : s.story.made ≠ .before := by rw [hmade]; nofun
    have hover : s.story.made.turns = 0 := by rw [hmade]; rfl
    cases ok with
    | true =>
      obtain rfl : obj' = s.obj := hmove
      refine ⟨nofun, fun _ => h.born hborn, ?_, h.bound⟩
      show s.story.delists ≤ 1 + s.story.fate.turns
      omega
    | false =>
      obtain rfl : obj' = s.obj.delist := hmove
      refine ⟨nofun, fun _ => ?_, ?_, ?_⟩
      · obtain ⟨hcount, hlisted⟩ := h.short hborn
        exact ⟨hcount, hlisted⟩
      · show s.story.delists + 1 ≤ 1 + s.story.fate.turns
        omega
      · exact Nat.le_trans (Nat.le_of_eq Counted.decref_held) h.bound
  | retire =>
    obtain ⟨hmove, hnext⟩ := hstep
    obtain ⟨hfate, ⟨⟩⟩ := Option.ite_none_right_eq_some.mp hnext
    obtain rfl : obj' = s.obj := hmove
    have hover : s.story.fate.turns = 0 := by rw [hfate]; rfl
    refine ⟨fun hmade => ?_, h.born, ?_, h.bound⟩
    · obtain ⟨h1, hlive, h3, h4, h5, h6, -⟩ := h.unborn hmade
      refine ⟨h1, hlive, h3, h4, h5, h6, ?_⟩
      simp [hlive]
    · rw [hover] at hfew
      exact Nat.le_trans hfew (Nat.add_le_add_left (Nat.zero_le _) _)
  | delist =>
    obtain ⟨rfl, hnext⟩ := hstep
    obtain ⟨hfate, ⟨⟩⟩ := Option.ite_none_right_eq_some.mp hnext
    have hborn : s.story.made ≠ .before := fun hmade =>
      (h.unborn hmade).2.2.2.2.2.2 hfate
    have hover : s.story.fate.turns = 0 := by rw [hfate]; rfl
    refine ⟨fun hmade => absurd hmade hborn, fun _ => ?_, ?_, ?_⟩
    · obtain ⟨hcount, hlisted⟩ := h.short hborn
      exact ⟨hcount, hlisted⟩
    · show s.story.delists + 1 ≤ s.story.made.turns + 1
      omega
    · exact Nat.le_trans (Nat.le_of_eq Counted.decref_held) h.bound
  | free =>
    obtain ⟨hmove, hnext⟩ := hstep
    obtain ⟨hfate, ⟨⟩⟩ := Option.ite_none_right_eq_some.mp hnext
    obtain rfl : obj' = s.obj := hmove
    refine ⟨fun hmade => ?_, h.born, ?_, h.bound⟩
    · obtain ⟨h1, h2, h3, h4, h5, h6, -⟩ := h.unborn hmade
      exact ⟨h1, h2, h3, h4, h5, h6, nofun⟩
    · rw [hfate] at hfew
      exact hfew
  | take => exact huse (.inl rfl)
  | drop => exact huse (.inr (.inl rfl))
  | peek => exact huse (.inr (.inr (.inl rfl)))
  | unpeek => exact huse (.inr (.inr (.inr rfl)))
  | idle =>
    obtain ⟨hmove, hnext⟩ := hstep
    obtain rfl : obj' = s.obj := hmove
    obtain rfl : s.story = story' := Option.some.inj hnext
    exact h

/-- At its end the counter was at zero, and since then the object is not on
the list and has no users. -/
def FreedUnused (s : Tracked) : Prop :=
  s.story.fate = .freed → s.story.last = 0 ∧ s.obj.listed = 0 ∧
    s.obj.held = 0 ∧ s.obj.peeked = 0

theorem Fresh.freedUnused (h : s.Fresh) : s.FreedUnused := by
  intro hfreed
  rw [h.story] at hfreed
  cases hfreed

/-- An object may be freed once it was taken off the list as often as it
was put there, and nobody uses it. A freed one may not be published. -/
def FreeOk (s : Tracked) : Counted.Act → Prop
  | .free => s.story.delists = (if s.story.made = .before then 0 else 1) ∧
      s.obj.held = 0 ∧ s.obj.peeked = 0
  | .publish => s.story.fate ≠ .freed
  | _ => True

/-- Without users, the counter is at zero and the object off the list
exactly if it was taken off as often as it was put there. -/
theorem Ledger.settled_iff (h : s.Ledger cap) (hheld : s.obj.held = 0) :
    s.obj.count = 0 ∧ s.obj.listed = 0 ↔
      s.story.delists = if s.story.made = .before then 0 else 1 := by
  by_cases hmade : s.story.made = .before
  · obtain ⟨hcount, -, hlisted, -, -, hdelists, -⟩ := h.unborn hmade
    rw [if_pos hmade]
    exact iff_of_true ⟨hcount, hlisted⟩ hdelists
  · obtain ⟨hcount, hlisted⟩ := h.born hmade
    have hmadeOver : s.story.made.turns ≤ 1 := by
      cases s.story.made <;> decide
    have hfateOver : s.story.fate.turns ≤ 1 := by
      cases s.story.fate <;> decide
    have hfew : s.story.delists ≤ 2 := Nat.le_trans h.few (by omega)
    rw [hheld] at hcount
    rw [if_neg hmade, hlisted]
    -- off the list, the counter is one less than the times it was taken off
    constructor
    · rintro ⟨hzero, hoff⟩
      have hne : s.story.delists ≠ 0 := by
        intro h0
        rw [if_pos h0] at hoff
        exact absurd hoff (by decide)
      have hne2 : s.story.delists ≠ 2 := by
        intro h2
        rw [hzero, h2] at hcount
        exact absurd hcount (by decide)
      omega
    · intro hone
      rw [hone] at hcount ⊢
      refine ⟨?_, rfl⟩
      have hcount : s.obj.count + 1 = 1 := hcount
      grind

/-- An object that was never published may be freed. -/
theorem Ledger.freeOk_of_before (h : s.Ledger cap)
    (hmade : s.story.made = .before) (ha : a ≠ .publish) : s.FreeOk a := by
  cases a with
  | publish => exact absurd rfl ha
  | free =>
    obtain ⟨-, -, -, hheld, hpeeked, hdelists, -⟩ := h.unborn hmade
    refine ⟨?_, hheld, hpeeked⟩
    rw [if_pos hmade, hdelists]
  | _ => exact trivial

/-- **A step keeps freed objects unused exactly if it may be taken.** -/
theorem Ledger.freedUnused_iff (h : s.Ledger cap) (hunused : s.FreedUnused)
    (hstep : s.Step cap a t) : t.FreedUnused ↔ s.FreeOk a := by
  obtain ⟨obj', story'⟩ := t
  cases a with
  | publish =>
    obtain ⟨rfl, hnext⟩ := hstep
    obtain ⟨hmade, ⟨⟩⟩ := Option.ite_none_right_eq_some.mp hnext
    constructor
    · intro hafter hfreed
      exact absurd (hafter hfreed).2.1 (Nat.succ_ne_zero _)
    · exact fun hnot hfreed => absurd hfreed hnot
  | settle ok =>
    obtain ⟨hmove, hnext⟩ := hstep
    obtain ⟨hmade, ⟨⟩⟩ := Option.ite_none_right_eq_some.mp hnext
    refine iff_of_true (fun hfreed => ?_) trivial
    obtain ⟨hlast, hlisted, hheld, hpeeked⟩ := hunused hfreed
    cases ok with
    | true =>
      obtain rfl : obj' = s.obj := hmove
      exact ⟨hlast, hlisted, hheld, hpeeked⟩
    | false =>
      obtain rfl : obj' = s.obj.delist := hmove
      refine ⟨hlast, ?_, ?_, ?_⟩
      · refine Counted.decref_listed.trans ?_
        show s.obj.listed - 1 = 0
        rw [hlisted]
      · exact Counted.decref_held.trans hheld
      · exact Counted.decref_peeked.trans hpeeked
  | retire =>
    obtain ⟨hmove, hnext⟩ := hstep
    obtain ⟨hfate, ⟨⟩⟩ := Option.ite_none_right_eq_some.mp hnext
    refine iff_of_true (fun hfreed => ?_) trivial
    have hfreed : (if s.obj.live = true then Fate.leaving else Fate.left) =
      .freed := hfreed
    split at hfreed <;> cases hfreed
  | delist =>
    obtain ⟨rfl, hnext⟩ := hstep
    obtain ⟨hfate, ⟨⟩⟩ := Option.ite_none_right_eq_some.mp hnext
    exact iff_of_true nofun trivial
  | free =>
    obtain ⟨hmove, hnext⟩ := hstep
    obtain ⟨hfate, ⟨⟩⟩ := Option.ite_none_right_eq_some.mp hnext
    obtain rfl : obj' = s.obj := hmove
    constructor
    · intro hafter
      obtain ⟨hlast, hlisted, hheld, hpeeked⟩ := hafter rfl
      exact ⟨(h.settled_iff hheld).mp ⟨hlast, hlisted⟩, hheld, hpeeked⟩
    · rintro ⟨hdelists, hheld, hpeeked⟩ -
      obtain ⟨hlast, hlisted⟩ := (h.settled_iff hheld).mpr hdelists
      exact ⟨hlast, hlisted, hheld, hpeeked⟩
  | take =>
    obtain ⟨⟨hlisted, -, rfl⟩, hnext⟩ := hstep
    obtain rfl : s.story = story' := Option.some.inj hnext
    refine iff_of_true (fun hfreed => ?_) trivial
    exact absurd (hunused hfreed).2.1 hlisted
  | drop =>
    obtain ⟨⟨hheld, rfl⟩, hnext⟩ := hstep
    obtain rfl : s.story = story' := Option.some.inj hnext
    refine iff_of_true (fun hfreed => ?_) trivial
    exact absurd (hunused hfreed).2.2.1 hheld
  | peek =>
    obtain ⟨⟨hlisted, rfl⟩, hnext⟩ := hstep
    obtain rfl : s.story = story' := Option.some.inj hnext
    refine iff_of_true (fun hfreed => ?_) trivial
    exact absurd (hunused hfreed).2.1 hlisted
  | unpeek =>
    obtain ⟨⟨hpeeked, rfl⟩, hnext⟩ := hstep
    obtain rfl : s.story = story' := Option.some.inj hnext
    refine iff_of_true (fun hfreed => ?_) trivial
    exact absurd (hunused hfreed).2.2.2 hpeeked
  | idle =>
    obtain ⟨hmove, hnext⟩ := hstep
    obtain rfl : obj' = s.obj := hmove
    obtain rfl : s.story = story' := Option.some.inj hnext
    exact iff_of_true hunused trivial

end Tracked

end OpenAmp.Lib
