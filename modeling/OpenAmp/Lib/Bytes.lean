import Mathlib.Algebra.Group.Nat.Defs
import Mathlib.Logic.Function.Basic
import Mathlib.Tactic.Common

/-!
# Byte memory

Memory as a function from addresses to bytes, with little-endian loads
and stores of any width. A store is seen by a load of the same place and
not by a load of a disjoint one; `Agree` names the addresses on which
two memories are the same, so that a function's footprint can be stated
once and used by every reader outside it.
-/

namespace OpenAmp.Lib

/-- Bytes by address. -/
abbrev Mem := Nat → UInt8

/-- The value of the `k` bytes at `a`, lowest first. -/
def loadLE (m : Mem) (a : Nat) : Nat → Nat
  | 0 => 0
  | k + 1 => (m a).toNat + 256 * loadLE m (a + 1) k

/-- Writing the `k` low bytes of `v` at `a`, lowest first. -/
def storeLE (m : Mem) (a : Nat) : Nat → Nat → Mem
  | 0, _ => m
  | k + 1, v =>
    Function.update (storeLE m (a + 1) k (v / 256)) a (UInt8.ofNat v)

/-- Writing a list of bytes at `a`. -/
def writeBytes (m : Mem) (a : Nat) (bs : List UInt8) : Mem := fun b =>
  if a ≤ b then bs[b - a]?.getD (m b) else m b

/-- The `k` bytes at `a`. -/
def readBytes (m : Mem) (a k : Nat) : List UInt8 :=
  (List.range k).map fun i => m (a + i)

/-- The `k` low bytes of `v`, lowest first. -/
def leBytes : Nat → Nat → List UInt8
  | 0, _ => []
  | k + 1, v => UInt8.ofNat v :: leBytes k (v / 256)

/-- Two memories are the same on the `k` bytes at `a`. -/
def Agree (m m' : Mem) (a k : Nat) : Prop :=
  ∀ b, a ≤ b → b < a + k → m' b = m b

/-- A stretch of addresses. -/
structure Span where
  start : Nat
  len : Nat
deriving DecidableEq, Repr

/-- Two stretches have no address in common. -/
def Span.Disjoint (s t : Span) : Prop :=
  s.start + s.len ≤ t.start ∨ t.start + t.len ≤ s.start

instance (s t : Span) : Decidable (s.Disjoint t) :=
  inferInstanceAs (Decidable (_ ∨ _))

theorem Span.Disjoint.symm {s t : Span} (h : s.Disjoint t) : t.Disjoint s :=
  Or.symm h

/-- One stretch lies in another. -/
def Span.Within (s t : Span) : Prop :=
  t.start ≤ s.start ∧ s.start + s.len ≤ t.start + t.len

instance (s t : Span) : Decidable (s.Within t) :=
  inferInstanceAs (Decidable (_ ∧ _))

/-- The address lies in the stretch. -/
def Span.Holds (s : Span) (a : Nat) : Prop :=
  s.start ≤ a ∧ a < s.start + s.len

instance (s : Span) (a : Nat) : Decidable (s.Holds a) :=
  inferInstanceAs (Decidable (_ ∧ _))

/-- No address lies in two stretches of the list. An empty stretch may
stand anywhere. -/
def Apart (spans : List Span) : Prop :=
  spans.Pairwise fun s t => ∀ a, s.Holds a → ¬ t.Holds a

/-- Where no address lies in two stretches, a search for an address finds
the element whose stretch holds it, wherever it stands in the list. -/
theorem find?_of_apart {α : Type*} {span : α → Span} {p : α → Bool} {a : Nat}
    {x : α} {xs : List α} (hapart : Apart (xs.map span))
    (hp : ∀ y ∈ xs, p y = true → (span y).Holds a) (hx : x ∈ xs)
    (hpx : p x = true) : xs.find? p = some x := by
  induction xs with
  | nil => cases hx
  | cons y ys ih =>
    obtain ⟨hy, hys⟩ := List.pairwise_cons.mp hapart
    rcases List.mem_cons.mp hx with rfl | hin
    · rw [List.find?_cons, hpx]
    · have hno : p y = false := by
        apply Bool.eq_false_iff.mpr
        intro hpy
        exact hy (span x) (List.mem_map_of_mem hin) a
          (hp y List.mem_cons_self hpy) (hp x hx hpx)
      rw [List.find?_cons, hno]
      exact ih hys (fun z hz => hp z (List.mem_cons_of_mem y hz)) hin

variable {m m' m'' : Mem} {a b k l v : Nat}

theorem Agree.symm (h : Agree m m' a k) : Agree m' m a k :=
  fun b h1 h2 => (h b h1 h2).symm

theorem Agree.trans (h : Agree m m' a k) (h' : Agree m' m'' a k) :
    Agree m m'' a k :=
  fun b h1 h2 => (h' b h1 h2).trans (h b h1 h2)

theorem Agree.mono (h : Agree m m' a k) (ha : a ≤ b) (hk : b + l ≤ a + k) :
    Agree m m' b l :=
  fun c h1 h2 => h c (by omega) (by omega)

theorem storeLE_of_not (m : Mem) (k : Nat) : ∀ (a v : Nat) {b : Nat},
    (b < a ∨ a + k ≤ b) → storeLE m a k v b = m b := by
  induction k with
  | zero => intro a v b _; rfl
  | succ k ih =>
    intro a v b hb
    rw [storeLE, Function.update_of_ne (by omega)]
    exact ih (a + 1) (v / 256) (by omega)

/-- A store is not seen outside its place. -/
theorem agree_storeLE (h : b + l ≤ a ∨ a + k ≤ b) :
    Agree m (storeLE m a k v) b l :=
  fun c h1 h2 => storeLE_of_not m k a v (by omega)

/-- A written byte does not depend on what was there. -/
theorem writeBytes_at (m : Mem) {bs : List UInt8} (hb : a ≤ b)
    (hlen : b < a + bs.length) :
    writeBytes m a bs b = bs.getD (b - a) 0 := by
  have hin : b - a < bs.length := by omega
  rw [writeBytes, if_pos hb, List.getD_eq_getElem?_getD,
    List.getElem?_eq_getElem hin, Option.getD_some, Option.getD_some]

/-- The others stay. -/
theorem writeBytes_of_not (m : Mem) {bs : List UInt8}
    (h : b < a ∨ a + bs.length ≤ b) : writeBytes m a bs b = m b := by
  rw [writeBytes]
  split
  · rw [List.getElem?_eq_none (by omega), Option.getD_none]
  · rfl

theorem agree_writeBytes {bs : List UInt8}
    (h : b + l ≤ a ∨ a + bs.length ≤ b) : Agree m (writeBytes m a bs) b l :=
  fun _ h1 h2 => writeBytes_of_not m (by omega)

/-- The second memory is the first one but for a stretch. -/
def Touches (s : Span) (m m' : Mem) : Prop :=
  ∀ b, (b < s.start ∨ s.start + s.len ≤ b) → m' b = m b

theorem Touches.agree {s t : Span} (h : Touches s m m') (hd : s.Disjoint t) :
    Agree m m' t.start t.len := by
  intro b h1 h2
  unfold Span.Disjoint at hd
  exact h b (by omega)

theorem Touches.mono {s t : Span} (h : Touches s m m') (hst : s.Within t) :
    Touches t m m' := by
  intro b hb
  unfold Span.Within at hst
  exact h b (by omega)

theorem Touches.trans {s : Span} (h : Touches s m m') (h' : Touches s m' m'') :
    Touches s m m'' :=
  fun b hb => (h' b hb).trans (h b hb)

theorem touches_storeLE (m : Mem) (a k v : Nat) :
    Touches ⟨a, k⟩ m (storeLE m a k v) :=
  fun _ hb => storeLE_of_not m k a v hb

theorem touches_writeBytes (m : Mem) (a : Nat) (bs : List UInt8) :
    Touches ⟨a, bs.length⟩ m (writeBytes m a bs) := by
  intro b hb
  have hag : Agree m (writeBytes m a bs) b 1 :=
    agree_writeBytes (by simp only at hb; omega)
  exact hag b (Nat.le_refl b) (by omega)

theorem loadLE_congr (h : Agree m m' a k) : loadLE m' a k = loadLE m a k := by
  induction k generalizing a with
  | zero => rfl
  | succ k ih =>
    rw [loadLE, loadLE, h a (Nat.le_refl a) (by omega),
      ih (h.mono (by omega) (by omega))]

theorem loadLE_lt (m : Mem) (k : Nat) : ∀ a, loadLE m a k < 256 ^ k := by
  induction k with
  | zero => intro a; simp [loadLE]
  | succ k ih =>
    intro a
    have h1 := (m a).toNat_lt
    have h2 := ih (a + 1)
    rw [loadLE, Nat.pow_succ]
    omega

/-- A store is seen by a load of the same place. -/
theorem loadLE_storeLE (m : Mem) (k : Nat) : ∀ (a v : Nat), v < 256 ^ k →
    loadLE (storeLE m a k v) a k = v := by
  induction k with
  | zero =>
    intro a v hv
    simp only [Nat.pow_zero] at hv
    simp [loadLE]
    omega
  | succ k ih =>
    intro a v hv
    rw [Nat.pow_succ] at hv
    have hrest : Agree (storeLE m (a + 1) k (v / 256)) (storeLE m a (k + 1) v)
        (a + 1) k := by
      intro c h1 h2
      rw [storeLE, Function.update_of_ne (by omega)]
    have hlow : (storeLE m a (k + 1) v a).toNat = v % 256 := by
      rw [storeLE, Function.update_self, UInt8.toNat_ofNat']
    rw [loadLE, loadLE_congr hrest, ih (a + 1) (v / 256) (by omega), hlow]
    omega

/-- One byte of a stored value. -/
theorem storeLE_at (m : Mem) (k : Nat) : ∀ (a v : Nat) {j : Nat}, j < k →
    storeLE m a k v (a + j) = UInt8.ofNat (v / 256 ^ j) := by
  induction k with
  | zero => exact fun _ _ _ hj => absurd hj (Nat.not_lt_zero _)
  | succ k ih =>
    intro a v j hj
    cases j with
    | zero =>
      rw [storeLE, Nat.pow_zero, Nat.div_one]
      exact Function.update_self a _ _
    | succ j =>
      rw [storeLE, Function.update_of_ne (by omega), Nat.pow_succ',
        ← Nat.div_div_eq_div_mul, ← ih (a + 1) (v / 256) (by omega)]
      congr 1
      omega

/-- One byte of a loaded value. -/
theorem loadLE_byte (m : Mem) (k : Nat) : ∀ (a : Nat) {j : Nat}, j < k →
    UInt8.ofNat (loadLE m a k / 256 ^ j) = m (a + j) := by
  induction k with
  | zero => exact fun _ _ hj => absurd hj (Nat.not_lt_zero _)
  | succ k ih =>
    intro a j hj
    have hlow := (m a).toNat_lt
    rw [loadLE]
    cases j with
    | zero =>
      apply UInt8.toNat_inj.mp
      rw [Nat.pow_zero, Nat.div_one, UInt8.toNat_ofNat']
      show _ = (m a).toNat
      omega
    | succ j =>
      have hrest : ((m a).toNat + 256 * loadLE m (a + 1) k) / 256 =
          loadLE m (a + 1) k := by omega
      rw [Nat.pow_succ', ← Nat.div_div_eq_div_mul, hrest, ih (a + 1) (by omega)]
      congr 1
      omega

theorem readBytes_congr (h : Agree m m' a k) : readBytes m' a k = readBytes m a k := by
  unfold readBytes
  refine List.map_congr_left fun i hi => h (a + i) (by omega) ?_
  have := List.mem_range.mp hi
  omega

@[simp] theorem length_leBytes (k : Nat) : ∀ v, (leBytes k v).length = k := by
  induction k with
  | zero => intro v; rfl
  | succ k ih => intro v; simp [leBytes, ih]

/-- What was written is read back, in whole or in part. -/
theorem readBytes_writeBytes (m : Mem) (a : Nat) {bs : List UInt8}
    {i k : Nat} (h : i + k ≤ bs.length) :
    readBytes (writeBytes m a bs) (a + i) k = (bs.drop i).take k := by
  apply List.ext_getElem
  · simp only [readBytes, List.length_map, List.length_range,
      List.length_take, List.length_drop]
    omega
  · intro j h1 h2
    have hj : j < k := by simpa [readBytes] using h1
    have hlt : i + j < bs.length := by omega
    simp [readBytes, writeBytes, Nat.add_assoc, hlt]

theorem readBytes_writeBytes_take (m : Mem) (a : Nat) {bs : List UInt8}
    {k : Nat} (h : k ≤ bs.length) :
    readBytes (writeBytes m a bs) a k = bs.take k := by
  have hread := readBytes_writeBytes m a (by omega : 0 + k ≤ bs.length)
  rwa [Nat.add_zero, List.drop_zero] at hread

/-- Two stretches written one behind the other are one. -/
theorem writeBytes_append (m : Mem) (a : Nat) (bs cs : List UInt8) :
    writeBytes (writeBytes m a bs) (a + bs.length) cs =
      writeBytes m a (bs ++ cs) := by
  funext b
  simp only [writeBytes]
  by_cases hle : a ≤ b
  · by_cases hlt : b < a + bs.length
    · rw [if_neg (by omega), if_pos hle, if_pos hle,
        List.getElem?_append_left (by omega)]
    · rw [if_pos (by omega), if_pos hle, if_pos hle,
        List.getElem?_append_right (by omega),
        List.getElem?_eq_none (l := bs) (by omega), Option.getD_none]
      congr 2
      omega
  · rw [if_neg (by omega), if_neg hle, if_neg hle]

@[simp] theorem writeBytes_nil (m : Mem) (a : Nat) : writeBytes m a [] = m := by
  funext b
  simp [writeBytes]

@[simp] theorem length_readBytes (m : Mem) (a k : Nat) :
    (readBytes m a k).length = k := by
  simp [readBytes]

/-- The first of the bytes read. -/
theorem readBytes_take (m : Mem) (a : Nat) {j k : Nat} (h : j ≤ k) :
    readBytes m a j = (readBytes m a k).take j := by
  rw [readBytes, readBytes, ← List.map_take, List.take_range,
    Nat.min_eq_left h]

/-- Bytes that spell a value are loaded as it. -/
theorem loadLE_of_readBytes (k : Nat) : ∀ {a v : Nat}, v < 256 ^ k →
    readBytes m a k = leBytes k v → loadLE m a k = v := by
  induction k with
  | zero =>
    intro a v hv _
    simp only [Nat.pow_zero] at hv
    simp [loadLE]
    omega
  | succ k ih =>
    intro a v hv h
    rw [Nat.pow_succ] at hv
    simp only [readBytes, List.range_succ_eq_map, List.map_cons, List.map_map,
      leBytes, List.cons.injEq, Nat.add_zero] at h
    have hrest : readBytes m (a + 1) k = leBytes k (v / 256) := by
      rw [← h.2]
      refine List.map_congr_left fun i _ => ?_
      simp only [Function.comp_apply]
      congr 1
      omega
    rw [loadLE, h.1, ih (by omega) hrest, UInt8.toNat_ofNat']
    omega

theorem readBytes_add (m : Mem) (a k l : Nat) :
    readBytes m a (k + l) = readBytes m a k ++ readBytes m (a + k) l := by
  simp only [readBytes, List.range_add, List.map_append, List.map_map,
    Function.comp_def, Nat.add_assoc]

/-! ## Strings -/

/-- The number of bytes at `a` before the first zero among `k`. -/
def strnlen (m : Mem) (a : Nat) : Nat → Nat
  | 0 => 0
  | k + 1 => if m a = 0 then 0 else strnlen m (a + 1) k + 1

theorem strnlen_le (m : Mem) (a k : Nat) : strnlen m a k ≤ k := by
  induction k generalizing a with
  | zero => exact Nat.le_refl 0
  | succ k ih =>
    rw [strnlen]
    split
    · exact Nat.zero_le _
    · exact Nat.succ_le_succ (ih (a + 1))

/-- No byte of the string is zero, -/
theorem ne_zero_of_lt_strnlen {i : Nat} (h : i < strnlen m a k) :
    m (a + i) ≠ 0 := by
  induction k generalizing a i with
  | zero => exact absurd h (Nat.not_lt_zero i)
  | succ k ih =>
    rw [strnlen] at h
    split at h
    · exact absurd h (Nat.not_lt_zero i)
    · next hne =>
      cases i with
      | zero => exact hne
      | succ i =>
        have hi := ih (Nat.lt_of_succ_lt_succ h)
        rwa [Nat.add_right_comm, Nat.add_assoc] at hi

/-- and the one behind it is, if the string ends before the `k` bytes. -/
theorem strnlen_end (h : strnlen m a k < k) : m (a + strnlen m a k) = 0 := by
  induction k generalizing a with
  | zero => exact absurd h (Nat.not_lt_zero _)
  | succ k ih =>
    rw [strnlen] at h ⊢
    split at h
    · next h0 => rwa [if_pos h0]
    · next hne =>
      rw [if_neg hne]
      have hend := ih (Nat.lt_of_succ_lt_succ h)
      rwa [Nat.add_right_comm, Nat.add_assoc] at hend

/-- These two say what the length is. -/
theorem strnlen_eq {n : Nat} (hn : n ≤ k) (hne : ∀ i < n, m (a + i) ≠ 0)
    (hend : n < k → m (a + n) = 0) : strnlen m a k = n := by
  rcases Nat.lt_trichotomy (strnlen m a k) n with hlt | heq | hgt
  · exact absurd (strnlen_end (Nat.lt_of_lt_of_le hlt hn)) (hne _ hlt)
  · exact heq
  · have hle := strnlen_le m a k
    exact absurd (hend (Nat.lt_of_lt_of_le hgt hle))
      (ne_zero_of_lt_strnlen hgt)

theorem strnlen_lt_iff : strnlen m a k < k ↔ ∃ i < k, m (a + i) = 0 := by
  constructor
  · exact fun h => ⟨_, h, strnlen_end h⟩
  · rintro ⟨i, hi, h0⟩
    by_contra hge
    exact ne_zero_of_lt_strnlen (show i < strnlen m a k by omega) h0

/-- A string that ends within the first bytes is as long among more. -/
theorem strnlen_of_le {l : Nat} (h : strnlen m a k < k) (hkl : k ≤ l) :
    strnlen m a l = strnlen m a k :=
  strnlen_eq (Nat.le_trans (strnlen_le m a k) hkl)
    (fun _ hi => ne_zero_of_lt_strnlen hi) (fun _ => strnlen_end h)

/-- The bytes before the first zero. -/
theorem readBytes_strnlen (m : Mem) (a k : Nat) :
    readBytes m a (strnlen m a k) = (readBytes m a k).takeWhile (· ≠ 0) := by
  induction k generalizing a with
  | zero => rfl
  | succ k ih =>
    have hcons : ∀ a n, readBytes m a (n + 1) = m a :: readBytes m (a + 1) n := by
      intro a n
      rw [Nat.add_comm, readBytes_add]
      rfl
    rw [strnlen, hcons]
    split
    · next h0 => rw [List.takeWhile_cons_of_neg (by simpa using h0)]; rfl
    · next hne =>
      rw [hcons, ih, List.takeWhile_cons_of_pos (by simpa using hne)]

/-! ## Stretches without a gap -/

/-- The stretches follow on each other, from `i` on and `n` long. -/
def Tiles : List Span → Nat → Nat → Prop
  | [], _, n => n = 0
  | s :: spans, i, n => s.start = i ∧ s.len ≤ n ∧ Tiles spans (i + s.len) (n - s.len)

/-- What is read in the stretches from `a` on. -/
def loadSpans (m : Mem) (a : Nat) (spans : List Span) : List UInt8 :=
  spans.flatMap fun s => readBytes m (a + s.start) s.len

/-- The stretches of a buffer written from `a` on. -/
def storeSpans (a : Nat) (buf : Mem) : Mem → List Span → Mem
  | m, [] => m
  | m, s :: spans =>
    storeSpans a buf
      (writeBytes m (a + s.start) (readBytes buf s.start s.len)) spans

theorem Tiles.mem {spans : List Span} : ∀ {i n : Nat}, Tiles spans i n →
    ∀ s ∈ spans, i ≤ s.start ∧ s.start + s.len ≤ i + n := by
  induction spans with
  | nil =>
    intro i n _ s hs
    cases hs
  | cons t spans ih =>
    intro i n h s hs
    obtain ⟨hstart, hle, hrest⟩ := h
    rcases List.mem_cons.mp hs with rfl | hs
    · omega
    · have := ih hrest s hs
      omega

/-- Reading without a gap is reading it all. -/
theorem Tiles.load (m : Mem) (a : Nat) {spans : List Span} :
    ∀ {i n : Nat}, Tiles spans i n →
      loadSpans m a spans = readBytes m (a + i) n := by
  induction spans with
  | nil =>
    intro i n h
    cases h
    rfl
  | cons s spans ih =>
    intro i n h
    obtain ⟨rfl, hle, hrest⟩ := h
    have hn : n = s.len + (n - s.len) := by omega
    show readBytes m (a + s.start) s.len ++ loadSpans m a spans = _
    rw [ih hrest, hn, readBytes_add]
    simp only [Nat.add_assoc, Nat.add_sub_cancel_left]

/-- Writing without a gap is writing it all. -/
theorem Tiles.store (a : Nat) (buf : Mem) {spans : List Span} :
    ∀ {i n : Nat} (m : Mem), Tiles spans i n →
      storeSpans a buf m spans = writeBytes m (a + i) (readBytes buf i n) := by
  induction spans with
  | nil =>
    intro i n m h
    cases h
    exact (writeBytes_nil m (a + i)).symm
  | cons s spans ih =>
    intro i n m h
    obtain ⟨rfl, hle, hrest⟩ := h
    have hn : n = s.len + (n - s.len) := by omega
    rw [storeSpans, ih _ hrest, hn, readBytes_add, ← writeBytes_append,
      length_readBytes]
    simp only [Nat.add_assoc, Nat.add_sub_cancel_left]

end OpenAmp.Lib
