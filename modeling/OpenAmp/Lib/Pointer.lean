import OpenAmp.Lib.Bytes

/-!
# Bytes behind a pointer

Memory as it is seen through pointers of 64 bits, which go on from zero
when they are counted past the end of the address space. `Moved` says that
the bytes behind a pointer have been written and all others are unchanged.
A copy that goes through a buffer stretch by stretch, in bytes or in words,
moves all bytes of the buffer, and so does a fill, as long as no single
stretch runs over the end.
-/

namespace OpenAmp.Lib

variable {m m' m'' : Mem} {p dest src : UInt64} {bytes : Nat → UInt8}
  {s : Span} {spans : List Span} {i j n l : Nat}

/-! ## Addresses -/

/-- The address of the byte `i` behind the pointer. -/
def byteAt (p : UInt64) (i : Nat) : Nat := (p + UInt64.ofNat i).toNat

theorem byteAt_eq (p : UInt64) (i : Nat) :
    byteAt p i = (p.toNat + i) % 2 ^ 64 := by
  rw [byteAt, UInt64.toNat_add, UInt64.toNat_ofNat', Nat.add_mod_mod]

/-- No two bytes behind a pointer have the same address. -/
theorem byteAt_inj (hi : i < 2 ^ 64) (hj : j < 2 ^ 64)
    (h : byteAt p i = byteAt p j) : i = j := by
  rw [byteAt_eq, byteAt_eq] at h
  have hlt := p.toNat_lt
  omega

/-- The stretch behind the pointer does not run over the end of the address
space. -/
def Unbroken (p : UInt64) (s : Span) : Prop :=
  byteAt p s.start + s.len ≤ 2 ^ 64

/-- Its bytes follow on each other. -/
theorem Unbroken.byteAt_add (h : Unbroken p s) (hj : j < s.len) :
    byteAt p (s.start + j) = byteAt p s.start + j := by
  rw [Unbroken] at h
  rw [byteAt_eq] at h ⊢
  rw [byteAt_eq]
  omega

theorem unbroken_byte (p : UInt64) (i : Nat) : Unbroken p ⟨i, 1⟩ :=
  (p + UInt64.ofNat i).toNat_lt

/-! ## What has been written -/

/-- From `m` to `m'` the bytes `bytes` were written behind the pointer
`dest`, `n` of them from the `i`-th on, and nothing else. -/
structure Moved (m m' : Mem) (dest : UInt64) (bytes : Nat → UInt8)
    (i n : Nat) : Prop where
  put : ∀ j, i ≤ j → j < i + n → m' (byteAt dest j) = bytes j
  kept : ∀ a, (∀ j, i ≤ j → j < i + n → a ≠ byteAt dest j) → m' a = m a

theorem moved_none (m : Mem) (dest : UInt64) (bytes : Nat → UInt8) (i : Nat) :
    Moved m m dest bytes i 0 where
  put _ h1 h2 := absurd h1 (Nat.not_le.mpr h2)
  kept _ _ := rfl

/-- What is written behind what was written before keeps it. -/
theorem Moved.append (h : Moved m m' dest bytes i n)
    (h' : Moved m' m'' dest bytes (i + n) l) (hend : i + n + l ≤ 2 ^ 64) :
    Moved m m'' dest bytes i (n + l) where
  put j h1 h2 := by
    by_cases hj : j < i + n
    · have hother : ∀ k, i + n ≤ k → k < i + n + l →
          byteAt dest j ≠ byteAt dest k := by
        intro k h3 h4 heq
        have := byteAt_inj (by omega) (by omega) heq
        omega
      rw [h'.kept _ hother]
      exact h.put j h1 hj
    · exact h'.put j (Nat.not_lt.mp hj) (by omega)
  kept a ha := by
    rw [h'.kept a fun j h1 h2 => ha j (by omega) (by omega)]
    exact h.kept a fun j h1 h2 => ha j h1 (by omega)

/-- One store of a value that is made of the bytes. -/
theorem moved_storeLE (m : Mem) {v : Nat} (hs : Unbroken dest s)
    (hv : ∀ j < s.len, UInt8.ofNat (v / 256 ^ j) = bytes (s.start + j)) :
    Moved m (storeLE m (byteAt dest s.start) s.len v) dest bytes s.start
      s.len where
  put j h1 h2 := by
    obtain ⟨j, rfl⟩ := Nat.exists_eq_add_of_le h1
    have hj : j < s.len := by omega
    rw [hs.byteAt_add hj, storeLE_at m s.len _ v hj, hv j hj]
  kept a ha := by
    refine storeLE_of_not m s.len _ v ?_
    by_contra hin
    have hj : a - byteAt dest s.start < s.len := by omega
    refine ha (s.start + (a - byteAt dest s.start)) (by omega) (by omega) ?_
    rw [hs.byteAt_add hj]
    omega

/-- Stretch by stretch, if each is written where all before it are. -/
theorem Moved.run {step : Mem → Span → Mem}
    (hstep : ∀ s ∈ spans, ∀ m', Moved m m' dest bytes 0 s.start →
      Moved m' (step m' s) dest bytes s.start s.len)
    (htiles : Tiles spans i n) (hend : i + n ≤ 2 ^ 64)
    (h : Moved m m' dest bytes 0 i) :
    Moved m (spans.foldl step m') dest bytes 0 (i + n) := by
  induction spans generalizing i n m' with
  | nil =>
    cases htiles
    exact h
  | cons s spans ih =>
    obtain ⟨rfl, hle, hrest⟩ := htiles
    have hs := hstep s List.mem_cons_self m' h
    rw [← Nat.zero_add s.start] at hs
    have hnext : Moved m (step m' s) dest bytes 0 (s.start + s.len) :=
      h.append hs (by omega)
    have htail := ih (fun t ht => hstep t (List.mem_cons_of_mem s ht)) hrest
      (by omega) hnext
    rwa [Nat.add_assoc, Nat.add_sub_of_le hle] at htail

/-! ## Copies and fills -/

/-- `*dest = *src` for the stretch `s` behind where the two pointers stood. -/
def moveSpan (dest src : UInt64) (m : Mem) (s : Span) : Mem :=
  storeLE m (byteAt dest s.start) s.len
    (loadLE m (byteAt src s.start) s.len)

/-- `*dest = value` for the stretch `s`, with the value of its width. -/
def fillSpan (dest : UInt64) (value : Nat → Nat) (m : Mem) (s : Span) : Mem :=
  storeLE m (byteAt dest s.start) s.len (value s.len)

/-- A copy reads each byte as it was in the beginning, since it only writes
where nothing is read. -/
theorem moved_moveSpans (htiles : Tiles spans 0 n) (hend : n ≤ 2 ^ 64)
    (hdest : ∀ s ∈ spans, Unbroken dest s)
    (hsrc : ∀ s ∈ spans, Unbroken src s)
    (hapart : ∀ i < n, ∀ j < n, byteAt dest i ≠ byteAt src j) :
    Moved m (spans.foldl (moveSpan dest src) m) dest
      (fun j => m (byteAt src j)) 0 n := by
  rw [← Nat.zero_add n] at hend ⊢
  refine Moved.run ?_ htiles hend (moved_none m dest _ 0)
  intro s hs m' hbefore
  refine moved_storeLE m' (hdest s hs) fun j hj => ?_
  rw [loadLE_byte m' s.len _ hj, ← (hsrc s hs).byteAt_add hj]
  have hin := htiles.mem s hs
  exact hbefore.kept _ fun i _ hi =>
    (hapart i (by omega) (s.start + j) (by omega)).symm

/-- A fill, if the value of each width is made of the one byte. -/
theorem moved_fillSpans {value : Nat → Nat} {b : UInt8}
    (htiles : Tiles spans 0 n) (hend : n ≤ 2 ^ 64)
    (hdest : ∀ s ∈ spans, Unbroken dest s)
    (hvalue : ∀ s ∈ spans, ∀ j < s.len,
      UInt8.ofNat (value s.len / 256 ^ j) = b) :
    Moved m (spans.foldl (fillSpan dest value) m) dest (fun _ => b) 0 n := by
  rw [← Nat.zero_add n] at hend ⊢
  refine Moved.run ?_ htiles hend (moved_none m dest _ 0)
  exact fun s hs m' _ => moved_storeLE m' (hdest s hs) (hvalue s hs)

end OpenAmp.Lib
