import OpenAmp.Remoteproc.RscParser

/-!
# Rejected tables

What `handle_rsc_table` leaves in the bitmap of a table it turns down.
The roll-back of `handle_vdev_rsc` gives back the ids of its own entry:
the ids of the entries before it stay marked, and an id that was taken
already, which the cyclic search answers where everything in its range
is, is given back although it was not this entry's.

The ids asked for are read off the table as the loop comes to them; what
they do to the bitmap is then a matter of the requests alone.
-/

namespace OpenAmp.Remoteproc

open OpenAmp.Metal

/-! ## Requests and answers -/

/-- The id a request is answered with: for a wildcard the lowest free
one, for a specific id that one if it is free and else the lowest free
one below it. Where none is free it is the one the search starts with. -/
def answerTo (b : Bitmap) (r : UInt32) : Nat :=
  if r = RSC_NOTIFY_ID_ANY then lowestFree b
  else if metalBitmapIsBitSet b r.toNat = false then r.toNat
  else ((List.range r.toNat).find? fun i =>
    !metalBitmapIsBitSet b i).getD r.toNat

/-- The answers to requests made one after another. -/
def answers : Bitmap → List UInt32 → List Nat
  | _, [] => []
  | b, r :: rs =>
    answerTo b r :: answers (metalBitmapSetBit b (answerTo b r)) rs

/-- The bitmap after them. -/
def marked : Bitmap → List UInt32 → Bitmap
  | b, [] => b
  | b, r :: rs => marked (metalBitmapSetBit b (answerTo b r)) rs

/-- The bitmap with the bits of `ids` cleared. -/
def cleared (b : Bitmap) (ids : List Nat) : Bitmap :=
  ids.foldr (fun i b => metalBitmapClearBit b i) b

theorem marked_append (b : Bitmap) (rs us : List UInt32) :
    marked b (rs ++ us) = marked (marked b rs) us := by
  induction rs generalizing b with
  | nil => rfl
  | cons r rs ih => exact ih _

theorem isBitSet_marked (b : Bitmap) (rs : List UInt32) (i : Nat) :
    metalBitmapIsBitSet (marked b rs) i = true ↔
      metalBitmapIsBitSet b i = true ∨ i ∈ answers b rs := by
  induction rs generalizing b with
  | nil => simp [marked, answers]
  | cons r rs ih =>
    rw [marked, ih, answers]
    simp only [isBitSet_setBit, Bool.or_eq_true, decide_eq_true_eq,
      List.mem_cons]
    tauto

theorem isBitSet_cleared (b : Bitmap) (ids : List Nat) (i : Nat) :
    metalBitmapIsBitSet (cleared b ids) i = true ↔
      metalBitmapIsBitSet b i = true ∧ i ∉ ids := by
  induction ids with
  | nil => simp [cleared]
  | cons x ids ih =>
    have hstep : cleared b (x :: ids) = metalBitmapClearBit (cleared b ids) x :=
      rfl
    rw [hstep, isBitSet_clearBit]
    simp only [Bool.and_eq_true, decide_eq_true_eq, ih, List.mem_cons]
    tauto

/-- A bitmap is its bits. -/
theorem bitmap_ext {b b' : Bitmap}
    (h : ∀ i, metalBitmapIsBitSet b i = true ↔ metalBitmapIsBitSet b' i = true) :
    b = b' := by
  funext w
  apply UInt64.toBitVec_inj.mp
  apply BitVec.eq_of_getLsbD_eq
  intro k hk
  have hbit := h (w * 64 + k)
  have hdiv : (w * 64 + k) / 64 = w := by omega
  have hmod : (w * 64 + k) % 64 = k := by omega
  rw [metalBitmapIsBitSet_eq, metalBitmapIsBitSet_eq, hdiv, hmod] at hbit
  exact Bool.eq_iff_iff.mpr hbit

/-- The requests `undone`, made after `asked` and given back, take away
nothing that was marked before `asked`, and leave nothing of what `asked`
has marked. -/
structure GivesBack (b : Bitmap) (asked undone : List UInt32) : Prop where
  spares : ∀ i ∈ answers (marked b asked) undone,
    metalBitmapIsBitSet b i = false
  covers : ∀ i ∈ answers b asked, metalBitmapIsBitSet b i = false →
    i ∈ answers (marked b asked) undone

theorem givesBack_iff (b : Bitmap) (asked undone : List UInt32) :
    cleared (marked (marked b asked) undone)
      (answers (marked b asked) undone) = b ↔ GivesBack b asked undone := by
  have hbit : ∀ i, metalBitmapIsBitSet (cleared (marked (marked b asked) undone)
      (answers (marked b asked) undone)) i = true ↔
      (metalBitmapIsBitSet b i = true ∨ i ∈ answers b asked) ∧
        i ∉ answers (marked b asked) undone := by
    intro i
    rw [isBitSet_cleared, isBitSet_marked, isBitSet_marked]
    tauto
  constructor
  · intro h
    rw [h] at hbit
    constructor
    · intro i hi
      by_contra hset
      exact ((hbit i).mp (by simpa using hset)).2 hi
    · intro i hi hclear
      by_contra hno
      have := (hbit i).mpr ⟨.inr hi, hno⟩
      rw [hclear] at this
      cases this
  · intro h
    -- bit by bit
    apply bitmap_ext
    intro i
    rw [hbit]
    constructor
    · rintro ⟨hset | hi, hno⟩
      · exact hset
      · by_contra hclear
        exact hno (h.covers i hi (by simpa using hclear))
    · intro hset
      refine ⟨.inl hset, fun hi => ?_⟩
      rw [h.spares i hi] at hset
      cases hset

/-! ## The allocator gives these answers -/

theorem answerTo_specific {b : Bitmap} {r : UInt32}
    (hr : r ≠ RSC_NOTIFY_ID_ANY) {d : Nat} (hd : d ≤ r.toNat)
    (hclear : metalBitmapIsBitSet b ((r.toNat + d) % (r.toNat + 1)) = false)
    (hset : ∀ j < d,
      metalBitmapIsBitSet b ((r.toNat + j) % (r.toNat + 1)) = true) :
    answerTo b r = (r.toNat + d) % (r.toNat + 1) := by
  have hself : r.toNat % (r.toNat + 1) = r.toNat :=
    Nat.mod_eq_of_lt (by omega)
  have hround : ∀ k ≤ r.toNat, (r.toNat + (k + 1)) % (r.toNat + 1) = k := by
    intro k hk
    rw [show r.toNat + (k + 1) = k + (r.toNat + 1) from by omega,
      Nat.add_mod_right, Nat.mod_eq_of_lt (by omega)]
  rw [answerTo, if_neg hr]
  cases d with
  | zero =>
    -- the id itself is free
    rw [Nat.add_zero, hself] at hclear ⊢
    rw [if_pos hclear]
  | succ d =>
    -- it is taken, and the search goes on from zero
    rw [hround d (by omega)] at hclear ⊢
    have htaken := hset 0 (by omega)
    rw [Nat.add_zero, hself] at htaken
    rw [if_neg (by simp [htaken])]
    have hfind : (List.range r.toNat).find? (fun i =>
        !metalBitmapIsBitSet b i) = some d := by
      rw [List.find?_range_eq_some]
      refine ⟨by simp [hclear], by simp; omega, ?_⟩
      intro j hj
      have := hset (j + 1) (by omega)
      rw [hround j (by omega)] at this
      simp [this]
    rw [hfind]
    rfl

theorem answerTo_full {b : Bitmap} {r : UInt32} (hr : r ≠ RSC_NOTIFY_ID_ANY)
    (hall : ∀ i < r.toNat + 1, metalBitmapIsBitSet b i = true) :
    answerTo b r = r.toNat := by
  have hnone : (List.range r.toNat).find? (fun i =>
      !metalBitmapIsBitSet b i) = none := by
    rw [List.find?_range_eq_none]
    intro i hi
    simp [hall i (by omega)]
  rw [answerTo, if_neg hr, if_neg (by simp [hall r.toNat (by omega)]), hnone]
  rfl

theorem lowestFree_full {b : Bitmap}
    (hall : ∀ i < 64, metalBitmapIsBitSet b i = true) : lowestFree b = 0 := by
  have hnone : (List.range METAL_BITS_PER_ULONG).find? (fun i =>
      !metalBitmapIsBitSet b i) = none := by
    rw [List.find?_range_eq_none]
    intro i hi
    simp [hall i hi]
  rw [lowestFree, hnone]
  rfl

/-- An id that was granted is what the search found. -/
theorem searched_of_granted {b : Bitmap} {r start stop : UInt32}
    (h : (allocateNotifyId b r).1 ≠ RSC_NOTIFY_ID_ANY)
    (hstart : start = if r = RSC_NOTIFY_ID_ANY then 0 else r)
    (hstop : stop = if (if r = RSC_NOTIFY_ID_ANY then RSC_NOTIFY_ID_ANY
      else r + 1) = RSC_NOTIFY_ID_ANY then
        UInt32.ofNat METAL_BITS_PER_ULONG
      else (if r = RSC_NOTIFY_ID_ANY then RSC_NOTIFY_ID_ANY else r + 1)) :
    (allocateNotifyId b r).1 = metalBitmapNextClearBit b start stop := by
  unfold allocateNotifyId remoteprocAllocateId at *
  simp only [← hstart, ← hstop] at h ⊢
  split at h
  · next hrange =>
    rw [if_pos hrange]
    split at h
    · next hne => rw [if_pos hne]
    · exact absurd rfl h
  · exact absurd rfl h

/-- A request that is not refused is answered as said. -/
theorem allocateNotifyId_answerTo {b : Bitmap} {r : UInt32}
    (hr : Parser.Grants r) :
    (allocateNotifyId b r).1.toNat = answerTo b r ∧
    (allocateNotifyId b r).2 = metalBitmapSetBit b (answerTo b r) := by
  have hne := (Parser.allocateNotifyId_granted b r).mpr hr
  obtain ⟨hmark, hlt, -⟩ := allocateNotifyId_spec hne
  suffices h : (allocateNotifyId b r).1.toNat = answerTo b r by
    exact ⟨h, by rw [hmark, h]⟩
  rcases hr with rfl | hr64
  · -- a wildcard searches all of the bitmap from zero
    have hsearch : (allocateNotifyId b RSC_NOTIFY_ID_ANY).1 =
        metalBitmapNextClearBit b 0 64 := searched_of_granted hne rfl rfl
    rw [hsearch, answerTo, if_pos rfl]
    rcases metalBitmapNextClearBit_spec b (show 0 < (64 : UInt32) by decide)
      (by decide) (show (0 : UInt32).toNat + _ < _ by decide) with
      ⟨d, hd, heq, hbit, hset⟩ | ⟨hall, heq⟩
    · simp only [UInt32.reduceToNat, Nat.zero_add] at hd heq hbit hset
      rw [Nat.mod_eq_of_lt hd] at heq hbit
      rw [heq]
      refine (lowestFree_eq hd hbit fun j hj => ?_).symm
      have := hset j hj
      rwa [Nat.mod_eq_of_lt (by omega)] at this
    · rw [heq, lowestFree_full hall]
      rfl
  · -- an explicit id searches from itself, around the ids below
    have hr := UInt32.lt_iff_toNat_lt.mp hr64
    simp only [UInt32.reduceToNat] at hr
    have hany : r ≠ RSC_NOTIFY_ID_ANY := by
      rintro rfl
      simp [RSC_NOTIFY_ID_ANY] at hr
    have hmax : (r + 1).toNat = r.toNat + 1 := by
      rw [UInt32.toNat_add, UInt32.toNat_one]
      omega
    have hnext : r + 1 ≠ RSC_NOTIFY_ID_ANY := by
      intro heq
      rw [heq] at hmax
      simp only [RSC_NOTIFY_ID_ANY, UInt32.reduceToNat] at hmax
      omega
    have hsearch : (allocateNotifyId b r).1 =
        metalBitmapNextClearBit b r (r + 1) :=
      searched_of_granted hne (if_neg hany).symm
        (by rw [if_neg hany, if_neg hnext])
    rw [hsearch]
    rcases metalBitmapNextClearBit_spec b
      (show 0 < r + 1 by rw [UInt32.lt_iff_toNat_lt, hmax]; simp)
      (by omega) (show r.toNat + _ < _ by omega) with
      ⟨d, hd, heq, hbit, hset⟩ | ⟨hall, heq⟩
    · rw [hmax] at hd heq hbit hset
      rw [heq, answerTo_specific hany (by omega) hbit hset]
    · rw [hmax] at hall heq
      rw [heq, answerTo_full hany hall, Nat.mod_eq_of_lt (by omega)]

end OpenAmp.Remoteproc

/-! ## Virtio entries -/

namespace OpenAmp.Remoteproc.Parser

open OpenAmp.Lib OpenAmp.Metal

instance (r : UInt32) : Decidable (Grants r) :=
  inferInstanceAs (Decidable (_ ∨ _))

/-- The ids that `left` vrings from vring `i` on ask for. -/
def vringIds (m : Mem) (off : Nat) : Nat → Nat → List UInt32
  | 0, _ => []
  | left + 1, i => word m (vringNotifyid off i) :: vringIds m off left (i + 1)

/-- The ids that the entry at `off` asks for: none unless it is a virtio
entry. -/
def entryIds (m : Mem) (off : Nat) : List UInt32 :=
  if (word m off).toNat = RSC_VDEV then
    word m (off + 8) :: vringIds m off (m (off + 25)).toNat 0
  else []

/-- The requests that are granted before one is refused. -/
def grantedFirst (rs : List UInt32) : List UInt32 :=
  rs.takeWhile fun r => Grants r

variable {env : RscEnv} {off : Nat} {m : Mem} {st : RscState}

theorem grantedFirst_cons {r : UInt32} (hr : Grants r) (rs : List UInt32) :
    grantedFirst (r :: rs) = r :: grantedFirst rs :=
  List.takeWhile_cons_of_pos (decide_eq_true hr)

theorem grantedFirst_refused {r : UInt32} (hr : ¬ Grants r)
    (rs : List UInt32) : grantedFirst (r :: rs) = [] :=
  List.takeWhile_cons_of_neg (by simpa using hr)

/-- An id written at an earlier vring, or at the device, is not read
again at the later ones. -/
theorem vringIds_storeLE {a : Nat} {v : Nat} (left i : Nat)
    (ha : a + 4 ≤ vringNotifyid off i) :
    vringIds (storeLE m a 4 v) off left i = vringIds m off left i := by
  induction left generalizing i with
  | zero => rfl
  | succ left ih =>
    rw [vringIds, vringIds, word_storeLE (.inr ha), ih (i + 1) ?_]
    simp only [vringNotifyid] at ha ⊢
    omega

/-- The ids found in the vrings are given back, and nothing else. -/
theorem isBitSet_releaseVrings (i : Nat) (b : Bitmap) (k : Nat) :
    metalBitmapIsBitSet (releaseVrings env off m i b).val k = true ↔
      metalBitmapIsBitSet b k = true ∧
        ∀ j < i, (word m (vringNotifyid off j)).toNat ≠ k := by
  induction i generalizing b with
  | zero => simp [releaseVrings]
  | succ i ih =>
    simp only [releaseVrings, Traced.val_bind, val_read32]
    rw [ih, isBitSet_clearBit]
    simp only [Bool.and_eq_true, decide_eq_true_eq]
    constructor
    · rintro ⟨⟨hne, hset⟩, hrest⟩
      refine ⟨hset, fun j hj => ?_⟩
      by_cases hji : j = i
      · rw [hji]
        exact fun heq => hne heq.symm
      · exact hrest j (by omega)
    · rintro ⟨hset, hall⟩
      exact ⟨⟨fun heq => hall i (by omega) heq.symm, hset⟩,
        fun j hj => hall j (by omega)⟩

/-- A refused request leaves the bitmap alone. -/
theorem allocateNotifyId_refused {b : Bitmap} {r : UInt32} (hr : ¬ Grants r) :
    (allocateNotifyId b r).2 = b := by
  simp only [Grants, not_or] at hr
  simp [allocateNotifyId, remoteprocAllocateId, hr.1, hr.2]

theorem vringLoop_granted {left i : Nat}
    (hg : Grants (word st.mem (vringNotifyid off i))) :
    (vringLoop env off (left + 1) i st).val =
      (vringLoop env off left (i + 1)
        ⟨storeLE st.mem (vringNotifyid off i) 4
          (answerTo st.bitmap (word st.mem (vringNotifyid off i))),
          metalBitmapSetBit st.bitmap
            (answerTo st.bitmap (word st.mem (vringNotifyid off i)))⟩).val := by
  obtain ⟨hid, hmark⟩ := allocateNotifyId_answerTo (b := st.bitmap) hg
  have hne := (allocateNotifyId_granted st.bitmap _).mpr hg
  simp only [vringLoop, Traced.val_bind, Traced.val_ite, val_read32,
    val_write32, hid, hmark]
  split
  · rfl
  · next hno => exact absurd hne hno

theorem vringLoop_refused {left i : Nat}
    (hg : ¬ Grants (word st.mem (vringNotifyid off i))) :
    (vringLoop env off (left + 1) i st).val =
      (-RPROC_ERR_RSC_TAB_NP, ⟨st.mem, metalBitmapClearBit
        (releaseVrings env off st.mem i st.bitmap).val
        (word st.mem (off + 8)).toNat⟩) := by
  have hany := mt (allocateNotifyId_granted st.bitmap _).mp hg
  simp only [vringLoop, Traced.val_bind, Traced.val_ite, val_read32,
    Traced.val_pure, allocateNotifyId_refused hg]
  split
  · next hyes => exact absurd hyes hany
  · rfl

theorem word_storeLE_self {a v : Nat} (hv : v < 2 ^ 32) :
    (word (storeLE m a 4 v) a).toNat = v := by
  rw [word, loadLE_storeLE _ _ _ _ (by omega), UInt32.toNat_ofNat']
  omega

theorem answerTo_lt {b : Bitmap} {r : UInt32} (hr : Grants r) :
    answerTo b r < 2 ^ 32 := by
  rw [← (allocateNotifyId_answerTo hr).1]
  exact UInt32.toNat_lt _

/-- The vrings below `i` hold the ids `done`. -/
def HeldBelow (m : Mem) (off i : Nat) (done : List Nat) : Prop :=
  ∀ k, k ∈ done ↔ ∃ j < i, (word m (vringNotifyid off j)).toNat = k

/-- An id written at vring `i` comes after them. -/
theorem HeldBelow.store {i x : Nat} {done : List Nat}
    (h : HeldBelow m off i done) (hx : x < 2 ^ 32) :
    HeldBelow (storeLE m (vringNotifyid off i) 4 x) off (i + 1)
      (done ++ [x]) := by
  have hhere : (word (storeLE m (vringNotifyid off i) 4 x)
      (vringNotifyid off i)).toNat = x := word_storeLE_self hx
  have hbelow : ∀ j < i, word (storeLE m (vringNotifyid off i) 4 x)
      (vringNotifyid off j) = word m (vringNotifyid off j) := by
    intro j hj
    exact word_storeLE (.inl (by simp only [vringNotifyid]; omega))
  intro k
  simp only [List.mem_append, List.mem_singleton, h k]
  constructor
  · rintro (⟨j, hj, hjk⟩ | rfl)
    · exact ⟨j, by omega, by rw [hbelow j hj]; exact hjk⟩
    · exact ⟨i, by omega, hhere⟩
  · rintro ⟨j, hj, hjk⟩
    by_cases hji : j = i
    · right
      rw [← hjk, hji, hhere]
    · left
      exact ⟨j, by omega, by rw [← hbelow j (by omega)]; exact hjk⟩

/-- The error path gives back what they hold and the device's own id. -/
theorem HeldBelow.release {i x : Nat} {done : List Nat} {b : Bitmap}
    (h : HeldBelow m off i done) :
    metalBitmapClearBit (releaseVrings env off m i b).val x =
      cleared b (x :: done) := by
  apply bitmap_ext
  intro k
  rw [isBitSet_clearBit, isBitSet_cleared]
  simp only [Bool.and_eq_true, decide_eq_true_eq, isBitSet_releaseVrings,
    List.mem_cons, h k]
  constructor
  · rintro ⟨hne, hset, hall⟩
    refine ⟨hset, ?_⟩
    rintro (heq | ⟨j, hj, hjk⟩)
    · exact hne heq
    · exact hall j hj hjk
  · rintro ⟨hset, hno⟩
    exact ⟨fun heq => hno (.inl heq), hset,
      fun j hj hjk => hno (.inr ⟨j, hj, hjk⟩)⟩

/-- The loop over the vrings, with `done` the ids the vrings below `i`
hold: either all are granted, or the ones before the first that is
refused are given back together with `done` and the device's own. -/
theorem vringLoop_bitmap (left : Nat) : ∀ (i : Nat) (st : RscState)
    (done : List Nat),
    HeldBelow st.mem off i done →
    ((∀ r ∈ vringIds st.mem off left i, Grants r) →
      (vringLoop env off left i st).val.1 = 0 ∧
      (vringLoop env off left i st).val.2.bitmap =
        marked st.bitmap (vringIds st.mem off left i)) ∧
    ((∃ r ∈ vringIds st.mem off left i, ¬ Grants r) →
      (vringLoop env off left i st).val.1 = -RPROC_ERR_RSC_TAB_NP ∧
      (vringLoop env off left i st).val.2.bitmap =
        cleared (marked st.bitmap (grantedFirst (vringIds st.mem off left i)))
          ((word st.mem (off + 8)).toNat :: (done ++
            answers st.bitmap (grantedFirst (vringIds st.mem off left i))))) := by
  induction left with
  | zero =>
    intro i st done hdone
    refine ⟨fun _ => ⟨rfl, rfl⟩, ?_⟩
    rintro ⟨r, hr, -⟩
    cases hr
  | succ left ih =>
    intro i st done hdone
    rw [vringIds]
    by_cases hg : Grants (word st.mem (vringNotifyid off i))
    · rw [vringLoop_granted hg, grantedFirst_cons hg, marked, marked, answers]
      generalize hx : answerTo st.bitmap (word st.mem (vringNotifyid off i)) = x
      have hlt : x < 2 ^ 32 := hx ▸ answerTo_lt hg
      -- what the later rounds find in the table
      have hids : vringIds (storeLE st.mem (vringNotifyid off i) 4 x) off left
          (i + 1) = vringIds st.mem off left (i + 1) := by
        apply vringIds_storeLE
        simp only [vringNotifyid]
        omega
      have hvdev : word (storeLE st.mem (vringNotifyid off i) 4 x) (off + 8) =
          word st.mem (off + 8) :=
        word_storeLE (.inl (by simp only [vringNotifyid]; omega))
      have hstep := ih (i + 1) ⟨storeLE st.mem (vringNotifyid off i) 4 x,
        metalBitmapSetBit st.bitmap x⟩ (done ++ [x]) (hdone.store hlt)
      simp only [hids, hvdev] at hstep
      refine ⟨fun hall => hstep.1 fun r hr => hall r (by simp [hr]), ?_⟩
      rintro ⟨r, hr, hno⟩
      have hrest : r ∈ vringIds st.mem off left (i + 1) := by
        rcases List.mem_cons.mp hr with rfl | hr
        · exact absurd hg hno
        · exact hr
      obtain ⟨hst, hbm⟩ := hstep.2 ⟨r, hrest, hno⟩
      refine ⟨hst, ?_⟩
      rw [hbm, List.append_assoc]
      rfl
    · rw [vringLoop_refused hg, grantedFirst_refused hg]
      constructor
      · intro hall
        exact absurd (hall _ (by simp)) hg
      · intro _
        refine ⟨rfl, ?_⟩
        simp only [marked, answers, List.append_nil]
        exact hdone.release

/-- A virtio entry: all its ids are marked, or those before the first
that is refused are given back. -/
theorem handleVdevRsc_bitmap (htype : (word st.mem off).toNat = RSC_VDEV) :
    ((∀ r ∈ entryIds st.mem off, Grants r) →
      (handleVdevRsc env off st).val.1 = 0 ∧
      (handleVdevRsc env off st).val.2.bitmap =
        marked st.bitmap (entryIds st.mem off)) ∧
    ((∃ r ∈ entryIds st.mem off, ¬ Grants r) →
      (handleVdevRsc env off st).val.1 = -RPROC_ERR_RSC_TAB_NP ∧
      (handleVdevRsc env off st).val.2.bitmap =
        cleared (marked st.bitmap (grantedFirst (entryIds st.mem off)))
          (answers st.bitmap (grantedFirst (entryIds st.mem off)))) := by
  rw [entryIds, if_pos htype]
  by_cases hg : Grants (word st.mem (off + 8))
  · obtain ⟨hid, hmark⟩ := allocateNotifyId_answerTo (b := st.bitmap) hg
    have hne := (allocateNotifyId_granted st.bitmap _).mpr hg
    rw [grantedFirst_cons hg, marked, marked, answers]
    generalize hx : answerTo st.bitmap (word st.mem (off + 8)) = x at hid hmark ⊢
    have hlt : x < 2 ^ 32 := hx ▸ answerTo_lt hg
    have hnum : storeLE st.mem (off + 8) 4 x (off + 25) = st.mem (off + 25) :=
      storeLE_of_not _ _ _ _ (by omega)
    have hval : (handleVdevRsc env off st).val =
        (vringLoop env off (st.mem (off + 25)).toNat 0
          ⟨storeLE st.mem (off + 8) 4 x, metalBitmapSetBit st.bitmap x⟩).val := by
      simp only [handleVdevRsc, Traced.val_bind, Traced.val_ite, val_read32,
        val_write32, val_read8, hid, hmark, hnum]
      split
      · rfl
      · next hno => exact absurd hne hno
    -- the id written for the device lies before those of the vrings
    have hids : ∀ n, vringIds (storeLE st.mem (off + 8) 4 x) off n 0 =
        vringIds st.mem off n 0 := by
      intro n
      apply vringIds_storeLE
      simp only [vringNotifyid]
      omega
    have hself : (word (storeLE st.mem (off + 8) 4 x) (off + 8)).toNat = x :=
      word_storeLE_self hlt
    have hloop := @vringLoop_bitmap env off (st.mem (off + 25)).toNat 0
      ⟨storeLE st.mem (off + 8) 4 x, metalBitmapSetBit st.bitmap x⟩ [] (by simp [HeldBelow])
    simp only [hids, hself, List.nil_append] at hloop
    rw [hval]
    refine ⟨fun hall => hloop.1 fun r hr => hall r (by simp [hr]), ?_⟩
    rintro ⟨r, hr, hno⟩
    apply hloop.2
    rcases List.mem_cons.mp hr with rfl | hr
    · exact absurd hg hno
    · exact ⟨r, hr, hno⟩
  · -- the device itself is refused, before anything was marked
    have hany := mt (allocateNotifyId_granted st.bitmap _).mp hg
    have hval : (handleVdevRsc env off st).val =
        (-RPROC_ERR_RSC_TAB_NP, ⟨st.mem, st.bitmap⟩) := by
      simp only [handleVdevRsc, Traced.val_bind, Traced.val_ite, val_read32,
        Traced.val_pure, allocateNotifyId_refused hg]
      split
      · next hyes => exact absurd hyes hany
      · rfl
    rw [hval, grantedFirst_refused hg]
    exact ⟨fun hall => absurd (hall _ (by simp)) hg, fun _ => ⟨rfl, rfl⟩⟩

/-! ## All entries -/

/-- The entry at `off` is turned down by its handler. -/
inductive EntryRefused (env : RscEnv) (m : Mem) (off : Nat) : Prop where
  | carveoutReserved (htype : (word m off).toNat = RSC_CARVEOUT)
      (h : word m (off + 20) ≠ 0)
  | carveoutUnmapped (htype : (word m off).toNat = RSC_CARVEOUT)
      (h : (remoteprocMmap env.mems env.ops
        (some (word m (off + 8)).toUInt64) (some (word m (off + 4)).toUInt64)
        (word m (off + 12)).toUInt64 none).va = 0)
  | vdev (htype : (word m off).toNat = RSC_VDEV)
      (h : ∃ r ∈ entryIds m off, ¬ Grants r)
  | vendor (hstart : RSC_VENDOR_START ≤ (word m off).toNat)
      (hend : (word m off).toNat ≤ RSC_VENDOR_END)
      {handle : Nat → UInt32 → Int} (hsome : env.handleRsc = some handle)
      (h : handle off (word m (off + 4)) ≠ 0 ∧
        handle off (word m (off + 4)) ≠ -RPROC_ERR_RSC_TAB_NS)

theorem handleCarveOutRsc_val : (handleCarveOutRsc env off st).val =
    (if word st.mem (off + 20) ≠ 0 then -RPROC_ERR_RSC_TAB_RSVD
      else if (remoteprocMmap env.mems env.ops
        (some (word st.mem (off + 8)).toUInt64)
        (some (word st.mem (off + 4)).toUInt64)
        (word st.mem (off + 12)).toUInt64 none).va ≠ 0 then 0
      else -RPROC_EINVAL, st) := by
  simp only [handleCarveOutRsc, Traced.val_bind, Traced.val_ite,
    Traced.val_pure]
  by_cases h : word st.mem (off + 20) ≠ 0
  · refine (if_pos h).trans ?_
    rw [if_pos h]
  · refine (if_neg h).trans ?_
    rw [if_neg h]
    rfl

theorem handleTraceRsc_val :
    ((handleTraceRsc env off st).val.1 = 0 ∨
      (handleTraceRsc env off st).val.1 = -RPROC_ERR_RSC_TAB_NS) ∧
    (handleTraceRsc env off st).val.2 = st := by
  simp only [handleTraceRsc, Traced.val_bind, Traced.val_ite, Traced.val_pure]
  split
  · refine ⟨?_, rfl⟩
    exact ite_eq_or_eq _ _ _
  · exact ⟨.inr rfl, rfl⟩

theorem handleVendorRsc_val : (handleVendorRsc env off st).val =
    (env.handleRsc.elim (-RPROC_ERR_RSC_TAB_NS) fun handle =>
      handle off (word st.mem (off + 4)), st) := by
  cases h : env.handleRsc with
  | none => simp [handleVendorRsc, h]
  | some handle => simp [handleVendorRsc, h]

theorem handleRsc_val : (handleRsc env off st).val =
    if (word st.mem off).toNat = RSC_CARVEOUT then
      (handleCarveOutRsc env off st).val
    else if (word st.mem off).toNat = RSC_DEVMEM then
      (-RPROC_ERR_RSC_TAB_NS, st)
    else if (word st.mem off).toNat = RSC_TRACE then
      (handleTraceRsc env off st).val
    else if (word st.mem off).toNat = RSC_VDEV then
      (handleVdevRsc env off st).val
    else if RSC_VENDOR_START ≤ (word st.mem off).toNat ∧
        (word st.mem off).toNat ≤ RSC_VENDOR_END then
      (handleVendorRsc env off st).val
    else (0, st) := by
  simp only [handleRsc, Traced.val_bind, Traced.val_ite, Traced.val_pure]
  rfl

theorem handleRsc_vdev (htype : (word st.mem off).toNat = RSC_VDEV) :
    (handleRsc env off st).val = (handleVdevRsc env off st).val := by
  rw [handleRsc_val, if_neg (by rw [htype]; decide),
    if_neg (by rw [htype]; decide), if_neg (by rw [htype]; decide),
    if_pos htype]

/-- Only virtio entries change anything. -/
theorem handleRsc_other (htype : (word st.mem off).toNat ≠ RSC_VDEV) :
    (handleRsc env off st).val.2 = st := by
  rw [handleRsc_val]
  split
  · rw [handleCarveOutRsc_val]
  split
  · rfl
  split
  · exact handleTraceRsc_val.2
  split
  · rw [handleVendorRsc_val]
  · rfl

theorem entryRefused_iff (env : RscEnv) (off : Nat) (st : RscState) :
    EntryRefused env st.mem off ↔
      ¬ ((handleRsc env off st).val.1 = 0 ∨
        (handleRsc env off st).val.1 = -RPROC_ERR_RSC_TAB_NS) := by
  constructor
  · intro h
    cases h with
    | carveoutReserved htype h =>
      rw [handleRsc_val, if_pos htype, handleCarveOutRsc_val]
      simp only [if_pos h]
      decide
    | carveoutUnmapped htype h =>
      rw [handleRsc_val, if_pos htype, handleCarveOutRsc_val]
      simp only [h, ne_eq, not_true, if_false]
      split <;> decide
    | vdev htype h =>
      rw [handleRsc_vdev htype, ((handleVdevRsc_bitmap htype).2 h).1]
      decide
    | vendor hstart hend hsome h =>
      have hne : ∀ k < 128, (word st.mem off).toNat ≠ k := by
        simp only [RSC_VENDOR_START] at hstart
        omega
      rw [handleRsc_val, if_neg (hne _ (by decide)), if_neg (hne _ (by decide)),
        if_neg (hne _ (by decide)), if_neg (hne _ (by decide)),
        if_pos ⟨hstart, hend⟩, handleVendorRsc_val, hsome]
      exact fun hor => hor.elim h.1 h.2
  · intro hbad
    by_cases hvdev : (word st.mem off).toNat = RSC_VDEV
    · apply EntryRefused.vdev hvdev
      by_contra hall
      rw [handleRsc_vdev hvdev] at hbad
      refine hbad (.inl ((handleVdevRsc_bitmap hvdev).1 fun r hr => ?_).1)
      by_contra hno
      exact hall ⟨r, hr, hno⟩
    rw [handleRsc_val] at hbad
    -- what is left are the handlers, in the order of the dispatch
    split at hbad
    · next htype =>
      rw [handleCarveOutRsc_val] at hbad
      by_cases hres : word st.mem (off + 20) ≠ 0
      · exact .carveoutReserved htype hres
      · apply EntryRefused.carveoutUnmapped htype
        by_contra hva
        simp only [if_neg hres, ne_eq, hva, not_false_eq_true, if_true] at hbad
        exact hbad (.inl trivial)
    split at hbad
    · exact absurd (.inr rfl) hbad
    split at hbad
    · exact absurd handleTraceRsc_val.1 hbad
    split at hbad
    · next hvend =>
      rw [handleVendorRsc_val] at hbad
      cases hh : env.handleRsc with
      | none =>
        rw [hh] at hbad
        exact absurd (.inr rfl) hbad
      | some handle =>
        rw [hh] at hbad
        exact .vendor hvend.1 hvend.2 hh (not_or.mp hbad)
    · exact absurd (.inl rfl) hbad

/-- What the handler of an entry does to the bitmap. -/
theorem handleRsc_refused (h : EntryRefused env st.mem off) :
    (handleRsc env off st).val.2.bitmap =
      cleared (marked st.bitmap (grantedFirst (entryIds st.mem off)))
        (answers st.bitmap (grantedFirst (entryIds st.mem off))) := by
  by_cases htype : (word st.mem off).toNat = RSC_VDEV
  · have hbad := (entryRefused_iff env off st).mp h
    rw [handleRsc_vdev htype] at hbad ⊢
    apply ((handleVdevRsc_bitmap htype).2 _).2
    by_contra hall
    refine hbad (.inl ((handleVdevRsc_bitmap htype).1 fun r hr => ?_).1)
    by_contra hno
    exact hall ⟨r, hr, hno⟩
  · rw [handleRsc_other htype, entryIds, if_neg htype]
    rfl

theorem handleRsc_accepted (h : ¬ EntryRefused env st.mem off) :
    (handleRsc env off st).val.2.bitmap =
      marked st.bitmap (entryIds st.mem off) := by
  by_cases htype : (word st.mem off).toNat = RSC_VDEV
  · rw [handleRsc_vdev htype]
    apply ((handleVdevRsc_bitmap htype).1 _).2
    intro r hr
    by_contra hno
    exact h (.vdev htype ⟨r, hr, hno⟩)
  · rw [handleRsc_other htype, entryIds, if_neg htype]
    rfl

/-! ## The whole table

The hooks may answer differently from one entry to the next: `env idx`
is the platform as entry number `idx` meets it. -/

section Table

variable {env : Nat → RscEnv} {base : UInt64} {io : Option MetalIoRegion}

/-- The `for` loop of `handle_rsc_table` on a platform that may change. -/
def rscLoopAt (env : Nat → RscEnv) (base : UInt64)
    (io : Option MetalIoRegion) :
    Nat → Nat → RscState → Traced Access (Int × RscState)
  | 0, _, st => pure (0, st)
  | fuel + 1, idx, st => do
    let num ← read32 (env idx) st.mem 4
    if idx < num.toNat then
      let off ← read32 (env idx) st.mem (16 + 4 * idx)
      if outsideIo base io off then pure (-RPROC_ERR_RSC_TAB_TRUNC, st)
      else
        let (status, st) ← handleRsc (env idx) off.toNat st
        if status = 0 ∨ status = -RPROC_ERR_RSC_TAB_NS then
          rscLoopAt env base io fuel (idx + 1) st
        else pure (status, st)
    else pure (0, st)

/-- `handle_rsc_table` on such a platform. -/
def handleRscTableAt (env : Nat → RscEnv) (base : UInt64)
    (io : Option MetalIoRegion) (st : RscState) :
    Traced Access (Int × RscState) :=
  if (env 0).size < 16 then pure (-RPROC_ERR_RSC_TAB_TRUNC, st)
  else do
    let ver ← read32 (env 0) st.mem 0
    if ver ≠ RSC_TAB_SUPPORTED_VERSION then
      pure (-RPROC_ERR_RSC_TAB_VER, st)
    else
      let num ← read32 (env 0) st.mem 4
      if (env 0).size.toNat < (16 + num.toNat * 4) % 2 ^ 32 then
        pure (-RPROC_ERR_RSC_TAB_TRUNC, st)
      else
        let reserved0 ← read32 (env 0) st.mem 8
        let reserved1 ← read32 (env 0) st.mem 12
        if reserved0 ≠ 0 ∨ reserved1 ≠ 0 then
          pure (-RPROC_ERR_RSC_TAB_RSVD, st)
        else rscLoopAt env base io (2 ^ 32) 0 st

theorem rscLoop_eq (env : RscEnv) (fuel idx : Nat) (st : RscState) :
    rscLoop env base io fuel idx st =
      rscLoopAt (fun _ => env) base io fuel idx st := by
  induction fuel generalizing idx st with
  | zero => rfl
  | succ fuel ih =>
    simp only [rscLoop, rscLoopAt, ih]

/-- On a platform that does not change this is the parser. -/
theorem handleRscTable_eq (env : RscEnv) (st : RscState) :
    handleRscTable env base io st =
      handleRscTableAt (fun _ => env) base io st := by
  simp only [handleRscTable, handleRscTableAt, rscLoop_eq]

/-- The loop at entry `idx` comes to an entry that is turned down:
`asked` are the ids requested by the entries before it, `undone` those
the entry itself was granted. -/
inductive Stops (env : Nat → RscEnv) (base : UInt64)
    (io : Option MetalIoRegion) :
    RscState → Nat → List UInt32 → List UInt32 → Prop where
  | outside {st : RscState} {idx : Nat} (hnum : idx < numEntries st.mem)
      (hio : outsideIo base io (entryOffset st.mem idx) = true) :
      Stops env base io st idx [] []
  | refused {st : RscState} {idx : Nat} (hnum : idx < numEntries st.mem)
      (hio : outsideIo base io (entryOffset st.mem idx) = false)
      (h : EntryRefused (env idx) st.mem (entryOffset st.mem idx).toNat) :
      Stops env base io st idx []
        (grantedFirst (entryIds st.mem (entryOffset st.mem idx).toNat))
  | later {st : RscState} {idx : Nat} {asked undone : List UInt32}
      (hnum : idx < numEntries st.mem)
      (hio : outsideIo base io (entryOffset st.mem idx) = false)
      (h : ¬ EntryRefused (env idx) st.mem (entryOffset st.mem idx).toNat)
      (hrest : Stops env base io
        (handleRsc (env idx) (entryOffset st.mem idx).toNat st).val.2
        (idx + 1) asked undone) :
      Stops env base io st idx
        (entryIds st.mem (entryOffset st.mem idx).toNat ++ asked) undone

theorem rscLoopAt_done {fuel idx : Nat} {st : RscState}
    (hnum : ¬ idx < numEntries st.mem) :
    (rscLoopAt env base io fuel idx st).val = (0, st) := by
  cases fuel with
  | zero => rfl
  | succ fuel =>
    simp only [rscLoopAt, Traced.val_bind, Traced.val_ite, Traced.val_pure]
    exact if_neg hnum

theorem rscLoopAt_outside {fuel idx : Nat} {st : RscState}
    (hnum : idx < numEntries st.mem)
    (hio : outsideIo base io (entryOffset st.mem idx) = true) :
    (rscLoopAt env base io (fuel + 1) idx st).val =
      (-RPROC_ERR_RSC_TAB_TRUNC, st) := by
  simp only [rscLoopAt, Traced.val_bind, Traced.val_ite, Traced.val_pure]
  exact (if_pos hnum).trans (if_pos hio)

theorem rscLoopAt_entry {fuel idx : Nat} {st : RscState}
    (hnum : idx < numEntries st.mem)
    (hio : outsideIo base io (entryOffset st.mem idx) = false) :
    (rscLoopAt env base io (fuel + 1) idx st).val =
      if (handleRsc (env idx) (entryOffset st.mem idx).toNat st).val.1 = 0 ∨
          (handleRsc (env idx) (entryOffset st.mem idx).toNat st).val.1 =
            -RPROC_ERR_RSC_TAB_NS then
        (rscLoopAt env base io fuel (idx + 1)
          (handleRsc (env idx) (entryOffset st.mem idx).toNat st).val.2).val
      else (handleRsc (env idx) (entryOffset st.mem idx).toNat st).val := by
  simp only [rscLoopAt, Traced.val_bind, Traced.val_ite, Traced.val_pure]
  have hin : ¬ outsideIo base io (entryOffset st.mem idx) = true := by
    rw [hio]
    decide
  exact (if_pos hnum).trans (if_neg hin)

/-- Past an entry that is not turned down the loop goes on. -/
theorem rscLoopAt_accepted {fuel idx : Nat} {st : RscState}
    (hnum : idx < numEntries st.mem)
    (hio : outsideIo base io (entryOffset st.mem idx) = false)
    (hr : ¬ EntryRefused (env idx) st.mem (entryOffset st.mem idx).toNat) :
    (rscLoopAt env base io (fuel + 1) idx st).val =
      (rscLoopAt env base io fuel (idx + 1)
        (handleRsc (env idx) (entryOffset st.mem idx).toNat st).val.2).val := by
  have hok := mt (entryRefused_iff (env idx) _ st).mpr hr
  rw [rscLoopAt_entry hnum hio, if_pos (not_not.mp hok)]

/-- The loop ends with an entry that is turned down. -/
theorem rscLoopAt_refused {fuel idx : Nat} {st : RscState}
    (hnum : idx < numEntries st.mem)
    (hio : outsideIo base io (entryOffset st.mem idx) = false)
    (hr : EntryRefused (env idx) st.mem (entryOffset st.mem idx).toNat) :
    (rscLoopAt env base io (fuel + 1) idx st).val =
      (handleRsc (env idx) (entryOffset st.mem idx).toNat st).val ∧
    (handleRsc (env idx) (entryOffset st.mem idx).toNat st).val.1 ≠ 0 := by
  have hbad := (entryRefused_iff (env idx) _ st).mp hr
  rw [rscLoopAt_entry hnum hio, if_neg hbad]
  exact ⟨rfl, fun hzero => hbad (.inl hzero)⟩

theorem numEntries_lt (m : Mem) : numEntries m < 2 ^ 32 :=
  (word m 4).toNat_lt

/-- The fuel of `handle_rsc_table` lasts to the end of the table. -/
theorem fuel_succ {idx fuel : Nat} {m : Mem} (hnum : idx < numEntries m)
    (hle : 2 ^ 32 ≤ idx + fuel) : ∃ n, fuel = n + 1 := by
  have := numEntries_lt m
  exact ⟨fuel - 1, by omega⟩

/-- A loop that stops answers with an error, and leaves marked what was
asked for before. -/
theorem Stops.result {st : RscState} {idx : Nat} {asked undone : List UInt32}
    (h : Stops env base io st idx asked undone) :
    ∀ fuel, 2 ^ 32 ≤ idx + fuel →
    (rscLoopAt env base io fuel idx st).val.1 ≠ 0 ∧
    (rscLoopAt env base io fuel idx st).val.2.bitmap =
      cleared (marked (marked st.bitmap asked) undone)
        (answers (marked st.bitmap asked) undone) := by
  induction h with
  | outside hnum hio =>
    intro fuel hle
    obtain ⟨n, rfl⟩ := fuel_succ hnum hle
    rw [rscLoopAt_outside hnum hio]
    exact ⟨(by decide : -RPROC_ERR_RSC_TAB_TRUNC ≠ 0), rfl⟩
  | @refused st idx hnum hio hr =>
    intro fuel hle
    obtain ⟨n, rfl⟩ := fuel_succ hnum hle
    obtain ⟨hval, herr⟩ := rscLoopAt_refused hnum hio hr
    rw [hval]
    exact ⟨herr, handleRsc_refused hr⟩
  | @later st idx asked undone hnum hio hr hrest ih =>
    intro fuel hle
    obtain ⟨n, rfl⟩ := fuel_succ hnum hle
    rw [rscLoopAt_accepted hnum hio hr, marked_append,
      ← handleRsc_accepted hr]
    exact ih n (by omega)

/-- A loop that answers with an error has stopped. -/
theorem stops_of_error (fuel : Nat) : ∀ {idx : Nat} {st : RscState},
    (rscLoopAt env base io fuel idx st).val.1 ≠ 0 →
    ∃ asked undone, Stops env base io st idx asked undone := by
  induction fuel with
  | zero =>
    intro idx st h
    exact absurd rfl h
  | succ fuel ih =>
    intro idx st h
    by_cases hnum : idx < numEntries st.mem
    · cases hio : outsideIo base io (entryOffset st.mem idx) with
      | true => exact ⟨[], [], .outside hnum hio⟩
      | false =>
        by_cases hr : EntryRefused (env idx) st.mem (entryOffset st.mem idx).toNat
        · exact ⟨[], _, .refused hnum hio hr⟩
        · rw [rscLoopAt_accepted hnum hio hr] at h
          obtain ⟨asked, undone, hrest⟩ := ih h
          exact ⟨_, undone, .later hnum hio hr hrest⟩
    · rw [rscLoopAt_done hnum] at h
      exact absurd rfl h

/-- A table that is rejected leaves the bitmap as it was. -/
def RejectionRestores (env : Nat → RscEnv) (base : UInt64)
    (io : Option MetalIoRegion) (st : RscState) : Prop :=
  (handleRscTableAt env base io st).val.1 ≠ 0 →
    (handleRscTableAt env base io st).val.2.bitmap = st.bitmap

/-- What is left to the loop when the header does not stop the parser. -/
theorem handleRscTableAt_val (h : ¬ HeaderRejected (env 0) st.mem) :
    (handleRscTableAt env base io st).val =
      (rscLoopAt env base io (2 ^ 32) 0 st).val := by
  simp only [HeaderRejected, not_or, numEntries] at h
  obtain ⟨hsize, hver, htrunc, h8, h12⟩ := h
  rw [handleRscTableAt, if_neg hsize]
  simp only [Traced.val_bind, Traced.val_ite, Traced.val_pure]
  exact (if_neg hver).trans ((if_neg htrunc).trans
    (if_neg fun hor => hor.elim h8 h12))

theorem handleRscTableAt_header (h : HeaderRejected (env 0) st.mem) :
    (handleRscTableAt env base io st).val.2 = st := by
  unfold handleRscTableAt
  by_cases hsize : (env 0).size < 16
  · rw [if_pos hsize]
    rfl
  rw [if_neg hsize]
  simp only [Traced.val_bind, Traced.val_ite, Traced.val_pure]
  split
  · rfl
  next hver =>
  split
  · rfl
  next htrunc =>
  split
  · rfl
  next hres =>
  simp only [val_read32] at hver htrunc hres
  simp only [HeaderRejected, numEntries] at h
  tauto

/-- **A rejected table leaves the bitmap alone** exactly when its header
is what is wrong with it, or where the loop stops the ids given back are
those that were taken: all that the entries before were granted, and none
that was marked before the call. -/
theorem rejected_restores_iff (env : Nat → RscEnv) (base : UInt64)
    (io : Option MetalIoRegion) (st : RscState) :
    RejectionRestores env base io st ↔
      HeaderRejected (env 0) st.mem ∨
      ∀ asked undone, Stops env base io st 0 asked undone →
        GivesBack st.bitmap asked undone := by
  by_cases hhead : HeaderRejected (env 0) st.mem
  · refine iff_of_true (fun _ => ?_) (.inl hhead)
    rw [handleRscTableAt_header hhead]
  · rw [RejectionRestores, handleRscTableAt_val hhead, or_iff_right hhead]
    constructor
    · intro h asked undone hstops
      obtain ⟨herr, hbm⟩ := hstops.result (2 ^ 32) (by omega)
      rw [hbm] at h
      exact (givesBack_iff _ _ _).mp (h herr)
    · intro h herr
      obtain ⟨asked, undone, hstops⟩ := stops_of_error _ herr
      rw [(hstops.result (2 ^ 32) (by omega)).2]
      exact (givesBack_iff _ _ _).mpr (h asked undone hstops)

/-! ## Tables that leave the bitmap alone -/

/-- The loop at entry `idx` comes to the end of the table; `asked` are
the ids requested on the way. -/
inductive Passes (env : Nat → RscEnv) (base : UInt64)
    (io : Option MetalIoRegion) : RscState → Nat → List UInt32 → Prop where
  | done {st : RscState} {idx : Nat} (hnum : ¬ idx < numEntries st.mem) :
      Passes env base io st idx []
  | later {st : RscState} {idx : Nat} {asked : List UInt32}
      (hnum : idx < numEntries st.mem)
      (hio : outsideIo base io (entryOffset st.mem idx) = false)
      (h : ¬ EntryRefused (env idx) st.mem (entryOffset st.mem idx).toNat)
      (hrest : Passes env base io
        (handleRsc (env idx) (entryOffset st.mem idx).toNat st).val.2
        (idx + 1) asked) :
      Passes env base io st idx
        (entryIds st.mem (entryOffset st.mem idx).toNat ++ asked)

theorem Passes.result {st : RscState} {idx : Nat} {asked : List UInt32}
    (h : Passes env base io st idx asked) : ∀ fuel, 2 ^ 32 ≤ idx + fuel →
    (rscLoopAt env base io fuel idx st).val.2.bitmap =
      marked st.bitmap asked := by
  induction h with
  | done hnum =>
    intro fuel hle
    rw [rscLoopAt_done hnum]
    rfl
  | @later st idx asked hnum hio hr hrest ih =>
    intro fuel hle
    obtain ⟨n, rfl⟩ := fuel_succ hnum hle
    rw [rscLoopAt_accepted hnum hio hr, marked_append,
      ← handleRsc_accepted hr]
    exact ih n (by omega)

theorem passes_of_zero (fuel : Nat) : ∀ {idx : Nat} {st : RscState},
    2 ^ 32 ≤ idx + fuel → (rscLoopAt env base io fuel idx st).val.1 = 0 →
    ∃ asked, Passes env base io st idx asked := by
  induction fuel with
  | zero =>
    intro idx st hle _
    refine ⟨[], .done ?_⟩
    have := numEntries_lt st.mem
    omega
  | succ fuel ih =>
    intro idx st hle hzero
    by_cases hnum : idx < numEntries st.mem
    · cases hio : outsideIo base io (entryOffset st.mem idx) with
      | true =>
        rw [rscLoopAt_outside hnum hio] at hzero
        exact absurd hzero (by decide : -RPROC_ERR_RSC_TAB_TRUNC ≠ 0)
      | false =>
        by_cases hr : EntryRefused (env idx) st.mem (entryOffset st.mem idx).toNat
        · obtain ⟨hval, herr⟩ := rscLoopAt_refused hnum hio hr
          rw [hval] at hzero
          exact absurd hzero herr
        · rw [rscLoopAt_accepted hnum hio hr] at hzero
          obtain ⟨asked, hrest⟩ := ih (by omega) hzero
          exact ⟨_, .later hnum hio hr hrest⟩
    · exact ⟨[], .done hnum⟩

/-- Whatever way the parser ends, what it marked it gives back. -/
def LeavesBitmap (env : Nat → RscEnv) (base : UInt64)
    (io : Option MetalIoRegion) (st : RscState) : Prop :=
  HeaderRejected (env 0) st.mem ∨
    (∀ asked, Passes env base io st 0 asked → GivesBack st.bitmap asked []) ∧
    ∀ asked undone, Stops env base io st 0 asked undone →
      GivesBack st.bitmap asked undone

theorem leavesBitmap_iff (env : Nat → RscEnv) (base : UInt64)
    (io : Option MetalIoRegion) (st : RscState) :
    (handleRscTableAt env base io st).val.2.bitmap = st.bitmap ↔
      LeavesBitmap env base io st := by
  by_cases hhead : HeaderRejected (env 0) st.mem
  · refine iff_of_true ?_ (.inl hhead)
    rw [handleRscTableAt_header hhead]
  rw [handleRscTableAt_val hhead, LeavesBitmap, or_iff_right hhead]
  constructor
  · intro h
    constructor
    · intro asked hpasses
      rw [hpasses.result (2 ^ 32) (by omega)] at h
      exact (givesBack_iff _ _ _).mp h
    · intro asked undone hstops
      rw [(hstops.result (2 ^ 32) (by omega)).2] at h
      exact (givesBack_iff _ _ _).mp h
  · rintro ⟨hpass, hstop⟩
    by_cases hzero : (rscLoopAt env base io (2 ^ 32) 0 st).val.1 = 0
    · obtain ⟨asked, hpasses⟩ := passes_of_zero _ (by omega) hzero
      rw [hpasses.result (2 ^ 32) (by omega)]
      exact (givesBack_iff _ _ []).mpr (hpass asked hpasses)
    · obtain ⟨asked, undone, hstops⟩ := stops_of_error _ hzero
      rw [(hstops.result (2 ^ 32) (by omega)).2]
      exact (givesBack_iff _ _ _).mpr (hstop asked undone hstops)

end Table

/-- A table of two entries: a virtio entry that asks for id 5, and a
carveout whose reserved word is not zero. -/
def leakyTable : RscState where
  mem := fun a =>
    [1, 0, 0, 0, 2, 0, 0, 0, 0, 0, 0, 0, 0, 0, 0, 0, 24, 0, 0, 0, 52, 0, 0, 0,
      3, 0, 0, 0, 7, 0, 0, 0, 5, 0, 0, 0, 0, 0, 0, 0, 0, 0, 0, 0, 0, 0, 0, 0,
      0, 0, 0, 0,
      0, 0, 0, 0, 0, 0, 0, 0, 0, 0, 0, 0, 0, 0, 0, 0, 0, 0, 0, 0,
      1, 0, 0, 0].getD a 0
  bitmap := fun _ => 0

/-- The carveout has the table rejected, and id 5 stays marked. -/
theorem rejected_table_leaks :
    (handleRscTableAt (fun _ => ⟨[], ⟨none, none⟩, none, 108⟩) 0 none
      leakyTable).val.1 = -RPROC_ERR_RSC_TAB_RSVD ∧
    ¬ RejectionRestores (fun _ => ⟨[], ⟨none, none⟩, none, 108⟩) 0 none
      leakyTable := by
  have hret : (handleRscTableAt (fun _ => ⟨[], ⟨none, none⟩, none, 108⟩) 0 none
      leakyTable).val.1 = -RPROC_ERR_RSC_TAB_RSVD := by decide +kernel
  have hword : (handleRscTableAt (fun _ => ⟨[], ⟨none, none⟩, none, 108⟩) 0 none
      leakyTable).val.2.bitmap 0 = 32 := by decide +kernel
  refine ⟨hret, fun h => ?_⟩
  rw [h (by rw [hret]; decide)] at hword
  exact absurd hword (by decide)

end OpenAmp.Remoteproc.Parser
