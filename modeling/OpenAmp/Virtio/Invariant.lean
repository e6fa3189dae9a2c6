import Mathlib.Data.List.Count
import Mathlib.Data.List.Perm.Basic
import OpenAmp.Lib.Linked
import OpenAmp.Lib.Window
import OpenAmp.Virtio.System

/-!
# The ring invariant

What a ring is for, as lists: `Flow` has the free descriptors, the
chains on their way to the device, the chains the device holds and the
chains on their way back. `VqInv` ties a state of the system to its
flow: the free list is threaded through `next` from `vq_desc_head_idx`,
every live chain stands in the table as it was added, the two rings hold
the two queues, and the descriptor lists of the flow are together a
permutation of the table.

Each queue function has one lemma here saying what it does to the table
it walks; the invariant is kept by each step through these.
-/

namespace OpenAmp.Virtio

open OpenAmp.Metal OpenAmp.Lib

/-! ## The abstract queue -/

/-- A live chain: its number in the order of adding, its descriptors and
the call that added it. -/
structure Chain where
  num : Nat
  descs : List UInt16
  call : Added

/-- The abstract state of a ring. -/
structure Flow where
  free : List UInt16
  avail : List Chain
  held : List Chain
  used : List (Chain × UInt32)

/-- All live chains. -/
def Flow.live (f : Flow) : List Chain :=
  f.avail ++ f.held ++ f.used.map Prod.fst

/-- The indices of a table of `n` descriptors. -/
def indices (n : Nat) : List UInt16 := (List.range n).map UInt16.ofNat

/-- The `next` thread of a descriptor table. -/
def nextOf (desc : UInt16 → VringDesc) (i : UInt16) : UInt16 := (desc i).next

/-- A chain stands in the table and in the driver's book-keeping exactly
as it was added. Its last `next` is not constrained: adding never writes
it. -/
structure ChainOk (io : MetalIoRegion) (desc : UInt16 → VringDesc)
    (descx : UInt16 → VqDescExtra) (c : Chain) : Prop where
  link : ∃ e, Linked (nextOf desc) e c.call.head c.descs
  nonempty : c.descs ≠ []
  needed : c.call.needed = c.descs.length
  flags : ∀ i x, c.descs[i]? = some x →
    (desc x).flags = descFlags c.call.readable c.call.needed i
  addr : (desc c.call.head).addr = metalIoVirtToPhys io c.call.first.buf
  len : (desc c.call.head).len = c.call.first.len.toUInt32
  ndescs : (descx c.call.head).ndescs = UInt16.ofNat c.descs.length
  cookie : (descx c.call.head).cookie = c.call.cookie
  cookie_ne : c.call.cookie ≠ 0

/-- The slot of ring position `p`. -/
def VqConfig.slot (cfg : VqConfig) (p : Nat) : UInt16 :=
  UInt16.ofNat p &&& (cfg.nentries - 1)

/-- What never changes in a run. -/
structure VqFixed (cfg : VqConfig) (drv dev : Virtqueue) : Prop where
  drvDev : drv.vqDev = ⟨.driver, cfg.drvFeatures⟩
  devDev : dev.vqDev = ⟨.device, cfg.devFeatures⟩
  drvNum : drv.vqNentries = cfg.nentries
  devNum : dev.vqNentries = cfg.nentries
  drvRing : drv.vqRingNum = cfg.nentries.toUInt32
  devRing : dev.vqRingNum = cfg.nentries.toUInt32
  drvIo : drv.shmIo = cfg.drvIo
  devIo : dev.shmIo = cfg.devIo
  drvNotify : drv.notify = cfg.drvNotify
  devNotify : dev.notify = cfg.devNotify

/-- The descriptor table and the driver's book-keeping carry the free
list `free` and the live chains `live`. -/
structure TableInv (cfg : VqConfig) (drv : Virtqueue)
    (desc : UInt16 → VringDesc) (free : List UInt16) (live : List Chain) :
    Prop where
  thread : Linked (nextOf desc) VQ_RING_DESC_CHAIN_END drv.vqDescHeadIdx free
  freeCnt : drv.vqFreeCnt = UInt16.ofNat free.length
  part : (free ++ live.flatMap Chain.descs).Perm (indices cfg.num)
  chains : ∀ c ∈ live, ChainOk cfg.drvIo desc drv.vqDescx c
  idle : ∀ i, i.toNat < cfg.num → i ∉ live.map (·.call.head) →
    (drv.vqDescx i).cookie = 0

/-- The two rings carry the chains under way in either direction. -/
structure RingsInv (cfg : VqConfig) (s : VqSystem) (f : Flow) : Prop where
  availIdx : s.ring.avail.idx = UInt16.ofNat s.added.length
  availCons : s.dev.vqAvailableIdx = UInt16.ofNat s.taken.length
  availRing : Window cfg.slot s.ring.avail.ring s.taken.length
    (f.avail.map (·.call.head))
  usedIdx : s.ring.used.idx = UInt16.ofNat s.returned.length
  usedCons : s.drv.vqUsedConsIdx = UInt16.ofNat s.got.length
  usedRing : Window cfg.slot s.ring.used.ring s.got.length
    (f.used.map fun u => ⟨u.1.call.head.toUInt32, u.2⟩)

/-- What the two programs have observed agrees with the flow. -/
structure LogInv (cfg : VqConfig) (s : VqSystem) (f : Flow) : Prop where
  calls : ∀ c ∈ f.live, s.added[c.num]? = some c.call
  nums : (f.live.map (·.num) ++
    (s.returned.take s.got.length).map Prod.fst).Perm
      (List.range s.added.length)
  sent : s.added.length = s.taken.length + f.avail.length
  availNum : f.avail.map (·.num) =
    List.range' s.taken.length f.avail.length
  takenView : ∀ (i : Nat) b, s.taken[i]? = some b →
    ∃ a : Added, s.added[i]? = some a ∧ b = a.view cfg
  heldNum : s.held.Perm (f.held.map (·.num))
  heldTaken : ∀ c ∈ f.held, c.num < s.taken.length
  back : s.returned.drop s.got.length = f.used.map fun u => (u.1.num, u.2)
  gotLen : s.got.length ≤ s.returned.length
  gotView : ∀ (i : Nat) (g : GotBuffer), s.got[i]? = some g →
    ∃ (j : Nat) (len : UInt32) (a : Added), s.returned[i]? = some (j, len) ∧
      s.added[j]? = some a ∧ g.cookie = a.cookie ∧ g.len = len

/-- **The ring invariant**: state `s` carries flow `f`. -/
structure VqInv (cfg : VqConfig) (s : VqSystem) (f : Flow) : Prop where
  fixed : VqFixed cfg s.drv s.dev
  table : TableInv cfg s.drv s.ring.desc f.free f.live
  rings : RingsInv cfg s f
  log : LogInv cfg s f

/-! ## What each function does to the table -/

@[simp] theorem nextOf_setNext (desc : UInt16 → VringDesc) (i v : UInt16) :
    nextOf (setNext desc i v) = Function.update (nextOf desc) i v := by
  funext x
  by_cases hx : x = i
  · subst hx
    simp [nextOf, setNext]
  · simp [nextOf, setNext, hx]

/-- Filling a descriptor without touching its `next` keeps the thread. -/
theorem nextOf_update {desc : UInt16 → VringDesc} {i : UInt16}
    {d : VringDesc} (hd : d.next = (desc i).next) :
    nextOf (Function.update desc i d) = nextOf desc := by
  funext x
  by_cases hx : x = i
  · subst hx
    simp [nextOf, hd]
  · simp [nextOf, hx]

theorem setNext_len (desc : UInt16 → VringDesc) (i v x : UInt16) :
    (setNext desc i v x).len = (desc x).len := by
  by_cases hx : x = i <;> simp [setNext, hx]

/-- What `vq_ring_add_buffer` does to a free segment `pre`: it fills the
descriptors of `pre` in order, touches no other, writes no `next` and
stops on the descriptor behind the segment. -/
theorem addBufferLoop_spec (vq : Virtqueue) (bufList : Nat → VirtqueueBuf)
    (readable needed : Int) {e : UInt16} (pre : List UInt16) :
    ∀ (i : Nat) (idx : UInt16) (desc : UInt16 → VringDesc),
    pre.Nodup → Linked (nextOf desc) e idx pre →
    ∀ r, addBufferLoop vq bufList readable needed pre.length i idx desc = r →
      r.2 = e ∧ nextOf r.1 = nextOf desc ∧
      (∀ x, x ∉ pre → r.1 x = desc x) ∧
      ∀ j x, pre[j]? = some x → r.1 x =
        { addr := virtqueueVirtToPhys vq (bufList (i + j)).buf
          len := (bufList (i + j)).len.toUInt32
          flags := descFlags readable needed (i + j)
          next := nextOf desc x } := by
  induction pre with
  | nil =>
    intro i idx desc _ hl r hr
    subst hr
    exact ⟨hl, rfl, fun _ _ => rfl, fun j x hj => by simp at hj⟩
  | cons y pre ih =>
    intro i idx desc hnd hl r hr
    obtain ⟨rfl, hrest⟩ := hl
    obtain ⟨hy, hnd'⟩ := List.nodup_cons.mp hnd
    rw [List.length_cons, addBufferLoop] at hr
    generalize hd : VringDesc.mk _ _ _ (desc idx).next = d at hr
    have hnext : nextOf (Function.update desc idx d) = nextOf desc :=
      nextOf_update (by rw [← hd])
    obtain ⟨hidx, hn, hout, hin⟩ := ih (i + 1) _ _ hnd'
      (by rw [hnext]; exact hrest) r hr
    rw [hnext] at hn
    refine ⟨hidx, hn, ?_, ?_⟩
    · intro x hx
      rw [hout x (fun h => hx (List.mem_cons_of_mem _ h)),
        Function.update_of_ne (fun h => hx (by simp [h]))]
    · intro j x hj
      cases j with
      | zero =>
        -- the descriptor filled in this round is not met again
        have hx : idx = x := by simpa using hj
        subst hx
        rw [hout idx hy, Function.update_self, ← hd]
        rfl
      | succ j =>
        rw [hin j x (by simpa using hj), hnext,
          show i + 1 + j = i + (j + 1) from by omega]

theorem descFlags_next (readable needed : Int) (i : Nat) :
    descFlags readable needed i &&& VRING_DESC_F_NEXT ≠ 0 ↔
      (i : Int) < needed - 1 := by
  unfold descFlags
  by_cases h1 : (i : Int) < needed - 1 <;>
    by_cases h2 : readable ≤ (i : Int) <;> simp only [h1, h2] <;> decide

theorem descFlags_indirect (readable needed : Int) (i : Nat) :
    descFlags readable needed i &&& VRING_DESC_F_INDIRECT = 0 := by
  unfold descFlags
  by_cases h1 : (i : Int) < needed - 1 <;>
    by_cases h2 : readable ≤ (i : Int) <;> simp only [h1, h2] <;> decide

/-- What the loop of `vq_ring_free_chain` finds on a chain as it was
added: the chain's last descriptor, one count less for every descriptor
before it. -/
theorem freeChainLoop_spec {desc : UInt16 → VringDesc} {e : UInt16}
    (readable : Int) (l : List UInt16) (x : UInt16) :
    ∀ (fuel i : Nat) (h nd : UInt16), l.length < fuel →
    Linked (nextOf desc) e h (l ++ [x]) →
    (∀ j y, (l ++ [x])[j]? = some y → (desc y).flags =
      descFlags readable ((i + (l.length + 1) : Nat) : Int) (i + j)) →
    freeChainLoop desc fuel h nd = some (x, nd - UInt16.ofNat l.length) := by
  induction l with
  | nil =>
    intro fuel i h nd hf hl hflags
    obtain ⟨rfl, -⟩ := hl
    have hstop : ¬ (desc h).flags &&& VRING_DESC_F_NEXT ≠ 0 := by
      rw [hflags 0 h rfl, descFlags_next]
      simp
    cases fuel with
    | zero => simp at hf
    | succ fuel => simp [freeChainLoop, if_neg hstop]
  | cons y l ih =>
    intro fuel i h nd hf hl hflags
    obtain ⟨rfl, hrest⟩ := hl
    have hgo : (desc h).flags &&& VRING_DESC_F_NEXT ≠ 0 := by
      rw [hflags 0 h rfl, descFlags_next]
      simp only [List.length_cons]
      omega
    cases fuel with
    | zero => simp at hf
    | succ fuel =>
      rw [freeChainLoop, if_pos hgo]
      have hih := ih fuel (i + 1) (nextOf desc h) (nd - 1)
        (by simpa using hf) hrest (fun j y hj => by
          rw [hflags (j + 1) y (by simpa using hj), List.length_cons]
          congr 1
          · omega
          · omega)
      rw [show (desc h).next = nextOf desc h from rfl, hih]
      congr 2
      rw [List.length_cons, Nat.add_comm, UInt16.ofNat_add, UInt16.ofNat_one]
      grind

/-! ## The initial state -/

theorem VqConfig.num_pos (cfg : VqConfig) : 0 < cfg.num :=
  Nat.two_pow_pos _

theorem VqConfig.num_le (cfg : VqConfig) : cfg.num ≤ 2 ^ 15 :=
  Nat.pow_le_pow_right (by decide) cfg.order_le

@[simp] theorem VqConfig.toNat_nentries (cfg : VqConfig) :
    cfg.nentries.toNat = cfg.num := by
  have := cfg.num_le
  rw [VqConfig.nentries, UInt16.toNat_ofNat']
  omega

theorem VqConfig.slotsOf (cfg : VqConfig) : SlotsOf cfg.num cfg.slot :=
  slotsOf_mask cfg.order_le

theorem ofNat_inj16 {a b : Nat} (ha : a < 2 ^ 16) (hb : b < 2 ^ 16)
    (h : UInt16.ofNat a = UInt16.ofNat b) : a = b := by
  have := congrArg UInt16.toNat h
  rw [UInt16.toNat_ofNat', UInt16.toNat_ofNat'] at this
  omega

/-- The loop of `vq_ring_init` threads the first `m` descriptors. -/
theorem nextOf_linkDescs (desc : UInt16 → VringDesc) (m : Nat)
    (hm : m ≤ 2 ^ 15) : ∀ i < m,
    nextOf (linkDescs desc m) (UInt16.ofNat i) = UInt16.ofNat (i + 1) := by
  induction m with
  | zero => intro i hi; omega
  | succ m ih =>
    intro i hi
    rw [linkDescs, nextOf_setNext]
    by_cases him : i = m
    · subst him
      simp
    · rw [Function.update_of_ne (fun h => him
        (ofNat_inj16 (by omega) (by omega) h))]
      exact ih (by omega) i (by omega)

/-- The free list `vq_ring_init` leaves behind is the whole table. -/
theorem linked_init (desc : UInt16 → VringDesc) {n : Nat} (hn : 0 < n)
    (hle : n ≤ 2 ^ 15) :
    Linked (nextOf (setNext (linkDescs desc (n - 1)) (UInt16.ofNat (n - 1))
      VQ_RING_DESC_CHAIN_END)) VQ_RING_DESC_CHAIN_END 0 (indices n) := by
  obtain ⟨m, rfl⟩ : ∃ m, n = m + 1 := ⟨n - 1, by omega⟩
  rw [indices, List.range_succ, List.map_append, Nat.add_sub_cancel]
  refine linked_append.mpr ⟨UInt16.ofNat m, ?_, ?_⟩
  · rw [List.range_eq_range']
    have hwalk : Linked (nextOf (linkDescs desc m)) (UInt16.ofNat (0 + m))
        (UInt16.ofNat 0) ((List.range' 0 m).map UInt16.ofNat) := linked_range' m 0
      (fun i _ hi => nextOf_linkDescs desc m (by omega) i (by omega))
    rw [Nat.zero_add] at hwalk
    refine hwalk.congr fun x hx => ?_
    obtain ⟨i, hi, rfl⟩ := List.mem_map.mp hx
    have him : i < m := by simpa [List.mem_range'] using hi
    rw [nextOf_setNext, Function.update_of_ne (fun h => by
      have := ofNat_inj16 (by omega) (by omega) h
      omega)]
  · simp

theorem nodup_indices {n : Nat} (hn : n ≤ 2 ^ 15) : (indices n).Nodup := by
  refine List.Nodup.map_on (fun a ha b hb h => ?_) List.nodup_range
  rw [List.mem_range] at ha hb
  exact ofNat_inj16 (by omega) (by omega) h

@[simp] theorem length_indices (n : Nat) : (indices n).length = n := by
  simp [indices]

theorem mem_indices {n : Nat} (hn : n ≤ 2 ^ 15) (i : UInt16) :
    i ∈ indices n ↔ i.toNat < n := by
  constructor
  · intro h
    obtain ⟨k, hk, rfl⟩ := List.mem_map.mp h
    rw [List.mem_range] at hk
    rw [UInt16.toNat_ofNat']
    omega
  · intro h
    exact List.mem_map.mpr ⟨i.toNat, List.mem_range.mpr h, by simp⟩

/-- The flow of a fresh ring: everything free. -/
def Flow.init (cfg : VqConfig) : Flow := ⟨indices cfg.num, [], [], []⟩

theorem vqInv_init (cfg : VqConfig) :
    VqInv cfg (VqSystem.init cfg) (Flow.init cfg) where
  fixed := ⟨rfl, rfl, rfl, rfl, rfl, rfl, rfl, rfl, rfl, rfl⟩
  table := by
    refine ⟨?_, ?_, ?_, by simp [Flow.init, Flow.live], fun _ _ _ => rfl⟩
    · have h := linked_init zeroedVring.desc cfg.num_pos cfg.num_le
      simpa [VqSystem.init, virtqueueCreate, vqRingInit, virtqueueAllocate,
        Flow.init] using h
    · simp [VqSystem.init, virtqueueCreate, vqRingInit, Flow.init,
        VqConfig.nentries]
    · simp [Flow.init, Flow.live]
  rings := ⟨rfl, rfl, Window.nil _ _ _, rfl, rfl, Window.nil _ _ _⟩
  log := by
    refine ⟨?_, ?_, rfl, rfl, ?_, .nil, ?_, rfl, Nat.le_refl _, ?_⟩ <;>
      simp [Flow.init, Flow.live, VqSystem.init]

end OpenAmp.Virtio
