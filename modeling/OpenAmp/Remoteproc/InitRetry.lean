import OpenAmp.Remoteproc.Queues

/-!
# What a failed initialisation leaves of the pool

`rpmsg_init_vdev_with_config` of a driver, with its pools: where it fails,
what it has taken out of them is lost. The buffers of the receive queue are
cut off the first pool one by one, and the exits of that loop, like the one
behind it, delete the queues and nothing else.
-/

namespace OpenAmp.Remoteproc

open OpenAmp.Lib OpenAmp.Metal OpenAmp.Virtio OpenAmp.Rpmsg

def ENXIO : Int := 6

/-- What the virtio device answers: whether it has functions for its
features and for its status, the result of creating the queues, and the
receive queue that was created. -/
structure VirtioAnswers where
  getFeatures : Bool
  create : Int
  rvq : Virtqueue
  ring : Vring
  setStatus : Bool

/-- What an initialisation returns, the buffers it has lent to the peer,
and the pools. -/
structure InitResult where
  status : Int
  buffers : List UInt64
  shpool : Option (ShmPool × ShmPool)

/-- The loop of `rpmsg_init_vdev_with_config` over the entries of the
receive queue, with `k` rounds to go: its status, the buffers lent, and what
it leaves of the pool, also where it fails. -/
def lendRxBuffers (r2hBufSize : UInt32) :
    Nat → ShmPool → Virtqueue → Vring →
      Int × List UInt64 × ShmPool × Virtqueue × Vring
  | 0, shpool, rvq, ring => (RPMSG_SUCCESS, [], shpool, rvq, ring)
  | k + 1, shpool, rvq, ring =>
    let (buffer, shpool) :=
      rpmsgVirtioShmPoolGetBuffer shpool r2hBufSize.toUInt64
    if buffer = 0 then (RPMSG_ERR_NO_BUFF, [], shpool, rvq, ring)
    else
      let (status, rvq, ring) := virtqueueAddBuffer rvq ring
        (fun _ => ⟨buffer, r2hBufSize.toInt32⟩) 0 1 buffer
      if status ≠ VQUEUE_SUCCESS then (status, [], shpool, rvq, ring)
      else
        let (status, buffers, rest) := lendRxBuffers r2hBufSize k shpool rvq ring
        (status, buffer :: buffers, rest)

/-- `rpmsg_init_vdev_with_config` of a driver, with the pools. -/
def rpmsgInitDriver (args : InitArgs) (ans : VirtioAnswers) : InitResult :=
  if args.shmIo.isNone then ⟨RPMSG_ERR_PARAM, [], args.shpool⟩
  else match args.config with
  | none => ⟨RPMSG_ERR_PARAM, [], args.shpool⟩
  | some config =>
    if ans.getFeatures = false then ⟨- ENXIO, [], args.shpool⟩
    else match args.shpool with
    | none => ⟨RPMSG_ERR_PARAM, [], none⟩
    | some (shpool, behind) =>
      let own := if config.splitShpool then behind else shpool
      if shpool.size = 0 ∨ own.size = 0 then
        ⟨RPMSG_ERR_NO_BUFF, [], some (shpool, behind)⟩
      else if ans.create ≠ RPMSG_SUCCESS then
        ⟨ans.create, [], some (shpool, behind)⟩
      else
        let (status, buffers, shpool, _, _) := lendRxBuffers config.r2hBufSize
          ans.rvq.vqNentries.toNat shpool ans.rvq ans.ring
        if status ≠ RPMSG_SUCCESS then ⟨status, buffers, some (shpool, behind)⟩
        else if ans.setStatus = false then
          ⟨- ENXIO, buffers, some (shpool, behind)⟩
        else ⟨RPMSG_SUCCESS, buffers, some (shpool, behind)⟩

/-- The pools have as much left as before, and a later call that would have
succeeded at once does what it would have done. -/
structure InitRetries (args : InitArgs) (ans : VirtioAnswers) : Prop where
  avail : (rpmsgInitDriver args ans).shpool.map
      (fun pools => (pools.1.avail, pools.2.avail)) =
    args.shpool.map fun pools => (pools.1.avail, pools.2.avail)
  retry : ∀ later, (rpmsgInitDriver args later).status = RPMSG_SUCCESS →
    rpmsgInitDriver
      { args with shpool := (rpmsgInitDriver args ans).shpool } later =
        rpmsgInitDriver args later

/-- The checks in front of the receive buffers are passed. -/
def ReachesBuffers (args : InitArgs) (ans : VirtioAnswers)
    (config : RpmsgVirtioConfig) (shpool behind : ShmPool) : Prop :=
  args.config = some config ∧ args.shpool = some (shpool, behind) ∧
    args.shmIo.isSome ∧ ans.getFeatures = true ∧
    ¬ (shpool.size = 0 ∨
      (if config.splitShpool then behind else shpool).size = 0) ∧
    ans.create = RPMSG_SUCCESS

/-- The initialisation comes to the receive buffers and gets one from the
pool, but not one for every entry, or the status cannot be set. -/
def LosesBuffers (args : InitArgs) (ans : VirtioAnswers) : Prop :=
  ∃ config shpool behind, ReachesBuffers args ans config shpool behind ∧
    (ans.rvq.vqNentries.toNat ≠ 0 ∧ config.r2hBufSize ≠ 0 ∧
      config.r2hBufSize.toUInt64 ≤ shpool.avail) ∧
    (poolServes config.r2hBufSize ans.rvq.vqNentries.toNat shpool = false ∨
      ans.setStatus = false)

/-! ## The loop -/

variable {r2hBufSize : UInt32}

/-- Where the loop succeeds, it is the one whose queue and pool the receive
path starts from. -/
theorem rpmsgInitRxBuffers_eq_lend (k : Nat) : ∀ (shpool : ShmPool)
    (rvq : Virtqueue) (ring : Vring),
    rpmsgInitRxBuffers r2hBufSize k shpool rvq ring =
      if (lendRxBuffers r2hBufSize k shpool rvq ring).1 = RPMSG_SUCCESS then
        some (lendRxBuffers r2hBufSize k shpool rvq ring).2.2
      else none := by
  induction k with
  | zero => exact fun shpool rvq ring => rfl
  | succ k ih =>
    intro shpool rvq ring
    rw [rpmsgInitRxBuffers, lendRxBuffers]
    dsimp only
    split
    · rfl
    · split
      · next hadd => exact absurd rfl hadd
      · exact ih _ _ _

theorem lendRxBuffers_status (k : Nat) (shpool : ShmPool) (rvq : Virtqueue)
    (ring : Vring) :
    (lendRxBuffers r2hBufSize k shpool rvq ring).1 = RPMSG_SUCCESS ↔
      poolServes r2hBufSize k shpool = true := by
  rw [← rpmsgInitRxBuffers_isSome r2hBufSize k shpool rvq ring,
    rpmsgInitRxBuffers_eq_lend]
  split <;> simp [*]

theorem lendRxBuffers_status_cases (k : Nat) : ∀ (shpool : ShmPool)
    (rvq : Virtqueue) (ring : Vring),
    (lendRxBuffers r2hBufSize k shpool rvq ring).1 = RPMSG_SUCCESS ∨
      (lendRxBuffers r2hBufSize k shpool rvq ring).1 = RPMSG_ERR_NO_BUFF := by
  induction k with
  | zero => exact fun _ _ _ => .inl rfl
  | succ k ih =>
    intro shpool rvq ring
    rw [lendRxBuffers]
    dsimp only
    split
    · exact .inr rfl
    · split
      · next hadd => exact absurd rfl hadd
      · exact ih _ _ _

/-- A buffer is there for a size other than 0 that is left. -/
theorem getBuffer_avail {shpool : ShmPool} {size : UInt64} (hsize : size ≠ 0)
    (hle : size ≤ shpool.avail) :
    (rpmsgVirtioShmPoolGetBuffer shpool size).2.avail < shpool.avail := by
  have hno : ¬ (size = 0 ∨ shpool.avail < size) :=
    not_or.mpr ⟨hsize, UInt64.not_lt.mpr hle⟩
  have hpos : size.toNat ≠ 0 := fun h0 => hsize (UInt64.toNat_inj.mp h0)
  have hle' := UInt64.le_iff_toNat_le.mp hle
  rw [rpmsgVirtioShmPoolGetBuffer, if_neg hno, UInt64.lt_iff_toNat_lt,
    UInt64.toNat_sub_of_le _ _ hle]
  omega

theorem getBuffer_avail_le (shpool : ShmPool) (size : UInt64) :
    (rpmsgVirtioShmPoolGetBuffer shpool size).2.avail ≤ shpool.avail := by
  by_cases h : size = 0 ∨ shpool.avail < size
  · rw [rpmsgVirtioShmPoolGetBuffer, if_pos h]
    exact UInt64.le_refl _
  · rw [not_or, UInt64.not_lt] at h
    exact UInt64.le_of_lt (getBuffer_avail h.1 h.2)

/-- The loop puts nothing back, -/
theorem lendRxBuffers_avail_le (k : Nat) : ∀ (shpool : ShmPool)
    (rvq : Virtqueue) (ring : Vring),
    (lendRxBuffers r2hBufSize k shpool rvq ring).2.2.1.avail ≤
      shpool.avail := by
  induction k with
  | zero => exact fun shpool _ _ => UInt64.le_refl shpool.avail
  | succ k ih =>
    intro shpool rvq ring
    have hget := getBuffer_avail_le shpool r2hBufSize.toUInt64
    rw [lendRxBuffers]
    dsimp only
    split
    · exact hget
    · split
      · exact hget
      · exact UInt64.le_trans (ih _ _ _) hget

/-- so that the first buffer it takes is missing at its end, -/
theorem lendRxBuffers_avail_lt {k : Nat} {shpool : ShmPool} (hk : k ≠ 0)
    (hsize : r2hBufSize ≠ 0) (hle : r2hBufSize.toUInt64 ≤ shpool.avail)
    (rvq : Virtqueue) (ring : Vring) :
    (lendRxBuffers r2hBufSize k shpool rvq ring).2.2.1.avail <
      shpool.avail := by
  obtain ⟨k, rfl⟩ := Nat.exists_eq_succ_of_ne_zero hk
  have hwide : r2hBufSize.toUInt64 ≠ 0 := by
    intro h0
    have hnat := congrArg UInt64.toNat h0
    rw [UInt32.toNat_toUInt64] at hnat
    exact hsize (UInt32.toNat_inj.mp hnat)
  have hget := getBuffer_avail hwide hle
  rw [lendRxBuffers]
  dsimp only
  split
  · exact hget
  · split
    · exact hget
    · exact UInt64.lt_of_le_of_lt (lendRxBuffers_avail_le _ _ _ _) hget

/-- and one that gets none leaves the pool. -/
theorem lendRxBuffers_none {k : Nat} {shpool : ShmPool}
    (h : ¬ (k ≠ 0 ∧ r2hBufSize ≠ 0 ∧ r2hBufSize.toUInt64 ≤ shpool.avail))
    (rvq : Virtqueue) (ring : Vring) :
    (lendRxBuffers r2hBufSize k shpool rvq ring).2.2.1 = shpool := by
  cases k with
  | zero => rfl
  | succ k =>
    have hnone : r2hBufSize.toUInt64 = 0 ∨
        shpool.avail < r2hBufSize.toUInt64 := by
      by_cases h0 : r2hBufSize = 0
      · exact .inl (h0 ▸ rfl)
      · exact .inr (UInt64.not_le.mp fun hle =>
          h ⟨Nat.succ_ne_zero k, h0, hle⟩)
    have hget : rpmsgVirtioShmPoolGetBuffer shpool r2hBufSize.toUInt64 =
        (0, shpool) := if_pos hnone
    simp only [lendRxBuffers, hget, if_true]

/-! ## The initialisation -/

variable {args : InitArgs} {ans : VirtioAnswers}

/-- The end of the initialisation, from the result of the loop on. -/
def initEnd (ans : VirtioAnswers) (behind : ShmPool)
    (r : Int × List UInt64 × ShmPool × Virtqueue × Vring) : InitResult :=
  if r.1 ≠ RPMSG_SUCCESS then ⟨r.1, r.2.1, some (r.2.2.1, behind)⟩
  else if ans.setStatus = false then ⟨- ENXIO, r.2.1, some (r.2.2.1, behind)⟩
  else ⟨RPMSG_SUCCESS, r.2.1, some (r.2.2.1, behind)⟩

theorem initEnd_shpool (behind : ShmPool)
    (r : Int × List UInt64 × ShmPool × Virtqueue × Vring) :
    (initEnd ans behind r).shpool = some (r.2.2.1, behind) := by
  unfold initEnd
  split
  · rfl
  · split <;> rfl

theorem initEnd_fails_iff (behind : ShmPool)
    (r : Int × List UInt64 × ShmPool × Virtqueue × Vring) :
    (initEnd ans behind r).status ≠ RPMSG_SUCCESS ↔
      r.1 ≠ RPMSG_SUCCESS ∨ ans.setStatus = false := by
  unfold initEnd
  by_cases hr : r.1 = RPMSG_SUCCESS
  · rw [if_neg (not_not.mpr hr)]
    cases ans.setStatus with
    | false => simp [RPMSG_SUCCESS, ENXIO]
    | true => simp [hr]
  · rw [if_pos hr]
    exact iff_of_true hr (.inl hr)

/-- The initialisation is refused with its pools as they were, or comes to
the receive buffers. -/
theorem rpmsgInitDriver_cases (args : InitArgs) (ans : VirtioAnswers) :
    ((rpmsgInitDriver args ans).shpool = args.shpool ∧
      ∀ config shpool behind,
        ¬ ReachesBuffers args ans config shpool behind) ∨
    ∃ config shpool behind, ReachesBuffers args ans config shpool behind ∧
      rpmsgInitDriver args ans = initEnd ans behind
        (lendRxBuffers config.r2hBufSize ans.rvq.vqNentries.toNat shpool
          ans.rvq ans.ring) := by
  unfold rpmsgInitDriver ReachesBuffers
  by_cases hio : args.shmIo.isNone = true
  · rw [if_pos hio]
    refine .inl ⟨rfl, ?_⟩
    rintro config shpool behind ⟨-, -, hsome, -⟩
    rw [Option.isNone_iff_eq_none.mp hio] at hsome
    cases hsome
  rw [if_neg hio]
  cases hconfig : args.config with
  | none =>
    refine .inl ⟨rfl, ?_⟩
    rintro config shpool behind ⟨heq, -⟩
    cases heq
  | some config =>
    dsimp only
    by_cases hfeat : ans.getFeatures = false
    · rw [if_pos hfeat]
      refine .inl ⟨rfl, ?_⟩
      rintro _ _ _ ⟨-, -, -, htrue, -⟩
      rw [hfeat] at htrue
      cases htrue
    rw [if_neg hfeat]
    cases hpool : args.shpool with
    | none =>
      refine .inl ⟨rfl, ?_⟩
      rintro _ _ _ ⟨-, heq, -⟩
      cases heq
    | some pools =>
      obtain ⟨shpool, behind⟩ := pools
      dsimp only
      by_cases hsize : shpool.size = 0 ∨
          (if config.splitShpool then behind else shpool).size = 0
      · rw [if_pos hsize]
        refine .inl ⟨rfl, ?_⟩
        rintro _ _ _ ⟨heq, heq', -, -, hno, -⟩
        cases heq
        cases heq'
        exact hno hsize
      rw [if_neg hsize]
      by_cases hcreate : ans.create = RPMSG_SUCCESS
      · rw [if_neg (not_not.mpr hcreate)]
        exact .inr ⟨config, shpool, behind, ⟨rfl, rfl,
          by simpa [Option.isSome_iff_ne_none] using hio, by simpa using hfeat,
          hsize, hcreate⟩, rfl⟩
      · rw [if_pos hcreate]
        exact .inl ⟨rfl, fun _ _ _ h => hcreate h.2.2.2.2.2⟩

theorem ReachesBuffers.unique {config config' : RpmsgVirtioConfig}
    {shpool shpool' behind behind' : ShmPool}
    (h : ReachesBuffers args ans config shpool behind)
    (h' : ReachesBuffers args ans config' shpool' behind') :
    config' = config ∧ shpool' = shpool ∧ behind' = behind := by
  have hconfig := h.1.symm.trans h'.1
  have hpool := h.2.1.symm.trans h'.2.1
  cases hconfig
  cases hpool
  exact ⟨rfl, rfl, rfl⟩

/-- On a device of `remoteproc`, which has all functions, the status is that
of the initialisation over its queues. -/
theorem rpmsgInitDriver_status (args : InitArgs) (ans : VirtioAnswers)
    {dev : Vdev} {heap : VqHeap} {vring : VringInfo} {rest : List VringInfo}
    (hrole : dev.role = .driver) (hfeat : ans.getFeatures = true)
    (hset : ans.setStatus = true)
    (hcreate : ans.create = (rprocVirtioCreateVirtqueues args.alloc
      RPMSG_NUM_VRINGS dev.vringsInfo heap).1)
    (hvrings : (rprocVirtioCreateVirtqueues args.alloc RPMSG_NUM_VRINGS
      dev.vringsInfo heap).2.1 = vring :: rest)
    (hnum : ans.rvq.vqNentries = vring.numDescs.toUInt16) :
    (rpmsgInitDriver args ans).status =
      (rpmsgInitVdevWithConfig args dev heap).1 := by
  obtain ⟨shmIo, shpool, config, alloc⟩ := args
  simp only [rpmsgInitDriver, rpmsgInitVdevWithConfig, rpmsgInitChecks, hrole,
    hfeat]
  cases shmIo with
  | none => rfl
  | some io =>
    cases config with
    | none => rfl
    | some config =>
      cases shpool with
      | none => rfl
      | some pools =>
        obtain ⟨shpool, behind⟩ := pools
        have hserved := @lendRxBuffers_status config.r2hBufSize
          ans.rvq.vqNentries.toNat shpool ans.rvq ans.ring
        have hstatus := @lendRxBuffers_status_cases config.r2hBufSize
          ans.rvq.vqNentries.toNat shpool ans.rvq ans.ring
        have hfailed : RPMSG_ERR_NO_BUFF ≠ RPMSG_SUCCESS := by decide
        dsimp only
        generalize rprocVirtioCreateVirtqueues alloc RPMSG_NUM_VRINGS
          dev.vringsInfo heap = created at *
        obtain ⟨status, vrings, heap'⟩ := created
        dsimp only at hcreate hvrings
        subst hcreate hvrings
        simp only [Option.isNone_some, Bool.false_eq_true, if_false,
          Bool.true_eq_false, rxBuffersServed, ← hnum, hset]
        by_cases hsize : shpool.size = 0 ∨
            (if config.splitShpool then behind else shpool).size = 0
        · rw [if_pos hsize, if_pos hsize, if_pos hfailed]
        rw [if_neg hsize, if_neg hsize, if_neg (not_not.mpr rfl)]
        by_cases hcreate : ans.create = RPMSG_SUCCESS
        · rw [if_neg (not_not.mpr hcreate), if_neg (not_not.mpr hcreate)]
          rcases hstatus with hok | hnone
          · rw [if_neg (not_not.mpr hok), if_neg (by simp [hserved.mp hok])]
          · have hno : poolServes config.r2hBufSize ans.rvq.vqNentries.toNat
                shpool = false := by
              rw [← Bool.not_eq_true, ← hserved, hnone]
              exact hfailed
            rw [hnone, if_pos hfailed, if_pos hno]
        · rw [if_pos hcreate, if_pos hcreate]

/-- **A failed initialisation can be retried** exactly if it has lost no
buffers. -/
theorem initRetries_iff (args : InitArgs) (ans : VirtioAnswers) :
    ((rpmsgInitDriver args ans).status ≠ RPMSG_SUCCESS →
      InitRetries args ans) ↔ ¬ LosesBuffers args ans := by
  rcases rpmsgInitDriver_cases args ans with ⟨hsame, hno⟩ |
    ⟨config, shpool, behind, hreach, heq⟩
  · refine iff_of_true (fun _ => ?_) ?_
    · exact ⟨by rw [hsame], fun later _ => by rw [hsame]⟩
    · rintro ⟨config, shpool, behind, hreach, -⟩
      exact hno config shpool behind hreach
  · have hpool := hreach.2.1
    have hafter : (rpmsgInitDriver args ans).shpool = _ :=
      heq ▸ initEnd_shpool behind _
    have hfails : (rpmsgInitDriver args ans).status ≠ RPMSG_SUCCESS ↔
        poolServes config.r2hBufSize ans.rvq.vqNentries.toNat shpool = false ∨
          ans.setStatus = false := by
      rw [heq, initEnd_fails_iff, ne_eq, lendRxBuffers_status,
        Bool.not_eq_true]
    constructor
    · rintro h ⟨config', shpool', behind', hreach', ⟨hn, hsize, hle⟩, hlate⟩
      obtain ⟨rfl, rfl, rfl⟩ := hreach.unique hreach'
      have havail := (h (hfails.mpr hlate)).avail
      rw [hafter, hpool] at havail
      simp only [Option.map_some, Option.some.injEq, Prod.mk.injEq, and_true]
        at havail
      have hlt := lendRxBuffers_avail_lt hn hsize hle ans.rvq ans.ring
      rw [havail] at hlt
      exact UInt64.lt_irrefl _ hlt
    · intro h hfail
      have hnone := lendRxBuffers_none (fun htakes => h ⟨config, shpool,
        behind, hreach, htakes, hfails.mp hfail⟩) ans.rvq ans.ring
      have hsame : (rpmsgInitDriver args ans).shpool = args.shpool := by
        rw [hafter, hpool, hnone]
      exact ⟨by rw [hsame], fun later _ => by rw [hsame]⟩

/-- A device whose receive queue has two entries. -/
def twoEntries (setStatus : Bool) : VirtioAnswers where
  getFeatures := true
  create := 0
  rvq := (virtqueueCreate ⟨.driver, 0⟩ 2 false
    (virtqueueAllocate ⟨.driver, 0⟩ (metalIoInit 4096 none 4096 0))
    zeroedVring).2.1
  ring := (virtqueueCreate ⟨.driver, 0⟩ 2 false
    (virtqueueAllocate ⟨.driver, 0⟩ (metalIoInit 4096 none 4096 0))
    zeroedVring).2.2
  setStatus := setStatus

/-- A pool of two buffers. -/
def twoBuffers : InitArgs where
  shmIo := some (metalIoInit 4096 none 4096 0)
  shpool := some (⟨4096, 1024, 1024⟩, ⟨0, 0, 0⟩)
  config := some ⟨512, 512, false⟩
  alloc := fun _ => true

/-- The status cannot be set: both buffers are gone, and the call that
would have succeeded finds none. -/
theorem initRetries_twoBuffers :
    (rpmsgInitDriver twoBuffers (twoEntries false)).status = - ENXIO ∧
    (rpmsgInitDriver twoBuffers (twoEntries false)).shpool =
      some (⟨4096, 0, 1024⟩, ⟨0, 0, 0⟩) ∧
    (rpmsgInitDriver twoBuffers (twoEntries true)).status = RPMSG_SUCCESS ∧
    (rpmsgInitDriver { twoBuffers with
      shpool := (rpmsgInitDriver twoBuffers (twoEntries false)).shpool }
      (twoEntries true)).status = RPMSG_ERR_NO_BUFF ∧
    ¬ InitRetries twoBuffers (twoEntries false) := by
  have hafter : (rpmsgInitDriver twoBuffers (twoEntries false)).shpool =
      some (⟨4096, 0, 1024⟩, ⟨0, 0, 0⟩) := by decide
  refine ⟨by decide, hafter, by decide, by decide, fun h => ?_⟩
  have havail := h.avail
  rw [hafter] at havail
  exact absurd havail (by decide)

end OpenAmp.Remoteproc
