import OpenAmp.Lib.Fuel
import OpenAmp.Remoteproc.ElfSegments

/-!
# Enumerating the segments

The data loop of `remoteproc_load` calls `elf_load` again and again until
the data phase is over. Between two calls the number of the next program
header is kept in eight bits of the state, while a table may have 65535
headers. Behind header 255 the search goes back, and what it finds on the
way to that header it has found before.
-/

namespace OpenAmp.Remoteproc

open OpenAmp.Lib OpenAmp.Metal

/-- The arguments of a call of `elf_load`, without the image information
and the last state. -/
structure LoadArgs where
  heap : Heap
  img : Mem
  offset : UInt64
  len : UInt64
  da : UInt64
  noffset : UInt64
  nlen : UInt64
  padding : UInt8
  nmemsize : UInt64

def LoadArgs.call (args : LoadArgs) (info : Option ElfInfo)
    (lastLoadState : Int32) : DataOut :=
  (elfLoad args.heap args.img args.offset args.len info lastLoadState args.da
    args.noffset args.nlen args.padding args.nmemsize).val

/-- What a call of `elf_load` says of a segment. -/
structure SegmentReport where
  da : UInt64
  noffset : UInt64
  nlen : UInt64
  padding : UInt8
  nmemsize : UInt64
deriving DecidableEq, Repr

def DataOut.report (out : DataOut) : SegmentReport :=
  ⟨out.da, out.noffset, out.nlen, out.padding, out.nmemsize⟩

/-- What it should say of a loadable segment. -/
def ElfSegment.report (seg : ElfSegment) : SegmentReport :=
  ⟨seg.paddr, seg.offset, seg.filesz, 0, seg.memsz⟩

/-- The segments reported by a sequence of calls and the state it came
to. -/
structure Enumeration where
  reports : List SegmentReport
  state : Int32
deriving DecidableEq, Repr

/-- The data phase is over. -/
def Enumeration.Over (e : Enumeration) : Prop :=
  e.state &&& RPROC_LOADER_LOAD_COMPLETE ≠ 0 ∨
    e.state &&& RPROC_LOADER_POST_DATA_LOAD ≠ 0

/-- Calls of `elf_load` as long as there is data to be loaded; call number
`i` has the arguments `args i`. Only the call that finds no segment
completes the load. -/
def loadCalls (args : Nat → LoadArgs) :
    Nat → Nat → Option ElfInfo → Int32 → Option Enumeration
  | 0, _, _, _ => none
  | fuel + 1, i, info, lastLoadState =>
    let out := (args i).call info lastLoadState
    if out.ret &&& RPROC_LOADER_READY_TO_LOAD ≠ 0 then
      (loadCalls args fuel (i + 1) out.info out.ret).map fun e =>
        { e with reports := out.report :: e.reports }
    else if out.ret &&& RPROC_LOADER_POST_DATA_LOAD ≠ 0 then
      some ⟨[out.report], out.ret⟩
    else some ⟨[], out.ret⟩

/-- The calls come to an end of the data phase and have then reported every
loadable segment once, in the order of the table. -/
def ElfInfo.Enumerated (info : ElfInfo) (phdrs : Block)
    (args : Nat → LoadArgs) : Prop :=
  Settles (fun fuel => loadCalls args fuel 0 (some info) info.loadState)
    fun e => e.Over ∧ e.reports =
      (loadsFrom (phdrs.segmentAt info.ehdr.is64) info.ehdr.phnum.toNat 0).map
        ElfSegment.report

/-! ## One call -/

theorem pack_complete (stage : HdrStage) (phase : LoadPhase) (seg : Nat) :
    pack stage phase seg &&& RPROC_LOADER_LOAD_COMPLETE ≠ 0 ↔
      phase = .complete := by
  rw [pack_and (by decide)]
  cases stage <;> cases phase <;> decide

/-- The information on an image with its program headers, about to look
for a segment from header `k` on. -/
structure AtSegment (ehdr : ElfEhdr) (phdrs : Block) (stage : HdrStage)
    (k : Nat) (info : ElfInfo) : Prop where
  ehdr : info.ehdr = ehdr
  phdrs : info.phdrs = some phdrs
  state : info.loadState = pack stage .ready k

section Calls

variable {ehdr : ElfEhdr} {phdrs : Block} {stage : HdrStage} {k : Nat}
  {info : ElfInfo} {args : Nat → LoadArgs}

/-- A round that finds a segment before the last header. -/
theorem loadCalls_ready {i j : Nat} {info' : ElfInfo}
    (hret : ((args i).call (some info) (pack stage .ready k)).ret =
      pack stage .ready j)
    (hinfo : ((args i).call (some info) (pack stage .ready k)).info =
      some info') (fuel : Nat) :
    loadCalls args (fuel + 1) i (some info) (pack stage .ready k) =
      (loadCalls args fuel (i + 1) (some info') (pack stage .ready j)).map
        fun e => { e with reports := ((args i).call (some info)
          (pack stage .ready k)).report :: e.reports } := by
  simp only [loadCalls]
  rw [hret, hinfo, if_pos ((pack_ready stage .ready j).mpr rfl)]

/-- A round that finds the last header. -/
theorem loadCalls_post {i j : Nat}
    (hret : ((args i).call (some info) (pack stage .ready k)).ret =
      pack stage .post j) (fuel : Nat) :
    loadCalls args (fuel + 1) i (some info) (pack stage .ready k) =
      some ⟨[((args i).call (some info) (pack stage .ready k)).report],
        pack stage .post j⟩ := by
  have hready : ¬ pack stage .post j &&& RPROC_LOADER_READY_TO_LOAD ≠ 0 :=
    fun h => absurd ((pack_ready stage .post j).mp h) (by decide)
  simp only [loadCalls]
  rw [hret, if_neg hready, if_pos ((pack_post stage .post j).mpr rfl)]

/-- A round that finds nothing. -/
theorem loadCalls_complete {i j : Nat}
    (hret : ((args i).call (some info) (pack stage .ready k)).ret =
      pack stage .complete j) (fuel : Nat) :
    loadCalls args (fuel + 1) i (some info) (pack stage .ready k) =
      some ⟨[], pack stage .complete j⟩ := by
  have hready : ¬ pack stage .complete j &&& RPROC_LOADER_READY_TO_LOAD ≠ 0 :=
    fun h => absurd ((pack_ready stage .complete j).mp h) (by decide)
  have hpost : ¬ pack stage .complete j &&& RPROC_LOADER_POST_DATA_LOAD ≠ 0 :=
    fun h => absurd ((pack_post stage .complete j).mp h) (by decide)
  simp only [loadCalls]
  rw [hret, if_neg hready, if_neg hpost]

/-- A call from header `k` on, whatever its other arguments are: it reports
the next loadable header, or there is none. -/
theorem AtSegment.call (h : AtSegment ehdr phdrs stage k info)
    (hk : k % 256 ≤ ehdr.phnum.toNat) (args : LoadArgs) :
    let n := ehdr.phnum.toNat
    let f := phdrs.segmentAt ehdr.is64
    let out := args.call (some info) (pack stage .ready k)
    (∃ j, k % 256 ≤ j ∧ j < n ∧ (f j).IsLoad ∧
      loadsFrom f n (k % 256) = f j :: loadsFrom f n (j + 1) ∧
      let state := pack stage (if j + 1 = n then .post else .ready) (j + 1)
      out.ret = state ∧ out.info = some { info with loadState := state } ∧
        out.report = (f j).report) ∨
    (loadsFrom f n (k % 256) = [] ∧ out.ret = pack stage .complete n) := by
  obtain ⟨rfl, hphdrs, hstate⟩ := h
  intro n f out
  have hcall : out = (elfLoadSegment info args.da args.noffset args.nlen
      args.nmemsize).val := by
    simp only [out, LoadArgs.call]
    rw [elfLoad_ready _ _ _ _ _ _ _ _ _ hstate]
  rw [hcall]
  rcases elfLoadSegment_val hphdrs hstate hk args.da args.noffset args.nlen
      args.nmemsize with ⟨j, h1, h2, h3, h4, h5⟩ | ⟨h1, noffset, h2⟩
  · refine .inl ⟨j, h1, h2, h3, h4, ?_⟩
    simp only [h5]
    exact ⟨rfl, rfl, rfl⟩
  · refine .inr ⟨h1, ?_⟩
    simp only [h2]
    rfl

/-- The information after a call that left the data phase open. -/
theorem AtSegment.next (h : AtSegment ehdr phdrs stage k info) (j : Nat) :
    AtSegment ehdr phdrs stage j
      { info with loadState := pack stage .ready j } :=
  ⟨h.ehdr, h.phdrs, rfl⟩

/-! ## All calls -/

/-- No loadable header lies so far back that the number of the next one
does not fit the state, except the last header of the table. -/
def ElfEhdr.IndexFits (ehdr : ElfEhdr) (phdrs : Block) : Prop :=
  ∀ j, 255 ≤ j → j + 1 < ehdr.phnum.toNat →
    ¬ (phdrs.segmentAt ehdr.is64 j).IsLoad

/-- While the numbers fit, the calls go through the rest of the table. -/
theorem AtSegment.settles (hfits : ehdr.IndexFits phdrs)
    (args : Nat → LoadArgs) (left : Nat) :
    ∀ {k : Nat} {info : ElfInfo} (i : Nat), ehdr.phnum.toNat - k < left →
      k < 256 → k ≤ ehdr.phnum.toNat →
      AtSegment ehdr phdrs stage k info →
      Settles (fun fuel => loadCalls args fuel i (some info)
          (pack stage .ready k))
        fun e => e.Over ∧ e.reports =
          (loadsFrom (phdrs.segmentAt ehdr.is64) ehdr.phnum.toNat k).map
            ElfSegment.report := by
  induction left with
  | zero =>
    intro k info i hleft
    exact absurd hleft (Nat.not_lt_zero _)
  | succ left ih =>
    intro k info i hleft hk hkn hat
    have hcall := hat.call (by omega) (args i)
    simp only [Nat.mod_eq_of_lt hk] at hcall
    rcases hcall with ⟨j, h1, h2, hload, hlist, hret, hinfo, hrep⟩ |
      ⟨hnone, hret⟩
    · rw [hlist, List.map_cons]
      by_cases hlast : j + 1 = ehdr.phnum.toNat
      · -- the last header is loadable
        rw [if_pos hlast] at hret
        refine Settles.of_eq (loadCalls_post hret) ⟨.inr ?_, ?_⟩
        · exact (pack_post stage .post _).mpr rfl
        · rw [loadsFrom_end (by omega), hrep]
          rfl
      · rw [if_neg hlast] at hret hinfo
        have hj : j + 1 < 256 := by
          by_contra hbig
          exact hfits j (by omega) (by omega) hload
        refine Settles.step_map _ (loadCalls_ready hret hinfo) ?_
          (ih (i + 1) (by omega) hj (by omega) (hat.next (j + 1)))
        rintro e ⟨hover, hreports⟩
        refine ⟨hover, ?_⟩
        rw [hreports, hrep]
    · refine Settles.of_eq (loadCalls_complete hret) ⟨.inl ?_, ?_⟩
      · exact (pack_complete stage .complete _).mpr rfl
      · rw [hnone]
        rfl

end Calls

section GoingBack

variable {f : Nat → ElfSegment} {n : Nat}

theorem loadsFrom_length_le (f : Nat → ElfSegment) (n : Nat) {k k' : Nat}
    (h : k ≤ k') :
    (loadsFrom f n k').length ≤ (loadsFrom f n k).length := by
  induction h with
  | refl => exact Nat.le_refl _
  | @step k' _ ih =>
    apply Nat.le_trans _ ih
    by_cases hlt : k' < n
    · rw [loadsFrom_succ hlt]
      split
      · exact Nat.le_succ _
      · exact Nat.le_refl _
    · rw [loadsFrom_end (by omega)]
      exact Nat.zero_le _

/-- The first loadable header from `k` on does not lie behind another. -/
theorem first_load_le {k j j' : Nat} (hk : k ≤ j') (hj' : j' < n)
    (hload' : (f j').IsLoad) (hj : j < n) (hload : (f j).IsLoad)
    (hfirst : loadsFrom f n k = f j :: loadsFrom f n (j + 1)) : j ≤ j' := by
  by_contra hbehind
  -- otherwise there would be one more from `k` on than there is
  have h1 := congrArg List.length hfirst
  have h2 := loadsFrom_length_le f n hk
  have h3 := congrArg List.length (loadsFrom_succ (f := f) hj')
  have h4 := loadsFrom_length_le f n (by omega : j' + 1 ≤ j)
  have h5 := congrArg List.length (loadsFrom_succ (f := f) hj)
  rw [if_pos hload', List.length_cons] at h3
  rw [if_pos hload, List.length_cons] at h5
  rw [List.length_cons] at h1
  omega

end GoingBack

section Endless

variable {ehdr : ElfEhdr} {phdrs : Block} {stage : HdrStage}

/-- A loadable header from 255 on that is not the last is found again and
again. -/
theorem AtSegment.endless {j : Nat} (hj : 255 ≤ j)
    (hlast : j + 1 < ehdr.phnum.toNat)
    (hload : (phdrs.segmentAt ehdr.is64 j).IsLoad) (args : Nat → LoadArgs)
    (fuel : Nat) : ∀ {k : Nat} {info : ElfInfo} (i : Nat), k % 256 ≤ j →
      AtSegment ehdr phdrs stage k info →
      loadCalls args fuel i (some info) (pack stage .ready k) = none := by
  induction fuel with
  | zero =>
    intro k info i _ _
    rfl
  | succ fuel ih =>
    intro k info i hk hat
    rcases hat.call (by omega) (args i) with
      ⟨j', h1, h2, hload', hlist, hret, hinfo, -⟩ | ⟨hnone, -⟩
    · have hle := first_load_le hk (by omega) hload h2 hload' hlist
      rw [if_neg (by omega)] at hret hinfo
      -- the next number, cut to eight bits, is not behind `j` either
      have hnext : (j' + 1) % 256 ≤ j := by omega
      rw [loadCalls_ready hret hinfo, ih (i + 1) hnext (hat.next (j' + 1))]
      rfl
    · have hle := loadsFrom_length_le (phdrs.segmentAt ehdr.is64)
        ehdr.phnum.toNat hk
      rw [hnone, loadsFrom_succ (by omega), if_pos hload] at hle
      exact absurd hle (Nat.not_succ_le_zero _)

end Endless

/-- **The segments are enumerated exactly if the numbers of the headers fit
the state.** On an image whose program headers have been read, from the
first header on and whatever the other arguments of the calls are. -/
theorem enumerated_iff {info : ElfInfo} {phdrs : Block} {stage : HdrStage}
    (hphdrs : info.phdrs = some phdrs)
    (hstate : info.loadState = pack stage .ready 0)
    (args : Nat → LoadArgs) :
    info.Enumerated phdrs args ↔ info.ehdr.IndexFits phdrs := by
  have hat : AtSegment info.ehdr phdrs stage 0 info := ⟨rfl, hphdrs, hstate⟩
  rw [ElfInfo.Enumerated, hstate]
  constructor
  · rintro ⟨e, -, m, hm⟩ j hj hlast hload
    have hnone := AtSegment.endless hj hlast hload args m 0 (Nat.zero_le _) hat
    have hsome : loadCalls args m 0 (some info) (pack stage .ready 0) =
        some e := hm m (Nat.le_refl m)
    rw [hsome] at hnone
    cases hnone
  · intro hfits
    exact AtSegment.settles hfits args _ 0 (Nat.lt_succ_self _) (by decide)
      (Nat.zero_le _) hat

/-- A table of 32-bit program headers that are all loadable. -/
def denseTable (num : UInt16) : Block where
  size := num.toUInt64 * 32
  bytes := fun a => if a % 32 = 0 then 1 else 0

/-- An image with such a table, its headers read. -/
def denseImage (num : UInt16) : ElfInfo where
  ehdr := ⟨false, 0, 52, 0, 32, num, 40, 0, 0⟩
  loadState := pack .complete .ready 0
  phdrs := some (denseTable num)
  shdrs := none
  shstrtab := none

/-- The arguments the data loop begins with. -/
def firstArgs : LoadArgs where
  heap := ⟨fun _ => true, fun _ => 0⟩
  img := fun _ => 0
  offset := 0
  len := 0
  da := RPROC_LOAD_ANYADDR
  noffset := 0
  nlen := 0
  padding := 0
  nmemsize := 0

/-- With 256 headers the last number is not needed. -/
theorem denseImage_enumerated :
    (denseImage 256).Enumerated (denseTable 256) fun _ => firstArgs := by
  refine (enumerated_iff rfl rfl _).mpr ?_
  intro j hj hlast
  have hnum : (denseImage 256).ehdr.phnum.toNat = 256 := rfl
  omega

/-- With 257 headers the calls do not end, however many are made. -/
theorem denseImage_endless :
    (∀ fuel, loadCalls (fun _ => firstArgs) fuel 0 (some (denseImage 257))
      (denseImage 257).loadState = none) ∧
      ¬ (denseImage 257).Enumerated (denseTable 257) fun _ => firstArgs := by
  have hnone : ∀ fuel, loadCalls (fun _ => firstArgs) fuel 0
      (some (denseImage 257)) (denseImage 257).loadState = none := fun fuel =>
    AtSegment.endless (Nat.le_refl 255) (by decide) (by decide +kernel) _ fuel
      0 (Nat.zero_le _) ⟨rfl, rfl, rfl⟩
  refine ⟨hnone, ?_⟩
  rintro ⟨e, -, m, hm⟩
  exact absurd ((hnone m).symm.trans (hm m (Nat.le_refl m))) nofun

end OpenAmp.Remoteproc
