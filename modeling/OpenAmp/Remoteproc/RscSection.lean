import OpenAmp.Remoteproc.HeaderRun

/-!
# The section of the resource table

`elf_get_section_from_name` compares the section's names with
`".resource_table"`. In a well-formed image every comparison ends inside
the string table, so what is found is a fact about the image.
-/

namespace OpenAmp.Remoteproc

open OpenAmp.Lib OpenAmp.Metal

theorem readBytes_succ (m : Mem) (a k : Nat) :
    readBytes m a (k + 1) = m a :: readBytes m (a + 1) k := by
  simp only [readBytes, List.range_succ_eq_map, List.map_cons, List.map_map,
    Nat.add_zero, Function.comp_def, Nat.succ_eq_add_one]
  congr 1
  refine List.map_congr_left fun i _ => ?_
  rw [Nat.add_assoc, Nat.add_comm i 1]

/-- `strcmp` is equality with the bytes up to the terminating zero. -/
theorem strcmpEq_val (b : Block) (lit : List UInt8) : ∀ start : Nat,
    (strcmpEq b lit start).val =
      decide (readBytes b.bytes start (lit.length + 1) = lit ++ [0]) := by
  induction lit with
  | nil =>
    intro start
    change decide (b.bytes start = 0) = _
    simp [readBytes]
  | cons a rest ih =>
    intro start
    rw [List.length_cons, readBytes_succ, List.cons_append]
    change (if b.bytes start = a then strcmpEq b rest (start + 1)
      else pure false : Traced Access Bool).val = _
    by_cases h : b.bytes start = a
    · rw [if_pos h, ih, h]
      simp
    · rw [if_neg h]
      simp [h]

/-- A string that is there ends no later than a zero behind its start. -/
theorem end_le_of_readBytes {m : Mem} {lit : List UInt8}
    (hlit : ∀ b ∈ lit, b ≠ 0) {start e : Nat} (hle : start ≤ e) (hzero : m e = 0)
    (h : readBytes m start (lit.length + 1) = lit ++ [0]) :
    start + lit.length ≤ e := by
  by_contra hlt
  have hi : e - start < lit.length := by omega
  have hget := congrArg (·[e - start]?) h
  simp only [readBytes, List.getElem?_map, List.getElem?_append_left hi,
    List.getElem?_range (show e - start < lit.length + 1 by omega),
    Option.map_some] at hget
  rw [Nat.add_sub_cancel' hle, hzero] at hget
  exact hlit 0 (List.mem_of_getElem? hget.symm) rfl

namespace Image

variable (img : Image)

/-- Section `i` has the name of the resource table. -/
def IsRscTable (i : Nat) : Prop :=
  readBytes img.bytes (img.strRange.1.toNat + img.nameAt i)
    (rscTableName.length + 1) = rscTableName ++ [0]

instance (i : Nat) : Decidable (img.IsRscTable i) :=
  inferInstanceAs (Decidable (_ = _))

/-- The first section with the name of the resource table. -/
def rscSection : Option Nat :=
  (List.range img.ehdr.shnum.toNat).find? fun i => img.IsRscTable i

variable {img}

/-- Comparing in a copy of the string table. -/
theorem strcmpEq_block (hwf : img.WellFormed) (heap : Heap)
    (hsh : img.ehdr.shnum ≠ 0) {i : Nat} (hi : i < img.ehdr.shnum.toNat) :
    (strcmpEq (img.block heap img.strRange.1 img.strRange.2) rscTableName
      (img.nameAt i)).val = decide (img.IsRscTable i) := by
  have hlit : ∀ b ∈ rscTableName, b ≠ 0 := by decide +kernel
  have hname := hwf.name_lt i hi
  have hterm := hwf.terminated hsh
  have hcopy : ∀ j < img.strRange.2.toNat,
      (img.block heap img.strRange.1 img.strRange.2).bytes j =
        img.bytes (img.strRange.1.toNat + j) := fun j hj => if_pos hj
  have hlast : (img.block heap img.strRange.1 img.strRange.2).bytes
      (img.strRange.2.toNat - 1) = 0 := by
    rw [hcopy _ (by omega), ← hterm]
    congr 1
    omega
  rw [strcmpEq_val, decide_eq_decide, IsRscTable]
  -- either way the string ends inside the table, where copy and image agree
  have hread : img.nameAt i + rscTableName.length ≤ img.strRange.2.toNat - 1 →
      readBytes (img.block heap img.strRange.1 img.strRange.2).bytes
        (img.nameAt i) (rscTableName.length + 1) =
      readBytes img.bytes (img.strRange.1.toNat + img.nameAt i)
        (rscTableName.length + 1) := by
    intro hroom
    refine List.map_congr_left fun j hj => ?_
    have hj := List.mem_range.mp hj
    rw [hcopy _ (by omega), Nat.add_assoc]
  constructor
  · intro h
    rw [← hread (end_le_of_readBytes hlit (by omega) hlast h)]
    exact h
  · intro h
    have hend := end_le_of_readBytes hlit
      (e := img.strRange.1.toNat + img.strRange.2.toNat - 1) (by omega) hterm h
    rw [hread (by omega)]
    exact h

/-- The loop over the sections. -/
theorem sectionLoop_val (hwf : img.WellFormed) (heap : Heap)
    (hsh : img.ehdr.shnum ≠ 0) (left : Nat) : ∀ i,
    i + left ≤ img.ehdr.shnum.toNat →
    (sectionLoop img.ehdr.is64 (img.block heap img.ehdr.shoff img.ehdr.shdrsSize)
      (img.block heap img.strRange.1 img.strRange.2) rscTableName left i).val =
      (List.range' i left).find? fun j => img.IsRscTable j := by
  induction left with
  | zero => intro i _; rfl
  | succ left ih =>
    intro i hi
    have hroom : (i + 1) * shdrSize img.ehdr.is64 ≤ img.ehdr.shdrsSize.toNat := by
      rw [hwf.shdrsSize_toNat]
      exact Nat.mul_le_mul_right _ (by omega)
    have hbig : 4 ≤ shdrSize img.ehdr.is64 := by
      cases img.ehdr.is64 <;> decide
    rw [Nat.add_mul] at hroom
    have hname : ((img.block heap img.ehdr.shoff img.ehdr.shdrsSize).load
        (i * shdrSize img.ehdr.is64) 4).val.toNat = img.nameAt i := by
      rw [load_block heap _ _ (by omega)]
      rfl
    simp only [sectionLoop, Traced.val_bind, Traced.val_ite, Traced.val_pure]
    rw [hname, strcmpEq_block hwf heap hsh (by omega), List.range'_succ,
      List.find?_cons, ih (i + 1) (by omega)]
    cases decide (img.IsRscTable i) <;> rfl

/-- **The resource table is found where the image has it.** -/
theorem elfGetSectionFromName_val (hwf : img.WellFormed) (heap : Heap)
    (phase : LoadPhase) (k : Nat) :
    (elfGetSectionFromName (img.infoAt heap .complete phase k)
      rscTableName).val = img.rscSection := by
  by_cases hsh : img.ehdr.shnum = 0
  · simp [elfGetSectionFromName, infoAt, rscSection, hsh]
  · have hval := sectionLoop_val hwf heap hsh img.ehdr.shnum.toNat 0 (by omega)
    have hshdrs : (img.infoAt heap .complete phase k).shdrs =
        some (img.block heap img.ehdr.shoff img.ehdr.shdrsSize) :=
      if_neg (by simp [hsh])
    have hstr : (img.infoAt heap .complete phase k).shstrtab =
        some (img.block heap img.strRange.1 img.strRange.2) :=
      if_pos ⟨rfl, hsh⟩
    rw [elfGetSectionFromName, hshdrs, hstr, rscSection, List.range_eq_range']
    exact hval

/-- A section header is read the same from a copy of the table. -/
theorem sectionAt_block (hwf : img.WellFormed) (heap : Heap) {i : Nat}
    (hi : i < img.ehdr.shnum.toNat) :
    (elfParseSection img.ehdr.is64
      (img.block heap img.ehdr.shoff img.ehdr.shdrsSize) i).val =
      img.sectionAt i := by
  have hroom : (i + 1) * shdrSize img.ehdr.is64 ≤ img.ehdr.shdrsSize.toNat := by
    rw [hwf.shdrsSize_toNat]
    exact Nat.mul_le_mul_right _ hi
  rw [Nat.add_mul] at hroom
  simp only [sectionAt, elfParseSection, elfParseSectionRange, Traced.val_bind,
    Traced.val_pure]
  cases hc : img.ehdr.is64 with
  | true =>
    simp only [hc, shdrSize, if_true] at hroom
    simp only [wordSize, shdrSize, if_true]
    rw [load_block heap _ _ (by omega), load_block heap _ _ (by omega),
      load_block heap _ _ (by omega)]
  | false =>
    simp only [hc, shdrSize, Bool.false_eq_true, if_false] at hroom
    simp only [wordSize, shdrSize, Bool.false_eq_true, if_false]
    rw [load_block heap _ _ (by omega), load_block heap _ _ (by omega),
      load_block heap _ _ (by omega)]

/-- Locating the table once all headers are there. -/
theorem elfLocateRscTable_complete (hwf : img.WellFormed) (heap : Heap)
    (phase : LoadPhase) (k : Nat) (da offset size : UInt64) :
    (elfLocateRscTable (some (img.infoAt heap .complete phase k)) da offset
      size).val =
      match img.rscSection with
      | some i => ⟨0, (img.sectionAt i).addr, (img.sectionAt i).offset,
          (img.sectionAt i).size⟩
      | none => ⟨0, da, offset, 0⟩ := by
  have hbit : ¬ (img.infoAt heap .complete phase k).loadState &&&
      ELF_STATE_HDRS_COMPLETE = 0 :=
    fun h => (pack_hdrsComplete .complete phase k).mp h rfl
  simp only [elfLocateRscTable, if_neg hbit, Traced.val_bind,
    elfGetSectionFromName_val hwf]
  cases hsec : img.rscSection with
  | none => rfl
  | some i =>
    have hi : i < img.ehdr.shnum.toNat :=
      List.mem_range.mp (List.mem_of_find?_eq_some hsec)
    have hsh : img.ehdr.shnum ≠ 0 := by
      intro h
      rw [h] at hi
      exact Nat.not_lt_zero i hi
    have hshdrs : (img.infoAt heap .complete phase k).shdrs =
        some (img.block heap img.ehdr.shoff img.ehdr.shdrsSize) :=
      if_neg (by simp [hsh])
    rw [hshdrs]
    change (⟨0, _, _, _⟩ : LocateOut) = _
    have hehdr : (img.infoAt heap .complete phase k).ehdr = img.ehdr := rfl
    rw [hehdr, sectionAt_block hwf heap hi]

/-- Without all headers it is not located. -/
theorem elfLocateRscTable_missing (heap : Heap) {stage : HdrStage}
    (hstage : stage ≠ .complete) (phase : LoadPhase) (k : Nat)
    (da offset size : UInt64) :
    (elfLocateRscTable (some (img.infoAt heap stage phase k)) da offset
      size).val = ⟨-RPROC_ERR_LOADER_STATE, da, offset, size⟩ := by
  have hbit : (img.infoAt heap stage phase k).loadState &&&
      ELF_STATE_HDRS_COMPLETE = 0 :=
    (pack_hdrsComplete stage phase k).mpr hstage
  rw [elfLocateRscTable, if_pos hbit]
  rfl

end Image

/-- A resource table in a loadable segment, a note behind it, and the
section headers at the end. -/
def tableAndNote : Image :=
  .ofBytes (elf32Ehdr 2 149 3 2 ++ elf32Phdr 1 116 0x1000 16 16 ++
    elf32Phdr 4 0 0 0 0 ++ leBytes 4 1 ++ leBytes 12 0 ++
    [0] ++ rscTableName ++ [0] ++ elf32Shdr 0 0 0 0 0 ++
    elf32Shdr 1 1 0x1000 116 16 ++ elf32Shdr 0 3 0 132 17)

theorem tableAndNote_wellFormed : tableAndNote.WellFormed where
  len_lt := by decide +kernel
  magic := by decide +kernel
  ehdr_in := by decide +kernel
  phentsize := by decide +kernel
  phnum_le := by decide +kernel
  phdrs_in := by decide +kernel
  shentsize := by decide +kernel
  shdrs_in _ := by decide +kernel
  shstrndx_lt _ := by decide +kernel
  strtab_in _ := by decide +kernel
  name_lt := by decide +kernel
  terminated _ := by decide +kernel

end OpenAmp.Remoteproc
