import Mathlib.Data.List.GetD
import OpenAmp.Rpmsg.Endpoint
import OpenAmp.Utils.Strcpy

/-!
# The bytes of a name service message

`rpmsg_send_ns_message` fills a message on its stack and sends all of it.
The name is copied with `safe_strcpy` between two arrays of the same size,
where that function stores one zero in the last place and leaves what lies
between the terminator and that place as it was.
-/

namespace OpenAmp.Rpmsg

open OpenAmp.Lib OpenAmp.Utils

/-- `sizeof(struct rpmsg_ns_msg)`: the name, the address, the flags. -/
def NS_MSG_SIZE : Nat := 40

/-- What `rpmsg_send_ns_message` finds: the stack from `ns_msg` on, the
endpoint's name array and address, and the answer of
`rpmsg_send_offchannel_raw`. -/
structure NsEnv where
  stack : Mem
  name : Mem
  addr : UInt32
  sendRet : Int

/-- The message as it is handed to `rpmsg_send_offchannel_raw`. -/
def nsMsg (env : NsEnv) (flags : UInt64) : Mem :=
  let m := writeBytes env.stack (RPMSG_NAME_SIZE + 4) (leBytes 4 flags.toNat)
  let m := writeBytes m RPMSG_NAME_SIZE (leBytes 4 env.addr.toNat)
  (safeStrcpy m RPMSG_NAME_SIZE env.name RPMSG_NAME_SIZE).val.2

/-- `rpmsg_send_ns_message`: what it returns, and the bytes on the wire if
there are any. -/
def rpmsgSendNsMessage (env : NsEnv) (flags : UInt64) :
    Int × Option (List UInt8) :=
  if env.sendRet < 0 then (env.sendRet, none)
  else (RPMSG_SUCCESS, some (readBytes (nsMsg env flags) 0 NS_MSG_SIZE))

/-- The string in a name array. -/
def nameString (name : Mem) : List UInt8 :=
  readBytes name 0 (strnlen name 0 RPMSG_NAME_SIZE)

/-- The bytes on the wire follow from the name string, the address and the
flags: neither the stack nor the rest of the name array shows in them. -/
def NsLeaksNothing (s : List UInt8) (addr : UInt32) (sendRet : Int)
    (flags : UInt64) : Prop :=
  ∀ stack stack' name name' : Mem, nameString name = s → nameString name' = s →
    (rpmsgSendNsMessage ⟨stack, name, addr, sendRet⟩ flags).2 =
      (rpmsgSendNsMessage ⟨stack', name', addr, sendRet⟩ flags).2

/-! ## Names in arrays -/

/-- Between two name arrays the copy keeps at most 31 characters of the
string, as `copyName` says. -/
theorem nameString_safeStrcpy (dst src : Mem) :
    nameString (safeStrcpy dst RPMSG_NAME_SIZE src RPMSG_NAME_SIZE).val.2 =
      copyName (readBytes src 0 RPMSG_NAME_SIZE) := by
  have hpos : 0 < RPMSG_NAME_SIZE := by decide
  have hle := strnlen_le src 0 RPMSG_NAME_SIZE
  rw [nameString, safeStrcpy_longest hpos, copyName, ← readBytes_strnlen,
    readBytes_congr (safeStrcpy_copied hpos)]
  rcases Nat.le_total (strnlen src 0 RPMSG_NAME_SIZE) (RPMSG_NAME_SIZE - 1) with
    h | h
  · rw [Nat.min_eq_left h, List.take_of_length_le (by simpa using h)]
  · rw [Nat.min_eq_right h, ← readBytes_take src 0 h]

variable {s : List UInt8} {name : Mem}

/-- A string shorter than the array fixes the bytes up to its terminator. -/
theorem nameString_spec (hname : nameString name = s)
    (hlen : s.length < RPMSG_NAME_SIZE) :
    strnlen name 0 RPMSG_NAME_SIZE = s.length ∧
      ∀ j ≤ s.length, name j = s.getD j 0 := by
  have hstr : strnlen name 0 RPMSG_NAME_SIZE = s.length := by
    rw [← hname, nameString, length_readBytes]
  refine ⟨hstr, fun j hj => ?_⟩
  rcases Nat.lt_or_eq_of_le hj with hlt | rfl
  · rw [← hname, nameString, hstr]
    simp [readBytes, hlt]
  · have hend := strnlen_end (show strnlen name 0 RPMSG_NAME_SIZE < _ by omega)
    rw [hstr, Nat.zero_add] at hend
    rw [hend, List.getD_eq_default _ _ (Nat.le_refl _)]

/-- Every string without a zero is one in an array. -/
theorem nameString_getD (hs : 0 ∉ s) (hlen : s.length < RPMSG_NAME_SIZE) :
    nameString (fun i => s.getD i 0) = s := by
  have hget : ∀ i (h : i < s.length), s.getD i 0 = s[i] :=
    fun i h => List.getD_eq_getElem s 0 h
  have hstr : strnlen (fun i => s.getD i 0) 0 RPMSG_NAME_SIZE = s.length := by
    apply strnlen_eq (Nat.le_of_lt hlen)
    · intro i hi h0
      rw [Nat.zero_add, hget i hi] at h0
      exact hs (h0 ▸ List.getElem_mem hi)
    · intro _
      rw [Nat.zero_add, List.getD_eq_default _ _ (Nat.le_refl _)]
  rw [nameString, hstr]
  apply List.ext_getElem
  · rw [length_readBytes]
  · intro i h1 h2
    simp [readBytes, h2]

/-! ## The message -/

/-- The two words behind the name, lowest byte first. -/
theorem writeBytes_words (m : Mem) (addr : UInt32) (flags : UInt64) {j : Nat}
    (hj : RPMSG_NAME_SIZE ≤ j) (hlt : j < NS_MSG_SIZE) :
    writeBytes (writeBytes m (RPMSG_NAME_SIZE + 4) (leBytes 4 flags.toNat))
        RPMSG_NAME_SIZE (leBytes 4 addr.toNat) j =
      (leBytes 4 addr.toNat ++ leBytes 4 flags.toNat).getD
        (j - RPMSG_NAME_SIZE) 0 := by
  have hsize : NS_MSG_SIZE = RPMSG_NAME_SIZE + 4 + 4 := rfl
  by_cases haddr : j < RPMSG_NAME_SIZE + 4
  · rw [writeBytes_at _ hj (by rwa [length_leBytes]),
      List.getD_append _ _ _ _ (by rw [length_leBytes]; omega)]
  · rw [writeBytes_of_not _ (by rw [length_leBytes]; omega),
      writeBytes_at _ (by omega) (by rw [length_leBytes]; omega),
      List.getD_append_right _ _ _ _ (by rw [length_leBytes]; omega),
      length_leBytes, Nat.sub_sub]

/-- The bytes of the message: in the name the string and its terminator,
stack bytes behind it and a zero at the end; then address and flags. -/
theorem nsMsg_byte {stack : Mem} {addr : UInt32} {sendRet : Int}
    (hname : nameString name = s) (hlen : s.length < RPMSG_NAME_SIZE)
    (flags : UInt64) {j : Nat} (hj : j < NS_MSG_SIZE) :
    nsMsg ⟨stack, name, addr, sendRet⟩ flags j =
      if j = RPMSG_NAME_SIZE - 1 then 0
      else if j ≤ s.length then s.getD j 0
      else if j < RPMSG_NAME_SIZE then stack j
      else (leBytes 4 addr.toNat ++ leBytes 4 flags.toNat).getD
        (j - RPMSG_NAME_SIZE) 0 := by
  obtain ⟨hstr, hbytes⟩ := nameString_spec hname hlen
  have hcopy : copyLen name 0 RPMSG_NAME_SIZE = s.length + 1 := by
    rw [copyLen, hstr]
    omega
  rw [nsMsg, safeStrcpy_mem (by decide), if_neg (Nat.lt_irrefl _), hcopy]
  by_cases hlast : j = RPMSG_NAME_SIZE - 1
  · rw [if_pos hlast, if_pos hlast]
  · rw [if_neg hlast, if_neg hlast]
    by_cases hin : j ≤ s.length
    · rw [if_pos (Nat.lt_succ_of_le hin), if_pos hin]
      exact hbytes j hin
    · rw [if_neg (by omega), if_neg hin]
      by_cases hlt : j < RPMSG_NAME_SIZE
      · rw [if_pos hlt, writeBytes_of_not _ (.inl hlt),
          writeBytes_of_not _ (.inl (by omega))]
      · rw [if_neg hlt, writeBytes_words _ _ _ (by omega) hj]

/-- The peer reads the name that was sent, whatever else is there. -/
theorem nameString_nsMsg (env : NsEnv) (flags : UInt64)
    (hlen : (nameString env.name).length < RPMSG_NAME_SIZE) :
    nameString (nsMsg env flags) = nameString env.name := by
  rw [nsMsg, nameString_safeStrcpy, copyName, ← readBytes_strnlen]
  exact List.take_of_length_le (Nat.le_sub_one_of_lt hlen)

/-- **What a name service message tells**: nothing but name, address and
flags, exactly when it is not sent or the string reaches the last two
places of the array. -/
theorem nsLeaksNothing_iff (hs : 0 ∉ s) (hlen : s.length < RPMSG_NAME_SIZE)
    (addr : UInt32) (sendRet : Int) (flags : UInt64) :
    NsLeaksNothing s addr sendRet flags ↔
      sendRet < 0 ∨ RPMSG_NAME_SIZE - 2 ≤ s.length := by
  constructor
  · intro h
    by_contra hno
    rw [not_or, Int.not_lt, Nat.not_le] at hno
    obtain ⟨hsent, hshort⟩ := hno
    -- two stacks that differ right behind the terminator
    have hstr := nameString_getD hs hlen
    have hsame := h (fun _ => 0) (fun _ => 1) _ _ hstr hstr
    simp only [rpmsgSendNsMessage, if_neg (Int.not_lt.mpr hsent),
      Option.some.injEq] at hsame
    have hbyte := congrArg (·[s.length + 1]?) hsame
    have hin : s.length + 1 < NS_MSG_SIZE := Nat.lt_trans
      (show s.length + 1 < RPMSG_NAME_SIZE by omega) (by decide)
    simp only [readBytes, List.getElem?_map, List.getElem?_range hin,
      Option.map_some, Option.some.injEq, Nat.zero_add] at hbyte
    rw [nsMsg_byte hstr hlen flags hin, nsMsg_byte hstr hlen flags hin,
      if_neg (by omega), if_neg (by omega), if_pos (by omega),
      if_neg (by omega), if_neg (by omega), if_pos (by omega)] at hbyte
    exact absurd hbyte (by decide)
  · intro h stack stack' name name' hname hname'
    simp only [rpmsgSendNsMessage]
    by_cases hsent : sendRet < 0
    · rw [if_pos hsent, if_pos hsent]
    · have hlong := h.resolve_left hsent
      rw [if_neg hsent, if_neg hsent]
      refine congrArg some (readBytes_congr fun j _ hj => ?_)
      rw [Nat.zero_add] at hj
      rw [nsMsg_byte hname hlen flags hj, nsMsg_byte hname' hlen flags hj]
      by_cases hlast : j = RPMSG_NAME_SIZE - 1
      · rw [if_pos hlast, if_pos hlast]
      · rw [if_neg hlast, if_neg hlast]
        by_cases hin : j ≤ s.length
        · rw [if_pos hin, if_pos hin]
        · rw [if_neg hin, if_neg hin, if_neg (by omega), if_neg (by omega)]

/-- The message of an endpoint named `a`. -/
theorem nsLeaksNothing_iff_a :
    NsLeaksNothing [97] 1024 40 0 ↔
      (40 : Int) < 0 ∨ RPMSG_NAME_SIZE - 2 ≤ [(97 : UInt8)].length :=
  nsLeaksNothing_iff (by decide) (by decide) 1024 40 0

/-- Two stacks show in the byte behind the terminator of that name. -/
theorem not_nsLeaksNothing_a : ¬ NsLeaksNothing [97] 1024 40 0 := by
  intro h
  have hname : nameString (fun i => [97].getD i 0) = [97] := by decide
  exact absurd (h (fun _ => 0) (fun _ => 1) _ _ hname hname) (by decide)

end OpenAmp.Rpmsg
