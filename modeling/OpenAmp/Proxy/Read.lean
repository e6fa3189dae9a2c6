import OpenAmp.Proxy.Retarget
import OpenAmp.Proxy.Write

/-!
# Decoding an answer

`_read` of `open-amp/lib/proxy/rpmsg_retarget.c`. The answer is laid over a
local buffer of `MAX_BUF_LEN` bytes, of which only the first word was set
before, and its words are then read from there. Three numbers say how much
there is: the length of the message, `data_len`, by which the bytes are
copied, and `int_field1`, which is returned. Nothing compares them.
-/

namespace OpenAmp.Proxy

open OpenAmp.Lib OpenAmp.Metal

def READ_SYSCALL_ID : UInt32 := 4

/-- What `_read` finds: whether there is a default `rpc`, what the stack
holds from `tmpbuf` on, and what `rpmsg_send` answers to the request. -/
structure ReadEnv where
  rpc : Bool
  stack : Mem
  sendRet : Int32

/-- The answer that `rpmsg_rpc_ept_cb` is called with: the receive buffer
from the message on, and the length of the message. -/
structure Answer where
  data : Mem
  len : Nat

/-- What `_read` returns, the request it has sent if there is one, the
caller's buffer, and how many bytes were copied there. -/
structure ReadResult where
  ret : Int32
  sent : Option (List UInt8)
  buf : Mem
  copied : Nat

/-- The request of `_read`. -/
def readRequest (fd buflen : Int32) : List UInt8 :=
  leBytes 4 READ_SYSCALL_ID.toNat ++ leBytes 4 fd.toUInt32.toNat ++
    leBytes 4 buflen.toUInt32.toNat ++ leBytes 4 0

/-- The word at `off`, as an `int`. -/
def wordAt (m : Mem) (off : Nat) : Int32 :=
  (UInt32.ofNat (loadLE m off 4)).toInt32

/-- How much of the answer `rpmsg_rpc_ept_cb` copies. -/
def received (answer : Answer) : Nat := min answer.len MAX_BUF_LEN

/-- `tmpbuf` when the answer has come: the stack, the first word set to
zero, the answer over it. -/
def tmpbuf (env : ReadEnv) (answer : Answer) : Mem :=
  writeBytes (writeBytes env.stack 0 (leBytes 4 0)) 0
    (readBytes answer.data 0 (received answer))

/-- The answer ends the service; the callback looks at its first word even
if it is shorter. -/
def Answer.IsTerm (answer : Answer) : Prop :=
  loadLE answer.data 0 4 = TERM_SYSCALL_ID

instance (answer : Answer) : Decidable answer.IsTerm :=
  inferInstanceAs (Decidable (_ = _))

/-- `_read` into `buffer`, with `none` for a null pointer. An answer that
ends the service leaves the flag set for which `rpmsg_rpc_send` waits, and
the call does not return. -/
def read (env : ReadEnv) (fd : Int32) (buffer : Option Mem) (buflen : Int32)
    (answer : Answer) : Option ReadResult :=
  match buffer with
  | none => some ⟨-EINVAL32, none, fun _ => 0, 0⟩
  | some buf =>
    if env.rpc = false ∨ buflen = 0 then some ⟨-EINVAL32, none, buf, 0⟩
    else if env.sendRet < 0 then some ⟨-EINVAL32, none, buf, 0⟩
    else if answer.IsTerm then none
    else
      let sent := some (readRequest fd buflen)
      let resp := tmpbuf env answer
      if wordAt resp 0 = READ_SYSCALL_ID.toInt32 then
        let ret := wordAt resp 4
        if 0 < ret then
          let tmplen := wordAt resp 12
          let tmplen := if buflen < tmplen then buflen else tmplen
          let n := (intToSize tmplen).toNat
          some ⟨ret, sent, writeBytes buf 0 (readBytes resp 16 n), n⟩
        else some ⟨ret, sent, buf, 0⟩
      else some ⟨-EINVAL32, sent, buf, 0⟩

/-- The bytes copied are received bytes behind the header, they fit in the
caller's buffer, and a positive result is their number. -/
structure ReadDecodes (buf : Mem) (buflen : Int32) (answer : Answer)
    (r : ReadResult) : Prop where
  received : 0 < r.copied → 16 + r.copied ≤ received answer
  fits : r.copied ≤ buflen.toInt.toNat
  bytes : ∀ i, r.buf i = if i < r.copied then answer.data (16 + i) else buf i
  counted : 0 < r.ret → r.ret.toInt = r.copied

/-- There is nothing to decode, or the result is the smaller one of
`data_len` and the size of the caller's buffer, and the message has that
many bytes behind its header. The words are those of the answer over the
stack. -/
def ReadConsistent (env : ReadEnv) (buflen : Int32) (answer : Answer) : Prop :=
  env.rpc = false ∨ env.sendRet < 0 ∨ answer.IsTerm ∨
    wordAt (tmpbuf env answer) 0 ≠ READ_SYSCALL_ID.toInt32 ∨
    wordAt (tmpbuf env answer) 4 ≤ 0 ∨
    (wordAt (tmpbuf env answer) 4).toInt =
        min (wordAt (tmpbuf env answer) 12).toInt buflen.toInt ∧
      16 + (wordAt (tmpbuf env answer) 4).toInt ≤ received answer

/-! ## The copy -/

variable {env : ReadEnv} {fd buflen : Int32} {buf : Mem} {answer : Answer}

theorem clip_toInt (n buflen : Int32) :
    (if buflen < n then buflen else n).toInt = min n.toInt buflen.toInt := by
  by_cases h : buflen < n
  · rw [if_pos h]
    have := Int32.lt_iff_toInt_lt.mp h
    omega
  · rw [if_neg h]
    have := mt Int32.lt_iff_toInt_lt.mpr h
    omega

/-- What was received lies behind the header of `tmpbuf` as it came. -/
theorem tmpbuf_received {i : Nat} (h : i < received answer) :
    tmpbuf env answer i = answer.data i := by
  rw [tmpbuf, writeBytes_at _ (Nat.zero_le i)
    (by rwa [length_readBytes, Nat.zero_add]), List.getD_eq_getElem?_getD]
  simp [readBytes, h]

/-- A call with nothing to copy. -/
theorem decodes_of_none_copied {r : ReadResult} (hbuf : r.buf = buf)
    (hcopied : r.copied = 0) (hret : r.ret ≤ 0) :
    ReadDecodes buf buflen answer r where
  received h := absurd hcopied (Nat.ne_of_gt h)
  fits := hcopied ▸ Nat.zero_le _
  bytes i := by rw [hcopied, hbuf, if_neg (Nat.not_lt_zero i)]
  counted h := absurd h (Int32.not_lt.mpr hret)

/-- A call that has returned. -/
theorem decodes_some_iff (r : ReadResult) :
    (∀ r', some r = some r' → ReadDecodes buf buflen answer r') ↔
      ReadDecodes buf buflen answer r := by
  simp only [Option.some.injEq, forall_eq']

/-- A call that copies: what is returned has to be the number that was
asked for and received. -/
theorem decodes_copy_iff (hlen : 0 < buflen) {ret tmplen : Int32}
    (hret : 0 < ret) (sent : Option (List UInt8)) :
    let n := (intToSize (if buflen < tmplen then buflen else tmplen)).toNat
    ReadDecodes buf buflen answer ⟨ret, sent,
        writeBytes buf 0 (readBytes (tmpbuf env answer) 16 n), n⟩ ↔
      ret.toInt = min tmplen.toInt buflen.toInt ∧
        16 + ret.toInt ≤ received answer := by
  intro n
  have hclip := clip_toInt tmplen buflen
  have hlen' : 0 < buflen.toInt := Int32.lt_iff_toInt_lt.mp hlen
  have hret' : 0 < ret.toInt := Int32.lt_iff_toInt_lt.mp hret
  have hlt := buflen.toInt_lt
  constructor
  · rintro ⟨hrec, hfits, -, hcount⟩
    dsimp only at hrec hfits hcount
    have hcopied := hcount hret
    have hn : 0 ≤ min tmplen.toInt buflen.toInt := by
      by_contra hneg
      -- a negative length is a huge one for `memcpy`
      have hge := (if buflen < tmplen then buflen else tmplen).le_toInt
      have hsize : n = ((min tmplen.toInt buflen.toInt) % 2 ^ 64).toNat := by
        simp only [n, intToSize, hclip, UInt64.toNat_ofNat']
        omega
      rw [hclip] at hge
      omega
    have hsize : n = (min tmplen.toInt buflen.toInt).toNat := by
      rw [← hclip] at hn ⊢
      exact toNat_intToSize hn
    have hpos : 0 < n := by omega
    have := hrec hpos
    omega
  · rintro ⟨hmin, hrec⟩
    have hsize : n = ret.toInt.toNat := by
      rw [hmin, ← hclip]
      exact toNat_intToSize (by omega)
    refine ⟨fun _ => ?_, ?_, fun i => ?_, fun _ => ?_⟩
    · dsimp only
      omega
    · dsimp only
      omega
    · dsimp only
      by_cases hi : i < n
      · rw [if_pos hi, writeBytes_at _ (Nat.zero_le i)
          (by rwa [length_readBytes, Nat.zero_add]),
          ← @tmpbuf_received env answer (16 + i) (by omega),
          List.getD_eq_getElem?_getD]
        simp [readBytes, hi]
      · rw [if_neg hi, writeBytes_of_not _
          (.inr (by rw [length_readBytes]; omega))]
    · dsimp only
      omega

/-- **What `_read` copies and returns** is right exactly if there is
nothing to decode or the three lengths agree. -/
theorem read_decodes_iff (env : ReadEnv) (fd : Int32) (buf : Mem)
    {buflen : Int32} (hlen : 0 < buflen) (answer : Answer) :
    (∀ r, read env fd (some buf) buflen answer = some r →
      ReadDecodes buf buflen answer r) ↔ ReadConsistent env buflen answer := by
  have hne : buflen ≠ 0 := by
    rintro rfl
    exact absurd hlen (by decide)
  have hneg : -EINVAL32 ≤ 0 := by decide
  simp only [read, ReadConsistent, hne, or_false]
  by_cases hrpc : env.rpc = false
  · rw [if_pos hrpc, decodes_some_iff]
    exact iff_of_true (decodes_of_none_copied rfl rfl hneg) (.inl hrpc)
  rw [if_neg hrpc, or_iff_right hrpc]
  by_cases hsend : env.sendRet < 0
  · rw [if_pos hsend, decodes_some_iff]
    exact iff_of_true (decodes_of_none_copied rfl rfl hneg) (.inl hsend)
  rw [if_neg hsend, or_iff_right hsend]
  by_cases hterm : answer.IsTerm
  · rw [if_pos hterm]
    exact iff_of_true (fun r hr => by cases hr) (.inl hterm)
  rw [if_neg hterm, or_iff_right hterm]
  by_cases hid : wordAt (tmpbuf env answer) 0 = READ_SYSCALL_ID.toInt32
  · rw [if_pos hid, or_iff_right (not_not.mpr hid)]
    by_cases hret : 0 < wordAt (tmpbuf env answer) 4
    · rw [if_pos hret, or_iff_right (Int32.not_le.mpr hret), decodes_some_iff]
      exact decodes_copy_iff hlen hret _
    · have hle := Int32.not_lt.mp hret
      rw [if_neg hret, decodes_some_iff]
      exact iff_of_true (decodes_of_none_copied rfl rfl hle) (.inl hle)
  · rw [if_neg hid, decodes_some_iff]
    exact iff_of_true (decodes_of_none_copied rfl rfl hneg) (.inl hid)

/-- An answer made of its words and bytes. -/
def answerOf (id : Nat) (field1 dataLen : Nat) (bs : List UInt8) : Answer where
  data := writeBytes (fun _ => 0) 0 (leBytes 4 id ++ leBytes 4 field1 ++
    leBytes 4 0 ++ leBytes 4 dataLen ++ bs)
  len := 16 + bs.length

/-- A server, and a stack full of the byte 7. -/
def readEnv : ReadEnv := ⟨true, fun _ => 7, 16⟩

/-- Two bytes of two, into a buffer of four. -/
theorem read_decodes_iff_two :
    0 < (4 : Int32) ∧ ∀ r, read readEnv 0 (some fun _ => 0) 4
      (answerOf 4 2 2 [65, 66]) = some r →
        ReadDecodes (fun _ => 0) 4 (answerOf 4 2 2 [65, 66]) r :=
  ⟨by decide, (read_decodes_iff readEnv 0 (fun _ => 0) (by decide) _).mpr
    (.inr (.inr (.inr (.inr (.inr (by decide +kernel))))))⟩

/-- An answer of 16 bytes that says it has two more: two bytes of the stack
are copied. One with two bytes that says it has one: two are copied. -/
theorem read_not_decodes :
    (read readEnv 0 (some fun _ => 0) 4 (answerOf 4 2 2 [])).map
      (fun r => (r.ret, r.copied, readBytes r.buf 0 4)) =
        some (2, 2, [7, 7, 0, 0]) ∧
    (read readEnv 0 (some fun _ => 0) 4 (answerOf 4 1 2 [65, 66])).map
      (fun r => (r.ret, r.copied, readBytes r.buf 0 4)) =
        some (1, 2, [65, 66, 0, 0]) ∧
    (¬ ∀ r, read readEnv 0 (some fun _ => 0) 4 (answerOf 4 2 2 []) = some r →
      ReadDecodes (fun _ => 0) 4 (answerOf 4 2 2 []) r) ∧
    ¬ ∀ r, read readEnv 0 (some fun _ => 0) 4 (answerOf 4 1 2 [65, 66]) =
      some r → ReadDecodes (fun _ => 0) 4 (answerOf 4 1 2 [65, 66]) r := by
  have hshort : (read readEnv 0 (some fun _ => 0) 4 (answerOf 4 2 2 [])).map
      (fun r => (r.ret, r.copied, readBytes r.buf 0 4)) =
        some (2, 2, [7, 7, 0, 0]) := by decide +kernel
  have hless : (read readEnv 0 (some fun _ => 0) 4
      (answerOf 4 1 2 [65, 66])).map
      (fun r => (r.ret, r.copied, readBytes r.buf 0 4)) =
        some (1, 2, [65, 66, 0, 0]) := by decide +kernel
  refine ⟨hshort, hless, fun h => ?_, fun h => ?_⟩
  · obtain ⟨r, hr, heq⟩ := Option.map_eq_some_iff.mp hshort
    have hrec := (h r hr).received
    rw [(Prod.mk.inj (Prod.mk.inj heq).2).1] at hrec
    exact absurd (hrec (by decide)) (by decide)
  · obtain ⟨r, hr, heq⟩ := Option.map_eq_some_iff.mp hless
    have hcount := (h r hr).counted
    rw [(Prod.mk.inj heq).1, (Prod.mk.inj (Prod.mk.inj heq).2).1] at hcount
    exact absurd (hcount (by decide)) (by decide)

end OpenAmp.Proxy
