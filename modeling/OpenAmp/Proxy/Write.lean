import OpenAmp.Lib.Traced
import OpenAmp.Metal.Io

/-!
# Encoding a system call

`_write` of `open-amp/lib/proxy/rpmsg_retarget.c` builds its request in a
local buffer of `MAX_BUF_LEN` bytes: four words of header, the bytes to
write and, for the standard output, a terminating zero. Nothing compares
the length with the buffer, as `_open` does, and the zero is stored one byte
behind the one that is sent as the terminator.

Offsets count from the start of the buffer; what lies behind its
`MAX_BUF_LEN` bytes is part of the stack and can be written like them.
-/

namespace OpenAmp.Proxy

open OpenAmp.Lib OpenAmp.Metal

def MAX_BUF_LEN : Nat := 496
def WRITE_SYSCALL_ID : UInt32 := 3
def RPMSG_ERR_PARAM : Int32 := -2003

/-- `EINVAL` as an `int`. -/
def EINVAL32 : Int32 := 22

/-- What `_write` finds: whether there is a default `rpc`, what the stack
holds from its buffer on, what `rpmsg_send` answers to a message of a valid
length, and the first two words of the response. -/
structure WriteEnv where
  rpc : Bool
  stack : Mem
  sendRet : Int32
  respId : UInt32
  respField1 : Int32

/-- What it returns, and the message that is sent if one is. -/
structure WriteResult where
  ret : Int32
  sent : Option (List UInt8)

variable (env : WriteEnv)

/-- `rpmsg_rpc_send` of the first `len` bytes at `buf`. The length becomes an
`int` again in `rpmsg_send`. -/
def rpmsgRpcSend (buf : Mem) (len : Int32) : WriteResult :=
  let ret := if len < 0 then RPMSG_ERR_PARAM else env.sendRet
  if ret < 0 then ⟨-EINVAL32, none⟩
  else ⟨ret, some (readBytes buf 0 len.toInt.toNat)⟩

/-- Bytes stored in the local buffer. -/
def putBytes (m : Mem) (off : Nat) (bs : List UInt8) : Traced Access Mem :=
  accessAt (writeBytes m off bs) off bs.length MAX_BUF_LEN

def putWord (m : Mem) (off : Nat) (v : UInt32) : Traced Access Mem :=
  putBytes m off (leBytes 4 v.toNat)

/-- `_write` of the `len` bytes at `ptr`, with a record of its stores in the
local buffer. -/
def write (fd : Int32) (ptr : Mem) (len : Int32) :
    Traced Access WriteResult :=
  if env.rpc = false then pure ⟨-EINVAL32, none⟩
  else do
    let nullTerm : Int32 := if fd = 1 then 1 else 0
    let payloadSize : Int32 := 16 + len
    let m ← putWord env.stack 0 WRITE_SYSCALL_ID
    let m ← putWord m 4 fd.toUInt32
    let m ← putWord m 8 len.toUInt32
    let m ← putWord m 12 (len + nullTerm).toUInt32
    let n := (intToSize len).toNat
    let m ← putBytes m 16 (readBytes ptr 0 n)
    let (m, payloadSize) ← if nullTerm = 1 then do
        let m ← putBytes m (16 + n + 1) [0]
        pure (m, payloadSize + 1)
      else pure (m, payloadSize)
    let r := rpmsgRpcSend env m payloadSize
    if 0 ≤ r.ret then
      if env.respId = WRITE_SYSCALL_ID then
        pure { r with ret := env.respField1 }
      else pure { r with ret := -EINVAL32 }
    else pure r

/-- The message for the bytes `bs`: the header, the bytes and, only for the
standard output, a zero. -/
def writeMessage (fd : Int32) (bs : List UInt8) : List UInt8 :=
  let data := bs ++ if fd = 1 then [0] else []
  leBytes 4 WRITE_SYSCALL_ID.toNat ++ leBytes 4 fd.toUInt32.toNat ++
    leBytes 4 bs.length ++ leBytes 4 data.length ++ data

/-- A write is refused without a message or sends exactly its message, and
stores nothing outside the buffer. -/
structure WriteCorrect (fd : Int32) (ptr : Mem) (len : Int32) : Prop where
  inside : (write env fd ptr len).Safe Access.Inside
  message : (write env fd ptr len).val.sent = none ∧
      (write env fd ptr len).val.ret < 0 ∨
    (write env fd ptr len).val.sent =
      some (writeMessage fd (readBytes ptr 0 len.toInt.toNat))

/-- The bytes fit in the buffer, for the standard output with two bytes to
spare of which the first is zero already, if the message is sent. -/
structure WriteFits (fd len : Int32) : Prop where
  bytes : 16 + len.toInt.toNat ≤ MAX_BUF_LEN
  spare : fd = 1 → 16 + len.toInt.toNat + 2 ≤ MAX_BUF_LEN
  zero : fd = 1 → 0 ≤ env.sendRet → env.stack (16 + len.toInt.toNat) = 0

/-! ## What is stored and sent -/

section Store

variable {env : WriteEnv} {fd len : Int32} {ptr : Mem}

/-- The header as the code computes it. -/
def writeHeader (fd len : Int32) : List UInt8 :=
  leBytes 4 WRITE_SYSCALL_ID.toNat ++ leBytes 4 fd.toUInt32.toNat ++
    leBytes 4 len.toUInt32.toNat ++
    leBytes 4 (len + if fd = 1 then 1 else 0).toUInt32.toNat

theorem length_writeHeader (fd len : Int32) :
    (writeHeader fd len).length = 16 := by
  simp only [writeHeader, List.length_append, length_leBytes]

/-- The buffer when the request is complete. -/
def filledBuf (env : WriteEnv) (fd : Int32) (ptr : Mem) (len : Int32) : Mem :=
  let n := (intToSize len).toNat
  let m := writeBytes env.stack 0 (writeHeader fd len ++ readBytes ptr 0 n)
  if fd = 1 then writeBytes m (16 + n + 1) [0] else m

/-- The stores of the header and the bytes follow on each other. -/
theorem writeBytes_request (m : Mem) (a b c d data : List UInt8)
    (ha : a.length = 4) (hb : b.length = 4) (hc : c.length = 4)
    (hd : d.length = 4) :
    writeBytes (writeBytes (writeBytes (writeBytes (writeBytes m 0 a) 4 b) 8 c)
      12 d) 16 data = writeBytes m 0 (a ++ b ++ c ++ d ++ data) := by
  have h1 := writeBytes_append m 0 a b
  have h2 := writeBytes_append m 0 (a ++ b) c
  have h3 := writeBytes_append m 0 (a ++ b ++ c) d
  have h4 := writeBytes_append m 0 (a ++ b ++ c ++ d) data
  simp only [List.length_append, ha, hb, hc, hd, Nat.zero_add, Nat.reduceAdd]
    at h1 h2 h3 h4
  rw [h1, h2, h3, h4]

theorem ret_of_not_sent {buf : Mem} {n : Int32}
    (h : (rpmsgRpcSend env buf n).sent = none) :
    (rpmsgRpcSend env buf n).ret = -EINVAL32 := by
  unfold rpmsgRpcSend at h ⊢
  dsimp only at h ⊢
  by_cases hneg : (if n < 0 then RPMSG_ERR_PARAM else env.sendRet) < 0
  · rw [if_pos hneg]
  · rw [if_neg hneg] at h
    cases h

/-- `_write` is a request for what it has stored. -/
theorem write_val (hrpc : env.rpc = true) :
    let r := rpmsgRpcSend env (filledBuf env fd ptr len)
      (16 + len + if fd = 1 then 1 else 0)
    (write env fd ptr len).val.sent = r.sent ∧
    (r.sent = none → (write env fd ptr len).val.ret < 0) := by
  intro r
  have hbuf : ∀ d : List UInt8, d.length = 4 → ∀ data, writeBytes (writeBytes
      (writeBytes (writeBytes (writeBytes env.stack 0
        (leBytes 4 WRITE_SYSCALL_ID.toNat)) 4 (leBytes 4 fd.toUInt32.toNat)) 8
        (leBytes 4 len.toUInt32.toNat)) 12 d) 16 data =
      writeBytes env.stack 0 (leBytes 4 WRITE_SYSCALL_ID.toNat ++
        leBytes 4 fd.toUInt32.toNat ++ leBytes 4 len.toUInt32.toNat ++ d ++
        data) := by
    intro d hd data
    exact writeBytes_request _ _ _ _ _ _ (length_leBytes ..) (length_leBytes ..)
      (length_leBytes ..) hd
  have hval : (write env fd ptr len).val =
      if 0 ≤ r.ret then
        if env.respId = WRITE_SYSCALL_ID then { r with ret := env.respField1 }
        else { r with ret := -EINVAL32 }
      else r := by
    simp only [write, hrpc, Bool.true_eq_false, if_false, Traced.val_bind,
      Traced.val_ite, Traced.val_pure, putWord, putBytes, val_accessAt, r,
      filledBuf, writeHeader]
    by_cases hfd : fd = 1
    · simp only [hfd, if_true] at hbuf ⊢
      rw [hbuf _ (length_leBytes ..)]
    · have hzero : ¬ (0 : Int32) = 1 := by decide
      simp only [hfd, if_false, hzero, Int32.add_zero]
      rw [hbuf _ (length_leBytes ..)]
  rw [hval]
  constructor
  · split
    · split <;> rfl
    · rfl
  · intro hnone
    have hret := ret_of_not_sent hnone
    rw [if_neg (by rw [hret]; decide), hret]
    decide

theorem write_safe_iff (hrpc : env.rpc = true) :
    (write env fd ptr len).Safe Access.Inside ↔
      16 + (intToSize len).toNat ≤ MAX_BUF_LEN ∧
      (fd = 1 → 16 + (intToSize len).toNat + 2 ≤ MAX_BUF_LEN) := by
  have hone : (1 : Int32) = 1 := rfl
  have hzero : ¬ (0 : Int32) = 1 := by decide
  by_cases hfd : fd = 1
  · simp only [write, hrpc, Bool.true_eq_false, if_false, hfd, if_true,
      Traced.safe_bind, putWord, putBytes, safe_accessAt, length_leBytes,
      length_readBytes, Traced.safe_pure, MAX_BUF_LEN, List.length_singleton,
      Traced.safe_ite, implies_true, and_true, forall_const]
    omega
  · simp only [write, hrpc, Bool.true_eq_false, if_false, hfd, hzero,
      Traced.safe_bind, putWord, putBytes, safe_accessAt, length_leBytes,
      length_readBytes, Traced.safe_pure, MAX_BUF_LEN, Traced.safe_ite,
      implies_true, and_true, false_imp_iff]
    omega

/-- What lies in the buffer from its start on; behind the bytes it is what
lay there before, since the zero is stored one further. -/
theorem readBytes_filledBuf (env : WriteEnv) (fd : Int32) (ptr : Mem)
    (h : 0 ≤ len.toInt) :
    readBytes (filledBuf env fd ptr len) 0 (16 + len.toInt.toNat + 1) =
      writeHeader fd len ++ readBytes ptr 0 len.toInt.toNat ++
        [env.stack (16 + len.toInt.toNat)] := by
  have hn := toNat_intToSize h
  generalize len.toInt.toNat = n at hn ⊢
  have hlen : (writeHeader fd len ++ readBytes ptr 0 n).length = 16 + n := by
    rw [List.length_append, length_writeHeader, length_readBytes]
  have hplain : readBytes (writeBytes env.stack 0
      (writeHeader fd len ++ readBytes ptr 0 n)) 0 (16 + n + 1) =
      writeHeader fd len ++ readBytes ptr 0 n ++ [env.stack (16 + n)] := by
    have hbehind : readBytes (writeBytes env.stack 0
        (writeHeader fd len ++ readBytes ptr 0 n)) (16 + n) 1 =
        readBytes env.stack (16 + n) 1 :=
      readBytes_congr (agree_writeBytes (.inr (by omega)))
    rw [readBytes_add, Nat.zero_add, hbehind, ← hlen,
      readBytes_writeBytes_take _ _ (Nat.le_refl _), List.take_length, hlen]
    rfl
  simp only [filledBuf, hn]
  split
  · rw [← hplain]
    exact readBytes_congr (agree_writeBytes (.inl (by omega)))
  · exact hplain

/-- The header is the one of the message. -/
theorem writeMessage_eq (h : 0 ≤ len.toInt) (hlt : len.toInt + 1 < 2 ^ 31) :
    writeMessage fd (readBytes ptr 0 len.toInt.toNat) =
      writeHeader fd len ++ readBytes ptr 0 len.toInt.toNat ++
        if fd = 1 then [0] else [] := by
  have hword := toNat_toUInt32_int len
  rw [if_pos h] at hword
  have hlen : len.toUInt32.toNat = len.toInt.toNat := by omega
  by_cases hfd : fd = 1
  · have hsum : (len + 1).toInt = len.toInt + 1 := by
      rw [Int32.toInt_add, Int32.toInt_one, Int.bmod_eq_of_le (by omega) (by omega)]
    have hword' := toNat_toUInt32_int (len + 1)
    rw [hsum, if_pos (by omega)] at hword'
    have hlen' : (len + 1).toUInt32.toNat = len.toInt.toNat + 1 := by omega
    simp only [writeMessage, writeHeader, hfd, if_true, List.length_append,
      length_readBytes, List.length_singleton, hlen, hlen', List.append_assoc]
  · simp only [writeMessage, writeHeader, hfd, if_false, List.append_nil,
      length_readBytes, Int32.add_zero, hlen]

theorem sent_none (hret : ¬ 0 ≤ env.sendRet) (buf : Mem) (n : Int32) :
    (rpmsgRpcSend env buf n).sent = none := by
  have hneg : (if n < 0 then RPMSG_ERR_PARAM else env.sendRet) < 0 := by
    split
    · decide
    · exact Int32.not_le.mp hret
  simp only [rpmsgRpcSend, if_pos hneg]

theorem sent_some (hret : 0 ≤ env.sendRet) (buf : Mem) {n : Int32}
    (hn : 0 ≤ n.toInt) :
    (rpmsgRpcSend env buf n).sent = some (readBytes buf 0 n.toInt.toNat) := by
  have hpos : ¬ n < 0 := Int32.not_lt.mpr (Int32.le_iff_toInt_le.mpr hn)
  simp only [rpmsgRpcSend, if_neg hpos, if_neg (Int32.not_lt.mpr hret)]

/-- The message of a request that fits. -/
theorem sent_eq (h : 0 ≤ len.toInt) (hfit : 16 + len.toInt.toNat ≤ MAX_BUF_LEN)
    (hret : 0 ≤ env.sendRet) :
    (rpmsgRpcSend env (filledBuf env fd ptr len)
      (16 + len + if fd = 1 then 1 else 0)).sent =
      some (writeHeader fd len ++ readBytes ptr 0 len.toInt.toNat ++
        if fd = 1 then [env.stack (16 + len.toInt.toNat)] else []) := by
  have hread := readBytes_filledBuf env fd ptr h
  simp only [MAX_BUF_LEN] at hfit
  have hsize : (16 + len).toInt = len.toInt + 16 := by
    rw [Int32.toInt_add, show (16 : Int32).toInt = 16 from rfl,
      Int.bmod_eq_of_le (by omega) (by omega)]
    omega
  by_cases hfd : fd = 1
  · have hsum : (16 + len + 1).toInt = len.toInt + 17 := by
      rw [Int32.toInt_add, hsize, Int32.toInt_one,
        Int.bmod_eq_of_le (by omega) (by omega)]
      omega
    have hcount : (len.toInt + 17).toNat = 16 + len.toInt.toNat + 1 := by omega
    simp only [if_pos hfd]
    rw [sent_some hret _ (by omega), hsum, hcount, hread]
  · have hcount : (len.toInt + 16).toNat = 16 + len.toInt.toNat := by omega
    simp only [if_neg hfd, Int32.add_zero, List.append_nil]
    rw [sent_some hret _ (by omega), hsize, hcount,
      readBytes_take _ _ (Nat.le_succ _), hread, List.take_left' (by
        rw [List.length_append, length_writeHeader, length_readBytes])]

end Store

/-- **A write sends its message**, out of a buffer that holds it, exactly if
there is no `rpc` or the request fits: the standard output needs two bytes
more than the bytes it writes, and a zero that happens to be there. -/
theorem write_correct_iff (env : WriteEnv) (fd : Int32) (ptr : Mem)
    {len : Int32} (hlen : 0 ≤ len.toInt) :
    WriteCorrect env fd ptr len ↔ env.rpc = false ∨ WriteFits env fd len := by
  cases hrpc : env.rpc with
  | false =>
    refine iff_of_true ?_ (.inl rfl)
    have hpure : write env fd ptr len = pure ⟨-EINVAL32, none⟩ := if_pos hrpc
    constructor
    · rw [hpure]
      exact Traced.safe_pure _
    · rw [hpure]
      exact .inl ⟨rfl, by decide⟩
  | true =>
    have hsafe := @write_safe_iff env fd len ptr hrpc
    rw [toNat_intToSize hlen] at hsafe
    obtain ⟨hsent, hneg⟩ := @write_val env fd len ptr hrpc
    rw [or_iff_right (by decide)]
    constructor
    · intro h
      obtain ⟨hbytes, hspare⟩ := hsafe.mp h.inside
      refine ⟨hbytes, hspare, fun hfd hret => ?_⟩
      rw [@sent_eq env fd len ptr hlen hbytes hret] at hsent
      simp only [MAX_BUF_LEN] at hbytes
      rcases h.message with ⟨hnone, -⟩ | hmsg
      · rw [hnone] at hsent
        cases hsent
      · rw [hsent, writeMessage_eq hlen (by omega), if_pos hfd, if_pos hfd] at hmsg
        have htail := List.append_cancel_left (Option.some.inj hmsg)
        exact (List.cons.inj htail).1
    · intro h
      refine ⟨hsafe.mpr ⟨h.bytes, h.spare⟩, ?_⟩
      by_cases hret : 0 ≤ env.sendRet
      · right
        have hbytes := h.bytes
        simp only [MAX_BUF_LEN] at hbytes
        rw [hsent, @sent_eq env fd len ptr hlen h.bytes hret,
          writeMessage_eq hlen (by omega)]
        by_cases hfd : fd = 1
        · rw [if_pos hfd, if_pos hfd, h.zero hfd hret]
        · rw [if_neg hfd, if_neg hfd]
      · have hnone := sent_none hret (filledBuf env fd ptr len)
          (16 + len + if fd = 1 then 1 else 0)
        exact .inl ⟨hsent.trans hnone, hneg hnone⟩

/-- A stack full of the byte `b`, and a server that answers a write. -/
def writeEnv (b : UInt8) : WriteEnv where
  rpc := true
  stack := fun _ => b
  sendRet := 0
  respId := WRITE_SYSCALL_ID
  respField1 := 1

theorem write_correct_iff_file :
    0 ≤ (480 : Int32).toInt ∧ WriteCorrect (writeEnv 7) 3 (fun _ => 65) 480 :=
  ⟨by decide, (write_correct_iff (writeEnv 7) 3 (fun _ => 65) (by decide)).mpr
    (.inr ⟨by decide, fun h => absurd h (by decide),
      fun h => absurd h (by decide)⟩)⟩

/-- To the standard output, one byte is sent with the wrong terminator; 479
bytes put the zero outside the buffer, and 481 bytes do not fit at all. -/
theorem write_incorrect :
    (write (writeEnv 7) 1 (fun _ => 65) 1).val.sent =
      some [3, 0, 0, 0, 1, 0, 0, 0, 1, 0, 0, 0, 2, 0, 0, 0, 65, 7] ∧
    ¬ WriteCorrect (writeEnv 7) 1 (fun _ => 65) 1 ∧
    ¬ WriteCorrect (writeEnv 0) 1 (fun _ => 65) 479 ∧
    ¬ WriteCorrect (writeEnv 0) 3 (fun _ => 65) 481 := by
  have hsent : (write (writeEnv 7) 1 (fun _ => 65) 1).val.sent =
      some [3, 0, 0, 0, 1, 0, 0, 0, 1, 0, 0, 0, 2, 0, 0, 0, 65, 7] := by
    decide +kernel
  refine ⟨hsent, fun h => ?_, fun h => ?_, fun h => ?_⟩
  · rcases h.message with ⟨hnone, -⟩ | hmsg
    · rw [hsent] at hnone
      cases hnone
    · rw [hsent] at hmsg
      exact absurd hmsg (by decide +kernel)
  · have hin := (write_safe_iff rfl).mp h.inside
    exact absurd (hin.2 rfl) (by decide)
  · have hin := (write_safe_iff rfl).mp h.inside
    exact absurd hin.1 (by decide)

end OpenAmp.Proxy
