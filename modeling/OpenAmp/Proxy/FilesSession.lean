import OpenAmp.Proxy.Files

/-!
# Whole sessions of a remote program

Each system call, carried out for the remote program, is the one of the host
exactly if it fits. So a program cannot tell whether its files are its own
exactly as long as every call fits where it is made.
-/

namespace OpenAmp.Proxy

open OpenAmp.Lib OpenAmp.Metal

/-! ## Messages -/

/-- The part of a message between two others. -/
theorem readBytes_part (m : Mem) (pre mid post : List UInt8) :
    readBytes (writeBytes m 0 (pre ++ mid ++ post)) pre.length mid.length =
      mid := by
  have hlen : pre.length + mid.length ≤ (pre ++ mid ++ post).length := by simp
  have hread := readBytes_writeBytes m 0 hlen
  rw [Nat.zero_add] at hread
  rw [hread, List.append_assoc, List.drop_left' rfl, List.take_left' rfl]

theorem loadLE_part (m : Mem) (pre post : List UInt8) (v : UInt32) :
    loadLE (writeBytes m 0 (pre ++ leBytes 4 v.toNat ++ post)) pre.length 4 =
      v.toNat := by
  refine loadLE_of_readBytes 4 v.toNat_lt ?_
  have hread := readBytes_part m pre (leBytes 4 v.toNat) post
  rwa [length_leBytes] at hread

theorem length_syscallBytes (id : UInt32) (field1 field2 dataLen : Int32)
    (data : List UInt8) :
    (syscallBytes id field1 field2 dataLen data).length = 16 + data.length := by
  simp only [syscallBytes, List.length_append, length_leBytes]

/-- What is read back of a message. -/
structure Decodes (m : Mem) (id : UInt32) (field1 field2 dataLen : Int32)
    (data : List UInt8) : Prop where
  id_eq : UInt32.ofNat (loadLE m 0 4) = id
  field1_eq : wordAt m 4 = field1
  field2_eq : wordAt m 8 = field2
  dataLen_eq : wordAt m 12 = dataLen
  data_eq : readBytes m 16 data.length = data

theorem decodes_syscallBytes (m : Mem) (id : UInt32)
    (field1 field2 dataLen : Int32) (data : List UInt8) : Decodes
    (writeBytes m 0 (syscallBytes id field1 field2 dataLen data)) id field1
      field2 dataLen data := by
  have h0 := loadLE_part m [] (leBytes 4 field1.toUInt32.toNat ++
    leBytes 4 field2.toUInt32.toNat ++ leBytes 4 dataLen.toUInt32.toNat ++ data) id
  have h4 := loadLE_part m (leBytes 4 id.toNat) (leBytes 4 field2.toUInt32.toNat ++
    leBytes 4 dataLen.toUInt32.toNat ++ data) field1.toUInt32
  have h8 := loadLE_part m (leBytes 4 id.toNat ++ leBytes 4 field1.toUInt32.toNat)
    (leBytes 4 dataLen.toUInt32.toNat ++ data) field2.toUInt32
  have h12 := loadLE_part m (leBytes 4 id.toNat ++
    leBytes 4 field1.toUInt32.toNat ++ leBytes 4 field2.toUInt32.toNat) data
      dataLen.toUInt32
  have h16 := readBytes_part m (leBytes 4 id.toNat ++
    leBytes 4 field1.toUInt32.toNat ++ leBytes 4 field2.toUInt32.toNat ++
      leBytes 4 dataLen.toUInt32.toNat) data []
  simp only [List.nil_append, List.length_nil, List.length_append,
    length_leBytes, List.append_nil, Nat.reduceAdd, ← List.append_assoc]
    at h0 h4 h8 h12 h16
  constructor
  · rw [syscallBytes, h0, UInt32.ofNat_toNat]
  · rw [wordAt, syscallBytes, h4, UInt32.ofNat_toNat, Int32.toInt32_toUInt32]
  · rw [wordAt, syscallBytes, h8, UInt32.ofNat_toNat, Int32.toInt32_toUInt32]
  · rw [wordAt, syscallBytes, h12, UInt32.ofNat_toNat, Int32.toInt32_toUInt32]
  · exact h16

/-- What is cut off of a message is data. -/
theorem take_syscallBytes {id : UInt32} {field1 field2 dataLen : Int32}
    {data : List UInt8} {n : Nat} (h : 16 ≤ n) :
    (syscallBytes id field1 field2 dataLen data).take n =
      syscallBytes id field1 field2 dataLen (data.take (n - 16)) := by
  rw [syscallBytes, List.take_append, List.take_of_length_le (by
    simp only [List.length_append, length_leBytes]
    omega)]
  simp only [List.length_append, length_leBytes, syscallBytes]

theorem readRequest_eq (fd buflen : Int32) :
    readRequest fd buflen = syscallBytes READ_SYSCALL_ID fd buflen 0 [] := by
  rw [syscallBytes, List.append_nil]
  rfl

/-! ## A request and its answer -/

variable {φ : Type} {os : HostFiles φ} {files : φ} {f : Frame}
  {id : UInt32} {field1 field2 dataLen : Int32} {data : List UInt8}

/-- A server that has had no error. -/
def Demod.up (files : φ) : Demod φ := ⟨files, 0, false⟩

theorem exchange_up (hlen : data.length ≤ 480) {s : Demod φ}
    {msg : List UInt8} (hrpc : handleRpc os (.up files) (writeBytes f.server 0
      (syscallBytes id field1 field2 dataLen data)) = (s, some msg)) :
    exchange os f (.up files) (syscallBytes id field1 field2 dataLen data) =
      (s, .answer msg) := by
  have hrun : (Demod.up files).Running := ⟨rfl, rfl⟩
  have hsize := length_syscallBytes id field1 field2 dataLen data
  have hfit : (syscallBytes id field1 field2 dataLen data).take RPMSG_PAYLOAD =
      syscallBytes id field1 field2 dataLen data :=
    List.take_of_length_le (by rw [hsize, RPMSG_PAYLOAD]; omega)
  have hbuf : (syscallBytes id field1 field2 dataLen data).take RPC_BUFF_SIZE =
      syscallBytes id field1 field2 dataLen data :=
    List.take_of_length_le (by rw [hsize, RPC_BUFF_SIZE]; omega)
  rw [exchange, if_pos hrun, hfit, rpmsgEndpointCb, if_neg (by omega), hbuf, hrpc]

/-- The answer that is only a header is laid over the response. -/
theorem decodes_answer (stack : Mem) (id : UInt32) (field1 : Int32) :
    Decodes ((Reply.answer ((syscallBytes id field1 0 0 []).take
      RPMSG_PAYLOAD)).resp stack) id field1 0 0 [] := by
  have hsize := length_syscallBytes id field1 0 0 []
  rw [Reply.resp, Reply.bytes, List.take_take, List.take_of_length_le (by
    rw [hsize]
    decide)]
  exact decodes_syscallBytes ..

theorem ret_answer (stack : Mem) (id : UInt32) (field1 : Int32) :
    (Reply.answer ((syscallBytes id field1 0 0 []).take RPMSG_PAYLOAD)).ret stack
      id = field1 := by
  have hdec := decodes_answer stack id field1
  simp only [Reply.ret, hdec.id_eq, if_true, hdec.field1_eq]

theorem callClose_eq (fd : Int32) :
    callClose os f (.up files) fd =
      (.up (os.close files fd).1, some ⟨(os.close files fd).2, []⟩) := by
  have hdec := decodes_syscallBytes f.server CLOSE_SYSCALL_ID fd 0 0 []
  have hrpc : handleRpc os (.up files) (writeBytes f.server 0
      (syscallBytes CLOSE_SYSCALL_ID fd 0 0 [])) = (.up (os.close files fd).1,
        some ((syscallBytes CLOSE_SYSCALL_ID (os.close files fd).2 0 0 []).take
          RPMSG_PAYLOAD)) := by
    have hne : CLOSE_SYSCALL_ID ≠ OPEN_SYSCALL_ID := by decide
    simp only [handleRpc, hdec.id_eq, if_neg hne, if_true, handleClose,
      hdec.field1_eq, answered]
    rfl
  have hdata : ([] : List UInt8).length ≤ 480 := Nat.zero_le 480
  simp only [callClose, exchange_up hdata hrpc, ret_answer]

/-- A string is read back up to its terminator. -/
theorem readBytes_name {m : Mem} {name : List UInt8} (hname : ∀ b ∈ name, b ≠ 0)
    {k : Nat} (hk : name.length < k)
    (h : readBytes m 16 (name ++ [0]).length = name ++ [0]) :
    readBytes m 16 (strnlen m 16 k) = name := by
  have hread : ∀ i (hi : i < (name ++ [0]).length), m (16 + i) = (name ++ [0])[i] := by
    intro i hi
    have hi' : i < (readBytes m 16 (name ++ [0]).length).length := by
      rwa [length_readBytes]
    have hget : (readBytes m 16 (name ++ [0]).length)[i] = m (16 + i) := by
      simp [readBytes]
    rw [← hget]
    exact List.getElem_of_eq h hi'
  have hsize : (name ++ [0]).length = name.length + 1 := by simp
  have hlen : strnlen m 16 k = name.length := by
    refine strnlen_eq (Nat.le_of_lt hk) (fun i hi => ?_) fun _ => ?_
    · rw [hread i (by omega), List.getElem_append_left hi]
      exact hname _ (List.getElem_mem hi)
    · rw [hread name.length (by omega)]
      exact List.getElem_concat_length rfl _
  rw [hlen]
  apply List.ext_getElem (length_readBytes ..)
  intro i h1 h2
  have hget : (readBytes m 16 name.length)[i] = m (16 + i) := by
    simp [readBytes]
  rw [hget, hread i (by omega), List.getElem_append_left h2]

/-- The length of the string and of the request, as the code computes them. -/
theorem filenameLen_eq {n : Nat} (h : n + 17 < 2147483648) :
    (intToSize (sizeToInt (UInt64.ofNat (n + 1)))).toNat = n + 1 ∧
      (16 + (sizeToInt (UInt64.ofNat (n + 1))).toUInt32).toNat = n + 17 := by
  have hsize : (UInt64.ofNat (n + 1)).toNat = n + 1 := by
    rw [UInt64.toNat_ofNat']
    exact Nat.mod_eq_of_lt (by omega)
  have hint : (sizeToInt (UInt64.ofNat (n + 1))).toInt = n + 1 := by
    rw [sizeToInt_toInt (by omega), hsize]
    rfl
  have hword := toNat_toUInt32_int (sizeToInt (UInt64.ofNat (n + 1)))
  rw [hint, if_pos (by omega)] at hword
  constructor
  · rw [toNat_intToSize (by omega), hint]
    omega
  · rw [UInt32.toNat_add]
    change (16 + _) % 2 ^ 32 = _
    omega

theorem callOpen_eq {name : List UInt8} (hname : ∀ b ∈ name, b ≠ 0)
    (hfit : name.length + 17 ≤ MAX_BUF_LEN) (flags mode : Int32) :
    callOpen os f (.up files) name flags mode =
      (.up (os.openFile files name flags mode).1,
        some ⟨(os.openFile files name flags mode).2, []⟩) := by
  rw [MAX_BUF_LEN] at hfit
  obtain ⟨hcount, hsize⟩ := filenameLen_eq (n := name.length) (by omega)
  have hpay : ¬ (496 : UInt32) <
      16 + (sizeToInt (UInt64.ofNat (name.length + 1))).toUInt32 := by
    rw [UInt32.lt_iff_toNat_lt, hsize]
    change ¬ 496 < _
    omega
  have htake : (name ++ [0]).take (name.length + 1) = name ++ [0] :=
    List.take_of_length_le (by simp)
  generalize hlen : sizeToInt (UInt64.ofNat (name.length + 1)) = filenameLen
    at hcount hpay
  have hdec := decodes_syscallBytes f.server OPEN_SYSCALL_ID flags mode filenameLen
    (name ++ [0])
  have hstr := readBytes_name (k := RPC_BUFF_SIZE - 16) hname
    (by rw [RPC_BUFF_SIZE]; omega) hdec.data_eq
  have hrpc : handleRpc os (.up files) (writeBytes f.server 0
      (syscallBytes OPEN_SYSCALL_ID flags mode filenameLen (name ++ [0]))) =
      (.up (os.openFile files name flags mode).1,
        some ((syscallBytes OPEN_SYSCALL_ID
          (os.openFile files name flags mode).2 0 0 []).take RPMSG_PAYLOAD)) := by
    simp only [handleRpc, hdec.id_eq, if_true, handleOpen, hdec.field1_eq,
      hdec.field2_eq, hstr, answered]
    rfl
  have hdata : (name ++ [0]).length ≤ 480 := by
    rw [List.length_append, List.length_singleton]
    omega
  simp only [callOpen, hlen, if_neg hpay, hcount, htake, exchange_up hdata hrpc,
    ret_answer]

/-- A name that does not fit is refused, whatever the host would say. -/
theorem callOpen_refused {name : List UInt8} (hlt : name.length + 17 < 2147483648)
    (hfit : ¬ name.length + 17 ≤ MAX_BUF_LEN) (flags mode : Int32) (s : Demod φ) :
    callOpen os f s name flags mode = (s, some ⟨-EINVAL32, []⟩) := by
  rw [MAX_BUF_LEN] at hfit
  have hpay : (496 : UInt32) <
      16 + (sizeToInt (UInt64.ofNat (name.length + 1))).toUInt32 := by
    rw [UInt32.lt_iff_toNat_lt, (filenameLen_eq hlt).2]
    change 496 < _
    omega
  simp only [callOpen, if_pos hpay]

/-! ## Writes -/

theorem sendRet_nonneg (r : List UInt8) (n : Nat) :
    0 ≤ (Reply.answer r).sendRet n := by
  have hle : min n RPMSG_PAYLOAD ≤ 496 := Nat.min_le_right _ _
  rw [Int32.le_iff_toInt_le]
  simp only [Reply.sendRet]
  rw [Int32.toInt_ofNat_of_lt (by omega)]
  exact Int.natCast_nonneg _

/-- What `_write` returns when its request has been answered. -/
theorem write_ret (env : WriteEnv) (hrpc : env.rpc = true) {fd len : Int32}
    (ptr : Mem) (hpay : 0 ≤ 16 + len + if fd = 1 then 1 else 0)
    (hret : 0 ≤ env.sendRet) :
    (write env fd ptr len).val.ret =
      if env.respId = WRITE_SYSCALL_ID then env.respField1 else -EINVAL32 := by
  have hsend : ∀ m n, 0 ≤ n → (rpmsgRpcSend env m n).ret = env.sendRet := by
    intro m n hn
    simp only [rpmsgRpcSend, if_neg (Int32.not_lt.mpr hn),
      if_neg (Int32.not_lt.mpr hret)]
  have hone : (0 : Int32) ≠ 1 := by decide
  by_cases hfd : fd = 1
  · simp only [hfd, if_true] at hpay
    simp only [write, hrpc, Bool.true_eq_false, if_false, hfd, if_true,
      Traced.val_bind, Traced.val_ite, Traced.val_pure, hsend _ _ hpay, hret]
    split <;> rfl
  · simp only [hfd, if_false, Int32.add_zero] at hpay
    simp only [write, hrpc, Bool.true_eq_false, if_false, hfd, hone,
      Traced.val_bind, Traced.val_ite, Traced.val_pure, hsend _ _ hpay, hret,
      if_true]
    split <;> rfl

/-- The length of a write that fits, with its header and its terminator. -/
theorem payload_nonneg {fd len : Int32} (hlen : 0 ≤ len.toInt)
    (hfit : len.toInt.toNat + (if fd = 1 then 18 else 16) ≤ MAX_BUF_LEN) :
    0 ≤ 16 + len + if fd = 1 then 1 else 0 := by
  rw [MAX_BUF_LEN] at hfit
  have hsize : (16 + len).toInt = 16 + len.toInt := by
    rw [Int32.toInt_add, show (16 : Int32).toInt = 16 from rfl,
      Int.bmod_eq_of_le (by split at hfit <;> omega) (by split at hfit <;> omega)]
  rw [Int32.le_iff_toInt_le]
  by_cases hfd : fd = 1
  · rw [if_pos hfd] at hfit ⊢
    rw [Int32.toInt_add, hsize, Int32.toInt_one,
      Int.bmod_eq_of_le (by omega) (by omega)]
    exact Int.le_trans (by decide) (show 17 ≤ 16 + len.toInt + 1 by omega)
  · rw [if_neg hfd] at hfit ⊢
    rw [Int32.add_zero, hsize]
    exact Int.le_trans (by decide) (show 16 ≤ 16 + len.toInt by omega)

/-- A write whose request fits stores nothing outside it. -/
theorem write_inside_iff {fd len : Int32} (stack ptr : Mem)
    (hlen : 0 ≤ len.toInt) :
    (∀ a ∈ (write ⟨true, stack, 0, 0, 0⟩ fd ptr len).log, a.Inside) ↔
      len.toInt.toNat + (if fd = 1 then 18 else 16) ≤ MAX_BUF_LEN := by
  have hsafe := @write_safe_iff ⟨true, stack, 0, 0, 0⟩ fd len ptr rfl
  rw [toNat_intToSize hlen] at hsafe
  refine hsafe.trans ?_
  by_cases hfd : fd = 1
  · rw [if_pos hfd, forall_prop_of_true hfd]
    omega
  · rw [if_neg hfd, forall_prop_of_false hfd, and_true, Nat.add_comm]

/-- The terminator of a write to the standard output is what lies there. -/
def terminator (stack : Mem) (fd len : Int32) : List UInt8 :=
  if fd = 1 then [stack (16 + len.toInt.toNat)] else []

/-- The request of a write. -/
theorem write_sent (fd : Int32) {len : Int32} (stack ptr : Mem) (hlen : 0 ≤ len.toInt)
    (hfit : 16 + len.toInt.toNat ≤ MAX_BUF_LEN) :
    (write ⟨true, stack, 0, 0, 0⟩ fd ptr len).val.sent =
      some (syscallBytes WRITE_SYSCALL_ID fd len (len + if fd = 1 then 1 else 0)
        (readBytes ptr 0 (intToSize len).toNat ++ terminator stack fd len)) := by
  have hval := (@write_val ⟨true, stack, 0, 0, 0⟩ fd len ptr rfl).1
  rw [sent_eq hlen hfit (Int32.le_refl 0)] at hval
  rw [hval, toNat_intToSize hlen, List.append_assoc, syscallBytes, writeHeader,
    terminator]

/-- The server writes the bytes of the request, and not its terminator. -/
theorem handleRpc_write {m : Mem} {fd len dataLen : Int32}
    {bs tail : List UInt8} (hbs : bs.length = (intToSize len).toNat)
    (hdec : Decodes m WRITE_SYSCALL_ID fd len dataLen (bs ++ tail)) :
    handleRpc os (.up files) m = (.up (os.write files fd bs).1,
      some ((syscallBytes WRITE_SYSCALL_ID (os.write files fd bs).2 0 0 []).take
        RPMSG_PAYLOAD)) := by
  have hread : readBytes m 16 (intToSize len).toNat = bs := by
    have hle : (intToSize len).toNat ≤ (bs ++ tail).length := by
      rw [List.length_append]
      omega
    rw [readBytes_take _ _ hle, hdec.data_eq, List.take_left' hbs]
  have h₁ : WRITE_SYSCALL_ID ≠ OPEN_SYSCALL_ID := by decide
  have h₂ : WRITE_SYSCALL_ID ≠ CLOSE_SYSCALL_ID := by decide
  have h₃ : WRITE_SYSCALL_ID ≠ READ_SYSCALL_ID := by decide
  simp only [handleRpc, hdec.id_eq, if_neg h₁, if_neg h₂, if_neg h₃, if_true,
    handleWrite, hdec.field1_eq, hdec.field2_eq, hread, answered]
  rfl

theorem callWrite_eq {fd len : Int32} (ptr : Mem) (hlen : 0 ≤ len.toInt)
    (hfit : len.toInt.toNat + (if fd = 1 then 18 else 16) ≤ MAX_BUF_LEN) :
    callWrite os f (.up files) fd ptr len =
      (.up (os.write files fd (readBytes ptr 0 (intToSize len).toNat)).1,
        some ⟨(os.write files fd
          (readBytes ptr 0 (intToSize len).toNat)).2, []⟩) := by
  have hpay := payload_nonneg hlen hfit
  have hsafe := (write_inside_iff f.client ptr hlen).mpr hfit
  rw [MAX_BUF_LEN] at hfit
  have hsent := write_sent fd f.client ptr hlen
    (by rw [MAX_BUF_LEN]; split at hfit <;> omega)
  have hbs : (readBytes ptr 0 (intToSize len).toNat).length =
      (intToSize len).toNat := length_readBytes ..
  have hdata : (readBytes ptr 0 (intToSize len).toNat ++
      terminator f.client fd len).length ≤ 480 := by
    rw [List.length_append, hbs, toNat_intToSize hlen, terminator]
    split at hfit
    · rw [if_pos ‹_›, List.length_singleton]
      omega
    · rw [if_neg ‹_›, List.length_nil]
      omega
  generalize readBytes ptr 0 (intToSize len).toNat = bs at hsent hbs hdata ⊢
  have hrpc : handleRpc os (.up files) _ = _ := handleRpc_write hbs
    (decodes_syscallBytes f.server WRITE_SYSCALL_ID fd len
      (len + if fd = 1 then 1 else 0) (bs ++ terminator f.client fd len))
  have hans := decodes_answer f.client WRITE_SYSCALL_ID (os.write files fd bs).2
  generalize hreply : (Reply.answer ((syscallBytes WRITE_SYSCALL_ID
    (os.write files fd bs).2 0 0 []).take RPMSG_PAYLOAD)) = r at hans
  have hexch := exchange_up hdata hrpc
  rw [hreply] at hexch
  have hnonneg : ∀ n, 0 ≤ r.sendRet n := by
    intro n
    rw [← hreply]
    exact sendRet_nonneg _ n
  have hret := fun n => write_ret ⟨true, f.client, r.sendRet n,
    UInt32.ofNat (loadLE (r.resp f.client) 0 4), wordAt (r.resp f.client) 4⟩ rfl
    ptr hpay (hnonneg n)
  simp only [hans.id_eq, hans.field1_eq, if_true] at hret
  simp only [callWrite, if_pos hsafe, hsent, hexch, hans.id_eq, hans.field1_eq,
    hret]

/-- A write that does not fit stores outside its request. -/
theorem callWrite_unsafe {fd len : Int32} (ptr : Mem) (hlen : 0 ≤ len.toInt)
    (hfit : ¬ len.toInt.toNat + (if fd = 1 then 18 else 16) ≤ MAX_BUF_LEN)
    (s : Demod φ) : callWrite os f s fd ptr len = (s, none) := by
  have hunsafe := (write_inside_iff f.client ptr hlen).not.mpr hfit
  simp only [callWrite, if_neg hunsafe]

/-! ## Reads -/

/-- How much the server reads. -/
def readCount (fd buflen : Int32) : Nat :=
  if fd = 0 then min buflen.toInt.toNat 1008 else 1008

theorem readCount_eq {fd buflen : Int32} (hlen : 0 < buflen.toInt) :
    (intToSize (if fd = 0 ∧ buflen < Int32.ofNat (RPC_BUFF_SIZE - 16) then buflen
      else Int32.ofNat (RPC_BUFF_SIZE - 16))).toNat = readCount fd buflen := by
  have hfull : (intToSize (Int32.ofNat (RPC_BUFF_SIZE - 16))).toNat = 1008 := by
    decide
  have hlt : buflen < Int32.ofNat (RPC_BUFF_SIZE - 16) ↔ buflen.toInt < 1008 :=
    Int32.lt_iff_toInt_lt
  rw [readCount]
  by_cases hfd : fd = 0
  · rw [if_pos hfd]
    by_cases hsmall : buflen.toInt < 1008
    · rw [if_pos ⟨hfd, hlt.mpr hsmall⟩, toNat_intToSize (Int.le_of_lt hlen)]
      omega
    · rw [if_neg fun h => hsmall (hlt.mp h.2), hfull]
      omega
  · rw [if_neg fun h => hfd h.1, if_neg hfd, hfull]

/-- The server's side of a read. -/
theorem exchange_read {fd buflen : Int32} (hlen : 0 < buflen.toInt)
    {r : φ × Int32 × List UInt8}
    (hr : os.read files fd (readCount fd buflen) = r) :
    exchange os f (.up files) (readRequest fd buflen) =
      (.up r.1, .answer (syscallBytes READ_SYSCALL_ID r.2.1 0 r.2.1
        (r.2.2.take 480))) := by
  have hdec := decodes_syscallBytes f.server READ_SYSCALL_ID fd buflen 0 []
  have hrpc : handleRpc os (.up files) (writeBytes f.server 0
      (syscallBytes READ_SYSCALL_ID fd buflen 0 [])) = (.up r.1,
        some ((syscallBytes READ_SYSCALL_ID r.2.1 0 r.2.1 r.2.2).take
          RPMSG_PAYLOAD)) := by
    have h₁ : READ_SYSCALL_ID ≠ OPEN_SYSCALL_ID := by decide
    have h₂ : READ_SYSCALL_ID ≠ CLOSE_SYSCALL_ID := by decide
    simp only [handleRpc, hdec.id_eq, if_neg h₁, if_neg h₂, if_true, handleRead,
      hdec.field1_eq, hdec.field2_eq, readCount_eq hlen, answered]
    rw [show (Demod.up files).files = files from rfl, hr]
    rfl
  have hdata : ([] : List UInt8).length ≤ 480 := Nat.zero_le 480
  rw [readRequest_eq, exchange_up hdata hrpc, take_syscallBytes (by decide)]
  rfl

/-- The client's side: what `_read` makes of an answer to a read. -/
theorem read_answer {fd buflen : Int32} (hlen : 0 < buflen.toInt)
    (stack buffer : Mem) (sendRet ret : Int32) (hsend : 0 ≤ sendRet)
    {bs : List UInt8} (hbs : bs.length ≤ 480) {n : Nat}
    (hn : n = min ret.toInt.toNat buflen.toInt.toNat) {resp : Mem}
    (hresp : resp = writeBytes (writeBytes stack 0 (leBytes 4 0)) 0
      (syscallBytes READ_SYSCALL_ID ret 0 ret bs)) :
    read ⟨true, stack, sendRet⟩ fd (some buffer) buflen
      ⟨writeBytes (fun _ => 0) 0 (syscallBytes READ_SYSCALL_ID ret 0 ret bs),
        (syscallBytes READ_SYSCALL_ID ret 0 ret bs).length⟩ =
      some ⟨ret, some (readRequest fd buflen),
        writeBytes buffer 0 (readBytes resp 16 n), n⟩ := by
  have hne : buflen ≠ 0 := by
    rintro rfl
    exact absurd hlen (by decide)
  have hdec := decodes_syscallBytes (fun _ => 0) READ_SYSCALL_ID ret 0 ret bs
  have hterm : ¬ (⟨writeBytes (fun _ => 0) 0 (syscallBytes READ_SYSCALL_ID ret 0
      ret bs), (syscallBytes READ_SYSCALL_ID ret 0 ret bs).length⟩ :
        Answer).IsTerm := by
    intro h
    have hid := hdec.id_eq
    rw [show loadLE _ 0 4 = TERM_SYSCALL_ID from h] at hid
    exact absurd hid (by decide)
  have hbuf : tmpbuf ⟨true, stack, sendRet⟩
      ⟨writeBytes (fun _ => 0) 0 (syscallBytes READ_SYSCALL_ID ret 0 ret bs),
        (syscallBytes READ_SYSCALL_ID ret 0 ret bs).length⟩ = resp := by
    have hsize := length_syscallBytes READ_SYSCALL_ID ret 0 ret bs
    have hmin : min (syscallBytes READ_SYSCALL_ID ret 0 ret bs).length
        MAX_BUF_LEN = (syscallBytes READ_SYSCALL_ID ret 0 ret bs).length := by
      rw [MAX_BUF_LEN]
      omega
    simp only [tmpbuf, received, hmin]
    rw [readBytes_writeBytes_take _ _ (Nat.le_refl _), List.take_length, hresp]
  have hwords := decodes_syscallBytes (writeBytes stack 0 (leBytes 4 0))
    READ_SYSCALL_ID ret 0 ret bs
  rw [← hresp] at hwords
  have hid : wordAt resp 0 = READ_SYSCALL_ID.toInt32 :=
    congrArg UInt32.toInt32 hwords.id_eq
  simp only [read, Bool.true_eq_false, hne, or_self, if_false,
    if_neg (Int32.not_lt.mpr hsend), if_neg hterm, hbuf, hid, if_true]
  rw [hwords.field1_eq, hwords.dataLen_eq]
  by_cases hpos : 0 < ret
  · have hpos' : 0 < ret.toInt := Int32.lt_iff_toInt_lt.mp hpos
    have hclip := clip_toInt ret buflen
    have hcount : (intToSize (if buflen < ret then buflen else ret)).toNat = n := by
      rw [toNat_intToSize (by omega), hclip]
      omega
    rw [if_pos hpos, hcount]
  · have hzero : n = 0 := by
      have hle := Int32.le_iff_toInt_le.mp (Int32.not_lt.mp hpos)
      change ret.toInt ≤ 0 at hle
      omega
    rw [if_neg hpos, hzero]
    simp [readBytes]

/-- The result of a read is the number of its bytes, if it is positive. -/
theorem HostFiles.read_count (os : HostFiles φ) (files : φ) (fd : Int32) {n : Nat}
    (hn : n < 2147483648) :
    (os.read files fd n).2.1.toInt.toNat = (os.read files fd n).2.2.length := by
  unfold HostFiles.read
  cases os.rest files fd with
  | none => rfl
  | some bs =>
    have hle : (bs.take n).length ≤ n := by
      rw [List.length_take]
      exact Nat.min_le_left _ _
    simp only
    rw [Int32.toInt_ofNat_of_lt (by omega)]
    exact Int.toNat_natCast _

theorem readCount_le (fd buflen : Int32) : readCount fd buflen ≤ 1008 := by
  unfold readCount
  split
  · exact Nat.min_le_right _ _
  · exact Nat.le_refl _

/-- **A read**, as far as the response goes. -/
theorem callRead_eq {fd buflen : Int32} (hlen : 0 < buflen.toInt)
    {r : φ × Int32 × List UInt8}
    (hr : os.read files fd (readCount fd buflen) = r) {n : Nat}
    (hn : n = min r.2.2.length buflen.toInt.toNat) :
    callRead os f (.up files) fd buflen =
      (.up r.1, if 480 < n then none else some ⟨r.2.1, r.2.2.take n⟩) := by
  have hne : buflen ≠ 0 := by
    rintro rfl
    exact absurd hlen (by decide)
  have hle := readCount_le fd buflen
  have hcount := os.read_count files fd (n := readCount fd buflen) (by omega)
  rw [hr] at hcount
  have hshort : (r.2.2.take 480).length ≤ 480 := by
    rw [List.length_take]
    exact Nat.min_le_left _ _
  have hn' : n = min r.2.1.toInt.toNat buflen.toInt.toNat := by rw [hcount, hn]
  have hread := @read_answer fd buflen hlen f.client f.buffer
    ((Reply.answer (syscallBytes READ_SYSCALL_ID r.2.1 0 r.2.1
      (r.2.2.take 480))).sendRet 16) r.2.1 (sendRet_nonneg _ _) _ hshort n hn' _
    rfl
  have hdec := decodes_syscallBytes (writeBytes f.client 0 (leBytes 4 0))
    READ_SYSCALL_ID r.2.1 0 r.2.1 (r.2.2.take 480)
  generalize writeBytes (writeBytes f.client 0 (leBytes 4 0)) 0 (syscallBytes
    READ_SYSCALL_ID r.2.1 0 r.2.1 (r.2.2.take 480)) = resp at hread hdec
  simp only [callRead, if_neg hne, exchange_read hlen hr, Reply.bytes, hread]
  by_cases hbig : 480 < n
  · have hover : MAX_BUF_LEN < 16 + n := by
      rw [MAX_BUF_LEN]
      omega
    rw [if_pos hbig, if_pos hover]
  · have hover : ¬ MAX_BUF_LEN < 16 + n := by
      rw [MAX_BUF_LEN]
      omega
    have htake : n ≤ (r.2.2.take 480).length := by
      rw [List.length_take]
      omega
    have hdata : readBytes resp 16 n = r.2.2.take n := by
      rw [readBytes_take _ _ htake, hdec.data_eq, List.take_take,
        Nat.min_eq_left (by omega)]
    have hback : readBytes (writeBytes f.buffer 0 (r.2.2.take n)) 0 n =
        r.2.2.take n := by
      have hsize : n ≤ (r.2.2.take n).length := by
        rw [List.length_take]
        omega
      rw [readBytes_writeBytes_take _ _ hsize, List.take_take, Nat.min_self]
    rw [if_neg hbig, if_neg hover, hdata, hback]

/-! ## Every call -/

/-- A call that fits is the host's. -/
theorem FileCall.remote_fits {files : φ} {c : Frame × FileCall}
    (hvalid : c.2.Valid) (hfit : FileCall.Fits os files c) :
    FileCall.remote os (.up files) c =
      (.up (FileCall.direct os files c).1, (FileCall.direct os files c).2) := by
  obtain ⟨f, c⟩ := c
  cases c with
  | «open» name flags mode => exact callOpen_eq hvalid.1 hfit flags mode
  | close fd => exact callClose_eq fd
  | write fd ptr len =>
    exact callWrite_eq ptr (Int32.le_iff_toInt_le.mp hvalid) hfit
  | read fd buflen =>
    have hlen : 0 < buflen.toInt := Int32.lt_iff_toInt_lt.mp hvalid
    have hb := toNat_intToSize (Int.le_of_lt hlen)
    have hsame : os.read files fd (readCount fd buflen) =
        os.read files fd (intToSize buflen).toNat ∧
        (os.read files fd (intToSize buflen).toNat).2.2.length ≤ 480 ∧
        (os.read files fd (intToSize buflen).toNat).2.2.length ≤
          buflen.toInt.toNat := by
      rw [hb]
      unfold HostFiles.read
      cases hrest : os.rest files fd with
      | none => exact ⟨rfl, Nat.zero_le _, Nat.zero_le _⟩
      | some bs =>
        have hbs := hfit bs hrest
        simp only [MAX_BUF_LEN] at hbs
        have htake : bs.take (readCount fd buflen) =
            bs.take buflen.toInt.toNat := by
          rw [readCount]
          by_cases hfd : fd = 0
          · rw [if_pos hfd] at hbs ⊢
            by_cases hsmall : buflen.toInt.toNat ≤ 1008
            · rw [Nat.min_eq_left hsmall]
            · rw [List.take_of_length_le (by omega),
                List.take_of_length_le (by omega)]
          · rw [if_neg hfd] at hbs ⊢
            rw [List.take_of_length_le (by omega),
              List.take_of_length_le (by omega)]
        simp only [htake, List.length_take]
        refine ⟨trivial, ?_, Nat.min_le_left _ _⟩
        split at hbs <;> omega
    obtain ⟨heq, h480, hbuf⟩ := hsame
    have hcall := callRead_eq (f := f) hlen heq rfl
    rw [Nat.min_eq_left hbuf, if_neg (by omega), List.take_length] at hcall
    exact hcall

/-- A call that does not fit has another result, or none that is defined. -/
theorem FileCall.remote_differs {files : φ} {c : Frame × FileCall}
    (hvalid : c.2.Valid) (hfit : ¬ FileCall.Fits os files c) :
    (FileCall.remote os (.up files) c).2 ≠ (FileCall.direct os files c).2 := by
  obtain ⟨f, c⟩ := c
  cases c with
  | «open» name flags mode =>
    have hcall : callOpen os f (.up files) name flags mode =
        (.up files, some ⟨-EINVAL32, []⟩) :=
      callOpen_refused hvalid.2 hfit flags mode (.up files)
    rw [FileCall.remote, hcall]
    intro heq
    have hret := congrArg FileResult.ret (Option.some.inj heq)
    have hge := os.open_ge files name flags mode
    rw [← show -EINVAL32 = (os.openFile files name flags mode).2 from hret] at hge
    exact absurd hge (by decide)
  | close fd => exact absurd trivial hfit
  | write fd ptr len =>
    have hcall : callWrite os f (.up files) fd ptr len = (.up files, none) :=
      callWrite_unsafe ptr (Int32.le_iff_toInt_le.mp hvalid) hfit (.up files)
    rw [FileCall.remote, hcall]
    exact nofun
  | read fd buflen =>
    have hlen : 0 < buflen.toInt := Int32.lt_iff_toInt_lt.mp hvalid
    have hlt := buflen.toInt_lt
    have hb := toNat_intToSize (Int.le_of_lt hlen)
    simp only [FileCall.Fits, not_forall] at hfit
    obtain ⟨bs, hrest, hbs⟩ := hfit
    have hread : ∀ k, os.read files fd k = (os.consume files fd (bs.take k).length,
        Int32.ofNat (bs.take k).length, bs.take k) := by
      intro k
      simp only [HostFiles.read, hrest]
    have hcall := callRead_eq (f := f) hlen (hread _) rfl
    rw [FileCall.remote, hcall]
    simp only [FileCall.direct, hread, hb]
    split
    · exact nofun
    · next hsmall =>
      intro heq
      -- as many bytes would have to be announced
      have hret := congrArg FileResult.ret (Option.some.inj heq)
      have hle := readCount_le fd buflen
      have hcount : (bs.take (readCount fd buflen)).length =
          (bs.take buflen.toInt.toNat).length := by
        have hint := congrArg Int32.toInt hret
        simp only [List.length_take] at hint ⊢
        rw [Int32.toInt_ofNat_of_lt (by omega),
          Int32.toInt_ofNat_of_lt (by omega)] at hint
        exact Int.ofNat_inj.mp hint
      simp only [List.length_take] at hcount hsmall
      apply hbs
      rw [MAX_BUF_LEN, readCount] at *
      split at hcount <;> simp only [*, if_true, if_false] at hsmall ⊢ <;> omega

/-- **A remote program's session.** The results of its system calls are the
host's, and the host's files are as if it had made them there, exactly when
every call fits where it is made. -/
theorem files_session_iff (os : HostFiles φ) (files : φ)
    {cs : List (Frame × FileCall)} (hvalid : ∀ c ∈ cs, c.2.Valid) :
    (session (FileCall.remote os) (.up files) cs).2 =
        (session (FileCall.direct os) files cs).2 ∧
      (session (FileCall.remote os) (.up files) cs).1 =
        .up (session (FileCall.direct os) files cs).1 ↔
      MetThroughout (FileCall.direct os) (FileCall.Fits os) files cs := by
  have hstands : StandsIn (FileCall.direct os) (FileCall.remote os)
      (fun files s => s = .up files) (fun c => c.2.Valid) (FileCall.Fits os) := by
    constructor
    · rintro files s c rfl hv hfit
      rw [FileCall.remote_fits hv hfit]
      exact ⟨rfl, rfl⟩
    · rintro files s c rfl hv hfit
      exact FileCall.remote_differs hv hfit
  exact hstands.session_iff rfl hvalid

/-- A host with one file, of which this is left to read. -/
def oneFile : HostFiles (List UInt8) where
  openFile bs _ _ _ := (bs, 3)
  close bs _ := (bs, 0)
  rest bs fd := if fd = 3 then some bs else none
  consume bs _ n := bs.drop n
  write bs _ data := (bs ++ data, Int32.ofNat data.length)
  open_ge _ _ _ _ := (by decide : (-1 : Int32) ≤ 3)

def someFrame : Frame := ⟨fun _ => 7, fun _ => 8, fun _ => 9⟩

/-- Three bytes are read into a buffer of eight as from the host; into one of
two they are not: the result is 3 all the same. -/
theorem files_session_iff_file :
    (session (FileCall.remote oneFile) (.up [1, 2, 3])
        [(someFrame, .open [97] 0 0), (someFrame, .read 3 8)]).2 =
      (session (FileCall.direct oneFile) [1, 2, 3]
        [(someFrame, .open [97] 0 0), (someFrame, .read 3 8)]).2 ∧
    (session (FileCall.remote oneFile) (.up [1, 2, 3])
        [(someFrame, .read 3 2)]).2 = [some ⟨3, [1, 2]⟩] := by
  have hread : ∀ n : Int32, 0 < n → ∀ c ∈ [(someFrame, FileCall.read 3 n)],
      c.2.Valid := by
    intro n hn c hc
    rw [List.mem_singleton.mp hc]
    exact hn
  have hvalid : ∀ c ∈ [(someFrame, FileCall.open [97] 0 0),
      (someFrame, FileCall.read 3 8)], c.2.Valid := by
    intro c hc
    rcases List.mem_cons.mp hc with rfl | hc
    · have hbytes : ∀ b ∈ [(97 : UInt8)], b ≠ 0 := by simp
      exact ⟨hbytes, by decide⟩
    · exact hread 8 (by decide) c hc
  refine ⟨((files_session_iff oneFile [1, 2, 3] hvalid).mpr
    ⟨(by decide : [(97 : UInt8)].length + 17 ≤ MAX_BUF_LEN), ?_, trivial⟩).1, ?_⟩
  · intro bs hbs
    cases hbs
    exact ⟨by decide, by decide⟩
  · decide +kernel

end OpenAmp.Proxy
