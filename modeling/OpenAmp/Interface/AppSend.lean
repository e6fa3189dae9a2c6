import OpenAmp.Rpmsg.Passage

/-!
# Sending for an application

`openamp_app_send` reports a send as all or nothing: the length, if
`rpmsg_send` returned just that, and -1 otherwise. Three layers below an
over-long message is cut to the buffer and sent all the same, and on the
way down the length goes from a `size_t` to an `int`.
-/

namespace OpenAmp.Interface

open OpenAmp.Lib OpenAmp.Rpmsg OpenAmp.Virtio

/-- `rpmsg_send_offchannel_raw` as far as the operation of the device: the
call made of it, or `none` for `RPMSG_ERR_PARAM`. -/
def rpmsgSendOffchannelRaw (ept : Option RpmsgEndpoint) (src dst : UInt32)
    (data : Option (List UInt8)) (len : Int32) : Option SendCall := do
  let ept ← ept
  let data ← data
  if ept.rdev = false ∨ dst = RPMSG_ADDR_ANY ∨ len < 0 then none
  else some ⟨src, dst, data.take len.toNatClampNeg⟩

/-- `rpmsg_send`, as far. -/
def rpmsgSend (ept : Option RpmsgEndpoint) (data : Option (List UInt8))
    (len : Int32) : Option SendCall := do
  let ept ← ept
  rpmsgSendOffchannelRaw (some ept) ept.addr ept.destAddr data len

/-- The arguments of `openamp_app_send`; behind `data` there are `len`
bytes. -/
structure AppSendArgs where
  ept : Option RpmsgEndpoint
  data : Option (List UInt8)
  len : UInt64
  size : ∀ bs ∈ data, bs.length = len.toNat

namespace AppSendArgs

/-- `if(ept == NULL || data == NULL || len == 0)`. -/
def refused (a : AppSendArgs) : Bool :=
  a.ept.isNone || a.data.isNone || a.len == 0

/-- The call `rpmsg_send(ept, data, len)`. -/
def call (a : AppSendArgs) : Option SendCall :=
  if a.refused then none else rpmsgSend a.ept a.data a.len.toUInt32.toInt32

/-- `if(rpmsg_send(ept, data, len) == len) ret = len;`. -/
def ret (a : AppSendArgs) (status : Int32) : Int32 :=
  if status.toInt64.toUInt64 = a.len then a.len.toUInt32.toInt32 else -1

/-- What `openamp_app_send` returns, once it does. -/
def result (a : AppSendArgs) (p : Passage) : Option Int32 :=
  if a.refused then some (-1)
  else
    match p with
    | .refused n | .queued _ n | .received _ n | .delivered _ n =>
      some (a.ret n)
    | _ => none

end AppSendArgs

/-- The states of the runs in which the side with the role calls
`openamp_app_send` at any time. -/
def AppSendReachable (cfg : AppLinkConfig) (role : VirtioRole)
    (a : AppSendArgs) (s : AppLink) (p : Passage) : Prop :=
  match a.call with
  | some call => PassageReachable cfg role call (s, p)
  | none =>
    AppLinkReachable cfg s ∧ p = .refused (Int32.ofInt RPMSG_ERR_PARAM)

/-! ## What is said about a send -/

/-- A round of the peer looks up the endpoint the data is for and hands it
all of them, once. -/
structure AppSendArgs.Served (a : AppSendArgs) (r : Round) : Prop where
  match_addr : ∀ ept ∈ a.ept, ∀ e ∈ r.ept,
    e ∈ r.rdev.endpoints ∧ (r.rdev.epts e).addr = ept.destAddr
  no_match : ∀ ept ∈ a.ept, r.ept = none →
    ∀ e ∈ r.rdev.endpoints, (r.rdev.epts e).addr ≠ ept.destAddr
  calls : ∀ ept ∈ a.ept, ∀ bs ∈ a.data, r.calls =
    if r.phase = .found then []
    else r.ept.toList.map fun e => ⟨e, bs, a.len.toNat, ept.addr⟩

/-- The peer gets the data: there is a message for it to take, and the
round it is taken in serves it. -/
def AppSendArgs.Arrives (a : AppSendArgs) (cfg : LaneConfig) (shm : Mem)
    (l : AppLane) : Passage → Prop
  | .queued _ _ => ∃ b rvdev,
      rxTakeBuffer (l.receiver cfg shm) = some (some b, rvdev)
  | .received r _ | .delivered r _ => a.Served r
  | _ => False

/-- **A failed send transmits nothing, a successful one everything.** -/
structure AppSendArgs.Meets (a : AppSendArgs) (cfg : LaneConfig) (shm : Mem)
    (l : AppLane) (p : Passage) : Prop where
  failed : a.result p = some (-1) → p.sent = false
  positive : ∀ v, a.result p = some v → 0 < v →
    v.toInt = a.len.toNat ∧ a.Arrives cfg shm l p

/-- The data fit behind the header of a buffer, and their number is no
negative `int`. -/
structure AppSendArgs.Fits (a : AppSendArgs) (cfg : LaneConfig) : Prop where
  sized : cfg.Sized
  room : a.len.toNat + RPMSG_HDR_SIZE ≤ cfg.bufSize.toNat

/-! ## Lengths -/

variable {a : AppSendArgs} {cfg : LaneConfig} {call : SendCall}

/-- An `int` as a `size_t`. -/
theorem toNat_toUInt64 (x : Int32) : (x.toInt64.toUInt64.toNat : Int) =
    if 0 ≤ x.toInt then x.toInt else x.toInt + 18446744073709551616 := by
  have hint : x.toInt64.toBitVec.toInt = x.toInt := x.toInt_toInt64
  have hnat : x.toInt64.toBitVec.toNat = x.toInt64.toUInt64.toNat := rfl
  have hlt := x.toInt64.toUInt64.toNat_lt
  rw [BitVec.toInt_eq_toNat_cond, hnat] at hint
  split at hint <;> split <;> omega

/-- The length that goes down is the low word of the one that came. -/
theorem toInt_len (len : UInt64) : len.toUInt32.toInt32.toInt =
    if len.toNat % 4294967296 < 2147483648 then
      ((len.toNat % 4294967296 : Nat) : Int)
    else ((len.toNat % 4294967296 : Nat) : Int) - 4294967296 := by
  have hnat : len.toUInt32.toBitVec.toNat = len.toNat % 4294967296 :=
    UInt64.toNat_toUInt32 len
  show len.toUInt32.toBitVec.toInt = _
  rw [BitVec.toInt_eq_toNat_cond, hnat]
  split <;> split <;> omega

/-- What the checks on the way to the device let through. -/
theorem AppSendArgs.call_spec (h : a.call = some call) :
    a.refused = false ∧ a.len.toNat % 4294967296 < 2147483648 ∧
    ∃ ept bs, a.ept = some ept ∧ a.data = some bs ∧
      ept.destAddr ≠ RPMSG_ADDR_ANY ∧
      call = ⟨ept.addr, ept.destAddr, bs.take (a.len.toNat % 4294967296)⟩ := by
  unfold AppSendArgs.call at h
  split at h
  · cases h
  · next hno =>
    obtain ⟨ept, hept, h⟩ := Option.bind_eq_some_iff.mp h
    obtain ⟨bs, hdata, h⟩ := Option.bind_eq_some_iff.mp h
    have hint := toInt_len a.len
    split at h
    · cases h
    · next hok =>
      cases h
      obtain ⟨-, hdst, hlen⟩ := not_or.mp hok |>.imp_right not_or.mp
      rw [Int32.lt_iff_toInt_lt, Int32.toInt_zero] at hlen
      split at hint
      · next hlt =>
        have hnat := (eq_ofNat_of_toInt hint).2
        exact ⟨by simpa using hno, hlt, ept, bs, hept, hdata, hdst,
          by rw [hnat]⟩
      · omega

theorem AppSendArgs.len_pos (h : a.call = some call) : 0 < a.len.toNat := by
  have hno := (AppSendArgs.call_spec h).1
  simp only [AppSendArgs.refused, Bool.or_eq_false_iff, beq_eq_false_iff_ne]
    at hno
  exact Nat.pos_of_ne_zero fun h0 => hno.2 (UInt64.toNat_inj.mp h0)

theorem AppSendArgs.data_length (h : a.call = some call) :
    call.data.length = a.len.toNat % 4294967296 := by
  obtain ⟨-, -, ept, bs, -, hdata, -, rfl⟩ := AppSendArgs.call_spec h
  rw [List.length_take, a.size bs hdata]
  omega

theorem AppSendArgs.checked (h : a.call = some call) : call.Checked := by
  obtain ⟨-, hlt, ept, bs, -, -, hdst, heq⟩ := AppSendArgs.call_spec h
  refine ⟨?_, ?_⟩
  · rw [heq]
    exact hdst
  · rw [AppSendArgs.data_length h]
    exact hlt

/-- **The lengths agree** exactly where the data fit. -/
theorem AppSendArgs.fits_iff (h : a.call = some call) {n : Int32}
    (hn : n = sendLen (Int32.ofNat call.data.length)
      (cfg.bufSize - UInt32.ofNat RPMSG_HDR_SIZE)) :
    n.toInt64.toUInt64 = a.len ↔ a.Fits cfg := by
  obtain ⟨-, hlt, -⟩ := AppSendArgs.call_spec h
  have hu64 := toNat_toUInt64 n
  rw [AppSendArgs.data_length h] at hn
  rw [← UInt64.toNat_inj]
  by_cases hs : cfg.Sized
  · have hhdr := hs.header
    have hpay := hs.payload
    have hroom : (cfg.bufSize - UInt32.ofNat RPMSG_HDR_SIZE).toNat =
        cfg.bufSize.toNat - RPMSG_HDR_SIZE := by
      rw [UInt32.toNat_sub_of_le]
      · rfl
      · exact UInt32.le_iff_toNat_le.mpr hhdr
    have hint := toInt_sendLen hlt
      (show (cfg.bufSize - UInt32.ofNat RPMSG_HDR_SIZE).toNat < 2 ^ 31 by omega)
    rw [← hn, hroom] at hint
    rw [if_pos (by omega)] at hu64
    constructor
    · intro heq
      exact ⟨hs, by omega⟩
    · intro hfits
      have hle := hfits.room
      omega
  · -- the length sent is negative, the length asked for is none
    have hlow := n.le_toInt
    have hneg := sendLen_neg hs hlt
    rw [← hn] at hneg
    rw [if_neg (by omega)] at hu64
    constructor
    · intro heq
      omega
    · exact fun hfits => absurd hfits.sized hs

/-- A length that agrees comes back as it is. -/
theorem AppSendArgs.ret_eq (h : a.call = some call) {n : Int32}
    (heq : n.toInt64.toUInt64 = a.len) :
    a.ret n = n ∧ n.toInt = a.len.toNat := by
  obtain ⟨-, hlt, -⟩ := AppSendArgs.call_spec h
  have hu64 := toNat_toUInt64 n
  have hlow := n.le_toInt
  have hhigh := n.toInt_lt
  rw [heq] at hu64
  have hn : n.toInt = a.len.toNat := by
    split at hu64 <;> omega
  refine ⟨?_, hn⟩
  have hint := toInt_len a.len
  rw [if_pos hlt] at hint
  rw [AppSendArgs.ret, if_pos heq]
  exact Int32.toInt.inj (by omega)

/-- An error never comes back as a length. -/
theorem AppSendArgs.ret_of_neg (a : AppSendArgs) {status : Int32}
    (h : status < 0) : ¬ 0 < a.ret status := by
  rw [Int32.lt_iff_toInt_lt, Int32.toInt_zero] at h ⊢
  have hu64 := toNat_toUInt64 status
  have hlow := status.le_toInt
  unfold AppSendArgs.ret
  split
  · next heq =>
    have hint := toInt_len a.len
    rw [heq] at hu64
    split at hu64 <;> split at hint <;> omega
  · decide

/-! ## One state -/

section State

variable {shm : Mem} {l : AppLane} {p : Passage} {r : Round} {n : Int32}

/-- A send that put nothing on the queue is as it should be. -/
theorem AppSendArgs.meets_of_unsent (hsent : p.sent = false)
    (hstatus : ∀ st, p = .refused st → st < 0) : a.Meets cfg shm l p := by
  refine ⟨fun _ => hsent, fun v hv hpos => ?_⟩
  unfold AppSendArgs.result at hv
  split at hv
  · cases hv
    exact absurd hpos (by decide)
  · split at hv
    · next st =>
      cases hv
      exact absurd hpos (a.ret_of_neg (hstatus st rfl))
    · cases hsent
    · cases hsent
    · cases hsent
    · cases hv

/-- The result of a send that put its message on the queue. -/
theorem AppSendArgs.result_of_sent (h : a.call = some call)
    (hsent : p.sent = true) :
    ∃ n ∈ p.sentLen, a.result p = some (a.ret n) := by
  have hno := (AppSendArgs.call_spec h).1
  simp only [AppSendArgs.result, hno, Bool.false_eq_true, if_false]
  cases p with
  | queued o n => exact ⟨n, rfl, rfl⟩
  | received r n => exact ⟨n, rfl, rfl⟩
  | delivered r n => exact ⟨n, rfl, rfl⟩
  | _ => cases hsent

/-- **A round that conveys the message serves the data**, where the header
can count them. -/
theorem AppSendArgs.served (h : a.call = some call)
    (hn : n.toInt = a.len.toNat) (hconv : r.Conveys ⟨call, n⟩)
    (hcount : r.phase ≠ .found → r.ept ≠ none → a.len.toNat < 65536) :
    a.Served r := by
  obtain ⟨-, hlt, ept, bs, hept, hdata, -, rfl⟩ := AppSendArgs.call_spec h
  have hnat := (eq_ofNat_of_toInt hn).2
  have hhigh := n.toInt_lt
  refine ⟨fun ept' he' => ?_, fun ept' he' => ?_, fun ept' he' bs' hb' => ?_⟩
  · cases hept.symm.trans he'
    exact hconv.match_addr
  · cases hept.symm.trans he'
    exact hconv.no_match
  · cases hept.symm.trans he'
    cases hdata.symm.trans hb'
    rw [hconv.calls]
    split
    · rfl
    · next hphase =>
      cases he : r.ept with
      | none => rfl
      | some e =>
        have hlen := hcount hphase (by simp [he])
        have hsize := a.size bs hdata
        simp only [hnat, Nat.mod_eq_of_lt hlen, List.take_take]
        rw [List.take_of_length_le (by omega)]

/-- Only what the header can count is served. -/
theorem AppSendArgs.Served.counted (hs : a.Served r) (h : a.call = some call)
    (hconv : r.Conveys ⟨call, n⟩) (hphase : r.phase ≠ .found)
    (he : r.ept ≠ none) : a.len.toNat < 65536 := by
  obtain ⟨-, -, ept, bs, hept, hdata, -, -⟩ := AppSendArgs.call_spec h
  obtain ⟨e, he⟩ := Option.ne_none_iff_exists'.mp he
  have hcalls := hs.calls ept hept bs hdata
  rw [hconv.calls, if_neg hphase, if_neg hphase, he] at hcalls
  simp only [Option.toList_some, List.map_cons, List.map_nil, List.cons.injEq,
    CbCall.mk.injEq] at hcalls
  have hlen := hcalls.1.2.2.1
  omega

end State

/-! ## Every run -/

section Run

variable {cfg : AppLinkConfig} {role : VirtioRole} {s : AppLink} {p : Passage}

/-- **What fits arrives.** -/
theorem AppSendArgs.arrives (h : a.call = some call)
    (hinv : PassageInv cfg role call (s, p))
    (hfits : a.Fits (cfg.lane role).toLaneConfig)
    (hcount : ∀ r n, p = .delivered r n → r.ept ≠ none →
      a.len.toNat < 65536) (hsent : p.sent = true)
    (hlen : ∀ n ∈ p.sentLen, n.toInt = a.len.toNat) :
    a.Arrives (cfg.lane role).toLaneConfig s.shm (s.lane role) p := by
  obtain ⟨recl, pend, -, hok⟩ := hinv.ours
  have hcarries := hok.carries hfits.sized
  cases p with
  | queued o n => exact hinv.finds
  | received r n =>
    obtain ⟨-, hphase, hconv, -⟩ := hcarries
    exact AppSendArgs.served h (hlen n rfl) hconv fun hno => absurd hphase hno
  | delivered r n =>
    obtain ⟨-, -, hconv⟩ := hcarries
    exact AppSendArgs.served h (hlen n rfl) hconv fun _ => hcount r n rfl
  | _ => cases hsent

end Run

/-! ## Two sends -/

/-- A device that finds a buffer puts its message on the queue. -/
theorem device_sends {cfg : AppLinkConfig} {s : AppLink}
    (h : PassageReachable cfg .device call (s, .waiting))
    (hbound : s.toRemote.outstanding ≤ cfg.h2r.num) {b : VqBuffer}
    {rvdev : TxDevice} (hget : rpmsgVirtioGetTxBuffer (s.toHost.sender
      cfg.toLinkLayout.toHost s.shm) = some (some b, rvdev)) :
    ∃ s' o n, PassageReachable cfg .device call (s', .queued o n) := by
  have hnext : ∀ {s : AppLink} {p p' : Passage} {shm : Mem} {l : AppLane},
      PassageReachable cfg .device call (s, p) →
      s.toRemote.outstanding ≤ cfg.h2r.num →
      PassageStep cfg.toHost call s.shm s.toHost p shm l p' →
      PassageReachable cfg .device call (s.setLane .device shm l, p') :=
    fun h hbound hst => h.next ⟨.lane hst, hbound⟩
  have hfetched := hnext h hbound (.get hget)
  have hnoted := hnext hfetched hbound .note
  have hcopied := hnext hnoted hbound (.copy rfl)
  have hsealed := hnext hcopied hbound (.header rfl)
  exact ⟨_, _, _, hnext hsealed hbound (.enqueue rfl)⟩

/-- On the pair with buffers of 48 bytes at the device there is one. -/
theorem appPair_sends (call : SendCall) : ∃ s o n,
    PassageReachable appPairLink .device call (s, .queued o n) := by
  have hrun : ((AppLink.init appPairLink.toLinkLayout).bind fun s =>
      (rpmsgVirtioGetTxBuffer (s.toHost.sender appPairLink.toLinkLayout.toHost
        s.shm)).map fun r => (r.1.isSome,
          decide (s.toRemote.outstanding ≤ appPairLink.h2r.num))) =
      some (true, true) := by
    decide +kernel
  obtain ⟨s, hs, hget⟩ := Option.bind_eq_some_iff.mp hrun
  obtain ⟨⟨b, rvdev⟩, hget, heq⟩ := Option.map_eq_some_iff.mp hget
  obtain ⟨hb, hbound⟩ := Prod.mk.inj heq
  obtain ⟨b, rfl⟩ := Option.isSome_iff_exists.mp hb
  have hstart : PassageReachable appPairLink .device call (s, .waiting) :=
    .start ⟨.start hs, rfl⟩
  exact device_sends hstart (of_decide_eq_true hbound) hget

/-- An endpoint of the remote for the one of the host. -/
def remoteEpt : RpmsgEndpoint := ⟨[], true, 0x401, 0x400, 1, false⟩

/-- Some bytes for it. -/
def remoteSend (k : UInt64) : AppSendArgs where
  ept := some remoteEpt
  data := some (List.replicate k.toNat 7)
  len := k
  size := by simp

end OpenAmp.Interface
