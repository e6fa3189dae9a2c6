import OpenAmp.Lib.Bytes

/-!
# Remote procedure calls

The client and the server of `open-amp/lib/service/rpmsg/rpc`. A request
is the id of a service and its parameters; an answer is a packed
`struct rpmsg_rpc_answer`, the id, a status and parameters. Each of the
four functions knows the layout by constants of its own.

A message is delivered into a receive buffer: what lies behind its bytes
there is what the buffer held before.
-/

namespace OpenAmp.Service

open OpenAmp.Lib

def MAX_BUF_LEN : Nat := 488
def MAX_FUNC_ID_LEN : Nat := 4
def RPMSG_RPC_INVALID_ID : Int32 := -1
def EINVAL : Int := 22

/-! ## The two sides -/

/-- `struct rpmsg_rpc_services` and `struct rpmsg_rpc_client_services`,
with a number for the function. -/
structure RpcService where
  id : UInt32
  cb : Nat
deriving DecidableEq, Repr

/-- `find_service` of either side. -/
def findService (services : List RpcService) (id : UInt32) :
    Option RpcService :=
  services.find? (·.id = id)

/-- The three fields of a `struct rpmsg_rpc_answer` on the stack. -/
def answerStruct (stack : Mem) (rpcId : UInt32) (status : Int32)
    (params : List UInt8) : Mem :=
  let msg := writeBytes stack 0 (leBytes 4 rpcId.toNat)
  let msg := writeBytes msg 4 (leBytes 4 status.toUInt32.toNat)
  writeBytes msg 8 params

/-- `rpmsg_rpc_server_send`: the bytes given to `rpmsg_send`. -/
def rpmsgRpcServerSend (stack : Mem) (rpcId : UInt32) (status : Int32)
    (params : List UInt8) : Except Int (List UInt8) :=
  if MAX_BUF_LEN - 4 < params.length then .error (-EINVAL)
  else .ok (readBytes (answerStruct stack rpcId status params) 0
    (MAX_FUNC_ID_LEN + params.length))

/-- A call of an `app_cb`. `data` is an offset into the message. -/
structure AppCall where
  cb : Nat
  status : Int32
  data : Nat
  len : Nat
deriving DecidableEq, Repr

/-- `rpmsg_endpoint_client_cb` on the `len` bytes at the start of
`data`. -/
def rpmsgEndpointClientCb (services : List RpcService) (data : Mem)
    (len : Nat) : Except Int AppCall :=
  match findService services (UInt32.ofNat (loadLE data 0 4)) with
  | none => .error (-EINVAL)
  | some service =>
    .ok ⟨service.cb, (UInt32.ofNat (loadLE data 4 4)).toInt32, 8, len⟩

/-- What `rpmsg_rpc_client_send` does: how many bytes it writes to its
local buffer from the start on, and those it gives to `rpmsg_send`. -/
structure ClientSend where
  written : Nat
  msg : List UInt8
deriving DecidableEq, Repr

/-- `rpmsg_rpc_client_send`, up to the result of `rpmsg_send`. -/
def rpmsgRpcClientSend (rpcId : UInt32) (params : List UInt8) : ClientSend :=
  ⟨MAX_FUNC_ID_LEN + params.length, leBytes 4 rpcId.toNat ++ params⟩

/-- What `rpmsg_endpoint_server_cb` does with a request. -/
inductive ServerAction where
  | refuse (ret : Int)
  | call (service : RpcService) (buf : Mem)
  | answer (msg : Except Int (List UInt8))

/-- `rpmsg_endpoint_server_cb`: `*buf` is the first byte. `stack` is what
`buf` and the answer hold before. -/
def rpmsgEndpointServerCb (services : List RpcService) (stack : Mem)
    (data : List UInt8) : ServerAction :=
  if MAX_BUF_LEN < data.length then .refuse (-EINVAL)
  else
    let buf := writeBytes stack 0 data
    let id := (buf 0).toUInt32
    match findService services id with
    | some service => .call service buf
    | none => .answer (rpmsgRpcServerSend stack id RPMSG_RPC_INVALID_ID [])

theorem findService_isSome {services : List RpcService} {id : UInt32}
    (h : ∃ s ∈ services, s.id = id) :
    ∃ s, findService services id = some s ∧ s ∈ services ∧ s.id = id := by
  obtain ⟨s, hs, hid⟩ := h
  cases hfind : findService services id with
  | none =>
    have := List.find?_eq_none.mp hfind s hs
    simp [hid] at this
  | some t =>
    refine ⟨t, rfl, List.mem_of_find?_eq_some hfind, ?_⟩
    simpa using List.find?_some hfind

/-! ## Answers -/

/-- **An answer on the wire** is the id and then as many bytes of status
and parameters as there are parameters. -/
theorem rpmsgRpcServerSend_ok (stack : Mem) (rpcId : UInt32) (status : Int32)
    {params : List UInt8} (h : params.length ≤ MAX_BUF_LEN - 4) :
    rpmsgRpcServerSend stack rpcId status params =
      .ok (leBytes 4 rpcId.toNat ++
        (leBytes 4 status.toUInt32.toNat ++ params).take params.length) := by
  have hstruct : answerStruct stack rpcId status params =
      writeBytes stack 0 (leBytes 4 rpcId.toNat ++
        (leBytes 4 status.toUInt32.toNat ++ params)) := by
    have h₁ := writeBytes_append stack 0 (leBytes 4 rpcId.toNat)
      (leBytes 4 status.toUInt32.toNat)
    have h₂ := writeBytes_append stack 0
      (leBytes 4 rpcId.toNat ++ leBytes 4 status.toUInt32.toNat) params
    simp only [List.length_append, length_leBytes, Nat.zero_add] at h₁ h₂
    simp only [answerStruct]
    rw [h₁, h₂, List.append_assoc]
  rw [rpmsgRpcServerSend, if_neg (by omega), hstruct]
  rw [readBytes_writeBytes_take stack 0 (by simp [MAX_FUNC_ID_LEN]),
    List.take_append, length_leBytes,
    List.take_of_length_le (by simp [MAX_FUNC_ID_LEN])]
  simp [MAX_FUNC_ID_LEN]

/-- The answer, delivered into `buffer`, makes the client call the service
with the status and the parameters, all of them inside the message. -/
def AnswerArrives (services : List RpcService) (rpcId : UInt32)
    (status : Int32) (params : List UInt8) (stack buffer : Mem) : Prop :=
  ∃ msg call, rpmsgRpcServerSend stack rpcId status params = .ok msg ∧
    rpmsgEndpointClientCb services (writeBytes buffer 0 msg) msg.length =
      .ok call ∧
    (∃ s ∈ services, s.id = rpcId ∧ call.cb = s.cb) ∧
    call.status = status ∧
    ∀ i (h : i < params.length), call.data + i < msg.length ∧
      writeBytes buffer 0 msg (call.data + i) = params[i]

/-- The first word of a message that starts with it. -/
theorem loadLE_first (buffer : Mem) (v : UInt32) (rest : List UInt8) :
    loadLE (writeBytes buffer 0 (leBytes 4 v.toNat ++ rest)) 0 4 = v.toNat := by
  apply loadLE_of_readBytes 4 v.toNat_lt
  rw [readBytes_writeBytes_take buffer 0 (by simp), List.take_left' (by simp)]

theorem rpmsgEndpointClientCb_ok {services : List RpcService} {rpcId : UInt32}
    (hid : ∃ s ∈ services, s.id = rpcId) (buffer : Mem) (rest : List UInt8)
    (len : Nat) : ∃ s ∈ services, s.id = rpcId ∧
      rpmsgEndpointClientCb services
        (writeBytes buffer 0 (leBytes 4 rpcId.toNat ++ rest)) len =
      .ok ⟨s.cb, (UInt32.ofNat (loadLE (writeBytes buffer 0
        (leBytes 4 rpcId.toNat ++ rest)) 4 4)).toInt32, 8, len⟩ := by
  obtain ⟨s, hfind, hs, hsid⟩ := findService_isSome hid
  refine ⟨s, hs, hsid, ?_⟩
  rw [rpmsgEndpointClientCb, loadLE_first, UInt32.ofNat_toNat, hfind]

/-- **Answers round-trip** exactly when there are no parameters, and the
receive buffer happens to hold the status behind the id. -/
theorem rpc_answer_arrives_iff {services : List RpcService} {rpcId : UInt32}
    (hid : ∃ s ∈ services, s.id = rpcId) (status : Int32)
    {params : List UInt8} (hsize : params.length ≤ MAX_BUF_LEN - 4)
    (stack buffer : Mem) :
    AnswerArrives services rpcId status params stack buffer ↔
      params = [] ∧ loadLE buffer 4 4 = status.toUInt32.toNat := by
  have hsend := rpmsgRpcServerSend_ok stack rpcId status hsize
  obtain ⟨s, hs, hsid, hcb⟩ := rpmsgEndpointClientCb_ok hid buffer
    ((leBytes 4 status.toUInt32.toNat ++ params).take params.length)
    (4 + params.length)
  have hlen : (leBytes 4 rpcId.toNat ++ (leBytes 4 status.toUInt32.toNat ++
      params).take params.length).length = 4 + params.length := by
    simp
  -- without parameters the message ends behind the id
  have hempty : params = [] → loadLE (writeBytes buffer 0
      (leBytes 4 rpcId.toNat ++ (leBytes 4 status.toUInt32.toNat ++
        params).take params.length)) 4 4 = loadLE buffer 4 4 := by
    rintro rfl
    apply loadLE_congr
    apply agree_writeBytes
    simp
  constructor
  · rintro ⟨msg, call, hmsg, hcall, -, hstatus, hdata⟩
    rw [hsend] at hmsg
    cases hmsg
    rw [hlen, hcb] at hcall
    cases hcall
    have hnil : params = [] := by
      by_contra hne
      have hpos := List.length_pos_iff.mpr hne
      have := (hdata (params.length - 1) (by omega)).1
      rw [hlen] at this
      simp only at this
      omega
    refine ⟨hnil, ?_⟩
    simp only [hempty hnil] at hstatus
    rw [← hstatus, UInt32.toUInt32_toInt32, UInt32.toNat_ofNat_of_lt']
    exact loadLE_lt buffer 4 4
  · rintro ⟨hnil, hstale⟩
    rw [hempty hnil, hstale, UInt32.ofNat_toNat,
      Int32.toInt32_toUInt32] at hcb
    refine ⟨_, _, hsend, by rw [hlen, hcb], ⟨s, hs, hsid, rfl⟩, rfl, ?_⟩
    · intro i hi
      rw [hnil] at hi
      cases hi

/-- A call that went well, answered with no parameters into a buffer of
zeros. -/
theorem rpc_ok_arrives :
    AnswerArrives [⟨1, 0⟩] 1 0 [] (fun _ => 0) (fun _ => 0) :=
  (rpc_answer_arrives_iff ⟨⟨1, 0⟩, by simp⟩ 0 (by decide) _ _).mpr
    ⟨rfl, by decide⟩

/-- One byte of parameters, and what the client is told is a byte of the
status, which here says 0 for -1 but for that byte. -/
theorem rpc_answer_lost :
    rpmsgRpcServerSend (fun _ => 0) 1 (-1) [7] = .ok [1, 0, 0, 0, 255] ∧
    ¬ AnswerArrives [⟨1, 0⟩] 1 (-1) [7] (fun _ => 0) (fun _ => 0) := by
  refine ⟨by decide, fun h => ?_⟩
  obtain ⟨msg, call, hmsg, hcall, -, -, hdata⟩ := h
  have hsend : rpmsgRpcServerSend (fun _ => 0) 1 (-1) [7] =
      .ok [1, 0, 0, 0, 255] := by decide
  rw [hsend] at hmsg
  cases hmsg
  have hcb : rpmsgEndpointClientCb [⟨1, 0⟩]
      (writeBytes (fun _ => 0) 0 [1, 0, 0, 0, 255])
      ([1, 0, 0, 0, 255] : List UInt8).length = .ok ⟨0, 255, 8, 5⟩ := by decide
  rw [hcb] at hcall
  cases hcall
  exact absurd (hdata 0 (by decide)).1 (by decide)

/-! ## Requests -/

/-- The server has called the service with the request, or has answered
that there is none, with id and status inside the answer. -/
def Served (services : List RpcService) (rpcId : UInt32)
    (params : List UInt8) : ServerAction → Prop
  | .refuse _ => False
  | .call service buf => service ∈ services ∧ service.id = rpcId ∧
      readBytes buf 0 (4 + params.length) = leBytes 4 rpcId.toNat ++ params
  | .answer msg => (∀ s ∈ services, s.id ≠ rpcId) ∧
      ∃ rest, msg = .ok (leBytes 4 rpcId.toNat ++
        (leBytes 4 RPMSG_RPC_INVALID_ID.toUInt32.toNat ++ rest))

/-- The request is turned down without a write outside the local buffer,
or it is served where it is delivered; `ret` is what `rpmsg_send`
returns. -/
def RequestArrives (services : List RpcService) (rpcId : UInt32)
    (params : List UInt8) (ret : Int) (stack : Mem) : Prop :=
  let sent := rpmsgRpcClientSend rpcId params
  (ret < 0 ∧ sent.written ≤ MAX_BUF_LEN) ∨
    (0 ≤ ret ∧ Served services rpcId params
      (rpmsgEndpointServerCb services stack sent.msg))

/-- The server takes the lowest byte for the id. -/
theorem rpmsgEndpointServerCb_request {services : List RpcService}
    (stack : Mem) (rpcId : UInt32) {params : List UInt8}
    (h : params.length ≤ MAX_BUF_LEN - MAX_FUNC_ID_LEN) :
    rpmsgEndpointServerCb services stack (rpmsgRpcClientSend rpcId params).msg =
      match findService services (UInt32.ofNat (rpcId.toNat % 256)) with
      | some service => .call service
          (writeBytes stack 0 (leBytes 4 rpcId.toNat ++ params))
      | none => .answer (rpmsgRpcServerSend stack
          (UInt32.ofNat (rpcId.toNat % 256)) RPMSG_RPC_INVALID_ID []) := by
  have hlen : ¬ MAX_BUF_LEN < (leBytes 4 rpcId.toNat ++ params).length := by
    simp only [MAX_BUF_LEN, MAX_FUNC_ID_LEN] at h ⊢
    simp
    omega
  have hbyte : (writeBytes stack 0 (leBytes 4 rpcId.toNat ++ params)
      0).toUInt32 = UInt32.ofNat (rpcId.toNat % 256) := by
    apply UInt32.toNat_inj.mp
    rw [UInt32.toNat_ofNat_of_lt'
      (Nat.lt_trans (Nat.mod_lt _ (by decide)) (by decide))]
    simp [writeBytes, leBytes]
  rw [rpmsgEndpointServerCb, rpmsgRpcClientSend, if_neg hlen]
  simp only [hbyte]

theorem ofNat_mod_eq_iff (rpcId : UInt32) :
    UInt32.ofNat (rpcId.toNat % 256) = rpcId ↔ rpcId < 256 := by
  rw [← UInt32.toNat_inj, UInt32.lt_iff_toNat_lt, UInt32.toNat_ofNat']
  have := rpcId.toNat_lt
  simp only [UInt32.reduceToNat]
  omega

/-- A request that fits is served exactly where its id is a byte and that
of a service: of any other the server knows the lowest byte, and its
answer ends before the status. -/
theorem served_iff (services : List RpcService) (stack : Mem) (rpcId : UInt32)
    {params : List UInt8}
    (h : params.length ≤ MAX_BUF_LEN - MAX_FUNC_ID_LEN) :
    Served services rpcId params (rpmsgEndpointServerCb services stack
      (rpmsgRpcClientSend rpcId params).msg) ↔
    rpcId < 256 ∧ ∃ s ∈ services, s.id = rpcId := by
  rw [rpmsgEndpointServerCb_request stack rpcId h]
  cases hfind : findService services (UInt32.ofNat (rpcId.toNat % 256)) with
  | some service =>
    have hmem : service ∈ services := List.mem_of_find?_eq_some hfind
    have hid : service.id = UInt32.ofNat (rpcId.toNat % 256) := by
      simpa using List.find?_some hfind
    constructor
    · rintro ⟨-, hsame, -⟩
      exact ⟨(ofNat_mod_eq_iff rpcId).mp (hid.symm.trans hsame),
        service, hmem, hsame⟩
    · rintro ⟨hbyte, -⟩
      rw [(ofNat_mod_eq_iff rpcId).mpr hbyte] at hid
      refine ⟨hmem, hid, ?_⟩
      rw [readBytes_writeBytes_take stack 0 (by simp),
        List.take_of_length_le (by simp)]
  | none =>
    constructor
    · rintro ⟨-, rest, hmsg⟩
      rw [rpmsgRpcServerSend_ok _ _ _ (by decide)] at hmsg
      have hlen := congrArg List.length (Except.ok.inj hmsg)
      simp at hlen
    · rintro ⟨hbyte, hreg⟩
      obtain ⟨s, hsome, -, -⟩ := findService_isSome hreg
      rw [(ofNat_mod_eq_iff rpcId).mpr hbyte, hsome] at hfind
      cases hfind

/-- **Requests round-trip** exactly when the parameters fit the local
buffer and, if the message is sent at all, the id is a byte and that of a
service. -/
theorem rpc_request_arrives_iff (services : List RpcService) (rpcId : UInt32)
    (params : List UInt8) (ret : Int) (stack : Mem) :
    RequestArrives services rpcId params ret stack ↔
      params.length ≤ MAX_BUF_LEN - MAX_FUNC_ID_LEN ∧
      (ret < 0 ∨ rpcId < 256 ∧ ∃ s ∈ services, s.id = rpcId) := by
  have hwritten : (rpmsgRpcClientSend rpcId params).written ≤ MAX_BUF_LEN ↔
      params.length ≤ MAX_BUF_LEN - MAX_FUNC_ID_LEN := by
    simp only [rpmsgRpcClientSend, MAX_BUF_LEN, MAX_FUNC_ID_LEN]
    omega
  simp only [RequestArrives, hwritten]
  by_cases hfit : params.length ≤ MAX_BUF_LEN - MAX_FUNC_ID_LEN
  · rw [served_iff services stack rpcId hfit]
    by_cases hret : ret < 0
    · simp [hfit, hret]
    · simp [hfit, hret, Int.not_lt.mp hret]
  · -- a longer request is more than the server takes
    have hlong : MAX_BUF_LEN < (rpmsgRpcClientSend rpcId params).msg.length := by
      simp only [MAX_BUF_LEN, MAX_FUNC_ID_LEN] at hfit ⊢
      simp [rpmsgRpcClientSend]
      omega
    rw [rpmsgEndpointServerCb, if_pos hlong]
    simp [hfit, Served]

/-- Id 257 is answered by service 1. -/
theorem rpc_request_misrouted :
    ¬ RequestArrives [⟨1, 0⟩, ⟨257, 1⟩] 257 [] 4 (fun _ => 0) := by
  rintro (⟨h, -⟩ | ⟨-, h⟩)
  · exact absurd h (by decide)
  · have hcb : rpmsgEndpointServerCb [⟨1, 0⟩, ⟨257, 1⟩] (fun _ => 0)
        (rpmsgRpcClientSend 257 []).msg = .call ⟨1, 0⟩
          (writeBytes (fun _ => 0) 0 (rpmsgRpcClientSend 257 []).msg) := rfl
    rw [hcb] at h
    exact absurd h.2.1 (by decide)

end OpenAmp.Service
