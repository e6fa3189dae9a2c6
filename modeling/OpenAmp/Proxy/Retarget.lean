import OpenAmp.Lib.Bytes
import OpenAmp.Lib.Transition

/-!
# Remote system calls

`rpmsg_rpc_send` and `rpmsg_rpc_ept_cb` of
`open-amp/lib/proxy/rpmsg_retarget.c`. A call stores its response buffer in
`rpc->respbuf`, sets `rpc->nacked`, sends its request and waits until the
callback for an answer has cleared the flag. Buffer, length and flag are
there once, for all callers; `rpc->lock` is initialised and no call takes it.

Each access to the shared fields is a step of its own, as is each part under
`rpc->buflock`, and the steps of any number of calls interleave in any order
with the server and with the callback. The server answers the requests one
by one in the order of their arrival, with whatever bytes it likes.
-/

namespace OpenAmp.Proxy

open OpenAmp.Lib

def EINVAL : Int := 22
def TERM_SYSCALL_ID : Nat := 6

/-! ## Calls and answers -/

/-- A call of `rpmsg_rpc_send`: whether `resp` is a buffer, and `resp_len`. -/
structure RpcCall where
  resp : Bool
  respLen : Nat
deriving DecidableEq, Repr

/-- How far a call has come: not begun, its buffer is stored, the flag is
set, it waits for the flag, it has returned. -/
inductive SendPhase where
  | idle
  | stored
  | armed
  | waiting (ret : Int)
  | returned (ret : Int)
deriving DecidableEq, Repr

/-- The call is in progress. -/
def SendPhase.active : SendPhase → Bool
  | .stored => true
  | .armed => true
  | .waiting _ => true
  | _ => false

/-- An answer that was copied: the call it answers, the call whose buffer it
went to, and whether that one had returned. -/
structure Copy where
  answers : Nat
  buffer : Nat
  late : Bool
deriving DecidableEq, Repr

/-- `struct rpmsg_rpc_data` with the calls that share it, the messages under
way in both directions, and what has happened to the answers so far. Each
call has a buffer of its own, and `respbuf` is known by the call. `copied` is
the callback holding `buflock` between the copy and the flag. -/
structure RpcState where
  respbuf : Option Nat
  respbufLen : Nat
  nacked : Bool
  alive : Bool
  phase : Nat → SendPhase
  buf : Nat → Mem
  requests : List Nat
  replies : List (Nat × List UInt8)
  copied : Bool
  answer : Nat → Option (List UInt8)
  copies : List Copy

/-- The message ends the service. -/
def isTerm (data : List UInt8) : Bool :=
  data.take 4 = leBytes 4 TERM_SYSCALL_ID

variable (calls : Nat → RpcCall)

namespace RpcState

variable (s : RpcState) (c : Nat)

/-- The first part of `rpmsg_rpc_send`, under `buflock`. -/
def store : RpcState :=
  { s with
    respbuf := if (calls c).resp then some c else none
    respbufLen := (calls c).respLen
    phase := Function.update s.phase c .stored }

/-- `atomic_flag_test_and_set`, before the request. -/
def arm : RpcState :=
  { s with nacked := true, phase := Function.update s.phase c .armed }

/-- `rpmsg_send` has failed. -/
def fail : RpcState :=
  { s with phase := Function.update s.phase c (.returned (-EINVAL)) }

/-- `rpmsg_send` has returned `ret`. -/
def send (ret : Int) : RpcState :=
  { s with
    requests := s.requests ++ [c]
    phase := Function.update s.phase c
      (if (calls c).resp then .waiting ret else .returned ret) }

/-- `atomic_flag_test_and_set` in the loop, where the flag was clear. -/
def leave (ret : Int) : RpcState :=
  { s with
    nacked := true
    phase := Function.update s.phase c (.returned ret) }

/-- The server answers the first request. -/
def serve (rest : List Nat) (data : List UInt8) : RpcState :=
  { s with
    requests := rest
    replies := s.replies ++ [(c, data)]
    answer := Function.update s.answer c (some data) }

/-- `rpmsg_rpc_ept_cb` up to the copy. -/
def copy (rest : List (Nat × List UInt8)) (data : List UInt8) : RpcState :=
  match s.respbuf with
  | some d =>
    if s.respbufLen ≠ 0 then
      { s with
        replies := rest
        copied := true
        buf := Function.update s.buf d
          (writeBytes (s.buf d) 0 (data.take s.respbufLen))
        copies := ⟨c, d, !(s.phase d).active⟩ :: s.copies }
    else { s with replies := rest, copied := true }
  | none => { s with replies := rest, copied := true }

/-- The end of `rpmsg_rpc_ept_cb`. -/
def clear : RpcState := { s with nacked := false, copied := false }

/-- `rpmsg_rpc_ept_cb` for the message that ends the service. -/
def terminate (rest : List (Nat × List UInt8)) : RpcState :=
  { s with replies := rest, alive := false }

/-- After `rpmsg_rpc_init`. -/
def start (buf : Nat → Mem) : RpcState where
  respbuf := none
  respbufLen := 0
  nacked := true
  alive := true
  phase _ := .idle
  buf := buf
  requests := []
  replies := []
  copied := false
  answer _ := none
  copies := []

end RpcState

/-- One step. The label is the call that begins, if one does. -/
inductive RpcStep : RpcState → Option Nat → RpcState → Prop where
  | store {s : RpcState} {c : Nat} (h : s.phase c = .idle)
      (hlock : s.copied = false) : RpcStep s (some c) (s.store calls c)
  | arm {s : RpcState} {c : Nat} (h : s.phase c = .stored) :
      RpcStep s none (s.arm c)
  | fail {s : RpcState} {c : Nat} (h : s.phase c = .armed) :
      RpcStep s none (s.fail c)
  | send {s : RpcState} {c : Nat} (h : s.phase c = .armed) {ret : Int}
      (hret : 0 ≤ ret) : RpcStep s none (s.send calls c ret)
  | spin {s : RpcState} {c : Nat} {ret : Int} (h : s.phase c = .waiting ret)
      (hflag : s.nacked = true) : RpcStep s none s
  | leave {s : RpcState} {c : Nat} {ret : Int} (h : s.phase c = .waiting ret)
      (hflag : s.nacked = false) : RpcStep s none (s.leave c ret)
  | serve {s : RpcState} {c : Nat} {rest : List Nat}
      (h : s.requests = c :: rest) (data : List UInt8) :
      RpcStep s none (s.serve c rest data)
  | copy {s : RpcState} {c : Nat} {data : List UInt8}
      {rest : List (Nat × List UInt8)} (h : s.replies = (c, data) :: rest)
      (halive : s.alive = true) (hlock : s.copied = false)
      (hterm : isTerm data = false) : RpcStep s none (s.copy c rest data)
  | clear {s : RpcState} (h : s.copied = true) : RpcStep s none s.clear
  | terminate {s : RpcState} {c : Nat} {data : List UInt8}
      {rest : List (Nat × List UInt8)} (h : s.replies = (c, data) :: rest)
      (halive : s.alive = true) (hterm : isTerm data = true) :
      RpcStep s none (s.terminate rest)

def RpcState.Init (s : RpcState) : Prop := ∃ buf, s = RpcState.start buf

/-- The states that any interleaving leads to. -/
def RpcReachable (s : RpcState) : Prop :=
  Reachable RpcState.Init (fun s t => ∃ l, RpcStep calls s l t) s

/-! ## Own answers -/

/-- The buffer holds the answer, as much of it as fits. -/
def HoldsAnswer (s : RpcState) (c : Nat) (data : List UInt8) : Prop :=
  readBytes (s.buf c) 0 (data.take (calls c).respLen).length =
    data.take (calls c).respLen

/-- Who returns has the answer to its request, and no answer went to the
buffer of another call or of one that had returned. -/
structure OwnAnswers (s : RpcState) : Prop where
  returned : ∀ c ret, s.phase c = .returned ret → 0 ≤ ret →
    (calls c).resp = true →
    ∃ data, s.answer c = some data ∧ HoldsAnswer calls s c data
  copies : ∀ w ∈ s.copies, w.answers = w.buffer ∧ w.late = false

/-- A call with a buffer begins when nothing is under way, one without
where no call with a buffer is in progress. -/
def MayStart (s : RpcState) (c : Nat) : Prop :=
  if (calls c).resp then
    (∀ d, (s.phase d).active = false) ∧ s.requests = [] ∧ s.replies = [] ∧
      s.copied = false
  else ∀ d, (s.phase d).active = true → (calls d).resp = false

/-- The states of a run in which the calls begin like that. -/
def OrderlyReachable (s : RpcState) : Prop :=
  Reachable RpcState.Init (fun s t => ∃ l, RpcStep calls s l t ∧
    ∀ c, l = some c → MayStart calls s c) s

/-! ## Orderly runs -/

/-- Nothing is under way. -/
structure Quiet (s : RpcState) : Prop where
  idle : ∀ d, (s.phase d).active = false
  requests : s.requests = []
  replies : s.replies = []
  copied : s.copied = false

/-- There is no buffer for an answer, and nobody waits for one. -/
structure Blind (s : RpcState) : Prop where
  respbuf : s.respbuf = none
  callers : ∀ d, (s.phase d).active = true → (calls d).resp = false
  requests : ∀ d ∈ s.requests, (calls d).resp = false

/-- Where the only call in progress stands with its answer. -/
inductive Stage (s : RpcState) (c : Nat) : Prop where
  | stored (h : s.phase c = .stored) (hreq : s.requests = [])
      (hrep : s.replies = []) (hcb : s.copied = false)
  | armed (h : s.phase c = .armed) (hflag : s.nacked = true)
      (hreq : s.requests = []) (hrep : s.replies = []) (hcb : s.copied = false)
  | asked (ret : Int) (h : s.phase c = .waiting ret) (hflag : s.nacked = true)
      (hreq : s.requests = [c]) (hrep : s.replies = []) (hcb : s.copied = false)
  | replied (ret : Int) (data : List UInt8) (h : s.phase c = .waiting ret)
      (hflag : s.nacked = true) (hreq : s.requests = [])
      (hrep : s.replies = [(c, data)]) (hcb : s.copied = false)
      (hans : s.answer c = some data)
  | copied (ret : Int) (data : List UInt8) (h : s.phase c = .waiting ret)
      (hflag : s.nacked = true) (hreq : s.requests = [])
      (hrep : s.replies = []) (hcb : s.copied = true)
      (hans : s.answer c = some data) (hbuf : HoldsAnswer calls s c data)
  | ready (ret : Int) (data : List UInt8) (h : s.phase c = .waiting ret)
      (hreq : s.requests = []) (hrep : s.replies = []) (hcb : s.copied = false)
      (hans : s.answer c = some data) (hbuf : HoldsAnswer calls s c data)
  | lost (ret : Int) (h : s.phase c = .waiting ret) (hflag : s.nacked = true)
      (hreq : s.requests = []) (hrep : s.replies = []) (hcb : s.copied = false)

/-- A call with a buffer is the only one in progress. -/
structure Alone (s : RpcState) (c : Nat) : Prop where
  resp : (calls c).resp = true
  others : ∀ d, (s.phase d).active = true → d = c
  respbuf : s.respbuf = some c
  respbufLen : s.respbufLen = (calls c).respLen
  stage : Stage calls s c

/-- What holds in an orderly run. -/
structure RpcInv (s : RpcState) : Prop where
  own : OwnAnswers calls s
  mode : Quiet s ∨ Blind calls s ∨ ∃ c, Alone calls s c

variable {calls} {s t : RpcState} {c : Nat}

theorem Stage.active (h : Stage calls s c) : (s.phase c).active = true := by
  cases h <;> simp only [*, SendPhase.active]

/-- A step that touches no call that has returned with a buffer, and copies
to the right place if at all. -/
theorem OwnAnswers.keep (h : OwnAnswers calls s)
    (hphase : ∀ d ret, t.phase d = .returned ret → 0 ≤ ret →
      (calls d).resp = true → s.phase d = .returned ret)
    (hkeep : ∀ d ret, s.phase d = .returned ret → (calls d).resp = true →
      t.answer d = s.answer d ∧ t.buf d = s.buf d)
    (hcopies : ∀ w ∈ t.copies, w ∈ s.copies ∨
      w.answers = w.buffer ∧ w.late = false) : OwnAnswers calls t := by
  constructor
  · intro d ret hd hret hresp
    have hd' := hphase d ret hd hret hresp
    obtain ⟨data, hans, hbuf⟩ := h.returned d ret hd' hret hresp
    obtain ⟨h1, h2⟩ := hkeep d ret hd' hresp
    refine ⟨data, h1.trans hans, ?_⟩
    rw [HoldsAnswer, h2]
    exact hbuf
  · intro w hw
    rcases hcopies w hw with hold | hnew
    · exact h.copies w hold
    · exact hnew

/-- A step of one call that does not return with a buffer. -/
theorem OwnAnswers.moved (h : OwnAnswers calls s) {p : SendPhase}
    (hphase : t.phase = Function.update s.phase c p)
    (hp : ∀ ret, p = .returned ret → 0 ≤ ret → (calls c).resp = false)
    (hans : t.answer = s.answer) (hbuf : t.buf = s.buf)
    (hcopies : t.copies = s.copies) : OwnAnswers calls t := by
  refine h.keep (fun d ret hd hret hresp => ?_) (fun d ret _ _ => ?_)
    fun w hw => .inl (hcopies ▸ hw)
  · rw [hphase] at hd
    by_cases hdc : d = c
    · subst hdc
      rw [Function.update_self] at hd
      rw [hp ret hd hret] at hresp
      cases hresp
    · rwa [Function.update_of_ne hdc] at hd
  · rw [hans, hbuf]
    exact ⟨rfl, rfl⟩

theorem active_update_iff (phase : Nat → SendPhase) (p : SendPhase) (d : Nat) :
    (Function.update phase c p d).active = true ↔
      d = c ∧ p.active = true ∨ d ≠ c ∧ (phase d).active = true := by
  by_cases hdc : d = c
  · subst hdc
    simp
  · simp [hdc]

/-! ### Beginning -/

/-- A call with a buffer begins. -/
theorem Quiet.store_resp (h : Quiet s) (hresp : (calls c).resp = true) :
    Alone calls (s.store calls c) c where
  resp := hresp
  others := by
    intro d hd
    rcases (active_update_iff s.phase .stored d).mp hd with ⟨hdc, -⟩ | ⟨-, ha⟩
    · exact hdc
    · rw [h.idle d] at ha
      cases ha
  respbuf := if_pos hresp
  respbufLen := rfl
  stage := .stored (Function.update_self ..) h.requests h.replies h.copied

/-- A call without one begins. -/
theorem store_blind (hresp : (calls c).resp = false)
    (hcallers : ∀ d, (s.phase d).active = true → (calls d).resp = false)
    (hreq : ∀ d ∈ s.requests, (calls d).resp = false) :
    Blind calls (s.store calls c) where
  respbuf := if_neg (by simp [hresp])
  callers := by
    intro d hd
    rcases (active_update_iff s.phase .stored d).mp hd with ⟨rfl, -⟩ | ⟨-, ha⟩
    · exact hresp
    · exact hcallers d ha
  requests := hreq

theorem RpcInv.store (h : RpcInv calls s) (hmay : MayStart calls s c) :
    RpcInv calls (s.store calls c) := by
  have hown : OwnAnswers calls (s.store calls c) :=
    h.own.moved (p := .stored) rfl (fun _ hp => by cases hp) rfl rfl rfl
  refine ⟨hown, ?_⟩
  cases hresp : (calls c).resp with
  | true =>
    rw [MayStart, if_pos hresp] at hmay
    obtain ⟨hidle, hreq, hrep, hcb⟩ := hmay
    exact .inr (.inr ⟨c, Quiet.store_resp ⟨hidle, hreq, hrep, hcb⟩ hresp⟩)
  | false =>
    rw [MayStart, if_neg (by simp [hresp])] at hmay
    refine .inr (.inl (store_blind hresp hmay ?_))
    rcases h.mode with hq | hb | ⟨d, ha⟩
    · rw [hq.requests]
      exact fun d hd => by cases hd
    · exact hb.requests
    · -- a call with a buffer is in progress
      have hno := hmay d ha.stage.active
      rw [ha.resp] at hno
      cases hno

/-! ### Calls without a buffer -/

theorem Blind.moved (h : Blind calls s) {p : SendPhase}
    (hc : (s.phase c).active = true)
    (hphase : t.phase = Function.update s.phase c p)
    (hbuf : t.respbuf = s.respbuf)
    (hreq : ∀ d ∈ t.requests, d ∈ s.requests ∨ d = c) : Blind calls t where
  respbuf := hbuf.trans h.respbuf
  callers := by
    intro d hd
    rw [hphase] at hd
    rcases (active_update_iff s.phase p d).mp hd with ⟨rfl, -⟩ | ⟨-, ha⟩
    · exact h.callers d hc
    · exact h.callers d ha
  requests := by
    intro d hd
    rcases hreq d hd with hold | rfl
    · exact h.requests d hold
    · exact h.callers d hc

/-- An answer that nobody waits for is dropped. -/
theorem Blind.copy (h : Blind calls s) (rest : List (Nat × List UInt8))
    (data : List UInt8) :
    s.copy c rest data = { s with replies := rest, copied := true } := by
  rw [RpcState.copy, h.respbuf]

theorem Blind.step (h : Blind calls s) (hown : OwnAnswers calls s)
    (hstep : RpcStep calls s none t) : OwnAnswers calls t ∧ Blind calls t := by
  cases hstep with
  | @arm c hp =>
    have hc : (s.phase c).active = true := by rw [hp]; rfl
    exact ⟨hown.moved (p := .armed) rfl (fun _ hq => by cases hq) rfl rfl rfl,
      h.moved hc rfl rfl fun d hd => .inl hd⟩
  | @fail c hp =>
    have hc : (s.phase c).active = true := by rw [hp]; rfl
    exact ⟨hown.moved rfl (fun _ _ _ => h.callers c hc) rfl rfl rfl,
      h.moved hc rfl rfl fun d hd => .inl hd⟩
  | @send c hp ret hret =>
    have hc : (s.phase c).active = true := by rw [hp]; rfl
    refine ⟨hown.moved rfl (fun _ _ _ => h.callers c hc) rfl rfl rfl,
      h.moved hc rfl rfl fun d hd => ?_⟩
    simpa [RpcState.send] using hd
  | spin _ _ => exact ⟨hown, h⟩
  | @leave c ret hp _ =>
    have hc : (s.phase c).active = true := by rw [hp]; rfl
    exact ⟨hown.moved rfl (fun _ _ _ => h.callers c hc) rfl rfl rfl,
      h.moved hc rfl rfl fun d hd => .inl hd⟩
  | @serve c rest hreq data =>
    have hc : (calls c).resp = false :=
      h.requests c (by rw [hreq]; exact List.mem_cons_self)
    refine ⟨hown.keep (fun _ _ hd _ _ => hd) (fun d ret _ hresp => ?_)
      fun w hw => .inl hw, h.respbuf, h.callers, fun d hd => ?_⟩
    · refine ⟨Function.update_of_ne ?_ _ _, rfl⟩
      rintro rfl
      rw [hc] at hresp
      cases hresp
    · exact h.requests d (by rw [hreq]; exact List.mem_cons_of_mem c hd)
  | copy _ _ _ _ =>
    rw [h.copy]
    exact ⟨⟨hown.returned, hown.copies⟩, h.respbuf, h.callers, h.requests⟩
  | clear _ =>
    exact ⟨⟨hown.returned, hown.copies⟩, h.respbuf, h.callers, h.requests⟩
  | terminate _ _ _ =>
    exact ⟨⟨hown.returned, hown.copies⟩, h.respbuf, h.callers, h.requests⟩

/-! ### A call with a buffer -/

/-- The call in progress moves on, and nothing else changes that the others
see. -/
theorem Alone.moved (h : Alone calls s c) {p : SendPhase}
    (hphase : t.phase = Function.update s.phase c p)
    (hbuf : t.respbuf = s.respbuf) (hlen : t.respbufLen = s.respbufLen)
    (hstage : Stage calls t c) : Alone calls t c where
  resp := h.resp
  others := by
    intro d hd
    rw [hphase] at hd
    rcases (active_update_iff s.phase p d).mp hd with ⟨hdc, -⟩ | ⟨-, ha⟩
    · exact hdc
    · exact h.others d ha
  respbuf := hbuf.trans h.respbuf
  respbufLen := hlen.trans h.respbufLen
  stage := hstage

/-- The call in progress returns, and nothing is under way any more. -/
theorem Alone.over (h : Alone calls s c) {ret : Int}
    (hphase : t.phase = Function.update s.phase c (.returned ret))
    (hreq : t.requests = []) (hrep : t.replies = []) (hcb : t.copied = false) :
    Quiet t where
  idle := by
    intro d
    rw [hphase]
    by_cases hdc : d = c
    · subst hdc
      rw [Function.update_self]
      rfl
    · rw [Function.update_of_ne hdc]
      by_contra hno
      exact hdc (h.others d (by simpa using hno))
  requests := hreq
  replies := hrep
  copied := hcb

theorem Stage.of_stored (h : Stage calls s c) (hp : s.phase c = .stored) :
    s.requests = [] ∧ s.replies = [] ∧ s.copied = false := by
  cases h with
  | stored _ hreq hrep hcb => exact ⟨hreq, hrep, hcb⟩
  | _ => simp_all

theorem Stage.of_armed (h : Stage calls s c) (hp : s.phase c = .armed) :
    s.nacked = true ∧ s.requests = [] ∧ s.replies = [] ∧ s.copied = false := by
  cases h with
  | armed _ hflag hreq hrep hcb => exact ⟨hflag, hreq, hrep, hcb⟩
  | _ => simp_all

/-- The flag is clear only when the answer is in the buffer. -/
theorem Stage.of_clear {ret : Int} (h : Stage calls s c)
    (hp : s.phase c = .waiting ret) (hflag : s.nacked = false) :
    s.requests = [] ∧ s.replies = [] ∧ s.copied = false ∧
    ∃ data, s.answer c = some data ∧ HoldsAnswer calls s c data := by
  cases h with
  | ready _ data _ hreq hrep hcb hans hbuf =>
    exact ⟨hreq, hrep, hcb, data, hans, hbuf⟩
  | _ => simp_all

theorem Alone.arm (h : Alone calls s c) (hown : OwnAnswers calls s)
    (hp : s.phase c = .stored) : RpcInv calls (s.arm c) := by
  obtain ⟨hreq, hrep, hcb⟩ := h.stage.of_stored hp
  refine ⟨hown.moved (p := .armed) rfl (fun _ hq => by cases hq) rfl rfl rfl,
    .inr (.inr ⟨c, h.moved rfl rfl rfl ?_⟩)⟩
  exact .armed (Function.update_self ..) rfl hreq hrep hcb

theorem Alone.fail (h : Alone calls s c) (hown : OwnAnswers calls s)
    (hp : s.phase c = .armed) : RpcInv calls (s.fail c) := by
  obtain ⟨-, hreq, hrep, hcb⟩ := h.stage.of_armed hp
  refine ⟨hown.moved rfl (fun ret hq hret => ?_) rfl rfl rfl,
    .inl (h.over rfl hreq hrep hcb)⟩
  cases hq
  exact absurd hret (by decide)

theorem Alone.send (h : Alone calls s c) (hown : OwnAnswers calls s)
    (hp : s.phase c = .armed) (ret : Int) : RpcInv calls (s.send calls c ret) := by
  obtain ⟨hflag, hreq, hrep, hcb⟩ := h.stage.of_armed hp
  have hwait : (s.send calls c ret).phase =
      Function.update s.phase c (.waiting ret) := by
    simp only [RpcState.send, h.resp, if_true]
  refine ⟨hown.moved hwait (fun _ hq => by cases hq) rfl rfl rfl,
    .inr (.inr ⟨c, h.moved hwait rfl rfl ?_⟩)⟩
  refine .asked ret ?_ hflag ?_ hrep hcb
  · rw [hwait, Function.update_self]
  · show s.requests ++ [c] = [c]
    rw [hreq, List.nil_append]

theorem Alone.leave (h : Alone calls s c) (hown : OwnAnswers calls s) {ret : Int}
    (hp : s.phase c = .waiting ret) (hflag : s.nacked = false) :
    RpcInv calls (s.leave c ret) := by
  obtain ⟨hreq, hrep, hcb, data, hans, hbuf⟩ := h.stage.of_clear hp hflag
  refine ⟨⟨fun d r hd hr hresp => ?_, hown.copies⟩, .inl (h.over rfl hreq hrep hcb)⟩
  by_cases hdc : d = c
  · subst hdc
    exact ⟨data, hans, hbuf⟩
  · have hd' : s.phase d = .returned r := by
      have hsame : (s.leave c ret).phase d = s.phase d :=
        Function.update_of_ne hdc _ _
      rwa [hsame] at hd
    exact hown.returned d r hd' hr hresp

/-- The call in progress is not one that has returned. -/
theorem Alone.ne_returned (h : Alone calls s c) {d : Nat} {ret : Int}
    (hd : s.phase d = .returned ret) : d ≠ c := by
  rintro rfl
  have hactive := h.stage.active
  rw [hd] at hactive
  cases hactive

/-- While the call waits, the server and the callback do not change how far
the calls have come. -/
theorem Alone.waits (h : Alone calls s c) (hphase : t.phase = s.phase)
    (hbuf : t.respbuf = s.respbuf) (hlen : t.respbufLen = s.respbufLen)
    (hstage : Stage calls t c) : Alone calls t c where
  resp := h.resp
  others := by
    rw [hphase]
    exact h.others
  respbuf := hbuf.trans h.respbuf
  respbufLen := hlen.trans h.respbufLen
  stage := hstage

theorem Alone.serve (h : Alone calls s c) (hown : OwnAnswers calls s) {d : Nat}
    {rest : List Nat} (hreq : s.requests = d :: rest) (data : List UInt8) :
    RpcInv calls (s.serve d rest data) := by
  cases h.stage with
  | asked ret hp hflag hreq' hrep hcb =>
    rw [hreq'] at hreq
    obtain ⟨rfl, rfl⟩ := List.cons.inj hreq
    refine ⟨hown.keep (fun _ _ hd _ _ => hd) (fun e r he _ => ?_)
      fun w hw => .inl hw, .inr (.inr ⟨c, h.waits rfl rfl rfl ?_⟩)⟩
    · exact ⟨Function.update_of_ne (h.ne_returned he) _ _, rfl⟩
    · refine .replied ret data hp hflag rfl ?_ hcb (Function.update_self ..)
      show s.replies ++ [(c, data)] = [(c, data)]
      rw [hrep, List.nil_append]
  | _ => simp_all

theorem Alone.copy (h : Alone calls s c) (hown : OwnAnswers calls s) {d : Nat}
    {data : List UInt8} {rest : List (Nat × List UInt8)}
    (hrep : s.replies = (d, data) :: rest) :
    RpcInv calls (s.copy d rest data) := by
  cases h.stage with
  | replied ret data' hp hflag hreq hrep' hcb hans =>
    rw [hrep'] at hrep
    obtain ⟨hpair, rfl⟩ := List.cons.inj hrep
    cases hpair
    have hactive := h.stage.active
    by_cases hlen : s.respbufLen = 0
    · -- a buffer of no bytes holds no byte of the answer
      have hstate : s.copy c [] data = { s with replies := [], copied := true } := by
        simp only [RpcState.copy, h.respbuf, hlen, ne_eq, not_true, if_false]
      rw [hstate]
      refine ⟨⟨hown.returned, hown.copies⟩, .inr (.inr ⟨c, h.waits rfl rfl rfl
        (.copied ret data hp hflag hreq rfl rfl hans ?_)⟩)⟩
      rw [HoldsAnswer, ← h.respbufLen, hlen]
      rfl
    · have hstate : s.copy c [] data = { s with
          replies := []
          copied := true
          buf := Function.update s.buf c
            (writeBytes (s.buf c) 0 (data.take s.respbufLen))
          copies := ⟨c, c, false⟩ :: s.copies } := by
        simp only [RpcState.copy, h.respbuf, ne_eq, hlen, not_false_eq_true,
          if_true, hactive, Bool.not_true]
      rw [hstate]
      refine ⟨hown.keep (fun _ _ hd _ _ => hd) (fun e r he _ => ?_)
        (fun w hw => ?_), .inr (.inr ⟨c, h.waits rfl rfl rfl
        (.copied ret data hp hflag hreq rfl rfl hans ?_)⟩)⟩
      · exact ⟨rfl, Function.update_of_ne (h.ne_returned he) _ _⟩
      · rcases List.mem_cons.mp hw with rfl | hold
        · exact .inr ⟨rfl, rfl⟩
        · exact .inl hold
      · show readBytes (Function.update s.buf c _ c) 0 _ = _
        rw [Function.update_self, ← h.respbufLen,
          readBytes_writeBytes_take _ _ (Nat.le_refl _), List.take_length]
  | _ => simp_all

theorem Alone.clear (h : Alone calls s c) (hown : OwnAnswers calls s)
    (hcb : s.copied = true) : RpcInv calls s.clear := by
  cases h.stage with
  | copied ret data hp hflag hreq hrep _ hans hbuf =>
    exact ⟨⟨hown.returned, hown.copies⟩, .inr (.inr ⟨c, h.waits rfl rfl rfl
      (.ready ret data hp hreq hrep rfl hans hbuf)⟩)⟩
  | _ => simp_all

theorem Alone.terminate (h : Alone calls s c) (hown : OwnAnswers calls s)
    {d : Nat} {data : List UInt8} {rest : List (Nat × List UInt8)}
    (hrep : s.replies = (d, data) :: rest) : RpcInv calls (s.terminate rest) := by
  cases h.stage with
  | replied ret data' hp hflag hreq hrep' hcb hans =>
    rw [hrep'] at hrep
    obtain ⟨-, rfl⟩ := List.cons.inj hrep
    exact ⟨⟨hown.returned, hown.copies⟩, .inr (.inr ⟨c, h.waits rfl rfl rfl
      (.lost ret hp hflag hreq rfl hcb)⟩)⟩
  | _ => simp_all

theorem Alone.step (h : Alone calls s c) (hown : OwnAnswers calls s)
    (hstep : RpcStep calls s none t) : RpcInv calls t := by
  have hme : ∀ d p, s.phase d = p → p.active = true → d = c := by
    intro d p hd hp
    exact h.others d (by rw [hd]; exact hp)
  cases hstep with
  | arm hp =>
    cases hme _ _ hp rfl
    exact h.arm hown hp
  | fail hp =>
    cases hme _ _ hp rfl
    exact h.fail hown hp
  | send hp _ =>
    cases hme _ _ hp rfl
    exact h.send hown hp _
  | spin _ _ => exact ⟨hown, .inr (.inr ⟨c, h⟩)⟩
  | leave hp hflag =>
    cases hme _ _ hp rfl
    exact h.leave hown hp hflag
  | serve hreq data => exact h.serve hown hreq data
  | copy hrep _ _ _ => exact h.copy hown hrep
  | clear hcb => exact h.clear hown hcb
  | terminate hrep _ _ => exact h.terminate hown hrep

/-- Where nothing is under way, nothing happens but a call that begins. -/
theorem Quiet.step (h : Quiet s) (hstep : RpcStep calls s none t) : False := by
  have hidle : ∀ d p, s.phase d = p → p.active = false := by
    intro d p hd
    rw [← hd]
    exact h.idle d
  have hreq := h.requests
  have hrep := h.replies
  have hcb := h.copied
  cases hstep with
  | arm hp => cases hidle _ _ hp
  | fail hp => cases hidle _ _ hp
  | send hp _ => cases hidle _ _ hp
  | spin hp _ => cases hidle _ _ hp
  | leave hp _ => cases hidle _ _ hp
  | serve h' _ => simp_all
  | copy h' _ _ _ => simp_all
  | clear h' => simp_all
  | terminate h' _ _ => simp_all

/-- One step of an orderly run. -/
theorem RpcInv.step (h : RpcInv calls s) {l : Option Nat}
    (hstep : RpcStep calls s l t) (hmay : ∀ c, l = some c → MayStart calls s c) :
    RpcInv calls t := by
  cases l with
  | some c =>
    cases hstep
    exact h.store (hmay c rfl)
  | none =>
    rcases h.mode with hq | hb | ⟨c, ha⟩
    · exact (hq.step hstep).elim
    · obtain ⟨hown, hb'⟩ := hb.step h.own hstep
      exact ⟨hown, .inr (.inl hb')⟩
    · exact ha.step h.own hstep

theorem OrderlyReachable.inv (h : OrderlyReachable calls s) : RpcInv calls s := by
  refine Reachable.invariant (fun s hs => ?_) (fun s t _ hs hst => ?_) h
  · obtain ⟨buf, rfl⟩ := hs
    refine ⟨⟨?_, ?_⟩, .inl ⟨fun _ => rfl, rfl, rfl, rfl⟩⟩
    · intro c ret hc
      cases hc
    · intro w hw
      cases hw
  · obtain ⟨l, hstep, hmay⟩ := hst
    exact hs.step hstep hmay

/-- **Every call gets its own answer**, in every run in which a call with a
buffer begins when nothing is under way and no call begins while it is in
progress. -/
theorem rpc_own_answers (h : OrderlyReachable calls s) : OwnAnswers calls s :=
  h.inv.own

/-- All calls have a buffer of four bytes. -/
def wordCalls : Nat → RpcCall := fun _ => ⟨true, 4⟩

/-- One call has sent its request. -/
def oneSent : RpcState :=
  (((RpcState.start fun _ _ => 0).store wordCalls 0).arm 0).send wordCalls 0 16

/-- Its answer has come, and it has returned. -/
def oneServed : RpcState :=
  (((oneSent.serve 0 [] [4, 0, 0, 0]).copy 0 [] [4, 0, 0, 0]).clear).leave 0 16

theorem oneServed_orderly : OrderlyReachable wordCalls oneServed := by
  have h0 : OrderlyReachable wordCalls (RpcState.start fun _ _ => 0) :=
    .start ⟨_, rfl⟩
  have hnone : ∀ {s : RpcState}, ∀ c, none = some c → MayStart wordCalls s c :=
    fun _ h => by cases h
  have h1 := h0.next ⟨some 0, .store (c := 0) rfl rfl, fun c _ =>
    ⟨fun _ => rfl, rfl, rfl, rfl⟩⟩
  have h2 := h1.next ⟨none, .arm (c := 0) rfl, hnone⟩
  have h3 := h2.next ⟨none, .send (c := 0) rfl (by decide : (0 : Int) ≤ 16), hnone⟩
  have h4 := h3.next ⟨none, .serve rfl [4, 0, 0, 0], hnone⟩
  have h5 := h4.next ⟨none, .copy rfl rfl rfl rfl, hnone⟩
  have h6 := h5.next ⟨none, .clear rfl, hnone⟩
  exact h6.next ⟨none, .leave (c := 0) rfl rfl, hnone⟩

theorem rpc_own_answers_one :
    OrderlyReachable wordCalls oneServed ∧ oneServed.phase 0 = .returned 16 ∧
      OwnAnswers wordCalls oneServed :=
  ⟨oneServed_orderly, rfl, rpc_own_answers oneServed_orderly⟩

/-- A second call begins before the answer to the first is there. -/
def twoServed : RpcState :=
  ((((oneSent.store wordCalls 1).serve 0 [] [4, 0, 0, 0]).copy 0 []
    [4, 0, 0, 0]).clear).leave 0 16

/-- The second call gets the answer to the first, which returns with
nothing. -/
theorem rpc_answer_misdirected :
    RpcReachable wordCalls twoServed ∧ twoServed.phase 0 = .returned 16 ∧
    twoServed.answer 0 = some [4, 0, 0, 0] ∧
    readBytes (twoServed.buf 0) 0 4 = [0, 0, 0, 0] ∧
    readBytes (twoServed.buf 1) 0 4 = [4, 0, 0, 0] ∧
    ¬ OwnAnswers wordCalls twoServed := by
  refine ⟨?_, rfl, rfl, rfl, rfl, fun h => ?_⟩
  · have h0 : RpcReachable wordCalls (RpcState.start fun _ _ => 0) :=
      .start ⟨_, rfl⟩
    have h1 := h0.next ⟨some 0, .store (c := 0) rfl rfl⟩
    have h2 := h1.next ⟨none, .arm (c := 0) rfl⟩
    have h3 := h2.next ⟨none, .send (c := 0) rfl (by decide : (0 : Int) ≤ 16)⟩
    have h4 := h3.next ⟨some 1, .store (c := 1) rfl rfl⟩
    have h5 := h4.next ⟨none, .serve rfl [4, 0, 0, 0]⟩
    have h6 := h5.next ⟨none, .copy rfl rfl rfl rfl⟩
    have h7 := h6.next ⟨none, .clear rfl⟩
    exact h7.next ⟨none, .leave (c := 0) rfl rfl⟩
  · have hcopy := h.copies ⟨0, 1, false⟩ List.mem_cons_self
    cases hcopy.1

end OpenAmp.Proxy
