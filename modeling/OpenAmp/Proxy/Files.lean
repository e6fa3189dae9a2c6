import OpenAmp.Lib.Session
import OpenAmp.Proxy.Read

/-!
# A remote program's files on the host

The system calls of `open-amp/lib/proxy/rpmsg_retarget.c` as one service
with the server that carries them out, `apps/examples/rpc_demo/rpc_demod.c`:
a call is encoded, sent, decoded, carried out by the host, and answered.

A message longer than a buffer is cut off there, on either way. The server
reads as much as its own buffer holds from any file but the standard input,
whatever size the caller has asked for.
-/

namespace OpenAmp.Proxy

open OpenAmp.Lib OpenAmp.Metal

def OPEN_SYSCALL_ID : UInt32 := 1
def CLOSE_SYSCALL_ID : UInt32 := 2
def RPC_BUFF_SIZE : Nat := 1024

/-- What a message can carry: a buffer of 512 bytes without the header. -/
def RPMSG_PAYLOAD : Nat := 512 - 16

/-- `struct rpmsg_rpc_syscall` and the data behind it. -/
def syscallBytes (id : UInt32) (field1 field2 dataLen : Int32)
    (data : List UInt8) : List UInt8 :=
  leBytes 4 id.toNat ++ leBytes 4 field1.toUInt32.toNat ++
    leBytes 4 field2.toUInt32.toNat ++ leBytes 4 dataLen.toUInt32.toNat ++ data

/-! ## The host -/

/-- The files of the host, as its system calls see them: what a call does
with them, and what is left to read from a descriptor that can be read. -/
structure HostFiles (φ : Type) where
  openFile : φ → List UInt8 → Int32 → Int32 → φ × Int32
  close : φ → Int32 → φ × Int32
  rest : φ → Int32 → Option (List UInt8)
  consume : φ → Int32 → Nat → φ
  write : φ → Int32 → List UInt8 → φ × Int32
  /-- an open that fails answers -1 -/
  open_ge : ∀ s name flags mode, -1 ≤ (openFile s name flags mode).2

variable {φ : Type} (os : HostFiles φ)

/-- `read` of at most `n` bytes: the result and the bytes. -/
def HostFiles.read (s : φ) (fd : Int32) (n : Nat) : φ × Int32 × List UInt8 :=
  match os.rest s fd with
  | none => (s, -1, [])
  | some bs =>
    let r := bs.take n
    (os.consume s fd r.length, Int32.ofNat r.length, r)

/-! ## The server -/

/-- What the server keeps: `err_cnt` and `request_termination`. -/
structure Demod (φ : Type) where
  files : φ
  errCnt : Nat
  requestTermination : Bool

/-- The loop of the application goes on. -/
def Demod.Running (s : Demod φ) : Prop :=
  s.errCnt = 0 ∧ s.requestTermination = false

instance (s : Demod φ) : Decidable s.Running :=
  inferInstanceAs (Decidable (_ ∧ _))

/-- What a handler sends: as much as a buffer holds. -/
def answered (files : φ) (msg : List UInt8) : φ × Option (List UInt8) :=
  (files, some (msg.take RPMSG_PAYLOAD))

def handleOpen (files : φ) (buf : Mem) : φ × Option (List UInt8) :=
  let name := readBytes buf 16 (strnlen buf 16 (RPC_BUFF_SIZE - 16))
  let (files, fd) := os.openFile files name (wordAt buf 4) (wordAt buf 8)
  answered files (syscallBytes OPEN_SYSCALL_ID fd 0 0 [])

def handleClose (files : φ) (buf : Mem) : φ × Option (List UInt8) :=
  let (files, ret) := os.close files (wordAt buf 4)
  answered files (syscallBytes CLOSE_SYSCALL_ID ret 0 0 [])

def handleRead (files : φ) (buf : Mem) : φ × Option (List UInt8) :=
  let bytesRead : Int32 := Int32.ofNat (RPC_BUFF_SIZE - 16)
  let bytesRead :=
    if wordAt buf 4 = 0 ∧ wordAt buf 8 < bytesRead then wordAt buf 8
    else bytesRead
  let (files, bytesRead, payload) :=
    os.read files (wordAt buf 4) (intToSize bytesRead).toNat
  answered files (syscallBytes READ_SYSCALL_ID bytesRead 0 bytesRead payload)

def handleWrite (files : φ) (buf : Mem) : φ × Option (List UInt8) :=
  let (files, bytesWritten) := os.write files (wordAt buf 4)
    (readBytes buf 16 (intToSize (wordAt buf 8)).toNat)
  answered files (syscallBytes WRITE_SYSCALL_ID bytesWritten 0 0 [])

/-- `handle_rpc`, with the message sent if there is one. A system call that
is not known is an error. -/
def handleRpc (s : Demod φ) (buf : Mem) : Demod φ × Option (List UInt8) :=
  let id := UInt32.ofNat (loadLE buf 0 4)
  if id = OPEN_SYSCALL_ID then
    let (files, msg) := handleOpen os s.files buf
    ({ s with files := files }, msg)
  else if id = CLOSE_SYSCALL_ID then
    let (files, msg) := handleClose os s.files buf
    ({ s with files := files }, msg)
  else if id = READ_SYSCALL_ID then
    let (files, msg) := handleRead os s.files buf
    ({ s with files := files }, msg)
  else if id = WRITE_SYSCALL_ID then
    let (files, msg) := handleWrite os s.files buf
    ({ s with files := files }, msg)
  else if id.toNat = TERM_SYSCALL_ID then
    ({ s with requestTermination := true }, none)
  else ({ s with errCnt := s.errCnt + 1 }, none)

/-- `rpmsg_endpoint_cb` with the message `data`; `stack` is what its local
buffer holds before. -/
def rpmsgEndpointCb (stack : Mem) (s : Demod φ) (data : List UInt8) :
    Demod φ × Option (List UInt8) :=
  if data.length < 16 then ({ s with errCnt := s.errCnt + 1 }, none)
  else handleRpc os s (writeBytes stack 0 (data.take RPC_BUFF_SIZE))

/-! ## A call -/

/-- What the lists of a call's local variables hold before it: of the
caller, of the server, and the buffer of a read. -/
structure Frame where
  client : Mem
  server : Mem
  buffer : Mem

/-- What becomes of a request: `rpmsg_send` refuses it because the endpoint
is gone, the endpoint goes while the answer is waited for, or the answer
comes. -/
inductive Reply where
  | refused
  | unbound
  | answer (bytes : List UInt8)

namespace Reply

/-- What `rpmsg_send` returns for a request of `len` bytes. -/
def sendRet (r : Reply) (len : Nat) : Int32 :=
  match r with
  | .refused => RPMSG_ERR_PARAM
  | _ => Int32.ofNat (min len RPMSG_PAYLOAD)

def bytes : Reply → List UInt8
  | .answer bytes => bytes
  | _ => []

/-- The response buffer of 16 bytes, of which the id was set to 0. -/
def resp (stack : Mem) (r : Reply) : Mem :=
  writeBytes (writeBytes stack 0 (leBytes 4 0)) 0 (r.bytes.take 16)

/-- The end of `_open` and `_close`. -/
def ret (stack : Mem) (id : UInt32) : Reply → Int32
  | .refused => -EINVAL32
  | r =>
    if UInt32.ofNat (loadLE (r.resp stack) 0 4) = id then
      wordAt (r.resp stack) 4
    else -EINVAL32

end Reply

/-- A request goes to the server if that is still there. A server without an
answer is on its way to its end, and takes its endpoint with it. -/
def exchange (f : Frame) (s : Demod φ) (req : List UInt8) : Demod φ × Reply :=
  if s.Running then
    match rpmsgEndpointCb os f.server s (req.take RPMSG_PAYLOAD) with
    | (s, some msg) => (s, .answer msg)
    | (s, none) => (s, .unbound)
  else (s, .refused)

/-- What a call returns, and what it puts into its caller's buffer. -/
@[ext] structure FileResult where
  ret : Int32
  data : List UInt8
deriving DecidableEq, Repr

/-- `_open`; `name` is the string without its terminator. -/
def callOpen (f : Frame) (s : Demod φ) (name : List UInt8)
    (flags mode : Int32) : Demod φ × Option FileResult :=
  let filenameLen : Int32 := sizeToInt (UInt64.ofNat (name.length + 1))
  let payloadSize : UInt32 := 16 + filenameLen.toUInt32
  if 496 < payloadSize then (s, some ⟨-EINVAL32, []⟩)
  else
    let data := (name ++ [0]).take (intToSize filenameLen).toNat
    let (s, r) := exchange os f s
      (syscallBytes OPEN_SYSCALL_ID flags mode filenameLen data)
    (s, some ⟨r.ret f.client OPEN_SYSCALL_ID, []⟩)

/-- `_close` -/
def callClose (f : Frame) (s : Demod φ) (fd : Int32) :
    Demod φ × Option FileResult :=
  let (s, r) := exchange os f s (syscallBytes CLOSE_SYSCALL_ID fd 0 0 [])
  (s, some ⟨r.ret f.client CLOSE_SYSCALL_ID, []⟩)

/-- `_read` into a buffer. Reading behind the response is not defined. -/
def callRead (f : Frame) (s : Demod φ) (fd buflen : Int32) :
    Demod φ × Option FileResult :=
  if buflen = 0 then (s, some ⟨-EINVAL32, []⟩)
  else
    let (s, r) := exchange os f s (readRequest fd buflen)
    let answer : Answer :=
      ⟨writeBytes (fun _ => 0) 0 r.bytes, r.bytes.length⟩
    match read ⟨true, f.client, r.sendRet 16⟩ fd (some f.buffer) buflen answer with
    | none => (s, none)
    | some res =>
      if MAX_BUF_LEN < 16 + res.copied then (s, none)
      else (s, some ⟨res.ret, readBytes res.buf 0 res.copied⟩)

/-- `_write`. Writing behind the request is not defined. -/
def callWrite (f : Frame) (s : Demod φ) (fd : Int32) (ptr : Mem) (len : Int32) :
    Demod φ × Option FileResult :=
  let env : WriteEnv := ⟨true, f.client, 0, 0, 0⟩
  if ∀ a ∈ (write env fd ptr len).log, a.Inside then
    match (write env fd ptr len).val.sent with
    | none => (s, some ⟨(write env fd ptr len).val.ret, []⟩)
    | some req =>
      let (s, r) := exchange os f s req
      let env : WriteEnv := ⟨true, f.client, r.sendRet req.length,
        UInt32.ofNat (loadLE (r.resp f.client) 0 4), wordAt (r.resp f.client) 4⟩
      (s, some ⟨(write env fd ptr len).val.ret, []⟩)
  else (s, none)

/-! ## The calls of a program -/

inductive FileCall where
  | open (name : List UInt8) (flags mode : Int32)
  | close (fd : Int32)
  | read (fd buflen : Int32)
  | write (fd : Int32) (ptr : Mem) (len : Int32)

namespace FileCall

/-- The string has no zero inside and a length that is an `int`, the sizes
are not negative, and a read is for something. -/
def Valid : FileCall → Prop
  | .open name _ _ => (∀ b ∈ name, b ≠ 0) ∧ name.length + 17 < 2147483648
  | .close _ => True
  | .read _ buflen => 0 < buflen
  | .write _ _ len => 0 ≤ len

/-- Carried out by the host. -/
def direct (s : φ) : Frame × FileCall → φ × Option FileResult
  | (_, .open name flags mode) =>
    let (s, ret) := os.openFile s name flags mode
    (s, some ⟨ret, []⟩)
  | (_, .close fd) =>
    let (s, ret) := os.close s fd
    (s, some ⟨ret, []⟩)
  | (_, .read fd buflen) =>
    let (s, ret, data) := os.read s fd (intToSize buflen).toNat
    (s, some ⟨ret, data⟩)
  | (_, .write fd ptr len) =>
    let (s, ret) := os.write s fd (readBytes ptr 0 (intToSize len).toNat)
    (s, some ⟨ret, []⟩)

/-- Carried out for the remote program. -/
def remote (s : Demod φ) : Frame × FileCall → Demod φ × Option FileResult
  | (f, .open name flags mode) => callOpen os f s name flags mode
  | (f, .close fd) => callClose os f s fd
  | (f, .read fd buflen) => callRead os f s fd buflen
  | (f, .write fd ptr len) => callWrite os f s fd ptr len

/-- A name fits into the request; so do the bytes of a write, with two to
spare on the standard output. What the standard input has for a read fits
into the answer; of a file, no more is left than that and than was asked
for. -/
def Fits (s : φ) : Frame × FileCall → Prop
  | (_, .open name _ _) => name.length + 17 ≤ MAX_BUF_LEN
  | (_, .close _) => True
  | (_, .read fd buflen) => ∀ bs, os.rest s fd = some bs →
      if fd = 0 then min bs.length buflen.toInt.toNat + 16 ≤ MAX_BUF_LEN
      else bs.length + 16 ≤ MAX_BUF_LEN ∧ bs.length ≤ buflen.toInt.toNat
  | (_, .write fd _ len) =>
      len.toInt.toNat + (if fd = 1 then 18 else 16) ≤ MAX_BUF_LEN

end FileCall

end OpenAmp.Proxy
