import Socks5d.Admin.Config
import Socks5d.Lib.GuardedRun

/-!
# An admin connection of `s5admin.c`

The record of the connection holds both buffers with their memories, `in_data` directly before
`out_data`: a search that starts in the first may end in the second, and a line may be cut in
both. A record that was freed is absent, and following the pointer to it is a fault.

The trace lists the newlines that were acted on, the replies, the bytes sent, and the end of
the descriptor and of the record. No function of the program reads it.
-/

namespace Socks5d

open CStrings GuardedRun

def newline : UInt8 := 10

/-- Memory under a buffer rewritten from an offset on, as far as it reaches. -/
def Buffer.rewrite (b : Buffer) (pos : ℕ) (bytes : List UInt8) : Buffer :=
  { b with
    data := overwrite b.data pos bytes
    write_le_limit := by rw [length_overwrite]; exact b.write_le_limit }

/-- The record `admin_conn_t`. -/
structure AdminConn where
  fd : ℕ
  inBuff : Buffer
  outBuff : Buffer
  deriving DecidableEq

/-- The offset in `in_data` at which a `socks5_conn_t` has its `src_address`. -/
def SRC_ADDRESS_AT : ℕ := 56

/-- The offset in `in_data` at which a `socks5_conn_t` has its `src_port`. -/
def SRC_PORT_AT : ℕ := 102

/-- `in_data` as `passive_accept` leaves it: the function takes the new record for a
`socks5_conn_t`, and stores the peer's address and its port, in the byte order of a little-endian
host, among the zeros of `calloc`. -/
def acceptedData (peer : CString × UInt16) : List UInt8 :=
  let inData := overwrite (List.replicate MAX_CMD_LEN 0) SRC_ADDRESS_AT
    (peer.1.take (INET6_ADDRSTRLEN - 1) ++ [0])
  overwrite inData SRC_PORT_AT [peer.2.toUInt8, (peer.2 >>> 8).toUInt8]

@[simp] theorem length_acceptedData (peer : CString × UInt16) :
    (acceptedData peer).length = MAX_CMD_LEN := by
  simp only [acceptedData, length_overwrite, List.length_replicate]

namespace AdminConn

/-- The record after `calloc`, `passive_accept` and the two `buffer_init`. -/
def init (fd : ℕ) (peer : CString × UInt16) : AdminConn where
  fd := fd
  inBuff := bufferInit (acceptedData peer)
  outBuff := bufferInit (List.replicate MAX_RESPONSE_LEN 0)

/-- The bytes of `in_data` from the read pointer on. -/
def inTail (k : AdminConn) : List UInt8 := k.inBuff.data.drop k.inBuff.read

/-- Memory from the read pointer of `in_buff` on, through `out_data`. -/
def ahead (k : AdminConn) : List UInt8 := k.inTail ++ k.outBuff.data

/-- Bytes written from the read pointer of `in_buff` on, through `out_data`. -/
def rewrite (k : AdminConn) (bytes : List UInt8) : AdminConn :=
  { k with
    inBuff := k.inBuff.rewrite k.inBuff.read bytes
    outBuff := k.outBuff.rewrite 0 (bytes.drop k.inTail.length) }

/-- The response area that `buffer_write_ptr` hands out. -/
def area (k : AdminConn) : List UInt8 := k.outBuff.data.drop k.outBuff.write

end AdminConn

/-- What an admin connection does that can be observed. -/
inductive AdminObs
  | recv (bytes : List UInt8)
  /-- A newline so many bytes behind the read pointer was acted on, with so many bytes received
  and not consumed. -/
  | line (offset available : ℕ)
  | reply (bytes : List UInt8)
  | send (bytes : List UInt8)
  | closed (fd : ℕ)
  | freed
  deriving DecidableEq, Repr

namespace AdminObs

def replied : AdminObs → Option (List UInt8)
  | .reply bytes => some bytes
  | _ => none

def sent : AdminObs → Option (List UInt8)
  | .send bytes => some bytes
  | _ => none

end AdminObs

structure AdminState where
  conn : Option AdminConn
  /-- The interest under which the descriptor is registered. -/
  interest : Option FdInterest
  parsed : S5adminCmdParsed
  data : ServerData
  trace : List AdminObs

namespace AdminState

/-- Follow the pointer to the record. -/
def record (s : AdminState) : Except Fault AdminConn :=
  match s.conn with
  | some k => .ok k
  | none => .error .useAfterFree

def setConn (s : AdminState) (k : AdminConn) : AdminState := { s with conn := some k }

/-- `selector_set_interest_key`. -/
def setInterest (s : AdminState) (interest : FdInterest) : AdminState :=
  { s with interest := s.interest.map fun _ => interest }

def note (s : AdminState) (obs : AdminObs) : AdminState := { s with trace := s.trace ++ [obs] }

/-- The replies produced so far. -/
def replies (s : AdminState) : List (List UInt8) := s.trace.filterMap AdminObs.replied

/-- The bytes sent so far. -/
def sent (s : AdminState) : List UInt8 := (s.trace.filterMap AdminObs.sent).flatten

end AdminState

/-- The connection as `s5admin_passive_accept` leaves it, over what it finds. -/
def s5adminAccepted (fd : ℕ) (peer : CString × UInt16) (parsed : S5adminCmdParsed)
    (data : ServerData) : AdminState where
  conn := some (AdminConn.init fd peer)
  interest := some OP_READ
  parsed := parsed
  data := data
  trace := []

def adminClose (s : AdminState) : Except Fault AdminState := do
  let k ← s.record
  let s := s.note (.closed k.fd)
  return { s with conn := none }.note .freed

/-- `selector_unregister_fd`, which calls the close callback first. -/
def adminUnregister (s : AdminState) : Except Fault AdminState := do
  let s ← adminClose s
  return { s with interest := none }

/-- What follows `selector_unregister_fd` on an error: the descriptor is closed and the record
freed once more, through the pointer that the close callback has released. -/
def adminFail (s : AdminState) : Except Fault AdminState := do
  let s ← adminUnregister s
  let k ← s.record
  let s := s.note (.closed k.fd)
  return { s with conn := none }.note .freed

/-- Append what stands in the response area to `out_buff`. -/
def adminReply (s : AdminState) (k : AdminConn) (response : List UInt8) (length : ℕ) :
    Except Fault AdminState := do
  let outBuff ← bufferWriteAdv (k.outBuff.store response) length
  return (s.setConn { k with outBuff := outBuff }).note (.reply (response.take length))

/-- The answer to a line: a blank one is copied with its terminating zero, of which one byte is
announced. -/
def adminAnswer (parsed : S5adminCmdParsed) (data : ServerData) (line area : List UInt8) :
    Except Fault ConfigResult :=
  if line = [] then .ok ⟨parsed, data, line, strcpy area line, 1⟩
  else configHandler parsed data line area

/-- The branch of `admin_read` for a newline at this offset. -/
def adminLine (s : AdminState) (k : AdminConn) (offset : ℕ) : Except Fault AdminState := do
  let line := k.ahead.take offset
  let k := k.rewrite (line ++ [0])
  let s := (s.setConn k).note (.line offset k.inBuff.content.length)
  if !bufferCanWrite k.outBuff then return s
  else
    let r ← adminAnswer s.parsed s.data line k.area
    let s := { s with parsed := r.parsed, data := r.data }
    if r.result < 0 then adminFail s
    else
      let k := k.rewrite (r.cmd ++ [0])
      -- a line that reached into the response area fails the assertion here
      let inBuff ← bufferReadAdv k.inBuff (offset + 1)
      let s ← adminReply s { k with inBuff := inBuff } r.response r.result.toNat
      return s.setInterest OP_WRITE

def tooLongText : List UInt8 := ascii "ERROR: command too long\n"

/-- The branch of `admin_read` without a newline. -/
def adminTooLong (s : AdminState) (k : AdminConn) : Except Fault AdminState := do
  let k := { k with inBuff := bufferReset k.inBuff }
  if bufferCanWrite k.outBuff then
    let response := snprintf k.area 0 tooLongText
    let s ← adminReply s k response (text response).length
    return s.setInterest OP_WRITE
  else return s.setConn k

/-- `admin_read` from the search for a newline on. -/
def adminSearch (s : AdminState) (k : AdminConn) : Except Fault AdminState :=
  match strchr newline k.ahead with
  | some offset => adminLine s k offset
  | none => adminTooLong s k

/-- `admin_read` behind a `recv` that returned these bytes. -/
def adminReceived (s : AdminState) (k : AdminConn) (bytes : List UInt8) :
    Except Fault AdminState := do
  let inBuff ← bufferWriteAdv (k.inBuff.store bytes) bytes.length
  let k := { k with inBuff := inBuff }
  adminSearch ((s.setConn k).note (.recv bytes)) k

def adminRead (s : AdminState) (outcome : RecvOutcome) : Except Fault AdminState := do
  let k ← s.record
  if !bufferCanWrite k.inBuff then adminUnregister s
  else
    match outcome with
    | .eof => adminUnregister s
    | .failed _ => adminUnregister s
    | .data first rest => adminReceived s k ((first :: rest).take k.inBuff.space)

/-- `admin_write` behind a `send` that accepted so many bytes. -/
def adminSent (s : AdminState) (k : AdminConn) (n : ℕ) : Except Fault AdminState := do
  let outBuff ← bufferReadAdv k.outBuff n
  let s := s.setConn { k with outBuff := bufferCompact outBuff }
  return (s.note (.send (k.outBuff.content.take n))).setInterest OP_READ

def adminWrite (s : AdminState) (outcome : SendOutcome) : Except Fault AdminState := do
  let k ← s.record
  if !bufferCanRead k.outBuff then return s
  else
    match outcome with
    | .failed .eagain => return s
    | .failed _ => adminFail s
    | .zero => adminSent s k 0
    | .accepted n => adminSent s k (min (n + 1) k.outBuff.content.length)

/-- A ready descriptor, or anything else that happens in the program: other connections change
the server data, and other admin connections the static record. -/
inductive AdminEvent
  | readable (outcome : RecvOutcome)
  | writable (outcome : SendOutcome)
  | elsewhere (parsed : S5adminCmdParsed) (data : ServerData)

def adminStep (s : AdminState) : AdminEvent → Except Fault AdminState
  | .readable outcome => adminRead s outcome
  | .writable outcome => adminWrite s outcome
  | .elsewhere parsed data => .ok { s with parsed := parsed, data := data }

/-- The selector calls a handler only for an interest that is set. -/
def adminEnabled (s : AdminState) : AdminEvent → Bool
  | .readable _ => s.interest.any FdInterest.read
  | .writable _ => s.interest.any FdInterest.write
  | .elsewhere _ _ => true

def adminMachine : Machine Fault AdminState AdminEvent := ⟨adminEnabled, adminStep⟩

/-- The states an accepted admin connection reaches by events that meet the guard. -/
def AdminRun (guard : AdminState → AdminEvent → Prop) (events : List AdminEvent)
    (s : AdminState) : Prop :=
  ∃ fd peer parsed data, Run adminMachine guard (s5adminAccepted fd peer parsed data) events s

end Socks5d
