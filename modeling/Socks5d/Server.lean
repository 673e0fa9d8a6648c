import Socks5d.AuthTable
import Socks5d.Buffer
import Socks5d.Kernel
import Socks5d.Parser.Auth
import Socks5d.Parser.ConnReq
import Socks5d.Parser.Handshake
import Socks5d.Responses

/-!
# The server state

The selector, the kernel's descriptors, the heap of connection records and state machines,
the resolver threads and the shared server data. A record that was freed is absent, and
dereferencing a pointer to it is a fault. `calloc` never returns the address of an earlier
record, so a dangling pointer is always noticed.

The trace lists what a connection did, in order: system calls, replies, register entries and
phase changes. No function of the program reads it.
-/

namespace Socks5d

/-- The data passed to every callback of a handler. -/
structure SelectorKey where
  fd : ℤ
  data : ConnId
  deriving DecidableEq, Repr

/-- A state machine; `current` is null until its first event. -/
structure StateMachine where
  current : Option Socks5State
  deriving DecidableEq, Repr

/-- The connection record `socks5_conn_t`. A parser pointer is `none` when null, `addrInfo` is
the empty list when null, and `stm` tells whether that pointer is set. The memories of the two
buffers live and die with the record. -/
structure Socks5Conn where
  clientFd : ℤ
  originFd : ℤ
  stm : Bool
  handshakeParser : Option HandshakeParser
  authParser : Option AuthParser
  connReqParser : Option ConnReqParser
  inBuff : Buffer
  outBuff : Buffer
  srcAddress : CString
  srcPort : UInt16
  username : CString
  dstAddress : CString
  dstPort : UInt16
  aType : UInt8
  addrInfo : List AddrInfo
  isErrorResponse : Bool

/-- The record as `calloc` returns it. -/
def callocConn : Socks5Conn where
  clientFd := 0
  originFd := 0
  stm := false
  handshakeParser := none
  authParser := none
  connReqParser := none
  inBuff := bufferInit []
  outBuff := bufferInit []
  srcAddress := []
  srcPort := 0
  username := []
  dstAddress := []
  dstPort := 0
  aType := 0
  addrInfo := []
  isErrorResponse := false

structure ServerMetrics where
  totalConnections : UInt64
  currentConnections : UInt64
  bytesTransferred : UInt64
  errors : UInt64
  deriving DecidableEq, Repr

namespace ServerMetrics

def incTotalConn (m : ServerMetrics) : ServerMetrics :=
  { m with totalConnections := m.totalConnections + 1 }

def incCurrConn (m : ServerMetrics) : ServerMetrics :=
  { m with currentConnections := m.currentConnections + 1 }

def decCurrConn (m : ServerMetrics) : ServerMetrics :=
  if m.currentConnections > 0 then { m with currentConnections := m.currentConnections - 1 }
  else m

def addBytes (m : ServerMetrics) (bytes : UInt64) : ServerMetrics :=
  { m with bytesTransferred := m.bytesTransferred + bytes }

def incErrors (m : ServerMetrics) : ServerMetrics := { m with errors := m.errors + 1 }

end ServerMetrics

/-- The arguments of one `access_register_add_entry` call. -/
structure AccessCall where
  username : CString
  srcIp : CString
  srcPort : UInt16
  destination : CString
  destPort : UInt16
  statusCode : UInt8
  timestamp : ℕ
  deriving DecidableEq, Repr

/-- The two ends of a connection. -/
inductive Side
  | client
  | origin
  deriving DecidableEq, Repr

inductive ReplyKind
  | handshake
  | auth
  | connReq (status : UInt8)
  deriving DecidableEq, Repr

/-- What a connection does that can be observed. -/
inductive Obs
  /-- `recv` returned these bytes. -/
  | recv (c : ConnId) (side : Side) (bytes : List UInt8)
  /-- `send` accepted these bytes. -/
  | send (c : ConnId) (side : Side) (bytes : List UInt8)
  /-- A reply was appended to `out_buff`. -/
  | queued (c : ConnId) (kind : ReplyKind) (bytes : List UInt8)
  | access (c : ConnId) (call : AccessCall)
  /-- The state machine entered a phase. -/
  | enter (c : ConnId) (state : Socks5State)
  /-- `auth_check_credentials` judged a complete sub-negotiation message. -/
  | credentials (c : ConnId) (ok : Bool)
  /-- A CONNECT request was accepted. -/
  | request (c : ConnId)
  /-- `getaddrinfo` was called with this node and service. -/
  | lookup (c : ConnId) (node : CString) (service : UInt16)
  /-- An address of the resolved list was tried. -/
  | attempt (c : ConnId) (addr : AddrInfo)
  /-- `socket` returned this descriptor. -/
  | opened (c : ConnId) (fd : ℕ)
  /-- The connection to the origin stands: `connect` or `SO_ERROR` said so. -/
  | established (c : ConnId)
  /-- A queued notification was dispatched. -/
  | notified (c : ConnId)
  /-- `recv` returned 0. -/
  | ended (c : ConnId) (side : Side)
  /-- `buffer_reset` threw these unread bytes of `in_buff` away. -/
  | discarded (c : ConnId) (bytes : List UInt8)
  /-- The record was freed. -/
  | released (c : ConnId)
  deriving DecidableEq, Repr

/-- The connection an observation is about. -/
def Obs.conn : Obs → ConnId
  | .recv c _ _ | .send c _ _ | .queued c _ _ | .access c _ | .enter c _ | .credentials c _
  | .request c | .lookup c _ _ | .attempt c _ | .opened c _ | .established c | .notified c
  | .ended c _ | .discarded c _ | .released c => c

structure Server where
  selector : FdSelector
  kernel : Kernel
  conns : ConnId → Option Socks5Conn
  stms : ConnId → Option StateMachine
  nextConn : ConnId
  /-- The connections a resolver thread is working for. -/
  resolving : List ConnId
  users : UserTable
  metrics : ServerMetrics
  bufferSize : ℕ
  maxConn : ℕ
  errno : Errno
  /-- What uninitialised memory holds. -/
  junk : Memory
  trace : List Obs

namespace Server

/-- Dereference a connection pointer. -/
def conn (s : Server) (c : ConnId) : Except Fault Socks5Conn :=
  match s.conns c with
  | some k => .ok k
  | none => .error .useAfterFree

/-- Dereference a state machine pointer. -/
def stm (s : Server) (c : ConnId) : Except Fault StateMachine :=
  match s.stms c with
  | some m => .ok m
  | none => .error .useAfterFree

def setConn (s : Server) (c : ConnId) (k : Socks5Conn) : Server :=
  { s with conns := Function.update s.conns c (some k) }

def setCurrent (s : Server) (c : ConnId) (state : Socks5State) : Server :=
  { s with stms := Function.update s.stms c (some ⟨some state⟩) }

def note (s : Server) (obs : Obs) : Server := { s with trace := s.trace ++ [obs] }

def setErrno (s : Server) (e : Errno) : Server := { s with errno := e }

def incErrors (s : Server) : Server := { s with metrics := s.metrics.incErrors }

/-- `selector_set_interest`, for the callers that ignore its status. -/
def setInterest (s : Server) (fd : ℤ) (interest : FdInterest) : Server :=
  { s with selector := (selectorSetInterest s.selector fd interest).2 }

def close (s : Server) (fd : ℤ) : Server := { s with kernel := s.kernel.close fd }

/-- A descriptor is open; a negative number never is. -/
def isOpen (s : Server) (fd : ℤ) : Bool := decide (0 ≤ fd) && s.kernel.isOpen fd.toNat

/-- `stm->current->state`. -/
def stmState (s : Server) (c : ConnId) : Except Fault Socks5State := do
  let m ← s.stm c
  match m.current with
  | some state => return state
  | none => .error .nullDeref

/-- Follow `conn->stm`, the state machine the `stm_handler` functions are called with. -/
def stmPointer (s : Server) (c : ConnId) : Except Fault Unit := do
  let k ← s.conn c
  if k.stm then return () else .error .nullDeref

/-- `conn->stm->current->state`. -/
def currentState (s : Server) (c : ConnId) : Except Fault Socks5State := do
  s.stmPointer c
  s.stmState c

/-- Append a reply to `out_buff` with `buffer_write_struct`. -/
def queueReply (s : Server) (c : ConnId) (kind : ReplyKind) (bytes : List UInt8) :
    Except Fault Server := do
  let k ← s.conn c
  let outBuff ← bufferWriteStruct k.outBuff bytes
  let s := s.setConn c { k with outBuff := outBuff }
  if bufferCanWrite k.outBuff ∧ bytes.length ≤ k.outBuff.space then
    return s.note (.queued c kind bytes)
  else return s

/-- `buffer_reset(&conn->in_buff)`. -/
def resetInBuff (s : Server) (c : ConnId) : Except Fault Server := do
  let k ← s.conn c
  let s := s.setConn c { k with inBuff := bufferReset k.inBuff }
  if k.inBuff.content = [] then return s
  else return s.note (.discarded c k.inBuff.content)

/-- `access_register_add_entry` with the fields of the connection. -/
def accessRegisterAddEntry (s : Server) (c : ConnId) (status : UInt8) (now : ℕ) :
    Except Fault Server := do
  let k ← s.conn c
  return s.note (.access c
    { username := k.username, srcIp := k.srcAddress, srcPort := k.srcPort
      destination := k.dstAddress, destPort := k.dstPort, statusCode := status
      timestamp := now })

end Server

/-- What `recv` returns: bytes (of which it delivers at most the space offered), the end of the
stream, or an error. -/
inductive RecvOutcome
  | data (first : UInt8) (rest : List UInt8)
  | eof
  | failed (e : Errno)
  deriving DecidableEq, Repr

/-- What `send` returns: it accepts a non-empty prefix of at most `k + 1` bytes, accepts
nothing, or fails. -/
inductive SendOutcome
  | accepted (k : ℕ)
  | zero
  | failed (e : Errno)
  deriving DecidableEq, Repr

/-- `send` accepts something. -/
def SendOutcome.accepts : SendOutcome → Bool
  | .accepted _ => true
  | _ => false

/-- `recv` returns something. -/
def RecvOutcome.isData : RecvOutcome → Bool
  | .data _ _ => true
  | _ => false

def RecvOutcome.wouldBlock : RecvOutcome := .failed .eagain

def SendOutcome.wouldBlock : SendOutcome := .failed .eagain

/-- What `socket` and `connect` do for one address. -/
inductive ConnectOutcome
  | socketFails (e : Errno)
  | connected
  | failed (e : Errno)
  deriving DecidableEq, Repr

/-- The unspecified address. -/
def anyAddr : SockAddr := .inet #v[0, 0, 0, 0] 0

/-- The answers of the environment to one callback. Lists that run out answer would-block and
connection refused. -/
structure Env where
  recv : RecvOutcome := .wouldBlock
  sends : List SendOutcome := []
  connects : List ConnectOutcome := []
  /-- The pending error `getsockopt` reports. -/
  soError : Option Errno := none
  localAddr : SockAddr := anyAddr
  /-- The list `getaddrinfo` returns; empty when it fails. -/
  resolved : List AddrInfo := []
  inetNtop : Option CString := none
  threadCreated : Bool := true
  now : ℕ := 0
  /-- `errno` and uninitialised memory as earlier code left them. -/
  errno : Errno := .other 0
  junk : Memory := fun _ => 0
  addrJunk : Memory := fun _ => 0
  /-- The peer of an accepted client, when `accept` succeeds. -/
  peer : Option (CString × UInt16) := none
  allocConn : Bool := true
  allocInBuff : Bool := true
  allocOutBuff : Bool := true
  allocStm : Bool := true

/-- The outcome of the first `send` of a callback. -/
def Env.send (env : Env) : SendOutcome := env.sends.headD .wouldBlock

/-- The `errno` of a `send` whose peer is gone. -/
def EPIPE : Errno := .other 32

/-- No `send` raises `SIGPIPE`, which nothing catches or ignores. -/
def Env.SparesPipe (env : Env) : Prop := .failed EPIPE ∉ env.sends

instance (env : Env) : Decidable env.SparesPipe := inferInstanceAs (Decidable (_ ∉ _))

/-- Enter a callback with what earlier code left behind. -/
def Server.enter (s : Server) (env : Env) : Server :=
  { s with errno := env.errno, junk := env.junk }

end Socks5d
