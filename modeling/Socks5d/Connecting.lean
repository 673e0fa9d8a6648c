import Socks5d.Socks5Read

/-!
# Connecting to the origin

`connect_to_host` walks the resolved list and answers with one of three codes, the second of
which is also what it returns when no socket can be created. Two callbacks read those codes:
the block notification, and the write readiness of a descriptor whose connect was pending.
-/

namespace Socks5d

/-- The status `get_code` assigns to an error number. -/
def getCode : Errno → UInt8
  | .econnrefused => SOCKS5_REP_CONNECTION_REFUSED
  | .enetunreach => SOCKS5_REP_NETWORK_UNREACHABLE
  | .ehostunreach => SOCKS5_REP_HOST_UNREACHABLE
  | .etimedout => SOCKS5_REP_TTL_EXPIRED
  | _ => SOCKS5_REP_HOST_UNREACHABLE

/-- No failure is reported as a success. -/
theorem getCode_ne_succeeded (err : Errno) : getCode err ≠ SOCKS5_REP_SUCCEEDED := by
  cases err with
  | other code => exact (by decide : SOCKS5_REP_HOST_UNREACHABLE ≠ SOCKS5_REP_SUCCEEDED)
  | _ => decide

/-- `socket`, which opens the lowest descriptor not open. -/
def openSocket (c : ConnId) (peer : AddrInfo) (s : Server) : ℕ × Server :=
  (s.kernel.lowest,
    { s with kernel := s.kernel.openFd s.kernel.lowest (.origin c peer) }.note
      (.opened c s.kernel.lowest))

/-- What `connect_to_host` leaves behind: its return value, the descriptor stored through
`sock_fd` and the list stored through `res`. -/
structure ConnectResult where
  code : ℤ
  sockFd : ℤ
  res : List AddrInfo
  server : Server

/-- The loop of `connect_to_host` over the untried suffix of the list. `fcntl` cannot fail on
the descriptor `socket` has just returned, so that exit is never taken. -/
def connectToHostLoop (c : ConnId) (res : List AddrInfo) :
    List AddrInfo → List ConnectOutcome → ℤ → Server → ConnectResult
  | [], _, sockFd, s => ⟨CONNECTION_FAILED, sockFd, [], s⟩
  | rp :: next, outcomes, _, s =>
    let s := s.note (.attempt c rp)
    match outcomes.headD (.failed .econnrefused) with
    | .socketFails e => ⟨-1, -1, res, s.setErrno e⟩
    | .connected =>
      let (fd, s) := openSocket c rp s
      ⟨CONNECTION_SUCCESS, fd, [], s.note (.established c)⟩
    | .failed e =>
      let (fd, s) := openSocket c rp s
      let s := s.setErrno e
      if e = .einprogress then ⟨CONNECTION_IN_PROGRESS, fd, next, s⟩
      else connectToHostLoop c res next outcomes.tail fd (s.close fd)

/-- `connect_to_host(&conn->addr_info, &conn->origin_fd)`. -/
def connectToHost (c : ConnId) (outcomes : List ConnectOutcome) (s : Server) :
    Except Fault (ℤ × Server) := do
  let conn ← s.conn c
  let r := connectToHostLoop c conn.addrInfo conn.addrInfo outcomes conn.originFd s
  return (r.code, r.server.setConn c { conn with originFd := r.sockFd, addrInfo := r.res })

/-- Queue the success reply for the connected origin. -/
def queueConnReqResponse (c : ConnId) (env : Env) (s : Server) : Except Fault Server :=
  let response := createConnReqResponse SOCKS5_REP_SUCCEEDED env.localAddr env.addrJunk s.junk
  s.queueReply c (.connReq SOCKS5_REP_SUCCEEDED) (response.bytes (connReqResponseSize response))

/-- Queue an error reply and mark the connection, as three exits do. -/
def queueConnReqErrorResponse (c : ConnId) (status : UInt8) (s : Server) :
    Except Fault Server := do
  let response := createConnReqErrorResponse status s.junk
  let s ← s.queueReply c (.connReq status) (response.bytes connReqErrorResponseSize)
  let conn ← s.conn c
  return s.setConn c { conn with isErrorResponse := true }

def connectingOnBlockReady (key : SelectorKey) (env : Env) (s : Server) :
    Except Fault (Socks5State × Server) := do
  let conn ← s.conn key.data
  if conn.addrInfo = [] then
    let s ← s.accessRegisterAddEntry key.data SOCKS5_REP_HOST_UNREACHABLE env.now
    let s ← queueConnReqErrorResponse key.data SOCKS5_REP_HOST_UNREACHABLE s
    let conn ← s.conn key.data
    return (.connectionReq, s.setInterest conn.clientFd OP_WRITE)
  else
    let (result, s) ← connectToHost key.data env.connects s
    if result = CONNECTION_IN_PROGRESS then
      let conn ← s.conn key.data
      let s := s.setInterest conn.clientFd OP_NOOP
      let (status, selector) := selectorRegister s.selector conn.originFd .connectingHandler
        OP_WRITE (some key.data)
      let s := { s with selector := selector }
      if status ≠ .success then
        let s ← s.accessRegisterAddEntry key.data SOCKS5_REP_GENERAL_FAILURE env.now
        return (.error, s)
      else return (.connecting, s)
    else if result = CONNECTION_SUCCESS then
      let s ← s.accessRegisterAddEntry key.data SOCKS5_REP_SUCCEEDED env.now
      let s ← queueConnReqResponse key.data env s
      let s := s.setInterest key.fd OP_WRITE
      let s ← s.resetInBuff key.data
      let s ← socksv5Write key env.send s
      return (.copy, s)
    else return (.error, s)

/-- The `on_block_ready` column of `socks5_states`. -/
def onBlockReady (state : Socks5State) (key : SelectorKey) (env : Env) (s : Server) :
    Except Fault (Socks5State × Server) :=
  match state with
  | .connecting => connectingOnBlockReady key env s
  | _ => .error .aborted

def stmHandlerBlock (key : SelectorKey) (env : Env) (s : Server) :
    Except Fault (Socks5State × Server) := do
  s.stmPointer key.data
  let s ← handleFirst key s
  let state ← s.stmState key.data
  let (ret, s) ← onBlockReady state key env s
  let s ← jump ret key s
  return (ret, s)

def socksv5Block (key : SelectorKey) (env : Env) (s : Server) : Except Fault Server := do
  let (state, s) ← stmHandlerBlock key env (s.note (.notified key.data))
  if state = .error then
    let s := s.incErrors
    let conn ← s.conn key.data
    selectorUnregisterFd s conn.clientFd
  else return s

/-- The error branch of `handle_write_connecting` once no attempt is pending. -/
def refuseConnecting (key : SelectorKey) (env : Env) (responseCode : UInt8) (s : Server) :
    Except Fault Server := do
  let s ← s.accessRegisterAddEntry key.data responseCode env.now
  let s ← queueConnReqErrorResponse key.data responseCode s
  let conn ← s.conn key.data
  let s ← selectorUnregisterFd s conn.originFd
  let conn ← s.conn key.data
  let s := s.close conn.originFd
  let s := s.setConn key.data { conn with originFd := -1 }
  return s.setInterest conn.clientFd OP_WRITE

/-- The branch of `handle_write_connecting` for an established connection. -/
def acceptConnecting (key : SelectorKey) (env : Env) (s : Server) : Except Fault Server := do
  let conn ← s.conn key.data
  let s := s.setConn key.data { conn with addrInfo := [] }
  let s ← selectorUnregisterFd s conn.originFd
  let (_, s) ← stmHandlerRead key env s
  let s ← s.accessRegisterAddEntry key.data SOCKS5_REP_SUCCEEDED env.now
  let s ← queueConnReqResponse key.data env s
  let conn ← s.conn key.data
  let s := s.setInterest conn.clientFd OP_WRITE
  let s ← s.resetInBuff key.data
  socksv5Write key env.send s

/-- The pending error of a socket; `getsockopt` fails only on a descriptor that is not open. -/
def getSoError (c : ConnId) (fd : ℤ) (env : Env) (s : Server) : Option Errno × Server :=
  if s.isOpen fd then
    (env.soError, if env.soError = none then s.note (.established c) else s)
  else (none, (s.setErrno .ebadf).close fd)

def handleWriteConnecting (key : SelectorKey) (env : Env) (s : Server) :
    Except Fault Server := do
  let conn ← s.conn key.data
  let (err, s) := getSoError key.data conn.originFd env s
  let responseCode := getCode s.errno
  match err with
  | some _ =>
    let s := s.close conn.originFd
    if conn.addrInfo ≠ [] then
      let (result, s) ← connectToHost key.data env.connects s
      if result = CONNECTION_IN_PROGRESS then return s
      else if result = CONNECTION_FAILED then
        refuseConnecting key env (getCode s.errno) s
      else refuseConnecting key env responseCode s
    else refuseConnecting key env responseCode s
  | none => acceptConnecting key env s

end Socks5d
