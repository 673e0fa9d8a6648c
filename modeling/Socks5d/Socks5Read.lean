import Socks5d.Lib.CStrings
import Socks5d.Stm

/-!
# Reading: the phase handlers and the relay

The read handlers of the handshake, authentication and request phases consume `in_buff` one
byte at a time. Each loop takes the number of unread bytes as its bound: an iteration removes
at least one byte and nothing inside the loop adds any, so the bound is never what stops it.
The outcomes of the `send` calls a loop makes are taken from a list, in order.
-/

namespace Socks5d

open CStrings (ascii decimal)

/-- The text `set_dst_address` leaves in `dst_address`, given the parser's address array. -/
def setDstAddress (addr : ℕ → UInt8) (addrLen : ℕ) (aType : UInt8) (inetNtop : Option CString)
    (dstAddress : CString) : CString :=
  if aType = SOCKS5_CONN_REQ_ATYP_IPV4 then
    decimal (addr 0).toNat ++ ascii "." ++ decimal (addr 1).toNat ++ ascii "." ++
      decimal (addr 2).toNat ++ ascii "." ++ decimal (addr 3).toNat
  else if aType = SOCKS5_CONN_REQ_ATYP_IPV6 then
    inetNtop.getD (ascii "<invalid IPv6>")
  else if aType = SOCKS5_CONN_REQ_ATYP_DOMAIN_NAME then
    cString addr (min addrLen (DOMAIN_NAME_MAX_LENGTH - 1))
  else dstAddress

/-- Queue the job that tells the selector a resolution has finished. -/
def selectorNotifyBlock (s : Server) (fd : ℤ) : Server :=
  { s with selector := { s.selector with
      resolutionJobs := fd.toNat :: s.selector.resolutionJobs } }

/-- The resolver, with the list `getaddrinfo` returned (empty on failure). -/
def resolveHostName (c : ConnId) (res : List AddrInfo) (s : Server) : Except Fault Server := do
  let conn ← s.conn c
  let s := s.note (.lookup c conn.dstAddress conn.dstPort)
  let s := if res = [] then s else s.setConn c { conn with addrInfo := res }
  return selectorNotifyBlock s conn.clientFd

def handshakeReadLoop : ℕ → SelectorKey → List SendOutcome → Server →
    Except Fault (Socks5State × Server)
  | bound, key, sends, s => do
    let conn ← s.conn key.data
    if !bufferCanRead conn.inBuff then
      let state ← s.currentState key.data
      return (state, s)
    else
      match bound with
      | 0 =>
        let state ← s.currentState key.data
        return (state, s)
      | bound + 1 =>
        let (byte, inBuff) ← bufferRead conn.inBuff
        match conn.handshakeParser with
        | none => .error .nullDeref
        | some p =>
          let (p, state) := handshakeParserFeed p byte
          let s := s.setConn key.data { conn with inBuff := inBuff, handshakeParser := some p }
          match state with
          | .done =>
            let response := createHandshakeResponse p.noAuth p.userPassAuth s.junk
            let s ← s.queueReply key.data .handshake (response.bytes HANDSHAKE_RESPONSE_SIZE)
            let s := s.setInterest key.fd OP_WRITE
            let conn ← s.conn key.data
            let s := s.setConn key.data
              { conn with isErrorResponse := !(p.noAuth || p.userPassAuth) }
            let s ← socksv5Write key (sends.headD .wouldBlock) s
            handshakeReadLoop bound key sends.tail s
          | .error => return (.error, s)
          | _ => handshakeReadLoop bound key sends s

def handshakeRead (key : SelectorKey) (env : Env) (s : Server) :
    Except Fault (Socks5State × Server) := do
  let conn ← s.conn key.data
  handshakeReadLoop conn.inBuff.content.length key env.sends s

def authReadLoop : ℕ → SelectorKey → List SendOutcome → Server →
    Except Fault (Socks5State × Server)
  | bound, key, sends, s => do
    let conn ← s.conn key.data
    if !bufferCanRead conn.inBuff then
      let state ← s.currentState key.data
      return (state, s)
    else
      match bound with
      | 0 =>
        let state ← s.currentState key.data
        return (state, s)
      | bound + 1 =>
        let (byte, inBuff) ← bufferRead conn.inBuff
        match conn.authParser with
        | none => .error .nullDeref
        | some p =>
          let (p, state) := authParserFeed p byte
          let s := s.setConn key.data { conn with inBuff := inBuff, authParser := some p }
          match state with
          | .done =>
            let username := cString p.username MAX_USERNAME_LEN
            let authOk :=
              authCheckCredentials s.users username (cString p.password MAX_PASSWORD_LEN)
            let s := s.note (.credentials key.data authOk)
            let response := createAuthResponse authOk s.junk
            let s ← s.queueReply key.data .auth (response.bytes AUTH_RESPONSE_SIZE)
            let s ← s.resetInBuff key.data
            let conn ← s.conn key.data
            let s := s.setConn key.data { conn with
              isErrorResponse := !authOk
              username := if authOk then username else conn.username }
            let s := s.setInterest key.fd OP_WRITE
            let s ← socksv5Write key (sends.headD .wouldBlock) s
            authReadLoop bound key sends.tail s
          | .error => return (.error, s)
          | _ => authReadLoop bound key sends s

def authRead (key : SelectorKey) (env : Env) (s : Server) :
    Except Fault (Socks5State × Server) := do
  let conn ← s.conn key.data
  authReadLoop conn.inBuff.content.length key env.sends s

/-- What `connection_req_read` does with a complete request. -/
def connectionReqDone (key : SelectorKey) (env : Env) (p : ConnReqParser) (s : Server) :
    Except Fault (Socks5State × Server) := do
  if p.cmd ≠ SOCKS5_CONN_REQ_CMD_CONNECT then
    let response := createConnReqErrorResponse SOCKS5_REP_COMMAND_NOT_SUPPORTED s.junk
    let s ← s.queueReply key.data (.connReq SOCKS5_REP_COMMAND_NOT_SUPPORTED)
      (response.bytes connReqErrorResponseSize)
    let conn ← s.conn key.data
    let s := s.setConn key.data { conn with isErrorResponse := true }
    return (.connectionReq, s.setInterest conn.clientFd OP_WRITE)
  else
    let s := s.note (.request key.data)
    let s := s.setInterest key.fd OP_NOOP
    let conn ← s.conn key.data
    let s := s.setConn key.data { conn with
      dstPort := p.dstPort
      aType := p.atyp
      dstAddress :=
        setDstAddress p.dstAddr p.dstAddrLen.toNat p.atyp env.inetNtop conn.dstAddress }
    if p.atyp = SOCKS5_CONN_REQ_ATYP_DOMAIN_NAME then
      if env.threadCreated then
        return (.connecting, { s with resolving := key.data :: s.resolving })
      else return (.error, s)
    else
      let s ← resolveHostName key.data env.resolved s
      return (.connecting, s)

def connectionReqReadLoop : ℕ → SelectorKey → Env → Server →
    Except Fault (Socks5State × Server)
  | bound, key, env, s => do
    let conn ← s.conn key.data
    if !bufferCanRead conn.inBuff then return (.connectionReq, s)
    else
      match bound with
      | 0 => return (.connectionReq, s)
      | bound + 1 =>
        let (byte, inBuff) ← bufferRead conn.inBuff
        match conn.connReqParser with
        | none => .error .nullDeref
        | some p =>
          let (p, state) := connReqParserFeed p byte
          let s := s.setConn key.data { conn with inBuff := inBuff, connReqParser := some p }
          match state with
          | .done => connectionReqDone key env p s
          | .error => return (.error, s)
          | _ => connectionReqReadLoop bound key env s

def connectionReqRead (key : SelectorKey) (env : Env) (s : Server) :
    Except Fault (Socks5State × Server) := do
  let conn ← s.conn key.data
  connectionReqReadLoop conn.inBuff.content.length key env s

def connectingRead (s : Server) : Except Fault (Socks5State × Server) := .ok (.copy, s)

/-- Send what `in_buff` holds to the origin. -/
def copyWriteHandler (key : SelectorKey) (out : SendOutcome) (s : Server) :
    Except Fault Server := do
  let conn ← s.conn key.data
  if !bufferCanRead conn.inBuff then
    return s.setInterest conn.originFd OP_NOOP
  else
    let fullBuffer := !bufferCanWrite conn.inBuff
    match out with
    | .accepted k =>
      let sent := conn.inBuff.content.take (k + 1)
      let s := s.note (.send key.data .origin sent)
      let inBuff ← bufferReadAdv conn.inBuff sent.length
      let s := s.setConn key.data { conn with inBuff := bufferCompact inBuff }
      let s := if bufferCanRead inBuff then s else s.setInterest conn.originFd OP_READ
      return if fullBuffer then s.setInterest conn.clientFd OP_READ else s
    | .zero => unregisterBoth false false key.data s
    | .failed e =>
      if e = .eagain then return s.setErrno e
      else unregisterBoth false false key.data (s.setErrno e)

def copyRead (key : SelectorKey) (env : Env) (s : Server) :
    Except Fault (Socks5State × Server) := do
  let conn ← s.conn key.data
  let (status, selector) := selectorSetInterest s.selector conn.originFd OP_WRITE
  let s := { s with selector := selector }
  if status ≠ .success then return (.error, s)
  else
    let s ← copyWriteHandler key env.send s
    return (.copy, s)

/-- Receive from the origin into `out_buff` and send on at once. -/
def copyReadHandler (key : SelectorKey) (env : Env) (s : Server) : Except Fault Server := do
  let conn ← s.conn key.data
  if !bufferCanWrite conn.outBuff then
    return (s.setInterest conn.originFd OP_NOOP).setInterest conn.clientFd OP_WRITE
  else
    match env.recv with
    | .data first rest =>
      let bytes := (first :: rest).take conn.outBuff.space
      let outBuff ← bufferWriteAdv (conn.outBuff.store bytes) bytes.length
      let s := (s.setConn key.data { conn with outBuff := outBuff }).note
        (.recv key.data .origin bytes)
      let s := s.setInterest conn.clientFd OP_WRITE
      socksv5Write key env.send s
    | .eof => selectorUnregisterFd (s.note (.ended key.data .origin)) conn.originFd
    | .failed e =>
      if e = .eagain then return s.setErrno e
      else unregisterBoth false false key.data (s.setErrno e)

/-- The `on_read_ready` column of `socks5_states`. -/
def onReadReady (state : Socks5State) (key : SelectorKey) (env : Env) (s : Server) :
    Except Fault (Socks5State × Server) :=
  match state with
  | .handshake => handshakeRead key env s
  | .auth => authRead key env s
  | .connectionReq => connectionReqRead key env s
  | .connecting => connectingRead s
  | .copy => copyRead key env s
  | .done | .error => .error .aborted

def stmHandlerRead (key : SelectorKey) (env : Env) (s : Server) :
    Except Fault (Socks5State × Server) := do
  s.stmPointer key.data
  let s ← handleFirst key s
  let state ← s.stmState key.data
  let (ret, s) ← onReadReady state key env s
  let s ← jump ret key s
  return (ret, s)

/-- Receive from the client into `in_buff` and hand the bytes to the phase. -/
def socksv5Read (key : SelectorKey) (env : Env) (s : Server) : Except Fault Server := do
  let conn ← s.conn key.data
  if !bufferCanWrite conn.inBuff then
    let s := s.setInterest key.fd OP_NOOP
    return if conn.originFd ≠ 0 then s.setInterest conn.originFd OP_WRITE else s
  else
    match env.recv with
    | .data first rest =>
      let bytes := (first :: rest).take conn.inBuff.space
      let inBuff ← bufferWriteAdv (conn.inBuff.store bytes) bytes.length
      let s := (s.setConn key.data { conn with inBuff := inBuff }).note
        (.recv key.data .client bytes)
      let (state, s) ← stmHandlerRead key env s
      return if state = .error then s.incErrors else s
    | .eof => unregisterBoth true false key.data (s.note (.ended key.data .client))
    | .failed e =>
      if e = .eagain then return s.setErrno e
      else unregisterBoth true false key.data (s.setErrno e).incErrors

end Socks5d
