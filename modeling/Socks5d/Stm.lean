import Socks5d.Server

/-!
# Teardown and the state machine

`socksv5_close` and `selector_unregister_fd`, the arrival and departure handlers of each phase,
the write handlers that decide the next phase, and the engine of `stm.c`. Every pointer the C
code follows after a call that may release objects is dereferenced again here.
-/

namespace Socks5d

def socks5StmFree (c : ConnId) (s : Server) : Except Fault Server :=
  match s.stms c with
  | some _ => .ok { s with stms := Function.update s.stms c none }
  | none => .error .doubleFree

/-- The close callback of a client descriptor. The parsers, the address list and the buffer
memories hang off the record and are released with it. -/
def socksv5Close (c : ConnId) (s : Server) : Except Fault Server := do
  let conn ← s.conn c
  let s := if conn.clientFd > 0 then s.close conn.clientFd else s
  let s := if conn.originFd > 0 then s.close conn.originFd else s
  let s ← if conn.stm then socks5StmFree c s else pure s
  let s := { s with metrics := s.metrics.decCurrConn, conns := Function.update s.conns c none }
  return s.note (.released c)

/-- The close callback an item's handler has, if any. -/
def handleClose (item : Item) (s : Server) : Except Fault Server :=
  match item.handler, item.data with
  | some .socks5Handler, some c => socksv5Close c s
  | some .socks5Handler, none => .error .nullDeref
  -- `admin_close` closes the descriptor of the administration connection
  | some .adminHandler, _ => .ok (s.close item.fd)
  | some _, _ => .ok s
  | none, _ => .error .nullDeref

/-- `selector_unregister_fd`, whose status no caller acts on. -/
def selectorUnregisterFd (s : Server) (fd : ℤ) : Except Fault Server :=
  if invalidFd fd || !(s.selector.fds fd.toNat).used then .ok s
  else do
    let s ← handleClose (s.selector.fds fd.toNat) s
    return { s with selector := removeItem s.selector fd.toNat }

/-- Unregister the origin and then the client of a connection. The callers differ in whether
they test a descriptor for being positive first. -/
def unregisterBoth (guardOrigin guardClient : Bool) (c : ConnId) (s : Server) :
    Except Fault Server := do
  let conn ← s.conn c
  let s ← if guardOrigin = false ∨ conn.originFd > 0 then selectorUnregisterFd s conn.originFd
    else pure s
  let conn ← s.conn c
  if guardClient = false ∨ conn.clientFd > 0 then selectorUnregisterFd s conn.clientFd else pure s

def handleDone (key : SelectorKey) (s : Server) : Except Fault Server :=
  unregisterBoth true true key.data s

def handleError (key : SelectorKey) (s : Server) : Except Fault Server :=
  unregisterBoth true true key.data s

def handshakeOnArrival (key : SelectorKey) (s : Server) : Except Fault Server := do
  let conn ← s.conn key.data
  return s.setConn key.data { conn with handshakeParser := some handshakeParserInit }

def authOnArrival (key : SelectorKey) (s : Server) : Except Fault Server := do
  let conn ← s.conn key.data
  return s.setConn key.data { conn with authParser := some (authParserInit s.junk) }

def connectionReqOnArrival (key : SelectorKey) (s : Server) : Except Fault Server := do
  let conn ← s.conn key.data
  return s.setConn key.data { conn with connReqParser := some (connReqParserInit s.junk) }

/-- The status of the registration is only logged. -/
def copyOnArrival (key : SelectorKey) (s : Server) : Except Fault Server := do
  let conn ← s.conn key.data
  return { s with selector :=
    (selectorRegister s.selector conn.originFd .copySelectorHandler OP_NOOP (some key.data)).2 }

def handshakeOnDeparture (key : SelectorKey) (s : Server) : Except Fault Server := do
  let conn ← s.conn key.data
  match conn.handshakeParser with
  | none => .error .nullDeref
  | some _ => return s.setConn key.data { conn with handshakeParser := none }

def authOnDeparture (key : SelectorKey) (s : Server) : Except Fault Server := do
  let conn ← s.conn key.data
  match conn.authParser with
  | none => .error .nullDeref
  | some _ => return s.setConn key.data { conn with authParser := none }

def connectionReqOnDeparture (key : SelectorKey) (s : Server) : Except Fault Server := do
  let conn ← s.conn key.data
  match conn.connReqParser with
  | none => .error .nullDeref
  | some _ => return s.setConn key.data { conn with connReqParser := none }

def copyOnDeparture (key : SelectorKey) (s : Server) : Except Fault Server := do
  let conn ← s.conn key.data
  selectorUnregisterFd s conn.originFd

/-- The `on_arrival` column of `socks5_states`. -/
def onArrival (state : Socks5State) (key : SelectorKey) (s : Server) : Except Fault Server :=
  match state with
  | .handshake => handshakeOnArrival key s
  | .auth => authOnArrival key s
  | .connectionReq => connectionReqOnArrival key s
  | .connecting => .ok s
  | .copy => copyOnArrival key s
  | .done => handleDone key s
  | .error => handleError key s

/-- The `on_departure` column of `socks5_states`. -/
def onDeparture (state : Socks5State) (key : SelectorKey) (s : Server) : Except Fault Server :=
  match state with
  | .handshake => handshakeOnDeparture key s
  | .auth => authOnDeparture key s
  | .connectionReq => connectionReqOnDeparture key s
  | .copy => copyOnDeparture key s
  | .connecting | .done | .error => .ok s

/-- Store a phase in the state machine. -/
def enterState (c : ConnId) (state : Socks5State) (s : Server) : Server :=
  (s.setCurrent c state).note (.enter c state)

def handleFirst (key : SelectorKey) (s : Server) : Except Fault Server := do
  let stm ← s.stm key.data
  match stm.current with
  | some _ => return s
  | none => onArrival .handshake key (enterState key.data .handshake s)

def jump (next : Socks5State) (key : SelectorKey) (s : Server) : Except Fault Server := do
  let stm ← s.stm key.data
  if stm.current = some next then return s
  else
    let s ← match stm.current with
      | some state => onDeparture state key s
      | none => pure s
    let _ ← s.stm key.data
    onArrival next key (enterState key.data next s)

def handshakeWrite (key : SelectorKey) (s : Server) : Except Fault Socks5State := do
  let conn ← s.conn key.data
  if conn.isErrorResponse then return .error
  else
    match conn.handshakeParser with
    | none => .error .nullDeref
    | some p => if p.userPassAuth then return .auth else return .connectionReq

def authWrite (key : SelectorKey) (s : Server) : Except Fault Socks5State := do
  let conn ← s.conn key.data
  if conn.isErrorResponse then return .error else return .connectionReq

def connectionReqWrite (key : SelectorKey) (s : Server) : Except Fault Socks5State := do
  let conn ← s.conn key.data
  if conn.isErrorResponse then return .error else return .copy

def connectingWrite (key : SelectorKey) (s : Server) : Except Fault Socks5State := do
  let conn ← s.conn key.data
  if conn.isErrorResponse then return .error else return .copy

/-- The `on_write_ready` column of `socks5_states`. -/
def onWriteReady (state : Socks5State) (key : SelectorKey) (s : Server) :
    Except Fault Socks5State :=
  match state with
  | .handshake => handshakeWrite key s
  | .auth => authWrite key s
  | .connectionReq => connectionReqWrite key s
  | .connecting => connectingWrite key s
  | .copy | .done | .error => .error .aborted

def stmHandlerWrite (key : SelectorKey) (s : Server) : Except Fault (Socks5State × Server) := do
  s.stmPointer key.data
  let s ← handleFirst key s
  let state ← s.stmState key.data
  let ret ← onWriteReady state key s
  let s ← jump ret key s
  return (ret, s)

def hasWriteHandler : Socks5State → Bool
  | .handshake | .auth | .connectionReq | .connecting => true
  | .copy | .done | .error => false

/-- The interest changes of `socksv5_write` after a positive `send`, in order. -/
def rearmAfterSend (conn : Socks5Conn) (outBuff : Buffer) (fullBuffer : Bool) (s : Server) :
    Server :=
  let s := if bufferCanRead outBuff then s.setInterest conn.clientFd OP_WRITE
    else s.setInterest conn.clientFd OP_READ
  let s := if bufferCanRead conn.inBuff then s.setInterest conn.originFd OP_WRITE else s
  if fullBuffer then s.setInterest conn.originFd OP_READ else s

/-- Send what `out_buff` holds to the client, and tell the phase when bytes left. -/
def socksv5Write (key : SelectorKey) (out : SendOutcome) (s : Server) : Except Fault Server := do
  let conn ← s.conn key.data
  if !bufferCanRead conn.outBuff then
    return s.setInterest conn.clientFd OP_NOOP
  else
    let fullBuffer := decide (conn.originFd > 0) && !bufferCanWrite conn.outBuff
    match out with
    | .accepted k =>
      let sent := conn.outBuff.content.take (k + 1)
      let s := { s with metrics := s.metrics.addBytes (UInt64.ofNat sent.length) }
      let s := s.note (.send key.data .client sent)
      let outBuff ← bufferReadAdv conn.outBuff sent.length
      let s := s.setConn key.data { conn with outBuff := bufferCompact outBuff }
      let s := rearmAfterSend conn outBuff fullBuffer s
      let state ← s.currentState key.data
      if hasWriteHandler state then
        let (_, s) ← stmHandlerWrite key s
        return s
      else return s
    | .zero => return s
    | .failed e =>
      if e = .eagain then return s.setErrno e
      else unregisterBoth true false key.data (s.setErrno e).incErrors

end Socks5d
