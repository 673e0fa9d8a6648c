import Socks5d.Connecting

/-!
# Accepting clients and starting the server

`socksv5_passive_accept` with every exit it has, the effect of the administration listener on
the descriptor table, and the part of `main` before the loop: descriptor 0 is closed, so the
first listening socket receives that number.
-/

namespace Socks5d

/-- `accept` and the registration of the new descriptor. The peer is absent when `accept`
fails; `fcntl` cannot fail on the descriptor `accept` has just returned. -/
def passiveAccept (handler : FdHandler) (owner : FdOwner) (data : Option ConnId) (env : Env)
    (s : Server) : Option ℕ × Server :=
  match env.peer with
  | none => (none, s)
  | some _ =>
    let client := s.kernel.lowest
    let s := { s with kernel := s.kernel.openFd client owner }
    let (status, selector) := selectorRegister s.selector client handler OP_READ data
    let s := { s with selector := selector }
    if status ≠ .success then (none, s.close client) else (some client, s)

def socksv5PassiveAccept (env : Env) (s : Server) : Except Fault Server := do
  if s.metrics.currentConnections.toNat ≥ s.maxConn then
    if env.peer = none then return s
    else
      let fd := s.kernel.lowest
      return { s with kernel := s.kernel.openFd fd .other }.close fd
  else if !env.allocConn then return s
  else
    let c := s.nextConn
    let s := { s.setConn c callocConn with nextConn := c + 1 }
    match passiveAccept .socks5Handler (.client c) (some c) env s with
    | (none, s) => return { s with conns := Function.update s.conns c none }
    | (some fd, s) =>
      let conn ← s.conn c
      let (srcAddress, srcPort) := env.peer.getD ([], 0)
      let conn := { conn with srcAddress := srcAddress, srcPort := srcPort, clientFd := fd }
      let s := s.setConn c conn
      if !env.allocInBuff then selectorUnregisterFd s fd
      else if !env.allocOutBuff then selectorUnregisterFd s fd
      else
        let conn := { conn with
          inBuff := bufferInit (s.junk.bytes s.bufferSize)
          outBuff := bufferInit (s.junk.bytes s.bufferSize) }
        let s := s.setConn c conn
        if !env.allocStm then selectorUnregisterFd s fd
        else
          let s := { s.setConn c { conn with stm := true } with
            stms := Function.update s.stms c (some ⟨none⟩) }
          return { s with metrics := s.metrics.incCurrConn.incTotalConn }

/-- What accepting an administration client does to the descriptors. -/
def s5adminPassiveAccept (env : Env) (s : Server) : Server :=
  if !env.allocConn then s else (passiveAccept .adminHandler .other none env s).2

/-- One iteration of `create_and_register_passive_socket`. -/
def createAndRegisterPassiveSocket (handler : FdHandler) (s : Server) : Option Server :=
  let fd := s.kernel.lowest
  let (status, selector) := selectorRegister s.selector fd handler OP_READ none
  if status ≠ .success then none
  else some { s with kernel := s.kernel.openFd fd .listener, selector := selector }

/-- What `main` starts from: the descriptors its process inherited, the users of the command
line, and how many further addresses each of the two listeners resolves to. -/
structure Args where
  kernel : Kernel
  users : UserTable := authInit
  moreSocksAddrs : ℕ := 0
  moreMngAddrs : ℕ := 0
  bufferSize : ℕ := 131072
  maxConn : ℕ := 500
  /-- Inherited descriptors belong to no connection and are no listeners. -/
  inherited : ∀ fd o, kernel.owner fd = some o → o = .other
  bufferSize_ge : BUFF_MIN_LEN ≤ bufferSize

/-- The state after `close(FD_STDIN)` and `selector_new`. -/
def Args.initial (args : Args) : Server where
  selector := selectorNew INITIAL_QUANTITY_FDS
  kernel := args.kernel.close 0
  conns := fun _ => none
  stms := fun _ => none
  nextConn := 0
  resolving := []
  users := args.users
  metrics := ⟨0, 0, 0, 0⟩
  bufferSize := args.bufferSize
  maxConn := args.maxConn
  errno := .other 0
  junk := fun _ => 0
  trace := []

/-- The handlers of the listening sockets, in the order `main` registers them. -/
def Args.listeners (args : Args) : List FdHandler :=
  List.replicate (args.moreSocksAddrs + 1) .socksv5 ++
    List.replicate (args.moreMngAddrs + 1) .confProtocol

/-- The state in which `main` enters its loop, when every listener could be registered. -/
def startServer (args : Args) : Option Server :=
  args.listeners.foldlM (fun s handler => createAndRegisterPassiveSocket handler s) args.initial

end Socks5d
