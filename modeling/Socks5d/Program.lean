import Socks5d.Admin.Conn
import Socks5d.Register
import Socks5d.Step

/-!
# The program and its loop

The server together with the administration connections, their static record, the log level and
the access register. `handle_iteration` goes through the descriptor table once, in order, and
calls the handlers of the items that the sets of `pselect` name; `handle_block_notifications`
delivers the jobs; `selector_select` does one after the other, and `main` repeats it.

An administration record is found by the descriptor its item is registered at. Resolver threads
finish whenever they do: before an item, between its two callbacks, or between two passes. While
jobs are delivered the mutex keeps them waiting.
-/

namespace Socks5d

open GuardedRun

structure Program where
  server : Server
  /-- The records of the administration connections, by their descriptors. -/
  admins : ℕ → Option AdminConn
  /-- What they have done; no function of the program reads it. -/
  adminTraces : ℕ → List AdminObs
  parsed : S5adminCmdParsed
  logLevel : LogLevel
  accessRegister : AccessRegister
  /-- What `strftime` prints for a time. -/
  isoDate : ℕ → CString

/-- The call an observation stands for. -/
def Obs.accessCall : Obs → Option AccessCall
  | .access _ call => some call
  | _ => none

/-- The calls of `access_register_add_entry` so far. -/
def Server.accessCalls (s : Server) : List AccessCall := s.trace.filterMap Obs.accessCall

/-- The arguments of a call, with the date of its timestamp. -/
def AccessCall.args (isoDate : ℕ → CString) (call : AccessCall) : AccessArgs where
  username := call.username
  srcIp := call.srcIp
  srcPort := call.srcPort
  destination := call.destination
  destPort := call.destPort
  statusCode := call.statusCode.toNat
  isoDate := isoDate call.timestamp

namespace Program

/-- The state after a callback of the server, whose calls the access register has taken. -/
def served (p : Program) (s : Server) : Program :=
  { p with
    server := s
    accessRegister := p.accessRegister.addEntries
      ((s.accessCalls.drop p.server.accessCalls.length).map (AccessCall.args p.isoDate)) }

/-- What the commands of the administration read and change. -/
def data (p : Program) : ServerData where
  users := p.server.users
  logLevel := p.logLevel
  metrics := p.server.metrics
  accessRegister := p.accessRegister
  bufferSize := p.server.bufferSize
  maxConn := p.server.maxConn

/-- The state in which a callback of the administration connection at this descriptor starts. -/
def session (p : Program) (fd : ℕ) : AdminState where
  conn := p.admins fd
  interest := some (p.server.selector.fds fd).interest
  parsed := p.parsed
  data := p.data
  trace := p.adminTraces fd

/-- The state after that callback. -/
def returned (p : Program) (fd : ℕ) (a : AdminState) : Except Fault Program := do
  let server := { p.server with
    users := a.data.users
    metrics := a.data.metrics
    bufferSize := a.data.bufferSize
    maxConn := a.data.maxConn }
  let server ← match a.interest with
    | some interest => pure (server.setInterest fd interest)
    | none => selectorUnregisterFd server fd
  return { p with
    server := server
    admins := Function.update p.admins fd a.conn
    adminTraces := Function.update p.adminTraces fd a.trace
    parsed := a.parsed
    logLevel := a.data.logLevel
    accessRegister := a.data.accessRegister }

/-- `s5admin_passive_accept`. -/
def s5adminPassiveAccept (env : Env) (p : Program) : Program :=
  if !env.allocConn then p
  else
    match passiveAccept .adminHandler .other none env p.server with
    | (none, s) => { p with server := s }
    | (some fd, s) =>
      { p with
        server := s
        admins := Function.update p.admins fd (some (AdminConn.init fd (env.peer.getD ([], 0))))
        adminTraces := Function.update p.adminTraces fd [] }

/-- A callback starts with what earlier code left behind. -/
def enter (p : Program) (env : Env) : Program := { p with server := p.server.enter env }

/-- `handle_read` of an item. -/
def handleRead (item : Item) (env : Env) (p : Program) : Except Fault Program :=
  match item.handler with
  | some .adminHandler => do
    let a ← adminRead (p.session item.fd.toNat) env.recv
    p.returned item.fd.toNat a
  | some .confProtocol => return (p.enter env).s5adminPassiveAccept env
  | _ => do
    let s ← Socks5d.handleRead item env (p.server.enter env)
    return p.served s

/-- `handle_write` of an item. -/
def handleWrite (item : Item) (env : Env) (p : Program) : Except Fault Program :=
  match item.handler with
  | some .adminHandler => do
    let a ← adminWrite (p.session item.fd.toNat) env.send
    p.returned item.fd.toNat a
  | _ => do
    let s ← Socks5d.handleWrite item env (p.server.enter env)
    return p.served s

/-- The end of a resolver thread, unless there is none for this connection. -/
def finish (p : Program) (thread : ConnId × Env) : Except Fault Program :=
  if thread.1 ∈ p.server.resolving then do
    let s ← step p.server (.resolved thread.1 thread.2)
    return p.served s
  else return p

end Program

/-- What happens at one index of a pass: the resolver threads that finish before its item is
looked at and before its writability is, and the answers to its callbacks. -/
structure Turn where
  before : List (ConnId × Env) := []
  readEnv : Env := {}
  between : List (ConnId × Env) := []
  writeEnv : Env := {}

namespace Program

/-- The read callback of an item, if `pselect` reports it and its interest asks for it. -/
def readItem (slaveR : ℕ → Bool) (item : Item) (env : Env) (p : Program) : Except Fault Program :=
  if slaveR item.fd.toNat && item.interest.read then p.handleRead item env else return p

/-- The write callback at an index, for a key taken earlier. The handler and the interest are those
the item has by now. -/
def writeItem (slaveW : ℕ → Bool) (i : ℕ) (key : Item) (env : Env) (p : Program) :
    Except Fault Program :=
  let item := p.server.selector.fds i
  if slaveW i && item.interest.write then
    p.handleWrite { item with fd := key.fd, data := key.data } env
  else return p

/-- The body of the loop of `handle_iteration`. -/
def handleItem (slaveR slaveW : ℕ → Bool) (p : Program) (i : ℕ) (turn : Turn) :
    Except Fault Program := do
  let p ← turn.before.foldlM finish p
  let item := p.server.selector.fds i
  if item.used then
    let p ← readItem slaveR item turn.readEnv p
    let p ← turn.between.foldlM finish p
    writeItem slaveW i item turn.writeEnv p
  else return p

def handleIteration (slaveR slaveW : ℕ → Bool) (turns : ℕ → Turn) (p : Program) :
    Except Fault Program :=
  (List.range (p.server.selector.maxFd + 1)).foldlM
    (fun p i => p.handleItem slaveR slaveW i (turns i)) p

/-- The delivery of one job. -/
def handleBlockNotification (p : Program) (env : Env) : Except Fault Program := do
  let s ← Socks5d.handleBlockNotification env (p.server.enter env)
  return p.served s

/-- Every job that is queued when the loop takes the mutex; then the list is emptied. -/
def handleBlockNotifications (envs : ℕ → Env) (p : Program) : Except Fault Program := do
  let p ← (List.range p.server.selector.resolutionJobs.length).foldlM
    (fun p i => p.handleBlockNotification (envs i)) p
  return { p with server := { p.server with
    selector := { p.server.selector with resolutionJobs := [] } } }

end Program

/-- What `pselect` comes to: a signal, two subsets of the sets it was given, or an error. -/
inductive Poll
  | interrupted
  | ready (readable writable : ℕ → Bool)
  | failed

/-- One call of `selector_select`: the resolver threads that finish before `pselect` returns, and
what happens at every index and with every job. -/
structure Pass where
  before : List (ConnId × Env) := []
  poll : Poll
  turns : ℕ → Turn := fun _ => {}
  envs : ℕ → Env := fun _ => {}

/-- `pselect` fails with `EBADF`: a descriptor in one of its sets is not open. -/
def Server.badDescriptor (s : Server) : Bool :=
  (List.range (s.selector.maxFd + 1)).any fun fd =>
    (s.selector.masterR fd || s.selector.masterW fd) && !s.kernel.isOpen fd

namespace Program

def selectorSelect (pass : Pass) (p : Program) : Except Fault (SelectorStatus × Program) := do
  let p ← pass.before.foldlM finish p
  if p.server.badDescriptor then return (.io, p)
  else
    match pass.poll with
    | .failed => return (.io, p)
    | .interrupted =>
      let p ← p.handleBlockNotifications pass.envs
      return (.success, p)
    | .ready readable writable =>
      let p ← p.handleIteration (fun fd => p.server.selector.masterR fd && readable fd)
        (fun fd => p.server.selector.masterW fd && writable fd) pass.turns
      let p ← p.handleBlockNotifications pass.envs
      return (.success, p)

/-- The loop of `main`, until a signal ends it or a pass fails. -/
def mainLoop : List Pass → Program → Except Fault (SelectorStatus × Program)
  | [], p => return (.success, p)
  | pass :: passes, p => do
    let (status, p) ← p.selectorSelect pass
    if status = .success then mainLoop passes p else return (status, p)

end Program

namespace Program

/-- `selector_unregister_fd` of an item in use. -/
def unregister (p : Program) (fd : ℕ) : Except Fault Program :=
  match (p.server.selector.fds fd).handler with
  | some .adminHandler => do
    let a ← adminUnregister (p.session fd)
    p.returned fd a
  | _ => do
    let s ← selectorUnregisterFd p.server fd
    return p.served s

/-- `selector_destroy`: every item in use is unregistered, then the jobs and the table are freed. -/
def selectorDestroy (p : Program) : Except Fault Program := do
  let p ← (List.range p.server.selector.fdSize).foldlM
    (fun p fd => if (p.server.selector.fds fd).used then p.unregister fd else return p) p
  return { p with server := { p.server with
    selector := { p.server.selector with resolutionJobs := [], fdSize := 0 } } }

end Program

/-- What can happen to the program: a ready descriptor, a queued job, or the end of a thread. -/
inductive ProgramEvent
  | readable (fd : ℕ) (env : Env)
  | writable (fd : ℕ) (env : Env)
  | notify (env : Env)
  | resolved (c : ConnId) (env : Env)

namespace Program

def step (p : Program) : ProgramEvent → Except Fault Program
  | .readable fd env => p.handleRead (p.server.selector.fds fd) env
  | .writable fd env => p.handleWrite (p.server.selector.fds fd) env
  | .notify env => p.handleBlockNotification env
  | .resolved c env => p.finish (c, env)

def enabled (p : Program) : ProgramEvent → Bool
  | .readable fd _ =>
    p.server.kernel.isOpen fd && (p.server.selector.fds fd).used &&
      (p.server.selector.fds fd).interest.read
  | .writable fd _ =>
    p.server.kernel.isOpen fd && (p.server.selector.fds fd).used &&
      (p.server.selector.fds fd).interest.write
  | .notify _ => !p.server.selector.resolutionJobs.isEmpty
  | .resolved c _ => decide (c ∈ p.server.resolving)

end Program

/-- The program as a machine: any order of ready descriptors, queued jobs and ended threads. -/
def programMachine : Machine Fault Program ProgramEvent := ⟨Program.enabled, Program.step⟩

/-- The program as it enters its loop, over what its memory held. -/
def startProgram (args : Args) (logLevel : LogLevel) (beyond : List UInt8)
    (entries : ℕ → AccessEntry) (isoDate : ℕ → CString) : Option Program :=
  (startServer args).map fun s =>
    { server := s
      admins := fun _ => none
      adminTraces := fun _ => []
      parsed := initialCmdParsed beyond
      logLevel := logLevel
      accessRegister := accessRegisterInit entries
      isoDate := isoDate }

end Socks5d
