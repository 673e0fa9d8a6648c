import Socks5d.Dial

/-!
# What holds of one connection between callbacks

The local invariant of a view, phase by phase: which parser exists, which buffers are empty,
how the client's interest follows the output buffer, and where the token of a resolution is.
It holds in every reachable state, also in those the code reaches by mistake, so it says
nothing about `origin_fd` in the relay phase.
-/

namespace Socks5d

/-- The outcome of a callback for its connection. -/
inductive Result
  | alive (v : View)
  | gone (history : List Obs)

/-- The state at the end of a callback matches its outcome. -/
def Lands (mode : Mode) (hole : Bool) (c : ConnId) (s₀ : Server) : Result → Server → Prop
  | .alive v, s => Tracks mode hole c s₀ v s
  | .gone history, s => Released mode c s₀ history s

namespace View

/-- The client waits to write exactly when something is left to send. -/
def Armed (v : View) : Prop :=
  v.conn.outBuff.content = [] ∧ v.interest = OP_READ ∨
    v.conn.outBuff.content ≠ [] ∧ v.interest = OP_WRITE

/-- Nothing has been received that was not consumed, and no origin is involved yet. -/
structure Early (v : View) : Prop where
  inBuff : v.conn.inBuff.content = []
  originFd : v.conn.originFd = 0
  tokens : v.tokens = 0
  addrInfo : v.conn.addrInfo = []

/-- Waiting for the resolution of the requested address. -/
structure Waiting (v : View) : Prop where
  originFd : v.conn.originFd = 0
  interest : v.interest = OP_NOOP
  tokens : v.tokens = 1
  outBuff : v.conn.outBuff.content = []
  isErrorResponse : v.conn.isErrorResponse = false

/-- Waiting for a connection to the origin. -/
structure Pending (v : View) : Prop where
  originFd : v.conn.originFd ≠ 0
  interest : v.interest = OP_NOOP
  tokens : v.tokens = 0
  outBuff : v.conn.outBuff.content = []
  isErrorResponse : v.conn.isErrorResponse = false

/-- The connection was refused after a pending attempt and the reply is being sent. -/
structure Refused (v : View) : Prop where
  originFd : v.conn.originFd = -1
  interest : v.interest = OP_WRITE
  tokens : v.tokens = 0
  outBuff : v.conn.outBuff.content ≠ []
  isErrorResponse : v.conn.isErrorResponse = true

/-- Reading a request, or sending the reply that refuses it. -/
structure Requesting (v : View) : Prop where
  originFd : v.conn.originFd = 0
  tokens : v.tokens = 0
  addrInfo : v.conn.addrInfo = []
  parser : v.conn.connReqParser.isSome = true
  reply : v.conn.isErrorResponse = false ∧ v.conn.inBuff.content = [] ∧ v.Armed ∨
    v.conn.isErrorResponse = true ∧ v.conn.outBuff.content ≠ [] ∧ v.interest = OP_WRITE

/-- Authenticating; a message judged good is on record. -/
structure Authenticating (c : ConnId) (v : View) : Prop where
  early : v.Early
  armed : v.Armed
  parser : ∃ p, v.conn.authParser = some p ∧ (p.parser.state = .done →
    v.conn.isErrorResponse = false → Obs.credentials c true ∈ v.history)

def PhaseOk (c : ConnId) (v : View) : Prop :=
  match v.phase with
  | none =>
    v.Early ∧ v.conn.outBuff.content = [] ∧ v.interest = OP_READ ∧
      v.conn.isErrorResponse = false
  | some .handshake => v.Early ∧ v.Armed ∧ v.conn.handshakeParser.isSome = true
  | some .auth => v.Authenticating c
  | some .connectionReq => v.Requesting
  | some .connecting => v.Waiting ∨ v.Pending ∨ v.Refused
  | some .copy => v.tokens = 0 ∧ v.conn.addrInfo = []
  | some .done | some .error => False

/-- The local invariant of a connection. -/
structure Ok (c : ConnId) (v : View) : Prop where
  inCapacity : BUFF_MIN_LEN ≤ v.conn.inBuff.capacity
  outCapacity : BUFF_MIN_LEN ≤ v.conn.outBuff.capacity
  relay : ∀ r, v.relay = some r →
    r.1 = .connectingHandler ∧ v.phase = some .connecting ∧ v.conn.isErrorResponse = false ∨
      r.1 = .copySelectorHandler ∧ v.phase = some .copy
  phase : v.PhaseOk c

end View

end Socks5d
