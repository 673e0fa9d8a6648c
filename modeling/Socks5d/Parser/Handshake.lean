import Socks5d.Parser.Engine

/-!
# The greeting parser of `handshake_parser.c`
-/

namespace Socks5d

inductive HandshakeState
  | version
  | nmethods
  | methods
  | done
  | error
  deriving DecidableEq, Repr

namespace HandshakeState

def index : HandshakeState → ℕ
  | version => 0
  | nmethods => 1
  | methods => 2
  | done => 3
  | error => 4

/-- The action of every table entry: report the state and the byte. -/
def act (type : HandshakeState) (c : UInt8) : ParserEvent HandshakeState := ⟨type, c⟩

def versionTransitions : List (ParserStateTransition HandshakeState) :=
  [⟨SOCKS5_VERSION.toNat, nmethods, act version⟩, ⟨ANY, error, act error⟩]

def nmethodsTransitions : List (ParserStateTransition HandshakeState) :=
  [⟨ANY, methods, act nmethods⟩]

def methodsTransitions : List (ParserStateTransition HandshakeState) :=
  [⟨ANY, methods, act methods⟩]

def errorTransitions : List (ParserStateTransition HandshakeState) :=
  [⟨ANY, error, act error⟩]

def doneTransitions : List (ParserStateTransition HandshakeState) :=
  [⟨ANY, done, act done⟩]

end HandshakeState

def handshakeParserDefinition : ParserDefinition HandshakeState where
  index := HandshakeState.index
  states := [HandshakeState.versionTransitions, HandshakeState.nmethodsTransitions,
    HandshakeState.methodsTransitions, HandshakeState.doneTransitions,
    HandshakeState.errorTransitions]
  startState := .version

/-- The parser record; its two counters are eight bits wide. -/
structure HandshakeParser where
  parser : Parser HandshakeState
  nmethods : UInt8
  methodCount : UInt8
  noAuth : Bool
  userPassAuth : Bool
  deriving DecidableEq, Repr

def handshakeParserInit : HandshakeParser where
  parser := parserInit handshakeParserDefinition
  nmethods := 0
  methodCount := 0
  noAuth := false
  userPassAuth := false

def isValidSocks5AuthMethod (method : UInt8) : Bool :=
  method == SOCKS5_AUTH_METHOD_NO_AUTH ||
    method == SOCKS5_AUTH_METHOD_GSSAPI ||
    method == SOCKS5_AUTH_METHOD_USER_PASS

/-- The methods that are known. -/
theorem isValidSocks5AuthMethod_iff {method : UInt8} :
    isValidSocks5AuthMethod method = true ↔ method = 0 ∨ method = 1 ∨ method = 2 := by
  simp [isValidSocks5AuthMethod, SOCKS5_AUTH_METHOD_NO_AUTH, SOCKS5_AUTH_METHOD_GSSAPI,
    SOCKS5_AUTH_METHOD_USER_PASS, or_assoc]

def handshakeParserFeed (p : HandshakeParser) (byte : UInt8) : HandshakeParser × HandshakeState :=
  let p := { p with parser := parserFeed handshakeParserDefinition p.parser byte }
  let e := p.parser.e1
  match e.type with
  | .nmethods => ({ p with nmethods := e.data }, .nmethods)
  | .methods =>
    let p := { p with methodCount := p.methodCount + 1 }
    if !isValidSocks5AuthMethod e.data then (p, .error)
    else if p.nmethods < p.methodCount then (p, .done)
    else
      let p := { p with
        noAuth := p.noAuth || e.data == SOCKS5_AUTH_METHOD_NO_AUTH
        userPassAuth := p.userPassAuth || e.data == SOCKS5_AUTH_METHOD_USER_PASS }
      if p.nmethods == p.methodCount then (p, .done) else (p, .methods)
  | type => (p, type)

end Socks5d
