import Socks5d.Parser.Engine

/-!
# The request parser of `conn_req_parser.c`
-/

namespace Socks5d

inductive ConnReqParserState
  | version
  | cmd
  | rsv
  | atyp
  | domLen
  | dstAddr
  | dstPortByte1
  | dstPortByte2
  | done
  | error
  deriving DecidableEq, Repr

namespace ConnReqParserState

def index : ConnReqParserState → ℕ
  | version => 0
  | cmd => 1
  | rsv => 2
  | atyp => 3
  | domLen => 4
  | dstAddr => 5
  | dstPortByte1 => 6
  | dstPortByte2 => 7
  | done => 8
  | error => 9

/-- The action of every table entry: report the state and the byte. -/
def act (type : ConnReqParserState) (c : UInt8) : ParserEvent ConnReqParserState := ⟨type, c⟩

def versionTransitions : List (ParserStateTransition ConnReqParserState) :=
  [⟨SOCKS5_VERSION.toNat, cmd, act version⟩, ⟨ANY, error, act error⟩]

def cmdTransitions : List (ParserStateTransition ConnReqParserState) :=
  [⟨SOCKS5_CONN_REQ_CMD_CONNECT.toNat, rsv, act cmd⟩,
    ⟨SOCKS5_CONN_REQ_CMD_BIND.toNat, rsv, act cmd⟩,
    ⟨SOCKS5_CONN_REQ_CMD_UDP_ASSOCIATE.toNat, rsv, act cmd⟩,
    ⟨ANY, error, act error⟩]

def rsvTransitions : List (ParserStateTransition ConnReqParserState) :=
  [⟨SOCKS5_CONN_REQ_RSV.toNat, atyp, act rsv⟩, ⟨ANY, error, act error⟩]

def atypTransitions : List (ParserStateTransition ConnReqParserState) :=
  [⟨SOCKS5_CONN_REQ_ATYP_IPV4.toNat, dstAddr, act atyp⟩,
    ⟨SOCKS5_CONN_REQ_ATYP_DOMAIN_NAME.toNat, domLen, act atyp⟩,
    ⟨SOCKS5_CONN_REQ_ATYP_IPV6.toNat, dstAddr, act atyp⟩,
    ⟨ANY, error, act error⟩]

def domLenTransitions : List (ParserStateTransition ConnReqParserState) :=
  [⟨ANY, dstAddr, act domLen⟩]

def dstAddrTransitions : List (ParserStateTransition ConnReqParserState) :=
  [⟨ANY, dstAddr, act dstAddr⟩]

def dstPortByte1Transitions : List (ParserStateTransition ConnReqParserState) :=
  [⟨ANY, dstPortByte2, act dstPortByte1⟩]

def dstPortByte2Transitions : List (ParserStateTransition ConnReqParserState) :=
  [⟨ANY, done, act dstPortByte2⟩]

def doneTransitions : List (ParserStateTransition ConnReqParserState) :=
  [⟨ANY, done, act done⟩]

def errorTransitions : List (ParserStateTransition ConnReqParserState) :=
  [⟨ANY, error, act error⟩]

end ConnReqParserState

open ConnReqParserState in
def connReqParserDefinition : ParserDefinition ConnReqParserState where
  index := index
  states := [versionTransitions, cmdTransitions, rsvTransitions, atypTransitions,
    domLenTransitions, dstAddrTransitions, dstPortByte1Transitions, dstPortByte2Transitions,
    doneTransitions, errorTransitions]
  startState := version

structure ConnReqParser where
  parser : Parser ConnReqParserState
  cmd : UInt8
  atyp : UInt8
  dstAddrLen : UInt8
  dstAddr : ℕ → UInt8
  dstAddrCount : UInt8
  dstPort : UInt16

def connReqParserInit (junk : ℕ → UInt8) : ConnReqParser where
  parser := parserInit connReqParserDefinition
  cmd := 0
  atyp := 0
  dstAddrLen := 0
  dstAddr := junk
  dstAddrCount := 0
  dstPort := 0

def connReqParserFeed (p : ConnReqParser) (byte : UInt8) : ConnReqParser × ConnReqParserState :=
  let p := { p with parser := parserFeed connReqParserDefinition p.parser byte }
  let e := p.parser.e1
  match e.type with
  | .cmd => ({ p with cmd := e.data }, .cmd)
  | .atyp =>
    let p := { p with atyp := e.data }
    if p.atyp = SOCKS5_CONN_REQ_ATYP_IPV4 then ({ p with dstAddrLen := 4 }, .atyp)
    else if p.atyp = SOCKS5_CONN_REQ_ATYP_DOMAIN_NAME then (p, .atyp)
    else if p.atyp = SOCKS5_CONN_REQ_ATYP_IPV6 then ({ p with dstAddrLen := 16 }, .atyp)
    else (p, .error)
  | .domLen => ({ p with dstAddrLen := e.data }, .domLen)
  | .dstAddr =>
    let p := { p with
      dstAddr := Function.update p.dstAddr p.dstAddrCount.toNat e.data
      dstAddrCount := p.dstAddrCount + 1 }
    if p.dstAddrCount ≥ p.dstAddrLen then
      ({ p with
          dstAddr := Function.update p.dstAddr p.dstAddrCount.toNat 0
          parser := parserSet p.parser .dstPortByte1 }, .dstPortByte1)
    else (p, .dstAddr)
  | .dstPortByte1 => ({ p with dstPort := e.data.toUInt16 }, .dstPortByte1)
  | .dstPortByte2 => ({ p with dstPort := (p.dstPort <<< 8) ||| e.data.toUInt16 }, .done)
  | type => (p, type)

end Socks5d
