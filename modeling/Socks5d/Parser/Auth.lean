import Socks5d.Parser.Engine

/-!
# The sub-negotiation parser of `auth_parser.c`

The two 256-byte arrays are written at an eight-bit index. Their first contents are whatever
`malloc` returned, which the initializer takes as an argument.
-/

namespace Socks5d

inductive AuthState
  | version
  | usernameLen
  | username
  | passwordLen
  | password
  | done
  | error
  deriving DecidableEq, Repr

namespace AuthState

def index : AuthState → ℕ
  | version => 0
  | usernameLen => 1
  | username => 2
  | passwordLen => 3
  | password => 4
  | done => 5
  | error => 6

/-- The action of every table entry: report the state and the byte. -/
def act (type : AuthState) (c : UInt8) : ParserEvent AuthState := ⟨type, c⟩

def versionTransitions : List (ParserStateTransition AuthState) :=
  [⟨SOCKS5_SUBNEGOTIATION_VERSION.toNat, usernameLen, act version⟩, ⟨ANY, error, act error⟩]

def usernameLenTransitions : List (ParserStateTransition AuthState) :=
  [⟨0x00, error, act error⟩, ⟨ANY, username, act usernameLen⟩]

def usernameTransitions : List (ParserStateTransition AuthState) :=
  [⟨ANY, username, act username⟩]

def passwordLenTransitions : List (ParserStateTransition AuthState) :=
  [⟨0x00, error, act error⟩, ⟨ANY, password, act passwordLen⟩]

def passwordTransitions : List (ParserStateTransition AuthState) :=
  [⟨ANY, password, act password⟩]

def doneTransitions : List (ParserStateTransition AuthState) :=
  [⟨ANY, done, act done⟩]

def errorTransitions : List (ParserStateTransition AuthState) :=
  [⟨ANY, error, act error⟩]

end AuthState

def authParserDefinition : ParserDefinition AuthState where
  index := AuthState.index
  states := [AuthState.versionTransitions, AuthState.usernameLenTransitions,
    AuthState.usernameTransitions, AuthState.passwordLenTransitions,
    AuthState.passwordTransitions, AuthState.doneTransitions, AuthState.errorTransitions]
  startState := .version

/-- One byte through the table, by the row of the current state. -/
theorem parserFeed_auth (q : Parser AuthState) (byte : UInt8) :
    parserFeed authParserDefinition q byte =
      match q.state with
      | .version =>
        if byte = SOCKS5_SUBNEGOTIATION_VERSION then ⟨.usernameLen, ⟨.version, byte⟩⟩
        else ⟨.error, ⟨.error, byte⟩⟩
      | .usernameLen =>
        if byte = 0 then ⟨.error, ⟨.error, byte⟩⟩ else ⟨.username, ⟨.usernameLen, byte⟩⟩
      | .username => ⟨.username, ⟨.username, byte⟩⟩
      | .passwordLen =>
        if byte = 0 then ⟨.error, ⟨.error, byte⟩⟩ else ⟨.password, ⟨.passwordLen, byte⟩⟩
      | .password => ⟨.password, ⟨.password, byte⟩⟩
      | .done => ⟨.done, ⟨.done, byte⟩⟩
      | .error => ⟨.error, ⟨.error, byte⟩⟩ := by
  obtain ⟨state, e1⟩ := q
  cases state with
  | version =>
    by_cases hb : byte = SOCKS5_SUBNEGOTIATION_VERSION
    · subst hb; rfl
    · simp [parserFeed, ParserDefinition.row, authParserDefinition, AuthState.index,
        AuthState.versionTransitions, hb, AuthState.act]
  | usernameLen =>
    by_cases hb : byte = 0
    · subst hb; rfl
    · simp [parserFeed, ParserDefinition.row, authParserDefinition, AuthState.index,
        AuthState.usernameLenTransitions, hb, AuthState.act]
  | passwordLen =>
    by_cases hb : byte = 0
    · subst hb; rfl
    · simp [parserFeed, ParserDefinition.row, authParserDefinition, AuthState.index,
        AuthState.passwordLenTransitions, hb, AuthState.act]
  | username => rfl
  | password => rfl
  | done => rfl
  | error => rfl

structure AuthParser where
  parser : Parser AuthState
  usernameLen : UInt8
  usernameCount : UInt8
  username : ℕ → UInt8
  passwordLen : UInt8
  passwordCount : UInt8
  password : ℕ → UInt8

def authParserInit (junk : ℕ → UInt8) : AuthParser where
  parser := parserInit authParserDefinition
  usernameLen := 0
  usernameCount := 0
  username := junk
  passwordLen := 0
  passwordCount := 0
  password := junk

def authParserFeed (p : AuthParser) (byte : UInt8) : AuthParser × AuthState :=
  let p := { p with parser := parserFeed authParserDefinition p.parser byte }
  let e := p.parser.e1
  match e.type with
  | .usernameLen => ({ p with usernameLen := e.data }, .usernameLen)
  | .username =>
    let p := { p with
      username := Function.update p.username p.usernameCount.toNat e.data
      usernameCount := p.usernameCount + 1 }
    if p.usernameCount ≥ p.usernameLen then
      ({ p with
          parser := parserSet p.parser .passwordLen
          username := Function.update p.username p.usernameCount.toNat 0 }, .passwordLen)
    else (p, .username)
  | .passwordLen => ({ p with passwordLen := e.data }, .passwordLen)
  | .password =>
    let p := { p with
      password := Function.update p.password p.passwordCount.toNat e.data
      passwordCount := p.passwordCount + 1 }
    if p.passwordCount ≥ p.passwordLen then
      ({ p with
          password := Function.update p.password p.passwordCount.toNat 0
          parser := parserSet p.parser .done }, .done)
    else (p, .password)
  | type => (p, type)

/-- The parser stands in its last state only when it says so. -/
theorem authParserFeed_done {p p' : AuthParser} {byte : UInt8} {state : AuthState}
    (h : authParserFeed p byte = (p', state)) (hdone : p'.parser.state = .done) :
    state = .done := by
  unfold authParserFeed at h
  simp only [parserFeed_auth] at h
  cases hstate : p.parser.state with
  | version =>
    simp only [hstate] at h
    by_cases hb : byte = SOCKS5_SUBNEGOTIATION_VERSION
    · simp only [hb, if_true, Prod.mk.injEq] at h
      rw [← h.1] at hdone
      cases hdone
    · simp only [hb, if_false, Prod.mk.injEq] at h
      rw [← h.1] at hdone
      cases hdone
  | usernameLen =>
    simp only [hstate] at h
    by_cases hb : byte = 0
    · simp only [hb, if_true, Prod.mk.injEq] at h
      rw [← h.1] at hdone
      cases hdone
    · simp only [hb, if_false, Prod.mk.injEq] at h
      rw [← h.1] at hdone
      cases hdone
  | username =>
    simp only [hstate] at h
    split at h
    · rw [← (Prod.mk.inj h).1] at hdone
      cases hdone
    · rw [← (Prod.mk.inj h).1] at hdone
      cases hdone
  | passwordLen =>
    simp only [hstate] at h
    by_cases hb : byte = 0
    · simp only [hb, if_true, Prod.mk.injEq] at h
      rw [← h.1] at hdone
      cases hdone
    · simp only [hb, if_false, Prod.mk.injEq] at h
      rw [← h.1] at hdone
      cases hdone
  | password =>
    simp only [hstate] at h
    split at h
    · exact (Prod.mk.inj h).2.symm
    · rw [← (Prod.mk.inj h).1] at hdone
      cases hdone
  | done =>
    simp only [hstate] at h
    exact (Prod.mk.inj h).2.symm
  | error =>
    simp only [hstate] at h
    rw [← (Prod.mk.inj h).1] at hdone
    cases hdone

end Socks5d
