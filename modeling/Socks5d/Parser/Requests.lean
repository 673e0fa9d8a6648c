import Socks5d.Lib.Feeding
import Socks5d.Parser.ConnReq

/-!
# The requests of `conn_req_parser.c`

The parser reads a header, as many address bytes as the header announces, and two bytes of port.
It looks at its counter only after it stored an address byte, so that it takes one such byte even
when the header announces none.
-/

namespace Socks5d

open Feeding

/-- One byte through the table, by the row of the current state. -/
theorem parserFeed_connReq (q : Parser ConnReqParserState) (byte : UInt8) :
    parserFeed connReqParserDefinition q byte =
      match q.state with
      | .version =>
        if byte = SOCKS5_VERSION then ⟨.cmd, ⟨.version, byte⟩⟩ else ⟨.error, ⟨.error, byte⟩⟩
      | .cmd =>
        if byte = SOCKS5_CONN_REQ_CMD_CONNECT ∨ byte = SOCKS5_CONN_REQ_CMD_BIND ∨
            byte = SOCKS5_CONN_REQ_CMD_UDP_ASSOCIATE then ⟨.rsv, ⟨.cmd, byte⟩⟩
        else ⟨.error, ⟨.error, byte⟩⟩
      | .rsv =>
        if byte = SOCKS5_CONN_REQ_RSV then ⟨.atyp, ⟨.rsv, byte⟩⟩ else ⟨.error, ⟨.error, byte⟩⟩
      | .atyp =>
        if byte = SOCKS5_CONN_REQ_ATYP_IPV4 ∨ byte = SOCKS5_CONN_REQ_ATYP_IPV6 then
          ⟨.dstAddr, ⟨.atyp, byte⟩⟩
        else if byte = SOCKS5_CONN_REQ_ATYP_DOMAIN_NAME then ⟨.domLen, ⟨.atyp, byte⟩⟩
        else ⟨.error, ⟨.error, byte⟩⟩
      | .domLen => ⟨.dstAddr, ⟨.domLen, byte⟩⟩
      | .dstAddr => ⟨.dstAddr, ⟨.dstAddr, byte⟩⟩
      | .dstPortByte1 => ⟨.dstPortByte2, ⟨.dstPortByte1, byte⟩⟩
      | .dstPortByte2 => ⟨.done, ⟨.dstPortByte2, byte⟩⟩
      | .done => ⟨.done, ⟨.done, byte⟩⟩
      | .error => ⟨.error, ⟨.error, byte⟩⟩ := by
  obtain ⟨state, e1⟩ := q
  cases state with
  | version =>
    by_cases hb : byte = SOCKS5_VERSION
    · subst hb; rfl
    · simp [parserFeed, ParserDefinition.row, connReqParserDefinition, ConnReqParserState.index,
        ConnReqParserState.versionTransitions, hb, ConnReqParserState.act]
  | cmd =>
    by_cases hb : byte = SOCKS5_CONN_REQ_CMD_CONNECT ∨ byte = SOCKS5_CONN_REQ_CMD_BIND ∨
        byte = SOCKS5_CONN_REQ_CMD_UDP_ASSOCIATE
    · simp only [hb, if_true]
      rcases hb with rfl | rfl | rfl <;> rfl
    · obtain ⟨h₁, h₂, h₃⟩ : byte ≠ SOCKS5_CONN_REQ_CMD_CONNECT ∧
          byte ≠ SOCKS5_CONN_REQ_CMD_BIND ∧ byte ≠ SOCKS5_CONN_REQ_CMD_UDP_ASSOCIATE := by
        simpa using hb
      simp [parserFeed, ParserDefinition.row, connReqParserDefinition, ConnReqParserState.index,
        ConnReqParserState.cmdTransitions, h₁, h₂, h₃, ConnReqParserState.act]
  | rsv =>
    by_cases hb : byte = SOCKS5_CONN_REQ_RSV
    · subst hb; rfl
    · simp [parserFeed, ParserDefinition.row, connReqParserDefinition, ConnReqParserState.index,
        ConnReqParserState.rsvTransitions, hb, ConnReqParserState.act]
  | atyp =>
    by_cases h₁ : byte = SOCKS5_CONN_REQ_ATYP_IPV4
    · subst h₁; rfl
    by_cases h₃ : byte = SOCKS5_CONN_REQ_ATYP_DOMAIN_NAME
    · subst h₃; rfl
    by_cases h₄ : byte = SOCKS5_CONN_REQ_ATYP_IPV6
    · subst h₄; rfl
    simp [parserFeed, ParserDefinition.row, connReqParserDefinition, ConnReqParserState.index,
      ConnReqParserState.atypTransitions, h₁, h₃, h₄, ConnReqParserState.act]
  | domLen => rfl
  | dstAddr => rfl
  | dstPortByte1 => rfl
  | dstPortByte2 => rfl
  | done => rfl
  | error => rfl

/-- The commands the parser knows. -/
def IsCommand (cmd : UInt8) : Prop :=
  cmd = SOCKS5_CONN_REQ_CMD_CONNECT ∨ cmd = SOCKS5_CONN_REQ_CMD_BIND ∨
    cmd = SOCKS5_CONN_REQ_CMD_UDP_ASSOCIATE

/-- The number of address bytes that a header announces; `len` is the length byte of a name. -/
def Announces (atyp len : UInt8) : Prop :=
  atyp = SOCKS5_CONN_REQ_ATYP_IPV4 ∧ len = 4 ∨ atyp = SOCKS5_CONN_REQ_ATYP_DOMAIN_NAME ∨
    atyp = SOCKS5_CONN_REQ_ATYP_IPV6 ∧ len = 16

/-- The length byte, which only a name has. -/
def lengthByte (atyp len : UInt8) : List UInt8 :=
  if atyp = SOCKS5_CONN_REQ_ATYP_DOMAIN_NAME then [len] else []

def requestHeader (cmd atyp len : UInt8) : List UInt8 :=
  SOCKS5_VERSION :: cmd :: SOCKS5_CONN_REQ_RSV :: atyp :: lengthByte atyp len

/-- A port in network byte order. -/
def portBytes (port : UInt16) : List UInt8 := [(port >>> 8).toUInt8, port.toUInt8]

/-- The request `05 cmd 00 atyp addr port`. -/
def connRequest (cmd atyp : UInt8) (addr : List UInt8) (port : UInt16) : List UInt8 :=
  requestHeader cmd atyp (UInt8.ofNat addr.length) ++ addr ++ portBytes port

/-- An address of the kind the header announces; a name has 1 to 255 bytes. -/
def IsAddress (atyp : UInt8) (addr : List UInt8) : Prop :=
  atyp = SOCKS5_CONN_REQ_ATYP_IPV4 ∧ addr.length = 4 ∨
    atyp = SOCKS5_CONN_REQ_ATYP_DOMAIN_NAME ∧ 1 ≤ addr.length ∧ addr.length ≤ 255 ∨
    atyp = SOCKS5_CONN_REQ_ATYP_IPV6 ∧ addr.length = 16

/-- The parsed fields, written out again as a request. -/
def ConnReqParser.encode (p : ConnReqParser) : List UInt8 :=
  requestHeader p.cmd p.atyp p.dstAddrLen ++ (List.range p.dstAddrLen.toNat).map p.dstAddr ++
    portBytes p.dstPort

def ConnReqParserState.Pending (state : ConnReqParserState) : Prop := state ≠ .done ∧ state ≠ .error

instance : DecidablePred ConnReqParserState.Pending := fun _ => inferInstanceAs (Decidable (_ ∧ _))

/-- The parser stands in this state with these bytes of the address stored. -/
structure ConnReqParser.At (junk : ℕ → UInt8) (p : ConnReqParser) (state : ConnReqParserState)
    (cmd atyp len : UInt8) (addr : List UInt8) : Prop where
  state : p.parser.state = state
  cmd : p.cmd = cmd
  atyp : p.atyp = atyp
  dstAddrLen : p.dstAddrLen = len
  dstAddrCount : p.dstAddrCount.toNat = addr.length
  dstAddr : p.dstAddr = filled junk addr

/-- The parser has read the whole address. -/
structure ConnReqParser.Addressed (junk : ℕ → UInt8) (p : ConnReqParser)
    (state : ConnReqParserState) (cmd atyp len : UInt8) (addr : List UInt8) : Prop where
  state : p.parser.state = state
  cmd : p.cmd = cmd
  atyp : p.atyp = atyp
  dstAddrLen : p.dstAddrLen = len
  dstAddr : p.dstAddr = filled junk (addr ++ [0])

/-- No byte of these bytes ends the request. -/
abbrev ConnReqParser.Goes (p : ConnReqParser) (bytes : List UInt8) : Prop :=
  Feeding.Goes connReqParserFeed ConnReqParserState.Pending p bytes

/-- The parser first gives this verdict on the last byte, and stays with it. -/
abbrev RequestEnds (junk : ℕ → UInt8) (front : List UInt8) (last : UInt8)
    (v : ConnReqParserState) : Prop :=
  Ends connReqParserFeed ConnReqParserState.Pending (connReqParserInit junk) front last v

section Port

theorem toNat_joined (high low : UInt8) :
    ((high.toUInt16 <<< 8) ||| low.toUInt16).toNat = high.toNat * 256 + low.toNat := by
  have hhigh := high.toNat_lt
  rw [UInt16.toNat_or, UInt16.toNat_shiftLeft, UInt8.toNat_toUInt16, UInt8.toNat_toUInt16,
    show (8 : UInt16).toNat % 16 = 8 from rfl, Nat.shiftLeft_eq, Nat.mod_eq_of_lt (by omega),
    ← Nat.shiftLeft_eq, ← Nat.shiftLeft_add_eq_or_of_lt low.toNat_lt, Nat.shiftLeft_eq]

theorem joined_portBytes (port : UInt16) :
    ((port >>> 8).toUInt8.toUInt16 <<< 8) ||| port.toUInt8.toUInt16 = port := by
  have hport := port.toNat_lt
  rw [← UInt16.toNat_inj, toNat_joined, UInt16.toNat_toUInt8, UInt16.toNat_toUInt8,
    UInt16.toNat_shiftRight, show (8 : UInt16).toNat % 16 = 8 from rfl, Nat.shiftRight_eq_div_pow]
  omega

theorem portBytes_joined (high low : UInt8) :
    portBytes ((high.toUInt16 <<< 8) ||| low.toUInt16) = [high, low] := by
  have hhigh := high.toNat_lt
  have hlow := low.toNat_lt
  have hjoined := toNat_joined high low
  rw [portBytes, List.cons.injEq, List.cons.injEq, ← UInt8.toNat_inj, ← UInt8.toNat_inj,
    UInt16.toNat_toUInt8, UInt16.toNat_toUInt8, UInt16.toNat_shiftRight, hjoined,
    show (8 : UInt16).toNat % 16 = 8 from rfl, Nat.shiftRight_eq_div_pow]
  exact ⟨by omega, by omega, rfl⟩

end Port

section Steps

variable {junk : ℕ → UInt8} {p : ConnReqParser} {cmd atyp len b : UInt8} {addr : List UInt8}

theorem ConnReqParser.goes_byte {v : ConnReqParserState} (hv : (connReqParserFeed p b).2 = v)
    (hpending : v.Pending) : p.Goes [b] := goes_singleton hv hpending

/-- In its last two states the parser stays. -/
theorem request_stays {v : ConnReqParserState} (hv : ¬ v.Pending) (hstate : p.parser.state = v)
    (more : List UInt8) : ∀ w ∈ verdicts connReqParserFeed p more, w = v := by
  intro w hw
  refine verdicts_sink (I := fun p => p.parser.state = v) (fun p b hp => ?_) hstate hw
  cases v with
  | done => simp [connReqParserFeed, parserFeed_connReq, hp]
  | error => simp [connReqParserFeed, parserFeed_connReq, hp]
  | _ => exact absurd (by decide) hv

theorem ConnReqParser.At.feed (h : p.At junk .dstAddr cmd atyp len addr)
    (hroom : addr.length + 1 < len.toNat) : (connReqParserFeed p b).2 = .dstAddr ∧
      (connReqParserFeed p b).1.At junk .dstAddr cmd atyp len (addr ++ [b]) := by
  have hlt := len.toNat_lt
  have hcount : (p.dstAddrCount + 1).toNat = addr.length + 1 := by
    rw [UInt8.toNat_add, h.dstAddrCount, UInt8.toNat_one]
    omega
  have hmore : ¬ p.dstAddrCount + 1 ≥ p.dstAddrLen := by
    rw [ge_iff_le, UInt8.le_iff_toNat_le, hcount, h.dstAddrLen]
    omega
  simp only [connReqParserFeed, parserFeed_connReq, h.state, if_neg hmore, true_and]
  exact ⟨rfl, h.cmd, h.atyp, h.dstAddrLen, by simp [hcount],
    by rw [h.dstAddr]; exact update_filled h.dstAddrCount b⟩

/-- The address is over as soon as it is long enough, but not before its first byte. -/
theorem ConnReqParser.At.feed_last (h : p.At junk .dstAddr cmd atyp len addr)
    (hlast : len.toNat ≤ addr.length + 1) (hroom : addr.length < 255) :
    (connReqParserFeed p b).2 = .dstPortByte1 ∧
      (connReqParserFeed p b).1.Addressed junk .dstPortByte1 cmd atyp len (addr ++ [b]) := by
  have hcount : (p.dstAddrCount + 1).toNat = addr.length + 1 := by
    rw [UInt8.toNat_add, h.dstAddrCount, UInt8.toNat_one]
    omega
  have hfull : p.dstAddrCount + 1 ≥ p.dstAddrLen := by
    rw [ge_iff_le, UInt8.le_iff_toNat_le, hcount, h.dstAddrLen]
    exact hlast
  simp only [connReqParserFeed, parserFeed_connReq, h.state, if_pos hfull, true_and]
  refine ⟨rfl, h.cmd, h.atyp, h.dstAddrLen, ?_⟩
  rw [h.dstAddr, update_filled h.dstAddrCount, update_filled (by simp [hcount])]

theorem ConnReqParser.At.feedAll (h : p.At junk .dstAddr cmd atyp len addr) (more : List UInt8)
    (hroom : addr.length + more.length < len.toNat) : p.Goes more ∧
      (Feeding.feedAll connReqParserFeed p more).At junk .dstAddr cmd atyp len (addr ++ more) := by
  induction more generalizing p addr with
  | nil => exact ⟨goes_nil p, by simpa using h⟩
  | cons b rest ih =>
    rw [List.length_cons] at hroom
    obtain ⟨hverdict, hnext⟩ := h.feed (b := b) (by omega)
    obtain ⟨hgoes, hrest⟩ := ih hnext (by rw [List.length_append, List.length_singleton]; omega)
    exact ⟨(ConnReqParser.goes_byte hverdict (by decide)).append hgoes, by simpa using hrest⟩

/-- All of the address but its last byte. -/
theorem ConnReqParser.At.feed_front (h : p.At junk .dstAddr cmd atyp len []) {front : List UInt8}
    (hlen : front.length + 1 ≤ max 1 len.toNat) : p.Goes front ∧
      (Feeding.feedAll connReqParserFeed p front).At junk .dstAddr cmd atyp len front := by
  by_cases hempty : front = []
  · subst hempty
    exact ⟨goes_nil p, h⟩
  · have hpos := List.length_pos_iff.mpr hempty
    simpa using h.feedAll front (by rw [List.length_nil]; omega)

/-- The two bytes of the port end the request. -/
theorem ConnReqParser.Addressed.feed_port (h : p.Addressed junk .dstPortByte1 cmd atyp len addr)
    (high low : UInt8) :
    p.Goes [high] ∧ (connReqParserFeed (connReqParserFeed p high).1 low).2 = .done ∧
      (connReqParserFeed (connReqParserFeed p high).1 low).1.Addressed junk .done cmd atyp len addr ∧
      (connReqParserFeed (connReqParserFeed p high).1 low).1.dstPort =
        (high.toUInt16 <<< 8) ||| low.toUInt16 := by
  have hhigh : connReqParserFeed p high = ({ p with
      parser := ⟨.dstPortByte2, ⟨.dstPortByte1, high⟩⟩, dstPort := high.toUInt16 }, .dstPortByte1) := by
    simp only [connReqParserFeed, parserFeed_connReq, h.state]
  refine ⟨ConnReqParser.goes_byte (v := .dstPortByte1) (congrArg Prod.snd hhigh) (by decide), ?_⟩
  rw [hhigh]
  simp only [connReqParserFeed, parserFeed_connReq]
  exact ⟨trivial, ⟨rfl, h.cmd, h.atyp, h.dstAddrLen, h.dstAddr⟩, trivial⟩

end Steps

section Header

variable {junk : ℕ → UInt8} {p : ConnReqParser} {cmd atyp len b : UInt8} {addr bytes : List UInt8}

/-- The fixed front of a header. -/
def commandBytes (cmd : UInt8) : List UInt8 := [SOCKS5_VERSION, cmd, SOCKS5_CONN_REQ_RSV]

theorem feed_command (junk : ℕ → UInt8) (hcmd : IsCommand cmd) :
    (connReqParserInit junk).Goes (commandBytes cmd) ∧
      feedAll connReqParserFeed (connReqParserInit junk) (commandBytes cmd) =
        { connReqParserInit junk with parser := ⟨.atyp, ⟨.rsv, SOCKS5_CONN_REQ_RSV⟩⟩, cmd := cmd } := by
  have hversion : connReqParserFeed (connReqParserInit junk) SOCKS5_VERSION =
      ({ connReqParserInit junk with parser := ⟨.cmd, ⟨.version, SOCKS5_VERSION⟩⟩ }, .version) := rfl
  have hcommand : connReqParserFeed
      { connReqParserInit junk with parser := ⟨.cmd, ⟨.version, SOCKS5_VERSION⟩⟩ } cmd =
      ({ connReqParserInit junk with parser := ⟨.rsv, ⟨.cmd, cmd⟩⟩, cmd := cmd }, .cmd) := by
    simp only [connReqParserFeed, parserFeed_connReq, if_pos (show _ ∨ _ ∨ _ from hcmd)]
  have hrsv : connReqParserFeed
      { connReqParserInit junk with parser := ⟨.rsv, ⟨.cmd, cmd⟩⟩, cmd := cmd } SOCKS5_CONN_REQ_RSV =
      ({ connReqParserInit junk with
          parser := ⟨.atyp, ⟨.rsv, SOCKS5_CONN_REQ_RSV⟩⟩, cmd := cmd }, .rsv) := rfl
  constructor
  · intro v hv
    simp only [commandBytes, verdicts_cons, verdicts_nil, hversion, hcommand, hrsv, List.mem_cons,
      List.not_mem_nil, or_false] at hv
    rcases hv with rfl | rfl | rfl <;> decide
  · simp only [commandBytes, feedAll_cons, feedAll_nil, hversion, hcommand, hrsv]

/-- A header is read without a final verdict. -/
theorem feed_header (junk : ℕ → UInt8) (hcmd : IsCommand cmd) (hannounces : Announces atyp len) :
    (connReqParserInit junk).Goes (requestHeader cmd atyp len) ∧
      (feedAll connReqParserFeed (connReqParserInit junk) (requestHeader cmd atyp len)).At junk
        .dstAddr cmd atyp len [] := by
  obtain ⟨hgoes, hstart⟩ := feed_command junk hcmd
  rw [show requestHeader cmd atyp len = commandBytes cmd ++ atyp :: lengthByte atyp len from rfl]
  have hrest : ∀ q : ConnReqParser, q = { connReqParserInit junk with
      parser := ⟨.atyp, ⟨.rsv, SOCKS5_CONN_REQ_RSV⟩⟩, cmd := cmd } →
      q.Goes (atyp :: lengthByte atyp len) ∧
        (feedAll connReqParserFeed q (atyp :: lengthByte atyp len)).At junk .dstAddr cmd atyp len [] := by
    intro q hq
    rcases hannounces with ⟨rfl, rfl⟩ | rfl | ⟨rfl, rfl⟩
    · subst hq
      exact ⟨ConnReqParser.goes_byte (v := .atyp) rfl (by decide), rfl, rfl, rfl, rfl, rfl, rfl⟩
    · have hname : q.Goes [SOCKS5_CONN_REQ_ATYP_DOMAIN_NAME] :=
        ConnReqParser.goes_byte (v := .atyp) (by rw [hq]; rfl) (by decide)
      subst hq
      exact ⟨hname.append (ConnReqParser.goes_byte (v := .domLen) rfl (by decide)),
        rfl, rfl, rfl, rfl, rfl, rfl⟩
    · subst hq
      exact ⟨ConnReqParser.goes_byte (v := .atyp) rfl (by decide), rfl, rfl, rfl, rfl, rfl, rfl⟩
  obtain ⟨hgoes', hat⟩ := hrest _ hstart
  exact ⟨hgoes.append hgoes', by rw [feedAll_append]; exact hat⟩

/-- A request ends with its port, and its address has at least one byte. -/
theorem requestEnds (junk : ℕ → UInt8) (hcmd : IsCommand cmd) (hannounces : Announces atyp len)
    (haddr : addr.length = max 1 len.toNat) (high low : UInt8) :
    RequestEnds junk (requestHeader cmd atyp len ++ addr ++ [high]) low .done ∧
      (feedAll connReqParserFeed (connReqParserInit junk)
        (requestHeader cmd atyp len ++ addr ++ [high, low])).Addressed junk .done cmd atyp len addr ∧
      (feedAll connReqParserFeed (connReqParserInit junk)
        (requestHeader cmd atyp len ++ addr ++ [high, low])).dstPort =
          (high.toUInt16 <<< 8) ||| low.toUInt16 := by
  have hlt := len.toNat_lt
  obtain ⟨front, last, hsplit⟩ : ∃ front last, addr = front ++ [last] :=
    ⟨_, _, (List.dropLast_concat_getLast (List.ne_nil_of_length_pos (by omega))).symm⟩
  have hcount : front.length + 1 = max 1 len.toNat := by rw [← haddr, hsplit]; simp
  obtain ⟨hgoes, hat⟩ := feed_header junk hcmd hannounces
  obtain ⟨hgoes₁, hat₁⟩ := hat.feed_front (by omega : front.length + 1 ≤ max 1 len.toNat)
  obtain ⟨hverdict, hdone⟩ := hat₁.feed_last (b := last) (by omega) (by omega)
  rw [← hsplit] at hdone
  obtain ⟨hgoes₂, hlast, hend, hport⟩ := hdone.feed_port high low
  have hgoes₃ := hgoes.append
    (hgoes₁.append ((ConnReqParser.goes_byte hverdict (by decide)).append hgoes₂))
  have hfed : feedAll connReqParserFeed (connReqParserInit junk)
      (requestHeader cmd atyp len ++ addr ++ [high]) = (connReqParserFeed (connReqParserFeed
        (feedAll connReqParserFeed (feedAll connReqParserFeed (connReqParserInit junk)
          (requestHeader cmd atyp len)) front) last).1 high).1 := by
    rw [hsplit, feedAll_append, feedAll_append, feedAll_append]
    rfl
  have hall : requestHeader cmd atyp len ++ addr ++ [high, low] =
      requestHeader cmd atyp len ++ addr ++ [high] ++ [low] := by simp
  rw [hall, feedAll_append, feedAll_cons, feedAll_nil, hfed]
  refine ⟨⟨?_, by rw [hfed]; exact hlast, by rw [hfed]; exact request_stays (by decide) hend.state⟩,
    hend, hport⟩
  rw [hsplit]
  simpa using hgoes₃

end Header

/-- What is decoded from a request, fed byte by byte. -/
structure RequestDecoded (junk : ℕ → UInt8) (cmd atyp : UInt8) (addr : List UInt8) (port : UInt16)
    (bytes : List UInt8) (p : ConnReqParser) : Prop where
  done_last : FirstReturns connReqParserFeed (connReqParserInit junk) bytes .done bytes.length
  never_error : .error ∉ verdicts connReqParserFeed (connReqParserInit junk) bytes
  cmd : p.cmd = cmd
  atyp : p.atyp = atyp
  dstAddrLen : p.dstAddrLen.toNat = addr.length
  dstAddr : p.dstAddr = filled junk (addr ++ [0])
  dstPort : p.dstPort = port
  /-- Nothing is written behind the array, at any time. -/
  inBounds : ∀ front, front <+: bytes → ∀ i, 256 ≤ i →
    (feedAll connReqParserFeed (connReqParserInit junk) front).dstAddr i = junk i

section Decoding

variable {junk : ℕ → UInt8} {p : ConnReqParser} {cmd atyp len b : UInt8} {addr bytes : List UInt8}

theorem announces_of_isAddress (h : IsAddress atyp addr) :
    Announces atyp (UInt8.ofNat addr.length) ∧
      addr.length = max 1 (UInt8.ofNat addr.length).toNat ∧
      (UInt8.ofNat addr.length).toNat = addr.length := by
  have hbounds : 1 ≤ addr.length ∧ addr.length ≤ 255 := by
    rcases h with ⟨-, hlen⟩ | ⟨-, hbounds⟩ | ⟨-, hlen⟩
    · omega
    · exact hbounds
    · omega
  have hlen : (UInt8.ofNat addr.length).toNat = addr.length :=
    UInt8.toNat_ofNat_of_lt' (by rw [UInt8.size]; omega)
  refine ⟨?_, by omega, hlen⟩
  rcases h with ⟨hatyp, hlen⟩ | ⟨hatyp, -⟩ | ⟨hatyp, hlen⟩
  · exact .inl ⟨hatyp, by rw [hlen]; rfl⟩
  · exact .inr (.inl hatyp)
  · exact .inr (.inr ⟨hatyp, by rw [hlen]; rfl⟩)

theorem feed_dstAddr_inBounds {i : ℕ} (hi : 256 ≤ i) (b : UInt8) :
    (connReqParserFeed p b).1.dstAddr i = p.dstAddr i := by
  have hupdate : ∀ (mem : ℕ → UInt8) (count x : UInt8),
      Function.update mem count.toNat x i = mem i := by
    intro mem count x
    have hlt := count.toNat_lt
    exact Function.update_of_ne (by omega) _ _
  simp only [connReqParserFeed]
  split
  · rfl
  · split
    · rfl
    · split
      · rfl
      · split <;> rfl
  · rfl
  · split
    · exact (hupdate _ _ _).trans (hupdate _ _ _)
    · exact hupdate _ _ _
  · rfl
  · rfl
  · rfl

end Decoding

/-- A request is decoded, on its last byte and with the fields it was sent with. -/
theorem request_decoded (junk : ℕ → UInt8) {cmd atyp : UInt8} {addr : List UInt8}
    (hcmd : IsCommand cmd) (haddr : IsAddress atyp addr) (port : UInt16) :
    RequestDecoded junk cmd atyp addr port (connRequest cmd atyp addr port)
      (feedAll connReqParserFeed (connReqParserInit junk) (connRequest cmd atyp addr port)) := by
  obtain ⟨hannounces, hmax, hlen⟩ := announces_of_isAddress haddr
  obtain ⟨hends, hend, hport⟩ :=
    requestEnds junk hcmd hannounces hmax (port >>> 8).toUInt8 port.toUInt8
  have hbytes : connRequest cmd atyp addr port = (requestHeader cmd atyp (UInt8.ofNat addr.length) ++
      addr ++ [(port >>> 8).toUInt8]) ++ port.toUInt8 :: [] := by simp [connRequest, portBytes]
  refine ⟨?_, ?_, hend.cmd, hend.atyp, ?_, hend.dstAddr, hport.trans (joined_portBytes port), ?_⟩
  · rw [hbytes]
    refine (hends.firstReturns_iff (by decide) (by decide) _).mpr ⟨rfl, ?_⟩
    rw [List.length_append, List.length_singleton]
  · intro herror
    rw [hbytes] at herror
    rcases hends.only herror with hpending | herror
    · exact hpending.2 rfl
    · cases herror
  · rw [connRequest, portBytes, hend.dstAddrLen, hlen]
  · intro front _ i hi
    exact feedAll_invariant (I := fun p : ConnReqParser => p.dstAddr i = junk i)
      (fun p b hp => (feed_dstAddr_inBounds hi b).trans hp) rfl

/-- A request for the longest name there is. -/
theorem request_decoded_longest : RequestDecoded (fun _ => 7) SOCKS5_CONN_REQ_CMD_CONNECT
    SOCKS5_CONN_REQ_ATYP_DOMAIN_NAME (List.replicate 255 97) 443
    (connRequest SOCKS5_CONN_REQ_CMD_CONNECT SOCKS5_CONN_REQ_ATYP_DOMAIN_NAME
      (List.replicate 255 97) 443)
    (feedAll connReqParserFeed (connReqParserInit fun _ => 7)
      (connRequest SOCKS5_CONN_REQ_CMD_CONNECT SOCKS5_CONN_REQ_ATYP_DOMAIN_NAME
        (List.replicate 255 97) 443)) :=
  request_decoded _ (.inl rfl) (.inr (.inl ⟨rfl, List.length_replicate ▸ by decide,
    List.length_replicate ▸ Nat.le_refl 255⟩)) 443

/-- The bytes that do not make the parser give up. -/
def ConnReqParserState.Admits : ConnReqParserState → UInt8 → Prop
  | .version, b => b = SOCKS5_VERSION
  | .cmd, b => IsCommand b
  | .rsv, b => b = SOCKS5_CONN_REQ_RSV
  | .atyp, b => b = SOCKS5_CONN_REQ_ATYP_IPV4 ∨ b = SOCKS5_CONN_REQ_ATYP_IPV6 ∨
      b = SOCKS5_CONN_REQ_ATYP_DOMAIN_NAME
  | .error, _ => False
  | _, _ => True

section Converse

variable {junk : ℕ → UInt8} {p : ConnReqParser} {cmd atyp len b : UInt8} {rest bytes : List UInt8}

/-- Where a request is still possible, every byte so far was admitted. -/
theorem admits_of_done (hdone : .done ∈ verdicts connReqParserFeed p (b :: rest)) :
    p.parser.state.Admits b := by
  by_contra hrefused
  have herror : (connReqParserFeed p b).2 = .error ∧
      (connReqParserFeed p b).1.parser.state = .error := by
    cases hstate : p.parser.state with
    | version =>
      rw [hstate] at hrefused
      simp only [connReqParserFeed, parserFeed_connReq, hstate,
        if_neg (show ¬ b = SOCKS5_VERSION from hrefused), and_self]
    | cmd =>
      rw [hstate] at hrefused
      simp only [connReqParserFeed, parserFeed_connReq, hstate,
        if_neg (show ¬ (_ ∨ _ ∨ _) from hrefused), and_self]
    | rsv =>
      rw [hstate] at hrefused
      simp only [connReqParserFeed, parserFeed_connReq, hstate,
        if_neg (show ¬ b = SOCKS5_CONN_REQ_RSV from hrefused), and_self]
    | atyp =>
      rw [hstate] at hrefused
      obtain ⟨hipv4, hipv6, hname⟩ : b ≠ SOCKS5_CONN_REQ_ATYP_IPV4 ∧
          b ≠ SOCKS5_CONN_REQ_ATYP_IPV6 ∧ b ≠ SOCKS5_CONN_REQ_ATYP_DOMAIN_NAME := by
        simpa [ConnReqParserState.Admits] using hrefused
      simp [connReqParserFeed, parserFeed_connReq, hstate, hipv4, hipv6, hname]
    | error => simp [connReqParserFeed, parserFeed_connReq, hstate]
    | _ =>
      rw [hstate] at hrefused
      exact absurd trivial hrefused
  rw [verdicts_cons, herror.1] at hdone
  rcases List.mem_cons.mp hdone with hdone | hdone
  · cases hdone
  · cases request_stays (v := .error) (by decide) herror.2 rest .done hdone

theorem done_tail {v : ConnReqParserState} (hverdict : (connReqParserFeed p b).2 = v)
    (hv : v ≠ .done) (hdone : .done ∈ verdicts connReqParserFeed p (b :: rest)) :
    .done ∈ verdicts connReqParserFeed (connReqParserFeed p b).1 rest := by
  rw [verdicts_cons, hverdict] at hdone
  exact (List.mem_cons.mp hdone).resolve_left (Ne.symm hv)

/-- A request begins with a command. -/
theorem command_of_done
    (hdone : .done ∈ verdicts connReqParserFeed (connReqParserInit junk) bytes) :
    ∃ cmd rest, IsCommand cmd ∧ bytes = commandBytes cmd ++ rest := by
  cases bytes with
  | nil => cases hdone
  | cons v rest =>
    obtain rfl : v = SOCKS5_VERSION := admits_of_done hdone
    replace hdone := done_tail (v := .version) rfl (by decide) hdone
    cases rest with
    | nil => cases hdone
    | cons cmd rest =>
      have hcmd : IsCommand cmd := admits_of_done hdone
      have hnext : (connReqParserFeed (connReqParserFeed (connReqParserInit junk)
          SOCKS5_VERSION).1 cmd).2 = .cmd ∧ (connReqParserFeed (connReqParserFeed
            (connReqParserInit junk) SOCKS5_VERSION).1 cmd).1.parser.state = .rsv := by
        rcases hcmd with rfl | rfl | rfl
        · exact ⟨rfl, rfl⟩
        · exact ⟨rfl, rfl⟩
        · exact ⟨rfl, rfl⟩
      replace hdone := done_tail hnext.1 (by decide) hdone
      cases rest with
      | nil => cases hdone
      | cons rsv rest =>
        have hadmits := admits_of_done hdone
        rw [hnext.2] at hadmits
        obtain rfl : rsv = SOCKS5_CONN_REQ_RSV := hadmits
        exact ⟨cmd, rest, hcmd, rfl⟩

theorem done_of_goes {more : List UInt8} (hgoes : p.Goes bytes)
    (hdone : .done ∈ verdicts connReqParserFeed p (bytes ++ more)) :
    .done ∈ verdicts connReqParserFeed (feedAll connReqParserFeed p bytes) more := by
  rw [verdicts_append] at hdone
  rcases List.mem_append.mp hdone with hdone | hdone
  · exact absurd rfl (hgoes _ hdone).1
  · exact hdone

/-- A request begins with a header. -/
theorem header_of_done
    (hdone : .done ∈ verdicts connReqParserFeed (connReqParserInit junk) bytes) :
    ∃ cmd atyp len rest, IsCommand cmd ∧ Announces atyp len ∧
      bytes = requestHeader cmd atyp len ++ rest := by
  obtain ⟨cmd, rest, hcmd, rfl⟩ := command_of_done hdone
  obtain ⟨hgoes, hstart⟩ := feed_command junk hcmd
  replace hdone := done_of_goes hgoes hdone
  rw [hstart] at hdone
  cases rest with
  | nil => cases hdone
  | cons atyp rest =>
    have hatyp : atyp = SOCKS5_CONN_REQ_ATYP_IPV4 ∨ atyp = SOCKS5_CONN_REQ_ATYP_IPV6 ∨
      atyp = SOCKS5_CONN_REQ_ATYP_DOMAIN_NAME := admits_of_done hdone
    rcases hatyp with rfl | rfl | rfl
    · exact ⟨cmd, _, 4, rest, hcmd, .inl ⟨rfl, rfl⟩, rfl⟩
    · exact ⟨cmd, _, 16, rest, hcmd, .inr (.inr ⟨rfl, rfl⟩), rfl⟩
    · replace hdone := done_tail (v := .atyp) rfl (by decide) hdone
      cases rest with
      | nil => cases hdone
      | cons len rest => exact ⟨cmd, _, len, rest, hcmd, .inr (.inl rfl), rfl⟩

/-- Behind the header comes an address of at least one byte, and a port. -/
theorem request_of_done
    (hdone : .done ∈ verdicts connReqParserFeed (connReqParserInit junk) bytes) :
    ∃ cmd atyp len addr high low more, IsCommand cmd ∧ Announces atyp len ∧
      addr.length = max 1 len.toNat ∧
      bytes = requestHeader cmd atyp len ++ addr ++ [high] ++ low :: more := by
  obtain ⟨cmd, atyp, len, rest, hcmd, hannounces, rfl⟩ := header_of_done hdone
  by_cases hlong : max 1 len.toNat + 2 ≤ rest.length
  · obtain ⟨high, low, more, hmore⟩ : ∃ high low more, rest.drop (max 1 len.toNat) =
        high :: low :: more := by
      rcases hdrop : rest.drop (max 1 len.toNat) with _ | ⟨high, _ | ⟨low, more⟩⟩
      · have := congrArg List.length hdrop
        rw [List.length_drop, List.length_nil] at this
        omega
      · have := congrArg List.length hdrop
        rw [List.length_drop, List.length_singleton] at this
        omega
      · exact ⟨high, low, more, rfl⟩
    refine ⟨cmd, atyp, len, rest.take (max 1 len.toNat), high, low, more, hcmd, hannounces, ?_, ?_⟩
    · rw [List.length_take]
      omega
    · conv_lhs => rw [← List.take_append_drop (max 1 len.toNat) rest, hmore]
      simp
  · -- too short: the string is the front part of a longer request
    exfalso
    have hlength : (rest ++ List.replicate (max 1 len.toNat + 1 - rest.length) 0).length =
        max 1 len.toNat + 1 := by
      rw [List.length_append, List.length_replicate]
      omega
    obtain ⟨addr, high, hfull⟩ : ∃ addr high,
        rest ++ List.replicate (max 1 len.toNat + 1 - rest.length) 0 = addr ++ [high] :=
      ⟨_, _, (List.dropLast_concat_getLast (List.ne_nil_of_length_pos (by omega))).symm⟩
    have haddr : addr.length = max 1 len.toNat := by
      rw [hfull, List.length_append, List.length_singleton] at hlength
      omega
    obtain ⟨hends, -⟩ := requestEnds junk hcmd hannounces haddr high 0
    have hgoes := hends.goes
    rw [List.append_assoc, ← hfull, ← List.append_assoc] at hgoes
    exact (hgoes.begins (List.prefix_append _ _) _ hdone).1 rfl

end Converse

/-- A string on whose last byte a request first ends is the encoding of what was parsed, unless it
announces a name without bytes. -/
theorem encode_iff (junk : ℕ → UInt8) {bytes : List UInt8}
    (h : FirstReturns connReqParserFeed (connReqParserInit junk) bytes .done bytes.length) :
    (feedAll connReqParserFeed (connReqParserInit junk) bytes).encode = bytes ↔
      ¬ (bytes[3]? = some SOCKS5_CONN_REQ_ATYP_DOMAIN_NAME ∧ bytes[4]? = some 0) := by
  obtain ⟨cmd, atyp, len, addr, high, low, more, hcmd, hannounces, haddr, rfl⟩ :=
    request_of_done h.mem
  obtain ⟨hends, hend, hport⟩ := requestEnds junk hcmd hannounces haddr high low
  obtain ⟨-, hlength⟩ := (hends.firstReturns_iff (by decide) (by decide) _).mp h
  obtain rfl : more = [] := by
    rw [List.length_append, List.length_cons] at hlength
    exact List.length_eq_zero_iff.mp (by omega)
  rw [show requestHeader cmd atyp len ++ addr ++ [high] ++ low :: [] =
    requestHeader cmd atyp len ++ addr ++ [high, low] by simp]
  have hencode : (feedAll connReqParserFeed (connReqParserInit junk)
      (requestHeader cmd atyp len ++ addr ++ [high, low])).encode =
      requestHeader cmd atyp len ++ (List.range len.toNat).map (filled junk (addr ++ [0])) ++
        [high, low] := by
    rw [ConnReqParser.encode, hend.cmd, hend.atyp, hend.dstAddrLen, hend.dstAddr, hport,
      portBytes_joined]
  rw [hencode, List.append_assoc, List.append_assoc, List.append_cancel_left_eq,
    List.append_cancel_right_eq]
  have hatyp : (requestHeader cmd atyp len ++ (addr ++ [high, low]))[3]? = some atyp := rfl
  by_cases hzero : len = 0
  · subst hzero
    have hname : atyp = SOCKS5_CONN_REQ_ATYP_DOMAIN_NAME := by
      rcases hannounces with ⟨-, hlen⟩ | hname | ⟨-, hlen⟩
      · cases hlen
      · exact hname
      · cases hlen
    refine iff_of_false ?_ (not_not.mpr ⟨by rw [hatyp, hname], by rw [hname]; rfl⟩)
    intro hempty
    rw [← hempty] at haddr
    cases haddr
  · have hlen : addr.length = len.toNat := by
      have hpos : len.toNat ≠ 0 := fun h0 => hzero (UInt8.toNat_inj.mp h0)
      omega
    refine iff_of_true ?_ ?_
    · rw [← hlen, map_range_filled (by simp), List.take_left]
    · rw [hatyp]
      rintro ⟨hname, hfourth⟩
      obtain rfl := Option.some.inj hname
      exact hzero (Option.some.inj hfourth)

/-- A request for an IPv4 address. -/
theorem encode_ipv4 : (feedAll connReqParserFeed (connReqParserInit fun _ => 7)
    [5, 1, 0, 1, 127, 0, 0, 1, 0, 80]).encode = [5, 1, 0, 1, 127, 0, 0, 1, 0, 80] :=
  (encode_iff (fun _ => 7)
    ⟨[5, 1, 0, 1, 127, 0, 0, 1, 0], 80, [], rfl, rfl, rfl, by decide⟩).mpr (by decide)

/-- A name of length zero is followed by one byte that is taken for its first. -/
theorem not_encode_empty_name : ¬ ∀ junk bytes,
    FirstReturns connReqParserFeed (connReqParserInit junk) bytes .done bytes.length →
      (feedAll connReqParserFeed (connReqParserInit junk) bytes).encode = bytes := by
  intro hall
  have hencode := hall (fun _ => 7) [5, 1, 0, 3, 0, 97, 0, 80]
    ⟨[5, 1, 0, 3, 0, 97, 0], 80, [], rfl, rfl, rfl, by decide⟩
  exact absurd hencode (by decide)

end Socks5d
