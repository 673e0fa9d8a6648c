import Socks5d.Judgement
import Socks5d.Selection
import Socks5d.Parser.Requests

/-!
# The stream of a client

A client that plays by the rules sends a greeting, a sub-negotiation message if the greeting offers
credentials, a CONNECT request, and then what it likes. Each read loop of the server is a scan of
the bytes in `in_buff`, so what it makes of the part of a message that has come is known from the
message.
-/

namespace Socks5d

open Feeding

/-- The messages of a client, and what it sends behind them. The name and the password are sent
only where they are asked for. -/
structure ClientStream where
  methods : List UInt8
  name : List UInt8
  pass : List UInt8
  atyp : UInt8
  addr : List UInt8
  port : UInt16
  payload : List UInt8
  isField_methods : IsField methods
  isField_name : IsField name
  isField_pass : IsField pass
  isAddress : IsAddress atyp addr

namespace ClientStream

variable (o : ClientStream)

/-- The greeting, which announces as many methods as follow. -/
def greeting : List UInt8 := Socks5d.greeting (UInt8.ofNat o.methods.length) o.methods

/-- The greeting offers credentials. -/
def negotiates : Bool := decide (SOCKS5_AUTH_METHOD_USER_PASS ∈ o.methods)

/-- The sub-negotiation message, where there is one. -/
def auth : List UInt8 := if o.negotiates then authMessage o.name o.pass else []

/-- The request for a connection. -/
def request : List UInt8 := connRequest SOCKS5_CONN_REQ_CMD_CONNECT o.atyp o.addr o.port

/-- Everything that is sent before the relay. -/
def opening : List UInt8 := o.greeting ++ (o.auth ++ o.request)

/-- The whole stream. -/
def bytes : List UInt8 := o.opening ++ o.payload

/-- The number of methods in front of the first unknown one. -/
def known : ℕ := (o.methods.takeWhile isValidSocks5AuthMethod).length

/-- The server knows every method that is offered. -/
def Sound : Prop := ∀ m ∈ o.methods, isValidSocks5AuthMethod m = true

instance : Decidable o.Sound := inferInstanceAs (Decidable (∀ m ∈ o.methods, _))

/-- An unknown method is among the first bytes of the stream. -/
def Spoiled (n : ℕ) : Prop := o.known < o.methods.length ∧ o.known + 2 < n

instance (n : ℕ) : Decidable (o.Spoiled n) := inferInstanceAs (Decidable (_ ∧ _))

/-- The length of a greeting. -/
theorem length_greeting : o.greeting.length = o.methods.length + 2 := by
  simp [greeting, Socks5d.greeting]

/-- A greeting of known methods is never spoiled. -/
theorem Sound.not_spoiled {o : ClientStream} (h : o.Sound) (n : ℕ) : ¬ o.Spoiled n := by
  rintro ⟨hlt, -⟩
  rw [known, List.takeWhile_eq_self_iff.mpr h] at hlt
  exact Nat.lt_irrefl _ hlt

/-- The number of methods is announced as it is. -/
theorem toNat_announced : (UInt8.ofNat o.methods.length).toNat = o.methods.length :=
  UInt8.toNat_ofNat_of_lt' (by
    have hle := o.isField_methods.2
    rw [UInt8.size]
    omega)

/-- Where the handshake comes to its end: on the last method if all are known, else on the first
unknown one. -/
theorem greeting_split : ∃ front last more v, o.greeting = front ++ last :: more ∧
    handshakeParserInit.Goes front ∧
    (handshakeParserFeed (feedAll handshakeParserFeed handshakeParserInit front) last).2 = v ∧
    (o.Sound ∧ more = [] ∧ v = .done ∧
        (feedAll handshakeParserFeed handshakeParserInit (front ++ [last])).Offered o.methods ∨
      ¬ o.Sound ∧ front.length = o.known + 2 ∧ v = .error) := by
  have hn := o.toNat_announced
  by_cases hsound : o.Sound
  · obtain ⟨ms, m, hsplit⟩ : ∃ ms m, o.methods = ms ++ [m] :=
      ⟨_, _, (List.dropLast_concat_getLast
        (List.ne_nil_of_length_pos o.isField_methods.1)).symm⟩
    have hlen : o.methods.length = ms.length + 1 := by rw [hsplit]; simp
    obtain ⟨hgoes, hat⟩ := feed_greeting (UInt8.ofNat o.methods.length)
      (by omega : ms.length < (UInt8.ofNat o.methods.length).toNat)
      fun x hx => hsound x (by rw [hsplit]; exact List.mem_append_left _ hx)
    obtain ⟨hverdict, hend⟩ := hat.feed (m := m) (by omega) (hsound m (by rw [hsplit]; simp))
    rw [if_pos (by omega)] at hverdict
    refine ⟨Socks5d.greeting (UInt8.ofNat o.methods.length) ms, m, [], .done, ?_, hgoes, hverdict,
      .inl ⟨hsound, rfl, rfl, ?_⟩⟩
    · simp [greeting, Socks5d.greeting, ← hsplit]
    · rw [feedAll_concat]
      exact hsplit ▸ hend.offered
  · obtain ⟨before, m, after, hsplit, hbefore, hm⟩ := exists_first_unknown hsound
    have hlen : before.length < o.methods.length := by rw [hsplit]; simp
    obtain ⟨hgoes, hat⟩ := feed_greeting (UInt8.ofNat o.methods.length)
      (by omega : before.length < (UInt8.ofNat o.methods.length).toNat) hbefore
    refine ⟨Socks5d.greeting (UInt8.ofNat o.methods.length) before, m, after, .error, ?_, hgoes,
      hat.feed_unknown hm, .inr ⟨hsound, ?_, rfl⟩⟩
    · simp [greeting, Socks5d.greeting, hsplit]
    · rw [known, hsplit, List.takeWhile_append_of_pos hbefore,
        List.takeWhile_cons_of_neg (by simp [hm])]
      simp [Socks5d.greeting]

variable {o} {front : List UInt8} {junk : ℕ → UInt8}

/-- What the loop of the handshake makes of the beginning of a stream. -/
theorem scan_greeting (h : front <+: o.bytes)
    (hend : o.Sound → front.length ≤ o.greeting.length) :
    (front.length < o.greeting.length ∧ ¬ o.Spoiled front.length ∧ handshakeParserInit.Goes front) ∨
    (o.Spoiled front.length ∧ ∃ q left, Scan handshakeParserFeed HandshakeState.Pending
      handshakeParserInit front (some .error) q left) ∨
    (o.Sound ∧ front = o.greeting ∧ ∃ q, Scan handshakeParserFeed HandshakeState.Pending
      handshakeParserInit front (some .done) q [] ∧ q.Offered o.methods) := by
  obtain ⟨before, last, more, v, hsplit, hgoes, hverdict, hkind⟩ := o.greeting_split
  have hlen : o.greeting.length = before.length + more.length + 1 := by rw [hsplit]; simp; omega
  have hbegins : front <+: before ++ last :: (more ++ (o.auth ++ o.request ++ o.payload)) := by
    simpa [bytes, opening, hsplit] using h
  have hfinal : ¬ v.Pending := by
    rcases hkind with ⟨-, -, rfl, -⟩ | ⟨-, -, rfl⟩
    · decide
    · decide
  rcases scan_of_prefix hgoes hverdict hfinal hbegins with ⟨hfront, hgoes'⟩ | ⟨rest, rfl, hscan⟩
  · have hle := hfront.length_le
    refine .inl ⟨by omega, fun hspoiled => ?_, hgoes'⟩
    rcases hkind with ⟨hsound, -⟩ | ⟨-, hknown, -⟩
    · exact hsound.not_spoiled _ hspoiled
    · have hlate := hspoiled.2
      omega
  · rcases hkind with ⟨hsound, rfl, rfl, hoffered⟩ | ⟨-, hknown, rfl⟩
    · -- nothing was read beyond the last method
      have hle := hend hsound
      simp only [List.length_append, List.length_cons, List.length_nil] at hle hlen
      obtain rfl : rest = [] := List.eq_nil_of_length_eq_zero (by omega)
      exact .inr (.inr ⟨hsound, hsplit.symm, _, hscan, hoffered⟩)
    · have hgreeting := o.length_greeting
      refine .inr (.inl ⟨⟨by omega, ?_⟩, _, _, hscan⟩)
      simp only [List.length_append, List.length_cons]
      omega

/-- What the loop of the sub-negotiation makes of the beginning of its message. -/
theorem scan_auth (junk : ℕ → UInt8) (hnegotiates : o.negotiates = true)
    (h : front <+: o.auth ++ (o.request ++ o.payload)) (hend : front.length ≤ o.auth.length) :
    (front.length < o.auth.length ∧
      Feeding.Goes authParserFeed AuthState.Pending (authParserInit junk) front) ∨
    (front = o.auth ∧ ∃ q, Scan authParserFeed AuthState.Pending (authParserInit junk) front
      (some .done) q [] ∧ q.Complete junk o.name o.pass) := by
  obtain ⟨before, last, hsplit, hends, hcomplete⟩ :=
    authEnds_message junk o.isField_name o.isField_pass
  have hauth : o.auth = before ++ [last] := by rw [auth, if_pos hnegotiates, hsplit]
  have hlen : o.auth.length = before.length + 1 := by rw [hauth]; simp
  have hbegins : front <+: before ++ last :: (o.request ++ o.payload) := by simpa [hauth] using h
  rcases scan_of_prefix hends.goes hends.verdict (by decide) hbegins with
    ⟨hfront, hgoes⟩ | ⟨rest, rfl, hscan⟩
  · have hle := hfront.length_le
    exact .inl ⟨by omega, hgoes⟩
  · simp only [List.length_append, List.length_cons] at hend
    obtain rfl : rest = [] := List.eq_nil_of_length_eq_zero (by omega)
    exact .inr ⟨hauth.symm, _, hscan, hsplit ▸ hcomplete⟩

/-- What the loop of the request makes of the beginning of the request and the payload. -/
theorem scan_request (junk : ℕ → UInt8) (h : front <+: o.request ++ o.payload) :
    (front.length < o.request.length ∧
      Feeding.Goes connReqParserFeed ConnReqParserState.Pending (connReqParserInit junk) front) ∨
    ∃ rest q, front = o.request ++ rest ∧ Scan connReqParserFeed ConnReqParserState.Pending
      (connReqParserInit junk) front (some .done) q rest ∧ q.cmd = SOCKS5_CONN_REQ_CMD_CONNECT ∧
      q.atyp = o.atyp := by
  obtain ⟨hannounces, hlen, -⟩ := announces_of_isAddress o.isAddress
  obtain ⟨hends, haddressed, -⟩ := requestEnds junk (.inl rfl) hannounces hlen
    (o.port >>> 8).toUInt8 o.port.toUInt8
  generalize hbefore : requestHeader SOCKS5_CONN_REQ_CMD_CONNECT o.atyp (UInt8.ofNat o.addr.length) ++
    o.addr ++ [(o.port >>> 8).toUInt8] = before at hends
  have hrequest : o.request = before ++ [o.port.toUInt8] := by
    rw [request, connRequest, portBytes, ← hbefore]
    simp
  have hlength : o.request.length = before.length + 1 := by rw [hrequest]; simp
  have hbegins : front <+: before ++ o.port.toUInt8 :: o.payload := by simpa [hrequest] using h
  rcases scan_of_prefix hends.goes hends.verdict (by decide) hbegins with
    ⟨hfront, hgoes⟩ | ⟨rest, rfl, hscan⟩
  · have hle := hfront.length_le
    exact .inl ⟨by omega, hgoes⟩
  · refine .inr ⟨rest, _, by simp [hrequest], hscan, ?_⟩
    rw [← hrequest]
    exact ⟨haddressed.cmd, haddressed.atyp⟩

end ClientStream

section Loops

variable {c : ConnId} {junk : Memory} {v w : View}

/-- The loop of the handshake scans `in_buff`. At the end of the greeting it replies, and goes on
with what is left. -/
theorem HandshakeReads.scan {sends : List SendOutcome} {malformed : Bool} {p : HandshakeParser}
    (h : HandshakeReads c junk v sends w malformed) (hp : v.conn.handshakeParser = some p) :
    ∃ verdict q inBuff, Scan handshakeParserFeed HandshakeState.Pending p v.conn.inBuff.content
        verdict q inBuff.content ∧
      (verdict = none ∧ malformed = false ∧ w = v.greeted inBuff q ∨
        verdict = some .error ∧ malformed = true ∧ w = v.greeted inBuff q ∨
        verdict = some .done ∧ ∃ fds x u,
          Queued c .handshake (handshakeReply q junk) (v.greeted inBuff q) x ∧
          Wrote c junk fds (x.answering q.refuses) (sends.headD .wouldBlock) (.alive u) ∧
          HandshakeReads c junk u sends.tail w malformed) := by
  induction h generalizing p with
  | idle v sends hempty =>
    refine ⟨none, p, v.conn.inBuff, ?_, .inl ⟨rfl, rfl, by simp [View.greeted, ← hp]⟩⟩
    rw [hempty]
    exact .exhausted p
  | fed v w sends malformed p₀ p' byte state inBuff hparser hcontent hcapacity hfeed hstate hrest ih =>
    obtain rfl := Option.some.inj (hparser.symm.trans hp)
    obtain ⟨verdict, q, left, hscan, hends⟩ := ih (p := p') rfl
    exact ⟨verdict, q, left, hcontent ▸ hscan.cons hfeed hstate, hends⟩
  | malformed v sends p₀ p' byte inBuff hparser hcontent hcapacity hfeed =>
    obtain rfl := Option.some.inj (hparser.symm.trans hp)
    exact ⟨some .error, p', inBuff, hcontent ▸ .stop hfeed (by decide) _, .inr (.inl ⟨rfl, rfl, rfl⟩)⟩
  | replied fds v x u w sends malformed p₀ p' byte inBuff hparser hcontent hcapacity hfeed hqueued
      hwrote hrest ih =>
    obtain rfl := Option.some.inj (hparser.symm.trans hp)
    exact ⟨some .done, p', inBuff, hcontent ▸ .stop hfeed (by decide) _,
      .inr (.inr ⟨rfl, fds, x, u, hqueued, hwrote, hrest⟩)⟩

/-- The loop of the handshake stops where nothing is left to read. -/
theorem HandshakeReads.of_empty {sends : List SendOutcome} {malformed : Bool}
    (h : HandshakeReads c junk v sends w malformed) (hempty : v.conn.inBuff.content = []) :
    w = v ∧ malformed = false := by
  cases h with
  | idle _ _ _ => exact ⟨rfl, rfl⟩
  | fed _ _ _ _ _ _ _ _ _ _ hcontent => cases hempty.symm.trans hcontent
  | malformed _ _ _ _ _ _ _ hcontent => cases hempty.symm.trans hcontent
  | replied _ _ _ _ _ _ _ _ _ _ _ _ hcontent => cases hempty.symm.trans hcontent

/-- The loop of the sub-negotiation scans `in_buff`, and replies at the end of the message. -/
theorem AuthReads.scan {users : UserTable} {out : SendOutcome} {malformed : Bool} {p : AuthParser}
    (h : AuthReads c users junk out v w malformed) (hp : v.conn.authParser = some p) :
    ∃ verdict q inBuff, Scan authParserFeed AuthState.Pending p v.conn.inBuff.content
        verdict q inBuff.content ∧
      (verdict = none ∧ malformed = false ∧ w = v.subnegotiated inBuff q ∨
        verdict = some .error ∧ malformed = true ∧ w = v.subnegotiated inBuff q ∨
        verdict = some .done ∧ malformed = false ∧ ∃ fds x,
          Queued c .auth (authReply (q.accepted users) junk)
            ((v.subnegotiated inBuff q).lookedUp c (q.accepted users)) x ∧
          Wrote c junk fds (x.judged c (q.accepted users) q.name) out (.alive w)) := by
  induction h generalizing p with
  | idle v hempty =>
    refine ⟨none, p, v.conn.inBuff, ?_, .inl ⟨rfl, rfl, by simp [View.subnegotiated, ← hp]⟩⟩
    rw [hempty]
    exact .exhausted p
  | fed v w malformed p₀ p' byte state inBuff hparser hcontent hcapacity hfeed hstate hrest ih =>
    obtain rfl := Option.some.inj (hparser.symm.trans hp)
    obtain ⟨verdict, q, left, hscan, hends⟩ := ih (p := p') rfl
    exact ⟨verdict, q, left, hcontent ▸ hscan.cons hfeed hstate, hends⟩
  | malformed v p₀ p' byte inBuff hparser hcontent hcapacity hfeed =>
    obtain rfl := Option.some.inj (hparser.symm.trans hp)
    exact ⟨some .error, p', inBuff, hcontent ▸ .stop hfeed (by decide) _, .inr (.inl ⟨rfl, rfl, rfl⟩)⟩
  | judged fds v x w p₀ p' byte inBuff hparser hcontent hcapacity hfeed hqueued hwrote =>
    obtain rfl := Option.some.inj (hparser.symm.trans hp)
    exact ⟨some .done, p', inBuff, hcontent ▸ .stop hfeed (by decide) _,
      .inr (.inr ⟨rfl, rfl, fds, x, hqueued, hwrote⟩)⟩

/-- The loop of the request scans `in_buff`. -/
theorem ConnReqReads.scan {scan : RequestScan} {p : ConnReqParser} (h : ConnReqReads v w scan)
    (hp : v.conn.connReqParser = some p) :
    ∃ verdict q inBuff, Scan connReqParserFeed ConnReqParserState.Pending p v.conn.inBuff.content
        verdict q inBuff.content ∧ w = v.scanned inBuff q ∧
      (verdict = none ∧ scan = .more ∨ verdict = some .error ∧ scan = .malformed ∨
        verdict = some .done ∧ scan = .complete q) := by
  induction h generalizing p with
  | more v hempty =>
    refine ⟨none, p, v.conn.inBuff, ?_, by simp [View.scanned, ← hp], .inl ⟨rfl, rfl⟩⟩
    rw [hempty]
    exact .exhausted p
  | fed v w scan p₀ p' byte state inBuff hparser hcontent hcapacity hfeed hstate hrest ih =>
    obtain rfl := Option.some.inj (hparser.symm.trans hp)
    obtain ⟨verdict, q, left, hscan, hends⟩ := ih (p := p') rfl
    exact ⟨verdict, q, left, hcontent ▸ hscan.cons hfeed hstate, hends⟩
  | malformed v p₀ p' byte inBuff hparser hcontent hcapacity hfeed =>
    obtain rfl := Option.some.inj (hparser.symm.trans hp)
    exact ⟨some .error, p', inBuff, hcontent ▸ .stop hfeed (by decide) _, rfl, .inr (.inl ⟨rfl, rfl⟩)⟩
  | complete v p₀ p' byte inBuff hparser hcontent hcapacity hfeed =>
    obtain rfl := Option.some.inj (hparser.symm.trans hp)
    exact ⟨some .done, p', inBuff, hcontent ▸ .stop hfeed (by decide) _, rfl, .inr (.inr ⟨rfl, rfl⟩)⟩

end Loops

end Socks5d
