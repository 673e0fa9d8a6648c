import Socks5d.Courses
import Socks5d.Dialogue

/-!
# The messages of a client

The greeting, the credentials and the request are read as they come, in whatever pieces. A message
that has come whole is replied to, and the next phase starts with nothing left to read, as long as
no piece goes on behind a greeting or behind credentials.
-/

namespace Socks5d

open CStrings Feeding

variable {o : ClientStream} {ρ : Setting} {c : ConnId} {v w : View} {r : Result} {junk : Memory}
  {fds : ℕ → Item} {out : SendOutcome} {sends : List SendOutcome} {front chunk : List UInt8}

/-- Before the relay a send that takes everything goes on with the write handler of the phase. -/
theorem Wrote.whole (h : Wrote c junk fds v out r) (hleft : v.conn.outBuff.content ≠ [])
    (hphase : v.phase ≠ some .copy) (htakes : out.takes v.conn.outBuff.capacity = true) :
    ∃ u, Advance c junk fds u r ∧ u.conn.outBuff.content = [] ∧
      u = { v with
        conn := { v.conn with outBuff := u.conn.outBuff }, interest := u.interest, relay := u.relay
        history := v.history ++ [.send c .client v.conn.outBuff.content] } := by
  obtain ⟨n, rfl, hn⟩ := SendOutcome.accepted_of_takes htakes
  obtain ⟨left, hcontent, -, hadvance⟩ := h.of_accepted hleft hphase
  have hall := (Buffer.length_content_le v.conn.outBuff).trans hn
  refine ⟨v.sent c n left, hadvance, ?_, ?_⟩
  · simp [View.sent, hcontent, List.drop_eq_nil_of_le hall]
  · simp [View.sent, List.take_of_length_le hall]

/-- The flags of a greeting that was read tell whether it offers credentials. -/
theorem HandshakeParser.Offered.negotiates {q : HandshakeParser} (h : q.Offered o.methods) :
    q.userPassAuth = o.negotiates := by
  rw [Bool.eq_iff_iff, h.userPassAuth, ClientStream.negotiates, decide_eq_true_eq]

/-- A greeting that was read to its end is replied to, and the next phase starts with nothing left
to read. -/
theorem HandshakeReads.replied_follows {malformed : Bool} {q : HandshakeParser} {inBuff : Buffer}
    {x u : View} (h : HandshakeReads c junk u sends w malformed)
    (hqueued : Queued c .handshake (handshakeReply q junk) (v.greeted inBuff q) x)
    (hwrote : Wrote c junk fds (x.answering q.refuses) out (.alive u))
    (hphase : v.phase = some .handshake) (hidle : v.conn.outBuff.content = [])
    (hcapacity : BUFF_MIN_LEN ≤ v.conn.outBuff.capacity)
    (htakes : out.takes v.conn.outBuff.capacity = true) (hleft : inBuff.content = [])
    (hsound : o.Sound) (hoffered : q.Offered o.methods)
    (hshown : outward v.history = { taken := o.greeting, phases := [.handshake] }) :
    o.Follows ρ (w.finish c malformed) := by
  obtain ⟨hreply, hqueues, -⟩ := hqueued.of_empty hidle (by simp [handshakeReply_eq])
    ((by decide : HANDSHAKE_RESPONSE_SIZE ≤ BUFF_MIN_LEN).trans hcapacity)
  obtain ⟨hconn, hxcap, hxphase, -⟩ := hqueued.fields
  have hxphase' : (x.answering q.refuses).phase = some .handshake := hxphase.trans hphase
  have hmethod : q.method = o.method := hoffered.method_eq
  obtain ⟨y, hadvance, hsent, hy⟩ := hwrote.whole
    (by change x.conn.outBuff.content ≠ []; rw [hreply]; simp [handshakeReply_eq])
    (by rw [hxphase']; simp) (by change out.takes x.conn.outBuff.capacity = true; rwa [hxcap])
  have hyshown : outward y.history =
      { taken := o.greeting, phases := [.handshake]
        replies := [[SOCKS5_VERSION, o.method]], sent := [SOCKS5_VERSION, o.method] } := by
    have hhistory : y.history = x.history ++ [.send c .client x.conn.outBuff.content] := by
      rw [hy]
      rfl
    rw [hhistory, hreply, hqueues]
    have hv : outward (v.greeted inBuff q).history = outward v.history := rfl
    simp [hv, hshown, handshakeReply_eq, hmethod]
  have hyphase : y.phase = some .handshake := by rw [hy]; exact hxphase'
  have hyin : y.conn.inBuff.content = [] := by
    rw [hy]
    change x.conn.inBuff.content = []
    rw [hconn]
    exact hleft
  have hyparser : y.conn.handshakeParser = some q := by
    rw [hy]
    change x.conn.handshakeParser = some q
    rw [hconn]
    rfl
  cases hadvance with
  | auth p hphase' herror hparser hchosen =>
    obtain ⟨rfl, rfl⟩ := h.of_empty hyin
    obtain rfl := Option.some.inj (hyparser.symm.trans hparser)
    have hnegotiates := hoffered.negotiates.symm.trans hchosen
    refine ⟨[], ⟨_, rfl, goes_nil _⟩, hsent, hsound, hnegotiates, ?_, ?_⟩
    · simp [ClientStream.auth, hnegotiates, authMessage]
    · simp [hyshown]
  | connectionReq state hphase' herror hstate =>
    obtain rfl := Option.some.inj (hyphase.symm.trans hphase')
    obtain ⟨-, p, hparser, hchosen⟩ := hstate.resolve_left (by simp)
    obtain ⟨rfl, rfl⟩ := h.of_empty hyin
    obtain rfl := Option.some.inj (hyparser.symm.trans hparser)
    have hnegotiates := hoffered.negotiates.symm.trans hchosen
    change if y.conn.isErrorResponse = true then _ else _
    rw [if_neg (by simp [herror])]
    refine ⟨[], ⟨_, rfl, goes_nil _⟩, hsent, hsound, ?_, ?_⟩
    · simp [ClientStream.request, connRequest, requestHeader]
    · simp [hyshown, ClientStream.phases, ClientStream.replies, ClientStream.auth, hnegotiates]
  | copy state relay hphase' herror hstate =>
    obtain rfl := Option.some.inj (hyphase.symm.trans hphase')
    simp at hstate

/-- What the rest of a greeting, or a part of it, comes to. -/
theorem HandshakeReads.follows {malformed : Bool}
    (h : HandshakeReads c junk v sends w malformed) (hphase : v.phase = some .handshake)
    (hparser : v.conn.handshakeParser = some (feedAll handshakeParserFeed handshakeParserInit front))
    (hgoes : handshakeParserInit.Goes front) (hidle : v.conn.outBuff.content = [])
    (hcapacity : BUFF_MIN_LEN ≤ v.conn.outBuff.capacity)
    (htakes : (sends.headD .wouldBlock).takes v.conn.outBuff.capacity = true)
    (hshown : outward v.history =
      { taken := front ++ v.conn.inBuff.content, phases := [.handshake] })
    (hnonempty : front ++ v.conn.inBuff.content ≠ [])
    (hbegins : front ++ v.conn.inBuff.content <+: o.bytes)
    (hend : o.Sound → (front ++ v.conn.inBuff.content).length ≤ o.greeting.length) :
    o.Follows ρ (w.finish c malformed) := by
  obtain ⟨verdict, q, inBuff, hscan, hends⟩ := h.scan hparser
  have hwhole := Scan.after hgoes hscan
  rcases ClientStream.scan_greeting hbegins hend with
    ⟨hshort, hunspoiled, hmore⟩ | ⟨hspoiled, q', left, hscan'⟩ | ⟨hsound, hall, q', hscan', hoffered⟩
  · obtain ⟨rfl, rfl, hleft⟩ := hwhole.unique hmore.scan
    rcases hends with ⟨-, rfl, rfl⟩ | ⟨hverdict, -⟩ | ⟨hverdict, -⟩
    · have hview : (v.greeted inBuff (feedAll handshakeParserFeed handshakeParserInit
          (front ++ v.conn.inBuff.content))).phase = some .handshake := hphase
      change o.Course ρ _
      rw [ClientStream.Course, hview]
      exact ⟨_, rfl, hmore, hidle, hnonempty, hunspoiled, hshort, hshown⟩
    · cases hverdict
    · cases hverdict
  · obtain ⟨rfl, rfl, rfl⟩ := hwhole.unique hscan'
    rcases hends with ⟨hverdict, -⟩ | ⟨-, rfl, rfl⟩ | ⟨hverdict, -⟩
    · cases hverdict
    · change o.Settled ρ (outward (v.history ++ [.enter c .error, .released c]))
      rw [outward_append, hshown]
      simpa using ClientStream.settled_spoiled (ρ := ρ) hspoiled
    · cases hverdict
  · obtain ⟨rfl, rfl, hleft⟩ := hwhole.unique hscan'
    rcases hends with ⟨hverdict, -⟩ | ⟨hverdict, -⟩ | ⟨-, fds, x, u, hqueued, hwrote, hrest⟩
    · cases hverdict
    · cases hverdict
    · exact hrest.replied_follows hqueued hwrote hphase hidle hcapacity htakes hleft hsound hoffered
        (hall ▸ hshown)

/-- A client that neither ends nor breaks its stream sends nothing now, or the next piece of it. -/
theorem ClientRead.arrives {env : Env} {Q : View → Result → Prop} (h : ClientRead c v env Q r)
    (hempty : v.conn.inBuff.content = []) (hcapacity : BUFF_MIN_LEN ≤ v.conn.inBuff.capacity)
    (hgoes : env.recv.Goes) :
    r = .alive v ∨ ∃ buff chunk, chunk = env.recv.chunk v.conn.inBuff.space ∧ chunk ≠ [] ∧
      env.recv.isData = true ∧ buff.content = chunk ∧ buff.capacity = v.conn.inBuff.capacity ∧
      Q (v.received c buff chunk) r := by
  cases h with
  | full hfull => exact absurd hempty (content_ne_nil_of_full hcapacity hfull)
  | ended _ hrecv => rw [hrecv] at hgoes; exact hgoes.elim
  | blocked _ _ => exact .inl rfl
  | broken e _ hrecv he => rw [hrecv] at hgoes; exact absurd hgoes he
  | handled first rest buff r hspace hrecv hcontent hcap hQ =>
    rw [hempty, List.nil_append] at hcontent
    refine .inr ⟨buff, _, by rw [hrecv]; rfl, ?_, by rw [hrecv]; rfl, hcontent, hcap, hQ⟩
    have hne := received_ne_nil [] first rest hspace
    rwa [List.nil_append] at hne

/-- What a client read in the greeting comes to. -/
theorem Greets.follows {env : Env} {buff : Buffer} (h : Greets c junk env (v.received c buff chunk) r)
    (hphase : v.phase = none ∨ v.phase = some .handshake) (hcourse : o.Course ρ v)
    (hidle : v.conn.outBuff.content = []) (hcapacity : BUFF_MIN_LEN ≤ v.conn.outBuff.capacity)
    (htakes : env.send.takes v.conn.outBuff.capacity = true) (hbuff : buff.content = chunk)
    (hnonempty : chunk ≠ []) (hbegins : (outward v.history).taken ++ chunk <+: o.bytes)
    (hcuts : ¬ o.Cuts (outward v.history).taken.length chunk.length) : o.Follows ρ r := by
  cases h with
  | reads w malformed hreads =>
    rcases hphase with hphase | hphase
    · have hempty : outward v.history = {} := by
        simpa only [ClientStream.Course, hphase] using hcourse
      rw [hempty] at hbegins hcuts
      have hbegun : (v.received c buff chunk).begun c = { v.received c buff chunk with
          conn := { (v.received c buff chunk).conn with handshakeParser := some handshakeParserInit }
          phase := some .handshake
          history := (v.received c buff chunk).history ++ [.enter c .handshake] } := by
        simp [View.begun, View.received, hphase]
      rw [hbegun] at hreads
      refine hreads.follows rfl
        (show _ = some (feedAll handshakeParserFeed handshakeParserInit []) from rfl) (goes_nil _)
        hidle hcapacity htakes ?_ ?_ ?_ ?_
      · simp [View.received, hempty, hbuff]
      · simpa [View.received, hbuff] using hnonempty
      · simpa [View.received, hbuff] using hbegins
      · intro hsound
        have hlen := o.length_greeting
        have hwhole := ClientStream.le_greeting hcuts hsound (by simp [hlen])
        simpa [View.received, hbuff] using hwhole
    · obtain ⟨front, hfront⟩ : ∃ front, o.AtGreeting front v := by
        simpa only [ClientStream.Course, hphase] using hcourse
      have hbegun : (v.received c buff chunk).begun c = v.received c buff chunk := by
        simp [View.begun, View.received, hphase]
      rw [hfront.shown] at hbegins hcuts
      rw [hbegun] at hreads
      refine hreads.follows hphase hfront.parser hfront.goes hidle hcapacity htakes ?_ ?_ ?_ ?_
      · simp [View.received, hfront.shown, hbuff]
      · simp [View.received, hbuff, hnonempty]
      · simpa [View.received, hbuff] using hbegins
      · intro hsound
        simpa [View.received, hbuff] using ClientStream.le_greeting hcuts hsound hfront.short

/-- Resetting `in_buff` shows nothing. -/
@[simp] theorem outward_reset (v : View) (c : ConnId) :
    outward (v.reset c).history = outward v.history := by
  simp only [View.reset, outward_append]
  split
  · simp
  · simp

/-- Good credentials that were read to their end are replied to, and the request phase starts. -/
theorem Queued.auth_follows {q : AuthParser} {inBuff : Buffer} {x : View}
    (hqueued : Queued c .auth (authReply true junk) ((v.subnegotiated inBuff q).lookedUp c true) x)
    (hwrote : Wrote c junk fds (x.judged c true q.name) out (.alive w))
    (hphase : v.phase = some .auth) (hidle : v.conn.outBuff.content = [])
    (hcapacity : BUFF_MIN_LEN ≤ v.conn.outBuff.capacity)
    (htakes : out.takes v.conn.outBuff.capacity = true) (hsound : o.Sound)
    (hnegotiates : o.negotiates = true)
    (hshown : outward v.history =
      { taken := o.greeting ++ o.auth, phases := [.handshake, .auth]
        replies := [[SOCKS5_VERSION, o.method]], sent := [SOCKS5_VERSION, o.method] }) :
    o.Course ρ w := by
  have hbytes : authReply true junk = [SOCKS5_SUBNEGOTIATION_VERSION, SOCKS5_AUTH_OK] := rfl
  obtain ⟨hreply, hqueues, -⟩ := hqueued.of_empty hidle (by simp [hbytes])
    ((by decide : AUTH_RESPONSE_SIZE ≤ BUFF_MIN_LEN).trans hcapacity)
  obtain ⟨hconn, hxcap, hxphase, -⟩ := hqueued.fields
  have hxphase' : (x.judged c true q.name).phase = some .auth := hxphase.trans hphase
  have hout : (x.judged c true q.name).conn.outBuff = x.conn.outBuff := rfl
  obtain ⟨y, hadvance, hsent, hy⟩ := hwrote.whole (by rw [hout, hreply]; simp [hbytes])
    (by rw [hxphase']; simp) (by rw [hout, hxcap]; exact htakes)
  have hyphase : y.phase = some .auth := by rw [hy]; exact hxphase'
  have hyshown : outward y.history =
      { taken := o.greeting ++ o.auth, phases := [.handshake, .auth]
        replies := o.replies, sent := o.replies.flatten } := by
    have hhistory : y.history = (x.reset c).history ++ [.send c .client x.conn.outBuff.content] := by
      rw [hy]
      rfl
    rw [hhistory, outward_append, outward_reset, hreply, hqueues]
    have hv : outward ((v.subnegotiated inBuff q).lookedUp c true).history = outward v.history := by
      simp [View.lookedUp, View.subnegotiated]
    simp [hv, hshown, hbytes, ClientStream.replies, hnegotiates]
  cases hadvance with
  | auth p hphase' _ _ _ => cases hyphase.symm.trans hphase'
  | connectionReq state hphase' herror hstate =>
    obtain rfl := Option.some.inj (hyphase.symm.trans hphase')
    change if y.conn.isErrorResponse = true then _ else _
    rw [if_neg (by simp [herror])]
    refine ⟨[], ⟨_, rfl, goes_nil _⟩, hsent, hsound, ?_, ?_⟩
    · simp [ClientStream.request, connRequest, requestHeader]
    · simp [hyshown, ClientStream.phases, hnegotiates]
  | copy state relay hphase' _ hstate =>
    obtain rfl := Option.some.inj (hyphase.symm.trans hphase')
    simp at hstate

/-- What the rest of the credentials, or a part of it, comes to. -/
theorem AuthReads.follows {users : UserTable} {malformed : Bool}
    (h : AuthReads c users junk out v w malformed) (hphase : v.phase = some .auth)
    (hparser : ∃ mem, v.conn.authParser = some (feedAll authParserFeed (authParserInit mem) front) ∧
      Feeding.Goes authParserFeed AuthState.Pending (authParserInit mem) front)
    (hidle : v.conn.outBuff.content = []) (hcapacity : BUFF_MIN_LEN ≤ v.conn.outBuff.capacity)
    (htakes : out.takes v.conn.outBuff.capacity = true) (hsound : o.Sound)
    (hnegotiates : o.negotiates = true)
    (hknown : authCheckCredentials users (text o.name) (text o.pass) = true)
    (hshown : outward v.history =
      { taken := o.greeting ++ (front ++ v.conn.inBuff.content), phases := [.handshake, .auth]
        replies := [[SOCKS5_VERSION, o.method]], sent := [SOCKS5_VERSION, o.method] })
    (hbegins : front ++ v.conn.inBuff.content <+: o.auth ++ (o.request ++ o.payload))
    (hend : (front ++ v.conn.inBuff.content).length ≤ o.auth.length) :
    o.Follows ρ (w.finish c malformed) := by
  obtain ⟨mem, hparser, hgoes⟩ := hparser
  obtain ⟨verdict, q, inBuff, hscan, hends⟩ := h.scan hparser
  have hwhole := Scan.after hgoes hscan
  rcases ClientStream.scan_auth mem hnegotiates hbegins hend with
    ⟨hshort, hmore⟩ | ⟨hall, q', hscan', hcomplete⟩
  · obtain ⟨rfl, rfl, hleft⟩ := hwhole.unique hmore.scan
    rcases hends with ⟨-, rfl, rfl⟩ | ⟨hverdict, -⟩ | ⟨hverdict, -⟩
    · have hview : (v.subnegotiated inBuff (feedAll authParserFeed (authParserInit mem)
          (front ++ v.conn.inBuff.content))).phase = some .auth := hphase
      change o.Course ρ _
      rw [ClientStream.Course, hview]
      exact ⟨_, ⟨mem, rfl, hmore⟩, hidle, hsound, hnegotiates, hshort, hshown⟩
    · cases hverdict
    · cases hverdict
  · obtain ⟨rfl, rfl, hleft⟩ := hwhole.unique hscan'
    rcases hends with ⟨hverdict, -⟩ | ⟨hverdict, -⟩ | ⟨-, rfl, fds, x, hqueued, hwrote⟩
    · cases hverdict
    · cases hverdict
    · have hgood : q.accepted users = true := by
        rw [hcomplete.accepted_eq o.isField_name o.isField_pass, hknown]
      rw [hgood] at hqueued hwrote
      exact hqueued.auth_follows hwrote hphase hidle hcapacity htakes hsound hnegotiates
        (hall ▸ hshown)

/-- What a client read in the sub-negotiation comes to. -/
theorem Authenticates.follows {users : UserTable} {env : Env} {buff : Buffer}
    (h : Authenticates c users junk env (v.received c buff chunk) r) (hphase : v.phase = some .auth)
    (hfront : o.AtAuth front v) (hcapacity : BUFF_MIN_LEN ≤ v.conn.outBuff.capacity)
    (htakes : env.send.takes v.conn.outBuff.capacity = true) (hbuff : buff.content = chunk)
    (hbegins : (outward v.history).taken ++ chunk <+: o.bytes)
    (hcuts : ¬ o.Cuts (outward v.history).taken.length chunk.length)
    (hknown : authCheckCredentials users (text o.name) (text o.pass) = true) : o.Follows ρ r := by
  cases h with
  | reads w malformed hreads =>
    have hshort := hfront.short
    rw [hfront.shown] at hbegins hcuts
    have hwhole := ClientStream.le_auth hcuts hfront.sound (by simpa using hshort)
    have hin : (v.received c buff chunk).conn.inBuff.content = chunk := hbuff
    refine hreads.follows hphase hfront.parser hfront.outBuff hcapacity htakes hfront.sound
      hfront.negotiates hknown ?_ ?_ ?_
    · rw [hin]
      simp [View.received, hfront.shown]
    · rw [hin]
      simpa [ClientStream.bytes, ClientStream.opening] using hbegins
    · rw [hin]
      simp only [List.length_append] at hwhole ⊢
      omega

/-- A piece of the request leaves it unfinished, or ends it with what follows left in `in_buff`. -/
theorem ConnReqReads.request {buff : Buffer} {scan : RequestScan}
    (h : ConnReqReads (v.received c buff chunk) w scan) (hfront : o.AtRequest front v)
    (hbuff : buff.content = chunk) (hbegins : (outward v.history).taken ++ chunk <+: o.bytes) :
    ∃ inBuff q, w = (v.received c buff chunk).scanned inBuff q ∧
      (scan = .more ∧ (∃ front, o.AtRequest front w) ∨
        scan = .complete q ∧ q.cmd = SOCKS5_CONN_REQ_CMD_CONNECT ∧ q.atyp = o.atyp ∧
          outward w.history =
            { taken := o.opening ++ inBuff.content, phases := o.phases
              replies := o.replies, sent := o.replies.flatten }) := by
  obtain ⟨mem, hparser, hgoes⟩ := hfront.parser
  have hin : (v.received c buff chunk).conn.inBuff.content = chunk := hbuff
  have hshown : outward (v.received c buff chunk).history =
      { taken := o.greeting ++ (o.auth ++ (front ++ chunk)), phases := o.phases
        replies := o.replies, sent := o.replies.flatten } := by
    simp [View.received, hfront.shown]
  have hrest : front ++ chunk <+: o.request ++ o.payload := by
    rw [hfront.shown] at hbegins
    simpa [ClientStream.bytes, ClientStream.opening] using hbegins
  obtain ⟨verdict, q, inBuff, hscan, hw, hends⟩ := h.scan hparser
  rw [hin] at hscan
  have hwhole := Scan.after hgoes hscan
  refine ⟨inBuff, q, hw, ?_⟩
  rcases ClientStream.scan_request mem hrest with
    ⟨hshort, hmore⟩ | ⟨left, q', hall, hscan', hcmd, hatyp⟩
  · obtain ⟨rfl, rfl, hleft⟩ := hwhole.unique hmore.scan
    rcases hends with ⟨-, rfl⟩ | ⟨hverdict, -⟩ | ⟨hverdict, -⟩
    · exact .inl ⟨rfl, front ++ chunk, by
        rw [hw]; exact ⟨⟨mem, rfl, hmore⟩, hfront.outBuff, hfront.sound, hshort, hshown⟩⟩
    · cases hverdict
    · cases hverdict
  · obtain ⟨rfl, rfl, hleft⟩ := hwhole.unique hscan'
    rcases hends with ⟨hverdict, -⟩ | ⟨hverdict, -⟩ | ⟨-, rfl⟩
    · cases hverdict
    · cases hverdict
    · refine .inr ⟨rfl, hcmd, hatyp, ?_⟩
      rw [hw, hleft]
      exact hshown.trans (by simp [hall, ClientStream.opening])

/-- What a client read of the request comes to. -/
theorem Requests.follows {env : Env} {buff : Buffer}
    (h : Requests c junk env (v.received c buff chunk) r) (hphase : v.phase = some .connectionReq)
    (herror : v.conn.isErrorResponse = false) (htokens : v.tokens = 0) (hfront : o.AtRequest front v)
    (hbuff : buff.content = chunk) (hbegins : (outward v.history).taken ++ chunk <+: o.bytes)
    (hthreads : env.threadCreated = ρ.threadCreated) : o.Follows ρ r := by
  have hnamed : ∀ {q : ConnReqParser}, q.atyp = o.atyp →
      (o.named = true ↔ q.atyp = SOCKS5_CONN_REQ_ATYP_DOMAIN_NAME) := fun hatyp => by
    rw [ClientStream.named, hatyp, decide_eq_true_eq]
  cases h with
  | more w hreads =>
    obtain ⟨inBuff, q, rfl, ⟨-, front, hmore⟩ | ⟨hcomplete, -⟩⟩ :=
      hreads.request hfront hbuff hbegins
    · exact hmore.follows hphase herror
    · cases hcomplete
  | malformed w hreads =>
    obtain ⟨inBuff, q, -, ⟨hmore, -⟩ | ⟨hcomplete, -⟩⟩ := hreads.request hfront hbuff hbegins
    · cases hmore
    · cases hcomplete
  | unsupported w u p hreads hcmd hqueued =>
    obtain ⟨inBuff, q, -, ⟨hmore, -⟩ | ⟨hcomplete, hconnect, -⟩⟩ :=
      hreads.request hfront hbuff hbegins
    · cases hmore
    · obtain rfl := RequestScan.complete.inj hcomplete
      exact absurd hconnect hcmd
  | noThread w p hreads hcmd hdomain hthread =>
    obtain ⟨inBuff, q, -, ⟨hmore, -⟩ | ⟨hcomplete, -, hatyp, hwshown⟩⟩ :=
      hreads.request hfront hbuff hbegins
    · cases hmore
    · obtain rfl := RequestScan.complete.inj hcomplete
      have hcomes : ρ.Comes o.named [] [] :=
        .noThread ((hnamed hatyp).mpr hdomain) (hthreads.symm.trans hthread)
      change o.Settled ρ (outward (w.history ++ [.request c, .enter c .error, .released c]))
      have hsettled := ClientStream.settled_opening inBuff.content hfront.sound hcomes
        List.prefix_rfl rfl
      simpa [hwshown, ClientStream.ending, ClientStream.answer] using hsettled
  | threaded w p hreads hcmd hdomain hthread =>
    obtain ⟨inBuff, q, rfl, ⟨hmore, -⟩ | ⟨-, -, -, hwshown⟩⟩ := hreads.request hfront hbuff hbegins
    · cases hmore
    · refine ClientStream.Awaits.follows ⟨hfront.sound, iff_of_true rfl (congrArg (· + 1) htokens),
        fun _ => hthreads.symm.trans hthread, fun hne => absurd rfl hne, ?_⟩ rfl herror
      simp [View.awaiting, View.requested, hwshown]
      rfl
  | looked w p hreads hcmd hdomain =>
    obtain ⟨inBuff, q, rfl, ⟨hmore, -⟩ | ⟨hcomplete, -, hatyp, hwshown⟩⟩ :=
      hreads.request hfront hbuff hbegins
    · cases hmore
    · obtain rfl := RequestScan.complete.inj hcomplete
      refine ClientStream.Awaits.follows ⟨hfront.sound, iff_of_true rfl (congrArg (· + 1) htokens),
        fun hname => absurd ((hnamed hatyp).mp hname) hdomain, fun hne => absurd rfl hne, ?_⟩
        rfl herror
      simp [View.awaiting, View.requested, View.resolved, hwshown]
      rfl

section Hazards

variable {s : Server} {left : List UInt8} {n : ℕ}

/-- A greeting whose reply is taken does harm only if it is refused or more bytes follow it. -/
theorem greetingHazard_of_scan {p q : HandshakeParser} {bytes : List UInt8}
    {verdict : Option HandshakeState}
    (h : Scan handshakeParserFeed HandshakeState.Pending p bytes verdict q left)
    (hout : sends.headD .wouldBlock = .accepted n) (hhazard : greetingHazard p bytes sends = true) :
    verdict = some .done ∧ (q.refuses = true ∨ left ≠ []) := by
  induction h with
  | exhausted p => cases hhazard
  | stopped p a rest hfinal =>
    rcases hfeed : handshakeParserFeed p a with ⟨q, state⟩
    rw [greetingHazard, hfeed] at hhazard
    rw [hfeed] at hfinal
    cases state with
    | done =>
      simp only [hout] at hhazard
      simpa using hhazard
    | error => cases hhazard
    | _ => exact absurd ⟨by simp, by simp⟩ hfinal
  | fed p q a rest left verdict hpending hrest ih =>
    rcases hfeed : handshakeParserFeed p a with ⟨q', state⟩
    rw [greetingHazard, hfeed] at hhazard
    rw [hfeed] at hpending ih
    cases state with
    | done => exact absurd rfl hpending.1
    | error => cases hhazard
    | _ => exact ih hhazard

/-- Credentials whose reply is taken do harm only if they are refused. -/
theorem subnegotiationHazard_of_scan {users : UserTable} {p q : AuthParser} {bytes : List UInt8}
    {verdict : Option AuthState}
    (h : Scan authParserFeed AuthState.Pending p bytes verdict q left)
    (hhazard : subnegotiationHazard users (.accepted n) p bytes = true) :
    verdict = some .done ∧ q.accepted users = false := by
  induction h with
  | exhausted p => cases hhazard
  | stopped p a rest hfinal =>
    rcases hfeed : authParserFeed p a with ⟨q, state⟩
    rw [subnegotiationHazard, hfeed] at hhazard
    rw [hfeed] at hfinal
    cases state with
    | done => simpa using hhazard
    | error => cases hhazard
    | _ => exact absurd ⟨by simp, by simp⟩ hfinal
  | fed p q a rest left verdict hpending hrest ih =>
    rcases hfeed : authParserFeed p a with ⟨q', state⟩
    rw [subnegotiationHazard, hfeed] at hhazard
    rw [hfeed] at hpending ih
    cases state with
    | done => exact absurd rfl hpending.1
    | error => cases hhazard
    | _ => exact ih hhazard

/-- Methods one of which can be met are not refused. -/
theorem HandshakeParser.Offered.not_refuses {q : HandshakeParser} (h : q.Offered o.methods)
    (hmethod : o.method ≠ SOCKS5_AUTH_METHOD_NO_ACCEPTABLE) : q.refuses = false := by
  rw [ClientStream.method, ← h.method_eq, HandshakeParser.method] at hmethod
  rw [HandshakeParser.refuses]
  cases hnone : q.userPassAuth with
  | true => simp
  | false =>
    cases hno : q.noAuth with
    | true => simp
    | false => simp [hnone, hno] at hmethod

/-- A piece of the greeting does no harm. -/
theorem ClientStream.Course.greets_on {v : View} {fd : ℕ} {env : Env} {first : UInt8}
    {rest : List UInt8} {p : HandshakeParser} (h : o.Course ρ v) (hok : v.Ok c)
    (hplays : o.Plays ρ s v (.readable fd env))
    (hapart : o.Apart s v (.readable fd env)) (hitem : (s.selector.fds fd).isClientOf c)
    (hmethod : o.method ≠ SOCKS5_AUTH_METHOD_NO_ACCEPTABLE)
    (hphase : v.phase = none ∧ p = handshakeParserInit ∨
      v.phase = some .handshake ∧ v.conn.handshakeParser = some p)
    (hrecv : env.recv = .data first rest)
    (hhazard : greetingHazard p (v.conn.inBuff.content ++ (first :: rest).take v.conn.inBuff.space)
      env.sends = true) : False := by
  obtain ⟨hfits, hstream⟩ := hplays
  obtain ⟨-, hbegins, -⟩ := hstream hitem.1
  obtain ⟨hcuts, -⟩ := hapart hitem.1
  have hphaseOk := hok.phase
  have hchunk : env.recv.chunk v.conn.inBuff.space = (first :: rest).take v.conn.inBuff.space := by
    rw [hrecv]
    rfl
  obtain ⟨front, hfront, hgoes, htaken, hempty, hshort⟩ : ∃ front,
      p = feedAll handshakeParserFeed handshakeParserInit front ∧ handshakeParserInit.Goes front ∧
        (outward v.history).taken = front ∧ v.conn.inBuff.content = [] ∧
          front.length < o.greeting.length := by
    rcases hphase with ⟨hphase, rfl⟩ | ⟨hphase, hparser⟩
    · simp only [View.PhaseOk, hphase] at hphaseOk
      have hnone : outward v.history = {} := by simpa only [ClientStream.Course, hphase] using h
      exact ⟨[], rfl, goes_nil _, by rw [hnone], hphaseOk.1.inBuff, by rw [o.length_greeting]; simp⟩
    · simp only [View.PhaseOk, hphase] at hphaseOk
      obtain ⟨front, hfront⟩ : ∃ front, o.AtGreeting front v := by
        simpa only [ClientStream.Course, hphase] using h
      exact ⟨front, Option.some.inj (hparser.symm.trans hfront.parser), hfront.goes,
        by rw [hfront.shown], hphaseOk.1.inBuff, hfront.short⟩
  subst hfront
  rw [htaken, hchunk] at hbegins hcuts
  rw [hempty, List.nil_append] at hhazard
  obtain ⟨n, hout, -⟩ := SendOutcome.accepted_of_takes hfits.client
  obtain ⟨verdict, q, left, hscan⟩ : ∃ verdict q left, Scan handshakeParserFeed HandshakeState.Pending
      (feedAll handshakeParserFeed handshakeParserInit front)
      ((first :: rest).take v.conn.inBuff.space) verdict q left := Scan.total _ _ _
  obtain ⟨rfl, hbad⟩ := greetingHazard_of_scan hscan hout hhazard
  have hwhole := Scan.after hgoes hscan
  have hend : o.Sound →
      (front ++ (first :: rest).take v.conn.inBuff.space).length ≤ o.greeting.length := by
    intro hsound
    rw [List.length_append]
    exact ClientStream.le_greeting hcuts hsound hshort
  rcases ClientStream.scan_greeting hbegins hend with
    ⟨-, -, hmore⟩ | ⟨-, q', left', hscan'⟩ | ⟨-, -, q', hscan', hoffered⟩
  · obtain ⟨hverdict, -⟩ := hwhole.unique hmore.scan
    cases hverdict
  · obtain ⟨hverdict, -⟩ := hwhole.unique hscan'
    cases hverdict
  · obtain ⟨-, rfl, rfl⟩ := hwhole.unique hscan'
    rw [hoffered.not_refuses hmethod] at hbad
    simp at hbad

/-- A piece of good credentials does no harm. -/
theorem ClientStream.Course.authenticates_on {v : View} {fd : ℕ} {env : Env} {first : UInt8}
    {rest : List UInt8} {p : AuthParser} (h : o.Course ρ v) (hok : v.Ok c)
    (hplays : o.Plays ρ s v (.readable fd env)) (hapart : o.Apart s v (.readable fd env))
    (hitem : (s.selector.fds fd).isClientOf c) (hphase : v.phase = some .auth)
    (hparser : v.conn.authParser = some p) (hrecv : env.recv = .data first rest)
    (hhazard : subnegotiationHazard s.users env.send p
      (v.conn.inBuff.content ++ (first :: rest).take v.conn.inBuff.space) = true) : False := by
  obtain ⟨hfits, hstream⟩ := hplays
  obtain ⟨-, hbegins, hknown⟩ := hstream hitem.1
  obtain ⟨hcuts, -⟩ := hapart hitem.1
  have hphaseOk := hok.phase
  simp only [View.PhaseOk, hphase] at hphaseOk
  obtain ⟨front, hfront⟩ : ∃ front, o.AtAuth front v := by
    simpa only [ClientStream.Course, hphase] using h
  obtain ⟨mem, hfed, hgoes⟩ := hfront.parser
  obtain rfl := Option.some.inj (hparser.symm.trans hfed)
  have hshort := hfront.short
  have hchunk : env.recv.chunk v.conn.inBuff.space = (first :: rest).take v.conn.inBuff.space := by
    rw [hrecv]
    rfl
  rw [hfront.shown, hchunk] at hbegins hcuts
  obtain ⟨n, hout, -⟩ := SendOutcome.accepted_of_takes hfits.client
  rw [hphaseOk.early.inBuff, List.nil_append, hout] at hhazard
  obtain ⟨verdict, q, left, hscan⟩ : ∃ verdict q left, Scan authParserFeed AuthState.Pending
      (feedAll authParserFeed (authParserInit mem) front)
      ((first :: rest).take v.conn.inBuff.space) verdict q left := Scan.total _ _ _
  obtain ⟨rfl, hbad⟩ := subnegotiationHazard_of_scan hscan hhazard
  have hwhole := Scan.after hgoes hscan
  have hmessage : front ++ (first :: rest).take v.conn.inBuff.space <+:
      o.auth ++ (o.request ++ o.payload) := by
    simpa [ClientStream.bytes, ClientStream.opening] using hbegins
  have hend : (front ++ (first :: rest).take v.conn.inBuff.space).length ≤ o.auth.length := by
    have hle := ClientStream.le_auth hcuts hfront.sound (by simpa using hshort)
    simp only [List.length_append] at hle ⊢
    omega
  rcases ClientStream.scan_auth mem hfront.negotiates hmessage hend with
    ⟨-, hmore⟩ | ⟨-, q', hscan', hcomplete⟩
  · obtain ⟨hverdict, -⟩ := hwhole.unique hmore.scan
    cases hverdict
  · obtain ⟨-, rfl, -⟩ := hwhole.unique hscan'
    rw [hcomplete.accepted_eq o.isField_name o.isField_pass, hknown hphase] at hbad
    cases hbad

end Hazards

end Socks5d
