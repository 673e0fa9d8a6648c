import Socks5d.Aim
import Socks5d.Listings
import Socks5d.Parser.Requests

/-!
# Where a request leads

The destination that is looked up and registered for an accepted request, against the one it asks
for. `dst_address` is shorter than the longest names, which are cut to fit.
-/

namespace Socks5d

open CStrings Fallible Feeding GuardedRun

/-- The service that `resolve_host_name` asks for, in an array of six. -/
def portStr (dstPort : UInt16) : CString := (CStrings.decimal dstPort.toNat).take 5

/-- A text denotes an address of this kind: a name is itself, four bytes have a dotted form, and
sixteen are what `inet_pton` reads in the text. -/
def Denotes (inetPton : CString → Option (List UInt8)) (atyp : UInt8) (addr : List UInt8)
    (word : CString) : Prop :=
  if atyp = SOCKS5_CONN_REQ_ATYP_DOMAIN_NAME then word = addr
  else if atyp = SOCKS5_CONN_REQ_ATYP_IPV4 then IsDotted word addr
  else inetPton word = some addr

/-- The entry that a call of `access_register_add_entry` leaves. -/
def AccessCall.entry (call : AccessCall) (reg : AccessRegister) (isoDate : CString) : AccessEntry :=
  (reg.addEntry call.username call.srcIp call.srcPort call.destination call.destPort
    call.statusCode.toNat isoDate).entries reg.tail

/-- What is looked up or registered is the destination asked for. -/
def Obs.Names (inetPton : CString → Option (List UInt8)) (atyp : UInt8) (addr : List UInt8)
    (port : UInt16) : Obs → Prop
  | .lookup _ node service =>
    Denotes inetPton atyp addr node ∧ IsNumeral (portStr service) port.toNat
  | .access _ call => ∀ reg isoDate,
    Denotes inetPton atyp addr (call.entry reg isoDate).destination ∧
      (call.entry reg isoDate).destPort = port
  | _ => True

/-- What `inet_ntop` writes is read back by `inet_pton`. -/
def InetNtopCorrect (inetPton : CString → Option (List UInt8)) (env : Env) (addr : List UInt8) :
    Prop :=
  ∃ word, env.inetNtop = some word ∧ inetPton word = some addr ∧ word.length < INET6_ADDRSTRLEN

/-- In a reachable state, what a client sends completes a CONNECT request. -/
structure Completes (c : ConnId) (s : Server) (v : View) (fd : ℕ) (env : Env) (atyp : UInt8)
    (addr : List UInt8) (port : UInt16) : Prop where
  reachable : Reachable s
  view : s.view c = some v
  phase : v.phase = some .connectionReq
  enabled : Socks5d.enabled s (.readable fd env) = true
  client : (s.selector.fds fd).isClientOf c
  address : IsAddress atyp addr
  request : ∃ junk before first rest more,
    v.conn.connReqParser = some (feedAll connReqParserFeed (connReqParserInit junk) before) ∧
    (connReqParserInit junk).Goes before ∧ env.recv = .data first rest ∧
    before ++ (first :: rest).take v.conn.inBuff.space =
      connRequest SOCKS5_CONN_REQ_CMD_CONNECT atyp addr port ++ more

/-- All that is looked up and registered for the connection from here on is as asked for. -/
def Faithful (c : ConnId) (s s₁ : Server) (names : Obs → Prop) : Prop :=
  ∀ events s₂, Run machine unguarded s₁ events s₂ →
    ∃ t, s₂.history c = s.history c ++ t ∧ ∀ o ∈ t, names o

/-- The text that `set_dst_address` leaves for an address of this kind. -/
def destinationText (atyp : UInt8) (addr : List UInt8) (inetNtop : Option CString) : CString :=
  if atyp = SOCKS5_CONN_REQ_ATYP_IPV4 then
    [46].intercalate (addr.map fun b => CStrings.decimal b.toNat)
  else if atyp = SOCKS5_CONN_REQ_ATYP_IPV6 then inetNtop.getD (CStrings.ascii "<invalid IPv6>")
  else text (addr.take (DOMAIN_NAME_MAX_LENGTH - 1))

section Texts

variable {atyp : UInt8} {addr : List UInt8} {port : UInt16} {inetNtop : Option CString}
  {inetPton : CString → Option (List UInt8)} {word : CString} {env : Env} {o : Obs}

/-- What is set for the address the parser has stored. -/
theorem setDstAddress_eq {junk : ℕ → UInt8} (haddr : IsAddress atyp addr) (old : CString) :
    setDstAddress (filled junk (addr ++ [0])) addr.length atyp inetNtop old =
      destinationText atyp addr inetNtop := by
  rcases haddr with ⟨rfl, hlen⟩ | ⟨rfl, -, -⟩ | ⟨rfl, -⟩
  · obtain ⟨a, b, d, e, rfl⟩ : ∃ a b d e, addr = [a, b, d, e] := by
      match addr, hlen with
      | [a, b, d, e], _ => exact ⟨a, b, d, e, rfl⟩
    simp [setDstAddress, destinationText, filled, List.intercalate, CStrings.ascii,
      CStrings.decimal]
  · have hle : min addr.length (DOMAIN_NAME_MAX_LENGTH - 1) ≤ (addr ++ [0]).length := by
      rw [List.length_append]
      omega
    rw [setDstAddress, destinationText, cString, map_range_filled hle,
      List.take_append_of_le_length (Nat.min_le_left _ _), Nat.min_comm, ← List.take_take,
      List.take_length]
    rfl
  · rfl

/-- The text set for an address denotes it, unless it is a name too long for `dst_address`. -/
theorem denotes_destinationText (haddr : IsAddress atyp addr)
    (hname : atyp = SOCKS5_CONN_REQ_ATYP_DOMAIN_NAME → ∀ b ∈ addr, b ≠ 0)
    (hntop : atyp = SOCKS5_CONN_REQ_ATYP_IPV6 → InetNtopCorrect inetPton env addr)
    (hfits : atyp = SOCKS5_CONN_REQ_ATYP_DOMAIN_NAME → addr.length < DOMAIN_NAME_MAX_LENGTH) :
    Denotes inetPton atyp addr (destinationText atyp addr env.inetNtop) ∧
      (destinationText atyp addr env.inetNtop).length < DEST_MAX_LEN := by
  rcases haddr with ⟨rfl, hlen⟩ | ⟨rfl, -, -⟩ | ⟨rfl, -⟩
  · refine ⟨isDotted_decimal addr (List.ne_nil_of_length_pos (by omega)), ?_⟩
    have hbyte : ∀ b : UInt8, (CStrings.decimal b.toNat).length ≤ 3 := fun b =>
      length_decimal_le (by decide) (Nat.lt_trans b.toNat_lt (by decide))
    obtain ⟨a, b, d, e, rfl⟩ : ∃ a b d e, addr = [a, b, d, e] := by
      match addr, hlen with
      | [a, b, d, e], _ => exact ⟨a, b, d, e, rfl⟩
    have ha := hbyte a
    have hb := hbyte b
    have hd := hbyte d
    have he := hbyte e
    simp only [destinationText, if_true, List.intercalate, List.map_cons, List.map_nil,
      List.intersperse, List.flatten_cons, List.flatten_nil, List.length_append, List.length_cons,
      List.length_nil, DEST_MAX_LEN]
    omega
  · have hcut : addr.take (DOMAIN_NAME_MAX_LENGTH - 1) = addr :=
      List.take_of_length_le (Nat.le_sub_one_of_lt (hfits rfl))
    have hset : destinationText SOCKS5_CONN_REQ_ATYP_DOMAIN_NAME addr env.inetNtop = addr := by
      rw [destinationText, if_neg (by decide), if_neg (by decide), hcut, text_eq_self (hname rfl)]
    rw [hset]
    exact ⟨rfl, Nat.lt_trans (hfits rfl) (by decide)⟩
  · obtain ⟨word, hsome, hread, hlen⟩ := hntop rfl
    have hset : destinationText SOCKS5_CONN_REQ_ATYP_IPV6 addr env.inetNtop = word := by
      rw [hsome]
      rfl
    rw [hset]
    exact ⟨hread, Nat.lt_trans hlen (by decide)⟩

/-- The service denotes the port. -/
theorem isNumeral_portStr (port : UInt16) : IsNumeral (portStr port) port.toNat := by
  have hlen : (CStrings.decimal port.toNat).length ≤ 5 :=
    length_decimal_le (by decide) (Nat.lt_trans port.toNat_lt (by decide))
  rw [portStr, List.take_of_length_le hlen]
  exact isNumeral_decimal port.toNat

/-- What is aimed at a text that denotes the address names it. -/
theorem Obs.AimsAt.names (h : o.AimsAt (word, port)) (hdenotes : Denotes inetPton atyp addr word)
    (hlen : word.length < DEST_MAX_LEN) : o.Names inetPton atyp addr port := by
  cases o with
  | lookup c node service =>
    obtain ⟨rfl, rfl⟩ := Prod.mk.inj h
    exact ⟨hdenotes, isNumeral_portStr service⟩
  | access c call =>
    obtain ⟨rfl, rfl⟩ := Prod.mk.inj h
    intro reg isoDate
    have hentry : call.entry reg isoDate =
        { isoDate := isoDate
          username := call.username.take (MAX_USERNAME_LEN - 1)
          registerType := DEFAULT_REG_TYPE
          srcIp := call.srcIp.take (IP_MAX_LEN - 1)
          srcPort := call.srcPort
          destination := call.destination.take (DEST_MAX_LEN - 1)
          destPort := call.destPort
          statusCode := call.statusCode.toNat } := Function.update_self _ _ _
    rw [hentry, List.take_of_length_le (Nat.le_sub_one_of_lt hlen)]
    exact ⟨hdenotes, rfl⟩
  | _ => trivial

end Texts

section Requests

variable {c : ConnId} {s s₁ : Server} {v w : View} {fd : ℕ} {env : Env} {atyp : UInt8}
  {addr : List UInt8} {port : UInt16} {p : ConnReqParser} {scan : RequestScan} {r : Result}
  {destination : CString × UInt16} {inetPton : CString → Option (List UInt8)}

/-- The passes of the loop over a request end with its last byte. -/
theorem ConnReqReads.of_request (h : ConnReqReads v w scan) (hp : v.conn.connReqParser = some p)
    {front more : List UInt8} {last : UInt8}
    (hcontent : v.conn.inBuff.content = front ++ last :: more) (hgoes : p.Goes front)
    (hdone : (connReqParserFeed (feedAll connReqParserFeed p front) last).2 = .done) :
    scan = .complete (connReqParserFeed (feedAll connReqParserFeed p front) last).1 ∧
      w.destination = v.destination ∧ w.history = v.history ∧ w.phase = v.phase := by
  induction h generalizing p front with
  | more v hempty => simp [hempty] at hcontent
  | fed v w scan p₁ p' byte state inBuff hparser hfirst hcapacity hfeed hstate hrest ih =>
    obtain rfl := Option.some.inj (hp.symm.trans hparser)
    cases front with
    | nil =>
      obtain ⟨rfl, -⟩ := List.cons.inj (hcontent.symm.trans hfirst)
      rw [feedAll_nil, hfeed] at hdone
      exact absurd hdone hstate.1
    | cons b front =>
      obtain ⟨rfl, hleft⟩ := List.cons.inj (hcontent.symm.trans hfirst)
      have hp' : (connReqParserFeed p b).1 = p' := congrArg Prod.fst hfeed
      have hgoes' : p'.Goes front := by
        have hall : p.Goes ([b] ++ front) := hgoes
        exact hp' ▸ hall.rest
      rw [feedAll_cons, hp'] at hdone ⊢
      exact ih rfl hleft.symm hgoes' hdone
  | malformed v p₁ p' byte inBuff hparser hfirst hcapacity hfeed =>
    obtain rfl := Option.some.inj (hp.symm.trans hparser)
    cases front with
    | nil =>
      obtain ⟨rfl, -⟩ := List.cons.inj (hcontent.symm.trans hfirst)
      rw [feedAll_nil, hfeed] at hdone
      cases hdone
    | cons b front =>
      obtain ⟨rfl, -⟩ := List.cons.inj (hcontent.symm.trans hfirst)
      exact absurd rfl (hgoes .error (by simp [hfeed])).2
  | complete v p₁ p' byte inBuff hparser hfirst hcapacity hfeed =>
    obtain rfl := Option.some.inj (hp.symm.trans hparser)
    cases front with
    | nil =>
      obtain ⟨rfl, -⟩ := List.cons.inj (hcontent.symm.trans hfirst)
      rw [feedAll_nil, hfeed]
      exact ⟨rfl, rfl, rfl, rfl⟩
    | cons b front =>
      obtain ⟨rfl, -⟩ := List.cons.inj (hcontent.symm.trans hfirst)
      exact absurd rfl (hgoes .done (by simp [hfeed])).1

/-- What a request that is completed leaves in its parser. -/
structure Decoded (p : ConnReqParser) (atyp : UInt8) (addr : List UInt8) (port : UInt16) : Prop where
  cmd : p.cmd = SOCKS5_CONN_REQ_CMD_CONNECT
  atyp : p.atyp = atyp
  dstAddrLen : p.dstAddrLen.toNat = addr.length
  dstAddr : ∃ junk, p.dstAddr = filled junk (addr ++ [0])
  dstPort : p.dstPort = port

/-- The bytes that arrive go on to the last byte of the request. -/
theorem Completes.parses (h : Completes c s v fd env atyp addr port) :
    ∃ q mid last more first rest, v.conn.connReqParser = some q ∧ q.Goes mid ∧
      (connReqParserFeed (feedAll connReqParserFeed q mid) last).2 = .done ∧
      Decoded (connReqParserFeed (feedAll connReqParserFeed q mid) last).1 atyp addr port ∧
      env.recv = .data first rest ∧
      (first :: rest).take v.conn.inBuff.space = mid ++ last :: more := by
  obtain ⟨junk, before, first, rest, more, hparser, hgoes, hrecv, hrequest⟩ := h.request
  obtain ⟨hannounces, hmax, hlen⟩ := announces_of_isAddress h.address
  obtain ⟨hends, hend, hport⟩ := requestEnds junk (.inl rfl) hannounces hmax
    (port >>> 8).toUInt8 port.toUInt8
  have hlast : connRequest SOCKS5_CONN_REQ_CMD_CONNECT atyp addr port ++ more =
      (requestHeader SOCKS5_CONN_REQ_CMD_CONNECT atyp (UInt8.ofNat addr.length) ++ addr ++
        [(port >>> 8).toUInt8]) ++ port.toUInt8 :: more := by
    simp [connRequest, portBytes]
  obtain ⟨mid, hfront, hbytes⟩ := hends.split (by decide) hgoes (hrequest.trans hlast)
  have hsplit : requestHeader SOCKS5_CONN_REQ_CMD_CONNECT atyp (UInt8.ofNat addr.length) ++ addr ++
      [(port >>> 8).toUInt8, port.toUInt8] = before ++ (mid ++ [port.toUInt8]) := by
    rw [← List.append_assoc, ← hfront]
    simp
  rw [hsplit, feedAll_append, feedAll_append, feedAll_cons, feedAll_nil] at hend hport
  refine ⟨_, mid, port.toUInt8, more, first, rest, hparser, ?_, ?_, ?_, hrecv, hbytes⟩
  · have hall := hends.goes
    rw [hfront] at hall
    exact hall.rest
  · have hverdict := hends.verdict
    rwa [hfront, feedAll_append] at hverdict
  · exact ⟨hend.cmd, hend.atyp, by rw [hend.dstAddrLen, hlen], ⟨junk, hend.dstAddr⟩,
      hport.trans (joined_portBytes port)⟩

theorem destination_requested (hdecoded : Decoded p atyp addr port) (haddr : IsAddress atyp addr) :
    (w.requested c p env.inetNtop).destination =
      (destinationText atyp addr env.inetNtop, port) := by
  obtain ⟨junk, hstored⟩ := hdecoded.dstAddr
  rw [View.destination, View.requested, hdecoded.dstPort, hdecoded.atyp, hdecoded.dstAddrLen,
    hstored, setDstAddress_eq haddr]

/-- A request that is completed aims its connection, unless it is given up for want of a resolver. -/
theorem Requests.aims {junk : Memory} {front more : List UInt8} {last : UInt8}
    (h : Requests c junk env v r) (hp : v.conn.connReqParser = some p)
    (hcontent : v.conn.inBuff.content = front ++ last :: more) (hgoes : p.Goes front)
    (hdone : (connReqParserFeed (feedAll connReqParserFeed p front) last).2 = .done)
    (hdecoded : Decoded (connReqParserFeed (feedAll connReqParserFeed p front) last).1 atyp addr port)
    (haddr : IsAddress atyp addr)
    (hdest : (atyp = SOCKS5_CONN_REQ_ATYP_DOMAIN_NAME → env.threadCreated = true) →
      destination = (destinationText atyp addr env.inetNtop, port)) :
    ∃ t, r.history = v.history ++ t ∧ (∀ o ∈ t, o.AimsAt destination) ∧
      ∀ w, r = .alive w → w.Aimed ∧ w.destination = destination := by
  cases h with
  | more w hreads => cases (hreads.of_request hp hcontent hgoes hdone).1
  | malformed w hreads => cases (hreads.of_request hp hcontent hgoes hdone).1
  | unsupported w u q hreads hcmd hqueued =>
    obtain ⟨hscan, -⟩ := hreads.of_request hp hcontent hgoes hdone
    obtain rfl := RequestScan.complete.inj hscan
    exact absurd hdecoded.cmd hcmd
  | noThread w q hreads hcmd hatyp hthread =>
    obtain ⟨-, -, hhistory, -⟩ := hreads.of_request hp hcontent hgoes hdone
    refine ⟨[.request c, .enter c .error, .released c], by rw [← hhistory]; rfl,
      by simp [Obs.AimsAt], fun u hu => ?_⟩
    cases hu
  | threaded w q hreads hcmd hatyp hthread =>
    obtain ⟨hscan, -, hhistory, -⟩ := hreads.of_request hp hcontent hgoes hdone
    obtain rfl := RequestScan.complete.inj hscan
    refine ⟨[.request c, .enter c .connecting], ?_, by simp [Obs.AimsAt], fun u hu => ?_⟩
    · rw [← hhistory]
      exact List.append_assoc _ _ _
    · obtain rfl := Result.alive.inj hu
      rw [hdest fun _ => hthread]
      exact ⟨.inl rfl, destination_requested (c := c) (w := w) hdecoded haddr⟩
  | looked w q hreads hcmd hatyp =>
    obtain ⟨hscan, -, hhistory, -⟩ := hreads.of_request hp hcontent hgoes hdone
    have hset : (w.requested c q env.inetNtop).destination =
        (destinationText atyp addr env.inetNtop, port) := by
      rw [RequestScan.complete.inj hscan]
      exact destination_requested hdecoded haddr
    obtain rfl := RequestScan.complete.inj hscan
    rw [hdest fun hdomain => absurd (hdecoded.atyp.trans hdomain) hatyp]
    refine ⟨[.request c, .lookup c (destinationText atyp addr env.inetNtop) port,
      .enter c .connecting], ?_, by simp [Obs.AimsAt], fun u hu => ?_⟩
    · obtain ⟨htext, hport⟩ := Prod.mk.inj hset
      rw [← hhistory, ← htext, ← hport]
      simp [Result.history, View.awaiting, View.resolved, View.requested]
    · obtain rfl := Result.alive.inj hu
      exact ⟨.inl rfl, hset⟩

/-- The descriptor is the client's, which waits to read. -/
theorem Completes.item (h : Completes c s v fd env atyp addr port) :
    ∃ i, s.selector.fds fd = ⟨fd, i, some .socks5Handler, some c⟩ ∧ v.conn.clientFd = fd ∧
      v.interest = i ∧ i.read = true := by
  have henabled := h.enabled
  simp only [Socks5d.enabled, Bool.and_eq_true, Bool.not_eq_true'] at henabled
  obtain ⟨⟨⟨-, hused⟩, hread⟩, -⟩ := henabled
  obtain ⟨-, hreg⟩ := h.reachable.inv.owned.registered fd hused
  obtain ⟨hhandler, hdata⟩ := h.client
  generalize hitem : s.selector.fds fd = item at hreg hread hhandler hdata
  cases hreg with
  | listener handler i howner hpassive => cases hdata
  | client d i howner =>
    obtain rfl := Option.some.inj hdata
    obtain ⟨u, hu, hclient, hinterest⟩ := h.reachable.inv.client hitem howner
    obtain rfl := Option.some.inj (h.view.symm.trans hu)
    exact ⟨i, rfl, hclient, hinterest, hread⟩
  | relay d handler i hrelay howner horigin hknown =>
    obtain rfl := Option.some.inj hhandler
    cases hrelay
  | admin i howner => cases hdata

theorem Completes.requesting (h : Completes c s v fd env atyp addr port) : v.Requesting := by
  have hphaseOk := (h.reachable.inv.ok c v h.view).phase
  simp only [View.PhaseOk, h.phase] at hphaseOk
  exact hphaseOk

/-- A client that waits to read in the request phase has nothing unread. -/
theorem Completes.inBuff (h : Completes c s v fd env atyp addr port) :
    v.conn.inBuff.content = [] := by
  obtain ⟨i, -, -, hinterest, hread⟩ := h.item
  rcases h.requesting.reply with ⟨-, hempty, -⟩ | ⟨-, -, hwrite⟩
  · exact hempty
  · rw [← hinterest, hwrite] at hread
    cases hread

/-- The step that completes a request returns. -/
theorem Completes.steps (h : Completes c s v fd env atyp addr port) :
    ∃ s₁, step s (.readable fd env) = .ok s₁ := by
  obtain ⟨i, hitem, hclient, -, -⟩ := h.item
  have hstart : Tracks ⟨false, false⟩ false c (s.enter env) v (s.enter env) :=
    h.reachable.inv.start h.view env (fun htidy => by cases htidy)
  have hkey : (⟨fd, c⟩ : SelectorKey) = ⟨v.conn.clientFd, c⟩ := by rw [hclient]
  have hholds : Holds (fun _ => False) (socksv5Read ⟨fd, c⟩ env (s.enter env)) fun s' =>
      ∃ r, ClientRead c v env (fun w => Requests c env.junk env w) r ∧
        Lands ⟨false, false⟩ false c (s.enter env) r s' := by
    apply hstart.socksv5Read hkey env h.requesting.tokens
    intro buff bytes s' _ _ _ h₁ _
    obtain ⟨ret, s₂, r, hs₂, hr, hlands⟩ := h₁.stmHandlerRead_connectionReq hkey env h.phase
      h.requesting.parser h.requesting.tokens
    rw [hs₂, holds_ok]
    exact ⟨r, hr, hlands⟩
  have hstep : step s (.readable fd env) = socksv5Read ⟨fd, c⟩ env (s.enter env) := by
    simp only [step, handleRead, hitem]
  rw [hstep]
  exact succeeds_iff_holds.mpr (hholds.mono fun _ _ => trivial)

/-- The step that completes a request aims its connection. -/
theorem Completes.aims (h : Completes c s v fd env atyp addr port)
    (hstep : step s (.readable fd env) = .ok s₁)
    (hdest : (atyp = SOCKS5_CONN_REQ_ATYP_DOMAIN_NAME → env.threadCreated = true) →
      destination = (destinationText atyp addr env.inetNtop, port)) :
    Aims c destination (s.history c) s₁ := by
  have hinv := h.reachable.inv
  have heffect := hinv.effect h.enabled hstep
  have hinv₁ := hinv.step h.enabled hstep
  obtain ⟨q, mid, last, more, first, rest, hparser, hgoes, hdone, hdecoded, hrecv, hbytes⟩ := h.parses
  have hbefore : s.history c = v.history := (view_eq_some_iff.mp h.view).2.2.2.2.2
  cases heffect with
  | background _ htarget =>
    have hdata : (s.selector.fds fd).data = none := htarget
    rw [h.client.2] at hdata
    cases hdata
  | reaction d u r s₀ hview htarget hreaction hentered hlands hjobs =>
    have hdata : (s.selector.fds fd).data = some d := htarget
    obtain rfl : c = d := Option.some.inj (h.client.2.symm.trans hdata)
    obtain rfl := Option.some.inj (h.view.symm.trans hview)
    have haims : ∃ t, r.history = v.history ++ t ∧ t ≠ [] ∧ (∀ o ∈ t, o.AimsAt destination) ∧
        ∀ w, r = .alive w → w.Aimed ∧ w.destination = destination := by
      cases hreaction with
      | greets _ _ r _ hready hphase hread => simp [h.phase] at hphase
      | authenticates _ _ r _ hready hphase hread => simp [h.phase] at hphase
      | relays _ _ r _ hready hphase hread => simp [h.phase] at hphase
      | receives _ _ r i horigin hrelay hready hphase hreceived => simp [h.phase] at hphase
      | requests _ _ r _ hready hphase hread =>
        cases hread with
        | full hfull =>
          rw [hfull, List.take_zero] at hbytes
          simp at hbytes
        | ended hspace heof => simp [hrecv] at heof
        | blocked hspace hblocked => simp [hrecv] at hblocked
        | broken err hspace hfailed he => simp [hrecv] at hfailed
        | handled first' rest' buff r hspace hrecv' hcontent hcapacity hrequests =>
          obtain ⟨rfl, rfl⟩ := RecvOutcome.data.inj (hrecv.symm.trans hrecv')
          rw [h.inBuff, List.nil_append, hbytes] at hcontent
          obtain ⟨t, ht, haims, haimed⟩ :=
            hrequests.aims hparser hcontent hgoes hdone hdecoded h.address hdest
          refine ⟨.recv c .client ((first :: rest).take v.conn.inBuff.space) :: t, ?_,
            List.cons_ne_nil _ _, List.forall_mem_cons.mpr ⟨trivial, haims⟩, haimed⟩
          rw [ht, View.received, List.append_assoc, List.singleton_append]
    obtain ⟨t, ht, hne, hnamed, haimed⟩ := haims
    have hafter : s₁.history c = s.history c ++ t := by rw [hlands.history_eq, ht, hbefore]
    refine ⟨hinv₁, ?_, fun w hw => ?_, t, hafter, hnamed⟩
    · rw [hafter]
      exact fun hnil => hne (List.append_eq_nil_iff.mp hnil).2
    · cases r with
      | alive x =>
        obtain rfl := Option.some.inj ((Tracks.view hlands).symm.trans hw)
        exact haimed x rfl
      | gone history =>
        have hgone : s₁.conns c = none := Released.conns hlands
        simp [Server.view, hgone] at hw

/-- The jump to the connecting phase starts and ends no resolver. -/
theorem resolving_jump {key : SelectorKey} (hphase : s.stms key.data = some ⟨some .connectionReq⟩) :
    Holds (fun _ => True) (jump .connecting key s) fun s' => s'.resolving = s.resolving := by
  have hstm : s.stm key.data = .ok ⟨some .connectionReq⟩ := by simp [Server.stm, hphase]
  simp only [jump, hstm, ok_bind, onDeparture, connectionReqOnDeparture]
  rw [if_neg (by simp)]
  cases s.conn key.data with
  | error f => trivial
  | ok k =>
    simp only [ok_bind]
    cases k.connReqParser with
    | none => trivial
    | some p =>
      have hstm' : (s.setConn key.data { k with connReqParser := none }).stm key.data =
          .ok ⟨some .connectionReq⟩ := by simp [Server.stm, Server.setConn, hphase]
      simp only [pure_eq_ok, ok_bind, hstm', onArrival, holds_ok]
      rfl

/-- A complete request for a name starts a resolver. -/
theorem connectionReqDone_resolving {mode : Mode} {s₀ : Server} {key : SelectorKey}
    (htracks : Tracks mode false c s₀ v s) (hkey : key.data = c) (hdecoded : Decoded p atyp addr port)
    (hdomain : atyp = SOCKS5_CONN_REQ_ATYP_DOMAIN_NAME) (hthread : env.threadCreated = true) :
    ∃ s', connectionReqDone key env p s = .ok (.connecting, s') ∧ c ∈ s'.resolving ∧
      s'.stms = s.stms := by
  subst hkey
  have hconn : ((s.note (.request key.data)).setInterest key.fd OP_NOOP).conn key.data = .ok v.conn :=
    htracks.conn_eq
  have hname : p.atyp = SOCKS5_CONN_REQ_ATYP_DOMAIN_NAME := hdecoded.atyp.trans hdomain
  simp only [connectionReqDone, hdecoded.cmd, ne_eq, not_true_eq_false, if_false, hconn, ok_bind,
    if_pos hname, hthread, if_true, pure_eq_ok]
  exact ⟨_, rfl, List.mem_cons_self, rfl⟩

/-- After a request for a name was accepted its resolver runs. -/
theorem Completes.resolving (h : Completes c s v fd env atyp addr port)
    (hdomain : atyp = SOCKS5_CONN_REQ_ATYP_DOMAIN_NAME) (hthread : env.threadCreated = true)
    (hstep : step s (.readable fd env) = .ok s₁) : c ∈ s₁.resolving := by
  have hinv := h.reachable.inv
  obtain ⟨q, mid, last, more, first, rest, hparser, hgoes, hdone, hdecoded, hrecv, hbytes⟩ := h.parses
  have hspace : 0 < v.conn.inBuff.space := by
    by_contra hfull
    rw [Nat.eq_zero_of_not_pos hfull, List.take_zero] at hbytes
    simp at hbytes
  have hstart : Tracks ⟨false, false⟩ false c (s.enter env) v (s.enter env) :=
    hinv.start h.view env (fun htidy => by cases htidy)
  have hfit : ((first :: rest).take v.conn.inBuff.space).length ≤ v.conn.inBuff.space := by
    rw [List.length_take]
    exact Nat.min_le_left _ _
  obtain ⟨buff, hadv⟩ := Buffer.bufferWriteAdv_store_succeeds _ hfit
  obtain ⟨hcontent, -⟩ := Buffer.bufferWriteAdv_store_eq_ok hfit hadv
  rw [h.inBuff, List.nil_append, hbytes] at hcontent
  have h₁ : Tracks ⟨false, false⟩ false c (s.enter env)
      (v.received c buff ((first :: rest).take v.conn.inBuff.space)) _ :=
    (hstart.setConn { v.conn with inBuff := buff } rfl rfl rfl).note
      (.recv c .client ((first :: rest).take v.conn.inBuff.space)) rfl
  have hdata : (⟨(s.selector.fds fd).fd, c⟩ : SelectorKey).data = c := rfl
  obtain ⟨w, scan, s₂, hreads, h₂, hloop⟩ := h₁.connectionReqReadLoop _ env hdata
    (by rw [View.received, hparser]; rfl) (Nat.le_refl _)
  obtain ⟨hscan, -, -, hphase⟩ := hreads.of_request hparser hcontent hgoes hdone
  subst hscan
  obtain ⟨s₃, hs₃, hmem, hstms⟩ := connectionReqDone_resolving h₂ hdata hdecoded hdomain hthread
  have hphase₃ : s₃.stms c = some ⟨some .connectionReq⟩ := by
    rw [hstms, (view_eq_some_iff.mp h₂.view).2.1, hphase]
    exact congrArg _ (congrArg _ h.phase)
  have hholds : Holds (fun _ => True) (step s (.readable fd env)) fun s' => c ∈ s'.resolving := by
    have hcan : bufferCanWrite v.conn.inBuff = true := (Buffer.bufferCanWrite_iff _).mpr hspace
    simp only [step, handleRead, h.client.1, h.client.2, socksv5Read, hstart.conn_eq, ok_bind, hcan,
      Bool.not_true, Bool.false_eq_true, if_false, hrecv, hadv]
    rw [h₁.stmHandlerRead_requests hdata env h.phase, hloop]
    simp only [hs₃, ok_bind]
    rw [holds_bind, holds_bind]
    refine (resolving_jump hphase₃).mono fun s₄ hs₄ => ?_
    simp only [pure_eq_ok, holds_ok, reduceCtorEq, if_false]
    rw [hs₄]
    exact hmem
  exact hholds.result hstep

/-- A resolver that ends passes the record's destination to `getaddrinfo`. -/
theorem resolved_history (hmem : c ∈ s.resolving) (hview : s.view c = some v) :
    ∃ s', Run machine unguarded s [.resolved c {}] s' ∧
      s'.history c = s.history c ++ [.lookup c v.conn.dstAddress v.conn.dstPort] := by
  obtain ⟨hconn, -⟩ := view_eq_some_iff.mp hview
  have hconn' : Server.conn { s with resolving := s.resolving.erase c } c = .ok v.conn := by
    simp [Server.conn, hconn]
  have henabled : enabled s (.resolved c {}) = true := by simpa [enabled] using hmem
  refine ⟨selectorNotifyBlock (Server.note { s with resolving := s.resolving.erase c }
    (.lookup c v.conn.dstAddress v.conn.dstPort)) v.conn.clientFd, ?_, ?_⟩
  · refine Run.snoc .nil henabled trivial ?_
    simp [machine, step, resolveHostName, hconn']
  · simp [Server.history, selectorNotifyBlock, Server.note, Obs.conn]

/-- Only a name that fits is looked up as it was asked for. -/
theorem Completes.fits (h : Completes c s v fd env atyp addr port)
    (hname : atyp = SOCKS5_CONN_REQ_ATYP_DOMAIN_NAME → ∀ b ∈ addr, b ≠ 0)
    (hstep : step s (.readable fd env) = .ok s₁)
    (hfaithful : Faithful c s s₁ (Obs.Names inetPton atyp addr port))
    (hdomain : atyp = SOCKS5_CONN_REQ_ATYP_DOMAIN_NAME) (hthread : env.threadCreated = true) :
    addr.length < DOMAIN_NAME_MAX_LENGTH := by
  have haims := h.aims hstep fun _ => rfl
  have hmem := h.resolving hdomain hthread hstep
  obtain ⟨w, hw⟩ := Option.isSome_iff_exists.mp (by
    rw [haims.inv.owned.view_isSome]
    exact haims.inv.owned.resolving c hmem : (s₁.view c).isSome = true)
  obtain ⟨s₂, hrun, hafter⟩ := resolved_history hmem hw
  obtain ⟨t, ht, hnames⟩ := hfaithful _ s₂ hrun
  obtain ⟨t₁, ht₁, -⟩ := haims.named
  rw [hafter, ht₁, List.append_assoc, List.append_cancel_left_eq] at ht
  obtain ⟨hdenotes, -⟩ := hnames (.lookup c w.conn.dstAddress w.conn.dstPort) (by simp [← ht])
  have hset : w.conn.dstAddress = destinationText atyp addr env.inetNtop :=
    (Prod.mk.inj (haims.aimed w hw).2).1
  rw [hset, Denotes, if_pos hdomain] at hdenotes
  have hcut : ∀ b ∈ addr.take (DOMAIN_NAME_MAX_LENGTH - 1), b ≠ 0 := fun b hb =>
    hname hdomain b (List.mem_of_mem_take hb)
  subst hdomain
  rw [destinationText, if_neg (by decide), if_neg (by decide), text_eq_self hcut] at hdenotes
  have hlen : addr.length ≤ DOMAIN_NAME_MAX_LENGTH - 1 := by
    rw [← hdenotes, List.length_take]
    exact Nat.min_le_left _ _
  exact Nat.lt_of_le_of_lt hlen (by decide)

/-- What fits leads where it was asked to, in every run. -/
theorem Completes.faithful (h : Completes c s v fd env atyp addr port)
    (hname : atyp = SOCKS5_CONN_REQ_ATYP_DOMAIN_NAME → ∀ b ∈ addr, b ≠ 0)
    (hntop : atyp = SOCKS5_CONN_REQ_ATYP_IPV6 → InetNtopCorrect inetPton env addr)
    (hstep : step s (.readable fd env) = .ok s₁)
    (hfits : atyp = SOCKS5_CONN_REQ_ATYP_DOMAIN_NAME → env.threadCreated = true →
      addr.length < DOMAIN_NAME_MAX_LENGTH) :
    Faithful c s s₁ (Obs.Names inetPton atyp addr port) := by
  intro events s₂ hrun
  by_cases hnone : atyp = SOCKS5_CONN_REQ_ATYP_DOMAIN_NAME ∧ env.threadCreated = false
  · -- the connection is released, so any destination will do
    have haims : Aims c (addr, port) (s.history c) s₁ := h.aims hstep fun hall => by
      have hthread := hall hnone.1
      rw [hnone.2] at hthread
      cases hthread
    obtain ⟨t, ht, hnamed⟩ := (haims.run hrun).named
    have hshort : addr.length < DEST_MAX_LEN := by
      rcases h.address with ⟨-, hlen⟩ | ⟨-, -, hlen⟩ | ⟨-, hlen⟩
      · exact hlen ▸ by decide
      · exact Nat.lt_of_le_of_lt hlen (by decide)
      · exact hlen ▸ by decide
    refine ⟨t, ht, fun o ho => (hnamed o ho).names ?_ hshort⟩
    rw [Denotes, if_pos hnone.1]
  · have haims := h.aims hstep fun _ => rfl
    obtain ⟨t, ht, hnamed⟩ := (haims.run hrun).named
    obtain ⟨hdenotes, hlen⟩ := denotes_destinationText h.address hname hntop fun hdomain =>
      hfits hdomain (by simpa [hdomain] using hnone)
    exact ⟨t, ht, fun o ho => (hnamed o ho).names hdenotes hlen⟩

/-- The destination is the one asked for exactly when no name is too long for `dst_address`; a name
for which no resolver can be started leads nowhere. -/
theorem destination_faithful_iff (h : Completes c s v fd env atyp addr port)
    (hname : atyp = SOCKS5_CONN_REQ_ATYP_DOMAIN_NAME → ∀ b ∈ addr, b ≠ 0)
    (hntop : atyp = SOCKS5_CONN_REQ_ATYP_IPV6 → InetNtopCorrect inetPton env addr) :
    ∃ s₁, step s (.readable fd env) = .ok s₁ ∧
      (Faithful c s s₁ (Obs.Names inetPton atyp addr port) ↔
        (atyp = SOCKS5_CONN_REQ_ATYP_DOMAIN_NAME → env.threadCreated = true →
          addr.length < DOMAIN_NAME_MAX_LENGTH)) := by
  obtain ⟨s₁, hstep⟩ := h.steps
  refine ⟨s₁, hstep, ?_⟩
  constructor
  · exact h.fits hname hstep
  · exact h.faithful hname hntop hstep

end Requests

section Examples

/-- The parser was fed nothing yet. -/
def ConnReqParser.isFresh (p : ConnReqParser) : Bool :=
  p.parser == parserInit connReqParserDefinition && p.cmd == 0 && p.atyp == 0 && p.dstAddrLen == 0 &&
    p.dstAddrCount == 0 && p.dstPort == 0

theorem ConnReqParser.eq_init_of_isFresh {p : ConnReqParser} (h : p.isFresh = true) :
    p = connReqParserInit p.dstAddr := by
  obtain ⟨parser, cmd, atyp, dstAddrLen, dstAddr, dstAddrCount, dstPort⟩ := p
  simp only [isFresh, Bool.and_eq_true, beq_iff_eq] at h
  obtain ⟨⟨⟨⟨⟨rfl, rfl⟩, rfl⟩, rfl⟩, rfl⟩, rfl⟩ := h
  rfl

/-- The first client, in buffers that are large enough, may send any request next. -/
theorem completes_any : ∃ s v, ∀ env atyp addr port first rest, IsAddress atyp addr →
    env.recv = .data first rest →
    first :: rest = connRequest SOCKS5_CONN_REQ_CMD_CONNECT atyp addr port →
    Completes 0 s v 2 env atyp addr port := by
  obtain ⟨s, hs, hcheck⟩ := reachable_of_after [.configure authInit 512 500, arrives, greets 2]
    (fun s : Server => (s.view 0).any fun v : View => v.phase == some Socks5State.connectionReq &&
      v.conn.connReqParser.any ConnReqParser.isFresh && decide (262 ≤ v.conn.inBuff.space) &&
      enabled s (.readable 2 {}) && decide ((s.selector.fds 2).handler = some FdHandler.socks5Handler) &&
      decide ((s.selector.fds 2).data = some 0))
    (by decide +kernel)
  simp only [Option.any_eq_true, Bool.and_eq_true, beq_iff_eq, decide_eq_true_eq] at hcheck
  obtain ⟨v, hview, ⟨⟨⟨⟨⟨hphase, p, hp, hfresh⟩, hspace⟩, henabled⟩, hhandler⟩, hdata⟩⟩ := hcheck
  refine ⟨s, v, fun env atyp addr port first rest haddr hrecv hbytes => ?_⟩
  have hlen : (connRequest SOCKS5_CONN_REQ_CMD_CONNECT atyp addr port).length ≤ 262 := by
    have hbound : addr.length ≤ 255 := by
      rcases haddr with ⟨-, hlen⟩ | ⟨-, -, hlen⟩ | ⟨-, hlen⟩ <;> omega
    simp only [connRequest, requestHeader, lengthByte, portBytes, List.length_append,
      List.length_cons, List.length_nil]
    split <;> simp <;> omega
  refine ⟨hs, hview, hphase, henabled, ⟨hhandler, hdata⟩, haddr, p.dstAddr, [], first, rest, [], ?_,
    goes_nil _, hrecv, ?_⟩
  · rw [hp, ConnReqParser.eq_init_of_isFresh hfresh]
    rfl
  · rw [List.nil_append, List.append_nil, hbytes, List.take_of_length_le (hlen.trans hspace)]

/-- The request for the address `::1`. -/
def loopbackRequest : Env :=
  { recv := .data 5 (connRequest SOCKS5_CONN_REQ_CMD_CONNECT SOCKS5_CONN_REQ_ATYP_IPV6
      (List.replicate 15 0 ++ [1]) 443).tail
    inetNtop := some [58, 58, 49] }

/-- A client asks for the port 443 of `::1`. -/
theorem destination_faithful_loopback : ∃ s s₁, step s (.readable 2 loopbackRequest) = .ok s₁ ∧
    (Faithful 0 s s₁ (Obs.Names
        (fun word => if word = [58, 58, 49] then some (List.replicate 15 0 ++ [1]) else none)
        SOCKS5_CONN_REQ_ATYP_IPV6 (List.replicate 15 0 ++ [1]) 443) ↔
      (SOCKS5_CONN_REQ_ATYP_IPV6 = SOCKS5_CONN_REQ_ATYP_DOMAIN_NAME →
        loopbackRequest.threadCreated = true →
        (List.replicate 15 (0 : UInt8) ++ [1]).length < DOMAIN_NAME_MAX_LENGTH)) := by
  obtain ⟨s, v, hany⟩ := completes_any
  have hrequest : Completes 0 s v 2 loopbackRequest SOCKS5_CONN_REQ_ATYP_IPV6
      (List.replicate 15 0 ++ [1]) 443 :=
    hany _ _ _ _ _ _ (.inr (.inr ⟨rfl, rfl⟩)) rfl rfl
  exact ⟨s, destination_faithful_iff hrequest (fun hdomain => absurd hdomain (by decide))
    fun _ => ⟨[58, 58, 49], rfl, if_pos rfl, by decide⟩⟩

/-- A client that asks for a name of 254 bytes is connected to another. -/
theorem not_destination_faithful : ¬ ∀ (inetPton : CString → Option (List UInt8)) (c : ConnId)
    (s : Server) (v : View) (fd : ℕ) (env : Env) (atyp : UInt8) (addr : List UInt8) (port : UInt16),
    Completes c s v fd env atyp addr port →
    (atyp = SOCKS5_CONN_REQ_ATYP_DOMAIN_NAME → ∀ b ∈ addr, b ≠ 0) →
    (atyp = SOCKS5_CONN_REQ_ATYP_IPV6 → InetNtopCorrect inetPton env addr) →
    ∃ s₁, step s (.readable fd env) = .ok s₁ ∧
      Faithful c s s₁ (Obs.Names inetPton atyp addr port) := by
  intro hall
  obtain ⟨s, v, hany⟩ := completes_any
  have hlen : (List.replicate 254 (97 : UInt8)).length = 254 := List.length_replicate
  have hname : SOCKS5_CONN_REQ_ATYP_DOMAIN_NAME = SOCKS5_CONN_REQ_ATYP_DOMAIN_NAME →
      ∀ b ∈ List.replicate 254 (97 : UInt8), b ≠ 0 := by
    intro _ b hb
    rw [List.eq_of_mem_replicate hb]
    decide
  have hrequest : Completes 0 s v 2
      { recv := .data 5 (connRequest SOCKS5_CONN_REQ_CMD_CONNECT SOCKS5_CONN_REQ_ATYP_DOMAIN_NAME
          (List.replicate 254 97) 443).tail }
      SOCKS5_CONN_REQ_ATYP_DOMAIN_NAME (List.replicate 254 97) 443 :=
    hany _ _ _ _ _ _ (.inr (.inl ⟨rfl, by rw [hlen]; omega, by rw [hlen]; omega⟩)) rfl rfl
  obtain ⟨s₁, hstep, hfaithful⟩ := hall (fun _ => none) _ _ _ _ _ _ _ _ hrequest hname
    (fun hipv6 => absurd hipv6 (by decide))
  have hfits := hrequest.fits hname hstep hfaithful rfl rfl
  rw [hlen] at hfits
  exact absurd hfits (by decide)

end Examples

end Socks5d
