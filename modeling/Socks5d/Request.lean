import Socks5d.Subnegotiation

/-!
# Reading the request

`connection_req_read` on the view. The loop sends nothing, so it only stops for want of bytes,
on a malformed request, or on a complete one, which is then refused or handed to a resolver.
-/

namespace Socks5d

open Fallible

variable {mode : Mode} {c : ConnId} {s₀ s : Server} {v : View}

/-- What the loop stops for. -/
inductive RequestScan
  | more
  | malformed
  | complete (p : ConnReqParser)

/-- The view after the parser was fed the first byte of `in_buff`. -/
def View.scanned (v : View) (inBuff : Buffer) (p : ConnReqParser) : View :=
  { v with conn := { v.conn with inBuff := inBuff, connReqParser := some p } }

/-- The passes of the loop, with what it stops for. -/
inductive ConnReqReads : View → View → RequestScan → Prop
  | more (v : View) (hempty : v.conn.inBuff.content = []) : ConnReqReads v v .more
  | fed (v w : View) (scan : RequestScan) (p p' : ConnReqParser) (byte : UInt8)
      (state : ConnReqParserState) (inBuff : Buffer) (hparser : v.conn.connReqParser = some p)
      (hcontent : v.conn.inBuff.content = byte :: inBuff.content)
      (hcapacity : inBuff.capacity = v.conn.inBuff.capacity)
      (hfeed : connReqParserFeed p byte = (p', state)) (hstate : state ≠ .done ∧ state ≠ .error)
      (hrest : ConnReqReads (v.scanned inBuff p') w scan) : ConnReqReads v w scan
  | malformed (v : View) (p p' : ConnReqParser) (byte : UInt8) (inBuff : Buffer)
      (hparser : v.conn.connReqParser = some p)
      (hcontent : v.conn.inBuff.content = byte :: inBuff.content)
      (hcapacity : inBuff.capacity = v.conn.inBuff.capacity)
      (hfeed : connReqParserFeed p byte = (p', .error)) :
      ConnReqReads v (v.scanned inBuff p') .malformed
  | complete (v : View) (p p' : ConnReqParser) (byte : UInt8) (inBuff : Buffer)
      (hparser : v.conn.connReqParser = some p)
      (hcontent : v.conn.inBuff.content = byte :: inBuff.content)
      (hcapacity : inBuff.capacity = v.conn.inBuff.capacity)
      (hfeed : connReqParserFeed p byte = (p', .done)) :
      ConnReqReads v (v.scanned inBuff p') (.complete p')

/-- What the loop leaves alone. -/
theorem ConnReqReads.fields {w : View} {scan : RequestScan} (h : ConnReqReads v w scan)
    (hparser : v.conn.connReqParser.isSome = true) :
    w = { v with conn := { v.conn with
      inBuff := w.conn.inBuff, connReqParser := w.conn.connReqParser } } ∧
      w.conn.inBuff.capacity = v.conn.inBuff.capacity ∧
      w.conn.connReqParser.isSome = true ∧
      (scan = .more → w.conn.inBuff.content = []) := by
  induction h with
  | more v hempty => exact ⟨rfl, rfl, hparser, fun _ => hempty⟩
  | fed v w scan p p' byte state inBuff _ _ hcapacity _ _ _ ih =>
    obtain ⟨hview, hcap, hsome, hmore⟩ := ih rfl
    exact ⟨hview, hcap.trans hcapacity, hsome, hmore⟩
  | malformed v p p' byte inBuff _ _ hcapacity => exact ⟨rfl, hcapacity, rfl, by simp⟩
  | complete v p p' byte inBuff _ _ hcapacity => exact ⟨rfl, hcapacity, rfl, by simp⟩

/-- The loop stops when nothing is left to read. -/
theorem Tracks.connectionReqReadLoop_idle (h : Tracks mode false c s₀ v s) {key : SelectorKey}
    (hkey : key.data = c) {env : Env} {bound : ℕ} (hempty : v.conn.inBuff.content = []) :
    Socks5d.connectionReqReadLoop bound key env s = .ok (.connectionReq, s) := by
  have hcan := (Buffer.bufferCanRead_eq_false_iff _).mpr hempty
  subst hkey
  unfold Socks5d.connectionReqReadLoop
  simp [h.conn_eq, hcan]

/-- The loop follows its passes and never faults by itself. -/
theorem Tracks.connectionReqReadLoop (bound : ℕ) {key : SelectorKey} (env : Env)
    (h : Tracks mode false c s₀ v s) (hkey : key.data = c)
    (hparser : v.conn.connReqParser.isSome = true)
    (hbound : v.conn.inBuff.content.length ≤ bound) :
    ∃ w scan s', ConnReqReads v w scan ∧ Tracks mode false c s₀ w s' ∧
      Socks5d.connectionReqReadLoop bound key env s =
        match scan with
        | .more => .ok (.connectionReq, s')
        | .malformed => .ok (.error, s')
        | .complete p => connectionReqDone key env p s' := by
  subst hkey
  induction bound generalizing v s with
  | zero =>
    have hempty : v.conn.inBuff.content = [] := List.length_eq_zero_iff.mp (by omega)
    exact ⟨v, .more, s, .more v hempty, h, h.connectionReqReadLoop_idle rfl hempty⟩
  | succ bound ih =>
    by_cases hempty : v.conn.inBuff.content = []
    · exact ⟨v, .more, s, .more v hempty, h, h.connectionReqReadLoop_idle rfl hempty⟩
    · have hcan : bufferCanRead v.conn.inBuff = true := (Buffer.bufferCanRead_iff _).mpr hempty
      obtain ⟨byte, inBuff, hread, hcontent, hcap⟩ := bufferRead_cons hempty
      obtain ⟨p, hp⟩ := Option.isSome_iff_exists.mp hparser
      unfold Socks5d.connectionReqReadLoop
      simp only [h.conn_eq, ok_bind, hcan, Bool.not_true, Bool.false_eq_true, if_false, hread, hp]
      rcases hfeed : connReqParserFeed p byte with ⟨p', state⟩
      have h₁ : Tracks mode false key.data s₀ (v.scanned inBuff p') _ :=
        h.setConn { v.conn with inBuff := inBuff, connReqParser := some p' } rfl rfl rfl
      have hlen : inBuff.content.length ≤ bound := by
        rw [hcontent, List.length_cons] at hbound
        omega
      have hfed : state ≠ .done ∧ state ≠ .error → ∃ w scan s',
          ConnReqReads v w scan ∧ Tracks mode false key.data s₀ w s' ∧
          Socks5d.connectionReqReadLoop bound key env (s.setConn key.data
            { v.conn with inBuff := inBuff, connReqParser := some p' }) =
            match scan with
            | .more => .ok (.connectionReq, s')
            | .malformed => .ok (.error, s')
            | .complete p => connectionReqDone key env p s' := by
        intro hstate
        obtain ⟨w, scan, s', hreads, htracks, heq⟩ := ih rfl hlen h₁
        exact ⟨w, scan, s', .fed v w scan p p' byte state inBuff hp hcontent hcap hfeed hstate
          hreads, htracks, heq⟩
      cases state with
      | version => exact hfed (by simp)
      | cmd => exact hfed (by simp)
      | rsv => exact hfed (by simp)
      | atyp => exact hfed (by simp)
      | domLen => exact hfed (by simp)
      | dstAddr => exact hfed (by simp)
      | dstPortByte1 => exact hfed (by simp)
      | dstPortByte2 => exact hfed (by simp)
      | error => exact ⟨_, .malformed, _, .malformed v p p' byte inBuff hp hcontent hcap hfeed, h₁, rfl⟩
      | done =>
        exact ⟨_, .complete p', _, .complete v p p' byte inBuff hp hcontent hcap hfeed, h₁, rfl⟩

/-- The bytes queued for a request that is refused with a status. -/
def connReqErrorReply (status : UInt8) (junk : Memory) : List UInt8 :=
  (createConnReqErrorResponse status junk).bytes connReqErrorResponseSize

/-- The view once a CONNECT request was accepted. -/
def View.requested (v : View) (c : ConnId) (p : ConnReqParser) (inetNtop : Option CString) :
    View :=
  { v with
    conn := { v.conn with
      dstPort := p.dstPort
      aType := p.atyp
      dstAddress := setDstAddress p.dstAddr p.dstAddrLen.toNat p.atyp inetNtop v.conn.dstAddress }
    interest := OP_NOOP
    history := v.history ++ [.request c] }

/-- The view once the name was looked up and the notification queued. -/
def View.resolved (v : View) (c : ConnId) (res : List AddrInfo) : View :=
  { v with
    conn := { v.conn with addrInfo := if res = [] then v.conn.addrInfo else res }
    tokens := v.tokens + 1
    history := v.history ++ [.lookup c v.conn.dstAddress v.conn.dstPort] }

/-- The view once the request phase was left for the connecting phase. -/
def View.awaiting (v : View) (c : ConnId) : View :=
  { v with
    conn := { v.conn with connReqParser := none }
    phase := some .connecting
    history := v.history ++ [.enter c .connecting] }

/-- The outcomes of a client read in the request phase, once the bytes are in `in_buff`. -/
inductive Requests (c : ConnId) (junk : Memory) (env : Env) (v : View) : Result → Prop
  | more (w : View) (hreads : ConnReqReads v w .more) : Requests c junk env v (.alive w)
  | malformed (w : View) (hreads : ConnReqReads v w .malformed) :
      Requests c junk env v (.gone (w.history ++ [.enter c .error, .released c]))
  | unsupported (w u : View) (p : ConnReqParser) (hreads : ConnReqReads v w (.complete p))
      (hcmd : p.cmd ≠ SOCKS5_CONN_REQ_CMD_CONNECT)
      (hqueued : Queued c (.connReq SOCKS5_REP_COMMAND_NOT_SUPPORTED)
        (connReqErrorReply SOCKS5_REP_COMMAND_NOT_SUPPORTED junk) w u) :
      Requests c junk env v (.alive { u with
        conn := { u.conn with isErrorResponse := true }, interest := OP_WRITE })
  | noThread (w : View) (p : ConnReqParser) (hreads : ConnReqReads v w (.complete p))
      (hcmd : p.cmd = SOCKS5_CONN_REQ_CMD_CONNECT)
      (hatyp : p.atyp = SOCKS5_CONN_REQ_ATYP_DOMAIN_NAME) (hthread : env.threadCreated = false) :
      Requests c junk env v
        (.gone (w.history ++ [.request c, .enter c .error, .released c]))
  | threaded (w : View) (p : ConnReqParser) (hreads : ConnReqReads v w (.complete p))
      (hcmd : p.cmd = SOCKS5_CONN_REQ_CMD_CONNECT)
      (hatyp : p.atyp = SOCKS5_CONN_REQ_ATYP_DOMAIN_NAME) (hthread : env.threadCreated = true) :
      Requests c junk env v (.alive (View.awaiting
        { w.requested c p env.inetNtop with tokens := w.tokens + 1 } c))
  | looked (w : View) (p : ConnReqParser) (hreads : ConnReqReads v w (.complete p))
      (hcmd : p.cmd = SOCKS5_CONN_REQ_CMD_CONNECT)
      (hatyp : p.atyp ≠ SOCKS5_CONN_REQ_ATYP_DOMAIN_NAME) :
      Requests c junk env v (.alive
        (((w.requested c p env.inetNtop).resolved c env.resolved).awaiting c))

/-- The resolver stores the list it got and queues the notification. -/
theorem Tracks.resolveHostName (h : Tracks mode false c s₀ v s) (res : List AddrInfo) :
    ∃ s', Socks5d.resolveHostName c res s = .ok s' ∧
      Tracks mode false c s₀ (v.resolved c res) s' := by
  have h₁ := h.note (.lookup c v.conn.dstAddress v.conn.dstPort) rfl
  by_cases hres : res = []
  · have h₂ := h₁.notifyBlock
    refine ⟨_, ?_, by simpa [View.resolved, hres] using h₂⟩
    simp [Socks5d.resolveHostName, h.conn_eq, hres]
  · have h₂ := (h₁.setConn { v.conn with addrInfo := res } rfl rfl rfl).notifyBlock
    refine ⟨_, ?_, by simpa [View.resolved, hres] using h₂⟩
    simp [Socks5d.resolveHostName, h.conn_eq, hres]

/-- The state machine hands a client read in the request phase to the loop. -/
theorem Tracks.stmHandlerRead_requests (h : Tracks mode false c s₀ v s) {key : SelectorKey}
    (hkey : key.data = c) (env : Env) (hphase : v.phase = some .connectionReq) :
    Socks5d.stmHandlerRead key env s =
      Socks5d.connectionReqReadLoop v.conn.inBuff.content.length key env s >>= fun out =>
        Socks5d.jump out.1 key out.2 >>= fun s' => pure (out.1, s') := by
  have hfirst : handleFirst key s = .ok s := by
    simp [handleFirst, hkey, h.stm_eq, hphase]
  simp only [Socks5d.stmHandlerRead, hkey, h.stmPointer_eq, ok_bind, hfirst,
    h.stmState_eq hphase, onReadReady, connectionReqRead, h.conn_eq]

/-- A client read in the request phase never faults. -/
theorem Tracks.stmHandlerRead_connectionReq (h : Tracks mode false c s₀ v s)
    {key : SelectorKey} (hkey : key = ⟨v.conn.clientFd, c⟩) (env : Env)
    (hphase : v.phase = some .connectionReq) (hparser : v.conn.connReqParser.isSome = true)
    (htokens : v.tokens = 0) :
    ∃ ret s' r, Socks5d.stmHandlerRead key env s = .ok (ret, s') ∧
      Requests c s₀.junk env v r ∧ Lands mode false c s₀ r s' := by
  have hdata : key.data = c := by rw [hkey]
  obtain ⟨w, scan, s₁, hreads, h₁, hloop⟩ :=
    h.connectionReqReadLoop _ env hdata hparser (Nat.le_refl _)
  obtain ⟨hview, -, hsome, -⟩ := hreads.fields hparser
  have hclient : w.conn.clientFd = v.conn.clientFd := by rw [hview]
  have hwphase : w.phase = some .connectionReq := by rw [hview]; exact hphase
  have hwtokens : w.tokens = 0 := by rw [hview]; exact htokens
  have hfront : Socks5d.stmHandlerRead key env s =
      (match scan with
        | .more => .ok (.connectionReq, s₁)
        | .malformed => .ok (.error, s₁)
        | .complete p => connectionReqDone key env p s₁) >>= fun out =>
          Socks5d.jump out.1 key out.2 >>= fun s' => pure (out.1, s') := by
    rw [← hloop]
    exact h.stmHandlerRead_requests hdata env hphase
  rw [hfront]
  cases scan with
  | more =>
    refine ⟨.connectionReq, s₁, _, ?_, .more w hreads, h₁⟩
    simp [h₁.jump_same hdata hwphase]
  | malformed =>
    obtain ⟨s', hs', h'⟩ := h₁.jump_error hdata hwphase (by simp) hsome (by simp) hwtokens
    refine ⟨.error, s', _, ?_, .malformed w hreads, h'⟩
    simp [hs']
  | complete p =>
    simp only
    by_cases hcmd : p.cmd = SOCKS5_CONN_REQ_CMD_CONNECT
    · have h₂ := (h₁.note (.request c) rfl).armClient OP_NOOP
      have h₃ : Tracks mode false c s₀ (w.requested c p env.inetNtop) _ :=
        h₂.setConn { w.conn with
          dstPort := p.dstPort
          aType := p.atyp
          dstAddress := setDstAddress p.dstAddr p.dstAddrLen.toNat p.atyp env.inetNtop
            w.conn.dstAddress } rfl rfl rfl
      have hfd : key.fd = w.conn.clientFd := by rw [hkey, hclient]
      have hconn : ((s₁.note (.request c)).setInterest w.conn.clientFd OP_NOOP).conn c =
          .ok w.conn := h₂.conn_eq
      unfold connectionReqDone
      rw [if_neg (by simpa using hcmd)]
      simp only [hfd, hdata, hconn, ok_bind]
      by_cases hatyp : p.atyp = SOCKS5_CONN_REQ_ATYP_DOMAIN_NAME
      · cases hthread : env.threadCreated with
        | true =>
          have h₄ := h₃.startThread
          obtain ⟨s', hs', h'⟩ := h₄.jump_connecting hdata hwphase hsome
          refine ⟨.connecting, s', _, ?_, .threaded w p hreads hcmd hatyp hthread, h'⟩
          simp only [if_pos hatyp, if_true, pure_eq_ok, ok_bind, hs']
        | false =>
          obtain ⟨s', hs', h'⟩ := h₃.jump_error hdata hwphase (by simp) hsome (by simp) hwtokens
          refine ⟨.error, s', _, ?_, .noThread w p hreads hcmd hatyp hthread, ?_⟩
          · simp only [if_pos hatyp, Bool.false_eq_true, if_false, pure_eq_ok, ok_bind, hs']
          · simpa [Lands, View.requested, List.append_assoc] using h'
      · obtain ⟨s₄, hs₄, h₄⟩ := h₃.resolveHostName env.resolved
        obtain ⟨s', hs', h'⟩ := h₄.jump_connecting hdata hwphase hsome
        refine ⟨.connecting, s', _, ?_, .looked w p hreads hcmd hatyp, h'⟩
        simp only [if_neg hatyp, hs₄, pure_eq_ok, ok_bind, hs']
    · obtain ⟨s₂, u, hs₂, hqueued, h₂⟩ := h₁.queueReply
        (.connReq SOCKS5_REP_COMMAND_NOT_SUPPORTED)
        (connReqErrorReply SOCKS5_REP_COMMAND_NOT_SUPPORTED s₀.junk)
      obtain ⟨-, -, huphase, -, -, -⟩ := hqueued.fields
      have h₃ := (h₂.setConn { u.conn with isErrorResponse := true } rfl rfl rfl).armClient OP_WRITE
      refine ⟨.connectionReq, _, _, ?_, .unsupported w u p hreads hcmd hqueued, h₃⟩
      have hjump := h₃.jump_same hdata (huphase.trans hwphase : _ = some .connectionReq)
      rw [connReqErrorReply, ← h₁.frame.junk] at hs₂
      unfold connectionReqDone
      rw [if_pos hcmd]
      simp only [hdata, hs₂, ok_bind, h₂.conn_eq, pure_eq_ok, hjump]

end Socks5d
