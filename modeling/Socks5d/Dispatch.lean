import Socks5d.Admission
import Socks5d.Retry

/-!
# One event of the server

Every event either belongs to no connection, or is one callback of one connection, whose outcome
is given by the relation of that callback. The dispatch lemma says so for every state that meets
the invariant, together with the frame the callback keeps and the faults it may stop with.
-/

namespace Socks5d

open Fallible

/-- The invariant of the server. -/
structure Inv (s : Server) : Prop where
  owned : Owned none s
  bufferSize : BUFF_MIN_LEN ≤ s.bufferSize
  ok : ∀ c v, s.view c = some v → v.Ok c
  copies : ∀ fd c i v, (s.selector.fds fd).relayOf c = some (.copySelectorHandler, i) →
    s.view c = some v → v.phase = some .copy ∧ v.conn.originFd = fd

/-- An item is the registration of a client. -/
def Item.isClientOf (item : Item) (c : ConnId) : Prop :=
  item.handler = some .socks5Handler ∧ item.data = some c

/-- The outcomes of an event for the connection it is delivered to. -/
inductive Reaction (s : Server) (c : ConnId) (v : View) : Event → Result → Prop
  | greets (fd : ℕ) (env : Env) (r : Result) (hitem : (s.selector.fds fd).isClientOf c)
      (hready : v.interest.read = true) (hphase : v.phase = none ∨ v.phase = some .handshake)
      (hread : ClientRead c v env (fun w => Greets c env.junk env w) r) :
      Reaction s c v (.readable fd env) r
  | authenticates (fd : ℕ) (env : Env) (r : Result) (hitem : (s.selector.fds fd).isClientOf c)
      (hready : v.interest.read = true) (hphase : v.phase = some .auth)
      (hread : ClientRead c v env (fun w => Authenticates c s.users env.junk env w) r) :
      Reaction s c v (.readable fd env) r
  | requests (fd : ℕ) (env : Env) (r : Result) (hitem : (s.selector.fds fd).isClientOf c)
      (hready : v.interest.read = true) (hphase : v.phase = some .connectionReq)
      (hread : ClientRead c v env (fun w => Requests c env.junk env w) r) :
      Reaction s c v (.readable fd env) r
  | relays (fd : ℕ) (env : Env) (r : Result) (hitem : (s.selector.fds fd).isClientOf c)
      (hready : v.interest.read = true) (hphase : v.phase = some .copy)
      (hread : ClientRead c v env (fun w => CopyRead c s w env.send) r) :
      Reaction s c v (.readable fd env) r
  | sends (fds : ℕ → Item) (fd : ℕ) (env : Env) (r : Result) (hitem : (s.selector.fds fd).isClientOf c)
      (hready : v.interest.write = true) (hwrote : Wrote c env.junk fds v env.send r) :
      Reaction s c v (.writable fd env) r
  | blocks (env : Env) (r : Result) (hphase : v.phase = some .connecting) (hwaiting : v.Waiting)
      (hblocks : Blocks c env.junk env s.selector.fds s.kernel.lowest (v.notified c) r) :
      Reaction s c v (.notify env) r
  | resolves (env : Env) (hphase : v.phase = some .connecting) (hwaiting : v.Waiting) :
      Reaction s c v (.resolved c env)
        (.alive (View.resolved { v with tokens := 0 } c env.resolved))
  | connects (fd : ℕ) (env : Env) (r : Result) (i : FdInterest)
      (hitem : (s.selector.fds fd).relayOf c = some (.connectingHandler, i))
      (hset : v.conn.originFd ≠ 0)
      (hphase : v.phase = some .connecting ∨ v.phase = some .copy ∧ v.conn.addrInfo = [])
      (hconnects : Connects c env.junk env s.selector.fds
        (s.kernel.close v.conn.originFd).lowest v r) :
      Reaction s c v (.writable fd env) r
  | receives (fd : ℕ) (env : Env) (r : Result) (i : FdInterest)
      (horigin : v.conn.originFd = fd) (hrelay : v.relay = some (.copySelectorHandler, i))
      (hready : i.read = true) (hphase : v.phase = some .copy) (hreceived : CopyReceived c env.junk v env r) :
      Reaction s c v (.readable fd env) r
  | delivers (fd : ℕ) (env : Env) (r : Result) (i : FdInterest)
      (horigin : v.conn.originFd = fd) (hrelay : v.relay = some (.copySelectorHandler, i))
      (hready : i.write = true) (hphase : v.phase = some .copy) (hwrote : CopyWrote c v env.send r) :
      Reaction s c v (.writable fd env) r

/-- The events after which a callback goes on using what it has released. -/
inductive TeardownHazard (s : Server) : Event → Prop
  /-- The reply to a greeting is accepted while bytes follow it or when it refuses, or fails. -/
  | greeting (fd : ℕ) (env : Env) (c : ConnId) (k : Socks5Conn) (first : UInt8)
      (rest : List UInt8) (p : HandshakeParser) (hitem : (s.selector.fds fd).isClientOf c)
      (hconn : s.conns c = some k)
      (hphase : s.stms c = some ⟨none⟩ ∧ p = handshakeParserInit ∨
        s.stms c = some ⟨some .handshake⟩ ∧ k.handshakeParser = some p)
      (hrecv : env.recv = .data first rest)
      (hhazard : greetingHazard p (k.inBuff.content ++ (first :: rest).take k.inBuff.space)
        env.sends = true) : TeardownHazard s (.readable fd env)
  /-- The reply to bad credentials is accepted, or the reply to any credentials fails. -/
  | subnegotiation (fd : ℕ) (env : Env) (c : ConnId) (k : Socks5Conn) (first : UInt8)
      (rest : List UInt8) (p : AuthParser) (hitem : (s.selector.fds fd).isClientOf c)
      (hconn : s.conns c = some k) (hphase : s.stms c = some ⟨some .auth⟩)
      (hparser : k.authParser = some p) (hrecv : env.recv = .data first rest)
      (hhazard : subnegotiationHazard s.users env.send p
        (k.inBuff.content ++ (first :: rest).take k.inBuff.space) = true) :
      TeardownHazard s (.readable fd env)
  /-- Client bytes cannot be sent on to a registered origin. -/
  | relay (fd : ℕ) (env : Env) (c : ConnId) (k : Socks5Conn) (first : UInt8)
      (rest : List UInt8) (hitem : (s.selector.fds fd).isClientOf c)
      (hconn : s.conns c = some k) (hphase : s.stms c = some ⟨some .copy⟩)
      (hrecv : env.recv = .data first rest) (horigin : OriginRegistered s k)
      (hsend : FatalSend env.send) : TeardownHazard s (.readable fd env)
  /-- The resolution ends in one of the answers that release the connection. -/
  | block (env : Env) (fd : ℕ) (jobs : List ℕ) (c : ConnId) (k : Socks5Conn)
      (hjobs : s.selector.resolutionJobs = fd :: jobs) (hitem : (s.selector.fds fd).isClientOf c)
      (hconn : s.conns c = some k) (hhazard : BlockHazard s k.addrInfo env) :
      TeardownHazard s (.notify env)
  /-- A pending connect's event reaches a connection that relays already. -/
  | late (fd : ℕ) (env : Env) (c : ConnId) (k : Socks5Conn) (i : FdInterest)
      (hitem : (s.selector.fds fd).relayOf c = some (.connectingHandler, i))
      (hconn : s.conns c = some k) (hphase : s.stms c = some ⟨some .copy⟩)
      (hstands : k.originFd = -1 ∨ env.soError = none) : TeardownHazard s (.writable fd env)
  /-- The registration outlived its connection. -/
  | orphan (fd : ℕ) (env : Env) (c : ConnId) (r : FdHandler × FdInterest) (e : Event)
      (he : e = .readable fd env ∨ e = .writable fd env)
      (hitem : (s.selector.fds fd).relayOf c = some r) (hconn : s.conns c = none) :
      TeardownHazard s e

/-- The event writes no descriptor through an unset `origin_fd`. -/
def KeepsZero (s : Server) : Event → Prop
  | .readable fd env => ∀ c k, (s.selector.fds fd).isClientOf c → s.conns c = some k →
      s.stms c = some ⟨some .copy⟩ → 0 < k.inBuff.space → (∃ b bs, env.recv = .data b bs) →
      k.originFd ≠ 0
  | .writable fd env => ∀ c k, (s.selector.fds fd).isClientOf c → s.conns c = some k →
      k.outBuff.content ≠ [] → (∃ n, env.send = .accepted n) → k.inBuff.content ≠ [] →
      k.originFd ≠ 0
  | _ => True

/-- A retry gets the descriptor of the failed attempt again. -/
def RetryKeeps (s : Server) : Event → Prop
  | .writable fd env => ∀ c k i, (s.selector.fds fd).relayOf c = some (.connectingHandler, i) →
      s.conns c = some k → k.originFd ≠ -1 → env.soError ≠ none → k.addrInfo ≠ [] →
      (dial k.addrInfo env.connects).originFd (s.kernel.close k.originFd).lowest = k.originFd
  | _ => True

/-- The state in which the body of a callback of connection `c` starts. -/
structure Entered (c : ConnId) (s s₀ : Server) : Prop where
  owned : Owned none s₀
  fds : s₀.selector.fds = s.selector.fds
  kernel : s₀.kernel = s.kernel
  conns : s₀.conns = s.conns
  trace : s₀.trace = s.trace
  views : ∀ d, d ≠ c → s₀.view d = s.view d
  bufferSize : s₀.bufferSize = s.bufferSize

/-- The connection an event is delivered to. -/
def Event.target (s : Server) : Event → Option ConnId
  | .readable fd _ | .writable fd _ => (s.selector.fds fd).data
  | .notify _ =>
    match s.selector.resolutionJobs with
    | [] => none
    | fd :: _ => (s.selector.fds fd).data
  | .resolved c _ => some c
  | .adminInterest _ _ | .adminClose _ | .configure _ _ _ => none

/-- The notifications that are queued once an event has taken the one it delivers. -/
def Event.jobs (s : Server) : Event → List ℕ
  | .notify _ => s.selector.resolutionJobs.tail
  | _ => s.selector.resolutionJobs

/-- What an event comes to: a background change, or a reaction of one connection. -/
inductive Effect (mode : Mode) (s : Server) (e : Event) (s' : Server) : Prop
  | background (h : Background s s') (htarget : e.target s = none)
  | reaction (c : ConnId) (v : View) (r : Result) (s₀ : Server) (hview : s.view c = some v)
      (htarget : e.target s = some c) (hreaction : Reaction s c v e r) (hentered : Entered c s s₀)
      (hlands : Lands mode false c s₀ r s') (hjobs : s₀.selector.resolutionJobs = e.jobs s) :
      Effect mode s e s'

variable {mode : Mode} {s s' : Server} {c : ConnId} {v : View}

/-- The key that the selector passes for a descriptor and its record. -/
theorem key_data (fd : ℕ) (c : ConnId) : (⟨fd, c⟩ : SelectorKey).data = c := rfl

/-- Entering a callback changes nothing the invariant speaks about. -/
theorem Owned.enter (ho : Owned none s) (env : Env) : Owned none (s.enter env) := by
  have hskeleton : SameSkeleton s (s.enter env) :=
    { items := fun fd => ⟨(s.selector.fds fd).interest, rfl⟩, owner := rfl, ids := fun _ => rfl
      stms := fun _ => rfl, nextConn := rfl, resolving := rfl, jobs := rfl, fdSize := rfl
      trace := fun _ ho => .inl ho }
  exact ho.of_skeleton hskeleton

theorem Inv.entered (h : Inv s) (c : ConnId) (env : Env) : Entered c s (s.enter env) where
  owned := h.owned.enter env
  fds := rfl
  kernel := rfl
  conns := rfl
  trace := rfl
  views _ _ := rfl
  bufferSize := rfl

theorem Background.of_enter {env : Env} (h : Background (s.enter env) s') : Background s s' :=
  ⟨h.owned, h.bufferSize, h.fates, h.registrations, h.kept, h.jobs⟩

/-- The callbacks of a connection start by tracking its view. -/
theorem Inv.start (h : Inv s) (hview : s.view c = some v) (env : Env)
    (htidy : mode.tidy = true → ∀ d, Tidy d s) :
    Tracks mode false c (s.enter env) v (s.enter env) :=
  Tracks.start mode (h.owned.enter env) hview (fun ht => htidy ht c)
    fun fd i hi => h.copies fd c i v hi hview

/-- A connection with a token waits for it. -/
theorem View.Ok.waiting_of_tokens (h : v.Ok c) (hpos : 0 < v.tokens) :
    v.phase = some .connecting ∧ v.Waiting := by
  have hphaseOk := h.phase
  unfold View.PhaseOk at hphaseOk
  cases hphase : v.phase with
  | none =>
    rw [hphase] at hphaseOk
    exact absurd hphaseOk.1.tokens (by omega)
  | some state =>
    rw [hphase] at hphaseOk
    cases state with
    | handshake => exact absurd hphaseOk.1.tokens (by omega)
    | auth =>
      have hauth : v.Authenticating c := hphaseOk
      exact absurd hauth.early.tokens (by omega)
    | connectionReq =>
      have hreq : v.Requesting := hphaseOk
      exact absurd hreq.tokens (by omega)
    | connecting =>
      rcases hphaseOk with hw | hp | hr
      · exact ⟨rfl, hw⟩
      · exact absurd hp.tokens (by omega)
      · exact absurd hr.tokens (by omega)
    | copy => exact absurd hphaseOk.1 (by omega)
    | done => exact hphaseOk.elim
    | error => exact hphaseOk.elim

/-- What is registered for a client's descriptor. -/
theorem Inv.clientItem (h : Inv s) {fd : ℕ} (howner : s.kernel.owner fd = some (.client c)) :
    ∃ i, s.selector.fds fd = ⟨fd, i, some .socks5Handler, some c⟩ := by
  obtain ⟨hused, -⟩ := h.owned.client fd c howner
  obtain ⟨-, hreg⟩ := h.owned.registered fd hused
  generalize s.selector.fds fd = item at hreg
  cases hreg with
  | listener handler i hown _ => rw [howner] at hown; cases hown
  | client d i hown =>
    rw [howner] at hown
    obtain rfl : c = d := by simpa using hown
    exact ⟨i, rfl⟩
  | relay d handler i _ hown _ _ =>
    obtain ⟨_, _, ho⟩ := hown _ howner
    cases ho
  | admin i hown => rw [howner] at hown; cases hown

/-- The connection a client's descriptor is registered for. -/
theorem Inv.client (h : Inv s) {fd : ℕ} {i : FdInterest}
    (hitem : s.selector.fds fd = ⟨fd, i, some .socks5Handler, some c⟩)
    (howner : s.kernel.owner fd = some (.client c)) :
    ∃ v, s.view c = some v ∧ v.conn.clientFd = fd ∧ v.interest = i := by
  obtain ⟨-, k, hk, hfd⟩ := h.owned.client fd c howner
  obtain ⟨v, hv⟩ := Option.isSome_iff_exists.mp
    (by rw [h.owned.view_isSome, hk]; rfl : (s.view c).isSome = true)
  obtain ⟨hconn, -, hinterest, -⟩ := view_eq_some_iff.mp hv
  have hkv : v.conn = k := Option.some.inj (hconn.symm.trans hk)
  refine ⟨v, hv, by rw [hkv, hfd], ?_⟩
  rw [← hinterest, hkv, hfd, Int.toNat_natCast, hitem]

/-- The faults a callback of an event may stop with. -/
def Tolerated (s : Server) (e : Event) (f : Fault) : Prop := f.isMemory → TeardownHazard s e

/-- The readiness of a descriptor whose handler has no callback for it. -/
def Event.Unhandled (s : Server) : Event → Prop
  | .readable fd _ => (s.selector.fds fd).handler = some .connectingHandler
  | .writable fd _ => (s.selector.fds fd).handler = some .socksv5 ∨
      (s.selector.fds fd).handler = some .confProtocol
  | _ => False

/-- Why an event may stop the program. -/
def Explained (s : Server) (e : Event) (f : Fault) : Prop :=
  f.isMemory ∧ TeardownHazard s e ∨ f = .assertion ∧ e.Unhandled s

/-- A missing callback is no access to a released object. -/
theorem Explained.tolerated {e : Event} {f : Fault} (h : Explained s e f) : Tolerated s e f := by
  intro hmemory
  rcases h with ⟨-, h⟩ | ⟨rfl, -⟩
  · exact h
  · exact hmemory.elim

/-- The received bytes extend what the parser has yet to see. -/
theorem content_received {buff : Buffer} {bytes rest : List UInt8} {first : UInt8}
    (hbuff : buff.content = v.conn.inBuff.content ++ bytes)
    (hbytes : bytes = (first :: rest).take v.conn.inBuff.space) :
    (v.received c buff bytes).conn.inBuff.content =
      v.conn.inBuff.content ++ (first :: rest).take v.conn.inBuff.space := by
  subst hbytes
  exact hbuff

/-- The client of a connection is registered at a descriptor that waits to be read. -/
structure ReadsFrom (s : Server) (c : ConnId) (v : View) (fd : ℕ) : Prop where
  view : s.view c = some v
  item : (s.selector.fds fd).isClientOf c
  client : v.conn.clientFd = fd
  ready : v.interest.read = true

section Readable

variable {fd : ℕ}

theorem ReadsFrom.key (hreads : ReadsFrom s c v fd) :
    (⟨fd, c⟩ : SelectorKey) = ⟨v.conn.clientFd, c⟩ := by
  rw [hreads.client]

/-- The event is delivered to the connection. -/
theorem ReadsFrom.target (hreads : ReadsFrom s c v fd) (env : Env) :
    (Event.readable fd env).target s = some c := by
  obtain ⟨-, hdata⟩ := hreads.item
  simp [Event.target, hdata]

variable (h : Inv s) (hreads : ReadsFrom s c v fd) (env : Env)
  (htidy : mode.tidy = true → ∀ d, Tidy d s)

include h hreads htidy

/-- Bytes of a greeting arrive. -/
theorem Inv.greetingReadable
    (hphase : v.phase = none ∨ v.phase = some .handshake ∧ v.conn.handshakeParser.isSome = true)
    (htokens : v.tokens = 0) :
    Holds (Explained s (.readable fd env)) (socksv5Read ⟨fd, c⟩ env (s.enter env))
      (Effect mode s (.readable fd env)) := by
  obtain ⟨hconn, hstm, -⟩ := view_eq_some_iff.mp hreads.view
  have hcapacity : HANDSHAKE_RESPONSE_SIZE ≤ v.conn.outBuff.capacity :=
    (by decide : HANDSHAKE_RESPONSE_SIZE ≤ BUFF_MIN_LEN).trans (h.ok c v hreads.view).outCapacity
  refine ((h.start hreads.view env htidy).socksv5Read hreads.key env htokens
    (fun w => Greets c env.junk env w) ?_).mono ?_
  · rintro buff bytes s₁ - ⟨first, rest, hrecv, hbytes⟩ hbuff h₁ -
    refine (h₁.stmHandlerRead_handshake hreads.key env hphase htokens hcapacity).tolerate ?_
    rintro f ⟨hmemory, hf⟩
    rw [content_received hbuff hbytes] at hf
    refine .inl ⟨hmemory, .greeting fd env c v.conn first rest _ hreads.item hconn ?_ hrecv hf⟩
    rcases hphase with hphase | ⟨hphase, hsome⟩
    · exact .inl ⟨by rw [hstm, hphase], by simp [View.greetingParser, View.received, hphase]⟩
    · obtain ⟨p, hp⟩ := Option.isSome_iff_exists.mp hsome
      exact .inr ⟨by rw [hstm, hphase], by simp [View.greetingParser, View.received, hphase, hp]⟩
  · rintro s₁ ⟨r, hr, hlands⟩
    exact .reaction c v r _ hreads.view (hreads.target env)
      (.greets fd env r hreads.item hreads.ready (hphase.imp_right And.left) hr) (h.entered c env)
      hlands rfl

/-- Bytes of credentials arrive. -/
theorem Inv.credentialsReadable (hphase : v.phase = some .auth) (hauth : v.Authenticating c) :
    Holds (Explained s (.readable fd env)) (socksv5Read ⟨fd, c⟩ env (s.enter env))
      (Effect mode s (.readable fd env)) := by
  obtain ⟨hconn, hstm, -⟩ := view_eq_some_iff.mp hreads.view
  have hcapacity : AUTH_RESPONSE_SIZE ≤ v.conn.outBuff.capacity :=
    (by decide : AUTH_RESPONSE_SIZE ≤ BUFF_MIN_LEN).trans (h.ok c v hreads.view).outCapacity
  obtain ⟨hearly, -, p, hp, -⟩ := hauth
  refine ((h.start hreads.view env htidy).socksv5Read hreads.key env hearly.tokens
    (fun w => Authenticates c s.users env.junk env w) ?_).mono ?_
  · rintro buff bytes s₁ - ⟨first, rest, hrecv, hbytes⟩ hbuff h₁ -
    refine (h₁.stmHandlerRead_auth hreads.key env hphase hp hearly.tokens hcapacity).tolerate ?_
    rintro f ⟨hmemory, hf⟩
    rw [content_received hbuff hbytes] at hf
    exact .inl ⟨hmemory, .subnegotiation fd env c v.conn first rest p hreads.item hconn
      (by rw [hstm, hphase]) hp hrecv hf⟩
  · rintro s₁ ⟨r, hr, hlands⟩
    exact .reaction c v r _ hreads.view (hreads.target env)
      (.authenticates fd env r hreads.item hreads.ready hphase hr) (h.entered c env) hlands rfl

/-- Bytes of a request arrive. -/
theorem Inv.requestReadable (hphase : v.phase = some .connectionReq) (hreq : v.Requesting) :
    Holds (Explained s (.readable fd env)) (socksv5Read ⟨fd, c⟩ env (s.enter env))
      (Effect mode s (.readable fd env)) := by
  refine ((h.start hreads.view env htidy).socksv5Read hreads.key env hreq.tokens
    (fun w => Requests c env.junk env w) ?_).mono ?_
  · rintro buff bytes s₁ - - - h₁ -
    obtain ⟨ret, s₂, r, hs₂, hr, hlands⟩ :=
      h₁.stmHandlerRead_connectionReq hreads.key env hphase hreq.parser hreq.tokens
    rw [hs₂, holds_ok]
    exact ⟨r, hr, hlands⟩
  · rintro s₁ ⟨r, hr, hlands⟩
    exact .reaction c v r _ hreads.view (hreads.target env)
      (.requests fd env r hreads.item hreads.ready hphase hr) (h.entered c env) hlands rfl

/-- Bytes to relay arrive. -/
theorem Inv.relayedReadable (hphase : v.phase = some .copy) (htokens : v.tokens = 0)
    (hz : mode.zero = true ∨ KeepsZero s (.readable fd env)) :
    Holds (Explained s (.readable fd env)) (socksv5Read ⟨fd, c⟩ env (s.enter env))
      (Effect mode s (.readable fd env)) := by
  obtain ⟨hconn, hstm, -⟩ := view_eq_some_iff.mp hreads.view
  refine ((h.start hreads.view env htidy).socksv5Read hreads.key env htokens
    (fun w => CopyRead c s w env.send) ?_).mono ?_
  · rintro buff bytes s₁ hspace ⟨first, rest, hrecv, hbytes⟩ hbuff h₁ hsel
    have hleft : (v.received c buff bytes).conn.inBuff.content ≠ [] := by
      rw [content_received hbuff hbytes]
      intro hnil
      have htake := (List.append_eq_nil_iff.mp hnil).2
      cases hsp : v.conn.inBuff.space with
      | zero => omega
      | succ n => rw [hsp] at htake; cases htake
    have horigin : OriginRegistered s₁ (v.received c buff bytes).conn ↔
        OriginRegistered s (v.received c buff bytes).conn := by
      simp only [OriginRegistered, hsel]
      exact Iff.rfl
    have hkey : (⟨fd, c⟩ : SelectorKey).data = c := rfl
    refine ((h₁.stmHandlerRead_copy hkey env hphase htokens hleft ?_).tolerate ?_).mono ?_
    · rcases hz with hz | hz
      · exact .inl hz
      · exact .inr (hz c v.conn hreads.item hconn (by rw [hstm, hphase]) hspace
          ⟨first, rest, hrecv⟩)
    · rintro f ⟨hmemory, hregistered, hfatal⟩
      exact .inl ⟨hmemory, .relay fd env c v.conn first rest hreads.item hconn
        (by rw [hstm, hphase]) hrecv (horigin.mp hregistered) hfatal⟩
    · rintro out ⟨r, hr, hlands⟩
      refine ⟨r, ?_, hlands⟩
      cases hr with
      | unregistered hunreg => exact .unregistered fun ho => hunreg (horigin.mpr ho)
      | relayed r hreg hout hwrote => exact .relayed r (horigin.mp hreg) hout hwrote
  · rintro s₁ ⟨r, hr, hlands⟩
    exact .reaction c v r _ hreads.view (hreads.target env)
      (.relays fd env r hreads.item hreads.ready hphase hr) (h.entered c env) hlands rfl

end Readable

/-- A client's descriptor is readable. -/
theorem Inv.clientReadable (h : Inv s) {fd : ℕ} {i : FdInterest} (env : Env)
    (hitem : s.selector.fds fd = ⟨fd, i, some .socks5Handler, some c⟩)
    (howner : s.kernel.owner fd = some (.client c)) (hread : i.read = true)
    (hz : mode.zero = true ∨ KeepsZero s (.readable fd env))
    (htidy : mode.tidy = true → ∀ d, Tidy d s) :
    Holds (Explained s (.readable fd env)) (socksv5Read ⟨fd, c⟩ env (s.enter env))
      (Effect mode s (.readable fd env)) := by
  obtain ⟨v, hview, hclient, hinterest⟩ := h.client hitem howner
  have hreads : ReadsFrom s c v fd :=
    ⟨hview, by rw [hitem]; exact ⟨rfl, rfl⟩, hclient, by rw [hinterest]; exact hread⟩
  have hphaseOk := (h.ok c v hview).phase
  unfold View.PhaseOk at hphaseOk
  cases hphase : v.phase with
  | none =>
    rw [hphase] at hphaseOk
    exact h.greetingReadable hreads env htidy (.inl hphase) hphaseOk.1.tokens
  | some state =>
    rw [hphase] at hphaseOk
    cases state with
    | handshake =>
      obtain ⟨hearly, -, hsome⟩ := hphaseOk
      exact h.greetingReadable hreads env htidy (.inr ⟨hphase, hsome⟩) hearly.tokens
    | auth => exact h.credentialsReadable hreads env htidy hphase hphaseOk
    | connectionReq => exact h.requestReadable hreads env htidy hphase hphaseOk
    | connecting =>
      -- a connection that connects does not wait to be read
      exfalso
      have hready := hreads.ready
      rcases hphaseOk with hw | hp | hr
      · rw [hw.interest] at hready
        cases hready
      · rw [hp.interest] at hready
        cases hready
      · rw [hr.interest] at hready
        cases hready
    | copy =>
      obtain ⟨htokens, -⟩ := hphaseOk
      exact h.relayedReadable hreads env htidy hphase htokens hz
    | done => exact hphaseOk.elim
    | error => exact hphaseOk.elim

/-- A client's descriptor is writable. -/
theorem Inv.clientWritable (h : Inv s) {fd : ℕ} {i : FdInterest} (env : Env)
    (hitem : s.selector.fds fd = ⟨fd, i, some .socks5Handler, some c⟩)
    (howner : s.kernel.owner fd = some (.client c)) (hwrite : i.write = true)
    (hz : mode.zero = true ∨ KeepsZero s (.writable fd env))
    (htidy : mode.tidy = true → ∀ d, Tidy d s) :
    Holds (Explained s (.writable fd env)) (socksv5Write ⟨fd, c⟩ env.send (s.enter env))
      (Effect mode s (.writable fd env)) := by
  obtain ⟨v, hview, -, hinterest⟩ := h.client hitem howner
  obtain ⟨hconn, hstm, -⟩ := view_eq_some_iff.mp hview
  have hok := h.ok c v hview
  have hisClient : (s.selector.fds fd).isClientOf c := by rw [hitem]; exact ⟨rfl, rfl⟩
  have htarget : (Event.writable fd env).target s = some c := by simp [Event.target, hitem]
  rw [← hinterest] at hwrite
  have hready : ∃ state, v.phase = some state ∧ (state = .copy ∨ hasWriteHandler state = true) ∧
      v.Equipped state ∧ v.tokens = 0 := by
    have hphaseOk := hok.phase
    unfold View.PhaseOk at hphaseOk
    cases hphase : v.phase with
    | none =>
      rw [hphase] at hphaseOk
      rw [hphaseOk.2.2.1] at hwrite
      cases hwrite
    | some state =>
      rw [hphase] at hphaseOk
      refine ⟨state, rfl, ?_⟩
      cases state with
      | handshake => exact ⟨.inr rfl, hphaseOk.2.2, hphaseOk.1.tokens⟩
      | auth =>
        obtain ⟨hearly, -, p, hp, -⟩ := hphaseOk
        exact ⟨.inr rfl, by simp [View.Equipped, hp], hearly.tokens⟩
      | connectionReq =>
        have hreq : v.Requesting := hphaseOk
        exact ⟨.inr rfl, hreq.parser, hreq.tokens⟩
      | connecting =>
        refine ⟨.inr rfl, trivial, ?_⟩
        rcases hphaseOk with hw | hp | hr
        · rw [hw.interest] at hwrite
          cases hwrite
        · exact hp.tokens
        · exact hr.tokens
      | copy => exact ⟨.inl rfl, trivial, hphaseOk.1⟩
      | done => exact hphaseOk.elim
      | error => exact hphaseOk.elim
  obtain ⟨state, hphase, hstate, hequipped, htokens⟩ := hready
  obtain ⟨s', r, hs', hwrote, hlands⟩ := (h.start hview env htidy).socksv5Write
    (key_data fd c) env.send hphase hstate hequipped htokens (by
      intro hleft haccepted
      rcases hz with hz | hz
      · exact .inl hz
      · by_cases hin : v.conn.inBuff.content = []
        · exact .inr (.inr hin)
        · exact .inr (.inl (hz c v.conn hisClient hconn hleft haccepted hin)))
  rw [hs', holds_ok]
  exact .reaction c v r _ hview htarget (.sends _ fd env r hisClient hwrite hwrote) (h.entered c env) hlands rfl

/-- The registration of an origin belongs to a connection, perhaps to one that is gone. -/
theorem Inv.relay (h : Inv s) {fd : ℕ} {handler : FdHandler} {i : FdInterest}
    (hrelay : handler.isRelay = true)
    (hitem : s.selector.fds fd = ⟨fd, i, some handler, some c⟩)
    (horigin : ∀ k, s.conns c = some k → k.originFd ≠ 0) :
    (s.selector.fds fd).relayOf c = some (handler, i) ∧
      (s.conns c = none ∨ ∃ v, s.view c = some v ∧ v.conn.originFd ≠ 0 ∧ v.tokens = 0 ∧
        (v.phase = some .connecting ∨ v.phase = some .copy ∧ v.conn.addrInfo = [])) := by
  have hneg : ((fd : ℤ) != -1) = true := by simp
  refine ⟨by simp [hitem, Item.relayOf, Item.used, FD_UNUSED, hneg, hrelay], ?_⟩
  cases hk : s.conns c with
  | none => exact .inl rfl
  | some k =>
    obtain ⟨v, hv⟩ := Option.isSome_iff_exists.mp
      (by rw [h.owned.view_isSome, hk]; rfl : (s.view c).isSome = true)
    obtain ⟨hconn, -⟩ := view_eq_some_iff.mp hv
    have hne := horigin v.conn hconn
    refine .inr ⟨v, hv, hne, ?_⟩
    have hphaseOk := (h.ok c v hv).phase
    unfold View.PhaseOk at hphaseOk
    cases hphase : v.phase with
    | none =>
      rw [hphase] at hphaseOk
      exact absurd hphaseOk.1.originFd hne
    | some state =>
      rw [hphase] at hphaseOk
      cases state with
      | handshake => exact absurd hphaseOk.1.originFd hne
      | auth =>
        have hauth : v.Authenticating c := hphaseOk
        exact absurd hauth.early.originFd hne
      | connectionReq =>
        have hreq : v.Requesting := hphaseOk
        exact absurd hreq.originFd hne
      | connecting =>
        refine ⟨?_, .inl rfl⟩
        rcases hphaseOk with hw | hp | hr
        · exact absurd hw.originFd hne
        · exact hp.tokens
        · exact hr.tokens
      | copy => exact ⟨hphaseOk.1, .inr ⟨rfl, hphaseOk.2⟩⟩
      | done => exact hphaseOk.elim
      | error => exact hphaseOk.elim

/-- A callback for a connection that is gone faults at once. -/
theorem conn_of_gone (hgone : s.conns c = none) (env : Env) :
    (s.enter env).conn c = .error .useAfterFree := by
  have hgone' : (s.enter env).conns c = none := hgone
  simp [Server.conn, hgone']

/-- A registration at `origin_fd` is the one the view shows. -/
theorem relay_of_relayOf {fd : ℕ} {r : FdHandler × FdInterest} (hview : s.view c = some v)
    (hfd : v.conn.originFd = fd) (hne : v.conn.originFd ≠ 0)
    (hitem : (s.selector.fds fd).relayOf c = some r) : v.relay = some r := by
  obtain ⟨-, -, -, hrelay, -⟩ := view_eq_some_iff.mp hview
  rw [← hrelay, Server.relay, if_pos (by omega), hfd, Int.toNat_natCast, hitem]

/-- An origin's descriptor is readable. -/
theorem Inv.relayReadable (h : Inv s) {fd : ℕ} {handler : FdHandler} {i : FdInterest} (env : Env)
    (hrelay : handler.isRelay = true) (hready : i.read = true)
    (hitem : s.selector.fds fd = ⟨fd, i, some handler, some c⟩)
    (horigin : ∀ k, s.conns c = some k → k.originFd ≠ 0)
    (htidy : mode.tidy = true → ∀ d, Tidy d s) :
    Holds (Explained s (.readable fd env)) (handleRead (s.selector.fds fd) env (s.enter env))
      (Effect mode s (.readable fd env)) := by
  obtain ⟨hrelayOf, hlive⟩ := h.relay hrelay hitem horigin
  have htarget : (Event.readable fd env).target s = some c := by simp [Event.target, hitem]
  rw [hitem]
  cases handler with
  | connectingHandler => exact .inr ⟨rfl, by simp [Event.Unhandled, hitem]⟩
  | copySelectorHandler =>
    simp only [handleRead]
    rcases hlive with hgone | ⟨v, hview, hne, htokens, -⟩
    · simp only [copyReadHandler, conn_of_gone hgone env, error_bind, holds_error]
      exact .inl ⟨trivial, .orphan fd env c _ _ (.inl rfl) hrelayOf hgone⟩
    · obtain ⟨hphase, hfd⟩ := h.copies fd c i v hrelayOf hview
      obtain ⟨s', r, hs', hreceived, hlands⟩ := (h.start hview env htidy).copyReadHandler
        (key_data fd c) env hphase htokens hne
      rw [hs', holds_ok]
      exact .reaction c v r _ hview htarget (.receives fd env r i hfd
        (relay_of_relayOf hview hfd hne hrelayOf) hready hphase hreceived) (h.entered c env) hlands rfl
  | _ => cases hrelay

/-- An origin's descriptor is writable. -/
theorem Inv.relayWritable (h : Inv s) {fd : ℕ} {handler : FdHandler} {i : FdInterest} (env : Env)
    (hrelay : handler.isRelay = true) (hready : i.write = true)
    (hitem : s.selector.fds fd = ⟨fd, i, some handler, some c⟩)
    (horigin : ∀ k, s.conns c = some k → k.originFd ≠ 0)
    (htidy : mode.tidy = true → (∀ d, Tidy d s) ∧ RetryKeeps s (.writable fd env)) :
    Holds (Explained s (.writable fd env)) (handleWrite (s.selector.fds fd) env (s.enter env))
      (Effect mode s (.writable fd env)) := by
  obtain ⟨hrelayOf, hlive⟩ := h.relay hrelay hitem horigin
  have htidy' : mode.tidy = true → ∀ d, Tidy d s := fun ht => (htidy ht).1
  have htarget : (Event.writable fd env).target s = some c := by simp [Event.target, hitem]
  rw [hitem]
  cases handler with
  | connectingHandler =>
    simp only [handleWrite]
    rcases hlive with hgone | ⟨v, hview, hne, htokens, hphase⟩
    · simp only [handleWriteConnecting, conn_of_gone hgone env, error_bind, holds_error]
      exact .inl ⟨trivial, .orphan fd env c _ _ (.inr rfl) hrelayOf hgone⟩
    · obtain ⟨hconn, hstm, -⟩ := view_eq_some_iff.mp hview
      refine (((h.start hview env htidy').handleWriteConnecting (key_data fd c) env hphase hne
        htokens ?_).tolerate ?_).mono ?_
      · intro ht hgiven herr haddr
        exact (htidy ht).2 c v.conn i hrelayOf hconn hgiven herr haddr
      · rintro f ⟨hmemory, hphase', hstands⟩
        exact .inl ⟨hmemory, .late fd env c v.conn i hrelayOf hconn (by rw [hstm, hphase']) hstands⟩
      · rintro s' ⟨r, hconnects, hlands⟩
        exact .reaction c v r _ hview htarget (.connects fd env r i hrelayOf hne hphase hconnects) (h.entered c env)
          hlands rfl
  | copySelectorHandler =>
    simp only [handleWrite]
    rcases hlive with hgone | ⟨v, hview, hne, htokens, -⟩
    · simp only [copyWriteHandler, conn_of_gone hgone env, error_bind, holds_error]
      exact .inl ⟨trivial, .orphan fd env c _ _ (.inr rfl) hrelayOf hgone⟩
    · obtain ⟨hphase, hfd⟩ := h.copies fd c i v hrelayOf hview
      obtain ⟨s', r, hs', hwrote, hlands⟩ := (h.start hview env htidy').copyWriteHandler
        (key_data fd c) env.send htokens (.inr hne) (.inl hne)
      rw [hs', holds_ok]
      exact .reaction c v r _ hview htarget (.delivers fd env r i hfd
        (relay_of_relayOf hview hfd hne hrelayOf) hready hphase hwrote) (h.entered c env) hlands rfl
  | _ => cases hrelay

/-- Taking the job at the head of the list spends a token of its connection. -/
theorem Inv.popJob (h : Inv s) {fd : ℕ} {jobs : List ℕ} (env : Env)
    (hjobs : s.selector.resolutionJobs = fd :: jobs) (hview : s.view c = some v)
    (hclient : v.conn.clientFd = fd) {s₁ : Server}
    (hs₁ : s₁ = { s.enter env with
      selector := { (s.enter env).selector with resolutionJobs := jobs } }) :
    Entered c s s₁ ∧ s₁.view c = some { v with tokens := v.tokens - 1 } ∧ 0 < v.tokens := by
  subst hs₁
  obtain ⟨hconn, hstm, hinterest, hrelay, htokens, hhistory⟩ := view_eq_some_iff.mp hview
  have hcount : v.tokens = jobs.count fd + s.resolving.count c + 1 := by
    rw [← htokens, Server.tokens, hjobs, hclient, Int.toNat_natCast, List.count_cons_self]
    omega
  have howned : Owned none { s.enter env with
      selector := { (s.enter env).selector with resolutionJobs := jobs } } :=
    ⟨h.owned.registered_of_eq rfl rfl rfl rfl, h.owned.zero, h.owned.listener, h.owned.client,
      h.owned.conn, h.owned.stm, h.owned.known, h.owned.trace,
      fun n hn => h.owned.jobs n (by rw [hjobs]; exact List.mem_cons_of_mem _ hn),
      h.owned.resolving, h.owned.fdSize⟩
  refine ⟨⟨howned, rfl, rfl, rfl, rfl, ?_, rfl⟩, ?_, by omega⟩
  · intro d hd
    simp only [Server.view, Server.enter]
    cases hk : s.conns d with
    | none => rfl
    | some k =>
      cases hm : s.stms d with
      | none => rfl
      | some m =>
        obtain ⟨⟨n, hn, hown⟩, -⟩ := h.owned.conn d k hk
        obtain ⟨⟨n', hn', hown'⟩, -⟩ := h.owned.conn c v.conn hconn
        have hne : fd ≠ n := by
          rintro rfl
          obtain rfl : n' = fd := by omega
          rw [hown] at hown'
          exact hd (by simpa using hown')
        simp [Server.tokens, hn, hjobs, List.count_cons_of_ne hne, Server.relay, Server.history]
  · refine view_eq_some_iff.mpr ⟨hconn, hstm, hinterest, hrelay, ?_, hhistory⟩
    simp only [Server.tokens, Server.enter, hclient, Int.toNat_natCast, hcount]
    omega

/-- A notification finds the connection that waits for it. -/
theorem Inv.delivery (h : Inv s) (mode : Mode) (env : Env) {fd : ℕ} {jobs : List ℕ}
    (hjobs : s.selector.resolutionJobs = fd :: jobs) (htidy : mode.tidy = true → ∀ d, Tidy d s)
    {s₁ : Server} (hs₁ : s₁ = { s.enter env with
      selector := { (s.enter env).selector with resolutionJobs := jobs } }) :
    ∃ c v i, s.selector.fds fd = ⟨fd, i, some .socks5Handler, some c⟩ ∧
      (s.selector.fds fd).used = true ∧ s.view c = some v ∧ v.conn.clientFd = fd ∧
      v.phase = some .connecting ∧ v.Waiting ∧ Entered c s s₁ ∧
      Tracks mode false c s₁ { v with tokens := 0 } s₁ := by
  obtain ⟨c, howner⟩ := h.owned.jobs fd (by rw [hjobs]; exact List.mem_cons_self)
  obtain ⟨i, hitem⟩ := h.clientItem howner
  obtain ⟨v, hview, hclient, -⟩ := h.client hitem howner
  obtain ⟨hentered, hview₁, hpos⟩ := h.popJob env hjobs hview hclient hs₁
  obtain ⟨hphase, hwaiting⟩ := (h.ok c v hview).waiting_of_tokens hpos
  refine ⟨c, v, i, hitem, (h.owned.client fd c howner).1, hview, hclient, hphase, hwaiting,
    hentered, ?_⟩
  subst hs₁
  rw [hwaiting.tokens] at hview₁
  exact Tracks.start mode hentered.owned hview₁ (fun ht => htidy ht c)
    fun n j hj => h.copies n c j v hj hview

/-- A notification is delivered to a connection that waits for it, and does not abort. -/
theorem Inv.notify (h : Inv s) (env : Env) (hsome : s.selector.resolutionJobs ≠ [])
    (htidy : mode.tidy = true → ∀ d, Tidy d s) :
    Holds (fun f => f = .useAfterFree ∧ TeardownHazard s (.notify env))
      (handleBlockNotification env (s.enter env)) (Effect mode s (.notify env)) := by
  cases hjobs : s.selector.resolutionJobs with
  | nil => exact absurd hjobs hsome
  | cons fd jobs =>
    obtain ⟨c, v, i, hitem, hused, hview, hclient, hphase, hwaiting, hentered, htracks⟩ :=
      h.delivery _ env hjobs htidy rfl
    have htarget : (Event.notify env).target s = some c := by simp [Event.target, hjobs, hitem]
    have hjobs' : (s.enter env).selector.resolutionJobs = fd :: jobs := hjobs
    have hitem' : (s.enter env).selector.fds fd = ⟨fd, i, some .socks5Handler, some c⟩ := hitem
    rw [hitem] at hused
    simp only [handleBlockNotification, hjobs', hitem', if_pos hused, handleBlock]
    refine ((htracks.socksv5Block (by rw [hclient]) env hphase hwaiting.originFd rfl
      hwaiting.isErrorResponse (h.ok c v hview).outCapacity).tolerate ?_).mono ?_
    · rintro f ⟨huse, hf⟩
      refine ⟨huse, ?_⟩
      exact .block env fd jobs c v.conn hjobs (by rw [hitem]; exact ⟨rfl, rfl⟩)
        (view_eq_some_iff.mp hview).1 hf
    · rintro s' ⟨r, hblocks, hlands⟩
      exact .reaction c v r _ hview htarget (.blocks env r hphase hwaiting hblocks) hentered hlands
        (by simp [Event.jobs, hjobs])

/-- A resolver thread finishes. -/
theorem Inv.resolved (h : Inv s) (env : Env) (hmem : c ∈ s.resolving)
    (htidy : mode.tidy = true → ∀ d, Tidy d s) :
    Holds (Explained s (.resolved c env))
      (Socks5d.resolveHostName c env.resolved { s with resolving := s.resolving.erase c })
      (Effect mode s (.resolved c env)) := by
  obtain ⟨v, hview⟩ := Option.isSome_iff_exists.mp
    (by rw [h.owned.view_isSome]; exact h.owned.resolving c hmem : (s.view c).isSome = true)
  obtain ⟨hconn, hstm, hinterest, hrelay, htokens, hhistory⟩ := view_eq_some_iff.mp hview
  have hcount : v.tokens = s.selector.resolutionJobs.count v.conn.clientFd.toNat +
      (s.resolving.erase c).count c + 1 := by
    have hpos := List.count_pos_iff.mpr hmem
    rw [← htokens, Server.tokens, List.count_erase_self]
    omega
  obtain ⟨hphase, hwaiting⟩ := (h.ok c v hview).waiting_of_tokens (by omega)
  have hentered : Entered c s { s with resolving := s.resolving.erase c } := by
    refine ⟨⟨h.owned.registered_of_eq rfl rfl rfl rfl, h.owned.zero, h.owned.listener,
      h.owned.client, h.owned.conn, h.owned.stm, h.owned.known, h.owned.trace, h.owned.jobs,
      fun d hd => h.owned.resolving d (List.mem_of_mem_erase hd), h.owned.fdSize⟩,
      rfl, rfl, rfl, rfl, ?_, rfl⟩
    intro d hd
    simp [Server.view, Server.tokens, List.count_erase_of_ne hd, Server.relay, Server.history]
  have htracks : Tracks mode false c { s with resolving := s.resolving.erase c }
      { v with tokens := 0 } { s with resolving := s.resolving.erase c } := by
    refine Tracks.start mode hentered.owned ?_ (fun ht => htidy ht c)
      fun n j hj => h.copies n c j v hj hview
    refine view_eq_some_iff.mpr ⟨hconn, hstm, hinterest, hrelay, ?_, hhistory⟩
    have hone := hwaiting.tokens
    simp only [Server.tokens]
    omega
  obtain ⟨s', hs', h'⟩ := htracks.resolveHostName env.resolved
  rw [hs', holds_ok]
  exact .reaction c v _ _ hview rfl (.resolves env hphase hwaiting) hentered h' rfl

/-- Every event that can occur is a background change or a reaction of one connection, and it
stops the program only on a hazard or for want of a callback. -/
theorem dispatch_explained (h : Inv s) {e : Event} (he : enabled s e = true)
    (hz : mode.zero = true ∨ KeepsZero s e)
    (htidy : mode.tidy = true → (∀ d, Tidy d s) ∧ RetryKeeps s e) :
    Holds (Explained s e) (step s e) (Effect mode s e) := by
  have htidy' : mode.tidy = true → ∀ d, Tidy d s := fun ht => (htidy ht).1
  have hback : ∀ env s', Background (s.enter env) s' → e.target s = none → Effect mode s e s' :=
    fun env s' hb ht => .background hb.of_enter ht
  have hentered : ∀ env : Env, Owned none (s.enter env) := fun env => h.owned.enter env
  cases e with
  | readable fd env =>
    simp only [enabled, Bool.and_eq_true, Bool.not_eq_true'] at he
    obtain ⟨⟨⟨-, hused⟩, hread⟩, hadmin⟩ := he
    obtain ⟨-, hreg⟩ := h.owned.registered fd hused
    simp only [step]
    generalize hitem : s.selector.fds fd = item at hreg
    cases hreg with
    | listener handler i howner hpassive =>
      rcases hpassive with rfl | rfl
      · obtain ⟨s', hs', hb, -⟩ := socksv5PassiveAccept_background (hentered env) h.bufferSize env
        simp only [handleRead, hs', holds_ok]
        exact hback env s' hb (by simp [Event.target, hitem])
      · simp only [handleRead, holds_pure]
        exact hback env _ (s5adminPassiveAccept_background (hentered env) h.bufferSize env)
          (by simp [Event.target, hitem])
    | client c i howner =>
      rw [hitem] at hread
      exact h.clientReadable env hitem howner hread hz htidy'
    | relay c handler i hrelay howner horigin hknown =>
      rw [hitem] at hread
      rw [← hitem]
      exact h.relayReadable env hrelay hread hitem horigin htidy'
    | admin i howner =>
      rw [hitem] at hadmin hused
      simp [isAdmin, hused] at hadmin
  | writable fd env =>
    simp only [enabled, Bool.and_eq_true, Bool.not_eq_true'] at he
    obtain ⟨⟨⟨-, hused⟩, hwrite⟩, hadmin⟩ := he
    obtain ⟨-, hreg⟩ := h.owned.registered fd hused
    simp only [step]
    generalize hitem : s.selector.fds fd = item at hreg
    cases hreg with
    | listener handler i howner hpassive =>
      rcases hpassive with rfl | rfl
      · exact .inr ⟨rfl, by simp [Event.Unhandled, hitem]⟩
      · exact .inr ⟨rfl, by simp [Event.Unhandled, hitem]⟩
    | client c i howner =>
      rw [hitem] at hwrite
      exact h.clientWritable env hitem howner hwrite hz htidy'
    | relay c handler i hrelay howner horigin hknown =>
      rw [hitem] at hwrite
      rw [← hitem]
      exact h.relayWritable env hrelay hwrite hitem horigin htidy
    | admin i howner =>
      rw [hitem] at hadmin hused
      simp [isAdmin, hused] at hadmin
  | notify env =>
    exact (h.notify env (by simpa [enabled] using he) htidy').tolerate fun f hf =>
      .inl ⟨by simp [hf.1], hf.2⟩
  | resolved c env => exact h.resolved env (by simpa [enabled] using he) htidy'
  | adminInterest fd i =>
    simp only [step, holds_ok]
    exact .background (adminInterest_background h.owned h.bufferSize he i) rfl
  | adminClose fd =>
    obtain ⟨s', hs', hb⟩ := adminClose_background h.owned h.bufferSize he
    simp only [step, hs', holds_ok]
    exact .background hb rfl
  | configure users bufferSize maxConn =>
    simp only [step, holds_ok]
    exact .background (configure_background h.owned users (by simpa [enabled] using he) maxConn) rfl

/-- Every event that can occur is a background change or a reaction of one connection, and it
faults on an access to a released object only on a hazard. -/
theorem dispatch (h : Inv s) {e : Event} (he : enabled s e = true)
    (hz : mode.zero = true ∨ KeepsZero s e)
    (htidy : mode.tidy = true → (∀ d, Tidy d s) ∧ RetryKeeps s e) :
    Holds (Tolerated s e) (step s e) (Effect mode s e) :=
  (dispatch_explained h he hz htidy).tolerate fun _ => Explained.tolerated

end Socks5d
