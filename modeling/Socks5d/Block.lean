import Socks5d.Request

/-!
# The end of a resolution

`connecting_on_block_ready` on the view, and what `socksv5_block` makes of its answer. When it
answers with the error phase the state machine releases the connection, and `socksv5_block`
reads the record once more.
-/

namespace Socks5d

open Fallible

variable {mode : Mode} {hole : Bool} {c : ConnId} {s₀ s : Server} {v : View}

/-- The bytes queued for an established connection. -/
def connReqReply (env : Env) (junk : Memory) : List UInt8 :=
  let response := createConnReqResponse SOCKS5_REP_SUCCEEDED env.localAddr env.addrJunk junk
  response.bytes (connReqResponseSize response)

/-- Both lengths of a success reply fit in the smallest buffer. -/
theorem length_connReqReply (env : Env) (junk : Memory) :
    0 < (connReqReply env junk).length ∧ (connReqReply env junk).length ≤ BUFF_MIN_LEN := by
  simp only [connReqReply, length_bytes, connReqResponseSize]
  split
  · decide
  · decide

theorem length_connReqErrorReply (status : UInt8) (junk : Memory) :
    0 < (connReqErrorReply status junk).length ∧
      (connReqErrorReply status junk).length ≤ BUFF_MIN_LEN := by
  simp only [connReqErrorReply, length_bytes]
  decide

theorem Tracks.queueConnReqErrorResponse (h : Tracks mode hole c s₀ v s) (status : UInt8) :
    ∃ s' w, Socks5d.queueConnReqErrorResponse c status s = .ok s' ∧
      Queued c (.connReq status) (connReqErrorReply status s₀.junk) v w ∧
      Tracks mode hole c s₀
        { w with conn := { w.conn with isErrorResponse := true } } s' := by
  obtain ⟨s₁, w, hs₁, hqueued, h₁⟩ := h.queueReply (.connReq status)
    (connReqErrorReply status s₀.junk)
  refine ⟨_, w, ?_, hqueued, h₁.setConn { w.conn with isErrorResponse := true } rfl rfl rfl⟩
  rw [connReqErrorReply, ← h.frame.junk] at hs₁
  simp only [Socks5d.queueConnReqErrorResponse, hs₁, ok_bind, h₁.conn_eq, pure_eq_ok]

theorem Tracks.queueConnReqResponse (h : Tracks mode hole c s₀ v s) (env : Env) :
    ∃ s' w, Socks5d.queueConnReqResponse c env s = .ok s' ∧
      Queued c (.connReq SOCKS5_REP_SUCCEEDED) (connReqReply env s₀.junk) v w ∧
      Tracks mode hole c s₀ w s' := by
  rw [← h.frame.junk]
  exact h.queueReply (.connReq SOCKS5_REP_SUCCEEDED) (connReqReply env s.junk)

/-- The view after a walk over the resolved addresses whose sockets get the given number. -/
def View.dialed (v : View) (c : ConnId) (fd : ℕ) (outcomes : List ConnectOutcome)
    (relay : Option (FdHandler × FdInterest)) : View :=
  let d := dial v.conn.addrInfo outcomes
  { v with
    conn := { v.conn with originFd := d.originFd fd, addrInfo := d.addrInfo v.conn.addrInfo }
    relay := relay
    history := v.history ++ dialHistory c fd v.conn.addrInfo outcomes }

/-- The view after an access was registered. -/
def View.registered (v : View) (c : ConnId) (status : UInt8) (now : ℕ) : View :=
  { v with history := v.history ++ [.access c (v.accessCall status now)] }

/-- The view in which a success reply is about to be sent. -/
def View.succeeding (w : View) (c : ConnId) : View :=
  View.reset { w with interest := OP_WRITE } c

/-- The answers of `connecting_on_block_ready`, with what they leave behind. -/
inductive BlockReady (c : ConnId) (junk : Memory) (env : Env) (fds : ℕ → Item) (s : Server)
    (v : View) : Socks5State → Result → Prop
  | noAddress (w : View) (hnone : v.conn.addrInfo = [])
      (hqueued : Queued c (.connReq SOCKS5_REP_HOST_UNREACHABLE)
        (connReqErrorReply SOCKS5_REP_HOST_UNREACHABLE junk)
        (v.registered c SOCKS5_REP_HOST_UNREACHABLE env.now) w) :
      BlockReady c junk env fds s v .connectionReq (.alive { w with
        conn := { w.conn with isErrorResponse := true }, interest := OP_WRITE })
  | refused (hsome : v.conn.addrInfo ≠ [])
      (hdial : dial v.conn.addrInfo env.connects = .refused) :
      BlockReady c junk env fds s v .error
        (.alive (v.dialed c s.kernel.lowest env.connects none))
  | unregistered (hsome : v.conn.addrInfo ≠ [])
      (hdial : dial v.conn.addrInfo env.connects = .noSocket ∨
        (∃ peer rest, dial v.conn.addrInfo env.connects = .pending peer rest) ∧
          (s.kernel.lowest < ITEMS_MAX_SIZE →
            (s.selector.fds s.kernel.lowest).used = true)) :
      BlockReady c junk env fds s v .error (.alive (View.registered
        { v.dialed c s.kernel.lowest env.connects none with interest := OP_NOOP }
          c SOCKS5_REP_GENERAL_FAILURE env.now))
  | pending (peer : AddrInfo) (rest : List AddrInfo) (hsome : v.conn.addrInfo ≠ [])
      (hdial : dial v.conn.addrInfo env.connects = .pending peer rest)
      (hlt : s.kernel.lowest < ITEMS_MAX_SIZE)
      (hfree : (s.selector.fds s.kernel.lowest).used = false) :
      BlockReady c junk env fds s v .connecting (.alive
        { v.dialed c s.kernel.lowest env.connects (some (.connectingHandler, OP_WRITE)) with
          interest := OP_NOOP })
  | established (peer : AddrInfo) (w : View) (r : Result) (hsome : v.conn.addrInfo ≠ [])
      (hdial : dial v.conn.addrInfo env.connects = .connected peer)
      (hqueued : Queued c (.connReq SOCKS5_REP_SUCCEEDED) (connReqReply env junk)
        ((v.dialed c s.kernel.lowest env.connects none).registered c SOCKS5_REP_SUCCEEDED env.now)
        w)
      (hwrote : Wrote c junk fds (w.succeeding c) env.send r) :
      BlockReady c junk env fds s v .copy r

/-- A connection without an `origin_fd` has no registration, whatever number it gets next. -/
theorem Tracks.relay_of_unset (h : Tracks mode hole c s₀ v s) (hzero : v.conn.originFd = 0)
    (k : Socks5Conn) : s.relay c k = none := by
  unfold Server.relay
  split
  · cases hr : (s.selector.fds k.originFd.toNat).relayOf c with
    | none => rfl
    | some r => exact absurd hzero (h.owned.origin_ne_zero_of_relayOf h.conns hr)
  · rfl

/-- `connecting_on_block_ready` always returns. -/
theorem Tracks.connectingOnBlockReady (h : Tracks mode false c s₀ v s) {key : SelectorKey}
    (hkey : key = ⟨v.conn.clientFd, c⟩) (env : Env) (hphase : v.phase = some .connecting)
    (hzero : v.conn.originFd = 0) (htokens : v.tokens = 0) :
    ∃ ret s' r hole, Socks5d.connectingOnBlockReady key env s = .ok (ret, s') ∧
      BlockReady c s₀.junk env s₀.selector.fds s v ret r ∧ Lands mode hole c s₀ r s' ∧
      (hole = true → ret = .error) := by
  have hdata : key.data = c := by rw [hkey]
  unfold Socks5d.connectingOnBlockReady
  rw [hdata, h.conn_eq, ok_bind]
  by_cases hnone : v.conn.addrInfo = []
  · rw [if_pos hnone]
    obtain ⟨s₁, hs₁, h₁⟩ := h.accessRegisterAddEntry SOCKS5_REP_HOST_UNREACHABLE env.now
    obtain ⟨s₂, w, hs₂, hqueued, h₂⟩ :=
      h₁.queueConnReqErrorResponse SOCKS5_REP_HOST_UNREACHABLE
    simp only [hs₁, hs₂, h₂.conn_eq, ok_bind, pure_eq_ok]
    exact ⟨_, _, _, false, rfl, .noAddress w hnone hqueued, h₂.armClient OP_WRITE, by simp⟩
  · rw [if_neg hnone]
    obtain ⟨s₁, hs₁, h₁, hsel, -⟩ := h.connectToHost hnone hphase env.connects
      (fun _ => .inl (h.relay_eq_none (by omega)))
    rw [h.relay_of_unset hzero] at h₁
    have hlow := h.lowest_pos
    rw [hs₁, ok_bind]
    cases hdial : dial v.conn.addrInfo env.connects with
    | refused =>
      have h₂ : Tracks mode true c s₀ (v.dialed c s.kernel.lowest env.connects none) s₁ := by
        simpa only [hdial, Dial.isRefused, View.dialed] using h₁
      refine ⟨.error, s₁, _, true, ?_, .refused hnone hdial, h₂, fun _ => rfl⟩
      simp [Dial.code, CONNECTION_IN_PROGRESS, CONNECTION_SUCCESS, CONNECTION_FAILED]
    | noSocket =>
      have h₂ : Tracks mode false c s₀ (v.dialed c s.kernel.lowest env.connects none) s₁ := by
        simpa only [hdial, Dial.isRefused, View.dialed] using h₁
      have h₃ := h₂.armClient OP_NOOP
      have horigin : (v.dialed c s.kernel.lowest env.connects none).conn.originFd = -1 := by
        simp [View.dialed, hdial, Dial.originFd]
      rcases h₃.register .connectingHandler rfl OP_WRITE (by simp) with
        ⟨fd, hfd, -⟩ | ⟨-, hstatus, h₄⟩
      · have hfd' : (v.dialed c s.kernel.lowest env.connects none).conn.originFd = fd := hfd
        omega
      · obtain ⟨s₅, hs₅, h₅⟩ :=
          h₄.accessRegisterAddEntry SOCKS5_REP_GENERAL_FAILURE env.now
        refine ⟨.error, s₅, _, false, ?_, .unregistered hnone (.inl hdial), h₅, by simp⟩
        simp only [Dial.code, if_true, h₂.conn_eq, ok_bind]
        rw [if_pos hstatus, hs₅]
        rfl
    | pending peer rest =>
      have h₂ : Tracks mode false c s₀ (v.dialed c s.kernel.lowest env.connects none) s₁ := by
        simpa only [hdial, Dial.isRefused, View.dialed] using h₁
      have h₃ := h₂.armClient OP_NOOP
      have horigin : (v.dialed c s.kernel.lowest env.connects none).conn.originFd =
          s.kernel.lowest := by
        simp [View.dialed, hdial, Dial.originFd]
      have hused : ∀ n, (((s₁.setInterest (v.dialed c s.kernel.lowest env.connects
          none).conn.clientFd OP_NOOP).selector.fds n).used) = (s.selector.fds n).used := by
        intro n
        rw [(sameSkeleton_setInterest h₂.owned _ _).used, hsel]
      rcases h₃.register .connectingHandler rfl OP_WRITE (by simp) with
        ⟨fd, hfd, hlt, hfree, hstatus, h₄⟩ | ⟨hfull, hstatus, h₄⟩
      · have hfd' : (v.dialed c s.kernel.lowest env.connects none).conn.originFd = fd := hfd
        obtain rfl : s.kernel.lowest = fd := by omega
        rw [hused] at hfree
        refine ⟨.connecting, _, _, false, ?_, .pending peer rest hnone hdial hlt hfree, h₄, by simp⟩
        simp only [Dial.code, if_true, h₂.conn_eq, ok_bind]
        rw [if_neg (by simp [hstatus])]
        rfl
      · obtain ⟨s₅, hs₅, h₅⟩ :=
          h₄.accessRegisterAddEntry SOCKS5_REP_GENERAL_FAILURE env.now
        refine ⟨.error, s₅, _, false, ?_, .unregistered hnone
          (.inr ⟨⟨peer, rest, hdial⟩, fun hlt => ?_⟩), h₅, by simp⟩
        · simp only [Dial.code, if_true, h₂.conn_eq, ok_bind]
          rw [if_pos hstatus, hs₅]
          rfl
        · rw [← hused]
          exact hfull _ horigin hlt
    | connected peer =>
      have h₂ : Tracks mode false c s₀ (v.dialed c s.kernel.lowest env.connects none) s₁ := by
        simpa only [hdial, Dial.isRefused, View.dialed] using h₁
      obtain ⟨s₃, hs₃, h₃⟩ := h₂.accessRegisterAddEntry SOCKS5_REP_SUCCEEDED env.now
      obtain ⟨s₄, w, hs₄, hqueued, h₄⟩ := h₃.queueConnReqResponse env
      obtain ⟨hconn, -, hwphase, -, -, hwtokens⟩ := hqueued.fields
      obtain ⟨s₅, hs₅, h₅⟩ := (h₄.armClient OP_WRITE).resetInBuff
      have h₅' : Tracks mode false c s₀ (w.succeeding c) s₅ := h₅
      obtain ⟨s₆, r, hs₆, hwrote, hlands⟩ := h₅'.socksv5Write hdata env.send
        (hwphase.trans hphase) (.inr rfl) trivial (hwtokens.trans htokens)
        (fun _ _ => .inr (.inr (by simp [View.succeeding, View.reset])))
      refine ⟨.copy, s₆, r, false, ?_, .established peer w r hnone hdial hqueued hwrote, hlands,
        by simp⟩
      have hfd : key.fd = w.conn.clientFd := by rw [hkey, hconn]; rfl
      simp only [Dial.code, CONNECTION_SUCCESS, CONNECTION_IN_PROGRESS, if_true, hs₃, hs₄, hfd,
        hs₅, hs₆, ok_bind, pure_eq_ok]
      simp

/-- The state machine's jump into the relay phase, unless the reply's send already made it. -/
inductive EntersCopy (c : ConnId) (fds : ℕ → Item) (x : View) : View → Prop
  | already (hphase : x.phase = some .copy) : EntersCopy c fds x x
  | jumps (relay : Option (FdHandler × FdInterest))
      (hphase : x.phase = some .connecting) (hrelay : RelayArmed c fds x relay) :
      EntersCopy c fds x { x with
        phase := some .copy, relay := relay, history := x.history ++ [.enter c .copy] }

/-- The outcomes of a notification that returns, whose new sockets get the number `fd`. -/
inductive Blocks (c : ConnId) (junk : Memory) (env : Env) (fds : ℕ → Item) (fd : ℕ) (v : View) :
    Result → Prop
  | noAddress (w : View) (hnone : v.conn.addrInfo = [])
      (hqueued : Queued c (.connReq SOCKS5_REP_HOST_UNREACHABLE)
        (connReqErrorReply SOCKS5_REP_HOST_UNREACHABLE junk)
        (v.registered c SOCKS5_REP_HOST_UNREACHABLE env.now) w) :
      Blocks c junk env fds fd v (.alive { w with
        conn := { w.conn with
          isErrorResponse := true, connReqParser := some (connReqParserInit junk) }
        phase := some .connectionReq
        interest := OP_WRITE
        history := w.history ++ [.enter c .connectionReq] })
  | pending (peer : AddrInfo) (rest : List AddrInfo)
      (hdial : dial v.conn.addrInfo env.connects = .pending peer rest) :
      Blocks c junk env fds fd v (.alive
        { v.dialed c fd env.connects (some (.connectingHandler, OP_WRITE)) with
          interest := OP_NOOP })
  | established (peer : AddrInfo) (w x y : View)
      (hdial : dial v.conn.addrInfo env.connects = .connected peer)
      (hqueued : Queued c (.connReq SOCKS5_REP_SUCCEEDED) (connReqReply env junk)
        ((v.dialed c fd env.connects none).registered c SOCKS5_REP_SUCCEEDED env.now)
        w)
      (hwrote : Wrote c junk fds (w.succeeding c) env.send (.alive x))
      (hcopy : EntersCopy c fds x y) :
      Blocks c junk env fds fd v (.alive y)

/-- The view in which a notification is handled. -/
def View.notified (v : View) (c : ConnId) : View :=
  { v with tokens := 0, history := v.history ++ [.notified c] }

/-- The answers to a resolution after which the connection is released while it is still in
use: the walk ends without a socket, its socket cannot be registered, or the success reply
cannot be sent. -/
def BlockHazard (s : Server) (addrs : List AddrInfo) (env : Env) : Prop :=
  addrs ≠ [] ∧
    match dial addrs env.connects with
    | .refused | .noSocket => True
    | .pending _ _ =>
      s.kernel.lowest < ITEMS_MAX_SIZE → (s.selector.fds s.kernel.lowest).used = true
    | .connected _ => ∃ e, env.send = .failed e ∧ e ≠ .eagain

instance (s : Server) (addrs : List AddrInfo) (env : Env) : Decidable (BlockHazard s addrs env) :=
  letI (addrs : List AddrInfo) : Decidable (match dial addrs env.connects with
      | .refused | .noSocket => True
      | .pending _ _ =>
        s.kernel.lowest < ITEMS_MAX_SIZE → (s.selector.fds s.kernel.lowest).used = true
      | .connected _ => ∃ e, env.send = .failed e ∧ e ≠ .eagain) :=
    match dial addrs env.connects with
    | .refused | .noSocket => isTrue trivial
    | .pending _ _ => inferInstanceAs (Decidable (_ → _))
    | .connected _ =>
      match env.send with
      | .failed e =>
        if h : e = .eagain then isFalse (by simp [h]) else isTrue ⟨e, rfl, h⟩
      | .accepted _ | .zero => isFalse (by simp)
  inferInstanceAs (Decidable (_ ∧ _))

/-- The write handler of the connecting phase starts the relay or refuses. -/
theorem Advance.of_connecting {junk : Memory} {fds : ℕ → Item} {w : View} {r : Result}
    (h : Advance c junk fds w r) (hphase : w.phase = some .connecting)
    (herror : w.conn.isErrorResponse = false) :
    ∃ relay, RelayArmed c fds w relay ∧ r = .alive { w with
      phase := some .copy, relay := relay, history := w.history ++ [.enter c .copy] } := by
  cases h with
  | refused _ _ _ herror' => rw [herror] at herror'; cases herror'
  | auth _ hphase' => cases hphase.symm.trans hphase'
  | connectionReq state hphase' _ hstate =>
    obtain rfl := Option.some.inj (hphase.symm.trans hphase')
    simp at hstate
  | copy state relay hphase' _ hstate hrelay =>
    obtain rfl := Option.some.inj (hphase.symm.trans hphase')
    exact ⟨relay, hrelay, rfl⟩

/-- The notification is on record before anything is done about it. -/
theorem Tracks.notified (h : Tracks mode false c s₀ v s) (htokens : v.tokens = 0) :
    Tracks mode false c s₀ (v.notified c) (s.note (.notified c)) := by
  have hview : { v with history := v.history ++ [.notified c] } = v.notified c := by
    simp only [View.notified, htokens.symm]
  exact hview ▸ h.note (.notified c) rfl

/-- The state machine hands a notification to the connecting phase, and acts on its answer. -/
theorem Tracks.stmHandlerBlock_eq (h : Tracks mode false c s₀ v s) {key : SelectorKey}
    (hkey : key.data = c) {env : Env} (hphase : v.phase = some .connecting) {ret : Socks5State}
    {s₁ : Server} (hs₁ : Socks5d.connectingOnBlockReady key env s = .ok (ret, s₁)) :
    stmHandlerBlock key env s = Socks5d.jump ret key s₁ >>= fun s' => pure (ret, s') := by
  have hfirst : handleFirst key s = .ok s := by simp [handleFirst, hkey, h.stm_eq, hphase]
  simp only [stmHandlerBlock, hkey, h.stmPointer_eq, ok_bind, hfirst, h.stmState_eq hphase,
    onBlockReady, hs₁]

/-- After the reply to a request that stands the relay is entered, unless the reply failed for
good. -/
theorem Wrote.jump_copy {key : SelectorKey} {w : View} {out : SendOutcome} {r : Result}
    (h : Wrote c s₀.junk s₀.selector.fds w out r) (hlands : Lands mode false c s₀ r s)
    (hkey : key.data = c) (hphase : w.phase = some .connecting)
    (hleft : w.conn.outBuff.content ≠ []) (herror : w.conn.isErrorResponse = false) :
    (∃ x y s', r = .alive x ∧ EntersCopy c s₀.selector.fds x y ∧
        Socks5d.jump .copy key s = .ok s' ∧ Tracks mode false c s₀ y s') ∨
      ∃ e, out = .failed e ∧ e ≠ .eagain ∧ Socks5d.jump .copy key s = .error .useAfterFree := by
  have hblocked : r = .alive w → ∃ x y s', r = .alive x ∧ EntersCopy c s₀.selector.fds x y ∧
      Socks5d.jump .copy key s = .ok s' ∧ Tracks mode false c s₀ y s' := by
    rintro rfl
    obtain ⟨s', relay, hs', hrelay, -, h'⟩ :=
      Tracks.jump_copy hlands hkey hphase (.inr rfl) trivial
    exact ⟨_, _, s', rfl, .jumps relay hphase hrelay, hs', h'⟩
  cases out with
  | zero => exact .inl (hblocked (h.of_blocked hleft (.inl rfl)))
  | failed e =>
    by_cases he : e = .eagain
    · exact .inl (hblocked (h.of_blocked hleft (.inr (by rw [he]))))
    · obtain rfl := h.of_failed hleft he
      have hgone : Released mode c s₀ _ s := hlands
      exact .inr ⟨e, rfl, he, by simp [Socks5d.jump, Server.stm, hkey, hgone.stms]⟩
  | accepted n =>
    obtain ⟨left, -, -, hadvance⟩ := h.of_accepted hleft (by simp [hphase])
    obtain ⟨relay, -, rfl⟩ := hadvance.of_connecting hphase herror
    exact .inl ⟨_, _, s, rfl, .already rfl, Tracks.jump_same hlands hkey rfl, hlands⟩

/-- The error path of `socksv5_block` reads the record, which the jump to the error state has
released. -/
theorem Tracks.socksv5Block_failed (h : Tracks mode hole c s₀ v s) {key : SelectorKey}
    (hkey : key.data = c) (hphase : v.phase = some .connecting) (htokens : v.tokens = 0) :
    (Socks5d.jump .error key s >>= fun s' => do
      let conn ← s'.incErrors.conn key.data
      selectorUnregisterFd s'.incErrors conn.clientFd) = .error .useAfterFree := by
  obtain ⟨s', hs', h'⟩ := h.jump_error hkey hphase (by simp) trivial (by simp) htokens
  simp [hs', Server.conn, Server.incErrors, hkey, h'.conns]

/-- A notification faults only on a hazard, by using a released connection. -/
theorem Tracks.socksv5Block (h : Tracks mode false c s₀ v s) {key : SelectorKey}
    (hkey : key = ⟨v.conn.clientFd, c⟩) (env : Env) (hphase : v.phase = some .connecting)
    (hzero : v.conn.originFd = 0) (htokens : v.tokens = 0)
    (herror : v.conn.isErrorResponse = false)
    (hcapacity : BUFF_MIN_LEN ≤ v.conn.outBuff.capacity) :
    Holds (fun f => f = .useAfterFree ∧ BlockHazard s v.conn.addrInfo env)
      (Socks5d.socksv5Block key env s)
      fun s' => ∃ r, Blocks c s₀.junk env s₀.selector.fds s.kernel.lowest (v.notified c) r ∧
        Lands mode false c s₀ r s' := by
  have hdata : key.data = c := by rw [hkey]
  have hnoted := h.notified htokens
  obtain ⟨ret, s₁, r, hole, hs₁, hready, hlands, hhole⟩ :=
    hnoted.connectingOnBlockReady (v := v.notified c) hkey env hphase hzero rfl
  have hblock : Socks5d.socksv5Block key env s =
      Socks5d.jump ret key s₁ >>= fun s' =>
        if ret = .error then do
          let conn ← s'.incErrors.conn key.data
          selectorUnregisterFd s'.incErrors conn.clientFd
        else pure s' := by
    rw [Socks5d.socksv5Block, hdata, hnoted.stmHandlerBlock_eq hdata hphase hs₁]
    cases Socks5d.jump ret key s₁ with
    | error e => rfl
    | ok s' => rfl
  have hfaults : ∀ w, w.phase = some .connecting → w.tokens = 0 →
      Tracks mode hole c s₀ w s₁ → ret = .error →
      Socks5d.socksv5Block key env s = .error .useAfterFree := by
    rintro w hwphase hwtokens htracks rfl
    simp only [hblock, if_true]
    exact htracks.socksv5Block_failed hdata hwphase hwtokens
  cases hready with
  | noAddress w hnone hqueued =>
    cases hole with
    | true => simp at hhole
    | false =>
      have h₁ : Tracks mode false c s₀ _ s₁ := hlands
      obtain ⟨-, -, hwphase, -⟩ := hqueued.fields
      obtain ⟨s', hs', h'⟩ :=
        h₁.jump_connectionReq hdata (hwphase.trans hphase) (.inr (.inr rfl)) trivial
      simp only [hblock, hs', ok_bind, reduceCtorEq, if_false, holds_pure]
      exact ⟨_, .noAddress w hnone hqueued, h'⟩
  | refused hsome hdial =>
    rw [hfaults ((v.notified c).dialed c s.kernel.lowest env.connects none) hphase rfl hlands rfl]
    exact ⟨rfl, hsome, by rw [show dial v.conn.addrInfo env.connects = .refused from hdial]; trivial⟩
  | unregistered hsome hdial =>
    rw [hfaults (View.registered
      { (v.notified c).dialed c s.kernel.lowest env.connects none with interest := OP_NOOP }
      c SOCKS5_REP_GENERAL_FAILURE env.now) hphase rfl hlands rfl]
    refine ⟨rfl, hsome, ?_⟩
    have hsame : dial (v.notified c).conn.addrInfo env.connects = dial v.conn.addrInfo env.connects :=
      rfl
    rcases hdial with hdial | ⟨⟨peer, rest, hdial⟩, hfull⟩
    · rw [← hsame, hdial]; trivial
    · rw [← hsame, hdial]; exact hfull
  | pending peer rest hsome hdial hlt hfree =>
    cases hole with
    | true => simp at hhole
    | false =>
      have h₁ : Tracks mode false c s₀ _ s₁ := hlands
      simp only [hblock, h₁.jump_same hdata hphase, ok_bind, reduceCtorEq, if_false, holds_pure]
      exact ⟨_, .pending peer rest hdial, h₁⟩
  | established peer w r hsome hdial hqueued hwrote =>
    have hhole' : hole = false := by
      cases hole with
      | true => simp at hhole
      | false => rfl
    subst hhole'
    obtain ⟨hconn, hwcap, hwphase, -⟩ := hqueued.fields
    obtain ⟨hpos, hle⟩ := length_connReqReply env s₀.junk
    have hleft : (w.succeeding c).conn.outBuff.content ≠ [] :=
      hqueued.content_ne_nil (List.ne_nil_of_length_pos hpos) (hle.trans hcapacity)
    have herror' : (w.succeeding c).conn.isErrorResponse = false := by
      simp only [View.succeeding, View.reset]
      rw [hconn]
      exact herror
    rw [hblock]
    rcases hwrote.jump_copy hlands hdata (hwphase.trans hphase) hleft herror' with
      ⟨x, y, s', rfl, hcopy, hs', h'⟩ | ⟨e, hout, he, hjump⟩
    · simp only [hs', ok_bind, reduceCtorEq, if_false, holds_pure]
      exact ⟨_, .established peer w x y hdial hqueued hwrote hcopy, h'⟩
    · rw [hjump, error_bind, holds_error]
      refine ⟨rfl, hsome, ?_⟩
      have hdial' : dial v.conn.addrInfo env.connects = .connected peer := hdial
      rw [hdial']
      exact ⟨e, hout, he⟩

end Socks5d
