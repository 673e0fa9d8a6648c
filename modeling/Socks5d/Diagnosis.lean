import Socks5d.Invariant

/-!
# The error a refusal names

A pending connect that fails reports its error through `SO_ERROR`, into a variable of
`handle_write_connecting`, while `get_code` reads `errno`. That is the error of an attempt only
when the handler itself has just tried another address with `connect`; otherwise it is whatever
earlier calls left there, for this connection or any other.
-/

namespace Socks5d

open Fallible

variable {mode : Mode} {hole : Bool} {c : ConnId} {s₀ s s' : Server} {v : View} {k : Socks5Conn}
  {env : Env} {e : Errno}

/-- The error of the last attempt of a walk that failed, after an attempt that failed with the
given one. -/
def lastFailure (e : Errno) : List AddrInfo → List ConnectOutcome → Errno
  | [], _ => e
  | _ :: next, outcomes =>
    match outcomes.headD (.failed .econnrefused) with
    | .failed e' => if e' = .einprogress then e else lastFailure e' next outcomes.tail
    | _ => e

/-- A write event for a pending connect ends in the refusal: `SO_ERROR` holds the given error,
and the addresses left give no new pending connect. -/
structure EndsRefused (k : Socks5Conn) (env : Env) (e : Errno) : Prop where
  isSocket : k.originFd ≠ -1
  soError : env.soError = some e
  notPending : (dial k.addrInfo env.connects).code ≠ CONNECTION_IN_PROGRESS

/-- The addresses left were tried, and each failed at once. -/
def RetriesFail (k : Socks5Conn) (env : Env) : Prop :=
  k.addrInfo ≠ [] ∧ dial k.addrInfo env.connects = .refused

instance (k : Socks5Conn) (env : Env) : Decidable (RetriesFail k env) :=
  inferInstanceAs (Decidable (_ ∧ _))

/-- The status a register entry carries, or the one a reply carries in its second byte. -/
def Obs.statuses : Obs → List UInt8
  | .access _ call => [call.statusCode]
  | .queued _ _ bytes => (bytes.drop 1).take 1
  | _ => []

/-- What a connection registered and queued between two states is one access with the given
status and, where `out_buff` has room for it, one reply with that status. -/
def AnswersWith (c : ConnId) (k : Socks5Conn) (status : UInt8) (s s' : Server) : Prop :=
  ((s'.history c).drop (s.history c).length).flatMap Obs.statuses =
    status :: if connReqErrorResponseSize ≤ k.outBuff.space then [status] else []

/-- A walk registers and queues nothing. -/
theorem statuses_dialHistory (c : ConnId) (fd : ℕ) (addrs : List AddrInfo)
    (outcomes : List ConnectOutcome) :
    (dialHistory c fd addrs outcomes).flatMap Obs.statuses = [] := by
  induction addrs generalizing outcomes with
  | nil => rfl
  | cons rp next ih =>
    rw [dialHistory]
    cases outcomes.headD (.failed .econnrefused) with
    | socketFails _ => rfl
    | connected => rfl
    | failed e =>
      by_cases he : e = .einprogress
      · simp [he, Obs.statuses]
      · simpa [he, Obs.statuses] using ih outcomes.tail

/-- In a walk in which every attempt failed the first one did. -/
theorem dial_cons_refused {rp : AddrInfo} {next : List AddrInfo} {outcomes : List ConnectOutcome}
    (hdial : dial (rp :: next) outcomes = .refused) :
    ∃ e, outcomes.headD (.failed .econnrefused) = .failed e ∧ e ≠ .einprogress ∧
      dial next outcomes.tail = .refused := by
  rw [dial] at hdial
  cases hout : outcomes.headD (.failed .econnrefused) with
  | socketFails _ => rw [hout] at hdial; cases hdial
  | connected => rw [hout] at hdial; cases hdial
  | failed e =>
    rw [hout] at hdial
    by_cases he : e = .einprogress
    · simp [he] at hdial
    · exact ⟨e, rfl, he, by simpa [he] using hdial⟩

/-- After a walk in which every attempt failed `errno` is the error of the last one. -/
theorem errno_connectToHostLoop (res : List AddrInfo) {addrs : List AddrInfo}
    {outcomes : List ConnectOutcome} (sockFd : ℤ) (hdial : dial addrs outcomes = .refused) :
    (connectToHostLoop c res addrs outcomes sockFd s).server.errno =
      lastFailure s.errno addrs outcomes := by
  induction addrs generalizing outcomes sockFd s with
  | nil => rfl
  | cons rp next ih =>
    obtain ⟨e, hout, he, hnext⟩ := dial_cons_refused hdial
    rw [connectToHostLoop, lastFailure, hout]
    simp only [he, if_false]
    rw [ih _ hnext]
    rfl

theorem errno_connectToHost {outcomes : List ConnectOutcome} {code : ℤ}
    (hconn : s.conn c = .ok k) (hdial : dial k.addrInfo outcomes = .refused)
    (h : connectToHost c outcomes s = .ok (code, s')) :
    s'.errno = lastFailure s.errno k.addrInfo outcomes := by
  rw [connectToHost, hconn, ok_bind, pure_eq_ok] at h
  obtain ⟨-, rfl⟩ := Prod.mk.inj (Except.ok.inj h)
  exact errno_connectToHostLoop k.addrInfo k.originFd hdial

/-- Once an attempt of the walk has failed, earlier errors no longer matter. -/
theorem lastFailure_of_refused {addrs : List AddrInfo} {outcomes : List ConnectOutcome}
    (hsome : addrs ≠ []) (hdial : dial addrs outcomes = .refused) (e e' : Errno) :
    lastFailure e addrs outcomes = lastFailure e' addrs outcomes := by
  cases addrs with
  | nil => exact absurd rfl hsome
  | cons rp next =>
    obtain ⟨e₁, hout, he, -⟩ := dial_cons_refused hdial
    rw [lastFailure, lastFailure, hout]
    simp [he]

/-- The status with which the error branch refuses: `errno` on entry decides unless the handler
has tried an address itself. -/
def refusalCode (k : Socks5Conn) (env : Env) (entry : Errno) : UInt8 :=
  getCode (if RetriesFail k env then lastFailure entry k.addrInfo env.connects else entry)

/-- The reply of a refusal carries its status. -/
theorem statuses_connReqErrorReply (status : UInt8) (junk : Memory) :
    ((connReqErrorReply status junk).drop 1).take 1 = [status] := by
  have hsecond : createConnReqErrorResponse status junk 1 = status := by
    simp [createConnReqErrorResponse, storeHtons, memcpy]
  rw [connReqErrorReply, Memory.bytes, connReqErrorResponseSize]
  simp [SOCKS5_CONN_REQ_RESPONSE_BASE_SIZE, IPV4_ADDR_SIZE, List.range_succ_eq_map, hsecond]

/-- The error branch, from the failed socket to the refusal. -/
theorem Tracks.handleWriteConnecting_refused (h : Tracks ⟨true, false⟩ false c s₀ v s)
    {key : SelectorKey} (hkey : key.data = c) (hne : v.conn.originFd ≠ 0)
    (hphase : v.phase = some .connecting ∨ v.phase = some .copy ∧ v.conn.addrInfo = [])
    (hends : EndsRefused v.conn env e) :
    ∃ (s' : Server) (v₁ w : View) (fd : ℕ), Socks5d.handleWriteConnecting key env s = .ok s' ∧
      v₁.history = v.history ++ dialHistory c fd v.conn.addrInfo env.connects ∧
      v₁.conn.outBuff = v.conn.outBuff ∧
      Queued c (.connReq (refusalCode v.conn env s.errno))
        (connReqErrorReply (refusalCode v.conn env s.errno) s₀.junk)
        (v₁.registered c (refusalCode v.conn env s.errno) env.now) w ∧
      s'.history c = w.history := by
  have hopen := h.isOpen_origin hne
  have h₁ := h.closeOrigin hne
  rw [Socks5d.handleWriteConnecting, hkey, h.conn_eq, ok_bind, getSoError, hopen,
    if_pos (by simp [hends.isSocket]), hends.soError]
  simp only [reduceCtorEq, if_false]
  by_cases hnone : v.conn.addrInfo = []
  · have hcode : refusalCode v.conn env s.errno = getCode s.errno := by
      simp [refusalCode, RetriesFail, hnone]
    obtain ⟨s', w, hs', hqueued, h'⟩ := h₁.refuseConnecting hkey env (getCode s.errno) hne
    rw [if_neg (by simp [hnone]), hcode]
    exact ⟨s', v, w, 0, hs', by simp [hnone, dialHistory], rfl, hqueued, h'.history⟩
  · have hconnecting := hphase.resolve_right fun hcopy => hnone hcopy.2
    obtain ⟨s₂, hs₂, h₂, -, -⟩ := h₁.connectToHost hnone hconnecting env.connects
      (fun ht => by cases ht)
    have hlow := h₁.lowest_pos
    obtain ⟨relay, h₃⟩ : ∃ relay, Tracks ⟨true, false⟩ (dial v.conn.addrInfo env.connects).isRefused
        c s₀ (v.dialed c (s.close v.conn.originFd).kernel.lowest env.connects relay) s₂ := ⟨_, h₂⟩
    have hset : ((dial v.conn.addrInfo env.connects).originFd
        (s.close v.conn.originFd).kernel.lowest) ≠ 0 := by
      cases hdial : dial v.conn.addrInfo env.connects with
      | noSocket => simp [Dial.originFd]
      | refused => exact Int.natCast_ne_zero.mpr hlow.ne'
      | connected peer => exact Int.natCast_ne_zero.mpr hlow.ne'
      | pending peer rest => exact Int.natCast_ne_zero.mpr hlow.ne'
    rw [if_pos hnone, hs₂, ok_bind]
    simp only []
    rw [if_neg hends.notPending]
    by_cases hdial : dial v.conn.addrInfo env.connects = .refused
    · have hcode : refusalCode v.conn env s.errno = getCode s₂.errno := by
        have herrno := errno_connectToHost h₁.conn_eq hdial hs₂
        rw [refusalCode, if_pos ⟨hnone, hdial⟩, herrno]
        rfl
      obtain ⟨s', w, hs', hqueued, h'⟩ := h₃.refuseConnecting hkey env (getCode s₂.errno) hset
      rw [if_pos (by rw [hdial]; rfl), hcode]
      exact ⟨s', v.dialed c _ env.connects relay, w, _, hs', rfl, rfl, hqueued, h'.history⟩
    · have hcode : refusalCode v.conn env s.errno = getCode s.errno := by
        simp [refusalCode, RetriesFail, hdial]
      obtain ⟨s', w, hs', hqueued, h'⟩ := h₃.refuseConnecting hkey env (getCode s.errno) hset
      have hcode' : (dial v.conn.addrInfo env.connects).code ≠ CONNECTION_FAILED := by
        cases hd : dial v.conn.addrInfo env.connects with
        | refused => exact absurd hd hdial
        | noSocket => decide
        | connected peer => exact by simp [Dial.code, CONNECTION_SUCCESS, CONNECTION_FAILED]
        | pending peer rest => exact absurd (congrArg Dial.code hd) hends.notPending
      rw [if_neg hcode', hcode]
      exact ⟨s', v.dialed c _ env.connects relay, w, _, hs', rfl, rfl, hqueued, h'.history⟩

/-- The connection behind the registration of a pending connect. -/
theorem Inv.pendingConnect (h : Inv s) {fd : ℕ} {i : FdInterest}
    (hitem : (s.selector.fds fd).relayOf c = some (.connectingHandler, i))
    (hconn : s.conns c = some k) :
    ∃ v, s.view c = some v ∧ v.conn = k ∧ k.originFd ≠ 0 ∧
      s.selector.fds fd = ⟨fd, i, some .connectingHandler, some c⟩ ∧
      (v.phase = some .connecting ∨ v.phase = some .copy ∧ v.conn.addrInfo = []) := by
  obtain ⟨hused, hhandler, -, hdata, hinterest⟩ := relayOf_eq_some_iff.mp hitem
  obtain ⟨-, hreg⟩ := h.owned.registered fd hused
  generalize hat : s.selector.fds fd = item at hreg hhandler hdata hinterest
  cases hreg with
  | listener handler j howner hpassive => cases hdata
  | client d j howner => cases hhandler
  | admin j howner => cases hhandler
  | relay d handler j hrelay howner horigin hknown =>
    obtain rfl := Option.some.inj hdata
    obtain rfl := Option.some.inj hhandler
    obtain rfl : j = i := hinterest
    obtain ⟨-, hgone | ⟨v, hview, hne, -, hphase⟩⟩ := h.relay hrelay hat horigin
    · rw [hgone] at hconn
      cases hconn
    · obtain rfl := Option.some.inj ((view_eq_some_iff.mp hview).1.symm.trans hconn)
      exact ⟨v, hview, rfl, hne, rfl, hphase⟩

/-- The refusal of a pending connect, as an event of the server. -/
theorem Inv.refusal (h : Inv s) {fd : ℕ} {i : FdInterest}
    (hitem : (s.selector.fds fd).relayOf c = some (.connectingHandler, i))
    (hconn : s.conns c = some k) (hends : EndsRefused k env e) :
    ∃ s' : Server, Socks5d.step s (.writable fd env) = .ok s' ∧
      AnswersWith c k (refusalCode k env env.errno) s s' := by
  obtain ⟨v, hview, rfl, hne, hat, hphase⟩ := h.pendingConnect hitem hconn
  have htracks : Tracks ⟨true, false⟩ false c (s.enter env) v (s.enter env) :=
    h.start hview env fun ht => by cases ht
  obtain ⟨s', v₁, w, n, hs', hhistory, hbuff, hqueued, hfinal⟩ :=
    htracks.handleWriteConnecting_refused (key_data fd c) hne hphase hends
  refine ⟨s', by simpa [Socks5d.step, handleWrite, hat] using hs', ?_⟩
  have hstart : s.history c = v.history := htracks.history
  have hwalk := statuses_dialHistory c n v.conn.addrInfo env.connects
  have hlength : (connReqErrorReply (refusalCode v.conn env env.errno) env.junk).length =
      connReqErrorResponseSize := length_bytes _ _
  have herrno : (s.enter env).errno = env.errno := rfl
  have hjunk : (s.enter env).junk = env.junk := rfl
  rw [herrno, hjunk] at hqueued
  generalize hreply : connReqErrorReply (refusalCode v.conn env env.errno) env.junk = reply
    at hqueued hlength
  have hstatus := statuses_connReqErrorReply (refusalCode v.conn env env.errno) env.junk
  rw [hreply] at hstatus
  rw [AnswersWith, hfinal, hstart]
  cases hqueued with
  | queued buff hfit hcontent hcapacity hspace =>
    have hroom : connReqErrorResponseSize ≤ v.conn.outBuff.space := by
      rw [← hlength, ← hbuff]
      exact hfit.2
    simp only [View.registered, hhistory, List.append_assoc, List.drop_left, List.flatMap_append,
      hwalk, if_pos hroom]
    simpa [Obs.statuses, View.accessCall] using hstatus
  | dropped hfull =>
    have hroom : ¬ connReqErrorResponseSize ≤ v.conn.outBuff.space := by
      intro hroom
      have hpos : 0 < connReqErrorResponseSize := by decide
      rw [← hbuff] at hroom
      exact hfull ⟨by exact hpos.trans_le hroom, by rw [hlength]; exact hroom⟩
    simp only [View.registered, hhistory, List.append_assoc, List.drop_left, List.flatMap_append,
      hwalk, if_neg hroom]
    simp [Obs.statuses, View.accessCall]

/-- A reply fits when the connection still waits for its origin. -/
theorem Inv.refusal_fits (h : Inv s) {fd : ℕ} {i : FdInterest}
    (hitem : (s.selector.fds fd).relayOf c = some (.connectingHandler, i))
    (hconn : s.conns c = some k) (hends : EndsRefused k env e)
    (hphase : s.stms c = some ⟨some .connecting⟩) :
    connReqErrorResponseSize ≤ k.outBuff.space := by
  obtain ⟨v, hview, rfl, hne, -, -⟩ := h.pendingConnect hitem hconn
  obtain ⟨-, hstm, -⟩ := view_eq_some_iff.mp hview
  have hv : v.phase = some .connecting := by
    rw [hphase] at hstm
    exact (StateMachine.mk.inj (Option.some.inj hstm)).symm
  have hok := h.ok c v hview
  have hphaseOk := hok.phase
  rw [View.PhaseOk, hv] at hphaseOk
  have hempty : v.conn.outBuff.content = [] := by
    rcases hphaseOk with hwaiting | hpending | hrefused
    · exact hwaiting.outBuff
    · exact hpending.outBuff
    · exact absurd hrefused.originFd hends.isSocket
  rw [Buffer.space_of_content_nil _ hempty]
  exact (by decide : connReqErrorResponseSize ≤ BUFF_MIN_LEN).trans hok.outCapacity

/-- The status of a refusal is the one of the last failure when the handler has tried an address
itself, or when `errno` on entry has the same status. -/
theorem refusalCode_eq_iff (k : Socks5Conn) (env : Env) (entry e : Errno) :
    refusalCode k env entry = getCode (lastFailure e k.addrInfo env.connects) ↔
      RetriesFail k env ∨ getCode entry = getCode (lastFailure e k.addrInfo env.connects) := by
  rw [refusalCode]
  by_cases hretries : RetriesFail k env
  · rw [if_pos hretries, lastFailure_of_refused hretries.1 hretries.2 entry e]
    exact iff_of_true rfl (.inl hretries)
  · rw [if_neg hretries, or_iff_right hretries]

theorem AnswersWith.status_iff {a b : UInt8} (h : AnswersWith c k a s s') :
    AnswersWith c k b s s' ↔ a = b := by
  constructor
  · intro h'
    exact (List.cons.inj (h.symm.trans h')).1
  · intro hab
    exact hab ▸ h

/-- A connection whose only address is being tried. -/
theorem pendingConnect_reachable : ∃ (s : Server) (k : Socks5Conn), Reachable s ∧
    (s.selector.fds 3).relayOf 0 = some (.connectingHandler, OP_WRITE) ∧ s.conns 0 = some k ∧
    k.originFd = 3 ∧ k.addrInfo = [] := by
  obtain ⟨s, hs, hcheck⟩ := reachable_of_after
    [arrives, greets 2, asks 2 [loopback], .notify { connects := [.failed .einprogress] }]
    (fun s => (s.selector.fds 3).relayOf 0 == some (.connectingHandler, OP_WRITE) &&
      (s.conns 0).any fun k : Socks5Conn => k.originFd == 3 && k.addrInfo == [])
    (by decide +kernel)
  simp only [Option.any_eq_true, Bool.and_eq_true, beq_iff_eq] at hcheck
  obtain ⟨hitem, k, hconn, horigin, hnone⟩ := hcheck
  exact ⟨s, k, hs, hitem, hconn, horigin, hnone⟩

end Socks5d
