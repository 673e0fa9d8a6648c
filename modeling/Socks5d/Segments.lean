import Socks5d.Exchange

/-!
# The cuts of a stream

What a client sends reaches the server in pieces, and where `recv` cuts them is nobody's choice. In
runs in which whatever is sent is taken whole, what a connection shows to the outside depends on
the bytes of its client and on the outcome of its connect only, as long as no `recv` takes the end
of a greeting or of credentials together with what follows, and no bytes wait for the origin when
the connection to it stands. Bytes that are cut so are lost, or fed to a parser that is gone.
-/

namespace Socks5d

open GuardedRun Fallible

variable {o : ClientStream} {ρ : Setting} {c : ConnId} {v w : View} {r : Result} {junk : Memory}
  {fds : ℕ → Item} {out : SendOutcome} {sends : List SendOutcome} {front chunk : List UInt8}

/-- What is queued, and shown, when the connection to the origin stands. -/
theorem Queued.accepts {env : Env}
    (h : Queued c (.connReq SOCKS5_REP_SUCCEEDED) (connReqReply env env.junk)
      (v.registered c SOCKS5_REP_SUCCEEDED env.now) w)
    (hidle : v.conn.outBuff.content = []) (hcapacity : BUFF_MIN_LEN ≤ v.conn.outBuff.capacity)
    (hfits : env.localAddr = ρ.localAddr ∧ env.junk.slice 4 IPV6_ADDR_SIZE = ρ.memory) :
    (w.succeeding c).conn.outBuff.content = ρ.accepts ∧
      outward (w.succeeding c).history = outward v.history ++
        { replies := [ρ.accepts], entries := [SOCKS5_REP_SUCCEEDED] } := by
  have hbytes : connReqReply env env.junk = ρ.accepts := by
    obtain ⟨hlocal, hmemory⟩ := hfits
    have hwire : connReqReply env env.junk =
        (Reply.connReq SOCKS5_REP_SUCCEEDED env.localAddr).wire env.addrJunk env.junk := rfl
    rw [hwire, wire_connReq, hlocal, hmemory, Setting.accepts]
  obtain ⟨hpos, hle⟩ := length_connReqReply env env.junk
  obtain ⟨hreply, hqueues, -⟩ :=
    h.of_empty hidle (List.ne_nil_of_length_pos hpos) (hle.trans hcapacity)
  refine ⟨hreply.trans hbytes, ?_⟩
  rw [View.succeeding, outward_reset]
  change outward w.history = _
  rw [hqueues, View.registered, hbytes]
  simp [View.accessCall]

/-- What is queued, and shown, when the request is refused. -/
theorem Queued.refuses {env : Env} {status : UInt8}
    (h : Queued c (.connReq status) (connReqErrorReply status env.junk)
      (v.registered c status env.now) w)
    (hidle : v.conn.outBuff.content = []) (hcapacity : BUFF_MIN_LEN ≤ v.conn.outBuff.capacity)
    (hmemory : env.junk.slice 4 IPV6_ADDR_SIZE = ρ.memory) :
    w.conn.outBuff.content = ρ.refuses status ∧
      outward w.history = outward v.history ++
        { replies := [ρ.refuses status], entries := [status] } := by
  have hbytes : connReqErrorReply status env.junk = ρ.refuses status := by
    have hwire : connReqErrorReply status env.junk =
        (Reply.connReqError status).wire env.addrJunk env.junk := rfl
    rw [hwire, wire_connReqError, Setting.refuses, ← hmemory]
    rfl
  obtain ⟨hpos, hle⟩ := length_connReqErrorReply status env.junk
  obtain ⟨hreply, hqueues, -⟩ :=
    h.of_empty hidle (List.ne_nil_of_length_pos hpos) (hle.trans hcapacity)
  refine ⟨hreply.trans hbytes, ?_⟩
  rw [hqueues, View.registered, hbytes]
  simp [View.accessCall]

/-- What is sent to the client of a relay is shown as sent. -/
theorem Wrote.passes (h : Wrote c junk fds v out r) (hphase : v.phase = some .copy) :
    r = .gone (v.history ++ [.released c]) ∧ (∃ e, out = .failed e) ∨
      ∃ w bytes, r = .alive w ∧ w.phase = some .copy ∧ w.conn.inBuff = v.conn.inBuff ∧
        outward w.history = outward v.history ++ { sent := bytes } ∧
        (out.takes v.conn.outBuff.capacity = true → bytes = v.conn.outBuff.content) := by
  cases h with
  | idle hempty => exact .inr ⟨_, [], rfl, hphase, rfl, by simp, fun _ => hempty.symm⟩
  | blocked hleft hout =>
    refine .inr ⟨_, [], rfl, hphase, rfl, by simp, fun htakes => ?_⟩
    rcases hout with rfl | rfl
    · cases htakes
    · cases htakes
  | broken e hleft hout he => exact .inl ⟨rfl, e, hout⟩
  | relayed n left hleft hout _ hcontent hcapacity =>
    refine .inr ⟨_, v.conn.outBuff.content.take (n + 1), rfl, hphase, rfl, by simp [View.sent], ?_⟩
    rw [hout]
    exact fun htakes => List.take_of_length_le
      ((Buffer.length_content_le _).trans (of_decide_eq_true htakes))
  | advanced n left r hleft hout hcontent hcapacity hadvance => exact absurd hphase hadvance.not_copy

/-- A success reply that is taken whole starts the relay. -/
theorem Wrote.hands {env : Env} {tried : List AddrInfo} {x u : View}
    (hqueued : Queued c (.connReq SOCKS5_REP_SUCCEEDED) (connReqReply env env.junk)
      (x.registered c SOCKS5_REP_SUCCEEDED env.now) u)
    (hwrote : Wrote c env.junk fds (u.succeeding c) env.send r)
    (hphase : x.phase = some .connecting ∧ x.conn.isErrorResponse = false ∧
        outward x.history = { taken := o.opening, phases := o.phases ++ [.connecting]
                              replies := o.replies, sent := o.replies.flatten, tried := tried } ∨
      x.phase = some .copy ∧
        outward x.history = { taken := o.opening, phases := o.phases ++ [.connecting, .copy]
                              replies := o.replies, sent := o.replies.flatten, tried := tried })
    (hidle : x.conn.outBuff.content = []) (hcapacity : BUFF_MIN_LEN ≤ x.conn.outBuff.capacity)
    (hclient : env.send.takes x.conn.outBuff.capacity = true)
    (hreply : env.localAddr = ρ.localAddr ∧ env.junk.slice 4 IPV6_ADDR_SIZE = ρ.memory)
    (hsound : o.Sound) (hcomes : ρ.Comes o.named tried [SOCKS5_REP_SUCCEEDED]) :
    ∃ y, r = .alive y ∧ y.phase = some .copy ∧ o.Hands ρ y := by
  obtain ⟨hcontent, hshown⟩ := hqueued.accepts hidle hcapacity hreply
  obtain ⟨hleft, -, -, hin, -⟩ := hqueued.succeeding (c := c) hidle hcapacity
  obtain ⟨hconn, hucap, huphase, -⟩ := hqueued.fields
  have htakes : env.send.takes (u.succeeding c).conn.outBuff.capacity = true := by
    change env.send.takes u.conn.outBuff.capacity = true
    rw [hucap]
    exact hclient
  rcases hphase with ⟨hphase, herror, hxshown⟩ | ⟨hphase, hxshown⟩
  · have hconnecting : (u.succeeding c).phase = some .connecting := huphase.trans hphase
    obtain ⟨y, hadvance, -, hy⟩ := hwrote.whole hleft (by rw [hconnecting]; simp) htakes
    obtain ⟨relay, -, rfl⟩ := hadvance.of_connecting (by rw [hy]; exact hconnecting) (by
      rw [hy]
      change u.conn.isErrorResponse = false
      rw [hconn]
      exact herror)
    refine ⟨_, rfl, rfl, by rw [hy]; exact hin, hsound, [], [], tried, hcomes, ?_⟩
    have hhistory : y.history =
        (u.succeeding c).history ++ [.send c .client (u.succeeding c).conn.outBuff.content] := by
      rw [hy]
    simp [hhistory, hshown, hxshown, hcontent, ClientStream.relayed]
  · have hcopy : (u.succeeding c).phase = some .copy := huphase.trans hphase
    rcases hwrote.passes hcopy with ⟨-, e, hout⟩ | ⟨y, bytes, rfl, hyphase, hyin, hyshown, hbytes⟩
    · rw [hout] at htakes
      cases htakes
    · refine ⟨y, rfl, hyphase, by rw [hyin]; exact hin, hsound, [], [], tried, hcomes, ?_⟩
      simp [hyshown, hshown, hxshown, hbytes htakes, hcontent, ClientStream.relayed]

/-- What a dialogue comes to whose payload is handed on. -/
theorem ClientStream.Hands.follows (h : o.Hands ρ v) (hphase : v.phase = some .copy) :
    o.Follows ρ (.alive v) := by
  change o.Course ρ v
  simpa only [ClientStream.Course, hphase] using h

/-- What a notification comes to. -/
theorem Blocks.follows {env : Env} {fd : ℕ} {s : Server}
    (h : Blocks c env.junk env fds fd (v.notified c) r) (hphase : v.phase = some .connecting)
    (hwaiting : v.Waiting) (hcapacity : BUFF_MIN_LEN ≤ v.conn.outBuff.capacity)
    (hcourse : o.Course ρ v) (hplays : o.Plays ρ s v (.notify env))
    (hapart : o.Apart s v (.notify env)) : o.Follows ρ r := by
  obtain ⟨hfits, haddrs⟩ := hplays
  have hno := hwaiting.isErrorResponse
  obtain ⟨tried, hawaits⟩ : ∃ tried, o.Awaits ρ tried v := by
    simpa only [ClientStream.Course, hphase, hno, Bool.false_eq_true, if_false] using hcourse
  obtain rfl : tried = [] := hawaits.untried.mpr hwaiting.tokens
  have hconnects : env.connects = (ρ.answers []).connects := by
    have hanswer := hfits.answer
    rw [hawaits.shown] at hanswer
    exact congrArg ConnectAnswer.connects hanswer
  have hshown : outward (v.notified c).history =
      { taken := o.opening ++ v.conn.inBuff.content, phases := o.phases ++ [.connecting]
        replies := o.replies, sent := o.replies.flatten } := by
    simp [View.notified, hawaits.shown]
  have hwalked : outward ((v.notified c).history ++ dialHistory c fd v.conn.addrInfo env.connects) =
      { taken := o.opening ++ v.conn.inBuff.content, phases := o.phases ++ [.connecting]
        replies := o.replies, sent := o.replies.flatten
        tried := attempted ρ.addresses (ρ.answers []).connects } := by
    simp [hshown, outward_dialHistory, haddrs, hconnects]
  cases h with
  | noAddress w hnone hqueued =>
    obtain ⟨hreply, hrefused⟩ := hqueued.refuses hwaiting.outBuff hcapacity hfits.memory
    have hcomes : ρ.Comes o.named [] [SOCKS5_REP_HOST_UNREACHABLE] :=
      .noAddress hawaits.threadCreated (haddrs.symm.trans hnone)
    change o.Refuses ρ _
    refine ⟨hawaits.sound, v.conn.inBuff.content, SOCKS5_REP_HOST_UNREACHABLE, [], by decide,
      hreply, hcomes, ?_⟩
    simp [hrefused, hshown]
  | pending peer rest hdial =>
    change dial v.conn.addrInfo env.connects = _ at hdial
    have hdial' := hdial
    rw [haddrs, hconnects] at hdial'
    have hne : ρ.addresses ≠ [] := by
      rintro hnil
      rw [hnil] at hdial'
      cases hdial'
    refine ClientStream.Awaits.follows ⟨hawaits.sound,
      iff_of_false (attempted_ne_nil hne _) Nat.zero_ne_one, hawaits.threadCreated,
      fun _ final status hends => ?_, hwalked⟩ hphase hno
    refine .pending peer rest final status hawaits.threadCreated hdial' ?_
    simpa [View.dialed, View.notified, hdial, Dial.addrInfo, Dial.originFd] using hends
  | established peer w x y hdial hqueued hwrote hcopy =>
    change dial v.conn.addrInfo env.connects = _ at hdial
    have hempty : v.conn.inBuff.content = [] := by
      refine hapart.resolve_right fun hstands => ?_
      rw [hdial] at hstands
      cases hstands
    rw [hempty, List.append_nil] at hwalked
    obtain ⟨z, hz, hzphase, hhands⟩ := hwrote.hands hqueued (.inl ⟨hphase, hno, hwalked⟩)
      hwaiting.outBuff hcapacity hfits.client ⟨hfits.localAddr, hfits.memory⟩ hawaits.sound
      (.stands peer hawaits.threadCreated (by rw [← haddrs, ← hconnects]; exact hdial))
    obtain rfl := Result.alive.inj hz
    cases hcopy with
    | already _ => exact hhands.follows hzphase
    | jumps _ hconnecting => cases hconnecting.symm.trans hzphase

section Pending

variable {env : Env} {n : ℕ} {tried : List AddrInfo} {x : View}

/-- The walk of a callback shows the addresses it tries. -/
theorem outward_dialed (v : View) (c : ConnId) (n : ℕ) (outcomes : List ConnectOutcome)
    (relay : Option (FdHandler × FdInterest)) : outward (v.dialed c n outcomes relay).history =
      outward v.history ++ { tried := attempted v.conn.addrInfo outcomes } := by
  rw [View.dialed, outward_append, outward_dialHistory]

/-- A refusal starts from a walk that leaves no pending connect. -/
theorem RefusedFrom.walk (h : RefusedFrom c env n v x) :
    (dial v.conn.addrInfo env.connects).code ≠ CONNECTION_IN_PROGRESS ∧
      outward x.history =
        outward v.history ++ { tried := attempted v.conn.addrInfo env.connects } := by
  have hfailed : CONNECTION_FAILED ≠ CONNECTION_IN_PROGRESS := by decide
  have hstood : CONNECTION_SUCCESS ≠ CONNECTION_IN_PROGRESS := by decide
  rcases h with ⟨hnone, rfl⟩ | ⟨-, hdial, relay, rfl⟩
  · rw [hnone]
    exact ⟨hfailed, by simp [attempted]⟩
  · refine ⟨?_, outward_dialed v c n env.connects relay⟩
    rcases hdial with hdial | ⟨peer, hdial⟩
    · rw [hdial]
      exact hfailed
    · rw [hdial]
      exact hstood

/-- What a refusal notes first of a status is the one it registers. -/
theorem Queued.registers_first {status : UInt8} {kind : ReplyKind} {bytes : List UInt8}
    (h : Queued c kind bytes (x.registered c status env.now) w) (hfrom : RefusedFrom c env n v x) :
    ∃ rest, (w.history.drop v.history.length).flatMap Obs.statuses = status :: rest := by
  obtain ⟨walk, hwalk, hnone⟩ : ∃ t, x.history = v.history ++ t ∧ t.flatMap Obs.statuses = [] := by
    rcases hfrom with ⟨-, rfl⟩ | ⟨-, -, relay, rfl⟩
    · exact ⟨[], (List.append_nil _).symm, rfl⟩
    · exact ⟨_, rfl, statuses_dialHistory c n v.conn.addrInfo env.connects⟩
  have hregistered : (x.registered c status env.now).history =
      v.history ++ (walk ++ [.access c (x.accessCall status env.now)]) := by
    rw [View.registered, hwalk, List.append_assoc]
  cases h with
  | queued buff _ _ _ _ =>
    rw [hregistered, List.append_assoc, List.drop_left]
    simp [hnone, Obs.statuses, View.accessCall]
  | dropped _ =>
    rw [hregistered, List.drop_left]
    simp [hnone, Obs.statuses, View.accessCall]

/-- A pending connect was preceded by an attempt. -/
theorem ClientStream.Awaits.tried_ne_nil (h : o.Awaits ρ tried v) (hpending : v.Pending) :
    tried ≠ [] := fun hnil =>
  absurd (h.untried.mp hnil) (by rw [hpending.tokens]; exact Nat.zero_ne_one)

/-- A retry that is pending again is awaited like the attempt before it. -/
theorem ClientStream.Awaits.retried {e : Errno} {relay : Option (FdHandler × FdInterest)}
    (h : o.Awaits ρ tried v) (hphase : v.phase = some .connecting) (hpending : v.Pending)
    (hanswer : env.answer = ρ.answers tried) (hopen : v.conn.originFd ≠ -1)
    (herr : env.soError = some e)
    (hdial : dial v.conn.addrInfo env.connects = .noSocket ∨
      ∃ peer rest, dial v.conn.addrInfo env.connects = .pending peer rest) :
    o.Follows ρ (.alive (v.dialed c n env.connects relay)) := by
  have hsome := h.tried_ne_nil hpending
  have hconnects : env.connects = (ρ.answers tried).connects :=
    congrArg ConnectAnswer.connects hanswer
  have hsoError : env.soError = (ρ.answers tried).soError := congrArg ConnectAnswer.soError hanswer
  have hsocket : decide ((v.dialed c n env.connects relay).conn.originFd ≠ -1) =
      decide (dial v.conn.addrInfo env.connects ≠ .noSocket) := by
    rcases hdial with hdial | ⟨peer, rest, hdial⟩ <;> simp [View.dialed, hdial, Dial.originFd]
  have hcode : (dial v.conn.addrInfo env.connects).code = CONNECTION_IN_PROGRESS := by
    rcases hdial with hdial | ⟨peer, rest, hdial⟩ <;> rw [hdial] <;> rfl
  have hagain : o.Awaits ρ (tried ++ attempted v.conn.addrInfo env.connects)
      (v.dialed c n env.connects relay) := by
    refine ⟨h.sound, iff_of_false (by simp [hsome]) ?_, h.threadCreated,
      fun _ final status hends => h.leads hsome final status ?_, ?_⟩
    · change v.tokens ≠ 1
      rw [hpending.tokens]
      exact Nat.zero_ne_one
    · rw [hsocket] at hends
      rw [decide_eq_true hopen]
      rw [hconnects] at hcode hends
      exact .retried tried _ final e status (hsoError.symm.trans herr) hcode
        (by simpa [View.dialed, hconnects] using hends)
    · rw [outward_dialed, h.shown]
      simp [View.dialed]
  exact hagain.follows hphase hpending.isErrorResponse

/-- A pending connect that is given up is refused with the status its answers name. -/
theorem ClientStream.Awaits.refused {e e' : Errno} (h : o.Awaits ρ tried v)
    (hphase : v.phase = some .connecting) (hpending : v.Pending)
    (hcapacity : BUFF_MIN_LEN ≤ v.conn.outBuff.capacity) (hanswer : env.answer = ρ.answers tried)
    (hmemory : env.junk.slice 4 IPV6_ADDR_SIZE = ρ.memory) (hopen : v.conn.originFd ≠ -1)
    (herr : env.soError = some e) (hfrom : RefusedFrom c env n v x)
    (hqueued : Queued c (.connReq (getCode e')) (connReqErrorReply (getCode e') env.junk)
      (x.registered c (getCode e') env.now) w)
    (hcode : ∃ rest, (w.history.drop v.history.length).flatMap Obs.statuses =
      refusalCode v.conn env env.errno :: rest) : o.Follows ρ (.alive w.refusing) := by
  have hsome := h.tried_ne_nil hpending
  have hconnects : env.connects = (ρ.answers tried).connects :=
    congrArg ConnectAnswer.connects hanswer
  have hsoError : env.soError = (ρ.answers tried).soError := congrArg ConnectAnswer.soError hanswer
  obtain ⟨hphase₁, -, -, hout₁, -⟩ := hfrom.fields
  obtain ⟨hdial, hshown⟩ := hfrom.walk
  obtain ⟨-, -, hwphase, -⟩ := hqueued.fields
  obtain ⟨hreply, hrefused⟩ := hqueued.refuses (by rw [hout₁]; exact hpending.outBuff)
    (by rw [hout₁]; exact hcapacity) hmemory
  have hstatus : getCode e' = (ρ.answers tried).refusal v.conn.addrInfo := by
    obtain ⟨rest, hrest⟩ := hcode
    obtain ⟨t, ht⟩ := hqueued.registers_first hfrom
    rw [← hanswer, ← refusalCode_eq]
    exact List.head_eq_of_cons_eq (ht.symm.trans hrest)
  have hcomes : ρ.Comes o.named (tried ++ attempted v.conn.addrInfo env.connects) [getCode e'] := by
    refine h.leads hsome _ _ ?_
    rw [decide_eq_true hopen, hstatus, hconnects]
    exact .refused tried _ e (hsoError.symm.trans herr) (hconnects ▸ hdial)
  have hconnecting : w.refusing.phase = some .connecting := hwphase.trans (hphase₁.trans hphase)
  change o.Course ρ w.refusing
  rw [ClientStream.Course, hconnecting]
  change o.Refuses ρ _
  refine ⟨h.sound, v.conn.inBuff.content, getCode e', _, getCode_ne_succeeded e', hreply, hcomes, ?_⟩
  change outward w.history = _
  simp [hrefused, hshown, h.shown, hsome]

/-- What the end of a pending connect comes to. -/
theorem Connects.follows (h : Connects c env.junk env fds n v r)
    (hphase : v.phase = some .connecting) (hpending : v.Pending)
    (hcapacity : BUFF_MIN_LEN ≤ v.conn.outBuff.capacity) (hcourse : o.Course ρ v)
    (hfits : env.Fits ρ v)
    (hempty : v.conn.inBuff.content = [] ∨ v.conn.originFd ≠ -1 ∧ env.soError ≠ none)
    (hcode : ∀ w e, r = .alive w → EndsRefused v.conn env e → ∃ rest,
      (w.history.drop v.history.length).flatMap Obs.statuses =
        refusalCode v.conn env env.errno :: rest) : o.Follows ρ r := by
  obtain ⟨tried, hawaits⟩ : ∃ tried, o.Awaits ρ tried v := by
    simpa only [ClientStream.Course, hphase, hpending.isErrorResponse, Bool.false_eq_true, if_false]
      using hcourse
  have hanswer : env.answer = ρ.answers tried := by
    have hanswer := hfits.answer
    rwa [hawaits.shown] at hanswer
  cases h with
  | retried e relay hopen herr hleft hdial hrelay =>
    exact hawaits.retried hphase hpending hanswer hopen herr hdial
  | refused x w e e' hopen herr hfrom hqueued =>
    have hfrom' : RefusedFrom c env n v x := hfrom
    exact hawaits.refused hphase hpending hcapacity hanswer hfits.memory hopen herr hfrom' hqueued
      (hcode w.refusing e rfl ⟨hopen, herr, hfrom'.walk.1⟩)
  | established table w r relay _ hstands _ hqueued hwrote =>
    have hin : v.conn.inBuff.content = [] := by
      refine hempty.resolve_right fun hneither => ?_
      exact hstands.elim hneither.1 hneither.2
    have hstanding : outward (v.standing c relay).history =
        { taken := o.opening, phases := o.phases ++ [.connecting, .copy]
          replies := o.replies, sent := o.replies.flatten, tried := tried } := by
      simp only [View.standing]
      split <;> simp [hawaits.shown, hin]
    have hcomes : ρ.Comes o.named tried [SOCKS5_REP_SUCCEEDED] := by
      refine hawaits.leads (hawaits.tried_ne_nil hpending) _ _ (.stands _ _ _ fun hset => ?_)
      rw [← hanswer]
      exact hstands.resolve_left (of_decide_eq_true hset)
    obtain ⟨y, rfl, hyphase, hhands⟩ := hwrote.hands hqueued (.inr ⟨rfl, hstanding⟩)
      hpending.outBuff hcapacity hfits.client ⟨hfits.localAddr, hfits.memory⟩ hawaits.sound hcomes
    exact hhands.follows hyphase

end Pending

/-- A resolution is awaited like the connection. -/
theorem ClientStream.Awaits.resolved {tried : List AddrInfo} (h : o.Awaits ρ tried v)
    (hphase : v.phase = some .connecting) (hwaiting : v.Waiting) (res : List AddrInfo) :
    o.Follows ρ (.alive (View.resolved { v with tokens := 0 } c res)) := by
  have hnone := h.untried.mpr hwaiting.tokens
  refine ClientStream.Awaits.follows ⟨h.sound, iff_of_true hnone rfl, h.threadCreated,
    fun hne => absurd hnone hne, ?_⟩ hphase hwaiting.isErrorResponse
  simp [View.resolved, h.shown]

/-- What is sent to the client of a relay leaves the relay as it is. -/
theorem Wrote.hands_on (h : Wrote c junk fds v out r) (hhands : o.Hands ρ v)
    (hphase : v.phase = some .copy) : o.Follows ρ r := by
  obtain ⟨hempty, hsound, payload, more, tried, hcomes, hshown⟩ := hhands
  rcases h.passes hphase with ⟨rfl, -⟩ | ⟨w, bytes, rfl, hwphase, hin, hwshown, -⟩
  · change o.Settled ρ (outward (v.history ++ [.released c]))
    simpa [hshown] using ClientStream.settled_relayed hsound hcomes payload more
  · have hhands : o.Hands ρ w := by
      refine ⟨by rw [hin]; exact hempty, hsound, payload, more ++ bytes, tried, hcomes, ?_⟩
      simp [hwshown, hshown, ClientStream.relayed]
    exact hhands.follows hwphase

/-- Bytes from the origin leave the relay as it is. -/
theorem CopyReceived.follows {env : Env} (h : CopyReceived c junk v env r) (hhands : o.Hands ρ v)
    (hphase : v.phase = some .copy) : o.Follows ρ r := by
  have hsame := hhands
  obtain ⟨hempty, hsound, payload, more, tried, hcomes, hshown⟩ := hhands
  cases h with
  | full _ => exact ClientStream.Hands.follows ⟨hempty, hsound, hsame.shown⟩ hphase
  | received table first rest buff r _ _ _ _ hwrote =>
    exact hwrote.hands_on
      ⟨hempty, hsound, payload, more, tried, hcomes, by simp [hshown]⟩ hphase
  | ended _ _ =>
    exact ClientStream.Hands.follows
      ⟨hempty, hsound, payload, more, tried, hcomes, by simp [hshown]⟩ hphase
  | blocked _ _ => exact hsame.follows hphase
  | broken e _ _ _ =>
    change o.Settled ρ (outward (v.history ++ [.released c]))
    simpa [hshown] using ClientStream.settled_relayed hsound hcomes payload more

/-- A piece of the payload is handed on whole. -/
theorem CopyRead.follows {buff : Buffer} {s : Server}
    (h : CopyRead c s (v.received c buff chunk) out r) (hhands : o.Hands ρ v)
    (hphase : v.phase = some .copy) (hbuff : buff.content = chunk) (hnonempty : chunk ≠ [])
    (htakes : out.takes buff.capacity = true) (hregistered : OriginRegistered s v.conn) :
    o.Follows ρ r := by
  obtain ⟨-, hsound, payload, more, tried, hcomes, hshown⟩ := hhands
  cases h with
  | unregistered hunreg => exact absurd hregistered hunreg
  | relayed r _ _ hwrote =>
    cases hwrote with
    | idle hempty => exact absurd (hbuff.symm.trans hempty) hnonempty
    | blocked _ hout => rw [hout] at htakes; cases htakes
    | broken _ hout =>
      rcases hout with rfl | ⟨e, rfl, -⟩
      · cases htakes
      · cases htakes
    | delivered n left _ hout hcontent hcapacity =>
      rw [hout] at htakes
      have hall : buff.content.length ≤ n + 1 :=
        (Buffer.length_content_le _).trans (of_decide_eq_true htakes)
      refine ClientStream.Hands.follows ⟨?_, hsound, payload ++ chunk, more, tried, hcomes, ?_⟩ hphase
      · change (bufferCompact left).content = []
        rw [Buffer.content_bufferCompact, hcontent]
        exact List.drop_eq_nil_of_le hall
      · have hbytes : buff.content.take (n + 1) = chunk := by rw [List.take_of_length_le hall, hbuff]
        simp [View.delivered, View.received, hshown, hbytes, ClientStream.relayed]

/-- A refusal that is sent ends the dialogue. -/
theorem Wrote.refusal_follows (h : Wrote c junk fds v out r) (hrefuses : o.Refuses ρ v)
    (hphase : v.phase = some .connectionReq ∨ v.phase = some .connecting)
    (herror : v.conn.isErrorResponse = true) (hleft : v.conn.outBuff.content ≠ [])
    (htakes : out.takes v.conn.outBuff.capacity = true) : o.Follows ρ r := by
  obtain ⟨hsound, extra, status, tried, hstatus, hreply, hcomes, hshown⟩ := hrefuses
  obtain ⟨w, hadvance, -, hw⟩ := h.whole hleft (by rcases hphase with h | h <;> simp [h]) htakes
  have hwerror : w.conn.isErrorResponse = true := by rw [hw]; exact herror
  have hwshown : w.history = v.history ++ [.send c .client v.conn.outBuff.content] := by rw [hw]
  cases hadvance with
  | refused state _ _ _ =>
    change o.Settled ρ (outward (w.history ++ [.enter c .error, .released c]))
    have hanswer : ClientStream.answer ρ [status] = [ρ.refuses status] := by
      rw [ClientStream.answer, if_neg hstatus]
    have hnot : [status] ≠ [SOCKS5_REP_SUCCEEDED] := fun h => hstatus (List.head_eq_of_cons_eq h)
    have hgone : outward (w.history ++ [.enter c .error, .released c]) =
        { taken := o.opening ++ extra, phases := o.phases ++ ClientStream.ending tried [status]
          replies := o.replies ++ ClientStream.answer ρ [status]
          sent := (o.replies ++ ClientStream.answer ρ [status]).flatten
          tried := tried, entries := [status] } := by
      rw [hwshown, outward_append, outward_append, hshown, hreply, hanswer, ClientStream.ending,
        if_neg hstatus]
      split <;> simp
    rw [hgone]
    exact ClientStream.settled_opening extra hsound hcomes List.prefix_rfl (if_neg hnot).symm
  | auth _ _ herror' => cases hwerror.symm.trans herror'
  | connectionReq _ _ herror' => cases hwerror.symm.trans herror'
  | copy _ _ _ herror' => cases hwerror.symm.trans herror'

/-- A client is written to before the relay only where a refusal is sent. -/
theorem ClientStream.Course.refuses (hcourse : o.Course ρ v) (hok : v.Ok c)
    (hready : v.interest.write = true) (hphase : v.phase ≠ some .copy) :
    o.Refuses ρ v ∧ (v.phase = some .connectionReq ∨ v.phase = some .connecting) ∧
      v.conn.isErrorResponse = true ∧ v.conn.outBuff.content ≠ [] := by
  have hphaseOk := hok.phase
  cases hstate : v.phase with
  | none =>
    simp only [View.PhaseOk, hstate] at hphaseOk
    rw [hphaseOk.2.2.1] at hready
    cases hready
  | some state =>
    cases state with
    | handshake =>
      simp only [View.PhaseOk, hstate] at hphaseOk
      obtain ⟨front, hfront⟩ : ∃ front, o.AtGreeting front v := by
        simpa only [ClientStream.Course, hstate] using hcourse
      exact absurd hfront.outBuff (hphaseOk.2.1.outBuff_ne_nil hready)
    | auth =>
      simp only [View.PhaseOk, hstate] at hphaseOk
      obtain ⟨front, hfront⟩ : ∃ front, o.AtAuth front v := by
        simpa only [ClientStream.Course, hstate] using hcourse
      exact absurd hfront.outBuff (hphaseOk.armed.outBuff_ne_nil hready)
    | connectionReq =>
      simp only [View.PhaseOk, hstate] at hphaseOk
      simp only [ClientStream.Course, hstate] at hcourse
      rcases hphaseOk.reply with ⟨herror, -, harmed⟩ | ⟨herror, hleft, -⟩
      · rw [if_neg (by simp [herror])] at hcourse
        obtain ⟨front, hfront⟩ := hcourse
        exact absurd hfront.outBuff (harmed.outBuff_ne_nil hready)
      · rw [if_pos herror] at hcourse
        exact ⟨hcourse, .inl rfl, herror, hleft⟩
    | connecting =>
      simp only [View.PhaseOk, hstate] at hphaseOk
      simp only [ClientStream.Course, hstate] at hcourse
      rcases hphaseOk with hwaiting | hpending | hrefused
      · rw [hwaiting.interest] at hready
        cases hready
      · rw [hpending.interest] at hready
        cases hready
      · rw [if_pos hrefused.isErrorResponse] at hcourse
        exact ⟨hcourse, .inr rfl, hrefused.isErrorResponse, hrefused.outBuff⟩
    | copy => exact absurd hstate hphase
    | done => simp only [View.PhaseOk, hstate] at hphaseOk
    | error => simp only [View.PhaseOk, hstate] at hphaseOk

/-- A client that is read in the greeting has nothing waiting in its buffers. -/
theorem View.Ok.listens (hok : v.Ok c) (hready : v.interest.read = true)
    (hphase : v.phase = none ∨ v.phase = some .handshake) :
    v.conn.inBuff.content = [] ∧ v.conn.outBuff.content = [] := by
  have hphaseOk := hok.phase
  rcases hphase with hphase | hphase
  · simp only [View.PhaseOk, hphase] at hphaseOk
    exact ⟨hphaseOk.1.inBuff, hphaseOk.2.1⟩
  · simp only [View.PhaseOk, hphase] at hphaseOk
    exact ⟨hphaseOk.1.inBuff, hphaseOk.2.1.outBuff_eq_nil hready⟩

/-- A client that is read in the request phase was not refused, and nothing waits to be read. -/
theorem View.Requesting.listens (h : v.Requesting) (hready : v.interest.read = true) :
    v.conn.isErrorResponse = false ∧ v.conn.inBuff.content = [] := by
  have hno := h.not_refused hready
  rcases h.reply with ⟨-, hempty, -⟩ | ⟨herror, -⟩
  · exact ⟨hno, hempty⟩
  · exact absurd herror (by simp [hno])

/-- Every reaction to an event of a client that plays its stream and keeps its messages apart goes
on with the dialogue. -/
theorem Reaction.follows {s : Server} {e : Event} (h : Reaction s c v e r) (hok : v.Ok c)
    (hplays : o.Plays ρ s v e) (hapart : o.Apart s v e) (hcourse : o.Course ρ v)
    (hcode : ∀ fd env i err w, e = .writable fd env →
      (s.selector.fds fd).relayOf c = some (.connectingHandler, i) → EndsRefused v.conn env err →
      r = .alive w → ∃ rest, (w.history.drop v.history.length).flatMap Obs.statuses =
        refusalCode v.conn env env.errno :: rest) : o.Follows ρ r := by
  have hphaseOk := hok.phase
  cases h with
  | greets fd env r hitem hready hphase hread =>
    obtain ⟨hfits, hstream⟩ := hplays
    obtain ⟨hgoes, hbegins, -⟩ := hstream hitem.1
    obtain ⟨hcuts, -⟩ := hapart hitem.1
    obtain ⟨hempty, hidle⟩ := hok.listens hready hphase
    rcases hread.arrives hempty hok.inCapacity hgoes with
      rfl | ⟨buff, chunk, rfl, hne, -, hbuff, -, hgreets⟩
    · exact hcourse
    · exact hgreets.follows hphase hcourse hidle hok.outCapacity hfits.client hbuff hne hbegins hcuts
  | authenticates fd env r hitem hready hphase hread =>
    obtain ⟨hfits, hstream⟩ := hplays
    obtain ⟨hgoes, hbegins, hknown⟩ := hstream hitem.1
    obtain ⟨hcuts, -⟩ := hapart hitem.1
    simp only [View.PhaseOk, hphase] at hphaseOk
    rcases hread.arrives hphaseOk.early.inBuff hok.inCapacity hgoes with
      rfl | ⟨buff, chunk, rfl, hne, -, hbuff, -, hreads⟩
    · exact hcourse
    · obtain ⟨front, hfront⟩ : ∃ front, o.AtAuth front v := by
        simpa only [ClientStream.Course, hphase] using hcourse
      exact hreads.follows hphase hfront hok.outCapacity hfits.client hbuff hbegins hcuts
        (hknown hphase)
  | requests fd env r hitem hready hphase hread =>
    obtain ⟨hfits, hstream⟩ := hplays
    obtain ⟨hgoes, hbegins, -⟩ := hstream hitem.1
    simp only [View.PhaseOk, hphase] at hphaseOk
    obtain ⟨hno, hempty⟩ := hphaseOk.listens hready
    rcases hread.arrives hempty hok.inCapacity hgoes with
      rfl | ⟨buff, chunk, rfl, hne, -, hbuff, -, hreads⟩
    · exact hcourse
    · obtain ⟨front, hfront⟩ : ∃ front, o.AtRequest front v := by
        simpa only [ClientStream.Course, hphase, hno, Bool.false_eq_true, if_false] using hcourse
      exact hreads.follows hphase hno hphaseOk.tokens hfront hbuff hbegins hfits.threadCreated
  | relays fd env r hitem hready hphase hread =>
    obtain ⟨hfits, hstream⟩ := hplays
    obtain ⟨hgoes, -⟩ := hstream hitem.1
    obtain ⟨-, hregistered⟩ := hapart hitem.1
    have hhands : o.Hands ρ v := by simpa only [ClientStream.Course, hphase] using hcourse
    rcases hread.arrives hhands.inBuff hok.inCapacity hgoes with
      rfl | ⟨buff, chunk, rfl, hne, hdata, hbuff, hcap, hreads⟩
    · exact hcourse
    · exact hreads.follows hhands hphase hbuff hne (hcap ▸ hfits.origin) (hregistered hphase hdata)
  | sends table fd env r hitem hready hwrote =>
    by_cases hphase : v.phase = some .copy
    · exact hwrote.hands_on (by simpa only [ClientStream.Course, hphase] using hcourse) hphase
    · obtain ⟨hrefuses, hphase', herror, hleft⟩ := hcourse.refuses hok hready hphase
      exact hwrote.refusal_follows hrefuses hphase' herror hleft hplays.client
  | blocks env r hphase hwaiting hblocks =>
    exact hblocks.follows hphase hwaiting hok.outCapacity hcourse hplays hapart
  | resolves env hphase hwaiting =>
    obtain ⟨tried, hawaits⟩ : ∃ tried, o.Awaits ρ tried v := by
      simpa only [ClientStream.Course, hphase, hwaiting.isErrorResponse, Bool.false_eq_true, if_false]
        using hcourse
    exact hawaits.resolved hphase hwaiting env.resolved
  | connects fd env r i hitem hset _ hconnects =>
    obtain ⟨hphase, hno, hempty⟩ := hapart (relayOf_eq_some_iff.mp hitem).2.1
    simp only [View.PhaseOk, hphase] at hphaseOk
    rcases hphaseOk with hwaiting | hpending | hrefused
    · exact absurd hwaiting.originFd hset
    · exact hconnects.follows hphase hpending hok.outCapacity hcourse hplays hempty
        (fun w e hw hends => hcode fd env i e w rfl hitem hends hw)
    · exact absurd hrefused.isErrorResponse (by simp [hno])
  | receives fd env r i horigin hrelay hready hphase hreceived =>
    exact hreceived.follows (by simpa only [ClientStream.Course, hphase] using hcourse) hphase
  | delivers fd env r i horigin hrelay hready hphase hwrote =>
    have hhands : o.Hands ρ v := by simpa only [ClientStream.Course, hphase] using hcourse
    cases hwrote with
    | idle _ => exact ClientStream.Hands.follows ⟨hhands.inBuff, hhands.sound, hhands.shown⟩ hphase
    | blocked hleft _ => exact absurd hhands.inBuff hleft
    | delivered _ _ hleft _ _ _ => exact absurd hhands.inBuff hleft
    | broken hleft _ => exact absurd hhands.inBuff hleft

section Runs

variable {s : Server}

/-- The status a pending connect is refused with is named by the answers to the callback. -/
theorem Inv.refusal_status (hinv : Inv s) {s' : Server} {fd : ℕ} {env : Env} {i : FdInterest}
    {e : Errno} (hview : s.view c = some v) (hview' : s'.view c = some w)
    (hitem : (s.selector.fds fd).relayOf c = some (.connectingHandler, i))
    (hends : EndsRefused v.conn env e) (hstep : Socks5d.step s (.writable fd env) = .ok s') : ∃ rest,
      (w.history.drop v.history.length).flatMap Obs.statuses =
        refusalCode v.conn env env.errno :: rest := by
  obtain ⟨hconn, -, -, -, -, hhistory⟩ := view_eq_some_iff.mp hview
  obtain ⟨-, -, -, -, -, hhistory'⟩ := view_eq_some_iff.mp hview'
  obtain ⟨s'', hs'', hanswers⟩ := hinv.refusal hitem hconn hends
  obtain rfl := Except.ok.inj (hs''.symm.trans hstep)
  rw [AnswersWith, hhistory, hhistory'] at hanswers
  exact ⟨_, hanswers⟩

/-- In every run in which a client plays its stream and its messages are kept apart, its dialogue has
come as far as the bytes that were taken and the outcome of its connect say. -/
theorem ReachableUnder.follows (h : ReachableUnder (o.KeptApart ρ c) s) :
    (∃ v, s.view c = some v ∧ o.Course ρ v) ∨
      s.view c = none ∧ (s.history c = [] ∨ o.Settled ρ (outward (s.history c))) := by
  have hreact : ∀ s e v r, ReachableUnder (o.KeptApart ρ c) s → o.KeptApart ρ c s e →
      e.target s = some c → s.view c = some v → o.Course ρ v → Reaction s c v e r →
      (∀ fd env i err w, e = .writable fd env →
        (s.selector.fds fd).relayOf c = some (.connectingHandler, i) → EndsRefused v.conn env err →
        r = .alive w → ∃ rest, (w.history.drop v.history.length).flatMap Obs.statuses =
          refusalCode v.conn env env.errno :: rest) → o.Follows ρ r := by
    intro s e v r hreach hg htarget hview hcourse hr hcode
    exact hr.follows (hreach.reachable.inv.ok c v hview) (hg.1 v hview htarget)
      (hg.2 v hview htarget) hcourse hcode
  have hfates := h.fates (P := fun d v => d = c → o.Course ρ v)
    (Q := fun d history => d = c → o.Settled ρ (outward history))
    (fun d _ => ClientStream.settled_nothing)
    (fun d v hv _ => by
      rw [ClientStream.Course, hv.phase, hv.history]
      rfl)
    (fun s e s' d v w hreach hg hstep htarget hview hview' hv hr hd => by
      subst hd
      refine hreact s e v (.alive w) hreach hg htarget hview (hv rfl) hr ?_
      rintro fd env i err u rfl hitem hends hu
      obtain rfl := Result.alive.inj hu
      exact hreach.reachable.inv.refusal_status hview hview' hitem hends hstep)
    (fun s e d v history hreach hg htarget hview hv hr hd => by
      subst hd
      refine hreact s e v (.gone history) hreach hg htarget hview (hv rfl) hr ?_
      rintro fd env i err u - - - hu
      cases hu)
  rcases hfates c with ⟨v, hview, hcourse⟩ | ⟨hnone, hnil | hsettled⟩
  · exact .inl ⟨v, hview, hcourse rfl⟩
  · exact .inr ⟨hnone, .inl hnil⟩
  · exact .inr ⟨hnone, .inr (hsettled rfl)⟩

/-- A client that keeps its messages apart, and offers a method that can be met, is read without
harm. -/
theorem ReachableUnder.reads_on (h : ReachableUnder (o.KeptApart ρ c) s) {fd : ℕ} {env : Env}
    (he : enabled s (.readable fd env) = true) (hg : o.KeptApart ρ c s (.readable fd env))
    (hitem : (s.selector.fds fd).isClientOf c)
    (hmethod : o.method ≠ SOCKS5_AUTH_METHOD_NO_ACCEPTABLE) :
    ∃ s', step s (.readable fd env) = .ok s' := by
  have hinv := h.reachable.inv
  have hdispatch : Holds (Explained s (.readable fd env)) (step s (.readable fd env))
      (Effect ⟨true, false⟩ s (.readable fd env)) :=
    dispatch_explained hinv he (.inl rfl) (by simp)
  cases hs : step s (.readable fd env) with
  | ok s' => exact ⟨s', rfl⟩
  | error f =>
    rcases hdispatch.fault hs with ⟨-, hhazard⟩ | ⟨-, hun⟩
    · have htarget : (Event.readable fd env).target s = some c := hitem.2
      have hcame : ∀ k, s.conns c = some k → ∃ v, s.view c = some v ∧ v.conn = k ∧
          (∀ phase, s.stms c = some ⟨phase⟩ → v.phase = phase) ∧ o.Course ρ v := by
        intro k hk
        rcases h.follows with ⟨v, hview, hcourse⟩ | ⟨hnone, -⟩
        · obtain ⟨hconn, hstm, -⟩ := view_eq_some_iff.mp hview
          refine ⟨v, hview, Option.some.inj (hconn.symm.trans hk), fun phase hphase => ?_, hcourse⟩
          simpa using hstm.symm.trans hphase
        · have hsome := hinv.owned.view_isSome c
          rw [hnone, hk] at hsome
          cases hsome
      cases hhazard with
      | greeting _ _ d k first rest p hclient hconn hphase hrecv hhaz =>
        obtain rfl := Option.some.inj (hitem.2.symm.trans hclient.2)
        obtain ⟨v, hview, rfl, hstm, hcourse⟩ := hcame k hconn
        exact (hcourse.greets_on (hinv.ok _ v hview) (hg.1 v hview htarget) (hg.2 v hview htarget)
          hitem hmethod (hphase.imp (And.imp_left (hstm _)) (And.imp_left (hstm _))) hrecv hhaz).elim
      | subnegotiation _ _ d k first rest p hclient hconn hphase hparser hrecv hhaz =>
        obtain rfl := Option.some.inj (hitem.2.symm.trans hclient.2)
        obtain ⟨v, hview, rfl, hstm, hcourse⟩ := hcame k hconn
        exact (hcourse.authenticates_on (hinv.ok _ v hview) (hg.1 v hview htarget)
          (hg.2 v hview htarget) hitem (hstm _ hphase) hparser hrecv hhaz).elim
      | relay _ _ d k first rest hclient hconn hphase hrecv horigin hsend =>
        obtain rfl := Option.some.inj (hitem.2.symm.trans hclient.2)
        obtain ⟨v, hview, rfl, hstm, hcourse⟩ := hcame k hconn
        obtain ⟨n, hout, -⟩ := SendOutcome.accepted_of_takes (hg.1 v hview htarget).1.client
        rw [hout] at hsend
        simp [FatalSend] at hsend
      | orphan fd' env' d r' _ heq hitem' hconn =>
        rcases heq with heq | heq
        · obtain ⟨rfl, rfl⟩ := Event.readable.inj heq
          simp [Item.relayOf, hitem.1, FdHandler.isRelay] at hitem'
        · cases heq
    · exact absurd (hitem.1.symm.trans hun) (by simp)

/-- The dialogue of a client is settled by the bytes it has sent so far: they were taken, or it ended
in an error before, and no answer is outstanding. -/
structure Server.DealsWith (s : Server) (c : ConnId) (front : List UInt8) : Prop where
  taken : (outward (s.history c)).taken = front ∨
    (outward (s.history c)).taken <+: front ∧ .error ∈ (outward (s.history c)).phases
  answered : ∀ v, s.view c = some v → v.phase ≠ some .connecting ∧ v.conn.isErrorResponse = false

/-- A dialogue in which no answer is outstanding is settled. -/
theorem ClientStream.Course.settled (h : o.Course ρ v)
    (hanswered : v.phase ≠ some .connecting ∧ v.conn.isErrorResponse = false) :
    o.Settled ρ (outward v.history) := by
  obtain ⟨hconnecting, hno⟩ := hanswered
  cases hphase : v.phase with
  | none =>
    have hempty : outward v.history = {} := by simpa only [ClientStream.Course, hphase] using h
    rw [hempty]
    exact ClientStream.settled_nothing
  | some state =>
    simp only [ClientStream.Course, hphase, hno, Bool.false_eq_true, if_false] at h
    cases state with
    | handshake =>
      obtain ⟨front, hfront⟩ := h
      exact hfront.settled
    | auth =>
      obtain ⟨front, hfront⟩ := h
      exact hfront.settled
    | connectionReq =>
      obtain ⟨front, hfront⟩ := h
      exact hfront.settled
    | connecting => exact absurd hphase hconnecting
    | copy =>
      obtain ⟨-, hsound, payload, more, tried, hcomes, hshown⟩ := h
      rw [hshown]
      exact ClientStream.settled_relayed hsound hcomes payload more
    | done => exact h.elim
    | error => exact h.elim

/-- Where nothing is outstanding, what is shown is settled. -/
theorem ReachableUnder.settles (h : ReachableUnder (o.KeptApart ρ c) s)
    (hanswered : ∀ v, s.view c = some v →
      v.phase ≠ some .connecting ∧ v.conn.isErrorResponse = false) :
    o.Settled ρ (outward (s.history c)) := by
  rcases h.follows with ⟨v, hview, hcourse⟩ | ⟨-, hnil | hsettled⟩
  · obtain ⟨-, -, -, -, -, hhistory⟩ := view_eq_some_iff.mp hview
    rw [hhistory]
    exact hcourse.settled (hanswered v hview)
  · rw [hnil]
    exact ClientStream.settled_nothing
  · exact hsettled

/-- Two dialogues that have dealt with the same bytes show the same. -/
theorem ClientStream.Settled.agree_of_dealt {w w' : Outward} (h : o.Settled ρ w) (h' : o.Settled ρ w')
    (hdealt : w.taken = front ∨ w.taken <+: front ∧ .error ∈ w.phases)
    (hdealt' : w'.taken = front ∨ w'.taken <+: front ∧ .error ∈ w'.phases) :
    w.phases = w'.phases ∧ w.replies = w'.replies ∧ w.handed = w'.handed := by
  have hbegins : w.taken <+: front := hdealt.elim (fun h => h ▸ List.prefix_rfl) And.left
  have hbegins' : w'.taken <+: front := hdealt'.elim (fun h => h ▸ List.prefix_rfl) And.left
  -- the one that took less has ended in an error, or there is nothing more
  have hless : ∀ {x y : Outward}, x.taken <+: y.taken → y.taken <+: front →
      (x.taken = front ∨ x.taken <+: front ∧ .error ∈ x.phases) →
      x.taken = y.taken ∨ .error ∈ x.phases := by
    intro x y hxy hy hx
    refine hx.imp (fun heq => ?_) And.right
    exact hxy.eq_of_length_le (heq ▸ hy.length_le)
  rcases Nat.le_total w.taken.length w'.taken.length with hle | hle
  · have hshorter := List.prefix_of_prefix_length_le hbegins hbegins' hle
    exact h.agree h' hshorter (hless hshorter hbegins' hdealt)
  · have hshorter := List.prefix_of_prefix_length_le hbegins' hbegins hle
    obtain ⟨hphases, hreplies, hhanded⟩ := h'.agree h hshorter (hless hshorter hbegins hdealt')
    exact ⟨hphases.symm, hreplies.symm, hhanded.symm⟩

end Runs

/-- A user asks for an address, and sends two bytes to whoever is there. -/
def userStream : ClientStream where
  methods := [0, 2]
  name := [97]
  pass := [120]
  atyp := SOCKS5_CONN_REQ_ATYP_IPV4
  addr := [127, 0, 0, 1]
  port := 80
  payload := [7, 8]
  isField_methods := ⟨by decide, by decide⟩
  isField_name := ⟨by decide, by decide⟩
  isField_pass := ⟨by decide, by decide⟩
  isAddress := .inl ⟨rfl, rfl⟩

/-- The connection to the address stands at once. -/
def atOnce : Setting where
  threadCreated := true
  addresses := [loopback]
  answers _ := ⟨[.connected], none, .other 0⟩
  localAddr := anyAddr
  memory := List.replicate 16 0

/-- Everything is taken, and the connection stands at once. -/
def taking : Env where
  sends := [.accepted 4095]
  connects := [.connected]
  resolved := [loopback]

/-- The first client sends this, and everything it is sent is taken. -/
def sendsOn (first : UInt8) (rest : List UInt8) : Event :=
  .readable 2 { taking with recv := .data first rest }

/-- The user is known, and sends its greeting and its credentials one after the other. -/
def loggedIn : List Event :=
  [.configure (authAddUser authInit [97] [120]).2 4096 500, arrives, sendsOn 5 [2, 0, 2],
    sendsOn 1 [1, 97, 1, 120]]

/-- The request in one piece, and the payload once the connection stands. -/
def inOnePiece : List Event :=
  loggedIn ++ [sendsOn 5 [1, 0, 1, 127, 0, 0, 1, 0, 80], .notify taking, sendsOn 7 [8]]

/-- Every message and the payload in two pieces. -/
def inPieces : List Event :=
  [.configure (authAddUser authInit [97] [120]).2 4096 500, arrives, sendsOn 5 [2], sendsOn 0 [2],
    sendsOn 1 [1, 97], sendsOn 1 [120], sendsOn 5 [1, 0, 1], sendsOn 127 [0, 0, 1, 0, 80],
    .notify taking, sendsOn 7 [], sendsOn 8 []]

/-- The payload comes with the end of the request. -/
def inOneGo : List Event :=
  loggedIn ++ [sendsOn 5 [1, 0, 1, 127, 0, 0, 1, 0, 80, 7, 8], .notify taking]

instance (s : Server) (c : ConnId) (front : List UInt8) : Decidable (s.DealsWith c front) :=
  decidable_of_iff
    (((outward (s.history c)).taken = front ∨
        (outward (s.history c)).taken <+: front ∧ .error ∈ (outward (s.history c)).phases) ∧
      ∀ v ∈ s.view c, v.phase ≠ some .connecting ∧ v.conn.isErrorResponse = false)
    ⟨fun h => ⟨h.1, h.2⟩, fun h => ⟨h.1, h.2⟩⟩

end Socks5d
