import Socks5d.Invariant

/-!
# Isolation of connections

What a callback may change outside its own connection. The records, state machines and
descriptors of the others are always left alone; the descriptor table is as well, except that
`origin_fd` of a connection that never dialled is 0, the number of the first listener, and two
callbacks set the interest of `origin_fd` without looking at it.
-/

namespace Socks5d

open GuardedRun Fallible

/-- The interest `copy_read` leaves at `origin_fd`: it asks for writability, and for
readability once everything was sent. -/
def forwardInterest (content : List UInt8) : SendOutcome → FdInterest
  | .accepted n => if content.length ≤ n + 1 then OP_READ else OP_WRITE
  | _ => OP_WRITE

/-- The interest the callback gives descriptor 0 through an unset `origin_fd`, if it does. -/
def Event.zeroInterest (s : Server) (e : Event) : Option FdInterest :=
  match e.target s with
  | none => none
  | some c =>
    match s.conns c with
    | none => none
    | some k =>
      match e with
      | .readable _ env =>
        match env.recv with
        | .data first rest =>
          if k.originFd = 0 ∧ s.stms c = some ⟨some .copy⟩ ∧ 0 < k.inBuff.space then
            some (forwardInterest (k.inBuff.content ++ (first :: rest).take k.inBuff.space) env.send)
          else none
        | _ => none
      | .writable _ env =>
        if k.originFd = 0 ∧ k.outBuff.content ≠ [] ∧ k.inBuff.content ≠ [] ∧
            env.send.accepts = true then some OP_WRITE
        else none
      | _ => none

/-- The rest of the server is as it was before a callback of the connection. -/
structure Isolated (c : ConnId) (s s' : Server) : Prop where
  items : ∀ fd, ¬ Touched c s s' fd → s'.selector.fds fd = s.selector.fds fd
  owners : ∀ fd, ¬ Touched c s s' fd → s'.kernel.owner fd = s.kernel.owner fd
  conns : ∀ d, d ≠ c → s'.conns d = s.conns d
  views : ∀ d, d ≠ c → s'.view d = s.view d

/-- The entries of descriptors that the connection neither owns nor opens are as they were. -/
def EntriesKept (c : ConnId) (s s' : Server) : Prop :=
  ∀ fd, ¬ Touched c s s' fd → s'.selector.fds fd = s.selector.fds fd

/-- Every listening socket waits for what it waited for. -/
def ListenersKept (s s' : Server) : Prop :=
  ∀ fd, s.kernel.owner fd = some .listener →
    (s'.selector.fds fd).interest = (s.selector.fds fd).interest

variable {mode : Mode} {hole : Bool} {s s₀ s₁ s' : Server} {c : ConnId} {v : View} {e : Event}

/-- Setting an interest leaves the other entries alone. -/
theorem fds_setInterest_of_ne (s : Server) (fd : ℤ) (i : FdInterest) {n : ℕ} (hne : (n : ℤ) ≠ fd) :
    (s.setInterest fd i).selector.fds n = s.selector.fds n := by
  unfold Server.setInterest selectorSetInterest
  split
  · rfl
  · rename_i hinv
    simp only [invalidFd, Bool.or_eq_true, decide_eq_true_eq, not_or, not_lt] at hinv
    split
    · rfl
    · have hne' : n ≠ fd.toNat := by omega
      simp [itemsUpdateFdsetForFd, Function.update_of_ne hne']

/-- Setting the interest of descriptor 0, when it is registered. -/
theorem fds_setInterest_zero (s : Server) (i : FdInterest)
    (hused : (s.selector.fds 0).used = true) :
    (s.setInterest 0 i).selector.fds 0 = { s.selector.fds 0 with interest := i } := by
  rw [fds_setInterest s 0 i 0 fun _ => by decide, if_pos ⟨rfl, hused⟩]

/-- The first listener belongs to no connection. -/
theorem Owned.not_touched_zero {hole : Option ConnId} (h : Owned hole s) :
    ¬ Touched c s s' 0 :=
  not_touched_of_owner h.zero (by simp [FdOwner.conn])

/-- Touching is judged from what the entered state shares with the state before. -/
theorem Entered.touched_iff (h : Entered c s s₀) (fd : ℕ) :
    Touched c s₀ s' fd ↔ Touched c s s' fd := by
  rw [Touched, Touched, h.kernel, h.trace]

/-- A callback always leaves the other connections and their descriptors alone. -/
theorem Lands.isolated {r : Result} (hentered : Entered c s s₀)
    (h : Lands mode false c s₀ r s')
    (hitems : ∀ fd, ¬ Touched c s s' fd → s'.selector.fds fd = s.selector.fds fd) :
    Isolated c s s' where
  items := hitems
  owners fd hfd := by
    rcases h.frame.owners fd with heq | ⟨htouched, -⟩
    · rw [heq, hentered.kernel]
    · exact absurd ((hentered.touched_iff fd).mp htouched) hfd
  conns d hd := (h.frame.conns d hd).trans (congrFun hentered.conns d)
  views d hd := h.others hentered hd

section ThroughZero

variable {key : SelectorKey} {n : ℕ}

/-- After a send the client's and the origin's interests are set, and no others. -/
theorem fds_rearmAfterSend_of_ne (k : Socks5Conn) (left : Buffer) (full : Bool) (s : Server)
    {fd : ℕ} (hclient : (fd : ℤ) ≠ k.clientFd) (horigin : (fd : ℤ) ≠ k.originFd) :
    (rearmAfterSend k left full s).selector.fds fd = s.selector.fds fd := by
  unfold rearmAfterSend
  cases full with
  | true =>
    cases bufferCanRead k.inBuff <;> cases bufferCanRead left <;>
      simp [fds_setInterest_of_ne, hclient, horigin]
  | false =>
    cases bufferCanRead k.inBuff <;> cases bufferCanRead left <;>
      simp [fds_setInterest_of_ne, hclient, horigin]

/-- Bytes left in `in_buff` make a send ask for the writability of an unset `origin_fd`. -/
theorem fds_rearmAfterSend_zero (k : Socks5Conn) (left : Buffer) (s : Server)
    (hclient : k.clientFd ≠ 0) (horigin : k.originFd = 0) (hleft : k.inBuff.content ≠ [])
    (hused : (s.selector.fds 0).used = true) :
    (rearmAfterSend k left false s).selector.fds 0 =
      { s.selector.fds 0 with interest := OP_WRITE } := by
  have hread : bufferCanRead k.inBuff = true := (Buffer.bufferCanRead_iff _).mpr hleft
  have hne : ((0 : ℕ) : ℤ) ≠ k.clientFd := fun h => hclient (by simpa using h.symm)
  have hfirst : (if bufferCanRead left then s.setInterest k.clientFd OP_WRITE
      else s.setInterest k.clientFd OP_READ).selector.fds 0 = s.selector.fds 0 := by
    split
    · exact fds_setInterest_of_ne s k.clientFd OP_WRITE hne
    · exact fds_setInterest_of_ne s k.clientFd OP_READ hne
  simp only [rearmAfterSend, hread, if_true, Bool.false_eq_true, if_false, horigin]
  rw [fds_setInterest_zero _ _ (by rw [hfirst]; exact hused), hfirst]

/-- A send with bytes left in `in_buff` and no origin makes the listener wait for writability,
and changes no other entry outside the connection. -/
theorem Tracks.send_through_zero (h : Tracks mode false c s v s) (hmode : mode.zero = true)
    (hkey : key.data = c) {state : Socks5State} (hphase : v.phase = some state)
    (hequipped : v.Equipped state)
    (htokens : v.tokens = 0) (hzero : v.conn.originFd = 0) (hout : v.conn.outBuff.content ≠ [])
    (hin : v.conn.inBuff.content ≠ []) (hs' : Socks5d.socksv5Write key (.accepted n) s = .ok s') :
    s'.selector.fds 0 = { s.selector.fds 0 with interest := OP_WRITE } ∧
      ∀ fd, fd ≠ 0 → ¬ Touched c s s' fd → s'.selector.fds fd = s.selector.fds fd := by
  subst hkey
  obtain ⟨client, i, hclient, hpos, -, howner, -⟩ := h.client
  have hused := h.owned.listener 0 h.owned.zero
  have hread : bufferCanRead v.conn.outBuff = true := (Buffer.bufferCanRead_iff _).mpr hout
  have hlen : (v.conn.outBuff.content.take (n + 1)).length ≤ v.conn.outBuff.content.length := by
    rw [List.length_take]
    omega
  obtain ⟨left, hadv⟩ := Buffer.bufferReadAdv_succeeds _ hlen
  have hfull : (decide (v.conn.originFd > 0) && !bufferCanWrite v.conn.outBuff) = false := by
    simp [hzero]
  simp only [Socks5d.socksv5Write, h.conn_eq, ok_bind, hread, Bool.not_true, Bool.false_eq_true,
    if_false, hadv, hfull] at hs'
  set sent : Server := (({ s with metrics := s.metrics.addBytes (UInt64.ofNat
    (v.conn.outBuff.content.take (n + 1)).length) }.note
      (.send key.data .client (v.conn.outBuff.content.take (n + 1)))).setConn key.data
        { v.conn with outBuff := bufferCompact left }) with hsent
  have h₁ := ((h.shared (s.metrics.addBytes (UInt64.ofNat
    (v.conn.outBuff.content.take (n + 1)).length)) s.errno).note
      (.send key.data .client (v.conn.outBuff.content.take (n + 1))) rfl).setConn
        { v.conn with outBuff := bufferCompact left } rfl rfl rfl
  have h₂ := h₁.rearmAfterSend v.conn left false rfl rfl (.inl hmode) (by simp)
  set armed : Server := Socks5d.rearmAfterSend v.conn left false sent with harmed
  have hfds : armed.selector.fds 0 = { s.selector.fds 0 with interest := OP_WRITE } :=
    fds_rearmAfterSend_zero v.conn left sent (by omega) hzero hin hused
  have hothers : ∀ fd, fd ≠ 0 → fd ≠ client → armed.selector.fds fd = s.selector.fds fd := by
    intro fd hfd hne
    exact fds_rearmAfterSend_of_ne v.conn left false sent (by omega) (by omega)
  -- what follows the send writes through no unset `origin_fd`
  have hframe : Frame false key.data armed s' := by
    have hpointer : armed.currentState key.data = .ok state := h₂.currentState_eq hphase
    rw [hpointer, ok_bind] at hs'
    by_cases hcopy : hasWriteHandler state = true
    · simp only [hcopy, if_true] at hs'
      have hrestart : Tracks ⟨false, false⟩ false key.data armed _ armed :=
        .start ⟨false, false⟩ h₂.owned h₂.view (by simp) fun fd j hj => by
          obtain ⟨hp | hp, hfd⟩ := h₂.copies fd j hj
          · exact ⟨hp, hfd⟩
          · have herror : state = .error := Option.some.inj (hphase.symm.trans hp)
            rw [herror] at hcopy
            cases hcopy
      obtain ⟨ret, s₂, r, hs₂, -, hlands⟩ :=
        hrestart.stmHandlerWrite rfl hphase hcopy hequipped htokens
      rw [hs₂, ok_bind] at hs'
      obtain rfl := Except.ok.inj hs'
      exact hlands.frame
    · simp only [hcopy, Bool.false_eq_true, if_false] at hs'
      obtain rfl := Except.ok.inj hs'
      exact .refl false key.data armed
  refine ⟨?_, fun fd hfd hnot => ?_⟩
  · rcases hframe.items 0 with heq | htouched | ⟨hfalse, -⟩
    · rw [heq, hfds]
    · exact absurd htouched h₂.owned.not_touched_zero
    · cases hfalse
  · have hne : fd ≠ client := by
      rintro rfl
      exact hnot (.inl howner)
    rcases hframe.items fd with heq | htouched | ⟨hfalse, -⟩
    · rw [heq, hothers fd hfd hne]
    · have hfirst : Frame true key.data s armed := hmode ▸ h₂.frame
      exact absurd (hfirst.touched_trans hframe.admitZero htouched) hnot
    · cases hfalse

/-- Sending on to an unset `origin_fd` arms descriptor 0 for reading once nothing is left. -/
theorem Tracks.forward_through_zero (h : Tracks mode false c s₀ v s) (hkey : key.data = c)
    {out : SendOutcome} (hzero : v.conn.originFd = 0) (hin : v.conn.inBuff.content ≠ [])
    (hfatal : ¬ FatalSend out) (harmed : (s.selector.fds 0).interest = OP_WRITE)
    (hs' : Socks5d.copyWriteHandler key out s = .ok s') :
    s'.selector.fds 0 =
        { s.selector.fds 0 with interest := forwardInterest v.conn.inBuff.content out } ∧
      ∀ fd : ℕ, fd ≠ 0 → (fd : ℤ) ≠ v.conn.clientFd →
        s'.selector.fds fd = s.selector.fds fd := by
  subst hkey
  obtain ⟨client, i, hclient, hpos, -⟩ := h.client
  have hused := h.owned.listener 0 h.owned.zero
  have hread : bufferCanRead v.conn.inBuff = true := (Buffer.bufferCanRead_iff _).mpr hin
  have hsame : { s.selector.fds 0 with interest := OP_WRITE } = s.selector.fds 0 := by
    rw [← harmed]
  simp only [Socks5d.copyWriteHandler, h.conn_eq, ok_bind, hread, Bool.not_true,
    Bool.false_eq_true, if_false] at hs'
  cases out with
  | zero => exact absurd (.inl rfl) hfatal
  | failed err =>
    by_cases herr : err = .eagain
    · subst herr
      obtain rfl := Except.ok.inj hs'
      exact ⟨hsame.symm, fun _ _ _ => rfl⟩
    · exact absurd (.inr ⟨err, rfl, herr⟩) hfatal
  | accepted n =>
    have hlen : (v.conn.inBuff.content.take (n + 1)).length ≤ v.conn.inBuff.content.length := by
      rw [List.length_take]
      omega
    obtain ⟨left, hadv⟩ := Buffer.bufferReadAdv_succeeds _ hlen
    obtain ⟨hcontent, -⟩ := Buffer.bufferReadAdv_eq_ok hadv
    simp only [hadv, ok_bind] at hs'
    set sent : Server := ((s.note (.send key.data .origin (v.conn.inBuff.content.take
      (n + 1)))).setConn key.data { v.conn with inBuff := bufferCompact left }) with hsent
    set drained : Server :=
      if bufferCanRead left = true then sent
      else sent.setInterest v.conn.originFd OP_READ with hdrained
    have hzeroItem : drained.selector.fds 0 =
        { s.selector.fds 0 with
          interest := forwardInterest v.conn.inBuff.content (.accepted n) } := by
      have hiff : bufferCanRead left = true ↔ ¬ v.conn.inBuff.content.length ≤ n + 1 := by
        rw [Buffer.bufferCanRead_iff, hcontent, ne_eq, List.drop_eq_nil_iff, List.length_take]
        omega
      rw [hdrained, hzero]
      by_cases hleft : bufferCanRead left = true
      · rw [if_pos hleft, forwardInterest, if_neg (hiff.mp hleft)]
        exact hsame.symm
      · rw [if_neg hleft, forwardInterest, if_pos (not_not.mp fun hn => hleft (hiff.mpr hn))]
        exact fds_setInterest_zero sent OP_READ hused
    have hothers : ∀ fd : ℕ, fd ≠ 0 → drained.selector.fds fd = s.selector.fds fd := by
      intro fd hfd
      rw [hdrained, hzero]
      split
      · rfl
      · exact fds_setInterest_of_ne sent 0 OP_READ (by omega)
    by_cases hfull : (!bufferCanWrite v.conn.inBuff) = true
    · rw [if_pos hfull] at hs'
      obtain rfl := Except.ok.inj hs'
      refine ⟨?_, fun fd hfd hne => ?_⟩
      · rw [fds_setInterest_of_ne drained _ OP_READ (by omega), hzeroItem]
      · rw [fds_setInterest_of_ne drained _ OP_READ hne, hothers fd hfd]
    · rw [if_neg hfull] at hs'
      obtain rfl := Except.ok.inj hs'
      exact ⟨hzeroItem, fun fd hfd _ => hothers fd hfd⟩

/-- Bytes of a client whose relay has no origin arm the listener, and change no other entry
outside the connection. -/
theorem Tracks.read_through_zero (h : Tracks mode false c s v s) (hmode : mode.zero = true)
    (hkey : key = ⟨v.conn.clientFd, c⟩) {env : Env} {first : UInt8} {rest : List UInt8}
    (hphase : v.phase = some .copy) (htokens : v.tokens = 0) (hzero : v.conn.originFd = 0)
    (hspace : 0 < v.conn.inBuff.space) (hrecv : env.recv = .data first rest)
    (hs' : Socks5d.socksv5Read key env s = .ok s') :
    s'.selector.fds 0 = { s.selector.fds 0 with
        interest := forwardInterest
          (v.conn.inBuff.content ++ (first :: rest).take v.conn.inBuff.space) env.send } ∧
      ∀ fd : ℕ, fd ≠ 0 → (fd : ℤ) ≠ v.conn.clientFd →
        s'.selector.fds fd = s.selector.fds fd := by
  subst hkey
  have hkey : (⟨v.conn.clientFd, c⟩ : SelectorKey).data = c := rfl
  have hused := h.owned.listener 0 h.owned.zero
  have hcan : bufferCanWrite v.conn.inBuff = true := (Buffer.bufferCanWrite_iff _).mpr hspace
  have hfit : ((first :: rest).take v.conn.inBuff.space).length ≤ v.conn.inBuff.space := by
    rw [List.length_take]
    omega
  obtain ⟨buff, hadv⟩ := Buffer.bufferWriteAdv_store_succeeds _ hfit
  obtain ⟨hcontent, -⟩ := Buffer.bufferWriteAdv_store_eq_ok hfit hadv
  simp only [Socks5d.socksv5Read, h.conn_eq, ok_bind, hcan, Bool.not_true, Bool.false_eq_true,
    if_false, hrecv, hadv] at hs'
  have h₁ : Tracks mode false c s (v.received c buff ((first :: rest).take v.conn.inBuff.space)) _ :=
    (h.setConn { v.conn with inBuff := buff } rfl rfl rfl).note
      (.recv c .client ((first :: rest).take v.conn.inBuff.space)) rfl
  set received : Server := (s.setConn c { v.conn with inBuff := buff }).note
    (.recv c .client ((first :: rest).take v.conn.inBuff.space)) with hreceived
  have hbuff : buff.content ≠ [] := by
    rw [hcontent]
    intro hnil
    have htake := (List.append_eq_nil_iff.mp hnil).2
    cases hsp : v.conn.inBuff.space with
    | zero => omega
    | succ n => rw [hsp] at htake; cases htake
  have hstart : stmHandlerRead ⟨v.conn.clientFd, c⟩ env received =
      (copyRead ⟨v.conn.clientFd, c⟩ env received >>= fun out =>
        Socks5d.jump out.1 ⟨v.conn.clientFd, c⟩ out.2 >>= fun s' => pure (out.1, s')) := by
    simp [stmHandlerRead, h₁.stmPointer_eq, handleFirst, h₁.stm_eq, View.received, hphase,
      h₁.stmState_eq hphase, onReadReady]
  set origin : ℤ :=
    (v.received c buff ((first :: rest).take v.conn.inBuff.space)).conn.originFd with horigin
  have hzero' : origin = 0 := hzero
  have hstatus : (selectorSetInterest received.selector origin OP_WRITE).1 = .success :=
    (selectorSetInterest_status received.selector origin OP_WRITE).1.mpr
      ⟨0, by simpa using hzero', by decide, hused⟩
  rw [hstart] at hs'
  simp only [copyRead, h₁.conn_eq, ok_bind, ← horigin, hstatus, ne_eq, not_true_eq_false, if_false] at hs'
  have h₂ : Tracks mode false c s _ { received with
      selector := (selectorSetInterest received.selector origin OP_WRITE).2 } :=
    h₁.armOrigin OP_WRITE (.inl hmode)
  have hasked : (received.setInterest origin OP_WRITE).selector.fds 0 =
      { s.selector.fds 0 with interest := OP_WRITE } := by
    rw [hzero']
    exact fds_setInterest_zero received OP_WRITE hused
  cases hw : Socks5d.copyWriteHandler ⟨v.conn.clientFd, c⟩ env.send { received with
      selector := (selectorSetInterest received.selector origin OP_WRITE).2 } with
  | error fault =>
    rw [hw] at hs'
    cases hs'
  | ok s₂ =>
    rw [hw] at hs'
    simp only [ok_bind, pure_eq_ok] at hs'
    by_cases hfatal : FatalSend env.send
    · -- the state machine is gone when the engine comes back to it
      have hnone := h₂.copyWriteHandler_fatal hkey hfatal hbuff htokens s₂ hw
      simp [Socks5d.jump, Server.stm, hnone] at hs'
    · obtain ⟨s₃, r, hs₃, hwrote, hlands⟩ :=
        h₂.copyWriteHandler hkey env.send htokens (.inl hmode) (.inr hfatal)
      obtain rfl : s₂ = s₃ := Except.ok.inj (hw.symm.trans hs₃)
      obtain ⟨hitem, hothers⟩ := h₂.forward_through_zero hkey hzero' hbuff hfatal
        (by rw [show ({ received with selector := (selectorSetInterest received.selector origin
          OP_WRITE).2 } : Server) = received.setInterest origin OP_WRITE from rfl, hasked]) hw
      have halive : ∃ w, r = .alive w ∧ w.phase = some .copy := by
        cases hwrote with
        | idle _ => exact ⟨_, rfl, hphase⟩
        | blocked _ _ => exact ⟨_, rfl, hphase⟩
        | delivered _ _ _ _ _ _ => exact ⟨_, rfl, hphase⟩
        | broken _ hout => exact absurd hout hfatal
      obtain ⟨w, rfl, hcopy⟩ := halive
      have hjump := Tracks.jump_same hlands hkey hcopy
      simp only [hjump, ok_bind, reduceCtorEq, if_false] at hs'
      obtain rfl := Except.ok.inj hs'
      have hitem' : s₂.selector.fds 0 =
          { (received.setInterest origin OP_WRITE).selector.fds 0 with
            interest := forwardInterest buff.content env.send } := hitem
      refine ⟨?_, fun fd hfd hne => ?_⟩
      · rw [hitem', hasked, hcontent]
      · rw [hothers fd hfd hne]
        exact fds_setInterest_of_ne received origin OP_WRITE (by omega)

end ThroughZero

/-- A connection without an origin gets its events from its client. -/
theorem Inv.clientItem_of_target (hinv : Inv s) {fd : ℕ} (hused : (s.selector.fds fd).used = true)
    (hdata : (s.selector.fds fd).data = some c) {k : Socks5Conn} (hk : s.conns c = some k)
    (hzero : k.originFd = 0) :
    ∃ i, s.selector.fds fd = ⟨fd, i, some .socks5Handler, some c⟩ ∧
      s.kernel.owner fd = some (.client c) := by
  obtain ⟨-, hreg⟩ := hinv.owned.registered fd hused
  generalize s.selector.fds fd = item at hreg hdata
  cases hreg with
  | listener => cases hdata
  | client d i howner =>
    obtain rfl := Option.some.inj hdata
    exact ⟨i, rfl, howner⟩
  | relay d handler i _ _ horigin _ =>
    obtain rfl := Option.some.inj hdata
    exact absurd hzero (horigin k hk)
  | admin => cases hdata

/-- An event that asks nothing of an unset `origin_fd` leaves the listeners alone. -/
theorem keepsZero_of_zeroInterest (h : e.zeroInterest s = none) : KeepsZero s e := by
  cases e with
  | readable fd env =>
    rintro c k ⟨-, hdata⟩ hk hphase hspace ⟨first, rest, hrecv⟩ hzero
    simp [Event.zeroInterest, Event.target, hdata, hk, hrecv, hzero, hphase, hspace] at h
  | writable fd env =>
    rintro c k ⟨-, hdata⟩ hk hout ⟨n, hsend⟩ hin hzero
    simp [Event.zeroInterest, Event.target, hdata, hk, hsend, hzero, hout, hin,
      SendOutcome.accepts] at h
  | _ => trivial

/-- A client that waits for writability is in a phase that can send, and has no token. -/
theorem View.Ok.sending (h : v.Ok c) (hwrite : v.interest.write = true) :
    ∃ state, v.phase = some state ∧ v.Equipped state ∧ v.tokens = 0 := by
  have hphaseOk := h.phase
  unfold View.PhaseOk at hphaseOk
  cases hphase : v.phase with
  | none =>
    rw [hphase] at hphaseOk
    rw [hphaseOk.2.2.1] at hwrite
    cases hwrite
  | some state =>
    rw [hphase] at hphaseOk
    refine ⟨state, rfl, ?_⟩
    cases state with
    | handshake => exact ⟨hphaseOk.2.2, hphaseOk.1.tokens⟩
    | auth =>
      obtain ⟨hearly, -, p, hp, -⟩ := hphaseOk
      exact ⟨by simp [View.Equipped, hp], hearly.tokens⟩
    | connectionReq =>
      have hreq : v.Requesting := hphaseOk
      exact ⟨hreq.parser, hreq.tokens⟩
    | connecting =>
      refine ⟨trivial, ?_⟩
      rcases hphaseOk with hw | hp | hr
      · rw [hw.interest] at hwrite
        cases hwrite
      · exact hp.tokens
      · exact hr.tokens
    | copy => exact ⟨trivial, hphaseOk.1⟩
    | done => exact hphaseOk.elim
    | error => exact hphaseOk.elim

/-- Only the readiness of a client reaches an unset `origin_fd`. -/
theorem zeroInterest_of_other (hread : ∀ fd env, e ≠ .readable fd env)
    (hwrite : ∀ fd env, e ≠ .writable fd env) : e.zeroInterest s = none := by
  unfold Event.zeroInterest
  cases e with
  | readable fd env => exact absurd rfl (hread fd env)
  | writable fd env => exact absurd rfl (hwrite fd env)
  | _ => split <;> first | rfl | (split <;> rfl)

/-- When a client read writes through an unset `origin_fd`. -/
theorem zeroInterest_readable {fd : ℕ} {env : Env} {i : FdInterest}
    (htarget : (Event.readable fd env).target s = some c)
    (h : (Event.readable fd env).zeroInterest s = some i) :
    ∃ k first rest, s.conns c = some k ∧ env.recv = .data first rest ∧ k.originFd = 0 ∧
      s.stms c = some ⟨some .copy⟩ ∧ 0 < k.inBuff.space ∧
      forwardInterest (k.inBuff.content ++ (first :: rest).take k.inBuff.space) env.send = i := by
  simp only [Event.zeroInterest, htarget] at h
  cases hk : s.conns c with
  | none => simp [hk] at h
  | some k =>
    cases hrecv : env.recv with
    | data first rest =>
      simp only [hk, hrecv, Option.ite_none_right_eq_some, Option.some.injEq] at h
      obtain ⟨⟨hzero, hphase, hspace⟩, hi⟩ := h
      exact ⟨k, first, rest, rfl, rfl, hzero, hphase, hspace, hi⟩
    | eof => simp [hk, hrecv] at h
    | failed err => simp [hk, hrecv] at h

/-- When a client write writes through an unset `origin_fd`. -/
theorem zeroInterest_writable {fd : ℕ} {env : Env} {i : FdInterest}
    (htarget : (Event.writable fd env).target s = some c)
    (h : (Event.writable fd env).zeroInterest s = some i) :
    ∃ k n, s.conns c = some k ∧ env.send = .accepted n ∧ k.originFd = 0 ∧
      k.outBuff.content ≠ [] ∧ k.inBuff.content ≠ [] ∧ OP_WRITE = i := by
  simp only [Event.zeroInterest, htarget] at h
  cases hk : s.conns c with
  | none => simp [hk] at h
  | some k =>
    simp only [hk, Option.ite_none_right_eq_some, Option.some.injEq] at h
    obtain ⟨⟨hzero, hout, hin, hsend⟩, hi⟩ := h
    cases hs : env.send with
    | accepted n => exact ⟨k, n, rfl, rfl, hzero, hout, hin, hi⟩
    | zero => rw [hs] at hsend; cases hsend
    | failed err => rw [hs] at hsend; cases hsend

/-- What an event does to the table when it writes through an unset `origin_fd`. -/
theorem Inv.through_zero (hinv : Inv s) (he : enabled s e = true)
    (hs : Socks5d.step s e = .ok s') (htarget : e.target s = some c) {i : FdInterest}
    (hzero : e.zeroInterest s = some i) :
    s'.selector.fds 0 = { s.selector.fds 0 with interest := i } ∧
      ∀ fd, fd ≠ 0 → ¬ Touched c s s' fd → s'.selector.fds fd = s.selector.fds fd := by
  cases e with
  | readable fd env =>
    simp only [enabled, Bool.and_eq_true] at he
    obtain ⟨k, first, rest, hk, hrecv, horigin, hstm, hspace, rfl⟩ :=
      zeroInterest_readable htarget hzero
    obtain ⟨j, hitem, howner⟩ := hinv.clientItem_of_target he.1.1.2 htarget hk horigin
    obtain ⟨v, hview, hclient, -⟩ := hinv.client hitem howner
    obtain ⟨hconn, hphase, -⟩ := view_eq_some_iff.mp hview
    obtain rfl : v.conn = k := Option.some.inj (hconn.symm.trans hk)
    have hcopy : v.phase = some .copy := by
      have := Option.some.inj (hphase.symm.trans hstm)
      exact congrArg StateMachine.current this
    have htokens : v.tokens = 0 := by
      have hphaseOk := (hinv.ok c v hview).phase
      simp only [View.PhaseOk, hcopy] at hphaseOk
      exact hphaseOk.1
    have htracks : Tracks ⟨true, false⟩ false c (s.enter env) v (s.enter env) :=
      hinv.start hview env (by simp)
    simp only [Socks5d.step, hitem, handleRead] at hs
    obtain ⟨hfirst, hothers⟩ := htracks.read_through_zero rfl (by rw [hclient]) hcopy htokens
      horigin hspace hrecv hs
    refine ⟨hfirst, fun n hn hnot => hothers n hn ?_⟩
    rintro heq
    obtain rfl : n = fd := by omega
    exact hnot (.inl howner)
  | writable fd env =>
    simp only [enabled, Bool.and_eq_true] at he
    obtain ⟨k, n, hk, hsend, horigin, hout, hin, rfl⟩ := zeroInterest_writable htarget hzero
    obtain ⟨j, hitem, howner⟩ := hinv.clientItem_of_target he.1.1.2 htarget hk horigin
    obtain ⟨v, hview, hclient, hinterest⟩ := hinv.client hitem howner
    obtain ⟨hconn, hphase, -⟩ := view_eq_some_iff.mp hview
    obtain rfl : v.conn = k := Option.some.inj (hconn.symm.trans hk)
    rw [hitem, ← hinterest] at he
    obtain ⟨state, hstate, hequipped, htokens⟩ := (hinv.ok c v hview).sending he.1.2
    have htracks : Tracks ⟨true, false⟩ false c (s.enter env) v (s.enter env) :=
      hinv.start hview env (by simp)
    simp only [Socks5d.step, hitem, handleWrite, hsend] at hs
    exact htracks.send_through_zero rfl rfl hstate hequipped htokens horigin hout hin hs
  | _ =>
    rw [zeroInterest_of_other (by simp) (by simp)] at hzero
    cases hzero

/-- A callback leaves the entries of all others alone exactly when the interest it gives the first
listener through an unset `origin_fd` is the one that listener has. -/
theorem Inv.entriesKept_iff (hinv : Inv s) (he : enabled s e = true) (hs : Socks5d.step s e = .ok s')
    (htarget : e.target s = some c) :
    EntriesKept c s s' ↔ ∀ i ∈ e.zeroInterest s, (s.selector.fds 0).interest = i := by
  cases hzero : e.zeroInterest s with
  | none =>
    refine ⟨fun _ i hi => (nomatch hi), fun _ fd hfd => ?_⟩
    have hdispatch : Holds (Tolerated s e) (Socks5d.step s e) (Effect ⟨false, false⟩ s e) :=
      dispatch hinv he (.inr (keepsZero_of_zeroInterest hzero)) (by simp)
    cases hdispatch.result hs with
    | background _ hnone => rw [htarget] at hnone; cases hnone
    | reaction d v r s₀ hview htarget' hreaction hentered hlands hjobs =>
      obtain rfl := Option.some.inj (htarget.symm.trans htarget')
      rcases hlands.frame.items fd with heq | htouched | ⟨hfalse, -⟩
      · rw [heq, hentered.fds]
      · exact absurd ((hentered.touched_iff fd).mp htouched) hfd
      · cases hfalse
  | some i =>
    obtain ⟨hitem, hothers⟩ := hinv.through_zero he hs htarget hzero
    have hsame : s'.selector.fds 0 = s.selector.fds 0 ↔ (s.selector.fds 0).interest = i := by
      rw [hitem]
      exact ⟨fun h => (congrArg Item.interest h).symm, fun h => by rw [← h]⟩
    constructor
    · rintro hkept j hj
      obtain rfl := Option.some.inj hj
      exact hsame.mp (hkept 0 hinv.owned.not_touched_zero)
    · intro hinterest fd hfd
      by_cases h0 : fd = 0
      · subst h0
        exact hsame.mpr (hinterest i rfl)
      · exact hothers fd h0 hfd

/-- A callback leaves the rest of the server alone exactly when the interest it gives the
first listener through an unset `origin_fd` is the one that listener has. -/
theorem isolated_iff (hreach : Reachable s) (he : enabled s e = true) (hs : step s e = .ok s')
    (htarget : e.target s = some c) :
    Isolated c s s' ↔ ∀ i ∈ e.zeroInterest s, (s.selector.fds 0).interest = i := by
  have hinv := hreach.inv
  rw [← hinv.entriesKept_iff he hs htarget]
  refine ⟨fun h => h.items, fun hkept => ?_⟩
  cases hinv.effect he hs with
  | background _ hnone => rw [htarget] at hnone; cases hnone
  | reaction d v r s₀ hview htarget' hreaction hentered hlands hjobs =>
    obtain rfl := Option.some.inj (htarget.symm.trans htarget')
    exact hlands.isolated hentered hkept

/-- A greeting whose reply is sent by half, and the other half once the client is writable: the
connection relays without ever having dialled. -/
def skipsRequest : List Event :=
  [arrives, .readable 2 { recv := .data 5 [1, 0], sends := [.accepted 0] },
    .writable 2 { sends := [.accepted 0] }]

/-- Bytes of such a client that are sent at once leave the listener as it was. -/
theorem isolated_iff_sent : ∃ s s', s'.conns 0 ≠ none ∧ Isolated 0 s s' := by
  obtain ⟨s, s', -, hs, he, hstep, -, hcheck⟩ := staged skipsRequest
    (.readable 2 { recv := .data 7 [], sends := [.accepted 0] }) unguarded []
    (fun s s' _ => (s'.conns 0).isSome &&
      (((s.selector.fds 2).data == some 0) && ((s.selector.fds 0).interest == OP_READ) &&
        (Event.zeroInterest s (.readable 2 { recv := .data 7 [], sends := [.accepted 0] }) ==
          some OP_READ)))
    (by decide +kernel)
  simp only [Bool.and_eq_true, beq_iff_eq] at hcheck
  obtain ⟨hlive, ⟨hdata, hinterest⟩, hzero⟩ := hcheck
  refine ⟨s, s', by rw [← Option.isSome_iff_ne_none]; exact hlive, ?_⟩
  refine (isolated_iff hs he hstep hdata).mpr fun i hi => ?_
  rw [hzero] at hi
  rw [hinterest, Option.some.inj hi]

/-- No listening socket is the descriptor of a connection. -/
theorem EntriesKept.listeners (h : EntriesKept c s s') : ListenersKept s s' := fun fd howner =>
  congrArg Item.interest (h fd (not_touched_of_owner howner (by simp [FdOwner.conn])))

/-- A callback changes no entry but those of its own connection's descriptors, and in particular
none of a listening socket, exactly when the interest it gives descriptor 0 through an unset
`origin_fd` is the one descriptor 0 has. -/
theorem entries_kept_iff (hreach : Reachable s) (he : enabled s e = true) (hs : step s e = .ok s')
    (htarget : e.target s = some c) :
    EntriesKept c s s' ∧ ListenersKept s s' ↔
      ∀ i ∈ e.zeroInterest s, (s.selector.fds 0).interest = i := by
  rw [and_iff_left_of_imp EntriesKept.listeners]
  exact hreach.inv.entriesKept_iff he hs htarget

/-- A client asks for a name, with one byte more behind its request. -/
def asksName (fd : ℕ) : Event :=
  .readable fd { recv := .data 5 [1, 0, 3, 1, 120, 0, 80, 71] }

/-- Two clients, one of which sends a byte to its origin. -/
theorem entries_kept_iff_two : ∃ s s' : Server, (s.selector.fds 3).handler = some .socks5Handler ∧
    s'.selector.fds 3 = s.selector.fds 3 ∧ EntriesKept 0 s s' ∧ ListenersKept s s' := by
  obtain ⟨s, s', -, hs, he, hstep, -, hcheck⟩ := staged
    [arrives, arrives, greets 2, asks 2 [loopback],
      .notify { connects := [.connected], sends := [.accepted 21] }]
    (.readable 2 { recv := .data 7 [], sends := [.accepted 0] }) unguarded []
    (fun s s' _ => ((s.selector.fds 3).handler == some .socks5Handler) &&
      ((s.selector.fds 2).data == some 0) && decide (s'.selector.fds 3 = s.selector.fds 3) &&
      (Event.zeroInterest s (.readable 2 { recv := .data 7 [], sends := [.accepted 0] }) == none))
    (by decide +kernel)
  simp only [Bool.and_eq_true, beq_iff_eq, decide_eq_true_eq] at hcheck
  obtain ⟨⟨⟨hhandler, hdata⟩, hsame⟩, hzero⟩ := hcheck
  refine ⟨s, s', hhandler, hsame, (entries_kept_iff hs he hstep hdata).mpr fun i hi => ?_⟩
  rw [hzero] at hi
  cases hi

/-- The name is not found, and the reply that says so leaves while the byte is there: the first
listener waits for writability from then on, and accepts nobody. -/
theorem not_entries_kept : ∃ (s s' : Server) (e : Event), Reachable s ∧ enabled s e = true ∧
    step s e = .ok s' ∧ e.target s = some 0 ∧ s.kernel.owner 0 = some .listener ∧
    (s.selector.fds 0).interest = OP_READ ∧ (s'.selector.fds 0).interest = OP_WRITE ∧
    ¬ (EntriesKept 0 s s' ∧ ListenersKept s s') := by
  obtain ⟨s, s', -, hs, he, hstep, -, hcheck⟩ := staged
    [arrives, greets 2, asksName 2, .resolved 0 {}, .notify {}]
    (.writable 2 { sends := [.accepted 9] }) unguarded []
    (fun s s' _ => ((s.selector.fds 2).data == some 0) && (s.kernel.owner 0 == some .listener) &&
      ((s.selector.fds 0).interest == OP_READ) && ((s'.selector.fds 0).interest == OP_WRITE))
    (by decide +kernel)
  simp only [Bool.and_eq_true, beq_iff_eq] at hcheck
  obtain ⟨⟨⟨hdata, howner⟩, hbefore⟩, hafter⟩ := hcheck
  refine ⟨s, s', _, hs, he, hstep, hdata, howner, hbefore, hafter, fun ⟨_, hkept⟩ => ?_⟩
  have hsame := hkept 0 howner
  rw [hbefore, hafter] at hsame
  exact absurd hsame (by decide)

end Socks5d
