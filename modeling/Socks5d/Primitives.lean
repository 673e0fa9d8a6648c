import Socks5d.Tracks

/-!
# The primitives of a callback

One lemma for each thing the handlers do between two statements: store the record, note an
observation, change an interest, register or unregister the origin, change the phase, open and
close descriptors, and release the connection.
-/

namespace Socks5d

variable {mode : Mode} {zero hole : Bool} {c : ConnId} {s₀ s s' : Server} {v v' : View}

namespace Tracks

/-- The record is the one in view. -/
theorem conns (h : Tracks mode hole c s₀ v s) : s.conns c = some v.conn :=
  (view_eq_some_iff.mp h.view).1

/-- The phase is the one in view. -/
theorem stms (h : Tracks mode hole c s₀ v s) : s.stms c = some ⟨v.phase⟩ :=
  (view_eq_some_iff.mp h.view).2.1

/-- The history is the one in view. -/
theorem history (h : Tracks mode hole c s₀ v s) : s.history c = v.history :=
  (view_eq_some_iff.mp h.view).2.2.2.2.2

/-- Dereferencing the connection succeeds. -/
theorem conn_eq (h : Tracks mode hole c s₀ v s) : s.conn c = .ok v.conn := by
  simp [Server.conn, h.conns]

/-- The state machine is found. -/
theorem stm_eq (h : Tracks mode hole c s₀ v s) : s.stm c = .ok ⟨v.phase⟩ := by
  simp [Server.stm, h.stms]

/-- So is the pointer to it. -/
theorem stmPointer_eq (h : Tracks mode hole c s₀ v s) : s.stmPointer c = .ok () := by
  have hstm := (h.owned.conn c v.conn h.conns).2.2.1
  simp [Server.stmPointer, h.conn_eq, hstm]

/-- The phase is found. -/
theorem stmState_eq (h : Tracks mode hole c s₀ v s) {state : Socks5State}
    (hphase : v.phase = some state) : s.stmState c = .ok state := by
  simp [Server.stmState, h.stm_eq, hphase]

/-- A read handler that is not done returns the phase. -/
theorem currentState_eq (h : Tracks mode hole c s₀ v s) {state : Socks5State}
    (hphase : v.phase = some state) : s.currentState c = .ok state := by
  simp [Server.currentState, h.stmPointer_eq, h.stmState_eq hphase]

/-- The client descriptor is open, registered and not the origin's. -/
theorem client (h : Tracks mode hole c s₀ v s) :
    ∃ (fd : ℕ) (i : FdInterest), v.conn.clientFd = fd ∧ 0 < fd ∧ fd < ITEMS_MAX_SIZE ∧
      s.kernel.owner fd = some (.client c) ∧
      s.selector.fds fd = ⟨fd, i, some .socks5Handler, some c⟩ ∧ v.conn.originFd ≠ fd := by
  obtain ⟨⟨fd, hfd, hown⟩, horigin, -, -⟩ := h.owned.conn c v.conn h.conns
  obtain ⟨hused, -⟩ := h.owned.client fd c hown
  obtain ⟨hlt, hreg⟩ := h.owned.registered fd hused
  have hpos : 0 < fd := by
    rcases Nat.eq_zero_or_pos fd with rfl | hpos
    · rw [h.owned.zero] at hown
      cases hown
    · exact hpos
  have hne : v.conn.originFd ≠ fd := by
    rcases horigin with h0 | h1 | ⟨n, hn, -, ⟨p, hp⟩ | ⟨-, hnone⟩⟩
    · omega
    · omega
    · intro heq
      obtain rfl : n = fd := by omega
      rw [hown] at hp
      cases hp
    · intro heq
      obtain rfl : n = fd := by omega
      rw [hown] at hnone
      cases hnone
  generalize hitem : s.selector.fds fd = item at hreg
  cases hreg with
  | listener _ _ howner _ => rw [hown] at howner; cases howner
  | client c' i howner =>
    obtain rfl : c' = c := by
      rw [hown] at howner
      cases howner
      rfl
    exact ⟨fd, i, hfd, hpos, hlt, hown, hitem, hne⟩
  | relay c' _ i _ howner _ _ =>
    obtain ⟨d, p, hd⟩ := howner _ hown
    cases hd
  | admin _ howner => rw [hown] at howner; cases howner

end Tracks

/-- Changing an interest shows in the registration it belongs to. -/
theorem relayOf_interest (item : Item) (c : ConnId) (i : FdInterest) :
    Item.relayOf { item with interest := i } c = (item.relayOf c).map fun r => (r.1, i) := by
  rcases item with ⟨fd, j, handler, data⟩
  cases handler with
  | none => rfl
  | some handler =>
    change (if (fd != FD_UNUSED) = true ∧ handler.isRelay = true ∧ data = some c then
        some (handler, i) else none) = Option.map (fun r => (r.1, i))
      (if (fd != FD_UNUSED) = true ∧ handler.isRelay = true ∧ data = some c then
        some (handler, j) else none)
    split
    · rfl
    · rfl

/-- An entry that is not in use is registered for nobody. -/
theorem relayOf_of_not_used {item : Item} {c : ConnId} (h : ¬ item.used = true) :
    item.relayOf c = none := by
  unfold Item.relayOf
  split
  · rw [if_neg fun hc => h hc.1]
  · rfl

/-- The parts of the state no callback of a connection writes. -/
structure SameShared (s s' : Server) : Prop where
  nextConn : s'.nextConn = s.nextConn
  users : s'.users = s.users
  bufferSize : s'.bufferSize = s.bufferSize
  maxConn : s'.maxConn = s.maxConn
  junk : s'.junk = s.junk

/-- A descriptor the connection owns on the way has been touched since the start. -/
theorem Frame.touched_of_owner {fd : ℕ} (h : Frame zero c s₀ s)
    (hown : s.kernel.owner fd = some (.client c) ∨ ∃ p, s.kernel.owner fd = some (.origin c p)) :
    Touched c s₀ s fd := by
  rcases h.owners fd with heq | ⟨htouched, -⟩
  · rw [heq] at hown
    rcases hown with hown | hown
    · exact .inl hown
    · exact .inr (.inl hown)
  · exact htouched

/-- Extend a frame by one primitive. -/
theorem Frame.step (h : Frame zero c s₀ s)
    (hconns : ∀ d, d ≠ c → s'.conns d = s.conns d) (hstms : ∀ d, d ≠ c → s'.stms d = s.stms d)
    (hitems : ∀ fd, s'.selector.fds fd = s.selector.fds fd ∨ Touched c s₀ s fd ∨
      zero = true ∧ s.kernel.owner fd = some .listener ∧
        ∃ i, s'.selector.fds fd = { s.selector.fds fd with interest := i })
    (howners : ∀ fd, s'.kernel.owner fd = s.kernel.owner fd ∨ Touched c s₀ s' fd ∧
      (s'.kernel.owner fd = none ∨ ∃ p, s'.kernel.owner fd = some (.origin c p)))
    (hregistrations : ∀ fd d, d ≠ c → ∀ r, (s'.selector.fds fd).relayOf d = some r →
      ∃ i, (s.selector.fds fd).relayOf d = some (r.1, i))
    (htrace : ∃ t, s'.trace = s.trace ++ t ∧ ∀ o ∈ t, o.conn = c)
    (hresolving : ∀ d, d ≠ c → s'.resolving.count d = s.resolving.count d)
    (hjobs : ∃ t, s'.selector.resolutionJobs = t ++ s.selector.resolutionJobs ∧
      ∀ fd ∈ t, s.kernel.owner fd = some (.client c))
    (hshared : SameShared s s') : Frame zero c s₀ s' where
  conns d hd := (hconns d hd).trans (h.conns d hd)
  stms d hd := (hstms d hd).trans (h.stms d hd)
  items fd := by
    obtain ⟨t, ht, -⟩ := h.trace
    obtain ⟨u, hu, -⟩ := htrace
    rcases hitems fd with heq | htouched | ⟨hz, hown, i, hi⟩
    · rw [heq]
      rcases h.items fd with heq' | htouched | hz
      · exact .inl heq'
      · exact .inr (.inl (htouched.extend ⟨t, ht⟩ ⟨u, hu⟩))
      · exact .inr (.inr hz)
    · exact .inr (.inl (htouched.extend ⟨t, ht⟩ ⟨u, hu⟩))
    · rcases h.owners fd with hown' | ⟨htouched, -⟩
      · rcases h.items fd with heq' | htouched | ⟨-, -, j, hj⟩
        · exact .inr (.inr ⟨hz, hown' ▸ hown, i, by rw [hi, heq']⟩)
        · exact .inr (.inl (htouched.extend ⟨t, ht⟩ ⟨u, hu⟩))
        · exact .inr (.inr ⟨hz, hown' ▸ hown, i, by rw [hi, hj]⟩)
      · exact .inr (.inl (htouched.extend ⟨t, ht⟩ ⟨u, hu⟩))
  owners fd := by
    obtain ⟨t, ht, -⟩ := h.trace
    obtain ⟨u, hu, -⟩ := htrace
    rcases howners fd with heq | htouched
    · rcases h.owners fd with heq' | ⟨htouched, hres⟩
      · exact .inl (heq.trans heq')
      · exact .inr ⟨htouched.extend ⟨t, ht⟩ ⟨u, hu⟩, by rw [heq]; exact hres⟩
    · exact .inr htouched
  registrations fd d hd r hr := by
    obtain ⟨i, hi⟩ := hregistrations fd d hd r hr
    obtain ⟨j, hj⟩ := h.registrations fd d hd _ hi
    exact ⟨j, hj⟩
  trace := by
    obtain ⟨t, ht, htc⟩ := h.trace
    obtain ⟨u, hu, huc⟩ := htrace
    refine ⟨t ++ u, by rw [hu, ht, List.append_assoc], ?_⟩
    intro o ho
    rcases List.mem_append.mp ho with ho | ho
    · exact htc o ho
    · exact huc o ho
  resolving d hd := (hresolving d hd).trans (h.resolving d hd)
  jobs := by
    obtain ⟨t, ht, htc⟩ := h.jobs
    obtain ⟨u, hu, huc⟩ := hjobs
    refine ⟨u ++ t, by rw [hu, ht, List.append_assoc], fun fd hfd => ?_⟩
    rcases List.mem_append.mp hfd with hfd | hfd
    · exact h.owner_client (huc fd hfd)
    · exact htc fd hfd
  nextConn := hshared.nextConn.trans h.nextConn
  users := hshared.users.trans h.users
  bufferSize := hshared.bufferSize.trans h.bufferSize
  maxConn := hshared.maxConn.trans h.maxConn
  junk := hshared.junk.trans h.junk

namespace Tracks

/-- A callback starts by tracking the view of its connection. -/
theorem start (mode : Mode) (howned : Owned none s) (hview : s.view c = some v)
    (htidy : mode.tidy = true → Tidy c s)
    (hcopies : ∀ fd i, (s.selector.fds fd).relayOf c = some (.copySelectorHandler, i) →
      v.phase = some .copy ∧ v.conn.originFd = fd) : Tracks mode false c s v s where
  owned := howned
  view := hview
  frame := Frame.refl mode.zero c s
  tidy := htidy
  copies fd i hi := ⟨.inl (hcopies fd i hi).1, (hcopies fd i hi).2⟩
  origin fd hfd hpos := by
    obtain ⟨hk, -⟩ := view_eq_some_iff.mp hview
    rcases (howned.conn c v.conn hk).2.1 with h0 | h1 | ⟨n, hn, -, ⟨p, hp⟩ | ⟨hhole, -⟩⟩
    · omega
    · omega
    · obtain rfl : n = fd := by omega
      exact .inr (.inl ⟨p, hp⟩)
    · cases hhole

/-- A primitive that keeps the skeleton and `origin_fd` only has to say how it moves the view
and which items it changes. -/
theorem of_skeleton (h : Tracks mode hole c s₀ v s) (hs : SameSkeleton s s')
    (hview : s'.view c = some v') (horigin : v'.conn.originFd = v.conn.originFd)
    (hphase : v.phase = some .copy ∨ v.phase = some .error →
      v'.phase = some .copy ∨ v'.phase = some .error)
    (hconns : ∀ d, d ≠ c → s'.conns d = s.conns d) (hstms : ∀ d, d ≠ c → s'.stms d = s.stms d)
    (hitems : ∀ fd, s'.selector.fds fd = s.selector.fds fd ∨ Touched c s₀ s fd ∨
      mode.zero = true ∧ s.kernel.owner fd = some .listener ∧
        ∃ i, s'.selector.fds fd = { s.selector.fds fd with interest := i })
    (htrace : ∃ t, s'.trace = s.trace ++ t ∧ ∀ o ∈ t, o.conn = c)
    (hshared : SameShared s s') : Tracks mode hole c s₀ v' s' where
  owned := h.owned.of_skeleton hs
  view := hview
  frame := h.frame.step hconns hstms hitems (fun fd => .inl (congrFun hs.owner fd))
    (fun _ _ _ _ hr => hs.registrations hr) htrace (fun d _ => by rw [hs.resolving]) 
    ⟨[], by simp [hs.jobs], by simp⟩ hshared
  tidy htidy := (h.tidy htidy).of_skeleton hs
  copies fd i hi := by
    obtain ⟨j, hj⟩ := hs.registrations hi
    obtain ⟨hcopy, hfd⟩ := h.copies fd j hj
    exact ⟨hphase hcopy, horigin.trans hfd⟩
  origin fd hfd hpos := by
    obtain ⟨t, ht, -⟩ := h.frame.trace
    obtain ⟨u, hu, -⟩ := htrace
    exact (h.origin fd (horigin ▸ hfd) hpos).extend ⟨t, ht⟩ ⟨u, hu⟩

/-- Store a record with the same descriptors. -/
theorem setConn (h : Tracks mode hole c s₀ v s) (k : Socks5Conn)
    (hclient : k.clientFd = v.conn.clientFd) (horigin : k.originFd = v.conn.originFd)
    (hstm : k.stm = v.conn.stm) : Tracks mode hole c s₀ { v with conn := k } (s.setConn c k) := by
  obtain ⟨hk, hm, hi, hr, ht, hh⟩ := view_eq_some_iff.mp h.view
  refine h.of_skeleton ?_ ?_ horigin id ?_ (fun _ _ => rfl) (fun _ => .inl rfl)
    ⟨[], by simp [Server.setConn], by simp⟩ ⟨rfl, rfl, rfl, rfl, rfl⟩
  · refine ⟨fun fd => ⟨_, rfl⟩, rfl, ?_, fun _ => rfl, rfl, rfl, rfl, rfl, fun _ ho => .inl ho⟩
    intro d
    by_cases hd : d = c
    · subst hd
      simp [Server.setConn, hk, hclient, horigin, hstm]
    · simp [Server.setConn, hd]
  · rw [view_eq_some_iff]
    refine ⟨by simp [Server.setConn], hm, by rw [hclient]; exact hi, ?_, ?_, hh⟩
    · rw [← hr]
      simp [Server.relay, Server.setConn, horigin]
    · rw [← ht]
      simp [Server.tokens, Server.setConn, hclient]
  · intro d hd
    simp [Server.setConn, hd]

/-- Note an observation of the connection. -/
theorem note (h : Tracks mode hole c s₀ v s) (o : Obs) (ho : o.conn = c) :
    Tracks mode hole c s₀ { v with history := v.history ++ [o] } (s.note o) := by
  obtain ⟨hk, hm, hi, hr, ht, hh⟩ := view_eq_some_iff.mp h.view
  refine h.of_skeleton ?_ ?_ rfl id (fun _ _ => rfl) (fun _ _ => rfl) (fun _ => .inl rfl)
    ⟨[o], rfl, by simpa using ho⟩ ⟨rfl, rfl, rfl, rfl, rfl⟩
  · refine ⟨fun fd => ⟨_, rfl⟩, rfl, fun _ => rfl, fun _ => rfl, rfl, rfl, rfl, rfl, ?_⟩
    intro o' ho'
    rcases List.mem_append.mp ho' with hold | hnew
    · exact .inl hold
    · obtain rfl := List.mem_singleton.mp hnew
      exact .inr (ho ▸ h.owned.known c (by simp [hk]))
  · rw [view_eq_some_iff]
    refine ⟨hk, hm, hi, hr, ht, ?_⟩
    rw [← hh]
    simp [Server.history, Server.note, ho]

/-- Change the metrics or `errno`. -/
theorem shared (h : Tracks mode hole c s₀ v s) (m : ServerMetrics) (e : Errno) :
    Tracks mode hole c s₀ v { s with metrics := m, errno := e } :=
  h.of_skeleton
    ⟨fun fd => ⟨_, rfl⟩, rfl, fun _ => rfl, fun _ => rfl, rfl, rfl, rfl, rfl, fun _ ho => .inl ho⟩
    h.view rfl id (fun _ _ => rfl) (fun _ _ => rfl) (fun _ => .inl rfl) ⟨[], by simp, by simp⟩
    ⟨rfl, rfl, rfl, rfl, rfl⟩

/-- Setting `errno` is not in view. -/
theorem setErrno (h : Tracks mode hole c s₀ v s) (e : Errno) :
    Tracks mode hole c s₀ v (s.setErrno e) := h.shared s.metrics e

/-- Counting an error is not in view. -/
theorem incErrors (h : Tracks mode hole c s₀ v s) : Tracks mode hole c s₀ v s.incErrors :=
  h.shared s.metrics.incErrors s.errno

/-- Set the interest of the client's registration. -/
theorem armClient (h : Tracks mode hole c s₀ v s) (i : FdInterest) :
    Tracks mode hole c s₀ { v with interest := i } (s.setInterest v.conn.clientFd i) := by
  obtain ⟨hk, hm, hi, hr, ht, hh⟩ := view_eq_some_iff.mp h.view
  obtain ⟨fd, j, hfd, hpos, hlt, hown, hitem, hne⟩ := h.client
  have hfds := fun n => fds_setInterest s v.conn.clientFd i n fun hu => (h.owned.registered n hu).1
  have hused : (s.selector.fds fd).used = true := (h.owned.client fd c hown).1
  refine h.of_skeleton (sameSkeleton_setInterest h.owned _ i) ?_ rfl id (fun _ _ => rfl)
    (fun _ _ => rfl) ?_ ⟨[], by simp [Server.setInterest], by simp⟩ ⟨rfl, rfl, rfl, rfl, rfl⟩
  · rw [view_eq_some_iff]
    refine ⟨hk, hm, ?_, ?_, ?_, hh⟩
    · rw [hfds, hfd]
      simp [hused]
    · rw [← hr]
      simp only [Server.relay]
      split
      · rw [hfds, if_neg]
        rintro ⟨heq, -⟩
        omega
      · rfl
    · rw [← ht]
      simp only [Server.tokens, jobs_setInterest]
      rfl
  · intro n
    rw [hfds]
    split
    · rename_i hn
      obtain rfl : n = fd := by omega
      exact .inr (.inl (h.frame.touched_of_owner (.inl hown)))
    · exact .inl rfl

/-- Set the interest of `origin_fd`. When that is still 0 the listener's interest changes. -/
theorem armOrigin (h : Tracks mode hole c s₀ v s) (i : FdInterest)
    (hz : mode.zero = true ∨ v.conn.originFd ≠ 0) :
    Tracks mode hole c s₀ { v with relay := v.relay.map fun r => (r.1, i) }
      (s.setInterest v.conn.originFd i) := by
  obtain ⟨hk, hm, hi, hr, ht, hh⟩ := view_eq_some_iff.mp h.view
  obtain ⟨fd, j, hfd, hpos, hlt, hown, hitem, hne⟩ := h.client
  have hfds := fun n => fds_setInterest s v.conn.originFd i n fun hu => (h.owned.registered n hu).1
  refine h.of_skeleton (sameSkeleton_setInterest h.owned _ i) ?_ rfl id (fun _ _ => rfl)
    (fun _ _ => rfl) ?_ ⟨[], by simp [Server.setInterest], by simp⟩ ⟨rfl, rfl, rfl, rfl, rfl⟩
  · rw [view_eq_some_iff]
    refine ⟨hk, hm, ?_, ?_, ?_, hh⟩
    · rw [hfds, if_neg]
      · exact hi
      · rintro ⟨heq, -⟩
        rw [hfd] at heq
        simp at heq
        omega
    · simp only [← hr, Server.relay]
      split
      · rename_i hposo
        rw [hfds]
        by_cases hused : (s.selector.fds v.conn.originFd.toNat).used = true
        · rw [if_pos ⟨by omega, hused⟩, relayOf_interest]
        · rw [if_neg fun hn => hused hn.2]
          rw [relayOf_of_not_used hused]
          rfl
      · rfl
    · rw [← ht]
      simp only [Server.tokens, jobs_setInterest]
      rfl
  · intro n
    rw [hfds]
    split
    · rename_i hn
      obtain ⟨hn, hused⟩ := hn
      rcases Nat.eq_zero_or_pos n with rfl | hposn
      · refine .inr (.inr ⟨hz.resolve_right (by omega), h.owned.zero, i, rfl⟩)
      · exact .inr (.inl (h.origin n hn.symm hposn))
    · exact .inl rfl

/-- Store a phase in the state machine; relaying is only ever left for the error phase. -/
theorem enterState (h : Tracks mode hole c s₀ v s) (state : Socks5State)
    (hleave : v.phase = some .copy ∨ v.phase = some .error → state = .error) :
    Tracks mode hole c s₀
      { v with phase := some state, history := v.history ++ [.enter c state] }
      (Socks5d.enterState c state s) := by
  obtain ⟨hk, hm, hi, hr, ht, hh⟩ := view_eq_some_iff.mp h.view
  refine h.of_skeleton ?_ ?_ rfl (fun hp => .inr (congrArg some (hleave hp))) (fun _ _ => rfl) ?_
    (fun _ => .inl rfl) ⟨[.enter c state], rfl, by simp [Obs.conn]⟩ ⟨rfl, rfl, rfl, rfl, rfl⟩
  · refine ⟨fun fd => ⟨_, rfl⟩, rfl, fun _ => rfl, ?_, rfl, rfl, rfl, rfl, ?_⟩
    · intro d
      by_cases hd : d = c
      · subst hd
        simp [Socks5d.enterState, Server.setCurrent, Server.note, hm]
      · simp [Socks5d.enterState, Server.setCurrent, Server.note, hd]
    · intro o ho
      rcases List.mem_append.mp ho with hold | hnew
      · exact .inl hold
      · obtain rfl := List.mem_singleton.mp hnew
        exact .inr (h.owned.known c (by simp [hk]))
  · rw [view_eq_some_iff]
    refine ⟨hk, by simp [Socks5d.enterState, Server.setCurrent, Server.note], hi, hr, ht, ?_⟩
    simp only [← hh, Server.history, Socks5d.enterState, Server.note, Server.setCurrent]
    simp [Obs.conn]
  · intro d hd
    simp [Socks5d.enterState, Server.setCurrent, Server.note, hd]

end Tracks

end Socks5d
