import Socks5d.Holdings

/-!
# Every open descriptor is accounted for

No run leaks a descriptor: whatever is open is a registered listener or administration connection,
the registered client or the `origin_fd` of a connection that is there, or was inherited. In every
such state the table, the two sets and the cached maximum agree.
-/

namespace Socks5d

open GuardedRun Fallible

variable {c : ConnId} {s s' : Server} {e : Event} {v : View} {r : Result}

/-- Accepting a connection keeps the books, whichever step of it fails. -/
theorem passiveAccept_books (h : s.selector.Neat) (handler : FdHandler) (owner : FdOwner)
    (data : Option ConnId) (env : Env) :
    (passiveAccept handler owner data env s).2.selector.Neat := by
  have hregistered := h.register s.kernel.lowest handler OP_READ data
  unfold passiveAccept
  split
  · exact h
  dsimp only
  split
  · exact hregistered
  · exact hregistered

theorem s5adminPassiveAccept_books (h : s.selector.Neat) (env : Env) :
    (s5adminPassiveAccept env s).selector.Neat := by
  unfold s5adminPassiveAccept
  split
  · exact h
  · exact passiveAccept_books h _ _ _ env

theorem socksv5PassiveAccept_books (h : s.selector.Neat) (env : Env) :
    Holds (fun _ => True) (socksv5PassiveAccept env s) fun s' => s'.selector.Neat := by
  unfold socksv5PassiveAccept
  split
  · split
    · exact h
    · exact h
  split
  · exact h
  have haccepted := passiveAccept_books (s := { s.setConn s.nextConn callocConn with
    nextConn := s.nextConn + 1 }) h .socks5Handler (.client s.nextConn) (some s.nextConn) env
  dsimp only
  split
  · rename_i s₁ heq
    rw [heq] at haccepted
    exact haccepted
  · rename_i fd s₁ heq
    rw [heq] at haccepted
    have hundone : ∀ t : Server, t.selector.Neat →
        Holds (fun _ => True) (selectorUnregisterFd t fd) fun s' => s'.selector.Neat :=
      fun t ht => .any fun _ hs => selectorUnregisterFd_books ht hs
    apply holds_conn
    intro k _
    split
    · exact hundone _ haccepted
    split
    · exact hundone _ haccepted
    split
    · exact hundone _ haccepted
    · exact haccepted

/-- An event for no connection keeps the books. -/
theorem Inv.background_books (hinv : Inv s) (he : enabled s e = true)
    (hs : Socks5d.step s e = .ok s') (htarget : e.target s = none) (h : s.selector.Neat) :
    s'.selector.Neat := by
  cases e with
  | readable fd env =>
    simp only [enabled, Bool.and_eq_true, Bool.not_eq_true'] at he
    obtain ⟨⟨⟨-, hused⟩, -⟩, hadmin⟩ := he
    obtain ⟨-, hreg⟩ := hinv.owned.registered fd hused
    simp only [Socks5d.step] at hs
    simp only [Event.target] at htarget
    generalize s.selector.fds fd = item at hreg hadmin hused hs htarget
    cases hreg with
    | listener handler i howner hpassive =>
      rcases hpassive with rfl | rfl
      · exact (socksv5PassiveAccept_books (s := s.enter env) h env).result hs
      · obtain rfl := Except.ok.inj hs
        exact s5adminPassiveAccept_books (s := s.enter env) h env
    | client => cases htarget
    | relay => cases htarget
    | admin i howner => simp [isAdmin, hused] at hadmin
  | writable fd env =>
    simp only [enabled, Bool.and_eq_true, Bool.not_eq_true'] at he
    obtain ⟨⟨⟨-, hused⟩, -⟩, hadmin⟩ := he
    obtain ⟨-, hreg⟩ := hinv.owned.registered fd hused
    simp only [Socks5d.step] at hs
    simp only [Event.target] at htarget
    generalize s.selector.fds fd = item at hreg hadmin hused hs htarget
    cases hreg with
    | listener handler i howner hpassive =>
      rcases hpassive with rfl | rfl
      · cases hs
      · cases hs
    | client => cases htarget
    | relay => cases htarget
    | admin i howner => simp [isAdmin, hused] at hadmin
  | notify env =>
    cases hjobs : s.selector.resolutionJobs with
    | nil => simp [enabled, hjobs] at he
    | cons fd jobs =>
      obtain ⟨c, howner⟩ := hinv.owned.jobs fd (by rw [hjobs]; exact List.mem_cons_self)
      obtain ⟨i, hitem⟩ := hinv.clientItem howner
      simp [Event.target, hjobs, hitem] at htarget
  | resolved c env => cases htarget
  | adminInterest fd i =>
    obtain rfl := Except.ok.inj hs
    exact h.setInterest fd i
  | adminClose fd => exact selectorUnregisterFd_books h hs
  | configure users bufferSize maxConn => exact Except.ok.inj hs ▸ h

/-- A callback of a connection leaves nothing open for an origin that its record does not name. -/
theorem Holding.react (h : Holding c s) (hinv : Inv s) (he : enabled s e = true)
    (hs : Socks5d.step s e = .ok s') (hview : s.view c = some v) (htarget : e.target s = some c)
    (hreaction : Reaction s c v e r) : Holding c s' := by
  have hentered : ∀ env, Holding c (s.enter env) := fun env => h.of_eq rfl rfl rfl
  cases e with
  | readable fd env =>
    simp only [enabled, Bool.and_eq_true] at he
    obtain ⟨-, hreg⟩ := hinv.owned.registered fd he.1.1.2
    simp only [Socks5d.step] at hs
    simp only [Event.target] at htarget
    generalize s.selector.fds fd = item at hreg hs htarget
    cases hreg with
    | listener => cases htarget
    | client d i howner =>
      obtain rfl := Option.some.inj htarget
      exact ((hentered env).socksv5Read env).result hs
    | relay d handler i hrelay =>
      obtain rfl := Option.some.inj htarget
      cases handler with
      | copySelectorHandler =>
        exact ((hentered env).copyReadHandler env).result hs
      | connectingHandler => cases hs
      | _ => cases hrelay
    | admin => cases htarget
  | writable fd env =>
    simp only [enabled, Bool.and_eq_true] at he
    obtain ⟨-, hreg⟩ := hinv.owned.registered fd he.1.1.2
    simp only [Socks5d.step] at hs
    simp only [Event.target] at htarget
    generalize s.selector.fds fd = item at hreg hs htarget
    cases hreg with
    | listener => cases htarget
    | client d i howner =>
      obtain rfl := Option.some.inj htarget
      exact ((hentered env).socksv5Write env.send).result hs
    | relay d handler i hrelay =>
      obtain rfl := Option.some.inj htarget
      cases handler with
      | copySelectorHandler =>
        exact ((hentered env).copyWriteHandler env.send).result hs
      | connectingHandler =>
        exact ((hentered env).handleWriteConnecting env).result hs
      | _ => cases hrelay
    | admin => cases htarget
  | notify env =>
    cases hjobs : s.selector.resolutionJobs with
    | nil => simp [enabled, hjobs] at he
    | cons fd jobs =>
      obtain ⟨d, howner⟩ := hinv.owned.jobs fd (by rw [hjobs]; exact List.mem_cons_self)
      obtain ⟨i, hitem⟩ := hinv.clientItem howner
      obtain rfl : d = c := by simpa [Event.target, hjobs, hitem] using htarget
      have hunset : ∀ k, s.conns d = some k → k.originFd = 0 := by
        intro k hk
        cases hreaction with
        | blocks _ _ _ hwaiting =>
          obtain rfl := Option.some.inj ((view_eq_some_iff.mp hview).1.symm.trans hk)
          exact hwaiting.originFd
      have htaken := (hentered env).setSelector (h.books.setJobs jobs)
      have hjobs' : (s.enter env).selector.resolutionJobs = fd :: jobs := hjobs
      have hitem' : (s.enter env).selector.fds fd = ⟨fd, i, some .socks5Handler, some d⟩ := hitem
      simp only [Socks5d.step, handleBlockNotification, hjobs', hitem', handleBlock] at hs
      split at hs
      · exact (htaken.socksv5Block env hunset).result hs
      · exact Except.ok.inj hs ▸ htaken
  | resolved d env =>
    obtain rfl := Option.some.inj htarget
    have hended : Holding d { s with resolving := s.resolving.erase d } := h.of_eq rfl rfl rfl
    exact (hended.resolveHostName _).result hs
  | adminInterest fd i => cases htarget
  | adminClose fd => cases htarget
  | configure users bufferSize maxConn => cases htarget

/-- What is open for the administration was inherited or is registered. -/
def OthersHeld (args : Args) (s : Server) : Prop :=
  ∀ fd, s.kernel.owner fd = some .other →
    args.kernel.owner fd = some .other ∨ isAdmin (s.selector.fds fd) = true

/-- One event keeps the books of the table and of every connection. -/
theorem Inv.holding_step (hinv : Inv s) (he : enabled s e = true)
    (hs : Socks5d.step s e = .ok s') (h : ∀ c, Holding c s) : ∀ c, Holding c s' := by
  intro c
  cases hinv.effect he hs with
  | background hb htarget =>
    have hkeeps := hinv.background_keepsHeld he hs htarget
    refine ⟨hinv.background_books he hs htarget (h c).books, fun fd p ho => ?_⟩
    rcases hkeeps.opened fd _ ho with hold | hother | hclient
    · rcases (h c).origin fd p hold with hzero | ⟨k, hk, hfd⟩
      · exact .inl hzero
      · exact .inr ⟨k, hb.kept c k hk, hfd⟩
    · cases hother
    · cases hclient
  | reaction d v r s₀ hview htarget hreaction hentered hlands hjobs =>
    have hown := (h d).react hinv he hs hview htarget hreaction
    by_cases hcd : c = d
    · exact hcd ▸ hown
    · refine ⟨hown.books, fun fd p ho => ?_⟩
      rcases hlands.frame.owners fd with heq | ⟨-, hnone | ⟨q, hq⟩⟩
      · rw [hlands.frame.conns c hcd, hentered.conns]
        exact (h c).origin fd p (by rw [← hentered.kernel, ← heq, ho])
      · rw [hnone] at ho
        cases ho
      · -- what the callback opened belongs to its own connection
        rw [hq] at ho
        injection ho with ho
        injection ho with hdc
        exact absurd hdc.symm hcd

/-- One event keeps account of what the administration holds. -/
theorem Inv.others_step {args : Args} (hinv : Inv s) (he : enabled s e = true)
    (hs : Socks5d.step s e = .ok s') (h : OthersHeld args s) : OthersHeld args s' := by
  intro fd ho
  cases hinv.effect he hs with
  | background _ htarget =>
    rcases (hinv.background_keepsHeld he hs htarget).others fd ho with ⟨hold, hitem⟩ | hadmin
    · rw [hitem]
      exact h fd hold
    · exact .inr hadmin
  | reaction d v r s₀ _ _ _ hentered hlands _ =>
    rcases hlands.frame.owners fd with heq | ⟨-, hnone | ⟨q, hq⟩⟩
    · have hold : s.kernel.owner fd = some .other := by rw [← hentered.kernel, ← heq, ho]
      have hold₀ : s₀.kernel.owner fd = some .other := by rw [← heq, ho]
      refine (h fd hold).imp id fun hadmin => ?_
      rcases hlands.frame.items fd with hitem | htouched | ⟨-, hlistener, -⟩
      · rw [hitem, hentered.fds]
        exact hadmin
      · exact absurd htouched (not_touched_of_owner hold₀ (by simp [FdOwner.conn]))
      · rw [hold₀] at hlistener
        cases hlistener
    · rw [hnone] at ho
      cases ho
    · rw [hq] at ho
      cases ho

/-- The program starts with the books in order and nothing open but what it inherited. -/
theorem startServer_holding {args : Args} (hs : startServer args = some s) :
    (∀ c, Holding c s) ∧ OthersHeld args s := by
  have hbooks : s.selector.Neat ∧ ∀ fd, s.kernel.owner fd = some .other →
      args.kernel.owner fd = some .other := by
    refine startServer_invariant (P := fun s => s.selector.Neat ∧ ∀ fd,
      s.kernel.owner fd = some .other → args.kernel.owner fd = some .other) hs
      ⟨FdSelector.Neat.new, fun fd ho => ?_⟩ ?_
    · simp only [Args.initial, Kernel.owner_close] at ho
      split at ho
      · cases ho
      · exact ho
    · rintro s₁ handler s₂ hboot - ⟨hkept, hinherited⟩ hs₂
      have hregistered := hkept.register s₁.kernel.lowest handler OP_READ none
      unfold createAndRegisterPassiveSocket at hs₂
      dsimp only at hs₂
      split at hs₂
      · cases hs₂
      · obtain rfl := Option.some.inj hs₂
        refine ⟨hregistered, fun fd ho => hinherited fd ?_⟩
        simp only [Kernel.owner_openFd] at ho
        split at ho
        · cases ho
        · exact ho
  refine ⟨fun c => ⟨hbooks.1, fun fd p ho => ?_⟩, fun fd ho => .inl (hbooks.2 fd ho)⟩
  rcases (startServer_booting hs).1.owner fd _ ho with hlistener | hother
  · cases hlistener
  · cases hother

theorem Reachable.holding (h : Reachable s) : ∀ c, Holding c s :=
  ReachableUnder.invariant h (fun _ _ hs₀ => (startServer_holding hs₀).1)
    fun _ _ _ hreach hI he _ hs => (ReachableUnder.reachable hreach).inv.holding_step he hs hI

theorem othersHeld_of_run {args : Args} {s₀ : Server} {events : List Event}
    (hs₀ : startServer args = some s₀) (hrun : Run machine unguarded s₀ events s) :
    OthersHeld args s := by
  have hboth : Inv s ∧ OthersHeld args s := by
    refine hrun.invariant (I := fun s => Inv s ∧ OthersHeld args s)
      ⟨(startServer_inv hs₀).1, (startServer_holding hs₀).2⟩ ?_
    rintro s e s' ⟨hinv, h⟩ he - hs
    exact ⟨hinv.step he hs, hinv.others_step he hs h⟩
  exact hboth.2

/-- Who answers for an open descriptor: its registration, the record that names it, or whoever
started the program. -/
def Accounted (args : Args) (s : Server) (fd : ℕ) : FdOwner → Prop
  | .listener => ∃ handler i, (handler = .socksv5 ∨ handler = .confProtocol) ∧
      s.selector.fds fd = ⟨fd, i, some handler, none⟩
  | .client c => (∃ i, s.selector.fds fd = ⟨fd, i, some .socks5Handler, some c⟩) ∧
      ∃ k, s.conns c = some k ∧ k.clientFd = fd
  | .origin c _ => ∃ k, s.conns c = some k ∧ k.originFd = fd
  | .other => args.kernel.owner fd = some .other ∨ isAdmin (s.selector.fds fd) = true

/-- In every run every open descriptor is accounted for: whatever failed, was retried or torn down
on the way, nothing is left open that no record or registration names. -/
theorem descriptors_accounted {args : Args} {s₀ : Server} {events : List Event}
    (hs₀ : startServer args = some s₀) (hrun : Run machine unguarded s₀ events s) {fd : ℕ}
    {o : FdOwner} (howner : s.kernel.owner fd = some o) : Accounted args s fd o := by
  have hreach : Reachable s := ⟨args, s₀, events, hs₀, hrun⟩
  have hinv := hreach.inv
  cases o with
  | listener =>
    have hused := hinv.owned.listener fd howner
    obtain ⟨-, hreg⟩ := hinv.owned.registered fd hused
    generalize hitem : s.selector.fds fd = item at hreg
    cases hreg with
    | listener handler i _ hpassive => exact ⟨handler, i, hpassive, hitem⟩
    | client d i hclient => cases howner.symm.trans hclient
    | relay d handler i _ horigin =>
      obtain ⟨_, _, ho⟩ := horigin _ howner
      cases ho
    | admin i hother => cases howner.symm.trans hother
  | client c =>
    obtain ⟨i, hitem⟩ := hinv.clientItem howner
    exact ⟨⟨i, hitem⟩, (hinv.owned.client fd c howner).2⟩
  | origin c p =>
    rcases (hreach.holding c).origin fd p howner with rfl | hheld
    · cases hinv.owned.zero.symm.trans howner
    · exact hheld
  | other => exact othersHeld_of_run hs₀ hrun fd howner

/-- The socket of a pending connect is at the `origin_fd` of its connection. -/
theorem descriptors_accounted_pending : ∃ (s : Server) (k : Socks5Conn),
    s.kernel.owner 3 = some (.origin 0 loopback) ∧ s.conns 0 = some k ∧ k.originFd = 3 := by
  obtain ⟨s, ⟨args, s₀, events, hs₀, hrun⟩, hcheck⟩ := reachable_of_after
    [arrives, greets 2, asks 2 [loopback, loopback],
      .notify { connects := [.failed .econnrefused, .failed .einprogress] }]
    (fun s => s.kernel.owner 3 == some (.origin 0 loopback))
    (by decide +kernel)
  have howner := beq_iff_eq.mp hcheck
  obtain ⟨k, hk, hfd⟩ := descriptors_accounted hs₀ hrun howner
  exact ⟨s, k, howner, hk, hfd⟩

end Socks5d
