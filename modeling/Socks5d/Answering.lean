import Socks5d.Faults
import Socks5d.Flow
import Socks5d.Reuse

/-!
# Servers that answer

When no listener is armed through an unset `origin_fd` and every retry gets its descriptor back,
every registration has a callback for what it waits for and belongs to a connection that is
there. What then still stops the program are the hazards of a connection's own dialogue.
-/

namespace Socks5d

open GuardedRun Fallible

variable {s s' : Server} {c : ConnId} {v w : View} {e : Event} {r : Result}

/-- The connecting phase is entered from the request phase only. -/
theorem Move.enters_connecting (h : Move s c v e (.alive w)) (hphase : w.phase = some .connecting) :
    v.phase = some .connecting ∨ v.phase = some .connectionReq := by
  cases h with
  | quiet _ h₁ =>
    rcases h₁ with h₁ | ⟨-, h₁⟩
    · exact .inl (h₁.symm.trans hphase)
    · cases h₁.symm.trans hphase
  | chosen _ state _ h₁ h₂ =>
    obtain rfl := Option.some.inj (h₂.symm.trans hphase)
    simp at h₁
  | judged _ _ _ h₁ => cases h₁.symm.trans hphase
  | authorized _ _ h₁ => cases h₁.symm.trans hphase
  | passed _ _ h₁ => cases h₁.symm.trans hphase
  | unsupported _ _ _ _ h₁ => cases h₁.symm.trans hphase
  | requested _ h₁ => exact .inr h₁
  | noAddress _ _ h₁ => exact .inl h₁
  | relays _ _ _ h₁ => exact .inl h₁
  | refused _ _ _ h₁ => exact .inl h₁
  | skipped _ _ _ h₁ => cases h₁.symm.trans hphase
  | stale _ t _ _ _ hr =>
    rcases hr with ⟨x, hx, hcopy, -⟩ | ⟨_, hgone, -⟩
    · obtain rfl := Result.alive.inj hx
      cases hcopy.symm.trans hphase
    · cases hgone

/-- Reading a request leaves `origin_fd` alone. -/
theorem Requests.originFd {junk : Memory} {env : Env} (h : Requests c junk env v (.alive w))
    (hparser : v.conn.connReqParser.isSome = true) : w.conn.originFd = v.conn.originFd := by
  cases h with
  | more _ hreads =>
    rw [(hreads.fields hparser).1]
  | unsupported x u p hreads _ hqueued =>
    have hu : u.conn.originFd = x.conn.originFd := by rw [hqueued.fields.1]
    exact hu.trans (by rw [(hreads.fields hparser).1])
  | threaded x p hreads =>
    have hx : x.conn.originFd = v.conn.originFd := by rw [(hreads.fields hparser).1]
    exact hx
  | looked x p hreads =>
    have hx : x.conn.originFd = v.conn.originFd := by rw [(hreads.fields hparser).1]
    exact hx

/-- A pending connect is waited for by writability. -/
def View.PendingArmed (v : View) : Prop :=
  ∀ i, v.relay = some (.connectingHandler, i) → i = OP_WRITE

/-- A registration shown by the view is at a set `origin_fd`. -/
theorem origin_pos_of_relay {x : FdHandler × FdInterest} (hview : s.view c = some v)
    (hrelay : v.relay = some x) : 0 < v.conn.originFd := by
  obtain ⟨-, -, -, hshown, -⟩ := view_eq_some_iff.mp hview
  rw [hrelay, Server.relay] at hshown
  split at hshown
  · assumption
  · cases hshown

/-- A client in the connecting phase that may write is being refused. -/
theorem View.Ok.refused_of_write (h : v.Ok c) (hphase : v.phase = some .connecting)
    (hwrite : v.interest.write = true) : v.conn.originFd = -1 := by
  have hphaseOk := h.phase
  simp only [View.PhaseOk, hphase] at hphaseOk
  rcases hphaseOk with hw | hp | hr
  · rw [hw.interest] at hwrite
    cases hwrite
  · rw [hp.interest] at hwrite
    cases hwrite
  · exact hr.originFd

/-- Every reaction keeps a pending connect waiting for writability. -/
theorem View.PendingArmed.react (h : v.PendingArmed) (hinv : Inv s) (htidy : Tidy c s)
    (hview : s.view c = some v) (hr : Reaction s c v e (.alive w)) (hview' : s'.view c = some w) :
    w.PendingArmed := by
  intro i hrelay
  have hpos := origin_pos_of_relay hview' hrelay
  have hok := hinv.ok c v hview
  obtain ⟨hok', hmove⟩ := hr.progress hinv hview
  have hphase : w.phase = some .connecting := by
    rcases View.Ok.relay hok' _ hrelay with ⟨-, hphase, -⟩ | ⟨hcopy, -⟩
    · exact hphase
    · cases hcopy
  have hbefore := hmove.enters_connecting hphase
  have hphaseOk := hok.phase
  unfold View.PhaseOk at hphaseOk
  cases hr with
  | greets _ _ _ _ _ hp => rcases hp with hp | hp <;> simp [hp] at hbefore
  | authenticates _ _ _ _ _ hp => simp [hp] at hbefore
  | requests fd env _ _ _ hp hread =>
    rw [hp] at hphaseOk
    have hreq : v.Requesting := hphaseOk
    cases hread with
    | full _ => cases hp.symm.trans hphase
    | blocked _ _ => cases hp.symm.trans hphase
    | handled first rest buff _ _ _ _ _ hrequests =>
      have horigin : w.conn.originFd = v.conn.originFd := hrequests.originFd hreq.parser
      rw [horigin, hreq.originFd] at hpos
      exact absurd hpos (by simp)
  | relays _ _ _ _ _ hp => simp [hp] at hbefore
  | sends _ _ _ _ _ hready hwrote =>
    have horigin := hwrote.originFd
    rcases hbefore with hp | hp
    · rw [horigin, hok.refused_of_write hp hready] at hpos
      exact absurd hpos (by simp)
    · rw [hp] at hphaseOk
      have hreq : v.Requesting := hphaseOk
      rw [horigin, hreq.originFd] at hpos
      exact absurd hpos (by simp)
  | blocks env _ hp hwaiting hblocks =>
    cases hblocks with
    | noAddress _ _ _ => cases hphase
    | pending peer rest hdial =>
      have hi : some (FdHandler.connectingHandler, OP_WRITE) = some (.connectingHandler, i) := hrelay
      simp only [Option.some.injEq, Prod.mk.injEq, true_and] at hi
      exact hi.symm
    | established peer x y _ _ _ hwrote hcopy =>
      cases hcopy with
      | already hp' => cases hp'.symm.trans hphase
      | jumps relay _ _ => cases hphase
  | resolves env hp hwaiting =>
    have hzero : (0 : ℤ) < v.conn.originFd := hpos
    rw [hwaiting.originFd] at hzero
    exact absurd hzero (by simp)
  | connects fd env _ j hitem hset hp hconnects =>
    cases hconnects with
    | retried err relay _ _ _ _ hfrom =>
      -- the registration the retry inherits is the one of the failed attempt
      obtain ⟨n, hn⟩ := hfrom (.connectingHandler, i) hrelay
      obtain ⟨k, hk, hfd⟩ := htidy n _ hn
      obtain rfl : v.conn = k := Option.some.inj ((view_eq_some_iff.mp hview).1.symm.trans hk)
      exact h i (relay_of_relayOf hview hfd hset hn)
    | refused => cases hrelay
    | established table x _ relay _ _ _ hqueued hwrote =>
      have hcopy : (x.succeeding c).phase = some .copy := by
        have hx := hqueued.fields.2.2.1
        exact hx
      rcases hwrote.relaying hcopy with ⟨y, hy, hrelays⟩ | hgone
      · obtain rfl := Result.alive.inj hy
        cases (hrelays.phase.trans hcopy).symm.trans hphase
      · cases hgone
  | receives _ _ _ _ _ _ _ hp => simp [hp] at hbefore
  | delivers _ _ _ _ _ _ _ hp => simp [hp] at hbefore

/-- As long as retries keep their descriptor, pending connects wait for writability. -/
theorem ReachableUnder.pendingArmed (h : ReachableUnder RetryKeeps s) :
    ∀ c v, s.view c = some v → v.PendingArmed := by
  refine h.invariant (I := fun s => ∀ c v, s.view c = some v → v.PendingArmed) ?_ ?_
  · intro args s₀ hs₀ c v hview
    rw [startServer_view hs₀] at hview
    cases hview
  · intro s e s' hreach hall he _ hstep c w hview'
    have hinv := hreach.reachable.inv
    rcases (hinv.effect he hstep).view hview' with hbefore | ⟨-, hfresh⟩ | ⟨v, hview, hr⟩
    · exact hall c w hbefore
    · intro i hrelay
      rw [hfresh.relay] at hrelay
      cases hrelay
    · exact (hall c v hview).react hinv (hreach.tidy c) hview hr hview'

/-- No `send` of the event raises `SIGPIPE`. -/
def Event.SparesPipe : Event → Prop
  | .readable _ env | .writable _ env | .notify env | .resolved _ env => env.SparesPipe
  | .adminInterest _ _ | .adminClose _ | .configure _ _ _ => True

instance : (e : Event) → Decidable e.SparesPipe
  | .readable _ env | .writable _ env | .notify env | .resolved _ env =>
    inferInstanceAs (Decidable env.SparesPipe)
  | .adminInterest _ _ | .adminClose _ | .configure _ _ _ => isTrue trivial

/-- The event leaves the listeners waiting, a retry gets the descriptor it closed, and no `send`
ends the process. -/
def Steady (s : Server) (e : Event) : Prop :=
  SparesListener s e ∧ RetryReuses s e ∧ e.SparesPipe

instance (s : Server) (e : Event) : Decidable (Steady s e) :=
  inferInstanceAs (Decidable (_ ∧ _))

/-- A steady run is one in which retries keep their descriptor. -/
theorem ReachableUnder.retryKeeps (h : ReachableUnder Steady s) : ReachableUnder RetryKeeps s :=
  (h.mono fun _ _ hg => hg.2.1).keeps

/-- A steady run spares the listeners. -/
theorem ReachableUnder.spares (h : ReachableUnder Steady s) : ReachableUnder SparesListener s :=
  h.mono fun _ _ hg => hg.1

/-- A steady server has a callback for every readiness. -/
theorem handled_of_steady (h : ReachableUnder Steady s) (he : enabled s e = true) :
    ¬ e.Unhandled s := by
  have hinv := h.reachable.inv
  cases e with
  | readable fd env =>
    intro hhandler
    simp only [enabled, Bool.and_eq_true] at he
    obtain ⟨⟨⟨-, hused⟩, hready⟩, -⟩ := he
    obtain ⟨-, hreg⟩ := hinv.owned.registered fd hused
    have hrelayOf : ∃ c i, (s.selector.fds fd).relayOf c = some (.connectingHandler, i) ∧
        i.read = true := by
      have hhandler' : (s.selector.fds fd).handler = some .connectingHandler := hhandler
      generalize s.selector.fds fd = item at hreg hhandler' hready hused
      cases hreg with
      | listener handler i _ hpassive =>
        obtain rfl := Option.some.inj hhandler'
        simp at hpassive
      | client c i => cases hhandler'
      | relay c handler i =>
        obtain rfl := Option.some.inj hhandler'
        exact ⟨c, i, relayOf_eq_some_iff.mpr ⟨hused, rfl, rfl, rfl, rfl⟩, hready⟩
      | admin i => cases hhandler'
    obtain ⟨c, i, hrelay, hread⟩ := hrelayOf
    obtain ⟨k, hk, hfd⟩ := h.retryKeeps.tidy c fd _ hrelay
    obtain ⟨v, hview⟩ := Option.isSome_iff_exists.mp
      (by rw [hinv.owned.view_isSome, hk]; rfl : (s.view c).isSome = true)
    obtain rfl : v.conn = k := Option.some.inj ((view_eq_some_iff.mp hview).1.symm.trans hk)
    have hne := hinv.owned.origin_ne_zero_of_relayOf hk hrelay
    have harmed := h.retryKeeps.pendingArmed c v hview i (relay_of_relayOf hview hfd hne hrelay)
    rw [harmed] at hread
    cases hread
  | writable fd env =>
    intro hhandler
    simp only [enabled, Bool.and_eq_true] at he
    obtain ⟨⟨⟨-, hused⟩, hready⟩, -⟩ := he
    obtain ⟨-, hreg⟩ := hinv.owned.registered fd hused
    have hhandler' : (s.selector.fds fd).handler = some .socksv5 ∨
      (s.selector.fds fd).handler = some .confProtocol := hhandler
    have hlistener : s.kernel.owner fd = some .listener := by
      generalize s.selector.fds fd = item at hreg hhandler'
      cases hreg with
      | listener handler i howner _ => exact howner
      | client c i => simp at hhandler'
      | relay c handler i hrelay =>
        rcases hhandler' with hh | hh
        · obtain rfl := Option.some.inj hh
          cases hrelay
        · obtain rfl := Option.some.inj hh
          cases hrelay
      | admin i => simp at hhandler'
    rw [h.spares.listening fd hlistener] at hready
    cases hready
  | _ => exact id

/-- A steady server delivers its events to connections that are there. -/
theorem live_of_steady (h : ReachableUnder Steady s) (he : enabled s e = true)
    (htarget : e.target s = some c) : (s.conns c).isSome = true := by
  have hinv := h.reachable.inv
  have hitem : ∀ fd, (s.selector.fds fd).used = true → (s.selector.fds fd).data = some c →
      (s.conns c).isSome = true := by
    intro fd hused hdata
    obtain ⟨-, hreg⟩ := hinv.owned.registered fd hused
    generalize hfds : s.selector.fds fd = item at hreg hdata
    cases hreg with
    | listener => cases hdata
    | client d i howner =>
      obtain rfl := Option.some.inj hdata
      obtain ⟨-, k, hk, -⟩ := hinv.owned.client fd d howner
      rw [hk]
      rfl
    | relay d handler i hrelay =>
      obtain rfl := Option.some.inj hdata
      obtain ⟨k, hk, -⟩ := h.retryKeeps.tidy d fd (handler, i)
        (relayOf_eq_some_iff.mpr ⟨hused, by rw [hfds], hrelay, by rw [hfds], by rw [hfds]⟩)
      rw [hk]
      rfl
    | admin => cases hdata
  cases e with
  | readable fd env =>
    simp only [enabled, Bool.and_eq_true] at he
    exact hitem fd he.1.1.2 htarget
  | writable fd env =>
    simp only [enabled, Bool.and_eq_true] at he
    exact hitem fd he.1.1.2 htarget
  | notify env =>
    cases hjobs : s.selector.resolutionJobs with
    | nil => simp [enabled, hjobs] at he
    | cons fd jobs =>
      obtain ⟨d, howner⟩ := hinv.owned.jobs fd (by rw [hjobs]; exact List.mem_cons_self)
      have hdata : (s.selector.fds fd).data = some c := by
        simpa [Event.target, hjobs] using htarget
      exact hitem fd (hinv.owned.client fd d howner).1 hdata
  | resolved d env =>
    obtain rfl : d = c := Option.some.inj htarget
    exact hinv.owned.resolving d (by simpa [enabled] using he)
  | _ => cases htarget

/-- As long as the listeners are spared, retries get their descriptor back and no `send` raises
`SIGPIPE`, every event is delivered to a connection that is there, its handler has a callback for
it, and it is answered unless it raises `SIGPIPE` now or is one of the hazards of that connection's
dialogue. -/
theorem answered_of_steady (h : ReachableUnder Steady s) (he : enabled s e = true) :
    (∀ c, e.target s = some c → (s.conns c).isSome = true) ∧ ¬ e.Unhandled s ∧
      (e.SparesPipe → ¬ (TeardownHazard s e ∧ e.Receives s) → ∃ s', step s e = .ok s') := by
  refine ⟨fun c htarget => live_of_steady h he htarget, handled_of_steady h he, fun _ hsafe => ?_⟩
  have hdispatch : Holds (Explained s e) (step s e) (Effect ⟨true, false⟩ s e) :=
    dispatch_explained h.reachable.inv he (.inl rfl) (by simp)
  by_cases hreceives : e.Receives s
  · cases hs : step s e with
    | ok s' => exact ⟨s', rfl⟩
    | error f =>
      rcases hdispatch.fault hs with ⟨-, hhazard⟩ | ⟨-, hun⟩
      · exact absurd ⟨hhazard, hreceives⟩ hsafe
      · exact absurd hun (handled_of_steady h he)
  · exact full_answered hreceives

/-- A notification whose first address answers at once. -/
def connectsAtOnce : Event := .notify { connects := [.connected], sends := [.accepted 21] }

/-- Connecting to the address a client asked for is answered. -/
theorem answered_of_steady_notified : ∃ s s' : Server,
    (s.conns 0).isSome = true ∧ step s connectsAtOnce = .ok s' := by
  obtain ⟨s, hs, hcheck⟩ := reachableUnder_of_after Steady [arrives, greets 2, asks 2 [loopback]]
    (fun s => enabled s connectsAtOnce && decide (connectsAtOnce.target s = some 0) &&
      (step s connectsAtOnce).isOk)
    (by decide +kernel)
  simp only [Bool.and_eq_true, decide_eq_true_eq] at hcheck
  obtain ⟨⟨he, htarget⟩, hok⟩ := hcheck
  obtain ⟨hlive, -, hanswered⟩ := answered_of_steady hs he
  have hsafe : ¬ (TeardownHazard s connectsAtOnce ∧ connectsAtOnce.Receives s) := by
    rintro ⟨hhazard, hreceives⟩
    cases hstep : step s connectsAtOnce with
    | error f =>
      rw [hstep] at hok
      cases hok
    | ok s' => exact hhazard.faults hs.reachable.inv he hreceives hstep
  obtain ⟨s', hs'⟩ := hanswered (by decide) hsafe
  exact ⟨s, s', hlive 0 htarget, hs'⟩

end Socks5d
