import Socks5d.Invariant
import Socks5d.Tally

/-!
# The number of connections and its limit

Accepting a client adds to the counter at its very end, and every way of closing a connection
takes from it. An accept that gives up after it registered the descriptor closes a connection
that was never added. Otherwise the counter is the number of connections there are, and no
accept goes beyond the limit.
-/

namespace Socks5d

open GuardedRun Fallible Census

namespace Server

/-- The client of this connection is registered: it was accepted and is not closed yet. -/
def isConnected (s : Server) (c : ConnId) : Prop :=
  ∃ fd < ITEMS_MAX_SIZE, (s.selector.fds fd).used = true ∧ (s.selector.fds fd).isClientOf c

instance (item : Item) (c : ConnId) : Decidable (item.isClientOf c) :=
  inferInstanceAs (Decidable (_ ∧ _))

instance (s : Server) (c : ConnId) : Decidable (s.isConnected c) :=
  inferInstanceAs (Decidable (∃ fd < ITEMS_MAX_SIZE, _))

/-- The number of SOCKS connections. -/
def connections (s : Server) : ℕ := ((Finset.range s.nextConn).filter s.isConnected).card

end Server

/-- An accept that gives up after it registered the descriptor, while connections are counted. -/
def AcceptSlips (s : Server) : Event → Prop
  | .readable fd env =>
    (s.selector.fds fd).handler = some .socksv5 ∧ GivesUp env s ∧ s.metrics.currentConnections ≠ 0
  | _ => False

instance (env : Env) (s : Server) : Decidable (GivesUp env s) :=
  decidable_of_iff (s.metrics.currentConnections.toNat < s.maxConn ∧ env.allocConn = true ∧
      env.peer ≠ none ∧ s.kernel.lowest < ITEMS_MAX_SIZE ∧
      (s.selector.fds s.kernel.lowest).used = false ∧
      (env.allocInBuff && env.allocOutBuff && env.allocStm) = false)
    ⟨fun ⟨h₁, h₂, h₃, h₄, h₅, h₆⟩ => ⟨h₁, h₂, h₃, h₄, h₅, h₆⟩,
      fun h => ⟨h.room, h.allocConn, h.peer, h.lt, h.free, h.lacks⟩⟩

instance (s : Server) : (e : Event) → Decidable (AcceptSlips s e)
  | .readable _ _ => inferInstanceAs (Decidable (_ ∧ _ ∧ _))
  | .writable _ _ | .notify _ | .resolved _ _ | .adminInterest _ _ | .adminClose _
  | .configure _ _ _ => isFalse id

variable {s s' : Server} {c : ConnId} {e : Event} {env : Env}

/-- A connection has a record exactly as long as its client is registered. -/
theorem Inv.isConnected_iff (h : Inv s) (c : ConnId) :
    s.isConnected c ↔ (s.conns c).isSome = true := by
  constructor
  · rintro ⟨fd, -, hused, hhandler, hdata⟩
    obtain ⟨-, hreg⟩ := h.owned.registered fd hused
    generalize s.selector.fds fd = item at hreg hhandler hdata
    cases hreg with
    | listener handler i howner hpassive =>
      obtain rfl := Option.some.inj hhandler
      simp at hpassive
    | client d i howner =>
      obtain rfl := Option.some.inj hdata
      obtain ⟨-, k, hk, -⟩ := h.owned.client fd d howner
      simp [hk]
    | relay d handler i hrelay =>
      obtain rfl := Option.some.inj hhandler
      cases hrelay
    | admin i howner => cases hdata
  · intro hsome
    obtain ⟨k, hk⟩ := Option.isSome_iff_exists.mp hsome
    obtain ⟨⟨fd, -, howner⟩, -⟩ := h.owned.conn c k hk
    obtain ⟨hused, -⟩ := h.owned.client fd c howner
    obtain ⟨i, hitem⟩ := h.clientItem howner
    exact ⟨fd, (h.owned.registered fd hused).1, hused, by rw [hitem]; exact ⟨rfl, rfl⟩⟩

theorem Inv.connections_eq (h : Inv s) : s.connections = taken s.conns s.nextConn := by
  unfold Server.connections taken
  simp only [h.isConnected_iff]

/-- Every connection has a descriptor of its own, so there are not many. -/
theorem Inv.connections_le (h : Inv s) : s.connections ≤ ITEMS_MAX_SIZE := by
  rw [h.connections_eq]
  have hclient : ∀ c, (s.conns c).isSome = true →
      ∃ fd < ITEMS_MAX_SIZE, s.kernel.owner fd = some (.client c) := by
    intro c hc
    obtain ⟨k, hk⟩ := Option.isSome_iff_exists.mp hc
    obtain ⟨⟨fd, -, howner⟩, -⟩ := h.owned.conn c k hk
    exact ⟨fd, (h.owned.registered fd (h.owned.client fd c howner).1).1, howner⟩
  choose! label hlt howner using hclient
  apply taken_le hlt
  intro c d hc hd hsame
  have hboth := (howner c hc).symm.trans (hsame ▸ howner d hd)
  exact FdOwner.client.inj (Option.some.inj hboth)

/-- A number that was handed out and not used. -/
theorem Tallied.skip (h : Tallied s) (hinv : Inv s) (hconns : s'.conns = s.conns)
    (hnext : s'.nextConn = s.nextConn + 1)
    (hcount : s'.metrics.currentConnections.toNat = s.metrics.currentConnections.toNat) :
    Tallied s' where
  known c hc := by
    rw [hconns] at hc
    rw [hnext]
    exact Nat.lt_succ_of_lt (h.known c hc)
  counted := by
    rw [hcount, hconns, hnext, taken_succ_of_none hinv.owned.conns_nextConn]
    exact h.counted

/-- An accept keeps the counter at the number of records, unless it slips. -/
theorem Admits.tallied (h : Admits env s s') (hinv : Inv s) (ht : Tallied s)
    (hslips : GivesUp env s → s.metrics.currentConnections = 0) : Tallied s' := by
  cases h with
  | refused _ hconns hnext hmetrics =>
    rcases hnext with hnext | hnext
    · unfold Tallied
      rw [hconns, hnext, hmetrics]
      exact ht
    · exact ht.skip hinv hconns hnext (by rw [hmetrics])
  | accepted _ _ k hconns hnext hmetrics =>
    have hle := hinv.connections_le
    rw [hinv.connections_eq, ← ht.counted] at hle
    refine ⟨fun c hc => ?_, ?_⟩
    · rw [hnext]
      rw [hconns] at hc
      by_cases hcn : c = s.nextConn
      · exact hcn ▸ Nat.lt_succ_self _
      · rw [Function.update_of_ne hcn] at hc
        exact Nat.lt_succ_of_lt (ht.known c hc)
    · rw [hconns, hnext, taken_fill, hmetrics, ← ht.counted]
      have hsmall : s.metrics.currentConnections.toNat + 1 < 2 ^ 64 := by
        simp only [ITEMS_MAX_SIZE] at hle
        omega
      change (s.metrics.currentConnections + 1).toNat = _
      rw [UInt64.toNat_add]
      exact Nat.mod_eq_of_lt hsmall
  | undone hgives hconns hnext hmetrics =>
    apply ht.skip hinv hconns hnext
    rw [hmetrics, ServerMetrics.toNat_decCurrConn, hslips hgives]
    rfl

/-- An accept that slips takes from the counter and from no connection. -/
theorem Admits.slipped (h : Admits env s s') (hinv : Inv s) (hinv' : Inv s') (ht : Tallied s)
    (hgives : GivesUp env s) (hcount : s.metrics.currentConnections ≠ 0) :
    s'.metrics.currentConnections.toNat ≠ s'.connections := by
  cases h with
  | refused hnot => exact absurd hgives hnot
  | accepted hnot => exact absurd hgives hnot
  | undone _ hconns hnext hmetrics =>
    rw [hinv'.connections_eq, hconns, hnext, taken_succ_of_none hinv.owned.conns_nextConn,
      ← ht.counted, hmetrics, ServerMetrics.toNat_decCurrConn]
    have hpos : s.metrics.currentConnections.toNat ≠ 0 := fun h => hcount (UInt64.toNat_inj.mp h)
    omega

/-- An accept goes up to the limit at most. -/
theorem Admits.connections_le (h : Admits env s s') (hinv : Inv s) (hinv' : Inv s') (ht : Tallied s) :
    s'.connections ≤ max s.connections s.maxConn := by
  rw [hinv'.connections_eq, hinv.connections_eq]
  have hnone := taken_succ_of_none hinv.owned.conns_nextConn
  cases h with
  | refused _ hconns hnext =>
    rcases hnext with hnext | hnext
    · rw [hconns, hnext]
      exact Nat.le_max_left _ _
    · rw [hconns, hnext, hnone]
      exact Nat.le_max_left _ _
  | accepted _ hroom k hconns hnext =>
    rw [hconns, hnext, taken_fill, ← ht.counted]
    exact (Nat.succ_le_of_lt hroom).trans (Nat.le_max_right _ _)
  | undone _ hconns hnext =>
    rw [hconns, hnext, hnone]
    exact Nat.le_max_left _ _

/-- Entering the callback changes nothing an accept depends on. -/
theorem givesUp_enter : GivesUp env (s.enter env) ↔ GivesUp env s :=
  ⟨fun h => ⟨h.room, h.allocConn, h.peer, h.lt, h.free, h.lacks⟩,
    fun h => ⟨h.room, h.allocConn, h.peer, h.lt, h.free, h.lacks⟩⟩

/-- What a SOCKS listener does. -/
theorem accept_admits (h : Inv s) (he : e.accepts s) (hstep : step s e = .ok s') :
    ∃ fd env, e = .readable fd env ∧ Admits env s s' := by
  cases e with
  | readable fd env =>
    have hhandler : (s.selector.fds fd).handler = some .socksv5 := he
    have hread : step s (.readable fd env) = socksv5PassiveAccept env (s.enter env) := by
      rw [step, handleRead, hhandler]
    obtain ⟨s₁, hs₁, -, hadmits⟩ :=
      socksv5PassiveAccept_background (h.entered 0 env).owned h.bufferSize env
    obtain rfl : s₁ = s' := Except.ok.inj (hs₁.symm.trans (hread.symm.trans hstep))
    refine ⟨fd, env, rfl, ?_⟩
    cases hadmits with
    | refused hgives hconns hnext hmetrics =>
      exact .refused (givesUp_enter.not.mp hgives) hconns hnext hmetrics
    | accepted hgives hroom k hconns hnext hmetrics =>
      exact .accepted (givesUp_enter.not.mp hgives) hroom k hconns hnext hmetrics
    | undone hgives hconns hnext hmetrics =>
      exact .undone (givesUp_enter.mp hgives) hconns hnext hmetrics
  | _ => exact he.elim

/-- Before the loop there are no connections. -/
theorem startServer_tallied {args : Args} (hs : startServer args = some s) : Tallied s :=
  stable_tallied.startServer ⟨nofun, (taken_of_none fun _ => rfl).symm⟩ hs

/-- As long as no accept slips, the counter is the number of connections, and no event goes
beyond the limit. The one event after which the counter is another number is an accept that
slips. -/
theorem connections_counted (h : ReachableUnder (fun s e => ¬ AcceptSlips s e) s) :
    s.metrics.currentConnections.toNat = s.connections ∧
    ∀ e s', enabled s e = true → step s e = .ok s' →
      (s'.metrics.currentConnections.toNat = s'.connections ↔ ¬ AcceptSlips s e) ∧
      (e.accepts s → s'.connections ≤ max s.connections s.maxConn) := by
  have hkeeps : ∀ s e s', Inv s → Tallied s → enabled s e = true → ¬ AcceptSlips s e →
      step s e = .ok s' → Tallied s' := by
    intro s e s' hinv ht he hguard hstep
    by_cases haccepts : e.accepts s
    · obtain ⟨fd, env, rfl, hadmits⟩ := accept_admits hinv haccepts hstep
      refine hadmits.tallied hinv ht fun hgives => ?_
      by_contra hcount
      exact hguard ⟨haccepts, hgives, hcount⟩
    · exact (ht.step haccepts).result hstep
  have ht : Tallied s := by
    refine h.invariant (fun _ _ hs₀ => startServer_tallied hs₀) fun s e s' hreach ht he hguard hstep => ?_
    exact hkeeps s e s' hreach.reachable.inv ht he hguard hstep
  have hinv := h.reachable.inv
  refine ⟨ht.counted.trans hinv.connections_eq.symm, fun e s' he hstep => ⟨⟨?_, ?_⟩, ?_⟩⟩
  · intro hcounted hslips
    cases e with
    | readable fd env =>
      obtain ⟨haccepts, hgives, hcount⟩ := hslips
      obtain ⟨_, _, heq, hadmits⟩ := accept_admits (e := .readable fd env) hinv haccepts hstep
      obtain ⟨rfl, rfl⟩ := Event.readable.inj heq
      exact hadmits.slipped hinv (hinv.step he hstep) ht hgives hcount hcounted
    | _ => exact hslips
  · intro hguard
    exact (hkeeps s e s' hinv ht he hguard hstep).counted.trans
      (hinv.step he hstep).connections_eq.symm
  · intro haccepts
    obtain ⟨fd, env, rfl, hadmits⟩ := accept_admits hinv haccepts hstep
    exact hadmits.connections_le hinv (hinv.step he hstep) ht

/-- Two clients are accepted, and the first one closes. -/
theorem connections_counted_two : ∃ s : Server, s.metrics.currentConnections = 1 ∧
    s.metrics.currentConnections.toNat = s.connections ∧
    ∀ e s', enabled s e = true → step s e = .ok s' →
      (s'.metrics.currentConnections.toNat = s'.connections ↔ ¬ AcceptSlips s e) ∧
      (e.accepts s → s'.connections ≤ max s.connections s.maxConn) := by
  obtain ⟨s, hs, hcheck⟩ := reachableUnder_of_after (fun s e => ¬ AcceptSlips s e)
    [arrives, arrives, .readable 2 { recv := .eof }]
    (fun s => s.metrics.currentConnections == 1) (by decide +kernel)
  exact ⟨s, beq_iff_eq.mp hcheck, connections_counted hs⟩

/-- One client is accepted, and there is no memory for the buffer of the next one. -/
theorem not_connections_counted :
    ¬ ∀ s, Reachable s → s.metrics.currentConnections.toNat = s.connections := by
  intro hall
  obtain ⟨s, hs, hcheck⟩ := reachable_of_after
    [arrives, .readable 0 { peer := some ([], 0), allocOutBuff := false }]
    (fun s => s.metrics.currentConnections == 0 && (s.conns 0).isSome && s.nextConn == 2)
    (by decide)
  simp only [Bool.and_eq_true, beq_iff_eq] at hcheck
  obtain ⟨⟨hzero, hsome⟩, hnext⟩ := hcheck
  have hpos : 0 < taken s.conns s.nextConn := taken_pos (hnext ▸ Nat.zero_lt_two) hsome
  have hcount := hall s hs
  rw [hs.inv.connections_eq, hzero] at hcount
  exact absurd hcount.symm (Nat.ne_of_gt hpos)

end Socks5d
