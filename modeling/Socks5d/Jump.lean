import Socks5d.Phases

/-!
# Jumps of the state machine

Teardown through the two descriptors, departure from a phase, and arrival in the next one, each
followed on the view. A jump succeeds when the parser it frees exists; nothing here depends on
what the environment answers.
-/

namespace Socks5d

open Fallible

variable {mode : Mode} {hole : Bool} {c : ConnId} {s₀ s : Server} {v : View}

/-- The close of both descriptors releases the connection and leaves no registration. -/
theorem Tracks.unregisterBoth (h : Tracks mode hole c s₀ v s) (guardOrigin guardClient : Bool)
    (htokens : v.tokens = 0) (horigin : guardOrigin = true ∨ v.conn.originFd ≠ 0) :
    ∃ s', Socks5d.unregisterBoth guardOrigin guardClient c s = .ok s' ∧
      Released mode c s₀ (v.history ++ [.released c]) s' := by
  obtain ⟨cfd, -, hcfd, hcpos, -⟩ := h.client
  have hclient : guardClient = false ∨ v.conn.clientFd > 0 := .inr (by omega)
  unfold Socks5d.unregisterBoth
  simp only [h.conn_eq, ok_bind]
  by_cases hskip : guardOrigin = false ∨ v.conn.originFd > 0
  · rw [if_pos hskip]
    have hne : v.conn.originFd ≠ 0 := by
      rcases hskip with hg | hpos
      · exact horigin.resolve_left (by simp [hg])
      · omega
    obtain ⟨s₁, hs₁, h₁⟩ := h.unregisterOrigin hne
    rw [hs₁, ok_bind]
    simp only [h₁.conn_eq, ok_bind]
    rw [if_pos hclient]
    exact h₁.release htokens (fun _ => rfl)
  · rw [if_neg hskip]
    simp only [pure_eq_ok, ok_bind, h.conn_eq]
    rw [if_pos hclient]
    refine h.release htokens fun _ => ?_
    obtain ⟨-, -, -, hr, -⟩ := view_eq_some_iff.mp h.view
    rw [← hr, Server.relay, if_neg]
    intro hpos
    exact hskip (.inr hpos)

/-- The record and registration after a phase was left. -/
def View.depart (v : View) : Socks5State → View
  | .handshake => { v with conn := { v.conn with handshakeParser := none } }
  | .auth => { v with conn := { v.conn with authParser := none } }
  | .connectionReq => { v with conn := { v.conn with connReqParser := none } }
  | .copy => { v with relay := none }
  | .connecting | .done | .error => v

/-- The parser of the phase exists. -/
def View.Equipped (v : View) : Socks5State → Prop
  | .handshake => v.conn.handshakeParser.isSome = true
  | .auth => v.conn.authParser.isSome = true
  | .connectionReq => v.conn.connReqParser.isSome = true
  | .connecting | .copy | .done | .error => True

theorem View.depart_fields (v : View) (state : Socks5State) :
    (v.depart state).phase = v.phase ∧ (v.depart state).history = v.history ∧
      (v.depart state).tokens = v.tokens ∧ (v.depart state).interest = v.interest ∧
      (v.depart state).conn.originFd = v.conn.originFd := by
  cases state with
  | _ => exact ⟨rfl, rfl, rfl, rfl, rfl⟩

theorem View.depart_relay (v : View) {state : Socks5State} (h : state ≠ .copy) :
    (v.depart state).relay = v.relay := by
  cases state with
  | copy => exact absurd rfl h
  | _ => rfl

/-- Departure frees the parser of the phase, or unregisters the origin. -/
theorem Tracks.depart (h : Tracks mode hole c s₀ v s) {state : Socks5State} {key : SelectorKey}
    (hkey : key.data = c) (hequipped : v.Equipped state)
    (hcopy : state = .copy → v.conn.originFd ≠ 0) :
    ∃ s', onDeparture state key s = .ok s' ∧ Tracks mode hole c s₀ (v.depart state) s' ∧
      (state ≠ .copy → s'.selector = s.selector) := by
  subst hkey
  cases state with
  | handshake =>
    obtain ⟨p, hp⟩ := Option.isSome_iff_exists.mp hequipped
    refine ⟨s.setConn key.data { v.conn with handshakeParser := none }, ?_,
      h.setConn { v.conn with handshakeParser := none } rfl rfl rfl, fun _ => rfl⟩
    simp [onDeparture, handshakeOnDeparture, h.conn_eq, hp]
  | auth =>
    obtain ⟨p, hp⟩ := Option.isSome_iff_exists.mp hequipped
    refine ⟨s.setConn key.data { v.conn with authParser := none }, ?_,
      h.setConn { v.conn with authParser := none } rfl rfl rfl, fun _ => rfl⟩
    simp [onDeparture, authOnDeparture, h.conn_eq, hp]
  | connectionReq =>
    obtain ⟨p, hp⟩ := Option.isSome_iff_exists.mp hequipped
    refine ⟨s.setConn key.data { v.conn with connReqParser := none }, ?_,
      h.setConn { v.conn with connReqParser := none } rfl rfl rfl, fun _ => rfl⟩
    simp [onDeparture, connectionReqOnDeparture, h.conn_eq, hp]
  | copy =>
    obtain ⟨s', hs', h'⟩ := h.unregisterOrigin (hcopy rfl)
    exact ⟨s', by simp [onDeparture, copyOnDeparture, h.conn_eq, hs'], h', by simp⟩
  | connecting => exact ⟨s, rfl, h, fun _ => rfl⟩
  | done => exact ⟨s, rfl, h, fun _ => rfl⟩
  | error => exact ⟨s, rfl, h, fun _ => rfl⟩

/-- A jump to the current phase does nothing. -/
theorem Tracks.jump_same (h : Tracks mode hole c s₀ v s) {state : Socks5State}
    {key : SelectorKey} (hkey : key.data = c) (hphase : v.phase = some state) :
    Socks5d.jump state key s = .ok s := by
  subst hkey
  simp [Socks5d.jump, h.stm_eq, hphase]

/-- A jump departs, stores the phase and arrives. -/
theorem Tracks.jump_eq (h : Tracks mode hole c s₀ v s) {state : Socks5State} (next : Socks5State)
    {key : SelectorKey} (hkey : key.data = c) (hphase : v.phase = some state)
    (hne : state ≠ next) (hequipped : v.Equipped state)
    (hcopy : state = .copy → v.conn.originFd ≠ 0)
    (hleave : state = .copy ∨ state = .error → next = .error) :
    ∃ s', Socks5d.jump next key s = onArrival next key s' ∧
      Tracks mode hole c s₀ { v.depart state with
        phase := some next, history := v.history ++ [.enter c next] } s' ∧
      (state ≠ .copy → s'.selector = s.selector) := by
  obtain ⟨s₁, hs₁, h₁, hsel⟩ := h.depart hkey hequipped hcopy
  subst hkey
  obtain ⟨hphase₁, hhistory₁, -⟩ := v.depart_fields state
  have h₂ := h₁.enterState next (by
    rw [hphase₁, hphase]
    intro hor
    exact hleave (hor.imp Option.some.inj Option.some.inj))
  rw [hhistory₁] at h₂
  refine ⟨Socks5d.enterState key.data next s₁, ?_, h₂, hsel⟩
  simp [Socks5d.jump, h.stm_eq, hphase, hne, hs₁, h₁.stm_eq]

/-- A jump into the error phase releases the connection. -/
theorem Tracks.jump_error (h : Tracks mode hole c s₀ v s) {state : Socks5State}
    {key : SelectorKey} (hkey : key.data = c) (hphase : v.phase = some state)
    (hne : state ≠ .error) (hequipped : v.Equipped state)
    (hcopy : state = .copy → v.conn.originFd ≠ 0) (htokens : v.tokens = 0) :
    ∃ s', Socks5d.jump .error key s = .ok s' ∧
      Released mode c s₀ (v.history ++ [.enter c .error, .released c]) s' := by
  obtain ⟨s₁, hs₁, h₁, -⟩ := h.jump_eq .error hkey hphase hne hequipped hcopy (fun _ => rfl)
  subst hkey
  obtain ⟨-, -, htokens₁, -⟩ := v.depart_fields state
  obtain ⟨s₂, hs₂, h₂⟩ := h₁.unregisterBoth true true (htokens₁.trans htokens) (.inl rfl)
  refine ⟨s₂, ?_, by simpa [List.append_assoc] using h₂⟩
  rw [hs₁]
  exact hs₂

/-- A jump from the greeting into the authentication phase. -/
theorem Tracks.jump_auth (h : Tracks mode hole c s₀ v s) {key : SelectorKey} (hkey : key.data = c)
    (hphase : v.phase = some .handshake) (hequipped : v.Equipped .handshake) :
    ∃ s', Socks5d.jump .auth key s = .ok s' ∧
      Tracks mode hole c s₀ { v with
        conn := { v.conn with
          handshakeParser := none, authParser := some (authParserInit s₀.junk) }
        phase := some .auth
        history := v.history ++ [.enter c .auth] } s' := by
  obtain ⟨s₁, hs₁, h₁, -⟩ := h.jump_eq .auth hkey hphase (by simp) hequipped (by simp) (by simp)
  subst hkey
  have hjunk := h₁.frame.junk
  have h₂ := h₁.setConn { v.conn with
    handshakeParser := none, authParser := some (authParserInit s₀.junk) } rfl rfl rfl
  refine ⟨_, ?_, h₂⟩
  rw [hs₁]
  simp [onArrival, authOnArrival, h₁.conn_eq, hjunk, View.depart]

/-- A jump into the request phase. -/
theorem Tracks.jump_connectionReq (h : Tracks mode hole c s₀ v s) {state : Socks5State}
    {key : SelectorKey} (hkey : key.data = c) (hphase : v.phase = some state)
    (hstate : state = .handshake ∨ state = .auth ∨ state = .connecting)
    (hequipped : v.Equipped state) :
    ∃ s', Socks5d.jump .connectionReq key s = .ok s' ∧
      Tracks mode hole c s₀ { v with
        conn := { (v.depart state).conn with
          connReqParser := some (connReqParserInit s₀.junk) }
        phase := some .connectionReq
        history := v.history ++ [.enter c .connectionReq] } s' := by
  have hnc : state ≠ .copy := by rintro rfl; simp at hstate
  obtain ⟨s₁, hs₁, h₁, -⟩ := h.jump_eq .connectionReq hkey hphase (by rintro rfl; simp at hstate)
    hequipped (fun he => absurd he hnc)
    (fun he => he.elim (fun he => absurd he hnc) fun he => by subst he; simp at hstate)
  subst hkey
  have hjunk := h₁.frame.junk
  obtain ⟨-, -, htokens, hinterest, horigin⟩ := v.depart_fields state
  have h₂ := h₁.setConn { (v.depart state).conn with
    connReqParser := some (connReqParserInit s₀.junk) } rfl rfl rfl
  refine ⟨s₁.setConn key.data { (v.depart state).conn with
    connReqParser := some (connReqParserInit s₀.junk) }, ?_, ?_⟩
  · rw [hs₁]
    simp [onArrival, connectionReqOnArrival, h₁.conn_eq, hjunk]
  · simpa only [htokens, hinterest, v.depart_relay hnc] using h₂

/-- A jump from the request phase to waiting for the origin. -/
theorem Tracks.jump_connecting (h : Tracks mode hole c s₀ v s) {key : SelectorKey}
    (hkey : key.data = c) (hphase : v.phase = some .connectionReq)
    (hequipped : v.Equipped .connectionReq) :
    ∃ s', Socks5d.jump .connecting key s = .ok s' ∧
      Tracks mode hole c s₀ { v with
        conn := { v.conn with connReqParser := none }
        phase := some .connecting
        history := v.history ++ [.enter c .connecting] } s' := by
  obtain ⟨s₁, hs₁, h₁, -⟩ :=
    h.jump_eq .connecting hkey hphase (by simp) hequipped (by simp) (by simp)
  subst hkey
  exact ⟨s₁, hs₁.trans rfl, h₁⟩

/-- What is registered at a set `origin_fd` is the connection's own or was there before. -/
theorem Tracks.registered_elsewhere (h : Tracks mode hole c s₀ v s) {fd : ℕ}
    (hfd : v.conn.originFd = fd) (hpos : 0 < fd) (hused : (s.selector.fds fd).used = true) :
    v.relay ≠ none ∨ ∃ d r, d ≠ c ∧ (s₀.selector.fds fd).relayOf d = some r := by
  obtain ⟨d, handler, i, hrelay, hitem⟩ := h.owned.relay_at_origin hused (by
    intro o ho
    obtain ⟨p, hp⟩ := h.origin_owner hfd hpos o ho
    exact ⟨c, p, hp⟩)
  have hrelayOf : (s.selector.fds fd).relayOf d = some (handler, i) :=
    relayOf_eq_some_iff.mpr ⟨hused, by rw [hitem], hrelay, by rw [hitem], by rw [hitem]⟩
  by_cases hd : d = c
  · subst hd
    left
    obtain ⟨-, -, -, hr, -⟩ := view_eq_some_iff.mp h.view
    rw [← hr, Server.relay, if_pos (by omega), hfd, Int.toNat_natCast, hrelayOf]
    simp
  · right
    obtain ⟨j, hj⟩ := h.frame.registrations fd d hd _ hrelayOf
    exact ⟨d, _, hd, hj⟩

/-- The registration of the origin when relaying starts: taken, unless the descriptor is not a
registrable one or still registered, which without a registration of the connection itself is a
registration another connection left in the given table. -/
def RelayArmed (c : ConnId) (fds : ℕ → Item) (v : View)
    (relay : Option (FdHandler × FdInterest)) : Prop :=
  (∃ fd : ℕ, v.conn.originFd = fd ∧ fd < ITEMS_MAX_SIZE ∧
    relay = some (.copySelectorHandler, OP_NOOP)) ∨
  relay = v.relay ∧ ∀ fd : ℕ, v.conn.originFd = fd → 0 < fd → fd < ITEMS_MAX_SIZE →
    v.relay ≠ none ∨ ∃ d r, d ≠ c ∧ (fds fd).relayOf d = some r

/-- A jump into the relay phase. -/
theorem Tracks.jump_copy (h : Tracks mode hole c s₀ v s) {state : Socks5State} {key : SelectorKey}
    (hkey : key.data = c) (hphase : v.phase = some state)
    (hstate : state = .connectionReq ∨ state = .connecting) (hequipped : v.Equipped state) :
    ∃ s' relay, Socks5d.jump .copy key s = .ok s' ∧ RelayArmed c s₀.selector.fds v relay ∧
      (∀ fd : ℕ, v.conn.originFd = fd → fd < ITEMS_MAX_SIZE → (s.selector.fds fd).used = false →
        relay = some (.copySelectorHandler, OP_NOOP)) ∧
      Tracks mode hole c s₀ { v with
        conn := (v.depart state).conn
        phase := some .copy
        relay := relay
        history := v.history ++ [.enter c .copy] } s' := by
  have hnc : state ≠ .copy := by rintro rfl; simp at hstate
  obtain ⟨s₁, hs₁, h₁, hsel⟩ := h.jump_eq .copy hkey hphase hnc
    hequipped (fun he => absurd he hnc)
    (fun he => he.elim (fun he => absurd he hnc) fun he => by subst he; simp at hstate)
  subst hkey
  obtain ⟨-, -, htokens, hinterest, horigin⟩ := v.depart_fields state
  have hrelay := v.depart_relay hnc
  simp only [htokens, hinterest, hrelay] at h₁
  have harrive : Socks5d.jump .copy key s = .ok { s₁ with selector :=
      (selectorRegister s₁.selector (v.depart state).conn.originFd .copySelectorHandler OP_NOOP
        (some key.data)).2 } := by
    rw [hs₁]
    simp [onArrival, copyOnArrival, h₁.conn_eq]
  rcases h₁.register .copySelectorHandler rfl OP_NOOP (fun _ => rfl) with
    ⟨fd, hfd, hlt, hfree, -, h₂⟩ | ⟨hused, -, h₂⟩
  · exact ⟨_, _, harrive, .inl ⟨fd, horigin ▸ hfd, hlt, rfl⟩, fun _ _ _ _ => rfl, h₂⟩
  · have hused' : ∀ fd : ℕ, v.conn.originFd = fd → fd < ITEMS_MAX_SIZE →
        (s.selector.fds fd).used = true := by
      intro fd hfd hlt
      rw [← hsel hnc]
      exact hused fd (horigin.trans hfd) hlt
    refine ⟨_, _, harrive, .inr ⟨rfl, fun fd hfd hpos hlt => ?_⟩, fun fd hfd hlt hfree => ?_, h₂⟩
    · exact h.registered_elsewhere hfd hpos (hused' fd hfd hlt)
    · rw [hused' fd hfd hlt] at hfree
      cases hfree

end Socks5d
