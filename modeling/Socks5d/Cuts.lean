import Socks5d.Faults
import Socks5d.Releases

/-!
# Events that cut a reply short

Which events close a connection before its replies have left. A closing is the end of a callback,
or the release in the middle of one; the two are found by the same look at the state before it.
-/

namespace Socks5d

open Fallible

variable {mode : Mode} {s₀ s s' : Server} {c : ConnId} {v : View}
variable {e : Event} {env : Env} {fd : ℕ} {key : SelectorKey}

/-- The environment ends no stream and fails no transfer. -/
def Env.Healthy (env : Env) : Prop :=
  env.recv ≠ .eof ∧ (∀ err, env.recv = .failed err → err = .eagain) ∧
    ∀ out ∈ env.sends, ¬ FatalSend out

/-- The callback of an event finds a healthy environment. -/
def Event.Healthy : Event → Prop
  | .readable _ env | .writable _ env | .notify env | .resolved _ env => env.Healthy
  | .adminInterest _ _ | .adminClose _ | .configure _ _ _ => True

theorem Env.Healthy.send (h : env.Healthy) : ¬ FatalSend env.send := by
  obtain ⟨-, -, hsends⟩ := h
  unfold Env.send
  cases henv : env.sends with
  | nil => simp [FatalSend, SendOutcome.wouldBlock]
  | cons out more => exact hsends out (by simp [henv])

/-- The event closes the connection before its replies have left, if it closes it at all. -/
def View.Cuts (v : View) (users : UserTable) : Event → Prop
  | .readable _ env => ∃ first rest, env.recv = .data first rest ∧
      let bytes := (first :: rest).take v.conn.inBuff.space
      (v.phase = none ∨ v.phase = some .handshake) ∧
          greetingCuts (v.conn.outBuff.capacity / HANDSHAKE_RESPONSE_SIZE) v.greetingParser 0
            bytes env.sends = true ∨
        v.phase = some .auth ∧
          (∃ p, v.conn.authParser = some p ∧ subnegotiationHazard users env.send p bytes = true) ∧
          env.send.drains AUTH_RESPONSE_SIZE = false
  | .writable _ env =>
      if v.phase = some .copy then v.conn.outBuff.content ≠ []
      else env.send.drains v.conn.outBuff.content.length = false
  | _ => False

/-- In the greeting's phase only the greeting matters. -/
theorem View.cuts_greeting (hphase : v.phase = none ∨ v.phase = some .handshake) {first : UInt8}
    {rest : List UInt8} (hrecv : env.recv = .data first rest) {users : UserTable} :
    v.Cuts users (.readable fd env) ↔
      greetingCuts (v.conn.outBuff.capacity / HANDSHAKE_RESPONSE_SIZE) v.greetingParser 0
        ((first :: rest).take v.conn.inBuff.space) env.sends = true := by
  have hauth : v.phase ≠ some .auth := by rcases hphase with hp | hp <;> simp [hp]
  constructor
  · rintro ⟨first', rest', hrecv', ⟨-, hcuts⟩ | ⟨hp, -⟩⟩
    · obtain ⟨rfl, rfl⟩ := RecvOutcome.data.inj (hrecv.symm.trans hrecv')
      exact hcuts
    · exact absurd hp hauth
  · exact fun hcuts => ⟨first, rest, hrecv, .inl ⟨hphase, hcuts⟩⟩

theorem early_received (v : View) (c : ConnId) (buff : Buffer) (bytes : List UInt8) :
    Talks Obs.Early v (.alive (v.received c buff bytes)) :=
  (talks_received v c buff bytes).mono fun _ ho => ho ▸ rfl

/-- What the greeting's phase has sent by the time it releases. -/
theorem Tracks.stmHandlerReadReleases_greeting (h : Tracks mode false c s₀ v s)
    (hzero : mode.zero = true) (hkey : key = ⟨v.conn.clientFd, c⟩)
    (hphase : v.phase = none ∨ v.phase = some .handshake ∧ v.conn.handshakeParser.isSome = true)
    (htokens : v.tokens = 0) (hout : v.conn.outBuff.content = [])
    (hcapacity : BUFF_MIN_LEN ≤ v.conn.outBuff.capacity) (hstreams : v.Streams)
    (henv : env.Healthy) :
    Holds (· = .nullDeref) (stmHandlerReadReleases key env s) fun o => ∀ s' ∈ o,
      ∃ history, Released mode c s₀ history s' ∧ (Answered history ↔
        greetingCuts (v.conn.outBuff.capacity / HANDSHAKE_RESPONSE_SIZE) v.greetingParser 0
          v.conn.inBuff.content env.sends = false) := by
  have hdata : key.data = c := by rw [hkey]
  have hnc : v.phase ≠ some .copy := by rcases hphase with hp | ⟨hp, -⟩ <;> simp [hp]
  obtain ⟨s₁, hs₁, h₁, hphase₁, hparser₁, hin₁, hout₁, hclient₁, htokens₁⟩ :=
    h.handleFirst_begun hdata hphase htokens
  have hstreams₁ : (v.begun c).Streams :=
    ((talks_begun v c).mono fun _ ho => ho.early).streams hstreams hnc
  have hreplies : (v.begun c).Replies 0 := by
    constructor
    · rw [hout₁, hout]
      rfl
    · rw [hout₁]
      exact Buffer.space_of_content_nil _ hout
  have hsize : HANDSHAKE_RESPONSE_SIZE ≤ v.conn.outBuff.capacity :=
    (by decide : HANDSHAKE_RESPONSE_SIZE ≤ BUFF_MIN_LEN).trans hcapacity
  have hkey₁ : key = ⟨(v.begun c).conn.clientFd, c⟩ := by rw [hkey, hclient₁]
  have hrun := h₁.handshakeReadReleases (v.begun c).conn.inBuff.content.length hzero hkey₁
    hphase₁ hparser₁ htokens₁ (hout₁ ▸ hsize) hreplies hstreams₁ henv.2.2
  rw [hout₁, hin₁] at hrun
  unfold stmHandlerReadReleases
  rw [hdata, h.stmPointer_eq, ok_bind, hs₁, ok_bind, h₁.stmState_eq hphase₁, ok_bind]
  simp only [h₁.conn_eq, ok_bind, hin₁]
  exact hrun

/-- What the sub-negotiation has sent by the time it releases. -/
theorem Tracks.stmHandlerReadReleases_auth (h : Tracks mode false c s₀ v s)
    (hkey : key = ⟨v.conn.clientFd, c⟩) (hphase : v.phase = some .auth) {p : AuthParser}
    (hparser : v.conn.authParser = some p) (htokens : v.tokens = 0)
    (hout : v.conn.outBuff.content = []) (hcapacity : BUFF_MIN_LEN ≤ v.conn.outBuff.capacity)
    (hstreams : v.Streams) (henv : env.Healthy) :
    Holds (fun _ => False) (stmHandlerReadReleases key env s) fun o => ∀ s' ∈ o,
      ∃ history, Released mode c s₀ history s' ∧
        subnegotiationHazard s₀.users env.send p v.conn.inBuff.content = true ∧
        (Answered history ↔ env.send.drains AUTH_RESPONSE_SIZE = true) := by
  have hdata : key.data = c := by rw [hkey]
  have hfirst : handleFirst key s = .ok s := by simp [handleFirst, hdata, h.stm_eq, hphase]
  unfold stmHandlerReadReleases
  rw [hdata, h.stmPointer_eq, ok_bind, hfirst, ok_bind, h.stmState_eq hphase, ok_bind]
  simp only [h.conn_eq, ok_bind]
  exact h.authReadReleases _ hkey hphase hparser htokens
    ((by decide : AUTH_RESPONSE_SIZE ≤ BUFF_MIN_LEN).trans hcapacity) hout hstreams henv.send

/-- The state machine acts on the answer of a loop, which is none for a released connection. -/
theorem Foretells.jump {key : SelectorKey} {run : Except Fault (Option Server)}
    {loop : Except Fault (Socks5State × Server)} (h : Foretells run loop)
    (hjump : Holds (fun _ => True) loop fun out => ∃ s', Socks5d.jump out.1 key out.2 = .ok s') :
    Foretells run (do
      let (ret, s) ← loop
      let s ← Socks5d.jump ret key s
      return (ret, s)) := by
  cases h with
  | ends out =>
    obtain ⟨ret, s⟩ := out
    obtain ⟨s', hs' : Socks5d.jump ret key s = .ok s'⟩ := hjump
    rw [ok_bind]
    simp only [hs', ok_bind]
    exact .ends _
  | uses s' => exact .uses s'
  | faults f => exact .faults f

/-- A callback that hands on what another answered fares as the other does. -/
theorem Foretells.map {α β : Type} {run : Except Fault (Option Server)} {m : Except Fault α}
    (h : Foretells run m) (f : α → β) : Foretells run (m >>= fun a => pure (f a)) := by
  cases h with
  | ends a => exact .ends _
  | uses s' => exact .uses s'
  | faults f => exact .faults f

/-- In the greeting's phase the state machine goes on with what it has released. -/
theorem Tracks.stmHandlerRead_foretold_greeting (h : Tracks mode false c s₀ v s)
    (hkey : key = ⟨v.conn.clientFd, c⟩)
    (hphase : v.phase = none ∨ v.phase = some .handshake ∧ v.conn.handshakeParser.isSome = true)
    (htokens : v.tokens = 0) (hcapacity : BUFF_MIN_LEN ≤ v.conn.outBuff.capacity) :
    Foretells (stmHandlerReadReleases key env s) (Socks5d.stmHandlerRead key env s) := by
  have hdata : key.data = c := by rw [hkey]
  obtain ⟨s₁, hs₁, h₁, hphase₁, hparser₁, -, hout₁, hclient₁, htokens₁⟩ :=
    h.handleFirst_begun hdata hphase htokens
  have hsize : HANDSHAKE_RESPONSE_SIZE ≤ (v.begun c).conn.outBuff.capacity := by
    rw [hout₁]
    exact (by decide : HANDSHAKE_RESPONSE_SIZE ≤ BUFF_MIN_LEN).trans hcapacity
  unfold stmHandlerReadReleases Socks5d.stmHandlerRead
  simp only [hdata, h.stmPointer_eq, hs₁, h₁.stmState_eq hphase₁, ok_bind, onReadReady,
    handshakeRead, h₁.conn_eq]
  refine (handshakeReadLoop_foretold _ key env.sends s₁).jump ?_
  refine ((h₁.handshakeReadLoop _ (by rw [hkey, hclient₁]) hphase₁ hparser₁ htokens₁ hsize
    (Nat.le_refl _)).tolerate fun _ _ => trivial).mono ?_
  rintro ⟨ret, s₂⟩ ⟨w, malformed, hreads, hends⟩
  obtain ⟨s', hs', -⟩ := Tracks.jump_read hends hdata (fun hm => by
    subst hm
    obtain ⟨hp, ht, he⟩ := hreads.of_malformed hphase₁ htokens₁ hsize
    exact ⟨.handshake, hp, by simp, by simp, he, ht⟩)
  exact ⟨s', hs'⟩

/-- In the sub-negotiation the state machine goes on with what it has released. -/
theorem Tracks.stmHandlerRead_foretold_auth (h : Tracks mode false c s₀ v s)
    (hkey : key = ⟨v.conn.clientFd, c⟩) (hphase : v.phase = some .auth) {p : AuthParser}
    (hparser : v.conn.authParser = some p) (htokens : v.tokens = 0)
    (hcapacity : BUFF_MIN_LEN ≤ v.conn.outBuff.capacity) :
    Foretells (stmHandlerReadReleases key env s) (Socks5d.stmHandlerRead key env s) := by
  have hdata : key.data = c := by rw [hkey]
  have hfirst : handleFirst key s = .ok s := by simp [handleFirst, hdata, h.stm_eq, hphase]
  have hsize : AUTH_RESPONSE_SIZE ≤ v.conn.outBuff.capacity :=
    (by decide : AUTH_RESPONSE_SIZE ≤ BUFF_MIN_LEN).trans hcapacity
  unfold stmHandlerReadReleases Socks5d.stmHandlerRead
  simp only [hdata, h.stmPointer_eq, hfirst, h.stmState_eq hphase, ok_bind, onReadReady, authRead,
    h.conn_eq]
  refine (authReadLoop_foretold _ key env.sends s).jump ?_
  refine ((h.authReadLoop _ hkey hphase hparser htokens hsize (Nat.le_refl _)).tolerate
    fun _ _ => trivial).mono ?_
  rintro ⟨ret, s₂⟩ ⟨w, malformed, hreads, hends⟩
  obtain ⟨s', hs', -⟩ := Tracks.jump_read hends hdata (fun hm => by
    subst hm
    obtain ⟨hp, ht, he⟩ := hreads.of_malformed hphase htokens
    exact ⟨.auth, hp, by simp, by simp, he, ht⟩)
  exact ⟨s', hs'⟩

/-- The other phases release nothing in the middle of a read. -/
theorem Tracks.stmHandlerReadReleases_none (h : Tracks mode false c s₀ v s) (hkey : key.data = c)
    {state : Socks5State} (hphase : v.phase = some state) (hgreeting : state ≠ .handshake)
    (hauth : state ≠ .auth) : stmHandlerReadReleases key env s = .ok none := by
  have hfirst : handleFirst key s = .ok s := by simp [handleFirst, hkey, h.stm_eq, hphase]
  unfold stmHandlerReadReleases
  rw [hkey, h.stmPointer_eq, ok_bind, hfirst, ok_bind, h.stmState_eq hphase, ok_bind]
  cases state with
  | handshake => exact absurd rfl hgreeting
  | auth => exact absurd rfl hauth
  | _ => rfl

/-- A release has answered the client, unless the event cuts. -/
def View.Settled (v : View) (c : ConnId) (s₀ : Server) (e : Event) (s' : Server) : Prop :=
  ∃ history, Released ⟨true, false⟩ c s₀ history s' ∧ (Answered history ↔ ¬ v.Cuts s₀.users e)

/-- A read of the greeting's phase settles what it releases. -/
theorem Tracks.greeting_settled {buff : Buffer} {first : UInt8} {rest : List UInt8}
    (h : Tracks ⟨true, false⟩ false c s₀
      (v.received c buff ((first :: rest).take v.conn.inBuff.space)) s)
    (hclient : v.conn.clientFd = fd) (hearly : v.Early) (hout : v.conn.outBuff.content = [])
    (hphase : v.phase = none ∨ v.phase = some .handshake ∧ v.conn.handshakeParser.isSome = true)
    (hcapacity : BUFF_MIN_LEN ≤ v.conn.outBuff.capacity) (hstreams : v.Streams)
    (henv : env.Healthy) (hrecv : env.recv = .data first rest)
    (hcontent : buff.content = v.conn.inBuff.content ++ (first :: rest).take v.conn.inBuff.space) :
    Holds (· = .nullDeref) (stmHandlerReadReleases ⟨fd, c⟩ env s) fun o => ∀ s' ∈ o,
      v.Settled c s₀ (.readable fd env) s' := by
  have hnc : v.phase ≠ some .copy := by rcases hphase with hp | ⟨hp, -⟩ <;> simp [hp]
  have hreceived := (early_received v c buff ((first :: rest).take v.conn.inBuff.space)).streams
    hstreams hnc
  refine (h.stmHandlerReadReleases_greeting rfl (by rw [← hclient]; rfl) hphase hearly.tokens hout
    hcapacity hreceived henv).mono ?_
  intro o hreleased s' hs'
  obtain ⟨history, hgone, hanswered⟩ := hreleased s' hs'
  refine ⟨history, hgone, hanswered.trans ?_⟩
  rw [View.cuts_greeting (hphase.imp_right And.left) hrecv, Bool.not_eq_true]
  simp only [View.received, hcontent, hearly.inBuff, List.nil_append]
  rfl

/-- A read of the sub-negotiation settles what it releases. -/
theorem Tracks.auth_settled {buff : Buffer} {first : UInt8} {rest : List UInt8}
    (h : Tracks ⟨true, false⟩ false c s₀
      (v.received c buff ((first :: rest).take v.conn.inBuff.space)) s)
    (hclient : v.conn.clientFd = fd) (hauth : v.Authenticating c) (hphase : v.phase = some .auth)
    (hout : v.conn.outBuff.content = []) (hcapacity : BUFF_MIN_LEN ≤ v.conn.outBuff.capacity)
    (hstreams : v.Streams) (henv : env.Healthy) (hrecv : env.recv = .data first rest)
    (hcontent : buff.content = v.conn.inBuff.content ++ (first :: rest).take v.conn.inBuff.space) :
    Holds (· = .nullDeref) (stmHandlerReadReleases ⟨fd, c⟩ env s) fun o => ∀ s' ∈ o,
      v.Settled c s₀ (.readable fd env) s' := by
  obtain ⟨p, hparser, -⟩ := hauth.parser
  have hreceived := (early_received v c buff ((first :: rest).take v.conn.inBuff.space)).streams
    hstreams (by simp [hphase])
  refine ((h.stmHandlerReadReleases_auth (by rw [← hclient]; rfl) hphase hparser hauth.early.tokens
    hout hcapacity hreceived henv).tolerate fun _ => False.elim).mono ?_
  intro o hreleased s' hs'
  obtain ⟨history, hgone, hhazard, hanswered⟩ := hreleased s' hs'
  refine ⟨history, hgone, hanswered.trans ?_⟩
  have hhazard' : subnegotiationHazard s₀.users env.send p
      ((first :: rest).take v.conn.inBuff.space) = true := by
    rw [← hhazard]
    simp only [View.received, hcontent, hauth.early.inBuff, List.nil_append]
  rw [← Bool.not_eq_false]
  refine not_congr ⟨fun hcut => ⟨first, rest, hrecv, .inr ⟨hphase, ⟨p, hparser, hhazard'⟩, hcut⟩⟩, ?_⟩
  rintro ⟨-, -, -, ⟨hp | hp, -⟩ | ⟨-, -, hcut⟩⟩
  · simp [hphase] at hp
  · simp [hphase] at hp
  · exact hcut

/-- A read of a client that has no request yet settles what it releases. -/
theorem Inv.readReleases (h : Inv s) (hview : s.view c = some v) (hstreams : v.Streams)
    (hclient : v.conn.clientFd = fd) (hready : v.interest.read = true) (henv : env.Healthy) :
    Holds (· = .nullDeref) (socksv5ReadReleases ⟨fd, c⟩ env (s.enter env)) fun o => ∀ s' ∈ o,
      (v.phase = none ∨ v.phase = some .handshake ∨ v.phase = some .auth) ∧
        v.Settled c (s.enter env) (.readable fd env) s' := by
  have htracks : Tracks ⟨true, false⟩ false c (s.enter env) v (s.enter env) :=
    h.start hview env (by simp)
  have hok := h.ok c v hview
  have hphaseOk := hok.phase
  unfold View.PhaseOk at hphaseOk
  unfold socksv5ReadReleases
  simp only [htracks.conn_eq, ok_bind]
  cases hcan : bufferCanWrite v.conn.inBuff with
  | false => simp
  | true =>
    cases hrecv : env.recv with
    | eof => simp
    | failed err => simp
    | data first rest =>
      simp only [Bool.not_true, Bool.false_eq_true, if_false]
      have hfit : ((first :: rest).take v.conn.inBuff.space).length ≤ v.conn.inBuff.space := by
        rw [List.length_take]
        omega
      obtain ⟨buff, hadv⟩ := Buffer.bufferWriteAdv_store_succeeds _ hfit
      obtain ⟨hcontent, -⟩ := Buffer.bufferWriteAdv_store_eq_ok hfit hadv
      have h₁ : Tracks ⟨true, false⟩ false c (s.enter env)
          (v.received c buff ((first :: rest).take v.conn.inBuff.space)) _ :=
        (htracks.setConn { v.conn with inBuff := buff } rfl rfl rfl).note
          (.recv c .client ((first :: rest).take v.conn.inBuff.space)) rfl
      rw [hadv, ok_bind]
      cases hphase : v.phase with
      | none =>
        rw [hphase] at hphaseOk
        exact (h₁.greeting_settled hclient hphaseOk.1 hphaseOk.2.1 (.inl hphase) hok.outCapacity
          hstreams henv hrecv hcontent).mono fun o hsettled s' hs' => ⟨.inl rfl, hsettled s' hs'⟩
      | some state =>
        rw [hphase] at hphaseOk
        by_cases hgreeting : state = .handshake
        · subst hgreeting
          have hout : v.conn.outBuff.content = [] := View.Armed.outBuff_eq_nil hphaseOk.2.1 hready
          exact (h₁.greeting_settled hclient hphaseOk.1 hout (.inr ⟨hphase, hphaseOk.2.2⟩)
            hok.outCapacity hstreams henv hrecv hcontent).mono fun o hsettled s' hs' =>
              ⟨.inr (.inl rfl), hsettled s' hs'⟩
        · by_cases hauth : state = .auth
          · subst hauth
            have hauth : v.Authenticating c := hphaseOk
            exact (h₁.auth_settled hclient hauth hphase (hauth.armed.outBuff_eq_nil hready)
              hok.outCapacity hstreams henv hrecv hcontent).mono fun o hsettled s' hs' =>
                ⟨.inr (.inr rfl), hsettled s' hs'⟩
          · have hdata : (⟨fd, c⟩ : SelectorKey).data = c := rfl
            rw [h₁.stmHandlerReadReleases_none hdata hphase hgreeting hauth]
            rintro _ ⟨⟩

/-- The callback of a client that has no origin yet goes on with what it has released. -/
theorem Inv.socksv5Read_foretold (h : Inv s) (hview : s.view c = some v)
    (hclient : v.conn.clientFd = fd) (henv : env.Healthy)
    (hphase : v.phase = none ∨ v.phase = some .handshake ∨ v.phase = some .auth) :
    Foretells (socksv5ReadReleases ⟨fd, c⟩ env (s.enter env))
      (socksv5Read ⟨fd, c⟩ env (s.enter env)) := by
  have htracks : Tracks ⟨true, false⟩ false c (s.enter env) v (s.enter env) :=
    h.start hview env (by simp)
  have hok := h.ok c v hview
  have hphaseOk := hok.phase
  unfold View.PhaseOk at hphaseOk
  obtain ⟨hnotEof, hnotFailed, -⟩ := henv
  unfold socksv5ReadReleases socksv5Read
  simp only [htracks.conn_eq, ok_bind]
  cases hcan : bufferCanWrite v.conn.inBuff with
  | false => exact .ends _
  | true =>
    cases hrecv : env.recv with
    | eof => exact absurd hrecv hnotEof
    | failed err =>
      obtain rfl := hnotFailed err hrecv
      exact .ends _
    | data first rest =>
      simp only [Bool.not_true, Bool.false_eq_true, if_false]
      have hfit : ((first :: rest).take v.conn.inBuff.space).length ≤ v.conn.inBuff.space := by
        rw [List.length_take]
        omega
      obtain ⟨buff, hadv⟩ := Buffer.bufferWriteAdv_store_succeeds _ hfit
      have h₁ : Tracks ⟨true, false⟩ false c (s.enter env)
          (v.received c buff ((first :: rest).take v.conn.inBuff.space)) _ :=
        (htracks.setConn { v.conn with inBuff := buff } rfl rfl rfl).note
          (.recv c .client ((first :: rest).take v.conn.inBuff.space)) rfl
      rw [hadv, ok_bind, ok_bind]
      refine Foretells.map ?_ fun out : Socks5State × Server =>
        if out.1 = .error then out.2.incErrors else out.2
      rcases hphase with hphase | hphase | hphase
      · rw [hphase] at hphaseOk
        exact h₁.stmHandlerRead_foretold_greeting (by rw [← hclient]; rfl) (.inl hphase)
          hphaseOk.1.tokens hok.outCapacity
      · rw [hphase] at hphaseOk
        exact h₁.stmHandlerRead_foretold_greeting (by rw [← hclient]; rfl)
          (.inr ⟨hphase, hphaseOk.2.2⟩) hphaseOk.1.tokens hok.outCapacity
      · rw [hphase] at hphaseOk
        have hauth : v.Authenticating c := hphaseOk
        obtain ⟨p, hparser, -⟩ := hauth.parser
        exact h₁.stmHandlerRead_foretold_auth (by rw [← hclient]; rfl) hphase hparser
          hauth.early.tokens hok.outCapacity

/-- The readiness of a client's descriptor is handed to `socksv5_read`. -/
theorem Inv.clientReady (h : Inv s) (he : enabled s (.readable fd env) = true)
    (hitem : (s.selector.fds fd).isClientOf c) :
    ∃ v, s.view c = some v ∧ v.conn.clientFd = fd ∧ v.interest.read = true ∧
      Socks5d.step s (.readable fd env) = socksv5Read ⟨fd, c⟩ env (s.enter env) ∧
      releases s (.readable fd env) = socksv5ReadReleases ⟨fd, c⟩ env (s.enter env) := by
  simp only [enabled, Bool.and_eq_true] at he
  obtain ⟨⟨⟨-, hused⟩, hread⟩, -⟩ := he
  obtain ⟨-, hreg⟩ := h.owned.registered fd hused
  obtain ⟨hhandler, hdata⟩ := hitem
  have hlone : ∃ i, s.selector.fds fd = ⟨fd, i, some .socks5Handler, some c⟩ ∧
      s.kernel.owner fd = some (.client c) := by
    generalize s.selector.fds fd = item at hreg hhandler hdata
    cases hreg with
    | listener handler i _ hpassive => cases hdata
    | client d i howner =>
      obtain rfl : d = c := Option.some.inj hdata
      exact ⟨i, rfl, howner⟩
    | relay d handler i hrelay =>
      obtain rfl : handler = .socks5Handler := Option.some.inj hhandler
      cases hrelay
    | admin i _ => cases hdata
  obtain ⟨i, hfds, howner⟩ := hlone
  obtain ⟨v, hview, hclient, hinterest⟩ := h.client hfds howner
  refine ⟨v, hview, hclient, ?_, by simp [Socks5d.step, handleRead, hfds],
    by simp [releases, hfds]⟩
  rw [hinterest, ← hread, hfds]

/-- The readiness of a connecting socket is handed to `handle_write_connecting`. -/
theorem Inv.connectingReady (h : Inv s) (he : enabled s (.writable fd env) = true)
    (hhandler : (s.selector.fds fd).handler = some .connectingHandler)
    (hdata : (s.selector.fds fd).data = some c) (hview : s.view c = some v) :
    v.conn.originFd ≠ 0 ∧ v.tokens = 0 ∧ (v.phase = some .connecting ∨ v.phase = some .copy) ∧
      Socks5d.step s (.writable fd env) = handleWriteConnecting ⟨fd, c⟩ env (s.enter env) ∧
      releases s (.writable fd env) = connectingReleases ⟨fd, c⟩ env (s.enter env) := by
  simp only [enabled, Bool.and_eq_true] at he
  obtain ⟨⟨⟨-, hused⟩, -⟩, -⟩ := he
  obtain ⟨-, hreg⟩ := h.owned.registered fd hused
  have hlone : ∃ i, s.selector.fds fd = ⟨fd, i, some .connectingHandler, some c⟩ ∧
      ∀ k, s.conns c = some k → k.originFd ≠ 0 := by
    generalize s.selector.fds fd = item at hreg hhandler hdata
    cases hreg with
    | listener handler i _ hpassive => cases hdata
    | client d i howner => cases hhandler
    | relay d handler i _ _ horigin =>
      obtain rfl : handler = .connectingHandler := Option.some.inj hhandler
      obtain rfl : d = c := Option.some.inj hdata
      exact ⟨i, rfl, horigin⟩
    | admin i _ => cases hdata
  obtain ⟨i, hfds, horigin⟩ := hlone
  obtain ⟨-, hgone | ⟨w, hw, hne, htokens, hphase⟩⟩ := h.relay rfl hfds horigin
  · rw [(view_eq_some_iff.mp hview).1] at hgone
    cases hgone
  · obtain rfl := Option.some.inj (hview.symm.trans hw)
    exact ⟨hne, htokens, hphase.imp_right And.left, by simp [Socks5d.step, handleWrite, hfds],
      by simp [releases, hfds]⟩

/-- A notification is handed to `socksv5_block` with the connection whose resolution queued it. -/
theorem Inv.notificationReady (h : Inv s) (he : enabled s (.notify env) = true) :
    ∃ c v s₁, (Event.notify env).target s = some c ∧ s.view c = some v ∧
      v.phase = some .connecting ∧ v.Waiting ∧ Entered c s s₁ ∧ s₁.users = s.users ∧
      s₁.kernel = s.kernel ∧ s₁.selector.fds = s.selector.fds ∧
      Tracks ⟨true, false⟩ false c s₁ { v with tokens := 0 } s₁ ∧
      Socks5d.step s (.notify env) = socksv5Block ⟨v.conn.clientFd, c⟩ env s₁ ∧
      releases s (.notify env) = socksv5BlockReleases ⟨v.conn.clientFd, c⟩ env s₁ := by
  cases hjobs : s.selector.resolutionJobs with
  | nil => simp [enabled, hjobs] at he
  | cons fd jobs =>
    obtain ⟨c, v, i, hitem, hused, hview, hclient, hphase, hwaiting, hentered, htracks⟩ :=
      h.delivery ⟨true, false⟩ env hjobs (by simp) rfl
    have hjobs' : (s.enter env).selector.resolutionJobs = fd :: jobs := hjobs
    have hitem' : (s.enter env).selector.fds fd = ⟨fd, i, some .socks5Handler, some c⟩ := hitem
    rw [hitem] at hused
    refine ⟨c, v, _, by simp [Event.target, hjobs, hitem], hview, hphase, hwaiting, hentered, rfl,
      rfl, rfl, htracks, ?_, ?_⟩
    · simp only [Socks5d.step, handleBlockNotification, hjobs', hitem', if_pos hused, handleBlock]
      rw [hclient]
    · simp only [releases, hjobs]
      rw [show (s.enter env).selector.fds fd = _ from hitem', hclient]
      simp only [hused]

/-- What a release comes to for the connection its event is delivered to. -/
def Settles (s : Server) (e : Event) (s' : Server) : Prop :=
  ∃ c v s₀, s.view c = some v ∧ e.target s = some c ∧ Entered c s s₀ ∧ s₀.users = s.users ∧
    v.Settled c s₀ e s'

/-- A notification settles what it releases. -/
theorem Inv.notify_settles (h : Inv s) (he : enabled s (.notify env) = true)
    (hstreams : ∀ c v, s.view c = some v → v.Streams)
    (hrun : releases s (.notify env) = .ok (some s')) :
    Settles s (.notify env) s' ∧ Socks5d.step s (.notify env) = .error .useAfterFree := by
  obtain ⟨c, v, s₁, htarget, hview, hphase, hwaiting, hentered, husers, -, -, htracks, hstep,
    hreleases⟩ := h.notificationReady he
  rw [hreleases] at hrun
  obtain ⟨history, hgone, hanswered⟩ := htracks.socksv5BlockReleases rfl hphase
    hwaiting.originFd rfl hwaiting.outBuff ⟨(hstreams c v hview).balance, (hstreams c v hview).early⟩
    hrun
  exact ⟨⟨c, v, s₁, hview, htarget, hentered, husers, history, hgone,
    iff_of_true hanswered (by simp [View.Cuts])⟩,
    hstep.trans (socksv5Block_of_releases hrun hgone.conns)⟩

/-- Only the read of a client releases at a readiness to read. -/
theorem releases_readable (hrun : releases s (.readable fd env) = .ok (some s')) :
    ∃ c, (s.selector.fds fd).isClientOf c := by
  simp only [releases] at hrun
  split at hrun
  · rename_i c hhandler hdata
    exact ⟨c, hhandler, hdata⟩
  · cases hrun

/-- Only a pending connect releases at a readiness to write. -/
theorem releases_writable (hrun : releases s (.writable fd env) = .ok (some s')) :
    ∃ c, (s.selector.fds fd).handler = some .connectingHandler ∧
      (s.selector.fds fd).data = some c ∧ (s.conns c).isSome = true := by
  simp only [releases] at hrun
  split at hrun
  · rename_i c hhandler hdata
    refine ⟨c, hhandler, hdata, ?_⟩
    obtain ⟨conn, hconn, -⟩ := bind_eq_ok.mp hrun
    rw [Option.isSome_iff_ne_none]
    intro hgone
    simp [conn_of_gone hgone env] at hconn
  · cases hrun

/-- A client's readiness settles what it releases. -/
theorem Inv.read_settles (h : Inv s) (he : enabled s (.readable fd env) = true)
    (hstreams : ∀ c v, s.view c = some v → v.Streams) (henv : env.Healthy)
    (hrun : releases s (.readable fd env) = .ok (some s')) :
    Settles s (.readable fd env) s' := by
  obtain ⟨c, hitem⟩ := releases_readable hrun
  obtain ⟨v, hview, hclient, hready, -, hreleases⟩ := h.clientReady he hitem
  rw [hreleases] at hrun
  exact ⟨c, v, _, hview, hitem.2, h.entered c env, rfl,
    ((h.readReleases hview (hstreams c v hview) hclient hready henv).result hrun s' rfl).2⟩

/-- A pending connect's event settles what it releases. -/
theorem Inv.connecting_settles (h : Inv s) (he : enabled s (.writable fd env) = true)
    (hstreams : ∀ c v, s.view c = some v → v.Streams)
    (hrun : releases s (.writable fd env) = .ok (some s')) :
    Settles s (.writable fd env) s' ∧ Socks5d.step s (.writable fd env) = .error .useAfterFree := by
  obtain ⟨c, hhandler, hdata, hsome⟩ := releases_writable hrun
  obtain ⟨v, hview⟩ := Option.isSome_iff_exists.mp ((h.owned.view_isSome c).trans hsome)
  obtain ⟨hne, htokens, hphase, hstep, hreleases⟩ := h.connectingReady he hhandler hdata hview
  rw [hreleases] at hrun
  have htracks : Tracks ⟨true, false⟩ false c (s.enter env) v (s.enter env) :=
    h.start hview env (by simp)
  obtain ⟨hcopy, history, hgone, hanswered⟩ := htracks.connectingReleases rfl hphase hne
    htokens (hstreams c v hview) hrun
  refine ⟨⟨c, v, _, hview, hdata, h.entered c env, rfl, history, hgone, ?_⟩,
    hstep.trans (handleWriteConnecting_of_releases hrun)⟩
  rw [hanswered]
  simp [View.Cuts, hcopy]

/-- A callback that releases its connection has answered the client, unless the event cuts. -/
theorem Inv.settles (h : Inv s) (he : enabled s e = true)
    (hstreams : ∀ c v, s.view c = some v → v.Streams) (henv : e.Healthy)
    (hrun : releases s e = .ok (some s')) : Settles s e s' := by
  cases e with
  | readable fd env => exact h.read_settles he hstreams henv hrun
  | writable fd env => exact (h.connecting_settles he hstreams hrun).1
  | notify env => exact (h.notify_settles he hstreams hrun).1
  | resolved c env => cases hrun
  | adminInterest fd i => cases hrun
  | adminClose fd => cases hrun
  | configure users bufferSize maxConn => cases hrun

/-- In a healthy environment a callback uses a released connection exactly if it has released it
itself, or if a registration has outlived its connection. -/
theorem useAfterFree_iff (hs : Reachable s) (he : enabled s e = true) (henv : e.Healthy)
    (hview : s.view c = some v) (htarget : e.target s = some c) :
    Socks5d.step s e = .error .useAfterFree ↔ ∃ s', releases s e = .ok (some s') := by
  have hinv := hs.inv
  have hstreams : ∀ d w, s.view d = some w → w.Streams := fun d w hw => ReachableUnder.streams hs hw
  have hread : ∀ fd env, e = .readable fd env → (s.selector.fds fd).isClientOf c →
      (v.phase = none ∨ v.phase = some .handshake ∨ v.phase = some .auth) →
      (Socks5d.step s e = .error .useAfterFree ↔ ∃ s', releases s e = .ok (some s')) := by
    rintro fd env rfl hitem hphase
    obtain ⟨w, hw, hclient, hready, hstep, hreleases⟩ := hinv.clientReady he hitem
    obtain rfl := Option.some.inj (hview.symm.trans hw)
    rw [hstep, hreleases]
    exact (hinv.socksv5Read_foretold hview hclient henv hphase).useAfterFree_iff
      (hinv.readReleases hview (hstreams c v hview) hclient hready henv)
  constructor
  · intro hfault
    have hdispatch : Holds (Explained s e) (Socks5d.step s e) (Effect ⟨true, false⟩ s e) :=
      dispatch_explained hinv he (.inl rfl) (by simp)
    have hhazard : TeardownHazard s e :=
      ((hdispatch.fault hfault).resolve_right fun hassert => by cases hassert.1).2
    cases hhazard with
    | greeting fd env d k first rest p hitem hconn hphase hrecv hhazard =>
      obtain rfl : d = c := Option.some.inj (hitem.2.symm.trans htarget)
      refine (hread fd env rfl hitem ?_).mp hfault
      rcases hphase with ⟨hm, -⟩ | ⟨hm, -⟩
      · exact .inl (view_fields hview hconn hm).2
      · exact .inr (.inl (view_fields hview hconn hm).2)
    | subnegotiation fd env d k first rest p hitem hconn hphase hparser hrecv hhazard =>
      obtain rfl : d = c := Option.some.inj (hitem.2.symm.trans htarget)
      exact (hread fd env rfl hitem (.inr (.inr (view_fields hview hconn hphase).2))).mp hfault
    | relay fd env d k first rest hitem hconn hphase hrecv horigin hsend =>
      exact absurd hsend henv.send
    | block env fd jobs d k hjobs hitem hconn hhazard =>
      obtain ⟨d', w, s₁, htarget', hw, hphase, hwaiting, -, -, hkernel, hfds, htracks, -,
        hreleases⟩ := hinv.notificationReady he
      have hdata : (Event.notify env).target s = some d := by
        simpa [Event.target, hjobs] using hitem.2
      obtain rfl : d = d' := Option.some.inj (hdata.symm.trans htarget')
      have hkw : w.conn = k := Option.some.inj ((view_eq_some_iff.mp hw).1.symm.trans hconn)
      rw [hreleases]
      exact htracks.socksv5BlockReleases_of_hazard rfl hphase hwaiting.originFd rfl henv.send
        (by simpa only [BlockHazard, hkernel, hfds, hkw] using hhazard)
    | late fd env d k i hitem hconn hphase hstands =>
      obtain ⟨-, hhandler, -, hdata, -⟩ := relayOf_eq_some_iff.mp hitem
      obtain rfl : d = c := Option.some.inj (hdata.symm.trans htarget)
      obtain ⟨rfl, hcopy⟩ := view_fields hview hconn hphase
      obtain ⟨hne, htokens, -, -, hreleases⟩ := hinv.connectingReady he hhandler hdata hview
      have htracks : Tracks ⟨true, false⟩ false d (s.enter env) v (s.enter env) :=
        hinv.start hview env (by simp)
      rw [hreleases]
      exact htracks.connectingReleases_of_copy rfl hcopy hne htokens hstands
    | orphan fd env d x _ he' hitem hconn =>
      obtain ⟨-, -, -, hdata, -⟩ := relayOf_eq_some_iff.mp hitem
      have htarget' : e.target s = some d := by
        rcases he' with rfl | rfl
        · exact hdata
        · exact hdata
      obtain rfl : d = c := Option.some.inj (htarget'.symm.trans htarget)
      rw [(view_eq_some_iff.mp hview).1] at hconn
      cases hconn
  · rintro ⟨s', hrun⟩
    cases e with
    | readable fd env =>
      obtain ⟨d, hitem⟩ := releases_readable hrun
      obtain rfl : d = c := Option.some.inj (hitem.2.symm.trans htarget)
      obtain ⟨w, hw, hclient, hready, -, hreleases⟩ := hinv.clientReady he hitem
      obtain rfl := Option.some.inj (hview.symm.trans hw)
      have hphase := ((hinv.readReleases hview (hstreams d v hview) hclient hready henv).result
        (hreleases.symm.trans hrun) s' rfl).1
      exact (hread fd env rfl hitem hphase).mpr ⟨s', hrun⟩
    | writable fd env => exact (hinv.connecting_settles he hstreams hrun).2
    | notify env => exact (hinv.notify_settles he hstreams hrun).2
    | resolved c env => cases hrun
    | adminInterest fd i => cases hrun
    | adminClose fd => cases hrun
    | configure users bufferSize maxConn => cases hrun

end Socks5d
