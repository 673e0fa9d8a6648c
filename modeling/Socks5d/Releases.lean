import Socks5d.Stranded

/-!
# Connections that are released in the middle of a callback

Some callbacks go on with a connection that they have released, and fault. The reply to a greeting
or to credentials is sent from within the read loop, and closes the connection when it refuses;
`socksv5_block` looks at the descriptor of a connection whose attempts are over, and
`handle_write_connecting` at the record of one whose relay it could not resume. Each of these is
followed here up to the release, so that what the client was sent by then can be told.
-/

namespace Socks5d

open Fallible Fifo

/-- `handshake_read` up to a reply whose sending releases the connection, if one does. -/
def handshakeReadReleases : ℕ → SelectorKey → List SendOutcome → Server →
    Except Fault (Option Server)
  | bound, key, sends, s => do
    let conn ← s.conn key.data
    if !bufferCanRead conn.inBuff then
      let _ ← s.currentState key.data
      return none
    else
      match bound with
      | 0 =>
        let _ ← s.currentState key.data
        return none
      | bound + 1 =>
        let (byte, inBuff) ← bufferRead conn.inBuff
        match conn.handshakeParser with
        | none => .error .nullDeref
        | some p =>
          let (p, state) := handshakeParserFeed p byte
          let s := s.setConn key.data { conn with inBuff := inBuff, handshakeParser := some p }
          match state with
          | .done =>
            let response := createHandshakeResponse p.noAuth p.userPassAuth s.junk
            let s ← s.queueReply key.data .handshake (response.bytes HANDSHAKE_RESPONSE_SIZE)
            let s := s.setInterest key.fd OP_WRITE
            let conn ← s.conn key.data
            let s := s.setConn key.data
              { conn with isErrorResponse := !(p.noAuth || p.userPassAuth) }
            let s ← socksv5Write key (sends.headD .wouldBlock) s
            if (s.conns key.data).isNone then return some s
            else handshakeReadReleases bound key sends.tail s
          | .error => return none
          | _ => handshakeReadReleases bound key sends s

/-- `auth_read` up to a reply whose sending releases the connection, if one does. -/
def authReadReleases : ℕ → SelectorKey → List SendOutcome → Server →
    Except Fault (Option Server)
  | bound, key, sends, s => do
    let conn ← s.conn key.data
    if !bufferCanRead conn.inBuff then
      let _ ← s.currentState key.data
      return none
    else
      match bound with
      | 0 =>
        let _ ← s.currentState key.data
        return none
      | bound + 1 =>
        let (byte, inBuff) ← bufferRead conn.inBuff
        match conn.authParser with
        | none => .error .nullDeref
        | some p =>
          let (p, state) := authParserFeed p byte
          let s := s.setConn key.data { conn with inBuff := inBuff, authParser := some p }
          match state with
          | .done =>
            let username := cString p.username MAX_USERNAME_LEN
            let authOk :=
              authCheckCredentials s.users username (cString p.password MAX_PASSWORD_LEN)
            let s := s.note (.credentials key.data authOk)
            let response := createAuthResponse authOk s.junk
            let s ← s.queueReply key.data .auth (response.bytes AUTH_RESPONSE_SIZE)
            let s ← s.resetInBuff key.data
            let conn ← s.conn key.data
            let s := s.setConn key.data { conn with
              isErrorResponse := !authOk
              username := if authOk then username else conn.username }
            let s := s.setInterest key.fd OP_WRITE
            let s ← socksv5Write key (sends.headD .wouldBlock) s
            if (s.conns key.data).isNone then return some s
            else authReadReleases bound key sends.tail s
          | .error => return none
          | _ => authReadReleases bound key sends s

/-- `stm_handler_read` up to the release of the connection by one of these loops. -/
def stmHandlerReadReleases (key : SelectorKey) (env : Env) (s : Server) :
    Except Fault (Option Server) := do
  s.stmPointer key.data
  let s ← handleFirst key s
  let state ← s.stmState key.data
  match state with
  | .handshake =>
    let conn ← s.conn key.data
    handshakeReadReleases conn.inBuff.content.length key env.sends s
  | .auth =>
    let conn ← s.conn key.data
    authReadReleases conn.inBuff.content.length key env.sends s
  | _ => return none

/-- `socksv5_read` up to that release. -/
def socksv5ReadReleases (key : SelectorKey) (env : Env) (s : Server) :
    Except Fault (Option Server) := do
  let conn ← s.conn key.data
  if !bufferCanWrite conn.inBuff then return none
  else
    match env.recv with
    | .data first rest =>
      let bytes := (first :: rest).take conn.inBuff.space
      let inBuff ← bufferWriteAdv (conn.inBuff.store bytes) bytes.length
      let s := (s.setConn key.data { conn with inBuff := inBuff }).note
        (.recv key.data .client bytes)
      stmHandlerReadReleases key env s
    | _ => return none

/-- `socksv5_block` up to the release of a connection whose attempts are over. -/
def socksv5BlockReleases (key : SelectorKey) (env : Env) (s : Server) :
    Except Fault (Option Server) := do
  let (state, s) ← stmHandlerBlock key env (s.note (.notified key.data))
  return if state = .error then some s else none

/-- `handle_write_connecting` up to the release of a connection whose relay does not resume. -/
def connectingReleases (key : SelectorKey) (env : Env) (s : Server) :
    Except Fault (Option Server) := do
  let conn ← s.conn key.data
  let (err, s) := getSoError key.data conn.originFd env s
  match err with
  | some _ => return none
  | none =>
    let conn ← s.conn key.data
    let s := s.setConn key.data { conn with addrInfo := [] }
    let s ← selectorUnregisterFd s conn.originFd
    let (_, s) ← stmHandlerRead key env s
    return if (s.conns key.data).isNone then some s else none

/-- The state in which the callback of an event has released its connection, when the callback
does not end there. -/
def releases (s : Server) : Event → Except Fault (Option Server)
  | .readable fd env =>
    match (s.selector.fds fd).handler, (s.selector.fds fd).data with
    | some .socks5Handler, some c =>
      socksv5ReadReleases ⟨(s.selector.fds fd).fd, c⟩ env (s.enter env)
    | _, _ => .ok none
  | .writable fd env =>
    match (s.selector.fds fd).handler, (s.selector.fds fd).data with
    | some .connectingHandler, some c =>
      connectingReleases ⟨(s.selector.fds fd).fd, c⟩ env (s.enter env)
    | _, _ => .ok none
  | .notify env =>
    match s.selector.resolutionJobs with
    | [] => .ok none
    | fd :: rest =>
      let s := s.enter env
      let s := { s with selector := { s.selector with resolutionJobs := rest } }
      match (s.selector.fds fd).used, (s.selector.fds fd).handler, (s.selector.fds fd).data with
      | true, some .socks5Handler, some c =>
        socksv5BlockReleases ⟨(s.selector.fds fd).fd, c⟩ env s
      | _, _, _ => .ok none
  | _ => .ok none

/-- The state in which the callback of an event ends, or in which it has released its connection
and goes on. -/
def EndsIn (s : Server) (e : Event) (s' : Server) : Prop :=
  step s e = .ok s' ∨ releases s e = .ok (some s')

variable {mode : Mode} {s₀ s s' : Server} {c : ConnId} {v w : View} {junk : Memory}
  {fds : ℕ → Item} {out : SendOutcome} {r : Result} {history : List Obs}

/-- A callback uses what it has released, and fares like the run up to there otherwise. -/
inductive Foretells {α : Type} : Except Fault (Option Server) → Except Fault α → Prop
  | ends (a : α) : Foretells (.ok none) (.ok a)
  | uses (s' : Server) : Foretells (.ok (some s')) (.error .useAfterFree)
  | faults (f : Fault) : Foretells (.error f) (.error f)

/-- The steps that a run and its callback share keep them together. -/
theorem Foretells.bind {α β : Type} {m : Except Fault β} {run : β → Except Fault (Option Server)}
    {callback : β → Except Fault α} (h : ∀ b, Foretells (run b) (callback b)) :
    Foretells (m >>= run) (m >>= callback) := by
  cases m with
  | error f => exact .faults f
  | ok b => exact h b

/-- The use of what was released is the only one that a callback makes. -/
theorem Foretells.useAfterFree_iff {α : Type} {run : Except Fault (Option Server)}
    {callback : Except Fault α} {P : Option Server → Prop} (h : Foretells run callback)
    (hrun : Holds (· = .nullDeref) run P) :
    callback = .error .useAfterFree ↔ ∃ s', run = .ok (some s') := by
  cases h with
  | ends a => simp
  | uses s' => simp
  | faults f =>
    have hf : f = .nullDeref := hrun
    simp [hf]

/-- The loop of `handshake_read` goes on with the connection that it has released. -/
theorem handshakeReadLoop_foretold (bound : ℕ) (key : SelectorKey) (sends : List SendOutcome)
    (s : Server) :
    Foretells (handshakeReadReleases bound key sends s) (handshakeReadLoop bound key sends s) := by
  induction bound generalizing sends s with
  | zero =>
    unfold handshakeReadReleases handshakeReadLoop
    refine .bind fun conn => ?_
    split
    · exact .bind fun state => .ends _
    · exact .bind fun state => .ends _
  | succ bound ih =>
    unfold handshakeReadReleases handshakeReadLoop
    refine .bind fun conn => ?_
    split
    · exact .bind fun state => .ends _
    · refine .bind fun read => ?_
      cases conn.handshakeParser with
      | none => exact .faults _
      | some p =>
        simp only
        cases (handshakeParserFeed p read.1).2 with
        | done =>
          refine .bind fun s => .bind fun conn => .bind fun s => ?_
          by_cases hgone : s.conns key.data = none
          · rw [if_pos (by simp [hgone]), handshakeReadLoop_released hgone]
            exact .uses s
          · rw [if_neg (by simpa using hgone)]
            exact ih _ _
        | error => exact .ends _
        | _ => exact ih _ _

/-- The loop of `auth_read` goes on with the connection that it has released. -/
theorem authReadLoop_foretold (bound : ℕ) (key : SelectorKey) (sends : List SendOutcome)
    (s : Server) : Foretells (authReadReleases bound key sends s) (authReadLoop bound key sends s) := by
  induction bound generalizing sends s with
  | zero =>
    unfold authReadReleases authReadLoop
    refine .bind fun conn => ?_
    split
    · exact .bind fun state => .ends _
    · exact .bind fun state => .ends _
  | succ bound ih =>
    unfold authReadReleases authReadLoop
    refine .bind fun conn => ?_
    split
    · exact .bind fun state => .ends _
    · refine .bind fun read => ?_
      cases conn.authParser with
      | none => exact .faults _
      | some p =>
        simp only
        cases (authParserFeed p read.1).2 with
        | done =>
          refine .bind fun s => .bind fun s => .bind fun conn => .bind fun s => ?_
          by_cases hgone : s.conns key.data = none
          · rw [if_pos (by simp [hgone]), authReadLoop_released hgone]
            exact .uses s
          · rw [if_neg (by simpa using hgone)]
            exact ih _ _
        | error => exact .ends _
        | _ => exact ih _ _

/-- Every reply that was queued was sent whole. -/
def Answered (history : List Obs) : Prop := sentTo .client history = outgoing history

instance (history : List Obs) : Decidable (Answered history) := inferInstanceAs (Decidable (_ = _))

/-- A connection whose stream is accounted for was answered exactly if `out_buff` is empty, also
after observations that move no byte. -/
theorem View.Streams.answered_iff (h : v.Streams) {t : List Obs} (hin : outgoing t = [])
    (hout : sentTo .client t = []) : Answered (v.history ++ t) ↔ v.conn.outBuff.content = [] := by
  rw [Answered, sentTo_append, outgoing_append, hin, hout, List.append_nil, List.append_nil]
  exact h.balance.drained_iff

/-- A callback that accounts for `out_buff` keeps the stream accounted for. -/
theorem Talks.streams (h : Talks Obs.Early v (.alive w)) (hv : v.Streams)
    (hphase : v.phase ≠ some .copy) : w.Streams := by
  obtain ⟨t, rest, ht, hP, hbalance, hrest⟩ := h
  have hw : w.history = v.history ++ t := ht
  refine ⟨?_, fun _ o ho => ?_⟩
  · rw [hw, outgoing_append, sentTo_append, hrest w rfl]
    exact hv.balance.trans hbalance
  · rw [hw] at ho
    rcases List.mem_append.mp ho with ho | ho
    · exact hv.early hphase o ho
    · exact hP o ho

/-- A refused connection is closed by its write handler, whatever is left to send. -/
theorem Wrote.refused (h : Wrote c junk fds v out (.gone history)) (hv : v.Streams)
    (hphase : v.phase ≠ some .copy) (hout : ¬ FatalSend out) :
    Answered history ↔ out.drains v.conn.outBuff.content.length = true := by
  cases h with
  | broken err _ hsend he => exact absurd (.inr ⟨err, hsend, he⟩) hout
  | advanced n left r _ hsend hcontent _ hadvance =>
    have hstreams := ((talks_sent (c := c) n hcontent).mono fun _ ho => ho.early).streams hv hphase
    cases hadvance with
    | refused state _ _ _ =>
      rw [hstreams.answered_iff rfl rfl, hsend]
      simp [View.sent, hcontent, SendOutcome.drains, List.drop_eq_nil_iff]

/-- Before the relay, a send that does not fail for good is either not accepted, or followed by
the write handler of the phase. -/
theorem Wrote.cases_of_healthy (h : Wrote c junk fds v out r) (hleft : v.conn.outBuff.content ≠ [])
    (hphase : v.phase ≠ some .copy) (hout : ¬ FatalSend out) :
    out = .wouldBlock ∧ r = .alive v ∨
      ∃ n left, out = .accepted n ∧ left.content = v.conn.outBuff.content.drop (n + 1) ∧
        Advance c junk fds (v.sent c n left) r := by
  cases out with
  | zero => exact absurd (.inl rfl) hout
  | failed e =>
    have he : e = .eagain := by
      by_contra he
      exact hout (.inr ⟨e, rfl, he⟩)
    subst he
    exact .inl ⟨rfl, h.of_blocked hleft (.inr rfl)⟩
  | accepted n =>
    obtain ⟨left, hcontent, -, hadvance⟩ := h.of_accepted hleft hphase
    exact .inr ⟨n, left, rfl, hcontent, hadvance⟩

section Greeting

/-- So many greeting replies wait in `out_buff`, and nothing was sent of them. -/
structure View.Replies (v : View) (k : ℕ) : Prop where
  length : v.conn.outBuff.content.length = HANDSHAKE_RESPONSE_SIZE * k
  space : v.conn.outBuff.space + HANDSHAKE_RESPONSE_SIZE * k = v.conn.outBuff.capacity

/-- With so many replies waiting, of the most that `out_buff` holds, the loop of `handshake_read`
closes the connection with a byte unsent: at a malformed byte, or by a refusal of whose replies
`send` takes only a part. -/
def greetingCuts (most : ℕ) : HandshakeParser → ℕ → List UInt8 → List SendOutcome → Bool
  | _, _, [], _ => false
  | p, waiting, byte :: rest, sends =>
    let (p, state) := handshakeParserFeed p byte
    match state with
    | .done =>
      match sends.headD .wouldBlock with
      | .accepted n =>
        p.refuses && decide (n + 1 < HANDSHAKE_RESPONSE_SIZE * min (waiting + 1) most)
      | _ => greetingCuts most p (min (waiting + 1) most) rest sends.tail
    | .error => decide (0 < waiting)
    | _ => greetingCuts most p waiting rest sends

/-- A reply waits behind the others, when there is room for it. -/
theorem View.Replies.queued {k : ℕ} {p : HandshakeParser} (h : v.Replies k)
    (hqueued : Queued c .handshake (handshakeReply p junk) v w) :
    w.Replies (min (k + 1) (v.conn.outBuff.capacity / HANDSHAKE_RESPONSE_SIZE)) := by
  have hlen : (handshakeReply p junk).length = HANDSHAKE_RESPONSE_SIZE := by
    simp [handshakeReply, Memory.bytes]
  obtain ⟨hlength, hspace⟩ := h
  have hsize : HANDSHAKE_RESPONSE_SIZE = 2 := rfl
  rw [hsize] at hlength hspace hlen ⊢
  cases hqueued with
  | queued buff hfit hcontent hcapacity hleft =>
    rw [hlen] at hfit hleft
    have hmin : min (k + 1) (v.conn.outBuff.capacity / 2) = k + 1 := by omega
    rw [hmin]
    constructor
    · change buff.content.length = 2 * (k + 1)
      rw [hcontent, List.length_append, hlength, hlen]
      rfl
    · change buff.space + 2 * (k + 1) = buff.capacity
      omega
  | dropped hfull =>
    rw [hlen] at hfull
    have hmin : min (k + 1) (v.conn.outBuff.capacity / 2) = k := by omega
    rw [hmin]
    exact ⟨hlength, hspace⟩

/-- Once its parser is closed, the loop sends nothing more. -/
theorem Tracks.handshakeReadReleases_closed (h : Tracks mode false c s₀ v s) {key : SelectorKey}
    (hkey : key.data = c) {sends : List SendOutcome} {bound : ℕ} {state : Socks5State}
    (hphase : v.phase = some state) (hclosed : v.conn.handshakeParser = none) :
    Holds (· = .nullDeref) (Socks5d.handshakeReadReleases bound key sends s) (· = none) := by
  unfold Socks5d.handshakeReadReleases
  rw [hkey, h.conn_eq, ok_bind]
  cases hcan : bufferCanRead v.conn.inBuff with
  | false => simp [h.currentState_eq hphase]
  | true =>
    cases bound with
    | zero => simp [h.currentState_eq hphase]
    | succ bound =>
      obtain ⟨byte, inBuff, hread, -⟩ := bufferRead_cons ((Buffer.bufferCanRead_iff _).mp hcan)
      simp [hread, hclosed]

/-- Of the replies to a refused greeting `send` takes what it takes, and the connection is released;
an accepted greeting closes its parser; and a send that blocks changes nothing. -/
theorem Wrote.greeting_answered {k : ℕ} {refuses : Bool}
    (h : Wrote c junk fds (w.answering refuses) out r) (hphase : w.phase = some .handshake)
    (hleft : w.conn.outBuff.content ≠ []) (hreplies : w.Replies k) (hstreams : w.Streams)
    (hout : ¬ FatalSend out) :
    out = .wouldBlock ∧ r = .alive (w.answering refuses) ∨
      ∃ n, out = .accepted n ∧
        ((refuses = true ∧ ∃ history, r = .gone history ∧
            (Answered history ↔ HANDSHAKE_RESPONSE_SIZE * k ≤ n + 1)) ∨
          ∃ u state, r = .alive u ∧ u.phase = some state ∧ u.conn.handshakeParser = none) := by
  have hnc : (w.answering refuses).phase ≠ some .copy := by
    change w.phase ≠ _
    simp [hphase]
  have hlength : (w.answering refuses).conn.outBuff.content.length = _ := hreplies.length
  rcases h.cases_of_healthy hleft hnc hout with hblocked | ⟨n, left, hsend, -, hadvance⟩
  · exact .inl hblocked
  · refine .inr ⟨n, hsend, ?_⟩
    rcases hadvance.of_handshake hphase with ⟨hrefuses, history, rfl⟩ | ⟨-, u, state, rfl, -, hu⟩
    · refine .inl ⟨hrefuses, history, rfl, ?_⟩
      rw [h.refused ⟨hstreams.balance, hstreams.early⟩ hnc hout, hsend, SendOutcome.drains,
        decide_eq_true_eq, hlength]
    · exact .inr ⟨u, state, rfl, hu⟩

/-- What a client was sent by the time its greeting is refused. -/
theorem Tracks.handshakeReadReleases (bound : ℕ) {key : SelectorKey} {sends : List SendOutcome}
    {p : HandshakeParser} {k : ℕ} (h : Tracks mode false c s₀ v s) (hzero : mode.zero = true)
    (hkey : key = ⟨v.conn.clientFd, c⟩) (hphase : v.phase = some .handshake)
    (hparser : v.conn.handshakeParser = some p) (htokens : v.tokens = 0)
    (hcapacity : HANDSHAKE_RESPONSE_SIZE ≤ v.conn.outBuff.capacity) (hreplies : v.Replies k)
    (hstreams : v.Streams) (hsends : ∀ out ∈ sends, ¬ FatalSend out) :
    Holds (· = .nullDeref) (Socks5d.handshakeReadReleases bound key sends s) fun o => ∀ s' ∈ o,
      ∃ history, Released mode c s₀ history s' ∧ (Answered history ↔
        greetingCuts (v.conn.outBuff.capacity / HANDSHAKE_RESPONSE_SIZE) p k
          v.conn.inBuff.content sends = false) := by
  have hdata : key.data = c := by rw [hkey]
  induction bound generalizing v s sends p k with
  | zero =>
    unfold Socks5d.handshakeReadReleases
    simp [hdata, h.conn_eq, h.currentState_eq hphase]
  | succ bound ih =>
    unfold Socks5d.handshakeReadReleases
    rw [hdata, h.conn_eq, ok_bind]
    by_cases hempty : v.conn.inBuff.content = []
    · have hcan := (Buffer.bufferCanRead_eq_false_iff _).mpr hempty
      simp [hcan, h.currentState_eq hphase]
    · have hcan : bufferCanRead v.conn.inBuff = true := (Buffer.bufferCanRead_iff _).mpr hempty
      obtain ⟨byte, inBuff, hread, hcontent, hcap⟩ := bufferRead_cons hempty
      simp only [hcan, Bool.not_true, Bool.false_eq_true, if_false, hread, ok_bind, hparser]
      rw [hcontent, greetingCuts]
      rcases hfeed : handshakeParserFeed p byte with ⟨p', state⟩
      have h₁ : Tracks mode false c s₀ (v.greeted inBuff p') _ :=
        h.setConn { v.conn with inBuff := inBuff, handshakeParser := some p' } rfl rfl rfl
      have hgreeted : (v.greeted inBuff p').Streams := ⟨hstreams.balance, hstreams.early⟩
      have hfed := ih (v := v.greeted inBuff p') (p := p') (k := k) h₁
        hkey hphase rfl htokens hcapacity ⟨hreplies.length, hreplies.space⟩ hgreeted hsends
      cases state with
      | version => exact hfed
      | nmethods => exact hfed
      | methods => exact hfed
      | error => simp
      | done =>
        obtain ⟨s₂, w, hs₂, hqueued, hleft, hmarked, h₂⟩ := h₁.handshakeReply_queued hcapacity
        obtain ⟨hconn, hwcap, hwphase, -, -, hwtokens⟩ := hqueued.fields
        have hwin : w.conn.inBuff = inBuff := by rw [hconn]; rfl
        have hwparser : w.conn.handshakeParser = some p' := by rw [hconn]; rfl
        have hwkey : key = ⟨w.conn.clientFd, c⟩ := by rw [hkey, hconn]; rfl
        have hwreplies : w.Replies _ := View.Replies.queued
          (v := v.greeted inBuff p') ⟨hreplies.length, hreplies.space⟩ hqueued
        have hwstreams : w.Streams := (hqueued.talks.mono fun _ ho => ho.early).streams hgreeted
          (by simp [View.greeted, hphase])
        have hwphase' : w.phase = some .handshake := hwphase.trans hphase
        have hout : ¬ FatalSend (sends.headD .wouldBlock) := by
          cases sends with
          | nil => simp [FatalSend, SendOutcome.wouldBlock]
          | cons out more => exact hsends out List.mem_cons_self
        have hequipped : (w.answering p'.refuses).Equipped .handshake := by
          simp [View.Equipped, View.answering, hwparser]
        obtain ⟨s₃, r, hs₃, hwrote, hlands⟩ := h₂.socksv5Write hdata (sends.headD .wouldBlock)
          hwphase' (.inr rfl) hequipped (hwtokens.trans htokens) (fun _ _ => .inl hzero)
        simp only
        rw [hs₂, ok_bind, show key.fd = v.conn.clientFd by rw [hkey], hmarked, ok_bind]
        change Holds _ (Socks5d.socksv5Write key (sends.headD .wouldBlock)
          ((s₂.setInterest v.conn.clientFd OP_WRITE).setConn c
            { w.conn with isErrorResponse := p'.refuses }) >>= _) _
        rw [hs₃, ok_bind]
        rcases hwrote.greeting_answered hwphase' hleft hwreplies hwstreams hout with
          ⟨hsend, rfl⟩ | ⟨n, hsend, ⟨hrefuses, history, rfl, hanswered⟩ | ⟨u, state, rfl, hstate,
            hclosed⟩⟩
        · have halive : Tracks mode false c s₀ (w.answering p'.refuses) s₃ := hlands
          have hrest := ih halive hwkey hwphase' hwparser (hwtokens.trans htokens)
            (hcapacity.trans (le_of_eq hwcap.symm)) ⟨hwreplies.length, hwreplies.space⟩
            ⟨hwstreams.balance, hwstreams.early⟩ fun out ho => hsends out (List.mem_of_mem_tail ho)
          rw [if_neg (by simp [halive.conns]), hsend, ← hwin]
          exact hwcap ▸ hrest
        · have hgone : Released mode c s₀ history s₃ := hlands
          rw [if_pos (by simp [hgone.conns])]
          rintro _ ⟨⟩
          refine ⟨history, hgone, ?_⟩
          rw [hanswered, hsend, hrefuses]
          simp only [Bool.true_and, decide_eq_false_iff_not, Nat.not_lt]
          exact Iff.rfl
        · have halive : Tracks mode false c s₀ u s₃ := hlands
          rw [if_neg (by simp [halive.conns])]
          refine (halive.handshakeReadReleases_closed hdata hstate hclosed).mono ?_
          rintro _ rfl _ ⟨⟩

end Greeting

section Subnegotiation

variable {users : UserTable}

/-- Once `in_buff` is empty, the loop sends nothing more. -/
theorem Tracks.authReadReleases_idle (h : Tracks mode false c s₀ v s) {key : SelectorKey}
    (hkey : key.data = c) {sends : List SendOutcome} {bound : ℕ} {state : Socks5State}
    (hphase : v.phase = some state) (hempty : v.conn.inBuff.content = []) :
    Socks5d.authReadReleases bound key sends s = .ok none := by
  have hcan := (Buffer.bufferCanRead_eq_false_iff _).mpr hempty
  unfold Socks5d.authReadReleases
  simp [hkey, h.conn_eq, hcan, h.currentState_eq hphase]

/-- The judgement of credentials keeps the stream accounted for. -/
theorem Queued.streams_judged {inBuff : Buffer} {p : AuthParser} {reply : List UInt8}
    {authOk : Bool} (h : Queued c .auth reply ((v.subnegotiated inBuff p).lookedUp c authOk) w)
    (hstreams : v.Streams) (hphase : v.phase ≠ some .copy) (name : CString) :
    (w.judged c authOk name).Streams := by
  have hlooked : Talks Obs.Early (v.subnegotiated inBuff p)
      (.alive ((v.subnegotiated inBuff p).lookedUp c authOk)) :=
    .of_silent (t := [.credentials c authOk]) rfl (by simp [Obs.Early, Obs.isRelay]) rfl rfl
      (by rintro _ ⟨⟩; rfl)
  have hjudged : Talks Obs.Local w (.alive (w.judged c authOk name)) :=
    (talks_reset w c).trans (.of_eq rfl rfl)
  have hsub : (v.subnegotiated inBuff p).Streams := ⟨hstreams.balance, hstreams.early⟩
  exact (hlooked.trans ((h.talks.trans hjudged).mono fun _ ho => ho.early)).streams hsub hphase

/-- A verdict that `send` takes any of releases a refused connection; otherwise the connection is
there, with its input thrown away. -/
theorem Wrote.credentials_answered {authOk : Bool} {name : CString}
    (h : Wrote c junk fds (w.judged c authOk name) out r) (hphase : w.phase = some .auth)
    (hlength : w.conn.outBuff.content.length = AUTH_RESPONSE_SIZE)
    (hstreams : (w.judged c authOk name).Streams) (hout : ¬ FatalSend out) :
    (∃ u state, r = .alive u ∧ u.phase = some state ∧ u.conn.inBuff.content = []) ∨
      ∃ n history, out = .accepted n ∧ authOk = false ∧ r = .gone history ∧
        (Answered history ↔ out.drains AUTH_RESPONSE_SIZE = true) := by
  have hphase' : (w.judged c authOk name).phase = some .auth := hphase
  have hnc : (w.judged c authOk name).phase ≠ some .copy := by simp [hphase']
  have hlength' : (w.judged c authOk name).conn.outBuff.content.length = AUTH_RESPONSE_SIZE :=
    hlength
  have hleft : (w.judged c authOk name).conn.outBuff.content ≠ [] :=
    List.ne_nil_of_length_pos (hlength' ▸ by decide)
  have hnil : (w.judged c authOk name).conn.inBuff.content = [] := by
    simp [View.judged, View.reset]
  rcases h.cases_of_healthy hleft hnc hout with ⟨-, rfl⟩ | ⟨n, left, hsend, -, hadvance⟩
  · exact .inl ⟨_, _, rfl, hphase', hnil⟩
  · rcases hadvance.of_auth hphase' with ⟨hrefuses, history, rfl⟩ | ⟨-, rfl⟩
    · have hrefuses' : (!authOk) = true := hrefuses
      exact .inr ⟨n, history, hsend, by simpa using hrefuses', rfl,
        by rw [h.refused hstreams hnc hout, hlength']⟩
    · exact .inl ⟨_, _, rfl, rfl, hnil⟩

/-- What a client was sent by the time its credentials are refused. -/
theorem Tracks.authReadReleases (bound : ℕ) {key : SelectorKey} {sends : List SendOutcome}
    {p : AuthParser} (h : Tracks mode false c s₀ v s) (hkey : key = ⟨v.conn.clientFd, c⟩)
    (hphase : v.phase = some .auth) (hparser : v.conn.authParser = some p) (htokens : v.tokens = 0)
    (hcapacity : AUTH_RESPONSE_SIZE ≤ v.conn.outBuff.capacity) (hnone : v.conn.outBuff.content = [])
    (hstreams : v.Streams) (hout : ¬ FatalSend (sends.headD .wouldBlock)) :
    Holds (fun _ => False) (Socks5d.authReadReleases bound key sends s) fun o => ∀ s' ∈ o,
      ∃ history, Released mode c s₀ history s' ∧
        subnegotiationHazard s₀.users (sends.headD .wouldBlock) p v.conn.inBuff.content = true ∧
        (Answered history ↔ (sends.headD .wouldBlock).drains AUTH_RESPONSE_SIZE = true) := by
  have hdata : key.data = c := by rw [hkey]
  induction bound generalizing v s p with
  | zero =>
    unfold Socks5d.authReadReleases
    simp [hdata, h.conn_eq, h.currentState_eq hphase]
  | succ bound ih =>
    by_cases hempty : v.conn.inBuff.content = []
    · simp [h.authReadReleases_idle hdata hphase hempty]
    · unfold Socks5d.authReadReleases
      rw [hdata, h.conn_eq, ok_bind]
      have hcan : bufferCanRead v.conn.inBuff = true := (Buffer.bufferCanRead_iff _).mpr hempty
      obtain ⟨byte, inBuff, hread, hcontent, -⟩ := bufferRead_cons hempty
      simp only [hcan, Bool.not_true, Bool.false_eq_true, if_false, hread, ok_bind, hparser]
      rw [hcontent, subnegotiationHazard]
      rcases hfeed : authParserFeed p byte with ⟨p', state⟩
      have h₁ : Tracks mode false c s₀ (v.subnegotiated inBuff p') _ :=
        h.setConn { v.conn with inBuff := inBuff, authParser := some p' } rfl rfl rfl
      have hfed := ih (v := v.subnegotiated inBuff p') (p := p') h₁ hkey hphase rfl
        htokens hcapacity hnone ⟨hstreams.balance, hstreams.early⟩
      cases state with
      | version => exact hfed
      | usernameLen => exact hfed
      | username => exact hfed
      | passwordLen => exact hfed
      | password => exact hfed
      | error => simp
      | done =>
        obtain ⟨s₂, s₃, w, hs₂, hs₃, hreset, hqueued, hleft, h₂⟩ := h₁.authReply_queued hcapacity
        obtain ⟨hconn, -, hwphase, -, -, hwtokens⟩ := hqueued.fields
        have hwparser : w.conn.authParser = some p' := by rw [hconn]; rfl
        have hwphase' : w.phase = some .auth := hwphase.trans hphase
        have hwstreams := hqueued.streams_judged hstreams (by simp [hphase]) p'.name
        obtain ⟨hreply, -⟩ := hqueued.of_empty hnone
          (by simp [authReply, Memory.bytes, AUTH_RESPONSE_SIZE])
          (by simpa [authReply, View.subnegotiated, View.lookedUp] using hcapacity)
        have hlength : w.conn.outBuff.content.length = AUTH_RESPONSE_SIZE := by
          rw [hreply]
          simp [authReply, Memory.bytes]
        obtain ⟨s₄, r, hs₄, hwrote, hlands⟩ := h₂.socksv5Write hdata (sends.headD .wouldBlock)
          hwphase' (.inr rfl) (by simp [View.Equipped, View.judged, View.reset, hwparser])
          (hwtokens.trans htokens) (fun _ _ => .inr (.inr (by simp [View.judged, View.reset])))
        simp only [h₁.authCheck_eq]
        rw [hs₂, ok_bind, hs₃, ok_bind, hreset, ok_bind,
          show key.fd = v.conn.clientFd by rw [hkey]]
        change Holds _ (Socks5d.socksv5Write key (sends.headD .wouldBlock)
          ((s₃.setConn c { (w.reset c).conn with
            isErrorResponse := !p'.accepted s₀.users
            username := if p'.accepted s₀.users then p'.name else
              (w.reset c).conn.username }).setInterest v.conn.clientFd OP_WRITE) >>= _) _
        rw [hs₄, ok_bind]
        rcases hwrote.credentials_answered hwphase' hlength hwstreams hout with
          ⟨u, state, rfl, hstate, hnil⟩ | ⟨n, history, hsend, hrefused, rfl, hanswered⟩
        · have halive : Tracks mode false c s₀ u s₄ := hlands
          rw [if_neg (by simp [halive.conns]), halive.authReadReleases_idle hdata hstate hnil]
          rintro _ ⟨⟩
        · have hgone : Released mode c s₀ history s₄ := hlands
          rw [if_pos (by simp [hgone.conns])]
          rintro _ ⟨⟩
          refine ⟨history, hgone, ?_, hanswered⟩
          rw [hsend]
          simp [hrefused]

end Subnegotiation

section Attempts

variable {key : SelectorKey} {env : Env}

/-- How a resolution with addresses ends without one to relay to, and the view in which the
connection is released then. -/
inductive Abandons (c : ConnId) (env : Env) (fds : ℕ → Item) (fd : ℕ) (v : View) : View → Prop
  | refused (hsome : v.conn.addrInfo ≠ []) (hdial : dial v.conn.addrInfo env.connects = .refused) :
      Abandons c env fds fd v (v.dialed c fd env.connects none)
  | unregistered (hsome : v.conn.addrInfo ≠ [])
      (hdial : dial v.conn.addrInfo env.connects = .noSocket ∨
        (∃ peer rest, dial v.conn.addrInfo env.connects = .pending peer rest) ∧
          (fd < ITEMS_MAX_SIZE → (fds fd).used = true)) :
      Abandons c env fds fd v (View.registered
        { v.dialed c fd env.connects none with interest := OP_NOOP }
        c SOCKS5_REP_GENERAL_FAILURE env.now)

/-- A notification releases its connection in mid-callback only when it gives up. -/
theorem Tracks.socksv5BlockReleases_abandons (h : Tracks mode false c s₀ v s)
    (hkey : key = ⟨v.conn.clientFd, c⟩) (hphase : v.phase = some .connecting)
    (hzero : v.conn.originFd = 0) (htokens : v.tokens = 0)
    (hrun : Socks5d.socksv5BlockReleases key env s = .ok (some s')) :
    ∃ w, Abandons c env s.selector.fds s.kernel.lowest (v.notified c) w ∧
      Released mode c s₀ (w.history ++ [.enter c .error, .released c]) s' := by
  have hdata : key.data = c := by rw [hkey]
  have hnoted := h.notified htokens
  obtain ⟨ret, s₁, r, hole, hs₁, hready, hlands, hhole⟩ :=
    hnoted.connectingOnBlockReady hkey env hphase hzero rfl
  rw [Socks5d.socksv5BlockReleases, hdata, hnoted.stmHandlerBlock_eq hdata hphase hs₁] at hrun
  have hreleased : ∀ w, w.phase = some .connecting → w.tokens = 0 →
      Tracks mode hole c s₀ w s₁ → ret = .error →
      Released mode c s₀ (w.history ++ [.enter c .error, .released c]) s' := by
    rintro w hwphase hwtokens htracks rfl
    obtain ⟨s₂, hs₂, h₂⟩ :=
      htracks.jump_error hdata hwphase (by simp) trivial (by simp) hwtokens
    obtain rfl : s₂ = s' := by simpa [hs₂] using hrun
    exact h₂
  have hcontinues : ∀ {p : Prop}, ret ≠ .error → p := by
    intro p hret
    cases hjump : Socks5d.jump ret key s₁ with
    | error e => simp [hjump] at hrun
    | ok s₂ => simp [hjump, hret] at hrun
  cases hready with
  | refused hsome hdial => exact ⟨_, .refused hsome hdial, hreleased _ hphase rfl hlands rfl⟩
  | unregistered hsome hdial =>
    exact ⟨_, .unregistered hsome hdial, hreleased _ hphase rfl hlands rfl⟩
  | _ => exact hcontinues (by simp)

/-- A connection whose attempts are over is released with nothing left to send. -/
theorem Tracks.socksv5BlockReleases (h : Tracks mode false c s₀ v s)
    (hkey : key = ⟨v.conn.clientFd, c⟩) (hphase : v.phase = some .connecting)
    (hzero : v.conn.originFd = 0) (htokens : v.tokens = 0) (hnone : v.conn.outBuff.content = [])
    (hstreams : v.Streams) (hrun : Socks5d.socksv5BlockReleases key env s = .ok (some s')) :
    ∃ history, Released mode c s₀ history s' ∧ Answered history := by
  obtain ⟨w, habandons, hreleased⟩ := h.socksv5BlockReleases_abandons hkey hphase hzero htokens hrun
  refine ⟨_, hreleased, ?_⟩
  have htalks : Talks Obs.Early v (.alive (v.notified c)) :=
    .of_silent (t := [.notified c]) rfl (by simp [Obs.Early, Obs.isRelay]) rfl rfl
      (by rintro _ ⟨⟩; rfl)
  have hanswered : Talks Obs.Local (v.notified c) (.alive w) → w.conn.outBuff = v.conn.outBuff →
      Answered (w.history ++ [.enter c .error, .released c]) := by
    intro hwtalks hout
    have hwstreams : w.Streams := (htalks.trans (hwtalks.mono fun _ ho => ho.early)).streams
      hstreams (by simp [hphase])
    exact (hwstreams.answered_iff rfl rfl).mpr (by rw [hout, hnone])
  have hdialed := talks_dialed (v.notified c) c s.kernel.lowest env.connects none
  cases habandons with
  | refused _ _ => exact hanswered hdialed rfl
  | unregistered _ _ =>
    exact hanswered (hdialed.trans
      (Talks.trans (.of_eq rfl rfl) (talks_registered _ c _ env.now))) rfl

/-- An answer that ends the attempts releases the connection, unless its reply fails for good. -/
theorem Tracks.socksv5BlockReleases_of_hazard (h : Tracks mode false c s₀ v s)
    (hkey : key = ⟨v.conn.clientFd, c⟩) (hphase : v.phase = some .connecting)
    (hzero : v.conn.originFd = 0) (htokens : v.tokens = 0) (hsend : ¬ FatalSend env.send)
    (hhazard : BlockHazard s v.conn.addrInfo env) :
    ∃ s', Socks5d.socksv5BlockReleases key env s = .ok (some s') := by
  have hdata : key.data = c := by rw [hkey]
  have hnoted := h.notified htokens
  obtain ⟨ret, s₁, r, hole, hs₁, hready, hlands, -⟩ :=
    hnoted.connectingOnBlockReady (v := v.notified c) hkey env hphase hzero rfl
  have hreleased : ∀ w, w.phase = some .connecting → w.tokens = 0 →
      Tracks mode hole c s₀ w s₁ → ret = .error →
      ∃ s', Socks5d.socksv5BlockReleases key env s = .ok (some s') := by
    rintro w hwphase hwtokens htracks rfl
    obtain ⟨s₂, hs₂, -⟩ := htracks.jump_error hdata hwphase (by simp) trivial (by simp) hwtokens
    refine ⟨s₂, ?_⟩
    rw [Socks5d.socksv5BlockReleases, hdata, hnoted.stmHandlerBlock_eq hdata hphase hs₁]
    simp [hs₂]
  obtain ⟨hsome, hdial⟩ := hhazard
  cases hready with
  | noAddress w hnone _ => exact absurd hnone hsome
  | refused _ _ =>
    exact hreleased ((v.notified c).dialed c s.kernel.lowest env.connects none) hphase rfl hlands rfl
  | unregistered _ _ =>
    exact hreleased (View.registered
      { (v.notified c).dialed c s.kernel.lowest env.connects none with interest := OP_NOOP }
      c SOCKS5_REP_GENERAL_FAILURE env.now) hphase rfl hlands rfl
  | pending peer rest _ hdial' hlt hfree =>
    have hdial'' : dial v.conn.addrInfo env.connects = .pending peer rest := hdial'
    rw [hdial''] at hdial
    have hused := hdial hlt
    rw [show (s.selector.fds s.kernel.lowest).used = false from hfree] at hused
    cases hused
  | established peer w r _ hdial' _ _ =>
    have hdial'' : dial v.conn.addrInfo env.connects = .connected peer := hdial'
    rw [hdial''] at hdial
    obtain ⟨err, hout, herr⟩ := hdial
    exact absurd (.inr ⟨err, hout, herr⟩) hsend

/-- `socksv5_block` goes on with a connection that it has released. -/
theorem socksv5Block_of_releases (hrun : Socks5d.socksv5BlockReleases key env s = .ok (some s'))
    (hgone : s'.conns key.data = none) : Socks5d.socksv5Block key env s = .error .useAfterFree := by
  unfold Socks5d.socksv5BlockReleases at hrun
  unfold Socks5d.socksv5Block
  obtain ⟨⟨state, s₁⟩, hblock, hrun⟩ := bind_eq_ok.mp hrun
  by_cases hstate : state = .error
  · obtain rfl : s₁ = s' := by simpa [hstate] using hrun
    simp [hblock, hstate, Server.conn, Server.incErrors, hgone]
  · simp [hstate] at hrun

/-- A connection that relays already is released with whatever it has left to send. -/
theorem Tracks.connectingReleases (h : Tracks mode false c s₀ v s) (hkey : key.data = c)
    (hphase : v.phase = some .connecting ∨ v.phase = some .copy)
    (hne : v.conn.originFd ≠ 0) (htokens : v.tokens = 0) (hstreams : v.Streams)
    (hrun : Socks5d.connectingReleases key env s = .ok (some s')) :
    v.phase = some .copy ∧ ∃ history, Released mode c s₀ history s' ∧
      (Answered history ↔ v.conn.outBuff.content = []) := by
  have hopen := h.isOpen_origin hne
  have hpos : 0 ≤ v.conn.originFd ∨ v.conn.originFd = -1 := by
    rcases (h.owned.conn c v.conn h.conns).2.1 with h0 | h1 | ⟨fd, hfd, -⟩
    · exact .inl (by omega)
    · exact .inr h1
    · exact .inl (by omega)
  -- whichever way there is no error, nothing was sent or queued so far
  have hresumed : ∀ s₁ t, Tracks mode false c s₀ { v with history := v.history ++ t } s₁ →
      outgoing t = [] → sentTo .client t = [] →
      (do
        let conn ← s₁.conn key.data
        let s := s₁.setConn key.data { conn with addrInfo := [] }
        let s ← selectorUnregisterFd s conn.originFd
        let (_, s) ← stmHandlerRead key env s
        return if (s.conns key.data).isNone then some s else none) = .ok (some s') →
      v.phase = some .copy ∧ ∃ history, Released mode c s₀ history s' ∧
        (Answered history ↔ v.conn.outBuff.content = []) := by
    intro s₁ t h₁ hin hout hrun
    have h₂ := h₁.setConn { v.conn with addrInfo := [] } rfl rfl rfl
    rw [hkey, h₁.conn_eq, ok_bind] at hrun
    rcases hphase with hphase | hphase
    · obtain ⟨s₂, s₃, relay, hs₂, hread, -, h₃⟩ :=
        h₂.stmHandlerRead_connecting hkey env hphase hne hpos
      simp [hs₂, hread, h₃.conns] at hrun
    · obtain ⟨s₂, s₃, hs₂, hread, h₃⟩ := h₂.stmHandlerRead_relaying hkey env hphase hne htokens
      obtain rfl : s₃ = s' := by simpa [hs₂, hread, h₃.conns] using hrun
      refine ⟨hphase, _, h₃, ?_⟩
      simp only [List.append_assoc]
      exact hstreams.answered_iff (by rw [outgoing_append, hin]; rfl)
        (by rw [sentTo_append, hout]; rfl)
  rw [Socks5d.connectingReleases, hkey, h.conn_eq, ok_bind, getSoError, hopen] at hrun
  by_cases hgiven : v.conn.originFd = -1
  · rw [if_neg (by simp [hgiven]), hgiven, Server.close_unset] at hrun
    refine hresumed (s.setErrno .ebadf) [] ?_ rfl rfl (by rw [hkey]; exact hrun)
    simpa using h.setErrno .ebadf
  · rw [if_pos (by simp [hgiven])] at hrun
    cases herr : env.soError with
    | none =>
      simp only [herr, if_true] at hrun
      exact hresumed _ [.established c] (h.note (.established c) rfl) rfl rfl (by rw [hkey]; exact hrun)
    | some e => simp [herr] at hrun

/-- A pending connect's event releases a connection that relays already. -/
theorem Tracks.connectingReleases_of_copy (h : Tracks mode false c s₀ v s) (hkey : key.data = c)
    (hphase : v.phase = some .copy) (hne : v.conn.originFd ≠ 0) (htokens : v.tokens = 0)
    (hstands : v.conn.originFd = -1 ∨ env.soError = none) :
    ∃ s', Socks5d.connectingReleases key env s = .ok (some s') := by
  have hopen := h.isOpen_origin hne
  have hresumed : ∀ s₁ t, Tracks mode false c s₀ { v with history := v.history ++ t } s₁ →
      ∃ s', (do
        let conn ← s₁.conn key.data
        let s := s₁.setConn key.data { conn with addrInfo := [] }
        let s ← selectorUnregisterFd s conn.originFd
        let (_, s) ← stmHandlerRead key env s
        return if (s.conns key.data).isNone then some s else none) = .ok (some s') := by
    intro s₁ t h₁
    have h₂ := h₁.setConn { v.conn with addrInfo := [] } rfl rfl rfl
    obtain ⟨s₂, s₃, hs₂, hread, h₃⟩ := h₂.stmHandlerRead_relaying hkey env hphase hne htokens
    exact ⟨s₃, by simp [hkey, h₁.conn_eq, hs₂, hread, h₃.conns]⟩
  rw [Socks5d.connectingReleases, hkey, h.conn_eq, ok_bind, getSoError, hopen]
  by_cases hgiven : v.conn.originFd = -1
  · rw [if_neg (by simp [hgiven]), hgiven, Server.close_unset, ← hkey]
    exact hresumed (s.setErrno .ebadf) [] (by simpa using h.setErrno .ebadf)
  · have herr : env.soError = none := hstands.resolve_left hgiven
    rw [if_pos (by simp [hgiven])]
    simp only [herr, if_true]
    rw [← hkey]
    exact hresumed _ [.established c] (by rw [hkey]; exact h.note (.established c) rfl)

/-- `handle_write_connecting` goes on with a connection that it has released. -/
theorem handleWriteConnecting_of_releases
    (hrun : Socks5d.connectingReleases key env s = .ok (some s')) :
    Socks5d.handleWriteConnecting key env s = .error .useAfterFree := by
  unfold Socks5d.connectingReleases at hrun
  obtain ⟨conn, hconn, hrun⟩ := bind_eq_ok.mp hrun
  rcases herr : getSoError key.data conn.originFd env s with ⟨err, s₁⟩
  rw [herr] at hrun
  cases err with
  | some e => cases hrun
  | none =>
    obtain ⟨conn₁, hconn₁, hrun⟩ := bind_eq_ok.mp hrun
    obtain ⟨s₂, hunreg, hrun⟩ := bind_eq_ok.mp hrun
    obtain ⟨⟨state, s₃⟩, hread, hrun⟩ := bind_eq_ok.mp hrun
    have hgone : s₃.conns key.data = none := by
      by_contra hsome
      simp [hsome] at hrun
    have hentry : s₃.accessRegisterAddEntry key.data SOCKS5_REP_SUCCEEDED env.now =
        .error .useAfterFree := by
      simp [Server.accessRegisterAddEntry, Server.conn, hgone]
    simp only [Socks5d.handleWriteConnecting, Socks5d.acceptConnecting, hconn, herr, hconn₁, hunreg,
      hread, hentry, ok_bind, error_bind]

end Attempts

end Socks5d
