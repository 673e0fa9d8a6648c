import Socks5d.Greeting

/-!
# Reading the sub-negotiation

The loop of `auth_read` on the view. A complete message is judged against the user table, its
reply is queued, whatever followed it in `in_buff` is thrown away, and the reply is sent at once.
-/

namespace Socks5d

open Fallible

variable {mode : Mode} {c : ConnId} {s₀ s : Server} {v : View}

/-- The bytes `auth_read` queues for a complete message. -/
def authReply (authOk : Bool) (junk : Memory) : List UInt8 :=
  (createAuthResponse authOk junk).bytes AUTH_RESPONSE_SIZE

/-- The name of a complete message, as the C string it is compared as. -/
def AuthParser.name (p : AuthParser) : CString := cString p.username MAX_USERNAME_LEN

/-- How a complete message is judged. -/
def AuthParser.accepted (p : AuthParser) (users : UserTable) : Bool :=
  authCheckCredentials users p.name (cString p.password MAX_PASSWORD_LEN)

/-- The loop reaches, on these bytes, a send that releases the connection under it. -/
def subnegotiationHazard (users : UserTable) (out : SendOutcome) :
    AuthParser → List UInt8 → Bool
  | _, [] => false
  | p, byte :: rest =>
    let (p, state) := authParserFeed p byte
    match state with
    | .done =>
      match out with
      | .accepted _ => !p.accepted users
      | .zero => false
      | .failed e => e != .eagain
    | .error => false
    | _ => subnegotiationHazard users out p rest

/-- The view after the parser was fed the first byte of `in_buff`. -/
def View.subnegotiated (v : View) (inBuff : Buffer) (p : AuthParser) : View :=
  { v with conn := { v.conn with inBuff := inBuff, authParser := some p } }

/-- The view once the credentials were looked up. -/
def View.lookedUp (v : View) (c : ConnId) (authOk : Bool) : View :=
  { v with history := v.history ++ [.credentials c authOk] }

/-- The view in which the reply to the credentials is about to be sent. -/
def View.judged (w : View) (c : ConnId) (authOk : Bool) (name : CString) : View :=
  { w.reset c with
    conn := { (w.reset c).conn with
      isErrorResponse := !authOk
      username := if authOk then name else w.conn.username }
    interest := OP_WRITE }

/-- The passes of the loop, with whether it ends on a malformed message. -/
inductive AuthReads (c : ConnId) (users : UserTable) (junk : Memory) (out : SendOutcome) :
    View → View → Bool → Prop
  | idle (v : View) (hempty : v.conn.inBuff.content = []) : AuthReads c users junk out v v false
  | fed (v w : View) (malformed : Bool) (p p' : AuthParser) (byte : UInt8) (state : AuthState)
      (inBuff : Buffer) (hparser : v.conn.authParser = some p)
      (hcontent : v.conn.inBuff.content = byte :: inBuff.content)
      (hcapacity : inBuff.capacity = v.conn.inBuff.capacity)
      (hfeed : authParserFeed p byte = (p', state)) (hstate : state ≠ .done ∧ state ≠ .error)
      (hrest : AuthReads c users junk out (v.subnegotiated inBuff p') w malformed) :
      AuthReads c users junk out v w malformed
  | malformed (v : View) (p p' : AuthParser) (byte : UInt8) (inBuff : Buffer)
      (hparser : v.conn.authParser = some p)
      (hcontent : v.conn.inBuff.content = byte :: inBuff.content)
      (hcapacity : inBuff.capacity = v.conn.inBuff.capacity)
      (hfeed : authParserFeed p byte = (p', .error)) :
      AuthReads c users junk out v (v.subnegotiated inBuff p') true
  | judged (fds : ℕ → Item) (v w u : View) (p p' : AuthParser) (byte : UInt8) (inBuff : Buffer)
      (hparser : v.conn.authParser = some p)
      (hcontent : v.conn.inBuff.content = byte :: inBuff.content)
      (hcapacity : inBuff.capacity = v.conn.inBuff.capacity)
      (hfeed : authParserFeed p byte = (p', .done))
      (hqueued : Queued c .auth (authReply (p'.accepted users) junk)
        ((v.subnegotiated inBuff p').lookedUp c (p'.accepted users)) w)
      (hwrote : Wrote c junk fds (w.judged c (p'.accepted users) p'.name) out (.alive u)) :
      AuthReads c users junk out v u false

/-- The outcomes of a client read in the authentication phase. -/
inductive Authenticates (c : ConnId) (users : UserTable) (junk : Memory) (env : Env) (v : View) :
    Result → Prop
  | reads (w : View) (malformed : Bool)
      (hreads : AuthReads c users junk env.send v w malformed) :
      Authenticates c users junk env v (w.finish c malformed)

/-- A read handler that runs after the connection was released faults. -/
theorem authReadLoop_released {key : SelectorKey} {sends : List SendOutcome} {bound : ℕ}
    (hgone : s.conns key.data = none) :
    Socks5d.authReadLoop bound key sends s = .error .useAfterFree := by
  unfold Socks5d.authReadLoop
  simp [Server.conn, hgone]

/-- The loop stops when nothing is left to read. -/
theorem Tracks.authReadLoop_idle (h : Tracks mode false c s₀ v s) {key : SelectorKey}
    (hkey : key.data = c) {sends : List SendOutcome} {bound : ℕ} {state : Socks5State}
    (hempty : v.conn.inBuff.content = []) (hphase : v.phase = some state) :
    Socks5d.authReadLoop bound key sends s = .ok (state, s) := by
  have hcan := (Buffer.bufferCanRead_eq_false_iff _).mpr hempty
  subst hkey
  unfold Socks5d.authReadLoop
  simp [h.conn_eq, hcan, h.currentState_eq hphase]

/-- The write handler of the authentication phase goes on or releases the connection. -/
theorem Advance.of_auth {junk : Memory} {fds : ℕ → Item} {w : View} {r : Result}
    (h : Advance c junk fds w r) (hphase : w.phase = some .auth) :
    w.conn.isErrorResponse = true ∧ (∃ history, r = .gone history) ∨
      w.conn.isErrorResponse = false ∧ r = .alive { w with
        conn := { w.conn with
          authParser := none, connReqParser := some (connReqParserInit junk) }
        phase := some .connectionReq
        history := w.history ++ [.enter c .connectionReq] } := by
  cases h with
  | refused _ _ _ herror => exact .inl ⟨herror, _, rfl⟩
  | auth _ hphase' => cases hphase.symm.trans hphase'
  | connectionReq state hphase' herror =>
    obtain rfl := Option.some.inj (hphase.symm.trans hphase')
    exact .inr ⟨herror, rfl⟩
  | copy state _ hphase' _ hstate =>
    obtain rfl := Option.some.inj (hphase.symm.trans hphase')
    simp at hstate

/-- Sending the reply to a judged message from the loop. -/
theorem Tracks.authReply_sent {w : View} {key : SelectorKey} {out : SendOutcome}
    {sends : List SendOutcome} {authOk : Bool} {name : CString} {bound : ℕ}
    (h : Tracks mode false c s₀ (w.judged c authOk name) s) (hkey : key.data = c)
    (hphase : w.phase = some .auth) (hparser : w.conn.authParser.isSome = true)
    (htokens : w.tokens = 0) (hleft : w.conn.outBuff.content ≠ []) :
    Holds (fun f => f.isMemory ∧ (match out with
        | .accepted _ => !authOk
        | .zero => false
        | .failed e => e != .eagain) = true)
      (Socks5d.socksv5Write key out s >>= fun s' => Socks5d.authReadLoop bound key sends s')
      fun res => ∃ u, Wrote c s₀.junk s₀.selector.fds (w.judged c authOk name) out (.alive u) ∧
        ReadEnds mode c s₀ u false res := by
  have hempty : (w.judged c authOk name).conn.inBuff.content = [] := by
    simp [View.judged, View.reset]
  obtain ⟨s', r, hs', hwrote, hlands⟩ :=
    h.socksv5Write hkey out hphase (.inr rfl) hparser htokens (fun _ _ => .inr (.inr hempty))
  have hreleased : ∀ history, r = .gone history →
      Socks5d.authReadLoop bound key sends s' = .error .useAfterFree := by
    rintro history rfl
    have hgone : Released mode c s₀ history s' := hlands
    exact authReadLoop_released (hkey ▸ hgone.conns)
  have hidle : ∀ u state, r = .alive u → u.conn.inBuff.content = [] → u.phase = some state →
      Socks5d.authReadLoop bound key sends s' = .ok (state, s') ∧
        ReadEnds mode c s₀ u false (state, s') := by
    rintro u state rfl hin hstate
    have htracks : Tracks mode false c s₀ u s' := hlands
    exact ⟨htracks.authReadLoop_idle hkey hin hstate, htracks, hstate⟩
  rw [hs', ok_bind]
  cases out with
  | zero =>
    obtain rfl := hwrote.of_blocked hleft (.inl rfl)
    obtain ⟨hloop, hends⟩ := hidle _ .auth rfl hempty hphase
    rw [hloop, holds_ok]
    exact ⟨_, hwrote, hends⟩
  | failed e =>
    by_cases he : e = .eagain
    · subst he
      obtain rfl := hwrote.of_blocked hleft (.inr rfl)
      obtain ⟨hloop, hends⟩ := hidle _ .auth rfl hempty hphase
      rw [hloop, holds_ok]
      exact ⟨_, hwrote, hends⟩
    · rw [hreleased _ (hwrote.of_failed hleft he), holds_error]
      simp [he]
  | accepted n =>
    have hphase' : (w.judged c authOk name).phase = some .auth := hphase
    obtain ⟨left, -, -, hadvance⟩ := hwrote.of_accepted hleft (by rw [hphase']; simp)
    rcases hadvance.of_auth hphase with ⟨herror, history, hgone⟩ | ⟨-, halive⟩
    · rw [hreleased _ hgone, holds_error]
      exact ⟨trivial, herror⟩
    · subst halive
      obtain ⟨hloop, hends⟩ := hidle _ .connectionReq rfl hempty rfl
      rw [hloop, holds_ok]
      exact ⟨_, hwrote, hends⟩

/-- A complete message is judged, its reply queued, and the rest of `in_buff` thrown away. -/
theorem Tracks.authReply_queued {inBuff : Buffer} {p : AuthParser}
    (h : Tracks mode false c s₀ (v.subnegotiated inBuff p) s)
    (hcapacity : AUTH_RESPONSE_SIZE ≤ v.conn.outBuff.capacity) :
    ∃ s₁ s₂ w, (s.note (.credentials c (p.accepted s₀.users))).queueReply c .auth
        ((createAuthResponse (p.accepted s₀.users)
          (s.note (.credentials c (p.accepted s₀.users))).junk).bytes AUTH_RESPONSE_SIZE) = .ok s₁ ∧
      s₁.resetInBuff c = .ok s₂ ∧ s₂.conn c = .ok (w.reset c).conn ∧
      Queued c .auth (authReply (p.accepted s₀.users) s₀.junk)
        ((v.subnegotiated inBuff p).lookedUp c (p.accepted s₀.users)) w ∧
      w.conn.outBuff.content ≠ [] ∧
      Tracks mode false c s₀ (w.judged c (p.accepted s₀.users) p.name)
        ((s₂.setConn c { (w.reset c).conn with
          isErrorResponse := !p.accepted s₀.users
          username := if p.accepted s₀.users then p.name else (w.reset c).conn.username }).setInterest
            v.conn.clientFd OP_WRITE) := by
  have h₁ : Tracks mode false c s₀
      ((v.subnegotiated inBuff p).lookedUp c (p.accepted s₀.users)) _ :=
    h.note (.credentials c (p.accepted s₀.users)) rfl
  obtain ⟨s₁, w, hs₁, hqueued, h₂⟩ := h₁.queueReply .auth (authReply (p.accepted s₀.users) s₀.junk)
  obtain ⟨hconn, -⟩ := hqueued.fields
  have hclient : v.conn.clientFd = (w.reset c).conn.clientFd := by
    change v.conn.clientFd = w.conn.clientFd
    rw [hconn]
    rfl
  obtain ⟨s₂, hs₂, h₃⟩ := h₂.resetInBuff
  have h₄ := h₃.setConn { (w.reset c).conn with
    isErrorResponse := !p.accepted s₀.users
    username := if p.accepted s₀.users then p.name else w.conn.username } rfl rfl rfl
  rw [authReply, ← h₁.frame.junk] at hs₁
  rw [hclient]
  exact ⟨s₁, s₂, w, hs₁, hs₂, h₃.conn_eq, hqueued,
    hqueued.content_ne_nil (by simp [authReply, Memory.bytes, AUTH_RESPONSE_SIZE])
      (by simpa [authReply, View.subnegotiated, View.lookedUp] using hcapacity),
    h₄.armClient OP_WRITE⟩

/-- The credentials of a complete message are checked against the table the callback started
with. -/
theorem Tracks.authCheck_eq (h : Tracks mode false c s₀ v s) (p : AuthParser) :
    authCheckCredentials s.users (cString p.username MAX_USERNAME_LEN)
      (cString p.password MAX_PASSWORD_LEN) = p.accepted s₀.users := by
  rw [h.frame.users]
  rfl

/-- The loop follows its passes, and faults only on a hazard, by using what was released. -/
theorem Tracks.authReadLoop (bound : ℕ) {key : SelectorKey} {sends : List SendOutcome}
    {p : AuthParser} (h : Tracks mode false c s₀ v s) (hkey : key = ⟨v.conn.clientFd, c⟩)
    (hphase : v.phase = some .auth) (hparser : v.conn.authParser = some p)
    (htokens : v.tokens = 0) (hcapacity : AUTH_RESPONSE_SIZE ≤ v.conn.outBuff.capacity)
    (hbound : v.conn.inBuff.content.length ≤ bound) :
    Holds (fun f => f.isMemory ∧ subnegotiationHazard s₀.users (sends.headD .wouldBlock) p
        v.conn.inBuff.content = true)
      (Socks5d.authReadLoop bound key sends s) fun out => ∃ w malformed,
        AuthReads c s₀.users s₀.junk (sends.headD .wouldBlock) v w malformed ∧
          ReadEnds mode c s₀ w malformed out := by
  have hdata : key.data = c := by rw [hkey]
  induction bound generalizing v s p with
  | zero =>
    have hempty : v.conn.inBuff.content = [] := List.length_eq_zero_iff.mp (by omega)
    rw [h.authReadLoop_idle hdata hempty hphase, holds_ok]
    exact ⟨v, false, .idle v hempty, h, hphase⟩
  | succ bound ih =>
    by_cases hempty : v.conn.inBuff.content = []
    · rw [h.authReadLoop_idle hdata hempty hphase, holds_ok]
      exact ⟨v, false, .idle v hempty, h, hphase⟩
    · unfold Socks5d.authReadLoop
      rw [hdata, h.conn_eq, ok_bind]
      have hcan : bufferCanRead v.conn.inBuff = true := (Buffer.bufferCanRead_iff _).mpr hempty
      obtain ⟨byte, inBuff, hread, hcontent, hcap⟩ := bufferRead_cons hempty
      simp only [hcan, Bool.not_true, Bool.false_eq_true, if_false, hread, ok_bind, hparser,
        hcontent, subnegotiationHazard]
      rcases hfeed : authParserFeed p byte with ⟨p', state⟩
      have h₁ : Tracks mode false c s₀ (v.subnegotiated inBuff p') _ :=
        h.setConn { v.conn with inBuff := inBuff, authParser := some p' } rfl rfl rfl
      have hlen : inBuff.content.length ≤ bound := by
        rw [hcontent, List.length_cons] at hbound
        omega
      have hfed : state ≠ .done ∧ state ≠ .error →
          Holds (fun f => f.isMemory ∧ subnegotiationHazard s₀.users (sends.headD .wouldBlock) p'
              inBuff.content = true)
            (Socks5d.authReadLoop bound key sends (s.setConn c
              { v.conn with inBuff := inBuff, authParser := some p' })) fun out =>
            ∃ w malformed, AuthReads c s₀.users s₀.junk (sends.headD .wouldBlock) v w malformed ∧
              ReadEnds mode c s₀ w malformed out := by
        intro hstate
        refine (ih h₁ hkey hphase rfl htokens hcapacity hlen).mono ?_
        rintro out ⟨w, malformed, hreads, hends⟩
        exact ⟨w, malformed, .fed v w malformed p p' byte state inBuff hparser hcontent hcap
          hfeed hstate hreads, hends⟩
      cases state with
      | version => exact hfed (by simp)
      | usernameLen => exact hfed (by simp)
      | username => exact hfed (by simp)
      | passwordLen => exact hfed (by simp)
      | password => exact hfed (by simp)
      | error => exact ⟨_, true, .malformed v p p' byte inBuff hparser hcontent hcap hfeed, h₁, rfl⟩
      | done =>
        simp only
        obtain ⟨s₂, s₃, w, hs₂, hs₃, hreset, hqueued, hleft, h₂⟩ := h₁.authReply_queued hcapacity
        obtain ⟨hconn, -, hwphase, -, -, hwtokens⟩ := hqueued.fields
        have hwparser : w.conn.authParser = some p' := by rw [hconn]; rfl
        rw [h₁.authCheck_eq, hs₂, ok_bind, hs₃, ok_bind, hreset, ok_bind,
          show key.fd = v.conn.clientFd by rw [hkey]]
        refine (h₂.authReply_sent hdata (hwphase.trans hphase) (by simp [hwparser])
          (hwtokens.trans htokens) hleft).mono ?_
        rintro out ⟨u, hwrote, hends⟩
        exact ⟨u, false, .judged _ v w u p p' byte inBuff hparser hcontent hcap hfeed hqueued hwrote,
          hends⟩

/-- A loop that ends on a malformed message has not left the phase. -/
theorem AuthReads.of_malformed {users : UserTable} {junk : Memory} {out : SendOutcome} {w : View}
    (h : AuthReads c users junk out v w true) (hphase : v.phase = some .auth)
    (htokens : v.tokens = 0) :
    w.phase = some .auth ∧ w.tokens = 0 ∧ w.conn.authParser.isSome = true := by
  generalize hb : true = b at h
  induction h with
  | idle => cases hb
  | fed v w malformed p p' byte state inBuff _ _ _ _ _ _ ih => exact ih hphase htokens hb
  | malformed => exact ⟨hphase, htokens, rfl⟩
  | judged => cases hb

/-- A client read in the authentication phase. -/
theorem Tracks.stmHandlerRead_auth (h : Tracks mode false c s₀ v s) {key : SelectorKey}
    (hkey : key = ⟨v.conn.clientFd, c⟩) (env : Env) {p : AuthParser}
    (hphase : v.phase = some .auth) (hparser : v.conn.authParser = some p)
    (htokens : v.tokens = 0) (hcapacity : AUTH_RESPONSE_SIZE ≤ v.conn.outBuff.capacity) :
    Holds (fun f => f.isMemory ∧
        subnegotiationHazard s₀.users env.send p v.conn.inBuff.content = true)
      (Socks5d.stmHandlerRead key env s) fun out => ∃ r,
        Authenticates c s₀.users s₀.junk env v r ∧ Lands mode false c s₀ r out.2 := by
  have hdata : key.data = c := by rw [hkey]
  have hfirst : handleFirst key s = .ok s := by
    simp [handleFirst, hdata, h.stm_eq, hphase]
  unfold Socks5d.stmHandlerRead
  rw [hdata, h.stmPointer_eq, ok_bind, hfirst, ok_bind, h.stmState_eq hphase, ok_bind]
  simp only [onReadReady, authRead, hdata, h.conn_eq, ok_bind]
  rw [holds_bind]
  refine (h.authReadLoop _ hkey hphase hparser htokens hcapacity (Nat.le_refl _)).mono ?_
  rintro ⟨ret, s₂⟩ ⟨w, malformed, hreads, hends⟩
  obtain ⟨s', hs', hlands⟩ := Tracks.jump_read hends hdata (fun hm => by
    subst hm
    obtain ⟨hp, ht, he⟩ := hreads.of_malformed hphase htokens
    exact ⟨.auth, hp, by simp, by simp, he, ht⟩)
  simp only [hs', ok_bind, holds_pure]
  exact ⟨_, .reads w malformed hreads, hlands⟩

end Socks5d
