import Socks5d.Retry
import Socks5d.Step
import Socks5d.Wire

/-!
# Properties that every callback keeps

The callbacks are made of few primitives: they follow and rewrite records, free one in the close
callback, note what happened, count errors and bytes, and change the selector and the kernel.
What all of these keep is kept by every callback, whatever it calls and wherever it stops. Bytes
leave for an origin at one place only, which few callbacks reach, and what is queued is a reply of
one of the constructors.
-/

namespace Socks5d

open Fallible

/-- `send` accepted bytes. -/
def Obs.isSend : Obs → Bool
  | .send _ _ _ => true
  | _ => false

/-- Neither bytes that `send` accepted nor a reply. -/
def Obs.isPlain : Obs → Bool
  | .send _ _ _ | .queued _ _ _ => false
  | _ => true

/-- The records, the metrics and the trace are the same. -/
structure SameBooks (s s' : Server) : Prop where
  conns : s'.conns = s.conns
  nextConn : s'.nextConn = s.nextConn
  metrics : s'.metrics = s.metrics
  trace : s'.trace = s.trace

/-- A property of the server that every primitive of the callbacks keeps, perhaps except for the
acceptance of bytes for an origin. -/
structure Stable (P : Server → Prop) : Prop where
  books : ∀ {s s'}, P s → SameBooks s s' → P s'
  setConn : ∀ {s c k} (k' : Socks5Conn), P s → s.conns c = some k → P (s.setConn c k')
  free : ∀ {s c k}, P s → s.conns c = some k →
    P ({ s with
      metrics := s.metrics.decCurrConn
      conns := Function.update s.conns c none }.note (.released c))
  note : ∀ {s} (o : Obs), P s → o.isPlain = true → P (s.note o)
  queued : ∀ {s} (c : ConnId) (r : Reply) (addrJunk junk : Memory), r.Proper → P s →
    P (s.note (.queued c r.kind (r.wire addrJunk junk)))
  incErrors : ∀ {s}, P s → P s.incErrors
  /-- `send` accepted bytes for a client, and they were counted. -/
  answered : ∀ {s} (c : ConnId) (bytes : List UInt8), P s →
    P ({ s with metrics := s.metrics.addBytes (UInt64.ofNat bytes.length) }.note
      (.send c .client bytes))

/-- The property also survives the acceptance of bytes for an origin. -/
def Forwards (P : Server → Prop) : Prop :=
  ∀ (s : Server) (c : ConnId) (bytes : List UInt8), P s → P (s.note (.send c .origin bytes))

/-- The trace and the counter of bytes are the same. -/
structure SameLog (s s' : Server) : Prop where
  trace : s'.trace = s.trace
  bytes : s'.metrics.bytesTransferred = s.metrics.bytesTransferred

/-- A property of the trace and the counter of bytes alone. -/
def OfLog (P : Server → Prop) : Prop := ∀ {s s'}, P s → SameLog s s' → P s'

/-- The environment accepts bytes of `in_buff` that are offered to a registered origin. -/
def Uploads (s : Server) (c : ConnId) (out : SendOutcome) : Prop :=
  (∃ k ∈ s.conns c, OriginRegistered s k ∧ k.inBuff.content ≠ []) ∧ out.accepts = true

/-- The event in which bytes are accepted for an origin: the origin is writable and bytes wait for
it, or bytes of the client arrive for a registered origin. -/
def RelaysOut (s : Server) : Event → Prop
  | .writable fd env =>
    (s.selector.fds fd).handler = some .copySelectorHandler ∧
      (∃ c ∈ (s.selector.fds fd).data, ∃ k ∈ s.conns c, k.inBuff.content ≠ []) ∧
      env.send.accepts = true
  | .readable fd env =>
    (s.selector.fds fd).handler = some .socks5Handler ∧
      (∃ c ∈ (s.selector.fds fd).data, s.stms c = some ⟨some .copy⟩ ∧
        ∃ k ∈ s.conns c, 0 < k.inBuff.space ∧ OriginRegistered s k) ∧
      env.recv.isData = true ∧ env.send.accepts = true
  | _ => False

variable {P : Server → Prop} {s : Server} {c : ConnId} {k : Socks5Conn} {key : SelectorKey}
  {α : Type}

/-- Following the pointer to a record. -/
theorem holds_conn {f : Socks5Conn → Except Fault α} {Q : α → Prop}
    (h : ∀ k, s.conns c = some k → Holds (fun _ => True) (f k) Q) :
    Holds (fun _ => True) (s.conn c >>= f) Q := by
  apply Holds.seq
  intro k hk
  apply h
  unfold Server.conn at hk
  split at hk
  · rename_i hconn
    exact hconn.trans (congrArg some (Except.ok.inj hk))
  · cases hk

/-- The phase a state machine is read in. -/
theorem stms_of_stmState {state : Socks5State} (h : s.stmState c = .ok state) :
    s.stms c = some ⟨some state⟩ := by
  unfold Server.stmState Server.stm at h
  cases hm : s.stms c with
  | none => simp [hm] at h
  | some m =>
    obtain ⟨current⟩ := m
    cases current with
    | none => simp [hm] at h
    | some state' =>
      obtain rfl : state' = state := by simpa [hm] using h
      rfl

/-- The first event of a connection starts the greeting, and later ones find it started. -/
theorem handleFirst_cases {s' : Server} (h : handleFirst key s = .ok s') :
    s' = s ∨ s'.stms key.data = some ⟨some .handshake⟩ := by
  unfold handleFirst at h
  cases hm : s.stm key.data with
  | error e => simp [hm] at h
  | ok m =>
    simp only [hm, ok_bind] at h
    split at h
    · exact .inl (Except.ok.inj h).symm
    · right
      simp only [onArrival, handshakeOnArrival] at h
      cases hk : (enterState key.data .handshake s).conn key.data with
      | error e => simp [hk] at h
      | ok k =>
        simp only [hk, ok_bind, pure_eq_ok, Except.ok.injEq] at h
        rw [← h]
        simp [Server.setConn, enterState, Server.note, Server.setCurrent]

/-- The close callback frees a record and rewrites none. -/
theorem conns_of_socksv5Close {s' : Server} {d : ConnId} (h : socksv5Close c s = .ok s')
    (hd : s'.conns d = some k) : s.conns d = some k := by
  have hfree : s'.conns = Function.update s.conns c none := by
    unfold socksv5Close at h
    cases hc : s.conn c with
    | error e => simp [hc] at h
    | ok k' =>
      have hclose : ∀ (p : Prop) [Decidable p] (t : Server) (fd : ℤ),
          (if p then t.close fd else t).conns = t.conns := by
        intro p _ t fd
        split <;> rfl
      simp only [hc, ok_bind, pure_eq_ok] at h
      split at h
      · unfold socks5StmFree at h
        split at h
        · simp only [ok_bind, Except.ok.injEq] at h
          rw [← h]
          simp [Server.note, hclose]
        · cases h
      · simp only [Except.ok.injEq] at h
        rw [← h]
        simp [Server.note, hclose]
  by_cases hdc : d = c
  · simp [hfree, hdc] at hd
  · simpa [hfree, Function.update_of_ne hdc] using hd

/-- `selector_unregister_fd` rewrites no record. -/
theorem conns_of_selectorUnregisterFd {s' : Server} {fd : ℤ} {d : ConnId}
    (h : selectorUnregisterFd s fd = .ok s') (hd : s'.conns d = some k) :
    s.conns d = some k := by
  unfold selectorUnregisterFd at h
  split at h
  · obtain rfl := Except.ok.inj h
    exact hd
  · cases hclose : handleClose (s.selector.fds fd.toNat) s with
    | error e => simp [hclose] at h
    | ok s₁ =>
      simp only [hclose, ok_bind, pure_eq_ok, Except.ok.injEq] at h
      subst h
      unfold handleClose at hclose
      split at hclose
      · exact conns_of_socksv5Close hclose hd
      · cases hclose
      · obtain rfl := Except.ok.inj hclose
        exact hd
      · obtain rfl := Except.ok.inj hclose
        exact hd
      · cases hclose

/-- Either of two states that have a property. -/
theorem of_ite {P : Server → Prop} {p : Prop} [Decidable p] {s₁ s₂ : Server} (h₁ : P s₁)
    (h₂ : P s₂) : P (if p then s₁ else s₂) := by
  split
  · exact h₁
  · exact h₂

namespace Stable

/-- Changing an interest concerns the table only. -/
theorem setInterest (hP : Stable P) (h : P s) (fd : ℤ) (interest : FdInterest) :
    P (s.setInterest fd interest) := hP.books h ⟨rfl, rfl, rfl, rfl⟩

/-- Setting `errno` concerns nothing else. -/
theorem setErrno (hP : Stable P) (h : P s) (e : Errno) : P (s.setErrno e) :=
  hP.books h ⟨rfl, rfl, rfl, rfl⟩

/-- Closing a descriptor concerns the kernel only. -/
theorem close (hP : Stable P) (h : P s) (fd : ℤ) : P (s.close fd) :=
  hP.books h ⟨rfl, rfl, rfl, rfl⟩

/-- Changing the table concerns nothing else. -/
theorem setSelector (hP : Stable P) (h : P s) (selector : FdSelector) :
    P { s with selector := selector } := hP.books h ⟨rfl, rfl, rfl, rfl⟩

section Teardown

/-- The close callback frees the record and closes descriptors. -/
theorem socksv5Close (hP : Stable P) (h : P s) :
    Holds (fun _ => True) (socksv5Close c s) P := by
  unfold Socks5d.socksv5Close
  apply holds_conn
  intro k hk
  have hclient : P (if k.clientFd > 0 then s.close k.clientFd else s) ∧
      (if k.clientFd > 0 then s.close k.clientFd else s).conns c = some k :=
    of_ite (P := fun s => P s ∧ s.conns c = some k) ⟨hP.close h _, hk⟩ ⟨h, hk⟩
  generalize (if k.clientFd > 0 then s.close k.clientFd else s) = s₁ at hclient
  have horigin : P (if k.originFd > 0 then s₁.close k.originFd else s₁) ∧
      (if k.originFd > 0 then s₁.close k.originFd else s₁).conns c = some k :=
    of_ite (P := fun s => P s ∧ s.conns c = some k) ⟨hP.close hclient.1 _, hclient.2⟩ hclient
  dsimp only
  generalize (if k.originFd > 0 then s₁.close k.originFd else s₁) = s₂ at horigin
  obtain ⟨h₂, hk₂⟩ := horigin
  split
  · unfold socks5StmFree
    split
    · exact hP.free (s := { s₂ with stms := Function.update s₂.stms c none })
        (hP.books h₂ ⟨rfl, rfl, rfl, rfl⟩) hk₂
    · trivial
  · exact hP.free h₂ hk₂

/-- The close callback of an entry is one of a client, of an administrator, or none. -/
theorem handleClose (hP : Stable P) (h : P s) (item : Item) :
    Holds (fun _ => True) (handleClose item s) P := by
  unfold Socks5d.handleClose
  split
  · exact hP.socksv5Close h
  · trivial
  · exact hP.close h _
  · exact h
  · trivial

/-- Unregistering a descriptor calls its close callback and removes the entry. -/
theorem selectorUnregisterFd (hP : Stable P) (h : P s) (fd : ℤ) :
    Holds (fun _ => True) (selectorUnregisterFd s fd) P := by
  unfold Socks5d.selectorUnregisterFd
  split
  · exact h
  · exact (hP.handleClose h _).bind fun _ h' => hP.setSelector h' _

/-- Both descriptors of a connection may be unregistered. -/
theorem unregisterBoth (hP : Stable P) (h : P s) (guardOrigin guardClient : Bool) :
    Holds (fun _ => True) (unregisterBoth guardOrigin guardClient c s) P := by
  unfold Socks5d.unregisterBoth
  apply holds_conn
  intro k hk
  have hclient : ∀ s, P s → Holds (fun _ => True) (do
      let conn ← s.conn c
      if guardClient = false ∨ conn.clientFd > 0 then Socks5d.selectorUnregisterFd s conn.clientFd
      else pure s) P := by
    intro s h
    apply holds_conn
    intro k hk
    split
    · exact hP.selectorUnregisterFd h _
    · exact h
  dsimp only
  split
  · exact (hP.selectorUnregisterFd h _).bind hclient
  · exact hclient s h

end Teardown

section Phases

variable {state next : Socks5State}

/-- Entering a phase is noted. -/
theorem enterState (hP : Stable P) (h : P s) (c : ConnId) (state : Socks5State) :
    P (enterState c state s) :=
  hP.note (s := s.setCurrent c state) _ (hP.books h ⟨rfl, rfl, rfl, rfl⟩) rfl

/-- What is done on entering a phase. -/
theorem onArrival (hP : Stable P) (h : P s) :
    Holds (fun _ => True) (onArrival state key s) P := by
  cases state with
  | handshake => exact holds_conn fun k hk => hP.setConn _ h hk
  | auth => exact holds_conn fun k hk => hP.setConn _ h hk
  | connectionReq => exact holds_conn fun k hk => hP.setConn _ h hk
  | connecting => exact h
  | copy => exact holds_conn fun k hk => hP.setSelector h _
  | done => exact hP.unregisterBoth h true true
  | error => exact hP.unregisterBoth h true true

/-- What is done on leaving a phase. -/
theorem onDeparture (hP : Stable P) (h : P s) :
    Holds (fun _ => True) (onDeparture state key s) P := by
  cases state with
  | handshake =>
    refine holds_conn fun k hk => ?_
    split
    · trivial
    · exact hP.setConn _ h hk
  | auth =>
    refine holds_conn fun k hk => ?_
    split
    · trivial
    · exact hP.setConn _ h hk
  | connectionReq =>
    refine holds_conn fun k hk => ?_
    split
    · trivial
    · exact hP.setConn _ h hk
  | copy => exact holds_conn fun k hk => hP.selectorUnregisterFd h _
  | connecting => exact h
  | done => exact h
  | error => exact h

/-- The first event of a connection enters the greeting. -/
theorem handleFirst (hP : Stable P) (h : P s) : Holds (fun _ => True) (handleFirst key s) P := by
  unfold Socks5d.handleFirst
  apply Holds.seq
  intro stm _
  split
  · exact h
  · exact hP.onArrival (hP.enterState h key.data .handshake)

/-- A change of phase is a departure and an arrival. -/
theorem jump (hP : Stable P) (h : P s) : Holds (fun _ => True) (jump next key s) P := by
  have harrive : ∀ s, P s → Holds (fun _ => True) (do
      let _ ← s.stm key.data
      Socks5d.onArrival next key (Socks5d.enterState key.data next s)) P := by
    intro s h
    apply Holds.seq
    intro _ _
    exact hP.onArrival (hP.enterState h key.data next)
  unfold Socks5d.jump
  apply Holds.seq
  intro stm _
  split
  · exact h
  dsimp only
  split
  · exact (hP.onDeparture h).bind harrive
  · exact harrive s h

/-- How a phase handler ends: the state machine goes to the phase that was chosen. -/
theorem jumps (hP : Stable P) {m : Except Fault (Socks5State × Server)}
    (hm : Holds (fun _ => True) m fun r => P r.2) :
    Holds (fun _ => True) (do
      let (ret, s) ← m
      let s ← Socks5d.jump ret key s
      return (ret, s)) fun r => P r.2 :=
  hm.bind fun _ h => (hP.jump h).bind fun _ h' => h'

/-- The write handler of a phase. -/
theorem stmHandlerWrite (hP : Stable P) (h : P s) :
    Holds (fun _ => True) (stmHandlerWrite key s) fun r => P r.2 := by
  unfold Socks5d.stmHandlerWrite
  apply Holds.seq
  intro _ _
  refine (hP.handleFirst h).bind fun s h => ?_
  apply Holds.seq
  intro state _
  apply Holds.seq
  intro ret _
  exact (hP.jump h).bind fun _ h' => h'

/-- What is left to send decides what the client waits for. -/
theorem rearmAfterSend (hP : Stable P) (h : P s) (outBuff : Buffer) (fullBuffer : Bool) :
    P (rearmAfterSend k outBuff fullBuffer s) := by
  have hwrite : P (if bufferCanRead outBuff then s.setInterest k.clientFd OP_WRITE
      else s.setInterest k.clientFd OP_READ) :=
    of_ite (P := P) (hP.setInterest h _ _) (hP.setInterest h _ _)
  have hread : ∀ s₁, P s₁ → P (if bufferCanRead k.inBuff then s₁.setInterest k.originFd OP_WRITE
      else s₁) := fun _ h₁ => of_ite (P := P) (hP.setInterest h₁ _ _) h₁
  exact of_ite (P := P) (hP.setInterest (hread _ hwrite) _ _) (hread _ hwrite)

/-- Writing to the client counts and notes what was sent. -/
theorem socksv5Write (hP : Stable P) (h : P s) (out : SendOutcome) :
    Holds (fun _ => True) (socksv5Write key out s) P := by
  unfold Socks5d.socksv5Write
  apply holds_conn
  intro k hk
  split
  · exact hP.setInterest h _ _
  dsimp only
  split
  · apply Holds.seq
    intro outBuff _
    have hsent := fun bytes => hP.setConn { k with outBuff := bufferCompact outBuff }
      (hP.answered key.data bytes h) hk
    have hrearmed := fun bytes => hP.rearmAfterSend (hsent bytes) (k := k) outBuff
      (decide (k.originFd > 0) && !bufferCanWrite k.outBuff)
    apply Holds.seq
    intro state _
    split
    · exact (hP.stmHandlerWrite (hrearmed _)).bind fun _ h' => h'
    · exact hrearmed _
  · exact h
  · rename_i e
    split
    · exact hP.setErrno h e
    · exact hP.unregisterBoth (hP.incErrors (hP.setErrno h e)) true false

end Phases

section Reading

/-- Queueing a well-formed reply. -/
theorem queueReply (hP : Stable P) (h : P s) {r : Reply} (hr : r.Proper)
    (addrJunk junk : Memory) :
    Holds (fun _ => True) (s.queueReply c r.kind (r.wire addrJunk junk)) P := by
  unfold Server.queueReply
  apply holds_conn
  intro k hk
  apply Holds.seq
  intro outBuff _
  split
  · exact hP.queued c r addrJunk junk hr (hP.setConn _ h hk)
  · exact hP.setConn _ h hk

/-- Throwing away what was not read. -/
theorem resetInBuff (hP : Stable P) (h : P s) : Holds (fun _ => True) (s.resetInBuff c) P := by
  unfold Server.resetInBuff
  apply holds_conn
  intro k hk
  split
  · exact hP.setConn _ h hk
  · exact hP.note _ (hP.setConn _ h hk) rfl

/-- Registering an access. -/
theorem accessRegisterAddEntry (hP : Stable P) (h : P s) (status : UInt8) (now : ℕ) :
    Holds (fun _ => True) (s.accessRegisterAddEntry c status now) P :=
  holds_conn fun _ _ => hP.note _ h rfl

/-- The end of a resolution. -/
theorem resolveHostName (hP : Stable P) (h : P s) (res : List AddrInfo) :
    Holds (fun _ => True) (resolveHostName c res s) P := by
  unfold Socks5d.resolveHostName
  apply holds_conn
  intro k hk
  have hfound : P (if res = [] then s.note (.lookup c k.dstAddress k.dstPort)
      else (s.note (.lookup c k.dstAddress k.dstPort)).setConn c { k with addrInfo := res }) :=
    of_ite (P := P) (hP.note _ h rfl) (hP.setConn _ (hP.note _ h rfl) hk)
  exact hP.setSelector hfound _

/-- The loop that reads a greeting. -/
theorem handshakeReadLoop (hP : Stable P) (h : P s) (bound : ℕ) (sends : List SendOutcome) :
    Holds (fun _ => True) (handshakeReadLoop bound key sends s) fun r => P r.2 := by
  induction bound generalizing s sends with
  | zero =>
    unfold Socks5d.handshakeReadLoop
    apply holds_conn
    intro k hk
    split
    · exact Holds.seq fun _ _ => h
    · exact Holds.seq fun _ _ => h
  | succ bound ih =>
    unfold Socks5d.handshakeReadLoop
    apply holds_conn
    intro k hk
    split
    · exact Holds.seq fun _ _ => h
    dsimp only
    apply Holds.seq
    rintro ⟨byte, inBuff⟩ _
    dsimp only
    split
    · trivial
    rename_i p hp
    have hfed := hP.setConn
      { k with inBuff := inBuff, handshakeParser := some (handshakeParserFeed p byte).1 } h hk
    split
    · have hqueued := hP.queueReply (c := key.data) hfed (r := .handshake
        (handshakeParserFeed p byte).1.noAuth (handshakeParserFeed p byte).1.userPassAuth) trivial
        s.junk s.junk
      refine Holds.bind hqueued fun s h => ?_
      apply holds_conn
      intro k hk
      have hset := fun k' => hP.setConn (s := s.setInterest key.fd OP_WRITE) k'
        (hP.setInterest h key.fd OP_WRITE) hk
      exact (hP.socksv5Write (hset _) _).bind fun _ h' => ih h' _
    · exact hfed
    · exact ih hfed _

/-- The loop that reads credentials. -/
theorem authReadLoop (hP : Stable P) (h : P s) (bound : ℕ) (sends : List SendOutcome) :
    Holds (fun _ => True) (authReadLoop bound key sends s) fun r => P r.2 := by
  induction bound generalizing s sends with
  | zero =>
    unfold Socks5d.authReadLoop
    apply holds_conn
    intro k hk
    split
    · exact Holds.seq fun _ _ => h
    · exact Holds.seq fun _ _ => h
  | succ bound ih =>
    unfold Socks5d.authReadLoop
    apply holds_conn
    intro k hk
    split
    · exact Holds.seq fun _ _ => h
    dsimp only
    apply Holds.seq
    rintro ⟨byte, inBuff⟩ _
    dsimp only
    split
    · trivial
    rename_i p hp
    have hfed := hP.setConn
      { k with inBuff := inBuff, authParser := some (authParserFeed p byte).1 } h hk
    split
    · have hqueued := fun ok => hP.queueReply (c := key.data)
        (hP.note (.credentials key.data ok) hfed rfl) (r := .auth ok) trivial s.junk s.junk
      refine Holds.bind (hqueued _) fun s h => ?_
      refine (hP.resetInBuff h).bind fun s h => ?_
      apply holds_conn
      intro k hk
      exact (hP.socksv5Write (hP.setInterest (hP.setConn _ h hk) key.fd OP_WRITE) _).bind
        fun _ h' => ih h' _
    · exact hfed
    · exact ih hfed _

/-- What a complete request leads to. -/
theorem connectionReqDone (hP : Stable P) (h : P s) (env : Env) (p : ConnReqParser) :
    Holds (fun _ => True) (connectionReqDone key env p s) fun r => P r.2 := by
  unfold Socks5d.connectionReqDone
  split
  · have hqueued := hP.queueReply (c := key.data) h
      (r := .connReqError SOCKS5_REP_COMMAND_NOT_SUPPORTED)
      (show SOCKS5_REP_COMMAND_NOT_SUPPORTED ≠ SOCKS5_REP_SUCCEEDED by decide) s.junk s.junk
    refine Holds.bind hqueued fun s h => ?_
    exact holds_conn fun k hk => hP.setInterest (hP.setConn _ h hk) _ _
  · apply holds_conn
    intro k hk
    have hasked := fun k' => hP.setConn (s := (s.note (.request key.data)).setInterest key.fd OP_NOOP)
      (c := key.data) (k := k) k' (hP.setInterest (hP.note _ h rfl) _ _) hk
    dsimp only
    split
    · split
      · exact hP.books (hasked _) ⟨rfl, rfl, rfl, rfl⟩
      · exact hasked _
    · exact (hP.resolveHostName (hasked _) _).bind fun _ h' => h'

/-- The loop that reads a request. -/
theorem connectionReqReadLoop (hP : Stable P) (h : P s) (bound : ℕ) (env : Env) :
    Holds (fun _ => True) (connectionReqReadLoop bound key env s) fun r => P r.2 := by
  induction bound generalizing s with
  | zero =>
    unfold Socks5d.connectionReqReadLoop
    apply holds_conn
    intro k hk
    split
    · exact h
    · exact h
  | succ bound ih =>
    unfold Socks5d.connectionReqReadLoop
    apply holds_conn
    intro k hk
    split
    · exact h
    dsimp only
    apply Holds.seq
    rintro ⟨byte, inBuff⟩ _
    dsimp only
    split
    · trivial
    rename_i p hp
    have hfed := hP.setConn
      { k with inBuff := inBuff, connReqParser := some (connReqParserFeed p byte).1 } h hk
    split
    · exact hP.connectionReqDone hfed env _
    · exact hfed
    · exact ih hfed

/-- Writing to the origin, which may send bytes to it. -/
theorem copyWriteHandler (hP : Stable P) (h : P s) (out : SendOutcome)
    (hrelays : ∀ k, s.conns key.data = some k → k.inBuff.content ≠ [] → out.accepts = true →
      Forwards P) :
    Holds (fun _ => True) (copyWriteHandler key out s) P := by
  unfold Socks5d.copyWriteHandler
  apply holds_conn
  intro k hk
  split
  · exact hP.setInterest h _ _
  rename_i hcan
  have hleft : k.inBuff.content ≠ [] := (Buffer.bufferCanRead_iff _).mp (by simpa using hcan)
  dsimp only
  split
  · apply Holds.seq
    intro inBuff _
    have hsent := fun bytes => hP.setConn { k with inBuff := bufferCompact inBuff }
      (hrelays k hk hleft rfl s key.data bytes h) hk
    have hread := fun bytes => of_ite (P := P) (p := bufferCanRead inBuff = true) (hsent bytes)
      (hP.setInterest (hsent bytes) k.originFd OP_READ)
    exact of_ite (P := P) (hP.setInterest (hread _) _ _) (hread _)
  · exact hP.unregisterBoth h false false
  · rename_i e
    split
    · exact hP.setErrno h e
    · exact hP.unregisterBoth (hP.setErrno h e) false false

/-- Reading from the origin. -/
theorem copyReadHandler (hP : Stable P) (h : P s) (env : Env) :
    Holds (fun _ => True) (copyReadHandler key env s) P := by
  unfold Socks5d.copyReadHandler
  apply holds_conn
  intro k hk
  split
  · exact hP.setInterest (hP.setInterest h _ _) _ _
  split
  · apply Holds.seq
    intro outBuff _
    have hreceived := fun bytes => hP.note (.recv key.data .origin bytes)
      (hP.setConn { k with outBuff := outBuff } h hk) rfl
    exact hP.socksv5Write (hP.setInterest (hreceived _) k.clientFd OP_WRITE) env.send
  · exact hP.selectorUnregisterFd (hP.note _ h rfl) k.originFd
  · rename_i e _
    split
    · exact hP.setErrno h e
    · exact hP.unregisterBoth (hP.setErrno h e) false false

/-- The read handler of a phase. -/
theorem onReadReady (hP : Stable P) (h : P s) {state : Socks5State} (env : Env)
    (hrelays : state = .copy → Uploads s key.data env.send → Forwards P) :
    Holds (fun _ => True) (onReadReady state key env s) fun r => P r.2 := by
  cases state with
  | handshake => exact holds_conn fun k _ => hP.handshakeReadLoop h _ env.sends
  | auth => exact holds_conn fun k _ => hP.authReadLoop h _ env.sends
  | connectionReq => exact holds_conn fun k _ => hP.connectionReqReadLoop h _ env
  | connecting => exact h
  | copy =>
    apply holds_conn
    intro k hk
    dsimp only
    split
    · exact hP.setSelector h _
    · rename_i hstatus
      have horigin : OriginRegistered s k :=
        (selectorSetInterest_status s.selector k.originFd OP_WRITE).1.mp (not_not.mp hstatus)
      refine (hP.copyWriteHandler (hP.setSelector h _) env.send ?_).bind fun s h => h
      intro k' hk' hleft hsend
      obtain rfl := Option.some.inj (hk.symm.trans hk')
      exact hrelays rfl ⟨⟨k, hk, horigin, hleft⟩, hsend⟩
  | done => trivial
  | error => trivial

/-- The read handler of the phase a connection is in. -/
theorem stmHandlerRead (hP : Stable P) (h : P s) (env : Env)
    (hrelays : s.stms key.data = some ⟨some .copy⟩ → Uploads s key.data env.send → Forwards P) :
    Holds (fun _ => True) (stmHandlerRead key env s) fun r => P r.2 := by
  unfold Socks5d.stmHandlerRead
  apply Holds.seq
  intro _ _
  apply Holds.seq
  intro s₁ hs₁
  have h₁ := (hP.handleFirst h).result hs₁
  apply Holds.seq
  intro state hstate
  refine hP.jumps (hP.onReadReady h₁ env fun hcopy hup => ?_)
  have hstm := stms_of_stmState (hcopy ▸ hstate)
  rcases handleFirst_cases hs₁ with rfl | hfirst
  · exact hrelays hstm hup
  · rw [hstm] at hfirst
    cases hfirst

/-- Reading from the client. -/
theorem socksv5Read (hP : Stable P) (h : P s) (env : Env)
    (hrelays : ∀ k, s.conns key.data = some k → s.stms key.data = some ⟨some .copy⟩ →
      0 < k.inBuff.space → OriginRegistered s k → env.recv.isData = true →
      env.send.accepts = true → Forwards P) :
    Holds (fun _ => True) (socksv5Read key env s) P := by
  unfold Socks5d.socksv5Read
  apply holds_conn
  intro k hk
  split
  · have hfull := hP.setInterest h key.fd OP_NOOP
    exact of_ite (P := P) (hP.setInterest hfull _ _) hfull
  rename_i hcan
  have hroom : 0 < k.inBuff.space := (Buffer.bufferCanWrite_iff _).mp (by simpa using hcan)
  split
  · rename_i first rest hrecv
    apply Holds.seq
    intro inBuff _
    have hreceived := fun bytes => hP.note (.recv key.data .client bytes)
      (hP.setConn { k with inBuff := inBuff } h hk) rfl
    refine (hP.stmHandlerRead (hreceived _) env fun hphase hup => ?_).bind fun r hr => ?_
    · obtain ⟨⟨k', hk', horigin, -⟩, hsend⟩ := hup
      have hsame : k'.originFd = k.originFd := by
        simp only [Server.note, Server.setConn, Function.update_self, Option.mem_some_iff] at hk'
        rw [← hk']
      have hdata : env.recv.isData = true := by rw [hrecv]; rfl
      refine hrelays k hk hphase hroom ?_ hdata hsend
      rw [OriginRegistered, hsame] at horigin
      exact horigin
    · exact of_ite (P := P) (hP.incErrors hr) hr
  · exact hP.unregisterBoth (hP.note _ h rfl) true false
  · rename_i e _
    split
    · exact hP.setErrno h e
    · exact hP.unregisterBoth (hP.incErrors (hP.setErrno h e)) true false

end Reading

section Connecting

/-- Opening a socket is noted. -/
theorem openSocket (hP : Stable P) (h : P s) (peer : AddrInfo) : P (openSocket c peer s).2 :=
  hP.note _ (hP.books h ⟨rfl, rfl, rfl, rfl⟩) rfl

/-- The walk over the resolved addresses. -/
theorem connectToHostLoop (hP : Stable P) (h : P s) (hk : s.conns c = some k)
    (res addrs : List AddrInfo) (outcomes : List ConnectOutcome) (sockFd : ℤ) :
    P (connectToHostLoop c res addrs outcomes sockFd s).server ∧
      (Socks5d.connectToHostLoop c res addrs outcomes sockFd s).server.conns c = some k := by
  induction addrs generalizing s outcomes sockFd with
  | nil => exact ⟨h, hk⟩
  | cons rp next ih =>
    have htried := hP.note (.attempt c rp) h rfl
    have hopened := hP.openSocket (c := c) htried rp
    rw [Socks5d.connectToHostLoop]
    dsimp only
    split
    · exact ⟨hP.setErrno htried _, hk⟩
    · exact ⟨hP.note _ hopened rfl, hk⟩
    · split
      · exact ⟨hP.setErrno hopened _, hk⟩
      · exact ih (hP.close (hP.setErrno hopened _) _) hk _ _

/-- Connecting to one of the resolved addresses. -/
theorem connectToHost (hP : Stable P) (h : P s) (outcomes : List ConnectOutcome) :
    Holds (fun _ => True) (connectToHost c outcomes s) fun r => P r.2 := by
  unfold Socks5d.connectToHost
  apply holds_conn
  intro k hk
  obtain ⟨h', hk'⟩ := hP.connectToHostLoop h hk k.addrInfo k.addrInfo outcomes k.originFd
  exact hP.setConn _ h' hk'

/-- Queueing the success reply. -/
theorem queueConnReqResponse (hP : Stable P) (h : P s) (env : Env) :
    Holds (fun _ => True) (queueConnReqResponse c env s) P :=
  hP.queueReply h (r := .connReq SOCKS5_REP_SUCCEEDED env.localAddr) rfl env.addrJunk s.junk

/-- Queueing a refusal. -/
theorem queueConnReqErrorResponse (hP : Stable P) (h : P s) {status : UInt8}
    (hstatus : status ≠ SOCKS5_REP_SUCCEEDED) :
    Holds (fun _ => True) (queueConnReqErrorResponse c status s) P := by
  unfold Socks5d.queueConnReqErrorResponse
  have hqueued := hP.queueReply (c := c) h (r := .connReqError status) hstatus s.junk s.junk
  refine Holds.bind hqueued fun s h => ?_
  exact holds_conn fun k hk => hP.setConn _ h hk

/-- What a resolution leads to. -/
theorem connectingOnBlockReady (hP : Stable P) (h : P s) (env : Env) :
    Holds (fun _ => True) (connectingOnBlockReady key env s) fun r => P r.2 := by
  unfold Socks5d.connectingOnBlockReady
  apply holds_conn
  intro k hk
  split
  · refine (hP.accessRegisterAddEntry h _ _).bind fun s h => ?_
    refine (hP.queueConnReqErrorResponse h (by decide)).bind fun s h => ?_
    exact holds_conn fun k hk => hP.setInterest h _ _
  refine (hP.connectToHost h env.connects).bind ?_
  rintro ⟨result, s⟩ h
  dsimp only
  split
  · apply holds_conn
    intro k hk
    have hregistered := hP.setSelector (hP.setInterest h k.clientFd OP_NOOP)
    split
    · exact (hP.accessRegisterAddEntry (hregistered _) _ _).bind fun _ h' => h'
    · exact hregistered _
  split
  · refine (hP.accessRegisterAddEntry h _ _).bind fun s h => ?_
    refine (hP.queueConnReqResponse h env).bind fun s h => ?_
    refine (hP.resetInBuff (hP.setInterest h key.fd OP_WRITE)).bind fun s h => ?_
    exact (hP.socksv5Write h env.send).bind fun _ h' => h'
  · exact h

/-- The notification of a client. -/
theorem socksv5Block (hP : Stable P) (h : P s) (env : Env) :
    Holds (fun _ => True) (socksv5Block key env s) P := by
  have hready : ∀ state s, P s →
      Holds (fun _ => True) (onBlockReady state key env s) fun r => P r.2 := by
    intro state s h
    cases state with
    | connecting => exact hP.connectingOnBlockReady h env
    | _ => trivial
  have hhandled : Holds (fun _ => True) (stmHandlerBlock key env (s.note (.notified key.data)))
      fun r => P r.2 := by
    unfold Socks5d.stmHandlerBlock
    apply Holds.seq
    intro _ _
    refine (hP.handleFirst (hP.note _ h rfl)).bind fun s h => ?_
    apply Holds.seq
    intro state _
    exact hP.jumps (hready state s h)
  refine hhandled.bind ?_
  rintro ⟨state, s⟩ h
  dsimp only
  split
  · exact holds_conn fun k hk => hP.selectorUnregisterFd (hP.incErrors h) k.clientFd
  · exact h

/-- Giving up a connect. -/
theorem refuseConnecting (hP : Stable P) (h : P s) (env : Env) {code : UInt8}
    (hcode : code ≠ SOCKS5_REP_SUCCEEDED) :
    Holds (fun _ => True) (refuseConnecting key env code s) P := by
  unfold Socks5d.refuseConnecting
  refine (hP.accessRegisterAddEntry h _ _).bind fun s h => ?_
  refine (hP.queueConnReqErrorResponse h hcode).bind fun s h => ?_
  apply holds_conn
  intro k hk
  refine (hP.selectorUnregisterFd h _).bind fun s h => ?_
  apply holds_conn
  intro k hk
  exact hP.setInterest (hP.setConn (s := s.close k.originFd) _ (hP.close h k.originFd) hk) _ _

/-- Taking up a connect that stands. -/
theorem acceptConnecting (hP : Stable P) (h : P s) (env : Env) :
    Holds (fun _ => True) (acceptConnecting key env s) P := by
  unfold Socks5d.acceptConnecting
  apply holds_conn
  intro k hk
  apply Holds.seq
  intro s₁ hs₁
  have h₁ := (hP.selectorUnregisterFd (hP.setConn _ h hk) _).result hs₁
  refine (hP.stmHandlerRead h₁ env fun _ hup => ?_).bind fun r h => ?_
  · -- the origin has just been unregistered, so nothing is offered to it
    obtain ⟨⟨k₁, hk₁, ⟨n, hn, hlt, hused⟩, -⟩, -⟩ := hup
    have hkept := conns_of_selectorUnregisterFd hs₁ hk₁
    have hsame : k.originFd = n := by
      simp only [Server.setConn, Function.update_self, Option.some.injEq] at hkept
      rw [← hn, ← hkept]
    rw [selectorUnregisterFd_frees hs₁ hsame hlt] at hused
    cases hused
  refine (hP.accessRegisterAddEntry h _ _).bind fun s h => ?_
  refine (hP.queueConnReqResponse h env).bind fun s h => ?_
  apply holds_conn
  intro k hk
  refine (hP.resetInBuff (hP.setInterest h k.clientFd OP_WRITE)).bind fun s h => ?_
  exact hP.socksv5Write h env.send

/-- The end of a pending connect. -/
theorem handleWriteConnecting (hP : Stable P) (h : P s) (env : Env) :
    Holds (fun _ => True) (handleWriteConnecting key env s) P := by
  unfold Socks5d.handleWriteConnecting
  apply holds_conn
  intro k hk
  have hchecked : P (getSoError key.data k.originFd env s).2 := by
    unfold getSoError
    split
    · exact of_ite (P := P) (hP.note _ h rfl) h
    · exact hP.close (hP.setErrno h _) _
  generalize getSoError key.data k.originFd env s = r at hchecked
  obtain ⟨err, s⟩ := r
  dsimp only
  split
  · have hclosed := hP.close hchecked k.originFd
    split
    · refine (hP.connectToHost hclosed env.connects).bind ?_
      rintro ⟨result, s⟩ h
      dsimp only
      split
      · exact h
      split
      · exact hP.refuseConnecting h env (getCode_ne_succeeded _)
      · exact hP.refuseConnecting h env (getCode_ne_succeeded _)
    · exact hP.refuseConnecting hclosed env (getCode_ne_succeeded _)
  · exact hP.acceptConnecting hchecked env

end Connecting

section Events

/-- Accepting a connection and registering its descriptor. -/
theorem passiveAccept (hP : Stable P) (h : P s) (handler : FdHandler) (owner : FdOwner)
    (data : Option ConnId) (env : Env) : P (passiveAccept handler owner data env s).2 := by
  unfold Socks5d.passiveAccept
  split
  · exact h
  dsimp only
  split
  · exact hP.books h ⟨rfl, rfl, rfl, rfl⟩
  · exact hP.books h ⟨rfl, rfl, rfl, rfl⟩

/-- Accepting an administrator. -/
theorem s5adminPassiveAccept (hP : Stable P) (h : P s) (env : Env) :
    P (s5adminPassiveAccept env s) := by
  unfold Socks5d.s5adminPassiveAccept
  split
  · exact h
  · exact hP.passiveAccept h _ _ _ env

/-- Delivering a notification. -/
theorem handleBlockNotification (hP : Stable P) (h : P s) (env : Env) :
    Holds (fun _ => True) (handleBlockNotification env s) P := by
  unfold Socks5d.handleBlockNotification
  split
  · exact h
  dsimp only
  split
  · unfold handleBlock
    split
    · exact hP.socksv5Block (hP.setSelector h _) env
    · trivial
  · exact hP.setSelector h _

/-- The write callback of an entry. -/
theorem handleWrite (hP : Stable P) (h : P s) (item : Item) (env : Env)
    (hrelays : ∀ c k, item.handler = some .copySelectorHandler → item.data = some c →
      s.conns c = some k → k.inBuff.content ≠ [] → env.send.accepts = true → Forwards P) :
    Holds (fun _ => True) (handleWrite item env s) P := by
  unfold Socks5d.handleWrite
  split
  · trivial
  · trivial
  · exact hP.socksv5Write h env.send
  · rename_i c hhandler hdata
    exact hP.copyWriteHandler h env.send fun k hk => hrelays c k hhandler hdata hk
  · exact hP.handleWriteConnecting h env
  · exact h
  · trivial

/-- The read callback of an entry that is no SOCKS listener. -/
theorem handleRead (hP : Stable P) (h : P s) {item : Item}
    (hitem : item.handler ≠ some .socksv5) (env : Env)
    (hrelays : ∀ c k, item.handler = some .socks5Handler → item.data = some c →
      s.conns c = some k → s.stms c = some ⟨some .copy⟩ → 0 < k.inBuff.space →
      OriginRegistered s k → env.recv.isData = true → env.send.accepts = true → Forwards P) :
    Holds (fun _ => True) (handleRead item env s) P := by
  unfold Socks5d.handleRead
  split
  · rename_i hhandler
    exact absurd hhandler hitem
  · exact hP.s5adminPassiveAccept h env
  · rename_i c hhandler hdata
    exact hP.socksv5Read h env fun k => hrelays c k hhandler hdata
  · exact hP.copyReadHandler h env
  · trivial
  · exact h
  · trivial

/-- Registering the listeners concerns no connection. -/
theorem startServer (hP : Stable P) {args : Args} (hinit : P args.initial)
    (hs : startServer args = some s) : P s := by
  have hall : ∀ (handlers : List FdHandler) (s₁ : Server), P s₁ →
      handlers.foldlM (fun s handler => createAndRegisterPassiveSocket handler s) s₁ = some s →
      P s := by
    intro handlers
    induction handlers with
    | nil =>
      intro s₁ h hs
      exact Option.some.inj hs ▸ h
    | cons handler handlers ih =>
      intro s₁ h hs
      rw [List.foldlM_cons, Option.bind_eq_bind, Option.bind_eq_some_iff] at hs
      obtain ⟨s₂, hs₂, hs⟩ := hs
      apply ih s₂ _ hs
      unfold createAndRegisterPassiveSocket at hs₂
      dsimp only at hs₂
      split at hs₂
      · cases hs₂
      · obtain rfl := Option.some.inj hs₂
        exact hP.books h ⟨rfl, rfl, rfl, rfl⟩
  exact hall _ _ hinit hs

end Events

end Stable

/-- An event that makes a SOCKS listener accept. -/
def Event.accepts (s : Server) : Event → Prop
  | .readable fd _ => (s.selector.fds fd).handler = some .socksv5
  | _ => False

/-- Every other event keeps what the primitives keep, if bytes accepted for an origin in it do not
matter. -/
theorem Stable.step (hP : Stable P) (h : P s) {e : Event} (he : ¬ e.accepts s)
    (hrelays : RelaysOut s e → Forwards P) : Holds (fun _ => True) (step s e) P := by
  have hentered : ∀ env, P (s.enter env) := fun env => hP.books h ⟨rfl, rfl, rfl, rfl⟩
  cases e with
  | readable fd env =>
    refine hP.handleRead (hentered env) he env ?_
    intro c k hhandler hdata hk hphase hroom horigin hrecv hsend
    exact hrelays ⟨hhandler, ⟨c, hdata, hphase, k, hk, hroom, horigin⟩, hrecv, hsend⟩
  | writable fd env =>
    refine hP.handleWrite (hentered env) _ env ?_
    intro c k hhandler hdata hk hin hsend
    exact hrelays ⟨hhandler, ⟨c, hdata, k, hk, hin⟩, hsend⟩
  | notify env => exact hP.handleBlockNotification (hentered env) env
  | resolved c env =>
    exact hP.resolveHostName (s := { s with resolving := s.resolving.erase c })
      (hP.books h ⟨rfl, rfl, rfl, rfl⟩) _
  | adminInterest fd interest => exact hP.setInterest h _ _
  | adminClose fd => exact hP.selectorUnregisterFd h fd
  | configure users bufferSize maxConn => exact hP.books h ⟨rfl, rfl, rfl, rfl⟩

/-- Accepting a client sends nothing and counts no bytes. -/
theorem Stable.socksv5PassiveAccept (hP : Stable P) (hL : OfLog P) (h : P s) (env : Env) :
    Holds (fun _ => True) (socksv5PassiveAccept env s) P := by
  unfold Socks5d.socksv5PassiveAccept
  split
  · split
    · exact h
    · exact hP.close (s := { s with kernel := s.kernel.openFd s.kernel.lowest .other })
        (hL h ⟨rfl, rfl⟩) _
  split
  · exact h
  have hfresh : P { s.setConn s.nextConn callocConn with nextConn := s.nextConn + 1 } :=
    hL h ⟨rfl, rfl⟩
  have haccepted := hP.passiveAccept hfresh .socks5Handler (.client s.nextConn) (some s.nextConn) env
  dsimp only
  split
  · rename_i s₁ heq
    rw [heq] at haccepted
    exact hL haccepted ⟨rfl, rfl⟩
  · rename_i fd s₁ heq
    rw [heq] at haccepted
    have hset : ∀ {s₂}, SameLog s₁ s₂ → P s₂ := fun hsame => hL haccepted hsame
    apply holds_conn
    intro k _
    split
    · apply hP.selectorUnregisterFd
      exact hset ⟨rfl, rfl⟩
    split
    · apply hP.selectorUnregisterFd
      exact hset ⟨rfl, rfl⟩
    split
    · apply hP.selectorUnregisterFd
      exact hset ⟨rfl, rfl⟩
    · exact hset ⟨rfl, rfl⟩

/-- Every event keeps such a property, if bytes accepted for an origin in it do not matter. -/
theorem Stable.event (hP : Stable P) (hL : OfLog P) (h : P s) (e : Event)
    (hrelays : RelaysOut s e → Forwards P) : Holds (fun _ => True) (Socks5d.step s e) P := by
  by_cases haccepts : e.accepts s
  · cases e with
    | readable fd env =>
      have hhandler : (s.selector.fds fd).handler = some .socksv5 := haccepts
      have hread : Socks5d.step s (.readable fd env) =
          Socks5d.socksv5PassiveAccept env (s.enter env) := by
        rw [Socks5d.step, Socks5d.handleRead, hhandler]
      rw [hread]
      exact hP.socksv5PassiveAccept hL (s := s.enter env) (hL h ⟨rfl, rfl⟩) env
    | _ => exact haccepts.elim
  · exact hP.step h haccepts hrelays

/-- What holds of the trace and the counter in every state a run reaches. -/
theorem Stable.reachable {guard : Server → Event → Prop} (hP : Stable P) (hL : OfLog P)
    (hinit : ∀ args : Args, P args.initial)
    (hrelays : ∀ s e, guard s e → RelaysOut s e → Forwards P) (h : ReachableUnder guard s) : P s := by
  refine h.invariant (fun args s₀ hs₀ => hP.startServer (hinit args) hs₀) ?_
  intro s e s' _ hs _ hguard hstep
  exact (hP.event hL hs e (hrelays s e hguard)).result hstep

end Socks5d
