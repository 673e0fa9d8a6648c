import Socks5d.Outward
import Socks5d.Traffic
import Socks5d.Wakeups

/-!
# The course of a dialogue

How far a dialogue has come, told by the bytes of the client that were taken and by the outcome of
its connect. In between two callbacks a message of the client is read, or the answer to its request
is awaited or sent, or its payload is handed on.
-/

namespace Socks5d

open CStrings Feeding

/-- A send takes everything up to this length. -/
def SendOutcome.takes (length : ℕ) : SendOutcome → Bool
  | .accepted n => decide (length ≤ n + 1)
  | _ => false

/-- A send that takes everything is accepted. -/
theorem SendOutcome.accepted_of_takes {out : SendOutcome} {length : ℕ} (h : out.takes length = true) :
    ∃ n, out = .accepted n ∧ length ≤ n + 1 := by
  cases out with
  | accepted n => exact ⟨n, rfl, of_decide_eq_true h⟩
  | zero => cases h
  | failed e => cases h

/-- The answers to a callback: whatever is sent is taken whole, and the system answers a request in
this setting. -/
structure Env.Fits (env : Env) (ρ : Setting) (v : View) : Prop where
  origin : env.send.takes v.conn.inBuff.capacity = true
  client : env.send.takes v.conn.outBuff.capacity = true
  threadCreated : env.threadCreated = ρ.threadCreated
  answer : env.answer = ρ.answers (outward v.history).tried
  localAddr : env.localAddr = ρ.localAddr
  memory : env.junk.slice 4 IPV6_ADDR_SIZE = ρ.memory

instance (env : Env) (ρ : Setting) (v : View) : Decidable (env.Fits ρ v) :=
  decidable_of_iff (env.send.takes v.conn.inBuff.capacity = true ∧
      env.send.takes v.conn.outBuff.capacity = true ∧ env.threadCreated = ρ.threadCreated ∧
      env.answer = ρ.answers (outward v.history).tried ∧ env.localAddr = ρ.localAddr ∧
      env.junk.slice 4 IPV6_ADDR_SIZE = ρ.memory)
    ⟨fun ⟨ho, hc, ht, ha, hl, hm⟩ => ⟨ho, hc, ht, ha, hl, hm⟩,
      fun h => ⟨h.origin, h.client, h.threadCreated, h.answer, h.localAddr, h.memory⟩⟩

/-- What `recv` delivers into the space it is offered. -/
def RecvOutcome.chunk (space : ℕ) : RecvOutcome → List UInt8
  | .data first rest => (first :: rest).take space
  | .eof | .failed _ => []

/-- The client neither ends its stream nor breaks it. -/
def RecvOutcome.Goes : RecvOutcome → Prop
  | .data _ _ => True
  | .eof => False
  | .failed e => e = .eagain

instance : (recv : RecvOutcome) → Decidable recv.Goes
  | .data _ _ => isTrue trivial
  | .eof => isFalse id
  | .failed e => inferInstanceAs (Decidable (e = .eagain))

namespace ClientStream

variable (o : ClientStream) (ρ : Setting)

/-- The event is one of a client that sends this stream, with credentials that are good when they
are read, and everything sent is taken whole. -/
def Plays (s : Server) (v : View) : Event → Prop
  | .readable fd env => env.Fits ρ v ∧
      ((s.selector.fds fd).handler = some .socks5Handler →
        env.recv.Goes ∧ (outward v.history).taken ++ env.recv.chunk v.conn.inBuff.space <+: o.bytes ∧
          (v.phase = some .auth →
            authCheckCredentials s.users (text o.name) (text o.pass) = true))
  | .writable _ env => env.Fits ρ v
  | .notify env => env.Fits ρ v ∧ v.conn.addrInfo = ρ.addresses
  | .resolved _ _ | .adminInterest _ _ | .adminClose _ | .configure _ _ _ => True

instance (s : Server) (v : View) : (e : Event) → Decidable (o.Plays ρ s v e)
  | .readable _ _ => inferInstanceAs (Decidable (_ ∧ (_ → _ ∧ _ ∧ (_ → _))))
  | .writable _ env => inferInstanceAs (Decidable (env.Fits ρ v))
  | .notify _ => inferInstanceAs (Decidable (_ ∧ _))
  | .resolved _ _ | .adminInterest _ _ | .adminClose _ | .configure _ _ _ => isTrue trivial

/-- The end of the greeting or of the credentials lies inside a piece of the stream. Behind an
unknown method neither is looked for. -/
def Cuts (n m : ℕ) : Prop :=
  o.Sound ∧ (n < o.greeting.length ∧ o.greeting.length < n + m ∨
    n < (o.greeting ++ o.auth).length ∧ (o.greeting ++ o.auth).length < n + m)

instance (n m : ℕ) : Decidable (o.Cuts n m) :=
  inferInstanceAs (Decidable (_ ∧ _))

/-- The event keeps messages apart: no `recv` takes the end of a greeting or of credentials with what
follows; no bytes wait in `in_buff` when the connection stands; no payload comes for an origin that
is not registered, and no event of a pending connect after the answer. -/
def Apart (s : Server) (v : View) : Event → Prop
  | .readable fd env => (s.selector.fds fd).handler = some .socks5Handler →
      ¬ o.Cuts (outward v.history).taken.length (env.recv.chunk v.conn.inBuff.space).length ∧
        (v.phase = some .copy → env.recv.isData = true → OriginRegistered s v.conn)
  | .notify env =>
    v.conn.inBuff.content = [] ∨ (dial v.conn.addrInfo env.connects).stands = false
  | .writable fd env => (s.selector.fds fd).handler = some .connectingHandler →
      v.phase = some .connecting ∧ v.conn.isErrorResponse = false ∧
        (v.conn.inBuff.content = [] ∨ v.conn.originFd ≠ -1 ∧ env.soError ≠ none)
  | .resolved _ _ | .adminInterest _ _ | .adminClose _ | .configure _ _ _ => True

instance (s : Server) (v : View) : (e : Event) → Decidable (o.Apart s v e)
  | .readable _ _ => inferInstanceAs (Decidable (_ → ¬ _ ∧ (_ → _ → _)))
  | .writable _ _ => inferInstanceAs (Decidable (_ → _ ∧ _ ∧ (_ ∨ _)))
  | .notify _ => inferInstanceAs (Decidable (_ ∨ _))
  | .resolved _ _ | .adminInterest _ _ | .adminClose _ | .configure _ _ _ => isTrue trivial

/-- The client of a connection plays this stream. -/
def Playing (c : ConnId) (s : Server) (e : Event) : Prop :=
  ∀ v ∈ s.view c, e.target s = some c → o.Plays ρ s v e

instance (c : ConnId) (s : Server) (e : Event) : Decidable (o.Playing ρ c s e) :=
  inferInstanceAs (Decidable (∀ v ∈ s.view c, e.target s = some c → o.Plays ρ s v e))

/-- The client of a connection plays this stream, and its messages are kept apart. -/
def KeptApart (c : ConnId) (s : Server) (e : Event) : Prop :=
  o.Playing ρ c s e ∧ ∀ v ∈ s.view c, e.target s = some c → o.Apart s v e

instance (c : ConnId) (s : Server) (e : Event) : Decidable (o.KeptApart ρ c s e) :=
  inferInstanceAs (Decidable (_ ∧ ∀ v ∈ s.view c, e.target s = some c → o.Apart s v e))

/-- The request is for a name. -/
def named : Bool := decide (o.atyp = SOCKS5_CONN_REQ_ATYP_DOMAIN_NAME)

/-- The method the greeting is answered with. -/
def method : UInt8 := selectedMethod o.methods

/-- The replies before the request. -/
def replies : List (List UInt8) :=
  [SOCKS5_VERSION, o.method] ::
    if o.negotiates then [[SOCKS5_SUBNEGOTIATION_VERSION, SOCKS5_AUTH_OK]] else []

/-- The phases up to the request. -/
def phases : List Socks5State :=
  .handshake :: (if o.negotiates then [.auth] else []) ++ [.connectionReq]

/-- The phases from the request on. -/
def ending (tried : List AddrInfo) : List UInt8 → List Socks5State
  | [] => [.error]
  | status :: _ =>
    if status = SOCKS5_REP_SUCCEEDED then [.connecting, .copy]
    else if tried = [] then [.connecting, .connectionReq, .error]
    else [.connecting, .error]

/-- The answer to the request. -/
def answer : List UInt8 → List (List UInt8)
  | [] => []
  | status :: _ =>
    [if status = SOCKS5_REP_SUCCEEDED then ρ.accepts else ρ.refuses status]

/-- The phases of a dialogue in which so many bytes were taken and whose connect ended so. -/
def phasesAt (n : ℕ) (tried : List AddrInfo) (entries : List UInt8) : List Socks5State :=
  if n = 0 then []
  else if o.Spoiled n then [.handshake, .error]
  else if n < o.greeting.length then [.handshake]
  else if n < (o.greeting ++ o.auth).length then [.handshake, .auth]
  else if n < o.opening.length then o.phases
  else o.phases ++ ending tried entries

/-- The replies of such a dialogue. -/
def repliesAt (n : ℕ) (entries : List UInt8) : List (List UInt8) :=
  if o.Spoiled n ∨ n < o.greeting.length then []
  else if n < (o.greeting ++ o.auth).length then [[SOCKS5_VERSION, o.method]]
  else if n < o.opening.length then o.replies
  else o.replies ++ answer ρ entries

/-- What is shown is what the bytes taken and the outcome of the connect make of it. -/
structure Settled (w : Outward) : Prop where
  phases : w.phases = o.phasesAt w.taken.length w.tried w.entries
  replies : w.replies = o.repliesAt ρ w.taken.length w.entries
  sent : w.replies.flatten <+: w.sent
  handed : w.handed =
    if w.entries = [SOCKS5_REP_SUCCEEDED] then w.taken.drop o.opening.length else []
  outcome : if o.Spoiled w.taken.length ∨ w.taken.length < o.opening.length then
      w.tried = [] ∧ w.entries = []
    else ρ.Comes o.named w.tried w.entries

/-- The greeting is read, and these bytes of it have come. -/
structure AtGreeting (front : List UInt8) (v : View) : Prop where
  parser : v.conn.handshakeParser = some (feedAll handshakeParserFeed handshakeParserInit front)
  goes : handshakeParserInit.Goes front
  outBuff : v.conn.outBuff.content = []
  nonempty : front ≠ []
  unspoiled : ¬ o.Spoiled front.length
  short : front.length < o.greeting.length
  shown : outward v.history = { taken := front, phases := [.handshake] }

/-- Credentials are read, and these bytes of the message have come. -/
structure AtAuth (front : List UInt8) (v : View) : Prop where
  parser : ∃ junk, v.conn.authParser = some (feedAll authParserFeed (authParserInit junk) front) ∧
    Feeding.Goes authParserFeed AuthState.Pending (authParserInit junk) front
  outBuff : v.conn.outBuff.content = []
  sound : o.Sound
  negotiates : o.negotiates = true
  short : front.length < o.auth.length
  shown : outward v.history =
    { taken := o.greeting ++ front, phases := [.handshake, .auth]
      replies := [[SOCKS5_VERSION, o.method]], sent := [SOCKS5_VERSION, o.method] }

/-- The request is read, and these bytes of it have come. -/
structure AtRequest (front : List UInt8) (v : View) : Prop where
  parser : ∃ junk, v.conn.connReqParser =
      some (feedAll connReqParserFeed (connReqParserInit junk) front) ∧
    Feeding.Goes connReqParserFeed ConnReqParserState.Pending (connReqParserInit junk) front
  outBuff : v.conn.outBuff.content = []
  sound : o.Sound
  short : front.length < o.request.length
  shown : outward v.history =
    { taken := o.greeting ++ (o.auth ++ front), phases := o.phases
      replies := o.replies, sent := o.replies.flatten }

/-- The connection to the origin is awaited. Addresses were tried unless the resolution is. -/
structure Awaits (tried : List AddrInfo) (v : View) : Prop where
  sound : o.Sound
  untried : tried = [] ↔ v.tokens = 1
  threadCreated : o.named = true → ρ.threadCreated = true
  leads : tried ≠ [] → ∀ final status,
    ρ.Ends tried v.conn.addrInfo (decide (v.conn.originFd ≠ -1)) final status →
      ρ.Comes o.named final [status]
  shown : outward v.history =
    { taken := o.opening ++ v.conn.inBuff.content, phases := o.phases ++ [.connecting]
      replies := o.replies, sent := o.replies.flatten, tried := tried }

/-- The request was refused, and the client is to be told. -/
structure Refuses (v : View) : Prop where
  sound : o.Sound
  shown : ∃ extra status tried, status ≠ SOCKS5_REP_SUCCEEDED ∧
    v.conn.outBuff.content = ρ.refuses status ∧ ρ.Comes o.named tried [status] ∧
    outward v.history =
      { taken := o.opening ++ extra
        phases := o.phases ++ .connecting :: if tried = [] then [.connectionReq] else []
        replies := o.replies ++ [ρ.refuses status], sent := o.replies.flatten
        tried := tried, entries := [status] }

/-- What a connection shows that was handed this payload. -/
def relayed (payload more : List UInt8) (tried : List AddrInfo) : Outward where
  taken := o.opening ++ payload
  phases := o.phases ++ [.connecting, .copy]
  replies := o.replies ++ [ρ.accepts]
  sent := (o.replies ++ [ρ.accepts]).flatten ++ more
  handed := payload
  tried := tried
  entries := [SOCKS5_REP_SUCCEEDED]

/-- The payload is handed on as it comes. -/
structure Hands (v : View) : Prop where
  inBuff : v.conn.inBuff.content = []
  sound : o.Sound
  shown : ∃ payload more tried, ρ.Comes o.named tried [SOCKS5_REP_SUCCEEDED] ∧
    outward v.history = o.relayed ρ payload more tried

/-- How far a dialogue has come between two callbacks. -/
def Course (v : View) : Prop :=
  match v.phase with
  | none => outward v.history = {}
  | some .handshake => ∃ front, o.AtGreeting front v
  | some .auth => ∃ front, o.AtAuth front v
  | some .connectionReq =>
    if v.conn.isErrorResponse = true then o.Refuses ρ v else ∃ front, o.AtRequest front v
  | some .connecting =>
    if v.conn.isErrorResponse = true then o.Refuses ρ v else ∃ tried, o.Awaits ρ tried v
  | some .copy => o.Hands ρ v
  | some .done | some .error => False

/-- The outcome of a callback goes on with the dialogue. -/
def Follows (ρ : Setting) : Result → Prop
  | .alive v => o.Course ρ v
  | .gone history => o.Settled ρ (outward history)

end ClientStream

namespace ClientStream

variable {o : ClientStream} {ρ : Setting} {n : ℕ}

/-- A piece that does not cut the greeting off stays inside it. -/
theorem le_greeting {m : ℕ} (h : ¬ o.Cuts n m) (hsound : o.Sound) (hn : n < o.greeting.length) :
    n + m ≤ o.greeting.length :=
  Nat.le_of_not_lt fun hlt => h ⟨hsound, .inl ⟨hn, hlt⟩⟩

/-- A piece that does not cut the credentials off stays inside them. -/
theorem le_auth {m : ℕ} (h : ¬ o.Cuts n m) (hsound : o.Sound)
    (hn : n < (o.greeting ++ o.auth).length) : n + m ≤ (o.greeting ++ o.auth).length :=
  Nat.le_of_not_lt fun hlt => h ⟨hsound, .inr ⟨hn, hlt⟩⟩

/-- The opening is a greeting, credentials or none, and a request. -/
theorem length_opening :
    o.opening.length = (o.greeting ++ o.auth).length + o.request.length := by
  simp [opening, Nat.add_assoc]

/-- A greeting is no longer than the opening. -/
theorem greeting_le_opening (o : ClientStream) : o.greeting.length ≤ o.opening.length := by
  simp [opening]

/-- Behind the opening the outcome of the connect counts. -/
theorem phasesAt_opening (hspoiled : ¬ o.Spoiled n) (hn : o.opening.length ≤ n) (tried : List AddrInfo)
    (entries : List UInt8) : o.phasesAt n tried entries = o.phases ++ ending tried entries := by
  have hlen := o.length_greeting
  have hopening := o.length_opening
  rw [List.length_append] at hopening
  rw [phasesAt, if_neg (by omega), if_neg hspoiled, if_neg (by omega),
    if_neg (by rw [List.length_append]; omega), if_neg (by omega)]

/-- Behind the opening every reply was given. -/
theorem repliesAt_opening (hspoiled : ¬ o.Spoiled n) (hn : o.opening.length ≤ n)
    (entries : List UInt8) :
    o.repliesAt ρ n entries = o.replies ++ answer ρ entries := by
  have hopening := o.length_opening
  rw [List.length_append] at hopening
  have hshort : ¬ (o.Spoiled n ∨ n < o.greeting.length) := by
    rintro (hbad | hlt)
    · exact hspoiled hbad
    · omega
  rw [repliesAt, if_neg hshort, if_neg (by rw [List.length_append]; omega), if_neg (by omega)]

/-- A client of which nothing was read is shown nothing. -/
theorem settled_nothing : o.Settled ρ {} := by
  have hlt : 0 < o.greeting.length := by
    rw [length_greeting]
    omega
  refine ⟨rfl, ?_, List.nil_prefix, rfl, ?_⟩
  · exact (if_pos (.inr hlt)).symm
  · rw [if_pos (.inr (hlt.trans_le o.greeting_le_opening))]
    exact ⟨rfl, rfl⟩

/-- A spoiled greeting ends the dialogue without a reply. -/
theorem settled_spoiled {front : List UInt8} (hspoiled : o.Spoiled front.length) :
    o.Settled ρ { taken := front, phases := [.handshake, .error] } where
  phases := by
    have hpos := hspoiled.2
    rw [phasesAt, if_neg (by simp only; omega), if_pos hspoiled]
  replies := by rw [repliesAt, if_pos (.inl hspoiled)]
  sent := List.nil_prefix
  handed := rfl
  outcome := by
    rw [if_pos (.inl hspoiled)]
    exact ⟨rfl, rfl⟩

/-- A dialogue in the middle of the greeting is settled. -/
theorem AtGreeting.settled {front : List UInt8} (h : o.AtGreeting front v) :
    o.Settled ρ (outward v.history) := by
  rw [h.shown]
  refine ⟨?_, ?_, List.nil_prefix, rfl, ?_⟩
  · rw [phasesAt, if_neg (by simpa using h.nonempty), if_neg h.unspoiled, if_pos h.short]
  · rw [repliesAt, if_pos (.inr h.short)]
  · rw [if_pos (.inr (h.short.trans_le o.greeting_le_opening))]
    exact ⟨rfl, rfl⟩

/-- A dialogue in the middle of the credentials is settled. -/
theorem AtAuth.settled {front : List UInt8} (h : o.AtAuth front v) :
    o.Settled ρ (outward v.history) := by
  have hlen := o.length_greeting
  have hshort := h.short
  rw [h.shown]
  have hlt : ¬ (o.greeting ++ front).length < o.greeting.length := by simp
  refine ⟨?_, ?_, by simp, rfl, ?_⟩
  · rw [phasesAt, if_neg (by simp only [List.length_append]; omega), if_neg (h.sound.not_spoiled _),
      if_neg hlt, if_pos (by simpa using h.short)]
  · have hnot : ¬ (o.Spoiled (o.greeting ++ front).length ∨
        (o.greeting ++ front).length < o.greeting.length) :=
      not_or.mpr ⟨h.sound.not_spoiled _, hlt⟩
    rw [repliesAt, if_neg hnot, if_pos (by simpa using h.short)]
  · rw [if_pos (.inr (by simp only [opening, List.length_append]; omega))]
    exact ⟨rfl, rfl⟩

/-- A dialogue in the middle of the request is settled. -/
theorem AtRequest.settled {front : List UInt8} (h : o.AtRequest front v) :
    o.Settled ρ (outward v.history) := by
  have hlen := o.length_greeting
  have hshort := h.short
  have hopening := o.length_opening
  rw [h.shown]
  have hlt : ¬ (o.greeting ++ (o.auth ++ front)).length < o.greeting.length := by simp
  have hlt' : ¬ (o.greeting ++ (o.auth ++ front)).length < (o.greeting ++ o.auth).length := by
    simp only [List.length_append]
    omega
  have hend : (o.greeting ++ (o.auth ++ front)).length < o.opening.length := by
    simp only [List.length_append] at hopening ⊢
    omega
  refine ⟨?_, ?_, by simp, rfl, by rw [if_pos (.inr hend)]; exact ⟨rfl, rfl⟩⟩
  · rw [phasesAt, if_neg (by simp only [List.length_append]; omega), if_neg (h.sound.not_spoiled _),
      if_neg hlt, if_neg hlt', if_pos hend]
  · have hnot : ¬ (o.Spoiled (o.greeting ++ (o.auth ++ front)).length ∨
        (o.greeting ++ (o.auth ++ front)).length < o.greeting.length) :=
      not_or.mpr ⟨h.sound.not_spoiled _, hlt⟩
    rw [repliesAt, if_neg hnot, if_neg hlt', if_pos hend]

/-- A callback after which the request is read goes on with the dialogue. -/
theorem AtRequest.follows {front : List UInt8} (h : o.AtRequest front v)
    (hphase : v.phase = some .connectionReq) (herror : v.conn.isErrorResponse = false) :
    o.Follows ρ (.alive v) := by
  change o.Course ρ v
  rw [Course, hphase]
  change if v.conn.isErrorResponse = true then _ else _
  rw [if_neg (by simp [herror])]
  exact ⟨front, h⟩

/-- A callback after which the connection is awaited goes on with the dialogue. -/
theorem Awaits.follows {tried : List AddrInfo} (h : o.Awaits ρ tried v)
    (hphase : v.phase = some .connecting) (herror : v.conn.isErrorResponse = false) :
    o.Follows ρ (.alive v) := by
  change o.Course ρ v
  rw [Course, hphase]
  change if v.conn.isErrorResponse = true then _ else _
  rw [if_neg (by simp [herror])]
  exact ⟨tried, h⟩

/-- A dialogue that got behind the request is settled by what its connect came to. -/
theorem settled_opening (extra : List UInt8) {sent handed : List UInt8} {tried : List AddrInfo}
    {entries : List UInt8}
    (hsound : o.Sound) (hcomes : ρ.Comes o.named tried entries)
    (hsent : (o.replies ++ answer ρ entries).flatten <+: sent)
    (hhanded : handed = if entries = [SOCKS5_REP_SUCCEEDED] then extra else []) :
    o.Settled ρ
      { taken := o.opening ++ extra, phases := o.phases ++ ending tried entries
        replies := o.replies ++ answer ρ entries, sent := sent, handed := handed
        tried := tried, entries := entries } where
  phases := by rw [phasesAt_opening (hsound.not_spoiled _) (by simp)]
  replies := by rw [repliesAt_opening (hsound.not_spoiled _) (by simp)]
  sent := hsent
  handed := by simpa using hhanded
  outcome := by
    have hnot : ¬ (o.Spoiled (o.opening ++ extra).length ∨
        (o.opening ++ extra).length < o.opening.length) := by
      rintro (hspoiled | hlt)
      · exact hsound.not_spoiled _ hspoiled
      · rw [List.length_append] at hlt
        omega
    rw [if_neg hnot]
    exact hcomes

/-- A relay is settled, and stays so when it ends. -/
theorem settled_relayed (hsound : o.Sound) {tried : List AddrInfo}
    (hcomes : ρ.Comes o.named tried [SOCKS5_REP_SUCCEEDED]) (payload more : List UInt8) :
    o.Settled ρ (o.relayed ρ payload more tried) :=
  settled_opening payload hsound hcomes (List.prefix_append _ _) rfl

section Agreement

variable {w w' : Outward}

/-- An unknown method that was read stays read. -/
theorem Spoiled.mono {n m : ℕ} (h : o.Spoiled n) (hle : n ≤ m) : o.Spoiled m :=
  ⟨h.1, h.2.trans_le hle⟩

/-- Behind the opening a greeting that was not spoiled is read to its end. -/
theorem not_spoiled_of_opening {n m : ℕ} (h : ¬ o.Spoiled n) (hn : o.opening.length ≤ n) :
    ¬ o.Spoiled m := by
  rintro ⟨hknown, -⟩
  have hlen := o.length_greeting
  have hle := o.greeting_le_opening
  exact h ⟨hknown, by omega⟩

/-- Neither the relay nor an error is among the phases up to the request. -/
theorem not_mem_phases {state : Socks5State} (h : state = .error ∨ state = .copy) :
    state ∉ o.phases := by
  simp only [phases]
  rcases h with rfl | rfl
  · split <;> simp
  · split <;> simp

/-- A dialogue ends in an error on an unknown method, and else behind the opening. -/
theorem mem_phasesAt {n : ℕ} {tried : List AddrInfo} {entries : List UInt8} {state : Socks5State}
    (h : state ∈ o.phasesAt n tried entries) (hstate : state = .error ∨ state = .copy) :
    o.Spoiled n ∧ state = .error ∨
      ¬ o.Spoiled n ∧ o.opening.length ≤ n ∧ state ∈ ending tried entries := by
  have hphases := not_mem_phases (o := o) hstate
  have hhandshake : state ≠ .handshake := by rcases hstate with rfl | rfl <;> simp
  have hauth : state ≠ .auth := by rcases hstate with rfl | rfl <;> simp
  by_cases hspoiled : o.Spoiled n
  · have hpos := hspoiled.2
    rw [phasesAt, if_neg (by omega), if_pos hspoiled] at h
    exact .inl ⟨hspoiled, by simpa [hhandshake] using h⟩
  · refine .inr ⟨hspoiled, ?_⟩
    simp only [phasesAt, if_neg hspoiled] at h
    split at h
    · simp at h
    · split at h
      · simp [hhandshake] at h
      · split at h
        · simp [hhandshake, hauth] at h
        · split at h
          · exact absurd h hphases
          · exact ⟨by omega, (List.mem_append.mp h).resolve_left hphases⟩

/-- A spoiled greeting shows an error, and nothing else. -/
theorem Settled.of_spoiled (h : o.Settled ρ w) (hspoiled : o.Spoiled w.taken.length) :
    w.phases = [.handshake, .error] ∧ w.replies = [] ∧ w.handed = [] := by
  have houtcome := h.outcome
  rw [if_pos (.inl hspoiled)] at houtcome
  have hpos := hspoiled.2
  refine ⟨?_, ?_, ?_⟩
  · rw [h.phases, phasesAt, if_neg (by omega), if_pos hspoiled]
  · rw [h.replies, repliesAt, if_pos (.inl hspoiled)]
  · rw [h.handed, houtcome.2]
    rfl

/-- Behind the opening the connect tells what is shown. -/
theorem Settled.of_opening (h : o.Settled ρ w) (hspoiled : ¬ o.Spoiled w.taken.length)
    (hlate : o.opening.length ≤ w.taken.length) :
    ρ.Comes o.named w.tried w.entries ∧ w.phases = o.phases ++ ending w.tried w.entries ∧
      w.replies = o.replies ++ answer ρ w.entries := by
  have houtcome := h.outcome
  have hnot : ¬ (o.Spoiled w.taken.length ∨ w.taken.length < o.opening.length) := by
    rintro (hbad | hlt)
    · exact hspoiled hbad
    · omega
  rw [if_neg hnot] at houtcome
  exact ⟨houtcome, h.phases.trans (phasesAt_opening hspoiled hlate _ _),
    h.replies.trans (repliesAt_opening hspoiled hlate _)⟩

/-- What two dialogues show is the same where one has dealt with all the other has, or has ended in
an error before. -/
theorem Settled.agree (h : o.Settled ρ w) (h' : o.Settled ρ w') (hbegins : w.taken <+: w'.taken)
    (hends : w.taken = w'.taken ∨ .error ∈ w.phases) :
    w.phases = w'.phases ∧ w.replies = w'.replies ∧ w.handed = w'.handed := by
  have hle := hbegins.length_le
  rcases hends with heq | herror
  · have houtcome : w.tried = w'.tried ∧ w.entries = w'.entries := by
      have hw := h.outcome
      have hw' := h'.outcome
      rw [← heq] at hw'
      split at hw
      · next hshort =>
        rw [if_pos hshort] at hw'
        exact ⟨hw.1.trans hw'.1.symm, hw.2.trans hw'.2.symm⟩
      · next hlate =>
        rw [if_neg hlate] at hw'
        exact hw.unique hw'
    obtain ⟨htried, hentries⟩ := houtcome
    exact ⟨by rw [h.phases, h'.phases, heq, htried, hentries],
      by rw [h.replies, h'.replies, heq, hentries], by rw [h.handed, h'.handed, heq, hentries]⟩
  · rw [h.phases] at herror
    rcases mem_phasesAt herror (.inl rfl) with ⟨hspoiled, -⟩ | ⟨hspoiled, hlate, hending⟩
    · obtain ⟨hphases, hreplies, hhanded⟩ := h.of_spoiled hspoiled
      obtain ⟨hphases', hreplies', hhanded'⟩ := h'.of_spoiled (hspoiled.mono hle)
      exact ⟨hphases.trans hphases'.symm, hreplies.trans hreplies'.symm, hhanded.trans hhanded'.symm⟩
    · obtain ⟨hcomes, hphases, hreplies⟩ := h.of_opening hspoiled hlate
      obtain ⟨hcomes', hphases', hreplies'⟩ :=
        h'.of_opening (not_spoiled_of_opening hspoiled hlate) (hlate.trans hle)
      obtain ⟨htried, hentries⟩ := hcomes.unique hcomes'
      have hfailed : w.entries ≠ [SOCKS5_REP_SUCCEEDED] := by
        intro hstands
        rw [hstands, ending, if_pos rfl] at hending
        simp at hending
      refine ⟨by rw [hphases, hphases', htried, hentries], by rw [hreplies, hreplies', hentries], ?_⟩
      rw [h.handed, h'.handed, if_neg hfailed, if_neg (hentries ▸ hfailed)]

/-- A dialogue that got to the relay ends in no error, and all of the payload that was taken was
handed on. -/
theorem Settled.of_copy (h : o.Settled ρ w) (hcopy : .copy ∈ w.phases) :
    .error ∉ w.phases ∧ w.handed = w.taken.drop o.opening.length := by
  rw [h.phases] at hcopy
  rcases mem_phasesAt hcopy (.inr rfl) with ⟨-, hstate⟩ | ⟨hspoiled, hlate, hending⟩
  · cases hstate
  · obtain ⟨hcomes, hphases, -⟩ := h.of_opening hspoiled hlate
    have hstands : w.entries = [SOCKS5_REP_SUCCEEDED] := by
      rcases hcomes.entries with hnone | ⟨status, hone⟩
      · rw [hnone] at hending
        simp [ending] at hending
      · rw [hone, ending] at hending
        split at hending
        · next hstatus => rw [hone, hstatus]
        · split at hending <;> simp at hending
    refine ⟨?_, by rw [h.handed, if_pos hstands]⟩
    rw [hphases, hstands, ending, if_pos rfl, List.mem_append]
    rintro (hmem | hmem)
    · exact not_mem_phases (.inl rfl) hmem
    · simp at hmem

end Agreement

end ClientStream

end Socks5d
