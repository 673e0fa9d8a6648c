import Socks5d.Answers
import Socks5d.Users
import Socks5d.Parser.Credentials

/-!
# The judgement of credentials

`auth_read` looks up the two fields of a message as C strings, so what it compares are the parts
before their first zero byte, in the bucket of the name's hash. A user whose name was cut when it
was added lies in the bucket of the longer name.
-/

namespace Socks5d

open Fallible Feeding CStrings

/-- The table holds a user of exactly this name and password. -/
def UserTable.Holds (users : UserTable) (name pass : List UInt8) : Prop := ∃ i, ⟨name, pass⟩ ∈ users i

/-- Such a user lies in the bucket of its name's hash. -/
def UserTable.HoldsPlaced (users : UserTable) (name pass : List UInt8) : Prop :=
  ⟨name, pass⟩ ∈ users (hash name)

/-- No zero byte makes the fields pass for those of another user, and a user of this name and
password lies where it is looked for. -/
def UserTable.Distinguishes (users : UserTable) (name pass : List UInt8) : Prop :=
  (0 ∈ name ++ pass → ¬ users.HoldsPlaced (text name) (text pass)) ∧
    (users.Holds name pass → users.HoldsPlaced name pass)

/-- The strings of a call end at their first zero. -/
def AuthCall.NulFree : AuthCall → Prop
  | addUser username password => (∀ c ∈ username, c ≠ 0) ∧ ∀ c ∈ password, c ≠ 0
  | removeUser username => ∀ c ∈ username, c ≠ 0
  | checkCredentials username password => (∀ c ∈ username, c ≠ 0) ∧ ∀ c ∈ password, c ≠ 0

section Tables

variable {users : UserTable} {name pass : List UInt8}

theorem authCheckCredentials_iff :
    authCheckCredentials users name pass = true ↔ users.HoldsPlaced name pass := by
  rw [authCheckCredentials, List.any_eq_true, UserTable.HoldsPlaced]
  constructor
  · rintro ⟨⟨username, password⟩, hmem, hboth⟩
    rw [Bool.and_eq_true, beq_iff_eq, beq_iff_eq] at hboth
    obtain ⟨rfl, rfl⟩ := hboth
    exact hmem
  · intro hmem
    exact ⟨_, hmem, by simp⟩

/-- No entry holds a zero byte. -/
def UserTable.NulFree (users : UserTable) : Prop :=
  ∀ i, ∀ e ∈ users i, (∀ c ∈ e.username, c ≠ 0) ∧ ∀ c ∈ e.password, c ≠ 0

/-- The empty table has no entries. -/
theorem nulFree_authInit : authInit.NulFree := by
  intro i e he
  cases he

theorem UserTable.NulFree.run (h : users.NulFree) {call : AuthCall} (hcall : call.NulFree) :
    (call.run users).2.NulFree := by
  intro i e he
  cases call with
  | addUser username password =>
    simp only [AuthCall.run, authAddUser] at he
    split at he
    · exact h i e he
    · by_cases hi : i = hash username
      · rw [hi] at he
        dsimp only at he
        rw [Function.update_self] at he
        rcases List.mem_cons.mp he with rfl | hold
        · exact ⟨fun c hc => hcall.1 c (List.mem_of_mem_take hc),
            fun c hc => hcall.2 c (List.mem_of_mem_take hc)⟩
        · exact h _ e hold
      · dsimp only at he
        rw [Function.update_of_ne hi] at he
        exact h i e he
  | removeUser username =>
    simp only [AuthCall.run, authRemoveUser] at he
    split at he
    · by_cases hi : i = hash username
      · rw [hi] at he
        dsimp only at he
        rw [Function.update_self] at he
        exact h _ e (List.mem_of_mem_eraseP he)
      · dsimp only at he
        rw [Function.update_of_ne hi] at he
        exact h i e he
    · exact h i e he
  | checkCredentials username password => exact h i e he

theorem runCalls_nulFree (calls : List AuthCall) (hcalls : ∀ call ∈ calls, call.NulFree)
    (h : users.NulFree) : (runCalls AuthCall.run calls users).2.NulFree := by
  induction calls generalizing users with
  | nil => exact h
  | cons call calls ih =>
    exact ih (fun c hc => hcalls c (List.mem_cons_of_mem _ hc))
      (h.run (hcalls call List.mem_cons_self))

/-- The lookup answers for exactly this user when the table distinguishes it. -/
theorem UserTable.NulFree.check_iff (h : users.NulFree) :
    (authCheckCredentials users (text name) (text pass) = true ↔ users.Holds name pass) ↔
      users.Distinguishes name pass := by
  rw [authCheckCredentials_iff, UserTable.Distinguishes]
  by_cases hzero : 0 ∈ name ++ pass
  · have hnot : ¬ users.Holds name pass := by
      rintro ⟨i, hmem⟩
      obtain ⟨hname, hpass⟩ := h i _ hmem
      rcases List.mem_append.mp hzero with hz | hz
      · exact hname 0 hz rfl
      · exact hpass 0 hz rfl
    simp [hzero, hnot]
  · rw [List.mem_append, not_or] at hzero
    rw [text_eq_self fun c hc h0 => hzero.1 (h0 ▸ hc), text_eq_self fun c hc h0 => hzero.2 (h0 ▸ hc)]
    have hplaced : users.HoldsPlaced name pass → users.Holds name pass := fun hmem => ⟨_, hmem⟩
    have hmem : 0 ∉ name ++ pass := by simp [hzero]
    simp only [hmem, false_implies, true_and]
    exact ⟨fun hiff => hiff.mpr, fun hback => ⟨hplaced, hback⟩⟩

end Tables

/-- A connection in the sub-negotiation: its parser was fed the first bytes, the others wait in
`in_buff`, and there is room for the reply. -/
structure Subnegotiating (c : ConnId) (s : Server) (k : Socks5Conn) (before after : List UInt8) :
    Prop where
  conn : s.conns c = some k
  stm : k.stm = true
  phase : s.stms c = some ⟨some .auth⟩
  parser : ∃ junk, k.authParser = some (feedAll authParserFeed (authParserInit junk) before)
  unread : k.inBuff.content = after
  room : AUTH_RESPONSE_SIZE ≤ k.outBuff.space

/-- The connection once the loop took these bytes and nothing came of them. -/
def Socks5Conn.fedAuth (k : Socks5Conn) (inBuff : Buffer) (p : AuthParser) : Socks5Conn :=
  { k with inBuff := inBuff, authParser := some p }

section Loop

variable {s : Server} {k : Socks5Conn} {key : SelectorKey} {p : AuthParser} {bound : ℕ}
  {sends : List SendOutcome}

/-- One pass of the loop. -/
theorem authReadLoop_pass (hk : s.conns key.data = some k) (hp : k.authParser = some p)
    {byte : UInt8} {more : List UInt8} (hcontent : k.inBuff.content = byte :: more) :
    ∃ inBuff, inBuff.content = more ∧
      (∀ bound sends, (authParserFeed p byte).2.Pending →
        authReadLoop (bound + 1) key sends s = authReadLoop bound key sends
          (s.setConn key.data (k.fedAuth inBuff (authParserFeed p byte).1))) := by
  have hne : k.inBuff.content ≠ [] := by simp [hcontent]
  obtain ⟨b, inBuff, hread, hrest, -⟩ := bufferRead_cons hne
  obtain ⟨rfl, hmore⟩ := List.cons.inj (hcontent.symm.trans hrest)
  refine ⟨inBuff, hmore.symm, fun bound sends hpending => ?_⟩
  have hcan := (Buffer.bufferCanRead_iff _).mpr hne
  rw [authReadLoop]
  simp only [conn_of_conns hk, ok_bind, hcan, Bool.not_true, Bool.false_eq_true, if_false, hread, hp]
  rcases hfeed : authParserFeed p byte with ⟨p', state⟩
  rw [hfeed] at hpending
  cases state with
  | done => exact absurd rfl hpending.1
  | error => exact absurd rfl hpending.2
  | _ => rfl

/-- The loop takes bytes that end nothing. -/
theorem authReadLoop_goes (front : List UInt8) (hk : s.conns key.data = some k)
    (hp : k.authParser = some p) {rest : List UInt8} (hcontent : k.inBuff.content = front ++ rest)
    (hgoes : p.Goes front) :
    ∃ inBuff, inBuff.content = rest ∧ ∀ bound sends,
      authReadLoop (bound + front.length) key sends s = authReadLoop bound key sends
        (s.setConn key.data (k.fedAuth inBuff (feedAll authParserFeed p front))) := by
  induction front generalizing s k p with
  | nil =>
    refine ⟨k.inBuff, hcontent, fun bound sends => ?_⟩
    have hsame : s.setConn key.data (k.fedAuth k.inBuff p) = s := by
      have hk' : k.fedAuth k.inBuff p = k := by rw [Socks5Conn.fedAuth, ← hp]
      rw [hk', Server.setConn, ← hk, Function.update_eq_self]
    rw [feedAll_nil, hsame, List.length_nil, Nat.add_zero]
  | cons b front ih =>
    obtain ⟨inBuff, hrest, hpass⟩ := authReadLoop_pass hk hp hcontent
    have hpending : (authParserFeed p b).2.Pending := hgoes _ (by simp)
    have hgoes' : (authParserFeed p b).1.Goes front := fun v hv =>
      hgoes v (by rw [verdicts_cons]; exact List.mem_cons_of_mem _ hv)
    obtain ⟨inBuff', hrest', hloop⟩ := ih (k := k.fedAuth inBuff (authParserFeed p b).1)
      conns_setConn rfl hrest hgoes'
    refine ⟨inBuff', hrest', fun bound sends => ?_⟩
    rw [List.length_cons, ← Nat.add_assoc, hpass _ _ hpending, hloop, setConn_setConn]
    rfl

/-- The two bytes of a reply. -/
theorem bytes_createAuthResponse (authOk : Bool) (junk : Memory) :
    (createAuthResponse authOk junk).bytes AUTH_RESPONSE_SIZE =
      [SOCKS5_SUBNEGOTIATION_VERSION, if authOk then SOCKS5_AUTH_OK else SOCKS5_AUTH_ERROR] := rfl

/-- The state in which a judged message is about to be answered. -/
structure AboutToAnswer (c : ConnId) (s : Server) (stm : Bool) (reply : List UInt8) (s₁ : Server) :
    Prop where
  replied : queuedReplies c .auth s₁.trace = queuedReplies c .auth s.trace ++ [reply]
  stms : s₁.stms = s.stms
  conn : ∃ k, s₁.conns c = some k ∧ k.stm = stm ∧ k.inBuff.content = [] ∧ k.outBuff.content ≠ []

/-- A complete message is looked up and its reply queued. -/
theorem authReadLoop_done (hk : s.conns key.data = some k) (hp : k.authParser = some p)
    {byte : UInt8} {more : List UInt8} (hcontent : k.inBuff.content = byte :: more)
    (hroom : AUTH_RESPONSE_SIZE ≤ k.outBuff.space) {p' : AuthParser}
    (hfeed : authParserFeed p byte = (p', .done)) :
    ∃ s₁, AboutToAnswer key.data s k.stm [SOCKS5_SUBNEGOTIATION_VERSION,
        if p'.accepted s.users then SOCKS5_AUTH_OK else SOCKS5_AUTH_ERROR] s₁ ∧
      ∀ bound sends, authReadLoop (bound + 1) key sends s =
        socksv5Write key (sends.headD .wouldBlock) s₁ >>= authReadLoop bound key sends.tail := by
  have hne : k.inBuff.content ≠ [] := by simp [hcontent]
  obtain ⟨b, inBuff, hread, hrest, -⟩ := bufferRead_cons hne
  obtain ⟨rfl, hmore⟩ := List.cons.inj (hcontent.symm.trans hrest)
  have hcan := (Buffer.bufferCanRead_iff _).mpr hne
  obtain ⟨ok, hok⟩ : ∃ ok, p'.accepted s.users = ok := ⟨_, rfl⟩
  -- the state after the lookup
  obtain ⟨s₁, hs₁⟩ : ∃ s₁, s₁ = (s.setConn key.data (k.fedAuth inBuff p')).note
    (.credentials key.data ok) := ⟨_, rfl⟩
  have hk₁ : s₁.conns key.data = some (k.fedAuth inBuff p') := hs₁ ▸ conns_setConn
  obtain ⟨s₂, outBuff, hqueue, hk₂, hout⟩ := queueReply_of_room (c := key.data) .auth
    (List.cons_ne_nil SOCKS5_SUBNEGOTIATION_VERSION
      [if ok then SOCKS5_AUTH_OK else SOCKS5_AUTH_ERROR]) hk₁ hroom
  obtain ⟨s₃, t, hreset, hk₃, ht⟩ := resetInBuff_of hk₂.conns
  refine ⟨(s₃.setConn key.data { k.fedAuth (bufferReset inBuff) p' with
    outBuff := outBuff
    isErrorResponse := !ok
    username := if ok then p'.name else k.username }).setInterest key.fd OP_WRITE, ?_, ?_⟩
  · constructor
    · change queuedReplies key.data .auth s₃.trace = _
      rw [hk₃.trace, hk₂.trace, hs₁, queuedReplies_append, queuedReplies_append, ht, List.append_nil,
        hok]
      simp [Server.note, Server.setConn, queuedReplies]
    · change s₃.stms = s.stms
      rw [hk₃.stms, hk₂.stms, hs₁]
      rfl
    · exact ⟨_, conns_setConn, rfl, Buffer.content_bufferReset _, by simp [hout]⟩
  · intro bound sends
    rw [authReadLoop]
    simp only [conn_of_conns hk, ok_bind, hcan, Bool.not_true, Bool.false_eq_true, if_false, hread,
      hp, hfeed]
    have hlooked : authCheckCredentials (s.setConn key.data
        { k with inBuff := inBuff, authParser := some p' }).users (cString p'.username MAX_USERNAME_LEN)
        (cString p'.password MAX_PASSWORD_LEN) = ok := hok
    have hreply : ((s.setConn key.data { k with inBuff := inBuff, authParser := some p' }).note
        (.credentials key.data ok)).queueReply key.data .auth [SOCKS5_SUBNEGOTIATION_VERSION,
          if ok then SOCKS5_AUTH_OK else SOCKS5_AUTH_ERROR] = .ok s₂ := by
      rw [hs₁] at hqueue
      exact hqueue
    rw [hlooked, bytes_createAuthResponse, hreply, ok_bind, hreset, ok_bind,
      conn_of_conns hk₃.conns, ok_bind]
    rfl

theorem authReadLoop_empty {state : Socks5State} (hk : s.conns key.data = some k)
    (hstm : k.stm = true) (hphase : s.stms key.data = some ⟨some state⟩)
    (hempty : k.inBuff.content = []) : authReadLoop bound key sends s = .ok (state, s) := by
  have hcan := (Buffer.bufferCanRead_eq_false_iff _).mpr hempty
  rw [authReadLoop]
  simp [conn_of_conns hk, hcan, currentState_of hk hstm hphase]

end Loop

/-- What is read back of a field is the string up to its first zero. -/
theorem cString_filled {junk : ℕ → UInt8} {field : List UInt8} (hfield : IsField field) :
    cString (filled junk (field ++ [0])) MAX_USERNAME_LEN = text field := by
  have hfits : (field ++ [0]).length ≤ MAX_USERNAME_LEN := by
    rw [List.length_append, List.length_singleton]
    exact Nat.succ_le_succ hfield.2
  have hbegins : field ++ [0] <+: (List.range MAX_USERNAME_LEN).map (filled junk (field ++ [0])) :=
    range_filled_begins hfits
  obtain ⟨rest, hrest⟩ := hbegins
  rw [cString, ← hrest, List.append_assoc, List.singleton_append]
  exact text_append_zero field rest

theorem AuthParser.Complete.accepted_eq {junk : ℕ → UInt8} {p : AuthParser} {name pass : List UInt8}
    (h : p.Complete junk name pass) (hname : IsField name) (hpass : IsField pass)
    (users : UserTable) :
    p.accepted users = authCheckCredentials users (text name) (text pass) := by
  rw [AuthParser.accepted, AuthParser.name, h.username, h.password, cString_filled hname]
  exact congrArg _ (cString_filled hpass)

section Messages

variable {s : Server} {k : Socks5Conn} {key : SelectorKey} {before after more name pass : List UInt8}

/-- The last part of a message is answered by what the lookup says of its two strings. -/
theorem authRead_answers (key : SelectorKey) (env : Env)
    (h : Subnegotiating key.data s k before after)
    (hname : IsField name) (hpass : IsField pass)
    (hmessage : before ++ after = authMessage name pass ++ more)
    (hbefore : before.length < (authMessage name pass).length) :
    ∃ s₁, QueuesReply key .auth s (fun sends => authRead key { env with sends := sends } s) authReadLoop
      [SOCKS5_SUBNEGOTIATION_VERSION,
        if authCheckCredentials s.users (text name) (text pass) then SOCKS5_AUTH_OK
        else SOCKS5_AUTH_ERROR] s₁ := by
  obtain ⟨junk, hparser⟩ := h.parser
  obtain ⟨front, last, hsplit, hends, hcomplete⟩ := authEnds_message junk hname hpass
  obtain ⟨mid, rfl, rfl⟩ : ∃ mid, front = before ++ mid ∧ after = mid ++ last :: more := by
    rw [hsplit, List.length_append, List.length_singleton] at hbefore
    rw [hsplit, List.append_assoc, List.singleton_append] at hmessage
    obtain ⟨mid, rfl⟩ := (List.prefix_of_prefix_length_le ⟨_, hmessage⟩ (List.prefix_append front _)
      (by omega))
    rw [List.append_assoc, List.append_cancel_left_eq] at hmessage
    exact ⟨mid, rfl, hmessage⟩
  obtain ⟨inBuff, hrest, hloop⟩ := authReadLoop_goes mid h.conn hparser h.unread hends.goes.rest
  rw [← feedAll_append] at hloop
  have hfeed : authParserFeed (feedAll authParserFeed (authParserInit junk) (before ++ mid)) last =
      ((authParserFeed (feedAll authParserFeed (authParserInit junk) (before ++ mid)) last).1, .done) :=
    Prod.ext rfl hends.verdict
  rw [hsplit, feedAll_append] at hcomplete
  have haccepted := AuthParser.Complete.accepted_eq hcomplete hname hpass s.users
  obtain ⟨s₁, hanswer, hdone⟩ := authReadLoop_done (k := k.fedAuth inBuff _) conns_setConn rfl hrest
    h.room hfeed
  obtain ⟨k₁, hk₁, hstm₁, hin₁, hout₁⟩ := hanswer.conn
  have hreply : (if (authParserFeed (feedAll authParserFeed (authParserInit junk) (before ++ mid))
      last).1.accepted s.users then SOCKS5_AUTH_OK else SOCKS5_AUTH_ERROR) =
      if authCheckCredentials s.users (text name) (text pass) then SOCKS5_AUTH_OK
      else SOCKS5_AUTH_ERROR := by
    rw [← haccepted]
    rfl
  have hsends : ∀ sends, authRead key { env with sends := sends } s =
      socksv5Write key (sends.headD .wouldBlock) s₁ >>= authReadLoop more.length key sends.tail := by
    intro sends
    have hlength : (mid ++ last :: more).length = more.length + 1 + mid.length := by
      simp only [List.length_append, List.length_cons]
      omega
    rw [authRead, conn_of_conns h.conn, ok_bind, h.unread, hlength, hloop, hdone]
  rw [← hreply]
  refine ⟨s₁, hanswer.replied, ⟨_, hsends⟩, .auth, s₁.setErrno .eagain, ?_, hanswer.replied⟩
  have hphase : s₁.stms key.data = some ⟨some .auth⟩ := by
    rw [hanswer.stms]
    exact h.phase
  rw [hsends, List.headD_nil, socksv5Write_blocked hk₁ hout₁, ok_bind]
  exact authReadLoop_empty (s := s₁.setErrno .eagain) hk₁ (hstm₁.trans h.stm) hphase hin₁

/-- A message is accepted for exactly the user it names if and only if the table distinguishes that
user from what a zero byte makes of the message. -/
theorem credentials_exact_iff (env : Env) {calls : List AuthCall}
    (hcalls : ∀ call ∈ calls, call.NulFree) (husers : s.users = (runCalls AuthCall.run calls authInit).2)
    (h : Subnegotiating key.data s k before after) (hname : IsField name) (hpass : IsField pass)
    (hmessage : before ++ after = authMessage name pass ++ more)
    (hbefore : before.length < (authMessage name pass).length) :
    ∃ s₁ ok, QueuesReply key .auth s (fun sends => authRead key { env with sends := sends } s)
        authReadLoop [SOCKS5_SUBNEGOTIATION_VERSION, if ok then SOCKS5_AUTH_OK else SOCKS5_AUTH_ERROR]
        s₁ ∧
      ((ok = true ↔ s.users.Holds name pass) ↔ s.users.Distinguishes name pass) := by
  obtain ⟨s₁, hanswers⟩ := authRead_answers key env h hname hpass hmessage hbefore
  have hnul : s.users.NulFree := husers ▸ runCalls_nulFree calls hcalls nulFree_authInit
  exact ⟨s₁, _, hanswers, hnul.check_iff⟩

/-- A connection in the sub-negotiation with these bytes unread. -/
def subnegotiationConn (bytes : List UInt8) : Socks5Conn :=
  { callocConn with
    stm := true
    authParser := some (authParserInit fun _ => 7)
    inBuff := .holding bytes
    outBuff := bufferInit [0, 0] }

/-- A server whose only user is `ana` with password `x`, and which serves that connection. -/
def subnegotiationServer (bytes : List UInt8) : Server :=
  { bareArgs.initial with
    conns := Function.update (fun _ => none) 0 (some (subnegotiationConn bytes))
    stms := Function.update (fun _ => none) 0 (some ⟨some .auth⟩)
    users := (runCalls AuthCall.run [.addUser [97, 110, 97] [120]] authInit).2 }

theorem subnegotiating_server (bytes : List UInt8) :
    Subnegotiating 0 (subnegotiationServer bytes) (subnegotiationConn bytes) [] bytes where
  conn := rfl
  stm := rfl
  phase := rfl
  parser := ⟨_, rfl⟩
  unread := by simp [subnegotiationConn, Buffer.content, Buffer.holding]
  room := Nat.le_refl 2

/-- The user `ana` sends just that. -/
theorem credentials_exact_ana : ∃ s₁ ok,
    QueuesReply ⟨5, 0⟩ .auth (subnegotiationServer (authMessage [97, 110, 97] [120]))
      (fun sends => authRead ⟨5, 0⟩ { ({} : Env) with sends := sends }
        (subnegotiationServer (authMessage [97, 110, 97] [120])))
      authReadLoop [SOCKS5_SUBNEGOTIATION_VERSION, if ok then SOCKS5_AUTH_OK else SOCKS5_AUTH_ERROR]
      s₁ ∧
    ((ok = true ↔
        (subnegotiationServer (authMessage [97, 110, 97] [120])).users.Holds [97, 110, 97] [120]) ↔
      (subnegotiationServer (authMessage [97, 110, 97] [120])).users.Distinguishes [97, 110, 97]
        [120]) := by
  have hcalls : ∀ call ∈ [AuthCall.addUser [97, 110, 97] [120]], call.NulFree := by
    simp [AuthCall.NulFree]
  exact credentials_exact_iff {} hcalls rfl (subnegotiating_server _) ⟨by decide, by decide⟩
    ⟨by decide, by decide⟩ (List.append_nil _).symm (by decide)

/-- A zero byte and more behind the name of a user, with that user's password, is accepted. -/
theorem not_credentials_exact : ¬ ∀ (env : Env) (calls : List AuthCall) (key : SelectorKey)
    (s : Server) (k : Socks5Conn) (before after more name pass : List UInt8),
    (∀ call ∈ calls, call.NulFree) → s.users = (runCalls AuthCall.run calls authInit).2 →
    Subnegotiating key.data s k before after → IsField name → IsField pass →
    before ++ after = authMessage name pass ++ more →
    before.length < (authMessage name pass).length →
    ∃ s₁ ok, QueuesReply key .auth s (fun sends => authRead key { env with sends := sends } s)
        authReadLoop [SOCKS5_SUBNEGOTIATION_VERSION, if ok then SOCKS5_AUTH_OK else SOCKS5_AUTH_ERROR]
        s₁ ∧
      (ok = true ↔ s.users.Holds name pass) := by
  intro hall
  have hcalls : ∀ call ∈ [AuthCall.addUser [97, 110, 97] [120]], call.NulFree := by
    simp [AuthCall.NulFree]
  have hserver := subnegotiating_server (authMessage [97, 110, 97, 0, 122] [120])
  obtain ⟨s₁, ok, hanswers, hiff⟩ := hall {} [.addUser [97, 110, 97] [120]] ⟨5, 0⟩ _ _ [] _ []
    [97, 110, 97, 0, 122] [120] hcalls rfl hserver ⟨by decide, by decide⟩ ⟨by decide, by decide⟩
    (List.append_nil _).symm (by decide)
  obtain ⟨s₂, hanswers'⟩ := authRead_answers ⟨5, 0⟩ {} hserver ⟨by decide, by decide⟩
    ⟨by decide, by decide⟩ (List.append_nil _).symm (by decide)
  have hcheck : authCheckCredentials
      (subnegotiationServer (authMessage [97, 110, 97, 0, 122] [120])).users
      (text [97, 110, 97, 0, 122]) (text [120]) = true := by decide
  have hreply := hanswers.unique hanswers'
  have hok : ok = true := by
    cases ok with
    | true => rfl
    | false =>
      rw [hcheck] at hreply
      exact absurd hreply (by decide)
  obtain ⟨i, hmem⟩ := hiff.mp hok
  exact (runCalls_nulFree _ hcalls nulFree_authInit i _ hmem).1 0 (by decide) rfl

end Messages

end Socks5d
