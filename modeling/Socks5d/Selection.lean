import Socks5d.Answers
import Socks5d.Invariant
import Socks5d.Parser.Methods

/-!
# The selection of a method

The reply to a greeting, and the phase it leads to once it was sent whole. A greeting that lists a
method the parser does not know gets no reply, whatever else it lists.
-/

namespace Socks5d

open Fallible Feeding

/-- User and password before no authentication, and otherwise none. -/
def selectedMethod (methods : List UInt8) : UInt8 :=
  if SOCKS5_AUTH_METHOD_USER_PASS ∈ methods then SOCKS5_AUTH_METHOD_USER_PASS
  else if SOCKS5_AUTH_METHOD_NO_AUTH ∈ methods then SOCKS5_AUTH_METHOD_NO_AUTH
  else SOCKS5_AUTH_METHOD_NO_ACCEPTABLE

/-- The method the code answers with. -/
def HandshakeParser.method (p : HandshakeParser) : UInt8 :=
  if p.userPassAuth then SOCKS5_AUTH_METHOD_USER_PASS
  else if p.noAuth then SOCKS5_AUTH_METHOD_NO_AUTH
  else SOCKS5_AUTH_METHOD_NO_ACCEPTABLE

theorem HandshakeParser.Offered.method_eq {p : HandshakeParser} {methods : List UInt8}
    (h : p.Offered methods) : p.method = selectedMethod methods :=
  if_congr h.userPassAuth rfl (if_congr h.noAuth rfl rfl)

/-- A connection in the handshake: its parser goes on after the bytes it was fed, the others wait in
`in_buff`, and nothing is left to send. -/
structure Negotiating (c : ConnId) (s : Server) (v : View) (before after : List UInt8) : Prop where
  owned : Owned none s
  view : s.view c = some v
  phase : v.phase = some .handshake
  parser : v.conn.handshakeParser = some (feedAll handshakeParserFeed handshakeParserInit before)
  goes : handshakeParserInit.Goes before
  unread : v.conn.inBuff.content = after
  originFd : v.conn.originFd = 0
  tokens : v.tokens = 0
  outBuff : v.conn.outBuff.content = []
  capacity : HANDSHAKE_RESPONSE_SIZE ≤ v.conn.outBuff.capacity

/-- Where the reply with this method leads. -/
def Follows (c : ConnId) (method : UInt8) (s : Server) : Prop :=
  if method = SOCKS5_AUTH_METHOD_USER_PASS then s.stms c = some ⟨some .auth⟩
  else if method = SOCKS5_AUTH_METHOD_NO_AUTH then s.stms c = some ⟨some .connectionReq⟩
  else s.conns c = none ∧ s.stms c = none

/-- `handshake_read` queues the reply with this method and no other, and the reply leads on when
both its bytes are sent. -/
def Selects (key : SelectorKey) (env : Env) (s : Server) (method : UInt8) : Prop :=
  ∃ s₁, QueuesReply key .handshake s (fun sends => handshakeRead key { env with sends := sends } s)
      handshakeReadLoop [SOCKS5_VERSION, method] s₁ ∧
    ∀ n, 1 ≤ n → ∃ s₂, socksv5Write key (.accepted n) s₁ = .ok s₂ ∧ Follows key.data method s₂

section Loop

variable {mode : Mode} {c : ConnId} {s₀ s : Server} {v : View} {key : SelectorKey}
  {p : HandshakeParser}

/-- One pass of the loop, up to the verdict. -/
theorem Tracks.handshakeReadLoop_pass (key : SelectorKey) (h : Tracks mode false c s₀ v s)
    (hkey : key.data = c)
    (hp : v.conn.handshakeParser = some p) {byte : UInt8} {more : List UInt8}
    (hcontent : v.conn.inBuff.content = byte :: more) :
    ∃ inBuff s', inBuff.content = more ∧ s'.trace = s.trace ∧ s'.junk = s.junk ∧
      Tracks mode false c s₀ (v.greeted inBuff (handshakeParserFeed p byte).1) s' ∧
      ((handshakeParserFeed p byte).2.Pending → ∀ bound sends,
        Socks5d.handshakeReadLoop (bound + 1) key sends s = Socks5d.handshakeReadLoop bound key sends s') ∧
      ((handshakeParserFeed p byte).2 = .error → ∀ bound sends,
        Socks5d.handshakeReadLoop (bound + 1) key sends s = .ok (.error, s')) := by
  subst hkey
  have hne : v.conn.inBuff.content ≠ [] := by simp [hcontent]
  obtain ⟨b, inBuff, hread, hrest, -⟩ := bufferRead_cons hne
  obtain ⟨rfl, hmore⟩ := List.cons.inj (hcontent.symm.trans hrest)
  have hcan := (Buffer.bufferCanRead_iff _).mpr hne
  refine ⟨inBuff, s.setConn key.data
    { v.conn with inBuff := inBuff, handshakeParser := some (handshakeParserFeed p byte).1 },
    hmore.symm, rfl, rfl, h.setConn _ rfl rfl rfl, ?_, ?_⟩
  · intro hpending bound sends
    rw [Socks5d.handshakeReadLoop]
    simp only [h.conn_eq, ok_bind, hcan, Bool.not_true, Bool.false_eq_true, if_false, hread, hp]
    rcases hfeed : handshakeParserFeed p byte with ⟨p', state⟩
    rw [hfeed] at hpending
    cases state with
    | done => exact absurd rfl hpending.1
    | error => exact absurd rfl hpending.2
    | _ => rfl
  · intro herror bound sends
    rw [Socks5d.handshakeReadLoop]
    simp only [h.conn_eq, ok_bind, hcan, Bool.not_true, Bool.false_eq_true, if_false, hread, hp]
    rcases hfeed : handshakeParserFeed p byte with ⟨p', state⟩
    rw [hfeed] at herror
    dsimp only at herror
    subst herror
    rfl

/-- The loop takes bytes that end nothing. -/
theorem Tracks.handshakeReadLoop_goes (key : SelectorKey) (front : List UInt8)
    (h : Tracks mode false c s₀ v s) (hkey : key.data = c) (hp : v.conn.handshakeParser = some p) {rest : List UInt8}
    (hcontent : v.conn.inBuff.content = front ++ rest) (hgoes : p.Goes front) :
    ∃ inBuff s', inBuff.content = rest ∧ s'.trace = s.trace ∧ s'.junk = s.junk ∧
      Tracks mode false c s₀ (v.greeted inBuff (feedAll handshakeParserFeed p front)) s' ∧
      ∀ bound sends, Socks5d.handshakeReadLoop (bound + front.length) key sends s =
        Socks5d.handshakeReadLoop bound key sends s' := by
  induction front generalizing v s p with
  | nil =>
    have hsame : v.greeted v.conn.inBuff p = v := by rw [View.greeted, ← hp]
    exact ⟨v.conn.inBuff, s, hcontent, rfl, rfl, by rwa [feedAll_nil, hsame], fun _ _ => rfl⟩
  | cons b front ih =>
    obtain ⟨inBuff, s', hrest, htrace, hjunk, h', hpass, -⟩ := h.handshakeReadLoop_pass key hkey hp hcontent
    have hgoes' : (handshakeParserFeed p b).1.Goes front := fun w hw =>
      hgoes w (by rw [verdicts_cons]; exact List.mem_cons_of_mem _ hw)
    obtain ⟨inBuff', s'', hrest', htrace', hjunk', h'', hloop⟩ := ih h' rfl hrest hgoes'
    refine ⟨inBuff', s'', hrest', htrace'.trans htrace, hjunk'.trans hjunk, h'', fun bound sends => ?_⟩
    rw [List.length_cons, ← Nat.add_assoc, hpass (hgoes _ (by simp)), hloop]

/-- The two bytes of a reply. -/
theorem handshakeReply_eq (p : HandshakeParser) (junk : Memory) :
    handshakeReply p junk = [SOCKS5_VERSION, p.method] := rfl

/-- The state in which the reply to a greeting is about to be sent. -/
structure AboutToReply (v w : View) (p : HandshakeParser) (reply : List UInt8) : Prop where
  phase : w.phase = some .handshake
  parser : w.conn.handshakeParser = some p
  tokens : w.tokens = v.tokens
  unread : w.conn.inBuff.content = []
  outBuff : w.conn.outBuff.content = reply
  refuses : w.conn.isErrorResponse = p.refuses

/-- The last byte of a greeting queues its reply. -/
theorem Tracks.handshakeReadLoop_done (h : Tracks mode false c s₀ v s)
    (hkey : key = ⟨v.conn.clientFd, c⟩) (hphase : v.phase = some .handshake)
    (hp : v.conn.handshakeParser = some p) {byte : UInt8} (hcontent : v.conn.inBuff.content = [byte])
    (hout : v.conn.outBuff.content = []) (hcapacity : HANDSHAKE_RESPONSE_SIZE ≤ v.conn.outBuff.capacity)
    {p' : HandshakeParser} (hfeed : handshakeParserFeed p byte = (p', .done)) :
    ∃ s₁ w, Tracks mode false c s₀ w s₁ ∧ AboutToReply v w p' (handshakeReply p' s.junk) ∧
      s₁.trace = s.trace ++ [.queued c .handshake (handshakeReply p' s.junk)] ∧
      ∀ bound sends, Socks5d.handshakeReadLoop (bound + 1) key sends s =
        Socks5d.socksv5Write key (sends.headD .wouldBlock) s₁ >>=
          Socks5d.handshakeReadLoop bound key sends.tail := by
  subst hkey
  have hne : v.conn.inBuff.content ≠ [] := by simp [hcontent]
  obtain ⟨b, inBuff, hread, hrest, -⟩ := bufferRead_cons hne
  obtain ⟨rfl, hmore⟩ := List.cons.inj (hcontent.symm.trans hrest)
  have hcan := (Buffer.bufferCanRead_iff _).mpr hne
  have h₁ : Tracks mode false c s₀ (v.greeted inBuff p')
      (s.setConn c { v.conn with inBuff := inBuff, handshakeParser := some p' }) :=
    h.setConn _ rfl rfl rfl
  obtain ⟨s₂, w, hs₂, hqueued, h₂⟩ := h₁.queueReply .handshake (handshakeReply p' s.junk)
  obtain ⟨houtBuff, -, -⟩ := hqueued.of_empty hout (List.cons_ne_nil _ _) hcapacity
  obtain ⟨hconn, -, hwphase, -, -, htokens⟩ := hqueued.fields
  have hclient : w.conn.clientFd = v.conn.clientFd := by rw [hconn]; rfl
  have hroom : (handshakeReply p' s.junk).length ≤ v.conn.outBuff.space := by
    rw [Buffer.space_of_content_nil _ hout]
    exact hcapacity
  obtain ⟨s₂', buff, hs₂', hleaves, -⟩ := queueReply_of_room (k := (v.greeted inBuff p').conn)
    .handshake (List.cons_ne_nil _ _) conns_setConn hroom
  obtain rfl := Except.ok.inj (hs₂'.symm.trans hs₂)
  have h₃ := h₂.armClient OP_WRITE
  have h₄ := h₃.setConn { w.conn with isErrorResponse := p'.refuses } rfl rfl rfl
  have hparser : w.conn.handshakeParser = some p' := by rw [hconn]; rfl
  have hin : w.conn.inBuff = inBuff := by rw [hconn]; rfl
  have hempty : w.conn.inBuff.content = [] := by rw [hin]; exact hmore.symm
  refine ⟨_, _, h₄, ⟨hwphase.trans hphase, hparser, htokens, hempty, houtBuff, rfl⟩,
    hleaves.trace, ?_⟩
  intro bound sends
  rw [Socks5d.handshakeReadLoop]
  simp only [h.conn_eq, ok_bind, hcan, Bool.not_true, Bool.false_eq_true, if_false, hread, hp, hfeed]
  have hreply : (s.setConn c { v.conn with inBuff := inBuff, handshakeParser := some p' }).queueReply c
      .handshake ((createHandshakeResponse p'.noAuth p'.userPassAuth
        (s.setConn c { v.conn with inBuff := inBuff, handshakeParser := some p' }).junk).bytes
        HANDSHAKE_RESPONSE_SIZE) = .ok s₂' := hs₂
  rw [hclient] at h₃
  rw [hreply, ok_bind, h₃.conn_eq, ok_bind, hclient]
  rfl

/-- A reply sent whole leads on by its method. -/
theorem Tracks.follows {w : View} {reply : List UInt8} (h : Tracks mode false c s₀ w s)
    (hkey : key.data = c) (hreply : AboutToReply v w p reply) (htokens : v.tokens = 0)
    (hne : reply ≠ []) (n : ℕ) :
    ∃ s', Socks5d.socksv5Write key (.accepted n) s = .ok s' ∧
      Follows c p.method s' := by
  have hleft : w.conn.outBuff.content ≠ [] := by rw [hreply.outBuff]; exact hne
  obtain ⟨s', r, hs', hwrote, hlands⟩ := h.socksv5Write hkey (.accepted n) hreply.phase (.inr rfl)
    (by simp [View.Equipped, hreply.parser]) (hreply.tokens.trans htokens)
    (fun _ _ => .inr (.inr hreply.unread))
  refine ⟨s', hs', ?_⟩
  rw [HandshakeParser.method]
  obtain ⟨left, -, -, hadvance⟩ := hwrote.of_accepted hleft (by simp [hreply.phase])
  have hrefuses : (w.sent c n left).conn.isErrorResponse = !(p.noAuth || p.userPassAuth) :=
    hreply.refuses
  cases hadvance with
  | refused state _ _ herror =>
    rw [hrefuses, Bool.not_eq_true', Bool.or_eq_false_iff] at herror
    have hgone : Released mode c s₀ _ s' := hlands
    rw [herror.1, herror.2]
    exact ⟨hgone.conns, hgone.stms⟩
  | auth q hphase herror hparser hmethod =>
    obtain rfl := Option.some.inj (hreply.parser.symm.trans hparser)
    have hstms := (view_eq_some_iff.mp (Tracks.view hlands)).2.1
    rw [hmethod]
    exact hstms
  | connectionReq state hphase herror hstate =>
    obtain rfl := Option.some.inj (hreply.phase.symm.trans hphase)
    obtain ⟨q, hparser, hmethod⟩ := (hstate.resolve_left (by simp)).2
    obtain rfl := Option.some.inj (hreply.parser.symm.trans hparser)
    rw [hrefuses, hmethod, Bool.or_false, Bool.not_eq_false'] at herror
    have hstms := (view_eq_some_iff.mp (Tracks.view hlands)).2.1
    rw [hmethod, herror]
    exact hstms
  | copy state relay hphase herror hstate =>
    obtain rfl := Option.some.inj (hreply.phase.symm.trans hphase)
    simp at hstate

end Loop

section Greetings

variable {c : ConnId} {s : Server} {v : View} {before after methods : List UInt8} {n : UInt8}

/-- A connection without an `origin_fd` can be followed from here. -/
theorem Negotiating.start (h : Negotiating c s v before after) :
    Tracks ⟨false, false⟩ false c s v s := by
  apply Tracks.start _ h.owned h.view
  · intro htidy
    cases htidy
  · intro fd i hi
    obtain ⟨hused, hhandler, -, hdata, -⟩ := relayOf_eq_some_iff.mp hi
    have hreg := (h.owned.registered fd hused).2
    generalize s.selector.fds fd = item at hreg hhandler hdata
    cases hreg with
    | listener handler j howner hpassive => cases hdata
    | client d j howner => cases hhandler
    | relay d handler j hrelay howner horigin hknown =>
      obtain rfl := Option.some.inj hdata
      exact absurd h.originFd (horigin v.conn (view_eq_some_iff.mp h.view).1)
    | admin j howner => cases hdata

/-- With known methods only, the greeting is answered by the selected one. -/
theorem Negotiating.selects (h : Negotiating c s v before after) (env : Env) (hn : n ≠ 0)
    (hlen : methods.length = n.toNat) (hgreeting : before ++ after = greeting n methods)
    (hknown : ∀ m ∈ methods, isValidSocks5AuthMethod m = true) :
    Selects ⟨v.conn.clientFd, c⟩ env s (selectedMethod methods) := by
  have hpos : n.toNat ≠ 0 := fun h0 => hn (UInt8.toNat_inj.mp h0)
  obtain ⟨front, last, rfl⟩ : ∃ front last, methods = front ++ [last] :=
    ⟨_, _, (List.dropLast_concat_getLast (List.ne_nil_of_length_pos (by omega))).symm⟩
  rw [List.length_append, List.length_singleton] at hlen
  obtain ⟨hgoes, hat⟩ := feed_greeting n (by omega : front.length < n.toNat)
    (fun m hm => hknown m (List.mem_append_left _ hm))
  obtain ⟨hverdict, hend⟩ := hat.feed (m := last) (by omega) (hknown last (by simp))
  rw [if_pos hlen] at hverdict
  have hsplit : before ++ after = greeting n front ++ [last] := hgreeting
  -- the parser was not fed the last method yet
  have hafter : after ≠ [] := by
    rintro rfl
    rw [List.append_nil] at hsplit
    have hpending := h.goes .done (by rw [hsplit, verdicts_append]; simp [hverdict])
    exact hpending.1 rfl
  obtain ⟨mid, b, rfl⟩ : ∃ mid b, after = mid ++ [b] :=
    ⟨_, _, (List.dropLast_concat_getLast hafter).symm⟩
  rw [← List.append_assoc] at hsplit
  obtain ⟨hfront, hlast⟩ := List.append_inj' hsplit rfl
  obtain rfl := List.singleton_inj.mp hlast
  rw [← hfront] at hgoes hverdict hend
  obtain ⟨inBuff, s', hrest, htrace, hjunk, h', hloop⟩ :=
    h.start.handshakeReadLoop_goes ⟨v.conn.clientFd, c⟩ mid rfl h.parser h.unread hgoes.rest
  rw [← feedAll_append] at h'
  obtain ⟨p', state, hfeed⟩ : ∃ p' state, handshakeParserFeed
      (feedAll handshakeParserFeed handshakeParserInit (before ++ mid)) b = (p', state) :=
    ⟨_, _, rfl⟩
  rw [hfeed] at hverdict hend
  dsimp only at hverdict hend
  subst hverdict
  obtain ⟨s₁, w, h₁, hreply, htrace₁, hdone⟩ := h'.handshakeReadLoop_done rfl h.phase rfl hrest
    h.outBuff h.capacity hfeed
  rw [handshakeReply_eq, hend.offered.method_eq] at hreply htrace₁
  have hqueued : queuedReplies c .handshake s₁.trace =
      queuedReplies c .handshake s.trace ++ [[SOCKS5_VERSION, selectedMethod (front ++ [b])]] := by
    rw [htrace₁, htrace, queuedReplies_append]
    simp [queuedReplies]
  have hsends : ∀ sends, handshakeRead ⟨v.conn.clientFd, c⟩ { env with sends := sends } s =
      socksv5Write ⟨v.conn.clientFd, c⟩ (sends.headD .wouldBlock) s₁ >>=
        handshakeReadLoop 0 ⟨v.conn.clientFd, c⟩ sends.tail := by
    intro sends
    rw [handshakeRead, h.start.conn_eq, ok_bind, h.unread, List.length_append, List.length_singleton,
      Nat.add_comm, hloop]
    exact hdone 0 sends
  have hstart := (view_eq_some_iff.mp h₁.view)
  refine ⟨s₁, ⟨hqueued, ⟨0, hsends⟩, .handshake, s₁.setErrno .eagain, ?_, hqueued⟩, fun m _ => ?_⟩
  · rw [hsends, List.headD_nil, socksv5Write_blocked hstart.1 (by simp [hreply.outBuff]), ok_bind]
    have hblocked := h₁.setErrno .eagain
    rw [List.tail_nil, handshakeReadLoop]
    simp [hblocked.conn_eq, hblocked.currentState_eq hreply.phase]
  · rw [← hend.offered.method_eq] at hreply ⊢
    exact h₁.follows rfl hreply h.tokens (List.cons_ne_nil _ _) m

/-- A list that does not hold throughout has a first element where it fails. -/
theorem exists_first_unknown (h : ¬ ∀ m ∈ methods, isValidSocks5AuthMethod m = true) :
    ∃ known m more, methods = known ++ m :: more ∧
      (∀ x ∈ known, isValidSocks5AuthMethod x = true) ∧ isValidSocks5AuthMethod m = false := by
  induction methods with
  | nil => exact absurd (fun m hm => by cases hm) h
  | cons a rest ih =>
    by_cases ha : isValidSocks5AuthMethod a = true
    · have hrest : ¬ ∀ m ∈ rest, isValidSocks5AuthMethod m = true := fun hall =>
        h (List.forall_mem_cons.mpr ⟨ha, hall⟩)
      obtain ⟨known, m, more, rfl, hknown, hm⟩ := ih hrest
      exact ⟨a :: known, m, more, rfl, List.forall_mem_cons.mpr ⟨ha, hknown⟩, hm⟩
    · exact ⟨[], a, rest, rfl, by simp, by simpa using ha⟩

/-- An unknown method ends the handshake without a reply. -/
theorem Negotiating.not_selects (h : Negotiating c s v before after) (env : Env)
    (hlen : methods.length = n.toNat) (hgreeting : before ++ after = greeting n methods)
    (hunknown : ¬ ∀ m ∈ methods, isValidSocks5AuthMethod m = true) (method : UInt8) :
    ¬ Selects ⟨v.conn.clientFd, c⟩ env s method := by
  obtain ⟨known, m, more, rfl, hknown, hm⟩ := exists_first_unknown hunknown
  rw [List.length_append, List.length_cons] at hlen
  obtain ⟨hgoes, hat⟩ := feed_greeting n (by omega : known.length < n.toNat) hknown
  have hrefused := hat.feed_unknown hm
  have hgreeting' : before ++ after = greeting n known ++ (m :: more) := hgreeting
  obtain ⟨mid, hmid, rfl⟩ : ∃ mid, before ++ mid = greeting n known ∧ after = mid ++ m :: more := by
    rcases List.append_eq_append_iff.mp hgreeting' with ⟨mid, hmid, hafter⟩ | ⟨fed, hfed, hrest⟩
    · exact ⟨mid, hmid.symm, hafter⟩
    · -- the parser was not fed the unknown method yet
      cases fed with
      | nil => exact ⟨[], by simpa using hfed, by simpa using hrest.symm⟩
      | cons b fed =>
        obtain ⟨rfl, -⟩ := List.cons.inj hrest
        have hverdict := h.goes (handshakeParserFeed
          (feedAll handshakeParserFeed handshakeParserInit (greeting n known)) m).2
          (by rw [hfed, verdicts_append]; simp)
        exact absurd hrefused hverdict.2
  rw [← hmid] at hgoes hrefused
  obtain ⟨inBuff, s', hrest, htrace, -, h', hloop⟩ :=
    h.start.handshakeReadLoop_goes ⟨v.conn.clientFd, c⟩ mid rfl h.parser h.unread hgoes.rest
  rw [← feedAll_append] at h'
  obtain ⟨-, s'', -, htrace', -, -, -, herror⟩ :=
    h'.handshakeReadLoop_pass ⟨v.conn.clientFd, c⟩ rfl rfl hrest
  rintro ⟨s₁, hanswers, -⟩
  obtain ⟨state, s₂, hread, hqueued⟩ := hanswers.blocked
  have hlength : (mid ++ m :: more).length = more.length + 1 + mid.length := by
    simp only [List.length_append, List.length_cons]
    omega
  rw [handshakeRead, h.start.conn_eq, ok_bind, h.unread, hlength, hloop, herror hrefused] at hread
  obtain ⟨-, rfl⟩ := Prod.mk.inj (Except.ok.inj hread)
  rw [htrace', htrace] at hqueued
  simp at hqueued

/-- The method is selected as RFC 1928 has it exactly when the parser knows all methods offered. -/
theorem method_selected_iff (env : Env) (h : Negotiating c s v before after) (hn : n ≠ 0)
    (hlen : methods.length = n.toNat) (hgreeting : before ++ after = greeting n methods) :
    Selects ⟨v.conn.clientFd, c⟩ env s (selectedMethod methods) ↔
      ∀ m ∈ methods, isValidSocks5AuthMethod m = true := by
  constructor
  · intro hselects
    by_contra hunknown
    exact h.not_selects env hlen hgreeting hunknown _ hselects
  · exact h.selects env hn hlen hgreeting

/-- In a reachable state a connection whose client waits to read in the handshake is one. -/
theorem Reachable.negotiating (h : Reachable s) (hview : s.view c = some v)
    (hphase : v.phase = some .handshake) (hready : v.interest.read = true)
    (hparser : v.conn.handshakeParser = some (feedAll handshakeParserFeed handshakeParserInit before))
    (hgoes : handshakeParserInit.Goes before) : Negotiating c s v before [] := by
  have hok := h.inv.ok c v hview
  have hphaseOk := hok.phase
  unfold View.PhaseOk at hphaseOk
  rw [hphase] at hphaseOk
  obtain ⟨hearly, harmed, -⟩ := hphaseOk
  exact ⟨h.inv.owned, hview, hphase, hparser, hgoes, hearly.inBuff, hearly.originFd, hearly.tokens,
    harmed.outBuff_eq_nil hready, le_trans (by decide) hok.outCapacity⟩

/-- The next bytes of the client may be any. -/
theorem Negotiating.received (h : Negotiating c s v before []) (bytes : List UInt8) :
    Negotiating c (s.setConn c { v.conn with inBuff := .holding bytes })
      { v with conn := { v.conn with inBuff := .holding bytes } } before bytes := by
  have h' := h.start.setConn { v.conn with inBuff := .holding bytes } rfl rfl rfl
  exact ⟨h'.owned, h'.view, h.phase, h.parser, h.goes, by simp [Buffer.content, Buffer.holding],
    h.originFd, h.tokens, h.outBuff, h.capacity⟩

/-- The first client has sent the version of its greeting. -/
theorem negotiating_version : ∃ s v, Negotiating 0 s v [SOCKS5_VERSION] [] := by
  obtain ⟨s, hs, hcheck⟩ := reachable_of_after [arrives, .readable 2 { recv := .data 5 [] }]
    (fun s => (s.view 0).any fun v => v.phase == some .handshake && v.interest.read &&
      v.conn.handshakeParser ==
        some (feedAll handshakeParserFeed handshakeParserInit [SOCKS5_VERSION]))
    (by decide +kernel)
  simp only [Option.any_eq_true, Bool.and_eq_true, beq_iff_eq] at hcheck
  obtain ⟨v, hview, ⟨hphase, hready⟩, hparser⟩ := hcheck
  refine ⟨s, v, hs.negotiating hview hphase hready hparser ?_⟩
  exact HandshakeParser.goes_byte (v := .version) rfl (by decide)

/-- Both supported methods are offered. -/
theorem method_selected_both : ∃ s v, Negotiating 0 s v [SOCKS5_VERSION] [2, 0, 2] ∧
    (Selects ⟨v.conn.clientFd, 0⟩ {} s (selectedMethod [0, 2]) ↔
      ∀ m ∈ [0, 2], isValidSocks5AuthMethod m = true) := by
  obtain ⟨s, v, h⟩ := negotiating_version
  exact ⟨_, _, h.received [2, 0, 2],
    method_selected_iff (n := 2) {} (h.received [2, 0, 2]) (by decide) rfl rfl⟩

/-- A client that offers user and password next to another method gets no reply. -/
theorem not_method_selected : ¬ ∀ (env : Env) (c : ConnId) (s : Server) (v : View)
    (before after methods : List UInt8) (n : UInt8), Negotiating c s v before after → n ≠ 0 →
    methods.length = n.toNat → before ++ after = greeting n methods →
    Selects ⟨v.conn.clientFd, c⟩ env s (selectedMethod methods) := by
  intro hall
  obtain ⟨s, v, h⟩ := negotiating_version
  have hoffered := h.received [2, 128, 2]
  have hlen : ([128, 2] : List UInt8).length = (2 : UInt8).toNat := rfl
  exact hoffered.not_selects {} hlen rfl (by decide +kernel) _
    (hall {} 0 _ _ _ _ [128, 2] 2 hoffered (by decide) hlen rfl)

end Greetings

end Socks5d
