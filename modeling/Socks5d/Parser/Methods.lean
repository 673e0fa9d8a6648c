import Socks5d.Lib.Feeding
import Socks5d.Parser.Handshake

/-!
# The greetings of `handshake_parser.c`

The parser counts the methods it has read against the number announced and keeps a flag for each
of the two it supports. A method it does not know is refused at once, whatever the others are.
-/

namespace Socks5d

open Feeding

/-- One byte through the table, by the row of the current state. -/
theorem parserFeed_handshake (q : Parser HandshakeState) (byte : UInt8) :
    parserFeed handshakeParserDefinition q byte =
      match q.state with
      | .version =>
        if byte = SOCKS5_VERSION then ⟨.nmethods, ⟨.version, byte⟩⟩ else ⟨.error, ⟨.error, byte⟩⟩
      | .nmethods => ⟨.methods, ⟨.nmethods, byte⟩⟩
      | .methods => ⟨.methods, ⟨.methods, byte⟩⟩
      | .done => ⟨.done, ⟨.done, byte⟩⟩
      | .error => ⟨.error, ⟨.error, byte⟩⟩ := by
  obtain ⟨state, e1⟩ := q
  cases state with
  | version =>
    by_cases hb : byte = SOCKS5_VERSION
    · subst hb; rfl
    · simp [parserFeed, ParserDefinition.row, handshakeParserDefinition, HandshakeState.index,
        HandshakeState.versionTransitions, hb, HandshakeState.act]
  | nmethods => rfl
  | methods => rfl
  | done => rfl
  | error => rfl

/-- The greeting `05 n methods`. -/
def greeting (n : UInt8) (methods : List UInt8) : List UInt8 := SOCKS5_VERSION :: n :: methods

def HandshakeState.Pending (state : HandshakeState) : Prop := state ≠ .done ∧ state ≠ .error

instance : DecidablePred HandshakeState.Pending := fun _ => inferInstanceAs (Decidable (_ ∧ _))

/-- The flags say which of the supported methods were offered. -/
structure HandshakeParser.Offered (p : HandshakeParser) (methods : List UInt8) : Prop where
  noAuth : p.noAuth = true ↔ SOCKS5_AUTH_METHOD_NO_AUTH ∈ methods
  userPassAuth : p.userPassAuth = true ↔ SOCKS5_AUTH_METHOD_USER_PASS ∈ methods

/-- The parser has read these methods of those announced. -/
structure HandshakeParser.AtMethods (p : HandshakeParser) (n : UInt8) (methods : List UInt8) :
    Prop where
  state : p.parser.state = .methods
  nmethods : p.nmethods = n
  methodCount : p.methodCount.toNat = methods.length
  offered : p.Offered methods

/-- No byte of these bytes ends the greeting. -/
abbrev HandshakeParser.Goes (p : HandshakeParser) (bytes : List UInt8) : Prop :=
  Feeding.Goes handshakeParserFeed HandshakeState.Pending p bytes

section Steps

variable {p : HandshakeParser} {n m : UInt8} {methods : List UInt8}

theorem HandshakeParser.goes_byte {v : HandshakeState} (hv : (handshakeParserFeed p m).2 = v)
    (hpending : v.Pending) : p.Goes [m] := goes_singleton hv hpending

theorem offered_append (h : p.Offered methods) : HandshakeParser.Offered
    { p with
      noAuth := p.noAuth || m == SOCKS5_AUTH_METHOD_NO_AUTH
      userPassAuth := p.userPassAuth || m == SOCKS5_AUTH_METHOD_USER_PASS } (methods ++ [m]) := by
  constructor
  · rw [Bool.or_eq_true, h.noAuth, List.mem_append, List.mem_singleton, beq_iff_eq, eq_comm]
  · rw [Bool.or_eq_true, h.userPassAuth, List.mem_append, List.mem_singleton, beq_iff_eq, eq_comm]

/-- A known method is counted and noted; the last one ends the greeting. -/
theorem HandshakeParser.AtMethods.feed (h : p.AtMethods n methods) (hroom : methods.length < n.toNat)
    (hm : isValidSocks5AuthMethod m = true) :
    (handshakeParserFeed p m).2 = (if methods.length + 1 = n.toNat then .done else .methods) ∧
      (handshakeParserFeed p m).1.AtMethods n (methods ++ [m]) := by
  have hlt := n.toNat_lt
  have hcount : (p.methodCount + 1).toNat = methods.length + 1 := by
    rw [UInt8.toNat_add, h.methodCount, UInt8.toNat_one]
    omega
  have hnot : ¬ p.nmethods < p.methodCount + 1 := by
    rw [UInt8.lt_iff_toNat_lt, hcount, h.nmethods]
    omega
  have hlast : (p.nmethods == p.methodCount + 1) = decide (methods.length + 1 = n.toNat) := by
    rw [Bool.eq_iff_iff, beq_iff_eq, decide_eq_true_eq, ← UInt8.toNat_inj, hcount, h.nmethods, eq_comm]
  simp only [handshakeParserFeed, parserFeed_handshake, h.state, hm, hnot, hlast, Bool.not_true,
    Bool.false_eq_true, if_false, decide_eq_true_eq]
  have hoffered := offered_append (m := m) h.offered
  split
  · exact ⟨rfl, rfl, h.nmethods, by simp [hcount], hoffered.noAuth, hoffered.userPassAuth⟩
  · exact ⟨rfl, rfl, h.nmethods, by simp [hcount], hoffered.noAuth, hoffered.userPassAuth⟩

/-- An unknown method is refused. -/
theorem HandshakeParser.AtMethods.feed_unknown (h : p.AtMethods n methods)
    (hm : isValidSocks5AuthMethod m = false) : (handshakeParserFeed p m).2 = .error := by
  simp only [handshakeParserFeed, parserFeed_handshake, h.state, hm, Bool.not_false, if_true]

/-- Known methods, but not all that were announced. -/
theorem HandshakeParser.AtMethods.feedAll (h : p.AtMethods n methods) (more : List UInt8)
    (hroom : methods.length + more.length < n.toNat)
    (hmore : ∀ m ∈ more, isValidSocks5AuthMethod m = true) :
    p.Goes more ∧ (Feeding.feedAll handshakeParserFeed p more).AtMethods n (methods ++ more) := by
  induction more generalizing p methods with
  | nil => exact ⟨goes_nil p, by simpa using h⟩
  | cons m rest ih =>
    rw [List.length_cons] at hroom
    obtain ⟨hverdict, hnext⟩ := h.feed (by omega) (hmore m List.mem_cons_self)
    rw [if_neg (by omega)] at hverdict
    obtain ⟨hgoes, hrest⟩ := ih hnext (by rw [List.length_append, List.length_singleton]; omega)
      (fun m hm => hmore m (List.mem_cons_of_mem _ hm))
    exact ⟨(HandshakeParser.goes_byte hverdict (by decide)).append hgoes, by simpa using hrest⟩

/-- The front of a greeting with known methods only. -/
theorem feed_greeting (n : UInt8) (hroom : methods.length < n.toNat)
    (hmethods : ∀ m ∈ methods, isValidSocks5AuthMethod m = true) :
    handshakeParserInit.Goes (greeting n methods) ∧
      (feedAll handshakeParserFeed handshakeParserInit (greeting n methods)).AtMethods n methods := by
  have hfirst : handshakeParserFeed handshakeParserInit SOCKS5_VERSION =
      ({ handshakeParserInit with parser := ⟨.nmethods, ⟨.version, SOCKS5_VERSION⟩⟩ }, .version) := rfl
  have hstart : (handshakeParserFeed (handshakeParserFeed handshakeParserInit SOCKS5_VERSION).1
      n).1.AtMethods n [] := by
    rw [hfirst]
    exact ⟨rfl, rfl, rfl, iff_of_false Bool.false_ne_true List.not_mem_nil,
      iff_of_false Bool.false_ne_true List.not_mem_nil⟩
  have hgoes : handshakeParserInit.Goes [SOCKS5_VERSION, n] := by
    have hversion := HandshakeParser.goes_byte (v := .version) (congrArg Prod.snd hfirst) (by decide)
    exact hversion.append (HandshakeParser.goes_byte (v := .nmethods) rfl (by decide))
  obtain ⟨hgoes', hat⟩ := hstart.feedAll methods (by simpa using hroom) hmethods
  exact ⟨hgoes.append hgoes', hat⟩

end Steps

/-- What is decoded from a greeting, fed byte by byte. -/
structure GreetingDecoded (n : UInt8) (methods : List UInt8) : Prop where
  /-- The first unknown method is refused, and nothing ended before it. -/
  refused : ∀ before m after, methods = before ++ m :: after →
    (∀ x ∈ before, isValidSocks5AuthMethod x = true) → isValidSocks5AuthMethod m = false →
    FirstReturns handshakeParserFeed handshakeParserInit (greeting n methods) .error
        (before.length + 3) ∧
      .done ∉ verdicts handshakeParserFeed handshakeParserInit (greeting n before)
  accepted : (∀ x ∈ methods, isValidSocks5AuthMethod x = true) →
    FirstReturns handshakeParserFeed handshakeParserInit (greeting n methods) .done
        (greeting n methods).length ∧
      .error ∉ verdicts handshakeParserFeed handshakeParserInit (greeting n methods) ∧
      (feedAll handshakeParserFeed handshakeParserInit (greeting n methods)).Offered methods

/-- A greeting of known methods is decoded on its last byte; an unknown method or version is
refused where it stands. -/
theorem greeting_decoded : (∀ n methods, n ≠ 0 → methods.length = n.toNat → GreetingDecoded n methods) ∧
    ∀ v rest, v ≠ SOCKS5_VERSION →
      FirstReturns handshakeParserFeed handshakeParserInit (v :: rest) .error 1 := by
  constructor
  · intro n methods hn hlen
    constructor
    · rintro before m after rfl hbefore hm
      rw [List.length_append, List.length_cons] at hlen
      obtain ⟨hgoes, hat⟩ := feed_greeting n (by omega : before.length < n.toNat) hbefore
      refine ⟨⟨greeting n before, m, after, rfl, rfl, hat.feed_unknown hm, ?_⟩, ?_⟩
      · exact fun herror => (hgoes _ herror).2 rfl
      · exact fun hdone => (hgoes _ hdone).1 rfl
    · intro hmethods
      have hpos : n.toNat ≠ 0 := fun h0 => hn (UInt8.toNat_inj.mp h0)
      obtain ⟨front, last, rfl⟩ : ∃ front last, methods = front ++ [last] :=
        ⟨_, _, (List.dropLast_concat_getLast (List.ne_nil_of_length_pos (by omega))).symm⟩
      rw [List.length_append, List.length_singleton] at hlen
      obtain ⟨hgoes, hat⟩ := feed_greeting n (by omega : front.length < n.toNat)
        (fun m hm => hmethods m (List.mem_append_left _ hm))
      obtain ⟨hverdict, hend⟩ := hat.feed (m := last) (by omega) (hmethods last (by simp))
      rw [if_pos hlen] at hverdict
      have hsplit : greeting n (front ++ [last]) = greeting n front ++ [last] := rfl
      rw [hsplit, feedAll_append]
      refine ⟨⟨greeting n front, last, [], rfl, by simp, hverdict, ?_⟩, ?_, hend.offered⟩
      · exact fun hdone => (hgoes _ hdone).1 rfl
      · intro herror
        rw [verdicts_append] at herror
        rcases List.mem_append.mp herror with herror | herror
        · exact (hgoes _ herror).2 rfl
        · rw [verdicts_cons, hverdict] at herror
          simp at herror
  · intro v rest hv
    refine ⟨[], v, rest, rfl, rfl, ?_, List.not_mem_nil⟩
    have hrefused : parserFeed handshakeParserDefinition handshakeParserInit.parser v =
        ⟨.error, ⟨.error, v⟩⟩ := by
      rw [parserFeed_handshake]
      exact if_neg hv
    simp only [feedAll_nil, handshakeParserFeed, hrefused]

/-- Both supported methods, and a client of another version. -/
theorem greeting_decoded_both : GreetingDecoded 2 [0, 2] ∧
    FirstReturns handshakeParserFeed handshakeParserInit [4, 1] .error 1 :=
  ⟨greeting_decoded.1 2 [0, 2] (by decide) rfl, greeting_decoded.2 4 [1] (by decide)⟩

end Socks5d
