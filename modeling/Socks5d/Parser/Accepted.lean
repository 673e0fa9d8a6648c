import Mathlib.Data.List.Induction
import Socks5d.Parser.Credentials
import Socks5d.Parser.Methods
import Socks5d.Parser.Requests

/-!
# What the parsers accept

The converse of decoding: a parser that says `done` was fed a message of its grammar, whatever
comes behind it. The greeting parser never leaves its last row, so that what comes behind a
greeting still counts as methods.
-/

namespace Socks5d

open Feeding

section Greeting

variable {p : HandshakeParser} {b n : UInt8} {bytes methods : List UInt8}

/-- Flags are only ever raised. -/
theorem flags_feed (p : HandshakeParser) (b : UInt8) :
    (p.noAuth = true → (handshakeParserFeed p b).1.noAuth = true) ∧
      (p.userPassAuth = true → (handshakeParserFeed p b).1.userPassAuth = true) := by
  simp only [handshakeParserFeed]
  split
  · exact ⟨id, id⟩
  · split
    · exact ⟨id, id⟩
    · split
      · exact ⟨id, id⟩
      · split
        · exact ⟨by simp +contextual, by simp +contextual⟩
        · exact ⟨by simp +contextual, by simp +contextual⟩
  · exact ⟨id, id⟩

/-- Where the parser is after some bytes, with the flags they can have raised. -/
inductive HandshakeParser.Reads (p : HandshakeParser) : List UInt8 → Prop
  | version (hstate : p.parser.state = .version) (hflags : p.noAuth = false ∧ p.userPassAuth = false) :
      Reads p []
  | nmethods (hstate : p.parser.state = .nmethods)
      (hflags : p.noAuth = false ∧ p.userPassAuth = false) : Reads p [SOCKS5_VERSION]
  | methods (n : UInt8) (methods : List UInt8) (hstate : p.parser.state = .methods)
      (hnoAuth : p.noAuth = true → SOCKS5_AUTH_METHOD_NO_AUTH ∈ methods)
      (huserPass : p.userPassAuth = true → SOCKS5_AUTH_METHOD_USER_PASS ∈ methods) :
      Reads p (greeting n methods)
  | error (bytes : List UInt8) (hstate : p.parser.state = .error)
      (hflags : p.noAuth = false ∧ p.userPassAuth = false) : Reads p bytes

theorem HandshakeParser.Reads.feed (h : p.Reads bytes) (b : UInt8) :
    (handshakeParserFeed p b).1.Reads (bytes ++ [b]) := by
  cases h with
  | version hstate hflags =>
    by_cases hb : b = SOCKS5_VERSION
    · subst hb
      exact .nmethods (by simp [handshakeParserFeed, parserFeed_handshake, hstate])
        (by simpa [handshakeParserFeed, parserFeed_handshake, hstate] using hflags)
    · exact .error _ (by simp [handshakeParserFeed, parserFeed_handshake, hstate, hb])
        (by simpa [handshakeParserFeed, parserFeed_handshake, hstate, hb] using hflags)
  | nmethods hstate hflags =>
    refine .methods b [] (by simp [handshakeParserFeed, parserFeed_handshake, hstate]) ?_ ?_
    · simp [handshakeParserFeed, parserFeed_handshake, hstate, hflags.1]
    · simp [handshakeParserFeed, parserFeed_handshake, hstate, hflags.2]
  | methods n methods hstate hnoAuth huserPass =>
    have hnext : (handshakeParserFeed p b).1.parser.state = .methods ∧
        ((handshakeParserFeed p b).1.noAuth = true → p.noAuth = true ∨ b = SOCKS5_AUTH_METHOD_NO_AUTH) ∧
        ((handshakeParserFeed p b).1.userPassAuth = true →
          p.userPassAuth = true ∨ b = SOCKS5_AUTH_METHOD_USER_PASS) := by
      simp only [handshakeParserFeed, parserFeed_handshake, hstate]
      split
      · exact ⟨rfl, .inl, .inl⟩
      · split
        · exact ⟨rfl, .inl, .inl⟩
        · split
          · exact ⟨rfl, by simp, by simp⟩
          · exact ⟨rfl, by simp, by simp⟩
    obtain ⟨hstate', hno, huser⟩ := hnext
    refine .methods n (methods ++ [b]) hstate' (fun hflag => ?_) (fun hflag => ?_)
    · rcases hno hflag with hbefore | rfl
      · exact List.mem_append_left _ (hnoAuth hbefore)
      · simp
    · rcases huser hflag with hbefore | rfl
      · exact List.mem_append_left _ (huserPass hbefore)
      · simp
  | error bytes hstate hflags =>
    exact .error _ (by simp [handshakeParserFeed, parserFeed_handshake, hstate])
      (by simpa [handshakeParserFeed, parserFeed_handshake, hstate] using hflags)

theorem reads_feedAll (bytes : List UInt8) :
    (feedAll handshakeParserFeed handshakeParserInit bytes).Reads bytes := by
  induction bytes using List.reverseRecOn with
  | nil => exact .version rfl ⟨rfl, rfl⟩
  | append_singleton front b ih =>
    rw [feedAll_append]
    exact ih.feed b

/-- Announced methods that were not refused were read. -/
theorem atMethods_of_not_error (hn : 0 < n.toNat) {front rest : List UInt8}
    (hle : front.length ≤ n.toNat)
    (herror : .error ∉ verdicts handshakeParserFeed handshakeParserInit (greeting n (front ++ rest))) :
    (feedAll handshakeParserFeed handshakeParserInit (greeting n front)).AtMethods n front ∧
      (front.length < n.toNat → handshakeParserInit.Goes (greeting n front)) := by
  induction front using List.reverseRecOn generalizing rest with
  | nil =>
    have hroom : ([] : List UInt8).length < n.toNat := hn
    obtain ⟨hgoes, hat⟩ := feed_greeting n hroom (by simp)
    exact ⟨hat, fun _ => hgoes⟩
  | append_singleton front m ih =>
    rw [List.length_append, List.length_singleton] at hle
    have hsplit : greeting n (front ++ [m]) = greeting n front ++ [m] := rfl
    have herror' : .error ∉ verdicts handshakeParserFeed handshakeParserInit
        (greeting n (front ++ m :: rest)) := by simpa using herror
    obtain ⟨hat, hgoes⟩ := ih (Nat.le_of_succ_le hle) herror'
    by_cases hm : isValidSocks5AuthMethod m = true
    · obtain ⟨hverdict, hnext⟩ := hat.feed (by omega) hm
      rw [hsplit, feedAll_append]
      refine ⟨hnext, fun hlt => (hgoes (by omega)).append ?_⟩
      rw [List.length_append, List.length_singleton] at hlt
      rw [if_neg (by omega)] at hverdict
      exact HandshakeParser.goes_byte hverdict (by decide)
    · -- the method is refused where it stands
      refine absurd ?_ herror
      have hrefused := hat.feed_unknown (by simpa using hm)
      rw [show greeting n (front ++ [m] ++ rest) = greeting n front ++ m :: rest by simp [greeting],
        verdicts_append, verdicts_cons, hrefused]
      simp

/-- A greeting is over once all announced methods were read, and the stronger of the supported
methods is on record if it is among them. -/
theorem greeting_of_done
    (hdone : .done ∈ verdicts handshakeParserFeed handshakeParserInit (greeting n methods))
    (herror : .error ∉ verdicts handshakeParserFeed handshakeParserInit (greeting n methods)) :
    n.toNat ≤ methods.length ∧
      (SOCKS5_AUTH_METHOD_USER_PASS ∈ methods.take n.toNat →
        (feedAll handshakeParserFeed handshakeParserInit (greeting n methods)).userPassAuth = true) := by
  constructor
  · by_contra hlong
    have hlt : methods.length < n.toNat := Nat.lt_of_not_le hlong
    obtain ⟨-, hgoes⟩ := atMethods_of_not_error (Nat.zero_lt_of_lt hlt) (Nat.le_of_lt hlt)
      (by rwa [List.append_nil])
    exact (hgoes hlt _ hdone).1 rfl
  · intro hmem
    have hn : 0 < n.toNat := by
      by_contra hzero
      rw [show n.toNat = 0 by omega] at hmem
      simp at hmem
    have herror' : .error ∉ verdicts handshakeParserFeed handshakeParserInit
        (greeting n (methods.take n.toNat ++ methods.drop n.toNat)) := by
      rwa [List.take_append_drop]
    obtain ⟨hat, -⟩ := atMethods_of_not_error hn (List.length_take_le _ _) herror'
    have hsplit : greeting n methods = greeting n (methods.take n.toNat) ++ methods.drop n.toNat := by
      conv_lhs => rw [← List.take_append_drop n.toNat methods]
      rfl
    rw [hsplit, feedAll_append]
    exact feedAll_invariant (I := fun p => p.userPassAuth = true)
      (fun p b hp => (flags_feed p b).2 hp) (hat.offered.userPassAuth.mpr hmem)

end Greeting

section Credentials

variable {junk : ℕ → UInt8} {front : List UInt8} {last : UInt8}

/-- Bytes behind which the sub-negotiation is over begin with a message. -/
theorem authMessage_of_done {p : AuthParser}
    (hdone : authParserFeed (feedAll authParserFeed (authParserInit junk) front) last = (p, .done)) :
    ∃ name pass rest, IsField name ∧ IsField pass ∧
      front ++ [last] = authMessage name pass ++ rest := by
  have hmem : .done ∈ verdicts authParserFeed (authParserInit junk) (front ++ [last]) := by
    rw [verdicts_append, verdicts_cons, hdone]
    simp
  rcases auth_classify (front ++ [last]) with ⟨name, pass, hname, hpass, hfront, hne⟩ |
    ⟨name, pass, hname, hpass, rest, hrest⟩ | ⟨bad, hrefused, more, hmore⟩
  · have hgoes : (authParserInit junk).Goes (front ++ [last]) :=
      goes_unfinished hname hpass hfront hne
    exact absurd rfl (hgoes _ hmem).1
  · exact ⟨name, pass, rest, hname, hpass, hrest.symm⟩
  · obtain ⟨before, b, rfl, hends⟩ := authEnds_refused junk hrefused
    rw [← hmore, List.append_assoc, List.singleton_append] at hmem
    rcases hends.only hmem with hpending | herror
    · exact absurd rfl hpending.1
    · cases herror

end Credentials

section Requests

variable {junk : ℕ → UInt8} {front : List UInt8} {last : UInt8}

/-- A request that is over is one of the grammar, on its last byte. -/
theorem request_of_end {p : ConnReqParser} (hgoes : (connReqParserInit junk).Goes front)
    (hdone : connReqParserFeed (feedAll connReqParserFeed (connReqParserInit junk) front) last =
      (p, .done)) :
    ∃ atyp len addr high low, IsCommand p.cmd ∧ Announces atyp len ∧
      addr.length = max 1 len.toNat ∧
      front ++ [last] = requestHeader p.cmd atyp len ++ addr ++ [high, low] := by
  have hmem : .done ∈ verdicts connReqParserFeed (connReqParserInit junk) (front ++ [last]) := by
    rw [verdicts_append, verdicts_cons, hdone]
    simp
  obtain ⟨cmd, atyp, len, addr, high, low, more, hcmd, hannounces, haddr, hbytes⟩ :=
    request_of_done hmem
  obtain ⟨hends, hend, -⟩ := requestEnds junk hcmd hannounces haddr high low
  obtain ⟨mid, hfront, hlast⟩ := hends.split (by decide) hgoes hbytes
  obtain ⟨rfl, rfl⟩ : mid = [] ∧ more = [] := by
    have hlen := congrArg List.length hlast
    simp only [List.length_append, List.length_cons, List.length_nil] at hlen
    exact ⟨List.length_eq_zero_iff.mp (by omega), List.length_eq_zero_iff.mp (by omega)⟩
  have hwhole : front ++ [last] = requestHeader cmd atyp len ++ addr ++ [high, low] := by
    rw [hbytes]
    simp
  rw [← hwhole, feedAll_append, feedAll_cons, feedAll_nil, hdone] at hend
  obtain rfl : p.cmd = cmd := hend.cmd
  exact ⟨atyp, len, addr, high, low, hcmd, hannounces, haddr, hwhole⟩

end Requests

end Socks5d
