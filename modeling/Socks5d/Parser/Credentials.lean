import Socks5d.Lib.Feeding
import Socks5d.Parser.Auth

/-!
# The messages of the sub-negotiation

The parser of `auth_parser.c` follows a message from field to field. Each stage says what was
gathered so far and where the next byte goes, and a whole message is one stage after another.
Any other byte string either stops inside a message or has a front part that is refused.
-/

namespace Socks5d

open Feeding

/-- The sub-negotiation message `01 U name P password`. -/
def authMessage (name pass : List UInt8) : List UInt8 :=
  SOCKS5_SUBNEGOTIATION_VERSION :: UInt8.ofNat name.length ::
    (name ++ UInt8.ofNat pass.length :: pass)

/-- A name or a password of a length that one byte can announce. -/
def IsField (field : List UInt8) : Prop := 1 ≤ field.length ∧ field.length ≤ 255

/-- The front parts whose last byte is refused: a wrong version, or a length of zero. -/
inductive AuthRefused : List UInt8 → Prop
  | version (v : UInt8) (hv : v ≠ SOCKS5_SUBNEGOTIATION_VERSION) : AuthRefused [v]
  | usernameLen : AuthRefused [SOCKS5_SUBNEGOTIATION_VERSION, 0]
  | passwordLen (name : List UInt8) (hname : IsField name) : AuthRefused
      (SOCKS5_SUBNEGOTIATION_VERSION :: UInt8.ofNat name.length :: (name ++ [0]))

/-- The parser goes on. -/
def AuthState.Pending (state : AuthState) : Prop := state ≠ .done ∧ state ≠ .error

instance : DecidablePred AuthState.Pending := fun _ => inferInstanceAs (Decidable (_ ∧ _))

/-- Inside the name. -/
structure AuthParser.AtName (junk : ℕ → UInt8) (p : AuthParser) (len : UInt8)
    (name : List UInt8) : Prop where
  state : p.parser.state = .username
  usernameLen : p.usernameLen = len
  usernameCount : p.usernameCount.toNat = name.length
  username : p.username = filled junk name
  passwordCount : p.passwordCount = 0
  password : p.password = junk

/-- Behind the name. -/
structure AuthParser.AtPasswordLen (junk : ℕ → UInt8) (p : AuthParser) (name : List UInt8) :
    Prop where
  state : p.parser.state = .passwordLen
  usernameLen : p.usernameLen.toNat = name.length
  username : p.username = filled junk (name ++ [0])
  passwordCount : p.passwordCount = 0
  password : p.password = junk

/-- Inside the password. -/
structure AuthParser.AtPassword (junk : ℕ → UInt8) (p : AuthParser) (name : List UInt8)
    (len : UInt8) (pass : List UInt8) : Prop where
  state : p.parser.state = .password
  usernameLen : p.usernameLen.toNat = name.length
  username : p.username = filled junk (name ++ [0])
  passwordLen : p.passwordLen = len
  passwordCount : p.passwordCount.toNat = pass.length
  password : p.password = filled junk pass

/-- Behind the message. -/
structure AuthParser.Complete (junk : ℕ → UInt8) (p : AuthParser) (name pass : List UInt8) :
    Prop where
  state : p.parser.state = .done
  usernameLen : p.usernameLen.toNat = name.length
  username : p.username = filled junk (name ++ [0])
  passwordLen : p.passwordLen.toNat = pass.length
  password : p.password = filled junk (pass ++ [0])

section Steps

variable {junk : ℕ → UInt8} {p : AuthParser} {name pass more : List UInt8} {len b : UInt8}

/-- An eight-bit counter that has not reached its end counts on. -/
theorem count_succ {count : UInt8} {n : ℕ} (h : count.toNat = n) (hn : n < 255) :
    (count + 1).toNat = n + 1 := by
  rw [UInt8.toNat_add, h, UInt8.toNat_one]
  omega

theorem feed_version (hstate : p.parser.state = .version) : authParserFeed p b =
    if b = SOCKS5_SUBNEGOTIATION_VERSION then
      ({ p with parser := ⟨.usernameLen, ⟨.version, b⟩⟩ }, .version)
    else ({ p with parser := ⟨.error, ⟨.error, b⟩⟩ }, .error) := by
  simp only [authParserFeed, parserFeed_auth, hstate]
  by_cases hb : b = SOCKS5_SUBNEGOTIATION_VERSION
  · simp [hb]
  · simp [hb]

theorem feed_usernameLen (hstate : p.parser.state = .usernameLen) : authParserFeed p b =
    if b = 0 then ({ p with parser := ⟨.error, ⟨.error, b⟩⟩ }, .error)
    else ({ p with parser := ⟨.username, ⟨.usernameLen, b⟩⟩, usernameLen := b }, .usernameLen) := by
  simp only [authParserFeed, parserFeed_auth, hstate]
  by_cases hb : b = 0
  · simp [hb]
  · simp [hb]

theorem AuthParser.AtName.feed (h : p.AtName junk len name) (hroom : name.length + 1 < len.toNat) :
    (authParserFeed p b).2 = .username ∧
      (authParserFeed p b).1.AtName junk len (name ++ [b]) := by
  have hlt := len.toNat_lt
  have hcount := count_succ h.usernameCount (by omega)
  have hmore : ¬ p.usernameCount + 1 ≥ p.usernameLen := by
    rw [ge_iff_le, UInt8.le_iff_toNat_le, hcount, h.usernameLen]
    omega
  simp only [authParserFeed, parserFeed_auth, h.state, if_neg hmore, true_and]
  exact ⟨rfl, h.usernameLen, by simp [hcount],
    by rw [h.username]; exact update_filled h.usernameCount b, h.passwordCount, h.password⟩

/-- The last byte of the name also writes the zero behind it. -/
theorem AuthParser.AtName.feed_last (h : p.AtName junk len name)
    (hlast : name.length + 1 = len.toNat) :
    (authParserFeed p b).2 = .passwordLen ∧
      (authParserFeed p b).1.AtPasswordLen junk (name ++ [b]) := by
  have hlt := len.toNat_lt
  have hcount := count_succ h.usernameCount (by omega)
  have hfull : p.usernameCount + 1 ≥ p.usernameLen := by
    rw [ge_iff_le, UInt8.le_iff_toNat_le, hcount, h.usernameLen]
    omega
  simp only [authParserFeed, parserFeed_auth, h.state, if_pos hfull, true_and]
  refine ⟨rfl, by simp [h.usernameLen, hlast], ?_, h.passwordCount, h.password⟩
  rw [h.username, update_filled h.usernameCount, update_filled (by simp [hcount])]

theorem AuthParser.AtPasswordLen.feed (h : p.AtPasswordLen junk name) (hb : b ≠ 0) :
    (authParserFeed p b).2 = .passwordLen ∧
      (authParserFeed p b).1.AtPassword junk name b [] := by
  simp only [authParserFeed, parserFeed_auth, h.state, if_neg hb, true_and]
  exact ⟨rfl, h.usernameLen, h.username, rfl, by simp [h.passwordCount], h.password⟩

theorem AuthParser.AtPassword.feed (h : p.AtPassword junk name len pass)
    (hroom : pass.length + 1 < len.toNat) : (authParserFeed p b).2 = .password ∧
      (authParserFeed p b).1.AtPassword junk name len (pass ++ [b]) := by
  have hlt := len.toNat_lt
  have hcount := count_succ h.passwordCount (by omega)
  have hmore : ¬ p.passwordCount + 1 ≥ p.passwordLen := by
    rw [ge_iff_le, UInt8.le_iff_toNat_le, hcount, h.passwordLen]
    omega
  simp only [authParserFeed, parserFeed_auth, h.state, if_neg hmore, true_and]
  exact ⟨rfl, h.usernameLen, h.username, h.passwordLen, by simp [hcount],
    by rw [h.password]; exact update_filled h.passwordCount b⟩

theorem AuthParser.AtPassword.feed_last (h : p.AtPassword junk name len pass)
    (hlast : pass.length + 1 = len.toNat) : (authParserFeed p b).2 = .done ∧
      (authParserFeed p b).1.Complete junk name (pass ++ [b]) := by
  have hlt := len.toNat_lt
  have hcount := count_succ h.passwordCount (by omega)
  have hfull : p.passwordCount + 1 ≥ p.passwordLen := by
    rw [ge_iff_le, UInt8.le_iff_toNat_le, hcount, h.passwordLen]
    omega
  simp only [authParserFeed, parserFeed_auth, h.state, if_pos hfull, true_and]
  refine ⟨rfl, h.usernameLen, h.username, by simp [h.passwordLen, hlast], ?_⟩
  rw [h.password, update_filled h.passwordCount, update_filled (by simp [hcount])]

end Steps

section Runs

variable {junk : ℕ → UInt8} {p : AuthParser} {name pass : List UInt8} {len : UInt8}

/-- No byte of these bytes ends the message. -/
abbrev AuthParser.Goes (p : AuthParser) (bytes : List UInt8) : Prop :=
  Feeding.Goes authParserFeed AuthState.Pending p bytes

theorem AuthParser.goes_byte {b : UInt8} {v : AuthState} (hv : (authParserFeed p b).2 = v)
    (hpending : v.Pending) : p.Goes [b] := goes_singleton hv hpending

theorem AuthParser.AtName.feedAll (h : p.AtName junk len name) (more : List UInt8)
    (hroom : name.length + more.length < len.toNat) :
    p.Goes more ∧ (feedAll authParserFeed p more).AtName junk len (name ++ more) := by
  induction more generalizing p name with
  | nil => exact ⟨goes_nil p, by simpa using h⟩
  | cons b rest ih =>
    rw [List.length_cons] at hroom
    obtain ⟨hverdict, hnext⟩ := h.feed (b := b) (by omega)
    obtain ⟨hgoes, hrest⟩ := ih hnext (by rw [List.length_append, List.length_singleton]; omega)
    exact ⟨(AuthParser.goes_byte hverdict (by decide)).append hgoes, by simpa using hrest⟩

theorem AuthParser.AtPassword.feedAll (h : p.AtPassword junk name len pass) (more : List UInt8)
    (hroom : pass.length + more.length < len.toNat) :
    p.Goes more ∧ (feedAll authParserFeed p more).AtPassword junk name len (pass ++ more) := by
  induction more generalizing p pass with
  | nil => exact ⟨goes_nil p, by simpa using h⟩
  | cons b rest ih =>
    rw [List.length_cons] at hroom
    obtain ⟨hverdict, hnext⟩ := h.feed (b := b) (by omega)
    obtain ⟨hgoes, hrest⟩ := ih hnext (by rw [List.length_append, List.length_singleton]; omega)
    exact ⟨(AuthParser.goes_byte hverdict (by decide)).append hgoes, by simpa using hrest⟩

/-- The version and the length of the name. -/
theorem feed_announced (junk : ℕ → UInt8) (hlen : len ≠ 0) :
    (authParserInit junk).Goes [SOCKS5_SUBNEGOTIATION_VERSION, len] ∧
      (feedAll authParserFeed (authParserInit junk) [SOCKS5_SUBNEGOTIATION_VERSION, len]).AtName junk
        len [] := by
  have hfirst : authParserFeed (authParserInit junk) SOCKS5_SUBNEGOTIATION_VERSION =
      ({ authParserInit junk with
          parser := ⟨.usernameLen, ⟨.version, SOCKS5_SUBNEGOTIATION_VERSION⟩⟩ }, .version) :=
    (feed_version rfl).trans (if_pos rfl)
  have hsecond := feed_usernameLen (p := (authParserFeed (authParserInit junk)
    SOCKS5_SUBNEGOTIATION_VERSION).1) (b := len) (by rw [hfirst])
  rw [if_neg hlen] at hsecond
  constructor
  · have hgoes := AuthParser.goes_byte (v := AuthState.version) (congrArg Prod.snd hfirst) (by decide)
    exact hgoes.append
      (AuthParser.goes_byte (v := AuthState.usernameLen) (congrArg Prod.snd hsecond) (by decide))
  · rw [feedAll_cons, feedAll_cons, feedAll_nil, hsecond, hfirst]
    exact ⟨rfl, rfl, rfl, rfl, rfl, rfl⟩

/-- The message up to the end of the name. -/
theorem feed_named (junk : ℕ → UInt8) (hname : IsField name) :
    (authParserInit junk).Goes
        (SOCKS5_SUBNEGOTIATION_VERSION :: UInt8.ofNat name.length :: name) ∧
      (feedAll authParserFeed (authParserInit junk)
        (SOCKS5_SUBNEGOTIATION_VERSION :: UInt8.ofNat name.length :: name)).AtPasswordLen junk name := by
  obtain ⟨hpos, hle⟩ := hname
  have hlen : (UInt8.ofNat name.length).toNat = name.length :=
    UInt8.toNat_ofNat_of_lt' (by rw [UInt8.size]; omega)
  have hne : UInt8.ofNat name.length ≠ 0 := by
    intro hzero
    rw [hzero, UInt8.toNat_zero] at hlen
    omega
  obtain ⟨hgoes, hstart⟩ := feed_announced junk hne
  obtain ⟨front, last, hsplit⟩ : ∃ front last, name = front ++ [last] :=
    ⟨_, _, (List.dropLast_concat_getLast (List.ne_nil_of_length_pos hpos)).symm⟩
  have hcount : name.length = front.length + 1 := by rw [hsplit]; simp
  obtain ⟨hgoes', hfront⟩ := hstart.feedAll front (by rw [hlen, hcount, List.length_nil]; omega)
  obtain ⟨hverdict, hend⟩ := hfront.feed_last (b := last) (by rw [hlen, hcount]; rfl)
  rw [show SOCKS5_SUBNEGOTIATION_VERSION :: UInt8.ofNat name.length :: name =
    [SOCKS5_SUBNEGOTIATION_VERSION, UInt8.ofNat name.length] ++ (front ++ [last]) by rw [← hsplit]; rfl]
  constructor
  · exact hgoes.append (hgoes'.append (AuthParser.goes_byte hverdict (by decide)))
  · rw [show [] ++ front ++ [last] = name from hsplit.symm] at hend
    rw [feedAll_append, feedAll_append]
    exact hend

/-- The message up to a byte of the password that is not the last. -/
theorem feed_upTo (junk : ℕ → UInt8) (hname : IsField name) {more : List UInt8}
    (hmore : more.length < len.toNat) :
    (authParserInit junk).Goes
        (SOCKS5_SUBNEGOTIATION_VERSION :: UInt8.ofNat name.length :: (name ++ len :: more)) ∧
      (feedAll authParserFeed (authParserInit junk)
        (SOCKS5_SUBNEGOTIATION_VERSION :: UInt8.ofNat name.length ::
          (name ++ len :: more))).AtPassword junk name len more := by
  have hne : len ≠ 0 := by
    rintro rfl
    cases hmore
  obtain ⟨hgoes, hnamed⟩ := feed_named junk hname
  obtain ⟨hverdict, hstart⟩ := hnamed.feed hne
  obtain ⟨hgoes', hfront⟩ := hstart.feedAll more (by simpa using hmore)
  rw [show SOCKS5_SUBNEGOTIATION_VERSION :: UInt8.ofNat name.length :: (name ++ len :: more) =
    (SOCKS5_SUBNEGOTIATION_VERSION :: UInt8.ofNat name.length :: name) ++ ([len] ++ more) by simp]
  constructor
  · exact hgoes.append ((AuthParser.goes_byte hverdict (by decide)).append hgoes')
  · rw [feedAll_append, feedAll_append]
    exact hfront

end Runs

/-- The parser first gives this verdict on the last byte, and stays with it. -/
abbrev AuthEnds (junk : ℕ → UInt8) (front : List UInt8) (last : UInt8) (v : AuthState) : Prop :=
  Ends authParserFeed AuthState.Pending (authParserInit junk) front last v

section Ends

variable {junk : ℕ → UInt8} {p : AuthParser} {name pass bytes : List UInt8} {v : AuthState}

/-- In its last two states the parser stays. -/
theorem auth_stays (hv : ¬ v.Pending) (hstate : p.parser.state = v) (more : List UInt8) :
    ∀ w ∈ verdicts authParserFeed p more, w = v := by
  intro w hw
  refine verdicts_sink (I := fun p => p.parser.state = v) (fun p b hp => ?_) hstate hw
  cases v with
  | done => simp [authParserFeed, parserFeed_auth, hp]
  | error => simp [authParserFeed, parserFeed_auth, hp]
  | _ => exact absurd (by decide) hv

/-- The parser first says `done` on the last byte of a message. -/
theorem authEnds_message (junk : ℕ → UInt8) (hname : IsField name) (hpass : IsField pass) :
    ∃ front last, authMessage name pass = front ++ [last] ∧ AuthEnds junk front last .done ∧
      (feedAll authParserFeed (authParserInit junk) (authMessage name pass)).Complete junk name pass := by
  obtain ⟨hpos, hle⟩ := hpass
  have hlen : (UInt8.ofNat pass.length).toNat = pass.length :=
    UInt8.toNat_ofNat_of_lt' (by rw [UInt8.size]; omega)
  obtain ⟨front, last, hsplit⟩ : ∃ front last, pass = front ++ [last] :=
    ⟨_, _, (List.dropLast_concat_getLast (List.ne_nil_of_length_pos hpos)).symm⟩
  have hcount : pass.length = front.length + 1 := by rw [hsplit]; simp
  have hroom : front.length < (UInt8.ofNat pass.length).toNat := by
    rw [hlen, hcount]
    exact Nat.lt_succ_self _
  obtain ⟨hgoes, hat⟩ := feed_upTo junk hname hroom
  obtain ⟨hverdict, hend⟩ := hat.feed_last (b := last) (by rw [hlen, hcount])
  have hmessage : authMessage name pass = SOCKS5_SUBNEGOTIATION_VERSION ::
      UInt8.ofNat name.length :: (name ++ UInt8.ofNat pass.length :: front) ++ [last] := by
    simp [authMessage, ← hsplit]
  refine ⟨_, last, hmessage, ⟨hgoes, hverdict, auth_stays (by decide) hend.state⟩, ?_⟩
  rw [← hsplit] at hend
  rw [hmessage, feedAll_append]
  exact hend

/-- The parser says `error` on the byte that is refused. -/
theorem authEnds_refused (junk : ℕ → UInt8) (h : AuthRefused bytes) :
    ∃ front last, bytes = front ++ [last] ∧ AuthEnds junk front last .error := by
  cases h with
  | version v hv =>
    have hfeed := feed_version (p := authParserInit junk) (b := v) rfl
    rw [if_neg hv] at hfeed
    refine ⟨[], v, rfl, goes_nil _, congrArg Prod.snd hfeed, auth_stays (by decide) ?_⟩
    exact congrArg (fun r : AuthParser × AuthState => r.1.parser.state) hfeed
  | usernameLen =>
    have hfirst := feed_version (p := authParserInit junk) (b := SOCKS5_SUBNEGOTIATION_VERSION) rfl
    rw [if_pos rfl] at hfirst
    have hfeed := feed_usernameLen (p := (authParserFeed (authParserInit junk)
      SOCKS5_SUBNEGOTIATION_VERSION).1) (b := 0) (by rw [hfirst])
    rw [if_pos rfl] at hfeed
    refine ⟨[SOCKS5_SUBNEGOTIATION_VERSION], 0, rfl,
      AuthParser.goes_byte (v := AuthState.version) (congrArg Prod.snd hfirst) (by decide),
      congrArg Prod.snd hfeed, auth_stays (by decide) ?_⟩
    exact congrArg (fun r : AuthParser × AuthState => r.1.parser.state) hfeed
  | passwordLen name hname =>
    obtain ⟨hgoes, hat⟩ := feed_named junk hname
    refine ⟨SOCKS5_SUBNEGOTIATION_VERSION :: UInt8.ofNat name.length :: name, 0, by simp, hgoes, ?_,
      auth_stays (by decide) ?_⟩
    · rw [authParserFeed]
      simp only [parserFeed_auth, hat.state, if_true]
    · rw [authParserFeed]
      simp only [parserFeed_auth, hat.state, if_true]

end Ends

/-- What the verdicts on a byte string say about it. -/
structure AuthGrammar (junk : ℕ → UInt8) (bytes : List UInt8) : Prop where
  /-- The first end of a message. -/
  done_iff : ∀ k, FirstReturns authParserFeed (authParserInit junk) bytes .done k ↔
    k ≤ bytes.length ∧ ∃ name pass, IsField name ∧ IsField pass ∧ bytes.take k = authMessage name pass
  /-- What the parser holds behind a message. -/
  gathered : ∀ k name pass, IsField name → IsField pass → bytes.take k = authMessage name pass →
    (feedAll authParserFeed (authParserInit junk) (bytes.take k)).Complete junk name pass
  error_iff : ∀ k, FirstReturns authParserFeed (authParserInit junk) bytes .error k ↔
    k ≤ bytes.length ∧ AuthRefused (bytes.take k)
  unfinished : ∀ name pass, IsField name → IsField pass → bytes <+: authMessage name pass →
    bytes ≠ authMessage name pass → (authParserInit junk).Goes bytes
  /-- Nothing is written behind the two arrays. -/
  inBounds : ∀ i, MAX_USERNAME_LEN ≤ i →
    (feedAll authParserFeed (authParserInit junk) bytes).username i = junk i ∧
      (feedAll authParserFeed (authParserInit junk) bytes).password i = junk i

section Grammar

variable {junk : ℕ → UInt8} {p : AuthParser} {bytes : List UInt8}

theorem exists_append_length {xs : List UInt8} {n : ℕ} (h : xs.length ≤ n) :
    ∃ ys : List UInt8, (xs ++ ys).length = n :=
  ⟨List.replicate (n - xs.length) 0, by simp; omega⟩

theorem isField_of_length {field : List UInt8} {len : UInt8} (h : field.length = len.toNat)
    (hne : len ≠ 0) : IsField field ∧ UInt8.ofNat field.length = len := by
  have hpos : len.toNat ≠ 0 := fun h0 => hne (UInt8.toNat_inj.mp (by simpa using h0))
  have hlt := len.toNat_lt
  exact ⟨⟨by omega, by omega⟩, by rw [h, UInt8.ofNat_toNat]⟩

/-- A byte string stops inside a message, begins with one, or has a front part that is refused. -/
theorem auth_classify (bytes : List UInt8) :
    (∃ name pass, IsField name ∧ IsField pass ∧ bytes <+: authMessage name pass ∧
      bytes ≠ authMessage name pass) ∨
    (∃ name pass, IsField name ∧ IsField pass ∧ authMessage name pass <+: bytes) ∨
    ∃ front, AuthRefused front ∧ front <+: bytes := by
  have hone : IsField [0] := ⟨by decide, by decide⟩
  cases bytes with
  | nil => exact .inl ⟨[0], [0], hone, hone, ⟨_, List.nil_append _⟩, List.cons_ne_nil _ _ |>.symm⟩
  | cons v rest =>
    by_cases hv : v = SOCKS5_SUBNEGOTIATION_VERSION
    swap
    · exact .inr (.inr ⟨[v], .version v hv, ⟨rest, rfl⟩⟩)
    subst hv
    cases rest with
    | nil => exact .inl ⟨[0], [0], hone, hone, ⟨_, rfl⟩, by decide⟩
    | cons u rest =>
      by_cases hu : u = 0
      · exact .inr (.inr ⟨_, .usernameLen, ⟨rest, by rw [hu]; rfl⟩⟩)
      by_cases hshort : rest.length ≤ u.toNat
      · -- the name is not over
        obtain ⟨ys, hys⟩ := exists_append_length hshort
        obtain ⟨hname, hu'⟩ := isField_of_length hys hu
        have hmessage : authMessage (rest ++ ys) [0] =
            SOCKS5_SUBNEGOTIATION_VERSION :: u :: rest ++ (ys ++ [1, 0]) := by
          rw [authMessage, hu']
          simp
        refine .inl ⟨rest ++ ys, [0], hname, hone, ⟨_, hmessage.symm⟩, fun heq => ?_⟩
        rw [hmessage] at heq
        simpa using congrArg List.length heq
      · -- the length of the password follows the name
        obtain ⟨hname, hu'⟩ := isField_of_length
          (show (rest.take u.toNat).length = u.toNat by simp; omega) hu
        obtain ⟨pl, tail, hdrop⟩ : ∃ pl tail, rest.drop u.toNat = pl :: tail :=
          List.exists_cons_of_ne_nil (by simpa using hshort)
        have hrest : rest = rest.take u.toNat ++ pl :: tail := by
          rw [← hdrop, List.take_append_drop]
        by_cases hpl : pl = 0
        · refine .inr (.inr ⟨_, .passwordLen _ hname, ⟨tail, ?_⟩⟩)
          rw [hu']
          conv_rhs => rw [hrest, hpl]
          simp
        by_cases hshort' : tail.length < pl.toNat
        · obtain ⟨ys, hys⟩ := exists_append_length (Nat.le_of_lt hshort')
          obtain ⟨hpass, hpl'⟩ := isField_of_length hys hpl
          have hmessage : authMessage (rest.take u.toNat) (tail ++ ys) =
              SOCKS5_SUBNEGOTIATION_VERSION :: u :: rest ++ ys := by
            rw [authMessage, hu', hpl']
            conv_rhs => rw [hrest]
            simp
          refine .inl ⟨_, tail ++ ys, hname, hpass, ⟨_, hmessage.symm⟩, fun heq => ?_⟩
          rw [hmessage] at heq
          have hlen := congrArg List.length heq
          rw [List.length_append] at hlen hys
          omega
        · obtain ⟨hpass, hpl'⟩ := isField_of_length
            (show (tail.take pl.toNat).length = pl.toNat by simp; omega) hpl
          refine .inr (.inl ⟨_, _, hname, hpass, ⟨tail.drop pl.toNat, ?_⟩⟩)
          rw [authMessage, hu', hpl']
          conv_rhs => rw [hrest]
          simp

theorem goes_unfinished {name pass : List UInt8} (hname : IsField name) (hpass : IsField pass)
    (hfront : bytes <+: authMessage name pass) (hne : bytes ≠ authMessage name pass) :
    (authParserInit junk).Goes bytes := by
  obtain ⟨front, last, hmessage, hends, -⟩ := authEnds_message junk hname hpass
  rw [hmessage] at hfront hne
  exact hends.goes.begins ((List.prefix_concat_iff.mp hfront).resolve_left hne)

/-- A write at an eight-bit index stays in an array of 256 cells. -/
theorem update_inBounds (mem : ℕ → UInt8) {i : ℕ} (hi : 256 ≤ i) (count b : UInt8) :
    Function.update mem count.toNat b i = mem i := by
  have hlt := count.toNat_lt
  exact Function.update_of_ne (by omega) _ _

theorem feed_inBounds {i : ℕ} (hi : MAX_USERNAME_LEN ≤ i) (b : UInt8) :
    (authParserFeed p b).1.username i = p.username i ∧
      (authParserFeed p b).1.password i = p.password i := by
  simp only [authParserFeed]
  split
  · exact ⟨rfl, rfl⟩
  · split
    · exact ⟨(update_inBounds _ hi _ _).trans (update_inBounds _ hi _ _), rfl⟩
    · exact ⟨update_inBounds _ hi _ _, rfl⟩
  · exact ⟨rfl, rfl⟩
  · split
    · exact ⟨rfl, (update_inBounds _ hi _ _).trans (update_inBounds _ hi _ _)⟩
    · exact ⟨rfl, update_inBounds _ hi _ _⟩
  · exact ⟨rfl, rfl⟩

end Grammar

/-- The parser's verdicts on every byte string are those of the grammar. -/
theorem auth_grammar (junk : ℕ → UInt8) (bytes : List UInt8) : AuthGrammar junk bytes where
  done_iff k := by
    constructor
    · intro hfirst
      rcases auth_classify bytes with ⟨name, pass, hname, hpass, hfront, hne⟩ |
        ⟨name, pass, hname, hpass, more, rfl⟩ | ⟨front, hrefused, more, rfl⟩
      · exact absurd hfirst ((goes_unfinished hname hpass hfront hne).not_firstReturns (by decide) k)
      · obtain ⟨front, last, hmessage, hends, -⟩ := authEnds_message junk hname hpass
        rw [hmessage, List.append_assoc] at hfirst
        obtain ⟨-, rfl⟩ := (hends.firstReturns_iff (by decide) (by decide) k).mp hfirst
        have hlen : front.length + 1 = (authMessage name pass).length := by rw [hmessage]; simp
        exact ⟨by rw [hlen, List.length_append]; omega, name, pass, hname, hpass,
          by rw [hlen, List.take_left]⟩
      · obtain ⟨front, last, rfl, hends⟩ := authEnds_refused junk hrefused
        rw [List.append_assoc] at hfirst
        cases ((hends.firstReturns_iff (by decide) (by decide) k).mp hfirst).1
    · rintro ⟨hk, name, pass, hname, hpass, htake⟩
      obtain ⟨front, last, hmessage, hends, -⟩ := authEnds_message junk hname hpass
      rw [← List.take_append_drop k bytes, htake, hmessage, List.append_assoc]
      refine (hends.firstReturns_iff (by decide) (by decide) k).mpr ⟨rfl, ?_⟩
      have hlen := congrArg List.length (htake.trans hmessage)
      rwa [List.length_take, Nat.min_eq_left hk, List.length_append] at hlen
  gathered k name pass hname hpass h := by
    rw [h]
    obtain ⟨-, -, -, -, hcomplete⟩ := authEnds_message junk hname hpass
    exact hcomplete
  error_iff k := by
    constructor
    · intro hfirst
      rcases auth_classify bytes with ⟨name, pass, hname, hpass, hfront, hne⟩ |
        ⟨name, pass, hname, hpass, more, rfl⟩ | ⟨front, hrefused, more, rfl⟩
      · exact absurd hfirst ((goes_unfinished hname hpass hfront hne).not_firstReturns (by decide) k)
      · obtain ⟨front, last, hmessage, hends, -⟩ := authEnds_message junk hname hpass
        rw [hmessage, List.append_assoc] at hfirst
        cases ((hends.firstReturns_iff (by decide) (by decide) k).mp hfirst).1
      · obtain ⟨front', last, hsplit, hends⟩ := authEnds_refused junk hrefused
        rw [hsplit, List.append_assoc] at hfirst
        obtain ⟨-, rfl⟩ := (hends.firstReturns_iff (by decide) (by decide) k).mp hfirst
        have hlen : front'.length + 1 = front.length := by rw [hsplit]; simp
        exact ⟨by rw [hlen, List.length_append]; omega, by rw [hlen, List.take_left]; exact hrefused⟩
    · rintro ⟨hk, hrefused⟩
      obtain ⟨front, last, hsplit, hends⟩ := authEnds_refused junk hrefused
      rw [← List.take_append_drop k bytes, hsplit, List.append_assoc]
      refine (hends.firstReturns_iff (by decide) (by decide) k).mpr ⟨rfl, ?_⟩
      have hlen := congrArg List.length hsplit
      rwa [List.length_take, Nat.min_eq_left hk, List.length_append] at hlen
  unfinished name pass hname hpass hfront hne := goes_unfinished hname hpass hfront hne
  inBounds i hi := by
    refine feedAll_invariant
      (I := fun p : AuthParser => p.username i = junk i ∧ p.password i = junk i)
      (fun p b hp => ?_) ⟨rfl, rfl⟩
    obtain ⟨husername, hpassword⟩ := feed_inBounds (p := p) hi b
    exact ⟨husername.trans hp.1, hpassword.trans hp.2⟩

end Socks5d
