import Socks5d.Admin.Grammar
import Socks5d.Admin.Replies

/-!
# The numeric settings

`SET_MAX_CONN` and `SET_BUFF` read their argument with `atoi`, which stops at the first byte that
is no digit and keeps the low half of a 64-bit number. What that leaves is checked against the
minimum alone.
-/

namespace Socks5d

open CStrings

/-- The settings that are numbers. -/
inductive NumericSetting
  | maxConn
  | bufferSize
  deriving DecidableEq, Repr

namespace NumericSetting

def command : NumericSetting → S5adminCommand
  | maxConn => .setMaxConn
  | bufferSize => .setBuff

/-- The least value the setter takes. -/
def minimum : NumericSetting → ℕ
  | maxConn => 1
  | bufferSize => BUFF_MIN_LEN

def set : NumericSetting → ServerData → ℕ → ServerData
  | maxConn, data, n => { data with maxConn := n }
  | bufferSize, data, n => { data with bufferSize := n }

/-- What the reply to a refused value says after `ERROR`. -/
def reason : NumericSetting → List UInt8
  | maxConn => ascii ": max connections must be at least 1\n"
  | bufferSize => ascii ": buffer size must be at least " ++ decimal BUFF_MIN_LEN ++ ascii " bytes\n"

end NumericSetting

/-- The whole token is a decimal number. -/
def IsDecimal (token : CString) : Prop := token ≠ [] ∧ ∀ c ∈ token, isDigit c = true

instance : DecidablePred IsDecimal := fun _ => inferInstanceAs (Decidable (_ ∧ _))

/-- The command answered OK and left the number that its token spells, or answered an error and
left the server data alone; a reply is cut to the space for it. -/
def SettingExact (setting : NumericSetting) (token : CString) (data : ServerData) (room : ℕ)
    (r : ConfigResult) : Prop :=
  (r.reply = okReply.take room ∧ IsDecimal token ∧ r.data = setting.set data (digitsValue token)) ∨
    ∃ why, r.reply = (ascii "ERROR" ++ why).take room ∧ r.data = data

variable {setting : NumericSetting} {token : CString} {p q : S5adminCmdParsed} {data : ServerData}
  {area line : List UInt8}

/-- Both handlers compare the value with the minimum. -/
theorem commandHandlers_setting (setting : NumericSetting) (q : S5adminCmdParsed)
    (data : ServerData) (area : List UInt8) :
    commandHandlers setting.command q data area =
      if atoi q.arg1Text < setting.minimum then
        (data, snprintf area 0 (ascii "ERROR" ++ setting.reason))
      else (setting.set data (atoi q.arg1Text).toNat, snprintf area 0 okReply) := by
  cases setting with
  | maxConn =>
    change handleSetMaxConn q data area = _
    unfold handleSetMaxConn setMaxConn
    by_cases hsmall : atoi q.arg1Text < (NumericSetting.maxConn.minimum : ℤ)
    · rw [if_pos hsmall, if_pos (by simpa [NumericSetting.minimum] using hsmall)]
      rfl
    · rw [if_neg hsmall, if_neg (by simpa [NumericSetting.minimum] using hsmall)]
      rfl
  | bufferSize =>
    change handleSetBuff q data area = _
    unfold handleSetBuff setBufferSize
    by_cases hsmall : atoi q.arg1Text < (NumericSetting.bufferSize.minimum : ℤ)
    · rw [if_pos hsmall, if_pos (by simpa [NumericSetting.minimum] using hsmall)]
      rw [NumericSetting.reason, ← List.append_assoc, ← List.append_assoc]
      rfl
    · rw [if_neg hsmall, if_neg (by simpa [NumericSetting.minimum] using hsmall)]
      rfl

/-- Text without a zero is sent as far as it fits. -/
theorem text_snprintf_take {out : List UInt8} (hroom : 0 < area.length) (hout : NulFree out) :
    text (snprintf area 0 out) = out.take (area.length - 1) := by
  rw [text_snprintf _ _ _ hroom, List.take_zero, List.nil_append, Nat.sub_zero]
  exact text_eq_self (hout.of_subset (List.take_subset _ _))

theorem isSpace_of_isDigit {c : UInt8} (h : isDigit c = true) : isSpace c = false := by
  simp only [isDigit, isSpace, Bool.and_eq_true, decide_eq_true_eq, Bool.or_eq_false_iff,
    beq_eq_false_iff_ne, Bool.and_eq_false_iff, decide_eq_false_iff_not, UInt8.le_iff_toNat_le,
    Ne, ← UInt8.toNat_inj, UInt8.reduceToNat] at h ⊢
  omega

/-- A number without a sign is read to its end and clamped. -/
theorem strtol_decimal (h : IsDecimal token) : strtol token = min (2 ^ 63 - 1) (digitsValue token : ℤ) := by
  obtain ⟨hne, hdigits⟩ := h
  obtain ⟨c, rest, rfl⟩ := List.exists_cons_of_ne_nil hne
  have hc := hdigits c List.mem_cons_self
  have hspace : isSpace c = false := isSpace_of_isDigit hc
  have hsign : splitSign (c :: rest) = (false, c :: rest) := by
    unfold splitSign
    split
    · rename_i heq
      obtain ⟨rfl, -⟩ := List.cons.inj heq
      exact absurd hc (by decide)
    · rename_i heq
      obtain ⟨rfl, -⟩ := List.cons.inj heq
      exact absurd hc (by decide)
    · rfl
  rw [strtol, List.dropWhile_cons_of_neg (by simp [hspace]), hsign]
  simp only [Bool.false_eq_true, if_false]
  rw [List.takeWhile_eq_self_iff.mpr hdigits]

/-- A value that an `int` holds is read exactly. -/
theorem atoi_decimal (h : IsDecimal token) (hlt : digitsValue token < 2 ^ 31) :
    atoi token = digitsValue token := by
  rw [atoi, strtol_decimal h, min_eq_right (by omega)]
  apply Int.bmod_eq_of_le_mul_two <;> omega

theorem atoi_lt (s : List UInt8) : atoi s < 2 ^ 31 := by
  have h := Int.bmod_lt (x := strtol s) (m := 2 ^ 32) (by decide)
  rw [atoi]
  omega

theorem NumericSetting.set_injective {m n : ℕ} (h : setting.set data m = setting.set data n) :
    m = n := by
  cases setting with
  | maxConn => exact congrArg ServerData.maxConn h
  | bufferSize => exact congrArg ServerData.bufferSize h

theorem NumericSetting.minimum_pos (setting : NumericSetting) : 0 < setting.minimum := by
  cases setting <;> decide

theorem NumericSetting.nulFree_reason (setting : NumericSetting) : NulFree setting.reason := by
  have hleast : NulFree (ascii ": buffer size must be at least ") := .ascii (by decide)
  have hbytes : NulFree (ascii " bytes\n") := .ascii (by decide)
  cases setting with
  | maxConn => exact .ascii (by decide)
  | bufferSize => simp [NumericSetting.reason, hleast, hbytes]

/-- The two replies differ in their first byte. -/
theorem okReply_ne_error {room : ℕ} (hroom : 0 < room) (why : List UInt8) :
    okReply.take room ≠ (ascii "ERROR" ++ why).take room := by
  obtain ⟨n, rfl⟩ : ∃ n, room = n + 1 := ⟨room - 1, by omega⟩
  intro heq
  exact absurd (List.cons.inj heq).1 (by decide)

/-- A command for a numeric setting is answered as `atoi` reads its token. -/
theorem configHandler_setting (setting : NumericSetting) (p : S5adminCmdParsed) (data : ServerData)
    (hnul : NulFree line) (htoks : tokens isSeparator line = [setting.command.word, token])
    (hshort : token.length ≤ 255) (hroom : 1 < area.length) :
    ∃ r, configHandler p data line area = .ok r ∧
      (atoi token < setting.minimum →
        r.reply = (ascii "ERROR" ++ setting.reason).take (area.length - 1) ∧ r.data = data) ∧
      (¬ atoi token < setting.minimum → r.reply = okReply.take (area.length - 1) ∧
        r.data = setting.set data (atoi token).toNat) := by
  have hcommand : setting.command ≠ .invalid := by cases setting <;> decide
  have harity : setting.command.arity = 1 := by cases setting <;> rfl
  have hword : setting.command.word.length ≤ 255 := by cases setting <;> decide
  obtain ⟨q, t, hok, hgrammar⟩ := s5adminParseCommand_grammar p line _ _ hnul htoks
    (by simpa using ⟨hword, hshort⟩)
  obtain ⟨hq, hfirst, -⟩ := hgrammar.accepted _ hcommand rfl harity.symm
  have hhandler := commandHandlers_setting setting q data area
  rw [← hq, hfirst token rfl] at hhandler
  have hnulOk : NulFree okReply := .ascii (by decide)
  have hnulError : NulFree (ascii "ERROR" ++ setting.reason) :=
    NulFree.append_iff.mpr ⟨.ascii (by decide), setting.nulFree_reason⟩
  refine ⟨⟨q, (commandHandlers q.cmd q data area).1, t.mem, (commandHandlers q.cmd q data area).2,
    (text (commandHandlers q.cmd q data area).2).length⟩, by rw [configHandler, hok]; rfl, ?_, ?_⟩
  · intro hsmall
    rw [hhandler, if_pos hsmall]
    exact ⟨text_snprintf_take (by omega) hnulError, rfl⟩
  · intro hlarge
    rw [hhandler, if_neg hlarge]
    exact ⟨text_snprintf_take (by omega) hnulOk, rfl⟩

/-- A command for a numeric setting is exact or refused when what `atoi` reads at the front of
the token is below the minimum, or when the token is a decimal number below `2 ^ 31`. -/
theorem setting_exact_iff (setting : NumericSetting) (p : S5adminCmdParsed) (data : ServerData)
    (line area : List UInt8) (token : CString) (hnul : NulFree line)
    (htoks : tokens isSeparator line = [setting.command.word, token])
    (hshort : token.length ≤ 255) (hroom : 1 < area.length) :
    ∃ r, configHandler p data line area = .ok r ∧
      (SettingExact setting token data (area.length - 1) r ↔
        atoi token < setting.minimum ∨ IsDecimal token ∧ digitsValue token < 2 ^ 31) := by
  obtain ⟨r, hok, hrefused, htaken⟩ :=
    configHandler_setting setting p data hnul htoks hshort hroom
  refine ⟨r, hok, ?_⟩
  by_cases hsmall : atoi token < setting.minimum
  · exact iff_of_true (.inr ⟨setting.reason, hrefused hsmall⟩) (.inl hsmall)
  obtain ⟨hreply, hdata⟩ := htaken hsmall
  have hpos := setting.minimum_pos
  constructor
  · rintro (⟨-, hdecimal, hset⟩ | ⟨why, herror, -⟩)
    · have hvalue : (atoi token).toNat = digitsValue token :=
        NumericSetting.set_injective (hdata.symm.trans hset)
      have hlt := atoi_lt token
      exact .inr ⟨hdecimal, by omega⟩
    · exact absurd (hreply.symm.trans herror) (okReply_ne_error (by omega) why)
  · rintro (hlow | ⟨hdecimal, hlt⟩)
    · exact absurd hlow hsmall
    · rw [atoi_decimal hdecimal hlt, Int.toNat_natCast] at hdata
      exact .inl ⟨hreply, hdecimal, hdata⟩

/-- A hundred connections are allowed. -/
theorem setting_exact_iff_hundred :
    ∃ r, configHandler (initialCmdParsed []) startedData (ascii "SET_MAX_CONN 100")
        (List.replicate 64 0) = .ok r ∧
      (SettingExact .maxConn (ascii "100") startedData ((List.replicate 64 (0 : UInt8)).length - 1) r ↔
        atoi (ascii "100") < NumericSetting.maxConn.minimum ∨
          IsDecimal (ascii "100") ∧ digitsValue (ascii "100") < 2 ^ 31) :=
  setting_exact_iff .maxConn _ _ _ _ _ (.ascii (by decide)) (by decide) (by decide)
    (by rw [List.length_replicate]; decide)

/-- `12abc` is taken for twelve. -/
theorem not_setting_exact :
    ¬ ∀ (setting : NumericSetting) (p : S5adminCmdParsed) (data : ServerData)
      (line area : List UInt8) (token : CString), NulFree line →
      tokens isSeparator line = [setting.command.word, token] → token.length ≤ 255 →
      1 < area.length →
        ∃ r, configHandler p data line area = .ok r ∧
          SettingExact setting token data (area.length - 1) r := by
  intro hall
  have hnul : NulFree (ascii "SET_MAX_CONN 12abc") := .ascii (by decide)
  have htoks : tokens isSeparator (ascii "SET_MAX_CONN 12abc") =
      [NumericSetting.maxConn.command.word, ascii "12abc"] := by decide
  obtain ⟨r, hok, hexact⟩ := hall .maxConn (initialCmdParsed []) startedData _ [0, 0] _ hnul htoks
    (by decide) (by decide)
  have hroom : 1 < ([0, 0] : List UInt8).length := by decide
  obtain ⟨r', hok', -, htaken⟩ := configHandler_setting .maxConn (initialCmdParsed []) startedData
    hnul htoks (by decide) hroom
  obtain rfl : r = r' := Except.ok.inj (hok.symm.trans hok')
  obtain ⟨hreply, -⟩ := htaken (by decide)
  rcases hexact with ⟨-, hdecimal, -⟩ | ⟨why, herror, -⟩
  · exact absurd hdecimal (by decide)
  · exact okReply_ne_error (by decide) why (hreply.symm.trans herror)

end Socks5d
