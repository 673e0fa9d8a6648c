import Socks5d.Admin.Conn
import Socks5d.Lib.Fallible

/-!
# What the admin callbacks do

One description per callback: `Scanned` lists what `admin_read` may do once bytes have arrived,
and the lemmas beside it say when it returns. The invariants of an admin connection are derived
from these descriptions, not from the callbacks.
-/

namespace Socks5d

open CStrings GuardedRun Fallible

namespace Buffer

variable (b : Buffer)

/-- Part of what was placed at the write pointer is announced. -/
theorem bufferWriteAdv_store_take {response : List UInt8} {n : ℕ} (hn : n ≤ response.length)
    (hfit : response.length ≤ b.space) :
    ∃ b', bufferWriteAdv (b.store response) n = .ok b' ∧
      b'.content = b.content ++ response.take n ∧ b'.capacity = b.capacity := by
  have hw := b.write_le_limit
  have hr := b.read_le_write
  have hcap := capacity_store b response hfit
  have hlen : (b.data.take b.write).length = b.write := by simp [hw]
  simp only [space] at hfit
  have hok : (b.store response).write + n ≤ (b.store response).data.length := by
    change b.write + n ≤ (b.store response).capacity
    rw [hcap, capacity]
    omega
  refine ⟨_, dif_pos hok, ?_, hcap⟩
  have hdrop : ((b.data.take b.write).drop b.read).length = b.write - b.read := by
    simp only [List.length_drop, hlen]
  simp only [content, store]
  rw [List.append_assoc, List.drop_append_of_le_length (by omega), List.take_append, hdrop,
    List.take_of_length_le (by omega), List.drop_take,
    show b.write + n - b.read - (b.write - b.read) = n by omega,
    List.take_append_of_le_length hn]

@[simp] theorem rewrite_nil (pos : ℕ) : b.rewrite pos [] = b := by
  unfold rewrite
  simp only [overwrite_nil]

@[simp] theorem capacity_rewrite (pos : ℕ) (bytes : List UInt8) :
    (b.rewrite pos bytes).capacity = b.capacity :=
  length_overwrite _ _ _

@[simp] theorem space_rewrite (pos : ℕ) (bytes : List UInt8) :
    (b.rewrite pos bytes).space = b.space := by
  change (overwrite b.data pos bytes).length - b.write = b.data.length - b.write
  rw [length_overwrite]

@[simp] theorem length_content_rewrite (pos : ℕ) (bytes : List UInt8) :
    (b.rewrite pos bytes).content.length = b.content.length := by
  rw [length_content, length_content]
  rfl

/-- Rewriting at the read pointer changes nothing behind the bytes written. -/
theorem drop_content_rewrite {bytes : List UInt8} {n : ℕ} (hn : bytes.length ≤ n) :
    (b.rewrite b.read bytes).content.drop n = b.content.drop n := by
  have hrow : ((b.rewrite b.read bytes).data.drop b.read).drop n = (b.data.drop b.read).drop n := by
    apply List.ext_getElem?
    intro i
    rw [List.getElem?_drop, List.getElem?_drop, List.getElem?_drop, List.getElem?_drop, rewrite,
      getElem?_overwrite, if_neg (by omega)]
  change (((b.rewrite b.read bytes).data.drop b.read).take (b.write - b.read)).drop n = _
  rw [List.drop_take, hrow, content, List.drop_take]

end Buffer

namespace AdminConn

variable (k : AdminConn) {bytes : List UInt8}

/-- A line that ends in `in_data` is rewritten there. -/
theorem outBuff_rewrite (h : bytes.length ≤ k.inTail.length) :
    (k.rewrite bytes).outBuff = k.outBuff := by
  change k.outBuff.rewrite 0 (bytes.drop k.inTail.length) = k.outBuff
  rw [List.drop_eq_nil_iff.mpr h, Buffer.rewrite_nil]

@[simp] theorem bufferCanWrite_rewrite :
    bufferCanWrite (k.rewrite bytes).outBuff = bufferCanWrite k.outBuff := by
  change decide (k.outBuff.write < (overwrite _ _ _).length) = _
  rw [length_overwrite, bufferCanWrite]

@[simp] theorem length_area : k.area.length = k.outBuff.space := by
  simp [area, Buffer.space]

theorem length_inTail : k.inTail.length = k.inBuff.data.length - k.inBuff.read := by
  simp [inTail]

/-- The bytes received and not consumed are at the front of `in_data` from the read pointer. -/
theorem inTail_eq : k.inTail = k.inBuff.content ++ k.inBuff.data.drop k.inBuff.write := by
  have hr := k.inBuff.read_le_write
  have hsplit := List.take_append_drop (k.inBuff.write - k.inBuff.read) k.inTail
  rw [inTail, List.drop_drop,
    show k.inBuff.read + (k.inBuff.write - k.inBuff.read) = k.inBuff.write by omega] at hsplit
  rw [inTail, ← hsplit]
  rfl

theorem length_content_le_inTail : k.inBuff.content.length ≤ k.inTail.length := by
  rw [inTail_eq, List.length_append]
  omega

end AdminConn

section Answers

variable {parsed : S5adminCmdParsed} {data : ServerData} {line area : List UInt8}
  {r : ConfigResult}

@[simp] theorem length_metricsPrint (metrics : ServerMetrics) (buffer : List UInt8) :
    (metricsPrint metrics buffer).length = buffer.length := length_snprintf _ _ _

theorem length_printRows (rows : List (List UInt8)) (written : ℕ) (response : List UInt8) :
    (printRows rows written response).2.2.length = response.length := by
  induction rows generalizing written response with
  | nil => rfl
  | cons row rows ih =>
    rw [printRows]
    split
    · exact length_snprintf _ _ _
    · rw [ih, length_snprintf]

@[simp] theorem length_authListUsers (users : UserTable) (response : List UInt8) :
    (authListUsers users response).2.length = response.length := by
  have h := length_printRows (userRows users) 0 response
  unfold authListUsers
  split
  · rename_i heq
    rw [heq] at h
    exact h
  · rename_i heq
    rw [heq] at h
    split
    · rw [length_snprintf]
      exact h
    · exact h

@[simp] theorem length_accessRegisterPrint (reg : AccessRegister) (response : List UInt8) :
    (accessRegisterPrint reg response).2.length = response.length := by
  have h := length_printRows (reg.rows reg.head reg.count) headerRow.length
    (snprintf response 0 headerRow)
  rw [length_snprintf] at h
  unfold accessRegisterPrint
  dsimp only
  split
  · exact length_snprintf _ _ _
  · split
    · rw [length_snprintf]
      exact h
    · exact h

/-- Handlers write into the area they are given and leave its size alone. -/
theorem length_commandHandlers (cmd : S5adminCommand) (parsed : S5adminCmdParsed)
    (data : ServerData) (response : List UInt8) :
    (commandHandlers cmd parsed data response).2.length = response.length := by
  cases cmd with
  | addUser => simp only [commandHandlers, handleAddUser]; split <;> simp
  | removeUser => simp only [commandHandlers, handleRemoveUser]; split <;> simp
  | listUsers => simp [commandHandlers, handleListUsers]
  | getMetrics => simp [commandHandlers, handleGetMetrics]
  | getAccessRegister => simp [commandHandlers, handleGetAccessRegister]
  | setLoglevel => simp only [commandHandlers, handleSetLoglevel]; split_ifs <;> simp
  | setMaxConn => simp only [commandHandlers, handleSetMaxConn]; split <;> simp
  | setBuff => simp only [commandHandlers, handleSetBuff]; split <;> simp
  | getConfig => simp [commandHandlers, handleGetConfig]
  | help => simp [commandHandlers, handleHelp]
  | ping => simp [commandHandlers, handlePing]
  | exit => simp [commandHandlers, handleExit]
  | invalid => simp [commandHandlers]

/-- Parsing a line only writes zeros into it. -/
theorem noMoreArguments_erases (parsed : S5adminCmdParsed) (t : Scan) :
    t.Erases (noMoreArguments parsed t).2 := by
  unfold noMoreArguments
  split <;> rename_i h <;> exact strtokR_erases h

theorem nextArgument_erases (t : Scan) : t.Erases (nextArgument t).2 := by
  unfold nextArgument
  split
  · rename_i h
    exact strtokR_erases h
  · rename_i h
    split
    · exact (strtokR_erases h).trans (strtokUntil_erases _ _ _)
    · exact strtokR_erases h

theorem s5adminParseCommandArgs_erases (parsed : S5adminCmdParsed) (t : Scan) (n : ℕ) :
    t.Erases (s5adminParseCommandArgs parsed t n).2 := by
  have hnext := nextArgument_erases t
  unfold s5adminParseCommandArgs
  split
  · exact noMoreArguments_erases parsed t
  · split
    · rename_i h
      rwa [h] at hnext
    · rename_i h
      rw [h] at hnext
      exact hnext.trans (noMoreArguments_erases _ _)
  · split
    · rename_i h
      rwa [h] at hnext
    · rename_i t₁ h
      rw [h] at hnext
      have hsecond := nextArgument_erases t₁
      dsimp only
      split
      · rename_i h'
        rw [h'] at hsecond
        exact hnext.trans hsecond
      · rename_i h'
        rw [h'] at hsecond
        exact (hnext.trans hsecond).trans (noMoreArguments_erases _ _)
  · exact .refl t

/-- A line is parsed when it has a token, and then only zeros are written into it. -/
theorem s5adminParseCommand_spec (parsed : S5adminCmdParsed) (line : CString) :
    (∀ x ∈ line, isSeparator x = true) ∧ s5adminParseCommand parsed line = .error .nullDeref ∨
    (∃ x ∈ line, isSeparator x = false) ∧ ∃ r, s5adminParseCommand parsed line = .ok r ∧
      Scan.Erases ⟨[], line⟩ r.2 := by
  have hnone : (strtokR isSeparator ⟨[], line⟩).1 = none ↔ _ := strtokR_fst_eq_none
  unfold s5adminParseCommand
  dsimp only
  rcases hfound : strtokR isSeparator ⟨[], line⟩ with ⟨_ | token, t⟩
  · rw [hfound] at hnone
    exact .inl ⟨hnone.mp rfl, rfl⟩
  · right
    have herases := strtokR_erases hfound
    rw [hfound] at hnone
    constructor
    · by_contra hall
      have hsep : ∀ x ∈ line, isSeparator x = true := by simpa using hall
      cases hnone.mpr hsep
    · dsimp only
      split
      · exact ⟨_, rfl, herases.trans (s5adminParseCommandArgs_erases _ _ _)⟩
      · exact ⟨_, rfl, herases⟩

/-- What an answer amounts to: an announced part of a response area of the same size, and a
line in which only zeros were written. -/
structure LineAnswered (line area : List UInt8) (r : ConfigResult) : Prop where
  length : r.response.length = area.length
  nonneg : 0 ≤ r.result
  fits : 0 < area.length → r.result.toNat ≤ area.length
  cmd_length : r.cmd.length = line.length
  cmd_bytes : ∀ x ∈ r.cmd, x = 0 ∨ x ∈ line

/-- A line is answered unless it has bytes but no token. -/
theorem adminAnswer_spec (parsed : S5adminCmdParsed) (data : ServerData)
    (line area : List UInt8) :
    line ≠ [] ∧ (∀ x ∈ line, isSeparator x = true) ∧
      adminAnswer parsed data line area = .error .nullDeref ∨
    (line = [] ∨ ∃ x ∈ line, isSeparator x = false) ∧
      ∃ r, adminAnswer parsed data line area = .ok r ∧ LineAnswered line area r := by
  unfold adminAnswer
  split
  · rename_i hblank
    refine .inr ⟨.inl hblank, _, rfl, ?_⟩
    exact {
      length := length_strcpy _ _
      nonneg := Int.one_nonneg
      fits := fun h => h
      cmd_length := rfl
      cmd_bytes := fun _ hx => .inr hx }
  · rename_i hne
    rcases s5adminParseCommand_spec parsed line with ⟨hsep, herr⟩ | ⟨htoken, ⟨q, t⟩, hok, herases⟩
    · refine .inl ⟨hne, hsep, ?_⟩
      rw [configHandler, herr]
      rfl
    · refine .inr ⟨.inr htoken, _, by rw [configHandler, hok]; rfl, ?_⟩
      have hlen := length_commandHandlers q.cmd q data area
      exact {
        length := hlen
        nonneg := Int.natCast_nonneg _
        fits := fun _ => hlen ▸ length_text_le _
        cmd_length := by simpa [Scan.mem] using herases.length
        cmd_bytes := by simpa [Scan.mem] using herases.bytes }

/-- What is announced of an answer to a line is its string. -/
theorem configHandler_announced (h : configHandler parsed data line area = .ok r) :
    r.response.take r.result.toNat = r.reply := by
  unfold configHandler at h
  cases hparse : s5adminParseCommand parsed line with
  | error e =>
    rw [hparse] at h
    cases h
  | ok q =>
    rw [hparse] at h
    obtain rfl := Except.ok.inj h
    exact (List.prefix_iff_eq_take.mp ( List.takeWhile_prefix _)).symm

theorem LineAnswered.of_ok (h : adminAnswer parsed data line area = .ok r) :
    LineAnswered line area r ∧ (line = [] ∨ ∃ x ∈ line, isSeparator x = false) := by
  rcases adminAnswer_spec parsed data line area with ⟨-, -, herr⟩ | ⟨htoken, r', hok, hr⟩
  · rw [h] at herr
    cases herr
  · obtain rfl := Except.ok.inj (hok.symm.trans h)
    exact ⟨hr, htoken⟩

end Answers

/-- Bytes written twice at one offset. -/
theorem Buffer.rewrite_rewrite (b : Buffer) (pos : ℕ) {bytes more : List UInt8}
    (hlen : bytes.length = more.length) : (b.rewrite pos bytes).rewrite pos more = b.rewrite pos more := by
  have hdata : overwrite (overwrite b.data pos bytes) pos more = overwrite b.data pos more := by
    apply List.ext_getElem?
    intro i
    rw [getElem?_overwrite, getElem?_overwrite, getElem?_overwrite, length_overwrite, hlen]
    split <;> rfl
  simp only [rewrite, hdata]

theorem AdminConn.rewrite_rewrite (k : AdminConn) {bytes more : List UInt8}
    (hlen : bytes.length = more.length) : (k.rewrite bytes).rewrite more = k.rewrite more := by
  have htail : (k.rewrite bytes).inTail.length = k.inTail.length := by
    rw [length_inTail, length_inTail]
    change (overwrite _ _ _).length - k.inBuff.read = _
    rw [length_overwrite]
  have hin := k.inBuff.rewrite_rewrite k.inBuff.read hlen
  have hdrop : (bytes.drop k.inTail.length).length = (more.drop k.inTail.length).length := by
    simp [hlen]
  have hout := k.outBuff.rewrite_rewrite 0 hdrop
  unfold AdminConn.rewrite at htail ⊢
  rw [htail]
  exact AdminConn.mk.injEq .. ▸ ⟨rfl, hin, hout⟩

section Reading

variable {s s' : AdminState} {k : AdminConn} {bytes : List UInt8}

/-- What `admin_read` does with a record that has just received bytes. -/
inductive Scanned (s : AdminState) (k : AdminConn) : AdminState → Prop
  /-- There is no newline, and no room to say so. -/
  | dropped (hfind : strchr newline k.ahead = none) (hfull : bufferCanWrite k.outBuff = false) :
      Scanned s k (s.setConn { k with inBuff := bufferReset k.inBuff })
  | tooLong (hfind : strchr newline k.ahead = none) (hroom : bufferCanWrite k.outBuff = true)
      (outBuff : Buffer)
      (hcontent : outBuff.content = k.outBuff.content ++ text (snprintf k.area 0 tooLongText))
      (hcapacity : outBuff.capacity = k.outBuff.capacity) :
      Scanned s k { s with
        conn := some { k with inBuff := bufferReset k.inBuff, outBuff := outBuff }
        interest := s.interest.map fun _ => OP_WRITE
        trace := s.trace ++ [.reply (text (snprintf k.area 0 tooLongText))] }
  /-- There is a line, and no room for its answer. -/
  | withheld (offset : ℕ) (hfind : strchr newline k.ahead = some offset)
      (hfull : bufferCanWrite k.outBuff = false) :
      Scanned s k { s with
        conn := some (k.rewrite (k.ahead.take offset ++ [0]))
        trace := s.trace ++ [.line offset k.inBuff.content.length] }
  | answered (offset : ℕ) (hfind : strchr newline k.ahead = some offset)
      (hroom : bufferCanWrite k.outBuff = true) (r : ConfigResult)
      (hanswer : adminAnswer s.parsed s.data (k.ahead.take offset)
        (k.rewrite (k.ahead.take offset ++ [0])).area = .ok r)
      (inBuff outBuff : Buffer)
      (hin : bufferReadAdv (k.rewrite (r.cmd ++ [0])).inBuff (offset + 1) = .ok inBuff)
      (hcontent : outBuff.content =
        (k.rewrite (r.cmd ++ [0])).outBuff.content ++ r.response.take r.result.toNat)
      (hcapacity : outBuff.capacity = k.outBuff.capacity) :
      Scanned s k
        { conn := some { k with inBuff := inBuff, outBuff := outBuff }
          interest := s.interest.map fun _ => OP_WRITE
          parsed := r.parsed
          data := r.data
          trace := s.trace ++
            [.line offset k.inBuff.content.length, .reply (r.response.take r.result.toNat)] }

/-- A reply that lies in the response area is appended. -/
theorem adminReply_spec (s : AdminState) (k : AdminConn) {response : List UInt8} {n : ℕ}
    (hlen : response.length = k.outBuff.space) (hn : n ≤ response.length) :
    ∃ outBuff, adminReply s k response n =
        .ok ((s.setConn { k with outBuff := outBuff }).note (.reply (response.take n))) ∧
      outBuff.content = k.outBuff.content ++ response.take n ∧
      outBuff.capacity = k.outBuff.capacity := by
  obtain ⟨outBuff, hok, hcontent, hcap⟩ := k.outBuff.bufferWriteAdv_store_take hn hlen.le
  exact ⟨outBuff, by rw [adminReply, hok]; rfl, hcontent, hcap⟩

/-- The branch without a newline always returns. -/
theorem adminTooLong_spec (hfind : strchr newline k.ahead = none) :
    ∃ s', adminTooLong s k = .ok s' ∧ Scanned s k s' := by
  unfold adminTooLong
  dsimp only
  cases hroom : bufferCanWrite k.outBuff with
  | false => exact ⟨_, rfl, .dropped hfind hroom⟩
  | true =>
    rw [if_pos rfl]
    have hlen : (snprintf k.area 0 tooLongText).length = k.outBuff.space := by simp
    obtain ⟨outBuff, hok, hcontent, hcap⟩ := adminReply_spec s
      { k with inBuff := bufferReset k.inBuff } hlen (length_text_le _)
    have htake : (snprintf k.area 0 tooLongText).take (text (snprintf k.area 0 tooLongText)).length
        = text (snprintf k.area 0 tooLongText) :=
      (List.prefix_iff_eq_take.mp ( List.takeWhile_prefix _)).symm
    rw [htake] at hok hcontent
    refine ⟨_, ?_, .tooLong hfind hroom outBuff hcontent hcap⟩
    have harea : AdminConn.area { k with inBuff := bufferReset k.inBuff } = k.area := rfl
    rw [harea, hok]
    rfl

/-- Reading past the content fails the assertion. -/
theorem Buffer.bufferReadAdv_eq_error (b : Buffer) {n : ℕ} (h : b.content.length < n) :
    bufferReadAdv b n = .error .assertion := by
  rw [length_content] at h
  unfold bufferReadAdv
  rw [dif_neg (by omega), if_neg (by omega)]

/-- The branch for a line whose answer is known. -/
theorem adminLine_of_answer {offset : ℕ} {r : ConfigResult}
    (hroom : bufferCanWrite k.outBuff = true)
    (hanswer : adminAnswer s.parsed s.data (k.ahead.take offset)
      (k.rewrite (k.ahead.take offset ++ [0])).area = .ok r)
    (hr : LineAnswered (k.ahead.take offset) (k.rewrite (k.ahead.take offset ++ [0])).area r) :
    adminLine s k offset = (do
      let k₂ := k.rewrite (r.cmd ++ [0])
      let inBuff ← bufferReadAdv k₂.inBuff (offset + 1)
      let s ← adminReply
        { s with parsed := r.parsed, data := r.data, conn := some (k.rewrite (k.ahead.take offset ++ [0])),
                 trace := s.trace ++ [.line offset k.inBuff.content.length] }
        { k₂ with inBuff := inBuff } r.response r.result.toNat
      return s.setInterest OP_WRITE) := by
  have hcontent : (k.rewrite (k.ahead.take offset ++ [0])).inBuff.content.length =
      k.inBuff.content.length := Buffer.length_content_rewrite _ _ _
  have hlen : (k.ahead.take offset ++ [0]).length = (r.cmd ++ [(0 : UInt8)]).length := by
    rw [List.length_append, List.length_append, hr.cmd_length]
  have htwice := k.rewrite_rewrite hlen
  unfold adminLine
  dsimp only
  rw [AdminConn.bufferCanWrite_rewrite, hroom, if_neg (by decide), hcontent]
  change (adminAnswer s.parsed s.data (k.ahead.take offset)
    (k.rewrite (k.ahead.take offset ++ [0])).area >>= _) = _
  rw [hanswer, ok_bind, if_neg (by have := hr.nonneg; omega), htwice]
  rfl

/-- The branch for a line that cannot be answered. -/
theorem adminLine_of_fault {offset : ℕ} {e : Fault} (hroom : bufferCanWrite k.outBuff = true)
    (hanswer : adminAnswer s.parsed s.data (k.ahead.take offset)
      (k.rewrite (k.ahead.take offset ++ [0])).area = .error e) :
    adminLine s k offset = .error e := by
  unfold adminLine
  dsimp only
  rw [AdminConn.bufferCanWrite_rewrite, hroom, if_neg (by decide)]
  change (adminAnswer s.parsed s.data (k.ahead.take offset)
    (k.rewrite (k.ahead.take offset ++ [0])).area >>= _) = _
  rw [hanswer]
  rfl

/-- The branch for a line, by what stops it. -/
theorem adminLine_spec {offset : ℕ} (hfind : strchr newline k.ahead = some offset) :
    (bufferCanWrite k.outBuff = true ∧ k.ahead.take offset ≠ [] ∧
        (∀ x ∈ k.ahead.take offset, isSeparator x = true) ∧
        adminLine s k offset = .error .nullDeref) ∨
    (bufferCanWrite k.outBuff = true ∧ k.inBuff.content.length ≤ offset ∧
        adminLine s k offset = .error .assertion) ∨
    ((bufferCanWrite k.outBuff = true → offset < k.inBuff.content.length) ∧
      ∃ s', adminLine s k offset = .ok s' ∧ Scanned s k s') := by
  cases hroom : bufferCanWrite k.outBuff with
  | false =>
    refine .inr (.inr ⟨nofun, _, ?_, .withheld offset hfind hroom⟩)
    have hcontent : (k.rewrite (k.ahead.take offset ++ [0])).inBuff.content.length =
        k.inBuff.content.length := Buffer.length_content_rewrite _ _ _
    unfold adminLine
    dsimp only
    rw [AdminConn.bufferCanWrite_rewrite, hroom, Bool.not_false, if_pos rfl, hcontent]
    rfl
  | true =>
    rcases adminAnswer_spec s.parsed s.data (k.ahead.take offset)
      (k.rewrite (k.ahead.take offset ++ [0])).area with ⟨hne, hsep, herr⟩ | ⟨-, r, hok, hr⟩
    · exact .inl ⟨rfl, hne, hsep, adminLine_of_fault hroom herr⟩
    have hrun := adminLine_of_answer hroom hok hr
    have hcontent : (k.rewrite (r.cmd ++ [0])).inBuff.content.length = k.inBuff.content.length :=
      Buffer.length_content_rewrite _ _ _
    have hspace : ∀ bytes, (k.rewrite bytes).outBuff.space = k.outBuff.space :=
      fun _ => Buffer.space_rewrite _ _ _
    have harea : r.response.length = k.outBuff.space := by
      rw [hr.length, AdminConn.length_area, hspace]
    have hpos := (Buffer.bufferCanWrite_iff _).mp hroom
    dsimp only at hrun
    by_cases hin : offset < k.inBuff.content.length
    · have hfits : offset + 1 ≤ (k.rewrite (r.cmd ++ [0])).inBuff.content.length := by omega
      obtain ⟨inBuff, hadv⟩ := Buffer.bufferReadAdv_succeeds _ hfits
      obtain ⟨outBuff, hreply, hout, hcap⟩ := adminReply_spec
        { s with parsed := r.parsed, data := r.data, conn := some (k.rewrite (k.ahead.take offset ++ [0])),
                 trace := s.trace ++ [.line offset k.inBuff.content.length] }
        { k.rewrite (r.cmd ++ [0]) with inBuff := inBuff } (n := r.result.toNat)
        (harea.trans (hspace _).symm)
        (hr.length ▸ hr.fits (by rw [AdminConn.length_area, hspace]; exact hpos))
      refine .inr (.inr ⟨fun _ => hin, _, ?_, .answered offset hfind hroom r hok inBuff outBuff hadv
        hout (hcap.trans (Buffer.capacity_rewrite _ _ _))⟩)
      rw [hrun, hadv, ok_bind, hreply, ok_bind]
      simp [AdminState.setConn, AdminState.note, AdminState.setInterest, AdminConn.rewrite]
    · refine .inr (.inl ⟨rfl, by omega, ?_⟩)
      rw [hrun, Buffer.bufferReadAdv_eq_error _ (by omega)]
      rfl

/-- The state after the connection was closed and its record freed. -/
def AdminState.released (s : AdminState) (k : AdminConn) : AdminState :=
  { s with conn := none, interest := none, trace := s.trace ++ [.closed k.fd, .freed] }

theorem adminUnregister_eq (hk : s.conn = some k) : adminUnregister s = .ok (s.released k) := by
  simp [adminUnregister, adminClose, AdminState.record, hk, AdminState.note, AdminState.released]

/-- The error paths release the record twice. -/
theorem adminFail_eq (hk : s.conn = some k) : adminFail s = .error .useAfterFree := by
  rw [adminFail, adminUnregister_eq hk]
  rfl

/-- The state before the search for a newline: `k₁` is the record with the bytes received. -/
def AdminState.received (s : AdminState) (k₁ : AdminConn) (bytes : List UInt8) : AdminState :=
  (s.setConn k₁).note (.recv bytes)

/-- A record that has just received bytes into free space. -/
structure Receives (k : AdminConn) (bytes : List UInt8) (k₁ : AdminConn) : Prop where
  nonempty : bytes ≠ []
  room : bytes.length ≤ k.inBuff.space
  inBuff : bufferWriteAdv (k.inBuff.store bytes) bytes.length = .ok k₁.inBuff
  outBuff : k₁.outBuff = k.outBuff
  fd : k₁.fd = k.fd

theorem Receives.content {k₁ : AdminConn} (h : Receives k bytes k₁) :
    k₁.inBuff.content = k.inBuff.content ++ bytes ∧ k₁.inBuff.capacity = k.inBuff.capacity :=
  k.inBuff.bufferWriteAdv_store_eq_ok h.room h.inBuff

theorem exists_receives (k : AdminConn) (hne : bytes ≠ []) (hroom : bytes.length ≤ k.inBuff.space) :
    ∃ k₁, Receives k bytes k₁ ∧ ∀ s, adminReceived s k bytes =
      adminSearch (s.received k₁ bytes) k₁ := by
  obtain ⟨inBuff, hadv⟩ := Buffer.bufferWriteAdv_store_succeeds k.inBuff hroom
  refine ⟨{ k with inBuff := inBuff }, ⟨hne, hroom, hadv, rfl, rfl⟩, fun s => ?_⟩
  rw [adminReceived, hadv]
  rfl

/-- `admin_read` closes the connection or receives bytes and searches for a newline. -/
theorem adminRead_spec (hk : s.conn = some k) (outcome : RecvOutcome) :
    adminRead s outcome = .ok (s.released k) ∨
    ∃ bytes k₁, Receives k bytes k₁ ∧
      (∃ first rest, outcome = .data first rest ∧ bytes = (first :: rest).take k.inBuff.space) ∧
      adminRead s outcome = adminSearch (s.received k₁ bytes) k₁ := by
  have hrecord : s.record = .ok k := by rw [AdminState.record, hk]
  unfold adminRead
  rw [hrecord, ok_bind]
  cases hroom : bufferCanWrite k.inBuff with
  | false => exact .inl (adminUnregister_eq hk)
  | true =>
    rw [Bool.not_true, if_neg (by decide)]
    cases outcome with
    | eof => exact .inl (adminUnregister_eq hk)
    | failed e => exact .inl (adminUnregister_eq hk)
    | data first rest =>
      have hpos := (Buffer.bufferCanWrite_iff _).mp hroom
      have hne : (first :: rest).take k.inBuff.space ≠ [] := by simp [Nat.pos_iff_ne_zero.mp hpos]
      obtain ⟨k₁, hrec, hread⟩ :=
        exists_receives k hne (by simp only [List.length_take]; omega)
      exact .inr ⟨_, k₁, hrec, ⟨first, rest, rfl, rfl⟩, hread s⟩

/-- A search that returned did one of the things listed. -/
theorem adminSearch_cases (h : adminSearch s k = .ok s') : Scanned s k s' := by
  rw [adminSearch] at h
  split at h
  · rename_i offset hfind
    rcases adminLine_spec (s := s) hfind with ⟨-, -, -, herr⟩ | ⟨-, -, herr⟩ | ⟨-, s₁, hok, hscan⟩
    · rw [herr] at h
      cases h
    · rw [herr] at h
      cases h
    · exact Except.ok.inj (hok.symm.trans h) ▸ hscan
  · rename_i hfind
    obtain ⟨s₁, hok, hscan⟩ := adminTooLong_spec (s := s) hfind
    exact Except.ok.inj (hok.symm.trans h) ▸ hscan

/-- What an `admin_read` that returned has done. -/
theorem adminRead_cases {outcome : RecvOutcome} (hk : s.conn = some k)
    (h : adminRead s outcome = .ok s') : s' = s.released k ∨
      ∃ bytes k₁, Receives k bytes k₁ ∧ Scanned (s.received k₁ bytes) k₁ s' := by
  rcases adminRead_spec hk outcome with hclosed | ⟨bytes, k₁, hrec, -, hread⟩
  · exact .inl (Except.ok.inj (h.symm.trans hclosed))
  · exact .inr ⟨bytes, k₁, hrec, adminSearch_cases (hread ▸ h)⟩

/-- How much of what it is offered a `send` takes, unless it fails. -/
def SendOutcome.taken (outcome : SendOutcome) (offered : ℕ) : Option ℕ :=
  match outcome with
  | .accepted n => some (min (n + 1) offered)
  | .zero => some 0
  | .failed _ => none

/-- A callback that returned found its record. -/
theorem adminRead_conn {outcome : RecvOutcome} (h : adminRead s outcome = .ok s') :
    ∃ k, s.conn = some k := by
  cases hk : s.conn with
  | none => simp [adminRead, AdminState.record, hk] at h
  | some k => exact ⟨k, rfl⟩

theorem adminWrite_conn {outcome : SendOutcome} (h : adminWrite s outcome = .ok s') :
    ∃ k, s.conn = some k := by
  cases hk : s.conn with
  | none => simp [adminWrite, AdminState.record, hk] at h
  | some k => exact ⟨k, rfl⟩

/-- `admin_write` does nothing, sends a part of `out_buff`, or fails in the error path. -/
theorem adminWrite_spec (hk : s.conn = some k) (outcome : SendOutcome) :
    adminWrite s outcome = .error .useAfterFree ∧
      outcome.taken k.outBuff.content.length = none ∨
    adminWrite s outcome = .ok s ∧
      (k.outBuff.content = [] ∨ outcome.taken k.outBuff.content.length = none) ∨
    ∃ n outBuff, k.outBuff.content ≠ [] ∧ outcome.taken k.outBuff.content.length = some n ∧
      outBuff.content = k.outBuff.content.drop n ∧ outBuff.capacity = k.outBuff.capacity ∧
      (outBuff.content = [] → outBuff.read = 0) ∧
      adminWrite s outcome = .ok { s with
        conn := some { k with outBuff := outBuff }
        interest := s.interest.map fun _ => OP_READ
        trace := s.trace ++ [.send (k.outBuff.content.take n)] } := by
  have hrecord : s.record = .ok k := by rw [AdminState.record, hk]
  unfold adminWrite
  rw [hrecord, ok_bind]
  cases hdata : bufferCanRead k.outBuff with
  | false => exact .inr (.inl ⟨rfl, .inl ((Buffer.bufferCanRead_eq_false_iff _).mp hdata)⟩)
  | true =>
    have hne := (Buffer.bufferCanRead_iff _).mp hdata
    have hsent : ∀ n, n ≤ k.outBuff.content.length → ∃ outBuff : Buffer,
        outBuff.content = k.outBuff.content.drop n ∧ outBuff.capacity = k.outBuff.capacity ∧
        (outBuff.content = [] → outBuff.read = 0) ∧
        adminSent s k n = .ok { s with
          conn := some { k with outBuff := outBuff }
          interest := s.interest.map fun _ => OP_READ
          trace := s.trace ++ [.send (k.outBuff.content.take n)] } := by
      intro n hn
      obtain ⟨b, hadv⟩ := Buffer.bufferReadAdv_succeeds k.outBuff hn
      obtain ⟨hcontent, hcap⟩ := Buffer.bufferReadAdv_eq_ok hadv
      refine ⟨bufferCompact b, by simpa using hcontent, by simpa using hcap, ?_, ?_⟩
      · intro hnil
        exact (bufferCompact b).empty_at_base ((Buffer.content_eq_nil_iff _).mp hnil).symm
      · rw [adminSent, hadv]
        rfl
    rw [Bool.not_true, if_neg (by decide)]
    cases outcome with
    | accepted n =>
      obtain ⟨outBuff, hcontent, hcap, hbase, hsent⟩ := hsent _ (Nat.min_le_right (n + 1) _)
      exact .inr (.inr ⟨_, outBuff, hne, rfl, hcontent, hcap, hbase, hsent⟩)
    | zero =>
      obtain ⟨outBuff, hcontent, hcap, hbase, hsent⟩ := hsent 0 (Nat.zero_le _)
      exact .inr (.inr ⟨0, outBuff, hne, rfl, hcontent, hcap, hbase, hsent⟩)
    | failed e =>
      cases e with
      | eagain => exact .inr (.inl ⟨rfl, .inr rfl⟩)
      | _ => exact .inl ⟨adminFail_eq hk, rfl⟩

end Reading

section Lines

variable {s : AdminState} {k : AdminConn} {line rest : List UInt8}

/-- A whole line at the front of what was received is what the search finds. -/
theorem AdminConn.strchr_ahead (k : AdminConn) (hcontent : k.inBuff.content = line ++ newline :: rest)
    (hline : ∀ x ∈ line, x ≠ newline ∧ x ≠ 0) : strchr newline k.ahead = some line.length := by
  rw [ahead, inTail_eq, hcontent, List.append_assoc, List.append_assoc, List.cons_append]
  exact strchr_of_pass hline

theorem AdminConn.take_ahead (k : AdminConn) (hcontent : k.inBuff.content = line ++ newline :: rest) :
    k.ahead.take line.length = line := by
  rw [ahead, inTail_eq, hcontent, List.append_assoc, List.append_assoc, List.take_left]

/-- A whole line is answered from the line alone, and what follows it stays. -/
theorem adminLine_answers (hcontent : k.inBuff.content = line ++ newline :: rest)
    (hline : ∀ x ∈ line, x ≠ newline ∧ x ≠ 0)
    (htoken : line = [] ∨ ∃ x ∈ line, isSeparator x = false)
    (hroom : bufferCanWrite k.outBuff = true) :
    ∃ (r : ConfigResult) (inBuff outBuff : Buffer),
      adminAnswer s.parsed s.data line k.area = .ok r ∧
      inBuff.content = rest ∧ inBuff.capacity = k.inBuff.capacity ∧
      outBuff.content = k.outBuff.content ++ r.response.take r.result.toNat ∧
      outBuff.capacity = k.outBuff.capacity ∧
      adminLine s k line.length = .ok
        { conn := some { k with inBuff := inBuff, outBuff := outBuff }
          interest := s.interest.map fun _ => OP_WRITE
          parsed := r.parsed
          data := r.data
          trace := s.trace ++ [.line line.length k.inBuff.content.length,
            .reply (r.response.take r.result.toNat)] } := by
  have hfind := k.strchr_ahead hcontent hline
  have htake := k.take_ahead hcontent
  have hlen : line.length < k.inBuff.content.length := by simp [hcontent]
  have hinTail : (line ++ [(0 : UInt8)]).length ≤ k.inTail.length := by
    have := k.length_content_le_inTail
    simp only [List.length_append, List.length_singleton]
    omega
  have hout := k.outBuff_rewrite hinTail
  rcases adminLine_spec (s := s) hfind with ⟨-, hne, hsep, -⟩ | ⟨-, hle, -⟩ | ⟨-, s', hok, hscan⟩
  · rw [htake] at hne hsep
    rcases htoken with rfl | ⟨x, hx, hx'⟩
    · exact absurd rfl hne
    · rw [hsep x hx] at hx'
      cases hx'
  · omega
  · cases hscan with
    | dropped hnone _ => rw [hfind] at hnone; cases hnone
    | tooLong hnone => rw [hfind] at hnone; cases hnone
    | withheld _ _ hfull => rw [hroom] at hfull; cases hfull
    | answered offset hfind' hroom' r hanswer inBuff outBuff hin hcontent' hcap =>
      obtain rfl : line.length = offset := Option.some.inj (hfind.symm.trans hfind')
      have harea : (k.rewrite (line ++ [0])).area = k.area := by
        rw [AdminConn.area, hout, AdminConn.area]
      rw [htake, harea] at hanswer
      obtain ⟨hr, -⟩ := LineAnswered.of_ok hanswer
      have hsize : (r.cmd ++ [(0 : UInt8)]).length = line.length + 1 := by simp [hr.cmd_length]
      have hinTail' : (r.cmd ++ [(0 : UInt8)]).length ≤ k.inTail.length := by
        simpa [hr.cmd_length] using hinTail
      have hout' := k.outBuff_rewrite hinTail'
      obtain ⟨hrest, hcapin⟩ := Buffer.bufferReadAdv_eq_ok hin
      rw [hout'] at hcontent'
      refine ⟨r, inBuff, outBuff, hanswer, ?_, hcapin.trans (Buffer.capacity_rewrite _ _ _),
        hcontent', hcap, hok⟩
      rw [hrest]
      change ((k.inBuff.rewrite k.inBuff.read _).content).drop _ = _
      rw [Buffer.drop_content_rewrite _ hsize.le, hcontent]
      simp

end Lines

end Socks5d
