import Socks5d.Admin.Effects

/-!
# One exchange on an admin connection

A connection that has nothing to send reads bytes that complete a line, and the `send` that
follows takes the whole reply. Afterwards it has nothing to send again, and what came behind
the line is still in `in_buff`.
-/

namespace Socks5d

open CStrings GuardedRun Fallible

/-- An open connection that waits for bytes and has nothing to send. -/
structure Ready (s : AdminState) (k : AdminConn) : Prop where
  conn : s.conn = some k
  interest : s.interest = some OP_READ
  drained : k.outBuff.content = []
  capacity : k.outBuff.capacity = MAX_RESPONSE_LEN

theorem ready_accepted (fd : ℕ) (peer : CString × UInt16) (parsed : S5adminCmdParsed)
    (data : ServerData) : Ready (s5adminAccepted fd peer parsed data) (AdminConn.init fd peer) where
  conn := rfl
  interest := rfl
  drained := Buffer.content_bufferInit _
  capacity := List.length_replicate

/-- A connection that has this reply to send. -/
structure Replying (s : AdminState) (k : AdminConn) (reply : List UInt8) : Prop where
  conn : s.conn = some k
  interest : s.interest = some OP_WRITE
  pending : k.outBuff.content = reply
  capacity : k.outBuff.capacity = MAX_RESPONSE_LEN

/-- Nothing was received on a fresh connection, and all of `in_buff` is free. -/
theorem content_init (fd : ℕ) (peer : CString × UInt16) :
    (AdminConn.init fd peer).inBuff.content = [] :=
  Buffer.content_bufferInit _

theorem space_init (fd : ℕ) (peer : CString × UInt16) :
    (AdminConn.init fd peer).inBuff.space = MAX_CMD_LEN :=
  (Buffer.space_of_content_nil _ (content_init fd peer)).trans (length_acceptedData peer)

variable {s s' : AdminState} {k : AdminConn} {command rest reply : List UInt8} {first : UInt8}
  {tail : List UInt8}

theorem Ready.space (h : Ready s k) : k.outBuff.space = MAX_RESPONSE_LEN :=
  (k.outBuff.space_of_content_nil h.drained).trans h.capacity

theorem Ready.length_area (h : Ready s k) : k.area.length = MAX_RESPONSE_LEN := by
  rw [AdminConn.length_area, h.space]

theorem Ready.canWrite (h : Ready s k) : bufferCanWrite k.outBuff = true := by
  rw [Buffer.bufferCanWrite_iff, h.space]
  decide

theorem Ready.enabled (h : Ready s k) (outcome : RecvOutcome) :
    adminEnabled s (.readable outcome) = true := by
  rw [adminEnabled, h.interest]
  rfl

/-- A read of bytes that fit goes on to the search for a newline. -/
theorem Ready.read (h : Ready s k) (hfit : (first :: tail).length ≤ k.inBuff.space) :
    ∃ k₁, Receives k (first :: tail) k₁ ∧ adminRead s (.data first tail) =
        adminSearch (s.received k₁ (first :: tail)) k₁ := by
  obtain ⟨k₁, hrec, hread⟩ := exists_receives k (List.cons_ne_nil first tail) hfit
  have hroom : bufferCanWrite k.inBuff = true := by
    rw [Buffer.bufferCanWrite_iff]
    simp only [List.length_cons] at hfit
    omega
  refine ⟨k₁, hrec, ?_⟩
  rw [← hread s, adminRead, AdminState.record, h.conn, ok_bind, hroom, Bool.not_true,
    if_neg (by decide)]
  change adminReceived s k ((first :: tail).take k.inBuff.space) = _
  rw [List.take_of_length_le hfit]

/-- Bytes that complete a line are answered. -/
theorem Ready.line (h : Ready s k) (command rest : List UInt8)
    (hfit : (first :: tail).length ≤ k.inBuff.space)
    (hsplit : k.inBuff.content ++ first :: tail = command ++ newline :: rest)
    (hline : ∀ x ∈ command, x ≠ newline ∧ x ≠ 0)
    (htoken : command = [] ∨ ∃ x ∈ command, isSeparator x = false) :
    ∃ (r : ConfigResult) (s' : AdminState) (k' : AdminConn),
      adminAnswer s.parsed s.data command k.area = .ok r ∧
      adminStep s (.readable (.data first tail)) = .ok s' ∧
      Replying s' k' (r.response.take r.result.toNat) ∧
      k'.inBuff.content = rest ∧ k'.inBuff.capacity = k.inBuff.capacity ∧
      s'.parsed = r.parsed ∧ s'.data = r.data ∧
      s'.replies = s.replies ++ [r.response.take r.result.toNat] ∧ s'.sent = s.sent := by
  obtain ⟨k₁, hrec, hread⟩ := h.read hfit
  obtain ⟨hcontent, hcapin⟩ := hrec.content
  rw [hsplit] at hcontent
  have hroom : bufferCanWrite k₁.outBuff = true := hrec.outBuff ▸ h.canWrite
  have harea : k₁.area = k.area := by rw [AdminConn.area, hrec.outBuff, AdminConn.area]
  obtain ⟨r, inBuff, outBuff, hanswer, hrest, hcap, hout, hcapout, hok⟩ :=
    adminLine_answers (s := s.received k₁ (first :: tail)) hcontent hline htoken hroom
  rw [harea] at hanswer
  rw [hrec.outBuff, h.drained, List.nil_append] at hout
  rw [hrec.outBuff, h.capacity] at hcapout
  have hsearch : adminStep s (.readable (.data first tail)) =
      adminLine (s.received k₁ (first :: tail)) k₁ command.length := by
    change adminRead s (.data first tail) = _
    rw [hread, adminSearch, k₁.strchr_ahead hcontent hline]
  refine ⟨r, _, _, hanswer, hsearch.trans hok, ⟨rfl, ?_, hout, hcapout⟩, hrest, hcap.trans hcapin,
    rfl, rfl, ?_, ?_⟩
  · simp [AdminState.received, AdminState.setConn, AdminState.note, h.interest]
  · simp [AdminState.replies, AdminState.received, AdminState.setConn, AdminState.note,
      AdminObs.replied, List.filterMap_cons]
  · simp [AdminState.sent, AdminState.received, AdminState.setConn, AdminState.note,
      AdminObs.sent, List.filterMap_cons]

/-- Bytes after which no newline is found are answered with the error, and thrown away. -/
theorem Ready.tooLong (h : Ready s k) (hfit : (first :: tail).length ≤ k.inBuff.space) :
    ∃ k₁, Receives k (first :: tail) k₁ ∧ (strchr newline k₁.ahead = none →
      ∃ s' k', adminStep s (.readable (.data first tail)) = .ok s' ∧
        Replying s' k' tooLongText ∧ k'.inBuff = bufferReset k₁.inBuff ∧
        s'.parsed = s.parsed ∧ s'.data = s.data ∧
        s'.replies = s.replies ++ [tooLongText] ∧ s'.sent = s.sent) := by
  obtain ⟨k₁, hrec, hread⟩ := h.read hfit
  refine ⟨k₁, hrec, fun hfind => ?_⟩
  have hroom : bufferCanWrite k₁.outBuff = true := hrec.outBuff ▸ h.canWrite
  have harea : tooLongText.length < k₁.area.length := by
    rw [AdminConn.length_area, hrec.outBuff, h.space]
    decide
  have htext := text_snprintf_of_fits _ _ harea (by decide +kernel)
  have hsearch : adminStep s (.readable (.data first tail)) =
      adminTooLong (s.received k₁ (first :: tail)) k₁ := by
    change adminRead s (.data first tail) = _
    rw [hread, adminSearch, hfind]
  obtain ⟨s', hok, hscan⟩ := adminTooLong_spec (s := s.received k₁ (first :: tail)) hfind
  cases hscan with
  | dropped _ hfull => rw [hroom] at hfull; cases hfull
  | withheld _ hsome _ => rw [hfind] at hsome; cases hsome
  | answered _ hsome => rw [hfind] at hsome; cases hsome
  | tooLong _ _ outBuff hcontent hcap =>
    rw [htext] at hok hcontent
    rw [hrec.outBuff, h.drained, List.nil_append] at hcontent
    rw [hrec.outBuff, h.capacity] at hcap
    refine ⟨_, _, hsearch.trans hok, ⟨rfl, ?_, hcontent, hcap⟩, rfl, rfl, rfl, ?_, ?_⟩
    · simp [AdminState.received, AdminState.setConn, AdminState.note, h.interest]
    · simp [AdminState.replies, AdminState.received, AdminState.setConn, AdminState.note,
        AdminObs.replied, List.filterMap_cons]
    · simp [AdminState.sent, AdminState.received, AdminState.setConn, AdminState.note,
        AdminObs.sent, List.filterMap_cons]

theorem Replying.enabled (h : Replying s k reply) (outcome : SendOutcome) :
    adminEnabled s (.writable outcome) = true := by
  rw [adminEnabled, h.interest]
  rfl

/-- A `send` takes a non-empty part of the reply, and OP_READ is asked for. -/
theorem Replying.send (h : Replying s k reply) (hne : reply ≠ []) (n : ℕ) :
    ∃ s' k', adminStep s (.writable (.accepted n)) = .ok s' ∧ s'.conn = some k' ∧
      s'.interest = some OP_READ ∧ k'.outBuff.content = reply.drop (n + 1) ∧
      k'.outBuff.capacity = MAX_RESPONSE_LEN ∧ k'.inBuff = k.inBuff ∧
      s'.parsed = s.parsed ∧ s'.data = s.data ∧
      s'.replies = s.replies ∧ s'.sent = s.sent ++ reply.take (n + 1) := by
  have hdrop : reply.drop (min (n + 1) reply.length) = reply.drop (n + 1) := by
    rcases Nat.le_total (n + 1) reply.length with hle | hle
    · rw [Nat.min_eq_left hle]
    · rw [Nat.min_eq_right hle, List.drop_length, List.drop_of_length_le hle]
  have htake : reply.take (min (n + 1) reply.length) = reply.take (n + 1) := by
    rw [← List.take_take, List.take_length]
  rcases adminWrite_spec h.conn (.accepted n) with ⟨-, hnone⟩ | ⟨-, hnone⟩ |
    ⟨m, outBuff, -, htaken, hcontent, hcap, -, hsent⟩
  · cases hnone
  · rw [h.pending] at hnone
    exact (hnone.elim hne nofun).elim
  · obtain rfl := Option.some.inj htaken
    rw [h.pending, hdrop] at hcontent
    rw [h.pending, htake] at hsent
    refine ⟨_, _, hsent, rfl, by simp [h.interest], hcontent, hcap.trans h.capacity, rfl, rfl, rfl,
      ?_, ?_⟩
    · simp [AdminState.replies, AdminObs.replied, List.filterMap_cons]
    · simp [AdminState.sent, AdminObs.sent]

/-- The answer to PING, whatever the area held. -/
theorem adminAnswer_ping (parsed : S5adminCmdParsed) (data : ServerData) {area : List UInt8}
    (hlen : 5 < area.length) : ∃ r, adminAnswer parsed data (ascii "PING") area = .ok r ∧
      r.response.take r.result.toNat = ascii "PONG\n" := by
  have hok : configHandler parsed data (ascii "PING") area = .ok
      ⟨{ parsed.reject .invalidCommand with cmd := .ping }, data, ascii "PING",
        snprintf area 0 (ascii "PONG\n"), (text (snprintf area 0 (ascii "PONG\n"))).length⟩ := rfl
  refine ⟨_, hok, ?_⟩
  rw [configHandler_announced hok]
  exact text_snprintf_of_fits _ _ hlen (by decide +kernel)

/-- The bytes of `PING` and its newline, as one `recv` returns them. -/
def pingChunk : RecvOutcome := .data 80 (ascii "ING\n")

/-- The address and the port of a client on the same host. -/
def localPeer : CString × UInt16 := (ascii "127.0.0.1", 40000)

/-- A fresh connection replies to PING, and keeps what came behind it. -/
theorem replying_ping_before (fd : ℕ) (peer : CString × UInt16) (parsed : S5adminCmdParsed)
    (data : ServerData) (rest : List UInt8) (hrest : rest.length + 5 ≤ MAX_CMD_LEN) :
    ∃ s k, adminStep (s5adminAccepted fd peer parsed data)
        (.readable (.data 80 (ascii "ING\n" ++ rest))) = .ok s ∧
      Replying s k (ascii "PONG\n") ∧ k.inBuff.content = rest ∧ s.replies = [ascii "PONG\n"] ∧
      s.sent = [] := by
  have hready := ready_accepted fd peer parsed data
  have hping : 80 :: (ascii "ING\n" ++ rest) = ascii "PING" ++ newline :: rest := rfl
  have hsplit : (AdminConn.init fd peer).inBuff.content ++ 80 :: (ascii "ING\n" ++ rest) =
      ascii "PING" ++ newline :: rest := by
    rw [content_init, hping, List.nil_append]
  have hfit : (80 :: (ascii "ING\n" ++ rest)).length ≤ (AdminConn.init fd peer).inBuff.space := by
    rw [space_init, hping, List.length_append, List.length_cons]
    change 4 + (rest.length + 1) ≤ _
    omega
  obtain ⟨r, s, k, hanswer, hstep, hreplying, hleft, -, -, -, hreplies, hsent⟩ :=
    hready.line (ascii "PING") rest hfit hsplit (by decide +kernel) (.inr (by decide +kernel))
  have harea : 5 < (AdminConn.init fd peer).area.length := by
    rw [hready.length_area]
    decide
  obtain ⟨r', hanswer', hpong⟩ := adminAnswer_ping parsed data harea
  obtain rfl := Except.ok.inj (hanswer.symm.trans hanswer')
  rw [hpong] at hreplying hreplies
  exact ⟨s, k, hstep, hreplying, hleft, hreplies, hsent⟩

/-- A fresh connection replies to PING. -/
theorem replying_ping (fd : ℕ) (peer : CString × UInt16) (parsed : S5adminCmdParsed)
    (data : ServerData) :
    ∃ s k, adminStep (s5adminAccepted fd peer parsed data) (.readable pingChunk) = .ok s ∧
      Replying s k (ascii "PONG\n") ∧ k.inBuff.content = [] ∧ s.replies = [ascii "PONG\n"] ∧
      s.sent = [] :=
  replying_ping_before fd peer parsed data [] (by decide)

end Socks5d
