import Socks5d.Admin.Replies

/-!
# The search for a newline

`strchr` starts at the read pointer and does not know how much was received, so what it finds
may be a newline of an earlier command, of a reply, or of the port that `passive_accept` stored in
`in_data`. It cannot be as long as every other newline in `in_data` is still to be consumed, which
holds as long as no read leaves one behind, and a zero stands before those of the peer.
-/

namespace Socks5d

open CStrings GuardedRun

/-- The offsets at which the accept stored the peer's address and port. -/
def FromPeer (i : ℕ) : Prop := SRC_ADDRESS_AT ≤ i ∧ i < SRC_PORT_AT + 2

/-- Every newline in memory lies between the two pointers, or where the accept stored the peer. -/
def NewlinesPending (b : Buffer) : Prop :=
  ∀ i, b.data[i]? = some newline → FromPeer i ∨ b.read ≤ i ∧ i < b.write

/-- In the bytes of `in_data` from an offset on, a zero stands before every newline of the peer's
address and port. -/
def PeerQuiet (pos : ℕ) (behind : List UInt8) : Prop :=
  ∀ i, FromPeer (pos + i) → behind[i]? = some newline → ∃ j, j < i ∧ behind[j]? = some 0

/-- What an admin connection may receive: a line with a token or without any byte before the
first newline or zero; otherwise no newline at all, and a zero that ends the search in
`in_data`, before it comes to a newline of the peer. -/
def Tame (s : AdminState) : AdminEvent → Prop
  | .readable (.data first rest) => ∀ k, s.conn = some k → 0 < k.inBuff.space →
      let bytes := (first :: rest).take k.inBuff.space
      let received := k.inBuff.content ++ bytes
      let behind := k.inBuff.data.drop (k.inBuff.write + bytes.length)
      match strchr newline received with
      | some n => bufferCanWrite k.outBuff = true →
          received.take n = [] ∨ ∃ x ∈ received.take n, isSeparator x = false
      | none => newline ∉ received ∧
          (0 ∈ received ∨ 0 ∈ behind ∧ PeerQuiet (k.inBuff.write + bytes.length) behind)
  | _ => True

variable {s s' : AdminState} {k k₁ : AdminConn} {bytes : List UInt8} {b b' : Buffer}

/-- A byte of the content is one between the pointers. -/
theorem Buffer.getElem?_content (b : Buffer) (i : ℕ) :
    b.content[i]? = if i < b.write - b.read then b.data[b.read + i]? else none := by
  rw [content, List.getElem?_take]
  split
  · rw [List.getElem?_drop]
  · rfl

/-- Without a newline in the content, all that are left are the peer's. -/
theorem NewlinesPending.fromPeer (h : NewlinesPending b) (hnone : newline ∉ b.content) {i : ℕ}
    (hi : b.data[i]? = some newline) : FromPeer i := by
  refine (h i hi).resolve_right ?_
  rintro ⟨hread, hwrite⟩
  refine hnone (List.mem_iff_getElem?.mpr ⟨i - b.read, ?_⟩)
  rw [Buffer.getElem?_content, if_pos (by omega), Nat.add_sub_cancel' hread]
  exact hi

/-- Nothing is pending in a reset buffer, so no newline of the content may be left. -/
theorem NewlinesPending.reset (h : NewlinesPending b) (hnone : newline ∉ b.content) :
    NewlinesPending (bufferReset b) :=
  fun _ hi => .inl (h.fromPeer hnone hi)

/-- Bytes without a newline written over the memory. -/
theorem NewlinesPending.rewrite (h : NewlinesPending b) (pos : ℕ) {more : List UInt8}
    (hmore : newline ∉ more) : NewlinesPending (b.rewrite pos more) := by
  intro i hi
  change (overwrite b.data pos more)[i]? = some newline at hi
  rw [getElem?_overwrite] at hi
  split at hi
  · exact absurd (List.mem_of_getElem? hi) hmore
  · exact h i hi

/-- The newlines in front of the new read pointer were overwritten. -/
theorem NewlinesPending.readAdv (h : NewlinesPending b) (more : List UInt8) {n : ℕ}
    (hmore : newline ∉ more) (hn : more.length = n)
    (hadv : bufferReadAdv (b.rewrite b.read more) n = .ok b') : NewlinesPending b' := by
  have hbehind : ∀ i, (b.rewrite b.read more).data[i]? = some newline →
      FromPeer i ∨ b.read + n ≤ i ∧ i < b.write := by
    intro i hi
    refine (h.rewrite b.read hmore i hi).imp_right ?_
    rintro ⟨hread, hwrite⟩
    refine ⟨?_, hwrite⟩
    by_contra hlt
    change (overwrite b.data b.read more)[i]? = some newline at hi
    rw [getElem?_overwrite] at hi
    have hlim := b.write_le_limit
    change b.read ≤ i at hread
    change i < b.write at hwrite
    rw [if_pos (by omega)] at hi
    exact hmore (List.mem_of_getElem? hi)
  unfold bufferReadAdv at hadv
  split at hadv
  · obtain rfl := Except.ok.inj hadv
    exact hbehind
  · split at hadv
    · rename_i hend
      obtain rfl := Except.ok.inj hadv
      change b.read + n = b.write at hend
      intro i hi
      refine .inl ((hbehind i hi).resolve_right ?_)
      omega
    · cases hadv

theorem Receives.read (h : Receives k bytes k₁) : k₁.inBuff.read = k.inBuff.read ∧
    k₁.inBuff.write = k.inBuff.write + bytes.length ∧
    k₁.inBuff.data = k.inBuff.data.take k.inBuff.write ++ bytes ++
      k.inBuff.data.drop (k.inBuff.write + bytes.length) := by
  have hadv := h.inBuff
  unfold bufferWriteAdv at hadv
  split at hadv
  · rw [← Except.ok.inj hadv]
    exact ⟨rfl, rfl, rfl⟩
  · cases hadv

/-- What lies behind the bytes received was there before. -/
theorem Receives.drop_data (h : Receives k bytes k₁) :
    k₁.inBuff.data.drop k₁.inBuff.write = k.inBuff.data.drop (k.inBuff.write + bytes.length) := by
  obtain ⟨-, hwrite, hdata⟩ := h.read
  have hlim := k.inBuff.write_le_limit
  rw [hwrite, hdata]
  refine List.drop_left' ?_
  simp only [List.length_append, List.length_take]
  omega

/-- Received bytes are pending, newlines and all. -/
theorem NewlinesPending.receives (h : NewlinesPending k.inBuff) (hrec : Receives k bytes k₁) :
    NewlinesPending k₁.inBuff := by
  obtain ⟨hread, hwrite, hdata⟩ := hrec.read
  have hlim := k.inBuff.write_le_limit
  have hrw := k.inBuff.read_le_write
  intro i hi
  rw [hread, hwrite]
  by_cases hlow : i < k.inBuff.write
  · rw [hdata, List.append_assoc, List.getElem?_append_left (by simp; omega),
      List.getElem?_take_of_lt hlow] at hi
    refine (h i hi).imp_right ?_
    rintro ⟨hlo, -⟩
    exact ⟨hlo, by omega⟩
  · by_cases hhigh : i < k.inBuff.write + bytes.length
    · exact .inr ⟨by omega, hhigh⟩
    left
    have hdrop : (k.inBuff.data.drop (k.inBuff.write + bytes.length))[i - (k.inBuff.write + bytes.length)]? =
        some newline := by
      rw [← hrec.drop_data, List.getElem?_drop, hwrite, Nat.add_sub_cancel' (by omega)]
      exact hi
    rw [List.getElem?_drop, Nat.add_sub_cancel' (by omega)] at hdrop
    refine (h i hdrop).resolve_right ?_
    omega

/-- A search ends at a zero, in the content or behind it, before it comes to a newline. -/
theorem NewlinesPending.search_none (h : NewlinesPending k.inBuff)
    (hnone : newline ∉ k.inBuff.content)
    (hzero : 0 ∈ k.inBuff.content ∨ 0 ∈ k.inBuff.data.drop k.inBuff.write ∧
      PeerQuiet k.inBuff.write (k.inBuff.data.drop k.inBuff.write)) :
    strchr newline k.ahead = none := by
  rw [AdminConn.ahead, AdminConn.inTail_eq]
  have hlen := k.inBuff.length_content
  refine strchr_append_of_zero (fun i hi => ?_) (by simpa using hzero.imp_right And.left)
  by_cases hlow : i < k.inBuff.content.length
  · rw [List.getElem?_append_left hlow] at hi
    exact absurd (List.mem_of_getElem? hi) hnone
  rw [List.getElem?_append_right (by omega)] at hi
  rcases hzero with h0 | ⟨-, hquiet⟩
  · -- the zero is among the bytes that were received
    obtain ⟨j, hj⟩ := List.mem_iff_getElem?.mp h0
    have hlt := (List.getElem?_eq_some_iff.mp hj).1
    exact ⟨j, by omega, by rw [List.getElem?_append_left hlt, hj]⟩
  · -- only the peer's newlines are left, and the zero stands before them
    have hpeer := h.fromPeer hnone (List.getElem?_drop ▸ hi)
    obtain ⟨j, hlt, hj⟩ := hquiet _ hpeer hi
    refine ⟨k.inBuff.content.length + j, by omega, ?_⟩
    rw [List.getElem?_append_right (by omega), Nat.add_sub_cancel_left, hj]

/-- The newlines acted on so far lie among the bytes received and not consumed, and so does
every newline in memory that is not the peer's. -/
structure SearchKept (s : AdminState) : Prop where
  acted : ∀ offset available, .line offset available ∈ s.trace → offset < available
  pending : ∀ k, s.conn = some k → NewlinesPending k.inBuff

/-- A search that finds a newline in the content, or stops in `in_data`, keeps the account. -/
theorem Scanned.searchKept (hscan : Scanned (s.received k₁ bytes) k₁ s')
    (hacted : ∀ offset available, .line offset available ∈ s.trace → offset < available)
    (hpending : NewlinesPending k₁.inBuff)
    (hnone : strchr newline k₁.ahead = none → newline ∉ k₁.inBuff.content)
    (hsome : ∀ n, strchr newline k₁.ahead = some n → n < k₁.inBuff.content.length) :
    SearchKept s' := by
  have hreceived : ∀ offset available, .line offset available ∈ (s.received k₁ bytes).trace →
      offset < available := by
    intro offset available hmem
    exact hacted _ _ (by simpa [AdminState.received, AdminState.setConn, AdminState.note] using hmem)
  have hline : ∀ n, strchr newline k₁.ahead = some n → newline ∉ k₁.ahead.take n := by
    intro n hn hmem
    obtain ⟨-, -, -, hpass⟩ := strchr_eq_some hn
    exact (hpass _ hmem).1 rfl
  cases hscan with
  | dropped hfind hfull =>
    refine ⟨hreceived, fun k hk => ?_⟩
    obtain rfl := Option.some.inj hk
    exact hpending.reset (hnone hfind)
  | tooLong hfind hroom outBuff hcontent hcap =>
    refine ⟨fun offset available hmem => hreceived _ _ (by simpa using hmem), fun k hk => ?_⟩
    obtain rfl := Option.some.inj hk
    exact hpending.reset (hnone hfind)
  | withheld n hfind hfull =>
    refine ⟨fun offset available hmem => ?_, fun k hk => ?_⟩
    · rcases List.mem_append.mp hmem with hmem | hmem
      · exact hreceived _ _ hmem
      · obtain ⟨rfl, rfl⟩ : offset = n ∧ available = k₁.inBuff.content.length := by
          simpa using hmem
        exact hsome _ hfind
    · obtain rfl := Option.some.inj hk
      refine hpending.rewrite _ ?_
      simpa [newline] using hline n hfind
  | answered n hfind hroom r hanswer inBuff outBuff hin hcontent hcap =>
    obtain ⟨hr, -⟩ := LineAnswered.of_ok hanswer
    obtain ⟨-, -, hlt, -⟩ := strchr_eq_some hfind
    refine ⟨fun offset available hmem => ?_, fun k hk => ?_⟩
    · rcases List.mem_append.mp hmem with hmem | hmem
      · exact hreceived _ _ hmem
      · obtain ⟨rfl, rfl⟩ : offset = n ∧ available = k₁.inBuff.content.length := by
          simpa using hmem
        exact hsome _ hfind
    · obtain rfl := Option.some.inj hk
      refine hpending.readAdv (r.cmd ++ [0]) ?_ ?_ hin
      · intro hmem
        rcases List.mem_append.mp hmem with hmem | hmem
        · rcases hr.cmd_bytes _ hmem with h0 | hmem
          · cases h0
          · exact hline n hfind hmem
        · cases List.mem_singleton.mp hmem
      · simp only [List.length_append, hr.cmd_length, List.length_take, List.length_singleton]
        omega

/-- A tame read is searched in the content, or up to a zero in `in_data`. -/
theorem Tame.search {first : UInt8} {rest : List UInt8} (hk : s.conn = some k)
    (htame : Tame s (.readable (.data first rest))) (hpending : NewlinesPending k.inBuff)
    (hbytes : bytes = (first :: rest).take k.inBuff.space) (hrec : Receives k bytes k₁) :
    (∃ n, strchr newline k₁.ahead = some n ∧ n < k₁.inBuff.content.length ∧
      (bufferCanWrite k₁.outBuff = true →
        k₁.ahead.take n = [] ∨ ∃ x ∈ k₁.ahead.take n, isSeparator x = false)) ∨
    strchr newline k₁.ahead = none ∧ newline ∉ k₁.inBuff.content := by
  have hspace : 0 < k.inBuff.space := by
    have := hrec.room
    have := List.length_pos_iff.mpr hrec.nonempty
    omega
  have hcontent := hrec.content.1
  have htame := htame k hk hspace
  dsimp only at htame
  rw [← hbytes, ← hcontent, ← hrec.drop_data, ← hrec.read.2.1, ← hrec.outBuff] at htame
  have hahead : k₁.ahead = k₁.inBuff.content ++ (k₁.inBuff.data.drop k₁.inBuff.write ++ k₁.outBuff.data) := by
    rw [AdminConn.ahead, AdminConn.inTail_eq, List.append_assoc]
  split at htame
  · rename_i n hfind
    obtain ⟨-, -, hlt, -⟩ := strchr_eq_some hfind
    refine .inl ⟨n, by rw [hahead]; exact strchr_append_of_some hfind, hlt, ?_⟩
    rwa [hahead, List.take_append_of_le_length hlt.le]
  · obtain ⟨hnone, hzero⟩ := htame
    exact .inr ⟨(hpending.receives hrec).search_none hnone hzero, hnone⟩

/-- A tame event keeps the account, or ends in the error path of a callback. -/
theorem SearchKept.step (h : SearchKept s) {a : AdminEvent} (htame : Tame s a) :
    (∃ s', adminStep s a = .ok s' ∧ SearchKept s') ∨ adminStep s a = .error .useAfterFree := by
  cases a with
  | elsewhere parsed data => exact .inl ⟨_, rfl, h.acted, h.pending⟩
  | readable outcome =>
    cases hk : s.conn with
    | none => exact .inr (by simp [adminStep, adminRead, AdminState.record, hk])
    | some k =>
      rcases adminRead_spec hk outcome with hclosed | ⟨bytes, k₁, hrec, ⟨first, rest, rfl, hbytes⟩, hread⟩
      · refine .inl ⟨_, hclosed, ?_, fun k hk => by cases hk⟩
        intro offset available hmem
        exact h.acted _ _ (by simpa [AdminState.released] using hmem)
      · have hpending := (h.pending k hk).receives hrec
        left
        rw [adminStep, hread, adminSearch]
        rcases htame.search hk (h.pending k hk) hbytes hrec with
          ⟨n, hfind, hlt, htoken⟩ | ⟨hfind, hnone⟩
        · rw [hfind]
          rcases adminLine_spec (s := s.received k₁ bytes) hfind with
            ⟨hroom, hne, hsep, -⟩ | ⟨-, hle, -⟩ | ⟨-, s', hok, hscan⟩
          · rcases htoken hroom with hnil | ⟨x, hx, hx'⟩
            · exact absurd hnil hne
            · rw [hsep x hx] at hx'
              cases hx'
          · omega
          · refine ⟨s', hok, hscan.searchKept h.acted hpending ?_ ?_⟩
            · intro hfind'
              cases hfind.symm.trans hfind'
            · intro n' hfind'
              obtain rfl := Option.some.inj (hfind.symm.trans hfind')
              exact hlt
        · rw [hfind]
          obtain ⟨s', hok, hscan⟩ := adminTooLong_spec (s := s.received k₁ bytes) hfind
          refine ⟨s', hok, hscan.searchKept h.acted hpending (fun _ => hnone) ?_⟩
          intro n' hfind'
          cases hfind.symm.trans hfind'
  | writable outcome =>
    cases hk : s.conn with
    | none => exact .inr (by simp [adminStep, adminWrite, AdminState.record, hk])
    | some k =>
      rcases adminWrite_spec hk outcome with ⟨herr, -⟩ | ⟨hsame, -⟩ |
        ⟨n, outBuff, -, -, -, -, -, hsent⟩
      · exact .inr herr
      · exact .inl ⟨s, hsame, h⟩
      · refine .inl ⟨_, hsent, ?_, ?_⟩
        · intro offset available hmem
          exact h.acted _ _ (by simpa using hmem)
        · intro k' hk'
          obtain rfl := Option.some.inj hk'
          exact h.pending k hk

section Crashes

variable {first : UInt8} {tail line rest : List UInt8}

/-- A line of separators gives a null pointer to `strcmp`. -/
theorem Ready.separators_fatal (h : Ready s k) (hfit : (first :: tail).length ≤ k.inBuff.space)
    (hsplit : k.inBuff.content ++ first :: tail = line ++ newline :: rest) (hne : line ≠ [])
    (hline : ∀ x ∈ line, x ≠ newline ∧ isSeparator x = true) :
    adminStep s (.readable (.data first tail)) = .error .nullDeref := by
  obtain ⟨k₁, hrec, hread⟩ := h.read hfit
  have hcontent := hrec.content.1.trans hsplit
  have hpass : ∀ x ∈ line, x ≠ newline ∧ x ≠ 0 := by
    intro x hx
    obtain ⟨hnewline, hsep⟩ := hline x hx
    refine ⟨hnewline, ?_⟩
    rintro rfl
    cases hsep
  have hfind := k₁.strchr_ahead hcontent hpass
  have htake := k₁.take_ahead hcontent
  have hroom : bufferCanWrite k₁.outBuff = true := hrec.outBuff ▸ h.canWrite
  rcases adminAnswer_spec (s.received k₁ (first :: tail)).parsed (s.received k₁ (first :: tail)).data
    line (k₁.rewrite (line ++ [0])).area with ⟨-, -, herr⟩ | ⟨htoken, -⟩
  · change adminRead s (.data first tail) = _
    rw [hread, adminSearch, hfind]
    exact adminLine_of_fault hroom (by rwa [htake])
  · rcases htoken with hnil | ⟨x, hx, hx'⟩
    · exact absurd hnil hne
    · rw [(hline x hx).2] at hx'
      cases hx'

/-- A newline left behind the bytes received makes the read pointer run past them. -/
theorem Ready.stale_fatal (h : Ready s k) (hfit : (first :: tail).length ≤ k.inBuff.space)
    (hpass : ∀ x ∈ k.inBuff.content ++ first :: tail, x ≠ newline ∧ x ≠ 0)
    (htoken : ∃ x ∈ k.inBuff.content ++ first :: tail, isSeparator x = false)
    (hstale : k.inBuff.data[k.inBuff.write + (first :: tail).length]? = some newline) :
    adminStep s (.readable (.data first tail)) = .error .assertion := by
  obtain ⟨k₁, hrec, hread⟩ := h.read hfit
  have hcontent := hrec.content.1
  obtain ⟨behind, hbehind⟩ : ∃ behind, k₁.inBuff.data.drop k₁.inBuff.write = newline :: behind := by
    obtain ⟨hlt, hget⟩ := List.getElem?_eq_some_iff.mp hstale
    rw [hrec.drop_data, List.drop_eq_getElem_cons hlt, hget]
    exact ⟨_, rfl⟩
  have hahead : k₁.ahead = k₁.inBuff.content ++ newline :: (behind ++ k₁.outBuff.data) := by
    rw [AdminConn.ahead, AdminConn.inTail_eq, hbehind, List.append_assoc, List.cons_append]
  rw [← hcontent] at hpass htoken
  have hfind : strchr newline k₁.ahead = some k₁.inBuff.content.length := by
    rw [hahead, strchr_of_pass hpass]
  have htake : k₁.ahead.take k₁.inBuff.content.length = k₁.inBuff.content := by
    rw [hahead, List.take_left]
  have hroom : bufferCanWrite k₁.outBuff = true := hrec.outBuff ▸ h.canWrite
  change adminRead s (.data first tail) = _
  rw [hread, adminSearch, hfind]
  rcases adminLine_spec (s := s.received k₁ (first :: tail)) hfind with
    ⟨-, -, hsep, -⟩ | ⟨-, -, herr⟩ | ⟨hin, -⟩
  · rw [htake] at hsep
    obtain ⟨x, hx, hx'⟩ := htoken
    rw [hsep x hx] at hx'
    cases hx'
  · exact herr
  · exact absurd (hin hroom) (Nat.lt_irrefl _)

/-- So does the low byte of the peer's port, when it is a newline and the first chunk ends there. -/
theorem port_fatal (fd : ℕ) {peer : CString × UInt16} (parsed : S5adminCmdParsed)
    (data : ServerData) (hport : peer.2.toUInt8 = newline)
    (hlen : (first :: tail).length = SRC_PORT_AT)
    (hpass : ∀ x ∈ first :: tail, x ≠ newline ∧ x ≠ 0)
    (htoken : ∃ x ∈ first :: tail, isSeparator x = false) :
    adminStep (s5adminAccepted fd peer parsed data) (.readable (.data first tail)) =
      .error .assertion := by
  have hcontent := content_init fd peer
  refine (ready_accepted fd peer parsed data).stale_fatal ?_ ?_ ?_ ?_
  · rw [space_init, hlen]
    decide
  · rwa [hcontent, List.nil_append]
  · rwa [hcontent, List.nil_append]
  · rw [hlen]
    change (acceptedData peer)[0 + SRC_PORT_AT]? = some newline
    have hroom : 0 + SRC_PORT_AT < MAX_CMD_LEN := by decide
    rw [acceptedData, getElem?_overwrite, length_overwrite, List.length_replicate,
      if_pos ⟨by omega, by simp, hroom⟩]
    simp [hport]

end Crashes

/-- The accept has stored no newline but in the peer's address or port. -/
theorem newlinesPending_init (fd : ℕ) (peer : CString × UInt16) :
    NewlinesPending (AdminConn.init fd peer).inBuff := by
  intro i hi
  left
  change (acceptedData peer)[i]? = some newline at hi
  have hlen := List.length_take_le (INET6_ADDRSTRLEN - 1) peer.1
  simp only [acceptedData, getElem?_overwrite, length_overwrite, List.length_append,
    List.length_replicate, List.length_cons, List.length_nil] at hi
  have hsize : INET6_ADDRSTRLEN = 46 := rfl
  have hat : SRC_ADDRESS_AT = 56 ∧ SRC_PORT_AT = 102 := ⟨rfl, rfl⟩
  unfold FromPeer
  split at hi
  · omega
  · split at hi
    · omega
    · have hzero : newline = 0 := List.eq_of_mem_replicate (List.mem_of_getElem? hi)
      cases hzero

/-- As long as what arrives is tame, every newline acted on was received and not yet consumed,
no assertion fails, and `strcmp` is called with a token. -/
theorem search_safe {events : List AdminEvent} (hrun : AdminRun Tame events s) :
    (∀ offset available, .line offset available ∈ s.trace → offset < available) ∧
    ∀ a, adminEnabled s a = true → Tame s a →
      adminStep s a ≠ .error .assertion ∧ adminStep s a ≠ .error .nullDeref := by
  obtain ⟨fd, peer, parsed, data, hrun⟩ := hrun
  have hkept : SearchKept s := by
    refine hrun.invariant ?_ fun s a s' hs henabled htame hstep => ?_
    · refine ⟨nofun, fun k hk => ?_⟩
      obtain rfl := Option.some.inj hk
      exact newlinesPending_init fd peer
    · rcases hs.step htame with ⟨s₁, hok, hkept⟩ | herr
      · exact Except.ok.inj (hok.symm.trans hstep) ▸ hkept
      · cases herr.symm.trans hstep
  refine ⟨hkept.acted, fun a henabled htame => ?_⟩
  rcases hkept.step htame with ⟨s₁, hok, -⟩ | herr
  · rw [hok]
    exact ⟨nofun, nofun⟩
  · rw [herr]
    exact ⟨nofun, nofun⟩

/-- PING on a fresh connection is tame, and answered. -/
theorem search_safe_ping : ∃ s, AdminRun Tame [.readable pingChunk, .writable (.accepted 4)] s ∧
    (∀ offset available, .line offset available ∈ s.trace → offset < available) ∧
    ∀ a, adminEnabled s a = true → Tame s a →
      adminStep s a ≠ .error .assertion ∧ adminStep s a ≠ .error .nullDeref := by
  obtain ⟨s, k, hread, hreplying, -⟩ := replying_ping 5 localPeer (initialCmdParsed []) startedData
  obtain ⟨s', k', hwrite, -⟩ := hreplying.send (by decide) 4
  have htame : Tame (s5adminAccepted 5 localPeer (initialCmdParsed []) startedData) (.readable pingChunk) := by
    intro k hk _
    obtain rfl := Option.some.inj hk
    rw [content_init, space_init]
    exact fun _ => .inr (by decide)
  have hrun : AdminRun Tame [.readable pingChunk, .writable (.accepted 4)] s' :=
    ⟨5, localPeer, initialCmdParsed [], startedData, run_pair hread (hreplying.enabled _) htame trivial hwrite⟩
  exact ⟨s', hrun, search_safe hrun⟩

/-- The bytes `a`, zero, `b`, newline: the search ends at the zero, and the newline stays. -/
def zeroChunk : RecvOutcome := .data 97 [0, 98, 10]

/-- After the reply to them, three more bytes end where the newline was left. -/
theorem not_search_safe :
    ¬ ∀ events s a, AdminRun unguarded events s → adminEnabled s a = true →
      adminStep s a ≠ .error .assertion ∧ adminStep s a ≠ .error .nullDeref := by
  intro hall
  have hready := ready_accepted 5 localPeer (initialCmdParsed []) startedData
  have hfit : (97 :: [0, 98, 10] : List UInt8).length ≤ (AdminConn.init 5 localPeer).inBuff.space := by
    rw [space_init]
    decide
  obtain ⟨k₁, hrec, hlong⟩ := hready.tooLong hfit
  have hcontent : k₁.inBuff.content = [97, 0, 98, 10] := by rw [hrec.content.1, content_init]; rfl
  have hfind : strchr newline k₁.ahead = none := by
    rw [AdminConn.ahead, AdminConn.inTail_eq, hcontent]
    exact strchr_of_zero (a := [97]) (by decide +kernel) (by decide)
  obtain ⟨s, k, hread, hreplying, hin, -⟩ := hlong hfind
  obtain ⟨s', k', hwrite, hk', hinterest, hout, hcap, hin', -⟩ := hreplying.send (by decide) 23
  have hready' : Ready s' k' := ⟨hk', hinterest, by rw [hout]; decide, hcap⟩
  have hnil : k'.inBuff.content = [] := by rw [hin', hin, Buffer.content_bufferReset]
  obtain ⟨-, -, hdata⟩ := hrec.read
  have hstale : k'.inBuff.data[3]? = some newline := by
    rw [hin', hin]
    change k₁.inBuff.data[3]? = _
    rw [hdata]
    rfl
  have hcapin : k'.inBuff.space = MAX_CMD_LEN := by
    rw [Buffer.space_of_content_nil _ hnil, hin', hin, Buffer.capacity_bufferReset, hrec.content.2]
    exact length_acceptedData localPeer
  have hwriteAt : k'.inBuff.write = 0 := by rw [hin', hin]; rfl
  have hcrash : adminStep s' (.readable (.data 120 [121, 122])) = .error .assertion :=
    hready'.stale_fatal (by rw [hcapin]; decide) (by rw [hnil]; decide +kernel)
      (by rw [hnil]; decide)
      (by rw [hwriteAt]; exact hstale)
  have hrun : AdminRun unguarded [.readable zeroChunk, .writable (.accepted 23)] s' :=
    ⟨5, localPeer, initialCmdParsed [], startedData, run_pair hread (hreplying.enabled _) trivial trivial hwrite⟩
  exact (hall _ s' _ hrun (hready'.enabled _)).1 hcrash

end Socks5d
