import Socks5d.Streams

/-!
# The flow of a relay

Each end of a relay has one exclusive interest, overwritten by five functions. The invariant here
ties both interests to the two buffers: at most one buffer holds bytes, the side those bytes go
to is asked for writing, and a side stops being read only for a full buffer. The one exception
is the origin before its first byte, which nothing reads.
-/

namespace Socks5d

/-- Something was sent to the origin. -/
def View.Relayed (c : ConnId) (v : View) : Prop :=
  ∃ bytes, Obs.send c .origin bytes ∈ v.history

/-- How the interests of a relay follow its buffers. -/
structure View.Flow (c : ConnId) (v : View) : Prop where
  origin : 0 < v.conn.originFd
  client : v.conn.outBuff.content ≠ [] ∧ v.interest = OP_WRITE ∨
    v.conn.outBuff.content = [] ∧
      (v.interest = OP_READ ∨ v.interest = OP_NOOP ∧ v.conn.inBuff.space = 0)
  pending : v.conn.inBuff.content ≠ [] →
    v.conn.outBuff.content = [] ∧ ∀ r, v.relay = some r → r.2 = OP_WRITE
  idle : v.conn.inBuff.content = [] → ∀ r, v.relay = some r →
    v.Relayed c ∧ (r.2 = OP_READ ∨ r.2 = OP_NOOP ∧ v.conn.outBuff.space = 0) ∨
      ¬ v.Relayed c ∧ r.2 = OP_NOOP ∧ 0 < v.conn.outBuff.space

variable {s : Server} {c : ConnId} {v w u : View} {e : Event} {junk : Memory}
  {fds : ℕ → Item} {out : SendOutcome} {r : Result} {env : Env} {fd : ℕ}

theorem View.Relayed.append {t : List Obs} (h : v.Relayed c) (hw : w.history = v.history ++ t) :
    w.Relayed c := by
  obtain ⟨bytes, hmem⟩ := h
  exact ⟨bytes, by rw [hw]; exact List.mem_append_left _ hmem⟩

/-- Taking bytes out of a buffer leaves room after compaction. -/
theorem space_of_taken {buff left : Buffer} {n : ℕ} (hleft : buff.content ≠ [])
    (hcontent : left.content = buff.content.drop (n + 1))
    (hcapacity : left.capacity = buff.capacity) : 0 < (bufferCompact left).space := by
  have hpos := List.length_pos_of_ne_nil hleft
  have hle := Buffer.length_content_le buff
  rw [Buffer.space_bufferCompact, hcontent, hcapacity, List.length_drop]
  omega

/-- A buffer of some capacity that is full holds something. -/
theorem content_ne_nil_of_full {buff : Buffer} (hcapacity : BUFF_MIN_LEN ≤ buff.capacity)
    (hfull : buff.space = 0) : buff.content ≠ [] := by
  intro hnil
  rw [Buffer.space_of_content_nil _ hnil] at hfull
  simp only [BUFF_MIN_LEN] at hcapacity
  omega

/-- A `recv` that returned bytes into free space leaves some in the buffer. -/
theorem received_ne_nil (held : List UInt8) (first : UInt8) (rest : List UInt8) {space : ℕ}
    (hspace : 0 < space) : held ++ (first :: rest).take space ≠ [] := by
  obtain ⟨n, rfl⟩ : ∃ n, space = n + 1 := ⟨space - 1, by omega⟩
  simp

namespace View.Flow

/-- A client that is read has nothing to be sent. -/
theorem outBuff_of_read (h : v.Flow c) (hready : v.interest.read = true) :
    v.conn.outBuff.content = [] ∧ v.interest = OP_READ := by
  rcases h.client with ⟨-, hi⟩ | ⟨hout, hi | ⟨hi, -⟩⟩
  · rw [hi] at hready
    cases hready
  · exact ⟨hout, hi⟩
  · rw [hi] at hready
    cases hready

/-- An origin that is read has nothing to be sent. -/
theorem inBuff_of_read (h : v.Flow c) {i : FdInterest} {handler : FdHandler}
    (hrelay : v.relay = some (handler, i)) (hready : i.read = true) :
    v.conn.inBuff.content = [] ∧ i = OP_READ ∧ v.Relayed c := by
  by_cases hin : v.conn.inBuff.content = []
  · rcases h.idle hin _ hrelay with ⟨hrelayed, hi | ⟨hi, -⟩⟩ | ⟨-, hi, -⟩
    · exact ⟨hin, hi, hrelayed⟩
    · simp only at hi
      rw [hi] at hready
      cases hready
    · simp only at hi
      rw [hi] at hready
      cases hready
  · have hi := (h.pending hin).2 _ hrelay
    simp only at hi
    rw [hi] at hready
    cases hready

end View.Flow

/-- The client's interest once some bytes left. -/
theorem View.sent_client (n : ℕ) (left : Buffer) :
    (v.sent c n left).conn.outBuff.content ≠ [] ∧ (v.sent c n left).interest = OP_WRITE ∨
      (v.sent c n left).conn.outBuff.content = [] ∧ (v.sent c n left).interest = OP_READ := by
  simp only [View.sent, Buffer.content_bufferCompact]
  by_cases hempty : left.content = []
  · right
    rw [if_neg (by rw [(Buffer.bufferCanRead_eq_false_iff _).mpr hempty]; simp)]
    exact ⟨hempty, rfl⟩
  · left
    rw [if_pos ((Buffer.bufferCanRead_iff _).mpr hempty)]
    exact ⟨hempty, rfl⟩

/-- Sending to the client keeps the flow. -/
theorem Wrote.flow (h : Wrote c junk fds v out (.alive w)) (hphase : v.phase = some .copy)
    (hflow : v.Flow c) (hready : v.interest = OP_WRITE) : w.Flow c := by
  have hleft : v.conn.outBuff.content ≠ [] := by
    rcases hflow.client with ⟨hleft, -⟩ | ⟨-, hi | ⟨hi, -⟩⟩
    · exact hleft
    · rw [hready] at hi
      cases hi
    · rw [hready] at hi
      cases hi
  have hin : v.conn.inBuff.content = [] := by
    by_contra hne
    exact hleft (hflow.pending hne).1
  have hsent : ∀ n left, left.content = v.conn.outBuff.content.drop (n + 1) →
      left.capacity = v.conn.outBuff.capacity → (v.sent c n left).Flow c := by
    intro n left hcontent hcap
    have hspace := space_of_taken hleft hcontent hcap
    have hhistory : (v.sent c n left).history =
        v.history ++ [.send c .client (v.conn.outBuff.content.take (n + 1))] := rfl
    refine ⟨hflow.origin, (View.sent_client n left).imp_right fun h => ⟨h.1, .inl h.2⟩,
      fun hne => absurd hin hne, fun _ r hr => ?_⟩
    · have hnot : ¬ v.Relayed c → ¬ (v.sent c n left).Relayed c := by
        rintro hnone ⟨bytes, hmem⟩
        rw [hhistory, List.mem_append] at hmem
        rcases hmem with hmem | hmem
        · exact hnone ⟨bytes, hmem⟩
        · simp at hmem
      have hcan : bufferCanRead v.conn.inBuff = false :=
        (Buffer.bufferCanRead_eq_false_iff _).mpr hin
      have horigin : decide (v.conn.originFd > 0) = true := by simpa using hflow.origin
      simp only [View.sent, hcan, horigin, Bool.false_eq_true, if_false, Bool.true_and] at hr
      cases hfull : bufferCanWrite v.conn.outBuff with
      | true =>
        simp only [hfull, Bool.not_true, Bool.false_eq_true, if_false] at hr
        have hroom := (Buffer.bufferCanWrite_iff _).mp hfull
        rcases hflow.idle hin r hr with ⟨hrelayed, hi | ⟨-, hzero⟩⟩ | ⟨hnone, hi, -⟩
        · exact .inl ⟨hrelayed.append hhistory, .inl hi⟩
        · omega
        · exact .inr ⟨hnot hnone, hi, hspace⟩
      | false =>
        -- a full buffer held the origin back, which was read before
        simp only [hfull, Bool.not_false, if_true] at hr
        obtain ⟨r', hr', rfl⟩ := Option.map_eq_some_iff.mp hr
        have hzero : ¬ 0 < v.conn.outBuff.space := by
          rw [← Buffer.bufferCanWrite_iff, hfull]
          simp
        rcases hflow.idle hin r' hr' with ⟨hrelayed, -⟩ | ⟨-, -, hroom⟩
        · exact .inl ⟨hrelayed.append hhistory, .inl rfl⟩
        · omega
  cases h with
  | idle hempty => exact absurd hempty hleft
  | blocked _ _ => exact hflow
  | relayed n left _ _ _ hcontent hcap => exact hsent n left hcontent hcap
  | advanced n left r _ _ _ _ hadvance => exact absurd hphase hadvance.not_copy

/-- Sending to the origin keeps the flow. -/
theorem CopyWrote.flow (h : CopyWrote c v out (.alive w)) (hflow : v.Flow c)
    (hleft : v.conn.inBuff.content ≠ []) : w.Flow c := by
  obtain ⟨hout, hwrite⟩ := hflow.pending hleft
  cases h with
  | idle hempty => exact absurd hempty hleft
  | blocked _ _ => exact hflow
  | delivered n left _ _ hcontent hcapacity =>
    have hrelayed : (v.delivered c n left).Relayed c :=
      ⟨v.conn.inBuff.content.take (n + 1), by simp [View.delivered]⟩
    refine ⟨hflow.origin, .inr ⟨hout, .inl ?_⟩, fun hne => ⟨hout, fun r hr => ?_⟩,
      fun hempty r hr => .inl ⟨hrelayed, .inl ?_⟩⟩
    · simp only [View.delivered]
      split
      · rename_i hroom
        rcases hflow.client with ⟨hne, -⟩ | ⟨-, hi | ⟨-, hfull⟩⟩
        · exact absurd hout hne
        · exact hi
        · have := (Buffer.bufferCanWrite_iff _).mp hroom
          omega
      · rfl
    · simp only [View.delivered, Buffer.content_bufferCompact] at hne hr
      rw [if_pos ((Buffer.bufferCanRead_iff _).mpr hne)] at hr
      exact hwrite r hr
    · simp only [View.delivered, Buffer.content_bufferCompact] at hempty hr
      rw [if_neg (by rw [(Buffer.bufferCanRead_eq_false_iff _).mpr hempty]; simp)] at hr
      obtain ⟨r', -, rfl⟩ := Option.map_eq_some_iff.mp hr
      rfl

/-- Reading from the client keeps the flow. -/
theorem ClientRead.flow (h : ClientRead c v env (fun u => CopyRead c s u env.send) (.alive w))
    (hflow : v.Flow c) (hready : v.interest.read = true)
    (hcapacity : BUFF_MIN_LEN ≤ v.conn.inBuff.capacity) : w.Flow c := by
  obtain ⟨hout, hread⟩ := hflow.outBuff_of_read hready
  cases h with
  | full hfull =>
    have hleft := content_ne_nil_of_full hcapacity hfull
    refine ⟨hflow.origin, .inr ⟨hout, .inr ⟨rfl, hfull⟩⟩, fun _ => ⟨hout, fun r hr => ?_⟩,
      fun hempty => absurd hempty hleft⟩
    obtain ⟨r', -, rfl⟩ := Option.map_eq_some_iff.mp hr
    rfl
  | blocked _ _ => exact hflow
  | handled first rest buff r hspace hrecv hcontent _ hQ =>
    cases hQ with
    | relayed r hreg hfatal hwrote =>
      have hleft : buff.content ≠ [] := hcontent ▸ received_ne_nil _ first rest hspace
      refine hwrote.flow ⟨hflow.origin, .inr ⟨hout, .inl hread⟩, fun _ => ⟨hout, fun r hr => ?_⟩,
        fun hempty => absurd hempty hleft⟩ hleft
      obtain ⟨r', -, rfl⟩ := Option.map_eq_some_iff.mp hr
      rfl

/-- Reading from the origin keeps the flow. -/
theorem CopyReceived.flow (h : CopyReceived c junk v env (.alive w))
    (hphase : v.phase = some .copy) (hflow : v.Flow c) {i : FdInterest} {handler : FdHandler}
    (hrelay : v.relay = some (handler, i)) (hready : i.read = true)
    (hcapacity : BUFF_MIN_LEN ≤ v.conn.outBuff.capacity) : w.Flow c := by
  obtain ⟨hin, rfl, hrelayed⟩ := hflow.inBuff_of_read hrelay hready
  cases h with
  | full hfull =>
    refine ⟨hflow.origin, .inl ⟨content_ne_nil_of_full hcapacity hfull, rfl⟩,
      fun hne => absurd hin hne, fun _ r hr => .inl ⟨hrelayed, .inr ⟨?_, hfull⟩⟩⟩
    obtain ⟨r', -, rfl⟩ := Option.map_eq_some_iff.mp hr
    rfl
  | received table first rest buff r hspace hrecv hcontent hcap hwrote =>
    have hleft : buff.content ≠ [] := hcontent ▸ received_ne_nil _ first rest hspace
    refine hwrote.flow hphase ⟨hflow.origin, .inl ⟨hleft, rfl⟩, fun hne => absurd hin hne,
      fun _ r hr => .inl ⟨hrelayed.append rfl, .inl ?_⟩⟩ rfl
    obtain rfl := Option.some.inj (hrelay.symm.trans hr)
    rfl
  | ended hspace hrecv =>
    exact ⟨hflow.origin, hflow.client, fun hne => absurd hin hne, fun _ r hr => by cases hr⟩
  | blocked _ _ => exact hflow

/-- The start of a relay: nothing to send to the origin and nothing sent to it before. -/
theorem View.Flow.start (horigin : 0 < v.conn.originFd) (hin : v.conn.inBuff.content = [])
    (hclient : v.conn.outBuff.content ≠ [] ∧ v.interest = OP_WRITE ∨
      v.conn.outBuff.content = [] ∧ v.interest = OP_READ)
    (hroom : 0 < v.conn.outBuff.space) (hnone : ¬ v.Relayed c)
    (hrelay : ∀ r, v.relay = some r → r.2 = OP_NOOP) : v.Flow c where
  origin := horigin
  client := hclient.imp_right fun h => ⟨h.1, .inl h.2⟩
  pending hne := absurd hin hne
  idle _ r hr := .inr ⟨hnone, hrelay r hr, hroom⟩

/-- What an armed origin is asked for. -/
theorem RelayArmed.interest {relay : Option (FdHandler × FdInterest)}
    (h : RelayArmed c fds v relay) (hnone : v.relay = none) :
    ∀ r, relay = some r → r.2 = OP_NOOP := by
  rintro r hr
  rcases h with ⟨_, _, _, hrelay⟩ | ⟨hrelay, _⟩
  · rw [hrelay] at hr
    obtain rfl := Option.some.inj hr
    rfl
  · rw [hrelay, hnone] at hr
    cases hr


/-- Sending keeps `origin_fd`. -/
theorem Wrote.originFd (h : Wrote c junk fds v out (.alive w)) :
    w.conn.originFd = v.conn.originFd := by
  cases h with
  | idle _ => rfl
  | blocked _ _ => rfl
  | relayed _ _ _ _ _ _ _ => rfl
  | advanced n left r _ _ _ _ hadvance =>
    cases hadvance with
    | auth _ _ _ _ _ => rfl
    | connectionReq state _ _ _ => exact (View.depart_fields (v.sent c n left) state).2.2.2.2
    | copy state _ _ _ _ _ => exact (View.depart_fields (v.sent c n left) state).2.2.2.2

theorem CopyWrote.originFd (h : CopyWrote c v out (.alive w)) :
    w.conn.originFd = v.conn.originFd := by
  cases h with
  | idle _ => rfl
  | blocked _ _ => rfl
  | delivered _ _ _ _ _ _ => rfl

theorem CopyReceived.originFd (h : CopyReceived c junk v env (.alive w)) :
    w.conn.originFd = v.conn.originFd := by
  cases h with
  | full _ => rfl
  | received _ _ _ _ _ _ _ _ _ hwrote => exact hwrote.originFd
  | ended _ _ => rfl
  | blocked _ _ => rfl

/-- A client read in the relay phase keeps `origin_fd`. -/
theorem ClientRead.originFd (h : ClientRead c v env (fun u => CopyRead c s u env.send) (.alive w)) :
    w.conn.originFd = v.conn.originFd := by
  cases h with
  | full _ => rfl
  | blocked _ _ => rfl
  | handled _ _ _ _ _ _ _ _ hQ =>
    cases hQ with
    | relayed _ _ _ hwrote => exact hwrote.originFd

/-- The success reply leaves room in every buffer. -/
theorem length_connReqReply_lt (env : Env) (junk : Memory) :
    (connReqReply env junk).length < BUFF_MIN_LEN := by
  simp only [connReqReply, length_bytes, connReqResponseSize]
  split
  · decide
  · decide

/-- A success reply queued behind nothing, and what the buffers look like before it is sent. -/
theorem Queued.succeeding (h : Queued c (.connReq SOCKS5_REP_SUCCEEDED) (connReqReply env junk) v w)
    (hempty : v.conn.outBuff.content = [])
    (hcapacity : BUFF_MIN_LEN ≤ v.conn.outBuff.capacity) :
    (w.succeeding c).conn.outBuff.content ≠ [] ∧ (w.succeeding c).interest = OP_WRITE ∧
      0 < (w.succeeding c).conn.outBuff.space ∧ (w.succeeding c).conn.inBuff.content = [] ∧
      (w.succeeding c).conn.originFd = v.conn.originFd ∧ (w.succeeding c).relay = v.relay := by
  obtain ⟨hpos, hle⟩ := length_connReqReply env junk
  have hlt := length_connReqReply_lt env junk
  obtain ⟨hcontent, -, hspace⟩ :=
    h.of_empty hempty (List.ne_nil_of_length_pos hpos) (hle.trans hcapacity)
  obtain ⟨hconn, -, -, -, hrelay, -⟩ := h.fields
  refine ⟨?_, rfl, ?_, by simp [View.succeeding, View.reset], ?_, hrelay⟩
  · change w.conn.outBuff.content ≠ []
    rw [hcontent]
    exact List.ne_nil_of_length_pos hpos
  · change 0 < w.conn.outBuff.space
    rw [hspace]
    omega
  · change w.conn.originFd = v.conn.originFd
    rw [hconn]

/-- A notification that enters the relay starts its flow. -/
theorem Blocks.flow (h : Blocks c junk env fds fd v (.alive w)) (hempty : v.conn.outBuff.content = [])
    (hcapacity : BUFF_MIN_LEN ≤ v.conn.outBuff.capacity) (hphase : v.phase = some .connecting)
    (herror : v.conn.isErrorResponse = false) (hnone : ¬ w.Relayed c)
    (hcopy : w.phase = some .copy) (horigin : 0 < w.conn.originFd) : w.Flow c := by
  cases h with
  | noAddress u hnone hqueued => cases hcopy
  | pending peer rest hdial => cases hphase.symm.trans hcopy
  | established peer u x y hdial hqueued hwrote henters =>
    obtain ⟨hleft, harmed, hroom, hin, -, hrelay⟩ := hqueued.succeeding hempty hcapacity
    obtain ⟨hconn, -, huphase, -⟩ := hqueued.fields
    have huphase' : (u.succeeding c).phase = some .connecting := huphase.trans hphase
    have huerror : (u.succeeding c).conn.isErrorResponse = false := by
      change u.conn.isErrorResponse = false
      rw [hconn]
      exact herror
    rcases hwrote.entersCopy henters huphase' huerror hleft with
      ⟨relay, hrelayArmed, rfl⟩ | ⟨n, left, relay, hcontent, hcap, hrelayArmed, rfl⟩
    · exact .start horigin hin (.inl ⟨hleft, harmed⟩) hroom hnone (hrelayArmed.interest hrelay)
    · have hsent : ((u.succeeding c).sent c n left).relay = none := by
        have hrelay' : (u.succeeding c).relay = none := hrelay
        simp [View.sent, hrelay']
      exact .start horigin hin (View.sent_client (c := c) n left) (space_of_taken hleft hcontent hcap) hnone
        (hrelayArmed.interest hsent)

/-- The late success of a connect starts the flow of a relay. -/
theorem Connects.flow {fd : ℕ} (h : Connects c junk env fds fd v (.alive w))
    (hpending : v.conn.originFd ≠ -1 → v.phase = some .connecting → v.conn.outBuff.content = [])
    (hcapacity : BUFF_MIN_LEN ≤ v.conn.outBuff.capacity)
    (hphase : v.phase = some .connecting ∨ v.phase = some .copy ∧ v.conn.addrInfo = [])
    (hnone : ∀ bytes, Obs.send c .origin bytes ∈ w.history → v.phase = some .copy)
    (hcopy : w.phase = some .copy) (horigin : 0 < w.conn.originFd) : w.Flow c := by
  cases h with
  | retried err relay hopen herr hsome hdial hrelay =>
    have hconnecting := hphase.resolve_right fun hc => hsome hc.2
    cases hconnecting.symm.trans hcopy
  | refused v₁ u err err' hopen herr hfrom hqueued =>
    have hgiven : (-1 : ℤ) > 0 := horigin
    omega
  | established table u r relay hconnecting hstands hrelay hqueued hwrote =>
    have horiginFd := hwrote.originFd
    obtain ⟨hconn, -, huphase, -⟩ := hqueued.fields
    have horigin' : (u.succeeding c).conn.originFd = v.conn.originFd := by
      change u.conn.originFd = v.conn.originFd
      rw [hconn]
      rfl
    have hopen : v.conn.originFd ≠ -1 := by omega
    obtain ⟨hleft, harmed, hroom, hin, -, hurelay⟩ :=
      hqueued.succeeding (hpending hopen hconnecting) hcapacity
    have hcopying : (u.succeeding c).phase = some .copy := huphase
    refine hwrote.flow hcopying (.start (by omega) hin (.inl ⟨hleft, harmed⟩) hroom ?_ ?_) harmed
    · rintro ⟨bytes, hmem⟩
      obtain ⟨t, -, ht, -⟩ := hwrote.talks
      have hw : w.history = (u.succeeding c).history ++ t := ht
      have hin : Obs.send c .origin bytes ∈ w.history := by
        rw [hw]
        exact List.mem_append_left _ hmem
      cases (hnone bytes hin).symm.trans hconnecting
    · intro r hr
      have hr' : relay = some r := hurelay.symm.trans hr
      rw [hrelay] at hr'
      split at hr'
      · obtain rfl := Option.some.inj hr'
        rfl
      · cases hr'

/-- A read in the request phase does not enter the relay. -/
theorem ClientRead.not_copy (h : ClientRead c v env (fun u => Requests c junk env u) (.alive w))
    (hphase : v.phase = some .connectionReq) (hparser : v.conn.connReqParser.isSome = true) :
    w.phase ≠ some .copy := by
  have hreads : ∀ (buff : Buffer) (bytes : List UInt8) (x : View) (scan : RequestScan),
      ConnReqReads (v.received c buff bytes) x scan → x.phase = some .connectionReq := by
    intro buff bytes x scan hr
    obtain ⟨hx, -⟩ := hr.fields hparser
    rw [hx]
    exact hphase
  cases h with
  | full _ => simp [hphase]
  | blocked _ _ => simp [hphase]
  | handled first rest buff r _ _ _ _ hQ =>
    cases hQ with
    | more _ hr => simp [hreads _ _ _ _ hr]
    | unsupported x u p hr hcmd hqueued =>
      obtain ⟨-, -, huphase, -⟩ := hqueued.fields
      have hcopy : u.phase = some .connectionReq := huphase.trans (hreads _ _ _ _ hr)
      simp [hcopy]
    | threaded x p hr hcmd hatyp hthread => simp [View.awaiting]
    | looked x p hr hcmd hatyp => simp [View.awaiting]

/-- Every reaction that ends in a relay keeps its flow. -/
theorem Reaction.flow (h : Reaction s c v e (.alive w)) (hinv : Inv s) (hview : s.view c = some v)
    (hstreams : v.Streams) (hflow : v.phase = some .copy → 0 < v.conn.originFd → v.Flow c)
    (hcopy : w.phase = some .copy) (horigin : 0 < w.conn.originFd) : w.Flow c := by
  have hok := hinv.ok c v hview
  have hphaseOk := hok.phase
  have henters := (h.progress hinv hview).2.enters_copy hcopy
  -- nothing was sent to an origin before the relay
  have hnone : ∀ bytes, Obs.send c .origin bytes ∈ w.history → v.phase = some .copy := by
    intro bytes hmem
    by_contra hphase
    obtain ⟨t, -, ht, hP, -⟩ := h.talks
    have hw : w.history = v.history ++ t := ht
    rw [hw, List.mem_append] at hmem
    rcases hmem with hmem | hmem
    · exact absurd (hstreams.early hphase _ hmem) (by simp [Obs.Early, Obs.isRelay])
    · exact absurd ((hP _ hmem).resolve_left hphase) (by simp [Obs.Early, Obs.isRelay])
  cases h with
  | greets fd env r hitem hready hphase hread =>
    rcases hphase with hphase | hphase <;> simp [hphase] at henters
  | authenticates fd env r hitem hready hphase hread => simp [hphase] at henters
  | requests fd env r hitem hready hphase hread =>
    rw [View.PhaseOk, hphase] at hphaseOk
    have hreq : v.Requesting := hphaseOk
    exact absurd hcopy (hread.not_copy hphase hreq.parser)
  | relays fd env r hitem hready hphase hread =>
    have hsame : w.conn.originFd = v.conn.originFd := hread.originFd
    exact hread.flow (hflow hphase (hsame ▸ horigin)) hready hok.inCapacity
  | sends table fd env r hitem hready hwrote =>
    have hsame := hwrote.originFd
    rw [View.PhaseOk] at hphaseOk
    rcases henters with hphase | hphase | hphase
    · have hcopyFlow := hflow hphase (hsame ▸ horigin)
      refine hwrote.flow hphase hcopyFlow ?_
      rcases hcopyFlow.client with ⟨-, hi⟩ | ⟨-, hi | ⟨hi, -⟩⟩
      · exact hi
      · rw [hi] at hready; cases hready
      · rw [hi] at hready; cases hready
    · rw [hphase] at hphaseOk
      rcases hphaseOk with hw | hp | hr
      · have := hw.originFd
        omega
      · rw [hp.interest] at hready
        cases hready
      · have := hr.originFd
        omega
    · rw [hphase] at hphaseOk
      have hreq : v.Requesting := hphaseOk
      have := hreq.originFd
      omega
  | blocks env r hphase hwaiting hblocks =>
    refine hblocks.flow hwaiting.outBuff hok.outCapacity hphase hwaiting.isErrorResponse ?_ hcopy
      horigin
    rintro ⟨bytes, hmem⟩
    cases (hnone bytes hmem).symm.trans hphase
  | resolves env hphase hwaiting => cases hphase.symm.trans hcopy
  | connects fd env r i hitem hset hphase hconnects =>
    refine hconnects.flow ?_ hok.outCapacity hphase hnone hcopy horigin
    intro hopen hconnecting
    rw [View.PhaseOk, hconnecting] at hphaseOk
    rcases hphaseOk with hw | hp | hr
    · exact hw.outBuff
    · exact hp.outBuff
    · exact absurd hr.originFd hopen
  | receives fd env r i hfd hrelay hready hphase hreceived =>
    have hsame : w.conn.originFd = v.conn.originFd := hreceived.originFd
    exact hreceived.flow hphase (hflow hphase (hsame ▸ horigin)) hrelay hready hok.outCapacity
  | delivers fd env r i hfd hrelay hready hphase hwrote =>
    have hsame : w.conn.originFd = v.conn.originFd := hwrote.originFd
    have hcopyFlow := hflow hphase (hsame ▸ horigin)
    refine hwrote.flow hcopyFlow fun hin => ?_
    rcases hcopyFlow.idle hin _ hrelay with ⟨-, hi | ⟨hi, -⟩⟩ | ⟨-, hi, -⟩
    · simp only at hi
      rw [hi] at hready
      cases hready
    · simp only at hi
      rw [hi] at hready
      cases hready
    · simp only at hi
      rw [hi] at hready
      cases hready

/-- In every reachable state the interests of a relay with an origin follow its buffers. -/
theorem ReachableUnder.flow {guard : Server → Event → Prop} (h : ReachableUnder guard s)
    (hview : s.view c = some v) (hcopy : v.phase = some .copy) (horigin : 0 < v.conn.originFd) :
    v.Flow c := by
  refine h.views (P := fun c v => v.phase = some .copy → 0 < v.conn.originFd → v.Flow c) ?_ ?_
    c v hview hcopy horigin
  · intro c v hfresh hcopy
    cases hfresh.phase.symm.trans hcopy
  · intro s e c v w hreach _ hview hflow hreaction hcopy horigin
    exact hreaction.flow hreach.reachable.inv hview (hreach.streams hview) hflow hcopy horigin

end Socks5d
