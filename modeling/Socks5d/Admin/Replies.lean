import Socks5d.Admin.Exchange

/-!
# Replies and the interest that sends them

`admin_read` asks for OP_WRITE with every reply it appends, and `admin_write` asks for OP_READ
after every `send` that took something, even when it did not take everything. A reply is thus
waited for as long as each `send` takes all of `out_buff` or nothing.
-/

namespace Socks5d

open CStrings GuardedRun

/-- Between callbacks of an open connection, what is pending is waited for, and it is what is
left of the replies. -/
def RepliesPending (s : AdminState) : Prop :=
  ∀ k, s.conn = some k →
    (k.outBuff.content ≠ [] → s.interest = some OP_WRITE) ∧
    s.sent ++ k.outBuff.content = s.replies.flatten

/-- A `send` takes all it is offered or nothing at all because it would block or fails. -/
def Drains (s : AdminState) : AdminEvent → Prop
  | .writable outcome => ∀ k n, s.conn = some k →
      outcome.taken k.outBuff.content.length = some n → n = k.outBuff.content.length
  | _ => True

/-- The interest of an open connection, and the account of its replies. -/
structure RepliesKept (s : AdminState) (k : AdminConn) : Prop where
  interest : s.interest = some OP_READ ∧ k.outBuff.content = [] ∨ s.interest = some OP_WRITE
  account : s.sent ++ k.outBuff.content = s.replies.flatten

variable {s s' : AdminState} {k k₁ : AdminConn} {bytes : List UInt8}

/-- A read callback finds nothing pending, and leaves its reply pending. -/
theorem Scanned.repliesKept (hscan : Scanned (s.received k₁ bytes) k₁ s')
    (hinterest : s.interest = some OP_READ) (hnil : k₁.outBuff.content = [])
    (haccount : s.sent = s.replies.flatten) : ∃ k', s'.conn = some k' ∧ RepliesKept s' k' := by
  have hempty : ∀ more, (k₁.rewrite more).outBuff.content = [] := by
    intro more
    rw [← List.length_eq_zero_iff]
    exact (Buffer.length_content_rewrite _ _ _).trans (by rw [hnil]; rfl)
  unfold AdminState.sent AdminState.replies at haccount
  cases hscan with
  | dropped hfind hfull =>
    refine ⟨_, rfl, .inl ⟨hinterest, hnil⟩, ?_⟩
    simp [AdminState.sent, AdminState.replies, AdminState.received, AdminState.setConn,
      AdminState.note, AdminObs.sent, AdminObs.replied, List.filterMap_cons, hnil, haccount]
  | tooLong hfind hroom outBuff hcontent hcap =>
    refine ⟨_, rfl, .inr (by simp [AdminState.received, AdminState.setConn, AdminState.note,
      hinterest]), ?_⟩
    simp [AdminState.sent, AdminState.replies, AdminState.received, AdminState.setConn,
      AdminState.note, AdminObs.sent, AdminObs.replied, List.filterMap_cons, hcontent, hnil, haccount]
  | withheld offset hfind hfull =>
    refine ⟨_, rfl, .inl ⟨hinterest, hempty _⟩, ?_⟩
    simp [AdminState.sent, AdminState.replies, AdminState.received, AdminState.setConn,
      AdminState.note, AdminObs.sent, AdminObs.replied, List.filterMap_cons, hempty, haccount]
  | answered offset hfind hroom r hanswer inBuff outBuff hin hcontent hcap =>
    refine ⟨_, rfl, .inr (by simp [AdminState.received, AdminState.setConn, AdminState.note,
      hinterest]), ?_⟩
    simp [AdminState.sent, AdminState.replies, AdminState.received, AdminState.setConn,
      AdminState.note, AdminObs.sent, AdminObs.replied, List.filterMap_cons, hcontent, hempty, haccount]

/-- One event whose `send` drains `out_buff` keeps every reply waited for. -/
theorem RepliesKept.step {a : AdminEvent} (h : ∀ k, s.conn = some k → RepliesKept s k)
    (henabled : adminEnabled s a = true) (hdrains : Drains s a) (hstep : adminStep s a = .ok s') :
    ∀ k, s'.conn = some k → RepliesKept s' k := by
  cases a with
  | readable outcome =>
    obtain ⟨k, hk⟩ := adminRead_conn hstep
    obtain ⟨hinterest, haccount⟩ := h k hk
    obtain ⟨hinterest, hnil⟩ := hinterest.resolve_right fun hwrite => by
      rw [adminEnabled, hwrite] at henabled
      cases henabled
    rw [hnil, List.append_nil] at haccount
    intro k' hk'
    rcases adminRead_cases hk hstep with rfl | ⟨bytes, k₁, hrec, hscan⟩
    · cases hk'
    · obtain ⟨k'', hk'', hkept⟩ :=
        hscan.repliesKept hinterest (by rw [hrec.outBuff, hnil]) haccount
      obtain rfl := Option.some.inj (hk''.symm.trans hk')
      exact hkept
  | writable outcome =>
    obtain ⟨k, hk⟩ := adminWrite_conn hstep
    obtain ⟨hinterest, haccount⟩ := h k hk
    rcases adminWrite_spec hk outcome with ⟨herr, -⟩ | ⟨hsame, -⟩ |
      ⟨n, outBuff, hne, htaken, hcontent, -, -, hsent⟩
    · cases herr.symm.trans hstep
    · exact Except.ok.inj (hsame.symm.trans hstep) ▸ h
    · obtain rfl := Except.ok.inj (hsent.symm.trans hstep)
      obtain rfl := hdrains k n hk htaken
      rw [List.drop_length] at hcontent
      have hwrite := hinterest.resolve_left fun hread => hne hread.2
      intro k' hk'
      obtain rfl := Option.some.inj hk'
      refine ⟨.inl ⟨by simp [hwrite], hcontent⟩, ?_⟩
      unfold AdminState.sent AdminState.replies at haccount ⊢
      simpa [AdminObs.sent, AdminObs.replied, List.filterMap_cons, hcontent] using haccount
  | elsewhere parsed data =>
    obtain rfl := Except.ok.inj hstep
    exact fun k hk => ⟨(h k hk).interest, (h k hk).account⟩

/-- In every such run the replies are kept. -/
theorem RepliesKept.of_run {fd : ℕ} {peer : CString × UInt16} {parsed : S5adminCmdParsed}
    {data : ServerData} {events : List AdminEvent}
    (hrun : Run adminMachine Drains (s5adminAccepted fd peer parsed data) events s) :
    ∀ k, s.conn = some k → RepliesKept s k := by
  refine hrun.invariant ?_ fun s a s' hs henabled hdrains hstep =>
    RepliesKept.step hs henabled hdrains hstep
  intro k hk
  obtain rfl := Option.some.inj hk
  exact ⟨.inl ⟨rfl, Buffer.content_bufferInit _⟩, by simp [AdminState.sent, AdminState.replies,
    s5adminAccepted, AdminConn.init]⟩

/-- When every `send` takes all of `out_buff` or nothing, pending replies are waited for. -/
theorem replies_pending {events : List AdminEvent} (hrun : AdminRun Drains events s) :
    RepliesPending s := by
  obtain ⟨fd, peer, parsed, data, hrun⟩ := hrun
  intro k hk
  have hkept := RepliesKept.of_run hrun k hk
  exact ⟨fun hne => hkept.interest.resolve_left fun hread => hne hread.2, hkept.account⟩

/-- The record and the data of a server that has just started. -/
def startedData : ServerData where
  users := authInit
  logLevel := .info
  metrics := ⟨0, 0, 0, 0⟩
  accessRegister := ⟨fun _ => ⟨[], [], 0, [], 0, [], 0, 0⟩, 0, 0, 0⟩
  bufferSize := 4096
  maxConn := 500

/-- A run of two events on a fresh connection. -/
theorem run_pair {guard : AdminState → AdminEvent → Prop} {fd : ℕ} {peer : CString × UInt16}
    {parsed : S5adminCmdParsed} {data : ServerData} {outcome : RecvOutcome} {a : AdminEvent}
    (hread : adminStep (s5adminAccepted fd peer parsed data) (.readable outcome) = .ok s)
    (henabled : adminEnabled s a = true)
    (hfirst : guard (s5adminAccepted fd peer parsed data) (.readable outcome)) (hsecond : guard s a)
    (hstep : adminStep s a = .ok s') :
    Run adminMachine guard (s5adminAccepted fd peer parsed data) [.readable outcome, a] s' := by
  have hone : Run adminMachine guard (s5adminAccepted fd peer parsed data) ([] ++ [.readable outcome]) s :=
    .snoc .nil rfl hfirst hread
  exact hone.snoc henabled hsecond hstep

/-- PING is read, and its reply sent at once. -/
theorem replies_pending_ping : ∃ s, AdminRun Drains
    [.readable pingChunk, .writable (.accepted 4)] s ∧ RepliesPending s ∧ s.sent = ascii "PONG\n" := by
  obtain ⟨s, k, hread, hreplying, -, -, hnil⟩ := replying_ping 5 localPeer (initialCmdParsed []) startedData
  obtain ⟨s', k', hwrite, -, -, -, -, -, -, -, -, hsent⟩ := hreplying.send (by decide) 4
  have hdrains : Drains s (.writable (.accepted 4)) := by
    intro k₁ n hk₁ htaken
    obtain rfl := Option.some.inj (hreplying.conn.symm.trans hk₁)
    rw [hreplying.pending] at htaken ⊢
    exact (Option.some.inj htaken).symm
  have hrun : AdminRun Drains [.readable pingChunk, .writable (.accepted 4)] s' :=
    ⟨5, localPeer, initialCmdParsed [], startedData, run_pair hread (hreplying.enabled _) trivial hdrains hwrite⟩
  exact ⟨s', hrun, replies_pending hrun, by rw [hsent, hnil]; decide⟩

/-- Of the reply to PING the first `send` takes one byte, and then OP_READ is asked for. -/
theorem not_replies_pending :
    ¬ ∀ events s, AdminRun unguarded events s → RepliesPending s := by
  intro hall
  obtain ⟨s, k, hread, hreplying, -⟩ := replying_ping 5 localPeer (initialCmdParsed []) startedData
  obtain ⟨s', k', hwrite, hk', hinterest, hcontent, -⟩ := hreplying.send (by decide) 0
  have hrun : AdminRun unguarded [.readable pingChunk, .writable (.accepted 0)] s' :=
    ⟨5, localPeer, initialCmdParsed [], startedData, run_pair hread (hreplying.enabled _) trivial trivial hwrite⟩
  have hwait := (hall _ s' hrun k' hk').1 (by rw [hcontent]; decide)
  rw [hinterest] at hwait
  cases hwait

end Socks5d
