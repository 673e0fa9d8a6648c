import Socks5d.Admin.Replies

/-!
# The release of an admin connection

`selector_unregister_fd` calls the close callback, which closes the descriptor and frees the
record. Every way out of a callback that only unregisters thus releases the connection once. The
error path of `admin_write` closes and frees once more, through the record that is gone.

The error path of `admin_read` does the same, but no answer to a line is negative.
-/

namespace Socks5d

open CStrings GuardedRun Fallible

/-- No descriptor was closed and no record freed. -/
def Unreleased (trace : List AdminObs) : Prop :=
  ∀ o ∈ trace, o ≠ .freed ∧ ∀ fd, o ≠ .closed fd

/-- A registered connection holds its record and its descriptor. One that is not registered
holds neither, and the last it did was to close the one and free the other. -/
inductive ReleasedOnce (fd : ℕ) (s : AdminState) : Prop
  | held (k : AdminConn) (hconn : s.conn = some k) (hfd : k.fd = fd)
      (hinterest : s.interest.isSome = true) (htrace : Unreleased s.trace)
  | released (front : List AdminObs) (hconn : s.conn = none) (hinterest : s.interest = none)
      (htrace : s.trace = front ++ [.closed fd, .freed]) (hfront : Unreleased front)

/-- A `send` of something pending that fails for good. -/
def SendFails (s : AdminState) : AdminEvent → Prop
  | .writable (.failed e) => e ≠ .eagain ∧ ∃ k, s.conn = some k ∧ k.outBuff.content ≠ []
  | _ => False

variable {s s' : AdminState} {k k₁ : AdminConn} {bytes : List UInt8} {fd : ℕ} {a : AdminEvent}

theorem Unreleased.append {trace more : List AdminObs} (h : Unreleased trace)
    (hmore : Unreleased more) : Unreleased (trace ++ more) := by
  intro o ho
  exact (List.mem_append.mp ho).elim (h o) (hmore o)

/-- What unregistering makes of a registered connection. -/
theorem ReleasedOnce.unregister (hfd : k.fd = fd) (htrace : Unreleased s.trace) :
    ReleasedOnce fd (s.released k) :=
  .released s.trace rfl rfl (by rw [AdminState.released, hfd]) htrace

/-- A search for a newline keeps the connection registered. -/
theorem Scanned.holds (hscan : Scanned s k s') (hinterest : s.interest.isSome = true)
    (htrace : Unreleased s.trace) : ReleasedOnce k.fd s' := by
  cases hscan with
  | dropped hfind hfull => exact .held _ rfl rfl hinterest htrace
  | tooLong hfind hroom outBuff hcontent hcap =>
    exact .held _ rfl rfl (by simpa using hinterest) (htrace.append (by simp [Unreleased]))
  | withheld offset hfind hfull =>
    exact .held _ rfl rfl hinterest (htrace.append (by simp [Unreleased]))
  | answered offset hfind hroom r hanswer inBuff outBuff hin hcontent hcap =>
    exact .held _ rfl rfl (by simpa using hinterest) (htrace.append (by simp [Unreleased]))

/-- A read of a record that is there does not follow a pointer to one that is not. -/
theorem adminRead_record (hk : s.conn = some k) (outcome : RecvOutcome) :
    adminRead s outcome ≠ .error .useAfterFree := by
  rcases adminRead_spec hk outcome with hclosed | ⟨bytes, k₁, -, -, hread⟩
  · rw [hclosed]
    intro heq
    cases heq
  rw [hread, adminSearch]
  split
  · rename_i offset hfind
    rcases adminLine_spec (s := s.received k₁ bytes) hfind with
      ⟨-, -, -, herr⟩ | ⟨-, -, herr⟩ | ⟨-, s', hok, -⟩
    · rw [herr]
      intro heq
      cases heq
    · rw [herr]
      intro heq
      cases heq
    · rw [hok]
      intro heq
      cases heq
  · rename_i hfind
    obtain ⟨s', hok, -⟩ := adminTooLong_spec (s := s.received k₁ bytes) hfind
    rw [hok]
    intro heq
    cases heq

/-- A `send` that fails for good ends in the error path. -/
theorem SendFails.fault (h : SendFails s a) : adminStep s a = .error .useAfterFree := by
  unfold SendFails at h
  split at h
  · rename_i e
    obtain ⟨he, k, hk, hne⟩ := h
    have hdata := (Buffer.bufferCanRead_iff _).mpr hne
    rw [adminStep, adminWrite, AdminState.record, hk, ok_bind, hdata, Bool.not_true,
      if_neg (by decide)]
    cases e with
    | eagain => exact absurd rfl he
    | _ => exact adminFail_eq hk
  · exact h.elim

/-- Nothing else a `send` does ends there. -/
theorem SendFails.of_fault {outcome : SendOutcome} (hk : s.conn = some k)
    (hnone : outcome.taken k.outBuff.content.length = none)
    (herr : adminWrite s outcome = .error .useAfterFree) : SendFails s (.writable outcome) := by
  cases outcome with
  | accepted n => cases hnone
  | zero => cases hnone
  | failed e =>
    rw [adminWrite, AdminState.record, hk, ok_bind] at herr
    cases hdata : bufferCanRead k.outBuff with
    | false =>
      rw [hdata] at herr
      cases herr
    | true =>
      refine ⟨?_, k, hk, (Buffer.bufferCanRead_iff _).mp hdata⟩
      rintro rfl
      rw [hdata] at herr
      cases herr

/-- A callback that returns and leaves the connection held or released. -/
theorem ReleasedOnce.of_ok {s₁ : AdminState} (hok : adminStep s a = .ok s₁)
    (h : ReleasedOnce fd s₁) : adminStep s a ≠ .error .useAfterFree ∧
      ∀ s', adminStep s a = .ok s' → ReleasedOnce fd s' := by
  constructor
  · intro herr
    cases hok.symm.trans herr
  · intro s' hstep
    exact Except.ok.inj (hok.symm.trans hstep) ▸ h

/-- Any other event of a connection that is registered, or of the rest of the program, releases
it once or not at all. -/
theorem ReleasedOnce.step (h : ReleasedOnce fd s) (henabled : adminEnabled s a = true)
    (hguard : ¬ SendFails s a) : adminStep s a ≠ .error .useAfterFree ∧
      ∀ s', adminStep s a = .ok s' → ReleasedOnce fd s' := by
  cases h with
  | released front hconn hinterest htrace hfront =>
    cases a with
    | elsewhere parsed data =>
      exact ReleasedOnce.of_ok rfl (.released front hconn hinterest htrace hfront)
    | _ => simp [adminEnabled, hinterest] at henabled
  | held k hconn hfd hinterest htrace =>
    cases a with
    | elsewhere parsed data => exact ReleasedOnce.of_ok rfl (.held k hconn hfd hinterest htrace)
    | readable outcome =>
      refine ⟨adminRead_record hconn outcome, fun s' hstep => ?_⟩
      rcases adminRead_cases hconn hstep with rfl | ⟨bytes, k₁, hrec, hscan⟩
      · exact .unregister hfd htrace
      · have htrace' : Unreleased (s.received k₁ bytes).trace :=
          htrace.append (by simp [Unreleased])
        exact hrec.fd.trans hfd ▸ hscan.holds hinterest htrace'
    | writable outcome =>
      rcases adminWrite_spec hconn outcome with ⟨herr, hnone⟩ | ⟨hsame, -⟩ |
        ⟨n, outBuff, -, -, -, -, -, hsent⟩
      · exact absurd (SendFails.of_fault hconn hnone herr) hguard
      · exact ReleasedOnce.of_ok hsame (.held k hconn hfd hinterest htrace)
      · exact ReleasedOnce.of_ok hsent
          (.held _ rfl hfd (by simpa using hinterest) (htrace.append (by simp [Unreleased])))

/-- As long as no `send` of something pending fails for good, a connection is released once, by
the time it is not registered, and no callback follows the pointer to its record after that. The
one event that releases it twice is such a failure. -/
theorem released_once {peer : CString × UInt16} {parsed : S5adminCmdParsed} {data : ServerData} {events : List AdminEvent}
    (hrun : Run adminMachine (fun s a => ¬ SendFails s a) (s5adminAccepted fd peer parsed data) events s) :
    ReleasedOnce fd s ∧
    (s.interest.isSome = true → ∃ s', adminUnregister s = .ok s' ∧ ReleasedOnce fd s') ∧
    ∀ a, adminEnabled s a = true → (adminStep s a = .error .useAfterFree ↔ SendFails s a) := by
  have hreleased : ReleasedOnce fd s := by
    refine hrun.invariant (.held _ rfl rfl rfl nofun) fun s a s' hs henabled hguard hstep => ?_
    exact (hs.step henabled hguard).2 s' hstep
  refine ⟨hreleased, fun hregistered => ?_, fun a henabled => ⟨fun herr => ?_, SendFails.fault⟩⟩
  · cases hreleased with
    | held k hconn hfd hinterest htrace =>
      exact ⟨_, adminUnregister_eq hconn, .unregister hfd htrace⟩
    | released front hconn hinterest => simp [hinterest] at hregistered
  · by_contra hguard
    exact (hreleased.step henabled hguard).1 herr

theorem not_sendFails_accepted (n : ℕ) : ¬ SendFails s (.writable (.accepted n)) := nofun

theorem not_sendFails_readable (outcome : RecvOutcome) : ¬ SendFails s (.readable outcome) := nofun

/-- The client asks for a PONG, reads it and closes. -/
theorem released_once_ping : ∃ s, s.conn = none ∧ ReleasedOnce 5 s ∧
    (s.interest.isSome = true → ∃ s', adminUnregister s = .ok s' ∧ ReleasedOnce 5 s') ∧
    ∀ a, adminEnabled s a = true → (adminStep s a = .error .useAfterFree ↔ SendFails s a) := by
  obtain ⟨s, k, hread, hreplying, -⟩ := replying_ping 5 localPeer (initialCmdParsed []) startedData
  obtain ⟨s', k', hwrite, hk', hinterest, -⟩ := hreplying.send (by decide) 4
  have hpair : Run adminMachine (fun s a => ¬ SendFails s a)
      (s5adminAccepted 5 localPeer (initialCmdParsed []) startedData)
      [.readable pingChunk, .writable (.accepted 4)] s' :=
    run_pair hread (hreplying.enabled _) (not_sendFails_readable _) (not_sendFails_accepted 4) hwrite
  have henabled : adminEnabled s' (.readable .eof) = true := by
    rw [adminEnabled, hinterest]
    rfl
  have hclosed : adminStep s' (.readable .eof) = .ok (s'.released k') := by
    rcases adminRead_spec hk' .eof with hclosed | ⟨_, _, _, ⟨_, _, heof, _⟩, _⟩
    · exact hclosed
    · cases heof
  have hrun : Run adminMachine (fun s a => ¬ SendFails s a)
      (s5adminAccepted 5 localPeer (initialCmdParsed []) startedData)
      ([.readable pingChunk, .writable (.accepted 4)] ++ [.readable .eof]) (s'.released k') :=
    hpair.snoc henabled (not_sendFails_readable .eof) hclosed
  exact ⟨s'.released k', rfl, released_once hrun⟩

/-- The client asks for a PONG and resets the connection before the reply is sent. -/
theorem not_released_once :
    ¬ ∀ fd peer parsed data events s, Run adminMachine unguarded (s5adminAccepted fd peer parsed data) events s →
      ReleasedOnce fd s ∧ ∀ a, adminEnabled s a = true → adminStep s a ≠ .error .useAfterFree := by
  intro hall
  obtain ⟨s, k, hread, hreplying, -⟩ := replying_ping 5 localPeer (initialCmdParsed []) startedData
  have hrun : Run adminMachine unguarded (s5adminAccepted 5 localPeer (initialCmdParsed []) startedData)
      ([] ++ [.readable pingChunk]) s := .snoc .nil rfl trivial hread
  have hfails : SendFails s (.writable (.failed (.other 104))) :=
    ⟨nofun, k, hreplying.conn, by rw [hreplying.pending]; decide⟩
  exact (hall _ _ _ _ _ s hrun).2 _ (hreplying.enabled _) hfails.fault

end Socks5d
