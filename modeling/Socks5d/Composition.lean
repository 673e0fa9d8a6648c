import Socks5d.Accounting
import Socks5d.Admin.Release
import Socks5d.Program

/-!
# The program is made of its machines

In every run of the program its server part makes a run of the server's machine, and every
registered administration connection is in a state that a run of its own machine leads to, with
everything else as the events elsewhere. A descriptor without such a registration has no record.
The access register holds the last hundred calls the connections made.
-/

namespace Socks5d

open GuardedRun Fallible CStrings RingLog

variable {guard : Server → Event → Prop} {p p' : Program} {e : ProgramEvent} {fd : ℕ}
  {s s' : Server}

section Commands

/-- A command changes the users, the settings and the log level only, and sets no buffer size
below the smallest. -/
structure Configures (data data' : ServerData) : Prop where
  metrics : data'.metrics = data.metrics
  accessRegister : data'.accessRegister = data.accessRegister
  bufferSize : BUFF_MIN_LEN ≤ data.bufferSize → BUFF_MIN_LEN ≤ data'.bufferSize

theorem Configures.refl (data : ServerData) : Configures data data := ⟨rfl, rfl, id⟩

theorem handleSetLoglevel_configures (parsed : S5adminCmdParsed) (data : ServerData)
    (response : List UInt8) : Configures data (handleSetLoglevel parsed data response).1 := by
  unfold handleSetLoglevel
  split
  · exact ⟨rfl, rfl, id⟩
  split
  · exact ⟨rfl, rfl, id⟩
  split
  · exact ⟨rfl, rfl, id⟩
  split
  · exact ⟨rfl, rfl, id⟩
  · exact ⟨rfl, rfl, id⟩

theorem handleSetBuff_configures (parsed : S5adminCmdParsed) (data : ServerData)
    (response : List UInt8) : Configures data (handleSetBuff parsed data response).1 := by
  unfold handleSetBuff setBufferSize
  by_cases hsmall : atoi parsed.arg1Text < BUFF_MIN_LEN
  · simp only [if_pos hsmall]
    exact ⟨rfl, rfl, id⟩
  · simp only [if_neg hsmall, if_true]
    exact ⟨rfl, rfl, fun _ => by simp only; omega⟩

theorem handleSetMaxConn_configures (parsed : S5adminCmdParsed) (data : ServerData)
    (response : List UInt8) : Configures data (handleSetMaxConn parsed data response).1 := by
  unfold handleSetMaxConn setMaxConn
  by_cases hsmall : atoi parsed.arg1Text < 1
  · simp only [if_pos hsmall]
    exact ⟨rfl, rfl, id⟩
  · simp only [if_neg hsmall, if_true]
    exact ⟨rfl, rfl, id⟩

theorem commandHandlers_configures (cmd : S5adminCommand) (parsed : S5adminCmdParsed)
    (data : ServerData) (response : List UInt8) :
    Configures data (commandHandlers cmd parsed data response).1 := by
  cases cmd with
  | addUser =>
    simp only [commandHandlers, handleAddUser]
    split
    · exact ⟨rfl, rfl, id⟩
    · exact ⟨rfl, rfl, id⟩
  | removeUser =>
    simp only [commandHandlers, handleRemoveUser]
    split
    · exact ⟨rfl, rfl, id⟩
    · exact ⟨rfl, rfl, id⟩
  | setLoglevel => exact handleSetLoglevel_configures parsed data response
  | setMaxConn => exact handleSetMaxConn_configures parsed data response
  | setBuff => exact handleSetBuff_configures parsed data response
  | _ => exact .refl data

theorem adminAnswer_configures {parsed : S5adminCmdParsed} {data : ServerData}
    {line area : List UInt8} {r : ConfigResult} (h : adminAnswer parsed data line area = .ok r) :
    Configures data r.data := by
  unfold adminAnswer configHandler at h
  split at h
  · obtain rfl := Except.ok.inj h
    exact .refl data
  · cases hparse : s5adminParseCommand parsed line with
    | error f =>
      rw [hparse] at h
      cases h
    | ok q =>
      rw [hparse] at h
      obtain rfl := Except.ok.inj h
      exact commandHandlers_configures _ _ _ _

end Commands

section Sessions

/-- What a callback of an administration connection that returned has kept. -/
structure AdminKeeps (s a : AdminState) : Prop where
  configures : Configures s.data a.data
  /-- The record is there as long as the connection is registered. -/
  registered : a.interest.isSome = a.conn.isSome
  fd : ∀ k' ∈ a.conn, ∃ k ∈ s.conn, k'.fd = k.fd

variable {s a : AdminState} {ae : AdminEvent} {k : AdminConn}

/-- A search for a newline keeps the connection. -/
theorem Scanned.keeps (h : Scanned s k a) (hinterest : s.interest.isSome = true) :
    Configures s.data a.data ∧ a.interest.isSome = a.conn.isSome ∧ ∀ k' ∈ a.conn, k'.fd = k.fd := by
  cases h with
  | dropped hfind hfull => exact ⟨.refl _, hinterest, fun k' hk' => Option.some.inj hk' ▸ rfl⟩
  | tooLong hfind hroom outBuff hcontent hcapacity =>
    exact ⟨.refl _, by simpa using hinterest, fun k' hk' => Option.some.inj hk' ▸ rfl⟩
  | withheld offset hfind hfull =>
    exact ⟨.refl _, hinterest, fun k' hk' => Option.some.inj hk' ▸ rfl⟩
  | answered offset hfind hroom r hanswer inBuff outBuff hin hcontent hcapacity =>
    exact ⟨adminAnswer_configures hanswer, by simpa using hinterest,
      fun k' hk' => Option.some.inj hk' ▸ rfl⟩

/-- A callback of a registered administration connection keeps it or releases it. -/
theorem adminStep_keeps (hinterest : s.interest.isSome = true) (h : adminStep s ae = .ok a)
    (hown : ∀ parsed data, ae ≠ .elsewhere parsed data) : AdminKeeps s a := by
  cases ae with
  | readable outcome =>
    obtain ⟨k, hk⟩ := adminRead_conn h
    rcases adminRead_cases hk h with rfl | ⟨bytes, k₁, hrec, hscan⟩
    · exact ⟨.refl _, rfl, fun k' hk' => by cases hk'⟩
    · obtain ⟨hconfigures, hregistered, hfd⟩ := hscan.keeps hinterest
      exact ⟨hconfigures, hregistered, fun k' hk' => ⟨k, hk, (hfd k' hk').trans hrec.fd⟩⟩
  | writable outcome =>
    obtain ⟨k, hk⟩ := adminWrite_conn h
    rcases adminWrite_spec hk outcome with ⟨herr, -⟩ | ⟨hsame, -⟩ |
      ⟨n, outBuff, -, -, -, -, -, hsent⟩
    · cases h.symm.trans herr
    · obtain rfl := Except.ok.inj (h.symm.trans hsame)
      exact ⟨.refl _, by rw [hinterest, hk]; rfl, fun k' hk' => ⟨k', hk', rfl⟩⟩
    · obtain rfl := Except.ok.inj (h.symm.trans hsent)
      exact ⟨.refl _, by simpa using hinterest,
        fun k' hk' => ⟨k, hk, Option.some.inj hk' ▸ rfl⟩⟩
  | elsewhere parsed data => exact absurd rfl (hown parsed data)

end Sessions

section Steps

/-- The event of the server's machine. -/
def ProgramEvent.event : ProgramEvent → Event
  | .readable fd env => .readable fd env
  | .writable fd env => .writable fd env
  | .notify env => .notify env
  | .resolved c env => .resolved c env

/-- The event makes the administration listener accept. -/
def Event.admits (s : Server) : Event → Prop
  | .readable fd _ => (s.selector.fds fd).handler = some .confProtocol
  | _ => False

/-- What the program does at an event. -/
inductive Acts (p : Program) (e : ProgramEvent) (p' : Program) : Prop
  | serves (s' : Server) (he : enabled p.server e.event = true)
      (hadmits : ¬ e.event.admits p.server) (hs : step p.server e.event = .ok s')
      (hp' : p' = p.served s')
  | admits (fd : ℕ) (env : Env) (hevent : e = .readable fd env)
      (he : enabled p.server e.event = true) (hadmits : e.event.admits p.server)
      (hp' : p' = (p.enter env).s5adminPassiveAccept env)
  | administers (fd : ℕ) (ae : AdminEvent) (a : AdminState)
      (hadmin : isAdmin (p.server.selector.fds fd) = true)
      (hown : ∀ parsed data, ae ≠ .elsewhere parsed data)
      (he : adminEnabled (p.session fd) ae = true) (hs : adminStep (p.session fd) ae = .ok a)
      (hp' : p.returned fd a = .ok p')

theorem isAdmin_iff {item : Item} :
    isAdmin item = true ↔ item.used = true ∧ item.handler = some .adminHandler := by
  simp [isAdmin]

/-- The read callback of a descriptor that is not the administration's own. -/
theorem Program.handleRead_server {item : Item} {env : Env}
    (hadmin : item.handler ≠ some .adminHandler) (hadmits : item.handler ≠ some .confProtocol)
    (h : p.handleRead item env = .ok p') :
    ∃ s', Socks5d.handleRead item env (p.server.enter env) = .ok s' ∧ p' = p.served s' := by
  unfold Program.handleRead at h
  split at h
  · exact absurd ‹_› hadmin
  · exact absurd ‹_› hadmits
  · cases hread : Socks5d.handleRead item env (p.server.enter env) with
    | error f => simp [hread] at h
    | ok s' =>
      rw [hread] at h
      exact ⟨s', rfl, (Except.ok.inj h).symm⟩

theorem Program.handleWrite_server {item : Item} {env : Env}
    (hadmin : item.handler ≠ some .adminHandler) (h : p.handleWrite item env = .ok p') :
    ∃ s', Socks5d.handleWrite item env (p.server.enter env) = .ok s' ∧ p' = p.served s' := by
  unfold Program.handleWrite at h
  split at h
  · exact absurd ‹_› hadmin
  · cases hwrite : Socks5d.handleWrite item env (p.server.enter env) with
    | error f => simp [hwrite] at h
    | ok s' =>
      rw [hwrite] at h
      exact ⟨s', rfl, (Except.ok.inj h).symm⟩

/-- A step of the program, by whose callback it is. -/
theorem Program.step_cases (hinv : Inv p.server) (he : p.enabled e = true)
    (hs : p.step e = .ok p') : Acts p e p' := by
  cases e with
  | readable fd env =>
    simp only [Program.enabled, Bool.and_eq_true] at he
    obtain ⟨⟨hopen, hused⟩, hread⟩ := he
    simp only [Program.step] at hs
    by_cases hadmin : isAdmin (p.server.selector.fds fd) = true
    · obtain ⟨-, -, i, hitem⟩ := hinv.owned.admin_owner hadmin
      simp only [Program.handleRead, hitem, Int.toNat_natCast] at hs
      cases hstep : adminRead (p.session fd) env.recv with
      | error f => simp [hstep] at hs
      | ok a =>
        simp only [hstep, ok_bind] at hs
        exact .administers fd (.readable env.recv) a hadmin (by simp)
          (by simpa [adminEnabled, Program.session] using hread) hstep hs
    · have hnot : (p.server.selector.fds fd).handler ≠ some .adminHandler :=
        fun hhandler => hadmin (isAdmin_iff.mpr ⟨hused, hhandler⟩)
      have he : Socks5d.enabled p.server (.readable fd env) = true := by
        simp [Socks5d.enabled, hopen, hused, hread, hadmin]
      by_cases hadmits : (p.server.selector.fds fd).handler = some .confProtocol
      · refine .admits fd env rfl he hadmits ?_
        simp only [Program.handleRead, hadmits] at hs
        exact (Except.ok.inj hs).symm
      · obtain ⟨s', hs', hp'⟩ := Program.handleRead_server hnot hadmits hs
        exact .serves s' he hadmits hs' hp'
  | writable fd env =>
    simp only [Program.enabled, Bool.and_eq_true] at he
    obtain ⟨⟨hopen, hused⟩, hwrite⟩ := he
    simp only [Program.step] at hs
    by_cases hadmin : isAdmin (p.server.selector.fds fd) = true
    · obtain ⟨-, -, i, hitem⟩ := hinv.owned.admin_owner hadmin
      simp only [Program.handleWrite, hitem, Int.toNat_natCast] at hs
      cases hstep : adminWrite (p.session fd) env.send with
      | error f => simp [hstep] at hs
      | ok a =>
        simp only [hstep, ok_bind] at hs
        exact .administers fd (.writable env.send) a hadmin (by simp)
          (by simpa [adminEnabled, Program.session] using hwrite) hstep hs
    · have hnot : (p.server.selector.fds fd).handler ≠ some .adminHandler :=
        fun hhandler => hadmin (isAdmin_iff.mpr ⟨hused, hhandler⟩)
      obtain ⟨s', hs', hp'⟩ := Program.handleWrite_server hnot hs
      exact .serves s' (by simp [Socks5d.enabled, ProgramEvent.event, hopen, hused, hwrite, hadmin])
        id hs' hp'
  | notify env =>
    simp only [Program.step, Program.handleBlockNotification] at hs
    cases hstep : Socks5d.handleBlockNotification env (p.server.enter env) with
    | error f => simp [hstep] at hs
    | ok s' =>
      rw [hstep] at hs
      exact .serves s' he id hstep (Except.ok.inj hs).symm
  | resolved c env =>
    have hmem : c ∈ p.server.resolving := by simpa [Program.enabled] using he
    simp only [Program.step, Program.finish, if_pos hmem] at hs
    cases hstep : Socks5d.step p.server (.resolved c env) with
    | error f => simp [hstep] at hs
    | ok s' =>
      rw [hstep] at hs
      exact .serves s' he id hstep (Except.ok.inj hs).symm

end Steps

section Projection

/-- The guard admits what the administration does. -/
structure SparesAdmin (guard : Server → Event → Prop) : Prop where
  interest : ∀ s fd i, guard s (.adminInterest fd i)
  close : ∀ s fd, guard s (.adminClose fd)
  configure : ∀ s users bufferSize maxConn, guard s (.configure users bufferSize maxConn)

/-- Where nothing is guarded, all of it is admitted. -/
theorem sparesAdmin_unguarded : SparesAdmin unguarded where
  interest _ _ _ := trivial
  close _ _ := trivial
  configure _ _ _ _ := trivial

variable {a : AdminState}

/-- The server with the users and the settings that a callback of the administration left. -/
def ServerData.configured (data : ServerData) (s : Server) : Server :=
  { s with users := data.users, bufferSize := data.bufferSize, maxConn := data.maxConn }

/-- What a callback of the administration leaves behind. -/
theorem Program.returned_cases (hkeeps : AdminKeeps (p.session fd) a)
    (h : p.returned fd a = .ok p') :
    ((∃ i, a.interest = some i ∧ p'.server = (a.data.configured p.server).setInterest fd i) ∨
      a.interest = none ∧ selectorUnregisterFd (a.data.configured p.server) fd = .ok p'.server) ∧
    p'.admins = Function.update p.admins fd a.conn ∧
    p'.adminTraces = Function.update p.adminTraces fd a.trace ∧ p'.parsed = a.parsed ∧
    p'.logLevel = a.data.logLevel ∧ p'.accessRegister = p.accessRegister ∧
    p'.isoDate = p.isoDate := by
  have hmetrics : a.data.metrics = p.server.metrics := hkeeps.configures.metrics
  have hregister : a.data.accessRegister = p.accessRegister := hkeeps.configures.accessRegister
  unfold Program.returned at h
  simp only [hmetrics, hregister] at h
  cases hinterest : a.interest with
  | some i =>
    simp only [hinterest, pure_eq_ok, ok_bind] at h
    obtain rfl := Except.ok.inj h
    exact ⟨.inl ⟨i, rfl, rfl⟩, rfl, rfl, rfl, rfl, rfl, rfl⟩
  | none =>
    simp only [hinterest] at h
    cases hclosed : selectorUnregisterFd (a.data.configured p.server) fd with
    | error f =>
      unfold ServerData.configured at hclosed
      simp [hclosed] at h
    | ok s' =>
      unfold ServerData.configured at hclosed
      simp only [hclosed, ok_bind, pure_eq_ok] at h
      obtain rfl := Except.ok.inj h
      exact ⟨.inr ⟨rfl, rfl⟩, rfl, rfl, rfl, rfl, rfl, rfl⟩

/-- The server's part of a callback of the administration: new settings, and a new interest or the
end of the connection. -/
theorem Program.returned_run (hfree : SparesAdmin guard) (hinv : Inv p.server)
    (hadmin : isAdmin (p.server.selector.fds fd) = true) (hkeeps : AdminKeeps (p.session fd) a)
    (h : p.returned fd a = .ok p') : ∃ events, Run machine guard p.server events p'.server := by
  have hconfigure : Run machine guard p.server
      [.configure a.data.users a.data.bufferSize a.data.maxConn] (a.data.configured p.server) :=
    .snoc .nil (decide_eq_true (hkeeps.configures.bufferSize hinv.bufferSize))
      (hfree.configure _ _ _ _) rfl
  rcases (Program.returned_cases hkeeps h).1 with ⟨i, -, hserver⟩ | ⟨-, hserver⟩
  · exact ⟨_, hconfigure.snoc (a := Event.adminInterest fd i) hadmin (hfree.interest _ _ _)
      (congrArg Except.ok hserver.symm)⟩
  · exact ⟨_, hconfigure.snoc (a := Event.adminClose fd) hadmin (hfree.close _ _) hserver⟩

/-- The administration's listener is handled by the server's machine as well. -/
theorem Program.server_s5adminPassiveAccept (p : Program) (env : Env) :
    (p.s5adminPassiveAccept env).server = Socks5d.s5adminPassiveAccept env p.server := by
  unfold Program.s5adminPassiveAccept Socks5d.s5adminPassiveAccept
  split
  · rfl
  · split
    · rename_i heq
      rw [heq]
    · rename_i heq
      rw [heq]

/-- A step of the program is a run of the server's machine. -/
theorem Acts.run (h : Acts p e p') (hfree : SparesAdmin guard) (hinv : Inv p.server)
    (hguard : guard p.server e.event) : ∃ events, Run machine guard p.server events p'.server := by
  cases h with
  | serves s' he hadmits hs hp' =>
    subst hp'
    exact ⟨_, .snoc .nil he hguard hs⟩
  | admits fd env hevent he hadmits hp' =>
    subst hevent hp'
    refine ⟨_, Run.snoc (a := Event.readable fd env) .nil he hguard ?_⟩
    have hhandler : (p.server.selector.fds fd).handler = some .confProtocol := hadmits
    rw [Program.server_s5adminPassiveAccept]
    simp [machine, Socks5d.step, Socks5d.handleRead, hhandler, Program.enter]
  | administers fd ae a hadmin hown he hs hp' =>
    exact Program.returned_run hfree hinv hadmin (adminStep_keeps rfl hs hown) hp'

/-- The program's guard that a guard of the server's machine amounts to. -/
def within (guard : Server → Event → Prop) (p : Program) (e : ProgramEvent) : Prop :=
  guard p.server e.event

instance [∀ s e, Decidable (guard s e)] (p : Program) (e : ProgramEvent) :
    Decidable (within guard p e) := inferInstanceAs (Decidable (guard p.server e.event))

/-- A run of the program makes a run of the server's machine. -/
theorem program_run {p₀ : Program} {events : List ProgramEvent} (hfree : SparesAdmin guard)
    (hinv : Inv p₀.server) (hrun : Run programMachine (within guard) p₀ events p) :
    ∃ events, Run machine guard p₀.server events p.server := by
  refine (hrun.invariant (I := fun p => Inv p.server ∧
    ∃ events, Run machine guard p₀.server events p.server) ⟨hinv, [], .nil⟩ ?_).2
  rintro p e p' ⟨hp, events, hserver⟩ he hguard hs
  obtain ⟨more, hmore⟩ := (Program.step_cases hp he hs).run hfree hp hguard
  refine ⟨hmore.invariant hp fun s e s' h he _ hs => h.step he hs, _, hserver.append hmore⟩

end Projection

section Records

variable {c : ConnId}

/-- An event of the program for no connection is an accept of a client, unless it is one of the
administration. -/
theorem Inv.background_opens (hinv : Inv s) (he : enabled s e.event = true)
    (hadmits : ¬ e.event.admits s) (hs : Socks5d.step s e.event = .ok s')
    (htarget : e.event.target s = none) : Opens (.client s.nextConn) s s' := by
  cases e with
  | readable fd env =>
    simp only [ProgramEvent.event, enabled, Bool.and_eq_true, Bool.not_eq_true'] at he
    obtain ⟨⟨⟨-, hused⟩, -⟩, hadmin⟩ := he
    obtain ⟨-, hreg⟩ := hinv.owned.registered fd hused
    simp only [ProgramEvent.event, Socks5d.step] at hs
    simp only [ProgramEvent.event, Event.target] at htarget
    simp only [ProgramEvent.event, Event.admits] at hadmits
    generalize s.selector.fds fd = item at hreg hadmin hused hs htarget hadmits
    cases hreg with
    | listener handler i howner hpassive =>
      rcases hpassive with rfl | rfl
      · have hopens := socksv5PassiveAccept_opens (hinv.entered_inv env) env hs
        exact ⟨hopens.held, hopens.opened⟩
      · exact absurd rfl hadmits
    | client => cases htarget
    | relay => cases htarget
    | admin i howner => simp [isAdmin, hused] at hadmin
  | writable fd env =>
    simp only [ProgramEvent.event, enabled, Bool.and_eq_true, Bool.not_eq_true'] at he
    obtain ⟨⟨⟨-, hused⟩, -⟩, hadmin⟩ := he
    obtain ⟨-, hreg⟩ := hinv.owned.registered fd hused
    simp only [ProgramEvent.event, Socks5d.step] at hs
    simp only [ProgramEvent.event, Event.target] at htarget
    generalize s.selector.fds fd = item at hreg hadmin hused hs htarget
    cases hreg with
    | listener handler i howner hpassive =>
      rcases hpassive with rfl | rfl
      · cases hs
      · cases hs
    | client => cases htarget
    | relay => cases htarget
    | admin i howner => simp [isAdmin, hused] at hadmin
  | notify env =>
    cases hjobs : s.selector.resolutionJobs with
    | nil => simp [ProgramEvent.event, enabled, hjobs] at he
    | cons fd jobs =>
      obtain ⟨c, howner⟩ := hinv.owned.jobs fd (by rw [hjobs]; exact List.mem_cons_self)
      obtain ⟨i, hitem⟩ := hinv.clientItem howner
      simp [ProgramEvent.event, Event.target, hjobs, hitem] at htarget
  | resolved c env => cases htarget

/-- A callback of the server leaves what is registered for the administration alone, and registers
nothing for it. -/
theorem Inv.adminItem (hinv : Inv s) (he : enabled s e.event = true)
    (hadmits : ¬ e.event.admits s) (hs : Socks5d.step s e.event = .ok s')
    (h : isAdmin (s.selector.fds fd) = true ∨ isAdmin (s'.selector.fds fd) = true) :
    s'.selector.fds fd = s.selector.fds fd := by
  have hkept : (s'.kernel.owner fd = some .other → s.kernel.owner fd = some .other) ∧
      (s.kernel.owner fd = some .other → s'.selector.fds fd = s.selector.fds fd) := by
    cases hinv.effect he hs with
    | background _ htarget =>
      have hopens := hinv.background_opens he hadmits hs htarget
      refine ⟨fun ho => ?_, fun ho => (hopens.held fd (by rw [ho]; simp)).2⟩
      rcases hopens.opened fd _ ho with hold | ⟨hclient, -⟩
      · exact hold
      · cases hclient
    | reaction c v r s₀ _ _ _ hentered hlands _ =>
      refine ⟨fun ho => ?_, fun ho => ?_⟩
      · rcases hlands.frame.owners fd with heq | ⟨-, hnone | ⟨q, hq⟩⟩
        · rw [← hentered.kernel, ← heq, ho]
        · rw [hnone] at ho
          cases ho
        · rw [hq] at ho
          cases ho
      · rw [← hentered.kernel] at ho
        rcases hlands.frame.items fd with heq | htouched | ⟨-, hlistener, -⟩
        · rw [heq, hentered.fds]
        · exact absurd htouched (not_touched_of_owner ho (by simp [FdOwner.conn]))
        · rw [ho] at hlistener
          cases hlistener
  rcases h with h | h
  · exact hkept.2 (hinv.owned.admin_owner h).2.1
  · exact hkept.2 (hkept.1 ((hinv.step he hs).owned.admin_owner h).2.1)

/-- The trace is only extended. -/
theorem stable_extends (t : List Obs) : Stable fun s => t <+: s.trace where
  books h hbooks := hbooks.trace ▸ h
  setConn _ h _ := h
  free h _ := h.trans (List.prefix_append _ _)
  note _ h _ := h.trans (List.prefix_append _ _)
  queued _ _ _ _ _ h := h.trans (List.prefix_append _ _)
  incErrors h := h
  answered _ _ h := h.trans (List.prefix_append _ _)

theorem trace_extends {e : Event} (hs : Socks5d.step s e = .ok s') : s.trace <+: s'.trace :=
  ((stable_extends s.trace).event (fun h hsame => hsame.trace ▸ h) (List.prefix_refl _) e
    fun _ _ _ _ h => h.trans (List.prefix_append _ _)).result hs

/-- The administration connection at a descriptor is in a state that a run of its own machine
leads to, in which no `send` failed for good. -/
def Program.Serves (p : Program) (fd : ℕ) : Prop :=
  ∃ peer parsed data events, Run adminMachine (fun s a => ¬ SendFails s a)
    (s5adminAccepted fd peer parsed data) events (p.session fd)

/-- A step of the connection's own machine, or an event elsewhere. -/
theorem Program.Serves.step {ae : AdminEvent} (h : p.Serves fd)
    (he : adminEnabled (p.session fd) ae = true)
    (hs : adminStep (p.session fd) ae = .ok (p'.session fd)) : p'.Serves fd := by
  obtain ⟨peer, parsed, data, events, hrun⟩ := h
  refine ⟨peer, parsed, data, _, hrun.snoc he (fun hfails => ?_) hs⟩
  cases hs.symm.trans hfails.fault

/-- What ties the administration connections and the access register to the server. -/
structure Composed (p : Program) : Prop where
  inv : Inv p.server
  session : ∀ fd, isAdmin (p.server.selector.fds fd) = true → p.Serves fd
  record : ∀ fd, (p.admins fd).isSome = isAdmin (p.server.selector.fds fd)
  descriptor : ∀ fd k, p.admins fd = some k → k.fd = fd
  register : p.accessRegister.Keeps (p.server.accessCalls.map (AccessCall.args p.isoDate))

theorem Composed.served (h : Composed p) (he : enabled p.server e.event = true)
    (hadmits : ¬ e.event.admits p.server) (hs : Socks5d.step p.server e.event = .ok s') :
    Composed (p.served s') where
  inv := h.inv.step he hs
  session fd hadmin := by
    have hitem := h.inv.adminItem he hadmits hs (.inr hadmin)
    have helsewhere : adminEnabled (p.session fd) (.elsewhere p.parsed (p.served s').data) = true :=
      rfl
    refine (h.session fd (hitem ▸ hadmin)).step helsewhere ?_
    simp only [adminStep, Program.session, Program.served, hitem]
  record fd := by
    have hitem : isAdmin (p.server.selector.fds fd) = true ∨
        isAdmin (s'.selector.fds fd) = true → s'.selector.fds fd = p.server.selector.fds fd :=
      fun hadmin => h.inv.adminItem he hadmits hs hadmin
    change (p.admins fd).isSome = isAdmin (s'.selector.fds fd)
    rw [h.record]
    by_cases hbefore : isAdmin (p.server.selector.fds fd) = true
    · rw [hitem (.inl hbefore)]
    · by_cases hafter : isAdmin (s'.selector.fds fd) = true
      · rw [hitem (.inr hafter)]
      · rw [Bool.eq_false_iff.mpr hbefore, Bool.eq_false_iff.mpr hafter]
  descriptor := h.descriptor
  register := by
    obtain ⟨t, ht⟩ := trace_extends hs
    have hcalls : s'.accessCalls = p.server.accessCalls ++ t.filterMap Obs.accessCall := by
      rw [Server.accessCalls, ← ht, List.filterMap_append]
      rfl
    simp only [Program.served, hcalls, List.drop_left, List.map_append]
    exact h.register.addEntries _

/-- Nothing that the administration sees has changed. -/
theorem Composed.of_same (h : Composed p) (hinv : Inv s')
    (hfds : s'.selector.fds = p.server.selector.fds) (htrace : s'.trace = p.server.trace)
    (hdata : Program.data { p with server := s' } = p.data) :
    Composed { p with server := s' } where
  inv := hinv
  session fd hadmin := by
    unfold Program.Serves
    rw [show Program.session { p with server := s' } fd = p.session fd by
      simp only [Program.session, hdata, hfds]]
    exact h.session fd (by rw [← hfds]; exact hadmin)
  record fd := by
    simp only [hfds]
    exact h.record fd
  descriptor := h.descriptor
  register := by
    simp only [Server.accessCalls, htrace]
    exact h.register

/-- A new administration connection starts with nothing but its peer in the record. -/
theorem Composed.accepts (h : Composed p) (hinv : Inv s') {n : ℕ} {peer : CString × UInt16}
    (hfds : s'.selector.fds = Function.update p.server.selector.fds n
      ⟨n, OP_READ, some .adminHandler, none⟩) (htrace : s'.trace = p.server.trace)
    (hdata : Program.data { p with server := s' } = p.data) :
    Composed { p with
      server := s'
      admins := Function.update p.admins n (some (AdminConn.init n peer))
      adminTraces := Function.update p.adminTraces n [] } where
  inv := hinv
  session fd hadmin := by
    unfold Program.Serves
    by_cases hfd : fd = n
    · subst hfd
      refine ⟨peer, p.parsed, p.data, [], ?_⟩
      rw [show Program.session { p with
          server := s'
          admins := Function.update p.admins fd (some (AdminConn.init fd peer))
          adminTraces := Function.update p.adminTraces fd [] } fd =
        s5adminAccepted fd peer p.parsed p.data by
        simp only [Program.session, s5adminAccepted, hfds, Function.update_self, ← hdata]
        rfl]
      exact .nil
    · simp only [hfds, Function.update_of_ne hfd] at hadmin
      rw [show Program.session { p with
          server := s'
          admins := Function.update p.admins n (some (AdminConn.init n peer))
          adminTraces := Function.update p.adminTraces n [] } fd = p.session fd by
        simp only [Program.session, hfds, Function.update_of_ne hfd, ← hdata]
        rfl]
      exact h.session fd hadmin
  record fd := by
    by_cases hfd : fd = n
    · subst hfd
      simp [hfds, isAdmin, Item.used, FD_UNUSED]
    · simp only [hfds, Function.update_of_ne hfd]
      exact h.record fd
  descriptor fd k hk := by
    by_cases hfd : fd = n
    · subst hfd
      simp only [Function.update_self] at hk
      exact Option.some.inj hk ▸ rfl
    · simp only [Function.update_of_ne hfd] at hk
      exact h.descriptor fd k hk
  register := by
    simp only [Server.accessCalls, htrace]
    exact h.register

/-- What a callback of the administration connection at a descriptor makes of the program. -/
structure Returns (p : Program) (fd : ℕ) (a : AdminState) (p' : Program) : Prop where
  others : ∀ n, n ≠ fd → p'.server.selector.fds n = p.server.selector.fds n
  registered : isAdmin (p'.server.selector.fds fd) = a.interest.isSome
  interest : ∀ i, a.interest = some i → (p'.server.selector.fds fd).interest = i
  blank : a.interest = none → p'.server.selector.fds fd = itemInit
  trace : p'.server.trace = p.server.trace
  data : p'.data = a.data
  admins : p'.admins = Function.update p.admins fd a.conn
  adminTraces : p'.adminTraces = Function.update p.adminTraces fd a.trace
  parsed : p'.parsed = a.parsed
  accessRegister : p'.accessRegister = p.accessRegister
  isoDate : p'.isoDate = p.isoDate

theorem Program.returned_returns {a : AdminState} (hinv : Inv p.server)
    (hadmin : isAdmin (p.server.selector.fds fd) = true) (hkeeps : AdminKeeps (p.session fd) a)
    (h : p.returned fd a = .ok p') : Returns p fd a p' := by
  obtain ⟨hserver, hadmins, htraces, hparsed, hlevel, hregister, hdate⟩ :=
    Program.returned_cases hkeeps h
  have hmetrics : a.data.metrics = p.server.metrics := hkeeps.configures.metrics
  have hregister' : a.data.accessRegister = p.accessRegister := hkeeps.configures.accessRegister
  have hconfigured : Inv (a.data.configured p.server) :=
    hinv.step (e := .configure a.data.users a.data.bufferSize a.data.maxConn)
      (decide_eq_true (hkeeps.configures.bufferSize hinv.bufferSize)) rfl
  have hdata : ∀ t : Server, p'.server = t → t.users = a.data.users →
      t.metrics = p.server.metrics → t.bufferSize = a.data.bufferSize →
      t.maxConn = a.data.maxConn → p'.data = a.data := by
    intro t ht husers hmetrics' hbuffer hmax
    rw [Program.data, ht, husers, hmetrics', hbuffer, hmax, hlevel, hregister, ← hmetrics,
      ← hregister']
  have hitem := fun i n => fds_setInterest (a.data.configured p.server) fd i n
    fun h => (hconfigured.owned.registered n h).1
  rcases hserver with ⟨i, hinterest, hserver⟩ | ⟨hinterest, hserver⟩
  · refine ⟨fun n hn => ?_, ?_, fun j hj => ?_, fun hnone => ?_, by rw [hserver]; rfl,
      hdata _ hserver rfl rfl rfl rfl, hadmins, htraces, hparsed, hregister, hdate⟩
    · rw [hserver, hitem i n, if_neg (fun h => hn (by exact_mod_cast h.1))]
      rfl
    · rw [hserver, hitem i fd, if_pos ⟨rfl, (isAdmin_iff.mp hadmin).1⟩, hinterest]
      exact hadmin
    · obtain rfl := Option.some.inj (hinterest.symm.trans hj)
      rw [hserver, hitem i fd, if_pos ⟨rfl, (isAdmin_iff.mp hadmin).1⟩]
    · cases hinterest.symm.trans hnone
  · obtain ⟨hlt, -, j, hitem'⟩ := hconfigured.owned.admin_owner hadmin
    rw [selectorUnregisterFd_admin hlt hitem'] at hserver
    have hserver' := Except.ok.inj hserver
    have hfds : p'.server.selector.fds = Function.update p.server.selector.fds fd itemInit := by
      rw [← hserver']
      exact fds_removeItem _ _
    refine ⟨fun n hn => ?_, ?_, fun j hj => ?_, fun _ => ?_, by rw [← hserver']; rfl,
      hdata _ hserver'.symm rfl rfl rfl rfl, hadmins, htraces, hparsed, hregister, hdate⟩
    · rw [hfds, Function.update_of_ne hn]
    · rw [hfds, Function.update_self, hinterest]
      rfl
    · cases hinterest.symm.trans hj
    · rw [hfds, Function.update_self]

/-- A callback of an administration connection is a step of its machine, and an event elsewhere for
the others. -/
theorem Composed.administers (h : Composed p) {a : AdminState} {ae : AdminEvent}
    (hadmin : isAdmin (p.server.selector.fds fd) = true)
    (hown : ∀ parsed data, ae ≠ .elsewhere parsed data)
    (he : adminEnabled (p.session fd) ae = true) (hs : adminStep (p.session fd) ae = .ok a)
    (hret : p.returned fd a = .ok p') (hinv : Inv p'.server) : Composed p' := by
  have hkeeps := adminStep_keeps rfl hs hown
  have hreturns := Program.returned_returns h.inv hadmin hkeeps hret
  refine ⟨hinv, fun n hn => ?_, fun n => ?_, fun n k hk => ?_, ?_⟩
  · by_cases hfd : n = fd
    · subst hfd
      rw [hreturns.registered] at hn
      obtain ⟨i, hi⟩ := Option.isSome_iff_exists.mp hn
      have hsession : p'.session n = a := by
        rw [Program.session, hreturns.admins, hreturns.adminTraces, hreturns.parsed,
          hreturns.data, hreturns.interest i hi, Function.update_self, Function.update_self, ← hi]
      exact (h.session n hadmin).step he (hsession ▸ hs)
    · rw [hreturns.others n hfd] at hn
      have hsession : p'.session n = { p.session n with parsed := a.parsed, data := a.data } := by
        rw [Program.session, hreturns.admins, hreturns.adminTraces, hreturns.parsed,
          hreturns.data, hreturns.others n hfd, Function.update_of_ne hfd,
          Function.update_of_ne hfd]
        rfl
      have helsewhere : adminEnabled (p.session n) (.elsewhere a.parsed a.data) = true := rfl
      exact (h.session n hn).step helsewhere (hsession ▸ rfl)
  · by_cases hfd : n = fd
    · rw [hfd, hreturns.admins, hreturns.registered, hkeeps.registered, Function.update_self]
    · rw [hreturns.admins, hreturns.others n hfd, Function.update_of_ne hfd]
      exact h.record n
  · rw [hreturns.admins] at hk
    by_cases hfd : n = fd
    · subst hfd
      rw [Function.update_self] at hk
      obtain ⟨k₀, hk₀, heq⟩ := hkeeps.fd k hk
      exact heq.trans (h.descriptor n k₀ hk₀)
    · rw [Function.update_of_ne hfd] at hk
      exact h.descriptor n k hk
  · rw [hreturns.accessRegister, hreturns.isoDate, Server.accessCalls, hreturns.trace]
    exact h.register

/-- An accept of the administration's listener, whichever step of it fails. -/
theorem Composed.admits (h : Composed p) {env : Env}
    (hinv : Inv ((p.enter env).s5adminPassiveAccept env).server) :
    Composed ((p.enter env).s5adminPassiveAccept env) := by
  have hentered : Composed (p.enter env) := h.of_same (h.inv.entered_inv env) rfl rfl rfl
  revert hinv
  unfold Program.s5adminPassiveAccept
  split
  · exact fun _ => hentered
  rcases passiveAccept_cases (s := (p.enter env).server) .adminHandler .other none env
    hentered.inv.owned.fdSize with ⟨-, heq⟩ | ⟨sel, -, -, -, hfds, -, -, heq⟩ | ⟨-, heq⟩
  · rw [heq]
    exact fun hinv => hentered.of_same hinv rfl rfl rfl
  · rw [heq]
    exact fun hinv => hentered.accepts hinv hfds rfl rfl
  · rw [heq]
    exact fun hinv => hentered.of_same hinv rfl rfl rfl

/-- Every step of the program keeps its parts together. -/
theorem Composed.step (h : Composed p) (he : p.enabled e = true) (hs : p.step e = .ok p') :
    Composed p' := by
  have hacts := Program.step_cases h.inv he hs
  obtain ⟨events, hrun⟩ := hacts.run sparesAdmin_unguarded h.inv trivial
  have hinv : Inv p'.server := hrun.invariant h.inv fun s e s' h he _ hs => h.step he hs
  cases hacts with
  | serves s' he hadmits hs hp' => exact hp' ▸ h.served he hadmits hs
  | admits fd env hevent he hadmits hp' => exact hp' ▸ h.admits (hp' ▸ hinv)
  | administers fd ae a hadmin hown he hs hp' => exact h.administers hadmin hown he hs hp' hinv

end Records

section Whole

variable {args : Args} {logLevel : LogLevel} {beyond : List UInt8} {entries : ℕ → AccessEntry}
  {isoDate : ℕ → CString} {p₀ : Program} {events : List ProgramEvent}

/-- What the parts of the program are in the states its runs lead to. -/
structure MadeOfRuns (p : Program) : Prop where
  server : Reachable p.server
  session : ∀ fd, isAdmin (p.server.selector.fds fd) = true →
    p.Serves fd ∧ ∃ k, p.admins fd = some k ∧ k.fd = fd
  /-- A record is freed with its registration. -/
  freed : ∀ fd, isAdmin (p.server.selector.fds fd) = false → p.admins fd = none
  /-- With enough space the listing shows the last hundred calls the connections made. -/
  listing : ∀ (response : List UInt8) (calls : List AccessArgs),
    calls = lastItems REGISTER_MAX_ENTRIES
      (p.server.accessCalls.map (AccessCall.args p.isoDate)) →
    (accessListing calls).length < response.length →
      text (accessRegisterPrint p.accessRegister response).2 = accessListing calls

theorem startProgram_composed
    (hp₀ : startProgram args logLevel beyond entries isoDate = some p₀) :
    startServer args = some p₀.server ∧ Composed p₀ := by
  obtain ⟨s₀, hs₀, rfl⟩ := Option.map_eq_some_iff.mp hp₀
  have hboot := (startServer_booting hs₀).1
  have hnone : ∀ fd, isAdmin (s₀.selector.fds fd) = false := by
    intro fd
    apply Bool.eq_false_iff.mpr
    intro hadmin
    obtain ⟨hused, hhandler⟩ := isAdmin_iff.mp hadmin
    obtain ⟨-, -, handler, i, hitem, hpassive⟩ := hboot.item fd hused
    rw [hitem] at hhandler
    obtain rfl := Option.some.inj hhandler
    rcases hpassive with hpassive | hpassive
    · cases hpassive
    · cases hpassive
  refine ⟨hs₀, (startServer_inv hs₀).1, fun fd hadmin => ?_, fun fd => (hnone fd).symm,
    fun fd k hk => ?_, ?_⟩
  · cases (hnone fd).symm.trans hadmin
  · cases hk
  · simp only [Server.accessCalls, hboot.trace]
    exact keeps_init entries

/-- The program is made of its machines: in every run of the whole program the server is in a state
its own machine reaches, whatever the administration does in between, every registered
administration connection is in a state its machine reaches from its acceptance, with its record
there and no other, and what the register prints are the outcomes the connections reported. -/
theorem program_made_of_runs
    (hp₀ : startProgram args logLevel beyond entries isoDate = some p₀)
    (hrun : Run programMachine unguarded p₀ events p) : MadeOfRuns p := by
  obtain ⟨hs₀, hcomposed⟩ := startProgram_composed hp₀
  obtain ⟨more, hserver⟩ := program_run sparesAdmin_unguarded hcomposed.inv
    (hrun.mono fun _ _ _ => trivial)
  have hp : Composed p := hrun.invariant hcomposed fun p e p' hp he _ hs => hp.step he hs
  refine ⟨⟨args, _, more, hs₀, hserver⟩, fun fd hadmin => ⟨hp.session fd hadmin, ?_⟩,
    fun fd hnot => ?_, fun response calls hcalls hfit => ?_⟩
  · obtain ⟨k, hk⟩ := Option.isSome_iff_exists.mp ((hp.record fd).trans hadmin)
    exact ⟨k, hk, hp.descriptor fd k hk⟩
  · exact Option.not_isSome_iff_eq_none.mp (by simp [hp.record fd, hnot])
  · have hrows : (p.accessRegister.rows p.accessRegister.head p.accessRegister.count).flatten =
        (calls.map fun args => args.entry.row).flatten := by
      rw [hp.register.rows, hcalls]
    rw [accessListing_eq] at hfit ⊢
    exact (accessRegisterPrint_of_fits hrows hfit).2.trans
      (text_eq_self (accessListing_eq calls ▸ nulFree_accessListing calls))

/-- An administration client connects while another client is served. -/
theorem program_made_of_runs_two : ∃ p : Program,
    isAdmin (p.server.selector.fds 3) = true ∧ MadeOfRuns p := by
  have hrun : ((startProgram bareArgs .info [] (fun _ => ⟨[], [], 0, [], 0, [], 0, 0⟩)
      fun _ => []).bind fun p =>
      (exec programMachine unguarded p [.readable 0 { peer := some localPeer },
        .readable 1 { peer := some localPeer }]).map fun p => isAdmin (p.server.selector.fds 3)) =
      some true := by decide +kernel
  obtain ⟨p₀, hp₀, hrun⟩ := Option.bind_eq_some_iff.mp hrun
  obtain ⟨p, hp, hadmin⟩ := Option.map_eq_some_iff.mp hrun
  exact ⟨p, hadmin, program_made_of_runs hp₀ (run_of_exec hp)⟩

end Whole

end Socks5d
