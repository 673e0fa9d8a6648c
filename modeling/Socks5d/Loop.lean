import Socks5d.Composition
import Socks5d.Lib.Following
import Socks5d.Notifications
import Socks5d.Reuse

/-!
# The loop of `main` follows the machine

A pass over the descriptor table calls handlers one after another, with a key taken before the
first of them and with sets that `pselect` filled before that. Each call is still an event the
machine offers in the state it is made in: what is registered is open, the key is that of the
item, and an item that was released in between asks for nothing. So what is known of every order of
events is known of the loop, as long as no retry loses the descriptor it closed.
-/

namespace Socks5d

open GuardedRun Fallible

variable {p p' : Program} {s s' : Server} {e : ProgramEvent} {fd i : ℕ} {c : ConnId}

theorem sparesAdmin_retryReuses : SparesAdmin RetryReuses :=
  ⟨fun _ _ _ => trivial, fun _ _ => trivial, fun _ _ _ _ => trivial⟩

/-- The server of the program is in a state its guarded runs reach. -/
def Program.Reached (p : Program) : Prop := ReachableUnder RetryReuses p.server

namespace Program

/-- The calls of a program: what is called, with the state it is called in. -/
abbrev Calls := List (Program × ProgramEvent)

/-- The threads that finish, of those that exist. -/
def finishCalls (threads : List (ConnId × Env)) (p : Program) : Calls :=
  callsOf finish (fun p thread =>
    if thread.1 ∈ p.server.resolving then [(p, .resolved thread.1 thread.2)] else []) threads p

/-- The read callback of an item, if it is called. -/
def readCalls (slaveR : ℕ → Bool) (item : Item) (env : Env) (p : Program) : Calls :=
  if slaveR item.fd.toNat && item.interest.read then [(p, .readable item.fd.toNat env)] else []

/-- The write callback at an index, if it is called. -/
def writeCalls (slaveW : ℕ → Bool) (i : ℕ) (env : Env) (p : Program) : Calls :=
  if slaveW i && (p.server.selector.fds i).interest.write then [(p, .writable i env)] else []

/-- The calls of the body of the loop of `handle_iteration`. -/
def itemCalls (slaveR slaveW : ℕ → Bool) (p : Program) (i : ℕ) (turn : Turn) : Calls :=
  finishCalls turn.before p ++ callsAfter (turn.before.foldlM finish p) fun p =>
    let item := p.server.selector.fds i
    if item.used then
      readCalls slaveR item turn.readEnv p ++
        callsAfter (readItem slaveR item turn.readEnv p) fun p =>
          finishCalls turn.between p ++ callsAfter (turn.between.foldlM finish p) fun p =>
            writeCalls slaveW i turn.writeEnv p
    else []

def iterationCalls (slaveR slaveW : ℕ → Bool) (turns : ℕ → Turn) (p : Program) : Calls :=
  callsOf (fun p i => p.handleItem slaveR slaveW i (turns i))
    (fun p i => p.itemCalls slaveR slaveW i (turns i)) (List.range (p.server.selector.maxFd + 1)) p

/-- The deliveries of so many jobs. -/
def deliveryCalls (envs : ℕ → Env) (items : List ℕ) (p : Program) : Calls :=
  callsOf (fun p i => p.handleBlockNotification (envs i)) (fun p i => [(p, .notify (envs i))])
    items p

def notificationCalls (envs : ℕ → Env) (p : Program) : Calls :=
  deliveryCalls envs (List.range p.server.selector.resolutionJobs.length) p

/-- The calls of `selector_select`. -/
def selectCalls (pass : Pass) (p : Program) : Calls :=
  finishCalls pass.before p ++ callsAfter (pass.before.foldlM finish p) fun p =>
    if p.server.badDescriptor then []
    else
      match pass.poll with
      | .failed => []
      | .interrupted => p.notificationCalls pass.envs
      | .ready readable writable =>
        let slaveR := fun fd => p.server.selector.masterR fd && readable fd
        let slaveW := fun fd => p.server.selector.masterW fd && writable fd
        p.iterationCalls slaveR slaveW pass.turns ++
          callsAfter (p.handleIteration slaveR slaveW pass.turns) (notificationCalls pass.envs)

/-- The calls of the loop of `main`. -/
def loopCalls : List Pass → Program → Calls
  | [], _ => []
  | pass :: passes, p =>
    p.selectCalls pass ++
      match p.selectorSelect pass with
      | .ok (status, p) => if status = .success then loopCalls passes p else []
      | .error _ => []

end Program

/-- No `send` of the event raises `SIGPIPE`. -/
def ProgramEvent.SparesPipe : ProgramEvent → Prop
  | .readable _ env | .writable _ env | .notify env | .resolved _ env => env.SparesPipe

instance ProgramEvent.decidableSparesPipe : (e : ProgramEvent) → Decidable e.SparesPipe
  | .readable _ env | .writable _ env | .notify env | .resolved _ env =>
    inferInstanceAs (Decidable env.SparesPipe)

/-- The call ends no process, and is no retry that loses the descriptor it closed. -/
def Program.Kept (call : Program × ProgramEvent) : Prop :=
  within RetryReuses call.1 call.2 ∧ call.2.SparesPipe

instance (call : Program × ProgramEvent) : Decidable (Program.Kept call) :=
  inferInstanceAs (Decidable (_ ∧ _))

/-- A part of the loop goes on as the machine does. -/
abbrev LoopConforms (p : Program) (calls : Program.Calls) (r : Except Fault Program) : Prop :=
  Conforms programMachine (within RetryReuses) p calls r

namespace Program.Reached

theorem inv (h : p.Reached) : Inv p.server := (ReachableUnder.reachable h).inv

theorem neat (h : p.Reached) : p.server.selector.Neat :=
  ((ReachableUnder.reachable h).holding 0).books

theorem run {events : List ProgramEvent} (h : p.Reached)
    (hrun : Run programMachine (within RetryReuses) p events p') : p'.Reached := by
  obtain ⟨more, hserver⟩ := program_run sparesAdmin_retryReuses h.inv hrun
  obtain ⟨args, s₀, before, hs₀, hbefore⟩ := h
  exact ⟨args, s₀, _, hs₀, hbefore.append hserver⟩

/-- An item in use asks for what the machine offers. -/
theorem enabled_readable (h : p.Reached) (hused : (p.server.selector.fds fd).used = true)
    (hread : (p.server.selector.fds fd).interest.read = true) (env : Env) :
    p.enabled (.readable fd env) = true := by
  simp [Program.enabled, (ReachableUnder.live h).isOpen fd hused, hused, hread]

/-- An item that is not in use asks for nothing. -/
theorem used_of_write (h : p.Reached)
    (hwrite : (p.server.selector.fds fd).interest.write = true) :
    (p.server.selector.fds fd).used = true := by
  by_contra hunused
  rw [h.neat.blank fd (Bool.eq_false_iff.mpr hunused)] at hwrite
  cases hwrite

theorem enabled_writable (h : p.Reached)
    (hwrite : (p.server.selector.fds fd).interest.write = true) (env : Env) :
    p.enabled (.writable fd env) = true := by
  have hused := h.used_of_write hwrite
  simp [Program.enabled, (ReachableUnder.live h).isOpen fd hused, hused, hwrite]

end Program.Reached

section Keys

/-- What a callback of a connection leaves registered at the descriptor it was called for is
registered for the same connection. -/
theorem Inv.sameData (hinv : Inv s) {env : Env} (he : enabled s (.readable fd env) = true)
    (hadmits : ¬ (Event.readable fd env).admits s)
    (hs : Socks5d.step s (.readable fd env) = .ok s')
    (hused : (s'.selector.fds fd).used = true) :
    (s'.selector.fds fd).data = (s.selector.fds fd).data := by
  have hopen : s.kernel.owner fd ≠ none := by
    intro hnone
    simp [enabled, Kernel.isOpen, hnone] at he
  cases hinv.effect he hs with
  | background _ htarget =>
    have hopens := hinv.background_opens (e := .readable fd env) he hadmits hs htarget
    rw [(hopens.held fd hopen).2]
  | reaction d v r s₀ _ htarget _ hentered hlands _ =>
    have hdata : (s.selector.fds fd).data = some d := htarget
    have hbefore : (s.selector.fds fd).used = true := by
      simp only [enabled, Bool.and_eq_true] at he
      exact he.1.1.2
    obtain ⟨-, hreg⟩ := (hinv.step he hs).owned.registered fd hused
    have hreg₀ := (hinv.owned.registered fd hbefore).2
    rw [hdata]
    -- whatever belongs to no connection was registered before, and for none
    have hnone : ∀ o, s'.kernel.owner fd = some o → o.conn = none → False := by
      intro o ho hconn
      have hold : s.kernel.owner fd = some o := by
        rcases hlands.frame.owners fd with heq | ⟨-, hgone | ⟨q, hq⟩⟩
        · rw [← hentered.kernel, ← heq, ho]
        · cases hgone.symm.trans ho
        · rw [hq] at ho
          obtain rfl := Option.some.inj ho
          cases hconn
      generalize s.selector.fds fd = item at hreg₀ hdata
      cases hreg₀ with
      | listener => cases hdata
      | client c i howner =>
        rw [howner] at hold
        obtain rfl := Option.some.inj hold
        cases hconn
      | relay c handler i _ howner _ _ =>
        obtain ⟨c', q, rfl⟩ := howner o hold
        cases hconn
      | admin => cases hdata
    have hrelay := hlands.frame.registrations fd
    generalize s'.selector.fds fd = item at hreg hrelay hused
    cases hreg with
    | listener handler i howner _ => exact (hnone _ howner rfl).elim
    | client c i howner =>
      have hold := hlands.frame.owner_client howner
      rw [hentered.kernel] at hold
      obtain ⟨j, hitem⟩ := hinv.clientItem hold
      rw [← hdata, hitem]
    | relay c handler i hhandler _ _ _ =>
      by_contra hne
      have hcd : c ≠ d := fun heq => hne (congrArg some heq)
      obtain ⟨j, hj⟩ := hrelay c hcd (handler, i)
        (relayOf_eq_some_iff.mpr ⟨hused, rfl, hhandler, rfl, rfl⟩)
      obtain ⟨-, -, -, hold, -⟩ := relayOf_eq_some_iff.mp hj
      rw [hentered.fds, hdata] at hold
      exact hcd (Option.some.inj hold).symm
    | admin i howner => exact (hnone _ howner rfl).elim

/-- The key taken before the read callback is that of the item after it. -/
theorem Program.Reached.key (h : p.Reached) {env : Env} (he : p.enabled (.readable fd env) = true)
    (hs : p.step (.readable fd env) = .ok p')
    (hused : (p'.server.selector.fds fd).used = true) :
    (p'.server.selector.fds fd).data = (p.server.selector.fds fd).data := by
  have hopen : p.server.kernel.owner fd ≠ none := by
    intro hnone
    simp [Program.enabled, Kernel.isOpen, hnone] at he
  have hnext : p'.Reached :=
    h.run (Run.snoc (a := ProgramEvent.readable fd env) .nil he trivial hs)
  cases Program.step_cases h.inv he hs with
  | serves s' he' hadmits hs' hp' =>
    subst hp'
    exact h.inv.sameData he' hadmits hs' hused
  | admits n env' hevent he hadmits hp' =>
    subst hp'
    rw [Program.server_s5adminPassiveAccept]
    have hopens := s5adminPassiveAccept_opens (h.inv.entered_inv env') env'
    have hitem := (hopens.held fd hopen).2
    exact congrArg Item.data hitem
  | administers n ae a hadmin hown he hs hp' =>
    have hreturns := Program.returned_returns h.inv hadmin (adminStep_keeps rfl hs hown) hp'
    by_cases hn : fd = n
    · subst hn
      cases hinterest : a.interest with
      | none =>
        rw [hreturns.blank hinterest] at hused
        cases hused
      | some i =>
        have hadmin' := hreturns.registered
        rw [hinterest] at hadmin'
        obtain ⟨-, -, j, hitem⟩ := hnext.inv.owned.admin_owner hadmin'
        obtain ⟨-, -, j', hitem'⟩ := h.inv.owned.admin_owner hadmin
        rw [hitem, hitem']
    · rw [hreturns.others fd hn]

end Keys

section Passes

variable {threads : List (ConnId × Env)}

theorem follows_threads (p : Program) (threads : List (ConnId × Env)) :
    LoopConforms p (Program.finishCalls threads p) (threads.foldlM Program.finish p) := by
  refine Conforms.foldlM fun events p' thread _ _ => ?_
  -- the end of a thread is an event, unless there is no such thread
  by_cases hmem : thread.1 ∈ p'.server.resolving
  · rw [if_pos hmem]
    exact Conforms.step (m := programMachine) (a := .resolved thread.1 thread.2) (decide_eq_true hmem)
  · unfold Program.finish
    rw [if_neg hmem, if_neg hmem]
    exact .ends p'

/-- A thread registers nothing. -/
theorem fds_resolveHostName {res : List AddrInfo} (h : resolveHostName c res s = .ok s') :
    s'.selector.fds = s.selector.fds := by
  unfold resolveHostName at h
  cases hk : s.conn c with
  | error f => simp [hk] at h
  | ok k =>
    simp only [hk, ok_bind, pure_eq_ok] at h
    obtain rfl := Except.ok.inj h
    split
    · rfl
    · rfl

theorem fds_finish {thread : ConnId × Env} (h : p.finish thread = .ok p') :
    p'.server.selector.fds = p.server.selector.fds := by
  unfold Program.finish at h
  split at h
  · cases hs : Socks5d.step p.server (.resolved thread.1 thread.2) with
    | error f => simp [hs] at h
    | ok s' =>
      simp only [hs, ok_bind, pure_eq_ok] at h
      obtain rfl := Except.ok.inj h
      exact fds_resolveHostName (s := { p.server with
        resolving := p.server.resolving.erase thread.1 }) hs
  · exact Except.ok.inj h ▸ rfl

theorem fds_threads (h : threads.foldlM Program.finish p = .ok p') :
    p'.server.selector.fds = p.server.selector.fds := by
  induction threads generalizing p with
  | nil => exact Except.ok.inj h ▸ rfl
  | cons thread threads ih =>
    rw [List.foldlM_cons] at h
    cases hp : p.finish thread with
    | error f => simp [hp] at h
    | ok p₁ =>
      rw [hp] at h
      exact (ih h).trans (fds_finish hp)

namespace Program.Reached

/-- The read callback of an item, and the key it leaves. -/
theorem readItem (h : p.Reached) (hused : (p.server.selector.fds i).used = true)
    (slaveR : ℕ → Bool) (env : Env) :
    LoopConforms p (p.readCalls slaveR (p.server.selector.fds i) env)
      (p.readItem slaveR (p.server.selector.fds i) env) ∧
    ∀ p', p.readItem slaveR (p.server.selector.fds i) env = .ok p' →
      (p'.server.selector.fds i).used = true →
      (p'.server.selector.fds i).data = (p.server.selector.fds i).data := by
  unfold Program.readItem Program.readCalls
  split
  · rename_i hready
    simp only [Bool.and_eq_true] at hready
    have he := h.enabled_readable hused hready.2 env
    rw [(h.neat.kept.agrees.index i hused).1, Int.toNat_natCast]
    exact ⟨Conforms.step (m := programMachine) (a := .readable i env) he,
      fun p' hp' hused' => h.key he hp' hused'⟩
  · exact ⟨.ends p, fun p' hp' _ => Except.ok.inj hp' ▸ rfl⟩

/-- The write callback at an index whose key is still that of its item. -/
theorem writeItem (h : p.Reached) (slaveW : ℕ → Bool) {key : Item} (hfd : key.fd = i)
    (hdata : (p.server.selector.fds i).used = true → (p.server.selector.fds i).data = key.data)
    (env : Env) : LoopConforms p (p.writeCalls slaveW i env) (p.writeItem slaveW i key env) := by
  unfold Program.writeItem Program.writeCalls
  dsimp only
  split
  · rename_i hready
    simp only [Bool.and_eq_true] at hready
    have hused := h.used_of_write hready.2
    rw [hfd, ← (h.neat.kept.agrees.index i hused).1, ← hdata hused]
    exact Conforms.step (m := programMachine) (a := .writable i env)
      (h.enabled_writable hready.2 env)
  · exact .ends p

/-- The body of the loop makes the calls the machine offers, if any. -/
theorem handleItem (h : p.Reached) (slaveR slaveW : ℕ → Bool) (i : ℕ) (turn : Turn) :
    LoopConforms p (p.itemCalls slaveR slaveW i turn) (p.handleItem slaveR slaveW i turn) := by
  unfold Program.handleItem Program.itemCalls
  refine (follows_threads p turn.before).bind fun _ p₁ _ hrun₁ => ?_
  have h₁ := h.run hrun₁
  dsimp only
  split
  · rename_i hused
    obtain ⟨hread, hkey⟩ := h₁.readItem hused slaveR turn.readEnv
    refine hread.bind fun _ p₂ hp₂ hrun₂ => ?_
    refine (follows_threads p₂ turn.between).bind fun _ p₃ hp₃ hrun₃ => ?_
    have h₃ := (h₁.run hrun₂).run hrun₃
    have hkey₃ : (p₃.server.selector.fds i).used = true →
        (p₃.server.selector.fds i).data = (p₁.server.selector.fds i).data := by
      rw [fds_threads hp₃]
      exact hkey p₂ hp₂
    exact h₃.writeItem slaveW (h₁.neat.kept.agrees.index i hused).1 hkey₃ _
  · exact .ends p₁

theorem handleIteration (h : p.Reached) (slaveR slaveW : ℕ → Bool) (turns : ℕ → Turn) :
    LoopConforms p (p.iterationCalls slaveR slaveW turns)
      (p.handleIteration slaveR slaveW turns) :=
  Conforms.foldlM fun _ _ i hrun _ => (h.run hrun).handleItem slaveR slaveW i (turns i)

end Program.Reached

end Passes

section Notifications

/-- A delivery takes its job from the list and queues none. -/
theorem Inv.jobs_notify (hinv : Inv s) {env : Env} {jobs : List ℕ}
    (hjobs : s.selector.resolutionJobs = fd :: jobs)
    (hs : Socks5d.step s (.notify env) = .ok s') : s'.selector.resolutionJobs = jobs := by
  have he : enabled s (.notify env) = true := by simp [enabled, hjobs]
  obtain ⟨c, howner⟩ := hinv.owned.jobs fd (by rw [hjobs]; exact List.mem_cons_self)
  obtain ⟨i, hitem⟩ := hinv.clientItem howner
  have hinv' := hinv.step he hs
  cases hinv.effect he hs with
  | background _ htarget => simp [Event.target, hjobs, hitem] at htarget
  | reaction d v r s₀ hview _ hreaction hentered hlands hjobs₀ =>
    obtain ⟨t, ht, hown⟩ := hlands.frame.jobs
    have hrest : s₀.selector.resolutionJobs = jobs := by
      rw [hjobs₀, Event.jobs, hjobs]
      rfl
    -- a job that was queued would be one of the connection, which has none outstanding
    have hnil : t = [] := by
      apply List.eq_nil_iff_forall_not_mem.mpr
      intro n hn
      have hmem : n ∈ s'.selector.resolutionJobs := by
        rw [ht]
        exact List.mem_append_left _ hn
      obtain ⟨d', howner'⟩ := hinv'.owned.jobs n hmem
      have hbefore := hlands.frame.owner_client howner'
      obtain rfl : d' = d := by simpa [hbefore] using hown n hn
      obtain ⟨-, k, hk, hclient⟩ := hinv'.owned.client n d' howner'
      cases r with
      | gone history =>
        have hgone : s'.conns d' = none := Released.conns hlands
        cases hgone.symm.trans hk
      | alive w =>
        have hw : s'.view d' = some w := Tracks.view hlands
        obtain ⟨hconn, -, -, -, htokens, -⟩ := view_eq_some_iff.mp hw
        obtain rfl := Option.some.inj (hconn.symm.trans hk)
        have hcount : 0 < s'.selector.resolutionJobs.count w.conn.clientFd.toNat := by
          apply List.count_pos_iff.mpr
          rw [hclient, Int.toNat_natCast]
          exact hmem
        have hzero : w.tokens = 0 := by
          cases hreaction with
          | blocks _ _ _ _ hblocks => exact hblocks.tokens
        rw [Server.tokens, hzero] at htokens
        omega
    rw [ht, hnil, hrest]
    rfl

namespace Program.Reached

/-- Every job that was queued is delivered, and none is lost when the list is emptied. -/
theorem deliver (h : p.Reached) (envs : ℕ → Env) (items : List ℕ)
    (hlength : items.length = p.server.selector.resolutionJobs.length) :
    LoopConforms p (p.deliveryCalls envs items)
      (items.foldlM (fun p i => p.handleBlockNotification (envs i)) p >>=
        fun p => .ok { p with server := { p.server with
          selector := { p.server.selector with resolutionJobs := [] } } }) := by
  induction items generalizing p with
  | nil =>
    have hjobs : p.server.selector.resolutionJobs = [] := List.length_eq_zero_iff.mp hlength.symm
    have hemptied : { p with server := { p.server with
        selector := { p.server.selector with resolutionJobs := [] } } } = p := by
      rw [← hjobs]
    rw [List.foldlM_nil, pure_eq_ok, ok_bind, hemptied]
    exact .ends p
  | cons i items ih =>
    cases hjobs : p.server.selector.resolutionJobs with
    | nil =>
      rw [hjobs] at hlength
      cases hlength
    | cons fd jobs =>
      rw [List.foldlM_cons, bind_assoc]
      have he : p.enabled (.notify (envs i)) = true := by simp [Program.enabled, hjobs]
      have hstep : LoopConforms p [(p, .notify (envs i))] (p.handleBlockNotification (envs i)) :=
        Conforms.step (m := programMachine) (a := .notify (envs i)) he
      refine hstep.bind fun _ p₁ hp₁ hrun => ih (h.run hrun) ?_
      unfold Program.handleBlockNotification at hp₁
      cases hs : Socks5d.handleBlockNotification (envs i) (p.server.enter (envs i)) with
      | error f => simp [hs] at hp₁
      | ok s' =>
        simp only [hs, ok_bind, pure_eq_ok] at hp₁
        obtain rfl := Except.ok.inj hp₁
        have hrest : s'.selector.resolutionJobs = jobs := h.inv.jobs_notify hjobs hs
        rw [hjobs] at hlength
        have hserved : (p.served s').server = s' := rfl
        rw [hserved, hrest]
        simpa using hlength

theorem handleBlockNotifications (h : p.Reached) (envs : ℕ → Env) :
    LoopConforms p (p.notificationCalls envs) (p.handleBlockNotifications envs) :=
  h.deliver envs _ List.length_range

end Program.Reached

end Notifications

section Select

namespace Program.Reached

/-- `pselect` is asked to watch exactly the descriptors whose readiness is an event. -/
theorem watches (h : p.Reached) (fd : ℕ) (env : Env) :
    p.server.selector.masterR fd = p.enabled (.readable fd env) ∧
      p.server.selector.masterW fd = p.enabled (.writable fd env) := by
  have hlive := ReachableUnder.live h
  have hagrees := h.neat.kept.agrees
  constructor
  · apply Bool.eq_iff_iff.mpr
    rw [hagrees.reads]
    constructor
    · rintro ⟨hused, hread⟩
      exact h.enabled_readable hused hread env
    · intro he
      simp only [Program.enabled, Bool.and_eq_true] at he
      exact ⟨he.1.2, he.2⟩
  · apply Bool.eq_iff_iff.mpr
    rw [hagrees.writes]
    constructor
    · rintro ⟨-, hwrite⟩
      exact h.enabled_writable hwrite env
    · intro he
      simp only [Program.enabled, Bool.and_eq_true] at he
      exact ⟨he.1.2, he.2⟩

/-- `pselect` is never given a descriptor that is not open. -/
theorem badDescriptor (h : p.Reached) : p.server.badDescriptor = false := by
  unfold Server.badDescriptor
  apply List.any_eq_false.mpr
  intro fd _
  obtain ⟨hr, hw⟩ := h.watches fd {}
  rw [hr, hw]
  cases hopen : p.server.kernel.isOpen fd with
  | true => simp
  | false => simp [Program.enabled, hopen]

/-- One call of `selector_select` follows the machine. -/
theorem selectorSelect (h : p.Reached) (pass : Pass) :
    LoopConforms p (p.selectCalls pass) ((p.selectorSelect pass).map Prod.snd) := by
  -- the status that is returned with it does not matter here
  have hstatus : ∀ (r : Except Fault Program) (status : SelectorStatus),
      (r >>= fun p => pure (status, p)).map Prod.snd = r := by
    intro r status
    cases r with
    | error f => rfl
    | ok p => rfl
  unfold Program.selectorSelect Program.selectCalls
  rw [map_bind]
  refine (follows_threads p pass.before).bind fun _ p₁ _ hrun₁ => ?_
  have h₁ := h.run hrun₁
  rw [h₁.badDescriptor, if_neg (by decide), if_neg (by decide)]
  cases pass.poll with
  | failed => exact .ends p₁
  | interrupted =>
    dsimp only
    rw [hstatus]
    exact h₁.handleBlockNotifications pass.envs
  | ready readable writable =>
    dsimp only
    rw [map_bind]
    refine (h₁.handleIteration _ _ pass.turns).bind fun _ p₂ _ hrun₂ => ?_
    rw [hstatus]
    exact (h₁.run hrun₂).handleBlockNotifications pass.envs

/-- It fails only if `pselect` does: no descriptor in its sets is closed. -/
theorem status (h : p.Reached) {pass : Pass} {r : SelectorStatus × Program}
    (hkept : ∀ call ∈ p.selectCalls pass, within RetryReuses call.1 call.2)
    (hr : p.selectorSelect pass = .ok r) : r.1 = .success ∨ pass.poll = .failed := by
  unfold Program.selectorSelect at hr
  obtain ⟨p₁, hp₁, hr⟩ := bind_eq_ok.mp hr
  have h₁ : p₁.Reached := h.run (((follows_threads p pass.before).run fun call hcall =>
    hkept call (List.mem_append_left _ hcall)).result hp₁)
  rw [h₁.badDescriptor, if_neg (by decide)] at hr
  cases hpoll : pass.poll with
  | failed => exact .inr rfl
  | interrupted =>
    rw [hpoll] at hr
    obtain ⟨p₂, -, hr⟩ := bind_eq_ok.mp hr
    exact .inl (Except.ok.inj hr ▸ rfl)
  | ready readable writable =>
    rw [hpoll] at hr
    obtain ⟨p₂, -, hr⟩ := bind_eq_ok.mp hr
    obtain ⟨p₃, -, hr⟩ := bind_eq_ok.mp hr
    exact .inl (Except.ok.inj hr ▸ rfl)

/-- The loop of `main` follows the machine. -/
theorem mainLoop (h : p.Reached) (passes : List Pass) :
    LoopConforms p (p.loopCalls passes) ((Program.mainLoop passes p).map Prod.snd) := by
  induction passes generalizing p with
  | nil => exact .ends p
  | cons pass passes ih =>
    have hselect := h.selectorSelect pass
    unfold Program.mainLoop Program.loopCalls
    cases hr : p.selectorSelect pass with
    | error f =>
      rw [hr] at hselect
      simpa using hselect
    | ok r =>
      obtain ⟨status, p₁⟩ := r
      rw [hr] at hselect
      by_cases hsuccess : status = .success
      · simp only [if_pos hsuccess, ok_bind]
        exact hselect.bind (f := fun p => (Program.mainLoop passes p).map Prod.snd)
          (g := fun p => p.loopCalls passes) fun _ p₂ _ hrun => ih (h.run hrun)
      · simpa [hsuccess] using hselect

/-- The loop ends early only if `pselect` failed. -/
theorem mainLoop_status (h : p.Reached) (passes : List Pass)
    (hkept : ∀ call ∈ p.loopCalls passes, within RetryReuses call.1 call.2)
    {r : SelectorStatus × Program} (hr : Program.mainLoop passes p = .ok r) :
    r.1 = .success ∨ ∃ pass ∈ passes, pass.poll = .failed := by
  induction passes generalizing p with
  | nil => exact .inl (Except.ok.inj hr ▸ rfl)
  | cons pass passes ih =>
    unfold Program.mainLoop at hr
    unfold Program.loopCalls at hkept
    obtain ⟨⟨status, p₁⟩, hselect, hr⟩ := bind_eq_ok.mp hr
    have hfirst : ∀ call ∈ p.selectCalls pass, within RetryReuses call.1 call.2 :=
      fun call hcall => hkept call (List.mem_append_left _ hcall)
    by_cases hsuccess : status = .success
    · have h₁ : p₁.Reached := by
        have hrun := (h.selectorSelect pass).run hfirst
        rw [hselect] at hrun
        exact h.run hrun
      simp only [hselect, if_pos hsuccess] at hkept hr
      refine (ih h₁ (fun call hcall => hkept call (List.mem_append_right _ hcall)) hr).imp_right ?_
      rintro ⟨failing, hmem, hpoll⟩
      exact ⟨failing, List.mem_cons_of_mem _ hmem, hpoll⟩
    · exact .inr ⟨pass, List.mem_cons_self, (h.status hfirst hselect).resolve_left hsuccess⟩

end Program.Reached

variable {args : Args} {logLevel : LogLevel} {beyond : List UInt8} {entries : ℕ → AccessEntry}
  {isoDate : ℕ → CString} {p₀ : Program} {events : List ProgramEvent}

/-- In every run without a lost retry, what `selector_select` hands to `pselect` is right: no
descriptor in its sets is closed, each stands for an event the machine offers and the other way
round, and none is beyond the cached maximum. -/
theorem select_watches (hp₀ : startProgram args logLevel beyond entries isoDate = some p₀)
    (hrun : Run programMachine (within RetryReuses) p₀ events p) :
    p.server.badDescriptor = false ∧ ∀ fd env,
      p.server.selector.masterR fd = p.enabled (.readable fd env) ∧
        p.server.selector.masterW fd = p.enabled (.writable fd env) ∧
        ((p.server.selector.masterR fd || p.server.selector.masterW fd) = true →
          fd ≤ p.server.selector.maxFd) := by
  have hreached : p.Reached :=
    Program.Reached.run ⟨args, _, [], (startProgram_composed hp₀).1, .nil⟩ hrun
  refine ⟨hreached.badDescriptor, fun fd env => ?_⟩
  obtain ⟨hr, hw⟩ := hreached.watches fd env
  refine ⟨hr, hw, fun hset => hreached.neat.kept.maxCached.le ?_⟩
  rw [hr, hw] at hset
  simp only [Program.enabled, Bool.or_eq_true, Bool.and_eq_true] at hset
  rcases hset with hset | hset
  · exact hset.1.2
  · exact hset.1.2

/-- A client and an administration client are connected. -/
theorem select_watches_two : ∃ p : Program, p.server.selector.masterR 2 = true ∧
    p.enabled (.readable 2 {}) = true ∧ p.server.badDescriptor = false := by
  have hrun : ((startProgram bareArgs .info [] (fun _ => ⟨[], [], 0, [], 0, [], 0, 0⟩)
      fun _ => []).bind fun p =>
      (exec programMachine (within RetryReuses) p [.readable 0 { peer := some ([], 0) },
        .readable 1 { peer := some ([], 0) }]).map fun p => p.server.selector.masterR 2) =
      some true := by decide +kernel
  obtain ⟨p₀, hp₀, hrun⟩ := Option.bind_eq_some_iff.mp hrun
  obtain ⟨p, hp, hset⟩ := Option.map_eq_some_iff.mp hrun
  obtain ⟨hbad, hwatches⟩ := select_watches hp₀ (run_of_exec hp)
  exact ⟨p, hset, (hwatches 2 {}).1 ▸ hset, hbad⟩

/-- The loop of `main` does nothing that the program's machine does not offer. A call with only
kept ones before it is an event the machine offers where these lead to; and when all are kept, what
the loop has done is a run on its calls, its fault is the machine's answer to the last of them, and
it has ended early only because `pselect` failed: never because a descriptor it was given was
closed. -/
theorem mainLoop_follows (hp₀ : startProgram args logLevel beyond entries isoDate = some p₀)
    (passes : List Pass) :
    (∀ before call after, p₀.loopCalls passes = before ++ call :: after →
      (∀ earlier ∈ before, Program.Kept earlier) →
      Run programMachine (within RetryReuses) p₀ (before.map Prod.snd) call.1 ∧
        call.1.enabled call.2 = true) ∧
    ((∀ call ∈ p₀.loopCalls passes, Program.Kept call) →
      Holds (fun f => ∃ before p e, p₀.loopCalls passes = before ++ [(p, e)] ∧
          Run programMachine (within RetryReuses) p₀ (before.map Prod.snd) p ∧
          p.enabled e = true ∧ p.step e = .error f)
        (Program.mainLoop passes p₀)
        fun r => Run programMachine (within RetryReuses) p₀
            ((p₀.loopCalls passes).map Prod.snd) r.2 ∧
          (r.1 = .success ∨ ∃ pass ∈ passes, pass.poll = .failed)) := by
  have hreached : p₀.Reached :=
    ⟨args, _, [], (startProgram_composed hp₀).1, .nil⟩
  have hfollows := hreached.mainLoop passes
  refine ⟨fun before call after hcalls hkept => hfollows.before hcalls fun x hx => (hkept x hx).1,
    fun hkept => ?_⟩
  have hrun := hfollows.run fun call hcall => (hkept call hcall).1
  cases hloop : Program.mainLoop passes p₀ with
  | error f =>
    rw [hloop] at hrun
    exact hrun
  | ok r =>
    rw [hloop] at hrun
    exact ⟨hrun, hreached.mainLoop_status passes (fun call hcall => (hkept call hcall).1) hloop⟩

/-- Two passes: a client connects, and its greeting arrives while another connects. -/
def twoPasses : List Pass :=
  [{ poll := .ready (fun fd => fd == 0) (fun _ => false)
     turns := fun _ => { readEnv := { peer := some ([], 0) } } },
    { poll := .ready (fun fd => fd == 0 || fd == 2) (fun _ => false)
      turns := fun _ => { readEnv := { peer := some ([], 0), recv := .data 5 [1, 0] } } }]

theorem mainLoop_follows_two : ∃ (p₀ : Program) (r : SelectorStatus × Program),
    Program.mainLoop twoPasses p₀ = .ok r ∧ r.2.server.nextConn = 2 ∧
      (p₀.loopCalls twoPasses).length = 3 ∧
      Run programMachine (within RetryReuses) p₀ ((p₀.loopCalls twoPasses).map Prod.snd) r.2 := by
  have hrun : ((startProgram bareArgs .info [] (fun _ => ⟨[], [], 0, [], 0, [], 0, 0⟩)
      fun _ => []).bind fun p => (Program.mainLoop twoPasses p).toOption.map fun r =>
        (r.2.server.nextConn, (p.loopCalls twoPasses).length,
          (p.loopCalls twoPasses).all fun call => decide (Program.Kept call))) =
      some (2, 3, true) := by decide +kernel
  obtain ⟨p₀, hp₀, hrun⟩ := Option.bind_eq_some_iff.mp hrun
  obtain ⟨r, hr, hcheck⟩ := Option.map_eq_some_iff.mp hrun
  simp only [Prod.mk.injEq, List.all_eq_true, decide_eq_true_eq] at hcheck
  obtain ⟨hnext, hlength, hkept⟩ := hcheck
  have hok : Program.mainLoop twoPasses p₀ = .ok r := by
    cases hloop : Program.mainLoop twoPasses p₀ with
    | error f => simp [hloop, Except.toOption] at hr
    | ok r' => exact congrArg Except.ok (by simpa [hloop, Except.toOption] using hr)
  exact ⟨p₀, r, hok, hnext, hlength, (((mainLoop_follows hp₀ twoPasses).2 hkept).result hok).1⟩

end Select

end Socks5d
