import Socks5d.Accept
import Socks5d.Lib.GuardedRun

/-!
# The server as a machine

`handle_iteration` calls the handlers of ready descriptors that their interest asks for, and
`handle_block_notifications` delivers the queued jobs. An event is one such call, the end of a
resolver thread, or a change made by the administration code. Any order of enabled events is a
run, which includes the orders a pass over the descriptor table produces.
-/

namespace Socks5d

open GuardedRun

inductive Event
  | readable (fd : ℕ) (env : Env)
  | writable (fd : ℕ) (env : Env)
  /-- Deliver the job at the head of the list. -/
  | notify (env : Env)
  /-- A resolver thread finishes. -/
  | resolved (c : ConnId) (env : Env)
  | adminInterest (fd : ℕ) (interest : FdInterest)
  | adminClose (fd : ℕ)
  | configure (users : UserTable) (bufferSize maxConn : ℕ)

/-- `handle_read` of an item. -/
def handleRead (item : Item) (env : Env) (s : Server) : Except Fault Server :=
  match item.handler, item.data with
  | some .socksv5, _ => socksv5PassiveAccept env s
  | some .confProtocol, _ => return s5adminPassiveAccept env s
  | some .socks5Handler, some c => socksv5Read ⟨item.fd, c⟩ env s
  | some .copySelectorHandler, some c => copyReadHandler ⟨item.fd, c⟩ env s
  | some .connectingHandler, some _ => .error .assertion
  | some .adminHandler, _ => return s
  | _, _ => .error .nullDeref

/-- `handle_write` of an item; the passive handlers have none. -/
def handleWrite (item : Item) (env : Env) (s : Server) : Except Fault Server :=
  match item.handler, item.data with
  | some .socksv5, _ => .error .assertion
  | some .confProtocol, _ => .error .assertion
  | some .socks5Handler, some c => socksv5Write ⟨item.fd, c⟩ env.send s
  | some .copySelectorHandler, some c => copyWriteHandler ⟨item.fd, c⟩ env.send s
  | some .connectingHandler, some c => handleWriteConnecting ⟨item.fd, c⟩ env s
  | some .adminHandler, _ => return s
  | _, _ => .error .nullDeref

/-- `handle_block` of an item; only the client handler has one. -/
def handleBlock (item : Item) (env : Env) (s : Server) : Except Fault Server :=
  match item.handler, item.data with
  | some .socks5Handler, some c => socksv5Block ⟨item.fd, c⟩ env s
  | _, _ => .error .nullDeref

/-- One iteration of `handle_block_notifications`. -/
def handleBlockNotification (env : Env) (s : Server) : Except Fault Server :=
  match s.selector.resolutionJobs with
  | [] => .ok s
  | fd :: rest =>
    let s := { s with selector := { s.selector with resolutionJobs := rest } }
    if (s.selector.fds fd).used then handleBlock (s.selector.fds fd) env s else .ok s

/-- The program's answer to an event. A `send` that fails with `EPIPE` has raised `SIGPIPE` besides,
which ends the process: the answer is then the one it would have given. -/
def step (s : Server) : Event → Except Fault Server
  | .readable fd env => handleRead (s.selector.fds fd) env (s.enter env)
  | .writable fd env => handleWrite (s.selector.fds fd) env (s.enter env)
  | .notify env => handleBlockNotification env (s.enter env)
  | .resolved c env =>
    resolveHostName c env.resolved { s with resolving := s.resolving.erase c }
  | .adminInterest fd interest => .ok (s.setInterest fd interest)
  | .adminClose fd => selectorUnregisterFd s fd
  | .configure users bufferSize maxConn =>
    .ok { s with users := users, bufferSize := bufferSize, maxConn := maxConn }

def isAdmin (item : Item) : Bool := item.used && decide (item.handler = some .adminHandler)

/-- An event can occur: its descriptor is open, registered and of interest, its job or thread
exists, and `set_buffer_size` accepts the size. -/
def enabled (s : Server) : Event → Bool
  | .readable fd _ =>
    s.kernel.isOpen fd && (s.selector.fds fd).used && (s.selector.fds fd).interest.read &&
      !isAdmin (s.selector.fds fd)
  | .writable fd _ =>
    s.kernel.isOpen fd && (s.selector.fds fd).used && (s.selector.fds fd).interest.write &&
      !isAdmin (s.selector.fds fd)
  | .notify _ => !s.selector.resolutionJobs.isEmpty
  | .resolved c _ => decide (c ∈ s.resolving)
  | .adminInterest fd _ => isAdmin (s.selector.fds fd)
  | .adminClose fd => isAdmin (s.selector.fds fd)
  | .configure _ bufferSize _ => decide (BUFF_MIN_LEN ≤ bufferSize)

/-- The server as a machine whose callbacks may fault. -/
def machine : Machine Fault Server Event := ⟨enabled, step⟩

/-- The states a guarded run of a started server ends in. -/
def ReachableUnder (guard : Server → Event → Prop) (s : Server) : Prop :=
  ∃ args s₀ events, startServer args = some s₀ ∧ Run machine guard s₀ events s

/-- The states a run of a started server ends in. -/
def Reachable (s : Server) : Prop := ReachableUnder unguarded s

variable {s : Server}

/-- A run under a guard is one under every weaker guard. -/
theorem ReachableUnder.mono {guard weaker : Server → Event → Prop} (h : ReachableUnder guard s)
    (hmono : ∀ s e, guard s e → weaker s e) : ReachableUnder weaker s := by
  obtain ⟨args, s₀, events, hs₀, hrun⟩ := h
  exact ⟨args, s₀, events, hs₀, hrun.mono hmono⟩

/-- A run under a guard reaches reachable states. -/
theorem ReachableUnder.reachable {guard : Server → Event → Prop} (h : ReachableUnder guard s) :
    Reachable s :=
  h.mono fun _ _ _ => trivial

/-- A guarded step leads on to a state that guarded runs reach. -/
theorem ReachableUnder.snoc {guard : Server → Event → Prop} {e : Event} {s' : Server}
    (h : ReachableUnder guard s) (he : enabled s e = true) (hg : guard s e)
    (hstep : step s e = .ok s') : ReachableUnder guard s' := by
  obtain ⟨args, s₀, events, hs₀, hrun⟩ := h
  exact ⟨args, s₀, _, hs₀, hrun.snoc he hg hstep⟩

/-- What holds when the loop starts and survives every guarded step from a reachable state
holds in every state a guarded run reaches. -/
theorem ReachableUnder.invariant {guard : Server → Event → Prop} {I : Server → Prop}
    (h : ReachableUnder guard s) (hinit : ∀ args s₀, startServer args = some s₀ → I s₀)
    (hkeep : ∀ s e s', ReachableUnder guard s → I s → enabled s e = true → guard s e →
      step s e = .ok s' → I s') : I s := by
  obtain ⟨args, s₀, events, hs₀, hrun⟩ := h
  have hboth : ReachableUnder guard s ∧ I s := by
    refine hrun.invariant (I := fun s => ReachableUnder guard s ∧ I s)
      ⟨⟨args, s₀, [], hs₀, .nil⟩, hinit args s₀ hs₀⟩ ?_
    rintro s e s' ⟨hreach, hI⟩ he hg hstep
    exact ⟨hreach.snoc he hg hstep, hkeep s e s' hreach hI he hg hstep⟩
  exact hboth.2

/-- A process that inherits no descriptor and uses the smallest buffers. -/
def bareArgs : Args where
  kernel := { owner := fun _ => none, bound := 0, closed_above := fun _ _ => rfl }
  bufferSize := BUFF_MIN_LEN
  inherited := by simp
  bufferSize_ge := Nat.le_refl _

/-- The state these events lead the bare server to, when all of them meet the guard. -/
def afterUnder (guard : Server → Event → Prop) [∀ s a, Decidable (guard s a)]
    (events : List Event) : Option Server :=
  (startServer bareArgs).bind fun s => exec machine guard s events

/-- The state these events lead the bare server to. -/
def after (events : List Event) : Option Server := afterUnder unguarded events

/-- Guarded events that were executed lead to a state a guarded run reaches. -/
theorem reachableUnder_of_eq {guard : Server → Event → Prop} [∀ s a, Decidable (guard s a)]
    {events : List Event} {s : Server} (h : afterUnder guard events = some s) :
    ReachableUnder guard s := by
  obtain ⟨s₀, hs₀, hexec⟩ := Option.bind_eq_some_iff.mp h
  exact ⟨bareArgs, s₀, events, hs₀, run_of_exec hexec⟩

/-- A check that holds after some guarded events holds in a state a guarded run reaches. -/
theorem reachableUnder_of_after (guard : Server → Event → Prop) [∀ s a, Decidable (guard s a)]
    (events : List Event) (check : Server → Bool)
    (h : (afterUnder guard events).map check = some true) :
    ∃ s, ReachableUnder guard s ∧ check s = true := by
  obtain ⟨s, hs, hcheck⟩ := Option.map_eq_some_iff.mp h
  exact ⟨s, reachableUnder_of_eq hs, hcheck⟩

/-- A check that holds after some events holds in a reachable state. -/
theorem reachable_of_after (events : List Event) (check : Server → Bool)
    (h : (after events).map check = some true) : ∃ s, Reachable s ∧ check s = true :=
  reachableUnder_of_after unguarded events check h

/-- Events, one event more and events under a guard that were executed are a reachable state, a
step and a guarded run. -/
theorem staged (events : List Event) (e : Event) (guard : Server → Event → Prop)
    [∀ s a, Decidable (guard s a)] (more : List Event) (check : Server → Server → Server → Bool)
    (h : ((after events).bind fun s => (exec machine unguarded s [e]).bind fun s₁ =>
      (exec machine guard s₁ more).map (check s s₁)) = some true) :
    ∃ s s₁ s₂, Reachable s ∧ enabled s e = true ∧ step s e = .ok s₁ ∧
      Run machine guard s₁ more s₂ ∧ check s s₁ s₂ = true := by
  obtain ⟨s, hs, h⟩ := Option.bind_eq_some_iff.mp h
  obtain ⟨s₁, hs₁, h⟩ := Option.bind_eq_some_iff.mp h
  obtain ⟨s₂, hs₂, hcheck⟩ := Option.map_eq_some_iff.mp h
  have hstep : enabled s e = true ∧ step s e = .ok s₁ := by
    rw [exec] at hs₁
    split at hs₁
    · rename_i hok
      refine ⟨hok.1, ?_⟩
      cases hr : machine.step s e with
      | error f => simp [hr] at hs₁
      | ok s' =>
        obtain rfl : s' = s₁ := by simpa [hr, exec] using hs₁
        exact hr
    · cases hs₁
  exact ⟨s, s₁, s₂, reachableUnder_of_eq hs, hstep.1, hstep.2, run_of_exec hs₂, hcheck⟩

/-- A client is accepted by the first listener. -/
def arrives : Event := .readable 0 { peer := some ([], 0) }

/-- A client offers no authentication and its reply is sent at once. -/
def greets (fd : ℕ) : Event := .readable fd { recv := .data 5 [1, 0], sends := [.accepted 1] }

/-- An address for which nothing else is known. -/
def loopback : AddrInfo := ⟨.inet, [127, 0, 0, 1], 80⟩

/-- A client asks for an address that is looked up at once. -/
def asks (fd : ℕ) (resolved : List AddrInfo) : Event :=
  .readable fd { recv := .data 5 [1, 0, 1, 127, 0, 0, 1, 0, 80], resolved := resolved }

end Socks5d
