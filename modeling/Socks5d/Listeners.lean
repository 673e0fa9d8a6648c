import Socks5d.Isolation

/-!
# Listeners

An event that belongs to no connection opens and closes descriptors of its own and leaves alone
what listeners and connections hold. With what is known of the callbacks of connections, every
listener stays registered as `main` registered it, as long as no connection that never dialled
asks for the writability of its origin.
-/

namespace Socks5d

open GuardedRun Fallible

variable {s s' : Server} {c : ConnId} {e : Event}

/-- The invariant does not depend on what earlier code left behind. -/
theorem Inv.entered_inv (hinv : Inv s) (env : Env) : Inv (s.enter env) :=
  ⟨hinv.owned.enter env, hinv.bufferSize, hinv.ok, hinv.copies⟩

/-- What listeners and connections hold is left alone, what is opened is for the administration
or for the next connection, and what the administration opens it registers. -/
structure KeepsHeld (s s' : Server) : Prop where
  held : ∀ fd o, s.kernel.owner fd = some o → o ≠ .other →
    s'.kernel.owner fd = some o ∧ s'.selector.fds fd = s.selector.fds fd
  opened : ∀ fd o, s'.kernel.owner fd = some o →
    s.kernel.owner fd = some o ∨ o = .other ∨ o = .client s.nextConn
  others : ∀ fd, s'.kernel.owner fd = some .other →
    s.kernel.owner fd = some .other ∧ s'.selector.fds fd = s.selector.fds fd ∨
      isAdmin (s'.selector.fds fd) = true

theorem KeepsHeld.of_eq (howner : s'.kernel.owner = s.kernel.owner)
    (hfds : ∀ fd, s.kernel.owner fd ≠ none → s'.selector.fds fd = s.selector.fds fd) :
    KeepsHeld s s' where
  held fd o ho _ := ⟨by rw [howner, ho], hfds fd (by rw [ho]; simp)⟩
  opened fd o ho := .inl (by rw [← howner, ho])
  others fd ho := by
    rw [howner] at ho
    exact .inl ⟨ho, hfds fd (by rw [ho]; simp)⟩

/-- What an accept opens is for this owner, and the rest of what is open is left alone. -/
structure Opens (o : FdOwner) (s s' : Server) : Prop where
  held : ∀ fd, s.kernel.owner fd ≠ none →
    s'.kernel.owner fd = s.kernel.owner fd ∧ s'.selector.fds fd = s.selector.fds fd
  opened : ∀ fd o', s'.kernel.owner fd = some o' →
    s.kernel.owner fd = some o' ∨ o' = o ∧ (o = .other → isAdmin (s'.selector.fds fd) = true)

theorem Opens.of_eq {o : FdOwner} (howner : s'.kernel.owner = s.kernel.owner)
    (hfds : ∀ fd, s.kernel.owner fd ≠ none → s'.selector.fds fd = s.selector.fds fd) :
    Opens o s s' where
  held fd hfd := ⟨by rw [howner], hfds fd hfd⟩
  opened fd o' ho := .inl (by rw [← howner, ho])

/-- Opening and registering the lowest free descriptor. -/
theorem Opens.of_open {o : FdOwner} {item : Item} (hitem : o = .other → isAdmin item = true)
    (howner : s'.kernel.owner = (s.kernel.openFd s.kernel.lowest o).owner)
    (hfds : s'.selector.fds = Function.update s.selector.fds s.kernel.lowest item) :
    Opens o s s' where
  held fd hfd := by
    have hne : fd ≠ s.kernel.lowest := by
      rintro rfl
      exact hfd s.kernel.owner_lowest
    rw [howner, hfds, Kernel.owner_openFd_of_ne _ _ hne, Function.update_of_ne hne]
    exact ⟨rfl, rfl⟩
  opened fd o' ho' := by
    rw [howner, Kernel.owner_openFd] at ho'
    split at ho'
    · rename_i hfd
      rw [hfds, hfd, Function.update_self]
      exact .inr ⟨(Option.some.inj ho').symm, hitem⟩
    · exact .inl ho'

theorem Opens.keepsHeld {o : FdOwner} (h : Opens o s s')
    (ho : o = .other ∨ o = .client s.nextConn) : KeepsHeld s s' where
  held fd o' ho' _ := by
    obtain ⟨howner, hitem⟩ := h.held fd (by rw [ho']; simp)
    exact ⟨howner.trans ho', hitem⟩
  opened fd o' ho' := by
    rcases h.opened fd o' ho' with hold | ⟨rfl, -⟩
    · exact .inl hold
    · exact .inr ho
  others fd ho' := by
    rcases h.opened fd _ ho' with hold | ⟨rfl, hadmin⟩
    · exact .inl ⟨hold, (h.held fd (by rw [hold]; simp)).2⟩
    · exact .inr (hadmin rfl)

/-- An accept that fails or has to give up leaves the kernel and the used entries as they were. -/
theorem socksv5PassiveAccept_opens (hinv : Inv s) (env : Env)
    (hs : Socks5d.socksv5PassiveAccept env s = .ok s') : Opens (.client s.nextConn) s s' := by
  have hlowest : ∀ {fd}, s.kernel.owner fd ≠ none → fd ≠ s.kernel.lowest := by
    rintro fd hfd rfl
    exact hfd s.kernel.owner_lowest
  unfold Socks5d.socksv5PassiveAccept at hs
  split at hs
  · split at hs
    · obtain rfl := Except.ok.inj hs
      exact .of_eq rfl fun _ _ => rfl
    · obtain rfl := Except.ok.inj hs
      exact .of_eq (owner_openFd_close s.kernel _) fun _ _ => rfl
  split at hs
  · obtain rfl := Except.ok.inj hs
    exact .of_eq rfl fun _ _ => rfl
  dsimp only at hs
  rcases passiveAccept_cases (s := { s.setConn s.nextConn callocConn with
      nextConn := s.nextConn + 1 }) .socks5Handler (.client s.nextConn) (some s.nextConn) env
      hinv.owned.fdSize with ⟨-, heq⟩ | ⟨sel, -, hlt, hfree, hfds, -, -, heq⟩ | ⟨-, heq⟩
  · rw [heq] at hs
    obtain rfl := Except.ok.inj hs
    exact .of_eq rfl fun _ _ => rfl
  · rw [heq] at hs
    have hlt' : s.kernel.lowest < ITEMS_MAX_SIZE := hlt
    have hfds' : sel.fds = Function.update s.selector.fds s.kernel.lowest
        ⟨s.kernel.lowest, OP_READ, some .socks5Handler, some s.nextConn⟩ := hfds
    have hlookup : (Function.update s.conns s.nextConn (some callocConn)) s.nextConn =
        some callocConn := Function.update_self _ _ _
    simp only [Server.setConn, Server.conn, hlookup, ok_bind] at hs
    -- an accept that lacks memory closes the descriptor it has just registered
    have hundone : ∀ (t : Server) (k : Socks5Conn), t.selector = sel →
        t.kernel = s.kernel.openFd s.kernel.lowest (.client s.nextConn) →
        t.conns s.nextConn = some k → k.clientFd = s.kernel.lowest → k.originFd = 0 →
        k.stm = false → selectorUnregisterFd t s.kernel.lowest = .ok s' →
        Opens (.client s.nextConn) s s' := by
      rintro t k rfl hkernel hconn hclient horigin hstm hs
      rw [selectorUnregisterFd_unfinished hlt' hinv.owned.lowest_pos
        (by rw [hfds']; exact Function.update_self _ _ _) hconn hclient horigin hstm] at hs
      obtain rfl := Except.ok.inj hs
      refine .of_eq ?_ fun fd hfd => ?_
      · simp only [hkernel]
        exact owner_openFd_close s.kernel _
      · simp only [fds_removeItem, hfds']
        rw [Function.update_of_ne (hlowest hfd)]
        exact Function.update_of_ne (hlowest hfd) _ _
    split at hs
    · exact hundone _ _ rfl rfl (Function.update_self _ _ _) rfl rfl rfl hs
    split at hs
    · exact hundone _ _ rfl rfl (Function.update_self _ _ _) rfl rfl rfl hs
    split at hs
    · exact hundone _ _ rfl rfl (Function.update_self _ _ _) rfl rfl rfl hs
    · obtain rfl := Except.ok.inj hs
      exact .of_open (by simp) rfl hfds'
  · rw [heq] at hs
    obtain rfl := Except.ok.inj hs
    exact .of_eq (owner_openFd_close s.kernel _) fun _ _ => rfl

theorem s5adminPassiveAccept_opens (hinv : Inv s) (env : Env) :
    Opens .other s (Socks5d.s5adminPassiveAccept env s) := by
  unfold Socks5d.s5adminPassiveAccept
  split
  · exact .of_eq rfl fun _ _ => rfl
  · rcases passiveAccept_cases (s := s) .adminHandler .other none env hinv.owned.fdSize with
      ⟨-, heq⟩ | ⟨sel, -, -, -, hfds, -, -, heq⟩ | ⟨-, heq⟩
    · rw [heq]
      exact .of_eq rfl fun _ _ => rfl
    · rw [heq]
      exact .of_open (fun _ => by simp [isAdmin, Item.used, FD_UNUSED]) rfl hfds
    · rw [heq]
      exact .of_eq (owner_openFd_close s.kernel _) fun _ _ => rfl

/-- Unregistering a descriptor in use runs its close callback and takes its item away. -/
theorem selectorUnregisterFd_used {fd : ℕ} (hlt : fd < ITEMS_MAX_SIZE)
    (hused : (s.selector.fds fd).used = true) : selectorUnregisterFd s fd = (do
      let s ← handleClose (s.selector.fds fd) s
      return { s with selector := removeItem s.selector fd }) := by
  have hvalid : invalidFd (fd : ℤ) = false := by
    simp only [invalidFd, Bool.or_eq_false_iff, decide_eq_false_iff_not]
    omega
  unfold selectorUnregisterFd
  rw [if_neg (by simp [hvalid, hused])]
  rfl

/-- The end of an administration connection. -/
theorem selectorUnregisterFd_admin {fd : ℕ} {i : FdInterest} (hlt : fd < ITEMS_MAX_SIZE)
    (hitem : s.selector.fds fd = ⟨fd, i, some .adminHandler, none⟩) :
    selectorUnregisterFd s fd =
      .ok { s with kernel := s.kernel.close fd, selector := removeItem s.selector fd } := by
  have hused : (s.selector.fds fd).used = true := by simp [hitem, Item.used, FD_UNUSED]
  rw [selectorUnregisterFd_used hlt hused, hitem]
  rfl

/-- The administration changes and closes descriptors of its own. -/
theorem adminClose_keepsHeld (hinv : Inv s) {fd : ℕ} (hadmin : isAdmin (s.selector.fds fd) = true)
    (hs : selectorUnregisterFd s fd = .ok s') : KeepsHeld s s' := by
  obtain ⟨hlt, howner, i, hitem⟩ := hinv.owned.admin_owner hadmin
  rw [selectorUnregisterFd_admin hlt hitem] at hs
  obtain rfl := Except.ok.inj hs
  have hne : ∀ n o, s.kernel.owner n = some o → o ≠ .other → n ≠ fd := by
    rintro n o ho hother rfl
    rw [howner] at ho
    exact hother (Option.some.inj ho).symm
  constructor
  · intro n o ho hother
    have hn := hne n o ho hother
    have hn' : (n : ℤ) ≠ fd := by omega
    refine ⟨?_, ?_⟩
    · simp [Kernel.owner_close, hn', ho]
    · simp [fds_removeItem, hn]
  · intro n o ho
    simp only [Kernel.owner_close] at ho
    split at ho
    · cases ho
    · exact .inl ho
  · intro n ho
    simp only [Kernel.owner_close] at ho
    split at ho
    · cases ho
    · rename_i hn
      have hn' : n ≠ fd := by omega
      exact .inl ⟨ho, by simp [fds_removeItem, hn']⟩

/-- An event for no connection keeps what the connections and the listeners hold. -/
theorem Inv.background_keepsHeld (hinv : Inv s) (he : enabled s e = true)
    (hs : Socks5d.step s e = .ok s') (htarget : e.target s = none) : KeepsHeld s s' := by
  cases e with
  | readable fd env =>
    simp only [enabled, Bool.and_eq_true, Bool.not_eq_true'] at he
    obtain ⟨⟨⟨-, hused⟩, -⟩, hadmin⟩ := he
    obtain ⟨-, hreg⟩ := hinv.owned.registered fd hused
    simp only [Socks5d.step] at hs
    simp only [Event.target] at htarget
    generalize s.selector.fds fd = item at hreg hadmin hused hs htarget
    cases hreg with
    | listener handler i howner hpassive =>
      rcases hpassive with rfl | rfl
      · have hkeeps :=
          (socksv5PassiveAccept_opens (hinv.entered_inv env) env hs).keepsHeld (.inr rfl)
        exact ⟨hkeeps.held, hkeeps.opened, hkeeps.others⟩
      · obtain rfl := Except.ok.inj hs
        have hkeeps := (s5adminPassiveAccept_opens (hinv.entered_inv env) env).keepsHeld (.inl rfl)
        exact ⟨hkeeps.held, hkeeps.opened, hkeeps.others⟩
    | client => cases htarget
    | relay => cases htarget
    | admin i howner => simp [isAdmin, hused] at hadmin
  | writable fd env =>
    simp only [enabled, Bool.and_eq_true, Bool.not_eq_true'] at he
    obtain ⟨⟨⟨-, hused⟩, -⟩, hadmin⟩ := he
    obtain ⟨-, hreg⟩ := hinv.owned.registered fd hused
    simp only [Socks5d.step] at hs
    simp only [Event.target] at htarget
    generalize s.selector.fds fd = item at hreg hadmin hused hs htarget
    cases hreg with
    | listener handler i howner hpassive =>
      rcases hpassive with rfl | rfl
      · cases hs
      · cases hs
    | client => cases htarget
    | relay => cases htarget
    | admin i howner => simp [isAdmin, hused] at hadmin
  | notify env =>
    cases hjobs : s.selector.resolutionJobs with
    | nil => simp [enabled, hjobs] at he
    | cons fd jobs =>
      obtain ⟨c, howner⟩ := hinv.owned.jobs fd (by rw [hjobs]; exact List.mem_cons_self)
      obtain ⟨i, hitem⟩ := hinv.clientItem howner
      simp [Event.target, hjobs, hitem] at htarget
  | resolved c env => cases htarget
  | adminInterest fd i =>
    obtain ⟨hlt, howner, -⟩ := hinv.owned.admin_owner he
    obtain rfl := Except.ok.inj hs
    refine ⟨fun n o ho hother => ⟨ho, ?_⟩, fun n o ho => .inl ho, fun n ho => ?_⟩
    · apply fds_setInterest_of_ne
      intro heq
      obtain rfl : n = fd := by omega
      rw [howner] at ho
      exact hother (Option.some.inj ho).symm
    · by_cases hn : n = fd
      · subst hn
        right
        rw [fds_setInterest s n i n fun _ => hlt]
        split
        · exact he
        · exact he
      · exact .inl ⟨ho, fds_setInterest_of_ne s fd i (by omega)⟩
  | adminClose fd => exact adminClose_keepsHeld hinv he hs
  | configure users bufferSize maxConn =>
    obtain rfl := Except.ok.inj hs
    exact .of_eq rfl fun _ _ => rfl

/-- The event leaves the first listener waiting for clients. -/
def SparesListener (s : Server) (e : Event) : Prop := ∀ i ∈ e.zeroInterest s, i = OP_READ

instance (s : Server) (e : Event) : Decidable (SparesListener s e) :=
  inferInstanceAs (Decidable (∀ i ∈ e.zeroInterest s, i = OP_READ))

/-- Every listener waits for clients. -/
def Listening (s : Server) : Prop :=
  ∀ fd, s.kernel.owner fd = some .listener → (s.selector.fds fd).interest = OP_READ

/-- What the start of the program keeps listener by listener holds when the loop starts. -/
theorem startServer_invariant {P : Server → Prop} {args : Args} (hs : startServer args = some s)
    (hinit : P args.initial)
    (hkeep : ∀ s₁ handler s₂, Booting s₁ → handler = .socksv5 ∨ handler = .confProtocol → P s₁ →
      createAndRegisterPassiveSocket handler s₁ = some s₂ → P s₂) : P s := by
  have hall : ∀ (handlers : List FdHandler) (s₁ : Server), Booting s₁ → P s₁ →
      (∀ handler ∈ handlers, handler = .socksv5 ∨ handler = .confProtocol) →
      handlers.foldlM (fun s handler => createAndRegisterPassiveSocket handler s) s₁ = some s →
      P s := by
    intro handlers
    induction handlers with
    | nil =>
      intro s₁ _ h _ hs
      obtain rfl : s₁ = s := by simpa using hs
      exact h
    | cons handler handlers ih =>
      intro s₁ hboot h hpassive hs
      rw [List.foldlM_cons, Option.bind_eq_bind, Option.bind_eq_some_iff] at hs
      obtain ⟨s₂, hs₂, hs⟩ := hs
      have hhandler := hpassive handler List.mem_cons_self
      exact ih s₂ (hboot.register hhandler hs₂).1 (hkeep s₁ handler s₂ hboot hhandler h hs₂)
        (fun d hd => hpassive d (List.mem_cons_of_mem _ hd)) hs
  refine hall _ _ args.booting hinit ?_ hs
  intro handler hmem
  rcases List.mem_append.mp hmem with hmem | hmem
  · exact .inl (List.eq_of_mem_replicate hmem)
  · exact .inr (List.eq_of_mem_replicate hmem)

theorem startServer_listening {args : Args} (hs : startServer args = some s) : Listening s := by
  refine startServer_invariant hs ?_ ?_
  · intro fd howner
    simp only [Args.initial, Kernel.owner_close] at howner
    split at howner
    · cases howner
    · cases args.inherited fd _ howner
  · intro s₁ handler s₂ hboot _ hlistening hs₂
    unfold createAndRegisterPassiveSocket at hs₂
    rcases selectorRegister_cases s₁.selector s₁.kernel.lowest handler OP_READ none
        hboot.fdSize with ⟨fd, hfd, -, -, hstatus, hfds, -⟩ | ⟨-, hstatus, -⟩
    · obtain rfl : s₁.kernel.lowest = fd := by omega
      simp only [hstatus, ne_eq, not_true_eq_false, if_false, Option.some.injEq] at hs₂
      subst hs₂
      intro n howner
      rw [hfds]
      by_cases hn : n = s₁.kernel.lowest
      · rw [hn, Function.update_self]
      · rw [Kernel.owner_openFd_of_ne _ _ hn] at howner
        rw [Function.update_of_ne hn]
        exact hlistening n howner
    · simp [hstatus] at hs₂

/-- One event that spares the listeners leaves them waiting. -/
theorem Listening.step (h : Listening s) (hinv : Inv s) (he : enabled s e = true)
    (hspares : SparesListener s e) (hs : Socks5d.step s e = .ok s') : Listening s' := by
  intro fd howner
  cases htarget : e.target s with
  | none =>
    have hkeeps := hinv.background_keepsHeld he hs htarget
    rcases hkeeps.opened fd _ howner with hold | hother | hclient
    · rw [(hkeeps.held fd _ hold (by simp)).2]
      exact h fd hold
    · cases hother
    · cases hclient
  | some c =>
    cases hinv.effect he hs with
    | background _ hnone => rw [htarget] at hnone; cases hnone
    | reaction d v r s₀ hview htarget' hreaction hentered hlands hjobs =>
      obtain rfl := Option.some.inj (htarget.symm.trans htarget')
      have hold : s.kernel.owner fd = some .listener := by
        rcases hlands.frame.owners fd with heq | ⟨-, hnone | ⟨p, hp⟩⟩
        · rw [← hentered.kernel, ← heq, howner]
        · rw [hnone] at howner
          cases howner
        · rw [hp] at howner
          cases howner
      have hnot : ¬ Touched c s s' fd := not_touched_of_owner hold (by simp [FdOwner.conn])
      cases hzero : e.zeroInterest s with
      | none =>
        have hdispatch : Holds (Tolerated s e) (Socks5d.step s e) (Effect ⟨false, false⟩ s e) :=
          dispatch hinv he (.inr (keepsZero_of_zeroInterest hzero)) (by simp)
        cases hdispatch.result hs with
        | background _ hnone => rw [htarget] at hnone; cases hnone
        | reaction d' _ _ s₁ _ htarget'' _ hentered' hlands' _ =>
          obtain rfl := Option.some.inj (htarget.symm.trans htarget'')
          rcases hlands'.frame.items fd with heq | htouched | ⟨hfalse, -⟩
          · rw [heq, hentered'.fds]
            exact h fd hold
          · exact absurd ((hentered'.touched_iff fd).mp htouched) hnot
          · cases hfalse
      | some i =>
        obtain ⟨hitem, hothers⟩ := hinv.through_zero he hs htarget hzero
        by_cases h0 : fd = 0
        · rw [h0, hitem]
          exact hspares i hzero
        · rw [hothers fd h0 hnot]
          exact h fd hold

/-- Runs that spare the listeners leave them waiting. -/
theorem ReachableUnder.listening (h : ReachableUnder SparesListener s) : Listening s :=
  h.invariant (fun _ _ hs₀ => startServer_listening hs₀) fun _ _ _ hreach hs he hg hstep =>
    hs.step hreach.reachable.inv he hg hstep

/-- As long as no event asks an unset `origin_fd` for writability, every listener is registered
as `main` left it: it always accepts, and never runs into its missing write handler. -/
theorem listening_of_spared (h : ReachableUnder SparesListener s) {fd : ℕ}
    (howner : s.kernel.owner fd = some .listener) :
    (∃ handler, (handler = .socksv5 ∨ handler = .confProtocol) ∧
      s.selector.fds fd = ⟨fd, OP_READ, some handler, none⟩) ∧
      ∀ env, enabled s (.readable fd env) = true ∧ enabled s (.writable fd env) = false := by
  have hinv := h.reachable.inv
  have hused := hinv.owned.listener fd howner
  obtain ⟨-, hreg⟩ := hinv.owned.registered fd hused
  have hinterest := h.listening fd howner
  have hopen : s.kernel.isOpen fd = true := by simp [Kernel.isOpen, howner]
  generalize hitem : s.selector.fds fd = item at hreg hinterest
  cases hreg with
  | listener handler i _ hpassive =>
    have hi : i = OP_READ := hinterest
    subst hi
    rw [hitem] at hused
    refine ⟨⟨handler, hpassive, rfl⟩, fun env => ?_⟩
    rcases hpassive with rfl | rfl
    · simp [enabled, hopen, hitem, isAdmin, OP_READ, Item.used, FD_UNUSED]
    · simp [enabled, hopen, hitem, isAdmin, OP_READ, Item.used, FD_UNUSED]
  | client c i hclient => rw [howner] at hclient; cases hclient
  | relay c handler i _ horigin _ _ =>
    obtain ⟨_, _, ho⟩ := horigin _ howner
    cases ho
  | admin i hother => rw [howner] at hother; cases hother

/-- A connection without an origin whose bytes are always sent on at once. -/
theorem listening_of_spared_sent : ∃ s : Server, s.stms 0 = some ⟨some .copy⟩ ∧
    enabled s (.readable 0 {}) = true := by
  obtain ⟨s, hs, hcheck⟩ := reachableUnder_of_after SparesListener
    (skipsRequest ++ [.readable 2 { recv := .data 7 [], sends := [.accepted 0] }])
    (fun s => (s.stms 0 == some ⟨some .copy⟩) && (s.kernel.owner 0 == some .listener))
    (by decide +kernel)
  simp only [Bool.and_eq_true, beq_iff_eq] at hcheck
  exact ⟨s, hcheck.1, ((listening_of_spared hs hcheck.2).2 {}).1⟩

end Socks5d
