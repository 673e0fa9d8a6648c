import Socks5d.Composition

/-!
# The end of the program

`selector_destroy` unregisters whatever is registered, from the lowest descriptor on. The close
callbacks it runs on the way release the records of the connections and of the administration,
each once, and close what these hold. Nothing else is opened or freed, so what stays open are the
listeners, which have no close callback, and what the process inherited.
-/

namespace Socks5d

open GuardedRun Fallible

variable {args : Args} {p₀ p p' : Program} {s s' : Server} {fd n : ℕ} {c : ConnId}

/-- What an item in use registers while the program ends, with what its close callback releases. -/
inductive Closable (p : Program) (fd : ℕ) : Item → Prop
  | listener (handler : FdHandler) (i : FdInterest)
      (hpassive : handler = .socksv5 ∨ handler = .confProtocol) :
      Closable p fd ⟨fd, i, some handler, none⟩
  | client (c : ConnId) (i : FdInterest) (k : Socks5Conn) (m : StateMachine) (hpos : 0 < fd)
      (hconn : p.server.conns c = some k) (hclient : k.clientFd = fd) (hstm : k.stm = true)
      (hmachine : p.server.stms c = some m) :
      Closable p fd ⟨fd, i, some .socks5Handler, some c⟩
  | relay (c : ConnId) (handler : FdHandler) (i : FdInterest) (hrelay : handler.isRelay = true) :
      Closable p fd ⟨fd, i, some handler, some c⟩
  | admin (i : FdInterest) (k : AdminConn) (hconn : p.admins fd = some k) (hfd : k.fd = fd) :
      Closable p fd ⟨fd, i, some .adminHandler, none⟩

/-- What holds while the program ends: every record that is left has its registration, whatever is
open is held by a record or a registration, and what was released was released once. -/
structure Closing (args : Args) (p₀ p : Program) : Prop where
  item : ∀ fd, (p.server.selector.fds fd).used = true →
    fd < ITEMS_MAX_SIZE ∧ Closable p fd (p.server.selector.fds fd)
  conn : ∀ c k, p.server.conns c = some k → ∃ fd i, k.clientFd = (fd : ℕ) ∧
    p.server.selector.fds fd = ⟨fd, i, some .socks5Handler, some c⟩
  stm : ∀ c, (p.server.stms c).isSome = true → (p.server.conns c).isSome = true
  client : ∀ fd c, p.server.kernel.owner fd = some (.client c) →
    ∃ k, p.server.conns c = some k ∧ k.clientFd = fd
  origin : ∀ fd c q, p.server.kernel.owner fd = some (.origin c q) →
    0 < fd ∧ ∃ k, p.server.conns c = some k ∧ k.originFd = fd
  other : ∀ fd, p.server.kernel.owner fd = some .other →
    args.kernel.owner fd = some .other ∨ isAdmin (p.server.selector.fds fd) = true
  admins : ∀ fd, (p.admins fd).isSome = true → isAdmin (p.server.selector.fds fd) = true
  fate : ∀ c, p.server.conns c = p₀.server.conns c ∧
      p.server.history c = p₀.server.history c ∨
    (p₀.server.conns c).isSome = true ∧ p.server.conns c = none ∧
      p.server.history c = p₀.server.history c ++ [.released c]

/-- What the program has reached when its loop ends. -/
theorem Composed.closing {events : List Event} {s₀ : Server} (h : Composed p)
    (hs₀ : startServer args = some s₀) (hrun : Run machine unguarded s₀ events p.server) :
    Closing args p p where
  item fd hused := by
    obtain ⟨hlt, hreg⟩ := h.inv.owned.registered fd hused
    refine ⟨hlt, ?_⟩
    have hrecord : isAdmin (p.server.selector.fds fd) = true →
        ∃ k, p.admins fd = some k ∧ k.fd = fd := by
      intro hadmin
      obtain ⟨k, hk⟩ := Option.isSome_iff_exists.mp ((h.record fd).trans hadmin)
      exact ⟨k, hk, h.descriptor fd k hk⟩
    generalize p.server.selector.fds fd = item at hreg hrecord
    cases hreg with
    | listener handler i _ hpassive => exact .listener handler i hpassive
    | client c i howner =>
      obtain ⟨-, k, hk, hfd⟩ := h.inv.owned.client fd c howner
      obtain ⟨-, -, hstm, hmachine⟩ := h.inv.owned.conn c k hk
      obtain ⟨m, hm⟩ := Option.isSome_iff_exists.mp hmachine
      have hpos : 0 < fd := by
        rcases Nat.eq_zero_or_pos fd with rfl | hpos
        · cases h.inv.owned.zero.symm.trans howner
        · exact hpos
      exact .client c i k m hpos hk hfd hstm hm
    | relay c handler i hrelay _ _ _ => exact .relay c handler i hrelay
    | admin i howner =>
      obtain ⟨k, hk, hfd⟩ := hrecord (by simp [isAdmin, Item.used, FD_UNUSED])
      exact .admin i k hk hfd
  conn c k hk := by
    obtain ⟨⟨fd, hfd, howner⟩, -⟩ := h.inv.owned.conn c k hk
    obtain ⟨i, hitem⟩ := h.inv.clientItem howner
    exact ⟨fd, i, hfd, hitem⟩
  stm := h.inv.owned.stm
  client fd c howner := (h.inv.owned.client fd c howner).2
  origin fd c q howner := by
    have hpos : 0 < fd := by
      rcases Nat.eq_zero_or_pos fd with rfl | hpos
      · cases h.inv.owned.zero.symm.trans howner
      · exact hpos
    have hreach : Reachable p.server := ⟨args, s₀, events, hs₀, hrun⟩
    exact ⟨hpos, ((hreach.holding c).origin fd q howner).resolve_left (by omega)⟩
  other fd howner := othersHeld_of_run hs₀ hrun fd howner
  admins fd hsome := (h.record fd).symm.trans hsome
  fate _ := .inl ⟨rfl, rfl⟩

section Removals

variable {freed : Option ConnId}

/-- What unregistering an item does: it takes the item away, releases its record, if it has one,
and closes what that record held. -/
structure Removes (p : Program) (fd : ℕ) (freed : Option ConnId) (p' : Program) : Prop where
  fds : p'.server.selector.fds = Function.update p.server.selector.fds fd itemInit
  client : ∀ c i, p.server.selector.fds fd = ⟨fd, i, some .socks5Handler, some c⟩ → freed = some c
  record : ∀ c, freed = some c → ∃ k, p.server.conns c = some k ∧ k.clientFd = fd
  conns : ∀ c, p'.server.conns c = if freed = some c then none else p.server.conns c
  stms : ∀ c, p'.server.stms c = if freed = some c then none else p.server.stms c
  history : ∀ c, p'.server.history c =
    p.server.history c ++ if freed = some c then [.released c] else []
  owner : ∀ n o, p'.server.kernel.owner n = some o → p.server.kernel.owner n = some o
  closed : ∀ n c k, p.server.conns c = some k → freed = some c → 0 < n →
    k.clientFd = (n : ℕ) ∨ k.originFd = (n : ℕ) → p'.server.kernel.owner n = none
  other : isAdmin (p.server.selector.fds fd) = true → p'.server.kernel.owner fd = none
  admins : ∀ n, p'.admins n = if n = fd then none else p.admins n

/-- Whatever is left is still registered and held. -/
theorem Closing.remove (h : Closing args p₀ p) (hremoves : Removes p fd freed p') :
    Closing args p₀ p' := by
  have hkept : ∀ c k, p'.server.conns c = some k → freed ≠ some c ∧ p.server.conns c = some k := by
    intro c k hk
    rw [hremoves.conns] at hk
    split at hk
    · cases hk
    · exact ⟨‹_›, hk⟩
  -- the record of another connection is at another descriptor
  have hstays : ∀ c k n, p.server.conns c = some k → k.clientFd = (n : ℕ) → n ≠ fd →
      freed ≠ some c := by
    intro c k n hk hn hne hfreed
    obtain ⟨k', hk', hfd⟩ := hremoves.record c hfreed
    obtain rfl := Option.some.inj (hk.symm.trans hk')
    exact hne (by omega)
  refine ⟨fun n hused => ?_, fun c k hk => ?_, fun c hsome => ?_, fun n c howner => ?_,
    fun n c q howner => ?_, fun n howner => ?_, fun n hsome => ?_, fun c => ?_⟩
  · rw [hremoves.fds] at hused ⊢
    by_cases hn : n = fd
    · rw [hn, Function.update_self] at hused
      exact absurd hused not_used_itemInit
    · rw [Function.update_of_ne hn] at hused ⊢
      obtain ⟨hlt, hclosable⟩ := h.item n hused
      refine ⟨hlt, ?_⟩
      generalize p.server.selector.fds n = item at hclosable
      cases hclosable with
      | listener handler i hpassive => exact .listener handler i hpassive
      | client c i k m hpos hconn hclient hstm hmachine =>
        have hnot := hstays c k n hconn hclient hn
        exact .client c i k m hpos (by rw [hremoves.conns, if_neg hnot, hconn]) hclient hstm
          (by rw [hremoves.stms, if_neg hnot, hmachine])
      | relay c handler i hrelay => exact .relay c handler i hrelay
      | admin i k hconn hfd => exact .admin i k (by rw [hremoves.admins, if_neg hn, hconn]) hfd
  · obtain ⟨hnot, hk⟩ := hkept c k hk
    obtain ⟨n, i, hn, hitem⟩ := h.conn c k hk
    have hne : n ≠ fd := by
      rintro rfl
      exact hnot (hremoves.client c i hitem)
    exact ⟨n, i, hn, by rw [hremoves.fds, Function.update_of_ne hne, hitem]⟩
  · rw [hremoves.stms] at hsome
    rw [hremoves.conns]
    split at hsome
    · cases hsome
    · rename_i hnot
      rw [if_neg hnot]
      exact h.stm c hsome
  · obtain ⟨k, hk, hn⟩ := h.client n c (hremoves.owner n _ howner)
    obtain ⟨m, i, hm, hitem⟩ := h.conn c k hk
    obtain rfl : m = n := by omega
    have hused : (p.server.selector.fds m).used = true := by
      rw [hitem]
      simp [Item.used, FD_UNUSED]
    refine ⟨k, ?_, hn⟩
    rw [hremoves.conns, if_neg, hk]
    intro hfreed
    have hpos : 0 < m := by
      have hclosable := (h.item m hused).2
      rw [hitem] at hclosable
      cases hclosable with
      | client _ _ _ _ hpos => exact hpos
      | relay _ _ _ hrelay => cases hrelay
    cases howner.symm.trans (hremoves.closed m c k hk hfreed hpos (.inl hn))
  · obtain ⟨hpos, k, hk, hn⟩ := h.origin n c q (hremoves.owner n _ howner)
    refine ⟨hpos, k, ?_, hn⟩
    rw [hremoves.conns, if_neg, hk]
    intro hfreed
    cases howner.symm.trans (hremoves.closed n c k hk hfreed hpos (.inr hn))
  · rcases h.other n (hremoves.owner n _ howner) with hinherited | hadmin
    · exact .inl hinherited
    · have hne : n ≠ fd := by
        rintro rfl
        cases howner.symm.trans (hremoves.other hadmin)
      rw [hremoves.fds, Function.update_of_ne hne]
      exact .inr hadmin
  · rw [hremoves.admins] at hsome
    split at hsome
    · cases hsome
    · rename_i hne
      rw [hremoves.fds, Function.update_of_ne hne]
      exact h.admins n hsome
  · rw [hremoves.conns, hremoves.history]
    by_cases hfreed : freed = some c
    · rw [if_pos hfreed, if_pos hfreed]
      obtain ⟨k, hk, -⟩ := hremoves.record c hfreed
      rcases h.fate c with ⟨hconn, hhistory⟩ | ⟨-, hnone, -⟩
      · exact .inr ⟨by rw [← hconn, hk]; rfl, rfl, by rw [hhistory]⟩
      · cases hnone.symm.trans hk
    · rw [if_neg hfreed, if_neg hfreed, List.append_nil]
      exact h.fate c

/-- An item whose close callback releases no record: only its descriptor may be closed. -/
theorem Removes.of_shared (h : Closing args p₀ p)
    (hitem : ∀ c i, p.server.selector.fds fd ≠ ⟨fd, i, some .socks5Handler, some c⟩)
    (hfds : p'.server.selector.fds = Function.update p.server.selector.fds fd itemInit)
    (hconns : p'.server.conns = p.server.conns) (hstms : p'.server.stms = p.server.stms)
    (htrace : p'.server.trace = p.server.trace)
    (howner : ∀ n o, p'.server.kernel.owner n = some o → p.server.kernel.owner n = some o)
    (hother : isAdmin (p.server.selector.fds fd) = true → p'.server.kernel.owner fd = none)
    (hadmins : ∀ n, p'.admins n = if isAdmin (p.server.selector.fds fd) = true ∧ n = fd then none
      else p.admins n) : Removes p fd none p' where
  fds := hfds
  client c i hclient := absurd hclient (hitem c i)
  record c hfreed := by cases hfreed
  conns c := by rw [hconns]; rfl
  stms c := by rw [hstms]; rfl
  history c := by simp [Server.history, htrace]
  owner := howner
  closed n c k _ hfreed := by cases hfreed
  other := hother
  admins n := by
    rw [hadmins]
    by_cases hn : n = fd
    · subst hn
      by_cases hadmin : isAdmin (p.server.selector.fds n) = true
      · rw [if_pos ⟨hadmin, rfl⟩, if_pos rfl]
      · rw [if_neg fun hboth => hadmin hboth.1, if_pos rfl]
        exact Option.not_isSome_iff_eq_none.mp fun hsome => hadmin (h.admins n hsome)
    · rw [if_neg fun hboth => hn hboth.2, if_neg hn]

/-- The close callback of a client finds everything it releases. -/
theorem socksv5Close_eq {k : Socks5Conn} {m : StateMachine} (hconn : s.conns c = some k)
    (hstm : k.stm = true) (hmachine : s.stms c = some m) :
    socksv5Close c s = .ok ({ closeBoth s k with
      stms := Function.update s.stms c none
      metrics := s.metrics.decCurrConn
      conns := Function.update s.conns c none }.note (.released c)) := by
  obtain ⟨hstms, hconns, -, -, -, hshared⟩ := closeBoth_fields s k
  have hfree : socks5StmFree c (closeBoth s k) =
      .ok { closeBoth s k with stms := Function.update (closeBoth s k).stms c none } := by
    simp [socks5StmFree, hstms, hmachine]
  have hmetrics : (closeBoth s k).metrics = s.metrics := by
    unfold closeBoth
    split
    · split
      · rfl
      · rfl
    · split
      · rfl
      · rfl
  unfold socksv5Close
  rw [Server.conn, hconn, ok_bind]
  simp only [hstm, if_true]
  change (socks5StmFree c (closeBoth s k) >>= _) = _
  rw [hfree, ok_bind]
  simp only [hconns, hstms, hmetrics]
  rfl

theorem Closing.unregisterClient (h : Closing args p₀ p) {i : FdInterest} {k : Socks5Conn}
    {m : StateMachine} (hlt : fd < ITEMS_MAX_SIZE) (hpos : 0 < fd)
    (hitem : p.server.selector.fds fd = ⟨fd, i, some .socks5Handler, some c⟩)
    (hconn : p.server.conns c = some k) (hclient : k.clientFd = fd) (hstm : k.stm = true)
    (hmachine : p.server.stms c = some m) :
    ∃ p', p.unregister fd = .ok p' ∧ Removes p fd (some c) p' := by
  have hused : (p.server.selector.fds fd).used = true := by
    rw [hitem]
    simp [Item.used, FD_UNUSED]
  have hadmin : isAdmin (p.server.selector.fds fd) = false := by
    rw [hitem]
    simp [isAdmin]
  obtain ⟨-, -, hsel, htrace, -, -⟩ := closeBoth_fields p.server k
  have hok : p.unregister fd = .ok (p.served { closeBoth p.server k with
      stms := Function.update p.server.stms c none
      metrics := p.server.metrics.decCurrConn
      conns := Function.update p.server.conns c none
      trace := p.server.trace ++ [.released c]
      selector := removeItem p.server.selector fd }) := by
    have hhandle : handleClose (p.server.selector.fds fd) p.server = socksv5Close c p.server := by
      rw [hitem]
      rfl
    unfold Program.unregister
    simp only [hitem]
    rw [selectorUnregisterFd_used hlt hused, hhandle, socksv5Close_eq hconn hstm hmachine]
    simp only [ok_bind, pure_eq_ok, Server.note, hsel, htrace]
  have howner := owner_closeBoth p.server k
  refine ⟨_, hok, ?_⟩
  refine {
    fds := fds_removeItem _ _
    client := fun d j hd => ?_
    record := fun d hd => ?_
    conns := fun d => ?_
    stms := fun d => ?_
    history := fun d => ?_
    owner := fun n o ho => ?_
    closed := fun n d k' hk' hd hn hheld => ?_
    other := fun h' => ?_
    admins := fun n => ?_ }
  · rw [hitem] at hd
    injection hd
  · obtain rfl := Option.some.inj hd
    exact ⟨k, hconn, hclient⟩
  · by_cases hd : d = c
    · subst hd
      rw [if_pos rfl]
      exact Function.update_self _ _ _
    · rw [if_neg fun heq => hd (Option.some.inj heq).symm]
      exact Function.update_of_ne hd _ _
  · by_cases hd : d = c
    · subst hd
      rw [if_pos rfl]
      exact Function.update_self _ _ _
    · rw [if_neg fun heq => hd (Option.some.inj heq).symm]
      exact Function.update_of_ne hd _ _
  · simp only [Server.history, Program.served, List.filter_append]
    by_cases hd : d = c
    · simp [hd, Obs.conn]
    · simp [Obs.conn, Ne.symm hd]
  · simp only [Program.served, howner] at ho
    split at ho
    · cases ho
    · exact ho
  · obtain rfl := Option.some.inj hd
    obtain rfl := Option.some.inj (hconn.symm.trans hk')
    simp only [Program.served, howner]
    apply if_pos
    rcases hheld with hn' | hn'
    · exact .inl ⟨by omega, hn'.symm⟩
    · exact .inr ⟨by omega, hn'.symm⟩
  · rw [hadmin] at h'
    cases h'
  · by_cases hn : n = fd
    · subst hn
      rw [if_pos rfl]
      exact Option.not_isSome_iff_eq_none.mp fun hsome => by
        cases hadmin.symm.trans (h.admins n hsome)
    · rw [if_neg hn]
      rfl

/-- An item without a close callback. -/
theorem Closing.unregisterPlain (h : Closing args p₀ p) {handler : FdHandler} {i : FdInterest}
    {data : Option ConnId} (hlt : fd < ITEMS_MAX_SIZE)
    (hitem : p.server.selector.fds fd = ⟨fd, i, some handler, data⟩)
    (hplain : handler ≠ .socks5Handler ∧ handler ≠ .adminHandler) :
    ∃ p', p.unregister fd = .ok p' ∧ Removes p fd none p' := by
  have hused : (p.server.selector.fds fd).used = true := by
    rw [hitem]
    simp [Item.used, FD_UNUSED]
  have hadmin : isAdmin (p.server.selector.fds fd) = false := by
    rw [hitem]
    simp [isAdmin, hplain.2]
  have hclose : handleClose (p.server.selector.fds fd) p.server = .ok p.server := by
    rw [hitem]
    cases handler with
    | socks5Handler => exact absurd rfl hplain.1
    | adminHandler => exact absurd rfl hplain.2
    | _ => rfl
  have hok : p.unregister fd =
      .ok (p.served { p.server with selector := removeItem p.server.selector fd }) := by
    unfold Program.unregister
    rw [selectorUnregisterFd_used hlt hused, hclose]
    simp only [hitem]
    cases handler with
    | adminHandler => exact absurd rfl hplain.2
    | _ => rfl
  refine ⟨_, hok, .of_shared h (fun c j hclient => ?_) (fds_removeItem _ _) rfl rfl rfl
    (fun n o ho => ho) (fun h' => ?_) fun n => ?_⟩
  · rw [hitem] at hclient
    injection hclient with _ _ hhandler
    exact hplain.1 (Option.some.inj hhandler)
  · cases hadmin.symm.trans h'
  · rw [if_neg fun hboth => Bool.false_ne_true (hadmin.symm.trans hboth.1)]
    rfl

theorem Closing.unregisterAdmin (h : Closing args p₀ p) {i : FdInterest} {k : AdminConn}
    (hlt : fd < ITEMS_MAX_SIZE)
    (hitem : p.server.selector.fds fd = ⟨fd, i, some .adminHandler, none⟩)
    (hconn : p.admins fd = some k) :
    ∃ p', p.unregister fd = .ok p' ∧ Removes p fd none p' := by
  have hadmin : isAdmin (p.server.selector.fds fd) = true := by
    rw [hitem]
    simp [isAdmin, Item.used, FD_UNUSED]
  have hreleased : adminUnregister (p.session fd) = .ok ((p.session fd).released k) :=
    adminUnregister_eq hconn
  have hok : p.unregister fd = .ok { p with
      server := { p.server with
        kernel := p.server.kernel.close fd
        selector := removeItem p.server.selector fd }
      admins := Function.update p.admins fd none
      adminTraces := Function.update p.adminTraces fd ((p.session fd).released k).trace } := by
    unfold Program.unregister
    simp only [hitem, hreleased, ok_bind]
    unfold Program.returned
    simp only [AdminState.released]
    have hclosed := selectorUnregisterFd_admin (s := p.data.configured p.server) hlt hitem
    exact congrArg (fun r => r >>= _) hclosed
  refine ⟨_, hok, .of_shared h (fun c j hclient => ?_) (fds_removeItem _ _) rfl rfl rfl
    (fun n o ho => ?_) (fun _ => ?_) fun n => ?_⟩
  · rw [hitem] at hclient
    injection hclient with _ _ hhandler
    cases hhandler
  · simp only [Kernel.owner_close] at ho
    split at ho
    · cases ho
    · exact ho
  · simp [Kernel.owner_close]
  · by_cases hn : n = fd
    · subst hn
      rw [if_pos ⟨hadmin, rfl⟩]
      exact Function.update_self _ _ _
    · rw [if_neg fun hboth => hn hboth.2]
      exact Function.update_of_ne hn _ _

/-- Unregistering an item in use never faults. -/
theorem Closing.unregister (h : Closing args p₀ p)
    (hused : (p.server.selector.fds fd).used = true) :
    ∃ p' freed, p.unregister fd = .ok p' ∧ Removes p fd freed p' := by
  obtain ⟨hlt, hclosable⟩ := h.item fd hused
  generalize hitem : p.server.selector.fds fd = item at hclosable
  cases hclosable with
  | listener handler i hpassive =>
    have hplain : handler ≠ .socks5Handler ∧ handler ≠ .adminHandler := by
      rcases hpassive with rfl | rfl
      · exact ⟨nofun, nofun⟩
      · exact ⟨nofun, nofun⟩
    obtain ⟨p', hok, hremoves⟩ := h.unregisterPlain hlt hitem hplain
    exact ⟨p', none, hok, hremoves⟩
  | client c i k m hpos hconn hclient hstm hmachine =>
    obtain ⟨p', hok, hremoves⟩ :=
      h.unregisterClient hlt hpos hitem hconn hclient hstm hmachine
    exact ⟨p', some c, hok, hremoves⟩
  | relay c handler i hrelay =>
    have hplain : handler ≠ .socks5Handler ∧ handler ≠ .adminHandler := by
      constructor
      · rintro rfl
        cases hrelay
      · rintro rfl
        cases hrelay
    obtain ⟨p', hok, hremoves⟩ := h.unregisterPlain hlt hitem hplain
    exact ⟨p', none, hok, hremoves⟩
  | admin i k hconn hfd =>
    obtain ⟨p', hok, hremoves⟩ := h.unregisterAdmin hlt hitem hconn
    exact ⟨p', none, hok, hremoves⟩

/-- A pass over some descriptors leaves nothing registered at them. -/
theorem Closing.pass (h : Closing args p₀ p) (fds : List ℕ) :
    ∃ p', fds.foldlM (fun p fd => if (p.server.selector.fds fd).used then p.unregister fd
        else pure p) p = .ok p' ∧ Closing args p₀ p' ∧
      ∀ fd, fd ∈ fds ∨ (p.server.selector.fds fd).used = false →
        (p'.server.selector.fds fd).used = false := by
  induction fds generalizing p with
  | nil => exact ⟨p, rfl, h, fun fd hfd => hfd.resolve_left (List.not_mem_nil)⟩
  | cons fd fds ih =>
    have hone : ∃ p₁, (if (p.server.selector.fds fd).used then p.unregister fd else pure p) =
        .ok p₁ ∧ Closing args p₀ p₁ ∧ ∀ n, n = fd ∨ (p.server.selector.fds n).used = false →
          (p₁.server.selector.fds n).used = false := by
      by_cases hused : (p.server.selector.fds fd).used = true
      · obtain ⟨p₁, freed, hok, hremoves⟩ := h.unregister hused
        refine ⟨p₁, by rw [if_pos hused, hok], h.remove hremoves, fun n hn => ?_⟩
        rw [hremoves.fds]
        by_cases hfd : n = fd
        · rw [hfd, Function.update_self]
          rfl
        · rw [Function.update_of_ne hfd]
          exact hn.resolve_left hfd
      · refine ⟨p, by rw [if_neg hused]; rfl, h, fun n hn => ?_⟩
        rcases hn with rfl | hn
        · exact Bool.eq_false_iff.mpr hused
        · exact hn
    obtain ⟨p₁, hok, h₁, hunused₁⟩ := hone
    obtain ⟨p', hok', h', hunused'⟩ := ih h₁
    refine ⟨p', by rw [List.foldlM_cons, hok, ok_bind, hok'], h', fun n hn => hunused' n ?_⟩
    rcases hn with hn | hn
    · rcases List.mem_cons.mp hn with heq | hn
      · exact .inr (hunused₁ n (.inl heq))
      · exact .inl hn
    · exact .inr (hunused₁ n (.inr hn))

end Removals

/-- What is left when nothing is registered any more. -/
structure Destroyed (args : Args) (p p' : Program) : Prop where
  owner : ∀ fd o, p'.server.kernel.owner fd = some o →
    o = .listener ∨ args.kernel.owner fd = some .other
  admins : ∀ fd, p'.admins fd = none
  conns : ∀ c, p'.server.conns c = none ∧ p'.server.stms c = none
  /-- A record that was left is released now, and no record twice. -/
  history : ∀ c, p'.server.history c = p.server.history c ++
    if (p.server.conns c).isSome = true then [.released c] else []

theorem Closing.destroyed (h : Closing args p p')
    (hunused : ∀ fd, (p'.server.selector.fds fd).used = false) : Destroyed args p p' := by
  have hconns : ∀ c, p'.server.conns c = none := by
    intro c
    cases hk : p'.server.conns c with
    | none => rfl
    | some k =>
      obtain ⟨fd, i, -, hitem⟩ := h.conn c k hk
      have hfd := hunused fd
      rw [hitem] at hfd
      simp [Item.used, FD_UNUSED] at hfd
  have hadmin : ∀ fd, isAdmin (p'.server.selector.fds fd) = false := by
    intro fd
    simp [isAdmin, hunused fd]
  refine ⟨fun fd o ho => ?_, fun fd => ?_, fun c => ⟨hconns c, ?_⟩, fun c => ?_⟩
  · cases o with
    | listener => exact .inl rfl
    | client c =>
      obtain ⟨k, hk, -⟩ := h.client fd c ho
      cases (hconns c).symm.trans hk
    | origin c q =>
      obtain ⟨-, k, hk, -⟩ := h.origin fd c q ho
      cases (hconns c).symm.trans hk
    | other =>
      rcases h.other fd ho with hinherited | hheld
      · exact .inr hinherited
      · cases (hadmin fd).symm.trans hheld
  · exact Option.not_isSome_iff_eq_none.mp fun hsome => by
      cases (hadmin fd).symm.trans (h.admins fd hsome)
  · exact Option.not_isSome_iff_eq_none.mp fun hsome => by
      have hconn := h.stm c hsome
      rw [hconns c] at hconn
      cases hconn
  · rcases h.fate c with ⟨hconn, hhistory⟩ | ⟨hsome, -, hhistory⟩
    · rw [hhistory, ← hconn, hconns c]
      simp
    · rw [hhistory, if_pos hsome]

/-- However the loop has gone, the end of the program releases everything it still holds: no close
callback faults, every record that is left is freed, none of them twice, and what stays open are
the listeners and what the process inherited. -/
theorem shutdown_releases {logLevel : LogLevel} {beyond : List UInt8} {entries : ℕ → AccessEntry}
    {isoDate : ℕ → CString} {events : List ProgramEvent}
    (hp₀ : startProgram args logLevel beyond entries isoDate = some p₀)
    (hrun : Run programMachine unguarded p₀ events p) :
    ∃ p', p.selectorDestroy = .ok p' ∧ Destroyed args p p' := by
  obtain ⟨hs₀, hcomposed⟩ := startProgram_composed hp₀
  obtain ⟨more, hserver⟩ := program_run sparesAdmin_unguarded hcomposed.inv
    (hrun.mono fun _ _ _ => trivial)
  have hp : Composed p := hrun.invariant hcomposed fun p e p' hp he _ hs => hp.step he hs
  obtain ⟨p', hok, hclosing, hunused⟩ :=
    (hp.closing hs₀ hserver).pass (List.range p.server.selector.fdSize)
  have hall : ∀ fd, (p'.server.selector.fds fd).used = false := by
    intro fd
    apply hunused
    by_cases hused : (p.server.selector.fds fd).used = true
    · have hlt := (hp.inv.owned.registered fd hused).1
      exact .inl (List.mem_range.mpr (Nat.lt_of_lt_of_le hlt hp.inv.owned.fdSize))
    · exact .inr (Bool.eq_false_iff.mpr hused)
  obtain ⟨howner, hadmins, hconns, hhistory⟩ := hclosing.destroyed hall
  refine ⟨{ p' with server := { p'.server with
    selector := { p'.server.selector with resolutionJobs := [], fdSize := 0 } } }, ?_,
    howner, hadmins, hconns, hhistory⟩
  unfold Program.selectorDestroy
  rw [hok]
  rfl

/-- A client that has greeted and an administration client are left. -/
theorem shutdown_releases_greeted : ∃ p p' : Program, (p.server.conns 0).isSome = true ∧
    p.selectorDestroy = .ok p' ∧ Destroyed bareArgs p p' := by
  have hrun : ((startProgram bareArgs .info [] (fun _ => ⟨[], [], 0, [], 0, [], 0, 0⟩)
      fun _ => []).bind fun p =>
      (exec programMachine unguarded p [.readable 0 { peer := some ([], 0) },
        .readable 1 { peer := some ([], 0) },
        .readable 2 { recv := .data 5 [1, 0], sends := [.accepted 1] }]).map fun p =>
          (p.server.conns 0).isSome) = some true := by decide +kernel
  obtain ⟨p₀, hp₀, hrun⟩ := Option.bind_eq_some_iff.mp hrun
  obtain ⟨p, hp, hconn⟩ := Option.map_eq_some_iff.mp hrun
  obtain ⟨p', hok, hdestroyed⟩ := shutdown_releases hp₀ (run_of_exec hp)
  exact ⟨p, p', hconn, hok, hdestroyed⟩

end Socks5d
