import Socks5d.Phases

/-!
# Accepting clients and administering the server

The callbacks that belong to no connection: accepting a client, whichever exit it takes, and
what the administration code does to the descriptor table. They leave every connection there is
alone and add at most a fresh one.
-/

namespace Socks5d

open Fallible

variable {s s' : Server}

namespace View

/-- A connection that was just accepted. -/
structure Fresh (v : View) : Prop where
  phase : v.phase = none
  early : v.Early
  outBuff : v.conn.outBuff.content = []
  interest : v.interest = OP_READ
  isErrorResponse : v.conn.isErrorResponse = false
  relay : v.relay = none
  inCapacity : BUFF_MIN_LEN ≤ v.conn.inBuff.capacity
  outCapacity : BUFF_MIN_LEN ≤ v.conn.outBuff.capacity
  history : v.history = []

end View

/-- What a callback that belongs to no connection does to the connections. -/
structure Background (s s' : Server) : Prop where
  owned : Owned none s'
  bufferSize : BUFF_MIN_LEN ≤ s'.bufferSize
  fates : ∀ c, s'.view c = s.view c ∧ s'.history c = s.history c ∨
    c = s.nextConn ∧ ((∃ v, s'.view c = some v ∧ v.Fresh) ∨
      s'.view c = none ∧ s'.history c = [.released c])
  registrations : ∀ fd c, (s'.selector.fds fd).relayOf c = (s.selector.fds fd).relayOf c
  kept : ∀ c k, s.conns c = some k → s'.conns c = some k
  jobs : s'.selector.resolutionJobs = s.selector.resolutionJobs

theorem Background.tidy {c : ConnId} (h : Background s s') (ht : Tidy c s) : Tidy c s' := by
  intro fd r hr
  rw [h.registrations] at hr
  obtain ⟨k, hk, hfd⟩ := ht fd r hr
  exact ⟨k, h.kept c k hk, hfd⟩

/-- A view exists exactly for the records that do. -/
theorem Owned.view_isSome {hole : Option ConnId} (ho : Owned hole s) (c : ConnId) :
    (s.view c).isSome = (s.conns c).isSome := by
  unfold Server.view
  cases hk : s.conns c with
  | none => rfl
  | some k =>
    obtain ⟨-, -, -, hm⟩ := ho.conn c k hk
    obtain ⟨m, hm⟩ := Option.isSome_iff_exists.mp hm
    simp [hm]

/-- No connection has the identity the next one will get. -/
theorem Owned.conns_nextConn {hole : Option ConnId} (ho : Owned hole s) :
    s.conns s.nextConn = none := by
  cases hk : s.conns s.nextConn with
  | none => rfl
  | some k => exact absurd (ho.known s.nextConn (by simp [hk])) (Nat.lt_irrefl _)

theorem Owned.history_nextConn {hole : Option ConnId} (ho : Owned hole s) :
    s.history s.nextConn = [] := by
  unfold Server.history
  rw [List.filter_eq_nil_iff]
  intro o ho'
  simpa using Nat.ne_of_lt (ho.trace o ho')

theorem Owned.lowest_pos {hole : Option ConnId} (ho : Owned hole s) : 0 < s.kernel.lowest := by
  rcases Nat.eq_zero_or_pos s.kernel.lowest with h0 | hpos
  · have hfree := s.kernel.owner_lowest
    rw [h0, ho.zero] at hfree
    cases hfree
  · exact hpos

/-- An unused descriptor may come to be described otherwise: nothing else differs. -/
structure SameTable (s s' : Server) : Prop where
  items : ∀ n, s'.selector.fds n = s.selector.fds n ∨
    (s.selector.fds n).used = false ∧ (s'.selector.fds n).used = false
  owner : s'.kernel.owner = s.kernel.owner
  conns : s'.conns = s.conns
  stms : s'.stms = s.stms
  nextConn : s.nextConn ≤ s'.nextConn
  trace : s'.trace = s.trace ∨
    s'.trace = s.trace ++ [.released s.nextConn] ∧ s.nextConn < s'.nextConn
  resolving : s'.resolving = s.resolving
  jobs : s'.selector.resolutionJobs = s.selector.resolutionJobs
  fdSize : s'.selector.fdSize = s.selector.fdSize
  bufferSize : s'.bufferSize = s.bufferSize

theorem SameTable.used (h : SameTable s s') (n : ℕ) :
    (s'.selector.fds n).used = (s.selector.fds n).used := by
  rcases h.items n with heq | ⟨h₁, h₂⟩
  · rw [heq]
  · rw [h₁, h₂]

theorem SameTable.relayOf (h : SameTable s s') (n : ℕ) (c : ConnId) :
    (s'.selector.fds n).relayOf c = (s.selector.fds n).relayOf c := by
  rcases h.items n with heq | ⟨h₁, h₂⟩
  · rw [heq]
  · have hnone : ∀ item : Item, item.used = false → item.relayOf c = none := by
      intro item hi
      unfold Item.relayOf
      split
      · rw [if_neg (by simp [hi])]
      · rfl
    rw [hnone _ h₁, hnone _ h₂]

theorem SameTable.owned (h : SameTable s s') (ho : Owned none s) : Owned none s' where
  registered n hused := by
    rw [h.used] at hused
    obtain ⟨hlt, hreg⟩ := ho.registered n hused
    refine ⟨hlt, ?_⟩
    rcases h.items n with heq | ⟨h₁, -⟩
    · rw [heq]
      generalize s.selector.fds n = it at hreg
      cases hreg with
      | listener handler i howner hpassive => exact .listener handler i (h.owner ▸ howner) hpassive
      | client c i howner => exact .client c i (h.owner ▸ howner)
      | relay c handler i hrelay howner horigin hknown =>
        exact .relay c handler i hrelay (h.owner ▸ howner) (h.conns ▸ horigin)
          (Nat.lt_of_lt_of_le hknown h.nextConn)
      | admin i howner => exact .admin i (h.owner ▸ howner)
    · rw [h₁] at hused
      cases hused
  zero := h.owner ▸ ho.zero
  listener n hn := by
    rw [h.used]
    exact ho.listener n (h.owner ▸ hn)
  client n c hn := by
    rw [h.used, h.conns]
    exact ho.client n c (h.owner ▸ hn)
  conn c k hk := by
    rw [h.owner, h.stms]
    obtain ⟨hclient, horigin, hrest⟩ := ho.conn c k (h.conns ▸ hk)
    refine ⟨hclient, ?_, hrest⟩
    unfold OriginOwned
    rw [h.owner]
    exact horigin
  stm c hc := by
    rw [h.conns]
    exact ho.stm c (h.stms ▸ hc)
  known c hc := Nat.lt_of_lt_of_le (ho.known c (h.conns ▸ hc)) h.nextConn
  trace o hmem := by
    rcases h.trace with heq | ⟨heq, hlt⟩
    · exact Nat.lt_of_lt_of_le (ho.trace o (heq ▸ hmem)) h.nextConn
    · rw [heq, List.mem_append, List.mem_singleton] at hmem
      rcases hmem with hmem | rfl
      · exact Nat.lt_of_lt_of_le (ho.trace o hmem) h.nextConn
      · exact hlt
  jobs n hn := by
    rw [h.owner]
    exact ho.jobs n (h.jobs ▸ hn)
  resolving c hc := by
    rw [h.conns]
    exact ho.resolving c (h.resolving ▸ hc)
  fdSize := h.fdSize ▸ ho.fdSize

/-- Views only depend on what a table of this kind keeps. -/
theorem SameTable.view (h : SameTable s s') (ho : Owned none s) {c : ConnId}
    (hne : c ≠ s.nextConn) : s'.view c = s.view c ∧ s'.history c = s.history c := by
  have hhistory : s'.history c = s.history c := by
    unfold Server.history
    rcases h.trace with heq | ⟨heq, -⟩
    · rw [heq]
    · rw [heq, List.filter_append]
      simp [Obs.conn, Ne.symm hne]
  refine ⟨?_, hhistory⟩
  simp only [Server.view, h.conns, h.stms]
  cases hk : s.conns c with
  | none => rfl
  | some k =>
    cases hm : s.stms c with
    | none => rfl
    | some m =>
      obtain ⟨⟨fd, hfd, hown⟩, -⟩ := ho.conn c k hk
      have hitem : s'.selector.fds fd = s.selector.fds fd := by
        rcases h.items fd with heq | ⟨hfree, -⟩
        · exact heq
        · rw [(ho.client fd c hown).1] at hfree
          cases hfree
      simp [hfd, hitem, Server.relay, h.relayOf, Server.tokens, h.jobs, h.resolving, hhistory]

theorem SameTable.background (h : SameTable s s') (ho : Owned none s)
    (hsize : BUFF_MIN_LEN ≤ s.bufferSize) : Background s s' where
  owned := h.owned ho
  bufferSize := h.bufferSize ▸ hsize
  fates c := by
    by_cases hc : c = s.nextConn
    · subst hc
      rcases h.trace with heq | ⟨heq, -⟩
      · left
        refine ⟨?_, by simp [Server.history, heq]⟩
        simp [Server.view, h.conns, ho.conns_nextConn]
      · right
        refine ⟨rfl, .inr ⟨by simp [Server.view, h.conns, ho.conns_nextConn], ?_⟩⟩
        have hnil := ho.history_nextConn
        unfold Server.history at hnil ⊢
        rw [heq, List.filter_append, hnil]
        simp [Obs.conn]
    · exact .inl (h.view ho hc)
  registrations fd c := h.relayOf fd c
  kept c k hk := by rw [h.conns]; exact hk
  jobs := h.jobs

theorem sameTable_refl (s : Server) : SameTable s s where
  items _ := .inl rfl
  owner := rfl
  conns := rfl
  stms := rfl
  nextConn := Nat.le_refl _
  trace := .inl rfl
  resolving := rfl
  jobs := rfl
  fdSize := rfl
  bufferSize := rfl

/-- A descriptor opened and closed again leaves the kernel's table as it was. -/
theorem owner_openFd_close (k : Kernel) (o : FdOwner) :
    ((k.openFd k.lowest o).close k.lowest).owner = k.owner := by
  funext n
  rw [Kernel.owner_close, Kernel.owner_openFd]
  by_cases hn : n = k.lowest
  · rw [if_pos (by omega), hn, k.owner_lowest]
  · rw [if_neg (by omega), if_neg hn]

/-- `accept` fails, or its descriptor is registered, or it is closed again. -/
theorem passiveAccept_cases (handler : FdHandler) (owner : FdOwner) (data : Option ConnId)
    (env : Env) (hsize : ITEMS_MAX_SIZE ≤ s.selector.fdSize) :
    env.peer = none ∧ passiveAccept handler owner data env s = (none, s) ∨
    (∃ sel : FdSelector, env.peer ≠ none ∧ s.kernel.lowest < ITEMS_MAX_SIZE ∧
      (s.selector.fds s.kernel.lowest).used = false ∧
      sel.fds = Function.update s.selector.fds s.kernel.lowest
        ⟨s.kernel.lowest, OP_READ, some handler, data⟩ ∧
      sel.resolutionJobs = s.selector.resolutionJobs ∧ sel.fdSize = s.selector.fdSize ∧
      passiveAccept handler owner data env s = (some s.kernel.lowest,
        { s with kernel := s.kernel.openFd s.kernel.lowest owner, selector := sel })) ∨
    (s.kernel.lowest < ITEMS_MAX_SIZE → (s.selector.fds s.kernel.lowest).used = true) ∧
      passiveAccept handler owner data env s = (none, { s with
        kernel := (s.kernel.openFd s.kernel.lowest owner).close s.kernel.lowest }) := by
  unfold passiveAccept
  cases env.peer with
  | none => exact .inl ⟨rfl, rfl⟩
  | some peer =>
    right
    rcases selectorRegister_cases s.selector s.kernel.lowest handler OP_READ data hsize with
      ⟨fd, hfd, hlt, hfree, hstatus, hfds, hjobs, hsize'⟩ | ⟨hused, hstatus, hsel⟩
    · left
      obtain rfl : s.kernel.lowest = fd := by omega
      refine ⟨_, nofun, hlt, hfree, hfds, hjobs, hsize', ?_⟩
      simp [hstatus]
    · right
      refine ⟨hused _ rfl, ?_⟩
      simp [hstatus, hsel, Server.close]

/-- Opening and registering a descriptor for the administration or as a listener. -/
theorem Owned.openShared (ho : Owned none s) {fd : ℕ} (hfd : fd = s.kernel.lowest) {o : FdOwner}
    {item : Item} {sel : FdSelector} (hunowned : o.conn = none) (hlt : fd < ITEMS_MAX_SIZE)
    (hfree : (s.selector.fds fd).used = false) (hused : item.used = true)
    (hfds : sel.fds = Function.update s.selector.fds fd item)
    (hjobs : sel.resolutionJobs = s.selector.resolutionJobs)
    (hsize : sel.fdSize = s.selector.fdSize)
    (hitem : ∀ t : Server, t.kernel.owner fd = some o → Registered t fd item) :
    Owned none { s with kernel := s.kernel.openFd fd o, selector := sel } := by
  have hnew : s.kernel.owner fd = none := by rw [hfd]; exact s.kernel.owner_lowest
  have hkeep : ∀ n p, s.kernel.owner n = some p → (s.kernel.openFd fd o).owner n = some p := by
    intro n p hn
    rw [Kernel.owner_openFd, if_neg (by rintro rfl; rw [hnew] at hn; cases hn), hn]
  have hback : ∀ n p, (s.kernel.openFd fd o).owner n = some p →
      n ≠ fd ∧ s.kernel.owner n = some p ∨ n = fd ∧ p = o := by
    intro n p hn
    rw [Kernel.owner_openFd] at hn
    split at hn
    · rename_i heq
      exact .inr ⟨heq, (Option.some.inj hn).symm⟩
    · rename_i hne
      exact .inl ⟨hne, hn⟩
  refine ⟨?_, hkeep 0 _ ho.zero, ?_, ?_, ?_, ho.stm, ho.known, ho.trace, ?_, ho.resolving, ?_⟩
  · intro n hn
    simp only [hfds] at hn ⊢
    by_cases hnfd : n = fd
    · subst hnfd
      rw [Function.update_self]
      exact ⟨hlt, hitem _ (by simp)⟩
    · rw [Function.update_of_ne hnfd] at hn ⊢
      obtain ⟨hlt', hreg⟩ := ho.registered n hn
      refine ⟨hlt', ?_⟩
      generalize s.selector.fds n = it at hreg
      cases hreg with
      | listener handler i h₁ h₂ => exact .listener handler i (hkeep n _ h₁) h₂
      | client c i h₁ => exact .client c i (hkeep n _ h₁)
      | relay c handler i h₁ h₂ h₃ h₄ =>
        refine .relay c handler i h₁ ?_ h₃ h₄
        intro p hp
        rcases hback n p hp with ⟨-, hold⟩ | ⟨heq, -⟩
        · exact h₂ p hold
        · exact absurd heq hnfd
      | admin i h₁ => exact .admin i (hkeep n _ h₁)
  · intro n hn
    simp only [hfds]
    rcases hback n _ hn with ⟨hne, hold⟩ | ⟨rfl, -⟩
    · rw [Function.update_of_ne hne]
      exact ho.listener n hold
    · rw [Function.update_self]
      exact hused
  · intro n c hn
    simp only [hfds]
    rcases hback n _ hn with ⟨hne, hold⟩ | ⟨rfl, rfl⟩
    · rw [Function.update_of_ne hne]
      exact ho.client n c hold
    · cases hunowned
  · intro c k hk
    obtain ⟨⟨n, hn, hown⟩, horigin, hrest⟩ := ho.conn c k hk
    refine ⟨⟨n, hn, hkeep n _ hown⟩, ?_, hrest⟩
    rcases horigin with h0 | h1 | ⟨m, hm, hpos, ⟨p, hp⟩ | ⟨hno, -⟩⟩
    · exact .inl h0
    · exact .inr (.inl h1)
    · exact .inr (.inr ⟨m, hm, hpos, .inl ⟨p, hkeep m _ hp⟩⟩)
    · cases hno
  · intro n hn
    obtain ⟨c, hc⟩ := ho.jobs n (hjobs ▸ hn)
    exact ⟨c, hkeep n _ hc⟩
  · rw [hsize]
    exact ho.fdSize

/-- A registration that names no connection changes no view. -/
theorem view_of_shared {sel : FdSelector} {k : Kernel} (ho : Owned none s) {fd : ℕ} {item : Item}
    (hnot : ∀ c, s.kernel.owner fd ≠ some (.client c))
    (hold : ∀ c, (s.selector.fds fd).relayOf c = none) (hnone : ∀ c, item.relayOf c = none)
    (hfds : sel.fds = Function.update s.selector.fds fd item)
    (hjobs : sel.resolutionJobs = s.selector.resolutionJobs) :
    (∀ n c, (sel.fds n).relayOf c = (s.selector.fds n).relayOf c) ∧
      ∀ c, ({ s with kernel := k, selector := sel } : Server).view c = s.view c := by
  have hrelayOf : ∀ n c, (sel.fds n).relayOf c = (s.selector.fds n).relayOf c := by
    intro n c
    rw [hfds]
    by_cases hn : n = fd
    · subst hn
      rw [Function.update_self, hnone, hold]
    · rw [Function.update_of_ne hn]
  refine ⟨hrelayOf, fun c => ?_⟩
  simp only [Server.view]
  cases hk : s.conns c with
  | none => rfl
  | some k' =>
    cases hm : s.stms c with
    | none => rfl
    | some m =>
      obtain ⟨⟨n, hn, hown⟩, -⟩ := ho.conn c k' hk
      have hne : n ≠ fd := by
        rintro rfl
        exact hnot c hown
      simp [hn, hfds, Function.update_of_ne hne, Server.relay, ← hrelayOf, Server.tokens, hjobs,
        Server.history]

/-- The state after a client was accepted under the next identity. -/
structure Accepted (s s' : Server) (k : Socks5Conn) : Prop where
  lt : s.kernel.lowest < ITEMS_MAX_SIZE
  free : (s.selector.fds s.kernel.lowest).used = false
  fds : s'.selector.fds = Function.update s.selector.fds s.kernel.lowest
    ⟨s.kernel.lowest, OP_READ, some .socks5Handler, some s.nextConn⟩
  kernel : s'.kernel = s.kernel.openFd s.kernel.lowest (.client s.nextConn)
  conns : s'.conns = Function.update s.conns s.nextConn (some k)
  stms : s'.stms = Function.update s.stms s.nextConn (some ⟨none⟩)
  nextConn : s'.nextConn = s.nextConn + 1
  clientFd : k.clientFd = s.kernel.lowest
  originFd : k.originFd = 0
  stm : k.stm = true
  addrInfo : k.addrInfo = []
  isErrorResponse : k.isErrorResponse = false
  inBuff : k.inBuff.content = [] ∧ k.inBuff.capacity = s.bufferSize
  outBuff : k.outBuff.content = [] ∧ k.outBuff.capacity = s.bufferSize
  trace : s'.trace = s.trace
  resolving : s'.resolving = s.resolving
  jobs : s'.selector.resolutionJobs = s.selector.resolutionJobs
  fdSize : s'.selector.fdSize = s.selector.fdSize
  bufferSize : s'.bufferSize = s.bufferSize

section Accepted

variable {k : Socks5Conn}

theorem Accepted.owner (h : Accepted s s' k) {n : ℕ} {o : FdOwner}
    (hn : s'.kernel.owner n = some o) :
    n ≠ s.kernel.lowest ∧ s.kernel.owner n = some o ∨
      n = s.kernel.lowest ∧ o = .client s.nextConn := by
  rw [h.kernel, Kernel.owner_openFd] at hn
  split at hn
  · rename_i heq
    exact .inr ⟨heq, (Option.some.inj hn).symm⟩
  · rename_i hne
    exact .inl ⟨hne, hn⟩

theorem Accepted.owner' (h : Accepted s s' k) {n : ℕ} {o : FdOwner}
    (hn : s.kernel.owner n = some o) : s'.kernel.owner n = some o := by
  have hne : n ≠ s.kernel.lowest := by
    rintro rfl
    rw [s.kernel.owner_lowest] at hn
    cases hn
  rw [h.kernel, Kernel.owner_openFd, if_neg hne, hn]

theorem Accepted.conn (h : Accepted s s' k) {d : ConnId} {k' : Socks5Conn}
    (hk : s'.conns d = some k') :
    d ≠ s.nextConn ∧ s.conns d = some k' ∨ d = s.nextConn ∧ k' = k := by
  rw [h.conns] at hk
  by_cases hd : d = s.nextConn
  · subst hd
    rw [Function.update_self] at hk
    exact .inr ⟨rfl, (Option.some.inj hk).symm⟩
  · rw [Function.update_of_ne hd] at hk
    exact .inl ⟨hd, hk⟩

theorem Accepted.conn' (h : Accepted s s' k) (ho : Owned none s) {d : ConnId} {k' : Socks5Conn}
    (hk : s.conns d = some k') : s'.conns d = some k' := by
  have hne : d ≠ s.nextConn := by
    rintro rfl
    rw [ho.conns_nextConn] at hk
    cases hk
  rw [h.conns, Function.update_of_ne hne, hk]

theorem Accepted.owned (h : Accepted s s' k) (ho : Owned none s) : Owned none s' where
  registered n hn := by
    rw [h.fds] at hn ⊢
    by_cases hnfd : n = s.kernel.lowest
    · subst hnfd
      rw [Function.update_self]
      exact ⟨h.lt, .client s.nextConn OP_READ (by simp [h.kernel])⟩
    · rw [Function.update_of_ne hnfd] at hn ⊢
      obtain ⟨hlt, hreg⟩ := ho.registered n hn
      refine ⟨hlt, ?_⟩
      generalize s.selector.fds n = it at hreg
      cases hreg with
      | listener handler i h₁ h₂ => exact .listener handler i (h.owner' h₁) h₂
      | client c i h₁ => exact .client c i (h.owner' h₁)
      | relay c handler i h₁ h₂ h₃ h₄ =>
        refine .relay c handler i h₁ ?_ ?_ ?_
        · intro o ho'
          rcases h.owner ho' with ⟨-, hold⟩ | ⟨heq, -⟩
          · exact h₂ o hold
          · exact absurd heq hnfd
        · intro k' hk'
          rcases h.conn hk' with ⟨-, hold⟩ | ⟨rfl, -⟩
          · exact h₃ k' hold
          · exact absurd h₄ (Nat.lt_irrefl _)
        · rw [h.nextConn]
          exact Nat.lt_succ_of_lt h₄
      | admin i h₁ => exact .admin i (h.owner' h₁)
  zero := h.owner' ho.zero
  listener n hn := by
    rw [h.fds]
    rcases h.owner hn with ⟨hne, hold⟩ | ⟨-, hno⟩
    · rw [Function.update_of_ne hne]
      exact ho.listener n hold
    · cases hno
  client n c hn := by
    rw [h.fds]
    rcases h.owner hn with ⟨hne, hold⟩ | ⟨rfl, hc⟩
    · rw [Function.update_of_ne hne]
      obtain ⟨hused, k', hk', hfd⟩ := ho.client n c hold
      exact ⟨hused, k', h.conn' ho hk', hfd⟩
    · obtain rfl := FdOwner.client.inj hc
      rw [Function.update_self]
      refine ⟨?_, k, by rw [h.conns, Function.update_self], h.clientFd⟩
      have hneg : ((s.kernel.lowest : ℤ) != -1) = true := by simp
      simp [Item.used, FD_UNUSED, hneg]
  conn d k' hk' := by
    rcases h.conn hk' with ⟨hne, hold⟩ | ⟨rfl, rfl⟩
    · obtain ⟨⟨n, hn, hown⟩, horigin, hstm, hsome⟩ := ho.conn d k' hold
      refine ⟨⟨n, hn, h.owner' hown⟩, ?_, hstm, ?_⟩
      · rcases horigin with h0 | h1 | ⟨m, hm, hpos, ⟨p, hp⟩ | ⟨hno, -⟩⟩
        · exact .inl h0
        · exact .inr (.inl h1)
        · exact .inr (.inr ⟨m, hm, hpos, .inl ⟨p, h.owner' hp⟩⟩)
        · cases hno
      · rw [h.stms, Function.update_of_ne hne]
        exact hsome
    · refine ⟨⟨s.kernel.lowest, h.clientFd, by simp [h.kernel]⟩, .inl h.originFd, h.stm, ?_⟩
      rw [h.stms, Function.update_self]
      rfl
  stm d hd := by
    by_cases hne : d = s.nextConn
    · subst hne
      rw [h.conns, Function.update_self]
      rfl
    · rw [h.stms, Function.update_of_ne hne] at hd
      rw [h.conns, Function.update_of_ne hne]
      exact ho.stm d hd
  known d hd := by
    rw [h.nextConn]
    by_cases hne : d = s.nextConn
    · subst hne
      exact Nat.lt_succ_self _
    · rw [h.conns, Function.update_of_ne hne] at hd
      exact Nat.lt_succ_of_lt (ho.known d hd)
  trace o hmem := by
    rw [h.nextConn]
    exact Nat.lt_succ_of_lt (ho.trace o (h.trace ▸ hmem))
  jobs n hn := by
    obtain ⟨c, hc⟩ := ho.jobs n (h.jobs ▸ hn)
    exact ⟨c, h.owner' hc⟩
  resolving d hd := by
    obtain ⟨k', hk'⟩ := Option.isSome_iff_exists.mp (ho.resolving d (h.resolving ▸ hd))
    rw [h.conn' ho hk']
    rfl
  fdSize := by rw [h.fdSize]; exact ho.fdSize

theorem Accepted.background (h : Accepted s s' k) (ho : Owned none s)
    (hsize : BUFF_MIN_LEN ≤ s.bufferSize) : Background s s' := by
  have hrelayOf : ∀ n c, (s'.selector.fds n).relayOf c = (s.selector.fds n).relayOf c := by
    intro n c
    rw [h.fds]
    by_cases hn : n = s.kernel.lowest
    · subst hn
      have hfree : ¬ (s.selector.fds s.kernel.lowest).used = true := by simp [h.free]
      rw [Function.update_self, relayOf_of_not_used hfree]
      simp [Item.relayOf, FdHandler.isRelay]
    · rw [Function.update_of_ne hn]
  have hhistory : ∀ c, s'.history c = s.history c := by
    intro c
    simp [Server.history, h.trace]
  refine ⟨h.owned ho, h.bufferSize ▸ hsize, fun c => ?_, hrelayOf, fun _ _ => h.conn' ho, h.jobs⟩
  by_cases hc : c = s.nextConn
  · subst hc
    refine .inr ⟨rfl, .inl ⟨⟨k, none, OP_READ, none, 0, []⟩, ?_, ?_⟩⟩
    · rw [view_eq_some_iff]
      refine ⟨by rw [h.conns, Function.update_self], by rw [h.stms, Function.update_self], ?_, ?_,
        ?_, ?_⟩
      · simp [h.clientFd, h.fds]
      · simp [Server.relay, h.originFd]
      · have hjobs : s.selector.resolutionJobs.count s.kernel.lowest = 0 := by
          rw [List.count_eq_zero]
          intro hmem
          obtain ⟨d, hd⟩ := ho.jobs _ hmem
          rw [s.kernel.owner_lowest] at hd
          cases hd
        have hresolving : s.resolving.count s.nextConn = 0 := by
          rw [List.count_eq_zero]
          intro hmem
          have hsome := ho.resolving _ hmem
          rw [ho.conns_nextConn] at hsome
          cases hsome
        simp [Server.tokens, h.clientFd, h.jobs, h.resolving, hjobs, hresolving]
      · rw [hhistory]
        exact ho.history_nextConn
    · exact
        { phase := rfl
          early := ⟨h.inBuff.1, h.originFd, rfl, h.addrInfo⟩
          outBuff := h.outBuff.1
          interest := rfl
          isErrorResponse := h.isErrorResponse
          relay := rfl
          inCapacity := by rw [h.inBuff.2]; exact hsize
          outCapacity := by rw [h.outBuff.2]; exact hsize
          history := rfl }
  · refine .inl ⟨?_, hhistory c⟩
    simp only [Server.view, h.conns, h.stms, Function.update_of_ne hc]
    cases hk : s.conns c with
    | none => rfl
    | some k' =>
      cases hm : s.stms c with
      | none => rfl
      | some m =>
        obtain ⟨⟨n, hn, hown⟩, -⟩ := ho.conn c k' hk
        have hne : n ≠ s.kernel.lowest := by
          rintro rfl
          rw [s.kernel.owner_lowest] at hown
          cases hown
        have hitem : s'.selector.fds n = s.selector.fds n := by
          rw [h.fds, Function.update_of_ne hne]
        simp [hn, hitem, Server.relay, hrelayOf, Server.tokens, h.jobs, h.resolving, hhistory]

end Accepted

/-- Unregistering a client whose state machine was never allocated. -/
theorem selectorUnregisterFd_unfinished {c : ConnId} {k : Socks5Conn} {fd : ℕ} {i : FdInterest}
    (hlt : fd < ITEMS_MAX_SIZE) (hpos : 0 < fd)
    (hitem : s.selector.fds fd = ⟨fd, i, some .socks5Handler, some c⟩)
    (hconn : s.conns c = some k) (hclient : k.clientFd = fd) (horigin : k.originFd = 0)
    (hstm : k.stm = false) :
    selectorUnregisterFd s fd = .ok ({ s with
      kernel := s.kernel.close fd
      metrics := s.metrics.decCurrConn
      conns := Function.update s.conns c none
      selector := removeItem s.selector fd
      trace := s.trace ++ [.released c] } : Server) := by
  have hused : (s.selector.fds fd).used = true := by
    have hneg : ((fd : ℤ) != -1) = true := by simp
    simp [hitem, Item.used, FD_UNUSED, hneg]
  have hvalid : invalidFd (fd : ℤ) = false := by
    simp only [invalidFd, Bool.or_eq_false_iff, decide_eq_false_iff_not]
    omega
  unfold selectorUnregisterFd
  rw [if_neg (by simp [hvalid, hused])]
  simp [hitem, handleClose, socksv5Close, Server.conn, hconn, hclient, horigin, hstm, hpos,
    Server.close, Server.note]

/-- An accept that has to give up after the registration leaves nothing behind. -/
theorem accept_undone (ho : Owned none s) (hsize : BUFF_MIN_LEN ≤ s.bufferSize) {t : Server}
    {k : Socks5Conn} (hlt : s.kernel.lowest < ITEMS_MAX_SIZE)
    (hfree : (s.selector.fds s.kernel.lowest).used = false)
    (hfds : t.selector.fds = Function.update s.selector.fds s.kernel.lowest
      ⟨s.kernel.lowest, OP_READ, some .socks5Handler, some s.nextConn⟩)
    (hkernel : t.kernel = s.kernel.openFd s.kernel.lowest (.client s.nextConn))
    (hconns : t.conns = Function.update s.conns s.nextConn (some k)) (hstms : t.stms = s.stms)
    (hnext : t.nextConn = s.nextConn + 1) (hclient : k.clientFd = s.kernel.lowest)
    (horigin : k.originFd = 0) (hstm : k.stm = false) (htrace : t.trace = s.trace)
    (hresolving : t.resolving = s.resolving)
    (hjobs : t.selector.resolutionJobs = s.selector.resolutionJobs)
    (hfdSize : t.selector.fdSize = s.selector.fdSize) (hbuffer : t.bufferSize = s.bufferSize) :
    ∃ s', selectorUnregisterFd t s.kernel.lowest = .ok s' ∧ Background s s' ∧
      s'.conns = s.conns ∧ s'.nextConn = s.nextConn + 1 ∧ s'.metrics = t.metrics.decCurrConn := by
  have hitem : t.selector.fds s.kernel.lowest =
      ⟨s.kernel.lowest, OP_READ, some .socks5Handler, some s.nextConn⟩ := by
    rw [hfds, Function.update_self]
  have hrestore : Function.update t.conns s.nextConn none = s.conns := by
    rw [hconns, Function.update_idem, ← ho.conns_nextConn, Function.update_eq_self]
  refine ⟨_, selectorUnregisterFd_unfinished hlt ho.lowest_pos hitem
    (by rw [hconns, Function.update_self]) hclient horigin hstm, ?_, hrestore, hnext, rfl⟩
  refine SameTable.background ⟨?_, ?_, hrestore, hstms, ?_, .inr ⟨by rw [htrace], ?_⟩, hresolving,
    ?_, ?_, hbuffer⟩ ho hsize
  · intro n
    simp only [fds_removeItem, hfds, Function.update_idem]
    by_cases hn : n = s.kernel.lowest
    · subst hn
      exact .inr ⟨hfree, by simp [itemInit, Item.used]⟩
    · exact .inl (Function.update_of_ne hn _ _)
  · simp only [hkernel]
    exact owner_openFd_close s.kernel _
  · simp only [hnext]
    exact Nat.le_succ _
  · simp only [hnext]
    exact Nat.lt_succ_self _
  · exact hjobs
  · exact hfdSize

/-- An accept that has its descriptor registered and then lacks the memory for a buffer or for
the state machine. -/
structure GivesUp (env : Env) (s : Server) : Prop where
  room : s.metrics.currentConnections.toNat < s.maxConn
  allocConn : env.allocConn = true
  peer : env.peer ≠ none
  lt : s.kernel.lowest < ITEMS_MAX_SIZE
  free : (s.selector.fds s.kernel.lowest).used = false
  lacks : (env.allocInBuff && env.allocOutBuff && env.allocStm) = false

/-- What an accept does to the records and to the counter. -/
inductive Admits (env : Env) (s s' : Server) : Prop
  | refused (hgives : ¬ GivesUp env s) (hconns : s'.conns = s.conns)
      (hnext : s'.nextConn = s.nextConn ∨ s'.nextConn = s.nextConn + 1)
      (hmetrics : s'.metrics = s.metrics)
  | accepted (hgives : ¬ GivesUp env s) (hroom : s.metrics.currentConnections.toNat < s.maxConn)
      (k : Socks5Conn) (hconns : s'.conns = Function.update s.conns s.nextConn (some k))
      (hnext : s'.nextConn = s.nextConn + 1)
      (hmetrics : s'.metrics = s.metrics.incCurrConn.incTotalConn)
  | undone (hgives : GivesUp env s) (hconns : s'.conns = s.conns)
      (hnext : s'.nextConn = s.nextConn + 1) (hmetrics : s'.metrics = s.metrics.decCurrConn)

/-- Every exit of the accept callback. -/
theorem socksv5PassiveAccept_background (ho : Owned none s) (hsize : BUFF_MIN_LEN ≤ s.bufferSize)
    (env : Env) :
    ∃ s', socksv5PassiveAccept env s = .ok s' ∧ Background s s' ∧ Admits env s s' := by
  have hsame := (sameTable_refl s).background ho hsize
  unfold socksv5PassiveAccept
  by_cases hfull : s.metrics.currentConnections.toNat ≥ s.maxConn
  · have hgives : ¬ GivesUp env s := fun h => absurd h.room (Nat.not_lt.mpr hfull)
    rw [if_pos hfull]
    by_cases hpeer : env.peer = none
    · rw [if_pos hpeer]
      exact ⟨s, rfl, hsame, .refused hgives rfl (.inl rfl) rfl⟩
    · rw [if_neg hpeer]
      refine ⟨_, rfl, SameTable.background ?_ ho hsize, .refused hgives rfl (.inl rfl) rfl⟩
      exact { sameTable_refl s with
        items := fun _ => .inl rfl
        owner := owner_openFd_close s.kernel _ }
  · rw [if_neg hfull]
    cases hconn : env.allocConn with
    | false =>
      exact ⟨s, rfl, hsame, .refused (fun h => by simp [h.allocConn] at hconn) rfl (.inl rfl) rfl⟩
    | true =>
      simp only [Bool.not_true, Bool.false_eq_true, if_false]
      have hrestore : Function.update (Function.update s.conns s.nextConn (some callocConn))
          s.nextConn none = s.conns := by
        rw [Function.update_idem, ← ho.conns_nextConn, Function.update_eq_self]
      rcases passiveAccept_cases (s := { s.setConn s.nextConn callocConn with
          nextConn := s.nextConn + 1 }) .socks5Handler (.client s.nextConn) (some s.nextConn) env
          ho.fdSize with ⟨hpeer, heq⟩ | ⟨sel, hpeer, hlt, hfree, hfds, hjobs, hfdSize, heq⟩ | ⟨hused, heq⟩
      · rw [heq]
        refine ⟨_, rfl, SameTable.background ?_ ho hsize,
          .refused (fun h => h.peer hpeer) hrestore (.inr rfl) rfl⟩
        exact { sameTable_refl s with
          items := fun _ => .inl rfl
          conns := hrestore
          nextConn := Nat.le_succ _
          trace := .inl rfl }
      · rw [heq]
        have hlookup : (Function.update s.conns s.nextConn (some callocConn)) s.nextConn =
            some callocConn := Function.update_self _ _ _
        rcases env.peer.getD ([], 0) with ⟨srcAddress, srcPort⟩
        simp only [Server.setConn, Server.conn, hlookup, ok_bind]
        have hundo : ∀ (t : Server) (k : Socks5Conn), t.selector = sel →
            t.kernel = s.kernel.openFd s.kernel.lowest (.client s.nextConn) →
            t.conns = Function.update s.conns s.nextConn (some k) → t.stms = s.stms →
            t.nextConn = s.nextConn + 1 → k.clientFd = s.kernel.lowest → k.originFd = 0 →
            k.stm = false → t.trace = s.trace → t.resolving = s.resolving →
            t.bufferSize = s.bufferSize → t.metrics = s.metrics →
            (env.allocInBuff && env.allocOutBuff && env.allocStm) = false →
            ∃ s', selectorUnregisterFd t s.kernel.lowest = .ok s' ∧ Background s s' ∧
              Admits env s s' := by
          rintro t k rfl h₁ h₂ h₃ h₄ h₅ h₆ h₇ h₈ h₉ h₁₀ hmetrics hlacks
          obtain ⟨s', hs', hb, hconns, hnext, hdec⟩ :=
            accept_undone ho hsize hlt hfree hfds h₁ h₂ h₃ h₄ h₅ h₆ h₇ h₈ h₉ hjobs hfdSize h₁₀
          have hgives : GivesUp env s := ⟨Nat.not_le.mp hfull, hconn, hpeer, hlt, hfree, hlacks⟩
          exact ⟨s', hs', hb, .undone hgives hconns hnext (hmetrics ▸ hdec)⟩
        cases hin : env.allocInBuff with
        | false =>
          simp only [Bool.not_false, if_true]
          exact hundo _ _ rfl rfl (Function.update_idem _ _ _) rfl rfl rfl rfl rfl rfl rfl rfl rfl
            (by simp [hin])
        | true =>
          cases hout : env.allocOutBuff with
          | false =>
            simp only [Bool.not_true, Bool.not_false, Bool.false_eq_true, if_false, if_true]
            exact hundo _ _ rfl rfl (Function.update_idem _ _ _) rfl rfl rfl rfl rfl rfl rfl rfl rfl
              (by simp [hout])
          | true =>
            cases hstm : env.allocStm with
            | false =>
              simp only [Bool.not_true, Bool.not_false, Bool.false_eq_true, if_false, if_true]
              exact hundo _ { callocConn with
                srcAddress := srcAddress
                srcPort := srcPort
                clientFd := s.kernel.lowest
                inBuff := bufferInit (s.junk.bytes s.bufferSize)
                outBuff := bufferInit (s.junk.bytes s.bufferSize) }
                rfl rfl (by simp only [Function.update_idem]) rfl rfl rfl rfl rfl rfl rfl rfl rfl
                (by simp [hstm])
            | true =>
              simp only [Bool.not_true, Bool.false_eq_true, if_false, pure_eq_ok]
              let k : Socks5Conn := { callocConn with
                srcAddress := srcAddress
                srcPort := srcPort
                clientFd := s.kernel.lowest
                inBuff := bufferInit (s.junk.bytes s.bufferSize)
                outBuff := bufferInit (s.junk.bytes s.bufferSize)
                stm := true }
              refine ⟨_, rfl, Accepted.background (k := k)
                ⟨hlt, hfree, hfds, rfl, by simp only [Function.update_idem, k], rfl, rfl, rfl, rfl, rfl,
                  rfl, rfl, ⟨?_, ?_⟩, ⟨?_, ?_⟩, rfl, rfl, hjobs, hfdSize, rfl⟩ ho hsize,
                .accepted (fun h => by simpa [hin, hout, hstm] using h.lacks) (Nat.not_le.mp hfull) k
                  (by simp only [Function.update_idem, k]) rfl rfl⟩
              · simp [k, Buffer.content, bufferInit]
              · simp [k, Buffer.capacity, bufferInit]
              · simp [k, Buffer.content, bufferInit]
              · simp [k, Buffer.capacity, bufferInit]
      · rw [heq]
        have hgives : ¬ GivesUp env s := by
          intro h
          have hfree := h.free
          rw [show (s.selector.fds s.kernel.lowest).used = true from hused h.lt] at hfree
          cases hfree
        refine ⟨_, rfl, SameTable.background ?_ ho hsize, .refused hgives hrestore (.inr rfl) rfl⟩
        exact { sameTable_refl s with
          items := fun _ => .inl rfl
          owner := owner_openFd_close s.kernel _
          conns := hrestore
          nextConn := Nat.le_succ _
          trace := .inl rfl }

/-- A registration that names no connection adds none. -/
theorem Owned.background_shared (ho : Owned none s) (hsize : BUFF_MIN_LEN ≤ s.bufferSize)
    {o : FdOwner} {item : Item} {sel : FdSelector} (hunowned : o.conn = none)
    (hlt : s.kernel.lowest < ITEMS_MAX_SIZE)
    (hfree : (s.selector.fds s.kernel.lowest).used = false) (hused : item.used = true)
    (hdata : item.data = none)
    (hfds : sel.fds = Function.update s.selector.fds s.kernel.lowest item)
    (hjobs : sel.resolutionJobs = s.selector.resolutionJobs)
    (hfdSize : sel.fdSize = s.selector.fdSize)
    (hitem : ∀ t : Server, t.kernel.owner s.kernel.lowest = some o →
      Registered t s.kernel.lowest item) :
    Background s { s with kernel := s.kernel.openFd s.kernel.lowest o, selector := sel } := by
  have hnone : ∀ c, item.relayOf c = none := by
    intro c
    unfold Item.relayOf
    split
    · rw [if_neg (by simp [hdata])]
    · rfl
  obtain ⟨hrelayOf, hview⟩ := view_of_shared (k := s.kernel.openFd s.kernel.lowest o) ho
    (fun c => by rw [s.kernel.owner_lowest]; simp)
    (fun c => relayOf_of_not_used (by simp [hfree])) hnone hfds hjobs
  exact ⟨ho.openShared rfl hunowned hlt hfree hused hfds hjobs hfdSize hitem, hsize,
    fun c => .inl ⟨hview c, rfl⟩, hrelayOf, fun _ _ hk => hk, hjobs⟩

theorem s5adminPassiveAccept_background (ho : Owned none s) (hsize : BUFF_MIN_LEN ≤ s.bufferSize)
    (env : Env) : Background s (s5adminPassiveAccept env s) := by
  unfold s5adminPassiveAccept
  split
  · exact (sameTable_refl s).background ho hsize
  · rcases passiveAccept_cases (s := s) .adminHandler .other none env ho.fdSize with
      ⟨-, heq⟩ | ⟨sel, -, hlt, hfree, hfds, hjobs, hfdSize, heq⟩ | ⟨-, heq⟩
    · rw [heq]
      exact (sameTable_refl s).background ho hsize
    · rw [heq]
      have hneg : ((s.kernel.lowest : ℤ) != -1) = true := by simp
      exact ho.background_shared hsize rfl hlt hfree (by simp [Item.used, FD_UNUSED, hneg]) rfl hfds
        hjobs hfdSize (fun t ht => .admin OP_READ ht)
    · rw [heq]
      exact SameTable.background { sameTable_refl s with
        items := fun _ => .inl rfl
        owner := owner_openFd_close s.kernel _ } ho hsize

/-- An administration registration belongs to the administration. -/
theorem Owned.admin_owner (ho : Owned none s) {fd : ℕ}
    (hadmin : isAdmin (s.selector.fds fd) = true) :
    fd < ITEMS_MAX_SIZE ∧ s.kernel.owner fd = some .other ∧
      ∃ i, s.selector.fds fd = ⟨fd, i, some .adminHandler, none⟩ := by
  simp only [isAdmin, Bool.and_eq_true, decide_eq_true_eq] at hadmin
  obtain ⟨hlt, hreg⟩ := ho.registered fd hadmin.1
  refine ⟨hlt, ?_⟩
  generalize s.selector.fds fd = it at hreg hadmin
  cases hreg with
  | listener handler i _ hpassive =>
    obtain rfl := Option.some.inj hadmin.2
    simp at hpassive
  | client c i _ => cases hadmin.2
  | relay c handler i hrelay =>
    obtain rfl := Option.some.inj hadmin.2
    cases hrelay
  | admin i howner => exact ⟨howner, i, rfl⟩

/-- The administration changes the interest of one of its own descriptors. -/
theorem adminInterest_background (ho : Owned none s) (hsize : BUFF_MIN_LEN ≤ s.bufferSize)
    {fd : ℕ} (hadmin : isAdmin (s.selector.fds fd) = true) (i : FdInterest) :
    Background s (s.setInterest fd i) := by
  obtain ⟨hlt, howner, j, hitem⟩ := ho.admin_owner hadmin
  have hskeleton := sameSkeleton_setInterest ho fd i
  have hfds : (s.setInterest fd i).selector.fds =
      Function.update s.selector.fds fd ⟨fd, i, some .adminHandler, none⟩ := by
    funext n
    rw [fds_setInterest s fd i n fun h => (ho.registered n h).1]
    by_cases hn : n = fd
    · subst hn
      rw [if_pos ⟨rfl, by simp only [isAdmin, Bool.and_eq_true] at hadmin; exact hadmin.1⟩,
        Function.update_self, hitem]
    · rw [if_neg (fun h => hn (by exact_mod_cast h.1)), Function.update_of_ne hn]
  obtain ⟨hrelayOf, hview⟩ := view_of_shared (k := s.kernel) ho
    (fun c => by rw [howner]; simp) (fun c => by rw [hitem]; simp [Item.relayOf])
    (fun c => by simp [Item.relayOf]) hfds (jobs_setInterest s fd i)
  exact ⟨ho.of_skeleton hskeleton, hsize, fun c => .inl ⟨hview c, rfl⟩, hrelayOf,
    fun _ _ hk => hk, jobs_setInterest s fd i⟩

/-- Closing a descriptor of the administration keeps the invariant. -/
theorem Owned.closeAdmin (ho : Owned none s) {fd : ℕ} {sel : FdSelector}
    (howner : s.kernel.owner fd = some .other)
    (hfds : sel.fds = Function.update s.selector.fds fd itemInit)
    (hjobs : sel.resolutionJobs = s.selector.resolutionJobs)
    (hsize : sel.fdSize = s.selector.fdSize) :
    Owned none { s with kernel := s.kernel.close fd, selector := sel } := by
  have hkeep : ∀ n o, s.kernel.owner n = some o → o ≠ .other →
      (s.kernel.close fd).owner n = some o := by
    intro n o hn hno
    rw [Kernel.owner_close, if_neg, hn]
    intro heq
    obtain rfl : n = fd := by exact_mod_cast heq
    rw [howner] at hn
    exact hno (Option.some.inj hn).symm
  have hback : ∀ n o, (s.kernel.close fd).owner n = some o →
      n ≠ fd ∧ s.kernel.owner n = some o := by
    intro n o hn
    rw [Kernel.owner_close] at hn
    split at hn
    · cases hn
    · rename_i hne
      exact ⟨fun h => hne (by exact_mod_cast h), hn⟩
  refine ⟨?_, hkeep 0 _ ho.zero (by simp), ?_, ?_, ?_, ho.stm, ho.known, ho.trace, ?_,
    ho.resolving, ?_⟩
  · intro n hn
    simp only [hfds] at hn ⊢
    by_cases hnfd : n = fd
    · subst hnfd
      rw [Function.update_self] at hn
      exact absurd hn not_used_itemInit
    · rw [Function.update_of_ne hnfd] at hn ⊢
      obtain ⟨hlt', hreg⟩ := ho.registered n hn
      refine ⟨hlt', ?_⟩
      generalize s.selector.fds n = it at hreg
      cases hreg with
      | listener handler i h₁ h₂ => exact .listener handler i (hkeep n _ h₁ (by simp)) h₂
      | client c i h₁ => exact .client c i (hkeep n _ h₁ (by simp))
      | relay c handler i h₁ h₂ h₃ h₄ =>
        exact .relay c handler i h₁ (fun p hp => h₂ p (hback n p hp).2) h₃ h₄
      | admin i h₁ =>
        refine .admin i ?_
        have hne : (n : ℤ) ≠ fd := by exact_mod_cast hnfd
        simp [Kernel.owner_close, hne, h₁]
  · intro n hn
    obtain ⟨hne, hold⟩ := hback n _ hn
    simp only [hfds, Function.update_of_ne hne]
    exact ho.listener n hold
  · intro n c hn
    obtain ⟨hne, hold⟩ := hback n _ hn
    simp only [hfds, Function.update_of_ne hne]
    exact ho.client n c hold
  · intro c k hk
    obtain ⟨⟨n, hn, hown⟩, horigin, hrest⟩ := ho.conn c k hk
    refine ⟨⟨n, hn, hkeep n _ hown (by simp)⟩, ?_, hrest⟩
    rcases horigin with h0 | h1 | ⟨m, hm, hpos, ⟨p, hp⟩ | ⟨hno, -⟩⟩
    · exact .inl h0
    · exact .inr (.inl h1)
    · exact .inr (.inr ⟨m, hm, hpos, .inl ⟨p, hkeep m _ hp (by simp)⟩⟩)
    · cases hno
  · intro n hn
    obtain ⟨c, hc⟩ := ho.jobs n (hjobs ▸ hn)
    exact ⟨c, hkeep n _ hc (by simp)⟩
  · rw [hsize]
    exact ho.fdSize

/-- The administration closes one of its own descriptors. -/
theorem adminClose_background (ho : Owned none s) (hsize : BUFF_MIN_LEN ≤ s.bufferSize)
    {fd : ℕ} (hadmin : isAdmin (s.selector.fds fd) = true) :
    ∃ s', selectorUnregisterFd s fd = .ok s' ∧ Background s s' := by
  obtain ⟨hlt, howner, i, hitem⟩ := ho.admin_owner hadmin
  have hfds := fds_removeItem s.selector fd
  obtain ⟨hrelayOf, hview⟩ := view_of_shared (k := s.kernel.close fd) ho
    (fun c => by rw [howner]; simp) (fun c => by rw [hitem]; simp [Item.relayOf])
    (fun c => rfl) hfds rfl
  refine ⟨{ s with kernel := s.kernel.close fd, selector := removeItem s.selector fd }, ?_, ?_⟩
  · have hused : (s.selector.fds fd).used = true := by
      simp only [isAdmin, Bool.and_eq_true] at hadmin
      exact hadmin.1
    have hvalid : invalidFd (fd : ℤ) = false := by
      simp only [invalidFd, Bool.or_eq_false_iff, decide_eq_false_iff_not]
      omega
    unfold selectorUnregisterFd
    rw [if_neg (by simp [hvalid, hused])]
    simp [hitem, handleClose, Server.close]
  · exact ⟨ho.closeAdmin howner hfds rfl rfl, hsize, fun c => .inl ⟨hview c, rfl⟩, hrelayOf,
      fun _ _ hk => hk, rfl⟩

/-- The administration changes the users or the configuration. -/
theorem configure_background (ho : Owned none s) (users : UserTable) {bufferSize : ℕ}
    (hsize : BUFF_MIN_LEN ≤ bufferSize) (maxConn : ℕ) :
    Background s { s with users := users, bufferSize := bufferSize, maxConn := maxConn } where
  owned := by
    have hskeleton : SameSkeleton s
        { s with users := users, bufferSize := bufferSize, maxConn := maxConn } :=
      { items := fun fd => ⟨(s.selector.fds fd).interest, rfl⟩, owner := rfl, ids := fun _ => rfl
        stms := fun _ => rfl, nextConn := rfl, resolving := rfl, jobs := rfl, fdSize := rfl
        trace := fun _ ho => .inl ho }
    exact ho.of_skeleton hskeleton
  bufferSize := hsize
  fates _ := .inl ⟨rfl, rfl⟩
  registrations _ _ := rfl
  kept _ _ hk := hk
  jobs := rfl

end Socks5d
