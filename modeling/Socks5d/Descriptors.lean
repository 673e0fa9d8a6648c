import Socks5d.Registrations

/-!
# Opening, closing and releasing

The primitives that change who owns a descriptor. A socket opened and closed again within one
attempt leaves no trace in the kernel; the one that is kept becomes `origin_fd`. Releasing the
connection closes both of its descriptors, and needs that no notification for it is under way.
-/

namespace Socks5d

open Fallible

variable {mode : Mode} {hole : Bool} {c : ConnId} {s₀ s s' : Server} {v v' : View}

/-- A connection with a registration towards its origin has set `origin_fd`. -/
theorem Owned.origin_ne_zero_of_relayOf {h : Option ConnId} (ho : Owned h s) {k : Socks5Conn}
    (hk : s.conns c = some k) {fd : ℕ} {r : FdHandler × FdInterest}
    (hr : (s.selector.fds fd).relayOf c = some r) : k.originFd ≠ 0 := by
  obtain ⟨hused, hhandler, hrelay, hdata, -⟩ := relayOf_eq_some_iff.mp hr
  obtain ⟨-, hreg⟩ := ho.registered fd hused
  generalize s.selector.fds fd = item at hreg hhandler hdata
  cases hreg with
  | listener _ _ _ _ => cases hdata
  | client d _ _ =>
    rw [← Option.some.inj hhandler] at hrelay
    cases hrelay
  | relay d _ _ _ _ horigin _ =>
    obtain rfl := Option.some.inj hdata
    exact horigin k hk
  | admin _ _ => cases hdata

/-- The descriptors as `socksv5_close` leaves them. -/
def closeBoth (s : Server) (k : Socks5Conn) : Server :=
  let s := if k.clientFd > 0 then s.close k.clientFd else s
  if k.originFd > 0 then s.close k.originFd else s

/-- The two descriptors have no owner any more. -/
theorem owner_closeBoth (s : Server) (k : Socks5Conn) (n : ℕ) :
    (closeBoth s k).kernel.owner n =
      if 0 < k.clientFd ∧ (n : ℤ) = k.clientFd ∨ 0 < k.originFd ∧ (n : ℤ) = k.originFd then none
      else s.kernel.owner n := by
  unfold closeBoth
  by_cases hc : 0 < k.clientFd
  · by_cases ho : 0 < k.originFd
    · simp only [gt_iff_lt, hc, ho, if_true, Server.close, Kernel.owner_close, true_and]
      by_cases h₁ : (n : ℤ) = k.originFd
      · simp [h₁]
      · by_cases h₂ : (n : ℤ) = k.clientFd
        · simp [h₂]
        · simp [h₁, h₂]
    · simp [hc, ho, Server.close, Kernel.owner_close]
  · by_cases ho : 0 < k.originFd
    · simp [hc, ho, Server.close, Kernel.owner_close]
    · simp [hc, ho]

/-- The state after the client's registration of a tracked connection was removed. -/
def releasedState (s : Server) (c : ConnId) (k : Socks5Conn) (fd : ℕ) : Server :=
  let s := closeBoth s k
  let s := { s with
    stms := Function.update s.stms c none
    metrics := s.metrics.decCurrConn
    conns := Function.update s.conns c none
    selector := removeItem s.selector fd }
  s.note (.released c)

/-- Closing concerns the kernel only. -/
theorem closeBoth_fields (s : Server) (k : Socks5Conn) :
    (closeBoth s k).stms = s.stms ∧ (closeBoth s k).conns = s.conns ∧
      (closeBoth s k).selector = s.selector ∧ (closeBoth s k).trace = s.trace ∧
      (closeBoth s k).resolving = s.resolving ∧ SameShared s (closeBoth s k) := by
  unfold closeBoth
  split
  · split
    · exact ⟨rfl, rfl, rfl, rfl, rfl, rfl, rfl, rfl, rfl, rfl⟩
    · exact ⟨rfl, rfl, rfl, rfl, rfl, rfl, rfl, rfl, rfl, rfl⟩
  · split
    · exact ⟨rfl, rfl, rfl, rfl, rfl, rfl, rfl, rfl, rfl, rfl⟩
    · exact ⟨rfl, rfl, rfl, rfl, rfl, rfl, rfl, rfl, rfl, rfl⟩

/-- The close callback of a tracked connection finds everything it releases. -/
theorem Tracks.unregisterClient_eq (h : Tracks mode hole c s₀ v s) :
    ∃ fd : ℕ, v.conn.clientFd = fd ∧
      selectorUnregisterFd s v.conn.clientFd = .ok (releasedState s c v.conn fd) := by
  obtain ⟨fd, i, hfd, hpos, hlt, hown, hitem, hne⟩ := h.client
  obtain ⟨hstms, hconns, hsel, htrace, hres, hshared⟩ := closeBoth_fields s v.conn
  refine ⟨fd, hfd, ?_⟩
  have hvalid : invalidFd (fd : ℤ) = false := by
    simp only [invalidFd, Bool.or_eq_false_iff, decide_eq_false_iff_not]
    omega
  have hused : (s.selector.fds fd).used = true := (h.owned.client fd c hown).1
  have hstm : v.conn.stm = true := (h.owned.conn c v.conn h.conns).2.2.1
  have hfree : socks5StmFree c (closeBoth s v.conn) =
      .ok { closeBoth s v.conn with stms := Function.update (closeBoth s v.conn).stms c none } := by
    simp [socks5StmFree, hstms, h.stms]
  have hclose : socksv5Close c s = .ok ({ closeBoth s v.conn with
      stms := Function.update (closeBoth s v.conn).stms c none
      metrics := (closeBoth s v.conn).metrics.decCurrConn
      conns := Function.update (closeBoth s v.conn).conns c none }.note (.released c)) := by
    unfold socksv5Close
    rw [h.conn_eq, ok_bind]
    simp only [hstm, if_true]
    change (socks5StmFree c (closeBoth s v.conn) >>= _) = _
    rw [hfree]
    rfl
  unfold selectorUnregisterFd
  simp only [hfd, hvalid, Int.toNat_natCast, hused, Bool.not_true, Bool.or_false,
    Bool.false_eq_true, if_false]
  have hhandle : handleClose (s.selector.fds fd) s = socksv5Close c s := by
    rw [hitem]
    rfl
  rw [hhandle, hclose, ok_bind]
  rfl

section Releases

variable {fd : ℕ}

/-- A release frees the record. -/
@[simp] theorem conns_releasedState (s : Server) (c : ConnId) (k : Socks5Conn) (fd : ℕ) :
    (releasedState s c k fd).conns = Function.update s.conns c none := by
  simp only [releasedState, Server.note, (closeBoth_fields s k).2.1]

/-- A release frees the state machine. -/
@[simp] theorem stms_releasedState (s : Server) (c : ConnId) (k : Socks5Conn) (fd : ℕ) :
    (releasedState s c k fd).stms = Function.update s.stms c none := by
  simp only [releasedState, Server.note, (closeBoth_fields s k).1]

/-- A release removes the entry of the client. -/
@[simp] theorem selector_releasedState (s : Server) (c : ConnId) (k : Socks5Conn) (fd : ℕ) :
    (releasedState s c k fd).selector = removeItem s.selector fd :=
  congrArg (removeItem · fd) (closeBoth_fields s k).2.2.1

/-- A release is noted. -/
@[simp] theorem trace_releasedState (s : Server) (c : ConnId) (k : Socks5Conn) (fd : ℕ) :
    (releasedState s c k fd).trace = s.trace ++ [.released c] :=
  congrArg (· ++ [Obs.released c]) (closeBoth_fields s k).2.2.2.1

/-- A release ends no resolution. -/
@[simp] theorem resolving_releasedState (s : Server) (c : ConnId) (k : Socks5Conn) (fd : ℕ) :
    (releasedState s c k fd).resolving = s.resolving :=
  (closeBoth_fields s k).2.2.2.2.1

/-- A release gives no number back. -/
@[simp] theorem nextConn_releasedState (s : Server) (c : ConnId) (k : Socks5Conn) (fd : ℕ) :
    (releasedState s c k fd).nextConn = s.nextConn :=
  (closeBoth_fields s k).2.2.2.2.2.nextConn

/-- The two descriptors of the record have no owner any more. -/
theorem owner_releasedState (s : Server) (c : ConnId) (k : Socks5Conn) (fd n : ℕ) :
    (releasedState s c k fd).kernel.owner n =
      if 0 < k.clientFd ∧ (n : ℤ) = k.clientFd ∨ 0 < k.originFd ∧ (n : ℤ) = k.originFd then none
      else s.kernel.owner n :=
  owner_closeBoth s k n

/-- A descriptor the release leaves open had its owner before. -/
theorem owner_of_releasedState {k : Socks5Conn} {n : ℕ} {o : FdOwner}
    (hn : (releasedState s c k fd).kernel.owner n = some o) : s.kernel.owner n = some o := by
  rw [owner_releasedState] at hn
  split at hn
  · cases hn
  · exact hn

/-- A release leaves no registration towards an origin where none is on record. -/
theorem Tracks.tidy_released (h : Tracks mode hole c s₀ v s)
    (hrelay : mode.tidy = true → v.relay = none) (htidy : mode.tidy = true) : Tidy c (releasedState s c v.conn fd) := by
  intro n r hr
  rw [selector_releasedState, fds_removeItem] at hr
  by_cases hn : n = fd
  · rw [hn, Function.update_self] at hr
    cases hr
  · rw [Function.update_of_ne hn] at hr
    obtain ⟨k, hk, hkfd⟩ := h.tidy htidy n r hr
    obtain rfl := Option.some.inj (h.conns.symm.trans hk)
    have hpos : 0 < v.conn.originFd := by
      have := h.owned.origin_ne_zero_of_relayOf hk hr
      omega
    obtain ⟨-, -, -, hshown, -, -⟩ := view_eq_some_iff.mp h.view
    rw [hrelay htidy, Server.relay, if_pos hpos, hkfd, Int.toNat_natCast, hr] at hshown
    cases hshown

variable (h : Tracks mode hole c s₀ v s) (hfd : v.conn.clientFd = fd)
include h hfd

/-- A descriptor of anybody else is neither of the two that are closed. -/
theorem Tracks.owner_released {n : ℕ} {o : FdOwner} (hn : s.kernel.owner n = some o)
    (hclient : o ≠ .client c) (horigin : ∀ p, o ≠ .origin c p) :
    (releasedState s c v.conn fd).kernel.owner n = some o ∧ n ≠ fd := by
  obtain ⟨fd', -, hfd', -, -, hown, -, -⟩ := h.client
  obtain rfl : fd' = fd := by omega
  have hne : n ≠ fd' := by
    rintro rfl
    rw [hown] at hn
    exact hclient (Option.some.inj hn).symm
  refine ⟨?_, hne⟩
  rw [owner_releasedState, if_neg, hn]
  rintro (⟨-, hn'⟩ | ⟨hpos, hn'⟩)
  · omega
  · obtain ⟨p, hp⟩ := h.origin_owner hn'.symm (by omega) o hn
    exact horigin p hp

/-- What stays registered goes with its owner. -/
theorem Tracks.registered_released {n : ℕ} (hn : n ≠ fd) (hused : (s.selector.fds n).used = true) :
    Registered (releasedState s c v.conn fd) n (s.selector.fds n) := by
  obtain ⟨-, hreg⟩ := h.owned.registered n hused
  generalize s.selector.fds n = item at hreg
  cases hreg with
  | listener handler i howner hnone =>
    exact .listener handler i (h.owner_released hfd howner (by simp) (by simp)).1 hnone
  | client d i howner =>
    have hd : d ≠ c := by
      rintro rfl
      obtain ⟨-, k, hk, hkfd⟩ := h.owned.client n d howner
      obtain rfl := Option.some.inj (h.conns.symm.trans hk)
      omega
    exact .client d i (h.owner_released hfd howner (by simpa using hd) (by simp)).1
  | relay d handler i hhandler howner horigin hknown =>
    refine .relay d handler i hhandler (fun o ho => howner o (owner_of_releasedState ho)) ?_
      (by simpa using hknown)
    intro k hk
    rw [conns_releasedState] at hk
    by_cases hd : d = c
    · subst hd
      simp at hk
    · rw [Function.update_of_ne hd] at hk
      exact horigin k hk
  | admin i howner => exact .admin i (h.owner_released hfd howner (by simp) (by simp)).1

/-- The client of another connection stays with it. -/
theorem Tracks.client_released {n : ℕ} {d : ConnId}
    (hn : (releasedState s c v.conn fd).kernel.owner n = some (.client d)) :
    d ≠ c ∧ n ≠ fd := by
  have hbefore := owner_of_releasedState hn
  have hd : d ≠ c := by
    rintro rfl
    obtain ⟨-, k, hk, hkfd⟩ := h.owned.client n d hbefore
    obtain rfl := Option.some.inj (h.conns.symm.trans hk)
    obtain ⟨fd', -, hfd', hpos, -⟩ := h.client
    rw [owner_releasedState, if_pos (.inl ⟨by omega, by omega⟩)] at hn
    cases hn
  exact ⟨hd, (h.owner_released hfd hbefore (by simpa using hd) (by simp)).2⟩

/-- The record of another connection keeps its descriptors. -/
theorem Tracks.conn_released {d : ConnId} {k : Socks5Conn} (hd : d ≠ c) (hk : s.conns d = some k) :
    (∃ n : ℕ, k.clientFd = n ∧
        (releasedState s c v.conn fd).kernel.owner n = some (.client d)) ∧
      OriginOwned none (releasedState s c v.conn fd) d k := by
  obtain ⟨⟨n, hn, howner⟩, horigin, -, -⟩ := h.owned.conn d k hk
  refine ⟨⟨n, hn, (h.owner_released hfd howner (by simpa using hd) (by simp)).1⟩, ?_⟩
  rcases horigin with hunset | hgiven | ⟨m, hm, hpos, ⟨p, hp⟩ | ⟨hhole, -⟩⟩
  · exact .inl hunset
  · exact .inr (.inl hgiven)
  · exact .inr (.inr ⟨m, hm, hpos, .inl ⟨p, (h.owner_released hfd hp (by simp) (by simp [hd])).1⟩⟩)
  · cases hole with
    | false => cases hhole
    | true => exact absurd (Option.some.inj hhole).symm hd

/-- A release leaves the descriptors of all others owned. -/
theorem Tracks.owned_released (htokens : v.tokens = 0) :
    Owned none (releasedState s c v.conn fd) := by
  obtain ⟨-, -, -, -, hcount, -⟩ := view_eq_some_iff.mp h.view
  rw [htokens, Server.tokens, Nat.add_eq_zero_iff, List.count_eq_zero, List.count_eq_zero, hfd,
    Int.toNat_natCast] at hcount
  have hother : ∀ {d : ConnId} {α : Type} {f : ConnId → Option α},
      (Function.update f c none d).isSome = true → d ≠ c ∧ (f d).isSome = true := by
    intro d α f hd
    by_cases hdc : d = c
    · subst hdc
      simp at hd
    · exact ⟨hdc, by rwa [Function.update_of_ne hdc] at hd⟩
  constructor
  case registered =>
    intro n hused
    rw [selector_releasedState, fds_removeItem] at hused ⊢
    by_cases hn : n = fd
    · rw [hn, Function.update_self] at hused
      exact absurd hused not_used_itemInit
    · rw [Function.update_of_ne hn] at hused ⊢
      exact ⟨(h.owned.registered n hused).1, h.registered_released hfd hn hused⟩
  case zero => exact (h.owner_released hfd h.owned.zero (by simp) (by simp)).1
  case listener =>
    intro n hn
    have hbefore := owner_of_releasedState hn
    have hne := (h.owner_released hfd hbefore (by simp) (by simp)).2
    rw [selector_releasedState, fds_removeItem, Function.update_of_ne hne]
    exact h.owned.listener n hbefore
  case client =>
    intro n d hn
    obtain ⟨hd, hne⟩ := h.client_released hfd hn
    rw [selector_releasedState, fds_removeItem, Function.update_of_ne hne, conns_releasedState,
      Function.update_of_ne hd]
    exact h.owned.client n d (owner_of_releasedState hn)
  case conn =>
    intro d k hk
    have hd : d ≠ c := by
      rintro rfl
      simp at hk
    rw [conns_releasedState, Function.update_of_ne hd] at hk
    obtain ⟨-, -, hstm, hsome⟩ := h.owned.conn d k hk
    obtain ⟨hclient, horigin⟩ := h.conn_released hfd hd hk
    exact ⟨hclient, horigin, hstm, by rwa [stms_releasedState, Function.update_of_ne hd]⟩
  case stm =>
    intro d hd
    obtain ⟨hdc, hd⟩ := hother (stms_releasedState .. ▸ hd)
    rw [conns_releasedState, Function.update_of_ne hdc]
    exact h.owned.stm d hd
  case known =>
    intro d hd
    rw [nextConn_releasedState]
    exact h.owned.known d (hother (conns_releasedState .. ▸ hd)).2
  case trace =>
    intro o ho
    rw [trace_releasedState] at ho
    rw [nextConn_releasedState]
    rcases List.mem_append.mp ho with ho | ho
    · exact h.owned.trace o ho
    · obtain rfl := List.mem_singleton.mp ho
      exact h.owned.known c (by simp [h.conns])
  case jobs =>
    intro n hn
    rw [selector_releasedState, jobs_removeItem] at hn
    obtain ⟨d, hd⟩ := h.owned.jobs n hn
    have hdc : d ≠ c := by
      rintro rfl
      obtain ⟨-, k, hk, hkfd⟩ := h.owned.client n d hd
      obtain rfl := Option.some.inj (h.conns.symm.trans hk)
      obtain rfl : n = fd := by omega
      exact hcount.1 hn
    exact ⟨d, (h.owner_released hfd hd (by simpa using hdc) (by simp)).1⟩
  case resolving =>
    intro d hd
    rw [resolving_releasedState] at hd
    have hdc : d ≠ c := by
      rintro rfl
      exact hcount.2 hd
    rw [conns_releasedState, Function.update_of_ne hdc]
    exact h.owned.resolving d hd
  case fdSize =>
    rw [selector_releasedState, fdSize_removeItem]
    exact h.owned.fdSize

/-- A release stays within the frame of its connection. -/
theorem Tracks.frame_released : Frame mode.zero c s₀ (releasedState s c v.conn fd) := by
  obtain ⟨fd', -, hfd', -, -, hown, -, -⟩ := h.client
  obtain rfl : fd' = fd := by omega
  obtain ⟨-, -, -, -, -, hshared⟩ := closeBoth_fields s v.conn
  obtain ⟨t, ht, -⟩ := h.frame.trace
  have hmore : ∃ u, (releasedState s c v.conn fd').trace = s.trace ++ u :=
    ⟨_, trace_releasedState ..⟩
  apply h.frame.step
  case hconns =>
    intro d hd
    rw [conns_releasedState, Function.update_of_ne hd]
  case hstms =>
    intro d hd
    rw [stms_releasedState, Function.update_of_ne hd]
  case hitems =>
    intro n
    by_cases hn : n = fd'
    · exact .inr (.inl (hn ▸ h.frame.touched_of_owner (.inl hown)))
    · rw [selector_releasedState, fds_removeItem, Function.update_of_ne hn]
      exact .inl rfl
  case howners =>
    intro n
    rw [owner_releasedState]
    split
    · rename_i hclosed
      refine .inr ⟨?_, .inl rfl⟩
      rcases hclosed with ⟨-, hn⟩ | ⟨hpos, hn⟩
      · obtain rfl : n = fd' := by omega
        exact (h.frame.touched_of_owner (.inl hown)).extend ⟨t, ht⟩ hmore
      · exact (h.origin n hn.symm (by omega)).extend ⟨t, ht⟩ hmore
    · exact .inl rfl
  case hregistrations =>
    intro n d _ r hr
    rw [selector_releasedState, fds_removeItem] at hr
    by_cases hn : n = fd'
    · rw [hn, Function.update_self] at hr
      cases hr
    · rw [Function.update_of_ne hn] at hr
      exact ⟨r.2, hr⟩
  case htrace => exact ⟨_, trace_releasedState .., by simp [Obs.conn]⟩
  case hresolving =>
    intro d _
    rw [resolving_releasedState]
  case hjobs => exact ⟨[], by simp, by simp⟩
  case hshared =>
    exact ⟨hshared.nextConn, hshared.users, hshared.bufferSize, hshared.maxConn, hshared.junk⟩

end Releases

/-- Unregistering the client releases the connection. -/
theorem Tracks.release (h : Tracks mode hole c s₀ v s) (htokens : v.tokens = 0)
    (hrelay : mode.tidy = true → v.relay = none) :
    ∃ s', selectorUnregisterFd s v.conn.clientFd = .ok s' ∧
      Released mode c s₀ (v.history ++ [.released c]) s' := by
  obtain ⟨fd, hfd, heq⟩ := h.unregisterClient_eq
  refine ⟨_, heq, ?_⟩
  constructor
  case owned => exact h.owned_released hfd htokens
  case conns => simp
  case stms => simp
  case history_eq =>
    obtain ⟨-, -, -, -, -, hhistory⟩ := view_eq_some_iff.mp h.view
    rw [Server.history, trace_releasedState, List.filter_append, ← hhistory]
    simp [Server.history, Obs.conn]
  case frame => exact h.frame_released hfd
  case tidy => exact h.tidy_released hrelay

/-- A registration is judged by the owners, the records and the known connections only. -/
theorem Registered.of_eq {fd : ℕ} {item : Item} (h : Registered s fd item)
    (howner : s'.kernel.owner = s.kernel.owner) (hconns : s'.conns = s.conns)
    (hnext : s'.nextConn = s.nextConn) : Registered s' fd item := by
  cases h with
  | listener handler i h₁ h₂ => exact .listener handler i (howner ▸ h₁) h₂
  | client d i h₁ => exact .client d i (howner ▸ h₁)
  | relay d handler i h₁ h₂ h₃ h₄ =>
    exact .relay d handler i h₁ (howner ▸ h₂) (hconns ▸ h₃) (hnext ▸ h₄)
  | admin i h₁ => exact .admin i (howner ▸ h₁)

/-- What is registered stays so while the table, the kernel and the records do. -/
theorem Owned.registered_of_eq {h : Option ConnId} (ho : Owned h s)
    (hfds : s'.selector.fds = s.selector.fds) (howner : s'.kernel.owner = s.kernel.owner)
    (hconns : s'.conns = s.conns) (hnext : s'.nextConn = s.nextConn) :
    ∀ fd, (s'.selector.fds fd).used = true →
      fd < ITEMS_MAX_SIZE ∧ Registered s' fd (s'.selector.fds fd) := by
  intro fd hused
  rw [hfds] at hused ⊢
  obtain ⟨hlt, hreg⟩ := ho.registered fd hused
  exact ⟨hlt, hreg.of_eq howner hconns hnext⟩

/-! ### Opening and closing on the way -/

/-- An invariant without exceptions holds with one. -/
theorem Owned.weaken (h : Owned none s) (c : ConnId) : Owned (some c) s :=
  { h with
    conn := fun d k hk => by
      obtain ⟨hfd, horigin, hrest⟩ := h.conn d k hk
      refine ⟨hfd, ?_, hrest⟩
      rcases horigin with h0 | h1 | ⟨n, hn, hpos, ⟨p, hp⟩ | ⟨hhole, -⟩⟩
      · exact .inl h0
      · exact .inr (.inl h1)
      · exact .inr (.inr ⟨n, hn, hpos, .inl ⟨p, hp⟩⟩)
      · cases hhole }

/-- Of the descriptors only sockets towards origins were opened or closed. -/
structure OriginsChange (s s' : Server) : Prop where
  kept : ∀ n o, s.kernel.owner n = some o → (∀ d p, o ≠ .origin d p) → s'.kernel.owner n = some o
  back : ∀ n o, s'.kernel.owner n = some o → s.kernel.owner n = some o ∨ ∃ d p, o = .origin d p
  selector : s'.selector = s.selector
  conns : s'.conns = s.conns
  stms : s'.stms = s.stms
  nextConn : s'.nextConn = s.nextConn
  resolving : s'.resolving = s.resolving

/-- Closing a socket towards an origin changes nothing else. -/
theorem originsChange_close {fd : ℤ}
    (hfd : ∀ n : ℕ, (n : ℤ) = fd → ∀ o, s.kernel.owner n = some o → ∃ d p, o = .origin d p) :
    OriginsChange s (s.close fd) where
  kept n o hn hno := by
    simp only [Server.close, Kernel.owner_close]
    rw [if_neg, hn]
    intro heq
    obtain ⟨d, p, rfl⟩ := hfd n heq o hn
    exact hno d p rfl
  back n o hn := by
    simp only [Server.close, Kernel.owner_close] at hn
    split at hn
    · cases hn
    · exact .inl hn
  selector := rfl
  conns := rfl
  stms := rfl
  nextConn := rfl
  resolving := rfl

/-- So does opening one. -/
theorem originsChange_openSocket (s : Server) (c : ConnId) (rp : AddrInfo) :
    OriginsChange s (Socks5d.openSocket c rp s).2 where
  kept n o hn _ := by
    have hne : n ≠ s.kernel.lowest := by
      rintro rfl
      rw [s.kernel.owner_lowest] at hn
      cases hn
    simpa [Socks5d.openSocket, Server.note, Kernel.owner_openFd_of_ne _ _ hne] using hn
  back n o hn := by
    simp only [Socks5d.openSocket, Server.note, Kernel.owner_openFd] at hn
    split at hn
    · exact .inr ⟨c, rp, (Option.some.inj hn).symm⟩
    · exact .inl hn
  selector := rfl
  conns := rfl
  stms := rfl
  nextConn := rfl
  resolving := rfl

/-- The descriptors stay owned when sockets towards origins come and go, as long as each record
still has its own. -/
theorem Owned.of_originsChange {h h' : Option ConnId} (ho : Owned h s) (hs : OriginsChange s s')
    (htrace : ∀ o ∈ s'.trace, o.conn < s.nextConn)
    (horigin : ∀ d k, OriginOwned h s d k → OriginOwned h' s' d k) : Owned h' s' := by
  constructor
  case registered =>
    intro n hused
    rw [hs.selector] at hused ⊢
    obtain ⟨hlt, hreg⟩ := ho.registered n hused
    refine ⟨hlt, ?_⟩
    generalize s.selector.fds n = item at hreg
    cases hreg with
    | listener handler j howner hp => exact .listener handler j (hs.kept n _ howner (by simp)) hp
    | client d j howner => exact .client d j (hs.kept n _ howner (by simp))
    | relay d handler j hrelay howner hne hknown =>
      refine .relay d handler j hrelay (fun o hn => ?_) (hs.conns ▸ hne) (hs.nextConn ▸ hknown)
      exact (hs.back n o hn).elim (howner o) id
    | admin j howner => exact .admin j (hs.kept n _ howner (by simp))
  case zero => exact hs.kept 0 _ ho.zero (by simp)
  case listener =>
    intro n hn
    rw [hs.selector]
    rcases hs.back n _ hn with hold | ⟨d, p, hno⟩
    · exact ho.listener n hold
    · cases hno
  case client =>
    intro n d hn
    rw [hs.selector, hs.conns]
    rcases hs.back n _ hn with hold | ⟨d', p, hno⟩
    · exact ho.client n d hold
    · cases hno
  case conn =>
    intro d k hk
    rw [hs.conns] at hk
    rw [hs.stms]
    obtain ⟨⟨n, hn, howner⟩, howned, hstm, hsome⟩ := ho.conn d k hk
    exact ⟨⟨n, hn, hs.kept n _ howner (by simp)⟩, horigin d k howned, hstm, hsome⟩
  case stm =>
    rw [hs.stms, hs.conns]
    exact ho.stm
  case known =>
    rw [hs.conns, hs.nextConn]
    exact ho.known
  case trace => exact hs.nextConn ▸ htrace
  case jobs =>
    intro n hn
    rw [hs.selector] at hn
    obtain ⟨d, hd⟩ := ho.jobs n hn
    exact ⟨d, hs.kept n _ hd (by simp)⟩
  case resolving =>
    rw [hs.resolving, hs.conns]
    exact ho.resolving
  case fdSize => exact hs.selector ▸ ho.fdSize

/-- The owners decide which descriptor is the lowest free one. -/
theorem Kernel.lowest_congr {k k' : Kernel} (h : k'.owner = k.owner) : k'.lowest = k.lowest := by
  refine Kernel.lowest_eq k' ?_ ?_
  · rw [h]
    exact k.owner_lowest
  · intro n hn
    have := k.isOpen_of_lt_lowest hn
    simpa [Kernel.isOpen, h] using this

namespace Tracks

/-- A callback may close `origin_fd` at any time. -/
theorem toHole (h : Tracks mode hole c s₀ v s) : Tracks mode true c s₀ v s := by
  cases hole with
  | true => exact h
  | false => exact ⟨Owned.weaken h.owned c, h.view, h.frame, h.tidy, h.copies, h.origin⟩

/-- Descriptor 0 stays open, so no socket of a connection gets that number. -/
theorem lowest_pos (h : Tracks mode hole c s₀ v s) : 0 < s.kernel.lowest := by
  rcases Nat.eq_zero_or_pos s.kernel.lowest with heq | hpos
  · have := s.kernel.owner_lowest
    rw [heq, h.owned.zero] at this
    cases this
  · exact hpos

/-- The descriptor about to be opened has not been another connection's since the start. -/
theorem touched_lowest (h : Tracks mode hole c s₀ v s) {trace : List Obs}
    (htrace : ∃ t, trace = s.trace ++ [.opened c s.kernel.lowest] ++ t)
    (hs' : s'.trace = trace) : Touched c s₀ s' s.kernel.lowest := by
  obtain ⟨t, ht⟩ := htrace
  obtain ⟨u, hu, -⟩ := h.frame.trace
  rcases h.frame.owners s.kernel.lowest with heq | ⟨htouched, -⟩
  · refine .inr (.inr ⟨?_, ?_⟩)
    · rw [← heq]
      exact s.kernel.owner_lowest
    · rw [hs', ht, hu, List.append_assoc, List.append_assoc, List.drop_left]
      simp
  · exact htouched.extend ⟨u, hu⟩ ⟨[.opened c s.kernel.lowest] ++ t, by
      rw [hs', ht, List.append_assoc]⟩

/-- The descriptor of a record's own origin may be closed in its own callback. -/
theorem owned_closeOrigin (h : Tracks mode hole c s₀ v s) (hne : v.conn.originFd ≠ 0) :
    Owned (some c) (s.close v.conn.originFd) := by
  have hself : ∀ n : ℕ, (n : ℤ) = v.conn.originFd → ∀ o, s.kernel.owner n = some o →
      ∃ p, o = .origin c p := fun n heq o hn => h.origin_owner heq.symm (by omega) o hn
  refine h.toHole.owned.of_originsChange
    (originsChange_close fun n heq o hn => ⟨c, hself n heq o hn⟩) h.owned.trace ?_
  rintro d k (h0 | h1 | ⟨m, hm, hpos, hopen⟩)
  · exact .inl h0
  · exact .inr (.inl h1)
  · refine .inr (.inr ⟨m, hm, hpos, ?_⟩)
    simp only [Server.close, Kernel.owner_close]
    by_cases hclosed : (m : ℤ) = v.conn.originFd
    · rw [if_pos hclosed]
      refine .inr ⟨?_, rfl⟩
      rcases hopen with ⟨p, hp⟩ | ⟨hhole, -⟩
      · obtain ⟨q, hq⟩ := hself m hclosed _ hp
        cases hq
        rfl
      · exact hhole
    · rw [if_neg hclosed]
      exact hopen

/-- Close the descriptor in `origin_fd`, leaving the number there. -/
theorem closeOrigin (h : Tracks mode hole c s₀ v s) (hne : v.conn.originFd ≠ 0) :
    Tracks mode true c s₀ v (s.close v.conn.originFd) := by
  obtain ⟨hk, hm, hi, hr, ht, hh⟩ := view_eq_some_iff.mp h.view
  refine ⟨h.owned_closeOrigin hne, ?_, ?_, h.tidy, h.copies, h.origin⟩
  · rw [view_eq_some_iff]
    exact ⟨hk, hm, hi, hr, ht, hh⟩
  · refine h.frame.step (fun _ _ => rfl) (fun _ _ => rfl) (fun _ => .inl rfl) ?_
      (fun _ _ _ r hr => ⟨r.2, hr⟩) ⟨[], by simp [Server.close], by simp⟩ (fun _ _ => rfl)
      ⟨[], by simp [Server.close], by simp⟩ ⟨rfl, rfl, rfl, rfl, rfl⟩
    intro n
    simp only [Server.close, Kernel.owner_close]
    split
    · rename_i heq
      exact .inr ⟨h.origin n heq.symm (by omega), .inl rfl⟩
    · exact .inl rfl

/-- A socket that was opened for a connection is owned by it. -/
theorem owned_openSocket (h : Tracks mode hole c s₀ v s) (rp : AddrInfo) :
    Owned (cond hole (some c) none) (Socks5d.openSocket c rp s).2 := by
  refine h.owned.of_originsChange (originsChange_openSocket s c rp) ?_ ?_
  · intro o ho
    rcases List.mem_append.mp ho with hold | hnew
    · exact h.owned.trace o hold
    · obtain rfl := List.mem_singleton.mp hnew
      exact h.owned.known c (by simp [h.conns])
  · rintro d k (h0 | h1 | ⟨m, hm, hpos, hopen⟩)
    · exact .inl h0
    · exact .inr (.inl h1)
    · refine .inr (.inr ⟨m, hm, hpos, ?_⟩)
      simp only [Socks5d.openSocket, Server.note, Kernel.owner_openFd]
      by_cases hml : m = s.kernel.lowest
      · -- the number was free, so it is the one just closed by this callback
        rw [if_pos hml]
        rcases hopen with ⟨p, hp⟩ | ⟨hhole, -⟩
        · rw [hml, s.kernel.owner_lowest] at hp
          cases hp
        · cases hole with
          | false => cases hhole
          | true =>
            obtain rfl := Option.some.inj hhole
            exact .inl ⟨rp, rfl⟩
      · rw [if_neg hml]
        exact hopen

/-- Open a socket for the connection. -/
theorem openSocket (h : Tracks mode hole c s₀ v s) (rp : AddrInfo) :
    Tracks mode hole c s₀ { v with history := v.history ++ [.opened c s.kernel.lowest] }
      (Socks5d.openSocket c rp s).2 := by
  obtain ⟨hk, hm, hi, hr, ht, hh⟩ := view_eq_some_iff.mp h.view
  refine ⟨h.owned_openSocket rp, ?_, ?_, h.tidy, h.copies, ?_⟩
  · rw [view_eq_some_iff]
    refine ⟨hk, hm, hi, hr, ht, ?_⟩
    simp only [← hh, Server.history, Socks5d.openSocket, Server.note]
    simp [Obs.conn]
  · refine h.frame.step (fun _ _ => rfl) (fun _ _ => rfl) (fun _ => .inl rfl) ?_
      (fun _ _ _ r hr => ⟨r.2, hr⟩) ⟨[.opened c s.kernel.lowest], rfl, by simp [Obs.conn]⟩ (fun _ _ => rfl)
      ⟨[], rfl, by simp⟩ ⟨rfl, rfl, rfl, rfl, rfl⟩
    intro n
    by_cases hn : n = s.kernel.lowest
    · subst hn
      exact .inr ⟨h.touched_lowest ⟨[], rfl⟩ (by simp [Socks5d.openSocket, Server.note]),
        .inr ⟨rp, by simp [Socks5d.openSocket, Server.note]⟩⟩
    · exact .inl (by simp [Socks5d.openSocket, Server.note, Kernel.owner_openFd_of_ne _ _ hn])
  · intro n hn hpos
    obtain ⟨u, hu, -⟩ := h.frame.trace
    exact (h.origin n hn hpos).extend ⟨u, hu⟩ ⟨_, rfl⟩

/-- A failed attempt opens a socket and closes it again. -/
theorem attemptFails (h : Tracks mode hole c s₀ v s) (rp : AddrInfo) (e : Errno) :
    Tracks mode hole c s₀ { v with history := v.history ++ [.opened c s.kernel.lowest] }
        (((Socks5d.openSocket c rp s).2.setErrno e).close s.kernel.lowest) ∧
      (((Socks5d.openSocket c rp s).2.setErrno e).close s.kernel.lowest).kernel.owner =
        s.kernel.owner ∧
      Touched c s₀ (((Socks5d.openSocket c rp s).2.setErrno e).close s.kernel.lowest)
        s.kernel.lowest := by
  obtain ⟨hk, hm, hi, hr, ht, hh⟩ := view_eq_some_iff.mp h.view
  have howner : (((Socks5d.openSocket c rp s).2.setErrno e).close s.kernel.lowest).kernel.owner =
      s.kernel.owner := by
    funext n
    simp only [Server.close, Server.setErrno, Socks5d.openSocket, Server.note, Kernel.owner_close,
      Kernel.owner_openFd]
    by_cases heq : n = s.kernel.lowest
    · rw [if_pos (by omega), heq]
      exact s.kernel.owner_lowest.symm
    · rw [if_neg (by omega), if_neg heq]
  refine ⟨?_, howner, h.touched_lowest ⟨[], rfl⟩
    (by simp [Server.close, Server.setErrno, Socks5d.openSocket, Server.note])⟩
  refine h.of_skeleton ?_ ?_ rfl id (fun _ _ => rfl) (fun _ _ => rfl) (fun _ => .inl rfl)
    ⟨[.opened c s.kernel.lowest], rfl, by simp [Obs.conn]⟩ ⟨rfl, rfl, rfl, rfl, rfl⟩
  · refine ⟨fun fd => ⟨_, rfl⟩, howner, fun _ => rfl, fun _ => rfl, rfl, rfl, rfl, rfl, ?_⟩
    intro o ho
    rcases List.mem_append.mp ho with hold | hnew
    · exact .inl hold
    · obtain rfl := List.mem_singleton.mp hnew
      exact .inr (h.owned.known c (by simp [hk]))
  · rw [view_eq_some_iff]
    refine ⟨hk, hm, hi, hr, ht, ?_⟩
    simp only [← hh, Server.history, Socks5d.openSocket, Server.note, Server.close,
      Server.setErrno]
    simp [Obs.conn]

/-- A record with another `origin_fd` that is its own keeps the descriptors owned. -/
theorem owned_setOrigin {b : Bool} (h : Tracks mode hole c s₀ v s) (k : Socks5Conn)
    (hclient : k.clientFd = v.conn.clientFd) (hstm : k.stm = v.conn.stm)
    (hne : k.originFd ≠ 0) (horigin : OriginOwned (cond b (some c) none) s c k) :
    Owned (cond b (some c) none) (s.setConn c k) := by
  have hother : ∀ d, d ≠ c → (s.setConn c k).conns d = s.conns d := by
    intro d hd
    simp [Server.setConn, hd]
  have hself : (s.setConn c k).conns c = some k := by simp [Server.setConn]
  have hsome : ∀ d, ((s.setConn c k).conns d).isSome = (s.conns d).isSome := by
    intro d
    by_cases hd : d = c
    · subst hd
      rw [hself, h.conns]
      rfl
    · rw [hother d hd]
  constructor
  case registered =>
    intro n hused
    obtain ⟨hlt, hreg⟩ := h.owned.registered n hused
    refine ⟨hlt, ?_⟩
    change Registered _ n (s.selector.fds n)
    generalize s.selector.fds n = item at hreg
    cases hreg with
    | listener handler j howner hp => exact .listener handler j howner hp
    | client d j howner => exact .client d j howner
    | relay d handler j hrelay howner hunset hknown =>
      refine .relay d handler j hrelay howner (fun k' hk' => ?_) hknown
      by_cases hd : d = c
      · subst hd
        rw [hself] at hk'
        obtain rfl := Option.some.inj hk'
        exact hne
      · exact hunset k' (hother d hd ▸ hk')
    | admin j howner => exact .admin j howner
  case zero => exact h.owned.zero
  case listener => exact h.owned.listener
  case client =>
    intro n d hn
    obtain ⟨hused, k', hk', hfd⟩ := h.owned.client n d hn
    refine ⟨hused, ?_⟩
    by_cases hd : d = c
    · subst hd
      obtain rfl := Option.some.inj (h.conns.symm.trans hk')
      exact ⟨k, hself, hclient.trans hfd⟩
    · exact ⟨k', (hother d hd).trans hk', hfd⟩
  case conn =>
    intro d k' hk'
    by_cases hd : d = c
    · subst hd
      rw [hself] at hk'
      obtain rfl := Option.some.inj hk'
      obtain ⟨hfd, -, hs, hms⟩ := h.owned.conn d _ h.conns
      exact ⟨hclient ▸ hfd, horigin, hstm ▸ hs, hms⟩
    · obtain ⟨hfd, ho, hs, hms⟩ := h.owned.conn d k' (hother d hd ▸ hk')
      refine ⟨hfd, ?_, hs, hms⟩
      rcases ho with h0 | h1 | ⟨m, hm', hmpos, ⟨p, hp⟩ | ⟨hhole, -⟩⟩
      · exact .inl h0
      · exact .inr (.inl h1)
      · exact .inr (.inr ⟨m, hm', hmpos, .inl ⟨p, hp⟩⟩)
      · cases hole with
        | false => cases hhole
        | true => exact absurd (Option.some.inj hhole).symm hd
  case stm =>
    intro d hd
    rw [hsome]
    exact h.owned.stm d hd
  case known =>
    intro d hd
    rw [hsome] at hd
    exact h.owned.known d hd
  case trace => exact h.owned.trace
  case jobs => exact h.owned.jobs
  case resolving =>
    intro d hd
    rw [hsome]
    exact h.owned.resolving d hd
  case fdSize => exact h.owned.fdSize

/-- What is registered towards the origin shows in the view, where `origin_fd` names it. -/
theorem relay_ne_none {n : ℕ} {r : FdHandler × FdInterest} (h : Tracks mode hole c s₀ v s)
    (hn : (s.selector.fds n).relayOf c = some r) (hfd : v.conn.originFd = n) : v.relay ≠ none := by
  obtain ⟨hk, -, -, hr, -, -⟩ := view_eq_some_iff.mp h.view
  have hne := h.owned.origin_ne_zero_of_relayOf hk hn
  rw [← hr, Server.relay, if_pos (by omega), hfd, Int.toNat_natCast, hn]
  simp

/-- Store a record with another `origin_fd`. -/
theorem setOrigin {b : Bool} (h : Tracks mode hole c s₀ v s) (k : Socks5Conn)
    (hclient : k.clientFd = v.conn.clientFd) (hstm : k.stm = v.conn.stm)
    (hne : k.originFd ≠ 0) (horigin : OriginOwned (cond b (some c) none) s c k)
    (htouched : ∀ fd : ℕ, k.originFd = fd → 0 < fd → Touched c s₀ s fd)
    (htidy : mode.tidy = true → k.originFd = v.conn.originFd ∨ v.relay = none)
    (hcopies : v.phase ≠ some .copy ∧ v.phase ≠ some .error ∨ v.relay = none) :
    Tracks mode b c s₀ { v with conn := k, relay := s.relay c k } (s.setConn c k) := by
  obtain ⟨hk, hm, hi, hr, ht, hh⟩ := view_eq_some_iff.mp h.view
  have hself : (s.setConn c k).conns c = some k := by simp [Server.setConn]
  constructor
  case owned => exact h.owned_setOrigin k hclient hstm hne horigin
  case view =>
    rw [view_eq_some_iff]
    refine ⟨hself, hm, by rw [hclient]; exact hi, rfl, ?_, hh⟩
    rw [← ht]
    simp [Server.tokens, Server.setConn, hclient]
  case frame =>
    refine h.frame.step (fun d hd => ?_) (fun _ _ => rfl) (fun _ => .inl rfl) (fun _ => .inl rfl)
      (fun _ _ _ r hr => ⟨r.2, hr⟩) ⟨[], by simp [Server.setConn], by simp⟩ (fun _ _ => rfl)
      ⟨[], rfl, by simp⟩ ⟨rfl, rfl, rfl, rfl, rfl⟩
    simp [Server.setConn, hd]
  case tidy =>
    intro hmode n r hnr
    obtain ⟨k', hk', hfd⟩ := h.tidy hmode n r hnr
    obtain rfl := Option.some.inj (hk.symm.trans hk')
    refine ⟨k, hself, ?_⟩
    rcases htidy hmode with heq | hnone
    · rw [heq, hfd]
    · exact absurd hnone (h.relay_ne_none hnr hfd)
  case copies =>
    intro n i hni
    obtain ⟨hphase, hfd⟩ := h.copies n i hni
    rcases hcopies with ⟨hcopy, herror⟩ | hnone
    · exact absurd hphase (not_or.mpr ⟨hcopy, herror⟩)
    · exact absurd hnone (h.relay_ne_none hni hfd)
  case origin => exact htouched

/-- Queue the notification of a finished resolution. -/
theorem notifyBlock (h : Tracks mode hole c s₀ v s) :
    Tracks mode hole c s₀ { v with tokens := v.tokens + 1 }
      (selectorNotifyBlock s v.conn.clientFd) := by
  obtain ⟨hk, hm, hi, hr, ht, hh⟩ := view_eq_some_iff.mp h.view
  obtain ⟨fd, j, hfd, hpos, hlt, hown, hitem, hne⟩ := h.client
  refine ⟨⟨h.owned.registered_of_eq rfl rfl rfl rfl, h.owned.zero, h.owned.listener,
    h.owned.client, h.owned.conn, h.owned.stm, h.owned.known, h.owned.trace, ?_,
    h.owned.resolving, h.owned.fdSize⟩, ?_, ?_, h.tidy, h.copies, h.origin⟩
  · intro n hn
    rcases List.mem_cons.mp hn with rfl | hn
    · refine ⟨c, ?_⟩
      rw [hfd]
      exact hown
    · exact h.owned.jobs n hn
  · rw [view_eq_some_iff]
    refine ⟨hk, hm, hi, hr, ?_, hh⟩
    rw [← ht]
    simp only [Server.tokens, selectorNotifyBlock, List.count_cons_self]
    omega
  · refine h.frame.step (fun _ _ => rfl) (fun _ _ => rfl) (fun _ => .inl rfl) (fun _ => .inl rfl)
      (fun _ _ _ r hr => ⟨r.2, hr⟩) ⟨[], by simp [selectorNotifyBlock], by simp⟩ (fun _ _ => rfl)
      ⟨[v.conn.clientFd.toNat], rfl, ?_⟩ ⟨rfl, rfl, rfl, rfl, rfl⟩
    intro n hn
    obtain rfl := List.mem_singleton.mp hn
    rw [hfd]
    exact hown

/-- Start a resolver thread. -/
theorem startThread (h : Tracks mode hole c s₀ v s) :
    Tracks mode hole c s₀ { v with tokens := v.tokens + 1 }
      { s with resolving := c :: s.resolving } := by
  obtain ⟨hk, hm, hi, hr, ht, hh⟩ := view_eq_some_iff.mp h.view
  refine ⟨⟨h.owned.registered_of_eq rfl rfl rfl rfl, h.owned.zero, h.owned.listener,
    h.owned.client, h.owned.conn, h.owned.stm, h.owned.known, h.owned.trace, h.owned.jobs, ?_,
    h.owned.fdSize⟩, ?_, ?_, h.tidy, h.copies, h.origin⟩
  · intro d hd
    rcases List.mem_cons.mp hd with rfl | hd
    · simp [hk]
    · exact h.owned.resolving d hd
  · rw [view_eq_some_iff]
    refine ⟨hk, hm, hi, hr, ?_, hh⟩
    rw [← ht]
    simp only [Server.tokens, List.count_cons_self]
    omega
  · refine h.frame.step (fun _ _ => rfl) (fun _ _ => rfl) (fun _ => .inl rfl) (fun _ => .inl rfl)
      (fun _ _ _ r hr => ⟨r.2, hr⟩) ⟨[], by simp, by simp⟩ ?_ ⟨[], rfl, by simp⟩ ⟨rfl, rfl, rfl, rfl, rfl⟩
    intro d hd
    simp [List.count_cons_of_ne (Ne.symm hd)]

end Tracks

end Socks5d
