import Socks5d.Primitives

/-!
# Registering and unregistering

`selector_register` either adds one item or changes nothing, and `selector_unregister_fd` on an
origin only removes an item, because the two handlers registered there have no close callback.
On the client's descriptor it runs `socksv5_close`, which ends the connection.
-/

namespace Socks5d

/-- The two outcomes of `selector_register` on a table that covers every descriptor. -/
theorem selectorRegister_cases (sel : FdSelector) (fd : ℤ) (handler : FdHandler)
    (i : FdInterest) (data : Option ConnId) (hsize : ITEMS_MAX_SIZE ≤ sel.fdSize) :
    (∃ ufd : ℕ, fd = ufd ∧ ufd < ITEMS_MAX_SIZE ∧ (sel.fds ufd).used = false ∧
      (selectorRegister sel fd handler i data).1 = .success ∧
      (selectorRegister sel fd handler i data).2.fds =
        Function.update sel.fds ufd ⟨ufd, i, some handler, data⟩ ∧
      (selectorRegister sel fd handler i data).2.resolutionJobs = sel.resolutionJobs ∧
      (selectorRegister sel fd handler i data).2.fdSize = sel.fdSize) ∨
    ((∀ ufd : ℕ, fd = ufd → ufd < ITEMS_MAX_SIZE → (sel.fds ufd).used = true) ∧
      (selectorRegister sel fd handler i data).1 ≠ .success ∧
      (selectorRegister sel fd handler i data).2 = sel) := by
  unfold selectorRegister
  by_cases hinv : invalidFd fd = true
  · right
    rw [if_pos hinv]
    refine ⟨?_, by simp, rfl⟩
    intro ufd hfd hlt
    simp only [invalidFd, Bool.or_eq_true, decide_eq_true_eq] at hinv
    omega
  · rw [if_neg hinv]
    simp only [invalidFd, Bool.or_eq_true, decide_eq_true_eq, not_or, not_lt, not_le] at hinv
    have hfit : ¬ fd.toNat > sel.fdSize := by omega
    simp only [hfit, if_false, ne_eq, not_true_eq_false]
    by_cases hused : (sel.fds fd.toNat).used = true
    · right
      rw [if_pos hused]
      refine ⟨?_, by simp, rfl⟩
      intro ufd hfd _
      subst hfd
      simpa using hused
    · left
      rw [if_neg hused]
      refine ⟨fd.toNat, by omega, by omega, by simpa using hused, rfl, ?_, rfl, rfl⟩
      rw [Int.toNat_of_nonneg hinv.1]
      rfl

/-- Removing an item only touches that item. -/
theorem fds_removeItem (sel : FdSelector) (ufd : ℕ) :
    (removeItem sel ufd).fds = Function.update sel.fds ufd itemInit := rfl

@[simp] theorem jobs_removeItem (sel : FdSelector) (ufd : ℕ) :
    (removeItem sel ufd).resolutionJobs = sel.resolutionJobs := rfl

@[simp] theorem fdSize_removeItem (sel : FdSelector) (ufd : ℕ) :
    (removeItem sel ufd).fdSize = sel.fdSize := rfl

theorem not_used_itemInit : ¬ itemInit.used = true := by decide

/-- The item at an origin's descriptor was registered there by a relay handler. -/
theorem Owned.relay_at_origin {hole : Option ConnId} {s : Server} {fd : ℕ} (ho : Owned hole s)
    (hused : (s.selector.fds fd).used = true)
    (hown : ∀ o, s.kernel.owner fd = some o → ∃ d p, o = .origin d p) :
    ∃ d h i, h.isRelay = true ∧ s.selector.fds fd = ⟨fd, i, some h, some d⟩ := by
  obtain ⟨-, hreg⟩ := ho.registered fd hused
  generalize hitem : s.selector.fds fd = item at hreg
  cases hreg with
  | listener _ _ howner _ =>
    obtain ⟨d, p, hd⟩ := hown _ howner
    cases hd
  | client _ _ howner =>
    obtain ⟨d, p, hd⟩ := hown _ howner
    cases hd
  | relay d h i hrelay _ _ _ => exact ⟨d, h, i, hrelay, rfl⟩
  | admin _ howner =>
    obtain ⟨d, p, hd⟩ := hown _ howner
    cases hd

section Origin

variable {mode : Mode} {hole : Bool} {c : ConnId} {s₀ s s' : Server} {v v' : View}

/-- The owner of a set `origin_fd`. -/
theorem Tracks.origin_owner (h : Tracks mode hole c s₀ v s) {fd : ℕ} (hfd : v.conn.originFd = fd)
    (hpos : 0 < fd) : ∀ o, s.kernel.owner fd = some o → ∃ p, o = .origin c p := by
  intro o ho
  rcases (h.owned.conn c v.conn h.conns).2.1 with h0 | h1 | ⟨n, hn, -, ⟨p, hp⟩ | ⟨-, hnone⟩⟩
  · omega
  · omega
  · obtain rfl : n = fd := by omega
    rw [hp] at ho
    exact ⟨p, (Option.some.inj ho).symm⟩
  · obtain rfl : n = fd := by omega
    rw [hnone] at ho
    cases ho

/-- The table after the item at a set `origin_fd` changed, as every clause but the one about
that item sees it. -/
theorem Tracks.update_item (h : Tracks mode hole c s₀ v s) {fd : ℕ} (hfd : v.conn.originFd = fd)
    (hpos : 0 < fd) (item : Item)
    (hreg : item.used = true → fd < ITEMS_MAX_SIZE ∧ Registered s fd item) (sel : FdSelector)
    (hfds : sel.fds = Function.update s.selector.fds fd item)
    (hself : ∀ d, d ≠ c → item.relayOf d = none)
    (hcopy : ∀ i, item.relayOf c = some (.copySelectorHandler, i) → v.phase = some .copy)
    (hjobs : sel.resolutionJobs = s.selector.resolutionJobs)
    (hsize : sel.fdSize = s.selector.fdSize) :
    Tracks mode hole c s₀ { v with relay := item.relayOf c } { s with selector := sel } := by
  obtain ⟨hk, hm, hi, hr, ht, hh⟩ := view_eq_some_iff.mp h.view
  obtain ⟨cfd, j, hcfd, hcpos, hlt, hown, hitem, hne⟩ := h.client
  have hcne : cfd ≠ fd := by omega
  have hother := h.origin_owner hfd hpos
  refine ⟨?_, ?_, ?_, ?_, ?_, ?_⟩
  · refine ⟨?_, h.owned.zero, ?_, ?_, h.owned.conn, h.owned.stm, h.owned.known, h.owned.trace,
      ?_, h.owned.resolving, ?_⟩
    · intro n hused
      by_cases hn : n = fd
      · subst hn
        simp only [hfds, Function.update_self] at hused ⊢
        obtain ⟨hltn, hr⟩ := hreg hused
        refine ⟨hltn, ?_⟩
        cases hr with
        | listener handler i howner hp => exact .listener handler i howner hp
        | client d i howner => exact .client d i howner
        | relay d handler i h₁ h₂ h₃ h₄ => exact .relay d handler i h₁ h₂ h₃ h₄
        | admin i howner => exact .admin i howner
      · simp only [hfds, Function.update_of_ne hn] at hused ⊢
        obtain ⟨hltn, hr⟩ := h.owned.registered n hused
        refine ⟨hltn, ?_⟩
        generalize s.selector.fds n = it at hr
        cases hr with
        | listener handler i howner hp => exact .listener handler i howner hp
        | client d i howner => exact .client d i howner
        | relay d handler i h₁ h₂ h₃ h₄ => exact .relay d handler i h₁ h₂ h₃ h₄
        | admin i howner => exact .admin i howner
    · intro n hn
      have hnfd : n ≠ fd := by
        rintro rfl
        obtain ⟨p, hp⟩ := hother _ hn
        cases hp
      simp only [hfds, Function.update_of_ne hnfd]
      exact h.owned.listener n hn
    · intro n d hn
      have hnfd : n ≠ fd := by
        rintro rfl
        obtain ⟨p, hp⟩ := hother _ hn
        cases hp
      simp only [hfds, Function.update_of_ne hnfd]
      exact h.owned.client n d hn
    · intro n hn
      exact h.owned.jobs n (by simpa only [hjobs] using hn)
    · simp only [hsize]
      exact h.owned.fdSize
  · rw [view_eq_some_iff]
    refine ⟨hk, hm, ?_, ?_, ?_, hh⟩
    · rw [hcfd] at hi ⊢
      simpa only [hfds, Int.toNat_natCast, Function.update_of_ne hcne] using hi
    · simp [Server.relay, hfd, hpos, hfds]
    · simpa only [Server.tokens, hjobs] using ht
  · refine h.frame.step (fun _ _ => rfl) (fun _ _ => rfl) ?_ (fun _ => .inl rfl) ?_
      ⟨[], by simp, by simp⟩ (fun _ _ => rfl) ⟨[], by simp [hjobs], by simp⟩
      ⟨rfl, rfl, rfl, rfl, rfl⟩
    · intro n
      by_cases hn : n = fd
      · subst hn
        exact .inr (.inl (h.origin n hfd hpos))
      · exact .inl (by simp only [hfds, Function.update_of_ne hn])
    · intro n d hd r hnr
      by_cases hn : n = fd
      · subst hn
        simp only [hfds, Function.update_self, hself d hd] at hnr
        cases hnr
      · simp only [hfds, Function.update_of_ne hn] at hnr
        exact ⟨r.2, hnr⟩
  · intro htidy n r hnr
    by_cases hn : n = fd
    · subst hn
      exact ⟨v.conn, hk, hfd⟩
    · simp only [hfds, Function.update_of_ne hn] at hnr
      exact h.tidy htidy n r hnr
  · intro n i hni
    by_cases hn : n = fd
    · subst hn
      simp only [hfds, Function.update_self] at hni
      exact ⟨.inl (hcopy i hni), hfd⟩
    · simp only [hfds, Function.update_of_ne hn] at hni
      exact h.copies n i hni
  · intro n hn hposn
    exact h.origin n hn hposn

/-- Unregister a set or given up `origin_fd`. -/
theorem Tracks.unregisterOrigin (h : Tracks mode hole c s₀ v s) (hne : v.conn.originFd ≠ 0) :
    ∃ s', selectorUnregisterFd s v.conn.originFd = .ok s' ∧
      Tracks mode hole c s₀ { v with relay := none } s' := by
  obtain ⟨hk, hm, hi, hr, ht, hh⟩ := view_eq_some_iff.mp h.view
  unfold selectorUnregisterFd
  by_cases hskip : (invalidFd v.conn.originFd ||
      !(s.selector.fds v.conn.originFd.toNat).used) = true
  · -- nothing is registered there, so the connection has no registration to lose
    rw [if_pos hskip]
    refine ⟨s, rfl, ?_⟩
    have hnone : v.relay = none := by
      rw [← hr, Server.relay]
      split
      · rename_i hpos
        apply relayOf_of_not_used
        intro hused
        obtain ⟨hlt, -⟩ := h.owned.registered _ hused
        simp only [hused, Bool.not_true, Bool.or_false, invalidFd, Bool.or_eq_true,
          decide_eq_true_eq] at hskip
        omega
      · rfl
    have hv : { v with relay := none } = v := by
      cases v
      simp_all
    rw [hv]
    exact h
  · rw [if_neg hskip]
    simp only [invalidFd, Bool.or_eq_true, decide_eq_true_eq, Bool.not_eq_true',
      not_or, not_lt, not_le, Bool.not_eq_false] at hskip
    obtain ⟨⟨hnonneg, -⟩, hused⟩ := hskip
    obtain ⟨fd, hfd⟩ := Int.eq_ofNat_of_zero_le hnonneg
    have hpos : 0 < fd := by omega
    simp only [hfd, Int.toNat_natCast] at hused ⊢
    obtain ⟨d, handler, i, hrelay, hitem⟩ := h.owned.relay_at_origin hused (by
      intro o ho
      obtain ⟨p, hp⟩ := h.origin_owner hfd hpos o ho
      exact ⟨c, p, hp⟩)
    have hclose : handleClose (s.selector.fds fd) s = .ok s := by
      rw [hitem]
      cases handler with
      | connectingHandler => rfl
      | copySelectorHandler => rfl
      | _ => cases hrelay
    rw [hclose]
    refine ⟨_, rfl, ?_⟩
    have hnot : itemInit.used = true → fd < ITEMS_MAX_SIZE ∧ Registered s fd itemInit :=
      fun hu => absurd hu not_used_itemInit
    exact h.update_item hfd hpos itemInit hnot _ (fds_removeItem _ _) (fun _ _ => rfl)
      (fun _ hi => by cases hi) rfl rfl

/-- Register `origin_fd` for the connection. Either the registration is the connection's
afterwards, or nothing changed. -/
theorem Tracks.register (h : Tracks mode hole c s₀ v s) (handler : FdHandler)
    (hrelay : handler.isRelay = true) (i : FdInterest)
    (hcopy : handler = .copySelectorHandler → v.phase = some .copy) :
    (∃ fd : ℕ, v.conn.originFd = fd ∧ fd < ITEMS_MAX_SIZE ∧ (s.selector.fds fd).used = false ∧
      (selectorRegister s.selector v.conn.originFd handler i (some c)).1 = .success ∧
      Tracks mode hole c s₀ { v with relay := some (handler, i) } { s with
        selector := (selectorRegister s.selector v.conn.originFd handler i (some c)).2 }) ∨
    ((∀ fd : ℕ, v.conn.originFd = fd → fd < ITEMS_MAX_SIZE → (s.selector.fds fd).used = true) ∧
      (selectorRegister s.selector v.conn.originFd handler i (some c)).1 ≠ .success ∧
      Tracks mode hole c s₀ v { s with
        selector := (selectorRegister s.selector v.conn.originFd handler i (some c)).2 }) := by
  rcases selectorRegister_cases s.selector v.conn.originFd handler i (some c) h.owned.fdSize with
    ⟨fd, hfd, hlt, hfree, hstatus, hfds, hjobs, hsize⟩ | ⟨hused, hstatus, hsel⟩
  · left
    have hpos : 0 < fd := by
      rcases Nat.eq_zero_or_pos fd with rfl | hpos
      · rw [h.owned.listener 0 h.owned.zero] at hfree
        cases hfree
      · exact hpos
    refine ⟨fd, hfd, hlt, hfree, hstatus, ?_⟩
    have hrelayOf : (⟨fd, i, some handler, some c⟩ : Item).relayOf c = some (handler, i) := by
      have hneg : ((fd : ℤ) != -1) = true := by simp
      simp [Item.relayOf, hrelay, Item.used, FD_UNUSED, hneg]
    rw [← hrelayOf]
    refine h.update_item hfd hpos _ ?_ _ hfds ?_ ?_ hjobs hsize
    · intro _
      refine ⟨hlt, .relay c handler i hrelay ?_ ?_ (h.owned.known c (by simp [h.conns]))⟩
      · intro o ho
        obtain ⟨p, hp⟩ := h.origin_owner hfd hpos o ho
        exact ⟨c, p, hp⟩
      · intro k hk
        obtain rfl := Option.some.inj (h.conns.symm.trans hk)
        omega
    · intro d hd
      simp [Item.relayOf, Ne.symm hd]
    · intro j hj
      rw [hrelayOf] at hj
      exact hcopy (congrArg Prod.fst (Option.some.inj hj))
  · right
    refine ⟨hused, hstatus, ?_⟩
    rw [hsel]
    exact h

end Origin

end Socks5d
