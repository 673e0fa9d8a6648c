import Socks5d.Reactions

/-!
# The invariant of the server

It holds when the server enters its loop and is kept by every event, so it holds of every
reachable state; with it goes that every registration towards an origin is at its `origin_fd`,
as long as every retry gets the descriptor of the failed attempt again.
-/

namespace Socks5d

open GuardedRun Fallible

variable {s s' : Server} {c : ConnId} {v : View} {e : Event} {r : Result}

/-- Only the relay phase leaves bytes in `in_buff` that fill it. -/
theorem View.Early.not_full (h : v.Early) (hok : v.Ok c) : v.conn.inBuff.space ≠ 0 := by
  rw [Buffer.space_of_content_nil _ h.inBuff]
  have hcapacity := hok.inCapacity
  simp only [BUFF_MIN_LEN] at hcapacity
  omega

/-- Descriptor 0 stays taken when another one is closed. -/
theorem Owned.lowest_close_pos (ho : Owned none s) {fd : ℤ} (hfd : fd ≠ 0) :
    0 < (s.kernel.close fd).lowest := by
  rcases Nat.eq_zero_or_pos (s.kernel.close fd).lowest with h0 | hpos
  · have hfree := (s.kernel.close fd).owner_lowest
    rw [h0, Kernel.owner_close, if_neg (by simpa using hfd.symm), ho.zero] at hfree
    cases hfree
  · exact hpos

/-- A connection without an `origin_fd` has no registration towards it. -/
theorem relay_of_origin_zero (hview : s.view c = some v) (hzero : v.conn.originFd = 0) :
    v.relay = none := by
  obtain ⟨-, -, -, hrelay, -⟩ := view_eq_some_iff.mp hview
  rw [← hrelay, Server.relay, if_neg (by omega)]

/-- Every reaction is a move that keeps the local invariant. -/
theorem Reaction.progress (h : Inv s) (hview : s.view c = some v) (hr : Reaction s c v e r) :
    r.Ok c ∧ Move s c v e r := by
  have hok := h.ok c v hview
  have hphaseOk := hok.phase
  unfold View.PhaseOk at hphaseOk
  cases hr with
  | greets fd env r hitem hready hphase hread =>
    have hearly : v.Early ∧ v.Armed ∧ (v.phase = some .handshake →
        v.conn.handshakeParser.isSome = true) := by
      rcases hphase with hphase | hphase
      · rw [hphase] at hphaseOk
        exact ⟨hphaseOk.1, .inl ⟨hphaseOk.2.1, hphaseOk.2.2.1⟩, by simp [hphase]⟩
      · rw [hphase] at hphaseOk
        exact ⟨hphaseOk.1, hphaseOk.2.1, fun _ => hphaseOk.2.2⟩
    obtain ⟨hearly, harmed, hparser⟩ := hearly
    have hnc : v.phase ≠ some .connecting ∧ v.phase ≠ some .copy := by
      rcases hphase with hphase | hphase
      · simp [hphase]
      · simp [hphase]
    refine hread.progress hok hnc.1 (fun hfull => absurd hfull (hearly.not_full hok)) ?_
    intro buff bytes hcapacity hgreets
    refine hgreets.progress hphase ?_
    have hrelay := hok.relay_eq_none hnc.1 hnc.2
    unfold View.begun
    rcases hphase with hphase | hphase
    · have hphase' : (v.received c buff bytes).phase = none := hphase
      simp only [hphase']
      exact ⟨rfl, rfl, hearly.originFd, hearly.tokens, hearly.addrInfo, hrelay,
        hcapacity ▸ hok.inCapacity, hok.outCapacity, harmed⟩
    · have hphase' : (v.received c buff bytes).phase = some .handshake := hphase
      simp only [hphase']
      exact ⟨hphase', hparser hphase, hearly.originFd, hearly.tokens, hearly.addrInfo, hrelay,
        hcapacity ▸ hok.inCapacity, hok.outCapacity, harmed⟩
  | authenticates fd env r hitem hready hphase hread =>
    obtain ⟨hsub, hempty⟩ := hok.subnegotiating hphase
    refine hread.progress hok (by simp [hphase]) ?_ ?_
    · intro hfull
      rw [Buffer.space_of_content_nil _ hempty] at hfull
      have hcapacity := hok.inCapacity
      simp only [BUFF_MIN_LEN] at hcapacity
      omega
    · intro buff bytes hcapacity hauth
      obtain ⟨p, hp, hjudged⟩ := hsub.parser
      exact hauth.progress { hsub with
        inCapacity := hcapacity ▸ hok.inCapacity
        armed := hsub.armed
        parser := ⟨p, hp, fun hd he => List.mem_append_left _ (hjudged hd he)⟩ }
        (hsub.armed.outBuff_eq_nil hready)
  | requests fd env r hitem hready hphase hread =>
    rw [hphase] at hphaseOk
    have hreq : v.Requesting := hphaseOk
    obtain ⟨herror, hempty, harmed⟩ := hreq.reply.resolve_right fun hrefused => by
      rw [hrefused.2.2] at hready
      cases hready
    have hinterest : v.interest = OP_READ := by
      rcases harmed with ⟨-, hi⟩ | ⟨-, hi⟩
      · exact hi
      · rw [hi] at hready
        cases hready
    refine hread.progress hok (by simp [hphase]) ?_ ?_
    · intro hfull
      rw [Buffer.space_of_content_nil _ hempty] at hfull
      have hcapacity := hok.inCapacity
      simp only [BUFF_MIN_LEN] at hcapacity
      omega
    · intro buff bytes hcapacity hrequests
      exact hrequests.progress hphase hreq.parser hreq.originFd hreq.tokens hreq.addrInfo
        (hok.relay_eq_none (by simp [hphase]) (by simp [hphase])) (hcapacity ▸ hok.inCapacity)
        hok.outCapacity (harmed.outBuff_eq_nil hready) hinterest herror
  | relays fd env r hitem hready hphase hread =>
    refine hread.progress hok (by simp [hphase]) (fun _ => hphase) ?_
    intro buff bytes hcapacity hcopy
    have hreceived : Relays v (v.received c buff bytes) :=
      ⟨rfl, rfl, rfl, hcapacity, rfl, fun r hr => ⟨r.2, hr⟩,
        by simp [View.received, Obs.isMilestone]⟩
    exact hcopy.relayEnds.move hphase (hreceived.ok hphase hok)
  | sends _ fd env r hitem hready hwrote => exact hwrote.progress hok hitem hready
  | blocks env r hphase hwaiting hblocks =>
    have hrelay := relay_of_origin_zero hview hwaiting.originFd
    obtain ⟨hr, hmove⟩ := hblocks.progress (s := s) (e := .notify env) hphase hwaiting.originFd rfl
      hwaiting.outBuff hwaiting.isErrorResponse hrelay h.owned.lowest_pos hok.inCapacity
      hok.outCapacity
    have hagrees : View.Agrees v (v.notified c) :=
      ⟨rfl, rfl, rfl, rfl, rfl, by simp [View.notified, Obs.isMilestone]⟩
    exact ⟨hr, Move.of_agrees hagrees hmove⟩
  | resolves env hphase hwaiting =>
    refine ⟨⟨hok.inCapacity, hok.outCapacity, hok.relay, ?_⟩, .quiet _ (.inl rfl) (fun _ => rfl) ?_ fun _ h => h⟩
    · exact .connecting hphase (.inl ⟨hwaiting.originFd, hwaiting.interest, rfl, hwaiting.outBuff,
        hwaiting.isErrorResponse⟩)
    · simp [View.resolved, Obs.isMilestone]
  | connects fd env r i hitem hset hphase hconnects =>
    refine hconnects.progress hok hitem hset hphase ?_ ?_
    · exact fun n j hn => (h.copies n c j v hn hview).1
    · exact h.owned.lowest_close_pos hset
  | receives fd env r i horigin hrelay hready hphase hreceived =>
    exact (hreceived.relayEnds hphase).move hphase hok
  | delivers fd env r i horigin hrelay hready hphase hwrote => exact hwrote.relayEnds.move hphase hok

/-- A connection that was just accepted meets the local invariant. -/
theorem View.Fresh.ok (h : v.Fresh) : v.Ok c where
  inCapacity := h.inCapacity
  outCapacity := h.outCapacity
  relay r hr := by rw [h.relay] at hr; cases hr
  phase := by
    simp only [View.PhaseOk, h.phase]
    exact ⟨h.early, h.outBuff, h.interest, h.isErrorResponse⟩

/-- A background change keeps the invariant. -/
theorem Background.inv (hb : Background s s') (h : Inv s) : Inv s' where
  owned := hb.owned
  bufferSize := hb.bufferSize
  ok c v hview := by
    rcases hb.fates c with ⟨heq, -⟩ | ⟨-, ⟨w, hw, hfresh⟩ | ⟨hnone, -⟩⟩
    · exact h.ok c v (heq ▸ hview)
    · rw [hw] at hview
      obtain rfl := Option.some.inj hview
      exact hfresh.ok
    · rw [hnone] at hview
      cases hview
  copies fd c i v hr hview := by
    rw [hb.registrations] at hr
    rcases hb.fates c with ⟨heq, -⟩ | ⟨rfl, -⟩
    · exact h.copies fd c i v hr (heq ▸ hview)
    · obtain ⟨hused, hhandler, hrelay, hdata, -⟩ := relayOf_eq_some_iff.mp hr
      obtain ⟨-, hreg⟩ := h.owned.registered fd hused
      generalize s.selector.fds fd = item at hreg hdata
      cases hreg with
      | listener => cases hdata
      | client d j howner =>
        have hlt := h.owned.known d (by
          obtain ⟨-, k, hk, -⟩ := h.owned.client fd d howner
          simp [hk])
        obtain rfl := Option.some.inj hdata
        exact absurd hlt (Nat.lt_irrefl _)
      | relay d handler j _ _ _ hknown =>
        obtain rfl := Option.some.inj hdata
        exact absurd hknown (Nat.lt_irrefl _)
      | admin => cases hdata

variable {mode : Mode} {s₀ : Server}

theorem Lands.frame (h : Lands mode false c s₀ r s') : Frame mode.zero c s₀ s' := by
  cases r with
  | alive w => exact Tracks.frame h
  | gone history => exact Released.frame h

theorem Lands.owned (h : Lands mode false c s₀ r s') : Owned none s' := by
  cases r with
  | alive w => exact Tracks.owned h
  | gone history => exact Released.owned h

/-- A relaying connection relays until it is released. -/
theorem Move.copy_of_copy {w : View} (h : Move s c v e (.alive w)) (hphase : v.phase = some .copy) :
    w.phase = some .copy := by
  cases h with
  | quiet _ h₁ => exact (h₁.resolve_right (by simp [hphase])).trans hphase
  | chosen _ _ h₁ => simp [hphase] at h₁
  | judged _ _ h₁ => simp [hphase] at h₁
  | authorized _ h₁ => simp [hphase] at h₁
  | passed _ h₁ => simp [hphase] at h₁
  | unsupported _ _ h₁ => simp [hphase] at h₁
  | requested _ h₁ => simp [hphase] at h₁
  | noAddress _ _ h₁ => simp [hphase] at h₁
  | relays _ _ _ h₁ => simp [hphase] at h₁
  | refused _ _ _ h₁ => simp [hphase] at h₁
  | skipped _ h₁ => simp [hphase] at h₁
  | stale _ t _ _ _ hr =>
    rcases hr with ⟨x, hx, hcopy, -⟩ | ⟨_, hgone, -⟩
    · obtain rfl := Result.alive.inj hx
      exact hcopy
    · cases hgone

/-- The relay phase is entered from the request and the connecting phase only. -/
theorem Move.enters_copy {w : View} (h : Move s c v e (.alive w)) (hcopy : w.phase = some .copy) :
    v.phase = some .copy ∨ v.phase = some .connecting ∨ v.phase = some .connectionReq := by
  cases h with
  | quiet _ h₁ =>
    rcases h₁ with h₁ | ⟨-, h₁⟩
    · exact .inl (h₁.symm.trans hcopy)
    · cases h₁.symm.trans hcopy
  | chosen _ state _ h₁ h₂ =>
    obtain rfl := Option.some.inj (h₂.symm.trans hcopy)
    simp at h₁
  | judged _ _ _ h₁ => cases h₁.symm.trans hcopy
  | authorized _ _ h₁ => cases h₁.symm.trans hcopy
  | passed _ _ h₁ => cases h₁.symm.trans hcopy
  | unsupported _ _ h₁ => exact .inr (.inr h₁)
  | requested _ h₁ => exact .inr (.inr h₁)
  | noAddress _ _ h₁ => exact .inr (.inl h₁)
  | relays _ _ _ h₁ => exact .inr (.inl h₁)
  | refused _ _ _ h₁ => exact .inr (.inl h₁)
  | skipped _ h₁ => exact .inr (.inr h₁)
  | stale _ _ h₁ =>
    rcases h₁ with h₁ | h₁
    · exact .inr (.inl h₁)
    · exact .inl h₁

/-- The views of other connections survive a reaction. -/
theorem Lands.others {c d : ConnId} (hlands : Lands mode false c s₀ r s')
    (hentered : Entered c s s₀) (hd : d ≠ c) : s'.view d = s.view d :=
  (hlands.frame.view hentered.owned hd).trans (hentered.views d hd)

/-- A callback of one connection keeps the invariant. -/
theorem Lands.inv (h : Inv s) (hview : s.view c = some v) (hentered : Entered c s s₀)
    (hlands : Lands mode false c s₀ r s') (hr : r.Ok c) (hmove : Move s c v e r) : Inv s' := by
  have hframe := hlands.frame
  have howned := hlands.owned
  have hothers : ∀ d, d ≠ c → s'.view d = s.view d := fun d hd => hlands.others hentered hd
  refine ⟨howned, ?_, ?_, ?_⟩
  · rw [hframe.bufferSize, hentered.bufferSize]
    exact h.bufferSize
  · intro d w hviewd
    by_cases hd : d = c
    · subst hd
      cases r with
      | alive x =>
        have hx : s'.view d = some x := Tracks.view hlands
        obtain rfl := Option.some.inj (hx.symm.trans hviewd)
        exact hr
      | gone history =>
        have hgone : s'.conns d = none := Released.conns hlands
        simp [Server.view, hgone] at hviewd
    · exact h.ok d w (hothers d hd ▸ hviewd)
  · intro fd d i w hrel hviewd
    by_cases hd : d = c
    · subst hd
      cases r with
      | alive x =>
        have hx : s'.view d = some x := Tracks.view hlands
        obtain rfl := Option.some.inj (hx.symm.trans hviewd)
        obtain ⟨hcopy | herror, hfd⟩ := Tracks.copies hlands fd i hrel
        · exact ⟨hcopy, hfd⟩
        · have hphaseOk := hr.phase
          simp only [View.PhaseOk, herror] at hphaseOk
      | gone history =>
        have hgone : s'.conns d = none := Released.conns hlands
        simp [Server.view, hgone] at hviewd
    · obtain ⟨j, hj⟩ := hframe.registrations fd d hd _ hrel
      rw [hentered.fds] at hj
      exact h.copies fd d j w hj (hothers d hd ▸ hviewd)

/-- Before the loop there are only inherited descriptors and registered listeners. -/
structure Booting (s : Server) : Prop where
  conns : ∀ c, s.conns c = none
  stms : ∀ c, s.stms c = none
  trace : s.trace = []
  resolving : s.resolving = []
  jobs : s.selector.resolutionJobs = []
  fdSize : ITEMS_MAX_SIZE ≤ s.selector.fdSize
  bufferSize : BUFF_MIN_LEN ≤ s.bufferSize
  owner : ∀ fd o, s.kernel.owner fd = some o → o = .listener ∨ o = .other
  item : ∀ fd, (s.selector.fds fd).used = true → fd < ITEMS_MAX_SIZE ∧
    s.kernel.owner fd = some .listener ∧ ∃ handler i,
      s.selector.fds fd = ⟨fd, i, some handler, none⟩ ∧
        (handler = .socksv5 ∨ handler = .confProtocol)
  listener : ∀ fd, s.kernel.owner fd = some .listener → (s.selector.fds fd).used = true

/-- Registering one more listener. -/
theorem Booting.register (h : Booting s) {handler : FdHandler}
    (hpassive : handler = .socksv5 ∨ handler = .confProtocol)
    (hs : createAndRegisterPassiveSocket handler s = some s') :
    Booting s' ∧ s'.kernel.owner s.kernel.lowest = some .listener ∧
      ∀ fd o, s.kernel.owner fd = some o → s'.kernel.owner fd = some o := by
  unfold createAndRegisterPassiveSocket at hs
  rcases selectorRegister_cases s.selector s.kernel.lowest handler OP_READ none h.fdSize with
    ⟨ufd, hufd, hlt, hfree, hstatus, hfds, hjobs, hfdSize⟩ | ⟨-, hstatus, -⟩
  · obtain rfl : s.kernel.lowest = ufd := by omega
    simp only [hstatus, ne_eq, not_true_eq_false, if_false, Option.some.injEq] at hs
    subst hs
    have hne : ∀ fd o, s.kernel.owner fd = some o → fd ≠ s.kernel.lowest := by
      rintro fd o ho rfl
      rw [s.kernel.owner_lowest] at ho
      cases ho
    refine ⟨⟨h.conns, h.stms, h.trace, h.resolving, hjobs.trans h.jobs, hfdSize ▸ h.fdSize,
      h.bufferSize, ?_, ?_, ?_⟩, by simp, ?_⟩
    · intro fd o ho
      by_cases hfd : fd = s.kernel.lowest
      · subst hfd
        left
        simpa using ho.symm
      · rw [Kernel.owner_openFd_of_ne _ _ hfd] at ho
        exact h.owner fd o ho
    · intro fd hused
      rw [hfds] at hused ⊢
      by_cases hfd : fd = s.kernel.lowest
      · subst hfd
        exact ⟨hlt, by simp, handler, OP_READ, by simp, hpassive⟩
      · rw [Function.update_of_ne hfd] at hused ⊢
        rw [Kernel.owner_openFd_of_ne _ _ hfd]
        exact h.item fd hused
    · intro fd ho
      rw [hfds]
      by_cases hfd : fd = s.kernel.lowest
      · subst hfd
        have hneg : ((s.kernel.lowest : ℤ) != -1) = true := by simp
        simp [Item.used, FD_UNUSED, hneg]
      · rw [Kernel.owner_openFd_of_ne _ _ hfd] at ho
        rw [Function.update_of_ne hfd]
        exact h.listener fd ho
    · intro fd o ho
      rw [Kernel.owner_openFd_of_ne _ _ (hne fd o ho)]
      exact ho
  · simp [hstatus] at hs

theorem Booting.registerAll (h : Booting s) {handlers : List FdHandler}
    (hpassive : ∀ handler ∈ handlers, handler = .socksv5 ∨ handler = .confProtocol)
    (hs : handlers.foldlM (fun s handler => createAndRegisterPassiveSocket handler s) s = some s') :
    Booting s' ∧ ∀ fd o, s.kernel.owner fd = some o → s'.kernel.owner fd = some o := by
  induction handlers generalizing s with
  | nil =>
    obtain rfl : s = s' := by simpa using hs
    exact ⟨h, fun _ _ ho => ho⟩
  | cons handler handlers ih =>
    rw [List.foldlM_cons, Option.bind_eq_bind, Option.bind_eq_some_iff] at hs
    obtain ⟨s₁, hs₁, hs⟩ := hs
    obtain ⟨h₁, -, hkeep₁⟩ := h.register (hpassive handler List.mem_cons_self) hs₁
    obtain ⟨h', hkeep⟩ := ih h₁ (fun d hd => hpassive d (List.mem_cons_of_mem _ hd)) hs
    exact ⟨h', fun fd o ho => hkeep fd o (hkeep₁ fd o ho)⟩

theorem Args.booting (args : Args) : Booting args.initial where
  conns _ := rfl
  stms _ := rfl
  trace := rfl
  resolving := rfl
  jobs := rfl
  fdSize := by
    change ITEMS_MAX_SIZE ≤ (selectorNew INITIAL_QUANTITY_FDS).fdSize
    decide
  bufferSize := args.bufferSize_ge
  owner fd o ho := by
    simp only [Args.initial, Kernel.owner_close] at ho
    split at ho
    · cases ho
    · exact .inr (args.inherited fd o ho)
  item fd hused := by
    rw [show args.initial.selector.fds fd = itemInit from fds_selectorNew _ fd] at hused
    exact absurd hused not_used_itemInit
  listener fd ho := by
    simp only [Args.initial, Kernel.owner_close] at ho
    split at ho
    · cases ho
    · cases args.inherited fd _ ho

/-- When the loop starts, descriptor 0 is the first listener. -/
theorem Booting.inv (h : Booting s) (hzero : s.kernel.owner 0 = some .listener) :
    Inv s ∧ ∀ c, Tidy c s := by
  have hnone : ∀ fd c, (s.selector.fds fd).relayOf c = none := by
    intro fd c
    cases hr : (s.selector.fds fd).relayOf c with
    | none => rfl
    | some r =>
      obtain ⟨hused, -, -, hdata, -⟩ := relayOf_eq_some_iff.mp hr
      obtain ⟨-, -, handler, i, hitem, -⟩ := h.item fd hused
      rw [hitem] at hdata
      cases hdata
  have hnot : ∀ fd o, s.kernel.owner fd = some o → o.conn = none := by
    intro fd o ho
    rcases h.owner fd o ho with rfl | rfl
    · rfl
    · rfl
  refine ⟨⟨?_, h.bufferSize, ?_, ?_⟩, ?_⟩
  · refine ⟨?_, hzero, h.listener, ?_, ?_, ?_, ?_, ?_, ?_, ?_, h.fdSize⟩
    · intro fd hused
      obtain ⟨hlt, howner, handler, i, hitem, hpassive⟩ := h.item fd hused
      rw [hitem]
      exact ⟨hlt, .listener handler i howner hpassive⟩
    · intro fd c ho
      cases hnot fd _ ho
    · intro c k hk
      rw [h.conns] at hk
      cases hk
    · intro c hc
      rw [h.stms] at hc
      cases hc
    · intro c hc
      rw [h.conns] at hc
      cases hc
    · simp [h.trace]
    · simp [h.jobs]
    · simp [h.resolving]
  · intro c v hview
    simp [Server.view, h.conns] at hview
  · intro fd c i v hr
    rw [hnone] at hr
    cases hr
  · intro c fd r hr
    rw [hnone] at hr
    cases hr

/-- When the loop starts there are only listeners, the first of them at descriptor 0. -/
theorem startServer_booting {args : Args} (hs : startServer args = some s) :
    Booting s ∧ s.kernel.owner 0 = some .listener := by
  have hlowest : args.initial.kernel.lowest = 0 :=
    Kernel.lowest_eq _ (by simp [Args.initial, Kernel.owner_close]) (by simp)
  have hpassive : ∀ handler ∈ args.listeners, handler = .socksv5 ∨ handler = .confProtocol := by
    intro handler hmem
    rcases List.mem_append.mp hmem with hmem | hmem
    · exact .inl (List.eq_of_mem_replicate hmem)
    · exact .inr (List.eq_of_mem_replicate hmem)
  unfold startServer at hs
  have hlisteners : args.listeners = .socksv5 :: (List.replicate args.moreSocksAddrs .socksv5 ++
      List.replicate (args.moreMngAddrs + 1) .confProtocol) := by
    simp [Args.listeners, List.replicate_succ]
  rw [hlisteners] at hs hpassive
  rw [List.foldlM_cons, Option.bind_eq_bind, Option.bind_eq_some_iff] at hs
  obtain ⟨s₁, hs₁, hs⟩ := hs
  obtain ⟨h₁, hzero, -⟩ := args.booting.register (.inl rfl) hs₁
  obtain ⟨h', hkeep⟩ := h₁.registerAll (fun d hd => hpassive d (List.mem_cons_of_mem _ hd)) hs
  rw [hlowest] at hzero
  exact ⟨h', hkeep 0 _ hzero⟩

/-- The server enters its loop in a good state. -/
theorem startServer_inv {args : Args} (hs : startServer args = some s) :
    Inv s ∧ ∀ c, Tidy c s :=
  (startServer_booting hs).1.inv (startServer_booting hs).2

/-- When the loop starts there are no connections. -/
theorem startServer_view {args : Args} (hs : startServer args = some s) (c : ConnId) :
    s.view c = none := by
  simp [Server.view, (startServer_booting hs).1.conns]

/-- The effect of an event without any assumption about it. -/
theorem Inv.effect (h : Inv s) (he : enabled s e = true) (hs : step s e = .ok s') :
    Effect ⟨true, false⟩ s e s' :=
  (dispatch h he (.inl rfl) (by simp)).result hs

/-- Every event keeps the invariant. -/
theorem Inv.step (h : Inv s) (he : enabled s e = true) (hs : step s e = .ok s') : Inv s' := by
  cases h.effect he hs with
  | background hb _ => exact hb.inv h
  | reaction c v r s₀ hview htarget hreaction hentered hlands =>
    obtain ⟨hok, hmove⟩ := hreaction.progress h hview
    exact hlands.inv h hview hentered hok hmove

/-- Every reachable state meets the invariant. -/
theorem Reachable.inv (h : Reachable s) : Inv s := by
  obtain ⟨args, s₀, events, hs₀, hrun⟩ := h
  exact hrun.invariant (startServer_inv hs₀).1 fun s e s' hs he _ hstep => hs.step he hstep

/-- What an event makes of one connection that is there afterwards. -/
theorem Effect.view {w : View} (h : Effect mode s e s') (hview : s'.view c = some w) :
    s.view c = some w ∨ c = s.nextConn ∧ w.Fresh ∨
      ∃ v, s.view c = some v ∧ Reaction s c v e (.alive w) := by
  cases h with
  | background hb _ =>
    rcases hb.fates c with ⟨heq, -⟩ | ⟨hnew, ⟨u, hu, hfresh⟩ | ⟨hnone, -⟩⟩
    · exact .inl (heq ▸ hview)
    · obtain rfl := Option.some.inj (hu.symm.trans hview)
      exact .inr (.inl ⟨hnew, hfresh⟩)
    · rw [hnone] at hview
      cases hview
  | reaction d v r s₀ hview₀ htarget hreaction hentered hlands =>
    by_cases hd : c = d
    · subst hd
      cases r with
      | alive x =>
        have hx : s'.view c = some x := Tracks.view hlands
        obtain rfl := Option.some.inj (hx.symm.trans hview)
        exact .inr (.inr ⟨v, hview₀, hreaction⟩)
      | gone history =>
        have hgone : s'.conns c = none := Released.conns hlands
        simp [Server.view, hgone] at hview
    · exact .inl (hlands.others hentered hd ▸ hview)

/-- A connection that did something was accepted before. -/
theorem Inv.known_of_history (h : Inv s) (hknown : s.history c ≠ []) : c < s.nextConn := by
  obtain ⟨o, ho⟩ := List.exists_mem_of_ne_nil _ hknown
  obtain ⟨hmem, hconn⟩ := List.mem_filter.mp ho
  have hc : o.conn = c := by simpa using hconn
  exact hc ▸ h.owned.trace o hmem

/-- What a connection did stays on record. -/
theorem Effect.history_ne_nil (h : Effect mode s e s') (hinv : Inv s) (hknown : s.history c ≠ []) :
    s'.history c ≠ [] := by
  cases h with
  | background hb _ =>
    rcases hb.fates c with ⟨-, heq⟩ | ⟨rfl, -⟩
    · rw [heq]
      exact hknown
    · exact absurd (hinv.known_of_history hknown) (Nat.lt_irrefl _)
  | reaction d v r s₀ hview₀ htarget hreaction hentered hlands =>
    obtain ⟨t, ht, -⟩ := hlands.frame.trace
    rw [Server.history, ht, hentered.trace, List.filter_append]
    exact fun hnil => hknown (List.append_eq_nil_iff.mp hnil).1

/-- A property of one connection that holds when it is accepted and survives its reactions
holds of every connection in every state a guarded run reaches. -/
theorem ReachableUnder.views {guard : Server → Event → Prop} {P : ConnId → View → Prop}
    (h : ReachableUnder guard s) (hfresh : ∀ c v, v.Fresh → P c v)
    (hreact : ∀ s e c v w, ReachableUnder guard s → guard s e → s.view c = some v → P c v →
      Reaction s c v e (.alive w) → P c w) : ∀ c v, s.view c = some v → P c v := by
  refine h.invariant (I := fun s => ∀ c v, s.view c = some v → P c v) ?_ ?_
  · intro args s₀ hs₀ c v hview
    rw [startServer_view hs₀] at hview
    cases hview
  · intro s e s' hreach hP he hg hstep c w hview
    rcases (hreach.reachable.inv.effect he hstep).view hview with
      hbefore | ⟨-, hnew⟩ | ⟨v, hbefore, hreaction⟩
    · exact hP c w hbefore
    · exact hfresh c w hnew
    · exact hreact s e c v w hreach hg hbefore (hP c v hbefore) hreaction

/-- A property of what a connection did that is kept as long as it reacts, and one that is left
when it is released, hold of the history of every connection in every state a guarded run
reaches. -/
theorem ReachableUnder.histories {guard : Server → Event → Prop} {P : ConnId → View → Prop}
    {Q : ConnId → List Obs → Prop} (h : ReachableUnder guard s) (hnone : ∀ c, Q c [])
    (hundone : ∀ c, Q c [.released c]) (hfresh : ∀ c v, v.Fresh → P c v)
    (hhistory : ∀ c v, P c v → Q c v.history)
    (hkept : ∀ s e c v w, ReachableUnder guard s → guard s e → s.view c = some v → P c v →
      Reaction s c v e (.alive w) → P c w)
    (hgone : ∀ s e c v history, ReachableUnder guard s → guard s e → s.view c = some v → P c v →
      Reaction s c v e (.gone history) → Q c history) : ∀ c, Q c (s.history c) := by
  refine h.invariant (I := fun s => ∀ c, Q c (s.history c)) ?_ ?_
  · intro args s₀ hs₀ c
    rw [Server.history, (startServer_booting hs₀).1.trace]
    exact hnone c
  · intro s e s' hreach hQ he hg hstep c
    have hP := hreach.views hfresh hkept
    cases hreach.reachable.inv.effect he hstep with
    | background hb _ =>
      rcases hb.fates c with ⟨-, heq⟩ | ⟨-, ⟨v, hview, hv⟩ | ⟨-, heq⟩⟩
      · rw [heq]
        exact hQ c
      · rw [(view_eq_some_iff.mp hview).2.2.2.2.2, hv.history]
        exact hnone c
      · rw [heq]
        exact hundone c
    | reaction d v r s₁ hview htarget hreaction hentered hlands =>
      by_cases hd : c = d
      · subst hd
        cases r with
        | alive w =>
          have hw : s'.view c = some w := Tracks.view hlands
          rw [(view_eq_some_iff.mp hw).2.2.2.2.2]
          exact hhistory c w (hkept s e c v w hreach hg hview (hP c v hview) hreaction)
        | gone history =>
          rw [Released.history_eq hlands]
          exact hgone s e c v history hreach hg hview (hP c v hview) hreaction
      · obtain ⟨t, ht, hconn⟩ := hlands.frame.trace
        have hother : t.filter (fun o => o.conn == c) = [] := by
          apply List.filter_eq_nil_iff.mpr
          intro o ho hoc
          exact hd ((beq_iff_eq.mp hoc).symm.trans (hconn o ho))
        rw [Server.history, ht, hentered.trace, List.filter_append, hother, List.append_nil]
        exact hQ c

/-- A property of a connection that survives its guarded reactions holds as long as it is there. -/
theorem Inv.run_view {guard : Server → Event → Prop} {P : View → Prop} {events : List Event}
    (h : Inv s) (hknown : s.history c ≠ []) (hP : ∀ v, s.view c = some v → P v)
    (hreact : ∀ s e v w, Inv s → guard s e → s.view c = some v → P v →
      Reaction s c v e (.alive w) → P w)
    (hrun : Run machine guard s events s') : ∀ w, s'.view c = some w → P w := by
  have hall : Inv s' ∧ s'.history c ≠ [] ∧ ∀ w, s'.view c = some w → P w := by
    refine hrun.invariant
      (I := fun s => Inv s ∧ s.history c ≠ [] ∧ ∀ w, s.view c = some w → P w) ⟨h, hknown, hP⟩ ?_
    rintro s e s' ⟨hinv, hold, hall⟩ he hg hstep
    have heffect := hinv.effect he hstep
    refine ⟨hinv.step he hstep, heffect.history_ne_nil hinv hold, fun w hview => ?_⟩
    rcases heffect.view hview with hbefore | ⟨rfl, -⟩ | ⟨v, hbefore, hreaction⟩
    · exact hall w hbefore
    · exact absurd (hinv.known_of_history hold) (Nat.lt_irrefl _)
    · exact hreact s e v w hinv hg hbefore (hall v hbefore) hreaction
  exact hall.2.2

/-- As long as retries keep their descriptor, no registration is left behind. -/
theorem ReachableUnder.tidy (h : ReachableUnder RetryKeeps s) (c : ConnId) : Tidy c s := by
  obtain ⟨args, s₀, events, hs₀, hrun⟩ := h
  have hall : Inv s ∧ ∀ c, Tidy c s := by
    refine hrun.invariant (I := fun s => Inv s ∧ ∀ c, Tidy c s) (startServer_inv hs₀) ?_
    rintro s e s' ⟨hinv, htidy⟩ he hkeeps hstep
    refine ⟨hinv.step he hstep, ?_⟩
    have hdispatch : Holds (Tolerated s e) (step s e) (Effect ⟨true, true⟩ s e) :=
      dispatch hinv he (.inl rfl) fun _ => ⟨htidy, hkeeps⟩
    have heffect := hdispatch.result hstep
    cases heffect with
    | background hb _ => exact fun d => hb.tidy (htidy d)
    | reaction c v r s₁ hview htarget hreaction hentered hlands =>
      intro d
      by_cases hd : d = c
      · subst hd
        cases r with
        | alive w => exact Tracks.tidy hlands rfl
        | gone history => exact Released.tidy hlands rfl
      · have hframe := hlands.frame
        intro fd r' hr'
        obtain ⟨i, hi⟩ := hframe.registrations fd d hd r' hr'
        rw [hentered.fds] at hi
        obtain ⟨k, hk, hfd⟩ := htidy d fd _ hi
        exact ⟨k, (hframe.conns d hd).trans ((congrFun hentered.conns d).trans hk), hfd⟩
  exact hall.2 c

end Socks5d
