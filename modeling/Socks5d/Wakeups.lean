import Socks5d.Closing

/-!
# What wakes a relay up

Bytes in a buffer of a relay have the side they go to registered for writing, and a side is paused
only for a full buffer. This needs the origin of a relay to be registered for it: the relay is
entered without one when the descriptor of a connection that stood at once still carries a
registration of another connection, which the code does not notice.
-/

namespace Socks5d

open GuardedRun

variable {s s' : Server} {c d : ConnId} {v w : View} {e : Event} {junk : Memory}
  {fds : ℕ → Item} {out : SendOutcome} {r : Result} {env : Env} {fd : ℕ}

/-- The walk over the addresses ends with a connection that stands at once. -/
def Dial.stands : Dial → Bool
  | .connected _ => true
  | _ => false

/-- A connection that stands at once gets a descriptor nothing is registered for. -/
def FreshOrigin (s : Server) (e : Event) : Prop :=
  match e with
  | .notify env => ∀ k ∈ (e.target s).bind s.conns, (dial k.addrInfo env.connects).stands = true →
      (s.selector.fds s.kernel.lowest).used = false
  | _ => True

instance (s : Server) : (e : Event) → Decidable (FreshOrigin s e)
  | .notify env => inferInstanceAs (Decidable
      (∀ k ∈ ((Event.notify env).target s).bind s.conns,
        (dial k.addrInfo env.connects).stands = true →
          (s.selector.fds s.kernel.lowest).used = false))
  | .readable _ _ | .writable _ _ | .resolved _ _ | .adminInterest _ _ | .adminClose _
  | .configure _ _ _ => isTrue trivial

/-- At the origin of a relay no other connection is registered. -/
def Separate (s : Server) : Prop :=
  ∀ c v, s.view c = some v → v.phase = some .copy → ∀ fd : ℕ, v.conn.originFd = fd → 0 < fd →
    ∀ d, d ≠ c → (s.selector.fds fd).relayOf d = none

/-- Sending in the relay phase keeps `in_buff` and the origin's registration. -/
theorem Wrote.keeps (h : Wrote c junk fds v out (.alive w)) (hphase : v.phase = some .copy) :
    w.conn.inBuff = v.conn.inBuff ∧ w.relay.isSome = v.relay.isSome := by
  have hsent : ∀ n left, (v.sent c n left).relay.isSome = v.relay.isSome := by
    intro n left
    simp only [View.sent]
    split <;> split <;> simp
  cases h with
  | idle _ => exact ⟨rfl, rfl⟩
  | blocked _ _ => exact ⟨rfl, rfl⟩
  | relayed n left _ _ _ _ _ => exact ⟨rfl, hsent n left⟩
  | advanced n left r _ _ _ _ hadvance => exact absurd hphase hadvance.not_copy

/-- Sending to the origin keeps its registration. -/
theorem CopyWrote.keeps (h : CopyWrote c v out (.alive w)) :
    w.relay.isSome = v.relay.isSome := by
  cases h with
  | idle _ => simp
  | blocked _ _ => rfl
  | delivered n left _ _ _ _ =>
    simp only [View.delivered]
    split <;> simp

/-- A relay that a notification starts has the new descriptor of a connection that stood at
once. -/
theorem Blocks.entry {lowest : ℕ} (h : Blocks c junk env fds lowest v (.alive w))
    (hempty : v.conn.outBuff.content = []) (hcapacity : BUFF_MIN_LEN ≤ v.conn.outBuff.capacity)
    (hphase : v.phase = some .connecting) (herror : v.conn.isErrorResponse = false)
    (hcopy : w.phase = some .copy) :
    w.conn.originFd = lowest ∧ w.conn.inBuff.content = [] ∧
      (dial v.conn.addrInfo env.connects).stands = true := by
  cases h with
  | noAddress u hnone hqueued => cases hcopy
  | pending peer rest hdial => cases hphase.symm.trans hcopy
  | established peer u x y hdial hqueued hwrote henters =>
    obtain ⟨hleft, -, -, hin, horigin, -⟩ := hqueued.succeeding (c := c) hempty hcapacity
    obtain ⟨hconn, -, huphase, -⟩ := hqueued.fields
    have huphase' : (u.succeeding c).phase = some .connecting := huphase.trans hphase
    have huerror : (u.succeeding c).conn.isErrorResponse = false := by
      change u.conn.isErrorResponse = false
      rw [hconn]
      exact herror
    have hlowest : (u.succeeding c).conn.originFd = lowest := by
      rw [horigin]
      simp [View.registered, View.dialed, hdial, Dial.originFd]
    have hstands : (dial v.conn.addrInfo env.connects).stands = true := by
      rw [hdial]
      rfl
    rcases hwrote.entersCopy henters huphase' huerror hleft with
      ⟨relay, -, rfl⟩ | ⟨n, left, relay, -, -, -, rfl⟩
    · exact ⟨hlowest, hin, hstands⟩
    · exact ⟨hlowest, hin, hstands⟩

/-- A relay that the end of a pending connect starts has its origin registered, unless the table
has no place for it. -/
theorem Connects.entry {lowest : ℕ} (h : Connects c junk env fds lowest v (.alive w))
    (hphase : v.phase = some .connecting) (hcopy : w.phase = some .copy)
    (hfd : w.conn.originFd = fd) :
    w.conn.inBuff.content = [] ∧ (w.relay ≠ none ∨ ITEMS_MAX_SIZE ≤ fd) := by
  cases h with
  | retried err relay hopen herr hsome hdial hrelay => cases hphase.symm.trans hcopy
  | refused v₁ u err err' hopen herr hfrom hqueued =>
    have hgiven : (-1 : ℤ) = fd := hfd
    omega
  | established table u r relay _ hstands hrelay hqueued hwrote =>
    obtain ⟨hconn, -, huphase, -, hurelay, -⟩ := hqueued.fields
    obtain ⟨hsame, hkept⟩ := hwrote.keeps huphase
    refine ⟨by rw [hsame]; simp [View.succeeding, View.reset], ?_⟩
    have horigin : v.conn.originFd = fd := by
      have hu : (u.succeeding c).conn.originFd = v.conn.originFd := by
        change u.conn.originFd = v.conn.originFd
        rw [hconn]
        rfl
      rw [← hu, ← hwrote.originFd, hfd]
    by_cases hlt : fd < ITEMS_MAX_SIZE
    · left
      have hsome : relay = some (.copySelectorHandler, OP_NOOP) := by
        rw [hrelay, if_pos ⟨by omega, by omega⟩]
      have husome : (u.succeeding c).relay = some (.copySelectorHandler, OP_NOOP) :=
        hurelay.trans hsome
      rw [husome] at hkept
      exact Option.isSome_iff_ne_none.mp hkept
    · exact .inr (by omega)

/-- A relay with an origin is entered with the origin registered, or it is the one whose
connection stood at once. -/
theorem Reaction.entry (h : Reaction s c v e (.alive w)) (hinv : Inv s) (hview : s.view c = some v)
    (hbefore : v.phase ≠ some .copy) (hcopy : w.phase = some .copy) (hfd : w.conn.originFd = fd)
    (hpos : 0 < fd) :
    w.conn.inBuff.content = [] ∧ (w.relay ≠ none ∨ ITEMS_MAX_SIZE ≤ fd ∨
      fd = s.kernel.lowest ∧
        ∃ env, e = .notify env ∧ (dial v.conn.addrInfo env.connects).stands = true) := by
  have hok := hinv.ok c v hview
  have hphaseOk := hok.phase
  have henters := (h.progress hinv hview).2.enters_copy hcopy
  cases h with
  | greets fd env r hitem hready hphase hread =>
    rcases hphase with hphase | hphase <;> simp [hphase] at henters
  | authenticates fd env r hitem hready hphase hread => simp [hphase] at henters
  | requests fd env r hitem hready hphase hread =>
    rw [View.PhaseOk, hphase] at hphaseOk
    have hreq : v.Requesting := hphaseOk
    exact absurd hcopy (hread.not_copy hphase hreq.parser)
  | relays fd env r hitem hready hphase hread => exact absurd hphase hbefore
  | sends table fd env r hitem hready hwrote =>
    -- the write handler of a phase before the relay only leads there without an origin
    obtain ⟨herror, -⟩ := hwrote.enters hbefore hcopy
    have hsame := hwrote.originFd
    rw [View.PhaseOk] at hphaseOk
    rcases henters.resolve_left hbefore with hconnecting | hconnectionReq
    · rw [hconnecting] at hphaseOk
      rcases hphaseOk with hw | hp | hr
      · rw [hw.interest] at hready; cases hready
      · rw [hp.interest] at hready; cases hready
      · rw [hr.isErrorResponse] at herror; cases herror
    · rw [hconnectionReq] at hphaseOk
      have hreq : v.Requesting := hphaseOk
      have hzero := hreq.originFd
      omega
  | blocks env r hphase hwaiting hblocks =>
    obtain ⟨horigin, hin, hstands⟩ :=
      hblocks.entry hwaiting.outBuff hok.outCapacity hphase hwaiting.isErrorResponse hcopy
    exact ⟨hin, .inr (.inr ⟨by omega, env, rfl, hstands⟩)⟩
  | resolves env hphase hwaiting => exact absurd hcopy hbefore
  | connects _ env r i hitem hset hphase hconnects =>
    obtain ⟨hin, hplace⟩ :=
      hconnects.entry (hphase.resolve_right fun hc => hbefore hc.1) hcopy hfd
    exact ⟨hin, hplace.imp_right .inl⟩
  | receives fd env r i horigin hrelay hready hphase hreceived => exact absurd hphase hbefore
  | delivers fd env r i horigin hrelay hready hphase hwrote => exact absurd hphase hbefore

/-- A registered origin is registered for nobody else. -/
theorem relayOf_eq_none_of_relay (hview : s.view c = some v) (hfd : v.conn.originFd = fd)
    (hsome : v.relay ≠ none) (hd : d ≠ c) : (s.selector.fds fd).relayOf d = none := by
  obtain ⟨-, -, -, hrelay, -⟩ := view_eq_some_iff.mp hview
  obtain ⟨r, hr⟩ := Option.ne_none_iff_exists'.mp hsome
  rw [hr, Server.relay] at hrelay
  split at hrelay
  · rw [hfd, Int.toNat_natCast] at hrelay
    obtain ⟨-, -, -, hdata, -⟩ := relayOf_eq_some_iff.mp hrelay
    by_contra hne
    obtain ⟨r', hr'⟩ := Option.ne_none_iff_exists'.mp hne
    obtain ⟨-, -, -, hdata', -⟩ := relayOf_eq_some_iff.mp hr'
    exact hd (Option.some.inj (hdata'.symm.trans hdata))
  · cases hrelay

/-- A relay keeps its `origin_fd` or gives it up. -/
theorem Reaction.originFd_copy (h : Reaction s c v e (.alive w)) (hphase : v.phase = some .copy) :
    w.conn.originFd = v.conn.originFd ∨ w.conn.originFd = -1 := by
  cases h with
  | greets fd env r hitem hready hearly hread => simp [hphase] at hearly
  | authenticates fd env r hitem hready hearly hread => cases hphase.symm.trans hearly
  | requests fd env r hitem hready hearly hread => cases hphase.symm.trans hearly
  | relays fd env r hitem hready _ hread => exact .inl hread.originFd
  | sends table fd env r hitem hready hwrote => exact .inl hwrote.originFd
  | blocks env r hearly hwaiting hblocks => cases hphase.symm.trans hearly
  | resolves env hearly hwaiting => cases hphase.symm.trans hearly
  | connects fd env r i hitem hset hcopying hconnects =>
    have hnone : v.conn.addrInfo = [] :=
      (hcopying.resolve_left (by simp [hphase])).2
    cases hconnects with
    | retried err relay hopen herr hsome hdial hrelay => exact absurd hnone hsome
    | refused v₁ u err err' hopen herr hfrom hqueued => exact .inr rfl
    | established table u r relay hearly hstands hrelay hqueued hwrote =>
      cases hphase.symm.trans hearly
  | receives fd env r i horigin hrelay hready _ hreceived => exact .inl hreceived.originFd
  | delivers fd env r i horigin hrelay hready _ hwrote => exact .inl hwrote.originFd

/-- As long as connections that stand at once get fresh descriptors, relays stay separate. -/
theorem Separate.step (hsep : Separate s) (hinv : Inv s) (he : enabled s e = true)
    (hfresh : FreshOrigin s e) (hstep : Socks5d.step s e = .ok s') : Separate s' := by
  intro c w hview hcopy fd hfd hpos d hd
  have hshrinks : (s.selector.fds fd).relayOf d = none → (∀ r, (s'.selector.fds fd).relayOf d = some r →
      ∃ i, (s.selector.fds fd).relayOf d = some (r.1, i)) →
        (s'.selector.fds fd).relayOf d = none := by
    intro hnone hkept
    by_contra hne
    obtain ⟨r, hr⟩ := Option.ne_none_iff_exists'.mp hne
    obtain ⟨i, hi⟩ := hkept r hr
    rw [hnone] at hi
    cases hi
  cases hinv.effect he hstep with
  | background hb _ =>
    rw [hb.registrations]
    rcases hb.fates c with ⟨heq, -⟩ | ⟨-, ⟨u, hu, hu'⟩ | ⟨hnone, -⟩⟩
    · exact hsep c w (heq ▸ hview) hcopy fd hfd hpos d hd
    · obtain rfl := Option.some.inj (hu.symm.trans hview)
      cases hu'.phase.symm.trans hcopy
    · rw [hnone] at hview
      cases hview
  | reaction b v r s₀ hviewb htarget hreaction hentered hlands =>
    have hregistrations := hlands.frame.registrations fd
    rw [hentered.fds] at hregistrations
    by_cases hcb : c = b
    · subst hcb
      cases r with
      | gone history =>
        have hgone : s'.conns c = none := Released.conns hlands
        simp [Server.view, hgone] at hview
      | alive x =>
        have hx : s'.view c = some x := Tracks.view hlands
        obtain rfl := Option.some.inj (hx.symm.trans hview)
        by_cases hphase : v.phase = some .copy
        · rcases hreaction.originFd_copy hphase with hsame | hgiven
          · refine hshrinks (hsep c v hviewb hphase fd (hsame ▸ hfd) hpos d hd) ?_
            exact hregistrations d hd
          · omega
        · rcases (hreaction.entry hinv hviewb hphase hcopy hfd hpos).2 with
            hsome | hmax | ⟨rfl, env, rfl, hstands⟩
          · exact relayOf_eq_none_of_relay hview hfd hsome hd
          · refine relayOf_of_not_used fun hused => ?_
            obtain ⟨hlt, -⟩ := hlands.owned.registered fd hused
            omega
          · obtain ⟨hconn, -⟩ := view_eq_some_iff.mp hviewb
            have hfree : (s.selector.fds s.kernel.lowest).used = false :=
              hfresh v.conn (by simp [htarget, hconn]) hstands
            refine hshrinks (relayOf_of_not_used (by simp [hfree])) ?_
            exact hregistrations d hd
    · have hbefore : s.view c = some w := hlands.others hentered hcb ▸ hview
      obtain ⟨hconn, -⟩ := view_eq_some_iff.mp hbefore
      rw [hlands.frame.originItem hentered.owned hcb (hentered.conns ▸ hconn) hfd hpos,
        hentered.fds]
      exact hsep c w hbefore hcopy fd hfd hpos d hd

/-- A registration at the origin of a separate relay is its own. -/
theorem Separate.relay_ne_none (hsep : Separate s) (hinv : Inv s) (hview : s.view c = some v)
    (hcopy : v.phase = some .copy) (hpos : 0 < v.conn.originFd)
    (hregistered : OriginRegistered s v.conn) : v.relay ≠ none := by
  obtain ⟨hconn, -, -, hrelay, -⟩ := view_eq_some_iff.mp hview
  obtain ⟨n, hn, -, hused⟩ := hregistered
  have hown : ∀ o, s.kernel.owner n = some o → ∃ d p, o = .origin d p := by
    rcases (hinv.owned.conn c v.conn hconn).2.1 with h0 | h1 | ⟨m, hm, -, ⟨p, hp⟩ | ⟨hhole, -⟩⟩
    · omega
    · omega
    · obtain rfl : m = n := by omega
      rintro o ho
      exact ⟨c, p, Option.some.inj (ho.symm.trans hp)⟩
    · cases hhole
  obtain ⟨d, handler, i, hisRelay, hitem⟩ := hinv.owned.relay_at_origin hused hown
  have hsome : (s.selector.fds n).relayOf d = some (handler, i) :=
    relayOf_eq_some_iff.mpr ⟨hused, by rw [hitem], hisRelay, by rw [hitem], by rw [hitem]⟩
  by_cases hd : d = c
  · subst hd
    rw [← hrelay, Server.relay, if_pos hpos, hn, Int.toNat_natCast, hsome]
    simp
  · have hnone := hsep c v hview hcopy n hn (by omega) d hd
    rw [hsome] at hnone
    cases hnone

/-- Bytes for the origin of a relay wait at a registered origin. -/
def View.Anchored (v : View) : Prop :=
  v.phase = some .copy → 0 < v.conn.originFd → v.conn.inBuff.content ≠ [] → v.relay ≠ none

/-- Reactions of a separate relay keep its bytes at a registered origin. -/
theorem Reaction.anchored (h : Reaction s c v e (.alive w)) (hinv : Inv s) (hsep : Separate s)
    (hview : s.view c = some v)
    (hflow : v.phase = some .copy → 0 < v.conn.originFd → v.Flow c) (hv : v.Anchored) :
    w.Anchored := by
  intro hcopy hpos hin
  have hok := hinv.ok c v hview
  by_cases hphase : v.phase = some .copy
  · have hpos' : 0 < v.conn.originFd := by
      rcases h.originFd_copy hphase with hsame | hgiven
      · omega
      · omega
    have hkept : w.conn.inBuff = v.conn.inBuff → w.relay.isSome = v.relay.isSome →
        w.relay ≠ none := by
      intro hsame hrelay
      rw [← Option.isSome_iff_ne_none, hrelay, Option.isSome_iff_ne_none]
      exact hv hphase hpos' (hsame ▸ hin)
    cases h with
    | greets fd env r hitem hready hearly hread => simp [hphase] at hearly
    | authenticates fd env r hitem hready hearly hread => cases hphase.symm.trans hearly
    | requests fd env r hitem hready hearly hread => cases hphase.symm.trans hearly
    | relays fd env r hitem hready _ hread =>
      cases hread with
      | full _ => exact hkept rfl (by simp)
      | blocked _ _ => exact hv hphase hpos' hin
      | handled first rest buff r _ _ _ _ hQ =>
        cases hQ with
        | relayed r hregistered _ hwrote =>
          have hsome := hsep.relay_ne_none hinv hview hphase hpos' hregistered
          rw [← Option.isSome_iff_ne_none, hwrote.keeps]
          simpa [View.received, Option.isSome_iff_ne_none] using hsome
    | sends table fd env r hitem hready hwrote =>
      obtain ⟨hsame, hrelay⟩ := hwrote.keeps hphase
      exact hkept hsame hrelay
    | blocks env r hearly hwaiting hblocks => cases hphase.symm.trans hearly
    | resolves env hearly hwaiting => cases hphase.symm.trans hearly
    | connects fd env r i hitem hset hcopying hconnects =>
      cases hconnects with
      | retried err relay hopen herr hsome hdial hrelay =>
        exact absurd (hcopying.resolve_left (by simp [hphase])).2 hsome
      | refused v₁ u err err' hopen herr hfrom hqueued =>
        have hgiven : (-1 : ℤ) > 0 := hpos
        omega
      | established table u r relay hearly hstands hrelay hqueued hwrote =>
        cases hphase.symm.trans hearly
    | receives fd env r i horigin hrelay hready _ hreceived =>
      obtain ⟨hempty, -⟩ := (hflow hphase hpos').inBuff_of_read hrelay hready
      cases hreceived with
      | full _ => exact hkept rfl (by simp)
      | received table first rest buff r _ _ _ _ hwrote =>
        obtain ⟨hsame, hrelay'⟩ := hwrote.keeps hphase
        exact hkept hsame hrelay'
      | ended _ _ => exact absurd hempty hin
      | blocked _ _ => exact hv hphase hpos' hin
    | delivers fd env r i horigin hrelay hready _ hwrote =>
      rw [← Option.isSome_iff_ne_none, hwrote.keeps, hrelay]
      rfl
  · obtain ⟨fd, hfd⟩ := Int.eq_ofNat_of_zero_le (Int.le_of_lt hpos)
    exact absurd (h.entry hinv hview hphase hcopy hfd (by omega)).1 hin

/-- While connections that stand at once get fresh descriptors, relays stay separate and hold no
bytes for an origin that is not registered. -/
theorem ReachableUnder.anchored (h : ReachableUnder FreshOrigin s) :
    Separate s ∧ ∀ c v, s.view c = some v → v.Anchored := by
  refine h.invariant (I := fun s => Separate s ∧ ∀ c v, s.view c = some v → v.Anchored) ?_ ?_
  · intro args s₀ hs₀
    refine ⟨fun c v hview => ?_, fun c v hview => ?_⟩
    · rw [startServer_view hs₀] at hview
      cases hview
    · rw [startServer_view hs₀] at hview
      cases hview
  · rintro s e s' hreach ⟨hsep, hanchored⟩ he hfresh hstep
    have hinv := hreach.reachable.inv
    refine ⟨hsep.step hinv he hfresh hstep, fun c w hview => ?_⟩
    rcases (hinv.effect he hstep).view hview with hbefore | ⟨-, hnew⟩ | ⟨v, hbefore, hreaction⟩
    · exact hanchored c w hbefore
    · intro hcopy
      cases hnew.phase.symm.trans hcopy
    · exact hreaction.anchored hinv hsep hbefore (hreach.flow hbefore) (hanchored c v hbefore)

/-- Every byte in a buffer of a relay has a wake-up, and who is paused waits for a full buffer. -/
structure View.Awake (c : ConnId) (v : View) : Prop where
  origin : v.conn.inBuff.content ≠ [] → v.relay = some (.copySelectorHandler, OP_WRITE)
  client : v.conn.outBuff.content ≠ [] → v.interest = OP_WRITE
  clientPaused : v.interest = OP_NOOP → v.conn.inBuff.space = 0
  originPaused : v.Relayed c → ∀ handler, v.relay = some (handler, OP_NOOP) →
    v.conn.outBuff.space = 0

/-- In runs in which connections that stand at once get fresh descriptors, no byte of a relay
waits without a wake-up. -/
theorem relay_awake (h : ReachableUnder FreshOrigin s) (hview : s.view c = some v)
    (hcopy : v.phase = some .copy) (horigin : 0 < v.conn.originFd) : v.Awake c := by
  have hflow := h.flow hview hcopy horigin
  refine ⟨fun hin => ?_, (h.uploads hview hcopy).2, fun hpaused => ?_, fun hrelayed handler hr => ?_⟩
  · obtain ⟨⟨handler, i⟩, hr⟩ :=
      Option.ne_none_iff_exists'.mp (h.anchored.2 c v hview hcopy horigin hin)
    obtain rfl : i = OP_WRITE := (hflow.pending hin).2 _ hr
    rcases (h.reachable.inv.ok c v hview).relay _ hr with ⟨-, hconnecting, -⟩ | ⟨hhandler, -⟩
    · cases hcopy.symm.trans hconnecting
    · rw [hr]
      exact congrArg (fun x => some (x, OP_WRITE)) hhandler
  · rcases hflow.client with ⟨-, hi⟩ | ⟨-, hi | ⟨-, hfull⟩⟩
    · cases hi.symm.trans hpaused
    · cases hi.symm.trans hpaused
    · exact hfull
  · by_cases hin : v.conn.inBuff.content = []
    · rcases hflow.idle hin _ hr with ⟨-, hi | ⟨-, hfull⟩⟩ | ⟨hnone, -⟩
      · cases hi
      · exact hfull
      · exact absurd hrelayed hnone
    · cases (hflow.pending hin).2 _ hr

/-- A retry of the second connection leaves its registration at descriptor 5, which the third
one gets for a connection that stands at once; the origin does not take the byte it then sends. -/
theorem not_awake_reused : ∃ (s : Server) (v : View), Reachable s ∧ s.view 2 = some v ∧
    v.phase = some .copy ∧ 0 < v.conn.originFd ∧ ¬ v.Awake 2 := by
  obtain ⟨s, hs, hcheck⟩ := reachable_of_after
    [arrives, arrives, arrives, greets 3, asks 3 [loopback, loopback],
      .notify { connects := [.failed .einprogress] }, greets 4,
      .readable 2 { recv := .eof }, asks 4 [loopback],
      .writable 5 { soError := some .econnrefused, connects := [.failed .einprogress] },
      .notify { connects := [.connected], sends := [.accepted 21] },
      .readable 4 { recv := .data 7 [] }]
    (fun s => (s.view 2).any fun v : View => v.phase == some .copy &&
      decide (0 < v.conn.originFd) && v.conn.inBuff.content == [7] && v.relay == none)
    (by decide +kernel)
  simp only [Option.any_eq_true, Bool.and_eq_true, beq_iff_eq, decide_eq_true_eq] at hcheck
  obtain ⟨v, hview, ⟨⟨hcopy, hpos⟩, hin⟩, hnone⟩ := hcheck
  refine ⟨s, v, hs, hview, hcopy, hpos, fun hawake => ?_⟩
  have horigin := hawake.origin (by simp [hin])
  rw [hnone] at horigin
  cases horigin

/-- The only connection gets a fresh descriptor, and its byte waits at a registered origin. -/
theorem relay_awake_fresh : ∃ (s : Server) (v : View), s.view 0 = some v ∧
    v.conn.inBuff.content = [7] ∧ v.Awake 0 := by
  obtain ⟨s, hs, hcheck⟩ := reachableUnder_of_after FreshOrigin
    (relaying ++ [.readable 2 { recv := .data 7 [] }])
    (fun s => (s.view 0).any fun v : View => v.phase == some .copy &&
      decide (0 < v.conn.originFd) && v.conn.inBuff.content == [7])
    (by decide +kernel)
  simp only [Option.any_eq_true, Bool.and_eq_true, beq_iff_eq, decide_eq_true_eq] at hcheck
  obtain ⟨v, hview, ⟨hcopy, hpos⟩, hin⟩ := hcheck
  exact ⟨s, v, hview, hin, relay_awake hs hview hcopy hpos⟩

/-- The origin is registered for reading. -/
def View.Listens (v : View) : Prop := ∃ handler i, v.relay = some (handler, i) ∧ i.read = true

/-- An idle relay listens to its origin exactly if the origin could be registered and was sent
something before. -/
theorem idle_listens_iff (hs : Reachable s) (hview : s.view c = some v)
    (hcopy : v.phase = some .copy) (horigin : 0 < v.conn.originFd)
    (hin : v.conn.inBuff.content = []) (hout : 0 < v.conn.outBuff.space) :
    v.Listens ↔ v.relay ≠ none ∧ v.Relayed c := by
  have hflow := ReachableUnder.flow hs hview hcopy horigin
  constructor
  · rintro ⟨handler, i, hr, hread⟩
    refine ⟨by simp [hr], ?_⟩
    rcases hflow.idle hin _ hr with ⟨hrelayed, -⟩ | ⟨-, hi, -⟩
    · exact hrelayed
    · obtain rfl : i = OP_NOOP := hi
      cases hread
  · rintro ⟨hsome, hrelayed⟩
    obtain ⟨⟨handler, i⟩, hr⟩ := Option.ne_none_iff_exists'.mp hsome
    refine ⟨handler, i, hr, ?_⟩
    rcases hflow.idle hin _ hr with ⟨-, hi | ⟨-, hfull⟩⟩ | ⟨hnone, -⟩
    · obtain rfl : i = OP_READ := hi
      rfl
    · omega
    · exact absurd hrelayed hnone

/-- A relay whose client has not spoken yet does not listen to its origin. -/
theorem not_listens_silent : ∃ (s : Server) (v : View), Reachable s ∧ s.view 0 = some v ∧
    v.phase = some .copy ∧ 0 < v.conn.originFd ∧ Obs.established 0 ∈ v.history ∧
    Obs.ended 0 .origin ∉ v.history ∧ v.conn.inBuff.content = [] ∧ 0 < v.conn.outBuff.space ∧
    ¬ v.Listens := by
  obtain ⟨s, hs, hcheck⟩ := reachable_of_after relaying
    (fun s => (s.view 0).any fun v : View => v.phase == some .copy &&
      decide (0 < v.conn.originFd) && decide (.established 0 ∈ v.history) &&
      decide (.ended 0 .origin ∉ v.history) && v.conn.inBuff.content == [] &&
      decide (0 < v.conn.outBuff.space) && v.relay == some (.copySelectorHandler, OP_NOOP))
    (by decide +kernel)
  simp only [Option.any_eq_true, Bool.and_eq_true, beq_iff_eq, decide_eq_true_eq] at hcheck
  obtain ⟨v, hview, ⟨⟨⟨⟨⟨hcopy, hpos⟩, hstands⟩, hopen⟩, hin⟩, hout⟩, hrelay⟩ := hcheck
  refine ⟨s, v, hs, hview, hcopy, hpos, hstands, hopen, hin, hout, ?_⟩
  rintro ⟨handler, i, hr, hread⟩
  rw [hrelay] at hr
  obtain rfl : OP_NOOP = i := congrArg Prod.snd (Option.some.inj hr)
  cases hread

/-- Once a byte of the client was sent to it, the origin is listened to. -/
theorem idle_listens_spoken : ∃ (s : Server) (v : View), s.view 0 = some v ∧ v.Listens := by
  obtain ⟨s, hs, hcheck⟩ := reachable_of_after
    (relaying ++ [.readable 2 { recv := .data 7 [], sends := [.accepted 0] }])
    (fun s => (s.view 0).any fun v : View => v.phase == some .copy &&
      decide (0 < v.conn.originFd) && v.conn.inBuff.content == [] &&
      decide (0 < v.conn.outBuff.space) && v.relay.isSome &&
      decide (.send 0 .origin [7] ∈ v.history))
    (by decide +kernel)
  simp only [Option.any_eq_true, Bool.and_eq_true, beq_iff_eq, decide_eq_true_eq] at hcheck
  obtain ⟨v, hview, ⟨⟨⟨⟨hcopy, hpos⟩, hin⟩, hout⟩, hsome⟩, hsent⟩ := hcheck
  exact ⟨s, v, hview, (idle_listens_iff hs hview hcopy hpos hin hout).mpr
    ⟨Option.isSome_iff_ne_none.mp hsome, [7], hsent⟩⟩

end Socks5d
