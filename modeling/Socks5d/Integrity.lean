import Socks5d.Accounts

/-!
# What a relay delivers

From the callback that queues the success reply on, nothing a relay received is lost, duplicated
or reordered in either direction. Whether all of it was delivered is another matter: a client
that ends its stream has the connection closed whatever `in_buff` still holds.
-/

namespace Socks5d

open GuardedRun Fifo

variable {s s₁ s₂ : Server} {c : ConnId} {v v₁ w : View} {e : Event} {events : List Event}

/-- The event is not the end of a pending connect of the connection. -/
def RelayEvent (c : ConnId) (s : Server) : Event → Prop
  | .writable fd _ => ((s.selector.fds fd).relayOf c).map Prod.fst ≠ some .connectingHandler
  | _ => True

instance (c : ConnId) (s : Server) : (e : Event) → Decidable (RelayEvent c s e)
  | .writable fd _ => inferInstanceAs
    (Decidable (((s.selector.fds fd).relayOf c).map Prod.fst ≠ some .connectingHandler))
  | .readable _ _ | .notify _ | .resolved _ _ | .adminInterest _ _ | .adminClose _
  | .configure _ _ _ => isTrue trivial

/-- A relay callback carries both accounts on. -/
theorem Reaction.carries (h : Reaction s c v e (.alive w)) (hphase : v.phase = some .copy)
    (hevent : RelayEvent c s e) : Carries c v w := by
  cases h with
  | greets fd env r hitem hready hearly hread => simp [hphase] at hearly
  | authenticates fd env r hitem hready hearly hread => cases hphase.symm.trans hearly
  | requests fd env r hitem hready hearly hread => cases hphase.symm.trans hearly
  | relays fd env r hitem hready _ hread => exact hread.carries
  | sends table fd env r hitem hready hwrote => exact hwrote.carries hphase
  | blocks env r hearly hwaiting hblocks => cases hphase.symm.trans hearly
  | resolves env hearly hwaiting => cases hphase.symm.trans hearly
  | connects fd env r i hitem hset hp hconnects =>
    have hrelay : ((s.selector.fds fd).relayOf c).map Prod.fst ≠ some .connectingHandler := hevent
    simp [hitem] at hrelay
  | receives fd env r i horigin hrelay hready _ hreceived => exact hreceived.carries hphase
  | delivers fd env r i horigin hrelay hready _ hwrote => exact hwrote.carries

/-- The callback that takes a connection with an empty `out_buff` into the relay phase queues the
success reply and opens the accounts. -/
theorem Reaction.accounts (h : Reaction s c v e (.alive w)) (hok : v.Ok c)
    (hphase : v.phase = some .connecting) (hempty : v.conn.outBuff.content = [])
    (hcopy : w.phase = some .copy) : ∃ t₁ reply t₂, Accounts c (v.history ++ t₁) reply t₂ w := by
  cases h with
  | greets fd env r hitem hready hearly hread => simp [hphase] at hearly
  | authenticates fd env r hitem hready hearly hread => cases hphase.symm.trans hearly
  | requests fd env r hitem hready hearly hread => cases hphase.symm.trans hearly
  | relays fd env r hitem hready hlate hread => cases hphase.symm.trans hlate
  | sends table fd env r hitem hready hwrote =>
    cases hwrote with
    | idle _ => cases hphase.symm.trans hcopy
    | blocked hleft _ => exact absurd hempty hleft
    | relayed _ _ hleft => exact absurd hempty hleft
    | advanced _ _ _ hleft => exact absurd hempty hleft
  | blocks env r _ hwaiting hblocks =>
    obtain ⟨t₁, reply, t₂, ha⟩ :=
      hblocks.accounts hempty hok.outCapacity hphase hwaiting.isErrorResponse hcopy
    have hnotified : (v.notified c).history = v.history ++ [.notified c] := rfl
    rw [hnotified, List.append_assoc] at ha
    exact ⟨_, reply, t₂, ha⟩
  | resolves env _ hwaiting => cases hphase.symm.trans hcopy
  | connects fd env r i hitem hset _ hconnects =>
    exact hconnects.accounts hempty hok.outCapacity hphase hcopy
  | receives fd env r i horigin hrelay hready hlate hreceived => cases hphase.symm.trans hlate
  | delivers fd env r i horigin hrelay hready hlate hwrote => cases hphase.symm.trans hlate

/-- From the callback that queues the success reply on, the bytes received from the client are
those sent to the origin and the content of `in_buff`, and the success reply and the bytes
received from the origin are those sent to the client and the content of `out_buff`. -/
theorem relay_integrity (hs : Reachable s) (hview : s.view c = some v)
    (hphase : v.phase = some .connecting) (hempty : v.conn.outBuff.content = [])
    (henabled : enabled s e = true) (hstep : step s e = .ok s₁) (hview₁ : s₁.view c = some v₁)
    (hcopy : v₁.phase = some .copy) (hrun : Run machine (RelayEvent c) s₁ events s₂)
    (hview₂ : s₂.view c = some w) :
    ∃ t₁ reply t₂,
      w.history = v.history ++ t₁ ++ .queued c (.connReq SOCKS5_REP_SUCCEEDED) reply :: t₂ ∧
      receivedFrom .client t₂ = sentTo .origin t₂ ++ w.conn.inBuff.content ∧
      reply ++ receivedFrom .origin t₂ = sentTo .client t₂ ++ w.conn.outBuff.content := by
  have hinv := hs.inv
  have hinv₁ := hinv.step henabled hstep
  have hreaction : Reaction s c v e (.alive v₁) := by
    rcases (hinv.effect henabled hstep).view hview₁ with hsame | ⟨-, hfresh⟩ | ⟨u, hu, hreaction⟩
    · obtain rfl := Option.some.inj (hview.symm.trans hsame)
      cases hphase.symm.trans hcopy
    · cases hfresh.phase.symm.trans hcopy
    · obtain rfl := Option.some.inj (hview.symm.trans hu)
      exact hreaction
  obtain ⟨t₁, reply, t₂, ha⟩ := hreaction.accounts (hinv.ok c v hview) hphase hempty hcopy
  have hknown : s₁.history c ≠ [] := by
    obtain ⟨-, -, -, -, -, hhistory⟩ := view_eq_some_iff.mp hview₁
    rw [hhistory, ha.history]
    simp
  obtain ⟨-, t₂, ha⟩ := hinv₁.run_view
    (P := fun u => u.phase = some .copy ∧ ∃ t, Accounts c (v.history ++ t₁) reply t u) hknown
    (fun u hu => by
      obtain rfl := Option.some.inj (hview₁.symm.trans hu)
      exact ⟨hcopy, t₂, ha⟩)
    (fun s e u u' hinv hevent hu ⟨hcopy, t, ha⟩ hreaction => by
      refine ⟨(hreaction.progress hinv hu).2.copy_of_copy hcopy, ?_⟩
      obtain ⟨t', ha'⟩ := ha.carries (hreaction.carries hcopy hevent)
      exact ⟨_, ha'⟩)
    hrun w hview₂
  exact ⟨t₁, reply, t₂, ha.history, ha.up.of_empty, ha.down⟩

/-- The first client asked for an address. -/
def requested : List Event := [arrives, greets 2, asks 2 [loopback]]

/-- The connection was made at once and its reply sent whole. -/
def relaying : List Event :=
  requested ++ [.notify { connects := [.connected], sends := [.accepted 21] }]

/-- The origin takes the first of three bytes a client sends. -/
theorem relay_integrity_upload : ∃ (s₂ : Server) (w : View) (t₁ : List Obs) (reply : List UInt8)
    (t₂ : List Obs), s₂.view 0 = some w ∧
    w.conn.inBuff.content = [8, 9] ∧
    w.history = t₁ ++ .queued 0 (.connReq SOCKS5_REP_SUCCEEDED) reply :: t₂ ∧
    receivedFrom .client t₂ = sentTo .origin t₂ ++ w.conn.inBuff.content ∧
    reply ++ receivedFrom .origin t₂ = sentTo .client t₂ ++ w.conn.outBuff.content := by
  obtain ⟨s, s₁, s₂, hs, he, hstep, hrun, hcheck⟩ := staged requested
    (.notify { connects := [.connected] }) (RelayEvent 0)
    [.writable 2 { sends := [.accepted 21] },
      .readable 2 { recv := .data 7 [8, 9], sends := [.accepted 0] }]
    (fun s s₁ s₂ =>
      (s.view 0).any (fun v => v.phase == some .connecting && v.conn.outBuff.content == []) &&
        (s₁.view 0).any (fun v => v.phase == some .copy) &&
          (s₂.view 0).any fun v => v.conn.inBuff.content == [8, 9])
    (by decide +kernel)
  simp only [Bool.and_eq_true, Option.any_eq_true, beq_iff_eq] at hcheck
  obtain ⟨⟨⟨v, hview, hphase, hempty⟩, v₁, hview₁, hcopy⟩, w, hview₂, hin⟩ := hcheck
  obtain ⟨t₁, reply, t₂, hhistory, hup, hdown⟩ :=
    relay_integrity hs hview hphase hempty he hstep hview₁ hcopy hrun hview₂
  exact ⟨s₂, w, _, reply, t₂, hview₂, hin, hhistory, hup, hdown⟩

end Socks5d
