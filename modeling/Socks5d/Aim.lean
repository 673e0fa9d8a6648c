import Socks5d.Streams

/-!
# The destination on record

Once a request was accepted nothing writes `dst_address` or `dst_port` again, and whatever is
looked up or registered for the connection is what they hold.
-/

namespace Socks5d

open GuardedRun

/-- The destination on record. -/
def View.destination (v : View) : CString × UInt16 := (v.conn.dstAddress, v.conn.dstPort)

/-- An observation that names a destination names this one. -/
def Obs.AimsAt (destination : CString × UInt16) : Obs → Prop
  | .lookup _ node service => (node, service) = destination
  | .access _ call => (call.destination, call.destPort) = destination
  | _ => True

/-- A callback that keeps the destination, and names no other. -/
def KeepsAim (v : View) (r : Result) : Prop :=
  ∃ t, r.history = v.history ++ t ∧ (∀ o ∈ t, o.AimsAt v.destination) ∧
    ∀ w, r = .alive w → w.destination = v.destination

/-- The request was accepted or refused. -/
def View.Aimed (v : View) : Prop :=
  v.phase = some .connecting ∨ v.phase = some .copy ∨
    v.phase = some .connectionReq ∧ v.conn.isErrorResponse = true

/-- A request is accepted or refused after the greeting and the sub-negotiation. -/
theorem View.Aimed.later {v : View} (h : v.Aimed) :
    v.phase ≠ none ∧ v.phase ≠ some .handshake ∧ v.phase ≠ some .auth := by
  rcases h with hphase | hphase | ⟨hphase, -⟩
  · simp [hphase]
  · simp [hphase]
  · simp [hphase]

section Callbacks

variable {s : Server} {c : ConnId} {v w : View} {e : Event} {junk : Memory}
  {fds : ℕ → Item} {out : SendOutcome} {r : Result} {env : Env} {fd : ℕ}

namespace KeepsAim

/-- Observations that name no destination, before the connection is released. -/
theorem released {t : List Obs} (ht : ∀ o ∈ t, o.AimsAt v.destination) :
    KeepsAim v (.gone (v.history ++ t)) := by
  refine ⟨t, rfl, ht, fun w hw => ?_⟩
  cases hw

/-- A change of the view that adds observations and keeps the destination. -/
theorem noted {t : List Obs} (hhistory : w.history = v.history ++ t)
    (ht : ∀ o ∈ t, o.AimsAt v.destination) (hdest : w.destination = v.destination) :
    KeepsAim v (.alive w) := by
  refine ⟨t, hhistory, ht, fun u hu => ?_⟩
  cases hu
  exact hdest

/-- A change of the view that adds nothing and keeps the destination. -/
theorem of_eq (hhistory : w.history = v.history) (hdest : w.destination = v.destination) :
    KeepsAim v (.alive w) :=
  noted (t := []) (by rw [hhistory, List.append_nil]) (fun o ho => by cases ho) hdest

/-- Doing nothing keeps the aim. -/
theorem refl (v : View) : KeepsAim v (.alive v) := of_eq rfl rfl

/-- One part of a callback after another keeps the aim if each does. -/
theorem trans (h : KeepsAim v (.alive w)) (h' : KeepsAim w r) : KeepsAim v r := by
  obtain ⟨t, ht, haims, hdest⟩ := h
  obtain ⟨t', ht', haims', hdest'⟩ := h'
  have hw : w.destination = v.destination := hdest w rfl
  have hhistory : w.history = v.history ++ t := ht
  refine ⟨t ++ t', by rw [ht', hhistory, List.append_assoc], fun o ho => ?_,
    fun u hu => (hdest' u hu).trans hw⟩
  rcases List.mem_append.mp ho with ho | ho
  · exact haims o ho
  · rw [← hw]
    exact haims' o ho

end KeepsAim

/-- Queueing a reply keeps the aim. -/
theorem Queued.keepsAim {kind : ReplyKind} {bytes : List UInt8} (h : Queued c kind bytes v w) :
    KeepsAim v (.alive w) := by
  cases h with
  | queued buff _ _ _ _ => exact .noted rfl (by simp [Obs.AimsAt]) rfl
  | dropped _ => exact .refl v

/-- Resetting `in_buff` keeps the aim. -/
theorem keepsAim_reset (v : View) (c : ConnId) : KeepsAim v (.alive (v.reset c)) := by
  by_cases hempty : v.conn.inBuff.content = []
  · exact .of_eq (by simp [View.reset, hempty]) rfl
  · exact .noted (t := [.discarded c v.conn.inBuff.content]) (by simp [View.reset, hempty])
      (by simp [Obs.AimsAt]) rfl

/-- Leaving a phase keeps the destination. -/
theorem destination_depart (w : View) (state : Socks5State) :
    (w.depart state).destination = w.destination := by
  cases state <;> rfl

/-- Moving on once the reply was sent keeps the aim. -/
theorem Advance.keepsAim (h : Advance c junk fds w r) : KeepsAim w r := by
  cases h with
  | refused state _ _ _ => exact .released (by simp [Obs.AimsAt])
  | auth p _ _ _ _ => exact .noted rfl (by simp [Obs.AimsAt]) rfl
  | connectionReq state _ _ _ =>
    exact .noted rfl (by simp [Obs.AimsAt]) (destination_depart w state)
  | copy state relay _ _ _ _ =>
    exact .noted rfl (by simp [Obs.AimsAt]) (destination_depart w state)

/-- A write to the client keeps the aim. -/
theorem Wrote.keepsAim (h : Wrote c junk fds v out r) : KeepsAim v r := by
  have hsent : ∀ n left, KeepsAim v (.alive (v.sent c n left)) := fun n left =>
    .noted rfl (by simp [Obs.AimsAt]) rfl
  cases h with
  | idle hempty => exact .of_eq rfl rfl
  | blocked hleft hout => exact .refl v
  | broken err hleft hout he => exact .released (by simp [Obs.AimsAt])
  | relayed n left hleft hout hphase hcontent hcapacity => exact hsent n left
  | advanced n left r hleft hout hcontent hcapacity hadvance =>
    exact (hsent n left).trans hadvance.keepsAim

/-- A write to the origin keeps the aim. -/
theorem CopyWrote.keepsAim (h : CopyWrote c v out r) : KeepsAim v r := by
  cases h with
  | idle hempty => exact .of_eq rfl rfl
  | blocked hleft hout => exact .refl v
  | delivered n left hleft hout hcontent hcapacity =>
    exact .noted rfl (by simp [Obs.AimsAt]) rfl
  | broken hleft hout => exact .released (by simp [Obs.AimsAt])

/-- Passing on what the client sent keeps the aim. -/
theorem CopyRead.keepsAim (h : CopyRead c s v out r) : KeepsAim v r := by
  cases h with
  | unregistered hunreg => exact .released (by simp [Obs.AimsAt])
  | relayed r hreg hout hwrote => exact KeepsAim.trans (.of_eq rfl rfl) hwrote.keepsAim

/-- Passing on what the origin sent keeps the aim. -/
theorem CopyReceived.keepsAim (h : CopyReceived c junk v env r) : KeepsAim v r := by
  cases h with
  | full hfull => exact .of_eq rfl rfl
  | received table first rest buff r hspace hrecv hcontent hcapacity hwrote =>
    have hreceived : KeepsAim v (.alive { v with
        conn := { v.conn with outBuff := buff }
        interest := OP_WRITE
        history := v.history ++
          [.recv c .origin ((first :: rest).take v.conn.outBuff.space)] }) :=
      .noted rfl (by simp [Obs.AimsAt]) rfl
    exact hreceived.trans hwrote.keepsAim
  | ended hspace hrecv => exact .noted rfl (by simp [Obs.AimsAt]) rfl
  | blocked hspace hrecv => exact .refl v
  | broken err hspace hrecv he => exact .released (by simp [Obs.AimsAt])

/-- A client read keeps the destination when the read handler of its phase does. -/
theorem ClientRead.keepsAim {Q : View → Result → Prop} (h : ClientRead c v env Q r)
    (hread : ∀ w, Q w r → KeepsAim w r) : KeepsAim v r := by
  cases h with
  | full hfull => exact .of_eq rfl rfl
  | ended hspace _ => exact .released (by simp [Obs.AimsAt])
  | blocked hspace _ => exact .refl v
  | broken err hspace _ he => exact .released (by simp [Obs.AimsAt])
  | handled first rest buff r hspace _ hcontent hcapacity hQ =>
    have hreceived : KeepsAim v (.alive
        (v.received c buff ((first :: rest).take v.conn.inBuff.space))) :=
      .noted rfl (by simp [Obs.AimsAt]) rfl
    exact hreceived.trans (hread _ hQ)

/-- A walk over the resolved addresses names no destination. -/
theorem dialHistory_aims (c : ConnId) (fd : ℕ) (addrs : List AddrInfo)
    (outcomes : List ConnectOutcome) (destination : CString × UInt16) :
    ∀ o ∈ dialHistory c fd addrs outcomes, o.AimsAt destination := by
  induction addrs generalizing outcomes with
  | nil => simp [dialHistory]
  | cons rp next ih =>
    simp only [dialHistory]
    cases outcomes.headD (.failed .econnrefused) with
    | socketFails err => simp [Obs.AimsAt]
    | connected => simp [Obs.AimsAt]
    | failed err =>
      by_cases he : err = .einprogress
      · simp [he, Obs.AimsAt]
      · simpa [he, Obs.AimsAt] using ih outcomes.tail

/-- Trying the resolved addresses keeps the aim. -/
theorem keepsAim_dialed (v : View) (c : ConnId) (fd : ℕ) (outcomes : List ConnectOutcome)
    (relay : Option (FdHandler × FdInterest)) :
    KeepsAim v (.alive (v.dialed c fd outcomes relay)) :=
  .noted rfl (dialHistory_aims c fd v.conn.addrInfo outcomes v.destination) rfl

/-- What is registered is the destination on record. -/
theorem keepsAim_registered (v : View) (c : ConnId) (status : UInt8) (now : ℕ) :
    KeepsAim v (.alive (v.registered c status now)) :=
  .noted rfl (by simp [Obs.AimsAt, View.accessCall, View.destination]) rfl

/-- Getting ready to send the success reply keeps the aim. -/
theorem keepsAim_succeeding (w : View) (c : ConnId) : KeepsAim w (.alive (w.succeeding c)) :=
  KeepsAim.trans (w := { w with interest := OP_WRITE }) (.of_eq rfl rfl) (keepsAim_reset _ c)

/-- Entering the relay keeps the aim. -/
theorem EntersCopy.keepsAim (h : EntersCopy c fds v w) : KeepsAim v (.alive w) := by
  cases h with
  | already hphase => exact .refl v
  | jumps relay hphase hrelay => exact .noted rfl (by simp [Obs.AimsAt]) rfl

/-- What a notification leads to keeps the aim. -/
theorem Blocks.keepsAim (h : Blocks c junk env fds fd v r) : KeepsAim v r := by
  cases h with
  | noAddress w hnone hqueued =>
    have hrefused := (keepsAim_registered v c SOCKS5_REP_HOST_UNREACHABLE env.now).trans
      hqueued.keepsAim
    exact hrefused.trans (.noted rfl (by simp [Obs.AimsAt]) rfl)
  | pending peer rest hdial =>
    exact (keepsAim_dialed v c fd env.connects (some (.connectingHandler, OP_WRITE))).trans
      (.of_eq rfl rfl)
  | established peer w x y hdial hqueued hwrote hcopy =>
    have hwalk := (keepsAim_dialed v c fd env.connects none).trans
      (keepsAim_registered _ c SOCKS5_REP_SUCCEEDED env.now)
    exact ((hwalk.trans hqueued.keepsAim).trans (keepsAim_succeeding w c)).trans
      (hwrote.keepsAim.trans hcopy.keepsAim)

/-- What the end of a pending connect leads to keeps the aim. -/
theorem Connects.keepsAim (h : Connects c junk env fds fd v r) : KeepsAim v r := by
  cases h with
  | retried err relay hopen herr hsome hdial hrelay =>
    exact keepsAim_dialed v c fd env.connects relay
  | refused v₁ w err err' hopen herr hfrom hqueued =>
    have hwalk : KeepsAim v (.alive v₁) := by
      rcases hfrom with ⟨-, rfl⟩ | ⟨-, -, relay, rfl⟩
      · exact .refl _
      · exact keepsAim_dialed v c fd env.connects relay
    exact ((hwalk.trans (keepsAim_registered v₁ c _ env.now)).trans hqueued.keepsAim).trans
      (.of_eq rfl rfl)
  | established table w r relay hphase hstands hrelay hqueued hwrote =>
    have hstanding : KeepsAim v (.alive (v.standing c relay)) := by
      refine .noted rfl ?_ rfl
      split <;> simp [Obs.AimsAt]
    exact ((hstanding.trans (keepsAim_registered _ c _ env.now)).trans hqueued.keepsAim).trans
      ((keepsAim_succeeding w c).trans hwrote.keepsAim)

/-- After its request no reaction of a connection changes or contradicts the destination. -/
theorem Reaction.keepsAim (h : Reaction s c v e r) (hok : v.Ok c) (haimed : v.Aimed) :
    KeepsAim v r := by
  obtain ⟨hnone, hhandshake, hauth⟩ := haimed.later
  cases h with
  | greets fd env r hitem hready hphase hread =>
    exact absurd hphase (not_or.mpr ⟨hnone, hhandshake⟩)
  | authenticates fd env r hitem hready hphase hread => exact absurd hphase hauth
  | requests fd env r hitem hready hphase hread =>
    -- a connection that sends its refusal does not read
    have hrefused : v.conn.isErrorResponse = true := by
      simpa [View.Aimed, hphase] using haimed
    have hphaseOk := hok.phase
    simp only [View.PhaseOk, hphase] at hphaseOk
    rcases hphaseOk.reply with ⟨herror, -⟩ | ⟨-, -, hinterest⟩
    · rw [hrefused] at herror
      cases herror
    · rw [hinterest] at hready
      cases hready
  | relays fd env r hitem hready hphase hread => exact hread.keepsAim fun _ hc => hc.keepsAim
  | sends table fd env r hitem hready hwrote => exact hwrote.keepsAim
  | blocks env r hphase hwaiting hblocks =>
    have hnotified : KeepsAim v (.alive (v.notified c)) := .noted rfl (by simp [Obs.AimsAt]) rfl
    exact hnotified.trans hblocks.keepsAim
  | resolves env hphase hwaiting =>
    exact .noted (t := [.lookup c v.conn.dstAddress v.conn.dstPort]) rfl
      (by simp [Obs.AimsAt, View.destination]) rfl
  | connects fd env r i hitem hset hphase hconnects => exact hconnects.keepsAim
  | receives fd env r i horigin hrelay hready hphase hreceived => exact hreceived.keepsAim
  | delivers fd env r i horigin hrelay hready hphase hwrote => exact hwrote.keepsAim

/-- No request is read again. -/
theorem Move.aimed (h : Move s c v e (.alive w)) (haimed : v.Aimed) : w.Aimed := by
  obtain ⟨hnone, hhandshake, hauth⟩ := haimed.later
  cases h with
  | quiet _ hphase herror =>
    have hsame : w.phase = v.phase := hphase.resolve_right fun hbegun => hnone hbegun.1
    rcases haimed with hconnecting | hcopy | ⟨hrequest, hrefused⟩
    · exact .inl (hsame.trans hconnecting)
    · exact .inr (.inl (hsame.trans hcopy))
    · exact .inr (.inr ⟨hsame.trans hrequest, (herror (.inl hrequest)).trans hrefused⟩)
  | chosen _ _ hphase => exact absurd hphase (not_or.mpr ⟨hnone, hhandshake⟩)
  | judged _ _ hphase => exact absurd hphase hauth
  | authorized _ hphase => exact absurd hphase hauth
  | passed _ hphase => exact absurd hphase hauth
  | unsupported _ _ hphase herror => simp [View.Aimed, hphase, herror] at haimed
  | requested _ hphase herror => simp [View.Aimed, hphase, herror] at haimed
  | noAddress _ _ _ _ hphase herror => exact .inr (.inr ⟨hphase, herror⟩)
  | relays _ _ _ _ _ _ _ hr =>
    rcases hr with ⟨x, hx, hcopy, -⟩ | ⟨_, hgone, -⟩
    · obtain rfl := Result.alive.inj hx
      exact .inr (.inl hcopy)
    · cases hgone
  | refused _ _ _ _ _ hphase => exact .inl hphase
  | skipped _ _ _ hphase => exact .inr (.inl hphase)
  | stale _ _ _ _ _ hr =>
    rcases hr with ⟨x, hx, hcopy, -⟩ | ⟨_, hgone, -⟩
    · obtain rfl := Result.alive.inj hx
      exact .inr (.inl hcopy)
    · cases hgone

end Callbacks

section Runs

variable {s s' : Server} {c : ConnId} {e : Event} {guard : Server → Event → Prop}
  {events : List Event} {destination : CString × UInt16} {before : List Obs}

/-- From here on the connection, as long as it is there, is aimed at this destination, and what was
noted since names it. -/
structure Aims (c : ConnId) (destination : CString × UInt16) (before : List Obs) (s : Server) : Prop
    where
  inv : Inv s
  known : s.history c ≠ []
  aimed : ∀ v, s.view c = some v → v.Aimed ∧ v.destination = destination
  named : ∃ t, s.history c = before ++ t ∧ ∀ o ∈ t, o.AimsAt destination

/-- One event keeps a connection aimed. -/
theorem Aims.step (h : Aims c destination before s) (he : enabled s e = true)
    (hstep : Socks5d.step s e = .ok s') : Aims c destination before s' := by
  have heffect := h.inv.effect he hstep
  have hinv' := h.inv.step he hstep
  refine ⟨hinv', heffect.history_ne_nil h.inv h.known, ?_, ?_⟩
  · intro w hw
    rcases heffect.view hw with hbefore | ⟨rfl, -⟩ | ⟨v, hv, hreaction⟩
    · exact h.aimed w hbefore
    · exact absurd (h.inv.known_of_history h.known) (Nat.lt_irrefl _)
    · obtain ⟨haimed, hdest⟩ := h.aimed v hv
      obtain ⟨t, -, -, hkept⟩ := hreaction.keepsAim (h.inv.ok c v hv) haimed
      exact ⟨(hreaction.progress h.inv hv).2.aimed haimed, (hkept w rfl).trans hdest⟩
  · obtain ⟨t, ht, haims⟩ := h.named
    cases heffect with
    | background hb _ =>
      rcases hb.fates c with ⟨-, heq⟩ | ⟨rfl, -⟩
      · exact ⟨t, heq.trans ht, haims⟩
      · exact absurd (h.inv.known_of_history h.known) (Nat.lt_irrefl _)
    | reaction d v r s₀ hview htarget hreaction hentered hlands hjobs =>
      by_cases hd : c = d
      · subst hd
        obtain ⟨haimed, hdest⟩ := h.aimed v hview
        obtain ⟨t', ht', haims', -⟩ := hreaction.keepsAim (h.inv.ok c v hview) haimed
        have hbefore : s.history c = v.history := (view_eq_some_iff.mp hview).2.2.2.2.2
        refine ⟨t ++ t', ?_, fun o ho => ?_⟩
        · rw [hlands.history_eq, ht', ← hbefore, ht, List.append_assoc]
        · rcases List.mem_append.mp ho with ho | ho
          · exact haims o ho
          · rw [← hdest]
            exact haims' o ho
      · have hframe := hlands.frame.history hd
        exact ⟨t, hframe.trans ((congrArg (List.filter _) hentered.trace).trans ht), haims⟩

/-- A connection stays aimed in every run. -/
theorem Aims.run (h : Aims c destination before s) (hrun : Run machine guard s events s') :
    Aims c destination before s' :=
  hrun.invariant h fun _ _ _ haims he _ hstep => haims.step he hstep

end Runs

end Socks5d
