import Mathlib.Data.List.Forall2
import Socks5d.Streams

/-!
# The notifications in flight

A queued notification carries a descriptor number and nothing else. Runs are followed here with
the connection whose resolution queued each notification. Its descriptor stays its own, since a
connection that waits for a resolution asks for no event and so is not closed.
-/

namespace Socks5d

open GuardedRun Fallible

variable {s s' : Server} {c : ConnId} {v w : View} {e : Event} {junk : Memory} {fds : ℕ → Item}
  {out : SendOutcome} {r : Result} {env : Env} {flight : List ConnId}

/-- The notifications in flight once an event has taken the one it delivers. -/
def Event.undelivered (flight : List ConnId) : Event → List ConnId
  | .notify _ => flight.tail
  | _ => flight

/-- The notifications in flight after an event: those it queued belong to the connection whose
callback or resolver thread it is. -/
def inFlightAfter (s : Server) (e : Event) (s' : Server) (flight : List ConnId) : List ConnId :=
  match e.target s with
  | some c =>
    List.replicate (s'.selector.resolutionJobs.length - (e.jobs s).length) c ++ e.undelivered flight
  | none => e.undelivered flight

/-- The runs of the server, with the connection whose resolution queued each notification. -/
inductive InFlight : Server → List ConnId → Prop
  | start (args : Args) (s : Server) (hs : startServer args = some s) : InFlight s []
  | event (s s' : Server) (e : Event) (flight : List ConnId) (h : InFlight s flight)
      (he : enabled s e = true) (hstep : step s e = .ok s') :
      InFlight s' (inFlightAfter s e s' flight)

/-- A run with its flight is a run. -/
theorem InFlight.reachable (h : InFlight s flight) : Reachable s := by
  induction h with
  | start args s hs => exact ⟨args, s, [], hs, .nil⟩
  | event s s' e flight _ he hstep ih =>
    obtain ⟨args, s₀, events, hs₀, hrun⟩ := ih
    exact ⟨args, s₀, _, hs₀, hrun.snoc he trivial hstep⟩

/-- Every run can be followed with its notifications. -/
theorem Reachable.inFlight (h : Reachable s) : ∃ flight, InFlight s flight := by
  refine ReachableUnder.invariant h (I := fun s => ∃ flight, InFlight s flight) ?_ ?_
  · exact fun args s₀ hs₀ => ⟨[], .start args s₀ hs₀⟩
  · rintro s e s' - ⟨flight, hflight⟩ he - hstep
    exact ⟨_, .event s s' e flight hflight he hstep⟩

/-- A resolution starts with a request and ends with a delivery. -/
def View.Served (c : ConnId) (v : View) : Prop :=
  v.history.count (.request c) = v.history.count (.notified c) + v.tokens

/-- A callback that neither starts nor delivers a resolution leaves what is outstanding. -/
theorem View.Served.of_talks (hv : v.Served c) (h : Talks Obs.Settled v (.alive w))
    (htokens : w.tokens = v.tokens) : w.Served c := by
  obtain ⟨t, -, ht, hsettled, -⟩ := h
  have hw : w.history = v.history ++ t := ht
  have hrequest : t.count (.request c) = 0 := List.count_eq_zero_of_not_mem fun ho => hsettled _ ho
  have hnotified : t.count (.notified c) = 0 := List.count_eq_zero_of_not_mem fun ho => hsettled _ ho
  rw [View.Served, hw, List.count_append, List.count_append, hrequest, hnotified, htokens]
  exact hv

section Tokens

/-- Writing to the client starts and delivers no resolution. -/
theorem Wrote.tokens (h : Wrote c junk fds v out (.alive w)) : w.tokens = v.tokens := by
  cases h with
  | idle _ => rfl
  | blocked _ _ => rfl
  | relayed n left _ _ _ _ _ => rfl
  | advanced n left r _ _ _ _ hadvance =>
    cases hadvance with
    | auth p _ _ _ _ => rfl
    | connectionReq state _ _ _ => rfl
    | copy state relay _ _ _ _ => rfl

/-- Nor does queueing a reply. -/
theorem Queued.tokens {kind : ReplyKind} {bytes : List UInt8} (h : Queued c kind bytes v w) :
    w.tokens = v.tokens := h.fields.2.2.2.2.2

/-- Nor does reading a greeting. -/
theorem HandshakeReads.tokens {sends : List SendOutcome} {malformed : Bool}
    (h : HandshakeReads c junk v sends w malformed) : w.tokens = v.tokens := by
  induction h with
  | idle v sends _ => rfl
  | fed v w sends malformed p p' byte state inBuff _ _ _ _ _ _ ih => exact ih
  | malformed v sends p p' byte inBuff _ _ _ _ => rfl
  | replied table v w u x sends malformed p p' byte inBuff _ _ _ _ hqueued hwrote _ ih =>
    exact ih.trans (hwrote.tokens.trans hqueued.tokens)

/-- Nor does reading credentials. -/
theorem AuthReads.tokens {users : UserTable} {malformed : Bool}
    (h : AuthReads c users junk out v w malformed) : w.tokens = v.tokens := by
  induction h with
  | idle v _ => rfl
  | fed v w malformed p p' byte state inBuff _ _ _ _ _ _ ih => exact ih
  | malformed v p p' byte inBuff _ _ _ _ => rfl
  | judged table v w u p p' byte inBuff _ _ _ _ hqueued hwrote =>
    exact hwrote.tokens.trans hqueued.tokens

/-- Nor does reading a request. -/
theorem ConnReqReads.tokens {scan : RequestScan} (h : ConnReqReads v w scan) :
    w.tokens = v.tokens := by
  induction h with
  | more v _ => rfl
  | fed v w scan p p' byte state inBuff _ _ _ _ _ _ ih => exact ih
  | malformed v p p' byte inBuff _ _ _ _ => rfl
  | complete v p p' byte inBuff _ _ _ _ => rfl

/-- Nor does writing to the origin. -/
theorem CopyWrote.tokens (h : CopyWrote c v out (.alive w)) : w.tokens = v.tokens := by
  cases h with
  | idle _ => rfl
  | blocked _ _ => rfl
  | delivered n left _ _ _ _ => rfl

/-- Nor does passing on what the client sent. -/
theorem CopyRead.tokens (h : CopyRead c s v out (.alive w)) : w.tokens = v.tokens := by
  cases h with
  | relayed r _ _ hwrote => exact hwrote.tokens

/-- Nor does passing on what the origin sent. -/
theorem CopyReceived.tokens (h : CopyReceived c junk v env (.alive w)) : w.tokens = v.tokens := by
  cases h with
  | full _ => rfl
  | received table first rest buff r _ _ _ _ hwrote => exact hwrote.tokens
  | ended _ _ => rfl
  | blocked _ _ => rfl

/-- Entering the relay leads there. -/
theorem EntersCopy.copy (h : EntersCopy c fds v w) : w.phase = some .copy := by
  cases h with
  | already hphase => exact hphase
  | jumps relay hphase hrelay => rfl

/-- Entering the relay starts and delivers no resolution. -/
theorem EntersCopy.tokens (h : EntersCopy c fds v w) : w.tokens = v.tokens := by
  cases h with
  | already _ => rfl
  | jumps relay _ _ => rfl

/-- Nor does what a notification leads to. -/
theorem Blocks.tokens {fd : ℕ} (h : Blocks c junk env fds fd v (.alive w)) :
    w.tokens = v.tokens := by
  cases h with
  | noAddress u _ hqueued => exact hqueued.tokens
  | pending peer rest _ => rfl
  | established peer u x y _ hqueued hwrote hcopy =>
    exact hcopy.tokens.trans (hwrote.tokens.trans hqueued.tokens)

/-- Nor does the end of a pending connect. -/
theorem Connects.tokens {fd : ℕ} (h : Connects c junk env fds fd v (.alive w)) :
    w.tokens = v.tokens := by
  cases h with
  | retried err relay _ _ _ _ _ => rfl
  | refused v₁ u err err' _ _ hfrom hqueued =>
    have hv₁ : v₁.tokens = v.tokens := by
      rcases hfrom with ⟨-, rfl⟩ | ⟨-, -, relay, rfl⟩
      · rfl
      · rfl
    exact Eq.trans (b := u.tokens) rfl (hqueued.tokens.trans hv₁)
  | established table u r relay _ _ _ hqueued hwrote => exact hwrote.tokens.trans hqueued.tokens

end Tokens

/-- A read handler in whose phase nothing is resolved leaves what is outstanding. -/
theorem ClientRead.served {Q : View → Result → Prop} (h : ClientRead c v env Q (.alive w))
    (hv : v.Served c)
    (hread : ∀ buff bytes, (v.received c buff bytes).Served c →
      Q (v.received c buff bytes) (.alive w) → w.Served c) : w.Served c := by
  cases h with
  | full _ => exact hv
  | blocked _ _ => exact hv
  | handled first rest buff r _ _ _ _ hQ =>
    refine hread _ _ (hv.of_talks ((talks_received v c buff _).mono fun _ ho => ?_) rfl) hQ
    subst ho
    trivial

/-- Answering a request starts at most the one resolution it notes. -/
theorem Requests.served (h : Requests c junk env v (.alive w)) (hv : v.Served c) :
    w.Served c := by
  have hreading : ∀ {u : View} {scan : RequestScan}, ConnReqReads v u scan → u.Served c :=
    fun hreads => hv.of_talks (hreads.talks.mono fun _ ho => ho.settled) hreads.tokens
  have hone : ∀ {u x : View}, u.Served c → x.history.count (.request c) =
      u.history.count (.request c) + 1 → x.history.count (.notified c) =
      u.history.count (.notified c) → x.tokens = u.tokens + 1 → x.Served c := by
    intro u x hu hrequest hnotified htokens
    rw [View.Served, hrequest, hnotified, htokens, hu]
    omega
  cases h with
  | more u hreads => exact hreading hreads
  | unsupported u x p hreads _ hqueued =>
    have hx : x.Served c :=
      (hreading hreads).of_talks (hqueued.talks.mono fun _ ho => ho.settled) hqueued.tokens
    exact hx
  | threaded u p hreads _ _ _ =>
    exact hone (hreading hreads) (by simp [View.awaiting, View.requested, List.count_append])
      (by simp [View.awaiting, View.requested, List.count_append]) rfl
  | looked u p hreads _ _ =>
    exact hone (hreading hreads)
      (by simp [View.awaiting, View.resolved, View.requested, List.count_append])
      (by simp [View.awaiting, View.resolved, View.requested, List.count_append]) rfl

/-- Every reaction keeps the account of resolutions. -/
theorem Reaction.served (h : Reaction s c v e (.alive w)) (hv : v.Served c) : w.Served c := by
  have hlocal : ∀ {v w : View}, v.Served c → Talks Obs.Local v (.alive w) → w.tokens = v.tokens →
      w.Served c := fun hv ht htokens => hv.of_talks (ht.mono fun _ ho => ho.settled) htokens
  cases h with
  | greets fd env r _ _ _ hread =>
    refine hread.served hv fun buff bytes hu hgreets => ?_
    generalize hr : Result.alive w = r at hgreets
    cases hgreets with
    | reads x malformed hreads =>
      cases malformed with
      | true => cases hr
      | false =>
        obtain rfl := Result.alive.inj hr
        refine hlocal hu ((talks_begun _ c).trans hreads.talks) (hreads.tokens.trans ?_)
        unfold View.begun
        split <;> rfl
  | authenticates fd env r _ _ _ hread =>
    refine hread.served hv fun buff bytes hu hauth => ?_
    generalize hr : Result.alive w = r at hauth
    cases hauth with
    | reads x malformed hreads =>
      cases malformed with
      | true => cases hr
      | false =>
        obtain rfl := Result.alive.inj hr
        exact hlocal hu hreads.talks hreads.tokens
  | requests fd env r _ _ _ hread =>
    exact hread.served hv fun buff bytes hu hrequests => hrequests.served hu
  | relays fd env r _ _ _ hread =>
    exact hread.served hv fun buff bytes hu hcopy => hu.of_talks hcopy.talks hcopy.tokens
  | sends table fd env r _ _ hwrote => exact hlocal hv hwrote.talks hwrote.tokens
  | blocks env r _ hwaiting hblocks =>
    refine hlocal ?_ hblocks.talks hblocks.tokens
    have htokens := hwaiting.tokens
    rw [View.Served, htokens] at hv
    simp [View.Served, View.notified, List.count_append, hv]
  | resolves env _ hwaiting =>
    have htokens := hwaiting.tokens
    rw [View.Served, htokens] at hv
    simp [View.Served, View.resolved, List.count_append, hv]
  | connects fd env r i _ _ _ hconnects => exact hlocal hv hconnects.talks hconnects.tokens
  | receives fd env r i _ _ _ _ hreceived => exact hv.of_talks hreceived.talks hreceived.tokens
  | delivers fd env r i _ _ _ _ hwrote => exact hv.of_talks hwrote.talks hwrote.tokens

/-- Every connection's requests were notified or are outstanding. -/
theorem ReachableUnder.served {guard : Server → Event → Prop} (h : ReachableUnder guard s)
    (hview : s.view c = some v) : v.Served c := by
  refine h.views (P := fun c v => v.Served c) ?_ ?_ c v hview
  · intro c v hfresh
    rw [View.Served, hfresh.history, hfresh.early.tokens]
    rfl
  · intro s e c v w _ _ _ hv hreaction
    exact hreaction.served hv

/-- The connections in flight own the descriptors of the queued notifications. -/
def Addressed (s : Server) (jobs : List ℕ) (flight : List ConnId) : Prop :=
  List.Forall₂ (fun fd c => s.kernel.owner fd = some (.client c)) jobs flight

/-- A delivery takes the first notification on both lists. -/
theorem Addressed.taken {jobs : List ℕ} (h : Addressed s s.selector.resolutionJobs flight)
    (hjobs : e.jobs s = jobs) : Addressed s jobs (e.undelivered flight) := by
  subst hjobs
  cases e with
  | notify env =>
    unfold Addressed at h ⊢
    simp only [Event.jobs, Event.undelivered]
    generalize s.selector.resolutionJobs = jobs at h ⊢
    cases h with
    | nil => exact .nil
    | cons _ hrest => exact hrest
  | _ => exact h

/-- Descriptors of queued notifications keep their owner. -/
theorem Addressed.kept {jobs : List ℕ} (h : Addressed s jobs flight)
    (howner : ∀ fd ∈ jobs, ∀ c, s.kernel.owner fd = some (.client c) →
      s'.kernel.owner fd = some (.client c)) : Addressed s' jobs flight := by
  unfold Addressed at h ⊢
  induction h with
  | nil => exact .nil
  | cons hfirst _ ih =>
    exact .cons (howner _ (by simp) _ hfirst) (ih fun fd hfd => howner fd (by simp [hfd]))

/-- Every event keeps the connections in flight addressed. -/
theorem Addressed.step (h : Addressed s s.selector.resolutionJobs flight) (hinv : Inv s)
    (he : enabled s e = true) (hstep : Socks5d.step s e = .ok s') :
    Addressed s' s'.selector.resolutionJobs (inFlightAfter s e s' flight) := by
  have hinv' := hinv.step he hstep
  cases hinv.effect he hstep with
  | background hb htarget =>
    have hsame : e.jobs s = s.selector.resolutionJobs ∧ e.undelivered flight = flight := by
      cases e with
      | notify env =>
        simp only [enabled, Bool.not_eq_true', List.isEmpty_eq_false_iff] at he
        obtain ⟨fd, rest, hjobs⟩ := List.exists_cons_of_ne_nil he
        obtain ⟨c, howner⟩ := hinv.owned.jobs fd (by simp [hjobs])
        obtain ⟨i, hitem⟩ := hinv.clientItem howner
        simp [Event.target, hjobs, hitem] at htarget
      | _ => exact ⟨rfl, rfl⟩
    rw [inFlightAfter, htarget, hsame.2, hb.jobs]
    refine h.kept fun fd hfd c howner => ?_
    obtain ⟨-, k, hk, hclient⟩ := hinv.owned.client fd c howner
    obtain ⟨⟨n, hn, hown⟩, -⟩ := hinv'.owned.conn c k (hb.kept c k hk)
    obtain rfl : n = fd := by omega
    exact hown
  | reaction c v r s₀ hview htarget hreaction hentered hlands hjobs =>
    obtain ⟨t, ht, howned⟩ := hlands.frame.jobs
    have hnew : ∀ fd ∈ s'.selector.resolutionJobs, ∀ d, s.kernel.owner fd = some (.client d) →
        s'.kernel.owner fd = some (.client d) := by
      intro fd hfd d howner
      obtain ⟨d', howner'⟩ := hinv'.owned.jobs fd hfd
      have hbefore := hlands.frame.owner_client howner'
      rw [hentered.kernel, howner] at hbefore
      rw [howner']
      exact hbefore.symm
    have hlength : s'.selector.resolutionJobs.length - (e.jobs s).length = t.length := by
      rw [ht, hjobs, List.length_append]
      omega
    rw [inFlightAfter, htarget]
    simp only [hlength]
    rw [ht] at hnew ⊢
    rw [hjobs] at hnew ⊢
    refine List.rel_append ?_ ((h.taken rfl).kept fun fd hfd => hnew fd (by simp [hfd]))
    refine List.forall₂_iff_get.mpr ⟨by simp, fun i hi hi' => ?_⟩
    have hmem : t.get ⟨i, hi⟩ ∈ t := List.get_mem t ⟨i, hi⟩
    have howner := howned _ hmem
    rw [hentered.kernel] at howner
    simpa using hnew _ (List.mem_append_left _ hmem) c howner

/-- In every run the connections in flight are addressed. -/
theorem InFlight.addressed (h : InFlight s flight) :
    Addressed s s.selector.resolutionJobs flight := by
  induction h with
  | start args s hs =>
    rw [(startServer_booting hs).1.jobs]
    exact .nil
  | event s s' e flight hflight he hstep ih => exact ih.step hflight.reachable.inv he hstep

/-- The notifications for a connection's descriptor are its own. -/
theorem Addressed.count {jobs : List ℕ} {fd : ℕ} (h : Addressed s jobs flight)
    (howner : s.kernel.owner fd = some (.client c))
    (hunique : ∀ n, s.kernel.owner n = some (.client c) → n = fd) :
    jobs.count fd = flight.count c := by
  unfold Addressed at h
  induction h with
  | nil => rfl
  | @cons n d jobs flight hfirst _ ih =>
    have hsame : n = fd ↔ d = c := by
      constructor
      · rintro rfl
        simpa [hfirst] using howner
      · rintro rfl
        exact hunique n hfirst
    simp only [List.count_cons, ih, beq_iff_eq, hsame]

/-- A delivery notes one notification, of the connection it is for. -/
theorem Inv.delivers (h : Inv s) (he : enabled s (.notify env) = true)
    (hstep : Socks5d.step s (.notify env) = .ok s') (htarget : (Event.notify env).target s = some c) :
    ∃ t, s'.trace = s.trace ++ .notified c :: t ∧
      ∀ o ∈ t, o.conn = c ∧ ∀ d, o ≠ .notified d := by
  cases h.effect he hstep with
  | background _ hnone => cases htarget.symm.trans hnone
  | reaction d v r s₀ hview htarget' hreaction hentered hlands _ =>
    obtain rfl := Option.some.inj (htarget.symm.trans htarget')
    obtain ⟨t, ht, hconn⟩ := hlands.frame.trace
    have hhistory := hlands.history_eq
    have hself : t.filter (fun o => o.conn == c) = t := by simpa using hconn
    rw [Server.history, ht, hentered.trace, List.filter_append, hself] at hhistory
    cases hreaction with
    | blocks env r _ _ hblocks =>
      obtain ⟨t', -, ht', hlocal, -⟩ := hblocks.talks
      have hbefore : s.trace.filter (fun o => o.conn == c) = v.history :=
        (view_eq_some_iff.mp hview).2.2.2.2.2
      rw [ht', hbefore] at hhistory
      obtain rfl : t = .notified c :: t' := by
        simpa [View.notified, List.append_assoc] using hhistory
      refine ⟨t', by rw [ht, hentered.trace], fun o ho => ⟨hconn o (by simp [ho]), ?_⟩⟩
      rintro d rfl
      exact hlocal _ ho

/-- The client a notification is queued for waits for it. -/
theorem Inv.awaits (h : Inv s) {fd : ℕ} (hjob : fd ∈ s.selector.resolutionJobs)
    (howner : s.kernel.owner fd = some (.client c)) :
    (s.selector.fds fd).isClientOf c ∧ s.stms c = some ⟨some .connecting⟩ := by
  obtain ⟨i, hitem⟩ := h.clientItem howner
  obtain ⟨v, hview, hclient, -⟩ := h.client hitem howner
  obtain ⟨-, hstm, -, -, htokens, -⟩ := view_eq_some_iff.mp hview
  have hpos : 0 < v.tokens := by
    have hcount := List.count_pos_iff.mpr hjob
    rw [← htokens, Server.tokens, hclient, Int.toNat_natCast]
    omega
  obtain ⟨hphase, -⟩ := (h.ok c v hview).waiting_of_tokens hpos
  rw [hitem, hstm, hphase]
  exact ⟨⟨rfl, rfl⟩, rfl⟩

/-- Every queued notification is addressed to a connecting client, the one whose resolution
queued it; requests were notified, or are in flight or being resolved; and the delivery of the
first notification does not abort and is noted once, by the first connection in flight. -/
theorem notifications_reach (h : InFlight s flight) :
    List.Forall₂ (fun fd c => (s.selector.fds fd).isClientOf c ∧
      s.stms c = some ⟨some .connecting⟩) s.selector.resolutionJobs flight ∧
    (∀ c v, s.view c = some v → (s.history c).count (.request c) =
      (s.history c).count (.notified c) + (flight.count c + s.resolving.count c)) ∧
    ∀ env, enabled s (.notify env) = true → step s (.notify env) ≠ .error .aborted ∧
      ∀ s', step s (.notify env) = .ok s' → ∃ c rest t, flight = c :: rest ∧
        s'.trace = s.trace ++ .notified c :: t ∧ ∀ o ∈ t, o.conn = c ∧ ∀ d, o ≠ .notified d := by
  have hinv := h.reachable.inv
  have haddressed := h.addressed
  refine ⟨?_, ?_, ?_⟩
  · obtain ⟨hlength, howned⟩ := List.forall₂_iff_zip.mp haddressed
    refine List.forall₂_iff_zip.mpr ⟨hlength, fun {fd c} hmem => ?_⟩
    exact hinv.awaits (List.of_mem_zip hmem).1 (howned hmem)
  · intro c v hview
    obtain ⟨hconn, -, -, -, htokens, hhistory⟩ := view_eq_some_iff.mp hview
    obtain ⟨⟨fd, hfd, howner⟩, -⟩ := hinv.owned.conn c v.conn hconn
    have hserved := ReachableUnder.served h.reachable hview
    have hcount : s.selector.resolutionJobs.count fd = flight.count c := by
      refine haddressed.count howner fun n hn => ?_
      obtain ⟨-, k, hk, hclient⟩ := hinv.owned.client n c hn
      obtain rfl := Option.some.inj (hconn.symm.trans hk)
      omega
    rw [hhistory, hserved, ← htokens, Server.tokens, hfd, Int.toNat_natCast, hcount]
  · intro env he
    have hsome : s.selector.resolutionJobs ≠ [] := by
      simpa [enabled] using he
    refine ⟨fun haborts => ?_, fun s' hstep => ?_⟩
    · have hholds : Holds _ _ (Effect ⟨true, false⟩ s (.notify env)) :=
        hinv.notify env hsome (by simp)
      rw [show handleBlockNotification env (s.enter env) = .error .aborted from haborts,
        holds_error] at hholds
      cases hholds.1
    · obtain ⟨fd, jobs, hjobs⟩ := List.exists_cons_of_ne_nil hsome
      rw [hjobs] at haddressed
      cases haddressed with
      | @cons _ c _ rest howner _ =>
        obtain ⟨i, hitem⟩ := hinv.clientItem howner
        obtain ⟨t, ht, hconn⟩ := hinv.delivers (c := c) he hstep
          (by simp [Event.target, hjobs, hitem])
        exact ⟨c, rest, t, rfl, ht, hconn⟩

/-- Two clients wait, one for an address that was looked up at once, the other for a name whose
resolver finished later. -/
theorem notifications_reach_two : ∃ (s : Server) (flight : List ConnId),
    s.selector.resolutionJobs = [2, 3] ∧ List.Forall₂ (fun fd c =>
      (s.selector.fds fd).isClientOf c ∧ s.stms c = some ⟨some .connecting⟩) [2, 3] flight := by
  obtain ⟨s, hs, hcheck⟩ := reachable_of_after
    [arrives, arrives, greets 2, greets 3,
      .readable 2 { recv := .data 5 [1, 0, 3, 1, 97, 0, 80] }, asks 3 [loopback],
      .resolved 0 { resolved := [loopback] }]
    (fun s => s.selector.resolutionJobs == [2, 3])
    (by decide +kernel)
  obtain ⟨flight, hflight⟩ := hs.inFlight
  have hjobs := beq_iff_eq.mp hcheck
  exact ⟨s, flight, hjobs, hjobs ▸ (notifications_reach hflight).1⟩

end Socks5d
