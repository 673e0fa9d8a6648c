import Socks5d.Cuts
import Socks5d.Fallback

/-!
# What becomes of a request

A request that was granted is answered once and registered once, with one status. The exceptions
are requests without a thread to resolve their address, retries without the descriptor they had,
and resolutions with addresses none of which stands or can be waited for: their connections are
closed without a reply. The addresses themselves are tried in their order until one stands, unless
`connect_to_host` ends with a code that its caller takes for another one.
-/

namespace Socks5d

open GuardedRun

variable {s s' : Server} {c : ConnId} {v w : View} {e : Event} {env : Env} {r : Result}
  {history t : List Obs}

/-- A request gets the thread it needs, a retry the descriptor it closed, and a notification with
addresses one that stands or that can be waited for. -/
def KeepsRequest (s : Server) : Event → Prop
  | .readable _ env => env.threadCreated = true
  | .notify env => ∀ c ∈ (Event.notify env).target s, ∀ k ∈ s.conns c, ¬ BlockHazard s k.addrInfo env
  | .writable fd env => RetryReuses s (.writable fd env)
  | .resolved _ _ | .adminInterest _ _ | .adminClose _ | .configure _ _ _ => True

instance (s : Server) : (e : Event) → Decidable (KeepsRequest s e)
  | .readable _ env => inferInstanceAs (Decidable (env.threadCreated = true))
  | .notify env => inferInstanceAs (Decidable (∀ c ∈ (Event.notify env).target s, _))
  | .writable fd env => inferInstanceAs (Decidable (RetryReuses s (.writable fd env)))
  | .resolved _ _ | .adminInterest _ _ | .adminClose _ | .configure _ _ _ => isTrue trivial

/-- Retries get the descriptor they closed. -/
theorem KeepsRequest.reuses (h : KeepsRequest s e) : RetryReuses s e := by
  cases e with
  | writable fd env => exact h
  | _ => trivial

/-- The request of a connection waits for its origin, or was answered once. -/
def RequestSettled (c : ConnId) (s : Server) : Prop :=
  account (s.history c) = { connects := true } ∧ s.stms c = some ⟨some .connecting⟩ ∨
    (account (s.history c)).Answered

/-- A request that was granted goes on to the connecting phase. -/
def Granted (c : ConnId) (history : List Obs) : Prop :=
  Obs.request c ∈ history → (account history).connects = true

/-- The account of a history goes on with what is noted next. -/
theorem account_append (history t : List Obs) :
    account (history ++ t) = t.foldl Account.note (account history) := List.foldl_append

/-- What was to connect once stays so. -/
theorem Account.connects_foldl {a : Account} (h : a.connects = true) (t : List Obs) :
    (t.foldl Account.note a).connects = true := by
  induction t generalizing a with
  | nil => exact h
  | cons o rest ih =>
    refine ih ?_
    fun_cases Account.note a o with
    | case3 => rfl
    | _ => exact h

/-- What is noted next is no request. -/
theorem Granted.extend (h : Granted c v.history)
    (hmarks : milestones history = milestones v.history ++ t) (ht : Obs.request c ∉ t) :
    Granted c history := by
  intro hmem
  have hbefore : Obs.request c ∈ milestones v.history := by
    have hmark := (mem_milestones rfl).mpr hmem
    rw [hmarks] at hmark
    exact (List.mem_append.mp hmark).resolve_right ht
  rw [← account_milestones, hmarks, account_append, account_milestones]
  exact Account.connects_foldl (h ((mem_milestones rfl).mp hbefore)) t

/-- What is noted of an answer is no request. -/
theorem Answers.not_request {status : UInt8} (h : Answers c status t) : Obs.request c ∉ t := by
  obtain ⟨call, bytes, -, rfl⟩ := h
  simp

/-- A move takes a granted request to the connecting phase, unless there is no thread for it. -/
theorem Move.granted (h : Move s c v e r) (hfresh : ¬ StaleConnect s c v e)
    (hkeeps : KeepsRequest s e) (hgranted : Granted c v.history) : Granted c r.history := by
  cases h with
  | quiet w _ _ hmarks _ => exact hgranted.extend (hmarks.trans (List.append_nil _).symm) (by simp)
  | chosen w _ _ _ _ _ hmarks => exact hgranted.extend hmarks (by simp)
  | judged w _ _ _ hmarks _ _ => exact hgranted.extend hmarks (by simp)
  | authorized w _ _ _ hmarks _ => exact hgranted.extend hmarks (by simp)
  | passed w _ _ _ _ hmarks => exact hgranted.extend hmarks (by simp)
  | unsupported w _ _ _ _ _ hmarks => exact hgranted.extend hmarks (by simp)
  | requested w _ _ _ _ hmarks =>
    intro _
    change (account w.history).connects = true
    rw [← account_milestones, hmarks, account_append]
    rfl
  | noThread history fd env he hthread _ _ _ =>
    subst he
    rw [show env.threadCreated = true from hkeeps] at hthread
    cases hthread
  | noAddress w t _ _ _ _ ht hmarks =>
    rw [List.append_assoc] at hmarks
    exact hgranted.extend hmarks (by simp [ht.not_request])
  | relays r t history _ _ ht hmarks hr =>
    have hrelays : ∃ u, milestones history = milestones v.history ++ u ∧ Obs.request c ∉ u := by
      rcases hmarks with hmarks | hmarks
      · exact ⟨_, hmarks, by simp [ht.not_request]⟩
      · exact ⟨_, hmarks, by simp [ht.not_request]⟩
    obtain ⟨u, hu, hnot⟩ := hrelays
    rcases hr with ⟨w, rfl, -, hw⟩ | ⟨x, rfl, hx⟩
    · exact hgranted.extend (hw.trans hu) hnot
    · rw [hu, List.append_assoc] at hx
      exact hgranted.extend hx (by simp [hnot])
  | refused w t _ _ _ _ _ _ ht hmarks =>
    rcases hmarks with hmarks | hmarks
    · exact hgranted.extend hmarks ht.not_request
    · exact hgranted.extend hmarks (by simp [ht.not_request])
  | skipped w _ _ _ hmarks _ => exact hgranted.extend hmarks (by simp)
  | closed history t _ ht hmarks =>
    exact hgranted.extend hmarks (by rcases ht with rfl | rfl <;> simp)
  | stale _ _ _ hstale => exact absurd hstale hfresh

/-- Runs that keep their requests give retries the descriptors they closed. -/
theorem ReachableUnder.reuses (h : ReachableUnder KeepsRequest s) : ReachableUnder RetryReuses s :=
  h.mono fun _ _ hg => hg.reuses

/-- In such runs every granted request goes on to the connecting phase. -/
theorem ReachableUnder.granted (h : ReachableUnder KeepsRequest s) (c : ConnId) :
    Granted c (s.history c) := by
  have hreact : ∀ s e c v r, ReachableUnder KeepsRequest s → KeepsRequest s e →
      s.view c = some v → Granted c v.history → Reaction s c v e r → Granted c r.history := by
    intro s e c v r hreach hg hview hgranted hr
    exact (hr.progress hreach.reachable.inv hview).2.granted (hreach.reuses.fresh hview) hg hgranted
  have hfates := h.fates (P := fun c v => Granted c v.history) (Q := Granted)
    (fun c => by simp [Granted]) (fun c v hv => by simp [Granted, hv.history])
    (fun s e _ c v w hreach hg _ _ hview _ hv hr => hreact s e c v (.alive w) hreach hg hview hv hr)
    (fun s e c v x hreach hg _ hview hv hr => hreact s e c v (.gone x) hreach hg hview hv hr)
  rcases hfates c with ⟨v, hview, hgranted⟩ | ⟨-, hnil | hgranted⟩
  · obtain ⟨-, -, -, -, -, hhistory⟩ := view_eq_some_iff.mp hview
    rwa [hhistory]
  · simp [hnil, Granted]
  · exact hgranted

/-- In such runs every granted request is settled. -/
theorem ReachableUnder.settled (h : ReachableUnder KeepsRequest s)
    (hrequest : Obs.request c ∈ s.history c) : RequestSettled c s := by
  have hconnects := h.granted c hrequest
  rcases h.reuses.accounts c with ⟨hnone, -⟩ | hsettled
  · rw [hconnects] at hnone
    cases hnone
  · exact hsettled

section Abandoned

variable {fd : ℕ}

/-- Only a hazard makes a notification give up. -/
theorem Abandons.hazard (h : Abandons c env s.selector.fds s.kernel.lowest v w) :
    BlockHazard s v.conn.addrInfo env := by
  cases h with
  | refused hsome hdial => exact ⟨hsome, by rw [hdial]; trivial⟩
  | unregistered hsome hdial =>
    refine ⟨hsome, ?_⟩
    rcases hdial with hdial | ⟨⟨peer, rest, hdial⟩, hfull⟩
    · rw [hdial]
      trivial
    · rw [hdial]
      exact hfull

/-- A connection that is given up in mid-callback is not answered. -/
theorem Abandons.replies {fds : ℕ → Item} (h : Abandons c env fds fd v w) :
    (account (w.history ++ [.enter c .error, .released c])).replies =
      (account v.history).replies := by
  have hdialed : (dial v.conn.addrInfo env.connects = .refused ∨
      dial v.conn.addrInfo env.connects = .noSocket ∨
        ∃ peer rest, dial v.conn.addrInfo env.connects = .pending peer rest) →
      account (v.dialed c fd env.connects none).history = account v.history := by
    intro hdial
    rw [← account_milestones, ← account_milestones v.history]
    congr 1
    rcases hdial with hdial | hdial | ⟨peer, rest, hdial⟩ <;>
      simp [View.dialed, milestones_dialHistory, hdial]
  rw [account_append]
  cases h with
  | refused _ hdial => simp [Account.note, hdialed (.inl hdial)]
  | unregistered _ hdial =>
    have hsame := hdialed (.inr (hdial.imp_right And.left))
    simp only [View.registered, account_append, hsame]
    rfl

/-- What a notification leaves of the connection that it gives up. -/
theorem Inv.abandoned (h : Inv s) (he : enabled s (.notify env) = true)
    (hrun : releases s (.notify env) = .ok (some s')) :
    ∃ c v w, (Event.notify env).target s = some c ∧ s.view c = some v ∧
      v.phase = some .connecting ∧ v.Waiting ∧ BlockHazard s v.conn.addrInfo env ∧
      Abandons c env s.selector.fds s.kernel.lowest (({ v with tokens := 0 } : View).notified c) w ∧
      s'.stms c = none ∧ s'.history c = w.history ++ [.enter c .error, .released c] := by
  obtain ⟨c, v, s₁, htarget, hview, hphase, hwaiting, -, -, hkernel, hfds, htracks, -, hreleases⟩ :=
    h.notificationReady he
  rw [hreleases] at hrun
  obtain ⟨w, habandons, hgone⟩ :=
    htracks.socksv5BlockReleases_abandons rfl hphase hwaiting.originFd rfl hrun
  rw [hkernel, hfds] at habandons
  exact ⟨c, v, w, htarget, hview, hphase, hwaiting, habandons.hazard, habandons, hgone.stms,
    hgone.history_eq⟩

/-- A connection that is given up is not settled. -/
theorem ReachableUnder.not_settled (h : ReachableUnder RetryReuses s)
    (he : enabled s (.notify env) = true) (htarget : (Event.notify env).target s = some c)
    (hrun : releases s (.notify env) = .ok (some s')) : ¬ RequestSettled c s' := by
  obtain ⟨d, v, w, htarget', hview, hphase, hwaiting, -, habandons, hgone, hhistory⟩ :=
    h.reachable.inv.abandoned he hrun
  obtain rfl : c = d := Option.some.inj (htarget.symm.trans htarget')
  have hbefore : account v.history = { connects := true } := by
    rcases h.dialogues (p := .hurried) (fun _ _ hg => hg) (.inl rfl) c with
      ⟨u, stage, hu, hdialogue, hfits⟩ | ⟨hnone, -⟩
    · obtain rfl := Option.some.inj (hu.symm.trans hview)
      obtain rfl := hfits.of_connecting hphase hwaiting.isErrorResponse
      have haccount := hdialogue.account
      generalize account u.history = a at haccount
      cases haccount
      rfl
    · rw [hnone] at hview
      cases hview
  have hreplies : (account (s'.history c)).replies = [] := by
    rw [hhistory, habandons.replies]
    simp [View.notified, account_append, Account.note, hbefore]
  rintro (⟨-, hstm⟩ | ⟨-, status, hstatus, -⟩)
  · rw [hgone] at hstm
    cases hstm
  · rw [hreplies] at hstatus
    cases hstatus

/-- A notification ends, or releases its connection, unless its success reply cannot be sent. -/
theorem Inv.notify_ends (h : Inv s) (he : enabled s (.notify env) = true)
    (hsend : ¬ FatalSend env.send) : ∃ s', EndsIn s (.notify env) s' := by
  obtain ⟨c, v, s₁, -, hview, hphase, hwaiting, -, -, -, -, htracks, hstep, hreleases⟩ :=
    h.notificationReady he
  by_cases hhazard : BlockHazard s₁ v.conn.addrInfo env
  · obtain ⟨s', hs'⟩ := htracks.socksv5BlockReleases_of_hazard rfl hphase hwaiting.originFd rfl hsend
      hhazard
    exact ⟨s', .inr (hreleases.trans hs')⟩
  · have hblock := htracks.socksv5Block rfl env hphase hwaiting.originFd rfl
      hwaiting.isErrorResponse (h.ok c v hview).outCapacity
    cases hrun : socksv5Block ⟨v.conn.clientFd, c⟩ env s₁ with
    | ok s' => exact ⟨s', .inl (hstep.trans hrun)⟩
    | error f => exact absurd (hblock.fault hrun).2 hhazard

/-- An event adds to what is known of its connection. -/
theorem Inv.mem_history {o : Obs} (h : Inv s) (he : enabled s e = true)
    (hstep : Socks5d.step s e = .ok s') (htarget : e.target s = some c)
    (ho : o ∈ s.history c) : o ∈ s'.history c := by
  cases h.effect he hstep with
  | background _ hnone =>
    rw [htarget] at hnone
    cases hnone
  | reaction d v r s₁ _ _ _ hentered hlands _ =>
    obtain ⟨u, hu, -⟩ := hlands.frame.trace
    rw [Server.history, hu, hentered.trace, List.filter_append]
    exact List.mem_append_left _ ho

end Abandoned

/-- In every run that keeps its requests each granted request is settled, while its connection is
there and after it has gone. The next notification ends, and its request is settled then, exactly
if it finds no addresses, or one that stands or that can be waited for. -/
theorem connect_answered_iff (h : ReachableUnder KeepsRequest s)
    (hrequest : Obs.request c ∈ s.history c) :
    RequestSettled c s ∧ ∀ env, enabled s (.notify env) = true →
      (Event.notify env).target s = some c →
        (¬ FatalSend env.send → ∃ s', EndsIn s (.notify env) s') ∧
        ∀ s', EndsIn s (.notify env) s' →
          (RequestSettled c s' ↔ ∀ k ∈ s.conns c, ¬ BlockHazard s k.addrInfo env) := by
  refine ⟨h.settled hrequest, fun env he htarget => ⟨h.reachable.inv.notify_ends he, ?_⟩⟩
  rintro s' (hstep | hreleases)
  · have hkeeps : KeepsRequest s (.notify env) := by
      intro d hd k hk hhazard
      cases hjobs : s.selector.resolutionJobs with
      | nil => simp [enabled, hjobs] at he
      | cons fd jobs =>
        obtain ⟨b, -, i, hitem, -⟩ := h.reachable.inv.delivery ⟨true, false⟩ env hjobs (by simp) rfl
        obtain rfl : b = d := by simpa [Event.target, hjobs, hitem] using hd
        exact h.reachable.inv.block_faults hjobs ⟨by rw [hitem], by rw [hitem]⟩ hk hhazard hstep
    refine iff_of_true ((h.snoc he hkeeps hstep).settled
      (h.reachable.inv.mem_history he hstep htarget hrequest)) fun k hk => hkeeps c htarget k hk
  · refine iff_of_false (h.reuses.not_settled he htarget hreleases) fun hsafe => ?_
    obtain ⟨d, v, w, htarget', hview, -, -, hhazard, -⟩ := h.reachable.inv.abandoned he hreleases
    obtain rfl : c = d := Option.some.inj (htarget.symm.trans htarget')
    exact hsafe v.conn (view_eq_some_iff.mp hview).1 hhazard

/-- A notification whose only address answers, and one whose only address refuses. -/
def decides (outcome : ConnectOutcome) : Event :=
  .notify { connects := [outcome], sends := [.accepted 21] }

/-- The request is settled when the address answers, and lost when it refuses. -/
theorem connect_answered_iff_decided : ∃ s : Server, Obs.request 0 ∈ s.history 0 ∧
    (∃ s', EndsIn s (decides .connected) s' ∧ RequestSettled 0 s') ∧
    ∃ s', EndsIn s (decides (.failed .econnrefused)) s' ∧ ¬ RequestSettled 0 s' := by
  obtain ⟨s, hs, hcheck⟩ := reachableUnder_of_after KeepsRequest
    [arrives, greets 2, asks 2 [loopback]]
    (fun s => decide (Obs.request 0 ∈ s.history 0) &&
      [ConnectOutcome.connected, .failed .econnrefused].all (fun outcome =>
        enabled s (decides outcome) && decide ((decides outcome).target s = some 0)) &&
      (s.conns 0).any fun k : Socks5Conn => decide (k.addrInfo = [loopback]))
    (by decide +kernel)
  simp only [Bool.and_eq_true, decide_eq_true_eq, List.all_cons, List.all_nil, Bool.and_true,
    Option.any_eq_true] at hcheck
  obtain ⟨⟨hrequest, ⟨he, htarget⟩, he', htarget'⟩, k, hk, haddrs⟩ := hcheck
  obtain ⟨-, hiff⟩ := connect_answered_iff hs hrequest
  have hsend : ∀ env : Env, env.sends = [.accepted 21] → ¬ FatalSend env.send := by
    intro env henv
    simp [Env.send, henv, FatalSend]
  refine ⟨s, hrequest, ?_, ?_⟩
  · obtain ⟨hends, hsettled⟩ := hiff _ he htarget
    obtain ⟨s', hs'⟩ := hends (hsend _ rfl)
    refine ⟨s', hs', (hsettled s' hs').mpr fun j hj hhazard => ?_⟩
    obtain rfl := Option.some.inj (hk.symm.trans hj)
    rw [haddrs] at hhazard
    obtain ⟨-, err, herr, -⟩ := hhazard
    cases herr
  · obtain ⟨hends, hsettled⟩ := hiff _ he' htarget'
    obtain ⟨s', hs'⟩ := hends (hsend _ rfl)
    refine ⟨s', hs', fun hset => (hsettled s' hs').mp hset k hk ?_⟩
    rw [haddrs]
    exact ⟨by simp, trivial⟩

/-- A client whose only address refuses is closed without a reply and without an entry. -/
theorem not_connect_answered : ¬ ∀ (s s' : Server) (c : ConnId) (e : Event), Reachable s →
    enabled s e = true → EndsIn s e s' → Obs.request c ∈ s'.history c → RequestSettled c s' := by
  intro hall
  obtain ⟨s, hs, hcheck⟩ := reachable_of_after [arrives, greets 2, asks 2 [loopback]]
    (fun s => enabled s (decides (.failed .econnrefused)) &&
      (releases s (decides (.failed .econnrefused))).toOption.join.any fun s' : Server =>
        decide (Obs.request 0 ∈ s'.history 0) && (s'.stms 0).isNone &&
          decide ((account (s'.history 0)).replies = []))
    (by decide +kernel)
  simp only [Bool.and_eq_true, Option.any_eq_true, decide_eq_true_eq,
    Option.isNone_iff_eq_none] at hcheck
  obtain ⟨he, s', hjoin, ⟨hrequest, hgone⟩, hreplies⟩ := hcheck
  have hreleases : releases s (decides (.failed .econnrefused)) = .ok (some s') := by
    cases hrun : releases s (decides (.failed .econnrefused)) with
    | error f => simp [hrun, Except.toOption] at hjoin
    | ok o => simpa [hrun, Except.toOption] using hjoin
  rcases hall s s' 0 _ hs he (.inr hreleases) hrequest with ⟨-, hstm⟩ | ⟨-, status, hstatus, -⟩
  · rw [hgone] at hstm
    cases hstm
  · rw [hreplies] at hstatus
    cases hstatus

section Addresses

variable {addrs : List AddrInfo} {before : List Obs} {events : List Event}

instance (d : Dial) : Decidable (∃ peer, d = .connected peer) :=
  match d with
  | .connected peer => isTrue ⟨peer, rfl⟩
  | .refused | .noSocket | .pending _ _ => isFalse (by simp)

instance (s : Server) : (e : Event) → Decidable (RetryConnects s e)
  | .writable _ _ => inferInstanceAs (Decidable (_ ∧ _ ∧ _))
  | .readable _ _ | .notify _ | .resolved _ _ | .adminInterest _ _ | .adminClose _
  | .configure _ _ _ => isFalse id

/-- A notification gives up only when every address was refused, and a retry gets the descriptor it
closed and does not connect at once. -/
def FallsBack (s : Server) : Event → Prop
  | .notify env => ∀ c ∈ (Event.notify env).target s, ∀ k ∈ s.conns c,
      BlockHazard s k.addrInfo env → dial k.addrInfo env.connects = .refused
  | .writable fd env => RetryReuses s (.writable fd env) ∧ ¬ RetryConnects s (.writable fd env)
  | .readable _ _ | .resolved _ _ | .adminInterest _ _ | .adminClose _ | .configure _ _ _ => True

instance (s : Server) : (e : Event) → Decidable (FallsBack s e)
  | .notify env => inferInstanceAs (Decidable (∀ c ∈ (Event.notify env).target s, _))
  | .writable _ _ => inferInstanceAs (Decidable (_ ∧ _))
  | .readable _ _ | .resolved _ _ | .adminInterest _ _ | .adminClose _ | .configure _ _ _ =>
    isTrue trivial

theorem FallsBack.reuses (h : FallsBack s e) : RetryReuses s e := by
  cases e with
  | writable fd env => exact h.1
  | _ => trivial

theorem FallsBack.not_connects (h : FallsBack s e) : ¬ RetryConnects s e := by
  cases e with
  | writable fd env => exact h.2
  | _ => exact id

/-- The addresses were tried in the order of the list since that history, up to the one that is
pending or relayed to, whose socket the connection has, or up to the last one, and the connection
was refused then. -/
def FellBack (c : ConnId) (addrs : List AddrInfo) (before : List Obs) (s : Server) : Prop :=
  ∃ (walk : Walk) (t : List Obs), walk.addrs = addrs ∧ s.history c = before ++ t ∧
    dials t = walk.dials c ∧ walk.Sound ∧
    (∀ v, s.view c = some v → walk.Fits v ∧ walk.Linked v) ∧ (s.view c = none → walk.Over)

/-- A strict walk has fallen back. -/
theorem Falls.fellBack (h : Falls True c addrs before s) : FellBack c addrs before s := by
  obtain ⟨walk, t, haddrs, hhistory, hdials, hsound, hat⟩ := h.walk
  exact ⟨walk, t, haddrs, hhistory, hdials, hsound trivial,
    fun v hv => ⟨hat.fits v hv, hat.linked v hv⟩, hat.decided⟩

/-- A connection that is given up after every address was refused has fallen back. -/
theorem Falls.abandoned (h : Falls True c addrs before s) (he : enabled s (.notify env) = true)
    (htarget : (Event.notify env).target s = some c) (hfalls : FallsBack s (.notify env))
    (hrun : releases s (.notify env) = .ok (some s')) : FellBack c addrs before s' := by
  obtain ⟨d, v, w, htarget', hview, hphase, hwaiting, hhazard, habandons, hgone, hhistory⟩ :=
    h.reach.reachable.inv.abandoned he hrun
  obtain rfl : c = d := Option.some.inj (htarget.symm.trans htarget')
  obtain ⟨hconn, -, -, -, -, hbefore⟩ := view_eq_some_iff.mp hview
  have hrefused := hfalls c htarget v.conn hconn hhazard
  obtain ⟨walk, t, haddrs, hold, hdials, -, hat⟩ := h.walk
  -- the walk of a connection that still waits for its notification has not begun
  have huntried : walk = .untried v.conn.addrInfo := by
    have hfits := hat.fits v hview
    have hserved : v.conn.isErrorResponse ≠ true := by simp [hwaiting.isErrorResponse]
    cases walk with
    | untried list => exact congrArg _ hfits.2.2.symm
    | pending => exact absurd hwaiting.originFd hfits.2.1.originFd
    | relayed => cases hphase.symm.trans hfits
    | wasted => exact absurd hfits.1 hserved
    | exhausted => exact absurd hfits.1 hserved
  subst huntried
  obtain rfl : v.conn.addrInfo = addrs := haddrs
  have htries := tries_dial c s.kernel.lowest v.conn.addrInfo env.connects
  rw [hrefused] at htries
  have hnone : s'.view c = none := by
    cases hs' : s'.view c with
    | none => rfl
    | some x =>
      obtain ⟨-, hstm, -⟩ := view_eq_some_iff.mp hs'
      rw [hgone] at hstm
      cases hstm
  have hw : w.history = before ++ (t ++ (.notified c :: dialHistory c s.kernel.lowest
      v.conn.addrInfo env.connects)) := by
    rw [← List.append_assoc, ← hold, hbefore]
    cases habandons with
    | refused _ _ => simp [View.dialed, View.notified]
    | unregistered _ hdial =>
      rw [show dial (({ v with tokens := 0 } : View).notified c).conn.addrInfo env.connects = _ from
        hrefused] at hdial
      rcases hdial with hdial | ⟨⟨peer, rest, hdial⟩, -⟩
      · cases hdial
      · cases hdial
  refine ⟨.exhausted v.conn.addrInfo, (t ++ (.notified c :: dialHistory c s.kernel.lowest v.conn.addrInfo
    env.connects)) ++ [.enter c .error, .released c], rfl, ?_, ?_, trivial, ?_, fun _ => trivial⟩
  · rw [hhistory, hw, List.append_assoc]
  · have hdials' : dials t = [] := hdials
    simp [Obs.isDial, hdials', htries.of_refused, Walk.dials]
  · intro x hx
    rw [hnone] at hx
    cases hx

/-- In every run whose notifications give up only when every address was refused, and whose retries
get the descriptor they closed and do not connect at once, the addresses a connection was resolved
to are tried in their order, each at most once, up to the one that is pending or relayed to. The
connection is refused, or closed, only when all of them were tried and none connected. -/
theorem fallback_in_order (h : ReachableUnder FallsBack s) (hview : s.view c = some v)
    (hjob : v.conn.clientFd.toNat ∈ s.selector.resolutionJobs)
    (hrun : Run machine FallsBack s events s') :
    FellBack c v.conn.addrInfo (s.history c) s' ∧
    ∀ env s'', enabled s' (.notify env) = true → (Event.notify env).target s' = some c →
      FallsBack s' (.notify env) → EndsIn s' (.notify env) s'' →
        FellBack c v.conn.addrInfo (s.history c) s'' := by
  have hfalls : Falls True c v.conn.addrInfo (s.history c) s' :=
    hrun.invariant ((h.mono fun _ _ hg => hg.reuses).falls hview hjob)
      fun s e s' hs he hg hstep => hs.step he hg.reuses (fun _ => hg.not_connects) hstep
  refine ⟨hfalls.fellBack, fun env s'' he htarget hg hends => ?_⟩
  rcases hends with hstep | hreleases
  · exact (hfalls.step he hg.reuses (fun _ => hg.not_connects) hstep).fellBack
  · exact hfalls.abandoned he htarget hg hreleases

/-- The state in which a client that resolved to two addresses waits for its notification. -/
def twoAddresses : List Event :=
  [arrives, greets 2, asks 2 [loopback, { loopback with aiPort := 8080 }]]

/-- A client whose first address refuses and whose second stands. -/
theorem fallback_in_order_second : ∃ (s s' : Server) (v : View) (events : List Event),
    s.view 0 = some v ∧ Run machine FallsBack s events s' ∧ s'.stms 0 = some ⟨some .copy⟩ ∧
      FellBack 0 v.conn.addrInfo (s.history 0) s' := by
  have hexec : ((afterUnder FallsBack twoAddresses).bind
      fun s => (exec machine FallsBack s [.notify { connects := [.failed .einprogress] },
        .writable 3 { soError := some .econnrefused, connects := [.failed .einprogress] },
        .writable 3 {}]).map fun s' => (s.view 0).any (fun v =>
          s.selector.resolutionJobs.contains v.conn.clientFd.toNat) &&
            s'.stms 0 == some ⟨some .copy⟩) = some true := by
    decide +kernel
  obtain ⟨s, hs, hexec⟩ := Option.bind_eq_some_iff.mp hexec
  obtain ⟨s', hs', hcheck⟩ := Option.map_eq_some_iff.mp hexec
  rw [Bool.and_eq_true, Option.any_eq_true] at hcheck
  obtain ⟨⟨v, hview, hjob⟩, hcopy⟩ := hcheck
  have hrun := run_of_exec hs'
  exact ⟨s, s', v, _, hview, hrun, beq_iff_eq.mp hcopy,
    (fallback_in_order (reachableUnder_of_eq hs) hview (List.contains_iff_mem.mp hjob) hrun).1⟩

/-- The retry connects to the second address at once, and the client is refused. -/
theorem not_fallback : ¬ ∀ (s s' : Server) (c : ConnId) (v : View) (events : List Event),
    Reachable s → s.view c = some v → v.conn.clientFd.toNat ∈ s.selector.resolutionJobs →
      Run machine unguarded s events s' → FellBack c v.conn.addrInfo (s.history c) s' := by
  intro hall
  have hexec : ((after twoAddresses).bind
      fun s => (exec machine unguarded s [.notify { connects := [.failed .einprogress] },
        .writable 3 { soError := some .econnrefused, connects := [.connected] }]).map fun s' =>
          (s.view 0).any (fun v => s.selector.resolutionJobs.contains v.conn.clientFd.toNat) &&
            (s'.view 0).any (fun v : View => v.conn.isErrorResponse &&
              decide (v.phase = some .connecting)) &&
            decide (Obs.established 0 ∉ s.history 0) &&
              decide (Obs.established 0 ∈ s'.history 0)) = some true := by
    decide +kernel
  obtain ⟨s, hs, hexec⟩ := Option.bind_eq_some_iff.mp hexec
  obtain ⟨s', hs', hcheck⟩ := Option.map_eq_some_iff.mp hexec
  simp only [Bool.and_eq_true, Option.any_eq_true, decide_eq_true_eq] at hcheck
  obtain ⟨⟨⟨⟨v, hview, hjob⟩, w, hview', herror, hphase⟩, hbefore⟩, hstands⟩ := hcheck
  obtain ⟨walk, t, haddrs, hhistory, hdials, hsound, hfits, -⟩ := hall s s' 0 v _
    (reachableUnder_of_eq hs) hview (List.contains_iff_mem.mp hjob) (run_of_exec hs')
  have hstood : Obs.established 0 ∈ dials t := by
    rw [hhistory] at hstands
    exact List.mem_filter.mpr ⟨(List.mem_append.mp hstands).resolve_left hbefore, rfl⟩
  obtain ⟨hfits, -⟩ := hfits w hview'
  cases walk with
  | untried => simp [hfits.2.1.isErrorResponse] at herror
  | pending => simp [hfits.2.1.isErrorResponse] at herror
  | relayed => cases hphase.symm.trans hfits
  | wasted => exact hsound
  | exhausted => simp [hdials, Walk.dials] at hstood

end Addresses

end Socks5d
