import Socks5d.Dialogue
import Socks5d.Flow
import Socks5d.Notifications

/-!
# Falling back to the next address

What becomes of the addresses a name was resolved to. They are tried in their order, over as many
callbacks as it takes, and what was not tried yet is what the record holds. The client is refused
once they are exhausted; a retry that connects at once is refused as well.
-/

namespace Socks5d

open GuardedRun

/-- An attempt, the socket opened for it, or its success. -/
def Obs.isAttempt : Obs → Bool
  | .attempt _ _ | .opened _ _ | .established _ => true
  | _ => false

/-- What a history shows of the attempts. -/
def attempts (history : List Obs) : List Obs := history.filter Obs.isAttempt

/-- The attempts of two histories, one after the other. -/
@[simp] theorem attempts_append (h t : List Obs) : attempts (h ++ t) = attempts h ++ attempts t :=
  List.filter_append h t

/-- An empty history has none. -/
@[simp] theorem attempts_nil : attempts [] = [] := rfl

/-- The first observation counts if it belongs to an attempt. -/
@[simp] theorem attempts_cons (o : Obs) (h : List Obs) :
    attempts (o :: h) = if o.isAttempt then o :: attempts h else attempts h :=
  List.filter_cons

/-- An attempt, or the success of the last one. -/
def Obs.isDial : Obs → Bool
  | .attempt _ _ | .established _ => true
  | _ => false

/-- What a history shows of the addresses tried. -/
def dials (history : List Obs) : List Obs := history.filter Obs.isDial

/-- The addresses tried in two histories, one after the other. -/
@[simp] theorem dials_append (h t : List Obs) : dials (h ++ t) = dials h ++ dials t :=
  List.filter_append h t

/-- An empty history has none. -/
@[simp] theorem dials_nil : dials [] = [] := rfl

/-- The first observation counts if it is an attempt. -/
@[simp] theorem dials_cons (o : Obs) (h : List Obs) :
    dials (o :: h) = if o.isDial then o :: dials h else dials h :=
  List.filter_cons

/-- The addresses tried are among the attempts. -/
theorem dials_attempts (h : List Obs) : dials (attempts h) = dials h := by
  rw [dials, dials, attempts, List.filter_filter]
  refine List.filter_congr fun o _ => ?_
  cases o <;> rfl

/-- Histories with the same attempts tried the same addresses. -/
theorem dials_congr {h t : List Obs} (heq : attempts h = attempts t) : dials h = dials t := by
  rw [← dials_attempts h, heq, dials_attempts]

/-- What an observation says of the address tried last, and of the socket opened for it. -/
def Obs.dialled (last : Option (AddrInfo × Option ℕ)) : Obs → Option (AddrInfo × Option ℕ)
  | .attempt _ peer => some (peer, none)
  | .opened _ fd => last.map fun d => (d.1, some fd)
  | _ => last

/-- The address tried last, with the socket opened for it. -/
def lastDial (history : List Obs) : Option (AddrInfo × Option ℕ) :=
  history.foldl Obs.dialled none

/-- Histories with the same attempts tried the same address last. -/
theorem lastDial_congr {h t : List Obs} (heq : attempts h = attempts t) :
    lastDial h = lastDial t := by
  have hattempts : ∀ (history : List Obs) last,
      (attempts history).foldl Obs.dialled last = history.foldl Obs.dialled last := by
    intro history
    induction history with
    | nil => exact fun last => rfl
    | cons o rest ih =>
      intro last
      cases o with
      | attempt _ _ | opened _ _ | established _ => exact ih _
      | _ => exact ih last
  rw [lastDial, lastDial, ← hattempts h, heq, hattempts]

/-- The `origin_fd` of the connection is the socket opened for this address, which it tried last. -/
def View.Dials (v : View) (peer : AddrInfo) : Prop :=
  ∃ fd : ℕ, v.conn.originFd = fd ∧ lastDial v.history = some (peer, some fd)

/-- A connection that attempts nothing and keeps its socket stays with the address. -/
theorem View.Dials.of_same {v w : View} {peer : AddrInfo} (h : v.Dials peer)
    (horigin : w.conn.originFd = v.conn.originFd)
    (hattempts : attempts w.history = attempts v.history) : w.Dials peer := by
  obtain ⟨fd, hfd, hlast⟩ := h
  exact ⟨fd, horigin.trans hfd, (lastDial_congr hattempts).trans hlast⟩

/-- How far the walk over a list of resolved addresses came. -/
inductive Walk
  | untried (addrs : List AddrInfo)
  | pending (tried : List AddrInfo) (peer : AddrInfo) (left : List AddrInfo)
  | relayed (tried : List AddrInfo) (peer : AddrInfo) (left : List AddrInfo)
  /-- A retry connected at once, which the handler of a pending connect takes for a failure. -/
  | wasted (tried : List AddrInfo) (peer : AddrInfo) (left : List AddrInfo)
  | exhausted (addrs : List AddrInfo)

namespace Walk

/-- The whole list. -/
def addrs : Walk → List AddrInfo
  | untried addrs | exhausted addrs => addrs
  | pending tried peer left | relayed tried peer left | wasted tried peer left =>
    tried ++ peer :: left

/-- The addresses tried so far, in their order, and the success of the last. -/
def dials (c : ConnId) : Walk → List Obs
  | untried _ => []
  | pending tried peer _ => (tried ++ [peer]).map (.attempt c)
  | relayed tried peer _ | wasted tried peer _ =>
    (tried ++ [peer]).map (.attempt c) ++ [.established c]
  | exhausted addrs => addrs.map (.attempt c)

/-- The request was decided. -/
def Over : Walk → Prop
  | untried _ | pending _ _ _ => False
  | relayed _ _ _ | wasted _ _ _ | exhausted _ => True

/-- The state of a connection while its walk is at this point. -/
def Fits (v : View) : Walk → Prop
  | untried addrs => v.phase = some .connecting ∧ v.Waiting ∧ v.conn.addrInfo = addrs
  | pending _ _ left => v.phase = some .connecting ∧ v.Pending ∧ v.conn.addrInfo = left
  | relayed _ _ _ => v.phase = some .copy
  | wasted _ _ _ | exhausted _ => v.conn.isErrorResponse = true ∧
      (v.phase = some .connecting ∨ v.phase = some .connectionReq)

/-- The notification was delivered. -/
def Begun : Walk → Prop
  | untried _ => False
  | pending _ _ _ | relayed _ _ _ | wasted _ _ _ | exhausted _ => True

/-- No address that connected was lost. -/
def Sound : Walk → Prop
  | wasted _ _ _ => False
  | untried _ | pending _ _ _ | relayed _ _ _ | exhausted _ => True

/-- The connection has the socket of the address the walk is at. -/
def Linked (v : View) : Walk → Prop
  | pending _ peer _ | relayed _ peer _ => v.Dials peer
  | untried _ | wasted _ _ _ | exhausted _ => True

/-- The walk its connection is on when it has this outcome. -/
def Leads (walk : Walk) : Result → Prop
  | .alive w => walk.Begun ∧ walk.Fits w
  | .gone _ => walk.Over

end Walk

section Dialling

variable {c : ConnId} {addrs : List AddrInfo} {outcomes : List ConnectOutcome} {d : Dial}
  {t : List Obs} {fd : ℕ}

/-- What one call of `connect_to_host` tries, by the way it ends. -/
inductive Tries (c : ConnId) : List AddrInfo → Dial → List Obs → Prop
  | refused (addrs : List AddrInfo) : Tries c addrs .refused (addrs.map (.attempt c))
  | noSocket (addrs : List AddrInfo) (t : List Obs) : Tries c addrs .noSocket t
  | connected (tried : List AddrInfo) (peer : AddrInfo) (left : List AddrInfo) :
      Tries c (tried ++ peer :: left) (.connected peer)
        ((tried ++ [peer]).map (.attempt c) ++ [.established c])
  | pending (tried : List AddrInfo) (peer : AddrInfo) (left : List AddrInfo) :
      Tries c (tried ++ peer :: left) (.pending peer left) ((tried ++ [peer]).map (.attempt c))

/-- An address that fails comes before the others. -/
theorem Tries.cons (h : Tries c addrs d t) (rp : AddrInfo) :
    Tries c (rp :: addrs) d (.attempt c rp :: t) := by
  cases h with
  | refused _ => exact .refused (rp :: addrs)
  | noSocket _ _ => exact .noSocket _ _
  | connected tried peer left => exact .connected (rp :: tried) peer left
  | pending tried peer left => exact .pending (rp :: tried) peer left

/-- A walk that was refused tried every address. -/
theorem Tries.of_refused (h : Tries c addrs .refused t) : t = addrs.map (.attempt c) := by
  cases h with
  | refused _ => rfl

/-- A walk that connected tried the addresses up to that one. -/
theorem Tries.of_connected {peer : AddrInfo} (h : Tries c addrs (.connected peer) t) :
    ∃ tried left, addrs = tried ++ peer :: left ∧
      t = (tried ++ [peer]).map (.attempt c) ++ [.established c] := by
  cases h with
  | connected tried _ left => exact ⟨tried, left, rfl, rfl⟩

/-- A walk that is pending tried the addresses up to that one. -/
theorem Tries.of_pending {peer : AddrInfo} {left : List AddrInfo}
    (h : Tries c addrs (.pending peer left) t) :
    ∃ tried, addrs = tried ++ peer :: left ∧ t = (tried ++ [peer]).map (.attempt c) := by
  cases h with
  | pending tried _ _ => exact ⟨tried, rfl, rfl⟩

/-- The walk tries the addresses in their order, up to the first that does not fail at once. -/
theorem tries_dial (c : ConnId) (fd : ℕ) (addrs : List AddrInfo)
    (outcomes : List ConnectOutcome) :
    Tries c addrs (dial addrs outcomes) (dials (dialHistory c fd addrs outcomes)) := by
  induction addrs generalizing outcomes with
  | nil => exact .refused []
  | cons rp next ih =>
    simp only [dial, dialHistory]
    cases outcomes.headD (.failed .econnrefused) with
    | socketFails e => exact .noSocket _ _
    | connected => simpa [Obs.isDial] using Tries.connected [] rp next
    | failed e =>
      by_cases he : e = .einprogress
      · simpa [he, Obs.isDial] using Tries.pending [] rp next
      · simpa [he, Obs.isDial] using (ih outcomes.tail).cons rp

/-- The address a walk ends at is the one it tried last. -/
theorem lastDial_dialHistory {peer : AddrInfo} (hpeer : (dial addrs outcomes).peer = some peer)
    (history : List Obs) :
    lastDial (history ++ dialHistory c fd addrs outcomes) = some (peer, some fd) := by
  rw [lastDial, List.foldl_append]
  generalize history.foldl Obs.dialled none = last
  induction addrs generalizing outcomes last with
  | nil => cases hpeer
  | cons rp next ih =>
    simp only [dial] at hpeer
    simp only [dialHistory, List.foldl_cons]
    cases hout : outcomes.headD (.failed .econnrefused) with
    | socketFails e =>
      rw [hout] at hpeer
      cases hpeer
    | connected =>
      rw [hout] at hpeer
      obtain rfl := Option.some.inj hpeer
      rfl
    | failed e =>
      rw [hout] at hpeer
      by_cases he : e = .einprogress
      · simp only [he, if_true] at hpeer ⊢
        obtain rfl := Option.some.inj hpeer
        rfl
      · simp only [he, if_false, List.foldl_cons] at hpeer ⊢
        exact ih hpeer _

end Dialling

section Callbacks

variable {s : Server} {c : ConnId} {v w : View} {e : Event} {junk : Memory} {fds : ℕ → Item}
  {out : SendOutcome} {r : Result} {env : Env} {fd : ℕ} {walk : Walk}

/-- Queueing a reply attempts nothing. -/
theorem Queued.attempts {kind : ReplyKind} {bytes : List UInt8} (h : Queued c kind bytes v w) :
    attempts w.history = attempts v.history := by
  cases h with
  | queued buff _ _ _ _ => simp [Obs.isAttempt]
  | dropped _ => rfl

/-- Resetting `in_buff` attempts nothing. -/
theorem attempts_reset (v : View) (c : ConnId) : attempts (v.reset c).history = attempts v.history := by
  by_cases hempty : v.conn.inBuff.content = []
  · simp [View.reset, hempty]
  · simp [View.reset, hempty, Obs.isAttempt]

/-- Moving on once the reply was sent attempts nothing. -/
theorem Advance.attempts (h : Advance c junk fds w r) : attempts r.history = attempts w.history := by
  cases h with
  | refused state _ _ _ => simp [Result.history, Obs.isAttempt]
  | auth p _ _ _ _ => simp [Result.history, Obs.isAttempt]
  | connectionReq state _ _ _ => simp [Result.history, Obs.isAttempt]
  | copy state relay _ _ _ _ => simp [Result.history, Obs.isAttempt]

/-- A write to the client attempts nothing. -/
theorem Wrote.attempts (h : Wrote c junk fds v out r) : attempts r.history = attempts v.history := by
  cases h with
  | idle hempty => rfl
  | blocked hleft hout => rfl
  | broken err hleft hout he => simp [Result.history, Obs.isAttempt]
  | relayed n left hleft hout hphase hcontent hcapacity =>
    simp [Result.history, View.sent, Obs.isAttempt]
  | advanced n left r hleft hout hcontent hcapacity hadvance =>
    exact hadvance.attempts.trans (by simp [View.sent, Obs.isAttempt])

/-- A write to the origin attempts nothing. -/
theorem CopyWrote.attempts (h : CopyWrote c v out r) : attempts r.history = attempts v.history := by
  cases h with
  | idle hempty => rfl
  | blocked hleft hout => rfl
  | delivered n left hleft hout hcontent hcapacity =>
    simp [Result.history, View.delivered, Obs.isAttempt]
  | broken hleft hout => simp [Result.history, Obs.isAttempt]

/-- Passing on what the client sent attempts nothing. -/
theorem CopyRead.attempts (h : CopyRead c s v out r) : attempts r.history = attempts v.history := by
  cases h with
  | unregistered hunreg => simp [Result.history, Obs.isAttempt]
  | relayed r hreg hout hwrote => exact hwrote.attempts

/-- Passing on what the origin sent attempts nothing. -/
theorem CopyReceived.attempts (h : CopyReceived c junk v env r) :
    attempts r.history = attempts v.history := by
  cases h with
  | full hfull => rfl
  | received table first rest buff r hspace hrecv hcontent hcapacity hwrote =>
    exact hwrote.attempts.trans (by simp [Obs.isAttempt])
  | ended hspace hrecv => simp [Result.history, Obs.isAttempt]
  | blocked hspace hrecv => rfl
  | broken err hspace hrecv he => simp [Result.history, Obs.isAttempt]

/-- A client read attempts nothing when the read handler of its phase does not. -/
theorem ClientRead.attempts {Q : View → Result → Prop} (h : ClientRead c v env Q r)
    (hread : ∀ w, Q w r → attempts r.history = attempts w.history) :
    attempts r.history = attempts v.history := by
  cases h with
  | full hfull => rfl
  | ended hspace _ => simp [Result.history, Obs.isAttempt]
  | blocked hspace _ => rfl
  | broken err hspace _ he => simp [Result.history, Obs.isAttempt]
  | handled first rest buff r hspace _ hcontent hcapacity hQ =>
    exact (hread _ hQ).trans (by simp [View.received, Obs.isAttempt])

/-- Entering the relay attempts nothing. -/
theorem EntersCopy.attempts (h : EntersCopy c fds v w) : attempts w.history = attempts v.history := by
  cases h with
  | already hphase => rfl
  | jumps relay hphase hrelay => simp [Obs.isAttempt]

/-- Entering the relay keeps `origin_fd`. -/
theorem EntersCopy.originFd (h : EntersCopy c fds v w) : w.conn.originFd = v.conn.originFd := by
  cases h with
  | already _ => rfl
  | jumps _ _ _ => rfl

/-- Registering an access attempts nothing. -/
theorem attempts_registered (v : View) (c : ConnId) (status : UInt8) (now : ℕ) :
    attempts (v.registered c status now).history = attempts v.history := by
  simp [View.registered, Obs.isAttempt]

/-- Getting ready to send the success reply attempts nothing. -/
theorem attempts_succeeding (w : View) (c : ConnId) :
    attempts (w.succeeding c).history = attempts w.history := attempts_reset _ c

/-- A walk over the resolved addresses dials as its history says. -/
theorem dials_dialed (v : View) (c : ConnId) (fd : ℕ) (outcomes : List ConnectOutcome)
    (relay : Option (FdHandler × FdInterest)) :
    dials (v.dialed c fd outcomes relay).history =
      dials v.history ++ dials (dialHistory c fd v.conn.addrInfo outcomes) :=
  dials_append _ _

/-- A walk that ends at an address leaves its socket. -/
theorem View.dials_of_dialed (v : View) (c : ConnId) {fd : ℕ} {outcomes : List ConnectOutcome}
    (relay : Option (FdHandler × FdInterest)) {peer : AddrInfo}
    (hpeer : (dial v.conn.addrInfo outcomes).peer = some peer) :
    (v.dialed c fd outcomes relay).Dials peer := by
  refine ⟨fd, ?_, lastDial_dialHistory hpeer v.history⟩
  simp only [View.dialed]
  cases hdial : dial v.conn.addrInfo outcomes with
  | noSocket =>
    rw [hdial] at hpeer
    cases hpeer
  | _ => rfl

/-- The retry of a pending connect connects at once. -/
def RetryConnects (s : Server) : Event → Prop
  | .writable fd env =>
    (s.selector.fds fd).handler = some .connectingHandler ∧ env.soError ≠ none ∧
      ∃ c ∈ (s.selector.fds fd).data, ∃ k ∈ s.conns c,
        ∃ peer, dial k.addrInfo env.connects = .connected peer
  | _ => False

/-- A callback takes the walk on: the same list, what it tried noted behind what was tried before,
and a connection that fits where the walk is then, with the socket of the address it is at. An
address that connected is lost only if the retry is given. -/
structure Goes (c : ConnId) (walk : Walk) (v : View) (retried : Prop) (r : Result) (next : Walk)
    (t : List Obs) : Prop where
  addrs : next.addrs = walk.addrs
  dials : next.dials c = walk.dials c ++ t
  noted : Socks5d.dials r.history = Socks5d.dials v.history ++ t
  sound : walk.Sound → ¬ retried → next.Sound
  linked : walk.Linked v → ∀ w, r = .alive w → next.Linked w
  leads : next.Leads r

/-- A callback that dials nothing. -/
theorem Goes.stay {retried : Prop} (h : attempts r.history = attempts v.history)
    (hleads : walk.Leads r) (hlinked : walk.Linked v → ∀ w, r = .alive w → walk.Linked w) :
    ∃ next t, Goes c walk v retried r next t :=
  ⟨walk, [], rfl, (List.append_nil _).symm, by rw [dials_congr h, List.append_nil],
    fun hsound _ => hsound, hlinked, hleads⟩

/-- A connection with neither a resolution nor a refusal outstanding waits for its connect. -/
theorem View.Ok.pending (h : w.Ok c) (hphase : w.phase = some .connecting) (htokens : w.tokens = 0)
    (herror : w.conn.isErrorResponse = false) : w.Pending := by
  have hphaseOk := h.phase
  simp only [View.PhaseOk, hphase] at hphaseOk
  rcases hphaseOk with hwaiting | hpending | hrefused
  · have hone := hwaiting.tokens
    omega
  · exact hpending
  · have hrefusing := hrefused.isErrorResponse
    rw [herror] at hrefusing
    cases hrefusing

/-- The success reply is sent in the relay phase, or the connection is released. -/
theorem Wrote.leads (h : Wrote c junk fds v out r) (hphase : v.phase = some .copy)
    (tried : List AddrInfo) (peer : AddrInfo) (left : List AddrInfo) :
    (Walk.relayed tried peer left).Leads r := by
  rcases h.relaying hphase with ⟨w, rfl, hw⟩ | rfl
  · exact ⟨trivial, hw.phase.trans hphase⟩
  · trivial

/-- The notification starts the walk. -/
theorem Blocks.goes (h : Blocks c junk env fds fd (v.notified c) r)
    (hphase : v.phase = some .connecting) (hwaiting : v.Waiting) (hok : r.Ok c) {retried : Prop} :
    ∃ next t, Goes c (.untried v.conn.addrInfo) v retried r next t := by
  have hnotified : dials (v.notified c).history = dials v.history := by
    simp [View.notified, Obs.isDial]
  have htries := tries_dial c fd v.conn.addrInfo env.connects
  cases h with
  | noAddress w hnone hqueued =>
    have hnil : v.conn.addrInfo = [] := hnone
    refine ⟨.exhausted [], [], hnil.symm, rfl, ?_, fun _ _ => trivial,
      fun _ _ _ => trivial, trivial, rfl, .inr rfl⟩
    simp [Result.history, Obs.isDial, dials_congr hqueued.attempts,
      dials_congr (attempts_registered _ _ _ _), hnotified]
  | pending peer rest hdial =>
    rw [show dial v.conn.addrInfo env.connects = .pending peer rest from hdial] at htries
    obtain ⟨tried, haddrs, ht⟩ := htries.of_pending
    have hdialed := dials_dialed (v.notified c) c fd env.connects
      (some (.connectingHandler, OP_WRITE))
    rw [hnotified] at hdialed
    refine ⟨.pending tried peer rest, (tried ++ [peer]).map (.attempt c), haddrs.symm, rfl,
      hdialed.trans (congrArg _ ht), fun _ _ => trivial, ?_, trivial, hphase,
      hok.pending hphase rfl hwaiting.isErrorResponse, ?_⟩
    · rintro - w ⟨⟩
      exact ((v.notified c).dials_of_dialed c (some (.connectingHandler, OP_WRITE))
        (by rw [hdial]; rfl)).of_same rfl rfl
    · simp [View.dialed, hdial, Dial.addrInfo]
  | established peer w x y hdial hqueued hwrote hcopy =>
    rw [show dial v.conn.addrInfo env.connects = .connected peer from hdial] at htries
    obtain ⟨tried, left, haddrs, ht⟩ := htries.of_connected
    refine ⟨.relayed tried peer left, (tried ++ [peer]).map (.attempt c) ++ [.established c],
      haddrs.symm, rfl, ?_, fun _ _ => trivial, ?_, trivial, hcopy.copy⟩
    all_goals
      have hsame : attempts y.history =
          attempts ((v.notified c).dialed c fd env.connects none).history :=
        calc attempts y.history = attempts w.history :=
              hcopy.attempts.trans (hwrote.attempts.trans (attempts_succeeding w c))
          _ = _ := hqueued.attempts.trans (attempts_registered _ c _ _)
    · have hdialed := dials_dialed (v.notified c) c fd env.connects none
      rw [hnotified] at hdialed
      exact (dials_congr hsame).trans (hdialed.trans (congrArg _ ht))
    · rintro - u ⟨⟩
      refine ((v.notified c).dials_of_dialed c none (by rw [hdial]; rfl)).of_same ?_ hsame
      have hw : w.conn.originFd = ((v.notified c).dialed c fd env.connects none).conn.originFd := by
        rw [hqueued.fields.1]
        rfl
      exact hcopy.originFd.trans (hwrote.originFd.trans hw)

/-- The end of a pending connect ends the walk, or takes it to an address that was not tried. -/
theorem Connects.goes (h : Connects c junk env fds fd v r) {tried left : List AddrInfo}
    {peer : AddrInfo} (hfits : (Walk.pending tried peer left).Fits v) (hset : v.conn.originFd ≠ -1)
    (hdial : env.soError ≠ none → left ≠ [] → dial left env.connects ≠ .noSocket) (hok : r.Ok c)
    {retried : Prop}
    (hretried : ∀ next, env.soError ≠ none → dial left env.connects = .connected next → retried) :
    ∃ next t, Goes c (.pending tried peer left) v retried r next t := by
  obtain ⟨hphase, hpending, rfl⟩ := hfits
  have htries := tries_dial c fd v.conn.addrInfo env.connects
  have hdialed := dials_dialed v c fd env.connects
  cases h with
  | retried err relay _ herr hsome hend _ =>
    rcases hend with hend | ⟨next, rest, hend⟩
    · exact absurd hend (hdial (by simp [herr]) hsome)
    · rw [hend] at htries
      obtain ⟨more, haddrs, ht⟩ := htries.of_pending
      refine ⟨.pending (tried ++ peer :: more) next rest, (more ++ [next]).map (.attempt c), ?_, ?_,
        (hdialed relay).trans (congrArg _ ht), fun _ _ => trivial, ?_, trivial, hphase,
        hok.pending hphase hpending.tokens hpending.isErrorResponse, ?_⟩
      · simp [Walk.addrs, haddrs]
      · simp [Walk.dials]
      · rintro - w ⟨⟩
        exact v.dials_of_dialed c relay (by rw [hend]; rfl)
      · simp [View.dialed, hend, Dial.addrInfo]
  | refused v₁ w err err' _ herr hfrom hqueued =>
    have hwphase : w.phase = v₁.phase := hqueued.fields.2.2.1
    have hw : dials w.history = dials v₁.history :=
      dials_congr (hqueued.attempts.trans (attempts_registered v₁ c _ _))
    rcases hfrom with ⟨hnone, rfl⟩ | ⟨hsome, hend, relay, rfl⟩
    · refine ⟨.exhausted (tried ++ [peer]), [], by simp [Walk.addrs, hnone], ?_, ?_,
        fun _ _ => trivial, fun _ _ _ => trivial, trivial, rfl, .inl (hwphase.trans hphase)⟩
      · simp [Walk.dials]
      · exact hw.trans (List.append_nil _).symm
    · rcases hend with hend | ⟨next, hend⟩
      · rw [hend] at htries
        refine ⟨.exhausted (tried ++ peer :: v.conn.addrInfo), v.conn.addrInfo.map (.attempt c),
          rfl, by simp [Walk.dials], ?_, fun _ _ => trivial,
          fun _ _ _ => trivial, trivial, rfl, .inl (hwphase.trans hphase)⟩
        exact hw.trans ((hdialed relay).trans (congrArg _ htries.of_refused))
      · have hlost : retried := hretried next (by simp [herr]) hend
        rw [hend] at htries
        obtain ⟨more, rest, haddrs, ht⟩ := htries.of_connected
        refine ⟨.wasted (tried ++ peer :: more) next rest,
          (more ++ [next]).map (.attempt c) ++ [.established c], ?_, by simp [Walk.dials], ?_,
          fun _ hnot => absurd hlost hnot, fun _ _ _ => trivial, trivial, rfl, .inl (hwphase.trans hphase)⟩
        · simp [Walk.addrs, haddrs]
        · exact hw.trans ((hdialed relay).trans (congrArg _ ht))
  | established table w r relay _ _ _ hqueued hwrote =>
    have hwphase : w.phase = some .copy := hqueued.fields.2.2.1
    have hsame : attempts r.history = attempts (v.standing c relay).history :=
      calc attempts r.history = attempts w.history :=
            hwrote.attempts.trans (attempts_succeeding w c)
        _ = _ := hqueued.attempts.trans (attempts_registered _ c _ _)
    refine ⟨.relayed tried peer v.conn.addrInfo, [.established c], rfl, rfl, ?_, fun _ _ => trivial,
      ?_, hwrote.leads hwphase tried peer v.conn.addrInfo⟩
    · exact (dials_congr hsame).trans (by simp [View.standing, hset, Obs.isDial])
    · rintro ⟨n, hn, hlast⟩ u rfl
      refine ⟨n, hwrote.originFd.trans ?_, (lastDial_congr hsame).trans ?_⟩
      · change w.conn.originFd = _
        rw [hqueued.fields.1]
        exact hn
      · rw [← hlast, lastDial, View.standing, if_neg hset, List.foldl_append]
        rfl

/-- A connection that is being refused stays so until it is released. -/
theorem Move.refusing (h : Move s c v e (.alive w)) (herror : v.conn.isErrorResponse = true)
    (hphase : v.phase = some .connecting ∨ v.phase = some .connectionReq)
    (hfresh : ¬ StaleConnect s c v e) : w.conn.isErrorResponse = true ∧
      (w.phase = some .connecting ∨ w.phase = some .connectionReq) := by
  have hnot : ∀ {p : Prop}, v.conn.isErrorResponse = false → p := by
    intro p hfalse
    rw [herror] at hfalse
    cases hfalse
  have hearly : v.phase ≠ none ∧ v.phase ≠ some .handshake ∧ v.phase ≠ some .auth := by
    rcases hphase with hphase | hphase
    · simp [hphase]
    · simp [hphase]
  obtain ⟨hnone, hhandshake, hauth⟩ := hearly
  cases h with
  | quiet _ hsame herror' =>
    have hsame' : w.phase = v.phase := hsame.resolve_right fun hbegun => hnone hbegun.1
    exact ⟨(herror' hphase.symm).trans herror, hphase.imp hsame'.trans hsame'.trans⟩
  | chosen _ _ hchosen => exact absurd hchosen (not_or.mpr ⟨hnone, hhandshake⟩)
  | judged _ _ hjudged => exact absurd hjudged hauth
  | authorized _ hauthorized => exact absurd hauthorized hauth
  | passed _ hpassed => exact absurd hpassed hauth
  | unsupported _ _ _ hfalse => exact hnot hfalse
  | requested _ _ hfalse => exact hnot hfalse
  | noAddress _ _ _ hfalse => exact hnot hfalse
  | relays _ _ _ _ hfalse => exact hnot hfalse
  | refused _ _ _ _ hfalse => exact hnot hfalse
  | skipped _ _ hfalse => exact hnot hfalse
  | stale _ _ _ hstale => exact absurd hstale hfresh

/-- A connection that is being refused only sends. -/
theorem Reaction.attempts_refusing (h : Reaction s c v e r) (hok : v.Ok c)
    (herror : v.conn.isErrorResponse = true)
    (hphase : v.phase = some .connecting ∨ v.phase = some .connectionReq)
    (hfresh : ¬ StaleConnect s c v e) : attempts r.history = attempts v.history := by
  have hwaits : ¬ v.Waiting := by
    intro hwaiting
    rw [hwaiting.isErrorResponse] at herror
    cases herror
  have hphaseOk := hok.phase
  cases h with
  | greets _ _ _ _ _ hother => rcases hphase with hphase | hphase <;> simp [hphase] at hother
  | authenticates _ _ _ _ _ hother => rcases hphase with hphase | hphase <;> simp [hphase] at hother
  | requests _ _ _ _ hready hrequest =>
    simp only [View.PhaseOk, hrequest] at hphaseOk
    have hfalse := hphaseOk.not_refused hready
    rw [herror] at hfalse
    cases hfalse
  | relays _ _ _ _ _ hother => rcases hphase with hphase | hphase <;> simp [hphase] at hother
  | sends _ _ _ _ _ _ hwrote => exact hwrote.attempts
  | blocks _ _ _ hwaiting => exact absurd hwaiting hwaits
  | resolves _ _ hwaiting => exact absurd hwaiting hwaits
  | connects fd env r i hitem _ hconnecting =>
    rcases hconnecting with hconnecting | ⟨hcopy, -⟩
    · simp only [View.PhaseOk, hconnecting] at hphaseOk
      rcases hphaseOk with hwaiting | hpending | hrefused
      · exact absurd hwaiting hwaits
      · have hfalse := hpending.isErrorResponse
        rw [herror] at hfalse
        cases hfalse
      · exact absurd ⟨fd, env, i, rfl, hitem, .inl hrefused.originFd⟩ hfresh
    · exact absurd ⟨fd, env, i, rfl, hitem, .inr hcopy⟩ hfresh
  | receives _ _ _ _ _ _ _ hother => rcases hphase with hphase | hphase <;> simp [hphase] at hother
  | delivers _ _ _ _ _ _ _ hother => rcases hphase with hphase | hphase <;> simp [hphase] at hother

/-- A connection that relays attempts nothing and keeps its `origin_fd`. -/
theorem Reaction.attempts_relaying (h : Reaction s c v e r) (hphase : v.phase = some .copy)
    (hfresh : ¬ StaleConnect s c v e) : attempts r.history = attempts v.history ∧
      ∀ w, r = .alive w → w.conn.originFd = v.conn.originFd := by
  cases h with
  | greets _ _ _ _ _ hother => simp [hphase] at hother
  | authenticates _ _ _ _ _ hother => simp [hphase] at hother
  | requests _ _ _ _ _ hother => simp [hphase] at hother
  | relays _ _ _ _ _ _ hread =>
    refine ⟨hread.attempts fun w hcopy => hcopy.attempts, ?_⟩
    rintro w rfl
    exact hread.originFd
  | sends _ _ _ _ _ _ hwrote =>
    refine ⟨hwrote.attempts, ?_⟩
    rintro w rfl
    exact hwrote.originFd
  | blocks _ _ hother => simp [hphase] at hother
  | resolves _ hother => simp [hphase] at hother
  | connects fd env r i hitem => exact absurd ⟨fd, env, i, rfl, hitem, .inr hphase⟩ hfresh
  | receives _ _ _ _ _ _ _ _ hreceived =>
    refine ⟨hreceived.attempts, ?_⟩
    rintro w rfl
    exact hreceived.originFd
  | delivers _ _ _ _ _ _ _ _ hwrote =>
    refine ⟨hwrote.attempts, ?_⟩
    rintro w rfl
    exact hwrote.originFd

/-- Every reaction of a connection takes its walk on. -/
theorem Reaction.goes (h : Reaction s c v e r) (hinv : Inv s) (hview : s.view c = some v)
    (hfresh : ¬ StaleConnect s c v e) (hreuses : RetryReuses s e) (hfits : walk.Fits v)
    (hresolved : ∀ addrs env, walk = .untried addrs → e ≠ .resolved c env) :
    ∃ next t, Goes c walk v (RetryConnects s e) r next t := by
  obtain ⟨hok', hmove⟩ := h.progress hinv hview
  have hok := hinv.ok c v hview
  cases walk with
  | untried addrs =>
    obtain ⟨hphase, hwaiting, rfl⟩ := hfits
    cases h with
    | greets _ _ _ _ _ hother => simp [hphase] at hother
    | authenticates _ _ _ _ _ hother => simp [hphase] at hother
    | requests _ _ _ _ _ hother => simp [hphase] at hother
    | relays _ _ _ _ _ hother => simp [hphase] at hother
    | sends _ _ _ _ _ hready =>
      rw [hwaiting.interest] at hready
      cases hready
    | blocks env r _ _ hblocks => exact hblocks.goes hphase hwaiting hok'
    | resolves env _ _ => exact absurd rfl (hresolved v.conn.addrInfo env rfl)
    | connects _ _ _ _ _ hset => exact absurd hwaiting.originFd hset
    | receives _ _ _ _ _ _ _ hother => simp [hphase] at hother
    | delivers _ _ _ _ _ _ _ hother => simp [hphase] at hother
  | pending tried peer left =>
    obtain ⟨hphase, hpending, hleft⟩ := id hfits
    cases h with
    | greets _ _ _ _ _ hother => simp [hphase] at hother
    | authenticates _ _ _ _ _ hother => simp [hphase] at hother
    | requests _ _ _ _ _ hother => simp [hphase] at hother
    | relays _ _ _ _ _ hother => simp [hphase] at hother
    | sends _ _ _ _ _ hready =>
      rw [hpending.interest] at hready
      cases hready
    | blocks _ _ _ hwaiting => exact absurd hwaiting.originFd hpending.originFd
    | resolves _ _ hwaiting => exact absurd hwaiting.originFd hpending.originFd
    | connects fd env r i hitem _ _ hconnects =>
      have hset : v.conn.originFd ≠ -1 := fun hgiven =>
        hfresh ⟨fd, env, i, rfl, hitem, .inl hgiven⟩
      obtain ⟨-, hhandler, -, hdata, -⟩ := relayOf_eq_some_iff.mp hitem
      obtain ⟨hconn, -⟩ := view_eq_some_iff.mp hview
      refine hconnects.goes hfits hset (fun herr hsome => ?_) hok' fun next herr hnext =>
        ⟨hhandler, herr, c, hdata, v.conn, hconn, next, hleft ▸ hnext⟩
      rw [← hleft] at hsome ⊢
      exact (hreuses hhandler herr c hdata v.conn hconn hsome hset).1
    | receives _ _ _ _ _ _ _ hother => simp [hphase] at hother
    | delivers _ _ _ _ _ _ _ hother => simp [hphase] at hother
  | relayed tried peer left =>
    have hphase : v.phase = some .copy := hfits
    obtain ⟨hsame, horigin⟩ := h.attempts_relaying hphase hfresh
    refine Goes.stay hsame ?_ fun hlinked w hw => ?_
    · cases r with
      | alive w => exact ⟨trivial, hmove.copy_of_copy hphase⟩
      | gone history => trivial
    · refine View.Dials.of_same hlinked (horigin w hw) ?_
      subst hw
      exact hsame
  | wasted tried peer left =>
    refine Goes.stay (h.attempts_refusing hok hfits.1 hfits.2 hfresh) ?_ fun _ _ _ => trivial
    cases r with
    | alive w => exact ⟨trivial, hmove.refusing hfits.1 hfits.2 hfresh⟩
    | gone history => trivial
  | exhausted addrs =>
    refine Goes.stay (h.attempts_refusing hok hfits.1 hfits.2 hfresh) ?_ fun _ _ _ => trivial
    cases r with
    | alive w => exact ⟨trivial, hmove.refusing hfits.1 hfits.2 hfresh⟩
    | gone history => trivial

end Callbacks

section Runs

variable {s s' : Server} {c : ConnId} {v : View} {e : Event} {events : List Event}
  {addrs : List AddrInfo} {before : List Obs} {walk : Walk} {strict : Prop}

/-- A notification stays queued until it is delivered. -/
theorem Inv.job_stays (hinv : Inv s) (he : enabled s e = true) (hstep : Socks5d.step s e = .ok s')
    (hview : s.view c = some v) (htarget : e.target s ≠ some c)
    (hjob : v.conn.clientFd.toNat ∈ s.selector.resolutionJobs) :
    v.conn.clientFd.toNat ∈ s'.selector.resolutionJobs := by
  cases hinv.effect he hstep with
  | background hb _ => rwa [hb.jobs]
  | reaction d w r s₀ _ hd _ _ hlands hjobs =>
    obtain ⟨t, ht, -⟩ := hlands.frame.jobs
    rw [ht, hjobs]
    refine List.mem_append_right t ?_
    cases e with
    | notify env =>
      cases hqueue : s.selector.resolutionJobs with
      | nil =>
        rw [hqueue] at hjob
        cases hjob
      | cons fd jobs =>
        rw [hqueue] at hjob
        simp only [Event.jobs, hqueue, List.tail_cons]
        refine (List.mem_cons.mp hjob).resolve_left fun hfd => htarget ?_
        obtain ⟨hconn, -⟩ := view_eq_some_iff.mp hview
        obtain ⟨⟨n, hn, howner⟩, -⟩ := hinv.owned.conn c v.conn hconn
        obtain rfl : n = fd := by omega
        obtain ⟨i, hitem⟩ := hinv.clientItem howner
        simp [Event.target, hqueue, hitem]
    | readable _ _ | writable _ _ | resolved _ _ => exact hjob
    | adminInterest _ _ | adminClose _ | configure _ _ _ => exact hjob

/-- Where the walk of a connection is: as long as it is there it fits and has the socket of the
address the walk is at, and its notification is queued until the walk begins. -/
structure Walk.At (c : ConnId) (s : Server) (walk : Walk) : Prop where
  fits : ∀ v, s.view c = some v → walk.Fits v
  linked : ∀ v, s.view c = some v → walk.Linked v
  queued : ¬ walk.Begun → ∀ v, s.view c = some v →
    v.conn.clientFd.toNat ∈ s.selector.resolutionJobs
  decided : s.view c = none → walk.Over

/-- The walk over these addresses since this history. A strict one loses no address. -/
structure Falls (strict : Prop) (c : ConnId) (addrs : List AddrInfo) (before : List Obs)
    (s : Server) : Prop where
  reach : ReachableUnder RetryReuses s
  known : s.history c ≠ []
  walk : ∃ (walk : Walk) (t : List Obs), walk.addrs = addrs ∧ s.history c = before ++ t ∧
    dials t = walk.dials c ∧ (strict → walk.Sound) ∧ walk.At c s

/-- A queued notification is of a connection that no resolver thread works for. -/
theorem Inv.not_resolving (hinv : Inv s) (hview : s.view c = some v)
    (hjob : v.conn.clientFd.toNat ∈ s.selector.resolutionJobs) : c ∉ s.resolving := by
  intro hmem
  obtain ⟨-, -, -, -, htokens, -⟩ := view_eq_some_iff.mp hview
  have hqueued := List.count_pos_iff.mpr hjob
  have hthread := List.count_pos_iff.mpr hmem
  have htwo : 2 ≤ v.tokens := by
    rw [← htokens, Server.tokens]
    omega
  obtain ⟨-, hwaiting⟩ := (hinv.ok c v hview).waiting_of_tokens (by omega)
  have hone := hwaiting.tokens
  omega

/-- One event takes the walk on. -/
theorem Falls.step (h : Falls strict c addrs before s) (he : enabled s e = true)
    (hg : RetryReuses s e) (hstrict : strict → ¬ RetryConnects s e)
    (hstep : Socks5d.step s e = .ok s') : Falls strict c addrs before s' := by
  have hinv := h.reach.reachable.inv
  have heffect := hinv.effect he hstep
  refine ⟨h.reach.snoc he hg hstep, heffect.history_ne_nil hinv h.known, ?_⟩
  obtain ⟨walk, t, haddrs, hhistory, hdials, hsound, hat⟩ := h.walk
  have hkept : e.target s ≠ some c → s'.view c = s.view c → s'.history c = s.history c →
      ∃ (walk : Walk) (t : List Obs), walk.addrs = addrs ∧ s'.history c = before ++ t ∧
        dials t = walk.dials c ∧ (strict → walk.Sound) ∧ walk.At c s' := by
    intro htarget hview hsame
    refine ⟨walk, t, haddrs, hsame.trans hhistory, hdials, hsound, ?_⟩
    refine ⟨fun v hv => hat.fits v (hview ▸ hv), fun v hv => hat.linked v (hview ▸ hv),
      fun hnot v hv => ?_, fun hn => hat.decided (hview ▸ hn)⟩
    rw [hview] at hv
    exact hinv.job_stays he hstep hv htarget (hat.queued hnot v hv)
  cases heffect with
  | background hb htarget =>
    rcases hb.fates c with ⟨hview, hsame⟩ | ⟨rfl, -⟩
    · exact hkept (by simp [htarget]) hview hsame
    · exact absurd (hinv.known_of_history h.known) (Nat.lt_irrefl _)
  | reaction d v r s₁ hview htarget hreaction hentered hlands hjobs =>
    by_cases hd : c = d
    · subst hd
      have hresolved : ∀ addrs env, walk = .untried addrs → e ≠ .resolved c env := by
        rintro addrs env rfl rfl
        exact hinv.not_resolving hview (hat.queued id v hview) (by simpa [enabled] using he)
      obtain ⟨next, more, hlist, hnext, hnoted, hkeeps, hlinked, hleads⟩ := hreaction.goes hinv hview
        (h.reach.fresh hview) hg (hat.fits v hview) hresolved
      obtain ⟨-, -, -, -, -, hold⟩ := view_eq_some_iff.mp hview
      obtain ⟨u, hu⟩ : ∃ u, s'.history c = s.history c ++ u := by
        obtain ⟨u, hu, -⟩ := hlands.frame.trace
        exact ⟨u.filter fun o => o.conn == c, by
          rw [Server.history, hu, hentered.trace, List.filter_append]; rfl⟩
      have hmore : dials u = more := by
        rw [← hlands.history_eq, hu, hold, dials_append] at hnoted
        exact List.append_cancel_left hnoted
      refine ⟨next, t ++ u, hlist.trans haddrs, by rw [hu, hhistory, List.append_assoc],
        by rw [dials_append, hdials, hmore, hnext], fun hs => hkeeps (hsound hs) (hstrict hs), ?_⟩
      cases r with
      | alive w =>
        obtain ⟨hbegun, hfits⟩ := hleads
        have hw : s'.view c = some w := Tracks.view hlands
        refine ⟨fun x hx => ?_, fun x hx => ?_, fun hnot => absurd hbegun hnot, fun hnone => ?_⟩
        · exact Option.some.inj (hw.symm.trans hx) ▸ hfits
        · exact Option.some.inj (hw.symm.trans hx) ▸ hlinked (hat.linked v hview) w rfl
        · rw [hnone] at hw
          cases hw
      | gone history =>
        have hnone : s'.view c = none := by
          have hconns : s'.conns c = none := Released.conns hlands
          simp [Server.view, hconns]
        refine ⟨fun x hx => ?_, fun x hx => ?_, fun _ x hx => ?_, fun _ => hleads⟩
        all_goals
          rw [hnone] at hx
          cases hx
    · exact hkept (by rw [htarget]; simpa using Ne.symm hd) (hlands.others hentered hd)
        ((hlands.frame.history hd).trans (congrArg (List.filter _) hentered.trace))

/-- A connection whose notification is queued is at the start of its walk. -/
theorem ReachableUnder.falls (h : ReachableUnder RetryReuses s) (hview : s.view c = some v)
    (hjob : v.conn.clientFd.toNat ∈ s.selector.resolutionJobs) :
    Falls strict c v.conn.addrInfo (s.history c) s := by
  obtain ⟨-, -, -, -, htokens, hhistory⟩ := view_eq_some_iff.mp hview
  have hqueued := List.count_pos_iff.mpr hjob
  have hpos : 0 < v.tokens := by
    rw [← htokens, Server.tokens]
    omega
  obtain ⟨hphase, hwaiting⟩ := (h.reachable.inv.ok c v hview).waiting_of_tokens hpos
  refine ⟨h, fun hnil => ?_, .untried v.conn.addrInfo, [], rfl, (List.append_nil _).symm, rfl,
    fun _ => trivial, fun w hw => ?_, fun _ _ => trivial, fun _ w hw => ?_, fun hnone => ?_⟩
  · -- a dialogue that reached the connecting phase has a history
    rcases h.dialogues (p := .hurried) (fun _ _ hg => hg) (.inl rfl) c with ⟨w, stage, hw, hdialogue, hfits⟩ | ⟨hnone, -⟩
    · obtain rfl := Option.some.inj (hw.symm.trans hview)
      obtain rfl := hfits.of_connecting hphase hwaiting.isErrorResponse
      rw [Dialogue, ← hhistory, hnil] at hdialogue
      cases hdialogue
    · rw [hnone] at hview
      cases hview
  · exact Option.some.inj (hview.symm.trans hw) ▸ ⟨hphase, hwaiting, rfl⟩
  · exact Option.some.inj (hview.symm.trans hw) ▸ hjob
  · rw [hnone] at hview
    cases hview

end Runs

end Socks5d
