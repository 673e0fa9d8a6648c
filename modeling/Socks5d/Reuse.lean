import Socks5d.Invariant

/-!
# Descriptors of a retry

A retry closes the socket of the failed attempt and opens another, while the registration stays
where it was. As long as every descriptor below the closed one is open, the new socket gets its
number, and whatever is registered is open and registered for the connection it was opened for.
-/

namespace Socks5d

open GuardedRun

/-- A retry opens a socket, and no descriptor below the one it closes is free. -/
def RetryReuses (s : Server) : Event → Prop
  | .writable fd env =>
    (s.selector.fds fd).handler = some .connectingHandler → env.soError ≠ none →
      ∀ c ∈ (s.selector.fds fd).data, ∀ k ∈ s.conns c, k.addrInfo ≠ [] → k.originFd ≠ -1 →
        dial k.addrInfo env.connects ≠ .noSocket ∧
          ∀ n < k.originFd.toNat, s.kernel.isOpen n = true
  | _ => True

instance (s : Server) : (e : Event) → Decidable (RetryReuses s e)
  | .writable _ _ => inferInstanceAs (Decidable (_ → _ → _))
  | .readable _ _ | .notify _ | .resolved _ _ | .adminInterest _ _ | .adminClose _
  | .configure _ _ _ => isTrue trivial

/-- Everything registered is open, what is registered for a connection was opened for it, and a
pending connect is registered at its connection's `origin_fd`. -/
structure Live (s : Server) : Prop where
  isOpen : ∀ fd, (s.selector.fds fd).used = true → s.kernel.isOpen fd = true
  owner : ∀ fd c o, (s.selector.fds fd).used = true → (s.selector.fds fd).data = some c →
    s.kernel.owner fd = some o → o.conn = some c
  pending : ∀ fd c, (s.selector.fds fd).used = true → (s.selector.fds fd).data = some c →
    (s.selector.fds fd).handler = some .connectingHandler →
    ∃ k, s.conns c = some k ∧ k.originFd = fd

variable {s s' : Server} {c : ConnId} {e : Event}

/-- The origin a connection registers is its own. -/
theorem Inv.origin_of_relayOf (hinv : Inv s) {k : Socks5Conn} (hk : s.conns c = some k) {fd : ℕ}
    {r : FdHandler × FdInterest} (hrelay : (s.selector.fds fd).relayOf c = some r)
    (hne : k.originFd ≠ -1) :
    ∃ n : ℕ, k.originFd = n ∧ ∃ p, s.kernel.owner n = some (.origin c p) := by
  have hzero := hinv.owned.origin_ne_zero_of_relayOf hk hrelay
  obtain ⟨-, horigin, -⟩ := hinv.owned.conn c k hk
  rcases horigin with hunset | hgiven | ⟨n, hn, -, howner | ⟨hhole, -⟩⟩
  · exact absurd hunset hzero
  · exact absurd hgiven hne
  · exact ⟨n, hn, howner⟩
  · cases hhole

/-- The descriptor that is closed is the lowest one then. -/
theorem RetryReuses.keeps (h : RetryReuses s e) (hinv : Inv s) : RetryKeeps s e := by
  cases e with
  | writable fd env =>
    intro c k i hrelay hk hne herror haddrs
    obtain ⟨-, hhandler, -, hdata, -⟩ := relayOf_eq_some_iff.mp hrelay
    obtain ⟨hdial, hbelow⟩ := h hhandler herror c hdata k hk haddrs hne
    obtain ⟨n, hn, -⟩ := hinv.origin_of_relayOf hk hrelay hne
    rw [hn, Int.toNat_natCast] at hbelow
    have hclosed : (s.kernel.close n).owner n = none := by simp [Kernel.owner_close]
    have hopen : ∀ m, m < n → (s.kernel.close n).isOpen m = true := by
      intro m hm
      have hmn : (m : ℤ) ≠ n := by omega
      rw [Kernel.isOpen, Kernel.owner_close, if_neg hmn]
      exact hbelow m hm
    rw [hn, Kernel.lowest_eq _ hclosed hopen]
    cases hend : dial k.addrInfo env.connects with
    | noSocket => exact absurd hend hdial
    | _ => rfl
  | _ => trivial

/-- A server without leftover registrations registers the descriptors its connections own. -/
theorem Live.of_tidy (hinv : Inv s) (htidy : ∀ c, Tidy c s) : Live s := by
  have horigin : ∀ fd c r, (s.selector.fds fd).relayOf c = some r →
      (∃ p, s.kernel.owner fd = some (.origin c p)) ∧ ∃ k, s.conns c = some k ∧ k.originFd = fd := by
    intro fd c r hrelay
    obtain ⟨k, hk, hfd⟩ := htidy c fd r hrelay
    obtain ⟨n, hn, howner⟩ := hinv.origin_of_relayOf hk hrelay (by omega)
    obtain rfl : n = fd := by omega
    exact ⟨howner, k, hk, hfd⟩
  have howner : ∀ fd, (s.selector.fds fd).used = true →
      ∃ o, s.kernel.owner fd = some o ∧ ∀ c, (s.selector.fds fd).data = some c → o.conn = some c := by
    intro fd hused
    obtain ⟨-, hreg⟩ := hinv.owned.registered fd hused
    have hrelay := horigin fd
    generalize s.selector.fds fd = item at hreg hrelay
    cases hreg with
    | listener h i hown _ => exact ⟨_, hown, fun c hc => by cases hc⟩
    | client c i hown => exact ⟨_, hown, fun d hd => hd⟩
    | relay c h i hh _ _ _ =>
      have hitem : (⟨fd, i, some h, some c⟩ : Item).relayOf c = some (h, i) :=
        relayOf_eq_some_iff.mpr ⟨by simp [Item.used, FD_UNUSED], rfl, hh, rfl, rfl⟩
      obtain ⟨⟨p, hown⟩, -⟩ := hrelay c (h, i) hitem
      exact ⟨_, hown, fun d hd => hd⟩
    | admin i hown => exact ⟨_, hown, fun c hc => by cases hc⟩
  refine ⟨fun fd hused => ?_, fun fd c o hused hdata ho => ?_, fun fd c hused hdata hhandler => ?_⟩
  · obtain ⟨o, ho, -⟩ := howner fd hused
    rw [Kernel.isOpen, ho]
    rfl
  · obtain ⟨o', ho', hconn⟩ := howner fd hused
    obtain rfl := Option.some.inj (ho'.symm.trans ho)
    exact hconn c hdata
  · exact (horigin fd c (.connectingHandler, _)
      (relayOf_eq_some_iff.mpr ⟨hused, hhandler, rfl, hdata, rfl⟩)).2

/-- Runs whose retries get the descriptor they closed keep the registration of every retry. -/
theorem ReachableUnder.keeps (h : ReachableUnder RetryReuses s) : ReachableUnder RetryKeeps s := by
  refine h.invariant (I := ReachableUnder RetryKeeps) ?_ ?_
  · exact fun args s₀ hs₀ => ⟨args, s₀, [], hs₀, .nil⟩
  · intro s e s' hreach hI he hg hstep
    exact hI.snoc he (hg.keeps hreach.reachable.inv) hstep

/-- What is registered is live after such runs. -/
theorem ReachableUnder.live (h : ReachableUnder RetryReuses s) : Live s :=
  .of_tidy h.reachable.inv h.keeps.tidy

/-- As long as every retry gets the descriptor it closed, every registered descriptor is live. -/
theorem registered_live (h : ReachableUnder RetryReuses s) : Live s := h.live

/-- A retry that gets descriptor 3 again. -/
theorem registered_live_retry : ∃ s : Server, (s.selector.fds 3).handler = some .connectingHandler ∧
    Live s := by
  obtain ⟨s, hs, hcheck⟩ := reachableUnder_of_after RetryReuses
    [arrives, greets 2, asks 2 [loopback, loopback], .notify { connects := [.failed .einprogress] },
      .writable 3 { soError := some .econnrefused, connects := [.failed .einprogress] }]
    (fun s => (s.selector.fds 3).handler == some .connectingHandler) (by decide +kernel)
  exact ⟨s, beq_iff_eq.mp hcheck, registered_live hs⟩

/-- The first client leaves while a connect of the second is pending at descriptor 4; the retry
gets descriptor 2, and descriptor 4 stays registered though it is closed. -/
theorem not_registered_live : ¬ ∀ s, Reachable s → Live s := by
  intro hall
  obtain ⟨s, hs, hcheck⟩ := reachable_of_after
    [arrives, arrives, greets 3, asks 3 [loopback, loopback],
      .notify { connects := [.failed .einprogress] }, .readable 2 { recv := .eof },
      .writable 4 { soError := some .econnrefused, connects := [.failed .einprogress] }]
    (fun s => (s.selector.fds 4).used && !s.kernel.isOpen 4) (by decide +kernel)
  simp only [Bool.and_eq_true, Bool.not_eq_true'] at hcheck
  obtain ⟨hused, hclosed⟩ := hcheck
  exact absurd ((hall s hs).isOpen 4 hused) (by simp [hclosed])

end Socks5d
