import Socks5d.Integrity
import Socks5d.Stability

/-!
# The count of bytes

`bytes_transferred` is counted where bytes leave for a client, from whichever callback the send
is reached. Bytes that leave for an origin are counted nowhere. So the counter is the traffic of
both directions as long as nothing was accepted for an origin, and otherwise only that towards the
clients.
-/

namespace Socks5d

open GuardedRun Fallible

/-- The number of bytes that `send` accepted towards one side, on all connections. -/
def accepted (side : Side) (s : Server) : ℕ := (sentTo side s.trace).length

/-- The counter is the number of all bytes accepted. -/
def CountsAll (s : Server) : Prop :=
  s.metrics.bytesTransferred.toNat = (accepted .client s + accepted .origin s) % 2 ^ 64

/-- The counter is the number of the bytes accepted for clients. -/
def CountsClients (s : Server) : Prop :=
  s.metrics.bytesTransferred.toNat = accepted .client s % 2 ^ 64

/-- Nothing was accepted for an origin. -/
def SpareOrigins (s : Server) : Prop := accepted .origin s = 0

/-- The counter and the traffic are the same. -/
structure SameTraffic (s s' : Server) : Prop where
  bytes : s'.metrics.bytesTransferred = s.metrics.bytesTransferred
  accepted : ∀ side, accepted side s' = accepted side s

/-- A property of the counter and the traffic alone. -/
def OfTraffic (P : Server → Prop) : Prop := ∀ {s s'}, P s → SameTraffic s s' → P s'

variable {P : Server → Prop} {s s' : Server}

/-- An observation adds what `send` accepted with it. -/
theorem accepted_note (side : Side) (s : Server) (o : Obs) :
    accepted side (s.note o) = accepted side s + (sentTo side [o]).length := by
  simp [accepted, Server.note]

/-- The same log shows the same traffic. -/
theorem SameLog.traffic (h : SameLog s s') : SameTraffic s s' where
  bytes := h.bytes
  accepted side := by rw [accepted, accepted, h.trace]

/-- A property of the traffic is one of the log. -/
theorem OfTraffic.log (hP : OfTraffic P) : OfLog P := fun h hsame => hP h hsame.traffic

/-- Only what `send` accepted is traffic. -/
theorem sameTraffic_note {o : Obs} (ho : o.isSend = false) : SameTraffic s (s.note o) where
  bytes := rfl
  accepted side := by
    rw [accepted_note]
    cases o with
    | send => cases ho
    | _ => rfl

/-- A plain observation is no `send`. -/
theorem Obs.isSend_of_isPlain {o : Obs} (h : o.isPlain = true) : o.isSend = false := by
  cases o with
  | send => cases h
  | _ => rfl

/-- A connection that goes takes no bytes along. -/
theorem ServerMetrics.bytes_decCurrConn (m : ServerMetrics) :
    m.decCurrConn.bytesTransferred = m.bytesTransferred := by
  unfold decCurrConn
  split <;> rfl

/-- The primitives keep a property of the traffic, if it survives a counted send to a client. -/
theorem OfTraffic.stable (hP : OfTraffic P)
    (hanswered : ∀ {s} (c : ConnId) (bytes : List UInt8), P s →
      P ({ s with metrics := s.metrics.addBytes (UInt64.ofNat bytes.length) }.note
        (.send c .client bytes))) : Stable P where
  books h hbooks := hP.log h ⟨hbooks.trace, by rw [hbooks.metrics]⟩
  setConn _ h _ := hP h ⟨rfl, fun _ => rfl⟩
  free {s c _} h _ := by
    have hfreed : P { s with
        metrics := s.metrics.decCurrConn
        conns := Function.update s.conns c none } :=
      hP h ⟨s.metrics.bytes_decCurrConn, fun _ => rfl⟩
    exact hP hfreed (sameTraffic_note rfl)
  note o h ho := hP h (sameTraffic_note (Obs.isSend_of_isPlain ho))
  queued _ _ _ _ _ h := hP h (sameTraffic_note rfl)
  incErrors h := hP h ⟨rfl, fun _ => rfl⟩
  answered := hanswered

/-- That clients are counted is a property of the traffic. -/
theorem ofTraffic_countsClients : OfTraffic CountsClients := by
  intro s s' h hsame
  rw [CountsClients, hsame.bytes, hsame.accepted]
  exact h

/-- So is that origins are sent nothing. -/
theorem ofTraffic_spareOrigins : OfTraffic SpareOrigins := by
  intro s s' h hsame
  rw [SpareOrigins, hsame.accepted]
  exact h

/-- `metrics_add_bytes` is called with exactly what `send` accepted for the client. -/
theorem stable_countsClients : Stable CountsClients := by
  apply ofTraffic_countsClients.stable
  intro s c bytes h
  have hcount : (s.metrics.bytesTransferred + UInt64.ofNat bytes.length).toNat =
      (accepted .client s + bytes.length) % 2 ^ 64 := by
    rw [UInt64.toNat_add, UInt64.toNat_ofNat', h, ← Nat.add_mod]
  have hlength : (sentTo .client [.send c .client bytes]).length = bytes.length := by
    simp [sentTo]
  rw [CountsClients, accepted_note, hlength]
  exact hcount

/-- Sending to an origin does not matter for the count. -/
theorem forwards_countsClients : Forwards CountsClients := by
  intro s c bytes h
  rw [CountsClients, accepted_note]
  exact h

/-- No primitive but the relay sends to an origin. -/
theorem stable_spareOrigins : Stable SpareOrigins := by
  apply ofTraffic_spareOrigins.stable
  intro s c bytes h
  rw [SpareOrigins, accepted_note]
  exact h

/-- In every state the counter is what was accepted for the clients, so it is all of the traffic
exactly if what was accepted for origins does not show modulo `2 ^ 64`. It is all of the traffic
after a run in which nothing was accepted for an origin. -/
theorem bytes_counted (h : Reachable s) :
    (CountsAll s ↔ 2 ^ 64 ∣ accepted .origin s) ∧
    (ReachableUnder (fun s e => ¬ RelaysOut s e) s → CountsAll s) := by
  have hclients : CountsClients s :=
    stable_countsClients.reachable ofTraffic_countsClients.log (fun _ => rfl)
      (fun _ _ _ _ => forwards_countsClients) h
  have hiff : CountsAll s ↔ 2 ^ 64 ∣ accepted .origin s := by
    rw [CountsAll, hclients]
    omega
  refine ⟨hiff, fun hguarded => hiff.mpr ?_⟩
  have hspare : SpareOrigins s :=
    stable_spareOrigins.reachable ofTraffic_spareOrigins.log (fun _ => rfl)
      (fun _ _ hguard hrelays => absurd hrelays hguard) hguarded
  rw [hspare]
  exact Nat.dvd_zero _

instance (s : Server) (k : Socks5Conn) : Decidable (OriginRegistered s k) :=
  decidable_of_iff (0 ≤ k.originFd ∧ k.originFd.toNat < ITEMS_MAX_SIZE ∧
      (s.selector.fds k.originFd.toNat).used = true) <| by
    constructor
    · rintro ⟨hpos, hlt, hused⟩
      exact ⟨k.originFd.toNat, (Int.toNat_of_nonneg hpos).symm, hlt, hused⟩
    · rintro ⟨n, hn, hlt, hused⟩
      rw [hn]
      exact ⟨Int.natCast_nonneg n, hlt, hused⟩

instance (s : Server) : (e : Event) → Decidable (RelaysOut s e)
  | .writable _ _ => inferInstanceAs (Decidable (_ ∧ _ ∧ _))
  | .readable _ _ => inferInstanceAs (Decidable (_ ∧ _ ∧ _ ∧ _))
  | .notify _ | .resolved _ _ | .adminInterest _ _ | .adminClose _ | .configure _ _ _ => isFalse id

/-- The method selection is sent and counted. -/
theorem bytes_counted_greeting : ∃ s : Server, s.metrics.bytesTransferred = 2 ∧ CountsAll s ∧
    (CountsAll s ↔ 2 ^ 64 ∣ accepted .origin s) := by
  obtain ⟨s, hs, hcheck⟩ := reachableUnder_of_after (fun s e => ¬ RelaysOut s e)
    [arrives, greets 2]
    (fun s => s.metrics.bytesTransferred == 2) (by decide +kernel)
  obtain ⟨hiff, hguarded⟩ := bytes_counted hs.reachable
  exact ⟨s, beq_iff_eq.mp hcheck, hguarded hs, hiff⟩

/-- A client has one byte relayed to its origin. -/
theorem not_bytes_counted : ¬ ∀ s, Reachable s → CountsAll s := by
  intro hall
  obtain ⟨s, hs, hcheck⟩ := reachable_of_after
    (relaying ++ [.readable 2 { recv := .data 7 [], sends := [.accepted 0] }])
    (fun s => s.metrics.bytesTransferred.toNat == 24 && accepted .client s == 24 &&
      accepted .origin s == 1) (by decide +kernel)
  simp only [Bool.and_eq_true, beq_iff_eq] at hcheck
  obtain ⟨⟨hbytes, hclient⟩, horigin⟩ := hcheck
  have hcount := hall s hs
  rw [CountsAll, hbytes, hclient, horigin] at hcount
  cases hcount

end Socks5d
