import Socks5d.Lib.Census
import Socks5d.Stability

/-!
# The count of connections

`current_connections` goes down in the close callback, which also frees the record, and no other
callback of a connection changes either. So each of them leaves the counter at the number of
records there are, whatever it calls and wherever it stops.
-/

namespace Socks5d

open Fallible Census

/-- The records are of connections that were handed out, and the counter is their number. -/
structure Tally (conns : ConnId → Option Socks5Conn) (next : ConnId) (count : UInt64) : Prop where
  known : ∀ c, (conns c).isSome = true → c < next
  counted : count.toNat = taken conns next

/-- The counter of the server is the number of its records. -/
def Tallied (s : Server) : Prop := Tally s.conns s.nextConn s.metrics.currentConnections

variable {s : Server} {c : ConnId} {k : Socks5Conn}

theorem ServerMetrics.toNat_decCurrConn (m : ServerMetrics) :
    m.decCurrConn.currentConnections.toNat = m.currentConnections.toNat - 1 := by
  unfold decCurrConn
  split
  · rename_i hpos
    have hpos' : 0 < m.currentConnections.toNat := hpos
    change (m.currentConnections - 1).toNat = _
    rw [UInt64.toNat_sub_of_le]
    · rfl
    · exact hpos'
  · rename_i hzero
    have hzero' : ¬ 0 < m.currentConnections.toNat := hzero
    omega

/-- A record that can be followed may be rewritten. -/
theorem Tallied.setConn (h : Tallied s) (hc : s.conns c = some k) (k' : Socks5Conn) :
    Tallied (s.setConn c k') where
  known d hd := by
    by_cases hdc : d = c
    · exact hdc ▸ h.known c (by simp [hc])
    · exact h.known d (by simpa [Server.setConn, Function.update_of_ne hdc] using hd)
  counted := h.counted.trans (taken_update_some (by simp [hc]) k').symm

/-- A record that is freed is counted off. -/
theorem Tallied.free (h : Tallied s) (hc : s.conns c = some k) :
    Tally (Function.update s.conns c none) s.nextConn s.metrics.decCurrConn.currentConnections where
  known d hd := by
    by_cases hdc : d = c
    · exact hdc ▸ h.known c (by simp [hc])
    · exact h.known d (by simpa [Function.update_of_ne hdc] using hd)
  counted := by
    have hc' : (s.conns c).isSome = true := by simp [hc]
    have hfree := taken_update_none (h.known c hc') hc'
    rw [ServerMetrics.toNat_decCurrConn, h.counted, ← hfree, Nat.add_sub_cancel]

/-- What else the primitives do changes neither the records nor the counter. -/
theorem stable_tallied : Stable Tallied where
  books h hbooks := by
    unfold Tallied
    rw [hbooks.conns, hbooks.nextConn, hbooks.metrics]
    exact h
  setConn k' h hc := h.setConn hc k'
  free h hc := h.free hc
  note _ h _ := h
  queued _ _ _ _ _ h := h
  incErrors h := h
  answered _ _ h := h

theorem forwards_tallied : Forwards Tallied := fun _ _ _ h => h

/-- Every event but an accept keeps the counter at the number of records. -/
theorem Tallied.step (h : Tallied s) {e : Event} (he : ¬ e.accepts s) :
    Holds (fun _ => True) (step s e) Tallied :=
  stable_tallied.step h he fun _ => forwards_tallied

end Socks5d
