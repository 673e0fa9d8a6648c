import Socks5d.Wakeups

/-!
# The end of the origin's stream

When the origin's stream ends, only its registration is removed. Nothing closes the client once
everything was sent to it: a connection is stranded if the end finds `out_buff` empty, and also
if `out_buff` drains after the end.
-/

namespace Socks5d

open GuardedRun

variable {s : Server} {c : ConnId} {v w : View} {e : Event} {junk : Memory}
  {fds : ℕ → Item} {out : SendOutcome} {env : Env}

/-- The send accepts all of so many bytes. -/
def SendOutcome.drains (length : ℕ) : SendOutcome → Bool
  | .accepted n => decide (length ≤ n + 1)
  | _ => false

/-- The event ends the origin's stream while nothing is left to send to the client, or sends the
client the last byte after that end. -/
def Strands (s : Server) (e : Event) : Prop :=
  match e with
  | .readable fd env => (s.selector.fds fd).handler = some .copySelectorHandler ∧
      env.recv = .eof ∧ ∃ c ∈ e.target s, ∃ v ∈ s.view c, v.conn.outBuff.content = []
  | .writable fd env => (s.selector.fds fd).handler = some .socks5Handler ∧
      ∃ c ∈ e.target s, ∃ v ∈ s.view c, Obs.ended c .origin ∈ v.history ∧
        env.send.drains v.conn.outBuff.content.length = true
  | _ => False

instance (s : Server) : (e : Event) → Decidable (Strands s e)
  | .readable fd env => inferInstanceAs (Decidable
      ((s.selector.fds fd).handler = some .copySelectorHandler ∧ env.recv = .eof ∧
        ∃ c ∈ (Event.readable fd env).target s, ∃ v ∈ s.view c, v.conn.outBuff.content = []))
  | .writable fd env => inferInstanceAs (Decidable
      ((s.selector.fds fd).handler = some .socks5Handler ∧
        ∃ c ∈ (Event.writable fd env).target s, ∃ v ∈ s.view c, Obs.ended c .origin ∈ v.history ∧
          env.send.drains v.conn.outBuff.content.length = true))
  | .notify _ | .resolved _ _ | .adminInterest _ _ | .adminClose _ | .configure _ _ _ =>
    isFalse id

/-- After the end of its origin's stream a relay has something left for its client, and nothing
left to read. -/
def View.Draining (c : ConnId) (v : View) : Prop :=
  v.phase = some .copy → Obs.ended c .origin ∈ v.history →
    v.conn.outBuff.content ≠ [] ∧ v.relay = none

/-- Sending to the client notes no end of a stream. -/
theorem Wrote.ended_mem (h : Wrote c junk fds v out (.alive w))
    (hended : Obs.ended c .origin ∈ w.history) : Obs.ended c .origin ∈ v.history := by
  obtain ⟨t, -, ht, hlocal, -⟩ := h.talks
  have hw : w.history = v.history ++ t := ht
  rw [hw] at hended
  exact (List.mem_append.mp hended).resolve_right fun hmem => hlocal _ hmem

theorem CopyWrote.ended_mem (h : CopyWrote c v out (.alive w))
    (hended : Obs.ended c .origin ∈ w.history) : Obs.ended c .origin ∈ v.history := by
  cases h with
  | idle _ => exact hended
  | blocked _ _ => exact hended
  | delivered n left _ _ _ _ => simpa [View.delivered] using hended

/-- Reading from the client notes no end of the origin's stream. -/
theorem ClientRead.ended_mem
    (h : ClientRead c v env (fun u => CopyRead c s u env.send) (.alive w))
    (hended : Obs.ended c .origin ∈ w.history) : Obs.ended c .origin ∈ v.history := by
  cases h with
  | full _ => exact hended
  | blocked _ _ => exact hended
  | handled first rest buff r _ _ _ _ hQ =>
    cases hQ with
    | relayed r _ _ hwrote => simpa [View.received] using hwrote.ended_mem hended

/-- Sending to the client after the end leaves something as long as it does not drain. -/
theorem Wrote.draining (h : Wrote c junk fds v out (.alive w)) (hphase : v.phase = some .copy)
    (hleft : v.conn.outBuff.content ≠ []) (hnone : v.relay = none)
    (hkeeps : out.drains v.conn.outBuff.content.length ≠ true) :
    w.conn.outBuff.content ≠ [] ∧ w.relay = none := by
  obtain ⟨-, hrelay⟩ := h.keeps hphase
  refine ⟨?_, by simpa [hnone] using hrelay⟩
  cases h with
  | idle hempty => exact absurd hempty hleft
  | blocked _ _ => exact hleft
  | relayed n left _ hout _ hcontent _ =>
    subst hout
    have hmore : n + 1 < v.conn.outBuff.content.length := by
      simpa [SendOutcome.drains] using hkeeps
    simp only [View.sent, Buffer.content_bufferCompact, hcontent]
    exact fun hnil => absurd (List.drop_eq_nil_iff.mp hnil) (by omega)
  | advanced n left r _ _ _ _ hadvance => exact absurd hphase hadvance.not_copy

/-- Every reaction to an event that does not strand keeps a relay draining. -/
theorem Reaction.draining (h : Reaction s c v e (.alive w)) (hview : s.view c = some v)
    (hstreams : v.Streams) (hwakes : v.phase = some .copy → v.WakesClient)
    (hkeeps : ¬ Strands s e) (hv : v.Draining c) : w.Draining c := by
  intro hcopy hended
  by_cases hphase : v.phase = some .copy
  · cases h with
    | greets fd env r hitem hready hearly hread => simp [hphase] at hearly
    | authenticates fd env r hitem hready hearly hread => cases hphase.symm.trans hearly
    | requests fd env r hitem hready hearly hread => cases hphase.symm.trans hearly
    | relays fd env r hitem hready _ hread =>
      obtain ⟨hleft, -⟩ := hv hphase (hread.ended_mem hended)
      exact absurd ((hwakes hphase).outBuff_eq_nil hready) hleft
    | sends table fd env r hitem hready hwrote =>
      have hbefore := hwrote.ended_mem hended
      obtain ⟨hleft, hnone⟩ := hv hphase hbefore
      refine hwrote.draining hphase hleft hnone fun hdrains => hkeeps ?_
      exact ⟨hitem.1, c, hitem.2, v, hview, hbefore, hdrains⟩
    | blocks env r hearly hwaiting hblocks => cases hphase.symm.trans hearly
    | resolves env hearly hwaiting => cases hphase.symm.trans hearly
    | connects fd env r i hitem hset hcopying hconnects =>
      cases hconnects with
      | retried err relay hopen herr hsome hdial hrelay =>
        exact absurd (hcopying.resolve_left (by simp [hphase])).2 hsome
      | refused v₁ u err err' hopen herr hfrom hqueued =>
        have hv₁ : v₁ = v := by
          rcases hfrom with ⟨-, heq⟩ | ⟨hsome, -⟩
          · exact heq
          · exact absurd (hcopying.resolve_left (by simp [hphase])).2 hsome
        subst hv₁
        cases hqueued with
        | queued buff _ hcontent _ _ =>
          obtain ⟨hleft, -⟩ := hv hphase (by simpa [View.registered] using hended)
          refine ⟨?_, rfl⟩
          change buff.content ≠ []
          rw [hcontent]
          exact fun hnil => hleft (List.append_eq_nil_iff.mp hnil).1
        | dropped _ =>
          obtain ⟨hleft, -⟩ := hv hphase (by simpa [View.registered] using hended)
          exact ⟨hleft, rfl⟩
      | established table u r relay hearly hstands hrelay hqueued hwrote =>
        cases hphase.symm.trans hearly
    | receives fd env r i horigin hrelay hready _ hreceived =>
      have hopen : Obs.ended c .origin ∉ v.history := fun hmem => by
        rw [(hv hphase hmem).2] at hrelay
        cases hrelay
      cases hreceived with
      | full _ => exact absurd hended hopen
      | received table first rest buff r _ _ _ _ hwrote =>
        exact absurd (by simpa using hwrote.ended_mem hended) hopen
      | ended _ hrecv =>
        refine ⟨fun hempty => hkeeps ?_, rfl⟩
        obtain ⟨-, -, -, hregistered, -⟩ := view_eq_some_iff.mp hview
        rw [Server.relay] at hregistered
        split at hregistered
        · rw [horigin, Int.toNat_natCast, hrelay] at hregistered
          obtain ⟨-, hhandler, -, hdata, -⟩ := relayOf_eq_some_iff.mp hregistered
          exact ⟨hhandler, hrecv, c, hdata, v, hview, hempty⟩
        · rw [hrelay] at hregistered
          cases hregistered
      | blocked _ _ => exact absurd hended hopen
    | delivers fd env r i horigin hrelay hready _ hwrote =>
      rw [(hv hphase (hwrote.ended_mem hended)).2] at hrelay
      cases hrelay
  · obtain ⟨t, -, ht, hP, -⟩ := h.talks
    have hw : w.history = v.history ++ t := ht
    rw [hw] at hended
    rcases List.mem_append.mp hended with hmem | hmem
    · exact absurd (hstreams.early hphase _ hmem) (by simp [Obs.Early, Obs.isRelay])
    · exact absurd ((hP _ hmem).resolve_left hphase) (by simp [Obs.Early, Obs.isRelay])

/-- In runs without a stranding event, a relay whose origin's stream ended has something left to
send to its client. -/
theorem not_stranded (h : ReachableUnder (fun s e => ¬ Strands s e) s)
    (hview : s.view c = some v) (hcopy : v.phase = some .copy)
    (hended : Obs.ended c .origin ∈ v.history) : v.conn.outBuff.content ≠ [] := by
  have hall : v.Draining c := by
    refine h.views (P := fun c v => v.Draining c) ?_ ?_ c v hview
    · intro c v hfresh hcopy
      cases hfresh.phase.symm.trans hcopy
    · intro s e c v w hreach hkeeps hview hv hreaction
      exact hreaction.draining hview (hreach.streams hview)
        (fun hphase => (hreach.uploads hview hphase).2) hkeeps hv
  exact (hall hcopy hended).1

/-- The origin took the first byte of a client. -/
def spoken : List Event :=
  relaying ++ [.readable 2 { recv := .data 7 [], sends := [.accepted 0] }]

/-- The client of an origin that ended its stream waits with nothing left to be sent. -/
theorem stranded_after_end : ∃ (s : Server) (v : View), Reachable s ∧ s.view 0 = some v ∧
    v.phase = some .copy ∧ Obs.ended 0 .origin ∈ v.history ∧ v.relay = none ∧
    v.conn.outBuff.content = [] := by
  obtain ⟨s, hs, hcheck⟩ := reachable_of_after
    (spoken ++ [.readable 3 { recv := .data 8 [9], sends := [.accepted 1] },
      .readable 3 { recv := .eof }])
    (fun s => (s.view 0).any fun v : View => v.phase == some .copy &&
      decide (.ended 0 .origin ∈ v.history) && v.relay == none && v.conn.outBuff.content == [])
    (by decide +kernel)
  simp only [Option.any_eq_true, Bool.and_eq_true, beq_iff_eq, decide_eq_true_eq] at hcheck
  obtain ⟨v, hview, ⟨⟨hcopy, hended⟩, hnone⟩, hout⟩ := hcheck
  exact ⟨s, v, hs, hview, hcopy, hended, hnone, hout⟩

/-- The stream ends while the client is too slow to take the answer. -/
theorem not_stranded_slow : ∃ (s : Server) (v : View), s.view 0 = some v ∧
    Obs.ended 0 .origin ∈ v.history ∧ v.conn.outBuff.content ≠ [] := by
  obtain ⟨s, hs, hcheck⟩ := reachableUnder_of_after (fun s e => ¬ Strands s e)
    (spoken ++ [.readable 3 { recv := .data 8 [9] }, .readable 3 { recv := .eof }])
    (fun s => (s.view 0).any fun v : View => v.phase == some .copy &&
      decide (.ended 0 .origin ∈ v.history))
    (by decide +kernel)
  simp only [Option.any_eq_true, Bool.and_eq_true, beq_iff_eq, decide_eq_true_eq] at hcheck
  obtain ⟨v, hview, hcopy, hended⟩ := hcheck
  exact ⟨s, v, hview, hended, not_stranded hs hview hcopy hended⟩

end Socks5d
