import Socks5d.Integrity
import Mathlib.Data.List.DropRight

/-!
# The end of a relay

A relay that the server closes because a stream ended has sent the client everything, since a
client is only read while `out_buff` is empty. What the client sent is another matter: its end of
stream closes the connection whatever `in_buff` still holds.
-/

namespace Socks5d

open GuardedRun Fifo

variable {s s' : Server} {c : ConnId} {v w : View} {e : Event} {junk : Memory}
  {fds : ℕ → Item} {out : SendOutcome} {r : Result} {env : Env} {fd : ℕ}

/-- The observations since the relay phase was entered. -/
def sinceCopy (c : ConnId) (history : List Obs) : List Obs :=
  history.rtakeWhile fun o => o != .enter c .copy

theorem sinceCopy_append (h : List Obs) {t : List Obs} (ht : Obs.enter c .copy ∉ t) :
    sinceCopy c (h ++ t) = sinceCopy c h ++ t := by
  induction t using List.reverseRecOn with
  | nil => simp
  | append_singleton t o ih =>
    simp only [List.mem_append, List.mem_singleton, not_or] at ht
    rw [← List.append_assoc, sinceCopy, List.rtakeWhile_concat_pos _ _ _
      (by simpa using Ne.symm ht.2), ← List.append_assoc]
    exact congrArg (· ++ [o]) (ih ht.1)

@[simp] theorem sinceCopy_entered (h : List Obs) : sinceCopy c (h ++ [.enter c .copy]) = [] :=
  List.rtakeWhile_concat_neg _ _ _ (by simp)

/-- What a relay has received from its client is what the origin was sent and `in_buff`. -/
def View.Uploads (c : ConnId) (v : View) : Prop :=
  Balance [] (receivedFrom .client (sinceCopy c v.history))
    (sentTo .origin (sinceCopy c v.history)) v.conn.inBuff.content

/-- Something to send to the client has it asked for writing. -/
def View.WakesClient (v : View) : Prop := v.conn.outBuff.content ≠ [] → v.interest = OP_WRITE

namespace View

theorem Uploads.entered (hin : v.conn.inBuff.content = [])
    (hhistory : ∃ h, v.history = h ++ [.enter c .copy]) : v.Uploads c := by
  obtain ⟨h, hhistory⟩ := hhistory
  simp only [View.Uploads, hhistory, sinceCopy_entered, hin]
  exact .refl []

theorem Uploads.append {t : List Obs} (h : v.Uploads c) (ht : w.history = v.history ++ t)
    (hnot : Obs.enter c .copy ∉ t)
    (hup : Balance v.conn.inBuff.content (receivedFrom .client t) (sentTo .origin t)
      w.conn.inBuff.content) : w.Uploads c := by
  rw [View.Uploads, ht, sinceCopy_append _ hnot, receivedFrom_append, sentTo_append]
  exact h.trans hup

theorem Uploads.carries (h : v.Uploads c) (hc : Carries c v w) : w.Uploads c := by
  obtain ⟨t, ht, hnot, hup, -⟩ := hc
  exact h.append ht hnot hup

/-- Queueing a reply uploads nothing. -/
theorem Uploads.queued {kind : ReplyKind} {bytes : List UInt8} (h : v.Uploads c)
    (hqueued : Queued c kind bytes v w) : w.Uploads c := by
  cases hqueued with
  | queued buff _ _ _ _ => exact h.append rfl (by simp) (.refl _)
  | dropped _ => exact h

theorem Uploads.registered (h : v.Uploads c) (status : UInt8) (now : ℕ) :
    (v.registered c status now).Uploads c :=
  h.append rfl (by simp) (.refl _)

/-- A client that is read has nothing to be sent. -/
theorem WakesClient.outBuff_eq_nil (h : v.WakesClient) (hready : v.interest.read = true) :
    v.conn.outBuff.content = [] := by
  by_contra hleft
  rw [h hleft] at hready
  cases hready

end View

/-- Sending to the client leaves it asked for writing while something is left. -/
theorem Wrote.wakesClient (h : Wrote c junk fds v out (.alive w)) (hv : v.WakesClient) : w.WakesClient := by
  have hsent : ∀ n left, (v.sent c n left).WakesClient := by
    intro n left hleft
    rcases View.sent_client (c := c) n left with ⟨-, hi⟩ | ⟨hempty, -⟩
    · exact hi
    · exact absurd hempty hleft
  cases h with
  | idle hempty => exact fun hleft => absurd hempty hleft
  | blocked _ _ => exact hv
  | relayed n left _ _ _ _ _ => exact hsent n left
  | advanced n left r _ _ _ _ hadvance =>
    cases hadvance with
    | auth p _ _ _ _ => exact hsent n left
    | connectionReq state _ _ _ => cases state <;> exact hsent n left
    | copy state relay _ _ _ _ => cases state <;> exact hsent n left

/-- Nothing is uploaded between the register entry and the sending of a success reply. -/
theorem Queued.succeeding_history {kind : ReplyKind} {bytes : List UInt8}
    (h : Queued c kind bytes v w) : ∃ t, (w.succeeding c).history = v.history ++ t ∧
      Obs.enter c .copy ∉ t ∧ receivedFrom .client t = [] ∧ sentTo .origin t = [] := by
  have hreset : ∃ t, (w.succeeding c).history = w.history ++ t ∧ Obs.enter c .copy ∉ t ∧
      receivedFrom .client t = [] ∧ sentTo .origin t = [] := by
    refine ⟨_, rfl, ?_⟩
    split
    · exact ⟨by simp, rfl, rfl⟩
    · exact ⟨by simp, rfl, rfl⟩
  obtain ⟨t, ht, hnot, hreceived, hsent⟩ := hreset
  cases h with
  | queued buff _ _ _ _ =>
    exact ⟨.queued c kind bytes :: t, by simp [ht], by simp [hnot], hreceived, hsent⟩
  | dropped _ => exact ⟨t, ht, hnot, hreceived, hsent⟩

/-- The relay phase starts with nothing to upload and whatever is to be sent on its way. -/
theorem Blocks.starts (h : Blocks c junk env fds fd v (.alive w))
    (hempty : v.conn.outBuff.content = []) (hcapacity : BUFF_MIN_LEN ≤ v.conn.outBuff.capacity)
    (hphase : v.phase = some .connecting) (herror : v.conn.isErrorResponse = false)
    (hcopy : w.phase = some .copy) : w.Uploads c ∧ w.WakesClient := by
  cases h with
  | noAddress u hnone hqueued => cases hcopy
  | pending peer rest hdial => cases hphase.symm.trans hcopy
  | established peer u x y hdial hqueued hwrote henters =>
    obtain ⟨hleft, harmed, -, hin, -⟩ := hqueued.succeeding (c := c) hempty hcapacity
    obtain ⟨hconn, -, huphase, -⟩ := hqueued.fields
    have huphase' : (u.succeeding c).phase = some .connecting := huphase.trans hphase
    have huerror : (u.succeeding c).conn.isErrorResponse = false := by
      change u.conn.isErrorResponse = false
      rw [hconn]
      exact herror
    rcases hwrote.entersCopy henters huphase' huerror hleft with
      ⟨relay, -, rfl⟩ | ⟨n, left, relay, -, -, -, rfl⟩
    · exact ⟨.entered hin ⟨_, rfl⟩, fun _ => harmed⟩
    · refine ⟨.entered hin ⟨_, rfl⟩, fun hleft' => ?_⟩
      rcases View.sent_client (c := c) n left with ⟨-, hi⟩ | ⟨hnil, -⟩
      · exact hi
      · exact absurd hnil hleft'

/-- The end of a pending connect starts the relay phase likewise, and refusing one that relays
already keeps what it has to upload. -/
theorem Connects.starts {lowest : ℕ} (h : Connects c junk env fds lowest v (.alive w))
    (hphase : v.phase = some .connecting ∨ v.phase = some .copy ∧ v.conn.addrInfo = [])
    (huploads : v.phase = some .copy → v.Uploads c) (hcopy : w.phase = some .copy) :
    w.Uploads c ∧ w.WakesClient := by
  cases h with
  | retried err relay hopen herr hsome hdial hrelay =>
    have hconnecting := hphase.resolve_right fun hc => hsome hc.2
    cases hconnecting.symm.trans hcopy
  | refused v₁ u err err' hopen herr hfrom hqueued =>
    refine ⟨?_, fun _ => rfl⟩
    obtain ⟨-, -, huphase, -⟩ := hqueued.fields
    have hv₁ : v₁ = v := by
      rcases hfrom with ⟨-, heq⟩ | ⟨hsome, -, relay, rfl⟩
      · exact heq
      · have hconnecting := hphase.resolve_right fun hc => hsome hc.2
        cases (huphase.trans hconnecting).symm.trans hcopy
    subst hv₁
    have hu : u.Uploads c :=
      ((huploads (huphase.symm.trans hcopy)).registered (getCode err') env.now).queued hqueued
    exact hu
  | established table u r relay hconnecting hstands hrelay hqueued hwrote =>
    obtain ⟨-, -, huphase, -⟩ := hqueued.fields
    refine ⟨?_, hwrote.wakesClient fun _ => rfl⟩
    have hin : (u.succeeding c).conn.inBuff.content = [] := by simp [View.succeeding, View.reset]
    have hstarted : (u.succeeding c).Uploads c := by
      obtain ⟨t, ht, hnot, hreceived, hsent⟩ := hqueued.succeeding_history
      have hstanding : ∃ h, (v.standing c relay).history = h ++ [.enter c .copy] :=
        ⟨v.history ++ (if v.conn.originFd = -1 then [] else [.established c]),
          by simp [View.standing]⟩
      obtain ⟨h, hh⟩ := hstanding
      have hhistory : (u.succeeding c).history = h ++ [.enter c .copy] ++
          (.access c ((v.standing c relay).accessCall SOCKS5_REP_SUCCEEDED env.now) :: t) := by
        simp [ht, View.registered, hh]
      rw [View.Uploads, hhistory, sinceCopy_append _ (by simp [hnot]), sinceCopy_entered, hin]
      simp only [List.nil_append]
      change Balance [] (receivedFrom .client t) (sentTo .origin t) []
      rw [hreceived, hsent]
      exact .refl []
    exact hstarted.carries (hwrote.carries huphase)

/-- A client read in the relay phase puts nothing into `out_buff`. -/
theorem ClientRead.outBuff (h : ClientRead c v env (fun u => CopyRead c s u env.send) (.alive w)) :
    w.conn.outBuff = v.conn.outBuff := by
  cases h with
  | full _ => rfl
  | blocked _ _ => rfl
  | handled _ _ _ _ _ _ _ _ hQ =>
    cases hQ with
    | relayed _ _ _ hwrote =>
      cases hwrote with
      | idle _ => rfl
      | blocked _ _ => rfl
      | delivered _ _ _ _ _ _ => rfl

/-- A send that enters the relay phase keeps `in_buff`. -/
theorem Wrote.enters (h : Wrote c junk fds v out (.alive w)) (hphase : v.phase ≠ some .copy)
    (hcopy : w.phase = some .copy) : v.conn.isErrorResponse = false ∧
      w.conn.inBuff = v.conn.inBuff ∧ ∃ h, w.history = h ++ [.enter c .copy] := by
  cases h with
  | idle _ => exact absurd hcopy hphase
  | blocked _ _ => exact absurd hcopy hphase
  | relayed _ _ _ _ hcopying => exact absurd hcopying hphase
  | advanced n left r _ _ _ _ hadvance =>
    cases hadvance with
    | auth p _ _ _ _ => cases hcopy
    | connectionReq state _ _ _ => cases hcopy
    | copy state relay _ herror _ _ =>
      refine ⟨herror, ?_, ⟨_, rfl⟩⟩
      cases state <;> rfl

/-- Every reaction that ends in a relay accounts for the upload and wakes the client. -/
theorem Reaction.uploads (h : Reaction s c v e (.alive w)) (hinv : Inv s)
    (hview : s.view c = some v) (hcopy : w.phase = some .copy)
    (hflow : v.phase = some .copy → 0 < v.conn.originFd → v.Flow c)
    (hv : v.phase = some .copy → v.Uploads c ∧ v.WakesClient) : w.Uploads c ∧ w.WakesClient := by
  have hok := hinv.ok c v hview
  have hphaseOk := hok.phase
  have henters := (h.progress hinv hview).2.enters_copy hcopy
  cases h with
  | greets fd env r hitem hready hphase hread =>
    rcases hphase with hphase | hphase <;> simp [hphase] at henters
  | authenticates fd env r hitem hready hphase hread => simp [hphase] at henters
  | requests fd env r hitem hready hphase hread =>
    rw [View.PhaseOk, hphase] at hphaseOk
    have hreq : v.Requesting := hphaseOk
    exact absurd hcopy (hread.not_copy hphase hreq.parser)
  | relays fd env r hitem hready hphase hread =>
    obtain ⟨huploads, hwakes⟩ := hv hphase
    refine ⟨huploads.carries hread.carries, ?_⟩
    have hempty := hwakes.outBuff_eq_nil hready
    have hout : w.conn.outBuff = v.conn.outBuff := hread.outBuff
    exact fun hleft => absurd (hout ▸ hempty) hleft
  | sends table fd env r hitem hready hwrote =>
    by_cases hphase : v.phase = some .copy
    · obtain ⟨huploads, hwakes⟩ := hv hphase
      exact ⟨huploads.carries (hwrote.carries hphase), hwrote.wakesClient hwakes⟩
    · obtain ⟨herror, hin, hhistory⟩ := hwrote.enters hphase hcopy
      have hstart : v.conn.inBuff.content = [] ∧ v.WakesClient := by
        rw [View.PhaseOk] at hphaseOk
        rcases henters.resolve_left hphase with hconnecting | hconnectionReq
        · rw [hconnecting] at hphaseOk
          rcases hphaseOk with hw | hp | hr
          · rw [hw.interest] at hready; cases hready
          · rw [hp.interest] at hready; cases hready
          · rw [hr.isErrorResponse] at herror; cases herror
        · rw [hconnectionReq] at hphaseOk
          have hreq : v.Requesting := hphaseOk
          rcases hreq.reply with ⟨-, hin, harmed⟩ | ⟨hrefused, -⟩
          · refine ⟨hin, fun hleft => ?_⟩
            exact (harmed.resolve_left fun hempty => hleft hempty.1).2
          · rw [hrefused] at herror; cases herror
      exact ⟨.entered (hin ▸ hstart.1) hhistory, hwrote.wakesClient hstart.2⟩
  | blocks env r hphase hwaiting hblocks =>
    exact hblocks.starts hwaiting.outBuff hok.outCapacity hphase hwaiting.isErrorResponse hcopy
  | resolves env hphase hwaiting => cases hphase.symm.trans hcopy
  | connects fd env r i hitem hset hphase hconnects =>
    exact hconnects.starts hphase (fun hcopying => (hv hcopying).1) hcopy
  | receives fd env r i horigin hrelay hready hphase hreceived =>
    obtain ⟨huploads, hwakes⟩ := hv hphase
    refine ⟨huploads.carries (hreceived.carries hphase), ?_⟩
    cases hreceived with
    | full _ => exact fun _ => rfl
    | received _ _ _ _ _ _ _ _ _ hwrote => exact hwrote.wakesClient fun _ => rfl
    | ended _ _ => exact hwakes
    | blocked _ _ => exact hwakes
  | delivers fd env r i horigin hrelay hready hphase hwrote =>
    obtain ⟨huploads, hwakes⟩ := hv hphase
    refine ⟨huploads.carries hwrote.carries, ?_⟩
    cases hwrote with
    | idle _ => exact hwakes
    | blocked _ _ => exact hwakes
    | delivered n left hleft _ _ _ =>
      have hpos : 0 < v.conn.originFd := by
        by_contra hle
        obtain ⟨-, -, -, hr, -⟩ := view_eq_some_iff.mp hview
        rw [Server.relay, if_neg hle, hrelay] at hr
        cases hr
      exact fun hout => absurd ((hflow hphase hpos).pending hleft).1 hout

/-- Every relay accounts for its upload, and has its client asked for writing while something is
to be sent. -/
theorem ReachableUnder.uploads {guard : Server → Event → Prop} (h : ReachableUnder guard s)
    (hview : s.view c = some v) (hcopy : v.phase = some .copy) : v.Uploads c ∧ v.WakesClient := by
  refine h.views (P := fun c v => v.phase = some .copy → v.Uploads c ∧ v.WakesClient) ?_ ?_
    c v hview hcopy
  · intro c v hfresh hcopy
    cases hfresh.phase.symm.trans hcopy
  · intro s e c v w hreach _ hview hv hreaction hcopy
    exact hreaction.uploads hreach.reachable.inv hview hcopy (hreach.flow hview) hv

/-- The event closes the connection because `recv` returned 0 on either side. -/
def ClosesAtEnd (c : ConnId) (s s' : Server) : Prop :=
  s'.conns c = none ∧ ∃ side t, s'.history c = s.history c ++ t ∧ Obs.ended c side ∈ t

/-- Everything a relay received was delivered. -/
def Delivered (c : ConnId) (history : List Obs) : Prop :=
  sentTo .origin (sinceCopy c history) = receivedFrom .client (sinceCopy c history) ∧
    sentTo .client history = outgoing history

instance (c : ConnId) (history : List Obs) : Decidable (Delivered c history) :=
  inferInstanceAs (Decidable (_ ∧ _))

/-- A relay that is released notes the end of a stream only for its client. -/
theorem Reaction.closes {history : List Obs} (h : Reaction s c v e (.gone history))
    (hcopy : v.phase = some .copy) :
    history = v.history ++ [.ended c .client, .released c] ∧ v.interest.read = true ∨
      ∃ t, history = v.history ++ t ∧ ∀ side, Obs.ended c side ∉ t := by
  have hreleased : history = v.history ++ [.released c] →
      ∃ t, history = v.history ++ t ∧ ∀ side, Obs.ended c side ∉ t :=
    fun heq => ⟨_, heq, by simp⟩
  cases h with
  | greets fd env r hitem hready hphase hread => simp [hcopy] at hphase
  | authenticates fd env r hitem hready hphase hread => cases hcopy.symm.trans hphase
  | requests fd env r hitem hready hphase hread => cases hcopy.symm.trans hphase
  | relays fd env r hitem hready hphase hread =>
    cases hread with
    | ended _ _ => exact .inl ⟨rfl, hready⟩
    | broken err _ _ _ => exact .inr (hreleased rfl)
    | handled first rest buff r _ _ _ _ hQ =>
      cases hQ with
      | unregistered _ =>
        exact .inr ⟨[.recv c .client ((first :: rest).take v.conn.inBuff.space),
          .enter c .error, .released c], by simp [View.received], by simp⟩
      | relayed r _ hfatal hwrote =>
        cases hwrote with
        | broken _ hbroken => exact absurd hbroken hfatal
  | sends table fd env r hitem hready hwrote =>
    rcases hwrote.relaying hcopy with ⟨w, hw, -⟩ | heq
    · cases hw
    · exact .inr (hreleased (Result.gone.inj heq))
  | blocks env r hphase hwaiting hblocks => cases hcopy.symm.trans hphase
  | connects fd env r i hitem hset hphase hconnects =>
    cases hconnects with
    | established _ _ _ _ hconnecting => cases hcopy.symm.trans hconnecting
  | receives fd env r i horigin hrelay hready hphase hreceived =>
    cases hreceived with
    | received table first rest buff r _ _ _ _ hwrote =>
      rcases hwrote.relaying hcopy with ⟨w, hw, -⟩ | heq
      · cases hw
      · obtain rfl := Result.gone.inj heq
        exact .inr ⟨[.recv c .origin ((first :: rest).take v.conn.outBuff.space), .released c],
          by simp, by simp⟩
    | broken err _ _ _ => exact .inr (hreleased rfl)
  | delivers fd env r i horigin hrelay hready hphase hwrote =>
    cases hwrote with
    | broken _ _ => exact .inr (hreleased rfl)

/-- When a relay is closed because a stream ended, everything it received was delivered exactly
if `in_buff` was empty before. -/
theorem closed_delivered_iff (hs : Reachable s) (hview : s.view c = some v)
    (hcopy : v.phase = some .copy) (henabled : enabled s e = true) (hstep : step s e = .ok s')
    (hcloses : ClosesAtEnd c s s') : Delivered c (s'.history c) ↔ v.conn.inBuff.content = [] := by
  obtain ⟨hgone, side, t, ht, hended⟩ := hcloses
  obtain ⟨hconn, -, -, -, -, hhistory⟩ := view_eq_some_iff.mp hview
  obtain ⟨huploads, hwakes⟩ := ReachableUnder.uploads hs hview hcopy
  have hstreams := ReachableUnder.streams hs hview
  have hshape : t = [.ended c .client, .released c] ∧ v.interest.read = true := by
    cases hs.inv.effect henabled hstep with
    | background hb _ =>
      rw [hb.kept c _ hconn] at hgone
      cases hgone
    | reaction d u r s₀ hviewd htarget hreaction hentered hlands =>
      by_cases hd : c = d
      · subst hd
        obtain rfl := Option.some.inj (hview.symm.trans hviewd)
        cases r with
        | alive w =>
          have hw : s'.view c = some w := Tracks.view hlands
          simp [Server.view, hgone] at hw
        | gone history =>
          have hh : s'.history c = history := Released.history_eq hlands
          rcases hreaction.closes hcopy with ⟨heq, hready⟩ | ⟨x, heq, hnot⟩
          · rw [hh, heq, hhistory, List.append_cancel_left_eq] at ht
            exact ⟨ht.symm, hready⟩
          · rw [hh, heq, hhistory, List.append_cancel_left_eq] at ht
            exact absurd hended (ht ▸ hnot side)
      · rw [hlands.frame.conns c hd, hentered.conns, hconn] at hgone
        cases hgone
  obtain ⟨rfl, hready⟩ := hshape
  have hempty := hwakes.outBuff_eq_nil hready
  have hsince : sinceCopy c (s'.history c) =
      sinceCopy c v.history ++ [.ended c .client, .released c] := by
    rw [ht, hhistory, sinceCopy_append _ (by simp)]
  have hall : sentTo .client (s'.history c) = outgoing (s'.history c) := by
    have hbalance := hstreams.balance.of_empty
    rw [hempty, List.append_nil] at hbalance
    rw [ht, hhistory, sentTo_append, outgoing_append, hbalance]
    rfl
  rw [Delivered, hsince, sentTo_append, receivedFrom_append]
  have hdrained := huploads.drained_iff
  constructor
  · rintro ⟨hsent, -⟩
    exact hdrained.mp (by simpa [sentTo, receivedFrom] using hsent)
  · intro hin
    refine ⟨?_, hall⟩
    simpa [sentTo, receivedFrom] using hdrained.mpr hin

/-- A client sends five bytes, of which the origin takes two, and ends its stream. -/
theorem not_delivered_upload : ∃ (s s' : Server) (v : View) (e : Event), Reachable s ∧
    s.view 0 = some v ∧ v.phase = some .copy ∧ enabled s e = true ∧ step s e = .ok s' ∧
    ClosesAtEnd 0 s s' ∧ ¬ Delivered 0 (s'.history 0) := by
  obtain ⟨s, s', -, hs, he, hstep, -, hcheck⟩ := staged
    (relaying ++ [.readable 2 { recv := .data 1 [2, 3, 4, 5], sends := [.accepted 1] }])
    (.readable 2 { recv := .eof }) unguarded []
    (fun s s' _ => (s.view 0).any (fun v => v.phase == some .copy) && (s'.conns 0).isNone &&
      (s'.history 0 == s.history 0 ++ [.ended 0 .client, .released 0]) &&
        !decide (Delivered 0 (s'.history 0)))
    (by decide +kernel)
  simp only [Bool.and_eq_true, Option.any_eq_true, beq_iff_eq, Option.isNone_iff_eq_none,
    Bool.not_eq_true', decide_eq_false_iff_not] at hcheck
  obtain ⟨⟨⟨⟨v, hview, hcopy⟩, hgone⟩, hhistory⟩, hnot⟩ := hcheck
  exact ⟨s, s', v, _, hs, hview, hcopy, he, hstep,
    ⟨hgone, .client, _, hhistory, by simp⟩, hnot⟩

/-- The same upload, taken whole before the client ends its stream. -/
theorem closed_delivered_upload : ∃ s' : Server, s'.conns 0 = none ∧
    Delivered 0 (s'.history 0) := by
  obtain ⟨s, s', -, hs, he, hstep, -, hcheck⟩ := staged
    (relaying ++ [.readable 2 { recv := .data 1 [2, 3, 4, 5], sends := [.accepted 4] }])
    (.readable 2 { recv := .eof }) unguarded []
    (fun s s' _ => (s.view 0).any (fun v => v.phase == some .copy && v.conn.inBuff.content == []) &&
      (s'.conns 0).isNone &&
        (s'.history 0 == s.history 0 ++ [.ended 0 .client, .released 0]))
    (by decide +kernel)
  simp only [Bool.and_eq_true, Option.any_eq_true, beq_iff_eq, Option.isNone_iff_eq_none] at hcheck
  obtain ⟨⟨⟨v, hview, hcopy, hin⟩, hgone⟩, hhistory⟩ := hcheck
  exact ⟨s', hgone, (closed_delivered_iff hs hview hcopy he hstep
    ⟨hgone, .client, _, hhistory, by simp⟩).mpr hin⟩

end Socks5d
