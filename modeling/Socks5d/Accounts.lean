import Socks5d.Flow

/-!
# The bytes of a relay

Both buffers of a relay are first-in first-out. From the success reply on, what the client sent
is what the origin was sent and what `in_buff` still holds, and the reply and what the origin
sent are what the client was sent and what `out_buff` still holds.
-/

namespace Socks5d

open Fifo

variable {s : Server} {c : ConnId} {v w u : View} {e : Event} {junk : Memory}
  {fds : ℕ → Item} {out : SendOutcome} {r : Result} {env : Env} {fd : ℕ}

/-- What a relay callback that keeps the connection adds to the accounts of both buffers. -/
def Carries (c : ConnId) (v w : View) : Prop :=
  ∃ t, w.history = v.history ++ t ∧ Obs.enter c .copy ∉ t ∧
    Balance v.conn.inBuff.content (receivedFrom .client t) (sentTo .origin t)
      w.conn.inBuff.content ∧
    Balance v.conn.outBuff.content (receivedFrom .origin t) (sentTo .client t)
      w.conn.outBuff.content

namespace Carries

/-- A change of the view that moves no byte towards the origin. -/
theorem of_eq (hhistory : w.history = v.history) (hin : w.conn.inBuff = v.conn.inBuff)
    (hout : w.conn.outBuff = v.conn.outBuff) : Carries c v w := by
  refine ⟨[], by simp [hhistory], by simp, ?_, ?_⟩
  · rw [hin]
    exact .refl _
  · rw [hout]
    exact .refl _

/-- One part of a callback after another. -/
theorem trans (h : Carries c v w) (h' : Carries c w u) : Carries c v u := by
  obtain ⟨t, ht, hnot, hup, hdown⟩ := h
  obtain ⟨t', ht', hnot', hup', hdown'⟩ := h'
  refine ⟨t ++ t', by rw [ht', ht, List.append_assoc], by simp [hnot, hnot'], ?_, ?_⟩
  · rw [receivedFrom_append, sentTo_append]
    exact hup.trans hup'
  · rw [receivedFrom_append, sentTo_append]
    exact hdown.trans hdown'

end Carries

/-- Sending to the client in the relay phase. -/
theorem Wrote.carries (h : Wrote c junk fds v out (.alive w)) (hphase : v.phase = some .copy) :
    Carries c v w := by
  cases h with
  | idle _ => exact .of_eq rfl rfl rfl
  | blocked _ _ => exact .of_eq rfl rfl rfl
  | relayed n left _ _ _ hcontent _ =>
    refine ⟨[.send c .client (v.conn.outBuff.content.take (n + 1))], rfl, by simp, ?_, ?_⟩
    · exact .refl _
    · simpa [View.sent, hcontent, sentTo, receivedFrom] using
        Balance.take v.conn.outBuff.content (n + 1)
  | advanced n left r _ _ _ _ hadvance => exact absurd hphase hadvance.not_copy

/-- A write to the origin takes from the front of `in_buff` what is sent. -/
theorem CopyWrote.carries (h : CopyWrote c v out (.alive w)) : Carries c v w := by
  cases h with
  | idle _ => exact .of_eq rfl rfl rfl
  | blocked _ _ => exact .of_eq rfl rfl rfl
  | delivered n left _ _ hcontent _ =>
    refine ⟨[.send c .origin (v.conn.inBuff.content.take (n + 1))], rfl, by simp, ?_, ?_⟩
    · simpa [View.delivered, hcontent, sentTo, receivedFrom] using
        Balance.take v.conn.inBuff.content (n + 1)
    · exact .refl _

/-- What is received from the client goes behind what `in_buff` holds. -/
theorem ClientRead.carries
    (h : ClientRead c v env (fun u => CopyRead c s u env.send) (.alive w)) : Carries c v w := by
  cases h with
  | full _ => exact .of_eq rfl rfl rfl
  | blocked _ _ => exact .of_eq rfl rfl rfl
  | handled first rest buff r _ _ hcontent _ hQ =>
    have hreceived : Carries c v
        (v.received c buff ((first :: rest).take v.conn.inBuff.space)) := by
      refine ⟨[.recv c .client ((first :: rest).take v.conn.inBuff.space)], rfl, by simp,
        ?_, .refl _⟩
      simpa [View.received, hcontent, sentTo, receivedFrom] using
        Balance.put v.conn.inBuff.content ((first :: rest).take v.conn.inBuff.space)
    cases hQ with
    | relayed r _ _ hwrote =>
      have harmed : Carries c (v.received c buff ((first :: rest).take v.conn.inBuff.space)) _ :=
        .of_eq rfl rfl rfl
      exact (hreceived.trans harmed).trans hwrote.carries

/-- Passing on what the origin sent leaves `in_buff` alone. -/
theorem CopyReceived.carries (h : CopyReceived c junk v env (.alive w))
    (hphase : v.phase = some .copy) : Carries c v w := by
  cases h with
  | full _ => exact .of_eq rfl rfl rfl
  | received table first rest buff r _ _ hcontent _ hwrote =>
    have hreceived : Carries c v { v with
        conn := { v.conn with outBuff := buff }
        interest := OP_WRITE
        history := v.history ++
          [.recv c .origin ((first :: rest).take v.conn.outBuff.space)] } := by
      refine ⟨[.recv c .origin ((first :: rest).take v.conn.outBuff.space)], rfl, by simp,
        .refl _, ?_⟩
      simpa [hcontent, sentTo, receivedFrom] using
        Balance.put v.conn.outBuff.content ((first :: rest).take v.conn.outBuff.space)
    exact hreceived.trans (hwrote.carries hphase)
  | ended _ _ =>
    exact ⟨[.ended c .origin], rfl, by simp, .refl _, .refl _⟩
  | blocked _ _ => exact .of_eq rfl rfl rfl

/-- The accounts of a relay, whose success reply was queued after the given history. -/
structure Accounts (c : ConnId) (h : List Obs) (reply : List UInt8) (t : List Obs) (v : View) :
    Prop where
  history : v.history = h ++ .queued c (.connReq SOCKS5_REP_SUCCEEDED) reply :: t
  up : Balance [] (receivedFrom .client t) (sentTo .origin t) v.conn.inBuff.content
  down : Balance reply (receivedFrom .origin t) (sentTo .client t) v.conn.outBuff.content

/-- Both accounts are carried on. -/
theorem Accounts.append {h t u : List Obs} {reply : List UInt8} (ha : Accounts c h reply t v)
    (ht : w.history = v.history ++ u)
    (hup : Balance v.conn.inBuff.content (receivedFrom .client u) (sentTo .origin u)
      w.conn.inBuff.content)
    (hdown : Balance v.conn.outBuff.content (receivedFrom .origin u) (sentTo .client u)
      w.conn.outBuff.content) : Accounts c h reply (t ++ u) w := by
  refine ⟨by simp [ht, ha.history], ?_, ?_⟩
  · rw [receivedFrom_append, sentTo_append]
    exact ha.up.trans hup
  · rw [receivedFrom_append, sentTo_append]
    exact ha.down.trans hdown

/-- What a callback carries keeps the account. -/
theorem Accounts.carries {h t : List Obs} {reply : List UInt8} (ha : Accounts c h reply t v)
    (hc : Carries c v w) : ∃ t', Accounts c h reply (t ++ t') w := by
  obtain ⟨t', ht', -, hup, hdown⟩ := hc
  exact ⟨t', ha.append ht' hup hdown⟩

/-- A success reply queued behind nothing opens the accounts. -/
theorem Queued.accounts (h : Queued c (.connReq SOCKS5_REP_SUCCEEDED) (connReqReply env junk) v w)
    (hempty : v.conn.outBuff.content = [])
    (hcapacity : BUFF_MIN_LEN ≤ v.conn.outBuff.capacity) :
    ∃ t, Accounts c v.history (connReqReply env junk) t (w.succeeding c) := by
  obtain ⟨hpos, hle⟩ := length_connReqReply env junk
  obtain ⟨hcontent, hhistory, -⟩ :=
    h.of_empty hempty (List.ne_nil_of_length_pos hpos) (hle.trans hcapacity)
  refine ⟨if w.conn.inBuff.content = [] then [] else [.discarded c w.conn.inBuff.content],
    by simp [View.succeeding, View.reset, hhistory], ?_, ?_⟩
  · have hin : (w.succeeding c).conn.inBuff.content = [] := by simp [View.succeeding, View.reset]
    rw [hin]
    split
    · exact .refl []
    · exact .refl []
  · have hout : (w.succeeding c).conn.outBuff.content = connReqReply env junk := hcontent
    rw [hout]
    split
    · exact .refl _
    · exact .refl _

/-- The accounts of the relay a notification starts. -/
theorem Blocks.accounts (h : Blocks c junk env fds fd v (.alive w))
    (hempty : v.conn.outBuff.content = []) (hcapacity : BUFF_MIN_LEN ≤ v.conn.outBuff.capacity)
    (hphase : v.phase = some .connecting) (herror : v.conn.isErrorResponse = false)
    (hcopy : w.phase = some .copy) :
    ∃ t₁ reply t₂, Accounts c (v.history ++ t₁) reply t₂ w := by
  cases h with
  | noAddress u hnone hqueued => cases hcopy
  | pending peer rest hdial => cases hphase.symm.trans hcopy
  | established peer u x y hdial hqueued hwrote henters =>
    obtain ⟨t, hopened⟩ := hqueued.accounts hempty hcapacity
    obtain ⟨hleft, -⟩ := hqueued.succeeding (c := c) hempty hcapacity
    obtain ⟨hconn, -, huphase, -⟩ := hqueued.fields
    have huphase' : (u.succeeding c).phase = some .connecting := huphase.trans hphase
    have huerror : (u.succeeding c).conn.isErrorResponse = false := by
      change u.conn.isErrorResponse = false
      rw [hconn]
      exact herror
    have hhistory : (View.registered (v.dialed c fd env.connects none) c SOCKS5_REP_SUCCEEDED
        env.now).history = v.history ++ (dialHistory c fd v.conn.addrInfo env.connects ++
          [.access c ((v.dialed c fd env.connects none).accessCall SOCKS5_REP_SUCCEEDED
            env.now)]) := by
      simp [View.registered, View.dialed]
    rw [hhistory] at hopened
    -- entering the relay moves no byte, whether or not the reply was sent before
    rcases hwrote.entersCopy henters huphase' huerror hleft with
      ⟨relay, -, rfl⟩ | ⟨n, left, relay, hcontent, -, -, rfl⟩
    · exact ⟨_, _, _, hopened.append (u := [.enter c .copy]) rfl (.refl _) (.refl _)⟩
    · refine ⟨_, _, _, hopened.append (u := [.send c .client
        ((u.succeeding c).conn.outBuff.content.take (n + 1)), .enter c .copy])
        (by simp [View.sent]) (.refl _) ?_⟩
      simpa [View.sent, hcontent, sentTo, receivedFrom] using
        Balance.take (u.succeeding c).conn.outBuff.content (n + 1)

/-- The accounts of the relay a pending connect starts. -/
theorem Connects.accounts (h : Connects c junk env fds fd v (.alive w))
    (hempty : v.conn.outBuff.content = []) (hcapacity : BUFF_MIN_LEN ≤ v.conn.outBuff.capacity)
    (hphase : v.phase = some .connecting) (hcopy : w.phase = some .copy) :
    ∃ t₁ reply t₂, Accounts c (v.history ++ t₁) reply t₂ w := by
  cases h with
  | retried err relay hopen herr hsome hdial hrelay => cases hphase.symm.trans hcopy
  | refused v₁ u err err' hopen herr hfrom hqueued =>
    obtain ⟨-, -, huphase, -⟩ := hqueued.fields
    have hv₁ : v₁.phase = v.phase := by
      rcases hfrom with ⟨-, rfl⟩ | ⟨-, -, relay, rfl⟩
      · rfl
      · rfl
    have hconnecting : u.phase = some .connecting := huphase.trans (hv₁.trans hphase)
    cases hconnecting.symm.trans hcopy
  | established table u r relay _ hstands hrelay hqueued hwrote =>
    obtain ⟨t, hopened⟩ := hqueued.accounts hempty hcapacity
    obtain ⟨-, -, huphase, -⟩ := hqueued.fields
    obtain ⟨t', ht'⟩ := hopened.carries (hwrote.carries huphase)
    have hhistory : (View.registered (v.standing c relay) c SOCKS5_REP_SUCCEEDED
        env.now).history = v.history ++ (((if v.conn.originFd = -1 then []
          else [.established c]) ++ [.enter c .copy]) ++
            [.access c ((v.standing c relay).accessCall SOCKS5_REP_SUCCEEDED env.now)]) := by
      simp [View.registered, View.standing]
    rw [hhistory] at ht'
    exact ⟨_, _, _, ht'⟩

end Socks5d
