import Socks5d.Invariant
import Socks5d.Lib.Fifo

/-!
# The stream towards the client

Every byte a client is sent was queued for it, in order, whatever phase the connection is in:
each callback accounts for `out_buff` by the observations it adds. Outside the relay phase these
observations never concern the origin.
-/

namespace Socks5d

open Fifo

/-- The bytes received from one side. -/
def receivedFrom (side : Side) (history : List Obs) : List UInt8 :=
  history.flatMap fun
    | .recv _ side' bytes => if side' = side then bytes else []
    | _ => []

/-- The bytes one side was sent. -/
def sentTo (side : Side) (history : List Obs) : List UInt8 :=
  history.flatMap fun
    | .send _ side' bytes => if side' = side then bytes else []
    | _ => []

/-- The bytes put into `out_buff`: replies and what the origin sends. -/
def outgoing (history : List Obs) : List UInt8 :=
  history.flatMap fun
    | .queued _ _ bytes => bytes
    | .recv _ .origin bytes => bytes
    | _ => []

/-- An observation of traffic with the origin. -/
def Obs.isRelay : Obs → Bool
  | .recv _ .origin _ | .send _ .origin _ | .ended _ .origin => true
  | _ => false

section Projections

variable (side : Side) (h t : List Obs)

/-- What was received in two histories, one after the other. -/
@[simp] theorem receivedFrom_append :
    receivedFrom side (h ++ t) = receivedFrom side h ++ receivedFrom side t := List.flatMap_append

/-- What was sent in two histories, one after the other. -/
@[simp] theorem sentTo_append : sentTo side (h ++ t) = sentTo side h ++ sentTo side t :=
  List.flatMap_append

/-- What two histories, one after the other, put into `out_buff`. -/
@[simp] theorem outgoing_append : outgoing (h ++ t) = outgoing h ++ outgoing t :=
  List.flatMap_append

end Projections

/-- The history a callback leaves. -/
def Result.history : Result → List Obs
  | .alive w => w.history
  | .gone history => history

/-- A callback leaves the history it is followed by. -/
theorem Lands.history_eq {mode : Mode} {c : ConnId} {s₀ s' : Server} {r : Result}
    (h : Lands mode false c s₀ r s') : s'.history c = r.history := by
  cases r with
  | alive w =>
    have hw : s'.view c = some w := Tracks.view h
    exact (view_eq_some_iff.mp hw).2.2.2.2.2
  | gone history => exact Released.history_eq h

/-- A callback that adds observations of the given kind and accounts for `out_buff` by them. -/
def Talks (P : Obs → Prop) (v : View) (r : Result) : Prop :=
  ∃ t rest, r.history = v.history ++ t ∧ (∀ o ∈ t, P o) ∧
    Balance v.conn.outBuff.content (outgoing t) (sentTo .client t) rest ∧
    ∀ w, r = .alive w → w.conn.outBuff.content = rest

/-- What a callback may note before the relay. -/
def Obs.Early (o : Obs) : Prop := o.isRelay = false

/-- The stream towards a client from its acceptance on. -/
structure View.Streams (v : View) : Prop where
  balance : Balance [] (outgoing v.history) (sentTo .client v.history) v.conn.outBuff.content
  early : v.phase ≠ some .copy → ∀ o ∈ v.history, o.Early

/-- What a callback may note without receiving anything, involving the origin, or starting or
delivering a resolution. -/
def Obs.Local : Obs → Prop
  | .recv _ _ _ | .send _ .origin _ | .ended _ .origin | .request _ | .notified _ => False
  | _ => True

/-- An observation that neither starts nor delivers a resolution. -/
def Obs.Settled : Obs → Prop
  | .request _ | .notified _ => False
  | _ => True

/-- A local observation concerns no resolution. -/
theorem Obs.Local.settled {o : Obs} (h : o.Local) : o.Settled := by
  unfold Obs.Settled
  split
  · cases h
  · cases h
  · trivial

/-- A local observation concerns no origin. -/
theorem Obs.Local.early {o : Obs} (h : o.Local) : o.Early := by
  unfold Obs.Early Obs.isRelay
  split
  · cases h
  · cases h
  · cases h
  · rfl

variable {P : Obs → Prop} {s : Server} {c : ConnId} {v w u : View} {e : Event} {junk : Memory}
  {fds : ℕ → Item} {out : SendOutcome} {r : Result} {env : Env} {fd : ℕ}

namespace Talks

/-- Observations that move no byte, with `out_buff` as it was. -/
theorem of_silent {t : List Obs} (hhistory : r.history = v.history ++ t) (hP : ∀ o ∈ t, P o)
    (hin : outgoing t = []) (hout : sentTo .client t = [])
    (hbuff : ∀ w, r = .alive w → w.conn.outBuff = v.conn.outBuff) : Talks P v r := by
  refine ⟨t, v.conn.outBuff.content, hhistory, hP, ?_, fun w hw => by rw [hbuff w hw]⟩
  rw [hin, hout]
  exact .refl _

/-- Doing nothing moves no byte. -/
theorem refl (v : View) : Talks P v (.alive v) :=
  of_silent (t := []) (by simp [Result.history]) (by simp) rfl rfl (by simp)

/-- What one part of a callback leaves in `out_buff` is what the next one finds there. -/
theorem trans (h : Talks P v (.alive w)) (h' : Talks P w r) : Talks P v r := by
  obtain ⟨t, rest, ht, hP, hb, hrest⟩ := h
  obtain ⟨t', rest', ht', hP', hb', hrest'⟩ := h'
  refine ⟨t ++ t', rest', ?_, ?_, ?_, hrest'⟩
  · have hw : w.history = v.history ++ t := ht
    rw [ht', hw, List.append_assoc]
  · intro o ho
    rcases List.mem_append.mp ho with ho | ho
    · exact hP o ho
    · exact hP' o ho
  · rw [outgoing_append, sentTo_append]
    rw [hrest w rfl] at hb'
    exact hb.trans hb'

/-- A callback may be said to note more than it does. -/
theorem mono {Q : Obs → Prop} (h : Talks P v r) (himp : ∀ o, P o → Q o) : Talks Q v r := by
  obtain ⟨t, rest, ht, hP, hrest⟩ := h
  exact ⟨t, rest, ht, fun o ho => himp o (hP o ho), hrest⟩

/-- A change of the view that the stream does not see. -/
theorem of_eq (hhistory : w.history = v.history) (hbuff : w.conn.outBuff = v.conn.outBuff) :
    Talks P v (.alive w) :=
  of_silent (t := []) (by simp [Result.history, hhistory]) (by simp) rfl rfl
    (by rintro _ ⟨⟩; exact hbuff)

end Talks

/-- A reply that is queued waits behind what `out_buff` holds. -/
theorem Queued.talks {kind : ReplyKind} {bytes : List UInt8} (h : Queued c kind bytes v w) :
    Talks Obs.Local v (.alive w) := by
  cases h with
  | queued buff hfit hcontent hcapacity hspace =>
    refine ⟨[.queued c kind bytes], v.conn.outBuff.content ++ bytes, rfl, by simp [Obs.Local], ?_, ?_⟩
    · simpa [outgoing, sentTo] using Balance.put v.conn.outBuff.content bytes
    · rintro _ ⟨⟩
      exact hcontent
  | dropped hfull => exact .refl _

/-- Resetting `in_buff` moves no byte towards the client. -/
theorem talks_reset (v : View) (c : ConnId) : Talks Obs.Local v (.alive (v.reset c)) := by
  by_cases hempty : v.conn.inBuff.content = []
  · exact .of_eq (by simp [View.reset, hempty]) rfl
  · refine .of_silent (t := [.discarded c v.conn.inBuff.content]) ?_ (by simp [Obs.Local]) rfl rfl (by rintro _ ⟨⟩; rfl)
    simp [Result.history, View.reset, hempty]

/-- Bytes the client accepts leave `out_buff` from the front. -/
theorem talks_sent (n : ℕ) {left : Buffer}
    (hcontent : left.content = v.conn.outBuff.content.drop (n + 1)) :
    Talks Obs.Local v (.alive (v.sent c n left)) := by
  refine ⟨[.send c .client (v.conn.outBuff.content.take (n + 1))],
    v.conn.outBuff.content.drop (n + 1), rfl, by simp [Obs.Local], ?_, ?_⟩
  · simpa [outgoing, sentTo] using Balance.take v.conn.outBuff.content (n + 1)
  · rintro _ ⟨⟩
    simp [View.sent, hcontent]

/-- Leaving a phase keeps `out_buff`. -/
theorem outBuff_depart (w : View) (state : Socks5State) :
    (w.depart state).conn.outBuff = w.conn.outBuff := by
  cases state <;> rfl

/-- Moving on once the reply was sent moves no byte. -/
theorem Advance.talks (h : Advance c junk fds w r) : Talks Obs.Local w r := by
  cases h with
  | refused state _ _ _ =>
    exact .of_silent (t := [.enter c .error, .released c]) rfl (by simp [Obs.Local])
      rfl rfl (by simp)
  | auth p _ _ _ _ =>
    exact .of_silent (t := [.enter c .auth]) rfl (by simp [Obs.Local]) rfl rfl
      (by rintro _ ⟨⟩; rfl)
  | connectionReq state _ _ _ =>
    exact .of_silent (t := [.enter c .connectionReq]) rfl (by simp [Obs.Local]) rfl
      rfl (by rintro _ ⟨⟩; exact outBuff_depart w state)
  | copy state relay _ _ _ _ =>
    exact .of_silent (t := [.enter c .copy]) rfl (by simp [Obs.Local]) rfl rfl
      (by rintro _ ⟨⟩; exact outBuff_depart w state)

/-- A write to the client takes from the front of `out_buff` what is sent. -/
theorem Wrote.talks (h : Wrote c junk fds v out r) : Talks Obs.Local v r := by
  cases h with
  | idle hempty => exact .of_eq rfl rfl
  | blocked hleft hout => exact .refl v
  | broken err hleft hout he =>
    exact .of_silent (t := [.released c]) rfl (by simp [Obs.Local]) rfl rfl (by simp)
  | relayed n left hleft hout hphase hcontent hcapacity => exact talks_sent n hcontent
  | advanced n left r hleft hout hcontent hcapacity hadvance =>
    exact (talks_sent n hcontent).trans hadvance.talks

/-- Reading a greeting queues and sends the replies to it. -/
theorem HandshakeReads.talks {sends : List SendOutcome} {malformed : Bool}
    (h : HandshakeReads c junk v sends w malformed) : Talks Obs.Local v (.alive w) := by
  induction h with
  | idle v sends hempty => exact .refl v
  | fed v w sends malformed p p' byte state inBuff _ _ _ _ _ _ ih =>
    exact Talks.trans (.of_eq rfl rfl) ih
  | malformed v sends p p' byte inBuff _ _ _ _ => exact .of_eq rfl rfl
  | replied table v w u x sends malformed p p' byte inBuff _ _ _ _ hqueued hwrote _ ih =>
    have hgreeted : Talks Obs.Local v (.alive (v.greeted inBuff p')) := .of_eq rfl rfl
    have hanswering : Talks Obs.Local w (.alive (w.answering p'.refuses)) := .of_eq rfl rfl
    exact ((hgreeted.trans hqueued.talks).trans (hanswering.trans hwrote.talks)).trans ih

/-- Reading credentials queues and sends the verdict on them. -/
theorem AuthReads.talks {users : UserTable} {malformed : Bool}
    (h : AuthReads c users junk out v w malformed) : Talks Obs.Local v (.alive w) := by
  induction h with
  | idle v hempty => exact .refl v
  | fed v w malformed p p' byte state inBuff _ _ _ _ _ _ ih =>
    exact Talks.trans (.of_eq rfl rfl) ih
  | malformed v p p' byte inBuff _ _ _ _ => exact .of_eq rfl rfl
  | judged table v w u p p' byte inBuff _ _ _ _ hqueued hwrote =>
    have hlooked : Talks Obs.Local v
        (.alive ((v.subnegotiated inBuff p').lookedUp c (p'.accepted users))) :=
      .of_silent (t := [.credentials c (p'.accepted users)]) rfl (by simp [Obs.Local])
        rfl rfl (by rintro _ ⟨⟩; rfl)
    have hjudged : Talks Obs.Local w
        (.alive (w.judged c (p'.accepted users) p'.name)) :=
      (talks_reset w c).trans (.of_eq rfl rfl)
    exact (hlooked.trans hqueued.talks).trans (hjudged.trans hwrote.talks)

/-- Reading a request moves no byte towards the client. -/
theorem ConnReqReads.talks {scan : RequestScan} (h : ConnReqReads v w scan) :
    Talks Obs.Local v (.alive w) := by
  induction h with
  | more v hempty => exact .refl v
  | fed v w scan p p' byte state inBuff _ _ _ _ _ _ ih => exact Talks.trans (.of_eq rfl rfl) ih
  | malformed v p p' byte inBuff _ _ _ _ => exact .of_eq rfl rfl
  | complete v p p' byte inBuff _ _ _ _ => exact .of_eq rfl rfl

/-- A malformed message ends the connection, which moves no byte. -/
theorem Talks.finish {malformed : Bool} (h : Talks Obs.Local v (.alive w)) :
    Talks Obs.Local v (w.finish c malformed) := by
  cases malformed with
  | false => exact h
  | true =>
    exact h.trans (.of_silent (t := [.enter c .error, .released c]) rfl
      (by simp [Obs.Local]) rfl rfl (by simp [View.finish]))

/-- Starting the greeting moves no byte. -/
theorem talks_begun (v : View) (c : ConnId) : Talks Obs.Local v (.alive (v.begun c)) := by
  unfold View.begun
  split
  · exact .refl v
  · exact .of_silent (t := [.enter c .handshake]) rfl (by simp [Obs.Local]) rfl
      rfl (by rintro _ ⟨⟩; rfl)

/-- The read handler of the greeting talks. -/
theorem Greets.talks (h : Greets c junk env v r) : Talks Obs.Local v r := by
  cases h with
  | reads w malformed hreads => exact ((talks_begun v c).trans hreads.talks).finish

/-- The read handler of the sub-negotiation talks. -/
theorem Authenticates.talks {users : UserTable} (h : Authenticates c users junk env v r) :
    Talks Obs.Local v r := by
  cases h with
  | reads w malformed hreads => exact hreads.talks.finish

/-- The read handler of the request talks. -/
theorem Requests.talks (h : Requests c junk env v r) : Talks Obs.Early v r := by
  have hreading : ∀ {w : View} {scan : RequestScan}, ConnReqReads v w scan →
      Talks Obs.Early v (.alive w) := fun hreads => hreads.talks.mono fun _ ho => ho.early
  have hrequested : ∀ (w : View) (p : ConnReqParser),
      Talks Obs.Early w (.alive (w.requested c p env.inetNtop)) := fun w p =>
    .of_silent (t := [.request c]) rfl (by simp [Obs.Early, Obs.isRelay]) rfl rfl
      (by rintro _ ⟨⟩; rfl)
  have hawaiting : ∀ w : View, Talks Obs.Early w (.alive (w.awaiting c)) := fun w =>
    .of_silent (t := [.enter c .connecting]) rfl (by simp [Obs.Early, Obs.isRelay]) rfl rfl
      (by rintro _ ⟨⟩; rfl)
  cases h with
  | more w hreads => exact hreading hreads
  | malformed w hreads =>
    exact (hreading hreads).trans (.of_silent (t := [.enter c .error, .released c]) rfl
      (by simp [Obs.Early, Obs.isRelay]) rfl rfl (by simp))
  | unsupported w u p hreads hcmd hqueued =>
    exact ((hreading hreads).trans (hqueued.talks.mono fun _ ho => ho.early)).trans (.of_eq rfl rfl)
  | noThread w p hreads hcmd hatyp hthread =>
    exact (hreading hreads).trans (.of_silent (t := [.request c, .enter c .error, .released c]) rfl
      (by simp [Obs.Early, Obs.isRelay]) rfl rfl (by simp))
  | threaded w p hreads hcmd hatyp hthread =>
    exact ((hreading hreads).trans (hrequested w p)).trans
      (Talks.trans (.of_eq rfl rfl) (hawaiting _))
  | looked w p hreads hcmd hatyp =>
    have hresolved : ∀ w : View, Talks Obs.Early w (.alive (w.resolved c env.resolved)) :=
      fun w => .of_silent (t := [.lookup c w.conn.dstAddress w.conn.dstPort]) rfl
        (by simp [Obs.Early, Obs.isRelay]) rfl rfl (by rintro _ ⟨⟩; rfl)
    exact (((hreading hreads).trans (hrequested w p)).trans (hresolved _)).trans (hawaiting _)

/-- Receiving from the client puts nothing into `out_buff`. -/
theorem talks_received (v : View) (c : ConnId) (buff : Buffer) (bytes : List UInt8) :
    Talks (· = .recv c .client bytes) v (.alive (v.received c buff bytes)) :=
  .of_silent (t := [.recv c .client bytes]) rfl (by simp) rfl rfl (by rintro _ ⟨⟩; rfl)

/-- A client read talks as the read handler of its phase does. -/
theorem ClientRead.talks {Q : View → Result → Prop} (h : ClientRead c v env Q r)
    (hrecv : ∀ bytes, P (.recv c .client bytes)) (hlocal : ∀ o, Obs.Local o → P o)
    (hread : ∀ buff bytes, Q (v.received c buff bytes) r → Talks P (v.received c buff bytes) r) :
    Talks P v r := by
  cases h with
  | full hfull => exact .of_eq rfl rfl
  | ended hspace _ =>
    exact (Talks.of_silent (t := [.ended c .client, .released c]) rfl (by simp [Obs.Local]) rfl rfl
      (by simp)).mono hlocal
  | blocked hspace _ => exact .refl v
  | broken err hspace _ he =>
    exact (Talks.of_silent (t := [.released c]) rfl (by simp [Obs.Local]) rfl rfl
      (by simp)).mono hlocal
  | handled first rest buff r hspace _ hcontent hcapacity hQ =>
    exact ((talks_received v c buff _).mono fun _ ho => ho ▸ hrecv _).trans (hread _ _ hQ)

/-- A write to the origin moves no byte towards the client. -/
theorem CopyWrote.talks (h : CopyWrote c v out r) : Talks Obs.Settled v r := by
  cases h with
  | idle hempty => exact .of_eq rfl rfl
  | blocked hleft hout => exact .refl v
  | delivered n left hleft hout hcontent hcapacity =>
    exact .of_silent (t := [.send c .origin (v.conn.inBuff.content.take (n + 1))]) rfl (by simp [Obs.Settled])
      rfl rfl (by rintro _ ⟨⟩; rfl)
  | broken hleft hout =>
    exact .of_silent (t := [.released c]) rfl (by simp [Obs.Settled]) rfl rfl (by simp)

/-- Passing on what the client sent may write to it as well. -/
theorem CopyRead.talks (h : CopyRead c s v out r) : Talks Obs.Settled v r := by
  cases h with
  | unregistered hunreg =>
    exact .of_silent (t := [.enter c .error, .released c]) rfl (by simp [Obs.Settled]) rfl rfl (by simp)
  | relayed r hreg hout hwrote => exact Talks.trans (.of_eq rfl rfl) hwrote.talks

/-- What the origin sent is put into `out_buff` and sent from there. -/
theorem CopyReceived.talks (h : CopyReceived c junk v env r) : Talks Obs.Settled v r := by
  cases h with
  | full hfull => exact .of_eq rfl rfl
  | received table first rest buff r hspace hrecv hcontent hcapacity hwrote =>
    have hreceived : Talks Obs.Settled v (.alive { v with
        conn := { v.conn with outBuff := buff }
        interest := OP_WRITE
        history := v.history ++
          [.recv c .origin ((first :: rest).take v.conn.outBuff.space)] }) := by
      refine ⟨[.recv c .origin ((first :: rest).take v.conn.outBuff.space)],
        v.conn.outBuff.content ++ (first :: rest).take v.conn.outBuff.space, rfl, by simp [Obs.Settled], ?_, ?_⟩
      · simpa [outgoing, sentTo] using
          Balance.put v.conn.outBuff.content ((first :: rest).take v.conn.outBuff.space)
      · rintro _ ⟨⟩
        exact hcontent
    exact hreceived.trans (hwrote.talks.mono fun _ ho => ho.settled)
  | ended hspace hrecv =>
    exact .of_silent (t := [.ended c .origin]) rfl (by simp [Obs.Settled]) rfl rfl (by rintro _ ⟨⟩; rfl)
  | blocked hspace hrecv => exact .refl v
  | broken err hspace hrecv he =>
    exact .of_silent (t := [.released c]) rfl (by simp [Obs.Settled]) rfl rfl (by simp)

/-- A walk over the resolved addresses moves no byte. -/
theorem dialHistory_silent (c : ConnId) (fd : ℕ) (addrs : List AddrInfo)
    (outcomes : List ConnectOutcome) :
    (∀ o ∈ dialHistory c fd addrs outcomes, o.Local) ∧
      outgoing (dialHistory c fd addrs outcomes) = [] ∧
      ∀ side, sentTo side (dialHistory c fd addrs outcomes) = [] ∧
        receivedFrom side (dialHistory c fd addrs outcomes) = [] := by
  induction addrs generalizing outcomes with
  | nil => exact ⟨by simp [dialHistory], rfl, fun _ => ⟨rfl, rfl⟩⟩
  | cons rp next ih =>
    simp only [dialHistory]
    cases outcomes.headD (.failed .econnrefused) with
    | socketFails err => exact ⟨by simp [Obs.Local], rfl, fun _ => ⟨rfl, rfl⟩⟩
    | connected => exact ⟨by simp [Obs.Local], rfl, fun _ => ⟨rfl, rfl⟩⟩
    | failed err =>
      by_cases he : err = .einprogress
      · simp only [he, if_true]
        exact ⟨by simp [Obs.Local], rfl, fun _ => ⟨rfl, rfl⟩⟩
      · obtain ⟨hearly, hout, hsides⟩ := ih outcomes.tail
        simp only [he, if_false]
        refine ⟨?_, hout, hsides⟩
        intro o ho
        simp only [List.mem_cons] at ho
        rcases ho with rfl | rfl | ho
        · trivial
        · trivial
        · exact hearly o ho

/-- Trying the resolved addresses moves no byte. -/
theorem talks_dialed (v : View) (c : ConnId) (fd : ℕ) (outcomes : List ConnectOutcome)
    (relay : Option (FdHandler × FdInterest)) :
    Talks Obs.Local v (.alive (v.dialed c fd outcomes relay)) := by
  obtain ⟨hearly, hout, hsides⟩ := dialHistory_silent c fd v.conn.addrInfo outcomes
  exact .of_silent (t := dialHistory c fd v.conn.addrInfo outcomes) rfl hearly hout
    (hsides .client).1 (by rintro _ ⟨⟩; rfl)

/-- Registering an access moves no byte. -/
theorem talks_registered (v : View) (c : ConnId) (status : UInt8) (now : ℕ) :
    Talks Obs.Local v (.alive (v.registered c status now)) :=
  .of_silent (t := [.access c (v.accessCall status now)]) rfl (by simp [Obs.Local])
    rfl rfl (by rintro _ ⟨⟩; rfl)

/-- Getting ready to send the success reply moves no byte. -/
theorem talks_succeeding (w : View) (c : ConnId) :
    Talks Obs.Local w (.alive (w.succeeding c)) :=
  Talks.trans (w := { w with interest := OP_WRITE }) (.of_eq rfl rfl) (talks_reset _ c)

/-- Entering the relay moves no byte. -/
theorem EntersCopy.talks (h : EntersCopy c fds v w) : Talks Obs.Local v (.alive w) := by
  cases h with
  | already hphase => exact .refl v
  | jumps relay hphase hrelay =>
    exact .of_silent (t := [.enter c .copy]) rfl (by simp [Obs.Local]) rfl rfl
      (by rintro _ ⟨⟩; rfl)

/-- What a notification leads to talks. -/
theorem Blocks.talks (h : Blocks c junk env fds fd v r) : Talks Obs.Local v r := by
  cases h with
  | noAddress w hnone hqueued =>
    exact ((talks_registered v c _ env.now).trans hqueued.talks).trans
      (.of_silent (t := [.enter c .connectionReq]) rfl (by simp [Obs.Local]) rfl rfl
        (by rintro _ ⟨⟩; rfl))
  | pending peer rest hdial =>
    exact (talks_dialed v c fd env.connects (some (.connectingHandler, OP_WRITE))).trans
      (.of_eq rfl rfl)
  | established peer w x y hdial hqueued hwrote hcopy =>
    have hwalk := (talks_dialed v c fd env.connects none).trans
      (talks_registered _ c SOCKS5_REP_SUCCEEDED env.now)
    exact ((hwalk.trans hqueued.talks).trans (talks_succeeding w c)).trans
      (hwrote.talks.trans hcopy.talks)

/-- What the end of a pending connect leads to talks. -/
theorem Connects.talks (h : Connects c junk env fds fd v r) : Talks Obs.Local v r := by
  cases h with
  | retried err relay hopen herr hsome hdial hrelay => exact talks_dialed v c fd env.connects relay
  | refused v₁ w err err' hopen herr hfrom hqueued =>
    have hwalk : Talks Obs.Local v (.alive v₁) := by
      rcases hfrom with ⟨-, rfl⟩ | ⟨-, -, relay, rfl⟩
      · exact .refl _
      · exact talks_dialed v c fd env.connects relay
    exact ((hwalk.trans (talks_registered v₁ c _ env.now)).trans hqueued.talks).trans
      (.of_eq rfl rfl)
  | established table w r relay hphase hstands hrelay hqueued hwrote =>
    have hstanding : Talks Obs.Local v (.alive (v.standing c relay)) := by
      refine .of_silent (t := (if v.conn.originFd = -1 then [] else [.established c]) ++
        [.enter c .copy]) rfl ?_ ?_ ?_ (by rintro _ ⟨⟩; rfl)
      · split <;> simp [Obs.Local]
      · split <;> rfl
      · split <;> rfl
    exact ((hstanding.trans (talks_registered _ c _ env.now)).trans hqueued.talks).trans
      ((talks_succeeding w c).trans hwrote.talks)

/-- Every reaction accounts for `out_buff`; before the relay it involves no origin traffic. -/
theorem Reaction.talks (h : Reaction s c v e r) :
    Talks (fun o => v.phase = some .copy ∨ o.Early) v r := by
  have hearly : ∀ o : Obs, o.Early → v.phase = some .copy ∨ o.Early := fun o ho => .inr ho
  have hlocal : ∀ o : Obs, o.Local → v.phase = some .copy ∨ o.Early := fun o ho => .inr ho.early
  have hrelaying : v.phase = some .copy → Talks Obs.Settled v r →
      Talks (fun o => v.phase = some .copy ∨ o.Early) v r :=
    fun hphase ht => ht.mono fun _ _ => .inl hphase
  cases h with
  | greets fd env r hitem hready hphase hread =>
    exact hread.talks (fun _ => .inr rfl) hlocal fun _ _ hg => hg.talks.mono hlocal
  | authenticates fd env r hitem hready hphase hread =>
    exact hread.talks (fun _ => .inr rfl) hlocal fun _ _ ha => ha.talks.mono hlocal
  | requests fd env r hitem hready hphase hread =>
    exact hread.talks (fun _ => .inr rfl) hlocal fun _ _ hq => hq.talks.mono hearly
  | relays fd env r hitem hready hphase hread =>
    exact hrelaying hphase (hread.talks (fun _ => trivial) (fun _ ho => ho.settled)
      fun _ _ hc => hc.talks)
  | sends table fd env r hitem hready hwrote => exact hwrote.talks.mono hlocal
  | blocks env r hphase hwaiting hblocks =>
    have hnotified : Talks Obs.Early v (.alive (v.notified c)) :=
      .of_silent (t := [.notified c]) rfl (by simp [Obs.Early, Obs.isRelay]) rfl rfl
        (by rintro _ ⟨⟩; rfl)
    exact (hnotified.trans (hblocks.talks.mono fun _ ho => ho.early)).mono hearly
  | resolves env hphase hwaiting =>
    exact (Talks.of_silent (t := [.lookup c v.conn.dstAddress v.conn.dstPort]) rfl
      (by simp [Obs.Local]) rfl rfl (by rintro _ ⟨⟩; rfl)).mono hlocal
  | connects fd env r i hitem hset hphase hconnects => exact hconnects.talks.mono hlocal
  | receives fd env r i horigin hrelay hready hphase hreceived =>
    exact hrelaying hphase hreceived.talks
  | delivers fd env r i horigin hrelay hready hphase hwrote => exact hrelaying hphase hwrote.talks

/-- A client is sent exactly what was queued for it, less what `out_buff` still holds. -/
theorem ReachableUnder.streams {guard : Server → Event → Prop} (h : ReachableUnder guard s)
    (hview : s.view c = some v) : v.Streams := by
  refine h.views (P := fun _ v => v.Streams) ?_ ?_ c v hview
  · intro c v hfresh
    refine ⟨?_, ?_⟩
    · rw [hfresh.history, hfresh.outBuff]
      exact .refl []
    · simp [hfresh.history]
  · intro s e c v w hreach _ hview hstreams hreaction
    obtain ⟨t, rest, ht, hP, hbalance, hrest⟩ := hreaction.talks
    have hw : w.history = v.history ++ t := ht
    refine ⟨?_, ?_⟩
    · rw [hw, outgoing_append, sentTo_append, hrest w rfl]
      exact hstreams.balance.trans hbalance
    · intro hphase o ho
      have hbefore : v.phase ≠ some .copy := fun hcopy =>
        hphase ((hreaction.progress hreach.reachable.inv hview).2.copy_of_copy hcopy)
      rw [hw] at ho
      rcases List.mem_append.mp ho with ho | ho
      · exact hstreams.early hbefore o ho
      · exact (hP o ho).resolve_left hbefore

end Socks5d
