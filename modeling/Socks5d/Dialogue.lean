import Socks5d.Authorization
import Socks5d.Lib.Words
import Socks5d.Reuse

/-!
# The order of a dialogue

What one connection may do, as a machine that reads its milestones: a method, a verdict on
credentials where they were asked for, a request, a connection to the origin or none, an entry in
the register, the reply with the same status, and the relay or the end. The server follows it in
every run in which no event of a pending connect arrives late and no phase is left by sending the
rest of an earlier reply; where the rest may be sent, the machine of the hurried dialogue allows
the two shortcuts this takes.
-/

namespace Socks5d

open GuardedRun Words

/-- How far a dialogue came. -/
inductive Stage
  /-- No method was chosen yet. -/
  | greeting
  /-- Credentials were asked for. -/
  | authenticating
  | judged (authOk : Bool)
  | requesting
  /-- The command was refused. -/
  | unsupported
  | accepted
  | connecting
  /-- A connection to the origin stands. -/
  | standing
  /-- The relay was entered, and the request not answered yet. -/
  | early
  | recorded (copying : Bool) (status : UInt8)
  | answered (status : UInt8)
  /-- The request was refused for want of an address, in the phase it was read in. -/
  | returned
  | relaying
  | failing
  | closed
  deriving DecidableEq

/-- Whether phases may be left by sending the rest of an earlier reply. -/
inductive Pace
  | calm
  | hurried
  deriving DecidableEq

/-- The milestones a dialogue goes on with. In a hurry the rest of a reply may stand for a verdict
on credentials, or for a request and everything up to the relay. -/
def Stage.next (pace : Pace) : Stage → Obs → Option Stage
  | .greeting, .enter _ .auth => some .authenticating
  | .greeting, .enter _ .connectionReq => some .requesting
  | .greeting, .enter _ .error => some .failing
  | .greeting, .released _ => some .closed
  | .authenticating, .credentials _ authOk => some (.judged authOk)
  | .authenticating, .enter _ .connectionReq => if pace = .hurried then some .requesting else none
  | .authenticating, .enter _ .error => some .failing
  | .authenticating, .released _ => some .closed
  | .judged authOk, .enter _ .connectionReq =>
    if authOk = true ∨ pace = .hurried then some .requesting else none
  | .judged _, .enter _ .error => some .failing
  | .judged _, .released _ => some .closed
  | .requesting, .queued _ (.connReq status) _ =>
    if status = SOCKS5_REP_COMMAND_NOT_SUPPORTED then some .unsupported else none
  | .requesting, .request _ => some .accepted
  | .requesting, .enter _ .copy => if pace = .hurried then some .relaying else none
  | .requesting, .enter _ .error => some .failing
  | .requesting, .released _ => some .closed
  | .unsupported, .enter _ .error => some .failing
  | .unsupported, .released _ => some .closed
  | .accepted, .enter _ .connecting => some .connecting
  | .accepted, .enter _ .error => some .failing
  | .connecting, .established _ => some .standing
  | .connecting, .access _ call =>
    if call.statusCode = SOCKS5_REP_SUCCEEDED then none else some (.recorded false call.statusCode)
  | .standing, .enter _ .copy => some .early
  | .standing, .access _ call => some (.recorded false call.statusCode)
  | .early, .access _ call =>
    if call.statusCode = SOCKS5_REP_SUCCEEDED then some (.recorded true call.statusCode) else none
  | .recorded copying status, .queued _ (.connReq sent) _ =>
    if sent = status then some (if copying then .relaying else .answered status) else none
  | .answered status, .enter _ .copy =>
    if status = SOCKS5_REP_SUCCEEDED then some .relaying else none
  | .answered status, .enter _ .connectionReq =>
    if status = SOCKS5_REP_HOST_UNREACHABLE then some .returned else none
  | .answered status, .enter _ .error =>
    if status = SOCKS5_REP_SUCCEEDED then none else some .failing
  | .answered status, .released _ =>
    if status = SOCKS5_REP_SUCCEEDED then none else some .closed
  | .returned, .enter _ .error => some .failing
  | .returned, .released _ => some .closed
  | .relaying, .enter _ .error => some .failing
  | .relaying, .released _ => some .closed
  | .failing, .released _ => some .closed
  | _, _ => none

/-- The stage of a connection that is between two callbacks. -/
def Stage.Fits (v : View) : Stage → Prop
  | .greeting => v.phase = none ∨ v.phase = some .handshake
  | .authenticating => v.phase = some .auth
  | .judged _ => v.phase = some .auth ∧ v.conn.outBuff.content ≠ []
  | .requesting => v.phase = some .connectionReq ∧ v.conn.isErrorResponse = false
  | .unsupported | .returned => v.phase = some .connectionReq ∧ v.conn.isErrorResponse = true
  | .connecting => v.phase = some .connecting ∧ v.conn.isErrorResponse = false
  | .answered status => status ≠ SOCKS5_REP_SUCCEEDED ∧ v.conn.isErrorResponse = true ∧
      v.phase = some .connecting
  | .relaying => v.phase = some .copy
  | .accepted | .standing | .early | .recorded _ _ | .failing | .closed => False

/-- The history of a connection makes a dialogue up to this stage. -/
def Dialogue (pace : Pace) (history : List Obs) (stage : Stage) : Prop :=
  follow (Stage.next pace) .greeting (milestones history) = some stage

/-- The outcome of a callback goes on with the dialogue. -/
def Result.Continues (pace : Pace) : Result → Prop
  | .alive v => ∃ stage, Dialogue pace v.history stage ∧ stage.Fits v
  | .gone history => Dialogue pace history .closed

variable {s s' : Server} {c : ConnId} {v w : View} {e : Event} {r : Result} {stage stage' : Stage}
  {history t : List Obs} {pace : Pace}

/-- A dialogue that was reached goes on with what is noted next. -/
theorem Dialogue.extend (h : Dialogue pace v.history stage)
    (hmarks : milestones history = milestones v.history ++ t)
    (ht : follow (Stage.next pace) stage t = some stage') : Dialogue pace history stage' := by
  rw [Dialogue, hmarks, follow_append_of h]
  exact ht

/-- A dialogue goes on within the same stage. -/
theorem Dialogue.quiet (h : Dialogue pace v.history stage)
    (hmarks : milestones w.history = milestones v.history) : Dialogue pace w.history stage := by
  rw [Dialogue, hmarks]
  exact h

section Verdicts

/-- What a word says of the credentials, at the stages where it matters. -/
def Stage.Hears (word : List Obs) : Stage → Prop
  | .greeting | .authenticating => ∀ c authOk, Obs.credentials c authOk ∉ word
  | .judged verdict => ∀ c authOk, Obs.credentials c authOk ∈ word → authOk = verdict
  | _ => True

/-- Each letter keeps what is said of the credentials. -/
theorem Stage.Hears.note {word : List Obs} {o : Obs} (h : stage.Hears word)
    (hnext : stage.next pace o = some stage') : stage'.Hears (word ++ [o]) := by
  cases stage' with
  | greeting =>
    exfalso
    revert hnext
    fun_cases Stage.next pace stage o with
    | case32 copying => cases copying <;> simp
    | _ => simp
  | authenticating =>
    have hfirst : stage = .greeting ∧ ∃ c, o = .enter c .auth := by
      revert hnext
      fun_cases Stage.next pace stage o with
      | case32 copying => cases copying <;> simp
      | _ => simp
    obtain ⟨rfl, c, rfl⟩ := hfirst
    intro d authOk hmem
    rcases List.mem_append.mp hmem with hmem | hmem
    · exact h d authOk hmem
    · simp at hmem
  | judged verdict =>
    have hfirst : stage = .authenticating ∧ ∃ c, o = .credentials c verdict := by
      revert hnext
      fun_cases Stage.next pace stage o with
      | case32 copying => cases copying <;> simp
      | _ => simp
    obtain ⟨rfl, c, rfl⟩ := hfirst
    intro d authOk hmem
    rcases List.mem_append.mp hmem with hmem | hmem
    · exact absurd hmem (h d authOk)
    · simp only [List.mem_singleton, Obs.credentials.injEq] at hmem
      exact hmem.2
  | _ => trivial

/-- What a dialogue says of the credentials. -/
theorem Dialogue.hears (h : Dialogue pace history stage) : stage.Hears (milestones history) :=
  follow_invariant (I := fun word stage => stage.Hears word) (by simp [Stage.Hears])
    (fun _ _ _ _ ht hnext => ht.note hnext) h

end Verdicts

section Fits

variable (hfits : stage.Fits v)
include hfits

theorem Stage.Fits.of_greeting (hphase : v.phase = none ∨ v.phase = some .handshake) :
    stage = .greeting := by
  cases stage with
  | greeting => rfl
  | _ => rcases hphase with hphase | hphase <;> simp [Stage.Fits, hphase] at hfits

theorem Stage.Fits.of_auth (hphase : v.phase = some .auth) :
    stage = .authenticating ∨ (∃ authOk, stage = .judged authOk) ∧ v.conn.outBuff.content ≠ [] := by
  cases stage with
  | authenticating => exact .inl rfl
  | judged authOk => exact .inr ⟨⟨authOk, rfl⟩, hfits.2⟩
  | _ => simp [Stage.Fits, hphase] at hfits

theorem Stage.Fits.of_request (hphase : v.phase = some .connectionReq)
    (herror : v.conn.isErrorResponse = false) : stage = .requesting := by
  cases stage with
  | requesting => rfl
  | _ => simp [Stage.Fits, hphase, herror] at hfits

theorem Stage.Fits.of_connecting (hphase : v.phase = some .connecting)
    (herror : v.conn.isErrorResponse = false) : stage = .connecting := by
  cases stage with
  | connecting => rfl
  | _ => simp [Stage.Fits, hphase, herror] at hfits

/-- A callback that notes no milestone leaves its connection at the same stage. -/
theorem Stage.Fits.quiet (hphase : w.phase = v.phase ∨ v.phase = none ∧ w.phase = some .handshake)
    (herror : v.phase = some .connectionReq ∨ v.phase = some .connecting →
      w.conn.isErrorResponse = v.conn.isErrorResponse)
    (hleft : v.phase = some .auth → v.conn.outBuff.content ≠ [] → w.conn.outBuff.content ≠ []) :
    stage.Fits w := by
  rcases hphase with hsame | ⟨hnone, hhandshake⟩
  · cases stage with
    | greeting => exact hfits.imp hsame.trans hsame.trans
    | authenticating => exact hsame.trans hfits
    | judged authOk => exact ⟨hsame.trans hfits.1, hleft hfits.1 hfits.2⟩
    | requesting => exact ⟨hsame.trans hfits.1, (herror (.inl hfits.1)).trans hfits.2⟩
    | unsupported => exact ⟨hsame.trans hfits.1, (herror (.inl hfits.1)).trans hfits.2⟩
    | returned => exact ⟨hsame.trans hfits.1, (herror (.inl hfits.1)).trans hfits.2⟩
    | connecting => exact ⟨hsame.trans hfits.1, (herror (.inr hfits.1)).trans hfits.2⟩
    | answered status =>
      obtain ⟨hstatus, hrefusing, hphase⟩ := hfits
      exact ⟨hstatus, (herror (.inr hphase)).trans hrefusing, hsame.trans hphase⟩
    | relaying => exact hsame.trans hfits
    | _ => exact hfits.elim
  · obtain rfl := Stage.Fits.of_greeting hfits (.inl hnone)
    exact .inr hhandshake

end Fits

/-- What is noted of an answered request. -/
theorem follow_answers {status : UInt8} (h : Answers c status t) (hne : status ≠ SOCKS5_REP_SUCCEEDED)
    (hstage : stage = .connecting ∨ stage = .standing) :
    follow (Stage.next pace) stage t = some (.answered status) := by
  obtain ⟨call, bytes, rfl, rfl⟩ := h
  rcases hstage with rfl | rfl
  · simp [Stage.next, hne]
  · simp [Stage.next]

/-- In the sub-negotiation the request phase is entered on an accepting verdict only. -/
theorem Dialogue.passes (h : Dialogue pace v.history stage)
    (hstage : stage = .authenticating ∨ ∃ authOk, stage = .judged authOk)
    (hjudged : Obs.credentials c true ∈ v.history ∨ pace = .hurried) :
    stage.next pace (.enter c .connectionReq) = some .requesting := by
  have hheard := h.hears
  rcases hstage with rfl | ⟨authOk, rfl⟩
  · rcases hjudged with hmem | hhurried
    · exact absurd ((mem_milestones rfl).mpr hmem) (hheard c true)
    · simp [Stage.next, hhurried]
  · rcases hjudged with hmem | hhurried
    · simp [Stage.next, ← hheard c true ((mem_milestones rfl).mpr hmem)]
    · simp [Stage.next, hhurried]

/-- Every move of a dialogue is one the machine makes, unless a pending connect's event is late, or
the rest of a reply is sent though there is no hurry. -/
theorem Move.continues (h : Move s c v e r) (hfresh : ¬ StaleConnect s c v e)
    (hcalm : pace = .hurried ∨ ¬ EarlySend s c v e ∧ ¬ RestSend s c v e)
    (hdialogue : Dialogue pace v.history stage) (hfits : stage.Fits v) : r.Continues pace := by
  cases h with
  | quiet w hphase herror hmarks hleft =>
    exact ⟨stage, hdialogue.quiet hmarks, hfits.quiet hphase herror hleft⟩
  | chosen w state hphase hstate hphase' herror hmarks =>
    obtain rfl := hfits.of_greeting hphase
    rcases hstate with rfl | rfl
    · exact ⟨.authenticating, hdialogue.extend hmarks rfl, hphase'⟩
    · exact ⟨.requesting, hdialogue.extend hmarks rfl, hphase', herror⟩
  | judged w authOk hphase hphase' hmarks hidle hleft =>
    rcases hfits.of_auth hphase with rfl | ⟨-, hwaits⟩
    · exact ⟨.judged authOk, hdialogue.extend hmarks rfl, hphase', hleft⟩
    · exact absurd hidle hwaits
  | authorized w hphase hphase' herror hmarks hidle =>
    rcases hfits.of_auth hphase with rfl | ⟨-, hwaits⟩
    · exact ⟨.requesting, hdialogue.extend hmarks (by simp [Stage.next]), hphase', herror⟩
    · exact absurd hidle hwaits
  | passed w hphase hphase' herror hjudged hmarks =>
    have hjudged' : Obs.credentials c true ∈ v.history ∨ pace = .hurried := by
      rcases hjudged with hmem | hearly
      · exact .inl hmem
      · exact .inr (hcalm.resolve_right fun hcalm => hcalm.1 hearly)
    have hnext := hdialogue.passes ((hfits.of_auth hphase).imp_right And.left) hjudged'
    exact ⟨.requesting, hdialogue.extend hmarks (by simp [hnext]), hphase', herror⟩
  | unsupported w bytes hphase herror hphase' herror' hmarks =>
    obtain rfl := hfits.of_request hphase herror
    exact ⟨.unsupported, hdialogue.extend hmarks rfl, hphase', herror'⟩
  | requested w hphase herror hphase' herror' hmarks =>
    obtain rfl := hfits.of_request hphase herror
    exact ⟨.connecting, hdialogue.extend hmarks rfl, hphase', herror'⟩
  | noThread history fd env he hthread hphase herror hmarks =>
    obtain rfl := hfits.of_request hphase herror
    exact hdialogue.extend hmarks rfl
  | noAddress w t hphase herror hphase' herror' ht hmarks =>
    obtain rfl := hfits.of_connecting hphase herror
    have hne : SOCKS5_REP_HOST_UNREACHABLE ≠ SOCKS5_REP_SUCCEEDED := by decide
    rw [List.append_assoc] at hmarks
    refine ⟨.returned, hdialogue.extend hmarks ?_, hphase', herror'⟩
    rw [follow_append_of (follow_answers ht hne (.inl rfl))]
    rfl
  | relays r t history hphase herror ht hmarks hr =>
    obtain rfl := hfits.of_connecting hphase herror
    have hrelaying : Dialogue pace history .relaying := by
      obtain ⟨call, bytes, hstatus, rfl⟩ := ht
      rcases hmarks with hmarks | hmarks
      · exact hdialogue.extend hmarks (by simp [Stage.next, hstatus])
      · exact hdialogue.extend hmarks (by simp [Stage.next, hstatus])
    rcases hr with ⟨w, rfl, hcopy, hw⟩ | ⟨end_, rfl, hgone⟩
    · exact ⟨.relaying, by rw [Dialogue, hw]; exact hrelaying, hcopy⟩
    · change follow _ _ _ = _
      rw [hgone, follow_append_of hrelaying]
      rfl
  | refused w t status hphase herror hphase' herror' hstatus ht hmarks =>
    obtain rfl := hfits.of_connecting hphase herror
    refine ⟨.answered status, ?_, hstatus, herror', hphase'⟩
    rcases hmarks with hmarks | hmarks
    · exact hdialogue.extend hmarks (follow_answers ht hstatus (.inl rfl))
    · have hstanding : follow (Stage.next pace) .standing t = some (.answered status) :=
        follow_answers ht hstatus (.inr rfl)
      exact hdialogue.extend hmarks hstanding
  | skipped w hphase herror hphase' hmarks hrest =>
    obtain rfl := hfits.of_request hphase herror
    have hhurried : pace = .hurried := hcalm.resolve_right fun hcalm => hcalm.2 hrest
    exact ⟨.relaying, hdialogue.extend hmarks (by simp [Stage.next, hhurried]), hphase'⟩
  | closed history t hphase ht hmarks =>
    refine hdialogue.extend hmarks ?_
    cases stage with
    | connecting =>
      have hrefusing := hphase hfits.1
      rw [hfits.2] at hrefusing
      cases hrefusing
    | answered status =>
      rcases ht with rfl | rfl
      · simp [Stage.next, hfits.1]
      · simp [Stage.next, hfits.1]
    | accepted | standing | early | recorded | failing | closed => exact hfits.elim
    | greeting | authenticating | judged | requesting | unsupported | returned | relaying =>
      rcases ht with rfl | rfl <;> rfl
  | stale _ _ _ hstale => exact absurd hstale hfresh

/-- As long as retries keep their descriptor no event of a pending connect is late. -/
theorem ReachableUnder.fresh (h : ReachableUnder RetryReuses s) (hview : s.view c = some v) :
    ¬ StaleConnect s c v e := by
  rintro ⟨fd, env, i, -, hrelay, hlate⟩
  obtain ⟨hused, hhandler, -, hdata, -⟩ := relayOf_eq_some_iff.mp hrelay
  obtain ⟨k, hk, horigin⟩ := h.live.pending fd c hused hdata hhandler
  obtain ⟨hconn, -⟩ := view_eq_some_iff.mp hview
  obtain rfl : v.conn = k := Option.some.inj (hconn.symm.trans hk)
  rcases hlate with hgiven | hcopy
  · omega
  · have hinv := h.reachable.inv
    have hne : v.conn.originFd ≠ 0 := hinv.owned.origin_ne_zero_of_relayOf hconn hrelay
    have hshown : v.relay = some (.connectingHandler, i) := by
      rw [← (view_eq_some_iff.mp hview).2.2.2.1, Server.relay, if_pos (by omega), horigin]
      exact hrelay
    rcases (hinv.ok c v hview).relay _ hshown with ⟨-, hphase, -⟩ | ⟨hhandler, -⟩
    · rw [hcopy] at hphase
      cases hphase
    · cases hhandler

/-- What became of every connection: it is there, with a property its reactions keep, or it was
never accepted, or it has gone with what the last of them left. -/
theorem ReachableUnder.fates {guard : Server → Event → Prop} {P : ConnId → View → Prop}
    {Q : ConnId → List Obs → Prop} (h : ReachableUnder guard s)
    (hundone : ∀ c, Q c [.released c]) (hfresh : ∀ c v, v.Fresh → P c v)
    (hkept : ∀ s e s' c v w, ReachableUnder guard s → guard s e → step s e = .ok s' →
      e.target s = some c → s.view c = some v → s'.view c = some w → P c v →
      Reaction s c v e (.alive w) → P c w)
    (hgone : ∀ s e c v history, ReachableUnder guard s → guard s e → e.target s = some c →
      s.view c = some v → P c v → Reaction s c v e (.gone history) → Q c history) :
    ∀ c, (∃ v, s.view c = some v ∧ P c v) ∨
      s.view c = none ∧ (s.history c = [] ∨ Q c (s.history c)) := by
  refine h.invariant (I := fun s => ∀ c, (∃ v, s.view c = some v ∧ P c v) ∨
    s.view c = none ∧ (s.history c = [] ∨ Q c (s.history c))) ?_ ?_
  · intro args s₀ hs₀ c
    refine .inr ⟨startServer_view hs₀ c, .inl ?_⟩
    rw [Server.history, (startServer_booting hs₀).1.trace]
    rfl
  · intro s e s' hreach hI he hg hstep c
    cases hreach.reachable.inv.effect he hstep with
    | background hb _ =>
      rcases hb.fates c with ⟨hview, hhistory⟩ | ⟨-, ⟨v, hview, hv⟩ | ⟨hview, hhistory⟩⟩
      · rw [hview, hhistory]
        exact hI c
      · exact .inl ⟨v, hview, hfresh c v hv⟩
      · rw [hview, hhistory]
        exact .inr ⟨rfl, .inr (hundone c)⟩
    | reaction d v r s₁ hview htarget hreaction hentered hlands =>
      by_cases hd : c = d
      · subst hd
        have hP : P c v := by
          rcases hI c with ⟨u, hu, hPu⟩ | ⟨hnone, -⟩
          · obtain rfl := Option.some.inj (hu.symm.trans hview)
            exact hPu
          · rw [hnone] at hview
            cases hview
        cases r with
        | alive w =>
          exact .inl ⟨w, Tracks.view hlands,
            hkept s e s' c v w hreach hg hstep htarget hview (Tracks.view hlands) hP hreaction⟩
        | gone history =>
          refine .inr ⟨?_, .inr ?_⟩
          · have hconns : s'.conns c = none := Released.conns hlands
            simp [Server.view, hconns]
          · rw [Released.history_eq hlands]
            exact hgone s e c v history hreach hg htarget hview hP hreaction
      · have hhistory : s'.history c = s.history c :=
          (hlands.frame.history hd).trans (congrArg (List.filter _) hentered.trace)
        rw [hlands.others hentered hd, hhistory]
        exact hI c

/-- The event in which the rest of an earlier reply is sent to a client whose request is being read:
the client is writable and `send` takes some of it. -/
def SendsRest (s : Server) : Event → Prop
  | .writable fd env =>
    (s.selector.fds fd).handler = some .socks5Handler ∧
      (∃ c ∈ (s.selector.fds fd).data, s.stms c = some ⟨some .connectionReq⟩ ∧
        ∃ k ∈ s.conns c, k.isErrorResponse = false) ∧
      env.send.accepts = true
  | _ => False

instance (s : Server) : (e : Event) → Decidable (SendsRest s e)
  | .writable _ _ => inferInstanceAs (Decidable (_ ∧ _ ∧ _))
  | .readable _ _ | .notify _ | .resolved _ _ | .adminInterest _ _ | .adminClose _
  | .configure _ _ _ => isFalse id

theorem RestSend.sendsRest (h : RestSend s c v e) (hview : s.view c = some v) : SendsRest s e := by
  obtain ⟨fd, env, n, rfl, hsend, ⟨hhandler, hdata⟩, hphase, herror⟩ := h
  obtain ⟨hconn, hstm, -⟩ := view_eq_some_iff.mp hview
  refine ⟨hhandler, ⟨c, hdata, hphase ▸ hstm, v.conn, hconn, herror⟩, ?_⟩
  rw [hsend]
  rfl

/-- The event leaves no phase by sending the rest of a reply, and a retry gets the descriptor it
closed. -/
def Calm (s : Server) (e : Event) : Prop :=
  RetryReuses s e ∧ ¬ SendsEarly s e ∧ ¬ SendsRest s e

instance (s : Server) (e : Event) : Decidable (Calm s e) := inferInstanceAs (Decidable (_ ∧ _))

/-- The dialogue of every connection, in every run in which retries keep their descriptor. -/
theorem ReachableUnder.dialogues {p : Pace} {guard : Server → Event → Prop} (h : ReachableUnder guard s)
    (hreuses : ∀ s e, guard s e → RetryReuses s e)
    (hcalm : p = .hurried ∨ ∀ s e, guard s e → ¬ SendsEarly s e ∧ ¬ SendsRest s e) (c : ConnId) :
    (∃ v stage, s.view c = some v ∧ Dialogue p v.history stage ∧ stage.Fits v) ∨
      s.view c = none ∧ (s.history c = [] ∨ Dialogue p (s.history c) .closed) := by
  have hreact : ∀ s e c v r, ReachableUnder guard s → guard s e → s.view c = some v →
      (∃ stage, Dialogue p v.history stage ∧ stage.Fits v) → Reaction s c v e r →
      r.Continues p := by
    rintro s e c v r hreach hg hview ⟨stage, hdialogue, hfits⟩ hr
    have hsends : p = .hurried ∨ ¬ EarlySend s c v e ∧ ¬ RestSend s c v e := by
      refine hcalm.imp_right fun hcalm => ?_
      obtain ⟨hearly, hrest⟩ := hcalm s e hg
      exact ⟨fun h => hearly (h.sendsEarly hview), fun h => hrest (h.sendsRest hview)⟩
    exact (hr.progress hreach.reachable.inv hview).2.continues
      ((hreach.mono hreuses).fresh hview) hsends hdialogue hfits
  have hfates := h.fates (P := fun _ v => ∃ stage, Dialogue p v.history stage ∧ stage.Fits v)
    (Q := fun _ history => Dialogue p history .closed) (fun c => rfl)
    (fun c v hv => ⟨.greeting, by rw [Dialogue, hv.history]; rfl, .inl hv.phase⟩)
    (fun s e _ c v w hreach hg _ _ hview _ hv hr => hreact s e c v (.alive w) hreach hg hview hv hr)
    (fun s e c v history hreach hg _ hview hv hr => hreact s e c v (.gone history) hreach hg hview hv hr)
  refine (hfates c).imp_left ?_
  rintro ⟨v, hview, stage, hdialogue, hfits⟩
  exact ⟨v, stage, hview, hdialogue, hfits⟩

/-- What a history shows of the request: the statuses of the replies queued and of the entries
made, and whether the connection was to connect, was established, and was to relay. -/
structure Account where
  replies : List UInt8 := []
  entries : List UInt8 := []
  connects : Bool := false
  stands : Bool := false
  relays : Bool := false

namespace Account

def note (a : Account) : Obs → Account
  | .queued _ (.connReq status) _ => { a with replies := a.replies ++ [status] }
  | .access _ call => { a with entries := a.entries ++ [call.statusCode] }
  | .enter _ .connecting => { a with connects := true }
  | .established _ => { a with stands := true }
  | .enter _ .copy => { a with relays := true }
  | _ => a

/-- No connection was attempted. A command that is refused is answered and leaves no entry. -/
def Unconnected (a : Account) : Prop :=
  a.connects = false ∧ a.entries = [] ∧
    (a.replies = [] ∨ a.replies = [SOCKS5_REP_COMMAND_NOT_SUPPORTED])

/-- The request was answered once, with the status of its one entry, and with success exactly when
the connection relays. -/
def Answered (a : Account) : Prop :=
  a.connects = true ∧ ∃ status, a.replies = [status] ∧ a.entries = [status] ∧
    (a.relays = true ↔ status = SOCKS5_REP_SUCCEEDED) ∧
    (status = SOCKS5_REP_SUCCEEDED → a.stands = true)

/-- The account that goes with a stage. -/
inductive Of : Stage → Account → Prop
  | greeting : Of .greeting {}
  | authenticating : Of .authenticating {}
  | judged (authOk : Bool) : Of (.judged authOk) {}
  | requesting : Of .requesting {}
  | unsupported : Of .unsupported { replies := [SOCKS5_REP_COMMAND_NOT_SUPPORTED] }
  | accepted : Of .accepted {}
  | connecting : Of .connecting { connects := true }
  | standing : Of .standing { connects := true, stands := true }
  | early : Of .early { connects := true, stands := true, relays := true }
  | recorded (copying stands : Bool) (status : UInt8)
      (hcopying : copying = true → status = SOCKS5_REP_SUCCEEDED)
      (hstands : status = SOCKS5_REP_SUCCEEDED → stands = true) :
      Of (.recorded copying status)
        { entries := [status], connects := true, stands := stands, relays := copying }
  | answered (stands : Bool) (status : UInt8)
      (hstands : status = SOCKS5_REP_SUCCEEDED → stands = true) :
      Of (.answered status)
        { replies := [status], entries := [status], connects := true, stands := stands }
  | returned (stands : Bool) : Of .returned
      ⟨[SOCKS5_REP_HOST_UNREACHABLE], [SOCKS5_REP_HOST_UNREACHABLE], true, stands, false⟩
  | skipped : Of .relaying { relays := true }
  | relaying : Of .relaying ⟨[SOCKS5_REP_SUCCEEDED], [SOCKS5_REP_SUCCEEDED], true, true, true⟩
  | failing (a : Account) (h : a.Unconnected ∨ a.Answered) : Of .failing a
  | closed (a : Account) (h : a.Unconnected ∨ a.Answered) : Of .closed a

/-- Every letter keeps the account that goes with the stage. -/
theorem Of.note {a : Account} {o : Obs} (h : Of stage a) (hnext : stage.next pace o = some stage') :
    Of stage' (a.note o) := by
  revert h hnext
  fun_cases Stage.next pace stage o with
  | case32 copying _ status _ =>
    -- the reply has the status of the entry
    intro h hnext
    cases h with
    | recorded _ stands _ hcopying hstands =>
      cases copying with
      | false =>
        obtain rfl := Option.some.inj hnext
        exact .answered stands status hstands
      | true =>
        obtain rfl := Option.some.inj hnext
        obtain rfl := hcopying rfl
        obtain rfl := hstands rfl
        exact .relaying
  | case34 =>
    intro h hnext
    cases h with
    | answered stands _ hstands =>
      obtain rfl := Option.some.inj hnext
      obtain rfl := hstands rfl
      exact .relaying
  | _ =>
    have hrefused : SOCKS5_REP_HOST_UNREACHABLE ≠ SOCKS5_REP_SUCCEEDED := by decide
    intro h hnext
    cases hnext <;> cases h <;> constructor <;> simp_all [Account.note, Unconnected, Answered]

end Account

/-- The account of a history. -/
def account (history : List Obs) : Account := history.foldl Account.note {}

/-- What is no milestone does not count. -/
theorem account_milestones (history : List Obs) : account (milestones history) = account history := by
  have hall : ∀ a : Account, (milestones history).foldl Account.note a =
      history.foldl Account.note a := by
    induction history with
    | nil => exact fun a => rfl
    | cons o rest ih =>
      intro a
      by_cases ho : o.isMilestone = true
      · simp only [milestones_cons, ho, if_true, List.foldl_cons, ih]
      · have hsame : a.note o = a := by
          revert ho
          fun_cases Account.note a o with
          | case6 => exact fun _ => rfl
          | _ => exact fun ho => absurd rfl ho
        simp only [milestones_cons, ho, List.foldl_cons, hsame]
        exact ih a
  exact hall {}

/-- A dialogue up to a stage has the account that goes with it. -/
theorem Dialogue.account (h : Dialogue pace history stage) : Account.Of stage (account history) := by
  rw [← account_milestones]
  refine follow_invariant (I := fun word stage => Account.Of stage (Socks5d.account word))
    .greeting ?_ h
  intro before t o t' ht hnext
  rw [Socks5d.account, List.foldl_append]
  exact ht.note hnext

/-- The account of every connection, in every run in which retries keep their descriptor. -/
theorem ReachableUnder.accounts (h : ReachableUnder RetryReuses s) (c : ConnId) :
    (account (s.history c)).Unconnected ∨
      (account (s.history c) = { connects := true } ∧ s.stms c = some ⟨some .connecting⟩) ∨
        (account (s.history c)).Answered := by
  rcases h.dialogues (p := .hurried) (fun _ _ hg => hg) (.inl rfl) c with
    ⟨v, stage, hview, hdialogue, hfits⟩ | ⟨-, hnil | hdialogue⟩
  · obtain ⟨-, hstm, -, -, -, hhistory⟩ := view_eq_some_iff.mp hview
    have haccount := hdialogue.account
    rw [hhistory]
    generalize Socks5d.account v.history = a at haccount
    cases haccount with
    | connecting => exact .inr (.inl ⟨rfl, hfits.1 ▸ hstm⟩)
    | greeting | authenticating | judged | requesting | unsupported | skipped =>
      exact .inl (by simp [Account.Unconnected])
    | answered stands status hstands =>
      exact .inr (.inr ⟨rfl, status, rfl, rfl, by simp [hfits.1], hstands⟩)
    | returned stands =>
      have hrefused : SOCKS5_REP_HOST_UNREACHABLE ≠ SOCKS5_REP_SUCCEEDED := by decide
      exact .inr (.inr ⟨rfl, _, rfl, rfl, by simp [hrefused], fun h => absurd h hrefused⟩)
    | relaying => exact .inr (.inr ⟨rfl, _, rfl, rfl, by simp, fun _ => rfl⟩)
    | accepted | standing | early | recorded | failing | closed => exact hfits.elim
  · rw [hnil]
    exact .inl (by simp [Socks5d.account, Account.Unconnected])
  · have haccount := hdialogue.account
    generalize Socks5d.account (s.history c) = a at haccount
    cases haccount with
    | closed _ hsettled => exact hsettled.imp_right .inr

end Socks5d
