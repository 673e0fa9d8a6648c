import Socks5d.Invariant

/-!
# Authentication comes first

The phase behind the sub-negotiation is entered when the client's socket takes a reply, whatever
was judged so far. If nothing is sent to a client that authenticates before its credentials were
judged, a connection that entered that phase gets no further without credentials that were
accepted.
-/

namespace Socks5d

open GuardedRun

/-- The phases a client that has to authenticate must not enter before it has. -/
def Socks5State.isProtected : Socks5State → Bool
  | .connectionReq | .connecting | .copy => true
  | _ => false

/-- Every protected phase entered after the sub-negotiation began was entered after credentials
were accepted. -/
def Authorized (c : ConnId) (history : List Obs) : Prop :=
  ∀ front state rest, history = front ++ .enter c state :: rest → state.isProtected = true →
    .enter c .auth ∈ front → .credentials c true ∈ front

/-- The event in which something left for a client that authenticates is sent before its
credentials were judged: the client is writable and `send` takes some of it. -/
def SendsEarly (s : Server) : Event → Prop
  | .writable fd env =>
    (s.selector.fds fd).handler = some .socks5Handler ∧
      (∃ c ∈ (s.selector.fds fd).data, ∃ k ∈ s.conns c, k.outBuff.content ≠ [] ∧
        ∃ p ∈ k.authParser, p.parser.state ≠ .done) ∧
      env.send.accepts = true
  | _ => False

instance (s : Server) : (e : Event) → Decidable (SendsEarly s e)
  | .writable _ _ => inferInstanceAs (Decidable (_ ∧ _ ∧ _))
  | .readable _ _ | .notify _ | .resolved _ _ | .adminInterest _ _ | .adminClose _
  | .configure _ _ _ => isFalse id

variable {s s' : Server} {c : ConnId} {v w : View} {e : Event} {r : Result}
  {marks t history : List Obs}

namespace Authorized

/-- Adding observations that enter no protected phase. -/
theorem append (h : Authorized c marks) (ht : ∀ state, state.isProtected = true → .enter c state ∉ t) :
    Authorized c (marks ++ t) := by
  intro front state rest heq hstate hauth
  rcases List.append_eq_append_iff.mp heq with ⟨middle, rfl, hrest⟩ | ⟨middle, hmarks, hrest⟩
  · exact absurd (hrest ▸ List.mem_append_right _ List.mem_cons_self) (ht state hstate)
  · cases middle with
    | nil =>
      have hmem : Obs.enter c state ∈ t := by
        rw [← List.nil_append t, ← hrest]
        exact List.mem_cons_self
      exact absurd hmem (ht state hstate)
    | cons o middle =>
      obtain ⟨rfl, -⟩ := List.cons.inj hrest
      exact h front state middle hmarks hstate hauth

/-- Once credentials were accepted anything may follow. -/
theorem append_of_mem (h : Authorized c marks) (hok : .credentials c true ∈ marks) :
    Authorized c (marks ++ t) := by
  intro front state rest heq hstate hauth
  rcases List.append_eq_append_iff.mp heq with ⟨middle, rfl, -⟩ | ⟨middle, hmarks, hrest⟩
  · exact List.mem_append_left _ hok
  · cases middle with
    | nil => exact List.append_nil front ▸ hmarks ▸ hok
    | cons o middle =>
      obtain ⟨rfl, -⟩ := List.cons.inj hrest
      exact h front state middle hmarks hstate hauth

/-- A client that need not authenticate. -/
theorem of_not_mem (hno : .enter c .auth ∉ marks) : Authorized c marks := by
  intro front state rest heq hstate hauth
  exact absurd (heq ▸ List.mem_append_left _ hauth) hno

/-- What holds of the milestones holds of the whole history. -/
theorem of_milestones (h : Authorized c (milestones history)) : Authorized c history := by
  intro front state rest heq hstate hauth
  have hmark : (Obs.enter c state).isMilestone = true := by
    cases state with
    | handshake => cases hstate
    | _ => rfl
  have hmarks : milestones history = milestones front ++ .enter c state :: milestones rest := by
    rw [heq, milestones_append, milestones_cons, if_pos hmark]
  exact (mem_milestones rfl).mp (h _ state _ hmarks hstate ((mem_milestones rfl).mpr hauth))

end Authorized

/-- What the phase of a connection says about how it got there. -/
structure View.Admitted (c : ConnId) (v : View) : Prop where
  authorized : Authorized c (milestones v.history)
  before : v.phase = none ∨ v.phase = some .handshake → .enter c .auth ∉ milestones v.history
  cleared : ∀ state, v.phase = some state → state.isProtected = true →
    .enter c .auth ∈ milestones v.history → .credentials c true ∈ milestones v.history

/-- A move from a protected phase. -/
theorem View.Admitted.extend (h : v.Admitted c) {state : Socks5State} (hphase : v.phase = some state)
    (hstate : state.isProtected = true) (ht : .enter c .auth ∉ t) :
    Authorized c (milestones v.history ++ t) ∧
      (.enter c .auth ∈ milestones v.history ++ t → .credentials c true ∈ milestones v.history ++ t) := by
  by_cases hauth : .enter c .auth ∈ milestones v.history
  · have hok := h.cleared state hphase hstate hauth
    exact ⟨h.authorized.append_of_mem hok, fun _ => List.mem_append_left _ hok⟩
  · have hno : .enter c .auth ∉ milestones v.history ++ t := by
      rw [List.mem_append]
      exact not_or.mpr ⟨hauth, ht⟩
    exact ⟨.of_not_mem hno, fun hmem => absurd hmem hno⟩

/-- The outcome of a move from an admitted connection. -/
def Result.Admitted (c : ConnId) : Result → Prop
  | .alive w => w.Admitted c
  | .gone history => Authorized c (milestones history)

theorem EarlySend.sendsEarly (h : EarlySend s c v e) (hview : s.view c = some v) :
    SendsEarly s e := by
  obtain ⟨fd, env, n, p, rfl, hsend, ⟨hhandler, hdata⟩, hleft, hp, hstate⟩ := h
  have hconn := (view_eq_some_iff.mp hview).1
  refine ⟨hhandler, ⟨c, hdata, v.conn, hconn, hleft, p, hp, hstate⟩, ?_⟩
  rw [hsend]
  rfl

/-- A connection behind the greeting that is known to be cleared or not to need it. -/
theorem View.Admitted.of_marks {state : Socks5State}
    (h : Authorized c marks ∧ (.enter c .auth ∈ marks → .credentials c true ∈ marks))
    (hphase : w.phase = some state) (hstate : state ≠ .handshake)
    (hmarks : milestones w.history = marks) : w.Admitted c where
  authorized := hmarks ▸ h.1
  before hw := by
    rcases hw with hw | hw
    · cases hphase.symm.trans hw
    · exact absurd (Option.some.inj (hphase.symm.trans hw)) hstate
  cleared _ _ _ := hmarks ▸ h.2

/-- A move keeps what is known of a connection, unless it sends early. -/
theorem Move.admitted (h : Move s c v e r) (hv : v.Admitted c) (hearly : ¬ EarlySend s c v e) :
    r.Admitted c := by
  cases h with
  | quiet w hphase herror hmarks =>
    refine ⟨hmarks ▸ hv.authorized, fun hw => hmarks ▸ hv.before ?_, fun state hstate => ?_⟩
    · rcases hphase with hsame | ⟨hnone, -⟩
      · exact hsame ▸ hw
      · exact .inl hnone
    · rcases hphase with hsame | ⟨-, hgreeting⟩
      · exact hmarks ▸ hv.cleared state (hsame ▸ hstate)
      · intro hprotected
        obtain rfl := Option.some.inj (hgreeting.symm.trans hstate)
        cases hprotected
  | chosen w state hphase hstate hphase' herror hmarks =>
    have hno := hv.before hphase
    rcases hstate with rfl | rfl
    · refine ⟨?_, fun hw => ?_, fun state' hstate' hprotected => ?_⟩
      · rw [hmarks]
        apply hv.authorized.append
        intro state' hprotected hmem
        obtain rfl : state' = .auth := by simpa using hmem
        cases hprotected
      · rcases hw with hw | hw <;> cases hphase'.symm.trans hw
      · obtain rfl := Option.some.inj (hphase'.symm.trans hstate')
        cases hprotected
    · have hno' : .enter c .auth ∉ milestones v.history ++ [.enter c .connectionReq] := by
        simpa using hno
      exact .of_marks ⟨.of_not_mem hno', fun hmem => absurd hmem hno'⟩ hphase' (by decide) hmarks
  | judged w authOk hphase hphase' hmarks =>
    refine ⟨?_, fun hw => ?_, fun state hstate hprotected => ?_⟩
    · rw [hmarks]
      apply hv.authorized.append
      simp
    · rcases hw with hw | hw <;> cases hphase'.symm.trans hw
    · obtain rfl := Option.some.inj (hphase'.symm.trans hstate)
      cases hprotected
  | authorized w hphase hphase' herror hmarks =>
    have hjudged : Authorized c (milestones v.history ++ [.credentials c true]) :=
      hv.authorized.append (by simp)
    have hboth : milestones w.history = milestones v.history ++ [.credentials c true] ++
        [.enter c .connectionReq] := by
      rw [hmarks, List.append_assoc]
      rfl
    exact .of_marks ⟨hjudged.append_of_mem (by simp), fun _ => by simp⟩ hphase' (by decide) hboth
  | passed w hphase hphase' herror hjudged hmarks =>
    have hok : .credentials c true ∈ milestones v.history :=
      (mem_milestones rfl).mpr (hjudged.resolve_right hearly)
    exact .of_marks ⟨hv.authorized.append_of_mem hok, fun _ => List.mem_append_left _ hok⟩ hphase'
      (by decide) hmarks
  | unsupported w bytes hphase herror hphase' herror' hmarks =>
    exact .of_marks (hv.extend hphase rfl (by simp)) hphase' (by decide) hmarks
  | requested w hphase herror hphase' herror' hmarks =>
    exact .of_marks (hv.extend hphase rfl (by simp)) hphase' (by decide) hmarks
  | noThread history fd env he hthread hphase herror hmarks =>
    exact (congrArg (Authorized c) hmarks).mpr (hv.extend hphase rfl (by simp)).1
  | noAddress w t hphase herror hphase' herror' ht hmarks =>
    obtain ⟨call, bytes, -, rfl⟩ := ht
    rw [List.append_assoc] at hmarks
    exact .of_marks (hv.extend hphase rfl (by simp)) hphase' (by decide) hmarks
  | relays r t history hphase herror ht hmarks hr =>
    obtain ⟨call, bytes, -, rfl⟩ := ht
    obtain ⟨more, hmore, hno⟩ : ∃ more, milestones history = milestones v.history ++ more ∧
        .enter c .auth ∉ more := by
      rcases hmarks with hmarks | hmarks
      · exact ⟨_, hmarks, by simp⟩
      · exact ⟨_, hmarks, by simp⟩
    rcases hr with ⟨w, rfl, hphase', hw⟩ | ⟨h, rfl, hh⟩
    · exact .of_marks (hv.extend hphase rfl hno) hphase' (by decide) (hw.trans hmore)
    · rw [hmore, List.append_assoc] at hh
      exact (congrArg (Authorized c) hh).mpr (hv.extend hphase rfl (by simpa using hno)).1
  | refused w t status hphase herror hphase' herror' hstatus ht hmarks =>
    obtain ⟨call, bytes, -, rfl⟩ := ht
    rcases hmarks with hmarks | hmarks
    · exact .of_marks (hv.extend hphase rfl (by simp)) hphase' (by decide) hmarks
    · exact .of_marks (hv.extend hphase rfl (by simp)) hphase' (by decide) hmarks
  | skipped w hphase herror hphase' hmarks =>
    exact .of_marks (hv.extend hphase rfl (by simp)) hphase' (by decide) hmarks
  | closed history t hphase ht hmarks =>
    refine (congrArg (Authorized c) hmarks).mpr (hv.authorized.append ?_)
    intro state hprotected hmem
    rcases ht with rfl | rfl
    · simp at hmem
    · obtain rfl : state = .error := by simpa using hmem
      cases hprotected
  | stale r t hphase hstale ht hr =>
    have hno : .enter c .auth ∉ t := fun hmem => ht _ hmem rfl
    have hextend : Authorized c (milestones v.history ++ t) ∧
        (.enter c .auth ∈ milestones v.history ++ t →
          .credentials c true ∈ milestones v.history ++ t) := by
      rcases hphase with hphase | hphase
      · exact hv.extend hphase rfl hno
      · exact hv.extend hphase rfl hno
    rcases hr with ⟨w, rfl, hphase', hw⟩ | ⟨h, rfl, hh⟩
    · exact .of_marks hextend hphase' (by decide) hw
    · exact (congrArg (Authorized c) hh).mpr hextend.1

theorem View.Fresh.admitted (h : v.Fresh) : v.Admitted c where
  authorized := by
    rw [h.history]
    exact .of_not_mem (by simp)
  before _ := by simp [h.history]
  cleared state hstate := by
    rw [h.phase] at hstate
    cases hstate

/-- As long as nothing is sent early, a client that has to authenticate gets no further than the
sub-negotiation without credentials that were accepted. -/
theorem authorized_of_guarded (h : ReachableUnder (fun s e => ¬ SendsEarly s e) s) (c : ConnId) :
    Authorized c (s.history c) := by
  have hstep : ∀ s e c v r, ReachableUnder (fun s e => ¬ SendsEarly s e) s → ¬ SendsEarly s e →
      s.view c = some v → v.Admitted c → Reaction s c v e r → r.Admitted c := by
    intro s e c v r hreach hguard hview hv hreaction
    have hmove := (hreaction.progress hreach.reachable.inv hview).2
    exact hmove.admitted hv fun hearly => hguard (hearly.sendsEarly hview)
  refine h.histories (P := fun c v => v.Admitted c) (Q := Authorized) ?_ ?_ ?_ ?_ ?_ ?_ c
  · exact fun c => .of_not_mem (by simp)
  · exact fun c => .of_not_mem (by simp)
  · exact fun c v hv => hv.admitted
  · exact fun c v hv => hv.authorized.of_milestones
  · exact fun s e c v w hreach hguard hview hv => hstep s e c v _ hreach hguard hview hv
  · exact fun s e c v history hreach hguard hview hv hreaction =>
      (hstep s e c v _ hreach hguard hview hv hreaction).of_milestones

/-- A client offers nothing but authentication and `k + 1` bytes of the reply are sent. -/
def offersAuth (k : ℕ) : Event := .readable 2 { recv := .data 5 [1, 2], sends := [.accepted k] }

/-- The request phase is entered after credentials were accepted. -/
def authorizedAt (c : ConnId) : List Obs → Bool
  | [] => false
  | o :: rest => o == .credentials c true && rest.contains (.enter c .connectionReq) ||
      authorizedAt c rest

/-- A user sends the credentials an administrator added. -/
theorem authorized_of_guarded_user : ∃ s : Server, authorizedAt 0 (s.history 0) = true ∧
    Authorized 0 (s.history 0) := by
  obtain ⟨s, hs, hcheck⟩ := reachableUnder_of_after (fun s e => ¬ SendsEarly s e)
    [.configure (authAddUser authInit [97] [120]).2 4096 500, arrives, offersAuth 1,
      .readable 2 { recv := .data 1 [1, 97, 1, 120], sends := [.accepted 1] }]
    (fun s => authorizedAt 0 (s.history 0)) (by decide +kernel)
  exact ⟨s, hcheck, authorized_of_guarded hs 0⟩

/-- The second half of the method selection is sent after the first, and takes the client behind
the sub-negotiation. -/
theorem not_authorized : ¬ ∀ s, Reachable s → ∀ c, Authorized c (s.history c) := by
  intro hall
  obtain ⟨s, hs, hcheck⟩ := reachable_of_after
    [arrives, offersAuth 0, .writable 2 { sends := [.accepted 0] }]
    (fun s => s.history 0 == [.recv 0 .client [5, 1, 2], .enter 0 .handshake,
      .queued 0 .handshake [5, 2], .send 0 .client [5], .enter 0 .auth, .send 0 .client [2],
      .enter 0 .connectionReq]) (by decide +kernel)
  have hauthorized := hall s hs 0
  rw [beq_iff_eq.mp hcheck] at hauthorized
  have hmem := hauthorized [.recv 0 .client [5, 1, 2], .enter 0 .handshake,
    .queued 0 .handshake [5, 2], .send 0 .client [5], .enter 0 .auth, .send 0 .client [2]]
    .connectionReq [] rfl rfl (by decide)
  exact absurd hmem (by decide)

end Socks5d
