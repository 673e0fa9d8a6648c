import Socks5d.Bookkeeping
import Socks5d.Listeners
import Socks5d.Stability

/-!
# What connections hold open

The callbacks of a connection are followed once more, this time through the descriptor table and
the kernel. The table's books stay in order, and a socket that was opened for an origin is at the
`origin_fd` of its connection until it is closed: no failed attempt, retry or teardown leaves a
descriptor open that no record names.
-/

namespace Socks5d

open Fallible

/-- The books of the table are kept, and entries that are not in use are blank. -/
structure FdSelector.Neat (sel : FdSelector) : Prop where
  kept : sel.Kept
  blank : ∀ i, (sel.fds i).used = false → sel.fds i = itemInit

/-- The table is in order, and the socket open for the origin of a connection is at its
`origin_fd`; descriptor 0 is the business of the ownership invariant. -/
structure Holding (c : ConnId) (s : Server) : Prop where
  books : s.selector.Neat
  origin : ∀ fd p, s.kernel.owner fd = some (.origin c p) →
    fd = 0 ∨ ∃ k, s.conns c = some k ∧ k.originFd = fd

/-- The table is in order, and no socket is open for the origin of a connection. -/
structure Vacant (c : ConnId) (s : Server) : Prop where
  books : s.selector.Neat
  origin : ∀ fd p, s.kernel.owner fd = some (.origin c p) → fd = 0

variable {c d : ConnId} {s s' : Server} {k : Socks5Conn} {key : SelectorKey}

/-- A connection without a socket has none away from its `origin_fd`. -/
theorem Vacant.holding (h : Vacant c s) : Holding c s :=
  ⟨h.books, fun fd p ho => .inl (h.origin fd p ho)⟩

namespace FdSelector.Neat

variable {sel : FdSelector}

/-- The table starts in order. -/
theorem new : (selectorNew INITIAL_QUANTITY_FDS).Neat :=
  ⟨kept_selectorNew, fun i _ => fds_selectorNew _ i⟩

/-- The books do not list the jobs. -/
theorem setJobs (h : sel.Neat) (jobs : List ℕ) :
    FdSelector.Neat { sel with resolutionJobs := jobs } :=
  ⟨⟨⟨h.kept.agrees.size, h.kept.agrees.index, h.kept.agrees.reads, h.kept.agrees.writes⟩,
    h.kept.maxCached⟩, h.blank⟩

/-- Registering a descriptor keeps the table in order. -/
theorem register (h : sel.Neat) (fd : ℤ) (handler : FdHandler) (interest : FdInterest)
    (data : Option ConnId) : (selectorRegister sel fd handler interest data).2.Neat := by
  refine ⟨(h.kept.register fd interest handler data).1, fun i hunused => ?_⟩
  have hsize : ITEMS_MAX_SIZE ≤ sel.fdSize := by
    rw [h.kept.agrees.size]
    exact Nat.le_succ _
  rcases selectorRegister_cases sel fd handler interest data hsize with
    ⟨n, -, -, -, -, hfds, -⟩ | ⟨-, -, hsame⟩
  · rw [hfds] at hunused ⊢
    by_cases hin : i = n
    · rw [hin, Function.update_self] at hunused
      simp [Item.used, FD_UNUSED] at hunused
    · rw [Function.update_of_ne hin] at hunused ⊢
      exact h.blank i hunused
  · rw [hsame] at hunused ⊢
    exact h.blank i hunused

/-- Changing an interest keeps the table in order. -/
theorem setInterest (h : sel.Neat) (fd : ℤ) (interest : FdInterest) :
    (selectorSetInterest sel fd interest).2.Neat := by
  refine ⟨(h.kept.setInterest fd interest).1, fun i hunused => ?_⟩
  revert hunused
  unfold selectorSetInterest
  split
  · exact h.blank i
  split
  · exact h.blank i
  · rename_i hused
    by_cases hi : i = fd.toNat
    · -- an entry in use stays in use
      subst hi
      simp only [itemsUpdateFdsetForFd, Function.update_self]
      exact fun hunused => absurd hunused (by simpa [Item.used] using hused)
    · simp only [itemsUpdateFdsetForFd, Function.update_of_ne hi]
      exact h.blank i

/-- Removing an entry keeps the table in order. -/
theorem unregister (h : sel.Neat) (fd : ℤ) : (unregisterItem sel fd).2.Neat := by
  refine ⟨(h.kept.unregister fd).1, fun i hunused => ?_⟩
  revert hunused
  unfold unregisterItem
  split
  · exact h.blank i
  · simp only [fds_removeItem]
    by_cases hi : i = fd.toNat
    · rw [hi, Function.update_self]
      exact fun _ => rfl
    · rw [Function.update_of_ne hi]
      exact h.blank i

end FdSelector.Neat

namespace Vacant

/-- The table and the kernel decide whether a connection has no socket. -/
theorem of_eq (h : Vacant c s) (hsel : s'.selector = s.selector)
    (hkernel : s'.kernel = s.kernel) : Vacant c s' :=
  ⟨hsel ▸ h.books, fun fd p ho => h.origin fd p (hkernel ▸ ho)⟩

/-- Another table that is in order will do. -/
theorem setSelector (h : Vacant c s) {sel : FdSelector} (hsel : sel.Neat) :
    Vacant c { s with selector := sel } :=
  ⟨hsel, h.origin⟩

/-- Changing an interest opens no socket. -/
theorem setInterest (h : Vacant c s) (fd : ℤ) (interest : FdInterest) :
    Vacant c (s.setInterest fd interest) :=
  h.setSelector (h.books.setInterest fd interest)

end Vacant

namespace Holding

/-- The table, the kernel and the record of the connection decide. -/
theorem of_eq (h : Holding c s) (hsel : s'.selector = s.selector) (hkernel : s'.kernel = s.kernel)
    (hconns : s'.conns c = s.conns c) : Holding c s' :=
  ⟨hsel ▸ h.books, fun fd p ho => hconns ▸ h.origin fd p (hkernel ▸ ho)⟩

/-- A record may be rewritten as long as `origin_fd` stays. -/
theorem setConn (h : Holding c s) (hk : s.conns c = some k) (k' : Socks5Conn)
    (horigin : k'.originFd = k.originFd) : Holding c (s.setConn c k') := by
  refine ⟨h.books, fun fd p ho => ?_⟩
  rcases h.origin fd p ho with hzero | ⟨k₀, hk₀, hfd⟩
  · exact .inl hzero
  · obtain rfl := Option.some.inj (hk.symm.trans hk₀)
    exact .inr ⟨k', Function.update_self _ _ _, horigin.trans hfd⟩

/-- An observation opens nothing. -/
theorem note (h : Holding c s) (o : Obs) : Holding c (s.note o) := h.of_eq rfl rfl rfl

/-- Setting `errno` opens nothing. -/
theorem setErrno (h : Holding c s) (e : Errno) : Holding c (s.setErrno e) := h.of_eq rfl rfl rfl

/-- Counting an error opens nothing. -/
theorem incErrors (h : Holding c s) : Holding c s.incErrors := h.of_eq rfl rfl rfl

/-- Another table that is in order will do. -/
theorem setSelector (h : Holding c s) {sel : FdSelector} (hsel : sel.Neat) :
    Holding c { s with selector := sel } :=
  ⟨hsel, h.origin⟩

/-- Changing an interest closes none. -/
theorem setInterest (h : Holding c s) (fd : ℤ) (interest : FdInterest) :
    Holding c (s.setInterest fd interest) :=
  h.setSelector (h.books.setInterest fd interest)

/-- Registering a descriptor closes none. -/
theorem register (h : Holding c s) (fd : ℤ) (handler : FdHandler) (interest : FdInterest)
    (data : Option ConnId) :
    Holding c { s with selector := (selectorRegister s.selector fd handler interest data).2 } :=
  h.setSelector (h.books.register fd handler interest data)

/-- Closing a descriptor opens none. -/
theorem close (h : Holding c s) (fd : ℤ) : Holding c (s.close fd) := by
  refine ⟨h.books, fun n p ho => h.origin n p ?_⟩
  have hclosed : (if (n : ℤ) = fd then none else s.kernel.owner n) = some (.origin c p) := ho
  split at hclosed
  · cases hclosed
  · exact hclosed

/-- Closing `origin_fd` closes the only socket there is. -/
theorem vacate (h : Holding c s) (hk : s.conns c = some k) : Vacant c (s.close k.originFd) := by
  refine ⟨h.books, fun n p ho => ?_⟩
  have hclosed : (if (n : ℤ) = k.originFd then none else s.kernel.owner n) =
      some (.origin c p) := ho
  split at hclosed
  · cases hclosed
  · rename_i hne
    rcases h.origin n p hclosed with hzero | ⟨k₀, hk₀, hfd⟩
    · exact hzero
    · obtain rfl := Option.some.inj (hk.symm.trans hk₀)
      exact absurd hfd.symm hne

/-- A connection whose `origin_fd` is unset has no socket open. -/
theorem vacant (h : Holding c s) (hunset : ∀ k, s.conns c = some k → k.originFd = 0) :
    Vacant c s := by
  refine ⟨h.books, fun n p ho => ?_⟩
  rcases h.origin n p ho with hzero | ⟨k, hk, hfd⟩
  · exact hzero
  · have hset := hunset k hk
    omega

end Holding

section Teardown

/-- What is open after a descriptor was closed on a condition. -/
theorem owner_of_closeIf {p : Prop} [Decidable p] {fd : ℤ} {n : ℕ} {o : FdOwner}
    (h : (if p then s.close fd else s).kernel.owner n = some o) :
    s.kernel.owner n = some o ∧ (p → (n : ℤ) ≠ fd) := by
  split at h
  · have hclosed : (if (n : ℤ) = fd then none else s.kernel.owner n) = some o := h
    split at hclosed
    · cases hclosed
    · rename_i hne
      exact ⟨hclosed, fun _ => hne⟩
  · rename_i hnot
    exact ⟨h, fun hp => absurd hp hnot⟩

/-- What the close callback does: it closes the descriptors of a record, frees it, and leaves the
table to `selector_unregister_fd`. -/
theorem socksv5Close_cases (hs : socksv5Close d s = .ok s') :
    ∃ k, s.conns d = some k ∧ s'.selector = s.selector ∧
      s'.conns = Function.update s.conns d none ∧
      ∀ n o, s'.kernel.owner n = some o →
        s.kernel.owner n = some o ∧ (k.originFd > 0 → (n : ℤ) ≠ k.originFd) := by
  unfold Socks5d.socksv5Close at hs
  cases hd : s.conn d with
  | error e => simp [hd] at hs
  | ok k =>
    have hk : s.conns d = some k := by
      unfold Server.conn at hd
      split at hd
      · rename_i hconn
        exact hconn.trans (congrArg some (Except.ok.inj hd))
      · cases hd
    simp only [hd, ok_bind] at hs
    generalize hs₁ : (if k.clientFd > 0 then s.close k.clientFd else s) = s₁ at hs
    generalize hs₂ : (if k.originFd > 0 then s₁.close k.originFd else s₁) = s₂ at hs
    have hsel : s₂.selector = s.selector := by
      rw [← hs₂, ← hs₁]
      split <;> split <;> rfl
    have hconns : s₂.conns = s.conns := by
      rw [← hs₂, ← hs₁]
      split <;> split <;> rfl
    have hfreed : s'.selector = s₂.selector ∧ s'.kernel = s₂.kernel ∧
        s'.conns = Function.update s₂.conns d none := by
      unfold socks5StmFree at hs
      split at hs
      · split at hs
        · simp only [ok_bind, pure_eq_ok, Except.ok.injEq] at hs
          exact hs ▸ ⟨rfl, rfl, rfl⟩
        · cases hs
      · simp only [pure_eq_ok, ok_bind, Except.ok.injEq] at hs
        exact hs ▸ ⟨rfl, rfl, rfl⟩
    obtain ⟨hsel', hkernel', hconns'⟩ := hfreed
    refine ⟨k, hk, hsel'.trans hsel, hconns'.trans (by rw [hconns]), fun n o ho => ?_⟩
    rw [hkernel', ← hs₂] at ho
    obtain ⟨ho₁, horigin⟩ := owner_of_closeIf ho
    rw [← hs₁] at ho₁
    exact ⟨(owner_of_closeIf ho₁).1, horigin⟩

/-- Releasing a record closes its socket first. -/
theorem Holding.socksv5Close (h : Holding c s) (hs : socksv5Close d s = .ok s') :
    Holding c s' := by
  obtain ⟨k, hk, hsel, hconns, howner⟩ := socksv5Close_cases hs
  refine ⟨hsel ▸ h.books, fun fd p ho => ?_⟩
  obtain ⟨ho₀, horigin⟩ := howner fd _ ho
  rcases h.origin fd p ho₀ with hzero | ⟨k₀, hk₀, hfd⟩
  · exact .inl hzero
  · by_cases hcd : c = d
    · subst hcd
      obtain rfl := Option.some.inj (hk.symm.trans hk₀)
      by_cases hpos : k.originFd > 0
      · exact absurd hfd.symm (horigin hpos)
      · exact .inl (by omega)
    · exact .inr ⟨k₀, by rw [hconns, Function.update_of_ne hcd, hk₀], hfd⟩

/-- No close callback touches the table. -/
theorem selector_of_handleClose {item : Item} (hs : handleClose item s = .ok s') :
    s'.selector = s.selector := by
  unfold Socks5d.handleClose at hs
  split at hs
  · exact (socksv5Close_cases hs).choose_spec.2.1
  · cases hs
  · obtain rfl := Except.ok.inj hs
    rfl
  · obtain rfl := Except.ok.inj hs
    rfl
  · cases hs

/-- The close callback of an entry leaves no socket behind. -/
theorem Holding.handleClose (h : Holding c s) {item : Item}
    (hs : Socks5d.handleClose item s = .ok s') : Holding c s' := by
  unfold Socks5d.handleClose at hs
  split at hs
  · exact h.socksv5Close hs
  · cases hs
  · obtain rfl := Except.ok.inj hs
    exact h.close _
  · obtain rfl := Except.ok.inj hs
    exact h
  · cases hs

/-- `selector_unregister_fd` keeps the books, whatever the close callback releases. -/
theorem selectorUnregisterFd_books {fd : ℤ} (h : s.selector.Neat)
    (hs : selectorUnregisterFd s fd = .ok s') : s'.selector.Neat := by
  unfold Socks5d.selectorUnregisterFd at hs
  split at hs
  · exact Except.ok.inj hs ▸ h
  · rename_i hvalid
    cases hclose : Socks5d.handleClose (s.selector.fds fd.toNat) s with
    | error e => simp [hclose] at hs
    | ok s₁ =>
      simp only [hclose, ok_bind, pure_eq_ok, Except.ok.injEq] at hs
      have hremove : removeItem s₁.selector fd.toNat = (unregisterItem s.selector fd).2 := by
        rw [selector_of_handleClose hclose, unregisterItem, if_neg (by simpa using hvalid)]
      rw [← hs, hremove]
      exact h.unregister fd

/-- Unregistering a descriptor leaves no socket behind. -/
theorem Holding.selectorUnregisterFd (h : Holding c s) (fd : ℤ) :
    Holds (fun _ => True) (selectorUnregisterFd s fd) (Holding c) := by
  apply Holds.any
  intro s' hs
  have hbooks := selectorUnregisterFd_books h.books hs
  unfold Socks5d.selectorUnregisterFd at hs
  split at hs
  · exact Except.ok.inj hs ▸ h
  · cases hclose : Socks5d.handleClose (s.selector.fds fd.toNat) s with
    | error e => simp [hclose] at hs
    | ok s₁ =>
      simp only [hclose, ok_bind, pure_eq_ok, Except.ok.injEq] at hs
      subst hs
      exact ⟨hbooks, (h.handleClose hclose).origin⟩

/-- Unregistering both descriptors of a connection leaves no socket behind. -/
theorem Holding.unregisterBoth (h : Holding c s) (guardOrigin guardClient : Bool) :
    Holds (fun _ => True) (unregisterBoth guardOrigin guardClient c s) (Holding c) := by
  unfold Socks5d.unregisterBoth
  apply holds_conn
  intro k hk
  have hclient : ∀ s, Holding c s → Holds (fun _ => True) (do
      let conn ← s.conn c
      if guardClient = false ∨ conn.clientFd > 0 then Socks5d.selectorUnregisterFd s conn.clientFd
      else pure s) (Holding c) := by
    intro s h
    apply holds_conn
    intro k hk
    split
    · exact h.selectorUnregisterFd _
    · exact h
  dsimp only
  split
  · exact (h.selectorUnregisterFd _).bind hclient
  · exact hclient s h

end Teardown

section Phases

variable {state next : Socks5State}

/-- Entering a phase opens nothing. -/
theorem Holding.onArrival (h : Holding key.data s) :
    Holds (fun _ => True) (onArrival state key s) (Holding key.data) := by
  cases state with
  | handshake => exact holds_conn fun k hk => h.setConn hk _ (by rfl)
  | auth => exact holds_conn fun k hk => h.setConn hk _ (by rfl)
  | connectionReq => exact holds_conn fun k hk => h.setConn hk _ (by rfl)
  | connecting => exact h
  | copy => exact holds_conn fun k _ => h.register _ _ _ _
  | done => exact h.unregisterBoth true true
  | error => exact h.unregisterBoth true true

/-- Leaving a phase opens nothing. -/
theorem Holding.onDeparture (h : Holding key.data s) :
    Holds (fun _ => True) (onDeparture state key s) (Holding key.data) := by
  cases state with
  | handshake =>
    refine holds_conn fun k hk => ?_
    split
    · trivial
    · exact h.setConn hk _ (by rfl)
  | auth =>
    refine holds_conn fun k hk => ?_
    split
    · trivial
    · exact h.setConn hk _ (by rfl)
  | connectionReq =>
    refine holds_conn fun k hk => ?_
    split
    · trivial
    · exact h.setConn hk _ (by rfl)
  | copy => exact holds_conn fun k _ => h.selectorUnregisterFd _
  | connecting => exact h
  | done => exact h
  | error => exact h

/-- Setting the phase opens nothing. -/
theorem Holding.enterState (h : Holding c s) (d : ConnId) (state : Socks5State) :
    Holding c (enterState d state s) := h.of_eq rfl rfl rfl

/-- Starting the greeting opens nothing. -/
theorem Holding.handleFirst (h : Holding key.data s) :
    Holds (fun _ => True) (handleFirst key s) (Holding key.data) := by
  unfold Socks5d.handleFirst
  apply Holds.seq
  intro stm _
  split
  · exact h
  · exact (h.enterState key.data .handshake).onArrival

/-- A change of phase opens nothing. -/
theorem Holding.jump (h : Holding key.data s) :
    Holds (fun _ => True) (jump next key s) (Holding key.data) := by
  have harrive : ∀ s, Holding key.data s → Holds (fun _ => True) (do
      let _ ← s.stm key.data
      Socks5d.onArrival next key (Socks5d.enterState key.data next s)) (Holding key.data) := by
    intro s h
    apply Holds.seq
    intro _ _
    exact (h.enterState key.data next).onArrival
  unfold Socks5d.jump
  apply Holds.seq
  intro stm _
  split
  · exact h
  dsimp only
  split
  · exact h.onDeparture.bind harrive
  · exact harrive s h

/-- A phase handler and the transition it chose. -/
theorem Holding.jumps {m : Except Fault (Socks5State × Server)}
    (hm : Holds (fun _ => True) m fun r => Holding key.data r.2) :
    Holds (fun _ => True) (do
      let (ret, s) ← m
      let s ← Socks5d.jump ret key s
      return (ret, s)) fun r => Holding key.data r.2 :=
  hm.bind fun _ h => h.jump.bind fun _ h' => h'

/-- The write handler of a phase opens nothing. -/
theorem Holding.stmHandlerWrite (h : Holding key.data s) :
    Holds (fun _ => True) (stmHandlerWrite key s) fun r => Holding key.data r.2 := by
  unfold Socks5d.stmHandlerWrite
  apply Holds.seq
  intro _ _
  refine h.handleFirst.bind fun s h => ?_
  apply Holds.seq
  intro state _
  apply Holds.seq
  intro ret _
  exact h.jump.bind fun _ h' => h'

/-- Choosing what the client waits for opens nothing. -/
theorem Holding.rearmAfterSend (h : Holding c s) (outBuff : Buffer) (fullBuffer : Bool) :
    Holding c (rearmAfterSend k outBuff fullBuffer s) := by
  have hwrite : Holding c (if bufferCanRead outBuff then s.setInterest k.clientFd OP_WRITE
      else s.setInterest k.clientFd OP_READ) :=
    of_ite (h.setInterest _ _) (h.setInterest _ _)
  have hread : ∀ s₁, Holding c s₁ → Holding c (if bufferCanRead k.inBuff then
      s₁.setInterest k.originFd OP_WRITE else s₁) :=
    fun _ h₁ => of_ite (h₁.setInterest _ _) h₁
  exact of_ite ((hread _ hwrite).setInterest _ _) (hread _ hwrite)

/-- Writing to the client opens nothing. -/
theorem Holding.socksv5Write (h : Holding key.data s) (out : SendOutcome) :
    Holds (fun _ => True) (socksv5Write key out s) (Holding key.data) := by
  unfold Socks5d.socksv5Write
  apply holds_conn
  intro k hk
  split
  · exact h.setInterest _ _
  dsimp only
  split
  · rename_i n
    apply Holds.seq
    intro outBuff _
    have hcounted : ∀ bytes : List UInt8, Holding key.data
        ({ s with metrics := s.metrics.addBytes (UInt64.ofNat bytes.length) }.note
          (.send key.data .client bytes)) := fun _ => h.of_eq rfl rfl rfl
    have hsent := (hcounted (k.outBuff.content.take (n + 1))).setConn hk
      { k with outBuff := bufferCompact outBuff } rfl
    have hrearmed := hsent.rearmAfterSend (k := k) outBuff
      (decide (k.originFd > 0) && !bufferCanWrite k.outBuff)
    apply Holds.seq
    intro state _
    split
    · exact hrearmed.stmHandlerWrite.bind fun _ h' => h'
    · exact hrearmed
  · exact h
  · rename_i e
    split
    · exact h.setErrno e
    · exact (h.setErrno e).incErrors.unregisterBoth true false

end Phases

section Reading

/-- Queueing a reply opens nothing. -/
theorem Holding.queueReply (h : Holding c s) (kind : ReplyKind) (bytes : List UInt8) :
    Holds (fun _ => True) (s.queueReply c kind bytes) (Holding c) := by
  unfold Server.queueReply
  apply holds_conn
  intro k hk
  apply Holds.seq
  intro outBuff _
  split
  · exact (h.setConn hk _ (by rfl)).note _
  · exact h.setConn hk _ (by rfl)

/-- Throwing away what was not read opens nothing. -/
theorem Holding.resetInBuff (h : Holding c s) :
    Holds (fun _ => True) (s.resetInBuff c) (Holding c) := by
  unfold Server.resetInBuff
  apply holds_conn
  intro k hk
  split
  · exact h.setConn hk _ (by rfl)
  · exact (h.setConn hk _ (by rfl)).note _

/-- Registering an access opens nothing. -/
theorem Holding.accessRegisterAddEntry (h : Holding c s) (status : UInt8) (now : ℕ) :
    Holds (fun _ => True) (s.accessRegisterAddEntry c status now) (Holding c) :=
  holds_conn fun _ _ => h.note _

/-- A resolution opens nothing. -/
theorem Holding.resolveHostName (h : Holding c s) (res : List AddrInfo) :
    Holds (fun _ => True) (resolveHostName c res s) (Holding c) := by
  unfold Socks5d.resolveHostName
  apply holds_conn
  intro k hk
  have hnoted := h.note (.lookup c k.dstAddress k.dstPort)
  have hfound : Holding c (if res = [] then s.note (.lookup c k.dstAddress k.dstPort)
      else (s.note (.lookup c k.dstAddress k.dstPort)).setConn c { k with addrInfo := res }) :=
    of_ite hnoted (hnoted.setConn hk _ (by rfl))
  exact hfound.setSelector (hfound.books.setJobs _)

/-- Reading a greeting opens nothing. -/
theorem Holding.handshakeReadLoop (h : Holding key.data s) (bound : ℕ)
    (sends : List SendOutcome) :
    Holds (fun _ => True) (handshakeReadLoop bound key sends s) fun r => Holding key.data r.2 := by
  induction bound generalizing s sends with
  | zero =>
    unfold Socks5d.handshakeReadLoop
    apply holds_conn
    intro k hk
    split
    · exact Holds.seq fun _ _ => h
    · exact Holds.seq fun _ _ => h
  | succ bound ih =>
    unfold Socks5d.handshakeReadLoop
    apply holds_conn
    intro k hk
    split
    · exact Holds.seq fun _ _ => h
    dsimp only
    apply Holds.seq
    rintro ⟨byte, inBuff⟩ _
    dsimp only
    split
    · trivial
    rename_i p hp
    have hfed := h.setConn hk
      { k with inBuff := inBuff, handshakeParser := some (handshakeParserFeed p byte).1 } rfl
    split
    · refine (hfed.queueReply _ _).bind fun s h => ?_
      apply holds_conn
      intro k hk
      have hset := (h.setInterest key.fd OP_WRITE).setConn hk { k with isErrorResponse :=
        !((handshakeParserFeed p byte).1.noAuth || (handshakeParserFeed p byte).1.userPassAuth) }
        rfl
      exact (hset.socksv5Write _).bind fun _ h' => ih h' _
    · exact hfed
    · exact ih hfed _

/-- Reading credentials opens nothing. -/
theorem Holding.authReadLoop (h : Holding key.data s) (bound : ℕ) (sends : List SendOutcome) :
    Holds (fun _ => True) (authReadLoop bound key sends s) fun r => Holding key.data r.2 := by
  induction bound generalizing s sends with
  | zero =>
    unfold Socks5d.authReadLoop
    apply holds_conn
    intro k hk
    split
    · exact Holds.seq fun _ _ => h
    · exact Holds.seq fun _ _ => h
  | succ bound ih =>
    unfold Socks5d.authReadLoop
    apply holds_conn
    intro k hk
    split
    · exact Holds.seq fun _ _ => h
    dsimp only
    apply Holds.seq
    rintro ⟨byte, inBuff⟩ _
    dsimp only
    split
    · trivial
    rename_i p hp
    have hfed := h.setConn hk
      { k with inBuff := inBuff, authParser := some (authParserFeed p byte).1 } rfl
    split
    · refine ((hfed.note _).queueReply _ _).bind fun s h => ?_
      refine h.resetInBuff.bind fun s h => ?_
      apply holds_conn
      intro k hk
      exact (((h.setConn hk _ (by rfl)).setInterest key.fd OP_WRITE).socksv5Write _).bind
        fun _ h' => ih h' _
    · exact hfed
    · exact ih hfed _

/-- A complete request opens nothing. -/
theorem Holding.connectionReqDone (h : Holding key.data s) (env : Env) (p : ConnReqParser) :
    Holds (fun _ => True) (connectionReqDone key env p s) fun r => Holding key.data r.2 := by
  unfold Socks5d.connectionReqDone
  split
  · refine (h.queueReply _ _).bind fun s h => ?_
    exact holds_conn fun k hk => (h.setConn hk _ (by rfl)).setInterest _ _
  · apply holds_conn
    intro k hk
    have hasked := ((h.note (.request key.data)).setInterest key.fd OP_NOOP).setConn hk
    dsimp only
    split
    · split
      · exact (hasked _ (by rfl)).of_eq rfl rfl rfl
      · exact hasked _ (by rfl)
    · exact ((hasked _ (by rfl)).resolveHostName _).bind fun _ h' => h'

/-- Reading a request opens nothing. -/
theorem Holding.connectionReqReadLoop (h : Holding key.data s) (bound : ℕ) (env : Env) :
    Holds (fun _ => True) (connectionReqReadLoop bound key env s)
      fun r => Holding key.data r.2 := by
  induction bound generalizing s with
  | zero =>
    unfold Socks5d.connectionReqReadLoop
    apply holds_conn
    intro k hk
    split
    · exact h
    · exact h
  | succ bound ih =>
    unfold Socks5d.connectionReqReadLoop
    apply holds_conn
    intro k hk
    split
    · exact h
    dsimp only
    apply Holds.seq
    rintro ⟨byte, inBuff⟩ _
    dsimp only
    split
    · trivial
    rename_i p hp
    have hfed := h.setConn hk
      { k with inBuff := inBuff, connReqParser := some (connReqParserFeed p byte).1 } rfl
    split
    · exact hfed.connectionReqDone env _
    · exact hfed
    · exact ih hfed

/-- Writing to the origin opens nothing. -/
theorem Holding.copyWriteHandler (h : Holding key.data s) (out : SendOutcome) :
    Holds (fun _ => True) (copyWriteHandler key out s) (Holding key.data) := by
  unfold Socks5d.copyWriteHandler
  apply holds_conn
  intro k hk
  split
  · exact h.setInterest _ _
  dsimp only
  split
  · apply Holds.seq
    intro inBuff _
    have hsent := fun bytes => (h.note (.send key.data .origin bytes)).setConn hk
      { k with inBuff := bufferCompact inBuff } rfl
    have hread := fun bytes => of_ite (p := bufferCanRead inBuff = true) (hsent bytes)
      ((hsent bytes).setInterest k.originFd OP_READ)
    exact of_ite ((hread _).setInterest _ _) (hread _)
  · exact h.unregisterBoth false false
  · rename_i e
    split
    · exact h.setErrno e
    · exact (h.setErrno e).unregisterBoth false false

/-- Reading from the origin opens nothing. -/
theorem Holding.copyReadHandler (h : Holding key.data s) (env : Env) :
    Holds (fun _ => True) (copyReadHandler key env s) (Holding key.data) := by
  unfold Socks5d.copyReadHandler
  apply holds_conn
  intro k hk
  split
  · exact (h.setInterest _ _).setInterest _ _
  split
  · apply Holds.seq
    intro outBuff _
    have hreceived := fun bytes => (h.setConn hk { k with outBuff := outBuff } rfl).note
      (.recv key.data .origin bytes)
    exact ((hreceived _).setInterest k.clientFd OP_WRITE).socksv5Write env.send
  · exact (h.note _).selectorUnregisterFd k.originFd
  · rename_i e _
    split
    · exact h.setErrno e
    · exact (h.setErrno e).unregisterBoth false false

/-- The read handler of a phase opens nothing. -/
theorem Holding.onReadReady (h : Holding key.data s) {state : Socks5State} (env : Env) :
    Holds (fun _ => True) (onReadReady state key env s) fun r => Holding key.data r.2 := by
  cases state with
  | handshake => exact holds_conn fun k _ => h.handshakeReadLoop _ env.sends
  | auth => exact holds_conn fun k _ => h.authReadLoop _ env.sends
  | connectionReq => exact holds_conn fun k _ => h.connectionReqReadLoop _ env
  | connecting => exact h
  | copy =>
    apply holds_conn
    intro k hk
    have harmed := h.setInterest k.originFd OP_WRITE
    dsimp only
    split
    · exact harmed
    · exact (harmed.copyWriteHandler env.send).bind fun s h => h
  | done => trivial
  | error => trivial

/-- Nor does that of the phase the connection is in. -/
theorem Holding.stmHandlerRead (h : Holding key.data s) (env : Env) :
    Holds (fun _ => True) (stmHandlerRead key env s) fun r => Holding key.data r.2 := by
  unfold Socks5d.stmHandlerRead
  apply Holds.seq
  intro _ _
  refine h.handleFirst.bind fun s h => ?_
  apply Holds.seq
  intro state _
  exact Holding.jumps (h.onReadReady env)

/-- Reading from the client opens nothing. -/
theorem Holding.socksv5Read (h : Holding key.data s) (env : Env) :
    Holds (fun _ => True) (socksv5Read key env s) (Holding key.data) := by
  unfold Socks5d.socksv5Read
  apply holds_conn
  intro k hk
  split
  · have hfull := h.setInterest key.fd OP_NOOP
    exact of_ite (hfull.setInterest _ _) hfull
  split
  · apply Holds.seq
    intro inBuff _
    have hreceived := fun bytes => (h.setConn hk { k with inBuff := inBuff } rfl).note
      (.recv key.data .client bytes)
    exact ((hreceived _).stmHandlerRead env).bind fun r hr => of_ite hr.incErrors hr
  · exact (h.note _).unregisterBoth true false
  · rename_i e _
    split
    · exact h.setErrno e
    · exact (h.setErrno e).incErrors.unregisterBoth true false

end Reading

section Connecting

/-- A failed attempt closes the socket it opened. -/
theorem Vacant.attempt (h : Vacant c s) (peer : AddrInfo) (e : Errno) :
    Vacant c (((openSocket c peer s).2.setErrno e).close (openSocket c peer s).1) := by
  refine ⟨h.books, fun n p ho => h.origin n p ?_⟩
  have howner : ((s.kernel.openFd s.kernel.lowest (.origin c peer)).close
      s.kernel.lowest).owner n = some (.origin c p) := ho
  rwa [owner_openFd_close] at howner

/-- A socket that is kept is the one whose number the walk returns. -/
theorem Vacant.openSocket (h : Vacant c s) (peer : AddrInfo) {n : ℕ} {p : AddrInfo}
    (ho : (Socks5d.openSocket c peer s).2.kernel.owner n = some (.origin c p)) :
    n = 0 ∨ ((Socks5d.openSocket c peer s).1 : ℤ) = n := by
  have howner : (s.kernel.openFd s.kernel.lowest (.origin c peer)).owner n =
      some (.origin c p) := ho
  rw [Kernel.owner_openFd] at howner
  split at howner
  · rename_i hn
    exact .inr (congrArg Nat.cast hn.symm)
  · exact .inl (h.origin n p howner)

/-- The walk over the addresses leaves at most one socket open. -/
theorem Vacant.connectToHostLoop (h : Vacant c s) (hk : s.conns c = some k)
    (res addrs : List AddrInfo) (outcomes : List ConnectOutcome) (sockFd : ℤ) :
    let r := connectToHostLoop c res addrs outcomes sockFd s
    r.server.selector = s.selector ∧ r.server.conns c = some k ∧
      ∀ fd p, r.server.kernel.owner fd = some (.origin c p) → fd = 0 ∨ r.sockFd = fd := by
  induction addrs generalizing s outcomes sockFd with
  | nil => exact ⟨rfl, hk, fun fd p ho => .inl (h.origin fd p ho)⟩
  | cons rp next ih =>
    have htried : Vacant c (s.note (.attempt c rp)) := h.of_eq rfl rfl
    simp only [Socks5d.connectToHostLoop]
    split
    · exact ⟨rfl, hk, fun fd p ho => .inl (h.origin fd p ho)⟩
    · exact ⟨rfl, hk, fun fd p ho => htried.openSocket rp ho⟩
    · rename_i e _
      split
      · exact ⟨rfl, hk, fun fd p ho => htried.openSocket rp ho⟩
      · obtain ⟨hsel, hk', horigin⟩ := ih (htried.attempt rp e) hk outcomes.tail
          (Socks5d.openSocket c rp (s.note (.attempt c rp))).1
        exact ⟨hsel, hk', horigin⟩

/-- A walk over the resolved addresses keeps the socket it found as `origin_fd`. -/
theorem Vacant.connectToHost (h : Vacant c s) (outcomes : List ConnectOutcome) :
    Holds (fun _ => True) (connectToHost c outcomes s) fun r => Holding c r.2 := by
  unfold Socks5d.connectToHost
  apply holds_conn
  intro k hk
  obtain ⟨hsel, -, horigin⟩ := h.connectToHostLoop hk k.addrInfo k.addrInfo outcomes k.originFd
  refine ⟨hsel ▸ h.books, fun fd p ho => ?_⟩
  rcases horigin fd p ho with hzero | hfd
  · exact .inl hzero
  · exact .inr ⟨_, Function.update_self _ _ _, hfd⟩

/-- Queueing a refusal opens nothing. -/
theorem Holding.queueConnReqErrorResponse (h : Holding c s) (status : UInt8) :
    Holds (fun _ => True) (queueConnReqErrorResponse c status s) (Holding c) := by
  unfold Socks5d.queueConnReqErrorResponse
  refine (h.queueReply _ _).bind fun s h => ?_
  exact holds_conn fun k hk => h.setConn hk _ (by rfl)

/-- The notification of a connection that waits for it finds no socket open. -/
theorem Holding.connectingOnBlockReady (h : Holding key.data s) (env : Env)
    (hunset : ∀ k, s.conns key.data = some k → k.originFd = 0) :
    Holds (fun _ => True) (connectingOnBlockReady key env s) fun r => Holding key.data r.2 := by
  unfold Socks5d.connectingOnBlockReady
  apply holds_conn
  intro k hk
  split
  · refine (h.accessRegisterAddEntry _ _).bind fun s h => ?_
    refine (h.queueConnReqErrorResponse _).bind fun s h => ?_
    exact holds_conn fun k hk => h.setInterest _ _
  refine ((h.vacant hunset).connectToHost env.connects).bind ?_
  rintro ⟨result, s⟩ h
  dsimp only
  split
  · apply holds_conn
    intro k hk
    have hregistered := (Holding.setInterest h k.clientFd OP_NOOP).register k.originFd
      .connectingHandler OP_WRITE (some key.data)
    split
    · exact (hregistered.accessRegisterAddEntry _ _).bind fun _ h' => h'
    · exact hregistered
  split
  · refine (Holding.accessRegisterAddEntry h _ _).bind fun s h => ?_
    refine (h.queueReply _ _).bind fun s h => ?_
    refine (h.setInterest key.fd OP_WRITE).resetInBuff.bind fun s h => ?_
    exact (h.socksv5Write env.send).bind fun _ h' => h'
  · exact h

/-- A notification finds no socket open and keeps the one it opens. -/
theorem Holding.socksv5Block (h : Holding key.data s) (env : Env)
    (hunset : ∀ k, s.conns key.data = some k → k.originFd = 0) :
    Holds (fun _ => True) (socksv5Block key env s) (Holding key.data) := by
  have hready : ∀ state s, Holding key.data s →
      (state = .connecting → ∀ k, s.conns key.data = some k → k.originFd = 0) →
      Holds (fun _ => True) (onBlockReady state key env s) fun r => Holding key.data r.2 := by
    intro state s h hunset
    cases state with
    | connecting => exact h.connectingOnBlockReady env (hunset rfl)
    | _ => trivial
  have hhandled : Holds (fun _ => True) (stmHandlerBlock key env (s.note (.notified key.data)))
      fun r => Holding key.data r.2 := by
    unfold Socks5d.stmHandlerBlock
    apply Holds.seq
    intro _ _
    apply Holds.seq
    intro s₁ hs₁
    have h₁ := (h.note (.notified key.data)).handleFirst.result hs₁
    apply Holds.seq
    intro state hstate
    refine Holding.jumps (hready state s₁ h₁ fun hconnecting => ?_)
    rcases handleFirst_cases hs₁ with rfl | hfirst
    · exact hunset
    · -- a first event starts the greeting, which has no block handler
      rw [stms_of_stmState hstate, hconnecting] at hfirst
      cases hfirst
  refine hhandled.bind ?_
  rintro ⟨state, s⟩ h
  dsimp only
  split
  · exact holds_conn fun k _ => (Holding.incErrors h).selectorUnregisterFd k.clientFd
  · exact h

/-- Giving up a connect opens nothing. -/
theorem Holding.refuseConnecting (h : Holding key.data s) (env : Env) (code : UInt8) :
    Holds (fun _ => True) (refuseConnecting key env code s) (Holding key.data) := by
  unfold Socks5d.refuseConnecting
  refine (h.accessRegisterAddEntry _ _).bind fun s h => ?_
  refine (h.queueConnReqErrorResponse _).bind fun s h => ?_
  apply holds_conn
  intro k _
  refine (h.selectorUnregisterFd _).bind fun s h => ?_
  apply holds_conn
  intro k hk
  have hclosed : Vacant key.data ((s.close k.originFd).setConn key.data { k with originFd := -1 }) :=
    (h.vacate hk).of_eq rfl rfl
  exact (hclosed.setInterest _ _).holding

/-- Taking up a connect that stands opens nothing. -/
theorem Holding.acceptConnecting (h : Holding key.data s) (env : Env) :
    Holds (fun _ => True) (acceptConnecting key env s) (Holding key.data) := by
  unfold Socks5d.acceptConnecting
  apply holds_conn
  intro k hk
  refine ((h.setConn hk { k with addrInfo := [] } rfl).selectorUnregisterFd _).bind
    fun s h => ?_
  refine (h.stmHandlerRead env).bind fun r h => ?_
  refine (h.accessRegisterAddEntry _ _).bind fun s h => ?_
  refine (h.queueReply _ _).bind fun s h => ?_
  apply holds_conn
  intro k _
  refine (h.setInterest k.clientFd OP_WRITE).resetInBuff.bind fun s h => ?_
  exact h.socksv5Write env.send

/-- A retry closes the socket that failed before it opens another. -/
theorem Holding.handleWriteConnecting (h : Holding key.data s) (env : Env) :
    Holds (fun _ => True) (handleWriteConnecting key env s) (Holding key.data) := by
  unfold Socks5d.handleWriteConnecting
  apply holds_conn
  intro k hk
  have hchecked : Holding key.data (getSoError key.data k.originFd env s).2 ∧
      (getSoError key.data k.originFd env s).2.conns key.data = some k := by
    unfold getSoError
    split
    · exact of_ite (P := fun s => Holding key.data s ∧ s.conns key.data = some k)
        ⟨h.note _, hk⟩ ⟨h, hk⟩
    · exact ⟨(h.setErrno _).close _, hk⟩
  generalize getSoError key.data k.originFd env s = r at hchecked
  obtain ⟨err, s⟩ := r
  obtain ⟨hchecked, hk⟩ := hchecked
  dsimp only
  split
  · have hclosed := hchecked.vacate hk
    split
    · refine (hclosed.connectToHost env.connects).bind ?_
      rintro ⟨result, s⟩ h
      dsimp only
      split
      · exact h
      split
      · exact h.refuseConnecting env _
      · exact h.refuseConnecting env _
    · exact hclosed.holding.refuseConnecting env _
  · exact hchecked.acceptConnecting env

end Connecting

end Socks5d
