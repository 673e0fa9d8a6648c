import Socks5d.Ownership

/-!
# Following a callback

`Tracks` says where a callback of one connection stands: it keeps the frame of the state it
started in, the ownership invariant, and knows the view of its connection. Each primitive of
the code has one lemma that says how it moves the view; the handlers are then followed by
chaining these lemmas in the order of the code.
-/

namespace Socks5d

/-- What is known of a callback beyond the ownership invariant: whether it may write through an
unset `origin_fd`, and whether its connection leaves no registration behind. -/
structure Mode where
  zero : Bool
  tidy : Bool

/-- Every registration made for the connection towards its origin is at its `origin_fd`. -/
def Tidy (c : ConnId) (s : Server) : Prop :=
  ∀ (fd : ℕ) (r : FdHandler × FdInterest), (s.selector.fds fd).relayOf c = some r →
    ∃ k, s.conns c = some k ∧ k.originFd = fd

/-- Between two primitives of a callback of connection `c` that started in `s₀`; with `hole`
the callback may have closed `origin_fd` and not yet replaced it. -/
structure Tracks (mode : Mode) (hole : Bool) (c : ConnId) (s₀ : Server) (v : View) (s : Server) :
    Prop where
  owned : Owned (cond hole (some c) none) s
  view : s.view c = some v
  frame : Frame mode.zero c s₀ s
  tidy : mode.tidy = true → Tidy c s
  copies : ∀ fd i, (s.selector.fds fd).relayOf c = some (.copySelectorHandler, i) →
    (v.phase = some .copy ∨ v.phase = some .error) ∧ v.conn.originFd = fd
  origin : ∀ fd : ℕ, v.conn.originFd = fd → 0 < fd → Touched c s₀ s fd

/-- After the connection was released, with the history it leaves. -/
structure Released (mode : Mode) (c : ConnId) (s₀ : Server) (history : List Obs)
    (s : Server) : Prop where
  owned : Owned none s
  conns : s.conns c = none
  stms : s.stms c = none
  history_eq : s.history c = history
  frame : Frame mode.zero c s₀ s
  tidy : mode.tidy = true → Tidy c s

/-- What a view shows is there. -/
theorem view_eq_some_iff {s : Server} {c : ConnId} {v : View} :
    s.view c = some v ↔
      s.conns c = some v.conn ∧ s.stms c = some ⟨v.phase⟩ ∧
        (s.selector.fds v.conn.clientFd.toNat).interest = v.interest ∧
        s.relay c v.conn = v.relay ∧ s.tokens c v.conn = v.tokens ∧ s.history c = v.history := by
  unfold Server.view
  constructor
  · intro h
    cases hk : s.conns c with
    | none => simp [hk] at h
    | some k =>
      cases hm : s.stms c with
      | none => simp [hk, hm] at h
      | some m =>
        simp only [hk, hm, Option.some.injEq] at h
        subst h
        simp
  · rintro ⟨hk, hm, hi, hr, ht, hh⟩
    simp [hk, hm, hi, hr, ht, hh]

/-- Two states that differ in nothing the ownership invariant speaks about. -/
structure SameSkeleton (s s' : Server) : Prop where
  items : ∀ fd, ∃ i, s'.selector.fds fd = { s.selector.fds fd with interest := i }
  owner : s'.kernel.owner = s.kernel.owner
  ids : ∀ d, (s'.conns d).map (fun k => (k.clientFd, k.originFd, k.stm)) =
    (s.conns d).map fun k => (k.clientFd, k.originFd, k.stm)
  stms : ∀ d, (s'.stms d).isSome = (s.stms d).isSome
  nextConn : s'.nextConn = s.nextConn
  resolving : s'.resolving = s.resolving
  jobs : s'.selector.resolutionJobs = s.selector.resolutionJobs
  fdSize : s'.selector.fdSize = s.selector.fdSize
  trace : ∀ o ∈ s'.trace, o ∈ s.trace ∨ o.conn < s.nextConn

/-- An item registered for a connection towards its origin. -/
theorem relayOf_eq_some_iff {item : Item} {c : ConnId} {r : FdHandler × FdInterest} :
    item.relayOf c = some r ↔ item.used = true ∧ item.handler = some r.1 ∧ r.1.isRelay = true ∧
      item.data = some c ∧ item.interest = r.2 := by
  unfold Item.relayOf
  cases item.handler with
  | none => simp
  | some handler =>
    by_cases hc : item.used = true ∧ handler.isRelay = true ∧ item.data = some c
    · simp only [hc, and_self, if_true, Option.some.injEq]
      constructor
      · rintro rfl
        simp [hc]
      · rintro ⟨-, rfl, -, -, hi⟩
        rw [hi]
    · simp only [hc, if_false, Option.some.injEq, false_iff, reduceCtorEq]
      rintro ⟨h₁, rfl, h₂, h₃, -⟩
      exact hc ⟨h₁, h₂, h₃⟩

section Skeleton

variable {hole : Option ConnId} {s s' : Server}

/-- A record that is there was there, with the same descriptors. -/
theorem SameSkeleton.conn (h : SameSkeleton s s') {d : ConnId} {k' : Socks5Conn}
    (hk : s'.conns d = some k') :
    ∃ k, s.conns d = some k ∧ k.clientFd = k'.clientFd ∧ k.originFd = k'.originFd ∧
      k.stm = k'.stm := by
  have hids := h.ids d
  rw [hk, Option.map_some] at hids
  obtain ⟨k, hk₀, heq⟩ := Option.map_eq_some_iff.mp hids.symm
  simp only [Prod.mk.injEq] at heq
  exact ⟨k, hk₀, heq⟩

/-- The same connections are there. -/
theorem SameSkeleton.conn_isSome (h : SameSkeleton s s') (d : ConnId) :
    (s'.conns d).isSome = (s.conns d).isSome := by
  have hids := congrArg Option.isSome (h.ids d)
  simpa using hids

/-- A record that was there still is, with the same descriptors. -/
theorem SameSkeleton.conn' (h : SameSkeleton s s') {d : ConnId} {k : Socks5Conn}
    (hk : s.conns d = some k) :
    ∃ k', s'.conns d = some k' ∧ k.clientFd = k'.clientFd ∧ k.originFd = k'.originFd ∧
      k.stm = k'.stm := by
  have hsome := h.conn_isSome d
  rw [hk, Option.isSome_some] at hsome
  obtain ⟨k', hk'⟩ := Option.isSome_iff_exists.mp hsome
  obtain ⟨k₀, hk₀, hids⟩ := h.conn hk'
  obtain rfl := Option.some.inj (hk.symm.trans hk₀)
  exact ⟨k', hk', hids⟩

/-- The same entries are in use. -/
theorem SameSkeleton.used (h : SameSkeleton s s') (fd : ℕ) :
    (s'.selector.fds fd).used = (s.selector.fds fd).used := by
  obtain ⟨i, hi⟩ := h.items fd
  rw [hi]
  rfl

/-- What is registered stays so, whatever its interest is. -/
theorem Registered.of_skeleton (h : SameSkeleton s s') {fd : ℕ} {item : Item} {i : FdInterest}
    (hr : Registered s fd item) : Registered s' fd { item with interest := i } := by
  cases hr with
  | listener handler j howner hpassive => exact .listener handler i (h.owner ▸ howner) hpassive
  | client c j howner => exact .client c i (h.owner ▸ howner)
  | relay c handler j hrelay howner horigin hknown =>
    refine .relay c handler i hrelay (fun o ho => howner o (h.owner ▸ ho)) ?_
      (h.nextConn ▸ hknown)
    intro k' hk'
    obtain ⟨k, hk, -, horig, -⟩ := h.conn hk'
    exact horig ▸ horigin k hk
  | admin j howner => exact .admin i (h.owner ▸ howner)

/-- The same registrations are made for every connection. -/
theorem SameSkeleton.registrations (h : SameSkeleton s s') {fd : ℕ} {d : ConnId}
    {r : FdHandler × FdInterest} (hr : (s'.selector.fds fd).relayOf d = some r) :
    ∃ i, (s.selector.fds fd).relayOf d = some (r.1, i) := by
  obtain ⟨i, hi⟩ := h.items fd
  rw [relayOf_eq_some_iff, hi] at hr
  obtain ⟨hused, hhandler, hrelay, hdata, -⟩ := hr
  exact ⟨(s.selector.fds fd).interest, relayOf_eq_some_iff.mpr
    ⟨hused, hhandler, hrelay, hdata, rfl⟩⟩

/-- Registrations stay at `origin_fd`. -/
theorem Tidy.of_skeleton {c : ConnId} (h : SameSkeleton s s') (ht : Tidy c s) : Tidy c s' := by
  intro fd r hr
  obtain ⟨i, hi⟩ := h.registrations hr
  obtain ⟨k, hk, hfd⟩ := ht fd _ hi
  obtain ⟨k', hk', -, horigin, -⟩ := h.conn' hk
  exact ⟨k', hk', horigin ▸ hfd⟩

/-- The ownership invariant only speaks about the skeleton. -/
theorem Owned.of_skeleton (h : SameSkeleton s s') (ho : Owned hole s) : Owned hole s' where
  registered fd hused := by
    obtain ⟨i, hi⟩ := h.items fd
    obtain ⟨hlt, hr⟩ := ho.registered fd (h.used fd ▸ hused)
    exact ⟨hlt, hi ▸ hr.of_skeleton h⟩
  zero := h.owner ▸ ho.zero
  listener fd hown := by
    rw [h.used]
    exact ho.listener fd (h.owner ▸ hown)
  client fd c hown := by
    obtain ⟨hused, k, hk, hfd⟩ := ho.client fd c (h.owner ▸ hown)
    obtain ⟨k', hk', hclient, -, -⟩ := h.conn' hk
    exact ⟨by rw [h.used]; exact hused, k', hk', hclient ▸ hfd⟩
  conn c k' hk' := by
    obtain ⟨k, hk, hclient, horig, hstm⟩ := h.conn hk'
    obtain ⟨hfd, horigin, hs, hm⟩ := ho.conn c k hk
    refine ⟨by rw [← hclient, h.owner]; exact hfd, ?_, hstm ▸ hs, by rw [h.stms]; exact hm⟩
    unfold OriginOwned
    rw [← horig, h.owner]
    exact horigin
  stm c hm := by
    rw [h.conn_isSome]
    exact ho.stm c (h.stms c ▸ hm)
  known c hc := by
    rw [h.nextConn]
    exact ho.known c (h.conn_isSome c ▸ hc)
  trace o hmem := by
    rw [h.nextConn]
    rcases h.trace o hmem with hold | hnew
    · exact ho.trace o hold
    · exact hnew
  jobs fd hmem := by
    rw [h.owner]
    exact ho.jobs fd (h.jobs ▸ hmem)
  resolving c hmem := by
    rw [h.conn_isSome]
    exact ho.resolving c (h.resolving ▸ hmem)
  fdSize := h.fdSize ▸ ho.fdSize

end Skeleton

/-- The table after `selector_set_interest`. -/
theorem fds_setInterest (s : Server) (fd : ℤ) (i : FdInterest) (n : ℕ)
    (hlt : (s.selector.fds n).used = true → n < ITEMS_MAX_SIZE) :
    (s.setInterest fd i).selector.fds n =
      if (n : ℤ) = fd ∧ (s.selector.fds n).used = true then { s.selector.fds n with interest := i }
      else s.selector.fds n := by
  unfold Server.setInterest selectorSetInterest
  by_cases hinv : invalidFd fd = true
  · rw [if_pos hinv, if_neg]
    rintro ⟨heq, hused⟩
    have := hlt hused
    simp only [invalidFd, Bool.or_eq_true, decide_eq_true_eq] at hinv
    omega
  · rw [if_neg hinv]
    simp only [invalidFd, Bool.or_eq_true, decide_eq_true_eq, not_or, not_lt, not_le] at hinv
    by_cases hused : (s.selector.fds fd.toNat).used = true
    · simp only [hused, Bool.not_true, Bool.false_eq_true, if_false, itemsUpdateFdsetForFd]
      by_cases hn : (n : ℤ) = fd
      · obtain rfl : n = fd.toNat := by omega
        simp [hn, hused]
      · have hne : n ≠ fd.toNat := by omega
        simp [hn, hne]
    · simp only [hused, Bool.not_false, if_true]
      rw [if_neg]
      rintro ⟨heq, hused'⟩
      obtain rfl : n = fd.toNat := by omega
      exact hused hused'

/-- Changing an interest queues no notification. -/
@[simp] theorem jobs_setInterest (s : Server) (fd : ℤ) (i : FdInterest) :
    (s.setInterest fd i).selector.resolutionJobs = s.selector.resolutionJobs := by
  unfold Server.setInterest selectorSetInterest
  split
  · rfl
  · split <;> rfl

/-- Changing an interest does not resize the table. -/
@[simp] theorem fdSize_setInterest (s : Server) (fd : ℤ) (i : FdInterest) :
    (s.setInterest fd i).selector.fdSize = s.selector.fdSize := by
  unfold Server.setInterest selectorSetInterest
  split
  · rfl
  · split <;> rfl

/-- Changing an interest keeps the skeleton. -/
theorem sameSkeleton_setInterest {hole : Option ConnId} {s : Server} (ho : Owned hole s) (fd : ℤ)
    (i : FdInterest) : SameSkeleton s (s.setInterest fd i) where
  items n := by
    rw [fds_setInterest s fd i n fun h => (ho.registered n h).1]
    split
    · exact ⟨i, rfl⟩
    · exact ⟨(s.selector.fds n).interest, rfl⟩
  owner := rfl
  ids _ := rfl
  stms _ := rfl
  nextConn := rfl
  resolving := rfl
  jobs := jobs_setInterest s fd i
  fdSize := fdSize_setInterest s fd i
  trace _ ho := .inl ho

end Socks5d
