import Socks5d.Step
import Socks5d.Lib.Fallible
import Mathlib.Data.List.Count
import Mathlib.Data.List.Basic

/-!
# Ownership of descriptors and the view of one connection

The invariant that ties the descriptor table, the kernel and the heap together, and the frame
that a callback of one connection respects. A callback is followed through the view of its
connection: the record, the phase, the two registrations and the history. What it may do to
the rest of the server is said once, by the frame.
-/

namespace Socks5d

/-- The handlers registered on the origin's descriptor. -/
def FdHandler.isRelay : FdHandler → Bool
  | .connectingHandler | .copySelectorHandler => true
  | _ => false

/-- The handler and interest an item registers on behalf of a connection towards its origin. -/
def Item.relayOf (item : Item) (c : ConnId) : Option (FdHandler × FdInterest) :=
  match item.handler with
  | some h =>
    if item.used = true ∧ h.isRelay = true ∧ item.data = some c then some (h, item.interest)
    else none
  | none => none

/-- What one connection consists of between and during callbacks. -/
structure View where
  conn : Socks5Conn
  phase : Option Socks5State
  /-- The interest of the client's registration. -/
  interest : FdInterest
  /-- The registration of `origin_fd`, when it was made for this connection. -/
  relay : Option (FdHandler × FdInterest)
  /-- Queued notifications and running resolver threads. -/
  tokens : ℕ
  history : List Obs

namespace Server

def relay (s : Server) (c : ConnId) (k : Socks5Conn) : Option (FdHandler × FdInterest) :=
  if 0 < k.originFd then (s.selector.fds k.originFd.toNat).relayOf c else none

def tokens (s : Server) (c : ConnId) (k : Socks5Conn) : ℕ :=
  s.selector.resolutionJobs.count k.clientFd.toNat + s.resolving.count c

/-- The observations about one connection. -/
def history (s : Server) (c : ConnId) : List Obs := s.trace.filter fun o => o.conn == c

def view (s : Server) (c : ConnId) : Option View :=
  match s.conns c, s.stms c with
  | some k, some m =>
    some ⟨k, m.current, (s.selector.fds k.clientFd.toNat).interest, s.relay c k, s.tokens c k,
      s.history c⟩
  | _, _ => none

end Server

/-- The registrations the program makes, with the owner their descriptor has. A registration
for an origin may outlive its descriptor, which then belongs to nobody or to the origin of any
connection. -/
inductive Registered (s : Server) (fd : ℕ) : Item → Prop
  | listener (h : FdHandler) (i : FdInterest) (howner : s.kernel.owner fd = some .listener)
      (hpassive : h = .socksv5 ∨ h = .confProtocol) : Registered s fd ⟨fd, i, some h, none⟩
  | client (c : ConnId) (i : FdInterest) (howner : s.kernel.owner fd = some (.client c)) :
      Registered s fd ⟨fd, i, some .socks5Handler, some c⟩
  | relay (c : ConnId) (h : FdHandler) (i : FdInterest) (hrelay : h.isRelay = true)
      (howner : ∀ o, s.kernel.owner fd = some o → ∃ d p, o = .origin d p)
      (horigin : ∀ k, s.conns c = some k → k.originFd ≠ 0) (hknown : c < s.nextConn) :
      Registered s fd ⟨fd, i, some h, some c⟩
  | admin (i : FdInterest) (howner : s.kernel.owner fd = some .other) :
      Registered s fd ⟨fd, i, some .adminHandler, none⟩

/-- `origin_fd` is unset, given up, or a descriptor opened for this connection; in the middle
of a callback of the connection named by the hole it may have just been closed. -/
def OriginOwned (hole : Option ConnId) (s : Server) (c : ConnId) (k : Socks5Conn) : Prop :=
  k.originFd = 0 ∨ k.originFd = -1 ∨ ∃ fd : ℕ, k.originFd = fd ∧ 0 < fd ∧
    ((∃ p, s.kernel.owner fd = some (.origin c p)) ∨ hole = some c ∧ s.kernel.owner fd = none)

/-- The ownership invariant. -/
structure Owned (hole : Option ConnId) (s : Server) : Prop where
  registered : ∀ fd, (s.selector.fds fd).used = true →
    fd < ITEMS_MAX_SIZE ∧ Registered s fd (s.selector.fds fd)
  zero : s.kernel.owner 0 = some .listener
  listener : ∀ fd, s.kernel.owner fd = some .listener → (s.selector.fds fd).used = true
  client : ∀ fd c, s.kernel.owner fd = some (.client c) →
    (s.selector.fds fd).used = true ∧ ∃ k, s.conns c = some k ∧ k.clientFd = fd
  conn : ∀ c k, s.conns c = some k →
    (∃ fd : ℕ, k.clientFd = fd ∧ s.kernel.owner fd = some (.client c)) ∧
      OriginOwned hole s c k ∧ k.stm = true ∧ (s.stms c).isSome = true
  stm : ∀ c, (s.stms c).isSome = true → (s.conns c).isSome = true
  known : ∀ c, (s.conns c).isSome = true → c < s.nextConn
  trace : ∀ o ∈ s.trace, o.conn < s.nextConn
  jobs : ∀ fd ∈ s.selector.resolutionJobs, ∃ c, s.kernel.owner fd = some (.client c)
  resolving : ∀ c ∈ s.resolving, (s.conns c).isSome = true
  /-- The table covers every valid descriptor, so it never grows. -/
  fdSize : ITEMS_MAX_SIZE ≤ s.selector.fdSize

/-- A descriptor the connection owns, or opens on the way to the second state. -/
def Touched (c : ConnId) (s s' : Server) (fd : ℕ) : Prop :=
  s.kernel.owner fd = some (.client c) ∨ (∃ p, s.kernel.owner fd = some (.origin c p)) ∨
    s.kernel.owner fd = none ∧ Obs.opened c fd ∈ s'.trace.drop s.trace.length

/-- What a callback of a connection may change. With `zero` the interest of a listener may
change as well, which is what a write to descriptor 0 through an unset `origin_fd` does. -/
structure Frame (zero : Bool) (c : ConnId) (s s' : Server) : Prop where
  conns : ∀ d, d ≠ c → s'.conns d = s.conns d
  stms : ∀ d, d ≠ c → s'.stms d = s.stms d
  items : ∀ fd, s'.selector.fds fd = s.selector.fds fd ∨ Touched c s s' fd ∨
    zero = true ∧ s.kernel.owner fd = some .listener ∧
      ∃ i, s'.selector.fds fd = { s.selector.fds fd with interest := i }
  owners : ∀ fd, s'.kernel.owner fd = s.kernel.owner fd ∨ Touched c s s' fd ∧
    (s'.kernel.owner fd = none ∨ ∃ p, s'.kernel.owner fd = some (.origin c p))
  registrations : ∀ fd d, d ≠ c → ∀ r, (s'.selector.fds fd).relayOf d = some r →
    ∃ i, (s.selector.fds fd).relayOf d = some (r.1, i)
  trace : ∃ t, s'.trace = s.trace ++ t ∧ ∀ o ∈ t, o.conn = c
  resolving : ∀ d, d ≠ c → s'.resolving.count d = s.resolving.count d
  jobs : ∃ t, s'.selector.resolutionJobs = t ++ s.selector.resolutionJobs ∧
    ∀ fd ∈ t, s.kernel.owner fd = some (.client c)
  nextConn : s'.nextConn = s.nextConn
  users : s'.users = s.users
  bufferSize : s'.bufferSize = s.bufferSize
  maxConn : s'.maxConn = s.maxConn
  junk : s'.junk = s.junk

section Frames

variable {zero : Bool} {hole : Option ConnId} {c d : ConnId} {s s₁ s₂ : Server}

theorem Frame.refl (zero : Bool) (c : ConnId) (s : Server) : Frame zero c s s where
  conns _ _ := rfl
  stms _ _ := rfl
  items _ := .inl rfl
  owners _ := .inl rfl
  registrations _ _ _ r hr := ⟨r.2, hr⟩
  trace := ⟨[], by simp, by simp⟩
  resolving _ _ := rfl
  jobs := ⟨[], by simp, by simp⟩
  nextConn := rfl
  users := rfl
  bufferSize := rfl
  maxConn := rfl
  junk := rfl

/-- A descriptor touched on the way to a state is touched on the way to later ones. -/
theorem Touched.extend {fd : ℕ} (h : Touched c s s₁ fd) (hf : ∃ t, s₁.trace = s.trace ++ t)
    (hf' : ∃ t, s₂.trace = s₁.trace ++ t) : Touched c s s₂ fd := by
  obtain ⟨t, ht⟩ := hf
  obtain ⟨u, hu⟩ := hf'
  rcases h with h | h | ⟨h, hopen⟩
  · exact .inl h
  · exact .inr (.inl h)
  · refine .inr (.inr ⟨h, ?_⟩)
    rw [ht, List.drop_left] at hopen
    rw [hu, ht, List.append_assoc, List.drop_left]
    exact List.mem_append_left _ hopen

/-- A descriptor touched in the second part of a callback is touched by the whole. -/
theorem Frame.touched_trans (h₁ : Frame zero c s s₁) (h₂ : Frame zero c s₁ s₂) {fd : ℕ}
    (h : Touched c s₁ s₂ fd) : Touched c s s₂ fd := by
  obtain ⟨t, ht, -⟩ := h₁.trace
  obtain ⟨u, hu, -⟩ := h₂.trace
  rcases h₁.owners fd with heq | ⟨htouched, -⟩
  · rcases h with h | h | ⟨h, hopen⟩
    · exact .inl (heq ▸ h)
    · exact .inr (.inl (heq ▸ h))
    · refine .inr (.inr ⟨heq ▸ h, ?_⟩)
      rw [hu, List.drop_left] at hopen
      rw [hu, ht, List.append_assoc, List.drop_left]
      exact List.mem_append_right _ hopen
  · exact htouched.extend ⟨t, ht⟩ ⟨u, hu⟩

/-- A callback opens no client's descriptor. -/
theorem Frame.owner_client (h : Frame zero c s s₁) {fd : ℕ} {d : ConnId}
    (hown : s₁.kernel.owner fd = some (.client d)) : s.kernel.owner fd = some (.client d) := by
  rcases h.owners fd with heq | ⟨-, hnone | ⟨p, hp⟩⟩
  · rw [← heq, hown]
  · rw [hnone] at hown; cases hown
  · rw [hp] at hown; cases hown

/-- The observations a framed callback adds are its own. -/
theorem Frame.history (h : Frame zero c s s₁) (hd : d ≠ c) : s₁.history d = s.history d := by
  obtain ⟨t, ht, htc⟩ := h.trace
  have hnone : t.filter (fun o => o.conn == d) = [] := by
    rw [List.filter_eq_nil_iff]
    intro o ho
    simp [htc o ho, Ne.symm hd]
  simp [Server.history, ht, hnone]

/-- A descriptor owned by another connection is not touched. -/
theorem not_touched_of_owner {fd : ℕ} {o : FdOwner} (hown : s.kernel.owner fd = some o)
    (hne : o.conn ≠ some c) : ¬ Touched c s s₁ fd := by
  rintro (h | ⟨p, h⟩ | ⟨h, -⟩)
  · rw [hown] at h
    obtain rfl := Option.some.inj h
    exact hne rfl
  · rw [hown] at h
    obtain rfl := Option.some.inj h
    exact hne rfl
  · rw [hown] at h
    cases h

/-- What is registered at another connection's origin survives a framed callback. -/
theorem Frame.originItem (howned : Owned none s) (h : Frame zero c s s₁) (hd : d ≠ c)
    {k : Socks5Conn} (hk : s.conns d = some k) {n : ℕ} (hn : k.originFd = n) (hpos : 0 < n) :
    s₁.selector.fds n = s.selector.fds n := by
  rcases (howned.conn d k hk).2.1 with h0 | h1 | ⟨m, hm, -, ⟨p, hp⟩ | ⟨hhole, -⟩⟩
  · omega
  · omega
  · obtain rfl : m = n := by omega
    have hne : FdOwner.conn (.origin d p) ≠ some c := by simpa [FdOwner.conn] using hd
    rcases h.items m with heq | htouched | ⟨-, hl, -⟩
    · exact heq
    · exact absurd htouched (not_touched_of_owner hp hne)
    · rw [hp] at hl; cases hl
  · cases hhole

/-- The view of every other connection survives a framed callback. -/
theorem Frame.view (howned : Owned none s) (h : Frame zero c s s₁) (hd : d ≠ c) :
    s₁.view d = s.view d := by
  have hconns := h.conns d hd
  have hstms := h.stms d hd
  simp only [Server.view, hconns, hstms]
  cases hk : s.conns d with
  | none => rfl
  | some k =>
    cases hm : s.stms d with
    | none => rfl
    | some m =>
      obtain ⟨⟨fd, hfd, hown⟩, horigin, -, -⟩ := howned.conn d k hk
      have hne : FdOwner.conn (.client d) ≠ some c := by simpa [FdOwner.conn] using hd
      have hitem : s₁.selector.fds fd = s.selector.fds fd := by
        rcases h.items fd with heq | htouched | ⟨-, hl, -⟩
        · exact heq
        · exact absurd htouched (not_touched_of_owner hown hne)
        · rw [hown] at hl; cases hl
      have hjobs : s₁.selector.resolutionJobs.count fd = s.selector.resolutionJobs.count fd := by
        obtain ⟨t, ht, htc⟩ := h.jobs
        have hnot : fd ∉ t := fun hmem => hd (by simpa [hown] using htc fd hmem)
        rw [ht, List.count_append, List.count_eq_zero_of_not_mem hnot, Nat.zero_add]
      have hrelay : s₁.relay d k = s.relay d k := by
        rcases horigin with h0 | h1 | ⟨n, hn, hpos, -⟩
        · simp [Server.relay, h0]
        · simp [Server.relay, h1]
        · simp [Server.relay, hn, h.originItem howned hd hk hn hpos]
      have htokens : s₁.tokens d k = s.tokens d k := by
        simp [Server.tokens, hfd, hjobs, h.resolving d hd]
      simp [hfd, hitem, hrelay, htokens, h.history hd]

end Frames

end Socks5d
