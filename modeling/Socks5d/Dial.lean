import Socks5d.Descriptors

/-!
# The walk over the resolved addresses

`connect_to_host` seen from outside: which addresses it tries, how the walk ends, and what it
leaves in the connection. All sockets of one walk get the same number, the lowest free one.
-/

namespace Socks5d

open Fallible

/-- How a walk over a list of addresses ends. -/
inductive Dial
  | refused
  | noSocket
  | connected (peer : AddrInfo)
  | pending (peer : AddrInfo) (rest : List AddrInfo)
  deriving DecidableEq

/-- The end of the walk, given the outcomes of the attempts in order. -/
def dial : List AddrInfo → List ConnectOutcome → Dial
  | [], _ => .refused
  | rp :: next, outcomes =>
    match outcomes.headD (.failed .econnrefused) with
    | .socketFails _ => .noSocket
    | .connected => .connected rp
    | .failed e => if e = .einprogress then .pending rp next else dial next outcomes.tail

/-- What the walk notes when its sockets get the given number. -/
def dialHistory (c : ConnId) (fd : ℕ) : List AddrInfo → List ConnectOutcome → List Obs
  | [], _ => []
  | rp :: next, outcomes =>
    .attempt c rp ::
      match outcomes.headD (.failed .econnrefused) with
      | .socketFails _ => []
      | .connected => [.opened c fd, .established c]
      | .failed e =>
        .opened c fd ::
          if e = .einprogress then [] else dialHistory c fd next outcomes.tail

namespace Dial

/-- The value `connect_to_host` returns. -/
def code : Dial → ℤ
  | refused => CONNECTION_FAILED
  | noSocket => CONNECTION_IN_PROGRESS
  | connected _ => CONNECTION_SUCCESS
  | pending _ _ => CONNECTION_IN_PROGRESS

/-- The value left in `origin_fd`; after a refused walk it is the number of a closed socket. -/
def originFd (fd : ℕ) : Dial → ℤ
  | noSocket => -1
  | _ => fd

/-- The list left in `addr_info`. -/
def addrInfo (res : List AddrInfo) : Dial → List AddrInfo
  | refused => []
  | noSocket => res
  | connected _ => []
  | pending _ rest => rest

def isRefused : Dial → Bool
  | refused => true
  | _ => false

/-- The address the kept socket belongs to. -/
def peer : Dial → Option AddrInfo
  | connected peer => some peer
  | pending peer _ => some peer
  | _ => none

end Dial

variable {mode : Mode} {hole : Bool} {c : ConnId} {s₀ s : Server} {v : View}

/-- The loop follows `dial`, and the kernel afterwards holds the kept socket. -/
theorem Tracks.connectToHostLoop (res : List AddrInfo) (addrs : List AddrInfo)
    (h : Tracks mode hole c s₀ v s) (outcomes : List ConnectOutcome) (sockFd : ℤ) (fd : ℕ)
    (hlowest : s.kernel.lowest = fd)
    (hlast : addrs = [] → sockFd = fd ∧ Touched c s₀ s fd) :
    let r := Socks5d.connectToHostLoop c res addrs outcomes sockFd s
    let d := dial addrs outcomes
    r.code = d.code ∧ r.sockFd = d.originFd fd ∧ r.res = d.addrInfo res ∧
      Tracks mode hole c s₀ { v with history := v.history ++ dialHistory c fd addrs outcomes }
        r.server ∧
      r.server.selector = s.selector ∧
      (d = .refused → r.server.kernel.owner fd = none ∧ Touched c s₀ r.server fd) ∧
      ∀ peer, d.peer = some peer → r.server.kernel.owner fd = some (.origin c peer) := by
  induction addrs generalizing v s outcomes sockFd with
  | nil =>
    obtain ⟨hsock, htouched⟩ := hlast rfl
    refine ⟨rfl, hsock, rfl, ?_, rfl, fun _ => ⟨?_, htouched⟩, fun peer hp => by cases hp⟩
    · simpa [Socks5d.connectToHostLoop, dialHistory] using h
    · rw [← hlowest]
      exact s.kernel.owner_lowest
  | cons rp next ih =>
    have h₁ := h.note (.attempt c rp) rfl
    have hlow₁ : (s.note (.attempt c rp)).kernel.lowest = fd := hlowest
    simp only [Socks5d.connectToHostLoop, dial, dialHistory]
    cases hout : outcomes.headD (.failed .econnrefused) with
    | socketFails e =>
      refine ⟨rfl, rfl, rfl, ?_, rfl, by simp, fun peer hp => by cases hp⟩
      simpa using h₁.setErrno e
    | connected =>
      have h₂ := (h₁.openSocket rp).note (.established c) rfl
      rw [hlow₁] at h₂
      refine ⟨rfl, ?_, rfl, ?_, rfl, by simp, ?_⟩
      · simp [Socks5d.openSocket, hlow₁, Dial.originFd]
      · simpa [List.append_assoc] using h₂
      · intro peer hp
        obtain rfl : rp = peer := by simpa [Dial.peer] using hp
        simp [Socks5d.openSocket, Server.note, ← hlow₁]
    | failed e =>
      by_cases he : e = .einprogress
      · have h₂ := (h₁.openSocket rp).setErrno e
        rw [hlow₁] at h₂
        simp only [he, if_true]
        refine ⟨rfl, ?_, rfl, ?_, rfl, by simp, ?_⟩
        · simp [Socks5d.openSocket, hlow₁, Dial.originFd]
        · simpa [List.append_assoc, he] using h₂
        · intro peer hp
          obtain rfl : rp = peer := by simpa [Dial.peer] using hp
          simp [Socks5d.openSocket, Server.note, Server.setErrno, ← hlow₁]
      · obtain ⟨h₂, howner, htouched⟩ := h₁.attemptFails rp e
        have hlow₂ := Kernel.lowest_congr howner
        rw [hlow₁] at h₂ hlow₂ htouched
        have hfd : (Socks5d.openSocket c rp (s.note (.attempt c rp))).1 = fd := hlow₁
        simp only [he, if_false, hfd]
        obtain ⟨hcode, hsock, hres, htracks, hsel, hrest⟩ :=
          ih h₂ outcomes.tail fd hlow₂ (fun _ => ⟨rfl, htouched⟩)
        refine ⟨hcode, hsock, hres, ?_, hsel.trans rfl, hrest⟩
        simpa only [List.append_assoc, List.cons_append, List.nil_append] using htracks

/-- `connect_to_host` on a non-empty list. To leave no registration behind, either there is none
or the new socket takes the old number. -/
theorem Tracks.connectToHost (h : Tracks mode hole c s₀ v s) (hne : v.conn.addrInfo ≠ [])
    (hphase : v.phase = some .connecting) (outcomes : List ConnectOutcome)
    (htidy : mode.tidy = true → v.relay = none ∨
      (dial v.conn.addrInfo outcomes).originFd s.kernel.lowest = v.conn.originFd) :
    let d := dial v.conn.addrInfo outcomes
    let fd := s.kernel.lowest
    let k := { v.conn with originFd := d.originFd fd, addrInfo := d.addrInfo v.conn.addrInfo }
    ∃ s', Socks5d.connectToHost c outcomes s = .ok (d.code, s') ∧
      Tracks mode d.isRefused c s₀
        { v with conn := k, relay := s.relay c k
                 history := v.history ++ dialHistory c fd v.conn.addrInfo outcomes } s' ∧
      s'.selector = s.selector ∧
      ∀ peer, d.peer = some peer → s'.kernel.owner fd = some (.origin c peer) := by
  intro d fd k
  obtain ⟨hcode, hsock, hres, htracks, hsel, hrefused, hpeer⟩ :=
    h.connectToHostLoop v.conn.addrInfo v.conn.addrInfo outcomes v.conn.originFd fd rfl
      (fun hnil => absurd hnil hne)
  have hpos : 0 < fd := h.lowest_pos
  have hk : k = { v.conn with
      originFd := (Socks5d.connectToHostLoop c v.conn.addrInfo v.conn.addrInfo outcomes
        v.conn.originFd s).sockFd
      addrInfo := (Socks5d.connectToHostLoop c v.conn.addrInfo v.conn.addrInfo outcomes
        v.conn.originFd s).res } := by
    rw [hsock, hres]
  refine ⟨(Socks5d.connectToHostLoop c v.conn.addrInfo v.conn.addrInfo outcomes
    v.conn.originFd s).server.setConn c k, ?_, ?_, ?_, hpeer⟩
  · simp only [Socks5d.connectToHost, h.conn_eq, ok_bind, pure_eq_ok]
    rw [hcode, ← hk]
  · have hrelay : s.relay c k = (Socks5d.connectToHostLoop c v.conn.addrInfo v.conn.addrInfo
        outcomes v.conn.originFd s).server.relay c k := by
      simp only [Server.relay, hsel]
    rw [hrelay]
    have hstate : ∀ n : ℕ, k.originFd = n → 0 < n → n = fd ∧ d ≠ .noSocket := by
      intro n hn hnpos
      cases hd : d with
      | noSocket =>
        simp only [k, hd, Dial.originFd] at hn
        omega
      | refused =>
        simp only [k, hd, Dial.originFd] at hn
        exact ⟨by omega, by simp⟩
      | connected p =>
        simp only [k, hd, Dial.originFd] at hn
        exact ⟨by omega, by simp⟩
      | pending p r =>
        simp only [k, hd, Dial.originFd] at hn
        exact ⟨by omega, by simp⟩
    refine htracks.setOrigin k rfl rfl ?_ ?_ ?_ ?_ (.inl (by simp [hphase]))
    · cases hd : d with
      | noSocket => simp [k, hd, Dial.originFd]
      | refused => simp only [k, hd, Dial.originFd]; omega
      | connected p => simp only [k, hd, Dial.originFd]; omega
      | pending p r => simp only [k, hd, Dial.originFd]; omega
    · cases hd : d with
      | noSocket => exact .inr (.inl (by simp [k, hd, Dial.originFd]))
      | refused =>
        refine .inr (.inr ⟨fd, by simp [k, hd, Dial.originFd], hpos, .inr ⟨rfl, ?_⟩⟩)
        exact (hrefused hd).1
      | connected p =>
        refine .inr (.inr ⟨fd, by simp [k, hd, Dial.originFd], hpos, .inl ⟨p, ?_⟩⟩)
        exact hpeer p (by change d.peer = _; rw [hd]; rfl)
      | pending p r =>
        refine .inr (.inr ⟨fd, by simp [k, hd, Dial.originFd], hpos, .inl ⟨p, ?_⟩⟩)
        exact hpeer p (by change d.peer = _; rw [hd]; rfl)
    · intro n hn hnpos
      obtain ⟨rfl, hd⟩ := hstate n hn hnpos
      cases hd' : d with
      | noSocket => exact absurd hd' hd
      | refused => exact (hrefused hd').2
      | connected p =>
        exact htracks.frame.touched_of_owner
          (.inr ⟨p, hpeer p (by change d.peer = _; rw [hd']; rfl)⟩)
      | pending p r =>
        exact htracks.frame.touched_of_owner
          (.inr ⟨p, hpeer p (by change d.peer = _; rw [hd']; rfl)⟩)
    · exact fun ht => (htidy ht).symm
  · exact hsel

end Socks5d
