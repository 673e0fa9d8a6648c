import Socks5d.Parser.Requests
import Socks5d.Stability

/-!
# The layout of the replies

The bytes of a reply are the first bytes of a struct that its constructor filled in part. What
the constructor does not write is what the stack held there. Both CONNECT replies are sent with
such bytes: the success reply has them for an address, since `get_sock_data` gives the family as
an address type and the constructor looks for the family, and the error reply for a port, since
its port is stored behind the union for the longer address.
-/

namespace Socks5d

/-- What a region holds from an offset on. -/
def Memory.slice (memory : Memory) (offset size : ℕ) : List UInt8 :=
  (List.range size).map fun i => memory (offset + i)

/-- The fields of a CONNECT reply. -/
structure ConnReply where
  version : UInt8
  status : UInt8
  atyp : UInt8
  addr : List UInt8
  port : UInt16
  deriving DecidableEq

/-- The number of bytes an address of this type has in a reply. -/
def addrSize (atyp : UInt8) : Option ℕ :=
  if atyp = SOCKS5_CONN_REQ_ATYP_IPV4 then some IPV4_ADDR_SIZE
  else if atyp = SOCKS5_CONN_REQ_ATYP_IPV6 then some IPV6_ADDR_SIZE
  else none

/-- Version, status, a reserved byte, address type, address and port, and nothing behind them. -/
def decodeConnReply : List UInt8 → Option ConnReply
  | version :: status :: reserved :: atyp :: rest =>
    (addrSize atyp).bind fun size =>
      match rest.drop size with
      | [high, low] =>
        if reserved = SOCKS5_CONN_REQ_RSV then
          some ⟨version, status, atyp, rest.take size, high.toUInt16 <<< 8 ||| low.toUInt16⟩
        else none
      | _ => none
  | _ => none

/-- The reply that reports a socket address. -/
def SockAddr.reported : SockAddr → ConnReply
  | .inet addr port =>
    ⟨SOCKS5_VERSION, SOCKS5_REP_SUCCEEDED, SOCKS5_CONN_REQ_ATYP_IPV4, addr.toList, port⟩
  | .inet6 addr port =>
    ⟨SOCKS5_VERSION, SOCKS5_REP_SUCCEEDED, SOCKS5_CONN_REQ_ATYP_IPV6, addr.toList, port⟩

variable {addrJunk junk : Memory} {response version status reserved atyp : UInt8}
  {localAddr : SockAddr} {addr : List UInt8} {port : UInt16}

@[simp] theorem length_slice (memory : Memory) (offset size : ℕ) :
    (memory.slice offset size).length = size := by
  simp [Memory.slice]

theorem slice_eq_toList_iff {memory : Memory} {offset n : ℕ} {bytes : Vector UInt8 n} :
    memory.slice offset n = bytes.toList ↔ ∀ i (hi : i < n), memory (offset + i) = bytes[i] := by
  constructor
  · intro heq i hi
    have hget := congrArg (fun held : List UInt8 => held[i]?) heq
    simpa [Memory.slice, hi] using hget
  · intro hall
    apply List.ext_getElem
    · simp
    · intro i hi _
      have hlt : i < n := by simpa using hi
      simpa [Memory.slice] using hall i hlt

/-- The family is compared with an address type, so no branch copies the address. -/
theorem wire_connReq : (Reply.connReq response localAddr).wire addrJunk junk =
    SOCKS5_VERSION :: response :: SOCKS5_CONN_REQ_RSV :: SOCKS5_CONN_REQ_ATYP_IPV6 ::
      (junk.slice 4 IPV6_ADDR_SIZE ++ portBytes localAddr.port) := by
  cases localAddr with
  | inet addr port => rfl
  | inet6 addr port => rfl

/-- The port is stored behind the bytes that are copied. -/
theorem wire_connReqError : (Reply.connReqError response).wire addrJunk junk =
    SOCKS5_VERSION :: response :: SOCKS5_CONN_REQ_RSV :: SOCKS5_CONN_REQ_ATYP_IPV4 ::
      (List.replicate IPV4_ADDR_SIZE 0 ++ junk.slice 8 2) := rfl

/-- A reply laid out as prescribed. -/
theorem decodeConnReply_of_layout (hsize : addrSize atyp = some addr.length) :
    decodeConnReply (version :: status :: SOCKS5_CONN_REQ_RSV :: atyp :: (addr ++ portBytes port)) =
      some ⟨version, status, atyp, addr, port⟩ := by
  rw [decodeConnReply, hsize, Option.bind_some, List.drop_left, List.take_left]
  exact (if_pos rfl).trans (by rw [joined_portBytes])

/-- The success reply decodes, to whatever the struct held for the address. -/
theorem decode_connReq :
    decodeConnReply ((Reply.connReq response localAddr).wire addrJunk junk) =
      some ⟨SOCKS5_VERSION, response, SOCKS5_CONN_REQ_ATYP_IPV6, junk.slice 4 IPV6_ADDR_SIZE,
        localAddr.port⟩ := by
  rw [wire_connReq]
  exact decodeConnReply_of_layout (by rw [length_slice]; rfl)

/-- The success reply reports the address of the socket if and only if that is an IPv6 address
which the struct happened to hold already. -/
theorem connReq_reports_iff (localAddr : SockAddr) (addrJunk junk : Memory) :
    decodeConnReply ((Reply.connReq SOCKS5_REP_SUCCEEDED localAddr).wire addrJunk junk) =
        some localAddr.reported ↔
      ∃ addr port, localAddr = .inet6 addr port ∧
        ∀ i (hi : i < IPV6_ADDR_SIZE), junk (4 + i) = addr[i] := by
  rw [decode_connReq, Option.some.injEq]
  cases localAddr with
  | inet addr port =>
    constructor
    · intro heq
      cases congrArg ConnReply.atyp heq
    · intro h
      obtain ⟨addr', port', hinet, -⟩ := h
      cases hinet
  | inet6 addr port =>
    constructor
    · intro heq
      exact ⟨addr, port, rfl, slice_eq_toList_iff.mp (congrArg ConnReply.addr heq)⟩
    · intro h
      obtain ⟨addr', port', hinet, hheld⟩ := h
      obtain ⟨rfl, rfl⟩ := SockAddr.inet6.inj hinet
      exact congrArg (fun bytes => ConnReply.mk _ _ _ bytes port) (slice_eq_toList_iff.mpr hheld)

/-- A socket bound to `127.0.0.1` is reported as an IPv6 address. -/
theorem not_connReq_reports : ¬ ∀ localAddr addrJunk junk,
    decodeConnReply ((Reply.connReq SOCKS5_REP_SUCCEEDED localAddr).wire addrJunk junk) =
      some localAddr.reported := by
  intro hall
  exact absurd (hall (.inet #v[127, 0, 0, 1] 80) (fun _ => 0) (fun _ => 0)) (by decide)

/-- What is queued for a client tells nothing of what the stack held if and only if it is no
CONNECT reply. -/
theorem wire_independent_iff (r : Reply) :
    (∀ addrJunk junk addrJunk' junk', r.wire addrJunk junk = r.wire addrJunk' junk') ↔
      ∀ status, r.kind ≠ .connReq status := by
  constructor
  · intro hall status hkind
    have hzero := hall (fun _ => 0) (fun _ => 0) (fun _ => 0) (fun _ => 1)
    cases r with
    | handshake => cases hkind
    | auth => cases hkind
    | connReq response localAddr =>
      rw [wire_connReq, wire_connReq] at hzero
      simp [Memory.slice, IPV6_ADDR_SIZE, List.range_succ] at hzero
    | connReqError response =>
      rw [wire_connReqError, wire_connReqError] at hzero
      simp [Memory.slice, List.range_succ] at hzero
  · intro hkind addrJunk junk addrJunk' junk'
    cases r with
    | handshake => rfl
    | auth => rfl
    | connReq response => exact absurd rfl (hkind response)
    | connReqError response => exact absurd rfl (hkind response)

/-- Two refusals that differ in what the stack held. -/
theorem not_wire_independent : ¬ ∀ (r : Reply) addrJunk junk addrJunk' junk',
    r.wire addrJunk junk = r.wire addrJunk' junk' := by
  intro hall
  have hsame := hall (.connReqError SOCKS5_REP_HOST_UNREACHABLE) (fun _ => 0) (fun _ => 0)
    (fun _ => 0) (fun _ => 1)
  exact absurd hsame (by decide)

section Runs

/-- Everything queued is the image of a reply of its kind. -/
def Wired (s : Server) : Prop :=
  ∀ c kind bytes, .queued c kind bytes ∈ s.trace →
    ∃ r : Reply, r.Proper ∧ r.kind = kind ∧ ∃ addrJunk junk, bytes = r.wire addrJunk junk

variable {s s' : Server}

theorem Wired.note (h : Wired s) {o : Obs} (ho : ∀ c kind bytes, o ≠ .queued c kind bytes) :
    Wired (s.note o) := by
  intro c kind bytes hmem
  rcases List.mem_append.mp hmem with hmem | hmem
  · exact h c kind bytes hmem
  · exact absurd (List.mem_singleton.mp hmem).symm (ho c kind bytes)

theorem ofLog_wired : OfLog Wired := by
  intro s s' h hsame
  rw [Wired, hsame.trace]
  exact h

theorem stable_wired : Stable Wired where
  books h hbooks := ofLog_wired h ⟨hbooks.trace, by rw [hbooks.metrics]⟩
  setConn _ h _ := h
  free h _ := Wired.note h (by simp)
  note o h ho := h.note (by rintro c kind bytes rfl; cases ho)
  queued c r addrJunk junk hr h := by
    intro c' kind bytes hmem
    rcases List.mem_append.mp hmem with hmem | hmem
    · exact h c' kind bytes hmem
    · obtain ⟨rfl, rfl, rfl⟩ : c' = c ∧ kind = r.kind ∧ bytes = r.wire addrJunk junk := by
        simpa using hmem
      exact ⟨r, hr, rfl, addrJunk, junk, rfl⟩
  incErrors h := h
  answered c bytes h := Wired.note h (by simp)

/-- The bytes queued in a run are the images of replies. -/
theorem Reachable.wired (h : Reachable s) : Wired s :=
  stable_wired.reachable ofLog_wired (fun _ _ _ _ hmem => absurd hmem (by simp [Args.initial]))
    (fun _ _ _ _ _ _ _ h => Wired.note h (by simp)) h

/-- Every success reply of a run claims an IPv6 address. -/
theorem Reachable.success_ipv6 (h : Reachable s) {c : ConnId} {bytes : List UInt8}
    (hmem : .queued c (.connReq SOCKS5_REP_SUCCEEDED) bytes ∈ s.trace) :
    ∃ addr port, decodeConnReply bytes =
      some ⟨SOCKS5_VERSION, SOCKS5_REP_SUCCEEDED, SOCKS5_CONN_REQ_ATYP_IPV6, addr, port⟩ := by
  obtain ⟨r, hproper, hkind, addrJunk, junk, rfl⟩ := h.wired c _ bytes hmem
  cases r with
  | handshake => cases hkind
  | auth => cases hkind
  | connReq response localAddr =>
    obtain rfl : response = SOCKS5_REP_SUCCEEDED := hproper
    exact ⟨_, _, decode_connReq⟩
  | connReqError response => exact absurd (ReplyKind.connReq.inj hkind) hproper

end Runs

end Socks5d
