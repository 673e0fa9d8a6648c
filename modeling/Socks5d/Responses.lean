import Socks5d.Basic

/-!
# The reply structs of `socks5_responses.c`

A reply is a C struct on the stack, and its wire image is the first bytes of that struct. The
struct is modelled by its memory, a byte for every offset, starting from arbitrary contents;
`socks5_conn_req_response` holds its four header bytes at offsets 0 to 3, the 16-byte address
union at offset 4 and the port at offset 20.
-/

namespace Socks5d

/-- A region of memory, by byte offset. -/
abbrev Memory := ℕ → UInt8

/-- The first bytes of a region, as `buffer_write_struct` copies them. -/
def Memory.bytes (memory : Memory) (size : ℕ) : List UInt8 := (List.range size).map memory

/-- Copy the given number of bytes to an offset of the destination. -/
def memcpy (dest : Memory) (offset : ℕ) (src : Memory) (size : ℕ) : Memory :=
  fun i => if offset ≤ i ∧ i < offset + size then src (i - offset) else dest i

/-- A bound local address as `getsockname` reports it, with its port in host order. -/
inductive SockAddr
  | inet (addr : Vector UInt8 4) (port : UInt16)
  | inet6 (addr : Vector UInt8 16) (port : UInt16)
  deriving DecidableEq

/-- The address bytes of a socket address, as the memory `sin_addr` or `sin6_addr`. -/
def SockAddr.addrBytes : SockAddr → Memory
  | .inet addr _ => fun i => addr.toList.getD i 0
  | .inet6 addr _ => fun i => addr.toList.getD i 0

def SockAddr.port : SockAddr → UInt16
  | .inet _ port => port
  | .inet6 _ port => port

/-- Store a port in network order at an offset. -/
def storeHtons (dest : Memory) (offset : ℕ) (port : UInt16) : Memory :=
  Function.update (Function.update dest offset (port >>> 8).toUInt8) (offset + 1) port.toUInt8

/-- The address type, address and port of a connected socket, from `netutils.c`. -/
def getSockData (local_addr : SockAddr) (addrPtr : Memory) : UInt8 × Memory × UInt16 :=
  match local_addr with
  | .inet _ port => (ATYP_IPV4, memcpy addrPtr 0 local_addr.addrBytes 4, port)
  | .inet6 _ port => (ATYP_IPV6, memcpy addrPtr 0 local_addr.addrBytes 16, port)

def createHandshakeResponse (noAuth userPassAuth : Bool) (junk : Memory) : Memory :=
  let method :=
    if userPassAuth then SOCKS5_AUTH_METHOD_USER_PASS
    else if noAuth then SOCKS5_AUTH_METHOD_NO_AUTH
    else SOCKS5_AUTH_METHOD_NO_ACCEPTABLE
  Function.update (Function.update junk 0 SOCKS5_VERSION) 1 method

def createAuthResponse (authOk : Bool) (junk : Memory) : Memory :=
  Function.update (Function.update junk 0 SOCKS5_SUBNEGOTIATION_VERSION) 1
    (if authOk then SOCKS5_AUTH_OK else SOCKS5_AUTH_ERROR)

/-- The success reply; `addrJunk` and `junk` are what the stack held in `addr_ptr` and in the
struct. -/
def createConnReqResponse (response : UInt8) (local_addr : SockAddr) (addrJunk junk : Memory) :
    Memory :=
  let (atyp, addrPtr, port) := getSockData local_addr addrJunk
  let msg := Function.update junk 0 SOCKS5_VERSION
  let msg := Function.update msg 1 response
  let msg := Function.update msg 2 SOCKS5_CONN_REQ_RSV
  let msg := Function.update msg 3
    (if atyp = AF_INET then SOCKS5_CONN_REQ_ATYP_IPV4 else SOCKS5_CONN_REQ_ATYP_IPV6)
  let msg :=
    if atyp = AF_INET then memcpy msg 4 addrPtr IPV4_ADDR_SIZE
    else if atyp = AF_INET6 then memcpy msg 4 addrPtr IPV6_ADDR_SIZE
    else msg
  storeHtons msg 20 port

def createConnReqErrorResponse (response : UInt8) (junk : Memory) : Memory :=
  let msg := Function.update junk 0 SOCKS5_VERSION
  let msg := Function.update msg 1 response
  let msg := Function.update msg 2 SOCKS5_CONN_REQ_RSV
  let msg := Function.update msg 3 SOCKS5_CONN_REQ_ATYP_IPV4
  let msg := memcpy msg 4 (fun _ => 0) IPV4_ADDR_SIZE
  storeHtons msg 20 0

/-- The number of bytes of a success reply that its two senders copy. -/
def connReqResponseSize (response : Memory) : ℕ :=
  if response 3 = SOCKS5_CONN_REQ_ATYP_IPV4 then
    SOCKS5_CONN_REQ_RESPONSE_BASE_SIZE + IPV4_ADDR_SIZE
  else
    SOCKS5_CONN_REQ_RESPONSE_BASE_SIZE + IPV6_ADDR_SIZE

/-- The number of bytes of an error reply that every sender copies. -/
def connReqErrorResponseSize : ℕ := SOCKS5_CONN_REQ_RESPONSE_BASE_SIZE + IPV4_ADDR_SIZE

@[simp] theorem length_bytes (memory : Memory) (size : ℕ) :
    (memory.bytes size).length = size := by
  simp [Memory.bytes]

end Socks5d
