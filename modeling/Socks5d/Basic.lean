import Mathlib.Data.Int.Notation
import Mathlib.Data.Nat.Notation
import Mathlib.Logic.Function.Basic

/-!
# Faults, protocol constants and C strings

The constants are those of `defines.h`, `socks5_responses.h` and `netutils.h`. A fault is
what the C program cannot recover from: an access to a released object, a second release,
a null pointer, a failed assertion or a call to `abort`. The model stops at a fault, so
"reachable" always means reachable by callbacks that returned.
-/

namespace Socks5d

/-- Where a callback stops instead of returning. -/
inductive Fault
  | useAfterFree
  | doubleFree
  | nullDeref
  | assertion
  | aborted
  deriving DecidableEq, Repr

/-- The faults that are an access to a released or absent object, or a second release. -/
@[simp] def Fault.isMemory : Fault → Prop
  | .useAfterFree | .doubleFree | .nullDeref => True
  | .assertion | .aborted => False

/-- The phases of a SOCKS connection, in the order of the `socks5_state` enumeration. -/
inductive Socks5State
  | handshake
  | auth
  | connectionReq
  | connecting
  | copy
  | done
  | error
  deriving DecidableEq, Repr

/-- The values of `errno` the code distinguishes; every other one is `other`. -/
inductive Errno
  | econnrefused
  | enetunreach
  | ehostunreach
  | etimedout
  | einprogress
  | eagain
  | ebadf
  | other (code : ℕ)
  deriving DecidableEq, Repr

/-- The bytes of a C string, without the terminating zero. -/
abbrev CString := List UInt8

/-- Read a C string out of an array of the given size. -/
def cString (memory : ℕ → UInt8) (size : ℕ) : CString :=
  ((List.range size).map memory).takeWhile (· ≠ 0)

def SOCKS5_VERSION : UInt8 := 0x05
def SOCKS5_AUTH_METHOD_NO_AUTH : UInt8 := 0x00
def SOCKS5_AUTH_METHOD_GSSAPI : UInt8 := 0x01
def SOCKS5_AUTH_METHOD_USER_PASS : UInt8 := 0x02
def SOCKS5_AUTH_METHOD_NO_ACCEPTABLE : UInt8 := 0xFF

def SOCKS5_SUBNEGOTIATION_VERSION : UInt8 := 0x01
def SOCKS5_AUTH_OK : UInt8 := 0x00
def SOCKS5_AUTH_ERROR : UInt8 := 0x01

def SOCKS5_CONN_REQ_CMD_CONNECT : UInt8 := 0x01
def SOCKS5_CONN_REQ_CMD_BIND : UInt8 := 0x02
def SOCKS5_CONN_REQ_CMD_UDP_ASSOCIATE : UInt8 := 0x03
def SOCKS5_CONN_REQ_RSV : UInt8 := 0x00
def SOCKS5_CONN_REQ_ATYP_IPV4 : UInt8 := 0x01
def SOCKS5_CONN_REQ_ATYP_DOMAIN_NAME : UInt8 := 0x03
def SOCKS5_CONN_REQ_ATYP_IPV6 : UInt8 := 0x04

def ATYP_IPV4 : UInt8 := 0x01
def ATYP_IPV6 : UInt8 := 0x04

/-- The address families as Linux numbers them. -/
def AF_INET : UInt8 := 2
def AF_INET6 : UInt8 := 10

def SOCKS5_REP_SUCCEEDED : UInt8 := 0x00
def SOCKS5_REP_GENERAL_FAILURE : UInt8 := 0x01
def SOCKS5_REP_NETWORK_UNREACHABLE : UInt8 := 0x03
def SOCKS5_REP_HOST_UNREACHABLE : UInt8 := 0x04
def SOCKS5_REP_CONNECTION_REFUSED : UInt8 := 0x05
def SOCKS5_REP_TTL_EXPIRED : UInt8 := 0x06
def SOCKS5_REP_COMMAND_NOT_SUPPORTED : UInt8 := 0x07

def IPV4_ADDR_SIZE : ℕ := 4
def IPV6_ADDR_SIZE : ℕ := 16
def HANDSHAKE_RESPONSE_SIZE : ℕ := 2
def AUTH_RESPONSE_SIZE : ℕ := 2
def SOCKS5_CONN_REQ_RESPONSE_BASE_SIZE : ℕ := 6

def CONNECTION_SUCCESS : ℤ := 0
def CONNECTION_IN_PROGRESS : ℤ := -1
def CONNECTION_FAILED : ℤ := -2

def DOMAIN_NAME_MAX_LENGTH : ℕ := 254
def MAX_USERNAME_LEN : ℕ := 256
def MAX_PASSWORD_LEN : ℕ := 256
def INET6_ADDRSTRLEN : ℕ := 46
def BUFF_MIN_LEN : ℕ := 256
def ITEMS_MAX_SIZE : ℕ := 1024

end Socks5d
