import Socks5d.Server

/-!
# Replies on the wire

The replies the callbacks queue, each with the arguments of its constructor and the bytes its
callers copy.
-/

namespace Socks5d

/-- A reply and the arguments of its constructor. -/
inductive Reply
  | handshake (noAuth userPassAuth : Bool)
  | auth (authOk : Bool)
  | connReq (response : UInt8) (localAddr : SockAddr)
  | connReqError (response : UInt8)

namespace Reply

def kind : Reply → ReplyKind
  | .handshake _ _ => .handshake
  | .auth _ => .auth
  | .connReq response _ => .connReq response
  | .connReqError response => .connReq response

/-- The bytes `buffer_write_struct` copies, where `addr_ptr` and the struct held this before. -/
def wire (addrJunk junk : Memory) : Reply → List UInt8
  | .handshake noAuth userPassAuth =>
    (createHandshakeResponse noAuth userPassAuth junk).bytes HANDSHAKE_RESPONSE_SIZE
  | .auth authOk => (createAuthResponse authOk junk).bytes AUTH_RESPONSE_SIZE
  | .connReq response localAddr =>
    (createConnReqResponse response localAddr addrJunk junk).bytes
      (connReqResponseSize (createConnReqResponse response localAddr addrJunk junk))
  | .connReqError response =>
    (createConnReqErrorResponse response junk).bytes connReqErrorResponseSize

/-- A success reply reports success, and an error reply does not. -/
def Proper : Reply → Prop
  | .connReq response _ => response = SOCKS5_REP_SUCCEEDED
  | .connReqError response => response ≠ SOCKS5_REP_SUCCEEDED
  | _ => True

end Reply

end Socks5d
