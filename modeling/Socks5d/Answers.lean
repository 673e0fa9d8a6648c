import Socks5d.Subnegotiation
import Socks5d.Lib.Feeding

/-!
# The reply a read handler queues

A read handler that completes a message queues its reply and calls `socksv5_write` at once. What
the send accepts decides what happens next, but not which reply was queued.
-/

namespace Socks5d

open Fallible Feeding

/-- The replies of one kind that a trace queues for a connection. -/
def queuedReplies (c : ConnId) (kind : ReplyKind) (trace : List Obs) : List (List UInt8) :=
  trace.flatMap fun o =>
    match o with
    | .queued d k bytes => if d = c ∧ k = kind then [bytes] else []
    | _ => []

/-- Whatever the sends accept, a read handler comes to the state in which exactly this reply was
queued, sends from there, and goes on with its loop. -/
structure QueuesReply (key : SelectorKey) (kind : ReplyKind) (s : Server)
    (read : List SendOutcome → Except Fault (Socks5State × Server))
    (loop : ℕ → SelectorKey → List SendOutcome → Server → Except Fault (Socks5State × Server))
    (reply : List UInt8) (queued : Server) : Prop where
  replied : queuedReplies key.data kind queued.trace =
    queuedReplies key.data kind s.trace ++ [reply]
  sends : ∃ bound, ∀ sends, read sends =
    socksv5Write key (sends.headD .wouldBlock) queued >>= loop bound key sends.tail
  /-- When nothing is accepted, the handler returns with that reply and no other. -/
  blocked : ∃ state s', read [] = .ok (state, s') ∧
    queuedReplies key.data kind s'.trace = queuedReplies key.data kind s.trace ++ [reply]

section Replies

variable {c : ConnId} {kind : ReplyKind} {trace more : List Obs} {s : Server} {k : Socks5Conn}

/-- The replies of two histories, one after the other. -/
@[simp] theorem queuedReplies_append :
    queuedReplies c kind (trace ++ more) = queuedReplies c kind trace ++ queuedReplies c kind more :=
  List.flatMap_append

/-- Only one reply is the answer. -/
theorem QueuesReply.unique {key : SelectorKey}
    {read : List SendOutcome → Except Fault (Socks5State × Server)}
    {loop : ℕ → SelectorKey → List SendOutcome → Server → Except Fault (Socks5State × Server)}
    {reply reply' : List UInt8} {queued queued' : Server}
    (h : QueuesReply key kind s read loop reply queued)
    (h' : QueuesReply key kind s read loop reply' queued') : reply = reply' := by
  obtain ⟨state, s₁, hread, hreply⟩ := h.blocked
  obtain ⟨state', s₁', hread', hreply'⟩ := h'.blocked
  obtain ⟨-, rfl⟩ := Prod.mk.inj (Except.ok.inj (hread.symm.trans hread'))
  exact List.singleton_inj.mp (List.append_cancel_left (hreply.symm.trans hreply'))

/-- A record that is there is found. -/
theorem conn_of_conns (hk : s.conns c = some k) : s.conn c = .ok k := by
  simp [Server.conn, hk]

/-- The phase of a record that is there is found. -/
theorem currentState_of {state : Socks5State} (hk : s.conns c = some k) (hstm : k.stm = true)
    (hphase : s.stms c = some ⟨some state⟩) : s.currentState c = .ok state := by
  simp [Server.currentState, Server.stmPointer, Server.stmState, Server.stm, conn_of_conns hk, hstm,
    hphase]

/-- The later of two changes of a record stays. -/
@[simp] theorem setConn_setConn (k' : Socks5Conn) :
    (s.setConn c k).setConn c k' = s.setConn c k' := by
  simp [Server.setConn]

/-- A record that was set is there. -/
@[simp] theorem conns_setConn : (s.setConn c k).conns c = some k := Function.update_self _ _ _

/-- A step on the record of a connection: what it leaves there, and what it adds to the trace. -/
structure Leaves (c : ConnId) (s : Server) (k : Socks5Conn) (t : List Obs) (s' : Server) : Prop where
  conns : s'.conns c = some k
  stms : s'.stms = s.stms
  trace : s'.trace = s.trace ++ t

/-- A reply for which there is room is appended to `out_buff`. -/
theorem queueReply_of_room (kind : ReplyKind) {bytes : List UInt8} (hne : bytes ≠ [])
    (hk : s.conns c = some k) (hroom : bytes.length ≤ k.outBuff.space) :
    ∃ s' outBuff, s.queueReply c kind bytes = .ok s' ∧
      Leaves c s { k with outBuff := outBuff } [.queued c kind bytes] s' ∧
      outBuff.content = k.outBuff.content ++ bytes := by
  obtain ⟨outBuff, hwrite⟩ := Buffer.bufferWriteAdv_store_succeeds _ hroom
  have hcan : bufferCanWrite k.outBuff = true := by
    rw [Buffer.bufferCanWrite_iff]
    exact Nat.lt_of_lt_of_le (List.length_pos_iff.mpr hne) hroom
  have hstruct : bufferWriteStruct k.outBuff bytes = .ok outBuff := by
    rw [bufferWriteStruct, if_pos ⟨hcan, hroom⟩, hwrite]
  have hqueue : s.queueReply c kind bytes =
      .ok ((s.setConn c { k with outBuff := outBuff }).note (.queued c kind bytes)) := by
    simp [Server.queueReply, conn_of_conns hk, hstruct, hcan, hroom]
  exact ⟨_, outBuff, hqueue, ⟨conns_setConn, rfl, rfl⟩,
    (Buffer.bufferWriteAdv_store_eq_ok hroom hwrite).1⟩

/-- Throwing the rest of `in_buff` away queues nothing. -/
theorem resetInBuff_of (hk : s.conns c = some k) :
    ∃ s' t, s.resetInBuff c = .ok s' ∧ Leaves c s { k with inBuff := bufferReset k.inBuff } t s' ∧
      ∀ kind, queuedReplies c kind t = [] := by
  by_cases hempty : k.inBuff.content = []
  · have hreset : s.resetInBuff c = .ok (s.setConn c { k with inBuff := bufferReset k.inBuff }) := by
      simp [Server.resetInBuff, conn_of_conns hk, hempty]
    exact ⟨_, [], hreset, ⟨conns_setConn, rfl, (List.append_nil _).symm⟩, fun _ => rfl⟩
  · have hreset : s.resetInBuff c = .ok ((s.setConn c { k with inBuff := bufferReset k.inBuff }).note
        (.discarded c k.inBuff.content)) := by
      simp [Server.resetInBuff, conn_of_conns hk, hempty]
    exact ⟨_, [.discarded c k.inBuff.content], hreset, ⟨conns_setConn, rfl, rfl⟩, fun _ => rfl⟩

/-- Where `send` blocks, `socksv5_write` changes `errno` alone. -/
theorem socksv5Write_blocked {key : SelectorKey} (hk : s.conns key.data = some k)
    (hleft : k.outBuff.content ≠ []) :
    socksv5Write key .wouldBlock s = .ok (s.setErrno .eagain) := by
  have hcan := (Buffer.bufferCanRead_iff _).mpr hleft
  simp [socksv5Write, conn_of_conns hk, hcan, SendOutcome.wouldBlock]

end Replies

/-- Reading starts at the base. -/
theorem Buffer.holding_read_le (bytes : List UInt8) : 0 ≤ bytes.length := Nat.zero_le _

/-- A buffer that holds these bytes and has no room for more. -/
def Buffer.holding (bytes : List UInt8) : Buffer where
  data := bytes
  read := 0
  write := bytes.length
  read_le_write := Buffer.holding_read_le bytes
  write_le_limit := Nat.le_refl _
  empty_at_base := fun _ => rfl

end Socks5d
