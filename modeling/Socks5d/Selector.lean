import Socks5d.Basic
import Mathlib.Algebra.Group.Nat.Defs
import Mathlib.Data.Nat.Log

/-!
# The descriptor table of `selector.c`

The operations here are those on the table, the two descriptor sets and the cached maximum;
the close callback that `selector_unregister_fd` runs belongs to the server. An interest is
kept as its two meaningful bits.
-/

namespace Socks5d

/-- The address of a connection record; records are never allocated twice at one address. -/
abbrev ConnId := ℕ

structure FdInterest where
  read : Bool
  write : Bool
  deriving DecidableEq, Repr

def OP_NOOP : FdInterest := ⟨false, false⟩
def OP_READ : FdInterest := ⟨true, false⟩
def OP_WRITE : FdInterest := ⟨false, true⟩

/-- The handler tables the program registers. -/
inductive FdHandler
  | socksv5
  | confProtocol
  | socks5Handler
  | connectingHandler
  | copySelectorHandler
  | adminHandler
  deriving DecidableEq, Repr

inductive SelectorStatus
  | success
  | enomem
  | maxfd
  | iargs
  | fdinuse
  | io
  deriving DecidableEq, Repr

structure Item where
  fd : ℤ
  interest : FdInterest
  handler : Option FdHandler
  data : Option ConnId
  deriving DecidableEq, Repr

def FD_UNUSED : ℤ := -1

def Item.used (item : Item) : Bool := item.fd != FD_UNUSED

/-- The item left by `memset` and `item_init`. -/
def itemInit : Item := ⟨FD_UNUSED, OP_NOOP, none, none⟩

structure FdSelector where
  fds : ℕ → Item
  fdSize : ℕ
  maxFd : ℕ
  masterR : ℕ → Bool
  masterW : ℕ → Bool
  /-- The descriptors of finished blocking jobs, the last one queued first. -/
  resolutionJobs : List ℕ

/-- The number of bits of the requested size, as the loop of `next_capacity` counts them. -/
def bitCount (n : ℕ) : ℕ := if n = 0 then 0 else Nat.log2 n + 1

def nextCapacity (n : ℕ) : ℕ := min (2 ^ bitCount n) ITEMS_MAX_SIZE + 1

/-- Grow the table when the requested size does not fit; the new items are unused. -/
def ensureCapacity (s : FdSelector) (n : ℕ) : SelectorStatus × FdSelector :=
  if n < s.fdSize then (.success, s)
  else if n > ITEMS_MAX_SIZE then (.maxfd, s)
  else
    (.success, { s with
      fds := fun i => if s.fdSize ≤ i ∧ i < nextCapacity n then itemInit else s.fds i
      fdSize := nextCapacity n })

/-- The size `main` asks for. -/
def INITIAL_QUANTITY_FDS : ℕ := 1024

def selectorNew (initialElements : ℕ) : FdSelector :=
  (ensureCapacity
    { fds := fun _ => itemInit, fdSize := 0, maxFd := 0, masterR := fun _ => false,
      masterW := fun _ => false, resolutionJobs := [] } initialElements).2

def itemsMaxFd (s : FdSelector) : ℕ :=
  (List.range (s.maxFd + 1)).foldl
    (fun max i => if (s.fds i).used ∧ (s.fds i).fd > max then (s.fds i).fd.toNat else max) 0

def itemsUpdateFdsetForFd (s : FdSelector) (item : Item) : FdSelector :=
  { s with
    masterR := Function.update s.masterR item.fd.toNat (item.used && item.interest.read)
    masterW := Function.update s.masterW item.fd.toNat (item.used && item.interest.write) }

def invalidFd (fd : ℤ) : Bool := decide (fd < 0) || decide (fd ≥ ITEMS_MAX_SIZE)

def selectorRegister (s : FdSelector) (fd : ℤ) (handler : FdHandler) (interest : FdInterest)
    (data : Option ConnId) : SelectorStatus × FdSelector :=
  if invalidFd fd then (.iargs, s)
  else
    let ufd := fd.toNat
    let grown := if ufd > s.fdSize then ensureCapacity s ufd else (.success, s)
    if grown.1 ≠ .success then (grown.1, s)
    else
      let s := grown.2
      if (s.fds ufd).used then (.fdinuse, s)
      else
        let item : Item := ⟨fd, interest, some handler, data⟩
        let s := { s with
          fds := Function.update s.fds ufd item
          maxFd := max s.maxFd ufd }
        (.success, itemsUpdateFdsetForFd s item)

/-- The part of `selector_unregister_fd` after the close callback. -/
def removeItem (s : FdSelector) (ufd : ℕ) : FdSelector :=
  let item := { s.fds ufd with interest := OP_NOOP }
  let s := itemsUpdateFdsetForFd s item
  let s := { s with fds := Function.update s.fds ufd itemInit }
  { s with maxFd := itemsMaxFd s }

def selectorSetInterest (s : FdSelector) (fd : ℤ) (interest : FdInterest) :
    SelectorStatus × FdSelector :=
  if invalidFd fd then (.iargs, s)
  else if !(s.fds fd.toNat).used then (.iargs, s)
  else
    let item := { s.fds fd.toNat with interest := interest }
    (.success, itemsUpdateFdsetForFd { s with fds := Function.update s.fds fd.toNat item } item)

/-- A new table has no registrations. -/
theorem fds_selectorNew (n fd : ℕ) : (selectorNew n).fds fd = itemInit := by
  unfold selectorNew ensureCapacity
  split
  · rfl
  · split
    · rfl
    · simp

end Socks5d
