import Socks5d.Lib.LowestFree
import Socks5d.Selector
import Mathlib.Data.Int.Notation

/-!
# Open descriptors

What the callbacks need of the kernel: which descriptors are open, and that `socket` and
`accept` return the lowest descriptor not open. Each open descriptor records who opened it;
the program never sees this, only the statements about it do.
-/

namespace Socks5d

open LowestFree

inductive Family
  | inet
  | inet6
  deriving DecidableEq, Repr

/-- One node of the list `getaddrinfo` returns. -/
structure AddrInfo where
  aiFamily : Family
  aiAddr : List UInt8
  aiPort : UInt16
  deriving DecidableEq, Repr

/-- Who opened a descriptor: `main`, an accept or a connect of a SOCKS connection (with the
address of its peer), or another part of the program. -/
inductive FdOwner
  | listener
  | client (c : ConnId)
  | origin (c : ConnId) (peer : AddrInfo)
  | other
  deriving DecidableEq, Repr

/-- The connection a descriptor was opened for. -/
def FdOwner.conn : FdOwner → Option ConnId
  | .listener => none
  | .client c => some c
  | .origin c _ => some c
  | .other => none

structure Kernel where
  owner : ℕ → Option FdOwner
  bound : ℕ
  closed_above : ∀ fd, bound ≤ fd → owner fd = none

namespace Kernel

def isOpen (k : Kernel) (fd : ℕ) : Bool := (k.owner fd).isSome

/-- The descriptor the next `socket` or `accept` returns. -/
def lowest (k : Kernel) : ℕ := lowestFree k.isOpen k.bound

def openFd (k : Kernel) (fd : ℕ) (o : FdOwner) : Kernel where
  owner := Function.update k.owner fd (some o)
  bound := max k.bound (fd + 1)
  closed_above := by
    intro n hn
    have hne : n ≠ fd := by omega
    rw [Function.update_of_ne hne, k.closed_above n (by omega)]

def close (k : Kernel) (fd : ℤ) : Kernel where
  owner := fun n => if (n : ℤ) = fd then none else k.owner n
  bound := k.bound
  closed_above := by
    intro n hn
    split
    · rfl
    · exact k.closed_above n hn

variable (k : Kernel)

theorem owner_lowest : k.owner k.lowest = none := by
  have habove : ∀ n, k.bound ≤ n → k.isOpen n = false := by
    intro n hn
    simp [isOpen, k.closed_above n hn]
  simpa [isOpen, lowest] using lowestFree_not_taken habove

theorem isOpen_of_lt_lowest {fd : ℕ} (h : fd < k.lowest) : k.isOpen fd = true :=
  taken_of_lt_lowestFree h

/-- A closed descriptor with only open descriptors below it is the next one handed out. -/
theorem lowest_eq {fd : ℕ} (hclosed : k.owner fd = none)
    (hbelow : ∀ n, n < fd → k.isOpen n = true) : k.lowest = fd :=
  lowestFree_eq (fun n hn => by simp [isOpen, k.closed_above n hn])
    (by simp [isOpen, hclosed]) hbelow

@[simp] theorem owner_openFd_self (fd : ℕ) (o : FdOwner) : (k.openFd fd o).owner fd = some o := by
  simp [openFd]

theorem owner_openFd_of_ne {fd n : ℕ} (o : FdOwner) (h : n ≠ fd) :
    (k.openFd fd o).owner n = k.owner n := by
  simp [openFd, h]

theorem owner_openFd (fd : ℕ) (o : FdOwner) (n : ℕ) :
    (k.openFd fd o).owner n = if n = fd then some o else k.owner n := by
  by_cases h : n = fd
  · simp [h]
  · simp [owner_openFd_of_ne, h]

theorem owner_close (fd : ℤ) (n : ℕ) :
    (k.close fd).owner n = if (n : ℤ) = fd then none else k.owner n := rfl

end Kernel

end Socks5d
