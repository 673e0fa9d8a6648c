import Socks5d.Buffer
import Socks5d.Lib.BoundedQueue
import Socks5d.Lib.Fallible
import Socks5d.Lib.GuardedRun
import Socks5d.Responses

/-!
# The I/O buffer as pointers

`struct buffer` as it is declared: four pointers into memory, about which nothing is assumed. Run
from `buffer_init` the operations keep the documented order of the pointers, so that the buffer
that carries this order in its type is a faithful picture of it, and the bytes between `read` and
`write` are a bounded queue.
-/

namespace Socks5d

open BoundedQueue Fallible GuardedRun

/-- `struct buffer` and the memory its pointers point into. -/
structure RawBuffer where
  memory : Memory
  data : ℕ
  limit : ℕ
  read : ℕ
  write : ℕ

/-- `memmove` within one memory, which copies as if through a temporary array. -/
def memmove (memory : Memory) (dest src size : ℕ) : Memory :=
  memcpy memory dest (fun i => memory (src + i)) size

/-- The bytes in memory from an address on. -/
def cells (memory : Memory) (start size : ℕ) : List UInt8 :=
  (List.range size).map fun i => memory (start + i)

/-- Copy an object to the given address. -/
def putBytes (memory : Memory) (dest : ℕ) (bytes : List UInt8) : Memory :=
  memcpy memory dest (fun i => bytes.getD i 0) bytes.length

namespace RawBuffer

def bufferReset (b : RawBuffer) : RawBuffer := { b with read := b.data, write := b.data }

/-- `buffer_init` on an uninitialised struct. -/
def bufferInit (memory : Memory) (n data : ℕ) : RawBuffer :=
  let b := bufferReset { memory := memory, data := data, limit := 0, read := 0, write := 0 }
  { b with limit := b.data + n }

def bufferCanWrite (b : RawBuffer) : Bool := decide (b.write < b.limit)

/-- The number of bytes reported with the write pointer. -/
def bufferWritePtr (b : RawBuffer) : Except Fault ℕ :=
  if b.write ≤ b.limit then .ok (b.limit - b.write) else .error .assertion

def bufferCanRead (b : RawBuffer) : Bool := decide (b.read < b.write)

/-- The number of bytes reported with the read pointer. -/
def bufferReadPtr (b : RawBuffer) : Except Fault ℕ :=
  if b.read ≤ b.write then .ok (b.write - b.read) else .error .assertion

def bufferWriteAdv (b : RawBuffer) (bytes : ℤ) : Except Fault RawBuffer :=
  if bytes > -1 then
    let b := { b with write := b.write + bytes.toNat }
    if b.write ≤ b.limit then .ok b else .error .assertion
  else .ok b

def bufferCompact (b : RawBuffer) : RawBuffer :=
  if b.data = b.read then b
  else if b.read = b.write then { b with read := b.data, write := b.data }
  else
    let n := b.write - b.read
    { b with memory := memmove b.memory b.data b.read n, read := b.data, write := b.data + n }

def bufferReadAdv (b : RawBuffer) (bytes : ℤ) : Except Fault RawBuffer :=
  if bytes > -1 then
    let b := { b with read := b.read + bytes.toNat }
    if b.read ≤ b.write then
      if b.read = b.write then .ok (bufferCompact b) else .ok b
    else .error .assertion
  else .ok b

def bufferRead (b : RawBuffer) : Except Fault (UInt8 × RawBuffer) :=
  if bufferCanRead b then do
    let ret := b.memory b.read
    let b ← bufferReadAdv b 1
    return (ret, b)
  else return (0, b)

def bufferWrite (b : RawBuffer) (c : UInt8) : Except Fault RawBuffer :=
  if bufferCanWrite b then
    bufferWriteAdv { b with memory := Function.update b.memory b.write c } 1
  else .ok b

def bufferWriteStruct (b : RawBuffer) (data : List UInt8) : Except Fault RawBuffer :=
  if bufferCanWrite b ∧ data.length ≤ b.limit - b.write then
    bufferWriteAdv { b with memory := putBytes b.memory b.write data } data.length
  else .ok b

/-- The bytes between `read` and `write`. -/
def content (b : RawBuffer) : List UInt8 := cells b.memory b.read (b.write - b.read)

end RawBuffer

/-- One use of a buffer. A caller that fills it stores some bytes at the write pointer and
announces a number of them, or a failure; one that drains it announces what it has taken. -/
inductive BufferOp
  | write (c : UInt8)
  | writeStruct (data : List UInt8)
  | fill (bytes : List UInt8) (adv : ℤ)
  | read
  | drain (adv : ℤ)
  | compact
  | reset

namespace BufferOp

/-- The caller keeps to the space and the bytes reported to it. -/
def allowed (b : RawBuffer) : BufferOp → Bool
  | fill bytes adv =>
    decide (bytes.length ≤ b.limit - b.write) && decide (adv ≤ bytes.length)
  | drain adv => decide (adv ≤ ((b.write - b.read : ℕ) : ℤ))
  | _ => true

/-- The operation, with the bytes it hands out. -/
def apply (b : RawBuffer) : BufferOp → Except Fault (RawBuffer × List UInt8)
  | write c => do
    let b ← b.bufferWrite c
    return (b, [])
  | writeStruct data => do
    let b ← b.bufferWriteStruct data
    return (b, [])
  | fill bytes adv => do
    let _ ← b.bufferWritePtr
    let b ← { b with memory := putBytes b.memory b.write bytes }.bufferWriteAdv adv
    return (b, [])
  | read => do
    let (c, b) ← b.bufferRead
    return (b, [c])
  | drain adv => do
    let nbyte ← b.bufferReadPtr
    let bytes := (cells b.memory b.read nbyte).take adv.toNat
    let b ← b.bufferReadAdv adv
    return (b, bytes)
  | compact => return (b.bufferCompact, [])
  | reset => return (b.bufferReset, [])

/-- What the operation means for a queue, with the bytes it hands out. -/
def onQueue {n : ℕ} (q : Queue UInt8 n) : BufferOp → Queue UInt8 n × List UInt8
  | write c => (q.offer [c], [])
  | writeStruct data => (q.offer data, [])
  | fill bytes adv => (q.offer (bytes.take adv.toNat), [])
  | read => (q.drop 1, [q.items.headD 0])
  | drain adv => (q.drop adv.toNat, q.items.take adv.toNat)
  | compact => (q.compact, [])
  | reset => (.empty, [])

/-- A sequence of operations on a queue that starts empty, with all bytes handed out. -/
def onEmptyQueue (n : ℕ) (ops : List BufferOp) : Queue UInt8 n × List UInt8 :=
  ops.foldl (fun (q, out) op => ((op.onQueue q).1, out ++ (op.onQueue q).2)) (.empty, [])

end BufferOp

/-- A buffer as a machine that collects the bytes it hands out. -/
def bufferMachine : Machine Fault (RawBuffer × List UInt8) BufferOp where
  enabled := fun (b, _) op => op.allowed b
  step := fun (b, out) op => do
    let (b, bytes) ← op.apply b
    return (b, out ++ bytes)

section Memory

variable {memory : Memory} {data n : ℕ} {bytes : List UInt8}

@[simp] theorem length_cells (memory : Memory) (start size : ℕ) :
    (cells memory start size).length = size := by
  simp [cells]

/-- A part of an area. -/
theorem cells_add {off size : ℕ} (h : off + size ≤ n) :
    cells memory (data + off) size = ((cells memory data n).drop off).take size := by
  apply List.ext_getElem
  · simp
    omega
  · intro i h₁ h₂
    simp [cells, Nat.add_assoc]

/-- Bytes put into an area change nothing outside it. -/
theorem putBytes_of_outside {dest a : ℕ} (h : a < dest ∨ dest + bytes.length ≤ a) :
    putBytes memory dest bytes a = memory a := by
  rw [putBytes, memcpy, if_neg (by omega)]

/-- Bytes put into an area replace as many of its bytes. -/
theorem cells_putBytes {off : ℕ} (h : off + bytes.length ≤ n) :
    cells (putBytes memory (data + off) bytes) data n =
      (cells memory data n).take off ++ bytes ++
        (cells memory data n).drop (off + bytes.length) := by
  apply List.ext_getElem
  · simp
    omega
  · intro i h₁ h₂
    have hoff : ((cells memory data n).take off).length = off := by
      simp
      omega
    have hcell : ∀ j (hj : j < (cells memory data n).length),
        (cells memory data n)[j] = memory (data + j) := by
      simp [cells]
    have hput : (cells (putBytes memory (data + off) bytes) data n)[i] =
        putBytes memory (data + off) bytes (data + i) := by
      simp [cells]
    rw [hput]
    simp only [List.getElem_append, List.length_append, hoff, List.getElem_take,
      List.getElem_drop, hcell]
    split
    · rename_i hlt
      split
      · exact putBytes_of_outside (.inl (by omega))
      · rw [putBytes, memcpy, if_pos (by omega), List.getD_eq_getElem _ _ (by omega)]
        congr 1
        omega
    · rw [putBytes_of_outside (.inr (by omega))]
      congr 1
      omega

/-- Moving bytes is putting them where they go. -/
theorem memmove_eq (memory : Memory) (dest src size : ℕ) :
    memmove memory dest src size = putBytes memory dest (cells memory src size) := by
  funext a
  simp only [memmove, putBytes, memcpy, length_cells]
  by_cases h : dest ≤ a ∧ a < dest + size
  · rw [if_pos h, if_pos h, List.getD_eq_getElem _ _ (by simp; omega)]
    simp [cells]
  · rw [if_neg h, if_neg h]

end Memory

namespace RawBuffer

/-- The buffer that the pointers describe. -/
structure Represents (r : RawBuffer) (b : Buffer) : Prop where
  read : r.read = r.data + b.read
  write : r.write = r.data + b.write
  limit : r.limit = r.data + b.data.length
  cells : cells r.memory r.data b.data.length = b.data

/-- The base and the limit are the same, and so is all memory outside them. -/
structure SameArea (r r' : RawBuffer) : Prop where
  data : r'.data = r.data
  limit : r'.limit = r.limit
  outside : ∀ a, a < r.data ∨ r.limit ≤ a → r'.memory a = r.memory a

variable {r r' r'' : RawBuffer} {b : Buffer}

theorem SameArea.refl (r : RawBuffer) : SameArea r r := ⟨rfl, rfl, fun _ _ => rfl⟩

theorem SameArea.trans (h : SameArea r r') (h' : SameArea r' r'') : SameArea r r'' where
  data := h'.data.trans h.data
  limit := h'.limit.trans h.limit
  outside a ha := (h'.outside a (by rw [h.data, h.limit]; exact ha)).trans (h.outside a ha)

theorem represents_bufferInit (memory : Memory) (n data : ℕ) :
    (bufferInit memory n data).Represents (Socks5d.bufferInit (Socks5d.cells memory data n)) where
  read := rfl
  write := rfl
  limit := by simp [bufferInit, bufferReset, Socks5d.bufferInit]
  cells := by simp [bufferInit, bufferReset, Socks5d.bufferInit]

namespace Represents

theorem reset (h : r.Represents b) : r.bufferReset.Represents (Socks5d.bufferReset b) where
  read := rfl
  write := rfl
  limit := h.limit
  cells := h.cells

theorem content (h : r.Represents b) : r.content = b.content := by
  have hw := b.write_le_limit
  have hr := b.read_le_write
  have hsize : r.write - r.read = b.write - b.read := by
    rw [h.read, h.write]
    omega
  rw [RawBuffer.content, hsize, h.read, cells_add (n := b.data.length) (by omega), h.cells]
  rfl

theorem space (h : r.Represents b) : r.limit - r.write = b.space := by
  rw [h.limit, h.write, Buffer.space]
  omega

theorem canWrite (h : r.Represents b) : bufferCanWrite r = Socks5d.bufferCanWrite b := by
  rw [bufferCanWrite, Socks5d.bufferCanWrite, h.limit, h.write]
  exact decide_eq_decide.mpr (by omega)

/-- Bytes that fit are stored at the write pointer. -/
theorem store (h : r.Represents b) {bytes : List UInt8} (hfit : bytes.length ≤ b.space) :
    RawBuffer.Represents { r with memory := putBytes r.memory r.write bytes } (b.store bytes) ∧
      SameArea r { r with memory := putBytes r.memory r.write bytes } := by
  have hw := b.write_le_limit
  have hlen := Buffer.capacity_store b bytes hfit
  rw [Buffer.capacity, Buffer.capacity] at hlen
  rw [Buffer.space] at hfit
  refine ⟨⟨h.read, h.write, ?_, ?_⟩, rfl, rfl, ?_⟩
  · rw [hlen]
    exact h.limit
  · rw [hlen]
    change Socks5d.cells (putBytes r.memory r.write bytes) r.data b.data.length = _
    rw [h.write, cells_putBytes (by omega), h.cells]
    rfl
  · intro a ha
    have hwrite := h.write
    have hlimit := h.limit
    exact putBytes_of_outside (by omega)

/-- The write pointer moves within the limit. -/
theorem writeAdv (h : r.Represents b) {k : ℕ} (hfit : k ≤ b.space) :
    ∃ r' b', r.bufferWriteAdv k = .ok r' ∧ Socks5d.bufferWriteAdv b k = .ok b' ∧
      r'.Represents b' ∧ SameArea r r' := by
  have hw := b.write_le_limit
  have hwrite := h.write
  have hlimit := h.limit
  rw [Buffer.space] at hfit
  rw [bufferWriteAdv, if_pos (by omega), Int.toNat_natCast, Socks5d.bufferWriteAdv,
    dif_pos (by omega)]
  simp only []
  rw [if_pos (by omega)]
  exact ⟨_, _, rfl, rfl, ⟨h.read, by simp [hwrite, Nat.add_assoc], h.limit, h.cells⟩, rfl, rfl,
    fun _ _ => rfl⟩

theorem compact (h : r.Represents b) :
    r.bufferCompact.Represents (Socks5d.bufferCompact b) ∧ SameArea r r.bufferCompact := by
  have hread := h.read
  have hwrite := h.write
  rw [bufferCompact, Socks5d.bufferCompact]
  by_cases hbase : b.read = 0
  · rw [if_pos (by omega), if_pos hbase]
    exact ⟨h, .refl r⟩
  · rw [if_neg (by omega), if_neg hbase]
    by_cases hempty : b.read = b.write
    · rw [if_pos (by omega), if_pos hempty]
      exact ⟨h.reset, rfl, rfl, fun _ _ => rfl⟩
    · rw [if_neg (by omega), if_neg hempty]
      have hw := b.write_le_limit
      have hr := b.read_le_write
      have hlimit := h.limit
      have hlen := b.length_content
      have hcontent : Socks5d.cells r.memory r.read (r.write - r.read) = b.content := h.content
      have hfit : 0 + b.content.length ≤ b.data.length := by omega
      have hmoved := @cells_putBytes r.memory r.data b.data.length b.content 0 hfit
      rw [Nat.add_zero, Nat.zero_add, List.take_zero, List.nil_append, h.cells, hlen] at hmoved
      simp only [memmove_eq, hcontent]
      refine ⟨⟨rfl, by simp only []; omega, ?_, ?_⟩, rfl, rfl, ?_⟩
      · simp only [List.length_append, List.length_drop, hlen]
        omega
      · have hsame : (b.content ++ b.data.drop (b.write - b.read)).length = b.data.length := by
          rw [List.length_append, List.length_drop, hlen]
          omega
        simp only [hsame]
        exact hmoved
      · intro a ha
        exact putBytes_of_outside (by omega)

/-- The read pointer moves up to the write pointer, where it goes back to the base. -/
theorem readAdv (h : r.Represents b) {k : ℕ} (hfit : k ≤ b.content.length) :
    ∃ r' b', r.bufferReadAdv k = .ok r' ∧ Socks5d.bufferReadAdv b k = .ok b' ∧
      r'.Represents b' ∧ SameArea r r' := by
  have hread := h.read
  have hwrite := h.write
  have hr := b.read_le_write
  rw [b.length_content] at hfit
  rw [bufferReadAdv, if_pos (by omega), Int.toNat_natCast, Socks5d.bufferReadAdv]
  simp only []
  rw [if_pos (by omega)]
  by_cases hempty : b.read + k = b.write
  · rw [if_pos (by omega), dif_neg (by omega), if_pos hempty, bufferCompact]
    simp only []
    by_cases hbase : r.data = r.read + k
    · rw [if_pos hbase]
      exact ⟨_, _, rfl, rfl, ⟨hbase.symm, by simp only [Socks5d.bufferReset]; omega, h.limit, h.cells⟩,
        rfl, rfl, fun _ _ => rfl⟩
    · rw [if_neg hbase, if_pos (by omega)]
      exact ⟨_, _, rfl, rfl, h.reset, rfl, rfl, fun _ _ => rfl⟩
  · rw [if_neg (by omega), dif_pos (by omega)]
    exact ⟨_, _, rfl, rfl, ⟨by simp only []; omega, h.write, h.limit, h.cells⟩, rfl, rfl,
      fun _ _ => rfl⟩

end Represents

end RawBuffer

/-- Storing a front part of the bytes just stored changes nothing. -/
theorem Buffer.store_store_take (b : Buffer) (bytes : List UInt8) (k : ℕ) :
    (b.store bytes).store (bytes.take k) = b.store bytes := by
  have hw := b.write_le_limit
  have hlen : (b.data.take b.write).length = b.write := List.length_take_of_le hw
  simp only [store, mk.injEq, and_true, List.append_assoc]
  rw [List.take_left' hlen, List.drop_append, hlen, List.drop_of_length_le (by omega),
    List.nil_append, List.length_take, Nat.add_sub_cancel_left, List.drop_append]
  have hrest : bytes.drop (min k bytes.length) = bytes.drop k := by
    rcases Nat.le_total k bytes.length with hle | hge
    · rw [Nat.min_eq_left hle]
    · rw [Nat.min_eq_right hge, List.drop_length, List.drop_eq_nil_of_le hge]
  rw [hrest, Nat.sub_eq_zero_of_le (Nat.min_le_right _ _), List.drop_zero, ← List.append_assoc (bytes.take k),
    List.take_append_drop]

/-- The buffer holds the items of a queue and has its room. -/
structure Buffer.IsQueue {n : ℕ} (b : Buffer) (q : Queue UInt8 n) : Prop where
  content : b.content = q.items
  space : b.space = q.room
  capacity : b.capacity = n

namespace Buffer.IsQueue

variable {n : ℕ} {b b' : Buffer} {q : Queue UInt8 n} {bytes : List UInt8}

theorem store (h : b.IsQueue q) (hfit : bytes.length ≤ b.space) : (b.store bytes).IsQueue q where
  content := (b.content_store bytes).trans h.content
  space := by
    have hcap := b.capacity_store bytes hfit
    rw [← h.space]
    exact congrArg (· - b.write) hcap
  capacity := (b.capacity_store bytes hfit).trans h.capacity

theorem offer (h : b.IsQueue q) (hfit : bytes.length ≤ b.space)
    (hadv : bufferWriteAdv (b.store bytes) bytes.length = .ok b') :
    b'.IsQueue (q.offer bytes) := by
  obtain ⟨hcontent, hcapacity⟩ := bufferWriteAdv_store_eq_ok hfit hadv
  have hspace := bufferWriteAdv_store_space hfit hadv
  rw [h.space] at hfit hspace
  obtain ⟨hitems, hroom⟩ := q.offer_of_le hfit
  exact ⟨by rw [hitems, hcontent, h.content], by rw [hroom, hspace],
    hcapacity.trans h.capacity⟩

theorem drop (h : b.IsQueue q) {k : ℕ} (hadv : bufferReadAdv b k = .ok b') :
    b'.IsQueue (q.drop k) := by
  obtain ⟨hcontent, hcapacity⟩ := bufferReadAdv_eq_ok hadv
  have hspace := bufferReadAdv_space hadv
  rw [h.content, h.space, h.capacity] at hspace
  exact ⟨by rw [q.items_drop, hcontent, h.content], by rw [q.room_drop, hspace],
    hcapacity.trans h.capacity⟩

theorem compact (h : b.IsQueue q) : (bufferCompact b).IsQueue q.compact where
  content := b.content_bufferCompact.trans h.content
  space := by
    rw [space_bufferCompact, h.capacity, h.content]
    rfl
  capacity := b.capacity_bufferCompact.trans h.capacity

theorem reset (h : b.IsQueue q) : (bufferReset b).IsQueue (.empty : Queue UInt8 n) where
  content := b.content_bufferReset
  space := by
    rw [space_of_content_nil _ b.content_bufferReset]
    exact h.capacity
  capacity := h.capacity

end Buffer.IsQueue

namespace RawBuffer

variable {n : ℕ} {r : RawBuffer} {q : Queue UInt8 n}

/-- The pointers describe a buffer that is a queue. -/
def Refines (r : RawBuffer) (q : Queue UInt8 n) : Prop := ∃ b, r.Represents b ∧ b.IsQueue q

theorem refines_bufferInit (memory : Memory) (n data : ℕ) :
    (bufferInit memory n data).Refines (.empty : Queue UInt8 n) := by
  refine ⟨_, represents_bufferInit memory n data, Buffer.content_bufferInit _, ?_, ?_⟩
  · rw [Buffer.space_of_content_nil _ (Buffer.content_bufferInit _), Buffer.capacity_bufferInit,
      length_cells]
    rfl
  · rw [Buffer.capacity_bufferInit, length_cells]

namespace Refines

theorem content_eq (h : r.Refines q) : r.content = q.items := by
  obtain ⟨b, hb, hq⟩ := h
  exact hb.content.trans hq.content

theorem room_eq (h : r.Refines q) : r.limit - r.write = q.room := by
  obtain ⟨b, hb, hq⟩ := h
  exact hb.space.trans hq.space

/-- A caller stores bytes at the write pointer and announces a front part of them, or a
failure. -/
theorem fill (h : r.Refines q) {bytes : List UInt8} {adv : ℤ}
    (hfit : bytes.length ≤ r.limit - r.write) (hadv : adv ≤ bytes.length) :
    ∃ r', bufferWriteAdv { r with memory := putBytes r.memory r.write bytes } adv = .ok r' ∧
      r'.Refines (q.offer (bytes.take adv.toNat)) ∧ SameArea r r' := by
  obtain ⟨b, hb, hq⟩ := h
  rw [hb.space] at hfit
  obtain ⟨hstored, harea⟩ := hb.store hfit
  have hq' := hq.store hfit
  by_cases hneg : adv < 0
  · rw [bufferWriteAdv, if_neg (by omega), Int.toNat_of_nonpos (by omega), List.take_zero,
      q.offer_nil]
    exact ⟨_, rfl, ⟨_, hstored, hq'⟩, harea⟩
  · obtain ⟨k, rfl⟩ := Int.eq_ofNat_of_zero_le (by omega : 0 ≤ adv)
    have hk : k ≤ bytes.length := by omega
    have hlen : (bytes.take k).length = k := List.length_take_of_le hk
    have hspace : k ≤ (b.store bytes).space := by
      rw [hq'.space, ← hq.space]
      omega
    obtain ⟨r', b', hr', hb', hrep, harea'⟩ := hstored.writeAdv hspace
    rw [← b.store_store_take bytes k] at hb'
    rw [Int.toNat_natCast]
    exact ⟨r', hr', ⟨b', hrep, hq'.offer (by omega) (by rw [hlen, hb'])⟩, harea.trans harea'⟩

/-- A struct is appended when it fits, and otherwise dropped whole. -/
theorem writeStruct (h : r.Refines q) (data : List UInt8) :
    ∃ r', bufferWriteStruct r data = .ok r' ∧ r'.Refines (q.offer data) ∧ SameArea r r' := by
  have hspace := h.room_eq
  rw [bufferWriteStruct]
  by_cases hfit : bufferCanWrite r ∧ data.length ≤ r.limit - r.write
  · rw [if_pos hfit]
    simpa using h.fill hfit.2 (Int.le_refl data.length)
  · rw [if_neg hfit]
    refine ⟨r, rfl, ?_, .refl r⟩
    by_cases hroom : q.room < data.length
    · rw [q.offer_of_lt hroom]
      exact h
    · have hfull : ¬ r.write < r.limit := by
        intro hlt
        exact hfit ⟨by simpa [bufferCanWrite] using hlt, by omega⟩
      rw [List.length_eq_zero_iff.mp (by omega : data.length = 0), q.offer_nil]
      exact h

/-- A caller takes some of the bytes reported to it, or reports a failure. -/
theorem drain (h : r.Refines q) {adv : ℤ} (hadv : adv ≤ ((r.write - r.read : ℕ) : ℤ)) :
    ∃ r', bufferReadAdv r adv = .ok r' ∧ r'.Refines (q.drop adv.toNat) ∧ SameArea r r' := by
  obtain ⟨b, hb, hq⟩ := h
  by_cases hneg : adv < 0
  · rw [bufferReadAdv, if_neg (by omega), Int.toNat_of_nonpos (by omega),
      q.drop_eq_self List.drop_zero]
    exact ⟨r, rfl, ⟨b, hb, hq⟩, .refl r⟩
  · obtain ⟨k, rfl⟩ := Int.eq_ofNat_of_zero_le (by omega : 0 ≤ adv)
    have hk : k ≤ b.content.length := by
      rw [← hb.content, RawBuffer.content, length_cells]
      omega
    obtain ⟨r', b', hr', hb', hrep, harea⟩ := hb.readAdv hk
    rw [Int.toNat_natCast]
    exact ⟨r', hr', ⟨b', hrep, hq.drop hb'⟩, harea⟩

theorem read (h : r.Refines q) :
    ∃ r', bufferRead r = .ok (q.items.headD 0, r') ∧ r'.Refines (q.drop 1) ∧ SameArea r r' := by
  have hcontent := h.content_eq
  rw [bufferRead]
  by_cases hcan : bufferCanRead r = true
  · obtain ⟨m, hm⟩ : ∃ m, r.write - r.read = m + 1 :=
      ⟨r.write - r.read - 1, by simp [bufferCanRead] at hcan; omega⟩
    have hhead : q.items.headD 0 = r.memory r.read := by
      rw [← hcontent, RawBuffer.content, hm, cells, List.range_succ_eq_map]
      rfl
    have hone : (1 : ℤ) ≤ ((r.write - r.read : ℕ) : ℤ) := by omega
    obtain ⟨r', hr', hrest⟩ := h.drain hone
    rw [if_pos hcan, hhead, hr', ok_bind]
    exact ⟨r', rfl, hrest⟩
  · have hnil : q.items = [] := by
      rw [← hcontent, RawBuffer.content, Nat.sub_eq_zero_of_le (by simpa [bufferCanRead] using hcan)]
      rfl
    rw [if_neg hcan, hnil, q.drop_eq_self (by rw [hnil]; rfl)]
    exact ⟨r, rfl, h, .refl r⟩

/-- One byte is written like a struct of one byte. -/
theorem write (h : r.Refines q) (c : UInt8) :
    ∃ r', bufferWrite r c = .ok r' ∧ r'.Refines (q.offer [c]) ∧ SameArea r r' := by
  have hput : Function.update r.memory r.write c = putBytes r.memory r.write [c] := by
    funext a
    rw [putBytes, memcpy]
    by_cases ha : a = r.write
    · simp [ha]
    · rw [Function.update_of_ne ha, if_neg (by simp; omega)]
  have hsame : bufferWrite r c = bufferWriteStruct r [c] := by
    rw [bufferWrite, bufferWriteStruct, hput]
    by_cases hcan : bufferCanWrite r = true
    · have hlt : r.write < r.limit := by simpa [bufferCanWrite] using hcan
      rw [if_pos hcan, if_pos ⟨hcan, by simp; omega⟩]
      rfl
    · rw [if_neg hcan, if_neg (fun hfit => hcan hfit.1)]
  rw [hsame]
  exact h.writeStruct [c]

theorem compact (h : r.Refines q) :
    r.bufferCompact.Refines q.compact ∧ SameArea r r.bufferCompact := by
  obtain ⟨b, hb, hq⟩ := h
  exact ⟨⟨_, hb.compact.1, hq.compact⟩, hb.compact.2⟩

theorem reset (h : r.Refines q) :
    r.bufferReset.Refines (.empty : Queue UInt8 n) ∧ SameArea r r.bufferReset := by
  obtain ⟨b, hb, hq⟩ := h
  exact ⟨⟨_, hb.reset, hq.reset⟩, rfl, rfl, fun _ _ => rfl⟩

/-- The pointers are in the documented order. -/
theorem ordered (h : r.Refines q) :
    r.data ≤ r.read ∧ r.read ≤ r.write ∧ r.write ≤ r.limit := by
  obtain ⟨b, hb, -⟩ := h
  have hw := b.write_le_limit
  have hr := b.read_le_write
  rw [hb.read, hb.write, hb.limit]
  omega

/-- Every allowed use of the buffer is one of the queue. -/
theorem apply (h : r.Refines q) {op : BufferOp} (hallowed : op.allowed r = true) :
    ∃ r', op.apply r = .ok (r', (op.onQueue q).2) ∧ r'.Refines (op.onQueue q).1 ∧
      SameArea r r' := by
  obtain ⟨-, hread, hwrite⟩ := h.ordered
  cases op with
  | write c =>
    obtain ⟨r', hr', hrest⟩ := h.write c
    exact ⟨r', by rw [BufferOp.apply, hr']; rfl, hrest⟩
  | writeStruct data =>
    obtain ⟨r', hr', hrest⟩ := h.writeStruct data
    exact ⟨r', by rw [BufferOp.apply, hr']; rfl, hrest⟩
  | fill bytes adv =>
    simp only [BufferOp.allowed, Bool.and_eq_true, decide_eq_true_eq] at hallowed
    obtain ⟨r', hr', hrest⟩ := h.fill hallowed.1 hallowed.2
    exact ⟨r', by rw [BufferOp.apply, bufferWritePtr, if_pos hwrite, ok_bind, hr']; rfl, hrest⟩
  | read =>
    obtain ⟨r', hr', hrest⟩ := h.read
    exact ⟨r', by rw [BufferOp.apply, hr']; rfl, hrest⟩
  | drain adv =>
    simp only [BufferOp.allowed, decide_eq_true_eq] at hallowed
    obtain ⟨r', hr', hrest⟩ := h.drain hallowed
    have hcontent : cells r.memory r.read (r.write - r.read) = q.items := h.content_eq
    refine ⟨r', ?_, hrest⟩
    rw [BufferOp.apply, bufferReadPtr, if_pos hread, ok_bind, hcontent, hr']
    rfl
  | compact => exact ⟨_, rfl, h.compact⟩
  | reset => exact ⟨_, rfl, h.reset⟩

end Refines

/-- A run is the same sequence of operations on the queue, and hands out the same bytes. -/
theorem refines_of_run {memory : Memory} {data : ℕ} {ops : List BufferOp}
    {s : RawBuffer × List UInt8}
    (hrun : Run bufferMachine unguarded (bufferInit memory n data, []) ops s) :
    s.1.Refines (BufferOp.onEmptyQueue n ops).1 ∧ s.2 = (BufferOp.onEmptyQueue n ops).2 ∧
      SameArea (bufferInit memory n data) s.1 := by
  induction hrun with
  | nil => exact ⟨refines_bufferInit memory n data, rfl, .refl _⟩
  | @snoc ops s s' op hrun henabled _ hstep ih =>
    obtain ⟨hrefines, hout, harea⟩ := ih
    have hallowed : op.allowed s.1 = true := henabled
    obtain ⟨r', hr', hrefines', harea'⟩ := hrefines.apply hallowed
    have hs' : s' = (r', s.2 ++ (op.onQueue (BufferOp.onEmptyQueue n ops).1).2) := by
      have hstep' : (do
          let (b, bytes) ← op.apply s.1
          return (b, s.2 ++ bytes)) = Except.ok s' := hstep
      rw [hr', ok_bind] at hstep'
      exact (Except.ok.inj hstep').symm
    have hlast : BufferOp.onEmptyQueue n (ops ++ [op]) =
        ((op.onQueue (BufferOp.onEmptyQueue n ops).1).1,
          (BufferOp.onEmptyQueue n ops).2 ++ (op.onQueue (BufferOp.onEmptyQueue n ops).1).2) := by
      rw [BufferOp.onEmptyQueue, List.foldl_append]
      rfl
    rw [hlast, hs']
    exact ⟨hrefines', by rw [hout], harea.trans harea'⟩

end RawBuffer

/-- In every run from `buffer_init` the pointers keep their order and the area, the bytes between
`read` and `write` are the items of the queue, what was handed out is what left the queue, the
space reported is its room, compaction leaves all that the items do not take, no allowed
operation fails an assertion, and memory outside the area is left alone. -/
theorem buffer_refines_queue {memory : Memory} {n data : ℕ} {ops : List BufferOp} {r : RawBuffer}
    {out : List UInt8}
    (hrun : Run bufferMachine unguarded (RawBuffer.bufferInit memory n data, []) ops (r, out)) :
    (r.data = data ∧ r.data ≤ r.read ∧ r.read ≤ r.write ∧ r.write ≤ r.limit ∧
      r.limit = data + n) ∧
    r.content = (BufferOp.onEmptyQueue n ops).1.items ∧
    out = (BufferOp.onEmptyQueue n ops).2 ∧
    r.bufferWritePtr = .ok (BufferOp.onEmptyQueue n ops).1.room ∧
    r.bufferCompact.bufferWritePtr = .ok (n - (BufferOp.onEmptyQueue n ops).1.items.length) ∧
    (∀ op : BufferOp, op.allowed r = true → ∃ next, op.apply r = .ok next) ∧
    ∀ a, a < data ∨ data + n ≤ a → r.memory a = memory a := by
  obtain ⟨hrefines, hout, harea⟩ := RawBuffer.refines_of_run hrun
  obtain ⟨hdata, hread, hwrite⟩ := hrefines.ordered
  obtain ⟨hcompact, -⟩ := hrefines.compact
  refine ⟨⟨harea.data, hdata, hread, hwrite, harea.limit⟩, hrefines.content_eq, hout, ?_, ?_, ?_,
    harea.outside⟩
  · rw [RawBuffer.bufferWritePtr, if_pos hwrite, hrefines.room_eq]
  · rw [RawBuffer.bufferWritePtr, if_pos hcompact.ordered.2.2, hcompact.room_eq]
    rfl
  · intro op hallowed
    obtain ⟨r', hr', -⟩ := hrefines.apply hallowed
    exact ⟨_, hr'⟩

/-- Six places: four bytes are stored, three are taken, two more are stored. -/
theorem buffer_refines_queue_hola : ∃ r : RawBuffer,
    r.content = [65, 33, 77] ∧ r.bufferCompact.bufferWritePtr = .ok 3 := by
  have hexec : (exec bufferMachine unguarded (RawBuffer.bufferInit (fun _ => 0) 6 0, [])
      [.fill [72, 79, 76, 65] 4, .drain 3, .fill [33, 77] 2]).isSome = true := by decide
  obtain ⟨⟨r, out⟩, hrun⟩ := Option.isSome_iff_exists.mp hexec
  obtain ⟨-, hcontent, -, -, hspace, -⟩ := buffer_refines_queue (run_of_exec hrun)
  exact ⟨r, hcontent, hspace⟩

end Socks5d
