import Socks5d.Basic
import Mathlib.Data.List.GetD
import Mathlib.Data.List.TakeDrop

/-!
# The I/O buffer of `buffer.c`

The pointers `data`, `read`, `write` and `limit` are offsets into the memory the buffer was
given: `data` is offset zero and `limit` is the length of that memory. The fields of the
structure are the documented invariant `R <= W <= limit` and the fact that an empty buffer
sits at its base, which every operation that empties a buffer restores by compacting.

The content of a buffer is the list of bytes between `read` and `write`. The lemmas below
describe each operation by what it does to the content, the capacity and the free space.
-/

namespace Socks5d

/-- A buffer over a memory of `data.length` bytes, holding its own invariant. -/
structure Buffer where
  data : List UInt8
  read : ℕ
  write : ℕ
  read_le_write : read ≤ write
  write_le_limit : write ≤ data.length
  empty_at_base : read = write → read = 0
  deriving DecidableEq

namespace Buffer

/-- The bytes written and not yet read. -/
def content (b : Buffer) : List UInt8 := (b.data.drop b.read).take (b.write - b.read)

/-- The number of bytes between the base and the limit. -/
def capacity (b : Buffer) : ℕ := b.data.length

/-- The number of bytes `buffer_write_ptr` reports. -/
def space (b : Buffer) : ℕ := b.data.length - b.write

/-- The bytes placed in memory at the write pointer by whoever was handed it. -/
def store (b : Buffer) (bytes : List UInt8) : Buffer where
  data := b.data.take b.write ++ bytes ++ b.data.drop (b.write + bytes.length)
  read := b.read
  write := b.write
  read_le_write := b.read_le_write
  write_le_limit := by
    have h := b.write_le_limit
    simp only [List.length_append, List.length_take]
    omega
  empty_at_base := b.empty_at_base

end Buffer

def bufferReset (b : Buffer) : Buffer where
  data := b.data
  read := 0
  write := 0
  read_le_write := Nat.le_refl 0
  write_le_limit := Nat.zero_le _
  empty_at_base := fun _ => rfl

/-- The buffer over a fresh memory; the length of `data` is the size passed by the caller. -/
def bufferInit (data : List UInt8) : Buffer where
  data := data
  read := 0
  write := 0
  read_le_write := Nat.le_refl 0
  write_le_limit := Nat.zero_le _
  empty_at_base := fun _ => rfl

def bufferCanWrite (b : Buffer) : Bool := decide (b.write < b.data.length)

def bufferCanRead (b : Buffer) : Bool := decide (b.read < b.write)

/-- Advance the write pointer, as far as the assertion allows. -/
def bufferWriteAdv (b : Buffer) (bytes : ℕ) : Except Fault Buffer :=
  if h : b.write + bytes ≤ b.data.length then
    .ok { b with
      write := b.write + bytes
      read_le_write := Nat.le_trans b.read_le_write (Nat.le_add_right _ _)
      write_le_limit := h
      empty_at_base := fun he => b.empty_at_base (by have := b.read_le_write; omega) }
  else
    .error .assertion

/-- Advance the read pointer; a buffer emptied this way is compacted to its base. -/
def bufferReadAdv (b : Buffer) (bytes : ℕ) : Except Fault Buffer :=
  if h : b.read + bytes < b.write then
    .ok { b with
      read := b.read + bytes
      read_le_write := Nat.le_of_lt h
      empty_at_base := fun he => absurd he (Nat.ne_of_lt h) }
  else if b.read + bytes = b.write then
    .ok (bufferReset b)
  else
    .error .assertion

def bufferRead (b : Buffer) : Except Fault (UInt8 × Buffer) :=
  if bufferCanRead b then do
    let b' ← bufferReadAdv b 1
    return (b.data.getD b.read 0, b')
  else
    return (0, b)

def bufferCompact (b : Buffer) : Buffer :=
  if b.read = 0 then b
  else if b.read = b.write then bufferReset b
  else
    { data := b.content ++ b.data.drop (b.write - b.read)
      read := 0
      write := b.write - b.read
      read_le_write := Nat.zero_le _
      write_le_limit := by
        have h := b.write_le_limit
        have hr := b.read_le_write
        simp only [Buffer.content, List.length_append, List.length_take, List.length_drop]
        omega
      empty_at_base := fun _ => rfl }

def bufferWriteStruct (b : Buffer) (bytes : List UInt8) : Except Fault Buffer :=
  if bufferCanWrite b ∧ bytes.length ≤ b.space then
    bufferWriteAdv (b.store bytes) bytes.length
  else
    return b

namespace Buffer

variable (b : Buffer)

/-- The content is what lies between the two offsets. -/
theorem length_content : b.content.length = b.write - b.read := by
  have h := b.write_le_limit
  simp only [content, List.length_take, List.length_drop]
  omega

/-- The content is empty exactly when the pointers meet. -/
theorem content_eq_nil_iff : b.content = [] ↔ b.write = b.read := by
  have h := b.read_le_write
  rw [← List.length_eq_zero_iff, length_content]
  omega

/-- There is something to read exactly when the content is not empty. -/
theorem bufferCanRead_iff : bufferCanRead b = true ↔ b.content ≠ [] := by
  have h := b.read_le_write
  rw [Ne, content_eq_nil_iff]
  simp only [bufferCanRead, decide_eq_true_eq]
  omega

/-- There is nothing to read exactly when the content is empty. -/
theorem bufferCanRead_eq_false_iff : bufferCanRead b = false ↔ b.content = [] := by
  rw [← Bool.not_eq_true, bufferCanRead_iff, not_not]

/-- There is room to write exactly when space is left. -/
theorem bufferCanWrite_iff : bufferCanWrite b = true ↔ 0 < b.space := by
  simp only [bufferCanWrite, space, decide_eq_true_eq]
  omega

/-- An empty buffer offers its whole capacity. -/
theorem space_of_content_nil (h : b.content = []) : b.space = b.capacity := by
  have hrw := (content_eq_nil_iff b).mp h
  have hbase := b.empty_at_base hrw.symm
  simp only [space, capacity]
  omega

/-- Bytes that are stored are no content yet. -/
@[simp] theorem content_store (bytes : List UInt8) : (b.store bytes).content = b.content := by
  have h := b.write_le_limit
  have hr := b.read_le_write
  have hlen : (b.data.take b.write).length = b.write := by simp [h]
  simp only [content, store]
  rw [List.append_assoc, List.drop_append_of_le_length (by omega), List.take_append_of_le_length
    (by simp only [List.length_drop]; omega), ← List.drop_take, List.take_take,
    Nat.min_self, ← List.drop_take]

/-- Storing what fits keeps the capacity. -/
theorem capacity_store (bytes : List UInt8) (h : bytes.length ≤ b.space) :
    (b.store bytes).capacity = b.capacity := by
  have hw := b.write_le_limit
  simp only [space] at h
  simp only [capacity, store, List.length_append, List.length_take, List.length_drop]
  omega

/-- A buffer that was reset is empty. -/
@[simp] theorem content_bufferReset : (bufferReset b).content = [] := by
  simp [content, bufferReset]

/-- A reset keeps the capacity. -/
@[simp] theorem capacity_bufferReset : (bufferReset b).capacity = b.capacity := rfl

/-- A new buffer is empty. -/
@[simp] theorem content_bufferInit (data : List UInt8) : (bufferInit data).content = [] := by
  simp [content, bufferInit]

/-- A new buffer has the capacity of its array. -/
@[simp] theorem capacity_bufferInit (data : List UInt8) :
    (bufferInit data).capacity = data.length := rfl

/-- Compaction moves the content to the base and changes nothing else. -/
@[simp] theorem content_bufferCompact : (bufferCompact b).content = b.content := by
  unfold bufferCompact
  split
  · rfl
  · split
    · rename_i h
      rw [content_bufferReset, eq_comm, content_eq_nil_iff, h]
    · change ((b.content ++ b.data.drop (b.write - b.read)).drop 0).take (b.write - b.read) = b.content
      rw [List.drop_zero, ← length_content, List.take_left]

/-- Compaction keeps the capacity. -/
@[simp] theorem capacity_bufferCompact : (bufferCompact b).capacity = b.capacity := by
  have h := b.write_le_limit
  have hr := b.read_le_write
  unfold bufferCompact
  split
  · rfl
  · split
    · rfl
    · simp only [capacity, content, List.length_append, List.length_take, List.length_drop]
      omega

/-- Reading ahead removes that many bytes from the front of the content. -/
theorem bufferReadAdv_eq_ok {b b' : Buffer} {bytes : ℕ} (h : bufferReadAdv b bytes = .ok b') :
    b'.content = b.content.drop bytes ∧ b'.capacity = b.capacity := by
  unfold bufferReadAdv at h
  split at h
  · obtain rfl := Except.ok.inj h
    refine ⟨?_, rfl⟩
    simp only [content, List.drop_take, List.drop_drop]
    congr 1
    omega
  · split at h
    · rename_i he
      obtain rfl := Except.ok.inj h
      refine ⟨?_, rfl⟩
      rw [content_bufferReset, eq_comm, List.drop_eq_nil_iff, length_content]
      omega
    · cases h

/-- Reading ahead frees no space until it empties the buffer. -/
theorem bufferReadAdv_space {b b' : Buffer} {bytes : ℕ} (h : bufferReadAdv b bytes = .ok b') :
    b'.space = if bytes < b.content.length then b.space else b.capacity := by
  rw [length_content]
  unfold bufferReadAdv at h
  split at h
  · obtain rfl := Except.ok.inj h
    rw [if_pos (by omega)]
    rfl
  · split at h
    · obtain rfl := Except.ok.inj h
      rw [if_neg (by omega), space_of_content_nil _ (content_bufferReset b)]
      rfl
    · cases h

/-- What is there may be skipped. -/
theorem bufferReadAdv_succeeds {bytes : ℕ} (h : bytes ≤ b.content.length) :
    ∃ b', bufferReadAdv b bytes = .ok b' := by
  rw [length_content] at h
  have hr := b.read_le_write
  unfold bufferReadAdv
  split
  · exact ⟨_, rfl⟩
  · split
    · exact ⟨_, rfl⟩
    · omega

/-- Bytes placed at the write pointer and then announced are appended to the content. -/
theorem bufferWriteAdv_store_eq_ok {b b' : Buffer} {bytes : List UInt8}
    (hfit : bytes.length ≤ b.space) (h : bufferWriteAdv (b.store bytes) bytes.length = .ok b') :
    b'.content = b.content ++ bytes ∧ b'.capacity = b.capacity := by
  have hw := b.write_le_limit
  have hr := b.read_le_write
  have hcap := capacity_store b bytes hfit
  have hlen : (b.data.take b.write).length = b.write := by simp [hw]
  unfold bufferWriteAdv at h
  split at h
  · obtain rfl := Except.ok.inj h
    refine ⟨?_, hcap⟩
    simp only [content, store]
    rw [List.append_assoc, List.drop_append_of_le_length (by omega), List.take_append,
      ← List.drop_take]
    have hdrop : ((b.data.take b.write).drop b.read).length = b.write - b.read := by
      simp only [List.length_drop, hlen]
    rw [List.take_of_length_le (by omega), hdrop,
      show b.write + bytes.length - b.read - (b.write - b.read) = bytes.length by omega,
      List.take_left, List.drop_take]
  · cases h

/-- Announced bytes take that much of the free space. -/
theorem bufferWriteAdv_store_space {b b' : Buffer} {bytes : List UInt8}
    (hfit : bytes.length ≤ b.space) (h : bufferWriteAdv (b.store bytes) bytes.length = .ok b') :
    b'.space = b.space - bytes.length := by
  have hcap := capacity_store b bytes hfit
  unfold bufferWriteAdv at h
  split at h
  · obtain rfl := Except.ok.inj h
    change (b.store bytes).capacity - (b.write + bytes.length) = b.space - bytes.length
    rw [hcap, capacity, space]
    omega
  · cases h

/-- After compaction every byte that is not content is free. -/
theorem space_bufferCompact : (bufferCompact b).space = b.capacity - b.content.length := by
  have h := b.write_le_limit
  have hr := b.read_le_write
  rw [length_content]
  unfold bufferCompact
  split
  · simp only [space, capacity]
    omega
  · split
    · simp only [space, capacity, bufferReset]
      omega
    · have hlen := length_content b
      simp only [space, capacity, List.length_append, List.length_drop, hlen]
      omega

/-- The content fits. -/
theorem length_content_le : b.content.length ≤ b.capacity := by
  have h := b.write_le_limit
  rw [length_content, capacity]
  omega

/-- What fits may be stored and taken into the content. -/
theorem bufferWriteAdv_store_succeeds {bytes : List UInt8} (hfit : bytes.length ≤ b.space) :
    ∃ b', bufferWriteAdv (b.store bytes) bytes.length = .ok b' := by
  have hw := b.write_le_limit
  have hcap := capacity_store b bytes hfit
  simp only [space] at hfit
  simp only [capacity] at hcap
  unfold bufferWriteAdv
  rw [dif_pos (by rw [hcap]; simp only [store]; omega)]
  exact ⟨_, rfl⟩

/-- One byte read is the head of the content. -/
theorem bufferRead_eq_ok {b b' : Buffer} {byte : UInt8} (hne : b.content ≠ [])
    (h : bufferRead b = .ok (byte, b')) :
    b.content = byte :: b'.content ∧ b'.capacity = b.capacity := by
  have hlt : b.read < b.write := by
    have := (bufferCanRead_iff b).mpr hne
    simpa [bufferCanRead] using this
  have hw := b.write_le_limit
  unfold bufferRead at h
  rw [if_pos ((bufferCanRead_iff b).mpr hne)] at h
  cases hadv : bufferReadAdv b 1 with
  | error e => rw [hadv] at h; cases h
  | ok b₁ =>
    rw [hadv] at h
    obtain ⟨rfl, rfl⟩ := Prod.mk.inj (Except.ok.inj h)
    obtain ⟨hcontent, hcap⟩ := bufferReadAdv_eq_ok hadv
    refine ⟨?_, hcap⟩
    have hhead : b.content = b.data.getD b.read 0 :: b.content.drop 1 := by
      have hget : b.data.drop b.read = b.data.getD b.read 0 :: b.data.drop (b.read + 1) := by
        rw [List.getD_eq_getElem _ _ (by omega), List.getElem_cons_drop]
      obtain ⟨m, hm⟩ : ∃ m, b.write - b.read = m + 1 := ⟨b.write - b.read - 1, by omega⟩
      rw [content, hm, hget]
      rfl
    rw [hhead, hcontent]

/-- A byte is read as long as there is one. -/
theorem bufferRead_succeeds (hne : b.content ≠ []) : ∃ r, bufferRead b = .ok r := by
  have hlen : 1 ≤ b.content.length := List.length_pos_iff.mpr hne
  obtain ⟨b', hb'⟩ := bufferReadAdv_succeeds b hlen
  refine ⟨(b.data.getD b.read 0, b'), ?_⟩
  rw [bufferRead, if_pos ((bufferCanRead_iff b).mpr hne), hb']
  rfl

end Buffer

end Socks5d
