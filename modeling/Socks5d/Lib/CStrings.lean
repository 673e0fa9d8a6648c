import Mathlib.Algebra.Group.Nat.Defs
import Mathlib.Algebra.Ring.Int.Defs
import Mathlib.Data.List.Forall2
import Mathlib.Data.List.TakeDrop
import Mathlib.Data.List.TakeWhile
import Mathlib.Data.Int.Notation

/-!
# C strings and formatted output in byte memories

A memory is a list of bytes. A string is what stands before the first zero, the functions of
`string.h` and `stdio.h` that write into a memory keep its length, and a search may run over
bytes that no one wrote. The scan state of `strtok_r` keeps both the string that is left and
the memory already passed, because every token ends with a zero written over its delimiter.
-/

namespace CStrings

/-- The characters of a literal. -/
def ascii (s : String) : List UInt8 := s.toList.map fun c => UInt8.ofNat c.toNat

/-- The `%u` conversion. -/
def decimal (n : ℕ) : List UInt8 := (Nat.toDigits 10 n).map fun c => UInt8.ofNat c.toNat

/-- The `%d` conversion. -/
def signedDecimal (n : ℤ) : List UInt8 :=
  if n < 0 then ascii "-" ++ decimal n.natAbs else decimal n.natAbs

/-- A conversion with a field width and the `-` flag. -/
def padRight (width : ℕ) (text : List UInt8) : List UInt8 :=
  text ++ List.replicate (width - text.length) 32

/-- The string at the start of a memory. -/
def text (mem : List UInt8) : List UInt8 := mem.takeWhile (· ≠ 0)

/-- Bytes written at an offset, as far as the memory reaches. -/
def overwrite (mem : List UInt8) (pos : ℕ) (bytes : List UInt8) : List UInt8 :=
  mem.take pos ++ bytes.take (mem.length - pos) ++ mem.drop (pos + bytes.length)

/-- `snprintf` at an offset, with everything behind the offset as its size. -/
def snprintf (mem : List UInt8) (pos : ℕ) (out : List UInt8) : List UInt8 :=
  if pos < mem.length then overwrite mem pos (out.take (mem.length - pos - 1) ++ [0]) else mem

/-- Copy a string with its end. -/
def strcpy (mem s : List UInt8) : List UInt8 := overwrite mem 0 (s ++ [0])

/-- `strncpy` pads with zeros, and leaves no zero behind a string of `n` bytes or more. -/
def strncpy (mem s : List UInt8) (n : ℕ) : List UInt8 :=
  overwrite mem 0 ((s ++ List.replicate n 0).take n)

/-- The offset of the first `c` that no zero precedes. -/
def strchr (c : UInt8) : List UInt8 → Option ℕ
  | [] => none
  | b :: rest => if b = c then some 0 else if b = 0 then none else (strchr c rest).map (· + 1)

/-- Whether a string starts somewhere in a list of bytes. -/
def occurs (s : List UInt8) : List UInt8 → Bool
  | [] => s.isEmpty
  | c :: rest => s.isPrefixOf (c :: rest) || occurs s rest

/-- Whether `strstr` finds a string in the one at the start of a memory. -/
def strstr (mem s : List UInt8) : Bool := occurs s (text mem)

/-- The state of `strtok_r` over one string: the memory passed and the string still ahead. -/
structure Scan where
  done : List UInt8
  left : List UInt8
  deriving DecidableEq, Repr

/-- `strtok_r`: skip delimiters, take the token and write a zero over the delimiter behind it. -/
def strtokR (delim : UInt8 → Bool) (t : Scan) : Option (List UInt8) × Scan :=
  let skipped := t.left.takeWhile delim
  let s := t.left.dropWhile delim
  if s = [] then (none, ⟨t.done ++ skipped, []⟩)
  else
    let token := s.takeWhile (!delim ·)
    match s.dropWhile (!delim ·) with
    | [] => (some token, ⟨t.done ++ skipped ++ token, []⟩)
    | _ :: rest => (some token, ⟨t.done ++ skipped ++ token ++ [0], rest⟩)

/-- Call `strtok_r` until it returns null, or at most `fuel` times. -/
def strtokUntil (delim : UInt8 → Bool) : ℕ → Scan → Scan
  | 0, t => t
  | fuel + 1, t =>
    match strtokR delim t with
    | (some _, t) => strtokUntil delim fuel t
    | (none, t) => t

/-- `while (strtok_r(...));`: each token takes at least one byte. -/
def strtokAll (delim : UInt8 → Bool) (t : Scan) : Scan :=
  strtokUntil delim (t.left.length + 1) t

/-- The characters `isspace` accepts. -/
def isSpace (c : UInt8) : Bool := c == 32 || (decide (9 ≤ c) && decide (c ≤ 13))

/-- The characters `isdigit` accepts. -/
def isDigit (c : UInt8) : Bool := decide (48 ≤ c) && decide (c ≤ 57)

/-- The number these digits are read as. -/
def digitsValue (digits : List UInt8) : ℕ :=
  digits.foldl (fun n c => 10 * n + (c.toNat - 48)) 0

/-- The optional sign of a number, and what follows it. -/
def splitSign : List UInt8 → Bool × List UInt8
  | 45 :: rest => (true, rest)
  | 43 :: rest => (false, rest)
  | s => (false, s)

/-- `strtol` in base 10 with a 64-bit `long`. -/
def strtol (s : List UInt8) : ℤ :=
  let (negative, digits) := splitSign (s.dropWhile isSpace)
  let value : ℤ := digitsValue (digits.takeWhile isDigit)
  if negative then max (-2 ^ 63) (-value) else min (2 ^ 63 - 1) value

/-- `atoi` converts the `long` to a 32-bit `int`. -/
def atoi (s : List UInt8) : ℤ := (strtol s).bmod (2 ^ 32)

section Writing

variable (mem bytes out : List UInt8) (pos : ℕ)

/-- Writing into a memory keeps its length. -/
@[simp] theorem length_overwrite : (overwrite mem pos bytes).length = mem.length := by
  simp only [overwrite, List.length_append, List.length_take, List.length_drop]
  omega

/-- Writing nothing changes nothing. -/
@[simp] theorem overwrite_nil : overwrite mem pos [] = mem := by
  simp [overwrite]

/-- A byte is what was written over it, or what stood there. -/
theorem getElem?_overwrite (i : ℕ) :
    (overwrite mem pos bytes)[i]? =
      if pos ≤ i ∧ i < pos + bytes.length ∧ i < mem.length then bytes[i - pos]? else mem[i]? := by
  unfold overwrite
  by_cases hpos : i < min pos mem.length
  · rw [List.append_assoc, List.getElem?_append_left (by rw [List.length_take]; omega),
      List.getElem?_take_of_lt (by omega), if_neg (by omega)]
  · rw [List.append_assoc, List.getElem?_append_right (by rw [List.length_take]; omega),
      List.length_take]
    by_cases hin : pos ≤ i ∧ i < pos + bytes.length ∧ i < mem.length
    · rw [if_pos hin, List.getElem?_append_left (by simp only [List.length_take]; omega),
        List.getElem?_take_of_lt (by omega), Nat.min_eq_left (by omega)]
    · rw [if_neg hin]
      by_cases hlen : i < mem.length
      · rw [List.getElem?_append_right (by simp only [List.length_take]; omega),
          List.getElem?_drop, List.length_take]
        congr 1
        omega
      · rw [List.getElem?_eq_none (by omega : mem.length ≤ i), List.getElem?_eq_none]
        simp only [List.length_append, List.length_take, List.length_drop]
        omega

/-- Printing keeps the length of the memory. -/
@[simp] theorem length_snprintf : (snprintf mem pos out).length = mem.length := by
  unfold snprintf
  split <;> simp

/-- Copying keeps the length of the memory. -/
@[simp] theorem length_strcpy : (strcpy mem out).length = mem.length := length_overwrite _ _ _

/-- So does copying a bounded number of bytes. -/
@[simp] theorem length_strncpy (n : ℕ) : (strncpy mem out n).length = mem.length :=
  length_overwrite _ _ _

/-- A string is no longer than its memory. -/
theorem length_text_le : (text mem).length ≤ mem.length :=
  (List.takeWhile_sublist _).length_le

/-- A string does not see what stands behind its zero. -/
theorem text_append_zero (a b : List UInt8) : text (a ++ 0 :: b) = text a := by
  unfold text
  rw [List.takeWhile_append]
  split
  · rename_i h
    have hfront : a.takeWhile (· ≠ 0) <+: a := List.takeWhile_prefix _
    rw [hfront.eq_of_length h]
    simp
  · rfl

/-- What holds no zero byte is a string as a whole. -/
theorem text_eq_self {s : List UInt8} (hs : ∀ c ∈ s, c ≠ 0) : text s = s := by
  unfold text
  rw [List.takeWhile_eq_self_iff]
  simpa using hs

/-- A part without a zero is the front of the string. -/
theorem text_append {a b : List UInt8} (ha : ∀ c ∈ a, c ≠ 0) : text (a ++ b) = a ++ text b := by
  unfold text
  rw [List.takeWhile_append_of_pos]
  simpa using ha

/-- The string in a memory written by `snprintf` is what stands before the offset and the part
of the output that fits. -/
theorem text_snprintf (hpos : pos < mem.length) :
    text (snprintf mem pos out) = text (mem.take pos ++ out.take (mem.length - pos - 1)) := by
  have hfit : (out.take (mem.length - pos - 1) ++ [(0 : UInt8)]).length ≤ mem.length - pos := by
    simp only [List.length_append, List.length_take, List.length_singleton]
    omega
  rw [snprintf, if_pos hpos, overwrite, List.take_of_length_le hfit, List.append_assoc,
    List.append_assoc, ← List.append_assoc (mem.take pos), List.singleton_append,
    text_append_zero]

/-- An output that fits from the start on is the string in the memory. -/
theorem text_snprintf_of_fits (hlen : out.length < mem.length) (hout : ∀ c ∈ out, c ≠ 0) :
    text (snprintf mem 0 out) = out := by
  rw [text_snprintf _ _ _ (by omega), List.take_of_length_le (by omega : out.length ≤ _),
    List.take_zero, List.nil_append, text_eq_self hout]

/-- An output that fits is followed by the next offset. -/
theorem take_snprintf (hfit : out.length < mem.length - pos) :
    (snprintf mem pos out).take (pos + out.length) = mem.take pos ++ out := by
  have hall : (out ++ [(0 : UInt8)]).length ≤ mem.length - pos := by
    simp only [List.length_append, List.length_singleton]
    omega
  rw [snprintf, if_pos (by omega), List.take_of_length_le (by omega : out.length ≤ _), overwrite,
    List.take_of_length_le hall, ← List.append_assoc, List.append_assoc]
  refine List.take_left' ?_
  simp only [List.length_append, List.length_take]
  omega

end Writing

section Searching

variable {c : UInt8} {a b mem : List UInt8}

/-- The empty string is found in every string. -/
theorem strstr_nil : strstr mem [] = true := by
  unfold strstr
  cases text mem with
  | nil => rfl
  | cons c rest => rfl

/-- The search passes a part that holds neither the byte nor a zero. -/
theorem strchr_append_of_pass (ha : ∀ x ∈ a, x ≠ c ∧ x ≠ 0) :
    strchr c (a ++ b) = (strchr c b).map (· + a.length) := by
  induction a with
  | nil => simp
  | cons x a ih =>
    obtain ⟨hc, h0⟩ := ha x (by simp)
    rw [List.cons_append, strchr, if_neg hc, if_neg h0, ih fun y hy => ha y (by simp [hy]),
      Option.map_map]
    rfl

/-- What is found stands behind bytes that are neither it nor zero. -/
theorem strchr_eq_some {k : ℕ} (h : strchr c mem = some k) :
    ∃ rest, mem = mem.take k ++ c :: rest ∧ k < mem.length ∧ ∀ x ∈ mem.take k, x ≠ c ∧ x ≠ 0 := by
  induction mem generalizing k with
  | nil => cases h
  | cons x mem ih =>
    rw [strchr] at h
    split at h
    · rename_i hx
      obtain rfl := Option.some.inj h
      exact ⟨mem, by simp [hx]⟩
    · split at h
      · cases h
      · rename_i hc h0
        obtain ⟨j, hj, rfl⟩ := Option.map_eq_some_iff.mp h
        obtain ⟨rest, hrest, hlt, hpass⟩ := ih hj
        refine ⟨rest, by simpa using hrest, by simpa using hlt, ?_⟩
        intro y hy
        rcases List.mem_cons.mp (by simpa using hy) with rfl | hy
        · exact ⟨hc, h0⟩
        · exact hpass y hy

/-- A byte behind bytes that are neither it nor zero is found. -/
theorem strchr_of_pass (ha : ∀ x ∈ a, x ≠ c ∧ x ≠ 0) : strchr c (a ++ c :: b) = some a.length := by
  rw [strchr_append_of_pass ha, strchr, if_pos rfl]
  simp

/-- A zero behind such bytes ends the search. -/
theorem strchr_of_zero (ha : ∀ x ∈ a, x ≠ c ∧ x ≠ 0) (hc : c ≠ 0) :
    strchr c (a ++ 0 :: b) = none := by
  rw [strchr_append_of_pass ha, strchr, if_neg hc.symm, if_pos rfl]
  rfl

/-- A zero ends the search, so where one stands before every `c` of a memory, neither these nor
what follows the memory are reached. -/
theorem strchr_append_of_zero (hc : ∀ i : ℕ, a[i]? = some c → ∃ j : ℕ, j < i ∧ a[j]? = some 0)
    (h0 : 0 ∈ a) : strchr c (a ++ b) = none := by
  induction a with
  | nil => simp at h0
  | cons x a ih =>
    have hx : x ≠ c := by
      intro hx
      obtain ⟨j, hlt, -⟩ := hc 0 (by simp [hx])
      omega
    rw [List.cons_append, strchr, if_neg hx]
    by_cases hx0 : x = 0
    · rw [if_pos hx0]
    · have h0' : 0 ∈ a := (List.mem_cons.mp h0).resolve_left (Ne.symm hx0)
      have hc' : ∀ i : ℕ, a[i]? = some c → ∃ j : ℕ, j < i ∧ a[j]? = some 0 := by
        intro i hi
        obtain ⟨j, hlt, hj⟩ := hc (i + 1) (by simpa using hi)
        cases j with
        | zero => exact absurd (by simpa using hj) hx0
        | succ j => exact ⟨j, by omega, by simpa using hj⟩
      rw [if_neg hx0, ih hc' h0']
      rfl

/-- What is found in a memory is found in a longer one. -/
theorem strchr_append_of_some {k : ℕ} (h : strchr c a = some k) : strchr c (a ++ b) = some k := by
  obtain ⟨rest, ha, hlt, hpass⟩ := strchr_eq_some h
  rw [ha, List.append_assoc, List.cons_append, strchr_of_pass hpass, List.length_take,
    Nat.min_eq_left hlt.le]

end Searching

section Tokens

variable {delim : UInt8 → Bool} {t t' : Scan} {found : Option (List UInt8)}

/-- The memory of a scan: what was passed and what is left. -/
def Scan.mem (t : Scan) : List UInt8 := t.done ++ t.left

/-- A scan only replaces bytes by zeros, and keeps their number. -/
structure Scan.Erases (t t' : Scan) : Prop where
  length : t'.mem.length = t.mem.length
  bytes : ∀ x ∈ t'.mem, x = 0 ∨ x ∈ t.mem

/-- A scan that does nothing erases nothing. -/
theorem Scan.Erases.refl (t : Scan) : t.Erases t := ⟨rfl, fun _ hx => .inr hx⟩

/-- Two steps of a scan erase what either does. -/
theorem Scan.Erases.trans {t'' : Scan} (h : t.Erases t') (h' : t'.Erases t'') : t.Erases t'' where
  length := h'.length.trans h.length
  bytes x hx := (h'.bytes x hx).elim .inl (h.bytes x)

/-- A search only erases. -/
theorem strtokR_erases (h : strtokR delim t = (found, t')) : t.Erases t' := by
  have hsplit : t.left = t.left.takeWhile delim ++ t.left.dropWhile delim :=
    List.takeWhile_append_dropWhile.symm
  unfold strtokR at h
  dsimp only at h
  split at h
  · rename_i hnil
    obtain rfl := (Prod.mk.inj h).2
    rw [hnil, List.append_nil] at hsplit
    refine ⟨by simp [Scan.mem, ← hsplit], fun x hx => .inr ?_⟩
    simpa [Scan.mem, ← hsplit] using hx
  · have hword := List.takeWhile_append_dropWhile (p := (!delim ·)) (l := t.left.dropWhile delim)
    split at h
    · rename_i hrest
      obtain rfl := (Prod.mk.inj h).2
      rw [hrest, List.append_nil] at hword
      have hmem : Scan.mem ⟨t.done ++ t.left.takeWhile delim ++
          (t.left.dropWhile delim).takeWhile (!delim ·), []⟩ = t.mem := by
        rw [Scan.mem, Scan.mem, hword, List.append_nil, List.append_assoc, ← hsplit]
      exact ⟨by rw [hmem], fun x hx => .inr (hmem ▸ hx)⟩
    · rename_i c rest hrest
      obtain rfl := (Prod.mk.inj h).2
      rw [hrest] at hword
      have hmem : t.mem = t.done ++ t.left.takeWhile delim ++
          (t.left.dropWhile delim).takeWhile (!delim ·) ++ c :: rest := by
        rw [Scan.mem, List.append_assoc, hword, List.append_assoc, ← hsplit]
      refine ⟨by rw [hmem]; simp [Scan.mem], fun x hx => ?_⟩
      rw [hmem]
      simp only [Scan.mem, List.append_assoc, List.mem_append, List.mem_cons, List.singleton_append]
        at hx ⊢
      tauto

/-- So do repeated searches. -/
theorem strtokUntil_erases (delim : UInt8 → Bool) (fuel : ℕ) (t : Scan) :
    t.Erases (strtokUntil delim fuel t) := by
  induction fuel generalizing t with
  | zero => exact .refl t
  | succ fuel ih =>
    unfold strtokUntil
    split
    · rename_i h
      exact (strtokR_erases h).trans (ih _)
    · rename_i h
      exact strtokR_erases h

/-- There is a token exactly when a byte is no delimiter. -/
theorem strtokR_fst_eq_none : (strtokR delim t).1 = none ↔ ∀ x ∈ t.left, delim x = true := by
  rw [← List.dropWhile_eq_nil_iff]
  unfold strtokR
  dsimp only
  split
  · rename_i h
    simp [h]
  · rename_i h
    split <;> simp [h]

/-- The maximal runs of bytes that are no delimiters. -/
def tokens (delim : UInt8 → Bool) (s : List UInt8) : List (List UInt8) :=
  (s.splitOnP delim).filter fun w => !w.isEmpty

variable {w s rest : List UInt8}

/-- Nothing has no tokens. -/
@[simp] theorem tokens_nil : tokens delim [] = [] := rfl

/-- Delimiters in front are skipped. -/
theorem tokens_skip {a : List UInt8} (ha : ∀ x ∈ a, delim x = true) :
    tokens delim (a ++ s) = tokens delim s := by
  induction a with
  | nil => rfl
  | cons x a ih =>
    rw [← ih fun y hy => ha y (by simp [hy]), tokens, List.cons_append,
      List.splitOnP_cons_eq_if_modifyHead, if_pos (ha x (by simp))]
    rfl

/-- A word without delimiters is one token. -/
theorem tokens_word (hne : w ≠ []) (hw : ∀ x ∈ w, delim x = false) : tokens delim w = [w] := by
  rw [tokens, List.splitOnP_eq_singleton hw]
  simp [hne]

/-- A word up to a delimiter is the first token. -/
theorem tokens_word_cons (hne : w ≠ []) (hw : ∀ x ∈ w, delim x = false) {sep : UInt8}
    (hsep : delim sep = true) : tokens delim (w ++ sep :: rest) = w :: tokens delim rest := by
  rw [tokens, List.splitOnP_append_cons_of_forall_mem hw sep hsep]
  simp [tokens, hne]

/-- `strtok_r` returns the next token, and what it leaves has the ones after it. -/
theorem strtokR_tokens (delim : UInt8 → Bool) (t : Scan) :
    (strtokR delim t).1 = (tokens delim t.left).head? ∧
      tokens delim (strtokR delim t).2.left = (tokens delim t.left).tail := by
  have hskip : tokens delim t.left = tokens delim (t.left.dropWhile delim) := by
    conv_lhs => rw [← List.takeWhile_append_dropWhile (p := delim) (l := t.left)]
    exact tokens_skip fun x hx => List.mem_takeWhile_imp hx
  have hword := List.takeWhile_append_dropWhile (p := (!delim ·)) (l := t.left.dropWhile delim)
  have hpass : ∀ x ∈ (t.left.dropWhile delim).takeWhile (!delim ·), delim x = false := by
    intro x hx
    simpa using List.mem_takeWhile_imp hx
  rw [hskip]
  unfold strtokR
  dsimp only
  split
  · rename_i hnil
    rw [hnil]
    exact ⟨rfl, rfl⟩
  · rename_i hne
    have hword_ne : (t.left.dropWhile delim).takeWhile (!delim ·) ≠ [] := by
      have hhead := List.head_dropWhile_not delim hne
      obtain ⟨x, l, hl⟩ := List.exists_cons_of_ne_nil hne
      simp only [hl, List.head_cons] at hhead
      rw [hl, List.takeWhile_cons, hhead]
      exact List.cons_ne_nil _ _
    split
    · rename_i hrest
      rw [hrest, List.append_nil] at hword
      rw [hword] at hpass hword_ne ⊢
      rw [tokens_word hword_ne hpass]
      exact ⟨rfl, rfl⟩
    · rename_i sep rest hrest
      have hsep : delim sep = true := by
        have hhead := List.head_dropWhile_not (l := t.left.dropWhile delim) (!delim ·)
          (by rw [hrest]; exact List.cons_ne_nil _ _)
        simpa [hrest] using hhead
      rw [hrest] at hword
      rw [← hword, tokens_word_cons hword_ne hpass hsep, hword]
      exact ⟨rfl, rfl⟩

/-- A token is not empty, and its bytes are no delimiters. -/
theorem mem_tokens (hmem : w ∈ tokens delim s) :
    w ≠ [] ∧ ∀ x ∈ w, delim x = false ∧ x ∈ s := by
  obtain ⟨hsplit, hne⟩ := List.mem_filter.mp hmem
  refine ⟨by simpa using hne, ?_⟩
  clear hmem hne
  induction s generalizing w with
  | nil =>
    obtain rfl : w = [] := by simpa using hsplit
    simp
  | cons c s ih =>
    rw [List.splitOnP_cons_eq_if_modifyHead] at hsplit
    split at hsplit
    · rcases List.mem_cons.mp hsplit with rfl | hsplit
      · simp
      · exact fun x hx => ⟨(ih hsplit x hx).1, by simp [(ih hsplit x hx).2]⟩
    · rename_i hc
      obtain ⟨v, vs, hvs⟩ := List.exists_cons_of_ne_nil (List.splitOnP_ne_nil delim s)
      rw [hvs, List.modifyHead_cons] at hsplit
      rcases List.mem_cons.mp hsplit with rfl | hsplit
      · intro x hx
        rcases List.mem_cons.mp hx with rfl | hx
        · exact ⟨by simpa using hc, by simp⟩
        · have := ih (w := v) (by simp [hvs]) x hx
          exact ⟨this.1, by simp [this.2]⟩
      · have := ih (w := w) (by simp [hvs, hsplit])
        exact fun x hx => ⟨(this x hx).1, by simp [(this x hx).2]⟩

end Tokens

/-- The decimal numeral of a number: digits only, and none too many in front. -/
structure IsNumeral (word : List UInt8) (n : ℕ) : Prop where
  nonempty : word ≠ []
  digits : ∀ c ∈ word, isDigit c = true
  leading : word.head? = some 48 → word = [48]
  value : digitsValue word = n

/-- The dotted form of an address: a numeral for each of its bytes. -/
def IsDotted (word addr : List UInt8) : Prop :=
  List.Forall₂ (fun part b => IsNumeral part b.toNat) (word.splitOn 46) addr

section Numerals

variable {n : ℕ}

/-- More digits count behind the earlier ones. -/
theorem digitsValue_append (a b : List UInt8) :
    digitsValue (a ++ b) = b.foldl (fun n c => 10 * n + (c.toNat - 48)) (digitsValue a) :=
  List.foldl_append

/-- A number below ten has one digit. -/
theorem decimal_of_lt (h : n < 10) : decimal n = [UInt8.ofNat (48 + n)] := by
  rw [decimal, Nat.toDigits_of_lt_base h]
  revert n
  decide

/-- The last digit of a number is its remainder by ten. -/
theorem decimal_of_le (h : 10 ≤ n) : decimal n = decimal (n / 10) ++ [UInt8.ofNat (48 + n % 10)] := by
  have hlast := decimal_of_lt (Nat.mod_lt n (by decide : 0 < 10))
  rw [decimal, Nat.toDigits_of_lt_base (Nat.mod_lt n (by decide))] at hlast
  rw [decimal, Nat.toDigits_of_base_le (by decide) h, List.map_append, ← hlast]
  rfl

/-- A digit that is printed is a digit. -/
theorem isDigit_ofNat (h : n < 10) : isDigit (UInt8.ofNat (48 + n)) = true := by
  revert n
  decide

/-- A digit that is printed is read back. -/
theorem toNat_digit (h : n < 10) : (UInt8.ofNat (48 + n)).toNat - 48 = n := by
  revert n
  decide

/-- What `snprintf` writes of a number is its numeral. -/
theorem isNumeral_decimal (n : ℕ) : IsNumeral (decimal n) n := by
  induction n using Nat.strong_induction_on with
  | _ n ih =>
    by_cases hlt : n < 10
    · rw [decimal_of_lt hlt]
      refine ⟨List.cons_ne_nil _ _, by simpa using isDigit_ofNat hlt, fun hzero => ?_, ?_⟩
      · rw [Option.some.inj hzero]
      · simpa [digitsValue] using toNat_digit hlt
    · have hmod : n % 10 < 10 := Nat.mod_lt n (by decide)
      obtain ⟨hne, hdigits, hleading, hvalue⟩ := ih (n / 10) (by omega)
      rw [decimal_of_le (by omega)]
      refine ⟨by simp, ?_, fun hzero => ?_, ?_⟩
      · intro c hc
        rcases List.mem_append.mp hc with hc | hc
        · exact hdigits c hc
        · rw [List.mem_singleton.mp hc]
          exact isDigit_ofNat hmod
      · -- only the numeral of zero begins with a zero
        rw [List.head?_append_of_ne_nil _ hne] at hzero
        have hnone : n / 10 = 0 := by rw [← hvalue, hleading hzero]; rfl
        omega
      · rw [digitsValue_append, hvalue, List.foldl_cons, List.foldl_nil, toNat_digit hmod]
        omega

/-- A number below a power of ten has no more digits than the exponent. -/
theorem length_decimal_le {k : ℕ} (hk : 0 < k) (h : n < 10 ^ k) : (decimal n).length ≤ k := by
  rw [decimal, List.length_map]
  exact (Nat.length_toDigits_le_iff (by decide) hk).mpr h

/-- The printed bytes of an address are a dotted numeral. -/
theorem isDotted_decimal (addr : List UInt8) (hne : addr ≠ []) :
    IsDotted ([46].intercalate (addr.map fun b => decimal b.toNat)) addr := by
  rw [IsDotted, List.splitOn_intercalate]
  · rw [List.forall₂_map_left_iff]
    exact List.forall₂_same.mpr fun b _ => isNumeral_decimal b.toNat
  · intro part hpart hdot
    obtain ⟨b, -, rfl⟩ := List.mem_map.mp hpart
    exact absurd ((isNumeral_decimal b.toNat).digits 46 hdot) (by decide)
  · simpa using hne

end Numerals
/-- No byte of it ends a string early. -/
def NulFree (s : List UInt8) : Prop := ∀ c ∈ s, c ≠ 0

namespace NulFree

variable {a b : List UInt8}

/-- Two parts hold no zero byte exactly when neither does. -/
@[simp] theorem append_iff : NulFree (a ++ b) ↔ NulFree a ∧ NulFree b := List.forall_mem_append

/-- Parts without a zero byte make up a whole without one. -/
theorem flatten {parts : List (List UInt8)} (h : ∀ part ∈ parts, NulFree part) :
    NulFree parts.flatten := by
  intro c hc
  obtain ⟨part, hpart, hc⟩ := List.mem_flatten.mp hc
  exact h part hpart c hc

/-- What is taken from bytes without a zero byte has none. -/
theorem of_subset (h : NulFree b) (hsub : a ⊆ b) : NulFree a := fun c hc => h c (hsub hc)

/-- A literal is checked by evaluation. -/
theorem ascii {s : String} (h : (ascii s).all (· ≠ 0) = true) : NulFree (ascii s) := by
  intro c hc
  simpa using List.all_eq_true.mp h c hc

/-- A string ends before the first zero byte. -/
@[simp] theorem text (mem : List UInt8) : NulFree (text mem) := by
  intro c hc
  simpa using List.mem_takeWhile_imp hc

/-- Padding adds blanks only. -/
@[simp] theorem padRight_iff (width : ℕ) : NulFree (padRight width a) ↔ NulFree a := by
  have hpad : ∀ n, NulFree (List.replicate n 32) := by
    intro n c hc
    rw [List.eq_of_mem_replicate hc]
    decide
  rw [padRight, append_iff]
  exact and_iff_left (hpad _)

/-- Digits are no zero byte. -/
@[simp] theorem decimal (n : ℕ) : NulFree (decimal n) := by
  intro c hc hzero
  exact absurd ((isNumeral_decimal n).digits c hc) (by rw [hzero]; decide)

/-- Nor is the sign. -/
@[simp] theorem signedDecimal (n : ℤ) : NulFree (signedDecimal n) := by
  unfold CStrings.signedDecimal
  split
  · exact append_iff.mpr ⟨ascii (by decide), decimal _⟩
  · exact decimal _

end NulFree

end CStrings
