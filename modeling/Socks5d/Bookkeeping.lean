import Socks5d.Selector
import Mathlib.Order.Bounds.Basic

/-!
# The selector's bookkeeping

The operations of `selector.c` with every access to the table checked against `fd_size` and every
access to a descriptor set against its size. `selector_register` grows the table only when the
descriptor exceeds `fd_size`, and the other operations do not look at it at all; the table that
the server asks for is large enough from the start. The table, the two sets and the cached
maximum then agree after any sequence of operations.
-/

namespace Socks5d

/-- `s->fds + i`, if that is an entry of the table. -/
def FdSelector.entry (s : FdSelector) (i : ℕ) : Option Item :=
  if i < s.fdSize then some (s.fds i) else none

/-- Overwrite an entry of the table. -/
def FdSelector.setEntry (s : FdSelector) (i : ℕ) (item : Item) : Option FdSelector :=
  if i < s.fdSize then some { s with fds := Function.update s.fds i item } else none

namespace Checked

/-- `items_update_fdset_for_fd`, if the sets have a bit for the descriptor. -/
def itemsUpdateFdsetForFd (s : FdSelector) (item : Item) : Option FdSelector :=
  if 0 ≤ item.fd ∧ item.fd < ITEMS_MAX_SIZE then some (Socks5d.itemsUpdateFdsetForFd s item)
  else none

def itemsMaxFd (s : FdSelector) : Option ℕ :=
  (List.range (s.maxFd + 1)).foldlM (fun max i => do
    let item ← s.entry i
    return if item.used ∧ item.fd > max then item.fd.toNat else max) 0

/-- `selector_register`; a null handler is refused. -/
def selectorRegister (s : FdSelector) (fd : ℤ) (handler : Option FdHandler)
    (interest : FdInterest) (data : Option ConnId) : Option (SelectorStatus × FdSelector) :=
  if invalidFd fd ∨ handler = none then some (.iargs, s)
  else
    let ufd := fd.toNat
    let grown := if ufd > s.fdSize then ensureCapacity s ufd else (.success, s)
    if grown.1 ≠ .success then some grown
    else do
      let s := grown.2
      let item ← s.entry ufd
      if item.used then return (.fdinuse, s)
      else
        let item : Item := ⟨fd, interest, handler, data⟩
        let s ← s.setEntry ufd item
        let s := if fd > s.maxFd then { s with maxFd := ufd } else s
        let s ← itemsUpdateFdsetForFd s item
        return (.success, s)

/-- `selector_unregister_fd`, with a close callback that leaves the selector alone. -/
def selectorUnregisterFd (s : FdSelector) (fd : ℤ) : Option (SelectorStatus × FdSelector) :=
  if invalidFd fd then some (.iargs, s)
  else do
    let item ← s.entry fd.toNat
    if !item.used then return (.iargs, s)
    else
      let item := { item with interest := OP_NOOP }
      let s ← s.setEntry fd.toNat item
      let s ← itemsUpdateFdsetForFd s item
      let s ← s.setEntry fd.toNat itemInit
      let max ← itemsMaxFd s
      return (.success, { s with maxFd := max })

def selectorSetInterest (s : FdSelector) (fd : ℤ) (interest : FdInterest) :
    Option (SelectorStatus × FdSelector) :=
  if invalidFd fd then some (.iargs, s)
  else do
    let item ← s.entry fd.toNat
    if !item.used then return (.iargs, s)
    else
      let item := { item with interest := interest }
      let s ← s.setEntry fd.toNat item
      let s ← itemsUpdateFdsetForFd s item
      return (.success, s)

end Checked

/-- A call of one of the three operations. -/
inductive SelectorOp
  | register (fd : ℤ) (handler : Option FdHandler) (interest : FdInterest) (data : Option ConnId)
  | unregister (fd : ℤ)
  | setInterest (fd : ℤ) (interest : FdInterest)

/-- The status and the selector after a call, if it kept to the table and the sets. -/
def SelectorOp.apply (s : FdSelector) : SelectorOp → Option (SelectorStatus × FdSelector)
  | register fd handler interest data => Checked.selectorRegister s fd handler interest data
  | unregister fd => Checked.selectorUnregisterFd s fd
  | setInterest fd interest => Checked.selectorSetInterest s fd interest

/-- One call after another, whatever their statuses. -/
def SelectorOp.applyAll (ops : List SelectorOp) (s : FdSelector) : Option FdSelector :=
  ops.foldlM (fun s op => do
    let (_, s) ← op.apply s
    return s) s

/-- The entries in use are at their descriptors, and the sets follow their interests. -/
structure FdSelector.Agrees (s : FdSelector) : Prop where
  size : s.fdSize = ITEMS_MAX_SIZE + 1
  index : ∀ i, (s.fds i).used = true → (s.fds i).fd = i ∧ i < ITEMS_MAX_SIZE
  reads : ∀ i, s.masterR i = true ↔ (s.fds i).used = true ∧ (s.fds i).interest.read = true
  writes : ∀ i, s.masterW i = true ↔ (s.fds i).used = true ∧ (s.fds i).interest.write = true

/-- The maximum is the greatest descriptor in use, or zero when none is. -/
def FdSelector.MaxCached (s : FdSelector) : Prop :=
  IsGreatest {i | (s.fds i).used = true} s.maxFd ∨
    (∀ i, (s.fds i).used = false) ∧ s.maxFd = 0

/-- What holds of the selector between operations. -/
structure FdSelector.Kept (s : FdSelector) : Prop where
  agrees : s.Agrees
  maxCached : s.MaxCached

variable {s : FdSelector} {fd : ℤ} {i : ℕ}

theorem fdSize_selectorNew : (selectorNew INITIAL_QUANTITY_FDS).fdSize = ITEMS_MAX_SIZE + 1 := by
  decide

theorem kept_selectorNew : (selectorNew INITIAL_QUANTITY_FDS).Kept := by
  have hunused : ∀ i, ((selectorNew INITIAL_QUANTITY_FDS).fds i).used = false := by
    intro i
    rw [fds_selectorNew]
    decide
  have hsets : ∀ i, (selectorNew INITIAL_QUANTITY_FDS).masterR i = false ∧
      (selectorNew INITIAL_QUANTITY_FDS).masterW i = false := by
    intro i
    exact ⟨rfl, rfl⟩
  refine ⟨⟨fdSize_selectorNew, ?_, ?_, ?_⟩, .inr ⟨hunused, rfl⟩⟩
  · intro i hi
    rw [hunused i] at hi
    cases hi
  · intro i
    simp [hunused i, hsets i]
  · intro i
    simp [hunused i, hsets i]

section Steps

/-- An entry for its own descriptor, with the bits of its interest. -/
theorem FdSelector.Agrees.put (h : s.Agrees) (hi : i < ITEMS_MAX_SIZE) {item : Item}
    (hitem : item.fd = i) :
    (itemsUpdateFdsetForFd { s with fds := Function.update s.fds i item } item).Agrees := by
  have hused : item.used = true := by
    simp only [Item.used, hitem, FD_UNUSED, bne_iff_ne, ne_eq]
    omega
  have hfds : (itemsUpdateFdsetForFd { s with fds := Function.update s.fds i item } item).fds =
      Function.update s.fds i item := rfl
  refine ⟨h.size, ?_, ?_, ?_⟩
  · intro j hj
    rw [hfds] at hj ⊢
    by_cases hji : j = i
    · subst hji
      rw [Function.update_self]
      exact ⟨hitem, hi⟩
    · rw [Function.update_of_ne hji] at hj ⊢
      exact h.index j hj
  · intro j
    simp only [itemsUpdateFdsetForFd, hitem, Int.toNat_natCast]
    by_cases hji : j = i
    · simp [hji, hused]
    · simpa only [Function.update_of_ne hji] using h.reads j
  · intro j
    simp only [itemsUpdateFdsetForFd, hitem, Int.toNat_natCast]
    by_cases hji : j = i
    · simp [hji, hused]
    · simpa only [Function.update_of_ne hji] using h.writes j

/-- An entry that is given up loses its bits. -/
theorem FdSelector.Agrees.remove (h : s.Agrees) (hused : (s.fds i).used = true) :
    (removeItem s i).Agrees := by
  obtain ⟨hfd, -⟩ := h.index i hused
  have hinit : itemInit.used = false := by decide
  refine ⟨h.size, ?_, ?_, ?_⟩
  · intro j hj
    by_cases hji : j = i
    · subst hji
      simp [removeItem, hinit] at hj
    · simp only [removeItem, itemsUpdateFdsetForFd, Function.update_of_ne hji] at hj ⊢
      exact h.index j hj
  · intro j
    simp only [removeItem, itemsUpdateFdsetForFd, hfd, Int.toNat_natCast]
    by_cases hji : j = i
    · simp [hji, hinit, OP_NOOP]
    · simpa only [Function.update_of_ne hji] using h.reads j
  · intro j
    simp only [removeItem, itemsUpdateFdsetForFd, hfd, Int.toNat_natCast]
    by_cases hji : j = i
    · simp [hji, hinit, OP_NOOP]
    · simpa only [Function.update_of_ne hji] using h.writes j

/-- The scan over the first entries finds the greatest descriptor in use among them. -/
theorem scan_greatest (hindex : ∀ i, (s.fds i).used = true → (s.fds i).fd = i) (n : ℕ) :
    let m : ℕ := (List.range n).foldl
      (fun max i => if (s.fds i).used ∧ (s.fds i).fd > max then (s.fds i).fd.toNat else max) 0
    (∀ i < n, (s.fds i).used = true → i ≤ m) ∧ (m = 0 ∨ (s.fds m).used = true) := by
  induction n with
  | zero => exact ⟨fun i hi => absurd hi (Nat.not_lt_zero i), .inl rfl⟩
  | succ n ih =>
    rw [List.range_succ, List.foldl_append, List.foldl_cons, List.foldl_nil]
    generalize (List.range n).foldl (fun (max : ℕ) i =>
      if (s.fds i).used ∧ (s.fds i).fd > max then (s.fds i).fd.toNat else max) 0 = m at ih ⊢
    obtain ⟨hbound, hused⟩ := ih
    by_cases hn : (s.fds n).used = true ∧ (s.fds n).fd > m
    · have hfd := hindex n hn.1
      have hgt : m < n := by
        have hgt := hn.2
        omega
      simp only [if_pos hn]
      rw [hfd, Int.toNat_natCast]
      refine ⟨fun i hi hiused => ?_, .inr hn.1⟩
      omega
    · simp only [if_neg hn]
      refine ⟨fun i hi hiused => ?_, hused⟩
      by_cases hin : i = n
      · subst hin
        have hle : ¬ (s.fds i).fd > m := fun hgt => hn ⟨hiused, hgt⟩
        have hfd := hindex i hiused
        omega
      · exact hbound i (by omega) hiused

/-- Scanning up to the old maximum finds the new one. -/
theorem maxCached_of_scan {max : ℕ} (hindex : ∀ i, (s.fds i).used = true → (s.fds i).fd = i)
    (hold : ∀ i, (s.fds i).used = true → i ≤ s.maxFd) (hmax : max = itemsMaxFd s) :
    FdSelector.MaxCached { s with maxFd := max } := by
  obtain ⟨hbound, hused⟩ := scan_greatest hindex (s.maxFd + 1)
  change (∀ i < s.maxFd + 1, (s.fds i).used = true → i ≤ itemsMaxFd s) at hbound
  change itemsMaxFd s = 0 ∨ (s.fds (itemsMaxFd s)).used = true at hused
  rw [← hmax] at hbound hused
  by_cases hsome : ∃ i, (s.fds i).used = true
  · left
    have hbelow : ∀ i, (s.fds i).used = true → i ≤ max := by
      intro i hi
      exact hbound i (Nat.lt_succ_of_le (hold i hi)) hi
    refine ⟨?_, hbelow⟩
    rcases hused with hzero | hused
    · obtain ⟨i, hi⟩ := hsome
      have hle := hbelow i hi
      obtain rfl : i = max := by omega
      exact hi
    · exact hused
  · right
    have hnone : ∀ i, (s.fds i).used = false := by
      intro i
      exact Bool.eq_false_iff.mpr fun hi => hsome ⟨i, hi⟩
    refine ⟨hnone, hused.resolve_right ?_⟩
    rw [hnone max]
    exact Bool.false_ne_true

/-- No entry in use lies above the maximum. -/
theorem FdSelector.MaxCached.le (h : s.MaxCached) (hused : (s.fds i).used = true) :
    i ≤ s.maxFd := by
  rcases h with ⟨-, hbound⟩ | ⟨hnone, -⟩
  · exact hbound hused
  · rw [hnone i] at hused
    cases hused

/-- The maximum depends only on which entries are in use. -/
theorem FdSelector.MaxCached.of_used {s' : FdSelector} (h : s.MaxCached)
    (hused : ∀ i, (s'.fds i).used = (s.fds i).used) (hmax : s'.maxFd = s.maxFd) :
    s'.MaxCached := by
  unfold FdSelector.MaxCached
  simp only [hused, hmax]
  exact h

/-- A new descriptor is the maximum or stays below it. -/
theorem FdSelector.MaxCached.put {s' : FdSelector} (h : s.MaxCached)
    (hused : ∀ j, (s'.fds j).used = true ↔ j = i ∨ (s.fds j).used = true)
    (hmax : s'.maxFd = max s.maxFd i) : s'.MaxCached := by
  left
  simp only [hused, hmax]
  constructor
  · rcases Nat.le_total s.maxFd i with hle | hge
    · exact .inl (max_eq_right hle)
    · rw [max_eq_left hge]
      rcases h with ⟨hgreatest, -⟩ | ⟨-, hzero⟩
      · exact .inr hgreatest
      · exact .inl (by omega)
  · intro j hj
    rcases hj with rfl | hj
    · exact le_max_right _ _
    · exact (h.le hj).trans (le_max_left _ _)

/-- Every entry that the scan looks at is in the table. -/
theorem checked_itemsMaxFd (h : s.maxFd < s.fdSize) :
    Checked.itemsMaxFd s = some (itemsMaxFd s) := by
  have hstep : ∀ n ≤ s.fdSize, ∀ m : ℕ, (List.range n).foldlM (fun (max : ℕ) i => do
      let item ← s.entry i
      return if item.used ∧ item.fd > max then item.fd.toNat else max) m =
        some ((List.range n).foldl
          (fun (max : ℕ) i => if (s.fds i).used ∧ (s.fds i).fd > max then (s.fds i).fd.toNat else max)
          m) := by
    intro n hn m
    induction n with
    | zero => rfl
    | succ n ih =>
      rw [List.range_succ, List.foldlM_append, ih (by omega), List.foldl_append]
      simp [FdSelector.entry, show n < s.fdSize by omega]
  exact hstep (s.maxFd + 1) h 0

/-- An entry of the table. -/
theorem FdSelector.Agrees.lt_fdSize (h : s.Agrees) (hfd : invalidFd fd = false) :
    ∃ n : ℕ, fd = n ∧ n < ITEMS_MAX_SIZE ∧ n < s.fdSize := by
  simp only [invalidFd, Bool.or_eq_false_iff, decide_eq_false_iff_not] at hfd
  have hsize := h.size
  obtain ⟨n, rfl⟩ := Int.eq_ofNat_of_zero_le (by omega : 0 ≤ fd)
  exact ⟨n, rfl, by omega, by omega⟩

end Steps

/-- The cached maximum is the index of an entry. -/
theorem FdSelector.Kept.maxFd_lt (h : s.Kept) : s.maxFd < s.fdSize := by
  rw [h.agrees.size]
  rcases h.maxCached with ⟨hused, -⟩ | ⟨-, hzero⟩
  · have hlt := (h.agrees.index s.maxFd hused).2
    omega
  · omega

section Operations

variable (fd : ℤ) (interest : FdInterest)

/-- A registration keeps to the table and the sets. -/
theorem checked_selectorRegister (h : s.Agrees) (handler : FdHandler) (data : Option ConnId) :
    Checked.selectorRegister s fd (some handler) interest data =
      some (selectorRegister s fd handler interest data) := by
  rw [Checked.selectorRegister, selectorRegister]
  by_cases hinvalid : invalidFd fd = true
  · rw [if_pos (.inl hinvalid), if_pos hinvalid]
  · rw [if_neg (by simp [hinvalid]), if_neg hinvalid]
    obtain ⟨n, rfl, hlt, hsize⟩ := h.lt_fdSize (Bool.eq_false_iff.mpr hinvalid)
    have hroom : ¬ n > s.fdSize := by omega
    simp only [Int.toNat_natCast, hroom, if_false, FdSelector.entry, FdSelector.setEntry, hsize,
      if_true]
    by_cases hused : (s.fds n).used = true
    · simp [hused]
    · have hmax : (if (n : ℤ) > s.maxFd then n else s.maxFd) = max s.maxFd n := by
        split
        · omega
        · omega
      have hbit : 0 ≤ (n : ℤ) ∧ (n : ℤ) < ITEMS_MAX_SIZE := by omega
      simp only [hused, Option.bind_eq_bind, Option.bind_some, ne_eq, not_true_eq_false, if_false,
        Bool.false_eq_true, ← hmax]
      rw [Checked.itemsUpdateFdsetForFd, if_pos hbit]
      split
      · rfl
      · rfl

/-- A change of interest keeps to the table and the sets. -/
theorem checked_selectorSetInterest (h : s.Agrees) :
    Checked.selectorSetInterest s fd interest = some (selectorSetInterest s fd interest) := by
  rw [Checked.selectorSetInterest, selectorSetInterest]
  by_cases hinvalid : invalidFd fd = true
  · rw [if_pos hinvalid, if_pos hinvalid]
  · rw [if_neg hinvalid, if_neg hinvalid]
    obtain ⟨n, rfl, hlt, hsize⟩ := h.lt_fdSize (Bool.eq_false_iff.mpr hinvalid)
    simp only [Int.toNat_natCast, FdSelector.entry, FdSelector.setEntry, hsize, if_true,
      Option.bind_eq_bind, Option.bind_some]
    by_cases hused : (s.fds n).used = true
    · have hfd := (h.index n hused).1
      have hbit : 0 ≤ (s.fds n).fd ∧ (s.fds n).fd < ITEMS_MAX_SIZE := by omega
      rw [if_neg (by simp [hused]), if_neg (by simp [hused]), Checked.itemsUpdateFdsetForFd,
        if_pos hbit]
      rfl
    · rw [if_pos (by simp [hused]), if_pos (by simp [hused])]
      rfl

/-- `selector_unregister_fd` on the unchecked table. -/
def unregisterItem (s : FdSelector) (fd : ℤ) : SelectorStatus × FdSelector :=
  if invalidFd fd ∨ (s.fds fd.toNat).used = false then (.iargs, s)
  else (.success, removeItem s fd.toNat)

/-- A removal keeps to the table and the sets, and so does the scan behind it. -/
theorem checked_selectorUnregisterFd (h : s.Kept) :
    Checked.selectorUnregisterFd s fd = some (unregisterItem s fd) := by
  rw [Checked.selectorUnregisterFd, unregisterItem]
  by_cases hinvalid : invalidFd fd = true
  · rw [if_pos hinvalid, if_pos (.inl hinvalid)]
  · rw [if_neg hinvalid]
    obtain ⟨n, rfl, hlt, hsize⟩ := h.agrees.lt_fdSize (Bool.eq_false_iff.mpr hinvalid)
    simp only [Int.toNat_natCast, FdSelector.entry, FdSelector.setEntry, hsize, if_true,
      Option.bind_eq_bind, Option.bind_some]
    by_cases hused : (s.fds n).used = true
    · have hfd := (h.agrees.index n hused).1
      have hbit : 0 ≤ (s.fds n).fd ∧ (s.fds n).fd < ITEMS_MAX_SIZE := by omega
      rw [if_neg (by simp [hused]), if_neg (by simp [hinvalid, hused]),
        Checked.itemsUpdateFdsetForFd, if_pos hbit]
      simp only [Option.bind_some, itemsUpdateFdsetForFd, hsize, if_true, Function.update_idem]
      rw [checked_itemsMaxFd (by exact h.maxFd_lt)]
      rfl
    · rw [if_pos (by simp [hused]), if_pos (by simp [hused])]
      rfl

/-- A failed registration changes nothing, since the table never has to grow. -/
theorem FdSelector.Kept.register (h : s.Kept) (handler : FdHandler) (data : Option ConnId) :
    (selectorRegister s fd handler interest data).2.Kept ∧
      ((selectorRegister s fd handler interest data).1 ≠ .success →
        (selectorRegister s fd handler interest data).2 = s) := by
  rw [selectorRegister]
  by_cases hinvalid : invalidFd fd = true
  · rw [if_pos hinvalid]
    exact ⟨h, fun _ => rfl⟩
  · rw [if_neg hinvalid]
    obtain ⟨n, rfl, hlt, hsize⟩ := h.agrees.lt_fdSize (Bool.eq_false_iff.mpr hinvalid)
    have hroom : ¬ n > s.fdSize := by omega
    simp only [Int.toNat_natCast, hroom, if_false, ne_eq, not_true_eq_false]
    by_cases hused : (s.fds n).used = true
    · rw [if_pos hused]
      exact ⟨h, fun _ => rfl⟩
    · rw [if_neg hused]
      have hagrees : FdSelector.Agrees { s with maxFd := max s.maxFd n } :=
        ⟨h.agrees.size, h.agrees.index, h.agrees.reads, h.agrees.writes⟩
      refine ⟨⟨hagrees.put hlt rfl, h.maxCached.put (i := n) (fun j => ?_) rfl⟩,
        fun hfailed => absurd rfl hfailed⟩
      by_cases hjn : j = n
      · simp [itemsUpdateFdsetForFd, hjn, Item.used, FD_UNUSED]
      · simp [itemsUpdateFdsetForFd, hjn]

theorem FdSelector.Kept.setInterest (h : s.Kept) :
    (selectorSetInterest s fd interest).2.Kept ∧
      ((selectorSetInterest s fd interest).1 ≠ .success →
        (selectorSetInterest s fd interest).2 = s) := by
  rw [selectorSetInterest]
  by_cases hinvalid : invalidFd fd = true
  · rw [if_pos hinvalid]
    exact ⟨h, fun _ => rfl⟩
  · rw [if_neg hinvalid]
    obtain ⟨n, rfl, hlt, hsize⟩ := h.agrees.lt_fdSize (Bool.eq_false_iff.mpr hinvalid)
    simp only [Int.toNat_natCast]
    by_cases hused : (s.fds n).used = true
    · rw [if_neg (by simp [hused])]
      refine ⟨⟨h.agrees.put hlt (h.agrees.index n hused).1, h.maxCached.of_used (fun j => ?_) rfl⟩,
        fun hfailed => absurd rfl hfailed⟩
      by_cases hjn : j = n
      · simp [itemsUpdateFdsetForFd, hjn, Item.used]
      · simp [itemsUpdateFdsetForFd, hjn]
    · rw [if_pos (by simp [hused])]
      exact ⟨h, fun _ => rfl⟩

theorem FdSelector.Kept.unregister (h : s.Kept) :
    (unregisterItem s fd).2.Kept ∧
      ((unregisterItem s fd).1 ≠ .success → (unregisterItem s fd).2 = s) := by
  rw [unregisterItem]
  by_cases hrefused : invalidFd fd = true ∨ (s.fds fd.toNat).used = false
  · rw [if_pos hrefused]
    exact ⟨h, fun _ => rfl⟩
  · rw [if_neg hrefused]
    have hused : (s.fds fd.toNat).used = true := by
      simpa using fun hfree => hrefused (.inr hfree)
    have hagrees := h.agrees.remove hused
    refine ⟨⟨hagrees, maxCached_of_scan (fun i hi => (hagrees.index i hi).1) (fun i hi => ?_) rfl⟩,
      fun hfailed => absurd rfl hfailed⟩
    have hinit : itemInit.used = false := by decide
    change (Function.update s.fds fd.toNat itemInit i).used = true at hi
    by_cases hifd : i = fd.toNat
    · rw [hifd, Function.update_self, hinit] at hi
      cases hi
    · rw [Function.update_of_ne hifd] at hi
      exact h.maxCached.le hi

/-- What an operation does to a selector whose books are kept. -/
theorem FdSelector.Kept.apply (h : s.Kept) (op : SelectorOp) :
    ∃ status s', op.apply s = some (status, s') ∧ s'.Kept ∧ (status ≠ .success → s' = s) := by
  cases op with
  | register fd handler interest data =>
    cases handler with
    | none =>
      refine ⟨.iargs, s, ?_, h, fun _ => rfl⟩
      rw [SelectorOp.apply, Checked.selectorRegister, if_pos (.inr rfl)]
    | some handler =>
      obtain ⟨hkept, hfailed⟩ := h.register fd interest handler data
      exact ⟨_, _, checked_selectorRegister fd interest h.agrees handler data, hkept, hfailed⟩
  | unregister fd =>
    obtain ⟨hkept, hfailed⟩ := h.unregister fd
    exact ⟨_, _, checked_selectorUnregisterFd fd h, hkept, hfailed⟩
  | setInterest fd interest =>
    obtain ⟨hkept, hfailed⟩ := h.setInterest fd interest
    exact ⟨_, _, checked_selectorSetInterest fd interest h.agrees, hkept, hfailed⟩

/-- The books are kept over any sequence of operations. -/
theorem FdSelector.Kept.applyAll (h : s.Kept) (ops : List SelectorOp) :
    ∃ s', SelectorOp.applyAll ops s = some s' ∧ s'.Kept := by
  induction ops generalizing s with
  | nil => exact ⟨s, rfl, h⟩
  | cons op ops ih =>
    obtain ⟨status, s', happly, hkept, -⟩ := h.apply op
    obtain ⟨s'', hrest, hkept'⟩ := ih hkept
    refine ⟨s'', ?_, hkept'⟩
    rw [SelectorOp.applyAll, List.foldlM_cons, happly]
    exact hrest

end Operations

/-- After any sequence of calls, none of which left the table or the sets, the books are kept;
the next call stays inside too, and if it fails it leaves the selector as it is. -/
theorem selector_bookkeeping (ops : List SelectorOp) :
    ∃ s, SelectorOp.applyAll ops (selectorNew INITIAL_QUANTITY_FDS) = some s ∧ s.Kept ∧
      ∀ op : SelectorOp, ∃ status s', op.apply s = some (status, s') ∧
        (status ≠ .success → s' = s) := by
  obtain ⟨s, hs, hkept⟩ := kept_selectorNew.applyAll ops
  refine ⟨s, hs, hkept, fun op => ?_⟩
  obtain ⟨status, s', happly, -, hfailed⟩ := hkept.apply op
  exact ⟨status, s', happly, hfailed⟩

end Socks5d
