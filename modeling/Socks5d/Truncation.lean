import Socks5d.Admin.Parser
import Socks5d.Register
import Socks5d.Users

/-!
# Listings that do not fit

Both listings stop at the first row that does not fit. `auth_list_users` returns there, behind the
beginning of that row. `access_register_print` goes on to its end mark, which takes the place of
that beginning and is cut itself when fewer than five bytes are left.
-/

namespace Socks5d

open CStrings

/-- A text of whole lines, the last of which is `END`. -/
def Complete (reply : List UInt8) : Prop :=
  ∃ front, reply = front ++ CStrings.ascii "END\n" ∧ (front = [] ∨ front.getLast? = some 10)

/-- How a printing of rows went: so many of them are printed whole, and where it stopped short
the beginning of the next one stands behind them. -/
structure Printed (rows : List (List UInt8)) (written : ℕ) (response : List UInt8) (k : ℕ)
    (p : Bool × ℕ × List UInt8) : Prop where
  le : k ≤ rows.length
  written_eq : p.2.1 = written + (rows.take k).flatten.length
  room : p.2.1 < response.length
  length : p.2.2.length = response.length
  front : p.2.2.take p.2.1 = response.take written ++ (rows.take k).flatten
  whole : p.1 = true → k = rows.length
  cut : p.1 = false → ∃ row, rows[k]? = some row ∧ response.length - p.2.1 ≤ row.length ∧
    text p.2.2 = text (response.take written ++ (rows.take k).flatten ++
      row.take (response.length - p.2.1 - 1))

/-- The first `k` rows behind the header fit into so many bytes, and the next one does not. -/
structure RowsFit (reg : AccessRegister) (size k : ℕ) : Prop where
  le : k ≤ reg.count
  fit : (headerRow ++ ((reg.rows reg.head reg.count).take k).flatten).length < size
  next : k = reg.count ∨
    size ≤ (headerRow ++ ((reg.rows reg.head reg.count).take (k + 1)).flatten).length

/-- A line `END` of the user listing itself is the last thing that so many bytes hold. -/
def EndsAtMark (users : UserTable) (size : ℕ) : Prop :=
  ∃ front rest, (userRows users).flatten = front ++ CStrings.ascii "END\n" ++ rest ∧
    (front = [] ∨ front.getLast? = some 10) ∧ front.length + 5 = size

variable {rows : List (List UInt8)} {written size k : ℕ} {response reply : List UInt8}
  {users : UserTable} {reg : AccessRegister}
  {calls : List AccessArgs}

theorem printRows_printed (rows : List (List UInt8)) (hlt : written < response.length) :
    ∃ k, Printed rows written response k (printRows rows written response) := by
  induction rows generalizing written response with
  | nil => exact ⟨0, Nat.le_refl _, rfl, hlt, rfl, by simp [printRows], fun _ => rfl, by simp [printRows]⟩
  | cons row rows ih =>
    rw [printRows, length_snprintf]
    split
    · rename_i hlong
      refine ⟨0, Nat.zero_le _, rfl, hlt, length_snprintf _ _ _, ?_, by simp, fun _ => ?_⟩
      · simpa using take_snprintf_self response row written
      · refine ⟨row, rfl, hlong, ?_⟩
        simpa using text_snprintf response row written hlt
    · rename_i hshort
      obtain ⟨k, h⟩ := @ih (written + row.length) (snprintf response written row)
        (by rw [length_snprintf]; omega)
      have hlength := length_snprintf response row written
      have hfront := take_snprintf response row written (by omega)
      obtain ⟨hle, hwritten, hroom, hlen, htake, hwhole, hcut⟩ := h
      rw [hlength] at hroom hlen hcut
      rw [hfront] at htake hcut
      refine ⟨k + 1, Nat.succ_le_succ hle, ?_, hroom, hlen, ?_, fun hw => by rw [hwhole hw]; rfl,
        fun hc => ?_⟩
      · rw [hwritten, List.take_succ_cons, List.flatten_cons, List.length_append, Nat.add_assoc]
      · rw [htake, List.take_succ_cons, List.flatten_cons, List.append_assoc]
      · obtain ⟨row', hrow, hshort', htext⟩ := hcut hc
        refine ⟨row', hrow, hshort', ?_⟩
        rw [htext, List.take_succ_cons, List.flatten_cons, List.append_assoc (response.take written)]

section Users

theorem nulFree_userRows (users : UserTable) : NulFree (userRows users).flatten := by
  have hline : NulFree (CStrings.ascii "\n") := .ascii (by decide)
  apply NulFree.flatten
  intro row hrow
  obtain ⟨i, -, hmem⟩ := List.mem_flatMap.mp hrow
  obtain ⟨e, -, rfl⟩ := List.mem_map.mp hmem
  simp [hline]

/-- The text of the user listing is what fits of the rows and the end mark. -/
theorem text_authListUsers (users : UserTable) (hpos : 0 < response.length) :
    text (authListUsers users response).2 =
      ((userRows users).flatten ++ CStrings.ascii "END\n").take (response.length - 1) := by
  have hnul : NulFree
      (((userRows users).flatten ++ CStrings.ascii "END\n").take (response.length - 1)) := by
    apply NulFree.of_subset _ (List.take_subset _ _)
    exact NulFree.append_iff.mpr ⟨nulFree_userRows users, .ascii (by decide)⟩
  obtain ⟨k, h⟩ := printRows_printed (userRows users) hpos
  obtain ⟨hle, hwritten, hroom, hlength, hfront, hwhole, hcut⟩ := h
  unfold authListUsers
  rcases hprint : printRows (userRows users) 0 response with ⟨fit, w, printed⟩
  rw [hprint] at hwritten hroom hlength hfront hwhole hcut
  dsimp only at hwritten hroom hlength hfront hwhole hcut
  rw [Nat.zero_add] at hwritten
  rw [List.take_zero, List.nil_append] at hfront
  cases fit with
  | false =>
    obtain ⟨row, hrow, hlong, htext⟩ := hcut rfl
    dsimp only
    -- the rows are those printed, the one that was cut and some more
    obtain ⟨hlt, hget⟩ := List.getElem?_eq_some_iff.mp hrow
    have hsplit : (userRows users).flatten =
        ((userRows users).take k).flatten ++ (row ++ ((userRows users).drop (k + 1)).flatten) := by
      rw [← List.flatten_cons, ← hget, List.getElem_cons_drop, ← List.flatten_append,
        List.take_append_drop]
    have hcutoff : ((userRows users).take k).flatten ++ row.take (response.length - w - 1) =
        ((userRows users).flatten ++ CStrings.ascii "END\n").take (response.length - 1) := by
      rw [hsplit, List.append_assoc, List.append_assoc]
      generalize ((userRows users).take k).flatten = front at hwritten
      rw [List.take_append, List.take_of_length_le (l := front) (by omega), ← hwritten,
        List.take_append_of_le_length (by omega), Nat.sub_right_comm]
    rw [htext, List.take_zero, List.nil_append, hcutoff]
    exact text_eq_self hnul
  | true =>
    have hk : k = (userRows users).length := hwhole rfl
    rw [hk, List.take_length] at hwritten hfront
    have hall : (userRows users).flatten ++ (CStrings.ascii "END\n").take (response.length - w - 1) =
        ((userRows users).flatten ++ CStrings.ascii "END\n").take (response.length - 1) := by
      generalize CStrings.ascii "END\n" = mark
      rw [List.take_append, List.take_of_length_le (l := (userRows users).flatten) (by omega),
        ← hwritten, Nat.sub_right_comm]
    dsimp only
    rw [if_pos (by omega), text_snprintf _ _ _ (by omega), hfront, hlength, hall]
    exact text_eq_self hnul

end Users

section Completeness

/-- Rows that all end in one byte make a text that does, or none at all. -/
theorem getLast?_flatten {c : UInt8} (h : ∀ row ∈ rows, row.getLast? = some c) :
    rows.flatten = [] ∨ rows.flatten.getLast? = some c := by
  induction rows with
  | nil => exact .inl rfl
  | cons row rows ih =>
    right
    rw [List.flatten_cons, List.getLast?_append]
    rcases ih fun row' hrow' => h row' (List.mem_cons_of_mem _ hrow') with hnil | hlast
    · rw [hnil]
      exact h row List.mem_cons_self
    · rw [hlast]
      rfl

theorem getLast?_userRows (users : UserTable) : ∀ row ∈ userRows users, row.getLast? = some 10 := by
  intro row hrow
  obtain ⟨i, -, hmem⟩ := List.mem_flatMap.mp hrow
  obtain ⟨e, -, rfl⟩ := List.mem_map.mp hmem
  rw [List.getLast?_append]
  rfl

theorem Complete.getLast? (h : Complete reply) : reply.getLast? = some 10 := by
  obtain ⟨front, rfl, -⟩ := h
  rw [List.getLast?_append]
  rfl

/-- A text that goes on with a proper part of the end mark ends in no newline. -/
theorem not_complete_of_cut {front : List UInt8} {n : ℕ} (hpos : 0 < n) (hlt : n < 4) :
    ¬ Complete (front ++ (CStrings.ascii "END\n").take n) := by
  intro h
  have hlast := h.getLast?
  rw [List.getLast?_append] at hlast
  have hcases : n = 1 ∨ n = 2 ∨ n = 3 := by omega
  rcases hcases with rfl | rfl | rfl <;> exact absurd hlast (by simp [CStrings.ascii])

/-- A text whose last line does not end in a `D` is not complete. -/
theorem not_complete_of_last {front : List UInt8} {c : UInt8} (hc : c ≠ 68) :
    ¬ Complete (front ++ [c, 10]) := by
  rintro ⟨front', heq, -⟩
  have hmark : front' ++ CStrings.ascii "END\n" = (front' ++ [69, 78]) ++ [68, 10] := by
    simp [CStrings.ascii]
  rw [hmark] at heq
  have hlast := List.append_inj_right' heq rfl
  exact hc (List.cons.inj hlast).1

/-- The user listing is complete when it fits, and otherwise only when it is cut behind a line
`END` of its own. -/
theorem authListUsers_complete_iff (hroom : 5 ≤ response.length) :
    Complete (text (authListUsers users response).2) ↔
      (userRows users).flatten.length + 4 < response.length ∨ EndsAtMark users response.length := by
  have hmark : (CStrings.ascii "END\n").length = 4 := rfl
  rw [text_authListUsers users (by omega)]
  constructor
  · intro h
    by_cases hfit : (userRows users).flatten.length + 4 < response.length
    · exact .inl hfit
    right
    obtain ⟨front, heq, hfront⟩ := h
    have hlen := congrArg List.length heq
    rw [List.length_take, List.length_append, List.length_append, hmark] at hlen
    by_cases hshort : response.length - 1 ≤ (userRows users).flatten.length
    · rw [List.take_append_of_le_length hshort] at heq
      refine ⟨front, (userRows users).flatten.drop (response.length - 1), ?_, hfront, by omega⟩
      rw [← heq, List.take_append_drop]
    · -- all rows are there, and the end mark is cut
      rw [List.take_append, List.take_of_length_le (l := (userRows users).flatten) (by omega)] at heq
      exact absurd ⟨front, heq, hfront⟩ (not_complete_of_cut (by omega) (by omega))
  · rintro (hfit | ⟨front, rest, hrows, hfront, hsize⟩)
    · rw [List.take_of_length_le (by rw [List.length_append, hmark]; omega)]
      refine ⟨_, rfl, ?_⟩
      exact getLast?_flatten (getLast?_userRows users)
    · rw [hrows, List.append_assoc, List.append_assoc, ← List.append_assoc front,
        List.take_append_of_le_length (by rw [List.length_append, hmark]; omega),
        List.take_of_length_le (by rw [List.length_append, hmark]; omega)]
      exact ⟨front, rfl, hfront⟩

/-- The listing of the register is the rows that fit, and what fits of the end mark. -/
theorem text_accessRegisterPrint (hkeeps : reg.Keeps calls)
    (hroom : headerRow.length < response.length) :
    ∃ k, RowsFit reg response.length k ∧
      text (accessRegisterPrint reg response).2 =
        headerRow ++ ((reg.rows reg.head reg.count).take k).flatten ++
          (CStrings.ascii "END\n").take (response.length -
            (headerRow ++ ((reg.rows reg.head reg.count).take k).flatten).length - 1) := by
  have hrows : NulFree (reg.rows reg.head reg.count).flatten := by
    rw [hkeeps.rows]
    apply NulFree.flatten
    intro row hrow
    obtain ⟨args, -, rfl⟩ := List.mem_map.mp hrow
    exact args.entry.nulFree_row (show DEFAULT_REG_TYPE ≠ 0 by decide)
  have hcount : (reg.rows reg.head reg.count).length = reg.count := by
    rw [reg.rows_eq_walk, List.length_map, RingLog.length_walk]
  generalize hall : reg.rows reg.head reg.count = rows at hrows hcount
  have hheader := take_snprintf response headerRow 0 (by omega)
  rw [Nat.zero_add, List.take_zero, List.nil_append] at hheader
  have hsize := length_snprintf response headerRow 0
  obtain ⟨k, h⟩ := @printRows_printed headerRow.length (snprintf response 0 headerRow) rows
    (by omega)
  obtain ⟨hle, hwritten, hlt, hlength, hfront, hwhole, hcut⟩ := h
  rcases hprint : printRows rows headerRow.length (snprintf response 0 headerRow) with
    ⟨fit, w, printed⟩
  rw [hprint] at hwritten hlt hlength hfront hwhole hcut
  dsimp only at hwritten hlt hlength hfront hwhole hcut
  rw [hheader] at hfront
  rw [hsize] at hlt hlength hcut
  have hlen : (headerRow ++ (rows.take k).flatten).length = w := by
    rw [List.length_append, hwritten]
  refine ⟨k, ⟨by omega, by rw [hall]; omega, ?_⟩, ?_⟩
  · cases fit with
    | true => exact .inl ((hwhole rfl).trans hcount)
    | false =>
      obtain ⟨row, hrow, hlong, -⟩ := hcut rfl
      right
      rw [hall, List.take_add_one, hrow, List.flatten_append, ← List.append_assoc,
        List.length_append, hlen]
      simp only [Option.toList_some, List.flatten_cons, List.flatten_nil, List.append_nil]
      omega
  · have hnul : NulFree (headerRow ++ (rows.take k).flatten ++ (CStrings.ascii "END\n").take
        (response.length - (headerRow ++ (rows.take k).flatten).length - 1)) := by
      have hmark : NulFree (CStrings.ascii "END\n") := .ascii (by decide)
      refine NulFree.append_iff.mpr ⟨NulFree.append_iff.mpr ⟨nulFree_headerRow, ?_⟩, ?_⟩
      · apply hrows.of_subset
        rw [← List.take_append_drop k rows, List.flatten_append, List.take_append_drop]
        exact List.subset_append_left _ _
      · exact hmark.of_subset (List.take_subset _ _)
    rw [← text_eq_self hnul, hlen]
    unfold accessRegisterPrint
    dsimp only
    rw [hsize, if_neg (by omega), hall, hprint]
    dsimp only
    rw [if_pos (by omega), text_snprintf _ _ _ (by omega), hfront, hlength]

/-- Only one number of rows fits. -/
theorem RowsFit.unique {j : ℕ} (h : RowsFit reg size k) (h' : RowsFit reg size j) : k = j := by
  have hmono : ∀ {i m : ℕ}, i ≤ m →
      (headerRow ++ ((reg.rows reg.head reg.count).take i).flatten).length ≤
        (headerRow ++ ((reg.rows reg.head reg.count).take m).flatten).length := by
    intro i m him
    have hprefix : (reg.rows reg.head reg.count).take i <+: (reg.rows reg.head reg.count).take m :=
      List.take_prefix_take_left him
    obtain ⟨rest, hrest⟩ := hprefix
    rw [← hrest, List.flatten_append, List.length_append, List.length_append, List.length_append]
    omega
  have hnot : ∀ {i m : ℕ}, RowsFit reg size i → RowsFit reg size m → ¬ i < m := by
    intro i m hi hm hlt
    rcases hi.next with heq | hle
    · exact absurd hm.le (by omega)
    · exact absurd (hle.trans (hmono hlt)) (by have := hm.fit; omega)
  have := hnot h h'
  have := hnot h' h
  omega

/-- A row, like the header, ends in a column of digits or spaces. -/
theorem padded_ends {s : List UInt8} (width : ℕ) (hne : s ≠ []) (hs : ∀ c ∈ s, c ≠ 68) :
    ∃ front c, padRight width s ++ CStrings.ascii "\n" = front ++ [c, 10] ∧ c ≠ 68 := by
  have hpad : ∀ c ∈ padRight width s, c ≠ 68 := by
    intro c hc
    rcases List.mem_append.mp hc with hc | hc
    · exact hs c hc
    · rw [List.eq_of_mem_replicate hc]
      decide
  have hne' : padRight width s ≠ [] := by
    rw [padRight]
    exact List.append_ne_nil_of_left_ne_nil hne _
  refine ⟨(padRight width s).dropLast, (padRight width s).getLast hne', ?_,
    hpad _ (List.getLast_mem hne')⟩
  conv_lhs => rw [← List.dropLast_append_getLast hne', List.append_assoc]
  rfl

theorem headerRow_ends : ∃ front c, headerRow = front ++ [c, 10] ∧ c ≠ 68 := by
  obtain ⟨front, c, heq, hc⟩ := padded_ends (s := CStrings.ascii "Status") 10 (by decide)
    (by simp [CStrings.ascii])
  unfold headerRow
  rw [List.append_assoc _ _ (CStrings.ascii "\n"), heq, ← List.append_assoc]
  exact ⟨_, c, rfl, hc⟩

theorem AccessEntry.row_ends (entry : AccessEntry) :
    ∃ front c, entry.row = front ++ [c, 10] ∧ c ≠ 68 := by
  have hdigit : ∀ n, ∀ c ∈ decimal n, c ≠ 68 := by
    intro n c hc heq
    exact absurd ((isNumeral_decimal n).digits c hc) (by rw [heq]; decide)
  have hdigits : ∀ c ∈ signedDecimal entry.statusCode, c ≠ 68 := by
    intro c hc
    unfold signedDecimal at hc
    split at hc
    · rcases List.mem_append.mp hc with hc | hc
      · rw [List.mem_singleton.mp hc]
        decide
      · exact hdigit _ c hc
    · exact hdigit _ c hc
  have hne : signedDecimal entry.statusCode ≠ [] := by
    have hdecimal := (isNumeral_decimal entry.statusCode.natAbs).nonempty
    unfold signedDecimal
    split
    · exact List.append_ne_nil_of_right_ne_nil _ hdecimal
    · exact hdecimal
  obtain ⟨front, c, heq, hc⟩ := padded_ends 10 hne hdigits
  unfold AccessEntry.row
  rw [List.append_assoc _ _ (CStrings.ascii "\n"), heq, ← List.append_assoc]
  exact ⟨_, c, rfl, hc⟩

/-- So does any number of rows behind the header. -/
theorem rows_end (n : ℕ) (idx : ℕ) :
    ∃ front c, headerRow ++ ((reg.rows idx n).take k).flatten = front ++ [c, 10] ∧ c ≠ 68 := by
  rcases List.eq_nil_or_concat ((reg.rows idx n).take k) with hnil | ⟨rows, row, hrows⟩
  · rw [hnil, List.flatten_nil, List.append_nil]
    exact headerRow_ends
  · have hmem : row ∈ reg.rows idx n := by
      apply List.mem_of_mem_take (i := k)
      rw [hrows]
      rw [List.concat_eq_append]
      exact List.mem_concat_self
    rw [reg.rows_eq_walk] at hmem
    obtain ⟨entry, -, rfl⟩ := List.mem_map.mp hmem
    obtain ⟨front, c, heq, hc⟩ := entry.row_ends
    rw [hrows, List.concat_eq_append, List.flatten_append, List.flatten_singleton, heq,
      ← List.append_assoc, ← List.append_assoc]
    exact ⟨_, c, rfl, hc⟩

/-- The listing of the register is complete when five bytes are left behind the rows that fit. -/
theorem accessRegisterPrint_complete_iff (hkeeps : reg.Keeps calls)
    (hroom : headerRow.length < response.length) :
    Complete (text (accessRegisterPrint reg response).2) ↔
      ∃ k, RowsFit reg response.length k ∧
        (headerRow ++ ((reg.rows reg.head reg.count).take k).flatten).length + 4 <
          response.length := by
  obtain ⟨k, hfit, htext⟩ := text_accessRegisterPrint hkeeps hroom
  obtain ⟨front, c, hends, hc⟩ : ∃ front c,
      headerRow ++ ((reg.rows reg.head reg.count).take k).flatten = front ++ [c, 10] ∧ c ≠ 68 :=
    rows_end reg.count reg.head
  rw [htext]
  have hlt := hfit.fit
  constructor
  · intro h
    refine ⟨k, hfit, ?_⟩
    by_contra hshort
    by_cases hnone : response.length -
        (headerRow ++ ((reg.rows reg.head reg.count).take k).flatten).length - 1 = 0
    · rw [hnone, List.take_zero, List.append_nil, hends] at h
      exact not_complete_of_last hc h
    · exact not_complete_of_cut (by omega) (by omega) h
  · rintro ⟨j, hj, hroom'⟩
    obtain rfl := hfit.unique hj
    have hmark : (CStrings.ascii "END\n").length = 4 := rfl
    rw [List.take_of_length_le (l := CStrings.ascii "END\n") (by rw [hmark]; omega)]
    have hlast : (headerRow ++ ((reg.rows reg.head reg.count).take k).flatten).getLast? = some 10 := by
      rw [hends]
      simp
    exact ⟨_, rfl, .inr hlast⟩

end Completeness

/-- With at least 512 bytes of space the user listing is complete when it fits as a whole, and
otherwise only when it is cut right behind a line `END` of its own. The listing of the register
is complete when five bytes are left behind the rows that fit. -/
theorem listings_complete_iff (users : UserTable) (entries : ℕ → AccessEntry)
    (calls : List AccessArgs) (response : List UInt8) (hroom : 512 ≤ response.length) :
    (Complete (text (authListUsers users response).2) ↔
      (userRows users).flatten.length + 4 < response.length ∨
        EndsAtMark users response.length) ∧
    (Complete (text (accessRegisterPrint ((accessRegisterInit entries).addEntries calls)
        response).2) ↔
      ∃ k, RowsFit ((accessRegisterInit entries).addEntries calls) response.length k ∧
        (headerRow ++ ((((accessRegisterInit entries).addEntries calls).rows
          ((accessRegisterInit entries).addEntries calls).head
          ((accessRegisterInit entries).addEntries calls).count).take k).flatten).length + 4 <
            response.length) := by
  have hkeeps := (keeps_init entries).addEntries calls
  have hheader : headerRow.length = 127 := rfl
  exact ⟨authListUsers_complete_iff (by omega),
    accessRegisterPrint_complete_iff hkeeps (by omega)⟩

/-- A name of that many equal letters fits its array. -/
theorem storable_replicate {n : ℕ} {c : UInt8} (hn : n ≤ MAX_USERNAME_LEN - 1) (hc : c ≠ 0) :
    Storable (List.replicate n c) := by
  refine ⟨fun x hx => ?_, by rwa [List.length_replicate]⟩
  rw [List.eq_of_mem_replicate hx]
  exact hc

/-- The rows of a table of two users are their names, each with its newline. -/
theorem length_userRows_two {a b : CString} (ha : Storable a) (hb : Storable b) (hne : a ≠ b) :
    (userRows (runCalls AuthCall.run [.addUser a [], .addUser b []] authInit).2).flatten.length =
      a.length + b.length + 2 := by
  have hempty : Storable [] := ⟨by simp, by simp⟩
  have hstrings : ∀ call ∈ [AuthCall.addUser a [], AuthCall.addUser b []], call.Strings := by
    simp [AuthCall.Strings, ha, hb, hempty]
  obtain ⟨-, h⟩ := runCalls_represents _ represents_init hstrings
  generalize (runCalls AuthCall.run [.addUser a [], .addUser b []] authInit).2 = users at h
  have hnames : users.names.Perm [a, b] := by
    apply (List.perm_ext_iff_of_nodup h.nodup_names (by simp [hne])).mpr
    intro username
    rw [h.mem_names_iff]
    simp [runCalls, AuthCall.spec, Finmap.notMem_empty, hne.symm, or_comm]
  rw [h.userRows_flatten, nameLines,
    ((hnames.map fun username => username ++ CStrings.ascii "\n").flatten).length_eq]
  simp [CStrings.ascii]
  omega

set_option maxRecDepth 4096 in
/-- Into 514 bytes go three of four accesses with their end mark, and two users whose names fill
their arrays with an end mark that lacks its newline. -/
theorem listings_complete_iff_two :
    ¬ Complete (text (authListUsers (runCalls AuthCall.run
        [.addUser (List.replicate 254 97) [], .addUser (List.replicate 254 98) []] authInit).2
      (List.replicate 514 0)).2) ∧
    Complete (text (accessRegisterPrint ((accessRegisterInit fun _ =>
        AccessArgs.entry ⟨[], [], 0, [], 0, 0, []⟩).addEntries (List.replicate 4
          ⟨CStrings.ascii "bob", CStrings.ascii "127.0.0.1", 40000, CStrings.ascii "example.org", 80,
            0, CStrings.ascii "2025-06-10T19:56:34Z"⟩)) (List.replicate 514 0)).2) := by
  have hlen : (List.replicate 514 (0 : UInt8)).length = 514 := List.length_replicate
  have hne : List.replicate 254 (97 : UInt8) ≠ List.replicate 254 98 := by
    rw [Ne, List.replicate_inj]
    decide
  have hlines := length_userRows_two (storable_replicate (n := 254) (c := 97) (by decide) (by decide))
    (storable_replicate (n := 254) (c := 98) (by decide) (by decide)) hne
  rw [List.length_replicate, List.length_replicate] at hlines
  generalize hargs : (⟨CStrings.ascii "bob", CStrings.ascii "127.0.0.1", 40000,
    CStrings.ascii "example.org", 80, 0, CStrings.ascii "2025-06-10T19:56:34Z"⟩ : AccessArgs) = args
  have hrow : args.entry.row.length = 127 := by
    rw [← hargs]
    rfl
  obtain ⟨husers, hregister⟩ := listings_complete_iff (runCalls AuthCall.run
      [.addUser (List.replicate 254 97) [], .addUser (List.replicate 254 98) []] authInit).2
    (fun _ => AccessArgs.entry ⟨[], [], 0, [], 0, 0, []⟩) (List.replicate 4 args)
    (List.replicate 514 0) (by rw [hlen]; decide)
  have hkeeps := (keeps_init fun _ => AccessArgs.entry ⟨[], [], 0, [], 0, 0, []⟩).addEntries
    (List.replicate 4 args)
  have hcount := hkeeps.count_eq
  have hrows := hkeeps.rows.trans
    (show _ = List.replicate 4 args.entry.row from rfl)
  rw [hlen] at husers hregister
  rw [husers, hregister, hlines]
  constructor
  · rintro (hfit | ⟨front, rest, heq, -, hsize⟩)
    · omega
    · have hle := congrArg List.length heq
      rw [hlines, List.length_append, List.length_append,
        show (CStrings.ascii "END\n").length = 4 from rfl] at hle
      omega
  · rw [hrows]
    have hheader : headerRow.length = 127 := rfl
    have hfour : ((accessRegisterInit fun _ => AccessArgs.entry ⟨[], [], 0, [], 0, 0, []⟩).addEntries
        (List.replicate 4 args)).count = 4 := hcount
    have htaken (k : ℕ) (hk : k ≤ 4) :
        (headerRow ++ ((List.replicate 4 args.entry.row).take k).flatten).length = 127 + k * 127 := by
      rw [List.take_replicate, Nat.min_eq_left hk]
      simp [hheader, hrow]
    refine ⟨3, ⟨?_, ?_, .inr ?_⟩, ?_⟩
    · rw [hfour]
      decide
    · rw [hrows, htaken 3 (by decide)]
      decide
    · rw [hrows, htaken 4 (by decide)]
      decide
    · rw [htaken 3 (by decide)]
      decide

/-- Two users whose names fill their arrays: the end mark of the listing is cut behind its `E`. -/
theorem not_listings_complete :
    ¬ ∀ (calls : List AuthCall) (response : List UInt8), (∀ call ∈ calls, call.Strings) →
      512 ≤ response.length → response.length ≤ MAX_RESPONSE_LEN →
        Complete (text (authListUsers (runCalls AuthCall.run calls authInit).2 response).2) := by
  intro hall
  obtain ⟨response, hlen⟩ : ∃ response : List UInt8, response.length = 512 :=
    ⟨List.replicate 512 0, List.length_replicate⟩
  obtain ⟨a, ha, hlena, hfirst⟩ : ∃ a, Storable a ∧ a.length = 254 ∧ a.head? = some 97 :=
    ⟨_, storable_replicate (by decide) (by decide), List.length_replicate, rfl⟩
  obtain ⟨b, hb, hlenb, hfirst'⟩ : ∃ b, Storable b ∧ b.length = 254 ∧ b.head? = some 98 :=
    ⟨_, storable_replicate (by decide) (by decide), List.length_replicate, rfl⟩
  have hne : a ≠ b := by
    rintro rfl
    exact absurd (hfirst.symm.trans hfirst') (by decide)
  have hempty : Storable [] := ⟨by simp, by simp⟩
  have hcomplete := hall [.addUser a [], .addUser b []] response
    (by simp [AuthCall.Strings, ha, hb, hempty]) hlen.ge (by rw [hlen]; decide)
  have hlines := length_userRows_two ha hb hne
  rw [hlena, hlenb] at hlines
  generalize (runCalls AuthCall.run [.addUser a [], .addUser b []] authInit).2 = users
    at hlines hcomplete
  rw [text_authListUsers _ (by omega), hlen, List.take_append,
    List.take_of_length_le (l := (userRows users).flatten) (by omega), hlines] at hcomplete
  exact not_complete_of_cut (by decide) (by decide) hcomplete

end Socks5d
