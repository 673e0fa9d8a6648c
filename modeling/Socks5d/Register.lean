import Socks5d.Lib.RingLog
import Socks5d.Listings

/-!
# The access register over whole runs

`access_register_init` zeroes the three indices and leaves the entries as `malloc` returned them.
After any number of calls the register is a ring that keeps the last hundred entries, and a
listing with enough space prints them from oldest to newest.
-/

namespace Socks5d

open CStrings RingLog

/-- The arguments of one call, with the date that `strftime` writes for its timestamp. -/
structure AccessArgs where
  username : CString
  srcIp : CString
  srcPort : UInt16
  destination : CString
  destPort : UInt16
  statusCode : ℤ
  isoDate : CString

/-- The entry of a call, its strings as far as their arrays hold them. -/
def AccessArgs.entry (args : AccessArgs) : AccessEntry where
  isoDate := args.isoDate
  username := args.username.take (MAX_USERNAME_LEN - 1)
  registerType := DEFAULT_REG_TYPE
  srcIp := args.srcIp.take (IP_MAX_LEN - 1)
  srcPort := args.srcPort
  destination := args.destination.take (DEST_MAX_LEN - 1)
  destPort := args.destPort
  statusCode := args.statusCode

/-- `access_register_init`, given what the new memory holds. -/
def accessRegisterInit (entries : ℕ → AccessEntry) : AccessRegister where
  entries := entries
  head := 0
  tail := 0
  count := 0

/-- One call after another. -/
def AccessRegister.addEntries (reg : AccessRegister) (calls : List AccessArgs) : AccessRegister :=
  calls.foldl (fun reg args => reg.addEntry args.username args.srcIp args.srcPort args.destination
    args.destPort args.statusCode args.isoDate) reg

/-- The columns of a listing, with the title and the width of each. -/
def accessColumns : List (List UInt8 × ℕ) :=
  [(ascii "Fecha", 25), (ascii "Usuario", 15), (ascii "Tipo", 10), (ascii "IP_origen", 15),
    (ascii "Pto_org", 12), (ascii "Destino", 20), (ascii "Pto_dst", 12), (ascii "Status", 10)]

/-- One line of a listing: its fields in their columns, with a space between them. -/
def inColumns (fields : List (List UInt8)) : List UInt8 :=
  (ascii " ").intercalate
      (List.zipWith (fun column field => padRight column.2 field) accessColumns fields) ++
    ascii "\n"

/-- What a call leaves in the columns of its row: its strings as far as 255 and 63 bytes, and its
numbers in decimal. -/
def AccessArgs.fields (args : AccessArgs) : List (List UInt8) :=
  [text args.isoDate, text (args.username.take 255), ascii "A", text (args.srcIp.take 63),
    decimal args.srcPort.toNat, text (args.destination.take 255), decimal args.destPort.toNat,
    signedDecimal args.statusCode]

/-- The complete listing of some calls: the titles, a row for each and the end mark. -/
def accessListing (calls : List AccessArgs) : List UInt8 :=
  inColumns (accessColumns.map Prod.fst) ++ (calls.map fun args => inColumns args.fields).flatten ++
    ascii "END\n"

/-- The header is the line of the titles. -/
theorem headerRow_eq : headerRow = inColumns (accessColumns.map Prod.fst) := by
  simp [headerRow, inColumns, accessColumns, List.intercalate_cons_cons]

/-- The row of a stored entry is the line of its call's fields. -/
theorem AccessArgs.row_entry (args : AccessArgs) : args.entry.row = inColumns args.fields := by
  have hletter : ascii "A" = [DEFAULT_REG_TYPE] := rfl
  simp [AccessArgs.entry, AccessEntry.row, AccessArgs.fields, inColumns, accessColumns,
    List.intercalate_cons_cons, hletter, MAX_USERNAME_LEN, IP_MAX_LEN, DEST_MAX_LEN]

set_option maxRecDepth 4096 in
example : (AccessArgs.entry ⟨ascii "bob", ascii "127.0.0.1", 40000, ascii "example.org", 80, -1,
      ascii "2025-06-10T19:56:34Z"⟩).row =
    ascii ("2025-06-10T19:56:34Z      bob             A          127.0.0.1       40000        " ++
      "example.org          80           -1        \n") := by
  rfl

/-- A listing is assembled from the lines that are printed. -/
theorem accessListing_eq (calls : List AccessArgs) : accessListing calls =
    headerRow ++ (calls.map fun args => args.entry.row).flatten ++ ascii "END\n" := by
  simp only [accessListing, headerRow_eq, AccessArgs.row_entry]

/-- The register keeps the entries of the last hundred calls. -/
def AccessRegister.Keeps (reg : AccessRegister) (calls : List AccessArgs) : Prop :=
  RingLog.Keeps REGISTER_MAX_ENTRIES reg.entries reg.head reg.tail reg.count
    (calls.map AccessArgs.entry)

/-- The fields of a register that keeps the last hundred calls, and what it prints. -/
structure AccessRegister.PrintsLast (reg : AccessRegister) (calls : List AccessArgs) : Prop where
  head_lt : reg.head < REGISTER_MAX_ENTRIES
  tail_lt : reg.tail < REGISTER_MAX_ENTRIES
  count_eq : reg.count = min calls.length REGISTER_MAX_ENTRIES
  tail_eq : reg.tail = (reg.head + reg.count) % REGISTER_MAX_ENTRIES
  /-- With enough space the listing is that of the last hundred calls. -/
  listing : ∀ response : List UInt8,
    (accessListing (lastItems REGISTER_MAX_ENTRIES calls)).length < response.length →
      (accessRegisterPrint reg response).1 =
          (accessListing (lastItems REGISTER_MAX_ENTRIES calls)).length ∧
        text (accessRegisterPrint reg response).2 =
          accessListing (lastItems REGISTER_MAX_ENTRIES calls)

variable {reg : AccessRegister} {calls : List AccessArgs} {args : AccessArgs}

/-- One call stores its entry as the newest. -/
theorem AccessRegister.Keeps.addEntry (h : reg.Keeps calls) :
    (reg.addEntry args.username args.srcIp args.srcPort args.destination args.destPort
      args.statusCode args.isoDate).Keeps (calls ++ [args]) := by
  have hle : reg.count ≤ REGISTER_MAX_ENTRIES := h.count_eq ▸ Nat.min_le_right _ _
  unfold AccessRegister.Keeps
  rw [List.map_append, List.map_singleton]
  by_cases hroom : reg.count < REGISTER_MAX_ENTRIES
  · simp only [AccessRegister.addEntry, if_pos hroom]
    exact h.push hroom args.entry
  · simp only [AccessRegister.addEntry, if_neg hroom]
    have hfull : reg.count = REGISTER_MAX_ENTRIES := by omega
    have h' := h
    rw [AccessRegister.Keeps, hfull] at h'
    rw [hfull]
    exact h'.overwrite args.entry

theorem AccessRegister.Keeps.addEntries (more : List AccessArgs) (h : reg.Keeps calls) :
    (reg.addEntries more).Keeps (calls ++ more) := by
  induction more generalizing reg calls with
  | nil =>
    rw [List.append_nil]
    exact h
  | cons args more ih =>
    rw [List.append_cons]
    exact ih h.addEntry

theorem keeps_init (entries : ℕ → AccessEntry) : (accessRegisterInit entries).Keeps [] :=
  RingLog.Keeps.init (by decide) entries

/-- The rows that are printed follow the walk around the ring. -/
theorem AccessRegister.rows_eq_walk (idx n : ℕ) :
    reg.rows idx n = (walk REGISTER_MAX_ENTRIES reg.entries idx n).map AccessEntry.row := by
  induction n generalizing idx with
  | zero => rfl
  | succ n ih => rw [AccessRegister.rows, ih, walk, List.map_cons]

theorem AccessRegister.Keeps.rows (h : reg.Keeps calls) :
    reg.rows reg.head reg.count =
      (lastItems REGISTER_MAX_ENTRIES calls).map fun args => args.entry.row := by
  rw [reg.rows_eq_walk, h.walk_eq, lastItems, lastItems, List.length_map, ← List.map_drop,
    List.map_map]
  rfl

/-- No byte of a row ends the string it is part of. -/
theorem AccessEntry.nulFree_row (entry : AccessEntry) (htype : entry.registerType ≠ 0) :
    NulFree entry.row := by
  have hspace : NulFree (ascii " ") := .ascii (by decide)
  have hline : NulFree (ascii "\n") := .ascii (by decide)
  have hletter : NulFree [entry.registerType] := by simpa [NulFree] using htype
  simp [AccessEntry.row, hspace, hline, hletter]

theorem nulFree_headerRow : NulFree headerRow := by
  have hspace : NulFree (ascii " ") := .ascii (by decide)
  have hline : NulFree (ascii "\n") := .ascii (by decide)
  have hfecha : NulFree (ascii "Fecha") := .ascii (by decide)
  have husuario : NulFree (ascii "Usuario") := .ascii (by decide)
  have htipo : NulFree (ascii "Tipo") := .ascii (by decide)
  have horigen : NulFree (ascii "IP_origen") := .ascii (by decide)
  have hptoOrg : NulFree (ascii "Pto_org") := .ascii (by decide)
  have hdestino : NulFree (ascii "Destino") := .ascii (by decide)
  have hptoDst : NulFree (ascii "Pto_dst") := .ascii (by decide)
  have hstatus : NulFree (ascii "Status") := .ascii (by decide)
  simp [headerRow, *]

/-- No byte of a listing ends it early. -/
theorem nulFree_accessListing (calls : List AccessArgs) : NulFree (accessListing calls) := by
  have hend : NulFree (ascii "END\n") := .ascii (by decide)
  have hrows : NulFree (calls.map fun args => args.entry.row).flatten := by
    apply NulFree.flatten
    intro row hrow
    obtain ⟨args, -, rfl⟩ := List.mem_map.mp hrow
    exact args.entry.nulFree_row (show DEFAULT_REG_TYPE ≠ 0 by decide)
  simp [accessListing_eq, nulFree_headerRow, hrows, hend]

/-- A listing of the register that fits is the header, its rows and the end mark. -/
theorem accessRegisterPrint_of_fits {rows response : List UInt8}
    (hrows : (reg.rows reg.head reg.count).flatten = rows)
    (hfit : (headerRow ++ rows ++ ascii "END\n").length < response.length) :
    (accessRegisterPrint reg response).1 = (headerRow ++ rows ++ ascii "END\n").length ∧
      text (accessRegisterPrint reg response).2 = text (headerRow ++ rows ++ ascii "END\n") := by
  have hmark : (ascii "END\n").length = 4 := rfl
  rw [List.length_append, List.length_append, hmark] at hfit ⊢
  subst hrows
  obtain ⟨printed, hprint, hlength, htake⟩ :=
    @printRows_of_fits headerRow.length (reg.rows reg.head reg.count)
      (snprintf response 0 headerRow) (by rw [length_snprintf]; omega)
  rw [length_snprintf] at hlength
  have hheader := take_snprintf response headerRow 0 (by omega)
  rw [Nat.zero_add, List.take_zero, List.nil_append] at hheader
  rw [hheader] at htake
  unfold accessRegisterPrint
  simp only [length_snprintf]
  rw [if_neg (by omega), hprint]
  simp only [hlength]
  rw [if_pos (by omega), if_pos (by omega)]
  refine ⟨rfl, ?_⟩
  rw [text_snprintf _ _ _ (by omega), htake, List.take_of_length_le (by rw [hmark]; omega)]

/-- After any number of calls the indices of the register agree with each other, and a listing
with enough space is that of the last hundred calls, from oldest to newest. -/
theorem register_keeps_last (entries : ℕ → AccessEntry) (calls : List AccessArgs) :
    ((accessRegisterInit entries).addEntries calls).PrintsLast calls := by
  have h := (keeps_init entries).addEntries calls
  rw [List.nil_append] at h
  refine ⟨h.head_lt, ?_, ?_, h.tail_eq, ?_⟩
  · rw [h.tail_eq]
    exact Nat.mod_lt _ (by decide)
  · rw [h.count_eq, List.length_map]
  · intro response hfit
    rw [accessListing_eq] at hfit ⊢
    obtain ⟨hcount, htext⟩ := accessRegisterPrint_of_fits (congrArg List.flatten h.rows) hfit
    exact ⟨hcount, htext.trans (text_eq_self (accessListing_eq _ ▸ nulFree_accessListing _))⟩

end Socks5d
