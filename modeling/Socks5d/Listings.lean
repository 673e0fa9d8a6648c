import Socks5d.AuthTable
import Socks5d.Lib.CStrings

/-!
# The listings of `auth_table.c` and `access_register.c`

Both print one row after another behind what is already written, and stop at the first row
that does not fit. `snprintf` has put the beginning of that row into the response by then.
-/

namespace Socks5d

open CStrings

def DEST_MAX_LEN : ℕ := 256

def REGISTER_MAX_ENTRIES : ℕ := 100

def IP_MAX_LEN : ℕ := 64

/-- The letter `A`. -/
def DEFAULT_REG_TYPE : UInt8 := 65

/-- An entry of the access register; its arrays hold bounded strings. -/
structure AccessEntry where
  isoDate : CString
  username : CString
  registerType : UInt8
  srcIp : CString
  srcPort : UInt16
  destination : CString
  destPort : UInt16
  statusCode : ℤ
  deriving DecidableEq, Repr

/-- The circular register. -/
structure AccessRegister where
  entries : ℕ → AccessEntry
  head : ℕ
  tail : ℕ
  count : ℕ

/-- `access_register_add_entry`, given the date that `strftime` writes. -/
def AccessRegister.addEntry (reg : AccessRegister) (username srcIp : CString) (srcPort : UInt16)
    (destination : CString) (destPort : UInt16) (statusCode : ℤ) (isoDate : CString) :
    AccessRegister where
  entries := Function.update reg.entries reg.tail
    { isoDate := isoDate
      username := username.take (MAX_USERNAME_LEN - 1)
      registerType := DEFAULT_REG_TYPE
      srcIp := srcIp.take (IP_MAX_LEN - 1)
      srcPort := srcPort
      destination := destination.take (DEST_MAX_LEN - 1)
      destPort := destPort
      statusCode := statusCode }
  tail := (reg.tail + 1) % REGISTER_MAX_ENTRIES
  count := if reg.count < REGISTER_MAX_ENTRIES then reg.count + 1 else reg.count
  head := if reg.count < REGISTER_MAX_ENTRIES then reg.head
    else (reg.head + 1) % REGISTER_MAX_ENTRIES

/-- Print rows while they fit: whether all did, the bytes written and the response. -/
def printRows : List (List UInt8) → ℕ → List UInt8 → Bool × ℕ × List UInt8
  | [], written, response => (true, written, response)
  | row :: rows, written, response =>
    let response := snprintf response written row
    if row.length ≥ response.length - written then (false, written, response)
    else printRows rows (written + row.length) response

/-- The names in the order of the buckets and their chains, each on its line. -/
def userRows (users : UserTable) : List (List UInt8) :=
  (List.range HASHMAP_SIZE).flatMap fun i =>
    (users i).map fun curr => text curr.username ++ ascii "\n"

def authListUsers (users : UserTable) (response : List UInt8) : ℕ × List UInt8 :=
  match printRows (userRows users) 0 response with
  | (false, written, response) => (written, response)
  | (true, written, response) =>
    if written < response.length then (written + 4, snprintf response written (ascii "END\n"))
    else (written, response)

/-- The row of titles, in the columns of the entries. -/
def headerRow : List UInt8 :=
  padRight 25 (ascii "Fecha") ++ ascii " " ++ padRight 15 (ascii "Usuario") ++ ascii " " ++
  padRight 10 (ascii "Tipo") ++ ascii " " ++ padRight 15 (ascii "IP_origen") ++ ascii " " ++
  padRight 12 (ascii "Pto_org") ++ ascii " " ++ padRight 20 (ascii "Destino") ++ ascii " " ++
  padRight 12 (ascii "Pto_dst") ++ ascii " " ++ padRight 10 (ascii "Status") ++ ascii "\n"

def AccessEntry.row (entry : AccessEntry) : List UInt8 :=
  padRight 25 (text entry.isoDate) ++ ascii " " ++ padRight 15 (text entry.username) ++ ascii " " ++
  padRight 10 [entry.registerType] ++ ascii " " ++ padRight 15 (text entry.srcIp) ++ ascii " " ++
  padRight 12 (decimal entry.srcPort.toNat) ++ ascii " " ++
  padRight 20 (text entry.destination) ++ ascii " " ++
  padRight 12 (decimal entry.destPort.toNat) ++ ascii " " ++
  padRight 10 (signedDecimal entry.statusCode) ++ ascii "\n"

/-- The rows of so many entries from an index on, around the ring. -/
def AccessRegister.rows (reg : AccessRegister) : ℕ → ℕ → List (List UInt8)
  | _, 0 => []
  | idx, n + 1 => (reg.entries idx).row :: reg.rows ((idx + 1) % REGISTER_MAX_ENTRIES) n

def accessRegisterPrint (reg : AccessRegister) (response : List UInt8) : ℕ × List UInt8 :=
  let response := snprintf response 0 headerRow
  if headerRow.length ≥ response.length then (0, response)
  else
    -- a row that does not fit ends the loop, and END is printed over its beginning
    let (_, written, response) := printRows (reg.rows reg.head reg.count) headerRow.length response
    if written < response.length then
      (if 4 < response.length - written then written + 4 else written,
        snprintf response written (ascii "END\n"))
    else (written, response)

/-- What `snprintf` prints does not reach back over its offset. -/
theorem take_snprintf_self (mem out : List UInt8) (pos : ℕ) :
    (snprintf mem pos out).take pos = mem.take pos := by
  unfold snprintf
  split
  · rw [overwrite, List.append_assoc, List.take_left' (by simp only [List.length_take]; omega)]
  · rfl

/-- What fits is printed row after row behind what stands there. -/
theorem printRows_of_fits {written : ℕ} (rows : List (List UInt8)) {response : List UInt8}
    (hfit : written + rows.flatten.length < response.length) :
    ∃ printed, printRows rows written response = (true, written + rows.flatten.length, printed) ∧
      printed.length = response.length ∧
      printed.take (written + rows.flatten.length) = response.take written ++ rows.flatten := by
  induction rows generalizing written response with
  | nil => exact ⟨response, by simp [printRows], rfl, by simp⟩
  | cons row rows ih =>
    rw [List.flatten_cons, List.length_append] at hfit ⊢
    have hrow : row.length < response.length - written := by omega
    obtain ⟨printed, hrest, hlength, htake⟩ :=
      @ih (written + row.length) (snprintf response written row) (by rw [length_snprintf]; omega)
    have hnext : printRows (row :: rows) written response =
        printRows rows (written + row.length) (snprintf response written row) := by
      rw [printRows, length_snprintf, if_neg (by omega)]
    rw [take_snprintf response row written hrow] at htake
    refine ⟨printed, ?_, ?_, ?_⟩
    · rw [hnext, hrest, Nat.add_assoc]
    · rw [hlength, length_snprintf]
    · rw [← Nat.add_assoc, htake, List.append_assoc]

/-- A user listing that fits is the rows of all entries and the end mark. -/
theorem authListUsers_of_fits (users : UserTable) {response : List UInt8}
    (hfit : (userRows users).flatten.length + 4 < response.length) :
    (authListUsers users response).1 = (userRows users).flatten.length + 4 ∧
      text (authListUsers users response).2 =
        text ((userRows users).flatten ++ ascii "END\n") := by
  obtain ⟨printed, hprint, hlength, htake⟩ :=
    @printRows_of_fits 0 (userRows users) response (by omega)
  rw [Nat.zero_add] at hprint htake
  unfold authListUsers
  rw [hprint]
  dsimp only
  rw [if_pos (by omega)]
  refine ⟨rfl, ?_⟩
  rw [CStrings.text_snprintf _ _ _ (by omega), htake, List.take_zero, List.nil_append,
    List.take_of_length_le]
  rw [show (ascii "END\n").length = 4 from rfl]
  omega

end Socks5d
