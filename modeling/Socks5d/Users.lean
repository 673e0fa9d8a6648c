import Socks5d.Listings
import Socks5d.Lib.ChainedTable
import Mathlib.Data.Finmap

/-!
# The user table as a finite map

Every sequence of calls after `auth_init` returns what a finite map from names to passwords
would return. The names and passwords are those that the arrays of an entry hold whole: a longer
name is cut after its hash was taken, and its entry is then looked for in another bucket.
-/

namespace Socks5d

open CStrings ChainedTable

/-- The finite map from names to passwords that the table stands for. -/
abbrev Credentials := Finmap fun _ : CString => CString

/-- A string that the arrays of an entry hold whole. -/
structure Storable (s : CString) : Prop where
  nul_free : ∀ c ∈ s, c ≠ 0
  length : s.length ≤ MAX_USERNAME_LEN - 1

/-- The calls of the table that a program makes after `auth_init`. -/
inductive AuthCall
  | addUser (username password : CString)
  | removeUser (username : CString)
  | checkCredentials (username password : CString)

namespace AuthCall

/-- The strings of a call can be stored. -/
def Strings : AuthCall → Prop
  | addUser username password => Storable username ∧ Storable password
  | removeUser username => Storable username
  | checkCredentials username password => Storable username ∧ Storable password

/-- What the code returns and leaves. -/
def run : AuthCall → UserTable → Bool × UserTable
  | addUser username password, users => authAddUser users username password
  | removeUser username, users => authRemoveUser users username
  | checkCredentials username password, users =>
      (authCheckCredentials users username password, users)

/-- What a finite map returns and becomes. -/
def spec : AuthCall → Credentials → Bool × Credentials
  | addUser username password, map =>
      if username ∈ map then (false, map) else (true, map.insert username password)
  | removeUser username, map =>
      if username ∈ map then (true, map.erase username) else (false, map)
  | checkCredentials username password, map =>
      (decide (map.lookup username = some password), map)

end AuthCall

/-- A sequence of calls, with their results in order. -/
def runCalls {S : Type} (step : AuthCall → S → Bool × S) : List AuthCall → S → List Bool × S
  | [], s => ([], s)
  | call :: calls, s =>
    let (result, s) := step call s
    let (results, s) := runCalls step calls s
    (result :: results, s)

/-- The entry of a name, in the chain of its hash. -/
abbrev UserTable.find (users : UserTable) (username : CString) : Option UserEntry :=
  ChainedTable.find UserEntry.username hash users username

/-- A table that stands for a map. -/
structure UserTable.Represents (users : UserTable) (map : Credentials) : Prop where
  chained : Chained UserEntry.username hash users
  lookup : ∀ username, (users.find username).map UserEntry.password = map.lookup username
  strings : ∀ i, ∀ e ∈ users i, Storable e.username ∧ Storable e.password

/-- The names, each on its line. -/
def nameLines (names : List CString) : List UInt8 :=
  (names.map fun username => username ++ CStrings.ascii "\n").flatten

/-- A listing that fits prints each of the names once, followed by the end mark. -/
def UserTable.Lists (users : UserTable) (names : List CString) : Prop :=
  ∀ response : List UInt8, (nameLines names).length + 4 < response.length →
    (authListUsers users response).1 = (nameLines names).length + 4 ∧
      text (authListUsers users response).2 = nameLines names ++ CStrings.ascii "END\n"

theorem hash_lt (str : CString) : hash str < HASHMAP_SIZE := Nat.mod_lt _ (by decide)

section Lookups

variable {users : UserTable} {map : Credentials} {username password : CString}

theorem represents_init : authInit.Represents ∅ where
  chained := chained_empty _ _
  lookup username := by simp [UserTable.find, ChainedTable.find, authInit]
  strings := by simp [authInit]

/-- The chain of its hash holds a name exactly when the map does. -/
theorem UserTable.Represents.any_iff (h : users.Represents map) :
    ((users (hash username)).any fun curr => curr.username == username) = true ↔
      username ∈ map := by
  rw [Finmap.mem_iff, ← h.lookup, List.any_eq_true]
  constructor
  · rintro ⟨e, hmem, hname⟩
    have hfind : users.find username = some e :=
      h.chained.find_eq_some_iff.mpr ⟨hmem, by simpa using hname⟩
    exact ⟨e.password, by rw [hfind, Option.map_some]⟩
  · rintro ⟨password, hlookup⟩
    obtain ⟨e, hfind, -⟩ := Option.map_eq_some_iff.mp hlookup
    obtain ⟨hmem, hname⟩ := h.chained.find_eq_some_iff.mp hfind
    exact ⟨e, hmem, by simpa using hname⟩

theorem UserTable.Represents.check (h : users.Represents map) :
    authCheckCredentials users username password =
      decide (map.lookup username = some password) := by
  rw [Bool.eq_iff_iff, decide_eq_true_iff, ← h.lookup, authCheckCredentials, List.any_eq_true,
    Option.map_eq_some_iff]
  constructor
  · rintro ⟨e, hmem, hboth⟩
    rw [Bool.and_eq_true, beq_iff_eq, beq_iff_eq] at hboth
    exact ⟨e, h.chained.find_eq_some_iff.mpr ⟨hmem, hboth.1⟩, hboth.2⟩
  · rintro ⟨e, hfind, hpassword⟩
    obtain ⟨hmem, hname⟩ := h.chained.find_eq_some_iff.mp hfind
    exact ⟨e, hmem, by simp [hname, hpassword]⟩

/-- A name that is absent is inserted; one that is present changes nothing. -/
theorem UserTable.Represents.add (h : users.Represents map) (hname : Storable username)
    (hpassword : Storable password) :
    ((AuthCall.addUser username password).run users).1 =
        ((AuthCall.addUser username password).spec map).1 ∧
      ((AuthCall.addUser username password).run users).2.Represents
        ((AuthCall.addUser username password).spec map).2 := by
  simp only [AuthCall.run, AuthCall.spec, authAddUser]
  by_cases hmem : username ∈ map
  · rw [if_pos (h.any_iff.mpr hmem), if_pos hmem]
    exact ⟨rfl, h⟩
  · rw [if_neg (mt h.any_iff.mp hmem), if_neg hmem]
    refine ⟨rfl, ?_⟩
    have hpassword' : password.take (MAX_PASSWORD_LEN - 1) = password :=
      List.take_of_length_le hpassword.length
    rw [List.take_of_length_le hname.length, hpassword']
    dsimp only
    have hnew : users.find username = none := by
      rw [← Option.map_eq_none_iff, h.lookup, Finmap.lookup_eq_none]
      exact hmem
    constructor
    · exact h.chained.insert (e := ⟨username, password⟩) hnew
    · intro other
      have hfind : UserTable.find (Function.update users (hash username)
          (⟨username, password⟩ :: users (hash username))) other =
          if username = other then some ⟨username, password⟩ else users.find other :=
        find_insert users ⟨username, password⟩ other
      rw [hfind]
      by_cases hother : username = other
      · rw [if_pos hother, ← hother, Finmap.lookup_insert, Option.map_some]
      · rw [if_neg hother, Finmap.lookup_insert_of_ne _ (Ne.symm hother)]
        exact h.lookup other
    · intro i e he
      by_cases hi : i = hash username
      · rw [hi, Function.update_self] at he
        rcases List.mem_cons.mp he with rfl | hold
        · exact ⟨hname, hpassword⟩
        · exact h.strings _ e hold
      · rw [Function.update_of_ne hi] at he
        exact h.strings i e he

/-- A name that is present is deleted; one that is absent changes nothing. -/
theorem UserTable.Represents.remove (h : users.Represents map) :
    ((AuthCall.removeUser username).run users).1 =
        ((AuthCall.removeUser username).spec map).1 ∧
      ((AuthCall.removeUser username).run users).2.Represents
        ((AuthCall.removeUser username).spec map).2 := by
  simp only [AuthCall.run, AuthCall.spec, authRemoveUser]
  by_cases hmem : username ∈ map
  · rw [if_pos (h.any_iff.mpr hmem), if_pos hmem]
    refine ⟨rfl, ?_⟩
    have herase : Function.update users (hash username)
        ((users (hash username)).eraseP fun curr => curr.username == username) =
        erase UserEntry.username hash users username := by
      simp only [erase, beq_eq_decide]
    dsimp only
    rw [herase]
    constructor
    · exact h.chained.erase username
    · intro other
      rw [UserTable.find, h.chained.find_erase]
      by_cases hother : username = other
      · rw [if_pos hother, ← hother, Finmap.lookup_erase, Option.map_none]
      · rw [if_neg hother, Finmap.lookup_erase_ne (Ne.symm hother)]
        exact h.lookup other
    · intro i e he
      rw [erase] at he
      by_cases hi : i = hash username
      · rw [hi, Function.update_self] at he
        exact h.strings _ e (List.mem_of_mem_eraseP he)
      · rw [Function.update_of_ne hi] at he
        exact h.strings i e he
  · rw [if_neg (mt h.any_iff.mp hmem), if_neg hmem]
    exact ⟨rfl, h⟩

/-- One call returns what the map returns, and the table then stands for what the map became. -/
theorem UserTable.Represents.run (h : users.Represents map) {call : AuthCall}
    (hstrings : call.Strings) :
    (call.run users).1 = (call.spec map).1 ∧ (call.run users).2.Represents (call.spec map).2 := by
  cases call with
  | addUser username password => exact h.add hstrings.1 hstrings.2
  | removeUser username => exact h.remove
  | checkCredentials username password => exact ⟨h.check, h⟩

/-- The names of all entries, in the order in which they are listed. -/
def UserTable.names (users : UserTable) : List CString :=
  (entries users HASHMAP_SIZE).map UserEntry.username

theorem UserTable.Represents.nodup_names (h : users.Represents map) : users.names.Nodup :=
  h.chained.nodup_entries HASHMAP_SIZE

theorem UserTable.Represents.mem_names_iff (h : users.Represents map) :
    username ∈ users.names ↔ username ∈ map := by
  rw [Finmap.mem_iff, ← h.lookup, UserTable.names, List.mem_map]
  constructor
  · rintro ⟨e, hmem, rfl⟩
    have hfind : users.find e.username = some e := (h.chained.mem_entries_iff hash_lt).mp hmem
    exact ⟨e.password, by rw [hfind, Option.map_some]⟩
  · rintro ⟨password, hlookup⟩
    obtain ⟨e, hfind, -⟩ := Option.map_eq_some_iff.mp hlookup
    obtain ⟨-, rfl⟩ := h.chained.find_eq_some_iff.mp hfind
    exact ⟨e, (h.chained.mem_entries_iff hash_lt).mpr hfind, rfl⟩

/-- The rows of the listing are the lines of the names. -/
theorem UserTable.Represents.userRows_flatten (h : users.Represents map) :
    (userRows users).flatten = nameLines users.names := by
  have hrow : ∀ e ∈ entries users HASHMAP_SIZE,
      text e.username ++ CStrings.ascii "\n" = e.username ++ CStrings.ascii "\n" := by
    intro e he
    obtain ⟨i, -, hmem⟩ := List.mem_flatMap.mp he
    rw [text_eq_self (h.strings i e hmem).1.nul_free]
  rw [nameLines, UserTable.names, List.map_map, userRows, ← List.map_flatMap]
  exact congrArg List.flatten (List.map_congr_left hrow)

theorem UserTable.Represents.lists (h : users.Represents map) : users.Lists users.names := by
  intro response hfit
  rw [← h.userRows_flatten] at hfit ⊢
  obtain ⟨hcount, htext⟩ := authListUsers_of_fits users hfit
  refine ⟨hcount, ?_⟩
  rw [htext, text_eq_self]
  intro c hc
  rw [h.userRows_flatten] at hc
  rcases List.mem_append.mp hc with hline | hend
  · obtain ⟨line, hline, hc⟩ := List.mem_flatten.mp hline
    obtain ⟨username, hname, rfl⟩ := List.mem_map.mp hline
    obtain ⟨e, he, rfl⟩ := List.mem_map.mp hname
    obtain ⟨i, -, hmem⟩ := List.mem_flatMap.mp he
    rcases List.mem_append.mp hc with hbyte | hnewline
    · exact (h.strings i e hmem).1.nul_free c hbyte
    · have hmark : ∀ c ∈ CStrings.ascii "\n", c ≠ 0 := by decide +kernel
      exact hmark c hnewline
  · have hmark : ∀ c ∈ CStrings.ascii "END\n", c ≠ 0 := by decide +kernel
    exact hmark c hend

end Lookups

/-- What a sequence of calls shows and leaves, against what a finite map shows and becomes. -/
structure RefinesMap (code : List Bool × UserTable) (map : List Bool × Credentials) : Prop where
  /-- Every call returned what the map returned. -/
  results : code.1 = map.1
  /-- A name is sent to the password of its entry. -/
  lookup : ∀ username, (code.2.find username).map UserEntry.password = map.2.lookup username
  /-- Every entry lies in the bucket of its own name's hash. -/
  placed : ∀ i, ∀ e ∈ code.2 i, hash e.username = i
  /-- No name occurs twice. -/
  unique : code.2.names.Nodup
  /-- The names are those of the map. -/
  names : ∀ username, username ∈ code.2.names ↔ username ∈ map.2
  /-- A listing that fits prints each of them once. -/
  listing : code.2.Lists code.2.names

theorem runCalls_represents (calls : List AuthCall) {users : UserTable} {map : Credentials}
    (h : users.Represents map) (hstrings : ∀ call ∈ calls, call.Strings) :
    (runCalls AuthCall.run calls users).1 = (runCalls AuthCall.spec calls map).1 ∧
      (runCalls AuthCall.run calls users).2.Represents (runCalls AuthCall.spec calls map).2 := by
  induction calls generalizing users map with
  | nil => exact ⟨rfl, h⟩
  | cons call calls ih =>
    obtain ⟨hresult, hnext⟩ := h.run (hstrings call List.mem_cons_self)
    obtain ⟨hresults, hlast⟩ := ih hnext fun c hc => hstrings c (List.mem_cons_of_mem _ hc)
    simp only [runCalls]
    exact ⟨by rw [hresult, hresults], hlast⟩

/-- After `auth_init` the table behaves as a finite map, whatever calls are made. -/
theorem users_refine_map (calls : List AuthCall) (hstrings : ∀ call ∈ calls, call.Strings) :
    RefinesMap (runCalls AuthCall.run calls authInit) (runCalls AuthCall.spec calls ∅) := by
  obtain ⟨hresults, h⟩ := runCalls_represents calls represents_init hstrings
  exact ⟨hresults, h.lookup, h.chained.placed, h.nodup_names, fun _ => h.mem_names_iff, h.lists⟩

/-- A second user `ana` is refused, the first one checked, removed and then refused. -/
theorem users_refine_map_ana :
    RefinesMap
      (runCalls AuthCall.run [.addUser (CStrings.ascii "ana") (CStrings.ascii "x"), .addUser (CStrings.ascii "ana") [],
        .checkCredentials (CStrings.ascii "ana") (CStrings.ascii "x"), .removeUser (CStrings.ascii "ana"),
        .checkCredentials (CStrings.ascii "ana") (CStrings.ascii "x")] authInit)
      (runCalls AuthCall.spec [.addUser (CStrings.ascii "ana") (CStrings.ascii "x"), .addUser (CStrings.ascii "ana") [],
        .checkCredentials (CStrings.ascii "ana") (CStrings.ascii "x"), .removeUser (CStrings.ascii "ana"),
        .checkCredentials (CStrings.ascii "ana") (CStrings.ascii "x")] ∅) := by
  have hana : Storable (CStrings.ascii "ana") := ⟨by decide +kernel, by decide +kernel⟩
  have hx : Storable (CStrings.ascii "x") := ⟨by decide +kernel, by decide +kernel⟩
  have hempty : Storable [] := ⟨by simp, by simp⟩
  apply users_refine_map
  simp [AuthCall.Strings, hana, hx, hempty]

end Socks5d
