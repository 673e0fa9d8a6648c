import Socks5d.Basic

/-!
# The user table of `auth_table.c`

Names and passwords are C strings, so equality of lists is `strcmp`. The hash adds each
character as a signed `char`, as on the platforms the project targets.
-/

namespace Socks5d

def HASHMAP_SIZE : ℕ := 1031

structure UserEntry where
  username : CString
  password : CString
  deriving DecidableEq, Repr

/-- The chains of the table, by bucket. -/
abbrev UserTable := ℕ → List UserEntry

/-- A `char` widened to `unsigned long`. -/
def widenChar (c : UInt8) : UInt64 :=
  if c < 128 then c.toUInt64 else c.toUInt64 - 256

/-- The djb2 hash in 64-bit arithmetic, reduced to a bucket. -/
def hash (str : CString) : ℕ :=
  (str.foldl (fun (h : UInt64) c => ((h <<< 5) + h) + widenChar c) 5381).toNat % HASHMAP_SIZE

def authInit : UserTable := fun _ => []

def authCheckCredentials (users : UserTable) (username password : CString) : Bool :=
  (users (hash username)).any fun curr =>
    curr.username == username && curr.password == password

/-- Insertion at the head of the chain; the copies are bounded as `strncpy` bounds them. -/
def authAddUser (users : UserTable) (username password : CString) : Bool × UserTable :=
  let h := hash username
  if (users h).any fun curr => curr.username == username then (false, users)
  else
    let newUser : UserEntry :=
      { username := username.take (MAX_USERNAME_LEN - 1)
        password := password.take (MAX_PASSWORD_LEN - 1) }
    (true, Function.update users h (newUser :: users h))

/-- Deletion of the first entry of the chain with that name. -/
def authRemoveUser (users : UserTable) (username : CString) : Bool × UserTable :=
  let h := hash username
  if (users h).any fun curr => curr.username == username then
    (true, Function.update users h ((users h).eraseP fun curr => curr.username == username))
  else (false, users)

end Socks5d
