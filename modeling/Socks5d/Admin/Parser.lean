import Socks5d.Basic
import Socks5d.Lib.CStrings

/-!
# The command parser of `s5admin_parser.c`

The parsed command is one static record that every command overwrites in part. A string read
from it ends at the first zero, wherever that is: `strncpy` leaves none behind an argument of
256 bytes, so such a string runs on into the next array and then into whatever follows the
record.
-/

namespace Socks5d

open CStrings

def ARGS_LEN : ℕ := 256
def MAX_CMD_LEN : ℕ := 1024
def MAX_RESPONSE_LEN : ℕ := 1024 * 100

inductive S5adminCommand
  | addUser
  | removeUser
  | listUsers
  | getMetrics
  | getAccessRegister
  | setLoglevel
  | setMaxConn
  | setBuff
  | getConfig
  | help
  | ping
  | exit
  | invalid
  deriving DecidableEq, Repr

/-- The static record, with the memory behind it. -/
structure S5adminCmdParsed where
  cmd : S5adminCommand
  arg1 : List UInt8
  arg2 : List UInt8
  beyond : List UInt8
  arg1_length : arg1.length = ARGS_LEN
  arg2_length : arg2.length = ARGS_LEN
  deriving DecidableEq

/-- Static storage starts out as zeros. -/
def initialCmdParsed (beyond : List UInt8) : S5adminCmdParsed where
  cmd := .addUser
  arg1 := List.replicate ARGS_LEN 0
  arg2 := List.replicate ARGS_LEN 0
  beyond := beyond
  arg1_length := List.length_replicate
  arg2_length := List.length_replicate

/-- A row of the table of commands; the row's position is the command's number. -/
structure S5adminCmdInfo where
  cmd : S5adminCommand
  name : CString
  expectedArgs : ℕ
  deriving DecidableEq, Repr

def commands : List S5adminCmdInfo :=
  [⟨.addUser, ascii "ADD_USER", 2⟩, ⟨.removeUser, ascii "REMOVE_USER", 1⟩,
    ⟨.listUsers, ascii "LIST_USERS", 0⟩, ⟨.getMetrics, ascii "GET_METRICS", 0⟩,
    ⟨.getAccessRegister, ascii "GET_ACCESS_REGISTER", 0⟩,
    ⟨.setLoglevel, ascii "SET_LOGLEVEL", 1⟩, ⟨.setMaxConn, ascii "SET_MAX_CONN", 1⟩,
    ⟨.setBuff, ascii "SET_BUFF", 1⟩, ⟨.getConfig, ascii "GET_CONFIG", 0⟩,
    ⟨.help, ascii "HELP", 0⟩, ⟨.ping, ascii "PING", 0⟩, ⟨.exit, ascii "EXIT", 0⟩]

/-- The characters of the `strtok_r` delimiters. -/
def isSeparator (c : UInt8) : Bool := c == 32 || c == 13 || c == 10

/-- Why a command line is refused. -/
inductive Rejection
  | invalidCommand
  | missingArgument
  | tooManyArguments
  | argumentTooLong
  deriving DecidableEq, Repr

def Rejection.message : Rejection → CString
  | .invalidCommand => ascii "invalid command"
  | .missingArgument => ascii "missing argument"
  | .tooManyArguments => ascii "too many arguments"
  | .argumentTooLong => ascii "argument too long"

namespace S5adminCmdParsed

/-- The string at `arg1`. -/
def arg1Text (p : S5adminCmdParsed) : CString := text (p.arg1 ++ p.arg2 ++ p.beyond)

/-- The string at `arg2`. -/
def arg2Text (p : S5adminCmdParsed) : CString := text (p.arg2 ++ p.beyond)

/-- `strncpy(parsed->arg1, token, ARGS_LEN)`. -/
def setArg1 (p : S5adminCmdParsed) (token : CString) : S5adminCmdParsed :=
  { p with
    arg1 := strncpy p.arg1 token ARGS_LEN
    arg1_length := by rw [length_strncpy, p.arg1_length] }

/-- `strncpy(parsed->arg2, token, ARGS_LEN)`. -/
def setArg2 (p : S5adminCmdParsed) (token : CString) : S5adminCmdParsed :=
  { p with
    arg2 := strncpy p.arg2 token ARGS_LEN
    arg2_length := by rw [length_strncpy, p.arg2_length] }

/-- Mark the command invalid and leave the reason in `arg1`. -/
def reject (p : S5adminCmdParsed) (why : Rejection) : S5adminCmdParsed :=
  { p with
    cmd := .invalid
    arg1 := strcpy p.arg1 why.message
    arg1_length := by rw [length_strcpy, p.arg1_length] }

end S5adminCmdParsed

/-- The next token as an argument; one that is too long uses up the line. -/
def nextArgument (t : Scan) : Except Rejection CString × Scan :=
  match strtokR isSeparator t with
  | (none, t) => (.error .missingArgument, t)
  | (some token, t) =>
    if token.length > ARGS_LEN then (.error .argumentTooLong, strtokAll isSeparator t)
    else (.ok token, t)

/-- No token may follow the arguments. -/
def noMoreArguments (parsed : S5adminCmdParsed) (t : Scan) : S5adminCmdParsed × Scan :=
  match strtokR isSeparator t with
  | (some _, t) => (parsed.reject .tooManyArguments, t)
  | (none, t) => (parsed, t)

def s5adminParseCommandArgs (parsed : S5adminCmdParsed) (t : Scan) (expectedArgs : ℕ) :
    S5adminCmdParsed × Scan :=
  match expectedArgs with
  | 0 => noMoreArguments parsed t
  | 1 =>
    match nextArgument t with
    | (.error why, t) => (parsed.reject why, t)
    | (.ok token, t) => noMoreArguments (parsed.setArg1 token) t
  | 2 =>
    match nextArgument t with
    | (.error why, t) => (parsed.reject why, t)
    | (.ok token, t) =>
      let parsed := parsed.setArg1 token
      match nextArgument t with
      | (.error why, t) => (parsed.reject why, t)
      | (.ok token, t) => noMoreArguments (parsed.setArg2 token) t
  | _ => ({ parsed with cmd := .invalid }, t)

/-- Parse a line, which is the string at `cmd`; the scan holds the line as `strtok_r` left it.
A line without a token gives a null pointer to `strcmp`. -/
def s5adminParseCommand (parsed : S5adminCmdParsed) (cmd : CString) :
    Except Fault (S5adminCmdParsed × Scan) :=
  let parsed := parsed.reject .invalidCommand
  match strtokR isSeparator ⟨[], cmd⟩ with
  | (none, _) => .error .nullDeref
  | (some token, t) =>
    match commands.find? fun info => token == info.name with
    | some info => .ok (s5adminParseCommandArgs { parsed with cmd := info.cmd } t info.expectedArgs)
    | none => .ok ({ parsed with cmd := .invalid }, t)

end Socks5d
