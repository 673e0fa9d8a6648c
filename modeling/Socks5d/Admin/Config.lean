import Socks5d.Admin.Parser
import Socks5d.Listings
import Socks5d.Server

/-!
# The commands of `config.c`

A handler reads the parsed command, changes the server data and writes into the response area
it is given. The reply is the string in that area afterwards, so what a handler leaves in the
area behind the terminating zero is kept but never sent.
-/

namespace Socks5d

open CStrings

/-- The levels of `logger.h`. -/
inductive LogLevel
  | debug
  | info
  | warning
  | error
  deriving DecidableEq, Repr

/-- What the commands read and change: `server_data_t`, the user table and the log level. -/
structure ServerData where
  users : UserTable
  logLevel : LogLevel
  metrics : ServerMetrics
  accessRegister : AccessRegister
  bufferSize : ℕ
  maxConn : ℕ

def getLogLevelString : LogLevel → CString
  | .debug => ascii "DEBUG"
  | .info => ascii "INFO"
  | .warning => ascii "WARNING"
  | .error => ascii "ERROR"

def setLogLevel (data : ServerData) (level : LogLevel) : ServerData :=
  { data with logLevel := level }

def setBufferSize (data : ServerData) (size : ℤ) : ℤ × ServerData :=
  if size < BUFF_MIN_LEN then (-1, data) else (0, { data with bufferSize := size.toNat })

def setMaxConn (data : ServerData) (maxConn : ℤ) : ℤ × ServerData :=
  if maxConn < 1 then (-1, data) else (0, { data with maxConn := maxConn.toNat })

def metricsPrint (metrics : ServerMetrics) (buffer : List UInt8) : List UInt8 :=
  snprintf buffer 0
    (ascii "CONNECTED: " ++ decimal metrics.currentConnections.toNat ++
      ascii "\nHISTORICAL: " ++ decimal metrics.totalConnections.toNat ++
      ascii "\nBYTES: " ++ decimal metrics.bytesTransferred.toNat ++
      ascii "\nERRORS: " ++ decimal metrics.errors.toNat ++ ascii "\nEND\n")

def okReply : List UInt8 := ascii "OK\n"

def handleAddUser (parsed : S5adminCmdParsed) (data : ServerData) (response : List UInt8) :
    ServerData × List UInt8 :=
  let (added, users) := authAddUser data.users parsed.arg1Text parsed.arg2Text
  if added then ({ data with users := users }, snprintf response 0 okReply)
  else ({ data with users := users },
    snprintf response 0 (ascii "ERROR: " ++ parsed.arg1Text ++ ascii " already exists\n"))

def handleRemoveUser (parsed : S5adminCmdParsed) (data : ServerData) (response : List UInt8) :
    ServerData × List UInt8 :=
  let (removed, users) := authRemoveUser data.users parsed.arg1Text
  if removed then ({ data with users := users }, snprintf response 0 okReply)
  else ({ data with users := users },
    snprintf response 0 (ascii "ERROR: " ++ parsed.arg1Text ++ ascii " not found\n"))

def handleListUsers (_ : S5adminCmdParsed) (data : ServerData) (response : List UInt8) :
    ServerData × List UInt8 :=
  (data, (authListUsers data.users response).2)

def handleGetMetrics (_ : S5adminCmdParsed) (data : ServerData) (response : List UInt8) :
    ServerData × List UInt8 :=
  (data, metricsPrint data.metrics response)

def handleGetAccessRegister (_ : S5adminCmdParsed) (data : ServerData) (response : List UInt8) :
    ServerData × List UInt8 :=
  (data, (accessRegisterPrint data.accessRegister response).2)

def handleSetLoglevel (parsed : S5adminCmdParsed) (data : ServerData) (response : List UInt8) :
    ServerData × List UInt8 :=
  if parsed.arg1Text = ascii "DEBUG" then (setLogLevel data .debug, snprintf response 0 okReply)
  else if parsed.arg1Text = ascii "INFO" then (setLogLevel data .info, snprintf response 0 okReply)
  else if parsed.arg1Text = ascii "WARNING" then
    (setLogLevel data .warning, snprintf response 0 okReply)
  else if parsed.arg1Text = ascii "ERROR" then
    (setLogLevel data .error, snprintf response 0 okReply)
  else (data, snprintf response 0 (ascii "ERROR: invalid log level\n"))

def handleSetMaxConn (parsed : S5adminCmdParsed) (data : ServerData) (response : List UInt8) :
    ServerData × List UInt8 :=
  let (status, data) := setMaxConn data (atoi parsed.arg1Text)
  if status = 0 then (data, snprintf response 0 okReply)
  else (data, snprintf response 0 (ascii "ERROR: max connections must be at least 1\n"))

def handleSetBuff (parsed : S5adminCmdParsed) (data : ServerData) (response : List UInt8) :
    ServerData × List UInt8 :=
  let (status, data) := setBufferSize data (atoi parsed.arg1Text)
  if status = 0 then (data, snprintf response 0 okReply)
  else
    (data, snprintf response 0
      (ascii "ERROR: buffer size must be at least " ++ decimal BUFF_MIN_LEN ++ ascii " bytes\n"))

/-- The settings are unsigned but printed with `%d`; both were set from a positive `int`. -/
def handleGetConfig (_ : S5adminCmdParsed) (data : ServerData) (response : List UInt8) :
    ServerData × List UInt8 :=
  (data, snprintf response 0
    (ascii "LOG_LEVEL: " ++ getLogLevelString data.logLevel ++
      ascii "\nBUFFER_SIZE: " ++ decimal data.bufferSize ++
      ascii "B\nMAX_CONN: " ++ decimal data.maxConn ++ ascii "\nEND\n"))

def helpText : List UInt8 :=
  ascii "ADD_USER <username> <password>\nREMOVE_USER <username>\nLIST_USERS\nGET_METRICS\n" ++
  ascii "GET_ACCESS_REGISTER\nSET_LOGLEVEL <DEBUG|INFO|WARNING|ERROR>\n" ++
  ascii "SET_MAX_CONN <quantity>\nSET_BUFF <bytes>\nGET_CONFIG\nHELP\nPING\nEXIT\nEND\n"

def handleHelp (_ : S5adminCmdParsed) (data : ServerData) (response : List UInt8) :
    ServerData × List UInt8 :=
  (data, snprintf response 0 helpText)

def handlePing (_ : S5adminCmdParsed) (data : ServerData) (response : List UInt8) :
    ServerData × List UInt8 :=
  (data, snprintf response 0 (ascii "PONG\n"))

def handleExit (_ : S5adminCmdParsed) (data : ServerData) (response : List UInt8) :
    ServerData × List UInt8 :=
  (data, snprintf response 0 (ascii "BYE\n"))

/-- The table of handlers, and the reply to a line that was refused. -/
def commandHandlers : S5adminCommand → S5adminCmdParsed → ServerData → List UInt8 →
    ServerData × List UInt8
  | .addUser => handleAddUser
  | .removeUser => handleRemoveUser
  | .listUsers => handleListUsers
  | .getMetrics => handleGetMetrics
  | .getAccessRegister => handleGetAccessRegister
  | .setLoglevel => handleSetLoglevel
  | .setMaxConn => handleSetMaxConn
  | .setBuff => handleSetBuff
  | .getConfig => handleGetConfig
  | .help => handleHelp
  | .ping => handlePing
  | .exit => handleExit
  | .invalid => fun parsed data response =>
    (data, snprintf response 0 (ascii "ERROR: " ++ parsed.arg1Text ++ ascii "\n"))

/-- What `config_handler` leaves behind: the static record, the server data, the line as
`strtok_r` cut it, the response area and the length of the reply. -/
structure ConfigResult where
  parsed : S5adminCmdParsed
  data : ServerData
  cmd : List UInt8
  response : List UInt8
  result : ℤ

def configHandler (parsed : S5adminCmdParsed) (data : ServerData) (cmd response : List UInt8) :
    Except Fault ConfigResult := do
  let (parsed, scan) ← s5adminParseCommand parsed cmd
  let (data, response) := commandHandlers parsed.cmd parsed data response
  return ⟨parsed, data, scan.mem, response, (text response).length⟩

/-- The bytes sent for a command. -/
def ConfigResult.reply (r : ConfigResult) : List UInt8 := text r.response

end Socks5d
