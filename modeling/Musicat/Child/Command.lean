import Mathlib.Algebra.Group.Nat.Defs
import Mathlib.Algebra.Ring.Int.Defs
import Musicat.Lib.Escape

/-!
# Commands of the child processes

The parent and its worker exchange commands: byte strings `key=value;key=value;`
in records of `CMD_BUFSIZE` bytes, padded with zero bytes. A backslash takes the
meaning out of the byte after it. `std::stoi` and `std::stoull` may throw, so
what assigns an option is an `Option`.
-/

namespace Musicat.Child

open Lib

abbrev Bytes := List UInt8

/-- The bytes of an ASCII literal. -/
def bytes (s : String) : Bytes := s.toList.map Char.toUInt8

/-- `CMD_BUFSIZE`. -/
def cmdBufsize : Nat := 8192

/-! ## Keys and options -/

/-- `command_execute_commands_t`. -/
def cmdCreateAudioProcessor : Bytes := bytes "cap"
def cmdShutdown : Bytes := bytes "shut"
def cmdCallYtdlp : Bytes := bytes "ytd"
def cmdCallSystem : Bytes := bytes "sys"
def cmdDlMusic : Bytes := bytes "dlm"

/-- `command_options_keys_t`. -/
def keyCommand : Bytes := bytes "cmd"
def keyFilePath : Bytes := bytes "fp"
def keyDebug : Bytes := bytes "dbg"
def keyId : Bytes := bytes "id"
def keyGuildId : Bytes := bytes "gid"
def keyReady : Bytes := bytes "rdy"
def keySeek : Bytes := bytes "sk"
def keyVolume : Bytes := bytes "vl"
def keyHelperChain : Bytes := bytes "ehl"
def keyForce : Bytes := bytes "frc"
def keyYtdlpUtilExe : Bytes := bytes "ytdex"
def keyYtdlpQuery : Bytes := bytes "ytdq"
def keyYtdlpMaxEntries : Bytes := bytes "ytdme"
def keyYtdlpLibPath : Bytes := bytes "ytdlibp"
def keyGnuplotCmd : Bytes := bytes "gplotcmd"
def keySysCmd : Bytes := bytes "syscmd"
def keySysMaxOutLen : Bytes := bytes "sysmol"
def keySysNoStderr : Bytes := bytes "sysns"
def keySysWStderrMark : Bytes := bytes "syswsm"

/-- `command_options_t`, with the values of `create_command_options`. -/
structure CommandOptions where
  command : Bytes := []
  filePath : Bytes := []
  debug : Bool := false
  id : Bytes := []
  pid : Int := -1
  parentReadFd : Int := -1
  parentWriteFd : Int := -1
  childReadFd : Int := -1
  childWriteFd : Int := -1
  audioStreamFifoPath : Bytes := []
  guildId : Bytes := []
  ready : Int := 0
  seek : Bytes := []
  audioStreamStdinPath : Bytes := []
  audioStreamStdoutPath : Bytes := []
  volume : Int := 100
  helperChain : Bytes := []
  force : Bool := false
  ytdlpUtilExe : Bytes := []
  ytdlpQuery : Bytes := []
  ytdlpMaxEntries : Int := -1
  ytdlpLibPath : Bytes := []
  gnuplotCmd : Bytes := []
  sysCmd : Bytes := []
  sysMaxOutLen : Nat := 10000
  sysNoStderr : Bool := false
  sysWStderrMark : Bool := false
  tsQueued : Int := 0
  deriving DecidableEq, Repr

def createCommandOptions : CommandOptions := {}

/-! ## Numbers -/

/-- `std::isspace` in the C locale. -/
def isSpace (c : UInt8) : Bool := c == 32 || 9 ≤ c && c ≤ 13

def isDigit (c : UInt8) : Bool := 48 ≤ c && c ≤ 57

/-- The sign and the magnitude of the number a text starts with, as `strtol` reads it in base
ten; `none` when there is no digit. -/
def strtol (s : Bytes) : Option (Bool × Nat) :=
  let s := s.dropWhile isSpace
  let (neg, s) :=
    match s with
    | 45 :: s => (true, s)
    | 43 :: s => (false, s)
    | s => (false, s)
  let digits := s.takeWhile isDigit
  if digits.isEmpty then none
  else some (neg, digits.foldl (fun n c => 10 * n + (c.toNat - 48)) 0)

/-- `std::stoi`. -/
def stoi (s : Bytes) : Option Int :=
  (strtol s).bind fun (neg, n) =>
    let i : Int := if neg then -n else n
    if -2 ^ 31 ≤ i ∧ i < 2 ^ 31 then some i else none

/-- `std::stoull`; a minus sign negates in the unsigned type. -/
def stoull (s : Bytes) : Option Nat :=
  (strtol s).bind fun (neg, n) =>
    if n < 2 ^ 64 then some (if neg then (2 ^ 64 - n) % 2 ^ 64 else n) else none

/-! ## Reading options -/

/-- `assign_command_option_key_value`; `none` when it throws. -/
def assignCommandOptionKeyValue (options : CommandOptions) (opt value : Bytes) :
    Option CommandOptions :=
  if opt = keyId then some { options with id := value }
  else if opt = keyCommand then some { options with command := value }
  else if opt = keyFilePath then some { options with filePath := value }
  else if opt = keyDebug then some { options with debug := value = bytes "1" }
  else if opt = keyGuildId then some { options with guildId := value }
  else if opt = keyReady then (stoi value).map fun ready => { options with ready }
  else if opt = keySeek then some { options with seek := value }
  else if opt = keyVolume then (stoi value).map fun volume => { options with volume }
  else if opt = keyHelperChain then
    some { options with helperChain := options.helperChain ++ bytes "@" ++ value ++ bytes "@" }
  else if opt = keyForce then some { options with force := value = bytes "1" }
  else if opt = keyYtdlpUtilExe then some { options with ytdlpUtilExe := value }
  else if opt = keyYtdlpQuery then some { options with ytdlpQuery := value }
  else if opt = keyYtdlpLibPath then some { options with ytdlpLibPath := value }
  else if opt = keyYtdlpMaxEntries then
    (stoi value).map fun ytdlpMaxEntries => { options with ytdlpMaxEntries }
  else if opt = keyGnuplotCmd then some { options with gnuplotCmd := value }
  else if opt = keySysCmd then some { options with sysCmd := value }
  else if opt = keySysMaxOutLen then
    if value.isEmpty then some { options with sysMaxOutLen := 1 }
    else (stoull value).map fun sysMaxOutLen => { options with sysMaxOutLen }
  else if opt = keySysNoStderr then some { options with sysNoStderr := value = bytes "1" }
  else if opt = keySysWStderrMark then some { options with sysWStderrMark := value = bytes "1" }
  else some options

def backslash : UInt8 := 92
def equals : UInt8 := 61
def semicolon : UInt8 := 59

/-- `should_sanitize`. -/
def shouldSanitize (c : UInt8) : Bool := c == backslash || c == equals || c == semicolon

/-- `sanitize_command_value`. -/
def sanitizeCommandValue (value : Bytes) : Bytes := escape backslash shouldSanitize value

/-- The loop of `sanitize_command_key_value`, with its `should_check`. -/
def sanitizeFrom : Bool → Bytes → Bytes
  | _, [] => []
  | shouldCheck, c :: cs =>
    if shouldCheck && shouldSanitize c then backslash :: c :: sanitizeFrom shouldCheck cs
    else c :: sanitizeFrom (shouldCheck || c == equals) cs

/-- `sanitize_command_key_value`. -/
def sanitizeCommandKeyValue (keyValue : Bytes) : Bytes := sanitizeFrom false keyValue

/-- What the loop of `set_option` has read. -/
structure OptionText where
  fillingValue : Bool := false
  opt : Bytes := []
  value : Bytes := []

def OptionText.add (t : OptionText) (c : UInt8) : OptionText :=
  if t.fillingValue then { t with value := t.value ++ [c] } else { t with opt := t.opt ++ [c] }

def OptionText.bare (t : OptionText) (c : UInt8) : OptionText :=
  if c = equals then { t with fillingValue := true } else t.add c

/-- `set_option`. -/
def setOption (options : CommandOptions) (cmdOption : Bytes) : Option CommandOptions :=
  let t := (scan backslash OptionText.bare OptionText.add false {} cmdOption).2
  assignCommandOptionKeyValue options t.opt t.value

/-- What the loop of `parse_command_to_options` has read: the options so far and `temp_str`;
`none` once an option has thrown. -/
abbrev ParseState := Option (CommandOptions × Bytes)

def ParseState.add (s : ParseState) (c : UInt8) : ParseState :=
  s.map fun (options, temp) => (options, temp ++ [c])

def ParseState.bare (s : ParseState) (c : UInt8) : ParseState :=
  if c = semicolon then
    s.bind fun (options, temp) =>
      (setOption options (sanitizeCommandKeyValue temp)).map (·, [])
  else s.add c

/-- `parse_command_to_options`. -/
def parseCommandToOptions (cmd : Bytes) (options : CommandOptions) : Option CommandOptions :=
  (scan backslash ParseState.bare ParseState.add false (some (options, [])) cmd).2.bind
    fun (options, temp) =>
      if temp.isEmpty then some options
      else setOption options (sanitizeCommandKeyValue temp)

/-! ## Writing commands -/

/-- `create_arg`. -/
def createArg (key value : Bytes) : Bytes := key ++ [equals] ++ value ++ [semicolon]

/-- `create_arg_sanitize_value`. -/
def createArgSanitizeValue (key value : Bytes) : Bytes :=
  createArg key (sanitizeCommandValue value)

/-- `get_exit_command`. -/
def getExitCommand (id : Bytes) : Bytes :=
  createArgSanitizeValue keyId id ++ createArg keyCommand cmdShutdown

/-- `cpy.resize (CMD_BUFSIZE, '\\0')`, for a command that fits. -/
def pad (cmd : Bytes) : Bytes := cmd ++ List.replicate (cmdBufsize - cmd.length) 0

/-- `write_command`: the bytes it writes, `none` when it refuses. -/
def writeCommand (cmd : Bytes) (writeFd : Int) : Option Bytes :=
  if writeFd < 0 then none else if cmd.length > cmdBufsize then none else some (pad cmd)

/-- A buffer read as a C string. -/
def cString (buf : Bytes) : Bytes := buf.takeWhile (· ≠ 0)

end Musicat.Child
