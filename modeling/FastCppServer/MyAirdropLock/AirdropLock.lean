import Mathlib.Algebra.Group.Int.Defs
import FastCppServer.Lib.Since
import FastCppServer.Lib.Transition
import FastCppServer.MyData.Json

/-!
# The airdrop lock

`AirdropLockManager`: one lock behind a serial port, and what is reported of it. Each operation
holds the mutex of the manager, so it is one step. What is outside is a label: whether the port can
be opened, and what becomes of a write. A write puts so many bytes on the line and returns their
number, or it throws.

The manager keeps a state of its own, and does not read back from the device. Here it keeps a log as
well, of what it has put on the line and what that meant in the configuration of the time.
-/

namespace MyAirdropLock

open MyData Transition

/-! ## Texts -/

/-- `TrimCopy`. -/
def trimCopy (value : String) : String :=
  let blank (c : Char) : Bool := c = ' ' || c = '\t' || c = '\r' || c = '\n'
  .ofList ((value.toList.dropWhile blank).reverse.dropWhile blank).reverse

/-- `std::isdigit`. -/
def isDigit (c : Char) : Bool := '0' ≤ c && c ≤ '9'

/-- `std::stoi`. -/
def stoi (value : String) : Except String Int32 :=
  let space (c : Char) : Bool := c = ' ' || ('\t' ≤ c && c ≤ '\r')
  let read (sign : Int) (digits : List Char) : Except String Int32 :=
    let digits := digits.takeWhile isDigit
    let n := sign * digits.foldl (fun n c => 10 * n + (c.toNat - '0'.toNat : Int)) 0
    if digits = [] ∨ n < -2 ^ 31 ∨ 2 ^ 31 ≤ n then .error "stoi" else .ok (Int32.ofInt n)
  match value.toList.dropWhile space with
  | '-' :: digits => read (-1) digits
  | '+' :: digits => read 1 digits
  | digits => read 1 digits

/-- `IsAsciiCommand`. -/
def isAsciiCommand (command : String) : Bool :=
  command ≠ "" && command.toList.all fun c => ' ' ≤ c && c ≤ '~'

/-- `NormalizeDutyCycleCommand`, or what it throws. -/
def normalizeDutyCycleCommand (dutyCycle : String) : Except String String :=
  match (trimCopy dutyCycle).toList with
  | [] => .error "占空比/频率不能为空"
  | c :: rest =>
    let value := if c = 'F' ∨ c = 'f' then rest else c :: rest
    if value = [] ∨ ¬ value.all isDigit then .error "占空比/频率必须是数字，示例：50 或 F050"
    else
      match stoi (.ofList value) with
      | .error what => .error what
      | .ok n =>
        if n < 0 ∨ 999 < n then .error "占空比/频率范围必须在 0~999 之间"
        else
          let digits := (toString n.toInt).toList
          .ok (.ofList ('F' :: (List.replicate (3 - digits.length) '0' ++ digits)))

/-! ## The configuration -/

structure Config where
  enabled : Bool := false
  device : String := "/dev/ttyUSB0"
  baudRate : Int32 := 9600
  dataBits : Int32 := 8
  stopBits : Int32 := 1
  defaultPwmFrequency : String := "50"
  openCmd : String := "D005"
  lockCmd : String := "D010"

/-- `JsonStringOrNumber`. The text of a `double` is a parameter. -/
def jsonStringOrNumber (dump : UInt64 → String) (json : Json) (key dflt : String) :
    Except String String :=
  match json.find key with
  | none | some .null => .ok dflt
  | some (.string value) => .ok value
  | some (.integer value) => .ok (toString value)
  | some (.float bits) => .ok (dump bits)
  | some _ => .error ("字段 " ++ key ++ " 必须是字符串或数字")

/-- `JsonIntValue`. -/
def jsonIntValue (json : Json) (key : String) (dflt : Int32) : Except String Int32 :=
  match json.find key with
  | none | some .null => .ok dflt
  | some (.integer value) => .ok (Int32.ofInt value)
  | some (.string value) => stoi value
  | some _ => .error ("字段 " ++ key ++ " 必须是整数或整数字符串")

/-- `type_name()`, in what `value` throws. -/
def typeName : Json → String
  | .null => "null"
  | .boolean _ => "boolean"
  | .integer _ | .float _ => "number"
  | .string _ => "string"
  | .array _ => "array"
  | .object _ => "object"

/-- `ParseConfig`, or what it throws. -/
def parseConfig (dump : UInt64 → String) (config : Json) : Except String Config :=
  if !config.isObject then .error "空投锁初始化参数必须是 JSON 对象"
  else do
    let enabled ←
      match config.find "enabled" with
      | none => .ok false
      | some (.boolean value) => .ok value
      | some value =>
        .error ("[json.exception.type_error.302] type must be boolean, but is " ++ typeName value)
    let device ← jsonStringOrNumber dump config "device" "/dev/ttyUSB0"
    let baudRate ← jsonIntValue config "baud_rate" 9600
    let dataBits ← jsonIntValue config "data_bits" 8
    let stopBits ← jsonIntValue config "stop_bits" 1
    let defaultPwmFrequency ← jsonStringOrNumber dump config "default_PWM_frequency" "50"
    let openCmd ← jsonStringOrNumber dump config "open_cmd" "D005"
    let lockCmd ← jsonStringOrNumber dump config "lock_cmd" "D010"
    let parsed : Config := {
      enabled, device := trimCopy device, baudRate, dataBits, stopBits
      defaultPwmFrequency := trimCopy defaultPwmFrequency
      openCmd := trimCopy openCmd, lockCmd := trimCopy lockCmd }
    if parsed.enabled && parsed.device = "" then .error "enabled=true 时 device 不能为空"
    else if parsed.baudRate ≤ 0 then .error "baud_rate 必须大于 0"
    else if parsed.dataBits < 5 ∨ 8 < parsed.dataBits then .error "data_bits 必须在 5~8 范围内"
    else if parsed.stopBits ≠ 1 ∧ parsed.stopBits ≠ 2 then .error "stop_bits 当前仅支持 1 或 2"
    else if !isAsciiCommand parsed.openCmd || !isAsciiCommand parsed.lockCmd then
      .error "open_cmd 和 lock_cmd 必须是非空可打印 ASCII 命令"
    else .ok parsed

/-! ## The manager -/

/-- `AirdropLockState`. -/
inductive State where
  | uninitialized
  | disabled
  | closed
  | opened
  | error
  deriving DecidableEq

/-- `StateToString`. -/
def State.toString : State → String
  | uninitialized => "uninitialized"
  | disabled => "disabled"
  | closed => "closed"
  | opened => "open"
  | error => "error"

/-- What becomes of a write: it puts `sent` bytes on the line and returns their number, or
throws. -/
inductive Outcome where
  | returns (sent : Nat)
  | throws (what : String) (sent : Nat)

namespace Outcome

def sent : Outcome → Nat
  | returns sent | throws _ sent => sent

/-- What `MySerial::Write` returns, and its `err`. -/
def written : Outcome → Nat
  | returns sent => sent
  | throws _ _ => 0

def error : Outcome → String
  | returns _ => ""
  | throws what _ => what

/-- The command has gone through, as far as the manager can tell. -/
def succeeds (o : Outcome) (command : String) : Bool :=
  o.error = "" && o.written = command.length

end Outcome

/-- What has been put on the line, and the two commands of the configuration of that time. -/
structure Write where
  port : String
  command : String
  sent : Nat
  openCmd : String
  lockCmd : String

namespace Write

def complete (w : Write) : Prop := w.command.length ≤ w.sent

/-- At least a part of the `open_cmd`. -/
def opens (port : String) (w : Write) : Prop :=
  w.port = port ∧ w.command = w.openCmd ∧ 0 < w.sent

/-- The whole of the `open_cmd`. -/
def opensFully (port : String) (w : Write) : Prop :=
  w.port = port ∧ w.command = w.openCmd ∧ w.complete

/-- The whole of the `lock_cmd`. -/
def locks (port : String) (w : Write) : Prop :=
  w.port = port ∧ w.command = w.lockCmd ∧ w.complete

instance (w : Write) : Decidable w.complete := inferInstanceAs (Decidable (_ ≤ _))
instance (port : String) : DecidablePred (opens port) := fun _ =>
  inferInstanceAs (Decidable (_ ∧ _))
instance (port : String) : DecidablePred (opensFully port) :=
  fun _ => inferInstanceAs (Decidable (_ ∧ _))
instance (port : String) : DecidablePred (locks port) := fun _ =>
  inferInstanceAs (Decidable (_ ∧ _))

end Write

/-- `AirdropLockManager`. The port is that of `serial_`, as long as it is open. -/
structure Manager where
  initialized : Bool := false
  state : State := .uninitialized
  config : Config := {}
  initConfig : Json := .object []
  lastError : String := ""
  lastCommand : String := ""
  currentDutyCycle : String := ""
  port : Option String := none
  log : List Write := []

/-- What `GetStatus` reports, but for the two configurations. -/
structure Status where
  initialized : Bool
  enabled : Bool
  state : String
  isOpen : Bool
  serialOpen : Bool
  currentDutyCycle : String
  lastCommand : String
  lastError : String

namespace Manager

def getStatus (m : Manager) : Status where
  initialized := m.initialized
  enabled := m.config.enabled
  state := m.state.toString
  isOpen := m.state = .opened
  serialOpen := m.port.isSome
  currentDutyCycle := m.currentDutyCycle
  lastCommand := m.lastCommand
  lastError := m.lastError

/-- `SetErrorLocked`. -/
def setError (m : Manager) (error : String) : Manager :=
  { m with lastError := error, state := if m.config.enabled then .error else .disabled }

/-- The settings of an `Init`, before it comes to the port. -/
def configure (m : Manager) (config : Json) (cfg : Config) : Manager :=
  { m with
    config := cfg
    initConfig := config
    lastError := ""
    lastCommand := ""
    currentDutyCycle := ""
    initialized := false
    state := if cfg.enabled then .closed else .disabled }

/-- `Init`. The port cannot be opened where there is a `failure`; the one before is closed. -/
def init (dump : UInt64 → String) (m : Manager) (config : Json) (failure : Option String) :
    Bool × Manager :=
  match parseConfig dump config with
  | .error what => (false, m.setError what)
  | .ok cfg =>
    if !cfg.enabled then (true, { m.configure config cfg with port := none, initialized := true })
    else
      match failure with
      | some error =>
        (false,
          setError { m.configure config cfg with port := none } ("串口初始化失败: " ++ error))
      | none =>
        (true,
          { m.configure config cfg with
            port := some cfg.device, initialized := true, state := .closed })

/-- `Start`. The protection at power-on is commented out. -/
def start (m : Manager) : Bool × Manager := (m.initialized, m)

def stop (m : Manager) : Bool × Manager :=
  (true, { m with port := none, initialized := false, state := .uninitialized })

/-- What a write puts on the line. -/
def write (m : Manager) (port command : String) (o : Outcome) : Write where
  port := port
  command := command
  sent := o.sent
  openCmd := m.config.openCmd
  lockCmd := m.config.lockCmd

/-- `SendCommandLocked`. -/
def sendCommandLocked (m : Manager) (command actionName : String) (o : Outcome) :
    Bool × Manager :=
  if !m.initialized && !"初始化".toList.isPrefixOf actionName.toList then
    (false, m.setError "空投锁管理器尚未初始化")
  else if !m.config.enabled then (false, m.setError "空投锁模块已禁用，拒绝下发设备命令")
  else
    match m.port with
    | none => (false, m.setError "空投锁串口未打开")
    | some port =>
      let m := { m with log := m.log ++ [m.write port command o] }
      if o.succeeds command then (true, { m with lastCommand := command, lastError := "" })
      else
        (false, m.setError ("命令发送失败，action=" ++ actionName ++ ", command=" ++ command ++
          ", written=" ++ toString o.written ++ ", error=" ++ o.error))

/-- `SetDutyCycle`. What it throws leaves the manager as it is. -/
def setDutyCycle (m : Manager) (dutyCycle : String) (o : Outcome) :
    Except String (Bool × Manager) :=
  match normalizeDutyCycleCommand dutyCycle with
  | .error what => .error what
  | .ok command =>
    match m.sendCommandLocked command "设置占空比/频率" o with
    | (false, m) => .ok (false, m)
    | (true, m) => .ok (true, { m with currentDutyCycle := trimCopy dutyCycle })

def openDropper (m : Manager) (o : Outcome) : Bool × Manager :=
  match m.sendCommandLocked m.config.openCmd "打开空投锁" o with
  | (false, m) => (false, m)
  | (true, m) => (true, { m with state := .opened })

def closeDropper (m : Manager) (o : Outcome) : Bool × Manager :=
  match m.sendCommandLocked m.config.lockCmd "关闭空投锁" o with
  | (false, m) => (false, m)
  | (true, m) => (true, { m with state := .closed })

end Manager

/-- The calls. -/
inductive Label where
  | init (config : Json) (failure : Option String)
  | start
  | setDutyCycle (dutyCycle : String) (o : Outcome)
  | openDropper (o : Outcome)
  | closeDropper (o : Outcome)
  | stop

def step (dump : UInt64 → String) (m : Manager) : Label → Option Manager
  | .init config failure => some (m.init dump config failure).2
  | .start => some m.start.2
  | .setDutyCycle dutyCycle o =>
    match m.setDutyCycle dutyCycle o with
    | .error _ => some m
    | .ok (_, m) => some m
  | .openDropper o => some (m.openDropper o).2
  | .closeDropper o => some (m.closeDropper o).2
  | .stop => some m.stop.2

end MyAirdropLock
