import NetnsWatch.Text.Quoted

/-!
# Faults

Everything that can end a task with an error, as causes. Each cause has one message; texts inside a
message are quoted.
-/

namespace NetnsWatch

/-- Why the operating system refused a call. -/
inductive SystemError where
  | operationNotPermitted
  | noSuchFile
  | wouldBlock
  | permissionDenied
  | invalidArgument
  deriving DecidableEq, Repr

namespace SystemError

/-- The number of a refusal. -/
def code : SystemError → Nat
  | operationNotPermitted => 1
  | noSuchFile => 2
  | wouldBlock => 11
  | permissionDenied => 13
  | invalidArgument => 22

/-- The refusal with a given number, among those that occur. -/
def ofCode? (code : Nat) : Option SystemError :=
  [operationNotPermitted, noSuchFile, wouldBlock, permissionDenied, invalidArgument].find?
    (·.code = code)

/-- The class of a refusal. -/
def kind : SystemError → String
  | operationNotPermitted | permissionDenied => "PermissionDenied"
  | noSuchFile => "NotFound"
  | wouldBlock => "WouldBlock"
  | invalidArgument => "InvalidInput"

/-- The refusal in words. -/
def reason : SystemError → String
  | operationNotPermitted => "Operation not permitted"
  | noSuchFile => "No such file or directory"
  | wouldBlock => "Resource temporarily unavailable"
  | permissionDenied => "Permission denied"
  | invalidArgument => "Invalid argument"

/-- Number, class and words of a refusal. -/
def message (e : SystemError) : String :=
  "Os \x7b code: " ++ toString e.code ++ ", kind: " ++ e.kind ++ ", message: " ++
    Quoted.encode e.reason ++ " \x7d"

end SystemError

/-- A cause that ends a task with an error. -/
inductive Fault where
  /-- A cause in free words. -/
  | custom (text : String)
  /-- A value could not be sent because nobody receives any more. -/
  | send (text : String)
  /-- Nothing can be received because nobody sends any more. -/
  | disconnected
  /-- A kernel program is missing. -/
  | programNotFound
  /-- A kernel map is missing. -/
  | mapNotFound (name : String)
  /-- A ring cannot have this capacity. -/
  | invalidCapacity (capacity : UInt64)
  /-- Writers and reader of a ring disagree on its frames. -/
  | desync (position : UInt64) (reason : String)
  /-- A step of opening the notification channel was refused. -/
  | channelSetup (step : String) (cause : SystemError)
  /-- Any other call was refused. -/
  | system (cause : SystemError)
  deriving DecidableEq, Repr

namespace Fault

/-- The cause in words. -/
def message : Fault → String
  | custom text => "Custom(" ++ Quoted.encode text ++ ")"
  | send text => "EventSend(" ++ Quoted.encode text ++ ")"
  | disconnected => "EventRecv(Disconnected)"
  | programNotFound => "EbpfProgNotFound"
  | mapNotFound name => "EbpfMapNotFound(" ++ Quoted.encode name ++ ")"
  | invalidCapacity capacity => "InvalidCapacity(" ++ toString capacity.toNat ++ ")"
  | desync position reason =>
    "TransportDesync \x7b position: " ++ toString position.toNat ++ ", reason: " ++
      Quoted.encode reason ++ " \x7d"
  | channelSetup step cause =>
    "ChannelSetup \x7b step: " ++ Quoted.encode step ++ ", cause: " ++ cause.message ++ " \x7d"
  | system cause => "Io(" ++ cause.message ++ ")"

/-- A send on a channel whose receiver is gone, where no channel is named. -/
def closedChannel : Fault :=
  send "sending on a closed channel"

end Fault

end NetnsWatch
