import DebugBridge.Engine.Handshake
import DebugBridge.Engine.Network
import DebugBridge.Text.Decimal

/-! Why a connection to the engine does not come about, and why a command does not go out over it. -/

set_option autoImplicit false

namespace DebugBridge.Engine

inductive ConnectFault where
  | unresolved (address : String) (port : UInt16)
  | unreachable (address : String) (port : UInt16) (reason : NetworkFault)
  | wrongPassword
  | noAnswer (milliseconds : Nat)
  | closed
  | failed (reason : String)
  deriving DecidableEq, Repr

def target (address : String) (port : UInt16) : String :=
  address ++ ":" ++ Text.Decimal.showNat port.toNat

def ConnectFault.message : ConnectFault → String
  | .unresolved address port => "cannot resolve address " ++ target address port
  | .unreachable address port reason => "connection to " ++ target address port ++ " failed: " ++ reason.message
  | .wrongPassword => "Wrong Password"
  | .noAnswer milliseconds =>
    "Timeout: no handshake answer within " ++ Text.showMilliseconds milliseconds
  | .closed => "connection closed by remote"
  | .failed reason => reason

def ConnectFault.ofStreamEnd (milliseconds : Nat) : StreamEnd → ConnectFault
  | .silent => .noAnswer milliseconds
  | .closed => .closed
  | .failed reason => .failed reason

/-- Why a connection, though the password was accepted, is not read. -/
inductive ReaderFault where
  /-- The connection could not be shared between those who write and those who read. -/
  | notShared (reason : String)
  /-- Nobody could be made to read. By then the connection can be written to. -/
  | notStarted (reason : String)
  deriving DecidableEq, Repr

inductive SendFault where
  | notConnected
  | notWritten (reason : String)
  deriving DecidableEq, Repr

def SendFault.message : SendFault → String
  | .notConnected => "not connected"
  | .notWritten reason => reason

end DebugBridge.Engine
