import DebugBridge.Text.Decimal
import DebugBridge.Text.Separated

/-! The network between the bridge and the engine: addresses, and why they cannot be used. -/

set_option autoImplicit false

namespace DebugBridge.Engine

inductive NetworkFault where
  | unreachable
  | refused
  | notPermitted
  deriving DecidableEq, Repr

def NetworkFault.message : NetworkFault → String
  | .unreachable => "Network is unreachable (os error 101)"
  | .refused => "Connection refused (os error 111)"
  | .notPermitted => "Permission denied (os error 13)"

structure HostAddress where
  number : Nat
  inRange : number < 0x100000000
  deriving DecidableEq, Repr

namespace HostAddress

def digitValue? (c : Char) : Option Nat :=
  if c.isDigit then some (c.toNat - '0'.toNat)
  else if 'a' ≤ c ∧ c ≤ 'f' then some (c.toNat - 'a'.toNat + 10)
  else if 'A' ≤ c ∧ c ≤ 'F' then some (c.toNat - 'A'.toNat + 10)
  else none

def readDigits (base : Nat) (text : List Char) : Option Nat :=
  text.foldlM (fun value c => (digitValue? c).bind fun d =>
    if d < base then some (value * base + d) else none) 0

/-- A part is decimal, octal after a zero, or hexadecimal after a zero and an `x`. -/
def readPart : List Char → Option Nat
  | [] => none
  | ['0'] => some 0
  | '0' :: 'x' :: digits | '0' :: 'X' :: digits => if digits.isEmpty then none else readDigits 16 digits
  | '0' :: digits => readDigits 8 digits
  | digits => readDigits 10 digits

/-- Up to four parts. Each is one octet of the address, but the last one fills what the others leave. -/
def combine : Nat → List Nat → Option Nat
  | 0, _ | _, [] => none
  | room + 1, [last] => if last < Nat.pow 256 (room + 1) then some last else none
  | room + 1, part :: rest =>
    if part < 256 then (combine room rest).map (part * Nat.pow 256 room + ·) else none

def ofNumber? (n : Nat) : Option HostAddress := if h : n < 0x100000000 then some ⟨n, h⟩ else none

def loopback : HostAddress := ⟨0x7F000001, by decide⟩

/-- The address that a text stands for. The only name known is that of the machine itself,
in letters of either case. -/
def resolve? (text : String) : Option HostAddress :=
  if text.toLower = "localhost" then some loopback
  else
    match (Text.split '.' text.toList).mapM readPart with
    | some parts => (combine 4 parts).bind ofNumber?
    | none => none

end HostAddress

structure Endpoint where
  octets : List Nat
  port : UInt16
  deriving DecidableEq, Repr

namespace Endpoint

def readOctet (text : List Char) : Option Nat :=
  if text.isEmpty ∨ ¬ text.all Char.isDigit ∨ (1 < text.length ∧ text.head? = some '0') then none
  else match Text.Decimal.readUnsigned 255 text with
    | .ok n => some n
    | .error _ => none

def readPort (text : List Char) : Option UInt16 :=
  if text.all Char.isDigit then
    match Text.Decimal.readUnsigned 65535 text with
    | .ok n => some (UInt16.ofNat n)
    | .error _ => none
  else none

def ofString? (text : String) : Option Endpoint :=
  let host := text.toList.takeWhile (· ≠ ':')
  match text.toList.dropWhile (· ≠ ':') with
  | ':' :: port =>
    match (Text.split '.' host).mapM readOctet, readPort port with
    | some octets, some port => if octets.length = 4 then some ⟨octets, port⟩ else none
    | _, _ => none
  | _ => none

/-- Ports below 1024 belong to the system. Port zero is none of them: it asks for any free port. -/
def isReserved (endpoint : Endpoint) : Bool := 0 < endpoint.port.toNat && endpoint.port.toNat < 1024

def text (endpoint : Endpoint) : String :=
  ".".intercalate (endpoint.octets.map Text.Decimal.showNat) ++ ":" ++
    Text.Decimal.showNat endpoint.port.toNat

end Endpoint

end DebugBridge.Engine
