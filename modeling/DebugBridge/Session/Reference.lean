import DebugBridge.Text.Decimal

/-! References to the variables of a scope: the frame times ten plus the kind of scope, so that the kind is
the last decimal digit. -/

set_option autoImplicit false

namespace DebugBridge.Session

inductive ScopeKind where
  | locals
  | globals
  deriving DecidableEq, Repr

def ScopeKind.digit : ScopeKind → Nat
  | .locals => 1
  | .globals => 2

def ScopeKind.ofDigit? : Nat → Option ScopeKind
  | 1 => some .locals
  | 2 => some .globals
  | _ => none

/-- A scope of a frame, the frame counted from the top of the stack view. -/
structure ScopeReference where
  frame : Nat
  kind : ScopeKind
  deriving DecidableEq, Repr

inductive ReferenceFault where
  | invalid (reference : Int64)
  | tooLarge (frame : Nat)
  deriving DecidableEq, Repr

def ReferenceFault.message : ReferenceFault → String
  | .invalid reference => "invalid variables reference " ++ Text.Decimal.showInt64 reference
  | .tooLarge frame =>
    "frame index " ++ Text.Decimal.showNat frame ++ " is too large for a variables reference"

namespace ScopeReference

def encode (scope : ScopeReference) : Except ReferenceFault Int64 :=
  let n := scope.frame * 10 + scope.kind.digit
  if n ≤ 0x7FFFFFFFFFFFFFFF then .ok (Int64.ofInt n) else .error (.tooLarge scope.frame)

def decode (reference : Int64) : Except ReferenceFault ScopeReference :=
  if reference < 0 then .error (.invalid reference)
  else
    let n := reference.toInt.toNat
    match ScopeKind.ofDigit? (n % 10) with
    | some kind => .ok ⟨n / 10, kind⟩
    | none => .error (.invalid reference)

end ScopeReference

end DebugBridge.Session
