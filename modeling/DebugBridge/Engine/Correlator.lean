import DebugBridge.Engine.Event

/-! Pairing evaluations with their answers.

Answers are matched by tag alone, so they may arrive in any order. Whoever evaluates and whoever brings the
answers work side by side, so each step is one that no other can divide. -/

set_option autoImplicit false

namespace DebugBridge.Engine

/-- The state of a request whose handle has not been given back. -/
inductive Slot where
  | waiting
  /-- Its answer has come and is about to be delivered. No other answer can be. -/
  | taken
  | answered (value : String)
  /-- Its command could not be sent, so no answer will come. -/
  | unsent
  deriving DecidableEq, Repr

structure Correlator where
  nextTag : UInt64
  slots : List (UInt64 × Slot)
  deriving DecidableEq, Repr

namespace Correlator

def new : Correlator := ⟨0, []⟩

def slot? (c : Correlator) (tag : UInt64) : Option Slot := c.slots.lookup tag

def isPending (c : Correlator) (tag : UInt64) : Bool := c.slot? tag == some .waiting

def pending (c : Correlator) : List UInt64 :=
  (c.slots.filter fun entry => entry.2 == .waiting).map Prod.fst

def drawTag (c : Correlator) : UInt64 × Correlator := (c.nextTag, { c with nextTag := c.nextTag + 1 })

def enter (c : Correlator) (tag : UInt64) : Correlator := { c with slots := c.slots ++ [(tag, .waiting)] }

/-- Issue a request under the next tag. It is registered before its command is sent. -/
def register (c : Correlator) : UInt64 × Correlator := (c.drawTag.1, c.drawTag.2.enter c.drawTag.1)

def setSlot (tag : UInt64) (slot : Slot) (slots : List (UInt64 × Slot)) : List (UInt64 × Slot) :=
  slots.map fun entry => if entry.1 = tag then (tag, slot) else entry

def advance (c : Correlator) (tag : UInt64) (old new : Slot) : Bool × Correlator :=
  if c.slot? tag = some old then (true, { c with slots := setSlot tag new c.slots }) else (false, c)

/-- The command of a request could not be sent. An answer that has come nevertheless stays. -/
def markUnsent (c : Correlator) (tag : UInt64) : Correlator := (c.advance tag .waiting .unsent).2

/-- The first half of bringing an answer: whether a request was waiting for it. None is if the answer is too
late, a repetition, or was never asked for. -/
def take (c : Correlator) (tag : UInt64) : Bool × Correlator := c.advance tag .waiting .taken

/-- The second half: whether there still was somebody to deliver the answer to. -/
def deliver (c : Correlator) (tag : UInt64) (value : String) : Bool × Correlator :=
  c.advance tag .taken (.answered value)

/-- Bring an answer, with nothing between the halves. -/
def resolve (c : Correlator) (tag : UInt64) (value : String) : Bool × Correlator :=
  match c.take tag with
  | (true, c) => c.deliver tag value
  | (false, c) => (false, c)

def answer? (c : Correlator) (tag : UInt64) : Option String :=
  match c.slot? tag with
  | some (.answered value) => some value
  | _ => none

/-- Give the handle of a request back, waited for or not. -/
def forget (c : Correlator) (tag : UInt64) : Correlator :=
  -- the entry goes first and the receiver after it, but an answer meets only one of them: the entry until it is
  -- taken, and then the receiver
  { c with slots := c.slots.filter fun entry => entry.1 != tag }

/-- End the wait for a request and give its handle back, with nothing in between. -/
def settle (c : Correlator) (tag : UInt64) : Option String × Correlator := (c.answer? tag, c.forget tag)

end Correlator

end DebugBridge.Engine
