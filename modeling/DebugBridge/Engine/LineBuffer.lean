import DebugBridge.Text.Utf8

/-! Lines out of a stream of octets. A line ends with CR LF, and a CR or LF alone belongs to it. -/

set_option autoImplicit false

namespace DebugBridge.Engine

structure LineBuffer where
  octets : List UInt8
  deriving DecidableEq, Repr

namespace LineBuffer

def empty : LineBuffer := ⟨[]⟩

def isEmpty (buffer : LineBuffer) : Bool := buffer.octets.isEmpty

def push (buffer : LineBuffer) (octets : List UInt8) : LineBuffer := ⟨buffer.octets ++ octets⟩

def splitLine : List UInt8 → Option (List UInt8 × List UInt8)
  | [] => none
  | 0x0D :: 0x0A :: rest => some ([], rest)
  -- a CR that no LF follows is an octet like any other
  | octet :: rest => (splitLine rest).map fun (line, after) => (octet :: line, after)

theorem splitLine_append {octets line after : List UInt8} (h : splitLine octets = some (line, after)) :
    octets = line ++ 0x0D :: 0x0A :: after := by
  fun_induction splitLine octets generalizing line with
  | case1 => cases h
  | case2 rest => cases h; rfl
  | case3 octet rest _ ih =>
    simp only [Option.map_eq_some_iff, Prod.mk.injEq, Prod.exists] at h
    obtain ⟨inner, tail, found, rfl, rfl⟩ := h
    simpa using ih found

/-- The next complete line; octets that are no UTF-8 are replaced in it. -/
def next (buffer : LineBuffer) : Option (String × LineBuffer) :=
  (splitLine buffer.octets).map fun (line, after) => (Text.Utf8.decodeLossy line, ⟨after⟩)

theorem next_length {buffer rest : LineBuffer} {line : String} (h : buffer.next = some (line, rest)) :
    rest.octets.length < buffer.octets.length := by
  simp only [next, Option.map_eq_some_iff, Prod.mk.injEq, Prod.exists] at h
  obtain ⟨inner, after, found, -, rfl⟩ := h
  rw [splitLine_append found]
  simp
  omega

def drain (buffer : LineBuffer) : List String × LineBuffer :=
  match _found : buffer.next with
  | none => ([], buffer)
  | some (line, rest) => (line :: rest.drain.1, rest.drain.2)
termination_by buffer.octets.length
decreasing_by all_goals exact next_length _found

end LineBuffer

end DebugBridge.Engine
