import Vcs.Text.Hex

/-!
# Observed Values

Components answer read-only questions about their state by dotted path.  A table of questions pairs
each path with the value it reads off a state, so that the list of known paths and the answers cannot
drift apart.
-/

namespace Vcs

/-- An observed value, tagged with the width it has in the hardware. -/
inductive Value where
  | bool (value : Bool)
  | u8 (value : UInt8)
  | u16 (value : UInt16)
  | u32 (value : Nat)
  /-- A clock stamp, which may lie before the origin of the current frame. -/
  | i64 (value : Int)
  | label (text : String)
  | list (items : List Value)

namespace Value

/-- Name of the width. -/
def kind : Value → String
  | bool _ => "Bool"
  | u8 _ => "U8"
  | u16 _ => "U16"
  | u32 _ => "U32"
  | i64 _ => "I64"
  | label _ => "Label"
  | list _ => "List"

mutual

/-- Bytes and words are written in hexadecimal, counts and stamps in decimal. -/
def display : Value → String
  | bool value => if value then "true" else "false"
  | u8 value => "0x" ++ Text.Hex.byte value
  | u16 value => "0x" ++ Text.Hex.word value
  | u32 value => toString value
  | i64 value => toString value
  | label text => text
  | list items => "[" ++ displayItems items ++ "]"

/-- Items are separated by a comma and a blank. -/
def displayItems : List Value → String
  | [] => ""
  | [item] => display item
  | item :: rest => display item ++ ", " ++ displayItems rest

end

/-- A running total of unbounded size as a 32-bit count, held at the largest one. -/
def count (total : Nat) : Value :=
  u32 (min total (UInt32.size - 1))

end Value

/-- A table of questions about a state. -/
abbrev Questions (α : Type) := List (String × (α → Value))

namespace Questions

variable {α : Type}

/-- Every known path, in order. -/
def paths (questions : Questions α) : List String :=
  questions.map (·.1)

/-- The answer to a path, if the table has it. -/
def ask (questions : Questions α) (path : String) (state : α) : Option Value :=
  (questions.lookup path).map (· state)

end Questions

end Vcs
