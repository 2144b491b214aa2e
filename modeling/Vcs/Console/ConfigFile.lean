import Vcs.Console.Config
import Vcs.Text.Json

/-!
# Configuration Files

A configuration is written as a JSON object with a member for each setting, or as an array of the settings
in order.  Only the blanking of motion strobes must be there; a setting that is left out or null is open.
Members of other names are ignored, but no setting may be given twice.
-/

namespace Vcs.Config

open Text (Json)

/-- A setting that may be left open. -/
def readOpen {α : Type} (read : Json → Option α) : Json → Option (Option α)
  | .null => some none
  | value => (read value).map some

/-- The name of a television standard. -/
def televisionOf? : String → Option Television
  | "Ntsc" => some .ntsc
  | "Pal" => some .pal
  | _ => none

/-- A television standard: its name, or an object that has its name for null. -/
def readTelevision : Json → Option Television
  | .string (some name) | .object [(some name, .null)] => televisionOf? name
  | _ => none

/-- A natural number below a bound. -/
def readBelow (bound : Nat) : Json → Option Nat
  | .natural value => if value < bound then some value else none
  | _ => none

/-- A count of scanlines. -/
def readLines (value : Json) : Option UInt16 :=
  (readBelow UInt16.size value).map UInt16.ofNat

def readSeed (value : Json) : Option UInt64 :=
  (readBelow UInt64.size value).map UInt64.ofNat

def readBool : Json → Option Bool
  | .bool value => some value
  | _ => none

/-- The value of a member, null if there is none; nothing if the name is repeated. -/
def member? (members : List (String × Json)) (name : String) : Option Json :=
  match members.filter (·.1 = name) with
  | [] => some .null
  | [(_, value)] => some value
  | _ => none

/-- The members under names that have a text, if all of them do. -/
def named? (members : List (Option String × Json)) : Option (List (String × Json)) :=
  members.mapM fun (name, value) ↦ name.map (·, value)

/-- A configuration from its settings in order. -/
def ofSettings? (television height yStart seed motionBlanks : Json) : Option Config := do
  some {
    television := ← readOpen readTelevision television
    height := ← readOpen readLines height
    yStart := ← readOpen readLines yStart
    seed := ← readOpen readSeed seed
    motionBlanks := ← readBool motionBlanks }

/-- A configuration from a JSON value. -/
def ofJson? : Json → Option Config
  | .array [television, height, yStart, seed, motionBlanks] =>
    ofSettings? television height yStart seed motionBlanks
  | .object members => do
    let members ← named? members
    ofSettings? (← member? members "tv") (← member? members "display_height")
      (← member? members "y_start") (← member? members "seed") (← member? members "hmove_blanks")
  | _ => none

/-- Reads the text of a configuration. -/
def parse? (text : String) : Option Config :=
  (Json.parse text).bind ofJson?

end Vcs.Config
