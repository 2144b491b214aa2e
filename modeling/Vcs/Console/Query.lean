import Vcs.Console.Machine
import Vcs.Processor.Query
import Vcs.Riot.Query
import Vcs.Tia.Query

/-!
# Questions about a Machine

A machine answers a few questions of its own and passes those under the name of a component on to it.
-/

namespace Vcs.Machine

/-- The questions a machine answers itself.  The bank is unknown while no cartridge is inserted. -/
def ownQuestions : List (String × (Machine → Option Value)) :=
  [("tv", fun m ↦ some (.label m.television.name)),
    ("display.height", fun m ↦ some (.u16 m.height)),
    ("display.y_start", fun m ↦ some (.u16 m.yStart)),
    ("cycles", fun m ↦ some (.u32 m.board.cycles)),
    ("switches", fun m ↦ some (.u8 m.board.switches.bits)),
    ("cartridge.bank", fun m ↦
      m.board.cartridge.map fun cartridge ↦ .u8 (UInt8.ofNat (min cartridge.bank 255)))]

/-- The paths of a machine's own questions. -/
def paths : List String :=
  ownQuestions.map (·.1)

/-- What follows a given beginning of a path, if it begins so. -/
def afterName? (name path : String) : Option String :=
  if path.startsWith name then some (path.drop name.length).toString else none

/-- Answers a question by its path. -/
def ask (m : Machine) (path : String) : Option Value :=
  match afterName? "cpu." path, afterName? "tia." path, afterName? "riot." path with
  | some rest, _, _ => Processor.questions.ask rest m.core
  | _, some rest, _ => Tia.questions.ask rest m.board.tia
  | _, _, some rest => (Riot.questions m.board.ram).ask rest m.board.riot
  | none, none, none => (ownQuestions.lookup path).bind (· m)

end Vcs.Machine
