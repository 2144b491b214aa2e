import Vcs.CommandLine.Rehearsal
import Vcs.Main
import Vcs.Console.ConfigFile
import Vcs.Console.Query
import Vcs.Proofs.Console.CounterRestart
import Vcs.Proofs.Processor.CycleAccounting
import Vcs.Proofs.Tia.BeamPosition
import Vcs.Proofs.Cartridge.BankSwitching
import Vcs.Proofs.Console.FrameStatus
import Vcs.Proofs.Console.ScanlineGrid
import Vcs.Proofs.Console.PowerCycle
import Vcs.Proofs.Console.MemoryMap
import Vcs.Proofs.Tia.Checked
import Vcs.Proofs.Tia.Collisions
import Vcs.Proofs.Tia.DisplayWindow
import Vcs.Proofs.Tia.LiveSettings
import Vcs.Proofs.Tia.Lookup
import Vcs.Proofs.Tia.MotionBlank
import Vcs.Proofs.Tia.PlayerStrobe
import Vcs.Proofs.Tia.StarField
import Vcs.Proofs.Tia.VerticalSync
import Vcs.Proofs.Console.Slicing
import Vcs.Proofs.Riot.Countdown
import Vcs.Proofs.Processor.CombinedOpcodes
import Vcs.Proofs.Processor.LongArithmetic
import Vcs.Proofs.Processor.StackDiscipline
import Vcs.Proofs.Cartridge.Detection
import Vcs.Proofs.Memory.Aliasing
import Vcs.Proofs.Processor.InstructionTraffic
import Vcs.Proofs.Console.PictureSize
import Vcs.Proofs.Console.EmulatedTime
import Vcs.Proofs.Tia.PictureSpan
import Vcs.Proofs.Console.SoundRecord
