import Vcs.CommandLine.Number
import Vcs.Console.Config
import Vcs.Journal

/-!
# Command Line Options

What the arguments of the program ask for.  Arguments are taken from left to right, and the first one that
settles the matter wins: a request for help or for the version, or an argument that makes no sense.
-/

namespace Vcs.CommandLine

/-- Options that take a value. -/
inductive Setting where
  | frames
  | television
  | height
  | yStart
  | seed
  | screenshot
  | record
  | audioLog
  deriving DecidableEq, Repr

/-- Options without a value. -/
inductive Switch where
  | noMotionBlanks
  | verbose
  | quiet
  | help
  | version
  deriving DecidableEq, Repr

/-- What has been asked for so far. -/
structure Options where
  /-- The cartridge image. -/
  rom : Option String := none
  frames : Option Nat := none
  television : Option Television := none
  height : Option UInt16 := none
  yStart : Option UInt16 := none
  seed : Option UInt64 := none
  noMotionBlanks : Bool := false
  /-- File for a picture of the last frame. -/
  screenshot : Option String := none
  /-- Directory for a picture of every frame. -/
  record : Option String := none
  /-- File for the writes to the sound registers. -/
  audioLog : Option String := none
  /-- How many times more logging was asked for. -/
  verbosity : Nat := 0
  quiet : Bool := false

/-- Why reading the arguments came to an end early. -/
inductive Interruption where
  | help
  | version
  | misuse
  deriving DecidableEq, Repr

/-- The option of a long name. -/
def Setting.ofName? : String → Option Setting
  | "frames" => some .frames
  | "tv" => some .television
  | "height" => some .height
  | "y-start" => some .yStart
  | "seed" => some .seed
  | "screenshot" => some .screenshot
  | "record" => some .record
  | "audio-log" => some .audioLog
  | _ => none

/-- The switch of a long name. -/
def Switch.ofName? : String → Option Switch
  | "no-hmove-blanks" => some .noMotionBlanks
  | "verbose" => some .verbose
  | "quiet" => some .quiet
  | "help" => some .help
  | "version" => some .version
  | _ => none

/-- The switch of a letter. -/
def Switch.ofLetter? : Char → Option Switch
  | 'v' => some .verbose
  | 'q' => some .quiet
  | 'h' => some .help
  | 'V' => some .version
  | _ => none

def televisionOf? : String → Option Television
  | "ntsc" => some .ntsc
  | "pal" => some .pal
  | _ => none

/-- The name of a file or directory, which cannot be empty. -/
def pathOf? (text : String) : Option String :=
  if text = "" then none else some text

/-- A count of scanlines. -/
def linesOf? (text : String) : Option UInt16 :=
  (below? UInt16.size (naturalOrMinusZero? text.toList)).map UInt16.ofNat

def framesOf? (text : String) : Option Nat :=
  below? UInt32.size (naturalOrMinusZero? text.toList)

def seedOf? (text : String) : Option UInt64 :=
  (below? UInt64.size (natural? text.toList)).map UInt64.ofNat

/-- A value for an option that has none yet. -/
def fresh? {α : Type} (present : Option α) (value : Option α) : Option (Option α) :=
  if present.isSome then none else value.map some

namespace Options

/-- Gives an option its value; nothing if it has one or the value makes no sense. -/
def set? (options : Options) (setting : Setting) (text : String) : Option Options :=
  match setting with
  | .frames => (fresh? options.frames (framesOf? text)).map ({ options with frames := · })
  | .television =>
    (fresh? options.television (televisionOf? text)).map ({ options with television := · })
  | .height => (fresh? options.height (linesOf? text)).map ({ options with height := · })
  | .yStart => (fresh? options.yStart (linesOf? text)).map ({ options with yStart := · })
  | .seed => (fresh? options.seed (seedOf? text)).map ({ options with seed := · })
  | .screenshot =>
    (fresh? options.screenshot (pathOf? text)).map ({ options with screenshot := · })
  | .record => (fresh? options.record (pathOf? text)).map ({ options with record := · })
  | .audioLog => (fresh? options.audioLog (pathOf? text)).map ({ options with audioLog := · })

/-- Turns a switch on.  Only more logging can be asked for repeatedly. -/
def turnOn (options : Options) (switch : Switch) : Except Interruption Options :=
  match switch with
  | .noMotionBlanks =>
    if options.noMotionBlanks then .error .misuse else .ok { options with noMotionBlanks := true }
  | .verbose => .ok { options with verbosity := options.verbosity + 1 }
  | .quiet => if options.quiet then .error .misuse else .ok { options with quiet := true }
  | .help => .error .help
  | .version => .error .version

/-- Turns on the switches of some letters. -/
def turnOnLetters (options : Options) : List Char → Except Interruption Options
  | [] => .ok options
  | letter :: letters =>
    match Switch.ofLetter? letter with
    | none => .error .misuse
    | some switch => do (← options.turnOn switch).turnOnLetters letters

/-- Takes an argument that is no option, which only the cartridge image is. -/
def takePlain (options : Options) (text : String) : Except Interruption Options :=
  match fresh? options.rom (pathOf? text) with
  | none => .error .misuse
  | some rom => .ok { options with rom := rom }

/-- Gives an option its value or reports that this makes no sense. -/
def take (options : Options) (setting : Setting) (text : String) : Except Interruption Options :=
  match options.set? setting text with
  | none => .error .misuse
  | some options => .ok options

end Options

/-- An argument by its form. -/
inductive Argument where
  /-- Ends the options. -/
  | separator
  /-- A long option with the value behind its equals sign, if it has one. -/
  | long (name : String) (value : Option String)
  /-- A run of one-letter switches. -/
  | short (letters : List Char)
  | plain (text : String)
  deriving DecidableEq, Repr

/-- The form of an argument.  A lone dash is no option. -/
def Argument.ofString (text : String) : Argument :=
  match text.toList with
  | ['-', '-'] => separator
  | '-' :: '-' :: body =>
    let name := String.ofList (body.takeWhile (· ≠ '='))
    match body.dropWhile (· ≠ '=') with
    | _ :: value => long name (some (String.ofList value))
    | [] => long name none
  | '-' :: letter :: letters => short (letter :: letters)
  | _ => plain text

namespace Options

/-- Takes the arguments behind the end of the options. -/
def takeRest (options : Options) : List String → Except Interruption Options
  | [] => .ok options
  | text :: rest => do (← options.takePlain text).takeRest rest

/-- Takes all arguments.  The value of an option may be an argument of its own unless it looks like
another option. -/
def takeAll (options : Options) : List String → Except Interruption Options
  | [] => .ok options
  | text :: rest =>
    match Argument.ofString text with
    | .separator => options.takeRest rest
    | .plain text => do (← options.takePlain text).takeAll rest
    | .short letters => do (← options.turnOnLetters letters).takeAll rest
    | .long name value =>
      match Setting.ofName? name, value, rest with
      | some setting, some value, rest => do (← options.take setting value).takeAll rest
      | some setting, none, next :: rest =>
        match Argument.ofString next with
        | .plain value => do (← options.take setting value).takeAll rest
        | _ => .error .misuse
      | some _, none, [] => .error .misuse
      | none, value, rest =>
        match Switch.ofName? name, value with
        | some switch, none => do (← options.turnOn switch).takeAll rest
        | _, _ => .error .misuse

/-- Reads the arguments.  There must be a cartridge image. -/
def parse (arguments : List String) : Except Interruption (String × Options) := do
  let options ← Options.takeAll {} arguments
  match options.rom with
  | none => .error .misuse
  | some rom => .ok (rom, options)

/-- Frames to run. -/
def frameCount (options : Options) : Nat :=
  options.frames.getD 200

/-- The configuration of the machine. -/
def config (options : Options) : Config where
  television := options.television
  height := options.height
  yStart := options.yStart
  seed := options.seed
  motionBlanks := !options.noMotionBlanks

/-- The severity that a name stands for, in either case; `off` stands for none. -/
def threshold? (name : String) : Option (Option Level) :=
  match name.map Char.toLower with
  | "off" => some none
  | "error" => some (some .error)
  | "warn" => some (some .warn)
  | "info" => some (some .info)
  | "debug" => some (some .debug)
  | "trace" => some (some .trace)
  | _ => none

/-- Least grave severity that is reported.  The switches take precedence over what the environment asks
for, and silence over verbosity. -/
def threshold (options : Options) (environment : Option String) : Option Level :=
  if options.quiet then some .error
  else
    match options.verbosity with
    | 0 => (environment.bind threshold?).getD (some .warn)
    | 1 => some .info
    | 2 => some .debug
    | _ => some .trace

end Options

end Vcs.CommandLine
