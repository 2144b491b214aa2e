/-!
# Controller Jacks

Two jacks of nine pins each.  Pins 1 to 4 and 6 are digital and stand high until something grounds
them: a joystick grounds one for each direction and the button.  Pins 5 and 9 are analog: a paddle puts
a resistance on them, which the console measures by timing a capacitor.
-/

namespace Vcs

/-- One of the two jacks. -/
inductive Jack where
  | left
  | right
  deriving DecidableEq, Repr

/-- Pins read as one bit. -/
inductive DigitalPin where
  | one
  | two
  | three
  | four
  | six
  deriving DecidableEq, Repr

/-- Pins read as a resistance. -/
inductive AnalogPin where
  | five
  | nine
  deriving DecidableEq, Repr

/-- Resistances, in ohms. -/
abbrev Ohms := Nat

/-- A shorted pin: the capacitor charges at once. -/
def Ohms.shorted : Ohms := 0

/-- An open pin: the capacitor never charges. -/
def Ohms.unconnected : Ohms := 2147483640

/-- A switch inside a joystick. -/
inductive JoystickInput where
  | up
  | down
  | left
  | right
  | fire
  deriving DecidableEq, Repr

/-- The pin a joystick switch grounds. -/
def JoystickInput.pin : JoystickInput → DigitalPin
  | up => .one
  | down => .two
  | left => .three
  | right => .four
  | fire => .six

/-- One of the two paddles that share a jack. -/
inductive Paddle where
  | alpha
  | beta
  deriving DecidableEq, Repr

namespace Paddle

/-- The pin a paddle's resistance is on. -/
def resistancePin : Paddle → AnalogPin
  | alpha => .nine
  | beta => .five

/-- The pin a paddle's button grounds. -/
def buttonPin : Paddle → DigitalPin
  | alpha => .four
  | beta => .three

/-- The resistance falls by this much for every percent of travel. -/
def ohmsPerPercent : Ohms := 10000

/-- Resistance of a paddle turned to `percent` of its travel; it stops at the end. -/
def resistanceAt (percent : Nat) : Ohms :=
  ohmsPerPercent * (100 - min percent 100)

/-- Percent of travel that a resistance corresponds to. -/
def percentAt (resistance : Ohms) : Nat :=
  100 - min (resistance / ohmsPerPercent) 100

theorem percentAt_resistanceAt (percent : Nat) :
    percentAt (resistanceAt percent) = min percent 100 := by
  have h : ohmsPerPercent * (100 - min percent 100) / ohmsPerPercent = 100 - min percent 100 :=
    Nat.mul_div_cancel_left _ (by decide)
  unfold percentAt resistanceAt
  rw [h]
  omega

end Paddle

/-- Levels of the pins of one jack. -/
structure Controller where
  pin1 : Bool := true
  pin2 : Bool := true
  pin3 : Bool := true
  pin4 : Bool := true
  pin6 : Bool := true
  ohms5 : Ohms := Paddle.resistanceAt 0
  ohms9 : Ohms := Paddle.resistanceAt 0
  deriving DecidableEq, Repr

namespace Controller

/-- Level of a digital pin, `true` for high. -/
def level (controller : Controller) : DigitalPin → Bool
  | .one => controller.pin1
  | .two => controller.pin2
  | .three => controller.pin3
  | .four => controller.pin4
  | .six => controller.pin6

/-- Puts a digital pin on a level. -/
def setLevel (controller : Controller) (pin : DigitalPin) (high : Bool) : Controller :=
  match pin with
  | .one => { controller with pin1 := high }
  | .two => { controller with pin2 := high }
  | .three => { controller with pin3 := high }
  | .four => { controller with pin4 := high }
  | .six => { controller with pin6 := high }

/-- Resistance on an analog pin. -/
def resistance (controller : Controller) : AnalogPin → Ohms
  | .five => controller.ohms5
  | .nine => controller.ohms9

/-- Puts a resistance on an analog pin. -/
def setResistance (controller : Controller) (pin : AnalogPin) (ohms : Ohms) : Controller :=
  match pin with
  | .five => { controller with ohms5 := ohms }
  | .nine => { controller with ohms9 := ohms }

/-- Presses or releases a joystick switch. -/
def setJoystick (controller : Controller) (input : JoystickInput) (pressed : Bool) : Controller :=
  controller.setLevel input.pin !pressed

/-- Turns a paddle. -/
def setPaddle (controller : Controller) (paddle : Paddle) (percent : Nat) : Controller :=
  controller.setResistance paddle.resistancePin (Paddle.resistanceAt percent)

/-- Presses or releases a paddle's button. -/
def setPaddleButton (controller : Controller) (paddle : Paddle) (pressed : Bool) : Controller :=
  controller.setLevel paddle.buttonPin !pressed

/-- Where a paddle stands, in percent of its travel. -/
def paddlePosition (controller : Controller) (paddle : Paddle) : Nat :=
  Paddle.percentAt (controller.resistance paddle.resistancePin)

end Controller

/-- Both jacks. -/
structure Ports where
  left : Controller := {}
  right : Controller := {}
  deriving DecidableEq, Repr

namespace Ports

def jack (ports : Ports) : Jack → Controller
  | .left => ports.left
  | .right => ports.right

/-- Applies a change to what is plugged into one jack. -/
def modify (ports : Ports) (jack : Jack) (change : Controller → Controller) : Ports :=
  match jack with
  | .left => { ports with left := change ports.left }
  | .right => { ports with right := change ports.right }

/-- Lets go of everything plugged into one jack. -/
def release (ports : Ports) (jack : Jack) : Ports :=
  ports.modify jack fun _ ↦ {}

def level (ports : Ports) (jack : Jack) (pin : DigitalPin) : Bool :=
  (ports.jack jack).level pin

def resistance (ports : Ports) (jack : Jack) (pin : AnalogPin) : Ohms :=
  (ports.jack jack).resistance pin

/-- The console drives a pin.  Joysticks and paddles have nothing that would notice. -/
def drive (ports : Ports) (_jack : Jack) (_pin : DigitalPin) (_high : Bool) : Ports :=
  ports

end Ports

end Vcs
