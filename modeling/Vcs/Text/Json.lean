/-!
# JSON

A reader for JSON texts.  It tells apart only what a reader of settings has to tell apart: among numbers
those that are natural, and among strings those whose escapes all name characters.  What is read from the
front of some characters comes with the characters after it.
-/

namespace Vcs.Text

/-- A JSON value. -/
inductive Json where
  | null
  | bool (value : Bool)
  /-- A number without sign, fraction and exponent. -/
  | natural (value : Nat)
  /-- Any other number. -/
  | number
  /-- A string; it has no text if an escape names half of a surrogate pair without the other half. -/
  | string (text : Option String)
  | array (items : List Json)
  /-- Members in order, repeated names included. -/
  | object (members : List (Option String × Json))

namespace Json

def isBlank (c : Char) : Bool :=
  c = ' ' || c = '\n' || c = '\t' || c = '\r'

def skipBlanks (cs : List Char) : List Char :=
  cs.dropWhile isBlank

/-- The digits at the front, of which there must be one. -/
def readDigits (cs : List Char) : Option (List Char × List Char) :=
  match cs.takeWhile Char.isDigit with
  | [] => none
  | digits => some (digits, cs.dropWhile Char.isDigit)

/-- The digits before the point.  Only zero itself starts with a zero. -/
def readWhole (cs : List Char) : Option (Nat × List Char) := do
  let (digits, cs) ← readDigits cs
  if digits.head? = some '0' ∧ digits.length ≠ 1 then none
  else some (Nat.ofDigitChars 10 digits 0, cs)

/-- A fraction, if one follows, and whether one did. -/
def readFraction (cs : List Char) : Option (Bool × List Char) :=
  match cs with
  | '.' :: cs => do
    let (_, cs) ← readDigits cs
    some (true, cs)
  | _ => some (false, cs)

/-- Drops a sign. -/
def skipSign (cs : List Char) : List Char :=
  match cs with
  | '+' :: cs | '-' :: cs => cs
  | _ => cs

/-- An exponent, if one follows, and whether one did. -/
def readExponent (cs : List Char) : Option (Bool × List Char) :=
  match cs with
  | 'e' :: cs | 'E' :: cs => do
    let (_, cs) ← readDigits (skipSign cs)
    some (true, cs)
  | _ => some (false, cs)

/-- A number whose sign has been read. -/
def readNumber (negative : Bool) (cs : List Char) : Option (Json × List Char) := do
  let (whole, cs) ← readWhole cs
  let (fraction, cs) ← readFraction cs
  let (exponent, cs) ← readExponent cs
  some (if negative || fraction || exponent then .number else .natural whole, cs)

/-- A piece of a string: a character, or a unit of UTF-16 that was written as an escape. -/
inductive Piece where
  | char (c : Char)
  | unit (value : Nat)

/-- Value of a hexadecimal digit. -/
def hexValue? (c : Char) : Option Nat :=
  if c.isDigit then some (c.toNat - '0'.toNat)
  else if 'a' ≤ c ∧ c ≤ 'f' then some (c.toNat - 'a'.toNat + 10)
  else if 'A' ≤ c ∧ c ≤ 'F' then some (c.toNat - 'A'.toNat + 10)
  else none

/-- The unit that four hexadecimal digits name. -/
def unit? (a b c d : Char) : Option Piece := do
  some (.unit (((← hexValue? a) * 16 + (← hexValue? b)) * 256 +
    ((← hexValue? c) * 16 + (← hexValue? d))))

/-- What a one-letter escape stands for. -/
def escaped? (c : Char) : Option Piece :=
  match c with
  | '"' | '\\' | '/' => some (.char c)
  | 'b' => some (.char '\x08')
  | 'f' => some (.char '\x0C')
  | 'n' => some (.char '\n')
  | 'r' => some (.char '\r')
  | 't' => some (.char '\t')
  | _ => none

/-- The pieces of a string up to its closing quote.  Control characters must be escaped. -/
def readPieces : List Char → Option (List Piece × List Char)
  | [] => none
  | '"' :: cs => some ([], cs)
  | '\\' :: 'u' :: a :: b :: c :: d :: cs => do
    let piece ← unit? a b c d
    let (pieces, cs) ← readPieces cs
    some (piece :: pieces, cs)
  | '\\' :: c :: cs => do
    let piece ← escaped? c
    let (pieces, cs) ← readPieces cs
    some (piece :: pieces, cs)
  | c :: cs =>
    if c = '\\' ∨ c < ' ' then none
    else do
      let (pieces, cs) ← readPieces cs
      some (.char c :: pieces, cs)

/-- The characters that pieces stand for, two units of a surrogate pair together for one. -/
def assemble : List Piece → Option (List Char)
  | [] => some []
  | .char c :: pieces => do some (c :: (← assemble pieces))
  | .unit high :: .unit low :: pieces =>
    if 0xD800 ≤ high ∧ high < 0xDC00 then
      if 0xDC00 ≤ low ∧ low < 0xE000 then do
        some (Char.ofNat (0x10000 + (high - 0xD800) * 0x400 + (low - 0xDC00)) ::
          (← assemble pieces))
      else none
    else if 0xDC00 ≤ high ∧ high < 0xE000 then none
    else do some (Char.ofNat high :: (← assemble (.unit low :: pieces)))
  | .unit value :: pieces =>
    if 0xD800 ≤ value ∧ value < 0xE000 then none
    else do some (Char.ofNat value :: (← assemble pieces))

/-- A string whose opening quote has been read. -/
def readString (cs : List Char) : Option (Option String × List Char) := do
  let (pieces, cs) ← readPieces cs
  some ((assemble pieces).map String.ofList, cs)

mutual

/-- A value.  A text nests no deeper and lists no more than it has characters, which bounds `fuel`. -/
def readValue : (fuel : Nat) → List Char → Option (Json × List Char)
  | 0, _ => none
  | fuel + 1, cs =>
    match cs with
    | 'n' :: 'u' :: 'l' :: 'l' :: cs => some (.null, cs)
    | 't' :: 'r' :: 'u' :: 'e' :: cs => some (.bool true, cs)
    | 'f' :: 'a' :: 'l' :: 's' :: 'e' :: cs => some (.bool false, cs)
    | '"' :: cs => do
      let (text, cs) ← readString cs
      some (.string text, cs)
    | '[' :: cs =>
      match skipBlanks cs with
      | ']' :: cs => some (.array [], cs)
      | cs => do
        let (items, cs) ← readItems fuel cs
        some (.array items, cs)
    | '\x7B' :: cs =>
      match skipBlanks cs with
      | '\x7D' :: cs => some (.object [], cs)
      | cs => do
        let (members, cs) ← readMembers fuel cs
        some (.object members, cs)
    | '-' :: cs => readNumber true cs
    | cs => readNumber false cs

/-- The items of an array, up to its closing bracket. -/
def readItems : (fuel : Nat) → List Char → Option (List Json × List Char)
  | 0, _ => none
  | fuel + 1, cs => do
    let (item, cs) ← readValue fuel cs
    match skipBlanks cs with
    | ']' :: cs => some ([item], cs)
    | ',' :: cs =>
      let (items, cs) ← readItems fuel (skipBlanks cs)
      some (item :: items, cs)
    | _ => none

/-- The members of an object, up to its closing brace. -/
def readMembers : (fuel : Nat) → List Char → Option (List (Option String × Json) × List Char)
  | 0, _ => none
  | fuel + 1, cs =>
    match cs with
    | '"' :: cs => do
      let (name, cs) ← readString cs
      match skipBlanks cs with
      | ':' :: cs =>
        let (value, cs) ← readValue fuel (skipBlanks cs)
        match skipBlanks cs with
        | '\x7D' :: cs => some ([(name, value)], cs)
        | ',' :: cs =>
          let (members, cs) ← readMembers fuel (skipBlanks cs)
          some ((name, value) :: members, cs)
        | _ => none
      | _ => none
    | _ => none

end

/-- Reads a text that holds one value and nothing else but blanks around it. -/
def parse (text : String) : Option Json := do
  let cs := text.toList
  let (value, rest) ← readValue (2 * cs.length + 2) (skipBlanks cs)
  if skipBlanks rest = [] then some value else none

end Json

end Vcs.Text
