import Dmx4Linux2.Librdm.Model.Api

/-!
# librdm — the shell

`CommandParser` calls the function that is registered under the first word of a
line, and `execfile` executes the lines of a file; `RdmInterpreter` has the
functions of `rdmshell`, here for a controller on a bus. A text is a list of
characters, each of them a byte. What is printed is kept as it was put into the
stream, a number with the base it is printed in.
-/

namespace Dmx4Linux2

namespace Librdm

abbrev Text := List Char

/-! ## Words and lines -/

/-- The characters `trim` takes away. -/
def whitespace (c : Char) : Bool := c = ' ' || c = '\t'

/-- `trim`, by the positions of the first and the last other character. -/
def trim (str : Text) : Text :=
  match str.findIdx? fun c => !whitespace c with
  | none => []
  | some strBegin =>
    let strEnd := str.length - 1 - str.reverse.findIdx fun c => !whitespace c
    (str.drop strBegin).take (strEnd - strBegin + 1)

/-- `command.find(seperator, pos)`. -/
def find (seperator : Char) (command : Text) (pos : ℕ) : Option ℕ :=
  ((command.drop pos).findIdx? fun c => c == seperator).map fun i => pos + i

/-- The loop of `split_command`, with a number of passes left. -/
def splitLoop (command : Text) : ℕ → ℕ → List Text
  | 0, prevPos => [command.drop prevPos]
  | passes + 1, prevPos =>
    match find ' ' command prevPos with
    | some pos => (command.drop prevPos).take (pos - prevPos) :: splitLoop command passes (pos + 1)
    | none => [command.drop prevPos]

/-- `split_command`: each pass of the loop finds another character. -/
def splitCommand (command : Text) : List Text :=
  splitLoop (trim command) (trim command).length 0

/-- What a `const char *` tells of a text. -/
def cString (s : Text) : Text := s.takeWhile fun c => c != '\x00'

/-- The lines `std::getline` reads, with what is read of the first. -/
def getlines (line : Text) : Text → List Text
  | [] => if line = [] then [] else [line]
  | c :: cs => if c = '\n' then line :: getlines [] cs else getlines (line ++ [c]) cs

/-! ## `CommandParser` -/

abbrev Arguments := List Text

/-- `CommandFunction`: `execute_file`, which calls the parser again, or another. -/
inductive CommandFunction (σ : Type)
  | executeFile
  | function (f : Arguments → σ → σ)

/-- `m_functions`. -/
structure CommandParser (σ : Type) where
  functions : Text → Option (CommandFunction σ)

/-- The files that can be opened, by their names. -/
abbrev Files := List (Text × Text)

namespace CommandParser

variable {σ : Type}

def addCommand (p : CommandParser σ) (name : Text) (f : CommandFunction σ) : CommandParser σ :=
  ⟨Function.update p.functions name (some f)⟩

def new : CommandParser σ :=
  (⟨fun _ => none⟩ : CommandParser σ).addCommand "execfile".toList .executeFile

/-- The lines of a file that `execute_file` executes. -/
def commands (files : Files) : Arguments → List Text
  | _ :: path :: _ =>
    match files.lookup path with
    | some content => (getlines [] content).filter fun line => line.head? != some '#'
    | none => []
  | _ => []

/-- `Execute`, with less than `fuel` files inside one another: whether there is
such a command, and what it leaves. -/
def execute (p : CommandParser σ) (files : Files) : ℕ → Text → σ → Option (Bool × σ)
  | 0, _, _ => none
  | fuel + 1, command, s =>
    match splitCommand (cString command) with
    | [] => some (false, s)
    | name :: args =>
      match p.functions name with
      | none => some (false, s)
      | some (.function f) => some (true, f (name :: args) s)
      | some .executeFile =>
        ((commands files (name :: args)).foldlM
          (fun s line => (p.execute files fuel line s).map Prod.snd) s).map fun s => (true, s)

end CommandParser

/-! ## Numbers -/

/-- `isspace`. -/
def isSpace (c : Char) : Bool := c = ' ' || ('\t' ≤ c && c ≤ '\r')

/-- The value of a digit, and 36 for any other character. -/
def digitValue (c : Char) : ℕ :=
  if '0' ≤ c ∧ c ≤ '9' then c.toNat - 48
  else if 'a' ≤ c ∧ c ≤ 'z' then c.toNat - 87
  else if 'A' ≤ c ∧ c ≤ 'Z' then c.toNat - 55
  else 36

/-- The number at the beginning of a text. -/
def magnitude (base : ℕ) (s : Text) : ℕ :=
  ((s.map digitValue).takeWhile fun d => d < base).foldl (fun n d => n * base + d) 0

/-- `0x` in front of a digit. -/
def hasHexPrefix : Text → Bool
  | '0' :: x :: d :: _ => (x = 'x' || x = 'X') && digitValue d < 16
  | _ => false

/-- The space in front is skipped: whether there is a minus sign, and what is
behind the sign. -/
def signed (str : Text) : Bool × Text :=
  match str.dropWhile isSpace with
  | '-' :: s => (true, s)
  | '+' :: s => (false, s)
  | s => (false, s)

/-- `strtoull(str, 0, 16)`. -/
def strtoull (str : Text) : ℕ :=
  let s := (signed str).2
  let n := magnitude 16 (if hasHexPrefix s then s.drop 2 else s)
  if 2 ^ 64 ≤ n then 2 ^ 64 - 1 else if (signed str).1 then (2 ^ 64 - n) % 2 ^ 64 else n

/-- `strtol(str, 0, 0)`. -/
def strtol (str : Text) : ℤ :=
  let s := (signed str).2
  let n :=
    if hasHexPrefix s then magnitude 16 (s.drop 2)
    else if s.head? = some '0' then magnitude 8 s
    else magnitude 10 s
  if (signed str).1 then max (-2 ^ 63) (-(n : ℤ)) else min (2 ^ 63 - 1) (n : ℤ)

/-- `Uid(const std::string &)` as a number. -/
def uidOf (str : Text) : ℕ := strtoull str / 2 ^ 32 % 2 ^ 16 * 2 ^ 32 + strtoull str % 2 ^ 32

/-! ## `RdmInterpreter` -/

/-- What is put into the stream; a number that is not set is nothing. -/
inductive Printed
  | text (s : Text)
  | number (hex : Bool) (v : Option ℕ)
  | character (v : Option ℕ)
  | endl
  deriving DecidableEq, Repr

/-- A number as the stream prints it. -/
def numberText (hex : Bool) (v : ℕ) : Text := Nat.toDigits (if hex then 16 else 10) v

/-- The controller on a bus, `m_discoveredDevices`, and the stream. -/
structure Shell where
  sys : System
  discoveredDevices : List ℕ
  /-- Numbers are printed in base 16. -/
  hex : Bool
  out : List Printed
  /-- What the memory of a setter holds, for one setter after the other. -/
  buffers : ℕ → Mem
  setters : ℕ

namespace Shell

/-- The shell as it starts; a controller is constructed with two devices. -/
def start (sys : System) (buffers : ℕ → Mem) : Shell where
  sys := sys
  discoveredDevices := [0x4D530000AAAA, 0x4D5300000005]
  hex := false
  out := []
  buffers := buffers
  setters := 0

def print (s : Shell) (ps : List Printed) : Shell := { s with out := s.out ++ ps }

/-- `out << v` -/
def printNumber (s : Shell) (v : Option ℕ) : Shell := s.print [.number s.hex v]

/-- `out << std::hex` -/
def setHex (s : Shell) : Shell := { s with hex := true }

def mute (args : Arguments) (s : Shell) : Shell :=
  match args with
  | _ :: whom :: _ => { s with sys := s.sys.mute (uidOf whom) }
  | _ => s

def unmute (args : Arguments) (s : Shell) : Shell :=
  match args with
  | _ :: whom :: _ => { s with sys := s.sys.unmute (uidOf whom) }
  | _ => s

/-- `RdmApi::startDiscovery`. -/
def startDiscovery (first last maxSearchCount : ℕ) (s : Shell) : Shell :=
  { s with
    sys := (s.sys.discoverDevices first last maxSearchCount).1.sys
    discoveredDevices := (s.sys.discoverDevices first last maxSearchCount).1.discoveredDevices }

/-- `startDiscovery` with the defaults of its arguments. -/
def startDiscoveryAll (s : Shell) : Shell := s.startDiscovery 0x000000000001 0xFFFFFFFFFFFE 0xffffffff

def discovery (args : Arguments) (s : Shell) : Shell :=
  match args with
  | [_, first, last] => s.startDiscovery (uidOf first) (uidOf last) 0xffffffff
  | [_, uid] => s.startDiscovery (uidOf uid) (uidOf uid) 1
  | _ => s.startDiscoveryAll

def listdevices (_ : Arguments) (s : Shell) : Shell :=
  s.discoveredDevices.foldl (fun s uid => (s.setHex.printNumber (some uid)).print [.endl]) s

/-- A setter is committed at the end of the expression it is made in. -/
def commit (s : Shell) (setter : RdmApiSetter) : Shell :=
  { s with sys := s.sys.commit setter, setters := s.setters + 1 }

def set (args : Arguments) (s : Shell) : Shell :=
  match args with
  | _ :: who :: what :: value :: _ =>
    let setter := System.set (s.buffers s.setters) (uidOf who)
    if what = "address".toList then
      s.commit ((setter dmxStartAddress).addU16 (UInt16.ofInt (strtol value)))
    else if what = "identify".toList then
      s.commit ((setter identifyDevice).addU8 (UInt8.ofInt (strtol value)))
    else if what = "factory-uid".toList then s.commit ((setter 0xFEED).addUid (uidOf value))
    else s
  | _ => s

/-- `m_rdm.get`, and the future when it was waited for. -/
def get (s : Shell) (who pid : ℕ) : Shell × RdmFuture :=
  let r := s.sys.get who pid
  ({ s with sys := r.1.waitFor r.2 }, r.1.api.object r.2)

/-- `f.at<T>(offset)`, which is 0 when nothing was received. -/
def futureAt (f : RdmFuture) (offset size : ℕ) : Option ℕ :=
  if f.wait.okay then f.dec.pdAt offset size else some 0

/-- A label and a value, and the end of the line. -/
def printField (s : Shell) (label : String) (v : Option ℕ) : Shell :=
  ((s.print [.text label.toList]).printNumber v).print [.endl]

def printInfo (s : Shell) (f : RdmFuture) : Shell :=
  s.setHex.printField "RDM Protocol Version:" (futureAt f 0 2)
    |>.printField "DeviceModel ID:" (futureAt f 2 2)
    |>.printField "Product Category:" (futureAt f 4 2)
    |>.printField "Software Version:" (futureAt f 6 4)
    |>.printField "DMX512 Footprint:" (futureAt f 10 2)
    |>.printField "DMX512 Personality:" (futureAt f 12 2)
    |>.printField "DMX512 Start Address:" (futureAt f 14 2)
    |>.printField "SubDevice Count:" (futureAt f 16 2)
    |>.printField "Sensor Count:" (futureAt f 18 1)

/-- The array a label is read to is zeroed. -/
def printVersion (s : Shell) (f : RdmFuture) : Shell :=
  let chars := ((f.charsAt 0 f.size).getD []).map fun c => Char.ofNat c.toNat
  ((s.print [.text "SW-Version[".toList]).printNumber (some f.size)).print
    [.text "]: '".toList, .text (cString chars), .text ['\''], .endl]

def getCommand (args : Arguments) (s : Shell) : Shell :=
  match args with
  | _ :: who :: what :: _ =>
    if what = "address".toList then
      let r := s.get (uidOf who) dmxStartAddress
      r.1.printField "dmx-address:" (futureAt r.2 0 2)
    else if what = "identify".toList then
      let r := s.get (uidOf who) identifyDevice
      r.1.print [.text "identify:".toList, .character (futureAt r.2 0 1), .endl]
    else if what = "info".toList then
      let r := s.get (uidOf who) deviceInfo
      r.1.printInfo r.2
    else if what = "swversion".toList then
      let r := s.get (uidOf who) softwareVersionLabel
      r.1.printVersion r.2
    else s
  | _ => s

/-- A pass of the loop of `test`. -/
def testPass (s : Shell) : Shell :=
  let s := s.startDiscoveryAll
  let s := s.discoveredDevices.foldl
    (fun s uid => (s.setHex.printNumber (some uid)).print [.text [' ']]) s
  let s := s.print [.endl]
  { s with sys := s.sys.unmute broadcast }

/-- The number of iterations is an `int`. -/
def test (args : Arguments) (s : Shell) : Shell :=
  match args with
  | _ :: count :: _ => testPass^[((strtol count).bmod (2 ^ 32)).toNat] s
  | _ => s

end Shell

/-- The parser of `rdmshell`, with the functions of the interpreter. -/
def rdmParser : CommandParser Shell :=
  (CommandParser.new.addCommand "mute".toList (.function Shell.mute))
    |>.addCommand "unmute".toList (.function Shell.unmute)
    |>.addCommand "discovery".toList (.function Shell.discovery)
    |>.addCommand "listdevices".toList (.function Shell.listdevices)
    |>.addCommand "get".toList (.function Shell.getCommand)
    |>.addCommand "set".toList (.function Shell.set)
    |>.addCommand "test".toList (.function Shell.test)

end Librdm

end Dmx4Linux2
