import Kvasir.Lib.Lines
import Kvasir.Lib.Numerals
import Kvasir.Protocol
import Mathlib.Data.Rat.Defs
import Mathlib.Data.List.Sort

/-! The load harness: the client counts it is given, the lines its clients write,
what they make of the replies, and the figures taken from the latencies. A client is
closed loop: it reads one reply before it writes the next line. -/

namespace Kvasir.Bench
open Strings Utf8 Protocol

def comma : UInt8 := 0x2C

/-- The width of an int, which the platform fixes. -/
inductive IntSize where
  | bits32
  | bits64
  deriving DecidableEq, Repr

def IntSize.bits : IntSize → Nat
  | .bits32 => 32
  | .bits64 => 64

/-- `Sscanf` with `%d`: an integer is read, and what follows it stays unread. -/
def sscanfInt (size : IntSize) (f : Bytes) : Option Int :=
  match Numerals.scanInteger (skipSpace f) with
  | none => none
  | some (i, _) =>
    -- The token is parsed as 64 bits, then compared with its own lowest bits.
    if -2 ^ 63 ≤ i ∧ i < 2 ^ 63 ∧ i.bmod (2 ^ size.bits) = i then some i else none

def badCount (f : Bytes) : Bytes := text "bad count " ++ quote f

def parseIntsLoop (size : IntSize) : List Bytes → List Int → Except Bytes (List Int)
  | [], out => if out = [] then .error (text "no counts given") else .ok out
  | f :: fields, out =>
    let f := trimSpace f
    if f = [] then parseIntsLoop size fields out
    else
      match sscanfInt size f with
      | none => .error (badCount f)
      | some n => if n < 1 then .error (badCount f) else parseIntsLoop size fields (out ++ [n])

def parseInts (size : IntSize) (s : Bytes) : Except Bytes (List Int) := parseIntsLoop size (s.splitOn comma) []

/-- A workload, with the share of its requests that are GETs. -/
structure Workload where
  name : Bytes
  readRatio : ℚ
  deriving DecidableEq, Repr

/-- The 0.9 of the source, as the double that it is. -/
def nineTenths : ℚ := 8106479329266893 / 2 ^ 53

def unknownWorkload (name : Bytes) : Bytes := text "unknown workload " ++ quote name

def parseWorkloadsLoop : List Bytes → List Workload → Except Bytes (List Workload)
  | [], out => if out = [] then .error (text "no workloads given") else .ok out
  | name :: names, out =>
    let name := trimSpace name
    if name = [] then parseWorkloadsLoop names out
    else if name = text "get" then parseWorkloadsLoop names (out ++ [⟨name, 1⟩])
    else if name = text "set" then parseWorkloadsLoop names (out ++ [⟨name, 0⟩])
    else if name = text "mixed" then parseWorkloadsLoop names (out ++ [⟨name, nineTenths⟩])
    else .error (unknownWorkload name)

def parseWorkloads (s : Bytes) : Except Bytes (List Workload) := parseWorkloadsLoop (s.splitOn comma) []

/-- Writes digits from the end of the buffer, of which `i` bytes are free. -/
def itoaLoop : Nat → Nat → Bytes → Option Bytes
  | _, 0, b => some b
  | 0, _, _ => none
  | i + 1, n, b => itoaLoop i (n / 10) (UInt8.ofNat (0x30 + n % 10) :: b)

/-- The numeral of a count, unless it overruns the buffer. -/
def itoa (n : Nat) : Option Bytes := if n = 0 then some (text "0") else itoaLoop 20 n []

/-- What the random source gives for one request. -/
structure Draw where
  key : Nat
  read : Bool
  deriving DecidableEq, Repr

def keyName (n : Nat) : Option Bytes := (itoa n).map (text "key" ++ ·)

def getLine (key : Bytes) : Bytes := text "GET " ++ key ++ [newline]

def setLine (key value : Bytes) : Bytes := text "SET " ++ key ++ text " " ++ value ++ [newline]

def requestLine (value : Bytes) (draw : Draw) : Option Bytes :=
  (keyName draw.key).map fun key => if draw.read then getLine key else setLine key value

inductive RunError where
  | index
  | write
  | read
  | unexpected (reply line : Bytes)
  deriving DecidableEq, Repr

/-- What a client wrote and read, and its error. -/
structure Outcome where
  sent : Bytes := []
  replies : List Bytes := []
  error : Option RunError := none
  deriving DecidableEq, Repr

def Outcome.after (line reply : Bytes) (rest : Outcome) : Outcome :=
  { rest with sent := line ++ rest.sent, replies := reply :: rest.replies }

/-- A GET is always a hit and a SET always replies OK. -/
def unexpected (reply : Bytes) : Bool := (text "ERR ").isPrefixOf reply || reply == text "(nil)\n"

/-- The requests of a client, of which so many can be written, against what
arrives on its connection. -/
def run (value : Bytes) : List Draw → Nat → Bytes → Outcome
  | [], _, _ => {}
  | draw :: draws, writes, inbound =>
    match requestLine value draw, writes with
    | none, _ => { error := some .index }
    | some _, 0 => { error := some .write }
    | some line, writes + 1 =>
      match Lines.cut newline inbound with
      | none => { sent := line, error := some .read }
      | some (reply, inbound) =>
        let reply := reply ++ [newline]
        if unexpected reply then { sent := line, replies := [reply], error := some (.unexpected reply line) }
        else (run value draws writes inbound).after line reply

/-- Sets the keys from `i` on, whatever is replied. -/
def populateFrom (value : Bytes) (i : Nat) : Nat → Nat → Bytes → Outcome
  | 0, _, _ => {}
  | left + 1, writes, inbound =>
    match keyName i, writes with
    | none, _ => { error := some .index }
    | some _, 0 => { error := some .write }
    | some key, writes + 1 =>
      match Lines.cut newline inbound with
      | none => { sent := setLine key value, error := some .read }
      | some (reply, inbound) =>
        (populateFrom value (i + 1) left writes inbound).after (setLine key value) (reply ++ [newline])

def populate (keys : Nat) (value : Bytes) (writes : Nat) (inbound : Bytes) : Outcome :=
  populateFrom value 0 keys writes inbound

structure Result where
  ops : Nat
  dur : Int
  lat : List Int
  deriving DecidableEq, Repr

def Result.of (elapsed : Int) (lats : List (List Int)) : Result :=
  { ops := lats.flatten.length, dur := elapsed, lat := lats.flatten.insertionSort (· ≤ ·) }

theorem Result.of_ascending (elapsed : Int) (lats : List (List Int)) : (Result.of elapsed lats).lat.Pairwise (· ≤ ·) :=
  List.pairwise_insertionSort (· ≤ ·) lats.flatten

def Result.max (r : Result) : Int := r.lat.getLastD 0

/-- `int(x)` cuts off the fraction. -/
def truncate (x : ℚ) : Int := x.num.tdiv x.den

/-- The latency at a percentage, `none` where the index is out of range. -/
def Result.pct (r : Result) (p : ℚ) : Option Int :=
  if r.lat = [] then some 0
  else
    let i := truncate (p / 100 * r.lat.length)
    let i := if r.lat.length ≤ i then (r.lat.length : Int) - 1 else i
    if 0 ≤ i then r.lat[i.toNat]? else none

end Kvasir.Bench
