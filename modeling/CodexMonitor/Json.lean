import Mathlib.Algebra.GroupWithZero.Nat
import Mathlib.Data.List.Sort
import Mathlib.Data.UInt
import Mathlib.Tactic.Common

/-!
# JSON values and their canonical text

`Value` is the value type of the JSON library the runtime uses, with its three
kinds of number.  `canonicalJson` is the encoding the store compares and keeps:
object keys sorted at every depth, no white space.  Printing a double, reading
text back and splitting a URL are done by third-party code; `Crates` stands for
it.
-/

namespace CodexMonitor

/-- A JSON number: a 64-bit unsigned or negative integer, or a finite double by its bits. -/
inductive Number
  | posInt (n : UInt64)
  | negInt (n : Int64)
  | float (bits : UInt64)
deriving DecidableEq, Repr

/-- A JSON value.  An object is the list of its fields in map order. -/
inductive Value
  | null
  | bool (b : Bool)
  | number (n : Number)
  | string (s : String)
  | array (items : List Value)
  | object (fields : List (String × Value))
deriving BEq, Repr

/-- The parts of a URL the endpoint checks read. -/
structure Url where
  scheme : String
  host : Option String
  username : String
  password : Option String
  fragment : Option String
deriving DecidableEq, Repr

/-- The third-party functions the modelled code calls. -/
structure Crates where
  /-- The text of a finite double, given by its bits. -/
  floatText : UInt64 → String
  /-- Parse a JSON text. -/
  fromStr : String → Option Value
  /-- Split a URL. -/
  parseUrl : String → Option Url
  /-- `json_extract(text,'$.trace_id')` of the database: an error if it cannot read the text, and
  none if there is no text under the key. -/
  extractTraceId : String → Option (Option String)

namespace Number

/-- The number of an `i64`. -/
def ofI64 (n : Int) : Number :=
  if 0 ≤ n then .posInt (UInt64.ofNat n.toNat) else .negInt (Int64.ofInt n)

/-- The number as an `i64`, when it is an integer in range. -/
def asI64 : Number → Option Int
  | .posInt n => if n.toNat < 2 ^ 63 then some n.toNat else none
  | .negInt n => some n.toInt
  | .float _ => none

/-- The number as a `u64`, when it is a nonnegative integer. -/
def asU64 : Number → Option Nat
  | .posInt n => some n.toNat
  | .negInt _ => none
  | .float _ => none

def text (crates : Crates) : Number → String
  | .posInt n => toString n.toNat
  | .negInt n => toString n.toInt
  | .float bits => crates.floatText bits

end Number

namespace Value

/-- The field of an object, if the value is an object that has it. -/
def get (v : Value) (key : String) : Option Value :=
  match v with
  | .object fields => (fields.find? fun field => field.1 = key).map Prod.snd
  | _ => none

def asStr : Value → Option String
  | .string s => some s
  | _ => none

def asBool : Value → Option Bool
  | .bool b => some b
  | _ => none

def asI64 : Value → Option Int
  | .number n => n.asI64
  | _ => none

def asU64 : Value → Option Nat
  | .number n => n.asU64
  | _ => none

def asArray : Value → Option (List Value)
  | .array items => some items
  | _ => none

def asObject : Value → Option (List (String × Value))
  | .object fields => some fields
  | _ => none

/-- The string under a key. -/
def getStr (v : Value) (key : String) : Option String :=
  (v.get key).bind asStr

end Value

/-! ## Canonical text -/

/-- A lower-case hexadecimal digit. -/
def hexDigit (n : Nat) : Char :=
  if n < 10 then Char.ofNat (48 + n) else Char.ofNat (87 + n)

/-- One character of a JSON string. -/
def escapeChar (c : Char) : List Char :=
  match c.toNat with
  | 0x22 => ['\\', Char.ofNat 0x22]
  | 0x5c => ['\\', '\\']
  | 0x08 => ['\\', 'b']
  | 0x09 => ['\\', 't']
  | 0x0a => ['\\', 'n']
  | 0x0c => ['\\', 'f']
  | 0x0d => ['\\', 'r']
  | n => if n < 0x20 then ['\\', 'u', '0', '0', hexDigit (n / 16), hexDigit (n % 16)] else [c]

/-- The text of a JSON string, quotes included. -/
def stringText (s : String) : String :=
  "\"" ++ String.ofList (s.toList.flatMap escapeChar) ++ "\""

/-- Fields by key, as the canonical text lists them. -/
def sortKeys (fields : List (String × String)) : List (String × String) :=
  fields.insertionSort fun a b => a.1 ≤ b.1

mutual

/-- The canonical text of a value: keys sorted at every depth, no white space. -/
def canonicalJson (crates : Crates) : Value → String
  | .null => "null"
  | .bool b => if b then "true" else "false"
  | .number n => n.text crates
  | .string s => stringText s
  | .array items => "[" ++ ",".intercalate (canonicalItems crates items) ++ "]"
  | .object fields =>
      "\x7b" ++ ",".intercalate ((sortKeys (canonicalFields crates fields)).map fun field =>
        stringText field.1 ++ ":" ++ field.2) ++ "\x7d"

def canonicalItems (crates : Crates) : List Value → List String
  | [] => []
  | item :: items => canonicalJson crates item :: canonicalItems crates items

def canonicalFields (crates : Crates) : List (String × Value) → List (String × String)
  | [] => []
  | (key, value) :: fields => (key, canonicalJson crates value) :: canonicalFields crates fields

end

end CodexMonitor
