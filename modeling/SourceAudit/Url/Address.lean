import SourceAudit.Number.Reading
import SourceAudit.Text.Search

namespace SourceAudit.Url

structure Ipv4 where
  value : Nat
deriving DecidableEq, Repr

namespace Ipv4

def octets (address : Ipv4) : List Nat :=
  [address.value >>> 24 % 256, address.value >>> 16 % 256, address.value >>> 8 % 256,
    address.value % 256]

def display (address : Ipv4) : String := ".".intercalate (address.octets.map toString)

def isInternal (address : Ipv4) : Bool :=
  address.value >>> 24 == 127 || address.value >>> 16 == 169 * 256 + 254 || address.value == 0

def part? (text : List Char) : Option Nat :=
  match text with
  | [] => none
  | ['0'] => some 0
  | '0' :: 'x' :: digits | '0' :: 'X' :: digits =>
    if digits = [] then some 0 else Number.natural? 16 digits
  | '0' :: digits => Number.natural? 8 digits
  | digits => Number.natural? 10 digits

def parts (host : List Char) : List (List Char) :=
  let all := Text.split (· == '.') host
  if all.getLast? = some [] then all.dropLast else all

/-- Whether a host has to be read as an address. -/
def endsInNumber (host : List Char) : Bool :=
  match (parts host).getLast? with
  | none => false
  | some last => (last != [] && last.all Char.isDigit) || (part? last).isSome

/-- The number that the leading parts and the last one make. The last part fills all the bytes that
    the others leave. -/
def combine? (leading : List Nat) (last : Nat) : Option Nat :=
  if 3 < leading.length ∨ leading.any (255 < ·) ∨ 1 <<< (8 * (4 - leading.length)) ≤ last then none
  else
    let high := leading.foldl (fun value octet => value * 256 + octet) 0
    some (high <<< (8 * (4 - leading.length)) + last)

def parse? (host : List Char) : Option Ipv4 := do
  let numbers ← (parts host).mapM part?
  let last ← numbers.getLast?
  return ⟨← combine? numbers.dropLast last⟩

end Ipv4

structure Ipv6 where
  pieces : List Nat
deriving DecidableEq, Repr

namespace Ipv6

def isHexDigit (c : Char) : Bool :=
  c.isDigit || ('a' ≤ c && c ≤ 'f') || ('A' ≤ c && c ≤ 'F')

def piece? (text : List Char) : Option Nat :=
  if text.length ≤ 4 ∧ text.all isHexDigit then Number.natural? 16 text else none

def octet? (text : List Char) : Option Nat :=
  match text with
  | '0' :: _ :: _ => none
  | _ =>
    if text.all Char.isDigit then (Number.natural? 10 text).filter (· ≤ 255) else none

def lastGroup? (text : List Char) : Option (List Nat) :=
  if text.contains '.' then
    match (Text.split (· == '.') text).mapM octet? with
    | some [a, b, c, d] => some [a * 256 + b, c * 256 + d]
    | _ => none
  else (piece? text).map ([·])

def groups? (text : List Char) : Option (List Nat) := do
  let all := Text.split (· == ':') text
  let leading ← all.dropLast.mapM piece?
  return leading ++ (← lastGroup? (← all.getLast?))

/-- The groups on one side of `::`, of which there may be none. -/
def side? (text : List Char) : Option (List Nat) := if text = [] then some [] else groups? text

def parse? (text : List Char) : Option Ipv6 :=
  match Text.splitOnce [':', ':'] text with
  | none => do
    let pieces ← groups? text
    if pieces.length = 8 then some ⟨pieces⟩ else none
  | some (left, right) => do
    if left.contains '.' then none
    let first ← side? left
    let last ← side? right
    let known := first.length + last.length
    if known ≤ 7 then some ⟨first ++ List.replicate (8 - known) 0 ++ last⟩ else none

def isInternal (address : Ipv6) : Bool :=
  address.pieces == [0, 0, 0, 0, 0, 0, 0, 0] || address.pieces == [0, 0, 0, 0, 0, 0, 0, 1] ||
    (address.pieces.headD 0) / 64 == 0xfe80 / 64

def hex (piece : Nat) : String := String.ofList (Nat.toDigits 16 piece)

def joined (pieces : List Nat) : String := ":".intercalate (pieces.map hex)

def longestRun (pieces : List Nat) : Nat × Nat :=
  (List.range pieces.length).foldl (fun best start =>
    let length := ((pieces.drop start).takeWhile (· == 0)).length
    if best.2 < length then (start, length) else best) (0, 0)

/-- The usual short form: `::` for the longest run of at least two zeros, and four decimal octets
    after `::ffff:`. -/
def display (address : Ipv6) : String :=
  match address.pieces with
  | [0, 0, 0, 0, 0, 0xffff, high, low] =>
    "::ffff:" ++ (Ipv4.mk (high <<< 16 + low)).display
  | pieces =>
    let (start, length) := longestRun pieces
    if length < 2 then joined pieces
    else joined (pieces.take start) ++ "::" ++ joined (pieces.drop (start + length))

end Ipv6
end SourceAudit.Url
