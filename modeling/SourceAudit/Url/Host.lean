import SourceAudit.Url.Address
import SourceAudit.Url.Idna

namespace SourceAudit.Url

inductive Host where
  | domain (name : String)
  | ipv4 (address : Ipv4)
  | ipv6 (address : Ipv6)
deriving DecidableEq, Repr

namespace Host

def display : Host → String
  | .domain name => name
  | .ipv4 address => address.display
  | .ipv6 address => address.display

def isInternal : Host → Bool
  | .domain name => name == "localhost" || Text.endsWith name ".localhost"
  | .ipv4 address => address.isInternal
  | .ipv6 address => address.isInternal

def hexValue? (c : Char) : Option Nat :=
  if Ipv6.isHexDigit c then Number.natural? 16 [c] else none

def unescape : List Char → List UInt8
  | [] => []
  | '%' :: high :: low :: rest =>
    match hexValue? high, hexValue? low with
    | some first, some second => UInt8.ofNat (first * 16 + second) :: unescape rest
    | _, _ => '%'.toNat.toUInt8 :: unescape (high :: low :: rest)
  | c :: rest => (String.ofList [c]).toUTF8.toList ++ unescape rest

def bracketed? : List Char → Option (Option Host)
  | '[' :: rest =>
    some (if rest.getLast? = some ']' then (Ipv6.parse? rest.dropLast).map .ipv6 else none)
  | _ => none

def ofDomain? (name : List Char) : Option Host :=
  if name = [] then none
  else if Ipv4.endsInNumber name then (Ipv4.parse? name).map .ipv4
  else some (.domain (String.ofList name))

def parse? (text : List Char) : Option Host :=
  match bracketed? text with
  | some host => host
  | none => do
    let decoded ← String.fromUTF8? ⟨(unescape text).toArray⟩
    ofDomain? (← Idna.ascii? decoded.toList)

def isForbidden (c : Char) : Bool := "\x00\t\n\r #/:<>?@[\\]^|".toList.contains c

/-- The host of a URL with any other scheme, which is not looked into. -/
def parseOpaque? (text : List Char) : Option Host :=
  match bracketed? text with
  | some host => host
  | none => if text.any isForbidden then none else some (.domain (String.ofList text))

end Host
end SourceAudit.Url
