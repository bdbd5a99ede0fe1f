import SourceAudit.Url.Authority

namespace SourceAudit

structure Url where
  scheme : String
  host : Option Url.Host
  /-- The port of the request, which may be the usual one of the scheme. -/
  port : Option Nat
deriving DecidableEq, Repr

namespace Url

def isControl (c : Char) : Bool := c.toNat ≤ 0x20

/-- The text that is read: no controls and spaces around it, and no tabs or line ends in it. -/
def cleaned (text : List Char) : List Char :=
  let trimmed := ((text.dropWhile isControl).reverse.dropWhile isControl).reverse
  trimmed.filter fun c => c != '\t' && c != '\n' && c != '\r'

def splitScheme? (text : List Char) : Option (String × List Char) := do
  let (name, rest) ← Text.splitOnce [':'] text
  let start ← name.head?
  if start.isAlpha ∧ name.all fun c => c.isAlphanum || c == '+' || c == '-' || c == '.' then
    some (Text.lowerAscii (String.ofList name), rest)
  else none

/-- The authority after the scheme. The outer option says whether the URL can be read, the inner one
    whether it has an authority. -/
def authority? (kind : SchemeKind) (rest : List Char) : Option (Option Authority) :=
  match kind with
  | .file => (Authority.parseFile? rest).map some
  | .network _ => (ofPlace (rest.dropWhile fun c => c == '/' || c == '\\')).map some
  | .other =>
    match rest with
    | '/' :: '/' :: place => (ofPlace place).map some
    | _ => some none
where
  ofPlace (place : List Char) : Option Authority :=
    let ends := kind.endsAuthority
    Authority.parse? kind (place.takeWhile (!ends ·)) (place.dropWhile (!ends ·) != [])

def parse? (text : String) : Option Url := do
  let (scheme, rest) ← splitScheme? (cleaned (Text.trim text.toList))
  let kind := SchemeKind.ofName scheme
  let authority ← (authority? kind rest).join
  return ⟨scheme, authority.host, authority.port.or kind.port?⟩

/-- Reads the start of a URL that goes on with an unknown text. The host is known only if something
    after it is. -/
def parseStart? (text : String) : Option Url := do
  let start := Text.trimStart text.toList
  let (scheme, rest) ← Text.splitOnce "://".toList start
  if rest.any fun c => c == '/' || c == '?' || c == '#' then parse? (String.ofList start)
  else
    let url ← parse? (String.ofList scheme ++ "://runtime.invalid/")
    return { url with host := none, port := none }

end Url
end SourceAudit
