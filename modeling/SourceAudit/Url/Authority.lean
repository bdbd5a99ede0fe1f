import SourceAudit.Url.Host

namespace SourceAudit.Url

inductive SchemeKind where
  | network (port : Nat)
  | file
  | other
deriving DecidableEq, Repr

def SchemeKind.ofName : String → SchemeKind
  | "http" | "ws" => .network 80
  | "https" | "wss" => .network 443
  | "ftp" => .network 21
  | "file" => .file
  | _ => .other

def SchemeKind.port? : SchemeKind → Option Nat
  | .network port => some port
  | _ => none

def SchemeKind.endsAuthority (kind : SchemeKind) (c : Char) : Bool :=
  c == '/' || c == '?' || c == '#' || (kind != .other && c == '\\')

structure Authority where
  host : Option Host := none
  port : Option Nat := none
deriving DecidableEq, Repr

namespace Authority

def splitUser (text : List Char) : Option (List Char × List Char) :=
  if text.contains '@' then
    some ((text.reverse.dropWhile (· ≠ '@')).drop 1 |>.reverse,
      (text.reverse.takeWhile (· ≠ '@')).reverse)
  else none

/-- Parts before the first colon outside brackets and from it on. -/
def splitPort : Bool → List Char → List Char × List Char
  | _, [] => ([], [])
  | bracket, c :: rest =>
    if c = ':' ∧ !bracket then ([], c :: rest)
    else
      let inside := if c = '[' then true else if c = ']' then false else bracket
      let (host, port) := splitPort inside rest
      (c :: host, port)

/-- The port after the colon. A colon alone gives none, and a backslash ends the port. -/
def port? (text : List Char) : Option (Option Nat) :=
  let digits := (text.drop 1).takeWhile (· ≠ '\\')
  if digits = [] then some none
  else if digits.all Char.isDigit then
    ((Number.natural? 10 digits).filter (· < 0x10000)).map some
  else none

/-- A missing host is an error for network schemes, beside a user and before a port. -/
def host? (kind : SchemeKind) (hasUser hasPort : Bool) (text : List Char) : Option (Option Host) :=
  if kind = .other then
    if text = [] then if hasUser || hasPort then none else some none
    else (Host.parseOpaque? text).map some
  else (Host.parse? text).map some

def parse? (kind : SchemeKind) (text : List Char) (followed : Bool) : Option Authority := do
  let (user, place) := (splitUser text).getD ([], text)
  if splitUser text = some ([], []) ∧ followed then none
  let (host, port) := splitPort false place
  let host ← host? kind (user != [] && user != [':']) (port != []) host
  return ⟨host, ← port? port⟩

def isLetterDrive (text : List Char) : Bool :=
  match text with
  | [letter, mark] => letter.isAlpha && (mark == ':' || mark == '|')
  | _ => false

def isDot (segment : List Char) : Bool :=
  [".", "%2e"].contains (String.ofList (segment.map Char.toLower))

def isDoubleDot (segment : List Char) : Bool :=
  ["..", ".%2e", "%2e.", "%2e%2e"].contains (String.ofList (segment.map Char.toLower))

/-- Whether a drive comes first among the segments once the dots are resolved. The segments that
    were passed are given with the last one first; a drive among them is never left again. -/
def startsWithDrive : List (List Char) → List (List Char) → Bool
  | _, [] => false
  | passed, segment :: rest =>
    if isDoubleDot segment then
      startsWithDrive (if passed.head?.any isLetterDrive then passed else passed.drop 1) rest
    else if isDot segment then startsWithDrive passed rest
    else (passed.isEmpty && isLetterDrive segment) || startsWithDrive (segment :: passed) rest

def hasDrive (path : List Char) : Bool :=
  let segments := path.takeWhile fun c => c != '?' && c != '#'
  startsWithDrive [] (Text.split (fun c => c == '/' || c == '\\') (segments.drop 1))

/-- Reads what follows `file:`. A drive in the path leaves no place for a host. -/
def parseFile? : List Char → Option Authority
  | first :: second :: rest =>
    if (first == '/' || first == '\\') && (second == '/' || second == '\\') then
      let host := rest.takeWhile (!SchemeKind.file.endsAuthority ·)
      let path := rest.dropWhile (!SchemeKind.file.endsAuthority ·)
      if isLetterDrive host || host = [] then some {}
      else do
        let host ← Host.parse? host
        return if host = .domain "localhost" || hasDrive path then {} else { host }
    else some {}
  | _ => some {}

end Authority
end SourceAudit.Url
