import SourceAudit.Grammar.Error
import SourceAudit.Text.Class

namespace SourceAudit

inductive Piece where
  | literal (text : List Char)
  | replacement (text : List Char) (line : Nat)
  | broken (error : SyntaxError)
deriving DecidableEq, Repr

/-- A replacement field without its braces: the expression, all of its body and what follows. -/
structure Replacement where
  expression : List Char
  body : List Char
  rest : List Char

namespace Replacement

/-- Where the scan of a replacement field stands: open brackets, the open quote, and whether the
    expression has ended. -/
structure Place where
  depth : Nat
  quote : Option Char
  ended : Bool

namespace Place

def start : Place := ⟨0, none, false⟩

def isClosing (place : Place) (c : Char) : Bool :=
  place.quote.isNone && place.depth == 0 && c == '\x7d'

/-- The place after a character that does not close the field; `next?` is the character after it. -/
def step (place : Place) (c : Char) (next? : Option Char) : Place :=
  match place.quote with
  | some quote => if c = quote then { place with quote := none } else place
  | none =>
    if Token.isQuote c then { place with quote := some c }
    else if c = '(' ∨ c = '[' ∨ c = '\x7b' then { place with depth := place.depth + 1 }
    else if c = ')' ∨ c = ']' ∨ c = '\x7d' then { place with depth := place.depth - 1 }
    else if place.depth = 0 ∧ (c = ':' ∨ c = '!' ∧ next? ≠ some '=') then
      { place with ended := true }
    else place

end Place

def scan (place : Place) : List Char → Option Replacement
  | [] => none
  | c :: rest =>
    if place.isClosing c then some ⟨[], [], rest⟩
    else
      let after := place.step c rest.head?
      (scan after rest).map fun field =>
        { field with
          expression := if after.ended then field.expression else c :: field.expression
          body := c :: field.body }

theorem scan_rest_lt {text : List Char} {place : Place} {field : Replacement}
    (found : scan place text = some field) : field.rest.length < text.length := by
  induction text generalizing place field with
  | nil => simp [scan] at found
  | cons c rest ih =>
    simp only [scan] at found
    split at found
    · cases found
      simp
    · simp only [Option.map_eq_some_iff] at found
      obtain ⟨inner, same, rfl⟩ := found
      have := ih same
      simp only [List.length_cons]
      omega

/-- The expression of `name=`: a final `=` only asks for the text to be shown, unless it belongs to
    a comparison. -/
def withoutMarker (text : List Char) : List Char :=
  match text.reverse with
  | '=' :: before =>
    match before with
    | c :: _ =>
      if c = '=' ∨ c = '!' ∨ c = '<' ∨ c = '>' then text else Text.trimEnd before.reverse
    | [] => []
  | _ => text

def lineBreaks (text : List Char) : Nat := text.count '\n'

end Replacement

namespace Piece

def consChar (c : Char) : List Piece → List Piece
  | literal text :: rest => literal (c :: text) :: rest
  | pieces => literal [c] :: pieces

/-- The pieces of the body of a formatted string that starts at `line`. A brace that cannot be read
    ends them. -/
def ofBody (line : Nat) (text : List Char) : List Piece :=
  match text with
  | [] => []
  | '\x7b' :: '\x7b' :: rest => consChar '\x7b' (ofBody line rest)
  | '\x7b' :: rest =>
    match _found : Replacement.scan .start rest with
    | none => [broken ⟨line, .unterminatedReplacement⟩]
    | some field =>
      let expression := Replacement.withoutMarker (Text.trim field.expression)
      if expression = [] then [broken ⟨line, .emptyReplacement⟩]
      else replacement expression line ::
        ofBody (Token.lineAfter line (Replacement.lineBreaks field.body)) field.rest
  | '\x7d' :: '\x7d' :: rest => consChar '\x7d' (ofBody line rest)
  | '\x7d' :: _ => [broken ⟨line, .singleBrace⟩]
  | c :: rest => consChar c (ofBody (if c = '\n' then Token.lineAfter line 1 else line) rest)
termination_by text.length
decreasing_by
  all_goals first
    | exact Nat.lt_succ_of_lt (Replacement.scan_rest_lt _found)
    | simp only [List.length_cons]; omega

end Piece
end SourceAudit
