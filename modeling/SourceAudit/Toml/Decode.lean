import SourceAudit.Toml.Reader

namespace SourceAudit.Toml

variable {α : Type}

namespace Value

/-- The key under which a date stands when it is taken for a table. -/
def datetimeKey : String := "$__toml_private_datetime"

def fields? : Value → Option Entries
  | table entries => some entries
  | datetime text => some [(datetimeKey, string text)]
  | _ => none

def ofDateTable? : Entries → Option Value
  | [(_, string text)] => (Scalar.datetime? .quoted text.toList).map datetime
  | _ => none

mutual

def withDates? : Value → Option Value
  | array items => (itemsWithDates? items).map array
  | table entries =>
    if entries.head?.any (·.1 == datetimeKey) then ofDateTable? entries
    else (entriesWithDates? entries).map table
  | value => some value

def itemsWithDates? : List Value → Option (List Value)
  | [] => some []
  | item :: rest => do return (← item.withDates?) :: (← itemsWithDates? rest)

def entriesWithDates? : List (String × Value) → Option Entries
  | [] => some []
  | (key, value) :: rest => do return (key, ← value.withDates?) :: (← entriesWithDates? rest)

end

def isEmptyGroup : Value → Bool
  | array [] | table [] => true
  | _ => false

/-- A choice among names: a string, or a table whose only key is the name. -/
def choice? (name? : String → Option α) : Value → Option α
  | string text => name? text
  | table [(key, content)] => if content.isEmptyGroup then name? key else none
  | _ => none

def strings? : Value → Option (List String)
  | array items => items.mapM string?
  | _ => none

end Value

namespace Entries

/-- The value of a key, or `fallback` if the key is missing. A value of the wrong shape fails. -/
def field? (entries : Entries) (key : String) (decode : Value → Option α) (fallback : α) :
    Option α :=
  match entries.lookup key with
  | none => some fallback
  | some value => decode value

def optional? (entries : Entries) (key : String) (decode : Value → Option α) : Option (Option α) :=
  entries.field? key (fun value => (decode value).map some) none

/-- The fields of a record. A record may be given as an array of its fields in their order, of which
    the last ones may be missing. -/
def ofRecord? (names : List String) : Value → Option Entries
  | .array items => some (names.zip items)
  | value => value.fields?

end Entries
end SourceAudit.Toml
