import SourceAudit.Number.Binary64

namespace SourceAudit.Toml

/-- A TOML value. A date or time is kept as its text in normal form. -/
inductive Value where
  | string (text : String)
  | integer (value : Int)
  | float (value : Binary64)
  | boolean (value : Bool)
  | datetime (text : String)
  | array (items : List Value)
  | table (entries : List (String × Value))
deriving Inhabited

abbrev Entries := List (String × Value)

namespace Value

mutual

/-- Equality of values is decided along the nesting of arrays and tables. -/
def decEq : (value other : Value) → Decidable (value = other)
  | string text, other => match other with
    | string text' => decidable_of_decidable_of_iff (p := text = text') (by simp)
    | integer _ | float _ | boolean _ | datetime _ | array _ | table _ => isFalse nofun
  | integer number, other => match other with
    | integer number' => decidable_of_decidable_of_iff (p := number = number') (by simp)
    | string _ | float _ | boolean _ | datetime _ | array _ | table _ => isFalse nofun
  | float number, other => match other with
    | float number' => decidable_of_decidable_of_iff (p := number = number') (by simp)
    | string _ | integer _ | boolean _ | datetime _ | array _ | table _ => isFalse nofun
  | boolean flag, other => match other with
    | boolean flag' => decidable_of_decidable_of_iff (p := flag = flag') (by simp)
    | string _ | integer _ | float _ | datetime _ | array _ | table _ => isFalse nofun
  | datetime text, other => match other with
    | datetime text' => decidable_of_decidable_of_iff (p := text = text') (by simp)
    | string _ | integer _ | float _ | boolean _ | array _ | table _ => isFalse nofun
  | array items, other => match other with
    | array items' =>
      have := decEqItems items items'
      decidable_of_decidable_of_iff (p := items = items') (by simp)
    | string _ | integer _ | float _ | boolean _ | datetime _ | table _ => isFalse nofun
  | table entries, other => match other with
    | table entries' =>
      have := decEqEntries entries entries'
      decidable_of_decidable_of_iff (p := entries = entries') (by simp)
    | string _ | integer _ | float _ | boolean _ | datetime _ | array _ => isFalse nofun

def decEqItems : (items others : List Value) → Decidable (items = others)
  | [], [] => isTrue rfl
  | [], _ :: _ | _ :: _, [] => isFalse nofun
  | item :: items, other :: others =>
    have := decEq item other
    have := decEqItems items others
    decidable_of_decidable_of_iff (p := item = other ∧ items = others) (by simp)

def decEqEntries : (entries others : List (String × Value)) → Decidable (entries = others)
  | [], [] => isTrue rfl
  | [], _ :: _ | _ :: _, [] => isFalse nofun
  | (key, value) :: entries, (key', value') :: others =>
    have := decEq value value'
    have := decEqEntries entries others
    decidable_of_decidable_of_iff (p := (key = key' ∧ value = value') ∧ entries = others)
      (by simp)

end

instance : DecidableEq Value := decEq

def string? : Value → Option String
  | string text => some text
  | _ => none

def integer? : Value → Option Int
  | integer value => some value
  | _ => none

def boolean? : Value → Option Bool
  | boolean value => some value
  | _ => none

def array? : Value → Option (List Value)
  | array items => some items
  | _ => none

def table? : Value → Option Entries
  | table entries => some entries
  | _ => none

end Value
end SourceAudit.Toml
