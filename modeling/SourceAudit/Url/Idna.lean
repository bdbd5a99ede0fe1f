import SourceAudit.Text.Search
import SourceAudit.Url.Label
import SourceAudit.Url.Mapping
import SourceAudit.Url.Punycode

namespace SourceAudit.Url.Idna

def run {α : Type} (first : Char) (targets : List α) : List (Char × α) :=
  targets.zipIdx.map fun (target, offset) => (Char.ofNat (first.toNat + offset), target)

def singlePairs : List (Char × Char) :=
  singles.flatMap (fun line => Text.pairs line.toList) ++ singleRuns.flatMap fun line =>
    match line.toList with
    | first :: targets => run first targets
    | [] => []

def expansionPairs : List (Char × List Char) :=
  expansions.flatMap fun line =>
    match line.toList with
    | first :: texts => run first (Text.split (· == ' ') texts)
    | [] => []

def replacement? (c : Char) : Option (List Char) :=
  if Text.inRanges ignoredRanges c.toNat then some []
  else ((singlePairs.lookup c).map ([·])).or (expansionPairs.lookup c)

def mapped (c : Char) : List Char :=
  if c.toNat < 0x80 then [c.toLower] else (replacement? c).getD [c]

/-- A label with the text that it stands for. A label that is given in its form in ASCII has to be
    one that needs this form. -/
def decodeLabel? (label : List Char) : Option (List Char) :=
  match Text.dropPrefix? "xn--" label with
  | none => if isLabel label then some label else none
  | some encoded => do
    if 2000 < encoded.length then none
    let decoded ← Punycode.decode? encoded
    let isPlain := decoded.all (fun c => mapped c == [c]) && Text.normalForm decoded == decoded
    if isLabel decoded && isPlain && !decoded.all Punycode.isBasic then some decoded else none

/-- The form of a label in ASCII. Labels that need another form than their own are limited. -/
def encodeLabel? (label : List Char) : Option (List Char) :=
  if label.all Punycode.isBasic then some label
  else if 1000 < label.length then none
  else some ("xn--".toList ++ Punycode.encode label)

def ascii? (name : List Char) : Option (List Char) := do
  let text := Text.normalForm (name.flatMap mapped)
  let labels ← (Text.split (· == '.') text).mapM decodeLabel?
  if labels.any turnsAround && !labels.all keepsPlace then none
  return ['.'].intercalate (← labels.mapM encodeLabel?)

end SourceAudit.Url.Idna
