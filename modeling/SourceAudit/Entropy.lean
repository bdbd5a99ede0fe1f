import SourceAudit.Number.Binary64

namespace SourceAudit.Entropy

/-- How often each byte occurs, for the bytes that do, from the smallest byte on. -/
def histogram (bytes : List UInt8) : List Nat :=
  ((List.range 256).map fun byte => bytes.count (UInt8.ofNat byte)).filter (0 < ·)

def term (share : Float) : Float := -share * share.log2

def shannon (text : String) : Binary64 :=
  let bytes := text.toUTF8.toList
  let terms := (histogram bytes).map fun count => term (count.toFloat / bytes.length.toFloat)
  .ofFloat (terms.foldl (· + ·) 0)

/-- A finite number with nine decimal places; zero has no sign. -/
def display (entropy : Binary64) : String :=
  let units := entropy.scaled 1000000000
  let digits := Nat.toDigits 10 (units % 1000000000)
  let sign := if entropy.isNegative && units ≠ 0 then "-" else ""
  sign ++ toString (units / 1000000000) ++ "." ++
    String.ofList (List.replicate (9 - digits.length) '0' ++ digits)

end SourceAudit.Entropy
