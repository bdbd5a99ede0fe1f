import SourceAudit.Text.Class
import SourceAudit.Text.NormalForm
import SourceAudit.Url.CodePoint

namespace SourceAudit.Url.Idna

def isAllowed (c : Char) : Bool :=
  if c.toNat < 0x80 then
    !(c.toNat ≤ 0x20 || c.toNat == 0x7f || "%#/:<>?@[\\]^|".toList.contains c)
  else !Text.inRanges disallowedRanges c.toNat

def isMark (c : Char) : Bool :=
  Text.inRanges nonspacingRanges c.toNat || Text.inRanges spacingMarkRanges c.toNat

def isVirama (c : Char) : Bool := Text.markClass c == 9

def isTransparent (c : Char) : Bool :=
  Text.inRanges nonspacingRanges c.toNat || Text.inRanges transparentRanges c.toNat

/-- Whether a non-joiner, between the characters before it in reverse order and those after it,
    separates letters that would be joined. -/
def separatesJoined (before after : List Char) : Bool :=
  let first := (before.dropWhile isTransparent).head?
  let second := (after.dropWhile isTransparent).head?
  first.any (fun c => Text.inRanges joinsNextRanges c.toNat) &&
    second.any (fun c => Text.inRanges joinsPreviousRanges c.toNat)

/-- Whether every joiner has a reason to be where it is. The characters before are given in reverse
    order. -/
def joinersFit : List Char → List Char → Bool
  | _, [] => true
  | before, c :: after =>
    let isFit :=
      if c.toNat = 0x200d then before.head?.any isVirama
      else if c.toNat = 0x200c then before.head?.any isVirama || separatesJoined before after
      else true
    isFit && joinersFit (c :: before) after

def isLabel (label : List Char) : Bool :=
  label.all isAllowed && !label.head?.any isMark && joinersFit [] label

inductive Direction where
  | left
  | right
  | europeanNumber
  | arabicNumber
  | nonspacing
  | neutral
deriving DecidableEq, Repr

def Direction.ofChar (c : Char) : Direction :=
  if c.toNat < 0x80 then
    if c.isAlpha then left else if c.isDigit then europeanNumber else neutral
  else if Text.inRanges rightToLeftRanges c.toNat then right
  else if Text.inRanges arabicNumberRanges c.toNat then arabicNumber
  else if Text.inRanges europeanNumberRanges c.toNat then europeanNumber
  else if Text.inRanges nonspacingRanges c.toNat then nonspacing
  else if Text.inRanges neutralRanges c.toNat then neutral
  else left

def turnsAround (label : List Char) : Bool :=
  label.any fun c => Direction.ofChar c == .right || Direction.ofChar c == .arabicNumber

def keepsPlace (label : List Char) : Bool :=
  let directions := label.map Direction.ofChar
  let last := (directions.reverse.dropWhile (· == .nonspacing)).head?
  match directions.head? with
  | none => true
  | some .left =>
    directions.all (fun direction => direction != .right && direction != .arabicNumber) &&
      (last == some .left || last == some .europeanNumber)
  | some .right =>
    !directions.contains .left &&
      (last == some .right || last == some .europeanNumber || last == some .arabicNumber) &&
      !(directions.contains .europeanNumber && directions.contains .arabicNumber)
  | some _ => false

end SourceAudit.Url.Idna
