import Mathlib.Data.List.Basic
import Mathlib.Data.Option.Basic
import SourceAudit.Export.Xml
import SourceAudit.Proofs.Number.Digits
import SourceAudit.Proofs.Text.Splitting

open List

namespace SourceAudit

/-- What an element of the document tells of a finding. -/
structure Issue where
  file : String
  line : Nat
  message : String
deriving DecidableEq

def Finding.issue (finding : Finding) : Issue := ⟨finding.file, finding.line, finding.message⟩

namespace Export.Xml

def entities : List (List Char × Char) :=
  [("&amp;".toList, '&'), ("&lt;".toList, '<'), ("&gt;".toList, '>'), ("&quot;".toList, '\x22'),
    ("&apos;".toList, '\x27')]

def decode : List Char → List Char
  | [] => []
  | c :: rest =>
    match entities.find? (·.1.isPrefixOf (c :: rest)) with
    | some (name, meant) => meant :: decode (rest.drop (name.length - 1))
    | none => c :: decode rest
termination_by text => text.length
decreasing_by all_goals simp only [length_drop, length_cons]; omega

def tag? (name : String) (text : List Char) : Option (List Char) :=
  Text.dropPrefix? ("<" ++ name ++ ">") (Text.trimStart text)

/-- An element without elements in it: what its text stands for, and what follows it. -/
def element? (name : String) (text : List Char) : Option (List Char × List Char) := do
  let inside ← tag? name text
  let rest ← Text.dropPrefix? ("</" ++ name ++ ">") (inside.dropWhile (· ≠ '<'))
  return (decode (inside.takeWhile (· ≠ '<')), rest)

def issue? (text : List Char) : Option (Issue × List Char) := do
  let (file, text) ← element? "File" (← tag? "Issue" text)
  let (line, text) ← element? "Line" text
  let (message, text) ← element? "Message" text
  return (⟨.ofList file, ← Number.natural? 10 line, .ofList message⟩, ← tag? "/Issue" text)

/-- The issues at the start of a text, as many as can be read, and what follows them. -/
def issues (text : List Char) : List Issue × List Char :=
  match issue? text with
  | some (issue, rest) =>
    if rest.length < text.length then (issue :: (issues rest).1, (issues rest).2) else ([], text)
  | none => ([], text)
termination_by text.length

def document? (text : String) : Option (List Issue) := do
  let body ← Text.dropPrefix? "<?xml version=\"1.0\" encoding=\"UTF-8\"?>" text.toList
  let (issues, rest) := issues (← tag? "Issues" body)
  if Text.trimStart (← tag? "/Issues" rest) = [] then some issues else none

theorem escape_cases (c : Char) : (escape c, c) ∈ entities ∨ c ≠ '&' ∧ c ≠ '<' ∧ escape c = [c] := by
  unfold escape
  split
  iterate 5 exact .inl (by decide)
  exact .inr ⟨‹_›, ‹_›, rfl⟩

theorem decode_entity (rest : List Char) :
    ∀ entity ∈ entities, decode (entity.1 ++ rest) = entity.2 :: decode rest := by
  simp only [entities, forall_mem_cons]
  refine ⟨?_, ?_, ?_, ?_, ?_, by simp⟩ <;> simp [decode, entities]

theorem decode_escape (c : Char) (rest : List Char) : decode (escape c ++ rest) = c :: decode rest := by
  rcases escape_cases c with special | ⟨plain, _, same⟩
  · exact decode_entity rest _ special
  · have none : entities.find? (·.1.isPrefixOf (c :: rest)) = none := by simp [entities, plain.symm]
    rw [same, singleton_append, decode, none]

theorem not_mem_escape (c : Char) : '<' ∉ escape c := by
  rcases escape_cases c with special | ⟨_, other, same⟩
  · have clear : ∀ entity ∈ entities, '<' ∉ entity.1 := by decide
    exact clear _ special
  · simpa [same] using other.symm

theorem decode_encoded (text : List Char) : decode (text.flatMap escape) = text := by
  induction text with
  | nil => rw [flatMap_nil, decode]
  | cons c text ih => rw [flatMap_cons, decode_escape, ih]

theorem element?_encoded {name : String} {opening closing left : List Char} (text rest : List Char)
    (opens : ∀ rest, tag? name (opening ++ rest) = some rest) (starts : closing.head? = some '<')
    (closes : ∀ rest, Text.dropPrefix? ("</" ++ name ++ ">") (closing ++ rest) = some (left ++ rest)) :
    element? name (opening ++ (text.flatMap escape ++ (closing ++ rest))) = some (text, left ++ rest) := by
  have clear : ∀ c ∈ text.flatMap escape, decide (c ≠ '<') = true := by
    intro c member
    obtain ⟨source, _, inside⟩ := mem_flatMap.mp member
    exact decide_eq_true fun same => not_mem_escape source (same ▸ inside)
  obtain ⟨tail, rfl⟩ := List.head?_eq_some_iff.mp starts
  have front : (text.flatMap escape ++ ('<' :: tail ++ rest)).takeWhile (· ≠ '<') = text.flatMap escape := by
    rw [takeWhile_append_of_pos clear]
    simp
  have behind : (text.flatMap escape ++ ('<' :: tail ++ rest)).dropWhile (· ≠ '<') = '<' :: tail ++ rest := by
    rw [dropWhile_append_of_pos clear]
    simp
  rw [element?, opens, Option.bind_eq_bind, Option.bind_some, front, behind, closes, decode_encoded]
  rfl

theorem encoded_line (line : Nat) : (toString line).toList.flatMap escape = (toString line).toList := by
  have plain : ∀ c ∈ (toString line).toList, escape c = [c] := by
    intro c member
    have digit : c.isDigit = true :=
      Nat.isDigit_of_mem_toDigits (b := 10) (by decide) (by decide) (by simpa using member)
    have other : ∀ entity ∈ entities, entity.2.isDigit = false := by decide
    rcases escape_cases c with special | ⟨_, _, same⟩
    · simp [other _ special] at digit
    · exact same
  rw [flatMap_congr plain, flatMap_singleton']

theorem natural?_line (line : Nat) : Number.natural? 10 (toString line).toList = some line := by
  have digits : (toString line).toList = Nat.toDigits 10 line := by simp
  rw [digits, Number.natural?_eq Nat.toDigits_ne_nil, Number.foldlM_toDigits (by decide) (by decide)]

theorem issue?_toXml (finding : Finding) (rest : List Char) :
    issue? (finding.toXml.toList ++ rest) = some (finding.issue, '\n' :: rest) := by
  have whole : finding.toXml.toList ++ rest = "  <Issue>\n    <File>".toList ++ (finding.file.toList.flatMap escape ++
      ("</File>\n    <Line>".toList ++ ((toString finding.line).toList.flatMap escape ++
        ("</Line>\n    <Message>".toList ++ (finding.message.toList.flatMap escape ++
          ("</Message>\n  </Issue>\n".toList ++ rest)))))) := by
    unfold Finding.toXml encode
    simp only [encoded_line, String.toList_append, String.toList_ofList, append_assoc]
  have opened (rest : List Char) :
      tag? "Issue" ("  <Issue>\n    <File>".toList ++ rest) = some ("\n    <File>".toList ++ rest) := rfl
  have file := @element?_encoded "File" "\n    <File>".toList "</File>\n    <Line>".toList "\n    <Line>".toList
  have line := @element?_encoded "Line" "\n    <Line>".toList "</Line>\n    <Message>".toList "\n    <Message>".toList
  have message := @element?_encoded "Message" "\n    <Message>".toList "</Message>\n  </Issue>\n".toList
    "\n  </Issue>\n".toList
  have closed : tag? "/Issue" ("\n  </Issue>\n".toList ++ rest) = some ('\n' :: rest) := rfl
  rw [whole, issue?, opened]
  simp only [Option.bind_eq_bind, Option.bind_some, file _ _ (fun _ => rfl) rfl (fun _ => rfl),
    line _ _ (fun _ => rfl) rfl (fun _ => rfl), message _ _ (fun _ => rfl) rfl (fun _ => rfl), natural?_line, closed,
    String.ofList_toList]
  rfl

theorem tag?_lineFeed (name : String) (text : List Char) : tag? name ('\n' :: text) = tag? name text := rfl

theorem issues_toXml (findings : List Finding) :
    issues ('\n' :: (findings.flatMap (·.toXml.toList) ++ "</Issues>\n".toList)) =
      (findings.map Finding.issue, '\n' :: "</Issues>\n".toList) := by
  induction findings with
  | nil =>
    have none : issue? ('\n' :: "</Issues>\n".toList) = none := rfl
    rw [flatMap_nil, nil_append, issues, none]
    rfl
  | cons finding findings ih =>
    have first (rest : List Char) :
        issue? ('\n' :: (finding.toXml.toList ++ rest)) = some (finding.issue, '\n' :: rest) := by
      rw [issue?, tag?_lineFeed, ← issue?, issue?_toXml]
    have shorter (rest : List Char) : ('\n' :: rest).length < ('\n' :: (finding.toXml.toList ++ rest)).length := by
      unfold Finding.toXml
      simp only [String.toList_append, length_append, length_cons]
      have some : 0 < "</Message>\n  </Issue>\n".toList.length := by decide
      omega
    rw [flatMap_cons, append_assoc, issues, first]
    dsimp only
    rw [if_pos (shorter _), ih, map_cons]

end Export.Xml

namespace Collector

open Export

theorem document?_toXml (collector : Collector) :
    Xml.document? collector.toXml = some (collector.findings.map Finding.issue) := by
  have whole : collector.toXml.toList = "<?xml version=\"1.0\" encoding=\"UTF-8\"?>".toList ++ ("\n<Issues>".toList ++
      ('\n' :: (collector.findings.flatMap (·.toXml.toList) ++ "</Issues>\n".toList))) := by
    unfold toXml
    simp only [String.toList_append, String.toList_join, flatMap_map]
    rfl
  have opened (rest : List Char) : Xml.tag? "Issues" ("\n<Issues>".toList ++ rest) = some rest := rfl
  have closed : Xml.tag? "/Issues" ('\n' :: "</Issues>\n".toList) = some ['\n'] := rfl
  rw [Xml.document?, whole, Text.dropPrefix?_append]
  simp only [Option.bind_eq_bind, Option.bind_some, opened, Xml.issues_toXml, closed]
  rfl

/-- A document can be read back: it tells the file, the line and the message of each finding in their order, so two
    collections have the same document only if they agree in these. -/
theorem toXml_unambiguous (collector : Collector) :
    Xml.document? collector.toXml = some (collector.findings.map Finding.issue) ∧
      ∀ other : Collector, other.toXml = collector.toXml ↔
        other.findings.map Finding.issue = collector.findings.map Finding.issue := by
  refine ⟨document?_toXml collector, fun other => ⟨fun same => ?_, fun same => ?_⟩⟩
  · have read := congrArg Xml.document? same
    rw [document?_toXml, document?_toXml] at read
    exact Option.some.inj read
  · have written : ∀ collector : Collector, collector.findings.map Finding.toXml =
        (collector.findings.map Finding.issue).map fun issue => Finding.toXml ⟨"", "", issue.message, .info,
          ⟨issue.file, issue.line⟩, none⟩ := by
      intro collector
      rw [map_map]
      rfl
    unfold toXml
    rw [written other, same, ← written]

end Collector
end SourceAudit
