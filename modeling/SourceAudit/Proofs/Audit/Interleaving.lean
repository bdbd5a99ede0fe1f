import Mathlib.Data.List.Flatten
import Mathlib.Logic.Relation
import SourceAudit.Collector

open List

namespace SourceAudit.Collector

inductive Operation where
  | add (finding : Finding)
  | addIssue (file : String) (line : Nat) (message : String)
  | extend (batch : List Finding)
  | take
  | clear

namespace Operation

def added : Operation → List Finding
  | add finding => [finding]
  | addIssue file line message => [adhoc file line message]
  | extend batch => batch
  | take | clear => []

def removes : Operation → Bool
  | take | clear => true
  | _ => false

def result (collector : Collector) : Operation → Collector
  | add finding => collector.add finding
  | addIssue file line message => collector.addIssue file line message
  | extend batch => collector.extend batch
  | take => collector.take.2
  | clear => collector.clear

/-- What an operation returns or discards. -/
def removed (collector : Collector) (operation : Operation) : List (List Finding) :=
  if operation.removes then [collector.take.1] else []

end Operation

/-- Workers at a collector: what is in it, what each of them has still to do, and what has been taken out of it, one
    piece for each operation that removes findings. -/
structure Session where
  collector : Collector
  pending : List (List Operation)
  removed : List (List Finding)

namespace Session

def start (programs : List (List Operation)) : Session := ⟨{}, programs, []⟩

def pieces (session : Session) : List (List Finding) := session.removed ++ [session.collector.findings]

/-- Some worker performs the next one of its operations. -/
inductive Step (session : Session) : Session → Prop where
  | perform {worker : Nat} {operation : Operation} {rest : List Operation}
      (next : session.pending[worker]? = some (operation :: rest)) :
      Step session ⟨operation.result session.collector, session.pending.set worker rest,
        session.removed ++ operation.removed session.collector⟩

abbrev Reaches : Session → Session → Prop := Relation.ReflTransGen Step

/-- The operations that have been performed, each with its worker, and what they have made of the collector. -/
structure Keeps (programs : List (List Operation)) (session : Session) (log : List (Nat × Operation)) : Prop where
  order : ∀ worker, (log.filter (·.1 = worker)).map (·.2) ++ session.pending[worker]?.getD [] = programs[worker]?.getD []
  all : (log.map (·.2) ++ session.pending.flatten).Perm programs.flatten
  whole : session.pieces.flatten = log.flatMap (·.2.added)
  together : ∀ entry ∈ log, ∃ piece ∈ session.pieces, entry.2.added <:+: piece
  removals : session.removed.length = (log.map (·.2)).countP Operation.removes

theorem flatten_set {operation : Operation} {rest : List Operation} {pending : List (List Operation)} {worker : Nat}
    (next : pending[worker]? = some (operation :: rest)) :
    pending.flatten.Perm (operation :: (pending.set worker rest).flatten) := by
  induction pending generalizing worker with
  | nil => simp at next
  | cons first others ih =>
    cases worker with
    | zero =>
      cases next
      exact .refl _
    | succ worker =>
      rw [set_cons_succ, flatten_cons, flatten_cons]
      exact ((ih next).append_left first).trans perm_middle

section Perform

variable {programs : List (List Operation)} {session : Session} {log : List (Nat × Operation)} {worker : Nat}
  {operation : Operation} {rest : List Operation}

/-- An operation either ends a piece or adds to the last one. -/
theorem pieces_perform (session : Session) (operation : Operation) (pending : List (List Operation)) :
    pieces ⟨operation.result session.collector, pending, session.removed ++ operation.removed session.collector⟩ =
      if operation.removes then session.pieces ++ [[]]
      else session.removed ++ [session.collector.findings ++ operation.added] := by
  cases operation <;> simp [pieces, Operation.result, Operation.removed, Operation.removes, Operation.added, add,
    addIssue, extend, clear, take]

theorem added_of_removes (removes : operation.removes = true) : operation.added = [] := by
  cases operation <;> first | rfl | cases removes

theorem Keeps.perform (keeps : Keeps programs session log)
    (next : session.pending[worker]? = some (operation :: rest)) :
    Keeps programs ⟨operation.result session.collector, session.pending.set worker rest,
      session.removed ++ operation.removed session.collector⟩ (log ++ [(worker, operation)]) := by
  refine ⟨fun other => ?_, ?_, ?_, ?_, ?_⟩
  · rw [← keeps.order other, List.getElem?_set]
    by_cases same : worker = other
    · subst same
      rw [next, if_pos (List.getElem?_eq_some_iff.mp next).1]
      simp
    · simp [same]
  · refine List.Perm.trans ?_ keeps.all
    rw [map_append, append_assoc]
    exact (flatten_set next).symm.append_left _
  · rw [pieces_perform, flatMap_append, ← keeps.whole, flatMap_singleton]
    split
    · simp [added_of_removes ‹_›]
    · simp [pieces]
  · rw [pieces_perform]
    intro entry member
    rcases mem_append.mp member with early | last
    · obtain ⟨piece, inside, part⟩ := keeps.together entry early
      split
      · exact ⟨piece, mem_append_left _ inside, part⟩
      · rcases mem_append.mp inside with closed | open_
        · exact ⟨piece, mem_append_left _ closed, part⟩
        · cases mem_singleton.mp open_
          exact ⟨_, mem_append_right _ mem_cons_self, part.trans (prefix_append _ _).isInfix⟩
    · cases mem_singleton.mp last
      split
      · exact ⟨[], by simp, by simp [added_of_removes ‹_›]⟩
      · exact ⟨_, mem_append_right _ mem_cons_self, (suffix_append _ _).isInfix⟩
  · rw [length_append, keeps.removals, map_append, countP_append, Operation.removed]
    split <;> simp [*]

theorem Reaches.keeps (run : Reaches (start programs) session) : ∃ log, Keeps programs session log := by
  induction run with
  | refl => exact ⟨[], by simp [start], by simp [start], by simp [start, pieces], by simp, rfl⟩
  | tail _ step ih =>
    obtain ⟨log, keeps⟩ := ih
    cases step with
    | perform next => exact ⟨_, keeps.perform next⟩

/-- When all workers are done, what has been taken out of the collector and what is in it are, one after the other, the
    findings of all operations in the order in which these were performed. Each worker's operations are among them in
    its own order, a finding is there as often as it was added, no operation's findings are apart, and each removal has
    a piece of its own. -/
theorem shuffled (run : Reaches (start programs) session) (done : ∀ operations ∈ session.pending, operations = []) :
    (∃ log : List (Nat × Operation), session.pieces.flatten = log.flatMap (·.2.added) ∧
      ∀ worker, (log.filter (·.1 = worker)).map (·.2) = programs[worker]?.getD []) ∧
    session.pieces.flatten.Perm (programs.flatten.flatMap Operation.added) ∧
    (∀ operations ∈ programs, (operations.flatMap Operation.added).Sublist session.pieces.flatten) ∧
    (∀ operations ∈ programs, ∀ operation ∈ operations, ∃ piece ∈ session.pieces, operation.added <:+: piece) ∧
    session.removed.length = programs.flatten.countP Operation.removes := by
  obtain ⟨log, keeps⟩ := run.keeps
  have idle : session.pending.flatten = [] := flatten_eq_nil_iff.mpr done
  have order (worker : Nat) : (log.filter (·.1 = worker)).map (·.2) = programs[worker]?.getD [] := by
    have rest : session.pending[worker]?.getD [] = [] := by
      cases found : session.pending[worker]? with
      | none => rfl
      | some operations => exact done operations (mem_of_getElem? found)
    simpa only [rest, append_nil] using keeps.order worker
  have all : (log.map (·.2)).Perm programs.flatten := by simpa [idle] using keeps.all
  have whole : session.pieces.flatten = (log.map (·.2)).flatMap Operation.added := by
    rw [keeps.whole, flatMap_map]
  refine ⟨⟨log, keeps.whole, order⟩, whole ▸ all.flatMap_right _, fun operations member => ?_,
    fun operations member operation inside => ?_, keeps.removals.trans (all.countP_eq _)⟩
  · obtain ⟨worker, found⟩ := List.getElem?_of_mem member
    have own : operations = (log.filter (·.1 = worker)).map (·.2) := by
      rw [order, found, Option.getD_some]
    rw [whole, own]
    exact (filter_sublist.map _).flatMap _
  · obtain ⟨entry, logged, rfl⟩ := mem_map.mp (all.mem_iff.mpr (mem_flatten_of_mem member inside))
    exact keeps.together entry logged

end Perform

def meeting : List (List Operation) :=
  [[.extend [adhoc "a.py" 1 "x", adhoc "a.py" 2 "y"]], [.addIssue "b.py" 1 "z", .take]]

def meetingEnd : Session :=
  ⟨{}, [[], []], [[adhoc "b.py" 1 "z", adhoc "a.py" 1 "x", adhoc "a.py" 2 "y"]]⟩

theorem shuffled_meeting : Reaches (start meeting) meetingEnd ∧ (∀ operations ∈ meetingEnd.pending, operations = []) ∧
    meetingEnd.pieces.flatten.Perm (meeting.flatten.flatMap Operation.added) ∧ meetingEnd.removed.length = 1 := by
  have run : Reaches (start meeting) meetingEnd :=
    .tail (.tail (.single (@Step.perform _ 1 (.addIssue ..) _ rfl)) (@Step.perform _ 0 (.extend _) [] rfl))
      (@Step.perform _ 1 .take [] rfl)
  have done : ∀ operations ∈ meetingEnd.pending, operations = [] := by simp [meetingEnd]
  obtain ⟨_, perm, _, _, removals⟩ := shuffled run done
  exact ⟨run, done, perm, removals⟩

end Session
end SourceAudit.Collector
