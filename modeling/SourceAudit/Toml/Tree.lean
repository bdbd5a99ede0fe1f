import SourceAudit.Toml.Value

namespace SourceAudit.Toml

/-- How a table came to be: on the way to a header, by a dotted key, or by a header of its own. -/
inductive Origin where
  | implied
  | dotted
  | declared
deriving DecidableEq, Repr

/-- A part of a document that is still growing. An inline table or array is a finished value. -/
inductive Item where
  | value (value : Value)
  | table (origin : Origin) (entries : List (String × Item))
  | tables (elements : List (List (String × Item)))

abbrev Tree := List (String × Item)

namespace Tree

def set (tree : Tree) (key : String) (item : Item) : Tree :=
  match tree with
  | [] => [(key, item)]
  | entry :: rest => if entry.1 = key then (key, item) :: rest else entry :: set rest key item

/-- Changes the table at the end of a path; tables that are missing on the way get the given origin.
    A dotted key cannot pass a table that has its own header. The last table of an array of tables
    stands for the array. -/
def modifyAt (made : Origin) (origin : Origin) :
    List String → (Origin → Tree → Option Tree) → Tree → Option Tree
  | [], change, tree => change origin tree
  | key :: path, change, tree =>
    match tree.lookup key with
    | none => (modifyAt made made path change []).map fun inner =>
      tree.set key (.table made inner)
    | some (.value _) => none
    | some (.tables elements) =>
      match elements.getLast? with
      | none => none
      | some last => (modifyAt made .declared path change last).map fun inner =>
        tree.set key (.tables (elements.dropLast ++ [inner]))
    | some (.table found entries) =>
      if made = .dotted ∧ found = .declared then none
      else (modifyAt made found path change entries).map fun inner =>
        tree.set key (.table found inner)

/-- Adds a new key. After a dotted path the table must have been made by dotted keys. -/
def insertNew (path : List String) (key : String) (value : Value) (origin : Origin) (tree : Tree) :
    Option Tree :=
  if path ≠ [] ∧ origin ≠ .dotted then none
  else
    match tree.lookup key with
    | none => some (tree ++ [(key, .value value)])
    | some _ => none

def insert (tree : Tree) (path : List String) (key : String) (value : Value) : Option Tree :=
  modifyAt .dotted .declared path (insertNew path key value) tree

end Tree

mutual

def Item.toValue : Item → Value
  | .value value => value
  | .table _ entries => .table (Tree.toEntries entries)
  | .tables elements => .array (Tree.toValues elements)

def Tree.toEntries : List (String × Item) → Entries
  | [] => []
  | (key, item) :: rest => (key, item.toValue) :: Tree.toEntries rest

def Tree.toValues : List (List (String × Item)) → List Value
  | [] => []
  | tree :: rest => .table (Tree.toEntries tree) :: Tree.toValues rest

end

structure Assignment where
  path : List String
  key : String
  value : Value

namespace Tree

def insertAll (tree : Tree) (assignments : List Assignment) : Option Tree :=
  assignments.foldlM (fun tree entry => tree.insert entry.path entry.key entry.value) tree

end Tree

structure Section where
  path : List String
  key : String
  isArray : Bool
  assignments : List Assignment

namespace Section

/-- What a table header may start from: nothing, or a table that only stood on the way to others. -/
def openTable : Option Item → Option Tree
  | none => some []
  | some (.table .implied entries) => some entries
  | some _ => none

def openArray : Option Item → Option (List (List (String × Item)))
  | none => some []
  | some (.tables elements) => some elements
  | some _ => none

/-- Adds the section to the table that holds it. A table with a header of its own comes last there,
    even if it stood on the way to others before. -/
def addTo (part : Section) (_origin : Origin) (tree : Tree) : Option Tree := do
  let old := tree.lookup part.key
  if part.isArray then
    let elements ← openArray old
    let inner ← Tree.insertAll [] part.assignments
    return tree.set part.key (.tables (elements ++ [inner]))
  else
    let start ← openTable old
    let inner ← start.insertAll part.assignments
    return tree.filter (·.1 != part.key) ++ [(part.key, .table .declared inner)]

end Section

structure Document where
  assignments : List Assignment
  sections : List Section

namespace Document

def tree? (document : Document) : Option Tree := do
  let root ← Tree.insertAll [] document.assignments
  document.sections.foldlM (fun root part =>
    Tree.modifyAt .implied .declared part.path part.addTo root) root

def entries? (document : Document) : Option Entries := document.tree?.map Tree.toEntries

end Document
end SourceAudit.Toml
