import Rulebook.Term.Equality
import Rulebook.Yaml.Node

/-!
# What nodes stand for

A scalar stands for a value, a sequence for a list, and a mapping for entries whose keys are scalars.
An entry under the sign for merging stands for the entries of a mapping, or of several, that do not
occur otherwise.

A collection is filled once all collections around it are.  So of several problems the one that lies
least deep is met, and of those that lie as deep the first.
-/

namespace Rulebook
namespace Yaml

/-- A problem inside a node. -/
structure Obstacle where
  problem : Problem
  /-- How many collections of the node are around it. -/
  depth : Nat
deriving DecidableEq, Inhabited

/-- Which of two obstacles is met, if the first stands before the second. -/
def Obstacle.met (first second : Obstacle) : Obstacle :=
  if second.depth < first.depth then second else first

/-- What a node stands for, unless there is a problem inside it. -/
abbrev Content (α : Type) : Type :=
  Except Obstacle α

namespace Content

variable {α β : Type}

def ofScalar : Except Problem α → Content α
  | .ok content => .ok content
  | .error problem => .error { problem, depth := 0 }

/-- A content seen from the collection around it. -/
def inside : Content α → Content α
  | .ok content => .ok content
  | .error obstacle => .error { obstacle with depth := obstacle.depth + 1 }

def both : Content α → Content β → Content (α × β)
  | .ok first, .ok second => .ok (first, second)
  | .error first, .error second => .error (first.met second)
  | .error obstacle, .ok _ => .error obstacle
  | .ok _, .error obstacle => .error obstacle

def all : List (Content α) → Content (List α)
  | [] => .ok []
  | first :: rest => (both first (all rest)).map fun (content, contents) => content :: contents

end Content

/-- The sign for a default value, which is a text as a key and stands for nothing elsewhere. -/
def defaultSign : String := "="

/-- The sign for merging entries. -/
def mergeSign : String := "<<"

def plainValue (text : String) : Except Problem Scalar :=
  if text = defaultSign || text = mergeSign then .error .malformed else resolve text.toList

namespace Node

def isMerge : Node → Bool
  | .plain text => text = mergeSign
  | _ => false

/-- The key that a node stands for; collections are none. -/
def toKey : Node → Except Problem Scalar
  | .plain text => if text = defaultSign then .ok (.str text) else plainValue text
  | .quoted text => .ok (.str text)
  | .sequence _ => .error .malformed
  | .mapping _ => .error .malformed

mutual

def canMergeAmong : List (Node × Node) → Bool
  | [] => true
  | (key, value) :: rest => (!key.isMerge || value.canMerge) && canMergeAmong rest
termination_by structural entries => entries

/-- Whether a node can be merged: it is a mapping or consists of mappings. -/
def canMerge : Node → Bool
  | .mapping entries => canMergeAmong entries
  | .sequence items => allCanMerge items
  | .plain _ => false
  | .quoted _ => false
termination_by structural node => node

def allCanMerge : List Node → Bool
  | [] => true
  | .mapping entries :: rest => canMergeAmong entries && allCanMerge rest
  | _ :: _ => false
termination_by structural nodes => nodes

end

mutual

def toTerm : Node → Content Term
  | .plain text => (Content.ofScalar (plainValue text)).map Term.scalar
  | .quoted text => .ok (.str text)
  | .sequence items => (Content.all (toTerms items)).inside.map Term.list
  | .mapping entries =>
    if canMergeAmong entries then
      let (merged, own) := toEntries entries
      (Content.all (merged ++ own)).inside.map fun entries => .mapping (Entries.ofList entries)
    else .error { problem := .malformed, depth := 1 }
termination_by structural node => node

def toTerms : List Node → List (Content Term)
  | [] => []
  | node :: rest => node.toTerm :: toTerms rest
termination_by structural nodes => nodes

/-- The entries that are merged into a mapping, and its own. -/
def toEntries : List (Node × Node) → List (Content (Scalar × Term)) × List (Content (Scalar × Term))
  | [] => ([], [])
  | (key, value) :: rest =>
    let (merged, own) := toEntries rest
    if key.isMerge then (value.mergedEntries ++ merged, own)
    else (merged, (Content.ofScalar key.toKey).both value.toTerm :: own)
termination_by structural entries => entries

def mergedEntries : Node → List (Content (Scalar × Term))
  | .mapping entries =>
    let (merged, own) := toEntries entries
    merged ++ own
  | .sequence items => allMergedEntries items
  | .plain _ => []
  | .quoted _ => []
termination_by structural node => node

/-- The entries that merged nodes stand for.  The first node takes precedence, and so it comes last. -/
def allMergedEntries : List Node → List (Content (Scalar × Term))
  | [] => []
  | node :: rest => allMergedEntries rest ++ node.mergedEntries
termination_by structural nodes => nodes

end

end Node

end Yaml
end Rulebook
