import Rulebook.Yaml.Token

/-!
# Nodes

The tokens of a document form a tree: scalars, sequences, and mappings whose keys are nodes, too.  A
node with a name can stand in several places, but not inside itself.
-/

namespace Rulebook
namespace Yaml

/-- The parts of a document. -/
inductive Node where
  /-- A scalar without quotes, whose text decides what it stands for. -/
  | plain (text : String)
  /-- A scalar that is a text. -/
  | quoted (text : String)
  | sequence (items : List Node)
  | mapping (entries : List (Node × Node))
deriving Inhabited

/-- A scalar that is not written. -/
def Node.missing : Node :=
  .plain ""

/-- What is left to read, and the nodes that have names. -/
structure NodeState where
  tokens : List Token
  names : List String := []
  /-- The nodes that have names and are complete. -/
  named : List (String × Node) := []

/-- Reading nodes; it fails where the tokens form no tree, and at a scalar that has no text. -/
abbrev NodeM := StateT NodeState (Except Problem)

namespace Node

def peek : NodeM (Option Token) := do
  match (← get).tokens.head? with
  | some (.unreadable problem) => throw problem
  | token => pure token

def noTree {α : Type} : NodeM α :=
  throw .malformed

def nextIn (tokens : List Token) : NodeM Bool := do
  pure (((← peek).map tokens.contains).getD false)

def advance : NodeM Unit :=
  modify fun state => { state with tokens := state.tokens.tail }

/-- Passes over the next token if it is the given one, and tells whether it is. -/
def accept (token : Token) : NodeM Bool := do
  if ← nextIn [token] then
    advance
    pure true
  else pure false

/-- Begins a node with a name; every name is given once. -/
def beginNamed (name : String) : NodeM Unit := do
  let state ← get
  if state.names.contains name then noTree
  set { state with names := name :: state.names }

def giveName (name : String) (node : Node) : NodeM Unit :=
  modify fun state => { state with named := (name, node) :: state.named }

def byName (name : String) : NodeM Node := do
  match (← get).named.lookup name with
  | some node => pure node
  | none => noTree

/-- The tokens that can follow where a key or a value of a block is missing. -/
def afterBlockPart : List Token :=
  [.key, .value, .blockEnd]

mutual

/-- Reads a node.  Collections in blocks, and those that do without tokens for their ends, stand only in
some places. -/
def read : Nat → (inBlock bare : Bool) → NodeM Node
  | 0, _, _ => noTree
  | bound + 1, inBlock, bare => do
    match ← peek with
    | some (.reference name) =>
      advance
      byName name
    | some (.anchor name) =>
      advance
      let _ ← peek
      beginNamed name
      let node ← content bound inBlock bare true
      giveName name node
      pure node
    | _ => content bound inBlock bare false

/-- Reads what a node consists of; it may be missing where the node has a name. -/
def content : Nat → (inBlock bare hasName : Bool) → NodeM Node
  | 0, _, _, _ => noTree
  | bound + 1, inBlock, bare, hasName => do
    match ← peek with
    | some (.plain text) =>
      advance
      pure (.plain text)
    | some (.quoted text) =>
      advance
      pure (.quoted text)
    | some .flowSequenceStart =>
      advance
      flowItems bound true []
    | some .flowMappingStart =>
      advance
      flowEntries bound true []
    | some .sequenceStart =>
      if inBlock then
        advance
        blockItems bound []
      else if hasName then pure .missing
      else noTree
    | some .mappingStart =>
      if inBlock then
        advance
        blockEntries bound []
      else if hasName then pure .missing
      else noTree
    | some .dash =>
      if bare then bareItems bound []
      else if hasName then pure .missing
      else noTree
    | _ => if hasName then pure .missing else noTree

/-- Reads a part of a collection, which is missing if one of some tokens follows. -/
def part : Nat → (missingBefore : List Token) → (inBlock bare : Bool) → NodeM Node
  | 0, _, _, _ => noTree
  | bound + 1, missingBefore, inBlock, bare => do
    if ← nextIn missingBefore then pure .missing else read bound inBlock bare

def blockItems : Nat → List Node → NodeM Node
  | 0, _ => noTree
  | bound + 1, items => do
    if ← accept .dash then
      let item ← part bound [.dash, .blockEnd] true false
      blockItems bound (item :: items)
    else if ← accept .blockEnd then pure (.sequence items.reverse)
    else noTree

/-- Reads the items of a sequence that stands at the column of its key. -/
def bareItems : Nat → List Node → NodeM Node
  | 0, _ => noTree
  | bound + 1, items => do
    if ← accept .dash then
      let item ← part bound (.dash :: afterBlockPart) true false
      bareItems bound (item :: items)
    else pure (.sequence items.reverse)

def blockEntries : Nat → List (Node × Node) → NodeM Node
  | 0, _ => noTree
  | bound + 1, entries => do
    if ← accept .key then
      let key ← part bound afterBlockPart true true
      let value ←
        if ← accept .value then part bound afterBlockPart true true else pure .missing
      blockEntries bound ((key, value) :: entries)
    else if ← accept .blockEnd then pure (.mapping entries.reverse)
    else noTree

/-- Reads a key and a value in a flow collection with a closing token. -/
def flowEntry : Nat → Token → NodeM (Node × Node)
  | 0, _ => noTree
  | bound + 1, closing => do
    let key ← part bound [.value, .comma, closing] false false
    let value ←
      if ← accept .value then part bound [.comma, closing] false false else pure .missing
    pure (key, value)

/-- Reads the items of a flow sequence.  A key among them begins a mapping with a single entry. -/
def flowItems : Nat → (first : Bool) → List Node → NodeM Node
  | 0, _, _ => noTree
  | bound + 1, first, items => do
    if ← accept .flowSequenceEnd then pure (.sequence items.reverse)
    else
      if !first then
        if !(← accept .comma) then noTree
      if ← accept .flowSequenceEnd then pure (.sequence items.reverse)
      else if ← accept .key then
        let entry ← flowEntry bound .flowSequenceEnd
        flowItems bound false (.mapping [entry] :: items)
      else
        let item ← read bound false false
        flowItems bound false (item :: items)

/-- Reads the entries of a flow mapping.  What is not a key there is one without a value. -/
def flowEntries : Nat → (first : Bool) → List (Node × Node) → NodeM Node
  | 0, _, _ => noTree
  | bound + 1, first, entries => do
    if ← accept .flowMappingEnd then pure (.mapping entries.reverse)
    else
      if !first then
        if !(← accept .comma) then noTree
      if ← accept .flowMappingEnd then pure (.mapping entries.reverse)
      else if ← accept .key then
        let entry ← flowEntry bound .flowMappingEnd
        flowEntries bound false (entry :: entries)
      else
        let key ← read bound false false
        flowEntries bound false ((key, .missing) :: entries)

end

/-- Reads the node of the only document that tokens hold; nothing written is a missing scalar. -/
def document (bound : Nat) : NodeM Node := do
  let explicit ← accept .documentStart
  let isMissing := (← peek).isNone || (explicit && (← nextIn [.documentStart, .documentEnd]))
  let node ← if isMissing then pure .missing else read bound true false
  modify fun state => { state with tokens := state.tokens.dropWhile (· = .documentEnd) }
  if (← peek).isSome then noTree else pure node

/-- The node of the only document that tokens hold.  Every token leads at most three steps
deeper. -/
def ofTokens (tokens : List Token) : Except Problem Node :=
  ((document (3 * tokens.length + 3)).run { tokens }).map Prod.fst

end Node

end Yaml
end Rulebook
