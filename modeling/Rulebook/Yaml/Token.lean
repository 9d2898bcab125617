import Rulebook.Yaml.Block
import Rulebook.Yaml.Plain
import Rulebook.Yaml.Quoted

/-!
# Tokens

A text is read into tokens from left to right.  Where collections in blocks begin and end follows
from columns.  That something is a key is known only when the sign after it is met: what could be
one is remembered until then, and a key has to stand on one line and not to be too long.

A scalar that cannot be read is met only after all that is wrong before it.  So it becomes a token,
and takes the place of those that were not yet certain.
-/

namespace Rulebook
namespace Yaml

inductive Token where
  | documentStart
  | documentEnd
  | sequenceStart
  | mappingStart
  | blockEnd
  | flowSequenceStart
  | flowSequenceEnd
  | flowMappingStart
  | flowMappingEnd
  | comma
  /-- The sign before an item of a sequence. -/
  | dash
  | key
  | value
  /-- The next node gets a name. -/
  | anchor (name : String)
  /-- The node with a name stands here. -/
  | reference (name : String)
  | plain (text : String)
  | quoted (text : String)
  /-- A scalar that has no text, as an escape in it writes no character.  Nothing is read behind it. -/
  | unreadable (problem : Problem)
deriving DecidableEq, Inhabited

/-- Something that may turn out to be a key. -/
structure Candidate where
  /-- The number of tokens before it. -/
  number : Nat
  /-- Nothing but a key can stand at its place. -/
  required : Bool
  start : Cursor

/-- The greatest distance between the beginning of a key and the sign after it. -/
def longestKey : Nat := 1024

/-- Whether a candidate can no longer be a key at a place. -/
def Candidate.isStale (candidate : Candidate) (place : Cursor) : Bool :=
  candidate.start.line ≠ place.line || longestKey < place.index - candidate.start.index

/-- What is known while a text is read into tokens. -/
structure Tokenizer where
  cursor : Cursor
  tokens : Array Token := #[]
  /-- The candidate of the innermost flow collection, or of the block if there is none. -/
  candidate : Option Candidate := none
  /-- The candidates around it, one for each flow collection that is open. -/
  outer : List (Option Candidate) := []
  /-- The column of the innermost collection in a block. -/
  indent : Int := -1
  /-- The columns of the collections around it. -/
  indents : List Int := []
  /-- Whether a key of a block could stand here. -/
  allowsKey : Bool := true

abbrev TokenizerM := StateT Tokenizer (Except Problem)

namespace Tokenizer

def inFlow (state : Tokenizer) : Bool :=
  !state.outer.isEmpty

/-- Whether a candidate is missing the sign that it needs. -/
def breaksPromise (isGone : Candidate → Bool) : Option Candidate → Bool
  | some candidate => candidate.required && isGone candidate
  | none => false

def push (token : Token) : TokenizerM Unit :=
  modify fun state => { state with tokens := state.tokens.push token }

/-- Puts a token before those that came after a number of tokens. -/
def insert (number : Nat) (token : Token) : TokenizerM Unit :=
  modify fun state => { state with tokens := state.tokens.insertIdxIfInBounds number token }

def advance (count : Nat) : TokenizerM Unit :=
  modify fun state => { state with cursor := state.cursor.forward count }

def allowKey (allowed : Bool) : TokenizerM Unit :=
  modify fun state => { state with allowsKey := allowed }

/-- Passes over blanks and comments.  On a further line of a block a key can stand. -/
def skipBlanks : TokenizerM Unit :=
  modify fun state =>
    let there := state.cursor.skip
    { state with
      cursor := there
      allowsKey := state.allowsKey || (!state.inFlow && state.cursor.line < there.line) }

def dropStale : TokenizerM Unit := do
  let state ← get
  let isGone := fun candidate : Candidate => candidate.isStale state.cursor
  if (state.candidate :: state.outer).any (breaksPromise isGone) then throw .malformed
  let keep := Option.filter fun candidate : Candidate => !isGone candidate
  set { state with candidate := keep state.candidate, outer := state.outer.map keep }

def dropCandidate : TokenizerM Unit := do
  let state ← get
  if breaksPromise (fun _ => true) state.candidate then throw .malformed
  set { state with candidate := none }

/-- Remembers that a key may begin here. -/
def saveCandidate : TokenizerM Unit := do
  let state ← get
  if state.allowsKey then
    dropCandidate
    let required := !state.inFlow && state.indent = state.cursor.column
    modify fun after => { after with
      candidate := some { number := state.tokens.size, required, start := state.cursor } }

/-- The tokens, column and further columns after the collections deeper than a column have
ended. -/
def unwound (column : Int) (tokens : Array Token) (indent : Int) :
    List Int → Array Token × Int × List Int
  | [] => (tokens, indent, [])
  | outer :: rest =>
    if column < indent then unwound column (tokens.push .blockEnd) outer rest
    else (tokens, indent, outer :: rest)

/-- Ends the collections in blocks that stand deeper than a column. -/
def closeBlocks (column : Int) : TokenizerM Unit :=
  modify fun state =>
    if state.inFlow then state
    else
      let (tokens, indent, indents) := unwound column state.tokens state.indent state.indents
      { state with tokens, indent, indents }

/-- Begins a collection in a block at a column, before those tokens that came after a number of
tokens, unless one stands there already. -/
def openBlock (number column : Nat) (token : Token) : TokenizerM Unit := do
  let state ← get
  if !state.inFlow && state.indent < column then
    insert number token
    modify fun after => { after with indent := column, indents := state.indent :: state.indents }

/-- Fails in a block where no key can stand. -/
def requireKeyPlace : TokenizerM Unit := do
  let state ← get
  if !state.inFlow && !state.allowsKey then throw .malformed

def sign (token : Token) (width : Nat) : TokenizerM Unit := do
  push token
  advance width

def separator (token : Token) : TokenizerM Unit := do
  closeBlocks (-1)
  dropCandidate
  allowKey false
  sign token 3

/-- Reads the beginning of a flow collection, which may be a key as a whole. -/
def openFlow (token : Token) : TokenizerM Unit := do
  saveCandidate
  modify fun state =>
    { state with candidate := none, outer := state.candidate :: state.outer, allowsKey := true }
  sign token 1

def closeFlow (token : Token) : TokenizerM Unit := do
  dropCandidate
  let state ← get
  match state.outer with
  | [] => throw .malformed
  | candidate :: outer => set { state with candidate, outer, allowsKey := false }
  sign token 1

def comma : TokenizerM Unit := do
  allowKey true
  dropCandidate
  sign .comma 1

def dash : TokenizerM Unit := do
  requireKeyPlace
  let state ← get
  openBlock state.tokens.size state.cursor.column .sequenceStart
  allowKey true
  dropCandidate
  sign .dash 1

/-- Reads the sign before a key that is marked as one. -/
def keySign : TokenizerM Unit := do
  requireKeyPlace
  let state ← get
  openBlock state.tokens.size state.cursor.column .mappingStart
  allowKey !state.inFlow
  dropCandidate
  sign .key 1

/-- Reads the sign before a value.  If there is a candidate, that was the key. -/
def valueSign : TokenizerM Unit := do
  let state ← get
  match state.candidate with
  | some candidate =>
    set { state with candidate := none }
    insert candidate.number .key
    -- This goes in front of the key, since a mapping begins before its first key.
    openBlock candidate.number candidate.start.column .mappingStart
    allowKey false
  | none =>
    requireKeyPlace
    openBlock state.tokens.size state.cursor.column .mappingStart
    allowKey !state.inFlow
  sign .value 1

def isNameChar (c : Char) : Bool :=
  c.isAlphanum || c = '-' || c = '_'

def endsName : List Char → Bool
  | [] => true
  | c :: rest => blankFollows (c :: rest) || "?:,]\x7d%@\x60".toList.contains c

def name (token : String → Token) : TokenizerM Unit := do
  saveCandidate
  allowKey false
  let start := (← get).cursor.next
  let name := start.rest.takeWhile isNameChar
  if name.isEmpty || !endsName (start.rest.drop name.length) then throw .malformed
  sign (token (String.ofList name)) (name.length + 1)

def pushUpTo (token : Token) (after : Cursor) : TokenizerM Unit := do
  push token
  modify fun state => { state with cursor := after }

/-- Reads a block scalar.  What follows it stands on a further line. -/
def blockScalar : TokenizerM Unit := do
  allowKey true
  dropCandidate
  let state ← get
  match block? state.indent state.cursor with
  | some (text, after) => pushUpTo (.quoted (String.ofList text)) after
  | none => throw .malformed

def quotedScalar (quote : Char) : TokenizerM Unit := do
  saveCandidate
  allowKey false
  let (text, after) ← Yaml.quoted quote (← get).cursor
  pushUpTo (.quoted (String.ofList text)) after

/-- Reads a scalar without quotes.  A key can stand behind it if it ends its line. -/
def plainScalar : TokenizerM Unit := do
  saveCandidate
  let state ← get
  let scalar := Yaml.plain state.inFlow state.indent state.cursor
  allowKey scalar.endsLine
  pushUpTo (.plain (String.ofList scalar.text)) scalar.after

def token (c : Char) (rest : List Char) : TokenizerM Unit := do
  let state ← get
  let atMargin := state.cursor.column = 0
  let isSign := state.inFlow || blankFollows rest
  if atMargin && c = '%' then throw .malformed
  else if atMargin && state.cursor.atMarks '-' then separator .documentStart
  else if atMargin && state.cursor.atMarks '.' then separator .documentEnd
  else if c = '[' then openFlow .flowSequenceStart
  else if c = '\x7b' then openFlow .flowMappingStart
  else if c = ']' then closeFlow .flowSequenceEnd
  else if c = '\x7d' then closeFlow .flowMappingEnd
  else if c = ',' then comma
  else if c = '-' && blankFollows rest then dash
  else if c = '?' && isSign then keySign
  else if c = ':' && isSign then valueSign
  else if c = '*' then name .reference
  else if c = '&' then name .anchor
  else if (c = '|' || c = '>') && !state.inFlow then blockScalar
  else if c = '\'' || c = '"' then quotedScalar c
  else if beginsPlain state.inFlow (c :: rest) then plainScalar
  else throw .malformed

/-- The number of tokens that are certain, as no candidate for a key stands before them. -/
def certain (state : Tokenizer) : Nat :=
  ((state.candidate :: state.outer).filterMap (Option.map Candidate.number)).foldl min
    state.tokens.size

/-- What is known where a scalar cannot be read: the tokens that were certain before it. -/
def cutShort (state : Tokenizer) (problem : Problem) : Tokenizer :=
  { state with tokens := (state.tokens.take state.certain).push (.unreadable problem) }

/-- Reads tokens up to the end of the text, or up to a scalar that cannot be read. -/
def readAll : Nat → TokenizerM Unit
  | 0 => throw .malformed
  | bound + 1 => do
    dropStale
    let before ← get
    skipBlanks
    dropStale
    let place := (← get).cursor
    match place.rest with
    | [] =>
      closeBlocks (-1)
      dropCandidate
    | c :: rest =>
      closeBlocks place.column
      match (token c rest).run (← get) with
      | .ok (_, after) =>
        set after
        readAll bound
      | .error problem =>
        if problem = .malformed then throw .malformed
        set (before.cutShort problem)

end Tokenizer

def tokens (text : List Char) : Except Problem (List Token) := do
  let (_, state) ← (Tokenizer.readAll (text.length + 1)).run { cursor := { rest := text } }
  .ok state.tokens.toList

end Yaml
end Rulebook
