import Rulebook.Yaml.Cursor

/-!
# Scalars in blocks

A block scalar holds the lines that stand at its column.  Marks in its first line say how deep that
is and what happens to the line breaks at the end; without a mark the first line decides how deep.
-/

namespace Rulebook
namespace Yaml

/-- What happens to the line breaks at the end of a block. -/
inductive Chomping where
  | strip
  | clip
  | keep
deriving DecidableEq

def chomping? : List Char → Option Chomping
  | '-' :: _ => some .strip
  | '+' :: _ => some .keep
  | _ => none

def depth? : List Char → Option Nat
  | c :: _ => if c.isDigit && c ≠ '0' then some (c.toNat - '0'.toNat) else none
  | [] => none

/-- The marks of a block: each can stand there once, in any order.  The last part is their
number. -/
def blockMarks (text : List Char) : Chomping × Option Nat × Nat :=
  match chomping? text, depth? text with
  | some chomping, _ => match depth? (text.drop 1) with
    | some depth => (chomping, some depth, 2)
    | none => (chomping, none, 1)
  | none, some depth => match chomping? (text.drop 1) with
    | some chomping => (chomping, some depth, 2)
    | none => (.clip, some depth, 1)
  | none, none => (.clip, none, 0)

/-- Passes over the rest of the first line of a block, where only a comment can stand. -/
def blockStart? (marks : Cursor) : Option Cursor :=
  let spaced := marks.pass (· = ' ')
  if spaced.rest.head? = some '#' && marks.index < spaced.index then
    some (spaced.pass (!isBreak ·)).next
  else if lineEnds spaced.rest then some spaced.next
  else none

def dropSpaces (column : Nat) (cursor : Cursor) : Cursor :=
  cursor.forward ((cursor.rest.take (column - cursor.column)).takeWhile (· = ' ')).length

/-- The ends of the empty lines before a line of a block that stands at a column. -/
def blockBreaks (column : Nat) : Nat → List Char → Cursor → List Char × Cursor
  | 0, breaks, cursor => (breaks.reverse, cursor)
  | bound + 1, breaks, cursor =>
    let there := dropSpaces column cursor
    match there.rest with
    | c :: _ =>
      if isBreak c then blockBreaks column bound (c :: breaks) there.next
      else (breaks.reverse, there)
    | [] => (breaks.reverse, there)

/-- The ends of the empty lines before the first line of a block, and how far spaces reach in them,
along what is left. -/
def blockIndent (breaks : List Char) (reach : Nat) (cursor : Cursor) :
    List Char → List Char × Nat × Cursor
  | c :: rest =>
    if isBreak c then blockIndent (c :: breaks) reach cursor.next rest
    else if c = ' ' then blockIndent breaks (max reach (cursor.column + 1)) cursor.next rest
    else (breaks.reverse, reach, cursor)
  | [] => (breaks.reverse, reach, cursor)

def beginsBlank : List Char → Bool
  | c :: _ => isBlank c
  | [] => false

/-- Reads the lines of a block.  A folded block joins two lines by a space, unless there is an
empty line between them or one of them begins with a blank. -/
def blockLines (folded : Bool) (chomping : Chomping) (column : Nat) :
    Nat → List Char → List Char → Cursor → List Char × Cursor
  | 0, _, text, cursor => (text, cursor)
  | bound + 1, breaks, text, cursor =>
    let line := cursor.rest.takeWhile (!isBreak ·)
    let text := text ++ breaks ++ line
    let after := cursor.forward line.length
    let lineBreak := after.rest.take 1
    let (breaks, there) := blockBreaks column after.rest.length [] after.next
    if there.column = column && !there.atEnd then
      let joint :=
        if folded && lineBreak = ['\n'] && !beginsBlank line && !beginsBlank there.rest then
          if breaks.isEmpty then [' '] else []
        else lineBreak
      blockLines folded chomping column bound breaks (text ++ joint) there
    else
      let ending := match chomping with
        | .strip => []
        | .clip => lineBreak
        | .keep => lineBreak ++ breaks
      (text ++ ending, there)

def block? (indent : Int) (cursor : Cursor) : Option (List Char × Cursor) := do
  let folded := cursor.rest.head? = some '>'
  let (chomping, depth, count) := blockMarks (cursor.rest.drop 1)
  let start ← blockStart? (cursor.forward (count + 1))
  -- At the top, too, the lines of a block are indented.
  let least := (max (indent + 1) 1).toNat
  let (breaks, column, first) := match depth with
    | some depth =>
      let (breaks, first) := blockBreaks (least + depth - 1) start.rest.length [] start
      (breaks, least + depth - 1, first)
    | none =>
      let (breaks, reach, first) := blockIndent [] 0 start start.rest
      (breaks, max least reach, first)
  if first.column = column && !first.atEnd then
    some (blockLines folded chomping column first.rest.length breaks [] first)
  else some (if chomping = .keep then breaks else [], first)

end Yaml
end Rulebook
