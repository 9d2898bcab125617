/-!
# Places in a text

A cursor is a place in a text: what is left, and where that stands.  Here is what the rules of the
format say about places alone: where lines end, what separates tokens and documents, and how the
line breaks inside a scalar are folded.
-/

namespace Rulebook
namespace Yaml

/-- Whether a character ends a line.  The separators of lines and of paragraphs do so, too, but they
stay what they are where other line breaks are all the same. -/
def isBreak (c : Char) : Bool :=
  c = '\n' || c = '\u2028' || c = '\u2029'

def isBlank (c : Char) : Bool :=
  c = ' ' || c = '\t'

def blankFollows : List Char → Bool
  | [] => true
  | c :: _ => isBlank c || isBreak c

def lineEnds : List Char → Bool
  | [] => true
  | c :: _ => isBreak c

structure Cursor where
  rest : List Char
  index : Nat := 0
  line : Nat := 0
  column : Nat := 0
deriving Inhabited

namespace Cursor

/-- The place after one character.  Marks of byte order have no width. -/
def next (cursor : Cursor) : Cursor :=
  match cursor.rest with
  | [] => cursor
  | c :: rest =>
    if isBreak c then ⟨rest, cursor.index + 1, cursor.line + 1, 0⟩
    else ⟨rest, cursor.index + 1, cursor.line,
      if c = '\ufeff' then cursor.column else cursor.column + 1⟩

def forward : Cursor → Nat → Cursor
  | cursor, 0 => cursor
  | cursor, count + 1 => cursor.next.forward count

def pass (kind : Char → Bool) (cursor : Cursor) : Cursor :=
  cursor.forward (cursor.rest.takeWhile kind).length

def atEnd (cursor : Cursor) : Bool :=
  cursor.rest.isEmpty

/-- Whether three marks of a kind stand here, separated from what follows. -/
def atMarks (mark : Char) (cursor : Cursor) : Bool :=
  match cursor.rest with
  | a :: b :: c :: rest => a = mark && b = mark && c = mark && blankFollows rest
  | _ => false

def atSeparator (cursor : Cursor) : Bool :=
  cursor.atMarks '-' || cursor.atMarks '.'

/-- Passes over spaces, line breaks and comments, along what is left. -/
def skipAlong (inComment : Bool) (cursor : Cursor) : List Char → Cursor
  | [] => cursor
  | c :: rest =>
    if isBreak c then skipAlong false cursor.next rest
    else if inComment then skipAlong true cursor.next rest
    else if c = ' ' then skipAlong false cursor.next rest
    else if c = '#' then skipAlong true cursor.next rest
    else cursor

def skip (cursor : Cursor) : Cursor :=
  skipAlong false cursor cursor.rest

end Cursor

/-- The text that stands for line breaks inside a folded scalar: a single one is a space, and of
several the first is left out. -/
def foldedBreaks : List Char → List Char
  | [] => []
  | first :: others =>
    if first ≠ '\n' then first :: others else if others.isEmpty then [' '] else others

end Yaml
end Rulebook
