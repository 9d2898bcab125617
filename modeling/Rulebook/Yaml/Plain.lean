import Rulebook.Yaml.Cursor

/-!
# Scalars without quotes

A plain scalar goes on, word by word, until something stands that ends it.  On further lines it has
to stand deeper than the collection that it belongs to.
-/

namespace Rulebook
namespace Yaml

def isFlowChar (c : Char) : Bool :=
  c = ',' || c = '[' || c = ']' || c = '\x7b' || c = '\x7d'

/-- The characters that only other tokens begin with. -/
def isIndicator (c : Char) : Bool :=
  isFlowChar c || "-?:#&*!|>'\"%@\x60".toList.contains c

/-- Whether a plain scalar ends before a text.  In flow collections it ends before their
characters and before a question mark, too. -/
def endsPlain (flow : Bool) : List Char → Bool
  | [] => true
  | c :: rest =>
    isBlank c || isBreak c || (flow && (isFlowChar c || c = '?')) ||
      (c = ':' && (blankFollows rest || (flow && (rest.head?.map isFlowChar).getD false)))

def plainWord (flow : Bool) : List Char → List Char
  | [] => []
  | c :: rest => if endsPlain flow (c :: rest) then [] else c :: plainWord flow rest

/-- Whether a plain scalar can begin with a text.  Three of the indicators can begin it when no blank
follows, two of them outside flow collections only. -/
def beginsPlain (flow : Bool) : List Char → Bool
  | [] => false
  | c :: rest =>
    !(isBlank c || isBreak c || isIndicator c) ||
      (!blankFollows rest && (c = '-' || (!flow && (c = '?' || c = ':'))))

/-- The line breaks among the spaces and line breaks here, and the place after, along what is left.
A separator of documents ends them. -/
def breaksAlong (breaks : List Char) (cursor : Cursor) : List Char → List Char × Cursor
  | [] => (breaks.reverse, cursor)
  | c :: rest =>
    if isBreak c then
      if cursor.next.atSeparator then ((c :: breaks).reverse, cursor.next)
      else breaksAlong (c :: breaks) cursor.next rest
    else if c = ' ' then breaksAlong breaks cursor.next rest
    else (breaks.reverse, cursor)

structure Plain where
  text : List Char
  /-- The place after the scalar and the spaces and line breaks behind it. -/
  after : Cursor
  /-- Whether line breaks are among them. -/
  endsLine : Bool

/-- Reads on a plain scalar, word by word.  On a further line it has to stand deeper than
`indent`. -/
def plainFrom (flow : Bool) (indent : Int) : Nat → List Char → Cursor → Plain
  | 0, text, cursor => ⟨text, cursor, false⟩
  | bound + 1, text, cursor =>
    let word := plainWord flow cursor.rest
    let text := text ++ word
    let here := cursor.forward word.length
    let (breaks, there) := breaksAlong [] here here.rest
    let between := if breaks.isEmpty then List.replicate (there.index - here.index) ' '
      else foldedBreaks breaks
    -- It ends before a comment, a separator or a lesser column, and where no word follows.
    let stays := here.index < there.index && there.rest.head? ≠ some '#' &&
      !(there.column = 0 && there.atSeparator) && (flow || indent < there.column) &&
      !(plainWord flow there.rest).isEmpty
    if stays then plainFrom flow indent bound (text ++ between) there
    else ⟨text, there, !breaks.isEmpty⟩

def plain (flow : Bool) (indent : Int) (cursor : Cursor) : Plain :=
  plainFrom flow indent cursor.rest.length [] cursor

end Yaml
end Rulebook
