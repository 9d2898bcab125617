import Rulebook.Yaml.Cursor
import Rulebook.Yaml.Scalar

/-!
# Scalars in quotes

Between single quotes a quote is written twice; between double quotes a backslash begins an escape.
In both, line breaks are folded, with the blanks around them.
-/

namespace Rulebook
namespace Yaml

/-- The number after the greatest code of a character. -/
def charCodes : Nat := 0x110000

/-- The number after the greatest one for which a character is looked up. -/
def lookedUpCodes : Nat := 0x80000000

/-- The character whose code hexadecimal digits write.  Not every number is one. -/
def hexadecimal (digits : List Char) : Except Problem Char :=
  if !digits.all (isDigitOf 16) then .error .malformed
  else if number 16 digits < charCodes then .ok (Char.ofNat (number 16 digits))
  else if number 16 digits < lookedUpCodes then .error .valueless
  else .error .tooLarge

def escapes : List (Char × Char) :=
  [('0', '\x00'), ('a', '\x07'), ('b', '\x08'), ('t', '\t'), ('\t', '\t'), ('n', '\n'),
   ('v', '\x0b'), ('f', '\x0c'), ('r', '\r'), ('e', '\x1b'), (' ', ' '), ('"', '"'), ('\\', '\\'),
   ('/', '/'), ('N', '\u0085'), ('_', '\u00a0'), ('L', '\u2028'), ('P', '\u2029')]

def escapeWidth (c : Char) : Nat :=
  if c = 'x' then 2 else if c = 'u' then 4 else if c = 'U' then 8 else 0

/-- Reads the escape after a backslash, other than one of a line break: the character, and how many
characters write it. -/
def escape : List Char → Except Problem (Char × Nat)
  | [] => .error .malformed
  | letter :: digits =>
    let width := escapeWidth letter
    if width = 0 then match escapes.lookup letter with
      | some c => .ok (c, 1)
      | none => .error .malformed
    else if (digits.take width).length = width then
      (hexadecimal (digits.take width)).map fun c => (c, width + 1)
    else .error .malformed

/-- The line breaks here, with blanks before and after them, and the place after; nothing if a
separator of documents stands between. -/
def quotedBreaks : Nat → List Char → Cursor → Option (List Char × Cursor)
  | 0, breaks, cursor => some (breaks.reverse, cursor)
  | bound + 1, breaks, cursor =>
    let there := cursor.pass isBlank
    match there.rest with
    | [] => some (breaks.reverse, there)
    | c :: _ =>
      if !isBreak c then some (breaks.reverse, if breaks.isEmpty then cursor else there)
      else if there.next.atSeparator then none
      else quotedBreaks bound (c :: breaks) there.next

/-- Reads on a quoted scalar up to its closing quote; `text` is what was read, in reverse. -/
def quotedFrom (quote : Char) : Nat → List Char → Cursor → Except Problem (List Char × Cursor)
  | 0, _, _ => .error .malformed
  | bound + 1, text, cursor =>
    match cursor.rest with
    | [] => .error .malformed
    | c :: rest =>
      if c = quote then
        if quote = '\'' && rest.head? = some '\'' then
          quotedFrom quote bound ('\'' :: text) (cursor.forward 2)
        else .ok (text.reverse, cursor.next)
      else if c = '\\' && quote = '"' then
        if !rest.isEmpty && lineEnds rest then
          let start := cursor.forward 2
          if start.atSeparator then .error .malformed
          else match quotedBreaks bound [] start with
            | some (breaks, there) =>
              quotedFrom quote bound (breaks.reverse ++ text) (there.pass isBlank)
            | none => .error .malformed
        else do
          let (c, width) ← escape rest
          quotedFrom quote bound (c :: text) (cursor.next.forward width)
      else match quotedBreaks bound [] cursor with
        | none => .error .malformed
        | some ([], _) => quotedFrom quote bound (c :: text) cursor.next
        | some (breaks, there) =>
          quotedFrom quote bound ((foldedBreaks breaks).reverse ++ text) there

/-- Reads a quoted scalar, the cursor being at its first quote. -/
def quoted (quote : Char) (cursor : Cursor) : Except Problem (List Char × Cursor) :=
  quotedFrom quote (cursor.rest.length + 1) [] cursor.next

end Yaml
end Rulebook
