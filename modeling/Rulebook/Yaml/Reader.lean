import Rulebook.Yaml.Content

/-!
# Documents as text

A document is a text of certain characters, whose tokens form one node at most.
-/

namespace Rulebook
namespace Yaml

/-- Makes every kind of line break the same, those of lines and paragraphs excepted. -/
def unifyBreaks : List Char → List Char
  | '\r' :: '\n' :: rest => '\n' :: unifyBreaks rest
  | c :: rest => (if c = '\r' || c = '\u0085' then '\n' else c) :: unifyBreaks rest
  | [] => []

def isDocumentChar (c : Char) : Bool :=
  c = '\t' || c = '\n' || c = '\r' || c = '\u0085' || (' ' ≤ c && c ≤ '~') ||
    (0xa0 ≤ c.toNat && c.toNat ≠ 0xfffe && c.toNat ≠ 0xffff)

/-- A text without the mark of byte order that it may begin with. -/
def dropMark : List Char → List Char
  | c :: rest => if c = '\ufeff' then rest else c :: rest
  | [] => []

/-- Reads a document; an empty one stands for `null`. -/
def read (text : String) : Except Problem Term :=
  if text.toList.all isDocumentChar then do
    let tokens ← tokens (unifyBreaks (dropMark text.toList))
    let node ← Node.ofTokens tokens
    node.toTerm.mapError Obstacle.problem
  else .error .malformed

end Yaml
end Rulebook
