/-!
# Sorted texts

Texts in the order of their characters, as lists of names are shown.
-/

namespace Rulebook
namespace Text

/-- Puts a text before the first that is not smaller. -/
def insertSorted (text : String) : List String → List String
  | [] => [text]
  | other :: rest => if other < text then other :: insertSorted text rest else text :: other :: rest

def sorted : List String → List String
  | [] => []
  | text :: rest => insertSorted text (sorted rest)

end Text
end Rulebook
