/-!
# Columns

Padding of a text with blanks to a least width.
-/

namespace Intcode.Text

/-- The text, with blanks before it up to `width` characters. -/
def padLeft (width : Nat) (text : String) : String :=
  String.ofList (List.replicate (width - text.length) ' ') ++ text

/-- The text, with blanks after it up to `width` characters. -/
def padRight (width : Nat) (text : String) : String :=
  text ++ String.ofList (List.replicate (width - text.length) ' ')

end Intcode.Text
