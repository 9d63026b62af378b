import TypedClient.Text.Blank
/-!
# Documentation comments

`Text.comment` turns a description into a documentation comment. The end
mark cannot occur inside: an asterisk before a slash is parted from it by
a backslash. Blank text gives no comment, one line a comment of one line,
and more lines a block with one line each.
-/

namespace TypedClient

namespace Text

/-- The white space of a depth: two spaces a level. -/
def indentation (depth : Nat) : String := String.ofList (List.replicate (2 * depth) ' ')

/-- The text with a backslash between an asterisk and a slash after it. -/
def partEndMarks : List Char → List Char
  | [] => []
  | '*' :: '/' :: rest => '*' :: '\\' :: '/' :: partEndMarks rest
  | c :: rest => c :: partEndMarks rest

/-- The lines of a comment: those of the trimmed text without end marks,
each without blanks at its end. -/
def commentLines (text : String) : List (List Char) :=
  (lines (partEndMarks (trim text.toList))).map trimEnd

/-- One inner line of a block. -/
def commentLine (depth : Nat) (line : List Char) : String :=
  if line.isEmpty then indentation depth ++ " *\n"
  else indentation depth ++ " * " ++ String.ofList line ++ "\n"

/-- The documentation comment for a text at a depth, ended by a line feed,
or nothing for blank text. -/
def comment (text : String) (depth : Nat) : String :=
  match commentLines text with
  | [] => ""
  | [line] => indentation depth ++ "/** " ++ String.ofList line ++ " */\n"
  | line :: more =>
    indentation depth ++ "/**\n" ++ concat ((line :: more).map (commentLine depth)) ++
      indentation depth ++ " */\n"

end Text

end TypedClient
