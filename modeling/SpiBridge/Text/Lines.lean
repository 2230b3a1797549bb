/-!
# Lines

A line ends with a line feed, and a carriage return in front of it belongs to
the end.  What stands behind the last line feed is a line unless it is empty.
-/

namespace SpiBridge.Text

def lines : List Char → List (List Char)
  | [] => []
  | '\n' :: rest => [] :: lines rest
  | '\r' :: '\n' :: rest => [] :: lines rest
  | c :: rest =>
    match lines rest with
    | [] => [[c]]
    | line :: more => (c :: line) :: more

def linesOf (text : String) : List String :=
  (lines text.toList).map String.ofList

end SpiBridge.Text
