/-!
# The text of a file

Files are read as UTF-8, and every way of ending a line counts as a line feed.

## Main definitions

* `Text.unifyBreaks` — a text with all line ends turned into line feeds
* `Text.decode?` — the text of the data of a file
-/

namespace DocLineage.Text

/-- A text with carriage returns, and pairs of one and a line feed, turned into line feeds. -/
def unifyBreaks : List Char → List Char
  | '\r' :: '\n' :: cs => '\n' :: unifyBreaks cs
  | '\r' :: cs => '\n' :: unifyBreaks cs
  | c :: cs => c :: unifyBreaks cs
  | [] => []

/-- The text of the data of a file, unless they are not UTF-8. -/
def decode? (data : ByteArray) : Option String :=
  (String.fromUTF8? data).map fun s => String.ofList (unifyBreaks s.toList)

end DocLineage.Text
