/-!
# Line Ends

Text files may end their lines with a line feed, a carriage return, or both; reading turns all three
into a line feed.
-/

namespace OpenApiClient.Text

/-- A text whose lines all end in a line feed. -/
def unifyLineEnds : List Char → List Char
  | [] => []
  | '\r' :: '\n' :: cs => '\n' :: unifyLineEnds cs
  | '\r' :: cs => '\n' :: unifyLineEnds cs
  | c :: cs => c :: unifyLineEnds cs

end OpenApiClient.Text
