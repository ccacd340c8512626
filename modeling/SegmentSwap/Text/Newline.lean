/-!
# Line ends

A text file may end its lines by a carriage return, a line feed or both; what is read holds line
feeds only.
-/

namespace SegmentSwap.Text

/-- Turns every line end into a line feed. -/
def normalizeNewlines : List Char → List Char
  | [] => []
  | ['\r'] => ['\n']
  | '\r' :: '\n' :: rest => '\n' :: normalizeNewlines rest
  | '\r' :: c :: rest => '\n' :: normalizeNewlines (c :: rest)
  | c :: rest => c :: normalizeNewlines rest

end SegmentSwap.Text
