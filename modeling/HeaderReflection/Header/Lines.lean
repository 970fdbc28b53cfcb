import HeaderReflection.Text.Basic

/-!
# Lines of a header

A header is read line by line. A final line end does not start another line, and an empty header has no lines.
-/

namespace HeaderReflection.Header

/-- The lines of a header, without their ends. -/
def lines (text : Text) : List Text :=
  match Text.trimSuffix [Text.lineFeed] text.unixLines with
  | [] => []
  | body => Text.splitOn Text.lineFeed body

end HeaderReflection.Header
