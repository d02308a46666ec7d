namespace Tapewright.Text

/-! Lines of a text. -/

/-- What stands before the first line end.  A carriage return right before the line feed
is part of the line end. -/
def firstLine (text : List Char) : List Char :=
  let line := text.takeWhile (· != '\n')
  if line.length < text.length && line.getLast? == some '\r' then line.dropLast else line

end Tapewright.Text
