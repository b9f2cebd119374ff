namespace JoinTree.Text

-- The first line of a text. A carriage return right before the line feed belongs to the line end.
def firstLine (cs : List Char) : List Char :=
  let line := cs.takeWhile (· ≠ '\n')
  if line.length < cs.length && line.getLast? = some '\r' then line.dropLast else line

end JoinTree.Text
