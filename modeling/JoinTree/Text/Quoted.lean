import JoinTree.Text.Printable

namespace JoinTree.Text

private def hexEscape (c : Char) : List Char := "\\u\x7b".toList ++ Nat.toDigits 16 c.toNat ++ ['\x7d']

def quotedChar (c : Char) : List Char :=
  match c with
  | '\x00' => ['\\', '0'] | '\t' => ['\\', 't'] | '\n' => ['\\', 'n'] | '\r' => ['\\', 'r']
  | '"' => ['\\', '"'] | '\\' => ['\\', '\\']
  | c => if isPrintable c then [c] else hexEscape c

-- A text between double quotes in which every character can be seen.
def quoted (s : String) : String := .ofList ('"' :: s.toList.flatMap quotedChar ++ ['"'])

end JoinTree.Text
