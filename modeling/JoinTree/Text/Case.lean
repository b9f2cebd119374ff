namespace JoinTree.Text

-- Lower case as far as an ASCII word can tell: the Kelvin sign is the one character beyond ASCII whose
-- lower case is an ASCII letter.
def lowerChar (c : Char) : Char := if c = '\u212a' then 'k' else c.toLower

def lower (s : String) : String := .ofList (s.toList.map lowerChar)

def upperAscii (s : String) : String := .ofList (s.toList.map Char.toUpper)

-- Upper case as far as an ASCII word can tell: these are all characters beyond ASCII whose upper case
-- consists of ASCII letters.
def upperChars (c : Char) : List Char :=
  if c.toNat < 128 then [c.toUpper] else
  match c with
  | 'ß' => ['S', 'S'] | 'ı' => ['I'] | 'ſ' => ['S']
  | 'ﬀ' => ['F', 'F'] | 'ﬁ' => ['F', 'I'] | 'ﬂ' => ['F', 'L'] | 'ﬃ' => ['F', 'F', 'I'] | 'ﬄ' => ['F', 'F', 'L']
  | 'ﬅ' => ['S', 'T'] | 'ﬆ' => ['S', 'T']
  | _ => [c]

def upper (s : String) : String := .ofList (s.toList.flatMap upperChars)

end JoinTree.Text
