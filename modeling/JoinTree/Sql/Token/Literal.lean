import JoinTree.Sql.Token

/-!
The insides of literals and comments, up to what closes them.
-/

namespace JoinTree.Sql

inductive LexicalFault where
  | unterminatedString | unterminatedName (quote : Char) | unterminatedComment | unterminatedDollar
  | unterminatedTag | unterminatedEscapes | unterminatedUnicode | underscoreAfterPeriod | blankDelimiter (front : String)
  | missingHexDigit | wrongHexDigit (c : Char) | wrongCodePoint (n : Nat)
  deriving DecidableEq, Repr

def LexicalFault.message : LexicalFault → String
  | unterminatedString => "Unterminated string literal"
  | unterminatedName q => s!"Expected close delimiter '{q}' before EOF."
  | unterminatedComment => "Unexpected EOF while in a multi-line comment"
  | unterminatedDollar => "Unterminated dollar-quoted string"
  | unterminatedTag => "Unterminated dollar-quoted, expected $"
  | unterminatedEscapes => "Unterminated encoded string literal"
  | unterminatedUnicode => "Unterminated unicode encoded string literal"
  | underscoreAfterPeriod => "Unexpected character '_'"
  | blankDelimiter front => s!"Invalid space, tab, newline, or EOF after '{front}''"
  | missingHexDigit => "Unexpected EOF while parsing hex digit in escaped unicode string."
  | wrongHexDigit c => s!"Invalid hex digit in escaped unicode string: {c}"
  | wrongCodePoint n => "Invalid unicode character: " ++ .ofList (Nat.toDigits 16 n)

namespace Token

def unescaped : Char → Char
  | '0' => '\x00' | 'a' => '\x07' | 'b' => '\x08' | 'f' => '\x0c' | 'n' => '\n' | 'r' => '\r' | 't' => '\t'
  | 'Z' => '\x1a' | c => c

-- The text up to the closing quote and the number of characters read, closing quote included. A doubled quote
-- stands for one.
def quotedBody (quote : Char) (escapes : Bool) : List Char → Option (List Char × Nat)
  | [] => none
  | c :: cs =>
    if c = quote then
      match cs with
      | [] => some ([], 1)
      | c' :: cs' =>
        if c' = quote then (quotedBody quote escapes cs').map fun (s, n) => (quote :: s, n + 2) else some ([], 1)
    else if c = '\\' && escapes then
      match cs with
      | [] => none
      | c' :: cs' => (quotedBody quote escapes cs').map fun (s, n) => (unescaped c' :: s, n + 2)
    else (quotedBody quote escapes cs).map fun (s, n) => (c :: s, n + 1)

def hexValue? (c : Char) : Option Nat :=
  if c.isDigit then some (c.toNat - 48)
  else if 'a' ≤ c && c ≤ 'f' then some (c.toNat - 87)
  else if 'A' ≤ c && c ≤ 'F' then some (c.toNat - 55) else none

private def ofHex (cs : List Char) : Nat := cs.foldl (fun n c => n * 16 + (hexValue? c).getD 0) 0

private def codePoint? (n : Nat) : Option Char := if n.isValidChar then some (.ofNat n) else none

def isOctal (c : Char) : Bool := '0' ≤ c && c ≤ '7'

-- The character of a byte that is written in digits, which has to be an ASCII character.
private def byteChar? (n : Nat) : Option Char := if n % 256 < 128 then some (.ofNat (n % 256)) else none

-- The character that an escape stands for and the number of characters it takes after the backslash.
def escapedChar? : List Char → Option (Char × Nat)
  | [] => none
  | 'b' :: _ => some ('\x08', 1) | 'f' :: _ => some ('\x0c', 1) | 'n' :: _ => some ('\n', 1)
  | 'r' :: _ => some ('\r', 1) | 't' :: _ => some ('\t', 1)
  | 'u' :: cs => fixed cs 4 | 'U' :: cs => fixed cs 8
  | 'x' :: cs =>
    match (cs.take 2).takeWhile fun c => (hexValue? c).isSome with
    | [] => some ('x', 1)
    | ds => (byteChar? (ofHex ds)).map (·, ds.length + 1)
  | c :: cs =>
    if isOctal c then
      let ds := (c :: cs.take 2).takeWhile isOctal
      (byteChar? (ds.foldl (fun n c => n * 8 + (c.toNat - 48)) 0)).map (·, ds.length)
    else some (c, 1)
where
  -- A plus sign may stand in place of the first digit.
  fixed (cs : List Char) (width : Nat) : Option (Char × Nat) :=
    let ds := if cs.head? = some '+' then (cs.take width).tail else cs.take width
    if (cs.take width).length = width && ds.all (fun c => (hexValue? c).isSome) then
      (codePoint? (ofHex ds)).map (·, width + 1)
    else none

-- As `quotedBody`, with the escapes of an E literal; NUL cannot be written. `skip` counts characters already read.
def escapedBody : (skip : Nat) → List Char → Option (List Char × Nat)
  | _, [] => none
  | skip + 1, _ :: cs => (escapedBody skip cs).map fun (s, n) => (s, n + 1)
  | 0, c :: cs =>
    if c = '\'' then
      if cs.head? = some '\'' then (escapedBody 1 cs).map fun (s, n) => ('\'' :: s, n + 1) else some ([], 1)
    else if c = '\\' then
      match escapedChar? cs with
      | some (e, k) => if e = '\x00' then none else (escapedBody k cs).map fun (s, n) => (e :: s, n + 1)
      | none => none
    else (escapedBody 0 cs).map fun (s, n) => (c :: s, n + 1)

def unicodeDigits (pos : Nat) (cs : List Char) (width : Nat) : Except (LexicalFault × Nat) (Char × Nat) :=
  let ds := (cs.take width).takeWhile fun c => (hexValue? c).isSome
  if ds.length < width then
    match cs[ds.length]? with
    | none => .error (.missingHexDigit, pos + ds.length)
    | some c => .error (.wrongHexDigit c, pos + ds.length + 1)
  else match codePoint? (ofHex ds) with
    | some c => .ok (c, width)
    | none => .error (.wrongCodePoint (ofHex ds), pos + width)

-- The body of a U& literal; `pos` counts the characters of the literal read before.
def unicodeBody (pos : Nat) : (skip : Nat) → List Char → Except (LexicalFault × Nat) (List Char × Nat)
  | _, [] => .error (.unterminatedUnicode, pos)
  | skip + 1, _ :: cs => do let (s, n) ← unicodeBody (pos + 1) skip cs; pure (s, n + 1)
  | 0, c :: cs => do
    if c = '\'' then
      if cs.head? = some '\'' then let (s, n) ← unicodeBody (pos + 1) 1 cs; pure ('\'' :: s, n + 1)
      else pure ([], 1)
    else if c = '\\' then
      if cs.head? = some '\\' then let (s, n) ← unicodeBody (pos + 1) 1 cs; pure ('\\' :: s, n + 1)
      else if cs.head? = some '+' then
        let (e, k) ← unicodeDigits (pos + 2) cs.tail 6
        let (s, n) ← unicodeBody (pos + 1) (k + 1) cs; pure (e :: s, n + 1)
      else
        let (e, k) ← unicodeDigits (pos + 1) cs 4
        let (s, n) ← unicodeBody (pos + 1) k cs; pure (e :: s, n + 1)
    else let (s, n) ← unicodeBody (pos + 1) 0 cs; pure (c :: s, n + 1)

-- The text up to the first three quotes in a row, and the number of characters read, those quotes included.
def tripledBody (quote : Char) : List Char → Option (List Char × Nat)
  | [] => none
  | c :: cs =>
    if (c :: cs).take 3 = [quote, quote, quote] then some ([], 3)
    else (tripledBody quote cs).map fun (s, n) => (c :: s, n + 1)

def closingDelimiter : Char → Char
  | '[' => ']' | '\x7b' => '\x7d' | '<' => '>' | '(' => ')' | c => c

-- The text up to the closing delimiter that a quote follows, and the number of characters read, that quote included.
def delimitedBody (closing : Char) : List Char → Option (List Char × Nat)
  | [] => none
  | c :: cs =>
    if c = closing && cs.head? = some '\'' then some ([], 2)
    else (delimitedBody closing cs).map fun (s, n) => (c :: s, n + 1)

-- The body of a comment behind its opening mark, and the number of characters read, closing mark included.
def commentBody (nests : Bool) : (depth : Nat) → List Char → Option (List Char × Nat)
  | _, [] => none
  | depth, '/' :: '*' :: cs =>
    if nests then (commentBody nests (depth + 1) cs).map fun (s, n) => ('/' :: '*' :: s, n + 2)
    else (commentBody nests depth ('*' :: cs)).map fun (s, n) => ('/' :: s, n + 1)
  | depth, '*' :: '/' :: cs => match depth with
    | 0 => some ([], 2)
    | depth + 1 => (commentBody nests depth cs).map fun (s, n) => ('*' :: '/' :: s, n + 2)
  | depth, c :: cs => (commentBody nests depth cs).map fun (s, n) => (c :: s, n + 1)

def dollarBody (delimiter : List Char) : List Char → Option (List Char)
  | [] => none
  | c :: cs => if delimiter.isPrefixOf (c :: cs) then some [] else (dollarBody delimiter cs).map (c :: ·)

end Token

end JoinTree.Sql
