import JoinTree.Yaml.Token

/-!
Scalars in their four notations. Line breaks inside of a scalar are folded: a single one becomes a blank, of several
the first is dropped.
-/

namespace JoinTree.Yaml

-- What stands between two words of a scalar.
structure Gap where
  blanks : List Char := []
  broken : Bool := false
  first : List Char := []
  others : List Char := []

namespace Gap

def withBlank (g : Gap) (c : Char) : Gap := if g.broken then g else { g with blanks := g.blanks ++ [c] }

def withBreak (g : Gap) (c : Char) : Gap :=
  if g.broken then { g with others := g.others ++ [breakText c] } else { g with broken := true, first := [breakText c] }

-- The gap in the text of the scalar.
def text (g : Gap) : List Char :=
  if !g.broken then g.blanks
  else if g.first = ['\n'] then (if g.others.isEmpty then [' '] else g.others)
  else g.first ++ g.others

-- The gap in front of the next word. A tab left of `indent` in a new line is a fault, at its place.
def read (indent : Int) (g : Gap) (m : Mark) : List Char → Except Mark (Gap × Cursor)
  | [] => .ok (g,⟨[],m⟩)
  | '\r' :: '\n' :: r => read indent (g.withBreak '\n') (m.nextLine 2) r
  | c :: r =>
    if isBreak c then read indent (g.withBreak c) (m.nextLine 1) r
    else if isBlank c then
      if g.broken && m.column < indent && c = '\t' then .error m else read indent (g.withBlank c) m.next r
    else .ok (g,⟨c :: r,m⟩)

end Gap

-- A scalar that has been read.
structure ReadScalar where
  text : List Char
  stop : Mark
  cursor : Cursor
  -- Whether a line break behind the scalar has been read as well.
  broken : Bool := false

namespace Plain

def isFlowIndicator (c : Char) : Bool := [',','[',']','\x7b','\x7d'].contains c

-- The characters up to a blank or an indicator, or how many stand in front of a colon that may not be there.
def word (inFlow : Bool) : List Char → Except Nat (List Char)
  | [] => .ok []
  | c :: r =>
    if isBlank c || isBreak c || (inFlow && isFlowIndicator c) then .ok []
    else if c = ':' && r.head?.all fun x => isBlank x || isBreak x then .ok []
    else if inFlow && c = ':' && r.head?.any fun x => x = '?' || isFlowIndicator x then .error 0
    else match word inFlow r with
      | .ok cs => .ok (c :: cs)
      | .error n => .error (n + 1)

-- The words of a plain scalar and the gaps between them; `bound` is a bound for their number.
def wordsFrom (inFlow : Bool) (indent : Int) (start : Mark) : (bound : Nat) → List Char → Gap → Mark → Cursor →
    Except Fault ReadScalar
  | 0, text, gap, stop, c => .ok ⟨text,stop,c,gap.broken⟩
  | n + 1, text, gap, stop, c =>
    if c.isAtDocumentIndicator || c.isAt '#' then .ok ⟨text,stop,c,gap.broken⟩
    else match word inFlow c.rest with
      | .error k => .error ((Nat.repeat Cursor.skip k c).fault .colon .plainScalar start)
      | .ok [] => .ok ⟨text,stop,c,gap.broken⟩
      | .ok cs =>
        let text := text ++ gap.text ++ cs
        let c := Nat.repeat Cursor.skip cs.length c
        match Gap.read indent {} c.mark c.rest with
        | .error m => .error { problem := .plainTab, place := m, during := some (.plainScalar,start) }
        | .ok (gap,next) =>
          if next.mark = c.mark || (!inFlow && next.mark.column < indent) then .ok ⟨text,c.mark,next,gap.broken⟩
          else wordsFrom inFlow indent start n text gap c.mark next

def read (inFlow : Bool) (indent : Int) (c : Cursor) : Except Fault ReadScalar :=
  wordsFrom inFlow indent c.mark (c.rest.length + 1) [] {} c.mark c

end Plain

namespace Quoted

-- Escapes of one character.
def escapes : List (Char × Char) := [
  ('0','\x00'), ('a','\x07'), ('b','\x08'), ('t','\t'), ('\t','\t'), ('n','\n'), ('v','\x0b'), ('f','\x0c'), ('r','\r'),
  ('e','\x1b'), (' ',' '), ('"','"'), ('/','/'), ('\\','\\'), ('N','\x85'), ('_','\xa0'), ('L','\u2028'), ('P','\u2029')]

-- Escapes by the number of a code point, with the count of its digits.
def codeEscapes : List (Char × Nat) := [('x',2), ('u',4), ('U',8)]

def hexValue? (c : Char) : Option Nat :=
  if c.isDigit then some (c.toNat - 48)
  else if 'a' ≤ c && c ≤ 'f' then some (c.toNat - 87)
  else if 'A' ≤ c && c ≤ 'F' then some (c.toNat - 55)
  else none

-- The character of an escape and what is left behind it.
def escape (start : Mark) (c : Cursor) : Except Fault (Char × Cursor) :=
  let name := (c.at? 1).getD '\x00'
  match escapes.lookup name with
  | some x => .ok (x,c.skip.skip)
  | none =>
    match codeEscapes.lookup name with
    | none => .error (c.fault .escape .escape start)
    | some width =>
      let c := c.skip.skip
      let digits := (c.rest.take width).filterMap hexValue?
      if digits.length < width then .error (c.fault .hexadecimal .escape start)
      else
        let value := digits.foldl (fun n d => n * 16 + d) 0
        if value.isValidChar then .ok (.ofNat value,Nat.repeat Cursor.skip width c)
        else .error (c.fault .codePoint .escape start)

-- The characters up to a blank or the closing quote, and whether an escaped line break ended them.
def word (quote : Char) (start : Mark) : (bound : Nat) → List Char → Cursor →
    Except Fault (List Char × Bool × Cursor)
  | 0, text, c => .ok (text,false,c)
  | n + 1, text, c =>
    match c.rest with
    | [] => .ok (text,false,c)
    | x :: r =>
      if isBlank x || isBreak x then .ok (text,false,c)
      else if quote = '\'' && x = '\'' && r.head? = some '\'' then word quote start n (text ++ ['\'']) c.skip.skip
      else if x = quote then .ok (text,false,c)
      else if quote = '"' && x = '\\' then
        if r.head?.any isBreak then .ok (text,true,c.skip.skip)
        else do
          let (x,c) ← escape start c
          word quote start n (text ++ [x]) c
      else word quote start n (text ++ [x]) c.skip

def wordsFrom (quote : Char) (start : Mark) : (bound : Nat) → List Char → Cursor → Except Fault ReadScalar
  | 0, text, c => .ok ⟨text,c.mark,c,false⟩
  | n + 1, text, c =>
    if c.isAtDocumentIndicator then .error (c.fault .documentIndicator .quotedScalar start)
    else if c.isAtEnd then .error (c.fault .streamEnd .quotedScalar start)
    else do
      let (cs,broken,c) ← word quote start (c.rest.length + 1) [] c
      let text := text ++ cs
      if c.isAt quote then return ⟨text,c.skip.mark,c.skip,false⟩
      match Gap.read 0 { broken } c.mark c.rest with
      | .error _ => return ⟨text,c.mark,c,false⟩
      | .ok (gap,c) => wordsFrom quote start n (text ++ gap.text) c

def read (quote : Char) (c : Cursor) : Except Fault ReadScalar :=
  wordsFrom quote c.mark (c.rest.length + 2) [] c.skip

end Quoted

namespace Block

inductive Chomping where
  | strip | clip | keep
  deriving DecidableEq, Repr

def chompingOf? (c : Cursor) : Option Chomping :=
  if c.isAt '+' then some .keep else if c.isAt '-' then some .strip else none

private def increment? (start : Mark) (c : Cursor) : Except Fault (Nat × Cursor) :=
  match c.rest.head? with
  | some '0' => .error (c.fault .indentZero .blockScalar start)
  | some x => .ok (if x.isDigit then (x.toNat - 48,c.skip) else (0,c))
  | none => .ok (0,c)

-- Chomping and indentation come in either order.
def header (start : Mark) (c : Cursor) : Except Fault (Chomping × Nat × Cursor) := do
  match chompingOf? c with
  | some chomping =>
    let (n,c) ← increment? start c.skip
    return (chomping,n,c)
  | none =>
    let (n,c) ← increment? start c
    match if n = 0 then none else chompingOf? c with
    | some chomping => return (chomping,n,c.skip)
    | none => return (.clip,n,c)

-- Line breaks in front of a line of the scalar.
structure Breaks where
  text : List Char
  stop : Mark
  widest : Nat
  cursor : Cursor

-- An indentation of 0 is not known yet: the widest of the lines is taken.
def breaksFrom (start : Mark) (indent : Nat) : (bound : Nat) → Breaks → Except Fault Breaks
  | 0, b => .ok b
  | n + 1, b =>
    let spaces := (b.cursor.rest.takeWhile (· = ' ')).length
    let taken := if indent = 0 then spaces else min spaces (indent - b.cursor.mark.column)
    let c := Nat.repeat Cursor.skip taken b.cursor
    let b := { b with widest := max b.widest c.mark.column, cursor := c }
    if (indent = 0 || c.mark.column < indent) && c.isAt '\t' then .error (c.fault .indentTab .blockScalar start)
    else match c.rest with
      | x :: _ =>
        if isBreak x then
          breaksFrom start indent n { b with text := b.text ++ [breakText x], stop := c.skip.mark, cursor := c.skip }
        else .ok b
      | [] => .ok b

def breaks (start : Mark) (indent : Nat) (c : Cursor) : Except Fault Breaks :=
  breaksFrom start indent (c.rest.length + 1) ⟨[],c.mark,0,c⟩

-- The text so far, the break behind its last line, the further breaks, and whether that line began with a blank.
def linesFrom (start : Mark) (fold : Bool) (indent : Nat) : (bound : Nat) → List Char → List Char → Bool → Breaks →
    Except Fault (List Char × List Char × Breaks)
  | 0, text, last, _, b => .ok (text,last,b)
  | n + 1, text, last, indented, b =>
    let c := b.cursor
    if c.mark.column ≠ indent || c.isAtEnd then .ok (text,last,b)
    else do
      let joined :=
        if fold && last = ['\n'] && !indented && !c.isAtBlank then (if b.text.isEmpty then [' '] else []) else last
      let (line,d) := c.takeWhile fun _ => true
      let next ← breaks start indent d.skip
      let last := (d.rest.head?.map breakText).toList
      linesFrom start fold indent n (text ++ joined ++ b.text ++ line) last c.isAtBlank next

-- `parent` is the indentation of the collection around the scalar, -1 outside of all.
def read (fold : Bool) (parent : Int) (c : Cursor) : Except Fault ReadScalar := do
  let start := c.mark
  let (chomping,increment,c) ← header start c.skip
  let c := c.skipToLineEnd
  if !c.isAtBreakOrEnd then .error (c.fault .lineEnd .blockScalar start)
  else
    let c := if c.isAtBreak then c.skip else c
    let given := if increment = 0 then 0 else (if parent ≥ 0 then parent.toNat + increment else increment)
    let b ← breaks start given c
    let indent := if given = 0 then max b.widest (max (parent + 1).toNat 1) else given
    let (text,last,b) ← linesFrom start fold indent (c.rest.length + 1) [] [] false b
    let tail := match chomping with
      | .strip => []
      | .clip => last
      | .keep => last ++ b.text
    return ⟨text ++ tail,b.stop,b.cursor,false⟩

end Block

end JoinTree.Yaml
