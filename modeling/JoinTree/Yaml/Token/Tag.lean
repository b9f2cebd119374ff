import JoinTree.Yaml.Token

/-!
Names behind an indicator: directives, anchors and tags.
-/

namespace JoinTree.Yaml

-- `%XX` in a tag stands for a byte; the bytes of one character stand together.
private def octet? : List Char → Option Nat
  | '%' :: a :: b :: _ => do
    let hex (c : Char) : Option Nat :=
      if c.isDigit then some (c.toNat - 48)
      else if 'a' ≤ c && c ≤ 'f' then some (c.toNat - 87)
      else if 'A' ≤ c && c ≤ 'F' then some (c.toNat - 55)
      else none
    return (← hex a) * 16 + (← hex b)
  | _ => none

private def leadingWidth (octet : Nat) : Nat :=
  if octet < 128 then 1 else if octet / 32 = 6 then 2 else if octet / 16 = 14 then 3 else if octet / 8 = 30 then 4 else 0

private def trailingOctets (activity : Activity) (start : Mark) : Nat → Octets → Cursor →
    Except Fault (Octets × Cursor)
  | 0, bytes, c => .ok (bytes,c)
  | n + 1, bytes, c =>
    match octet? c.rest with
    | none => .error (c.fault .octet activity start)
    | some x =>
      if x / 64 ≠ 2 then .error (c.fault .trailingOctet activity start)
      else trailingOctets activity start n (bytes ++ [.ofNat x]) c.skip.skip.skip

private def escapedChar (activity : Activity) (start : Mark) (c : Cursor) : Except Fault (Octets × Cursor) :=
  match octet? c.rest with
  | none => .error (c.fault .octet activity start)
  | some x =>
    match leadingWidth x with
    | 0 => .error (c.fault .leadingOctet activity start)
    | width + 1 => trailingOctets activity start width [.ofNat x] c.skip.skip.skip

private def isUriChar (verbatim : Bool) (c : Char) : Bool :=
  isNameChar c || ";/?:@&=+$.%!~*'()".toList.contains c || (verbatim && [',','[',']'].contains c)

private def uriFrom (verbatim : Bool) (activity : Activity) (start : Mark) : (bound : Nat) → Octets → Cursor →
    Except Fault (Octets × Cursor)
  | 0, bytes, c => .ok (bytes,c)
  | n + 1, bytes, c =>
    match c.rest with
    | '%' :: _ => do
      let (more,c) ← escapedChar activity start c
      uriFrom verbatim activity start n (bytes ++ more) c
    | x :: _ =>
      if isUriChar verbatim x then uriFrom verbatim activity start n (bytes ++ [.ofNat x.toNat]) c.skip else .ok (bytes,c)
    | [] => .ok (bytes,c)

private def uri (verbatim : Bool) (activity : Activity) (start : Mark) (c : Cursor) : Except Fault (Octets × Cursor) :=
  uriFrom verbatim activity start (c.rest.length + 1) [] c

private def nonEmptyUri (verbatim : Bool) (activity : Activity) (start : Mark) (c : Cursor) :
    Except Fault (Octets × Cursor) := do
  let (bytes,d) ← uri verbatim activity start c
  if bytes.isEmpty then .error (d.fault .uri activity start) else return (bytes,d)

-- An exclamation mark, a name, and perhaps another exclamation mark.
private def handle (c : Cursor) : List Char × Cursor :=
  let (name,c) := c.skip.takeWhile isNameChar
  if c.isAt '!' then ('!' :: name ++ ['!'],c.skip) else ('!' :: name,c)

def Token.readTag (inFlow : Bool) (c : Cursor) : Except Fault (Token × Cursor) := do
  let start := c.mark
  let (handle,suffix,c) ← body start
  if (inFlow && c.isAt ',') || c.isGapAt 0 then return (.tag handle suffix,c)
  else .error (c.fault .blankOrBreak .tag start)
where
  body (start : Mark) : Except Fault (String × Octets × Cursor) := do
    if c.at? 1 = some '<' then
      let (bytes,c) ← nonEmptyUri true .tagSuffix start c.skip.skip
      if c.isAt '>' then return ("",bytes,c.skip) else .error (c.fault .closingAngle .tag start)
    else
      let (name,c) := handle c
      if name.length > 1 && name.getLast? = some '!' then
        let (bytes,c) ← nonEmptyUri false .tagSuffix start c
        return (.ofList name,bytes,c)
      else
        let (bytes,c) ← uri false .tagSuffix start c
        match Octets.untilZero (.ofText (.ofList (name.drop 1)) ++ bytes) with
        | [] => return ("",.ofText "!",c)
        | suffix => return ("!",suffix,c)

-- The name of an anchor or of a reference to one.
def Token.readName (activity : Activity) (c : Cursor) : Except Fault (String × Cursor) :=
  let (name,d) := c.skip.takeWhile isNameChar
  if name.isEmpty || !(d.isGapAt 0 || d.isAtAny ['?',':',',',']','\x7d','%','@','\x60']) then
    .error (d.fault .anchorName activity c.mark)
  else .ok (.ofList name,d)

private def versionNumber (start : Mark) (c : Cursor) : Except Fault (Nat × Cursor) :=
  let (digits,d) := c.takeWhile Char.isDigit
  if digits.length > 9 then .error ((Nat.repeat Cursor.skip 9 c).fault .versionLong .versionDirective start)
  else if digits.isEmpty then .error (c.fault .versionMissing .versionDirective start)
  else .ok (Text.digitsValue digits,d)

private def readVersion (start : Mark) (c : Cursor) : Except Fault (Token × Cursor) := do
  let (major,c) ← versionNumber start (c.skipWhile isBlank)
  if !c.isAt '.' then .error (c.fault .versionDot .versionDirective start)
  else
    let (minor,c) ← versionNumber start c.skip
    return (.versionDirective major minor,c)

private def readTagDirective (start : Mark) (c : Cursor) : Except Fault (Token × Cursor) := do
  let c := c.skipWhile isBlank
  if !c.isAt '!' then .error (c.fault .exclamation .tagHandleDirective start)
  else
    let (name,c) := handle c
    if name ≠ ['!'] && name.getLast? ≠ some '!' then .error (c.fault .exclamation .tagHandleOnly start)
    else if !c.isAtBlank then .error (c.fault .blank .tagDirective start)
    else
      let (bytes,c) ← nonEmptyUri true .tagPrefix start (c.skipWhile isBlank)
      if c.isGapAt 0 then return (.tagDirective (.ofList name) bytes,c)
      else .error (c.fault .blankOrBreak .tagDirective start)

-- A directive takes the whole of its line.
def Token.readDirective (c : Cursor) : Except Fault (Token × Mark × Cursor) := do
  let start := c.mark
  let (name,c) := c.skip.takeWhile isNameChar
  if name.isEmpty then .error (c.fault .directiveName .directive start)
  else if !c.isGapAt 0 then .error (c.fault .directiveLetter .directive start)
  else
    let (token,c) ← match String.ofList name with
      | "YAML" => readVersion start c
      | "TAG" => readTagDirective start c
      | _ => .error (c.fault .directiveUnknown .directive start)
    let stop := c.mark
    let c := c.skipToLineEnd
    if c.isAtBreakOrEnd then return (token,stop,c.skip) else .error (c.fault .lineEnd .directive start)

end JoinTree.Yaml
