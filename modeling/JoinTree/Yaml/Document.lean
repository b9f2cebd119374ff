import JoinTree.Yaml.Token.Lexer

/-!
The first document of a text, as far as flat settings need it: the root, and the keys and values of a root mapping up
to the first collection inside of it. What is found wrong behind that has no influence, since such a collection is
refused; but a reference in front of it may stand for a node behind it.
-/

namespace JoinTree.Yaml

structure Scalar where
  value : String
  style : Style
  tag : Option Octets := none
  deriving DecidableEq, Repr

-- What a node is. Of a collection only the beginning counts.
inductive Content where
  | scalar (s : Scalar)
  | sequence (tag : Option Octets)
  | mapping (tag : Option Octets)
  deriving DecidableEq, Repr

-- A node with the place where it begins. A reference has a place of its own and stands for the node it names.
structure Item where
  content : Content
  mark : Mark
  reference : Option Mark := none
  deriving DecidableEq, Repr

def Item.isReferred (i : Item) : Bool := i.reference.isSome

structure Document where
  root : Option Item
  -- Keys and values in turn.
  entries : List Item
  -- What ended the reading early.
  fault : Option Fault
  -- Whether anything but the end of the text comes behind.
  followed : Bool

-- An anchor by its number. The same name may get the same number again, and then stands for the later node throughout.
inductive Pending where
  | node (content : Content) (mark : Mark)
  | reference (number : Nat) (mark : Mark)

structure Progress where
  rest : List Lexeme
  lexical : Option Fault
  tagPrefixes : List (String × Octets) := []
  anchors : List (String × Nat) := []
  targets : List (Nat × Content × Mark) := []
  pending : List Pending := []

abbrev Reading := ExceptT Fault (StateM Progress)

namespace Reading

def peek : Reading Lexeme := do
  let p ← get
  match p.rest with
  | l :: _ => return l
  | [] => throw (p.lexical.getD { problem := .streamEnd })

def skip : Reading Unit := modify fun p => { p with rest := p.rest.drop 1 }

def push (i : Pending) : Reading Unit := modify fun p => { p with pending := p.pending ++ [i] }

def pushNode (content : Content) (m : Mark) : Reading Unit := push (.node content m)

def pushEmpty (m : Mark) : Reading Unit := pushNode (.scalar ⟨"",.plain,none⟩) m

-- The node behind an anchor.
def target (name : String) (content : Content) (m : Mark) : Reading Unit :=
  modify fun p =>
    let number := p.anchors.length
    { p with
      anchors := p.anchors.filter (·.1 ≠ name) ++ [(name,number)]
      targets := p.targets.filter (·.1 ≠ number) ++ [(number,content,m)] }

-- A node that an anchor may stand in front of.
def pushAnchored (anchor : Option String) (content : Content) (m : Mark) : Reading Unit := do
  if let some name := anchor then target name content m
  pushNode content m

def numberOf (name : String) (m : Mark) : Reading Nat := do
  match (← get).anchors.lookup name with
  | some number => return number
  | none => throw { problem := .unknownAnchor, place := m }

def tagOf (start : Mark) (l : Lexeme) (handle : String) (suffix : Octets) : Reading Octets := do
  if handle.isEmpty then return suffix.untilZero
  match (← get).tagPrefixes.lookup handle with
  | some front => return front.untilZero ++ suffix.untilZero
  | none => throw { problem := .tagHandle, place := l.start, during := some (.node,start) }

-- Anchor and tag in front of a node, in either order.
def properties : Reading (Option String × Option Octets) := do
  let first ← peek
  match first.token with
  | .anchor name =>
    skip
    let l ← peek
    match l.token with
    | .tag handle suffix =>
      skip
      discard peek
      return (some name,some (← tagOf first.start l handle suffix))
    | _ => return (some name,none)
  | .tag handle suffix =>
    skip
    let l ← peek
    match l.token with
    | .anchor name =>
      skip
      discard peek
      return (some name,some (← tagOf first.start first handle suffix))
    | _ => return (none,some (← tagOf first.start first handle suffix))
  | _ => return (none,none)

-- One node, or the beginning of a collection; the answer tells whether it is whole.
def node (inBlock indentless : Bool) : Reading Bool := do
  let first ← peek
  if let .reference name := first.token then
    skip
    push (.reference (← numberOf name first.start) first.start)
    return true
  let (anchor,tag) ← properties
  let l ← peek
  let collection (content : Content) : Reading Bool := do pushAnchored anchor content first.start; return false
  match l.token with
  | .blockEntry =>
    if indentless then collection (.sequence tag) else blank first anchor tag l
  | .scalar value style =>
    skip
    pushAnchored anchor (.scalar ⟨value,style,tag⟩) first.start
    return true
  | .flowSequenceStart => collection (.sequence tag)
  | .flowMappingStart => collection (.mapping tag)
  | .blockSequenceStart => if inBlock then collection (.sequence tag) else blank first anchor tag l
  | .blockMappingStart => if inBlock then collection (.mapping tag) else blank first anchor tag l
  | _ => blank first anchor tag l
where
  -- A node may consist of an anchor or a tag alone.
  blank (first : Lexeme) (anchor : Option String) (tag : Option Octets) (l : Lexeme) : Reading Bool := do
    if anchor.isSome || tag.isSome then
      pushAnchored anchor (.scalar ⟨"",.plain,tag⟩) first.start
      return true
    else
      throw {
        problem := .content
        place := l.start
        during := some (if inBlock then .blockNode else .flowNode,first.start) }

-- The anchors behind the beginning of a collection, to the end of the document.
def anchorsBehind : (bound : Nat) → Reading Unit
  | 0 => pure ()
  | n + 1 => do
    let first ← peek
    match first.token with
    | .streamEnd | .documentStart | .documentEnd | .versionDirective .. | .tagDirective .. => return
    | .reference name => skip; discard (numberOf name first.start)
    | .anchor _ | .tag .. => do
      let (anchor,tag) ← properties
      let l ← peek
      if let some name := anchor then target name (content tag l.token) first.start
    | _ => skip
    anchorsBehind n
where
  content (tag : Option Octets) : Token → Content
    | .scalar value style => .scalar ⟨value,style,tag⟩
    | .blockEntry | .flowSequenceStart | .blockSequenceStart => .sequence tag
    | .flowMappingStart | .blockMappingStart => .mapping tag
    | _ => .scalar ⟨"",.plain,tag⟩

private def endsBlockEntry : Token → Bool
  | .key | .value | .blockEnd => true
  | _ => false

private def endsFlowEntry : Token → Bool
  | .flowEntry | .flowMappingEnd => true
  | _ => false

-- The node behind a `?` or a `:`, which may be missing.
private def blockPart : Reading Bool := do
  let l ← peek
  skip
  if endsBlockEntry (← peek).token then
    pushEmpty l.stop
    return true
  node true true

private def flowPart (ends : Token → Bool) : Reading Bool := do
  skip
  let l ← peek
  if ends l.token then
    pushEmpty l.start
    return true
  node false false

-- The entries up to the end of the mapping or to the first collection in it; the answer tells whether it is whole.
def blockEntries (start : Mark) : (bound : Nat) → Reading Bool
  | 0 => return true
  | n + 1 => do
    let l ← peek
    match l.token with
    | .key =>
      if !(← blockPart) then return false
      let l ← peek
      let whole ← if l.token = .value then blockPart else do pushEmpty l.start; pure true
      if whole then blockEntries start n else return false
    | .blockEnd => skip; return true
    | _ => throw { problem := .key, place := l.start, during := some (.blockMapping,start) }

private def flowValue : Reading Bool := do
  let l ← peek
  if l.token = .value then flowPart endsFlowEntry
  else
    pushEmpty l.start
    return true

def flowEntries (start : Mark) (first : Bool) : (bound : Nat) → Reading Bool
  | 0 => return true
  | n + 1 => do
    let l ← peek
    if l.token = .flowMappingEnd then skip; return true
    else
      if !first then
        if l.token = .flowEntry then skip
        else throw { problem := .flowMappingEnd, place := l.start, during := some (.flowMapping,start) }
      let l ← peek
      match l.token with
      | .flowMappingEnd => skip; return true
      | .key =>
        if !(← flowPart fun t => t = .value || endsFlowEntry t) then return false
        if ← flowValue then flowEntries start false n else return false
      | _ =>
        if !(← node false false) then return false
        pushEmpty (← peek).start
        flowEntries start false n

-- The directives in front of a document. `version` tells whether one gave a version.
def directives (version : Bool) : (bound : Nat) → Reading Unit
  | 0 => pure ()
  | n + 1 => do
    let l ← peek
    match l.token with
    | .versionDirective major minor =>
      if version then throw { problem := .versionTwice, place := l.start }
      if major ≠ 1 || (minor ≠ 1 && minor ≠ 2) then throw { problem := .version, place := l.start }
      skip
      directives true n
    | .tagDirective handle uri =>
      if ((← get).tagPrefixes.lookup handle).isSome then throw { problem := .tagTwice, place := l.start }
      modify fun p => { p with tagPrefixes := p.tagPrefixes ++ [(handle,uri)] }
      skip
      directives version n
    | _ => pure ()

private def isExplicitStart : Token → Bool
  | .versionDirective .. | .tagDirective .. | .documentStart => true
  | _ => false

private def isEmptyContent (t : Token) : Bool := isExplicitStart t || t = .documentEnd || t = .streamEnd

-- Tags with the handles `!` and `!!` need no directive.
private def addTagPrefixes : Reading Unit :=
  modify fun p =>
    let known := [("!",.ofText "!"), ("!!",.ofText "tag:yaml.org,2002:")].filter fun e => (p.tagPrefixes.lookup e.1).isNone
    { p with tagPrefixes := p.tagPrefixes ++ known }

private def root : Reading Bool := do
  let l ← peek
  if isExplicitStart l.token then
    directives false (← get).rest.length
    addTagPrefixes
    let l ← peek
    if l.token ≠ .documentStart then throw { problem := .documentStart, place := l.start }
    skip
    let l ← peek
    if isEmptyContent l.token then
      pushEmpty l.start
      return true
  else addTagPrefixes
  node true false

def document : Reading Unit := do
  if (← peek).token = .streamEnd then return
  if !(← root) then
    let l ← peek
    let bound := (← get).rest.length
    let whole ← match l.token with
      | .blockMappingStart => do skip; blockEntries l.start bound
      | .flowMappingStart => do skip; flowEntries l.start true bound
      | _ => return
    if !whole then
      anchorsBehind bound
      return
  if (← peek).token = .documentEnd then skip

end Reading

private def Pending.resolve (targets : List (Nat × Content × Mark)) : Pending → Option Item
  | node content m => some ⟨content,m,none⟩
  | reference number m => (targets.lookup number).map fun (content,start) => ⟨content,start,some m⟩

def Document.ofText (text : List Char) : Document :=
  let (lexemes,lexical) := Lexeme.ofText text
  let (outcome,p) := (Reading.document.run).run { rest := lexemes, lexical := lexical }
  let items := p.pending.filterMap (Pending.resolve p.targets)
  { root := items.head?
    entries := items.tail
    fault := match outcome with | .error fault => some fault | .ok () => none
    followed := (p.rest.dropWhile fun l => l.token = .documentEnd).head?.all fun l => l.token ≠ .streamEnd }

end JoinTree.Yaml
