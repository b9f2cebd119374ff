import JoinTree.Clause.Hint
import JoinTree.Text.LineIndex

/-!
Words such as `ANY` or `PASTE` that stand in front of a JOIN and that the grammar would take for an alias. They are
taken out of the text and kept per join, under the place where the right relation of the join begins. What is put in
their place has the same length, so every other token stays where it was.
-/

namespace JoinTree

open Sql

inductive JoinWord where
  | locality | all | any | asof | paste | kind | modifier | global
  deriving DecidableEq, Repr

-- The part that a token plays in front of JOIN. A quoted word plays none.
def JoinWord.ofToken? : Token → Option JoinWord
  | .word _ (some _) _ => none
  | .word value none keyword =>
    match keyword with
    | some .GLOBAL => some .global | some .LOCAL => some .locality | some .ALL => some .all | some .ANY => some .any
    | some .ASOF => some .asof
    | some .INNER | some .LEFT | some .RIGHT | some .FULL | some .CROSS => some .kind
    | some .OUTER | some .SEMI | some .ANTI | some .NATURAL => some .modifier
    | _ => if Text.upperAscii value = "PASTE" then some .paste else none
  | _ => none

def isKeyword (k : Keyword) (t : Token) : Bool := t.keyword? = some k

-- Where the right relation begins: its first word behind opening parentheses.
def rightStart? (after : List Lexeme) : Option Location :=
  match after.find? fun l => l.token ≠ .symbol .lparen with
  | some ⟨.word .., start, _, _⟩ => some start
  | _ => none

-- Whether a MATCH_CONDITION belongs to the join, which ends at the next JOIN or at the parenthesis around it.
def hasMatchCondition : (depth : Nat) → List Lexeme → Bool
  | _, [] => false
  | depth, l :: rest =>
    match l.token, depth with
    | .symbol .lparen, depth => hasMatchCondition (depth + 1) rest
    | .symbol .rparen, 0 => false
    | .symbol .rparen, depth + 1 => hasMatchCondition depth rest
    | t, 0 => if isKeyword .JOIN t then false else if isKeyword .MATCH_CONDITION t then true else hasMatchCondition 0 rest
    | _, depth => hasMatchCondition depth rest

-- The place of a word to take out, and what to put there instead of blanks.
structure Edit where
  start : Location
  stop : Location
  replacement : Option String := none
  deriving DecidableEq, Repr

-- What the words in front of one JOIN come to.
structure ClauseWords where
  hint : JoinHint := {}
  edits : List Edit := []
  asof : Option Lexeme := none
  hasKind : Bool := false

namespace ClauseWords

def blank (l : Lexeme) : Edit := ⟨l.start, l.stop, none⟩

def add (w : ClauseWords) (l : Lexeme) : Except JoinFault ClauseWords :=
  match JoinWord.ofToken? l.token with
  | some .locality => .ok { w with hint := { w.hint with locality := some .perShard }, edits := w.edits ++ [blank l] }
  | some .all => do return { w with hint := ← w.hint.withStrictness .all, edits := w.edits ++ [blank l] }
  | some .any => do return { w with hint := ← w.hint.withStrictness .any, edits := w.edits ++ [blank l] }
  | some .asof => .ok { w with asof := some l }
  | some .paste =>
    .ok { w with hint := { w.hint with paste := true }, edits := w.edits ++ [⟨l.start, l.stop, some "CROSS"⟩] }
  | some .kind => .ok { w with hasKind := true }
  | some .global | some .modifier | none => .ok w

-- `ASOF JOIN t MATCH_CONDITION (...)` is a form of the grammar, any other ASOF is taken out.
def closed (w : ClauseWords) (after : List Lexeme) : Except JoinFault ClauseWords :=
  match w.asof with
  | some l =>
    if w.hasKind || !hasMatchCondition 0 after then do
      return { w with hint := ← w.hint.withStrictness .asof, edits := w.edits ++ [blank l] }
    else .ok w
  | none => .ok w

def ofRun (run after : List Lexeme) : Except JoinFault ClauseWords := do
  (← run.foldlM add {}).closed after

end ClauseWords

-- A hint with the key it is kept under and the edits that take its words out.
structure Recorded where
  key : Location
  hint : JoinHint
  edits : List Edit

-- What one JOIN gives, behind a run of join words. Without a word to begin with, the right relation has no key.
def recordedAt (run after : List Lexeme) : Except JoinFault (Option Recorded) := do
  let w ← ClauseWords.ofRun run after
  if w.hint.isEmpty then return none
  return (rightStart? after).map fun key => ⟨key, w.hint, w.edits⟩

-- One result for each JOIN of a text, in its order. `run` holds the join words right in front.
def recordings (run : List Lexeme) : List Lexeme → List (Except JoinFault (Option Recorded))
  | [] => []
  | l :: rest =>
    if isKeyword .JOIN l.token then recordedAt run rest :: recordings [] rest
    else if (JoinWord.ofToken? l.token).isSome then recordings (run ++ [l]) rest
    else recordings [] rest

-- The words taken out of a text, by the place where the right relation of their join begins.
abbrev JoinHints := List (Location × JoinHint)

namespace JoinHints

def insert (hs : JoinHints) (key : Location) (h : JoinHint) : JoinHints := hs.filter (·.1 ≠ key) ++ [(key, h)]

-- The words taken out of the clause of a join.
def ofJoin? (hs : JoinHints) (j : Join) : Option JoinHint := do
  let start ← j.right.start?
  hs.lookup start

end JoinHints

-- A text that the grammar can read, and the words taken out of it.
structure PreparedText where
  sql : List Char
  hints : JoinHints := []

namespace PreparedText

def applyEdit (x : LineIndex) (text : List Char) (e : Edit) : Except Sql.Error (List Char) :=
  match x.range? e.start e.stop with
  | none => .error (.wordOutsideText e.start)
  | some (start, stop) =>
    let filler := match e.replacement with
      | some r => if r.utf8ByteSize = stop - start then r.toList else List.replicate (stop - start) ' '
      | none => List.replicate (stop - start) ' '
    .ok (Text.replaceBytes text start stop filler)

def ofRecorded (sql : List Char) (found : List Recorded) : Except Sql.Error PreparedText := do
  let text ← (found.flatMap (·.edits)).foldlM (applyEdit (.ofText sql)) sql
  return ⟨text, found.foldl (fun hs r => hs.insert r.key r.hint) []⟩

def lexemes (d : Dialect) (sql : List Char) : List Lexeme := (Token.scan d sql).toOption.getD []

-- A text that has no tokens is left to the grammar to refuse.
def ofText (d : Dialect) (sql : List Char) : Except Sql.Error PreparedText := do
  let found ← ((recordings [] (lexemes d sql)).mapM id).mapError .unsupportedJoin
  ofRecorded sql (found.filterMap id)

-- The hints of a text up to the first conflict.
def noted (d : Dialect) (sql : List Char) : List Recorded :=
  ((recordings [] (lexemes d sql)).takeWhile fun r => r.toBool).filterMap fun r => r.toOption.bind id

end PreparedText

end JoinTree
