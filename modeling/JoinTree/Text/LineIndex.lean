import JoinTree.Sql.Token

/-!
From places, which count lines and characters, to byte offsets.
-/

namespace JoinTree

open Sql

namespace Text

def byteLength : List Char → Nat
  | [] => 0
  | c :: cs => c.utf8Size + byteLength cs

-- The lines of a text, each with the newline that ends it. The last line has none.
def lines : List Char → List (List Char)
  | [] => [[]]
  | c :: cs =>
    if c = '\n' then [c] :: lines cs
    else match lines cs with
      | [] => [[c]]
      | l :: ls => (c :: l) :: ls

-- The characters in front of a byte offset.
def takeBytes : Nat → List Char → List Char
  | _, [] => []
  | n, c :: cs => if c.utf8Size ≤ n then c :: takeBytes (n - c.utf8Size) cs else []

-- The characters from a byte offset on.
def dropBytes : Nat → List Char → List Char
  | _, [] => []
  | n, c :: cs => if c.utf8Size ≤ n then dropBytes (n - c.utf8Size) cs else c :: cs

def replaceBytes (cs : List Char) (start stop : Nat) (replacement : List Char) : List Char :=
  takeBytes start cs ++ replacement ++ dropBytes stop cs

end Text

structure LineIndex where
  lines : List (List Char)

namespace LineIndex

def ofText (cs : List Char) : LineIndex := ⟨Text.lines cs⟩

-- The byte offset of a place. The place behind the last character of a line is one.
def offset? (x : LineIndex) (l : Location) : Option Nat :=
  match l.line, l.column with
  | n + 1, k + 1 =>
    match x.lines[n]? with
    | some line =>
      if k ≤ line.length then some (Text.byteLength (x.lines.take n).flatten + Text.byteLength (line.take k)) else none
    | none => none
  | _, _ => none

def range? (x : LineIndex) (start stop : Location) : Option (Nat × Nat) :=
  match x.offset? start, x.offset? stop with
  | some a, some b => if a ≤ b then some (a, b) else none
  | _, _ => none

end LineIndex

end JoinTree
