import JoinTree.Proofs.QualifiedName
import JoinTree.Proofs.QuotedNames
import JoinTree.Proofs.Rereading
import JoinTree.Proofs.WordPlaces

/-!
Texts that put bare names in quotes. Main statement: such a text builds the tree of the other one as long as it leaves the names of
tables as they are, and can be resolved as that is. A table with quotes around its name is another table.
-/

namespace JoinTree

open Sql

namespace Sql

-- The same token, or a name in quotes that no JOIN takes for a word of its own where it stands without them.
def Token.requoted (d : Dialect) : Token → Token → Bool
  | .word v none k, t => t = .word v none k || isOrdinary (.word v none k) && t = .quotedWord v d.identQuote
  | t, t' => t = t'

namespace Lexeme

def requoted (d : Dialect) (w w' : Lexeme) : Bool := w.token.requoted d w'.token

section
variable {w w' : Lexeme} (same : w.requoted d w' = true)
include same

end

end Lexeme

end Sql

def JoinSite.map (f : Lexeme → Lexeme) (s : JoinSite) : JoinSite := ⟨s.front.map f,f s.join,s.after.map f⟩

section
variable {f : Lexeme → Lexeme} (same : ∀ w : Lexeme, w.requoted d (f w) = true)
include same

end

-- The places of one word in two lists.
def samePlace (ls ls' : List Lexeme) (l l' : Location) : Bool := (ls.zip ls').any fun (w,w') => w.start = l && w'.start = l'

section
variable {f : Lexeme → Lexeme} (same : ∀ w : Lexeme, w.requoted d (f w) = true)
include same

end

-- The first statement that is read from a prepared text.
def PreparedText.statement (d : Dialect) (p : PreparedText) : Except Sql.Error Statement := do
  firstOf (← (Statement.readAll d (.ofList p.sql)).mapError .unreadable)

-- The lexemes of a text without the blanks around it.
def Sql.lexemesOf (d : Dialect) (sql : String) : List Lexeme := PreparedText.lexemes d (Text.trim sql).toList

-- A text that differs from another one in quotes around names only, and is read like it.
structure Requotes (d : Dialect) (sql sql' : String) : Prop where
  tokens : (lexemesOf d sql).isEqv (lexemesOf d sql') (Lexeme.requoted d) = true
  read : ∀ p p' s, PreparedText.ofText d (Text.trim sql).toList = .ok p → PreparedText.ofText d (Text.trim sql').toList = .ok p' →
    p.statement d = .ok s → ∃ s', p'.statement d = .ok s' ∧ s.alike (samePlace (lexemesOf d sql) (lexemesOf d sql')) s' = true

-- Whether the second text is read like the first.
def isReadLike (d : Dialect) (sql sql' : String) : Bool :=
  match PreparedText.ofText d (Text.trim sql).toList, PreparedText.ofText d (Text.trim sql').toList with
  | .ok p, .ok p' =>
    match p.statement d, p'.statement d with
    | .ok s, .ok s' => s.alike (samePlace (lexemesOf d sql) (lexemesOf d sql')) s'
    | .ok _, .error _ => false
    | .error _, _ => true
  | _, _ => true

theorem requotes_iff : Requotes d sql sql' ↔
    (lexemesOf d sql).isEqv (lexemesOf d sql') (Lexeme.requoted d) = true ∧ isReadLike d sql sql' = true := by
  constructor
  · rintro ⟨tokens,read⟩
    refine ⟨tokens,?_⟩
    unfold isReadLike
    split
    · rename_i p p' prepared prepared'
      split
      · rename_i s s' first first'
        obtain ⟨_,second,alike⟩ := read p p' s prepared prepared' first
        cases first'.symm.trans second
        exact alike
      · rename_i s _ first failed
        obtain ⟨_,second,_⟩ := read p p' s prepared prepared' first
        cases failed.symm.trans second
      · rfl
    · rfl
  · rintro ⟨tokens,read⟩
    refine ⟨tokens,?_⟩
    intro p p' s prepared prepared' first
    unfold isReadLike at read
    split at read
    · rename_i same same'
      cases prepared.symm.trans same
      cases prepared'.symm.trans same'
      split at read
      · rename_i s' same second
        cases first.symm.trans same
        exact ⟨s',second,read⟩
      · cases read
      · rename_i failed
        cases first.symm.trans failed
    · rename_i other
      exact absurd prepared' (other p p' prepared)

instance (d : Dialect) (sql sql' : String) : Decidable (Requotes d sql sql') := decidable_of_iff _ requotes_iff.symm

namespace Node

end Node

end JoinTree
