import JoinTree.Sql.Token

namespace JoinTree.Sql

-- The inside of a quoted text. A quote is written twice unless it is doubled already or a backslash stands
-- before it: the text may have been escaped either way.
def writeQuoted (quote : Char) : (before : Char) → List Char → List Char
  | _, [] => []
  | before, c :: cs =>
    if c = quote then
      if before = '\\' then c :: writeQuoted quote before cs
      else match cs with
        | [] => [c, c]
        | c' :: cs' => if c' = quote then c :: c' :: writeQuoted quote c cs' else c :: c :: writeQuoted quote c (c' :: cs')
    else c :: writeQuoted quote c cs

def quotedText (quote : Char) (s : String) : String :=
  .ofList (quote :: writeQuoted quote '\x00' s.toList ++ [quote])

structure Ident where
  value : String
  quote : Option Char := none
  deriving DecidableEq, Repr, Inhabited

namespace Ident

def text (i : Ident) : String :=
  match i.quote with
  | none => i.value
  | some q => quotedText q i.value

end Ident

-- Part of a dotted name: an identifier, or a function that generates one.
inductive NamePart where
  | ident (i : Ident)
  | generated (text : String)
  deriving DecidableEq, Repr

def NamePart.text : NamePart → String
  | ident i => i.text
  | generated s => s

structure ObjectName where
  parts : List NamePart
  deriving DecidableEq, Repr

namespace ObjectName

def ofIdents (is : List Ident) : ObjectName := ⟨is.map .ident⟩

def text (n : ObjectName) : String := ".".intercalate (n.parts.map NamePart.text)

end ObjectName

end JoinTree.Sql
