import JoinTree.Proofs.NamedText
import JoinTree.Proofs.Unambiguous

/-!
FROM clauses as they are written: tables by their dotted names, each with the joins behind it. Main statement: the tree of
such a clause has the text of its words, and the text is read as these words.
-/

namespace JoinTree

open Sql

-- A word that is never taken out in front of a JOIN.
def Sql.Token.IsIdle (t : Token) : Prop := JoinWord.ofToken? t ∉ [some .locality,some .all,some .any,some .asof,some .paste]

instance (t : Token) : Decidable t.IsIdle := inferInstanceAs (Decidable (¬ _))

theorem Sql.Token.idle_paste {t : Token} (idle : t.IsIdle) : JoinWord.ofToken? t ≠ some .paste :=
  fun same => idle (by simp [same])

namespace Sql.Ident

def token (i : Ident) : Token :=
  match i.quote with
  | none => .ofWord i.value
  | some q => .quotedWord i.value q

-- No quote in it stands behind another one or behind a backslash, so that each of them is written twice.
def QuotesApart (q : Char) (cs : List Char) : Prop := cs.IsChain fun a b => b = q → a ≠ q ∧ a ≠ '\\'

-- A name that is read back as itself: a bare word that stays in front of a JOIN, or a name between quotes.
def IsWritable (d : Dialect) (i : Ident) : Prop :=
  (match i.quote with
    | none => d.isBareName i.value.toList = true
    | some q => (q = '"' ∨ q = '\x60') ∧ QuotesApart q i.value.toList) ∧ i.token.IsIdle

instance (q : Char) (cs : List Char) : Decidable (QuotesApart q cs) := inferInstanceAs (Decidable (List.IsChain _ _))

instance (d : Dialect) : (i : Ident) → Decidable (i.IsWritable d)
  | ⟨_,none⟩ => inferInstanceAs (Decidable (_ ∧ _))
  | ⟨_,some _⟩ => inferInstanceAs (Decidable (_ ∧ _))

theorem writeQuoted_doubled (apart : QuotesApart q cs) (start : cs.head? = some q → before ≠ '\\') :
    writeQuoted q before cs = Token.doubled q cs := by
  induction cs generalizing before with
  | nil => simp [writeQuoted,Token.doubled]
  | cons c cs ih =>
    have later : QuotesApart q cs ∧ (cs.head? = some q → c ≠ q ∧ c ≠ '\\') := by
      cases cs with
      | nil => exact ⟨.nil,fun same => by cases same⟩
      | cons c' cs =>
        obtain ⟨here,apart⟩ := List.isChain_cons_cons.mp apart
        exact ⟨apart,fun same => here (Option.some.inj same)⟩
    have rest := ih later.1 fun same => (later.2 same).2
    rw [Token.doubled,List.flatMap_cons,← Token.doubled,← rest,writeQuoted.eq_def]
    by_cases same : c = q
    · have first : before ≠ '\\' := start (by rw [same]; rfl)
      cases cs with
      | nil => simp [same,first,writeQuoted]
      | cons c' cs =>
        have other : c' ≠ q := fun equal => (later.2 (by rw [equal]; rfl)).1 same
        simp [same,first,other]
    · simp [same]

theorem text_quoted (apart : QuotesApart q v.toList) : (⟨v,some q⟩ : Ident).text = .ofList (q :: (Token.doubled q v.toList ++ [q])) := by
  simp only [text,quotedText]
  rw [writeQuoted_doubled apart fun _ => by decide]
  rfl

theorem token_word (i : Ident) : ∃ k, i.token = .word i.value i.quote k := by
  obtain ⟨v,quote⟩ := i
  cases quote with
  | none => exact ⟨_,rfl⟩
  | some q => exact ⟨_,rfl⟩

section
variable {i : Ident} {d : Dialect} (writable : i.IsWritable d)
include writable

theorem text_read : (Piece.word i.text).read = i.token := by
  obtain ⟨v,quote⟩ := i
  cases quote with
  | none => exact Piece.read_bare writable.1
  | some q =>
    rw [text_quoted writable.1.2,Piece.read_quoted writable.1.1,String.ofList_toList]
    rfl

theorem text_name : d.isBareName i.text.toList = true ∨ Piece.IsQuoted i.text.toList := by
  obtain ⟨v,quote⟩ := i
  cases quote with
  | none => exact .inl writable.1
  | some q => exact .inr ⟨q,v.toList,by rw [text_quoted writable.1.2,String.toList_ofList],writable.1.1⟩

end

end Sql.Ident

-- Words with which no other table expression, no query and no change of rows starts, and which no dialect takes for the
-- end of a FROM list.
def Sql.Keyword.startsTable (k : Keyword) : Bool := k.isTableOpener && !([Keyword.LATERAL,.LIMIT,.MERGE,.UNNEST,.VALUE].contains k)

def Sql.Token.StartsTable (t : Token) : Prop := t.keyword?.all Keyword.startsTable = true

instance (t : Token) : Decidable t.StartsTable := inferInstanceAs (Decidable (_ = true))

-- A table with the joins behind it.
mutual
inductive Chain where
  | mk (name : List Ident) (asName : Option String) (links : Links)
inductive Links where
  | nil
  | cons (kind : JoinKind) (columns : List String) (right : Chain) (rest : Links)
end

-- Pieces of the text, and what they are read as.

namespace Sql.Piece

def namePieces (is : List Ident) : List Piece := (is.map fun i => .word i.text).intersperse (.symbol .period)

def aliasPieces : Option String → List Piece
  | none => []
  | some a => [.space,.word "AS",.space,.word a]

def usingPieces (columns : List String) : List Piece := if columns = [] then [] else JoinSpec.columnsTail columns

end Sql.Piece

namespace Sql.Token

def nameTokens (is : List Ident) : List Token := (is.map Ident.token).intersperse (.symbol .period)

def aliasTokens : Option String → List Token
  | none => []
  | some a => [.word "AS" none (some .AS),Ident.token ⟨a,none⟩]

def listedTokens (columns : List String) : List Token := (columns.map fun v => Ident.token ⟨v,none⟩).intersperse (.symbol .comma)

def usingTokens (columns : List String) : List Token :=
  if columns = [] then []
  else [.word "USING" none (some .USING),.symbol .lparen] ++ listedTokens columns ++ [.symbol .rparen]

def framed (frame : Bool) (ts : List Token) : List Token := if frame then .symbol .lparen :: (ts ++ [.symbol .rparen]) else ts

end Sql.Token

open JoinSpec (keptParts)
open Sql.Piece (namePieces aliasPieces usingPieces)
open Sql.Token (nameTokens aliasTokens usingTokens)

def framedParts (frame : Bool) (ps : List Part) : List Part :=
  if frame then keptParts [.symbol .lparen] ++ ps ++ keptParts [.symbol .rparen] else ps

namespace JoinKind

-- The words in front of the right table.
def linkWords (kind : JoinKind) : List Word := ({ kind } : JoinSpec).words false ++ [⟨"JOIN",some .JOIN,.kept⟩]
def linkParts (kind : JoinKind) : List Part := keptParts [.space] ++ Word.parts kind.linkWords
def linkTokens (kind : JoinKind) : List Token := kind.linkWords.map Word.token

end JoinKind

def Links.isEmpty : Links → Bool
  | nil => true
  | cons .. => false

def Chain.isJoined : Chain → Bool
  | mk _ _ links => !links.isEmpty

mutual
def Chain.parts : Chain → List Part
  | .mk name asName links => keptParts (namePieces name ++ aliasPieces asName) ++ links.parts
def Links.parts : Links → List Part
  | .nil => []
  | .cons kind columns right rest =>
    kind.linkParts ++ framedParts right.isJoined right.parts ++ keptParts (usingPieces columns) ++ rest.parts
end

mutual
def Chain.tokens : Chain → List Token
  | .mk name asName links => nameTokens name ++ aliasTokens asName ++ links.tokens
def Links.tokens : Links → List Token
  | .nil => []
  | .cons kind columns right rest =>
    kind.linkTokens ++ Token.framed right.isJoined right.tokens ++ usingTokens columns ++ rest.tokens
end

mutual
def Chain.node : Chain → Node
  | .mk name asName links => links.behind (.table (ObjectName.ofIdents name).text asName)
-- The tree of the joins behind a tree.
def Links.behind : Links → Node → Node
  | .nil, l => l
  | .cons kind columns right rest, l => rest.behind (.join { kind } l right.node (Node.usingOf columns))
end

-- Names that are read back, which nothing but a table starts with, and a USING list exactly where one is asked for.
mutual
def Chain.Fits (d : Dialect) : Chain → Prop
  | .mk name asName links => (∃ i is, name = i :: is ∧ i.token.StartsTable) ∧ (∀ i ∈ name, i.IsWritable d) ∧
    (∀ a, asName = some a → Ident.IsWritable d ⟨a,none⟩) ∧ links.Fits d
def Links.Fits (d : Dialect) : Links → Prop
  | .nil => True
  | .cons kind columns right rest => kind ≠ .comma ∧ (kind.isUnconditional = true ↔ columns = []) ∧
    (∀ v ∈ columns, Ident.IsWritable d ⟨v,none⟩) ∧ right.Fits d ∧ rest.Fits d
end

-- Tables with commas between them.
structure Listing where
  first : Chain
  others : List Chain

namespace Listing

def node (s : Listing) : Node := s.others.foldl (fun l c => .join { kind := .comma } l c.node none) s.first.node

def othersParts (cs : List Chain) : List Part :=
  cs.flatMap fun c => keptParts [.symbol .comma,.space] ++ framedParts c.isJoined c.parts

def othersTokens (cs : List Chain) : List Token := cs.flatMap fun c => .symbol .comma :: Token.framed c.isJoined c.tokens

def parts (s : Listing) : List Part := s.first.parts ++ othersParts s.others
def tokens (s : Listing) : List Token := s.first.tokens ++ othersTokens s.others

def Fits (d : Dialect) (s : Listing) : Prop := s.first.Fits d ∧ ∀ c ∈ s.others, c.Fits d

end Listing

-- The text of a tree.

namespace Part

theorem before_append (a b : List Part) : before (a ++ b) = before a ++ before b := List.map_append

theorem framed_text (frame : Bool) (ps : List Part) (s : String) (shown : s.toList = Piece.text (before ps)) :
    (Surface.framed frame s).toList = Piece.text (before (framedParts frame ps)) := by
  cases frame with
  | false => exact shown
  | true => simp [Surface.framed,framedParts,before_append,JoinSpec.kept_before,shown,Piece.text,Piece.chars,Symbol.text]

end Part

theorem Sql.Piece.name_pieces (is : List Ident) : (ObjectName.ofIdents is).text.toList = Piece.text (namePieces is) := by
  induction is with
  | nil => rfl
  | cons i is ih =>
    cases is with
    | nil => simp [ObjectName.text,ObjectName.ofIdents,NamePart.text,namePieces,text,chars]
    | cons j is =>
      simp only [ObjectName.text,ObjectName.ofIdents,List.map_cons,String.intercalate_cons_cons,String.toList_append] at ih ⊢
      rw [ih]
      simp [namePieces,text,chars,NamePart.text,Symbol.text]

-- What a join without conditions looks like.
theorem JoinSpec.plain_admitted {kind : JoinKind} (other : kind ≠ .comma) : ({ kind } : JoinSpec).Admitted false := by
  refine ⟨other,?_,?_,?_⟩ <;> intro never <;> cases never

theorem link_shown (kind : JoinKind) (columns : List String) (other : kind ≠ .comma) :
    ∃ c, Node.clauseOf { kind } (Node.usingOf columns) = .ok c ∧ c.kind = kind ∧
      (" " ++ c.keywords ++ " ").toList = Piece.text (Part.before kind.linkParts) ∧
      c.constraint.toList = Piece.text (usingPieces columns) := by
  have given : ∃ c, Node.clauseOf { kind } (Node.usingOf columns) = .ok c := by
    unfold Node.usingOf
    split
    · exact ⟨_,rfl⟩
    · simp only [Node.clauseOf,Node.usingNames]
      exact ⟨_,rfl⟩
  obtain ⟨c,given⟩ := given
  have clause := Node.clauseOf_using _ _ given
  refine ⟨c,given,by rw [clause]; rfl,?_,?_⟩
  · have admitted : ({ kind } : JoinSpec).Admitted false := JoinSpec.plain_admitted other
    have keywords := JoinSpec.keywords_text admitted none (if columns = [] then none else some (columns.map fun v => ⟨v,none⟩))
    rw [← clause] at keywords
    have words (ws : List Word) (w : Word) : Part.before (Word.parts (ws ++ [w])) =
        Part.before (Word.parts ws) ++ [.word w.text,.space] := by
      simp [Word.parts,Part.before,Word.part]
    rw [String.toList_append,String.toList_append,keywords,JoinKind.linkParts,JoinKind.linkWords,Part.before_append,words]
    simp [JoinSpec.kept_before,Piece.text,Piece.chars]
  · rw [clause,usingPieces]
    split
    · rfl
    · exact JoinSpec.columns_written { kind } columns

mutual
theorem Chain.surface_node (c : Chain) (fits : c.Fits d) : ∃ f, c.node.surface = .ok f ∧ f.isListed = false ∧
    f.isJoined = c.isJoined ∧ f.text.toList = Piece.text (Part.before c.parts) := by
  obtain ⟨name,asName,links⟩ := c
  have table : (Surface.table (ObjectName.ofIdents name).text asName).text.toList =
      Piece.text (Part.before (keptParts (namePieces name ++ aliasPieces asName))) := by
    rw [JoinSpec.kept_before,Part.text_append,← Piece.name_pieces]
    cases asName <;> simp [Surface.text,aliasPieces,Piece.text,Piece.chars,toString]
  obtain ⟨f,shown,listed,joined,text⟩ := links.surface_behind fits.2.2.2 (n := .table (ObjectName.ofIdents name).text asName) rfl rfl
  refine ⟨f,shown,listed,joined,?_⟩
  rw [text,table,Chain.parts,Part.before_append,Part.text_append]
theorem Links.surface_behind (ls : Links) (fits : ls.Fits d) (shown : n.surface = .ok f) (unlisted : f.isListed = false) :
    ∃ g, (ls.behind n).surface = .ok g ∧ g.isListed = false ∧ g.isJoined = (f.isJoined || !ls.isEmpty) ∧
      g.text.toList = f.text.toList ++ Piece.text (Part.before ls.parts) := by
  cases ls with
  | nil => exact ⟨f,shown,unlisted,by simp [Links.isEmpty],by simp [Links.parts,Part.before,Piece.text]⟩
  | cons kind columns right rest =>
    obtain ⟨other,_,_,within,later⟩ := fits
    obtain ⟨g,shown',_,joined',operand⟩ := right.surface_node within
    obtain ⟨c,given,same,words,constraint⟩ := link_shown kind columns other
    have here : (Node.join { kind } n right.node (Node.usingOf columns)).surface = .ok (.join f c g) := by
      rw [Node.surface,shown,given,shown']
      rfl
    have comma : (Surface.join f c g).isListed = false := by simp [Surface.isListed,same,other]
    obtain ⟨h,whole,listed,joined,text⟩ := rest.surface_behind later here comma
    have more : h.isJoined = (f.isJoined || !(Links.cons kind columns right rest).isEmpty) := by
      rw [joined]
      cases f.isJoined <;> rfl
    have framed := Part.framed_text right.isJoined right.parts g.text operand
    have front : Surface.framed f.isListed f.text = f.text := by rw [unlisted]; rfl
    refine ⟨h,whole,listed,more,?_⟩
    rw [text,Surface.text_join,if_neg (same ▸ other),front,joined',Links.parts]
    simp only [Part.before_append,Part.text_append,JoinSpec.kept_before,← words,← framed,← constraint,String.toList_append,
      List.append_assoc]
end

namespace Listing

theorem surface_others {n : Node} {f : Surface} (cs : List Chain) (fits : ∀ c ∈ cs, Chain.Fits d c) (shown : n.surface = .ok f) :
    ∃ g, (cs.foldl (fun l c => .join { kind := .comma } l c.node none) n).surface = .ok g ∧
      g.text.toList = f.text.toList ++ Piece.text (Part.before (othersParts cs)) := by
  induction cs generalizing n f with
  | nil => exact ⟨f,shown,by simp [othersParts,Part.before,Piece.text]⟩
  | cons c cs ih =>
    obtain ⟨g,shown',_,joined',operand⟩ := c.surface_node (fits c (by simp))
    have here : (Node.join { kind := .comma } n c.node none).surface = .ok (.join f { kind := .comma } g) := by
      rw [Node.surface,shown,shown']
      rfl
    obtain ⟨h,whole,text⟩ := ih (fun c' member => fits c' (by simp [member])) here
    have framed := Part.framed_text c.isJoined c.parts g.text operand
    have comma : ", ".toList = Piece.text [.symbol .comma,.space] := rfl
    have others : othersParts (c :: cs) =
        keptParts [.symbol .comma,.space] ++ framedParts c.isJoined c.parts ++ othersParts cs := rfl
    refine ⟨h,whole,?_⟩
    rw [text,Surface.text_join,if_pos rfl,joined',others]
    simp only [Part.before_append,Part.text_append,JoinSpec.kept_before,← framed,← comma,String.toList_append,List.append_assoc]

-- The text of a FROM clause is that of its parts.
theorem surface_node (s : Listing) (fits : s.Fits d) : ∃ f, s.node.surface = .ok f ∧ f.text.toList = Piece.text (Part.before s.parts) := by
  obtain ⟨f,shown,_,_,text⟩ := s.first.surface_node fits.1
  obtain ⟨g,whole,later⟩ := surface_others s.others fits.2 shown
  exact ⟨g,whole,by rw [later,text,parts,Part.before_append,Part.text_append]⟩

end Listing

-- The words of a text.

namespace Sql.Piece

theorem name_reads (writable : ∀ i ∈ is, Ident.IsWritable d i) : reads (namePieces is) = nameTokens is := by
  induction is with
  | nil => rfl
  | cons i is ih =>
    have here := Ident.text_read (writable i (by simp))
    cases is with
    | nil => simp [namePieces,nameTokens,reads,here]
    | cons j is =>
      have later := ih fun k member => writable k (List.mem_cons_of_mem _ member)
      simp only [namePieces,nameTokens,List.map_cons,List.intersperse_cons_cons] at later ⊢
      rw [reads_word,reads_symbol,here,later]

theorem columns_reads (writable : ∀ v ∈ vs, Ident.IsWritable d ⟨v,none⟩) : reads (columnPieces vs) = Token.listedTokens vs := by
  induction vs with
  | nil => rfl
  | cons v vs ih =>
    have here : read (.word v) = _ := Ident.text_read (writable v (by simp))
    cases vs with
    | nil => simp [columnPieces,Token.listedTokens,reads,here]
    | cons w vs =>
      have later := ih fun k member => writable k (List.mem_cons_of_mem _ member)
      simp only [Token.listedTokens,List.map_cons,List.intersperse_cons_cons] at later ⊢
      rw [columnPieces,reads_word,reads_symbol,reads_space,here,later]

theorem alias_reads (writable : ∀ a, asName = some a → Ident.IsWritable d ⟨a,none⟩) :
    reads (aliasPieces asName) = aliasTokens asName := by
  cases asName with
  | none => rfl
  | some a =>
    have here : read (.word a) = _ := Ident.text_read (writable a rfl)
    have keyword : read (.word "AS") = .word "AS" none (some .AS) := by decide +kernel
    rw [aliasPieces,reads_space,reads_word,reads_space,reads_word,here,keyword]
    rfl

theorem using_reads (writable : ∀ v ∈ columns, Ident.IsWritable d ⟨v,none⟩) :
    reads (usingPieces columns) = usingTokens columns := by
  unfold usingPieces usingTokens
  split
  · rfl
  · have keyword : reads [.space,.word "USING",.space,.symbol .lparen] = [.word "USING" none (some .USING),.symbol .lparen] := by
      decide +kernel
    rw [JoinSpec.columnsTail,reads_append,reads_append,columns_reads writable,keyword]
    rfl

theorem link_reads (kind : JoinKind) : reads (Part.before kind.linkParts) = kind.linkTokens := by
  cases kind <;> decide +kernel

theorem framed_reads (frame : Bool) (ps : List Part) (shown : reads (Part.before ps) = ts) :
    reads (Part.before (framedParts frame ps)) = Token.framed frame ts := by
  cases frame with
  | false => exact shown
  | true =>
    simp only [framedParts,if_true,Part.before_append,JoinSpec.kept_before,reads_append,shown]
    rfl

end Sql.Piece

mutual
theorem Chain.reads_parts (c : Chain) (fits : c.Fits d) : Piece.reads (Part.before c.parts) = c.tokens := by
  obtain ⟨name,asName,links⟩ := c
  obtain ⟨_,names,given,within⟩ := fits
  rw [Chain.parts,Chain.tokens,Part.before_append,JoinSpec.kept_before,Piece.reads_append,Piece.reads_append,
    Piece.name_reads names,Piece.alias_reads given,links.reads_parts within]
theorem Links.reads_parts (ls : Links) (fits : ls.Fits d) : Piece.reads (Part.before ls.parts) = ls.tokens := by
  cases ls with
  | nil => rfl
  | cons kind columns right rest =>
    obtain ⟨_,_,names,within,later⟩ := fits
    have operand := Piece.framed_reads right.isJoined right.parts (right.reads_parts within)
    rw [Links.parts,Links.tokens]
    simp only [Part.before_append,JoinSpec.kept_before,Piece.reads_append,Piece.link_reads,operand,Piece.using_reads names,
      rest.reads_parts later]
end

namespace Listing

theorem reads_parts (s : Listing) (fits : s.Fits d) : Piece.reads (Part.before s.parts) = s.tokens := by
  have others (cs : List Chain) (fits : ∀ c ∈ cs, Chain.Fits d c) :
      Piece.reads (Part.before (othersParts cs)) = othersTokens cs := by
    induction cs with
    | nil => rfl
    | cons c cs ih =>
      have operand := Piece.framed_reads c.isJoined c.parts (c.reads_parts (fits c (by simp)))
      have later := ih fun c' member => fits c' (by simp [member])
      simp only [othersParts,othersTokens,List.flatMap_cons,Part.before_append,JoinSpec.kept_before,Piece.reads_append,
        operand] at later ⊢
      rw [later]
      rfl
  rw [parts,tokens,Part.before_append,Piece.reads_append,s.first.reads_parts fits.1,others s.others fits.2]

end Listing

-- The pieces stand apart.

namespace Sql.Piece

-- What ends a word and begins with no period.
def Breaks (ps : List Piece) : Prop := ∀ p, ps.head? = some p → p = .space ∨ p = .symbol .comma ∨ p = .symbol .rparen

theorem breaks_append (first : Breaks ps) (second : Breaks qs) : Breaks (ps ++ qs) := by
  cases ps with
  | nil => exact second
  | cons p ps => exact first

theorem breaks_space (ps : List Piece) : Breaks (.space :: ps) := fun _ same => .inl (Option.some.inj same).symm

theorem standing_breaks (first : Standing d before ps) (second : Standing d none qs) (breaks : Breaks qs) :
    Standing d before (ps ++ qs) := by
  refine standing_append first second (fun same => ?_) (.inr ?_)
  · rcases breaks _ same with space | comma | closing
    · cases space
    · cases comma
    · cases closing
  · cases head : qs.head? with
    | none => rfl
    | some q => rcases breaks q head with rfl | rfl | rfl <;> rfl

theorem name_head (i : Ident) (is : List Ident) : (namePieces (i :: is)).head? = some (.word i.text) := by
  cases is <;> rfl

theorem name_standing (writable : ∀ i ∈ is, Ident.IsWritable d i) : Standing d before (namePieces is) := by
  induction is generalizing before with
  | nil => trivial
  | cons i is ih =>
    have here := Ident.text_name (writable i (by simp))
    cases is with
    | nil => exact ⟨⟨here,rfl⟩,trivial⟩
    | cons j is =>
      have later : Standing d (some (.symbol .period)) (namePieces (j :: is)) :=
        ih fun k member => writable k (List.mem_cons_of_mem _ member)
      have next : separates (some (.word i.text)) (namePieces (j :: is)).head? .period = true := by
        rw [name_head]
        rfl
      exact ⟨⟨here,rfl⟩,⟨nofun,next⟩,later⟩

theorem alias_standing (writable : ∀ a, asName = some a → Ident.IsWritable d ⟨a,none⟩) :
    Standing d none (aliasPieces asName) ∧ Breaks (aliasPieces asName) := by
  cases asName with
  | none => exact ⟨trivial,nofun⟩
  | some a =>
    have here : d.isBareName a.toList = true := (writable a rfl).1
    have keyword : d.isBareName "AS".toList = true := by cases d <;> decide
    exact ⟨⟨trivial,⟨.inl keyword,rfl⟩,trivial,⟨.inl here,rfl⟩,trivial⟩,breaks_space _⟩

theorem columns_standing (writable : ∀ v ∈ vs, Ident.IsWritable d ⟨v,none⟩) :
    Standing d before (columnPieces vs ++ [.symbol .rparen]) := by
  induction vs generalizing before with
  | nil => exact ⟨⟨nofun,rfl⟩,trivial⟩
  | cons v vs ih =>
    have here : d.isBareName v.toList = true := (writable v (by simp)).1
    cases vs with
    | nil => exact ⟨⟨.inl here,rfl⟩,⟨nofun,rfl⟩,trivial⟩
    | cons w vs =>
      exact ⟨⟨.inl here,rfl⟩,⟨nofun,rfl⟩,trivial,ih fun k member => writable k (List.mem_cons_of_mem _ member)⟩

theorem using_standing (writable : ∀ v ∈ columns, Ident.IsWritable d ⟨v,none⟩) :
    Standing d none (usingPieces columns) ∧ Breaks (usingPieces columns) := by
  unfold usingPieces
  split
  · exact ⟨trivial,fun p same => by cases same⟩
  · have keyword : d.isBareName "USING".toList = true := by cases d <;> decide
    rw [JoinSpec.columnsTail,List.append_assoc]
    exact ⟨⟨trivial,⟨.inl keyword,rfl⟩,trivial,⟨(fun same => by cases same),rfl⟩,columns_standing writable⟩,breaks_space _⟩

theorem words_standing (names : ∀ w ∈ ws, d.isBareName w.text.toList = true) :
    Standing d before (Part.before (Word.parts ws)) := by
  induction ws generalizing before with
  | nil => trivial
  | cons w ws ih =>
    rw [Word.parts_before]
    exact ⟨⟨.inl (names w (by simp)),rfl⟩,trivial,ih fun w' member => names w' (List.mem_cons_of_mem _ member)⟩

theorem link_standing (d : Dialect) (kind : JoinKind) : Standing d none (Part.before kind.linkParts) ∧
    (Part.before kind.linkParts).getLast?.any isWord = false := by
  have names : ∀ w ∈ kind.linkWords, d.isBareName w.text.toList = true := by cases d <;> cases kind <;> decide
  refine ⟨⟨trivial,words_standing names⟩,?_⟩
  cases kind <;> rfl

theorem framed_standing (frame : Bool) {ps : List Part} (standing : Standing d none (Part.before ps))
    (word : ∃ v, (Part.before ps).head? = some (.word v)) :
    Standing d none (Part.before (framedParts frame ps)) ∧ (Part.before (framedParts frame ps)).head? ≠ some (.symbol .period) := by
  obtain ⟨v,word⟩ := word
  cases frame with
  | false =>
    refine ⟨standing,?_⟩
    change (Part.before ps).head? ≠ _
    rw [word]
    exact nofun
  | true =>
    have closed : Standing d none (Part.before ps ++ [.symbol .rparen]) :=
      standing_breaks standing ⟨⟨nofun,rfl⟩,trivial⟩ fun p same => .inr (.inr (Option.some.inj same).symm)
    have first : (Part.before ps ++ [Piece.symbol .rparen]).head? ≠ some (.symbol .period) := by
      rw [List.head?_append,word]
      exact nofun
    simp only [framedParts,if_true,Part.before_append,JoinSpec.kept_before,List.append_assoc]
    exact ⟨⟨⟨nofun,rfl⟩,standing_first closed first⟩,nofun⟩

end Sql.Piece

mutual
theorem Chain.standing_parts (c : Chain) (fits : c.Fits d) :
    Piece.Standing d none (Part.before c.parts) ∧ ∃ v, (Part.before c.parts).head? = some (.word v) := by
  obtain ⟨name,asName,links⟩ := c
  obtain ⟨⟨i,is,rfl,_⟩,names,given,within⟩ := fits
  obtain ⟨behind,breaks⟩ := links.standing_parts within
  obtain ⟨called,apart⟩ := Piece.alias_standing given
  have first : Piece.Standing d none (namePieces (i :: is)) := Piece.name_standing names
  have table := Piece.standing_breaks first
    (Piece.standing_breaks called behind breaks) (Piece.breaks_append apart breaks)
  rw [Chain.parts,Part.before_append,JoinSpec.kept_before,List.append_assoc]
  exact ⟨table,i.text,by rw [List.head?_append,Piece.name_head]; rfl⟩
theorem Links.standing_parts (ls : Links) (fits : ls.Fits d) :
    Piece.Standing d none (Part.before ls.parts) ∧ Piece.Breaks (Part.before ls.parts) := by
  cases ls with
  | nil => exact ⟨trivial,nofun⟩
  | cons kind columns right rest =>
    obtain ⟨_,_,names,within,later⟩ := fits
    obtain ⟨inner,word⟩ := right.standing_parts within
    obtain ⟨operand,other⟩ := Piece.framed_standing right.isJoined inner word
    obtain ⟨behind,breaks⟩ := rest.standing_parts later
    obtain ⟨named,apart⟩ := Piece.using_standing names
    obtain ⟨linked,last⟩ := Piece.link_standing d kind
    have joined := Piece.standing_append linked operand other (.inl last)
    have constrained := Piece.standing_breaks joined named apart
    rw [Links.parts]
    simp only [Part.before_append,JoinSpec.kept_before]
    exact ⟨Piece.standing_breaks constrained behind breaks,Piece.breaks_space _⟩
end

namespace Listing

theorem standing_parts (s : Listing) (fits : s.Fits d) :
    Piece.Standing d none (Part.before s.parts) ∧ ∃ v, (Part.before s.parts).head? = some (.word v) := by
  have others (cs : List Chain) (fits : ∀ c ∈ cs, Chain.Fits d c) :
      Piece.Standing d none (Part.before (othersParts cs)) ∧ Piece.Breaks (Part.before (othersParts cs)) := by
    induction cs with
    | nil => exact ⟨trivial,nofun⟩
    | cons c cs ih =>
      obtain ⟨behind,breaks⟩ := ih fun c' member => fits c' (by simp [member])
      obtain ⟨inner,word⟩ := c.standing_parts (fits c (by simp))
      obtain ⟨operand,other⟩ := Piece.framed_standing c.isJoined inner word
      have comma : Piece.Standing d none [.symbol .comma,.space] := ⟨⟨nofun,rfl⟩,trivial,trivial⟩
      have entry := Piece.standing_breaks (Piece.standing_append comma operand other (.inl rfl)) behind breaks
      simp only [othersParts,List.flatMap_cons,Part.before_append,JoinSpec.kept_before] at entry ⊢
      exact ⟨entry,fun p same => .inr (.inl (Option.some.inj same).symm)⟩
  obtain ⟨first,v,word⟩ := s.first.standing_parts fits.1
  obtain ⟨behind,breaks⟩ := others s.others fits.2
  rw [parts,Part.before_append]
  exact ⟨Piece.standing_breaks first behind breaks,v,by rw [List.head?_append,word]; rfl⟩

end Listing

-- Which words turn.

theorem intersperse_forall {P : α → Prop} {xs : List α} (separator : P a) (all : ∀ x ∈ xs, P x) : ∀ x ∈ xs.intersperse a, P x := by
  induction xs with
  | nil => exact List.forall_mem_nil _
  | cons x xs ih =>
    cases xs with
    | nil => exact all
    | cons y xs =>
      have later := ih fun z member => all z (List.mem_cons_of_mem _ member)
      rw [List.intersperse_cons_cons]
      intro z member
      rcases List.mem_cons.mp member with rfl | member
      · exact all z (by simp)
      · rcases List.mem_cons.mp member with rfl | member
        · exact separator
        · exact later z member

namespace Sql.Token

theorem name_idle (writable : ∀ i ∈ is, Ident.IsWritable d i) : ∀ t ∈ nameTokens is, IsIdle t := by
  refine intersperse_forall (by decide) fun t member => ?_
  obtain ⟨i,inside,rfl⟩ := List.mem_map.mp member
  exact (writable i inside).2

theorem alias_idle (writable : ∀ a, asName = some a → Ident.IsWritable d ⟨a,none⟩) : ∀ t ∈ aliasTokens asName, IsIdle t := by
  cases asName with
  | none => exact List.forall_mem_nil _
  | some a =>
    intro t member
    rcases List.mem_cons.mp member with rfl | member
    · decide +kernel
    · rw [List.mem_singleton.mp member]
      exact (writable a rfl).2

theorem using_idle (writable : ∀ v ∈ columns, Ident.IsWritable d ⟨v,none⟩) : ∀ t ∈ usingTokens columns, IsIdle t := by
  have listed : ∀ t ∈ listedTokens columns, IsIdle t := by
    refine intersperse_forall (by decide) fun t member => ?_
    obtain ⟨v,inside,rfl⟩ := List.mem_map.mp member
    exact (writable v inside).2
  have keyword : ∀ t ∈ [Token.word "USING" none (some .USING),.symbol .lparen,.symbol .rparen], IsIdle t := by
    decide +kernel
  unfold usingTokens
  split
  · exact List.forall_mem_nil _
  · intro t member
    rcases List.mem_append.mp member with member | closing
    · rcases List.mem_append.mp member with opening | inside
      · exact keyword t ((List.prefix_append _ [Token.symbol .rparen]).subset opening)
      · exact listed t inside
    · exact keyword t (by simp [List.mem_singleton.mp closing])

end Sql.Token

namespace Part

-- Idle words stay.
theorem kept_turns (idle : ∀ t ∈ Piece.reads ps, Token.IsIdle t) : ∀ p ∈ keptParts ps, Turns p := by
  intro p member
  obtain ⟨q,inside,rfl⟩ := List.mem_map.mp member
  refine .inr ⟨rfl,?_⟩
  by_cases blank : q = .space
  · rw [blank]
    exact nofun
  · exact Token.idle_paste (idle _ (List.mem_map_of_mem (List.mem_filter.mpr ⟨inside,by simpa using blank⟩)))

theorem append_turns {a b : List Part} (first : ∀ p ∈ a, Turns p) (second : ∀ p ∈ b, Turns p) : ∀ p ∈ a ++ b, Turns p :=
  fun p member => (List.mem_append.mp member).elim (first p) (second p)

theorem framed_turns (frame : Bool) {ps : List Part} (turns : ∀ p ∈ ps, Turns p) : ∀ p ∈ framedParts frame ps, Turns p := by
  cases frame with
  | false => exact turns
  | true =>
    refine append_turns (append_turns (kept_turns ?_) turns) (kept_turns ?_)
    all_goals
      intro t member
      rw [List.mem_singleton.mp member]
      decide

instance (p : Part) : Decidable p.Turns := inferInstanceAs (Decidable (_ ∨ _))

theorem link_turns (kind : JoinKind) : ∀ p ∈ kind.linkParts, Turns p := by
  cases kind <;> decide +kernel

end Part

mutual
theorem Chain.turns_parts (c : Chain) (fits : c.Fits d) : ∀ p ∈ c.parts, p.Turns := by
  obtain ⟨name,asName,links⟩ := c
  obtain ⟨_,names,given,within⟩ := fits
  rw [Chain.parts]
  refine Part.append_turns (Part.kept_turns ?_) (links.turns_parts within)
  rw [Piece.reads_append,Piece.name_reads names,Piece.alias_reads given]
  exact List.forall_mem_append.mpr ⟨Token.name_idle names,Token.alias_idle given⟩
theorem Links.turns_parts (ls : Links) (fits : ls.Fits d) : ∀ p ∈ ls.parts, p.Turns := by
  cases ls with
  | nil => exact List.forall_mem_nil _
  | cons kind columns right rest =>
    obtain ⟨_,_,names,within,later⟩ := fits
    have operand := Part.framed_turns right.isJoined (right.turns_parts within)
    have constraint : ∀ p ∈ keptParts (usingPieces columns), p.Turns := by
      refine Part.kept_turns ?_
      rw [Piece.using_reads names]
      exact Token.using_idle names
    rw [Links.parts]
    exact Part.append_turns (Part.append_turns (Part.append_turns (Part.link_turns kind) operand) constraint)
      (rest.turns_parts later)
end

theorem Listing.turns_parts (s : Listing) (fits : s.Fits d) : ∀ p ∈ s.parts, p.Turns := by
  refine Part.append_turns (s.first.turns_parts fits.1) fun p member => ?_
  obtain ⟨c,other,inside⟩ := List.mem_flatMap.mp member
  refine Part.append_turns (Part.kept_turns ?_) (Part.framed_turns c.isJoined (c.turns_parts (fits.2 c other))) p inside
  intro t comma
  rw [List.mem_singleton.mp comma]
  decide

end JoinTree
