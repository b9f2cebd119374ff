import JoinTree.Proofs.Scanning
import JoinTree.Sql.Expr

/-!
How plain expressions are written. Main statement: their texts are read as their signs, up to two minus signs in a row,
which open a comment.
-/

namespace JoinTree.Sql

-- A bare name that is no keyword.
def Dialect.isPlainName (d : Dialect) (v : String) : Bool := d.isBareName v.toList && (Keyword.ofText? v).isNone

-- An operator that a function stands for.
def BinaryOp.isPlain : BinaryOp → Bool
  | .other _ => false
  | _ => true

def BinaryOp.piece : BinaryOp → Piece
  | .and => .word "AND" | .or => .word "OR"
  | .eq => .symbol .eq | .notEq => .symbol .neq | .lt => .symbol .lt | .ltEq => .symbol .ltEq | .gt => .symbol .gt
  | .gtEq => .symbol .gtEq | .plus => .symbol .plus | .minus => .symbol .minus | .multiply => .symbol .mul
  | .divide => .symbol .div | .modulo => .symbol .mod | .concat => .symbol .concat
  | .other s => .word s

-- What a plain expression is written with. A minus sign is an operator also where it stands in front.
inductive Sign where
  | name (v : String)
  | op (o : BinaryOp)
  | lparen | rparen | comma | is | not | null
  deriving DecidableEq, Repr

namespace Sign

def piece : Sign → Piece
  | name v => .word v
  | op o => o.piece
  | lparen => .symbol .lparen | rparen => .symbol .rparen | comma => .symbol .comma
  | is => .word "IS" | not => .word "NOT" | null => .word "NULL"

def token (s : Sign) : Token := s.piece.token

end Sign

namespace Expr

-- Names without quotes, combined by what a tree has functions for.
inductive IsPlain (d : Dialect) : Expr → Prop where
  | ident : d.isPlainName v = true → IsPlain d (.ident ⟨v,none⟩)
  | binary (op : BinaryOp) : op.isPlain = true → IsPlain d l → IsPlain d r → IsPlain d (.binary l op r)
  | not : IsPlain d e → IsPlain d (.unary .not e)
  | minus : IsPlain d e → IsPlain d (.unary .minus e)
  | nested : IsPlain d e → IsPlain d (.nested e)
  | isNull : IsPlain d e → IsPlain d (.isNull e)
  | isNotNull : IsPlain d e → IsPlain d (.isNotNull e)
  | call (f : String) (args : List Expr) : d.isPlainName f = true → (∀ a ∈ args, IsPlain d a) →
      IsPlain d (.call { name := .ofIdents [⟨f,none⟩] } args)

mutual
def signs : Expr → List Sign
  | ident i => [.name i.value]
  | binary l op r => l.signs ++ .op op :: r.signs
  | unary .not e => .not :: e.signs
  | unary .minus e => .op .minus :: e.signs
  | nested e => .lparen :: e.signs ++ [.rparen]
  | isNull e => e.signs ++ [.is,.null]
  | isNotNull e => e.signs ++ [.is,.not,.null]
  | call h args => .name h.name.text :: .lparen :: signsList args ++ [.rparen]
  | _ => []
def signsList : List Expr → List Sign
  | [] => []
  | [e] => e.signs
  | e :: es => e.signs ++ .comma :: signsList es
end

mutual
def pieces : Expr → List Piece
  | ident i => [.word i.value]
  | binary l op r => l.pieces ++ .space :: op.piece :: .space :: r.pieces
  | unary .not e => .word "NOT" :: .space :: e.pieces
  | unary .minus e => .symbol .minus :: e.pieces
  | nested e => .symbol .lparen :: e.pieces ++ [.symbol .rparen]
  | isNull e => e.pieces ++ [.space,.word "IS",.space,.word "NULL"]
  | isNotNull e => e.pieces ++ [.space,.word "IS",.space,.word "NOT",.space,.word "NULL"]
  | call h args => .word h.name.text :: .symbol .lparen :: piecesList args ++ [.symbol .rparen]
  | _ => []
def piecesList : List Expr → List Piece
  | [] => []
  | [e] => e.pieces
  | e :: es => e.pieces ++ .symbol .comma :: .space :: piecesList es
end

theorem signsList_cons (e : Expr) (es : List Expr) (more : es ≠ []) :
    signsList (e :: es) = e.signs ++ .comma :: signsList es := by
  cases es with
  | nil => exact absurd rfl more
  | cons b es => rfl

theorem piecesList_cons (e : Expr) (es : List Expr) (more : es ≠ []) :
    piecesList (e :: es) = e.pieces ++ .symbol .comma :: .space :: piecesList es := by
  cases es with
  | nil => exact absurd rfl more
  | cons b es => rfl

theorem name_text (f : String) : (ObjectName.ofIdents [⟨f,none⟩]).text = f := by
  simp [ObjectName.ofIdents,ObjectName.text,NamePart.text,Ident.text]

theorem call_text (f : String) (args : List Expr) :
    (Expr.call { name := .ofIdents [⟨f,none⟩] } args).text = f ++ "(" ++ commaSeparated (args.map text) ++ ")" := by
  simp [text,CallHead.text,CallHead.argumentText,texts_eq_map,name_text,toString,String.append_assoc]

theorem op_text (op : BinaryOp) : op.text.toList = op.piece.chars := by
  cases op <;> rfl

-- The text of a plain expression is put together of its pieces.
theorem text_pieces (plain : IsPlain d e) : e.text.toList = Piece.text e.pieces := by
  induction plain with
  | ident name => simp [text,pieces,Ident.text,Piece.text,Piece.chars]
  | binary op known left right ihl ihr =>
    simp [text,pieces,toString,op_text op,ihl,ihr,Piece.text,Piece.chars]
  | not inner ih => simp [text,pieces,toString,Piece.text,Piece.chars,ih]
  | minus inner ih => simp [text,pieces,Piece.text,Piece.chars,ih,Symbol.text,UnaryOp.text]
  | nested inner ih => simp [text,pieces,toString,Piece.text,Piece.chars,ih,Symbol.text]
  | isNull inner ih => simp [text,pieces,toString,Piece.text,Piece.chars,ih]
  | isNotNull inner ih => simp [text,pieces,toString,Piece.text,Piece.chars,ih]
  | call f args name plain ih =>
    have list : (commaSeparated (args.map text)).toList = Piece.text (piecesList args) := by
      clear plain
      induction args with
      | nil => rfl
      | cons a args more =>
        have first := ih a (by simp)
        have rest := more fun b member => ih b (by simp [member])
        cases args with
        | nil => simpa [commaSeparated,piecesList] using first
        | cons b args =>
          rw [piecesList_cons a (b :: args) (by simp)]
          simp only [List.map_cons,commaSeparated,String.intercalate_cons_cons] at rest ⊢
          simp [first,rest,Piece.text,Piece.chars,Symbol.text]
    rw [call_text]
    simp [pieces,name_text,list,Piece.text,Piece.chars,Symbol.text]

-- Where a plain expression starts.
theorem pieces_head (plain : IsPlain d e) :
    ∃ p ps, e.pieces = p :: ps ∧ (p.isWord = true ∨ p = .symbol .lparen ∨ p = .symbol .minus) := by
  induction plain with
  | ident | call => exact ⟨_,_,rfl,.inl rfl⟩
  | not => exact ⟨_,_,rfl,.inl rfl⟩
  | minus => exact ⟨_,_,rfl,.inr (.inr rfl)⟩
  | nested => exact ⟨_,_,rfl,.inr (.inl rfl)⟩
  | binary op known left right ihl ihr =>
    obtain ⟨p,ps,shown,start⟩ := ihl
    exact ⟨p,_,by rw [pieces,shown]; rfl,start⟩
  | isNull inner ih | isNotNull inner ih =>
    obtain ⟨p,ps,shown,start⟩ := ih
    exact ⟨p,_,by rw [pieces,shown]; rfl,start⟩

theorem bareName_keyword (d : Dialect) (v : String) (keyword : v ∈ ["AND","OR","NOT","IS","NULL"]) :
    d.isBareName v.toList = true := by
  have known : ∀ v ∈ ["AND","OR","NOT","IS","NULL"], d.isBareName v.toList = true := by cases d <;> decide
  exact known v keyword

theorem fits_op (op : BinaryOp) (plain : op.isPlain = true) : op.piece.Fits d before (some .space) := by
  cases op
  case and | or => exact ⟨bareName_keyword d _ (by decide),rfl⟩
  case other => cases plain
  all_goals rfl

theorem spaced_list (args : List Expr) (each : ∀ a ∈ args, ∀ {rest}, rest.head?.all (!·.isWord) = true →
    (∀ before, Piece.Spaced d before rest) → ∀ before, Piece.Spaced d before (a.pieces ++ rest))
    (spaced : ∀ before, Piece.Spaced d before rest) (before : Option Piece) :
    Piece.Spaced d before (piecesList args ++ .symbol .rparen :: rest) := by
  induction args generalizing before with
  | nil => exact ⟨rfl,spaced _⟩
  | cons a args more =>
    have later := more fun b member => each b (by simp [member])
    cases args with
    | nil =>
      refine each a (by simp) ?_ ?_ before
      · rfl
      · exact fun _ => ⟨rfl,spaced _⟩
    | cons b args =>
      rw [piecesList_cons a (b :: args) (by simp),List.append_assoc]
      refine each a (by simp) ?_ ?_ before
      · rfl
      · exact fun _ => ⟨rfl,trivial,later _⟩

-- Pieces of plain expressions stand apart, whatever is in front of them and if no word is behind them.
theorem spaced_pieces (plain : IsPlain d e) (behind : rest.head?.all (!·.isWord) = true)
    (spaced : ∀ before, Piece.Spaced d before rest) : ∀ before, Piece.Spaced d before (e.pieces ++ rest) := by
  have keyword (v : String) (known : v ∈ ["AND","OR","NOT","IS","NULL"]) : d.isBareName v.toList = true :=
    bareName_keyword d v known
  induction plain generalizing rest with
  | ident name =>
    intro before
    simp only [Dialect.isPlainName,Bool.and_eq_true] at name
    exact ⟨⟨name.1,behind⟩,spaced _⟩
  | binary op known left right ihl ihr =>
    intro before
    have later := ihr behind spaced
    simp only [pieces,List.append_assoc,List.cons_append]
    refine ihl ?_ ?_ before
    · rfl
    · exact fun _ => ⟨trivial,fits_op op known,trivial,later _⟩
  | not inner ih => exact fun before => ⟨⟨keyword _ (by decide),rfl⟩,trivial,ih behind spaced _⟩
  | minus inner ih =>
    intro before
    obtain ⟨p,ps,shown,start⟩ := pieces_head inner
    refine ⟨?_,ih behind spaced _⟩
    simp only [Piece.Fits,shown,Piece.separates]
    rcases start with word | rfl | rfl
    · simp [word]
    · rfl
    · rfl
  | nested inner ih =>
    intro before
    simp only [pieces,List.append_assoc,List.cons_append]
    refine ⟨rfl,ih ?_ ?_ _⟩
    · rfl
    · exact fun _ => ⟨rfl,spaced _⟩
  | isNull inner ih =>
    intro before
    simp only [pieces,List.append_assoc]
    refine ih ?_ ?_ before
    · rfl
    · exact fun _ => ⟨trivial,⟨keyword _ (by decide),rfl⟩,trivial,⟨keyword _ (by decide),behind⟩,spaced _⟩
  | isNotNull inner ih =>
    intro before
    simp only [pieces,List.append_assoc]
    refine ih ?_ ?_ before
    · rfl
    · exact fun _ => ⟨trivial,⟨keyword _ (by decide),rfl⟩,trivial,⟨keyword _ (by decide),rfl⟩,trivial,
        ⟨keyword _ (by decide),behind⟩,spaced _⟩
  | call f args name plain ih =>
    intro before
    simp only [Dialect.isPlainName,Bool.and_eq_true] at name
    simp only [pieces,name_text,List.cons_append,List.append_assoc,List.nil_append]
    exact ⟨⟨name.1,rfl⟩,rfl,spaced_list args (fun a member _ => ih a member) spaced _⟩

theorem pieces_signs (plain : IsPlain d e) : e.pieces.filter (· ≠ .space) = e.signs.map Sign.piece := by
  induction plain with
  | ident | not | minus | nested | isNull | isNotNull => simp_all [pieces,signs,Sign.piece,BinaryOp.piece]
  | binary op known left right ihl ihr =>
    have shown : op.piece ≠ .space := by cases op <;> simp [BinaryOp.piece]
    simp_all [pieces,signs,Sign.piece]
  | call f args name plain ih =>
    have list : (piecesList args).filter (· ≠ .space) = (signsList args).map Sign.piece := by
      clear plain
      induction args with
      | nil => rfl
      | cons a args more =>
        have first := ih a (by simp)
        have later := more fun b member => ih b (by simp [member])
        cases args with
        | nil => exact first
        | cons b args =>
          rw [piecesList_cons a (b :: args) (by simp),signsList_cons a (b :: args) (by simp)]
          simp_all [Sign.piece]
    simp_all [pieces,signs,Sign.piece]

end Expr

namespace Piece

-- Whether a comment opens somewhere.
def opensComment : List Piece → Bool
  | [] => false
  | p :: ps => (p = .symbol .minus && ps.head? = some (.symbol .minus)) || opensComment ps

theorem tokens_prefix (ps : List Piece) : tokens ps <+: (ps.filter (· ≠ .space)).map token := by
  induction ps with
  | nil => exact List.prefix_refl _
  | cons p ps ih =>
    unfold tokens
    split
    · exact List.nil_prefix
    · by_cases blank : p = .space
      · simpa [blank] using ih
      · simpa [blank] using ih

theorem tokens_exact (ps : List Piece) (free : opensComment ps = false) :
    tokens ps = (ps.filter (· ≠ .space)).map token := by
  induction ps with
  | nil => rfl
  | cons p ps ih =>
    simp only [opensComment,Bool.or_eq_false_iff] at free
    have later := ih free.2
    unfold tokens
    rw [if_neg (by simpa using free.1)]
    by_cases blank : p = .space
    · simpa [blank] using later
    · simpa [blank] using later

-- The spaces that pieces start with.
def gap : Location → List Piece → List (Blank × Location)
  | l, .space :: ps => (.space,l) :: gap (l.past ' ') ps
  | _, _ => []

-- The lexemes of pieces that no comment takes up, each where its piece stands.
def laid : Location → List Piece → List Lexeme
  | _, [] => []
  | l, .space :: ps => laid (l.past ' ') ps
  | l, p :: ps => ⟨p.token,l,l.pastAll p.chars,gap (l.pastAll p.chars) ps⟩ :: laid (l.pastAll p.chars) ps

theorem gathered_lexemes (l : Location) (free : opensComment ps = false) :
    Token.gathered (lexemes l ps) = (gap l ps,laid l ps) := by
  induction ps generalizing l with
  | nil => rfl
  | cons p ps ih =>
    simp only [opensComment,Bool.or_eq_false_iff] at free
    have single : ¬ (p = .symbol .minus ∧ ps.head? = some (.symbol .minus)) := by simpa using free.1
    have later := ih (l.pastAll p.chars) free.2
    rw [lexemes,if_neg single,Token.gathered,later]
    cases p <;> rfl

-- The lexemes of some pieces in front of others.
theorem laid_append (l : Location) (a b : List Piece) :
    ∃ ls, laid l (a ++ b) = ls ++ laid (l.pastAll (text a)) b ∧ ls.map (·.token) = (a.filter (· ≠ .space)).map token := by
  induction a generalizing l with
  | nil => exact ⟨[],rfl,rfl⟩
  | cons p a ih =>
    obtain ⟨ls,shown,tokens⟩ := ih (l.pastAll p.chars)
    have place : l.pastAll (text (p :: a)) = (l.pastAll p.chars).pastAll (text a) := by
      rw [text_cons,Location.pastAll_append]
    rw [place]
    have here (p : Piece) (other : p ≠ .space) : laid l (p :: (a ++ b)) =
        ⟨p.token,l,l.pastAll p.chars,gap (l.pastAll p.chars) (a ++ b)⟩ :: laid (l.pastAll p.chars) (a ++ b) := by
      cases p <;> first | rfl | exact absurd rfl other
    cases p with
    | space => exact ⟨ls,shown,by simpa using tokens⟩
    | word | symbol =>
      rw [List.cons_append,here _ (by simp),shown]
      exact ⟨_ :: ls,rfl,by simpa using tokens⟩

theorem opensComment_minus (apart : .symbol .minus ∉ ps) : opensComment ps = false := by
  induction ps with
  | nil => rfl
  | cons p ps ih =>
    have other : p ≠ .symbol .minus := fun same => apart (by simp [same])
    simp [opensComment,other,ih fun member => apart (by simp [member])]

theorem scan_laid (spaced : Spaced d none ps) (free : opensComment ps = false) :
    Token.scan d (text ps) = .ok (laid .start ps) := by
  rw [Token.scan_pieces spaced,gathered_lexemes .start free]

end Piece

namespace Expr

-- The tokens of a plain expression are its signs, as far as no comment takes them up.
theorem scan_plain (plain : IsPlain d e) : ∃ ls, Token.scan d e.text.toList = .ok ls ∧
    ls.map (·.token) <+: e.signs.map Sign.token ∧
    (Piece.opensComment e.pieces = false → ls.map (·.token) = e.signs.map Sign.token) := by
  have spaced : Piece.Spaced d none (e.pieces ++ []) := by
    refine spaced_pieces plain ?_ ?_ none
    · rfl
    · exact fun _ => trivial
  rw [List.append_nil] at spaced
  have shown : (Token.gathered (Piece.lexemes .start e.pieces)).2.map (·.token) = Piece.tokens e.pieces :=
    (Token.gathered_tokens _).trans (Piece.lexemes_tokens _)
  have signs : (e.pieces.filter (· ≠ .space)).map Piece.token = e.signs.map Sign.token := by
    rw [pieces_signs plain,List.map_map]
    rfl
  refine ⟨_,by rw [text_pieces plain]; exact Token.scan_pieces spaced,?_,?_⟩
  · rw [shown,← signs]
    exact Piece.tokens_prefix _
  · intro free
    rw [shown,← signs]
    exact Piece.tokens_exact _ free

-- A text with no blank at either end.
structure Crisp (cs : List Char) : Prop where
  first : ∃ c rest, cs = c :: rest ∧ Text.isBlank c = false
  last : ∃ rest c, cs = rest ++ [c] ∧ Text.isBlank c = false

theorem crisp_join (a m b : List Char) (left : Crisp a) (right : Crisp b) : Crisp (a ++ m ++ b) := by
  obtain ⟨c,rest,rfl,first⟩ := left.first
  obtain ⟨before,l,rfl,last⟩ := right.last
  exact ⟨⟨c,_,rfl,first⟩,⟨c :: rest ++ m ++ before,l,by simp,last⟩⟩

theorem crisp_single (other : Text.isBlank c = false) : Crisp [c] := ⟨⟨c,[],rfl,other⟩,⟨[],c,rfl,other⟩⟩

theorem crisp_name (d : Dialect) (v : String) (name : d.isBareName v.toList = true) : Crisp v.toList := by
  cases shown : v.toList with
  | nil => simp [shown,Dialect.isBareName] at name
  | cons c cs =>
    simp only [shown,Dialect.isBareName,Bool.and_eq_true,List.all_eq_true] at name
    have first := startsName_blank d name.1.1.1
    refine ⟨⟨c,cs,rfl,first⟩,?_⟩
    cases more : cs.getLast? with
    | none => exact ⟨[],c,by simp [List.getLast?_eq_none_iff.mp more],first⟩
    | some l =>
      obtain ⟨before,rfl⟩ := List.getLast?_eq_some_iff.mp more
      exact ⟨c :: before,l,rfl,continuesName_blank d (name.2 l (by simp))⟩

theorem crisp_text (plain : IsPlain d e) : Crisp e.text.toList := by
  rw [text_pieces plain]
  induction plain with
  | @ident v name =>
    simp only [Dialect.isPlainName,Bool.and_eq_true] at name
    simpa [pieces,Piece.text,Piece.chars] using crisp_name d v name.1
  | binary op known left right ihl ihr =>
    have both := crisp_join _ (Piece.text [.space,op.piece,.space]) _ ihl ihr
    simpa [pieces,Piece.text] using both
  | not inner ih =>
    have both := crisp_join _ ['O','T',' '] _ (crisp_single (c := 'N') rfl) ih
    simpa [pieces,Piece.text,Piece.chars] using both
  | minus inner ih =>
    have both := crisp_join _ [] _ (crisp_single (c := '-') rfl) ih
    simpa [pieces,Piece.text,Piece.chars,Symbol.text] using both
  | @nested e inner ih =>
    have both := crisp_join _ (Piece.text e.pieces) _ (crisp_single (c := '(') rfl) (crisp_single (c := ')') rfl)
    simpa [pieces,Piece.text,Piece.chars,Symbol.text] using both
  | isNull inner ih =>
    have both := crisp_join _ [' ','I','S',' ','N','U','L'] _ ih (crisp_single (c := 'L') rfl)
    simpa [pieces,Piece.text,Piece.chars] using both
  | isNotNull inner ih =>
    have both := crisp_join _ [' ','I','S',' ','N','O','T',' ','N','U','L'] _ ih (crisp_single (c := 'L') rfl)
    simpa [pieces,Piece.text,Piece.chars] using both
  | call f args name plain ih =>
    simp only [Dialect.isPlainName,Bool.and_eq_true] at name
    have both := crisp_join _ ('(' :: Piece.text (piecesList args)) _ (crisp_name d f name.1) (crisp_single (c := ')') rfl)
    simpa [pieces,name_text,Piece.text,Piece.chars,Symbol.text] using both

theorem trim_crisp {s : String} (crisp : Crisp s.toList) : Text.trim s = s ∧ s.isEmpty = false := by
  obtain ⟨⟨c,rest,shown,first⟩,⟨before,l,shown',last⟩⟩ := crisp
  constructor
  · exact Text.trim_exact (by simp [shown,first]) (by simp [shown',last])
  · cases empty : s.isEmpty with
    | false => rfl
    | true =>
      rw [String.isEmpty_iff.mp empty] at shown
      cases shown

theorem trim_plain (plain : IsPlain d e) : Text.trim e.text = e.text ∧ e.text.isEmpty = false :=
  trim_crisp (crisp_text plain)

end Expr

end JoinTree.Sql
