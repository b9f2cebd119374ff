import JoinTree.Proofs.JoinReading
import JoinTree.Proofs.JoinWords

/-!
What a written join clause is read as. Main statement: behind a table and in front of another one, the text of a clause
with bare names is read as one join, and that join has the clause again, but for a strictness in front of CROSS or PASTE.
-/

namespace JoinTree

open Sql

theorem hasMatchCondition_absent (absent : ∀ l ∈ ls, l.token.keyword? ≠ some .MATCH_CONDITION) (n : Nat) :
    hasMatchCondition n ls = false := by
  induction ls generalizing n with
  | nil => cases n <;> rfl
  | cons l ls ih =>
    have later := ih fun k member => absent k (by simp [member])
    have mine := absent l (by simp)
    unfold hasMatchCondition
    split
    · exact later _
    · rfl
    · exact later _
    · split
      · rfl
      · rw [if_neg (by simpa [isKeyword] using mine)]
        exact later _
    · exact later _

namespace Word

def written (ws : List Word) : List Char := Piece.text (Part.before (parts ws))

theorem written_append (a b : List Word) : written (a ++ b) = written a ++ written b := by
  simp [written,parts,Part.before,Part.text_append]

end Word

namespace Sql.Piece

theorem laid_tokens (l : Location) (ps : List Piece) : (laid l ps).map (·.token) = (ps.filter (· ≠ .space)).map token := by
  obtain ⟨ls,shown,tokens⟩ := laid_append l ps []
  rw [List.append_nil] at shown
  rw [shown,laid,List.append_nil,tokens]

end Sql.Piece

theorem Sql.parseWithHints_result (d : Dialect) (sql : String) : (parseWithHints d sql).result = do
    let sql ← nonEmpty sql
    let p ← PreparedText.ofText d sql.toList
    let ss ← (Statement.readAll d (.ofList p.sql)).mapError Error.unreadable
    return (← firstOf ss,p.hints) := by
  simp only [parseWithHints,Noted.result_bind,Noted.result_lift,Noted.result_notes,Noted.result_pure]
  rfl

namespace JoinSpec

def clause (s : JoinSpec) (condition : Option Expr) (columns : Option (List Ident)) : JoinClause :=
  ⟨s.locality,s.strictness,s.kind,condition,columns⟩

-- The words that are left in front of the right table without GLOBAL, and what they are read as.
def form (s : JoinSpec) (matched : Bool) : List Keyword × Reading.JoinForm :=
  match s.kind, s.strictness with
  | .cross, _ | .paste, _ | .comma, _ => ([.CROSS,.JOIN],.unconstrained .cross)
  | .inner, .asof => if matched then ([.ASOF,.JOIN],.asOf) else ([.JOIN],.constrained .join false)
  | .inner, _ => ([.INNER,.JOIN],.constrained .inner false)
  | .left, .semi => ([.LEFT,.SEMI,.JOIN],.constrained .leftSemi false)
  | .left, .anti => ([.LEFT,.ANTI,.JOIN],.constrained .leftAnti false)
  | .left, _ => ([.LEFT,.JOIN],.constrained .left false)
  | .right, .semi => ([.RIGHT,.SEMI,.JOIN],.constrained .rightSemi false)
  | .right, .anti => ([.RIGHT,.ANTI,.JOIN],.constrained .rightAnti false)
  | .right, _ => ([.RIGHT,.JOIN],.constrained .right false)
  | .full, _ => ([.FULL,.OUTER,.JOIN],.constrained .fullOuter false)

theorem form_known (s : JoinSpec) (matched : Bool) : s.form matched ∈ Reading.joinForms := by
  rcases s with ⟨locality,strictness,kind⟩
  cases kind <;> cases strictness <;> cases matched <;> simp [form,Reading.joinForms]

theorem form_words (s : JoinSpec) (admitted : s.Admitted matched) :
    ((s.words matched).flatMap Word.leftTokens ++ [Token.word "JOIN" none (some .JOIN)]).map Token.keyword? =
      (Reading.globalWords (s.locality = .global) ++ (s.form matched).1).map some := by
  rcases s with ⟨locality,strictness,kind⟩
  cases matched <;> cases kind <;> cases locality <;> cases strictness <;>
    first | exact absurd admitted (by decide) | decide +kernel

theorem columns_single (vs : List String) :
    (vs.map fun v => ObjectName.ofIdents [⟨v,none⟩]).mapM JoinClause.columnOf = .ok (vs.map fun v => ⟨v,none⟩) := by
  induction vs with
  | nil => rfl
  | cons v vs ih =>
    rw [List.map_cons,List.mapM_cons,ih]
    rfl

theorem words_start (s : JoinSpec) (admitted : s.Admitted matched) :
    ∃ v k rest, (s.words matched).flatMap Word.leftTokens ++ [Token.word "JOIN" none (some .JOIN)] = .word v none (some k) :: rest ∧
      some k ∈ Reading.behindTable := by
  rcases s with ⟨locality,strictness,kind⟩
  cases matched <;> cases kind <;> cases locality <;> cases strictness <;>
    first | exact absurd admitted (by decide) | exact ⟨_,_,_,rfl,by decide⟩

-- What a join of a form is read as, with the words put back that were taken out of it.

section
variable {s : JoinSpec} {matched : Bool} {t : TableFactor} (admitted : s.Admitted matched)
include admitted

theorem unconditional_clause (unconditional : s.kind.isUnconditional = true) :
    s.form matched = ([.CROSS,.JOIN],.unconstrained .cross) ∧
      (JoinClause.ofJoin (.mk ⟨s.locality = .global,.cross,.none⟩ t) >>= (s.hint matched).apply) =
        .ok (clause { s with strictness := .unspecified } none none) := by
  rcases s with ⟨locality,strictness,kind⟩
  cases matched <;> cases kind <;> cases locality <;> cases strictness <;>
    first | exact absurd admitted (by decide) | exact ⟨rfl,rfl⟩ | cases unconditional

theorem matched_clause (condition : Expr) (asked : matched = true) :
    (s.form matched).2 = .asOf ∧
      (JoinClause.ofJoin (.mk ⟨s.locality = .global,.asOf condition,.none⟩ t) >>= (s.hint matched).apply) =
        .ok (clause s (some condition) none) := by
  rcases s with ⟨locality,strictness,kind⟩
  cases asked
  cases kind <;> cases locality <;> cases strictness <;>
    first | exact absurd admitted (by decide) | exact ⟨rfl,rfl⟩

theorem constrained_clause (conditional : s.kind.isUnconditional = false) (unmatched : matched = false) :
    ∃ op, (s.form matched).2 = .constrained op false ∧
      (∀ condition, (JoinClause.ofJoin (.mk ⟨s.locality = .global,op,.on condition⟩ t) >>= (s.hint matched).apply) =
        .ok (clause s (some condition) none)) ∧
      ∀ vs : List String, (JoinClause.ofJoin (.mk ⟨s.locality = .global,op,.using (vs.map fun v => .ofIdents [⟨v,none⟩])⟩ t) >>=
        (s.hint matched).apply) = .ok (clause s none (some (vs.map fun v => ⟨v,none⟩))) := by
  have listed := columns_single
  rcases s with ⟨locality,strictness,kind⟩
  cases unmatched
  cases kind <;> cases locality <;> cases strictness <;>
    first | exact absurd admitted (by decide) | cases conditional
  all_goals
    refine ⟨_,rfl,fun _ => rfl,fun vs => ?_⟩
    simp only [JoinClause.ofJoin,JoinClause.topology?,JoinClause.withConstraint,Join.head,listed vs,Reading.ok_bind]
    rfl

end

-- The clause of a join is the one that is written, with what the hint for it says; an empty hint is never recorded.
theorem clauseOf_told {hints : JoinHints} {h : JoinHint} (told : hints.ofJoin? j = if h.isEmpty then none else some h) :
    hints.clauseOf j = JoinClause.ofJoin j >>= h.apply := by
  rw [JoinHints.clauseOf,told]
  cases empty : h.isEmpty with
  | false => rfl
  | true =>
    obtain ⟨_ | _,_ | _,_ | _⟩ := h <;> cases empty
    rfl

-- The hint of a join finds it by the place of its right table.
theorem clauseOf_hint (h : JoinHint) (place : j.right.start? = some l) :
    JoinHints.clauseOf (if h.isEmpty then [] else [(l,h)]) j = JoinClause.ofJoin j >>= h.apply := by
  refine clauseOf_told ?_
  cases h.isEmpty <;> simp [JoinHints.ofJoin?,place]

-- The query as a whole.

-- A text without blanks around it is read as it is left by the words taken out.
theorem parse_prepared (crisp : Expr.Crisp sql.toList) (prepared : PreparedText.ofText d sql.toList = .ok ⟨cs,hints⟩) :
    (parseWithHints d sql).result =
      ((Statement.readAll d (.ofList cs)).mapError Error.unreadable >>= fun ss => firstOf ss >>= fun s => .ok (s,hints)) := by
  obtain ⟨whole,some⟩ := Expr.trim_crisp crisp
  have trimmed : nonEmpty sql = .ok sql := by simp only [nonEmpty,whole,some,Bool.false_eq_true,if_false]
  rw [parseWithHints_result,trimmed,Reading.ok_bind,prepared]
  rfl

section
variable {s : JoinSpec} {matched : Bool} {tail : List Piece} {j : Join} (takes : s.Takes matched tail)
include takes

theorem query_read (place : Sign.Starts [] Reading.behindTable (s.tailLexemes matched tail))
    (behind : Reading.joinBehind (Grammar.inside .clickHouse 48) (s.locality = .global)
      (Reading.tableAt (s.rightLexeme matched tail) "t2") (s.form matched).2 (s.tailLexemes matched tail) = .ok (j,[])) :
    ∃ q t, Statement.readAll .clickHouse (.ofList (Piece.text (Part.after (s.query matched tail)))) = .ok [.query q] ∧
      q.body = .select [⟨Reading.tableAt t "t1",[j]⟩] := by
  obtain ⟨front,scanned,tokens⟩ := query_lexemes takes
  have lead : (lead.filter (· ≠ .space)).map Piece.token =
      [.word "SELECT" none (some .SELECT),.symbol .mul,.word "FROM" none (some .FROM),.word "t1" none none] := by decide
  rw [lead] at tokens
  simp only [List.cons_append,List.nil_append,List.map_eq_cons_iff] at tokens
  obtain ⟨w,_,rfl,select,m,_,rfl,star,f,_,rfl,source,t,front,rfl,left,words⟩ := tokens
  have shown : front.map (·.token.keyword?) = (Reading.globalWords (s.locality = .global) ++ (s.form matched).1).map some := by
    rw [← form_words s takes.admitted,← words,List.map_map]
    rfl
  have joined := Reading.joins_read (n := 47) (s.locality = .global) (s.form_known matched) shown
    (l := s.rightLexeme matched tail) rfl place behind
  have opening : Sign.Starts [] Reading.behindTable (front ++ s.rightLexeme matched tail :: s.tailLexemes matched tail) := by
    obtain ⟨v,k,more,first,known⟩ := words_start s takes.admitted
    rw [first,List.map_eq_cons_iff] at words
    obtain ⟨l,rest,rfl,token,_⟩ := words
    exact .word v _ known token
  have entries := Reading.entry_read (n := 47) t left opening joined
  obtain ⟨_,all,q,rfl,body⟩ := (Reading.statements_from .clickHouse 48 w m f _ select star source).done entries
  refine ⟨q,t,?_,body⟩
  rw [Statement.readAll,String.toList_ofList]
  simp only [List.cons_append] at scanned
  simp only [scanned,mapError_value,Reading.ok_bind]
  change Prod.fst <$> Reading.statements (Reading.statementAt .clickHouse (48 + 2)) _ = _
  rw [all]
  rfl

theorem query_parsed (written : sql.toList = Piece.text (Part.before (s.query matched tail))) (crisp : Expr.Crisp sql.toList)
    (place : Sign.Starts [] Reading.behindTable (s.tailLexemes matched tail))
    (behind : Reading.joinBehind (Grammar.inside .clickHouse 48) (s.locality = .global)
      (Reading.tableAt (s.rightLexeme matched tail) "t2") (s.form matched).2 (s.tailLexemes matched tail) = .ok (j,[])) :
    ∃ q t, (parseWithHints .clickHouse sql).result =
        .ok (.query q,if (s.hint matched).isEmpty then [] else [(s.rightPlace matched,s.hint matched)]) ∧
      q.body = .select [⟨Reading.tableAt t "t1",[j]⟩] := by
  obtain ⟨q,t,read,body⟩ := query_read takes place behind
  have prepared := query_prepared takes
  rw [← written] at prepared
  refine ⟨q,t,?_,body⟩
  rw [parse_prepared crisp prepared,read]
  rfl

end

end JoinSpec

-- Constraints of bare names as they are written behind the right table.

namespace Sql.Piece

def columnPieces : List String → List Piece
  | [] => []
  | [v] => [.word v]
  | v :: w :: vs => .word v :: .symbol .comma :: .space :: columnPieces (w :: vs)

def equalityPieces (q v q' v' : String) : List Piece :=
  [.word q,.symbol .period,.word v,.space,.symbol .eq,.space,.word q',.symbol .period,.word v']

section
variable {d : Dialect} {rest : List Piece}

theorem columns_spaced (names : ∀ v ∈ vs, d.isPlainName v = true) (behind : Spaced d (some (.symbol .rparen)) rest) :
    Spaced d before (columnPieces vs ++ .symbol .rparen :: rest) := by
  induction vs generalizing before with
  | nil => exact ⟨rfl,behind⟩
  | cons v vs ih =>
    have name := names v (by simp)
    simp only [Dialect.isPlainName,Bool.and_eq_true] at name
    cases vs with
    | nil => exact ⟨⟨name.1,rfl⟩,rfl,behind⟩
    | cons w vs => exact ⟨⟨name.1,rfl⟩,rfl,trivial,ih fun u member => names u (by simp [member])⟩

theorem equality_spaced (names : ∀ u ∈ [q,v,q',v'], d.isPlainName u = true) (other : rest.head?.all (!·.isWord) = true)
    (behind : Spaced d (some (.word v')) rest) : Spaced d before (equalityPieces q v q' v' ++ rest) := by
  simp only [List.mem_cons,List.not_mem_nil,or_false,forall_eq_or_imp,forall_eq,Dialect.isPlainName,Bool.and_eq_true] at names
  obtain ⟨a,b,a',b'⟩ := names
  exact ⟨⟨a.1,rfl⟩,rfl,⟨b.1,rfl⟩,trivial,rfl,trivial,⟨a'.1,rfl⟩,rfl,⟨b'.1,other⟩,behind⟩

theorem columns_tokens (names : ∀ v ∈ vs, d.isPlainName v = true) :
    ((columnPieces vs).filter (· ≠ .space)).map token = Reading.columnTokens vs := by
  induction vs with
  | nil => rfl
  | cons v vs ih =>
    have name : Token.ofWord v = .word v none none := Sign.token_name d (names v (by simp))
    have later := ih fun u member => names u (by simp [member])
    cases vs with
    | nil => simpa [columnPieces,Reading.columnTokens,token] using name
    | cons w vs =>
      have step : Reading.columnTokens (v :: w :: vs) = .word v none none :: .symbol .comma :: Reading.columnTokens (w :: vs) := rfl
      rw [step,← later]
      simp [columnPieces,token,name]

theorem equality_tokens (names : ∀ u ∈ [q,v,q',v'], d.isPlainName u = true) :
    ((equalityPieces q v q' v').filter (· ≠ .space)).map token = Reading.equalityTokens q v q' v' := by
  have name : ∀ u ∈ [q,v,q',v'], Token.ofWord u = .word u none none := fun u member => Sign.token_name d (names u member)
  simp only [List.mem_cons,List.not_mem_nil,or_false,forall_eq_or_imp,forall_eq] at name
  simp [equalityPieces,Reading.equalityTokens,name,token]

end

theorem columns_text (vs : List String) : (commaSeparated vs).toList = text (columnPieces vs) := by
  induction vs with
  | nil => rfl
  | cons v vs ih =>
    cases vs with
    | nil => simp [commaSeparated,columnPieces,text,chars]
    | cons w vs =>
      simp only [commaSeparated,String.intercalate_cons_cons,String.toList_append] at ih ⊢
      simp [ih,columnPieces,text,chars,Symbol.text]

theorem equality_text (q v q' v' : String) : (Reading.equality q v q' v').text.toList = text (equalityPieces q v q' v') := by
  simp [Reading.equality,Expr.text,equalityPieces,text,chars,Symbol.text,Ident.text,BinaryOp.text,toString]

-- Neither a keyword nor a minus sign stands in them.

def isMute (p : Piece) : Bool := p.token.keyword?.isNone && p ≠ .symbol .minus

theorem columns_mute (d : Dialect) (names : ∀ v ∈ vs, d.isPlainName v = true) : ∀ p ∈ columnPieces vs, p.isMute = true := by
  induction vs with
  | nil => simp [columnPieces]
  | cons v vs ih =>
    have name : Token.ofWord v = .word v none none := Sign.token_name d (names v (by simp))
    have later := ih fun u member => names u (by simp [member])
    have mine : isMute (.word v) = true := by simp [isMute,token,name,Token.keyword?]
    intro p member
    cases vs with
    | nil => exact List.mem_singleton.mp member ▸ mine
    | cons w vs =>
      simp only [columnPieces,List.mem_cons] at member
      rcases member with rfl | rfl | rfl | member
      · exact mine
      · rfl
      · rfl
      · exact later p member

theorem equality_mute (d : Dialect) (names : ∀ u ∈ [q,v,q',v'], d.isPlainName u = true) :
    ∀ p ∈ equalityPieces q v q' v', p.isMute = true := by
  have name : ∀ u ∈ [q,v,q',v'], isMute (.word u) = true := by
    intro u member
    have token : Token.ofWord u = .word u none none := Sign.token_name d (names u member)
    simp [isMute,Piece.token,token,Token.keyword?]
  intro p member
  have shape : (∃ u ∈ [q,v,q',v'], p = .word u) ∨ p ∈ [.symbol .period,.symbol .eq,.space] := by
    simp only [equalityPieces,List.mem_cons,List.not_mem_nil,or_false,exists_eq_or_imp,exists_eq_left] at member ⊢
    grind
  rcases shape with ⟨u,known,rfl⟩ | mark
  · exact name u known
  · clear member
    revert p
    decide

end Sql.Piece

namespace JoinSpec

open Sql.Piece (columnPieces equalityPieces isMute)

def columnsTail (vs : List String) : List Piece :=
  [.space,.word "USING",.space,.symbol .lparen] ++ columnPieces vs ++ [.symbol .rparen]

def conditionTail (q v q' v' : String) : List Piece := [.space,.word "ON",.space] ++ equalityPieces q v q' v'

def matchedTail (q v q' v' : String) : List Piece :=
  [.space,.word "MATCH_CONDITION",.space,.symbol .lparen] ++ equalityPieces q v q' v' ++ [.symbol .rparen]

theorem tailLexemes_keyword (s : JoinSpec) (pieces : ∀ p ∈ tail, p.token.keyword? ≠ some k) :
    ∀ l ∈ s.tailLexemes matched tail, l.token.keyword? ≠ some k := by
  intro l member
  have inside : l.token ∈ (s.tailLexemes matched tail).map (·.token) := List.mem_map_of_mem member
  rw [tailLexemes,Piece.laid_tokens,List.mem_map] at inside
  obtain ⟨p,shown,same⟩ := inside
  rw [← same]
  exact pieces p (List.mem_filter.mp shown).1

-- A constraint between marks without the word JOIN.
theorem takes_framed (s : JoinSpec) (admitted : s.Admitted matched) (mute : ∀ p ∈ middle, isMute p = true)
    (sides : ∀ p ∈ front ++ back, p ≠ .symbol .minus ∧ p.token.keyword? ≠ some .JOIN)
    (spaced : Piece.Spaced .clickHouse (some (.word "t2")) (front ++ middle ++ back))
    (other : (front ++ middle ++ back).head?.all (!·.isWord) = true)
    (ahead : s.strictness = .asof → s.kind = .inner →
      hasMatchCondition 0 (s.tailLexemes matched (front ++ middle ++ back)) = matched) :
    s.Takes matched (front ++ middle ++ back) := by
  have pieces : ∀ p ∈ front ++ middle ++ back, p ≠ .symbol .minus ∧ p.token.keyword? ≠ some .JOIN := by
    intro p member
    rcases List.mem_append.mp member with member | last
    · rcases List.mem_append.mp member with first | inside
      · exact sides p (by simp [first])
      · have here := mute p inside
        simp only [isMute,Bool.and_eq_true,Option.isNone_iff_eq_none,decide_eq_true_eq] at here
        simp [here]
    · exact sides p (by simp [last])
  refine ⟨admitted,spaced,other,fun member => (pieces _ member).1 rfl,?_,ahead⟩
  exact s.tailLexemes_keyword fun p member => (pieces p member).2

-- Without the word MATCH_CONDITION none is found.
theorem unmatched_ahead (s : JoinSpec) (mute : ∀ p ∈ middle, isMute p = true)
    (sides : ∀ p ∈ front ++ back, p.token.keyword? ≠ some .MATCH_CONDITION) :
    hasMatchCondition 0 (s.tailLexemes false (front ++ middle ++ back)) = false := by
  refine hasMatchCondition_absent (s.tailLexemes_keyword ?_) 0
  intro p member
  rcases List.mem_append.mp member with member | last
  · rcases List.mem_append.mp member with first | inside
    · exact sides p (by simp [first])
    · have here := mute p inside
      simp only [isMute,Bool.and_eq_true,Option.isNone_iff_eq_none,decide_eq_true_eq] at here
      simp [here]
  · exact sides p (by simp [last])

-- Each constraint may stand behind the words.

section
variable {s : JoinSpec}

theorem takes_nothing (admitted : s.Admitted false) : s.Takes false [] :=
  ⟨admitted,trivial,rfl,by simp,by simp [tailLexemes,Piece.laid],fun _ _ => rfl⟩

theorem takes_columns (admitted : s.Admitted false) (names : ∀ v ∈ vs, Dialect.clickHouse.isPlainName v = true) :
    s.Takes false (columnsTail vs) := by
  have mute := Piece.columns_mute .clickHouse names
  refine takes_framed s admitted mute (by decide) ?_ rfl fun _ _ => s.unmatched_ahead mute (by decide)
  rw [List.append_assoc]
  exact ⟨trivial,⟨by decide,rfl⟩,trivial,rfl,Piece.columns_spaced names trivial⟩

section
variable {q v q' v' : String} (names : ∀ u ∈ [q,v,q',v'], Dialect.clickHouse.isPlainName u = true)
include names

theorem takes_condition (admitted : s.Admitted false) : s.Takes false (conditionTail q v q' v') := by
  have mute := Piece.equality_mute .clickHouse names
  have spaced : Piece.Spaced .clickHouse (some (.word "t2")) (conditionTail q v q' v') := by
    have inner : Piece.Spaced .clickHouse (some .space) (equalityPieces q v q' v' ++ []) := Piece.equality_spaced names rfl trivial
    rw [List.append_nil] at inner
    exact ⟨trivial,⟨by decide,rfl⟩,trivial,inner⟩
  have framed : conditionTail q v q' v' = [.space,.word "ON",.space] ++ equalityPieces q v q' v' ++ [] := by
    rw [List.append_nil,conditionTail]
  rw [framed] at spaced ⊢
  exact takes_framed s admitted mute (by decide) spaced rfl fun _ _ => s.unmatched_ahead mute (by decide)

theorem takes_matched (admitted : s.Admitted true) : s.Takes true (matchedTail q v q' v') := by
  have mute := Piece.equality_mute .clickHouse names
  refine takes_framed s admitted mute (by decide) ?_ rfl fun _ _ => rfl
  rw [List.append_assoc]
  exact ⟨trivial,⟨by decide,rfl⟩,trivial,rfl,Piece.equality_spaced names rfl ⟨rfl,trivial⟩⟩

end

-- Texts of clauses.

theorem keywords_text (admitted : s.Admitted matched) (condition : Option Expr) (columns : Option (List Ident)) :
    (s.clause condition columns).keywords.toList = Piece.text (Part.before (Word.parts (s.words matched)) ++ [.word "JOIN"]) := by
  have locality : ∀ l, (JoinClause.localityText l).toList = Word.written (localityWords l) := by
    intro l
    cases l <;> decide
  have strictness : ∀ s, (JoinClause.strictnessText s).toList = Word.written (strictnessWords matched s) := by
    intro s
    cases matched <;> cases s <;> decide
  have kind : ∀ k s, k.isUnconditional = false → (JoinClause.kindText k s).toList = Word.written (kindWords s k) := by
    intro k s
    cases k <;> cases s <;> decide
  have filter : ∀ s : Strictness, (if s.isFiltering then s.text ++ " " else "").toList = Word.written (filterWords s) := by
    intro s
    cases s <;> decide
  have behind (ws : List Word) : Piece.text (Part.before (Word.parts ws) ++ [.word "JOIN"]) = Word.written ws ++ "JOIN".toList := by
    rw [Part.text_append,← Word.written]
    rfl
  rw [behind]
  rcases s with ⟨l,s,k⟩
  cases unconditional : k.isUnconditional with
  | false =>
    have text : (clause ⟨l,s,k⟩ condition columns).keywords = JoinClause.localityText l ++ JoinClause.strictnessText s ++
        JoinClause.kindText k s ++ (if s.isFiltering then s.text ++ " " else "") ++ "JOIN" := by
      cases k <;> first | rfl | cases unconditional
    rw [text]
    simp only [String.toList_append,locality,strictness,kind k s unconditional,filter,words,unconditional,Bool.false_eq_true,
      if_false,Word.written_append,List.append_assoc]
  | true =>
    have text : ∃ word, (clause ⟨l,s,k⟩ condition columns).keywords = JoinClause.localityText l ++ (word ++ "JOIN") ∧
        word.toList = Word.written (kindWords s k) := by
      cases k with
      | cross => exact ⟨"CROSS ",rfl,rfl⟩
      | paste => exact ⟨"PASTE ",rfl,rfl⟩
      | comma => exact absurd rfl admitted.1
      | _ => cases unconditional
    obtain ⟨word,text,written⟩ := text
    rw [text]
    simp only [String.toList_append,locality,written,words,unconditional,if_true,Word.written_append,List.append_assoc]

theorem columns_written (s : JoinSpec) (vs : List String) :
    (s.clause none (some (vs.map fun v => ⟨v,none⟩))).constraint.toList = Piece.text (columnsTail vs) := by
  have names : (vs.map fun v => (⟨v,none⟩ : Ident)).map Ident.text = vs := by simp [Function.comp_def,Ident.text]
  simp only [JoinClause.constraint,clause,Option.map_none,Option.map_some,Option.getD_none,Option.getD_some,names]
  simp [toString,columnsTail,Piece.columns_text,Piece.text,Piece.chars,Symbol.text]

theorem condition_written (s : JoinSpec) (other : ¬ (s.strictness = .asof ∧ s.kind = .inner)) (q v q' v' : String) :
    (s.clause (some (Reading.equality q v q' v')) none).constraint.toList = Piece.text (conditionTail q v q' v') := by
  have plain : (decide (s.strictness = .asof) && decide (s.kind = .inner)) = false := by simpa using other
  simp only [JoinClause.constraint,clause,Option.map_none,Option.map_some,Option.getD_none,Option.getD_some,
    JoinClause.conditionText,plain]
  simp [toString,conditionTail,Piece.equality_text,Piece.text,Piece.chars]

theorem matched_written (asof : s.strictness = .asof) (inner : s.kind = .inner) (q v q' v' : String) :
    (s.clause (some (Reading.equality q v q' v')) none).constraint.toList = Piece.text (matchedTail q v q' v') := by
  have whole : JoinClause.splitMatchCondition (Reading.equality q v q' v') = (none,Reading.equality q v q' v') := rfl
  simp only [JoinClause.constraint,clause,Option.map_none,Option.map_some,Option.getD_none,Option.getD_some,
    JoinClause.conditionText,asof,inner,whole]
  simp [toString,matchedTail,Piece.equality_text,Piece.text,Piece.chars,Symbol.text]

theorem query_written (admitted : s.Admitted matched) {c : JoinClause} (clause : c = s.clause condition columns)
    (shown : c.constraint.toList = Piece.text tail) :
    ("SELECT * FROM t1 " ++ c.keywords ++ " t2" ++ c.constraint).toList = Piece.text (Part.before (s.query matched tail)) := by
  have words := keywords_text admitted condition columns
  have opening : "SELECT * FROM t1 ".toList = Piece.text lead := by decide
  rw [← clause] at words
  simp only [String.toList_append,words,shown,opening,query_before,Part.text_append]
  simp [Piece.text,Piece.chars]

-- What stands at the end of the query decides whether blanks surround it.
theorem query_crisp (s : JoinSpec) (matched : Bool) (ends : Piece.text (.word "t2" :: tail) = front ++ last) (crisp : Expr.Crisp last) :
    Expr.Crisp (Piece.text (Part.before (s.query matched tail))) := by
  have whole := Expr.crisp_join _ (Piece.text (lead.tail ++ Part.before (Word.parts (s.words matched)) ++ [.word "JOIN",.space]) ++ front) _
    (Expr.crisp_name .clickHouse "SELECT" (by decide)) crisp
  have same : Piece.text (Part.before (s.query matched tail)) = "SELECT".toList ++ (Piece.text (lead.tail ++
      Part.before (Word.parts (s.words matched)) ++ [.word "JOIN",.space]) ++ front) ++ last := by
    have opening : Piece.text lead = "SELECT".toList ++ Piece.text lead.tail := rfl
    rw [List.append_assoc,List.append_assoc,← ends,query_before]
    simp only [Part.text_append,opening,List.append_assoc]
    rfl
  rw [same]
  exact whole

theorem tail_tokens (s : JoinSpec) (matched : Bool) (tail : List Piece) :
    (s.tailLexemes matched tail).map (·.token) = (tail.filter (· ≠ .space)).map Piece.token := Piece.laid_tokens _ _

-- A word and parentheses around other tokens.
theorem framed_tokens {ls : List Lexeme} (shown : ls.map (·.token) = [w,o] ++ ts ++ [c]) :
    ∃ u p front r, ls = u :: p :: (front ++ [r]) ∧ u.token = w ∧ p.token = o ∧ front.map (·.token) = ts ∧ r.token = c := by
  simp only [List.cons_append,List.nil_append,List.map_eq_cons_iff,List.map_eq_append_iff,List.map_eq_nil_iff] at shown
  obtain ⟨u,_,rfl,word,p,_,rfl,opening,front,_,rfl,inner,r,_,rfl,closing,rfl⟩ := shown
  exact ⟨u,p,front,r,rfl,word,opening,inner,closing⟩

theorem columnsTail_tokens (s : JoinSpec) (matched : Bool) (names : ∀ v ∈ vs, Dialect.clickHouse.isPlainName v = true) :
    (s.tailLexemes matched (columnsTail vs)).map (·.token) =
      [.word "USING" none (some .USING),.symbol .lparen] ++ Reading.columnTokens vs ++ [.symbol .rparen] := by
  rw [tail_tokens,columnsTail,List.filter_append,List.filter_append,List.map_append,List.map_append,Piece.columns_tokens names]
  rfl

theorem matchedTail_tokens (s : JoinSpec) (matched : Bool) (names : ∀ u ∈ [q,v,q',v'], Dialect.clickHouse.isPlainName u = true) :
    (s.tailLexemes matched (matchedTail q v q' v')).map (·.token) =
      [.word "MATCH_CONDITION" none (some .MATCH_CONDITION),.symbol .lparen] ++ Reading.equalityTokens q v q' v' ++
        [.symbol .rparen] := by
  rw [tail_tokens,matchedTail,List.filter_append,List.filter_append,List.map_append,List.map_append,Piece.equality_tokens names]
  rfl

theorem conditionTail_tokens (s : JoinSpec) (matched : Bool) (names : ∀ u ∈ [q,v,q',v'], Dialect.clickHouse.isPlainName u = true) :
    (s.tailLexemes matched (conditionTail q v q' v')).map (·.token) =
      .word "ON" none (some .ON) :: Reading.equalityTokens q v q' v' := by
  rw [tail_tokens,conditionTail,List.filter_append,List.map_append,Piece.equality_tokens names]
  rfl

end

end JoinSpec

namespace JoinClause

-- The clause between two tables.
def query (c : JoinClause) : String := "SELECT * FROM t1 " ++ c.keywords ++ " t2" ++ c.constraint

-- The text has one join, which has the clause, behind a table without alias.
def IsReadFrom (c : JoinClause) (sql : String) : Prop :=
  ∃ q t j hints, (parseWithHints .clickHouse sql).result = .ok (.query q,hints) ∧ q.body = .select [⟨.table t,[j]⟩] ∧
    t.asName = none ∧ hints.clauseOf j = .ok c

-- No constraint, bare columns, or an equality of two columns with their tables.
inductive HasPlainConstraint (d : Dialect) (c : JoinClause) : Prop where
  | absent : c.condition = none → c.columns = none → HasPlainConstraint d c
  | columns (vs : List String) : (∀ v ∈ vs, d.isPlainName v = true) → c.condition = none →
      c.columns = some (vs.map fun v => ⟨v,none⟩) → HasPlainConstraint d c
  | equality (q v q' v' : String) : (∀ u ∈ [q,v,q',v'], d.isPlainName u = true) →
      c.condition = some (Reading.equality q v q' v') → c.columns = none → HasPlainConstraint d c

end JoinClause

namespace JoinSpec

open Sql.Piece (columnPieces equalityPieces isMute)

section
variable {s : JoinSpec} {matched : Bool} {c c' : JoinClause}

theorem clause_read (takes : s.Takes matched tail) (same : c = s.clause condition columns)
    (shown : c.constraint.toList = Piece.text tail) (ends : Piece.text (.word "t2" :: tail) = a ++ b)
    (crisp : Expr.Crisp b) (place : Sign.Starts [] Reading.behindTable (s.tailLexemes matched tail))
    (behind : Reading.joinBehind (Grammar.inside .clickHouse 48) (s.locality = .global)
      (Reading.tableAt (s.rightLexeme matched tail) "t2") (s.form matched).2 (s.tailLexemes matched tail) =
        .ok (.mk head (Reading.tableAt (s.rightLexeme matched tail) "t2"),[]))
    (given : (JoinClause.ofJoin (.mk head (Reading.tableAt (s.rightLexeme matched tail) "t2")) >>= (s.hint matched).apply) = .ok c') :
    c'.IsReadFrom c.query := by
  have written : c.query.toList = Piece.text (Part.before (s.query matched tail)) := query_written takes.admitted same shown
  have whole := s.query_crisp matched ends crisp
  rw [← written] at whole
  obtain ⟨q,t,parsed,body⟩ := query_parsed takes written whole place behind
  exact ⟨q,_,_,_,parsed,body,rfl,(clauseOf_hint _ rfl).trans given⟩

theorem unconditional_readBack (admitted : s.Admitted false) (unconditional : s.kind.isUnconditional = true) :
    (clause { s with strictness := .unspecified } none none).IsReadFrom (s.clause none none).query := by
  obtain ⟨form,given⟩ := unconditional_clause (t := Reading.tableAt (s.rightLexeme false []) "t2") admitted unconditional
  refine clause_read (takes_nothing admitted) rfl rfl (a := []) rfl (Expr.crisp_name .clickHouse "t2" (by decide)) .nil ?_ given
  rw [form]
  rfl

theorem columns_readBack (admitted : s.Admitted false) (conditional : s.kind.isUnconditional = false) (some : vs ≠ [])
    (names : ∀ v ∈ vs, Dialect.clickHouse.isPlainName v = true) :
    (s.clause none (.some (vs.map fun v => ⟨v,none⟩))).IsReadFrom (s.clause none (.some (vs.map fun v => ⟨v,none⟩))).query := by
  obtain ⟨op,form,_,given⟩ := constrained_clause (t := Reading.tableAt (s.rightLexeme false (columnsTail vs)) "t2")
    admitted conditional rfl
  obtain ⟨u,o,front,r,shown,word,opening,inner,closing⟩ := framed_tokens (s.columnsTail_tokens false names)
  have ends : Piece.text (.word "t2" :: columnsTail vs) =
      Piece.text (.word "t2" :: ([.space,.word "USING",.space,.symbol .lparen] ++ columnPieces vs)) ++ [')'] := by
    simp [columnsTail,Piece.text,Piece.chars,Symbol.text]
  have place : Sign.Starts [] Reading.behindTable (s.tailLexemes false (columnsTail vs)) := by
    rw [shown]
    exact .word _ _ (by decide) word
  refine clause_read (takes_columns admitted names) rfl (columns_written s vs) ends (Expr.crisp_single rfl) place ?_ (given vs)
  have keyword : u.token.keyword? = .some .USING := by rw [word]; rfl
  rw [shown,form,Reading.joinBehind,Reading.bind_run,Reading.using_read vs some u o r keyword opening inner closing,Reading.ok_bind]
  rfl

section
variable {q v q' v' : String} (names : ∀ u ∈ [q,v,q',v'], Dialect.clickHouse.isPlainName u = true)
include names

theorem condition_readBack (admitted : s.Admitted false) (conditional : s.kind.isUnconditional = false)
    (other : ¬ (s.strictness = .asof ∧ s.kind = .inner)) :
    (s.clause (some (Reading.equality q v q' v')) none).IsReadFrom (s.clause (some (Reading.equality q v q' v')) none).query := by
  obtain ⟨op,form,given,_⟩ := constrained_clause (t := Reading.tableAt (s.rightLexeme false (conditionTail q v q' v')) "t2")
    admitted conditional rfl
  have tokens := s.conditionTail_tokens false names
  rw [List.map_eq_cons_iff] at tokens
  obtain ⟨w,front,shown,word,inner⟩ := tokens
  have ends : Piece.text (.word "t2" :: conditionTail q v q' v') =
      Piece.text (.word "t2" :: ([.space,.word "ON",.space] ++ (equalityPieces q v q' v').dropLast)) ++ v'.toList := by
    simp [conditionTail,equalityPieces,Piece.text,Piece.chars]
  have last := names v' (by simp)
  simp only [Dialect.isPlainName,Bool.and_eq_true] at last
  have place : Sign.Starts [] Reading.behindTable (s.tailLexemes false (conditionTail q v q' v')) := by
    rw [shown]
    exact .word _ _ (by decide) word
  refine clause_read (takes_condition names admitted) rfl (condition_written s other q v q' v') ends (Expr.crisp_name _ _ last.1) place ?_
    (given _)
  have keyword : w.token.keyword? = some .ON := by rw [word]; rfl
  rw [shown,form,Reading.joinBehind,Reading.bind_run,Reading.on_read w keyword inner,Reading.ok_bind]
  rfl

theorem matched_readBack (admitted : s.Admitted true) :
    (s.clause (some (Reading.equality q v q' v')) none).IsReadFrom (s.clause (some (Reading.equality q v q' v')) none).query := by
  obtain ⟨form,given⟩ := matched_clause (t := Reading.tableAt (s.rightLexeme true (matchedTail q v q' v')) "t2")
    admitted (Reading.equality q v q' v') rfl
  obtain ⟨u,o,front,r,shown,word,opening,inner,closing⟩ := framed_tokens (s.matchedTail_tokens true names)
  have ends : Piece.text (.word "t2" :: matchedTail q v q' v') =
      Piece.text (.word "t2" :: ([.space,.word "MATCH_CONDITION",.space,.symbol .lparen] ++ equalityPieces q v q' v')) ++ [')'] := by
    simp [matchedTail,Piece.text,Piece.chars,Symbol.text]
  have place : Sign.Starts [] Reading.behindTable (s.tailLexemes true (matchedTail q v q' v')) := by
    rw [shown]
    exact .word _ _ (by decide) word
  obtain ⟨asof,kind⟩ := admitted.2.2.2 rfl
  refine clause_read (takes_matched names admitted) rfl (matched_written asof kind q v q' v') ends (Expr.crisp_single rfl) place ?_ given
  have keyword : u.token.keyword? = some .MATCH_CONDITION := by rw [word]; rfl
  rw [shown,form]
  exact Reading.matched_read u o r keyword opening inner closing

end

end

end JoinSpec

namespace JoinClause

-- What a clause without defects has.

theorem spec_admitted (c : JoinClause) (other : c.kind ≠ .comma) (sound : c.defect? = none) (matched : Bool)
    (asked : matched = true → c.strictness = .asof ∧ c.kind = .inner) : c.spec.Admitted matched := by
  refine ⟨other,?_,?_,asked⟩
  all_goals
    intro strictness
    simp only [spec] at strictness ⊢
    revert sound
    simp only [defect?]
    grind

theorem hasConstraint_of_sound (c : JoinClause) (sound : c.defect? = none) : c.kind.isUnconditional = !c.hasConstraint := by
  revert sound
  simp only [defect?]
  grind

theorem columns_of_sound (c : JoinClause) (sound : c.defect? = none) : c.columns.any List.isEmpty = false := by
  revert sound
  simp only [defect?]
  grind

-- A clause as far as its text shows it.
def shown (c : JoinClause) : JoinClause := if c.kind.isUnconditional then { c with strictness := .unspecified } else c

theorem shown_eq_iff (c : JoinClause) : c.shown = c ↔ (c.kind.isUnconditional = true → c.strictness = .unspecified) := by
  obtain ⟨l,s,k,e,is⟩ := c
  cases h : k.isUnconditional <;> simp [shown,h,eq_comm]

-- The text of a clause is read as what it shows of the clause.
theorem isReadFrom_query (c : JoinClause) (other : c.kind ≠ .comma) (sound : c.defect? = none)
    (plain : c.HasPlainConstraint .clickHouse) :
    c.shown.IsReadFrom c.query ∧ (c.shown = c ↔ (c.kind.isUnconditional = true → c.strictness = .unspecified)) := by
  refine ⟨?_,c.shown_eq_iff⟩
  have admitted := c.spec_admitted other sound
  have constrained := c.hasConstraint_of_sound sound
  have filled := c.columns_of_sound sound
  cases plain with
  | absent noCondition noColumns =>
    obtain ⟨l,s,k,_,_⟩ := c
    cases noCondition
    cases noColumns
    have unconditional : k.isUnconditional = true := constrained
    have read := JoinSpec.unconditional_readBack (s := ⟨l,s,k⟩) (admitted false nofun) unconditional
    rw [shown,if_pos unconditional]
    exact read
  | columns vs names noCondition listed =>
    obtain ⟨l,s,k,_,_⟩ := c
    cases noCondition
    cases listed
    have conditional : k.isUnconditional = false := constrained
    have some : vs ≠ [] := by simpa using filled
    rw [shown,if_neg (by simp [conditional])]
    exact JoinSpec.columns_readBack (s := ⟨l,s,k⟩) (admitted false nofun) conditional some names
  | equality q v q' v' names condition noColumns =>
    obtain ⟨l,s,k,_,_⟩ := c
    cases condition
    cases noColumns
    have conditional : k.isUnconditional = false := constrained
    rw [shown,if_neg (by simp [conditional])]
    by_cases asked : s = .asof ∧ k = .inner
    · exact JoinSpec.matched_readBack (s := ⟨l,s,k⟩) names (admitted true fun _ => asked)
    · exact JoinSpec.condition_readBack (s := ⟨l,s,k⟩) names (admitted false nofun) conditional asked

theorem isReadFrom_query_matched :
    let c : JoinClause := { locality := .perShard, strictness := .asof, condition := some (Reading.equality "t1" "ts" "t2" "paste") }
    (c.kind ≠ .comma ∧ c.defect? = none ∧ c.HasPlainConstraint .clickHouse) ∧
      c.IsReadFrom "SELECT * FROM t1 LOCAL ASOF JOIN t2 MATCH_CONDITION (t1.ts = t2.paste)" := by
  intro c
  have plain : c.HasPlainConstraint .clickHouse := .equality "t1" "ts" "t2" "paste" (by decide +kernel) rfl rfl
  refine ⟨⟨by decide,rfl,plain⟩,?_⟩
  have read := (isReadFrom_query c (by decide) rfl plain).1
  have text : c.query = "SELECT * FROM t1 LOCAL ASOF JOIN t2 MATCH_CONDITION (t1.ts = t2.paste)" := rfl
  rw [← text]
  exact read

-- A text is read as one clause only.
theorem isReadFrom_unique {a b : JoinClause} (first : a.IsReadFrom sql) (second : b.IsReadFrom sql) : a = b := by
  obtain ⟨q,t,j,hints,parsed,body,_,given⟩ := first
  obtain ⟨q',t',j',hints',parsed',body',_,given'⟩ := second
  cases parsed.symm.trans parsed'
  cases body.symm.trans body'
  cases given.symm.trans given'
  rfl

-- The word ANY in front of CROSS JOIN is not written.
theorem any_cross_dropped :
    let c : JoinClause := { strictness := .any, kind := .cross }
    c.kind ≠ .comma ∧ c.defect? = none ∧ c.HasPlainConstraint .clickHouse ∧ ¬ c.IsReadFrom c.query := by
  refine ⟨by decide,rfl,.absent rfl rfl,fun read => ?_⟩
  have other := JoinSpec.unconditional_readBack (s := ⟨.unspecified,.any,.cross⟩) (by decide) rfl
  have same := congrArg strictness (isReadFrom_unique read other)
  cases same

end JoinClause

end JoinTree
