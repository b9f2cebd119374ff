import JoinTree.Proofs.ChainReading
import JoinTree.Proofs.TreeListing

/-!
Reading the text of a tree behind `SELECT * FROM`. Main statement: where the text of a built tree without conditions is
read at all, it is read as that tree, if the names of the tree can be written; a name that cannot be may turn into tables.
-/

namespace JoinTree

open Sql
open Sql.Grammar (inside)
open Sql.Piece (namePieces aliasPieces usingPieces)

-- The end of a text.

namespace Sql.Piece

-- A word or a parenthesis comes last.
def Ended (ps : List Piece) : Prop := ∀ p, ps.getLast? = some p → p.isWord = true ∨ p = .symbol .rparen

theorem ended_append (first : Ended ps) (second : Ended qs) : Ended (ps ++ qs) := by
  intro p last
  rw [List.getLast?_append,Option.or_eq_some_iff] at last
  rcases last with last | ⟨_,last⟩
  · exact second p last
  · exact first p last

theorem ended_behind (ps : List Piece) (some : qs ≠ []) (second : Ended qs) : Ended (ps ++ qs) := by
  intro p last
  rw [List.getLast?_append_of_ne_nil _ some] at last
  exact second p last

theorem crisp_stands (p : Piece) (stands : p.Stands d before next) (last : p.isWord = true ∨ p = .symbol .rparen) :
    Expr.Crisp p.chars := by
  rcases last with word | rfl
  · cases p with
    | space | symbol => cases word
    | word v =>
      rcases stands.1 with name | ⟨q,inner,shown,quote⟩
      · exact Expr.crisp_name d v name
      · have mark : Text.isBlank q = false := by rcases quote with rfl | rfl <;> rfl
        rw [chars,shown]
        exact Expr.crisp_join [q] (Token.doubled q inner) [q] (Expr.crisp_single mark) (Expr.crisp_single mark)
  · exact Expr.crisp_single (c := ')') rfl

theorem crisp_last (standing : Standing d before ps) (some : ps ≠ []) (ended : Ended ps) :
    ∃ a b, text ps = a ++ b ∧ Expr.Crisp b := by
  induction ps generalizing before with
  | nil => exact absurd rfl some
  | cons p ps ih =>
    cases ps with
    | nil =>
      exact ⟨[],p.chars,by simp [text],crisp_stands p standing.1 (ended p rfl)⟩
    | cons q ps =>
      obtain ⟨a,b,same,crisp⟩ := ih standing.2 (by simp) (by simpa [Ended] using ended)
      exact ⟨p.chars ++ a,b,by rw [text_cons,same,List.append_assoc],crisp⟩

theorem ended_single (last : p.isWord = true ∨ p = .symbol .rparen) : Ended [p] :=
  fun _ same => Option.some.inj same ▸ last

theorem name_ended (i : Ident) (is : List Ident) : Ended (namePieces (i :: is)) := by
  induction is generalizing i with
  | nil => exact ended_single (.inl rfl)
  | cons j is ih => exact ended_behind [.word i.text,.symbol .period] (by cases is <;> exact nofun) (ih j)

theorem alias_ended (asName : Option String) : Ended (aliasPieces asName) := by
  cases asName with
  | none => exact nofun
  | some a => exact ended_behind [.space,.word "AS",.space] nofun (ended_single (.inl rfl))

theorem using_ended (columns : List String) : Ended (usingPieces columns) := by
  unfold usingPieces
  split
  · exact nofun
  · exact ended_behind _ nofun (ended_single (.inr rfl))

theorem framed_ended (frame : Bool) {ps : List Part} (front : List Piece) (ended : Ended (Part.before ps))
    (word : ∃ v, (Part.before ps).head? = some (.word v)) : Ended (front ++ Part.before (framedParts frame ps)) := by
  obtain ⟨v,word⟩ := word
  cases frame with
  | false =>
    have filled : Part.before ps ≠ [] := fun empty => by
      rw [empty] at word
      cases word
    exact ended_behind front filled ended
  | true =>
    rw [framedParts,if_pos rfl,Part.before_append,← List.append_assoc]
    exact ended_behind _ (List.cons_ne_nil _ _) (ended_single (.inr rfl))

end Sql.Piece

mutual
theorem Chain.ended_parts (c : Chain) (fits : c.Fits d) : Piece.Ended (Part.before c.parts) := by
  obtain ⟨name,asName,links⟩ := c
  obtain ⟨⟨i,is,rfl,_⟩,_,_,within⟩ := fits
  rw [Chain.parts,Part.before_append,JoinSpec.kept_before]
  exact Piece.ended_append (Piece.ended_append (Piece.name_ended i is) (Piece.alias_ended asName)) (links.ended_parts within)
theorem Links.ended_parts (ls : Links) (fits : ls.Fits d) : Piece.Ended (Part.before ls.parts) := by
  cases ls with
  | nil => exact nofun
  | cons kind columns right rest =>
    obtain ⟨_,_,_,within,later⟩ := fits
    have operand := Piece.framed_ended right.isJoined (Part.before kind.linkParts) (right.ended_parts within)
      (right.standing_parts within).2
    rw [Links.parts]
    simp only [Part.before_append,JoinSpec.kept_before]
    exact Piece.ended_append (Piece.ended_append operand (Piece.using_ended columns)) (rest.ended_parts later)
end

theorem Node.ofSql_ok : (ofSql d sql).result = .ok n ↔
    ∃ s hints, (parseWithHints d sql).result = .ok (s,hints) ∧ (ofStatement s hints).result = .ok n := by
  have split : (ofSql d sql).result =
      (parseWithHints d sql).result.mapError AnalysisError.sql >>= fun st => (ofStatement st.1 st.2).result := by
    rw [ofSql,Noted.result_bind,Noted.mapError]
  rw [split,bind_ok]
  simp only [mapError_ok,Prod.exists]

namespace Listing

section
variable {d : Dialect} {s : Listing} (fits : s.Fits d)
include fits

theorem ended_parts : Piece.Ended (Part.before s.parts) := by
  have others (cs : List Chain) (fits : ∀ c ∈ cs, Chain.Fits d c) : Piece.Ended (Part.before (othersParts cs)) := by
    induction cs with
    | nil => exact nofun
    | cons c cs ih =>
      have later := ih fun c' member => fits c' (by simp [member])
      simp only [othersParts,List.flatMap_cons,Part.before_append,JoinSpec.kept_before] at later ⊢
      have entry := Piece.framed_ended c.isJoined [.symbol .comma,.space] (c.ended_parts (fits c (by simp)))
        (c.standing_parts (fits c (by simp))).2
      exact Piece.ended_append entry later
  rw [parts,Part.before_append]
  exact Piece.ended_append (s.first.ended_parts fits.1) (others s.others fits.2)

-- No blank surrounds the query.
theorem crisp_query : Expr.Crisp (Piece.text (Part.before s.query)) := by
  obtain ⟨standing,v,word⟩ := s.standing_parts fits
  have filled : Part.before s.parts ≠ [] := fun empty => by
    rw [empty] at word
    cases word
  obtain ⟨a,b,same,crisp⟩ := Piece.crisp_last standing filled (ended_parts fits)
  have whole := Expr.crisp_join _ (" * FROM ".toList ++ a) _ (Expr.crisp_name d "SELECT" (by cases d <;> decide)) crisp
  have lead : Piece.text [.word "SELECT",.space,.symbol .mul,.space,.word "FROM",.space] = "SELECT".toList ++ " * FROM ".toList := rfl
  rw [query,Part.before_append,JoinSpec.kept_before,Part.text_append,lead,same]
  simpa only [List.append_assoc] using whole

-- What is read of the query, and what it is read as.
theorem query_only (sql : String) (written : sql.toList = Piece.text (Part.before s.query))
    (read : (Node.ofSql d sql).result = .ok n) : n = s.node := by
  obtain ⟨hints,ls,prepared,shown,told,scanned⟩ := prepared_query fits
  simp only [queryTokens,List.cons_append,List.nil_append,List.map_eq_cons_iff] at shown
  obtain ⟨w,_,rfl,select,m,_,rfl,star,f,rest,rfl,source,tokens⟩ := shown
  have kept (l : Lexeme) (other : JoinWord.ofToken? l.token ≠ some .paste) : l.turned = l :=
    if_neg (by simpa [Lexeme.isPaste] using other)
  simp only [List.map_cons,kept w (by rw [select]; decide +kernel),kept m (by rw [star]; decide +kernel),
    kept f (by rw [source]; decide +kernel)] at scanned
  have crisp := crisp_query fits
  rw [← written] at prepared crisp
  have parsed := JoinSpec.parse_prepared crisp prepared
  have entries := Reading.statements_from d 48 w m f (rest.map Lexeme.turned) select star source
  have stated : Statement.readAll d (.ofList (Piece.text (Part.after s.query))) =
      Prod.fst <$> Reading.statements (Reading.statementAt d (48 + 2)) (w :: m :: f :: rest.map Lexeme.turned) := by
    rw [Statement.readAll,String.toList_ofList,scanned]
    rfl
  obtain ⟨st,hints',statement,built⟩ := Node.ofSql_ok.mp read
  rw [parsed,stated] at statement
  cases listed : Reading.fromList (inside d 48) (rest.map Lexeme.turned) with
  | error e =>
    rw [entries.failed listed] at statement
    cases statement
  | ok result =>
    obtain ⟨es,r⟩ := result
    obtain ⟨rfl,tree⟩ := fromList_only s fits 48 tokens (told_append (a := [w,m,f]) told) listed
    obtain ⟨ss,done,q,rfl,body⟩ := entries.done listed
    rw [done] at statement
    cases statement
    simp only [Node.ofStatement,Node.ofQuery,body,tree] at built
    cases built
    rfl

end

end Listing

namespace Node

-- A built tree whose names can be written is built again from its text, if any tree is.
theorem ofSql_again (d : Dialect) (sql : String) (n m : Node) (built : (ofSql d sql).result = .ok n) (bare : n.conditions = [])
    (unmarked : n.IsUnmarked) (named : n.IsNamed d) (again : (ofSql d ("SELECT * FROM " ++ n.text)).result = .ok m) : m = n := by
  obtain ⟨s,hints,_,tree⟩ := ofSql_ok.mp built
  have valid := (ofStatement_wellFormed s hints n tree).1
  obtain ⟨t,fits,rfl⟩ := exists_listing (ofStatement_listed tree) valid unmarked bare named
  obtain ⟨f,shown,text⟩ := t.surface_node fits
  have lead : "SELECT * FROM ".toList = Piece.text [.word "SELECT",.space,.symbol .mul,.space,.word "FROM",.space] := rfl
  have written : ("SELECT * FROM " ++ t.node.text).toList = Piece.text (Part.before t.query) := by
    rw [Node.text,shown,String.toList_append,text,lead,Listing.query,Part.before_append,JoinSpec.kept_before,Part.text_append]
  exact Listing.query_only fits _ written again

theorem ofSql_again_quoted :
    let both : Node := .join { kind := .full } (.table "v" none) (.table "w" none) (usingOf ["x"])
    let n : Node := .join { kind := .comma } (.join { kind := .paste } (.table "d.\"a \"\", b\"" (some "u")) both none) (.table "y" none) none
    ((ofSql .clickHouse "select x from d.\"a \"\", b\" u paste join (v full join w using (`x`)), y").result = .ok n ∧
      n.conditions = [] ∧ n.IsUnmarked ∧ n.IsNamed .clickHouse) ∧
      n.text = "d.\"a \"\", b\" AS u PASTE JOIN (v FULL OUTER JOIN w USING (x)), y" ∧
      ∃ m, (ofSql .clickHouse ("SELECT * FROM " ++ n.text)).result = .ok m ∧ m = n := by
  intro both n
  have writable : ∀ v ∈ ["v","w","y","u","x"], Ident.IsWritable .clickHouse ⟨v,none⟩ := by decide +kernel
  have starts : ∀ v ∈ ["v","w","y"], (Ident.token ⟨v,none⟩).StartsTable := by decide +kernel
  have single (v : String) (member : v ∈ ["v","w","y"]) : IsTableName .clickHouse v := by
    refine ⟨⟨v,none⟩,[],by simp [ObjectName.text,ObjectName.ofIdents,NamePart.text,Ident.text],starts v member,?_⟩
    simpa using writable v ((List.sublist_append_left _ ["u","x"]).subset member)
  have quoted : IsTableName .clickHouse "d.\"a \"\", b\"" :=
    ⟨⟨"d",none⟩,[⟨"a \", b",some '"'⟩],by decide +kernel,by decide +kernel,by decide +kernel⟩
  have named : n.IsNamed .clickHouse := by
    have u (b : String) (same : some "u" = some b) : Ident.IsWritable .clickHouse ⟨b,none⟩ :=
      Option.some.inj same ▸ writable "u" (by decide)
    have columns : ∀ v ∈ usingColumns (usingOf ["x"]), Ident.IsWritable .clickHouse ⟨v,none⟩ := by
      rw [usingColumns_of]
      exact fun v member => writable v (by revert v; decide)
    have table (v : String) (member : v ∈ ["v","w","y"]) : (Node.table v none).IsNamed .clickHouse := ⟨single v member,fun a same => by cases same⟩
    have bare : ∀ v ∈ usingColumns none, Ident.IsWritable .clickHouse ⟨v,none⟩ := List.forall_mem_nil _
    exact ⟨⟨⟨quoted,u⟩,⟨table "v" (by decide),table "w" (by decide),columns⟩,bare⟩,table "y" (by decide),bare⟩
  have built : (ofSql .clickHouse "select x from d.\"a \"\", b\" u paste join (v full join w using (`x`)), y").result = .ok n := by
    decide +kernel
  have unmarked : n.IsUnmarked := by simp [n,both,IsUnmarked]
  have shown : n.text = "d.\"a \"\", b\" AS u PASTE JOIN (v FULL OUTER JOIN w USING (x)), y" := by decide +kernel
  have read : (ofSql .clickHouse ("SELECT * FROM " ++ n.text)).result.toBool = true := by decide +kernel
  obtain ⟨m,again⟩ := exists_ok read
  exact ⟨⟨built,rfl,unmarked,named⟩,shown,m,again,ofSql_again .clickHouse _ n m built rfl unmarked named again⟩

-- An alias that holds a comma is no longer one name in the text.
theorem comma_alias_split :
    let n : Node := .table "t" (some "a, b")
    let m : Node := .join { kind := .comma } (.table "t" (some "a")) (.table "b" none) none
    (ofSql .generic "SELECT * FROM t AS \"a, b\"").result = .ok n ∧ n.conditions = [] ∧ n.IsUnmarked ∧ n.text = "t AS a, b" ∧
      (ofSql .generic ("SELECT * FROM " ++ n.text)).result = .ok m ∧ m ≠ n := by
  intro n m
  exact ⟨by decide +kernel,rfl,trivial,by decide +kernel,by decide +kernel,nofun⟩

end Node

end JoinTree
