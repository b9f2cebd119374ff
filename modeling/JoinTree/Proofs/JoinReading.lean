import JoinTree.Proofs.Binding
import JoinTree.Sql.Grammar.Statement

/-!
What the grammar reads behind FROM: a table, the words of a join, another table, and a constraint.
-/

namespace JoinTree.Sql

namespace Reading

open Grammar (inside plainOperand)
open Sign (At Starts)

-- Columns with a table in front.

section
variable {rest : List Lexeme}

theorem outerMark_absent (place : Starts ss ws ls) (other : .lparen ∉ ss) : outerMarkAhead d ls = .ok (false,ls) := by
  have differs : (ls.take 3).map (·.token) ≠ outerMark := by
    cases place with
    | nil => simp [outerMark]
    | word v k _ token => simp [outerMark,token]
    | symbol s member token =>
      intro same
      simp only [outerMark,List.take_succ_cons,List.map_cons,token,List.cons.injEq,Token.symbol.injEq] at same
      exact other (same.1 ▸ member)
  simp only [outerMarkAhead,differs,decide_false,Bool.and_false]

theorem further_low (left : Expr) (low : BindingLevel.ahead g ls ≤ level) : further g level left ls = .ok (none,ls) := by
  simp only [further,bind_run,get_run,ok_bind,symbolAhead,token?,pure_run,low,decide_true,Bool.true_or,if_true]

-- A name in front of what is no part of it.
theorem name_read (l : Lexeme) (token : l.token = .word v none none) (place : At .behind rest)
    (low : BindingLevel.ahead (inside d n) rest ≤ level) :
    plainOperand d (n + 1) level (l :: rest) = .ok (.ident ⟨v,none⟩,rest) := by
  have path : pathFrom (inside d n) (l :: rest) (.ident ⟨v,none⟩) rest = .ok (.ident ⟨v,none⟩,rest) :=
    pathFrom_turns (.stop (pathStep_absent place (by decide))) (outerMark_absent place (by decide))
  rw [Grammar.plainOperand_succ,operandOf_run,start_name l token place (by decide),ok_bind,path,ok_bind,
    iterate_turns (.stop (further_low _ low))]

-- A name with another one in front.
theorem qualified_start (l p k : Lexeme) (first : l.token = .word q none none) (dot : p.token = .symbol .period)
    (second : k.token = .word v none none) (place : At .behind rest)
    (low : BindingLevel.ahead (inside d n) rest ≤ BindingLevel.path) :
    (start (inside d (n + 1)) (l :: p :: k :: rest) >>= fun first =>
      pathFrom (inside d (n + 1)) (l :: p :: k :: rest) first.1 first.2) =
      .ok (.compound [⟨q,none⟩,⟨v,none⟩],rest) := by
  have period : Starts [.period] [] (p :: k :: rest) := .symbol _ (by simp) dot
  have member : member (inside d (n + 1)) (k :: rest) = .ok ([.name ⟨v,none⟩],rest) := by
    have name := name_read k second place low
    rw [← Grammar.inside_operand] at name
    simp only [Reading.member,bind_run,name,ok_bind]
    rfl
  have step : pathStep (inside d (n + 1)) [] (p :: k :: rest) = .ok (some [.name ⟨v,none⟩],rest) := by
    have ahead : symbolAhead .period (p :: k :: rest) = .ok (true,p :: k :: rest) := by
      simp [symbolAhead,token?,bind_run,pure_run,ok_bind,dot]
    simp only [pathStep,bind_run,ahead,tokenAt?,ok_bind,if_true,List.getElem?_cons_succ,
      List.getElem?_cons_zero,Option.map_some,second]
    rw [if_neg (by simp)]
    simp only [bind_run,skip,token?,List.head?_cons,Option.map_some,second,List.tail_cons,ok_bind,attempt,member]
    rfl
  have stop : pathStep (inside d (n + 1)) [.name ⟨v,none⟩] rest = .ok (none,rest) := pathStep_absent place (by decide)
  rw [start_name l first period (by decide),ok_bind,
    pathFrom_turns (.step step (by simp only [List.length_cons]; omega) (.stop stop)) (outerMark_absent place (by decide))]
  rfl

theorem operandOf_first (first : (start g ls >>= fun f => pathFrom g ls f.1 f.2) = .ok (e,rest)) :
    operandOf g level ls = iterate (further g level) e rest := by
  rw [operandOf_run]
  cases started : start g ls with
  | error f =>
    rw [started] at first
    cases first
  | ok f =>
    rw [started,ok_bind] at first
    rw [ok_bind,first,ok_bind]

theorem qualified_read (l p k : Lexeme) (first : l.token = .word q none none) (dot : p.token = .symbol .period)
    (second : k.token = .word v none none) (place : At .behind rest)
    (done : BindingLevel.ahead (inside d (n + 1)) rest ≤ level)
    (low : BindingLevel.ahead (inside d n) rest ≤ BindingLevel.path) :
    plainOperand d (n + 2) level (l :: p :: k :: rest) = .ok (.compound [⟨q,none⟩,⟨v,none⟩],rest) := by
  have started := qualified_start l p k first dot second place low
  rw [Grammar.plainOperand_succ,operandOf_first started,iterate_turns (.stop (further_low _ done))]

-- The tokens of an equality of two columns.
def equalityTokens (q v q' v' : String) : List Token :=
  [.word q none none,.symbol .period,.word v none none,.symbol .eq,.word q' none none,.symbol .period,.word v' none none]

def equality (q v q' v' : String) : Expr := .binary (.compound [⟨q,none⟩,⟨v,none⟩]) .eq (.compound [⟨q',none⟩,⟨v',none⟩])

-- An equality in front of what binds nothing.
theorem equality_read (rest : List Lexeme) (shown : front.map (·.token) = equalityTokens q v q' v') (place : At .behind rest)
    (low : ∀ n, BindingLevel.ahead (inside d n) rest = 0) :
    plainOperand d (n + 3) 0 (front ++ rest) = .ok (equality q v q' v',rest) := by
  simp only [equalityTokens,List.map_eq_cons_iff,List.map_eq_nil_iff] at shown
  obtain ⟨a,_,rfl,first,p,_,rfl,dot,b,_,rfl,second,e,_,rfl,eq,a',_,rfl,first',p',_,rfl,dot',b',_,rfl,second',rfl⟩ := shown
  have sign : e.token = (Sign.op .eq).token := eq
  have left : At .behind (e :: a' :: p' :: b' :: rest) := .symbol .eq (by decide) eq
  have level (n : Nat) : BindingLevel.ahead (inside d n) (e :: a' :: p' :: b' :: rest) = BindingLevel.comparison := by
    simp only [BindingLevel.ahead,eq]
    rfl
  have started := qualified_start (n := n + 1) (d := d) a p b first dot second left (by rw [level]; decide)
  have right : plainOperand d (n + 2) BindingLevel.comparison (a' :: p' :: b' :: rest) =
      .ok (.compound [⟨q',none⟩,⟨v',none⟩],rest) :=
    qualified_read a' p' b' first' dot' second' place (by rw [low]; decide) (by rw [low]; decide)
  have operand : At .operand (a' :: p' :: b' :: rest) := .word q' none (by decide) first'
  have step : further (inside d (n + 2)) 0 (.compound [⟨q,none⟩,⟨v,none⟩]) (e :: a' :: p' :: b' :: rest) =
      .ok (some (equality q v q' v'),rest) := by
    have absent := at_symbolAhead (s := .period) left (by decide)
    have above : ¬ BindingLevel.comparison ≤ 0 := by decide
    simp only [further,bind_run,get_run,ok_bind,absent,level,above,decide_false,Bool.false_or,Bool.false_eq_true,if_false,
      operated_op _ e sign rfl operand,Grammar.inside_operand,right]
    rfl
  have turns : Climbs (inside d (n + 2)) 0 (.compound [⟨q,none⟩,⟨v,none⟩]) (e :: a' :: p' :: b' :: rest)
      (equality q v q' v') rest := .step step (by simp only [List.length_cons]; omega) (.stop (further_low _ (Nat.le_of_eq (low _))))
  rw [Grammar.plainOperand_succ]
  exact (operandOf_first started).trans (iterate_turns turns)

end

-- Names in ClickHouse texts.

-- What may stand behind a table and does not.

theorem pivoted_absent (place : Starts ss ws ls) (other : ws.all (!·.any [Keyword.PIVOT,.UNPIVOT].contains) = true)
    (t : TableFactor) : pivoted g t ls = .ok (t,ls) := by
  refine iterate_turns (.stop ?_)
  simp only [bind_run,at_oneOf? [.PIVOT,.UNPIVOT] place other,ok_bind]
  rfl

theorem sample_absent (place : Starts ss ws ls) (other : ws.all (!·.any [Keyword.TABLESAMPLE,.SAMPLE].contains) = true) :
    sample g ls = .ok ("",ls) := by
  simp only [sample,bind_run,at_oneOf? [.TABLESAMPLE,.SAMPLE] place other,ok_bind]
  rfl

section
variable {g : Grammar} {rest : List Lexeme} (house : g.dialect = .clickHouse)
include house

theorem objectName_single (l : Lexeme) (token : l.token = .word v none k) (place : Starts ss ws rest) (other : .period ∉ ss) :
    objectName g (l :: rest) = .ok (.ofIdents [⟨v,none⟩],rest) := by
  have part : objectName.part g [] (l :: rest) = .ok (.ident ⟨v,none⟩,rest) := by
    simp [objectName.part,house,Dialect.isSnowflake,generatesNames,symbolAhead,token?,ident,tokenOf,token,ofIdentToken,
      bind_run,map_run,ok_bind]
  simp only [objectName,objectName.go,bind_run,part,ok_bind,at_symbol? (s := .period) place other]
  rfl

-- The tokens of names with commas between them.
def columnTokens (vs : List String) : List Token := (vs.map fun v => .word v none none).intersperse (.symbol .comma)

theorem columns_read (vs : List String) (some : vs ≠ []) (shown : front.map (·.token) = columnTokens vs)
    (room : vs.length ≤ n + 1) (closing : r.token = .symbol .rparen) :
    separated.go (fun _ => false) (objectName g) n (front ++ r :: rest) =
      .ok (vs.map fun v => .ofIdents [⟨v,none⟩],r :: rest) := by
  induction vs generalizing front n with
  | nil => exact absurd rfl some
  | cons v vs ih =>
    cases vs with
    | nil =>
      simp only [columnTokens,List.map_cons,List.map_nil,List.intersperse_singleton,List.map_eq_cons_iff,
        List.map_eq_nil_iff] at shown
      obtain ⟨l,_,rfl,token,rfl⟩ := shown
      have end' : Starts [.rparen] [] (r :: rest) := .symbol _ (by simp) closing
      have name := objectName_single house l token end' (by decide)
      have last := at_symbol? (s := .comma) end' (by decide)
      cases n with
      | zero =>
        simp only [separated.go,map_run,List.singleton_append,name]
        rfl
      | succ n =>
        simp only [separated.go,bind_run,List.singleton_append,name,ok_bind,last]
        rfl
    | cons w vs =>
      simp only [columnTokens,List.map_cons,List.intersperse_cons_cons,List.map_eq_cons_iff] at shown
      obtain ⟨l,_,rfl,token,c,front,rfl,comma,shown⟩ := shown
      obtain ⟨n,rfl⟩ : ∃ m, n = m + 1 := ⟨n - 1,by simp at room; omega⟩
      have between : Starts [.comma] [] (c :: (front ++ r :: rest)) := .symbol _ (by simp) comma
      have name := objectName_single house l token between (by decide)
      have later := ih (by simp) shown (by simpa using room)
      have taken : symbol? .comma (c :: (front ++ r :: rest)) = .ok (true,front ++ r :: rest) := by simp [symbol?,comma]
      simp only [separated.go,bind_run,List.cons_append,name,ok_bind,taken]
      change (separated.go (fun _ => false) (objectName g) n (front ++ r :: rest) >>= _) = _
      rw [later]
      rfl

theorem columnList_read (vs : List String) (some : vs ≠ []) (opening : o.token = .symbol .lparen)
    (shown : front.map (·.token) = columnTokens vs) (closing : r.token = .symbol .rparen) :
    parenthesisedList (objectName g) (o :: (front ++ r :: rest)) = .ok (vs.map fun v => .ofIdents [⟨v,none⟩],rest) := by
  have size : vs.length ≤ (front ++ r :: rest).length := by
    have same := congrArg List.length shown
    simp only [columnTokens,List.length_map,List.length_intersperse] at same
    simp only [List.length_append,List.length_cons]
    omega
  have listed : list (objectName g) (front ++ r :: rest) = .ok (vs.map fun v => .ofIdents [⟨v,none⟩],r :: rest) :=
    columns_read house vs some shown (by omega) closing
  have ahead : symbolAhead .lparen (o :: (front ++ r :: rest)) = .ok (true,o :: (front ++ r :: rest)) := by
    simp [symbolAhead,token?,bind_run,pure_run,ok_bind,opening]
  simp only [parenthesisedList,bind_run,ahead,ok_bind,if_true,parenthesised,symbol_present o opening,listed,
    symbol_present r closing,pure_run]

-- What may stand behind a table: the first word of a join or of a constraint.
def behindTable : List (Option Keyword) :=
  [.GLOBAL,.INNER,.LEFT,.RIGHT,.FULL,.CROSS,.ASOF,.JOIN,.USING,.ON,.MATCH_CONDITION].map some

-- None of these words is an alias.
theorem tableAlias_absent (place : Starts [] behindTable rest) : tableAlias? g rest = .ok (none,rest) := by
  have name : alias? g.dialect.isTableAlias rest = .ok (none,rest) := by
    simp only [alias?,aliasUnless?,bind_run,at_keyword? (k := .AS) place (by decide),ok_bind]
    cases place with
    | nil => rfl
    | symbol s member => cases member
    | word v k member token =>
      have clause : ∀ k ∈ behindTable, ∃ j, k = some j ∧ j.isTableClause = true := by decide
      obtain ⟨j,rfl,clause⟩ := clause k member
      simp [token,house,Dialect.isTableAlias,Dialect.isSnowflake,clause]
  simp only [tableAlias?,bind_run,at_isAhead (k := .AS) place (by decide),ok_bind,name]
  rfl

theorem namedTable_read (l : Lexeme) (token : l.token = .word v none none) (place : Starts [] behindTable rest)
    (start : Location) :
    namedTable g start (l :: rest) = .ok (.table { name := .ofIdents [⟨v,none⟩], start := start },rest) := by
  have pattern (t : TableFactor) : rowMatched g t rest = .ok (t,rest) := by
    simp only [rowMatched,house]
    rfl
  have version : version g rest = .ok ("",rest) := by
    simp only [Reading.version,house]
    rfl
  have path : provided g.dialect.hasPathAccess (symbolAhead .lbracket) rest = .ok (false,rest) := by
    simp only [house]
    rfl
  have partition : provided g.dialect.isGeneric (keyword? .PARTITION) rest = .ok (false,rest) := by
    simp only [house]
    rfl
  simp only [namedTable,bind_run,objectName_single house l token place (by simp),ok_bind,path,partition,version,
    at_symbol? (s := .lparen) place (by simp),when?,at_keywords? (k := .WITH) place (by decide),
    tableAlias_absent house place,at_isAhead (k := .WITH) place (by decide),tokenAt?,
    sample_absent place (by decide),pure_run,Bool.false_eq_true,if_false,Bool.false_and,pivoted_absent place (by decide),pattern,
    String.append_empty]

theorem factor_read (l : Lexeme) (token : l.token = .word v none none) (place : Starts [] behindTable rest) :
    factorOf g (l :: rest) = .ok (.table { name := .ofIdents [⟨v,none⟩], start := l.start },rest) := by
  have free : Starts [] [none] (l :: rest) := .word v none (by simp) token
  have start : place? (l :: rest) = .ok (some l.start,l :: rest) := rfl
  have call : (l :: rest)[1]?.map (·.token) ≠ some (.symbol .lparen) := by
    cases place with
    | nil => simp
    | symbol s member => cases member
    | word v k _ token => simp [token]
  have function : tableFunction? g (l :: rest) = .ok (none,l :: rest) := by
    simp only [tableFunction?,bind_run,tokenAt?,ok_bind]
    rw [if_pos call]
    rfl
  have unnested : provided g.dialect.isGeneric (keyword? .UNNEST) (l :: rest) = .ok (false,l :: rest) := by
    simp only [house]
    rfl
  have values : g.dialect.hasBareValuesTable = false := by
    simp only [house]
    rfl
  simp only [factorOf,bind_run,start,ok_bind,at_keyword? (k := .LATERAL) free (by decide),Bool.false_eq_true,if_false,
    at_keyword? (k := .TABLE) free (by decide),at_symbol? (s := .lparen) free (by simp),values,
    at_isAhead (k := .VALUES) free (by decide),tokenAt?,Bool.false_and,unnested,function,
    at_symbolAhead (s := .atSign) free (by simp),namedTable_read house l token place,Option.getD_some]

end

-- The words of a join, and what they stand for.
def joinForms : List (List Keyword × JoinForm) := [
  ([.CROSS,.JOIN],.unconstrained .cross),([.ASOF,.JOIN],.asOf),([.JOIN],.constrained .join false),
  ([.INNER,.JOIN],.constrained .inner false),([.FULL,.OUTER,.JOIN],.constrained .fullOuter false),
  ([.LEFT,.JOIN],.constrained .left false),([.LEFT,.SEMI,.JOIN],.constrained .leftSemi false),
  ([.LEFT,.ANTI,.JOIN],.constrained .leftAnti false),([.RIGHT,.JOIN],.constrained .right false),
  ([.RIGHT,.SEMI,.JOIN],.constrained .rightSemi false),([.RIGHT,.ANTI,.JOIN],.constrained .rightAnti false)]

theorem joinForm_read (rest : List Lexeme) (known : (ks,form) ∈ joinForms) (shown : front.map (·.token.keyword?) = ks.map some) :
    joinForm? (front ++ rest) = .ok (some form,rest) := by
  simp only [joinForms,List.mem_cons,Prod.mk.injEq,List.not_mem_nil,or_false] at known
  rcases known with ⟨rfl,rfl⟩ | ⟨rfl,rfl⟩ | ⟨rfl,rfl⟩ | ⟨rfl,rfl⟩ | ⟨rfl,rfl⟩ | ⟨rfl,rfl⟩ | ⟨rfl,rfl⟩ | ⟨rfl,rfl⟩ |
    ⟨rfl,rfl⟩ | ⟨rfl,rfl⟩ | ⟨rfl,rfl⟩
  all_goals
    rcases front with _ | ⟨a,_ | ⟨b,_ | ⟨c,_ | ⟨e,front⟩⟩⟩⟩ <;>
      simp only [List.map_cons,List.map_nil,List.cons.injEq,reduceCtorEq,and_false,and_true] at shown
    simp [joinForm?,sided,keyword,keyword?,oneOf?,ahead?,skip,bind_run,map_run,ok_bind,pure_run,shown]

section
variable {n : Nat} {l : Lexeme}

-- A table by its bare name.
def tableAt (l : Lexeme) (v : String) : TableFactor := .table { name := .ofIdents [⟨v,none⟩], start := l.start }

theorem table_read (token : l.token = .word v none none) (place : Starts [] behindTable rest) :
    (inside .clickHouse (n + 1)).factor (l :: rest) = .ok (tableAt l v,rest) := by
  have read := factor_read (Grammar.inside_dialect .clickHouse n) l token place
  exact read

theorem joinsWithin_nil (g : Grammar) (m : Nat) : joinsWithin g m [] = .ok ([],[]) := by
  cases m <;> rfl

theorem constraint_nil (g : Grammar) : constraint g false [] = .ok (.none,[]) := rfl

def globalWords (global : Bool) : List Keyword := if global then [.GLOBAL] else []

-- GLOBAL is read apart from the other words.
theorem global_read (rest : List Lexeme) (global : Bool) (known : (ks,form) ∈ joinForms)
    (shown : front.map (·.token.keyword?) = (globalWords global ++ ks).map some) :
    ∃ words, keyword? .GLOBAL (front ++ rest) = .ok (global,words ++ rest) ∧
      words.map (·.token.keyword?) = ks.map some ∧ front ≠ [] := by
  have opening : ∀ p ∈ joinForms, ∃ k ks, p.1 = k :: ks ∧ k ≠ .GLOBAL := by
    intro p member
    simp only [joinForms,List.mem_cons,List.not_mem_nil,or_false] at member
    rcases member with rfl | rfl | rfl | rfl | rfl | rfl | rfl | rfl | rfl | rfl | rfl <;> exact ⟨_,_,rfl,by decide⟩
  obtain ⟨k,more,same,other⟩ := opening _ known
  cases same
  cases global with
  | true =>
    simp only [globalWords,if_true,List.cons_append,List.nil_append,List.map_cons,List.map_eq_cons_iff] at shown
    obtain ⟨a,words,rfl,first,rest⟩ := shown
    exact ⟨words,by simp [keyword?,first],by simpa [List.map_eq_cons_iff] using rest,by simp⟩
  | false =>
    simp only [globalWords,Bool.false_eq_true,if_false,List.nil_append] at shown
    refine ⟨front,?_,shown,?_⟩
    · simp only [List.map_cons,List.map_eq_cons_iff] at shown
      obtain ⟨a,words,rfl,first,_⟩ := shown
      simp [keyword?,first,other]
    · rintro rfl
      cases shown

-- What is read of a join behind its right table.
def joinBehind (g : Grammar) (global : Bool) (relation : TableFactor) : JoinForm → Reading Join
  | .unconstrained op => pure (.mk ⟨global,op,.none⟩ relation)
  | .asOf => do
    keyword .MATCH_CONDITION
    let condition ← parenthesised g.expr
    pure (.mk ⟨global,.asOf condition,← constraint g false⟩ relation)
  | .constrained op natural => do pure (.mk ⟨global,op,← constraint g natural⟩ relation)

-- A text that ends with a join.
theorem joins_read (global : Bool) (known : (ks,form) ∈ joinForms)
    (shown : front.map (·.token.keyword?) = (globalWords global ++ ks).map some)
    (token : l.token = .word v none none) (place : Starts [] behindTable rest)
    (behind : joinBehind (inside .clickHouse (n + 1)) global (tableAt l v) form rest = .ok (j,[])) :
    joins (inside .clickHouse (n + 1)) (front ++ l :: rest) = .ok ([j],[]) := by
  obtain ⟨words,opening,shown,some⟩ := global_read (l :: rest) global known shown
  obtain ⟨m,size⟩ : ∃ m, (front ++ l :: rest).length = m + 1 := ⟨front.length + rest.length,by simp; omega⟩
  have relation := table_read (n := n) token place
  have form' := joinForm_read (l :: rest) known shown
  have leftToRight : (!(inside .clickHouse (n + 1)).dialect.joinsLeftToRight) = false := by
    rw [Grammar.inside_dialect]
    rfl
  have done := joinsWithin_nil (inside .clickHouse (n + 1)) m
  rw [joins,size,joinsWithin]
  simp only [bind_run,opening,ok_bind,form',relation]
  have whole (p : Reading Join) (read : p rest = .ok (j,[])) :
      (p >>= fun join => do return join :: (← joinsWithin (inside .clickHouse (n + 1)) m)) rest = .ok ([j],[]) := by
    simp only [bind_run,read,ok_bind,done]
    rfl
  cases form with
  | unconstrained op => exact whole _ behind
  | asOf => simpa only [joinBehind,bind_assoc,pure_bind] using whole _ behind
  | constrained op natural =>
    simp only [provided,leftToRight,Bool.false_eq_true,if_false,pure_bind]
    simpa only [joinBehind,bind_assoc,pure_bind] using whole _ behind

-- Constraints at the end of a text.

theorem using_read (vs : List String) (some : vs ≠ []) (u o r : Lexeme) (word : u.token.keyword? = .some .USING)
    (opening : o.token = .symbol .lparen) (shown : front.map (·.token) = columnTokens vs)
    (closing : r.token = .symbol .rparen) :
    constraint (inside .clickHouse n) false (u :: o :: (front ++ [r])) =
      .ok (.using (vs.map fun v => .ofIdents [⟨v,none⟩]),[]) := by
  have house : (inside .clickHouse n).dialect = .clickHouse := Grammar.inside_dialect .clickHouse n
  have on : keyword? .ON (u :: o :: (front ++ [r])) = .ok (false,u :: o :: (front ++ [r])) := by simp [keyword?,word]
  have here : keyword? .USING (u :: o :: (front ++ [r])) = .ok (true,o :: (front ++ [r])) := by simp [keyword?,word]
  simp only [constraint,bind_run,Bool.false_eq_true,if_false,on,ok_bind,here,if_true,
    columnList_read house vs some opening shown closing,pure_run]

theorem on_read (w : Lexeme) (word : w.token.keyword? = some .ON) (shown : front.map (·.token) = equalityTokens q v q' v') :
    constraint (inside .clickHouse (n + 3)) false (w :: front) = .ok (.on (equality q v q' v'),[]) := by
  have here : keyword? .ON (w :: front) = .ok (true,front) := by simp [keyword?,word]
  have read := equality_read (d := .clickHouse) (n := n) [] shown .nil fun _ => rfl
  rw [List.append_nil] at read
  have expr : (inside .clickHouse (n + 3)).expr front = .ok (equality q v q' v',[]) := read
  simp only [constraint,bind_run,Bool.false_eq_true,if_false,here,ok_bind,if_true,expr,pure_run]

theorem matched_read (w o r : Lexeme) (word : w.token.keyword? = some .MATCH_CONDITION) (opening : o.token = .symbol .lparen)
    (shown : front.map (·.token) = equalityTokens q v q' v') (closing : r.token = .symbol .rparen) :
    joinBehind (inside .clickHouse (n + 3)) global relation .asOf (w :: o :: (front ++ [r])) =
      .ok (.mk ⟨global,.asOf (equality q v q' v'),.none⟩ relation,[]) := by
  have here : keyword .MATCH_CONDITION (w :: o :: (front ++ [r])) = .ok ((),o :: (front ++ [r])) := by
    simp [keyword,keyword?,bind_run,ok_bind,pure_run,word]
  have end' : At .behind [r] := .symbol .rparen (by decide) closing
  have read := equality_read (d := .clickHouse) (n := n) [r] shown end' fun _ => by
    simp only [BindingLevel.ahead,closing]
    rfl
  have expr : (inside .clickHouse (n + 3)).expr (front ++ [r]) = .ok (equality q v q' v',[r]) := read
  simp only [joinBehind,parenthesised,bind_run,here,ok_bind,symbol_present o opening,expr,symbol_present r closing,
    constraint_nil,pure_run]

-- A query around the join.

theorem separated_single (closes : List Lexeme → Bool) (item : Reading α) (read : item ls = .ok (a,[])) :
    separated closes item ls = .ok ([a],[]) := by
  unfold separated
  cases ls.length with
  | zero =>
    simp only [separated.go,map_run,read,ok_bind]
    rfl
  | succ m =>
    simp only [separated.go,bind_run,read,ok_bind]
    rfl

theorem entry_read (t : Lexeme) (token : t.token = .word v none none) (place : Starts [] behindTable rest)
    (joined : joins (inside .clickHouse (n + 1)) rest = .ok (js,[])) :
    fromList (inside .clickHouse (n + 1)) (t :: rest) = .ok ([⟨tableAt t v,js⟩],[]) := by
  have relation := table_read (n := n) token place
  refine separated_single _ _ ?_
  simp only [entry,bind_run,relation,ok_bind,joined,pure_run]

theorem clauses_nil (g : Grammar) : clauses g [] = .ok ("",[]) := by
  simp only [clauses,bind_run]
  cases g.dialect.isSnowflake <;> rfl

-- The star that stands for all columns.
theorem projection_star (g : Grammar) (m : Lexeme) (star : m.token = .symbol .mul) (place : Starts [] [some .FROM] rest) :
    projection g (m :: rest) = .ok ("*",rest) := by
  have whole : exprOrStar g (m :: rest) = .ok (.argument "*",rest) := by
    cases m
    cases star
    rfl
  have mul : Starts [.mul] [] (m :: rest) := .symbol _ (by simp) star
  have except : provided (!g.dialect.isSnowflake) (keyword? .EXCEPT) rest = .ok (false,rest) :=
    provided_absent (at_keyword? place (by decide))
  have like : like g.dialect rest = .ok ("",rest) := by
    simp only [Reading.like,bind_run,provided_absent (at_keyword? (k := .ILIKE) place (by decide)),ok_bind]
    rfl
  have absent (k : Keyword) (p : Reading String) (other : k ≠ .FROM) : textAfter k p rest = .ok ("",rest) := by
    have words : keywords? [k] rest = .ok (false,rest) := at_keywords? place (by simpa using other)
    simp only [textAfter,clause,bind_run,words,ok_bind]
    rfl
  have options : starOptions g rest = .ok ("",rest) := by
    simp only [starOptions,bind_run,like,ok_bind]
    cases g.dialect.isClickHouse <;>
      simp only [Bool.not_true,Bool.not_false,Bool.false_and,Bool.true_and,decide_true,Bool.false_eq_true,if_false,if_true,
        pure_run,ok_bind,bind_run,except,at_keyword? (k := .REPLACE) place (by decide),absent .EXCLUDE _ (by decide),
        absent .RENAME _ (by decide)] <;> rfl
  have rooted : provided g.dialect.isSnowflake (keyword? .CONNECT_BY_ROOT) (m :: rest) = .ok (false,m :: rest) :=
    provided_absent (at_keyword? mul (by simp))
  have item : selectItem g (m :: rest) = .ok ("*",rest) := by
    simp only [selectItem,bind_run,rooted,ok_bind,whole,options,pure_run,String.append_empty]
  have items (closes : List Lexeme → Bool) : separated closes (selectItem g) (m :: rest) = .ok (["*"],rest) := by
    simp only [separated,List.length_cons,separated.go,bind_run,item,ok_bind,at_symbol? (s := .comma) place (by simp)]
    rfl
  simp only [projection,bind_run,items,ok_bind]
  rfl

-- A reading that fails where another one does, and that ends the text where the other one does. `link` tells what it
-- makes of what the other one reads.
structure HingesOn (outer : Except SyntaxError (α × List Lexeme)) (inner : Except SyntaxError (β × List Lexeme))
    (link : β → α → Prop) : Prop where
  failed : inner = .error e → outer = .error e
  done : inner = .ok (b,[]) → ∃ a, outer = .ok (a,[]) ∧ link b a

theorem HingesOn.trans (first : HingesOn a b link) (second : HingesOn b c link') :
    HingesOn a c fun z x => ∃ y, link' z y ∧ link y x := by
  refine ⟨fun failed => first.failed (second.failed failed),fun done => ?_⟩
  obtain ⟨y,done,made⟩ := second.done done
  obtain ⟨x,done,made'⟩ := first.done done
  exact ⟨x,done,y,made,made'⟩

theorem select_hinges (g : Grammar) (s m f : Lexeme) (rest : List Lexeme) (select : s.token = .word "SELECT" none (some .SELECT))
    (star : m.token = .symbol .mul) (source : f.token = .word "FROM" none (some .FROM)) :
    HingesOn (Reading.select g (s :: m :: f :: rest)) (fromList g rest) fun es selected => selected.entries = es := by
  have start : Starts [] [some .SELECT] (s :: m :: f :: rest) := .word _ _ (by simp) select
  have first : provided g.dialect.hasFromFirst (keyword? .FROM) (s :: m :: f :: rest) = .ok (false,s :: m :: f :: rest) :=
    provided_absent (at_keyword? start (by simp))
  have word : keyword .SELECT (s :: m :: f :: rest) = .ok ((),m :: f :: rest) := by
    simp [keyword,keyword?,select,Token.keyword?,bind_run,ok_bind,pure_run]
  have mul : Starts [.mul] [] (m :: f :: rest) := .symbol _ (by simp) star
  have distinct : distinct g (m :: f :: rest) = .ok ("",m :: f :: rest) := by
    simp only [Reading.distinct,bind_run,place?,ok_bind,at_keyword? (k := .ALL) mul (by simp),Bool.false_eq_true,if_false,
      at_keyword? (k := .DISTINCT) mul (by simp)]
    rfl
  have top : top g (m :: f :: rest) = .ok ("",m :: f :: rest) := by
    simp only [Reading.top,bind_run,ok_bind,at_keyword? (k := .TOP) mul (by simp)]
    rfl
  have from' : Starts [] [some .FROM] (f :: rest) := .word _ _ (by simp) source
  have items : projection g (m :: f :: rest) = .ok ("*",f :: rest) := projection_star _ m star from'
  have into : textAfter .INTO (intoTable g) (f :: rest) = .ok ("",f :: rest) := by
    simp only [textAfter,clause,bind_run,at_keywords? (k := .INTO) from' (by simp),ok_bind]
    rfl
  have word' : keyword? .FROM (f :: rest) = .ok (true,rest) := by
    simp [keyword?,source,Token.keyword?]
  have empty : provided g.dialect.hasEmptyProjection (isAhead .FROM) (m :: f :: rest) = .ok (false,m :: f :: rest) :=
    provided_absent (at_isAhead mul (by simp))
  constructor
  · intro e failed
    simp only [Reading.select,bind_run,place?,ok_bind,first,Bool.false_eq_true,if_false,pure_run,next?,word,distinct,top,
      empty,items,into,word',if_true,failed,error_bind]
  · intro es done
    simp only [Reading.select,bind_run,place?,ok_bind,first,Bool.false_eq_true,if_false,pure_run,next?,word,distinct,top,
      empty,items,into,word',if_true,done,clauses_nil]
    exact ⟨_,rfl,rfl⟩

theorem query_nil (g : Grammar) :
    order g [] = .ok ("",[]) ∧ limit g [] = .ok ("",[]) ∧ settings? g [] = .ok (none,[]) ∧ fetch [] = .ok ("",[]) ∧
      forClauses g [] = .ok ("",[]) ∧
      format g.dialect [] = .ok ("",[]) ∧ pipeSteps g [] = .ok ("",[]) := by
  refine ⟨rfl,rfl,?_,rfl,rfl,?_,?_⟩
  all_goals
    simp only [settings?,format,pipeSteps]
    cases g.dialect <;> rfl

theorem queryOf_hinges (g : Grammar) (l : Lexeme) (rest : List Lexeme) (word : l.token = .word "SELECT" none (some .SELECT)) :
    HingesOn (queryOf g (l :: rest)) (select g (l :: rest)) fun selected q => q.body = .select selected.entries := by
  have start : Starts [] [some .SELECT] (l :: rest) := .word _ _ (by simp) word
  have tables : commonTables g (l :: rest) = .ok ("",l :: rest) := by
    simp only [commonTables,bind_run,at_keyword? (k := .WITH) start (by simp),ok_bind]
    rfl
  have change : change? g (l :: rest) = .ok (none,l :: rest) := by
    simp only [change?,bind_run,next?,ok_bind,List.head?_cons,word,Token.keyword?]
    rfl
  have body : bodyStart g (l :: rest) = (select g (l :: rest) >>= fun s => .ok (⟨s.1.text,s.1.start,.select s.1.entries⟩,s.2)) := by
    simp only [bodyStart,bind_run,isAhead,ahead?,List.head?_cons,Option.bind_some,word,Token.keyword?,ok_bind,pure_run,
      decide_true,Bool.true_or,if_true]
  constructor
  · intro e failed
    rw [failed,error_bind] at body
    simp only [queryOf,bind_run,place?,ok_bind,tables,queryOf.bodyAndRest,change,bodyAt,body,error_bind]
  · intro selected done
    rw [done,ok_bind] at body
    have whole : bodyAt g 2 0 (l :: rest) = .ok (⟨selected.text,selected.start,.select selected.entries⟩,[]) := by
      simp only [bodyAt,bind_run,body,ok_bind]
      rfl
    obtain ⟨order,limit,settings,fetch,forClauses,format,steps⟩ := query_nil g
    have rest (at' : Option Location) : queryOf.bodyAndRest g at' (l :: rest) =
        .ok ((⟨selected.text,selected.start,.select selected.entries⟩,""),[]) := by
      simp only [queryOf.bodyAndRest,bind_run,change,ok_bind,whole,order,limit,settings,fetch,forClauses,format,steps]
      rfl
    simp only [queryOf,bind_run,place?,ok_bind,tables,rest]
    exact ⟨_,rfl,rfl⟩

theorem statementAt_hinges (d : Dialect) (n : Nat) (l : Lexeme) (rest : List Lexeme)
    (word : l.token = .word "SELECT" none (some .SELECT)) :
    HingesOn (statementAt d (n + 2) (l :: rest)) (queryOf (inside d n) (l :: rest)) fun q s => s = .query q := by
  have stated : statementAt d (n + 2) (l :: rest) = (queryOf (inside d n) (l :: rest) >>= fun r => .ok (.query r.1,r.2)) := by
    simp only [statementAt,statementOf,bind_run,token?,List.head?_cons,Option.map_some,word,ok_bind]
    rw [if_pos (by decide)]
    rfl
  constructor
  · intro e failed
    rw [stated,failed,error_bind]
  · intro q done
    rw [stated,done,ok_bind]
    exact ⟨_,rfl,rfl⟩

theorem statements_hinges (statement : Reading Statement) (l : Lexeme) (rest : List Lexeme)
    (word : l.token = .word "SELECT" none (some .SELECT)) :
    HingesOn (statements statement (l :: rest)) (statement (l :: rest)) fun s ss => ss = [s] := by
  have start : Starts [] [some .SELECT] (l :: rest) := .word _ _ (by simp) word
  have first : semicolons (l :: rest) = .ok (false,l :: rest) := by
    refine iterate_turns (.stop ?_)
    simp only [bind_run,at_symbol? (s := .semicolon) start (by simp),ok_bind]
    rfl
  constructor
  · intro e failed
    simp only [statements,List.length_cons,statementsWithin,bind_run,first,ok_bind,token?,List.head?_cons,Option.map_some,
      Bool.false_and,Bool.false_eq_true,if_false,failed,error_bind]
  · intro s done
    simp only [statements,List.length_cons,statementsWithin,bind_run,first,ok_bind,token?,List.head?_cons,Option.map_some,
      Bool.false_and,Bool.false_eq_true,if_false,done]
    exact ⟨_,rfl,rfl⟩

-- The text of a query for all columns is read as far as its FROM clause is.
theorem statements_from (d : Dialect) (n : Nat) (s m f : Lexeme) (rest : List Lexeme)
    (select : s.token = .word "SELECT" none (some .SELECT)) (star : m.token = .symbol .mul)
    (source : f.token = .word "FROM" none (some .FROM)) :
    HingesOn (statements (statementAt d (n + 2)) (s :: m :: f :: rest)) (fromList (inside d n) rest)
      fun es ss => ∃ q, ss = [.query q] ∧ q.body = .select es := by
  have whole := (statements_hinges (statementAt d (n + 2)) s (m :: f :: rest) select).trans
    ((statementAt_hinges d n s (m :: f :: rest) select).trans
      ((queryOf_hinges (inside d n) s (m :: f :: rest) select).trans (select_hinges (inside d n) s m f rest select star source)))
  refine ⟨whole.failed,fun done => ?_⟩
  obtain ⟨ss,done,_,⟨q,⟨selected,rfl,body⟩,rfl⟩,rfl⟩ := whole.done done
  exact ⟨_,done,q,rfl,body⟩

end

end Reading

end JoinTree.Sql
