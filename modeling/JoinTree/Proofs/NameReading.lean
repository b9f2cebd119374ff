import JoinTree.Proofs.JoinChain

/-!
What the grammar makes of names, in every dialect. Main statement: where a table of dotted names is read at all, it is the
table of these names with this alias, and what stands behind it is left.
-/

namespace JoinTree.Sql

namespace Reading

open Grammar (inside)
open Sign (Starts)
open Token (nameTokens aliasTokens listedTokens usingTokens)

-- What may stand behind a table: the first word of a join, or of its USING list.
def behindName : List (Option Keyword) := [.INNER,.LEFT,.RIGHT,.FULL,.CROSS,.USING].map some

theorem starts_more {ls : List Lexeme} (place : Starts ss ws ls) (symbols : ss ⊆ ss') (words : ws ⊆ ws') : Starts ss' ws' ls := by
  cases place with
  | nil => exact .nil
  | symbol s member token => exact .symbol s (symbols member) token
  | word v k member token => exact .word v k (words member) token

theorem starts_other {ls : List Lexeme} (place : Starts ss ws ls) (other : s ∉ ss) : ls.head?.map (·.token) ≠ some (.symbol s) := by
  cases place with
  | nil => simp
  | word v k _ token => simp [token]
  | symbol s' member token =>
    intro same
    rw [List.head?_cons,Option.map_some,token] at same
    cases same
    exact other member

-- Names.

theorem ident_read {i : Ident} (token : l.token = i.token) (rest : List Lexeme) : ident (l :: rest) = .ok (i,rest) := by
  obtain ⟨k,word⟩ := i.token_word
  simp [ident,tokenOf,token,word,ofIdentToken]

theorem part_read {g : Grammar} {i : Ident} (token : l.token = i.token) (place : Starts ss ws rest) (other : .lparen ∉ ss)
    (read : objectName.part g before (l :: rest) = .ok (p,behind)) : p = .ident i ∧ behind = rest := by
  obtain ⟨k,word⟩ := i.token_word
  have ahead : symbolAhead .period (l :: rest) = .ok (false,l :: rest) := by
    simp [symbolAhead,token?,bind_run,ok_bind,pure_run,token,word]
  simp only [objectName.part,bind_run,ahead,ok_bind,Bool.and_false,Bool.false_eq_true,if_false,ident_read token] at read
  split at read
  · simp only [bind_run,parenthesised,symbol,at_symbol? place other,ok_bind] at read
    cases read
  · cases read
    exact ⟨rfl,rfl⟩

theorem parts_read {g : Grammar} (is : List Ident) (some : is ≠ []) (shown : front.map (·.token) = nameTokens is)
    (place : Starts ss ws rest) (other : .period ∉ ss ∧ .lparen ∉ ss) (room : is.length ≤ n)
    (read : objectName.go g n parts (front ++ rest) = .ok (name,behind)) :
    name = ⟨parts ++ is.map .ident⟩ ∧ behind = rest := by
  induction is generalizing front n parts with
  | nil => exact absurd rfl some
  | cons i is ih =>
    obtain ⟨n,rfl⟩ : ∃ m, n = m + 1 := ⟨n - 1,by simp at room; omega⟩
    cases is with
    | nil =>
      simp only [nameTokens,List.map_cons,List.map_nil,List.intersperse_singleton,List.map_eq_cons_iff,List.map_eq_nil_iff] at shown
      obtain ⟨l,_,rfl,token,rfl⟩ := shown
      rw [objectName.go,bind_run] at read
      obtain ⟨⟨p,mid⟩,first,later⟩ := bind_ok.mp read
      obtain ⟨rfl,rfl⟩ := part_read token place other.2 first
      simp only [bind_run,at_symbol? place other.1,ok_bind,Bool.false_eq_true,if_false] at later
      cases later
      exact ⟨rfl,rfl⟩
    | cons j is =>
      simp only [nameTokens,List.map_cons,List.intersperse_cons_cons,List.map_eq_cons_iff] at shown
      obtain ⟨l,_,rfl,token,dot,front,rfl,period,shown⟩ := shown
      rw [objectName.go,bind_run] at read
      obtain ⟨⟨p,mid⟩,first,later⟩ := bind_ok.mp read
      have between : Starts [.period] [] (dot :: (front ++ rest)) := .symbol _ (by simp) period
      obtain ⟨rfl,rfl⟩ := part_read token between (by decide) first
      have taken : symbol? .period (dot :: (front ++ rest)) = .ok (true,front ++ rest) := by simp [symbol?,period]
      simp only [bind_run,taken,ok_bind,if_true] at later
      obtain ⟨rfl,rfl⟩ := ih (by simp) (by simpa [nameTokens] using shown) (by simpa using room) later
      exact ⟨by simp,rfl⟩

theorem objectName_only {g : Grammar} (is : List Ident) (some : is ≠ []) (shown : front.map (·.token) = nameTokens is)
    (place : Starts ss ws rest) (other : .period ∉ ss ∧ .lparen ∉ ss)
    (read : objectName g (front ++ rest) = .ok (name,behind)) : name = .ofIdents is ∧ behind = rest := by
  have size : is.length ≤ (front ++ rest).length + 1 := by
    have same := congrArg List.length shown
    simp only [nameTokens,List.length_map,List.length_intersperse] at same
    simp only [List.length_append]
    omega
  have all := parts_read is some shown place other size read
  simpa [ObjectName.ofIdents] using all

-- Aliases.

theorem tableAlias_none {g : Grammar} (place : Starts [.comma,.rparen] behindName rest) : tableAlias? g rest = .ok (none,rest) := by
  have name : alias? g.dialect.isTableAlias rest = .ok (none,rest) := by
    simp only [alias?,aliasUnless?,bind_run,at_keyword? (k := .AS) place (by decide),ok_bind]
    cases place with
    | nil => rfl
    | symbol s member token => simp [token]
    | word v k member token =>
      have clause : ∀ k ∈ behindName, ∃ j, k = some j ∧ ∀ d : Dialect, ∀ rest, d.isTableAlias j rest = false := by
        intro k member
        simp only [behindName,List.map_cons,List.map_nil,List.mem_cons,List.not_mem_nil,or_false] at member
        rcases member with rfl | rfl | rfl | rfl | rfl | rfl <;> exact ⟨_,rfl,fun d rest => by cases d <;> rfl⟩
      obtain ⟨j,rfl,clause⟩ := clause k member
      simp [token,clause]
  simp only [tableAlias?,bind_run,at_isAhead (k := .AS) place (by decide),ok_bind,name]
  rfl

theorem tableAlias_read {g : Grammar} (shown : front.map (·.token) = aliasTokens asName)
    (place : Starts [.comma,.rparen] behindName rest) :
    tableAlias? g (front ++ rest) = .ok (asName.map fun a => ⟨⟨a,none⟩,true,[]⟩,rest) := by
  cases asName with
  | none =>
    rw [List.map_eq_nil_iff.mp shown]
    exact tableAlias_none place
  | some a =>
    simp only [aliasTokens,List.map_eq_cons_iff,List.map_eq_nil_iff] at shown
    obtain ⟨w,_,rfl,word,l,_,rfl,token,rfl⟩ := shown
    obtain ⟨k,called⟩ := (⟨a,none⟩ : Ident).token_word
    have here : isAhead .AS (w :: l :: rest) = .ok (true,w :: l :: rest) := by
      simp [isAhead,ahead?,bind_run,ok_bind,pure_run,word,Token.keyword?]
    have taken : keyword? .AS (w :: l :: rest) = .ok (true,l :: rest) := by simp [keyword?,word,Token.keyword?]
    have name : alias? g.dialect.isTableAlias (w :: l :: rest) = .ok (some ⟨a,none⟩,rest) := by
      simp only [alias?,aliasUnless?,bind_run,taken,ok_bind,token,called]
      simp
    have columns : aliasColumns g rest = .ok ([],rest) := by
      simp only [aliasColumns,bind_run,at_symbolAhead (s := .lparen) place (by decide),ok_bind]
      rfl
    simp only [List.cons_append,List.nil_append,tableAlias?,bind_run,here,ok_bind,name,columns]
    rfl

-- Tables.

theorem alias_starts (shown : front.map (·.token) = aliasTokens asName) (place : Starts [.comma,.rparen] behindName rest) :
    Starts [.comma,.rparen] (some .AS :: behindName) (front ++ rest) := by
  cases asName with
  | none =>
    rw [List.map_eq_nil_iff.mp shown]
    exact starts_more place (by simp) (by simp)
  | some a =>
    simp only [aliasTokens,List.map_eq_cons_iff,List.map_eq_nil_iff] at shown
    obtain ⟨w,_,rfl,word,_⟩ := shown
    exact .word _ _ (by simp) word

def namedTableAt (start : Location) (is : List Ident) (asName : Option String) : TableFactor :=
  .table { name := .ofIdents is, start, asName := asName.map fun a => ⟨⟨a,none⟩,true,[]⟩ }

section
variable {g : Grammar} {is : List Ident} {asName : Option String} {front called rest behind : List Lexeme} {t : TableFactor}
variable (some : is ≠ []) (shown : front.map (·.token) = nameTokens is) (given : called.map (·.token) = aliasTokens asName)
variable (place : Starts [.comma,.rparen] behindName rest)
include some shown given place

theorem namedTable_only (start : Location) (read : namedTable g start (front ++ (called ++ rest)) = .ok (t,behind)) :
    t = namedTableAt start is asName ∧ behind = rest := by
  have opening := alias_starts given place
  have pattern (t : TableFactor) : rowMatched g t rest = .ok (t,rest) := by
    simp only [rowMatched,bind_run,provided_absent (at_keyword? (k := .MATCH_RECOGNIZE) place (by decide)),ok_bind]
    rfl
  have version : version g (called ++ rest) = .ok ("",called ++ rest) := by
    rw [Reading.version]
    cases g.dialect.isSnowflake with
    | false => rfl
    | true =>
      simp only [Bool.not_true,Bool.false_eq_true,if_false,bind_run,at_keywords? (k := .FOR) opening (by decide),
        at_anyAhead [.AT,.BEFORE] opening (by decide),ok_bind]
      rfl
  rw [namedTable,bind_run] at read
  obtain ⟨⟨name,mid⟩,named,later⟩ := bind_ok.mp read
  obtain ⟨rfl,rfl⟩ := objectName_only is some shown opening (by decide) named
  simp only [bind_run,provided_absent (at_symbolAhead (s := .lbracket) opening (by decide)),ok_bind,Bool.false_eq_true,if_false,
    pure_run,provided_absent (at_keyword? (k := .PARTITION) opening (by decide)),version,
    at_symbol? (s := .lparen) opening (by decide),when?,at_keywords? (k := .WITH) opening (by decide),
    tableAlias_read given place,at_isAhead (k := .WITH) place (by decide),tokenAt?,Bool.false_and,
    sample_absent place (by decide),pivoted_absent place (by decide),pattern,String.append_empty] at later
  cases later
  exact ⟨rfl,rfl⟩

end

-- A table where a table expression is looked for.

-- Where the next word starts a table, nothing else does.
theorem table_apart {k : Option Keyword} (starts : k.all Keyword.startsTable = true) (other : j.startsTable = false) : some j ∉ [k] := by
  intro same
  rw [← List.mem_singleton.mp same,Option.all_some,other] at starts
  cases starts

section
variable {g : Grammar} {i : Ident} {is : List Ident} {asName : Option String} {front called rest behind : List Lexeme}
variable {t : TableFactor} {l : Lexeme}

theorem factorOf_only (opening : i.token.StartsTable) (shown : (l :: front).map (·.token) = nameTokens (i :: is))
    (given : called.map (·.token) = aliasTokens asName) (place : Starts [.comma,.rparen] behindName rest)
    (read : factorOf g (l :: front ++ (called ++ rest)) = .ok (t,behind)) :
    t = namedTableAt l.start (i :: is) asName ∧ behind = rest := by
  obtain ⟨k,word⟩ := i.token_word
  have first : l.token = i.token := by
    cases is with
    | nil => exact (List.cons.inj shown).1
    | cons j is => exact (List.cons.inj shown).1
  have starts : k.all Keyword.startsTable = true := by rwa [Token.StartsTable,word] at opening
  have free : Starts [] [k] (l :: front ++ (called ++ rest)) := .word i.value k (by simp) (first.trans word)
  have apart (j : Keyword) (other : j.startsTable = false) : some j ∉ [k] := table_apart starts other
  have start : place? (l :: front ++ (called ++ rest)) = .ok (some l.start,l :: front ++ (called ++ rest)) := rfl
  have call : (l :: front ++ (called ++ rest))[1]?.map (·.token) ≠ some (.symbol .lparen) := by
    rw [List.cons_append,List.getElem?_cons_succ,← List.head?_eq_getElem?]
    cases front with
    | nil =>
      rw [List.nil_append]
      exact starts_other (alias_starts given place) (by decide)
    | cons p front =>
      have dot : p.token = .symbol .period := by
        cases is with
        | nil => simp [nameTokens] at shown
        | cons j is =>
          simp only [nameTokens,List.map_cons,List.intersperse_cons_cons,List.cons.injEq] at shown
          exact shown.2.1
      simp [dot]
  have function : tableFunction? g (l :: front ++ (called ++ rest)) = .ok (none,l :: front ++ (called ++ rest)) := by
    simp only [tableFunction?,bind_run,tokenAt?,ok_bind]
    rw [if_pos call]
    rfl
  simp only [factorOf,bind_run,start,ok_bind,at_keyword? free (apart .LATERAL rfl),Bool.false_eq_true,if_false,
    at_keyword? free (apart .TABLE rfl),at_symbol? (s := .lparen) free (by simp),
    at_isAhead free (apart .VALUES rfl),tokenAt?,Bool.false_and,Bool.and_false,
    provided_absent (at_keyword? free (apart .UNNEST rfl)),function,
    at_symbolAhead (s := .atSign) free (by simp),Option.getD_some] at read
  exact namedTable_only (by simp) shown given place l.start read

-- No query starts with the name of a table.
theorem queryOf_name (word : l.token = .word v q k) (starts : k.all Keyword.startsTable = true) (rest : List Lexeme) :
    ∃ e, queryOf g (l :: rest) = .error e := by
  have free : Starts [] [k] (l :: rest) := .word v k (by simp) word
  have apart (j : Keyword) (other : j.startsTable = false) : some j ∉ [k] := table_apart starts other
  have tables : commonTables g (l :: rest) = .ok ("",l :: rest) := by
    simp only [commonTables,bind_run,at_keyword? free (apart .WITH rfl),ok_bind]
    rfl
  have change : change? g (l :: rest) = .ok (none,l :: rest) := by
    simp only [change?,bind_run,next?,ok_bind,List.head?_cons,word,Token.keyword?]
    split
    case h_5 => rfl
    all_goals cases starts
  have values : oneOf? [.VALUES,.VALUE] (l :: rest) = .ok (none,l :: rest) := by
    refine at_oneOf? _ free ?_
    cases k with
    | none => rfl
    | some j =>
      have first : j ≠ .VALUES := by
        rintro rfl
        cases starts
      have second : j ≠ .VALUE := by
        rintro rfl
        cases starts
      simp [first,second]
  have body : ∃ e, bodyStart g (l :: rest) = .error e := by
    simp only [bodyStart,bind_run,at_isAhead free (apart .SELECT rfl),at_isAhead free (apart .FROM rfl),ok_bind,
      Bool.and_false,Bool.false_or,Bool.false_eq_true,if_false,at_symbolAhead (s := .lparen) free (by simp),
      values,at_keyword? free (apart .TABLE rfl)]
    exact ⟨_,rfl⟩
  obtain ⟨e,body⟩ := body
  refine ⟨e,?_⟩
  simp only [queryOf,bind_run,place?,ok_bind,tables,queryOf.bodyAndRest,change,bodyAt,body,error_bind]

end

-- USING lists.

theorem columns_only {g : Grammar} {names : List ObjectName} (vs : List String) (some : vs ≠ [])
    (shown : front.map (·.token) = listedTokens vs)
    (closing : r.token = .symbol .rparen) (room : vs.length ≤ n + 1)
    (read : separated.go (fun _ => false) (objectName g) n (front ++ r :: rest) = .ok (names,behind)) :
    names = vs.map (fun v => .ofIdents [⟨v,none⟩]) ∧ behind = r :: rest := by
  induction vs generalizing front n names behind with
  | nil => exact absurd rfl some
  | cons v vs ih =>
    cases vs with
    | nil =>
      simp only [listedTokens,List.map_cons,List.map_nil,List.intersperse_singleton] at shown
      have end' : Starts [.rparen] [] (r :: rest) := .symbol _ (by simp) closing
      have last := at_symbol? (s := .comma) end' (by decide)
      have single (name : ObjectName) (mid : List Lexeme) (first : objectName g (front ++ r :: rest) = .ok (name,mid)) :
          name = .ofIdents [⟨v,none⟩] ∧ mid = r :: rest := objectName_only [⟨v,none⟩] (by simp) shown end' (by decide) first
      cases n with
      | zero =>
        simp only [separated.go,map_run] at read
        obtain ⟨⟨name,mid⟩,first,later⟩ := bind_ok.mp read
        obtain ⟨rfl,rfl⟩ := single name mid first
        cases later
        exact ⟨rfl,rfl⟩
      | succ n =>
        rw [separated.go,bind_run] at read
        obtain ⟨⟨name,mid⟩,first,later⟩ := bind_ok.mp read
        obtain ⟨rfl,rfl⟩ := single name mid first
        simp only [bind_run,last,ok_bind] at later
        cases later
        exact ⟨rfl,rfl⟩
    | cons w vs =>
      simp only [listedTokens,List.map_cons,List.intersperse_cons_cons,List.map_eq_cons_iff] at shown
      obtain ⟨l,_,rfl,token,c,front,rfl,comma,shown⟩ := shown
      obtain ⟨n,rfl⟩ : ∃ m, n = m + 1 := ⟨n - 1,by simp at room; omega⟩
      have between : Starts [.comma] [] (c :: (front ++ r :: rest)) := .symbol _ (by simp) comma
      have taken : symbol? .comma (c :: (front ++ r :: rest)) = .ok (true,front ++ r :: rest) := by simp [symbol?,comma]
      rw [separated.go,bind_run] at read
      obtain ⟨⟨name,mid⟩,first,later⟩ := bind_ok.mp read
      have name : [l].map (·.token) = nameTokens [⟨v,none⟩] := by simpa [nameTokens] using token
      obtain ⟨rfl,rfl⟩ := objectName_only [⟨v,none⟩] (by simp) name between (by decide) first
      simp only [bind_run,taken,ok_bind,get_run,Bool.not_true,Bool.or_false,Bool.false_eq_true,if_false] at later
      obtain ⟨⟨others,mid⟩,more,later⟩ := bind_ok.mp later
      obtain ⟨rfl,rfl⟩ := ih (by simp) (by simpa [listedTokens] using shown) (by simpa using room) more
      cases later
      exact ⟨rfl,rfl⟩

theorem using_only {g : Grammar} (vs : List String) (some : vs ≠ []) (shown : front.map (·.token) = usingTokens vs)
    (read : constraint g false (front ++ rest) = .ok (c,behind)) :
    c = .using (vs.map fun v => .ofIdents [⟨v,none⟩]) ∧ behind = rest := by
  rw [usingTokens,if_neg some] at shown
  obtain ⟨u,o,columns,r,rfl,word,opening,inner,closing⟩ := JoinSpec.framed_tokens shown
  have size : vs.length ≤ (columns ++ r :: rest).length := by
    have same := congrArg List.length inner
    simp only [listedTokens,List.length_map,List.length_intersperse] at same
    simp only [List.length_append,List.length_cons]
    omega
  have whole : u :: o :: (columns ++ [r]) ++ rest = u :: o :: (columns ++ r :: rest) := by simp
  have on : keyword? .ON (u :: o :: (columns ++ r :: rest)) = .ok (false,u :: o :: (columns ++ r :: rest)) := by
    simp [keyword?,word,Token.keyword?]
  have here : keyword? .USING (u :: o :: (columns ++ r :: rest)) = .ok (true,o :: (columns ++ r :: rest)) := by
    simp [keyword?,word,Token.keyword?]
  have ahead : symbolAhead .lparen (o :: (columns ++ r :: rest)) = .ok (true,o :: (columns ++ r :: rest)) := by
    simp [symbolAhead,token?,bind_run,pure_run,ok_bind,opening]
  rw [whole] at read
  simp only [constraint,bind_run,Bool.false_eq_true,if_false,on,ok_bind,here,if_true,parenthesisedList,ahead,parenthesised,
    symbol_present o opening] at read
  obtain ⟨⟨_,mid⟩,listed,later⟩ := bind_ok.mp read
  obtain ⟨⟨names,mid⟩,listed,closed⟩ := bind_ok.mp listed
  obtain ⟨rfl,rfl⟩ := columns_only vs some inner closing (by omega) listed
  simp only [symbol_present r closing,ok_bind,pure_run] at closed
  cases closed
  cases later
  exact ⟨rfl,rfl⟩

end Reading

end JoinTree.Sql
