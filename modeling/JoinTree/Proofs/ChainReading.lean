import JoinTree.Proofs.NameReading
import JoinTree.Proofs.PasteWords

/-!
What the grammar makes of tables and the joins behind them. Main statement: where the words of a FROM clause are read at
all, with CROSS in the place of PASTE, the tree of what is read is the tree of the clause.
-/

namespace JoinTree

open Sql
open Sql.Grammar (inside)
open Sql.Sign (Starts)
open Sql.Reading (behindName namedTableAt)
open Sql.Token (nameTokens aliasTokens usingTokens framed)

-- Words with CROSS in the place of PASTE.

namespace Sql

def Token.crossed (t : Token) : Token := if JoinWord.ofToken? t = some .paste then .ofWord "CROSS" else t

namespace Lexeme

theorem turned_token (l : Lexeme) : l.turned.token = l.token.crossed := by
  unfold turned isPaste Token.crossed
  simp only [decide_eq_true_eq]
  split <;> rfl

theorem turned_idle {ls : List Lexeme} (shown : ls.map (·.token) = ts) (idle : ∀ t ∈ ts, Token.IsIdle t) : ls.map turned = ls := by
  refine (List.map_congr_left fun l member => ?_).trans (List.map_id _)
  exact if_neg (by simp [idle_paste (idle_each shown idle l member)])

theorem turned_symbol {l : Lexeme} (token : l.token = .symbol s) : l.turned = l :=
  if_neg (by simp [isPaste,token,JoinWord.ofToken?])

end Lexeme

end Sql

namespace JoinKind

section
variable {front : List Lexeme}

theorem link_form (kind : JoinKind) (other : kind ≠ .comma) (shown : front.map (·.token) = kind.linkTokens) :
    (front.map Lexeme.turned).map (·.token.keyword?) = (({ kind } : JoinSpec).form false).1.map some := by
  have words : kind.linkTokens.map (fun t => t.crossed.keyword?) = (({ kind } : JoinSpec).form false).1.map some := by
    cases kind <;> first | exact absurd rfl other | decide +kernel
  rw [← words,← shown,List.map_map,List.map_map]
  exact List.map_congr_left fun l _ => congrArg Token.keyword? l.turned_token

-- The word JOIN, and the word in front of it.
theorem link_split (kind : JoinKind) (other : kind ≠ .comma) (shown : front.map (·.token) = kind.linkTokens) :
    ∃ pre t j, front = pre ++ [t,j] ∧ j.isJoin = true ∧ t.isPaste = decide (kind = .paste) := by
  have words : ∃ pre t, kind.linkTokens = pre ++ [t,.word "JOIN" none (some .JOIN)] ∧
      decide (JoinWord.ofToken? t = some .paste) = decide (kind = .paste) := by
    cases kind
    case comma => exact absurd rfl other
    case full => exact ⟨[_],_,rfl,by decide +kernel⟩
    all_goals exact ⟨[],_,rfl,by decide +kernel⟩
  obtain ⟨pre,t,same,paste⟩ := words
  rw [same] at shown
  obtain ⟨before,last,rfl,_,tokens⟩ := List.map_eq_append_iff.mp shown
  simp only [List.map_eq_cons_iff,List.map_eq_nil_iff] at tokens
  obtain ⟨w,_,rfl,word,j,_,rfl,join,rfl⟩ := tokens
  refine ⟨before,w,j,rfl,?_,?_⟩
  · simp [Lexeme.isJoin,isKeyword,join,Token.keyword?]
  · rw [Lexeme.isPaste,word,paste]

end

end JoinKind

namespace JoinSpec

-- The clause of a link has no defect, and its join expression is that of the link.
theorem link_sound (kind : JoinKind) (columns : List String) (given : kind.isUnconditional = true ↔ columns = []) :
    let c := clause { kind } none (if columns = [] then none else some (columns.map fun v => ⟨v,none⟩))
    c.defect? = none ∧ Node.constraintOf c = .ok (Node.usingOf columns) ∧ c.spec = { kind } := by
  intro c
  cases columns with
  | nil =>
    have bare := given.mpr rfl
    refine ⟨?_,rfl,rfl⟩
    cases kind <;> first | rfl | cases bare
  | cons v vs =>
    have conditional : kind.isUnconditional = false := by
      cases known : kind.isUnconditional with
      | false => rfl
      | true => cases given.mp known
    refine ⟨?_,?_,rfl⟩
    · cases kind <;> first | rfl | cases conditional
    · simp [c,clause,Node.constraintOf,Node.usingOf]

end JoinSpec

-- The grammar at the words of a link, and where there are none.

namespace Sql.Reading

section
variable {ls : List Lexeme}

theorem joinForm_none (place : Starts [.comma,.rparen] [] ls) : joinForm? ls = .ok (none,ls) := by
  have ahead : ahead? ls = .ok (none,ls) := by
    cases place with
    | nil => rfl
    | symbol s _ token => simp [ahead?,token,Token.keyword?]
    | word _ _ member => cases member
  simp only [joinForm?,bind_run,at_keyword? (k := .CROSS) place (by simp),at_keyword? (k := .OUTER) place (by simp),
    at_keyword? (k := .ASOF) place (by simp),at_keyword? (k := .NATURAL) place (by simp),ok_bind,Bool.false_eq_true,if_false,ahead]
  rfl

theorem joinsWithin_none (g : Grammar) (n : Nat) (place : Starts [.comma,.rparen] [] ls) : joinsWithin g n ls = .ok ([],ls) := by
  cases n with
  | zero => rfl
  | succ n =>
    rw [joinsWithin]
    simp only [bind_run,at_keyword? (k := .GLOBAL) place (by simp),ok_bind,joinForm_none place]
    rfl

end

section
variable {g : Grammar} {words ls : List Lexeme}

theorem unconstrained_link (known : (ks,.unconstrained op) ∈ joinForms) (shown : words.map (·.token.keyword?) = ks.map some)
    (read : joinsWithin g (n + 1) (words ++ ls) = .ok (js,r)) :
    ∃ f mid more, g.factor ls = .ok (f,mid) ∧ joinsWithin g n mid = .ok (more,r) ∧ js = .mk ⟨false,op,.none⟩ f :: more := by
  obtain ⟨left,opening,same,_⟩ := global_read ls false known shown
  rw [joinsWithin] at read
  simp only [bind_run,opening,ok_bind,joinForm_read ls known same] at read
  obtain ⟨⟨f,mid⟩,factor,later⟩ := bind_ok.mp read
  simp only [pure_run,ok_bind] at later
  obtain ⟨⟨more,last⟩,joins,done⟩ := bind_ok.mp later
  cases done
  exact ⟨f,mid,more,factor,joins,rfl⟩

-- Behind its right table a link with a USING list holds no further join.
theorem constrained_link (known : (ks,.constrained op false) ∈ joinForms) (shown : words.map (·.token.keyword?) = ks.map some)
    (read : joinsWithin g (n + 1) (words ++ ls) = .ok (js,r)) :
    ∃ f mid, g.factor ls = .ok (f,mid) ∧ (Starts [] [some .USING] mid → ∃ c behind more, constraint g false mid = .ok (c,behind) ∧
      joinsWithin g n behind = .ok (more,r) ∧ js = .mk ⟨false,op,c⟩ f :: more) := by
  obtain ⟨left,opening,same,_⟩ := global_read ls false known shown
  rw [joinsWithin] at read
  simp only [bind_run,opening,ok_bind,joinForm_read ls known same] at read
  obtain ⟨⟨f,mid⟩,factor,later⟩ := bind_ok.mp read
  refine ⟨f,mid,factor,fun place => ?_⟩
  have alone : provided (!g.dialect.joinsLeftToRight) (anyAhead [.JOIN,.INNER,.LEFT,.RIGHT,.FULL]) mid = .ok (false,mid) :=
    provided_absent (at_anyAhead _ place (by decide))
  simp only [bind_run,alone,ok_bind,Bool.false_eq_true,if_false,pure_run] at later
  obtain ⟨⟨c,behind⟩,constrained,later⟩ := bind_ok.mp later
  obtain ⟨⟨more,last⟩,joins,done⟩ := bind_ok.mp later
  cases done
  exact ⟨c,behind,more,constrained,joins,rfl⟩

end

-- Parentheses around a table with joins.

theorem attempt_failed {p : Reading α} {f : Option α → Reading β} (failed : p ls = .error e)
    (read : (attempt p >>= f) ls = .ok r) : f none ls = .ok r := by
  rw [bind_run,attempt,failed] at read
  cases e
  case tooDeep => cases read
  all_goals exact read

theorem factorOf_open {g : Grammar} (opening : o.token = .symbol .lparen) (ls : List Lexeme) :
    factorOf g (o :: ls) = parenthesisedTable g ls := by
  have symbol : Starts [.lparen] [] (o :: ls) := .symbol _ (by simp) opening
  have taken : symbol? .lparen (o :: ls) = .ok (true,ls) := by simp [symbol?,opening]
  simp only [factorOf,bind_run,place?,ok_bind,at_keyword? (k := .LATERAL) symbol (by simp),Bool.false_eq_true,if_false,
    at_keyword? (k := .TABLE) symbol (by simp),taken,if_true]

theorem query_name (d : Dialect) (n : Nat) (word : l.token = .word v q k) (starts : k.all Keyword.startsTable = true)
    (ls : List Lexeme) : ∃ e, (inside d n).query (l :: ls) = .error e := by
  cases n with
  | zero => exact ⟨_,rfl⟩
  | succ n => exact queryOf_name word starts ls

-- What stands in parentheses is read like an entry of a FROM list.
theorem parenthesisedTable_only (word : l.token = .word v q k) (starts : k.all Keyword.startsTable = true)
    (closing : c.token = .symbol .rparen) (place : Starts [.comma,.rparen] behindName rest)
    (read : parenthesisedTable (inside d n) (l :: ls) = .ok (f,r)) :
    ∃ e mid, entry (inside d n) (l :: ls) = .ok (e,mid) ∧ (mid = c :: rest → r = rest ∧ f.start? = e.relation.start? ∧
      ∀ hints, (Node.ofFactor hints f).result = (Node.ofEntry hints e).result) := by
  obtain ⟨fault,query⟩ := query_name d n word starts ls
  have derived : derivedTable (inside d n) "" (l :: ls) = .error fault := by
    rw [derivedTable,bind_run,query,error_bind]
  rw [parenthesisedTable] at read
  have read := attempt_failed derived read
  simp only [bind_run] at read
  obtain ⟨⟨e,mid⟩,within,later⟩ := bind_ok.mp read
  refine ⟨e,mid,within,?_⟩
  rintro rfl
  obtain ⟨relation,joins⟩ := e
  have closed : symbol .rparen (c :: rest) = .ok ((),rest) := symbol_present c closing
  have unnamed := tableAlias_none (g := inside d n) place
  have nested (relation : TableFactor) (joins : List Join) (hints : JoinHints) :
      (Node.ofFactor hints (.nested relation joins none)).result = (Node.ofEntry hints ⟨relation,joins⟩).result := rfl
  cases joins with
  | cons j joins =>
    cases relation <;>
      (simp only [bind_run,closed,unnamed,ok_bind] at later
       cases later
       exact ⟨rfl,rfl,nested _ _⟩)
  | nil =>
    have single (relation : TableFactor) (hints : JoinHints) :
        (Node.ofFactor hints relation).result = (Node.ofEntry hints ⟨relation,[]⟩).result := by
      simp only [Node.ofEntry,Noted.result_bind,Node.ofJoins,Noted.result_pure]
      cases (Node.ofFactor hints relation).result <;> rfl
    cases relation with
    | nested relation joins asName =>
      simp only [bind_run,closed,unnamed,ok_bind] at later
      cases later
      exact ⟨rfl,rfl,nested _ _⟩
    | table | phrase =>
      simp only at later
      split at later
      · cases later
      · simp only [bind_run,closed,unnamed,ok_bind] at later
        cases later
        exact ⟨rfl,rfl,single _⟩

end Sql.Reading

-- What the words of a chain are read as, in front of a place where it ends.

def Links.IsRead (d : Dialect) (hints : JoinHints) (links : Links) : Prop :=
  ∀ n fuel front rest js r, front.map (·.token) = links.tokens → Starts [.comma,.rparen] [] (rest.map Lexeme.turned) →
    Told hints (front ++ rest) → front.length ≤ fuel →
    Reading.joinsWithin (inside d n) fuel ((front ++ rest).map Lexeme.turned) = .ok (js,r) →
    r = rest.map Lexeme.turned ∧ ∀ left, (Node.ofJoins hints left js).result = .ok (links.behind left)

def Chain.IsRead (d : Dialect) (hints : JoinHints) (c : Chain) : Prop :=
  ∀ n front rest f r, front.map (·.token) = framed c.isJoined c.tokens →
    Starts [.comma,.rparen] behindName (rest.map Lexeme.turned) → Told hints (front ++ rest) →
    (inside d n).factor ((front ++ rest).map Lexeme.turned) = .ok (f,r) →
    r = rest.map Lexeme.turned ∧ f.start? = rightStart? (front ++ rest) ∧ (Node.ofFactor hints f).result = .ok c.node

-- What stands behind the table of a chain.

theorem JoinKind.link_starts (kind : JoinKind) (other : kind ≠ .comma) {front : List Lexeme}
    (shown : front.map (·.token) = kind.linkTokens) (rest : List Lexeme) :
    Starts [.comma,.rparen] behindName ((front ++ rest).map Lexeme.turned) := by
  have words : ∃ t ts v k, kind.linkTokens = t :: ts ∧ t.crossed = .word v none k ∧ k ∈ behindName := by
    cases kind <;> first | exact absurd rfl other | exact ⟨_,_,_,_,rfl,rfl,by decide⟩
  obtain ⟨t,ts,v,k,same,word,member⟩ := words
  rw [same] at shown
  obtain ⟨l,more,rfl,token,_⟩ := List.map_eq_cons_iff.mp shown
  exact .word v k member (by rw [l.turned_token,token,word])

theorem Links.links_starts (ls : Links) (fits : ls.Fits d) {front rest : List Lexeme} (shown : front.map (·.token) = ls.tokens)
    (place : Starts [.comma,.rparen] [] (rest.map Lexeme.turned)) :
    Starts [.comma,.rparen] behindName ((front ++ rest).map Lexeme.turned) := by
  cases ls with
  | nil =>
    rw [List.map_eq_nil_iff.mp shown]
    exact Reading.starts_more place (by simp) (by simp)
  | cons kind columns right more =>
    rw [Links.tokens,List.append_assoc,List.append_assoc] at shown
    obtain ⟨words,behind,rfl,link,_⟩ := List.map_eq_append_iff.mp shown
    rw [List.append_assoc]
    exact kind.link_starts fits.1 link _

theorem using_starts {columns : List String} {front : List Lexeme} (some : columns ≠ [])
    (shown : front.map (·.token) = usingTokens columns) (rest : List Lexeme) : Starts [] [.some .USING] (front ++ rest) := by
  rw [usingTokens,if_neg some] at shown
  obtain ⟨u,_,_,_,rfl,word,_⟩ := JoinSpec.framed_tokens shown
  exact .word _ _ (by simp) word

-- The table of a chain.

theorem namedTable_node (hints : JoinHints) (start : Location) (name : List Ident) (asName : Option String) :
    (Node.ofFactor hints (namedTableAt start name asName)).result = .ok (.table (ObjectName.ofIdents name).text asName) := by
  cases asName <;> rfl

section
variable {d : Dialect} {i : Ident} {is : List Ident} {asName : Option String} {front rest : List Lexeme}

theorem table_only (opening : i.token.StartsTable) (shown : front.map (·.token) = nameTokens (i :: is) ++ aliasTokens asName)
    (place : Starts [.comma,.rparen] behindName rest) (read : (inside d n).factor (front ++ rest) = .ok (f,r)) :
    ∃ l more, front = l :: more ∧ l.token = i.token ∧ f = namedTableAt l.start (i :: is) asName ∧ r = rest := by
  obtain ⟨named,called,rfl,names,given⟩ := List.map_eq_append_iff.mp shown
  obtain ⟨l,more,rfl,first⟩ : ∃ l more, named = l :: more ∧ l.token = i.token := by
    cases is with
    | nil =>
      obtain ⟨l,more,rfl,first,_⟩ := List.map_eq_cons_iff.mp names
      exact ⟨l,more,rfl,first⟩
    | cons j is =>
      obtain ⟨l,more,rfl,first,_⟩ := List.map_eq_cons_iff.mp names
      exact ⟨l,more,rfl,first⟩
  cases n with
  | zero => cases read
  | succ n =>
    rw [List.append_assoc] at read
    obtain ⟨rfl,rfl⟩ := Reading.factorOf_only opening names given place read
    exact ⟨l,_,rfl,first,rfl,rfl⟩

end

section
variable {d : Dialect} {hints : JoinHints} {front rest : List Lexeme}

-- A table and the joins behind it are read as one entry.
theorem Chain.entry_only (fits : (Chain.mk name asName links).Fits d) (isRead : links.IsRead d hints)
    (shown : front.map (·.token) = (Chain.mk name asName links).tokens)
    (place : Starts [.comma,.rparen] [] (rest.map Lexeme.turned)) (told : Told hints (front ++ rest))
    (read : Reading.entry (inside d n) ((front ++ rest).map Lexeme.turned) = .ok (e,r)) :
    r = rest.map Lexeme.turned ∧ e.relation.start? = rightStart? (front ++ rest) ∧
      (Node.ofEntry hints e).result = .ok (Chain.mk name asName links).node := by
  obtain ⟨⟨i,is,rfl,opening⟩,names,given,within⟩ := fits
  obtain ⟨table,behind,rfl,first,later⟩ := List.map_eq_append_iff.mp shown
  have idle := Lexeme.turned_idle first (List.forall_mem_append.mpr ⟨Token.name_idle names,Token.alias_idle given⟩)
  rw [List.append_assoc,List.map_append,idle,Reading.entry,Reading.bind_run] at read
  obtain ⟨⟨f,mid⟩,factor,joined⟩ := bind_ok.mp read
  obtain ⟨l,more,rfl,word,rfl,rfl⟩ := table_only opening first (links.links_starts within later place) factor
  simp only [Reading.bind_run] at joined
  obtain ⟨⟨js,last⟩,joins,done⟩ := bind_ok.mp joined
  cases done
  rw [List.append_assoc] at told
  have size : behind.length ≤ ((behind ++ rest).map Lexeme.turned).length := by simp
  obtain ⟨rfl,built⟩ := isRead n _ behind rest js _ later place (told_append told) size joins
  obtain ⟨k,token⟩ := i.token_word
  refine ⟨rfl,?_,?_⟩
  · rw [List.cons_append,List.cons_append,rightStart_word (word.trans token)]
    rfl
  · rw [Node.ofEntry,Noted.result_bind,namedTable_node,Reading.ok_bind,built,Chain.node]

-- A table with joins behind it is read in parentheses, and any other one without.
theorem Chain.isRead_of_links (fits : (Chain.mk name asName links).Fits d) (isRead : links.IsRead d hints) :
    (Chain.mk name asName links).IsRead d hints := by
  intro n front rest f r shown place told read
  cases links with
  | nil =>
    obtain ⟨⟨i,is,rfl,opening⟩,names,given,_⟩ := fits
    have first : front.map (·.token) = nameTokens (i :: is) ++ aliasTokens asName := by
      rw [shown,framed]
      exact List.append_nil _
    have idle := Lexeme.turned_idle first (List.forall_mem_append.mpr ⟨Token.name_idle names,Token.alias_idle given⟩)
    rw [List.map_append,idle] at read
    obtain ⟨l,more,rfl,word,rfl,rfl⟩ := table_only opening first place read
    obtain ⟨k,token⟩ := i.token_word
    exact ⟨rfl,(rightStart_word (word.trans token) _).symm,namedTable_node _ _ _ _⟩
  | cons kind columns right more =>
    have framing : front.map (·.token) =
        .symbol .lparen :: ((Chain.mk name asName (.cons kind columns right more)).tokens ++ [.symbol .rparen]) := shown
    obtain ⟨o,behind,rfl,opening,tokens⟩ := List.map_eq_cons_iff.mp framing
    obtain ⟨inner,last,rfl,within,ended⟩ := List.map_eq_append_iff.mp tokens
    obtain ⟨c,_,rfl,closing,none⟩ := List.map_eq_cons_iff.mp ended
    obtain rfl := List.map_eq_nil_iff.mp none
    obtain ⟨i,ts,first,starts,writable⟩ := Chain.tokens_start _ fits
    obtain ⟨l,tail,rfl,word,_⟩ := List.map_eq_cons_iff.mp (within.trans first)
    obtain ⟨k,token⟩ := i.token_word
    have startsTable : k.all Keyword.startsTable = true := by rwa [Token.StartsTable,token] at starts
    have idle : l.turned = l := if_neg (by simp [Lexeme.isPaste,word,Token.idle_paste writable.2])
    have closed : Starts [.comma,.rparen] [] ((c :: rest).map Lexeme.turned) := by
      rw [List.map_cons,Lexeme.turned_symbol closing]
      exact .symbol _ (by simp) closing
    have whole : o :: (l :: tail ++ [c]) ++ rest = o :: (l :: tail ++ (c :: rest)) := by simp
    rw [whole] at told read ⊢
    rw [List.map_cons,Lexeme.turned_symbol opening] at read
    cases n with
    | zero => cases read
    | succ n =>
      have read := (Reading.factorOf_open opening _).symm.trans read
      rw [List.cons_append,List.map_cons,idle] at read
      obtain ⟨e,mid,entry,later⟩ := Reading.parenthesisedTable_only (word.trans token) startsTable closing place read
      rw [← idle] at entry
      obtain ⟨rfl,start,built⟩ := Chain.entry_only fits isRead within closed (told_append (a := [o]) told) entry
      have later := later (by rw [List.map_cons,Lexeme.turned_symbol closing])
      refine ⟨later.1,?_,?_⟩
      · rw [later.2.1,start,rightStart_open opening]
      · rw [later.2.2,built]

theorem Links.nil_isRead (d : Dialect) (hints : JoinHints) : Links.nil.IsRead d hints := by
  intro n fuel front rest js r shown place _ _ read
  rw [List.map_eq_nil_iff.mp shown,List.nil_append,Reading.joinsWithin_none _ _ place] at read
  cases read
  exact ⟨rfl,fun _ => rfl⟩

-- Whether a hint is kept for a link depends on its kind alone.
theorem JoinKind.link_hint (kind : JoinKind) (other : kind ≠ .comma) {words after : List Lexeme}
    (shown : words.map (·.token) = kind.linkTokens) (told : Told hints (words ++ after)) (start : f.start? = rightStart? after)
    (some : (rightStart? after).isSome = true) (head : JoinHead) :
    hints.clauseOf (.mk head f) = JoinClause.ofJoin (.mk head f) >>= (({ kind } : JoinSpec).hint false).apply := by
  obtain ⟨pre,t,j,rfl,join,paste⟩ := kind.link_split other shown
  have found := told pre t j after (by simp) join (.mk head f) (by rw [Join.right,start]; exact some) start
  rw [paste] at found
  refine JoinSpec.clauseOf_told (found.trans ?_)
  cases kind <;> rfl

section
variable {kind : JoinKind} {right : Chain} {words operand : List Lexeme} (other : kind ≠ .comma) (fits : right.Fits d)
  (isRead : right.IsRead d hints) (link : words.map (·.token) = kind.linkTokens)
  (inner : operand.map (·.token) = framed right.isJoined right.tokens)
include other fits isRead link inner

-- A link that has no USING list, and one that has: its join, and what is left for the links behind it.

theorem bareLink_only (unconditional : kind.isUnconditional = true)
    (next : Starts [.comma,.rparen] behindName (rest.map Lexeme.turned)) (told : Told hints (words ++ (operand ++ rest)))
    (read : Reading.joinsWithin (inside d n) (fuel + 1) ((words ++ (operand ++ rest)).map Lexeme.turned) = .ok (js,r)) :
    ∃ head f more, js = .mk head f :: more ∧ hints.clauseOf (.mk head f) = .ok (JoinSpec.clause { kind } none none) ∧
      (Node.ofFactor hints f).result = .ok right.node ∧
      Reading.joinsWithin (inside d n) fuel (rest.map Lexeme.turned) = .ok (more,r) := by
  have admitted : ({ kind } : JoinSpec).Admitted false := JoinSpec.plain_admitted other
  have given (t : TableFactor) := JoinSpec.unconditional_clause (t := t) admitted unconditional
  have form := kind.link_form other link
  have known := ({ kind } : JoinSpec).form_known false
  rw [(given default).1] at known form
  rw [List.map_append] at read
  obtain ⟨f,mid,more,factor,joins,rfl⟩ := Reading.unconstrained_link known form read
  obtain ⟨rfl,start,built⟩ := isRead n operand rest f mid inner next (told_append told) factor
  have filled := right.rightStart_tokens fits right.isJoined inner rest
  exact ⟨_,f,more,rfl,(kind.link_hint other link told start filled _).trans (given f).2,built,joins⟩

theorem usingLink_only (conditional : kind.isUnconditional = false) {columns : List String} (some : columns ≠ [])
    (names : ∀ v ∈ columns, Ident.IsWritable d ⟨v,none⟩) {listed : List Lexeme} (shown : listed.map (·.token) = usingTokens columns)
    (told : Told hints (words ++ (operand ++ (listed ++ rest))))
    (read : Reading.joinsWithin (inside d n) (fuel + 1) ((words ++ (operand ++ (listed ++ rest))).map Lexeme.turned) = .ok (js,r)) :
    ∃ head f more, js = .mk head f :: more ∧
      hints.clauseOf (.mk head f) = .ok (JoinSpec.clause { kind } none (.some (columns.map fun v => ⟨v,none⟩))) ∧
      (Node.ofFactor hints f).result = .ok right.node ∧
      Reading.joinsWithin (inside d n) fuel (rest.map Lexeme.turned) = .ok (more,r) := by
  have admitted : ({ kind } : JoinSpec).Admitted false := JoinSpec.plain_admitted other
  have form := kind.link_form other link
  have known := ({ kind } : JoinSpec).form_known false
  have idle : (listed ++ rest).map Lexeme.turned = listed ++ rest.map Lexeme.turned := by
    rw [List.map_append,Lexeme.turned_idle shown (Token.using_idle names)]
  have place := using_starts some shown (rest.map Lexeme.turned)
  obtain ⟨op,same,_⟩ := JoinSpec.constrained_clause (t := default) admitted conditional rfl
  have known : ((({ kind } : JoinSpec).form false).1,.constrained op false) ∈ Reading.joinForms := by
    rw [← same]
    exact known
  rw [List.map_append] at read
  obtain ⟨f,mid,factor,closed⟩ := Reading.constrained_link known form read
  have next : Starts [.comma,.rparen] behindName ((listed ++ rest).map Lexeme.turned) := by
    rw [idle]
    exact Reading.starts_more place (by simp) (by decide)
  obtain ⟨rfl,start,built⟩ := isRead n operand (listed ++ rest) f mid inner next (told_append told) factor
  rw [idle] at closed
  obtain ⟨c,_,more,constrained,joins,rfl⟩ := closed place
  obtain ⟨rfl,rfl⟩ := Reading.using_only columns some shown constrained
  obtain ⟨op',same',_,given⟩ := JoinSpec.constrained_clause (t := f) admitted conditional rfl
  cases same.symm.trans same'
  have filled := right.rightStart_tokens fits right.isJoined inner (listed ++ rest)
  exact ⟨_,f,more,rfl,(kind.link_hint other link told start filled _).trans (given columns),built,joins⟩

end

theorem Links.cons_isRead (fits : (Links.cons kind columns right more).Fits d) (isRead : right.IsRead d hints)
    (later : more.IsRead d hints) : (Links.cons kind columns right more).IsRead d hints := by
  intro n fuel front rest js r shown place told room read
  obtain ⟨other,given,names,within,fits'⟩ := fits
  simp only [Links.tokens,List.append_assoc] at shown
  obtain ⟨words,_,rfl,link,shown⟩ := List.map_eq_append_iff.mp shown
  obtain ⟨operand,_,rfl,inner,shown⟩ := List.map_eq_append_iff.mp shown
  obtain ⟨listed,behind,rfl,columnTokens,ended⟩ := List.map_eq_append_iff.mp shown
  have filled : 0 < words.length := by
    obtain ⟨pre,t,j,rfl,_⟩ := kind.link_split other link
    simp
  obtain ⟨fuel,rfl⟩ : ∃ m, fuel = m + 1 := ⟨fuel - 1,by simp at room; omega⟩
  have size : behind.length ≤ fuel := by
    simp only [List.length_append] at room
    omega
  simp only [List.append_assoc] at told read
  obtain ⟨sound,expression,spec⟩ := JoinSpec.link_sound kind columns given
  have link : ∃ head f js', js = .mk head f :: js' ∧
      hints.clauseOf (.mk head f) =
        .ok (JoinSpec.clause { kind } none (if columns = [] then none else some (columns.map fun v => ⟨v,none⟩))) ∧
      (Node.ofFactor hints f).result = .ok right.node ∧
      Reading.joinsWithin (inside d n) fuel ((behind ++ rest).map Lexeme.turned) = .ok (js',r) := by
    by_cases bare : columns = []
    · subst bare
      obtain rfl : listed = [] := List.map_eq_nil_iff.mp columnTokens
      exact bareLink_only other within isRead link inner (given.mpr rfl) (more.links_starts fits' ended place) told read
    · have conditional : kind.isUnconditional = false := Bool.eq_false_iff.mpr fun asked => bare (given.mp asked)
      rw [if_neg bare]
      exact usingLink_only other within isRead link inner conditional bare names columnTokens told read
  obtain ⟨head,f,js',rfl,clause,built,joins⟩ := link
  have toldBehind := told_append (told_append (told_append told))
  obtain ⟨rfl,others⟩ := later n fuel behind rest js' r ended place toldBehind size joins
  exact ⟨rfl,fun left => (Node.ofJoins_cons js' clause built sound expression left).trans (others _)⟩

end

mutual
theorem Chain.isRead (c : Chain) (fits : c.Fits d) (hints : JoinHints) : c.IsRead d hints := by
  obtain ⟨name,asName,links⟩ := c
  exact Chain.isRead_of_links fits (links.isRead fits.2.2.2 hints)
theorem Links.isRead (ls : Links) (fits : ls.Fits d) (hints : JoinHints) : ls.IsRead d hints := by
  cases ls with
  | nil => exact Links.nil_isRead d hints
  | cons kind columns right more =>
    exact Links.cons_isRead fits (right.isRead fits.2.2.2.1 hints) (more.isRead fits.2.2.2.2 hints)
end

-- Entries with commas between them.

namespace Listing

theorem startsTable_goes_on {k : Keyword} (starts : k.startsTable = true) (rest : List Lexeme) : Dialect.endsTables k rest = false := by
  have opener : k.isTableOpener = true := (Bool.and_eq_true_iff.mp starts).1
  have other : k ≠ .LIMIT := by
    rintro rfl
    cases starts
  simp [Dialect.endsTables,other,opener]

-- No comma in front of a chain is the last one of its list.
theorem chain_goes_on (c : Chain) (fits : c.Fits d) {front : List Lexeme} (shown : front.map (·.token) = framed c.isJoined c.tokens)
    (rest : List Lexeme) : Reading.endsAfterComma Dialect.endsTables ((front ++ rest).map Lexeme.turned) = false := by
  obtain ⟨i,ts,first,starts,writable⟩ := c.tokens_start fits
  obtain ⟨k,word⟩ := i.token_word
  unfold framed at shown
  split at shown
  · obtain ⟨o,more,rfl,opening,_⟩ := List.map_eq_cons_iff.mp shown
    rw [List.cons_append,List.map_cons,Lexeme.turned_symbol opening]
    simp only [Reading.endsAfterComma,opening]
    rfl
  · obtain ⟨l,more,rfl,token,_⟩ := List.map_eq_cons_iff.mp (shown.trans first)
    have idle : l.turned = l := if_neg (by simp [Lexeme.isPaste,token,Token.idle_paste writable.2])
    rw [List.cons_append,List.map_cons,idle]
    simp only [Reading.endsAfterComma,token,word]
    rw [Token.StartsTable,word] at starts
    cases k with
    | none => rfl
    | some k => exact startsTable_goes_on starts _

-- Words that are read as one entry of a FROM list, in front of a comma or at the end.
def IsEntry (d : Dialect) (hints : JoinHints) (ts : List Token) (n : Node) : Prop :=
  ∀ k front rest e r, front.map (·.token) = ts → Starts [.comma] [] (rest.map Lexeme.turned) → Told hints (front ++ rest) →
    Reading.entry (inside d k) ((front ++ rest).map Lexeme.turned) = .ok (e,r) →
    r = rest.map Lexeme.turned ∧ (Node.ofEntry hints e).result = .ok n

section
variable {d : Dialect} {hints : JoinHints} {c : Chain} (fits : c.Fits d)
include fits

theorem first_isEntry : IsEntry d hints c.tokens c.node := by
  intro k front rest e r shown place told read
  obtain ⟨name,asName,links⟩ := c
  have wider := Reading.starts_more place (show _ ⊆ [Symbol.comma,.rparen] by simp) (List.Subset.refl _)
  obtain ⟨same,_,built⟩ := Chain.entry_only fits (links.isRead fits.2.2.2 hints) shown wider told read
  exact ⟨same,built⟩

theorem framed_isEntry : IsEntry d hints (framed c.isJoined c.tokens) c.node := by
  intro k front rest e r shown place told read
  have wider := Reading.starts_more place (show _ ⊆ [Symbol.comma,.rparen] by simp) (List.nil_subset behindName)
  have alone := Reading.starts_more place (show _ ⊆ [Symbol.comma,.rparen] by simp) (List.Subset.refl _)
  rw [Reading.entry,Reading.bind_run] at read
  obtain ⟨⟨f,mid⟩,factor,later⟩ := bind_ok.mp read
  obtain ⟨rfl,_,built⟩ := c.isRead fits hints k front rest f mid shown wider told factor
  have joins : Reading.joins (inside d k) (rest.map Lexeme.turned) = .ok ([],rest.map Lexeme.turned) :=
    Reading.joinsWithin_none _ _ alone
  simp only [Reading.bind_run,joins,Reading.ok_bind] at later
  cases later
  refine ⟨rfl,?_⟩
  rw [Node.ofEntry,Noted.result_bind,built]
  rfl

end

theorem othersTokens_starts (cs : List Chain) {front : List Lexeme} (shown : front.map (·.token) = othersTokens cs) :
    Starts [.comma] [] (front.map Lexeme.turned) := by
  cases cs with
  | nil =>
    rw [List.map_eq_nil_iff.mp shown]
    exact .nil
  | cons c cs =>
    obtain ⟨comma,_,rfl,token,_⟩ := List.map_eq_cons_iff.mp shown
    rw [List.map_cons,Lexeme.turned_symbol token]
    exact .symbol _ (by simp) token

-- Every comma leads to a further entry.
theorem entries_only (cs : List Chain) (fits : ∀ c ∈ cs, c.Fits d) (isEntry : IsEntry d hints ts n) (k fuel : Nat)
    {front : List Lexeme} (shown : front.map (·.token) = ts ++ othersTokens cs) (told : Told hints front) (room : cs.length ≤ fuel)
    (read : Reading.separated.go (fun ls => (inside d k).dialect.hasTrailingTableCommas && Reading.endsAfterComma Dialect.endsTables ls)
      (Reading.entry (inside d k)) fuel (front.map Lexeme.turned) = .ok (es,r)) :
    r = [] ∧ ∃ e more, es = e :: more ∧ (Node.ofEntry hints e).result = .ok n ∧ ∀ left : Node,
      (more.foldlM (fun left e => do Node.joined left (← Node.ofEntry hints e) .comma) left : Noted AnalysisError Node).result =
        .ok (cs.foldl (fun l c => .join { kind := .comma } l c.node none) left) := by
  induction cs generalizing fuel front ts n es r with
  | nil =>
    have whole : front.map (·.token) = ts := by rw [shown,othersTokens,List.flatMap_nil,List.append_nil]
    have single (e : FromEntry) (mid : List Lexeme) (item : Reading.entry (inside d k) (front.map Lexeme.turned) = .ok (e,mid)) :
        mid = [] ∧ (Node.ofEntry hints e).result = .ok n :=
      isEntry k front [] e mid whole .nil (by rwa [List.append_nil]) (by rwa [List.append_nil])
    cases fuel with
    | zero =>
      rw [Reading.separated.go,Reading.map_run] at read
      obtain ⟨⟨e,mid⟩,item,done⟩ := bind_ok.mp read
      obtain ⟨rfl,built⟩ := single e mid item
      cases done
      exact ⟨rfl,e,[],rfl,built,fun _ => rfl⟩
    | succ fuel =>
      rw [Reading.separated.go,Reading.bind_run] at read
      obtain ⟨⟨e,mid⟩,item,later⟩ := bind_ok.mp read
      obtain ⟨rfl,built⟩ := single e mid item
      cases later
      exact ⟨rfl,e,[],rfl,built,fun _ => rfl⟩
  | cons c cs ih =>
    obtain ⟨fuel,rfl⟩ : ∃ m, fuel = m + 1 := ⟨fuel - 1,by simp at room; omega⟩
    obtain ⟨first,behind,rfl,tokens,others⟩ := List.map_eq_append_iff.mp shown
    have place := othersTokens_starts (c :: cs) others
    rw [othersTokens,List.flatMap_cons,List.cons_append] at others
    obtain ⟨comma,next,rfl,token,entries⟩ := List.map_eq_cons_iff.mp others
    have goesOn : Reading.endsAfterComma Dialect.endsTables (next.map Lexeme.turned) = false := by
      obtain ⟨operand,rest,rfl,inner,_⟩ := List.map_eq_append_iff.mp entries
      exact chain_goes_on c (fits c (by simp)) inner rest
    have taken : Reading.symbol? .comma ((comma :: next).map Lexeme.turned) = .ok (true,next.map Lexeme.turned) := by
      rw [List.map_cons,Lexeme.turned_symbol token]
      simp [Reading.symbol?,token]
    rw [Reading.separated.go,Reading.bind_run] at read
    obtain ⟨⟨e,mid⟩,item,later⟩ := bind_ok.mp read
    obtain ⟨rfl,built⟩ := isEntry k first (comma :: next) e mid tokens place told item
    simp only [Reading.bind_run,taken,Reading.ok_bind,Reading.get_run,goesOn,Bool.and_false,Bool.not_true,Bool.or_false,
      Bool.false_eq_true,if_false] at later
    obtain ⟨⟨es',mid⟩,go,done⟩ := bind_ok.mp later
    obtain ⟨rfl,e',more,rfl,built',folded⟩ := ih (fun c' member => fits c' (by simp [member])) (framed_isEntry (fits c (by simp)))
      fuel entries (told_append (a := first ++ [comma]) (by simpa using told)) (by simpa using room) go
    cases done
    refine ⟨rfl,e,e' :: more,rfl,built,fun left => ?_⟩
    have step : (do Node.joined left (← Node.ofEntry hints e') .comma : Noted AnalysisError Node).result =
        .ok (.join { kind := .comma } left c.node none) := by
      rw [Noted.result_bind,built']
      exact Node.joined_result left c.node rfl rfl
    rw [List.foldlM_cons,Noted.result_bind,step]
    exact folded _

-- A FROM clause that is read is read to its end, as the entries of its tree.
theorem fromList_only (s : Listing) (fits : s.Fits d) (k : Nat) {front : List Lexeme} (shown : front.map (·.token) = s.tokens)
    (told : Told hints front) (read : Reading.fromList (inside d k) (front.map Lexeme.turned) = .ok (es,r)) :
    r = [] ∧ (Node.ofEntries hints es).result = .ok s.node := by
  have size (cs : List Chain) : cs.length ≤ (othersTokens cs).length := by
    induction cs with
    | nil => exact Nat.le_refl _
    | cons c cs ih =>
      rw [othersTokens,List.flatMap_cons]
      simp only [othersTokens] at ih
      simp only [List.length_cons,List.length_append]
      omega
  have room : s.others.length ≤ (front.map Lexeme.turned).length := by
    have same := congrArg List.length shown
    have others := size s.others
    simp only [tokens,List.length_map,List.length_append] at same ⊢
    omega
  obtain ⟨rfl,e,more,rfl,built,folded⟩ := entries_only s.others fits.2 (first_isEntry fits.1) k _ shown told room read
  refine ⟨rfl,?_⟩
  rw [Node.ofEntries,Noted.result_bind,built]
  exact folded _

end Listing

end JoinTree
