import JoinTree.Proofs.JoinChain

/-!
String constants and their texts. Main statement: the text of a string reads back as the string exactly if no quote in it
stands behind another quote or behind a backslash, and it has no backslash where the dialect reads escapes.
-/

namespace JoinTree

open Sql

namespace Sql

-- A string that its text stands for.
def IsLiteralText (d : Dialect) (s : String) : Prop :=
  Ident.QuotesApart '\'' s.toList ∧ (d.hasBackslashEscapes = true → '\\' ∉ s.toList)

instance (d : Dialect) (s : String) : Decidable (IsLiteralText d s) := inferInstanceAs (Decidable (_ ∧ _))

-- How a quoted text is written and read at one character.

section
variable {q c before : Char} {cs : List Char}

theorem writeQuoted_escaped : writeQuoted q '\\' (q :: cs) = q :: writeQuoted q '\\' cs := by
  rw [writeQuoted.eq_def]
  simp

theorem writeQuoted_pair (plain : before ≠ '\\') : writeQuoted q before (q :: q :: cs) = q :: q :: writeQuoted q q cs := by
  rw [writeQuoted.eq_def]
  simp [plain]

theorem writeQuoted_single (plain : before ≠ '\\') (last : cs.head? ≠ some q) :
    writeQuoted q before (q :: cs) = q :: q :: writeQuoted q q cs := by
  rw [writeQuoted.eq_def]
  cases cs with
  | nil => simp [plain,writeQuoted]
  | cons c cs =>
    have other : c ≠ q := by simpa using last
    simp [plain,other]

theorem writeQuoted_other (other : c ≠ q) : writeQuoted q before (c :: cs) = c :: writeQuoted q c cs := by
  rw [writeQuoted.eq_def]
  simp [other]

end

namespace Token

-- What is read behind a character, with that in front.
abbrev put (c : Char) (k : Nat) (read : Option (List Char × Nat)) : Option (List Char × Nat) := read.map fun (s,n) => (c :: s,n + k)

theorem map_some {f : α → β} {r : Option (α × Nat)} (read : (r.map fun (s,n) => (f s,n + j)) = some (v,n)) :
    ∃ s i, r = some (s,i) ∧ v = f s ∧ n = i + j := by
  obtain ⟨⟨s,i⟩,inner,shown⟩ := Option.map_eq_some_iff.mp read
  cases shown
  exact ⟨s,i,inner,rfl,rfl⟩

section
variable {q c : Char} {escapes : Bool} {cs : List Char}

theorem quotedBody_pair : quotedBody q escapes (q :: q :: cs) = put q 2 (quotedBody q escapes cs) := by
  rw [quotedBody.eq_def]
  simp

theorem quotedBody_end (closed : cs.head? ≠ some q) : quotedBody q escapes (q :: cs) = some ([],1) := by
  rw [quotedBody.eq_def]
  cases cs with
  | nil => simp
  | cons c cs =>
    have other : c ≠ q := by simpa using closed
    simp [other]

theorem quotedBody_escape (quote : q ≠ '\\') : quotedBody q true ('\\' :: c :: cs) = put (unescaped c) 2 (quotedBody q true cs) := by
  rw [quotedBody.eq_def]
  simp [quote.symm]

theorem quotedBody_plain (other : c ≠ q) (plain : c = '\\' → escapes = false) :
    quotedBody q escapes (c :: cs) = put c 1 (quotedBody q escapes cs) := by
  have unescaped : ¬(c = '\\' ∧ escapes = true) := fun ⟨same,on⟩ => by simp [plain same] at on
  rw [quotedBody.eq_def]
  simp [other,unescaped]

end

theorem quotedBody_unescaped (cs : List Char) (free : escapes = true → '\\' ∉ cs) :
    quotedBody q escapes cs = quotedBody q false cs := by
  match cs with
  | [] => rfl
  | c :: cs =>
    have later : escapes = true → '\\' ∉ cs := fun on inside => free on (List.mem_cons_of_mem _ inside)
    by_cases same : c = q
    · subst same
      by_cases pair : cs.head? = some c
      · obtain ⟨cs,rfl⟩ := List.head?_eq_some_iff.mp pair
        have free : escapes = true → '\\' ∉ cs := fun on inside => later on (List.mem_cons_of_mem _ inside)
        rw [quotedBody_pair,quotedBody_pair,quotedBody_unescaped cs free]
      · rw [quotedBody_end pair,quotedBody_end pair]
    · have plain : c = '\\' → escapes = false := by
        rintro rfl
        exact Bool.eq_false_iff.mpr fun on => free on List.mem_cons_self
      rw [quotedBody_plain same plain,quotedBody_plain same fun _ => rfl,quotedBody_unescaped cs later]

-- What is read of a written text. It is no longer than that, and as long only if each quote was doubled and nothing was
-- taken for an escape.
structure Lasts (q : Char) (escapes : Bool) (before : Char) (cs v : List Char) : Prop where
  bound : v.length ≤ cs.length
  exact : v.length = cs.length →
    Ident.QuotesApart q cs ∧ (cs.head? = some q → before ≠ '\\') ∧ (escapes = true → '\\' ∉ cs)

theorem lasts_shorter (less : v.length < cs.length) : Lasts q escapes before cs v :=
  ⟨Nat.le_of_lt less,fun same => absurd same (Nat.ne_of_lt less)⟩

theorem lasts_cons (rest : Lasts q escapes c cs v) (first : c = q → before ≠ '\\' ∧ cs.head? ≠ some q)
    (plain : c = '\\' → escapes = false) : Lasts q escapes before (c :: cs) (c :: v) := by
  refine ⟨Nat.succ_le_succ rest.bound,fun same => ?_⟩
  obtain ⟨apart,behind,free⟩ := rest.exact (Nat.succ.inj same)
  refine ⟨?_,fun opening => (first (Option.some.inj opening)).1,fun on inside => ?_⟩
  · cases cs with
    | nil => exact .singleton _
    | cons c' cs =>
      refine .cons_cons (fun quoted => ?_) apart
      have head : (c' :: cs).head? = some q := congrArg some quoted
      exact ⟨fun same => (first same).2 head,behind head⟩
  · rcases List.mem_cons.mp inside with rfl | inside
    · simp [plain rfl] at on
    · exact free on inside

-- Two characters that are read as one.
theorem lasts_pair (rest : ∀ u m, r = some (u,m) → u.length ≤ cs.length) (read : put a 2 r = some (v,n)) :
    Lasts q escapes before (c :: c' :: cs) v := by
  obtain ⟨u,m,inner,rfl,rfl⟩ := map_some read
  exact lasts_shorter (by simpa using Nat.lt_succ_of_le (rest u m inner))

theorem quotedBody_written (quote : q ≠ '\\') (k : Nat) (cs : List Char) (short : cs.length < k)
    (read : quotedBody q escapes (writeQuoted q before cs ++ [q]) = some (v,n)) : Lasts q escapes before cs v := by
  induction k generalizing before cs v n with
  | zero => exact absurd short (Nat.not_lt_zero _)
  | succ k ih =>
  cases cs with
  | nil =>
    rw [writeQuoted,List.nil_append,quotedBody_end (by simp)] at read
    cases read
    refine ⟨Nat.le_refl _,fun _ => ⟨.nil,fun opening => ?_,fun _ => List.not_mem_nil⟩⟩
    cases opening
  | cons c cs =>
    by_cases same : c = q
    · subst same
      by_cases pair : cs.head? = some c
      · obtain ⟨cs,rfl⟩ := List.head?_eq_some_iff.mp pair
        by_cases escaped : before = '\\'
        · rw [escaped,writeQuoted_escaped,writeQuoted_escaped,List.cons_append,List.cons_append,quotedBody_pair] at read
          exact lasts_pair (fun _ _ inner => (ih cs (by simp at short; omega) inner).bound) read
        · rw [writeQuoted_pair escaped,List.cons_append,List.cons_append,quotedBody_pair] at read
          exact lasts_pair (fun _ _ inner => (ih cs (by simp at short; omega) inner).bound) read
      · by_cases escaped : before = '\\'
        -- The quote is not doubled. It ends the string, or goes with the last quote.
        · rw [escaped,writeQuoted_escaped,List.cons_append] at read
          cases cs with
          | nil =>
            rw [writeQuoted,List.nil_append,quotedBody_pair] at read
            cases read
          | cons c' cs =>
            have other : c' ≠ c := by simpa using pair
            rw [writeQuoted_other other,quotedBody_end (by simpa using other)] at read
            cases read
            exact lasts_shorter (Nat.zero_lt_succ _)
        · rw [writeQuoted_single escaped pair,List.cons_append,List.cons_append,quotedBody_pair] at read
          obtain ⟨u,m,inner,rfl,rfl⟩ := map_some read
          exact lasts_cons (ih cs (Nat.lt_of_succ_lt_succ short) inner) (fun _ => ⟨escaped,pair⟩) fun same => absurd same quote
    · rw [writeQuoted_other same,List.cons_append] at read
      by_cases escape : c = '\\' ∧ escapes = true
      · obtain ⟨rfl,rfl⟩ := escape
        cases cs with
        | nil =>
          rw [writeQuoted,List.nil_append,quotedBody_escape quote] at read
          cases read
        | cons c' cs =>
          by_cases quoted : c' = q
          · subst quoted
            rw [writeQuoted_escaped,List.cons_append,quotedBody_escape quote] at read
            exact lasts_pair (fun _ _ inner => (ih cs (by simp at short; omega) inner).bound) read
          · rw [writeQuoted_other quoted,List.cons_append,quotedBody_escape quote] at read
            exact lasts_pair (fun _ _ inner => (ih cs (by simp at short; omega) inner).bound) read
      · have plain : c = '\\' → escapes = false := fun same => Bool.eq_false_iff.mpr fun on => escape ⟨same,on⟩
        rw [quotedBody_plain same plain] at read
        obtain ⟨u,m,inner,rfl,rfl⟩ := map_some read
        exact lasts_cons (ih cs (Nat.lt_of_succ_lt_succ short) inner) (fun equal => absurd equal same) plain

theorem literalText_of_read (read : quotedBody '\'' (Dialect.hasBackslashEscapes d) (writeQuoted '\'' '\x00' s.toList ++ ['\'']) =
    some (s.toList,n)) : IsLiteralText d s := by
  obtain ⟨apart,_,free⟩ := (quotedBody_written (by decide) _ _ (Nat.lt_succ_self _) read).exact rfl
  exact ⟨apart,free⟩

theorem literalText_read (holds : IsLiteralText d s) :
    quotedBody '\'' d.hasBackslashEscapes (writeQuoted '\'' '\x00' s.toList ++ ['\'']) =
      some (s.toList,(writeQuoted '\'' '\x00' s.toList ++ ['\'']).length) := by
  obtain ⟨apart,free⟩ := holds
  have written : writeQuoted '\'' '\x00' s.toList = doubled '\'' s.toList := Ident.writeQuoted_doubled apart fun _ => by decide
  have unescaped : d.hasBackslashEscapes = true → '\\' ∉ doubled '\'' s.toList ++ ['\''] := by
    intro on inside
    simp only [doubled,List.mem_append,List.mem_flatMap,List.mem_singleton] at inside
    rcases inside with ⟨c,member,here⟩ | last
    · split at here
      · simp at here
      · exact free on (List.mem_singleton.mp here ▸ member)
    · cases last
  have body := quotedBody_doubled (show ([] : List Char).head? ≠ some '\'' from nofun) s.toList
  rw [written,quotedBody_unescaped _ unescaped,body]
  simp

end Token

-- Expressions that are made of others, or of which only the text is kept.
def Expr.isMade : Expr → Bool
  | .binary .. | .isNull _ | .isNotNull _ | .between .. | .phrase .. => true
  | _ => false

namespace Reading

-- What every answer of a reading is like.
def Answers (p : Reading α) (P : α → Prop) : Prop := ∀ ls a rest, p ls = .ok (a,rest) → P a

section
variable {P : α → Prop}

theorem answers_pure (holds : P a) : Answers (pure a) P := by
  intro ls a' rest same
  cases same
  exact holds

theorem answers_failure (e : SyntaxError) : Answers (throw e : Reading α) P := nofun

theorem answers_expected (what : String) : Answers (expected what : Reading α) P := nofun

theorem answers_bind {p : Reading β} {f : β → Reading α} (each : ∀ b, Answers (f b) P) : Answers (p >>= f) P := by
  intro ls a rest same
  obtain ⟨⟨b,behind⟩,_,last⟩ := bind_ok.mp same
  exact each b behind a rest last

theorem answers_then {Q : β → Prop} {p : Reading β} {f : β → Reading α} (first : Answers p Q) (each : ∀ b, Q b → Answers (f b) P) :
    Answers (p >>= f) P := by
  intro ls a rest same
  obtain ⟨⟨b,behind⟩,taken,last⟩ := bind_ok.mp same
  exact each b (first ls b behind taken) behind a rest last

theorem answers_iterate {step : α → Reading (Option α)} (start : P a)
    (each : ∀ a, P a → Answers (step a) fun next => ∀ b ∈ next, P b) : Answers (iterate step a) P := by
  have go (n : Nat) : ∀ a, P a → Answers (iterate.go step n a) P := by
    induction n with
    | zero => exact fun a holds => answers_pure holds
    | succ n ih =>
      intro a holds ls b rest same
      obtain ⟨⟨next,behind⟩,stepped,last⟩ := bind_ok.mp same
      cases next with
      | none => exact answers_pure holds behind b rest last
      | some a' => exact ih a' (each a holds ls _ behind stepped a' rfl) behind b rest last
  exact fun ls => go ls.length a start ls

end

variable {g : Grammar}

-- Operators make their operands into other expressions. Every way through a reading of one ends in such an expression, in a
-- failure or in the reading of another operator.

theorem rightOperand_made (place : Location) (left : Expr) (op : BinaryOp) (level : Nat) :
    Answers (rightOperand g place left op level) fun e => e.isMade = true := by
  unfold rightOperand
  repeat' first
    | exact answers_pure rfl
    | refine answers_bind fun _ => ?_
    | split

theorem normalised_made (left : Expr) : Answers (normalised left) fun e => e.isMade = true := by
  unfold normalised
  repeat' first
    | exact answers_pure rfl
    | exact answers_expected _
    | refine answers_bind fun _ => ?_
    | split

theorem isOf_made (left : Expr) : Answers (isOf g left) fun e => e.isMade = true := by
  unfold isOf
  repeat' first
    | exact answers_pure rfl
    | exact normalised_made left
    | refine answers_bind fun _ => ?_
    | split

theorem inOf_made (left : String) : Answers (inOf g left) fun e => e.isMade = true := by
  unfold inOf
  repeat' first
    | exact answers_pure rfl
    | refine answers_bind fun _ => ?_
    | split

theorem likeOf_made (opening : String) (any : Bool) : Answers (likeOf g opening any) fun e => e.isMade = true := by
  unfold likeOf
  repeat' first
    | exact answers_pure rfl
    | refine answers_bind fun _ => ?_

theorem patternOf_made (left : Expr) : Answers (patternOf g left) fun e => e.isMade = true := by
  unfold patternOf
  repeat' first
    | exact answers_pure rfl
    | exact answers_expected _
    | exact inOf_made _
    | exact likeOf_made _ _
    | refine answers_bind fun _ => ?_
    | split

-- The expression that was read first, or one made of it.
def FromLeft (left e : Expr) : Prop := e = left ∨ e.isMade = true

theorem answers_made {p : Reading Expr} (made : Answers p fun e => e.isMade = true) : Answers p (FromLeft left) :=
  fun ls e rest same => .inr (made ls e rest same)

theorem operated_left (left : Expr) (level : Nat) : Answers (operated g left level) (FromLeft left) := by
  unfold operated
  apply answers_bind
  intro next
  cases next with
  | none => exact answers_pure (.inl rfl)
  | some l =>
    apply answers_made
    repeat' first
      | exact answers_pure rfl
      | exact answers_failure _
      | exact answers_expected _
      | exact rightOperand_made _ _ _ _
      | exact isOf_made _
      | exact patternOf_made _
      | refine answers_bind fun _ => ?_
      | split

theorem collated_left (left : Expr) : Answers (collated g left) (FromLeft left) := by
  unfold collated
  apply answers_bind
  intro found
  split
  · exact answers_bind fun _ => answers_pure (.inr rfl)
  · exact answers_pure (.inl rfl)

theorem followed_left (root : Expr) (steps : List PathStep) (unnamed : ∀ i, root ≠ .ident i) : FromLeft root (followed root steps) := by
  unfold followed
  split
  · exact .inl rfl
  · exact absurd rfl (unnamed _)
  · exact .inr rfl

theorem pathFrom_left (ls : List Lexeme) (root : Expr) (unnamed : ∀ i, root ≠ .ident i) : Answers (pathFrom g ls root) (FromLeft root) := by
  unfold pathFrom
  apply answers_bind
  intro steps
  apply answers_bind
  intro marked
  split
  · apply answers_made
    repeat' first
      | exact answers_pure rfl
      | exact answers_failure _
      | refine answers_bind fun _ => ?_
      | split
  · exact answers_pure (followed_left root steps unnamed)

theorem further_left (left : Expr) (level : Nat) (from_first : FromLeft first left) :
    Answers (further g level left) fun next => ∀ e ∈ next, FromLeft first e := by
  unfold further
  apply answers_bind
  intro ls
  apply answers_bind
  intro period
  split
  · exact answers_pure nofun
  · refine answers_then (operated_left left _) fun e made => answers_pure ?_
    intro e' same
    cases same
    rcases made with rfl | made
    · exact from_first
    · exact .inr made

theorem start_string (l : Lexeme) (token : l.token = .string v) :
    start g (l :: ls) = collated g (.literal (.string v)) ls := by
  unfold start
  rw [startWithin]
  simp only [bind_run,ahead?,token?,List.head?_cons,Option.map_some,Option.bind_some,token,Token.keyword?,ok_bind,
    Option.isSome_none,Bool.false_eq_true,if_false,literal,next?]
  rfl

-- A text that starts with a string is read as that string or as an expression made of others.
theorem operandOf_string (l : Lexeme) (token : l.token = .string v) (read : operandOf g level (l :: ls) = .ok (e,rest)) :
    FromLeft (.literal (.string v)) e := by
  rw [operandOf_run,start_string l token] at read
  obtain ⟨⟨root,behind⟩,first,read⟩ := bind_ok.mp read
  obtain ⟨⟨path,later⟩,second,read⟩ := bind_ok.mp read
  have root_left := collated_left _ _ _ _ first
  have unnamed : ∀ i, root ≠ .ident i := by
    rintro i rfl
    rcases root_left with same | made
    · cases same
    · cases made
  have path_left : FromLeft (.literal (.string v)) path := by
    rcases pathFrom_left _ root unnamed _ _ _ second with rfl | made
    · exact root_left
    · exact .inr made
  exact answers_iterate path_left (fun left inside => further_left left level inside) _ _ _ read

theorem operandOf_alone (l : Lexeme) (token : l.token = .string v) :
    operandOf (Grammar.inside d n) level [l] = .ok (.literal (.string v),[]) := by
  have nothing : Sign.Read [] [] := rfl
  rw [operandOf_run,start_string l token,collated_ended .nil,ok_bind,pathFrom_ended nothing (Sign.regular_nil d .ended),ok_bind]
  rfl

end Reading

theorem Expr.isMade_constant (made : isMade e = true) : Node.ofExpr e ≠ .ok (.constant c) := by
  intro built
  generalize same : Node.constant c = n at built
  cases Node.ofExpr_iff.mp built with
  | literal | plus | folded | nested => cases made
  | between negated => cases negated <;> cases same
  | _ => cases same

namespace Token

theorem first_string (d : Dialect) (prev : Option Token) (cs : List Char) : first d prev '\'' cs =
    match quotedBody '\'' d.hasBackslashEscapes cs with
    | some (s,n) => .ok (.string (.ofList s),n)
    | none => .error (.unterminatedString,0) := rfl

-- The first lexeme of a text that does not start with a blank.
theorem scan_opens (read : first d none c cs = .ok (t,n)) (shown : ∀ b, t ≠ .blank b) (scanned : scan d (c :: cs) = .ok ls) :
    ∃ l rest, ls = l :: rest ∧ l.token = t := by
  obtain ⟨raw,whole,same⟩ := bind_ok.mp scanned
  cases same
  rw [scanFrom,read] at whole
  obtain ⟨own,single,whole⟩ := bind_ok.mp whole
  rw [isKept_plain d (fun s => shown (.blockComment s)) none ⟨t,_,_,_⟩ rfl] at single
  cases single
  obtain ⟨more,_,whole⟩ := bind_ok.mp whole
  cases whole
  cases t with
  | blank b => exact absurd rfl (shown b)
  | _ => exact ⟨_,_,rfl,rfl⟩

-- A text that is one token.
theorem scan_only (read : first d none c cs = .ok (t,cs.length)) (shown : ∀ b, t ≠ .blank b) :
    ∃ l, scan d (c :: cs) = .ok [l] ∧ l.token = t := by
  rw [← List.append_nil cs] at read
  have scanned := scanFrom_token (d := d) (l := .start) (c :: cs) (fun s => shown (.blockComment s)) rfl
    (read.trans (by rw [List.append_nil]))
  rw [List.append_nil] at scanned
  refine ⟨⟨t,.start,Location.start.pastAll (c :: cs),[]⟩,?_,rfl⟩
  rw [scan,scanned]
  cases t with
  | blank b => exact absurd rfl (shown b)
  | _ => rfl

-- A text that starts with a quote has a string as its first lexeme.
theorem scan_string (scanned : scan d ('\'' :: cs) = .ok ls) : ∃ v n l rest, ls = l :: rest ∧ l.token = .string (.ofList v) ∧
    quotedBody '\'' d.hasBackslashEscapes cs = some (v,n) := by
  cases body : quotedBody '\'' d.hasBackslashEscapes cs with
  | none =>
    rw [scan,scanFrom,first_string,body] at scanned
    cases scanned
  | some p =>
    have read : first d none '\'' cs = .ok (.string (.ofList p.1),p.2) := by rw [first_string,body]
    obtain ⟨l,rest,whole,token⟩ := scan_opens read (fun _ => Token.noConfusion) scanned
    exact ⟨p.1,p.2,l,rest,whole,token,rfl⟩

theorem scan_alone (body : quotedBody '\'' (Dialect.hasBackslashEscapes d) cs = some (v,cs.length)) :
    ∃ l, scan d ('\'' :: cs) = .ok [l] ∧ l.token = .string (.ofList v) :=
  scan_only (by rw [first_string,body]) fun _ => Token.noConfusion

end Token

theorem quotedText_crisp (s : String) : Expr.Crisp (quotedText '\'' s).toList := by
  have both := Expr.crisp_join _ (writeQuoted '\'' '\x00' s.toList) _ (Expr.crisp_single (c := '\'') rfl)
    (Expr.crisp_single (c := '\'') rfl)
  simpa [quotedText] using both

theorem parseExpr_scan {sql : String} (crisp : Expr.Crisp sql.toList) : ∃ n, parseExpr d sql =
    ((Token.scan d sql.toList).mapError (fun p => .lexical p.1 p.2) >>= fun ls =>
      Prod.fst <$> Reading.operandOf (Grammar.inside d n) 0 ls).mapError .unreadable := by
  obtain ⟨trimmed,some⟩ := Expr.trim_crisp crisp
  have whole : nonEmpty sql = .ok sql := by simp [nonEmpty,trimmed,some]
  obtain ⟨n,levels⟩ : ∃ n, Grammar.maxLevels = n + 1 := ⟨_,rfl⟩
  have expression (ls : List Lexeme) : Grammar.expression d ls = Reading.operandOf (Grammar.inside d n) 0 ls := by
    rw [← Grammar.plainOperand_succ,← levels]
    rfl
  refine ⟨n,?_⟩
  simp only [parseExpr,whole,Reading.ok_bind,Expr.read,expression]

end Sql

namespace Node

-- A text of one string is that constant.
theorem ofExprText_alone {sql : String} (shown : sql.toList = '\'' :: (cs ++ ['\'']))
    (body : Token.quotedBody '\'' (Dialect.hasBackslashEscapes d) (cs ++ ['\'']) = some (v,(cs ++ ['\'']).length)) :
    ofExprText d sql = .ok (constant (.string (.ofList v))) := by
  have crisp : Expr.Crisp sql.toList := by
    rw [shown]
    exact Expr.crisp_join ['\''] cs ['\''] (Expr.crisp_single rfl) (Expr.crisp_single rfl)
  obtain ⟨n,parse⟩ := parseExpr_scan (d := d) crisp
  obtain ⟨l,scanned,token⟩ := Token.scan_alone body
  rw [ofExprText,parse,shown,scanned,mapError_value,Reading.ok_bind,Reading.operandOf_alone l token]
  rfl

-- A string constant is read back from its text exactly if each quote in it is doubled there and nothing is an escape.
theorem ofExprText_string (d : Dialect) (s : String) :
    ofExprText d (constant (.string s)).text = .ok (constant (.string s)) ↔ IsLiteralText d s := by
  have shown : (constant (.string s)).text.toList = '\'' :: (writeQuoted '\'' '\x00' s.toList ++ ['\'']) := by
    have text : (constant (.string s)).text = quotedText '\'' s := rfl
    simp [text,quotedText]
  constructor
  · intro built
    obtain ⟨e,read,built⟩ := bind_ok.mp built
    obtain ⟨n,parse⟩ := parseExpr_scan (d := d) (quotedText_crisp s)
    have read := (mapError_ok.mp read).symm.trans parse
    obtain ⟨ls,scanned,read⟩ := bind_ok.mp (mapError_ok.mp read.symm)
    obtain ⟨⟨e',rest⟩,done,same⟩ := map_ok.mp read
    have scanned := (congrArg (Token.scan d) shown).symm.trans (mapError_ok.mp scanned)
    obtain ⟨v,n,l,more,rfl,token,body⟩ := Token.scan_string scanned
    have left : Reading.FromLeft (.literal (.string (.ofList v))) e' := Reading.operandOf_string l token done
    have whole : v = s.toList := by
      rcases left with rfl | made
      · rw [← same] at built
        have same := Constant.string.inj (constant.inj (Except.ok.inj built))
        rw [← same,String.toList_ofList]
      · exact absurd built (same ▸ Expr.isMade_constant made)
    rw [whole] at body
    exact Token.literalText_of_read body
  · intro holds
    have read := ofExprText_alone shown (Token.literalText_read holds)
    rwa [String.ofList_toList] at read

-- A string with two quotes in a row, as `'a''''b'` is read. Its text keeps them as they are.
theorem doubled_quotes_merged :
    let n := constant (.string "a''b")
    ofExprText .clickHouse "'a''''b'" = .ok n ∧ n.text = "'a''b'" ∧
      ofExprText .clickHouse n.text = .ok (constant (.string "a'b")) ∧ ofExprText .clickHouse n.text ≠ .ok n := by
  have body : Token.quotedBody '\'' true ("a''''b".toList ++ ['\'']) = some ("a''b".toList,7) := by decide +kernel
  have read : ofExprText .clickHouse "'a''''b'" = .ok (constant (.string "a''b")) := ofExprText_alone (by decide +kernel) body
  have body : Token.quotedBody '\'' true ("a''b".toList ++ ['\'']) = some ("a'b".toList,5) := by decide +kernel
  have again : ofExprText .clickHouse "'a''b'" = .ok (constant (.string "a'b")) := ofExprText_alone (by decide +kernel) body
  have text : (constant (.string "a''b")).text = "'a''b'" := by decide +kernel
  refine ⟨read,text,by rw [text,again],?_⟩
  rw [text,again]
  simp

end Node

end JoinTree
