import JoinTree.Proofs.Spelling
import JoinTree.Sql.Grammar.Query

/-!
What the grammar does with the signs of plain expressions: none of the many forms that a word or a symbol can open
comes into play, and what is left are names, calls, parentheses, signs in front and operators.
-/

namespace JoinTree.Sql

namespace Reading

-- Readings as functions of the lexemes.

theorem bind_run (p : Reading α) (f : α → Reading β) (ls : List Lexeme) : (p >>= f) ls = (p ls >>= fun r => f r.1 r.2) :=
  rfl

theorem pure_run (a : α) (ls : List Lexeme) : (pure a : Reading α) ls = .ok (a,ls) := rfl

theorem map_run (f : α → β) (p : Reading α) (ls : List Lexeme) :
    (f <$> p) ls = (p ls >>= fun r => .ok (f r.1,r.2)) := rfl

theorem ok_bind (a : α) (f : α → Except ε β) : (Except.ok a >>= f) = f a := rfl
theorem error_bind (e : ε) (f : α → Except ε β) : (Except.error e >>= f) = .error e := rfl

end Reading

namespace Sign

-- The lexemes have the signs as their tokens.
def Read (ss : List Sign) (ls : List Lexeme) : Prop := ls.map (·.token) = ss.map token

theorem read_nil (read : Read [] ls) : ls = [] := by simpa [Read] using read

theorem read_cons (read : Read (s :: ss) ls) : ∃ l rest, ls = l :: rest ∧ l.token = s.token ∧ Read ss rest := by
  cases ls with
  | nil => cases read
  | cons l rest =>
    simp only [Read,List.map_cons,List.cons.injEq] at read
    exact ⟨l,rest,rfl,read⟩

theorem lexeme_read (read : Read ss (l :: ls)) : ∃ s rest, ss = s :: rest ∧ l.token = s.token ∧ Read rest ls := by
  cases ss with
  | nil => cases read
  | cons s rest =>
    simp only [Read,List.map_cons,List.cons.injEq] at read
    exact ⟨s,rest,rfl,read⟩

-- No other sign is written like these.
theorem token_punctuation (same : token s = .symbol x) :
    (x = .comma → s = .comma) ∧ (x = .lparen → s = .lparen) ∧ (x = .rparen → s = .rparen) := by
  cases s with
  | op o => cases o <;> cases same <;> simp
  | _ => cases same <;> simp

theorem token_not : token .not = .word "NOT" none (some .NOT) := rfl
theorem token_is : token .is = .word "IS" none (some .IS) := rfl
theorem token_null : token .null = .word "NULL" none (some .NULL) := rfl

theorem token_name (d : Dialect) (name : d.isPlainName v = true) : token (.name v) = .word v none none := by
  simp only [Dialect.isPlainName,Bool.and_eq_true,Option.isNone_iff_eq_none] at name
  simp [token,piece,Piece.token,Token.ofWord,name.2]

-- Where an expression may stand next to signs that were read: where an operand is asked for, behind the parenthesis
-- that opens a call, behind a name, behind another operand, and behind IS and IS NOT. Where reading has ended, either
-- something follows an operand or an operand is still to come.
inductive Place where
  | operand | opened | named | behind | test | negatedTest | ended
  deriving DecidableEq, Repr

def Place.next (d : Dialect) : Place → Sign → Option Place
  | operand, name v | opened, name v | ended, name v => if d.isPlainName v then some named else none
  | operand, lparen | operand, not | operand, op .minus => some operand
  | opened, lparen | opened, not | opened, op .minus => some operand
  | ended, lparen | ended, not => some operand
  | opened, rparen => some behind
  | named, lparen => some opened
  | named, op o | behind, op o | ended, op o => if o.isPlain then some operand else none
  | named, rparen | behind, rparen | ended, rparen => some behind
  | named, comma | behind, comma | ended, comma => some operand
  | named, is | behind, is | ended, is => some test
  | test, null => some behind
  | test, not => some negatedTest
  | negatedTest, null => some behind
  | _, _ => none

-- Signs that may follow at a place, as far as they go.
def Regular (d : Dialect) (p : Place) (ss : List Sign) : Prop := (ss.foldlM (Place.next d) p).isSome = true

theorem regular_nil (d : Dialect) (p : Place) : Regular d p [] := rfl

theorem regular_cons : Regular d p (s :: ss) ↔ ∃ q, p.next d s = some q ∧ Regular d q ss := by
  unfold Regular
  rw [List.foldlM_cons]
  cases p.next d s <;> simp

theorem regular_prefix (regular : Regular d p (ss ++ more)) : Regular d p ss := by
  induction ss generalizing p with
  | nil => rfl
  | cons s ss ih =>
    obtain ⟨q,step,later⟩ := regular_cons.mp regular
    exact regular_cons.mpr ⟨q,step,ih later⟩

end Sign

namespace Sign

-- The symbols and words that a place admits.

def Place.symbols : Place → List Symbol
  | operand => [.lparen,.minus]
  | opened => [.rparen,.lparen,.minus]
  | named | ended => [.lparen,.rparen,.comma,.minus,.eq,.neq,.lt,.gt,.ltEq,.gtEq,.plus,.mul,.div,.mod,.concat]
  | behind => [.rparen,.comma,.minus,.eq,.neq,.lt,.gt,.ltEq,.gtEq,.plus,.mul,.div,.mod,.concat]
  | test | negatedTest => []

def Place.words : Place → List (Option Keyword)
  | operand | opened => [none,some .NOT]
  | named | behind => [some .AND,some .OR,some .IS]
  | test => [some .NULL,some .NOT]
  | negatedTest => [some .NULL]
  | ended => [none,some .NOT,some .AND,some .OR,some .IS]

-- Lexemes that end or start with one of the symbols and words.
inductive Starts (symbols : List Symbol) (words : List (Option Keyword)) : List Lexeme → Prop where
  | nil : Starts symbols words []
  | symbol (s : Symbol) : s ∈ symbols → l.token = .symbol s → Starts symbols words (l :: ls)
  | word {quote : Option Char} (v : String) (k : Option Keyword) :
      k ∈ words → l.token = .word v quote k → Starts symbols words (l :: ls)

-- Lexemes that end or start with what the place admits.
abbrev At (p : Place) : List Lexeme → Prop := Starts p.symbols p.words

theorem at_of_next (p : Place) (s : Sign) (token : l.token = s.token) (step : p.next d s = some q) : At p (l :: ls) := by
  cases s with
  | name v =>
    have plain : d.isPlainName v = true ∧ none ∈ p.words := by
      cases p
      case operand | opened | ended =>
        simp only [Place.next] at step
        split at step
        · exact ⟨‹_›,by decide⟩
        · cases step
      all_goals cases step
    exact .word v none plain.2 (token.trans (token_name d plain.1))
  | op o =>
    cases o
    case other => cases p <;> simp [Place.next,BinaryOp.isPlain] at step
    case and | or => cases p <;> first | exact .word _ _ (by decide) token | cases step
    all_goals cases p <;> first | exact .symbol _ (by decide) token | cases step
  | lparen | rparen | comma => cases p <;> first | exact .symbol _ (by decide) token | cases step
  | is | not | null => cases p <;> first | exact .word _ _ (by decide) token | cases step

theorem at_of_regular (read : Read ss ls) (regular : Regular d p ss) : At p ls := by
  cases ss with
  | nil =>
    obtain rfl := read_nil read
    exact .nil
  | cons s ss =>
    obtain ⟨l,rest,rfl,token,_⟩ := read_cons read
    obtain ⟨q,step,_⟩ := regular_cons.mp regular
    exact at_of_next p s token step

-- What follows at each place.

theorem operand_next (step : Place.operand.next d s = some q) :
    (∃ v, s = .name v ∧ d.isPlainName v = true ∧ q = .named) ∨ (s = .lparen ∨ s = .not ∨ s = .op .minus) ∧ q = .operand := by
  cases s with
  | name v =>
    simp only [Place.next] at step
    split at step
    · cases step
      exact .inl ⟨v,rfl,‹_›,rfl⟩
    · cases step
  | op o =>
    cases o <;> cases step
    exact .inr ⟨.inr (.inr rfl),rfl⟩
  | lparen | not =>
    cases step
    exact .inr ⟨by simp,rfl⟩
  | rparen | comma | is | null => cases step

theorem behind_next (step : Place.behind.next d s = some q) :
    (∃ o, s = .op o ∧ o.isPlain = true ∧ q = .operand) ∨ s = .rparen ∧ q = .behind ∨ s = .comma ∧ q = .operand ∨
    s = .is ∧ q = .test := by
  cases s with
  | op o =>
    simp only [Place.next] at step
    split at step
    · cases step
      exact .inl ⟨o,rfl,‹_›,rfl⟩
    · cases step
  | rparen | comma | is =>
    cases step
    simp
  | name | lparen | not | null => cases step

theorem named_next (step : Place.named.next d s = some q) :
    s = .lparen ∧ q = .opened ∨ s ≠ .lparen ∧ Place.behind.next d s = some q := by
  cases s with
  | lparen =>
    cases step
    exact .inl ⟨rfl,rfl⟩
  | _ => exact .inr ⟨by simp,step⟩

theorem opened_next (step : Place.opened.next d s = some q) :
    s = .rparen ∧ q = .behind ∨ s ≠ .rparen ∧ Place.operand.next d s = some q := by
  cases s with
  | rparen =>
    cases step
    exact .inl ⟨rfl,rfl⟩
  | op o => exact .inr ⟨by simp,by cases o <;> exact step⟩
  | _ => exact .inr ⟨by simp,step⟩

theorem ended_next (step : Place.ended.next d s = some q) : Place.behind.next d s = some q ∨ Place.operand.next d s = some q := by
  cases s with
  | name | lparen | not => exact .inr step
  | _ => exact .inl step

-- At a place where every sign may stand that may stand at another.
theorem regular_wider (wider : ∀ s q, p.next d s = some q → p'.next d s = some q) (regular : Regular d p ss) : Regular d p' ss := by
  cases ss with
  | nil => rfl
  | cons s ss =>
    obtain ⟨q,step,later⟩ := regular_cons.mp regular
    exact regular_cons.mpr ⟨q,wider s q step,later⟩

theorem regular_behind_ended (regular : Regular d .behind ss) : Regular d .ended ss := by
  refine regular_wider (fun s q step => ?_) regular
  cases s <;> first | exact step | cases step

theorem regular_behind_named (regular : Regular d .behind ss) : Regular d .named ss := by
  refine regular_wider (fun s q step => ?_) regular
  cases s <;> first | exact step | cases step

theorem regular_operand_ended (regular : Regular d .operand ss) : Regular d .ended ss := by
  refine regular_wider (fun s q step => ?_) regular
  cases s with
  | op o => cases o <;> first | exact step | cases step
  | _ => first | exact step | cases step

theorem test_next (step : Place.test.next d s = some q) : s = .null ∧ q = .behind ∨ s = .not ∧ q = .negatedTest := by
  cases s with
  | null => exact .inl ⟨rfl,(Option.some.inj step).symm⟩
  | not => exact .inr ⟨rfl,(Option.some.inj step).symm⟩
  | _ => cases step

theorem negatedTest_next (step : Place.negatedTest.next d s = some q) : s = .null ∧ q = .behind := by
  cases s with
  | null => exact ⟨rfl,(Option.some.inj step).symm⟩
  | _ => cases step

theorem at_behind_ended (place : At .behind ls) : At .ended ls := by
  cases place with
  | nil => exact .nil
  | symbol s member token => exact .symbol s (List.mem_cons_of_mem _ member) token
  | word v k member token => exact .word v k (List.mem_cons_of_mem _ (List.mem_cons_of_mem _ member)) token

-- A parenthesis opens an operand, so neither a star nor a plus sign stands behind it.
theorem symbol_second (regular : Regular d .ended ss) (shown : ss.map token = .symbol .lparen :: .symbol x :: rest) :
    x = .lparen ∨ x = .minus := by
  cases ss with
  | nil => cases shown
  | cons s ss =>
    obtain ⟨q,step,later⟩ := regular_cons.mp regular
    obtain ⟨first,second⟩ := List.cons.inj shown
    cases ss with
    | nil => cases second
    | cons s' ss =>
      have open' : q = .operand := by
        rcases ended_next step with step | step
        · rcases behind_next step with ⟨o,rfl,plain,_⟩ | ⟨rfl,_⟩ | ⟨rfl,_⟩ | ⟨rfl,_⟩ <;> first | cases first | skip
          cases o <;> cases first
        · rcases operand_next step with ⟨v,rfl,name,_⟩ | ⟨_,same⟩
          · rw [token_name d name] at first
            cases first
          · exact same
      obtain ⟨_,step,_⟩ := regular_cons.mp (open' ▸ later)
      have symbol := (List.cons.inj second).1
      rcases operand_next step with ⟨v,rfl,name,_⟩ | ⟨rfl | rfl | rfl,_⟩
      · rw [token_name d name] at symbol
        cases symbol
      all_goals cases symbol <;> simp

end Sign

namespace Reading

open Sign (At Starts)

section
variable {ls : List Lexeme}

-- Tests for what a place does not admit.

theorem at_keyword? (place : Starts ss ws ls) (other : some k ∉ ws) : keyword? k ls = .ok (false,ls) := by
  cases place with
  | nil => rfl
  | symbol s _ token => simp [keyword?,token,Token.keyword?]
  | word v k' member token =>
    have differs : k' ≠ some k := fun same => other (same ▸ member)
    simp [keyword?,token,Token.keyword?,differs]

theorem at_keywords? (place : Starts ss ws ls) (other : some k ∉ ws) : keywords? (k :: ks) ls = .ok (false,ls) := by
  cases place with
  | nil => rfl
  | symbol s _ token => simp [keywords?,token,Token.keyword?]
  | word v k' member token =>
    have differs : k' ≠ some k := fun same => other (same ▸ member)
    simp [keywords?,token,Token.keyword?,differs]

theorem at_oneOf? (ks : List Keyword) (place : Starts ss ws ls) (other : ws.all (!·.any ks.contains) = true) :
    oneOf? ks ls = .ok (none,ls) := by
  cases place with
  | nil => rfl
  | symbol s _ token => simp [oneOf?,token,Token.keyword?]
  | word v k' member token =>
    have differs := List.all_eq_true.mp other k' member
    cases k' with
    | none => simp [oneOf?,token,Token.keyword?]
    | some k' =>
      simp only [Option.any_some,Bool.not_eq_true'] at differs
      simp only [oneOf?,token,Token.keyword?,differs,Bool.false_eq_true,if_false]

theorem at_anyAhead (ks : List Keyword) (place : Starts ss ws ls) (other : ws.all (!·.any ks.contains) = true) :
    anyAhead ks ls = .ok (false,ls) := by
  cases place with
  | nil => rfl
  | symbol s _ token => simp [anyAhead,ahead?,bind_run,pure_run,ok_bind,token,Token.keyword?]
  | word v k' member token =>
    have differs := List.all_eq_true.mp other k' member
    simp only [Bool.not_eq_true'] at differs
    simp only [anyAhead,ahead?,bind_run,pure_run,ok_bind,List.head?_cons,Option.bind_some,token,Token.keyword?,differs]

theorem at_isAhead (place : Starts ss ws ls) (other : some k ∉ ws) : isAhead k ls = .ok (false,ls) := by
  cases place with
  | nil => simp [isAhead,ahead?,bind_run,pure_run,ok_bind]
  | symbol s _ token => simp [isAhead,ahead?,bind_run,pure_run,ok_bind,token,Token.keyword?]
  | word v k' member token =>
    have differs : k' ≠ some k := fun same => other (same ▸ member)
    simp [isAhead,ahead?,bind_run,pure_run,ok_bind,token,Token.keyword?,differs]

theorem at_symbol? (place : Starts ss ws ls) (other : s ∉ ss) : symbol? s ls = .ok (false,ls) := by
  cases place with
  | nil => rfl
  | word v k' _ token => simp [symbol?,token]
  | symbol s' member token =>
    have differs : s' ≠ s := fun same => other (same ▸ member)
    simp [symbol?,token,differs]

theorem at_symbolAhead (place : Starts ss ws ls) (other : s ∉ ss) : symbolAhead s ls = .ok (false,ls) := by
  cases place with
  | nil => rfl
  | word v k' _ token => simp [symbolAhead,token?,bind_run,pure_run,ok_bind,token]
  | symbol s' member token =>
    have differs : s' ≠ s := fun same => other (same ▸ member)
    simp [symbolAhead,token?,bind_run,pure_run,ok_bind,token,differs]

-- A way through the turns of a repetition: from a value and the lexemes in front of it to the last value and what is
-- behind it.
inductive Turns (step : α → Reading (Option α)) : α → List Lexeme → α → List Lexeme → Prop where
  | stop : step a front = .ok (none,front) → Turns step a front a front
  | step : step a front = .ok (some b,rest) → rest.length < front.length → Turns step b rest last behind →
      Turns step a front last behind

theorem iterate_turns (turns : Turns step a ls last behind) : iterate step a ls = .ok (last,behind) := by
  have enough (n : Nat) (room : ls.length ≤ n) : iterate.go step n a ls = .ok (last,behind) := by
    induction turns generalizing n with
    | stop done =>
      cases n with
      | zero => rfl
      | succ n => simp [iterate.go,bind_run,done,ok_bind,pure_run]
    | step done shorter _ ih =>
      cases n with
      | zero => omega
      | succ n => simp [iterate.go,bind_run,done,ok_bind,ih n (by omega)]
  exact enough ls.length (Nat.le_refl _)

-- Behind an operand no order is named and no path goes on.

theorem collated_stop (place : Starts ss ws ls) (other : some .COLLATE ∉ ws) : collated g e ls = .ok (e,ls) := by
  have absent := at_keyword? (k := .COLLATE) place other
  unfold collated provided
  split <;> simp [bind_run,absent,ok_bind,pure_run]

theorem collated_ended (place : At .ended ls) : collated g e ls = .ok (e,ls) := collated_stop place (by decide)

theorem outerMarkAhead_ended (read : Sign.Read ss ls) (regular : Sign.Regular d .ended ss) :
    outerMarkAhead d' ls = .ok (false,ls) := by
  have other : (ls.take 3).map (·.token) ≠ outerMark := by
    intro same
    have marked : ∃ rest, ss.map Sign.token = .symbol .lparen :: .symbol .plus :: rest := by
      rw [← show ls.map (·.token) = ss.map Sign.token from read]
      refine ⟨.symbol .rparen :: (ls.drop 3).map (·.token),?_⟩
      rw [← List.take_append_drop 3 ls,List.map_append,same]
      simp [outerMark]
    obtain ⟨rest,shown⟩ := marked
    rcases Sign.symbol_second regular shown with same | same <;> cases same
  simp only [outerMarkAhead,other,decide_false,Bool.and_false]

theorem pathFrom_turns (turns : Turns (pathStep g) [] ls steps rest) (unmarked : outerMarkAhead g.dialect rest = .ok (false,rest)) :
    pathFrom g before e ls = .ok (followed e steps,rest) := by
  simp [pathFrom,bind_run,iterate_turns turns,ok_bind,unmarked,pure_run]

theorem pathStep_absent (place : Starts ss ws ls) (other : .period ∉ ss ∧ .lbracket ∉ ss) :
    pathStep g steps ls = .ok (none,ls) := by
  simp [pathStep,bind_run,at_symbolAhead (s := .period) place other.1,at_symbolAhead (s := .lbracket) place other.2,ok_bind,
    pure_run]

theorem pathFrom_ended (read : Sign.Read ss ls) (regular : Sign.Regular d .ended ss) :
    pathFrom g before e ls = .ok (e,ls) :=
  pathFrom_turns (.stop (pathStep_absent (Sign.at_of_regular read regular) (by decide))) (outerMarkAhead_ended read regular)

theorem plainWord_name (p : Reading Expr) (word : Ident) (place : Starts ss ws ls) (other : .lparen ∉ ss ∧ .arrow ∉ ss) :
    plainWord g p word ls = .ok (.ident word,ls) := by
  cases place with
  | nil => rfl
  | word v k _ token =>
    simp only [plainWord,bind_run,token?,List.head?_cons,Option.map_some,token,ok_bind]
    rfl
  | symbol s member token =>
    simp only [plainWord,bind_run,token?,List.head?_cons,Option.map_some,token,ok_bind]
    cases s
    case lparen => exact absurd member other.1
    case arrow => exact absurd member other.2
    all_goals rfl

-- The first lexeme of an operand.

theorem start_free (g : Grammar) (ls : List Lexeme) (l : Lexeme) (token : l.token = .word v q none) :
    ∃ p, start g (l :: ls) = wordExpr g p ⟨v,q⟩ none ls := by
  refine ⟨intervalOf g (startWithin g (l :: ls).length),?_⟩
  unfold start
  rw [startWithin]
  simp only [bind_run,ahead?,token?,List.head?_cons,Option.map_some,Option.bind_some,token,Token.keyword?,ok_bind,
    Option.isSome_none,Bool.false_eq_true,if_false]
  rfl

theorem start_keyword (g : Grammar) (ls : List Lexeme) (l : Lexeme) (token : l.token = .word v q (some k))
    (untyped : ∀ p, attempt (typedLiteral g p) (l :: ls) = .ok (none,l :: ls)) :
    ∃ p, start g (l :: ls) = wordExpr g p ⟨v,q⟩ (some k) ls := by
  refine ⟨intervalOf g (startWithin g (l :: ls).length),?_⟩
  unfold start
  rw [startWithin]
  simp only [bind_run,ahead?,token?,List.head?_cons,Option.map_some,Option.bind_some,token,Token.keyword?,ok_bind,
    Option.isSome_some,if_true,untyped]
  rfl

theorem start_minus (l : Lexeme) (token : l.token = .symbol .minus) :
    start g (l :: ls) = (do collated g (.unary .minus (← g.operand BindingLevel.product))) ls := by
  unfold start
  rw [startWithin]
  simp only [bind_run,ahead?,token?,List.head?_cons,Option.map_some,Option.bind_some,token,Token.keyword?,ok_bind,
    Option.isSome_none,Bool.false_eq_true,if_false]
  rfl

theorem start_lparen (l : Lexeme) (token : l.token = .symbol .lparen) : start g (l :: ls) = parenthesis g ls := by
  unfold start
  rw [startWithin]
  simp only [bind_run,ahead?,token?,List.head?_cons,Option.map_some,Option.bind_some,token,Token.keyword?,ok_bind,
    Option.isSome_none,Bool.false_eq_true,if_false]
  rfl

theorem start_nil : ∃ e, start g [] = .error e := ⟨_,rfl⟩

end

-- Texts of signs have no brackets, no periods and no arrows.
def Calm (ls : List Lexeme) : Prop :=
  ∀ l ∈ ls, l.token ≠ .symbol .lbracket ∧ l.token ≠ .symbol .period ∧ l.token ≠ .symbol .arrow

theorem token_calm (s : Sign) :
    s.token ≠ .symbol .lbracket ∧ s.token ≠ .symbol .period ∧ s.token ≠ .symbol .arrow := by
  cases s with
  | op o => cases o <;> simp [Sign.token,Sign.piece,BinaryOp.piece,Piece.token,Token.ofWord]
  | _ => simp [Sign.token,Sign.piece,Piece.token,Token.ofWord]

theorem calm_of_read (read : Sign.Read ss ls) : Calm ls := by
  intro l member
  have shown : l.token ∈ ss.map Sign.token := by
    rw [← show ls.map (·.token) = ss.map Sign.token from read]
    exact List.mem_map_of_mem member
  obtain ⟨s,_,token⟩ := List.mem_map.mp shown
  rw [← token]
  exact token_calm s

theorem calm_symbol? (calm : Calm ls) (absent : s = .lbracket ∨ s = .period ∨ s = .arrow) : symbol? s ls = .ok (false,ls) := by
  cases ls with
  | nil => rfl
  | cons l ls =>
    have other := calm l (by simp)
    rcases absent with rfl | rfl | rfl <;> simp [symbol?,other]

-- Modifiers of a type are read from the left, and their failures are no matter of nesting.
theorem modifiers_rest (ls : List Lexeme) : (∃ e, modifiers ls = .error e ∧ e ≠ .tooDeep) ∨
    ∃ parts rest, modifiers ls = .ok (parts,rest) ∧ ∀ l ∈ rest, l ∈ ls := by
  induction ls with
  | nil => exact .inl ⟨_,rfl,by simp⟩
  | cons l ls ih =>
    have deeper (s : String) :
        (∃ e, ((modifiers ls).map fun r => (s :: r.1,r.2)) = .error e ∧ e ≠ .tooDeep) ∨
        ∃ parts rest, ((modifiers ls).map fun r => (s :: r.1,r.2)) = .ok (parts,rest) ∧ ∀ k ∈ rest, k ∈ l :: ls := by
      rcases ih with ⟨e,failed,shallow⟩ | ⟨parts,rest,done,within⟩
      · exact .inl ⟨e,by rw [failed]; rfl,shallow⟩
      · exact .inr ⟨_,rest,by rw [done]; rfl,fun k member => List.mem_cons_of_mem _ (within k member)⟩
    have refused : ∃ e, (Except.error (.expected "type modifiers" (some l)) : Except SyntaxError (List String × List Lexeme))
        = .error e ∧ e ≠ .tooDeep := ⟨_,rfl,by simp⟩
    unfold modifiers
    cases l.token with
    | word | number | string => exact deeper _
    | symbol s =>
      cases s
      case comma =>
        rcases ih with failed | ⟨parts,rest,done,within⟩
        · exact .inl failed
        · exact .inr ⟨parts,rest,done,fun k member => List.mem_cons_of_mem _ (within k member)⟩
      case rparen => exact .inr ⟨_,_,rfl,fun k member => List.mem_cons_of_mem _ member⟩
      all_goals exact .inl refused
    | _ => exact .inl refused

-- NOT opens no literal with a type in front.
theorem custom_not (l : Lexeme) (token : l.token = .word "NOT" none (some .NOT)) (calm : Calm ls) :
    (∃ e, custom g (l :: ls) = .error e ∧ e ≠ .tooDeep) ∨
    ∃ t rest, custom g (l :: ls) = .ok (.custom t,rest) ∧ Calm rest := by
  have plain : generatesNames g.dialect ⟨"NOT",none⟩ [] = false := by
    simp only [generatesNames,show (Text.lower "NOT" = "identifier") = False by simp; decide,decide_false,Bool.and_false,
      Bool.false_and]
  have part : objectName.part g [] (l :: ls) = .ok (.ident ⟨"NOT",none⟩,ls) := by
    simp [objectName.part,symbolAhead,token?,ident,tokenOf,token,ofIdentToken,bind_run,map_run,ok_bind,plain,pure_run]
  have name : nameText g (l :: ls) = .ok ((ObjectName.text ⟨[.ident ⟨"NOT",none⟩]⟩),ls) := by
    simp [nameText,map_run,objectName,objectName.go,bind_run,part,ok_bind,calm_symbol? (s := .period) calm (by simp),pure_run]
  simp only [custom,bind_run,name,ok_bind]
  cases ls with
  | nil => exact .inr ⟨_,_,rfl,calm⟩
  | cons k ls =>
    by_cases opening : k.token = .symbol .lparen
    · simp only [symbol?,opening,if_true,ok_bind,bind_run]
      rcases modifiers_rest ls with ⟨e,failed,shallow⟩ | ⟨parts,rest,done,within⟩
      · exact .inl ⟨e,by rw [failed]; rfl,shallow⟩
      · exact .inr ⟨_,rest,by rw [done]; rfl,fun k member => calm k (List.mem_cons_of_mem _ (within k member))⟩
    · simp only [symbol?,opening,if_false,ok_bind]
      exact .inr ⟨_,_,rfl,calm⟩

theorem untyped_not (l : Lexeme) (token : l.token = .word "NOT" none (some .NOT)) (calm : Calm ls) :
    attempt (typedLiteral g p) (l :: ls) = .ok (none,l :: ls) := by
  have free (inner : Reading OpenType) : unbracketed g inner (l :: ls) = ((fun t => (t,false)) <$> custom g) (l :: ls) := by
    have known : simpleTypeText? g.dialect .NOT = none := rfl
    simp only [unbracketed,bind_run,token?,List.head?_cons,Option.map_some,token,ok_bind,known]
    rfl
  have typed : (∃ e, typeName g (l :: ls) = .error e ∧ e ≠ .tooDeep) ∨ ∃ t rest, typeName g (l :: ls) = .ok (.custom t,rest) := by
    simp only [typeName,whole,bind_run,List.length_cons,typeWithin,free,map_run]
    rcases custom_not (g := g) l token calm with ⟨e,failed,shallow⟩ | ⟨t,rest,done,calm⟩
    · exact .inl ⟨e,by rw [failed]; rfl,shallow⟩
    · refine .inr ⟨t,rest,?_⟩
      have flat : iterate dimension (.custom t) rest = .ok (.custom t,rest) := by
        apply iterate_turns
        apply Turns.stop
        simp [dimension,bind_run,calm_symbol? (s := .lbracket) calm (by simp),ok_bind,pure_run]
      rw [done]
      simp only [ok_bind]
      split <;> simp [bind_run,flat,ok_bind,pure_run]
  rcases typed with ⟨e,failed,shallow⟩ | ⟨t,rest,done⟩
  · simp only [attempt,typedLiteral,bind_run,failed,error_bind]
  · simp only [attempt,typedLiteral,bind_run,done,ok_bind]
    rfl

-- Names and calls.

theorem wordExpr_free (g : Grammar) (p : Reading Expr) (word : Ident) :
    wordExpr g p word none ls = (plainWord g p word ls >>= fun r => collated g r.1 r.2) := rfl

theorem start_name (l : Lexeme) (token : l.token = .word v none none) (place : Starts ss ws ls)
    (other : (.lparen ∉ ss ∧ .arrow ∉ ss) ∧ some .COLLATE ∉ ws) : start g (l :: ls) = .ok (.ident ⟨v,none⟩,ls) := by
  obtain ⟨p,opened⟩ := start_free g _ l token
  rw [opened,wordExpr_free,plainWord_name p ⟨v,none⟩ place other.1,ok_bind,collated_stop place other.2]

theorem opened_outerMarkAhead (k : Lexeme) (place : At .opened ls) : outerMarkAhead d (k :: ls) = .ok (false,k :: ls) := by
  have other : ((k :: ls).take 3).map (·.token) ≠ outerMark := by
    cases place with
    | nil => simp [outerMark]
    | word v k' _ token => simp [outerMark,token]
    | symbol s member token =>
      rintro same
      simp only [outerMark,List.take_succ_cons,List.map_cons,token,List.cons.injEq,Token.symbol.injEq] at same
      rw [same.2.1] at member
      revert member
      decide
  simp only [outerMarkAhead,other,decide_false,Bool.and_false]

theorem start_call (l k : Lexeme) (token : l.token = .word v none none) (opening : k.token = .symbol .lparen)
    (place : At .opened ls) :
    ∃ p, start g (l :: k :: ls) = (callOf g p (.ofIdents [⟨v,none⟩]) (k :: ls) >>= fun r => collated g r.1 r.2) := by
  obtain ⟨p,opened⟩ := start_free g _ l token
  refine ⟨p,?_⟩
  rw [opened,wordExpr_free]
  simp only [plainWord,bind_run,token?,List.head?_cons,Option.map_some,opening,ok_bind,
    opened_outerMarkAhead k place,Bool.false_eq_true,if_false]

theorem at_opened (place : At .operand ls) : At .opened ls := by
  cases place with
  | nil => exact .nil
  | symbol s member token => exact .symbol s (List.mem_cons_of_mem _ member) token
  | word v k member token => exact .word v k member token

-- Nothing is asked for in front of the first argument.
theorem jsonNulls_absent (place : Starts ss ws ls) (other : some .ABSENT ∉ ws ∧ some .NULL ∉ ws) :
    jsonNulls ls = .ok ([],ls) := by
  simp [jsonNulls,bind_run,at_keywords? place other.1,at_keywords? place other.2,ok_bind,pure_run]

theorem jsonReturning_absent (place : Starts ss ws ls) (other : some .RETURNING ∉ ws) : jsonReturning g ls = .ok ([],ls) := by
  simp [jsonReturning,after?,bind_run,at_keyword? place other,when?,ok_bind,pure_run]

theorem nullTreatment_absent (place : At .ended ls) : nullTreatment ls = .ok (none,ls) := by
  simp [nullTreatment,bind_run,at_oneOf? [.RESPECT,.IGNORE] place (by decide),ok_bind,pure_run]

theorem overflow_absent (place : At .ended ls) : overflow g ls = .ok ([],ls) := by
  simp [overflow,bind_run,at_keywords? (k := .ON) place (by decide),ok_bind,pure_run]

theorem arguments_empty (c : Lexeme) (closing : c.token = .symbol .rparen) (place : At .opened (c :: ls)) :
    arguments g (c :: ls) = .ok ({},ls) := by
  have closed : symbol? .rparen (c :: ls) = .ok (true,ls) := by simp [symbol?,closing]
  unfold arguments
  simp only [bind_run,jsonNulls_absent place (by decide),jsonReturning_absent place (by decide),ok_bind,closed,pure_run,if_true,
    List.append_nil]

theorem arguments_failed (place : At .operand ls) (failed : list (argument g) ls = .error e) :
    arguments g ls = .error e := by
  unfold arguments
  simp only [bind_run,jsonNulls_absent place (by decide),jsonReturning_absent place (by decide),ok_bind,
    at_symbol? (s := .rparen) place (by decide),place?,at_keyword? (k := .ALL) place (by decide),
    at_keyword? (k := .DISTINCT) place (by decide),failed,error_bind,Bool.false_eq_true,if_false,Bool.and_self]

theorem provided_absent (absent : test ls = .ok (false,ls)) : provided b test ls = .ok (false,ls) := by
  cases b
  · rfl
  · exact absent

theorem arguments_listed (place : At .operand ls) (listed : list (argument g) ls = .ok (items,rest))
    (stop : At .ended rest) :
    arguments g ls = (symbol .rparen rest >>= fun r => .ok ({ items },r.2)) := by
  have having : provided g.dialect.isGeneric (keyword? .HAVING) rest = .ok (false,rest) :=
    provided_absent (at_keyword? stop (by decide))
  have separator : provided g.dialect.isGeneric (keyword? .SEPARATOR) rest = .ok (false,rest) :=
    provided_absent (at_keyword? stop (by decide))
  unfold arguments
  simp only [bind_run,jsonNulls_absent place (by decide),jsonReturning_absent place (by decide),ok_bind,
    at_symbol? (s := .rparen) place (by decide),place?,at_keyword? (k := .ALL) place (by decide),
    at_keyword? (k := .DISTINCT) place (by decide),listed,Bool.false_eq_true,if_false,Bool.and_self]
  split <;>
    simp only [bind_run,map_run,pure_run,nullTreatment_absent stop,ok_bind,at_keywords? (k := .ORDER) stop (by decide),
      after?,at_keyword? (k := .LIMIT) stop (by decide),when?,having,separator,overflow_absent stop,
      jsonNulls_absent stop (by decide),jsonReturning_absent stop (by decide),Bool.false_eq_true,if_false]
  all_goals rfl

-- Nothing but its name and its arguments belongs to a call.
theorem callOf_plain (p : Reading Expr) (name : ObjectName) (k : Lexeme) (opening : k.token = .symbol .lparen)
    (place : At .opened ls) (given : arguments g ls = .ok ({ items },rest)) (stop : At .behind rest) :
    callOf g p name (k :: ls) = .ok (.call { name } items,rest) := by
  have open' : symbol .lparen (k :: ls) = .ok ((),ls) := by simp [symbol,bind_run,symbol?,opening,ok_bind,pure_run]
  have filter : (do provided (← provided (← keyword? .FILTER) (symbol? .lparen)) (keyword? .WHERE)) rest = .ok (false,rest) := by
    simp [bind_run,at_keyword? (k := .FILTER) stop (by decide),ok_bind,provided,pure_run]
  have parametric : provided g.dialect.hasParametricCalls (symbol? .lparen) rest = .ok (false,rest) :=
    provided_absent (at_symbol? stop (by decide))
  have filtered : provided g.dialect.hasAggregateFilter
      (do provided (← provided (← keyword? .FILTER) (symbol? .lparen)) (keyword? .WHERE)) rest = .ok (false,rest) :=
    provided_absent filter
  unfold callOf
  simp only [bind_run,open',ok_bind,queryAhead,at_anyAhead [.SELECT,.WITH] place (by decide),Bool.and_false,
    Bool.false_eq_true,if_false,given,parametric,at_keywords? (k := .WITHIN) stop (by decide),filtered,pure_run,
    nullTreatment_absent (Sign.at_behind_ended stop),at_keyword? (k := .OVER) stop (by decide),List.any_nil]

theorem callOf_failed (p : Reading Expr) (name : ObjectName) (k : Lexeme) (opening : k.token = .symbol .lparen)
    (place : At .opened ls) (failed : arguments g ls = .error e) : callOf g p name (k :: ls) = .error e := by
  have open' : symbol .lparen (k :: ls) = .ok ((),ls) := by simp [symbol,bind_run,symbol?,opening,ok_bind,pure_run]
  unfold callOf
  simp only [bind_run,open',ok_bind,queryAhead,at_anyAhead [.SELECT,.WITH] place (by decide),Bool.and_false,
    Bool.false_eq_true,if_false,failed,error_bind]

theorem at_tokenOf (place : Starts ss ws ls) (other : ∀ s ∈ ss, accept (.symbol s) = none)
    (noWord : ∀ v q k, accept (.word v q k) = none) : tokenOf what accept ls = .error (.expected what ls.head?) := by
  cases place with
  | nil => rfl
  | symbol s member token => simp [tokenOf,token,other s member]
  | word v k member token => simp [tokenOf,token,noWord]

-- An argument of a plain call is no star and has no name of its own.

theorem exprOrStar_plain (read : Sign.Read ss ls) (regular : Sign.Regular g.dialect .operand ss) :
    exprOrStar g ls = g.expr ls := by
  have place := Sign.at_of_regular read regular
  have calm := calm_of_read read
  unfold exprOrStar
  split
  · cases place with
    | symbol s member token =>
      cases token
      exact absurd member (by decide)
    | word v k _ token => cases token
  · exact absurd rfl (calm _ (List.mem_cons_of_mem _ List.mem_cons_self)).2.1
  · rw [if_neg]
    intro star
    have starred : ∃ rest, ss.map Sign.token = .symbol .lparen :: .symbol .mul :: rest := by
      rw [← show ls.map (·.token) = ss.map Sign.token from read]
      refine ⟨.symbol .rparen :: (ls.drop 3).map (·.token),?_⟩
      rw [← List.take_append_drop 3 ls,List.map_append,star]
      simp
    obtain ⟨rest,shown⟩ := starred
    rcases Sign.symbol_second (Sign.regular_operand_ended regular) shown with same | same <;> cases same

theorem argument_plain (read : Sign.Read ss ls) (regular : Sign.Regular g.dialect .operand ss) :
    argument g ls = g.expr ls := by
  have bare := exprOrStar_plain read regular
  cases ss with
  | nil =>
    obtain rfl := Sign.read_nil read
    exact bare
  | cons s ss =>
    obtain ⟨l,rest,rfl,token,read⟩ := Sign.read_cons read
    obtain ⟨q,step,later⟩ := Sign.regular_cons.mp regular
    have place := Sign.at_of_regular read later
    have ending : (∃ s, l.token = .symbol s) ∨ ∃ v k, l.token = .word v none k ∧ (q = .named ∨ q = .operand) := by
      rcases Sign.operand_next step with ⟨v,rfl,name,rfl⟩ | ⟨rfl | rfl | rfl,rfl⟩
      · exact .inr ⟨v,none,token.trans (Sign.token_name g.dialect name),.inl rfl⟩
      · exact .inl ⟨_,token⟩
      · exact .inr ⟨_,_,token,.inr rfl⟩
      · exact .inl ⟨_,token⟩
    rcases ending with ⟨s,token⟩ | ⟨v,k,token,either⟩
    · have noName : ident (l :: rest) = .error (.expected "identifier" (some l)) := by simp [ident,tokenOf,token,ofIdentToken]
      simp only [argument,bind_run,attempt,noName,error_bind,ok_bind]
      exact bare
    · have name : ident (l :: rest) = .ok (⟨v,none⟩,rest) := by simp [ident,tokenOf,token,ofIdentToken]
      have value : keyword? .VALUE rest = .ok (false,rest) := by
        rcases either with rfl | rfl <;> exact at_keyword? place (by decide)
      simp only [argument,bind_run,attempt,name,ok_bind,value,Bool.false_eq_true,if_false]
      rw [at_tokenOf place]
      · exact bare
      · intro s member
        rcases either with rfl | rfl <;> cases s <;> first | rfl | exact absurd member (by decide)
      · exact fun _ _ _ => rfl

theorem symbol?_cases (s : Symbol) (ls : List Lexeme) :
    (symbol? s ls = .ok (false,ls) ∧ symbol s ls = .error (.expected s.text ls.head?)) ∨
    ∃ l rest, ls = l :: rest ∧ l.token = .symbol s ∧ symbol? s ls = .ok (true,rest) ∧ symbol s ls = .ok ((),rest) := by
  cases ls with
  | nil => exact .inl ⟨rfl,rfl⟩
  | cons l rest =>
    by_cases same : l.token = .symbol s
    · exact .inr ⟨l,rest,rfl,same,by simp [symbol?,same],by simp [symbol,symbol?,bind_run,same,ok_bind,pure_run]⟩
    · exact .inl ⟨by simp [symbol?,same],by simp [symbol,symbol?,bind_run,same,ok_bind,expected]⟩

-- A list of names leaves a part of the lexemes, and its failures are no matter of nesting.
theorem identTexts_rest (n : Nat) (ls : List Lexeme) :
    (∃ e, separated.go (fun _ => false) identText n ls = .error e ∧ e ≠ .tooDeep) ∨
    ∃ is rest, separated.go (fun _ => false) identText n ls = .ok (is,rest) ∧ ∀ l ∈ rest, l ∈ ls := by
  have single (ls : List Lexeme) : (∃ e, identText ls = .error e ∧ e ≠ .tooDeep) ∨
      ∃ i rest, identText ls = .ok (i,rest) ∧ ∀ l ∈ rest, l ∈ ls := by
    cases ls with
    | nil => exact .inl ⟨_,rfl,by simp⟩
    | cons l ls =>
      cases read : ofIdentToken l.token with
      | none => exact .inl ⟨_,by simp only [identText,map_run,ident,tokenOf,read,error_bind]; rfl,by simp⟩
      | some i =>
        refine .inr ⟨i.text,ls,by simp [identText,map_run,ident,tokenOf,read,ok_bind],?_⟩
        exact fun l member => List.mem_cons_of_mem _ member
  induction n generalizing ls with
  | zero =>
    simp only [separated.go,map_run]
    rcases single ls with ⟨e,failed,shallow⟩ | ⟨i,rest,done,within⟩
    · exact .inl ⟨e,by rw [failed]; rfl,shallow⟩
    · exact .inr ⟨_,rest,by rw [done]; rfl,within⟩
  | succ n ih =>
    simp only [separated.go,bind_run]
    rcases single ls with ⟨e,failed,shallow⟩ | ⟨i,rest,done,within⟩
    · exact .inl ⟨e,by rw [failed]; rfl,shallow⟩
    · rw [done,ok_bind]
      rcases symbol?_cases .comma rest with ⟨absent,_⟩ | ⟨l,later,rfl,_,present,_⟩
      · refine .inr ⟨[i],rest,?_,within⟩
        simp only [absent,ok_bind]
        rfl
      · have inside (k : Lexeme) (member : k ∈ later) : k ∈ ls := within k (List.mem_cons_of_mem _ member)
        simp only [present,ok_bind]
        rcases ih later with ⟨e,failed,shallow⟩ | ⟨is,last,done,tail⟩
        · refine .inl ⟨e,?_,shallow⟩
          change (separated.go (fun _ => false) identText n later >>= _) = _
          rw [failed]
          rfl
        · refine .inr ⟨i :: is,last,?_,fun k member => inside k (tail k member)⟩
          change (separated.go (fun _ => false) identText n later >>= _) = _
          rw [done]
          rfl

-- Parentheses do not hold the parameters of a function without a name.
theorem lambda_absent (calm : Calm ls) : attempt (lambda g) ls = .ok (none,ls) := by
  have failed : ∃ e, lambda g ls = .error e ∧ e ≠ .tooDeep := by
    simp only [lambda,texts,list,separated,bind_run]
    rcases identTexts_rest ls.length ls with ⟨e,failed,shallow⟩ | ⟨is,rest,done,within⟩
    · exact ⟨e,by rw [failed]; rfl,shallow⟩
    · rw [done]
      simp only [ok_bind,pure_run]
      rcases symbol?_cases .rparen rest with ⟨_,absent⟩ | ⟨l,later,rfl,_,_,present⟩
      · exact ⟨_,by rw [absent]; rfl,by simp⟩
      · have calm' : Calm later := fun k member => calm k (within k (List.mem_cons_of_mem _ member))
        rw [present]
        simp only [ok_bind,lambdaBody,symbol,bind_run,calm_symbol? (s := .arrow) calm' (by simp)]
        exact ⟨_,rfl,by simp⟩
  obtain ⟨e,failed,shallow⟩ := failed
  simp only [attempt,failed]

theorem parenthesis_plain (mode : g.mode = .plain) (place : At .operand ls) (calm : Calm ls) :
    parenthesis g ls = (list g.expr ls >>= fun r => symbol .rparen r.2 >>= fun c =>
      collated g (match r.1 with | [e] => .nested e | items => .tuple items) c.2) := by
  have item : (g.inMode .plain).expr = g.expr := by
    cases g
    cases mode
    rfl
  unfold parenthesis
  simp only [bind_run,queryAhead,at_anyAhead [.SELECT,.WITH] place (by decide),ok_bind,Bool.false_eq_true,if_false,
    item]
  split
  all_goals
    simp only [bind_run,lambda_absent calm,ok_bind]
    cases list g.expr ls with
    | error e => rfl
    | ok r =>
      obtain ⟨items,rest⟩ := r
      simp only [ok_bind]
      cases symbol .rparen rest with
      | error e => rfl
      | ok c => rcases items with _ | ⟨e,_ | _⟩ <;> rfl

theorem start_not (l : Lexeme) (token : l.token = .word "NOT" none (some .NOT)) (calm : Calm ls)
    (place : At .operand ls) (read : g.operand BindingLevel.negation ls = .ok (e,rest)) (stop : At .ended rest) :
    start g (l :: ls) = .ok (.unary .not e,rest) := by
  obtain ⟨p,opened⟩ := start_keyword g _ l token fun _ => untyped_not l token calm
  have form : formOf g p ⟨"NOT",none⟩ .NOT ls = .ok (some (.unary .not e),rest) := by
    simp [formOf,negation,map_run,bind_run,at_keyword? (k := .EXISTS) place (by decide),ok_bind,read]
  rw [opened]
  simp only [wordExpr,form,collated_ended stop]

-- Where no operand follows, NOT is a name all the same, perhaps that of a call.

theorem plainWord_named (place : At .operand ls) (done : plainWord g p word ls = .ok (e,rest)) :
    (e = .ident word ∧ rest = ls) ∨
    ∃ k later, ls = k :: later ∧ k.token = .symbol .lparen ∧ callOf g p (.ofIdents [word]) ls = .ok (e,rest) := by
  have plain (same : .ok (.ident word,ls) = (.ok (e,rest) : Except SyntaxError _)) : e = .ident word ∧ rest = ls := by
    cases same
    exact ⟨rfl,rfl⟩
  cases place with
  | nil => exact .inl (plain done)
  | word v k _ token =>
    simp only [plainWord,bind_run,token?,List.head?_cons,Option.map_some,token,ok_bind] at done
    exact .inl (plain done)
  | symbol s member token =>
    simp only [plainWord,bind_run,token?,List.head?_cons,Option.map_some,token,ok_bind] at done
    cases s
    case minus => exact .inl (plain done)
    case lparen =>
      simp only [bind_run,outerMarkAhead,ok_bind] at done
      split at done
      · exact .inl (plain done)
      · exact .inr ⟨_,_,rfl,token,done⟩
    all_goals exact absurd member (by decide)

theorem start_not_failed (l : Lexeme) (token : l.token = .word "NOT" none (some .NOT)) (calm : Calm ls)
    (place : At .operand ls) (failed : g.operand BindingLevel.negation ls = .error f)
    (done : start g (l :: ls) = .ok (e,rest)) :
    (e = .ident ⟨"NOT",none⟩ ∧ rest = ls) ∨
    ∃ p k later, ls = k :: later ∧ k.token = .symbol .lparen ∧ callOf g p (.ofIdents [⟨"NOT",none⟩]) ls = .ok (e,rest) := by
  obtain ⟨p,opened⟩ := start_keyword g _ l token fun _ => untyped_not l token calm
  have form : formOf g p ⟨"NOT",none⟩ .NOT ls = .error f := by
    simp [formOf,negation,map_run,bind_run,at_keyword? (k := .EXISTS) place (by decide),ok_bind,failed,error_bind]
  rw [opened] at done
  simp only [wordExpr,form,isReserved,Bool.false_eq_true,if_false] at done
  split at done
  · rename_i r plain
    cases done
    rcases plainWord_named place plain with name | call
    · exact .inl name
    · exact .inr ⟨p,call⟩
  · cases done

end Reading

end JoinTree.Sql
