import JoinTree.Proofs.Outcome
import JoinTree.Proofs.Precedence
import JoinTree.Sql.Error

/-!
Plain expressions are read as the levels of their operators bind them, and nothing but an expression that its levels
hold together is ever read from the signs of a plain one.
-/

namespace JoinTree.Sql

namespace Reading

open Sign (At Read Regular read_nil read_cons regular_cons levelAhead)

-- One turn of the reading of operators.
def further (g : Grammar) (level : Nat) (left : Expr) : Reading (Option Expr) := do
  let next := BindingLevel.ahead g (← get)
  if next ≤ level || (← symbolAhead .period) then return none
  return some (← operated g left next)

theorem get_run (ls : List Lexeme) : (get : Reading (List Lexeme)) ls = .ok (ls,ls) := rfl

theorem operandOf_run (g : Grammar) (level : Nat) (ls : List Lexeme) :
    operandOf g level ls = (start g ls >>= fun first => pathFrom g ls first.1 first.2 >>= fun r =>
      iterate (further g level) r.1 r.2) := rfl

theorem op_token (o : BinaryOp) (plain : o.isPlain = true) : binaryOp? d (Sign.op o).token = some o := by
  cases o with
  | other => cases plain
  | _ => rfl

-- How tightly the next sign binds.
theorem ahead_level (g : Grammar) (read : Read ss ls) (regular : Regular d .ended ss) :
    BindingLevel.ahead g ls = levelAhead ss := by
  cases ss with
  | nil =>
    obtain rfl := read_nil read
    rfl
  | cons s ss =>
    obtain ⟨l,rest,rfl,token,later⟩ := read_cons read
    obtain ⟨q,step,follows⟩ := regular_cons.mp regular
    cases s with
    | name v =>
      have plain : d.isPlainName v = true := by
        rcases Sign.ended_next step with step | step
        · cases step
        · rcases Sign.operand_next step with ⟨v,same,name,_⟩ | ⟨same | same | same,_⟩ <;> cases same
          exact name
      simp only [BindingLevel.ahead,token,Sign.token_name d plain]
      rfl
    | op o =>
      cases o
      case other => cases step
      all_goals
        simp only [BindingLevel.ahead,token]
        rfl
    | lparen | rparen | comma | is =>
      simp only [BindingLevel.ahead,token]
      rfl
    | null => cases step
    | not =>
      cases step
      have place := Sign.at_of_regular later follows
      have apart : BindingLevel.ofKeyword g.mode ((rest.take 2).map (·.token.keyword?)) .NOT = 0 := by
        cases place with
        | nil => rfl
        | symbol s _ token => simp [BindingLevel.ofKeyword,token,Token.keyword?]
        | word v k member token =>
          simp only [Sign.Place.words,List.mem_cons,List.not_mem_nil,or_false] at member
          rcases member with rfl | rfl <;> simp [BindingLevel.ofKeyword,BindingLevel.ofPattern,token,Token.keyword?]
      simp only [BindingLevel.ahead,token,Sign.token_not,apart]
      rfl

theorem further_stop (left : Expr) (read : Read ss ls) (regular : Regular d .ended ss) (done : levelAhead ss ≤ level) :
    further g level left ls = .ok (none,ls) := by
  have ahead := ahead_level g read regular
  have absent := at_symbolAhead (s := .period) (Sign.at_of_regular read regular) (by decide)
  simp only [further,bind_run,get_run,ok_bind,absent,ahead,done,decide_true,Bool.true_or,if_true]
  rfl

theorem further_taken (left : Expr) (read : Read ss ls) (regular : Regular d .ended ss) (above : level < levelAhead ss) :
    further g level left ls = (operated g left (levelAhead ss) ls >>= fun r => .ok (some r.1,r.2)) := by
  have ahead := ahead_level g read regular
  have absent := at_symbolAhead (s := .period) (Sign.at_of_regular read regular) (by decide)
  simp only [further,bind_run,get_run,ok_bind,absent,ahead,Nat.not_le_of_lt above,decide_false,Bool.false_or,Bool.false_eq_true,if_false]
  rfl

theorem operated_op (left : Expr) (l : Lexeme) (token : l.token = (Sign.op o).token) (plain : o.isPlain = true)
    (place : At .operand ls) :
    operated g left level (l :: ls) = (g.operand level ls >>= fun r => .ok (.binary left o r.1,r.2)) := by
  simp only [operated,bind_run,next?,List.head?_cons,ok_bind,token,op_token o plain,skip,List.tail_cons,rightOperand,
    at_oneOf? [.ANY,.ALL,.SOME] place (by decide)]
  rfl

theorem operated_is (left : Expr) (l : Lexeme) (token : l.token = Sign.is.token) :
    operated g left level (l :: ls) = isOf g left ls := by
  simp only [operated,bind_run,next?,List.head?_cons,ok_bind,token,Sign.token_is]
  rfl

theorem isOf_null (left : Expr) (l : Lexeme) (token : l.token = Sign.null.token) :
    isOf g left (l :: ls) = .ok (.isNull left,ls) := by
  simp only [isOf,bind_run,keyword?,token,Sign.token_null]
  rfl

theorem isOf_notNull (left : Expr) (l k : Lexeme) (first : l.token = Sign.not.token) (second : k.token = Sign.null.token) :
    isOf g left (l :: k :: ls) = .ok (.isNotNull left,ls) := by
  have absent : keyword? .NULL (l :: k :: ls) = .ok (false,l :: k :: ls) := by simp [keyword?,first,Sign.token_not,Token.keyword?]
  have present : keywords? [.NOT,.NULL] (l :: k :: ls) = .ok (true,ls) := by
    simp [keywords?,first,second,Sign.token_not,Sign.token_null,Token.keyword?]
  simp only [isOf,bind_run,absent,ok_bind,Bool.false_eq_true,if_false,present,if_true]
  rfl

-- IS with nothing behind it, and IS NOT with nothing behind it.
theorem isOf_open (left : Expr) : ∃ e, isOf g left [] = .error e := ⟨_,rfl⟩

theorem isOf_notOpen (left : Expr) (l : Lexeme) (token : l.token = Sign.not.token) : ∃ e, isOf g left [l] = .error e := by
  cases l
  cases token
  exact ⟨_,rfl⟩

-- A way through the operators behind an operand.
abbrev Climbs (g : Grammar) (level : Nat) : Expr → List Lexeme → Expr → List Lexeme → Prop := Turns (further g level)

end Reading

namespace Grammar

-- The grammar that reads the operands with some levels of nesting left.
def inside (d : Dialect) (n : Nat) : Grammar := (within d n).inMode .plain

-- An operand outside of all clauses with words of their own.
def plainOperand (d : Dialect) (n : Nat) : (level : Nat) → Reading Expr := (within d n).operandIn .plain

theorem inside_dialect (d : Dialect) (n : Nat) : (inside d n).dialect = d := by cases n <;> rfl

theorem inside_operand (d : Dialect) (n level : Nat) : (inside d n).operand level = plainOperand d n level := rfl

theorem plainOperand_succ (d : Dialect) (n level : Nat) (ls : List Lexeme) :
    plainOperand d (n + 1) level ls = Reading.operandOf (inside d n) level ls := rfl

end Grammar

namespace Reading

open Grammar (inside plainOperand)
open Sign (At Read Regular read_nil read_cons regular_cons levelAhead)

theorem read_length (read : Read ss ls) : ls.length = ss.length := by
  simpa using congrArg List.length (show ls.map (·.token) = ss.map Sign.token from read)

-- A bound expression opens the text, and whatever the operators behind it make of it is the outcome.
def Opens (d : Dialect) (n level : Nat) (e : Expr) : Prop :=
  ∀ more ls, Read (e.signs ++ more) ls → Regular d .behind more → levelAhead more ≤ e.tail →
    ∃ rest, Read more rest ∧ ∀ last behind, Climbs (inside d n) level e rest last behind →
      plainOperand d (n + 1) level ls = .ok (last,behind)

-- A first operand opens the text.
theorem opens_start (first : ∀ more ls, Read (Expr.signs e ++ more) ls → Regular d .behind more → levelAhead more ≤ e.tail →
    ∃ rest, Read more rest ∧ start (inside d n) ls = .ok (e,rest)) : Opens d n level e := by
  intro more ls read behind below
  obtain ⟨rest,later,started⟩ := first more ls read behind below
  refine ⟨rest,later,fun last after climbs => ?_⟩
  rw [Grammar.plainOperand_succ,operandOf_run,started,ok_bind,
    pathFrom_ended later (Sign.regular_behind_ended behind),ok_bind,iterate_turns climbs]

-- An expression that opens the text is read where the operators behind it bind no tighter than the level.
theorem opens_read (opens : Opens d n level e) (read : Read (e.signs ++ more) ls) (behind : Regular d .behind more)
    (below : levelAhead more ≤ e.tail) (done : levelAhead more ≤ level) :
    ∃ rest, Read more rest ∧ plainOperand d (n + 1) level ls = .ok (e,rest) := by
  obtain ⟨rest,later,reads⟩ := opens more ls read behind below
  exact ⟨rest,later,reads e rest (.stop (further_stop e later (Sign.regular_behind_ended behind) done))⟩

-- An operand inside of another one takes a level of nesting of its own.
theorem opens_inner (opens : ∀ {n}, e.levels ≤ n + 1 → Opens d n level e) (room : e.levels ≤ n)
    (read : Read (e.signs ++ more) ls) (behind : Regular d .behind more) (below : levelAhead more ≤ e.tail)
    (done : levelAhead more ≤ level) : ∃ rest, Read more rest ∧ plainOperand d n level ls = .ok (e,rest) := by
  cases n with
  | zero => exact absurd room (Nat.not_le_of_lt e.levels_pos)
  | succ n => exact opens_read (opens room) read behind below done

theorem symbol_present (l : Lexeme) (token : l.token = .symbol s) : symbol s (l :: ls) = .ok ((),ls) := by
  simp [symbol,symbol?,bind_run,token,ok_bind,pure_run]

-- An expression that a reading gives in front of all that does not bind.
def Yields (d : Dialect) (item : Reading Expr) (e : Expr) : Prop :=
  ∀ more ls, Read (e.signs ++ more) ls → Regular d .behind more → levelAhead more = 0 →
    ∃ rest, Read more rest ∧ item ls = .ok (e,rest)

-- Items with commas between them, up to a closing parenthesis.
theorem items_read (item : Reading Expr) (es : List Expr) (some : es ≠ [])
    (plain : ∀ e ∈ es, Expr.IsPlain d e) (each : ∀ e ∈ es, Yields d item e)
    (room : es.length ≤ n + 1) (read : Read (Expr.signsList es ++ .rparen :: more) ls)
    (behind : Regular d .behind (.rparen :: more)) :
    ∃ rest, Read (.rparen :: more) rest ∧ separated.go (fun _ => false) item n ls = .ok (es,rest) := by
  induction es generalizing n ls with
  | nil => exact absurd rfl some
  | cons e es ih =>
    cases es with
    | nil =>
      obtain ⟨rest,later,done⟩ := each e (by simp) _ ls read behind rfl
      refine ⟨rest,later,?_⟩
      cases n with
      | zero =>
        simp only [separated.go,map_run,done,ok_bind]
        rfl
      | succ n =>
        obtain ⟨l,rest,rfl,token,_⟩ := read_cons later
        have last : symbol? .comma (l :: rest) = .ok (false,l :: rest) := by
          simp only [symbol?,token]
          rfl
        simp only [separated.go,bind_run,done,ok_bind,last]
        rfl
    | cons b es =>
      rw [Expr.signsList_cons e (b :: es) (by simp),List.append_assoc] at read
      obtain ⟨k,rfl⟩ : ∃ k, n = k + 1 := ⟨n - 1,by simp at room; omega⟩
      have follows : Regular d .behind (.comma :: (Expr.signsList (b :: es) ++ .rparen :: more)) :=
        regular_cons.mpr ⟨.operand,rfl,
          Expr.signsList_regular (b :: es) (by simp)
            (fun c member _ => Expr.signs_regular (plain c (by simp [member]))) behind⟩
      obtain ⟨rest,later,done⟩ := each e (by simp) _ ls read follows rfl
      obtain ⟨l,rest,rfl,token,later⟩ := read_cons later
      have comma : symbol? .comma (l :: rest) = .ok (true,rest) := by
        simp only [symbol?,token]
        rfl
      obtain ⟨last,ended,listed⟩ := ih (by simp) (fun c member => plain c (by simp [member]))
        (fun c member => each c (by simp [member])) (by simpa using room) later
      refine ⟨last,ended,?_⟩
      simp only [separated.go,bind_run,done,ok_bind,comma]
      change (separated.go (fun _ => false) item k rest >>= _) = _
      rw [listed]
      rfl

theorem list_read (item : Reading Expr) (es : List Expr) (some : es ≠ [])
    (plain : ∀ e ∈ es, Expr.IsPlain d e) (each : ∀ e ∈ es, Yields d item e)
    (read : Read (Expr.signsList es ++ .rparen :: more) ls) (behind : Regular d .behind (.rparen :: more)) :
    ∃ rest, Read (.rparen :: more) rest ∧ list item ls = .ok (es,rest) := by
  refine items_read item es some plain each ?_ read behind
  have size := Expr.signsList_length es
  simp only [read_length read,List.length_append,List.length_cons]
  omega

-- What an operator makes of an expression that opens the text opens it too.
theorem opens_further (opens : Opens d n level l) (signs : e.signs = l.signs ++ ts)
    (follows : ∀ {more}, Regular d .behind more → Regular d .behind (ts ++ more))
    (tail : ∀ more, levelAhead (ts ++ more) ≤ l.tail)
    (turn : ∀ {more ls}, Read (ts ++ more) ls → Regular d .behind more → levelAhead more ≤ e.tail →
      ∃ rest, Read more rest ∧ rest.length < ls.length ∧ further (inside d n) level l ls = .ok (some e,rest)) :
    Opens d n level e := by
  intro more ls read behind below
  rw [signs,List.append_assoc] at read
  obtain ⟨rest,later,reads⟩ := opens _ ls read (follows behind) (tail more)
  obtain ⟨last,ended,shorter,taken⟩ := turn later behind below
  exact ⟨last,ended,fun whole after climbs => reads whole after (.step taken shorter climbs)⟩

theorem binary_opens (op : BinaryOp) (known : op.isPlain = true) (above : level < op.level) (tail : op.level ≤ l.tail)
    (plain : r.IsPlain d) (left : Opens d n level l) (right : ∀ {n}, r.levels ≤ n + 1 → Opens d n op.level r)
    (room : r.levels ≤ n) : Opens d n level (.binary l op r) := by
  have operand {more} (behind : Regular d .behind more) : Regular d .operand (r.signs ++ more) := Expr.signs_regular plain behind
  have follows {more} (behind : Regular d .behind more) : Regular d .behind (.op op :: r.signs ++ more) :=
    regular_cons.mpr ⟨.operand,by simp [Sign.Place.next,known],operand behind⟩
  refine opens_further left (by simp [Expr.signs]) follows (fun _ => tail) fun {more ls} read behind below => ?_
  simp only [Expr.tail,Nat.le_min] at below
  obtain ⟨o,inner,rfl,token,later⟩ := read_cons read
  change Read (r.signs ++ more) inner at later
  obtain ⟨last,ended,taken⟩ := opens_inner right room later behind below.2 below.1
  refine ⟨last,ended,?_,?_⟩
  · simp only [List.length_cons,read_length later,read_length ended,List.length_append]
    omega
  · have ahead : level < levelAhead (.op op :: r.signs ++ more) := above
    rw [further_taken l read (Sign.regular_behind_ended (follows behind)) ahead,
      operated_op l o token known (Sign.at_of_regular later (operand behind))]
    change ((plainOperand d n op.level inner >>= _) >>= _) = _
    rw [taken]
    rfl

theorem isNull_opens (above : level < BindingLevel.test) (tail : BindingLevel.test ≤ e.tail) (opens : Opens d n level e) :
    Opens d n level (.isNull e) := by
  have follows {more} (behind : Regular d .behind more) : Regular d .behind ([.is,.null] ++ more) :=
    regular_cons.mpr ⟨.test,rfl,regular_cons.mpr ⟨.behind,rfl,behind⟩⟩
  refine opens_further opens (by simp [Expr.signs]) follows (fun _ => tail) fun {more ls} read behind _ => ?_
  obtain ⟨i,rest,rfl,is,later⟩ := read_cons read
  obtain ⟨k,rest,rfl,null,later⟩ := read_cons later
  have ahead : level < levelAhead ([.is,.null] ++ more) := above
  refine ⟨rest,later,by simp only [List.length_cons]; omega,?_⟩
  rw [further_taken e read (Sign.regular_behind_ended (follows behind)) ahead,operated_is e i is,isOf_null e k null,ok_bind]

theorem isNotNull_opens (above : level < BindingLevel.test) (tail : BindingLevel.test ≤ e.tail) (opens : Opens d n level e) :
    Opens d n level (.isNotNull e) := by
  have follows {more} (behind : Regular d .behind more) : Regular d .behind ([.is,.not,.null] ++ more) :=
    regular_cons.mpr ⟨.test,rfl,regular_cons.mpr ⟨.negatedTest,rfl,regular_cons.mpr ⟨.behind,rfl,behind⟩⟩⟩
  refine opens_further opens (by simp [Expr.signs]) follows (fun _ => tail) fun {more ls} read behind _ => ?_
  obtain ⟨i,rest,rfl,is,later⟩ := read_cons read
  obtain ⟨j,rest,rfl,not,later⟩ := read_cons later
  obtain ⟨k,rest,rfl,null,later⟩ := read_cons later
  have ahead : level < levelAhead ([.is,.not,.null] ++ more) := above
  refine ⟨rest,later,by simp only [List.length_cons]; omega,?_⟩
  rw [further_taken e read (Sign.regular_behind_ended (follows behind)) ahead,operated_is e i is,
    isOf_notNull e j k not null,ok_bind]

theorem nested_opens (plain : e.IsPlain d) (opens : ∀ {n}, e.levels ≤ n + 1 → Opens d n 0 e) (room : e.levels ≤ n) :
    Opens d n level (.nested e) := by
  apply opens_start
  intro more ls read behind below
  simp only [Expr.signs,List.append_assoc,List.cons_append,List.nil_append] at read
  obtain ⟨l,rest,rfl,token,later⟩ := read_cons read
  have closed : Regular d .behind (.rparen :: more) := regular_cons.mpr ⟨.behind,rfl,behind⟩
  have place := Sign.at_of_regular later (Expr.signs_regular plain closed)
  have item : Yields d (inside d n).expr e := fun _ _ read behind zero =>
    opens_inner opens room read behind (by omega) (by omega)
  obtain ⟨last,ended,listed⟩ := list_read (inside d n).expr [e] (by simp) (by simpa using plain) (by simpa using item)
    later closed
  obtain ⟨k,rest,rfl,closing,ended⟩ := read_cons ended
  have mode : (inside d n).mode = .plain := rfl
  refine ⟨rest,ended,?_⟩
  rw [start_lparen l token,parenthesis_plain mode place (calm_of_read later),listed,ok_bind,symbol_present k closing,
    ok_bind,collated_ended (Sign.at_behind_ended (Sign.at_of_regular ended behind))]

theorem call_opens (f : String) (args : List Expr) (name : d.isPlainName f = true) (plain : ∀ a ∈ args, a.IsPlain d)
    (opens : ∀ a ∈ args, ∀ {n}, a.levels ≤ n + 1 → Opens d n 0 a) (room : ∀ a ∈ args, a.levels ≤ n) :
    Opens d n level (.call { name := .ofIdents [⟨f,none⟩] } args) := by
  apply opens_start
  intro more ls read behind below
  simp only [Expr.signs,Expr.name_text,List.append_assoc,List.cons_append,List.nil_append] at read
  obtain ⟨l,rest,rfl,token,later⟩ := read_cons read
  rw [Sign.token_name d name] at token
  obtain ⟨o,rest,rfl,opening,later⟩ := read_cons later
  have closed : Regular d .behind (.rparen :: more) := regular_cons.mpr ⟨.behind,rfl,behind⟩
  by_cases empty : args = []
  · subst empty
    obtain ⟨k,rest,rfl,closing,ended⟩ := read_cons later
    have place : At .opened (k :: rest) := .symbol .rparen (by decide) closing
    have after := Sign.at_of_regular ended behind
    obtain ⟨p,started⟩ := start_call (g := inside d n) l o token opening place
    refine ⟨rest,ended,?_⟩
    rw [started,callOf_plain p _ o opening place (arguments_empty k closing place) after,ok_bind,
      collated_ended (Sign.at_behind_ended after)]
  · have operand := Expr.signsList_regular args empty (fun a member _ => Expr.signs_regular (plain a member)) closed
    have place := Sign.at_of_regular later operand
    have item (a : Expr) (member : a ∈ args) : Yields d (argument (inside d n)) a := by
      intro more ls read behind zero
      have regular := Expr.signs_regular (plain a member) behind
      rw [argument_plain read (by rwa [Grammar.inside_dialect])]
      exact opens_inner (opens a member) (room a member) read behind (by omega) (by omega)
    obtain ⟨last,ended,listed⟩ := list_read (argument (inside d n)) args empty plain item later closed
    have stop := Sign.at_of_regular ended (Sign.regular_behind_ended closed)
    obtain ⟨k,rest,rfl,closing,ended⟩ := read_cons ended
    have after := Sign.at_of_regular ended behind
    have given := arguments_listed place listed stop
    rw [symbol_present k closing,ok_bind] at given
    obtain ⟨p,started⟩ := start_call (g := inside d n) l o token opening (at_opened place)
    refine ⟨rest,ended,?_⟩
    rw [started,callOf_plain p _ o opening (at_opened place) given after,ok_bind,
      collated_ended (Sign.at_behind_ended after)]

theorem bound_opens (bound : Expr.Bound d level e) (room : e.levels ≤ n + 1) : Opens d n level e := by
  induction bound generalizing n with
  | ident name =>
    apply opens_start
    intro more ls read behind below
    obtain ⟨l,rest,rfl,token,later⟩ := read_cons read
    rw [Sign.token_name d name] at token
    exact ⟨rest,later,start_name l token (Sign.at_of_regular later behind) (by decide)⟩
  | binary op known above _ tail right ihl ihr =>
    simp only [Expr.levels,Nat.max_le] at room
    exact binary_opens op known above tail (Expr.bound_plain right) (ihl room.1) ihr (Nat.le_of_succ_le_succ room.2)
  | not inner ih =>
    apply opens_start
    intro more ls read behind below
    simp only [Expr.tail,Nat.le_min] at below
    obtain ⟨l,rest,rfl,token,later⟩ := read_cons read
    obtain ⟨last,ended,taken⟩ := opens_inner ih (Nat.le_of_succ_le_succ room) later behind below.2 below.1
    have operand := Expr.signs_regular (Expr.bound_plain inner) behind
    exact ⟨last,ended,start_not l token (calm_of_read later) (Sign.at_of_regular later operand) taken
      (Sign.at_behind_ended (Sign.at_of_regular ended behind))⟩
  | minus inner ih =>
    apply opens_start
    intro more ls read behind below
    simp only [Expr.tail,Nat.le_min] at below
    obtain ⟨l,rest,rfl,token,later⟩ := read_cons read
    obtain ⟨last,ended,taken⟩ := opens_inner ih (Nat.le_of_succ_le_succ room) later behind below.2 below.1
    refine ⟨last,ended,?_⟩
    rw [start_minus l token]
    change (plainOperand d n BindingLevel.product rest >>= fun r => collated (inside d n) (.unary .minus r.1) r.2) = _
    rw [taken,ok_bind,collated_ended (Sign.at_behind_ended (Sign.at_of_regular ended behind))]
  | nested inner ih => exact nested_opens (Expr.bound_plain inner) ih (Nat.le_of_succ_le_succ room)
  | isNull above _ tail ih => exact isNull_opens above tail (ih room)
  | isNotNull above _ tail ih => exact isNotNull_opens above tail (ih room)
  | call f args name inner ih =>
    simp only [Expr.levels,Nat.add_le_add_iff_right,Expr.levelsList_le] at room
    exact call_opens f args name (fun a member => Expr.bound_plain (inner a member)) ih room

-- Completeness: a bound expression is read from its signs.
theorem bound_read (bound : Expr.Bound d level e) (room : e.levels ≤ n) (read : Read (e.signs ++ more) ls)
    (behind : Regular d .behind more) (below : levelAhead more ≤ e.tail) (done : levelAhead more ≤ level) :
    ∃ rest, Read more rest ∧ plainOperand d n level ls = .ok (e,rest) :=
  opens_inner (bound_opens bound) room read behind below done

-- What is known of an expression that was read from the front of the signs.
structure Leads (d : Dialect) (n level : Nat) (ss : List Sign) (e : Expr) (behind : List Sign) : Prop where
  regular : Regular d .behind behind
  signs : ss = e.signs ++ behind
  bound : e.Bound d level
  room : e.levels ≤ n
  below : levelAhead behind ≤ e.tail

-- What is known of the outcome of a reading, also where NOT became a name: other signs are left.
def Ends (d : Dialect) (n level : Nat) (ss : List Sign) (e : Expr) (rest : List Lexeme) : Prop :=
  ∃ behind, Read behind rest ∧ Regular d .ended behind ∧
    (e.isClear = true → Leads d n level ss e behind ∧ levelAhead behind ≤ level)

-- Whether operands are read with `n` levels of nesting as they should be.
def Sound (d : Dialect) (n : Nat) : Prop :=
  ∀ {level ss ls e rest}, Read ss ls → Regular d .operand ss → plainOperand d n level ls = .ok (e,rest) →
    Ends d n level ss e rest

theorem level_path (s : Sign) : s.level ≤ BindingLevel.path := by
  cases s with
  | op o => cases o <;> simp [Sign.level,BinaryOp.level,BindingLevel.path,BindingLevel.comparison,BindingLevel.conjunction,
      BindingLevel.disjunction,BindingLevel.sum,BindingLevel.product]
  | _ => simp [Sign.level,BindingLevel.path,BindingLevel.test]

theorem levelAhead_path (ss : List Sign) : levelAhead ss ≤ BindingLevel.path := by
  cases ss with
  | nil => exact Nat.zero_le _
  | cons s ss => exact level_path s

-- Items with commas between them.
structure Items (d : Dialect) (n : Nat) (ss : List Sign) (es : List Expr) (behind : List Sign) : Prop where
  regular : Regular d .behind behind
  signs : ss = Expr.signsList es ++ behind
  each : ∀ e ∈ es, e.Bound d 0 ∧ e.levels ≤ n

theorem items_sound (item : Reading Expr) (each : ∀ {ss ls e rest}, Read ss ls → Regular d .operand ss →
      item ls = .ok (e,rest) → Ends d n 0 ss e rest)
    (read : Read ss ls) (regular : Regular d .operand ss) (done : separated.go (fun _ => false) item m ls = .ok (es,rest)) :
    es ≠ [] ∧ ∃ behind, Read behind rest ∧ Regular d .ended behind ∧ (Expr.areClear es = true → Items d n ss es behind) := by
  have single {ss ls e last} (read : Read ss ls) (regular : Regular d .operand ss) (first : item ls = .ok (e,last)) :
      ∃ behind, Read behind last ∧ Regular d .ended behind ∧ (Expr.areClear [e] = true → Items d n ss [e] behind) := by
    obtain ⟨behind,later,ended,holds⟩ := each read regular first
    refine ⟨behind,later,ended,fun clear => ?_⟩
    have first := (holds (by simpa [Expr.areClear] using clear)).1
    exact ⟨first.regular,first.signs,by simpa using ⟨first.bound,first.room⟩⟩
  induction m generalizing ss ls es with
  | zero =>
    simp only [separated.go,map_run] at done
    obtain ⟨⟨e,last⟩,first,same⟩ := bind_ok.mp done
    cases same
    exact ⟨List.cons_ne_nil e [],single read regular first⟩
  | succ m ih =>
    simp only [separated.go,bind_run] at done
    obtain ⟨⟨e,last⟩,first,done⟩ := bind_ok.mp done
    rcases symbol?_cases .comma last with ⟨absent,_⟩ | ⟨l,more,rfl,token,present,_⟩
    · simp only [absent,ok_bind] at done
      cases done
      exact ⟨by simp,single read regular first⟩
    · simp only [present,ok_bind] at done
      change (separated.go (fun _ => false) item m more >>= _) = _ at done
      obtain ⟨⟨es,last⟩,listed,same⟩ := bind_ok.mp done
      cases same
      obtain ⟨behind,later,ended,holds⟩ := each read regular first
      obtain ⟨s,signs,rfl,comma,inner⟩ := Sign.lexeme_read later
      obtain rfl := (Sign.token_punctuation (comma.symm.trans token)).1 rfl
      obtain ⟨q,step,follows⟩ := regular_cons.mp ended
      cases step
      obtain ⟨nonempty,behind,last,ended,tail⟩ := ih inner follows listed
      refine ⟨by simp,behind,last,ended,fun clear => ?_⟩
      simp only [Expr.areClear,Bool.and_eq_true] at clear
      have front := (holds clear.1).1
      have items := tail clear.2
      refine ⟨items.regular,?_,?_⟩
      · rw [Expr.signsList_cons e es nonempty,front.signs,items.signs]
        simp
      · intro a member
        rcases List.mem_cons.mp member with rfl | member
        · exact ⟨front.bound,front.room⟩
        · exact items.each a member

theorem list_sound (item : Reading Expr) (each : ∀ {ss ls e rest}, Read ss ls → Regular d .operand ss →
      item ls = .ok (e,rest) → Ends d n 0 ss e rest)
    (read : Read ss ls) (regular : Regular d .operand ss) (done : list item ls = .ok (es,rest)) :
    es ≠ [] ∧ ∃ behind, Read behind rest ∧ Regular d .ended behind ∧ (Expr.areClear es = true → Items d n ss es behind) :=
  items_sound item each read regular done

-- What is known of a call that was read behind its name.
theorem callOf_sound (sound : Sound d n) (k : Lexeme) (opening : k.token = .symbol .lparen) (read : Read ss ls)
    (regular : Regular d .opened ss) (done : callOf (inside d n) p name (k :: ls) = .ok (e,rest)) :
    ∃ args behind, e = .call { name } args ∧ Read behind rest ∧ Regular d .behind behind ∧
      (Expr.areClear args = true → ss = Expr.signsList args ++ .rparen :: behind ∧
        ∀ a ∈ args, a.Bound d 0 ∧ a.levels ≤ n) := by
  have place := Sign.at_of_regular read regular
  by_cases empty : ∃ more, ss = .rparen :: more
  · obtain ⟨more,rfl⟩ := empty
    obtain ⟨c,after,rfl,closing,later⟩ := read_cons read
    obtain ⟨q,step,behind⟩ := regular_cons.mp regular
    cases step
    rw [callOf_plain p name k opening place (arguments_empty c closing place) (Sign.at_of_regular later behind)] at done
    cases done
    exact ⟨[],more,rfl,later,behind,fun _ => ⟨rfl,by simp⟩⟩
  · have operand : Regular d .operand ss := by
      cases ss with
      | nil => rfl
      | cons s more =>
        obtain ⟨q,step,later⟩ := regular_cons.mp regular
        rcases Sign.opened_next step with ⟨rfl,_⟩ | ⟨_,step⟩
        · exact absurd ⟨more,rfl⟩ empty
        · exact regular_cons.mpr ⟨q,step,later⟩
    have start := Sign.at_of_regular read operand
    have item {ss ls e rest} (read : Read ss ls) (regular : Regular d .operand ss)
        (done : argument (inside d n) ls = .ok (e,rest)) : Ends d n 0 ss e rest := by
      rw [argument_plain read (by rwa [Grammar.inside_dialect])] at done
      exact sound read regular done
    cases listed : list (argument (inside d n)) ls with
    | error f =>
      rw [callOf_failed p name k opening place (arguments_failed start listed)] at done
      cases done
    | ok r =>
      obtain ⟨args,last⟩ := r
      obtain ⟨some,behind,later,ended,holds⟩ := list_sound _ item read operand listed
      have given := arguments_listed start listed (Sign.at_of_regular later ended)
      rcases symbol?_cases .rparen last with ⟨_,absent⟩ | ⟨c,after,rfl,closing,_,present⟩
      · rw [absent,error_bind] at given
        rw [callOf_failed p name k opening place given] at done
        cases done
      · obtain ⟨s,behind,rfl,token,inner⟩ := Sign.lexeme_read later
        obtain rfl := (Sign.token_punctuation (token.symm.trans closing)).2.2 rfl
        obtain ⟨q,step,follows⟩ := regular_cons.mp ended
        cases step
        rw [present,ok_bind] at given
        rw [callOf_plain p name k opening place given (Sign.at_of_regular inner follows)] at done
        cases done
        exact ⟨args,behind,rfl,inner,follows,fun clear => ⟨(holds clear).signs,(holds clear).each⟩⟩

-- What is known of a first operand: it is bound wherever operators are taken from.
def Begins (d : Dialect) (n : Nat) (ss : List Sign) (e : Expr) (rest : List Lexeme) : Prop :=
  ∃ behind, Read behind rest ∧ Regular d .ended behind ∧ (e.isClear = true → ∀ level, Leads d (n + 1) level ss e behind)

section
variable (sound : Sound d n) (l : Lexeme) (read : Read ss ls)
include sound read

theorem begins_call (token : l.token = .word v none none) (name : d.isPlainName v = true) (opening : o.token = .symbol .lparen)
    (regular : Regular d .opened ss) (done : start (inside d n) (l :: o :: ls) = .ok (e,rest)) :
    Begins d n (.name v :: .lparen :: ss) e rest := by
  obtain ⟨p,started⟩ := start_call (g := inside d n) l o token opening (Sign.at_of_regular read regular)
  rw [started] at done
  obtain ⟨⟨e',last⟩,call,done⟩ := bind_ok.mp done
  obtain ⟨args,behind,rfl,after,ended,holds⟩ := callOf_sound sound o opening read regular call
  rw [collated_ended (Sign.at_behind_ended (Sign.at_of_regular after ended))] at done
  cases done
  refine ⟨behind,after,Sign.regular_behind_ended ended,fun clear level => ?_⟩
  simp only [Expr.isClear,Bool.and_eq_true] at clear
  obtain ⟨signs,each⟩ := holds clear.2
  refine ⟨ended,by simp [Expr.signs,Expr.name_text,signs],?_,?_,levelAhead_path behind⟩
  · exact .call v args name fun a member => (each a member).1
  · exact Nat.succ_le_succ (Expr.levelsList_le.mpr fun a member => (each a member).2)

theorem begins_name (token : l.token = .word v none none) (name : d.isPlainName v = true) (regular : Regular d .named ss)
    (done : start (inside d n) (l :: ls) = .ok (e,rest)) : Begins d n (.name v :: ss) e rest := by
  by_cases called : ∃ more, ss = .lparen :: more
  · obtain ⟨more,rfl⟩ := called
    obtain ⟨o,ls,rfl,opening,later⟩ := read_cons read
    obtain ⟨q,step,follows⟩ := regular_cons.mp regular
    cases step
    exact begins_call sound l later token name opening follows done
  · have behind : Regular d .behind ss := by
      cases ss with
      | nil => rfl
      | cons s more =>
        obtain ⟨q,step,later⟩ := regular_cons.mp regular
        rcases Sign.named_next step with ⟨rfl,_⟩ | ⟨_,step⟩
        · exact absurd ⟨more,rfl⟩ called
        · exact regular_cons.mpr ⟨q,step,later⟩
    rw [start_name l token (Sign.at_of_regular read behind) (by decide)] at done
    cases done
    refine ⟨ss,read,Sign.regular_behind_ended behind,fun _ level => ?_⟩
    exact ⟨behind,rfl,.ident name,Nat.succ_le_succ (Nat.zero_le n),levelAhead_path ss⟩

theorem begins_lparen (token : l.token = .symbol .lparen) (regular : Regular d .operand ss)
    (done : start (inside d n) (l :: ls) = .ok (e,rest)) : Begins d n (.lparen :: ss) e rest := by
  have place := Sign.at_of_regular read regular
  have mode : (inside d n).mode = .plain := rfl
  rw [start_lparen l token,parenthesis_plain mode place (calm_of_read read)] at done
  obtain ⟨⟨items,last⟩,listed,done⟩ := bind_ok.mp done
  obtain ⟨⟨_,after⟩,closed,done⟩ := bind_ok.mp done
  obtain ⟨some,behind,inner,ended,holds⟩ := list_sound (inside d n).expr sound read regular listed
  rcases symbol?_cases .rparen last with ⟨_,absent⟩ | ⟨c,more,rfl,closing,_,present⟩
  · rw [absent] at closed
    cases closed
  · rw [present] at closed
    cases closed
    obtain ⟨s,behind,rfl,token,last⟩ := Sign.lexeme_read inner
    obtain rfl := (Sign.token_punctuation (token.symm.trans closing)).2.2 rfl
    obtain ⟨q,step,closed⟩ := regular_cons.mp ended
    cases step
    rw [collated_ended (Sign.at_behind_ended (Sign.at_of_regular last closed))] at done
    cases done
    refine ⟨behind,last,Sign.regular_behind_ended closed,fun clear level => ?_⟩
    -- A tuple is not clear.
    rcases items with _ | ⟨x,_ | ⟨y,items⟩⟩
    · cases clear
    · have front := holds (by simpa [Expr.areClear,Expr.isClear] using clear)
      have inner := front.each x (by simp)
      refine ⟨closed,?_,.nested inner.1,Nat.succ_le_succ inner.2,levelAhead_path behind⟩
      simp [Expr.signs,front.signs,Expr.signsList]
    · cases clear

-- A NOT in front of no operand is a name.
theorem begins_not (token : l.token = Sign.token .not) (regular : Regular d .operand ss)
    (done : start (inside d n) (l :: ls) = .ok (e,rest)) : Begins d n (.not :: ss) e rest := by
  have place := Sign.at_of_regular read regular
  cases taken : plainOperand d n BindingLevel.negation ls with
  | ok r =>
    obtain ⟨x,last⟩ := r
    obtain ⟨behind,after,ended,holds⟩ := sound read regular taken
    rw [start_not (g := inside d n) l token (calm_of_read read) place taken (Sign.at_of_regular after ended)] at done
    cases done
    refine ⟨behind,after,ended,fun clear level => ?_⟩
    obtain ⟨front,done⟩ := holds clear
    exact ⟨front.regular,by simp [Expr.signs,front.signs],.not front.bound,Nat.succ_le_succ front.room,
      Nat.le_min.mpr ⟨done,front.below⟩⟩
  | error f =>
    rcases start_not_failed (g := inside d n) l token (calm_of_read read) place taken done with
      ⟨rfl,rfl⟩ | ⟨p,k,more,rfl,opening,call⟩
    · exact ⟨ss,read,Sign.regular_operand_ended regular,fun clear => by simp [Expr.isClear] at clear⟩
    · obtain ⟨s,signs,rfl,token,inner⟩ := Sign.lexeme_read read
      obtain rfl := (Sign.token_punctuation (token.symm.trans opening)).2.1 rfl
      obtain ⟨q,step,follows⟩ := regular_cons.mp regular
      cases step
      obtain ⟨args,behind,rfl,after,ended,_⟩ :=
        callOf_sound sound k opening inner (Sign.regular_operand_opened follows) call
      refine ⟨behind,after,Sign.regular_behind_ended ended,fun clear => ?_⟩
      simp [Expr.isClear,Expr.name_text] at clear

theorem begins_minus (token : l.token = Sign.token (.op .minus)) (regular : Regular d .operand ss)
    (done : start (inside d n) (l :: ls) = .ok (e,rest)) : Begins d n (.op .minus :: ss) e rest := by
  rw [start_minus l token] at done
  change (plainOperand d n BindingLevel.product ls >>= fun r => collated (inside d n) (.unary .minus r.1) r.2) = _ at done
  obtain ⟨⟨x,last⟩,taken,done⟩ := bind_ok.mp done
  obtain ⟨behind,after,ended,holds⟩ := sound read regular taken
  rw [collated_ended (Sign.at_of_regular after ended)] at done
  cases done
  refine ⟨behind,after,ended,fun clear level => ?_⟩
  obtain ⟨front,done⟩ := holds clear
  exact ⟨front.regular,by simp [Expr.signs,front.signs],.minus front.bound,Nat.succ_le_succ front.room,
    Nat.le_min.mpr ⟨done,front.below⟩⟩

end

theorem start_sound (sound : Sound d n) (read : Read ss ls) (regular : Regular d .operand ss)
    (done : start (inside d n) ls = .ok (e,rest)) : Begins d n ss e rest := by
  cases ss with
  | nil =>
    obtain rfl := read_nil read
    obtain ⟨f,failed⟩ := start_nil (g := inside d n)
    rw [failed] at done
    cases done
  | cons s ss =>
    obtain ⟨l,ls,rfl,token,later⟩ := read_cons read
    obtain ⟨q,step,follows⟩ := regular_cons.mp regular
    rcases Sign.operand_next step with ⟨v,rfl,name,rfl⟩ | ⟨rfl | rfl | rfl,rfl⟩
    · exact begins_name sound l later ((Sign.token_name d name) ▸ token) name follows done
    · exact begins_lparen sound l later token follows done
    · exact begins_not sound l later token follows done
    · exact begins_minus sound l later token follows done

-- What is known of an expression with one operator more.
def Grows (d : Dialect) (n level : Nat) (ss : List Sign) (left : Expr) (behind : List Sign) (turn : Option Expr)
    (rest : List Lexeme) : Prop :=
  ∃ e later, turn = some e ∧ Read later rest ∧ Regular d .ended later ∧
    (e.isClear = true → left.isClear = true ∧ later.length < behind.length ∧ Leads d (n + 1) level ss e later)

section
variable (holds : left.isClear = true → Leads d (n + 1) level ss left behind)
include holds

theorem grows_binary {op : BinaryOp} (sound : Sound d n) (same : behind = .op op :: ts) (known : op.isPlain = true)
    (above : level < op.level) (read : Read ts ls) (regular : Regular d .operand ts)
    (taken : plainOperand d n op.level ls = .ok (r,rest)) : Grows d n level ss left behind (some (.binary left op r)) rest := by
  subst same
  obtain ⟨later,after,ended,right⟩ := sound read regular taken
  refine ⟨_,later,rfl,after,ended,fun clear => ?_⟩
  simp only [Expr.isClear,Bool.and_eq_true] at clear
  have first := holds clear.1
  obtain ⟨second,done⟩ := right clear.2
  refine ⟨clear.1,by simp only [second.signs,List.length_append,List.length_cons]; omega,second.regular,?_,?_,?_,?_⟩
  · rw [first.signs,second.signs]
    simp [Expr.signs]
  · exact .binary op known above first.bound first.below second.bound
  · exact Nat.max_le.mpr ⟨first.room,Nat.succ_le_succ second.room⟩
  · exact Nat.le_min.mpr ⟨done,second.below⟩

theorem grows_test (same : behind = .is :: ts) (above : level < BindingLevel.test) (read : Read ts ls)
    (regular : Regular d .test ts) (tested : isOf (inside d n) left ls = .ok (e,rest)) :
    Grows d n level ss left behind (some e) rest := by
  subst same
  cases ts with
  | nil =>
    obtain rfl := read_nil read
    obtain ⟨f,failed⟩ := isOf_open (g := inside d n) left
    rw [failed] at tested
    cases tested
  | cons s ts =>
    obtain ⟨k,ls,rfl,second,later⟩ := read_cons read
    obtain ⟨q,step,after⟩ := regular_cons.mp regular
    rcases Sign.test_next step with ⟨rfl,rfl⟩ | ⟨rfl,rfl⟩
    · rw [isOf_null left k second] at tested
      cases tested
      refine ⟨_,ts,rfl,later,Sign.regular_behind_ended after,fun clear => ?_⟩
      have first := holds clear
      exact ⟨clear,by simp only [List.length_cons]; omega,after,by simp [Expr.signs,first.signs],
        .isNull above first.bound first.below,first.room,levelAhead_path ts⟩
    · cases ts with
      | nil =>
        obtain rfl := read_nil later
        obtain ⟨f,failed⟩ := isOf_notOpen (g := inside d n) left k second
        rw [failed] at tested
        cases tested
      | cons s ts =>
        obtain ⟨j,ls,rfl,third,last⟩ := read_cons later
        obtain ⟨q,step,after⟩ := regular_cons.mp after
        obtain ⟨rfl,rfl⟩ := Sign.negatedTest_next step
        rw [isOf_notNull left k j second third] at tested
        cases tested
        refine ⟨_,ts,rfl,last,Sign.regular_behind_ended after,fun clear => ?_⟩
        have first := holds clear
        exact ⟨clear,by simp only [List.length_cons]; omega,after,by simp [Expr.signs,first.signs],
          .isNotNull above first.bound first.below,first.room,levelAhead_path ts⟩

end

-- Behind an expression, only an operator binds.
theorem binding_next (step : Sign.Place.ended.next d s = some q) (above : level < s.level) :
    (∃ o, s = .op o ∧ o.isPlain = true ∧ q = .operand) ∨ s = .is ∧ q = .test := by
  rcases Sign.ended_next step with step | step
  · rcases Sign.behind_next step with known | ⟨rfl,_⟩ | ⟨rfl,_⟩ | is
    · exact .inl known
    · exact absurd above (Nat.not_lt_zero _)
    · exact absurd above (Nat.not_lt_zero _)
    · exact .inr is
  · rcases Sign.operand_next step with ⟨v,rfl,_⟩ | ⟨rfl | rfl | rfl,same⟩
    · exact absurd above (Nat.not_lt_zero _)
    · exact absurd above (Nat.not_lt_zero _)
    · exact absurd above (Nat.not_lt_zero _)
    · exact .inl ⟨.minus,rfl,rfl,same⟩

-- One operator taken behind an expression.
theorem further_sound (sound : Sound d n) (read : Read behind ls) (regular : Regular d .ended behind)
    (above : level < levelAhead behind) (holds : left.isClear = true → Leads d (n + 1) level ss left behind)
    (done : further (inside d n) level left ls = .ok (turn,rest)) : Grows d n level ss left behind turn rest := by
  rw [further_taken left read regular above] at done
  cases behind with
  | nil => exact absurd above (Nat.not_lt_zero _)
  | cons s behind =>
    obtain ⟨l,ls,rfl,token,inner⟩ := read_cons read
    obtain ⟨q,step,follows⟩ := regular_cons.mp regular
    rcases binding_next step above with ⟨o,rfl,plain,rfl⟩ | ⟨rfl,rfl⟩
    · rw [operated_op left l token plain (Sign.at_of_regular inner follows)] at done
      change ((plainOperand d n o.level ls >>= _) >>= _) = _ at done
      cases taken : plainOperand d n o.level ls with
      | error f =>
        rw [taken] at done
        cases done
      | ok r =>
        obtain ⟨r,last⟩ := r
        rw [taken] at done
        cases done
        exact grows_binary holds sound rfl plain above inner follows taken
    · rw [operated_is left l token] at done
      obtain ⟨⟨e,last⟩,tested,done⟩ := bind_ok.mp done
      cases done
      exact grows_test holds rfl above inner follows tested

theorem climb_sound (sound : Sound d n) (read : Read behind ls) (regular : Regular d .ended behind)
    (holds : left.isClear = true → behind.length ≤ m ∧ Leads d (n + 1) level ss left behind)
    (done : iterate.go (further (inside d n) level) m left ls = .ok (e,rest)) : Ends d (n + 1) level ss e rest := by
  induction m generalizing left ls behind with
  | zero =>
    cases done
    refine ⟨behind,read,regular,fun clear => ?_⟩
    obtain ⟨room,known⟩ := holds clear
    obtain rfl := List.eq_nil_of_length_eq_zero (Nat.le_zero.mp room)
    exact ⟨known,Nat.zero_le _⟩
  | succ m ih =>
    simp only [iterate.go,bind_run] at done
    obtain ⟨⟨turn,last⟩,taken,done⟩ := bind_ok.mp done
    by_cases stop : levelAhead behind ≤ level
    · rw [further_stop left read regular stop] at taken
      cases taken
      cases done
      exact ⟨behind,read,regular,fun clear => ⟨(holds clear).2,stop⟩⟩
    · obtain ⟨b,later,rfl,inner,ended,next⟩ := further_sound sound read regular (Nat.lt_of_not_le stop)
        (fun clear => (holds clear).2) taken
      refine ih inner ended (fun clear => ?_) done
      obtain ⟨before,shorter,known⟩ := next clear
      exact ⟨by have := (holds before).1; omega,known⟩

-- Soundness: whatever is read from the signs of a plain expression is bound by the levels of its operators.
theorem operand_sound (d : Dialect) (n : Nat) : Sound d n := by
  induction n with
  | zero =>
    intro level ss ls e rest read regular done
    cases done
  | succ n ih =>
    intro level ss ls e rest read regular done
    rw [Grammar.plainOperand_succ,operandOf_run] at done
    obtain ⟨⟨first,last⟩,started,done⟩ := bind_ok.mp done
    obtain ⟨behind,later,ended,holds⟩ := start_sound ih read regular started
    rw [pathFrom_ended later ended,ok_bind] at done
    exact climb_sound ih later ended (fun clear => ⟨Nat.le_of_eq (read_length later).symm,holds clear level⟩) done

end Reading

namespace Expr

open Sign (Read Regular)

theorem nonEmpty_plain (plain : IsPlain d e) : nonEmpty e.text = .ok e.text := by
  obtain ⟨trimmed,some⟩ := trim_plain plain
  simp [nonEmpty,trimmed,some]

theorem parseExpr_run (plain : IsPlain d e) (scanned : Token.scan d e.text.toList = .ok ls) :
    parseExpr d e.text = (Prod.fst <$> Grammar.plainOperand d Grammar.maxLevels 0 ls).mapError .unreadable := by
  simp only [parseExpr,nonEmpty_plain plain,Reading.ok_bind,Expr.read,scanned]
  rfl

-- The text of a bound expression reads as the expression, if no comment opens in it.
theorem parseExpr_bound (bound : Bound d 0 e) (free : Piece.opensComment e.pieces = false)
    (room : e.levels ≤ Grammar.maxLevels) : parseExpr d e.text = .ok e := by
  have plain := bound_plain bound
  obtain ⟨ls,scanned,_,exact⟩ := scan_plain plain
  have read : Read (e.signs ++ []) ls := by simpa [Read] using exact free
  obtain ⟨rest,_,done⟩ := Reading.bound_read bound room read (Sign.regular_nil d .behind) (Nat.zero_le _) (Nat.le_refl _)
  rw [parseExpr_run plain scanned,done]
  rfl

-- Whatever the text of a plain expression reads as is written with the signs in front, and is bound.
theorem parseExpr_sound (plain : IsPlain d e) (read : parseExpr d e.text = .ok e') (clear : e'.isClear = true) :
    ∃ more, e.signs = e'.signs ++ more ∧ e'.Bound d 0 ∧ e'.levels ≤ Grammar.maxLevels := by
  obtain ⟨ls,scanned,front,_⟩ := scan_plain plain
  rw [parseExpr_run plain scanned] at read
  obtain ⟨⟨e',rest⟩,done,rfl⟩ := map_ok.mp (mapError_ok.mp read)
  obtain ⟨cut,shown⟩ := front
  have signs : Read (e.signs.take ls.length) ls := by
    have cut := congrArg (List.take ls.length) shown
    simpa [Read,List.map_take] using cut
  have regular : Regular d .operand (e.signs.take ls.length) := by
    have whole : Regular d .operand (e.signs ++ []) := signs_regular plain (Sign.regular_nil d .behind)
    rw [List.append_nil,← List.take_append_drop ls.length e.signs] at whole
    exact Sign.regular_prefix whole
  obtain ⟨behind,_,_,holds⟩ := Reading.operand_sound d Grammar.maxLevels signs regular done
  obtain ⟨leads,_⟩ := holds clear
  refine ⟨behind ++ e.signs.drop ls.length,?_,leads.bound,leads.room⟩
  rw [← List.append_assoc,← leads.signs,List.take_append_drop]

end Expr

end JoinTree.Sql
