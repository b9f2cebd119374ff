import JoinTree.Proofs.Binding
import JoinTree.Proofs.Rebuilding

/-!
Trees of plain names, and the expressions that show them. Main statement: such an expression is held together
as it is exactly if no operand of the tree stands where an operator next to it takes it over.
-/

namespace JoinTree

open Sql

-- Names without quotes, combined by all that a tree has functions for.
inductive Sql.Expr.IsComposed (d : Dialect) : Expr → Prop where
  | ident : d.isPlainName v = true → IsComposed d (.ident ⟨v,none⟩)
  | binary (op : BinaryOp) : IsComposed d l → IsComposed d r → IsComposed d (.binary l op r)
  | not : IsComposed d e → IsComposed d (.unary .not e)
  | minus : IsComposed d e → IsComposed d (.unary .minus e)
  | nested : IsComposed d e → IsComposed d (.nested e)
  | isNull : IsComposed d e → IsComposed d (.isNull e)
  | isNotNull : IsComposed d e → IsComposed d (.isNotNull e)
  | between (negated : Bool) : IsComposed d e → IsComposed d low → IsComposed d high →
      IsComposed d (.between e negated low high)
  | call (f : String) (args : List Expr) : d.isPlainName f = true → (∀ a ∈ args, IsComposed d a) →
      IsComposed d (.call { name := .ofIdents [⟨f,none⟩] } args)

namespace Node

-- Trees of such expressions. A call that is none of an operator is ordinary.
inductive IsPlain (d : Dialect) : Node → Prop where
  | name : d.isPlainName v = true → IsPlain d (ident v)
  | binary (op : BinaryOp) : functionOf? op = some f → IsPlain d a → IsPlain d b → IsPlain d (call f [a,b])
  | isNull : IsPlain d a → IsPlain d (call "isNull" [a])
  | isNotNull : IsPlain d a → IsPlain d (call "isNotNull" [a])
  | not : IsPlain d a → IsPlain d (call "not" [a])
  | negate : IsPlain d a → IsPlain d (call "negate" [a])
  | ordinary (f : String) (args : List Node) : d.isPlainName f = true →
      (∀ es, es.length = args.length → applied f es = .call { name := .ofIdents [⟨f,none⟩] } es) →
      (∀ a ∈ args, IsPlain d a) → IsPlain d (call f args)

-- A call of a plain name, be it ordinary or not.
theorem call_plain (f : String) (args : List Node) (name : d.isPlainName f = true) (plain : ∀ a ∈ args, IsPlain d a) :
    IsPlain d (call f args) := by
  match args, plain with
  | [a], plain =>
    have inner := plain a (by simp)
    by_cases special : f = "isNull" ∨ f = "isNotNull" ∨ f = "not" ∨ f = "negate"
    · rcases special with rfl | rfl | rfl | rfl
      · exact .isNull inner
      · exact .isNotNull inner
      · exact .not inner
      · exact .negate inner
    · simp only [not_or] at special
      refine .ordinary f [a] name (fun es one => ?_) plain
      obtain ⟨e,rfl⟩ := List.length_eq_one_iff.mp one
      simp [applied,special]
  | [a,b], plain =>
    cases operator : operatorOf? f with
    | some op => exact .binary op (operatorOf?_exact operator) (plain a (by simp)) (plain b (by simp))
    | none =>
      refine .ordinary f [a,b] name (fun es two => ?_) plain
      rcases es with _ | ⟨x,_ | ⟨y,_ | ⟨z,es⟩⟩⟩
      · cases two
      · cases two
      · simp [applied,operator]
      · cases two
  | [], plain =>
    refine .ordinary f [] name (fun es zero => ?_) plain
    obtain rfl := List.eq_nil_of_length_eq_zero zero
    rfl
  | a :: b :: c :: args, plain =>
    refine .ordinary f _ name (fun es many => ?_) plain
    -- Only one and two operands make an operator.
    rcases es with _ | ⟨x,_ | ⟨y,_ | ⟨z,es⟩⟩⟩
    · cases many
    · cases many
    · cases many
    · rfl

theorem HasNode.isPlain (composed : e.IsComposed d) (has : HasNode e n) : IsPlain d n := by
  induction composed generalizing n with
  | ident name =>
    cases has
    exact .name name
  | binary op _ _ ihl ihr =>
    cases has with
    | binary known left right => exact .binary op known (ihl left) (ihr right)
  | not _ ih =>
    cases has with
    | not inner => exact .not (ih inner)
  | minus composed ih =>
    cases has with
    -- A numeral is no plain expression, so a minus sign in front of one is a call.
    | folded => cases composed
    | negate _ inner => exact .negate (ih inner)
  | nested _ ih =>
    cases has with
    | nested inner => exact ih inner
  | isNull _ ih =>
    cases has with
    | isNull inner => exact .isNull (ih inner)
  | isNotNull _ ih =>
    cases has with
    | isNotNull inner => exact .isNotNull (ih inner)
  | between negated _ _ _ ihe ihl ihh =>
    cases has with
    | between _ value low high =>
      cases negated
      · exact .binary .and rfl (.binary .gtEq rfl (ihe value) (ihl low)) (.binary .ltEq rfl (ihe value) (ihh high))
      · exact .binary .or rfl (.binary .lt rfl (ihe value) (ihl low)) (.binary .gt rfl (ihe value) (ihh high))
  | call f args name _ ih =>
    cases has with
    | @call _ _ ns _ size each =>
      rw [Expr.name_text]
      refine call_plain f ns name fun a member => ?_
      obtain ⟨e,inside⟩ := argument_of_node size member
      exact ih e (List.of_mem_zip inside).1 (each _ inside)

theorem ofExpr_isPlain (composed : e.IsComposed d) (built : ofExpr e = .ok n) : IsPlain d n :=
  (ofExpr_iff.mp built).isPlain composed

-- What a tree of calls and names looks like.
mutual
def shown : Node → Expr
  | identifier parts => identExpr parts
  | function name (.list args) => applied name (shownList args)
  | _ => .tuple []
def shownList : List Node → List Expr
  | [] => []
  | n :: ns => n.shown :: shownList ns
end

theorem shownList_map (ns : List Node) : shownList ns = ns.map shown := by
  induction ns with
  | nil => rfl
  | cons n ns ih => simp [shownList,ih]

theorem shown_call (f : String) (args : List Node) : (call f args).shown = applied f (args.map shown) := by
  rw [call,shown,shownList_map]

theorem operatorOf?_found (known : functionOf? op = some f) : operatorOf? f = some op ∧ op.isPlain = true := by
  cases op <;> first | (cases known; exact ⟨rfl,rfl⟩) | cases known

theorem applied_operator (known : functionOf? op = some f) :
    applied f [l,r] = .binary (operand l) op (operand r) := by
  simp [applied,(operatorOf?_found known).1]

theorem applied_negate : applied "negate" [e] = .unary .minus (negatedOperand e) := rfl

theorem operand_isPlain (plain : e.IsPlain d) : (operand e).IsPlain d := by
  unfold operand
  split
  · exact .nested plain
  · exact plain

theorem negatedOperand_isPlain (plain : e.IsPlain d) : (negatedOperand e).IsPlain d := by
  unfold negatedOperand
  split
  · exact .nested plain
  · cases plain
  · exact operand_isPlain plain

theorem shown_isPlain (plain : IsPlain d n) : n.shown.IsPlain d := by
  induction plain with
  | name name => exact .ident name
  | binary op known _ _ ihl ihr =>
    rw [shown_call]
    simp only [List.map_cons,List.map_nil,applied_operator known]
    exact .binary op (operatorOf?_found known).2 (operand_isPlain ihl) (operand_isPlain ihr)
  | isNull _ ih => exact .isNull (operand_isPlain ih)
  | isNotNull _ ih => exact .isNotNull (operand_isPlain ih)
  | not _ ih => exact .not (operand_isPlain ih)
  | negate _ ih => exact .minus (negatedOperand_isPlain ih)
  | ordinary f args name plain _ ih =>
    rw [shown_call,plain _ (by simp)]
    refine .call f _ name fun e member => ?_
    obtain ⟨a,inside,rfl⟩ := List.mem_map.mp member
    exact ih a inside

theorem negatedLiteral?_plain (plain : e.IsPlain d) : negatedLiteral? e = .ok none := by
  cases plain <;> rfl

theorem surfaces_shown (args : List Node) (each : ∀ a ∈ args, a.surface = .ok (.expr a.shown)) :
    scalars' args = .ok (args.map shown) := by
  induction args with
  | nil => rfl
  | cons a args ih =>
    simp only [scalars',each a (by simp),ih fun b member => each b (by simp [member])]
    rfl

theorem call_surface (f : String) (args : List Node) (each : ∀ a ∈ args, a.surface = .ok (.expr a.shown)) :
    (call f args).surface = .ok (.expr (call f args).shown) := by
  rw [shown_call]
  exact surface_call _ (surfaces_shown args each)

theorem ofArguments_shown (args : List Node) (each : ∀ a ∈ args, ofExpr a.shown = .ok a) :
    ofArguments (args.map shown) = .ok args := by
  rw [ofArguments_ok,List.forall₂_map_left_iff,List.forall₂_same]
  exact each

-- A plain tree is shown as an expression that builds it.
theorem surface_shown (plain : IsPlain d n) : n.surface = .ok (.expr n.shown) := by
  induction plain with
  | name name => rfl
  | binary op known _ _ ihl ihr => exact call_surface _ _ (by simp [ihl,ihr])
  | isNull _ ih | isNotNull _ ih | not _ ih | negate _ ih => exact call_surface _ _ (by simp [ih])
  | ordinary f args name plain each ih => exact call_surface f args ih

theorem ofExpr_shown (plain : IsPlain d n) : ofExpr n.shown = .ok n := by
  induction plain with
  | name name => rfl
  | binary op known _ _ ihl ihr =>
    rw [shown_call]
    simp only [List.map_cons,List.map_nil,applied_operator known,ofExpr,known,ofExpr_operand,ihl,ihr]
    rfl
  | isNull _ ih | isNotNull _ ih | not _ ih =>
    simp only [shown_call,List.map_cons,List.map_nil,applied_isNull,applied_isNotNull,applied_not,ofExpr,ofExpr_operand,ih]
    rfl
  | negate inner ih =>
    have sign := negatedLiteral?_plain (negatedOperand_isPlain (shown_isPlain inner))
    simp only [shown_call,List.map_cons,List.map_nil,applied_negate,ofExpr,sign,Reading.ok_bind,ofExpr_negatedOperand,ih]
    rfl
  | ordinary f args name plain each ih =>
    rw [shown_call,plain _ (by simp)]
    exact ofExpr_plainCall (ofArguments_shown args ih)

-- The call of a function with one argument.
def isUnary (name : String) : Node → Bool
  | function f (.list [_]) => f = name
  | _ => false

def isTest (n : Node) : Bool := n.isUnary "isNull" || n.isUnary "isNotNull"

-- Whether the operator of a call leaves its operands as they are: what stands in front of IS NULL is no negation, what a
-- minus sign stands in front of is no IS NULL, and an operator that binds tighter than NOT has neither a negation on its
-- left nor IS NULL on its right.
def keepsArguments (name : String) (args : List Node) : Bool :=
  match args with
  | [a] =>
    if name = "isNull" || name = "isNotNull" then !a.isUnary "not"
    else if name = "negate" then !a.isTest
    else true
  | [a,b] =>
    match operatorOf? name with
    | some op => op.level < BindingLevel.negation || !(a.isUnary "not" || b.isTest)
    | none => true
  | _ => true

mutual
def keepsOperands : Node → Bool
  | function name (.list args) => keepsArguments name args && keepOperands args
  | _ => true
def keepOperands : List Node → Bool
  | [] => true
  | n :: ns => n.keepsOperands && keepOperands ns
end

theorem keepOperands_all (ns : List Node) : keepOperands ns = true ↔ ∀ n ∈ ns, n.keepsOperands = true := by
  induction ns with
  | nil => simp [keepOperands]
  | cons n ns ih => simp [keepOperands,ih]

theorem keepsOperands_call (name : String) (args : List Node) :
    (call name args).keepsOperands = true ↔ keepsArguments name args = true ∧ ∀ a ∈ args, a.keepsOperands = true := by
  simp [call,keepsOperands,keepOperands_all]

theorem isUnary_call (f name : String) (a : Node) : (call f [a]).isUnary name = decide (f = name) := rfl
theorem isUnary_several (f name : String) (a b : Node) (rest : List Node) :
    (call f (a :: b :: rest)).isUnary name = false := rfl

-- No operator stands for an ordinary call.
theorem ordinary_unary (args : List Node)
    (ordinary : ∀ es, es.length = args.length → applied f es = .call { name := .ofIdents [⟨f,none⟩] } es)
    (special : s ∈ ["isNull","isNotNull","not","negate"]) : (call f args).isUnary s = false := by
  match args, ordinary with
  | [], _ => rfl
  | _ :: _ :: _, _ => rfl
  | [a], ordinary =>
    have one := ordinary [.tuple []] rfl
    rw [isUnary_call,decide_eq_false_iff_not]
    rintro rfl
    simp only [List.mem_cons,List.not_mem_nil,or_false] at special
    rcases special with rfl | rfl | rfl | rfl <;> simp [applied] at one

theorem negatedOperand_tail (e : Expr) : (negatedOperand e).tail = BindingLevel.path := by
  cases e with
  | literal l =>
    unfold negatedOperand
    split
    · rfl
    · split <;> rfl
    · rfl
  | _ => rfl

-- What may stand behind an operand.
theorem operand_tail (plain : IsPlain d n) :
    (n.isUnary "not" = true → (operand n.shown).tail = BindingLevel.negation) ∧
    (n.isUnary "not" = false → BindingLevel.product ≤ (operand n.shown).tail) := by
  have high : BindingLevel.product ≤ BindingLevel.path := by decide
  induction plain with
  | name => exact ⟨by simp [ident,isUnary],fun _ => high⟩
  | binary op known _ _ _ _ =>
    rw [shown_call]
    simp only [List.map_cons,List.map_nil,applied_operator known]
    exact ⟨by simp [isUnary_several],fun _ => high⟩
  | isNull | isNotNull => exact ⟨by simp [isUnary_call],fun _ => high⟩
  | @not a _ ih =>
    have tail : (operand (call "not" [a]).shown).tail = min BindingLevel.negation (operand a.shown).tail := rfl
    refine ⟨fun _ => ?_,by simp [isUnary_call]⟩
    rw [tail]
    cases inner : a.isUnary "not"
    · exact Nat.min_eq_left (Nat.le_trans (by decide) (ih.2 inner))
    · rw [ih.1 inner]
      rfl
  | @negate a _ _ =>
    have tail : (operand (call "negate" [a]).shown).tail = min BindingLevel.product (negatedOperand a.shown).tail := rfl
    refine ⟨by simp [isUnary_call],fun _ => ?_⟩
    rw [tail,negatedOperand_tail]
    decide
  | ordinary f args _ ordinary _ _ =>
    rw [ordinary_unary args ordinary (by simp),shown_call,ordinary _ (by simp)]
    exact ⟨by simp,fun _ => high⟩

-- An operand behind an operator is bound wherever IS NULL at its end is.
theorem operand_bound (plain : IsPlain d n) (level : Nat) : (operand n.shown).Bound d level ↔
    n.shown.Bound d 0 ∧ (n.isTest = true → level < BindingLevel.test) := by
  induction plain generalizing level with
  | name name => exact ⟨fun _ => ⟨.ident name,by simp [isTest,ident,isUnary]⟩,fun _ => .ident name⟩
  | binary op known _ _ _ _ =>
    rw [shown_call]
    simp only [List.map_cons,List.map_nil,applied_operator known,isTest,isUnary_several]
    constructor
    · rintro ⟨⟩
      exact ⟨‹_›,by simp⟩
    · exact fun both => .nested both.1
  | @isNull a _ ih =>
    have test : (call "isNull" [a]).isTest = true := by simp [isTest,isUnary_call]
    constructor
    · rintro (_ | _ | _ | _ | _ | ⟨above,inner,tail⟩)
      exact ⟨.isNull (by decide) (Expr.bound_mono inner (Nat.zero_le _)) tail,fun _ => above⟩
    · rintro ⟨(_ | _ | _ | _ | _ | ⟨_,inner,tail⟩),above⟩
      have small := above test
      exact .isNull small ((ih level).mpr ⟨((ih 0).mp inner).1,fun _ => small⟩) tail
  | @isNotNull a _ ih =>
    have test : (call "isNotNull" [a]).isTest = true := by simp [isTest,isUnary_call]
    constructor
    · rintro (_ | _ | _ | _ | _ | _ | ⟨above,inner,tail⟩)
      exact ⟨.isNotNull (by decide) (Expr.bound_mono inner (Nat.zero_le _)) tail,fun _ => above⟩
    · rintro ⟨(_ | _ | _ | _ | _ | _ | ⟨_,inner,tail⟩),above⟩
      have small := above test
      exact .isNotNull small ((ih level).mpr ⟨((ih 0).mp inner).1,fun _ => small⟩) tail
  | @not a _ _ =>
    have test : (call "not" [a]).isTest = false := by simp [isTest,isUnary_call]
    rw [test]
    constructor
    · rintro (_ | _ | inner)
      exact ⟨.not inner,by simp⟩
    · rintro ⟨(_ | _ | inner),_⟩
      exact .not inner
  | @negate a _ _ =>
    have test : (call "negate" [a]).isTest = false := by simp [isTest,isUnary_call]
    rw [test]
    constructor
    · rintro (_ | _ | _ | inner)
      exact ⟨.minus inner,by simp⟩
    · rintro ⟨(_ | _ | _ | inner),_⟩
      exact .minus inner
  | ordinary f args _ ordinary _ _ =>
    have test : (call f args).isTest = false := by
      simp [isTest,ordinary_unary args ordinary (s := "isNull") (by simp),
        ordinary_unary args ordinary (s := "isNotNull") (by simp)]
    rw [test,shown_call,ordinary _ (by simp)]
    constructor
    · rintro ⟨⟩
      exact ⟨.call _ _ ‹_› ‹_›,by simp⟩
    · rintro ⟨⟨⟩,_⟩
      exact .call _ _ ‹_› ‹_›

-- Behind a minus sign no IS NULL is bound.
theorem negatedOperand_bound (plain : IsPlain d n) : (negatedOperand n.shown).Bound d BindingLevel.product ↔
    n.shown.Bound d 0 ∧ n.isTest = false := by
  have nested {e : Expr} : (Expr.nested e).Bound d BindingLevel.product ↔ e.Bound d 0 :=
    ⟨by rintro ⟨⟩; assumption,.nested⟩
  have asIs (same : negatedOperand n.shown = operand n.shown) : (negatedOperand n.shown).Bound d BindingLevel.product ↔
      n.shown.Bound d 0 ∧ n.isTest = false := by
    have high : ¬BindingLevel.product < BindingLevel.test := by decide
    rw [same,operand_bound plain]
    simp only [high,imp_false,Bool.not_eq_true]
  cases plain with
  | name => exact asIs rfl
  | binary op known =>
    refine asIs ?_
    rw [shown_call]
    simp only [List.map_cons,List.map_nil,applied_operator known]
    rfl
  | isNull | isNotNull => exact asIs rfl
  | @not a =>
    have test : (call "not" [a]).isTest = false := by simp [isTest,isUnary_call]
    simp only [test,and_true]
    exact nested
  | @negate a =>
    have test : (call "negate" [a]).isTest = false := by simp [isTest,isUnary_call]
    simp only [test,and_true]
    exact nested
  | ordinary f args _ ordinary =>
    refine asIs ?_
    rw [shown_call,ordinary _ (by simp)]
    rfl

-- An operator binds looser than NOT, or tighter than IS NULL.
theorem level_ranges (op : BinaryOp) (known : op.isPlain = true) :
    0 < op.level ∧ op.level ≤ BindingLevel.product ∧ (op.level < BindingLevel.negation ∨ BindingLevel.test < op.level) := by
  cases op <;> first | decide | cases known

-- In front of IS NULL stands no negation.
theorem operand_tested (plain : IsPlain d n) :
    BindingLevel.test ≤ (operand n.shown).tail ↔ n.isUnary "not" = false := by
  have tail := operand_tail plain
  cases negation : n.isUnary "not"
  · exact ⟨fun _ => rfl,fun _ => Nat.le_trans (by decide) (tail.2 negation)⟩
  · rw [tail.1 negation]
    decide

theorem ordinary_keeps (args : List Node)
    (ordinary : ∀ es, es.length = args.length → applied f es = .call { name := .ofIdents [⟨f,none⟩] } es) :
    keepsArguments f args = true := by
  match args, ordinary with
  | [], _ => rfl
  | _ :: _ :: _ :: _, _ => rfl
  | [a], ordinary =>
    have other (s : String) (special : s ∈ ["isNull","isNotNull","not","negate"]) : f ≠ s := by
      have one := ordinary_unary [a] ordinary special
      rwa [isUnary_call,decide_eq_false_iff_not] at one
    simp [keepsArguments,other "isNull" (by simp),other "isNotNull" (by simp),other "negate" (by simp)]
  | [a,b], ordinary =>
    cases operator : operatorOf? f with
    | none => simp [keepsArguments,operator]
    | some op =>
      have two := ordinary [.tuple [],.tuple []] rfl
      simp [applied,operator] at two

-- Operands of an operator that binds tighter than NOT: no negation on its left, and no IS NULL on its right.
theorem binary_bound (left : IsPlain d a) (right : IsPlain d b) (op : BinaryOp) (known : op.isPlain = true) :
    (Expr.binary (operand a.shown) op (operand b.shown)).Bound d 0 ↔
      (op.level < BindingLevel.negation ∨ (a.isUnary "not" = false ∧ b.isTest = false)) ∧
        a.shown.Bound d 0 ∧ b.shown.Bound d 0 := by
  have levels := level_ranges op known
  have tail := operand_tail left
  constructor
  · rintro (_ | ⟨_,_,above,first,ends,second⟩)
    have first := ((operand_bound left 0).mp first).1
    obtain ⟨second,small⟩ := (operand_bound right op.level).mp second
    refine ⟨?_,first,second⟩
    rcases levels.2.2 with low | tight
    · exact .inl low
    · refine .inr ⟨?_,?_⟩
      · rw [Bool.eq_false_iff]
        intro negation
        rw [tail.1 negation] at ends
        simp only [BindingLevel.negation,BindingLevel.test] at ends tight
        omega
      · rw [Bool.eq_false_iff]
        intro test
        exact absurd (small test) (Nat.not_lt_of_gt tight)
  · rintro ⟨apart,first,second⟩
    have ends : op.level ≤ (operand a.shown).tail := by
      cases negation : a.isUnary "not"
      · exact Nat.le_trans levels.2.1 (tail.2 negation)
      · rw [tail.1 negation]
        rcases apart with low | ⟨none,_⟩
        · exact Nat.le_of_lt low
        · simp [negation] at none
    have small (test : b.isTest = true) : op.level < BindingLevel.test := by
      rcases apart with low | ⟨_,none⟩
      · exact Nat.lt_trans low (by decide)
      · simp [test] at none
    exact .binary op known levels.1 ((operand_bound left 0).mpr ⟨first,fun _ => by decide⟩) ends
      ((operand_bound right op.level).mpr ⟨second,small⟩)

-- The expression that shows a tree is bound exactly if the operators of the tree leave their operands as they are.
theorem shown_bound (plain : IsPlain d n) : n.shown.Bound d 0 ↔ n.keepsOperands = true := by
  induction plain with
  | name name => exact ⟨fun _ => rfl,fun _ => .ident name⟩
  | @binary f a b op known left right ihl ihr =>
    have kept : keepsArguments f [a,b] = true ↔
        op.level < BindingLevel.negation ∨ (a.isUnary "not" = false ∧ b.isTest = false) := by
      simp [keepsArguments,(operatorOf?_found known).1]
    rw [keepsOperands_call,kept,shown_call]
    simp only [List.map_cons,List.map_nil,applied_operator known,List.mem_cons,List.not_mem_nil,or_false,forall_eq_or_imp,
      forall_eq,← ihl,← ihr]
    exact binary_bound left right op (operatorOf?_found known).2
  | @isNull a inner ih =>
    have kept : keepsArguments "isNull" [a] = !a.isUnary "not" := rfl
    rw [keepsOperands_call,kept,Bool.not_eq_true',← operand_tested inner]
    simp only [List.mem_singleton,forall_eq,← ih]
    constructor
    · rintro (_ | _ | _ | _ | _ | ⟨_,bound,tail⟩)
      exact ⟨tail,((operand_bound inner 0).mp bound).1⟩
    · exact fun both => .isNull (by decide) ((operand_bound inner 0).mpr ⟨both.2,fun _ => by decide⟩) both.1
  | @isNotNull a inner ih =>
    have kept : keepsArguments "isNotNull" [a] = !a.isUnary "not" := rfl
    rw [keepsOperands_call,kept,Bool.not_eq_true',← operand_tested inner]
    simp only [List.mem_singleton,forall_eq,← ih]
    constructor
    · rintro (_ | _ | _ | _ | _ | _ | ⟨_,bound,tail⟩)
      exact ⟨tail,((operand_bound inner 0).mp bound).1⟩
    · exact fun both => .isNotNull (by decide) ((operand_bound inner 0).mpr ⟨both.2,fun _ => by decide⟩) both.1
  | @not a inner ih =>
    have kept : keepsArguments "not" [a] = true := rfl
    rw [keepsOperands_call,kept]
    simp only [List.mem_singleton,forall_eq,true_and,← ih]
    constructor
    · rintro (_ | _ | bound)
      exact ((operand_bound inner _).mp bound).1
    · exact fun bound => .not ((operand_bound inner _).mpr ⟨bound,fun _ => by decide⟩)
  | @negate a inner ih =>
    have kept : keepsArguments "negate" [a] = !a.isTest := rfl
    rw [keepsOperands_call,kept,Bool.not_eq_true']
    simp only [List.mem_singleton,forall_eq,← ih]
    constructor
    · rintro (_ | _ | _ | bound)
      exact ((negatedOperand_bound inner).mp bound).symm
    · exact fun both => .minus ((negatedOperand_bound inner).mpr both.symm)
  | ordinary f args name ordinary plain ih =>
    rw [keepsOperands_call,ordinary_keeps args ordinary,shown_call,ordinary _ (by simp)]
    simp only [true_and]
    constructor
    · rintro ⟨⟩
      rename_i _ each
      exact fun a member => (ih a member).mp (each _ (List.mem_map_of_mem member))
    · intro each
      refine .call f _ name fun e member => ?_
      obtain ⟨a,inside,rfl⟩ := List.mem_map.mp member
      exact (ih a inside).mpr (each a inside)

-- Two minus signs in a row are nowhere written.

theorem opensComment_join (left : Piece.opensComment ps = false) (right : Piece.opensComment qs = false)
    (apart : qs.head? ≠ some (.symbol .minus)) : Piece.opensComment (ps ++ qs) = false := by
  induction ps with
  | nil => exact right
  | cons p ps ih =>
    simp only [Piece.opensComment,Bool.or_eq_false_iff] at left
    have later := ih left.2
    cases ps with
    | nil => simp [Piece.opensComment,apart,right]
    | cons q ps => exact Bool.or_eq_false_iff.mpr ⟨left.1,later⟩

theorem nested_free (free : Piece.opensComment e.pieces = false) : Piece.opensComment (Expr.nested e).pieces = false := by
  have closed : Piece.opensComment (e.pieces ++ [.symbol .rparen]) = false := opensComment_join free rfl (by simp)
  simpa [Expr.pieces,Piece.opensComment] using closed

theorem operand_free (free : Piece.opensComment e.pieces = false) : Piece.opensComment (operand e).pieces = false := by
  cases e with
  | binary l op r => exact nested_free free
  | _ => exact free

theorem negatedOperand_free (free : Piece.opensComment e.pieces = false) :
    Piece.opensComment (negatedOperand e).pieces = false := by
  unfold negatedOperand
  split
  · exact nested_free free
  · split
    · exact nested_free free
    · exact free
  · exact operand_free free

theorem negatedOperand_head (plain : IsPlain d n) (untested : n.isTest = false) :
    (negatedOperand n.shown).pieces.head? ≠ some (.symbol .minus) := by
  cases plain with
  | name => simp [ident,shown,identExpr,negatedOperand,operand,Expr.pieces]
  | binary op known =>
    rw [shown_call]
    simp [applied_operator known,negatedOperand,operand,Expr.pieces]
  | isNull | isNotNull => simp [isTest,isUnary_call] at untested
  | not | negate => simp [shown_call,applied_not,applied_negate,negatedOperand,Expr.pieces]
  | ordinary f args _ ordinary =>
    rw [shown_call,ordinary _ (by simp)]
    simp [negatedOperand,operand,Expr.pieces]

theorem piecesList_free (es : List Expr) (each : ∀ e ∈ es, Piece.opensComment e.pieces = false) :
    Piece.opensComment (Expr.piecesList es) = false := by
  induction es with
  | nil => rfl
  | cons e es ih =>
    have first := each e (by simp)
    have later := ih fun b member => each b (by simp [member])
    cases es with
    | nil => exact first
    | cons b es =>
      rw [Expr.piecesList_cons e (b :: es) (by simp)]
      exact opensComment_join first (by simpa [Piece.opensComment] using later) (by simp)

theorem shown_free (plain : IsPlain d n) (keeps : n.keepsOperands = true) :
    Piece.opensComment n.shown.pieces = false := by
  induction plain with
  | name => rfl
  | @binary f a b op known left right ihl ihr =>
    obtain ⟨_,each⟩ := (keepsOperands_call f _).mp keeps
    have first := operand_free (ihl (each a (by simp)))
    have second := operand_free (ihr (each b (by simp)))
    rw [shown_call]
    simp only [List.map_cons,List.map_nil,applied_operator known,Expr.pieces]
    exact opensComment_join first (by simpa [Piece.opensComment] using second) (by simp)
  | @isNull a _ ih | @isNotNull a _ ih =>
    obtain ⟨_,each⟩ := (keepsOperands_call _ _).mp keeps
    have inner := operand_free (ih (each a (by simp)))
    simp only [shown_call,List.map_cons,List.map_nil,applied_isNull,applied_isNotNull,Expr.pieces]
    exact opensComment_join inner rfl (by simp)
  | @not a _ ih =>
    obtain ⟨_,each⟩ := (keepsOperands_call _ _).mp keeps
    have inner := operand_free (ih (each a (by simp)))
    simpa [shown_call,applied_not,Expr.pieces,Piece.opensComment] using inner
  | @negate a plain ih =>
    obtain ⟨kept,each⟩ := (keepsOperands_call _ _).mp keeps
    have inner := negatedOperand_free (ih (each a (by simp)))
    have head := negatedOperand_head plain (by simpa [keepsArguments] using kept)
    simp only [shown_call,List.map_cons,List.map_nil,applied_negate,Expr.pieces,Piece.opensComment,inner,head,decide_false,
      Bool.and_false,Bool.or_false]
  | ordinary f args _ ordinary _ ih =>
    obtain ⟨_,each⟩ := (keepsOperands_call f args).mp keeps
    have list : Piece.opensComment (Expr.piecesList (args.map shown)) = false := by
      refine piecesList_free _ fun e member => ?_
      obtain ⟨a,inside,rfl⟩ := List.mem_map.mp member
      exact ih a inside (each a inside)
    have closed : Piece.opensComment (Expr.piecesList (args.map shown) ++ [.symbol .rparen]) = false :=
      opensComment_join list rfl (by simp)
    rw [shown_call,ordinary _ (by simp)]
    simpa [Expr.pieces,Piece.opensComment] using closed

end Node

end JoinTree
