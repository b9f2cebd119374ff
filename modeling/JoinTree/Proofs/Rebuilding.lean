import JoinTree.Proofs.WellFormed

/-!
Building a tree again from its own joins. Main statement: the clauses that a built tree shows build it again, but for
the numerals that take up the minus sign in front of them. Building it twice more changes something exactly if zero
stands behind two minus signs.
-/

namespace JoinTree

open Sql

namespace Node

-- All nodes of a tree, the tree itself first.
mutual
def nodes : Node → List Node
  | identifier parts => [identifier parts]
  | constant v => [constant v]
  | column name source e => column name source e :: nodesOption e
  | function name args => function name args :: args.nodes
  | list ns => list ns :: nodesList ns
  | table name asName => [table name asName]
  | join spec l r e => join spec l r e :: (l.nodes ++ r.nodes ++ nodesOption e)
  | runtimeFilter id c => runtimeFilter id c :: c.nodes
def nodesList : List Node → List Node
  | [] => []
  | n :: ns => n.nodes ++ nodesList ns
def nodesOption : Option Node → List Node
  | none => []
  | some n => n.nodes
end

-- Every join built again from its sides and from the clause that it shows.
def rebuilt : Node → Noted AnalysisError Node
  | join spec l r e => do joined (← l.rebuilt) (← r.rebuilt) (← clauseOf spec e)
  | n => pure n

def hasMinus (c : Constant) : Bool := c.text.toList.head? = some '-'

-- The constant that a call stands for when it is read back: a minus sign in front of a numeral without one.
def folded? (name : String) : List Node → Option Constant
  | [constant c] => if name = "negate" && !hasMinus c then c.negated? else none
  | _ => none

mutual
def foldSigns : Node → Node
  | function name args =>
    match folded? name (argumentsOf args) with
    | some c => constant c
    | none => function name args.foldSigns
  | list ns => list (foldSignsList ns)
  | join spec l r e => join spec l.foldSigns r.foldSigns (foldSignsOption e)
  | identifier parts => identifier parts
  | constant v => constant v
  | column name source e => column name source e
  | table name asName => table name asName
  | runtimeFilter id c => runtimeFilter id c
def foldSignsList : List Node → List Node
  | [] => []
  | n :: ns => n.foldSigns :: foldSignsList ns
def foldSignsOption : Option Node → Option Node
  | none => none
  | some n => some n.foldSigns
end

-- The one call that folds to a call that folds again.
def doublyNegatedZero : Node := call "negate" [call "negate" [constant (.int 0)]]

-- The floats of a tree have a text that reads back as them.
structure FloatsRead (n : Node) : Prop where
  finite : ∀ bits, constant (.float bits) ∈ n.nodes → Binary64.isFinite bits = true
  read : ∀ bits, constant (.float bits) ∈ n.nodes → Constant.ReadsBack bits

theorem mem_nodesList : m ∈ nodesList ns ↔ ∃ n ∈ ns, m ∈ n.nodes := by
  induction ns with
  | nil => simp [nodesList]
  | cons n ns ih => simp [nodesList,ih]

theorem floatsRead_of_nodes {n a : Node} (floats : n.FloatsRead) (part : ∀ m ∈ a.nodes, m ∈ n.nodes) : a.FloatsRead :=
  ⟨fun bits member => floats.finite bits (part _ member),fun bits member => floats.read bits (part _ member)⟩

theorem floatsRead_argument (floats : (call name args).FloatsRead) (member : a ∈ args) : a.FloatsRead :=
  floatsRead_of_nodes floats fun m inside => by
    simpa [call,nodes] using .inr (.inr (mem_nodesList.mpr ⟨a,member,inside⟩))

theorem floatsRead_join (floats : (join s l r e).FloatsRead) :
    l.FloatsRead ∧ r.FloatsRead ∧ ∀ n, e = some n → n.FloatsRead := by
  refine ⟨?_,?_,?_⟩
  · exact floatsRead_of_nodes floats fun m inside => by simp [nodes,inside]
  · exact floatsRead_of_nodes floats fun m inside => by simp [nodes,inside]
  · rintro n rfl
    exact floatsRead_of_nodes floats fun m inside => by simp [nodes,nodesOption,inside]

theorem operatorOf?_exact (found : operatorOf? name = some op) : functionOf? op = some name := by
  unfold operatorOf? at found
  obtain ⟨entry,hf,rfl⟩ := Option.map_eq_some_iff.mp found
  obtain rfl : entry.2 = name := by simpa using List.find?_some hf
  have table : ∀ entry ∈ operatorFunctions, functionOf? entry.1 = some entry.2 := by decide
  exact table entry (List.mem_of_find?_eq_some hf)

theorem ofExpr_operand (e : Expr) : ofExpr (operand e) = ofExpr e := by
  cases e <;> rfl

theorem ofExpr_negatedOperand (e : Expr) : ofExpr (negatedOperand e) = ofExpr e := by
  unfold negatedOperand
  split
  · rfl
  · split <;> rfl
  · exact ofExpr_operand _

-- No numeral comes to stand behind a minus sign that did not before.
theorem negatedLiteral?_negatedOperand (other : ∀ l, e ≠ .literal l) : negatedLiteral? (negatedOperand e) = .ok none := by
  cases e <;> first | rfl | exact absurd rfl (other _)

theorem ofExpr_identExpr (parts : List String) : ofExpr (identExpr parts) = .ok (identifier parts) := by
  unfold identExpr
  split
  · rfl
  · simp [ofExpr,Function.comp_def]

theorem ofExpr_plainCall (built : ofArguments es = .ok ns) :
    ofExpr (.call { name := .ofIdents [⟨name,none⟩] } es) = .ok (call name ns) := by
  have written : (ObjectName.ofIdents [⟨name,none⟩]).text = name := by
    simp [ObjectName.ofIdents,ObjectName.text,NamePart.text,Ident.text]
  have free : callObstacle? { name := .ofIdents [⟨name,none⟩] } es = none := rfl
  simp only [ofExpr,free,built,written]
  rfl

-- An expression that a scalar tree shows, and that builds the folded tree. Only a constant shows a literal.
structure Shows (n : Node) (e : Expr) : Prop where
  shown : n.surface = .ok (.expr e)
  built : ofExpr e = .ok n.foldSigns
  literal : ∀ l, e = .literal l → ∃ c, n = constant c ∧ l = c.literal ∧ Constant.ofLiteral? l = some c

theorem arguments_shown (args : List Node) (shows : ∀ a ∈ args, ∃ e, Shows a e) :
    ∃ es, scalars' args = .ok es ∧ ofArguments es = .ok (foldSignsList args) ∧ es.length = args.length := by
  induction args with
  | nil => exact ⟨[],rfl,rfl,rfl⟩
  | cons a args ih =>
    obtain ⟨e,first⟩ := shows a (by simp)
    obtain ⟨es,shown,built,length⟩ := ih fun b member => shows b (by simp [member])
    refine ⟨e :: es,?_,?_,by simp [length]⟩
    · simp only [scalars',first.shown,shown]
      rfl
    · exact ofArguments_cons.mpr ⟨_,_,first.built,built,rfl⟩

theorem negatedLiteral?_literal (c : Constant) (read : Constant.ofLiteral? c.literal = some c) :
    negatedLiteral? (negatedOperand (.literal c.literal)) = .ok (if hasMinus c then none else c.negated?) := by
  have known : Constant.ofLiteral c.literal = .ok c := by simp [Constant.ofLiteral,read]
  cases c <;> simp only [Constant.literal,negatedOperand,operand,hasMinus,Constant.text] at known ⊢
  case int | uint | float =>
    split
    · rename_i minus
      simp only [minus,decide_true,if_true]
      rfl
    · rename_i minus
      simp only [negatedLiteral?,known,minus,decide_false]
      rfl
  all_goals
    simp only [negatedLiteral?,known]
    exact congrArg Except.ok (ite_self none).symm

theorem foldSigns_call (kept : folded? name args = none) : (call name args).foldSigns = call name (foldSignsList args) := by
  simp only [call,foldSigns,argumentsOf,kept]

theorem surface_call (es : List Expr) (shown : scalars' args = .ok es) : (call name args).surface = .ok (.expr (applied name es)) := by
  simp only [call,surface,shown]
  rfl

-- A call that is shown as one.
theorem call_shown (args : List Node) (shows : ∀ a ∈ args, ∃ e, Shows a e) (kept : folded? name args = none)
    (plain : ∀ es, es.length = args.length → applied name es = .call { name := .ofIdents [⟨name,none⟩] } es) :
    ∃ e, Shows (call name args) e := by
  obtain ⟨es,shown,built,length⟩ := arguments_shown args shows
  refine ⟨applied name es,surface_call _ shown,?_,?_⟩
  · rw [plain es length,foldSigns_call kept]
    exact ofExpr_plainCall built
  · intro l
    simp [plain es length]

theorem constant_literal (shown : (constant c).surface = .ok (.expr e)) : e = .literal c.literal := by
  cases c
  case float bits =>
    simp only [surface] at shown
    split at shown <;> cases shown
    rfl
  all_goals cases shown; rfl

-- A minus sign in front of an argument is taken up as the folded tree has it.
theorem negatedLiteral?_shown (shows : Shows a e) :
    negatedLiteral? (negatedOperand e) = .ok (folded? "negate" [a]) := by
  by_cases numeral : ∃ l, e = .literal l
  · obtain ⟨l,rfl⟩ := numeral
    obtain ⟨c,rfl,rfl,read⟩ := shows.literal l rfl
    rw [negatedLiteral?_literal c read]
    cases minus : hasMinus c <;> simp [folded?,minus]
  · have other : ∀ l, e ≠ .literal l := fun l same => numeral ⟨l,same⟩
    rw [negatedLiteral?_negatedOperand other]
    cases a
    case constant c => exact absurd (constant_literal shows.shown) (other _)
    all_goals rfl

theorem negate_shown (shows : Shows a e) : Shows (call "negate" [a]) (.unary .minus (negatedOperand e)) := by
  refine ⟨?_,?_,by simp⟩
  · exact surface_call [e] (by simp only [scalars',shows.shown]; rfl)
  · have inner : ofExpr (negatedOperand e) = .ok a.foldSigns := by rw [ofExpr_negatedOperand,shows.built]
    simp only [ofExpr,negatedLiteral?_shown shows,inner,call,foldSigns,argumentsOf]
    cases folded? "negate" [a] <;> rfl

theorem applied_isNull : applied "isNull" [e] = .isNull (operand e) := rfl
theorem applied_isNotNull : applied "isNotNull" [e] = .isNotNull (operand e) := rfl
theorem applied_not : applied "not" [e] = .unary .not (operand e) := rfl

-- One argument.
theorem unary_shown (shows : Shows a e) : ∃ e, Shows (call name [a]) e := by
  have inner : ofExpr (operand e) = .ok a.foldSigns := by rw [ofExpr_operand,shows.built]
  have shown : scalars' [a] = .ok [e] := by
    simp only [scalars',shows.shown]
    rfl
  by_cases negate : name = "negate"
  · subst negate
    exact ⟨_,negate_shown shows⟩
  have kept : folded? name [a] = none := by
    cases a <;> simp [folded?,negate]
  by_cases special : name = "isNull" ∨ name = "isNotNull" ∨ name = "not"
  · refine ⟨applied name [e],surface_call _ shown,?_,?_⟩
    · rw [foldSigns_call kept]
      rcases special with rfl | rfl | rfl
      all_goals
        simp only [applied_isNull,applied_isNotNull,applied_not,ofExpr,inner]
        rfl
    · rcases special with rfl | rfl | rfl <;> simp [applied]
  · simp only [not_or] at special
    refine call_shown [a] (by simpa using ⟨e,shows⟩) kept ?_
    intro es one
    obtain ⟨e,rfl⟩ := List.length_eq_one_iff.mp one
    simp [applied,negate,special]

theorem folded?_several : folded? name (a :: b :: rest) = none := by
  cases a <;> rfl

-- Two arguments.
theorem binary_shown (left : Shows a l) (right : Shows b r) : ∃ e, Shows (call name [a,b]) e := by
  have kept : folded? name [a,b] = none := folded?_several
  cases operator : operatorOf? name with
  | none =>
    refine call_shown [a,b] (by simpa using ⟨⟨l,left⟩,⟨r,right⟩⟩) kept ?_
    intro es two
    match es, two with
    | [_,_], _ => simp [applied,operator]
  | some op =>
    refine ⟨.binary (operand l) op (operand r),?_,?_,by simp⟩
    · rw [surface_call [l,r] (by simp only [scalars',left.shown,right.shown]; rfl)]
      simp [applied,operator]
    · rw [foldSigns_call kept]
      simp only [ofExpr,operatorOf?_exact operator,ofExpr_operand,left.built,right.built]
      rfl

theorem constant_reads (normal : c.IsNormal) (floats : (constant c).FloatsRead) :
    Constant.ofLiteral? c.literal = some c := by
  cases c with
  | int n => exact Constant.ofNumeral?_int n
  | uint n =>
    have large : ¬ n.toNat < 1 <<< 63 := Nat.not_lt.mpr normal
    have read := Constant.ofNumeral?_uint n
    rwa [if_neg large] at read
  | float bits => exact floats.read bits (by simp [nodes])
  | null | bool | string => rfl

-- Every scalar tree shows an expression that builds it again, but for the signs.
theorem scalar_shown (scalar : IsScalar n) (floats : n.FloatsRead) : ∃ e, Shows n e := by
  induction scalar with
  | identifier parts =>
    refine ⟨identExpr parts,rfl,ofExpr_identExpr parts,?_⟩
    unfold identExpr
    split <;> simp
  | constant c normal =>
    have read := constant_reads normal floats
    refine ⟨.literal c.literal,?_,?_,?_⟩
    · cases c
      case float bits => simp [surface,floats.finite bits (by simp [nodes])]
      all_goals rfl
    · simp only [ofExpr,Constant.ofLiteral,read]
      rfl
    · intro l same
      cases same
      exact ⟨c,rfl,rfl,read⟩
  | call name args scalars ih =>
    have shows : ∀ a ∈ args, ∃ e, Shows a e := fun a member => ih a member (floatsRead_argument floats member)
    match args with
    | [] => exact call_shown [] shows rfl (by simp [applied])
    | [a] =>
      obtain ⟨e,first⟩ := shows a (by simp)
      exact unary_shown first
    | [a,b] =>
      obtain ⟨l,left⟩ := shows a (by simp)
      obtain ⟨r,right⟩ := shows b (by simp)
      exact binary_shown left right
    | a :: b :: c :: rest =>
      refine call_shown _ shows folded?_several ?_
      intro es many
      match es, many with
      | _ :: _ :: _ :: _, _ => rfl

-- Joins.

theorem usingNames (names : List String) : (names.map ident).mapM usingName = .ok (names.map (⟨·,none⟩)) := by
  induction names with
  | nil => rfl
  | cons name names ih =>
    simp only [List.map_cons,List.mapM_cons,ih]
    rfl

-- A clause has no defect if it has one constraint where the kind asks for one.
theorem defect?_none (c : JoinClause) (fits : c.spec.Fits e) (given : c.hasConstraint = !c.kind.isUnconditional)
    (single : (c.condition.isSome && c.columns.isSome) = false) (filled : c.columns.any List.isEmpty = false) :
    c.defect? = none := by
  have filtering : c.strictness.isFiltering = true → c.kind = .left ∨ c.kind = .right := fits.filtering
  have asof : c.strictness = .asof → c.kind = .inner ∨ c.kind = .left := fits.asof
  unfold JoinClause.defect?
  rw [single,filled,given,if_neg (by decide),if_neg (by decide),if_neg (by simp),if_neg,if_neg,if_neg (by simp)]
  · intro nearest
    simp only [Bool.and_eq_true,decide_eq_true_eq] at nearest
    rcases asof nearest.1.1 with inner | left
    · exact nearest.1.2 inner
    · exact nearest.2 left
  · intro semi
    simp only [Bool.and_eq_true,decide_eq_true_eq] at semi
    rcases filtering semi.1.1 with left | right
    · exact semi.1.2 left
    · exact semi.2 right

theorem joined_sound (sound : c.defect? = none) (built : constraintOf c = .ok e) :
    (joined l r c).result = .ok (.join c.spec l r e) := by
  unfold joined
  split
  · rename_i defect
    rw [sound] at defect
    cases defect
  · simp only [Noted.result_bind,Noted.result_note,Noted.result_lift,built]
    rfl

theorem foldSignsList_idents (names : List String) : foldSignsList (names.map ident) = names.map ident := by
  induction names with
  | nil => rfl
  | cons name names ih => simp [foldSignsList,foldSigns,ident,ih]

-- The clause that a join shows builds it again.
theorem joined_again (l r : Node) (spec : JoinSpec) (fits : spec.Fits e) (floats : ∀ n, e = some n → n.FloatsRead) :
    ∃ c, clauseOf spec e = .ok c ∧ (joined l r c).result = .ok (.join spec l r (foldSignsOption e)) := by
  cases kind : spec.kind.isUnconditional with
  | true =>
    obtain rfl := fits.bare kind
    refine ⟨{ locality := spec.locality, strictness := spec.strictness, kind := spec.kind },rfl,joined_sound ?_ rfl⟩
    exact defect?_none _ fits (by simp [JoinClause.hasConstraint,kind]) rfl rfl
  | false =>
    obtain ⟨n,rfl,columns | scalar⟩ := fits.constrained kind
    · obtain ⟨names,some_name,rfl⟩ := columns
      refine ⟨{ locality := spec.locality, strictness := spec.strictness, kind := spec.kind,
                columns := some (names.map (⟨·,none⟩)) },?_,joined_sound ?_ ?_⟩
      · simp only [clauseOf,usingNames]
        rfl
      · exact defect?_none _ fits (by simp [JoinClause.hasConstraint,kind]) rfl (by simpa using some_name)
      · simp [constraintOf,foldSignsOption,foldSigns,foldSignsList_idents,Function.comp_def]
    · obtain ⟨e,shows⟩ := scalar_shown scalar (floats n rfl)
      refine ⟨{ locality := spec.locality, strictness := spec.strictness, kind := spec.kind, condition := some e },?_,
        joined_sound ?_ ?_⟩
      · have opened : clauseOf spec (some n) = do
            let condition ← (← n.surface).toExpr
            return { locality := spec.locality, strictness := spec.strictness, kind := spec.kind, condition := some condition } := by
          cases scalar <;> rfl
        rw [opened,shows.shown]
        rfl
      · exact defect?_none _ fits (by simp [JoinClause.hasConstraint,kind]) rfl rfl
      · simp only [constraintOf,shows.built]
        rfl

-- Every join of a well-formed tree is built again.
theorem rebuilt_wellFormed {n : Node} (valid : n.WellFormed) (floats : n.FloatsRead) :
    n.rebuilt.result = .ok n.foldSigns := by
  induction valid with
  | table name asName => rfl
  | join s l r e left right fits ihl ihr =>
    obtain ⟨floatsLeft,floatsRight,floatsCondition⟩ := floatsRead_join floats
    obtain ⟨c,shown,again⟩ := joined_again l.foldSigns r.foldSigns s fits floatsCondition
    simp only [rebuilt,Noted.result_bind,ihl floatsLeft,ihr floatsRight]
    simpa [shown,bind,Except.bind,foldSigns] using again

-- Folding once more.

theorem folded?_exact : folded? name args = some c' ↔
    name = "negate" ∧ ∃ c, args = [constant c] ∧ hasMinus c = false ∧ c.negated? = some c' := by
  constructor
  · intro folded
    unfold folded? at folded
    split at folded
    · rename_i c
      split at folded
      · rename_i sign
        simp only [Bool.and_eq_true,decide_eq_true_eq,Bool.not_eq_true'] at sign
        exact ⟨sign.1,c,rfl,sign.2,folded⟩
      · cases folded
    · cases folded
  · rintro ⟨rfl,c,rfl,minus,opposite⟩
    simp [folded?,minus,opposite]

theorem foldSigns_folded (folded : folded? name args = some c) : (call name args).foldSigns = constant c := by
  simp only [call,foldSigns,argumentsOf,folded]

theorem foldSignsList_map (ns : List Node) : foldSignsList ns = ns.map foldSigns := by
  induction ns with
  | nil => rfl
  | cons n ns ih => simp [foldSignsList,ih]

theorem foldSigns_scalar (scalar : IsScalar n) : IsScalar n.foldSigns := by
  induction scalar with
  | identifier parts => exact .identifier parts
  | constant c normal => exact .constant c normal
  | call name args scalars ih =>
    cases folded : folded? name args with
    | none =>
      rw [foldSigns_call folded]
      refine .call _ _ ?_
      rw [foldSignsList_map]
      intro m member
      obtain ⟨a,ha,rfl⟩ := List.mem_map.mp member
      exact ih a ha
    | some c =>
      rw [foldSigns_folded folded]
      obtain ⟨_,_,_,_,opposite⟩ := folded?_exact.mp folded
      exact .constant c (Constant.negated?_normal opposite)

theorem foldSigns_fits (fits : JoinSpec.Fits s e) : s.Fits (foldSignsOption e) := by
  refine ⟨?_,?_,fits.filtering,fits.asof⟩
  · intro bare
    rw [fits.bare bare]
    rfl
  · intro constrained
    obtain ⟨n,rfl,columns | scalar⟩ := fits.constrained constrained
    · obtain ⟨names,some_name,rfl⟩ := columns
      exact ⟨_,rfl,.inl ⟨names,some_name,by simp [foldSigns,foldSignsList_idents]⟩⟩
    · exact ⟨_,rfl,.inr (foldSigns_scalar scalar)⟩

theorem foldSigns_wellFormed {n : Node} (valid : n.WellFormed) : n.foldSigns.WellFormed := by
  induction valid with
  | table name asName => exact .table name asName
  | join s l r e left right fits ihl ihr => exact .join _ _ _ _ ihl ihr (foldSigns_fits fits)

-- A constant of a folded tree is among some nodes, or the opposite of one there that had no minus sign.
def StemsFrom (c : Constant) (ms : List Node) : Prop :=
  constant c ∈ ms ∨ ∃ c', constant c' ∈ ms ∧ hasMinus c' = false ∧ c'.negated? = some c

theorem stemsFrom_of_part (stems : StemsFrom c ms) (part : ∀ m ∈ ms, m ∈ ms') : StemsFrom c ms' := by
  rcases stems with here | ⟨c',member,sign⟩
  · exact .inl (part _ here)
  · exact .inr ⟨c',part _ member,sign⟩

mutual
theorem foldSigns_stems (n : Node) (member : constant c ∈ n.foldSigns.nodes) : StemsFrom c n.nodes := by
  cases n with
  | identifier | constant | table => exact .inl member
  | column | runtimeFilter => exact .inl member
  | list ns =>
    have member : constant c ∈ nodesList (foldSignsList ns) := by simpa [foldSigns,nodes] using member
    exact stemsFrom_of_part (foldSignsList_stems ns member) (by simp +contextual [nodes])
  | join spec l r e =>
    have member : constant c ∈ l.foldSigns.nodes ∨ constant c ∈ r.foldSigns.nodes ∨
        constant c ∈ nodesOption (foldSignsOption e) := by simpa [foldSigns,nodes] using member
    rcases member with left | right | condition
    · exact stemsFrom_of_part (foldSigns_stems l left) (by simp +contextual [nodes])
    · exact stemsFrom_of_part (foldSigns_stems r right) (by simp +contextual [nodes])
    · exact stemsFrom_of_part (foldSignsOption_stems e condition) (by simp +contextual [nodes])
  | function name args =>
    cases folded : folded? name (argumentsOf args) with
    | none =>
      have member : constant c ∈ args.foldSigns.nodes := by simpa [foldSigns,folded,nodes] using member
      exact stemsFrom_of_part (foldSigns_stems args member) (by simp +contextual [nodes])
    | some c' =>
      obtain rfl : c = c' := by simpa [foldSigns,folded,nodes] using member
      obtain ⟨_,c',single,sign⟩ := folded?_exact.mp folded
      cases args <;> simp only [argumentsOf,reduceCtorEq] at single
      subst single
      exact .inr ⟨c',by simp [nodes,nodesList],sign⟩
theorem foldSignsList_stems (ns : List Node) (member : constant c ∈ nodesList (foldSignsList ns)) :
    StemsFrom c (nodesList ns) := by
  cases ns with
  | nil => exact .inl member
  | cons n ns =>
    simp only [foldSignsList,nodesList,List.mem_append] at member
    rcases member with first | rest
    · exact stemsFrom_of_part (foldSigns_stems n first) (by simp +contextual [nodesList])
    · exact stemsFrom_of_part (foldSignsList_stems ns rest) (by simp +contextual [nodesList])
theorem foldSignsOption_stems (e : Option Node) (member : constant c ∈ nodesOption (foldSignsOption e)) :
    StemsFrom c (nodesOption e) := by
  cases e with
  | none => exact .inl member
  | some n => exact foldSigns_stems n member
end

-- A float without a minus sign is positive.
theorem isNegative_of_hasMinus (finite : Binary64.isFinite bits = true) (minus : hasMinus (.float bits) = false) :
    Binary64.isNegative bits = false := by
  cases sign : Binary64.isNegative bits with
  | false => rfl
  | true => simp [hasMinus,Constant.text,Binary64.text_toList finite,sign] at minus

theorem foldSigns_floatsRead {n : Node} (floats : n.FloatsRead) : n.foldSigns.FloatsRead := by
  have both (bits : UInt64) (member : constant (.float bits) ∈ n.foldSigns.nodes) :
      Binary64.isFinite bits = true ∧ Constant.ReadsBack bits := by
    rcases foldSigns_stems n member with here | ⟨c,here,minus,opposite⟩
    · exact ⟨floats.finite bits here,floats.read bits here⟩
    · cases c with
      | float positive =>
        cases opposite
        have finite := floats.finite positive here
        exact ⟨(Binary64.isFinite_negate positive).trans finite,
          Constant.readsBack_negate finite (isNegative_of_hasMinus finite minus) (floats.read positive here)⟩
      | int n | uint n =>
        simp only [Constant.negated?] at opposite
        split at opposite <;> cases opposite
      | null | bool | string => cases opposite
  exact ⟨fun bits member => (both bits member).1,fun bits member => (both bits member).2⟩

theorem hasMinus_int (n : Int64) : hasMinus (.int n) = decide (n.toInt < 0) := by
  simp only [hasMinus,Constant.text,Constant.toString_toList]
  by_cases sign : 0 ≤ n.toInt
  · rw [if_pos sign,decide_eq_false (Text.natural?_start (Text.natural?_toDigits n.toInt.toNat) rfl),decide_eq_false (by omega)]
  · rw [if_neg sign,List.head?_cons,decide_eq_true rfl,decide_eq_true (by omega)]

-- Only zero has no minus sign before and behind a change of its sign.
theorem negated?_twice (normal : c.IsNormal) (finite : ∀ bits, c = .float bits → Binary64.isFinite bits = true)
    (minus : hasMinus c = false) (opposite : c.negated? = some c') (minus' : hasMinus c' = false) : c = .int 0 := by
  cases c with
  | null | bool | string => cases opposite
  | int n =>
    simp only [Constant.negated?] at opposite
    split at opposite <;> cases opposite
    simp only [hasMinus_int,decide_eq_false_iff_not] at minus minus'
    have bound := n.toInt_lt
    have sign : (-n).toInt = -n.toInt := by
      rw [← Int64.ofInt_toInt n,← Int64.ofInt_neg,Int64.toInt_ofInt_of_le (by simp; omega) (by simp; omega)]
      simp
    have zero : n.toInt = (0 : Int64).toInt := by
      simp only [Int64.toInt_zero]
      omega
    rw [Int64.toInt_inj.mp zero]
  | uint n =>
    simp only [Constant.negated?] at opposite
    split at opposite <;> cases opposite
    have large : 1 <<< 63 ≤ n.toNat := normal
    rw [hasMinus_int,Int64.toInt_ofInt_of_le (by omega) (by omega)] at minus'
    simp only [decide_eq_false_iff_not] at minus'
    omega
  | float bits =>
    cases opposite
    have finite := finite bits rfl
    have negative := Binary64.isNegative_negate (isNegative_of_hasMinus finite minus)
    simp [hasMinus,Constant.text,Binary64.text_toList ((Binary64.isFinite_negate bits).trans finite),negative] at minus'

-- A call that folds only once its argument has been folded.
theorem folded?_again (scalars : ∀ a ∈ args, IsScalar a) (floats : (call name args).FloatsRead)
    (kept : folded? name args = none) (again : folded? name (foldSignsList args) = some c) :
    call name args = doublyNegatedZero := by
  obtain ⟨rfl,c',single,minus',opposite'⟩ := folded?_exact.mp again
  rw [foldSignsList_map] at single
  obtain ⟨a,rfl,first⟩ := List.map_eq_singleton_iff.mp single
  cases scalars a (by simp) with
  | identifier parts => cases first
  | constant c normal =>
    cases first
    simp [folded?,minus',opposite'] at kept
  | call name args inner =>
    cases folded : folded? name args with
    | none =>
      rw [foldSigns_call folded] at first
      cases first
    | some c'' =>
      rw [foldSigns_folded folded] at first
      cases first
      obtain ⟨rfl,c,rfl,minus,opposite⟩ := folded?_exact.mp folded
      cases inner (constant c) (by simp) with
      | constant _ normal =>
        have finite (bits : UInt64) (float : c = .float bits) : Binary64.isFinite bits = true := by
          subst float
          exact floats.finite bits (by simp [call,nodes,nodesList])
        rw [negated?_twice normal finite minus opposite minus']
        rfl

theorem doublyNegatedZero_call : doublyNegatedZero ∈ (call name args).nodes ↔
    call name args = doublyNegatedZero ∨ ∃ a ∈ args, doublyNegatedZero ∈ a.nodes := by
  rw [← mem_nodesList]
  simp [call,nodes,doublyNegatedZero,eq_comm]

-- A scalar tree stays as it is when it is folded again, unless zero stands behind two minus signs.
theorem foldSigns_twice_scalar (scalar : IsScalar n) (floats : n.FloatsRead) :
    n.foldSigns.foldSigns = n.foldSigns ↔ doublyNegatedZero ∉ n.nodes := by
  induction scalar with
  | identifier | constant => simp [foldSigns,nodes,doublyNegatedZero,call]
  | call name args scalars ih =>
    cases folded : folded? name args with
    | some c =>
      obtain ⟨_,c',rfl,_⟩ := folded?_exact.mp folded
      rw [foldSigns_folded folded,doublyNegatedZero_call]
      simp [foldSigns,nodes,doublyNegatedZero,call]
    | none =>
      rw [foldSigns_call folded,doublyNegatedZero_call]
      cases again : folded? name (foldSignsList args) with
      | some c =>
        rw [foldSigns_folded again]
        simp [folded?_again scalars floats folded again]
        simp [call]
      | none =>
        have other : call name args ≠ doublyNegatedZero := by
          intro same
          cases same
          cases again
        have each : foldSignsList (foldSignsList args) = foldSignsList args ↔
            ∀ a ∈ args, a.foldSigns.foldSigns = a.foldSigns := by
          simp only [foldSignsList_map,List.map_map,List.map_inj_left,Function.comp_apply]
        have below (a : Node) (member : a ∈ args) := ih a member (floatsRead_argument floats member)
        rw [foldSigns_call again]
        constructor
        · intro same
          have same : foldSignsList (foldSignsList args) = foldSignsList args := by simpa [call] using same
          rintro (here | ⟨a,member,inside⟩)
          · exact other here
          · exact (below a member).mp (each.mp same a member) inside
        · intro absent
          rw [each.mpr fun a member => (below a member).mpr fun inside => absent (.inr ⟨a,member,inside⟩)]

theorem foldSigns_twice_option (fits : JoinSpec.Fits s e) (floats : ∀ n, e = some n → n.FloatsRead) :
    foldSignsOption (foldSignsOption e) = foldSignsOption e ↔ doublyNegatedZero ∉ nodesOption e := by
  cases kind : s.kind.isUnconditional with
  | true =>
    rw [fits.bare kind]
    simp [foldSignsOption,nodesOption]
  | false =>
    obtain ⟨n,rfl,columns | scalar⟩ := fits.constrained kind
    · obtain ⟨names,_,rfl⟩ := columns
      have absent (m : Node) (member : m ∈ nodesList (names.map ident)) : ∃ name, m = ident name := by
        obtain ⟨n,hn,inside⟩ := mem_nodesList.mp member
        obtain ⟨name,_,rfl⟩ := List.mem_map.mp hn
        exact ⟨name,by simpa [ident,nodes] using inside⟩
      simp only [foldSignsOption,foldSigns,foldSignsList_idents,nodesOption,nodes,List.mem_cons,not_or,true_iff]
      refine ⟨by simp [doublyNegatedZero,call],fun member => ?_⟩
      obtain ⟨name,same⟩ := absent _ member
      cases same
    · simpa [foldSignsOption,nodesOption] using foldSigns_twice_scalar scalar (floats n rfl)

theorem foldSigns_twice {n : Node} (valid : n.WellFormed) (floats : n.FloatsRead) :
    n.foldSigns.foldSigns = n.foldSigns ↔ doublyNegatedZero ∉ n.nodes := by
  induction valid with
  | table name asName => simp [foldSigns,nodes,doublyNegatedZero,call]
  | join s l r e left right fits ihl ihr =>
    obtain ⟨floatsLeft,floatsRight,floatsCondition⟩ := floatsRead_join floats
    have other : doublyNegatedZero ≠ join s l r e := by simp [doublyNegatedZero,call]
    simp only [foldSigns,join.injEq,true_and,ihl floatsLeft,ihr floatsRight,foldSigns_twice_option fits floatsCondition,
      nodes,List.mem_cons,List.mem_append,other,false_or,not_or,and_assoc]

-- Built trees are what their own clauses build, with the signs folded; what that builds is built by its own clauses
-- exactly if zero stood nowhere behind two minus signs.
theorem rebuilt_ofStatement (s : Statement) (hints : JoinHints) (n : Node)
    (built : (ofStatement s hints).result = .ok n)
    (finite : ∀ bits, constant (.float bits) ∈ n.nodes → Binary64.isFinite bits = true)
    (read : ∀ bits, constant (.float bits) ∈ n.nodes → Constant.ReadsBack bits) :
    n.rebuilt.result = .ok n.foldSigns ∧
      ((n.rebuilt >>= rebuilt).result = n.rebuilt.result ↔ doublyNegatedZero ∉ n.nodes) := by
  have valid := (ofStatement_wellFormed s hints n built).1
  have floats : n.FloatsRead := ⟨finite,read⟩
  have once := rebuilt_wellFormed valid floats
  have twice := rebuilt_wellFormed (foldSigns_wellFormed valid) (foldSigns_floatsRead floats)
  refine ⟨once,?_⟩
  rw [Noted.result_bind,once]
  simp only [bind,Except.bind,twice,Except.ok.injEq]
  exact foldSigns_twice valid floats

-- `t1 JOIN t2 ON a = -(1.5)` comes back with one float below zero, and stays so.
theorem rebuilt_ofStatement_negated_float :
    let bits : UInt64 := 0x3FF8000000000000
    let named (s : String) : TableFactor := .table { name := .ofIdents [⟨s,none⟩], start := ⟨1,1⟩ }
    let negated : Expr := .unary .minus (.nested (.literal (.number "1.5" false)))
    let s : Statement := .query ⟨"",none,.select [
      ⟨named "t1",[.mk ⟨false,.join,.on (.binary (.ident ⟨"a",none⟩) .eq negated)⟩ (named "t2")]⟩]⟩
    let n : Node := .join {} (.table "t1" none) (.table "t2" none)
      (some (call "equals" [ident "a",call "negate" [constant (.float bits)]]))
    (ofStatement s []).result = .ok n ∧ Binary64.isFinite bits = true ∧ Constant.ReadsBack bits ∧
      n.rebuilt.result = .ok n.foldSigns ∧
      ((n.rebuilt >>= rebuilt).result = n.rebuilt.result ↔ doublyNegatedZero ∉ n.nodes) := by
  intro bits named negated s n
  have built : (ofStatement s []).result = .ok n := by
    set_option maxRecDepth 8000 in rfl
  have finite : Binary64.isFinite bits = true := by decide
  have read : Constant.ReadsBack bits := by unfold Constant.ReadsBack; decide +kernel
  have only (other : UInt64) (member : constant (.float other) ∈ n.nodes) : other = bits := by
    simpa [n,bits,call,ident,nodes,nodesList,nodesOption] using member
  refine ⟨built,finite,read,rebuilt_ofStatement s [] n built ?_ ?_⟩
  · intro other member
    rw [only other member]
    exact finite
  · intro other member
    rw [only other member]
    exact read

-- `t1 JOIN t2 ON a = -(-(0))` comes back as `-(0)`, and that as `0`.
theorem rebuilt_negated_zero :
    let named (s : String) : TableFactor := .table { name := .ofIdents [⟨s,none⟩], start := ⟨1,1⟩ }
    let zero : Expr := .literal (.number "0" false)
    let negated : Expr := .unary .minus (.nested (.unary .minus (.nested zero)))
    let s : Statement := .query ⟨"",none,.select [
      ⟨named "t1",[.mk ⟨false,.join,.on (.binary (.ident ⟨"a",none⟩) .eq negated)⟩ (named "t2")]⟩]⟩
    let built (right : Node) : Node :=
      .join {} (.table "t1" none) (.table "t2" none) (some (call "equals" [ident "a",right]))
    let n := built doublyNegatedZero
    (ofStatement s []).result = .ok n ∧ (∀ bits, constant (.float bits) ∉ n.nodes) ∧
      n.rebuilt.result = .ok (built (call "negate" [constant (.int 0)])) ∧
      (n.rebuilt >>= rebuilt).result = .ok (built (constant (.int 0))) ∧
      (n.rebuilt >>= rebuilt).result ≠ n.rebuilt.result := by
  intro named zero negated s built n
  have once : n.rebuilt.result = .ok (built (call "negate" [constant (.int 0)])) := rfl
  have twice : (n.rebuilt >>= rebuilt).result = .ok (built (constant (.int 0))) := rfl
  refine ⟨rfl,by simp [n,built,doublyNegatedZero,call,ident,nodes,nodesList,nodesOption],once,twice,?_⟩
  rw [once,twice]
  simp [built,call]

end Node

end JoinTree
