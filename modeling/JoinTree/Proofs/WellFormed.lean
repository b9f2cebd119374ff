import JoinTree.Proofs.Building
import JoinTree.Proofs.Numeral
import JoinTree.Tree.Edit
import JoinTree.Tree.OfQuery

/-!
What every built tree looks like. Main statement: whatever a statement holds and whatever words were taken out of its
joins, a tree that is built from it is well formed, and no column and no runtime filter occurs in it.
-/

namespace JoinTree

open Sql

namespace Node

-- Scalar trees as expressions give them: names, constants as numerals give them, and calls with their arguments in a
-- list.
inductive IsScalar : Node → Prop where
  | identifier (parts : List String) : IsScalar (.identifier parts)
  | constant (value : Constant) : value.IsNormal → IsScalar (.constant value)
  | call (name : String) (args : List Node) : (∀ a ∈ args, IsScalar a) → IsScalar (call name args)

-- The join expression of USING: one or more names of one part each.
def IsColumnList (n : Node) : Prop := ∃ names : List String, names ≠ [] ∧ n = .list (names.map ident)

end Node

-- A join expression is there exactly if the kind asks for one, and strictness goes with few kinds.
structure JoinSpec.Fits (s : JoinSpec) (e : Option Node) : Prop where
  bare : s.kind.isUnconditional = true → e = none
  constrained : s.kind.isUnconditional = false → ∃ c, e = some c ∧ (c.IsColumnList ∨ c.IsScalar)
  filtering : s.strictness.isFiltering = true → s.kind = .left ∨ s.kind = .right
  asof : s.strictness = .asof → s.kind = .inner ∨ s.kind = .left

namespace Node

inductive WellFormed : Node → Prop where
  | table (name : String) (asName : Option String) : WellFormed (.table name asName)
  | join (s : JoinSpec) (l r : Node) (e : Option Node) :
      WellFormed l → WellFormed r → s.Fits e → WellFormed (.join s l r e)

-- Expressions.

theorem between_scalar (value : IsScalar v) (low : IsScalar l) (high : IsScalar h) :
    IsScalar (between negated v l h) := by
  unfold between
  split
  all_goals
    refine .call _ _ ?_
    simp only [List.mem_cons, List.not_mem_nil, or_false, forall_eq_or_imp, forall_eq]
    constructor
    all_goals
      refine .call _ _ ?_
      simp [value,low,high]

theorem ofLiteral_normal (read : Constant.ofLiteral l = .ok c) : c.IsNormal := by
  unfold Constant.ofLiteral at read
  split at read
  · rename_i found
    cases read
    exact Constant.ofLiteral?_normal found
  · split at read <;> cases read

theorem negatedLiteral?_normal (folded : negatedLiteral? e = .ok (some c)) : c.IsNormal := by
  unfold negatedLiteral? at folded
  split at folded
  · obtain ⟨_,_,opposite⟩ := map_ok.mp folded
    exact Constant.negated?_normal opposite
  · cases folded

theorem HasNode.isScalar (has : HasNode e n) : IsScalar n := by
  induction has with
  | ident | compound => exact .identifier _
  | literal read => exact .constant _ (ofLiteral_normal read)
  | folded sign => exact .constant _ (negatedLiteral?_normal sign)
  | binary _ _ _ left right => exact .call _ _ (by simp [left,right])
  | plus _ inner | nested _ inner => exact inner
  | negate _ _ inner | not _ inner | isNull _ inner | isNotNull _ inner => exact .call _ _ (by simp [inner])
  | between _ _ _ _ value low high => exact between_scalar value low high
  | call _ size _ each =>
    refine .call _ _ fun n member => ?_
    obtain ⟨e,inside⟩ := argument_of_node size member
    exact each (e,n) inside

theorem ofExpr_scalar (e : Expr) (built : ofExpr e = .ok n) : IsScalar n := (ofExpr_hasNode e built).isScalar

-- Clauses.

theorem constraintOf_fits (c : JoinClause) (sound : c.defect? = none) (built : constraintOf c = .ok e) :
    c.spec.Fits e := by
  unfold JoinClause.defect? at sound
  repeat
    split at sound
    · cases sound
  rename_i both empty needless filtering asof missing
  refine ⟨?_,?_,?_,?_⟩
  · intro bare
    have free : c.condition = none ∧ c.columns = none := by
      simpa [JoinClause.spec,JoinClause.hasConstraint,show c.kind.isUnconditional = true from bare] using needless
    simp only [constraintOf,free.1,free.2] at built
    cases built; rfl
  · intro constrained
    unfold constraintOf at built
    split at built
    · rename_i columns given
      cases built
      refine ⟨_,rfl,.inl ⟨columns.map Ident.value,?_,by simp [Function.comp_def]⟩⟩
      simpa [given] using empty
    · obtain ⟨n,hn,rfl⟩ := map_ok.mp built
      exact ⟨n,rfl,.inr (ofExpr_scalar _ hn)⟩
    · rename_i noColumns noCondition
      simp [JoinClause.hasConstraint,noColumns,noCondition,show c.kind.isUnconditional = false from constrained] at missing
  · intro semi
    by_cases left : c.kind = .left
    · exact .inl left
    · exact .inr (by simpa [JoinClause.spec,show c.strictness.isFiltering = true from semi,left] using filtering)
  · intro nearest
    by_cases inner : c.kind = .inner
    · exact .inl inner
    · exact .inr (by simpa [JoinClause.spec,show c.strictness = .asof from nearest,inner] using asof)

theorem joined_ok (built : (joined l r c).result = .ok n) :
    c.defect? = none ∧ ∃ e, constraintOf c = .ok e ∧ n = join c.spec l r e := by
  unfold joined at built
  split at built
  · cases built
  · rename_i sound
    simp only [Noted.result_bind,Noted.result_note,Noted.result_lift] at built
    obtain ⟨e,given,rfl⟩ := map_ok.mp built
    exact ⟨sound,e,given,rfl⟩

theorem joined_result (l r : Node) (sound : c.defect? = none) (given : constraintOf c = .ok e) :
    (joined l r c).result = .ok (.join c.spec l r e) := by
  unfold joined
  rw [sound]
  simp only [Noted.result_bind,Noted.result_note,Noted.result_lift,given]
  rfl

theorem joined_comma (built : (joined left right .comma).result = .ok n) : n = join { kind := .comma } left right none := by
  obtain ⟨_,e,given,rfl⟩ := joined_ok built
  cases given
  rfl

-- Tables and joins.

theorem ofTable_ok (built : ofTable t = .ok n) : n = table t.name.text (t.asName.map (·.name.value)) := by
  unfold ofTable at built
  split at built
  · cases built
  · split at built
    · rename_i bare
      cases built
      rw [bare]
      rfl
    · rename_i a named
      split at built
      · cases built
        rw [named]
        rfl
      · cases built

theorem ofJoins_cons {hints : JoinHints} (js : List Join) (clause : hints.clauseOf (.mk head f) = .ok c)
    (right : (ofFactor hints f).result = .ok r) (sound : c.defect? = none) (given : constraintOf c = .ok e) (left : Node) :
    (ofJoins hints left (.mk head f :: js)).result = (ofJoins hints (.join c.spec left r e) js).result := by
  rw [ofJoins,clause,mapError_value]
  simp only [Noted.result_bind,Noted.result_lift,right]
  change (joined left r c).result >>= (fun l => (ofJoins hints l js).result) = _
  rw [joined_result left r sound given]
  rfl

-- What holds of a relation and its tree, and of a list of joins with the trees in front of it and with it.
structure BuildRules (hints : JoinHints) (P : TableFactor → Node → Prop) (Q : Node → List Join → Node → Prop) : Prop where
  table : ∀ t n, ofTable t = .ok n → P (.table t) n
  nested : ∀ relation joins l n, P relation l → Q l joins n → P (.nested relation joins none) n
  nil : ∀ l, Q l [] l
  cons : ∀ l head factor joins r c e n, hints.clauseOf (.mk head factor) = .ok c → c.defect? = none → constraintOf c = .ok e →
    P factor r → Q (join c.spec l r e) joins n → Q l (.mk head factor :: joins) n

mutual
theorem BuildRules.factor (rules : BuildRules hints P Q) (f : TableFactor) (built : (ofFactor hints f).result = .ok n) : P f n := by
  cases f with
  | table t => exact rules.table t n built
  | nested relation joins asName =>
    cases asName with
    | some a => cases built
    | none =>
      simp only [ofFactor,Noted.result_bind] at built
      obtain ⟨left,first,built⟩ := bind_ok.mp built
      exact rules.nested _ _ left n (rules.factor relation first) (rules.joins joins built)
  | phrase p => cases built
theorem BuildRules.joins (rules : BuildRules hints P Q) (joins : List Join) (built : (ofJoins hints l joins).result = .ok n) :
    Q l joins n := by
  cases joins with
  | nil =>
    cases built
    exact rules.nil l
  | cons j joins =>
    obtain ⟨head,factor⟩ := j
    simp only [ofJoins,Noted.result_bind] at built
    obtain ⟨clause,given,built⟩ := bind_ok.mp built
    obtain ⟨right,second,built⟩ := bind_ok.mp built
    obtain ⟨both,join,built⟩ := bind_ok.mp built
    obtain ⟨sound,e,constraint,rfl⟩ := joined_ok join
    exact rules.cons l head factor joins right clause e n (mapError_ok.mp given) sound constraint (rules.factor factor second)
      (rules.joins joins built)
end

theorem BuildRules.entry (rules : BuildRules hints P Q) (built : (ofEntry hints e).result = .ok n) :
    ∃ l, P e.relation l ∧ Q l e.joins n := by
  simp only [ofEntry,Noted.result_bind] at built
  obtain ⟨left,first,built⟩ := bind_ok.mp built
  exact ⟨left,rules.factor e.relation first,rules.joins e.joins built⟩

-- Every further entry joins the tree of those before it.
theorem behindComma_induct {R : Node → List FromEntry → Node → Prop} (nil : ∀ l, R l [] l)
    (cons : ∀ l e es r n, (ofEntry hints e).result = .ok r → R (join { kind := .comma } l r none) es n → R l (e :: es) n)
    (es : List FromEntry) (built : (es.foldlM (fun l e => do joined l (← ofEntry hints e) .comma) l).result = .ok n) : R l es n := by
  induction es generalizing l with
  | nil =>
    cases built
    exact nil _
  | cons e es ih =>
    simp only [List.foldlM_cons,Noted.result_bind] at built
    obtain ⟨both,built,later⟩ := bind_ok.mp built
    obtain ⟨right,entry,join⟩ := bind_ok.mp built
    obtain rfl := joined_comma join
    exact cons _ e es right n entry (ih later)

theorem ofEntries_ok (built : (ofEntries hints es).result = .ok n) : ∃ e rest l, es = e :: rest ∧ (ofEntry hints e).result = .ok l ∧
    (rest.foldlM (fun l e => do joined l (← ofEntry hints e) .comma) l).result = .ok n := by
  cases es with
  | nil => cases built
  | cons e rest =>
    simp only [ofEntries,Noted.result_bind] at built
    obtain ⟨l,first,built⟩ := bind_ok.mp built
    exact ⟨e,rest,l,rfl,first,built⟩

theorem wellFormed_rules (hints : JoinHints) :
    BuildRules hints (fun _ n => n.WellFormed) fun l _ n => l.WellFormed → n.WellFormed := by
  constructor
  case table =>
    intro t n built
    rw [ofTable_ok built]
    exact .table _ _
  case nested => exact fun _ _ _ _ left later => later left
  case nil => exact fun _ left => left
  case cons =>
    intro l _ _ _ r c e n _ sound constraint right later left
    exact later (.join _ _ _ _ left right (constraintOf_fits c sound constraint))

theorem ofEntry_wellFormed (built : (ofEntry hints e).result = .ok n) : n.WellFormed := by
  obtain ⟨left,first,later⟩ := (wellFormed_rules hints).entry built
  exact later first

theorem ofEntries_wellFormed (es : List FromEntry) (built : (ofEntries hints es).result = .ok n) : n.WellFormed := by
  obtain ⟨e,rest,left,rfl,first,built⟩ := ofEntries_ok built
  refine behindComma_induct (R := fun l _ n => l.WellFormed → n.WellFormed) ?nil ?cons rest built (ofEntry_wellFormed first)
  case nil => exact fun _ left => left
  case cons =>
    intro l e es r n entry later left
    exact later (.join _ _ _ _ left (ofEntry_wellFormed entry) (constraintOf_fits .comma rfl rfl))

-- What occurs in a tree.

-- A property that every child inherits holds of everything below.
theorem at?_inherits {P : Node → Prop} (inherits : ∀ n, P n → ∀ c ∈ n.children, P c) (n : Node) (path : List Nat)
    (here : P n) (found : n.at? path = some m) : P m := by
  induction path generalizing n with
  | nil => cases found; exact here
  | cons i path ih =>
    obtain ⟨c,hc,rest⟩ := Option.bind_eq_some_iff.mp found
    exact ih c (inherits n here c (List.mem_of_getElem? hc)) rest

-- The nodes of a well-formed tree: table expressions, scalars, and lists of scalars.
inductive Occurs : Node → Prop where
  | tableExpression : WellFormed n → Occurs n
  | scalar : IsScalar n → Occurs n
  | scalars (ns : List Node) : (∀ n ∈ ns, IsScalar n) → Occurs (.list ns)

theorem columnList_occurs (columns : IsColumnList n) : Occurs n := by
  obtain ⟨names,_,rfl⟩ := columns
  refine .scalars _ ?_
  intro n member
  obtain ⟨name,_,rfl⟩ := List.mem_map.mp member
  exact .identifier _

theorem occurs_child (n : Node) (occurs : Occurs n) (c : Node) (child : c ∈ n.children) : Occurs c := by
  cases occurs with
  | tableExpression valid =>
    cases valid with
    | table name asName => cases child
    | join s l r e left right fits =>
      simp only [children,slots,List.filterMap_cons,id_eq,List.mem_cons] at child
      rcases child with rfl | rfl | child
      · exact .tableExpression left
      · exact .tableExpression right
      · cases e with
        | none => cases child
        | some e =>
          obtain rfl : c = e := by simpa using child
          have constrained : s.kind.isUnconditional = false := by
            cases kind : s.kind.isUnconditional
            · rfl
            · cases fits.bare kind
          obtain ⟨_,same,shape⟩ := fits.constrained constrained
          cases same
          rcases shape with columns | scalar
          · exact columnList_occurs columns
          · exact .scalar scalar
  | scalar scalar =>
    cases scalar with
    | identifier parts => cases child
    | constant value _ => cases child
    | call name args scalars =>
      obtain rfl : c = .list args := by simpa [call,children,slots] using child
      exact .scalars args scalars
  | scalars ns scalars =>
    have child : c ∈ ns := by simpa [children,slots,List.filterMap_map,Function.comp_def] using child
    exact .scalar (scalars c child)

theorem occurs_type (occurs : Occurs n) : n.type ≠ .column ∧ n.type ≠ .runtimeFilter := by
  cases occurs with
  | tableExpression valid => cases valid <;> simp [type]
  | scalar scalar => cases scalar <;> simp [type,call]
  | scalars ns _ => simp [type]

theorem ofStatement_wellFormed (s : Statement) (hints : JoinHints) (n : Node)
    (built : (ofStatement s hints).result = .ok n) :
    n.WellFormed ∧ ∀ path m, n.at? path = some m → m.type ≠ .column ∧ m.type ≠ .runtimeFilter := by
  have valid : n.WellFormed := by
    cases s with
    | command | explanation => cases built
    | query q =>
      simp only [ofStatement,ofQuery] at built
      split at built
      · exact ofEntries_wellFormed _ built
      · cases built
      · cases built
  exact ⟨valid,fun path m found => occurs_type (at?_inherits occurs_child n path (.tableExpression valid) found)⟩

-- `a ANY LEFT JOIN b USING (id), c`, the word ANY being kept under the place of `b`.
theorem ofStatement_wellFormed_any_left :
    let named (s : String) (column : Nat) : TableFactor := .table { name := .ofIdents [⟨s,none⟩], start := ⟨1,column⟩ }
    let s : Statement := .query ⟨"",none,.select [
      ⟨named "a" 15,[.mk ⟨false,.left,.using [.ofIdents [⟨"id",none⟩]]⟩ (named "b" 31)]⟩, ⟨named "c" 44,[]⟩]⟩
    let hints : JoinHints := [(⟨1,31⟩,{ strictness := some .any })]
    let n : Node := .join { kind := .comma }
      (.join { strictness := .any, kind := .left } (.table "a" none) (.table "b" none) (some (.list [ident "id"])))
      (.table "c" none) none
    (ofStatement s hints).result = .ok n ∧ n.WellFormed ∧
      ∀ path m, n.at? path = some m → m.type ≠ .column ∧ m.type ≠ .runtimeFilter := by
  intro named s hints n
  exact ⟨rfl,ofStatement_wellFormed s hints n rfl⟩

end Node

end JoinTree
