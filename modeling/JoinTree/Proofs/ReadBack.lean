import JoinTree.Proofs.Rendering

/-!
Reading back the text of a tree of plain names. Main statement: the text builds the tree again exactly if no operand
stands where an operator next to it takes it over, and the operands nest no deeper than the operands of a text may.
-/

namespace JoinTree

open Sql

namespace Node

theorem name_apart (d : Dialect) (name : d.isPlainName v = true) : v ≠ "NOT" := by
  rintro rfl
  have keyword : (Keyword.ofText? "NOT").isNone = false := rfl
  simp [Dialect.isPlainName,keyword] at name

theorem call_parts (plain : IsPlain d n) (same : n = call f ns) : f ≠ "NOT" ∧ ∀ a ∈ ns, IsPlain d a := by
  cases plain with
  | name => cases same
  | binary op known left right =>
    cases same
    refine ⟨?_,by simp [left,right]⟩
    rintro rfl
    have absent : operatorOf? "NOT" = none := by decide
    have found := (operatorOf?_found known).1
    rw [absent] at found
    cases found
  | isNull inner | isNotNull inner | not inner | negate inner =>
    cases same
    exact ⟨by decide,by simp [inner]⟩
  | ordinary f args name _ each =>
    cases same
    refine ⟨?_,each⟩
    exact name_apart d name

-- Whatever builds a plain tree has NOT nowhere as a name.
theorem built_clear (has : HasNode e n) (plain : IsPlain d n) : e.isClear = true := by
  induction has with
  | ident i =>
    have apart : i.value ≠ "NOT" := by
      generalize same : ident i.value = n at plain
      cases plain with
      | name name =>
        cases same
        exact name_apart d name
      | _ => cases same
    simpa [Expr.isClear] using apart
  | @binary _ _ l a r b _ _ _ left right =>
    have inner := (call_parts plain rfl).2
    simp [Expr.isClear,left (inner a (by simp)),right (inner b (by simp))]
  | plus _ inner | nested _ inner => exact inner plain
  | negate _ _ inner | not _ inner | isNull _ inner | isNotNull _ inner => exact inner ((call_parts plain rfl).2 _ (by simp))
  | call _ size _ each =>
    obtain ⟨apart,inner⟩ := call_parts plain rfl
    have clear : Expr.areClear _ = true := Expr.areClear_all.mpr fun e listed => by
      obtain ⟨n,inside⟩ := node_of_argument size listed
      exact each _ inside (inner n (List.of_mem_zip inside).2)
    simp [Expr.isClear,apart,clear]
  | compound | literal | folded | between => rfl

-- How many names are written.
def names (ss : List Sign) : Nat := ss.countP fun s => s matches .name _

theorem names_append (ss more : List Sign) : names (ss ++ more) = names ss + names more := List.countP_append

theorem names_signsList (e : Expr) (es : List Expr) :
    names (Expr.signsList (e :: es)) = names e.signs + names (Expr.signsList es) := by
  cases es with
  | nil => rfl
  | cons b es =>
    rw [Expr.signsList_cons e (b :: es) (by simp),names_append]
    rfl

theorem names_operand (e : Expr) : names (operand e).signs = names e.signs ∧ (operand e).bare = e.bare := by
  cases e with
  | binary l op r => exact ⟨by simp [operand,Expr.signs,names],rfl⟩
  | _ => exact ⟨rfl,rfl⟩

theorem names_negatedOperand (e : Expr) :
    names (negatedOperand e).signs = names e.signs ∧ (negatedOperand e).bare = e.bare := by
  have nested (e : Expr) : names (Expr.nested e).signs = names e.signs ∧ (Expr.nested e).bare = e.bare :=
    ⟨by simp [Expr.signs,names],rfl⟩
  unfold negatedOperand
  split
  · exact nested _
  · split
    · exact nested _
    · exact ⟨rfl,rfl⟩
  · exact names_operand _

-- The name of a call is written unless an operator stands for it.
theorem call_names (plain : IsPlain d n) (same : n = call f ns) :
    n.shown = .call { name := .ofIdents [⟨f,none⟩] } (ns.map shown) ∨
    names n.shown.signs = names (Expr.signsList (ns.map shown)) := by
  have operands (e : Expr) : names ((operand e).signs ++ [.is,.null]) = names e.signs ∧
      names ((operand e).signs ++ [.is,.not,.null]) = names e.signs := by
    simp only [names_append,(names_operand e).1]
    exact ⟨rfl,rfl⟩
  cases plain with
  | name => cases same
  | @binary g a b op known =>
    cases same
    right
    rw [shown_call]
    simp only [List.map_cons,List.map_nil,applied_operator known,Expr.signs,names_signsList]
    rw [names_append,(names_operand a.shown).1,← (names_operand b.shown).1]
    rfl
  | @isNull a =>
    cases same
    exact .inr (operands a.shown).1
  | @isNotNull a =>
    cases same
    exact .inr (operands a.shown).2
  | @not a =>
    cases same
    exact .inr (names_operand a.shown).1
  | @negate a =>
    cases same
    exact .inr (names_negatedOperand a.shown).1
  | ordinary g args _ ordinary =>
    cases same
    exact .inl ((shown_call f ns).trans (ordinary _ (by simp)))

-- Signs that have no more names than others, and their shape if they have as many.
structure Slim (ss ss' : List Sign) (sameShape : Prop) : Prop where
  fewer : names ss' ≤ names ss
  shape : names ss ≤ names ss' → sameShape

-- One operand, with or without parentheses around it, under the same operator.
theorem Slim.under {a b b' : Expr} {w : Expr → Expr} (size : ∀ e, names (w e).signs = names e.signs)
    (bare : ∀ {e e'}, e.bare = e'.bare → (w e).bare = (w e').bare)
    (wrapped : names b'.signs = names b.signs ∧ b'.bare = b.bare) (slim : Slim a.signs b.signs (a.bare = b.bare)) :
    Slim (w a).signs (w b').signs ((w a).bare = (w b').bare) := by
  constructor
  · rw [size,size,wrapped.1]
    exact slim.fewer
  · intro enough
    rw [size,size,wrapped.1] at enough
    exact bare ((slim.shape enough).trans wrapped.2.symm)

theorem Slim.binary {a a' b b' l r : Expr} (op : BinaryOp) (wrapped : names a'.signs = names a.signs ∧ a'.bare = a.bare)
    (wrapped' : names b'.signs = names b.signs ∧ b'.bare = b.bare) (left : Slim l.signs a.signs (l.bare = a.bare))
    (right : Slim r.signs b.signs (r.bare = b.bare)) :
    Slim (Expr.binary l op r).signs (Expr.binary a' op b').signs ((Expr.binary l op r).bare = (Expr.binary a' op b').bare) := by
  have both (e e' : Expr) : names (Expr.binary e op e').signs = names e.signs + names e'.signs := by
    rw [Expr.signs,names_append]
    rfl
  have fewer := left.fewer
  have fewer' := right.fewer
  constructor
  · rw [both,both,wrapped.1,wrapped'.1]
    exact Nat.add_le_add fewer fewer'
  · intro enough
    rw [both,both,wrapped.1,wrapped'.1] at enough
    rw [Expr.bare,Expr.bare,wrapped.2,wrapped'.2,left.shape (by omega),right.shape (by omega)]

-- What holds of each argument holds of their list.
theorem Slim.list (each : List.Forall₂ (fun e n => Slim e.signs n.shown.signs (e.bare = n.shown.bare)) args ns) :
    Slim (Expr.signsList args) (Expr.signsList (ns.map shown)) (Expr.bareList args = Expr.bareList (ns.map shown)) := by
  induction each with
  | nil => exact ⟨Nat.le_refl _,fun _ => rfl⟩
  | cons first _ tail =>
    have fewer := first.fewer
    have fewer' := tail.fewer
    constructor
    · rw [List.map_cons,names_signsList,names_signsList]
      exact Nat.add_le_add fewer fewer'
    · intro enough
      rw [List.map_cons,names_signsList,names_signsList] at enough
      rw [List.map_cons,Expr.bareList,Expr.bareList,first.shape (by omega),tail.shape (by omega)]

-- Among the expressions that build a tree, none has fewer names than the one that shows it, and those with as many have
-- its shape.
theorem built_shape (has : HasNode e n) (plain : e.IsPlain d) (tree : IsPlain d n) :
    Slim e.signs n.shown.signs (e.bare = n.shown.bare) := by
  induction plain generalizing n with
  | ident name =>
    cases has
    exact ⟨Nat.le_refl _,fun _ => rfl⟩
  | @binary l r op _ _ _ ihl ihr =>
    cases has with
    | @binary _ f _ a _ b known left right =>
      have inner := (call_parts tree rfl).2
      have shown : (call f [a,b]).shown = .binary (operand a.shown) op (operand b.shown) := by
        rw [shown_call,List.map_cons,List.map_cons,List.map_nil,applied_operator known]
      rw [shown]
      exact .binary op (names_operand _) (names_operand _) (ihl left (inner a (by simp))) (ihr right (inner b (by simp)))
  | not _ ih =>
    cases has with
    | not inner =>
      exact .under (w := .unary .not) (fun _ => rfl) (congrArg _) (names_operand _)
        (ih inner ((call_parts tree rfl).2 _ (by simp)))
  | minus plain ih =>
    cases has with
    | folded => cases plain
    | negate _ inner =>
      exact .under (w := .unary .minus) (fun _ => rfl) (congrArg _) (names_negatedOperand _)
        (ih inner ((call_parts tree rfl).2 _ (by simp)))
  | @nested e _ ih =>
    cases has with
    | nested inner =>
      have slim := ih inner tree
      have size : names (Expr.nested e).signs = names e.signs := by simp [Expr.signs,names]
      exact ⟨size ▸ slim.fewer,fun enough => slim.shape (size ▸ enough)⟩
  | isNull _ ih =>
    cases has with
    | isNull inner =>
      exact .under (w := .isNull) (fun e => by simp [Expr.signs,names]) (congrArg _) (names_operand _)
        (ih inner ((call_parts tree rfl).2 _ (by simp)))
  | isNotNull _ ih =>
    cases has with
    | isNotNull inner =>
      exact .under (w := .isNotNull) (fun e => by simp [Expr.signs,names]) (congrArg _) (names_operand _)
        (ih inner ((call_parts tree rfl).2 _ (by simp)))
  | call f args name _ ih =>
    cases has with
    | call _ size each =>
      rw [Expr.name_text] at tree ⊢
      have inner := (call_parts tree rfl).2
      have list := Slim.list <| argument_pairs size fun p inside =>
        ih p.1 (List.of_mem_zip inside).1 (each p inside) (inner _ (List.of_mem_zip inside).2)
      have written (es : List Expr) : names (Expr.call { name := .ofIdents [⟨f,none⟩] } es).signs =
          names (Expr.signsList es) + 1 := by
        simp [Expr.signs,names]
      have fewer := list.fewer
      rcases call_names tree rfl with same | unnamed
      · constructor
        · rw [same,written,written]
          exact Nat.succ_le_succ fewer
        · intro enough
          rw [same,written,written] at enough
          rw [same,Expr.bare,Expr.bare,list.shape (Nat.le_of_succ_le_succ enough)]
      · constructor
        · rw [unnamed,written]
          omega
        · intro enough
          rw [unnamed,written] at enough
          omega

theorem text_shown (plain : IsPlain d n) : n.text = n.shown.text := by
  simp [text,surface_shown plain,Surface.text]

-- A plain tree is read back from its text exactly if its operators leave their operands as they are, and these nest no
-- deeper than a text may.
theorem text_builds (plain : IsPlain d n) :
    ofExprText d n.text = .ok n ↔ n.keepsOperands = true ∧ n.shown.levels ≤ Grammar.maxLevels := by
  have written := shown_isPlain plain
  rw [text_shown plain,← shown_bound plain]
  constructor
  · intro built
    obtain ⟨e,read,built⟩ := bind_ok.mp built
    have has := ofExpr_iff.mp built
    have clear := built_clear has plain
    obtain ⟨more,signs,bound,room⟩ := Expr.parseExpr_sound written (mapError_ok.mp read) clear
    have shape := built_shape has (Expr.bound_plain bound) plain
    have fewer : names e.signs ≤ names n.shown.signs := by
      rw [signs,names_append]
      exact Nat.le_add_right _ _
    have whole : e.signs ++ more = n.shown.signs ++ [] := by rw [List.append_nil,signs]
    obtain ⟨rfl,_⟩ := Expr.signs_unique (Expr.bound_plain bound) written (shape.shape fewer) whole
    exact ⟨bound,room⟩
  · rintro ⟨bound,room⟩
    have free := shown_free plain ((shown_bound plain).mp bound)
    simp only [ofExprText,Expr.parseExpr_bound bound free room]
    exact ofExpr_shown plain

-- The text of the tree of a composed expression builds the tree again exactly if that holds of the tree.
theorem ofExprText_text (accepted : ofExprText d sql = .ok n) (read : parseExpr d sql = .ok e) (composed : e.IsComposed d) :
    ∃ shown, n.surface = .ok (.expr shown) ∧ n.text = shown.text ∧
      (ofExprText d n.text = .ok n ↔ n.keepsOperands = true ∧ shown.levels ≤ Grammar.maxLevels) := by
  simp only [ofExprText,read] at accepted
  have plain := ofExpr_isPlain composed accepted
  exact ⟨n.shown,surface_shown plain,text_shown plain,text_builds plain⟩

-- A text that is written as its expression is.
theorem parseExpr_written (sql : String) (bound : e.Bound d 0) (written : e.text = sql)
    (free : Piece.opensComment e.pieces = false) (room : e.levels ≤ Grammar.maxLevels) : parseExpr d sql = .ok e := by
  rw [← written]
  exact Expr.parseExpr_bound bound free room

-- A negation on the left of AND.
theorem ofExprText_text_negation :
    let n := call "and" [call "not" [ident "a"],ident "b"]
    ofExprText .generic "NOT a AND b" = .ok n ∧ ∃ shown, n.surface = .ok (.expr shown) ∧ n.text = shown.text ∧
      (ofExprText .generic n.text = .ok n ↔ n.keepsOperands = true ∧ shown.levels ≤ Grammar.maxLevels) := by
  have a : Dialect.generic.isPlainName "a" = true := by decide
  have b : Dialect.generic.isPlainName "b" = true := by decide
  have bound : Expr.Bound .generic 0 (.binary (.unary .not (.ident ⟨"a",none⟩)) .and (.ident ⟨"b",none⟩)) :=
    .binary .and rfl (by decide) (.not (.ident a)) (by decide) (.ident b)
  have read := parseExpr_written "NOT a AND b" bound (by decide) rfl (by decide)
  have accepted : ofExprText .generic "NOT a AND b" = .ok (call "and" [call "not" [ident "a"],ident "b"]) := by
    simp only [ofExprText,read]
    rfl
  exact ⟨accepted,ofExprText_text accepted read (.binary .and (.not (.ident a)) (.ident b))⟩

-- A negation in front of IS NULL loses its parentheses, and the text reads as the negation of IS NULL.
theorem negated_test_rebound :
    let n := call "isNull" [call "not" [ident "a"]]
    (∃ e, parseExpr .generic "(NOT a) IS NULL" = .ok e ∧ e.IsComposed .generic) ∧
      ofExprText .generic "(NOT a) IS NULL" = .ok n ∧ n.text = "NOT a IS NULL" ∧
      ofExprText .generic n.text = .ok (call "not" [call "isNull" [ident "a"]]) ∧ ofExprText .generic n.text ≠ .ok n := by
  have a : Dialect.generic.isPlainName "a" = true := by decide
  have nested : Expr.Bound .generic 0 (.isNull (.nested (.unary .not (.ident ⟨"a",none⟩)))) :=
    .isNull (by decide) (.nested (.not (.ident a))) (by decide)
  have rebound : Expr.Bound .generic 0 (.unary .not (.isNull (.ident ⟨"a",none⟩))) :=
    .not (.isNull (by decide) (.ident a) (by decide))
  have read := parseExpr_written "(NOT a) IS NULL" nested (by decide) rfl (by decide)
  have again := parseExpr_written "NOT a IS NULL" rebound (by decide) rfl (by decide)
  have text : (call "isNull" [call "not" [ident "a"]]).text = "NOT a IS NULL" := by decide
  have accepted : ofExprText .generic "(NOT a) IS NULL" = .ok (call "isNull" [call "not" [ident "a"]]) := by
    simp only [ofExprText,read]
    rfl
  have built : ofExprText .generic "NOT a IS NULL" = .ok (call "not" [call "isNull" [ident "a"]]) := by
    simp only [ofExprText,again]
    rfl
  refine ⟨⟨_,read,.isNull (.nested (.not (.ident a)))⟩,accepted,text,by rw [text,built],?_⟩
  rw [text,built]
  simp [call]

end Node

end JoinTree
