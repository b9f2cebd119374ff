import JoinTree.Proofs.PlainReading

/-!
Which plain expressions the levels of their operators hold together, and why the signs of a plain expression belong to
no other one of the same shape.
-/

namespace JoinTree.Sql

def BinaryOp.level : BinaryOp → Nat
  | .and => BindingLevel.conjunction
  | .or => BindingLevel.disjunction
  | .plus | .minus => BindingLevel.sum
  | .multiply | .divide | .modulo | .concat => BindingLevel.product
  | _ => BindingLevel.comparison

namespace Sign

def level : Sign → Nat
  | op o => o.level
  | is => BindingLevel.test
  | _ => 0

-- How tightly the first sign binds, 0 if it does not bind at all.
def levelAhead (ss : List Sign) : Nat := (ss.head?.map level).getD 0

end Sign

namespace Expr

-- The highest level that an operator behind an expression may have without being taken into the last operand.
def tail : Expr → Nat
  | binary _ op r => min op.level r.tail
  | unary .not e => min BindingLevel.negation e.tail
  | unary _ e => min BindingLevel.product e.tail
  | _ => BindingLevel.path

-- Plain expressions that are held together as they are where only operators above the level are taken: each operator
-- binds tighter than the level, its left operand ends in front of it, and its right operand ends in front of the next
-- operator that binds no tighter.
inductive Bound (d : Dialect) : Nat → Expr → Prop where
  | ident : d.isPlainName v = true → Bound d level (.ident ⟨v,none⟩)
  | binary (op : BinaryOp) : op.isPlain = true → level < op.level → Bound d level l → op.level ≤ l.tail →
      Bound d op.level r → Bound d level (.binary l op r)
  | not : Bound d BindingLevel.negation e → Bound d level (.unary .not e)
  | minus : Bound d BindingLevel.product e → Bound d level (.unary .minus e)
  | nested : Bound d 0 e → Bound d level (.nested e)
  | isNull : level < BindingLevel.test → Bound d level e → BindingLevel.test ≤ e.tail → Bound d level (.isNull e)
  | isNotNull : level < BindingLevel.test → Bound d level e → BindingLevel.test ≤ e.tail → Bound d level (.isNotNull e)
  | call (f : String) (args : List Expr) : d.isPlainName f = true → (∀ a ∈ args, Bound d 0 a) →
      Bound d level (.call { name := .ofIdents [⟨f,none⟩] } args)

theorem bound_plain (bound : Bound d level e) : IsPlain d e := by
  induction bound with
  | ident name => exact .ident name
  | binary op known _ _ _ _ ihl ihr => exact .binary op known ihl ihr
  | not _ ih => exact .not ih
  | minus _ ih => exact .minus ih
  | nested _ ih => exact .nested ih
  | isNull _ _ _ ih => exact .isNull ih
  | isNotNull _ _ _ ih => exact .isNotNull ih
  | call f args name _ ih => exact .call f args name ih

theorem bound_mono (bound : Bound d level e) (below : level' ≤ level) : Bound d level' e := by
  induction bound with
  | ident name => exact .ident name
  | binary op known above _ tail right ihl _ =>
    exact .binary op known (Nat.lt_of_le_of_lt below above) (ihl below) tail right
  | not inner => exact .not inner
  | minus inner => exact .minus inner
  | nested inner => exact .nested inner
  | isNull above _ tail ih => exact .isNull (Nat.lt_of_le_of_lt below above) (ih below) tail
  | isNotNull above _ tail ih => exact .isNotNull (Nat.lt_of_le_of_lt below above) (ih below) tail
  | call f args name inner => exact .call f args name inner

theorem signsList_length (es : List Expr) : es.length ≤ (signsList es).length + 1 := by
  induction es with
  | nil => exact Nat.zero_le _
  | cons e es ih =>
    cases es with
    | nil => simp
    | cons b es =>
      rw [signsList_cons e (b :: es) (by simp)]
      simp only [List.length_cons,List.length_append] at ih ⊢
      omega

-- How many levels of nesting an expression takes to be read.
mutual
def levels : Expr → Nat
  | binary l _ r => max l.levels (r.levels + 1)
  | unary _ e | nested e => e.levels + 1
  | isNull e | isNotNull e => e.levels
  | call _ args => levelsList args + 1
  | _ => 1
def levelsList : List Expr → Nat
  | [] => 0
  | e :: es => max e.levels (levelsList es)
end

theorem levels_pos (e : Expr) : 0 < e.levels := by
  cases e with
  | isNull e | isNotNull e => exact levels_pos e
  | binary l op r => exact Nat.lt_of_lt_of_le (Nat.succ_pos _) (Nat.le_max_right _ _)
  | _ => exact Nat.succ_pos _

theorem levelsList_le : levelsList es ≤ n ↔ ∀ e ∈ es, e.levels ≤ n := by
  induction es with
  | nil => simp [levelsList]
  | cons e es ih => rw [levelsList,Nat.max_le,ih,List.forall_mem_cons]

end Expr

namespace Sign

theorem regular_operand_opened (regular : Regular d .operand ss) : Regular d .opened ss := by
  refine regular_wider (fun s q step => ?_) regular
  cases s with
  | op o => cases o <;> exact step
  | _ => first | exact step | cases step

end Sign

namespace Expr

open Sign (Regular regular_cons)

theorem signsList_regular (es : List Expr) (some : es ≠ [])
    (each : ∀ e ∈ es, ∀ {more}, Regular d .behind more → Regular d .operand (e.signs ++ more))
    (closed : Regular d .behind (.rparen :: more)) : Regular d .operand (signsList es ++ .rparen :: more) := by
  induction es with
  | nil => exact absurd rfl some
  | cons e es ih =>
    cases es with
    | nil => exact each e (by simp) closed
    | cons b es =>
      rw [signsList_cons e (b :: es) (by simp),List.append_assoc]
      have later := ih (by simp) fun c member => each c (by simp [member])
      exact each e (by simp) (regular_cons.mpr ⟨.operand,rfl,later⟩)

-- The signs of a plain expression stand where its operands are asked for.
theorem signs_regular (plain : IsPlain d e) (behind : Regular d .behind more) : Regular d .operand (e.signs ++ more) := by
  induction plain generalizing more with
  | ident name => exact regular_cons.mpr ⟨.named,by simp [Sign.Place.next,name],Sign.regular_behind_named behind⟩
  | binary op known left right ihl ihr =>
    simp only [signs,List.append_assoc,List.cons_append]
    exact ihl (regular_cons.mpr ⟨.operand,by simp [Sign.Place.next,known],ihr behind⟩)
  | not inner ih => exact regular_cons.mpr ⟨.operand,rfl,ih behind⟩
  | minus inner ih => exact regular_cons.mpr ⟨.operand,rfl,ih behind⟩
  | nested inner ih =>
    simp only [signs,List.append_assoc,List.cons_append]
    exact regular_cons.mpr ⟨.operand,rfl,ih (regular_cons.mpr ⟨.behind,rfl,behind⟩)⟩
  | isNull inner ih =>
    simp only [signs,List.append_assoc]
    exact ih (regular_cons.mpr ⟨.test,rfl,regular_cons.mpr ⟨.behind,rfl,behind⟩⟩)
  | isNotNull inner ih =>
    simp only [signs,List.append_assoc]
    exact ih (regular_cons.mpr ⟨.test,rfl,regular_cons.mpr ⟨.negatedTest,rfl,regular_cons.mpr ⟨.behind,rfl,behind⟩⟩⟩)
  | call f args name inner ih =>
    have closed : Regular d .behind (.rparen :: more) := regular_cons.mpr ⟨.behind,rfl,behind⟩
    have list : Regular d .opened (signsList args ++ .rparen :: more) := by
      cases args with
      | nil => exact regular_cons.mpr ⟨.behind,rfl,behind⟩
      | cons a args =>
        exact Sign.regular_operand_opened (signsList_regular (a :: args) (by simp) (fun b member _ => ih b member) closed)
    simp only [signs,name_text,List.append_assoc,List.cons_append,List.nil_append]
    exact regular_cons.mpr ⟨.named,by simp [Sign.Place.next,name],regular_cons.mpr ⟨.opened,rfl,list⟩⟩

-- Whether NOT is nowhere a name and no parentheses hold several items.
mutual
def isClear : Expr → Bool
  | ident i => i.value ≠ "NOT"
  | binary l _ r => l.isClear && r.isClear
  | unary _ e | nested e | isNull e | isNotNull e => e.isClear
  | call h args => h.name.text ≠ "NOT" && areClear args
  | tuple _ => false
  | _ => true
def areClear : List Expr → Bool
  | [] => true
  | e :: es => e.isClear && areClear es
end

theorem areClear_all : areClear es = true ↔ ∀ e ∈ es, e.isClear = true := by
  induction es with
  | nil => simp [areClear]
  | cons e es ih => simp [areClear,ih]

-- Without parentheses around whole operands.
mutual
def bare : Expr → Expr
  | nested e => e.bare
  | binary l op r => binary l.bare op r.bare
  | unary op e => unary op e.bare
  | isNull e => isNull e.bare
  | isNotNull e => isNotNull e.bare
  | call h args => call h (bareList args)
  | e => e
def bareList : List Expr → List Expr
  | [] => []
  | e :: es => e.bare :: bareList es
end

end Expr

-- Whether a sign is more than a parenthesis.
def Sign.isSolid : Sign → Bool
  | lparen | rparen => false
  | _ => true

namespace Expr

open Sign (isSolid)

theorem bareList_signs (es : List Expr) (each : ∀ e ∈ es, e.bare.signs.countP isSolid = e.signs.countP isSolid) :
    (signsList (bareList es)).countP isSolid = (signsList es).countP isSolid := by
  induction es with
  | nil => rfl
  | cons e es ih =>
    have first := each e (by simp)
    have rest := ih fun b member => each b (by simp [member])
    cases es with
    | nil => exact first
    | cons b es =>
      rw [bareList,signsList_cons e (b :: es) (by simp),signsList_cons e.bare (bareList (b :: es)) (by simp [bareList])]
      simp [List.countP_cons,first,rest]

theorem bare_signs (plain : IsPlain d e) : e.bare.signs.countP isSolid = e.signs.countP isSolid := by
  induction plain with
  | ident => rfl
  | not inner ih | minus inner ih => simp [bare,signs,List.countP_cons,ih]
  | binary op known left right ihl ihr => simp [bare,signs,List.countP_cons,ihl,ihr]
  | nested inner ih => simp [bare,signs,ih,isSolid]
  | isNull inner ih | isNotNull inner ih => simp [bare,signs,ih]
  | call f args name inner ih => simp [bare,signs,List.countP_cons,bareList_signs args ih]

-- What stands between the parenthesis that opens an expression and the one that closes it.
theorem signs_led (plain : IsPlain d e) :
    (∃ x more, IsPlain d x ∧ e.signs = .lparen :: (x.signs ++ .rparen :: more) ∧
      (e = .nested x ∨ 0 < more.countP isSolid)) ∨
    ∃ s more, e.signs = s :: more ∧ s ≠ .lparen := by
  induction plain with
  | ident | not | minus | call => exact .inr ⟨_,_,rfl,by simp⟩
  | @nested e inner => exact .inl ⟨e,[],inner,rfl,.inl rfl⟩
  | @binary l r op known left right ihl =>
    rcases ihl with ⟨x,more,inner,shown,_⟩ | ⟨s,more,shown,other⟩
    · refine .inl ⟨x,more ++ .op op :: r.signs,inner,by simp [signs,shown],.inr ?_⟩
      simp only [List.countP_append,List.countP_cons,isSolid,if_true]
      omega
    · exact .inr ⟨s,_,by rw [signs,shown]; rfl,other⟩
  | isNull inner ih =>
    rcases ih with ⟨x,more,inner,shown,_⟩ | ⟨s,more,shown,other⟩
    · exact .inl ⟨x,more ++ [.is,.null],inner,by simp [signs,shown],.inr (by simp [List.countP_cons,isSolid])⟩
    · exact .inr ⟨s,_,by rw [signs,shown]; rfl,other⟩
  | isNotNull inner ih =>
    rcases ih with ⟨x,more,inner,shown,_⟩ | ⟨s,more,shown,other⟩
    · exact .inl ⟨x,more ++ [.is,.not,.null],inner,by simp [signs,shown],.inr (by simp [List.countP_cons,isSolid])⟩
    · exact .inr ⟨s,_,by rw [signs,shown]; rfl,other⟩

end Expr

namespace Sign

-- The signs up to the parenthesis that closes the last of the open ones.
def inside : (opened : Nat) → List Sign → List Sign
  | _, [] => []
  | n, lparen :: ss => lparen :: inside (n + 1) ss
  | 0, rparen :: _ => []
  | n + 1, rparen :: ss => rparen :: inside n ss
  | n, s :: ss => s :: inside n ss

end Sign

namespace Expr

open Sign (inside isSolid)

theorem inside_signs (plain : IsPlain d e) (n : Nat) (more : List Sign) :
    inside n (e.signs ++ more) = e.signs ++ inside n more := by
  induction plain generalizing n more with
  | ident => simp [signs,inside]
  | not inner ih | minus inner ih => simp [signs,inside,ih]
  | binary op known left right ihl ihr => simp [signs,ihl,inside,ihr]
  | nested inner ih => simp [signs,inside,ih]
  | isNull inner ih | isNotNull inner ih => simp [signs,inside,ih]
  | call f args name inner ih =>
    have list (n : Nat) (more : List Sign) : inside n (signsList args ++ more) = signsList args ++ inside n more := by
      clear inner
      induction args generalizing n more with
      | nil => rfl
      | cons a args later =>
        have first := ih a (by simp)
        have rest := later fun b member => ih b (by simp [member])
        cases args with
        | nil => exact first n more
        | cons b args =>
          rw [signsList_cons a (b :: args) (by simp)]
          simp [first,inside,rest]
    simp [signs,inside,list]

-- Parentheses around a whole expression close behind its last operator, those around its first operand do not.
theorem nested_distinct (left : IsPlain d a) (right : IsPlain d b) (same : a.bare = b.bare) (other : ∀ x, b ≠ .nested x) :
    (Expr.nested a).signs ++ more ≠ b.signs ++ more' := by
  intro shown
  rcases signs_led right with ⟨x,rest,inner,opened,either⟩ | ⟨s,rest,opened,distinct⟩
  · rcases either with rfl | behind
    · exact other x rfl
    · have signs : a.signs ++ .rparen :: more = x.signs ++ .rparen :: (rest ++ more') := by
        simpa [opened,Expr.signs] using shown
      have closed := congrArg (inside 0) signs
      rw [inside_signs left,inside_signs inner] at closed
      have counted := bare_signs left
      rw [same,bare_signs right,opened,← List.append_cancel_right closed] at counted
      simp only [List.countP_cons,List.countP_append,isSolid] at counted
      simp only [Bool.false_eq_true,if_false] at counted
      omega
  · simp only [opened,signs,List.cons_append,List.cons.injEq] at shown
    exact distinct shown.1.symm

-- Arguments up to the parenthesis that closes a call.
theorem signsList_unique (as bs : List Expr) (left : ∀ a ∈ as, IsPlain d a) (right : ∀ b ∈ bs, IsPlain d b)
    (same : bareList as = bareList bs) (shown : signsList as ++ .rparen :: more = signsList bs ++ .rparen :: more')
    (each : ∀ a ∈ as, ∀ {b more more'}, IsPlain d b → a.bare = b.bare → a.signs ++ more = b.signs ++ more' →
      a = b ∧ more = more') : as = bs ∧ more = more' := by
  induction as generalizing bs with
  | nil =>
    cases bs with
    | nil => simpa [signsList] using shown
    | cons b bs => cases same
  | cons a as ih =>
    cases bs with
    | nil => cases same
    | cons b bs =>
      simp only [bareList,List.cons.injEq] at same
      have first {m m'} (shown : a.signs ++ m = b.signs ++ m') : a = b ∧ m = m' :=
        each a (by simp) (right b (by simp)) same.1 shown
      cases as with
      | nil =>
        cases bs with
        | cons c bs => cases same.2
        | nil =>
          obtain ⟨rfl,later⟩ := first shown
          simp only [List.cons.injEq,true_and] at later
          exact ⟨rfl,later⟩
      | cons a' as =>
        cases bs with
        | nil => cases same.2
        | cons b' bs =>
          rw [signsList_cons a (a' :: as) (by simp),signsList_cons b (b' :: bs) (by simp),List.append_assoc,
            List.append_assoc] at shown
          obtain ⟨rfl,later⟩ := first shown
          simp only [List.cons_append,List.cons.injEq,true_and] at later
          obtain ⟨rest,ended⟩ := ih (b' :: bs) (fun c member => left c (by simp [member]))
            (fun c member => right c (by simp [member])) same.2 later fun c member => each c (by simp [member])
          exact ⟨by rw [rest],ended⟩

-- Signs and shape together belong to one expression.
theorem signs_unique (left : IsPlain d a) (right : IsPlain d b) (same : a.bare = b.bare)
    (shown : a.signs ++ more = b.signs ++ more') : a = b ∧ more = more' := by
  induction left generalizing b more more' with
  | ident name =>
    cases right with
    | ident => simp_all [signs,bare]
    | nested => simp [signs] at shown
    | _ => simp [bare] at same
  | not inner ih =>
    cases right with
    | not inner' =>
      simp only [bare,unary.injEq,true_and] at same
      simp only [signs,List.cons_append,List.cons.injEq,true_and] at shown
      obtain ⟨rfl,rfl⟩ := ih inner' same shown
      exact ⟨rfl,rfl⟩
    | nested => simp [signs] at shown
    | _ => simp [bare] at same
  | minus inner ih =>
    cases right with
    | minus inner' =>
      simp only [bare,unary.injEq,true_and] at same
      simp only [signs,List.cons_append,List.cons.injEq,true_and] at shown
      obtain ⟨rfl,rfl⟩ := ih inner' same shown
      exact ⟨rfl,rfl⟩
    | nested => simp [signs] at shown
    | _ => simp [bare] at same
  | @binary l r op known left right' ihl ihr =>
    cases right with
    | binary op' known' left' right =>
      simp only [bare,binary.injEq] at same
      simp only [signs,List.append_assoc,List.cons_append] at shown
      obtain ⟨rfl,later⟩ := ihl left' same.1 shown
      simp only [List.cons.injEq,Sign.op.injEq] at later
      obtain ⟨rfl,later⟩ := later
      obtain ⟨rfl,rfl⟩ := ihr right same.2.2 later
      exact ⟨rfl,rfl⟩
    | nested inner' => exact absurd shown.symm (nested_distinct inner' (.binary op known left right') same.symm (by simp))
    | _ => simp [bare] at same
  | @nested x inner ih =>
    by_cases also : ∃ y, b = .nested y
    · obtain ⟨y,rfl⟩ := also
      cases right with
      | nested inner' =>
        simp only [signs,List.cons_append,List.append_assoc,List.nil_append,List.cons.injEq,true_and] at shown
        obtain ⟨rfl,later⟩ := ih inner' same shown
        simp only [List.cons.injEq,true_and] at later
        exact ⟨rfl,later⟩
    · exact absurd shown (nested_distinct inner right same fun y this => also ⟨y,this⟩)
  | isNull inner ih =>
    cases right with
    | isNull inner' =>
      simp only [bare,isNull.injEq] at same
      simp only [signs,List.append_assoc] at shown
      obtain ⟨rfl,later⟩ := ih inner' same shown
      exact ⟨rfl,List.append_cancel_left later⟩
    | nested inner' => exact absurd shown.symm (nested_distinct inner' (.isNull inner) same.symm (by simp))
    | _ => simp [bare] at same
  | isNotNull inner ih =>
    cases right with
    | isNotNull inner' =>
      simp only [bare,isNotNull.injEq] at same
      simp only [signs,List.append_assoc] at shown
      obtain ⟨rfl,later⟩ := ih inner' same shown
      exact ⟨rfl,List.append_cancel_left later⟩
    | nested inner' => exact absurd shown.symm (nested_distinct inner' (.isNotNull inner) same.symm (by simp))
    | _ => simp [bare] at same
  | call f args name inner ih =>
    cases right with
    | call g args' name' inner' =>
      simp only [bare,call.injEq] at same
      simp only [signs,List.cons_append,List.append_assoc,List.nil_append,List.cons.injEq,true_and] at shown
      obtain ⟨rfl,ended⟩ := signsList_unique args args' inner inner' same.2 shown.2
        fun a member _ _ _ plain alike signs => ih a member plain alike signs
      exact ⟨by rw [same.1],ended⟩
    | nested => simp [signs] at shown
    | _ => simp [bare] at same

end Expr

end JoinTree.Sql
