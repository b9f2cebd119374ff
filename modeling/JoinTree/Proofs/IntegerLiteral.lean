import JoinTree.Proofs.Rebuilding

/-!
Integer literals at the limits of 64 bits. Main statement: a numeral below 2^64 builds the number that it stands for, signed if
a signed word holds it; a minus sign right in front of it becomes part of the number if a signed word holds the opposite; and
what is built shows an expression that builds it again.
-/

namespace JoinTree

open Sql
open Text (Numeral)

namespace Constant

-- Numerals, and the opposites of what they build. No word wraps around: each constant holds the number itself.

theorem ofLiteral?_signed (n : Numeral) (long : Bool) (small : n.value < 1 <<< 63) :
    ∃ i : Int64, i.toInt = n.value ∧ ofLiteral? (.number n.text long) = some (int i) := by
  refine ⟨.ofInt n.value,Int64.toInt_ofInt_of_le (by omega) (by omega),?_⟩
  rw [ofLiteral?,Numeral.text,String.toList_ofList,ofNumeral?,Text.signed64?_natural n.natural?_digits,if_pos small]

theorem ofLiteral?_unsigned (n : Numeral) (long : Bool) (large : 1 <<< 63 ≤ n.value) (bound : n.value < 1 <<< 64) :
    ∃ u : UInt64, u.toNat = n.value ∧ ofLiteral? (.number n.text long) = some (uint u) := by
  refine ⟨.ofNat n.value,UInt64.toNat_ofNat_of_lt' bound,?_⟩
  rw [ofLiteral?,Numeral.text,String.toList_ofList,ofNumeral?,Text.signed64?_natural n.natural?_digits,
    if_neg (Nat.not_lt.mpr large),Text.unsigned64?_natural n.natural?_digits,if_pos bound]

theorem negated?_signed {i : Int64} (positive : 0 ≤ i.toInt) : ∃ j : Int64, j.toInt = -i.toInt ∧ negated? (int i) = some (int j) := by
  have other : i ≠ Int64.minValue := by
    rintro rfl
    exact absurd positive (by decide)
  have high := i.toInt_lt
  refine ⟨-i,?_,if_neg other⟩
  rw [Int64.toInt_neg,Int.bmod_eq_of_le (by omega) (by omega)]

theorem negated?_limit {u : UInt64} (limit : u.toNat ≤ 1 <<< 63) :
    ∃ j : Int64, j.toInt = -u.toNat ∧ negated? (uint u) = some (int j) :=
  ⟨.ofInt (-u.toNat),Int64.toInt_ofInt_of_le (by omega) (by omega),if_pos limit⟩

theorem negated?_beyond {u : UInt64} (beyond : 1 <<< 63 < u.toNat) : negated? (uint u) = none := if_neg (Nat.not_le.mpr beyond)

end Constant

namespace Node

def plussed : Nat → Expr → Expr
  | 0,e => e
  | k + 1,e => .unary .plus (plussed k e)

theorem ofExpr_plussed (k : Nat) (e : Expr) : ofExpr (plussed k e) = ofExpr e := by
  induction k with
  | zero => rfl
  | succ k ih => exact ih

-- A tree that is shown as an expression which builds it again.
def IsRestored (n : Node) : Prop := ∃ e, n.surface = .ok (.expr e) ∧ ofExpr e = .ok n

-- Signs are the only thing that a scalar tree without floats can lose.
theorem isRestored_of_foldSigns (scalar : IsScalar n) (whole : ∀ bits, constant (.float bits) ∉ n.nodes)
    (kept : n.foldSigns = n) : n.IsRestored := by
  have floats : n.FloatsRead := ⟨fun bits inside => absurd inside (whole bits),fun bits inside => absurd inside (whole bits)⟩
  obtain ⟨e,shown⟩ := scalar_shown scalar floats
  exact ⟨e,shown.shown,by rw [shown.built,kept]⟩

theorem int_restored (i : Int64) : (constant (.int i)).IsRestored :=
  isRestored_of_foldSigns (.constant _ trivial) (by simp [nodes]) rfl

theorem uint_restored (large : 1 <<< 63 ≤ u.toNat) : (constant (.uint u)).IsRestored :=
  isRestored_of_foldSigns (.constant _ large) (by simp [nodes]) rfl

-- The minus sign stays outside, as no signed word holds the number with it.
theorem negate_restored (beyond : 1 <<< 63 < u.toNat) : (call "negate" [constant (.uint u)]).IsRestored := by
  have large : Constant.IsNormal (.uint u) := Nat.le_of_lt beyond
  refine isRestored_of_foldSigns (.call _ _ (by simpa using IsScalar.constant _ large)) (by simp [call,nodes,nodesList]) ?_
  have kept : folded? "negate" [constant (.uint u)] = none := by simp [folded?,Constant.negated?_beyond beyond]
  exact foldSigns_call kept

theorem ofExpr_literal (read : Constant.ofLiteral? l = some c) : ofExpr (.literal l) = .ok (constant c) := by
  simp only [ofExpr,Constant.ofLiteral,read]
  rfl

theorem ofExpr_negated (read : Constant.ofLiteral? l = some c) (opposite : c.negated? = some c') :
    ofExpr (.unary .minus (.literal l)) = .ok (constant c') := by
  have folded : negatedLiteral? (.literal l) = .ok (some c') := by
    simp only [negatedLiteral?,Constant.ofLiteral,read,← opposite]
    rfl
  simp only [ofExpr,folded]
  rfl

theorem ofExpr_unfolded (read : Constant.ofLiteral? l = some c) (opposite : c.negated? = none) :
    ofExpr (.unary .minus (.literal l)) = .ok (call "negate" [constant c]) := by
  have unfolded : negatedLiteral? (.literal l) = .ok none := by
    simp only [negatedLiteral?,Constant.ofLiteral,read,← opposite]
    rfl
  simp only [ofExpr,unfolded,Constant.ofLiteral,read]
  rfl

-- A numeral below 2^64 builds the number itself, signed if a signed word holds it and unsigned otherwise. With a minus sign right
-- in front of it, it builds the opposite if a signed word holds that, the least one included, and else a call that negates it.
-- Plus signs change nothing, and what is built shows an expression that builds it again.
theorem ofExpr_integer (n : Numeral) (bound : n.value < 1 <<< 64) (long : Bool) (plusses : Nat) :
    let numeral : Expr := .literal (.number n.text long)
    (∃ tree, ofExpr (plussed plusses numeral) = .ok tree ∧ tree.IsRestored ∧
      if n.value < 1 <<< 63 then ∃ i : Int64, i.toInt = n.value ∧ tree = constant (.int i)
      else ∃ u : UInt64, u.toNat = n.value ∧ tree = constant (.uint u)) ∧
    ∃ tree, ofExpr (plussed plusses (.unary .minus numeral)) = .ok tree ∧ tree.IsRestored ∧
      if n.value ≤ 1 <<< 63 then ∃ i : Int64, i.toInt = -n.value ∧ tree = constant (.int i)
      else ∃ u : UInt64, u.toNat = n.value ∧ tree = call "negate" [constant (.uint u)] := by
  intro numeral
  rw [ofExpr_plussed,ofExpr_plussed]
  by_cases small : n.value < 1 <<< 63
  · obtain ⟨i,holds,read⟩ := Constant.ofLiteral?_signed n long small
    obtain ⟨j,opposite,negated⟩ := Constant.negated?_signed (i := i) (by omega)
    refine ⟨⟨_,ofExpr_literal read,int_restored i,?_⟩,⟨_,ofExpr_negated read negated,int_restored j,?_⟩⟩
    · rw [if_pos small]
      exact ⟨i,holds,rfl⟩
    · rw [if_pos (Nat.le_of_lt small)]
      exact ⟨j,by rw [opposite,holds],rfl⟩
  · have large : 1 <<< 63 ≤ n.value := Nat.not_lt.mp small
    obtain ⟨u,holds,read⟩ := Constant.ofLiteral?_unsigned n long large bound
    refine ⟨⟨_,ofExpr_literal read,uint_restored (holds ▸ large),?_⟩,?_⟩
    · rw [if_neg small]
      exact ⟨u,holds,rfl⟩
    · by_cases limit : n.value ≤ 1 <<< 63
      · obtain ⟨j,opposite,negated⟩ := Constant.negated?_limit (u := u) (holds ▸ limit)
        refine ⟨_,ofExpr_negated read negated,int_restored j,?_⟩
        rw [if_pos limit]
        exact ⟨j,by rw [opposite,holds],rfl⟩
      · have beyond : 1 <<< 63 < u.toNat := by omega
        refine ⟨_,ofExpr_unfolded read (Constant.negated?_beyond beyond),negate_restored beyond,?_⟩
        rw [if_neg limit]
        exact ⟨u,holds,rfl⟩

-- `++-0009223372036854775808` is the least signed number, and without the minus sign it is an unsigned one.
theorem ofExpr_integer_least : ∃ n : Numeral,
    let numeral : Expr := .literal (.number n.text false)
    n.text = "0009223372036854775808" ∧ n.value = 1 <<< 63 ∧ n.value < 1 <<< 64 ∧
      ofExpr (plussed 2 numeral) = .ok (constant (.uint 9223372036854775808)) ∧
      ofExpr (plussed 2 (.unary .minus numeral)) = .ok (constant (.int Int64.minValue)) ∧
      (constant (.int Int64.minValue)).IsRestored := by
  let n : Numeral := ⟨"0009223372036854775808".toList,by decide,List.all_eq_true.mp (by decide)⟩
  have least : n.value = 1 <<< 63 := by decide +kernel
  have bound : n.value < 1 <<< 64 := by decide +kernel
  obtain ⟨⟨_,unsigned,_,plain⟩,⟨_,signed,restored,opposite⟩⟩ := ofExpr_integer n bound false 2
  rw [if_neg (by decide +kernel)] at plain
  rw [if_pos (by decide +kernel)] at opposite
  obtain ⟨u,holds,rfl⟩ := plain
  obtain ⟨i,holds',rfl⟩ := opposite
  obtain rfl : u = 9223372036854775808 := UInt64.toNat_inj.mp (holds.trans least)
  obtain rfl : i = Int64.minValue := Int64.toInt_inj.mp (by rw [holds',least]; rfl)
  exact ⟨n,String.ofList_toList,least,bound,unsigned,signed,restored⟩

end Node

end JoinTree
