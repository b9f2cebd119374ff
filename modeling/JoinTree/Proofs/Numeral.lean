import JoinTree.Text.Blank
import JoinTree.Tree.Constant

/-!
Numerals that read back as the number they were written for.
-/

namespace JoinTree

open Sql

namespace Text

theorem isBlank_digit (digit : c.isDigit = true) : isBlank c = false := by
  simp only [Char.isDigit,Bool.and_eq_true,decide_eq_true_eq,ge_iff_le,UInt32.le_iff_toNat_le] at digit
  have low : 48 ≤ c.toNat := digit.1
  have high : c.toNat ≤ 57 := digit.2
  simp only [isBlank,Bool.or_eq_false_iff,Bool.and_eq_false_iff,decide_eq_false_iff_not]
  omega

-- One or more decimal digits. Zeros may lead.
structure Numeral where
  digits : List Char
  filled : digits ≠ []
  decimal : ∀ c ∈ digits, c.isDigit = true

namespace Numeral

def value (n : Numeral) : Nat := Nat.ofDigitChars 10 n.digits 0

def text (n : Numeral) : String := .ofList n.digits

-- The numeral of a number without zeros in front.
def ofNat (n : Nat) : Numeral where
  digits := Nat.toDigits 10 n
  filled := Nat.toDigits_ne_nil
  decimal := fun _ member => Nat.isDigit_of_mem_toDigits (by decide) (by decide) member

theorem value_ofNat (n : Nat) : (ofNat n).value = n := Nat.ofDigitChars_ten_toDigits

theorem natural?_digits (n : Numeral) : natural? n.digits = some n.value := by
  have digits : n.digits.all Char.isDigit = true := List.all_eq_true.mpr n.decimal
  simp [natural?,digits,n.filled,value,digitsValue,Nat.ofDigitChars,Nat.mul_comm]

theorem trimChars_digits (n : Numeral) : trimChars n.digits = n.digits := by
  have visible : ∀ c ∈ n.digits, (!isBlank c) = true := fun c inside => by rw [isBlank_digit (n.decimal c inside)]; rfl
  refine trimChars_exact ?_ ?_
  · exact (Option.all_eq_true _ _).mpr fun c first => visible c (List.mem_of_head? first)
  · exact (Option.all_eq_true _ _).mpr fun c last => visible c (List.mem_of_getLast? last)

end Numeral

theorem natural?_toDigits (n : Nat) : natural? (Nat.toDigits 10 n) = some n := by
  have read := (Numeral.ofNat n).natural?_digits
  rwa [Numeral.value_ofNat] at read

theorem natural?_head (other : c.isDigit = false) : natural? (c :: cs) = none := by
  simp [natural?,other]

-- A numeral starts with neither sign.
theorem natural?_start (read : natural? cs = some n) (other : c.isDigit = false) : cs.head? ≠ some c := by
  intro first
  obtain ⟨rest,rfl⟩ := List.head?_eq_some_iff.mp first
  rw [natural?_head other] at read
  cases read

theorem signed64?_natural (read : natural? cs = some n) : signed64? cs = if n < 1 <<< 63 then some (n : Int) else none := by
  unfold signed64?
  rw [if_neg (natural?_start read rfl),if_neg (natural?_start read rfl),read]
  split <;> simp_all [Option.filter]

theorem signed64?_minus (read : natural? cs = some n) :
    signed64? ('-' :: cs) = if n ≤ 1 <<< 63 then some (-(n : Int)) else none := by
  simp only [signed64?,List.head?_cons,if_true,List.tail_cons,read]
  split <;> simp_all [Option.filter]

theorem unsigned64?_natural (read : natural? cs = some n) : unsigned64? cs = if n < 1 <<< 64 then some n else none := by
  unfold unsigned64?
  rw [if_neg (natural?_start read rfl),read]
  split <;> simp_all [Option.filter]

end Text

namespace Constant

open Text

theorem toString_toList (n : Int) :
    (toString n).toList = if 0 ≤ n then Nat.toDigits 10 n.toNat else '-' :: Nat.toDigits 10 (-n).toNat := by
  rw [Int.toString_eq_repr,Int.repr_eq_if]
  split <;> simp

theorem ofNumeral?_int (n : Int64) : ofNumeral? (toString n.toInt).toList = some (int n) := by
  have low := n.le_toInt
  have high := n.toInt_lt
  unfold ofNumeral?
  rw [toString_toList]
  by_cases sign : 0 ≤ n.toInt
  · rw [if_pos sign,signed64?_natural (natural?_toDigits _),if_pos (by omega),Int.toNat_of_nonneg sign]
    simp
  · rw [if_neg sign,signed64?_minus (natural?_toDigits _),if_pos (by omega),Int.toNat_of_nonneg (by omega)]
    simp

-- A numeral below 2^63 reads as a signed number.
theorem ofNumeral?_uint (n : UInt64) :
    ofNumeral? (toString n.toNat).toList = some (if n.toNat < 1 <<< 63 then int (.ofInt n.toNat) else uint n) := by
  have high : n.toNat < 1 <<< 64 := n.toNat_lt
  unfold ofNumeral?
  rw [Nat.toString_eq_repr,Nat.toList_repr,signed64?_natural (natural?_toDigits _),
    unsigned64?_natural (natural?_toDigits _),if_pos high]
  by_cases small : n.toNat < 1 <<< 63
  · simp only [if_pos small]
  · simp only [if_neg small,UInt64.ofNat_toNat]

end Constant

namespace Binary64

-- The opposite number differs in nothing but its sign.

theorem exponentField_negate (bits : UInt64) : exponentField (negate bits) = exponentField bits := by
  simp only [exponentField,negate,UInt64.toNat_xor,Nat.shiftRight_xor_distrib,Nat.one_shiftLeft,Nat.xor_mod_two_pow]
  simp [signBit]

theorem fractionField_negate (bits : UInt64) : fractionField (negate bits) = fractionField bits := by
  simp only [fractionField,negate,UInt64.toNat_xor,Nat.one_shiftLeft,Nat.xor_mod_two_pow]
  simp [signBit]

theorem isFinite_negate (bits : UInt64) : isFinite (negate bits) = isFinite bits := by
  simp only [isFinite,exponentField_negate]

theorem magnitude_negate (bits : UInt64) : magnitude (negate bits) = magnitude bits := by
  simp only [magnitude,exponentField_negate,fractionField_negate]

theorem isNegative_iff (bits : UInt64) : isNegative bits = true ↔ 1 <<< 63 ≤ bits.toNat := by
  simp [isNegative,signBit,UInt64.le_iff_toNat_le]

theorem isNegative_negate (positive : isNegative bits = false) : isNegative (negate bits) = true := by
  have small : bits.toNat < 1 <<< 63 := by
    have not_large := mt (isNegative_iff bits).mpr (by simp [positive])
    omega
  rw [isNegative_iff]
  have none : bits.toNat >>> 63 = 0 := by
    rw [Nat.shiftRight_eq_div_pow]
    exact Nat.div_eq_of_lt small
  have top : (negate bits).toNat >>> 63 = 1 := by
    simp only [negate,UInt64.toNat_xor,Nat.shiftRight_xor_distrib,none]
    simp [signBit]
  omega

-- The text of a finite number without its sign.
def unsignedText (m : Magnitude) : List Char :=
  if m.mantissa = 0 then ['0','.','0']
  else if -3 ≤ (significand m).2 ∧ (significand m).2 ≤ 16 then positional (significand m).1 (significand m).2
  else scientific (significand m).1 (significand m).2

theorem text_toList (finite : isFinite bits = true) :
    (text bits).toList = (if isNegative bits then ['-'] else []) ++ unsignedText (magnitude bits) := by
  have number : isNaN bits = false := by
    simp only [isFinite,decide_eq_true_eq] at finite
    simp only [isNaN,Bool.and_eq_false_iff,decide_eq_false_iff_not]
    omega
  have sign : (if isNegative bits then "-" else "").toList = if isNegative bits then ['-'] else [] := by
    split <;> rfl
  unfold text textBy unsignedText
  simp only [number,finite,Bool.not_true,Bool.false_eq_true,if_false]
  split
  · rw [String.toList_append,sign]
    rfl
  · rw [String.toList_append,sign,String.toList_ofList]
    simp

theorem significand_digits (m : Magnitude) : ∃ k, (significand m).1 = Nat.toDigits 10 k := ⟨_,rfl⟩

theorem unsignedText_head (m : Magnitude) : ∃ c cs, unsignedText m = c :: cs ∧ c.isDigit = true := by
  obtain ⟨k,written⟩ := significand_digits m
  have digits : ∀ c ∈ Nat.toDigits 10 k, c.isDigit = true := fun c member =>
    Nat.isDigit_of_mem_toDigits (by decide) (by decide) member
  unfold unsignedText
  rw [written]
  cases first : Nat.toDigits 10 k with
  | nil => exact absurd first Nat.toDigits_ne_nil
  | cons d ds =>
    have digit : d.isDigit = true := digits d (by simp [first])
    split
    · exact ⟨'0',_,rfl,rfl⟩
    · split
      · unfold positional
        split
        · exact ⟨'0',_,rfl,rfl⟩
        · rename_i above
          dsimp only
          split
          · exact ⟨d,_,rfl,digit⟩
          · obtain ⟨n,positive⟩ : ∃ n, (significand m).2.toNat = n + 1 := ⟨(significand m).2.toNat - 1,by omega⟩
            rw [positive]
            exact ⟨d,_,rfl,digit⟩
      · unfold scientific
        cases ds with
        | nil => exact ⟨d,_,rfl,digit⟩
        | cons e ds => exact ⟨d,_,rfl,digit⟩

end Binary64

namespace Constant

open Text

-- A number is signed if it fits a signed word.
def IsNormal : Constant → Prop
  | uint n => 1 <<< 63 ≤ n.toNat
  | _ => True

theorem unsigned64?_large (signed : signed64? cs = none) (read : unsigned64? cs = some n) : 1 <<< 63 ≤ n ∧ n < 1 <<< 64 := by
  simp only [unsigned64?,Option.filter_eq_some_iff,decide_eq_true_eq] at read
  obtain ⟨digits,bound⟩ := read
  refine ⟨?_,bound⟩
  unfold signed64? at signed
  by_cases minus : cs.head? = some '-'
  · obtain ⟨rest,rfl⟩ : ∃ rest, cs = '-' :: rest := ⟨cs.tail,by cases cs <;> simp_all⟩
    simp [natural?_head] at digits
  · rw [if_neg minus,digits] at signed
    simpa using signed

theorem ofNumeral?_normal (read : ofNumeral? cs = some c) : c.IsNormal := by
  unfold ofNumeral? at read
  split at read
  · cases read; exact trivial
  · rename_i signed
    split at read
    · rename_i n unsigned
      cases read
      obtain ⟨large,bound⟩ := unsigned64?_large signed unsigned
      show 1 <<< 63 ≤ (UInt64.ofNat n).toNat
      rwa [UInt64.toNat_ofNat_of_lt' bound]
    · obtain ⟨bits,_,rfl⟩ := Option.map_eq_some_iff.mp read
      exact trivial

theorem ofLiteral?_normal (read : ofLiteral? l = some c) : c.IsNormal := by
  unfold ofLiteral? at read
  split at read
  · exact ofNumeral?_normal read
  all_goals cases read
  all_goals exact trivial

theorem negated?_normal (opposite : negated? c = some c') : c'.IsNormal := by
  unfold negated? at opposite
  split at opposite
  · split at opposite <;> cases opposite
    exact trivial
  · split at opposite <;> cases opposite
    exact trivial
  · cases opposite; exact trivial
  · cases opposite

theorem Binary64.ofNumeral?_unsigned (plus : c ≠ '+') (minus : c ≠ '-') :
    Binary64.ofNumeral? (c :: cs) = Binary64.unsignedNumeral? (c :: cs) := by
  unfold Binary64.ofNumeral?
  split
  · rename_i same
    cases same
    exact absurd rfl minus
  · rename_i same
    cases same
    exact absurd rfl plus
  · rfl

-- A float whose text reads back as it.
def ReadsBack (bits : UInt64) : Prop := ofNumeral? (Binary64.text bits).toList = some (float bits)

-- So does the opposite of a float that does.
theorem readsBack_negate (finite : Binary64.isFinite bits = true) (positive : Binary64.isNegative bits = false)
    (read : ReadsBack bits) : ReadsBack (Binary64.negate bits) := by
  unfold ReadsBack at read ⊢
  rw [Binary64.text_toList finite,positive] at read
  rw [Binary64.text_toList (by rw [Binary64.isFinite_negate]; exact finite),Binary64.isNegative_negate positive,
    Binary64.magnitude_negate]
  obtain ⟨c,cs,shown,digit⟩ := Binary64.unsignedText_head (Binary64.magnitude bits)
  have plus : c ≠ '+' := by rintro rfl; cases digit
  have minus : c ≠ '-' := by rintro rfl; cases digit
  simp only [shown,Bool.false_eq_true,if_false,if_true,List.nil_append,List.cons_append] at read ⊢
  unfold ofNumeral? at read ⊢
  have float_read {x : Option UInt64} (read : x.map float = some (float bits)) : x = some bits := by
    obtain ⟨bits',found,same⟩ := Option.map_eq_some_iff.mp read
    cases same
    exact found
  have whole : signed64? ('-' :: c :: cs) = none ∧ unsigned64? ('-' :: c :: cs) = none ∧
      Binary64.unsignedNumeral? (c :: cs) = some bits := by
    cases number : natural? (c :: cs) with
    | none =>
      simp only [signed64?,unsigned64?,List.head?_cons,Option.some.injEq,plus,minus,if_false,number,Option.filter_none,
        Option.map_none,Binary64.ofNumeral?_unsigned plus minus] at read
      exact ⟨by simp [signed64?,number],by simp [unsigned64?,natural?_head],float_read read⟩
    | some n =>
      simp only [signed64?,unsigned64?,List.head?_cons,Option.some.injEq,plus,minus,if_false,number] at read
      by_cases small : n < 1 <<< 64
      · by_cases signed : n < 1 <<< 63 <;>
          simp only [Option.filter,small,signed,decide_true,decide_false,if_true,Bool.false_eq_true,if_false,Option.map_some,
            Option.map_none] at read <;> cases read
      · have signed : ¬ n ≤ 1 <<< 63 := by omega
        have strict : ¬ n < 1 <<< 63 := by omega
        simp only [Option.filter,small,strict,decide_false,Bool.false_eq_true,if_false,Option.map_none,
          Binary64.ofNumeral?_unsigned plus minus] at read
        exact ⟨by simpa [signed64?,number,Option.filter] using signed,by simp [unsigned64?,natural?_head],float_read read⟩
  simp [whole,Binary64.ofNumeral?]

end Constant

end JoinTree
