import JoinTree.Proofs.StringText

/-!
How far a step of the scan looks. Main statement: a token that ends in front of a period is read whatever stands behind the
period.
-/

namespace JoinTree.Sql.Token

-- Texts that are the same up to a period, with the number of characters in front of it.
inductive Alike : Nat → List Char → List Char → Prop where
  | period (x y : List Char) : Alike 0 ('.' :: x) ('.' :: y)
  | next (c : Char) : Alike k l m → Alike (k + 1) (c :: l) (c :: m)

namespace Alike

theorem symm (alike : Alike k l m) : Alike k m l := by
  induction alike with
  | period x y => exact .period y x
  | next c _ ih => exact .next c ih

theorem ofAppend (front x y : List Char) : Alike front.length (front ++ '.' :: x) (front ++ '.' :: y) := by
  induction front with
  | nil => exact .period x y
  | cons c front ih => exact .next c ih

theorem cons (alike : Alike k (c :: l) m) (other : c ≠ '.') : ∃ j m', k = j + 1 ∧ m = c :: m' ∧ Alike j l m' := by
  cases alike with
  | period => exact absurd rfl other
  | next _ rest => exact ⟨_,_,rfl,rfl,rest⟩

theorem head_free (alike : Alike k l m) (free : ∀ t, l = a :: t → False) (other : a ≠ '.') : ∀ t, m = a :: t → False := by
  rintro t rfl
  obtain ⟨_,t,_,same,_⟩ := alike.symm.cons other
  exact free t same

theorem two_free (alike : Alike k l m) (free : ∀ t, l = a :: b :: t → False) (first : a ≠ '.') (second : b ≠ '.') :
    ∀ t, m = a :: b :: t → False := by
  rintro t rfl
  obtain ⟨_,t,_,rfl,rest⟩ := alike.symm.cons first
  obtain ⟨_,t,_,rfl,_⟩ := rest.cons second
  exact free t rfl

theorem head_eq (alike : Alike k l m) : l.head? = m.head? := by
  cases alike <;> rfl

theorem drop (alike : Alike k l m) (within : n ≤ k) : Alike (k - n) (l.drop n) (m.drop n) := by
  induction n generalizing k l m with
  | zero => exact alike
  | succ n ih =>
    cases alike with
    | period => exact absurd within (Nat.not_succ_le_zero n)
    | next c rest =>
      rw [Nat.succ_sub_succ]
      exact ih rest (Nat.le_of_succ_le_succ within)

theorem take_eq (alike : Alike k l m) (within : n ≤ k) : l.take n = m.take n := by
  induction n generalizing k l m with
  | zero => rfl
  | succ n ih =>
    cases alike with
    | period => exact absurd within (Nat.not_succ_le_zero n)
    | next c rest => rw [List.take_succ_cons,List.take_succ_cons,ih rest (Nat.le_of_succ_le_succ within)]

-- What is read up to a character that a period is not one of ends in front of it.
theorem takeWhile_eq {p : Char → Bool} (alike : Alike k l m) (other : p '.' = false) :
    l.takeWhile p = m.takeWhile p ∧ (l.takeWhile p).length ≤ k := by
  induction alike with
  | period => simp [other]
  | next c _ ih =>
    rw [List.takeWhile_cons,List.takeWhile_cons,ih.1]
    split
    · exact ⟨rfl,by simpa [ih.1] using ih.2⟩
    · exact ⟨rfl,Nat.zero_le _⟩

theorem takeWhile_within {p : Char → Bool} (alike : Alike k l m) (within : (l.takeWhile p).length ≤ k) :
    l.takeWhile p = m.takeWhile p := by
  induction alike with
  | period => cases other : p '.' <;> simp_all
  | next c _ ih =>
    rw [List.takeWhile_cons] at within ⊢
    rw [List.takeWhile_cons]
    split
    · rw [if_pos ‹_›] at within
      rw [ih (Nat.le_of_succ_le_succ within)]
    · rfl

theorem lt_length (alike : Alike k l m) : k < l.length := by
  induction alike with
  | period => exact Nat.zero_lt_succ _
  | next _ _ ih => exact Nat.succ_lt_succ ih

theorem take_takeWhile {p : Char → Bool} (alike : Alike k l m) (other : p '.' = false) (n : Nat) :
    (l.take n).takeWhile p = (m.take n).takeWhile p ∧ ((l.take n).takeWhile p).length ≤ k := by
  induction alike generalizing n with
  | period => cases n <;> simp [other]
  | next c _ ih =>
    cases n with
    | zero => simp
    | succ n =>
      rw [List.take_succ_cons,List.take_succ_cons,List.takeWhile_cons,List.takeWhile_cons,(ih n).1]
      split
      · exact ⟨rfl,by simpa [(ih n).1] using (ih n).2⟩
      · exact ⟨rfl,Nat.zero_le _⟩

end Alike

variable {k n : Nat} {l m : List Char}

theorem quotedBody_alike (alike : Alike k l m) (other : q ≠ '.') (read : quotedBody q escapes l = some (v,n)) (within : n ≤ k) :
    quotedBody q escapes m = some (v,n) := by
  fun_induction quotedBody q escapes l generalizing k m v n with
  | case1 | case5 => cases read
  | case2 =>
    cases read
    obtain ⟨_,m,_,rfl,rest⟩ := alike.cons other
    cases rest
  | case3 cs ih =>
    obtain ⟨s,i,inner,rfl,rfl⟩ := map_some read
    obtain ⟨_,m,rfl,rfl,behind⟩ := alike.cons other
    obtain ⟨_,m,rfl,rfl,rest⟩ := behind.cons other
    rw [quotedBody_pair,ih rest inner (by omega)]
    rfl
  | case4 c cs apart =>
    cases read
    obtain ⟨_,m,_,rfl,rest⟩ := alike.cons other
    rw [quotedBody_end]
    rw [← rest.head_eq]
    simpa using apart
  | case6 c apart escape c' cs ih =>
    obtain ⟨s,i,inner,rfl,rfl⟩ := map_some read
    simp only [Bool.and_eq_true,decide_eq_true_eq] at escape
    obtain ⟨rfl,rfl⟩ := escape
    obtain ⟨_,m,rfl,rfl,rest⟩ := alike.cons (by decide)
    cases rest with
    | period => omega
    | next _ rest =>
      rw [quotedBody_escape (Ne.symm apart),ih rest inner (by omega)]
      rfl
  | case7 c cs apart plain ih =>
    obtain ⟨s,i,inner,rfl,rfl⟩ := map_some read
    cases alike with
    | period => omega
    | next _ rest =>
      rw [quotedBody_plain apart (by simpa using plain),ih rest inner (by omega)]
      rfl

theorem take_alike (alike : Alike k l m) (other : q ≠ '.') (n : Nat) : l.take n = List.replicate n q → m.take n = List.replicate n q := by
  induction n generalizing k l m with
  | zero => simp
  | succ n ih =>
    intro all
    cases alike with
    | period => exact absurd (List.cons.inj all).1.symm other
    | next c rest =>
      rw [List.take_succ_cons,List.replicate_succ,List.cons.injEq] at all ⊢
      exact ⟨all.1,ih rest all.2⟩

theorem tripledBody_alike (alike : Alike k l m) (other : q ≠ '.') (read : tripledBody q l = some (v,n)) (within : n ≤ k) :
    tripledBody q m = some (v,n) := by
  fun_induction tripledBody q l generalizing k m v n with
  | case1 => cases read
  | case2 c cs closed =>
    cases read
    have same : (m.take 3) = [q,q,q] := take_alike alike other 3 closed
    cases alike with
    | period => exact absurd (List.cons.inj same).1.symm other
    | next _ rest => rw [tripledBody,if_pos same]
  | case3 c cs opened ih =>
    obtain ⟨s,i,inner,rfl,rfl⟩ := map_some read
    have same : ¬ m.take 3 = [q,q,q] := mt (take_alike alike.symm other 3) opened
    cases alike with
    | period => omega
    | next _ rest =>
      rw [tripledBody,if_neg same,ih rest inner (Nat.le_of_succ_le_succ within)]
      rfl

theorem delimitedBody_alike (alike : Alike k l m) (read : delimitedBody closing l = some (v,n)) (within : n ≤ k) :
    delimitedBody closing m = some (v,n) := by
  fun_induction delimitedBody closing l generalizing k m v n with
  | case1 => cases read
  | case2 c cs closed =>
    cases read
    cases alike with
    | period => omega
    | next _ rest =>
      rw [delimitedBody,← rest.head_eq,if_pos closed]
  | case3 c cs opened ih =>
    obtain ⟨s,i,inner,rfl,rfl⟩ := map_some read
    cases alike with
    | period => omega
    | next _ rest =>
      rw [delimitedBody,← rest.head_eq,if_neg opened,ih rest inner (by omega)]
      rfl

theorem commentBody_alike (alike : Alike k l m) (read : commentBody nests depth l = some (v,n)) (within : n ≤ k) :
    commentBody nests depth m = some (v,n) := by
  fun_induction commentBody nests depth l generalizing k m v n with
  | case1 => cases read
  | case2 depth cs on ih =>
    obtain ⟨s,i,inner,rfl,rfl⟩ := map_some (f := fun s => '/' :: '*' :: s) read
    obtain ⟨_,m,rfl,rfl,behind⟩ := alike.cons (by decide)
    obtain ⟨_,m,rfl,rfl,rest⟩ := behind.cons (by decide)
    rw [commentBody,if_pos on,ih rest inner (by omega)]
    rfl
  | case3 depth cs off ih =>
    obtain ⟨s,i,inner,rfl,rfl⟩ := map_some read
    obtain ⟨_,m,rfl,rfl,behind⟩ := alike.cons (by decide)
    have same := ih behind inner (by omega)
    obtain ⟨_,m,rfl,rfl,_⟩ := behind.cons (by decide)
    rw [commentBody,if_neg off,same]
    rfl
  | case4 cs =>
    cases read
    obtain ⟨_,m,rfl,rfl,behind⟩ := alike.cons (by decide)
    obtain ⟨_,m,rfl,rfl,_⟩ := behind.cons (by decide)
    rfl
  | case5 cs depth ih =>
    obtain ⟨s,i,inner,rfl,rfl⟩ := map_some (f := fun s => '*' :: '/' :: s) read
    obtain ⟨_,m,rfl,rfl,behind⟩ := alike.cons (by decide)
    obtain ⟨_,m,rfl,rfl,rest⟩ := behind.cons (by decide)
    rw [commentBody,ih rest inner (by omega)]
    rfl
  | case6 depth c cs opening closing ih =>
    obtain ⟨s,i,inner,rfl,rfl⟩ := map_some read
    cases alike with
    | period => omega
    | next _ rest =>
      rw [commentBody,ih rest inner (by omega)]
      · rfl
      · exact fun t same => rest.head_free (fun t => opening t same) (by decide) t
      · exact fun t same => rest.head_free (fun t => closing t same) (by decide) t

theorem prefix_alike {mark : List Char} (alike : Alike k l m) (free : '.' ∉ mark) : mark.isPrefixOf l = mark.isPrefixOf m := by
  induction mark generalizing k l m with
  | nil => simp
  | cons c mark ih =>
    rw [List.mem_cons,not_or] at free
    cases alike with
    | period =>
      have other : (c == '.') = false := beq_eq_false_iff_ne.mpr (Ne.symm free.1)
      simp [List.isPrefixOf,other]
    | next a rest => rw [List.isPrefixOf,List.isPrefixOf,ih rest free.2]

theorem dollarBody_alike (alike : Alike k l m) (free : '.' ∉ mark) (read : dollarBody mark l = some v) (within : v.length < k) :
    dollarBody mark m = some v := by
  fun_induction dollarBody mark l generalizing k m v with
  | case1 => cases read
  | case2 c cs closed =>
    cases read
    rw [prefix_alike alike free] at closed
    cases alike with
    | period => cases within
    | next _ rest => rw [dollarBody,if_pos closed]
  | case3 c cs opened ih =>
    obtain ⟨s,inner,rfl⟩ := Option.map_eq_some_iff.mp read
    rw [prefix_alike alike free] at opened
    cases alike with
    | period => cases within
    | next _ rest =>
      rw [dollarBody,if_neg opened,ih rest inner (Nat.lt_of_succ_lt_succ within)]
      rfl

theorem escapedBody_skip (read : escapedBody j cs = some (s,n)) : j < n := by
  fun_induction escapedBody j cs generalizing s n with
  | case1 | case5 | case7 => cases read
  | case2 j _ cs ih =>
    obtain ⟨_,i,inner,_,rfl⟩ := map_some (f := id) read
    exact Nat.succ_lt_succ (ih inner)
  | case4 =>
    cases read
    exact Nat.zero_lt_one
  | case3 | case6 | case8 =>
    obtain ⟨_,i,_,_,rfl⟩ := map_some read
    exact Nat.zero_lt_succ i

theorem fixed_alike (alike : Alike k l m) (read : escapedChar?.fixed l width = some (e,j)) (within : j ≤ k + 1) :
    escapedChar?.fixed m width = some (e,j) := by
  have inside : width ≤ k := by
    simp only [escapedChar?.fixed,Option.ite_none_right_eq_some] at read
    obtain ⟨_,_,shown⟩ := Option.map_eq_some_iff.mp read.2
    cases shown
    exact Nat.le_of_succ_le_succ within
  rw [← read]
  unfold escapedChar?.fixed
  rw [alike.take_eq inside,alike.head_eq]

theorem escapedChar?_alike (alike : Alike k l m) (read : escapedChar? l = some (e,j)) (within : j ≤ k) :
    escapedChar? m = some (e,j) := by
  cases alike with
  | period =>
    cases read
    cases within
  | next c rest =>
    unfold escapedChar? at read
    split at read
    all_goals
      rename_i same
      try cases same
    case h_7.refl | h_8.refl => exact fixed_alike rest read within
    case h_9.refl =>
      rw [(rest.take_takeWhile (p := fun c => (hexValue? c).isSome) rfl 2).1] at read
      exact read
    case h_10.refl =>
      have digits := ((Alike.next c rest).take_takeWhile (p := isOctal) rfl 3).1
      rw [escapedChar?]
      · rw [List.take_succ_cons,List.take_succ_cons] at digits
        rwa [← digits]
      all_goals assumption
    all_goals exact read

theorem escapedBody_alike (alike : Alike k l m) (read : escapedBody j l = some (v,n)) (within : n ≤ k) :
    escapedBody j m = some (v,n) := by
  fun_induction escapedBody j l generalizing k m v n with
  | case1 | case5 | case7 => cases read
  | case2 j c cs ih =>
    obtain ⟨_,i,inner,rfl,rfl⟩ := map_some (f := id) read
    cases alike with
    | period => omega
    | next _ rest =>
      rw [escapedBody,ih rest inner (Nat.le_of_succ_le_succ within)]
      rfl
  | case4 cs apart =>
    cases read
    obtain ⟨_,m,_,rfl,rest⟩ := alike.cons (by decide)
    rw [escapedBody,← rest.head_eq,if_pos rfl,if_neg apart]
  | case3 cs pair ih =>
    obtain ⟨_,i,inner,rfl,rfl⟩ := map_some read
    obtain ⟨_,m,rfl,rfl,rest⟩ := alike.cons (by decide)
    rw [escapedBody,← rest.head_eq,if_pos rfl,if_pos pair,ih rest inner (Nat.le_of_succ_le_succ within)]
    rfl
  | case6 cs e j same plain _ ih =>
    obtain ⟨_,i,inner,rfl,rfl⟩ := map_some read
    obtain ⟨_,m,rfl,rfl,rest⟩ := alike.cons (by decide)
    have within := Nat.le_of_succ_le_succ within
    have escape := escapedChar?_alike rest same (Nat.le_trans (Nat.le_of_lt (escapedBody_skip inner)) within)
    rw [escapedBody,if_neg (by decide),if_pos rfl,escape]
    simp only [if_neg plain]
    rw [ih rest inner within]
    rfl
  | case8 c cs quote plain ih =>
    obtain ⟨_,i,inner,rfl,rfl⟩ := map_some read
    cases alike with
    | period => omega
    | next _ rest =>
      rw [escapedBody,if_neg quote,if_neg plain,ih rest inner (Nat.le_of_succ_le_succ within)]
      rfl

theorem unicodeDigits_alike (alike : Alike k l m) (read : unicodeDigits pos l width = .ok r) :
    unicodeDigits pos m width = .ok r := by
  obtain ⟨same,inside⟩ := alike.take_takeWhile (p := fun c => (hexValue? c).isSome) rfl width
  unfold unicodeDigits at read ⊢
  rw [← same]
  dsimp only at read ⊢
  split at read
  · split at read <;> cases read
  · rename_i enough
    rw [if_neg enough]
    exact read

theorem unicodeBody_alike (alike : Alike k l m) (read : unicodeBody pos j l = .ok (v,n)) (within : n ≤ k) :
    unicodeBody pos j m = .ok (v,n) := by
  fun_induction unicodeBody pos j l generalizing k m v n with
  | case1 => cases read
  | case2 pos j c cs ih =>
    obtain ⟨⟨s,i⟩,inner,shown⟩ := bind_ok.mp read
    cases shown
    cases alike with
    | period => omega
    | next _ rest =>
      rw [unicodeBody,ih rest inner (Nat.le_of_succ_le_succ within)]
      rfl
  | case3 pos cs pair ih =>
    obtain ⟨⟨s,i⟩,inner,shown⟩ := bind_ok.mp read
    cases shown
    obtain ⟨_,m,rfl,rfl,rest⟩ := alike.cons (by decide)
    rw [unicodeBody,← rest.head_eq,if_pos rfl,if_pos pair,ih rest inner (Nat.le_of_succ_le_succ within)]
    rfl
  | case4 pos cs apart =>
    cases read
    obtain ⟨_,m,_,rfl,rest⟩ := alike.cons (by decide)
    rw [unicodeBody,← rest.head_eq,if_pos rfl,if_neg apart]
    rfl
  | case5 pos cs pair _ ih =>
    obtain ⟨⟨s,i⟩,inner,shown⟩ := bind_ok.mp read
    cases shown
    obtain ⟨_,m,rfl,rfl,rest⟩ := alike.cons (by decide)
    rw [unicodeBody,← rest.head_eq,if_neg (by decide),if_pos rfl,if_pos pair,ih rest inner (Nat.le_of_succ_le_succ within)]
    rfl
  | case6 pos cs other plus _ ih =>
    obtain ⟨⟨e,j⟩,digits,read⟩ := bind_ok.mp read
    obtain ⟨⟨s,i⟩,inner,shown⟩ := bind_ok.mp read
    cases shown
    obtain ⟨_,m,rfl,rfl,rest⟩ := alike.cons (by decide)
    have same := ih j rest inner (Nat.le_of_succ_le_succ within)
    have tail : unicodeDigits (pos + 2) m.tail 6 = .ok (e,j) := by
      cases rest with
      | period => cases plus
      | next _ rest => exact unicodeDigits_alike rest digits
    rw [unicodeBody,← rest.head_eq,if_neg (by decide),if_pos rfl,if_neg other,if_pos plus,tail]
    simp only [bind,Except.bind,same]
    rfl
  | case7 pos cs other plain _ ih =>
    obtain ⟨⟨e,j⟩,digits,read⟩ := bind_ok.mp read
    obtain ⟨⟨s,i⟩,inner,shown⟩ := bind_ok.mp read
    cases shown
    obtain ⟨_,m,rfl,rfl,rest⟩ := alike.cons (by decide)
    have same := ih j rest inner (Nat.le_of_succ_le_succ within)
    rw [unicodeBody,← rest.head_eq,if_neg (by decide),if_pos rfl,if_neg other,if_neg plain,unicodeDigits_alike rest digits]
    simp only [bind,Except.bind,same]
    rfl
  | case8 pos c cs quote plain ih =>
    obtain ⟨⟨s,i⟩,inner,shown⟩ := bind_ok.mp read
    cases shown
    cases alike with
    | period => omega
    | next _ rest =>
      rw [unicodeBody,if_neg quote,if_neg plain,ih rest inner (Nat.le_of_succ_le_succ within)]
      rfl

theorem lineComment_alike (alike : Alike k l m) (read : lineComment mark l = .ok (t,n)) (within : n ≤ mark.length - 1 + k) :
    lineComment mark m = .ok (t,n) := by
  have short : (l.takeWhile (· ≠ '\n')).length ≤ k := by
    simp only [lineComment,Except.ok.injEq,Prod.mk.injEq] at read
    have size := read.2
    split at size
    · rw [List.length_append] at size
      omega
    · omega
  have here : (l.takeWhile (· ≠ '\n')).length < l.length := Nat.lt_of_le_of_lt short alike.lt_length
  have there : (l.takeWhile (· ≠ '\n')).length < m.length := Nat.lt_of_le_of_lt short alike.symm.lt_length
  rw [← read,lineComment,lineComment,← alike.takeWhile_within short]
  simp only [here,there,if_true]

theorem digitRun_alike (separators : Bool) {p : Char → Bool} (alike : Alike k l m) (other : p '.' = false) :
    digitRun separators p l = digitRun separators p m ∧ (digitRun separators p l).length ≤ k := by
  induction alike with
  | period => simp [digitRun,other]
  | next c rest ih =>
    rw [digitRun,digitRun,← rest.head_eq,ih.1]
    split
    · exact ⟨rfl,by simpa [ih.1] using ih.2⟩
    · exact ⟨rfl,Nat.zero_le _⟩

theorem exponent_alike (alike : Alike k l m) : exponent l = exponent m := by
  cases alike with
  | period => rfl
  | next e rest =>
    cases rest with
    | period => rfl
    | next c rest =>
      have digits := (rest.takeWhile_eq (p := Char.isDigit) rfl).1
      have whole := ((Alike.next c rest).takeWhile_eq (p := Char.isDigit) rfl).1
      by_cases plus : c = '+'
      · subst plus
        simp only [exponent,digits]
      by_cases minus : c = '-'
      · subst minus
        simp only [exponent,digits]
      simp [exponent,plus,minus,whole]

-- Of two ways, the same is gone for both texts.
theorem ite_alike {p : Prop} [Decidable p] {a b a' b' : Step} (yes : p → a = .ok r → a' = .ok r) (no : b = .ok r → b' = .ok r)
    (read : (if p then a else b) = .ok r) : (if p then a' else b') = .ok r := by
  split at read
  · rw [if_pos ‹p›]
    exact yes ‹p› read
  · rw [if_neg ‹¬p›]
    exact no read

theorem bareWord_alike (alike : Alike k l m) (d : Dialect) (opening : List Char) : bareWord d opening l = bareWord d opening m := by
  have other : d.continuesName '.' = false := by cases d <;> decide +kernel
  rw [bareWord,(alike.takeWhile_eq other).1]
  rfl

theorem markedString_alike (alike : Alike k l m) (other : q ≠ '.') (read : markedString mark front q escapes l = .ok (t,n))
    (within : n ≤ front + k) : markedString mark front q escapes m = .ok (t,n) := by
  unfold markedString at read ⊢
  split at read
  · rename_i s i body
    cases read
    rw [quotedBody_alike alike other body (Nat.le_of_add_le_add_left within)]
  · cases read

theorem rawString_alike (alike : Alike k l m) (other : q ≠ '.') (read : rawString q l = .ok (t,n)) (within : n ≤ k + 1) :
    rawString q m = .ok (t,n) := by
  have quotes := (alike.take_takeWhile (p := (· = q)) (by simpa using Ne.symm other) 2)
  unfold rawString at read ⊢
  rw [← quotes.1]
  split at read
  · split at read
    · rename_i s i body
      cases read
      rw [quotedBody_alike alike other body (Nat.le_of_succ_le_succ within)]
    · cases read
  · exact read
  · split at read
    · rename_i none single _ s i body
      cases read
      have two : 2 ≤ k := by
        refine Nat.le_trans ?_ quotes.2
        rcases shown : (l.take 2).takeWhile fun x => decide (x = q) with _ | ⟨a,_ | ⟨b,more⟩⟩
        · exact (none shown).elim
        · exact (single a shown).elim
        · simp
      rw [tripledBody_alike (alike.drop two) other body (by omega)]
    · cases read

theorem delimitedString_alike (alike : Alike k l m) (read : delimitedString mark front l = .ok (t,n)) (within : n ≤ front.length + k) :
    delimitedString mark front m = .ok (t,n) := by
  unfold delimitedString at read ⊢
  cases alike with
  | period x y =>
    dsimp only at read
    split at read
    · cases read
    · split at read
      · cases read
        omega
      · cases read
  | next c rest =>
    dsimp only at read ⊢
    split at read
    · cases read
    · rename_i blank
      rw [if_neg blank]
      split at read
      · rename_i s i body
        cases read
        rw [delimitedBody_alike rest body (by omega)]
      · cases read

-- What follows the digits in front of a period.
abbrev fractionOf (separators : Bool) (cs : List Char) : List Char :=
  if cs.head? = some '.' then '.' :: digitRun separators Char.isDigit cs.tail else []

-- A fraction that begins with the last period goes on behind it.
theorem fractionOf_alike (separators : Bool) (alike : Alike k l m) : (l.head? = some '.' ∧ k = 0 ∧ ∃ x, fractionOf separators l = '.' :: x) ∨
    fractionOf separators l = fractionOf separators m ∧ (fractionOf separators l).length ≤ k := by
  cases alike with
  | period => exact .inl ⟨rfl,rfl,_,rfl⟩
  | next c rest =>
    obtain ⟨same,short⟩ := digitRun_alike separators (p := Char.isDigit) rest rfl
    right
    by_cases period : c = '.'
    · simpa [fractionOf,period,same] using short
    · simp [fractionOf,period]

theorem numeral_alike (alike : Alike k l m) (read : numeral d prev (c :: l) = .ok (t,n)) (within : n ≤ k) :
    numeral d prev (c :: m) = .ok (t,n) := by
  have two : (c :: l).take 2 = (c :: m).take 2 := by
    cases alike <;> rfl
  by_cases underscore : (c :: l).take 2 = ['.','_']
  · unfold numeral at read ⊢
    rw [if_pos underscore] at read
    rwa [← two,if_pos underscore]
  have more : Alike (k + 1) (c :: l) (c :: m) := .next c alike
  obtain ⟨whole,short⟩ := digitRun_alike d.hasDigitSeparators (p := Char.isDigit) more rfl
  obtain ⟨j,left⟩ : ∃ j, k + 1 - (digitRun d.hasDigitSeparators Char.isDigit (c :: l)).length = j := ⟨_,rfl⟩
  have behind := left ▸ more.drop short
  simp only [numeral,if_neg underscore] at read
  simp only [numeral,← two,if_neg underscore,← whole]
  generalize digitRun d.hasDigitSeparators Char.isDigit (c :: l) = ds at *
  generalize (c :: l).drop ds.length = rest at *
  generalize (c :: m).drop ds.length = rest' at *
  rw [← behind.head_eq]
  by_cases hex : (ds = ['0'] && rest.head? = some 'x') = true
  · rw [if_pos hex] at read ⊢
    obtain ⟨j,tails⟩ : ∃ j, Alike j rest.tail rest'.tail := by
      cases behind with
      | period => simp at hex
      | next _ tail => exact ⟨_,tail⟩
    rwa [← (digitRun_alike _ (p := fun c => (hexValue? c).isSome) tails rfl).1]
  · rw [if_neg hex] at read ⊢
    have fraction := fractionOf_alike d.hasDigitSeparators behind
    rw [fractionOf,fractionOf,← behind.head_eq] at fraction
    generalize (if rest.head? = some '.' then '.' :: digitRun d.hasDigitSeparators Char.isDigit rest.tail else []) = fs at *
    generalize (if rest.head? = some '.' then '.' :: digitRun d.hasDigitSeparators Char.isDigit rest'.tail else []) = fs' at *
    rcases fraction with ⟨_,rfl,x,rfl⟩ | ⟨rfl,fits⟩
    · split at read
      · rename_i single
        have length := congrArg List.length single
        simp at length
        omega
      · cases read
        simp at within
        omega
    · have tail := exponent_alike (behind.drop fits)
      rw [← tail]
      by_cases period : ds ++ fs = ['.']
      · rwa [if_pos period] at read ⊢
      · rw [if_neg period] at read ⊢
        generalize ds ++ fs ++ exponent (rest.drop fs.length) = digits at *
        have inside : digits.length ≤ k + 1 := by
          cases read
          omega
        rwa [← (more.drop inside).head_eq]

theorem takeWhile_free {p : Char → Bool} (ts : List Char) (other : p c = false) : c ∉ ts.takeWhile p := by
  intro inside
  have all : p c = true := List.all_eq_true.mp List.all_takeWhile _ inside
  cases other.symm.trans all

theorem dollar_alike (alike : Alike k l m) (read : dollar l = .ok (t,n)) (within : n ≤ k) : dollar m = .ok (t,n) := by
  unfold dollar at read ⊢
  dsimp only at read ⊢
  split at read
  case h_1 body =>
    obtain ⟨_,m,rfl,rfl,behind⟩ := alike.cons (by decide)
    split at read
    · rename_i s inner
      cases read
      simp only [dollarBody_alike behind (by decide) inner (by omega)]
    · cases read
  case h_2 other =>
    have none : ∀ t, m = '$' :: t → False := alike.head_free other (by decide)
    have plain : (fun c => Text.isAlphanumeric c || decide (c = '_')) '.' = false := by decide +kernel
    obtain ⟨tag,short⟩ := alike.takeWhile_eq (p := fun c => Text.isAlphanumeric c || decide (c = '_')) plain
    have behind := alike.drop short
    have free := takeWhile_free l (p := fun c => Text.isAlphanumeric c || decide (c = '_')) plain
    split
    case h_1 same => exact (none _ rfl).elim
    rw [← tag]
    generalize (l.takeWhile fun c => Text.isAlphanumeric c || decide (c = '_')) = ts at *
    split at read
    case h_1 body same =>
      rw [same] at behind
      obtain ⟨_,m',left,shown,rest⟩ := behind.cons (by decide)
      rw [shown]
      split at read
      · rename_i s inner
        cases read
        simp only [dollarBody_alike rest (by simp [free]) inner (by omega)]
      · cases read
    case h_2 same =>
      split
      case h_1 shown => exact (behind.head_free same (by decide) _ shown).elim
      case h_2 => exact read

theorem bareWord_length (read : bareWord d opening cs = .ok (t,n)) : opening.length - 1 ≤ n := by
  cases read
  omega

theorem sigil_alike (alike : Alike k l m) (read : sigil d c l = .ok (t,n)) (within : n ≤ k) : sigil d c m = .ok (t,n) := by
  cases alike with
  | period x y =>
    unfold sigil at read ⊢
    dsimp only at read ⊢
    rw [if_neg (by simp)] at read ⊢
    refine ite_alike (fun _ read => ?_) id read
    have long : 1 ≤ n := bareWord_length read
    omega
  | next c' rest =>
    unfold sigil at read ⊢
    dsimp only at read ⊢
    refine ite_alike (fun _ read => ?_) (ite_alike (fun _ read => ?_) id) read
    · cases rest with
      | period x y =>
        refine ite_alike (fun _ read => ?_) id read
        have long : 2 ≤ n := bareWord_length read
        omega
      | next c'' rest => exact ite_alike (fun _ read => (bareWord_alike rest d _).symm.trans read) id read
    · exact (bareWord_alike rest d _).symm.trans read

-- No literal begins with a letter and a period.
theorem lettered_period (d : Dialect) (c : Char) (x : List Char) : lettered d c ('.' :: x) = bareWord d [c] ('.' :: x) := by
  unfold lettered
  split
  all_goals
    rename_i same
    try cases same
  all_goals first
    | rfl
    | simp

theorem lettered_alike (alike : Alike k l m) (read : lettered d c l = .ok (t,n)) (within : n ≤ k) : lettered d c m = .ok (t,n) := by
  cases alike with
  | period x y =>
    rw [lettered_period,bareWord_alike (.period x y)] at read
    rw [lettered_period,read]
  | next q rest =>
    have word := bareWord_alike (.next q rest) d [c]
    unfold lettered at read ⊢
    dsimp only at read ⊢
    rw [← word]
    split at read
    all_goals
      rename_i same
      try cases same
    case h_1.refl lower =>
      rw [lower]
      refine ite_alike (fun quoted read => markedString_alike rest ?_ read (Nat.add_comm .. ▸ within)) id read
      rintro rfl
      simp at quoted
    case h_2.refl lower =>
      rw [lower]
      refine ite_alike (fun quoted read => rawString_alike rest ?_ read within) id read
      rintro rfl
      simp at quoted
    case h_3.refl lower =>
      rw [lower]
      exact ite_alike (fun _ read => delimitedString_alike rest read (by simpa [Nat.add_comm] using within)) id read
    case h_4.refl lower | h_6.refl lower =>
      rw [lower]
      exact markedString_alike rest (by decide) read (Nat.add_comm .. ▸ within)
    case h_5.refl lower other =>
      obtain ⟨_,m,rfl,rfl,behind⟩ := rest.cons (by decide)
      rw [lower]
      split
      case h_4 same => exact (other (List.cons.inj same).1).elim
      case h_5 same =>
        cases same
        exact ite_alike (fun _ read => delimitedString_alike behind read (by simp; omega)) id read
      case h_9 nested _ _ _ => exact (nested _ _ rfl rfl).elim
      all_goals
        rename_i wrong _
        exact absurd wrong (by decide)
    case h_7.refl lower =>
      rw [lower]
      refine ite_alike (fun _ read => ?_) id read
      split at read
      · rename_i s i body
        cases read
        rw [escapedBody_alike rest body (Nat.le_of_succ_le_succ within)]
      · cases read
    case h_8.refl lower =>
      obtain ⟨_,m,rfl,rfl,behind⟩ := rest.cons (by decide)
      rw [lower]
      refine ite_alike (fun _ read => ?_) id read
      obtain ⟨⟨s,i⟩,body,shown⟩ := bind_ok.mp read
      cases shown
      rw [unicodeBody_alike behind body (by omega)]
      rfl
    case h_9 =>
      rename_i bytes raw delimited national nested hex escaped
      split
      case h_1 lower same => exact (bytes _ _ lower rfl).elim
      case h_2 lower same => exact (raw _ _ lower rfl).elim
      case h_3 lower same =>
        cases same
        exact (delimited _ lower rfl).elim
      case h_4 lower same =>
        cases same
        exact (national _ lower rfl).elim
      case h_5 lower same =>
        cases same
        obtain ⟨_,_,_,rfl,_⟩ := rest.symm.cons (by decide)
        exact (nested _ _ lower rfl).elim
      case h_6 lower same =>
        cases same
        exact (hex _ lower rfl).elim
      case h_7 lower same =>
        cases same
        exact (escaped _ lower rfl).elim
      case h_8 lower other =>
        cases other
        obtain ⟨_,_,_,rfl,_⟩ := rest.symm.cons (by decide)
        exact (same _ lower rfl).elim
      case h_9 => exact read

-- An operator ends in front of a period.
theorem operator?_alike (alike : Alike k l m) (found : operator? d (c :: l) = some r) : operator? d (c :: m) = some r := by
  unfold operator? at found
  split at found
  case h_61 => cases found
  all_goals
    rename_i same
    try cases same
  case h_48.refl =>
    split at found
    · rename_i marks
      simp only [Bool.or_eq_true,decide_eq_true_eq] at marks
      rcases marks with ((rfl | rfl) | rfl) | rfl
      all_goals
        obtain ⟨_,_,_,rfl,_⟩ := alike.cons (by decide)
        exact found
    · cases found
  all_goals first
    | exact found
    | skip
  -- The characters that make the operator stand in front of the period.
  all_goals repeat
    have ahead := alike.cons (by decide)
    clear alike
    obtain ⟨_,_,_,rfl,alike⟩ := ahead
  all_goals first
    | exact found
    | (rw [operator?]
       · exact found
       all_goals first
         | exact alike.head_free ‹_› (by decide)
         | exact alike.two_free ‹_› (by decide) (by decide)
         | exact fun _ => alike.head_free ‹_› (by decide) _)

theorem operator?_same (alike : Alike k l m) (d : Dialect) (c : Char) : operator? d (c :: l) = operator? d (c :: m) :=
  Option.ext fun _ => ⟨operator?_alike alike,operator?_alike alike.symm⟩

-- A step that ends in front of a period does not look past it.
theorem first_alike (alike : Alike k l m) (read : first d prev c l = .ok (t,n)) (within : n ≤ k) : first d prev c m = .ok (t,n) := by
  have tails (a : Char) (other : a ≠ '.') (head : l.head? = some a) : ∃ j, k = j + 1 ∧ Alike j l.tail m.tail := by
    obtain ⟨l,rfl⟩ := List.head?_eq_some_iff.mp head
    obtain ⟨j,m,left,rfl,rest⟩ := alike.cons other
    exact ⟨j,left,rest⟩
  revert read
  unfold first
  rw [← alike.head_eq,← operator?_same alike]
  refine ite_alike (fun _ => id) <| ite_alike (fun _ => id) <| ite_alike (fun _ => id) <| ite_alike (fun _ => id) <|
    ite_alike (fun _ read => lettered_alike alike read within) <| ite_alike (fun _ read => ?_) <| ite_alike (fun quote read => ?_) <|
    ite_alike (fun _ read => numeral_alike alike read within) <| ite_alike (fun dash read => ?_) <| ite_alike (fun star read => ?_) <|
    ite_alike (fun slash read => ?_) <| ite_alike (fun _ read => lineComment_alike alike read ?_) fun read => ?_
  · split at read
    · rename_i s i body
      cases read
      rw [quotedBody_alike alike (by decide) body within]
    · cases read
  · split at read
    · rename_i s i body
      cases read
      have other : c ≠ '.' := by
        rintro rfl
        simp at quote
      rw [quotedBody_alike alike other body within]
    · cases read
  · simp only [Bool.and_eq_true,decide_eq_true_eq] at dash
    obtain ⟨j,rfl,rest⟩ := tails '-' (by decide) dash.2
    have mark : "--".length = 2 := rfl
    exact lineComment_alike rest read (by omega)
  · simp only [Bool.and_eq_true,decide_eq_true_eq] at star
    obtain ⟨j,rfl,rest⟩ := tails '*' (by decide) star.2
    split at read
    · rename_i s i body
      cases read
      rw [commentBody_alike rest body (Nat.le_of_succ_le_succ within)]
    · cases read
  · simp only [Bool.and_eq_true,decide_eq_true_eq] at slash
    obtain ⟨j,rfl,rest⟩ := tails '/' (by decide) slash.1.2
    have mark : "//".length = 2 := rfl
    exact lineComment_alike rest read (by omega)
  · have mark : "#".length = 1 := rfl
    omega
  · split at read
    · exact read
    · revert read
      refine ite_alike (fun _ read => sigil_alike alike read within) <| ite_alike (fun _ read => ?_) <|
        ite_alike (fun _ read => (bareWord_alike alike d [c]).symm.trans read) <|
        ite_alike (fun _ read => dollar_alike alike read within) id
      rwa [← (alike.takeWhile_eq (p := Text.isNumeric) (by decide +kernel)).1]

end JoinTree.Sql.Token
