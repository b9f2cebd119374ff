import JoinTree.Proofs.Lookahead

/-!
What stands between two words: blanks, comments and periods. Main statements: a blank is read whatever name stands behind it,
and so is a period.
-/

namespace JoinTree.Sql.Token

-- A step depends on the token before only as far as that is a word.

theorem first_word_before (d : Dialect) (v v' : String) (q q' : Option Char) (j j' : Option Keyword) :
    first d (some (.word v q j)) = first d (some (.word v' q' j')) := by
  funext c cs
  rfl

theorem first_before (d : Dialect) (prev prev' : Option Token) (digit : c.isDigit = false) (other : c ≠ '.') :
    first d prev c cs = first d prev' c cs := by
  simp only [first,digit,other,decide_false,Bool.or_self,Bool.false_eq_true,if_false]

-- Blanks and periods, which no other characters are read as.
def isGap : Token → Bool
  | blank _ | symbol .period => true
  | _ => false

theorem lettered_gap (read : lettered d c cs = .ok (t,n)) : t.isGap = false := by
  unfold lettered markedString rawString delimitedString bareWord ofMarked at read
  simp only [bind,Except.bind] at read
  (repeat' split at read) <;> cases read <;> rfl

theorem operator?_gap (read : operator? d cs = some (s,n)) : (symbol s).isGap = false := by
  unfold operator? at read
  split at read
  all_goals first
    | (cases read; done)
    | (cases read; rfl)
    | (split at read <;> cases read <;> rfl)

theorem sigil_gap (read : sigil d c cs = .ok (t,n)) : t.isGap = false := by
  unfold sigil bareWord at read
  dsimp only at read
  (repeat' split at read) <;> cases read <;> rfl

theorem dollar_gap (read : dollar cs = .ok (t,n)) : t.isGap = false := by
  unfold dollar at read
  dsimp only at read
  (repeat' split at read) <;> cases read <;> rfl

theorem numeral_gap (read : numeral d prev cs = .ok (t,n)) (gap : t.isGap = true) : t = .symbol .period ∧ n = 0 := by
  simp only [numeral] at read
  (repeat' split at read) <;> cases read <;> first | exact ⟨rfl,rfl⟩ | cases gap

-- What is taken for a single blank, or for a line end with its line feed.
theorem first_isBlank (d : Dialect) (prev prev' : Option Token) (blank : Text.isBlank c = true)
    (ends : c = '\r' → (l.head? = some '\n' ↔ m.head? = some '\n')) : first d prev c l = first d prev' c m := by
  obtain ⟨alpha,digit,_,sharp,at_sign,dollar⟩ := isBlank_nameless blank
  have starts : d.startsName c = false := by
    cases starts : d.startsName c with
    | false => rfl
    | true => cases (startsName_blank d starts).symm.trans blank
  have apart (a : Char) (other : Text.isBlank a = false) : c ≠ a := by
    rintro rfl
    cases other.symm.trans blank
  have operator (cs : List Char) : operator? d (c :: cs) = none := by
    refine operator?_absent d fun start => ?_
    have visible : (operatorStarts.all fun a => !Text.isBlank a) = true := by decide
    have here := List.all_eq_true.mp visible c start
    rw [blank] at here
    cases here
  have carriage (prev : Option Token) (cs : List Char) :
      first d prev '\r' cs = .ok (.blank .newline,if cs.head? = some '\n' then 1 else 0) := rfl
  by_cases space : c = ' '
  · subst space
    rfl
  by_cases tab : c = '\t'
  · subst tab
    rfl
  by_cases newline : c = '\n'
  · subst newline
    rfl
  by_cases back : c = '\r'
  · subst back
    simp only [carriage,ends rfl]
  simp only [first,space,tab,newline,back,alpha,digit,sharp,at_sign,dollar,starts,blank,operator,apart '\'' rfl,apart '"' rfl,
    apart '\x60' rfl,apart '.' rfl,apart '-' rfl,apart '/' rfl,apart '?' rfl,decide_false,Bool.false_and,Bool.or_self,
    Bool.false_eq_true,if_false,if_true]

-- Comments, with what opens them.
inductive CommentStep (d : Dialect) : Char → List Char → Blank → Nat → Prop where
  | dashes : lineComment "--" cs = .ok (.blank b,n) → CommentStep d '-' ('-' :: cs) b n
  | slashes : d.isSnowflake = true → lineComment "//" cs = .ok (.blank b,n) → CommentStep d '/' ('/' :: cs) b n
  | sharp : d.isSnowflake = true → lineComment "#" cs = .ok (.blank b,n) → CommentStep d '#' cs b n
  | block : commentBody d.nestsComments 0 cs = some (s,n) → CommentStep d '/' ('*' :: cs) (.blockComment (.ofList s)) (n + 1)

theorem first_comment (step : CommentStep d c cs b n) (prev : Option Token) : first d prev c cs = .ok (.blank b,n) := by
  cases step with
  | dashes read =>
    rw [← read]
    rfl
  | slashes on read =>
    rw [← read]
    cases d <;> first | (cases on; done) | rfl
  | sharp on read =>
    rw [← read]
    cases d <;> first | (cases on; done) | rfl
  | block body =>
    simp only [first,List.tail_cons,body]
    rfl

theorem blank_step (read : first d prev c cs = .ok (.blank b,n)) : Text.isBlank c = true ∨ CommentStep d c cs b n := by
  revert read
  unfold first
  have gap : (blank b).isGap = true := rfl
  have none {P : Prop} (same : (blank b).isGap = false) : P := by cases same
  refine ite_read (fun same _ => .inl (by rw [same]; rfl)) <| ite_read (fun same _ => .inl (by rw [same]; rfl)) <|
    ite_read (fun same _ => .inl (by rw [same]; rfl)) <| ite_read (fun same _ => .inl (by rw [same]; rfl)) <|
    ite_read (fun _ read => none (lettered_gap read)) <| ite_read (fun _ read => ?_) <| ite_read (fun _ read => ?_) <|
    ite_read (fun _ read => by cases (numeral_gap read gap).1) <| ite_read (fun dash read => ?_) <| ite_read (fun star read => ?_) <|
    ite_read (fun slash read => ?_) <| ite_read (fun sharp read => ?_) fun read => ?_
  · split at read <;> cases read
  · split at read <;> cases read
  · simp only [Bool.and_eq_true,decide_eq_true_eq] at dash
    obtain ⟨rfl,head⟩ := dash
    obtain ⟨cs,rfl⟩ := List.head?_eq_some_iff.mp head
    exact .inr (.dashes read)
  · simp only [Bool.and_eq_true,decide_eq_true_eq] at star
    obtain ⟨rfl,head⟩ := star
    obtain ⟨cs,rfl⟩ := List.head?_eq_some_iff.mp head
    split at read
    · cases read
      exact .inr (.block ‹_›)
    · cases read
  · simp only [Bool.and_eq_true,decide_eq_true_eq] at slash
    obtain ⟨⟨rfl,head⟩,on⟩ := slash
    obtain ⟨cs,rfl⟩ := List.head?_eq_some_iff.mp head
    exact .inr (.slashes on read)
  · simp only [Bool.and_eq_true,decide_eq_true_eq] at sharp
    obtain ⟨rfl,on⟩ := sharp
    exact .inr (.sharp on read)
  · split at read
    · cases read
    · revert read
      exact ite_read (fun _ read => none (sigil_gap read)) <| ite_read (fun _ => nofun) <| ite_read (fun _ => nofun) <|
        ite_read (fun _ read => none (dollar_gap read)) <| ite_read (fun blank _ => .inl blank) nofun

theorem blank_digit (read : first d prev c cs = .ok (.blank b,n)) : c.isDigit = false := by
  rcases blank_step read with blank | comment
  · exact (isBlank_nameless blank).2.1
  · cases comment <;> rfl

theorem lineComment_length (read : lineComment mark cs = .ok (t,n)) : mark.length - 1 ≤ n := by
  cases read
  omega

theorem lineComment_end (read : lineComment mark (k ++ x) = .ok (t,n)) (within : n ≤ mark.length - 1 + k.length) (more : x ≠ []) :
    lineComment mark (k ++ y) = .ok (t,n) := by
  by_cases inside : '\n' ∈ k
  · have short : (k.takeWhile (· ≠ '\n')).length < k.length := by
      refine Nat.lt_of_le_of_ne (List.takeWhile_sublist _).length_le fun same => ?_
      have whole := (List.takeWhile_sublist (· ≠ '\n')).eq_of_length same
      exact takeWhile_free k (p := (· ≠ '\n')) rfl (whole.symm ▸ inside)
    have line (z : List Char) : (k ++ z).takeWhile (· ≠ '\n') = k.takeWhile (· ≠ '\n') := by
      rw [List.takeWhile_append,if_neg (Nat.ne_of_lt short)]
    have shorter (z : List Char) : (k.takeWhile (· ≠ '\n')).length < (k ++ z).length := by
      rw [List.length_append]
      omega
    rw [← read]
    simp only [lineComment,line,shorter,if_true]
  -- The line goes on behind.
  · have line : (k ++ x).takeWhile (· ≠ '\n') = k ++ x.takeWhile (· ≠ '\n') :=
      List.takeWhile_append_of_pos fun c member => decide_eq_true fun same => inside (same ▸ member)
    have size := congrArg Prod.snd (Except.ok.inj read)
    have positive : 0 < x.length := List.length_pos_iff.mpr more
    simp only [line,List.length_append] at size
    split at size <;> simp only [List.length_append,List.length_singleton] at size <;> omega

theorem commentBody_length (read : commentBody nests depth cs = some (s,n)) : 0 < n := by
  fun_induction commentBody nests depth cs generalizing s n with
  | case1 => cases read
  | case4 =>
    cases read
    exact Nat.zero_lt_two
  | case2 =>
    obtain ⟨_,i,_,_,rfl⟩ := map_some (f := fun s => '/' :: '*' :: s) read
    exact Nat.zero_lt_succ _
  | case5 =>
    obtain ⟨_,i,_,_,rfl⟩ := map_some (f := fun s => '*' :: '/' :: s) read
    exact Nat.zero_lt_succ _
  | case3 | case6 =>
    obtain ⟨_,i,_,_,rfl⟩ := map_some read
    exact Nat.zero_lt_succ _

-- The first two characters of a text that stand in its front part.
theorem two_inside {k : List Char} (whole : k ++ x = a :: b :: cs) (within : 2 ≤ k.length) : ∃ l, k = a :: b :: l ∧ l ++ x = cs := by
  cases k with
  | nil => cases within
  | cons a k =>
    cases k with
    | nil => exact absurd within (Nat.not_succ_le_self 1)
    | cons b k =>
      cases whole
      exact ⟨k,rfl,rfl⟩

theorem commentBody_end (read : commentBody nests depth (k ++ x) = some (s,n)) (within : n ≤ k.length) :
    commentBody nests depth (k ++ y) = some (s,n) := by
  generalize whole : k ++ x = cs at read
  fun_induction commentBody nests depth cs generalizing k s n with
  | case1 => cases read
  | case2 depth cs on ih =>
    obtain ⟨_,i,inner,rfl,rfl⟩ := map_some (f := fun s => '/' :: '*' :: s) read
    obtain ⟨k,rfl,rfl⟩ := two_inside whole (by omega)
    rw [List.cons_append,List.cons_append,commentBody,if_pos on,ih (Nat.le_of_succ_le_succ (Nat.le_of_succ_le_succ within)) rfl inner]
    rfl
  | case3 depth cs off ih =>
    obtain ⟨_,i,inner,rfl,rfl⟩ := map_some read
    have positive := commentBody_length inner
    obtain ⟨k,rfl,rfl⟩ := two_inside whole (by omega)
    have same := ih (k := '*' :: k) (Nat.le_of_succ_le_succ within) rfl inner
    rw [List.cons_append] at same
    rw [List.cons_append,List.cons_append,commentBody,if_neg off,same]
    rfl
  | case4 cs =>
    cases read
    obtain ⟨k,rfl,rfl⟩ := two_inside whole within
    rfl
  | case5 cs depth ih =>
    obtain ⟨_,i,inner,rfl,rfl⟩ := map_some (f := fun s => '*' :: '/' :: s) read
    obtain ⟨k,rfl,rfl⟩ := two_inside whole (by omega)
    rw [List.cons_append,List.cons_append,commentBody,ih (Nat.le_of_succ_le_succ (Nat.le_of_succ_le_succ within)) rfl inner]
    rfl
  | case6 depth c cs opening closing ih =>
    obtain ⟨_,i,inner,rfl,rfl⟩ := map_some read
    have positive := commentBody_length inner
    have two : 2 ≤ k.length := by omega
    cases cs with
    | nil =>
      have length := congrArg List.length whole
      rw [List.length_append,List.length_singleton] at length
      omega
    | cons a cs =>
      obtain ⟨k,rfl,rfl⟩ := two_inside whole two
      have same := ih (k := a :: k) (Nat.le_of_succ_le_succ within) rfl inner
      rw [List.cons_append] at same
      rw [List.cons_append,List.cons_append,commentBody,same]
      · rfl
      · rintro t first second
        cases second
        exact opening _ first rfl
      · rintro t first second
        cases second
        exact closing _ first rfl

-- A comment that ends in front of a name.
theorem comment_end (step : CommentStep d c (k ++ x) b n) (within : n ≤ k.length) (more : x ≠ []) : CommentStep d c (k ++ y) b n := by
  generalize whole : k ++ x = cs at step
  cases step with
  | dashes read =>
    have positive : 1 ≤ n := lineComment_length read
    cases k with
    | nil => exact absurd (Nat.le_trans positive within) (Nat.not_succ_le_zero 0)
    | cons a k =>
      cases whole
      have mark : "--".length = 2 := rfl
      exact .dashes (lineComment_end read (by simp at within; omega) more)
  | slashes on read =>
    have positive : 1 ≤ n := lineComment_length read
    cases k with
    | nil => exact absurd (Nat.le_trans positive within) (Nat.not_succ_le_zero 0)
    | cons a k =>
      cases whole
      have mark : "//".length = 2 := rfl
      exact .slashes on (lineComment_end read (by simp at within; omega) more)
  | sharp on read =>
    subst whole
    have mark : "#".length = 1 := rfl
    exact .sharp on (lineComment_end read (by omega) more)
  | block body =>
    have positive := commentBody_length body
    cases k with
    | nil => cases within
    | cons a k =>
      cases whole
      exact .block (commentBody_end body (Nat.le_of_succ_le_succ within))

-- A blank is read whatever name stands behind it.
theorem first_blank (read : first d prev c (k ++ x) = .ok (.blank b,n)) (within : n ≤ k.length) (more : x ≠ [])
    (ends : y.head? ≠ some '\n') (prev' : Option Token) : first d prev' c (k ++ y) = .ok (.blank b,n) := by
  rcases blank_step read with blank | comment
  · rw [← read]
    refine first_isBlank d _ _ blank fun back => ?_
    cases k with
    | nil =>
      subst back
      have taken : (if x.head? = some '\n' then 1 else 0) = n := congrArg Prod.snd (Except.ok.inj read)
      simp at within
      simp_all
    | cons a k => rfl
  · exact first_comment (comment_end comment within more) prev'

theorem numeral_period (read : numeral d prev (c :: cs) = .ok (.symbol .period,n)) : c = '.' := by
  by_cases same : c = '.'
  · exact same
  simp only [numeral] at read
  split at read
  · rename_i both
    exact (List.cons.inj both).1
  cases digits : digitRun d.hasDigitSeparators Char.isDigit (c :: cs) with
  | nil => simp [digits,same] at read
  | cons a ds =>
    have first : a = c := by
      rw [digitRun] at digits
      split at digits
      · exact (List.cons.inj digits).1.symm
      · cases digits
    rw [digits] at read
    (repeat' split at read)
    all_goals first
      | (cases read; done)
      | (rename_i single; exact first.symm.trans (List.cons.inj single).1)

-- Only a period is read as one.
theorem period_step (read : first d prev c cs = .ok (.symbol .period,n)) : c = '.' ∧ n = 0 := by
  revert read
  unfold first
  have gap : (symbol .period).isGap = true := rfl
  have none {P : Prop} (same : (symbol .period).isGap = false) : P := by cases same
  refine ite_read (fun _ => nofun) <| ite_read (fun _ => nofun) <| ite_read (fun _ => nofun) <| ite_read (fun _ => nofun) <|
    ite_read (fun _ read => none (lettered_gap read)) <| ite_read (fun _ read => ?_) <| ite_read (fun _ read => ?_) <|
    ite_read (fun _ read => ⟨numeral_period read,(numeral_gap read gap).2⟩) <| ite_read (fun _ => nofun) <| ite_read (fun _ read => ?_) <|
    ite_read (fun _ => nofun) <| ite_read (fun _ => nofun) fun read => ?_
  · split at read <;> cases read
  · split at read <;> cases read
  · split at read <;> cases read
  · split at read
    · rename_i operator
      cases read
      exact none (operator?_gap operator)
    · revert read
      exact ite_read (fun _ read => none (sigil_gap read)) <| ite_read (fun _ => nofun) <| ite_read (fun _ => nofun) <|
        ite_read (fun _ read => none (dollar_gap read)) <| ite_read (fun _ => nofun) nofun

-- A period in front of one name is read as such in front of another.
theorem first_period_name (read : first d prev '.' (x :: l) = .ok (.symbol .period,n)) (digit : y.isDigit = false)
    (underscore : y = '_' → x = '_') : first d prev '.' (y :: m) = .ok (.symbol .period,0) := by
  have opened (cs : List Char) : first d prev '.' cs = numeral d prev ('.' :: cs) := rfl
  by_cases under : y = '_'
  · have both : x = '_' := underscore under
    subst under both
    rw [opened] at read
    have two : ('.' :: '_' :: l).take 2 = ['.','_'] := rfl
    unfold numeral at read
    rw [if_pos two] at read
    split at read
    · exact first_period d _ _ _ digit
    · cases read
  · rw [opened]
    have whole : digitRun d.hasDigitSeparators Char.isDigit ('.' :: y :: m) = [] := by simp [digitRun]
    have fraction : digitRun d.hasDigitSeparators Char.isDigit (y :: m) = [] := by simp [digitRun,digit,under]
    unfold numeral
    simp [whole,fraction,under]

end JoinTree.Sql.Token
