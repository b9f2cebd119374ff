import JoinTree.Proofs.Gaps

/-!
One name in the place of another. Main statement: where an unquoted word stands behind a period, any name of its length may take
its place, and every other token of the text is read as before and at the same place.
-/

namespace JoinTree

open Sql

theorem Located.longer (located : Located l cs ws) (more : List Char) : Located l (cs ++ more) ws := by
  induction located with
  | done => exact .done
  | next gap own start stop spells _ ih =>
    rw [List.append_assoc]
    exact .next gap own start stop spells ih

namespace Sql

namespace Token

-- The part `front` of a text, read as lexemes with the rest still behind it.
inductive Reads (d : Dialect) : Option Token → Location → List Char → List Char → List Lexeme → Prop where
  | done : Reads d prev l [] rest []
  | step : first d prev c (cs ++ more ++ rest) = .ok (t,cs.length) → IsKept d t →
      Reads d (some t) (l.pastAll (c :: cs)) more rest ls →
      Reads d prev l (c :: cs ++ more) rest (⟨t,l,l.pastAll (c :: cs),[]⟩ :: ls)

-- The token behind which a scan goes on.
def lastToken (prev : Option Token) (ls : List Lexeme) : Option Token := ls.foldl (fun _ l => some l.token) prev

namespace Reads

theorem append (first : Reads d prev l a (b ++ rest) xs) (second : Reads d (lastToken prev xs) (l.pastAll a) b rest ys) :
    Reads d prev l (a ++ b) rest (xs ++ ys) := by
  generalize whole : b ++ rest = behind at first
  induction first with
  | done => exact second
  | step read kept _ ih =>
    subst whole
    rw [List.append_assoc,List.cons_append]
    refine .step (by simpa using read) kept (ih ?_ rfl)
    rwa [← Location.pastAll_append]

theorem scan (reads : Reads d prev l front rest ls) : scanFrom d (openComment d) prev l 0 (front ++ rest) =
    (ls ++ ·) <$> scanFrom d (openComment d) (lastToken prev ls) (l.pastAll front) 0 rest := by
  induction reads with
  | @done prev l rest =>
    have same : lastToken prev [] = prev := rfl
    rw [same,List.nil_append]
    change scanFrom d (openComment d) prev l 0 rest = _ <$> scanFrom d (openComment d) prev l 0 rest
    cases scanFrom d (openComment d) prev l 0 rest <;> rfl
  | @step prev c cs more rest t ls l read kept _ ih =>
    have same : lastToken prev (⟨t,l,l.pastAll (c :: cs),[]⟩ :: ls) = lastToken (some t) ls := rfl
    rw [List.append_assoc] at read ⊢
    rw [scanFrom_kept (c :: cs) kept rfl read,ih,Location.pastAll_append,same]
    cases scanFrom d (openComment d) (lastToken (some t) ls) ((l.pastAll (c :: cs)).pastAll more) 0 rest <;> rfl

end Reads

theorem scanFrom_skipped (d : Dialect) (spread : Spread) (prev : Option Token) (l : Location) (n : Nat) (cs : List Char) :
    scanFrom d spread prev l n cs = scanFrom d spread prev (l.pastAll (cs.take n)) 0 (cs.drop n) := by
  induction cs generalizing l n with
  | nil => cases n <;> rfl
  | cons c cs ih =>
    cases n with
    | zero => rfl
    | succ n => exact ih (l.past c) n

theorem Keeps.behind (keeps : Keeps d spread cs) (suffix : rest <:+ cs) : Keeps d spread rest :=
  fun c more t n inner => keeps c more t n (inner.trans suffix)

-- One step of a scan.
theorem scan_step (keeps : Keeps d (openComment d) cs) (read : scanFrom d (openComment d) prev l 0 cs = .ok (x :: ys)) :
    ∃ c more n, cs = c :: more ∧ first d prev c more = .ok (x.token,n) ∧ IsKept d x.token ∧
      x = ⟨x.token,l,l.pastAll (c :: more.take n),[]⟩ ∧
      scanFrom d (openComment d) (some x.token) (l.pastAll (c :: more.take n)) 0 (more.drop n) = .ok ys := by
  cases cs with
  | nil => cases read
  | cons c more =>
    obtain ⟨t,n,own,rest,taken,stands,behind,same⟩ := scanFrom_first read
    have kept : IsKept d t := keeps c more t n (List.suffix_refl _) (first_gives taken)
    rw [kept prev _ rfl] at stands
    cases stands
    obtain ⟨rfl,rfl⟩ := List.cons.inj same
    rw [scanFrom_skipped] at behind
    exact ⟨c,more,n,rfl,taken,kept,rfl,behind⟩

-- A scan up to one of its lexemes.
theorem reads_of_scan (xs : List Lexeme) (keeps : Keeps d (openComment d) cs)
    (read : scanFrom d (openComment d) prev l 0 cs = .ok (xs ++ y :: ys)) :
    ∃ front rest, cs = front ++ rest ∧ Reads d prev l front rest xs ∧
      scanFrom d (openComment d) (lastToken prev xs) (l.pastAll front) 0 rest = .ok (y :: ys) := by
  induction xs generalizing prev l cs with
  | nil => exact ⟨[],cs,rfl,.done,read⟩
  | cons x xs ih =>
    obtain ⟨c,more,n,rfl,taken,kept,placed,behind⟩ := scan_step keeps read
    have later := keeps.behind ((List.drop_suffix n more).trans (List.suffix_cons c more))
    obtain ⟨front,rest,whole,reads,last⟩ := ih later behind
    have inside : n ≤ more.length := by
      refine Decidable.by_contra fun beyond => ?_
      rw [List.drop_of_length_le (Nat.le_of_not_le beyond)] at behind
      cases xs <;> cases behind
    have length : (more.take n).length = n := List.length_take_of_le inside
    refine ⟨c :: more.take n ++ front,rest,?_,?_,?_⟩
    · rw [List.append_assoc,← whole,List.cons_append,List.take_append_drop]
    · rw [placed]
      refine .step ?_ kept reads
      rw [List.append_assoc,← whole,List.take_append_drop,length,taken]
    · rw [Location.pastAll_append]
      exact last

-- What is read in front of a period is read in front of another text behind it.
theorem Reads.period (reads : Reads d prev l front ('.' :: x) ls) (y : List Char) : Reads d prev l front ('.' :: y) ls := by
  generalize whole : '.' :: x = rest at reads
  induction reads with
  | done => exact .done
  | @step _ c cs more _ t ls l read kept _ ih =>
    subst whole
    refine .step ?_ kept (ih rfl)
    exact first_alike (.ofAppend (cs ++ more) x y) read (by simp)

-- Blanks are read in front of any name.
theorem Reads.blanks (reads : Reads d prev l front x ls) (blanks : ∀ w ∈ ls, w.token.isBlank = true) (more : x ≠ [])
    (ends : y.head? ≠ some '\n') : Reads d prev l front y ls := by
  induction reads with
  | done => exact .done
  | @step _ c cs behind rest t ls l read kept _ ih =>
    refine .step ?_ kept (ih (fun w member => blanks w (List.mem_cons_of_mem _ member)) more)
    have blank : t.isBlank = true := blanks _ List.mem_cons_self
    cases t with
    | blank b => exact first_blank read (by simp) more ends _
    | _ => cases blank

-- A scan depends on the token before only as far as that is a word.
theorem scanFrom_word_before {v v' : String} {q q' : Option Char} {j j' : Option Keyword}
    (same : ∀ l, spread (some (.word v q j)) l = spread (some (.word v' q' j')) l) (cs : List Char) :
    scanFrom d spread (some (.word v q j)) l skip cs = scanFrom d spread (some (.word v' q' j')) l skip cs := by
  induction cs generalizing l skip with
  | nil => cases skip <;> rfl
  | cons c cs ih =>
    cases skip with
    | succ skip => exact ih
    | zero =>
      rw [scanFrom,scanFrom,first_word_before d v v' q q' j j']
      cases first d (some (.word v' q' j')) c cs with
      | error fault => rfl
      | ok p =>
        obtain ⟨t,n⟩ := p
        dsimp only
        rw [same]
        cases spread (some (.word v' q' j')) ⟨t,l,l.pastAll ((c :: cs).take (n + 1)),[]⟩ with
        | error fault => rfl
        | ok own =>
          simp only [bind,Except.bind]
          cases own.getLast? with
          | none =>
            simp only [Option.map_none,Option.none_or]
            rw [ih]
          | some x => rfl

theorem openComment_word_before (d : Dialect) (v v' : String) (q q' : Option Char) (j j' : Option Keyword) (l : Lexeme) :
    openComment d (some (.word v q j)) l = openComment d (some (.word v' q' j')) l := by
  unfold openComment
  split
  · split
    · split
      · refine scanFrom_word_before ?_ _
        exact fun _ => rfl
      · rfl
    · rfl
  · rfl

-- Lexemes with what is gathered of them.

theorem gathered_append (pre : List Lexeme) (other : r.token.isBlank = false) (post : List Lexeme) :
    gathered (pre ++ r :: post) = ((gathered pre).1,(gathered pre).2 ++ { r with gap := (gathered post).1 } :: (gathered post).2) := by
  induction pre with
  | nil => exact gathered_token other
  | cons l pre ih =>
    rw [List.cons_append,gathered,gathered,ih]
    dsimp only
    split <;> rfl

theorem gathered_split (same : (gathered ls).2 = xs ++ y :: ys) : ∃ pre r post, ls = pre ++ r :: post ∧ r.token.isBlank = false ∧
    (gathered pre).2 = xs ∧ y = { r with gap := (gathered post).1 } ∧ (gathered post).2 = ys := by
  induction ls generalizing xs with
  | nil => cases xs <;> cases same
  | cons l ls ih =>
    rcases isBlank_cases l.token with word | ⟨b,blank⟩
    · rw [gathered_token word] at same
      cases xs with
      | nil =>
        obtain ⟨placed,behind⟩ := List.cons.inj same
        exact ⟨[],l,ls,rfl,word,rfl,placed.symm,behind⟩
      | cons x xs =>
        obtain ⟨here,later⟩ := List.cons.inj same
        obtain ⟨pre,r,post,rfl,other,before,placed,behind⟩ := ih later
        refine ⟨l :: pre,r,post,rfl,other,?_,placed,behind⟩
        rw [gathered_append pre other] at here
        rw [gathered_token word,before,← here]
    · rw [gathered_blank blank] at same
      obtain ⟨pre,r,post,rfl,other,before,placed,behind⟩ := ih same
      exact ⟨l :: pre,r,post,rfl,other,by rw [gathered_blank blank,before],placed,behind⟩

theorem gathered_none : (gathered ls).2 = [] ↔ ∀ x ∈ ls, x.token.isBlank = true := by
  rw [← List.map_eq_nil_iff (f := (·.token)),gathered_tokens,List.filter_eq_nil_iff,List.forall_mem_map]
  simp

-- What is read stands where it was read.
theorem Reads.located (reads : Reads d prev l front rest ls) : Located l front ls := by
  induction reads with
  | done => exact .done
  | @step _ c cs more rest t ls l read kept _ ih =>
    have spells := (first_gives read).spells ⟨t,l,l.pastAll (c :: cs),[]⟩ rfl
    have own : (c :: (cs ++ more ++ rest)).take (cs.length + 1) = c :: cs := by simp
    rw [own] at spells
    exact .next [] (c :: cs) rfl rfl spells ih

-- Between a period and a word stand blanks only.
theorem blank_head (read : Reads d prev l (c :: front) rest ls) (blanks : ∀ w ∈ ls, w.token.isBlank = true) : c.isDigit = false := by
  generalize whole : c :: front = text at read
  cases read with
  | done => cases whole
  | @step _ c' cs more _ t ls _ read =>
    cases whole
    have blank : t.isBlank = true := blanks _ List.mem_cons_self
    rcases isBlank_cases t with other | ⟨b,rfl⟩
    · cases other.symm.trans blank
    · exact blank_digit read

theorem pastAll_still {l : Location} (same : l.pastAll cs = l) : cs = [] := by
  refine Decidable.by_contra fun more => ?_
  have later := l.lt_pastAll more
  rw [same] at later
  simp [Location.lt_iff] at later

-- A text has one part in front of a place.
theorem front_place {a b : List Char} (whole : a ++ x = b ++ y) (same : Location.start.pastAll a = Location.start.pastAll b) :
    a = b ∧ x = y := by
  rcases List.append_eq_append_iff.mp whole with ⟨more,rfl,rfl⟩ | ⟨more,rfl,rfl⟩ <;> rw [Location.pastAll_append] at same
  · cases pastAll_still same.symm
    simp
  · cases pastAll_still same
    simp

theorem word_taken (read : first d prev c cs = .ok (.ofWord (.ofList v),n)) : v = (c :: cs).take (n + 1) := by
  generalize same : Token.ofWord (.ofList v) = t at read
  cases first_gives read with
  | word spelled =>
    have text : String.ofList v = _ := (Token.word.inj same).1
    rw [← spelled,← text,String.toList_ofList]
  | comment => cases same
  | plain other =>
    subst same
    cases other

end Token

open Token
open PreparedText (lexemes lexemes_known lexemes_located)

theorem isKept_word (d : Dialect) (v : String) : IsKept d (.ofWord v) := isKept_plain d nofun
theorem isKept_symbol (d : Dialect) (s : Symbol) : IsKept d (.symbol s) := isKept_plain d nofun

-- An unquoted word of a text, with the period in front of it.
structure Dotted (d : Dialect) (a v b : List Char) (front : List Lexeme) (dot w : Lexeme) (after : List Lexeme) : Prop where
  read : lexemes d (a ++ v ++ b) = front ++ dot :: w :: after
  period : dot.token = .symbol .period
  word : w.token = .ofWord (.ofList v)
  place : w.start = Location.start.pastAll a

namespace Dotted

-- The steps that such a text is read in: the part in front of the period, the period, blanks, the word and the rest.
structure Steps (d : Dialect) (f g v b : List Char) (pre gap post : List Lexeme) : Prop where
  front : Reads d none .start f ('.' :: (g ++ (v ++ b))) pre
  dot : first d (lastToken none pre) '.' (g ++ (v ++ b)) = .ok (.symbol .period,0)
  blanks : Reads d (some (.symbol .period)) (Location.start.pastAll (f ++ ['.'])) g (v ++ b) gap
  blank : ∀ x ∈ gap, x.token.isBlank = true
  rest : scanFrom d (openComment d) (some (.ofWord (.ofList v))) (Location.start.pastAll (f ++ '.' :: g ++ v)) 0 b = .ok post

namespace Steps

def period (f : List Char) (gap : List Lexeme) : Lexeme :=
  ⟨.symbol .period,Location.start.pastAll f,Location.start.pastAll (f ++ ['.']),(gathered gap).1⟩

def name (f g v : List Char) (post : List Lexeme) : Lexeme :=
  ⟨.ofWord (.ofList v),Location.start.pastAll (f ++ '.' :: g),Location.start.pastAll (f ++ '.' :: g ++ v),(gathered post).1⟩

theorem read (steps : Steps d f g v b pre gap post) (shown : v = c :: cs)
    (word : first d (lastToken (some (.symbol .period)) gap) c (cs ++ b) = .ok (.ofWord (.ofList v),cs.length)) :
    lexemes d (f ++ '.' :: g ++ v ++ b) = (gathered pre).2 ++ period f gap :: name f g v post :: (gathered post).2 := by
  have behind : Reads d (lastToken (some (.symbol .period)) gap) (Location.start.pastAll (f ++ '.' :: g)) v b
      [{ name f g v post with gap := [] }] := by
    have own : Reads d (lastToken (some (.symbol .period)) gap) (Location.start.pastAll (f ++ '.' :: g)) (c :: cs ++ []) b _ :=
      .step (by simpa using word) (isKept_word d _) .done
    rw [name,Location.pastAll_append _ (f ++ '.' :: g),shown]
    simpa [shown] using own
  have gaps : Reads d (some (.symbol .period)) (Location.start.pastAll (f ++ ['.'])) (g ++ v) b
      (gap ++ [{ name f g v post with gap := [] }]) := by
    refine steps.blanks.append ?_
    rw [← Location.pastAll_append,List.append_assoc]
    exact behind
  have dot : Reads d (lastToken none pre) (Location.start.pastAll f) ('.' :: (g ++ v)) b
      ({ period f gap with gap := [] } :: (gap ++ [{ name f g v post with gap := [] }])) := by
    rw [Location.pastAll_append] at gaps
    rw [period,Location.pastAll_append]
    exact .step (c := '.') (by simpa using steps.dot) (isKept_symbol d .period) gaps
  have whole := (Reads.append (by simpa using steps.front) dot).scan
  have last : lastToken none (pre ++ { period f gap with gap := [] } :: (gap ++ [{ name f g v post with gap := [] }])) =
      some (.ofWord (.ofList v)) := by
    simp [lastToken,name]
  have text : f ++ '.' :: g ++ v ++ b = f ++ '.' :: (g ++ v) ++ b := by simp
  have place : f ++ '.' :: (g ++ v) = f ++ '.' :: g ++ v := by simp
  rw [last,place,steps.rest] at whole
  rw [lexemes,scan,whole]
  have gathers : gathered (pre ++ { period f gap with gap := [] } :: (gap ++ [{ name f g v post with gap := [] }]) ++ post) =
      ((gathered pre).1,(gathered pre).2 ++ period f gap :: name f g v post :: (gathered post).2) := by
    rw [List.append_assoc,List.cons_append,List.append_assoc,List.singleton_append,gathered_append pre rfl,gathered_append gap rfl,
      gathered_none.mpr steps.blank]
    rfl
  exact congrArg Prod.snd gathers

end Steps

-- A text without opened comments is read in such steps.
theorem steps (dotted : Dotted d a v b front dot w after) (quiet : d.opensComments = true → ¬ openingMark <:+: a ++ v ++ b) :
    ∃ f g pre gap post, Steps d f g v b pre gap post ∧ a = f ++ '.' :: g ∧ front = (gathered pre).2 ∧ dot = Steps.period f gap ∧
      w = Steps.name f g v post ∧ after = (gathered post).2 := by
  obtain ⟨read,period,word,place⟩ := dotted
  obtain ⟨ls,scanned,read⟩ : ∃ ls, scanFrom d (openComment d) none .start 0 (a ++ v ++ b) = .ok ls ∧
      (gathered ls).2 = front ++ dot :: w :: after := by
    rw [lexemes,scan] at read
    cases scanned : scanFrom d (openComment d) none .start 0 (a ++ v ++ b) with
    | error fault =>
      rw [scanned] at read
      cases front <;> cases read
    | ok ls =>
      rw [scanned] at read
      exact ⟨ls,rfl,read⟩
  obtain ⟨pre,r,post,rfl,_,first,rfl,rfl⟩ := gathered_split (show (gathered ls).2 = (front ++ [dot]) ++ w :: after by simpa using read)
  obtain ⟨pre,r',gap,rfl,_,rfl,rfl,blank⟩ := gathered_split first
  have keeps := openComment_keeps quiet
  rw [List.append_assoc pre,List.cons_append] at scanned
  obtain ⟨f,rest,text,before,later⟩ := reads_of_scan pre keeps scanned
  have keeps := keeps.behind (text ▸ List.suffix_append f rest)
  obtain ⟨c,more,n,rfl,opened,_,placed,later⟩ := scan_step keeps later
  have period : r'.token = .symbol .period := period
  rw [period] at opened placed later
  obtain ⟨rfl,rfl⟩ := period_step opened
  have keeps := keeps.behind (List.suffix_cons _ more)
  obtain ⟨g,rest,rfl,blanks,later⟩ := reads_of_scan gap keeps later
  have keeps := keeps.behind (List.suffix_append g rest)
  obtain ⟨c,more,n,rfl,taken,_,placed',later⟩ := scan_step keeps later
  have word : r.token = .ofWord (.ofList v) := word
  rw [word] at taken placed' later
  have own : c :: more.take n = v := (word_taken taken).symm
  have dotted : (Location.start.pastAll f).pastAll ['.'] = Location.start.pastAll (f ++ ['.']) := by rw [Location.pastAll_append]
  have here : (Location.start.pastAll (f ++ ['.'])).pastAll g = Location.start.pastAll (f ++ '.' :: g) := by
    rw [← Location.pastAll_append,List.append_assoc,List.singleton_append]
  rw [List.take_zero,dotted] at placed later blanks placed'
  rw [here,own,← Location.pastAll_append] at placed' later
  have start : r.start = Location.start.pastAll a := place
  rw [placed'] at start
  obtain ⟨rfl,rest⟩ := front_place (x := v ++ b) (y := c :: more) (by simpa using text) start.symm
  have behind : v ++ b = v ++ more.drop n := by
    rw [rest]
    rw [← own,List.cons_append,List.take_append_drop]
  rw [← List.append_cancel_left behind] at later
  rw [← rest] at before opened blanks
  exact ⟨f,g,pre,gap,post,⟨before,opened,blanks,gathered_none.mp blank,later⟩,rfl,rfl,by rw [placed]; rfl,by rw [placed']; rfl,rfl⟩

-- The words on either side stand on their own parts of the text.
theorem located (dotted : Dotted d a v b front dot w after) (quiet : d.opensComments = true → ¬ openingMark <:+: a ++ v ++ b) :
    Located .start a front ∧ Located (Location.start.pastAll (a ++ v)) b after := by
  have keeps := (openComment_keeps quiet).behind (List.suffix_append (a ++ v) b)
  obtain ⟨f,g,pre,gap,post,steps,rfl,rfl,rfl,rfl,rfl⟩ := dotted.steps quiet
  exact ⟨steps.front.located.gathered.longer _,(scanFrom_located keeps steps.rest).gathered⟩

-- Any unquoted word behind a period has its part of the text.
theorem exists_parts (read : lexemes d sql = front ++ dot :: w :: after) (period : dot.token = .symbol .period)
    (word : w.token = .word v none k) (quiet : d.opensComments = true → ¬ openingMark <:+: sql) :
    ∃ a b, sql = a ++ v.toList ++ b ∧ Dotted d a v.toList b front dot w after := by
  have inside : w ∈ lexemes d sql := by simp [read]
  have known := lexemes_known d sql w inside
  obtain ⟨a,own,b,same,start,_,spells⟩ := (lexemes_located d sql quiet).split inside
  rw [Lexeme.Spells,word] at spells
  rw [word] at known
  have keyword : k = Keyword.ofText? v := known
  subst same spells
  exact ⟨a,b,rfl,read,period,by rw [word,ofWord,String.ofList_toList,keyword],start⟩

-- Another name is read in the same steps.
theorem Steps.exchange (steps : Steps d f g (c :: cs) b pre gap post) (digit : c'.isDigit = false) (newline : c' ≠ '\n')
    (underscore : c' = '_' → c = '_') (place : ∀ l : Location, l.pastAll (c' :: cs') = l.pastAll (c :: cs)) :
    Steps d f g (c' :: cs') b pre gap post where
  front := steps.front.period _
  dot := by
    have dot := steps.dot
    have blanks := steps.blanks
    cases g with
    | nil => exact first_period_name dot digit underscore
    | cons x g => exact first_period_name dot (blank_head blanks steps.blank) id
  blanks := steps.blanks.blanks steps.blank (List.cons_ne_nil _ _) (by simpa using newline)
  blank := steps.blank
  rest := by
    rw [Location.pastAll_append,place,← Location.pastAll_append]
    exact (scanFrom_word_before (openComment_word_before d _ _ _ _ _ _) b).trans steps.rest

theorem bareName_start (d : Dialect) (name : d.isBareName (c :: cs) = true) :
    c.isDigit = false ∧ c ≠ '.' ∧ ∀ x ∈ c :: cs, x ≠ '\n' := by
  have fits : (Piece.word (.ofList (c :: cs))).Fits d none none := ⟨by rwa [String.toList_ofList],rfl⟩
  obtain ⟨c',_,shown,digit,_⟩ := bareName_head d (.ofList (c :: cs)) (by rwa [String.toList_ofList])
  have chars := Piece.fits_chars _ fits
  simp only [Piece.chars,String.toList_ofList] at chars shown
  cases shown
  refine ⟨digit,?_,chars⟩
  simp only [Dialect.isBareName,Bool.and_eq_true,decide_eq_true_eq] at name
  rintro rfl
  rcases startsName_class d name.1.1.1 (by decide) (by decide) with alpha | low | high
  · cases alpha
  · cases low
  · exact absurd high (by decide)

-- A name that is read where another stands.
structure Fills (d : Dialect) (v b v' : List Char) : Prop where
  length : v'.length = v.length
  flat : '\n' ∉ v
  name : d.isBareName v' = true
  reads : ∀ c cs, v' = c :: cs → first d none c (cs ++ b) = .ok (.ofWord (.ofList v'),cs.length)
  underscore : v'.head? = some '_' → v.head? = some '_'

theorem Fills.place (fills : Fills d v b v') (l : Location) : l.pastAll v' = l.pastAll v := by
  obtain ⟨length,flat,name,_⟩ := fills
  match v' with
  | [] => cases name
  | c :: cs =>
    rw [Location.pastAll_flat l (bareName_start d name).2.2,Location.pastAll_flat l fun x inside same => flat (same ▸ inside),length]

-- Every other lexeme is the same and at the same place.
theorem exchange (dotted : Dotted d a v b front dot w after) (quiet : d.opensComments = true → ¬ openingMark <:+: a ++ v ++ b)
    (fills : Fills d v b v') :
    lexemes d (a ++ v' ++ b) = front ++ dot :: { w with token := .ofWord (.ofList v') } :: after := by
  obtain ⟨f,g,pre,gap,post,steps,rfl,rfl,rfl,rfl,rfl⟩ := dotted.steps quiet
  have place := fills.place
  obtain ⟨length,_,name,reads,underscore⟩ := fills
  match v', v with
  | [], _ => cases name
  | _ :: _, [] => cases length
  | c' :: cs', c :: cs =>
    obtain ⟨digit,other,flat⟩ := bareName_start d name
    have changed := steps.exchange digit (flat c' List.mem_cons_self) (by simpa using underscore) place
    rw [changed.read rfl ((first_before d _ _ digit other).trans (reads c' cs' rfl))]
    simp only [Steps.name,Location.pastAll_append,place]

end Dotted

end Sql

end JoinTree
