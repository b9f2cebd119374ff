import JoinTree.Sql.Token.Lexer
import JoinTree.Text.Blank

/-!
Text that is put together of words, symbols and single spaces, and the lexemes that it is read as.
-/

namespace JoinTree

namespace Text

-- Blank characters beyond ASCII.
def wideBlanks : List (Nat × Nat) :=
  [(133,133),(160,160),(5760,5760),(8192,8202),(8232,8233),(8239,8239),(8287,8287),(12288,12288)]

theorem wideBlanks_apart : (alphabeticRanges.toList.all fun r => wideBlanks.all fun b =>
    decide (r.2 < b.1) || decide (b.2 < r.1)) = true := by decide +kernel

theorem isBlank_class (blank : isBlank c = true) :
    c.toNat ∈ [9,10,11,12,13,32] ∨ ∃ b ∈ wideBlanks, b.1 ≤ c.toNat ∧ c.toNat ≤ b.2 := by
  simp only [isBlank,Bool.or_eq_true,Bool.and_eq_true,decide_eq_true_eq] at blank
  simp only [wideBlanks,List.mem_cons,List.not_mem_nil,or_false,exists_eq_or_imp,exists_eq_left]
  omega

theorem isAlphabetic_blank (blank : isBlank c = true) : isAlphabetic c = false := by
  rcases isBlank_class blank with ascii | ⟨b,member,low,high⟩
  · have known : ∀ n ∈ [9,10,11,12,13,32], isAlphabetic (Char.ofNat n) = false := by decide
    simpa using known _ ascii
  · have wide : ∀ b ∈ wideBlanks, 128 ≤ b.1 := by decide
    have ascii : ¬ c.toNat < 128 := by
      have := wide b member
      omega
    rw [isAlphabetic,if_neg ascii,Ranges.has,← Array.any_toList,List.any_eq_false]
    intro r inside
    have apart := List.all_eq_true.mp (List.all_eq_true.mp wideBlanks_apart r inside) b member
    simp only [Bool.or_eq_true,decide_eq_true_eq] at apart
    simp only [Bool.and_eq_true,decide_eq_true_eq]
    omega

end Text

namespace Sql

-- A bare name without a mark in front: a letter or an underscore, then the characters that names go on with.
def Dialect.isBareName (d : Dialect) : List Char → Bool
  | [] => false
  | c :: cs => d.startsName c && c ≠ '#' && c ≠ '@' && cs.all d.continuesName

-- What may stand behind a bare name: nothing that it goes on with, and nothing that makes a literal of it.
def Dialect.endsName (d : Dialect) (c : Char) : Bool := !d.continuesName c && !(['\'','"','\x60','&'].contains c)

inductive Piece where
  | word (value : String)
  | symbol (s : Symbol)
  | space
  deriving DecidableEq, Repr

namespace Piece

def chars : Piece → List Char
  | word v => v.toList
  | symbol s => s.text.toList
  | space => [' ']

def token : Piece → Token
  | word v => .ofWord v
  | symbol s => .symbol s
  | space => .blank .space

def isWord : Piece → Bool
  | word _ => true
  | _ => false

def text (ps : List Piece) : List Char := ps.flatMap chars

-- Whether a symbol is read as itself between two pieces. A minus sign in front of another one opens a comment.
def separates (before next : Option Piece) : Symbol → Bool
  | .lparen | .rparen | .comma => true
  | .minus => next.all fun p => p.isWord || p = space || p = symbol .lparen || p = symbol .minus
  | .period => before.any isWord && next.any isWord
  | .eq | .neq | .lt | .gt | .ltEq | .gtEq | .plus | .mul | .div | .mod | .concat => next = some space
  | _ => false

def Fits (d : Dialect) (before next : Option Piece) : Piece → Prop
  | word v => d.isBareName v.toList = true ∧ next.all (!·.isWord) = true
  | symbol s => separates before next s = true
  | space => True

-- Pieces none of which runs into the next one.
def Spaced (d : Dialect) : (before : Option Piece) → List Piece → Prop
  | _, [] => True
  | before, p :: ps => p.Fits d before ps.head? ∧ Spaced d (some p) ps

end Piece

-- Characters that open a name are none of the ASCII characters with a meaning of their own.
theorem startsName_class (d : Dialect) (starts : d.startsName c = true) (sharp : c ≠ '#') (at_sign : c ≠ '@') :
    c.isAlpha = true ∨ c = '_' ∨ 128 ≤ c.toNat := by
  by_cases ascii : c.toNat < 128
  · cases d <;> simp_all [Dialect.startsName,Dialect.isPlainLetter,Text.isAlphabetic_ascii] <;> grind
  · exact .inr (.inr (by omega))

theorem isAlpha_range {c : Char} (alpha : c.isAlpha = true) : 65 ≤ c.toNat ∧ c.toNat ≤ 90 ∨ 97 ≤ c.toNat ∧ c.toNat ≤ 122 := by
  have cases_alpha : (c.isUpper || c.isLower) = true := alpha
  rcases Bool.or_eq_true_iff.mp cases_alpha with upper | lower
  · exact .inl (of_decide_eq_true upper)
  · have both : (decide (97 ≤ c.val) && decide (c.val ≤ 122)) = true := lower
    simp only [Bool.and_eq_true,decide_eq_true_eq] at both
    exact .inr both

theorem isDigit_range {c : Char} : c.isDigit = true ↔ 48 ≤ c.toNat ∧ c.toNat ≤ 57 := by
  simp only [Char.isDigit,Bool.and_eq_true,decide_eq_true_eq,ge_iff_le,UInt32.le_iff_toNat_le]
  exact Iff.rfl

theorem isDigit_outside {c : Char} (outside : c.toNat < 48 ∨ 57 < c.toNat) : c.isDigit = false := by
  refine Bool.eq_false_iff.mpr fun digit => ?_
  have range := isDigit_range.mp digit
  omega

theorem continuesName_letter (d : Dialect) (letter : c.isAlpha = true) : d.continuesName c = true := by
  have range := isAlpha_range letter
  have alphabetic : Text.isAlphabetic c = c.isAlpha := Text.isAlphabetic_ascii (by omega)
  cases d <;> simp [Dialect.continuesName,Dialect.isPlainLetter,alphabetic,letter]

theorem toLower_letter {c : Char} (letter : c.toLower.isAlpha = true) : c.isAlpha = true := by
  by_cases upper : 'A'.val ≤ c.val ∧ c.val ≤ 'Z'.val
  · have capital : c.isUpper = true := decide_eq_true upper
    have either : (c.isUpper || c.isLower) = true := by rw [capital,Bool.true_or]
    exact either
  · have same : c.toLower = c := dif_neg upper
    rwa [same] at letter

theorem isBlank_nameless (blank : Text.isBlank c = true) :
    c.isAlpha = false ∧ c.isDigit = false ∧ c ≠ '_' ∧ c ≠ '#' ∧ c ≠ '@' ∧ c ≠ '$' := by
  have outside : ¬ (33 ≤ c.toNat ∧ c.toNat < 133) := by
    rcases Text.isBlank_class blank with ascii | ⟨b,member,low,high⟩
    · simp only [List.mem_cons,List.not_mem_nil,or_false] at ascii
      omega
    · have wide : ∀ b ∈ Text.wideBlanks, 133 ≤ b.1 := by decide
      have := wide b member
      omega
  refine ⟨?_,?_,?_,?_,?_,?_⟩
  · cases alpha : c.isAlpha with
    | false => rfl
    | true =>
      have range := isAlpha_range alpha
      omega
  · exact isDigit_outside (by omega)
  all_goals
    rintro rfl
    exact outside (by decide)

-- No blank stands in a name.
theorem startsName_blank (d : Dialect) (starts : d.startsName c = true) : Text.isBlank c = false := by
  cases blank : Text.isBlank c with
  | false => rfl
  | true =>
    obtain ⟨alpha,digit,other⟩ := isBlank_nameless blank
    cases d <;> simp [Dialect.startsName,Dialect.isPlainLetter,Text.isAlphabetic_blank blank,alpha,other] at starts

theorem continuesName_blank (d : Dialect) (more : d.continuesName c = true) : Text.isBlank c = false := by
  cases blank : Text.isBlank c with
  | false => rfl
  | true =>
    obtain ⟨alpha,digit,other⟩ := isBlank_nameless blank
    cases d <;> simp [Dialect.continuesName,Dialect.isPlainLetter,Text.isAlphabetic_blank blank,alpha,digit,other] at more

namespace Token

section
variable {d : Dialect} {cs rest : List Char} (name : cs.all d.continuesName = true) (behind : rest.head?.all d.endsName = true)
include name behind

theorem bareWord_exact : bareWord d [c] (cs ++ rest) = .ok (.ofWord (.ofList (c :: cs)),cs.length) := by
  have stops : rest.takeWhile d.continuesName = [] := by
    cases rest with
    | nil => rfl
    | cons r rest => simp_all [Dialect.endsName]
  have more : (cs ++ rest).takeWhile d.continuesName = cs := by
    rw [List.takeWhile_append_of_pos (by simpa using name),stops,List.append_nil]
  simp [bareWord,more]

-- Within a name and right behind it stand no marks of literals.
theorem marks_absent : ∀ q more, cs ++ rest = q :: more → q ≠ '\'' ∧ q ≠ '"' ∧ q ≠ '&' := by
  have inside : (['\'','"','&'].all fun q => !d.continuesName q) = true := by cases d <;> decide +kernel
  intro q more same
  cases cs with
  | nil =>
    rw [List.nil_append] at same
    subst same
    simp only [List.head?_cons,Option.all_some,Dialect.endsName,Bool.and_eq_true] at behind
    have apart : ¬ q = '\'' ∧ ¬ q = '"' ∧ ¬ q = '\x60' ∧ ¬ q = '&' := by simpa using behind.2
    exact ⟨apart.1,apart.2.1,apart.2.2.2⟩
  | cons c cs =>
    cases same
    have goes : d.continuesName q = true := by simp_all
    have absent : q ∉ ['\'','"','&'] := fun member => by simpa [goes] using List.all_eq_true.mp inside q member
    simpa using absent

-- No quote stands behind a letter that stands behind the first one.
theorem quote_second (letter : d.continuesName q = true) (same : cs ++ rest = q :: more) : more.head? ≠ some '\'' := by
  cases cs with
  | nil =>
    rw [List.nil_append] at same
    subst same
    simp [Dialect.endsName,letter] at behind
  | cons c cs =>
    obtain ⟨rfl,rfl⟩ := List.cons.inj same
    have name' : cs.all d.continuesName = true := by simp_all
    have later := marks_absent name' behind
    intro quoted
    obtain ⟨more,shown⟩ : ∃ more, cs ++ rest = '\'' :: more := ⟨(cs ++ rest).tail,by
      cases split : cs ++ rest <;> simp_all⟩
    exact (later _ _ shown).1 rfl

-- A letter opens a name and no literal.
theorem lettered_exact : lettered d c (cs ++ rest) = bareWord d [c] (cs ++ rest) := by
  have first := marks_absent name behind
  have second (q : Char) (more : List Char) (same : cs ++ rest = q :: '\'' :: more) : q.toLower ≠ 'q' := by
    intro lower
    have letter := continuesName_letter d (toLower_letter (by rw [lower]; rfl))
    exact quote_second name behind letter same rfl
  unfold lettered
  split
  case h_1 | h_2 => simp [first _ _ ‹_›]
  case h_5 => simp [second _ _ ‹_›]
  case h_8 => exact absurd rfl (first _ _ ‹_›).2.2
  case h_9 => rfl
  all_goals exact absurd rfl (first _ _ ‹_›).1

end

-- The characters that operators start with.
def operatorStarts : List Char :=
  ['-','/','|','=','!','<','>',':','&','^','~','#','@','(',')',',','+','*','%',';','\\','[',']','\x7b','\x7d']

theorem operator?_start (read : operator? d (c :: cs) = some r) : c ∈ operatorStarts := by
  unfold operator? at read
  split at read
  all_goals first
    | (rename_i same; cases same; decide)
    | cases read

theorem operator?_absent (d : Dialect) (other : c ∉ operatorStarts) : operator? d (c :: cs) = none := by
  cases found : operator? d (c :: cs) with
  | none => rfl
  | some r => exact absurd (operator?_start found) other

theorem operator?_none (d : Dialect) (c : Char) (name : c = '_' ∨ 128 ≤ c.toNat) : operator? d (c :: cs) = none := by
  refine operator?_absent d fun start => ?_
  have narrow : (operatorStarts.all fun a => a ≠ '_' && a.toNat < 128) = true := by decide
  have here := List.all_eq_true.mp narrow c start
  simp only [Bool.and_eq_true,decide_eq_true_eq] at here
  rcases name with rfl | large
  · exact here.1 rfl
  · omega

theorem first_word (d : Dialect) (prev : Option Token) (name : d.isBareName (c :: cs) = true)
    (behind : rest.head?.all d.endsName = true) :
    first d prev c (cs ++ rest) = .ok (.ofWord (.ofList (c :: cs)),cs.length) := by
  simp only [Dialect.isBareName,Bool.and_eq_true,decide_eq_true_eq] at name
  obtain ⟨⟨⟨starts,sharp⟩,at_sign⟩,more⟩ := name
  rw [← bareWord_exact more behind]
  by_cases letter : c.isAlpha = true
  · have other : c ≠ ' ' ∧ c ≠ '\t' ∧ c ≠ '\n' ∧ c ≠ '\r' := by
      refine ⟨?_,?_,?_,?_⟩ <;> rintro rfl <;> cases letter
    simp only [first,other,letter,if_false,if_true,lettered_exact more behind]
  · have class' : c = '_' ∨ 128 ≤ c.toNat := by
      rcases startsName_class d starts sharp at_sign with alpha | rest
      · exact absurd alpha letter
      · exact rest
    have special (x : Char) (low : x.toNat < 128) (other : x ≠ '_') : c ≠ x := by
      rintro rfl
      rcases class' with rfl | high
      · exact other rfl
      · omega
    have digit : c.isDigit = false := by
      rcases class' with rfl | high
      · rfl
      · exact isDigit_outside (by omega)
    have ticks : (decide (c = '"') || decide (c = '\x60')) = false := by
      simp [special '"' (by decide) (by decide),special '\x60' (by decide) (by decide)]
    have marks : (c.isDigit || decide (c = '.')) = false := by
      simp [digit,special '.' (by decide) (by decide)]
    simp only [first,special ' ' (by decide) (by decide),special '\t' (by decide) (by decide),
      special '\n' (by decide) (by decide),special '\r' (by decide) (by decide),special '\'' (by decide) (by decide),
      special '-' (by decide) (by decide),special '/' (by decide) (by decide),special '?' (by decide) (by decide),
      operator?_none d c class',sharp,at_sign,letter,ticks,marks,starts,decide_false,Bool.false_and,Bool.or_self,
      Bool.false_eq_true,if_false,if_true]

-- A symbol in front of a space.
theorem first_spaced (d : Dialect) (prev : Option Token) (spaced : Piece.separates none (some .space) s = true) :
    ∃ c cs, s.text.toList = c :: cs ∧ first d prev c (cs ++ ' ' :: rest) = .ok (.symbol s,cs.length) := by
  cases s <;> simp only [Piece.separates,Bool.false_eq_true,Option.any_none,Bool.false_and] at spaced
  all_goals
    refine ⟨_,_,rfl,?_⟩
    cases d <;> rfl

theorem first_bracket (d : Dialect) (prev : Option Token) (bracket : s = .lparen ∨ s = .rparen ∨ s = .comma) :
    ∃ c cs, s.text.toList = c :: cs ∧ first d prev c (cs ++ rest) = .ok (.symbol s,cs.length) := by
  rcases bracket with rfl | rfl | rfl
  all_goals
    refine ⟨_,_,rfl,?_⟩
    cases d <;> rfl

theorem first_minus (d : Dialect) (prev : Option Token) (comment : rest.head? ≠ some '-') (arrow : rest.head? ≠ some '>') :
    first d prev '-' rest = .ok (.symbol .minus,0) := by
  cases rest with
  | nil => cases d <;> rfl
  | cons c rest =>
    have comment : c ≠ '-' := by simpa using comment
    have arrow : c ≠ '>' := by simpa using arrow
    have op : operator? d ('-' :: c :: rest) = some (.minus,0) := by
      unfold operator?
      split
      all_goals first
        | rfl
        | (rename_i same; cases same; exact absurd rfl arrow)
        | (rename_i same; cases same)
        | exact absurd rfl (‹∀ tail, '-' :: c :: rest = '-' :: tail → False› (c :: rest))
    have line : decide ((c :: rest).head? = some '-') = false := by simpa using comment
    unfold first
    rw [line,op]
    rfl

-- A period between two names.
theorem first_period (d : Dialect) (v : String) (q : Option Char) (k : Option Keyword) (digit : c.isDigit = false) :
    first d (some (.word v q k)) '.' (c :: rest) = .ok (.symbol .period,0) := by
  have opened : first d (some (.word v q k)) '.' (c :: rest) = numeral d (some (.word v q k)) ('.' :: c :: rest) := rfl
  rw [opened]
  unfold numeral
  by_cases underscore : c = '_'
  · subst underscore
    rfl
  · have whole (isDigit : Char → Bool) (none : isDigit '.' = false) :
        digitRun d.hasDigitSeparators isDigit ('.' :: c :: rest) = [] := by
      simp [digitRun,none]
    have fraction : digitRun d.hasDigitSeparators Char.isDigit (c :: rest) = [] := by
      simp [digitRun,digit,underscore]
    simp [whole Char.isDigit rfl,fraction,underscore]

end Token

namespace Piece

-- What stands behind a piece is read apart from it.

theorem text_cons (p : Piece) (ps : List Piece) : text (p :: ps) = p.chars ++ text ps := by simp [text]

def place (p : Piece) (l : Location) : Lexeme := { token := p.token, start := l, stop := l.pastAll p.chars }

-- The lexemes of a text of pieces. Two minus signs in a row open a comment that takes up all that is left.
def lexemes : Location → List Piece → List Lexeme
  | _, [] => []
  | l, p :: ps =>
    if p = .symbol .minus ∧ ps.head? = some (.symbol .minus) then
      [{ token := .blank (.lineComment "--" (.ofList (text ps.tail))), start := l, stop := l.pastAll (text (p :: ps)) }]
    else p.place l :: lexemes (l.pastAll p.chars) ps

-- The symbols that pieces are made of.
def symbols : List Symbol :=
  [.lparen,.rparen,.comma,.minus,.period,.eq,.neq,.lt,.gt,.ltEq,.gtEq,.plus,.mul,.div,.mod,.concat]

theorem separates_symbol (fits : separates before next s = true) : s ∈ symbols := by
  cases s <;> first | decide | cases fits

-- The other symbols have a blank behind them, and then any piece in front.
theorem separates_space (fits : separates before next s = true) (bracket : ¬ (s = .lparen ∨ s = .rparen ∨ s = .comma))
    (period : s ≠ .period) (minus : s ≠ .minus) : next = some .space ∧ separates none (some .space) s = true := by
  cases s
  case lparen | rparen | comma => exact absurd (by decide) bracket
  case period => exact absurd rfl period
  case minus => exact absurd rfl minus
  case eq | neq | lt | gt | ltEq | gtEq | plus | mul | div | mod | concat => exact ⟨of_decide_eq_true fits,rfl⟩
  all_goals cases fits

-- No piece has a line end in it.
theorem fits_chars (p : Piece) (fits : p.Fits d before next) : ∀ c ∈ p.chars, c ≠ '\n' := by
  cases p with
  | space => simp [chars]
  | symbol s =>
    have known : (symbols.all fun s => s.text.toList.all fun c => c ≠ '\n') = true := by decide
    intro c member
    simpa using List.all_eq_true.mp (List.all_eq_true.mp known s (separates_symbol fits)) c member
  | word v =>
    have name := fits.1
    intro c member
    simp only [chars] at member
    cases shown : v.toList with
    | nil => simp [shown] at member
    | cons first more =>
      simp only [shown,Dialect.isBareName,Bool.and_eq_true,List.all_eq_true] at name
      have other : Text.isBlank c = false := by
        rcases List.mem_cons.mp (shown ▸ member) with rfl | later
        · exact startsName_blank d name.1.1.1
        · exact continuesName_blank d (name.2 c later)
      rintro rfl
      cases other

theorem spaced_chars (spaced : Spaced d before ps) : ∀ c ∈ text ps, c ≠ '\n' := by
  induction ps generalizing before with
  | nil => simp [text]
  | cons p ps ih =>
    intro c member
    rw [text_cons,List.mem_append] at member
    rcases member with here | later
    · exact fits_chars p spaced.1 c here
    · exact ih spaced.2 c later

-- A word ends where other pieces begin.
theorem text_boundary (d : Dialect) (other : ps.head?.all (!·.isWord) = true) (known : ∀ s, ps.head? = some (.symbol s) → s ∈ symbols) :
    (text ps).head?.all d.endsName = true := by
  cases ps with
  | nil => rfl
  | cons p ps =>
    cases p with
    | word v => simp [isWord] at other
    | space => cases d <;> rfl
    | symbol s =>
      have ends : ∀ s ∈ symbols, s.text.toList ≠ [] ∧ s.text.toList.head?.all d.endsName = true := by
        cases d <;> decide
      obtain ⟨some_char,stops⟩ := ends s (known s rfl)
      rw [text_cons,chars]
      cases shown : s.text.toList with
      | nil => exact absurd shown some_char
      | cons c cs => simpa [shown] using stops

end Piece

namespace Token

theorem scanFrom_skip (d : Dialect) (spread : Spread) (prev : Option Token) (l : Location) (cs rest : List Char) :
    scanFrom d spread prev l cs.length (cs ++ rest) = scanFrom d spread prev (l.pastAll cs) 0 rest := by
  induction cs generalizing l with
  | nil => rfl
  | cons c cs ih => exact ih (l.past c)

-- A token of which no comment is opened.
def IsKept (d : Dialect) (t : Token) : Prop := ∀ prev (x : Lexeme), x.token = t → openComment d prev x = .ok [x]

theorem isKept_plain (d : Dialect) (plain : ∀ s, t ≠ .blank (.blockComment s)) : IsKept d t := by
  intro prev x same
  unfold openComment
  rw [same]
  split
  · exact absurd rfl (plain _)
  · rfl

theorem scanFrom_kept (own : List Char) (kept : IsKept d t) (shown : own = c :: cs)
    (read : first d prev c (cs ++ rest) = .ok (t,cs.length)) :
    scanFrom d (openComment d) prev l 0 (own ++ rest) =
      (⟨t,l,l.pastAll own,[]⟩ :: ·) <$> scanFrom d (openComment d) (some t) (l.pastAll own) 0 rest := by
  have stop : l.pastAll ((c :: (cs ++ rest)).take (cs.length + 1)) = l.pastAll own := by simp [shown]
  have behind : scanFrom d (openComment d) (some t) (l.past c) cs.length (cs ++ rest) =
      scanFrom d (openComment d) (some t) (l.pastAll own) 0 rest := by
    rw [scanFrom_skip,shown]
    rfl
  rw [shown,List.cons_append,scanFrom,read]
  simp only [stop]
  rw [kept _ _ rfl]
  simp only [bind,Except.bind,List.getLast?_singleton,Option.map_some,Option.some_or,behind,← shown]
  cases scanFrom d (openComment d) (some t) (l.pastAll own) 0 rest <;> rfl

-- One token, no comment opening with it.
theorem scanFrom_token (own : List Char) (plain : ∀ s, t ≠ .blank (.blockComment s)) (shown : own = c :: cs)
    (read : first d prev c (cs ++ rest) = .ok (t,cs.length)) :
    scanFrom d (openComment d) prev l 0 (own ++ rest) =
      (⟨t,l,l.pastAll own,[]⟩ :: ·) <$> scanFrom d (openComment d) (some t) (l.pastAll own) 0 rest :=
  scanFrom_kept own (isKept_plain d plain) shown read

theorem scanFrom_piece (p : Piece) (shown : p.chars = c :: cs) (read : first d prev c (cs ++ rest) = .ok (p.token,cs.length)) :
    scanFrom d (openComment d) prev l 0 (p.chars ++ rest) =
      (p.place l :: ·) <$> scanFrom d (openComment d) (some p.token) (l.pastAll p.chars) 0 rest :=
  scanFrom_token p.chars (by cases p <;> exact nofun) shown read

theorem bareName_cons (d : Dialect) (v : String) (name : d.isBareName v.toList = true) :
    ∃ c cs, v.toList = c :: cs ∧ d.startsName c = true ∧ c ≠ '#' ∧ c ≠ '@' := by
  cases shown : v.toList with
  | nil => simp [shown,Dialect.isBareName] at name
  | cons c cs =>
    simp only [shown,Dialect.isBareName,Bool.and_eq_true,decide_eq_true_eq] at name
    exact ⟨c,cs,rfl,name.1.1.1,name.1.1.2,name.1.2⟩

-- No bare name starts with a digit, a minus sign or an angle bracket.
theorem bareName_head (d : Dialect) (v : String) (name : d.isBareName v.toList = true) :
    ∃ c cs, v.toList = c :: cs ∧ c.isDigit = false ∧ c ≠ '-' ∧ c ≠ '>' := by
  obtain ⟨c,cs,shown,starts,sharp,at_sign⟩ := bareName_cons d v name
  refine ⟨c,cs,shown,?_,?_,?_⟩
  · rcases startsName_class d starts sharp at_sign with alpha | rfl | high
    · have range := isAlpha_range alpha
      exact isDigit_outside (by omega)
    · rfl
    · exact isDigit_outside (by omega)
  all_goals
    rintro rfl
    cases d <;> cases starts

-- A symbol other than a minus sign among pieces.
theorem first_symbol (d : Dialect) (separated : Piece.separates before ps.head? s = true) (other : s ≠ .minus)
    (after_word : before.any Piece.isWord = true → ∃ v q k, prev = some (.word v q k))
    (digitless : ps.head?.any Piece.isWord = true → ∃ c cs, Piece.text ps = c :: cs ∧ c.isDigit = false) :
    ∃ c cs, s.text.toList = c :: cs ∧ first d prev c (cs ++ Piece.text ps) = .ok (.symbol s,cs.length) := by
  by_cases bracket : s = .lparen ∨ s = .rparen ∨ s = .comma
  · exact first_bracket d prev bracket
  by_cases period : s = .period
  · subst period
    simp only [Piece.separates,Bool.and_eq_true] at separated
    obtain ⟨v,q,k,rfl⟩ := after_word separated.1
    obtain ⟨c,cs,shown,digit⟩ := digitless separated.2
    refine ⟨'.',[],rfl,?_⟩
    rw [shown]
    exact first_period d v q k digit
  obtain ⟨next,alone⟩ := Piece.separates_space separated bracket period other
  obtain ⟨ps,rfl⟩ := List.head?_eq_some_iff.mp next
  exact first_spaced d prev alone

theorem first_piece (p : Piece) (spaced : Piece.Spaced d before (p :: ps))
    (after_word : before.any Piece.isWord = true → ∃ v q k, prev = some (.word v q k))
    (comment : ¬ (p = .symbol .minus ∧ ps.head? = some (.symbol .minus))) :
    ∃ c cs, p.chars = c :: cs ∧ first d prev c (cs ++ Piece.text ps) = .ok (p.token,cs.length) := by
  have ⟨fits,later⟩ := spaced
  cases p with
  | space => exact ⟨' ',[],rfl,rfl⟩
  | word v =>
    obtain ⟨c,cs,shown,_⟩ := bareName_cons d v fits.1
    have name := fits.1
    rw [shown] at name
    refine ⟨c,cs,shown,?_⟩
    have known (s : Symbol) (next : ps.head? = some (.symbol s)) : s ∈ Piece.symbols := by
      cases ps with
      | nil => cases next
      | cons q ps =>
        cases next
        exact Piece.separates_symbol later.1
    rw [first_word d prev name (Piece.text_boundary d fits.2 known),← shown,String.ofList_toList]
    rfl
  | symbol s =>
    by_cases minus : s = .minus
    · subst minus
      have opening : (Piece.text ps).head? ≠ some '-' ∧ (Piece.text ps).head? ≠ some '>' := by
        have separated : Piece.separates before ps.head? .minus = true := fits
        match ps, separated, later, comment with
        | [], _, _, _ => decide
        | .space :: ps, _, _, _ => simp [Piece.text_cons,Piece.chars]
        | .symbol .lparen :: ps, _, _, _ => simp [Piece.text_cons,Piece.chars,Symbol.text]
        | .symbol .minus :: ps, _, _, comment => exact absurd ⟨rfl,rfl⟩ comment
        | .word v :: ps, _, later, _ =>
          obtain ⟨c,cs,shown,_,dash,angle⟩ := bareName_head d v later.1.1
          simp [Piece.text_cons,Piece.chars,shown,dash,angle]
      exact ⟨'-',[],rfl,first_minus d prev opening.1 opening.2⟩
    refine first_symbol d fits minus after_word fun word => ?_
    match ps, word, later with
    | .word w :: ps, _, later =>
      obtain ⟨c,cs,shown,digit,_⟩ := bareName_head d w later.1.1
      exact ⟨c,cs ++ Piece.text ps,by rw [Piece.text_cons,Piece.chars,shown]; rfl,digit⟩

-- A text of pieces is read as them, up to a comment.
theorem scanFrom_pieces (spaced : Piece.Spaced d before ps)
    (after_word : before.any Piece.isWord = true → ∃ v q k, prev = some (.word v q k)) :
    scanFrom d (openComment d) prev l 0 (Piece.text ps) = .ok (Piece.lexemes l ps) := by
  induction ps generalizing before prev l with
  | nil => rfl
  | cons p ps ih =>
    by_cases comment : p = .symbol .minus ∧ ps.head? = some (.symbol .minus)
    · obtain ⟨rfl,next⟩ := comment
      obtain ⟨ps,rfl⟩ : ∃ rest, ps = .symbol .minus :: rest := ⟨ps.tail,by cases ps <;> simp_all⟩
      have line : (Piece.text ps).takeWhile (· ≠ '\n') = Piece.text ps := by
        have same : (Piece.text ps ++ []).takeWhile (· ≠ '\n') = Piece.text ps ++ [].takeWhile (· ≠ '\n') :=
          List.takeWhile_append_of_pos fun c member => by simpa using Piece.spaced_chars spaced.2.2 c member
        simpa using same
      have read : first d prev '-' ('-' :: Piece.text ps) =
          .ok (.blank (.lineComment "--" (.ofList (Piece.text ps))),1 + (Piece.text ps).length) := by
        have opened : first d prev '-' ('-' :: Piece.text ps) = lineComment "--" (Piece.text ps) := by cases d <;> rfl
        rw [opened,lineComment,line]
        simp
        rfl
      have behind := scanFrom_skip d (openComment d) (some (.blank (.lineComment "--" (.ofList (Piece.text ps)))))
        (l.past '-') ('-' :: Piece.text ps) []
      rw [List.append_nil] at behind
      have shown : Piece.text (.symbol .minus :: .symbol .minus :: ps) = '-' :: '-' :: Piece.text ps := rfl
      have stop : l.pastAll (('-' :: '-' :: Piece.text ps).take (1 + (Piece.text ps).length + 1)) =
          l.pastAll ('-' :: '-' :: Piece.text ps) := by
        rw [List.take_of_length_le (by simp only [List.length_cons]; omega)]
      have count : 1 + (Piece.text ps).length = ('-' :: Piece.text ps).length := Nat.add_comm ..
      rw [shown,scanFrom,read]
      simp only [stop]
      rw [count]
      simp only [openComment,bind,Except.bind,List.getLast?_singleton,Option.map_some,Option.some_or,behind]
      rw [Piece.lexemes,if_pos ⟨rfl,rfl⟩,shown]
      rfl
    · obtain ⟨c,cs,shown,read⟩ := first_piece p spaced after_word comment
      have later : scanFrom d (openComment d) (some p.token) (l.pastAll p.chars) 0 (Piece.text ps) =
          .ok (Piece.lexemes (l.pastAll p.chars) ps) := by
        refine ih spaced.2 ?_
        intro word
        cases p with
        | word v => exact ⟨v,none,_,rfl⟩
        | symbol s => cases word
        | space => cases word
      rw [Piece.text_cons,scanFrom_piece p shown read,later,Piece.lexemes,if_neg comment]
      rfl

theorem scan_pieces (spaced : Piece.Spaced d none ps) :
    scan d (Piece.text ps) = .ok (gathered (Piece.lexemes .start ps)).2 := by
  unfold scan
  rw [scanFrom_pieces spaced (by simp)]
  rfl

def isBlank : Token → Bool
  | blank _ => true
  | _ => false

theorem gathered_tokens (ls : List Lexeme) : (gathered ls).2.map (·.token) = (ls.map (·.token)).filter (!·.isBlank) := by
  induction ls with
  | nil => rfl
  | cons l ls ih =>
    rw [List.map_cons]
    cases token : l.token with
    | blank b =>
      rw [List.filter_cons_of_neg (by simp [isBlank]),← ih]
      simp [gathered,token]
    | _ =>
      rw [List.filter_cons_of_pos (by simp [isBlank]),← ih]
      simp [gathered,token]

end Token

namespace Piece

-- The tokens of pieces that no comment takes up.
def tokens : List Piece → List Token
  | [] => []
  | p :: ps =>
    if p = .symbol .minus ∧ ps.head? = some (.symbol .minus) then []
    else if p = .space then tokens ps else p.token :: tokens ps

theorem lexemes_tokens (ps : List Piece) : ((lexemes l ps).map (·.token)).filter (!·.isBlank) = tokens ps := by
  induction ps generalizing l with
  | nil => rfl
  | cons p ps ih =>
    unfold lexemes tokens
    by_cases comment : p = .symbol .minus ∧ ps.head? = some (.symbol .minus)
    · rw [if_pos comment,if_pos comment]
      rfl
    · rw [if_neg comment,if_neg comment]
      cases p with
      | space => simpa [place,token,Token.isBlank] using ih
      | word v => simpa [place,token,Token.isBlank,Token.ofWord] using ih
      | symbol s => simpa [place,token,Token.isBlank] using ih

end Piece

end Sql

end JoinTree
