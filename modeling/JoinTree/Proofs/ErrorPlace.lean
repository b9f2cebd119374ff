import JoinTree.Sql.Error
import JoinTree.Proofs.Numeral

/-!
The place that a message names, found in its text. Main statement: behind a text that quotes neither of the words in front of
the two numbers, every pair of numbers is read as it was written, and behind any other text some pair is not.
-/

namespace JoinTree.Sql

open Text

-- The first place of a pattern.

theorem behindFirst_here (filled : p ≠ []) (rest : List Char) : behindFirst p (p ++ rest) = some rest := by
  cases p with
  | nil => exact absurd rfl filled
  | cons c p =>
    have here : (c :: p).isPrefixOf (c :: (p ++ rest)) = true := List.isPrefixOf_iff_prefix.mpr (List.prefix_append (c :: p) rest)
    rw [List.cons_append,behindFirst,if_pos here]
    simp

theorem behindFirst_later (other : ¬p <+: c :: cs) : behindFirst p (c :: cs) = behindFirst p cs := by
  rw [behindFirst,if_neg (mt List.isPrefixOf_iff_prefix.mp other)]

-- A pattern whose last character is its only one of that kind ends with the first such character or starts behind it.

theorem prefix_until (only : b ∉ w) (here : w ++ [b] <+: cs ++ b :: rest) : w ++ [b] <+: cs ++ [b] := by
  induction cs generalizing w with
  | nil =>
    cases w with
    | nil => exact List.prefix_refl _
    | cons c w =>
      obtain ⟨same,-⟩ := List.cons_prefix_cons.mp here
      exact absurd same.symm (List.ne_of_not_mem_cons only)
  | cons c cs ih =>
    cases w with
    | nil =>
      obtain ⟨same,-⟩ := List.cons_prefix_cons.mp here
      exact List.cons_prefix_cons.mpr ⟨same,List.nil_prefix⟩
    | cons d w =>
      obtain ⟨same,behind⟩ := List.cons_prefix_cons.mp here
      exact List.cons_prefix_cons.mpr ⟨same,ih (List.not_mem_of_not_mem_cons only) behind⟩

theorem behindFirst_skip (only : b ∉ w) (absent : ¬w ++ [b] <:+: cs ++ [b]) (rest : List Char) :
    behindFirst (w ++ [b]) (cs ++ b :: rest) = behindFirst (w ++ [b]) rest := by
  have elsewhere : ¬w ++ [b] <+: cs ++ b :: rest := fun here => absent (prefix_until only here).isInfix
  induction cs with
  | nil => exact behindFirst_later elsewhere
  | cons c cs ih =>
    have later : ¬w ++ [b] <:+: cs ++ [b] := fun inside => absent (inside.trans (List.suffix_cons ..).isInfix)
    exact (behindFirst_later elsewhere).trans (ih later fun here => later (prefix_until only here).isInfix)

-- What stands behind a text has no part in where a pattern of this text is first found.
theorem behindFirst_inside (inside : p <:+: cs) : ∃ between, ∀ rest, behindFirst p (cs ++ rest) = some (between ++ rest) := by
  induction cs with
  | nil =>
    obtain rfl := List.infix_nil.mp inside
    exact ⟨[],fun rest => by cases rest <;> rfl⟩
  | cons c cs ih =>
    by_cases here : p <+: c :: cs
    · obtain ⟨between,split⟩ := here
      refine ⟨between,fun rest => ?_⟩
      rw [← split,List.append_assoc]
      by_cases filled : p = []
      · subst filled
        cases between ++ rest <;> rfl
      · exact behindFirst_here filled _
    · obtain ⟨between,behind⟩ := ih ((List.infix_cons_iff.mp inside).resolve_left here)
      refine ⟨between,fun rest => ?_⟩
      have short : p.length ≤ (c :: cs).length := inside.length_le
      have elsewhere : ¬p <+: c :: cs ++ rest := fun longer =>
        here (List.prefix_of_prefix_length_le longer (List.prefix_append ..) short)
      exact (behindFirst_later elsewhere).trans (behind rest)

-- Both numbers are read on their own.

def lineNumber? (text : List Char) : Option Nat := do
  let behind ← behindFirst "Line: ".toList text
  let number := behind.takeWhile (· ≠ ',')
  if number.length = behind.length then none
  unsigned64? (trimChars number)

def columnNumber? (text : List Char) : Option Nat := do
  let behind ← behindFirst "Column: ".toList text
  unsigned64? (behind.takeWhile Char.isDigit)

theorem reportedPlace_numbers (message : String) : reportedPlace message =
    (do return ⟨← lineNumber? message.toList,← columnNumber? message.toList⟩ : Option Location).getD ⟨0,0⟩ := by
  unfold reportedPlace lineNumber? columnNumber?
  generalize "Line: ".toList = lineWord
  generalize "Column: ".toList = columnWord
  simp only [Option.bind_eq_bind,Option.bind_assoc]
  congr 2
  funext behind
  split <;> rfl

theorem reportedPlace_iff (line column : Nat) (placed : line ≠ 0) : reportedPlace message = ⟨line,column⟩ ↔
    lineNumber? message.toList = some line ∧ columnNumber? message.toList = some column := by
  rw [reportedPlace_numbers]
  cases lineNumber? message.toList with
  | none => simp [placed.symm]
  | some l =>
    cases columnNumber? message.toList with
    | none => simp [placed.symm]
    | some c => simp

-- The end of a message, behind the blank that separates it from the rest.
def placeWords (line column : Numeral) : List Char :=
  "at Line: ".toList ++ (line.digits ++ ',' :: ' ' :: ("Column: ".toList ++ column.digits))

theorem lineNumber?_own (absent : ¬"Line: ".toList <:+: cs ++ [' ']) (line column : Numeral) (bound : line.value < 1 <<< 64) :
    lineNumber? (cs ++ ' ' :: placeWords line column) = some line.value := by
  let behind := line.digits ++ ',' :: ' ' :: ("Column: ".toList ++ column.digits)
  have found : behindFirst "Line: ".toList (cs ++ ' ' :: placeWords line column) = some behind :=
    calc behindFirst "Line: ".toList (cs ++ ' ' :: placeWords line column)
      _ = behindFirst "Line: ".toList ("at".toList ++ ' ' :: ("Line: ".toList ++ behind)) :=
        behindFirst_skip (w := "Line:".toList) (by decide) absent _
      _ = behindFirst "Line: ".toList ("Line: ".toList ++ behind) :=
        behindFirst_skip (w := "Line:".toList) (by decide) (by decide +kernel) _
      _ = some behind := behindFirst_here (by decide) behind
  have number : behind.takeWhile (· ≠ ',') = line.digits := by
    have free : ∀ c ∈ line.digits, decide (c ≠ ',') = true := by
      intro c inside
      have digit := line.decimal c inside
      rw [decide_eq_true_eq]
      rintro rfl
      cases digit
    rw [List.takeWhile_append_of_pos free]
    simp
  have shorter : line.digits.length ≠ behind.length := by simp [behind]
  unfold lineNumber?
  rw [found]
  simp only [Option.bind_eq_bind,Option.bind_some,number,if_neg shorter]
  show unsigned64? (trimChars line.digits) = _
  rw [line.trimChars_digits,unsigned64?_natural line.natural?_digits,if_pos bound]

theorem columnNumber?_own (absent : ¬"Column: ".toList <:+: cs ++ [' ']) (line column : Numeral) (bound : column.value < 1 <<< 64) :
    columnNumber? (cs ++ ' ' :: placeWords line column) = some column.value := by
  let start := "at Line: ".toList ++ line.digits
  have written : placeWords line column = (start ++ [',']) ++ ' ' :: ("Column: ".toList ++ column.digits) :=
    ((List.append_assoc start [','] _).trans (List.append_assoc _ line.digits _)).symm
  have apart : ¬"Column: ".toList <:+: (start ++ [',']) ++ [' '] := by
    intro inside
    have initial : 'C' ∈ "Column: ".toList := by decide
    have digit : 'C' ∈ line.digits := by simpa [start] using inside.subset initial
    cases line.decimal _ digit
  have found : behindFirst "Column: ".toList (cs ++ ' ' :: placeWords line column) = some column.digits :=
    calc behindFirst "Column: ".toList (cs ++ ' ' :: placeWords line column)
      _ = behindFirst "Column: ".toList (placeWords line column) :=
        behindFirst_skip (w := "Column:".toList) (by decide) absent _
      _ = behindFirst "Column: ".toList ((start ++ [',']) ++ ' ' :: ("Column: ".toList ++ column.digits)) :=
        congrArg (behindFirst "Column: ".toList) written
      _ = behindFirst "Column: ".toList ("Column: ".toList ++ column.digits) :=
        behindFirst_skip (w := "Column:".toList) (by decide) apart _
      _ = some column.digits := behindFirst_here (by decide) column.digits
  have number : column.digits.takeWhile Char.isDigit = column.digits := by
    have all : (column.digits ++ []).takeWhile Char.isDigit = column.digits ++ [] := List.takeWhile_append_of_pos column.decimal
    rwa [List.append_nil] at all
  unfold columnNumber?
  rw [found]
  show unsigned64? (column.digits.takeWhile Char.isDigit) = _
  rw [number,unsigned64?_natural column.natural?_digits,if_pos bound]

-- Where a word is quoted in front of them, the numbers have no part in what is read for it.

theorem mem_trimChars (inside : c ∈ cs) (visible : isBlank c = false) : c ∈ trimChars cs := by
  have kept {cs : List Char} (inside : c ∈ cs) : c ∈ cs.dropWhile isBlank := by
    rw [← List.takeWhile_append_dropWhile (p := isBlank) (l := cs),List.mem_append] at inside
    refine inside.resolve_left fun dropped => ?_
    have blank := List.all_eq_true.mp List.all_takeWhile c dropped
    rw [visible] at blank
    cases blank
  rw [trimChars,List.mem_reverse]
  exact kept (List.mem_reverse.mpr (kept inside))

theorem unsigned64?_other (inside : c ∈ cs) (sign : c ≠ '+') (other : c.isDigit = false) : unsigned64? cs = none := by
  have unread {cs : List Char} (inside : c ∈ cs) : natural? cs = none := by
    have mixed : cs.all Char.isDigit = false := List.all_eq_false.mpr ⟨c,inside,by simp [other]⟩
    simp [natural?,mixed]
  unfold unsigned64?
  split
  · rename_i plus
    obtain ⟨rest,rfl⟩ := List.head?_eq_some_iff.mp plus
    have behind : natural? rest = none := unread ((List.mem_cons.mp inside).resolve_left sign)
    rw [List.tail_cons,behind,Option.filter_none]
  · rw [unread inside,Option.filter_none]

theorem lineNumber?_quoted (inside : "Line: ".toList <:+: cs) :
    ∃ read, ∀ line column, lineNumber? (cs ++ placeWords line column) = read := by
  obtain ⟨between,found⟩ := behindFirst_inside inside
  by_cases free : (between.takeWhile (· ≠ ',')).length = between.length
  -- No comma closes the number before the words of the own place do, so that their letters are a part of it.
  · refine ⟨none,fun line column => ?_⟩
    have letter : 'a' ∈ (between ++ placeWords line column).takeWhile (· ≠ ',') := by
      rw [List.takeWhile_append,if_pos free]
      exact List.mem_append_right _ List.mem_cons_self
    unfold lineNumber?
    rw [found]
    simp only [Option.bind_eq_bind,Option.bind_some]
    split
    · rfl
    · exact unsigned64?_other (mem_trimChars letter (by decide)) (by decide) (by decide)
  · refine ⟨unsigned64? (trimChars (between.takeWhile (· ≠ ','))),fun line column => ?_⟩
    have number : (between ++ placeWords line column).takeWhile (· ≠ ',') = between.takeWhile (· ≠ ',') := by
      rw [List.takeWhile_append,if_neg free]
    have shorter : (between.takeWhile (· ≠ ',')).length ≠ (between ++ placeWords line column).length := by
      have short := (List.takeWhile_prefix (p := (· ≠ ',')) (l := between)).length_le
      rw [List.length_append]
      omega
    unfold lineNumber?
    rw [found]
    simp only [Option.bind_eq_bind,Option.bind_some,number,if_neg shorter]

theorem columnNumber?_quoted (inside : "Column: ".toList <:+: cs) :
    ∃ read, ∀ line column, columnNumber? (cs ++ placeWords line column) = read := by
  obtain ⟨between,found⟩ := behindFirst_inside inside
  refine ⟨unsigned64? (between.takeWhile Char.isDigit),fun line column => ?_⟩
  have number : (between ++ placeWords line column).takeWhile Char.isDigit = between.takeWhile Char.isDigit := by
    rw [List.takeWhile_append]
    split
    · rename_i whole
      exact (List.append_nil _).trans ((List.takeWhile_prefix _).eq_of_length whole).symm
    · rfl
  unfold columnNumber?
  rw [found]
  exact congrArg unsigned64? number

-- A text that no place is read from, also where a blank follows it.
def NamesNoPlace (pre : String) : Prop :=
  ¬"Line: ".toList <:+: (pre ++ " ").toList ∧ ¬"Column: ".toList <:+: (pre ++ " ").toList

-- A text, and a place behind it.
def placedText (pre : String) (line column : Numeral) : String :=
  pre ++ " at Line: " ++ line.text ++ ", Column: " ++ column.text

theorem placedText_toList (pre : String) (line column : Numeral) :
    (placedText pre line column).toList = pre.toList ++ ' ' :: placeWords line column := by
  unfold placedText Numeral.text
  simp only [String.toList_append,String.toList_ofList,List.append_assoc]
  rfl

theorem toList_blank (pre : String) : (pre ++ " ").toList = pre.toList ++ [' '] := String.toList_append

theorem reportedPlace_own (silent : NamesNoPlace pre) (line column : Numeral) (low : line.value < 1 <<< 64)
    (left : column.value < 1 <<< 64) : reportedPlace (placedText pre line column) = ⟨line.value,column.value⟩ := by
  obtain ⟨unlined,uncolumned⟩ := silent
  rw [toList_blank] at unlined uncolumned
  rw [reportedPlace_numbers,placedText_toList,lineNumber?_own unlined line column low,columnNumber?_own uncolumned line column left]
  rfl

-- Otherwise two of the four places in the first lines and columns are taken for the same one.
theorem namesNoPlace_of_own (own : ∀ line column : Numeral, line.value < 1 <<< 64 → column.value < 1 <<< 64 →
    reportedPlace (placedText pre line column) = ⟨line.value,column.value⟩) : NamesNoPlace pre := by
  have read (line column : Nat) (positive : line ≠ 0) (low : line < 1 <<< 64) (left : column < 1 <<< 64) :
      lineNumber? ((pre ++ " ").toList ++ placeWords (.ofNat line) (.ofNat column)) = some line ∧
        columnNumber? ((pre ++ " ").toList ++ placeWords (.ofNat line) (.ofNat column)) = some column := by
    have here := own (.ofNat line) (.ofNat column)
    simp only [Numeral.value_ofNat] at here
    have numbers := (reportedPlace_iff line column positive).mp (here low left)
    rwa [placedText_toList,List.append_cons,← toList_blank] at numbers
  obtain ⟨lineOne,columnOne⟩ := read 1 1 (by decide) (by decide) (by decide)
  obtain ⟨lineTwo,columnTwo⟩ := read 2 2 (by decide) (by decide) (by decide)
  constructor
  · intro quoted
    obtain ⟨fixed,same⟩ := lineNumber?_quoted quoted
    cases (lineOne.symm.trans ((same ..).trans (same ..).symm)).trans lineTwo
  · intro quoted
    obtain ⟨fixed,same⟩ := columnNumber?_quoted quoted
    cases (columnOne.symm.trans ((same ..).trans (same ..).symm)).trans columnTwo

-- The place that the message of a fault ends in.
def SyntaxError.place? : SyntaxError → Option Location
  | lexical _ place => some place
  | expected _ found => found.map (·.start)
  | notInfix found => some found.start
  | emptyProjection _ next => next
  | refused _ place => place
  | unfinishedJoin _ | unmatchedBracket .. | tooDeep => none

theorem placedText_place (pre : String) (place : Location) :
    placedText pre (.ofNat place.line) (.ofNat place.column) = pre ++ (" at " ++ place.text) := by
  have words : " at Line: " = " at " ++ "Line: " := by decide
  rw [placedText,Location.text,words]
  simp only [String.append_assoc]
  rfl

-- Each fault with a place has a message of the form that is read.
theorem SyntaxError.message_place {fault : SyntaxError} (placed : fault.place? = some place) :
    ∃ pre, fault.message = placedText pre (.ofNat place.line) (.ofNat place.column) := by
  suffices ending : ∃ text, fault.message = "sql parser error: " ++ (text ++ (" at " ++ place.text)) by
    obtain ⟨text,written⟩ := ending
    exact ⟨"sql parser error: " ++ text,by rw [written,placedText_place,String.append_assoc]⟩
  cases fault with
  | lexical | notInfix =>
    cases placed
    exact ⟨_,rfl⟩
  | expected what found =>
    obtain ⟨lexeme,rfl,rfl⟩ := Option.map_eq_some_iff.mp placed
    exact ⟨_,rfl⟩
  | emptyProjection | refused =>
    obtain rfl := placed
    exact ⟨_,rfl⟩
  | unfinishedJoin | unmatchedBracket | tooDeep => cases placed

-- What a computation fails with, also where results cannot be compared.
def fault? : Except ε α → Option ε
  | .ok _ => none
  | .error fault => some fault

theorem fault?_iff {x : Except ε α} : fault? x = some fault ↔ x = .error fault := by
  cases x <;> simp [fault?]

theorem Error.message_unreadable (fault : SyntaxError) : (unreadable fault).message =
    let place := reportedPlace fault.message
    s!"[S001] SQL parse error at line {place.line}, column {place.column}: {fault.message}" := rfl

-- A message that ends in a place is read as this place, whatever the numbers are, exactly if nothing in front of it is read for
-- one. An error then tells the place that its message ends in.
theorem reportedPlace_exact (pre : String) :
    ((∀ line column : Numeral, line.value < 1 <<< 64 → column.value < 1 <<< 64 →
        reportedPlace (pre ++ " at Line: " ++ line.text ++ ", Column: " ++ column.text) = ⟨line.value,column.value⟩) ↔
      NamesNoPlace pre) ∧
    ∀ (fault : SyntaxError) (line column : Numeral), NamesNoPlace pre → line.value < 1 <<< 64 → column.value < 1 <<< 64 →
      fault.message = pre ++ " at Line: " ++ line.text ++ ", Column: " ++ column.text → (Error.unreadable fault).message =
        s!"[S001] SQL parse error at line {line.value}, column {column.value}: {fault.message}" := by
  refine ⟨⟨namesNoPlace_of_own,reportedPlace_own⟩,fun fault line column silent low left written => ?_⟩
  have read : reportedPlace fault.message = ⟨line.value,column.value⟩ := by
    rw [written]
    exact reportedPlace_own silent line column low left
  rw [Error.message_unreadable,read]

-- The quoted words have no blanks behind them, so that they are not read. Neither are they in front of numbers with zeros.
theorem reportedPlace_exact_unspaced :
    let pre := "sql parser error: Expected: an SQL statement, found: 'Line:7, Column:9'"
    let fault : SyntaxError := .expected "an SQL statement" (some ⟨.string "Line:7, Column:9",⟨1,1⟩,⟨1,19⟩,[]⟩)
    reportedPlace (pre ++ " at Line: 0012, Column: 18446744073709551615") = ⟨12,18446744073709551615⟩ ∧
      parse .clickHouse "'Line:7, Column:9'" = .error (.unreadable fault) ∧
      (Error.unreadable fault).message = "[S001] SQL parse error at line 1, column 1: " ++ pre ++ " at Line: 1, Column: 1" := by
  intro pre fault
  have silent : NamesNoPlace pre := ⟨by decide +kernel,by decide +kernel⟩
  obtain ⟨own,told⟩ := reportedPlace_exact pre
  let line : Numeral := ⟨"0012".toList,by decide,List.all_eq_true.mp (by decide)⟩
  let column : Numeral := ⟨"18446744073709551615".toList,by decide,List.all_eq_true.mp (by decide)⟩
  refine ⟨own.mpr silent line column (by decide +kernel) (by decide +kernel),fault?_iff.mp (by decide +kernel),?_⟩
  exact told fault (.ofNat 1) (.ofNat 1) silent (by decide) (by decide) (by decide +kernel)

-- The statement fails at its first token, and that is where the message says it does. The error tells a place that the token names.
theorem quoted_place_told :
    let pre := "sql parser error: Expected: an SQL statement, found: 'Line: 7, Column: 9'"
    let fault : SyntaxError := .expected "an SQL statement" (some ⟨.string "Line: 7, Column: 9",⟨1,1⟩,⟨1,21⟩,[]⟩)
    let one := Numeral.ofNat 1
    parse .clickHouse "'Line: 7, Column: 9'" = .error (.unreadable fault) ∧ fault.place? = some ⟨1,1⟩ ∧
      fault.message = pre ++ " at Line: " ++ one.text ++ ", Column: " ++ one.text ∧
      reportedPlace (pre ++ " at Line: " ++ one.text ++ ", Column: " ++ one.text) ≠ ⟨one.value,one.value⟩ ∧
      (Error.unreadable fault).message = "[S001] SQL parse error at line 7, column 9: " ++ fault.message := by
  intro pre fault one
  exact ⟨fault?_iff.mp (by decide +kernel),rfl,by decide +kernel,by decide +kernel,by decide +kernel⟩

end JoinTree.Sql
