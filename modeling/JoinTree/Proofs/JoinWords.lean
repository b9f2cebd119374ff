import JoinTree.Proofs.Outcome
import JoinTree.Proofs.PlainReading
import JoinTree.Proofs.WordRemoval
import JoinTree.Tree.OfQuery

/-!
The words in front of a JOIN: how a clause is written with them, which of them are taken out, and what the grammar
gets to see.
-/

namespace JoinTree

open Sql

-- A word of a clause, the keyword that it is, and what becomes of it.
structure Word where
  text : String
  keyword : Option Keyword
  fate : Fate := .kept
  deriving DecidableEq, Repr

namespace Word

def token (w : Word) : Token := .word w.text none w.keyword
def part (w : Word) : Part := ⟨.word w.text,w.fate⟩

-- Each word has a space behind it.
def parts (ws : List Word) : List Part := ws.flatMap fun w => [w.part,⟨.space,.kept⟩]

def width (w : Word) : Nat := w.text.toList.length + 1

def lexemes : Location → List Word → List Lexeme
  | _, [] => []
  | l, w :: ws =>
    let stop := l.pastAll w.text.toList
    ⟨w.token,l,stop,[(.space,stop)]⟩ :: lexemes (stop.past ' ') ws

def edits : Location → List Word → List Edit
  | _, [] => []
  | l, w :: ws => w.part.edits l ++ edits ((l.pastAll w.text.toList).past ' ') ws

end Word

namespace JoinSpec

-- `matched` tells that a MATCH_CONDITION follows.

def localityWords : Locality → List Word
  | .global => [⟨"GLOBAL",some .GLOBAL,.kept⟩]
  | .perShard => [⟨"LOCAL",some .LOCAL,.blanked⟩]
  | .unspecified => []

def strictnessWords (matched : Bool) : Strictness → List Word
  | .all => [⟨"ALL",some .ALL,.blanked⟩]
  | .any => [⟨"ANY",some .ANY,.blanked⟩]
  | .asof => [⟨"ASOF",some .ASOF,if matched then .kept else .blanked⟩]
  | _ => []

def kindWords (s : Strictness) : JoinKind → List Word
  | .left => [⟨"LEFT",some .LEFT,.kept⟩]
  | .right => [⟨"RIGHT",some .RIGHT,.kept⟩]
  | .full => [⟨"FULL",some .FULL,.kept⟩,⟨"OUTER",some .OUTER,.kept⟩]
  | .inner => if s.isFiltering || s = .asof then [] else [⟨"INNER",some .INNER,.kept⟩]
  | .cross => [⟨"CROSS",some .CROSS,.kept⟩]
  | .paste => [⟨"PASTE",none,.replaced "CROSS"⟩]
  | .comma => []

def filterWords : Strictness → List Word
  | .semi => [⟨"SEMI",some .SEMI,.kept⟩]
  | .anti => [⟨"ANTI",some .ANTI,.kept⟩]
  | _ => []

-- The words in front of JOIN.
def words (s : JoinSpec) (matched : Bool) : List Word :=
  localityWords s.locality ++
    if s.kind.isUnconditional then kindWords s.strictness s.kind
    else strictnessWords matched s.strictness ++ (kindWords s.strictness s.kind ++ filterWords s.strictness)

-- What is taken out.
def hint (s : JoinSpec) (matched : Bool) : JoinHint :=
  { locality := if s.locality = .perShard then some .perShard else none,
    strictness :=
      if s.kind.isUnconditional then none
      else match s.strictness with
        | .all => some .all
        | .any => some .any
        | .asof => if matched then none else some .asof
        | _ => none,
    paste := s.kind = .paste }

def Admitted (s : JoinSpec) (matched : Bool) : Prop :=
  s.kind ≠ .comma ∧ (s.strictness.isFiltering = true → s.kind = .left ∨ s.kind = .right) ∧
    (s.strictness = .asof → s.kind = .inner ∨ s.kind = .left) ∧ (matched = true → s.strictness = .asof ∧ s.kind = .inner)

instance (s : JoinSpec) (matched : Bool) : Decidable (s.Admitted matched) :=
  inferInstanceAs (Decidable (_ ∧ _))

theorem ofRun_words (s : JoinSpec) (l : Location) (after : List Lexeme) (admitted : s.Admitted matched)
    (ahead : s.strictness = .asof → s.kind = .inner → hasMatchCondition 0 after = matched) :
    ∃ w, ClauseWords.ofRun (Word.lexemes l (s.words matched)) after = .ok w ∧ w.hint = s.hint matched ∧
      w.edits = Word.edits l (s.words matched) := by
  rcases s with ⟨locality,strictness,kind⟩
  cases matched <;> cases kind <;> cases locality <;> cases strictness <;>
    first | exact absurd admitted (by decide) | exact ⟨_,rfl,rfl,rfl⟩ | skip
  all_goals
    have seen := ahead rfl (by rfl)
    simp only [ClauseWords.ofRun,ClauseWords.closed,seen]
    exact ⟨_,rfl,rfl,rfl⟩

-- All words that a clause can have in front of JOIN.
def vocabulary : List Word := [
  ⟨"GLOBAL",some .GLOBAL,.kept⟩,⟨"LOCAL",some .LOCAL,.blanked⟩,⟨"ALL",some .ALL,.blanked⟩,⟨"ANY",some .ANY,.blanked⟩,
  ⟨"ASOF",some .ASOF,.kept⟩,⟨"ASOF",some .ASOF,.blanked⟩,⟨"LEFT",some .LEFT,.kept⟩,⟨"RIGHT",some .RIGHT,.kept⟩,
  ⟨"FULL",some .FULL,.kept⟩,⟨"OUTER",some .OUTER,.kept⟩,⟨"INNER",some .INNER,.kept⟩,⟨"CROSS",some .CROSS,.kept⟩,
  ⟨"PASTE",none,.replaced "CROSS"⟩,⟨"SEMI",some .SEMI,.kept⟩,⟨"ANTI",some .ANTI,.kept⟩]

theorem words_vocabulary (s : JoinSpec) (matched : Bool) : ∀ w ∈ s.words matched, w ∈ vocabulary := by
  have locality : ∀ l, ∀ w ∈ localityWords l, w ∈ vocabulary := by
    intro l
    cases l <;> decide
  have strictness : ∀ s, ∀ w ∈ strictnessWords matched s, w ∈ vocabulary := by
    intro s
    cases s <;> cases matched <;> decide
  have kind : ∀ s k, ∀ w ∈ kindWords s k, w ∈ vocabulary := by
    intro s k
    cases k <;> cases s <;> decide
  have filter : ∀ s, ∀ w ∈ filterWords s, w ∈ vocabulary := by
    intro s
    cases s <;> decide
  intro w member
  rw [words] at member
  rcases List.mem_append.mp member with first | rest
  · exact locality _ w first
  · split at rest
    · exact kind _ _ w rest
    · rcases List.mem_append.mp rest with first | rest
      · exact strictness _ w first
      · rcases List.mem_append.mp rest with first | rest
        · exact kind _ _ w first
        · exact filter _ w rest

end JoinSpec

namespace Word

def replacement? (w : Word) : Option String :=
  match w.fate with
  | .replaced r => some r
  | _ => none

-- A bare word of ASCII letters that is the keyword it is said to be, as is what replaces it.
def isKnown (w : Word) : Bool :=
  decide (Keyword.ofText? w.text = w.keyword) && Dialect.clickHouse.isBareName w.text.toList &&
    decide (Text.byteLength w.text.toList = w.text.toList.length) &&
    w.replacement?.all fun r =>
      decide (r.utf8ByteSize = w.text.toList.length) && decide (r.toList.length = w.text.toList.length) &&
        decide (Text.byteLength r.toList = w.text.toList.length) && Dialect.clickHouse.isBareName r.toList

theorem vocabulary_known : (JoinSpec.vocabulary.all isKnown) = true := by decide +kernel

theorem words_known (s : JoinSpec) (matched : Bool) : ∀ w ∈ s.words matched, w.isKnown = true :=
  fun w member => List.all_eq_true.mp vocabulary_known w (s.words_vocabulary matched w member)

section
variable {w : Word} (known : w.isKnown = true)
include known

theorem known_token : (Piece.word w.text).token = w.token := by
  simp only [isKnown,Bool.and_eq_true,decide_eq_true_eq] at known
  rw [Piece.token,Token.ofWord,known.1.1.1,token]

theorem known_name : Dialect.clickHouse.isBareName w.text.toList = true := by
  simp only [isKnown,Bool.and_eq_true] at known
  exact known.1.1.2

theorem known_size : Text.byteLength w.text.toList = w.text.toList.length := by
  simp only [isKnown,Bool.and_eq_true,decide_eq_true_eq] at known
  exact known.1.2

theorem known_fits : w.part.Fits := by
  have size := known_size known
  rcases w with ⟨text,keyword,_ | _ | r⟩
  · trivial
  · trivial
  · simp only [isKnown,replacement?,Option.all_some,Bool.and_eq_true,decide_eq_true_eq] at known
    exact ⟨known.2.1.1.1.trans size.symm,known.2.1.2.trans size.symm⟩

-- What is left of a word is as long as the word.
theorem left_length : (Piece.text w.part.left).length = w.text.toList.length := by
  have size := known_size known
  rcases w with ⟨text,keyword,_ | _ | r⟩
  · simp [part,Part.left,Piece.text,Piece.chars]
  · rw [part,Part.left,Part.blanks_text,List.length_replicate]
    exact size
  · simp only [isKnown,replacement?,Option.all_some,Bool.and_eq_true,decide_eq_true_eq] at known
    simpa [part,Part.left,Piece.text,Piece.chars] using known.2.1.1.2

end

-- The tokens of what is left of a word.
def leftTokens (w : Word) : List Token :=
  match w.fate with
  | .kept => [w.token]
  | .blanked => []
  | .replaced r => [.ofWord r]

theorem left_tokens (w : Word) (known : w.isKnown = true) : (w.part.left.filter (· ≠ .space)).map Piece.token = w.leftTokens := by
  have shown := known_token known
  rcases w with ⟨text,keyword,_ | _ | r⟩
  · simpa [part,Part.left,leftTokens] using shown
  · simp [part,Part.left,leftTokens]
  · simp [part,Part.left,leftTokens,Piece.token]

theorem parts_cons (w : Word) (ws : List Word) : parts (w :: ws) = w.part :: ⟨.space,.kept⟩ :: parts ws := rfl

theorem parts_before (w : Word) (ws : List Word) :
    Part.before (parts (w :: ws)) = .word w.text :: .space :: Part.before (parts ws) := rfl

theorem parts_after (w : Word) (ws : List Word) :
    Part.after (parts (w :: ws)) = w.part.left ++ .space :: Part.after (parts ws) := by
  simp [parts_cons,Part.after,Part.left]

theorem parts_fit (known : ∀ w ∈ ws, isKnown w = true) : ∀ p ∈ parts ws, p.Fits := by
  intro p member
  obtain ⟨w,inside,here⟩ := List.mem_flatMap.mp member
  rcases List.mem_cons.mp here with rfl | space
  · exact known_fits (known w inside)
  · rw [List.mem_singleton.mp space]
    trivial

theorem after_length (known : ∀ w ∈ ws, isKnown w = true) :
    (Piece.text (Part.after (parts ws))).length = (Piece.text (Part.before (parts ws))).length := by
  induction ws with
  | nil => rfl
  | cons w ws ih =>
    have later := ih fun v member => known v (by simp [member])
    rw [parts_after,parts_before,Part.text_append,Piece.text_cons,Piece.text_cons,Piece.text_cons]
    simp only [List.length_append,left_length (known w (by simp)),later]
    rfl

theorem after_tokens (known : ∀ w ∈ ws, isKnown w = true) :
    ((Part.after (parts ws)).filter (· ≠ .space)).map Piece.token = ws.flatMap leftTokens := by
  induction ws with
  | nil => rfl
  | cons w ws ih =>
    have later := ih fun v member => known v (by simp [member])
    rw [parts_after,List.filter_append,List.map_append,left_tokens w (known w (by simp)),List.flatMap_cons,
      List.filter_cons_of_neg (by simp),later]

-- The words stand apart before and after.

theorem before_spaced (known : ∀ w ∈ ws, isKnown w = true) (spaced : Piece.Spaced .clickHouse (some .space) rest) :
    Piece.Spaced .clickHouse (some .space) (Part.before (parts ws) ++ rest) := by
  induction ws with
  | nil => exact spaced
  | cons w ws ih =>
    have name := known_name (known w (by simp))
    exact ⟨⟨name,rfl⟩,trivial,ih fun v member => known v (by simp [member])⟩

theorem blanks_spaced (n : Nat) (spaced : Piece.Spaced d (some .space) rest) :
    Piece.Spaced d (some .space) (List.replicate n .space ++ rest) := by
  induction n with
  | zero => exact spaced
  | succ n ih => exact ⟨trivial,ih⟩

theorem after_spaced (known : ∀ w ∈ ws, isKnown w = true) (spaced : Piece.Spaced .clickHouse (some .space) rest) :
    Piece.Spaced .clickHouse (some .space) (Part.after (parts ws) ++ rest) := by
  induction ws with
  | nil => exact spaced
  | cons w ws ih =>
    have later := ih fun v member => known v (by simp [member])
    have mine := known w (by simp)
    have name := known_name mine
    rw [parts_after,List.append_assoc,List.cons_append]
    rcases w with ⟨text,keyword,_ | _ | r⟩
    · exact ⟨⟨name,rfl⟩,trivial,later⟩
    · exact blanks_spaced _ ⟨trivial,later⟩
    · simp only [isKnown,replacement?,Option.all_some,Bool.and_eq_true] at mine
      exact ⟨⟨mine.2.2,rfl⟩,trivial,later⟩

-- The lexemes of the words in front of another one.
theorem laid_words (known : ∀ w ∈ ws, isKnown w = true) (v : String) (rest : List Piece) :
    Piece.laid l (Part.before (parts ws) ++ .word v :: rest) =
      lexemes l ws ++ Piece.laid (l.pastAll (Piece.text (Part.before (parts ws)))) (.word v :: rest) := by
  induction ws generalizing l with
  | nil => rfl
  | cons w ws ih =>
    have later := ih (l := (l.pastAll w.text.toList).past ' ') fun v member => known v (by simp [member])
    have next : Piece.gap (l.pastAll w.text.toList) (.space :: (Part.before (parts ws) ++ .word v :: rest)) =
        [(.space,l.pastAll w.text.toList)] := by
      cases ws <;> rfl
    have place : l.pastAll (Piece.text (Part.before (parts (w :: ws)))) =
        ((l.pastAll w.text.toList).past ' ').pastAll (Piece.text (Part.before (parts ws))) := by
      rw [parts_before,Piece.text_cons,Piece.text_cons,Location.pastAll_append,Location.pastAll_append]
      rfl
    rw [place,parts_before,List.cons_append,List.cons_append,lexemes,List.cons_append,← later]
    simp only [Piece.laid,Piece.chars,next,known_token (known w (by simp))]

theorem allEdits_words (ws : List Word) (l : Location) : Part.allEdits l (parts ws) = edits l ws := by
  induction ws generalizing l with
  | nil => rfl
  | cons w ws ih =>
    rw [parts_cons,Part.allEdits,Part.allEdits,edits,← ih]
    rfl

end Word

-- What is recorded, lexeme by lexeme.

theorem recordings_pass (l : Lexeme) (other : l.token.keyword? ≠ some .JOIN) (idle : JoinWord.ofToken? l.token = none) :
    recordings run (l :: rest) = recordings [] rest := by
  rw [recordings,isKeyword,decide_eq_false other,idle]
  rfl

theorem recordings_word (l : Lexeme) (other : l.token.keyword? ≠ some .JOIN)
    (role : (JoinWord.ofToken? l.token).isSome = true) : recordings run (l :: rest) = recordings (run ++ [l]) rest := by
  rw [recordings,isKeyword,decide_eq_false other,if_pos role]
  rfl

theorem recordings_join (l : Lexeme) (join : l.token.keyword? = some .JOIN) :
    recordings run (l :: rest) = recordedAt run rest :: recordings [] rest := by
  rw [recordings,isKeyword,decide_eq_true join]
  rfl

theorem recordings_idle (idle : ∀ l ∈ ls, l.token.keyword? ≠ some .JOIN ∧ JoinWord.ofToken? l.token = none) :
    recordings [] (ls ++ rest) = recordings [] rest := by
  induction ls with
  | nil => rfl
  | cons l ls ih =>
    have mine := idle l (by simp)
    rw [List.cons_append,recordings_pass l mine.1 mine.2,ih fun k member => idle k (by simp [member])]

-- Without the word JOIN there is nothing to record.
theorem recordings_quiet (quiet : ∀ l ∈ ls, l.token.keyword? ≠ some .JOIN) : recordings run ls = [] := by
  induction ls generalizing run with
  | nil => rfl
  | cons l ls ih =>
    have other := quiet l (by simp)
    have later : ∀ run, recordings run ls = [] := fun run => ih fun k member => quiet k (by simp [member])
    cases role : JoinWord.ofToken? l.token with
    | none => rw [recordings_pass l other role,later]
    | some r => rw [recordings_word l other (by rw [role]; rfl),later]

theorem vocabulary_role : ∀ w ∈ JoinSpec.vocabulary,
    (JoinWord.ofToken? w.token).isSome = true ∧ w.token.keyword? ≠ some .JOIN := by decide

theorem recordings_words (known : ∀ w ∈ ws, w ∈ JoinSpec.vocabulary) :
    recordings run (Word.lexemes l ws ++ rest) = recordings (run ++ Word.lexemes l ws) rest := by
  induction ws generalizing l run with
  | nil => simp [Word.lexemes]
  | cons w ws ih =>
    have role := vocabulary_role w (known w (by simp))
    rw [Word.lexemes,List.cons_append,recordings_word _ role.2 role.1,ih fun v member => known v (by simp [member])]
    simp

namespace JoinSpec

-- A query with one join in front of its words.
def lead : List Piece :=
  [.word "SELECT",.space,.symbol .mul,.space,.word "FROM",.space,.word "t1",.space]

def keptParts (ps : List Piece) : List Part := ps.map fun p => ⟨p,.kept⟩

-- The query as it is written, with `tail` behind the right table.
def query (s : JoinSpec) (matched : Bool) (tail : List Piece) : List Part :=
  keptParts lead ++ Word.parts (s.words matched) ++ keptParts (.word "JOIN" :: .space :: .word "t2" :: tail)

def wordsPlace : Location := Location.start.pastAll (Piece.text lead)

def rightPlace (s : JoinSpec) (matched : Bool) : Location :=
  (wordsPlace.pastAll (Piece.text (Part.before (Word.parts (s.words matched))))).pastAll (Piece.text [.word "JOIN",.space])

theorem kept_before (ps : List Piece) : Part.before (keptParts ps) = ps := by
  simp [Part.before,keptParts,Function.comp_def]

theorem kept_after (ps : List Piece) : Part.after (keptParts ps) = ps := by
  simp [Part.after,keptParts,Part.left,List.flatMap_map]

theorem kept_edits (ps : List Piece) (l : Location) : Part.allEdits l (keptParts ps) = [] := by
  induction ps generalizing l with
  | nil => rfl
  | cons p ps ih => exact ih (l.pastAll p.chars)

theorem query_before (s : JoinSpec) (matched : Bool) (tail : List Piece) :
    Part.before (s.query matched tail) =
      lead ++ (Part.before (Word.parts (s.words matched)) ++ .word "JOIN" :: .space :: .word "t2" :: tail) := by
  rw [query,Part.before,List.map_append,List.map_append,← Part.before,← Part.before,← Part.before,kept_before,kept_before,
    List.append_assoc]

theorem query_after (s : JoinSpec) (matched : Bool) (tail : List Piece) :
    Part.after (s.query matched tail) =
      lead ++ (Part.after (Word.parts (s.words matched)) ++ .word "JOIN" :: .space :: .word "t2" :: tail) := by
  rw [query,Part.after,List.flatMap_append,List.flatMap_append,← Part.after,← Part.after,← Part.after,kept_after,kept_after,
    List.append_assoc]

theorem query_edits (s : JoinSpec) (matched : Bool) (tail : List Piece) :
    Part.allEdits .start (s.query matched tail) = Word.edits wordsPlace (s.words matched) := by
  rw [query,Part.allEdits_append,Part.allEdits_append,kept_edits,kept_edits,kept_before,Word.allEdits_words]
  simp [wordsPlace]

theorem query_fits (s : JoinSpec) (matched : Bool) (tail : List Piece) : ∀ p ∈ s.query matched tail, p.Fits := by
  have kept (ps : List Piece) : ∀ p ∈ keptParts ps, p.Fits := by
    intro p member
    obtain ⟨q,_,rfl⟩ := List.mem_map.mp member
    trivial
  intro p member
  rcases List.mem_append.mp member with front | behind
  · rcases List.mem_append.mp front with first | words
    · exact kept _ p first
    · exact Word.parts_fit (Word.words_known s matched) p words
  · exact kept _ p behind

theorem query_spaced (s : JoinSpec) (matched : Bool) (spaced : Piece.Spaced .clickHouse (some (.word "t2")) tail)
    (other : tail.head?.all (!·.isWord) = true) :
    Piece.Spaced .clickHouse none (Part.before (s.query matched tail)) ∧
      Piece.Spaced .clickHouse none (Part.after (s.query matched tail)) := by
  have known := Word.words_known s matched
  have name (v : String) (plain : Dialect.clickHouse.isBareName v.toList = true) (rest : List Piece)
      (later : Piece.Spaced .clickHouse (some .space) rest) : ∀ before,
      Piece.Spaced .clickHouse before (.word v :: .space :: rest) := fun _ => ⟨⟨plain,rfl⟩,trivial,later⟩
  have right : Piece.Spaced .clickHouse (some .space) (.word "t2" :: tail) := ⟨⟨by decide,other⟩,spaced⟩
  have behind := name "JOIN" (by decide) _ right (some .space)
  have led (rest : List Piece) (later : Piece.Spaced .clickHouse (some .space) rest) :
      Piece.Spaced .clickHouse none (lead ++ rest) := by
    have source := name "FROM" (by decide) _ (name "t1" (by decide) _ later _) (some .space)
    have items : Piece.Spaced .clickHouse (some .space)
        (.symbol .mul :: .space :: .word "FROM" :: .space :: .word "t1" :: .space :: rest) := ⟨rfl,trivial,source⟩
    exact name "SELECT" (by decide) _ items none
  rw [query_before,query_after]
  exact ⟨led _ (Word.before_spaced known behind),led _ (Word.after_spaced known behind)⟩

theorem query_free (s : JoinSpec) (matched : Bool) (apart : .symbol .minus ∉ tail) :
    Piece.opensComment (Part.before (s.query matched tail)) = false ∧
      Piece.opensComment (Part.after (s.query matched tail)) = false := by
  have left (p : Part) (bare : p.piece ≠ .symbol .minus) : .symbol .minus ∉ p.left := by
    rcases p with ⟨piece,_ | _ | r⟩ <;> simp_all [Part.left]
    exact fun same => bare same.symm
  have pieces : ∀ p ∈ s.query matched tail, p.piece ≠ .symbol .minus := by
    intro p member
    rcases List.mem_append.mp member with front | behind
    · rcases List.mem_append.mp front with first | words
      · obtain ⟨q,inside,rfl⟩ := List.mem_map.mp first
        revert inside
        rintro inside rfl
        revert inside
        decide
      · obtain ⟨w,_,here⟩ := List.mem_flatMap.mp words
        rcases List.mem_cons.mp here with rfl | space
        · exact fun same => by cases same
        · rw [List.mem_singleton.mp space]
          exact fun same => by cases same
    · obtain ⟨q,inside,rfl⟩ := List.mem_map.mp behind
      rintro rfl
      simp only [List.mem_cons,reduceCtorEq,false_or] at inside
      exact apart inside
  constructor
  · refine Piece.opensComment_minus fun member => ?_
    obtain ⟨p,inside,same⟩ := List.mem_map.mp member
    exact pieces p inside same
  · refine Piece.opensComment_minus fun member => ?_
    obtain ⟨p,inside,here⟩ := List.mem_flatMap.mp member
    exact left p (pieces p inside) here

-- The right table stands at the same place before and after.
theorem right_place (s : JoinSpec) (matched : Bool) :
    (wordsPlace.pastAll (Piece.text (Part.after (Word.parts (s.words matched))))).pastAll (Piece.text [.word "JOIN",.space]) =
      s.rightPlace matched := by
  have known := Word.words_known s matched
  have flat (ps : List Piece) (spaced : Piece.Spaced .clickHouse (some .space) (ps ++ [])) : ∀ c ∈ Piece.text ps, c ≠ '\n' := by
    rw [List.append_nil] at spaced
    exact Piece.spaced_chars spaced
  rw [rightPlace,Location.pastAll_flat _ (flat _ (Word.before_spaced known trivial)),
    Location.pastAll_flat _ (flat _ (Word.after_spaced known trivial)),Word.after_length known]

-- The lexemes of JOIN and of the right table, and those of the tail behind them.

def joinLexeme (s : JoinSpec) (matched : Bool) : Lexeme :=
  let start := wordsPlace.pastAll (Piece.text (Part.before (Word.parts (s.words matched))))
  let stop := start.pastAll "JOIN".toList
  ⟨.word "JOIN" none (some .JOIN),start,stop,[(.space,stop)]⟩

def rightLexeme (s : JoinSpec) (matched : Bool) (tail : List Piece) : Lexeme :=
  let stop := (s.rightPlace matched).pastAll "t2".toList
  ⟨.word "t2" none none,s.rightPlace matched,stop,Piece.gap stop tail⟩

def tailLexemes (s : JoinSpec) (matched : Bool) (tail : List Piece) : List Lexeme :=
  Piece.laid ((s.rightPlace matched).pastAll "t2".toList) tail

theorem laid_join (s : JoinSpec) (matched : Bool) (tail : List Piece) :
    Piece.laid (wordsPlace.pastAll (Piece.text (Part.before (Word.parts (s.words matched)))))
      (.word "JOIN" :: .space :: .word "t2" :: tail) =
      s.joinLexeme matched :: s.rightLexeme matched tail :: s.tailLexemes matched tail := rfl

theorem query_recordings (s : JoinSpec) (admitted : s.Admitted matched)
    (quiet : ∀ l ∈ s.tailLexemes matched tail, l.token.keyword? ≠ some .JOIN)
    (ahead : s.strictness = .asof → s.kind = .inner → hasMatchCondition 0 (s.tailLexemes matched tail) = matched) :
    recordings [] (Piece.laid .start (Part.before (s.query matched tail))) =
      [.ok (if (s.hint matched).isEmpty then none
        else some ⟨s.rightPlace matched,s.hint matched,Word.edits wordsPlace (s.words matched)⟩)] := by
  have known := Word.words_known s matched
  have leadIdle : ∀ t ∈ (lead.filter (· ≠ .space)).map Piece.token,
      t.keyword? ≠ some .JOIN ∧ JoinWord.ofToken? t = none := by decide
  obtain ⟨front,first,tokens⟩ := Piece.laid_append .start lead
    (Part.before (Word.parts (s.words matched)) ++ .word "JOIN" :: .space :: .word "t2" :: tail)
  have idle : ∀ l ∈ front, l.token.keyword? ≠ some .JOIN ∧ JoinWord.ofToken? l.token = none := by
    intro l member
    refine leadIdle _ ?_
    rw [← tokens]
    exact List.mem_map_of_mem member
  have right : hasMatchCondition 0 (s.rightLexeme matched tail :: s.tailLexemes matched tail) =
      hasMatchCondition 0 (s.tailLexemes matched tail) := rfl
  obtain ⟨w,run,hint,edits⟩ := s.ofRun_words wordsPlace (s.rightLexeme matched tail :: s.tailLexemes matched tail) admitted
    fun asof inner => right.trans (ahead asof inner)
  have recorded : recordedAt (Word.lexemes wordsPlace (s.words matched))
      (s.rightLexeme matched tail :: s.tailLexemes matched tail) =
      .ok (if (s.hint matched).isEmpty then none
        else some ⟨s.rightPlace matched,s.hint matched,Word.edits wordsPlace (s.words matched)⟩) := by
    simp only [recordedAt,run,Reading.ok_bind,hint,edits]
    cases (s.hint matched).isEmpty <;> rfl
  have silent : ∀ l ∈ s.rightLexeme matched tail :: s.tailLexemes matched tail, l.token.keyword? ≠ some .JOIN := by
    intro l member
    rcases List.mem_cons.mp member with rfl | behind
    · simp [rightLexeme,Token.keyword?]
    · exact quiet l behind
  rw [query_before,first,recordings_idle idle,← wordsPlace,Word.laid_words known,recordings_words (words_vocabulary s matched),
    laid_join,recordings_join _ rfl,List.nil_append,recorded,recordings_quiet silent]

-- What may stand behind the right table.
structure Takes (s : JoinSpec) (matched : Bool) (tail : List Piece) : Prop where
  admitted : s.Admitted matched
  spaced : Piece.Spaced .clickHouse (some (.word "t2")) tail
  other : tail.head?.all (!·.isWord) = true
  apart : .symbol .minus ∉ tail
  quiet : ∀ l ∈ s.tailLexemes matched tail, l.token.keyword? ≠ some .JOIN
  ahead : s.strictness = .asof → s.kind = .inner → hasMatchCondition 0 (s.tailLexemes matched tail) = matched

section
variable {s : JoinSpec} {matched : Bool} {tail : List Piece} (takes : s.Takes matched tail)
include takes

theorem hint_edits (empty : (s.hint matched).isEmpty = true) : Word.edits wordsPlace (s.words matched) = [] := by
  have admitted := takes.admitted
  clear takes
  rcases s with ⟨locality,strictness,kind⟩
  cases matched <;> cases kind <;> cases locality <;> cases strictness <;>
    first | rfl | exact absurd admitted (by decide) | cases empty

-- The text that the grammar gets, and the words that were taken out of it.
theorem query_prepared : PreparedText.ofText .clickHouse (Piece.text (Part.before (s.query matched tail))) =
    .ok ⟨Piece.text (Part.after (s.query matched tail)),
      if (s.hint matched).isEmpty then [] else [(s.rightPlace matched,s.hint matched)]⟩ := by
  have spaced := s.query_spaced matched takes.spaced takes.other
  have free := s.query_free matched takes.apart
  have scanned : PreparedText.lexemes .clickHouse (Piece.text (Part.before (s.query matched tail))) =
      Piece.laid .start (Part.before (s.query matched tail)) := by
    rw [PreparedText.lexemes,Piece.scan_laid spaced.1 free.1]
    rfl
  have edited := Part.edits_applied (s.query matched tail) (s.query_fits matched tail)
    (show Text.byteLength [] = Text.byteLength [] from rfl)
  have recorded := s.query_recordings takes.admitted takes.quiet takes.ahead
  rw [show Location.start.pastAll [] = Location.start from rfl,query_edits] at edited
  have edited : (Word.edits wordsPlace (s.words matched)).foldlM
      (PreparedText.applyEdit (.ofText (Piece.text (Part.before (s.query matched tail)))))
      (Piece.text (Part.before (s.query matched tail))) = .ok (Piece.text (Part.after (s.query matched tail))) := edited
  simp only [PreparedText.ofText,scanned,recorded]
  cases empty : (s.hint matched).isEmpty with
  | false =>
    simp only [Bool.false_eq_true,if_false,List.mapM_cons,List.mapM_nil,id,Reading.ok_bind,pure,Except.pure,
      mapError_value,List.filterMap_cons,List.filterMap_nil,PreparedText.ofRecorded,List.flatMap_cons,List.flatMap_nil,
      List.append_nil,edited]
    rfl
  | true =>
    rw [hint_edits takes empty] at edited
    have same : Piece.text (Part.before (s.query matched tail)) = Piece.text (Part.after (s.query matched tail)) :=
      Except.ok.inj edited
    simp only [if_true,List.mapM_cons,List.mapM_nil,id,Reading.ok_bind,pure,Except.pure,
      mapError_value,List.filterMap_cons,List.filterMap_nil,PreparedText.ofRecorded,List.flatMap_nil,same]
    rfl

-- The lexemes that the grammar reads.
theorem query_lexemes : ∃ front, Token.scan .clickHouse (Piece.text (Part.after (s.query matched tail))) =
      .ok (front ++ s.rightLexeme matched tail :: s.tailLexemes matched tail) ∧
    front.map (·.token) = (lead.filter (· ≠ .space)).map Piece.token ++ (s.words matched).flatMap Word.leftTokens ++
      [.word "JOIN" none (some .JOIN)] := by
  have known := Word.words_known s matched
  have spaced := s.query_spaced matched takes.spaced takes.other
  have free := s.query_free matched takes.apart
  rw [Piece.scan_laid spaced.2 free.2,query_after]
  obtain ⟨first,shown,tokens⟩ := Piece.laid_append .start
    (lead ++ (Part.after (Word.parts (s.words matched)) ++ [.word "JOIN",.space])) (.word "t2" :: tail)
  have place : Location.start.pastAll
      (Piece.text (lead ++ (Part.after (Word.parts (s.words matched)) ++ [.word "JOIN",.space]))) = s.rightPlace matched := by
    rw [Part.text_append,Part.text_append,Location.pastAll_append,Location.pastAll_append]
    exact s.right_place matched
  have whole : lead ++ (Part.after (Word.parts (s.words matched)) ++ .word "JOIN" :: .space :: .word "t2" :: tail) =
      (lead ++ (Part.after (Word.parts (s.words matched)) ++ [.word "JOIN",.space])) ++ .word "t2" :: tail := by simp
  refine ⟨first,?_,?_⟩
  · rw [whole,shown,place]
    rfl
  · rw [tokens,List.filter_append,List.filter_append,List.map_append,List.map_append,Word.after_tokens known]
    simp
    rfl

end

end JoinSpec

end JoinTree
