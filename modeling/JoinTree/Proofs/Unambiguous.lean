import JoinTree.Proofs.Ambiguity
import JoinTree.Proofs.ClauseReading
import JoinTree.Proofs.ReadBack
import JoinTree.Proofs.Recording
import JoinTree.Proofs.Showing

/-!
Join trees are told apart by their texts. Main statement: two trees of tables and joins without conditions that have one
text are the same tree. Which join a parenthesis, a comma or a JOIN belongs to is told by the last one that no
parentheses surround.
-/

namespace JoinTree

open Sql

-- Names that stand out in a text.

namespace Text

-- The characters that end a word.
def isBreak (c : Char) : Bool := c = ' ' || c = ',' || c = '(' || c = ')'

-- The keywords of a clause in front of its JOIN. PASTE is none, so that a name may be spelled like it.
def joinWords : List String :=
  ["GLOBAL","LOCAL","ALL","ANY","ASOF","LEFT","RIGHT","FULL","OUTER","INNER","CROSS","SEMI","ANTI"]

def IsWord (v : String) : Prop := v ≠ "" ∧ ∀ c ∈ v.toList, isBreak c = false

instance (v : String) : Decidable (IsWord v) :=
  decidable_of_iff (v ≠ "" ∧ v.toList.all (!isBreak ·) = true) (by simp [IsWord])

def IsBare (v : String) : Prop := IsWord v ∧ v ∉ ["AS","USING","JOIN"] ++ joinWords

instance (v : String) : Decidable (IsBare v) := inferInstanceAs (Decidable (_ ∧ _))

theorem isBreak_nameless (ends : isBreak c = true) (d : Dialect) : d.startsName c = false ∧ d.continuesName c = false := by
  simp only [isBreak,Bool.or_eq_true,decide_eq_true_eq] at ends
  rcases ends with ((rfl | rfl) | rfl) | rfl <;> cases d <;> decide +kernel

-- A bare name of a dialect that is no keyword.
theorem isBare_of_plain (d : Dialect) (v : String) (plain : d.isPlainName v = true) : IsBare v := by
  obtain ⟨name,keyword⟩ := Bool.and_eq_true_iff.mp plain
  constructor
  · constructor
    · rintro rfl
      cases name
    · intro c member
      cases ends : isBreak c with
      | false => rfl
      | true =>
        obtain ⟨starts,continues⟩ := isBreak_nameless ends d
        unfold Dialect.isBareName at name
        split at name
        · cases name
        · rename_i first rest letters
          simp only [Bool.and_eq_true,List.all_eq_true] at name
          rcases List.mem_cons.mp (letters ▸ member) with rfl | later
          · cases starts.symm.trans name.1.1.1
          · cases continues.symm.trans (name.2 c later)
  · intro known
    have keywords : ∀ w ∈ ["AS","USING","JOIN"] ++ joinWords, (Keyword.ofText? w).isNone = false := by decide +kernel
    cases keyword.symm.trans (keywords v known)

end Text

namespace Sql.Piece

open Text

-- The words of a text and the commas and parentheses between them, behind the letters of a word.
def split (letters : List Char) : List Char → List Piece
  | [] => ended letters
  | c :: cs => if isBreak c then ended letters ++ opened c ++ split [] cs else split (letters ++ [c]) cs
where
  ended (letters : List Char) : List Piece := if letters = [] then [] else [.word (.ofList letters)]
  opened (c : Char) : List Piece :=
    if c = ',' then [.symbol .comma] else if c = '(' then [.symbol .lparen] else if c = ')' then [.symbol .rparen] else []

theorem split_letters (letters w rest : List Char) (word : ∀ c ∈ w, isBreak c = false) :
    split letters (w ++ rest) = split (letters ++ w) rest := by
  induction w generalizing letters with
  | nil => simp
  | cons c w ih =>
    have here : isBreak c = false := word c (by simp)
    rw [List.cons_append,split,here,if_neg (by decide),ih _ fun c' member => word c' (by simp [member])]
    simp

-- A text that shows pieces wherever a break or nothing stands behind it.
def Shows (cs : List Char) (ps : List Piece) : Prop :=
  ∀ rest, (∀ c, rest.head? = some c → isBreak c = true) → split [] (cs ++ rest) = ps ++ split [] rest

namespace Shows

theorem nil : Shows [] [] := fun _ _ => rfl

theorem word (v : String) (word : IsWord v) : Shows v.toList [.word v] := by
  intro rest breaks
  have some_letter : v.toList ≠ [] := by simpa using word.1
  rw [split_letters _ _ _ word.2,List.nil_append]
  cases rest with
  | nil => simp [split,split.ended,some_letter]
  | cons c rest =>
    have here : isBreak c = true := breaks c rfl
    simp [split,split.ended,here,some_letter]

-- A break between two texts.
theorem join (left : Shows a ps) (between : isBreak c = true) (right : Shows b qs) :
    Shows (a ++ c :: b) (ps ++ split.opened c ++ qs) := by
  intro rest breaks
  have first := left (c :: (b ++ rest)) fun c' head => by cases head; exact between
  rw [List.append_assoc,List.cons_append,first,split,if_pos between,right rest breaks]
  simp [split.ended]

theorem unique (first : Shows cs ps) (second : Shows cs qs) : ps = qs := by
  have left := first [] (by simp)
  have right := second [] (by simp)
  simp only [List.append_nil] at left right
  simpa [split,split.ended] using left.symm.trans right

theorem spaced (left : Shows a ps) (right : Shows b qs) : Shows (a ++ ' ' :: b) (ps ++ qs) := by
  simpa [split.opened] using left.join (c := ' ') rfl right

theorem listed (left : Shows a ps) (right : Shows b qs) : Shows (a ++ ',' :: ' ' :: b) (ps ++ .symbol .comma :: qs) := by
  simpa [split.opened] using left.join (c := ',') rfl (nil.spaced right)

theorem grouped (inner : Shows a ps) : Shows ('(' :: (a ++ [')'])) (.symbol .lparen :: (ps ++ [.symbol .rparen])) := by
  simpa [split.opened] using nil.join (c := '(') rfl (inner.join (c := ')') rfl nil)

end Shows

-- Parentheses.

def depth (ps : List Piece) : Int := ps.count (.symbol .lparen) - ps.count (.symbol .rparen)

theorem depth_append (a b : List Piece) : depth (a ++ b) = depth a + depth b := by
  simp only [depth,List.count_append]
  omega

-- A piece that no parenthesis is.
def IsPlain (p : Piece) : Prop := p ≠ .symbol .lparen ∧ p ≠ .symbol .rparen

theorem depth_plain (plain : ∀ p ∈ ps, IsPlain p) : depth ps = 0 := by
  have opening : ps.count (.symbol .lparen) = 0 := List.count_eq_zero.mpr fun member => (plain _ member).1 rfl
  have closing : ps.count (.symbol .rparen) = 0 := List.count_eq_zero.mpr fun member => (plain _ member).2 rfl
  rw [depth,opening,closing]
  rfl

-- Parentheses are balanced, and what is looked for stands inside of them only.
structure Free (sought : Piece → Prop) (ps : List Piece) : Prop where
  total : depth ps = 0
  front : ∀ t r, ps = t ++ r → 0 ≤ depth t
  inside : ∀ t p r, sought p → ps = t ++ p :: r → 0 < depth t

namespace Free

theorem plain (plain : ∀ p ∈ ps, IsPlain p) (absent : ∀ p ∈ ps, ¬ sought p) : Free sought ps := by
  refine ⟨depth_plain plain,?_,?_⟩
  · rintro t r rfl
    exact Int.le_of_eq (depth_plain fun p member => plain p (List.mem_append_left _ member)).symm
  · rintro t p r found rfl
    exact absurd found (absent p (by simp))

theorem append (left : Free sought a) (right : Free sought b) : Free sought (a ++ b) := by
  refine ⟨by rw [depth_append,left.total,right.total]; rfl,?_,?_⟩
  · intro t r whole
    rcases List.append_eq_append_iff.mp whole with ⟨m,rfl,rest⟩ | ⟨m,rfl,rest⟩
    · have behind := right.front m r rest
      rw [depth_append,left.total]
      omega
    · exact left.front t m rfl
  · intro t p r found whole
    rcases List.append_eq_append_iff.mp whole with ⟨m,rfl,rest⟩ | ⟨m,rfl,rest⟩
    · have behind := right.inside m p r found rest
      rw [depth_append,left.total]
      omega
    · cases m with
      | nil =>
        have behind := right.inside [] p r found rest.symm
        exact absurd behind (by decide)
      | cons q m =>
        obtain ⟨rfl,rfl⟩ := List.cons.inj rest
        exact left.inside t p m found rfl

-- Inside of parentheses anything goes.
theorem group (inner : Free other ps) (plain : ∀ p, sought p → IsPlain p) :
    Free sought (.symbol .lparen :: (ps ++ [.symbol .rparen])) := by
  have opening (t : List Piece) : depth (.symbol .lparen :: t) = 1 + depth t := by
    rw [← List.singleton_append,depth_append]
    rfl
  have closed : depth (ps ++ [.symbol .rparen]) = -1 := by
    rw [depth_append,inner.total]
    rfl
  refine ⟨by rw [opening,closed]; rfl,?_,?_⟩
  · intro t r whole
    cases t with
    | nil => exact Int.le_refl 0
    | cons q t =>
      obtain ⟨rfl,more⟩ := List.cons.inj whole
      rw [opening]
      rcases List.append_eq_append_iff.mp more with ⟨m,rfl,rest⟩ | ⟨m,rfl,rest⟩
      · cases m with
        | nil => rw [List.append_nil,inner.total]; decide
        | cons q m =>
          obtain ⟨rfl,empty⟩ := List.cons.inj rest
          obtain ⟨rfl,rfl⟩ := List.append_eq_nil_iff.mp empty.symm
          rw [closed]
          decide
      · have before := inner.front t m rfl
        omega
  · intro t p r found whole
    have flat := plain p found
    cases t with
    | nil =>
      obtain ⟨rfl,_⟩ := List.cons.inj whole
      exact absurd rfl flat.1
    | cons q t =>
      obtain ⟨rfl,more⟩ := List.cons.inj whole
      rw [opening]
      rcases List.append_eq_append_iff.mp more with ⟨m,rfl,rest⟩ | ⟨m,rfl,rest⟩
      · have last : m = [] ∧ p = .symbol .rparen := by
          cases m with
          | nil => exact ⟨rfl,(List.cons.inj rest).1.symm⟩
          | cons q m => simp at rest
        exact absurd last.2 flat.2
      · have before := inner.front t m rfl
        omega

-- What is sought does not stand in front of what is free of it, unless it is inside of parentheses.
theorem absent (whole : Free sought (a ++ p :: b)) (behind : Free other b) (found : sought p) (plain : IsPlain p) : False := by
  have before := whole.inside a p b found rfl
  have total := whole.total
  have here : depth [p] = 0 := depth_plain (by simpa using plain)
  rw [← List.singleton_append,depth_append,depth_append,behind.total,here] at total
  omega

-- The last piece that is sought and that no parentheses surround is in one place only.
theorem last (left : Free sought b) (right : Free sought b') (found : sought p) (found' : sought p')
    (plain : ∀ p, sought p → IsPlain p) (same : a ++ p :: b = a' ++ p' :: b') : a = a' ∧ p = p' ∧ b = b' := by
  rcases List.append_eq_append_iff.mp same with ⟨m,rfl,rest⟩ | ⟨m,rfl,rest⟩
  · cases m with
    | nil =>
      obtain ⟨rfl,rfl⟩ := List.cons.inj rest
      exact ⟨by simp,rfl,rfl⟩
    | cons q m =>
      obtain ⟨rfl,rfl⟩ := List.cons.inj rest
      exact (left.absent right found' (plain _ found')).elim
  · cases m with
    | nil =>
      obtain ⟨rfl,rfl⟩ := List.cons.inj rest
      exact ⟨by simp,rfl,rfl⟩
    | cons q m =>
      obtain ⟨rfl,rfl⟩ := List.cons.inj rest
      exact (right.absent left found (plain _ found)).elim

end Free

end Sql.Piece

-- What separates the sides of a join.

namespace Sql.Piece

def Separates (p : Piece) : Prop := p ∈ [.symbol .comma,.word "JOIN",.word "USING"]

instance (p : Piece) : Decidable p.Separates := inferInstanceAs (Decidable (_ ∈ _))

end Sql.Piece

-- What a text of a join looks like.

namespace Surface

def isJoined : Surface → Bool
  | join .. => true
  | _ => false

def isListed : Surface → Bool
  | join _ c _ => c.kind = .comma
  | _ => false

def framed (frame : Bool) (s : String) : String := if frame then "(" ++ s ++ ")" else s

theorem text_join (l r : Surface) (c : JoinClause) : (join l c r).text =
    if c.kind = .comma then l.text ++ ", " ++ framed r.isJoined r.text
    else framed l.isListed l.text ++ " " ++ c.keywords ++ " " ++ framed r.isJoined r.text ++ c.constraint := by
  cases l <;> cases r <;> rfl

end Surface

namespace Node

def isJoin : Node → Bool
  | join .. => true
  | _ => false

def isComma : Node → Bool
  | join s _ _ _ => s.kind = .comma
  | _ => false

-- The join expression of a USING list. Without names there is none.
def usingOf (names : List String) : Option Node := if names = [] then none else some (.list (names.map ident))

-- Tables with names of their own, joined without conditions.
inductive IsFrom : Node → Prop where
  | table (name : String) (asName : Option String) : Text.IsBare name → (∀ a, asName = some a → Text.IsBare a) →
      IsFrom (.table name asName)
  | join (s : JoinSpec) (names : List String) (c : JoinClause) : IsFrom l → IsFrom r → (∀ v ∈ names, Text.IsBare v) →
      clauseOf s (usingOf names) = .ok c → c.defect? = none → (s.kind.isUnconditional = true → s.strictness = .unspecified) →
      (s.kind = .comma → s.locality = .unspecified) → IsFrom (.join s l r (usingOf names))

def usingColumns : Option Node → List String
  | some (.list ns) =>
    match ns.mapM usingName with
    | .ok is => is.map (·.value)
    | .error _ => []
  | _ => []

end Node

namespace Sql.Piece

def framed (frame : Bool) (ps : List Piece) : List Piece := if frame then .symbol .lparen :: (ps ++ [.symbol .rparen]) else ps

def columnMarks : List String → List Piece
  | [] => []
  | [v] => [.word v]
  | v :: vs => .word v :: .symbol .comma :: columnMarks vs

def usingMarks (vs : List String) : List Piece :=
  if vs = [] then [] else .word "USING" :: .symbol .lparen :: (columnMarks vs ++ [.symbol .rparen])

end Sql.Piece

namespace Node

open Sql.Piece (columnMarks usingMarks)

-- The words of a tree and the commas and parentheses between them.
def marks : Node → List Piece
  | table name asName => .word name :: (asName.map fun a => [.word "AS",.word a]).getD []
  | join s l r e =>
    if s.kind = .comma then l.marks ++ .symbol .comma :: Piece.framed r.isJoin r.marks
    else Piece.framed l.isComma l.marks ++ (s.words false).map (fun w => .word w.text) ++
      .word "JOIN" :: (Piece.framed r.isJoin r.marks ++ usingMarks (usingColumns e))
  | _ => []

theorem usingColumns_of (names : List String) : usingColumns (usingOf names) = names := by
  unfold usingOf
  split
  · rename_i empty
    rw [empty]
    rfl
  · rw [usingColumns,usingNames]
    simp [Function.comp_def]

theorem clauseOf_using (s : JoinSpec) (names : List String) (shown : clauseOf s (usingOf names) = .ok c) :
    c = s.clause none (if names = [] then none else some (names.map fun v => ⟨v,none⟩)) := by
  unfold usingOf at shown
  split at shown
  · cases shown
    rw [if_pos ‹_›]
    rfl
  · simp only [clauseOf,usingNames] at shown
    cases shown
    rw [if_neg ‹_›]
    rfl

end Node

namespace Sql.Piece

theorem framed_shows (frame : Bool) (s : String) (shows : Shows s.toList ps) :
    Shows (Surface.framed frame s).toList (framed frame ps) := by
  cases frame with
  | false => exact shows
  | true => simpa [Surface.framed,framed] using shows.grouped

theorem words_show (ws : List Word) (words : ∀ w ∈ ws, Text.IsWord w.text) (last : Text.IsWord v) :
    Shows (Word.written ws ++ v.toList) (ws.map (fun w => .word w.text) ++ [.word v]) := by
  induction ws with
  | nil => exact Shows.word v last
  | cons w ws ih =>
    have later := ih fun w' member => words w' (by simp [member])
    have first := (Shows.word w.text (words w (by simp))).spaced later
    simpa [Word.written,Word.parts,Part.before,Word.part,text,chars] using first

theorem columns_show (vs : List String) (some : vs ≠ []) (words : ∀ v ∈ vs, Text.IsWord v) :
    Shows (commaSeparated vs).toList (columnMarks vs) := by
  induction vs with
  | nil => exact absurd rfl some
  | cons v vs ih =>
    have here := Shows.word v (words v (by simp))
    cases vs with
    | nil => simpa [commaSeparated,columnMarks] using here
    | cons w vs =>
      have later := ih (by simp) fun u member => words u (by simp [member])
      have both := here.listed later
      simp only [commaSeparated,String.intercalate_cons_cons,String.toList_append] at both ⊢
      simpa [columnMarks] using both

theorem constraint_shows {front : List Char} (s : JoinSpec) (names : List String) (words : ∀ v ∈ names, Text.IsWord v)
    (shows : Shows front ps) :
    Shows (front ++ (s.clause none (if names = [] then none else some (names.map fun v => ⟨v,none⟩))).constraint.toList)
      (ps ++ usingMarks names) := by
  by_cases empty : names = []
  · simpa [empty,JoinSpec.clause,JoinClause.constraint,usingMarks] using shows
  · have listed : (names.map fun v => (⟨v,none⟩ : Ident)).map Ident.text = names := by simp [Function.comp_def,Ident.text]
    have text : (s.clause none (some (names.map fun v => ⟨v,none⟩))).constraint =
        " USING (" ++ commaSeparated names ++ ")" := by
      simp only [JoinClause.constraint,JoinSpec.clause,Option.map_none,Option.map_some,Option.getD_none,Option.getD_some,listed]
      simp [toString]
    have columns := (Shows.word "USING" (by decide)).spaced (columns_show names empty words).grouped
    rw [if_neg empty,text,usingMarks,if_neg empty]
    simpa using shows.spaced columns

end Sql.Piece

namespace Node

open Sql.Piece (usingMarks)

theorem words_split (s : JoinSpec) : ∀ w ∈ s.words false, Text.IsWord w.text ∧ ¬ Piece.Separates (.word w.text) := by
  have all : ∀ w ∈ JoinSpec.vocabulary, Text.IsWord w.text ∧ ¬ Piece.Separates (.word w.text) := by decide
  exact fun w member => all w (s.words_vocabulary false w member)

theorem table_shows (name : String) (bare : Text.IsBare name) (given : ∀ a, asName = some a → Text.IsBare a) :
    Piece.Shows (Surface.table name asName).text.toList (table name asName).marks := by
  have first := Piece.Shows.word name bare.1
  cases asName with
  | none => simpa [Surface.text,marks] using first
  | some a =>
    have behind := (Piece.Shows.word "AS" (by decide)).spaced (Piece.Shows.word a (given a rfl).1)
    simpa [Surface.text,marks,toString] using first.spaced behind

-- A tree has a surface whose text shows its marks.
theorem surface_shows (tree : IsFrom n) : ∃ f, n.surface = .ok f ∧ f.isJoined = n.isJoin ∧ f.isListed = n.isComma ∧
    Piece.Shows f.text.toList n.marks := by
  induction tree with
  | table name asName bare given => exact ⟨_,rfl,rfl,rfl,table_shows name bare given⟩
  | @join l r s names c left right bare given sound _ _ ihl ihr =>
    obtain ⟨f,shown,joined,listed,front⟩ := ihl
    obtain ⟨g,shown',joined',listed',back⟩ := ihr
    have clause := clauseOf_using s names given
    refine ⟨.join f c g,by rw [surface,shown,given,shown']; rfl,rfl,by rw [clause]; rfl,?_⟩
    have kind : c.kind = s.kind := by rw [clause]; rfl
    have operand := Piece.framed_shows g.isJoined g.text back
    rw [joined'] at operand
    rw [Surface.text_join,marks,kind,joined']
    by_cases comma : s.kind = .comma
    · rw [if_pos comma,if_pos comma]
      simpa using front.listed operand
    · have before := Piece.framed_shows f.isListed f.text front
      have admitted : s.Admitted false := by
        have spec : c.spec = s := by rw [clause]; rfl
        exact spec ▸ c.spec_admitted (kind ▸ comma) sound false (by simp)
      have keywords := JoinSpec.keywords_text admitted none (if names = [] then none else some (names.map fun v => ⟨v,none⟩))
      rw [← clause,Part.text_append,← Word.written] at keywords
      have clauseWords := Piece.words_show (s.words false) (fun w member => (words_split s w member).1) (v := "JOIN") (by decide)
      have whole := Piece.constraint_shows s names (fun v member => (bare v member).1) ((before.spaced clauseWords).spaced operand)
      rw [← clause,listed] at whole
      rw [if_neg comma,if_neg comma,usingColumns_of,listed]
      have blank : " ".toList = [' '] := rfl
      have last : Piece.text [.word "JOIN"] = "JOIN".toList := rfl
      simp only [String.toList_append,keywords,blank,last,List.append_assoc,List.cons_append,List.nil_append] at whole ⊢
      exact whole

end Node

namespace Sql.Piece

theorem Separates.plain (separates : Separates p) : IsPlain p := by
  have all : ∀ p ∈ [Piece.symbol .comma,.word "JOIN",.word "USING"], p ≠ .symbol .lparen ∧ p ≠ .symbol .rparen := by decide
  exact all p separates

theorem Separates.bare (separates : Separates p) (bare : Text.IsBare v) : .word v ≠ p := by
  rintro rfl
  simp only [Separates,List.mem_cons,word.injEq,List.not_mem_nil,or_false,reduceCtorEq,false_or] at separates
  rcases separates with rfl | rfl <;> exact absurd bare (by decide)

namespace Free

theorem cons (plain : IsPlain p) (other : ¬ sought p) (behind : Free sought ps) : Free sought (p :: ps) := by
  have here : Free sought [p] := .plain (by simpa using plain) (by simpa using other)
  exact here.append behind

theorem anywhere (free : Free sought ps) : Free (fun _ => False) ps := ⟨free.total,free.front,fun _ _ _ => False.elim⟩

theorem framed (free : Free sought ps) (plain : ∀ p, sought p → IsPlain p) (frame : Bool) : Free sought (framed frame ps) := by
  cases frame with
  | false => exact free
  | true => exact free.group plain

end Free

theorem columnMarks_plain (vs : List String) : ∀ p ∈ columnMarks vs, IsPlain p := by
  induction vs with
  | nil => simp [columnMarks]
  | cons v vs ih =>
    cases vs with
    | nil => simp [columnMarks,IsPlain]
    | cons w vs =>
      rw [columnMarks]
      · simpa [IsPlain] using ih
      · simp

def word? : Piece → Option String
  | word v => some v
  | _ => none

theorem columnMarks_unique (same : columnMarks vs = columnMarks vs') : vs = vs' := by
  have names (vs : List String) : (columnMarks vs).filterMap word? = vs := by
    induction vs with
    | nil => rfl
    | cons v vs ih =>
      cases vs with
      | nil => rfl
      | cons w vs => simpa [columnMarks,List.filterMap_cons,word?] using ih
  rw [← names vs,← names vs',same]

theorem usingMarks_free (vs : List String) (separates : Separates p) (other : p ≠ .word "USING") : Free (· = p) (usingMarks vs) := by
  have inner : Free (fun _ => False) (columnMarks vs) := .plain (columnMarks_plain vs) (by simp)
  unfold usingMarks
  split
  · exact .plain (by simp) (by simp)
  · have grouped : Free (· = p) (.symbol .lparen :: (columnMarks vs ++ [.symbol .rparen])) :=
      inner.group fun q found => found ▸ separates.plain
    exact grouped.cons (by simp [IsPlain]) other.symm

-- Pieces of another kind with a run of pieces behind them, of which the last one may be of any kind.
structure Run (kind : Piece → Prop) (ps : List Piece) : Prop where
  more : ps ≠ []
  early : ∀ p ∈ ps.dropLast, kind p

theorem run_unique {kind : Piece → Prop} (left : ∃ x p, a = x ++ [p] ∧ ¬ kind p) (right : ∃ x p, b = x ++ [p] ∧ ¬ kind p)
    (run : Run kind k) (run' : Run kind k') (same : a ++ k = b ++ k') : a = b ∧ k = k' := by
  have shorter {a b k k' m : List Piece} (ends : ∃ x p, b = x ++ [p] ∧ ¬ kind p) (run : Run kind k) (run' : Run kind k')
      (longer : b = a ++ m) (rest : k = m ++ k') : m = [] := by
    rcases List.eq_nil_or_concat m with empty | ⟨m,q,rfl⟩
    · exact empty
    · obtain ⟨x,p,rfl,other⟩ := ends
      rw [List.concat_eq_append] at longer rest
      rw [← List.append_assoc] at longer
      obtain ⟨_,single⟩ := List.append_inj' longer rfl
      cases single
      have early := run.early
      rw [rest,List.dropLast_append_of_ne_nil run'.more] at early
      exact absurd (early q (by simp)) other
  rcases List.append_eq_append_iff.mp same with ⟨m,longer,rest⟩ | ⟨m,longer,rest⟩
  · cases shorter right run run' longer rest
    exact ⟨by simpa using longer.symm,by simpa using rest⟩
  · cases shorter left run' run longer rest
    exact ⟨by simpa using longer,by simpa using rest.symm⟩

end Sql.Piece

namespace Node

open Sql.Piece (usingMarks)
open Sql.Piece.Free

theorem marks_comma (comma : s.kind = .comma) :
    (join s l r e).marks = l.marks ++ .symbol .comma :: Piece.framed r.isJoin r.marks := by
  rw [marks,if_pos comma]

theorem marks_keyword (other : s.kind ≠ .comma) : (join s l r e).marks =
    Piece.framed l.isComma l.marks ++ (s.words false).map (fun w => .word w.text) ++
      .word "JOIN" :: (Piece.framed r.isJoin r.marks ++ usingMarks (usingColumns e)) := by
  rw [marks,if_neg other]

theorem table_free (name : String) (bare : Text.IsBare name) (given : ∀ a, asName = some a → Text.IsBare a)
    (separates : Piece.Separates p) : Piece.Free (· = p) (table name asName).marks := by
  have here := separates.bare bare
  cases asName with
  | none => exact .plain (by simp [marks,Piece.IsPlain]) (by simpa [marks] using here)
  | some a =>
    have named := separates.bare (given a rfl)
    have word : .word "AS" ≠ p := by
      rintro rfl
      exact absurd separates (by decide)
    exact .plain (by simp [marks,Piece.IsPlain]) (by simp [marks,here,word,named])

theorem words_free (s : JoinSpec) (separates : Piece.Separates p) :
    Piece.Free (· = p) ((s.words false).map fun w => .word w.text) := by
  refine .plain (by simp [Piece.IsPlain]) fun q member found => ?_
  obtain ⟨w,inside,rfl⟩ := List.mem_map.mp member
  exact (words_split s w inside).2 (found ▸ separates)

theorem marks_balanced (tree : IsFrom n) : Piece.Free (fun _ => False) n.marks := by
  induction tree with
  | table name asName bare given => exact (table_free name bare given (p := .symbol .comma) (by decide)).anywhere
  | @join l r s names _ _ _ _ _ _ _ _ ihl ihr =>
    have right := ihr.framed (fun _ => False.elim) r.isJoin
    by_cases comma : s.kind = .comma
    · rw [marks_comma comma]
      exact ihl.append (right.cons (by simp [Piece.IsPlain]) id)
    · have left := ihl.framed (fun _ => False.elim) l.isComma
      have words := (words_free s (p := .symbol .comma) (by decide)).anywhere
      have columns := (Piece.usingMarks_free names (p := .symbol .comma) (by decide) (by simp)).anywhere
      rw [marks_keyword comma,usingColumns_of]
      exact (left.append words).append ((right.append columns).cons (by simp [Piece.IsPlain]) id)

theorem side_free (tree : IsFrom n) (separates : Piece.Separates p) : Piece.Free (· = p) (Piece.framed n.isJoin n.marks) := by
  have inner := marks_balanced tree
  cases tree with
  | table name asName bare given => exact table_free name bare given separates
  | join => exact inner.group fun q found => found ▸ separates.plain

-- A comma that no parentheses surround makes a comma join.
theorem unlisted_free (tree : IsFrom n) (unlisted : n.isComma = false) : Piece.Free (· = .symbol .comma) n.marks := by
  have separates : Piece.Separates (.symbol .comma) := by decide
  induction tree with
  | table name asName bare given => exact table_free name bare given separates
  | @join l r s names _ left right _ _ _ _ _ ihl _ =>
    have other : s.kind ≠ .comma := by simpa [isComma] using unlisted
    have front : Piece.Free (· = .symbol .comma) (Piece.framed l.isComma l.marks) := by
      cases listed : l.isComma with
      | false => exact ihl listed
      | true => exact (marks_balanced left).group fun q found => found ▸ separates.plain
    have columns := Piece.usingMarks_free names separates (by simp)
    rw [marks_keyword other,usingColumns_of]
    have behind := ((side_free right separates).append columns).cons (p := .word "JOIN") (by simp [Piece.IsPlain]) (by simp)
    exact (front.append (words_free s separates)).append behind

-- Where a join is split: at a piece behind which it is not found again outside of parentheses.
theorem join_split (tree : IsFrom (join s l r e)) : ∃ x p y, (join s l r e).marks = x ++ p :: y ∧ Piece.Separates p ∧
    Piece.Free (· = p) y := by
  cases tree with
  | join _ names _ _ right =>
    by_cases comma : s.kind = .comma
    · exact ⟨_,_,_,marks_comma comma,by decide,side_free right (by decide)⟩
    · have separates : Piece.Separates (.word "JOIN") := by decide
      refine ⟨_,_,_,marks_keyword comma,separates,?_⟩
      rw [usingColumns_of]
      exact (side_free right separates).append (Piece.usingMarks_free names separates (by decide))

theorem table_distinct (table : IsFrom (.table name asName)) (join : IsFrom (.join s l r e)) :
    (Node.table name asName).marks ≠ (Node.join s l r e).marks := by
  intro same
  obtain ⟨x,p,y,split,separates,behind⟩ := join_split join
  cases table with
  | table _ _ bare given =>
    have free := table_free name bare given separates
    rw [same,split] at free
    exact free.absent behind rfl separates.plain

-- What stands in front of a keyword join ends with none of its words.
theorem marks_last (tree : IsFrom n) : ∃ x p, n.marks = x ++ [p] ∧ ¬ p ∈ Text.joinWords.map Piece.word := by
  have name {v : String} (bare : Text.IsBare v) : ¬ Piece.word v ∈ Text.joinWords.map Piece.word := by
    intro member
    obtain ⟨w,known,same⟩ := List.mem_map.mp member
    cases same
    exact bare.2 (List.mem_append_right _ known)
  have operand {n : Node} (tree : IsFrom n) :
      ∃ x p, Piece.framed n.isJoin n.marks = x ++ [p] ∧ ¬ p ∈ Text.joinWords.map Piece.word := by
    cases tree with
    | table v asName bare given =>
      cases asName with
      | none => exact ⟨[],_,rfl,name bare⟩
      | some a => exact ⟨[.word v,.word "AS"],_,rfl,name (given a rfl)⟩
    | @join l r s names =>
      exact ⟨.symbol .lparen :: (join s l r (usingOf names)).marks,_,rfl,by decide⟩
  cases tree with
  | table v asName bare given => exact operand (.table v asName bare given)
  | @join l r s names _ _ right =>
    obtain ⟨x,p,last,other⟩ := operand right
    by_cases comma : s.kind = .comma
    · exact ⟨l.marks ++ .symbol .comma :: x,p,by rw [marks_comma comma,last]; simp,other⟩
    · rw [marks_keyword comma,usingColumns_of]
      by_cases empty : names = []
      · exact ⟨Piece.framed l.isComma l.marks ++ (s.words false).map (fun w => .word w.text) ++ .word "JOIN" :: x,p,
          by simp [usingMarks,empty,last],other⟩
      · refine ⟨Piece.framed l.isComma l.marks ++ (s.words false).map (fun w => .word w.text) ++
          .word "JOIN" :: (Piece.framed r.isJoin r.marks ++ .word "USING" :: .symbol .lparen :: Piece.columnMarks names),
          .symbol .rparen,?_,by decide⟩
        simp [usingMarks,empty]

theorem framed_last (ends : ∃ x p, ps = x ++ [p] ∧ ¬ p ∈ Text.joinWords.map Piece.word) (frame : Bool) :
    ∃ x p, Piece.framed frame ps = x ++ [p] ∧ ¬ p ∈ Text.joinWords.map Piece.word := by
  cases frame with
  | false => exact ends
  | true => exact ⟨.symbol .lparen :: ps,_,rfl,by decide⟩

theorem framed_inner {ps qs : List Piece} (same : Piece.framed true ps = Piece.framed true qs) : ps = qs := by
  simpa [Piece.framed] using same

-- Parentheses around a tree make no other tree of it.
theorem framed_distinct (inner : IsFrom n) (tree : IsFrom m) : Piece.framed true n.marks ≠ m.marks := by
  intro same
  cases tree with
  | table name asName bare given => cases asName <;> simp [Piece.framed,marks] at same
  | join s names c left right bare given sound strict loose =>
    obtain ⟨x,p,y,split,separates,behind⟩ := join_split (.join s names c left right bare given sound strict loose)
    have plain : ∀ q, q = p → Piece.IsPlain q := fun q found => found ▸ separates.plain
    have free : Piece.Free (· = p) (Piece.framed true n.marks) := (marks_balanced inner).group plain
    rw [same,split] at free
    exact free.absent behind rfl separates.plain

theorem front_unique (left : IsFrom n) (right : IsFrom m) (same : Piece.framed n.isComma n.marks = Piece.framed m.isComma m.marks) :
    n.marks = m.marks := by
  cases first : n.isComma <;> cases second : m.isComma <;> rw [first,second] at same
  · exact same
  · exact absurd same.symm (framed_distinct right left)
  · exact absurd same (framed_distinct left right)
  · exact framed_inner same

theorem side_unique (left : IsFrom n) (right : IsFrom m) (same : Piece.framed n.isJoin n.marks = Piece.framed m.isJoin m.marks) :
    n.marks = m.marks := by
  cases first : n.isJoin <;> cases second : m.isJoin <;> rw [first,second] at same
  · exact same
  · exact absurd same.symm (framed_distinct right left)
  · exact absurd same (framed_distinct left right)
  · exact framed_inner same

-- The clause that words stand for.
def specOf (ws : List String) : JoinSpec :=
  { locality := if "GLOBAL" ∈ ws then .global else if "LOCAL" ∈ ws then .perShard else .unspecified
    strictness :=
      if "ALL" ∈ ws then .all else if "ANY" ∈ ws then .any else if "ASOF" ∈ ws then .asof else if "SEMI" ∈ ws then .semi
      else if "ANTI" ∈ ws then .anti else .unspecified
    kind :=
      if "LEFT" ∈ ws then .left else if "RIGHT" ∈ ws then .right else if "FULL" ∈ ws then .full else if "CROSS" ∈ ws then .cross
      else if "PASTE" ∈ ws then .paste else .inner }

theorem specOf_words (s : JoinSpec) (other : s.kind ≠ .comma)
    (strict : s.kind.isUnconditional = true → s.strictness = .unspecified) :
    specOf ((s.words false).map (·.text)) = s := by
  obtain ⟨locality,strictness,kind⟩ := s
  revert other strict
  cases locality <;> cases strictness <;> cases kind <;> decide

theorem words_unique {s s' : JoinSpec} (strict : s.kind.isUnconditional = true → s.strictness = .unspecified)
    (strict' : s'.kind.isUnconditional = true → s'.strictness = .unspecified) (other : s.kind ≠ .comma) (other' : s'.kind ≠ .comma)
    (same : (s.words false).map (fun w => Piece.word w.text) = (s'.words false).map (fun w => Piece.word w.text)) : s = s' := by
  have texts : (s.words false).map (·.text) = (s'.words false).map (·.text) := by
    have back := congrArg (List.filterMap Piece.word?) same
    simpa [List.filterMap_map,Function.comp_def,Piece.word?] using back
  rw [← specOf_words s other strict,← specOf_words s' other' strict',texts]

-- A clause has a word, and only the last one may be a PASTE.
theorem words_run (s : JoinSpec) (other : s.kind ≠ .comma) :
    Piece.Run (· ∈ Text.joinWords.map Piece.word) ((s.words false).map fun w => .word w.text) := by
  obtain ⟨locality,strictness,kind⟩ := s
  constructor
  · revert other
    cases strictness <;> cases kind <;> simp [JoinSpec.words,JoinSpec.kindWords,JoinSpec.strictnessWords,JoinSpec.filterWords,
      Strictness.isFiltering,JoinKind.isUnconditional]
  · cases locality <;> cases strictness <;> cases kind <;> decide

theorem comma_spec {s : JoinSpec} (comma : s.kind = .comma) (strict : s.kind.isUnconditional = true → s.strictness = .unspecified)
    (loose : s.kind = .comma → s.locality = .unspecified) : s = ⟨.unspecified,.unspecified,.comma⟩ := by
  obtain ⟨locality,strictness,kind⟩ := s
  obtain rfl : kind = .comma := comma
  obtain rfl : strictness = .unspecified := strict rfl
  obtain rfl : locality = .unspecified := loose rfl
  rfl

-- A join without a condition has no USING list.
theorem unconditional_bare {s : JoinSpec} {names : List String} (unconditional : s.kind.isUnconditional = true)
    (given : clauseOf s (usingOf names) = .ok c) (sound : c.defect? = none) : names = [] := by
  have clause := clauseOf_using s names given
  have constrained := c.hasConstraint_of_sound sound
  by_cases empty : names = []
  · exact empty
  · rw [clause,if_neg empty] at constrained
    have kind : (s.clause none (some (names.map fun v => ⟨v,none⟩))).kind = s.kind := rfl
    rw [kind,unconditional] at constrained
    cases constrained

-- The right side of a keyword join ends where a USING begins, if there is one.
theorem constraint_unique {names names' : List String} (left : IsFrom n) (right : IsFrom m)
    (same : Piece.framed n.isJoin n.marks ++ usingMarks names = Piece.framed m.isJoin m.marks ++ usingMarks names') :
    Piece.framed n.isJoin n.marks = Piece.framed m.isJoin m.marks ∧ names = names' := by
  have separates : Piece.Separates (.word "USING") := by decide
  have plain : ∀ q, q = .word "USING" → Piece.IsPlain q := fun q found => found ▸ separates.plain
  have columns (vs : List String) :
      Piece.Free (· = .word "USING") (.symbol .lparen :: (Piece.columnMarks vs ++ [.symbol .rparen])) := by
    have inner : Piece.Free (fun _ => False) (Piece.columnMarks vs) := .plain (Piece.columnMarks_plain vs) (by simp)
    exact inner.group plain
  have free := side_free left separates
  have free' := side_free right separates
  by_cases empty : names = [] <;> by_cases empty' : names' = [] <;> simp only [usingMarks,empty,empty',if_true,if_false] at same
  · exact ⟨by simpa using same,empty.trans empty'.symm⟩
  · rw [List.append_nil] at same
    rw [same] at free
    exact (free.absent (columns names') rfl separates.plain).elim
  · rw [List.append_nil] at same
    rw [← same] at free'
    exact (free'.absent (columns names) rfl separates.plain).elim
  · obtain ⟨operand,_,inner⟩ := (columns names).last (columns names') rfl rfl plain same
    exact ⟨operand,Piece.columnMarks_unique (by simpa using inner)⟩

theorem comma_split (tree : IsFrom n) (listed : n.isComma = true) : ∃ x y, n.marks = x ++ .symbol .comma :: y ∧
    Piece.Free (· = .symbol .comma) y := by
  cases tree with
  | table => cases listed
  | join s _ _ _ right => exact ⟨_,_,marks_comma (by simpa [isComma] using listed),side_free right (by decide)⟩

theorem comma_distinct (tree : IsFrom n) (listed : n.isComma = true) (other : IsFrom m) (unlisted : m.isComma = false) :
    n.marks ≠ m.marks := by
  intro same
  obtain ⟨x,y,split,behind⟩ := comma_split tree listed
  have free := unlisted_free other unlisted
  rw [← same,split] at free
  exact free.absent behind rfl (Piece.Separates.plain (by decide))

theorem marks_unique (first : IsFrom a) (second : IsFrom b) (same : a.marks = b.marks) : a = b := by
  induction first generalizing b with
  | table name asName bare given =>
    cases second with
    | table name' asName' bare' given' =>
      cases asName <;> cases asName' <;> simp_all [marks]
    | join s names c l r bare' given' sound strict loose =>
      exact absurd same (table_distinct (.table name asName bare given) (.join s names c l r bare' given' sound strict loose))
  | @join l r s names c left right bare given sound strict loose ihl ihr =>
    have here : IsFrom (.join s l r (usingOf names)) := .join s names c left right bare given sound strict loose
    cases second with
    | table name asName bare' given' => exact absurd same.symm (table_distinct (.table name asName bare' given') here)
    | @join l' r' s' names' c' left' right' bare' given' sound' strict' loose' =>
      have there : IsFrom (.join s' l' r' (usingOf names')) := .join s' names' c' left' right' bare' given' sound' strict' loose'
      by_cases comma : s.kind = .comma <;> by_cases comma' : s'.kind = .comma
      · rw [marks_comma comma,marks_comma comma'] at same
        have separates : Piece.Separates (.symbol .comma) := by decide
        obtain ⟨front,_,back⟩ := (side_free right separates).last (side_free right' separates) rfl rfl
          (fun q found => found ▸ separates.plain) same
        cases ihl left' front
        cases ihr right' (side_unique right right' back)
        cases comma_spec comma strict loose
        cases comma_spec comma' strict' loose'
        cases unconditional_bare rfl given sound
        cases unconditional_bare rfl given' sound'
        rfl
      · exact absurd same (comma_distinct here (by simpa [isComma] using comma) there (by simpa [isComma] using comma'))
      · exact absurd same.symm (comma_distinct there (by simpa [isComma] using comma') here (by simpa [isComma] using comma))
      · rw [marks_keyword comma,marks_keyword comma',usingColumns_of,usingColumns_of] at same
        have separates : Piece.Separates (.word "JOIN") := by decide
        have behind {n : Node} {vs : List String} (tree : IsFrom n) :
            Piece.Free (· = .word "JOIN") (Piece.framed n.isJoin n.marks ++ usingMarks vs) :=
          (side_free tree separates).append (Piece.usingMarks_free vs separates (by decide))
        obtain ⟨front,_,back⟩ := (behind right).last (behind right') rfl rfl (fun q found => found ▸ separates.plain) same
        obtain ⟨front,run⟩ := Piece.run_unique (framed_last (marks_last left) _) (framed_last (marks_last left') _)
          (words_run s comma) (words_run s' comma') front
        obtain ⟨operand,rfl⟩ := constraint_unique right right' back
        cases ihl left' (front_unique left left' front)
        cases ihr right' (side_unique right right' operand)
        cases words_unique strict strict' comma comma' run
        rfl

-- Trees of tables and joins without conditions have a text each, and no two of them have the same one.
theorem text_unique (left : IsFrom a) (right : IsFrom b) :
    ∃ f g, a.surface = .ok f ∧ b.surface = .ok g ∧ (f.text = g.text → a = b) := by
  obtain ⟨f,shown,_,_,marks⟩ := surface_shows left
  obtain ⟨g,shown',_,_,marks'⟩ := surface_shows right
  refine ⟨f,g,shown,shown',fun same => marks_unique left right ?_⟩
  rw [same] at marks
  exact marks.unique marks'

-- One list of words, grouped in two ways.
theorem text_unique_regrouped :
    let table (name : String) : Node := .table name none
    let paste (l r : Node) : Node := .join { kind := .paste } l r none
    let comma (l r : Node) : Node := .join { kind := .comma } l r none
    let keyed (l r : Node) : Node := .join { strictness := .any, kind := .left } l r (usingOf ["id","paste"])
    let a := keyed (comma (table "a") (.table "b" (some "PASTE"))) (paste (table "c") (table "d"))
    let b := comma (table "a") (keyed (.table "b" (some "PASTE")) (paste (table "c") (table "d")))
    (IsFrom a ∧ IsFrom b) ∧ ∃ f g, a.surface = .ok f ∧ b.surface = .ok g ∧
      f.text = "(a, b AS PASTE) ANY LEFT JOIN (c PASTE JOIN d) USING (id, paste)" ∧
      g.text = "a, (b AS PASTE ANY LEFT JOIN (c PASTE JOIN d) USING (id, paste))" ∧ (f.text = g.text → a = b) := by
  intro table paste comma keyed a b
  have plain : ∀ v ∈ ["a","b","c","d","id","paste","PASTE"], Text.IsBare v :=
    fun v member => Text.isBare_of_plain .generic v (by revert v; decide +kernel)
  have tree (v : String) (member : v ∈ ["a","b","c","d","id","paste","PASTE"]) : IsFrom (table v) :=
    .table v none (plain v member) nofun
  have named : IsFrom (.table "b" (some "PASTE")) := .table _ _ (plain "b" (by decide)) fun a same => by
    cases same
    exact plain "PASTE" (by decide)
  have pasted : IsFrom (paste (table "c") (table "d")) :=
    .join _ [] _ (tree "c" (by decide)) (tree "d" (by decide)) nofun rfl rfl (fun _ => rfl) nofun
  have used {l r : Node} (left : IsFrom l) (right : IsFrom r) : IsFrom (keyed l r) :=
    .join _ ["id","paste"] _ left right (fun v member => plain v (by revert v; decide)) rfl rfl nofun nofun
  have listed {l r : Node} (left : IsFrom l) (right : IsFrom r) : IsFrom (comma l r) :=
    .join _ [] _ left right nofun rfl rfl (fun _ => rfl) (fun _ => rfl)
  have first : IsFrom a := used (listed (tree "a" (by decide)) named) pasted
  have second : IsFrom b := listed (tree "a" (by decide)) (used named pasted)
  obtain ⟨f,g,shown,shown',unique⟩ := text_unique first second
  cases shown
  cases shown'
  exact ⟨⟨first,second⟩,_,_,rfl,rfl,rfl,rfl,unique⟩

end Node

end JoinTree
