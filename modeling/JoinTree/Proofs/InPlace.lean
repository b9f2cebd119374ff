import JoinTree.Proofs.Located

/-!
Words that are taken out of a text where they stand. Main statement: every other character of the text keeps its line
and its column, as long as each word that is taken out has as many bytes as characters.
-/

namespace JoinTree

open Sql

namespace Text

-- The characters of a text, each with its place.
def placed : Location → List Char → List (Location × Char)
  | _, [] => []
  | l, c :: cs => (l,c) :: placed (l.past c) cs

theorem placed_append (l : Location) (a b : List Char) : placed l (a ++ b) = placed l a ++ placed (l.pastAll a) b := by
  induction a generalizing l with
  | nil => rfl
  | cons c a ih =>
    rw [List.cons_append,placed,ih]
    rfl

theorem placed_within (l : Location) (cs : List Char) : ∀ p ∈ placed l cs, ¬ p.1 < l ∧ p.1 < l.pastAll cs := by
  induction cs generalizing l with
  | nil => exact nofun
  | cons c cs ih =>
    intro p member
    have first := l.lt_past c
    rcases List.mem_cons.mp member with rfl | later
    · exact ⟨by simp [Location.lt_iff],Location.lt_pastAll l (List.cons_ne_nil c cs)⟩
    · obtain ⟨low,high⟩ := ih _ p later
      refine ⟨?_,high⟩
      simp only [Location.lt_iff] at first low ⊢
      omega

end Text

namespace Sql.Lexeme

-- The places of a lexeme.
def Covers (w : Lexeme) (l : Location) : Prop := ¬ l < w.start ∧ l < w.stop

instance (w : Lexeme) (l : Location) : Decidable (w.Covers l) := inferInstanceAs (Decidable (_ ∧ _))

-- What a text has at the places of a lexeme.
def reads (w : Lexeme) (cs : List Char) : List Char := ((Text.placed .start cs).filter (w.Covers ·.1)).map (·.2)

def isPaste (w : Lexeme) : Bool := JoinWord.ofToken? w.token = some .paste

-- Words that are taken out.
def isRemovable (w : Lexeme) : Bool := JoinWord.ofToken? w.token ∈ [some .locality,some .all,some .any,some .asof,some .paste]

def cut (w : Lexeme) : Edit := ⟨w.start,w.stop,if w.isPaste then some "CROSS" else none⟩

end Sql.Lexeme

namespace PreparedText

def edits (d : Dialect) (sql : List Char) : List Edit := (noted d sql).flatMap (·.edits)

end PreparedText

-- Edits come from words.

def Cuts (ls : List Lexeme) (es : List Edit) : Prop :=
  ∃ ws : List Lexeme, es = ws.map Lexeme.cut ∧ ∀ w ∈ ws, w ∈ ls ∧ w.isRemovable = true

namespace Cuts

theorem nil : Cuts ls [] := ⟨[],rfl,by simp⟩

theorem append (first : Cuts ls es) (second : Cuts ls es') : Cuts ls (es ++ es') := by
  obtain ⟨ws,rfl,from_words⟩ := first
  obtain ⟨ws',rfl,from_words'⟩ := second
  refine ⟨ws ++ ws',List.map_append.symm,fun w member => ?_⟩
  rcases List.mem_append.mp member with member | member
  · exact from_words w member
  · exact from_words' w member

theorem word (member : w ∈ ls) (removable : w.isRemovable = true) (same : w.cut = e) : Cuts ls [e] :=
  ⟨[w],by rw [← same]; rfl,fun _ single => List.mem_singleton.mp single ▸ ⟨member,removable⟩⟩

theorem mono (cuts : Cuts ls es) (sub : ∀ w ∈ ls, w ∈ ls') : Cuts ls' es := by
  obtain ⟨ws,same,from_words⟩ := cuts
  exact ⟨ws,same,fun w member => ⟨sub w (from_words w member).1,(from_words w member).2⟩⟩

theorem flatMap {rs : List Recorded} (all : ∀ r ∈ rs, Cuts ls r.edits) : Cuts ls (rs.flatMap (·.edits)) := by
  induction rs with
  | nil => exact .nil
  | cons r rs ih => exact (all r (by simp)).append (ih fun r' member => all r' (List.mem_cons_of_mem _ member))

end Cuts

namespace ClauseWords

-- What is known about the words of a run.
structure Within (run : List Lexeme) (w : ClauseWords) : Prop where
  cuts : Cuts run w.edits
  asof : ∀ x, w.asof = some x → x ∈ run ∧ JoinWord.ofToken? x.token = some .asof

theorem cut_blank (role : JoinWord.ofToken? x.token = some r) (other : r ≠ .paste) : x.cut = blank x := by
  have not_paste : x.isPaste = false := by simp [Lexeme.isPaste,role,other]
  rw [Lexeme.cut,not_paste]
  rfl

theorem add_within {run : List Lexeme} (within : Within run w) (member : x ∈ run) (added : w.add x = .ok w') : Within run w' := by
  have blanked {r : JoinWord} (role : JoinWord.ofToken? x.token = some r) (other : r ≠ .paste) (removable : x.isRemovable = true) :
      Cuts run (w.edits ++ [blank x]) := within.cuts.append (.word member removable (cut_blank role other))
  unfold add at added
  split at added
  · rename_i role
    cases added
    exact ⟨blanked role nofun (by simp [Lexeme.isRemovable,role]),within.asof⟩
  · rename_i role
    obtain ⟨hint,_,added⟩ := bind_ok.mp added
    cases added
    exact ⟨blanked role nofun (by simp [Lexeme.isRemovable,role]),within.asof⟩
  · rename_i role
    obtain ⟨hint,_,added⟩ := bind_ok.mp added
    cases added
    exact ⟨blanked role nofun (by simp [Lexeme.isRemovable,role]),within.asof⟩
  · rename_i role
    cases added
    exact ⟨within.cuts,fun y same => Option.some.inj same ▸ ⟨member,role⟩⟩
  · rename_i role
    cases added
    have same : x.cut = ⟨x.start,x.stop,some "CROSS"⟩ := by simp [Lexeme.cut,Lexeme.isPaste,role]
    exact ⟨within.cuts.append (.word member (by simp [Lexeme.isRemovable,role]) same),within.asof⟩
  all_goals
    cases added
    exact ⟨within.cuts,within.asof⟩

theorem adds_within {run ls : List Lexeme} (within : Within run w) (members : ∀ x ∈ ls, x ∈ run) (added : ls.foldlM add w = .ok w') :
    Within run w' := by
  induction ls generalizing w with
  | nil =>
    cases added
    exact within
  | cons x ls ih =>
    rw [List.foldlM_cons] at added
    obtain ⟨w₁,first,rest⟩ := bind_ok.mp added
    exact ih (add_within within (members x (by simp)) first) (fun y member => members y (List.mem_cons_of_mem _ member)) rest

theorem ofRun_cuts (read : ofRun run after = .ok w) : Cuts run w.edits := by
  obtain ⟨w₁,added,closed⟩ := bind_ok.mp read
  have empty : Within run {} := ⟨.nil,fun _ same => by cases same⟩
  have within := adds_within empty (fun _ => id) added
  unfold ClauseWords.closed at closed
  split at closed
  · rename_i x same
    obtain ⟨member,role⟩ := within.asof x same
    split at closed
    · obtain ⟨hint,_,closed⟩ := bind_ok.mp closed
      cases closed
      exact within.cuts.append (.word member (by simp [Lexeme.isRemovable,role]) (cut_blank role nofun))
    · cases closed
      exact within.cuts
  · cases closed
    exact within.cuts

end ClauseWords

theorem recordedAt_cuts (read : recordedAt run after = .ok (some r)) : Cuts run r.edits := by
  obtain ⟨w,words,read⟩ := bind_ok.mp read
  split at read
  · cases read
  · have found : (rightStart? after).map (fun key => Recorded.mk key w.hint w.edits) = some r := Except.ok.inj read
    obtain ⟨key,_,rfl⟩ := Option.map_eq_some_iff.mp found
    exact ClauseWords.ofRun_cuts words

theorem recordings_cuts (run ls : List Lexeme) : ∀ r, .ok (some r) ∈ recordings run ls → Cuts (run ++ ls) r.edits := by
  induction ls generalizing run with
  | nil => exact nofun
  | cons l ls ih =>
    intro r member
    rw [recordings] at member
    split at member
    · rcases List.mem_cons.mp member with here | later
      · exact (recordedAt_cuts here.symm).mono fun w inside => by simp [inside]
      · exact (ih [] r later).mono fun w inside => by simp_all
    · split at member
      · simpa using ih (run ++ [l]) r member
      · exact (ih [] r member).mono fun w inside => by simp_all

namespace PreparedText

theorem noted_member {rs : List (Except JoinFault (Option Recorded))}
    (member : r ∈ (rs.takeWhile fun r => r.toBool).filterMap fun r => r.toOption.bind id) : .ok (some r) ∈ rs := by
  obtain ⟨x,inside,found⟩ := List.mem_filterMap.mp member
  have here := (List.takeWhile_sublist _).mem inside
  cases x with
  | error => cases found
  | ok r' =>
    cases r' with
    | none => cases found
    | some r' =>
      cases found
      exact here

theorem found_noted {rs : List (Except JoinFault (Option Recorded))} (found : rs.mapM id = .ok fs) :
    (rs.takeWhile fun r => r.toBool).filterMap (fun r => r.toOption.bind id) = fs.filterMap id := by
  induction rs generalizing fs with
  | nil =>
    cases found
    rfl
  | cons r rs ih =>
    rw [List.mapM_cons] at found
    obtain ⟨f,here,found⟩ := bind_ok.mp found
    obtain ⟨fs',rest,found⟩ := bind_ok.mp found
    cases found
    cases show r = .ok f from here
    have behind := ih rest
    rw [List.takeWhile_cons_of_pos rfl,List.filterMap_cons,List.filterMap_cons,behind]
    rfl

end PreparedText

-- Characters that take the place of others.

def Sql.Lexeme.fill (w : Lexeme) (l : Location) : Char :=
  if w.isPaste then "CROSS".toList.getD (l.column - w.start.column) ' ' else ' '

-- What a text has at a place once words are taken out.
def seen (ws : List Lexeme) (p : Location × Char) : Char :=
  match ws.find? (·.Covers p.1) with
  | some w => w.fill p.1
  | none => p.2

-- A character of one byte that ends no line.
def Text.isNarrow (c : Char) : Bool := c.toNat < 128 && c ≠ '\n'

theorem Text.narrow_char (narrow : isNarrow c = true) : c.utf8Size = 1 ∧ c ≠ '\n' := by
  simp only [isNarrow,Bool.and_eq_true,decide_eq_true_eq,ne_eq] at narrow
  exact ⟨Char.utf8Size_eq_one_iff.mpr (UInt32.le_iff_toNat_le.mpr (Nat.le_of_lt_succ narrow.1)),narrow.2⟩

-- A word of such characters. The word that another takes the place of has as many.
def Sql.Lexeme.IsNarrow (w : Lexeme) : Prop :=
  ∃ v k, w.token = .word v none k ∧ (∀ c ∈ v.toList, Text.isNarrow c = true) ∧ v.toList ≠ [] ∧
    (w.isPaste = true → v.toList.length = 5)

-- A lexeme on its own characters, between others.
structure Sql.Lexeme.Stands (w : Lexeme) (front own rest : List Char) : Prop where
  start : w.start = Location.start.pastAll front
  stop : w.stop = w.start.pastAll own
  spells : w.Spells own

-- The characters of a lexeme stand somewhere in a text.
def Sql.Lexeme.IsPart (w : Lexeme) (sql : List Char) : Prop :=
  ∃ front own rest, sql = front ++ own ++ rest ∧ w.start = Location.start.pastAll front ∧ w.stop = w.start.pastAll own

namespace Sql.Lexeme.Stands

variable {w : Lexeme} (stands : w.Stands front own rest)
include stands

theorem places : Text.placed .start (front ++ own ++ rest) =
    Text.placed .start front ++ Text.placed w.start own ++ Text.placed w.stop rest := by
  rw [Text.placed_append,Text.placed_append,Location.pastAll_append,← stands.start,← stands.stop]

theorem front_free : ∀ p ∈ Text.placed .start front, ¬ w.Covers p.1 := by
  intro p member covers
  have before := (Text.placed_within _ _ p member).2
  rw [← stands.start] at before
  exact covers.1 before

theorem own_covered : ∀ p ∈ Text.placed w.start own, w.Covers p.1 := by
  intro p member
  rw [Covers,stands.stop]
  exact Text.placed_within _ _ p member

theorem narrow (narrow : w.IsNarrow) :
    (∀ c ∈ own, Text.isNarrow c = true) ∧ own ≠ [] ∧ (w.isPaste = true → own.length = 5) := by
  obtain ⟨v,k,token,chars,more,length⟩ := narrow
  have same : own = v.toList := by simpa [Spells,token] using stands.spells
  exact ⟨same ▸ chars,same ▸ more,same ▸ length⟩

omit stands in
theorem rest_free : ∀ p ∈ Text.placed w.stop rest, ¬ w.Covers p.1 :=
  fun p member covers => (Text.placed_within _ _ p member).1 covers.2

theorem covered : (Text.placed .start (front ++ own ++ rest)).filter (w.Covers ·.1) = Text.placed w.start own := by
  have none_front : (Text.placed .start front).filter (w.Covers ·.1) = [] := by
    simpa using stands.front_free
  have none_rest : (Text.placed w.stop rest).filter (w.Covers ·.1) = [] := by
    simpa using rest_free (w := w)
  have all_own : (Text.placed w.start own).filter (w.Covers ·.1) = Text.placed w.start own := by
    simpa using stands.own_covered
  rw [stands.places,List.filter_append,List.filter_append,none_front,none_rest,all_own,List.append_nil,List.nil_append]

end Sql.Lexeme.Stands

theorem Located.stands (located : Located .start sql ws) (inside : w ∈ ws) : ∃ front own rest,
    sql = front ++ own ++ rest ∧ w.Stands front own rest := by
  obtain ⟨front,own,rest,whole,start,stop,spells⟩ := located.split inside
  exact ⟨front,own,rest,whole,start,stop,spells⟩

-- Two lexemes with a place in common are the same.
theorem Located.unique (located : Located l cs ws) (inside : w ∈ ws) (inside' : w' ∈ ws) (covers : w.Covers p) (covers' : w'.Covers p) :
    w = w' := by
  induction located with
  | done => cases inside
  | next _ _ _ _ _ rest ih =>
    have apart {a b : Lexeme} (a_covers : a.Covers p) (b_covers : b.Covers p) (later : ¬ b.start < a.stop) : False := by
      have := a_covers.2
      have := b_covers.1
      simp only [Location.lt_iff] at *
      omega
    rcases List.mem_cons.mp inside with rfl | later <;> rcases List.mem_cons.mp inside' with rfl | later'
    · rfl
    · exact (apart covers covers' (rest.not_before later')).elim
    · exact (apart covers' covers (rest.not_before later)).elim
    · exact ih later later'

section
variable {sql : List Char} {ws : List Lexeme} (located : Located .start sql ws)
include located

end

namespace Sql.Lexeme

-- What takes the place of a word.
def filler (w : Lexeme) (own : List Char) : List Char :=
  if w.isPaste then "CROSS".toList else List.replicate own.length ' '

theorem narrow_bytes (chars : ∀ c ∈ own, Text.isNarrow c = true) : Text.byteLength own = own.length := by
  induction own with
  | nil => rfl
  | cons c own ih =>
    have size := (Text.narrow_char (chars c (by simp))).1
    rw [Text.byteLength,size,ih fun b member => chars b (List.mem_cons_of_mem _ member),List.length_cons,Nat.add_comm]

end Sql.Lexeme

section
variable {sql : List Char} {ws cut todo : List Lexeme} (located : Located .start sql ws)
include located

omit located in
-- An edit of a part of the text does not fail.
theorem applyEdit_done {w : Lexeme} (part : w.IsPart sql) (text : List Char) :
    ∃ text', PreparedText.applyEdit (.ofText sql) text w.cut = .ok text' := by
  obtain ⟨front,own,rest,rfl,start,stop⟩ := part
  have range := LineIndex.range_split front own rest
  rw [← start,← stop] at range
  rw [PreparedText.applyEdit,Lexeme.cut,range]
  exact ⟨_,rfl⟩

omit located in
theorem applyEdits_done (parts : ∀ w ∈ cut, w.IsPart sql) (text : List Char) :
    ∃ text', (cut.map Lexeme.cut).foldlM (PreparedText.applyEdit (.ofText sql)) text = .ok text' := by
  induction cut generalizing text with
  | nil => exact ⟨text,rfl⟩
  | cons w cut ih =>
    obtain ⟨text',first⟩ := applyEdit_done (parts w (by simp)) text
    rw [List.map_cons,List.foldlM_cons,first]
    exact ih (fun x member => parts x (List.mem_cons_of_mem _ member)) text'

theorem Located.isPart (inside : w ∈ ws) : w.IsPart sql := by
  obtain ⟨front,own,rest,whole,stands⟩ := located.stands inside
  exact ⟨front,own,rest,whole,stands.start,stands.stop⟩

end

-- Words that are taken out are narrow, but for a letter that is one in upper case only.

namespace Text

end Text

-- The keyword of a word that is taken out, unless it is no keyword.
def JoinWord.keyword? : JoinWord → Option Keyword
  | .locality => some .LOCAL
  | .all => some .ALL
  | .any => some .ANY
  | .asof => some .ASOF
  | _ => none

namespace Sql.Lexeme

end Sql.Lexeme

namespace PreparedText

section
variable {d : Dialect} {sql : List Char} (located : Located .start sql (lexemes d sql))
include located

end

end PreparedText

end JoinTree
