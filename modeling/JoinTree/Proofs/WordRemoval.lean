import JoinTree.Clause.Extraction
import JoinTree.Proofs.Scanning

/-!
Taking words out of a text: what is put in their place is as long, so every other piece stays where it was.
-/

namespace JoinTree

open Sql

namespace Text

theorem lines_ne_nil (cs : List Char) : lines cs ≠ [] := by
  cases cs with
  | nil => exact List.cons_ne_nil _ _
  | cons c cs =>
    rw [lines]
    split
    · exact List.cons_ne_nil _ _
    · split <;> exact List.cons_ne_nil _ _

-- The lines of a text that is cut anywhere: those that end in front of there, and the one that goes on behind.
theorem lines_split (a b : List Char) (l : Location) : ∃ front done rest more, lines (a ++ b) = front ++ (done ++ rest) :: more ∧
    front.flatten ++ done = a ∧
    l.pastAll a = if front = [] then ⟨l.line,l.column + done.length⟩ else ⟨l.line + front.length,done.length + 1⟩ := by
  induction a generalizing l with
  | nil =>
    obtain ⟨first,more,same⟩ := List.exists_cons_of_ne_nil (lines_ne_nil b)
    exact ⟨[],[],first,more,same,rfl,rfl⟩
  | cons c a ih =>
    obtain ⟨front,done,rest,more,split,whole,place⟩ := ih (l.past c)
    rw [List.cons_append,lines,split,show l.pastAll (c :: a) = (l.past c).pastAll a from rfl,place]
    by_cases newline : c = '\n'
    · have next : l.past c = ⟨l.line + 1,1⟩ := if_pos newline
      refine ⟨[c] :: front,done,rest,more,by rw [if_pos newline]; rfl,by simp [← whole],?_⟩
      rw [next,if_neg (List.cons_ne_nil _ _)]
      split
      · simp [*,Nat.add_comm]
      · simp only [List.length_cons,Nat.add_assoc,Nat.add_comm 1]
    · have next : l.past c = ⟨l.line,l.column + 1⟩ := if_neg newline
      rw [if_neg newline,next]
      cases front with
      | nil => exact ⟨[],c :: done,rest,more,rfl,by simp [← whole],by simp [Nat.add_assoc,Nat.add_comm 1]⟩
      | cons first front => exact ⟨(c :: first) :: front,done,rest,more,rfl,by simp [← whole],by simp⟩

theorem byteLength_append (a b : List Char) : byteLength (a ++ b) = byteLength a + byteLength b := by
  induction a with
  | nil => exact (Nat.zero_add _).symm
  | cons c a ih => rw [List.cons_append,byteLength,byteLength,ih,Nat.add_assoc]

theorem byteLength_blanks (n : Nat) : byteLength (List.replicate n ' ') = n := by
  induction n with
  | zero => rfl
  | succ n ih =>
    have blank : ' '.utf8Size = 1 := rfl
    rw [List.replicate_succ,byteLength,ih,blank,Nat.add_comm]

theorem takeBytes_exact (a b : List Char) : takeBytes (byteLength a) (a ++ b) = a := by
  induction a with
  | nil =>
    cases b with
    | nil => rfl
    | cons c b =>
      have size := Char.utf8Size_pos c
      rw [List.nil_append,takeBytes,if_neg (by simp only [byteLength]; omega)]
  | cons c a ih =>
    rw [List.cons_append,takeBytes,byteLength,if_pos (Nat.le_add_right ..),Nat.add_sub_cancel_left,ih]

theorem dropBytes_exact (a b : List Char) : dropBytes (byteLength a) (a ++ b) = b := by
  induction a with
  | nil =>
    cases b with
    | nil => rfl
    | cons c b =>
      have size := Char.utf8Size_pos c
      rw [List.nil_append,dropBytes,if_neg (by simp only [byteLength]; omega)]
  | cons c a ih =>
    rw [List.cons_append,dropBytes,byteLength,if_pos (Nat.le_add_right ..),Nat.add_sub_cancel_left,ih]

theorem replaceBytes_exact (a word b replacement : List Char) :
    replaceBytes (a ++ word ++ b) (byteLength a) (byteLength a + byteLength word) replacement = a ++ replacement ++ b := by
  rw [replaceBytes,← byteLength_append,dropBytes_exact,List.append_assoc a word b,takeBytes_exact]

end Text

namespace Sql.Location

theorem pastAll_flat (l : Location) (flat : ∀ c ∈ cs, c ≠ '\n') : l.pastAll cs = ⟨l.line,l.column + cs.length⟩ := by
  induction cs generalizing l with
  | nil => rfl
  | cons c cs ih =>
    have step : l.past c = ⟨l.line,l.column + 1⟩ := if_neg (flat c (by simp))
    rw [pastAll,List.foldl_cons,← pastAll,step,ih _ fun b member => flat b (by simp [member])]
    simp only [List.length_cons,Nat.add_assoc,Nat.add_comm 1]

end Sql.Location

namespace LineIndex

theorem offset_split (a b : List Char) : (ofText (a ++ b)).offset? (Location.start.pastAll a) = some (Text.byteLength a) := by
  obtain ⟨front,done,rest,more,split,whole,place⟩ := Text.lines_split a b .start
  have at_line : Location.start.pastAll a = ⟨front.length + 1,done.length + 1⟩ := by
    rw [place]
    split
    · simp [*,Location.start,Nat.add_comm]
    · simp [Location.start,Nat.add_comm]
  have inside : done.length ≤ (done ++ rest).length := by simp
  have line : (front ++ (done ++ rest) :: more)[front.length]? = some (done ++ rest) := by simp
  rw [at_line,← whole,Text.byteLength_append]
  simp only [offset?,ofText,whole,split,line,if_pos inside,List.take_left]

theorem range_split (a word b : List Char) :
    (ofText (a ++ word ++ b)).range? (Location.start.pastAll a) ((Location.start.pastAll a).pastAll word) =
      some (Text.byteLength a,Text.byteLength a + Text.byteLength word) := by
  have first : (ofText (a ++ word ++ b)).offset? (Location.start.pastAll a) = some (Text.byteLength a) := by
    rw [List.append_assoc]
    exact offset_split a (word ++ b)
  have last := offset_split (a ++ word) b
  rw [Location.pastAll_append,Text.byteLength_append] at last
  rw [range?,first,last]
  simp

end LineIndex

-- What an edit writes over the characters at its place.
def Edit.filling (e : Edit) (own : List Char) : List Char :=
  let blanks := List.replicate (Text.byteLength own) ' '
  e.replacement.elim blanks fun r => if r.utf8ByteSize = Text.byteLength own then r.toList else blanks

-- An edit in a text that other edits were made in.
theorem PreparedText.applyEdit_filling {e : Edit} (start : e.start = Location.start.pastAll front) (stop : e.stop = e.start.pastAll own)
    (before : Text.byteLength x = Text.byteLength front) (size : Text.byteLength z = Text.byteLength own) :
    applyEdit (.ofText (front ++ own ++ rest)) (x ++ z ++ y) e = .ok (x ++ e.filling own ++ y) := by
  have range := LineIndex.range_split front own rest
  rw [← start,← stop] at range
  have swap (filler : List Char) : Text.replaceBytes (x ++ z ++ y) (Text.byteLength front)
      (Text.byteLength front + Text.byteLength own) filler = x ++ filler ++ y := by
    rw [← before,← size]
    exact Text.replaceBytes_exact ..
  cases written : e.replacement <;>
    simp only [applyEdit,range,written,Nat.add_sub_cancel_left,swap,Edit.filling,Option.elim]

-- What becomes of a piece of a text.
inductive Fate where
  | kept | blanked
  | replaced (word : String)
  deriving DecidableEq, Repr

structure Part where
  piece : Piece
  fate : Fate := .kept
  deriving DecidableEq, Repr

namespace Part

-- The pieces that stand in its place in the end.
def left (p : Part) : List Piece :=
  match p.fate with
  | .kept => [p.piece]
  | .blanked => List.replicate (Text.byteLength p.piece.chars) .space
  | .replaced word => [.word word]

def edits (l : Location) (p : Part) : List Edit :=
  match p.fate with
  | .kept => []
  | .blanked => [⟨l,l.pastAll p.piece.chars,none⟩]
  | .replaced word => [⟨l,l.pastAll p.piece.chars,some word⟩]

-- A word is as long as what it stands in for.
def Fits (p : Part) : Prop :=
  match p.fate with
  | .replaced word =>
    word.utf8ByteSize = Text.byteLength p.piece.chars ∧ Text.byteLength word.toList = Text.byteLength p.piece.chars
  | _ => True

def before (ps : List Part) : List Piece := ps.map piece
def after (ps : List Part) : List Piece := ps.flatMap left

def allEdits : Location → List Part → List Edit
  | _, [] => []
  | l, p :: ps => p.edits l ++ allEdits (l.pastAll p.piece.chars) ps

theorem allEdits_append (l : Location) (a b : List Part) :
    allEdits l (a ++ b) = allEdits l a ++ allEdits (l.pastAll (Piece.text (before a))) b := by
  induction a generalizing l with
  | nil => rfl
  | cons p a ih =>
    have place : l.pastAll (Piece.text (before (p :: a))) = (l.pastAll p.piece.chars).pastAll (Piece.text (before a)) := by
      rw [before,List.map_cons,Piece.text_cons,Location.pastAll_append]
      rfl
    rw [List.cons_append,allEdits,allEdits,ih,place,List.append_assoc]

theorem blanks_text (n : Nat) : Piece.text (List.replicate n .space) = List.replicate n ' ' := by
  induction n with
  | zero => rfl
  | succ n ih => rw [List.replicate_succ,Piece.text_cons,ih]; rfl

theorem text_append (a b : List Piece) : Piece.text (a ++ b) = Piece.text a ++ Piece.text b := by simp [Piece.text]

theorem left_size (p : Part) (fits : p.Fits) : Text.byteLength (Piece.text p.left) = Text.byteLength p.piece.chars := by
  rcases p with ⟨piece,_ | _ | word⟩
  · simp [left,Piece.text]
  · rw [left,blanks_text,Text.byteLength_blanks]
  · simpa [left,Piece.text,Piece.chars] using fits.2

-- One part, with what is left of the parts in front of it.
theorem edit_part (p : Part) (fits : p.Fits) (done rest : List Char)
    (size : Text.byteLength front = Text.byteLength done) :
    (p.edits (Location.start.pastAll done)).foldlM (PreparedText.applyEdit (.ofText (done ++ p.piece.chars ++ rest)))
      (front ++ p.piece.chars ++ rest) = .ok (front ++ Piece.text p.left ++ rest) := by
  rcases p with ⟨piece,_ | _ | word⟩
  · simp [edits,left,Piece.text]
    rfl
  · rw [edits,List.foldlM_cons,PreparedText.applyEdit_filling rfl rfl size rfl,left,blanks_text]
    rfl
  · have same : word.utf8ByteSize = Text.byteLength piece.chars := fits.1
    have written : Edit.filling ⟨Location.start.pastAll done,(Location.start.pastAll done).pastAll piece.chars,some word⟩ piece.chars =
        word.toList := if_pos same
    rw [edits,List.foldlM_cons,PreparedText.applyEdit_filling rfl rfl size rfl,written,left,Piece.text,List.flatMap_singleton]
    rfl

-- All edits of a text, the parts in front being done.
theorem edits_applied (ps : List Part) (fits : ∀ p ∈ ps, p.Fits)
    (size : Text.byteLength front = Text.byteLength done) :
    (allEdits (Location.start.pastAll done) ps).foldlM
      (PreparedText.applyEdit (.ofText (done ++ Piece.text (before ps)))) (front ++ Piece.text (before ps)) =
      .ok (front ++ Piece.text (after ps)) := by
  induction ps generalizing done front with
  | nil => rfl
  | cons p ps ih =>
    have split (cs : List Char) : cs ++ Piece.text (before (p :: ps)) = cs ++ p.piece.chars ++ Piece.text (before ps) := by
      rw [before,List.map_cons,Piece.text_cons,← before,List.append_assoc]
    have behind : Piece.text (after (p :: ps)) = Piece.text p.left ++ Piece.text (after ps) := by
      rw [after,List.flatMap_cons,text_append,← after]
    rw [split,split,behind,allEdits,List.foldlM_append,edit_part p (fits p (by simp)) done _ size,
      ← Location.pastAll_append]
    have sizes : Text.byteLength (front ++ Piece.text p.left) = Text.byteLength (done ++ p.piece.chars) := by
      rw [Text.byteLength_append,Text.byteLength_append,left_size p (fits p (by simp)),size]
    simpa [bind,Except.bind] using ih (fun q member => fits q (by simp [member])) sizes

end Part

end JoinTree
