import JoinTree.Proofs.WordRemoval

/-!
Places and byte offsets. Main statement: each place that counting through a text comes to has the byte offset of the character
there. The only other places with an offset are those behind the newline of a line, and they have the offset of the next line.
-/

namespace JoinTree

open Sql

namespace Text

variable {cs : List Char} {n : Nat}

-- Where a character of a text starts, in bytes, or where the text ends.
def byteOffset (cs : List Char) (i : Nat) : Nat := (String.ofList (cs.take i)).utf8ByteSize

theorem byteLength_ofList (cs : List Char) : (String.ofList cs).utf8ByteSize = byteLength cs := by
  induction cs with
  | nil => rfl
  | cons c cs ih => rw [String.ofList_cons,String.utf8ByteSize_append,String.utf8ByteSize_singleton,ih,byteLength]

-- A longer part of a text is longer in bytes.
theorem byteLength_take_lt (less : i < j) (inside : j ≤ cs.length) : byteLength (cs.take i) < byteLength (cs.take j) := by
  obtain ⟨k,rfl⟩ : ∃ k, j = i + (k + 1) := ⟨j - i - 1,by omega⟩
  have more : i < cs.length := by omega
  have size := Char.utf8Size_pos cs[i]
  rw [List.take_add,byteLength_append,List.drop_eq_getElem_cons more,List.take_succ_cons,byteLength]
  omega

theorem byteLength_take_le (first : i ≤ cs.length) (second : j ≤ cs.length) :
    byteLength (cs.take i) ≤ byteLength (cs.take j) ↔ i ≤ j := by
  constructor
  · intro le
    refine Nat.le_of_not_lt fun less => ?_
    exact absurd (byteLength_take_lt less first) (Nat.not_lt.mpr le)
  · intro le
    rcases Nat.lt_or_eq_of_le le with less | rfl
    · exact Nat.le_of_lt (byteLength_take_lt less second)
    · exact Nat.le_refl _

theorem lines_cons (c : Char) (cs : List Char) : ∃ first more, lines cs = first :: more ∧
    lines (c :: cs) = if c = '\n' then [c] :: first :: more else (c :: first) :: more := by
  obtain ⟨first,more,same⟩ := List.exists_cons_of_ne_nil (lines_ne_nil cs)
  exact ⟨first,more,same,by rw [lines,same]⟩

theorem lines_flatten (cs : List Char) : (lines cs).flatten = cs := by
  induction cs with
  | nil => rfl
  | cons c cs ih =>
    obtain ⟨first,more,same,cons⟩ := lines_cons c cs
    rw [same,List.flatten_cons] at ih
    rw [cons]
    split <;> simp [ih]

-- No line has a newline but at its end.
theorem lines_flat (found : (lines cs)[n]? = some line) : ∃ body, '\n' ∉ body ∧ (line = body ∨ line = body ++ ['\n']) := by
  induction cs generalizing n line with
  | nil =>
    cases n with
    | zero => exact ⟨[],List.not_mem_nil,.inl (Option.some.inj found).symm⟩
    | succ n => cases found
  | cons c cs ih =>
    obtain ⟨first,more,same,cons⟩ := lines_cons c cs
    rw [same] at ih
    rw [cons] at found
    split at found
    · rename_i newline
      cases n with
      | zero => exact ⟨[],List.not_mem_nil,.inr (newline ▸ (Option.some.inj found).symm)⟩
      | succ n => exact ih found
    · rename_i other
      cases n with
      | zero =>
        obtain rfl : c :: first = line := Option.some.inj found
        obtain ⟨body,flat,ends⟩ := ih (n := 0) rfl
        refine ⟨c :: body,?_,by rcases ends with rfl | rfl <;> simp⟩
        simpa using ⟨fun newline => other newline.symm,flat⟩
      | succ n => exact ih (n := n + 1) found

-- A line begins at the first column, the first one perhaps later.
theorem lines_start (inside : n < (lines cs).length) (l : Location) :
    l.pastAll ((lines cs).take n).flatten = if n = 0 then l else ⟨l.line + n,1⟩ := by
  induction cs generalizing n l with
  | nil =>
    obtain rfl : n = 0 := by simpa [lines] using inside
    rfl
  | cons c cs ih =>
    cases n with
    | zero => rfl
    | succ n =>
      obtain ⟨first,more,same,cons⟩ := lines_cons c cs
      rw [same] at ih
      rw [cons] at inside ⊢
      rw [if_neg (Nat.succ_ne_zero n)]
      split at inside
      · rename_i newline
        have next : l.past c = ⟨l.line + 1,1⟩ := if_pos newline
        have rest := ih (n := n) (Nat.lt_of_succ_lt_succ inside) (l.past c)
        rw [if_pos newline,List.take_succ_cons,List.flatten_cons,List.singleton_append,Location.pastAll,List.foldl_cons,
          ← Location.pastAll,rest,next]
        split
        · simp [*]
        · simp only [Nat.add_assoc,Nat.add_comm 1]
      · rename_i other
        have next : l.past c = ⟨l.line,l.column + 1⟩ := if_neg other
        have rest := ih (n := n + 1) inside (l.past c)
        rw [if_neg (Nat.succ_ne_zero n),next] at rest
        rw [if_neg other,← rest,← next]
        rfl

end Text

namespace Sql.Location

-- The place of a character of a text, or the place behind the last one.
def ofIndex (cs : List Char) (i : Nat) : Location := start.pastAll (cs.take i)

end Sql.Location

namespace LineIndex

variable {cs : List Char}

-- A part of a text, up to some character of one of its lines.
theorem lines_part (found : (Text.lines cs)[n]? = some line) (k : Nat) :
    cs = ((Text.lines cs).take n).flatten ++ line.take k ++ (line.drop k ++ ((Text.lines cs).drop (n + 1)).flatten) := by
  obtain ⟨inside,same⟩ := List.getElem?_eq_some_iff.mp found
  calc
    cs = ((Text.lines cs).take n ++ (Text.lines cs).drop n).flatten := by rw [List.take_append_drop,Text.lines_flatten]
    _ = ((Text.lines cs).take n).flatten ++ (line ++ ((Text.lines cs).drop (n + 1)).flatten) := by
      rw [List.flatten_append,List.drop_eq_getElem_cons inside,same,List.flatten_cons]
    _ = _ := by
      conv => lhs; rw [← List.take_append_drop k line]
      simp only [List.append_assoc]

-- Counting through a text comes to each character of a line at the column of that character.
theorem lines_column (found : (Text.lines cs)[n]? = some line) : ∃ body, (line = body ∨ line = body ++ ['\n']) ∧
    ∀ k ≤ body.length, Location.start.pastAll (((Text.lines cs).take n).flatten ++ body.take k) = ⟨n + 1,k + 1⟩ := by
  obtain ⟨inside,_⟩ := List.getElem?_eq_some_iff.mp found
  obtain ⟨body,flat,ends⟩ := Text.lines_flat found
  have first : Location.start.pastAll ((Text.lines cs).take n).flatten = ⟨n + 1,1⟩ := by
    rw [Text.lines_start inside]
    split
    · simp [*,Location.start]
    · simp [Location.start,Nat.add_comm]
  refine ⟨body,ends,fun k short => ?_⟩
  have plain : ∀ c ∈ body.take k, c ≠ '\n' := fun c member same => flat (same ▸ List.mem_of_mem_take member)
  rw [Location.pastAll_append,first,Location.pastAll_flat _ plain,List.length_take_of_le short,Nat.add_comm 1]

-- A place with an offset lies behind some of the text: where counting through that comes to, or behind the newline it ends with.
theorem offset_place (found : (ofText cs).offset? l = some b) : ∃ front rest, cs = front ++ rest ∧ b = Text.byteLength front ∧
    (l = Location.start.pastAll front ∨ ∃ before, front = before ++ ['\n'] ∧
      l = ⟨(Location.start.pastAll before).line,(Location.start.pastAll before).column + 1⟩) := by
  obtain ⟨_ | n,_ | k⟩ := l
  case succ.succ =>
    simp only [offset?,ofText] at found
    split at found
    · rename_i line read
      split at found
      · rename_i within
        cases found
        refine ⟨_,_,lines_part read k,(Text.byteLength_append _ _).symm,?_⟩
        obtain ⟨body,ends,column⟩ := lines_column read
        by_cases short : k ≤ body.length
        · have part : line.take k = body.take k := by
            rcases ends with rfl | rfl
            · rfl
            · exact List.take_append_of_le_length short
          exact .inl (by rw [part,column k short])
        · obtain ⟨rfl,rfl⟩ : line = body ++ ['\n'] ∧ k = body.length + 1 := by
            rcases ends with rfl | rfl
            · exact absurd within short
            · rw [List.length_append,List.length_singleton] at within
              exact ⟨rfl,by omega⟩
          have full : (body ++ ['\n']).take (body.length + 1) = body ++ ['\n'] := List.take_of_length_le (by simp)
          have last := column body.length (Nat.le_refl _)
          rw [List.take_length] at last
          exact .inr ⟨_,by rw [full,List.append_assoc],by rw [last]⟩
      · cases found
    · cases found
  all_goals cases found

theorem range_iff (x : LineIndex) (l m : Location) (a b : Nat) :
    x.range? l m = some (a,b) ↔ x.offset? l = some a ∧ x.offset? m = some b ∧ a ≤ b := by
  unfold range?
  split
  · rename_i a' b' first second
    rw [first,second]
    grind
  · rename_i missing
    exact ⟨nofun,fun ⟨first,second,_⟩ => absurd second (missing a b first)⟩

-- Counting up to a character and looking its place up gives its byte offset. No other place has an offset but those behind the
-- newlines of the text, and none lies within a character. A range is there exactly if it does not end before it begins.
theorem offset_exact (cs : List Char) :
    (∀ i ≤ cs.length, (ofText cs).offset? (.ofIndex cs i) = some (Text.byteOffset cs i)) ∧
    (∀ l b, (ofText cs).offset? l = some b → (∃ i ≤ cs.length, l = .ofIndex cs i ∧ b = Text.byteOffset cs i) ∨
      ∃ i, cs[i]? = some '\n' ∧ l = ⟨(Location.ofIndex cs i).line,(Location.ofIndex cs i).column + 1⟩ ∧
        b = Text.byteOffset cs (i + 1)) ∧
    (∀ l m a b, (ofText cs).range? l m = some (a,b) ↔
      (ofText cs).offset? l = some a ∧ (ofText cs).offset? m = some b ∧ a ≤ b) ∧
    ∀ i ≤ cs.length, ∀ j ≤ cs.length, (ofText cs).range? (.ofIndex cs i) (.ofIndex cs j) =
      if i ≤ j then some (Text.byteOffset cs i,Text.byteOffset cs j) else none := by
  have bytes (i : Nat) : Text.byteOffset cs i = Text.byteLength (cs.take i) := Text.byteLength_ofList _
  have offsets (i : Nat) : (ofText cs).offset? (.ofIndex cs i) = some (Text.byteOffset cs i) := by
    have split := offset_split (cs.take i) (cs.drop i)
    rwa [List.take_append_drop,← bytes] at split
  refine ⟨fun i _ => offsets i,?_,range_iff (ofText cs),?_⟩
  · intro l b found
    obtain ⟨front,rest,rfl,rfl,rfl | ⟨before,rfl,rfl⟩⟩ := offset_place found
    · refine .inl ⟨front.length,by simp,?_,?_⟩
      · rw [Location.ofIndex,List.take_left]
      · rw [bytes,List.take_left]
    · refine .inr ⟨before.length,by simp,?_,?_⟩
      · rw [Location.ofIndex,List.append_assoc,List.take_left]
      · have size : before.length + 1 = (before ++ ['\n']).length := by simp
        rw [bytes,size,List.take_left]
  · intro i first j second
    rw [range?,offsets,offsets]
    simp only [bytes,Text.byteLength_take_le first second]

-- In `aé`, newline, `😀` the last character has the offset 4 and the end of the text the offset 8. Behind the newline, the
-- first line has a place more, which is that of the last character again.
theorem offset_exact_wide :
    let cs := "aé\n😀".toList
    Location.ofIndex cs 3 = ⟨2,1⟩ ∧ 3 ≤ cs.length ∧ (ofText cs).offset? ⟨2,1⟩ = some 4 ∧ (ofText cs).offset? ⟨1,4⟩ = some 4 ∧
      ((∃ i ≤ cs.length, (⟨1,4⟩ : Location) = .ofIndex cs i ∧ 4 = Text.byteOffset cs i) ∨
        ∃ i, cs[i]? = some '\n' ∧ (⟨1,4⟩ : Location) = ⟨(Location.ofIndex cs i).line,(Location.ofIndex cs i).column + 1⟩ ∧
          4 = Text.byteOffset cs (i + 1)) ∧
      (ofText cs).range? ⟨2,1⟩ ⟨2,2⟩ = some (4,8) ∧ (ofText cs).range? ⟨2,2⟩ ⟨2,1⟩ = none := by
  intro cs
  have place : Location.ofIndex cs 3 = ⟨2,1⟩ := by decide
  have last : Location.ofIndex cs 4 = ⟨2,2⟩ := by decide
  have inside : 3 ≤ cs.length := by decide
  have whole : 4 ≤ cs.length := by decide
  obtain ⟨offsets,others,_,ranges⟩ := offset_exact cs
  have behind : (ofText cs).offset? ⟨1,4⟩ = some 4 := by decide
  have first : Text.byteOffset cs 3 = 4 := by decide
  have final : Text.byteOffset cs 4 = 8 := by decide
  refine ⟨place,inside,?_,behind,others _ _ behind,?_,?_⟩
  · rw [← place,offsets 3 inside]
    exact congrArg some first
  · rw [← place,← last,ranges 3 inside 4 whole,if_pos (by decide)]
    exact congrArg some (Prod.ext first final)
  · rw [← place,← last,ranges 4 whole 3 inside,if_neg (by decide)]

end LineIndex

end JoinTree
