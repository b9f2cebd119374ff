import JoinTree.Proofs.InPlace

/-!
Words that are taken out on either side of a part of a text. Main statement: that part stays, whatever it is, and what stands
around it keeps its size.
-/

namespace JoinTree

open Sql

namespace Text

-- Each character as it is, or others of as many bytes in its place.
inductive Aligned : List Char → List Char → Prop where
  | nil : Aligned [] []
  | cons : byteLength p = c.utf8Size → Aligned a x → Aligned (c :: a) (p ++ x)

namespace Aligned

theorem refl (a : List Char) : Aligned a a := by
  induction a with
  | nil => exact .nil
  | cons c a ih => exact .cons (p := [c]) (Nat.add_zero _) ih

theorem size (aligned : Aligned a x) : byteLength x = byteLength a := by
  induction aligned with
  | nil => rfl
  | cons own _ ih => rw [byteLength_append,own,ih,byteLength]

theorem append (first : Aligned a x) (second : Aligned b y) : Aligned (a ++ b) (x ++ y) := by
  induction first with
  | nil => exact second
  | cons own _ ih =>
    rw [List.append_assoc]
    exact .cons own ih

theorem split (aligned : Aligned (a ++ b) z) : ∃ x y, z = x ++ y ∧ Aligned a x ∧ Aligned b y := by
  induction a generalizing z with
  | nil => exact ⟨[],z,rfl,.nil,aligned⟩
  | cons c a ih =>
    cases aligned with
    | @cons p _ _ _ own rest =>
      obtain ⟨x,y,rfl,first,second⟩ := ih rest
      exact ⟨p ++ x,y,(List.append_assoc ..).symm,.cons own first,second⟩

-- Characters of one byte each fit wherever there is room for them.
theorem of_narrow (narrow : ∀ c ∈ x, isNarrow c = true) (size : byteLength x = byteLength a) : Aligned a x := by
  induction a generalizing x with
  | nil =>
    rw [Lexeme.narrow_bytes narrow] at size
    cases List.eq_nil_of_length_eq_zero size
    exact .nil
  | cons c a ih =>
    have first : ∀ b ∈ x.take c.utf8Size, isNarrow b = true := fun b inside => narrow b (List.mem_of_mem_take inside)
    have rest : ∀ b ∈ x.drop c.utf8Size, isNarrow b = true := fun b inside => narrow b (List.mem_of_mem_drop inside)
    rw [Lexeme.narrow_bytes narrow,byteLength] at size
    rw [← List.take_append_drop c.utf8Size x]
    refine .cons ?_ (ih rest ?_)
    · rw [Lexeme.narrow_bytes first,List.length_take]
      omega
    · rw [Lexeme.narrow_bytes rest,List.length_drop]
      omega

end Aligned

end Text

theorem Sql.Lexeme.filling_aligned (w : Lexeme) (own : List Char) : Text.Aligned own (w.cut.filling own) := by
  have blanks : Text.Aligned own (List.replicate (Text.byteLength own) ' ') := by
    have narrow : ∀ c ∈ List.replicate (Text.byteLength own) ' ', Text.isNarrow c = true := by
      intro c inside
      rw [List.eq_of_mem_replicate inside]
      rfl
    exact .of_narrow narrow (by rw [Lexeme.narrow_bytes narrow,List.length_replicate])
  rw [cut,Edit.filling]
  cases w.isPaste with
  | false => exact blanks
  | true =>
    simp only [if_true,Option.elim]
    split
    · rename_i fits
      exact .of_narrow (List.all_eq_true.mp (by decide)) fits
    · exact blanks

namespace PreparedText

section

variable {a b u : List Char} {front after : List Lexeme}

-- A word on one side of a part of the text is taken out there.
theorem applyEdit_around {w : Lexeme} (first : Located .start a front) (second : Located l b after) (inside : w ∈ front ++ after)
    (left : Text.Aligned a x) (right : Text.Aligned b y) : ∃ x' y', Text.Aligned a x' ∧ Text.Aligned b y' ∧
      ∀ u, Location.start.pastAll (a ++ u) = l → applyEdit (.ofText (a ++ u ++ b)) (x ++ u ++ y) w.cut = .ok (x' ++ u ++ y') := by
  rcases List.mem_append.mp inside with early | late
  · obtain ⟨f,own,r,rfl,stands⟩ := first.stands early
    obtain ⟨_,x₃,rfl,both,last⟩ := left.split
    obtain ⟨x₁,x₂,rfl,before,here⟩ := both.split
    refine ⟨x₁ ++ w.cut.filling own ++ x₃,y,(before.append (w.filling_aligned own)).append last,right,fun u _ => ?_⟩
    have stands : w.Stands f own (r ++ u ++ b) := ⟨stands.start,stands.stop,stands.spells⟩
    simpa using applyEdit_filling (e := w.cut) (y := x₃ ++ u ++ y) stands.start stands.stop before.size here.size
  · obtain ⟨f,own,r,rfl,start,stop,spells⟩ := second.split late
    obtain ⟨_,y₃,rfl,both,last⟩ := right.split
    obtain ⟨y₁,y₂,rfl,before,here⟩ := both.split
    refine ⟨x,y₁ ++ w.cut.filling own ++ y₃,left,(before.append (w.filling_aligned own)).append last,fun u place => ?_⟩
    have stands : w.Stands (a ++ u ++ f) own r := ⟨by rw [start,← place,Location.pastAll_append _ (a ++ u)],stop,spells⟩
    have size : Text.byteLength (x ++ u ++ y₁) = Text.byteLength (a ++ u ++ f) := by
      simp only [Text.byteLength_append,left.size,before.size]
    simpa using applyEdit_filling (e := w.cut) (y := y₃) stands.start stands.stop size here.size

theorem applyEdits_around (first : Located .start a front) (second : Located l b after) (ws : List Lexeme)
    (inside : ∀ w ∈ ws, w ∈ front ++ after) (left : Text.Aligned a x) (right : Text.Aligned b y) :
    ∃ x' y', Text.Aligned a x' ∧ Text.Aligned b y' ∧ ∀ u, Location.start.pastAll (a ++ u) = l →
      (ws.map Lexeme.cut).foldlM (applyEdit (.ofText (a ++ u ++ b))) (x ++ u ++ y) = .ok (x' ++ u ++ y') := by
  induction ws generalizing x y with
  | nil => exact ⟨x,y,left,right,fun _ _ => rfl⟩
  | cons w ws ih =>
    obtain ⟨x₁,y₁,left,right,one⟩ := applyEdit_around first second (inside w List.mem_cons_self) left right
    obtain ⟨x₂,y₂,left,right,others⟩ := ih (fun w' member => inside w' (List.mem_cons_of_mem _ member)) left right
    refine ⟨x₂,y₂,left,right,fun u place => ?_⟩
    rw [List.map_cons,List.foldlM_cons,one u place]
    exact others u place

end

end PreparedText

end JoinTree
