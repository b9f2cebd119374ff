import JoinTree.Note

/-!
Computations that succeed, taken apart into the parts that succeeded.
-/

namespace JoinTree

theorem bind_ok {x : Except ε α} {f : α → Except ε β} :
    (x >>= f) = .ok b ↔ ∃ a, x = .ok a ∧ f a = .ok b := by
  cases x <;> simp [bind, Except.bind]

theorem mapError_value (f : ε → ε') (a : α) : (Except.ok a).mapError f = .ok a := rfl

theorem mapError_ok {x : Except ε α} {f : ε → ε'} : x.mapError f = .ok a ↔ x = .ok a := by
  cases x with
  | ok b => rw [mapError_value,Except.ok.injEq,Except.ok.injEq]
  | error fault => exact ⟨fun same => (by cases same),fun same => (by cases same)⟩

theorem map_ok {x : Except ε α} {f : α → β} : f <$> x = .ok b ↔ ∃ a, x = .ok a ∧ f a = b := by
  cases x <;> simp [Functor.map, Except.map]

theorem exists_ok {x : Except ε α} (read : x.toBool = true) : ∃ a, x = .ok a := by
  cases x with
  | error e => cases read
  | ok a => exact ⟨a,rfl⟩

theorem Noted.result_notes (ns : List Note) : (forIn ns PUnit.unit fun n _ => do
    Noted.note n
    pure (ForInStep.yield PUnit.unit) : Noted ε PUnit).result = .ok ⟨⟩ := by
  induction ns with
  | nil => rfl
  | cons n ns ih =>
    rw [List.forIn_cons,result_bind]
    exact ih

end JoinTree
