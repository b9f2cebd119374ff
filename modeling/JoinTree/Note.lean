/-!
Notes for a log. A computation keeps the notes that it left also when it fails.
-/

namespace JoinTree

inductive NoteLevel where
  | trace | debug | warn
  deriving DecidableEq, Repr

structure Note where
  level : NoteLevel
  text : String
  deriving DecidableEq, Repr

structure Noted (ε α : Type) where
  notes : List Note
  result : Except ε α

namespace Noted

def ofExcept (r : Except ε α) : Noted ε α := ⟨[], r⟩

def note (n : Note) : Noted ε Unit := ⟨[n], .ok ()⟩

protected def pure (a : α) : Noted ε α := ⟨[], .ok a⟩

-- The notes of the second part follow those of the first, and are missing if the first fails.
protected def bind (x : Noted ε α) (f : α → Noted ε β) : Noted ε β :=
  match x.result with
  | .ok a => ⟨x.notes ++ (f a).notes, (f a).result⟩
  | .error e => ⟨x.notes, .error e⟩

instance : Monad (Noted ε) where
  pure := Noted.pure
  bind := Noted.bind

instance : MonadExcept ε (Noted ε) where
  throw e := ⟨[], .error e⟩
  tryCatch x handle :=
    match x.result with
    | .ok a => ⟨x.notes, .ok a⟩
    | .error e => ⟨x.notes ++ (handle e).notes, (handle e).result⟩

instance : MonadLift (Except ε) (Noted ε) := ⟨ofExcept⟩

def mapError (f : ε → ε') (x : Noted ε α) : Noted ε' α := ⟨x.notes, x.result.mapError f⟩

@[simp] theorem result_pure (a : α) : (pure a : Noted ε α).result = .ok a := rfl

@[simp] theorem result_throw (e : ε) : (throw e : Noted ε α).result = .error e := rfl

@[simp] theorem result_note (n : Note) : (note n : Noted ε Unit).result = .ok () := rfl

@[simp] theorem result_lift (r : Except ε α) : (liftM r : Noted ε α).result = r := rfl

-- Notes have no influence on a result.
@[simp] theorem result_bind (x : Noted ε α) (f : α → Noted ε β) :
    (x >>= f).result = x.result >>= fun a => (f a).result := by
  rcases x with ⟨notes,_ | a⟩ <;> rfl

end Noted

end JoinTree
