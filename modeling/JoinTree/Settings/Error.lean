import JoinTree.Settings
import JoinTree.Yaml.Mismatch

namespace JoinTree

-- Values that are each right but not together.
inductive SettingsConflict where
  | limits (nonConst all : UInt64)
  | unguarded
  deriving DecidableEq, Repr

def SettingsConflict.text : SettingsConflict → String
  | limits nonConst all =>
    s!"max_temporary_non_const_columns ({nonConst.toNat}) exceeds max_temporary_columns ({all.toNat})"
  | unguarded =>
    "query_plan_merge_filters is enabled but query_plan_split_filter_and_chain is disabled; " ++
      "merged filters would no longer short-circuit guarded conditions"

inductive ReadFault where
  | isDirectory | notText
  deriving DecidableEq, Repr

def ReadFault.text : ReadFault → String
  | isDirectory => "Is a directory (os error 21)" | notText => "stream did not contain valid UTF-8"

inductive SettingsError where
  | notFound (path : String)
  | conflict (c : SettingsConflict)
  | unknown (name : String)
  | invalidValue (name value : String) (expected : ExpectedValue)
  | cancelled (query : String)
  | unreadable (path : String) (fault : ReadFault)
  | document (fault : Yaml.Refusal)
  deriving DecidableEq, Repr

def SettingsError.message : SettingsError → String
  | notFound path => s!"[E001] Settings file not found: {path}"
  | conflict c =>
    match c with
    | .limits .. => s!"[E002] Invalid settings: {c.text}"
    | .unguarded => s!"[E005] Inconsistent settings: {c.text}"
  | unknown name => s!"[E003] Unknown setting '{name}'"
  | invalidValue name value expected =>
    s!"[E004] Invalid value '{value}' for setting '{name}': expected {expected.text}"
  | cancelled query => s!"[E006] Query '{query}' was cancelled"
  | unreadable path fault => s!"[E007] Failed to read '{path}': {fault.text}"
  | document fault => s!"[E008] Settings parse error: {fault.message}"

namespace Settings

-- Merged filters evaluate a whole chain at once, so that a conjunct no longer guards those behind it unless the chain
-- is split again.
def guardConflict? (s : Settings) : Option SettingsConflict :=
  if s.mergeFilters && s.splitFilterChain = some false && s.shortCircuit ≠ .disable then some .unguarded else none

def conflict? (s : Settings) : Option SettingsConflict :=
  if s.maxTemporaryColumns ≠ 0 && s.maxTemporaryNonConstColumns > s.maxTemporaryColumns then
    some (.limits s.maxTemporaryNonConstColumns s.maxTemporaryColumns)
  else s.guardConflict?

private def refuse : Option SettingsConflict → Except SettingsError Unit
  | none => .ok ()
  | some c => .error (.conflict c)

def checkGuards (s : Settings) : Except SettingsError Unit := refuse s.guardConflict?

def validate (s : Settings) : Except SettingsError Unit := refuse s.conflict?

-- `SET name = value`. Blanks around the value do not count.
def assign (s : Settings) (name value : String) : Except SettingsError Settings :=
  match Setting.ofName? name with
  | none => .error (.unknown name)
  | some k => (s.set k (Text.trim value)).mapError (.invalidValue name (Text.trim value))

def getNamed? (s : Settings) (name : String) : Option String := (Setting.ofName? name).map s.get

end Settings

end JoinTree
