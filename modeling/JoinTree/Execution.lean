import JoinTree.Note
import JoinTree.Settings.Error
import JoinTree.Text.Quoted

/-!
The state a query runs with. Settings can change at any time; a snapshot keeps the values of the moment it was taken,
but shares the query's status and its progress callback with the context.
-/

namespace JoinTree

-- Progress since the last report, or in total. Sums wrap around.
structure QueryProgress where
  readRows : UInt64 := 0
  readBytes : UInt64 := 0
  totalRows : UInt64 := 0
  deriving DecidableEq, Repr, Inhabited

def QueryProgress.add (a b : QueryProgress) : QueryProgress :=
  ⟨a.readRows + b.readRows,a.readBytes + b.readBytes,a.totalRows + b.totalRows⟩

-- The entry of a running query in the process list.
structure QueryStatus where
  id : String
  cancelled : Bool := false
  progress : QueryProgress := {}
  deriving DecidableEq, Repr

namespace QueryStatus

def checkCancelled (s : QueryStatus) : Except SettingsError Unit :=
  if s.cancelled then .error (.cancelled s.id) else .ok ()

def noteText (s : QueryStatus) : String :=
  let p := s.progress
  s!"QueryStatus \x7b query_id: {Text.quoted s.id}, cancelled: {s.cancelled}, read_rows: {p.readRows.toNat}, " ++
    s!"read_bytes: {p.readBytes.toNat}, total_rows_to_read: {p.totalRows.toNat} \x7d"

end QueryStatus

-- How expressions are evaluated, as far as settings decide it.
structure ActionSettings where
  compileExpressions : Bool
  minCountToCompile : UInt64
  maxTemporaryColumns : UInt64
  maxTemporaryNonConstColumns : UInt64
  shortCircuit : ShortCircuit
  deriving DecidableEq, Repr

namespace ActionSettings

-- The caller may rule compilation out.
def ofSettings (s : Settings) (mayCompile : Bool) : ActionSettings where
  compileExpressions := s.compileExpressions && mayCompile
  minCountToCompile := s.minCountToCompile
  maxTemporaryColumns := s.maxTemporaryColumns
  maxTemporaryNonConstColumns := s.maxTemporaryNonConstColumns
  shortCircuit := s.shortCircuit

def noteText (a : ActionSettings) : String :=
  let limits :=
    Settings.limitsText a.minCountToCompile a.maxTemporaryColumns a.maxTemporaryNonConstColumns a.shortCircuit
  s!"ExpressionActionsSettings \x7b can_compile_expressions: {a.compileExpressions}, {limits} \x7d"

end ActionSettings

-- A context knows the status of its query by the query's id, and a callback by its name.
structure Context where
  settings : Settings := {}
  query : Option String := none
  callback : Option String := none
  deriving DecidableEq, Repr, Inhabited

structure Snapshot where
  actions : ActionSettings
  query : Option String
  callback : Option String
  splitsChains : Bool
  deriving DecidableEq, Repr

namespace Snapshot

def noteText (s : Snapshot) : String :=
  let query := match s.query with | none => "None" | some id => s!"Some({Text.quoted id})"
  s!"BuildPipelineSettings \x7b actions_settings: {s.actions.noteText}, process_list_element: {query}, " ++
    s!"progress_callback: {s.callback.isSome}, " ++
    s!"enable_multiple_filters_transforms_for_and_chain: {s.splitsChains} \x7d"

private def differenceNote (s : Settings) : List Note :=
  match s.splitFilterChain with
  | some split =>
    if split = s.mergeFilters then []
    else [⟨.warn,s!"query_plan_split_filter_and_chain={split} differs from query_plan_merge_filters={s.mergeFilters}"⟩]
  | none => []

-- Settings that do not go together have no snapshot, wherever they came from.
def ofContext (c : Context) : Noted SettingsError Snapshot := do
  c.settings.validate
  for n in differenceNote c.settings do .note n
  let snapshot : Snapshot := {
    actions := .ofSettings c.settings true
    query := c.query
    callback := c.callback
    splitsChains := c.settings.splitsChains }
  .note ⟨.debug,s!"Derived pipeline settings: {snapshot.noteText}"⟩
  return snapshot

end Snapshot

-- The running queries by their ids.
abbrev ProcessList := List QueryStatus

namespace ProcessList

def get? (l : ProcessList) (id : String) : Option QueryStatus := l.find? (·.id = id)

-- The list with an entry for the query, a new one if there is none.
def register (l : ProcessList) (id : String) : ProcessList := if (get? l id).isSome then l else l ++ [⟨id,false,{}⟩]

def modify (l : ProcessList) (id : String) (f : QueryStatus → QueryStatus) : ProcessList :=
  l.map fun s => if s.id = id then f s else s

end ProcessList

-- A context with everything its handles lead to. `calls` are the calls of callbacks so far.
structure Execution where
  context : Context := {}
  processes : ProcessList := []
  snapshots : List Snapshot := []
  calls : List (String × QueryProgress) := []
  deriving Inhabited

namespace Execution

def withSettings (x : Execution) (s : Settings) : Execution := { x with context := { x.context with settings := s } }

-- A new context keeps the settings only.
def renewContext (x : Execution) : Execution := { x with context := { settings := x.context.settings } }

def attachStatus (x : Execution) (id : String) : Execution :=
  { x with context := { x.context with query := some id }, processes := x.processes.register id }

def attachCallback (x : Execution) (name : String) : Execution :=
  { x with context := { x.context with callback := some name } }

-- The status of a query, or of the context's query.
def status? (x : Execution) (id : Option String) : Option QueryStatus :=
  (id.or x.context.query).bind x.processes.get?

private def update (x : Execution) (id : String) (f : QueryStatus → QueryStatus) : Execution :=
  { x with processes := x.processes.modify id f }

def cancel (x : Execution) (id : String) : Execution := x.update id fun s => { s with cancelled := true }

-- Only the first request leaves a note.
def cancelNotes (s : QueryStatus) : List Note :=
  if s.cancelled then [] else [⟨.debug,s!"Cancellation requested for query '{s.id}'"⟩]

def addProgress (x : Execution) (id : String) (p : QueryProgress) : Execution :=
  x.update id fun s => { s with progress := s.progress.add p }

def call (x : Execution) (callback : String) (p : QueryProgress) : Execution :=
  { x with calls := x.calls ++ [(callback,p)] }

-- Progress goes to the status and to the callback that the snapshot holds.
def report (x : Execution) (s : Snapshot) (p : QueryProgress) : Execution :=
  let x := match s.query with | some id => x.addProgress id p | none => x
  match s.callback with | some name => x.call name p | none => x

def keepSnapshot (x : Execution) (s : Snapshot) : Execution := { x with snapshots := x.snapshots ++ [s] }

def contextText (x : Execution) : String :=
  let status := match x.status? none with | none => "None" | some s => s!"Some({s.noteText})"
  s!"ExecutionContext \x7b settings: {x.context.settings.noteText}, process_list_element: {status}, " ++
    s!"progress_callback: {x.context.callback.isSome} \x7d"

end Execution

end JoinTree
