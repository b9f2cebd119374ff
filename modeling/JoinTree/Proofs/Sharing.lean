import JoinTree.Proofs.Guarding

/-!
Snapshots and the handles that they share with their context. Main statement: in a run of any operations, each snapshot keeps the
settings and the handles of the moment it was taken; the entry of a query adds up what was reported through the snapshots that
hold it and what was added to it; a callback gets what was reported through the snapshots that hold it, in order; and an entry
is cancelled from the first request on.
-/

namespace JoinTree

-- What can be done with a context, with the snapshots that were taken of it, and with the entries of the process list.
inductive Operation where
  | set (name value : String)
  | attachStatus (id : String)
  | attachCallback (name : String)
  | takeSnapshot
  | report (index : Nat) (p : QueryProgress)
  | addProgress (id : String) (p : QueryProgress)
  | cancel (id : String)
  deriving DecidableEq, Repr

attribute [ext] QueryProgress

namespace QueryProgress

theorem add_assoc (a b c : QueryProgress) : (a.add b).add c = a.add (b.add c) :=
  QueryProgress.ext (UInt64.add_assoc ..) (UInt64.add_assoc ..) (UInt64.add_assoc ..)

theorem add_comm (a b : QueryProgress) : a.add b = b.add a :=
  QueryProgress.ext (UInt64.add_comm ..) (UInt64.add_comm ..) (UInt64.add_comm ..)

theorem zero_add (a : QueryProgress) : add {} a = a :=
  QueryProgress.ext (UInt64.zero_add _) (UInt64.zero_add _) (UInt64.zero_add _)

theorem add_zero (a : QueryProgress) : a.add {} = a :=
  QueryProgress.ext (UInt64.add_zero _) (UInt64.add_zero _) (UInt64.add_zero _)

def total (ps : List QueryProgress) : QueryProgress := ps.foldr add {}

theorem total_append (ps qs : List QueryProgress) : total (ps ++ qs) = (total ps).add (total qs) := by
  induction ps with
  | nil => exact (zero_add _).symm
  | cons p ps ih =>
    show p.add (total (ps ++ qs)) = (p.add (total ps)).add (total qs)
    rw [ih,add_assoc]

theorem total_perm (order : List.Perm ps qs) : total ps = total qs := by
  refine List.Perm.foldr_eq' order (fun a _ b _ c => ?_) ({} : QueryProgress)
  rw [← add_assoc,← add_assoc,add_comm a b]

def sumOf (counter : QueryProgress → UInt64) (ps : List QueryProgress) : Nat := ps.foldr (fun p n => (counter p).toNat + n) 0

-- Each counter is the sum of the increments, but for what no counter of 64 bits holds.
structure IsSum (p : QueryProgress) (increments : List QueryProgress) : Prop where
  readRows : p.readRows.toNat = sumOf readRows increments % UInt64.size
  readBytes : p.readBytes.toNat = sumOf readBytes increments % UInt64.size
  totalRows : p.totalRows.toNat = sumOf totalRows increments % UInt64.size

-- Any counter whose value is added up with that of the increments.
theorem counter_total (counter : QueryProgress → UInt64) (zero : counter {} = 0)
    (add : ∀ a b, counter (a.add b) = counter a + counter b) (ps : List QueryProgress) :
    (counter (total ps)).toNat = sumOf counter ps % UInt64.size := by
  induction ps with
  | nil => rw [total,List.foldr_nil,zero]; rfl
  | cons p ps ih =>
    show (counter (p.add (total ps))).toNat = ((counter p).toNat + sumOf counter ps) % UInt64.size
    rw [add,UInt64.toNat_add,ih]
    exact Nat.add_mod_mod ..

theorem total_sum (ps : List QueryProgress) : (total ps).IsSum ps where
  readRows := counter_total readRows rfl (fun _ _ => rfl) ps
  readBytes := counter_total readBytes rfl (fun _ _ => rfl) ps
  totalRows := counter_total totalRows rfl (fun _ _ => rfl) ps

end QueryProgress

namespace QueryStatus

-- An entry after increments, and perhaps after a request to cancel it.
def after (e : QueryStatus) (cancelling : Bool) (ps : List QueryProgress) : QueryStatus :=
  { e with cancelled := e.cancelled || cancelling, progress := e.progress.add (.total ps) }

theorem after_nothing (e : QueryStatus) : e.after false [] = e := by
  simp [after,QueryProgress.total,QueryProgress.add_zero]

theorem after_after (e : QueryStatus) (c d : Bool) (ps qs : List QueryProgress) :
    (e.after c ps).after d qs = e.after (c || d) (ps ++ qs) := by
  simp [after,QueryProgress.total_append,QueryProgress.add_assoc,Bool.or_assoc]

theorem after_added (e : QueryStatus) (p : QueryProgress) : { e with progress := e.progress.add p } = e.after false [p] := by
  simp [after,QueryProgress.total,QueryProgress.add_zero]

theorem after_cancelled (e : QueryStatus) : { e with cancelled := true } = e.after true [] := by
  simp [after,QueryProgress.total,QueryProgress.add_zero]

end QueryStatus

namespace ProcessList

variable (l : ProcessList) (id k : String) (c : Bool) (ps : List QueryProgress)

-- Entries are found by their ids, also when others come in or change.

theorem get?_register :
    (l.register id).get? k = if id = k then some ((l.get? k).getD ⟨k,false,{}⟩) else l.get? k := by
  unfold register
  split
  · rename_i known
    split
    · rename_i same
      subst same
      obtain ⟨s,found⟩ := Option.isSome_iff_exists.mp known
      rw [found,Option.getD_some]
    · rfl
  · rename_i unknown
    have missing : l.get? id = none := Option.not_isSome_iff_eq_none.mp unknown
    unfold get? at missing ⊢
    rw [List.find?_append]
    split
    · rename_i same
      subst same
      rw [missing]
      simp
    · rename_i other
      simp [other]

theorem get?_after :
    (l.modify id (·.after c ps)).get? k = if id = k then (l.get? k).map (·.after c ps) else l.get? k := by
  have named (s : QueryStatus) : (if s.id = id then s.after c ps else s).id = s.id := by
    split <;> rfl
  unfold get? modify
  rw [List.find?_map,Function.comp_def]
  simp only [named]
  cases found : l.find? fun s => decide (s.id = k) with
  | none => simp
  | some s =>
    have same : s.id = k := by simpa using List.find?_some found
    subst same
    by_cases here : id = s.id
    · simp [here]
    · simp [here,Ne.symm here]

theorem known_register : ((l.register id).get? k).isSome ↔ (l.get? k).isSome ∨ id = k := by
  rw [get?_register]
  split <;> simp [*]

theorem known_after : ((l.modify id (·.after c ps)).get? k).isSome ↔ (l.get? k).isSome := by
  rw [get?_after]
  split <;> simp

-- The entry of a query, a new one if there is none.
def entry : QueryStatus := (l.get? id).getD ⟨id,false,{}⟩

theorem entry_register : (l.register id).entry k = l.entry k := by
  unfold entry
  rw [get?_register]
  split <;> rfl

-- A change of one entry, seen from any other as well.
theorem entry_after (known : (l.get? id).isSome) : (l.modify id (·.after c ps)).entry k =
    (l.entry k).after (id = k && c) (if id = k then ps else []) := by
  unfold entry
  rw [get?_after]
  by_cases same : id = k
  · subst same
    obtain ⟨s,found⟩ := Option.isSome_iff_exists.mp known
    simp [found]
  · simp [same,QueryStatus.after_nothing]

end ProcessList

namespace Execution

-- An entry is there from its first use on.
def enter (x : Execution) (id : String) : Execution := { x with processes := x.processes.register id }

-- What is refused changes nothing, nor does a report through a snapshot that was not taken.
def apply (x : Execution) : Operation → Execution
  | .set name value =>
    match x.context.settings.assign name value with
    | .ok s => x.withSettings s
    | .error _ => x
  | .attachStatus id => x.attachStatus id
  | .attachCallback name => x.attachCallback name
  | .takeSnapshot =>
    match (Snapshot.ofContext x.context).result with
    | .ok s => x.keepSnapshot s
    | .error _ => x
  | .report i p =>
    match x.snapshots[i]? with
    | some s => x.report s p
    | none => x
  | .addProgress id p => (x.enter id).addProgress id p
  | .cancel id => (x.enter id).cancel id

def run (x : Execution) (ops : List Operation) : Execution := ops.foldl apply x

-- What is seen of the operations of a run, each in the state that it meets.
def trace (seen : Execution → Operation → Option α) (x : Execution) : List Operation → List α
  | [] => []
  | op :: ops => (seen x op).toList ++ trace seen (x.apply op) ops

-- An increment that is reported through a snapshot with the given handle.
def reported? (handle : Snapshot → Option String) (name : String) (x : Execution) : Operation → Option QueryProgress
  | .report i p => if x.snapshots[i]?.bind handle = some name then some p else none
  | _ => none

-- An increment of an entry, whichever way it comes.
def increment? (id : String) (x : Execution) : Operation → Option QueryProgress
  | .addProgress k p => if k = id then some p else none
  | op => x.reported? Snapshot.query id op

def taken? (x : Execution) : Operation → Option Snapshot
  | .takeSnapshot =>
    match (Snapshot.ofContext x.context).result with
    | .ok s => some s
    | .error _ => none
  | _ => none

-- What a callback has received so far.
def received (x : Execution) (name : String) : List QueryProgress := (x.calls.filter (·.1 = name)).map (·.2)

end Execution

-- The entry that an operation is about.
def Operation.entry? : Operation → Option String
  | .attachStatus id | .addProgress id _ | .cancel id => some id
  | _ => none

namespace Execution

variable {x : Execution} {op : Operation} {ops : List Operation}

theorem trace_append (seen : Execution → Operation → Option α) (x : Execution) (ops ops' : List Operation) :
    trace seen x (ops ++ ops') = trace seen x ops ++ trace seen (x.run ops) ops' := by
  induction ops generalizing x with
  | nil => rfl
  | cons op ops ih =>
    rw [List.cons_append,trace,ih,trace,List.append_assoc]
    rfl

-- What was seen at some point of a trace was seen of an operation, in the state that the operations before it lead to.
theorem trace_split (seen : Execution → Operation → Option α) : (trace seen x ops)[i]? = some a ↔
    ∃ before op after, ops = before ++ op :: after ∧ (trace seen x before).length = i ∧ seen (x.run before) op = some a := by
  constructor
  · intro found
    induction ops generalizing x i with
    | nil => cases found
    | cons op ops ih =>
      rw [trace] at found
      cases first : seen x op with
      | none =>
        rw [first] at found
        obtain ⟨before,op',after,rfl,rfl,same⟩ := ih found
        exact ⟨op :: before,op',after,rfl,by rw [trace,first]; rfl,same⟩
      | some b =>
        rw [first] at found
        cases i with
        | zero => exact ⟨[],op,ops,rfl,rfl,first.trans found⟩
        | succ i =>
          obtain ⟨before,op',after,rfl,rfl,same⟩ := ih found
          exact ⟨op :: before,op',after,rfl,by rw [trace,first]; rfl,same⟩
  · rintro ⟨before,op,after,rfl,rfl,same⟩
    rw [trace_append,List.getElem?_append_right (Nat.le_refl _),Nat.sub_self,trace,same]
    rfl

-- A part of the state that grows, step by step, by what is seen of the step.
theorem run_trace (part : Execution → List α) {seen : Execution → Operation → Option α}
    (step : ∀ x op, part (x.apply op) = part x ++ (seen x op).toList) (x : Execution) (ops : List Operation) :
    part (x.run ops) = part x ++ trace seen x ops := by
  induction ops generalizing x with
  | nil => exact (List.append_nil _).symm
  | cons op ops ih =>
    show part ((x.apply op).run ops) = _
    rw [ih,step,trace,List.append_assoc]

-- A report leaves the context and the snapshots as they are.

@[simp] theorem report_context (x : Execution) (s : Snapshot) (p : QueryProgress) : (x.report s p).context = x.context := by
  obtain ⟨_,_ | _,_ | _,_⟩ := s <;> rfl

@[simp] theorem report_snapshots (x : Execution) (s : Snapshot) (p : QueryProgress) : (x.report s p).snapshots = x.snapshots := by
  obtain ⟨_,_ | _,_ | _,_⟩ := s <;> rfl

theorem report_processes (x : Execution) (s : Snapshot) (p : QueryProgress) : (x.report s p).processes =
    match s.query with
    | some id => x.processes.modify id (·.after false [p])
    | none => x.processes := by
  simp only [← QueryStatus.after_added]
  obtain ⟨_,_ | _,_ | _,_⟩ := s <;> rfl

theorem report_calls (x : Execution) (s : Snapshot) (p : QueryProgress) :
    (x.report s p).calls = x.calls ++ (s.callback.map (·,p)).toList := by
  obtain ⟨_,_ | _,_ | _,_⟩ := s <;> simp [report,call] <;> rfl

theorem report_received (x : Execution) (s : Snapshot) (p : QueryProgress) (name : String) :
    (x.report s p).received name = x.received name ++ (if s.callback = some name then some p else none).toList := by
  rw [received,report_calls,List.filter_append,List.map_append]
  cases s.callback with
  | none => rfl
  | some called => by_cases same : called = name <;> simp [received,same]

-- What a step does to the list of snapshots and to what a callback has received.

theorem snapshots_apply (x : Execution) (op : Operation) : (x.apply op).snapshots = x.snapshots ++ (x.taken? op).toList := by
  cases op with
  | set name value =>
    simp only [apply]
    split <;> simp [withSettings,taken?]
  | takeSnapshot =>
    simp only [apply,taken?]
    split <;> simp [keepSnapshot]
  | report i p =>
    simp only [apply]
    split <;> simp [taken?]
  | attachStatus | attachCallback | addProgress | cancel => exact (List.append_nil _).symm

theorem received_apply (name : String) (x : Execution) (op : Operation) :
    (x.apply op).received name = x.received name ++ (x.reported? Snapshot.callback name op).toList := by
  cases op with
  | set =>
    simp only [apply]
    split <;> exact (List.append_nil _).symm
  | takeSnapshot =>
    simp only [apply]
    split <;> exact (List.append_nil _).symm
  | report i p =>
    simp only [apply,reported?]
    cases x.snapshots[i]? with
    | none => exact (List.append_nil _).symm
    | some s =>
      rw [Option.bind_some]
      exact report_received x s p name
  | attachStatus | attachCallback | addProgress | cancel => exact (List.append_nil _).symm

theorem taken?_iff {s : Snapshot} : x.taken? op = some s ↔ op = .takeSnapshot ∧ (Snapshot.ofContext x.context).result = .ok s := by
  cases op with
  | takeSnapshot =>
    simp only [taken?]
    cases (Snapshot.ofContext x.context).result <;> simp
  | _ => simp [taken?]

-- What a step does to the process list.
theorem processes_apply (x : Execution) (op : Operation) : (x.apply op).processes =
    match op with
    | .attachStatus id => x.processes.register id
    | .addProgress id p => (x.processes.register id).modify id (·.after false [p])
    | .cancel id => (x.processes.register id).modify id (·.after true [])
    | .report i p =>
      match x.snapshots[i]?.bind Snapshot.query with
      | some id => x.processes.modify id (·.after false [p])
      | none => x.processes
    | _ => x.processes := by
  cases op with
  | set name value =>
    simp only [apply]
    split <;> rfl
  | takeSnapshot =>
    simp only [apply]
    split <;> rfl
  | attachStatus | attachCallback => rfl
  | addProgress =>
    simp only [← QueryStatus.after_added]
    rfl
  | cancel =>
    simp only [← QueryStatus.after_cancelled]
    rfl
  | report i p =>
    simp only [apply]
    cases x.snapshots[i]? with
    | none => rfl
    | some s => exact report_processes x s p

theorem known_apply (x : Execution) (op : Operation) (id : String) :
    ((x.apply op).processes.get? id).isSome ↔ (x.processes.get? id).isSome ∨ op.entry? = some id := by
  rw [processes_apply]
  cases op with
  | set | takeSnapshot | attachCallback => simp [Operation.entry?]
  | attachStatus => simp [Operation.entry?,ProcessList.known_register]
  | addProgress | cancel => simp [Operation.entry?,ProcessList.known_after,ProcessList.known_register]
  | report =>
    dsimp only
    split <;> simp [Operation.entry?,ProcessList.known_after]

theorem known_run (x : Execution) (ops : List Operation) (id : String) :
    ((x.run ops).processes.get? id).isSome ↔ (x.processes.get? id).isSome ∨ ∃ op ∈ ops, op.entry? = some id := by
  induction ops generalizing x with
  | nil => simp [run]
  | cons op ops ih =>
    show (((x.apply op).run ops).processes.get? id).isSome ↔ _
    rw [ih,known_apply,or_assoc]
    simp only [List.mem_cons,exists_eq_or_imp]

-- A query that the context holds after a step was held before it or is attached by it.
theorem query_apply {id : String} (held : (x.apply op).context.query = some id) : x.context.query = some id ∨ op.entry? = some id := by
  cases op with
  | set name value =>
    simp only [apply] at held
    split at held <;> exact .inl held
  | takeSnapshot =>
    simp only [apply] at held
    split at held <;> exact .inl held
  | report i p =>
    simp only [apply] at held
    split at held
    · exact .inl ((congrArg Context.query (report_context ..)).symm.trans held)
    · exact .inl held
  | attachStatus => exact .inr held
  | attachCallback | addProgress | cancel => exact .inl held

-- Every handle leads to an entry.
structure Registered (x : Execution) : Prop where
  context : ∀ id, x.context.query = some id → (x.processes.get? id).isSome
  snapshots : ∀ s ∈ x.snapshots, ∀ id, s.query = some id → (x.processes.get? id).isSome

-- No entry ever leaves the list, and only what attaches an entry makes the context hold it.
theorem Registered.apply (registered : x.Registered) (op : Operation) : (x.apply op).Registered where
  context id held := (known_apply ..).mpr ((query_apply held).imp_left (registered.context id))
  snapshots s here id held := by
    refine (known_apply ..).mpr (.inl ?_)
    rw [snapshots_apply,List.mem_append,Option.mem_toList] at here
    rcases here with old | new
    · exact registered.snapshots s old id held
    · obtain ⟨-,rfl⟩ := Snapshot.ofContext_iff.mp (taken?_iff.mp new).2
      exact registered.context id held

theorem Registered.run (registered : x.Registered) (ops : List Operation) : (x.run ops).Registered := by
  induction ops generalizing x with
  | nil => exact registered
  | cons op ops ih => exact ih (registered.apply op)

end Execution

namespace Execution

variable {x : Execution}

-- What a step does to an entry: nothing, unless it cancels this one, or adds to this one.
theorem entry_apply (registered : x.Registered) (op : Operation) (id : String) :
    (x.apply op).processes.entry id = (x.processes.entry id).after (op = .cancel id) (x.increment? id op).toList := by
  rw [processes_apply]
  cases op with
  | set | takeSnapshot | attachCallback => exact (QueryStatus.after_nothing _).symm
  | attachStatus k => exact (ProcessList.entry_register ..).trans (QueryStatus.after_nothing _).symm
  | report i p =>
    dsimp only
    cases held : x.snapshots[i]?.bind Snapshot.query with
    | none => simp [increment?,reported?,held,QueryStatus.after_nothing]
    | some k =>
      obtain ⟨s,taken,handle⟩ := Option.bind_eq_some_iff.mp held
      have known : (x.processes.get? k).isSome := registered.snapshots s (List.mem_of_getElem? taken) k handle
      refine (ProcessList.entry_after _ _ _ _ _ known).trans ?_
      by_cases same : k = id <;> simp [increment?,reported?,held,same]
  | addProgress k p =>
    have known : ((x.processes.register k).get? k).isSome := (ProcessList.known_register ..).mpr (.inr rfl)
    rw [ProcessList.entry_after _ _ _ _ _ known,ProcessList.entry_register]
    by_cases same : k = id <;> simp [increment?,same]
  | cancel k =>
    have known : ((x.processes.register k).get? k).isSome := (ProcessList.known_register ..).mpr (.inr rfl)
    rw [ProcessList.entry_after _ _ _ _ _ known,ProcessList.entry_register]
    by_cases same : k = id <;> simp [increment?,reported?,same]

-- By induction on the operations: what is reported through a snapshot reaches the entry because every handle leads to one.
theorem entry_run (registered : x.Registered) (ops : List Operation) (id : String) :
    (x.run ops).processes.entry id = (x.processes.entry id).after (.cancel id ∈ ops) (trace (increment? id) x ops) := by
  induction ops generalizing x with
  | nil => exact (QueryStatus.after_nothing _).symm
  | cons op ops ih =>
    show ((x.apply op).run ops).processes.entry id = _
    rw [ih (registered.apply op),entry_apply registered,QueryStatus.after_after,trace]
    congr 1
    simp [List.mem_cons,eq_comm]

-- The snapshots of a run are those that were taken in it, each of the context as it was then.
theorem snapshots_run (s : Snapshot) (unused : x.snapshots = []) : (x.run ops).snapshots[i]? = some s ↔
    ∃ before after, ops = before ++ .takeSnapshot :: after ∧ (x.run before).snapshots.length = i ∧
      (Snapshot.ofContext (x.run before).context).result = .ok s := by
  have all (ops : List Operation) : (x.run ops).snapshots = x.trace taken? ops := by
    rw [run_trace (·.snapshots) snapshots_apply,unused,List.nil_append]
  simp only [all,trace_split,taken?_iff]
  constructor
  · rintro ⟨before,op,after,rfl,rfl,rfl,taken⟩
    exact ⟨before,after,rfl,rfl,taken⟩
  · rintro ⟨before,after,rfl,rfl,taken⟩
    exact ⟨before,.takeSnapshot,after,rfl,rfl,rfl,taken⟩

-- Snapshots are apart from the settings of their context, and share its handles.
theorem run_shares (settings : Settings) (ops : List Operation) :
    let start : Execution := { context := { settings } }
    let x := start.run ops
    (∀ i s, x.snapshots[i]? = some s ↔ ∃ before after, ops = before ++ .takeSnapshot :: after ∧
      (start.run before).snapshots.length = i ∧
      let c := (start.run before).context
      c.settings.validate = .ok () ∧ s = ⟨.ofSettings c.settings true,c.query,c.callback,c.settings.splitsChains⟩) ∧
    (∀ id, (x.processes.get? id).isSome ↔ ∃ op ∈ ops, op.entry? = some id) ∧
    (∀ s ∈ x.snapshots, ∀ id, s.query = some id → (x.processes.get? id).isSome) ∧
    (∀ id entry, x.processes.get? id = some entry →
      (∀ order, order.Perm (start.trace (increment? id) ops) → entry.progress.IsSum order) ∧
      entry.checkCancelled = if .cancel id ∈ ops then .error (.cancelled id) else .ok ()) ∧
    ∀ name, x.received name = start.trace (reported? Snapshot.callback name) ops := by
  intro start x
  have registered : start.Registered := ⟨by simp [start],by simp [start]⟩
  refine ⟨fun i s => ?_,fun id => ?_,(registered.run ops).snapshots,fun id entry found => ?_,fun name => ?_⟩
  · simp only [← Snapshot.ofContext_iff]
    exact snapshots_run s rfl
  · simpa [start,ProcessList.get?] using known_run start ops id
  · have reached : entry = QueryStatus.after ⟨id,false,{}⟩ (.cancel id ∈ ops) (start.trace (increment? id) ops) := by
      have here : x.processes.entry id = entry := by rw [ProcessList.entry,found,Option.getD_some]
      exact here.symm.trans (entry_run registered ops id)
    subst reached
    refine ⟨fun order same => ?_,?_⟩
    · rw [QueryStatus.after,QueryProgress.zero_add,← QueryProgress.total_perm same]
      exact QueryProgress.total_sum order
    · simp [QueryStatus.after,QueryStatus.checkCancelled]
  · exact (run_trace (·.received name) (received_apply name) start ops).trans (List.nil_append _)

-- Two snapshots hold the entry `a` and the callback `f`, before and after a change of the settings; a third one is taken once
-- both are replaced. One request of two is refused, and the rows that were read come to one more than a counter holds.
theorem run_shares_replaced :
    let most : QueryProgress := { readRows := 18446744073709551615,readBytes := 7 }
    let one : QueryProgress := { readRows := 1,totalRows := 5 }
    let ops : List Operation := [.attachStatus "a",.attachCallback "f",.takeSnapshot,.set "query_plan_merge_filters" "0",
      .set "max_temporary_columns" "few",.takeSnapshot,.attachStatus "b",.attachCallback "g",.takeSnapshot,.report 1 most,
      .addProgress "a" one,.cancel "a",.report 2 one,.report 0 {}]
    let x := ({} : Execution).run ops
    (x.snapshots.map fun s => (s.query,s.callback,s.splitsChains)) =
        [(some "a",some "f",true),(some "a",some "f",false),(some "b",some "g",false)] ∧
      x.processes = [⟨"a",true,⟨0,7,5⟩⟩,⟨"b",false,one⟩] ∧ QueryProgress.IsSum ⟨0,7,5⟩ [{},one,most] ∧
      QueryStatus.checkCancelled ⟨"a",true,⟨0,7,5⟩⟩ = .error (.cancelled "a") ∧
      QueryStatus.checkCancelled ⟨"b",false,one⟩ = .ok () ∧ x.received "f" = [most,{}] ∧ x.received "g" = [one] := by
  intro most one ops x
  subst most one
  obtain ⟨-,-,-,entries,received⟩ := run_shares {} ops
  obtain ⟨sums,cancelled⟩ := entries "a" ⟨"a",true,⟨0,7,5⟩⟩ rfl
  have reversed := sums (trace (increment? "a") {} ops).reverse (List.reverse_perm _)
  exact ⟨rfl,rfl,reversed,cancelled,(entries "b" _ rfl).2,received "f",received "g"⟩

end Execution

end JoinTree
