import JoinTree.Proofs.Numeral
import JoinTree.Proofs.Outcome
import JoinTree.Settings.Error

/-!
Settings that are read and changed by their names. Main statement: a request changes the setting that it names and no other,
or nothing at all if it is refused; requests for different settings can be exchanged; and what all settings show turns any
table into the one that shows it.
-/

namespace JoinTree

theorem Text.trim_numeral (n : Nat) : trim (toString n) = toString n := by
  rw [trim,Nat.toString_eq_repr,Nat.toList_repr]
  exact congrArg String.ofList (Numeral.ofNat n).trimChars_digits

theorem wordOf?_toString (n : UInt64) : wordOf? (toString n.toNat) = some n := by
  have bound : n.toNat < 1 <<< 64 := n.toNat_lt
  rw [wordOf?,Nat.toString_eq_repr,Nat.toList_repr,Text.unsigned64?_natural (Text.natural?_toDigits _),if_pos bound,
    Option.map_some,UInt64.ofNat_toNat]

namespace Setting

def names : List String := all.map name

theorem ofName?_iff : ofName? s = some k ↔ k.name = s := by
  constructor
  · intro found
    simpa using List.find?_some found
  · rintro rfl
    cases k <;> rfl

theorem name_injective {k m : Setting} (same : k.name = m.name) : k = m :=
  Option.some.inj ((ofName?_iff.mpr same).symm.trans (ofName?_iff.mpr rfl))

theorem name_mem (k : Setting) : k.name ∈ names := List.mem_map_of_mem (mem_all k)

theorem exists_settings (known : ∀ n ∈ ns, n ∈ names) : ∃ ks : List Setting, ks.map name = ns := by
  induction ns with
  | nil => exact ⟨[],rfl⟩
  | cons n ns ih =>
    obtain ⟨first,later⟩ := List.forall_mem_cons.mp known
    obtain ⟨k,_,rfl⟩ := List.mem_map.mp first
    obtain ⟨ks,rfl⟩ := ih later
    exact ⟨k :: ks,rfl⟩

-- What a setting holds, and how a text stands for it.

def Value : Setting → Type
  | compileExpressions | mergeFilters => Bool
  | minCountToCompile | maxTemporaryColumns | maxTemporaryNonConstColumns => UInt64
  | shortCircuit => ShortCircuit
  | splitFilterChain => Option Bool

def read? : (k : Setting) → String → Option k.Value
  | compileExpressions,s | mergeFilters,s => boolOf? s
  | minCountToCompile,s | maxTemporaryColumns,s | maxTemporaryNonConstColumns,s => wordOf? s
  | shortCircuit,s => ShortCircuit.ofText? (Text.lower s)
  | splitFilterChain,s => if Text.upperAscii s = "DEFAULT" then some none else (boolOf? s).map some

def text : (k : Setting) → k.Value → String
  | compileExpressions,b | mergeFilters,b => toString (α := Bool) b
  | minCountToCompile,n | maxTemporaryColumns,n | maxTemporaryNonConstColumns,n => toString (UInt64.toNat n)
  | shortCircuit,p => ShortCircuit.text p
  | splitFilterChain,b => (Option.map (toString (α := Bool)) b).getD "default"

def expected : Setting → ExpectedValue
  | compileExpressions | mergeFilters | splitFilterChain => .boolean
  | minCountToCompile | maxTemporaryColumns | maxTemporaryNonConstColumns => .unsigned
  | shortCircuit => .shortCircuit

theorem read?_text (k : Setting) (x : k.Value) : k.read? (Text.trim (k.text x)) = some x := by
  cases k with
  | compileExpressions | mergeFilters | shortCircuit => cases x <;> rfl
  | splitFilterChain => rcases x with _ | _ | _ <;> rfl
  | minCountToCompile | maxTemporaryColumns | maxTemporaryNonConstColumns =>
    simp only [read?,text,Text.trim_numeral]
    exact wordOf?_toString x

end Setting

namespace Settings

def value (s : Settings) : (k : Setting) → k.Value
  | .compileExpressions => s.compileExpressions
  | .minCountToCompile => s.minCountToCompile
  | .maxTemporaryColumns => s.maxTemporaryColumns
  | .maxTemporaryNonConstColumns => s.maxTemporaryNonConstColumns
  | .shortCircuit => s.shortCircuit
  | .mergeFilters => s.mergeFilters
  | .splitFilterChain => s.splitFilterChain

def put (s : Settings) : (k : Setting) → k.Value → Settings
  | .compileExpressions,b => { s with compileExpressions := b }
  | .minCountToCompile,n => { s with minCountToCompile := n }
  | .maxTemporaryColumns,n => { s with maxTemporaryColumns := n }
  | .maxTemporaryNonConstColumns,n => { s with maxTemporaryNonConstColumns := n }
  | .shortCircuit,p => { s with shortCircuit := p }
  | .mergeFilters,b => { s with mergeFilters := b }
  | .splitFilterChain,b => { s with splitFilterChain := b }

-- What is put is there, and putting it again changes nothing. Other settings stay, and can be put before.

theorem value_put (s : Settings) (k : Setting) (x : k.Value) : (s.put k x).value k = x := by cases k <;> rfl

theorem put_value (s : Settings) (k : Setting) : s.put k (s.value k) = s := by cases k <;> rfl

theorem put_put (s : Settings) (k : Setting) (x y : k.Value) : (s.put k x).put k y = s.put k y := by cases k <;> rfl

theorem value_put_other (s : Settings) (x : k.Value) (apart : m ≠ k) : (s.put k x).value m = s.value m := by
  cases k <;> cases m <;> first | rfl | exact absurd rfl apart

theorem put_comm (s : Settings) (x : k.Value) (y : m.Value) (apart : m ≠ k) : (s.put k x).put m y = (s.put m y).put k x := by
  cases k <;> cases m <;> first | rfl | exact absurd rfl apart

theorem eq_of_values {s t : Settings} (same : ∀ k, s.value k = t.value k) : s = t := by
  obtain ⟨_,_,_,_,_,_,_⟩ := s
  obtain ⟨_,_,_,_,_,_,_⟩ := t
  cases same .compileExpressions
  cases same .minCountToCompile
  cases same .maxTemporaryColumns
  cases same .maxTemporaryNonConstColumns
  cases same .shortCircuit
  cases same .mergeFilters
  cases same .splitFilterChain
  rfl

-- A table that takes over some settings of another one.
theorem value_taken (s t : Settings) (ks : List Setting) (m : Setting) :
    (ks.foldl (fun t k => t.put k (s.value k)) t).value m = if m ∈ ks then s.value m else t.value m := by
  induction ks generalizing t with
  | nil => rfl
  | cons k ks ih =>
    rw [List.foldl_cons,ih]
    by_cases later : m ∈ ks
    · simp [later]
    · by_cases here : m = k
      · subst here
        simp [later,value_put]
      · simp [later,here,value_put_other]

-- Reading and changing by name come down to these.

theorem get_text (s : Settings) (k : Setting) : s.get k = k.text (s.value k) := by cases k <;> rfl

theorem set_read (s : Settings) (k : Setting) (v : String) :
    s.set k v = match k.read? v with | some x => .ok (s.put k x) | none => .error k.expected := by
  unfold set Setting.read?
  cases k with dsimp only
  | compileExpressions | mergeFilters => cases boolOf? v <;> rfl
  | minCountToCompile | maxTemporaryColumns | maxTemporaryNonConstColumns => cases wordOf? v <;> rfl
  | shortCircuit => cases ShortCircuit.ofText? (Text.lower v) <;> rfl
  | splitFilterChain =>
    split
    · rfl
    · cases boolOf? v <;> rfl

-- Which text is accepted does not depend on the table.
theorem assign_ok {s t : Settings} : s.assign name v = .ok t ↔
    ∃ (k : Setting) (x : k.Value), k.name = name ∧ k.read? (Text.trim v) = some x ∧ s.put k x = t := by
  unfold assign
  constructor
  · intro accepted
    split at accepted
    · cases accepted
    · rename_i k known
      rw [mapError_ok,set_read] at accepted
      split at accepted
      · rename_i x found
        cases accepted
        exact ⟨k,x,Setting.ofName?_iff.mp known,found,rfl⟩
      · cases accepted
  · rintro ⟨k,x,rfl,found,rfl⟩
    rw [Setting.ofName?_iff.mpr rfl]
    simp only [mapError_ok,set_read,found]

theorem getNamed?_name (s : Settings) (k : Setting) : s.getNamed? k.name = some (s.get k) := by
  rw [getNamed?,Setting.ofName?_iff.mpr rfl,Option.map_some]

-- What another table shows for a setting can always be assigned.
theorem assign_get (s t : Settings) (k : Setting) : t.assign k.name (s.get k) = .ok (t.put k (s.value k)) :=
  assign_ok.mpr ⟨k,s.value k,rfl,by rw [get_text,Setting.read?_text],rfl⟩

theorem getNamed?_put (s : Settings) (x : k.Value) (apart : name ≠ k.name) : (s.put k x).getNamed? name = s.getNamed? name := by
  unfold getNamed?
  cases known : Setting.ofName? name with
  | none => rfl
  | some m =>
    have other : m ≠ k := by
      rintro rfl
      exact apart (Setting.ofName?_iff.mp known).symm
    rw [Option.map_some,Option.map_some,get_text,get_text,value_put_other s x other]

-- A request changes the table in place, once its value is read.
def request (name value : String) : ExceptT SettingsError (StateM Settings) Unit := do
  match Setting.ofName? name with
  | none => throw (.unknown name)
  | some k =>
    match k.read? (Text.trim value) with
    | none => throw (.invalidValue name (Text.trim value) k.expected)
    | some x => modify (·.put k x)

theorem request_run (s : Settings) (name value : String) : (request name value).run.run s =
    match s.assign name value with
    | .ok t => (.ok (),t)
    | .error fault => (.error fault,s) := by
  unfold request assign
  cases Setting.ofName? name with
  | none => rfl
  | some k =>
    simp only [set_read]
    cases k.read? (Text.trim value) <;> rfl

-- Some settings by name, with the texts that a table shows for them.
def readings (s : Settings) (names : List String) : List (String × String) :=
  names.filterMap fun n => (s.getNamed? n).map (n,·)

theorem readings_names (s : Settings) (ks : List Setting) :
    s.readings (ks.map Setting.name) = ks.map fun k => (k.name,s.get k) := by
  simp only [readings,List.filterMap_map,Function.comp_def,getNamed?_name,Option.map_some,List.filterMap_eq_map']

theorem assign_readings (s t : Settings) (ks : List Setting) :
    (s.readings (ks.map Setting.name)).foldlM (fun (t : Settings) r => t.assign r.1 r.2) t =
      .ok (ks.foldl (fun t k => t.put k (s.value k)) t) := by
  rw [readings_names]
  induction ks generalizing t with
  | nil => rfl
  | cons k ks ih =>
    rw [List.map_cons,List.foldlM_cons,assign_get]
    exact ih (t.put k (s.value k))

-- A request that is refused leaves the table as it was. One that is accepted names a setting, which reads back as itself; it
-- changes no other one, and nothing if it comes again. Requests for different settings have the same outcome in both orders.
-- What a table shows is accepted by every table, and makes it that table if it is all of its settings, in any order.
theorem assign_lawful (s : Settings) (name value : String) :
    (request name value).run.run s = (match s.assign name value with
      | .ok t => (.ok (),t)
      | .error fault => (.error fault,s)) ∧
    (∀ t, s.assign name value = .ok t →
      name ∈ Setting.names ∧
      (∀ other, other ≠ name → t.getNamed? other = s.getNamed? other) ∧
      t.assign name value = .ok t ∧
      (∃ shown, t.getNamed? name = some shown ∧ t.assign name shown = .ok t) ∧
      ∀ other value' both, other ≠ name →
        (t.assign other value' = .ok both ↔ ∃ t', s.assign other value' = .ok t' ∧ t'.assign name value = .ok both)) ∧
    (∀ n ∈ Setting.names, ∃ shown, s.getNamed? n = some shown ∧ s.assign n shown = .ok s) ∧
    ∀ names, names.Perm Setting.names → ∀ t : Settings,
      (s.readings names).foldlM (fun (t : Settings) r => t.assign r.1 r.2) t = .ok s := by
  refine ⟨request_run s name value,?_,?_,?_⟩
  · intro t accepted
    obtain ⟨k,x,rfl,found,rfl⟩ := assign_ok.mp accepted
    refine ⟨k.name_mem,fun other apart => getNamed?_put s x apart,?_,⟨_,getNamed?_name _ k,?_⟩,?_⟩
    · exact assign_ok.mpr ⟨k,x,rfl,found,put_put s k x x⟩
    · rw [assign_get,put_value]
    · intro other value' both apart
      rw [assign_ok]
      constructor
      · rintro ⟨m,y,rfl,found',rfl⟩
        have different : m ≠ k := fun same => apart (congrArg Setting.name same)
        exact ⟨s.put m y,assign_ok.mpr ⟨m,y,rfl,found',rfl⟩,assign_ok.mpr ⟨k,x,rfl,found,(put_comm s x y different).symm⟩⟩
      · rintro ⟨t',first,second⟩
        obtain ⟨m,y,rfl,found',rfl⟩ := assign_ok.mp first
        have different : m ≠ k := fun same => apart (congrArg Setting.name same)
        have behind : (s.put m y).assign k.name value = .ok ((s.put m y).put k x) := assign_ok.mpr ⟨k,x,rfl,found,rfl⟩
        rw [behind] at second
        cases second
        exact ⟨m,y,rfl,found',put_comm s x y different⟩
  · intro n known
    obtain ⟨k,_,rfl⟩ := List.mem_map.mp known
    exact ⟨s.get k,getNamed?_name s k,by rw [assign_get,put_value]⟩
  · intro names order t
    obtain ⟨ks,rfl⟩ := Setting.exists_settings fun n inside => order.subset inside
    have complete (k : Setting) : k ∈ ks := by
      obtain ⟨m,inside,same⟩ := List.mem_map.mp (order.symm.subset k.name_mem)
      rwa [← Setting.name_injective same]
    rw [assign_readings]
    refine congrArg Except.ok (eq_of_values fun k => ?_)
    rw [value_taken,if_pos (complete k)]

-- A limit with a sign, zeros and blanks, set beside a switch that goes back to its default; then all settings of the table,
-- the last one first, taken over by the defaults.
theorem assign_lawful_limit :
    let s : Settings := { minCountToCompile := 18446744073709551615, splitFilterChain := some false }
    let t : Settings := { s with maxTemporaryColumns := 7 }
    let u : Settings := { s with splitFilterChain := none }
    let both : Settings := { t with splitFilterChain := none }
    (request "max_temporary_columns" "18446744073709551616").run.run s =
        (.error (.invalidValue "max_temporary_columns" "18446744073709551616" .unsigned),s) ∧
      s.assign "max_temporary_columns" " +007\t" = .ok t ∧ t.getNamed? "query_plan_split_filter_and_chain" = some "false" ∧
      t.assign "query_plan_split_filter_and_chain" "Default" = .ok both ∧
      s.assign "query_plan_split_filter_and_chain" "Default" = .ok u ∧ u.assign "max_temporary_columns" " +007\t" = .ok both ∧
      "max_temporary_columns" ∈ Setting.names ∧ Setting.names.reverse.Perm Setting.names ∧
      (both.readings Setting.names.reverse).foldlM (fun (t : Settings) r => t.assign r.1 r.2) {} = .ok both := by
  intro s t u both
  have accepted : s.assign "max_temporary_columns" " +007\t" = .ok t := rfl
  have apart : "query_plan_split_filter_and_chain" ≠ "max_temporary_columns" := by decide
  have order : Setting.names.reverse.Perm Setting.names := List.reverse_perm _
  have fault : s.assign "max_temporary_columns" "18446744073709551616" =
      .error (.invalidValue "max_temporary_columns" "18446744073709551616" .unsigned) := rfl
  obtain ⟨refused,_⟩ := assign_lawful s "max_temporary_columns" "18446744073709551616"
  rw [fault] at refused
  obtain ⟨_,changed,_⟩ := assign_lawful s "max_temporary_columns" " +007\t"
  obtain ⟨known,others,_,_,exchanged⟩ := changed t accepted
  have later : t.assign "query_plan_split_filter_and_chain" "Default" = .ok both := rfl
  obtain ⟨t',first,second⟩ := (exchanged _ _ _ apart).mp later
  have same : s.assign "query_plan_split_filter_and_chain" "Default" = .ok u := rfl
  cases same.symm.trans first
  exact ⟨refused,accepted,others _ apart,later,same,second,known,order,(assign_lawful both "" "").2.2.2 _ order {}⟩

end Settings

end JoinTree
