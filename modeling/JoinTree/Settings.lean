import JoinTree.Text.Blank
import JoinTree.Text.Case
import JoinTree.Text.Digits

/-!
The settings of a query. Each has a name and a text, by which it can be read and changed one at a time.
-/

namespace JoinTree

-- How functions run whose later arguments may not be needed.
inductive ShortCircuit where
  | enable | forceEnable | disable
  deriving DecidableEq, Repr, Inhabited

namespace ShortCircuit

def text : ShortCircuit → String
  | enable => "enable" | forceEnable => "force_enable" | disable => "disable"

def ofText? (s : String) : Option ShortCircuit := [enable,forceEnable,disable].find? (·.text = s)

end ShortCircuit

structure Settings where
  compileExpressions : Bool := true
  minCountToCompile : UInt64 := 3
  -- A limit of 0 is none.
  maxTemporaryColumns : UInt64 := 0
  maxTemporaryNonConstColumns : UInt64 := 0
  shortCircuit : ShortCircuit := .enable
  mergeFilters : Bool := true
  -- Unless it is set, chains are split if filters are merged.
  splitFilterChain : Option Bool := none
  deriving DecidableEq, Repr, Inhabited

inductive Setting where
  | compileExpressions | minCountToCompile | maxTemporaryColumns | maxTemporaryNonConstColumns | shortCircuit
  | mergeFilters | splitFilterChain
  deriving DecidableEq, Repr

namespace Setting

def name : Setting → String
  | compileExpressions => "compile_expressions"
  | minCountToCompile => "min_count_to_compile_expression"
  | maxTemporaryColumns => "max_temporary_columns"
  | maxTemporaryNonConstColumns => "max_temporary_non_const_columns"
  | shortCircuit => "short_circuit_function_evaluation"
  | mergeFilters => "query_plan_merge_filters"
  | splitFilterChain => "query_plan_split_filter_and_chain"

def all : List Setting := [compileExpressions,minCountToCompile,maxTemporaryColumns,maxTemporaryNonConstColumns,
  shortCircuit,mergeFilters,splitFilterChain]

def ofName? (s : String) : Option Setting := all.find? (·.name = s)

theorem mem_all (k : Setting) : k ∈ all := by cases k <;> decide

end Setting

-- What a setting takes.
inductive ExpectedValue where
  | boolean | unsigned | shortCircuit
  deriving DecidableEq, Repr

def ExpectedValue.text : ExpectedValue → String
  | boolean => "a boolean (0, 1, true, false)" | unsigned => "an unsigned integer"
  | shortCircuit => "one of enable, force_enable, disable"

def boolOf? (s : String) : Option Bool :=
  let s := Text.lower s
  if s = "1" || s = "true" then some true else if s = "0" || s = "false" then some false else none

def wordOf? (s : String) : Option UInt64 := (Text.unsigned64? s.toList).map UInt64.ofNat

namespace Settings

def get (s : Settings) : Setting → String
  | .compileExpressions => toString s.compileExpressions
  | .minCountToCompile => toString s.minCountToCompile.toNat
  | .maxTemporaryColumns => toString s.maxTemporaryColumns.toNat
  | .maxTemporaryNonConstColumns => toString s.maxTemporaryNonConstColumns.toNat
  | .shortCircuit => s.shortCircuit.text
  | .mergeFilters => toString s.mergeFilters
  | .splitFilterChain => (s.splitFilterChain.map toString).getD "default"

-- The settings with the value that a text stands for, or what the setting takes instead.
def set (s : Settings) (k : Setting) (value : String) : Except ExpectedValue Settings :=
  let read (expected : ExpectedValue) (v : Option Settings) : Except ExpectedValue Settings :=
    match v with
    | some s => .ok s
    | none => .error expected
  match k with
  | .compileExpressions => read .boolean ((boolOf? value).map fun b => { s with compileExpressions := b })
  | .minCountToCompile => read .unsigned ((wordOf? value).map fun n => { s with minCountToCompile := n })
  | .maxTemporaryColumns => read .unsigned ((wordOf? value).map fun n => { s with maxTemporaryColumns := n })
  | .maxTemporaryNonConstColumns =>
    read .unsigned ((wordOf? value).map fun n => { s with maxTemporaryNonConstColumns := n })
  | .shortCircuit =>
    read .shortCircuit ((ShortCircuit.ofText? (Text.lower value)).map fun p => { s with shortCircuit := p })
  | .mergeFilters => read .boolean ((boolOf? value).map fun b => { s with mergeFilters := b })
  | .splitFilterChain =>
    if Text.upperAscii value = "DEFAULT" then .ok { s with splitFilterChain := none }
    else read .boolean ((boolOf? value).map fun b => { s with splitFilterChain := some b })

-- Whether a chain of conjuncts becomes one filter step for each.
def splitsChains (s : Settings) : Bool := s.splitFilterChain.getD s.mergeFilters

private def shortCircuitName : ShortCircuit → String
  | .enable => "Enable" | .forceEnable => "ForceEnable" | .disable => "Disable"

-- The fields that settings and a snapshot of them have in common, as notes show them.
def limitsText (minCount maxColumns maxNonConst : UInt64) (p : ShortCircuit) : String :=
  s!"min_count_to_compile_expression: {minCount.toNat}, max_temporary_columns: {maxColumns.toNat}, " ++
    s!"max_temporary_non_const_columns: {maxNonConst.toNat}, " ++
    s!"short_circuit_function_evaluation: {shortCircuitName p}"

def noteText (s : Settings) : String :=
  let split := match s.splitFilterChain with | none => "None" | some b => s!"Some({b})"
  let limits := limitsText s.minCountToCompile s.maxTemporaryColumns s.maxTemporaryNonConstColumns s.shortCircuit
  s!"Settings \x7b compile_expressions: {s.compileExpressions}, {limits}, " ++
    s!"query_plan_merge_filters: {s.mergeFilters}, query_plan_split_filter_and_chain: {split} \x7d"

end Settings

end JoinTree
