import JoinTree.Clause

namespace JoinTree

open Sql

-- The words of one join that were taken out of a text before it was read.
structure JoinHint where
  locality : Option Locality := none
  strictness : Option Strictness := none
  paste : Bool := false
  deriving DecidableEq, Repr, Inhabited

namespace JoinHint

def isEmpty (h : JoinHint) : Bool := h.locality.isNone && h.strictness.isNone && !h.paste

-- Two different words for the strictness contradict each other.
def withStrictness (h : JoinHint) (s : Strictness) : Except JoinFault JoinHint :=
  match h.strictness with
  | some before => if before = s then .ok h else .error (.strictnessConflict before s)
  | none => .ok { h with strictness := some s }

def applyLocality (h : JoinHint) (c : JoinClause) : Except JoinFault JoinClause :=
  match h.locality with
  | none => .ok c
  | some l =>
    if c.locality ≠ .unspecified && c.locality ≠ l then .error (.localityConflict c.locality l)
    else .ok { c with locality := l }

def applyStrictness (h : JoinHint) (c : JoinClause) : Except JoinFault JoinClause :=
  match h.strictness with
  | none => .ok c
  | some s =>
    if c.strictness ≠ .unspecified && c.strictness ≠ s then .error (.strictnessConflict c.strictness s)
    else .ok { c with strictness := s }

def applyPaste (h : JoinHint) (c : JoinClause) : Except JoinFault JoinClause :=
  if !h.paste then .ok c
  else if c.kind ≠ .cross then .error (.pasteWith c.kind)
  else .ok { c with kind := .paste }

def run (c : JoinClause) : List (JoinClause → Except JoinFault JoinClause) → JoinClause × Option JoinFault
  | [] => (c, none)
  | step :: steps =>
    match step c with
    | .ok c => run c steps
    | .error fault => (c, some fault)

-- The clause with the words put back as far as they fit, and the first conflict. What was put back before a conflict
-- stays.
def put (h : JoinHint) (c : JoinClause) : JoinClause × Option JoinFault :=
  run c [h.applyLocality, h.applyStrictness, h.applyPaste]

def apply (h : JoinHint) (c : JoinClause) : Except JoinFault JoinClause :=
  match h.put c with
  | (c, none) => .ok c
  | (_, some fault) => .error fault

private def valueText (text : String) : String := s!"Some({text})"

private def localityName : Locality → String
  | .unspecified => "Unspecified" | .global => "Global" | .perShard => "Local"

private def strictnessName : Strictness → String
  | .unspecified => "Unspecified" | .all => "All" | .any => "Any" | .asof => "Asof" | .semi => "Semi" | .anti => "Anti"

-- The hint as notes show it.
def noteText (h : JoinHint) : String :=
  let locality := (h.locality.map fun l => valueText (localityName l)).getD "None"
  let strictness := (h.strictness.map fun s => valueText (strictnessName s)).getD "None"
  s!"JoinKeywordHint \x7b locality: {locality}, strictness: {strictness}, paste: {h.paste} \x7d"

end JoinHint

end JoinTree
