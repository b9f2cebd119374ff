import JoinTree.Proofs.Resolving
import JoinTree.Proofs.TreeEquality
import JoinTree.Tree.Edit

/-!
Where a resolution changes a tree. Main statement: it goes through the tables, entries of USING lists and names of
conditions in a fixed order, up to the first that it cannot bind. Identifiers in front of that have become columns, and
the rest of the tree is as it was.
-/

namespace JoinTree

namespace Node

-- A place in the list of nodes behind the first one.
def shifted : List Nat → List Nat
  | i :: p => (i + 1) :: p
  | [] => []

-- The identifiers of a condition that do not stand below a column, with what stands last in front.
mutual
def namePlaces : Node → List (List Nat)
  | identifier _ => [[]]
  | constant _ | column .. | table .. => []
  | function _ args => args.namePlaces.map (0 :: ·)
  | list nodes => namePlacesOf nodes
  | join _ l r e => namePlacesOption e ++ r.namePlaces.map (1 :: ·) ++ l.namePlaces.map (0 :: ·)
  | runtimeFilter _ c => c.namePlaces.map (0 :: ·)
def namePlacesOf : List Node → List (List Nat)
  | [] => []
  | n :: ns => (namePlacesOf ns).map shifted ++ n.namePlaces.map (0 :: ·)
def namePlacesOption : Option Node → List (List Nat)
  | none => []
  | some e => e.namePlaces.map (2 :: ·)
end

-- What of a join expression has to be bound: the entries of a USING list or the names of a condition.
def constraintPlaces : Option Node → List (List Nat)
  | none => []
  | some (list nodes) => (List.range nodes.length).map ([·])
  | some e => e.namePlaces

-- What a resolution comes by, in its order: the left side of a join, the right side, the join expression.
def stops : Node → List (List Nat)
  | join _ l r e => l.stops.map (0 :: ·) ++ r.stops.map (1 :: ·) ++ (constraintPlaces e).map (2 :: ·)
  | _ => [[]]

-- The identifiers at some places have become columns of their last parts, and every other place looks as before.
structure Replaced (places : List (List Nat)) (before after : List Nat → Option Node) : Prop where
  columns : ∀ p ∈ places, ∀ parts, before p = some (identifier parts) →
    ∃ source e, after p = some (column (Identifier.short parts) source e)
  others : ∀ p, (∀ q ∈ places, q <+: p → ∀ parts, before q ≠ some (identifier parts)) →
    (after p).map look = (before p).map look

-- The node at a place is the reason of a fault.
inductive FaultAt (c : Catalog) : Node → List Nat → AnalysisError → Prop where
  | unknown : c.columns? name = none → FaultAt c (table name asName) [] (.unknownTable name)
  | misplaced : n.isTableExpression = false → FaultAt c n [] (n.misplaced .tableSlot)
  | left : FaultAt c l p fault → FaultAt c (join spec l r e) (0 :: p) fault
  | right : (l.resolve c).outcome = .ok left → FaultAt c r p fault → FaultAt c (join spec l r e) (1 :: p) fault
  | entry : (l.resolve c).outcome = .ok left → (r.resolve c).outcome = .ok right → ns[i]? = some n →
      (bindUsingEntry left right n).fault = some fault → FaultAt c (join spec l r (some (list ns))) [2,i] fault
  | name : (l.resolve c).outcome = .ok left → (r.resolve c).outcome = .ok right → (∀ ns, e ≠ list ns) →
      e.at? p = some (identifier parts) → (left.merge right).resolve parts = .error fault →
      FaultAt c (join spec l r (some e)) (2 :: p) fault

-- A visit that goes through some places in their order. A fault ends it at one of them, which stays as it was.
def Goes (places : List (List Nat)) (before after : List Nat → Option Node) (reason : List Nat → AnalysisError → Prop) :
    Option AnalysisError → Prop
  | none => Replaced places before after
  | some fault => ∃ done p rest, places = done ++ p :: rest ∧ reason p fault ∧ after p = before p ∧ Replaced done before after

-- The nodes of a list of trees.
def within (ns : List Node) : List Nat → Option Node
  | [] => none
  | i :: p => ns[i]?.bind (at? · p)

theorem within_shifted (n : Node) (ns : List Node) (p : List Nat) : within (n :: ns) (shifted p) = within ns p := by
  cases p <;> rfl

theorem replaced_nothing (view : List Nat → Option Node) : Replaced [] view view := ⟨nofun,fun _ _ => rfl⟩

theorem prefix_shifted (p q : List Nat) (some : p ≠ []) : shifted p <+: shifted q ↔ p <+: q := by
  cases p with
  | nil => exact absurd rfl some
  | cons i p => cases q <;> simp [shifted]

theorem replaced_cons (places : List (List Nat)) (first : Replaced done n.at? n'.at?)
    (later : Replaced done' (within ns) (within ns'))
    (both : ∀ p, p ∈ places ↔ (∃ q ∈ done, 0 :: q = p) ∨ ∃ q ∈ done', shifted q = p) :
    Replaced places (within (n :: ns)) (within (n' :: ns')) := by
  constructor
  case columns =>
    intro p member parts here
    rcases (both p).mp member with ⟨q,inside,rfl⟩ | ⟨q,inside,rfl⟩
    · exact first.columns q inside parts here
    · rw [within_shifted] at here ⊢
      exact later.columns q inside parts here
  case others =>
    intro p free
    match p with
    | [] => rfl
    | 0 :: p =>
      refine first.others p fun q inside above parts => ?_
      exact free (0 :: q) ((both _).mpr (.inl ⟨q,inside,rfl⟩)) (by simpa using above) parts
    | (i + 1) :: p =>
      refine later.others (i :: p) fun q inside above parts here => ?_
      have some : q ≠ [] := by rintro rfl; cases here
      refine free (shifted q) ((both _).mpr (.inr ⟨q,inside,rfl⟩)) ((prefix_shifted q (i :: p) some).mpr above) parts ?_
      rwa [within_shifted]

-- The part that is visited second stays as it was if a fault ends the first visit.

section
variable {reason reason' why : List Nat → AnalysisError → Prop} {n n' : Node} {ns ns' : List Node}

theorem goes_ended (more : List (List Nat)) (first : Goes places n.at? n'.at? reason (some f))
    (mine : ∀ p, reason p f → why (0 :: p) f) : Goes (places.map (0 :: ·) ++ more) (within (n :: ns)) (within (n' :: ns)) why (some f) := by
  obtain ⟨done,p,rest,rfl,because,same,replaced⟩ := first
  refine ⟨done.map (0 :: ·),0 :: p,rest.map (0 :: ·) ++ more,by simp,mine p because,same,?_⟩
  exact replaced_cons _ replaced (replaced_nothing _) (by simp)

theorem goes_on (first : Replaced places n.at? n'.at?) (later : Goes places' (within ns) (within ns') reason fault)
    (others : ∀ p f, reason p f → why (shifted p) f) :
    Goes (places.map (0 :: ·) ++ places'.map shifted) (within (n :: ns)) (within (n' :: ns')) why fault := by
  cases fault with
  | none => exact replaced_cons _ first later (by simp)
  | some f =>
    obtain ⟨done,p,rest,rfl,because,same,replaced⟩ := later
    refine ⟨places.map (0 :: ·) ++ done.map shifted,shifted p,rest.map shifted,by simp,others p f because,?_,?_⟩
    · rwa [within_shifted,within_shifted]
    · exact replaced_cons _ first replaced (by simp)

theorem goes_single (goes : Goes places n.at? n'.at? reason fault) (mine : ∀ p f, reason p f → why (0 :: p) f) :
    Goes (places.map (0 :: ·)) (within [n]) (within [n']) why fault := by
  cases fault with
  | none => exact replaced_cons _ goes (replaced_nothing _) (by simp)
  | some f =>
    have ended : Goes (places.map (0 :: ·) ++ []) (within [n]) (within [n']) why (some f) := goes_ended [] goes fun p => mine p f
    rwa [List.append_nil] at ended

theorem goes_backward (first : Goes places' (within ns) (within ns') reason' fault')
    (later : fault' = none → Goes places n.at? n'.at? reason fault)
    (mine : ∀ p f, reason p f → why (0 :: p) f) (others : ∀ p f, reason' p f → why (shifted p) f) :
    Goes (places'.map shifted ++ places.map (0 :: ·)) (within (n :: ns)) (within ((if fault'.isSome then n else n') :: ns')) why
      (fault'.or fault) := by
  cases fault' with
  | some f =>
    obtain ⟨done,p,rest,rfl,because,same,replaced⟩ := first
    refine ⟨done.map shifted,shifted p,rest.map shifted ++ places.map (0 :: ·),by simp,others p f because,?_,?_⟩
    · rwa [within_shifted,within_shifted]
    · exact replaced_cons _ (replaced_nothing _) replaced (by simp)
  | none =>
    rw [Option.none_or]
    have later := later rfl
    cases fault with
    | none => exact replaced_cons _ later first (by simp [or_comm])
    | some f =>
      obtain ⟨done,p,rest,rfl,because,same,replaced⟩ := later
      refine ⟨places'.map shifted ++ done.map (0 :: ·),0 :: p,rest.map (0 :: ·),by simp,mine p f because,same,?_⟩
      exact replaced_cons _ replaced first (by simp [or_comm])

end

-- A node is changed where its children are.
theorem replaced_node {n n' : Node} (same : n'.look = n.look) (inner : n.type ≠ .identifier)
    (children : Replaced places (within n.children) (within n'.children)) : Replaced places n.at? n'.at? := by
  constructor
  case columns =>
    intro p member parts here
    cases p with
    | nil =>
      cases Option.some.inj here
      exact absurd rfl inner
    | cons i p => exact children.columns (i :: p) member parts here
  case others =>
    intro p free
    cases p with
    | nil => exact congrArg some same
    | cons i p =>
      refine children.others (i :: p) fun q inside above parts here => ?_
      cases q with
      | nil => cases here
      | cons j q => exact free (j :: q) inside above parts here

theorem goes_node {n n' : Node} (same : n'.look = n.look) (inner : n.type ≠ .identifier)
    (some : ∀ p ∈ places, p ≠ []) (children : Goes places (within n.children) (within n'.children) reason fault)
    (whole : ∀ i p f, reason (i :: p) f → why (i :: p) f) : Goes places n.at? n'.at? why fault := by
  cases fault with
  | none => exact replaced_node same inner children
  | some f =>
    obtain ⟨done,p,rest,rfl,because,unchanged,replaced⟩ := children
    cases p with
    | nil => exact absurd rfl (some [] (by simp))
    | cons i p => exact ⟨done,i :: p,rest,rfl,whole i p f because,unchanged,replaced_node same inner replaced⟩

-- Conditions.

theorem bindAllNames_length (s : Scope) (ns : List Node) : (bindAllNames s ns).value.length = ns.length := by
  induction ns with
  | nil => rfl
  | cons n ns ih => simp [bindAllNames,Visited.andThen_value,ih]

-- A node that is no name has the names of its children.
theorem bindNames_node (s : Scope) (n : Node) (inner : n.type ≠ .identifier) (other : n.type ≠ .column) :
    (bindNames s n).value.look = n.look ∧ (bindNames s n).value.children = (bindAllNames s n.children).value ∧
      (bindNames s n).fault = (bindAllNames s n.children).fault := by
  cases n with
  | identifier parts => exact absurd rfl inner
  | column name source e => exact absurd rfl other
  | constant | table => exact ⟨rfl,rfl,rfl⟩
  | function name args => exact ⟨rfl,rfl,by simp [bindNames,bindAllNames,children,slots,Visited.andThen]⟩
  | runtimeFilter id m => exact ⟨rfl,rfl,by simp [bindNames,bindAllNames,children,slots,Visited.andThen]⟩
  | list ns =>
    rw [children_list]
    refine ⟨?_,children_list _,rfl⟩
    simp [bindNames,look,type,scalars,slots,Function.comp_def,bindAllNames_length,List.map_const']
  | join spec l r e =>
    refine ⟨?_,?_,?_⟩
    · cases e <;> simp [bindNames,bindSlotNames,look,type,scalars,slots,Visited.andThen_value]
    · cases e with
      | none => simp [bindNames,bindSlotNames,bindAllNames,children,slots,Visited.andThen_value,Visited.andThen_fault]
      | some e =>
        simp only [bindNames,bindSlotNames,bindAllNames,children,slots,Visited.andThen_value,Visited.andThen_fault,
          Visited.map_value,Visited.map_fault,List.filterMap_cons,List.filterMap_nil,id_eq,Option.none_or]
        rfl
    · cases e <;> simp [bindNames,bindSlotNames,bindAllNames,children,slots,Visited.andThen_fault]

theorem namePlaces_node (n : Node) (inner : n.type ≠ .identifier) (other : n.type ≠ .column) :
    n.namePlaces = namePlacesOf n.children := by
  cases n with
  | identifier parts => exact absurd rfl inner
  | column name source e => exact absurd rfl other
  | constant | table => rfl
  | function name args => simp [namePlaces,namePlacesOf,children,slots]
  | runtimeFilter id m => simp [namePlaces,namePlacesOf,children,slots]
  | list ns => rw [children_list,namePlaces]
  | join spec l r e =>
    cases e with
    | none => simp [namePlaces,namePlacesOf,namePlacesOption,children,slots,Function.comp_def,shifted]
    | some e => simp [namePlaces,namePlacesOf,namePlacesOption,children,slots,Function.comp_def,shifted]

-- What holds of a node as soon as it holds of its children holds of every node.
theorem induct_children {P : Node → Prop} (above : ∀ n, (∀ m ∈ n.children, P m) → P n) (n : Node) : P n := by
  induction n using induct_slots with
  | above n ih =>
    refine above n fun m child => ?_
    obtain ⟨slot,inside,rfl⟩ := List.mem_filterMap.mp child
    exact ih m inside

theorem replaced_name (parts : List String) (source : ColumnSource) (e : Option Node) :
    Replaced [[]] (identifier parts).at? (column (Identifier.short parts) source e).at? := by
  refine ⟨fun p member parts' here => ?_,fun p free => ?_⟩
  · cases List.mem_singleton.mp member
    cases here
    exact ⟨source,e,rfl⟩
  · exact absurd rfl (free [] (List.mem_singleton_self []) List.nil_prefix parts)

-- A visit of names, what it leaves of them, and what it leaves when it comes to its end.
structure BindsNames (s : Scope) (places : List (List Nat)) (before after : List Nat → Option Node)
    (fault : Option AnalysisError) (left : List (List Nat)) : Prop where
  goes : Goes places before after (fun p f => ∃ parts, before p = some (identifier parts) ∧ s.resolve parts = .error f) fault
  closed : fault = none → left = []

theorem bindAllNames_binds (s : Scope) (ns : List Node)
    (each : ∀ n ∈ ns, BindsNames s n.namePlaces n.at? (bindNames s n).value.at? (bindNames s n).fault (bindNames s n).value.namePlaces) :
    BindsNames s (namePlacesOf ns) (within ns) (within (bindAllNames s ns).value) (bindAllNames s ns).fault
      (namePlacesOf (bindAllNames s ns).value) := by
  induction ns with
  | nil => exact ⟨replaced_nothing _,fun _ => rfl⟩
  | cons n ns ih =>
    obtain ⟨mine,others⟩ := List.forall_mem_cons.mp each
    have later := ih others
    have value : (bindAllNames s (n :: ns)).value =
        (if (bindAllNames s ns).fault.isSome then n else (bindNames s n).value) :: (bindAllNames s ns).value := by
      simp [bindAllNames,Visited.andThen_value]
    have fault : (bindAllNames s (n :: ns)).fault = (bindAllNames s ns).fault.or (bindNames s n).fault := by
      simp [bindAllNames,Visited.andThen_fault]
    rw [value,fault,namePlacesOf]
    constructor
    · refine goes_backward later.goes (fun _ => mine.goes) (fun p f because => because) fun p f because => ?_
      rwa [within_shifted]
    · intro done
      obtain ⟨before,here⟩ := Option.or_eq_none_iff.mp done
      rw [before,namePlacesOf,later.closed before]
      simp [mine.closed here]

theorem namePlaces_some (ns : List Node) : ∀ p ∈ namePlacesOf ns, p ≠ [] := by
  induction ns with
  | nil => exact nofun
  | cons n ns ih =>
    intro p member
    rcases List.mem_append.mp member with later | mine
    · obtain ⟨q,inside,rfl⟩ := List.mem_map.mp later
      cases q with
      | nil => exact absurd rfl (ih [] inside)
      | cons i q => exact nofun
    · obtain ⟨q,_,rfl⟩ := List.mem_map.mp mine
      exact nofun

theorem bindNames_identifier (s : Scope) (parts : List String) :
    BindsNames s (identifier parts).namePlaces (identifier parts).at? (bindNames s (identifier parts)).value.at?
      (bindNames s (identifier parts)).fault (bindNames s (identifier parts)).value.namePlaces := by
  cases found : s.resolve parts with
  | ok a =>
    obtain ⟨source,e,rfl⟩ := s.resolve_column found
    simp only [bindNames,found]
    exact ⟨replaced_name parts source e,fun _ => rfl⟩
  | error f =>
    simp only [bindNames,found]
    exact ⟨⟨[],[],[],rfl,⟨parts,rfl,found⟩,rfl,replaced_nothing _⟩,nofun⟩

-- Names are bound from the last one to the first, up to one that cannot be.
theorem bindNames_binds (s : Scope) (n : Node) :
    BindsNames s n.namePlaces n.at? (bindNames s n).value.at? (bindNames s n).fault (bindNames s n).value.namePlaces := by
  induction n using induct_children with
  | above n ih =>
    by_cases inner : n.type = .identifier
    · cases n <;> cases inner
      exact bindNames_identifier s _
    · by_cases other : n.type = .column
      · cases n <;> cases other
        exact ⟨replaced_nothing _,fun _ => rfl⟩
      · obtain ⟨same,children,fault⟩ := bindNames_node s n inner other
        have all : BindsNames s (namePlacesOf n.children) (within n.children) (within (bindAllNames s n.children).value)
            (bindAllNames s n.children).fault (namePlacesOf (bindAllNames s n.children).value) := bindAllNames_binds s _ ih
        have type : (bindNames s n).value.type = n.type := congrArg Prod.fst same
        rw [namePlaces_node n inner other,namePlaces_node _ (type ▸ inner) (type ▸ other),fault]
        rw [← children] at all
        exact ⟨goes_node same inner (namePlaces_some _) all.goes fun _ _ _ because => because,all.closed⟩

-- USING lists.

section
variable (left right : Scope)

theorem bindUsingEntry_goes (n : Node) :
    Goes [[]] n.at? (bindUsingEntry left right n).value.at? (fun p f => p = [] ∧ (bindUsingEntry left right n).fault = some f)
      (bindUsingEntry left right n).fault := by
  rcases bindUsingEntry_cases left right n with ⟨same,merged⟩ | ⟨parts,l,r,rfl,single,first,second⟩
  · rw [same]
    cases done : (bindUsingEntry left right n).fault with
    | some f => exact ⟨[],[],[],rfl,⟨rfl,rfl⟩,rfl,replaced_nothing _⟩
    | none =>
      obtain ⟨name,e,rfl⟩ := merged done
      refine ⟨fun p member parts here => ?_,fun _ _ => rfl⟩
      cases List.mem_singleton.mp member
      cases here
  · rw [bindUsingEntry_name single first second]
    exact replaced_name parts _ _

theorem bindUsingEntry_column (n : Node) (done : (bindUsingEntry left right n).fault = none) :
    (bindUsingEntry left right n).value.type = .column := by
  rcases bindUsingEntry_cases left right n with ⟨same,merged⟩ | ⟨parts,l,r,rfl,single,first,second⟩
  · obtain ⟨name,e,rfl⟩ := merged done
    rfl
  · rw [bindUsingEntry_name single first second]
    rfl

theorem entries_behind (k : Nat) : (List.range (k + 1)).map ([·]) = [[]].map (0 :: ·) ++ ((List.range k).map ([·])).map shifted := by
  simp [List.range_succ_eq_map,Function.comp_def,shifted]

-- The entries of a USING list are bound from the first one to the last.
theorem bindUsing_goes (ns : List Node) :
    Goes ((List.range ns.length).map ([·])) (within ns) (within (bindUsing left right ns).value)
      (fun p f => ∃ i n, p = [i] ∧ ns[i]? = some n ∧ (bindUsingEntry left right n).fault = some f) (bindUsing left right ns).fault := by
  induction ns with
  | nil => exact replaced_nothing _
  | cons n ns ih =>
    have first := bindUsingEntry_goes left right n
    simp only [bindUsing,Visited.map_value,Visited.map_fault,Visited.andThen_value,Visited.andThen_fault,List.length_cons,entries_behind]
    cases ended : (bindUsingEntry left right n).fault with
    | some f =>
      rw [ended] at first
      refine goes_ended _ first ?_
      rintro p ⟨rfl,_⟩
      exact ⟨0,n,rfl,rfl,ended⟩
    | none =>
      rw [ended] at first
      refine goes_on first ih ?_
      rintro p f ⟨i,m,rfl,here,because⟩
      exact ⟨i + 1,m,rfl,here,because⟩

theorem bindUsing_columns (ns : List Node) (done : (bindUsing left right ns).fault = none) :
    ∀ n ∈ (bindUsing left right ns).value, n.type = .column := by
  induction ns with
  | nil => exact nofun
  | cons n ns ih =>
    obtain ⟨mine,later,value⟩ := Visited.both_done (f := bindUsingEntry left right) (g := bindUsing left right) (p := (n,ns)) done
    have whole : (bindUsing left right (n :: ns)).value = (bindUsingEntry left right n).value :: (bindUsing left right ns).value :=
      congrArg (fun p : Node × List Node => p.1 :: p.2) value
    rw [whole]
    exact List.forall_mem_cons.mpr ⟨bindUsingEntry_column left right n mine,ih later⟩

end

theorem bindUsing_length (left right : Scope) (ns : List Node) : (bindUsing left right ns).value.length = ns.length := by
  induction ns with
  | nil => rfl
  | cons n ns ih =>
    simp only [bindUsing,Visited.map_value,Visited.andThen_value,List.length_cons]
    split <;> simp [ih]

-- Joins.

-- The reason of a fault in a join expression.
inductive ConstraintFault (left right : Scope) : Option Node → List Nat → AnalysisError → Prop where
  | entry : ns[i]? = some n → (bindUsingEntry left right n).fault = some fault →
      ConstraintFault left right (some (list ns)) [i] fault
  | name : (∀ ns, e ≠ list ns) → e.at? p = some (identifier parts) → (left.merge right).resolve parts = .error fault →
      ConstraintFault left right (some e) p fault

theorem constraintPlaces_names (e : Node) (other : ∀ ns, e ≠ list ns) : constraintPlaces (some e) = e.namePlaces := by
  cases e with
  | list ns => exact absurd rfl (other ns)
  | _ => rfl

theorem bindConstraint_goes (left right : Scope) (e : Option Node) :
    Goes ((constraintPlaces e).map (0 :: ·)) (within e.toList) (within (bindConstraint left right e).1.value.toList)
      (fun p f => ∃ q, p = 0 :: q ∧ ConstraintFault left right e q f) (bindConstraint left right e).1.fault := by
  cases e with
  | none => exact replaced_nothing _
  | some e =>
    by_cases listed : ∃ ns, e = list ns
    · obtain ⟨ns,rfl⟩ := listed
      have entries := bindUsing_goes left right ns
      have whole : Goes (constraintPlaces (some (list ns))) (list ns).at? (list (bindUsing left right ns).value).at?
          (ConstraintFault left right (some (list ns))) (bindUsing left right ns).fault := by
        refine goes_node ?_ nofun ?_ (by rw [children_list,children_list]; exact entries) ?_
        · simp [look,type,scalars,slots,Function.comp_def,bindUsing_length,List.map_const']
        · simp [constraintPlaces]
        · rintro i p f ⟨j,n,same,here,because⟩
          cases same
          exact .entry here because
      exact goes_single whole fun p f because => ⟨p,rfl,because⟩
    · have other : ∀ ns, e ≠ list ns := fun ns same => listed ⟨ns,same⟩
      rw [bindConstraint_names left right e other,constraintPlaces_names e other]
      refine goes_single (bindNames_binds (left.merge right) e).goes ?_
      rintro p f ⟨parts,here,because⟩
      exact ⟨p,rfl,.name other here because⟩

end Node

def Resolution.fault? (r : Resolution) : Option AnalysisError :=
  match r.outcome with
  | .ok _ => none
  | .error fault => some fault

namespace Node

theorem stops_join (spec : JoinSpec) (l r : Node) (e : Option Node) : (join spec l r e).stops =
    l.stops.map (0 :: ·) ++ (r.stops.map (0 :: ·) ++ ((constraintPlaces e).map (0 :: ·)).map shifted).map shifted := by
  simp [stops,Function.comp_def,shifted]

theorem children_join (spec : JoinSpec) (l r : Node) (e : Option Node) : (join spec l r e).children = l :: r :: e.toList := by
  cases e <;> simp [children,slots]

theorem bindConstraint_filled (left right : Scope) (e : Option Node) : (bindConstraint left right e).1.value.isSome = e.isSome := by
  cases e with
  | none => rfl
  | some e =>
    by_cases listed : ∃ ns, e = list ns
    · obtain ⟨ns,rfl⟩ := listed
      rfl
    · rw [bindConstraint_names left right e fun ns same => listed ⟨ns,same⟩]
      rfl

theorem stops_some (n : Node) (join : n.type = .join) : ∀ p ∈ n.stops, p ≠ [] := by
  cases n <;> cases join
  intro p member
  simp only [stops,List.mem_append,List.mem_map] at member
  rcases member with (⟨q,_,rfl⟩ | ⟨q,_,rfl⟩) | ⟨q,_,rfl⟩ <;> exact nofun

-- A join goes on as long as there is no fault.
theorem join_goes (spec : JoinSpec) (first : Goes l.stops l.at? (l.resolve c).tree.at? (l.FaultAt c) (l.resolve c).fault?)
    (second : Goes r.stops r.at? (r.resolve c).tree.at? (r.FaultAt c) (r.resolve c).fault?) (e : Option Node) :
    Goes (join spec l r e).stops (join spec l r e).at? ((join spec l r e).resolve c).tree.at? ((join spec l r e).FaultAt c)
      ((join spec l r e).resolve c).fault? := by
  -- The sides and the join expression as one list of children.
  have whole {e' : Option Node} {l' r' : Node} {fault : Option AnalysisError} (same : e'.isSome = e.isSome)
      {reason : List Nat → AnalysisError → Prop} (goes : Goes (join spec l r e).stops (within (l :: r :: e.toList))
        (within (l' :: r' :: e'.toList)) reason fault) (why : ∀ p f, reason p f → (join spec l r e).FaultAt c p f) :
      Goes (join spec l r e).stops (join spec l r e).at? (join spec l' r' e').at? ((join spec l r e).FaultAt c) fault := by
    refine goes_node ?_ nofun (stops_some _ rfl) (by rw [children_join,children_join]; exact goes) fun i p f => why (i :: p) f
    simp [look,type,scalars,slots,same]
  rw [stops_join] at whole ⊢
  cases left : (l.resolve c).outcome with
  | error f =>
    rw [Resolution.fault?,left] at first
    simp only [resolve,Resolution.ofJoin,Resolution.fault?,left]
    exact whole rfl (goes_ended _ first fun p because => .left because) fun _ _ because => because
  | ok leftScope =>
    rw [Resolution.fault?,left] at first
    cases right : (r.resolve c).outcome with
    | error f =>
      rw [Resolution.fault?,right] at second
      simp only [resolve,Resolution.ofJoin,Resolution.fault?,left,right]
      have behind : Goes (r.stops.map (0 :: ·) ++ ((constraintPlaces e).map (0 :: ·)).map shifted) (within (r :: e.toList))
          (within ((r.resolve c).tree :: e.toList)) (fun p f => (join spec l r e).FaultAt c (shifted p) f) (some f) :=
        goes_ended _ second fun p because => .right left because
      exact whole rfl (goes_on first behind fun _ _ because => because) fun _ _ because => because
    | ok rightScope =>
      rw [Resolution.fault?,right] at second
      have last := bindConstraint_goes leftScope rightScope e
      have behind : Goes (r.stops.map (0 :: ·) ++ ((constraintPlaces e).map (0 :: ·)).map shifted) (within (r :: e.toList))
          (within ((r.resolve c).tree :: (bindConstraint leftScope rightScope e).1.value.toList))
          (fun p f => (join spec l r e).FaultAt c (shifted p) f) (bindConstraint leftScope rightScope e).1.fault := by
        refine goes_on second last ?_
        rintro p f ⟨q,rfl,because⟩
        cases because with
        | entry here refused => exact .entry left right here refused
        | name other here refused => exact .name left right other here refused
      have goes := whole (bindConstraint_filled leftScope rightScope e) (goes_on first behind fun _ _ because => because)
        fun _ _ because => because
      simp only [resolve,Resolution.ofJoin,Resolution.fault?,left,right]
      cases ended : (bindConstraint leftScope rightScope e).1.fault <;> rwa [ended] at goes

theorem resolve_goes (c : Catalog) (n : Node) : Goes n.stops n.at? (n.resolve c).tree.at? (n.FaultAt c) (n.resolve c).fault? := by
  match n with
  | table name asName =>
    simp only [resolve,Resolution.ofTable,Resolution.fault?]
    cases known : c.columns? name with
    | none => exact ⟨[],[],[],rfl,.unknown known,rfl,replaced_nothing _⟩
    | some columns =>
      refine ⟨fun p member parts here => ?_,fun _ _ => rfl⟩
      cases List.mem_singleton.mp member
      cases here
  | join spec l r e => exact join_goes spec (resolve_goes c l) (resolve_goes c r) e
  | .identifier .. | .constant .. | .column .. | .function .. | .list .. | .runtimeFilter .. =>
    exact ⟨[],[],[],rfl,.misplaced rfl,rfl,replaced_nothing _⟩

-- The names that are gone.

theorem bindConstraint_closed (left right : Scope) (e : Option Node) (done : (bindConstraint left right e).1.fault = none)
    (spec : JoinSpec) (l r : Node) : ∀ p ∈ constraintPlaces (bindConstraint left right e).1.value, ∀ parts,
      (join spec l r (bindConstraint left right e).1.value).at? (2 :: p) ≠ some (identifier parts) := by
  intro p member parts here
  cases e with
  | none => cases member
  | some e =>
    by_cases listed : ∃ ns, e = list ns
    · obtain ⟨ns,rfl⟩ := listed
      have value : (bindConstraint left right (some (list ns))).1.value = some (list (bindUsing left right ns).value) := rfl
      rw [value] at member here
      obtain ⟨i,_,rfl⟩ := List.mem_map.mp member
      have entry : (bindUsing left right ns).value[i]? = some (identifier parts) := by
        simpa [at?,children_join,children_list] using here
      cases bindUsing_columns left right ns done _ (List.mem_of_getElem? entry)
    · have other : ∀ ns, e ≠ list ns := fun ns same => listed ⟨ns,same⟩
      rw [bindConstraint_names left right e other] at member done
      have same : constraintPlaces (some (bindNames (left.merge right) e).value) = _ :=
        constraintPlaces_names _ (bindNames_list _ e other)
      have closed := (bindNames_binds (left.merge right) e).closed done
      simp [same,closed] at member

theorem resolve_closed (c : Catalog) (n : Node) (done : (n.resolve c).outcome = .ok s) :
    ∀ p ∈ (n.resolve c).tree.stops, ∀ parts, (n.resolve c).tree.at? p ≠ some (identifier parts) := by
  match n with
  | table name asName =>
    intro p member parts here
    cases List.mem_singleton.mp member
    cases here
  | join spec l r e =>
    obtain ⟨left,right,first,second,bound,rfl⟩ := Resolution.join_ok.mp done
    rw [Resolution.join_tree first second]
    intro p member parts here
    rcases List.mem_append.mp member with sides | last
    · rcases List.mem_append.mp sides with inside | inside
      · obtain ⟨q,mine,rfl⟩ := List.mem_map.mp inside
        exact resolve_closed c l first q mine parts here
      · obtain ⟨q,mine,rfl⟩ := List.mem_map.mp inside
        exact resolve_closed c r second q mine parts here
    · obtain ⟨q,mine,rfl⟩ := List.mem_map.mp last
      exact bindConstraint_closed left right e bound spec _ _ q mine parts here
  | .identifier .. | .constant .. | .column .. | .function .. | .list .. | .runtimeFilter .. => cases done

-- The names of a condition are its identifiers without a column above them, those on the right before those on the left.
structure NamesExact (places : List (List Nat)) (view : List Nat → Option Node) : Prop where
  names : ∀ p, p ∈ places ↔ (∃ parts, view p = some (identifier parts)) ∧ ∀ q, q <+: p → ∀ m, view q = some m → m.type ≠ .column
  order : places.Pairwise (· > ·)

theorem prefixes_cons {P : List Nat → Prop} : (∀ q, q <+: i :: p → P q) ↔ P [] ∧ ∀ q, q <+: p → P (i :: q) := by
  simp only [List.prefix_cons_iff]
  grind

theorem namePlacesOf_first (n : Node) (ns : List Node) (p : List Nat) : 0 :: p ∈ namePlacesOf (n :: ns) ↔ p ∈ n.namePlaces := by
  have later : 0 :: p ∉ (namePlacesOf ns).map shifted := by
    intro member
    obtain ⟨q,_,same⟩ := List.mem_map.mp member
    cases q <;> cases same
  simp [namePlacesOf,later]

theorem namePlacesOf_shifted (n : Node) (ns : List Node) (i : Nat) (p : List Nat) :
    (i + 1) :: p ∈ namePlacesOf (n :: ns) ↔ i :: p ∈ namePlacesOf ns := by
  have inside : (i + 1) :: p ∈ (namePlacesOf ns).map shifted ↔ i :: p ∈ namePlacesOf ns := by
    constructor
    · intro member
      obtain ⟨q,listed,same⟩ := List.mem_map.mp member
      cases q <;> cases same
      exact listed
    · exact fun listed => List.mem_map.mpr ⟨i :: p,listed,rfl⟩
  simp [namePlacesOf,inside]

theorem namePlacesOf_exact (ns : List Node) (each : ∀ n ∈ ns, NamesExact n.namePlaces n.at?) :
    NamesExact (namePlacesOf ns) (within ns) := by
  induction ns with
  | nil => exact ⟨fun p => by cases p <;> simp [namePlacesOf,within],.nil⟩
  | cons n ns ih =>
    obtain ⟨mine,others⟩ := List.forall_mem_cons.mp each
    have later := ih others
    have nothing (ns : List Node) : ∀ m, within ns [] = some m → m.type ≠ .column := nofun
    constructor
    case names =>
      intro p
      match p with
      | [] => exact ⟨fun member => absurd rfl (namePlaces_some _ [] member),fun ⟨⟨_,here⟩,_⟩ => by cases here⟩
      | 0 :: p =>
        rw [namePlacesOf_first,mine.names,prefixes_cons]
        exact and_congr_right fun _ => ⟨fun clear => ⟨nothing _,clear⟩,fun clear => clear.2⟩
      | (i + 1) :: p =>
        rw [namePlacesOf_shifted,later.names,prefixes_cons,prefixes_cons]
        exact and_congr_right fun _ => ⟨fun clear => ⟨nothing _,clear.2⟩,fun clear => ⟨nothing _,clear.2⟩⟩
    case order =>
      rw [namePlacesOf,List.pairwise_append]
      refine ⟨?_,?_,?_⟩
      · rw [List.pairwise_map]
        refine later.order.imp_of_mem fun {p q} first second less => ?_
        match p, q with
        | [],_ => exact absurd rfl (namePlaces_some _ _ first)
        | _,[] => exact absurd rfl (namePlaces_some _ _ second)
        | i :: p,j :: q => simpa [shifted,List.cons_lt_cons_iff] using less
      · rw [List.pairwise_map]
        exact mine.order.imp fun less => List.cons_lt_cons_iff.mpr (.inr ⟨rfl,less⟩)
      · intro p first q second
        obtain ⟨p,inside,rfl⟩ := List.mem_map.mp first
        obtain ⟨q,_,rfl⟩ := List.mem_map.mp second
        cases p with
        | nil => exact absurd rfl (namePlaces_some _ _ inside)
        | cons i p => simp [shifted,List.cons_lt_cons_iff]

theorem namePlaces_identifier (parts : List String) : NamesExact (identifier parts).namePlaces (identifier parts).at? := by
  refine ⟨fun p => ?_,List.pairwise_singleton _ _⟩
  cases p <;> simp [namePlaces,at?,children,slots,type]

theorem namePlaces_column (name : String) (source : ColumnSource) (e : Option Node) :
    NamesExact (column name source e).namePlaces (column name source e).at? := by
  refine ⟨fun p => ⟨nofun,fun ⟨_,clear⟩ => ?_⟩,.nil⟩
  exact absurd rfl (clear [] List.nil_prefix _ rfl)

theorem namePlaces_inner (n : Node) (inner : n.type ≠ .identifier) (other : n.type ≠ .column)
    (all : NamesExact (namePlacesOf n.children) (within n.children)) : NamesExact n.namePlaces n.at? := by
  rw [namePlaces_node n inner other]
  refine ⟨fun p => ?_,all.order⟩
  rw [all.names]
  cases p with
  | nil =>
    have unnamed (parts : List String) : n.at? [] ≠ some (identifier parts) := fun here =>
      inner (congrArg type (Option.some.inj here))
    have childless : within n.children [] = none := rfl
    rw [childless]
    exact ⟨nofun,fun ⟨⟨parts,here⟩,_⟩ => absurd here (unnamed parts)⟩
  | cons i p =>
    rw [prefixes_cons,prefixes_cons]
    refine and_congr_right fun _ => ⟨fun clear => ⟨?_,clear.2⟩,fun clear => ⟨nofun,clear.2⟩⟩
    intro m here
    cases Option.some.inj here
    exact other

theorem namePlaces_exact (n : Node) : NamesExact n.namePlaces n.at? := by
  induction n using induct_children with
  | above n ih =>
    by_cases inner : n.type = .identifier
    · cases n <;> cases inner
      exact namePlaces_identifier _
    · by_cases other : n.type = .column
      · cases n <;> cases other
        exact namePlaces_column _ _ _
      · exact namePlaces_inner n inner other (namePlacesOf_exact n.children ih)

-- A resolution binds the identifiers of a tree in a fixed order up to the first node that it fails at. These have become
-- columns, and the rest of the tree is as it was.
theorem resolve_replaces (c : Catalog) (n : Node) :
    (match (n.resolve c).outcome with
      | .ok _ => Replaced n.stops n.at? (n.resolve c).tree.at? ∧
        ∀ p ∈ (n.resolve c).tree.stops, ∀ parts, (n.resolve c).tree.at? p ≠ some (identifier parts)
      | .error fault => ∃ done p rest, n.stops = done ++ p :: rest ∧ n.FaultAt c p fault ∧
        (n.resolve c).tree.at? p = n.at? p ∧ Replaced done n.at? (n.resolve c).tree.at?) ∧
      ∀ e : Node, NamesExact e.namePlaces e.at? := by
  refine ⟨?_,namePlaces_exact⟩
  have goes := resolve_goes c n
  cases done : (n.resolve c).outcome with
  | ok s =>
    rw [Resolution.fault?,done] at goes
    exact ⟨goes,resolve_closed c n done⟩
  | error fault =>
    rw [Resolution.fault?,done] at goes
    exact goes

end Node

end JoinTree
