import JoinTree.Proofs.JoinChain

/-!
Built trees as FROM clauses. Main statement: a built tree that has no ON condition and no word for locality or strictness,
and whose names can be written, is the tree of a list of tables with the joins behind each of them.
-/

namespace JoinTree

open Sql

-- A join has the kind of its operator, or PASTE.

theorem JoinClause.withConstraint_kind {c : JoinClause} {join : String} {constraint : JoinConstraint}
    (read : c.withConstraint join constraint = .ok c') : c'.kind = c.kind := by
  cases constraint
  case on | none =>
    cases read
    rfl
  case natural => cases read
  -- A USING list is added to the clause.
  · obtain ⟨is,_,rfl⟩ := map_ok.mp read
    rfl

theorem JoinClause.ofJoin_kind (read : ofJoin j = .ok c) : c.kind ≠ .comma := by
  have known : ∀ operator kind strictness, topology? operator = some (kind,strictness) → kind ≠ .comma := by
    intro operator kind strictness found
    cases operator <;> cases found <;> decide
  have inner : JoinKind.inner ≠ .comma := by decide
  unfold ofJoin at read
  simp only at read
  split at read
  · cases read
    exact inner
  · cases read
    exact inner
  · cases read
  · split at read
    · rename_i kind strictness found
      rw [withConstraint_kind read]
      exact known _ _ _ found
    · cases read

-- The words of a hint are put back one after the other.
theorem JoinHint.apply_eq (h : JoinHint) (c : JoinClause) :
    h.apply c = h.applyLocality c >>= fun a => h.applyStrictness a >>= h.applyPaste := by
  unfold apply JoinHint.put
  cases first : h.applyLocality c with
  | error e => simp [run,first,bind,Except.bind]
  | ok a =>
    cases second : h.applyStrictness a with
    | error e => simp [run,first,second,bind,Except.bind]
    | ok b => cases third : h.applyPaste b <;> simp [run,first,second,third,bind,Except.bind]

-- What one word changes in a clause.

theorem JoinHint.applyLocality_ok {h : JoinHint} (step : h.applyLocality a = .ok b) : b = { a with locality := b.locality } := by
  unfold applyLocality at step
  split at step
  · cases step
    rfl
  · split at step <;> cases step
    rfl

theorem JoinHint.applyStrictness_ok {h : JoinHint} (step : h.applyStrictness a = .ok b) :
    b = { a with strictness := b.strictness } := by
  unfold applyStrictness at step
  split at step
  · cases step
    rfl
  · split at step <;> cases step
    rfl

theorem JoinHint.applyPaste_ok {h : JoinHint} (step : h.applyPaste a = .ok b) : b = a ∨ b = { a with kind := .paste } := by
  unfold applyPaste at step
  split at step
  · cases step
    exact .inl rfl
  · split at step <;> cases step
    exact .inr rfl

-- The words that are put back change no constraint.
theorem JoinHint.apply_ok {h : JoinHint} (put : h.apply c = .ok a) :
    a = { c with locality := a.locality, strictness := a.strictness, kind := a.kind } ∧ (a.kind = c.kind ∨ a.kind = .paste) := by
  rw [apply_eq] at put
  obtain ⟨b,first,put⟩ := bind_ok.mp put
  obtain ⟨b',second,third⟩ := bind_ok.mp put
  have known : b' = { c with locality := b'.locality, strictness := b'.strictness, kind := b'.kind } ∧ b'.kind = c.kind := by
    rw [applyStrictness_ok second,applyLocality_ok first]
    exact ⟨rfl,rfl⟩
  rcases applyPaste_ok third with rfl | rfl
  · exact ⟨known.1,.inl known.2⟩
  · exact ⟨congrArg ({ · with kind := .paste }) known.1,.inr rfl⟩

theorem JoinHints.clauseOf_kind {hints : JoinHints} (read : hints.clauseOf j = .ok c) : c.kind ≠ .comma := by
  obtain ⟨c',joined,read⟩ := bind_ok.mp read
  have other := JoinClause.ofJoin_kind joined
  split at read
  · rcases (JoinHint.apply_ok read).2 with same | paste
    · rwa [same]
    · rw [paste]; decide
  · cases read
    exact other

namespace Node

-- Trees are compared child by child.
mutual
def same : Node → Node → Bool
  | identifier parts, identifier parts' => parts = parts'
  | constant v, constant v' => v = v'
  | column name source e, column name' source' e' => name = name' && source = source' && sameOption e e'
  | function name args, function name' args' => name = name' && args.same args'
  | list ns, list ns' => sameList ns ns'
  | table name asName, table name' asName' => name = name' && asName = asName'
  | join s l r e, join s' l' r' e' => s = s' && l.same l' && r.same r' && sameOption e e'
  | runtimeFilter id c, runtimeFilter id' c' => id = id' && c.same c'
  | _, _ => false
def sameList : List Node → List Node → Bool
  | [], [] => true
  | n :: ns, m :: ms => n.same m && sameList ns ms
  | _, _ => false
def sameOption : Option Node → Option Node → Bool
  | none, none => true
  | some n, some m => n.same m
  | _, _ => false
end

mutual
theorem same_iff (n m : Node) : n.same m = true ↔ n = m := by
  cases n <;> cases m <;> simp [same,same_iff,sameList_iff,sameOption_iff,and_assoc]
theorem sameList_iff (ns ms : List Node) : sameList ns ms = true ↔ ns = ms := by
  cases ns <;> cases ms <;> simp [sameList,same_iff,sameList_iff]
theorem sameOption_iff (n m : Option Node) : sameOption n m = true ↔ n = m := by
  cases n <;> cases m <;> simp [sameOption,same_iff]
end

instance : DecidableEq Node := fun n m => decidable_of_iff _ (same_iff n m)

-- No comma in it.
def IsKeyed : Node → Prop
  | .join s l r _ => s.kind ≠ .comma ∧ l.IsKeyed ∧ r.IsKeyed
  | _ => True

-- Commas stand outside of all other joins, with one entry behind each.
inductive IsListed : Node → Prop where
  | entry : IsKeyed n → IsListed n
  | comma (e : Option Node) : IsListed l → IsKeyed r → IsListed (.join { kind := .comma } l r e)

theorem keyed_rules (hints : JoinHints) : BuildRules hints (fun _ n => n.IsKeyed) fun l _ n => l.IsKeyed → n.IsKeyed := by
  constructor
  case table =>
    intro t n built
    rw [ofTable_ok built]
    trivial
  case nested => exact fun _ _ _ _ left later => later left
  case nil => exact fun _ left => left
  case cons => exact fun _ _ _ _ _ _ _ _ given _ _ right later left => later ⟨JoinHints.clauseOf_kind given,left,right⟩

theorem ofEntry_keyed (built : (ofEntry hints e).result = .ok n) : n.IsKeyed := by
  obtain ⟨left,first,later⟩ := (keyed_rules hints).entry built
  exact later first

theorem ofStatement_listed (built : (ofStatement s hints).result = .ok n) : n.IsListed := by
  cases s with
  | command | explanation => cases built
  | query q =>
    simp only [ofStatement,ofQuery] at built
    split at built
    · obtain ⟨e,es,left,rfl,first,built⟩ := ofEntries_ok built
      refine behindComma_induct (R := fun l _ n => l.IsListed → n.IsListed) ?nil ?cons es built (.entry (ofEntry_keyed first))
      case nil => exact fun _ left => left
      case cons => exact fun _ _ _ _ _ entry later left => later (.comma none left (ofEntry_keyed entry))
    · cases built
    · cases built

-- No word for locality or strictness.
def IsUnmarked : Node → Prop
  | .join s l r _ => s.locality = .unspecified ∧ s.strictness = .unspecified ∧ l.IsUnmarked ∧ r.IsUnmarked
  | _ => True

-- A dotted name of parts that are read back, which nothing but a table starts with.
def IsTableName (d : Dialect) (name : String) : Prop :=
  ∃ i is, name = (ObjectName.ofIdents (i :: is)).text ∧ i.token.StartsTable ∧ ∀ j ∈ i :: is, j.IsWritable d

-- Names that can be written. Aliases and columns of USING lists are written without quotes.
def IsNamed (d : Dialect) : Node → Prop
  | .table name asName => IsTableName d name ∧ ∀ a, asName = some a → Ident.IsWritable d ⟨a,none⟩
  | .join _ l r e => l.IsNamed d ∧ r.IsNamed d ∧ ∀ v ∈ usingColumns e, Ident.IsWritable d ⟨v,none⟩
  | _ => True

end Node

-- A further join behind those that are there.

namespace Links

def snoc (kind : JoinKind) (columns : List String) (right : Chain) : Links → Links
  | nil => cons kind columns right nil
  | cons kind' columns' right' rest => cons kind' columns' right' (rest.snoc kind columns right)

variable {kind : JoinKind} {columns : List String} {right : Chain}

theorem behind_snoc (ls : Links) (n : Node) : (ls.snoc kind columns right).behind n =
    .join { kind } (ls.behind n) right.node (Node.usingOf columns) := by
  cases ls with
  | nil => rfl
  | cons kind' columns' right' rest => exact rest.behind_snoc _

theorem fits_snoc (ls : Links) (fits : ls.Fits d) (other : kind ≠ .comma) (given : kind.isUnconditional = true ↔ columns = [])
    (names : ∀ v ∈ columns, Ident.IsWritable d ⟨v,none⟩) (within : right.Fits d) : (ls.snoc kind columns right).Fits d := by
  cases ls with
  | nil => exact ⟨other,given,names,within,trivial⟩
  | cons kind' columns' right' rest =>
    obtain ⟨other',given',names',within',later⟩ := fits
    exact ⟨other',given',names',within',rest.fits_snoc later other given names within⟩

end Links

namespace Node

-- Without a condition the join expression is a list of columns, where there is one.
theorem expression_columns {e : Option Node} (fits : JoinSpec.Fits s e) (bare : conditionOf e = []) :
    e = usingOf (usingColumns e) ∧ (s.kind.isUnconditional = true ↔ usingColumns e = []) := by
  cases kind : s.kind.isUnconditional with
  | true =>
    rw [fits.bare kind]
    exact ⟨rfl,by simp [usingColumns]⟩
  | false =>
    obtain ⟨n,rfl,⟨names,some,rfl⟩ | scalar⟩ := fits.constrained kind
    · have given : usingOf names = .some (.list (names.map ident)) := if_neg some
      rw [← given,usingColumns_of]
      exact ⟨rfl,by simp [some]⟩
    · cases scalar <;> cases bare

theorem exists_chain (valid : WellFormed n) (keyed : n.IsKeyed) (unmarked : n.IsUnmarked) (bare : n.conditions = [])
    (named : n.IsNamed d) : ∃ c : Chain, c.Fits d ∧ c.node = n := by
  induction valid with
  | table name asName =>
    obtain ⟨⟨i,is,rfl,opening,names⟩,given⟩ := named
    exact ⟨.mk (i :: is) asName .nil,⟨⟨i,is,rfl,opening⟩,names,given,trivial⟩,rfl⟩
  | join s l r e _ _ fits ihl ihr =>
    obtain ⟨other,left,right⟩ := keyed
    obtain ⟨locality,strictness,left',right'⟩ := unmarked
    obtain ⟨left'',right'',names⟩ := named
    simp only [conditions,List.append_eq_nil_iff] at bare
    obtain ⟨⟨name,asName,links⟩,fitsLeft,rfl⟩ := ihl left left' bare.1.1 left''
    obtain ⟨c,fitsRight,rfl⟩ := ihr right right' bare.1.2 right''
    obtain ⟨same,given⟩ := expression_columns fits bare.2
    obtain ⟨_,_,kind⟩ := s
    cases locality
    cases strictness
    refine ⟨.mk name asName (links.snoc kind (usingColumns e) c),?_,?_⟩
    · exact ⟨fitsLeft.1,fitsLeft.2.1,fitsLeft.2.2.1,links.fits_snoc fitsLeft.2.2.2 other given names fitsRight⟩
    · rw [Chain.node,Links.behind_snoc,← same,Chain.node]

theorem exists_listing (listed : n.IsListed) (valid : WellFormed n) (unmarked : n.IsUnmarked) (bare : n.conditions = [])
    (named : n.IsNamed d) : ∃ s : Listing, s.Fits d ∧ s.node = n := by
  induction listed with
  | entry keyed =>
    obtain ⟨c,fits,rfl⟩ := exists_chain valid keyed unmarked bare named
    exact ⟨⟨c,[]⟩,⟨fits,List.forall_mem_nil _⟩,rfl⟩
  | comma e _ right ih =>
    cases valid with
    | join _ _ _ _ left valid fits =>
      obtain ⟨_,_,unmarkedLeft,unmarkedRight⟩ := unmarked
      obtain ⟨namedLeft,namedRight,_⟩ := named
      simp only [conditions,List.append_eq_nil_iff] at bare
      obtain ⟨s,fitsLeft,rfl⟩ := ih left unmarkedLeft bare.1.1 namedLeft
      obtain ⟨c,fitsRight,rfl⟩ := exists_chain valid right unmarkedRight bare.1.2 namedRight
      rw [fits.bare rfl]
      refine ⟨⟨s.first,s.others ++ [c]⟩,⟨fitsLeft.1,?_⟩,?_⟩
      · exact List.forall_mem_append.mpr ⟨fitsLeft.2,by simpa using fitsRight⟩
      · simp only [Listing.node,List.foldl_append,List.foldl_cons,List.foldl_nil]

end Node

end JoinTree
