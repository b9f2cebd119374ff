import Mathlib.Data.List.Forall2
import JoinTree.Proofs.Outcome
import JoinTree.Tree.OfExpr

/-!
Which expression has which node, one rule for each shape of expression. Main statement: these are the nodes that are built.
-/

namespace JoinTree

open Sql

namespace Node

-- The arguments of a call have their nodes at their places.
inductive HasNode : Expr → Node → Prop where
  | ident (i : Ident) : HasNode (.ident i) (ident i.value)
  | compound (parts : List Ident) : HasNode (.compound parts) (identifier (parts.map Ident.value))
  | literal : Constant.ofLiteral l = .ok c → HasNode (.literal l) (constant c)
  | binary : functionOf? op = some name → HasNode l a → HasNode r b → HasNode (.binary l op r) (call name [a,b])
  | plus : HasNode e n → HasNode (.unary .plus e) n
  | folded : negatedLiteral? (.literal l) = .ok (some c) → HasNode (.unary .minus (.literal l)) (constant c)
  | negate : negatedLiteral? e = .ok none → HasNode e n → HasNode (.unary .minus e) (call "negate" [n])
  | not : HasNode e n → HasNode (.unary .not e) (call "not" [n])
  | nested : HasNode e n → HasNode (.nested e) n
  | isNull : HasNode e n → HasNode (.isNull e) (call "isNull" [n])
  | isNotNull : HasNode e n → HasNode (.isNotNull e) (call "isNotNull" [n])
  | between (negated : Bool) : HasNode e n → HasNode low a → HasNode high b →
      HasNode (.between e negated low high) (between negated n a b)
  | call : callObstacle? h args = none → args.length = ns.length → (∀ p ∈ args.zip ns, HasNode p.1 p.2) →
      HasNode (.call h args) (call h.name.text ns)

-- An argument that is no plain expression has no node as an expression either.
theorem ofArguments_cons {es : List Expr} : ofArguments (e :: es) = .ok ns ↔
    ∃ n rest, ofExpr e = .ok n ∧ ofArguments es = .ok rest ∧ ns = n :: rest := by
  cases e
  case argument s =>
    constructor
    · intro built
      cases built
    · rintro ⟨n,rest,built,_⟩
      cases built
  all_goals
    constructor
    · intro built
      obtain ⟨n,first,built⟩ := bind_ok.mp built
      obtain ⟨rest,others,built⟩ := bind_ok.mp built
      cases built
      exact ⟨n,rest,first,others,rfl⟩
    · rintro ⟨n,rest,first,others,rfl⟩
      exact bind_ok.mpr ⟨n,first,bind_ok.mpr ⟨rest,others,rfl⟩⟩

theorem ofArguments_ok {es : List Expr} : ofArguments es = .ok ns ↔ List.Forall₂ (fun e n => ofExpr e = .ok n) es ns := by
  induction es generalizing ns with
  | nil =>
    rw [List.forall₂_nil_left_iff]
    exact ⟨fun built => (by cases built; rfl),fun none => by rw [none]; rfl⟩
  | cons e es ih => simp only [ofArguments_cons,ih,List.forall₂_cons_left_iff]

-- Arguments and their nodes, one by one.

section Arguments

variable {es : List Expr} {ns : List Node}

theorem argument_pairs {R : Expr → Node → Prop} (size : es.length = ns.length) (each : ∀ p ∈ es.zip ns, R p.1 p.2) :
    List.Forall₂ R es ns := List.forall₂_iff_zip.mpr ⟨size,fun {_ _} member => each _ member⟩

theorem argument_of_node (size : es.length = ns.length) (member : n ∈ ns) : ∃ e, (e,n) ∈ es.zip ns := by
  rw [← List.map_snd_zip (Nat.le_of_eq size.symm)] at member
  obtain ⟨⟨e,_⟩,inside,rfl⟩ := List.mem_map.mp member
  exact ⟨e,inside⟩

theorem node_of_argument (size : es.length = ns.length) (member : e ∈ es) : ∃ n, (e,n) ∈ es.zip ns := by
  rw [← List.map_fst_zip (Nat.le_of_eq size)] at member
  obtain ⟨⟨_,n⟩,inside,rfl⟩ := List.mem_map.mp member
  exact ⟨n,inside⟩

end Arguments

-- Only a literal takes the sign.
theorem negatedLiteral?_some (folded : negatedLiteral? e = .ok (some c)) : ∃ l, e = .literal l := by
  cases e with
  | literal l => exact ⟨l,rfl⟩
  | _ => cases folded

mutual
theorem ofExpr_hasNode (e : Expr) (built : ofExpr e = .ok n) : HasNode e n := by
  cases e with
  | ident i =>
    cases built
    exact .ident i
  | compound parts =>
    cases built
    exact .compound parts
  | literal l =>
    obtain ⟨c,read,rfl⟩ := map_ok.mp built
    exact .literal read
  | binary l op r =>
    rw [ofExpr] at built
    split at built
    · cases built
    · rename_i known
      obtain ⟨a,left,built⟩ := bind_ok.mp built
      obtain ⟨b,right,built⟩ := bind_ok.mp built
      cases built
      exact .binary known (ofExpr_hasNode l left) (ofExpr_hasNode r right)
  | unary op e =>
    cases op with
    | plus => exact .plus (ofExpr_hasNode e built)
    | minus =>
      obtain ⟨folded,sign,built⟩ := bind_ok.mp built
      cases folded with
      | some c =>
        cases built
        obtain ⟨l,rfl⟩ := negatedLiteral?_some sign
        exact .folded sign
      | none =>
        obtain ⟨a,inner,rfl⟩ := map_ok.mp built
        exact .negate sign (ofExpr_hasNode e inner)
    | not =>
      obtain ⟨a,inner,rfl⟩ := map_ok.mp built
      exact .not (ofExpr_hasNode e inner)
    | other s => cases built
  | nested e => exact .nested (ofExpr_hasNode e built)
  | isNull e =>
    obtain ⟨a,inner,rfl⟩ := map_ok.mp built
    exact .isNull (ofExpr_hasNode e inner)
  | isNotNull e =>
    obtain ⟨a,inner,rfl⟩ := map_ok.mp built
    exact .isNotNull (ofExpr_hasNode e inner)
  | between e negated low high =>
    obtain ⟨n,value,built⟩ := bind_ok.mp built
    obtain ⟨a,lower,built⟩ := bind_ok.mp built
    obtain ⟨b,upper,built⟩ := bind_ok.mp built
    cases built
    exact .between negated (ofExpr_hasNode e value) (ofExpr_hasNode low lower) (ofExpr_hasNode high upper)
  | call h args =>
    rw [ofExpr] at built
    split at built
    · cases built
    · rename_i clear
      obtain ⟨ns,listed,rfl⟩ := map_ok.mp built
      obtain ⟨size,each⟩ := ofArguments_hasNode args listed
      exact .call clear size each
  | tuple | argument | phrase => cases built
theorem ofArguments_hasNode (es : List Expr) (built : ofArguments es = .ok ns) :
    es.length = ns.length ∧ ∀ p ∈ es.zip ns, HasNode p.1 p.2 := by
  cases es with
  | nil =>
    cases built
    exact ⟨rfl,List.forall_mem_nil _⟩
  | cons e es =>
    obtain ⟨n,rest,first,others,rfl⟩ := ofArguments_cons.mp built
    obtain ⟨size,each⟩ := ofArguments_hasNode es others
    exact ⟨congrArg Nat.succ size,List.forall_mem_cons.mpr ⟨ofExpr_hasNode e first,each⟩⟩
end

theorem HasNode.built (has : HasNode e n) : ofExpr e = .ok n := by
  induction has with
  | ident | compound => rfl
  | literal read => exact map_ok.mpr ⟨_,read,rfl⟩
  | binary known _ _ left right =>
    simp only [ofExpr,known,left,right]
    rfl
  | plus _ inner | nested _ inner => exact inner
  | folded sign => exact bind_ok.mpr ⟨_,sign,rfl⟩
  | negate sign _ inner => exact bind_ok.mpr ⟨_,sign,map_ok.mpr ⟨_,inner,rfl⟩⟩
  | not _ inner | isNull _ inner | isNotNull _ inner => exact map_ok.mpr ⟨_,inner,rfl⟩
  | between _ _ _ _ value lower upper =>
    simp only [ofExpr,value,lower,upper]
    rfl
  | call clear size _ each =>
    rw [ofExpr,clear]
    exact map_ok.mpr ⟨_,ofArguments_ok.mpr (argument_pairs size each),rfl⟩

theorem ofExpr_iff : ofExpr e = .ok n ↔ HasNode e n := ⟨ofExpr_hasNode e,HasNode.built⟩

end Node

end JoinTree
