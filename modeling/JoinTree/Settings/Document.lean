import JoinTree.Settings.Error

/-!
Settings from a YAML document. Absent settings have their defaults, and no other key is allowed. A value that is wrong
is reported before a fault in the text behind it.
-/

namespace JoinTree

open Yaml

namespace Settings

private def names : List String := Setting.all.map Setting.name

private def fieldOf (key : Item) : Except Refusal Setting :=
  match key.content with
  | .scalar s =>
    match Setting.ofName? s.value with
    | some k => .ok k
    | none => .error (.mismatch (.unknownField s.value names) none key.mark)
  | c => .error (.mismatch (c.mismatch "field identifier") none key.mark)

-- A value of one type, or what stands in its place. A misfit without a place of its own counts as one of the mapping;
-- one that depends on a tag counts as one of the reference to it, if there is one.
inductive Misfit where
  | here (m : Mismatch)
  | ofMapping (m : Mismatch)
  | ofReference (m : Mismatch)

private def boolean (c : Content) : Except Misfit Bool :=
  let misfit := .error (.here (c.mismatch "a boolean"))
  match c with
  | .scalar s => if s.isTyped "bool" then ((boolean? s.value).map .ok).getD misfit else misfit
  | _ => misfit

private def word (c : Content) : Except Misfit UInt64 :=
  let misfit := .error (.here (c.mismatch "u64"))
  match c with
  | .scalar s =>
    if s.isTyped "int" then ((Yaml.natural? (1 <<< 64) s.value.toList).map fun n => .ok (.ofNat n)).getD misfit else misfit
  | _ => misfit

private def optionalBoolean (c : Content) : Except Misfit (Option Bool) :=
  match c with
  | .scalar s =>
    let null := isNull s.value.toList
    if s.style = .plain && s.hasTag "null" then
      if null then .ok none else .error (.ofMapping (.value (Meaning.text s.value).phrase "null"))
    else if s.style = .plain && s.tag.isNone && (s.value.isEmpty || null) then .ok none
    else some <$> boolean c
  | _ => some <$> boolean c

private def variants : List String := [ShortCircuit.enable,.forceEnable,.disable].map ShortCircuit.text

-- The name of a variant that a tag gives, behind its exclamation mark if anything follows that.
private def variantTag? (tag : Option Octets) : Option String :=
  match tag with
  | some [33] => some "!"
  | some (33 :: name) => Octets.text? name
  | _ => none

-- Behind the tag of a variant nothing may stand.
private def nothing (c : Content) : Except Misfit Unit :=
  match c with
  | .scalar s =>
    if s.style = .plain && (s.value.isEmpty || isNull s.value.toList) then .ok ()
    else .error (.here (.value (Meaning.text s.value).phrase "null"))
  | c => .error (.here (c.mismatch "unit"))

-- A policy is the name of a variant, as a text or as a tag.
private def shortCircuitOf (c : Content) : Except Misfit ShortCircuit :=
  let ofTag (tag : Option Octets) (otherwise : Except Misfit ShortCircuit) : Except Misfit ShortCircuit :=
    match variantTag? tag with
    | some name =>
      match ShortCircuit.ofText? name with
      | some p => do nothing c; return p
      | none => .error (.ofReference (.unknownVariant name variants))
    | none => otherwise
  let noTag := .error (.here (c.mismatch "a YAML tag starting with '!'"))
  match c with
  | .scalar s =>
    ofTag s.tag (match ShortCircuit.ofText? s.value with
      | some p => .ok p
      | none => .error (.here (.unknownVariant s.value variants)))
  | .sequence tag => ofTag tag noTag
  | .mapping tag => ofTag tag noTag

private def withValue (s : Settings) (k : Setting) (c : Content) : Except Misfit Settings := do
  match k with
  | .compileExpressions => return { s with compileExpressions := ← boolean c }
  | .minCountToCompile => return { s with minCountToCompile := ← word c }
  | .maxTemporaryColumns => return { s with maxTemporaryColumns := ← word c }
  | .maxTemporaryNonConstColumns => return { s with maxTemporaryNonConstColumns := ← word c }
  | .shortCircuit => return { s with shortCircuit := ← shortCircuitOf c }
  | .mergeFilters => return { s with mergeFilters := ← boolean c }
  | .splitFilterChain => return { s with splitFilterChain := ← optionalBoolean c }

-- A value below a key that is itself a reference lies in no named field.
private def placed (start : Mark) (key value : Item) (k : Setting) (misfit : Misfit) : Refusal :=
  let field := some (if key.isReferred then "?" else k.name)
  match misfit, value.reference with
  | .here m, _ => .mismatch m field value.mark
  | .ofReference m, some mark => .mismatch m field mark
  | .ofMapping m, _ | .ofReference m, none => .mismatch m none start

private def withEntries (start : Mark) (seen : List Setting) (s : Settings) : List Item → Except Refusal Settings
  | [] => .ok s
  | key :: entries => do
    let k ← fieldOf key
    if seen.contains k then .error (.mismatch (.duplicateField k.name) none start)
    else match entries with
      | [] => .ok s
      | value :: entries =>
        let s ← (s.withValue k value.content).mapError (placed start key value k)
        withEntries start (k :: seen) s entries

private def ofRoot (d : Document) : Except Refusal Settings :=
  match d.root with
  | none => .ok {}
  | some root =>
    let misfit := .error (.mismatch (root.content.mismatch "struct Settings") none root.mark)
    match root.content with
    | .mapping _ => withEntries root.mark [] {} (d.entries)
    | .scalar s => if s.style = .plain && s.value.isEmpty then .ok {} else misfit
    | .sequence _ => misfit

def ofDocument (d : Document) : Except Refusal Settings := do
  let s ← ofRoot d
  match d.fault with
  | some fault => .error (.fault fault)
  | none => if d.followed then .error .severalDocuments else .ok s

-- The settings of a text, which have to go together.
def ofYaml (text : String) : Except SettingsError Settings := do
  let s ← (ofDocument (.ofText text.toList)).mapError .document
  s.validate
  return s

-- What is found under a path.
inductive Source where
  | missing
  | directory
  | file (bytes : ByteArray)

def load (path : String) : Source → Except SettingsError Settings
  | .missing => .error (.notFound path)
  | .directory => .error (.unreadable path .isDirectory)
  | .file bytes =>
    match String.fromUTF8? bytes with
    | some text => ofYaml text
    | none => .error (.unreadable path .notText)

end Settings

end JoinTree
