import Mathlib.Data.List.Nodup
import Mathlib.Data.List.Pairwise
import JoinTree.Proofs.InPlace

/-!
Which words are taken out of a text, and where they are kept. Main statement: a word is taken out exactly if the hint of
the one JOIN behind it holds it, and no two JOINs of a text share a word or a key.
-/

namespace JoinTree

open Sql

namespace Sql.Lexeme

def role? (l : Lexeme) : Option JoinWord := JoinWord.ofToken? l.token
def isJoin (l : Lexeme) : Bool := isKeyword .JOIN l.token
def isJoinWord (l : Lexeme) : Bool := !l.isJoin && l.role?.isSome

-- Words that are taken out wherever they stand in a run. An ASOF may be a part of the grammar.
def isLoose (l : Lexeme) : Bool := [some .locality,some .all,some .any,some .paste].contains l.role?

def strictness? (l : Lexeme) : Option Strictness :=
  match l.role? with
  | some .all => some .all
  | some .any => some .any
  | some .asof => some .asof
  | _ => none

end Sql.Lexeme

-- The longest run of join words that a list ends with.
def runAtEnd (ls : List Lexeme) : List Lexeme := (ls.reverse.takeWhile Lexeme.isJoinWord).reverse

-- Of several ASOF the last one counts.
def lastAsof? (run : List Lexeme) : Option Lexeme := (run.filter fun l => l.role? = some .asof).getLast?

-- A JOIN with what stands in front of it and behind.
structure JoinSite where
  front : List Lexeme
  join : Lexeme
  after : List Lexeme
  deriving DecidableEq, Repr

-- The JOINs of a list behind other lexemes, in its order.
def joinSites (front : List Lexeme) : List Lexeme → List JoinSite
  | [] => []
  | l :: rest => (if l.isJoin then [⟨front,l,rest⟩] else []) ++ joinSites (front ++ [l]) rest

-- The words of a hint, as far as they agree.
def JoinHint.ofWords (ws : List Lexeme) : JoinHint :=
  { locality := if ws.any (·.role? = some .locality) then some .perShard else none
    strictness := ws.findSome? Lexeme.strictness?
    paste := ws.any (·.role? = some .paste) }

-- What a hint says of a word.
def JoinHint.Holds (h : JoinHint) (w : Lexeme) : Prop :=
  match w.role? with
  | some .locality => h.locality = some .perShard
  | some .all => h.strictness = some .all
  | some .any => h.strictness = some .any
  | some .asof => h.strictness = some .asof
  | some .paste => h.paste = true
  | _ => False

def Agree (ws : List Lexeme) : Prop :=
  ∀ a ∈ ws, ∀ b ∈ ws, ∀ x y, a.strictness? = some x → b.strictness? = some y → x = y

namespace JoinSite

def run (s : JoinSite) : List Lexeme := runAtEnd s.front
def key? (s : JoinSite) : Option Location := rightStart? s.after

-- An ASOF is a part of the grammar only without a kind and with a MATCH_CONDITION.
def takesAsof (s : JoinSite) : Bool := s.run.any (·.role? = some .kind) || !hasMatchCondition 0 s.after

-- The words that are taken out if the right side has a key.
def taken (s : JoinSite) : List Lexeme :=
  s.run.filter Lexeme.isLoose ++ if s.takesAsof then (lastAsof? s.run).toList else []

def recorded? (s : JoinSite) : Option Recorded :=
  if s.taken = [] then none else s.key?.map fun k => ⟨k,.ofWords s.taken,s.taken.map Lexeme.cut⟩

-- All words of the run, but of several ASOF the last one only.
def Counts (s : JoinSite) (w : Lexeme) : Prop := w ∈ s.run ∧ (w.role? = some .asof → lastAsof? s.run = some w)

end JoinSite

-- What is recorded of a list of lexemes.
def recordedOf (ls : List Lexeme) : Except JoinFault (List Recorded) := (·.filterMap id) <$> (recordings [] ls).mapM id

-- The hints of a list of lexemes, if there is no conflict in it.
def recordedHints (ls : List Lexeme) : JoinHints := ((joinSites [] ls).filterMap JoinSite.recorded?).map fun r => (r.key,r.hint)

-- A text with the given lexemes.
def PreparedText.ofLexemes (sql : List Char) (ls : List Lexeme) : Except Sql.Error PreparedText := do
  ofRecorded sql (← (recordedOf ls).mapError .unsupportedJoin)

theorem PreparedText.ofText_lexemes (d : Dialect) (sql : List Char) : ofText d sql = ofLexemes sql (lexemes d sql) := by
  unfold ofText ofLexemes recordedOf
  cases (recordings [] (lexemes d sql)).mapM id <;> rfl

-- Runs.

theorem runAtEnd_append (ls : List Lexeme) (l : Lexeme) :
    runAtEnd (ls ++ [l]) = if l.isJoinWord then runAtEnd ls ++ [l] else [] := by
  cases word : l.isJoinWord <;> simp [runAtEnd,word]

theorem runAtEnd_sub (ls : List Lexeme) : ∀ w ∈ runAtEnd ls, w ∈ ls := by
  intro w member
  have inside : w ∈ ls.reverse.takeWhile Lexeme.isJoinWord := List.mem_reverse.mp member
  exact List.mem_reverse.mp ((List.takeWhile_sublist _).mem inside)

theorem mem_takeWhile_front {p : α → Bool} (front : List α) (other : p a = false) :
    x ∈ (front ++ a :: rest).takeWhile p → x ∈ front := by
  induction front with
  | nil => simp [other]
  | cons b front ih =>
    rw [List.cons_append,List.takeWhile_cons]
    split
    · simpa using Or.imp_right ih
    · simp

-- A run does not go on in front of a lexeme that is no join word.
theorem runAtEnd_behind (front mid : List Lexeme) (other : l.isJoinWord = false) :
    ∀ w ∈ runAtEnd (front ++ l :: mid), w ∈ mid := by
  intro w member
  have inside : w ∈ (mid.reverse ++ l :: front.reverse).takeWhile Lexeme.isJoinWord := by
    simpa [runAtEnd] using member
  exact List.mem_reverse.mp (mem_takeWhile_front _ other inside)

theorem recordings_sites (front ls : List Lexeme) :
    recordings (runAtEnd front) ls = (joinSites front ls).map fun s => recordedAt s.run s.after := by
  induction ls generalizing front with
  | nil => rfl
  | cons l ls ih =>
    have next := ih (front ++ [l])
    rw [runAtEnd_append] at next
    rw [recordings,joinSites,List.map_append,← next]
    cases join : l.isJoin with
    | true =>
      have other : l.isJoinWord = false := by simp [Lexeme.isJoinWord,join]
      rw [Lexeme.isJoin] at join
      simp [join,other,JoinSite.run]
    | false =>
      have same : l.isJoinWord = (JoinWord.ofToken? l.token).isSome := by simp [Lexeme.isJoinWord,join,Lexeme.role?]
      rw [Lexeme.isJoin] at join
      rw [same]
      simp only [join,Bool.false_eq_true,if_false,List.map_nil,List.nil_append]
      cases (JoinWord.ofToken? l.token).isSome <;> rfl

theorem mem_joinSites (front ls : List Lexeme) (member : s ∈ joinSites front ls) :
    ∃ mid, ls = mid ++ s.join :: s.after ∧ s.front = front ++ mid ∧ s.join.isJoin = true := by
  induction ls generalizing front with
  | nil => cases member
  | cons l ls ih =>
    rw [joinSites] at member
    rcases List.mem_append.mp member with here | later
    · split at here
      · cases List.mem_singleton.mp here
        exact ⟨[],rfl,by simp,‹_›⟩
      · cases here
    · obtain ⟨mid,rest,before,join⟩ := ih (front ++ [l]) later
      exact ⟨l :: mid,by rw [rest]; rfl,by simp [before],join⟩

-- Hints.

-- What a word adds to a hint.
theorem ofWords_append (ws : List Lexeme) (w : Lexeme) : JoinHint.ofWords (ws ++ [w]) =
    { locality := if w.role? = some .locality then some .perShard else (JoinHint.ofWords ws).locality
      strictness := (JoinHint.ofWords ws).strictness.or w.strictness?
      paste := (JoinHint.ofWords ws).paste || w.role? = some .paste } := by
  simp only [JoinHint.ofWords,List.any_append,List.findSome?_append,JoinHint.mk.injEq]
  refine ⟨?_,?_,?_⟩
  · by_cases role : w.role? = some .locality <;> simp [role]
  · simp
  · simp

theorem agree_append (sub : Agree (ws ++ ws')) : Agree ws :=
  fun a ha b hb => sub a (List.mem_append_left _ ha) b (List.mem_append_left _ hb)

-- The first strictness of some words stands for all.
theorem agree_append_iff (own : w.strictness? = some x) :
    Agree (ws ++ [w]) ↔ Agree ws ∧ ∀ y, (JoinHint.ofWords ws).strictness = some y → y = x := by
  constructor
  · intro agree
    refine ⟨agree_append agree,fun y before => ?_⟩
    obtain ⟨a,member,has⟩ := List.exists_of_findSome?_eq_some before
    exact agree a (by simp [member]) w (by simp) y x has own
  · rintro ⟨agree,first⟩
    have all : ∀ c ∈ ws ++ [w], ∀ z, c.strictness? = some z → z = x := by
      intro c member z has
      rcases List.mem_append.mp member with inside | single
      · cases before : (JoinHint.ofWords ws).strictness with
        | none =>
          have free : ∀ a ∈ ws, a.strictness? = none := by simpa [JoinHint.ofWords] using before
          cases (free c inside).symm.trans has
        | some y =>
          obtain ⟨a,member,known⟩ := List.exists_of_findSome?_eq_some before
          exact (agree c inside a member z y has known).trans (first y before)
      · cases List.mem_singleton.mp single
        exact Option.some.inj (has.symm.trans own)
    exact fun a ha b hb y z hy hz => (all a ha y hy).trans (all b hb z hz).symm

theorem withStrictness_ok {h : JoinHint} (first : ∀ y, h.strictness = some y → y = x) :
    h.withStrictness x = .ok { h with strictness := h.strictness.or (some x) } := by
  obtain ⟨locality,strictness,paste⟩ := h
  cases strictness with
  | none => rfl
  | some y =>
    cases first y rfl
    simp [JoinHint.withStrictness]

theorem withStrictness_conflict {h : JoinHint} (conflict : ¬ ∀ y, h.strictness = some y → y = x) :
    ∃ fault, h.withStrictness x = .error fault := by
  obtain ⟨locality,strictness,paste⟩ := h
  cases strictness with
  | none => simp at conflict
  | some y =>
    have other : y ≠ x := by simpa using conflict
    exact ⟨_,by simp only [JoinHint.withStrictness,if_neg other]; rfl⟩

theorem agree_idle (agree : Agree ws) (idle : w.strictness? = none) : Agree (ws ++ [w]) := by
  intro a ha b hb x y hx hy
  have inside {c : Lexeme} {z : Strictness} (member : c ∈ ws ++ [w]) (has : c.strictness? = some z) : c ∈ ws := by
    rcases List.mem_append.mp member with member | single
    · exact member
    · cases List.mem_singleton.mp single
      cases idle.symm.trans has
  exact agree a (inside ha hx) b (inside hb hy) x y hx hy

theorem lastAsof?_role {run : List Lexeme} (found : lastAsof? run = some w) : w ∈ run ∧ w.role? = some .asof := by
  have member := List.mem_of_getLast? found
  simpa using List.mem_filter.mp member

namespace ClauseWords

-- What a run comes to as long as no ASOF is taken out.
def ofWords (run : List Lexeme) : ClauseWords :=
  { hint := .ofWords (run.filter Lexeme.isLoose)
    edits := (run.filter Lexeme.isLoose).map Lexeme.cut
    asof := lastAsof? run
    hasKind := run.any (·.role? = some .kind) }

theorem lastAsof?_append (run : List Lexeme) (l : Lexeme) :
    lastAsof? (run ++ [l]) = if l.role? = some .asof then some l else lastAsof? run := by
  by_cases asof : l.role? = some .asof <;> simp [lastAsof?,asof]

theorem loose_append (run : List Lexeme) (l : Lexeme) :
    (run ++ [l]).filter Lexeme.isLoose = run.filter Lexeme.isLoose ++ if l.isLoose then [l] else [] := by
  cases loose : l.isLoose <;> simp [loose]

-- A word with a strictness of its own.
theorem add_strict (role : l.role? = some r) (own : l.strictness? = some x) (loose : l.isLoose = true)
    (added : (ofWords run).add l = do
      return { ofWords run with hint := ← (ofWords run).hint.withStrictness x, edits := (ofWords run).edits ++ [blank l] })
    (cut : l.cut = blank l) (other : r ≠ .asof ∧ r ≠ .kind ∧ r ≠ .locality ∧ r ≠ .paste) :
    (Agree ((run ++ [l]).filter Lexeme.isLoose) → (ofWords run).add l = .ok (ofWords (run ++ [l]))) ∧
      (Agree (run.filter Lexeme.isLoose) → ¬ Agree ((run ++ [l]).filter Lexeme.isLoose) →
        ∃ fault, (ofWords run).add l = .error fault) := by
  rw [loose_append,if_pos loose,added]
  constructor
  · intro agree
    have first := ((agree_append_iff own).mp agree).2
    have hint : (ofWords run).hint.withStrictness x = _ := withStrictness_ok first
    rw [hint]
    simp only [ofWords,lastAsof?_append,loose_append,if_pos loose,role,ofWords_append,own,Option.some.injEq,other.1,other.2.1,
      other.2.2.1,other.2.2.2,if_false,List.map_append,List.map_cons,List.map_nil,cut,List.any_append,List.any_cons,List.any_nil,
      decide_false,Bool.or_false]
    rfl
  · intro before conflict
    obtain ⟨fault,hint⟩ := withStrictness_conflict fun first => conflict ((agree_append_iff own).mpr ⟨before,first⟩)
    have hint : (ofWords run).hint.withStrictness x = .error fault := hint
    exact ⟨fault,by rw [hint]; rfl⟩

-- A word without one never contradicts another.
theorem add_idle (added : (ofWords run).add l = .ok (ofWords (run ++ [l]))) (idle : l.isLoose = true → l.strictness? = none) :
    (Agree ((run ++ [l]).filter Lexeme.isLoose) → (ofWords run).add l = .ok (ofWords (run ++ [l]))) ∧
      (Agree (run.filter Lexeme.isLoose) → ¬ Agree ((run ++ [l]).filter Lexeme.isLoose) →
        ∃ fault, (ofWords run).add l = .error fault) := by
  refine ⟨fun _ => added,fun before conflict => absurd ?_ conflict⟩
  rw [loose_append]
  split
  · exact agree_idle before (idle ‹_›)
  · rwa [List.append_nil]

theorem add_ofWords (run : List Lexeme) (l : Lexeme) :
    (Agree ((run ++ [l]).filter Lexeme.isLoose) → (ofWords run).add l = .ok (ofWords (run ++ [l]))) ∧
      (Agree (run.filter Lexeme.isLoose) → ¬ Agree ((run ++ [l]).filter Lexeme.isLoose) →
        ∃ fault, (ofWords run).add l = .error fault) := by
  cases role : l.role? with
  | none =>
    have known : JoinWord.ofToken? l.token = none := role
    refine add_idle ?_ (by simp [Lexeme.isLoose,role])
    simp [add,known,ofWords,lastAsof?_append,Lexeme.isLoose,role]
  | some r =>
    have known : JoinWord.ofToken? l.token = some r := role
    cases r with
    | all =>
      exact add_strict role (x := .all) (by simp [Lexeme.strictness?,role]) (by simp [Lexeme.isLoose,role])
        (by simp only [add,known]) (cut_blank known nofun) (by decide)
    | any =>
      exact add_strict role (x := .any) (by simp [Lexeme.strictness?,role]) (by simp [Lexeme.isLoose,role])
        (by simp only [add,known]) (cut_blank known nofun) (by decide)
    | locality =>
      have cut : blank l = l.cut := (cut_blank known nofun).symm
      refine add_idle ?_ (by simp [Lexeme.strictness?,role])
      simp [add,known,cut,ofWords,lastAsof?_append,Lexeme.isLoose,role,ofWords_append,Lexeme.strictness?]
    | paste =>
      have cut : l.cut = ⟨l.start,l.stop,some "CROSS"⟩ := by simp [Lexeme.cut,Lexeme.isPaste,known]
      refine add_idle ?_ (by simp [Lexeme.strictness?,role])
      simp [add,known,cut,ofWords,lastAsof?_append,Lexeme.isLoose,role,ofWords_append,Lexeme.strictness?]
    | asof | kind | modifier | global =>
      refine add_idle ?_ (by simp [Lexeme.isLoose,role])
      simp [add,known,ofWords,lastAsof?_append,Lexeme.isLoose,role]

-- The words of a run one after another.
theorem adds_ofWords (run more : List Lexeme) (agree : Agree (run.filter Lexeme.isLoose)) :
    (Agree ((run ++ more).filter Lexeme.isLoose) → more.foldlM add (ofWords run) = .ok (ofWords (run ++ more))) ∧
      (¬ Agree ((run ++ more).filter Lexeme.isLoose) → ∃ fault, more.foldlM add (ofWords run) = .error fault) := by
  induction more generalizing run with
  | nil =>
    rw [List.append_nil]
    exact ⟨fun _ => rfl,fun conflict => absurd agree conflict⟩
  | cons l more ih =>
    obtain ⟨added,refused⟩ := add_ofWords run l
    have whole : run ++ l :: more = run ++ [l] ++ more := by simp
    rw [whole,List.foldlM_cons]
    by_cases next : Agree ((run ++ [l]).filter Lexeme.isLoose)
    · rw [added next]
      exact ih (run ++ [l]) next
    · obtain ⟨fault,failed⟩ := refused agree next
      refine ⟨fun all => absurd ?_ next,fun _ => ⟨fault,by rw [failed]; rfl⟩⟩
      rw [List.filter_append] at all
      exact agree_append all

end ClauseWords

namespace JoinSite

-- The words of a run are kept together if they agree.
theorem ofRun_taken (s : JoinSite) :
    (Agree s.taken → ∃ w, ClauseWords.ofRun s.run s.after = .ok w ∧ w.hint = .ofWords s.taken ∧ w.edits = s.taken.map Lexeme.cut) ∧
      (¬ Agree s.taken → ∃ fault, ClauseWords.ofRun s.run s.after = .error fault) := by
  have nothing : Agree ([].filter Lexeme.isLoose) := by simp [Agree]
  obtain ⟨added,refused⟩ := ClauseWords.adds_ofWords [] s.run nothing
  rw [List.nil_append] at added refused
  have empty : ClauseWords.ofWords [] = {} := rfl
  rw [empty] at added refused
  by_cases loose : Agree (s.run.filter Lexeme.isLoose)
  · have run : ClauseWords.ofRun s.run s.after = (ClauseWords.ofWords s.run).closed s.after := by
      rw [ClauseWords.ofRun,added loose]
      rfl
    have kind : ((ClauseWords.ofWords s.run).hasKind || !hasMatchCondition 0 s.after) = s.takesAsof := rfl
    rw [run]
    unfold ClauseWords.closed
    rw [kind]
    cases last : lastAsof? s.run with
    | none =>
      have asof : (ClauseWords.ofWords s.run).asof = none := last
      have taken : s.taken = s.run.filter Lexeme.isLoose := by simp [JoinSite.taken,last]
      rw [asof,taken]
      exact ⟨fun _ => ⟨_,rfl,rfl,rfl⟩,fun conflict => absurd loose conflict⟩
    | some l =>
      have asof : (ClauseWords.ofWords s.run).asof = some l := last
      obtain ⟨_,role⟩ := lastAsof?_role last
      rw [asof]
      cases takes : s.takesAsof with
      | false =>
        have taken : s.taken = s.run.filter Lexeme.isLoose := by simp [JoinSite.taken,takes]
        rw [taken]
        exact ⟨fun _ => ⟨_,rfl,rfl,rfl⟩,fun conflict => absurd loose conflict⟩
      | true =>
        have taken : s.taken = s.run.filter Lexeme.isLoose ++ [l] := by simp [JoinSite.taken,takes,last]
        have own : l.strictness? = some .asof := by simp [Lexeme.strictness?,role]
        have cut : l.cut = ClauseWords.blank l := ClauseWords.cut_blank role nofun
        rw [taken]
        constructor
        · intro agree
          have hint : (ClauseWords.ofWords s.run).hint.withStrictness .asof = _ :=
            withStrictness_ok ((agree_append_iff own).mp agree).2
          simp only [if_true,hint]
          refine ⟨_,rfl,?_,by simp [ClauseWords.ofWords,cut]⟩
          simp [ofWords_append,own,role,ClauseWords.ofWords]
        · intro conflict
          obtain ⟨fault,hint⟩ := withStrictness_conflict fun first => conflict ((agree_append_iff own).mpr ⟨loose,first⟩)
          have hint : (ClauseWords.ofWords s.run).hint.withStrictness .asof = .error fault := hint
          exact ⟨fault,by simp only [if_true,hint]; rfl⟩
  · obtain ⟨fault,failed⟩ := refused loose
    refine ⟨fun agree => absurd (agree_append agree) loose,fun _ => ⟨fault,?_⟩⟩
    rw [ClauseWords.ofRun,failed]
    rfl

theorem taken_run {s : JoinSite} (member : w ∈ s.taken) : s.Counts w ∧ w.isRemovable = true := by
  rcases List.mem_append.mp member with loose | last
  · obtain ⟨inside,loose⟩ := List.mem_filter.mp loose
    have other : w.role? ≠ some .asof := by
      intro asof
      simp [Lexeme.isLoose,asof] at loose
    refine ⟨⟨inside,fun asof => absurd asof other⟩,?_⟩
    simp only [Lexeme.isLoose,Lexeme.role?] at loose
    simp only [Lexeme.isRemovable,decide_eq_true_eq]
    grind
  · split at last
    · have found : lastAsof? s.run = some w := by simpa using last
      obtain ⟨inside,role⟩ := lastAsof?_role found
      exact ⟨⟨inside,fun _ => found⟩,by simp [Lexeme.isRemovable,show JoinWord.ofToken? w.token = some .asof from role]⟩
    · cases last

-- Hints hold the words that they were made of.
theorem holds_ofWords (agree : Agree ws) (member : w ∈ ws) (removable : w.isRemovable = true) : (JoinHint.ofWords ws).Holds w := by
  have strict {x : Strictness} (own : w.strictness? = some x) : (JoinHint.ofWords ws).strictness = some x := by
    cases first : (JoinHint.ofWords ws).strictness with
    | none =>
      have free : ∀ a ∈ ws, a.strictness? = none := by simpa [JoinHint.ofWords] using first
      cases (free w member).symm.trans own
    | some y =>
      obtain ⟨a,inside,has⟩ := List.exists_of_findSome?_eq_some first
      rw [agree a inside w member y x has own]
  simp only [Lexeme.isRemovable,List.mem_cons,List.not_mem_nil,or_false,decide_eq_true_eq] at removable
  have role : w.role? = JoinWord.ofToken? w.token := rfl
  unfold JoinHint.Holds
  rcases removable with known | known | known | known | known <;> simp only [role,known]
  · simp only [JoinHint.ofWords,ite_eq_left_iff,List.any_eq_true,decide_eq_true_eq]
    exact fun missing => absurd ⟨w,member,known⟩ missing
  · exact strict (by simp [Lexeme.strictness?,role,known])
  · exact strict (by simp [Lexeme.strictness?,role,known])
  · exact strict (by simp [Lexeme.strictness?,role,known])
  · simp only [JoinHint.ofWords,List.any_eq_true,decide_eq_true_eq]
    exact ⟨w,member,known⟩

theorem not_isEmpty {h : JoinHint} (holds : h.Holds w) : h.isEmpty = false := by
  unfold JoinHint.Holds at holds
  split at holds <;> simp_all [JoinHint.isEmpty]

-- A word of a run that the hint holds is one of those that it was made of.
theorem taken_of_holds {s : JoinSite} (counts : s.Counts w) (holds : (JoinHint.ofWords s.taken).Holds w) : w ∈ s.taken := by
  obtain ⟨inside,last⟩ := counts
  have loose (own : w.isLoose = true) : w ∈ s.taken := List.mem_append_left _ (List.mem_filter.mpr ⟨inside,own⟩)
  unfold JoinHint.Holds at holds
  split at holds
  case h_4 role =>
    obtain ⟨a,member,asof⟩ := List.exists_of_findSome?_eq_some holds
    have same : a.role? = some .asof := by
      unfold Lexeme.strictness? at asof
      split at asof <;> first | assumption | cases asof
    have found : lastAsof? s.run = some a := (taken_run member).1.2 same
    cases (last role).symm.trans found
    exact member
  case h_6 => cases holds
  all_goals exact loose (by simp [Lexeme.isLoose, *])

theorem ofWords_isEmpty (s : JoinSite) (agree : Agree s.taken) : (JoinHint.ofWords s.taken).isEmpty = decide (s.taken = []) := by
  cases taken : s.taken with
  | nil => rfl
  | cons w ws =>
    rw [taken] at agree
    have removable := (taken_run (s := s) (w := w) (by simp [taken])).2
    simpa using not_isEmpty (holds_ofWords agree (by simp) removable)

theorem recordedAt_site (s : JoinSite) : (Agree s.taken → recordedAt s.run s.after = .ok s.recorded?) ∧
    (¬ Agree s.taken → ∃ fault, recordedAt s.run s.after = .error fault) := by
  obtain ⟨kept,refused⟩ := s.ofRun_taken
  constructor
  · intro agree
    obtain ⟨w,words,hint,edits⟩ := kept agree
    rw [recordedAt,words]
    simp only [bind,Except.bind,hint,edits,ofWords_isEmpty s agree,recorded?,key?]
    by_cases empty : s.taken = []
    · simp [empty]
      rfl
    · simp [empty]
      rfl
  · intro conflict
    obtain ⟨fault,failed⟩ := refused conflict
    exact ⟨fault,by rw [recordedAt,failed]; rfl⟩

-- Two JOINs have no word and no key in common.

structure Apart (s s' : JoinSite) : Prop where
  words : ∀ w ∈ s.run, ∀ w' ∈ s'.run, w.start ≠ w'.start
  keys : ∀ k, s.key? = some k → s'.key? ≠ some k

theorem Apart.symm (apart : Apart s s') : Apart s' s :=
  ⟨fun w member w' member' => (apart.words w' member' w member).symm,fun k mine other => apart.keys k other mine⟩

-- A key is the place of the first lexeme behind that is no opening parenthesis.
theorem key?_place {s : JoinSite} (key : s.key? = some k) :
    ∃ x, s.after.find? (fun l => l.token ≠ .symbol .lparen) = some x ∧ x.start = k := by
  unfold key? rightStart? at key
  split at key
  · rename_i found
    cases key
    exact ⟨_,found,rfl⟩
  · cases key

theorem isJoin_word {l : Lexeme} (join : l.isJoin = true) : l.token ≠ .symbol .lparen ∧ l.isJoinWord = false := by
  refine ⟨fun same => ?_,by simp [Lexeme.isJoinWord,join]⟩
  simp [Lexeme.isJoin,isKeyword,same,Token.keyword?] at join

-- The key of a JOIN stands no later than the next JOIN.
theorem apart_next {front rest : List Lexeme} {l : Lexeme} (distinct : ((front ++ l :: rest).map (·.start)).Nodup)
    (join : l.isJoin = true)
    (later : s ∈ joinSites (front ++ [l]) rest) : Apart ⟨front,l,rest⟩ s := by
  obtain ⟨mid,rfl,before,next⟩ := mem_joinSites _ _ later
  simp only [List.map_append,List.map_cons,List.nodup_append,List.nodup_cons,List.mem_append,List.mem_map,List.mem_cons] at distinct
  constructor
  · intro w member w' member' same
    have first : w ∈ front := runAtEnd_sub _ w member
    have second : w' ∈ mid := by
      have inside : w' ∈ runAtEnd (front ++ l :: mid) := by simpa [run,before] using member'
      exact runAtEnd_behind front mid (isJoin_word join).2 w' inside
    exact distinct.2.2 w.start ⟨w,first,rfl⟩ w.start (.inr (.inl ⟨w',second,same.symm⟩)) rfl
  · intro k mine other
    obtain ⟨x,found,rfl⟩ := key?_place mine
    obtain ⟨x',found',same⟩ := key?_place other
    have inside : x' ∈ s.after := List.mem_of_find?_eq_some found'
    have early : x ∈ mid ∨ x = s.join := by
      have whole : mid ++ s.join :: s.after = (mid ++ [s.join]) ++ s.after := by simp
      have present : ((mid ++ [s.join]).find? fun l => l.token ≠ .symbol .lparen).isSome = true := by
        rw [List.find?_isSome]
        exact ⟨s.join,by simp,by simpa using (isJoin_word next).1⟩
      obtain ⟨y,first⟩ := Option.isSome_iff_exists.mp present
      simp only [whole] at found
      rw [List.find?_append,first,Option.some_or] at found
      cases found
      simpa using List.mem_of_find?_eq_some first
    rcases early with early | early
    · exact distinct.2.1.2.2.2 x.start ⟨x,early,rfl⟩ x.start (.inr ⟨x',inside,same⟩) rfl
    · exact distinct.2.1.2.2.1.1 ⟨x',inside,early ▸ same⟩

theorem joinSites_apart (front ls : List Lexeme) (distinct : ((front ++ ls).map (·.start)).Nodup) :
    (joinSites front ls).Pairwise Apart := by
  induction ls generalizing front with
  | nil => exact .nil
  | cons l ls ih =>
    have later := ih (front ++ [l]) (by simpa using distinct)
    rw [joinSites]
    split
    · exact .cons (fun s member => apart_next distinct ‹_› member) later
    · exact later

theorem joinSites_share (distinct : (ls.map (·.start)).Nodup) (first : s ∈ joinSites [] ls) (second : s' ∈ joinSites [] ls)
    (shared : ¬ Apart s s') : s = s' := by
  have : Std.Symm Apart := ⟨fun _ _ => Apart.symm⟩
  exact Decidable.by_contra fun other => shared ((joinSites_apart [] ls distinct).forall first second other)

-- What is recorded of a JOIN.
theorem recorded?_some {s : JoinSite} : s.recorded? = some r ↔
    s.taken ≠ [] ∧ s.key? = some r.key ∧ r.hint = .ofWords s.taken ∧ r.edits = s.taken.map Lexeme.cut := by
  obtain ⟨k,h,es⟩ := r
  unfold recorded?
  by_cases empty : s.taken = []
  · simp [empty]
  · simp only [empty,if_false,Option.map_eq_some_iff,Recorded.mk.injEq,ne_eq,not_false_eq_true,true_and]
    constructor
    · rintro ⟨k',key,rfl,rfl,rfl⟩
      exact ⟨key,rfl,rfl⟩
    · rintro ⟨key,rfl,rfl⟩
      exact ⟨k,key,rfl,rfl,rfl⟩

end JoinSite

-- Lists of recordings.

theorem sites_ok (ss : List JoinSite) (agree : ∀ s ∈ ss, Agree s.taken) :
    (ss.map fun s => recordedAt s.run s.after).mapM id = .ok (ss.map JoinSite.recorded?) := by
  induction ss with
  | nil => rfl
  | cons s ss ih =>
    have here : recordedAt s.run s.after = .ok s.recorded? := s.recordedAt_site.1 (agree s (by simp))
    rw [List.map_cons,List.mapM_cons,ih fun s' member => agree s' (List.mem_cons_of_mem _ member)]
    simp only [id,here]
    rfl

theorem sites_error (ss : List JoinSite) (member : s ∈ ss) (conflict : ¬ Agree s.taken) :
    ∃ fault, (ss.map fun s => recordedAt s.run s.after).mapM id = .error fault := by
  induction ss with
  | nil => cases member
  | cons s' ss ih =>
    rw [List.map_cons,List.mapM_cons]
    cases here : recordedAt s'.run s'.after with
    | error fault => exact ⟨fault,rfl⟩
    | ok r =>
      rcases List.mem_cons.mp member with rfl | later
      · obtain ⟨fault,failed⟩ := s.recordedAt_site.2 conflict
        cases here.symm.trans failed
      · obtain ⟨fault,failed⟩ := ih later
        exact ⟨fault,by rw [failed]; rfl⟩

theorem recordedOf_ok (agree : ∀ s ∈ joinSites [] ls, Agree s.taken) :
    recordedOf ls = .ok ((joinSites [] ls).filterMap JoinSite.recorded?) := by
  have sites : recordings [] ls = _ := recordings_sites [] ls
  rw [recordedOf,sites,sites_ok _ agree]
  simp [Functor.map,Except.map,List.filterMap_map]

theorem recordedOf_error (member : s ∈ joinSites [] ls) (conflict : ¬ Agree s.taken) : ∃ fault, recordedOf ls = .error fault := by
  have sites : recordings [] ls = _ := recordings_sites [] ls
  obtain ⟨fault,failed⟩ := sites_error _ member conflict
  exact ⟨fault,by rw [recordedOf,sites,failed]; rfl⟩

theorem inserts_fresh (hs : JoinHints) (rs : List Recorded) (fresh : (hs.map (·.1) ++ rs.map (·.key)).Nodup) :
    rs.foldl (fun hs r => hs.insert r.key r.hint) hs = hs ++ rs.map fun r => (r.key,r.hint) := by
  induction rs generalizing hs with
  | nil => simp
  | cons r rs ih =>
    have new : hs.insert r.key r.hint = hs ++ [(r.key,r.hint)] := by
      have kept : ∀ p ∈ hs, p.1 ≠ r.key := by
        intro p member same
        have apart := (List.nodup_append.mp fresh).2.2 p.1 (List.mem_map_of_mem member) r.key (by simp)
        exact apart same
      simpa [JoinHints.insert] using kept
    rw [List.foldl_cons,new,ih]
    · simp
    · simpa using fresh

theorem lookup_fresh {hs : JoinHints} (fresh : (hs.map (·.1)).Nodup) : hs.lookup k = some h ↔ (k,h) ∈ hs := by
  induction hs with
  | nil => simp
  | cons p hs ih =>
    obtain ⟨k',h'⟩ := p
    obtain ⟨new,fresh⟩ := List.nodup_cons.mp fresh
    rw [List.lookup_cons]
    by_cases same : k = k'
    · subst same
      have other : (k,h) ∉ hs := fun member => new (List.mem_map_of_mem (f := (·.1)) member)
      simp [other,eq_comm]
    · rw [beq_eq_false_iff_ne.mpr same]
      simp [same,ih fresh]

-- What is recorded of a list of lexemes, JOIN by JOIN.
structure Accounts (ls : List Lexeme) (rs : List Recorded) (hints : JoinHints) : Prop where
  -- A word is taken out under a key exactly if the hint there holds it.
  taken : ∀ w ∈ ls, ∀ k, (∃ r ∈ rs, r.key = k ∧ w.cut ∈ r.edits) ↔
    ∃ s ∈ joinSites [] ls, s.Counts w ∧ s.key? = some k ∧ ∃ h, hints.lookup k = some h ∧ h.Holds w
  words : ∀ r ∈ rs, ∀ e ∈ r.edits, ∃ w ∈ ls, w.cut = e
  -- No two JOINs have a word or a key in common.
  run : ∀ s ∈ joinSites [] ls, ∀ s' ∈ joinSites [] ls, ∀ w ∈ s.run, ∀ w' ∈ s'.run, w.start = w'.start → s = s'
  key : ∀ s ∈ joinSites [] ls, ∀ s' ∈ joinSites [] ls, ∀ k, s.key? = some k → s'.key? = some k → s = s'
  fresh : (rs.map (·.key)).Nodup
  kept : hints = rs.map fun r => (r.key,r.hint)
  size : hints.length = (joinSites [] ls).countP fun s => s.key?.isSome && decide (s.taken ≠ [])
  -- Without a key a JOIN keeps its words.
  keyless : ∀ s ∈ joinSites [] ls, s.key? = none → ∀ w ∈ s.run, ∀ r ∈ rs, w.cut ∉ r.edits
  found : ∀ s ∈ joinSites [] ls, s.key?.isSome = true → ∀ j : Join, j.right.start? = s.key? →
    hints.ofJoin? j = if s.taken = [] then none else some (.ofWords s.taken)

namespace JoinSite

theorem run_member (member : s ∈ joinSites [] ls) (inside : w ∈ s.run) : w ∈ ls := by
  obtain ⟨mid,rfl,front,_⟩ := mem_joinSites [] ls member
  have early : w ∈ s.front := runAtEnd_sub _ w inside
  rw [front,List.nil_append] at early
  exact List.mem_append_left _ early

theorem joinSites_run (distinct : (ls.map (·.start)).Nodup) (first : s ∈ joinSites [] ls) (second : s' ∈ joinSites [] ls)
    (inside : w ∈ s.run) (inside' : w' ∈ s'.run) (same : w.start = w'.start) : s = s' :=
  joinSites_share distinct first second fun apart => apart.words w inside w' inside' same

theorem joinSites_key (distinct : (ls.map (·.start)).Nodup) (first : s ∈ joinSites [] ls) (second : s' ∈ joinSites [] ls)
    (key : s.key? = some k) (key' : s'.key? = some k) : s = s' :=
  joinSites_share distinct first second fun apart => apart.keys k key key'

-- Places tell lexemes apart.
theorem cut_member (distinct : (ls.map (·.start)).Nodup) (inside : w ∈ ls) (member : s ∈ joinSites [] ls)
    (cut : w.cut ∈ s.taken.map Lexeme.cut) : w ∈ s.taken := by
  obtain ⟨w',taken,same⟩ := List.mem_map.mp cut
  have start : w'.start = w.start := congrArg Edit.start same
  have inside' : w' ∈ ls := run_member member (taken_run taken).1.1
  have same : w' = w := List.inj_on_of_nodup_map distinct inside' inside start
  exact same ▸ taken

end JoinSite

section

variable {ls : List Lexeme} (distinct : (ls.map (·.start)).Nodup)
include distinct

theorem recorded_fresh : (((joinSites [] ls).filterMap JoinSite.recorded?).map (·.key)).Nodup := by
  rw [List.Nodup,List.pairwise_map,List.pairwise_filterMap]
  refine (JoinSite.joinSites_apart [] ls distinct).imp fun apart r recorded r' recorded' same => ?_
  obtain ⟨_,key,_⟩ := JoinSite.recorded?_some.mp recorded
  obtain ⟨_,key',_⟩ := JoinSite.recorded?_some.mp recorded'
  exact apart.keys r.key key (same ▸ key')

theorem recordedHints_lookup : (recordedHints ls).lookup k = some h ↔
    ∃ s ∈ joinSites [] ls, s.taken ≠ [] ∧ s.key? = some k ∧ h = .ofWords s.taken := by
  rw [recordedHints,lookup_fresh (by rw [List.map_map]; exact recorded_fresh distinct)]
  simp only [List.mem_map,List.mem_filterMap,Prod.mk.injEq]
  constructor
  · rintro ⟨r,⟨s,member,recorded⟩,rfl,rfl⟩
    obtain ⟨more,key,hint,_⟩ := JoinSite.recorded?_some.mp recorded
    exact ⟨s,member,more,key,hint⟩
  · rintro ⟨s,member,more,key,rfl⟩
    exact ⟨⟨k,.ofWords s.taken,s.taken.map Lexeme.cut⟩,⟨s,member,JoinSite.recorded?_some.mpr ⟨more,key,rfl,rfl⟩⟩,rfl,rfl⟩

theorem recorded_accounts (agree : ∀ s ∈ joinSites [] ls, Agree s.taken) :
    Accounts ls ((joinSites [] ls).filterMap JoinSite.recorded?) (recordedHints ls) := by
  constructor
  case taken =>
    intro w inside k
    constructor
    · rintro ⟨r,recorded,rfl,cut⟩
      obtain ⟨s,member,recorded⟩ := List.mem_filterMap.mp recorded
      obtain ⟨more,key,hint,edits⟩ := JoinSite.recorded?_some.mp recorded
      have taken : w ∈ s.taken := JoinSite.cut_member distinct inside member (edits ▸ cut)
      obtain ⟨counts,removable⟩ := JoinSite.taken_run taken
      exact ⟨s,member,counts,key,_,(recordedHints_lookup distinct).mpr ⟨s,member,more,key,rfl⟩,
        JoinSite.holds_ofWords (agree s member) taken removable⟩
    · rintro ⟨s,member,counts,key,h,known,holds⟩
      obtain ⟨s',member',more,key',rfl⟩ := (recordedHints_lookup distinct).mp known
      cases JoinSite.joinSites_key distinct member member' key key'
      have taken : w ∈ s.taken := JoinSite.taken_of_holds counts holds
      exact ⟨⟨k,.ofWords s.taken,s.taken.map Lexeme.cut⟩,
        List.mem_filterMap.mpr ⟨s,member,JoinSite.recorded?_some.mpr ⟨more,key,rfl,rfl⟩⟩,rfl,List.mem_map_of_mem taken⟩
  case words =>
    intro r recorded e cut
    obtain ⟨s,member,recorded⟩ := List.mem_filterMap.mp recorded
    obtain ⟨_,_,_,edits⟩ := JoinSite.recorded?_some.mp recorded
    rw [edits] at cut
    obtain ⟨w,taken,rfl⟩ := List.mem_map.mp cut
    exact ⟨w,JoinSite.run_member member (JoinSite.taken_run taken).1.1,rfl⟩
  case run => exact fun s first s' second w inside w' inside' => JoinSite.joinSites_run distinct first second inside inside'
  case key => exact fun s first s' second k => JoinSite.joinSites_key distinct first second
  case fresh => exact recorded_fresh distinct
  case kept => rfl
  case size =>
    rw [recordedHints,List.length_map,List.length_filterMap_eq_countP]
    refine List.countP_congr fun s member => ?_
    unfold JoinSite.recorded?
    by_cases empty : s.taken = [] <;> simp [empty]
  case keyless =>
    intro s member key w inside r recorded cut
    obtain ⟨s',member',recorded⟩ := List.mem_filterMap.mp recorded
    obtain ⟨_,key',_,edits⟩ := JoinSite.recorded?_some.mp recorded
    have taken : w ∈ s'.taken := JoinSite.cut_member distinct (JoinSite.run_member member inside) member' (edits ▸ cut)
    cases JoinSite.joinSites_run distinct member member' inside (JoinSite.taken_run taken).1.1 rfl
    cases key.symm.trans key'
  case found =>
    intro s member known j start
    obtain ⟨k,key⟩ := Option.isSome_iff_exists.mp known
    rw [JoinHints.ofJoin?,start,key]
    change List.lookup k _ = _
    split
    · rename_i empty
      refine Option.eq_none_iff_forall_ne_some.mpr fun h found => ?_
      obtain ⟨s',member',more,key',_⟩ := (recordedHints_lookup distinct).mp found
      cases JoinSite.joinSites_key distinct member member' key key'
      exact more empty
    · exact (recordedHints_lookup distinct).mpr ⟨s,member,‹_›,key,rfl⟩

end

theorem cuts_inside {ls : List Lexeme} {es : List Edit} (cuts : ∀ e ∈ es, ∃ w ∈ ls, w.cut = e) :
    ∃ cut : List Lexeme, es = cut.map Lexeme.cut ∧ ∀ w ∈ cut, w ∈ ls := by
  induction es with
  | nil => exact ⟨[],rfl,by simp⟩
  | cons e es ih =>
    obtain ⟨w,inside,rfl⟩ := cuts e (by simp)
    obtain ⟨cut,rfl,sub⟩ := ih fun e' member => cuts e' (List.mem_cons_of_mem _ member)
    exact ⟨w :: cut,rfl,List.forall_mem_cons.mpr ⟨inside,sub⟩⟩

namespace PreparedText

theorem applyEdits_fault {x : LineIndex} {es : List Edit} (failed : es.foldlM (applyEdit x) text = .error e) :
    ∃ l, e = .wordOutsideText l := by
  induction es generalizing text with
  | nil => cases failed
  | cons edit es ih =>
    rw [List.foldlM_cons] at failed
    cases first : applyEdit x text edit with
    | ok text' =>
      rw [first] at failed
      exact ih failed
    | error e' =>
      rw [first] at failed
      cases failed
      unfold applyEdit at first
      split at first
      · cases first
        exact ⟨_,rfl⟩
      · cases first

theorem ofLexemes_sites (sql : List Char) (distinct : (ls.map (·.start)).Nodup) (agree : ∀ s ∈ joinSites [] ls, Agree s.taken) :
    ofLexemes sql ls = do
      return ⟨← (((joinSites [] ls).filterMap JoinSite.recorded?).flatMap (·.edits)).foldlM (applyEdit (.ofText sql)) sql,
        recordedHints ls⟩ := by
  have inserted := inserts_fresh [] ((joinSites [] ls).filterMap JoinSite.recorded?) (by simpa using recorded_fresh distinct)
  rw [ofLexemes,recordedOf_ok agree]
  change ofRecorded sql _ = _
  rw [ofRecorded,inserted]
  rfl

theorem ofLexemes_recorded (sql : List Char) (distinct : (ls.map (·.start)).Nodup) (agree : ∀ s ∈ joinSites [] ls, Agree s.taken) :
    ∃ rs hints, Accounts ls rs hints ∧ ofLexemes sql ls = do
      return ⟨← (rs.flatMap (·.edits)).foldlM (applyEdit (.ofText sql)) sql,hints⟩ :=
  ⟨_,_,recorded_accounts distinct agree,ofLexemes_sites sql distinct agree⟩

-- Where all words stand in the text they can be taken out.
theorem ofLexemes_done {sql : List Char} (parts : ∀ w ∈ ls, w.IsPart sql) (distinct : (ls.map (·.start)).Nodup)
    (agree : ∀ s ∈ joinSites [] ls, Agree s.taken) : ∃ text, ofLexemes sql ls = .ok ⟨text,recordedHints ls⟩ := by
  have cuts : ∀ e ∈ ((joinSites [] ls).filterMap JoinSite.recorded?).flatMap (·.edits), ∃ w ∈ ls, w.cut = e := by
    intro e member
    obtain ⟨r,recorded,cut⟩ := List.mem_flatMap.mp member
    exact (recorded_accounts distinct agree).words r recorded e cut
  obtain ⟨cut,edits,inside⟩ := cuts_inside cuts
  obtain ⟨text,applied⟩ := applyEdits_done (fun w member => parts w (inside w member)) sql
  rw [← edits] at applied
  exact ⟨text,by rw [ofLexemes_sites sql distinct agree,applied]; rfl⟩

-- A word is taken out of a text exactly if the one hint it belongs to holds it, and nothing else is.
theorem ofLexemes_accounts (sql : List Char) (ls : List Lexeme) (distinct : (ls.map (·.start)).Nodup) :
    (∀ d, lexemes d sql = ls → ofText d sql = ofLexemes sql ls) ∧
      ((∃ fault, ofLexemes sql ls = .error (.unsupportedJoin fault)) ↔ ∃ s ∈ joinSites [] ls, ¬ Agree s.taken) ∧
      (Located .start sql ls → ((∃ p, ofLexemes sql ls = .ok p) ↔ ∀ s ∈ joinSites [] ls, Agree s.taken)) ∧
      ∀ p, ofLexemes sql ls = .ok p → ∃ rs, Accounts ls rs p.hints ∧
        (rs.flatMap (·.edits)).foldlM (applyEdit (.ofText sql)) sql = .ok p.sql ∧ (p.hints = [] → p.sql = sql) := by
  refine ⟨fun d same => same ▸ ofText_lexemes d sql,?_⟩
  by_cases agree : ∀ s ∈ joinSites [] ls, Agree s.taken
  · obtain ⟨rs,hints,accounts,text⟩ := ofLexemes_recorded sql distinct agree
    refine ⟨⟨?_,?_⟩,fun located => ⟨fun _ => agree,fun _ => ?_⟩,fun p done => ⟨rs,?_⟩⟩
    · rintro ⟨fault,failed⟩
      rw [text] at failed
      cases applied : (rs.flatMap (·.edits)).foldlM (applyEdit (.ofText sql)) sql with
      | ok text' => rw [applied] at failed; cases failed
      | error e =>
        obtain ⟨l,rfl⟩ := applyEdits_fault applied
        rw [applied] at failed
        cases failed
    · rintro ⟨s,member,conflict⟩
      exact absurd (agree s member) conflict
    · obtain ⟨text',done⟩ := ofLexemes_done (fun w inside => located.isPart inside) distinct agree
      exact ⟨_,done⟩
    · rw [text] at done
      obtain ⟨text',applied,done⟩ := bind_ok.mp done
      cases done
      refine ⟨accounts,applied,fun none => ?_⟩
      have nothing : rs = [] := by simpa [accounts.kept] using none
      rw [nothing] at applied
      cases applied
      rfl
  · obtain ⟨s,member,conflict⟩ : ∃ s ∈ joinSites [] ls, ¬ Agree s.taken := by simpa using agree
    obtain ⟨fault,failed⟩ := recordedOf_error member conflict
    have refused : ofLexemes sql ls = .error (.unsupportedJoin fault) := by
      rw [ofLexemes,failed]
      rfl
    refine ⟨⟨fun _ => ⟨s,member,conflict⟩,fun _ => ⟨fault,refused⟩⟩,fun _ => ⟨?_,fun all => absurd all agree⟩,?_⟩
    · rintro ⟨p,done⟩
      cases refused.symm.trans done
    · intro p done
      cases refused.symm.trans done

-- A JOIN inside of the right side of another, two ASOF of which one stays, and an ALL that stays as its JOIN has no key.
theorem ofLexemes_accounts_nested :
    let sql := "SELECT * FROM a ASOF LOCAL ASOF LEFT JOIN (b ANY JOIN c) PASTE JOIN ((SELECT 1)) ALL JOIN 'x'".toList
    let ls := lexemes .generic sql
    (ls.map (·.start)).Nodup ∧ ofText .generic sql = ofLexemes sql ls ∧ ∃ p rs, ofLexemes sql ls = .ok p ∧ Accounts ls rs p.hints ∧
      p.sql = "SELECT * FROM a ASOF            LEFT JOIN (b     JOIN c) CROSS JOIN ((SELECT 1)) ALL JOIN 'x'".toList ∧
      p.hints.map (·.2) = [⟨some .perShard,some .asof,false⟩,⟨none,some .any,false⟩,⟨none,none,true⟩] := by
  intro sql ls
  have distinct : (ls.map (·.start)).Nodup := by decide +kernel
  obtain ⟨same,_,_,accounts⟩ := ofLexemes_accounts sql ls distinct
  have read : (ofLexemes sql ls).toOption.map (fun p => (p.sql,p.hints.map (·.2))) =
      some ("SELECT * FROM a ASOF            LEFT JOIN (b     JOIN c) CROSS JOIN ((SELECT 1)) ALL JOIN 'x'".toList,
        [⟨some .perShard,some .asof,false⟩,⟨none,some .any,false⟩,⟨none,none,true⟩]) := by
    decide +kernel
  cases done : ofLexemes sql ls with
  | error => rw [done] at read; cases read
  | ok p =>
    obtain ⟨rs,accounts,_⟩ := accounts p done
    rw [done] at read
    obtain ⟨text,hints⟩ := Prod.mk.inj (Option.some.inj read)
    exact ⟨distinct,(same .generic rfl).trans done,p,rs,rfl,accounts,text,hints⟩

end PreparedText

end JoinTree
