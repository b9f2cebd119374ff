import Mathlib.Data.List.TakeWhile
import JoinTree.Proofs.Recording
import JoinTree.Proofs.Exchange
import JoinTree.Proofs.Around

/-!
Words behind a period, which are parts of a name. Main statement: such a word stays in the text, and any other name may take its
place, as long as the JOINs around it would take it for no word of their own.
-/

namespace JoinTree

open Sql

-- Words and signs that neither end the clause of a JOIN nor are a part of it, parentheses apart.
def isOrdinary (t : Token) : Bool :=
  (JoinWord.ofToken? t).isNone && !isKeyword .JOIN t && !isKeyword .MATCH_CONDITION t && t ≠ .symbol .lparen && t ≠ .symbol .rparen

-- The JOIN right behind a run of join words.
def joinBehind? (ls : List Lexeme) : Option JoinSite :=
  match ls.dropWhile Lexeme.isJoinWord with
  | [] => none
  | l :: rest => if l.isJoin then some ⟨ls.takeWhile Lexeme.isJoinWord,l,rest⟩ else none

-- Whether a word right in front of its run is of no account for a JOIN.
def JoinSite.ignores (s : JoinSite) (w : Lexeme) : Bool :=
  match w.role? with
  | some .kind => (lastAsof? s.run).isNone || s.takesAsof
  | some .asof => (lastAsof? s.run).isSome || !s.takesAsof
  | some .modifier | some .global | none => true
  | some .locality | some .all | some .any | some .paste => false

-- Whether an ASOF in front of a JOIN is taken out only without a MATCH_CONDITION.
def JoinSite.asks (s : JoinSite) : Bool := (lastAsof? s.run).isSome && !s.run.any (·.role? = some .kind)

-- How deep in parentheses the clause of a JOIN still goes on behind some lexemes.
def clauseDepth? : Nat → List Lexeme → Option Nat
  | depth, [] => some depth
  | depth, l :: rest =>
    match l.token, depth with
    | .symbol .lparen, depth => clauseDepth? (depth + 1) rest
    | .symbol .rparen, 0 => none
    | .symbol .rparen, depth + 1 => clauseDepth? depth rest
    | t, 0 => if isKeyword .JOIN t || isKeyword .MATCH_CONDITION t then none else clauseDepth? 0 rest
    | _, depth => clauseDepth? depth rest

-- A part of a name that is of no account for the JOINs around it: neither for the one right behind it nor, as the end of its
-- clause or as its MATCH_CONDITION, for one in front of it.
structure Harmless (front : List Lexeme) (w : Lexeme) (after : List Lexeme) : Prop where
  run : ∀ s ∈ joinBehind? after, s.ignores w = true
  clause : ∀ s ∈ joinSites [] front, s.asks = true → clauseDepth? 0 s.after = some 0 →
    hasMatchCondition 0 (w :: after) = hasMatchCondition 0 after

instance (front : List Lexeme) (w : Lexeme) (after : List Lexeme) : Decidable (Harmless front w after) :=
  decidable_of_iff ((∀ s ∈ joinBehind? after, s.ignores w = true) ∧ ∀ s ∈ joinSites [] front, s.asks = true →
    clauseDepth? 0 s.after = some 0 → hasMatchCondition 0 (w :: after) = hasMatchCondition 0 after)
    ⟨fun ⟨run,clause⟩ => ⟨run,clause⟩,fun ⟨run,clause⟩ => ⟨run,clause⟩⟩

theorem hasMatchCondition_deep (opening : l.token ≠ .symbol .lparen) (closing : l.token ≠ .symbol .rparen) :
    hasMatchCondition (n + 1) (l :: rest) = hasMatchCondition (n + 1) rest := by
  rw [hasMatchCondition.eq_def]
  split <;> simp_all

theorem hasMatchCondition_ordinary (ordinary : isOrdinary l.token = true) : hasMatchCondition n (l :: rest) = hasMatchCondition n rest := by
  simp only [isOrdinary,Bool.and_eq_true,Bool.not_eq_true',decide_eq_true_eq] at ordinary
  obtain ⟨⟨⟨⟨_,join⟩,condition⟩,opening⟩,closing⟩ := ordinary
  cases n with
  | succ n => exact hasMatchCondition_deep opening closing
  | zero =>
    rw [hasMatchCondition.eq_def]
    split <;> simp_all

-- What stands behind counts as far as the clause goes on.
theorem hasMatchCondition_behind (same : ∀ m, clauseDepth? n xs = some m → hasMatchCondition m ys = hasMatchCondition m zs) :
    hasMatchCondition n (xs ++ ys) = hasMatchCondition n (xs ++ zs) := by
  fun_induction clauseDepth? n xs with
  | case1 n => exact same n rfl
  | case2 n l rest token ih => simp only [List.cons_append,hasMatchCondition,token,ih same]
  | case3 l rest token => simp only [List.cons_append,hasMatchCondition,token]
  | case4 l rest n token ih => simp only [List.cons_append,hasMatchCondition,token,ih same]
  | case5 l rest opening closing found =>
    simp only [List.cons_append,hasMatchCondition]
    simp only [Bool.or_eq_true] at found
    split
    · rfl
    · rw [if_pos (found.resolve_left ‹_›),if_pos (found.resolve_left ‹_›)]
  | case6 l rest opening closing other ih =>
    simp only [List.cons_append,hasMatchCondition,ih same]
  | case7 l rest n deep opening _ closing ih =>
    obtain ⟨n,rfl⟩ := Nat.exists_eq_succ_of_ne_zero deep
    have inside (more : List Lexeme) : hasMatchCondition (n + 1) (l :: more) = hasMatchCondition (n + 1) more :=
      hasMatchCondition_deep opening fun same => closing n same rfl
    rw [List.cons_append,List.cons_append,inside,inside,ih same]

namespace ClauseWords

-- What is known of the words in front of a run adds to what the run comes to.
def behind (kind : Bool) (asof : Option Lexeme) (w : ClauseWords) : ClauseWords :=
  { w with hasKind := kind || w.hasKind, asof := w.asof.or asof }

theorem add_behind (kind : Bool) (asof : Option Lexeme) (w : ClauseWords) (l : Lexeme) :
    (w.behind kind asof).add l = behind kind asof <$> w.add l := by
  unfold add
  split
  · rfl
  · have hint : (w.behind kind asof).hint = w.hint := rfl
    rw [hint]
    cases w.hint.withStrictness .all <;> rfl
  · have hint : (w.behind kind asof).hint = w.hint := rfl
    rw [hint]
    cases w.hint.withStrictness .any <;> rfl
  · rfl
  · rfl
  · simp [behind,Functor.map,Except.map]
  all_goals rfl

theorem adds_behind (kind : Bool) (asof : Option Lexeme) (w : ClauseWords) (run : List Lexeme) :
    run.foldlM add (w.behind kind asof) = behind kind asof <$> run.foldlM add w := by
  induction run generalizing w with
  | nil => rfl
  | cons l run ih =>
    rw [List.foldlM_cons,List.foldlM_cons,add_behind]
    cases w.add l with
    | error => rfl
    | ok w' => exact ih w'

end ClauseWords

-- What is recorded of the words of a run.
def ClauseWords.shown (w : ClauseWords) : JoinHint × List Edit := (w.hint,w.edits)

theorem recordedAt_shown (run after : List Lexeme) : recordedAt run after = (do
    let (hint,edits) ← ClauseWords.shown <$> ClauseWords.ofRun run after
    return if hint.isEmpty then none else (rightStart? after).map fun key => ⟨key,hint,edits⟩) := by
  unfold recordedAt
  cases ClauseWords.ofRun run after with
  | error fault => rfl
  | ok w =>
    simp only [bind,Except.bind,Functor.map,Except.map,ClauseWords.shown]
    split <;> rfl

namespace JoinSite

-- Such a word leaves the words that the run comes to as they are.
theorem closed_ignored (s : JoinSite) (ignored : s.ignores w = true) : ∃ kind asof, ({} : ClauseWords).add w = .ok (.behind kind asof {}) ∧
    ClauseWords.shown <$> ((ClauseWords.ofWords s.run).behind kind asof).closed s.after =
      ClauseWords.shown <$> (ClauseWords.ofWords s.run).closed s.after := by
  have takes : ((ClauseWords.ofWords s.run).hasKind || !hasMatchCondition 0 s.after) = s.takesAsof := rfl
  unfold ignores at ignored
  split at ignored
  · rename_i role
    have role : JoinWord.ofToken? w.token = some .kind := role
    refine ⟨true,none,by simp only [ClauseWords.add,role]; rfl,?_⟩
    cases last : lastAsof? s.run with
    | none => simp [ClauseWords.closed,ClauseWords.behind,ClauseWords.ofWords,ClauseWords.shown,last]
    | some l =>
      have asof : (ClauseWords.ofWords s.run).asof = some l := last
      rw [last] at ignored
      have takes := takes.trans ignored
      simp only [ClauseWords.closed,ClauseWords.behind,asof,takes,Option.some_or,Bool.true_or,if_true]
      cases (ClauseWords.ofWords s.run).hint.withStrictness .asof <;> rfl
  · rename_i role
    have role : JoinWord.ofToken? w.token = some .asof := role
    refine ⟨false,some w,by simp only [ClauseWords.add,role]; rfl,?_⟩
    cases last : lastAsof? s.run with
    | some l => simp [ClauseWords.closed,ClauseWords.behind,ClauseWords.ofWords,last]
    | none =>
      have asof : (ClauseWords.ofWords s.run).asof = none := last
      have keeps : s.takesAsof = false := by simpa [last] using ignored
      have stays := takes.trans keeps
      simp only [ClauseWords.closed,ClauseWords.behind,asof,stays,Option.none_or,Bool.false_or,Bool.false_eq_true,if_false]
      rfl
  · rename_i role
    have role : JoinWord.ofToken? w.token = some .modifier := role
    exact ⟨false,none,by simp only [ClauseWords.add,role]; rfl,by simp [ClauseWords.behind]⟩
  · rename_i role
    have role : JoinWord.ofToken? w.token = some .global := role
    exact ⟨false,none,by simp only [ClauseWords.add,role]; rfl,by simp [ClauseWords.behind]⟩
  · rename_i role
    have role : JoinWord.ofToken? w.token = none := role
    exact ⟨false,none,by simp only [ClauseWords.add,role]; rfl,by simp [ClauseWords.behind]⟩
  all_goals cases ignored

theorem adds_run (run : List Lexeme) : run.foldlM ClauseWords.add {} = .ok (.ofWords run) ∨
    ∃ fault, run.foldlM ClauseWords.add {} = .error fault := by
  have nothing : Agree ([].filter Lexeme.isLoose) := by simp [Agree]
  obtain ⟨agree,conflict⟩ := ClauseWords.adds_ofWords [] run nothing
  by_cases loose : Agree (run.filter Lexeme.isLoose)
  · exact .inl (agree loose)
  · exact .inr (conflict loose)

theorem recordedAt_ignored (s : JoinSite) (ignored : s.ignores w = true) :
    recordedAt (w :: s.run) s.after = recordedAt s.run s.after := by
  obtain ⟨kind,asof,added,closed⟩ := s.closed_ignored ignored
  have runs : ClauseWords.shown <$> ClauseWords.ofRun (w :: s.run) s.after = ClauseWords.shown <$> ClauseWords.ofRun s.run s.after := by
    rw [ClauseWords.ofRun,ClauseWords.ofRun,List.foldlM_cons,added]
    simp only [bind,Except.bind,ClauseWords.adds_behind]
    rcases adds_run s.run with done | ⟨fault,failed⟩
    · rw [done]
      exact closed
    · rw [failed]
      rfl
  rw [recordedAt_shown,recordedAt_shown,runs]

-- What stands behind a JOIN counts for its key and for an ASOF.
theorem recordedAt_behind (s : JoinSite) (key : rightStart? y = rightStart? z)
    (condition : s.asks = true → hasMatchCondition 0 y = hasMatchCondition 0 z) : recordedAt s.run y = recordedAt s.run z := by
  have runs : ClauseWords.ofRun s.run y = ClauseWords.ofRun s.run z := by
    rw [ClauseWords.ofRun,ClauseWords.ofRun]
    rcases adds_run s.run with done | ⟨fault,failed⟩
    · rw [done]
      change (ClauseWords.ofWords s.run).closed y = (ClauseWords.ofWords s.run).closed z
      unfold ClauseWords.closed
      cases last : lastAsof? s.run with
      | none => simp only [ClauseWords.ofWords,last]
      | some l =>
        cases kind : s.run.any (·.role? = some .kind) with
        | true => simp only [ClauseWords.ofWords,kind,Bool.true_or]
        | false => rw [condition (by simp [asks,last,kind])]
    · rw [failed]
      rfl
  rw [recordedAt,recordedAt,runs,key]

end JoinSite

theorem rightStart?_period (period : dot.token = .symbol .period) (xs ys zs : List Lexeme) :
    rightStart? (xs ++ dot :: ys) = rightStart? (xs ++ dot :: zs) := by
  have found (more : List Lexeme) : (xs ++ dot :: more).find? (fun l => l.token ≠ .symbol .lparen) =
      (xs ++ [dot]).find? (fun l => l.token ≠ .symbol .lparen) := by
    simp [List.find?_append,period]
  rw [rightStart?,rightStart?,found ys,found zs]

theorem joinBehind?_run (behind : joinBehind? ls = some s) : s.run = ls.takeWhile Lexeme.isJoinWord := by
  have words : ∀ w ∈ (ls.takeWhile Lexeme.isJoinWord).reverse, w.isJoinWord = true :=
    fun w inside => List.mem_takeWhile_imp (List.mem_reverse.mp inside)
  have whole : runAtEnd (ls.takeWhile Lexeme.isJoinWord) = ls.takeWhile Lexeme.isJoinWord := by
    rw [runAtEnd,List.takeWhile_eq_self_iff.mpr words,List.reverse_reverse]
  unfold joinBehind? at behind
  split at behind
  · cases behind
  · split at behind <;> cases behind
    exact whole

-- The next JOIN is recorded with the words up to it and those in front of them.
theorem recordings_run (run ls : List Lexeme) : recordings run ls =
    ((joinBehind? ls).map fun s => recordedAt (run ++ ls.takeWhile Lexeme.isJoinWord) s.after).toList ++
      recordings [] ((ls.dropWhile Lexeme.isJoinWord).drop 1) := by
  induction ls generalizing run with
  | nil => rfl
  | cons l ls ih =>
    rw [recordings]
    cases join : l.isJoin with
    | true =>
      have other : l.isJoinWord = false := by simp [Lexeme.isJoinWord,join]
      rw [Lexeme.isJoin] at join
      simp [join,joinBehind?,other,Lexeme.isJoin]
    | false =>
      have same : l.isJoinWord = (JoinWord.ofToken? l.token).isSome := by simp [Lexeme.isJoinWord,join,Lexeme.role?]
      rw [Lexeme.isJoin] at join
      simp only [join,Bool.false_eq_true,if_false,← same]
      cases word : l.isJoinWord with
      | true =>
        rw [if_pos rfl,ih]
        have later : (joinBehind? (l :: ls)).map (·.after) = (joinBehind? ls).map (·.after) := by
          simp only [joinBehind?,List.dropWhile_cons_of_pos word]
          cases ls.dropWhile Lexeme.isJoinWord with
          | nil => rfl
          | cons j rest => cases join : j.isJoin <;> simp [join]
        have recorded (whole : List Lexeme) (o : Option JoinSite) :
            o.map (fun s => recordedAt whole s.after) = (o.map (·.after)).map (recordedAt whole) := by cases o <;> rfl
        rw [recorded,recorded,later,List.takeWhile_cons_of_pos word,List.dropWhile_cons_of_pos word,List.append_assoc,
          List.singleton_append]
      | false => simp [joinBehind?,word,Lexeme.isJoin,join]

theorem joinSites_append (front xs ys : List Lexeme) : joinSites front (xs ++ ys) =
    (joinSites front xs).map (fun s => { s with after := s.after ++ ys }) ++ joinSites (front ++ xs) ys := by
  induction xs generalizing front with
  | nil => simp [joinSites]
  | cons l xs ih =>
    rw [List.cons_append,joinSites,joinSites,ih,List.map_append,List.append_assoc,List.append_assoc,List.singleton_append]
    split <;> rfl

theorem recordings_ignored (ignored : ∀ s ∈ joinBehind? ls, s.ignores w = true) : recordings [w] ls = recordings [] ls := by
  rw [recordings_run [w] ls,recordings_run [] ls]
  cases behind : joinBehind? ls with
  | none => rfl
  | some s =>
    have same := s.recordedAt_ignored (ignored s behind)
    rw [joinBehind?_run behind] at same
    simp only [Option.map_some,Option.toList,List.singleton_append,List.nil_append,same]

theorem recordedAt_none (after : List Lexeme) : recordedAt [] after = .ok none := rfl

-- The JOINs around a word behind a period. The word itself may be one, without words of its own.
theorem recordings_dotted (period : dot.token = .symbol .period) (front : List Lexeme) (w : Lexeme) (after : List Lexeme) :
    recordings [] (front ++ dot :: w :: after) =
      (joinSites [] front).map (fun s => recordedAt s.run (s.after ++ dot :: w :: after)) ++
        (if w.isJoin then [.ok none] else []) ++ recordings (if w.isJoinWord then [w] else []) after := by
  have sign : dot.isJoin = false ∧ dot.isJoinWord = false := by
    simp [Lexeme.isJoin,Lexeme.isJoinWord,Lexeme.role?,isKeyword,Token.keyword?,JoinWord.ofToken?,period]
  have sites : recordings [] (front ++ dot :: w :: after) = _ := recordings_sites [] _
  have before : runAtEnd (front ++ [dot]) = [] := by rw [runAtEnd_append,sign.2]; rfl
  have later := recordings_sites (front ++ [dot] ++ [w]) after
  rw [runAtEnd_append,before,List.nil_append] at later
  rw [sites,joinSites_append,later,List.nil_append,joinSites,joinSites,sign.1]
  simp only [Bool.false_eq_true,if_false,List.nil_append,List.map_append,List.map_map,List.append_assoc]
  cases w.isJoin with
  | false => rfl
  | true =>
    have run : JoinSite.run ⟨front ++ [dot],w,after⟩ = [] := before
    simp only [if_true,List.map_cons,List.map_nil,run,recordedAt_none]
    rfl

section

variable {dot w o : Lexeme} {front after : List Lexeme} (period : dot.token = .symbol .period) (word : w.token = .word v q k)
include period word

-- An ASOF in front of the word finds the same MATCH_CONDITION behind another one.
theorem recordedAt_exchange (harmless : Harmless front w after) (ordinary : isOrdinary o.token = true) (member : s ∈ joinSites [] front) :
    recordedAt s.run (s.after ++ dot :: w :: after) = recordedAt s.run (s.after ++ dot :: o :: after) := by
  refine s.recordedAt_behind (rightStart?_period period _ _ _) fun asks => hasMatchCondition_behind fun m depth => ?_
  have sign : isOrdinary dot.token = true := by
    rw [period]
    rfl
  rw [hasMatchCondition_ordinary sign,hasMatchCondition_ordinary sign,hasMatchCondition_ordinary ordinary]
  cases m with
  | zero => exact harmless.clause s member asks depth
  | succ m => exact hasMatchCondition_deep (by rw [word]; nofun) (by rw [word]; nofun)

-- An ordinary name gives the same recordings, for a JOIN less if the word is JOIN.
theorem recordings_exchange (harmless : Harmless front w after) (ordinary : isOrdinary o.token = true) : ∃ rs rs',
    recordings [] (front ++ dot :: w :: after) = rs ++ (if w.isJoin then [.ok none] else []) ++ rs' ∧
      recordings [] (front ++ dot :: o :: after) = rs ++ rs' := by
  have name : o.isJoin = false ∧ o.isJoinWord = false := by
    simp only [isOrdinary,Bool.and_eq_true,Bool.not_eq_true',Option.isNone_iff_eq_none] at ordinary
    simp [Lexeme.isJoinWord,Lexeme.isJoin,Lexeme.role?,ordinary]
  refine ⟨(joinSites [] front).map fun s => recordedAt s.run (s.after ++ dot :: o :: after),recordings [] after,?_,?_⟩
  · have behind : recordings (if w.isJoinWord then [w] else []) after = recordings [] after := by
      split
      · exact recordings_ignored harmless.run
      · rfl
    rw [recordings_dotted period,behind,List.map_congr_left fun s member => recordedAt_exchange period word harmless ordinary member]
  · simp [recordings_dotted period,name]

end

-- A JOIN without words adds nothing.

theorem mapM_idle (rs rs' : List (Except JoinFault (Option Recorded))) :
    (·.filterMap id) <$> (rs ++ .ok none :: rs').mapM id = (·.filterMap id) <$> (rs ++ rs').mapM id := by
  induction rs with
  | nil =>
    rw [List.nil_append,List.nil_append,List.mapM_cons]
    cases rs'.mapM id <;> rfl
  | cons r rs ih =>
    have step (more : Except JoinFault (List (Option Recorded))) : (·.filterMap id) <$> (do return (← id r) :: (← more)) = (do
        let r ← r
        return r.toList ++ (← (·.filterMap id) <$> more)) := by
      cases r with
      | error fault => rfl
      | ok r => cases r <;> cases more <;> rfl
    rw [List.cons_append,List.cons_append,List.mapM_cons,List.mapM_cons,step,step,ih]

theorem noted_idle (rs rs' : List (Except JoinFault (Option Recorded))) :
    ((rs ++ .ok none :: rs').takeWhile fun r => r.toBool).filterMap (fun r => r.toOption.bind id) =
      ((rs ++ rs').takeWhile fun r => r.toBool).filterMap (fun r => r.toOption.bind id) := by
  induction rs with
  | nil => rfl
  | cons r rs ih =>
    rw [List.cons_append,List.cons_append,List.takeWhile_cons,List.takeWhile_cons]
    split
    · rw [List.filterMap_cons,List.filterMap_cons,ih]
    · rfl

section

variable {dot w o : Lexeme} {front after : List Lexeme} (period : dot.token = .symbol .period) (word : w.token = .word v q k)
include period word

theorem recordedOf_exchange (harmless : Harmless front w after) (ordinary : isOrdinary o.token = true) :
    recordedOf (front ++ dot :: w :: after) = recordedOf (front ++ dot :: o :: after) := by
  obtain ⟨rs,rs',before,behind⟩ := recordings_exchange period word harmless ordinary
  rw [recordedOf,recordedOf,before,behind]
  split
  · rw [List.append_assoc]
    exact mapM_idle rs rs'
  · rw [List.append_nil]

theorem edits_exchange (harmless : Harmless front w after) (ordinary : isOrdinary o.token = true)
    (read : PreparedText.lexemes d sql = front ++ dot :: w :: after) (changed : PreparedText.lexemes d sql' = front ++ dot :: o :: after) :
    PreparedText.edits d sql' = PreparedText.edits d sql := by
  obtain ⟨rs,rs',before,behind⟩ := recordings_exchange period word harmless ordinary
  have same : PreparedText.noted d sql' = PreparedText.noted d sql := by
    rw [PreparedText.noted,PreparedText.noted,read,changed,before,behind]
    split
    · rw [List.append_assoc]
      exact (noted_idle rs rs').symm
    · rw [List.append_nil]
  rw [PreparedText.edits,PreparedText.edits,same]

end

theorem recordedOf_cuts (done : recordedOf ls = .ok rs) : Cuts ls (rs.flatMap (·.edits)) := by
  obtain ⟨fs,found,rfl⟩ := map_ok.mp done
  refine .flatMap fun r member => recordings_cuts [] ls r (PreparedText.noted_member ?_)
  rwa [PreparedText.found_noted found]

-- Nothing is taken out between the lexemes around an ordinary name.
theorem recordedOf_sides (period : dot.token = .symbol .period) (ordinary : isOrdinary o.token = true)
    (done : recordedOf (front ++ dot :: o :: after) = .ok rs) :
    ∃ ws : List Lexeme, rs.flatMap (·.edits) = ws.map Lexeme.cut ∧ ∀ w ∈ ws, w ∈ front ++ after := by
  obtain ⟨ws,same,words⟩ := recordedOf_cuts done
  refine ⟨ws,same,fun w member => ?_⟩
  obtain ⟨inside,removable⟩ := words w member
  simp only [isOrdinary,Bool.and_eq_true,Option.isNone_iff_eq_none] at ordinary
  have other : w ≠ dot ∧ w ≠ o := by
    constructor <;> rintro rfl
    · simp [Lexeme.isRemovable,period,JoinWord.ofToken?] at removable
    · simp [Lexeme.isRemovable,ordinary] at removable
  simpa [other] using inside

-- A name that may take the place of a word and that is no word of a JOIN.
structure TakesPlace (d : Dialect) (v b v' : List Char) : Prop extends Dotted.Fills d v b v' where
  ordinary : isOrdinary (.ofWord (.ofList v')) = true

namespace PreparedText

-- A part of a name stays where it is. With another name in its place a text has the same words taken out and the same hints,
-- or the same fault.
theorem ofText_dotted {sql : List Char} (read : lexemes d sql = front ++ dot :: w :: after) (period : dot.token = .symbol .period)
    (word : w.token = .word v none k) (quiet : d.opensComments = true → ¬ Token.openingMark <:+: sql) (harmless : Harmless front w after) :
    ∃ a b, sql = a ++ v.toList ++ b ∧ w.start = Location.start.pastAll a ∧
      ((∃ fault, ofText d sql = .error (.unsupportedJoin fault) ∧
          ∀ v', TakesPlace d v.toList b v' → ofText d (a ++ v' ++ b) = .error (.unsupportedJoin fault)) ∨
        ∃ x y hints, Text.byteLength x = Text.byteLength a ∧ Text.byteLength y = Text.byteLength b ∧
          ofText d sql = .ok ⟨x ++ v.toList ++ y,hints⟩ ∧
          ∀ v', TakesPlace d v.toList b v' → ofText d (a ++ v' ++ b) = .ok ⟨x ++ v' ++ y,hints⟩) ∧
      ∀ v', TakesPlace d v.toList b v' → edits d (a ++ v' ++ b) = edits d sql := by
  obtain ⟨a,b,rfl,dotted⟩ := Dotted.exists_parts read period word quiet
  have changed (v' : List Char) (takes : TakesPlace d v.toList b v') := dotted.exchange quiet takes.toFills
  have recorded (v' : List Char) (takes : TakesPlace d v.toList b v') : recordedOf (lexemes d (a ++ v' ++ b)) =
      recordedOf (lexemes d (a ++ v.toList ++ b)) := by
    rw [changed v' takes,read]
    exact (recordedOf_exchange (o := { w with token := .ofWord (.ofList v') }) period word harmless takes.ordinary).symm
  have place (v' : List Char) (takes : TakesPlace d v.toList b v') :
      Location.start.pastAll (a ++ v') = Location.start.pastAll (a ++ v.toList) := by
    rw [Location.pastAll_append,takes.place,← Location.pastAll_append]
  refine ⟨a,b,rfl,dotted.place,?_,fun v' takes =>
    edits_exchange (o := { w with token := .ofWord (.ofList v') }) period word harmless takes.ordinary read (changed v' takes)⟩
  have prepared (u : List Char) : ofText d (a ++ u ++ b) = ofLexemes (a ++ u ++ b) (lexemes d (a ++ u ++ b)) := ofText_lexemes d _
  cases found : recordedOf (lexemes d (a ++ v.toList ++ b)) with
  | error fault =>
    refine .inl ⟨fault,?_,fun v' takes => ?_⟩
    · rw [prepared,ofLexemes,found]
      rfl
    · rw [prepared,ofLexemes,recorded v' takes,found]
      rfl
  | ok rs =>
    have ordinary : isOrdinary (.ofWord "a") = true := by decide
    have same := recordedOf_exchange (o := { w with token := .ofWord "a" }) period word harmless ordinary
    obtain ⟨ws,cuts,inside⟩ := recordedOf_sides (o := { w with token := .ofWord "a" }) period ordinary
      (same.symm.trans (read ▸ found))
    obtain ⟨before,behind⟩ := dotted.located quiet
    obtain ⟨x,y,left,right,text⟩ := applyEdits_around before behind ws inside (.refl a) (.refl b)
    have shown (u : List Char) (ends : Location.start.pastAll (a ++ u) = Location.start.pastAll (a ++ v.toList)) :
        ofRecorded (a ++ u ++ b) rs = .ok ⟨x ++ u ++ y,rs.foldl (fun hs r => hs.insert r.key r.hint) []⟩ := by
      rw [ofRecorded,cuts,text u ends]
      rfl
    refine .inr ⟨x,y,rs.foldl (fun hs r => hs.insert r.key r.hint) [],left.size,right.size,?_,fun v' takes => ?_⟩
    · rw [prepared,ofLexemes,found]
      exact shown v.toList rfl
    · rw [prepared,ofLexemes,recorded v' takes,found]
      exact shown v' (place v' takes)

-- A column of the name JOIN in the clause of an ASOF JOIN.
theorem ofText_dotted_join :
    let sql := "SELECT 1 FROM a ASOF LOCAL JOIN b ON a.join = b.c".toList
    let sql' := "SELECT 1 FROM a ASOF LOCAL JOIN b ON a.abcd = b.c".toList
    ∃ x y hints, hints.map (·.2) = [⟨some .perShard,some .asof,false⟩] ∧ ofText .clickHouse sql = .ok ⟨x ++ "join".toList ++ y,hints⟩ ∧
      ofText .clickHouse sql' = .ok ⟨x ++ "abcd".toList ++ y,hints⟩ ∧ edits .clickHouse sql' = edits .clickHouse sql := by
  intro sql sql'
  let dot : Lexeme := ⟨.symbol .period,⟨1,39⟩,⟨1,40⟩,[]⟩
  let w : Lexeme := ⟨.word "join" none (some .JOIN),⟨1,40⟩,⟨1,44⟩,[(.space,⟨1,44⟩)]⟩
  have concrete : lexemes .clickHouse sql = (lexemes .clickHouse sql).take 10 ++ dot :: w :: (lexemes .clickHouse sql).drop 12 ∧
      Harmless ((lexemes .clickHouse sql).take 10) w ((lexemes .clickHouse sql).drop 12) ∧
      (ofText .clickHouse sql).toOption.map (fun p => p.hints.map (·.2)) = some [⟨some .perShard,some .asof,false⟩] := by
    decide +kernel
  obtain ⟨read,harmless,known⟩ := concrete
  obtain ⟨a,b,whole,place,text,edits⟩ := ofText_dotted read rfl rfl nofun harmless
  have parts : sql = "SELECT 1 FROM a ASOF LOCAL JOIN b ON a.".toList ++ ("join".toList ++ " = b.c".toList) ∧
      sql' = "SELECT 1 FROM a ASOF LOCAL JOIN b ON a.".toList ++ ['a','b','c','d'] ++ " = b.c".toList ∧
      w.start = Location.start.pastAll "SELECT 1 FROM a ASOF LOCAL JOIN b ON a.".toList := by
    decide +kernel
  rw [List.append_assoc] at whole
  obtain ⟨rfl,behind⟩ := Token.front_place (whole.symm.trans parts.1) (place.symm.trans parts.2.2)
  cases List.append_cancel_left behind
  have takes : TakesPlace .clickHouse "join".toList " = b.c".toList ['a','b','c','d'] := by
    refine ⟨⟨by decide +kernel,by decide +kernel,by decide,fun c cs same => ?_,nofun⟩,by decide +kernel⟩
    cases same
    decide +kernel
  rcases text with ⟨fault,failed,_⟩ | ⟨x,y,hints,_,_,done,changed⟩
  · rw [failed] at known
    cases known
  · rw [done] at known
    exact ⟨x,y,hints,Option.some.inj known,done,parts.2.1 ▸ changed _ takes,parts.2.1 ▸ edits _ takes⟩

-- LOCAL is taken out although it is a part of a name.
theorem dotted_local_taken :
    let sql := "SELECT 1 FROM a, b.local JOIN c".toList
    let sql' := "SELECT 1 FROM a, b.abcde JOIN c".toList
    ∃ front dot w after, lexemes .clickHouse sql = front ++ dot :: w :: after ∧ dot.token = .symbol .period ∧
      w.token = .word "local" none (some .LOCAL) ∧ w.cut ∈ edits .clickHouse sql ∧ edits .clickHouse sql' = [] ∧
      (ofText .clickHouse sql).toOption.map (fun p => (p.sql,p.hints.length)) = some ("SELECT 1 FROM a, b.      JOIN c".toList,1) ∧
      (ofText .clickHouse sql').toOption.map (fun p => (p.sql,p.hints.length)) = some (sql',0) := by
  intro sql sql'
  refine ⟨(lexemes .clickHouse sql).take 6,⟨.symbol .period,⟨1,19⟩,⟨1,20⟩,[]⟩,
    ⟨.word "local" none (some .LOCAL),⟨1,20⟩,⟨1,25⟩,[(.space,⟨1,25⟩)]⟩,(lexemes .clickHouse sql).drop 8,?_⟩
  decide +kernel

end PreparedText

end JoinTree
