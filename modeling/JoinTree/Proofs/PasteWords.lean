import JoinTree.Proofs.JoinChain

/-!
FROM clauses in which PASTE is the only word that is taken out. Main statement: such a clause is left with CROSS in the
place of each PASTE, and the hint of a join tells whether a PASTE stood right in front of its JOIN.
-/

namespace JoinTree

open Sql
open JoinSpec (keptParts)

-- Lexemes with a JOIN and the name of a table behind each PASTE, and without other words that are taken out.
inductive Orderly : List Lexeme → Prop where
  | nil : Orderly []
  | idle {l : Lexeme} {ls : List Lexeme} : l.token.IsIdle → Orderly ls → Orderly (l :: ls)
  | paste {p j : Lexeme} {ls : List Lexeme} : p.isPaste = true → p.isJoin = false → j.isJoin = true → j.token.IsIdle →
      (rightStart? ls).isSome = true → Orderly ls → Orderly (p :: j :: ls)

theorem Sql.Lexeme.idle_paste {l : Lexeme} (idle : l.token.IsIdle) : l.isPaste = false := decide_eq_false (Token.idle_paste idle)

-- Lexemes that no PASTE ends, nor a run with one.
structure Settled (front : List Lexeme) : Prop where
  run : ∀ w ∈ runAtEnd front, w.token.IsIdle
  last : ∀ w, front.getLast? = some w → w.isPaste = false

namespace Settled

theorem nil : Settled [] := ⟨List.forall_mem_nil _,fun _ last => by cases last⟩

theorem idle (settled : Settled front) (here : l.token.IsIdle) : Settled (front ++ [l]) := by
  constructor
  · rw [runAtEnd_append]
    split
    · exact List.forall_mem_append.mpr ⟨settled.run,by simpa using here⟩
    · exact List.forall_mem_nil _
  · intro w last
    rw [List.getLast?_concat] at last
    exact Option.some.inj last ▸ Lexeme.idle_paste here

theorem join (front : List Lexeme) (join : l.isJoin = true) (here : l.token.IsIdle) : Settled (front ++ [l]) := by
  constructor
  · rw [runAtEnd_append,if_neg (by simp [Lexeme.isJoinWord,join])]
    exact List.forall_mem_nil _
  · intro w last
    rw [List.getLast?_concat] at last
    exact Option.some.inj last ▸ Lexeme.idle_paste here

end Settled

namespace JoinSite

-- Of idle words and PASTE only PASTE is taken.
theorem taken_pastes (s : JoinSite) (words : ∀ w ∈ s.run, w.token.IsIdle ∨ w.isPaste = true) :
    s.taken = s.run.filter Lexeme.isPaste := by
  have asof : lastAsof? s.run = none := by
    cases last : lastAsof? s.run with
    | none => rfl
    | some w =>
      obtain ⟨inside,role⟩ := lastAsof?_role last
      have other : JoinWord.ofToken? w.token = some .asof := role
      rcases words w inside with idle | paste
      · exact absurd (by simp [other]) idle
      · simp [Lexeme.isPaste,other] at paste
  have loose : s.run.filter Lexeme.isLoose = s.run.filter Lexeme.isPaste := by
    refine List.filter_congr fun w inside => ?_
    have role : w.role? = JoinWord.ofToken? w.token := rfl
    rcases words w inside with idle | paste
    · have other : [some .locality,some .all,some .any,some .paste].contains w.role? = false := by
        simp only [Token.IsIdle,List.mem_cons,List.not_mem_nil,or_false,not_or] at idle
        simp [role,idle]
      rw [Lexeme.idle_paste idle]
      exact other
    · rw [paste]
      simp only [Lexeme.isPaste,decide_eq_true_eq] at paste
      simp [Lexeme.isLoose,role,paste]
  rw [taken,loose,asof]
  simp

end JoinSite

namespace Settled

theorem pastes (settled : Settled front) : (runAtEnd front).filter Lexeme.isPaste = [] :=
  List.filter_eq_nil_iff.mpr fun w inside => by simp [Lexeme.idle_paste (settled.run w inside)]

theorem taken (settled : Settled front) (j : Lexeme) (after : List Lexeme) : (⟨front,j,after⟩ : JoinSite).taken = [] := by
  have words (w : Lexeme) (inside : w ∈ (⟨front,j,after⟩ : JoinSite).run) : w.token.IsIdle ∨ w.isPaste = true :=
    .inl (settled.run w inside)
  rw [JoinSite.taken_pastes _ words]
  exact settled.pastes

theorem taken_paste (settled : Settled front) (paste : p.isPaste = true) (other : p.isJoin = false) (j : Lexeme)
    (after : List Lexeme) : (⟨front ++ [p],j,after⟩ : JoinSite).taken = [p] := by
  have word : p.isJoinWord = true := by
    simp only [Lexeme.isPaste,decide_eq_true_eq] at paste
    simp [Lexeme.isJoinWord,other,Lexeme.role?,paste]
  have run : (⟨front ++ [p],j,after⟩ : JoinSite).run = runAtEnd front ++ [p] := by
    rw [JoinSite.run,runAtEnd_append,if_pos word]
  rw [JoinSite.taken_pastes,run,List.filter_append,settled.pastes]
  · simp [paste]
  · rw [run]
    intro w inside
    rcases List.mem_append.mp inside with early | last
    · exact .inl (settled.run w early)
    · exact .inr (List.mem_singleton.mp last ▸ paste)

end Settled

namespace Orderly

-- What is taken at a JOIN is the PASTE right in front of it.
theorem taken (orderly : Orderly ls) (settled : Settled front) :
    ∀ s ∈ joinSites front ls, s.taken = s.front.getLast?.toList.filter Lexeme.isPaste := by
  induction orderly generalizing front with
  | nil => exact List.forall_mem_nil _
  | @idle l ls here _ ih =>
    intro s member
    rw [joinSites] at member
    rcases List.mem_append.mp member with first | later
    · split at first
      · cases List.mem_singleton.mp first
        rw [settled.taken]
        cases last : front.getLast? with
        | none => rfl
        | some w => simp [settled.last w last]
      · cases first
    · exact ih (settled.idle here) s later
  | @paste p j ls paste other join here _ _ ih =>
    intro s member
    rw [joinSites,joinSites,other,join] at member
    simp only [Bool.false_eq_true,if_false,if_true,List.nil_append,List.singleton_append,List.mem_cons] at member
    rcases member with rfl | later
    · rw [settled.taken_paste paste other,List.getLast?_concat]
      simp [paste]
    · exact ih (.join _ join here) s later

-- Every PASTE is taken, in the order of the text.
theorem edits (orderly : Orderly ls) (settled : Settled front) :
    ((joinSites front ls).filterMap JoinSite.recorded?).flatMap (·.edits) = (ls.filter Lexeme.isPaste).map Lexeme.cut := by
  induction orderly generalizing front with
  | nil => rfl
  | @idle l ls here _ ih =>
    have later := ih (settled.idle here)
    have none : (⟨front,l,ls⟩ : JoinSite).recorded? = none := by simp [JoinSite.recorded?,settled.taken]
    rw [joinSites,List.filter_cons_of_neg (by simp [Lexeme.idle_paste here]),← later]
    split
    · rw [List.singleton_append,List.filterMap_cons_none none]
    · rfl
  | @paste p j ls paste other join here start _ ih =>
    have behind : Settled (front ++ [p] ++ [j]) := .join _ join here
    have later := ih behind
    obtain ⟨k,key⟩ := Option.isSome_iff_exists.mp start
    have recorded : (⟨front ++ [p],j,ls⟩ : JoinSite).recorded? = some ⟨k,.ofWords [p],[p.cut]⟩ := by
      have known : (⟨front ++ [p],j,ls⟩ : JoinSite).key? = some k := key
      simp [JoinSite.recorded?,settled.taken_paste paste other,known]
    rw [joinSites,joinSites,other,join,List.filter_cons_of_pos paste,List.filter_cons_of_neg (by simp [Lexeme.idle_paste here]),
      List.map_cons,← later]
    simp only [Bool.false_eq_true,if_false,if_true,List.nil_append,List.singleton_append,List.filterMap_cons_some recorded,
      List.flatMap_cons]

theorem agree (orderly : Orderly ls) : ∀ s ∈ joinSites [] ls, Agree s.taken := by
  intro s member
  rw [orderly.taken .nil s member]
  intro a inside b _ x y strict
  have paste := (List.mem_filter.mp inside).2
  simp only [Lexeme.isPaste,decide_eq_true_eq] at paste
  simp [Lexeme.strictness?,Lexeme.role?,paste] at strict

theorem append (idle : ∀ l ∈ front, l.token.IsIdle) (orderly : Orderly ls) : Orderly (front ++ ls) := by
  induction front with
  | nil => exact orderly
  | cons l front ih => exact .idle (idle l (by simp)) (ih fun k member => idle k (List.mem_cons_of_mem _ member))

end Orderly

-- The hint of a JOIN with a table behind it tells whether a PASTE stands in front.
def Told (hints : JoinHints) (ls : List Lexeme) : Prop :=
  ∀ front t j after, ls = front ++ t :: j :: after → j.isJoin = true → ∀ join : Join, join.right.start?.isSome = true →
    join.right.start? = rightStart? after → hints.ofJoin? join = if t.isPaste then some { paste := true } else none

theorem told_append {a b : List Lexeme} (told : Told hints (a ++ b)) : Told hints b := by
  intro front t j after split
  exact told (a ++ front) t j after (by rw [split,List.append_assoc])

theorem joinSites_mem (front : List Lexeme) {ls : List Lexeme} (join : j.isJoin = true) :
    ls = mid ++ j :: after → ⟨front ++ mid,j,after⟩ ∈ joinSites front ls := by
  induction mid generalizing front ls with
  | nil =>
    rintro rfl
    simp [joinSites,join]
  | cons l mid ih =>
    rintro rfl
    have later := ih (front ++ [l]) rfl
    rw [List.cons_append,joinSites]
    exact List.mem_append_right _ (by simpa using later)

theorem Orderly.told (orderly : Orderly ls) (distinct : (ls.map (·.start)).Nodup) : Told (recordedHints ls) ls := by
  intro front t j after split isJoin join some key
  have whole : ls = (front ++ [t]) ++ j :: after := by rw [split,List.append_assoc]; rfl
  have site : (⟨front ++ [t],j,after⟩ : JoinSite) ∈ joinSites [] ls := joinSites_mem [] isJoin whole
  have taken := orderly.taken .nil _ site
  have accounts := recorded_accounts distinct orderly.agree
  rw [accounts.found _ site (by rw [JoinSite.key?,← key]; exact some) join key,taken,List.getLast?_concat]
  cases paste : t.isPaste with
  | false => simp [paste]
  | true =>
    have role : t.role? = .some .paste := by simpa [Lexeme.isPaste,Lexeme.role?] using paste
    simp [paste,JoinHint.ofWords,role,Lexeme.strictness?]

-- What is left of the text, and what its hints say.
theorem PreparedText.ofText_turned (ps : List Part) (turns : ∀ p ∈ ps, p.Turns) (standing : Piece.Standing d none (Part.before ps))
    (orderly : Orderly (Piece.spelled .start (Part.before ps))) :
    ∃ hints, ofText d (Piece.text (Part.before ps)) = .ok ⟨Piece.text (Part.after ps),hints⟩ ∧
      Told hints (Piece.spelled .start (Part.before ps)) := by
  have distinct := Piece.spelled_places standing
  have scanned : lexemes d (Piece.text (Part.before ps)) = Piece.spelled .start (Part.before ps) := by
    rw [lexemes,Piece.scan_standing standing]
    rfl
  have edited := Part.edits_applied ps (fun p member => Part.turns_fits (turns p member))
    (show Text.byteLength [] = Text.byteLength [] from rfl)
  rw [show Location.start.pastAll [] = Location.start from rfl,Part.allEdits_spelled turns,← orderly.edits .nil] at edited
  refine ⟨_,?_,orderly.told distinct⟩
  rw [ofText_lexemes,scanned,ofLexemes_sites _ distinct orderly.agree]
  simp only [List.nil_append] at edited
  rw [edited]
  rfl

-- The words of a FROM clause are in order.

theorem rightStart_word (word : l.token = .word v q k) (ls : List Lexeme) : rightStart? (l :: ls) = some l.start := by
  obtain ⟨t,start,stop,gap⟩ := l
  cases word
  simp [rightStart?]

theorem rightStart_open (opening : l.token = .symbol .lparen) (ls : List Lexeme) : rightStart? (l :: ls) = rightStart? ls := by
  simp [rightStart?,opening]

theorem Chain.tokens_start (c : Chain) (fits : c.Fits d) :
    ∃ i ts, c.tokens = Ident.token i :: ts ∧ i.token.StartsTable ∧ i.IsWritable d := by
  obtain ⟨name,asName,links⟩ := c
  obtain ⟨⟨i,is,rfl,opening⟩,names,_⟩ := fits
  have first := names i (by simp)
  cases is with
  | nil => exact ⟨i,_,rfl,opening,first⟩
  | cons j is => exact ⟨i,_,rfl,opening,first⟩

theorem Chain.rightStart_tokens (c : Chain) (fits : c.Fits d) (frame : Bool) {front : List Lexeme}
    (shown : front.map (·.token) = Token.framed frame c.tokens) (rest : List Lexeme) :
    (rightStart? (front ++ rest)).isSome = true := by
  obtain ⟨i,ts,first,_⟩ := c.tokens_start fits
  obtain ⟨k,word⟩ := i.token_word
  cases frame with
  | false =>
    simp only [Token.framed,Bool.false_eq_true,if_false,first,List.map_eq_cons_iff] at shown
    obtain ⟨l,more,rfl,token,_⟩ := shown
    rw [List.cons_append,rightStart_word (token.trans word)]
    rfl
  | true =>
    simp only [Token.framed,if_true,first,List.cons_append,List.map_eq_cons_iff] at shown
    obtain ⟨o,_,rfl,opening,l,more,rfl,token,_⟩ := shown
    rw [List.cons_append,List.cons_append,rightStart_open opening,rightStart_word (token.trans word)]
    rfl

theorem idle_each {ls : List Lexeme} (shown : ls.map (·.token) = ts) (idle : ∀ t ∈ ts, Token.IsIdle t) : ∀ l ∈ ls, l.token.IsIdle := by
  intro l member
  exact idle _ (shown ▸ List.mem_map_of_mem member)

theorem idle_symbol {l : Lexeme} (token : l.token = .symbol s) : l.token.IsIdle := by
  rw [token]
  exact nofun

theorem framed_orderly (frame : Bool) {front : List Lexeme} (shown : front.map (·.token) = Token.framed frame ts)
    (inner : ∀ front rest, front.map (·.token) = ts → Orderly rest → Orderly (front ++ rest)) (orderly : Orderly rest) :
    Orderly (front ++ rest) := by
  cases frame with
  | false => exact inner front rest shown orderly
  | true =>
    simp only [Token.framed,if_true,List.map_eq_cons_iff,List.map_eq_append_iff,List.map_eq_nil_iff] at shown
    obtain ⟨o,_,rfl,opening,within,_,rfl,tokens,r,_,rfl,closing,rfl⟩ := shown
    have closed := inner within (r :: rest) tokens (.idle (idle_symbol closing) orderly)
    simpa using Orderly.idle (idle_symbol opening) closed

theorem link_orderly (kind : JoinKind) {front : List Lexeme} (shown : front.map (·.token) = kind.linkTokens)
    (start : (rightStart? rest).isSome = true) (orderly : Orderly rest) : Orderly (front ++ rest) := by
  by_cases paste : kind = .paste
  · subst paste
    have words : JoinKind.paste.linkTokens = [.word "PASTE" none none,.word "JOIN" none (some .JOIN)] := rfl
    simp only [words,List.map_eq_cons_iff,List.map_eq_nil_iff] at shown
    obtain ⟨p,_,rfl,first,j,_,rfl,second,rfl⟩ := shown
    refine .paste ?_ ?_ ?_ ?_ start orderly
    · simp only [Lexeme.isPaste,first]
      decide +kernel
    · simp [Lexeme.isJoin,isKeyword,first,Token.keyword?]
    · simp [Lexeme.isJoin,isKeyword,second,Token.keyword?]
    · rw [second]
      decide +kernel
  · refine .append (fun l member => ?_) orderly
    have idle : ∀ t ∈ kind.linkTokens, Token.IsIdle t := by
      cases kind <;> first | decide +kernel | exact absurd rfl paste
    exact idle _ (shown ▸ List.mem_map_of_mem member)

mutual
theorem Chain.orderly_tokens (c : Chain) (fits : c.Fits d) (front rest : List Lexeme) (shown : front.map (·.token) = c.tokens)
    (orderly : Orderly rest) : Orderly (front ++ rest) := by
  obtain ⟨name,asName,links⟩ := c
  obtain ⟨_,names,given,within⟩ := fits
  rw [Chain.tokens] at shown
  obtain ⟨table,behind,rfl,first,later⟩ := List.map_eq_append_iff.mp shown
  rw [List.append_assoc]
  refine .append (idle_each first ?_) (links.orderly_tokens within behind rest later orderly)
  exact List.forall_mem_append.mpr ⟨Token.name_idle names,Token.alias_idle given⟩
theorem Links.orderly_tokens (ls : Links) (fits : ls.Fits d) (front rest : List Lexeme) (shown : front.map (·.token) = ls.tokens)
    (orderly : Orderly rest) : Orderly (front ++ rest) := by
  cases ls with
  | nil =>
    rw [List.map_eq_nil_iff.mp shown]
    exact orderly
  | cons kind columns right more =>
    obtain ⟨_,_,names,within,later⟩ := fits
    rw [Links.tokens] at shown
    obtain ⟨_,behind,rfl,shown,last⟩ := List.map_eq_append_iff.mp shown
    obtain ⟨_,constraint,rfl,shown,columns⟩ := List.map_eq_append_iff.mp shown
    obtain ⟨words,operand,rfl,link,inner⟩ := List.map_eq_append_iff.mp shown
    have end' := more.orderly_tokens later behind rest last orderly
    have constrained := Orderly.append (idle_each columns (Token.using_idle names)) end'
    have right' := framed_orderly right.isJoined inner (right.orderly_tokens within) constrained
    simp only [List.append_assoc]
    exact link_orderly kind link (right.rightStart_tokens within _ inner _) right'
end

namespace Listing

theorem orderly_tokens (s : Listing) (fits : s.Fits d) (front : List Lexeme) (shown : front.map (·.token) = s.tokens) :
    Orderly front := by
  have others (cs : List Chain) (fits : ∀ c ∈ cs, Chain.Fits d c) (front : List Lexeme)
      (shown : front.map (·.token) = othersTokens cs) : Orderly front := by
    induction cs generalizing front with
    | nil =>
      rw [List.map_eq_nil_iff.mp shown]
      exact .nil
    | cons c cs ih =>
      rw [othersTokens,List.flatMap_cons] at shown
      obtain ⟨_,behind,rfl,shown,last⟩ := List.map_eq_append_iff.mp shown
      obtain ⟨comma,operand,rfl,token,inner⟩ := List.map_eq_cons_iff.mp shown
      have later := ih (fun c' member => fits c' (by simp [member])) behind last
      have entry := framed_orderly c.isJoined inner (c.orderly_tokens (fits c (by simp))) later
      exact .idle (idle_symbol token) entry
  obtain ⟨first,behind,rfl,tokens,last⟩ := List.map_eq_append_iff.mp shown
  exact s.first.orderly_tokens fits.1 first behind tokens (others s.others fits.2 behind last)

-- The text of a query for all columns.
def query (s : Listing) : List Part :=
  keptParts [.word "SELECT",.space,.symbol .mul,.space,.word "FROM",.space] ++ s.parts

def queryTokens (s : Listing) : List Token :=
  [.word "SELECT" none (some .SELECT),.symbol .mul,.word "FROM" none (some .FROM)] ++ s.tokens

section
variable {s : Listing} {d : Dialect} (fits : s.Fits d)
include fits

theorem reads_query : Piece.reads (Part.before s.query) = s.queryTokens := by
  have lead : Piece.reads [.word "SELECT",.space,.symbol .mul,.space,.word "FROM",.space] =
      [.word "SELECT" none (some .SELECT),.symbol .mul,.word "FROM" none (some .FROM)] := by decide +kernel
  rw [query,queryTokens,Part.before_append,JoinSpec.kept_before,Piece.reads_append,lead,s.reads_parts fits]

theorem standing_query : Piece.Standing d none (Part.before s.query) := by
  obtain ⟨standing,v,word⟩ := s.standing_parts fits
  have names : d.isBareName "SELECT".toList = true ∧ d.isBareName "FROM".toList = true := by cases d <;> decide
  have lead : Piece.Standing d none [.word "SELECT",.space,.symbol .mul,.space,.word "FROM",.space] :=
    ⟨⟨.inl names.1,rfl⟩,trivial,⟨nofun,rfl⟩,trivial,⟨.inl names.2,rfl⟩,trivial,trivial⟩
  rw [query,Part.before_append,JoinSpec.kept_before]
  exact Piece.standing_append lead standing (by rw [word]; exact nofun) (.inl rfl)

theorem turns_query : ∀ p ∈ s.query, p.Turns := by
  refine Part.append_turns (Part.kept_turns ?_) (s.turns_parts fits)
  have lead : ∀ t ∈ Piece.reads [.word "SELECT",.space,.symbol .mul,.space,.word "FROM",.space], t.IsIdle := by
    decide +kernel
  exact lead

-- What the grammar reads of the query: its words with CROSS in the place of PASTE, and hints that tell the two apart.
theorem prepared_query : ∃ hints ls, PreparedText.ofText d (Piece.text (Part.before s.query)) =
      .ok ⟨Piece.text (Part.after s.query),hints⟩ ∧ ls.map (·.token) = s.queryTokens ∧ Told hints ls ∧
      Token.scan d (Piece.text (Part.after s.query)) = .ok (ls.map Lexeme.turned) := by
  have standing := standing_query fits
  have turns := turns_query fits
  have shown := (Piece.spelled_tokens .start (Part.before s.query)).trans (reads_query fits)
  have orderly : Orderly (Piece.spelled .start (Part.before s.query)) := by
    obtain ⟨lead,front,same,first,tokens⟩ := List.map_eq_append_iff.mp shown
    have idle : ∀ t ∈ [Token.word "SELECT" none (some .SELECT),.symbol .mul,.word "FROM" none (some .FROM)],
        t.IsIdle := by decide +kernel
    rw [same]
    exact .append (idle_each first idle) (s.orderly_tokens fits front tokens)
  obtain ⟨hints,prepared,told⟩ := PreparedText.ofText_turned s.query turns standing orderly
  refine ⟨hints,_,prepared,shown,told,?_⟩
  have crossed : Piece.Standing d none (Part.after s.query) := by
    rw [Part.after_crossed turns]
    exact Piece.standing_crossed standing
  rw [Piece.scan_standing crossed,Part.spelled_turned turns]

end

end Listing

end JoinTree
