import JoinTree.Proofs.Recording

/-!
Texts of words, names between quotes, and the symbols and spaces around them. Main statement: such a text is read as what
it is put together of, and where CROSS takes the place of PASTE every other lexeme stays as it was.
-/

namespace JoinTree

open Sql

namespace Sql

namespace Token

-- Each quote is written twice.
def doubled (q : Char) (cs : List Char) : List Char := cs.flatMap fun c => if c = q then [q,q] else [c]

section
variable {q : Char} {rest : List Char} (closed : rest.head? ≠ some q)
include closed

theorem quotedBody_doubled (cs : List Char) :
    quotedBody q false (doubled q cs ++ q :: rest) = some (cs,(doubled q cs).length + 1) := by
  induction cs with
  | nil =>
    cases rest with
    | nil => simp [doubled,quotedBody]
    | cons r rest =>
      have other : r ≠ q := by simpa using closed
      simp [doubled,quotedBody,other]
  | cons c cs ih =>
    simp only [doubled] at ih
    rw [doubled,List.flatMap_cons]
    split
    · rename_i same
      simp only [List.cons_append,List.nil_append]
      rw [quotedBody.eq_def]
      simp [ih,same]
    · rename_i other
      rw [List.singleton_append,List.cons_append,quotedBody.eq_def]
      simp [other,ih]

theorem first_quoted (quote : q = '"' ∨ q = '\x60') (cs : List Char) :
    first d prev q (doubled q cs ++ q :: rest) = .ok (.quotedWord (.ofList cs) q,(doubled q cs).length + 1) := by
  have body := quotedBody_doubled closed cs
  rcases quote with rfl | rfl
  all_goals
    unfold first
    simp [body]

end

end Token

namespace Piece

def IsQuoted (cs : List Char) : Prop := ∃ q inner, cs = q :: (Token.doubled q inner ++ [q]) ∧ (q = '"' ∨ q = '\x60')

-- What a piece is read as if a word may be a name between quotes.
def read : Piece → Token
  | word v =>
    match v.toList with
    | q :: body =>
      if q = '"' || q = '\x60' then .quotedWord (.ofList (((Token.quotedBody q false body).map (·.1)).getD [])) q else .ofWord v
    | [] => .ofWord v
  | p => p.token

theorem read_quoted (quote : q = '"' ∨ q = '\x60') (inner : List Char) :
    read (.word (.ofList (q :: (Token.doubled q inner ++ [q])))) = .quotedWord (.ofList inner) q := by
  have body := Token.quotedBody_doubled (show ([] : List Char).head? ≠ some q from nofun) inner
  rcases quote with rfl | rfl <;> simp [read,body]

theorem read_bare {d : Dialect} (name : d.isBareName v.toList = true) : read (.word v) = .ofWord v := by
  obtain ⟨c,cs,shown,starts,_⟩ := Token.bareName_cons d v name
  have other : c ≠ '"' ∧ c ≠ '\x60' := by
    constructor <;> (rintro rfl; cases d <;> cases starts)
  simp [read,shown,other]

theorem read_word (v : String) : ∃ u q k, read (.word v) = .word u q k := by
  simp only [read]
  split
  · split <;> exact ⟨_,_,_,rfl⟩
  · exact ⟨_,_,_,rfl⟩

-- What a text is read as.
def reads (ps : List Piece) : List Token := (ps.filter (· ≠ .space)).map read

theorem reads_append (a b : List Piece) : reads (a ++ b) = reads a ++ reads b := by
  simp [reads]

theorem reads_space (ps : List Piece) : reads (.space :: ps) = reads ps := rfl

theorem reads_word (v : String) (ps : List Piece) : reads (.word v :: ps) = read (.word v) :: reads ps := by
  simp [reads]

theorem reads_symbol (s : Symbol) (ps : List Piece) : reads (.symbol s :: ps) = .symbol s :: reads ps := by
  simp [reads,read,token]

-- Whether a piece is read as itself between two others.
def Stands (d : Dialect) (before next : Option Piece) : Piece → Prop
  | word v => (d.isBareName v.toList = true ∨ IsQuoted v.toList) ∧ next.all (!·.isWord) = true
  | symbol s => s ≠ .minus ∧ separates before next s = true
  | space => True

def Standing (d : Dialect) : (before : Option Piece) → List Piece → Prop
  | _, [] => True
  | before, p :: ps => p.Stands d before ps.head? ∧ Standing d (some p) ps

-- Only a period needs to know what stands in front of it.
theorem standing_first (standing : Standing d before ps) (other : ps.head? ≠ some (.symbol .period)) : Standing d before' ps := by
  cases ps with
  | nil => trivial
  | cons p ps =>
    refine ⟨?_,standing.2⟩
    cases p with
    | word | space => exact standing.1
    | symbol s =>
      refine ⟨standing.1.1,?_⟩
      have separated := standing.1.2
      revert other separated
      cases s <;> simp [separates]

-- Two texts run into each other where a word meets another one.
theorem standing_append (first : Standing d before ps) (second : Standing d none qs)
    (other : qs.head? ≠ some (.symbol .period)) (apart : ps.getLast?.any isWord = false ∨ qs.head?.any isWord = false) :
    Standing d before (ps ++ qs) := by
  induction ps generalizing before with
  | nil => exact standing_first second other
  | cons p ps ih =>
    cases ps with
    | nil =>
      refine ⟨?_,standing_first second other⟩
      cases p with
      | space => trivial
      | word v =>
        have next : qs.head?.any isWord = false := by simpa [isWord] using apart
        refine ⟨first.1.1,?_⟩
        cases head : qs.head? with
        | none => simp [head]
        | some q => simpa [head] using next
      | symbol s =>
        refine ⟨first.1.1,?_⟩
        have separated := first.1.2
        have minus := first.1.1
        revert separated minus
        cases s <;> simp [separates]
    | cons q ps => exact ⟨first.1,ih first.2 (by simpa using apart)⟩

theorem stands_chars (p : Piece) (stands : p.Stands d before next) : p.chars ≠ [] := by
  cases p with
  | space => exact List.cons_ne_nil _ _
  | symbol s => cases s <;> exact nofun
  | word v =>
    rcases stands.1 with name | ⟨q,inner,shown,_⟩
    · obtain ⟨c,cs,shown,_⟩ := Token.bareName_cons d v name
      simp [chars,shown]
    · simp [chars,shown]

theorem first_stands (p : Piece) (standing : Standing d before (p :: ps))
    (after_word : before.any isWord = true → ∃ v q k, prev = some (.word v q k)) :
    ∃ c cs, p.chars = c :: cs ∧ Token.first d prev c (cs ++ text ps) = .ok (p.read,cs.length) := by
  have ⟨stands,later⟩ := standing
  have known (s : Symbol) (next : ps.head? = some (.symbol s)) : s ∈ symbols := by
    cases ps with
    | nil => cases next
    | cons q ps =>
      cases next
      exact separates_symbol later.1.2
  cases p with
  | space => exact ⟨' ',[],rfl,rfl⟩
  | word v =>
    have ends := text_boundary d stands.2 known
    rcases stands.1 with name | ⟨q,inner,shown,quote⟩
    · obtain ⟨c,cs,shown,_⟩ := Token.bareName_cons d v name
      have word := name
      rw [shown] at word
      refine ⟨c,cs,shown,?_⟩
      rw [Token.first_word d prev word ends,← shown,String.ofList_toList,read_bare name]
    · have closed : (text ps).head? ≠ some q := by
        intro same
        rw [same] at ends
        rcases quote with rfl | rfl <;> simp [Dialect.endsName] at ends
      have whole : v = .ofList (q :: (Token.doubled q inner ++ [q])) := by rw [← shown,String.ofList_toList]
      refine ⟨q,Token.doubled q inner ++ [q],shown,?_⟩
      rw [List.append_assoc,List.singleton_append,Token.first_quoted closed quote,whole,read_quoted quote,
        List.length_append,List.length_singleton]
  | symbol s =>
    refine Token.first_symbol d stands.2 stands.1 after_word fun word => ?_
    cases ps with
    | nil => cases word
    | cons p ps =>
      cases p with
      | space | symbol => cases word
      | word w =>
        rcases later.1.1 with name | ⟨q,inner,shown,quote⟩
        · obtain ⟨c,cs,shown,digit,_⟩ := Token.bareName_head d w name
          exact ⟨c,cs ++ text ps,by rw [text_cons,chars,shown]; rfl,digit⟩
        · refine ⟨q,Token.doubled q inner ++ [q] ++ text ps,by rw [text_cons,chars,shown]; rfl,?_⟩
          rcases quote with rfl | rfl <;> rfl

-- Each piece where it stands.
def readings : Location → List Piece → List Lexeme
  | _, [] => []
  | l, p :: ps => ⟨p.read,l,l.pastAll p.chars,[]⟩ :: readings (l.pastAll p.chars) ps

theorem scanFrom_standing (standing : Standing d before ps)
    (after_word : before.any isWord = true → ∃ v q k, prev = some (.word v q k)) :
    Token.scanFrom d (Token.openComment d) prev l 0 (text ps) = .ok (readings l ps) := by
  induction ps generalizing before prev l with
  | nil => rfl
  | cons p ps ih =>
    obtain ⟨c,cs,shown,first⟩ := first_stands p standing after_word
    have plain : ∀ s, p.read ≠ .blank (.blockComment s) := by
      cases p with
      | word v =>
        obtain ⟨u,q,k,same⟩ := read_word v
        rw [same]
        exact nofun
      | symbol s | space => exact nofun
    have later : Token.scanFrom d (Token.openComment d) (some p.read) (l.pastAll p.chars) 0 (text ps) =
        .ok (readings (l.pastAll p.chars) ps) := by
      refine ih standing.2 fun word => ?_
      cases p with
      | word v =>
        obtain ⟨u,q,k,same⟩ := read_word v
        exact ⟨u,q,k,by rw [same]⟩
      | symbol s | space => cases word
    rw [text_cons,Token.scanFrom_token p.chars plain shown first,later]
    rfl

-- The lexemes of a text.
def spelled (l : Location) (ps : List Piece) : List Lexeme := (Token.gathered (readings l ps)).2

theorem scan_standing (standing : Standing d none ps) : Token.scan d (text ps) = .ok (spelled .start ps) := by
  unfold Token.scan
  rw [scanFrom_standing standing (by simp)]
  rfl

theorem spelled_tokens (l : Location) (ps : List Piece) : (spelled l ps).map (·.token) = reads ps := by
  have tokens : (readings l ps).map (·.token) = ps.map read := by
    induction ps generalizing l with
    | nil => rfl
    | cons p ps ih => simp [readings,ih]
  have blank : (fun p : Piece => !p.read.isBlank) = fun p => decide (p ≠ .space) := by
    funext p
    cases p with
    | space => rfl
    | symbol s => rfl
    | word v =>
      obtain ⟨u,q,k,same⟩ := read_word v
      simp [same,Token.isBlank]
  rw [spelled,Token.gathered_tokens,tokens,List.filter_map]
  exact congrArg (fun f => (ps.filter f).map read) blank

theorem standing_chars (standing : Standing d before ps) : ∀ p ∈ ps, p.chars ≠ [] := by
  induction ps generalizing before with
  | nil => exact List.forall_mem_nil _
  | cons p ps ih =>
    intro q member
    rcases List.mem_cons.mp member with rfl | later
    · exact stands_chars q standing.1
    · exact ih standing.2 q later

theorem readings_places (filled : ∀ p ∈ ps, p.chars ≠ []) :
    (∀ w ∈ readings l ps, ¬ w.start < l) ∧ ((readings l ps).map (·.start)).Nodup := by
  induction ps generalizing l with
  | nil => exact ⟨List.forall_mem_nil _,.nil⟩
  | cons p ps ih =>
    obtain ⟨behind,distinct⟩ := ih (l := l.pastAll p.chars) fun q member => filled q (List.mem_cons_of_mem _ member)
    have step : l < l.pastAll p.chars := l.lt_pastAll (filled p (by simp))
    have later (w : Lexeme) (member : w ∈ readings (l.pastAll p.chars) ps) : l < w.start := by
      have here := behind w member
      simp only [Location.lt_iff] at step here ⊢
      omega
    have still : ¬ l < l := by simp [Location.lt_iff]
    constructor
    · intro w member
      rcases List.mem_cons.mp member with rfl | member
      · exact still
      · have after := later w member
        simp only [Location.lt_iff] at after ⊢
        omega
    · refine List.nodup_cons.mpr ⟨fun member => ?_,distinct⟩
      obtain ⟨w,inside,same⟩ := List.mem_map.mp member
      have after := later w inside
      rw [same] at after
      exact still after

end Piece

namespace Token

theorem gathered_blank (blank : l.token = .blank b) : gathered (l :: ls) = ((b,l.start) :: (gathered ls).1,(gathered ls).2) := by
  simp [gathered,blank]

theorem gathered_token (other : l.token.isBlank = false) :
    gathered (l :: ls) = ([],{ l with gap := (gathered ls).1 } :: (gathered ls).2) := by
  cases token : l.token with
  | blank b => simp [token,isBlank] at other
  | _ => simp [gathered,token]

theorem isBlank_cases (t : Token) : t.isBlank = false ∨ ∃ b, t = .blank b := by
  cases t with
  | blank b => exact .inr ⟨b,rfl⟩
  | _ => exact .inl rfl

-- Whatever the blanks behind a lexeme have no part in is that of a lexeme that was gathered.
theorem gathered_sublist {f : Lexeme → α} (free : ∀ l gap, f { l with gap } = f l) (ls : List Lexeme) :
    ((gathered ls).2.map f).Sublist (ls.map f) := by
  induction ls with
  | nil => exact .slnil
  | cons l ls ih =>
    rcases isBlank_cases l.token with other | ⟨b,blank⟩
    · rw [gathered_token other,List.map_cons,free]
      exact ih.cons_cons _
    · rw [gathered_blank blank]
      exact ih.cons _

end Token

-- No two lexemes of a text start at one place.
theorem Piece.spelled_places (standing : Standing d none ps) : ((spelled .start ps).map (·.start)).Nodup :=
  (Token.gathered_sublist (fun _ _ => rfl) _).nodup (readings_places (standing_chars standing)).2

-- CROSS in place of PASTE.

def Lexeme.turned (w : Lexeme) : Lexeme := if w.isPaste then { w with token := .ofWord "CROSS" } else w

theorem Lexeme.turned_gap (l : Lexeme) (gap : List (Blank × Location)) : ({ l with gap } : Lexeme).turned = { l.turned with gap } := by
  unfold turned isPaste
  split <;> rfl

theorem Token.gathered_turned (ls : List Lexeme) :
    gathered (ls.map Lexeme.turned) = ((gathered ls).1,(gathered ls).2.map Lexeme.turned) := by
  induction ls with
  | nil => rfl
  | cons l ls ih =>
    rw [List.map_cons]
    rcases isBlank_cases l.token with other | ⟨b,blank⟩
    · have word : l.turned.token.isBlank = false := by
        unfold Lexeme.turned
        split
        · rfl
        · exact other
      have gap := l.turned_gap (gathered ls).1
      rw [gathered_token other,gathered_token word,ih]
      simp only [List.map_cons,gap]
    · have same : l.turned = l := if_neg (by simp [Lexeme.isPaste,blank,JoinWord.ofToken?])
      rw [same,gathered_blank blank,gathered_blank blank,ih]

end Sql

namespace Sql.Piece

def crossed (p : Piece) : Piece := if p = .word "PASTE" then .word "CROSS" else p

theorem crossed_cases (p : Piece) : p = .word "PASTE" ∧ p.crossed = .word "CROSS" ∨ p.crossed = p := by
  unfold crossed
  split
  · exact .inl ⟨‹_›,rfl⟩
  · exact .inr rfl

theorem crossed_word (p : Piece) : p.crossed.isWord = p.isWord := by
  rcases crossed_cases p with ⟨rfl,same⟩ | same
  · rw [same]
    rfl
  · rw [same]

theorem crossed_space (p : Piece) : p.crossed = .space ↔ p = .space := by
  rcases crossed_cases p with ⟨rfl,same⟩ | same <;> rw [same]
  exact ⟨nofun,nofun⟩

theorem stands_crossed (stands : Stands d before next p) : Stands d (before.map crossed) (next.map crossed) p.crossed := by
  have words (o : Option Piece) : (o.map crossed).any isWord = o.any isWord := by cases o <;> simp [crossed_word]
  cases p with
  | space => trivial
  | symbol s =>
    refine ⟨stands.1,?_⟩
    have separated := stands.2
    have minus := stands.1
    revert separated minus
    cases s <;> cases next <;> simp [separates,words,crossed_space,crossed_word]
  | word v =>
    have apart : (next.map crossed).all (!·.isWord) = true := by
      have given := stands.2
      cases next with
      | none => rfl
      | some q => simpa [crossed_word] using given
    rcases crossed_cases (.word v) with ⟨same,shown⟩ | shown <;> rw [shown]
    · exact ⟨.inl (by cases d <;> decide),apart⟩
    · exact ⟨stands.1,apart⟩

-- CROSS stands where PASTE does.
theorem standing_crossed (standing : Standing d before ps) : Standing d (before.map crossed) (ps.map crossed) := by
  induction ps generalizing before with
  | nil => trivial
  | cons p ps ih =>
    have here := stands_crossed standing.1
    exact ⟨by rwa [List.head?_map],ih standing.2⟩

end Sql.Piece

namespace Part

-- A part that stays, or the word PASTE.
def Turns (p : Part) : Prop := p = ⟨.word "PASTE",.replaced "CROSS"⟩ ∨ p.fate = .kept ∧ JoinWord.ofToken? p.piece.read ≠ some .paste

theorem turns_fits {p : Part} (turns : p.Turns) : p.Fits := by
  rcases turns with rfl | ⟨kept,_⟩
  · exact ⟨rfl,rfl⟩
  · simp [Fits,kept]

theorem after_crossed (turns : ∀ p ∈ ps, Turns p) : after ps = (before ps).map Piece.crossed := by
  induction ps with
  | nil => rfl
  | cons p ps ih =>
    have later := ih fun q member => turns q (List.mem_cons_of_mem _ member)
    have here : p.left = [p.piece.crossed] := by
      rcases turns p (by simp) with rfl | ⟨kept,other⟩
      · rfl
      · rcases Piece.crossed_cases p.piece with ⟨paste,_⟩ | same
        · exact absurd (by rw [paste]; decide) other
        · rw [same,left,kept]
    simp only [before,after,List.flatMap_cons,List.map_cons,here] at later ⊢
    rw [later]
    rfl

theorem readings_turned (turns : ∀ p ∈ ps, Turns p) :
    Piece.readings l (after ps) = (Piece.readings l (before ps)).map Lexeme.turned := by
  induction ps generalizing l with
  | nil => rfl
  | cons p ps ih =>
    have later {l : Location} := ih (l := l) fun q member => turns q (List.mem_cons_of_mem _ member)
    rcases turns p (by simp) with rfl | ⟨kept,other⟩
    · have place : l.pastAll "CROSS".toList = l.pastAll "PASTE".toList := rfl
      simp only [before,after,List.flatMap_cons,List.map_cons,left,List.singleton_append,Piece.readings,Piece.chars,place] at later ⊢
      rw [later]
      rfl
    · have left : p.left = [p.piece] := by simp [Part.left,kept]
      simp only [before,after,List.flatMap_cons,List.map_cons,left,List.singleton_append,Piece.readings] at later ⊢
      rw [later]
      have same (l : Location) : (⟨p.piece.read,l,l.pastAll p.piece.chars,[]⟩ : Lexeme).turned =
          ⟨p.piece.read,l,l.pastAll p.piece.chars,[]⟩ := if_neg (by simpa [Lexeme.isPaste] using other)
      rw [same]

theorem spelled_turned (turns : ∀ p ∈ ps, Turns p) :
    Piece.spelled l (after ps) = (Piece.spelled l (before ps)).map Lexeme.turned := by
  rw [Piece.spelled,readings_turned turns,Token.gathered_turned]
  rfl

-- The edits of the parts are those that take out the words PASTE.
theorem allEdits_spelled (turns : ∀ p ∈ ps, Turns p) :
    allEdits l ps = ((Piece.spelled l (before ps)).filter Lexeme.isPaste).map Lexeme.cut := by
  have gaps (ls : List Lexeme) : ((Token.gathered ls).2.filter Lexeme.isPaste).map Lexeme.cut =
      (ls.filter Lexeme.isPaste).map Lexeme.cut := by
    induction ls with
    | nil => rfl
    | cons l ls ih =>
      rcases Token.isBlank_cases l.token with other | ⟨b,blank⟩
      · rw [Token.gathered_token other]
        cases paste : l.isPaste with
        | true => rw [List.filter_cons_of_pos (by exact paste),List.filter_cons_of_pos paste,List.map_cons,List.map_cons,ih]; rfl
        | false => rw [List.filter_cons_of_neg (by exact Bool.not_eq_true _ ▸ paste),List.filter_cons_of_neg (by simp [paste]),ih]
      · have word : l.isPaste = false := by simp [Lexeme.isPaste,blank,JoinWord.ofToken?]
        rw [Token.gathered_blank blank,List.filter_cons_of_neg (by simp [word]),ih]
  rw [Piece.spelled,gaps]
  induction ps generalizing l with
  | nil => rfl
  | cons p ps ih =>
    have later {l : Location} := ih (l := l) fun q member => turns q (List.mem_cons_of_mem _ member)
    rcases turns p (by simp) with rfl | ⟨kept,other⟩
    · rw [allEdits,later]
      rfl
    · have none : p.edits l = [] := by simp [edits,kept]
      have same : (⟨p.piece.read,l,l.pastAll p.piece.chars,[]⟩ : Lexeme).isPaste = false := by simpa [Lexeme.isPaste] using other
      have first : Piece.readings l (before (p :: ps)) =
          ⟨p.piece.read,l,l.pastAll p.piece.chars,[]⟩ :: Piece.readings (l.pastAll p.piece.chars) (before ps) := rfl
      rw [allEdits,none,later,first,List.filter_cons_of_neg (by simp [same])]
      rfl

end Part

end JoinTree
