import JoinTree.Proofs.Outcome
import JoinTree.Proofs.WordRemoval

/-!
Lexemes and the characters that they were read from. Main statement: the scan gives the lexemes of a text in its order,
apart from each other, each with the place of its own characters, as long as no comment is opened.
-/

namespace JoinTree

open Sql

namespace Sql.Location

-- The order in which a text is read.
instance : LT Location := ⟨fun a b => a.line < b.line ∨ a.line = b.line ∧ a.column < b.column⟩

theorem lt_iff (a b : Location) : a < b ↔ a.line < b.line ∨ a.line = b.line ∧ a.column < b.column := Iff.rfl

instance (a b : Location) : Decidable (a < b) := decidable_of_iff _ (lt_iff a b).symm

theorem lt_past (l : Location) (c : Char) : l < l.past c := by
  rw [lt_iff,past]
  split <;> simp

theorem pastAll_not_lt (l : Location) (cs : List Char) : ¬ l.pastAll cs < l := by
  induction cs generalizing l with
  | nil => simp [pastAll,lt_iff]
  | cons c cs ih =>
    have first := l.lt_past c
    have later : ¬ l.pastAll (c :: cs) < l.past c := ih (l.past c)
    simp only [lt_iff] at first later ⊢
    omega

theorem lt_pastAll (l : Location) (more : cs ≠ []) : l < l.pastAll cs := by
  obtain ⟨c,cs,rfl⟩ := List.exists_cons_of_ne_nil more
  have first := l.lt_past c
  have later : ¬ l.pastAll (c :: cs) < l.past c := pastAll_not_lt (l.past c) cs
  simp only [lt_iff] at first later ⊢
  omega

end Sql.Location

-- A bare word has the characters that it was read from.
def Sql.Lexeme.Spells (w : Lexeme) (own : List Char) : Prop :=
  match w.token with
  | .word v none _ => own = v.toList
  | _ => True

-- The lexemes of a text that begins at a place, in its order and apart from each other, each on its own characters.
inductive Located : Location → List Char → List Lexeme → Prop where
  | done : Located l rest []
  | next {w : Lexeme} {ws : List Lexeme} {l : Location} {rest : List Char} (gap own : List Char) :
      w.start = l.pastAll gap → w.stop = w.start.pastAll own → w.Spells own → Located w.stop rest ws →
      Located l (gap ++ own ++ rest) (w :: ws)

namespace Located

theorem widen (front : List Char) (located : Located (l.pastAll front) cs ws) : Located l (front ++ cs) ws := by
  cases located with
  | done => exact .done
  | next gap own start stop spells rest =>
    rw [← List.append_assoc,← List.append_assoc]
    exact .next _ _ (by rw [start,Location.pastAll_append]) stop spells rest

theorem split (located : Located l cs ws) (member : w ∈ ws) : ∃ front own rest,
    cs = front ++ own ++ rest ∧ w.start = l.pastAll front ∧ w.stop = w.start.pastAll own ∧ w.Spells own := by
  induction located with
  | done => cases member
  | next gap own start stop spells _ ih =>
    rcases List.mem_cons.mp member with rfl | later
    · exact ⟨gap,own,_,rfl,start,stop,spells⟩
    · obtain ⟨front,own',rest,rfl,start',stop',spells'⟩ := ih later
      refine ⟨gap ++ own ++ front,own',rest,by simp only [List.append_assoc],?_,stop',spells'⟩
      rw [start',stop,start,Location.pastAll_append,Location.pastAll_append]

theorem not_before (located : Located l cs ws) (member : w ∈ ws) : ¬ w.start < l := by
  obtain ⟨front,_,_,_,start,_⟩ := located.split member
  rw [start]
  exact l.pastAll_not_lt front

-- Of two lexemes, one ends before the other begins.
theorem apart (located : Located l cs ws) : ws.Pairwise fun a b => ¬ b.start < a.stop := by
  induction located with
  | done => exact .nil
  | next _ _ _ _ _ rest ih => exact .cons (fun _ member => rest.not_before member) ih

end Located

namespace Sql.Token

-- Neither a bare word nor a block comment.
def isPlain : Token → Bool
  | word _ none _ => false
  | blank (.blockComment _) => false
  | _ => true

-- What a step gives for a text: a word of the characters that it takes, a block comment with the body behind its opening
-- mark, or some other token.
inductive Gives (d : Dialect) (c : Char) (cs : List Char) : Token → Nat → Prop where
  | word : v.toList = (c :: cs).take (n + 1) → Gives d c cs (ofWord v) n
  | comment : c = '/' → cs = '*' :: rest → commentBody d.nestsComments 0 rest = some (s,n) →
      Gives d c cs (.blank (.blockComment (.ofList s))) (n + 1)
  | plain : isPlain t = true → Gives d c cs t n

theorem numeral_plain (read : numeral d prev cs = .ok (t,n)) : isPlain t = true := by
  simp only [numeral] at read
  repeat' split at read
  all_goals
    cases read
    try rfl

theorem lineComment_plain (read : lineComment mark cs = .ok (t,n)) : isPlain t = true := by
  cases read
  rfl

theorem markedString_plain (read : markedString mark front quote escapes cs = .ok (t,n)) : isPlain t = true := by
  unfold markedString at read
  split at read <;> cases read
  rfl

theorem rawString_plain (read : rawString quote cs = .ok (t,n)) : isPlain t = true := by
  unfold rawString at read
  repeat' split at read
  all_goals
    cases read
    try rfl

theorem delimitedString_plain (read : delimitedString mark front cs = .ok (t,n)) : isPlain t = true := by
  unfold delimitedString at read
  repeat' split at read
  all_goals
    cases read
    try rfl

theorem dollar_plain (read : dollar cs = .ok (t,n)) : isPlain t = true := by
  unfold dollar at read
  dsimp only at read
  repeat' split at read
  all_goals
    cases read
    try rfl

theorem bareWord_gives (opening : List Char) (read : bareWord d (c :: opening) cs = .ok (t,n)) : Gives d c (opening ++ cs) t n := by
  cases read
  refine .word ?_
  have size : (c :: opening).length + (cs.takeWhile d.continuesName).length - 1 + 1 =
      (c :: opening ++ cs.takeWhile d.continuesName).length := by simp
  have whole : c :: (opening ++ cs) = (c :: opening ++ cs.takeWhile d.continuesName) ++ cs.dropWhile d.continuesName := by
    simp [List.takeWhile_append_dropWhile]
  rw [size,whole,List.take_left,String.toList_ofList]

theorem unicode_plain (read : (do let (s,n) ← unicodeBody 3 0 cs; Except.ok (ofMarked .unicode ['\''] s,n + 2)) = .ok (t,n)) :
    isPlain t = true := by
  cases body : unicodeBody 3 0 cs with
  | error fault => simp [body,bind,Except.bind] at read
  | ok p =>
    rw [body] at read
    cases read
    rfl

theorem lettered_gives (read : lettered d c cs = .ok (t,n)) : Gives d c cs t n := by
  simp only [lettered] at read
  split at read
  case h_1 =>
    split at read
    · exact .plain (markedString_plain read)
    · exact bareWord_gives [] read
  case h_2 =>
    split at read
    · exact .plain (rawString_plain read)
    · exact bareWord_gives [] read
  case h_3 =>
    split at read
    · exact .plain (delimitedString_plain read)
    · exact bareWord_gives [] read
  case h_4 => exact .plain (markedString_plain read)
  case h_5 =>
    split at read
    · exact .plain (delimitedString_plain read)
    · exact bareWord_gives [] read
  case h_6 => exact .plain (markedString_plain read)
  case h_7 =>
    split at read
    · split at read <;> cases read
      exact .plain rfl
    · exact bareWord_gives [] read
  case h_8 =>
    split at read
    · exact .plain (unicode_plain read)
    · exact bareWord_gives [] read
  case h_9 => exact bareWord_gives [] read

theorem sigil_gives (read : sigil d c cs = .ok (t,n)) : Gives d c cs t n := by
  simp only [sigil] at read
  repeat' split at read
  all_goals first
    | exact bareWord_gives [_] read
    | exact bareWord_gives [_,_] read
    | (cases read; exact .plain rfl)

theorem gives_plain (other : isPlain t = true) (read : (.ok (t,n) : Step) = .ok (t',n')) : Gives d c cs t' n' := by
  cases read
  exact .plain other

-- One of the two branches of a step was read.
theorem ite_read {p : Prop} [Decidable p] {P : Prop} {a b : Step} (yes : p → a = .ok r → P) (no : b = .ok r → P)
    (read : (if p then a else b) = .ok r) : P := by
  split at read
  · exact yes ‹p› read
  · exact no read

-- The choices of a step, in their order.
theorem first_gives (read : first d prev c cs = .ok (t,n)) : Gives d c cs t n := by
  revert read
  unfold first
  refine ite_read (fun _ => gives_plain rfl) <| ite_read (fun _ => gives_plain rfl) <| ite_read (fun _ => gives_plain rfl) <|
    ite_read (fun _ => gives_plain rfl) <| ite_read (fun _ => lettered_gives) <| ite_read (fun _ read => ?_) <|
    ite_read (fun _ read => ?_) <| ite_read (fun _ read => .plain (numeral_plain read)) <|
    ite_read (fun _ read => .plain (lineComment_plain read)) <| ite_read (fun opening read => ?_) <|
    ite_read (fun _ read => .plain (lineComment_plain read)) <| ite_read (fun _ read => .plain (lineComment_plain read)) fun read => ?_
  · split at read
    · exact gives_plain rfl read
    · cases read
  · split at read
    · exact gives_plain rfl read
    · cases read
  · simp only [Bool.and_eq_true,decide_eq_true_eq] at opening
    obtain ⟨slash,star⟩ := opening
    obtain ⟨rest,rfl⟩ := List.head?_eq_some_iff.mp star
    split at read
    · cases read
      exact .comment slash rfl ‹_›
    · cases read
  · split at read
    · exact gives_plain rfl read
    · revert read
      exact ite_read (fun _ => sigil_gives) <| ite_read (fun _ => gives_plain rfl) <| ite_read (fun _ => bareWord_gives []) <|
        ite_read (fun _ read => .plain (dollar_plain read)) <| ite_read (fun _ => gives_plain rfl) (gives_plain rfl)

-- A bare word is the keyword that its characters make it.
def Known : Token → Prop
  | word v none k => k = Keyword.ofText? v
  | _ => True

theorem plain_known (plain : isPlain t = true) : Known t := by
  cases t with
  | word v quote k =>
    cases quote with
    | none => cases plain
    | some q => trivial
  | _ => trivial

theorem Gives.known (given : Gives d c cs t n) : Known t := by
  cases given with
  | word => exact (rfl : _ = _)
  | comment => trivial
  | plain other => exact plain_known other

theorem Gives.spells (given : Gives d c cs t n) (w : Lexeme) (same : w.token = t) : w.Spells ((c :: cs).take (n + 1)) := by
  rw [Lexeme.Spells,same]
  cases given with
  | word spelled => exact spelled.symm
  | comment => trivial
  | plain other =>
    split
    · cases other
    · trivial

theorem scanFrom_first (read : scanFrom d spread prev l 0 (c :: cs) = .ok ls) : ∃ t n own rest, first d prev c cs = .ok (t,n) ∧
    spread prev ⟨t,l,l.pastAll ((c :: cs).take (n + 1)),[]⟩ = .ok own ∧
    scanFrom d spread ((own.getLast?.map (·.token)).or prev) (l.past c) n cs = .ok rest ∧ ls = own ++ rest := by
  rw [scanFrom] at read
  split at read
  · cases read
  · rename_i t n given
    obtain ⟨own,spread,read⟩ := bind_ok.mp read
    obtain ⟨rest,behind,read⟩ := bind_ok.mp read
    cases read
    exact ⟨t,n,own,rest,given,spread,behind,rfl⟩

theorem scanFrom_step (read : scanFrom d spread prev l 0 (c :: cs) = .ok ls) : ∃ t n own rest, Gives d c cs t n ∧
    spread prev ⟨t,l,l.pastAll ((c :: cs).take (n + 1)),[]⟩ = .ok own ∧
    scanFrom d spread ((own.getLast?.map (·.token)).or prev) (l.past c) n cs = .ok rest ∧ ls = own ++ rest := by
  obtain ⟨t,n,own,rest,given,stands,behind,same⟩ := scanFrom_first read
  exact ⟨t,n,own,rest,first_gives given,stands,behind,same⟩

theorem scanFrom_known (kept : ∀ prev l own, Known l.token → spread prev l = .ok own → ∀ w ∈ own, Known w.token)
    (read : scanFrom d spread prev l skip cs = .ok ls) : ∀ w ∈ ls, Known w.token := by
  induction cs generalizing prev l skip ls with
  | nil =>
    rw [scanFrom] at read
    cases read
    simp
  | cons c cs ih =>
    cases skip with
    | succ skip =>
      rw [scanFrom] at read
      exact ih read
    | zero =>
      obtain ⟨t,n,own,rest,given,stands,behind,rfl⟩ := scanFrom_step read
      intro w member
      rcases List.mem_append.mp member with mine | later
      · exact kept _ _ _ given.known stands w mine
      · exact ih behind w later

-- Every token is kept as it was read.
def Keeps (d : Dialect) (spread : Spread) (cs : List Char) : Prop :=
  ∀ c rest t n, c :: rest <:+ cs → Gives d c rest t n → ∀ prev l, l.token = t → spread prev l = .ok [l]

theorem scanFrom_located (keeps : Keeps d spread cs) (read : scanFrom d spread prev l skip cs = .ok ls) :
    Located (l.pastAll (cs.take skip)) (cs.drop skip) ls := by
  induction cs generalizing prev l skip ls with
  | nil =>
    rw [scanFrom] at read
    cases read
    rw [List.take_nil,List.drop_nil]
    exact .done
  | cons c cs ih =>
    have later : Keeps d spread cs := fun c' rest t n suffix => keeps c' rest t n (suffix.trans (List.suffix_cons c cs))
    cases skip with
    | succ skip =>
      rw [scanFrom] at read
      rw [List.take_succ_cons,List.drop_succ_cons,Location.pastAll,List.foldl_cons]
      exact ih later read
    | zero =>
      obtain ⟨t,n,own,rest,given,stands,behind,rfl⟩ := scanFrom_step read
      rw [keeps c cs t n (List.suffix_refl _) given prev _ rfl] at stands
      cases stands
      have placed := Located.next (w := ⟨t,l,l.pastAll ((c :: cs).take (n + 1)),[]⟩) (l := l) [] _ rfl rfl
        (given.spells _ rfl) (ih later behind)
      have whole : [] ++ (c :: cs).take (n + 1) ++ cs.drop n = c :: cs := by simp
      rwa [whole] at placed

theorem commentBody_bang (read : commentBody nests 0 cs = some ('!' :: s,n)) : ∃ rest, cs = '!' :: rest := by
  unfold commentBody at read
  split at read
  · cases read
  · split at read <;> simp at read
  · simp at read
  · simp only [Option.map_eq_some_iff,Prod.mk.injEq,List.cons.injEq] at read
    obtain ⟨_,_,⟨rfl,_⟩,_⟩ := read
    exact ⟨_,rfl⟩

-- What a comment begins with whose text counts.
def openingMark : List Char := ['/','*','!']

theorem openComment_keeps (quiet : d.opensComments = true → ¬ openingMark <:+: cs) : Keeps d (openComment d) cs := by
  intro c rest t n suffix given prev l same
  unfold openComment
  rw [same]
  cases given with
  | comment slash star body =>
    simp only [String.toList_ofList]
    split
    · split
      · rename_i counts
        obtain ⟨rest',rfl⟩ := commentBody_bang body
        have shown : openingMark <+: c :: rest := ⟨rest',by rw [slash,star]; rfl⟩
        exact absurd (shown.isInfix.trans suffix.isInfix) (quiet counts)
      · rfl
    · rfl
  | word => rfl
  | plain other =>
    split
    · cases other
    · rfl

theorem single_known {l : Lexeme} (known : Known l.token) (kept : (Except.ok [l] : Except (LexicalFault × Location) _) = .ok own) :
    ∀ w ∈ own, Known w.token := by
  cases kept
  intro w member
  rwa [List.mem_singleton.mp member]

theorem openComment_known (known : Known l.token) (stands : openComment d prev l = .ok own) : ∀ w ∈ own, Known w.token := by
  unfold openComment at stands
  split at stands
  · split at stands
    · split at stands
      · exact scanFrom_known (fun _ _ _ => single_known) stands
      · exact single_known known stands
    · exact single_known known stands
  · exact single_known known stands

end Sql.Token

theorem Located.gathered (located : Located l cs ws) : Located l cs (Token.gathered ws).2 := by
  induction located with
  | done => exact .done
  | @next w ws l rest gap own start stop spells _ ih =>
    rw [Token.gathered]
    generalize Token.gathered ws = behind at ih ⊢
    dsimp only
    split
    · rw [stop,start,← Location.pastAll_append] at ih
      exact ih.widen (gap ++ own)
    · exact .next gap own start stop spells ih

namespace PreparedText

theorem lexemes_located (d : Dialect) (sql : List Char) (quiet : d.opensComments = true → ¬ Token.openingMark <:+: sql) :
    Located .start sql (lexemes d sql) := by
  unfold lexemes Token.scan
  cases read : Token.scanFrom d (Token.openComment d) none .start 0 sql with
  | error => exact .done
  | ok ls => exact (Token.scanFrom_located (Token.openComment_keeps quiet) read).gathered

theorem lexemes_known (d : Dialect) (sql : List Char) : ∀ w ∈ lexemes d sql, w.token.Known := by
  unfold lexemes Token.scan
  cases read : Token.scanFrom d (Token.openComment d) none .start 0 sql with
  | error => simp [Except.toOption,bind,Except.bind]
  | ok ls =>
    intro w member
    have tokens : w.token ∈ (Token.gathered ls).2.map (·.token) := List.mem_map_of_mem member
    rw [Token.gathered_tokens] at tokens
    obtain ⟨w',member',same⟩ := List.mem_map.mp (List.mem_filter.mp tokens).1
    rw [← same]
    exact Token.scanFrom_known (fun _ _ _ => Token.openComment_known) read w' member'

end PreparedText

end JoinTree
