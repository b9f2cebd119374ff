import JoinTree.Proofs.StringText
import JoinTree.Proofs.TreeListing

/-!
Names between the quotes of a dialect. Main statement: a name that was put between them is read back as that name, unless the
dialect is ClickHouse and the name has a backtick.
-/

namespace JoinTree.Sql

namespace Reading

variable {g : Grammar} {word : Ident}

-- An expression that is no name but the given one.
def NamesOnly (word : Ident) (e : Expr) : Prop := ∀ i, e = .ident i → i = word

theorem namesOnly_word : NamesOnly word (.ident word) := by
  rintro i ⟨⟩
  rfl

theorem namesOnly_left (first : NamesOnly word left) (from_left : FromLeft left e) : NamesOnly word e := by
  rcases from_left with rfl | made
  · exact first
  · rintro i rfl
    cases made

theorem callOf_names (p : Reading Expr) (name : ObjectName) : Answers (callOf g p name) (NamesOnly word) := by
  unfold callOf
  repeat' first
    | exact answers_pure nofun
    | refine answers_bind fun _ => ?_
    | split

theorem plainWord_names (p : Reading Expr) : Answers (plainWord g p word) (NamesOnly word) := by
  unfold plainWord
  repeat' first
    | exact answers_pure namesOnly_word
    | exact answers_pure nofun
    | exact callOf_names p _
    | refine answers_bind fun _ => ?_
    | split

theorem followed_names (root : Expr) (steps : List PathStep) (first : NamesOnly word root) : NamesOnly word (followed root steps) := by
  unfold followed
  split
  · exact first
  · repeat' split
    all_goals exact nofun
  · exact nofun

theorem pathFrom_names (ls : List Lexeme) (root : Expr) (first : NamesOnly word root) :
    Answers (pathFrom g ls root) (NamesOnly word) := by
  unfold pathFrom
  repeat' first
    | exact answers_pure (followed_names root _ first)
    | exact answers_pure nofun
    | exact answers_failure _
    | refine answers_bind fun _ => ?_
    | split

-- A text that starts with a word is no other name, whatever stands behind it.
theorem operandOf_names (l : Lexeme) (token : l.token = .word v q none) (read : operandOf g level (l :: ls) = .ok (e,rest)) :
    NamesOnly ⟨v,q⟩ e := by
  obtain ⟨p,opened⟩ := start_free g ls l token
  rw [operandOf_run,opened,wordExpr_free] at read
  obtain ⟨⟨root,behind⟩,first,read⟩ := bind_ok.mp read
  obtain ⟨⟨word,later⟩,named,collated⟩ := bind_ok.mp first
  have root_names : NamesOnly ⟨v,q⟩ root :=
    namesOnly_left (plainWord_names p _ _ _ named) (collated_left word _ _ _ collated)
  obtain ⟨⟨path,later⟩,second,read⟩ := bind_ok.mp read
  have path_names : NamesOnly ⟨v,q⟩ path := pathFrom_names _ root root_names _ _ _ second
  refine answers_iterate path_names ?_ _ _ _ read
  intro left names ls next rest found e inside
  exact namesOnly_left names (further_left left level (.inl rfl) ls next rest found e inside)

theorem operandOf_word (l : Lexeme) (token : l.token = .word v q none) :
    operandOf (Grammar.inside d n) level [l] = .ok (.ident ⟨v,q⟩,[]) := by
  have nothing : Sign.Read [] [] := rfl
  have last : Sign.Starts [] [] [] := .nil
  obtain ⟨p,opened⟩ := start_free (Grammar.inside d n) [] l token
  rw [operandOf_run,opened,wordExpr_free,plainWord_name p _ last (by simp),ok_bind,collated_ended .nil,
    ok_bind,pathFrom_ended nothing (Sign.regular_nil d .ended),ok_bind]
  rfl

end Reading

namespace Token

-- Up to the first quote.
theorem quotedBody_front (free : q ∉ front) : quotedBody q false (front ++ rest) =
    (quotedBody q false rest).map fun (s,n) => (front ++ s,n + front.length) := by
  induction front with
  | nil => simp
  | cons c front ih =>
    obtain ⟨other,free⟩ := List.ne_and_not_mem_of_not_mem_cons free
    rw [List.cons_append,quotedBody_plain (Ne.symm other) (fun _ => rfl),ih free,put,Option.map_map]
    rfl

-- Up to a quote that no other one follows.
theorem quotedBody_cut (free : q ∉ front) (closed : List.head? rest ≠ some q) :
    quotedBody q false (front ++ q :: rest) = some (front,front.length + 1) := by
  rw [quotedBody_front free,quotedBody_end closed]
  simp [Nat.add_comm]

-- A pair of quotes at the end of a text closes nothing.
theorem quotedBody_open (free : q ∉ front) : quotedBody q false (front ++ [q,q]) = none := by
  rw [quotedBody_front free]
  exact congrArg _ quotedBody_pair

theorem first_name (d : Dialect) (prev : Option Token) (quote : q = '"' ∨ q = '\x60') (cs : List Char) : first d prev q cs =
    match quotedBody q false cs with
    | some (s,n) => .ok (.quotedWord (.ofList s) q,n)
    | none => .error (.unterminatedName q,0) := by
  rcases quote with rfl | rfl <;> rfl

end Token

namespace Dialect

theorem identQuote_cases (d : Dialect) : d.identQuote = '"' ∨ d.identQuote = '\x60' := by
  cases d
  · exact .inr rfl
  · exact .inl rfl
  · exact .inl rfl

-- Each quote in a name with a backslash in front.
def slashed (cs : List Char) : List Char := cs.flatMap fun c => if c = '\x60' then ['\\','\x60'] else [c]

theorem flatMap_free {q : Char} {cs : List Char} (free : q ∉ cs) : (cs.flatMap fun c => if c = q then written else [c]) = cs := by
  induction cs with
  | nil => rfl
  | cons c cs ih =>
    obtain ⟨other,free⟩ := List.ne_and_not_mem_of_not_mem_cons free
    rw [List.flatMap_cons,if_neg (Ne.symm other),ih free,List.singleton_append]

theorem quoteIdent_slashed (s : String) : (quoteIdent .clickHouse s).toList = '\x60' :: (slashed s.toList ++ ['\x60']) :=
  String.toList_ofList

-- A name is written with its quotes doubled, but for a ClickHouse name with quotes.
theorem quoteIdent_doubled (d : Dialect) (s : String) (plain : d = .clickHouse → '\x60' ∉ s.toList) :
    (d.quoteIdent s).toList = d.identQuote :: (Token.doubled d.identQuote s.toList ++ [d.identQuote]) := by
  cases d with
  | generic | snowflake => exact String.toList_ofList
  | clickHouse => rw [quoteIdent_slashed,slashed,flatMap_free (plain rfl),identQuote,Token.doubled,flatMap_free (plain rfl)]

-- A ClickHouse name ends at its first quote, or it does not end if that is its last character.
theorem quotedBody_slashed (backtick : '\x60' ∈ cs)
    (read : Token.quotedBody '\x60' false (slashed cs ++ ['\x60']) = some (v,n)) : '\x60' ∉ v := by
  obtain ⟨front,behind,rfl,free⟩ := List.eq_append_cons_of_mem backtick
  have free : '\x60' ∉ front ++ ['\\'] := by simpa using free
  have split : slashed (front ++ '\x60' :: behind) ++ ['\x60'] =
      (front ++ ['\\']) ++ '\x60' :: (slashed behind ++ ['\x60']) := by
    simp only [slashed,List.flatMap_append,List.flatMap_cons,if_true]
    rw [flatMap_free (by simpa using free)]
    simp
  rw [split] at read
  cases behind with
  | nil =>
    rw [show (slashed [] : List Char) = [] from rfl,List.nil_append,Token.quotedBody_open free] at read
    cases read
  | cons c behind =>
    have closed : (slashed (c :: behind) ++ ['\x60']).head? ≠ some '\x60' := by
      by_cases same : c = '\x60' <;> simp [slashed,same]
    rw [Token.quotedBody_cut free closed] at read
    cases read
    exact free

end Dialect

-- A name between the quotes of a dialect is an expression of its own: that name, exactly if the dialect writes none of its
-- characters in a way that its tokens do not know.
theorem parseExpr_quoteIdent (d : Dialect) (s : String) :
    (∃ q, parseExpr d (d.quoteIdent s) = .ok (.ident ⟨s,q⟩)) ↔ (d = .clickHouse → '\x60' ∉ s.toList) := by
  have edge : Text.isBlank d.identQuote = false := by cases d <;> rfl
  constructor
  · rintro ⟨q,read⟩ rfl backtick
    have shown := Dialect.quoteIdent_slashed s
    have crisp : Expr.Crisp (Dialect.quoteIdent .clickHouse s).toList := by
      rw [shown]
      exact Expr.crisp_join ['\x60'] _ ['\x60'] (Expr.crisp_single edge) (Expr.crisp_single edge)
    obtain ⟨n,parse⟩ := parseExpr_scan (d := .clickHouse) crisp
    obtain ⟨ls,scanned,read⟩ := bind_ok.mp (mapError_ok.mp (parse.symm.trans read))
    obtain ⟨⟨e,rest⟩,done,same⟩ := map_ok.mp read
    have scanned := (congrArg (Token.scan _) shown).symm.trans (mapError_ok.mp scanned)
    cases body : Token.quotedBody '\x60' false (Dialect.slashed s.toList ++ ['\x60']) with
    | none =>
      rw [Token.scan,Token.scanFrom,Token.first_name _ _ (.inr rfl),body] at scanned
      cases scanned
    | some p =>
      obtain ⟨v,m⟩ := p
      have first : Token.first .clickHouse none '\x60' (Dialect.slashed s.toList ++ ['\x60']) =
          .ok (.quotedWord (.ofList v) '\x60',m) := by rw [Token.first_name _ _ (.inr rfl),body]
      obtain ⟨l,more,rfl,token⟩ := Token.scan_opens first (fun _ => Token.noConfusion) scanned
      have same : s = .ofList v := congrArg Ident.value (Reading.operandOf_names l token done ⟨s,q⟩ same)
      have absent := Dialect.quotedBody_slashed backtick body
      rw [same,String.toList_ofList] at backtick
      exact absent backtick
  · intro plain
    have shown := d.quoteIdent_doubled s plain
    have crisp : Expr.Crisp (d.quoteIdent s).toList := by
      rw [shown]
      exact Expr.crisp_join [d.identQuote] _ [d.identQuote] (Expr.crisp_single edge) (Expr.crisp_single edge)
    obtain ⟨n,parse⟩ := parseExpr_scan (d := d) crisp
    have read : Token.first d none d.identQuote (Token.doubled d.identQuote s.toList ++ [d.identQuote]) =
        .ok (.quotedWord (.ofList s.toList) d.identQuote,(Token.doubled d.identQuote s.toList).length + 1) :=
      Token.first_quoted (by simp) d.identQuote_cases s.toList
    have size : (Token.doubled d.identQuote s.toList).length + 1 =
        (Token.doubled d.identQuote s.toList ++ [d.identQuote]).length := by simp
    obtain ⟨l,scanned,token⟩ := Token.scan_only (size ▸ read) fun _ => Token.noConfusion
    rw [String.ofList_toList] at token
    refine ⟨some d.identQuote,?_⟩
    rw [parse,shown,scanned,mapError_value,Reading.ok_bind,Reading.operandOf_word l token]
    rfl

-- Behind the backslash that is to keep it, the first backtick of a name closes it, and what follows stands outside of the
-- quotes. Here the expression ends there; with one backtick, the text does not end.
theorem backtick_closes :
    let written := Dialect.quoteIdent .clickHouse "a\x60b\x60c"
    written = "\x60a\\\x60b\\\x60c\x60" ∧ Node.ofExprText .clickHouse written = .ok (.ident "a\\") ∧
      (¬∃ q, parseExpr .clickHouse written = .ok (.ident ⟨"a\x60b\x60c",q⟩)) ∧
      Node.ofExprText .clickHouse (Dialect.quoteIdent .clickHouse "a\x60b") =
        .error (.sql (.unreadable (.lexical (.unterminatedName '\x60') ⟨1,6⟩))) := by
  intro written
  have cut : Node.ofExprText .clickHouse written = .ok (.ident "a\\") := by decide +kernel
  refine ⟨by decide +kernel,cut,?_,by decide +kernel⟩
  rintro ⟨q,read⟩
  have built : Node.ofExprText .clickHouse written = .ok (.ident "a\x60b\x60c") := by
    rw [Node.ofExprText,read]
    rfl
  exact absurd (cut.symm.trans built) (by decide)

end JoinTree.Sql
