/-
  Statements of imports, parsed again. Parsing cuts white space off the ends of a text and then
  backslashes off its front (`Import.core`), and looks for ` as ` in what is left. Nothing is
  cut off after the backslashes, so a path can start with a blank, which its statement shows at
  the front, where the next parsing cuts it off. Likewise a path can end in ` as` if the blank
  behind it is no space. Exactly the imports that avoid this are read back from their statement
  (`statement_reads_back_iff`).
-/
import OrmGen.Php.Import
import OrmGen.Proofs.Text.Pieces

namespace OrmGen.Php.Import

open Text (IsStripped afterLast isBlank splitOnce? stripBy)

/-- What is between a path and a name. -/
def keyword : List Char := " as ".toList

/-- What parsing keeps of a text before it looks for a name. -/
def core (s : String) : List Char := (stripBy isBlank s.toList).dropWhile (· = '\\')

/-- The path starts with a character that parsing does not cut off. If the statement says the
name, there is a path in front of it, and it does not end in the first characters of the
keyword, which would be taken for it. -/
structure ReadsBack (i : Import) : Prop where
  head : ∀ c ∈ i.path.toList.head?, isBlank c = false ∧ c ≠ '\\'
  named : i.symbol ≠ i.name → i.path ≠ "" ∧ ¬ keyword.dropLast <:+ i.path.toList

variable {i : Import} {s : String} {cs xs ys : List Char} {c : Char}

/-! ## What is cut off -/

theorem stripBy_isInfix (p : Char → Bool) (cs : List Char) : stripBy p cs <:+: cs := by
  obtain ⟨before, after, _, _, hcs⟩ := Text.exists_append_stripBy p cs
  exact ⟨before, after, hcs.symm⟩

theorem core_isInfix (s : String) : core s <:+: s.toList :=
  (List.dropWhile_suffix _).isInfix.trans (stripBy_isInfix isBlank s.toList)

theorem backslashes_append_core (s : String) :
    (stripBy isBlank s.toList).takeWhile (· = '\\') ++ core s = stripBy isBlank s.toList :=
  List.takeWhile_append_dropWhile

theorem head?_core_ne (s : String) : (core s).head? ≠ some '\\' := by
  intro hhead
  have hnot := List.head?_dropWhile_not (· = '\\') (stripBy isBlank s.toList)
  change (core s).head? = some '\\' at hhead
  unfold core at hhead
  rw [hhead] at hnot
  simp at hnot

/-- The last character is that of the text without the blanks around. -/
theorem isBlank_getLast?_core (hc : c ∈ (core s).getLast?) : isBlank c = false := by
  have hsplit := backslashes_append_core s
  have hne : core s ≠ [] := by
    rintro hnil
    rw [hnil] at hc
    cases hc
  refine (Text.isStripped_stripBy isBlank s.toList).last c ?_
  rw [← hsplit, List.getLast?_append_of_ne_nil _ hne]
  exact hc

theorem core_eq_self (hs : IsStripped isBlank s.toList) (hhead : s.toList.head? ≠ some '\\') :
    core s = s.toList := by
  unfold core
  rw [Text.stripBy_eq_self hs]
  cases hcs : s.toList with
  | nil => rfl
  | cons c cs =>
    rw [hcs, List.head?_cons, ne_eq, Option.some.injEq] at hhead
    exact List.dropWhile_cons_of_neg (by simpa using hhead)

/-- Where nothing is cut off, the text starts with neither a blank nor a backslash. -/
theorem head_of_core_eq (h : core s = s.toList) (hc : c ∈ s.toList.head?) :
    isBlank c = false ∧ c ≠ '\\' := by
  have hsuffix : core s <:+ stripBy isBlank s.toList := List.dropWhile_suffix _
  have hlength := hsuffix.length_le
  rw [h] at hlength
  have hstripped : stripBy isBlank s.toList = s.toList :=
    (stripBy_isInfix isBlank s.toList).eq_of_length_le hlength
  constructor
  · refine (Text.isStripped_stripBy isBlank s.toList).head c ?_
    rw [hstripped]
    exact hc
  · rintro rfl
    exact head?_core_ne s (h ▸ hc)

/-! ## Parsing -/

theorem parse_eq (s : String) : parse s = match splitOnce? keyword (core s) with
    | some (path, name) =>
      ⟨String.ofList (stripBy isBlank path), String.ofList (stripBy isBlank name)⟩
    | none => ⟨String.ofList (core s), String.ofList (afterLast '\\' (core s))⟩ := rfl

theorem keyword_ne_nil : keyword ≠ [] := by decide

theorem parse_of_no_keyword (h : ¬ keyword <:+: core s) :
    parse s = ⟨String.ofList (core s), String.ofList (afterLast '\\' (core s))⟩ := by
  rw [parse_eq, (Text.splitOnce?_eq_none_iff keyword_ne_nil).2 h]

theorem parse_of_first_keyword (hcore : core s = xs ++ keyword ++ ys)
    (hfirst : ¬ keyword <:+: xs ++ keyword.dropLast) :
    parse s = ⟨String.ofList (stripBy isBlank xs), String.ofList (stripBy isBlank ys)⟩ := by
  rw [parse_eq, (Text.splitOnce?_eq_some_iff keyword_ne_nil).2 ⟨hcore, hfirst⟩]

/-- Parsing cuts at the first keyword, if there is one. -/
theorem parse_cases (s : String) :
    ¬ keyword <:+: core s ∧
        parse s = ⟨String.ofList (core s), String.ofList (afterLast '\\' (core s))⟩ ∨
      ∃ xs ys, core s = xs ++ keyword ++ ys ∧ ¬ keyword <:+: xs ++ keyword.dropLast ∧
        parse s = ⟨String.ofList (stripBy isBlank xs), String.ofList (stripBy isBlank ys)⟩ := by
  cases hsplit : splitOnce? keyword (core s) with
  | none =>
    have hnone := (Text.splitOnce?_eq_none_iff keyword_ne_nil).1 hsplit
    exact .inl ⟨hnone, parse_of_no_keyword hnone⟩
  | some p =>
    obtain ⟨xs, ys⟩ := p
    obtain ⟨hcore, hfirst⟩ := (Text.splitOnce?_eq_some_iff keyword_ne_nil).1 hsplit
    exact .inr ⟨xs, ys, hcore, hfirst, parse_of_first_keyword hcore hfirst⟩

theorem toList_parts (h : i = ⟨String.ofList xs, String.ofList ys⟩) :
    i.path.toList = xs ∧ i.name.toList = ys := by
  subst h
  exact ⟨String.toList_ofList, String.toList_ofList⟩

/-- The path has no keyword and does not end in a blank. The name is the symbol's, or both it
and the path are stripped texts. -/
structure IsParsed (i : Import) : Prop where
  keyword : ¬ Import.keyword <:+: i.path.toList
  last : ∀ c ∈ i.path.toList.getLast?, isBlank c = false
  named : i.symbol ≠ i.name →
    IsStripped isBlank i.path.toList ∧ IsStripped isBlank i.name.toList ∧ i.name ≠ ""

/-- What stands after a keyword is not blank, as the text does not end in a blank. -/
theorem exists_not_blank (hcore : core s = xs ++ keyword ++ ys) : ∃ c ∈ ys, isBlank c = false := by
  cases hlast : ys.getLast? with
  | none =>
    rw [List.getLast?_eq_none_iff.1 hlast, List.append_nil] at hcore
    have hblank : isBlank ' ' = false := by
      refine isBlank_getLast?_core (s := s) ?_
      rw [hcore, List.getLast?_append_of_ne_nil _ (by decide)]
      rfl
    exact absurd hblank (by decide)
  | some c =>
    refine ⟨c, List.mem_of_getLast? hlast, isBlank_getLast?_core (s := s) ?_⟩
    rw [hcore, List.getLast?_append_of_ne_nil _ (by rintro rfl; cases hlast)]
    exact hlast

theorem isParsed_parse (s : String) : (parse s).IsParsed := by
  rcases parse_cases s with ⟨hnone, hparse⟩ | ⟨xs, ys, hcore, hfirst, hparse⟩
  · rw [hparse]
    refine ⟨?_, ?_, ?_⟩
    · rwa [String.toList_ofList]
    · intro c hc
      rw [String.toList_ofList] at hc
      exact isBlank_getLast?_core hc
    · intro hsymbol
      refine absurd ?_ hsymbol
      unfold symbol
      rw [String.toList_ofList]
  · rw [hparse]
    have hstripped := Text.isStripped_stripBy isBlank
    obtain ⟨c, hc, hblank⟩ := exists_not_blank hcore
    refine ⟨?_, ?_, ?_⟩
    · rw [String.toList_ofList]
      intro hpart
      exact hfirst ((hpart.trans (stripBy_isInfix isBlank xs)).trans
        (List.prefix_append _ _).isInfix)
    · intro c hc
      rw [String.toList_ofList] at hc
      exact (hstripped xs).last c hc
    · intro _
      rw [String.toList_ofList, String.toList_ofList]
      refine ⟨hstripped xs, hstripped ys, ?_⟩
      intro hempty
      have hmem := Text.mem_stripBy_of_not hc hblank
      have hnil := congrArg String.toList hempty
      rw [String.toList_ofList] at hnil
      rw [hnil] at hmem
      cases hmem

/-! ## Statements -/

theorem statement_of_symbol (h : i.symbol = i.name) : i.statement = i.path := if_pos h

theorem toList_statement (h : i.symbol ≠ i.name) :
    i.statement.toList = i.path.toList ++ keyword ++ i.name.toList := by
  unfold statement
  rw [if_neg h, String.toList_append, String.toList_append]
  rfl

/-- An import that is read back from its statement loses nothing of it, and its name is found
where it stands. -/
theorem core_statement_eq (h : parse i.statement = i) :
    core i.statement = i.statement.toList ∧
      (i.symbol ≠ i.name → ¬ keyword <:+: i.path.toList ++ keyword.dropLast) := by
  rcases parse_cases i.statement with ⟨_, hparse⟩ | ⟨xs, ys, hcore, hfirst, hparse⟩
  · obtain ⟨hpath, hname⟩ := toList_parts (h.symm.trans hparse)
    have hsymbol : i.symbol = i.name := by
      rw [← String.toList_inj, hname, ← hpath]
      exact String.toList_ofList
    rw [statement_of_symbol hsymbol] at hpath ⊢
    exact ⟨hpath.symm, fun hne => absurd hsymbol hne⟩
  · obtain ⟨hpath, hname⟩ := toList_parts (h.symm.trans hparse)
    have hxs : i.path.toList.length ≤ xs.length := hpath ▸ (stripBy_isInfix isBlank xs).length_le
    have hys : i.name.toList.length ≤ ys.length := hname ▸ (stripBy_isInfix isBlank ys).length_le
    have hkept := (core_isInfix i.statement).length_le
    have hfour : keyword.length = 4 := rfl
    rw [hcore, List.length_append, List.length_append] at hkept
    by_cases hsymbol : i.symbol = i.name
    · rw [statement_of_symbol hsymbol] at hkept
      omega
    · have hstatement := toList_statement hsymbol
      have hsame : xs ++ keyword ++ ys = i.path.toList ++ keyword ++ i.name.toList := by
        rw [← hcore, ← hstatement]
        refine (core_isInfix i.statement).eq_of_length_le ?_
        rw [hcore, hstatement]
        simp only [List.length_append]
        omega
      rw [hstatement] at hkept
      simp only [List.length_append] at hkept
      rw [hstatement, hcore, hsame]
      refine ⟨rfl, fun _ => ?_⟩
      rw [List.append_assoc, List.append_assoc] at hsame
      rwa [← List.append_inj_left hsame (by omega)]

/-- With the start of a keyword behind it, a text has a keyword only if it ends in such a start
itself. -/
theorem keyword_infix_append_iff (hnot : ¬ keyword <:+: cs) :
    keyword <:+: cs ++ keyword.dropLast ↔ keyword.dropLast <:+ cs := by
  have hconcat : keyword = keyword.dropLast ++ [' '] := rfl
  constructor
  · rintro ⟨before, after, hsplit⟩
    rcases List.append_eq_append_iff.1 hsplit with ⟨rest, hcs, _⟩ | ⟨rest, hbefore, hstart⟩
    · exact absurd ⟨before, rest, hcs.symm⟩ hnot
    -- the keyword ends within the start that was added, and there is only one space in it
    match rest, hstart with
    | [], _ =>
      rw [List.append_nil] at hbefore
      exact absurd ⟨before, [], by rw [hbefore, List.append_nil]⟩ hnot
    | [x], hstart =>
      obtain rfl : ' ' = x := (List.cons.inj hstart).1
      rw [hconcat, ← List.append_assoc] at hbefore
      exact ⟨before, List.append_cancel_right hbefore⟩
    | [x, y], hstart =>
      obtain rfl : 'a' = y := (List.cons.inj (List.cons.inj hstart).2).1
      have hlast := congrArg List.getLast? hbefore
      simp [keyword] at hlast
    | x :: y :: z :: rest, hstart =>
      obtain ⟨rfl, hnil⟩ : 's' = z ∧ [] = rest ++ after :=
        List.cons.inj (List.cons.inj (List.cons.inj hstart).2).2
      obtain rfl := (List.append_eq_nil_iff.1 hnil.symm).1
      have hlast := congrArg List.getLast? hbefore
      simp [keyword] at hlast
  · rintro ⟨before, rfl⟩
    exact ⟨before, "as".toList, by simp [keyword]⟩

/-! ## Reading back -/

theorem readsBack_of_parse_statement_eq (hparsed : i.IsParsed) (h : parse i.statement = i) :
    i.ReadsBack := by
  obtain ⟨hcore, hfirst⟩ := core_statement_eq h
  have hhead : ∀ c ∈ i.statement.toList.head?, isBlank c = false ∧ c ≠ '\\' :=
    fun c hc => head_of_core_eq hcore hc
  constructor
  · intro c hc
    refine hhead c ?_
    by_cases hsymbol : i.symbol = i.name
    · rwa [statement_of_symbol hsymbol]
    · rw [toList_statement hsymbol, List.append_assoc, List.head?_append, hc]
      rfl
  · intro hsymbol
    constructor
    · rintro hempty
      rw [toList_statement hsymbol, hempty] at hhead
      exact absurd (hhead ' ' rfl).1 (by decide)
    · rw [← keyword_infix_append_iff hparsed.keyword]
      exact hfirst hsymbol

theorem parse_statement_eq_of_readsBack (hparsed : i.IsParsed) (h : i.ReadsBack) :
    parse i.statement = i := by
  have hpath : IsStripped isBlank i.path.toList := ⟨fun c hc => (h.head c hc).1, hparsed.last⟩
  have hfront : i.path.toList.head? ≠ some '\\' := fun hhead => (h.head _ hhead).2 rfl
  by_cases hsymbol : i.symbol = i.name
  · have hcore : core i.path = i.path.toList := core_eq_self hpath hfront
    have hnone : ¬ keyword <:+: core i.path := by
      rw [hcore]
      exact hparsed.keyword
    have hname : String.ofList (afterLast '\\' i.path.toList) = i.name := hsymbol
    rw [statement_of_symbol hsymbol, parse_of_no_keyword hnone, hcore, hname, String.ofList_toList]
  · obtain ⟨_, hname, hnonempty⟩ := hparsed.named hsymbol
    obtain ⟨hsome, hend⟩ := h.named hsymbol
    have hstatement := toList_statement hsymbol
    have hpathNe : i.path.toList ≠ [] := by simpa using hsome
    have hnameNe : i.name.toList ≠ [] := by simpa using hnonempty
    have hcore : core i.statement = i.path.toList ++ keyword ++ i.name.toList := by
      rw [← hstatement]
      refine core_eq_self ?_ ?_
      · rw [hstatement]
        exact hpath.append hname hpathNe hnameNe keyword
      · rw [hstatement, List.append_assoc, List.head?_append_of_ne_nil _ hpathNe]
        exact hfront
    have hfirst : ¬ keyword <:+: i.path.toList ++ keyword.dropLast := by
      rw [keyword_infix_append_iff hparsed.keyword]
      exact hend
    rw [parse_of_first_keyword hcore hfirst, Text.stripBy_eq_self hpath, Text.stripBy_eq_self hname,
      String.ofList_toList, String.ofList_toList]

/-! ## Texts with plain blanks -/

/-- What is left of a text starts with a blank only if the text has a blank behind a
backslash. -/
theorem isBlank_head?_core (hblank : ∀ c ∈ s.toList, isBlank c = true → c = ' ')
    (hbackslash : ¬ ['\\', ' '] <:+: s.toList) (hc : c ∈ (core s).head?) : isBlank c = false := by
  have hsplit := backslashes_append_core s
  obtain ⟨rest, hcore⟩ := List.head?_eq_some_iff.1 hc
  cases hfront : ((stripBy isBlank s.toList).takeWhile (· = '\\')).getLast? with
  | none =>
    rw [List.getLast?_eq_none_iff.1 hfront, List.nil_append] at hsplit
    rw [hsplit] at hc
    exact (Text.isStripped_stripBy isBlank s.toList).head c hc
  | some d =>
    obtain ⟨front, hfront⟩ := List.getLast?_eq_some_iff.1 hfront
    have hd : d = '\\' := by
      have hmem : d ∈ (stripBy isBlank s.toList).takeWhile (· = '\\') := by simp [hfront]
      simpa using List.mem_takeWhile_imp hmem
    rw [hfront, hcore, hd] at hsplit
    have hpart : ['\\', c] <:+: s.toList := by
      refine List.IsInfix.trans ⟨front, rest, ?_⟩ (stripBy_isInfix isBlank s.toList)
      rw [← hsplit]
      simp
    by_contra hnot
    rw [Bool.not_eq_false] at hnot
    have hspace : c = ' ' := hblank c (hpart.subset (by simp)) hnot
    exact hbackslash (hspace ▸ hpart)

/-- The text in front of the first keyword keeps its first character. -/
theorem head?_stripBy (hhead : ∀ c ∈ xs.head?, isBlank c = false) :
    (stripBy isBlank xs).head? = xs.head? := by
  cases hxs : xs.head? with
  | none =>
    rw [List.head?_eq_none_iff.1 hxs]
    rfl
  | some c =>
    obtain ⟨rest, rfl⟩ := List.head?_eq_some_iff.1 hxs
    have hmem : c ∈ stripBy isBlank (c :: rest) :=
      Text.mem_stripBy_of_not List.mem_cons_self (hhead c rfl)
    have hkept : (c :: rest).dropWhile isBlank = c :: rest :=
      List.dropWhile_cons_of_neg (by simp [hhead c rfl])
    obtain ⟨after, hafter⟩ : stripBy isBlank (c :: rest) <+: (c :: rest).dropWhile isBlank :=
      Text.isPrefix_dropTailWhile isBlank _
    rw [hkept] at hafter
    have hsame := congrArg List.head? hafter
    rwa [List.head?_append_of_ne_nil _ (List.ne_nil_of_mem hmem)] at hsame

/-- If all blanks are spaces, a path that ends in the start of a keyword has a keyword behind
it, or the start of one. -/
theorem not_suffix_stripBy (hblank : ∀ c ∈ xs, isBlank c = true → c = ' ')
    (hfirst : ¬ keyword <:+: xs ++ keyword.dropLast) :
    ¬ keyword.dropLast <:+ stripBy isBlank xs := by
  rintro ⟨front, hfront⟩
  obtain ⟨before, after, _, hafter, hxs⟩ := Text.exists_append_stripBy isBlank xs
  refine hfirst ⟨before ++ front, (after ++ keyword.dropLast).tail, ?_⟩
  cases after with
  | nil =>
    rw [hxs, ← hfront]
    simp [keyword]
  | cons c after =>
    have hmem : c ∈ xs := by
      rw [hxs]
      simp
    obtain rfl : c = ' ' := hblank c hmem (hafter c List.mem_cons_self)
    rw [hxs, ← hfront]
    simp [keyword]

theorem readsBack_parse (hblank : ∀ c ∈ s.toList, isBlank c = true → c = ' ')
    (hbackslash : ¬ ['\\', ' '] <:+: s.toList) : (parse s).ReadsBack := by
  have hhead : ∀ c ∈ (core s).head?, isBlank c = false ∧ c ≠ '\\' := by
    intro c hc
    refine ⟨isBlank_head?_core hblank hbackslash hc, ?_⟩
    rintro rfl
    exact head?_core_ne s hc
  rcases parse_cases s with ⟨_, hparse⟩ | ⟨xs, ys, hcore, hfirst, hparse⟩
  · obtain ⟨hpath, hname⟩ := toList_parts hparse
    constructor
    · rwa [hpath]
    · intro hsymbol
      refine absurd ?_ hsymbol
      rw [← String.toList_inj, hname, ← hpath]
      exact String.toList_ofList
  · obtain ⟨hpath, _⟩ := toList_parts hparse
    have hxs : xs ≠ [] := by
      rintro rfl
      rw [hcore] at hhead
      exact absurd (hhead ' ' rfl).1 (by decide)
    have hfront : xs.head? = (core s).head? := by
      rw [hcore, List.append_assoc, List.head?_append_of_ne_nil _ hxs]
    rw [← hfront] at hhead
    have hsame : (parse s).path.toList.head? = xs.head? := by
      rw [hpath]
      exact head?_stripBy fun c hc => (hhead c hc).1
    constructor
    · rwa [hsame]
    · intro _
      constructor
      · intro hempty
        rw [hempty] at hsame
        exact hxs (List.head?_eq_none_iff.1 hsame.symm)
      · rw [hpath]
        refine not_suffix_stripBy ?_ hfirst
        intro c hc
        have hmem : c ∈ core s := by
          rw [hcore]
          simp [hc]
        exact hblank c ((core_isInfix s).subset hmem)

/-- What a text declares is read back from the statement that is printed for it, path and name
alike, if and only if its path starts with neither a blank nor a backslash and, where the
statement says the name, is not empty and does not end in ` as`. This is so for every text
whose blanks are all spaces and stand behind no backslash. -/
theorem statement_reads_back_iff (s : String) :
    (parse (parse s).statement = parse s ↔ (parse s).ReadsBack) ∧
      ((∀ c ∈ s.toList, isBlank c = true → c = ' ') → ¬ ['\\', ' '] <:+: s.toList →
        parse (parse s).statement = parse s) := by
  have hparsed := isParsed_parse s
  refine ⟨⟨readsBack_of_parse_statement_eq hparsed, parse_statement_eq_of_readsBack hparsed⟩, ?_⟩
  intro hblank hbackslash
  exact parse_statement_eq_of_readsBack hparsed (readsBack_parse hblank hbackslash)

/-- A blank behind a backslash is lost, and so is a path that ends in ` as`. -/
theorem odd_blanks_get_lost :
    parse (parse "\\ A").statement ≠ parse "\\ A" ∧
      parse (parse "X as\t as Y").statement ≠ parse "X as\t as Y" := by
  constructor
  · intro h
    have hreads := (statement_reads_back_iff "\\ A").1.1 h
    exact absurd (hreads.head ' ' (by decide)).1 (by decide)
  · intro h
    have hreads := (statement_reads_back_iff "X as\t as Y").1.1 h
    exact (hreads.named (by decide)).2 (by decide)

end OrmGen.Php.Import
