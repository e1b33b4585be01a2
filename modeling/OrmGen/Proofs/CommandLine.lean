/-
  The argument `--dry-run`. Each argument does one of few things to the reader
  (`step_cases`). A reader that has read `--dry-run` goes on like one that has not (`Lacks`), up
  to the choice itself and to when the value in front of it is checked. So arguments that ask
  for a dry run ask for the same command without it once `--dry-run` is left out
  (`parse_erase_dryRun`).
-/
import OrmGen.CommandLine
import OrmGen.Proofs.Traversal

namespace OrmGen.CommandLine

namespace Options

variable {o o' : Options} {p : Pending}

/-- The options without the choice of a dry run. -/
def withoutDryRun (o : Options) : Options := { o with dryRun := false }

theorem dryRun_of_add (h : o.add p = .ok o') : o'.dryRun = o.dryRun := by
  unfold add at h
  split at h
  · cases h
  · split at h
    · cases h
    · split at h
      · cases h
      · cases h
        cases p.option <;> rfl

theorem add_withoutDryRun : o.withoutDryRun.add p = (o.add p).map withoutDryRun := by
  have hget : o.withoutDryRun.get? p.option = o.get? p.option := by cases p.option <;> rfl
  unfold add
  rw [hget]
  split
  · rfl
  · split
    · rfl
    · split
      · rfl
      · cases p.option <;> rfl

theorem command_withoutDryRun :
    o.withoutDryRun.command = o.command.map fun c => { c with dryRun := false } := by
  unfold command withoutDryRun
  cases o.config <;> rfl

end Options

namespace Reader

variable {r r' s : Reader} {args : List String} {a : String} {o : Options} {option : ValueOption}
  {value : Option String}

/-! ## What an argument does -/

theorem eq_dryRun_of_long (h : Argument.of a = .long "dry-run" none) : a = "--dry-run" := by
  unfold Argument.of at h
  split at h
  · cases h
  · rename_i cs _ hcs
    split at h
    · rw [Argument.long.injEq] at h
      cases h.2
    · rw [Argument.long.injEq] at h
      have hname : cs = "dry-run".toList := by rw [← h.1, String.toList_ofList]
      apply String.toList_inj.1
      rw [hcs, hname]
      rfl
  · cases h
  · cases h

theorem help_ne_ok : r.help ≠ .ok s := by
  intro h
  obtain ⟨_, _, h⟩ := bind_eq_ok.1 h
  cases h

/-- What an argument does to a reader that is not closed. -/
inductive Reading (a : String) : Prop
  | closes (h : ∀ r : Reader, r.closed = false → r.step a = .ok { r with closed := true })
  | begins (option : ValueOption) (value : Option String)
      (h : ∀ r : Reader, r.closed = false → r.step a = r.begin option value)
  | choosesDryRun (h : a = "--dry-run")
  | gives (word : String) (h : ∀ r : Reader, r.closed = false → r.step a = r.plain word)
  | fails (h : ∀ r s : Reader, r.closed = false → r.step a ≠ .ok s)

theorem step_cases (a : String) : Reading a := by
  cases harg : Argument.of a with
  | close =>
    refine .closes fun r hr => ?_
    simp only [step, hr, harg, Bool.false_eq_true, if_false]
  | plain word =>
    refine .gives word fun r hr => ?_
    simp only [step, hr, harg, Bool.false_eq_true, if_false]
  | short letter rest =>
    by_cases hc : letter = 'c'
    · refine .begins .config (attachedValue? rest) fun r hr => ?_
      simp only [step, hr, harg, Bool.false_eq_true, if_false, if_pos hc]
    · refine .fails fun r s hr => ?_
      simp only [step, hr, harg, Bool.false_eq_true, if_false, if_neg hc]
      split
      · exact help_ne_ok
      · exact nofun
  | long name value =>
    cases hoption : longOption? name with
    | some option =>
      refine .begins option value fun r hr => ?_
      simp only [step, hr, harg, hoption, Bool.false_eq_true, if_false]
    | none =>
      by_cases hdry : name = "dry-run" ∧ value = none
      · obtain ⟨rfl, rfl⟩ := hdry
        exact .choosesDryRun (eq_dryRun_of_long harg)
      · refine .fails fun r s hr => ?_
        simp only [step, hr, harg, hoption, Bool.false_eq_true, if_false]
        split
        · split
          · exact nofun
          · split
            · exact help_ne_ok
            · simp_all
        · exact nofun

theorem step_dryRun (hr : r.closed = false) : r.step "--dry-run" = r.dryRun := by
  unfold step
  rw [if_neg (by simp [hr])]
  rfl

theorem closed_of_step (h : r.step a = .ok s) : r.closed = false := by
  unfold step at h
  by_contra hclosed
  rw [if_pos (by simpa using hclosed)] at h
  cases h

theorem begin_eq_ok (h : r.begin option value = .ok s) : ∃ o, r.settled = .ok o ∧
    ((value = none ∧ s = { r with options := o, pending := some ⟨option, none⟩ }) ∨
      ∃ o', value.isSome = true ∧ o.add ⟨option, value⟩ = .ok o' ∧
        s = { r with options := o', pending := none }) := by
  obtain ⟨o, ho, h⟩ := bind_eq_ok.1 h
  refine ⟨o, ho, ?_⟩
  cases value with
  | none =>
    cases h
    exact .inl ⟨rfl, rfl⟩
  | some v =>
    obtain ⟨o', ho', h⟩ := bind_eq_ok.1 h
    cases h
    exact .inr ⟨o', rfl, ho', rfl⟩

theorem dryRun_eq_ok (h : r.dryRun = .ok s) : ∃ o, r.settled = .ok o ∧ o.dryRun = false ∧
    s = { r with options := { o with dryRun := true }, pending := none } := by
  obtain ⟨o, ho, h⟩ := bind_eq_ok.1 h
  split at h
  · cases h
  · rename_i hdry
    cases h
    exact ⟨o, ho, by simpa using hdry, rfl⟩

theorem plain_eq_ok {word : String} (h : r.plain word = .ok s) : ∃ option,
    r.pending = some ⟨option, none⟩ ∧ s = { r with pending := some ⟨option, some word⟩ } := by
  unfold plain at h
  split at h
  · rename_i option hpending
    cases h
    exact ⟨option, hpending, rfl⟩
  · cases h

theorem dryRun_of_settled (h : r.settled = .ok o) : o.dryRun = r.options.dryRun := by
  unfold settled at h
  split at h
  · cases h
    rfl
  · exact Options.dryRun_of_add h

/-- No other argument chooses a dry run. -/
theorem dryRun_of_step (ha : a ≠ "--dry-run") (h : r.step a = .ok s) :
    s.options.dryRun = r.options.dryRun := by
  have hopen := closed_of_step h
  cases step_cases a with
  | closes hstep =>
    cases (hstep r hopen).symm.trans h
    rfl
  | begins option value hstep =>
    obtain ⟨o, ho, ⟨_, rfl⟩ | ⟨o', _, ho', rfl⟩⟩ := begin_eq_ok ((hstep r hopen).symm.trans h)
    · exact dryRun_of_settled ho
    · exact (Options.dryRun_of_add ho').trans (dryRun_of_settled ho)
  | choosesDryRun ha' => exact absurd ha' ha
  | gives word hstep =>
    obtain ⟨_, _, rfl⟩ := plain_eq_ok ((hstep r hopen).symm.trans h)
    rfl
  | fails hfails => exact absurd h (hfails r s hopen)

/-! ## Leaving out the choice -/

/-- Two readers after the same arguments, but for `--dry-run`, which only the first has read.
The second may still have to check a value that the first has checked. -/
structure Lacks (r r' : Reader) : Prop where
  closed : r'.closed = r.closed
  dryRun : r.options.dryRun = true
  pending : r'.pending = r.pending ∧ r'.options = r.options.withoutDryRun ∨
    r.pending = none ∧ (∀ option, r'.pending ≠ some ⟨option, none⟩) ∧
      r'.settled = .ok r.options.withoutDryRun

theorem Lacks.settled (h : Lacks r r') : r'.settled = r.settled.map Options.withoutDryRun := by
  obtain ⟨hpending, hoptions⟩ | ⟨hnone, _, hsettled⟩ := h.pending
  · unfold Reader.settled
    rw [hpending, hoptions]
    cases r.pending with
    | none => rfl
    | some p => exact Options.add_withoutDryRun
  · rw [hsettled]
    unfold Reader.settled
    rw [hnone]
    rfl

theorem lacks_of_dryRun (h : r.dryRun = .ok s) : Lacks s r := by
  obtain ⟨o, ho, hdry, rfl⟩ := dryRun_eq_ok h
  have hsame : o.withoutDryRun = o := by
    unfold Options.withoutDryRun
    rw [← hdry]
  refine ⟨rfl, rfl, .inr ⟨rfl, ?_, ho.trans (congrArg _ hsame.symm)⟩⟩
  intro option hpending
  unfold Reader.settled at ho
  rw [hpending] at ho
  cases ho

theorem lacks_of_begin (hlacks : Lacks r r') (h : r.begin option value = .ok s) :
    ∃ s', r'.begin option value = .ok s' ∧ Lacks s s' := by
  obtain ⟨o, ho, hs⟩ := begin_eq_ok h
  have hdry : o.dryRun = true := (dryRun_of_settled ho).trans hlacks.dryRun
  have hsettled : r'.settled = .ok o.withoutDryRun := by
    rw [hlacks.settled, ho]
    rfl
  unfold begin
  rw [hsettled]
  obtain ⟨rfl, rfl⟩ | ⟨o', hvalue, ho', rfl⟩ := hs
  · exact ⟨_, rfl, hlacks.closed, hdry, .inl ⟨rfl, rfl⟩⟩
  · obtain ⟨v, rfl⟩ := Option.isSome_iff_exists.1 hvalue
    have hadd : o.withoutDryRun.add ⟨option, some v⟩ = .ok o'.withoutDryRun := by
      rw [Options.add_withoutDryRun, ho']
      rfl
    refine ⟨{ r' with options := o'.withoutDryRun, pending := none }, ?_, hlacks.closed,
      (Options.dryRun_of_add ho').trans hdry, .inl ⟨rfl, rfl⟩⟩
    show (do return { r' with options := ← o.withoutDryRun.add _, pending := none }) = _
    rw [hadd]
    rfl

/-- A reader that lacks the choice reads each argument as one that has it. -/
theorem lacks_of_step (hlacks : Lacks r r') (h : r.step a = .ok s) :
    ∃ s', r'.step a = .ok s' ∧ Lacks s s' := by
  have hopen := closed_of_step h
  have hopen' : r'.closed = false := hlacks.closed.trans hopen
  cases step_cases a with
  | closes hstep =>
    cases (hstep r hopen).symm.trans h
    exact ⟨_, hstep r' hopen', rfl, hlacks.dryRun, hlacks.pending⟩
  | begins option value hstep =>
    rw [hstep r hopen] at h
    rw [hstep r' hopen']
    exact lacks_of_begin hlacks h
  | choosesDryRun ha =>
    rw [ha, step_dryRun hopen] at h
    obtain ⟨o, ho, hdry, _⟩ := dryRun_eq_ok h
    rw [dryRun_of_settled ho, hlacks.dryRun] at hdry
    cases hdry
  | gives word hstep =>
    obtain ⟨option, hpending, rfl⟩ := plain_eq_ok ((hstep r hopen).symm.trans h)
    obtain ⟨hpending', hoptions⟩ | ⟨hnone, _⟩ := hlacks.pending
    · refine ⟨{ r' with pending := some ⟨option, some word⟩ }, ?_, hlacks.closed,
        hlacks.dryRun, .inl ⟨rfl, hoptions⟩⟩
      rw [hstep r' hopen']
      unfold plain
      rw [hpending', hpending]
    · rw [hnone] at hpending
      cases hpending
  | fails hfails => exact absurd h (hfails r s hopen)

theorem lacks_of_foldlM (hlacks : Lacks r r') (h : args.foldlM step r = .ok s) :
    ∃ s', args.foldlM step r' = .ok s' ∧ Lacks s s' := by
  induction args generalizing r r' with
  | nil =>
    cases h
    exact ⟨r', rfl, hlacks⟩
  | cons a args ih =>
    rw [List.foldlM_cons] at h
    obtain ⟨r₁, hstep, h⟩ := bind_eq_ok.1 h
    obtain ⟨r₁', hstep', hlacks₁⟩ := lacks_of_step hlacks hstep
    rw [List.foldlM_cons, hstep']
    exact ih hlacks₁ h

/-- Arguments choose a dry run if `--dry-run` is among them, and without it they are read alike. -/
theorem foldlM_erase (hr : r.options.dryRun = false) (h : args.foldlM step r = .ok s) :
    s.options.dryRun = false ∨
      ∃ s', (args.erase "--dry-run").foldlM step r = .ok s' ∧ Lacks s s' := by
  induction args generalizing r with
  | nil =>
    cases h
    exact .inl hr
  | cons a args ih =>
    rw [List.foldlM_cons] at h
    obtain ⟨r₁, hstep, hrest⟩ := bind_eq_ok.1 h
    by_cases ha : a = "--dry-run"
    · subst ha
      rw [step_dryRun (closed_of_step hstep)] at hstep
      rw [List.erase_cons_head]
      exact .inr (lacks_of_foldlM (lacks_of_dryRun hstep) hrest)
    · rw [List.erase_cons_tail (by simpa using ha), List.foldlM_cons, hstep]
      exact ih ((dryRun_of_step ha hstep).trans hr) hrest

end Reader

/-- Arguments that ask for a dry run ask for the same command without it if `--dry-run` is left
out. -/
theorem parse_erase_dryRun {args : List String} {c : Command} (h : parse args = .ok c)
    (hdry : c.dryRun = true) : parse (args.erase "--dry-run") = .ok { c with dryRun := false } := by
  obtain ⟨rest, rfl, h⟩ : ∃ rest, args = "generate" :: rest ∧ generateArguments rest = .ok c := by
    unfold parse at h
    split at h
    · cases h
    · exact ⟨_, rfl, h⟩
    · cases h
    · cases h
    · cases h
    · split at h <;> cases h
  obtain ⟨s, hs, h⟩ := bind_eq_ok.1 h
  obtain ⟨o, ho, hcommand⟩ := bind_eq_ok.1 h
  have hoption : o.dryRun = true := by
    unfold Options.command at hcommand
    split at hcommand
    · cases hcommand
    · cases hcommand
      exact hdry
  obtain hfalse | ⟨s', hs', hlacks⟩ := Reader.foldlM_erase rfl hs
  · rw [← Reader.dryRun_of_settled ho, hoption] at hfalse
    cases hfalse
  · rw [List.erase_cons_tail (by decide)]
    show generateArguments (rest.erase "--dry-run") = _
    unfold generateArguments
    rw [hs']
    show (s'.settled >>= Options.command) = _
    rw [hlacks.settled, ho]
    show o.withoutDryRun.command = _
    rw [Options.command_withoutDryRun, hcommand]
    rfl

end OrmGen.CommandLine
