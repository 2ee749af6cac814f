import AccumulatorMachine.CommandLine.Request

/-!
# `AccumulatorMachine.Proofs.VerboseFlag`: the flag that asks for a verbose run

A verbose run is asked for by a flag without a value, and what the other
words ask for does not depend on it. So words that are gone through from
arguments with the flag end as they do without it, with the flag on
(`Progress.through_verbosely`).

`ofWords_verbose` says it of the words of a command line: with the flag
in front of them they ask for the same, verbosely, or are refused with the
same error.
-/

set_option autoImplicit false

namespace AccumulatorMachine.CommandLine

/-! ### One word -/

/-- The same arguments for a verbose run. -/
def Arguments.verbosely (a : Arguments) : Arguments := { a with verbose := true }

/-- Flags are independent of each other: a verbose run may be chosen before
or after another flag. -/
theorem Arguments.turnOn_verbosely (a : Arguments) (f : Flag) :
    a.verbosely.turnOn f = (a.turnOn f).verbosely := by
  cases f <;> rfl

/-- So may it be with a flag that has a value, and a value that is refused
is refused in both. -/
theorem Arguments.setValue_verbosely (a : Arguments) (f : Flag) (value : String) :
    a.verbosely.setValue f value = (a.setValue f value).map Arguments.verbosely := by
  unfold setValue
  cases numberOf f value with
  | error e => rfl
  | ok number =>
      show Except.ok _ = Except.ok _
      split
      · rfl
      · rfl

namespace Progress

variable {s : Progress}

/-- The same progress for a verbose run. -/
def verbosely (s : Progress) : Progress := { s with arguments := s.arguments.verbosely }

/-- The same for the flags of a bundle, one after the other. -/
theorem turnOn_verbosely (s : Progress) (flags : List Flag) :
    s.verbosely.turnOn flags = (s.turnOn flags).verbosely := by
  have hfold : ∀ a : Arguments, flags.foldl Arguments.turnOn a.verbosely
      = (flags.foldl Arguments.turnOn a).verbosely := by
    induction flags with
    | nil => intro a; rfl
    | cons f flags ih =>
        intro a
        rw [List.foldl_cons, Arguments.turnOn_verbosely, ih, List.foldl_cons]
  rw [turnOn, verbosely, hfold]
  rfl

/-- The same for a value that is set on the way through the words. -/
theorem setValue_verbosely (s : Progress) (f : Flag) (value : String) :
    s.verbosely.setValue f value = (s.setValue f value).map verbosely := by
  have ha := s.arguments.setValue_verbosely f value
  unfold setValue
  show (s.arguments.verbosely.setValue f value).bind _ = _
  rw [ha]
  cases s.arguments.setValue f value with
  | error e => rfl
  | ok a => rfl

/-- A plain word is the file or is left over, which depends on the words
before it and not on the flags. -/
theorem takePlain_verbosely (s : Progress) (text : String) :
    s.verbosely.takePlain text = (s.takePlain text).verbosely := by
  unfold takePlain
  show (if s.fileNamed then _ else _) = _
  split
  · rfl
  · rfl

/-! ### All words -/

/-- A plain word in front of any other word than a double dash. -/
theorem through_plain (s : Progress) (text : String) {rest : List Word}
    (h : ∀ rest', rest ≠ .separator :: rest') :
    s.through (.plain text :: rest) = (s.takePlain text).through rest := by
  rw [through]
  exact h

/-- If the words behind a value are gone through in the same way, so are
they together with the value. -/
theorem setValue_bind_verbosely (s : Progress) (f : Flag) (value : String) {rest : List Word}
    (h : ∀ s' : Progress,
      s'.verbosely.through rest = (s'.through rest).map (Option.map verbosely)) :
    (s.verbosely.setValue f value >>= fun s' => s'.through rest)
      = (s.setValue f value >>= fun s' => s'.through rest).map (Option.map verbosely) := by
  rw [setValue_verbosely]
  cases s.setValue f value with
  | error e => rfl
  | ok s' => exact h s'

/-- Words are gone through in the same way if a verbose run was asked for
before. -/
theorem through_verbosely (s : Progress) (words : List Word) :
    s.verbosely.through words = (s.through words).map (Option.map verbosely) := by
  -- A word may take the one after it along, so the induction is on the length.
  induction hn : words.length using Nat.strongRecOn generalizing s words with
  | ind n ih =>
      subst hn
      match words with
      | [] => rfl
      | .unknown text :: rest =>
          have hrest := fun s' => ih rest.length (Nat.lt_succ_self _) s' rest rfl
          rw [through, through]
          exact hrest (s.leave text)
      | .plain text :: rest =>
          by_cases hseparator : ∃ rest', rest = .separator :: rest'
          · obtain ⟨rest', rfl⟩ := hseparator
            have hlt : rest'.length < (Word.plain text :: .separator :: rest').length :=
              Nat.lt_succ_of_lt (Nat.lt_succ_self _)
            have hrest := fun s' => ih _ hlt s' rest' rfl
            rw [through, through]
            show (if s.fileNamed then _ else _) = _
            split
            · exact hrest ((s.leave text).leave "--")
            · rw [takePlain_verbosely, hrest]
          · have hrest := fun s' => ih rest.length (Nat.lt_succ_self _) s' rest rfl
            have hplain : ∀ rest', rest ≠ .separator :: rest' := by
              intro rest' h
              exact hseparator ⟨rest', h⟩
            rw [through_plain _ _ hplain, through_plain _ _ hplain, takePlain_verbosely, hrest]
      | .separator :: rest =>
          have hrest := fun s' => ih rest.length (Nat.lt_succ_self _) s' rest rfl
          rw [through, through]
          show (if s.fileNamed then _ else _ : Progress).through rest = _
          split
          · exact hrest (s.leave "--")
          · exact hrest s
      | .flag flag joined attached :: rest =>
          have hrest := fun s' => ih rest.length (Nat.lt_succ_self _) s' rest rfl
          rw [through, through]
          cases Bundle.ofWord flag joined attached with
          | error e => rfl
          | ok bundle =>
              obtain ⟨flags, valued⟩ := bundle
              match valued with
              | none =>
                  show (if _ then _ else _) = Except.map _ (if _ then _ else _)
                  split
                  · rfl
                  · rw [turnOn_verbosely]
                    exact hrest (s.turnOn flags)
              | some (valued, some text) =>
                  show (if _ then _ else _) = Except.map _ (if _ then _ else _)
                  split
                  · rfl
                  · rw [turnOn_verbosely]
                    exact setValue_bind_verbosely _ valued _ hrest
              | some (valued, none) =>
                  match rest with
                  | [] => rfl
                  | .separator :: rest => rfl
                  | .unknown text :: rest => rfl
                  | .flag f joined attached :: rest => rfl
                  | .plain text :: rest =>
                      have hlt : rest.length
                          < (Word.flag flag joined attached :: .plain text :: rest).length :=
                        Nat.lt_succ_of_lt (Nat.lt_succ_self _)
                      have hrest' := fun s' => ih _ hlt s' rest rfl
                      show (if _ then _ else _) = Except.map _ (if _ then _ else _)
                      split
                      · rfl
                      · rw [turnOn_verbosely]
                        exact setValue_bind_verbosely _ valued _ hrest'

end Progress

/-- The same request for a verbose run. -/
def Request.verbosely : Request → Request
  | .help => .help
  | .work a => .work a.verbosely

/-- With the flag in front of them, words ask for the same verbosely. If
they are not understood, the error is the same. -/
theorem ofWords_verbose (words : List String) :
    Request.ofWords ("-v" :: words) = (Request.ofWords words).map Request.verbosely := by
  have hword : classify "-v" = .ok (.flag .verbose true none) := rfl
  unfold Request.ofWords
  rw [classifyAll, if_neg (by decide), hword]
  cases classifyAll words with
  | error e => rfl
  | ok classified =>
      -- The first word only turns the flag on, so the others are gone through verbosely.
      have hthrough : Progress.through {} (.flag .verbose true none :: classified)
          = (Progress.through {} classified).map (Option.map Progress.verbosely) := by
        rw [Progress.through]
        exact Progress.through_verbosely {} classified
      show (Progress.through {} (.flag .verbose true none :: classified) >>= _)
        = Except.map _ (Progress.through {} classified >>= _)
      rw [hthrough]
      cases Progress.through {} classified with
      | error e => rfl
      | ok progress =>
          cases progress with
          | none => rfl
          | some s =>
              -- Which words are left over does not depend on the flag.
              show (if s.leftOver.isEmpty then _ else _) = Except.map _ (if _ then _ else _)
              split
              · rfl
              · rfl

end AccumulatorMachine.CommandLine
