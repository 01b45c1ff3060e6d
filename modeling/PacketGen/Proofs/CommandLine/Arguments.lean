import PacketGen.CommandLine.Arguments

/-!
# Arguments without an output file

A command with `--output` is to print what it would have written when the option is taken away, and
the arguments are texts: the option has to be found among them as the program finds it.
`withoutOutput` goes by the same rules as `takeApart`: an option takes the next argument, whatever
that is, and behind `--` there are none. So an `--output` that is the value of another option stays.

What carries the induction over the arguments is that the two readings agree on everything but the
values of `--output` (`Given.withoutOutput`). At most one pair of arguments goes, because an option
that is given twice is a fault (`loses_of_takeApart`).
-/

namespace PacketGen.CommandLine

/-! ## Taking the option away -/

namespace Signature

/-- The arguments of a command without the option `--output` and its value. -/
def withoutOutput (sig : Signature) : (ended : Bool) → List String → List String
  | _, [] => []
  | ended, a :: rest =>
    if !ended && a ∈ sig.options then
      match rest with
      | [] => [a]
      | value :: rest =>
        if a = "--output" then sig.withoutOutput ended rest
        else a :: value :: sig.withoutOutput ended rest
    else a :: sig.withoutOutput (ended || a = "--") rest

/-- What makes an option one: it is read as nothing else. -/
structure Proper (sig : Signature) : Prop where
  output : "--output" ∈ sig.options
  dashed : ∀ option ∈ sig.options, option.startsWith "-" = true
  notHelp : ∀ option ∈ sig.options, asksHelp option = false
  notEnd : ∀ option ∈ sig.options, option ≠ "--"
  notSwitch : ∀ option ∈ sig.options, option ∉ sig.switches

end Signature

theorem proper_packetsSignature : packetsSignature.Proper where
  output := by decide
  dashed := by decide +kernel
  notHelp := by decide
  notEnd := by decide
  notSwitch := by decide

theorem proper_idsSignature : idsSignature.Proper where
  output := by decide
  dashed := by decide +kernel
  notHelp := by decide
  notEnd := by decide
  notSwitch := by decide

/-- The arguments of the program without the option `--output` of its command. -/
def withoutOutput : List String → List String
  | [] => []
  | a :: rest =>
    if a = "packets" then a :: packetsSignature.withoutOutput false rest
    else if a = "ids" then a :: idsSignature.withoutOutput false rest
    else a :: withoutOutput rest

namespace Given

/-- Arguments taken apart, without the value of `--output`. -/
def withoutOutput (g : Given) : Given :=
  { g with values := g.values.filter fun value => value.1 ≠ "--output" }

@[simp] theorem positionals_withoutOutput (g : Given) :
    g.withoutOutput.positionals = g.positionals := rfl

@[simp] theorem help_withoutOutput (g : Given) : g.withoutOutput.help = g.help := rfl

theorem value?_withoutOutput_of_ne (g : Given) {option : String} (h : option ≠ "--output") :
    g.withoutOutput.value? option = g.value? option := by
  rw [value?, value?, withoutOutput]
  induction g.values with
  | nil => rfl
  | cons value values ih =>
    obtain ⟨name, text⟩ := value
    by_cases hname : name = "--output"
    · have hother : (option == name) = false := beq_eq_false_iff_ne.mpr (hname ▸ h)
      rw [List.filter_cons_of_neg (by simpa using hname), ih, List.lookup_cons, hother]
    · rw [List.filter_cons_of_pos (by simpa using hname), List.lookup_cons, List.lookup_cons, ih]

theorem value?_withoutOutput (g : Given) : g.withoutOutput.value? "--output" = none := by
  rw [value?, withoutOutput, List.lookup_eq_none_iff]
  intro value hvalue
  have hne := (List.mem_filter.mp hvalue).2
  rw [decide_eq_true_eq] at hne
  exact bne_iff_ne.mpr (Ne.symm hne)

end Given

namespace Signature

variable {sig : Signature} {g g' : Given} {args : List String}

@[simp] theorem withoutOutput_nil (ended : Bool) : sig.withoutOutput ended [] = [] := by
  rw [withoutOutput.eq_def]

theorem withoutOutput_of_not_option {a : String} {ended : Bool}
    (h : ended = true ∨ a ∉ sig.options) (rest : List String) :
    sig.withoutOutput ended (a :: rest) = a :: sig.withoutOutput (ended || a = "--") rest := by
  have hcond : ¬ (!ended && decide (a ∈ sig.options)) = true := by
    rcases h with h | h <;> simp [h]
  rw [withoutOutput.eq_def]
  exact if_neg hcond

theorem withoutOutput_option {a : String} (h : a ∈ sig.options) (value : String)
    (rest : List String) :
    sig.withoutOutput false (a :: value :: rest) =
      if a = "--output" then sig.withoutOutput false rest
      else a :: value :: sig.withoutOutput false rest := by
  rw [withoutOutput.eq_def]
  exact if_pos (by simp [h])

/-- An argument that is no option and does not end the options is kept. -/
theorem withoutOutput_kept {a : String} {ended : Bool}
    (h : ended = true ∨ a ∉ sig.options ∧ a ≠ "--") (rest : List String) :
    sig.withoutOutput ended (a :: rest) = a :: sig.withoutOutput ended rest := by
  rcases h with rfl | ⟨hoption, hend⟩
  · exact withoutOutput_of_not_option (.inl rfl) rest
  · rw [withoutOutput_of_not_option (.inr hoption), decide_eq_false hend, Bool.or_false]

theorem not_ended_of_dashed {a : String} {ended : Bool}
    (h : (a.startsWith "-" && !ended) = true) : ended = false := by
  have hnot := (Bool.and_eq_true_iff.mp h).2
  rwa [Bool.not_eq_true'] at hnot

theorem kept_of_positional (hsig : sig.Proper) {a : String} {ended : Bool}
    (h : ¬ (a.startsWith "-" && !ended) = true) :
    ended = true ∨ a ∉ sig.options ∧ a ≠ "--" := by
  cases ended with
  | true => exact .inl rfl
  | false =>
    rw [Bool.not_false, Bool.and_true] at h
    refine .inr ⟨fun hoption => h (hsig.dashed a hoption), ?_⟩
    rintro rfl
    exact h (by decide +kernel)

theorem kept_of_help (hsig : sig.Proper) {a : String} {ended : Bool}
    (h : (asksHelp a && !ended) = true) : ended = true ∨ a ∉ sig.options ∧ a ≠ "--" := by
  have hhelp := (Bool.and_eq_true_iff.mp h).1
  refine .inr ⟨fun hoption => absurd hhelp ?_, ?_⟩
  · rw [hsig.notHelp a hoption]
    exact Bool.false_ne_true
  · rintro rfl
    exact absurd hhelp (by decide)

/-- A value is entered in what is left of the arguments as it is entered in all of them. -/
theorem enterValue_withoutOutput {option value : String} (hoption : option ≠ "--output")
    (h : sig.enterValue g option value = .ok g') :
    sig.enterValue g.withoutOutput option value = .ok g'.withoutOutput := by
  rw [enterValue, Given.value?_withoutOutput_of_ne g hoption]
  rw [enterValue] at h
  split at h
  · cases h
  · next hfresh =>
    rw [if_neg hfresh]
    split at h
    · cases h
    · cases h
      simp [Given.withoutOutput, List.filter_append, hoption]

theorem enterValue_optionsEnded {option value : String}
    (h : sig.enterValue g option value = .ok g') : g'.optionsEnded = g.optionsEnded := by
  rw [enterValue] at h
  split at h
  · cases h
  · split at h
    · cases h
    · cases h
      rfl

theorem enterValue_output {value : String} (h : sig.enterValue g "--output" value = .ok g') :
    g'.withoutOutput = g.withoutOutput := by
  rw [enterValue] at h
  split at h
  · cases h
  · split at h
    · cases h
    · cases h
      simp [Given.withoutOutput, List.filter_append]

/-- **Without `--output`, arguments are taken apart as before**, but for the value of that. -/
theorem takeApart_withoutOutput (hsig : sig.Proper) (h : sig.takeApart g args = .ok g') :
    sig.takeApart g.withoutOutput (sig.withoutOutput g.optionsEnded args) =
      .ok g'.withoutOutput := by
  fun_induction Signature.takeApart sig g args with
  | case1 g =>
    cases h
    rw [withoutOutput_nil, takeApart.eq_def]
  | case2 g a rest hhelp ih =>
    rw [withoutOutput_kept (kept_of_help hsig hhelp), takeApart.eq_def]
    exact (if_pos hhelp).trans (ih h)
  | case3 g rest hhelp hdash ih =>
    rw [withoutOutput_of_not_option (.inr fun hoption => hsig.notEnd _ hoption rfl),
      takeApart.eq_def]
    rw [decide_eq_true rfl, Bool.or_true]
    exact (if_neg hhelp).trans ((if_pos hdash).trans ((if_pos rfl).trans (ih h)))
  | case4 g a rest hhelp hdash hend hasked => cases h
  | case5 g a rest hhelp hdash hend hasked hswitch ih =>
    have hoption : a ∉ sig.options := fun hoption => hsig.notSwitch a hoption hswitch
    rw [withoutOutput_kept (.inr ⟨hoption, hend⟩), takeApart.eq_def]
    exact (if_neg hhelp).trans ((if_pos hdash).trans ((if_neg hend).trans
      ((if_neg hasked).trans ((if_pos hswitch).trans (ih h)))))
  | case6 g a hhelp hdash hend hasked hswitch hoption => cases h
  | case7 g a hhelp hdash hend hasked hswitch hoption value rest e henter => cases h
  | case8 g a hhelp hdash hend hasked hswitch hoption value rest g₁ henter ih =>
    rw [enterValue_optionsEnded henter, not_ended_of_dashed hdash] at ih
    rw [not_ended_of_dashed hdash, withoutOutput_option hoption]
    by_cases houtput : a = "--output"
    · rw [if_pos houtput]
      have hsame := enterValue_output (houtput ▸ henter)
      exact hsame ▸ ih h
    · have hvalue := enterValue_withoutOutput houtput henter
      rw [if_neg houtput, takeApart.eq_def]
      refine (if_neg hhelp).trans ((if_pos hdash).trans ((if_neg hend).trans
        ((if_neg hasked).trans ((if_neg hswitch).trans ((if_pos hoption).trans ?_)))))
      dsimp only
      rw [hvalue]
      exact ih h
  | case9 g a rest hhelp hdash hend hasked hswitch hoption => cases h
  | case10 g a rest hhelp hdash hposition ih =>
    rw [withoutOutput_kept (kept_of_positional hsig hdash), takeApart.eq_def]
    exact (if_neg hhelp).trans ((if_neg hdash).trans ((if_pos hposition).trans (ih h)))
  | case11 g a rest hhelp hdash hposition => cases h

/-- How arguments lose the option. If its value is known already, they have none to lose; otherwise
it stands among them, with its value, and everything before and behind these two stays. -/
def Loses (path : String) : (known : Option String) → (args dropped : List String) → Prop
  | some value, args, dropped => value = path ∧ dropped = args
  | none, args, dropped => ∃ before after,
      args = before ++ "--output" :: path :: after ∧ dropped = before ++ after

theorem Loses.append {path : String} {known : Option String} {args dropped : List String}
    (h : Loses path known args dropped) (front : List String) :
    Loses path known (front ++ args) (front ++ dropped) := by
  cases known with
  | some value => exact ⟨h.1, congrArg (front ++ ·) h.2⟩
  | none =>
    obtain ⟨before, after, rfl, rfl⟩ := h
    exact ⟨front ++ before, after, (List.append_assoc ..).symm, (List.append_assoc ..).symm⟩

theorem value?_enterValue {option value : String} (h : sig.enterValue g option value = .ok g') :
    g.value? option = none ∧ g'.value? option = some value ∧
      ∀ other ≠ option, g'.value? other = g.value? other := by
  rw [enterValue] at h
  split at h
  · cases h
  · next hfresh =>
    have hnone : g.values.lookup option = none := Option.not_isSome_iff_eq_none.mp hfresh
    split at h
    · cases h
    · cases h
      refine ⟨hnone, ?_, fun other hother => ?_⟩
      · simp [Given.value?, List.lookup_append, hnone]
      · have hne : (other == option) = false := beq_eq_false_iff_ne.mpr hother
        simp [Given.value?, List.lookup_append, List.lookup_cons, hne]

/-- An option `--output` that is taken has its place among the arguments. -/
theorem loses_of_takeApart (hsig : sig.Proper) (h : sig.takeApart g args = .ok g')
    {path : String} (hpath : g'.value? "--output" = some path) :
    Loses path (g.value? "--output") args (sig.withoutOutput g.optionsEnded args) := by
  fun_induction Signature.takeApart sig g args with
  | case1 g =>
    cases h
    rw [hpath, withoutOutput_nil]
    exact ⟨rfl, rfl⟩
  | case2 g a rest hhelp ih =>
    rw [withoutOutput_kept (kept_of_help hsig hhelp)]
    exact (ih h).append [a]
  | case3 g rest hhelp hdash ih =>
    rw [withoutOutput_of_not_option (.inr fun hoption => hsig.notEnd _ hoption rfl),
      decide_eq_true rfl, Bool.or_true]
    exact (ih h).append ["--"]
  | case4 g a rest hhelp hdash hend hasked => cases h
  | case5 g a rest hhelp hdash hend hasked hswitch ih =>
    have hoption : a ∉ sig.options := fun hoption => hsig.notSwitch a hoption hswitch
    rw [withoutOutput_kept (.inr ⟨hoption, hend⟩)]
    exact (ih h).append [a]
  | case6 g a hhelp hdash hend hasked hswitch hoption => cases h
  | case7 g a hhelp hdash hend hasked hswitch hoption value rest e henter => cases h
  | case8 g a hhelp hdash hend hasked hswitch hoption value rest g₁ henter ih =>
    have hrest := ih h
    obtain ⟨hfresh, hentered, hothers⟩ := value?_enterValue henter
    rw [enterValue_optionsEnded henter, not_ended_of_dashed hdash] at hrest
    rw [not_ended_of_dashed hdash, withoutOutput_option hoption]
    by_cases houtput : a = "--output"
    · subst houtput
      rw [hentered] at hrest
      obtain ⟨rfl, hsame⟩ := hrest
      rw [if_pos rfl, hfresh]
      exact ⟨[], rest, rfl, hsame⟩
    · rw [hothers _ (Ne.symm houtput)] at hrest
      rw [if_neg houtput]
      exact hrest.append [a, value]
  | case9 g a rest hhelp hdash hend hasked hswitch hoption => cases h
  | case10 g a rest hhelp hdash hposition ih =>
    rw [withoutOutput_kept (kept_of_positional hsig hdash)]
    exact (ih h).append [a]
  | case11 g a rest hhelp hdash hposition => cases h

end Signature

/-! ## Commands without an output file -/

/-- The options on the generated text, without the file to write. -/
def OutputOptions.withoutOutput (o : OutputOptions) : OutputOptions := { o with output := none }

namespace Command

/-- The file that a command writes. -/
def output? : Command → Option String
  | packets o => o.output.output
  | ids o => o.output.output
  | version => none
  | nothing => none

/-- The command that prints what the command writes. -/
def withoutOutput : Command → Command
  | packets o => packets { o with output := o.output.withoutOutput }
  | ids o => ids { o with output := o.output.withoutOutput }
  | version => version
  | nothing => nothing

end Command

theorem Given.outputOptions_withoutOutput (g : Given) :
    g.withoutOutput.outputOptions = g.outputOptions.withoutOutput := by
  rw [outputOptions, value?_withoutOutput, value?_withoutOutput_of_ne g (by decide)]
  rfl

theorem parsePackets_withoutOutput {args : List String} {help : Bool} {o : PacketsOptions}
    (h : parsePackets args help = .ok o) :
    parsePackets (packetsSignature.withoutOutput false args) help =
      .ok { o with output := o.output.withoutOutput } := by
  rw [parsePackets] at h
  split at h
  · cases h
  · next g htake =>
    have hdropped : packetsSignature.takeApart { Given.empty with help }
        (packetsSignature.withoutOutput false args) = .ok g.withoutOutput :=
      Signature.takeApart_withoutOutput proper_packetsSignature htake
    rw [parsePackets, hdropped]
    dsimp only
    rw [g.value?_withoutOutput_of_ne (by decide), g.value?_withoutOutput_of_ne (by decide),
      g.value?_withoutOutput_of_ne (by decide), g.outputOptions_withoutOutput,
      g.help_withoutOutput, g.positionals_withoutOutput]
    split at h
    · cases h
    · next hhelp =>
      rw [if_neg hhelp]
      split at h
      · cases h
        rfl
      · cases h

theorem parseIds_withoutOutput {args : List String} {help : Bool} {o : IdsOptions}
    (h : parseIds args help = .ok o) :
    parseIds (idsSignature.withoutOutput false args) help =
      .ok { o with output := o.output.withoutOutput } := by
  rw [parseIds] at h
  split at h
  · cases h
  · next g htake =>
    have hdropped : idsSignature.takeApart { Given.empty with help }
        (idsSignature.withoutOutput false args) = .ok g.withoutOutput :=
      Signature.takeApart_withoutOutput proper_idsSignature htake
    rw [parseIds, hdropped]
    dsimp only
    have hothers : ∀ option ≠ "--output", g.withoutOutput.value? option = g.value? option :=
      fun _ => g.value?_withoutOutput_of_ne
    rw [hothers "--type-name" (by decide), hothers "--repr" (by decide),
      hothers "--package" (by decide), hothers "--suffix" (by decide),
      hothers "--declaration-suffix" (by decide), g.outputOptions_withoutOutput,
      g.help_withoutOutput, g.positionals_withoutOutput]
    split at h
    · cases h
    · next hhelp =>
      rw [if_neg hhelp]
      split at h
      · cases h
        rfl
      · cases h

theorem loses_of_parsePackets {args : List String} {help : Bool} {o : PacketsOptions}
    (h : parsePackets args help = .ok o) {path : String} (hpath : o.output.output = some path) :
    Signature.Loses path none args (packetsSignature.withoutOutput false args) := by
  rw [parsePackets] at h
  split at h
  · cases h
  · next g htake =>
    refine Signature.loses_of_takeApart proper_packetsSignature htake ?_
    split at h
    · cases h
    · split at h
      · cases h
        exact hpath
      · cases h

theorem loses_of_parseIds {args : List String} {help : Bool} {o : IdsOptions}
    (h : parseIds args help = .ok o) {path : String} (hpath : o.output.output = some path) :
    Signature.Loses path none args (idsSignature.withoutOutput false args) := by
  rw [parseIds] at h
  split at h
  · cases h
  · next g htake =>
    refine Signature.loses_of_takeApart proper_idsSignature htake ?_
    split at h
    · cases h
    · split at h
      · cases h
        exact hpath
      · cases h

theorem withoutOutput_cons {a : String} (hpackets : a ≠ "packets") (hids : a ≠ "ids")
    (rest : List String) : withoutOutput (a :: rest) = a :: withoutOutput rest := by
  rw [withoutOutput, if_neg hpackets, if_neg hids]

/-- A word that is read before the command is none of the commands. -/
theorem not_command_of_help {a : String} {ended : Bool} (h : (asksHelp a && !ended) = true) :
    a ≠ "packets" ∧ a ≠ "ids" := by
  have hhelp := (Bool.and_eq_true_iff.mp h).1
  constructor <;> rintro rfl <;> exact absurd hhelp (by decide)

theorem not_command_of_dashed {a : String} {ended : Bool}
    (h : (a.startsWith "-" && !ended) = true) : a ≠ "packets" ∧ a ≠ "ids" := by
  have hdash := (Bool.and_eq_true_iff.mp h).1
  constructor <;> rintro rfl <;> exact absurd hdash (by decide +kernel)

theorem parseFrom_withoutOutput {help ended version : Bool} {args : List String} {c : Command}
    (h : parseFrom help ended version args = .ok c) :
    parseFrom help ended version (withoutOutput args) = .ok c.withoutOutput ∧
      ∀ path, c.output? = some path → Signature.Loses path none args (withoutOutput args) := by
  fun_induction parseFrom help ended version args with
  | case1 ended version => cases h
  | case2 help ended version hhelp =>
    rw [withoutOutput, parseFrom, if_neg hhelp]
    cases version with
    | true =>
      cases h
      exact ⟨rfl, fun _ hpath => (nomatch hpath)⟩
    | false =>
      cases h
      exact ⟨rfl, fun _ hpath => (nomatch hpath)⟩
  | case3 help ended version a rest hhelp ih =>
    obtain ⟨hpackets, hids⟩ := not_command_of_help hhelp
    rw [withoutOutput_cons hpackets hids, parseFrom, if_pos hhelp]
    exact ⟨(ih h).1, fun path hpath => ((ih h).2 path hpath).append [a]⟩
  | case4 help ended version rest hhelp hdash ih =>
    obtain ⟨hpackets, hids⟩ := not_command_of_dashed hdash
    rw [withoutOutput_cons hpackets hids, parseFrom, if_neg hhelp, if_pos hdash, if_pos rfl]
    exact ⟨(ih h).1, fun path hpath => ((ih h).2 path hpath).append ["--"]⟩
  | case5 ended version a rest hhelp hdash hend => cases h
  | case6 help ended version rest hasked hhelp hdash hend ih =>
    obtain ⟨hpackets, hids⟩ := not_command_of_dashed hdash
    rw [withoutOutput_cons hpackets hids, parseFrom, if_neg hhelp, if_pos hdash, if_neg hend,
      if_neg hasked, if_pos rfl]
    exact ⟨(ih h).1, fun path hpath => ((ih h).2 path hpath).append ["--version"]⟩
  | case7 help ended version a rest hhelp hdash hend hasked hversion => cases h
  | case8 help ended version rest hhelp hdash =>
    rw [withoutOutput, if_pos rfl, parseFrom, if_neg hhelp, if_neg hdash, if_pos rfl]
    cases hparse : parsePackets rest help with
    | error r =>
      rw [hparse] at h
      cases h
    | ok o =>
      rw [hparse] at h
      rw [parsePackets_withoutOutput hparse]
      cases version with
      | true =>
        cases h
        exact ⟨rfl, fun _ hpath => (nomatch hpath)⟩
      | false =>
        cases h
        exact ⟨rfl, fun path hpath => (loses_of_parsePackets hparse hpath).append ["packets"]⟩
  | case9 help ended version rest hhelp hdash hpackets =>
    rw [withoutOutput, if_neg hpackets, if_pos rfl, parseFrom, if_neg hhelp, if_neg hdash,
      if_neg hpackets, if_pos rfl]
    cases hparse : parseIds rest help with
    | error r =>
      rw [hparse] at h
      cases h
    | ok o =>
      rw [hparse] at h
      rw [parseIds_withoutOutput hparse]
      cases version with
      | true =>
        cases h
        exact ⟨rfl, fun _ hpath => (nomatch hpath)⟩
      | false =>
        cases h
        exact ⟨rfl, fun path hpath => (loses_of_parseIds hparse hpath).append ["ids"]⟩
  | case10 help ended version a rest hhelp hdash hpackets hids => cases h

/-- **Without `--output`, the same command is asked for**, to print its text. -/
theorem parse_withoutOutput {args : List String} {c : Command} (h : parse args = .ok c) :
    parse (withoutOutput args) = .ok c.withoutOutput :=
  (parseFrom_withoutOutput h).1

/-- The option and its value are all that goes. -/
theorem withoutOutput_split {args : List String} {c : Command} (h : parse args = .ok c)
    {path : String} (hpath : c.output? = some path) :
    ∃ before after, args = before ++ "--output" :: path :: after ∧
      withoutOutput args = before ++ after :=
  (parseFrom_withoutOutput h).2 path hpath

end PacketGen.CommandLine
