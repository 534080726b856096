import RoundTrip.Proofs.Discovery
import RoundTrip.Proofs.Exit
import RoundTrip.Proofs.Faults
import RoundTrip.Proofs.Starts
import RoundTrip.Proofs.Words

/-! # What a splitter decides

    A splitter `Answers` if it ends in time and either says by its exit code that the file
    stays whole, or exits with 0 and prints a word.  What is made of its report is said for
    answers and for all else (`outcome_of_answers`, `outcome_of_not_answers`), so a case goes on
    to its verification exactly if the splitter answers, and in all other cases it ends in a
    defect with what the splitter has said: **`Plan.splitter_decides`**.

    An answer never comes without input files, and the number of sources grows by one less
    than there are of them: `Plan.inputs_of_opening`. -/

namespace RoundTrip

open Step (endState)

namespace Splitter

/-- The splitter has ended in time, and with 1, with 2, or with 0 and something to read in its
    output. -/
def Answers (i : Invocation) : Prop :=
  i.timedOut = false
    ∧ (i.exitCode = 1 ∨ i.exitCode = 2
      ∨ i.exitCode = 0 ∧ ∃ c ∈ (Text.decode i.stdout).toList, Text.isBlank c = false)

instance : DecidablePred Answers := fun i =>
  have := List.decidableBEx (fun c => Text.isBlank c = false) (Text.decode i.stdout).toList
  inferInstanceAs (Decidable (_ ∧ _))

/-- The input files that an answer gives a source, in a world: the source itself, or what the
    words of the output are resolved to, one by one. -/
inductive Names (w : World) (source dir : Path) (i : Invocation) : List Path → Prop where
  | whole (hcode : i.exitCode = 1 ∨ i.exitCode = 2) : Names w source dir i [source]
  | parts {files : List Path} (hcode : i.exitCode = 0)
      (hfiles : List.Forall₂ (fun (word : String) file =>
        w.disk.resolve w.cwd (dir / word) = .ok file) (Text.wordsOf (Text.decode i.stdout)) files) :
      Names w source dir i files

variable {splitter source dir : Path} {limit : Option Number} {i : Invocation} {w w' : World}

theorem two_le_argv (splitter source : Path) : 2 ≤ (argv splitter source).length := by
  unfold argv
  split <;> simp

/-- A list of names is made into the files that they resolve to. -/
theorem outcome_of_files {files : List Path} (htime : i.timedOut = false) (hzero : i.exitCode = 0)
    (hwords : Text.wordsOf (Text.decode i.stdout) ≠ [])
    (hfiles : resolveNames dir (Text.wordsOf (Text.decode i.stdout)) w = .ok files) :
    outcome limit source dir i w = .ok (.into files) w := by
  unfold outcome
  dsimp only
  rw [if_neg (by simp [htime]), if_pos hzero, if_neg (by simpa using hwords),
    Step.bind_ok (Step.get_apply w), hfiles]
  rfl

/-- An answer is made into input files, unless a name of one cannot be resolved. -/
theorem outcome_of_answers (limit : Option Number) (h : Answers i)
    (hnames : i.exitCode = 0 → ∀ e,
      resolveNames dir (Text.wordsOf (Text.decode i.stdout)) w ≠ .error e) :
    ∃ splitting, outcome limit source dir i w = .ok splitting w ∧ splitting.isFatal = false
      ∧ Names w source dir i (splitting.files source) := by
  obtain ⟨htime, hone | htwo | ⟨hzero, hword⟩⟩ := h
  · refine ⟨.single source, ?_, rfl, .whole (Or.inl hone)⟩
    unfold outcome
    rw [htime, hone]
    rfl
  · refine ⟨.undecodable (Text.decode (i.stdout ++ i.stderr)), ?_, rfl, .whole (Or.inr htwo)⟩
    unfold outcome
    rw [htime, htwo]
    rfl
  · cases hfiles : resolveNames dir (Text.wordsOf (Text.decode i.stdout)) w with
    | error e => exact absurd hfiles (hnames hzero e)
    | ok files =>
        exact ⟨.into files,
          outcome_of_files htime hzero ((Text.wordsOf_ne_nil_iff _).mpr hword) hfiles, rfl,
          .parts hzero (mapM_eq_ok_iff.mp hfiles)⟩

/-- What is no answer says that the splitter is broken. -/
theorem outcome_of_not_answers (limit : Option Number) (source dir : Path) (w : World)
    (h : ¬ Answers i) :
    ∃ front, outcome limit source dir i w
      = .ok (.broken i.exitCode (front ++ Text.decode (i.stdout ++ i.stderr))) w := by
  unfold outcome
  dsimp only
  by_cases htime : i.timedOut = true
  · rw [if_pos htime]
    exact ⟨_, rfl⟩
  rw [if_neg htime]
  have htime' : i.timedOut = false := eq_false_of_ne_true htime
  by_cases hzero : i.exitCode = 0
  · have hwords : Text.wordsOf (Text.decode i.stdout) = [] := by
      by_contra hne
      exact h ⟨htime', Or.inr (Or.inr ⟨hzero, (Text.wordsOf_ne_nil_iff _).mp hne⟩)⟩
    rw [if_pos hzero, hwords, if_pos List.isEmpty_nil, hzero]
    exact ⟨_, rfl⟩
  have hone : i.exitCode ≠ 1 := fun hone => h ⟨htime', Or.inl hone⟩
  have htwo : i.exitCode ≠ 2 := fun htwo => h ⟨htime', Or.inr (Or.inl htwo)⟩
  rw [if_neg hzero, if_neg hone, if_neg htwo]
  exact ⟨"", by rw [String.empty_append]; rfl⟩

/-- Files that take the place of a source: there are some, and the number of sources grows by
    all but one of them. -/
structure Replaces (files : List Path) (growth : Int) : Prop where
  notEmpty : files ≠ []
  growth_eq : growth = files.length - 1

/-- An answer that can be used replaces its source by as many inputs as it says. -/
theorem delivers_outcome (limit : Option Number) (source dir : Path) (i : Invocation) :
    Step.Delivers (fun x : Splitting => x.isFatal = false → Replaces (x.files source) x.growth)
      (outcome limit source dir i) := by
  have hone : Replaces [source] 0 := ⟨List.cons_ne_nil _ _, rfl⟩
  unfold outcome
  dsimp only
  split
  · exact Step.delivers_pure (fun h => nomatch h)
  split
  · split
    · exact Step.delivers_pure (fun h => nomatch h)
    · rename_i hnames
      refine Step.delivers_bind fun w => ?_
      intro v splitting v' h
      obtain ⟨files, u, hfiles, h⟩ := Step.bind_eq_ok_iff.mp h
      cases h
      -- there are as many files as there are words
      have hlength := (mapM_eq_ok_iff.mp (Step.of_ofExcept_eq_ok hfiles).1).length_eq
      refine fun _ => ⟨fun hnil => hnames ?_, rfl⟩
      rw [show files = [] from hnil, List.length_nil] at hlength
      rw [List.length_eq_zero_iff.mp hlength, List.isEmpty_nil]
  split
  · exact Step.delivers_pure fun _ => hone
  split
  · exact Step.delivers_pure fun _ => hone
  · exact Step.delivers_pure (fun h => nomatch h)

end Splitter

namespace Plan

open Splitter

variable {p : Plan} {number : Nat} {source splitter dir : Path} {limit : Option Number}
  {s s' : Session} {w w₁ w₂ : World} {splitting : Splitting} {inputs : List Path} {i : Invocation}

/-- An answer of the splitter opens the case with its inputs. -/
theorem opening_of_run (hsplit : p.split number = Splitter.split splitter limit)
    (hrun : (command splitter source dir limit).run w = .ok i w₁)
    (houtcome : outcome limit source dir i w₁ = .ok splitting w₁) :
    p.opening number source dir w
      = (splitting.inputs source p.splitter >>= fun inputs => pure (splitting, inputs)) w₁ := by
  unfold opening
  rw [hsplit, Splitter.split_eq]
  exact Step.bind_ok ((Step.bind_ok hrun).trans houtcome)

theorem opening_of_run_error (hsplit : p.split number = Splitter.split splitter limit) {e : Fault}
    (hrun : (command splitter source dir limit).run w = .error e w₁) :
    p.opening number source dir w = .error e w₁ := by
  unfold opening
  rw [hsplit, Splitter.split_eq]
  exact Step.bind_error (Step.bind_error hrun)

/-- **Where a case is opened there are input files**, and they take the place of the source. -/
theorem inputs_of_opening (hsplit : p.split number = Splitter.split splitter limit)
    (h : p.opening number source dir w = .ok (splitting, inputs) w') :
    Replaces inputs splitting.growth := by
  obtain ⟨v, hsplitting, hinputs⟩ := opening_eq_ok h
  rw [hsplit] at hsplitting
  have hreplaces := Step.delivers_bind (delivers_outcome limit source dir) _ _ _ hsplitting
  obtain ⟨hgood, hfiles⟩ | ⟨-, e, hfault⟩ := splitting.inputs_cases source p.splitter
  · obtain ⟨stderr, hfiles⟩ := hfiles v
    rw [hfiles] at hinputs
    cases hinputs
    exact hreplaces hgood
  · rw [hfault v] at hinputs
    cases hinputs

/-- An answer opens the case. -/
theorem opening_of_answers (hsplit : p.split number = Splitter.split splitter limit)
    (hrun : (command splitter source dir limit).run w = .ok i w₁) (hanswers : Answers i)
    (hnames : i.exitCode = 0 → ∀ e,
      resolveNames dir (Text.wordsOf (Text.decode i.stdout)) w₁ ≠ .error e) :
    ∃ splitting inputs w₂, p.opening number source dir w = .ok (splitting, inputs) w₂
      ∧ Names w₁ source dir i inputs := by
  obtain ⟨splitting, houtcome, hfatal, hfiles⟩ := outcome_of_answers limit hanswers hnames
  rw [opening_of_run hsplit hrun houtcome]
  obtain ⟨-, hinputs⟩ | ⟨hfatal', -⟩ := splitting.inputs_cases source p.splitter
  · obtain ⟨stderr, hinputs⟩ := hinputs w₁
    exact ⟨splitting, _, _, Step.bind_ok hinputs, hfiles⟩
  · rw [hfatal] at hfatal'
    cases hfatal'

/-- Anything else ends it in a defect, which tells what the splitter has said. -/
theorem opening_of_not_answers (hsplit : p.split number = Splitter.split splitter limit)
    (hrun : (command splitter source dir limit).run w = .ok i w₁) (hanswers : ¬ Answers i) :
    ∃ d front, p.opening number source dir w = .error (.defect d) w₁
      ∧ d.exitCode? = some i.exitCode
      ∧ d.output = front ++ Text.decode (i.stdout ++ i.stderr) := by
  obtain ⟨front, houtcome⟩ :=
    outcome_of_not_answers limit source dir w₁ hanswers
  rw [opening_of_run hsplit hrun houtcome]
  exact ⟨_, front, rfl, rfl, rfl⟩

/-- A case whose opening ends in a fault ends in it, too, with nothing counted, and with one
    process started. -/
theorem tryCase_of_opening_error (hsplit : p.split number = Splitter.split splitter limit)
    (henter : Workspace.enter Workspace.defaultStem s.world = .ok dir w₁) {e : Fault}
    (hopening : p.opening number source dir w₁ = .error e w₂) :
    ∃ s' k, p.tryCase number source s = .error e s' ∧ s'.tally = s.tally
      ∧ s'.world.spawns = s.world.spawns ++ [k] ∧ k.Of (command splitter source dir limit) := by
  obtain ⟨k, hk, hspawns⟩ := (goes_opening p number hsplit source dir w₁).of_single
  have hcase := tryCase_of_enter p number source henter
  rw [examine_of_opening_error (s := { s with world := w₁ }) hopening] at hcase
  obtain ⟨v, hleave, hcase⟩ := hcase
  refine ⟨_, k, hcase, rfl, ?_, hk.of⟩
  have hleft := startsNothing_leave dir w₂.record w₂ rfl
  rw [hleave] at hleft
  rw [hopening] at hspawns
  obtain ⟨_, _, _, _, -, -, -, rfl⟩ := enter_eq_ok henter
  exact (World.spawns_of_record hleft).trans hspawns

/-- **What the splitter decides.**  Once a workspace is there and the clock can tell how long
    the splitter takes, and unless a path is met that cannot be resolved, a case is opened
    exactly if the splitter answers.  Then what comes of it is what comes of the verification
    of the files that the splitter names.  Otherwise the case ends in a defect, nothing is
    counted, and no process but the splitter is started.  If that could be started, the defect
    carries its exit code, and ends with its output. -/
theorem splitter_decides {c : Command} (hc : c = command splitter source dir limit)
    (hsplit : p.split number = Splitter.split splitter limit)
    (henter : Workspace.enter Workspace.defaultStem s.world = .ok dir w₁)
    (htimed : (w₁.script.headD .idle).Timed limit w₁.clock)
    (heffects : ∀ v, c.run w₁ ≠ .error (.path .nul) v)
    (hnames : ∀ i v, c.run w₁ = .ok i v → i.timedOut = false → i.exitCode = 0 → ∀ e,
      resolveNames dir (Text.wordsOf (Text.decode i.stdout)) v ≠ .error e) :
    ((∃ opened w₂, p.opening number source dir w₁ = .ok opened w₂)
        ↔ ∃ i v, c.run w₁ = .ok i v ∧ Answers i)
      ∧ (∀ splitting inputs w₂, p.opening number source dir w₁ = .ok (splitting, inputs) w₂ →
        (∃ i v, c.run w₁ = .ok i v ∧ Names v source dir i inputs)
          ∧ Step.outcome (p.tryCase number source s)
            = Step.outcome (Verification.verify ⟨source, inputs⟩ p.compiler p.comparator dir w₂))
      ∧ ((¬∃ i v, c.run w₁ = .ok i v ∧ Answers i) →
        ∃ d s' k, p.tryCase number source s = .error (.defect d) s' ∧ s'.tally = s.tally
          ∧ s'.world.spawns = s.world.spawns ++ [k] ∧ k.Of c
          ∧ (∀ i v, c.run w₁ = .ok i v → d.exitCode? = some i.exitCode
            ∧ ∃ front, d.output = front ++ Text.decode (i.stdout ++ i.stderr))
          ∧ ∀ e v, c.run w₁ = .error e v → ∃ program reason, d = .notStarted program reason) := by
  subst hc
  have hunopened : ∀ {e v}, p.opening number source dir w₁ = .error e v →
      ¬∃ opened w₂, p.opening number source dir w₁ = .ok opened w₂ := by
    rintro e v hopening ⟨opened, w₂, h⟩
    rw [hopening] at h
    cases h
  -- either the splitter has not run to an end, or it has and its answer is one of the known
  -- ones or not
  cases hrun : (command splitter source dir limit).run w₁ with
  | error e v =>
      have hopening := opening_of_run_error hsplit hrun
      refine ⟨⟨fun h => absurd h (hunopened hopening), ?_⟩,
        fun _ _ _ h => absurd ⟨_, _, h⟩ (hunopened hopening), fun _ => ?_⟩
      · rintro ⟨i, v, h, -⟩
        cases h
      -- of the faults of a command the clock and the name are excluded, so it was not started
      have hfault := (Command.meets_run (two_le_argv splitter source) w₁).of_eq_error rfl hrun
      cases hfault with
      | clock huntold => exact absurd htimed huntold
      | nul => exact absurd hrun (heffects v)
      | notStarted program reason =>
          obtain ⟨s', k, hcase, htally, hspawns, hk⟩ :=
            tryCase_of_opening_error hsplit henter hopening
          refine ⟨_, s', k, hcase, htally, hspawns, hk, (fun _ _ h => nomatch h), ?_⟩
          rintro _ _ ⟨⟩
          exact ⟨program, reason, rfl⟩
  | ok i v =>
      by_cases hanswers : Answers i
      · obtain ⟨splitting, inputs, w₂, hopening, hfiles⟩ :=
          opening_of_answers hsplit hrun hanswers (hnames i v hrun hanswers.1)
        refine ⟨⟨fun _ => ⟨i, v, rfl, hanswers⟩, fun _ => ⟨_, w₂, hopening⟩⟩, ?_,
          fun hno => absurd ⟨i, v, rfl, hanswers⟩ hno⟩
        intro splitting' inputs' w₂' h
        refine ⟨?_, outcome_tryCase_of_opening henter h⟩
        rw [hopening] at h
        cases h
        exact ⟨i, v, rfl, hfiles⟩
      · obtain ⟨d, front, hopening, hcode, houtput⟩ := opening_of_not_answers hsplit hrun hanswers
        refine ⟨⟨fun h => absurd h (hunopened hopening), ?_⟩,
          fun _ _ _ h => absurd ⟨_, _, h⟩ (hunopened hopening), fun _ => ?_⟩
        · rintro ⟨i', v', h, hanswers'⟩
          cases h
          exact absurd hanswers' hanswers
        · obtain ⟨s', k, hcase, htally, hspawns, hk⟩ :=
            tryCase_of_opening_error hsplit henter hopening
          refine ⟨d, s', k, hcase, htally, hspawns, hk, ?_, (fun _ _ h => nomatch h)⟩
          rintro _ _ ⟨⟩
          exact ⟨hcode, front, houtput⟩

/-- The world of a run with a splitter that takes its first source apart into two. -/
def Trial.parted : World :=
  { Harness.Trial.world with
    tempDir := ⟨.root, ["build"]⟩
    script := [{ Process.idle with stdout := Text.encode "b1 b2" }] }

/-- A splitter that prints two words opens a case with two files. -/
theorem two_words_open_case :
    ∃ opened w₁ w₂, Workspace.enter Workspace.defaultStem Trial.parted
        = .ok ⟨.root, ["build", "ast-import-0"]⟩ w₁
      ∧ (Harness.plan Harness.Trial.configuration Harness.Trial.options).opening 0
        ⟨.root, ["t", "a.sol"]⟩ ⟨.root, ["build", "ast-import-0"]⟩ w₁ = .ok opened w₂ := by
  obtain ⟨_, w₁, henter, rfl, hsplitting⟩ := Step.exists_of_checks
    (r := Workspace.enter Workspace.defaultStem Trial.parted)
    (P := fun dir w₁ => dir = ⟨.root, ["build", "ast-import-0"]⟩
      ∧ Step.checks ((command ⟨.root, ["split"]⟩ ⟨.root, ["t", "a.sol"]⟩ dir none).run w₁)
        fun i v => Answers i ∧ (resolveNames dir (Text.wordsOf (Text.decode i.stdout)) v).isOk)
    (by decide +kernel)
  obtain ⟨i, v, hrun, hanswers, hnames⟩ := Step.exists_of_checks hsplitting
  have htimed : (w₁.script.headD .idle).Timed none w₁.clock := by
    obtain ⟨_, _, _, _, -, -, -, rfl⟩ := enter_eq_ok henter
    exact World.timely_of_instant (w := Trial.parted) (by decide +kernel) (by decide +kernel) none 0
  have hgood : ∀ e, resolveNames ⟨.root, ["build", "ast-import-0"]⟩
      (Text.wordsOf (Text.decode i.stdout)) v ≠ .error e := by
    intro e he
    rw [he] at hnames
    cases hnames
  have hsplit : (Harness.plan Harness.Trial.configuration Harness.Trial.options).split 0
      = Splitter.split ⟨.root, ["split"]⟩ none := rfl
  have hdecides := splitter_decides (s := Session.start Trial.parted (.start 2 true))
    (c := command ⟨.root, ["split"]⟩ ⟨.root, ["t", "a.sol"]⟩
      ⟨.root, ["build", "ast-import-0"]⟩ none) rfl hsplit henter htimed
    (by rw [hrun]; rintro _ ⟨⟩) (by rw [hrun]; rintro _ _ ⟨⟩ - -; exact hgood)
  obtain ⟨opened, w₂, hopening⟩ := hdecides.1.mpr ⟨i, v, hrun, hanswers⟩
  exact ⟨opened, w₁, w₂, henter, hopening⟩

end Plan

end RoundTrip
