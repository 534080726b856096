import RoundTrip.Proofs.Splitter
import RoundTrip.Proofs.Workspace

/-! # The rounds of a run

    Each case of a run gets a workspace under a number that was not used before, where nothing
    stood when it was started, and all its commands are run in there: the splitter, and then
    the verification as far as it gets.  That is a `Round`.  Only a case for which no workspace
    can be made has none, and that ends the run.

    A step of a run is such a round (`Harness.turn_step`), so the cases of a run are its rounds
    in order (`Harness.rounds_runFrom`).  Before them comes the call of the compiler for its
    version, and after them nothing is started: **`Harness.processes_of_run`**. -/

namespace RoundTrip

open Step (Keeps endState)
open World (Goes)

/-! ## Numbers of workspaces -/

namespace Workspace

variable {temp dir : Path} {w w' : World}

/-- Workspaces with different numbers are different. -/
theorem eq_of_numbered_eq {m n : Nat} (h : numbered temp m = numbered temp n) : m = n := by
  have hnames := congrArg Path.names h
  rw [names_numbered, names_numbered] at hnames
  have hchars := congrArg String.toList (List.singleton_inj.mp (List.append_cancel_left hnames))
  rw [toList_numbered, toList_numbered] at hchars
  have hvalue := congrArg (Nat.ofDigitChars 10 · 0) (List.append_cancel_left hchars)
  simpa [Nat.ofDigitChars_toDigits] using hvalue

theorem still_create (tries : Nat) : Still (create defaultStem tries) := by
  induction tries with
  | zero => exact still_throw _
  | succ tries ih =>
      refine still_bind (still_of_goes fun w => ?_) fun found => ?_
      · obtain ⟨e, h⟩ | h | ⟨d, -, -, h⟩ := tryNext_apply w <;> rw [h]
        all_goals exact .of_record rfl (Nat.le_succ _)
      · cases found with
        | some dir => exact still_pure dir
        | none => exact ih

/-- To enter a workspace is to start nothing, and takes no number back. -/
theorem still_enter : Still (enter defaultStem) :=
  still_bind (still_create _) fun _ => still_bind (prints_log _ _).still fun _ => still_pure _

/-- The number of a new workspace is one of those that were used up for it. -/
theorem number_of_create {tries : Nat} (h : create defaultStem tries w = .ok dir w') :
    ∃ n, dir = numbered w.tempDir n ∧ w.workspaceCount ≤ n ∧ n < w'.workspaceCount := by
  induction tries generalizing w with
  | zero => cases h
  | succ tries ih =>
      rw [create] at h
      obtain ⟨e, htry⟩ | htry | ⟨d, -, -, htry⟩ := tryNext_apply w
      · rw [Step.bind_error htry] at h
        cases h
      · rw [Step.bind_ok htry] at h
        obtain ⟨n, hdir, hle, hlt⟩ := ih h
        exact ⟨n, hdir, Nat.le_of_succ_le hle, hlt⟩
      · rw [Step.bind_ok htry] at h
        cases h
        exact ⟨w.workspaceCount, rfl, Nat.le_refl _, Nat.lt_succ_self _⟩

theorem number_of_enter (h : enter defaultStem w = .ok dir w') :
    ∃ n, dir = numbered w.tempDir n ∧ w.workspaceCount ≤ n ∧ n < w'.workspaceCount := by
  unfold enter at h
  obtain ⟨dir', u, hcreate, h⟩ := Step.bind_eq_ok_iff.mp h
  obtain ⟨stderr, hlog⟩ := World.log_apply .workspace ("workspace created: " ++ dir'.text) u
  rw [Step.bind_ok hlog] at h
  cases h
  exact (number_of_create hcreate :)

end Workspace

/-! ## Rounds -/

/-- The sources that a session has started, in order. -/
def Session.startedSources (s : Session) : List Path :=
  s.journal.filterMap fun
    | .started source => some source
    | _ => none

/-- A case of a run, with the workspace that was made for it. -/
structure Round where
  source : Path
  /-- The session in which the case was started. -/
  before : Session
  dir : Path
  /-- The commands that were run for it, in order. -/
  commands : List Command

namespace Harness

variable (s : Configuration) (o : Options)

/-- The comparator as the configuration has it. -/
def comparator : Comparator := ⟨s.diffCommand, s.limit⟩

/-- The commands of a case whose workspace was made in some world: the splitter, and if that
    opens the case, the first ones of the verification of its input files. -/
inductive Begun (number : Nat) (source dir : Path) (w : World) : List Command → Prop where
  | unopened {e : Fault} {w' : World}
      (hopening : (plan s o).opening number source dir w = .error e w') :
      Begun number source dir w [Splitter.command s.splitter source dir s.limit]
  | opened {splitting : Splitting} {inputs : List Path} {w' : World} {cs : List Command}
      (hopening : (plan s o).opening number source dir w = .ok (splitting, inputs) w')
      (hbegun : cs <+: Verification.commands ⟨source, inputs⟩ (compiler s o) (comparator s) dir) :
      Begun number source dir w (Splitter.command s.splitter source dir s.limit :: cs)

/-- A round is as it should be: a workspace was made where nothing stood when the case was
    started, and the commands of the case were run from there. -/
structure IsRound (number : Nat) (r : Round) : Prop where
  free : ∃ place, r.before.world.disk.find r.before.world.cwd .entry r.dir = .ok place
    ∧ r.before.world.disk.get? place = none
  begun : ∃ w w', (plan s o).onStart r.source r.before.world = .ok () w
    ∧ Workspace.enter Workspace.defaultStem w = .ok r.dir w'
    ∧ Begun s o number r.source r.dir w' r.commands

/-- From a session that starts a case no workspace can be made for it. -/
def Homeless (source : Path) (t : Session) (e : Fault) : Prop :=
  ∃ w w', (plan s o).onStart source t.world = .ok () w
    ∧ Workspace.enter Workspace.defaultStem w = .error e w'

/-- The rounds of a run over sources, of which the first has a number, with the source at which
    it ended if no workspace could be made for that. -/
structure Rounds {α : Type} (number : Nat) (sources : List Path) (t : Session)
    (x : EStateM.Result Fault Session α) (rounds : List Round) (pending : Option Path) : Prop where
  goes : Goes (rounds.flatMap Round.commands) t.world (endState x).world
  started_eq : (endState x).startedSources
    = t.startedSources ++ (rounds.map Round.source ++ pending.toList)
  inOrder : rounds.map Round.source ++ pending.toList <+: sources
  /-- Each round was started where the run over the sources before had come to. -/
  reached : ∀ i r, rounds[i]? = some r →
    (plan s o).runFrom number (sources.take i) t = .ok () r.before ∧ IsRound s o (number + i) r
  numbered : ∀ r ∈ rounds, ∃ n, t.world.workspaceCount ≤ n
    ∧ r.dir = Workspace.numbered t.world.tempDir n
  apart : (rounds.map Round.dir).Nodup
  homeless : ∀ source ∈ pending, ∃ u e,
    (plan s o).runFrom number (sources.take rounds.length) t = .ok () u
      ∧ Homeless s o source u e ∧ ∃ t', x = .error e t'

variable {s : Configuration} {o : Options} {number : Nat} {source dir : Path} {t t' : Session}
  {w : World} {cs : List Command}

/-- The commands of a case are run in its workspace, with the limit of the configuration. -/
theorem Begun.cwd_limit (h : Begun s o number source dir w cs) {c : Command} (hc : c ∈ cs) :
    c.cwd = dir ∧ c.limit = s.limit := by
  cases h with
  | unopened hopening =>
      obtain rfl := List.mem_singleton.mp hc
      exact ⟨rfl, rfl⟩
  | opened hopening hbegun =>
      obtain rfl | hc := List.mem_cons.mp hc
      · exact ⟨rfl, rfl⟩
      · exact Verification.AllCommands.of_mem (C := fun c => c.cwd = dir ∧ c.limit = s.limit)
          ⟨⟨rfl, rfl⟩, ⟨rfl, rfl⟩, ⟨rfl, rfl⟩, fun _ _ => ⟨rfl, rfl⟩⟩ (hbegun.subset hc)

/-! ## A step -/

/-- A step that is a round of its own. -/
structure Turn (s : Configuration) (o : Options) (number : Nat) (source : Path) (t t' : Session)
    (r : Round) : Prop where
  source_eq : r.source = source
  before_eq : r.before = t
  isRound : IsRound s o number r
  goes : Goes r.commands t.world t'.world
  started_eq : t'.startedSources = t.startedSources ++ [source]
  numbered : ∃ n, t.world.workspaceCount ≤ n ∧ n < t'.world.workspaceCount
    ∧ r.dir = Workspace.numbered t.world.tempDir n

/-- A case whose workspace was made runs its commands, whichever way it ends. -/
theorem goes_tryCase (s : Configuration) (o : Options) (number : Nat) (source : Path) {w₁ : World}
    (henter : Workspace.enter Workspace.defaultStem t.world = .ok dir w₁) :
    ∃ cs, Begun s o number source dir w₁ cs
      ∧ Goes cs w₁ (endState ((plan s o).tryCase number source t)).world
      ∧ (endState ((plan s o).tryCase number source t)).journal
        = t.journal ++ [.workspace dir] := by
  have hopened := Plan.goes_opening (plan s o) number rfl source dir w₁
  have hleaves : ∀ {w w' : World}, Workspace.leave dir w = .ok () w' → Goes [] w w' := by
    intro w w' hleave
    have hleft := (still_leave dir).goes w
    rwa [hleave] at hleft
  -- it does not matter how the verification ends
  have hverified : ∀ {splitting : Splitting} {inputs : List Path} {w₂ w₃ w₄ : World},
      (plan s o).opening number source dir w₁ = .ok (splitting, inputs) w₂ →
      endState (Verification.verify ⟨source, inputs⟩ (plan s o).compiler (plan s o).comparator
        dir w₂) = w₃ →
      Workspace.leave dir w₃ = .ok () w₄ →
      ∃ cs, Begun s o number source dir w₁ cs ∧ Goes cs w₁ w₄ := by
    rintro splitting inputs w₂ _ w₄ hopening rfl hleave
    obtain ⟨begun, hbegun, hgoes⟩ := Verification.runs_verify ⟨source, inputs⟩
      (plan s o).compiler (plan s o).comparator dir w₂
    rw [hopening] at hopened
    exact ⟨_, .opened hopening hbegun, (hopened.trans hgoes).trans_nil (hleaves hleave)⟩
  have hend := (plan s o).caseEnd number source t
  generalize (plan s o).tryCase number source t = x at hend
  cases hend with
  | noWorkspace hnone =>
      rw [henter] at hnone
      cases hnone
  | unopened henter' hopening hleave =>
      rw [henter] at henter'
      cases henter'
      rw [hopening] at hopened
      exact ⟨_, .unopened hopening, hopened.trans_nil (hleaves hleave), rfl⟩
  | unverified henter' hopening hverify hleave =>
      rw [henter] at henter'
      cases henter'
      obtain ⟨cs, hbegun, hgoes⟩ := hverified hopening (congrArg endState hverify) hleave
      exact ⟨cs, hbegun, hgoes, rfl⟩
  | verified stderr henter' hopening hverify hleave =>
      rw [henter] at henter'
      cases henter'
      obtain ⟨cs, hbegun, hgoes⟩ := hverified hopening (congrArg endState hverify) hleave
      exact ⟨cs, hbegun, hgoes.trans_nil (.of_record rfl (Nat.le_refl _)), rfl⟩

/-- So does the step with it: what happens before and after the case is printed only. -/
theorem goes_step (number : Nat) {w₁ : World}
    (hstart : (plan s o).onStart source t.world = .ok () w)
    (henter : Workspace.enter Workspace.defaultStem w = .ok dir w₁) :
    ∃ cs, Begun s o number source dir w₁ cs
      ∧ Goes cs w₁ (endState ((plan s o).step number source t)).world
      ∧ (endState ((plan s o).step number source t)).startedSources
        = t.startedSources ++ [source] := by
  obtain ⟨cs, hbegun, hgoes, hjournal⟩ := goes_tryCase s o number source
    (t := ⟨w, t.tally, t.journal ++ [.started source]⟩) henter
  refine ⟨cs, hbegun, ?_⟩
  have hstarted : ∀ {u : Session},
      u.journal = t.journal ++ [.started source] ++ [.workspace dir] →
      u.startedSources = t.startedSources ++ [source] := by
    intro u hu
    simp [Session.startedSources, hu]
  -- nor does it matter whether the result can be printed
  have hannounced : ∀ {w' w'' : World} {r : Finding} {s₁ : Session},
      (plan s o).onStart source t.world = .ok () w' →
      (plan s o).tryCase number source ⟨w', t.tally, t.journal ++ [.started source]⟩ = .ok r s₁ →
      endState (Report.announce r s₁.world) = w'' →
      Goes cs w₁ w'' ∧ Session.startedSources
        ⟨w'', s₁.tally, s₁.journal ++ [.finished r s₁.tally]⟩ = t.startedSources ++ [source] := by
    rintro w' _ r s₁ hstart' hcase rfl
    rw [hstart] at hstart'
    cases hstart'
    rw [hcase] at hgoes hjournal
    refine ⟨hgoes.trans_nil ((prints_announce r).still.goes s₁.world), ?_⟩
    have hbefore : s₁.startedSources = t.startedSources ++ [source] := hstarted hjournal
    rw [← hbefore]
    simp [Session.startedSources]
  have hend := (plan s o).stepEnd number source t
  generalize (plan s o).step number source t = x at hend
  cases hend with
  | unstarted hstart' =>
      rw [hstart] at hstart'
      cases hstart'
  | brokenOff hstart' hcase =>
      rw [hstart] at hstart'
      cases hstart'
      rw [hcase] at hgoes hjournal
      exact ⟨hgoes, hstarted hjournal⟩
  | unannounced hstart' hcase hresult =>
      exact hannounced hstart' hcase (congrArg endState hresult)
  | finished hstart' hcase hresult =>
      exact hannounced hstart' hcase (congrArg endState hresult)

/-- A case for which no workspace can be made is the end of its step. -/
theorem step_of_enter_error {w' : World} {e : Fault}
    (hstart : (plan s o).onStart source t.world = .ok () w)
    (henter : Workspace.enter Workspace.defaultStem w = .error e w') :
    (plan s o).step number source t
      = .error e ⟨w', t.tally, t.journal ++ [.started source]⟩ := by
  have hnote : Session.note (.started source) t = .ok () (t.noted (.started source)) := rfl
  have hcase : (plan s o).tryCase number source ⟨w, t.tally, t.journal ++ [.started source]⟩
      = .error e ⟨w', t.tally, t.journal ++ [.started source]⟩ := by
    unfold Plan.tryCase
    exact Step.bind_error (Session.inWorld_of_error (by exact henter))
  unfold Plan.step
  rw [Step.bind_ok hnote, Step.bind_ok (Session.inWorld_of_ok (by exact hstart))]
  exact Step.bind_error hcase

/-- **A step is a round**, or no workspace could be made for its case, and it ends in that. -/
theorem turn_step (s : Configuration) (o : Options) (number : Nat) (source : Path) (t : Session) :
    (∃ r, Turn s o number source t (endState ((plan s o).step number source t)) r)
      ∨ ∃ e t', (plan s o).step number source t = .error e t' ∧ Homeless s o source t e
        ∧ Goes [] t.world t'.world ∧ t'.startedSources = t.startedSources ++ [source] := by
  obtain ⟨⟨⟩, stdout, stderr, hstart⟩ := prints_tick source t.world
  generalize hw : ({ t.world with stdout := stdout, stderr := stderr } : World) = w at hstart
  have hentered : Goes [] t.world (endState (Workspace.enter Workspace.defaultStem w)) := by
    refine Goes.trans_nil ?_ (Workspace.still_enter.goes w)
    exact hw ▸ .of_record rfl (Nat.le_refl _)
  cases henter : Workspace.enter Workspace.defaultStem w with
  | error e w' =>
      rw [henter] at hentered
      exact Or.inr ⟨e, _, step_of_enter_error hstart henter, ⟨w, w', hstart, henter⟩, hentered,
        by simp [Session.startedSources]⟩
  | ok dir w₁ =>
      rw [henter] at hentered
      obtain ⟨n, hnumber, hle, hlt⟩ := Workspace.number_of_enter henter
      obtain ⟨_, _, d, _, -, -, hmake, -⟩ := enter_eq_ok henter
      obtain ⟨place, hfind, hnone, -⟩ := Disk.makeDir_eq_ok hmake
      obtain ⟨cs, hbegun, hgoes, hstarted⟩ := goes_step number hstart henter
      -- a round: the number of its directory is one that was not used up before
      subst hw
      exact Or.inl ⟨⟨source, t, dir, cs⟩, rfl, rfl,
        ⟨⟨place, hfind, hnone⟩, _, w₁, hstart, henter, hbegun⟩, hentered.trans hgoes, hstarted,
        n, hle, Nat.lt_of_lt_of_le hlt hgoes.count_le, hnumber⟩

/-! ## The cases -/

namespace Rounds

variable {α : Type} {sources rest : List Path} {x : EStateM.Result Fault Session α} {r : Round}
  {rounds : List Round} {pending : Option Path} {e : Fault}

/-- Without sources there is nothing to do. -/
theorem nil (number : Nat) (sources : List Path) {x : EStateM.Result Fault Session α}
    (hgoes : Goes [] t.world (endState x).world)
    (hstarted : (endState x).startedSources = t.startedSources) :
    Rounds s o number sources t x [] none where
  goes := hgoes
  started_eq := by simpa using hstarted
  inOrder := List.nil_prefix
  reached := fun _ _ h => nomatch h
  numbered := fun _ h => nomatch h
  apart := List.nodup_nil
  homeless := fun _ h => nomatch h

/-- A run that ends with its first case for want of a workspace. -/
theorem homeless_first (hhome : Homeless s o source t e) (hgoes : Goes [] t.world t'.world)
    (hstarted : t'.startedSources = t.startedSources ++ [source]) :
    Rounds s o number (source :: rest) t (.error e t' : EStateM.Result Fault Session α) []
      (some source) where
  goes := hgoes
  started_eq := hstarted
  inOrder := List.cons_prefix_cons.mpr ⟨rfl, List.nil_prefix⟩
  reached := fun _ _ h => nomatch h
  numbered := fun _ h => nomatch h
  apart := List.nodup_nil
  homeless := by
    rintro _ ⟨⟩
    exact ⟨t, e, rfl, hhome, t', rfl⟩

/-- A run that ends with its first round. -/
theorem single (hturn : Turn s o number source t (endState x) r) :
    Rounds s o number (source :: rest) t x [r] none := by
  obtain ⟨n, hle, -, hdir⟩ := hturn.numbered
  refine ⟨?_, ?_, ?_, ?_, ?_, List.pairwise_singleton _ _, fun _ h => nomatch h⟩
  · rw [List.flatMap_singleton]
    exact hturn.goes
  · rw [hturn.started_eq, List.map_singleton, hturn.source_eq]
    rfl
  · rw [List.map_singleton, hturn.source_eq]
    exact List.cons_prefix_cons.mpr ⟨rfl, List.nil_prefix⟩
  · intro i r' hr
    obtain ⟨rfl, rfl⟩ : i = 0 ∧ r = r' := by simpa [List.getElem?_singleton] using hr
    exact ⟨hturn.before_eq ▸ rfl, hturn.isRound⟩
  · intro r' hr
    obtain rfl := List.mem_singleton.mp hr
    exact ⟨n, hle, hdir⟩

/-- A round, and the rounds of the run that goes on after it. -/
theorem cons {result : Finding} (hstep : (plan s o).step number source t = .ok result t')
    (hgoesOn : ((plan s o).stopOnFailure && result.failed) ≠ true)
    (hturn : Turn s o number source t t' r)
    (hrest : Rounds s o (number + 1) rest t' x rounds pending) :
    Rounds s o number (source :: rest) t x (r :: rounds) pending := by
  have hrun := Plan.runFrom_of_step hstep hgoesOn
  obtain ⟨n, hle, hlt, hdir⟩ := hturn.numbered
  have hlater : ∀ r' ∈ rounds, ∃ m, t'.world.workspaceCount ≤ m
      ∧ r'.dir = Workspace.numbered t.world.tempDir m := by
    intro r' hr
    obtain ⟨m, hm, hdir'⟩ := hrest.numbered r' hr
    exact ⟨m, hm, by rw [hdir', hturn.goes.tempDir_eq]⟩
  refine ⟨?_, ?_, ?_, ?_, ?_, ?_, ?_⟩
  · rw [List.flatMap_cons]
    exact hturn.goes.trans hrest.goes
  · rw [hrest.started_eq, hturn.started_eq, List.map_cons, hturn.source_eq, List.append_assoc]
    rfl
  · rw [List.map_cons, hturn.source_eq]
    exact List.cons_prefix_cons.mpr ⟨rfl, hrest.inOrder⟩
  · intro i r' hr
    cases i with
    | zero =>
        cases hr
        exact ⟨hturn.before_eq ▸ rfl, hturn.isRound⟩
    | succ i =>
        obtain ⟨hreached, hround⟩ := hrest.reached i r' hr
        rw [List.take_succ_cons, hrun, Nat.add_comm i 1, ← Nat.add_assoc]
        exact ⟨hreached, hround⟩
  · refine List.forall_mem_cons.mpr ⟨⟨n, hle, hdir⟩, fun r' hr => ?_⟩
    obtain ⟨m, hm, hdir'⟩ := hlater r' hr
    exact ⟨m, Nat.le_trans hturn.goes.count_le hm, hdir'⟩
  · refine List.nodup_cons.mpr ⟨fun hmem => ?_, hrest.apart⟩
    -- the numbers of later workspaces are greater
    obtain ⟨r', hr, hsame⟩ := List.mem_map.mp hmem
    obtain ⟨m, hm, hdir'⟩ := hlater r' hr
    rw [hdir, hdir'] at hsame
    have hnumber := Workspace.eq_of_numbered_eq hsame
    omega
  · intro source' hpending
    obtain ⟨u, e, hreached, hhome⟩ := hrest.homeless source' hpending
    rw [List.length_cons, List.take_succ_cons, hrun]
    exact ⟨u, e, hreached, hhome⟩

end Rounds

/-- **The cases of a run are its rounds**, in order, whichever way it ends. -/
theorem rounds_runFrom (s : Configuration) (o : Options) (number : Nat) (sources : List Path)
    (t : Session) :
    ∃ rounds pending,
      Rounds s o number sources t ((plan s o).runFrom number sources t) rounds pending := by
  induction sources generalizing number t with
  | nil => exact ⟨[], none, .nil number [] (.refl _) rfl⟩
  | cons source rest ih =>
      -- the next source has its round, or there is no directory for it and the run is over
      obtain ⟨r, hturn⟩ | ⟨e, t', hstep, hhome, hgoes, hstarted⟩ := turn_step s o number source t
      · have hend := (plan s o).runEnd number source rest t
        generalize (plan s o).runFrom number (source :: rest) t = x at hend
        cases hend with
        | fault hstep =>
            rw [hstep] at hturn
            exact ⟨[r], none, .single hturn⟩
        | stopped stderr hstep =>
            rw [hstep] at hturn
            refine ⟨[r], none, .single { hturn with goes := ?_ }⟩
            exact hturn.goes.trans_nil (.of_record rfl (Nat.le_refl _))
        | goesOn hstep hgo =>
            rw [hstep] at hturn
            obtain ⟨rounds, pending, hrest⟩ := ih (number + 1) _
            exact ⟨r :: rounds, pending, hrest.cons hstep hgo hturn⟩
      · rw [Plan.runFrom, Step.bind_error hstep]
        exact ⟨[], some source, .homeless_first hhome hgoes hstarted⟩

/-! ## A run -/

/-- The sources of a run; there are none if its setup fails. -/
def foundSources (s : Configuration) (o : Options) (w : World) : List Path :=
  (Step.result? (prepare s o w)).getD []

/-- The session in which the first case of a run is started. -/
def outset (s : Configuration) (o : Options) (s₀ : Session) : Session where
  world := endState (prepare s o s₀.world)
  tally := .start (foundSources s o s₀.world).length o.report.isSome
  journal := s₀.journal

theorem still_conclude (s : Configuration) (o : Options) (tally : Tally) :
    Still (conclude s o tally) := by
  refine still_bind (prints_announceSummary tally).still fun _ => ?_
  split
  · refine still_of_record (startsNothing_storeDocument _ _) fun w => ?_
    unfold Report.write Workspace.storeDocument World.edit Step.within
    dsimp only
    split <;> rfl
  · exact still_pure _

/-- What comes after the cases may start nothing, and note nothing. -/
theorem Rounds.bind {α β : Type} {sources : List Path} {x : Action Session α}
    {f : α → Action Session β} {rounds : List Round} {pending : Option Path}
    (h : Rounds s o number sources t (x t) rounds pending)
    (hf : ∀ a u, Goes [] u.world (endState (f a u)).world
      ∧ (endState (f a u)).journal = u.journal) :
    Rounds s o number sources t ((x >>= f) t) rounds pending := by
  cases hx : x t with
  | error e u =>
      rw [hx] at h
      rw [Step.bind_error hx]
      -- the fault for want of a directory ends the run, so nothing comes after it
      refine { h with homeless := fun source hsource => ?_ }
      obtain ⟨u', _, hreached, hhome, _, hfault⟩ := h.homeless source hsource
      cases hfault
      exact ⟨u', e, hreached, hhome, u, rfl⟩
  | ok a u =>
      rw [hx] at h
      rw [Step.bind_ok hx]
      obtain ⟨hgoes, hjournal⟩ := hf a u
      refine { h with goes := h.goes.trans_nil hgoes, started_eq := ?_, homeless := ?_ }
      · rw [← h.started_eq, Session.startedSources, hjournal]
        rfl
      · intro source hsource
        obtain ⟨_, _, -, -, _, hfault⟩ := h.homeless source hsource
        cases hfault

/-- After its setup, a run is its rounds. -/
theorem rounds_run (s : Configuration) (o : Options) (s₀ : Session) :
    ∃ rounds pending,
      Rounds s o 0 (foundSources s o s₀.world) (outset s o s₀) (run s o s₀) rounds pending := by
  unfold run
  cases hprepare : prepare s o s₀.world with
  | error e w₁ =>
      rw [Step.bind_error (Session.inWorld_of_error hprepare)]
      refine ⟨[], none, .nil 0 _ ?_ rfl⟩
      rw [outset, hprepare]
      exact .refl w₁
  | ok sources w₁ =>
      have hsources : foundSources s o s₀.world = sources := by
        rw [foundSources, hprepare]
        rfl
      have hcount : Session.count (fun _ => Tally.start sources.length o.report.isSome)
          { s₀ with world := w₁ } = .ok ⟨⟩ (outset s o s₀) := by
        rw [outset, hsources, hprepare]
        rfl
      rw [Step.bind_ok (Session.inWorld_of_ok hprepare), Step.bind_ok hcount, hsources]
      obtain ⟨rounds, pending, hrounds⟩ := rounds_runFrom s o 0 sources (outset s o s₀)
      refine ⟨rounds, pending, Rounds.bind (x := (plan s o).run sources) hrounds fun _ u => ?_⟩
      -- the end of a run starts nothing, so the rounds are those of its cases
      have hconcluded := (still_conclude s o u.tally).goes u.world
      rw [Step.bind_ok (Step.get_apply u)]
      cases hconclude : conclude s o u.tally u.world with
      | error e w =>
          rw [hconclude] at hconcluded
          rw [Step.bind_error (Session.inWorld_of_error hconclude)]
          exact ⟨hconcluded, rfl⟩
      | ok _ w =>
          rw [hconclude] at hconcluded
          rw [Step.bind_ok (Session.inWorld_of_ok hconclude)]
          exact ⟨hconcluded, rfl⟩

/-- The setup starts the compiler for its version, or nothing, and then it has failed. -/
theorem starts_prepare (s : Configuration) (o : Options) (w : World) :
    (∃ e, prepare s o w = .error e w)
      ∨ ∃ k : Spawn, k.Plays (compiler s o).version (w.script.headD .idle)
        ∧ (endState (prepare s o w)).spawns = w.spawns ++ [k]
        ∧ (endState (prepare s o w)).script = w.script.tail := by
  have hrecord := record_prepare s o w
  obtain ⟨e, hidentify⟩ | ⟨-, hidentify⟩ := identify_cases s o w
  · exact Or.inl ⟨e, Step.bind_error hidentify⟩
  · have hgoes := (compiler s o).version.goes_run w
    obtain ⟨k, hk, hspawns⟩ := hgoes.of_single
    rw [hidentify] at hrecord
    refine Or.inr ⟨k, hk, (World.spawns_of_record hrecord).trans hspawns, ?_⟩
    rw [World.script_of_record hrecord, hgoes.script_eq]
    exact List.drop_one

/-- **The processes of a run.**  It starts none and goes through no source; or it starts the
    compiler for its version, and then the commands of its rounds, in order, each playing the
    next entry of the script.  There is a round for each source that is started, except for
    one at which the run ends because no workspace can be made for it.  All commands of a
    round are run in its workspace, and no two workspaces are the same.  Every command has
    the one limit of the configuration, which is none or positive. -/
theorem processes_of_run (s : Configuration) (o : Options) (s₀ : Session) :
    (s.limit = none ∨ ∃ x : Float, s.limit = some (.float x) ∧ 0 < x)
      ∧ ((endState (run s o s₀)).world.spawns = s₀.world.spawns
          ∧ (endState (run s o s₀)).startedSources = s₀.startedSources
        ∨ ∃ starts rounds pending,
          (endState (run s o s₀)).world.spawns = s₀.world.spawns ++ starts
            ∧ Performed s₀.world.script
              ((compiler s o).version :: rounds.flatMap Round.commands) starts
            ∧ Rounds s o 0 (foundSources s o s₀.world) (outset s o s₀) (run s o s₀) rounds pending
            ∧ (compiler s o).version.limit = s.limit
            ∧ ∀ r ∈ rounds, ∀ c ∈ r.commands, c.cwd = r.dir ∧ c.limit = s.limit) := by
  refine ⟨?_, ?_⟩
  · unfold Configuration.limit
    split
    · rename_i hpositive
      exact Or.inr ⟨_, rfl, hpositive⟩
    · exact Or.inl rfl
  -- the setup starts nothing, or the process that tells the version
  obtain ⟨e, hprepare⟩ | ⟨k, hk, hspawns, hscript⟩ := starts_prepare s o s₀.world
  · left
    unfold run
    rw [Step.bind_error (Session.inWorld_of_error hprepare)]
    exact ⟨rfl, rfl⟩
  · obtain ⟨rounds, pending, hrounds⟩ := rounds_run s o s₀
    obtain ⟨starts, hstarts, hend⟩ := hrounds.goes.started
    refine Or.inr ⟨k :: starts, rounds, pending, ?_, .cons hk (hscript ▸ hstarts), hrounds, rfl, ?_⟩
    · rw [hend, show (outset s o s₀).world.spawns = _ from hspawns, List.append_assoc]
      rfl
    · intro r hr c hc
      obtain ⟨i, hi⟩ := List.getElem?_of_mem hr
      obtain ⟨_, _, -, -, hbegun⟩ := (hrounds.reached i r hi).2.begun
      exact hbegun.cwd_limit hc

/-- The world of a run whose compiler, asked for its version, removes the directory of
    workspaces. -/
def Trial.evicting : World :=
  { Trial.world with
    disk := ⟨(["tmp"], .dir) :: Trial.world.disk.entries⟩
    tempDir := ⟨.root, ["tmp"]⟩
    script := [{ Process.idle with effects := [.remove ⟨.here, ["..", "tmp"]⟩] }] }

/-- A source for which no workspace can be made is started, but no splitter is for it. -/
theorem started_source_without_splitter :
    (endState (run Trial.configuration Trial.options
        (Session.start Trial.evicting (.start 0 false)))).startedSources
        = [⟨.root, ["t", "a.sol"]⟩]
      ∧ (endState (run Trial.configuration Trial.options
          (Session.start Trial.evicting (.start 0 false)))).world.spawns ≠ []
      ∧ ∀ k ∈ (endState (run Trial.configuration Trial.options
          (Session.start Trial.evicting (.start 0 false)))).world.spawns,
        ∀ dir, ¬ k.Of (Splitter.command Trial.configuration.splitter ⟨.root, ["t", "a.sol"]⟩ dir
          Trial.configuration.limit) := by
  have hrun : (endState (run Trial.configuration Trial.options
        (Session.start Trial.evicting (.start 0 false)))).startedSources
        = [⟨.root, ["t", "a.sol"]⟩]
      ∧ (endState (run Trial.configuration Trial.options
          (Session.start Trial.evicting (.start 0 false)))).world.spawns ≠ []
      ∧ ∀ k ∈ (endState (run Trial.configuration Trial.options
          (Session.start Trial.evicting (.start 0 false)))).world.spawns,
        k.argv ≠ Splitter.argv Trial.configuration.splitter ⟨.root, ["t", "a.sol"]⟩ := by
    decide +kernel
  exact ⟨hrun.1, hrun.2.1, fun k hk dir hof => hrun.2.2 k hk hof.argv_eq⟩

end Harness

end RoundTrip
