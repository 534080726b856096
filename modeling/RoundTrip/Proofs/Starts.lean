import RoundTrip.Proofs.Calls
import RoundTrip.Proofs.Opening

/-! # The order of starts

    The k-th process to be started plays the k-th entry of the script, so what some commands
    start, one after the other, can be compared with the entries that are left: `Performed`.
    A world `Goes` on to another by some commands if they are what was started in between, and
    nothing takes numbers of workspaces back.

    A case is verified by up to four commands (`Verification.commands`), and whichever way it
    ends it has run the first ones of them and no others: **`Verification.runs_verify`**. -/

namespace RoundTrip

open Step (Keeps endState)

/-! ## The processes of commands -/

/-- The process of a command that plays an entry of the script.  It was started, and given the
    limit of the command; or it could not be, and was given none. -/
inductive Spawn.Plays (c : Command) (entry : Process) : Spawn → Prop where
  | started {w w' : World} {p : Process} (killed : Option Kill)
      (hentry : w.script.headD .idle = entry) (hstart : c.start w = .ok p w') :
      Plays c entry (c.spawn w c.limit killed)
  | refused {w w' : World} {e : Fault} (hentry : w.script.headD .idle = entry)
      (hstart : c.start w = .error e w') : Plays c entry (c.spawn w none none)

/-- What plays an entry of the script for a command is a start of that command. -/
theorem Spawn.Plays.of {c : Command} {entry : Process} {k : Spawn} (h : k.Plays c entry) :
    k.Of c := by
  cases h with
  | started => exact ⟨_, _, _, rfl⟩
  | refused => exact ⟨_, _, _, rfl⟩

/-- The processes of some commands, in order.  They play the entries of a script. -/
inductive Performed : List Process → List Command → List Spawn → Prop where
  | nil (script : List Process) : Performed script [] []
  | cons {script : List Process} {c : Command} {cs : List Command} {k : Spawn} {ks : List Spawn}
      (hk : k.Plays c (script.headD .idle)) (hks : Performed script.tail cs ks) :
      Performed script (c :: cs) (k :: ks)

namespace Performed

variable {script : List Process} {cs cs' : List Command} {ks ks' : List Spawn} {c : Command}
  {k : Spawn}

/-- One command takes one entry. -/
theorem single (hk : k.Plays c (script.headD .idle)) : Performed script [c] [k] :=
  .cons hk (.nil _)

/-- The entries are taken in order, so the later commands play what the earlier ones have left.
    -/
theorem append (h : Performed script cs ks) (h' : Performed (script.drop cs.length) cs' ks') :
    Performed script (cs ++ cs') (ks ++ ks') := by
  induction h with
  | nil script => exact h'
  | cons hk hks ih =>
      refine .cons hk (ih ?_)
      rw [List.drop_tail]
      exact h'

end Performed

/-- From one world to another these commands were run, and nothing else was started. -/
structure World.Goes (cs : List Command) (w w' : World) : Prop where
  tempDir_eq : w'.tempDir = w.tempDir
  count_le : w.workspaceCount ≤ w'.workspaceCount
  script_eq : w'.script = w.script.drop cs.length
  started : ∃ starts, Performed w.script cs starts ∧ w'.spawns = w.spawns ++ starts

namespace World.Goes

variable {cs cs' : List Command} {u w w' : World}

/-- Where the record is the same, nothing was started. -/
theorem of_record (hrecord : w'.record = w.record) (hcount : w.workspaceCount ≤ w'.workspaceCount) :
    Goes [] w w' where
  tempDir_eq := tempDir_of_record hrecord
  count_le := hcount
  script_eq := script_of_record hrecord
  started := ⟨[], .nil _, by rw [List.append_nil, spawns_of_record hrecord]⟩

theorem refl (w : World) : Goes [] w w := .of_record rfl (Nat.le_refl _)

/-- What comes of a world by some commands, and of that by others, comes by all of them. -/
theorem trans (h : Goes cs w u) (h' : Goes cs' u w') : Goes (cs ++ cs') w w' := by
  obtain ⟨starts, hstarts, hspawns⟩ := h.started
  obtain ⟨starts', hstarts', hspawns'⟩ := h'.started
  rw [h.script_eq] at hstarts'
  refine ⟨h'.tempDir_eq.trans h.tempDir_eq, Nat.le_trans h.count_le h'.count_le, ?_,
    starts ++ starts', hstarts.append hstarts', ?_⟩
  · rw [h'.script_eq, h.script_eq, List.drop_drop, List.length_append]
  · rw [hspawns', hspawns, List.append_assoc]

/-- What comes of a world by nothing is what comes of the commands before. -/
theorem trans_nil (h : Goes cs w u) (h' : Goes [] u w') : Goes cs w w' :=
  List.append_nil cs ▸ h.trans h'

/-- One command starts one process. -/
theorem of_single {c : Command} (h : Goes [c] w w') :
    ∃ k : Spawn, k.Plays c (w.script.headD .idle) ∧ w'.spawns = w.spawns ++ [k] := by
  obtain ⟨_, hstarts, hspawns⟩ := h.started
  cases hstarts with
  | cons hk hnil =>
      cases hnil
      exact ⟨_, hk, hspawns⟩

end World.Goes

open World (Goes)

/-! ## What runs no command -/

/-- Whichever way the action ends, it has run no command. -/
def Still {α : Type} (x : Action World α) : Prop := ∀ w, Keeps (Goes [] w) x

section Still

variable {α β : Type} {cs : List Command} {w u : World}

theorem Still.goes {x : Action World α} (hx : Still x) (w : World) : Goes [] w (endState (x w)) :=
  hx w w (.refl w)

/-- To run no command is to do so from every world. -/
theorem still_of_goes {x : Action World α} (h : ∀ w, Goes [] w (endState (x w))) : Still x :=
  fun _ u hu => hu.trans_nil (h u)

/-- What an action leaves alone may be told by the record and by the number of workspaces. -/
theorem still_of_record {x : Action World α} (hx : StartsNothing x)
    (hcount : ∀ w, (endState (x w)).workspaceCount = w.workspaceCount) : Still x :=
  still_of_goes fun w => .of_record (hx w.record w rfl) (Nat.le_of_eq (hcount w).symm)

/-- To print runs no command. -/
theorem Prints.still {x : Action World α} (hx : Prints x) : Still x := by
  refine still_of_record hx.quiet.startsNothing fun w => ?_
  obtain ⟨a, stdout, stderr, h⟩ := hx w
  rw [h]
  rfl

theorem Looks.still {x : Action World α} (hx : Looks x) : Still x := fun _ => hx _

theorem still_pure (a : α) : Still (pure a : Action World α) := (looks_pure a).still

theorem still_throw (e : Fault) : Still (throw e : Action World α) := (looks_throw e).still

/-- Two actions that run no command run none together. -/
theorem still_bind {x : Action World α} {f : α → Action World β} (hx : Still x)
    (hf : ∀ a, Still (f a)) : Still (x >>= f) :=
  fun w => Step.keeps_bind (hx w) fun a => hf a w

theorem still_store (p : Path) (content : Bytes) : Still (Workspace.store p content) :=
  still_of_record (startsNothing_store p content) fun w => by rw [endState_store]

/-- To remove a file runs no command. -/
theorem still_removeIfPresent (p : Path) : Still (Workspace.removeIfPresent p) := by
  refine still_of_record (startsNothing_removeIfPresent p) fun w => ?_
  obtain hend | ⟨d, -, hend⟩ := endState_removeIfPresent p w <;> rw [hend]

/-- Neither does it to take the inputs from an answer of the splitter. -/
theorem still_inputs (splitting : Splitting) (source : Path) (splitter : Option Path) :
    Still (splitting.inputs source splitter) := by
  refine still_of_record (quiet_inputs _ _ _).startsNothing fun w => ?_
  obtain ⟨stderr, hend⟩ := splitting.endState_inputs source splitter w
  rw [hend]

/-- The result of a comparison is judged without another process. -/
theorem Verification.still_judge (t : Comparator) (dir : Path) (i : Invocation) :
    Still (judge t dir i) := by
  unfold judge
  split
  · exact still_bind (prints_log _ _).still fun _ => still_pure _
  · exact still_throw _

/-- A workspace is left with no number used up or given back. -/
theorem still_leave (dir : Path) : Still (Workspace.leave dir) := by
  refine still_bind (still_of_goes fun w => ?_) fun _ => (prints_log _ _).still
  obtain ⟨stdout, hend, -⟩ := endState_remove dir w
  rw [hend]
  exact .of_record rfl (Nat.le_refl _)

end Still

/-! ## Commands -/

namespace Command

/-- **A command starts one process**, which plays the next entry of the script. -/
theorem goes_run (c : Command) (w : World) : Goes [c] w (endState (c.run w)) := by
  obtain ⟨stderr, hlog⟩ := World.log_apply .command
    ("run: " ++ String.intercalate " " c.argv ++ " (cwd=" ++ c.cwd.text ++ ")") w
  rw [run_eq, Step.bind_ok hlog, Step.bind_ok (Step.get_apply _)]
  obtain ⟨e, disk, -, hstart⟩ | ⟨p, _, disk, stderr', -, -, hstart⟩ :=
    start_cases c { w with stderr := stderr }
  · rw [Step.bind_error hstart]
    have hk : (c.spawn w none none).Plays c (w.script.headD .idle) :=
      .refused (w := { w with stderr := stderr }) rfl hstart
    exact ⟨rfl, Nat.le_refl _, List.drop_one.symm, _, .single hk, rfl⟩
  · rw [Step.bind_ok hstart]
    have hk : (c.spawn w c.limit (p.killed? c.limit)).Plays c (w.script.headD .idle) :=
      .started (w := { w with stderr := stderr }) _ rfl hstart
    have hstarted : Goes [c] w { c.enter { w with stderr := stderr } disk c.limit
        (p.killed? c.limit) with stderr := stderr' } :=
      ⟨rfl, Nat.le_refl _, List.drop_one.symm, _, .single hk, rfl⟩
    -- waiting, the log of a time-out and the reading of the clock start nothing more
    refine hstarted.trans_nil (Still.goes (still_bind ?_ fun _ => still_bind ?_ fun _ => ?_) _)
    · unfold pass
      split
      · exact still_of_goes fun w => .of_record rfl (Nat.le_refl _)
      · exact still_throw _
    · unfold logTimeout
      split
      · exact still_bind (fun _ => Step.keeps_ofExcept _ _) fun _ => (prints_log _ _).still
      · exact still_pure ()
    · exact fun _ => Step.keeps_bind Step.keeps_get fun _ =>
        Step.keeps_bind (Step.keeps_ofExcept _ _) fun _ => Step.keeps_pure _

end Command

/-- Whichever way the action ends, it has run the first ones of these commands, and no
    others. -/
def Runs {α : Type} (cs : List Command) (x : Action World α) : Prop :=
  ∀ w, ∃ begun, begun <+: cs ∧ Goes begun w (endState (x w))

section Runs

variable {α β : Type} {c : Command} {cs : List Command}

theorem Still.runs {x : Action World α} (hx : Still x) (cs : List Command) : Runs cs x :=
  fun w => ⟨[], List.nil_prefix, hx.goes w⟩

/-- What runs no command may go before. -/
theorem runs_bind {x : Action World β} {f : β → Action World α} (hx : Still x)
    (hf : ∀ b, Runs cs (f b)) : Runs cs (x >>= f) := by
  intro w
  have hw := hx.goes w
  cases h : x w with
  | error e u =>
      rw [h] at hw
      rw [Step.bind_error h]
      exact ⟨[], List.nil_prefix, hw⟩
  | ok b u =>
      rw [h] at hw
      rw [Step.bind_ok h]
      obtain ⟨begun, hbegun, hgoes⟩ := hf b u
      exact ⟨begun, hbegun, hw.trans hgoes⟩

/-- A command is run, and then others, if that comes to an end. -/
theorem runs_command {f : Invocation → Action World α} (hf : ∀ i, Runs cs (f i)) :
    Runs (c :: cs) (c.run >>= f) := by
  intro w
  have hw := c.goes_run w
  cases h : c.run w with
  | error e u =>
      rw [h] at hw
      rw [Step.bind_error h]
      -- the command has ended in a fault, but its process was started or was to be
      exact ⟨[c], List.cons_prefix_cons.mpr ⟨rfl, List.nil_prefix⟩, hw⟩
  | ok i u =>
      rw [h] at hw
      rw [Step.bind_ok h]
      obtain ⟨begun, hbegun, hgoes⟩ := hf i u
      exact ⟨c :: begun, List.cons_prefix_cons.mpr ⟨rfl, hbegun⟩, hw.trans hgoes⟩

/-- A clean-up that runs no command may go after, at either end. -/
theorem runs_ensuring {x : Action World α} {cleanUp : Action World Unit} (hx : Runs cs x)
    (hc : Still cleanUp) : Runs cs (Step.ensuring x cleanUp) := by
  intro w
  obtain ⟨begun, hbegun, hgoes⟩ := hx w
  rw [Step.endState_ensuring]
  exact ⟨begun, hbegun, hgoes.trans_nil (hc.goes _)⟩

end Runs

/-! ## The verification -/

namespace Verification

variable (c : Case) (compiler : Compiler) (t : Comparator) (dir : Path)

/-- The comparison, if it can be cut into words. -/
def comparisons : List Command :=
  match Text.ShellWords.split t.words with
  | .ok words => [comparison t words dir]
  | .error _ => []

/-- The commands of a verification: probe, export, reimport and comparison. -/
def commands : List Command :=
  compiler.probe c.inputs dir :: compiler.exportDocument c.inputs dir ::
    compiler.importDocument (Path.ofString Artifact.expected.name) dir :: comparisons t dir

/-- What is said of all commands of a verification holds of each. -/
theorem AllCommands.of_mem {C : Command → Prop} {c : Case} {compiler : Compiler} {t : Comparator}
    {dir : Path} (hC : AllCommands C c compiler t dir) {k : Command}
    (hk : k ∈ commands c compiler t dir) : C k := by
  simp only [commands, List.mem_cons] at hk
  obtain rfl | rfl | rfl | hk := hk
  · exact hC.probe
  · exact hC.exportDocument
  · exact hC.importDocument
  · unfold comparisons at hk
    split at hk
    · rename_i words hwords
      obtain rfl := List.mem_singleton.mp hk
      exact hC.comparison words hwords
    · cases hk

/-- A comparison is one command, or none where its words cannot be read. -/
theorem runs_compare :
    Runs (comparisons t dir)
      (t.compare (Artifact.expected.path dir) (Artifact.obtained.path dir)) := by
  unfold comparisons
  cases hw : Text.ShellWords.split t.words with
  | ok words =>
      rw [compare_eq hw]
      exact runs_command fun i => (still_judge t dir i).runs []
  | error e =>
      -- words that cannot be cut are a fault before anything is started
      refine Still.runs (still_of_goes fun w => ?_) _
      unfold Comparator.compare Comparator.argv
      rw [hw]
      exact .refl w

/-- After the reimport only the comparison is left. -/
theorem runs_afterReimport (i : Invocation) :
    Runs (comparisons t dir) (afterReimport c t dir i) := by
  unfold afterReimport
  split
  · exact (still_pure _).runs _
  refine runs_bind (still_store _ _) fun _ => runs_bind (still_store _ _) fun _ => ?_
  split
  · exact (still_pure _).runs _
  · intro w
    obtain ⟨begun, hbegun, hgoes⟩ := runs_compare t dir w
    refine ⟨begun, hbegun, Step.endState_bind_of hgoes fun d => ?_⟩
    exact fun u hu => hu.trans_nil ((still_pure _).goes u)

/-- After the export it is the reimport and the comparison. -/
theorem runs_afterExport (i : Invocation) :
    Runs (compiler.importDocument (Path.ofString Artifact.expected.name) dir :: comparisons t dir)
      (afterExport c compiler t dir i) := by
  unfold afterExport
  split
  · exact (still_pure _).runs _
  refine runs_bind (still_store _ _) fun _ => ?_
  split
  · exact (still_pure _).runs _
  · rw [reimportAndCompare_eq]
    exact runs_command (runs_afterReimport c t dir)

theorem still_clearArtifacts : Still (Workspace.clearArtifacts dir) :=
  fun w => Step.keeps_forM fun a _ => still_removeIfPresent (a.path dir) w

/-- **A verification runs the first ones of its commands**, and no others. -/
theorem runs_verify : Runs (commands c compiler t dir) (verify c compiler t dir) := by
  refine runs_command fun i => ?_
  split
  · exact (still_pure _).runs _
  split
  · exact (still_pure _).runs _
  refine runs_bind (looks_guardArtifacts dir).still fun _ => ?_
  exact runs_ensuring (runs_command (runs_afterExport c compiler t dir)) (still_clearArtifacts dir)

end Verification

/-! ## The opening -/

/-- To open a case is to run the splitter. -/
theorem Plan.goes_opening (p : Plan) (number : Nat) {splitter : Path} {limit : Option Number}
    (hsplit : p.split number = Splitter.split splitter limit) (source dir : Path) (w : World) :
    Goes [Splitter.command splitter source dir limit] w
      (endState (p.opening number source dir w)) := by
  unfold opening
  rw [hsplit, Splitter.split_eq, bind_assoc]
  refine Step.endState_bind_of (Command.goes_run _ w) fun i u hu => hu.trans_nil ?_
  have hlooks := (Splitter.looks_outcome limit source dir i).still
  refine Still.goes (still_bind hlooks fun splitting => ?_) u
  exact still_bind (still_inputs splitting source _) fun _ => still_pure _

end RoundTrip
