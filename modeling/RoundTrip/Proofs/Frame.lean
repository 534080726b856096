import RoundTrip.Discovery
import RoundTrip.Report
import RoundTrip.Tool.Splitter
import RoundTrip.Proofs.Command
import RoundTrip.Proofs.Edit

/-! # What an action leaves alone

    Only commands start processes, and of the other actions few touch the disk.
    The `record` of a world is what tells which processes have been started, from
    where, and which are still to come.  An action that `StartsNothing` leaves the
    record as it is, and a `Quiet` one leaves the disk as it is, too.  One that only
    `Prints` never fails and leaves everything but the console alone, and one that only
    `Looks` leaves everything alone.

    There is one statement for each action, so a property of worlds that looks at
    the disk and the record only need be followed through the commands and the few
    changes of the disk. -/

namespace RoundTrip

open Step (Keeps endState)

variable {α β δ : Type}

/-- What tells which processes have been started: the directories a run works from,
    what the script still holds, and the starts so far. -/
def World.record (w : World) : Path × Path × List Process × List Spawn :=
  (w.cwd, w.tempDir, w.script, w.spawns)

/-- The starts so far are read off the record. -/
theorem World.spawns_of_record {w w' : World} (h : w'.record = w.record) :
    w'.spawns = w.spawns := congrArg (·.2.2.2) h

theorem World.script_of_record {w w' : World} (h : w'.record = w.record) :
    w'.script = w.script := congrArg (·.2.2.1) h

theorem World.tempDir_of_record {w w' : World} (h : w'.record = w.record) :
    w'.tempDir = w.tempDir := congrArg (·.2.1) h

/-- The action starts no process. -/
def StartsNothing (x : Action World α) : Prop := ∀ r, Keeps (fun w => w.record = r) x

/-- The action starts no process and does not touch the disk. -/
def Quiet (x : Action World α) : Prop := ∀ d r, Keeps (fun w => w.disk = d ∧ w.record = r) x

/-! ## Properties that such actions keep -/

/-- A property of the record is kept by an action that starts nothing. -/
theorem StartsNothing.keeps {x : Action World α} {P : World → Prop} (hx : StartsNothing x)
    (hP : ∀ w w', w'.record = w.record → P w → P w') : Keeps P x :=
  fun w hw => hP w _ (hx w.record w rfl) hw

/-- A property of the disk and the record is kept by a quiet action. -/
theorem Quiet.keeps {x : Action World α} {P : World → Prop} (hx : Quiet x)
    (hP : ∀ w w', w'.disk = w.disk → w'.record = w.record → P w → P w') : Keeps P x :=
  fun w hw =>
    have h := hx w.disk w.record w ⟨rfl, rfl⟩
    hP w _ h.1 h.2 hw

/-- A quiet action starts nothing. -/
theorem Quiet.startsNothing {x : Action World α} (hx : Quiet x) : StartsNothing x :=
  fun _ => hx.keeps fun _ _ _ hrecord h => hrecord.trans h

/-- The disk after a quiet action is the one before it. -/
theorem Quiet.disk_eq {x : Action World α} (hx : Quiet x) (w : World) :
    (endState (x w)).disk = w.disk := (hx w.disk w.record w ⟨rfl, rfl⟩).1

/-! ## Looking -/

/-- Whichever way the action ends, the world is as it was. -/
def Looks (x : Action World α) : Prop := ∀ P : World → Prop, Keeps P x

/-- To look is quiet. -/
theorem Looks.quiet {x : Action World α} (hx : Looks x) : Quiet x := fun _ _ => hx _

theorem looks_pure (a : α) : Looks (pure a : Action World α) := fun _ => Step.keeps_pure a

theorem looks_throw (e : Fault) : Looks (throw e : Action World α) := fun _ => Step.keeps_throw e

theorem looks_get : Looks (get : Action World World) := fun _ => Step.keeps_get

theorem looks_ofExcept (error : δ → Fault) (r : Except δ α) :
    Looks (Step.ofExcept error r : Action World α) := fun _ => Step.keeps_ofExcept error r

/-- To look twice is to look. -/
theorem looks_bind {x : Action World α} {f : α → Action World β} (hx : Looks x)
    (hf : ∀ a, Looks (f a)) : Looks (x >>= f) :=
  fun P => Step.keeps_bind (hx P) fun a => hf a P

/-- The guard looks for an artifact and fails or goes on. -/
theorem looks_refuseExisting (p : Path) : Looks (Workspace.refuseExisting p) := by
  refine looks_bind looks_get fun w => looks_bind (looks_ofExcept _ _) fun isThere => ?_
  split
  · exact looks_throw _
  · exact looks_pure _

/-! ## Printing -/

/-- The action comes to an end, and changes nothing but what stands on the console. -/
def Prints (x : Action World α) : Prop :=
  ∀ w, ∃ a stdout stderr, x w = .ok a { w with stdout := stdout, stderr := stderr }

/-- To print is quiet. -/
theorem Prints.quiet {x : Action World α} (hx : Prints x) : Quiet x := by
  intro d r w h
  obtain ⟨a, stdout, stderr, hw⟩ := hx w
  rw [hw]
  exact h

/-- What is not about the console is kept by printing. -/
theorem Prints.meets {x : Action World α} {P : World → Prop} {E : Fault → Prop} (hx : Prints x)
    (hP : ∀ w stdout stderr, P w → P { w with stdout := stdout, stderr := stderr }) :
    Step.Meets P (fun _ => P) E x := by
  intro w hw
  obtain ⟨a, stdout, stderr, h⟩ := hx w
  rw [h]
  exact .ok (hP w stdout stderr hw)

theorem prints_pure (a : α) : Prints (pure a : Action World α) :=
  fun w => ⟨a, w.stdout, w.stderr, rfl⟩

/-- To print twice is to print. -/
theorem prints_bind {x : Action World α} {f : α → Action World β} (hx : Prints x)
    (hf : ∀ a, Prints (f a)) : Prints (x >>= f) := by
  intro w
  obtain ⟨a, stdout, stderr, h⟩ := hx w
  obtain ⟨b, stdout', stderr', h'⟩ := hf a { w with stdout := stdout, stderr := stderr }
  exact ⟨b, stdout', stderr', (Step.bind_ok h).trans h'⟩

theorem prints_print (s : String) : Prints (World.print s) :=
  fun w => ⟨⟨⟩, w.stdout ++ s, w.stderr, rfl⟩

theorem prints_printError (s : String) : Prints (World.printError s) :=
  fun w => ⟨⟨⟩, w.stdout, w.stderr ++ s, rfl⟩

theorem prints_printLine (s : String) : Prints (World.printLine s) := prints_print _

theorem prints_printErrorLine (s : String) : Prints (World.printErrorLine s) := prints_printError _

/-- A line of the log is printed, or dropped because its topic is off. -/
theorem prints_log (topic : Topic) (s : String) : Prints (World.log topic s) := by
  intro w
  obtain ⟨stderr, hlog⟩ := World.log_apply topic s w
  exact ⟨⟨⟩, w.stdout, stderr, hlog⟩

/-- The dot at the start of a case. -/
theorem prints_tick (source : Path) : Prints (Report.tick source) := prints_print _

/-- A failure is told in lines of the error stream, with its diagnostic or without. -/
theorem prints_announceFailure (r : Finding) : Prints (Report.announceFailure r) := by
  unfold Report.announceFailure
  split
  · exact prints_pure _
  refine prints_bind (prints_printErrorLine _) fun _ => ?_
  refine prints_bind (prints_printErrorLine _) fun _ => ?_
  split
  · exact prints_pure _
  · exact prints_bind (prints_printErrorLine _) fun _ => prints_printErrorLine _

/-- What is told of a result. -/
theorem prints_announce (r : Finding) : Prints (Report.announce r) := by
  unfold Report.announce
  split
  · exact prints_announceFailure r
  · exact prints_pure _

/-- The summary, on either stream. -/
theorem prints_announceSummary (t : Tally) : Prints (Report.announceSummary t) := by
  refine prints_bind (prints_printLine _) fun _ => ?_
  split
  · exact prints_printLine _
  · exact prints_printErrorLine _

/-! ## Quiet actions -/

theorem quiet_pure (a : α) : Quiet (pure a : Action World α) := (looks_pure a).quiet

theorem quiet_throw (e : Fault) : Quiet (throw e : Action World α) := (looks_throw e).quiet

theorem quiet_get : Quiet (get : Action World World) := looks_get.quiet

theorem quiet_ofExcept (error : δ → Fault) (r : Except δ α) :
    Quiet (Step.ofExcept error r : Action World α) := (looks_ofExcept error r).quiet

/-- Two quiet actions are quiet one after the other. -/
theorem quiet_bind {x : Action World α} {f : α → Action World β} (hx : Quiet x)
    (hf : ∀ a, Quiet (f a)) : Quiet (x >>= f) :=
  fun d r => Step.keeps_bind (hx d r) fun a => hf a d r

theorem quiet_log (topic : Topic) (s : String) : Quiet (World.log topic s) :=
  (prints_log topic s).quiet

/-- To take the inputs from the answer of the splitter prints at most. -/
theorem quiet_inputs (splitting : Splitting) (source : Path) (splitter : Option Path) :
    Quiet (splitting.inputs source splitter) := by
  cases splitting with
  | into files => exact quiet_pure _
  | single file => exact quiet_pure _
  | undecodable message =>
      exact quiet_bind (prints_printErrorLine _).quiet fun _ =>
        quiet_bind (quiet_log _ _) fun _ => quiet_pure _
  | broken exitCode message => exact quiet_throw _
  | unknown => exact quiet_throw _

/-- The choice of the roots looks at the disk and prints warnings. -/
theorem quiet_readableRoots (roots : List Path) : Quiet (Discovery.readableRoots roots) := by
  induction roots with
  | nil => exact quiet_pure _
  | cons root rest ih =>
      refine quiet_bind quiet_get fun w => quiet_bind (quiet_ofExcept _ _) fun readable => ?_
      split
      · exact quiet_bind ih fun _ => quiet_pure _
      · exact quiet_bind (prints_printLine _).quiet fun _ => ih

/-- The search for sources looks at the disk and prints. -/
theorem quiet_findSources (roots : List Path) (c : Discovery.Criteria) :
    Quiet (Discovery.findSources roots c) := by
  refine quiet_bind (quiet_readableRoots roots) fun readable => ?_
  split
  · exact quiet_throw _
  refine quiet_bind quiet_get fun w => quiet_bind (quiet_ofExcept _ _) fun found => ?_
  exact quiet_bind (quiet_log _ _) fun _ => quiet_pure _

/-! ## Actions on the disk -/

/-- Two actions that start nothing start nothing together. -/
theorem startsNothing_bind {x : Action World α} {f : α → Action World β} (hx : StartsNothing x)
    (hf : ∀ a, StartsNothing (f a)) : StartsNothing (x >>= f) :=
  fun r => Step.keeps_bind (hx r) fun a => hf a r

/-- A file is written, and nothing else happens. -/
theorem endState_store (p : Path) (content : Bytes) (w : World) :
    endState (Workspace.store p content w)
      = { w with disk := endState (Disk.writeWithParents w.cwd p content w.disk) } := by
  unfold Workspace.store Step.within
  cases Disk.writeWithParents w.cwd p content w.disk <;> rfl

/-- To store a file is a matter of the disk. -/
theorem startsNothing_store (p : Path) (content : Bytes) :
    StartsNothing (Workspace.store p content) := by
  intro r w h
  rw [endState_store]
  exact h

/-- So is to store a document. -/
theorem startsNothing_storeDocument (p : Path) (document : Json) :
    StartsNothing (Workspace.storeDocument p document) := by
  intro r w h
  unfold Workspace.storeDocument World.edit Step.within
  dsimp only
  split
  · exact h
  · exact h

/-- A file is removed if it is there; that there is none is no fault. -/
theorem removeIfPresent_apply (p : Path) (w : World) :
    Workspace.removeIfPresent p w = match w.disk.unlink w.cwd p with
      | .ok d => .ok () { w with disk := d }
      | .error (.os ⟨.noEntry, _⟩) => .ok () w
      | .error e => .error (.path e) w := by
  unfold Workspace.removeIfPresent
  rw [Step.bind_ok (Step.get_apply w)]
  cases w.disk.unlink w.cwd p with
  | ok d => rfl
  | error e =>
      cases e with
      | os e =>
          obtain ⟨cause, paths⟩ := e
          cases cause <;> rfl
      | nul => rfl
      | linkLoop p => rfl

/-- A file is removed, or the world is left alone. -/
theorem endState_removeIfPresent (p : Path) (w : World) :
    endState (Workspace.removeIfPresent p w) = w
      ∨ ∃ d, w.disk.unlink w.cwd p = .ok d
        ∧ endState (Workspace.removeIfPresent p w) = { w with disk := d } := by
  rw [removeIfPresent_apply]
  split
  · rename_i d h
    exact Or.inr ⟨d, h, rfl⟩
  · exact Or.inl rfl
  · exact Or.inl rfl

/-- So is to remove a file. -/
theorem startsNothing_removeIfPresent (p : Path) : StartsNothing (Workspace.removeIfPresent p) := by
  intro r w h
  obtain hend | ⟨d, -, hend⟩ := endState_removeIfPresent p w
  · rw [hend]
    exact h
  · rw [hend]
    exact h

/-- A removal does to the disk what it can, and prints nothing or a warning. -/
theorem endState_remove (p : Path) (w : World) :
    ∃ stdout, endState (Workspace.remove p w)
        = { w with disk := endState (Disk.removeTree w.cwd p w.disk), stdout := stdout }
      ∧ (stdout = w.stdout
        ∨ ∃ e, stdout = w.stdout ++ (Workspace.removalWarning p e ++ "\n")) := by
  unfold Workspace.remove
  rw [Step.bind_ok (Step.get_apply w)]
  cases Disk.removeTree w.cwd p w.disk with
  | ok u d => exact ⟨w.stdout, rfl, Or.inl rfl⟩
  | error e d =>
      have hset : (set { w with disk := d } : Action World PUnit) w
          = .ok ⟨⟩ { w with disk := d } := rfl
      dsimp only
      rw [Step.bind_ok hset]
      split
      · exact ⟨w.stdout, rfl, Or.inl rfl⟩
      · exact ⟨w.stdout, rfl, Or.inl rfl⟩
      -- any other refusal is shown as a warning
      · exact ⟨_, rfl, Or.inr ⟨_, rfl⟩⟩

/-- To leave a workspace changes the disk and the console. -/
theorem startsNothing_leave (p : Path) : StartsNothing (Workspace.leave p) := by
  refine startsNothing_bind ?_ fun _ => (quiet_log _ _).startsNothing
  intro r w h
  obtain ⟨stdout, hend, -⟩ := endState_remove p w
  rw [hend]
  exact h

/-- To leave a workspace does to the disk what its removal does. -/
theorem disk_leave (p : Path) (w : World) :
    (endState (Workspace.leave p w)).disk = endState (Disk.removeTree w.cwd p w.disk) := by
  obtain ⟨stdout, hend, -⟩ := endState_remove p w
  refine Step.endState_bind_of
    (P := fun w' : World => w'.disk = endState (Disk.removeTree w.cwd p w.disk)) ?_ fun _ w' h => ?_
  · rw [hend]
  · exact ((quiet_log _ _).disk_eq w').trans h

/-- A directory under a name that can be had is removed, or the removal is refused with a
    cause. -/
theorem Disk.removeTree_ne_nul {cwd p : Path} {d d' : Disk} (hnul : p.holdsNul = false) :
    Disk.removeTree cwd p d ≠ .error (.path .nul) d' := by
  intro h
  unfold removeTree at h
  rw [checkNul_of_not_holdsNul hnul] at h
  dsimp only at h
  split at h
  · cases h
  split at h
  · cases h
  · unfold removeTreeAt at h
    split at h <;> cases h
  · cases h
  · split at h <;> cases h

/-- Leaving a workspace comes to an end, whatever became of the directory. -/
theorem leave_eq_ok {p : Path} (hnul : p.holdsNul = false) (w : World) :
    ∃ w', Workspace.leave p w = .ok () w' := by
  -- a removal that is refused is a warning, so only the log is left
  have hremove : ∃ w', Workspace.remove p w = .ok () w' := by
    unfold Workspace.remove
    rw [Step.bind_ok (Step.get_apply w)]
    cases h : Disk.removeTree w.cwd p w.disk with
    | ok u d => exact ⟨_, rfl⟩
    | error e d =>
        have hset : (set { w with disk := d } : Action World PUnit) w
            = .ok ⟨⟩ { w with disk := d } := rfl
        dsimp only
        rw [Step.bind_ok hset]
        split
        -- the only refusal that is handed on is that of a name with a zero octet
        · exact absurd h (Disk.removeTree_ne_nul hnul)
        · exact ⟨_, rfl⟩
        · exact ⟨_, rfl⟩
  obtain ⟨w₁, hw₁⟩ := hremove
  obtain ⟨stderr, hlog⟩ := World.log_apply .workspace ("workspace removed: " ++ p.text) w₁
  exact ⟨_, (Step.bind_ok hw₁).trans hlog⟩

/-- Leaving a workspace removes its directory and prints. -/
theorem leave_apply {dir : Path} (hnul : dir.holdsNul = false) (w : World) :
    ∃ stdout stderr, Workspace.leave dir w = .ok () { w with
      disk := endState (Disk.removeTree w.cwd dir w.disk)
      stdout := stdout
      stderr := stderr } := by
  obtain ⟨v, hleave⟩ := leave_eq_ok hnul w
  -- the world in between is the one that the removal leaves at either end
  obtain ⟨_, w₁, hremove, hlog⟩ := Step.bind_eq_ok_iff.mp hleave
  obtain ⟨stdout, hend, -⟩ := endState_remove dir w
  rw [hremove] at hend
  obtain rfl : w₁ = _ := hend
  obtain ⟨stderr, hlog'⟩ := World.log_apply .workspace ("workspace removed: " ++ dir.text)
    { w with disk := endState (Disk.removeTree w.cwd dir w.disk), stdout := stdout }
  exact ⟨stdout, stderr, hleave.trans (hlog.symm.trans hlog')⟩

/-- The workspace with a number. -/
def Workspace.numbered (temp : Path) (n : Nat) : Path :=
  Path.ofString (nameText temp (defaultStem ++ toString n))

/-- A name is refused or taken, or a new directory stands under it.  Each uses up its
    number. -/
theorem tryNext_apply (w : World) :
    (∃ e, Workspace.tryNext Workspace.defaultStem w
        = .error e { w with workspaceCount := w.workspaceCount + 1 })
      ∨ Workspace.tryNext Workspace.defaultStem w
        = .ok none { w with workspaceCount := w.workspaceCount + 1 }
      ∨ ∃ d : Disk, (Workspace.numbered w.tempDir w.workspaceCount).holdsNul = false
        ∧ w.disk.makeDir w.cwd (Workspace.numbered w.tempDir w.workspaceCount) = .ok d
        ∧ Workspace.tryNext Workspace.defaultStem w
          = .ok (some (Workspace.numbered w.tempDir w.workspaceCount))
            { w with disk := d, workspaceCount := w.workspaceCount + 1 } := by
  have hset : (set { w with workspaceCount := w.workspaceCount + 1 } : Action World PUnit) w
      = .ok ⟨⟩ { w with workspaceCount := w.workspaceCount + 1 } := rfl
  unfold Workspace.tryNext
  rw [Step.bind_ok (Step.get_apply w), Step.bind_ok hset]
  split
  · exact Or.inl ⟨_, rfl⟩
  rename_i hnul
  split
  · exact Or.inl ⟨_, rfl⟩
  -- the name can be had; now the disk says whether it is free
  cases hmake : w.disk.makeDir w.cwd
      (Path.ofString (Workspace.nameText w.tempDir
        (Workspace.defaultStem ++ toString w.workspaceCount))) with
  | ok d => exact Or.inr (Or.inr ⟨d, eq_false_of_ne_true hnul, hmake, rfl⟩)
  | error e =>
      cases e with
      | alreadyExists => exact Or.inr (Or.inl rfl)
      | _ => exact Or.inl ⟨_, rfl⟩

/-- A new workspace is a directory under one of the names that are tried; where none
    is made, only numbers have been used up. -/
theorem create_apply (tries : Nat) (w : World) :
    (∃ e count, Workspace.create Workspace.defaultStem tries w
        = .error e { w with workspaceCount := count })
      ∨ ∃ (n count : Nat) (d : Disk), (Workspace.numbered w.tempDir n).holdsNul = false
        ∧ w.disk.makeDir w.cwd (Workspace.numbered w.tempDir n) = .ok d
        ∧ Workspace.create Workspace.defaultStem tries w
          = .ok (Workspace.numbered w.tempDir n)
            { w with disk := d, workspaceCount := count } := by
  induction tries generalizing w with
  | zero => exact Or.inl ⟨_, w.workspaceCount, Step.throw_apply _ w⟩
  | succ tries ih =>
      rw [Workspace.create]
      obtain ⟨e, h⟩ | h | ⟨d, hnul, hmake, h⟩ := tryNext_apply w
      · exact Or.inl ⟨e, _, Step.bind_error h⟩
      · rw [Step.bind_ok h]
        -- the name is taken, so the next one is tried
        exact ih { w with workspaceCount := w.workspaceCount + 1 }
      · exact Or.inr ⟨_, _, d, hnul, hmake, Step.bind_ok h⟩

/-- To enter a workspace is to make it, and to say so. -/
theorem enter_apply (w : World) :
    (∃ e count, Workspace.enter Workspace.defaultStem w
        = .error e { w with workspaceCount := count })
      ∨ ∃ (n count : Nat) (d : Disk) (stderr : String),
        (Workspace.numbered w.tempDir n).holdsNul = false
          ∧ w.disk.makeDir w.cwd (Workspace.numbered w.tempDir n) = .ok d
          ∧ Workspace.enter Workspace.defaultStem w
            = .ok (Workspace.numbered w.tempDir n)
              { w with disk := d, workspaceCount := count, stderr := stderr } := by
  unfold Workspace.enter
  obtain ⟨e, count, hc⟩ | ⟨n, count, d, hnul, hmake, hc⟩ := create_apply Workspace.nameTries w
  · exact Or.inl ⟨e, count, Step.bind_error hc⟩
  · obtain ⟨stderr, hlog⟩ := World.log_apply .workspace
      ("workspace created: " ++ (Workspace.numbered w.tempDir n).text)
      { w with disk := d, workspaceCount := count }
    refine Or.inr ⟨n, count, d, stderr, hnul, hmake, ?_⟩
    rw [Step.bind_ok hc, Step.bind_ok hlog]
    rfl

/-- A workspace is a new directory with a number, under a name that can be had. -/
theorem enter_eq_ok {dir : Path} {w w' : World}
    (h : Workspace.enter Workspace.defaultStem w = .ok dir w') :
    ∃ (n count : Nat) (d : Disk) (stderr : String), dir = Workspace.numbered w.tempDir n
      ∧ dir.holdsNul = false ∧ w.disk.makeDir w.cwd dir = .ok d
      ∧ w' = { w with disk := d, workspaceCount := count, stderr := stderr } := by
  obtain ⟨e, count, henter⟩ | ⟨n, count, d, stderr, hnul, hmake, henter⟩ := enter_apply w
  · rw [henter] at h
    cases h
  · rw [henter] at h
    cases h
    exact ⟨n, count, d, stderr, rfl, hnul, hmake, rfl⟩

/-- The path of a workspace that was entered is one that can be had. -/
theorem holdsNul_of_enter {dir : Path} {w w' : World}
    (h : Workspace.enter Workspace.defaultStem w = .ok dir w') : dir.holdsNul = false := by
  obtain ⟨_, _, _, _, -, hnul, -⟩ := enter_eq_ok h
  exact hnul

end RoundTrip
