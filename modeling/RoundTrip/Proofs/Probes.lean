import RoundTrip.Proofs.Calls
import RoundTrip.Proofs.Run

/-! # Which processes are probes

    A case starts the splitter, then a probe, and then what follows from the probe.  So the
    numbers of the probes can be read off a run (`Plan.probesFrom`), and a process that was
    started with one of these numbers was called as a probe: **`Plan.called_as_probe`**. -/

namespace RoundTrip

open Step (Keeps endState)
open Harness (plan Options)
open Workspace (numbered)

variable {P : World → Prop} {c : Configuration} {o : Options} {number : Nat}
  {source dir : Path} {s s' : Session} {r : Finding}

/-- However the splitter ends, it was one process. -/
theorem Splitter.length_split (splitter : Path) (limit : Option Number) (source dir : Path)
    (w : World) :
    (endState (split splitter limit source dir w)).spawns.length = w.spawns.length + 1 := by
  rw [split_eq]
  refine Step.endState_bind_of (P := fun u : World => u.spawns.length = w.spawns.length + 1)
    (Command.length_run _ _) fun i => looks_outcome limit source dir i _

/-! ## What a case keeps -/

namespace Plan

variable {Q : List Spawn → Prop}

/-- What is said of the starts is kept by a case if one start more does not undo it. -/
theorem keeps_tryCase_of_starts (hQ : ∀ ks k, Q ks → Q (ks ++ [k])) (number : Nat)
    (source : Path) :
    Keeps (fun s : Session => Q s.world.spawns) ((plan c o).tryCase number source) := by
  refine keeps_tryCase (lasts_starts hQ source).quiet (fun _ _ h => h) (fun _ _ _ _ _ h _ => h)
    (fun dir => ?_) fun dir => (startsNothing_leave dir).keeps fun w w' hrecord h => ?_
  · exact (lasts_starts hQ dir).keeps_examine ((lasts_starts hQ dir).keeps_split trivial) fun _ =>
      Verification.allCommands_true _ _ _ dir
  · rwa [World.spawns_of_record hrecord]

/-- The same of a case with its hooks. -/
theorem keeps_step_of_starts (hQ : ∀ ks k, Q ks → Q (ks ++ [k])) (number : Nat) (source : Path) :
    Keeps (fun s : Session => Q s.world.spawns) ((plan c o).step number source) :=
  keeps_step (P := fun w => Q w.spawns) (lasts_starts hQ source).quiet
    (Harness.quietHooks_plan c o) (keeps_tryCase_of_starts hQ number source)

/-- The same of the cases that are left. -/
theorem keeps_runFrom_of_starts (hQ : ∀ ks k, Q ks → Q (ks ++ [k])) (number : Nat)
    (sources : List Path) :
    Keeps (fun s : Session => Q s.world.spawns) ((plan c o).runFrom number sources) :=
  keeps_runFrom (P := fun w => Q w.spawns) (lasts_starts hQ ⟨.here, []⟩).quiet
    (Harness.quietHooks_plan c o) (keeps_tryCase_of_starts hQ) number sources

/-- What follows the splitting takes no start back. -/
theorem grows_afterSplit (source dir : Path) (splitting : Splitting) :
    Session.Grows ((plan c o).afterSplit source dir splitting) := fun n =>
  (lasts_grows n dir).keeps_afterSplit (fun _ => Verification.allCommands_true _ _ _ dir) splitting

theorem grows_leave (dir : Path) : Grows (Workspace.leave dir) := fun _ =>
  (startsNothing_leave dir).keeps fun w w' hrecord h => by
    rwa [World.spawns_of_record hrecord]

/-- A case takes no start back. -/
theorem grows_step (number : Nat) (source : Path) :
    Session.Grows ((plan c o).step number source) :=
  fun _ => keeps_step_of_starts length_le_append number source

/-- A run takes no start back. -/
theorem grows_runFrom (number : Nat) (sources : List Path) :
    Session.Grows ((plan c o).runFrom number sources) :=
  fun _ => keeps_runFrom_of_starts length_le_append number sources

/-- To open a case is to start the splitter. -/
theorem starts_of_opening_eq_ok {w w' : World} {splitting : Splitting} {inputs : List Path}
    (h : (plan c o).opening number source dir w = .ok (splitting, inputs) w') :
    w.spawns.length + 1 ≤ w'.spawns.length := by
  obtain ⟨v, hsplit, hinputs⟩ := opening_eq_ok h
  have hlength := Splitter.length_split c.splitter c.limit source dir w
  rw [show Splitter.split c.splitter c.limit source dir w = _ from hsplit] at hlength
  exact ((lasts_grows _ dir).quiet (quiet_inputs _ _ _)).of_eq_ok (Nat.le_of_eq hlength.symm)
    hinputs

/-- A verification starts a probe. -/
theorem starts_of_verify_eq_ok {k : Case} {compiler : Compiler} {t : Comparator} {w w' : World}
    (h : Verification.verify k compiler t dir w = .ok r w') :
    w.spawns.length + 1 ≤ w'.spawns.length := by
  obtain ⟨i, v, hrun, hrest⟩ := Step.bind_eq_ok_iff.mp h
  have hprobed := Command.length_run (compiler.probe k.inputs dir) w
  rw [hrun] at hprobed
  exact ((lasts_grows _ dir).keeps_afterProbe (Verification.allCommands_true _ _ _ dir) i).of_eq_ok
    (Nat.le_of_eq hprobed.symm) hrest

/-- A case that comes to a result has started the splitter and a probe. -/
theorem starts_of_tryCase_eq_ok (h : (plan c o).tryCase number source s = .ok r s') :
    s.world.spawns.length + 2 ≤ s'.world.spawns.length := by
  have hend := (plan c o).caseEnd number source s
  rw [h] at hend
  cases hend with
  | @verified dir _ _ _ _ _ _ _ _ henter hopening hverify hleave =>
      obtain ⟨_, _, _, _, -, -, -, rfl⟩ := enter_eq_ok henter
      have hopened := starts_of_opening_eq_ok hopening
      have hverified := starts_of_verify_eq_ok hverify
      have hleft := (grows_leave dir _).of_eq_ok
        (Nat.le_trans (Nat.succ_le_succ hopened) hverified) hleave
      exact hleft

/-- A case that comes to a good end has started its splitter and its probe at least. -/
theorem starts_of_step_eq_ok (h : (plan c o).step number source s = .ok r s') :
    s.world.spawns.length + 2 ≤ s'.world.spawns.length := by
  have hooks := Harness.quietHooks_plan c o
  have hend := (plan c o).stepEnd number source s
  rw [h] at hend
  cases hend with
  | finished hstart hcase hresult =>
      have hgrown := ((lasts_grows s.world.spawns.length source).quiet
        (hooks.onStart source)).of_eq_ok (Nat.le_refl _) hstart
      have hstarted := Nat.le_trans (Nat.add_le_add_right hgrown 2) (starts_of_tryCase_eq_ok hcase)
      exact ((lasts_grows _ source).quiet (hooks.onResult r)).of_eq_ok hstarted hresult

/-! ## The numbers of the probes -/

/-- The numbers of the processes that a run over sources starts as probes: in each case it
    is the one after the splitter. -/
def probesFrom (p : Plan) (number : Nat) : List Path → Session → List Nat
  | [], _ => []
  | source :: rest, s =>
      (s.world.spawns.length + 1) ::
        match p.step number source s with
        | .ok r t =>
            if p.stopOnFailure && r.failed then [] else p.probesFrom (number + 1) rest t
        | .error _ _ => []

/-- The probes of a run are yet to come when it starts. -/
theorem lt_of_mem_probesFrom {sources : List Path} {n : Nat}
    (h : n ∈ (plan c o).probesFrom number sources s) : s.world.spawns.length < n := by
  induction sources generalizing number s with
  | nil => exact absurd h List.not_mem_nil
  | cons source rest ih =>
      obtain rfl | h := List.mem_cons.mp h
      · exact Nat.lt_succ_self _
      · have hgrown := grows_step (c := c) (o := o) number source _ s (Nat.le_refl _)
        cases hstep : (plan c o).step number source s with
        | ok r t =>
            rw [hstep] at h hgrown
            dsimp only at h
            split at h
            · exact absurd h List.not_mem_nil
            · exact Nat.lt_of_le_of_lt hgrown (ih h)
        | error e t =>
            rw [hstep] at h
            exact absurd h List.not_mem_nil

/-! ## What the probes are called as -/

/-- The process with this number was called as a probe. -/
def HasProbe (c : Configuration) (o : Options) (n : Nat) (ks : List Spawn) : Prop :=
  ∃ k inputs dir, ks[n]? = some k ∧ k.Of ((Harness.compiler c o).probe inputs dir)

/-- A start more does not change who has this number. -/
theorem hasProbe_append {n : Nat} (ks : List Spawn) (k : Spawn) (h : HasProbe c o n ks) :
    HasProbe c o n (ks ++ [k]) := by
  obtain ⟨k', inputs, dir, hk', hprobe⟩ := h
  obtain ⟨hn, -⟩ := List.getElem?_eq_some_iff.mp hk'
  exact ⟨k', inputs, dir, by rw [List.getElem?_append_left hn, hk'], hprobe⟩

/-- So few processes were started that the one with this number was not, or it is a probe. -/
def ProbeIfAny (c : Configuration) (o : Options) (n : Nat) (ks : List Spawn) : Prop :=
  ks.length ≤ n ∨ HasProbe c o n ks

/-- What starts nothing changes nothing about the numbers. -/
theorem quiet_probeIfAny {α : Type} {x : Action World α} {n : Nat} (hx : Quiet x) :
    Keeps (fun w => ProbeIfAny c o n w.spawns) x :=
  hx.keeps fun w w' _ hrecord h => by
    rwa [World.spawns_of_record hrecord]

/-- The first process of a verification is its probe, whatever comes after it. -/
theorem hasProbe_verify (case : Case) (t : Comparator) (dir : Path) (w : World) :
    HasProbe c o w.spawns.length
      (endState (Verification.verify case (Harness.compiler c o) t dir w)).spawns := by
  -- the probe is the first of the starts; those that follow are put behind it
  refine Step.endState_bind_of (P := fun u : World => HasProbe c o _ u.spawns) ?_ fun i =>
    (lasts_starts hasProbe_append dir).keeps_afterProbe (Verification.allCommands_true _ _ _ dir) i
  obtain ⟨limit, killed, hrun⟩ :=
    (Command.ran_run ((Harness.compiler c o).probe case.inputs dir) w).spawns_eq
  rw [hrun]
  exact ⟨_, case.inputs, dir, List.getElem?_concat_length, w, limit, killed, rfl⟩

/-- After the splitting the next process is the probe, unless the inputs cannot be had. -/
theorem probeIfAny_afterSplit (splitting : Splitting) :
    ProbeIfAny c o s.world.spawns.length
      (endState ((plan c o).afterSplit source dir splitting s)).world.spawns := by
  have hspawns : (endState (splitting.inputs source (plan c o).splitter s.world)).spawns
      = s.world.spawns :=
    ((quiet_inputs splitting source _).keeps fun w w' _ hrecord h =>
      (World.spawns_of_record hrecord).trans h) s.world rfl
  unfold afterSplit
  cases hinputs : splitting.inputs source (plan c o).splitter s.world with
  | error e w =>
      rw [hinputs] at hspawns
      rw [Step.bind_error (Session.inWorld_of_error hinputs)]
      exact Or.inl (Nat.le_of_eq (congrArg List.length hspawns))
  | ok inputs w =>
      rw [hinputs] at hspawns
      rw [Step.bind_ok (Session.inWorld_of_ok hinputs), ← hspawns]
      refine Or.inr ?_
      show HasProbe c o w.spawns.length
        (endState (Session.inWorld (Verification.verify ⟨source, inputs⟩ _ _ dir) _)).world.spawns
      rw [Session.endState_inWorld]
      exact hasProbe_verify _ _ dir w

/-- The splitter has the first number of a case, so the probe has the second. -/
theorem probeIfAny_examine (number : Nat) (source dir : Path) (s : Session) :
    ProbeIfAny c o (s.world.spawns.length + 1)
      (endState ((plan c o).examine number source dir s)).world.spawns := by
  obtain ⟨s₁, hnote, hworld⟩ : ∃ s₁, Session.note (.workspace dir) s = .ok () s₁
      ∧ s₁.world = s.world := ⟨_, rfl, rfl⟩
  have hlength : (endState ((plan c o).split number source dir s₁.world)).spawns.length
      = s₁.world.spawns.length + 1 := Splitter.length_split c.splitter c.limit source dir s₁.world
  rw [examine_eq, Step.bind_ok hnote, ← hworld]
  cases hsplit : (plan c o).split number source dir s₁.world with
  | error e w =>
      rw [hsplit] at hlength
      -- without an answer of the splitter no more is started
      rw [Step.bind_error (Session.inWorld_of_error hsplit)]
      exact Or.inl (Nat.le_of_eq hlength)
  | ok splitting w =>
      rw [hsplit] at hlength
      rw [Step.bind_ok (Session.inWorld_of_ok hsplit), ← hlength]
      exact probeIfAny_afterSplit splitting

/-- To enter a workspace and to leave it starts nothing. -/
theorem probeIfAny_tryCase (number : Nat) (source : Path) (s : Session) :
    ProbeIfAny c o (s.world.spawns.length + 1)
      (endState ((plan c o).tryCase number source s)).world.spawns := by
  refine endState_tryCase (P := fun w => ProbeIfAny c o (s.world.spawns.length + 1) w.spawns)
    (fun hx => quiet_probeIfAny hx) (fun _ => Or.inl (Nat.le_succ _)) fun n count d stderr _ _ => ?_
  have hexamine := probeIfAny_examine (c := c) (o := o) number source
    (numbered s.world.tempDir n)
    ⟨{ s.world with disk := d, workspaceCount := count, stderr := stderr }, s.tally, s.journal⟩
  exact (startsNothing_leave _).keeps (P := fun w => ProbeIfAny c o _ w.spawns)
    (fun w w' hrecord h => by rwa [World.spawns_of_record hrecord])
    _ hexamine

theorem probeIfAny_step (number : Nat) (source : Path) (s : Session) :
    ProbeIfAny c o (s.world.spawns.length + 1)
      (endState ((plan c o).step number source s)).world.spawns := by
  refine endState_step (P := fun w => ProbeIfAny c o (s.world.spawns.length + 1) w.spawns)
    (R := fun w => w.spawns = s.world.spawns) (fun hx => hx.keeps fun w w' _ hrecord h => ?_)
    (fun hx => quiet_probeIfAny hx) (Harness.quietHooks_plan c o) (fun w h => Or.inl ?_)
    (fun s₁ h => ?_) rfl
  · exact (World.spawns_of_record hrecord).trans h
  · rw [h]
    exact Nat.le_succ _
  · rw [← h]
    exact probeIfAny_tryCase number source s₁

/-- **What is started with the number of a probe is called as a probe.** -/
theorem called_as_probe {sources : List Path} {n : Nat}
    (h : n ∈ (plan c o).probesFrom number sources s) :
    ProbeIfAny c o n (endState ((plan c o).runFrom number sources s)).world.spawns := by
  induction sources generalizing number s with
  | nil => exact absurd h List.not_mem_nil
  | cons source rest ih =>
      have hfirst := probeIfAny_step (c := c) (o := o) number source s
      rw [probesFrom] at h
      have hend := (plan c o).runEnd number source rest s
      generalize (plan c o).runFrom number (source :: rest) s = x at hend
      cases hend with
      | fault hstep =>
          rw [hstep] at h hfirst
          obtain rfl := List.mem_singleton.mp h
          exact hfirst
      | stopped stderr hstep hstop =>
          rw [hstep] at h hfirst
          dsimp only at h
          rw [if_pos hstop] at h
          obtain rfl := List.mem_singleton.mp h
          exact hfirst
      | @goesOn r t hstep hgo =>
          rw [hstep] at h hfirst
          dsimp only at h
          rw [if_neg hgo] at h
          obtain rfl | hlater := List.mem_cons.mp h
          · -- the first case has started more, so its probe is among the starts
            have hprobe := hfirst.resolve_left
              (Nat.not_le_of_gt (starts_of_step_eq_ok hstep))
            exact Or.inr (keeps_runFrom_of_starts hasProbe_append _ _ t hprobe)
          · exact ih hlater

end Plan

end RoundTrip
