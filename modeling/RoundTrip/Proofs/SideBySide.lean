import Mathlib.Data.List.Forall2
import RoundTrip.Proofs.Lockstep
import RoundTrip.Proofs.Probes

/-! # A run in lockstep

    Two sessions are abreast if their worlds are, and if their tallies and journals are the
    same but for the diagnostics of failed exports and imports.  A case takes the same
    course in both, provided that of its processes only the one after the splitter is a
    probe (`Session.Abreast.step`).  The numbers of the processes that are probes are read
    off the run itself (`Plan.probesFrom`), so a whole run takes the same course:
    **`Session.Abreast.runFrom`**. -/

namespace RoundTrip

open Step (EndAlike Keeps endState)
open Workspace (numbered)

variable {S S' T : Disk → Disk → Prop} {probe : Nat → Prop} {α : Type} {w w' : World}

/-! ## Splitting -/

/-- The splitter found the same, but may have said so in other words. -/
inductive Splitting.Alike : Splitting → Splitting → Prop where
  | into (files : List Path) : Alike (.into files) (.into files)
  | single (file : Path) : Alike (.single file) (.single file)
  | undecodable (message message' : String) : Alike (.undecodable message) (.undecodable message')
  | broken (exitCode : Int) (message message' : String) :
      Alike (.broken exitCode message) (.broken exitCode message')
  | unknown : Alike .unknown .unknown

/-- Alike answers bring the same number of additional sources. -/
theorem Splitting.Alike.growth_eq {x x' : Splitting} (h : x.Alike x') : x'.growth = x.growth := by
  cases h <;> rfl

namespace World.Abreast

/-- If the splitter is no probe, both runs read the same names off its output and look for them
    on the same disk. -/
theorem split (h : w.Abreast Eq probe w') (hprobe : ¬probe w.spawns.length) (splitter : Path)
    (limit : Option Number) (source dir : Path) :
    Concur Eq Eq probe Splitting.Alike (Splitter.split splitter limit source dir w)
      (Splitter.split splitter limit source dir w') := by
  rw [Splitter.split_eq]
  refine Concur.bind (R := Invocation.Matches True)
    (h.run_eq ⟨rfl, rfl, rfl⟩ fun _ => ⟨hprobe, rfl⟩) fun i w₁ i' w₁' _ hi h₁ => ?_
  -- the names are looked up on the disk, and the disks are the same
  have hnames : Splitter.resolveNames dir (Text.wordsOf (Text.decode i.stdout)) w₁'
      = Splitter.resolveNames dir (Text.wordsOf (Text.decode i.stdout)) w₁ := by
    unfold Splitter.resolveNames
    rw [h₁.cwd_eq, ← h₁.disk]
  unfold Splitter.outcome
  dsimp only
  rw [hi.timedOut_eq, hi.exitCode_eq, hi.stdout_eq trivial]
  split
  · exact .ok ⟨.broken _ _ _, h₁⟩
  split
  · split
    · exact .ok ⟨.broken _ _ _, h₁⟩
    · rw [Step.bind_ok (Step.get_apply _), Step.bind_ok (Step.get_apply _), hnames]
      refine Concur.bind (Concur.ofExcept h₁) fun files _ _ _ _ heq hnext => ?_
      subst heq
      exact .ok ⟨.into files, hnext⟩
  split
  · exact .ok ⟨.single source, h₁⟩
  split
  · exact .ok ⟨.undecodable _ _, h₁⟩
  · exact .ok ⟨.broken _ _ _, h₁⟩

/-- The messages of two answers may differ, and with them what is printed; the inputs do not.
    -/
theorem inputs {x x' : Splitting} (h : w.Abreast Eq probe w') (hx : x.Alike x') (source : Path)
    (splitter : Option Path) :
    Concur Eq Eq probe Eq (x.inputs source splitter w) (x'.inputs source splitter w') := by
  cases hx with
  | into files => exact .ok ⟨rfl, h⟩
  | single file => exact .ok ⟨rfl, h⟩
  | undecodable message message' =>
      refine Concur.bind (h.prints (prints_printErrorLine _) (prints_printErrorLine _))
        fun _ _ _ _ _ _ h₁ => ?_
      refine Concur.bind (h₁.prints (prints_log _ _) (prints_log _ _)) fun _ _ _ _ _ _ h₂ => ?_
      exact .ok ⟨rfl, h₂⟩
  | broken exitCode message message' => exact .error ⟨rfl, h⟩
  | unknown => exact .error ⟨rfl, h⟩

end World.Abreast

/-! ## Sessions -/

/-- The counts are the same, and the results that are kept are alike. -/
structure Tally.Alike (t t' : Tally) : Prop where
  tested_eq : t'.tested = t.tested
  failed_eq : t'.failed = t.failed
  uncompilable_eq : t'.uncompilable = t.uncompilable
  sources_eq : t'.sources = t.sources
  keepsResults_eq : t'.keepsResults = t.keepsResults
  results : List.Forall₂ Finding.Alike t.results t'.results
  firstFailure : Option.Rel Finding.Alike t.firstFailure t'.firstFailure

namespace Tally.Alike

variable {t t' : Tally}

/-- A tally is like itself. -/
theorem refl (t : Tally) : t.Alike t where
  tested_eq := rfl
  failed_eq := rfl
  uncompilable_eq := rfl
  sources_eq := rfl
  keepsResults_eq := rfl
  results := List.forall₂_same.mpr fun r _ => .refl r
  firstFailure := by
    cases t.firstFailure with
    | none => exact .none
    | some r => exact .some (.refl r)

/-- More sources are more sources in both. -/
theorem addSources (h : t.Alike t') (n : Int) : (t.addSources n).Alike (t'.addSources n) :=
  { h with sources_eq := congrArg (· + n) h.sources_eq }

/-- Alike results have the same verdict, so they are counted alike; which one came first is the
    same in both. -/
theorem add {r r' : Finding} (h : t.Alike t') (hr : r.Alike r') : (t.add r).Alike (t'.add r') := by
  have htested : r'.tested = r.tested := congrArg Verdict.isTested hr.verdict_eq
  have hfailed : r'.failed = r.failed := congrArg Verdict.isFailure hr.verdict_eq
  unfold Tally.add
  rw [htested, hfailed, h.keepsResults_eq, h.tested_eq, h.failed_eq, h.uncompilable_eq]
  refine ⟨rfl, rfl, rfl, h.sources_eq, rfl, ?_, ?_⟩
  · dsimp only
    split
    · exact List.rel_append h.results (.cons hr .nil)
    · exact h.results
  · dsimp only
    split
    · have hfirst := h.firstFailure
      -- where there is a first failure already, it stays; else the new result is it, in both
      generalize t.firstFailure = first at hfirst
      generalize t'.firstFailure = first' at hfirst
      cases hfirst with
      | none => exact .some hr
      | some hfirst => exact .some hfirst
    · exact h.firstFailure

end Tally.Alike

/-- Entries of the journal that tell the same. -/
inductive Event.Alike : Event → Event → Prop where
  | started (source : Path) : Alike (.started source) (.started source)
  | workspace (dir : Path) : Alike (.workspace dir) (.workspace dir)
  | finished {r r' : Finding} {t t' : Tally} (hr : r.Alike r') (ht : t.Alike t') :
      Alike (.finished r t) (.finished r' t')

/-- The sessions are the same but for the streams of some processes and what they say. -/
structure Session.Abreast (S : Disk → Disk → Prop) (probe : Nat → Prop) (s s' : Session) :
    Prop where
  world : s.world.Abreast S probe s'.world
  tally : s.tally.Alike s'.tally
  journal : List.Forall₂ Event.Alike s.journal s'.journal

/-- An action on sessions comes to the same kind of end in two runs. -/
def Session.Concur (S T : Disk → Disk → Prop) (probe : Nat → Prop) (Q : α → α → Prop) :
    EStateM.Result Fault Session α → EStateM.Result Fault Session α → Prop :=
  EndAlike (fun a s a' s' => Q a a' ∧ s.Abreast S probe s')
    fun e s e' s' => e.Alike e' ∧ s.Abreast T probe s'

namespace Session

variable {s s' : Session} {β : Type} {Q : α → α → Prop}

/-- Two steps concur if the first ones do, and the second ones wherever the first have left
    them. -/
theorem Concur.bind {R : β → β → Prop} {x x' : Action Session β} {f f' : β → Action Session α}
    (hx : Concur S' T probe R (x s) (x' s'))
    (hf : ∀ b t b' t', x s = .ok b t → R b b' → t.Abreast S' probe t' →
      Concur S T probe Q (f b t) (f' b' t')) :
    Concur S T probe Q ((x >>= f) s) ((x' >>= f') s') :=
  EndAlike.bind hx fun b t b' t' heq hb => hf b t b' t' heq hb.1 hb.2

/-- What concurs in the worlds concurs in the sessions: neither tally nor journal is touched.
    -/
theorem Abreast.inWorld {x x' : Action World α} (h : s.Abreast S probe s')
    (hx : RoundTrip.Concur S' T probe Q (x s.world) (x' s'.world)) :
    Concur S' T probe Q (Session.inWorld x s) (Session.inWorld x' s') := by
  unfold Session.inWorld Step.within
  generalize x s.world = r at hx
  generalize x' s'.world = r' at hx
  cases hx with
  | ok ha => exact .ok ⟨ha.1, ha.2, h.tally, h.journal⟩
  | error he => exact .error ⟨he.1, he.2, h.tally, h.journal⟩

/-- Alike entries may be added to the journals. -/
theorem Abreast.note {e e' : Event} (h : s.Abreast S probe s') (he : e.Alike e') :
    Concur S T probe Eq (Session.note e s) (Session.note e' s') :=
  .ok ⟨rfl, h.world, h.tally, List.rel_append h.journal (.cons he .nil)⟩

theorem Abreast.count {f f' : Tally → Tally} (h : s.Abreast S probe s')
    (hf : (f s.tally).Alike (f' s'.tally)) :
    Concur S T probe Eq (Session.count f s) (Session.count f' s') :=
  .ok ⟨rfl, h.world, hf, h.journal⟩

/-- Both sessions may print what they like. -/
theorem Abreast.prints {x x' : Action World Unit} (h : s.Abreast S probe s') (hx : Prints x)
    (hx' : Prints x') : Concur S T probe Eq (Session.inWorld x s) (Session.inWorld x' s') :=
  h.inWorld (h.world.prints hx hx')

/-- A workspace is left in both sessions. -/
theorem Abreast.leave {dir : Path} (h : s.Abreast S probe s') (hnul : dir.holdsNul = false)
    (hS : S' (endState (Disk.removeTree s.world.cwd dir s.world.disk))
      (endState (Disk.removeTree s'.world.cwd dir s'.world.disk))) :
    Concur S' T probe Eq (Session.inWorld (Workspace.leave dir) s)
      (Session.inWorld (Workspace.leave dir) s') :=
  h.inWorld (h.world.leave hnul hS)

/-- Whichever way a case ends, its workspace is left. -/
theorem Concur.leave {x x' : Action Session α} {dir : Path}
    (hx : Concur Eq (fun _ _ => True) probe Q (x s) (x' s')) (hnul : dir.holdsNul = false) :
    Concur Eq (fun _ _ => True) probe Q
      (Step.ensuring x (Session.inWorld (Workspace.leave dir)) s)
      (Step.ensuring x' (Session.inWorld (Workspace.leave dir)) s') := by
  refine EndAlike.ensuring hx (fun a t a' t' _ ha => ?_) fun e t e' t' _ he => ?_
  · -- the disks are the same, so they are the same without the workspace
    have hleave : Concur Eq (fun _ _ => True) probe Eq _ _ :=
      ha.2.leave hnul (by rw [ha.2.world.cwd_eq, ha.2.world.disk])
    exact EndAlike.mono hleave (fun _ _ _ _ hu => ⟨ha.1, hu.2⟩) fun _ _ _ _ hf => hf
  · have hleave : Concur (fun _ _ => True) (fun _ _ => True) probe Eq _ _ :=
      he.2.leave hnul trivial
    exact EndAlike.mono hleave (fun _ _ _ _ hu => ⟨he.1, hu.2⟩) fun _ _ _ _ hf => hf

end Session

/-! ## What a case keeps -/

namespace Plan

open Harness (plan Options)

variable {c : Configuration} {o : Options} {number : Nat} {source : Path} {s s' : Session}
  {r : Finding}

/-- A case leaves a plain world plain: its workspace is a new directory, and its processes make
    no links. -/
theorem keeps_plain_tryCase (number : Nat) (source : Path) :
    Keeps (fun s : Session => s.world.Plain) ((plan c o).tryCase number source) := by
  refine keeps_tryCase (fun hx => (World.Plain.lasts source).quiet hx) (fun _ _ h => ?_)
    (fun _ _ _ _ _ h hmake => ?_) (fun dir => ?_) World.Plain.keeps_leave
  · exact ⟨⟨h.straight.disk, h.straight.linkless⟩, h.isAbsolute, h.noUp⟩
  · exact ⟨⟨h.straight.disk.makeDir hmake, h.straight.linkless⟩, h.isAbsolute, h.noUp⟩
  · exact (World.Plain.lasts dir).keeps_examine ((World.Plain.lasts dir).keeps_split trivial)
      fun _ => Verification.allCommands_true _ _ _ dir

/-- So does a case with its hooks. -/
theorem keeps_plain_step (number : Nat) (source : Path) :
    Keeps (fun s : Session => s.world.Plain) ((plan c o).step number source) :=
  keeps_step (fun hx => (World.Plain.lasts source).quiet hx) (Harness.quietHooks_plan c o)
    (keeps_plain_tryCase number source)

end Plan

/-! ## Where the probes are -/

/-- From the process with this number to this end, the probes are among those with certain
    numbers. -/
def Probed (A probe : Nat → Prop) (first : Nat) (r : EStateM.Result Fault Session α) : Prop :=
  ∀ n, first ≤ n → n < (endState r).world.spawns.length → probe n → A n

namespace Probed

variable {A : Nat → Prop} {first : Nat} {β : Type} {s t : Session} {b : β}
  {x : Action Session β} {f : β → Action Session α}

/-- The probes up to the end of the first step are among those up to the end of both. -/
theorem before (h : Probed A probe first ((x >>= f) s)) (hf : ∀ b, Session.Grows (f b)) :
    Probed A probe first (x s) := fun n hn hlt =>
  h n hn (Step.endState_bind_of (P := fun u : Session => n + 1 ≤ u.world.spawns.length) hlt
    fun b => hf b (n + 1))

/-- So are those that are started later. -/
theorem after (h : Probed A probe first ((x >>= f) s)) (heq : x s = .ok b t) :
    Probed A probe first (f b t) := by rwa [Step.bind_ok heq] at h

/-- A clean-up starts no fewer processes than there were, so the probes before it are among
    all. -/
theorem ensured {x : Action Session α} {cleanUp : Action Session Unit}
    (h : Probed A probe first (Step.ensuring x cleanUp s)) (hc : Session.Grows cleanUp) :
    Probed A probe first (x s) := by
  intro n hn hlt
  refine h n hn ?_
  rw [Step.endState_ensuring]
  exact hc (n + 1) _ hlt

theorem inWorld {x : Action World α} (h : Probed A probe first (Session.inWorld x s)) (n : Nat)
    (hn : first ≤ n) (hlt : n < (endState (x s.world)).spawns.length) : probe n → A n :=
  h n hn (by rwa [Session.endState_inWorld])

end Probed

/-! ## A case in lockstep -/

namespace Session.Abreast

open Harness (plan Options)

variable {c : Configuration} {o : Options} {number first : Nat} {source dir : Path}
  {s s' : Session}

/-- After the splitter the first process is the probe, and the verification takes care of the
    others. -/
theorem afterSplit {x x' : Splitting} (h : s.Abreast Eq probe s') (hx : x.Alike x')
    (hs : s.world.Straight (Near dir)) (hdir : dir.Direct) (b : Bool)
    (hfirst : s.world.spawns.length = first + 1)
    (hprobe : Probed (· = first + 1) probe first ((plan c o).afterSplit source dir x s)) :
    Concur Eq (fun _ _ => True) probe Finding.Alike ((plan c o).afterSplit source dir x s)
      ((plan c { o with showErrors := b }).afterSplit source dir x' s') := by
  refine Concur.bind (h.inWorld ((h.world.inputs hx source _).weaken fun _ _ _ => trivial))
    fun inputs s₁ inputs' s₁' heq₁ hinputs h₁ => ?_
  have hprobe₁ := hprobe.after heq₁
  obtain ⟨w₁, hinputs', rfl⟩ := Session.inWorld_eq_ok heq₁
  subst hinputs
  refine Concur.bind (h₁.count ?_) fun _ s₂ _ s₂' heq₂ _ h₂ => ?_
  · rw [hx.growth_eq]
    exact h₁.tally.addSources _
  have hprobe₂ := hprobe₁.after heq₂
  cases heq₂
  have hgrown := ((lasts_grows (first + 1) dir).quiet (quiet_inputs _ _ _)).of_eq_ok
    hfirst.ge hinputs'
  refine h₂.inWorld (h₂.world.verify ?_ hdir b fun n hn hlt hprobed => ?_)
  · exact ((World.Straight.lasts (Near dir) dir).quiet (quiet_inputs _ _ _)).of_eq_ok hs hinputs'
  -- a later process has a later number than the probe of this case
  · have hlater : first + 1 < n := Nat.lt_of_le_of_lt hgrown hn
    exact hlater.ne' (hprobe₂.inWorld n ((Nat.le_succ first).trans hlater.le) hlt hprobed)

/-- The first process of a case is the splitter, which is no probe. -/
theorem examine (h : s.Abreast Eq probe s') (hs : s.world.Straight (Near dir)) (hdir : dir.Direct)
    (b : Bool) (hprobe : Probed (· = s.world.spawns.length + 1) probe s.world.spawns.length
      ((plan c o).examine number source dir s)) :
    Concur Eq (fun _ _ => True) probe Finding.Alike ((plan c o).examine number source dir s)
      ((plan c { o with showErrors := b }).examine number source dir s') := by
  have hlength := Splitter.length_split c.splitter c.limit source dir s.world
  rw [Plan.examine_eq] at hprobe ⊢
  rw [Plan.examine_eq]
  refine Concur.bind (h.note (.workspace dir)) fun _ s₁ _ s₁' heq₁ _ h₁ => ?_
  have hprobe₁ := hprobe.after heq₁
  cases heq₁
  -- if the splitter were a probe, its number would be the one after it
  have hsplitter : ¬probe s.world.spawns.length := fun hn =>
    (Nat.lt_succ_self _).ne ((hprobe₁.before (Plan.grows_afterSplit source dir)).inWorld _ le_rfl
      hlength.ge hn)
  have hsplit := h₁.world.split hsplitter c.splitter c.limit source dir
  refine Concur.bind (h₁.inWorld (hsplit.weaken fun _ _ _ => trivial))
    fun x s₂ x' s₂' heq₂ hx h₂ => ?_
  have hprobe₂ := hprobe₁.after heq₂
  obtain ⟨w₂, hsplit, rfl⟩ := Session.inWorld_eq_ok heq₂
  refine h₂.afterSplit hx ?_ hdir b ?_ hprobe₂
  · exact ((World.Straight.lasts (Near dir) dir).keeps_split trivial).of_eq_ok hs hsplit
  · rwa [show Splitter.split c.splitter c.limit source dir s.world = _ from hsplit] at hlength

/-- The workspaces of two runs abreast have the same name, and are removed from both disks. -/
theorem tryCase (h : s.Abreast Eq probe s') (hw : s.world.Plain) (b : Bool)
    (hprobe : Probed (· = s.world.spawns.length + 1) probe s.world.spawns.length
      ((plan c o).tryCase number source s)) :
    Concur Eq (fun _ _ => True) probe Finding.Alike ((plan c o).tryCase number source s)
      ((plan c { o with showErrors := b }).tryCase number source s') := by
  refine Concur.bind (h.inWorld ((h.world.enter_workspace _).weaken fun _ _ _ => trivial))
    fun dir s₁ dir' s₁' heq₁ hdir h₁ => ?_
  have hprobe₁ := hprobe.after heq₁
  subst hdir
  obtain ⟨w₁, henter, rfl⟩ := Session.inWorld_eq_ok heq₁
  obtain ⟨n, count, d, stderr, rfl, hnul, hmake, rfl⟩ := enter_eq_ok henter
  have hexamine := (hprobe₁.before fun r => grows_bind (grows_count _) fun _ =>
    grows_bind (grows_quiet (quiet_log _ _)) fun _ => grows_pure r).ensured
      (grows_inWorld (Plan.grows_leave _))
  have hexamined := h₁.examine (hw.enter hmake).2 (hw.direct_numbered n) b hexamine
  refine Concur.bind (hexamined.leave hnul) fun r s₂ r' s₂' _ hr h₂ => ?_
  refine Concur.bind (h₂.count (h₂.tally.add hr)) fun _ s₃ _ s₃' _ _ h₃ => ?_
  refine Concur.bind (h₃.prints (prints_log _ _) (prints_log _ _)) fun _ s₄ _ s₄' _ _ h₄ => ?_
  exact .ok ⟨hr, h₄⟩

/-- **A case takes the same course in two sessions abreast**, if of its processes only the
    one after the splitter is a probe. -/
theorem step (h : s.Abreast Eq probe s') (hw : s.world.Plain) (b : Bool)
    (hprobe : Probed (· = s.world.spawns.length + 1) probe s.world.spawns.length
      ((plan c o).step number source s)) :
    Concur Eq (fun _ _ => True) probe Finding.Alike ((plan c o).step number source s)
      ((plan c { o with showErrors := b }).step number source s') := by
  have hooks := Harness.quietHooks_plan c o
  refine Concur.bind (h.note (.started source)) fun _ s₁ _ s₁' heq₁ _ h₁ => ?_
  have hprobe₁ := hprobe.after heq₁
  cases heq₁
  refine Concur.bind (h₁.prints (prints_tick source) (prints_tick source))
    fun _ s₂ _ s₂' heq₂ _ h₂ => ?_
  have hprobe₂ := (hprobe₁.after heq₂).before fun r =>
    grows_bind (fun _ => Step.keeps_get) fun u => grows_bind (grows_note _) fun _ =>
      grows_bind (grows_quiet (hooks.onResult r)) fun _ => grows_pure r
  obtain ⟨w₂, hstart, rfl⟩ := Session.inWorld_eq_ok heq₂
  -- the dot that is printed first starts nothing, so the numbers are those of the case
  have hlength : w₂.spawns.length = s.world.spawns.length := by
    obtain ⟨_, _, _, htick⟩ := prints_tick source s.world
    rw [show Report.tick source s.world = _ from hstart] at htick
    cases htick
    rfl
  rw [← hlength] at hprobe₂
  refine Concur.bind (h₂.tryCase ?_ b hprobe₂) fun r s₃ r' s₃' _ hr h₃ => ?_
  · exact ((World.Plain.lasts source).quiet (hooks.onStart source)).of_eq_ok hw hstart
  rw [Step.bind_ok (Step.get_apply _), Step.bind_ok (Step.get_apply _)]
  refine Concur.bind (h₃.note (.finished hr h₃.tally)) fun _ s₄ _ s₄' _ _ h₄ => ?_
  refine Concur.bind (h₄.prints (prints_announce r) (prints_announce r'))
    fun _ s₅ _ s₅' _ _ h₅ => ?_
  exact .ok ⟨hr, h₅⟩

end Session.Abreast

/-! ## A run in lockstep -/

section Run

open Harness (plan Options)

variable {c : Configuration} {o : Options} {number : Nat} {source : Path} {s s' : Session}

/-- In the first case of a run the only probe is the second process. -/
theorem Probed.step {rest : List Path}
    (h : Probed (· ∈ (plan c o).probesFrom number (source :: rest) s) probe s.world.spawns.length
      ((plan c o).step number source s)) :
    Probed (· = s.world.spawns.length + 1) probe s.world.spawns.length
      ((plan c o).step number source s) := by
  intro n hn hlt hprobed
  obtain rfl | hlater := List.mem_cons.mp (h n hn hlt hprobed)
  · rfl
  · cases hstep : (plan c o).step number source s with
    | ok r t =>
        rw [hstep] at hlater hlt
        dsimp only at hlater
        split at hlater
        · exact absurd hlater List.not_mem_nil
        -- the probes of the later cases have numbers beyond the end of this one
        · exact absurd (Plan.lt_of_mem_probesFrom hlater) (Nat.lt_asymm hlt)
    | error e t =>
        rw [hstep] at hlater
        exact absurd hlater List.not_mem_nil

/-- **A run takes the same course in two sessions abreast.** -/
theorem Session.Abreast.runFrom {sources : List Path} (h : s.Abreast Eq probe s')
    (hw : s.world.Plain) (b : Bool)
    (hprobe : Probed (· ∈ (plan c o).probesFrom number sources s) probe s.world.spawns.length
      ((plan c o).runFrom number sources s)) :
    Concur Eq (fun _ _ => True) probe Eq ((plan c o).runFrom number sources s)
      ((plan c { o with showErrors := b }).runFrom number sources s') := by
  induction sources generalizing number s s' with
  | nil => exact .ok ⟨rfl, h⟩
  | cons source rest ih =>
      rw [Plan.runFrom] at hprobe ⊢
      rw [Plan.runFrom]
      -- what follows the first case starts processes, and takes none back
      have hstep := (hprobe.before fun r => by
        split
        · exact grows_quiet (quiet_log _ _)
        · exact Plan.grows_runFrom _ rest).step
      refine Concur.bind (h.step hw b hstep) fun r t r' t' heq hr ht => ?_
      have hfailed : r'.failed = r.failed := congrArg Verdict.isFailure hr.verdict_eq
      have hrest := hprobe.after heq
      rw [hfailed]
      show Concur _ _ _ _ ((if (plan c o).stopOnFailure && r.failed then _ else _ :
        Action Session Unit) t) ((if (plan c o).stopOnFailure && r.failed then _ else _ :
        Action Session Unit) t')
      by_cases hstop : ((plan c o).stopOnFailure && r.failed) = true
      · rw [if_pos hstop, if_pos hstop]
        exact ht.prints (prints_log _ _) (prints_log _ _)
      · rw [if_neg hstop] at hrest ⊢
        rw [if_neg hstop]
        have hstarted := Plan.starts_of_step_eq_ok heq
        have hplain := (Plan.keeps_plain_step number source).of_eq_ok hw heq
        -- the numbers of this case are used up, so the probe is one of those to come
        refine ih ht hplain fun n hn hlt hprobed => ?_
        obtain rfl | hlater := List.mem_cons.mp (hrest n (by omega) hlt hprobed)
        · omega
        · rw [heq] at hlater
          dsimp only at hlater
          rwa [if_neg hstop] at hlater

end Run

end RoundTrip
