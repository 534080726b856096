import RoundTrip.Proofs.Run
import RoundTrip.Proofs.Twins

/-! # Cases are kept apart

    A `Block` is a source with what its case is given: what came of splitting it, and the
    processes of its verification.  A plan that hands out blocks gives each its own.

    A case is told from another by its workspace alone, so what a block comes to by itself
    it comes to among others as well, wherever it stands in their order
    (`Plan.step_isolated`, and from it `Plan.runFrom_isolated`).  Hence the order does not
    matter: **`Plan.verdicts_in_any_order`** -/

namespace RoundTrip

open Step (endState)

/-! ## Blocks -/

/-- A source with what its case is given. -/
structure Block where
  source : Path
  /-- What comes of splitting it. -/
  splitting : Splitting
  /-- The processes of its verification. -/
  script : List Process
  deriving DecidableEq

/-- The case of a block. -/
def Block.case (b : Block) : Case := ⟨b.source, b.splitting.files b.source⟩

/-- What the blocks add to the number of sources. -/
def Block.growth : List Block → Int
  | [] => 0
  | b :: rest => b.splitting.growth + growth rest

/-- The number of additional sources does not depend on the order. -/
theorem Block.growth_perm {blocks blocks' : List Block} (h : blocks.Perm blocks') :
    growth blocks = growth blocks' := by
  induction h with
  | nil => rfl
  | cons b _ ih => exact congrArg (b.splitting.growth + ·) ih
  | swap b b' rest =>
      unfold growth growth
      omega
  | trans _ _ ih ih' => exact ih.trans ih'

namespace Plan

/-- The plan that hands out what came of splitting, to one source after the other. -/
def handing (p : Plan) (outcomes : List Splitting) : Plan :=
  { p with split := fun number _ _ => pure (outcomes.getD number .unknown) }

/-- Goes through blocks, with the processes of all of them in order. -/
def runBlocks (p : Plan) (blocks : List Block) (w : World) (t : Tally) :
    EStateM.Result Fault Session Unit :=
  (p.handing (blocks.map Block.splitting)).run (blocks.map Block.source)
    (Session.start { w with script := blocks.flatMap Block.script } t)

/-- What happens before and after a case is shown on the console. -/
structure PrintingHooks (p : Plan) : Prop where
  onStart : ∀ source, Prints (p.onStart source)
  onResult : ∀ r, Prints (p.onResult r)

end Plan

/-- The sources of a session's findings, each with its verdict. -/
def Session.verdicts (s : Session) : List (Path × Option Verdict) :=
  s.findings.map fun r => (r.subject.source, some r.verdict)

namespace Block

/-- What a block comes to by itself. -/
def alone (b : Block) (p : Plan) (w : World) : EStateM.Result Fault Session Unit :=
  p.runBlocks [b] w (.start 1 false)

/-- The verdict that a block comes to by itself. -/
def verdict? (b : Block) (p : Plan) (w : World) : Option Verdict :=
  (endState (b.alone p w)).findings.head?.map Finding.verdict

/-- How long the processes of a block are waited for. -/
def waits (b : Block) (p : Plan) : List Number :=
  List.zipWith Process.waiting b.script (Twins.commandLimits p.compiler p.comparator)

/-- A block with exactly the processes that its verification needs: all of them start and
    leave the disk alone, and by itself the block comes to its end with all of them used
    up. -/
structure Complete (b : Block) (p : Plan) (w : World) : Prop where
  calm : ∀ q ∈ b.script, q.Calm
  ends : ∃ s, b.alone p w = .ok () s
    ∧ s.world.spawns.length = w.spawns.length + b.script.length

/-- Where a call of the compiler looks for files, it finds the same in every room. -/
def Finds (b : Block) (p : Plan) (w : World) : Prop :=
  ∀ call ∈ b.script.zip (Twins.callWords p.compiler b.case.inputs),
    ∀ word ∈ call.1.lookups call.2, FoundAlike w word

end Block

/-! ## One case -/

/-- From one world to the other nothing has been played and no time has passed. -/
structure World.Stays (u v : World) : Prop where
  cwd_eq : v.cwd = u.cwd
  tempDir_eq : v.tempDir = u.tempDir
  count_eq : v.workspaceCount = u.workspaceCount
  script_eq : v.script = u.script
  spawns_eq : v.spawns = u.spawns
  clock_eq : v.clock = u.clock

theorem World.Stays.trans {u v w : World} (h : u.Stays v) (h' : v.Stays w) : u.Stays w :=
  ⟨h'.cwd_eq.trans h.cwd_eq, h'.tempDir_eq.trans h.tempDir_eq, h'.count_eq.trans h.count_eq,
    h'.script_eq.trans h.script_eq, h'.spawns_eq.trans h.spawns_eq, h'.clock_eq.trans h.clock_eq⟩

namespace Plan

variable {q : Plan} {number : Nat} {b : Block} {s : Session} {w₀ w' : World} {count : Nat}
  {dir : Path}

/-- The plan gives a block what came of splitting it. -/
def Gives (q : Plan) (number : Nat) (b : Block) : Prop :=
  ∀ dir, q.split number b.source dir = pure b.splitting

/-- A case that is handed its splitting is verified with the inputs of that, or breaks off. -/
theorem examine_apply (hgives : q.Gives number b) (dir : Path) (s : Session) :
    (b.splitting.isFatal = false ∧ ∃ stderr, q.examine number b.source dir s
      = Session.inWorld (Verification.verify b.case q.compiler q.comparator dir)
        ⟨{ s.world with stderr := stderr }, s.tally.addSources b.splitting.growth,
          s.journal ++ [.workspace dir]⟩)
      ∨ b.splitting.isFatal = true ∧ ∃ e s', q.examine number b.source dir s = .error e s' := by
  have hnote : Session.note (.workspace dir) s = .ok () (s.noted (.workspace dir)) := rfl
  have hsplit : Session.inWorld (q.split number b.source dir) (s.noted (.workspace dir))
      = .ok b.splitting (s.noted (.workspace dir)) := by
    rw [hgives dir]
    rfl
  unfold examine
  rw [Step.bind_ok hnote, Step.bind_ok hsplit]
  obtain ⟨hfatal, hfiles⟩ | ⟨hfatal, e, hfiles⟩ := b.splitting.inputs_cases b.source q.splitter
  · obtain ⟨stderr, hinputs⟩ := hfiles (s.noted (.workspace dir)).world
    refine Or.inl ⟨hfatal, stderr, ?_⟩
    rw [Step.bind_ok (Session.inWorld_of_ok hinputs)]
    rfl
  · exact Or.inr ⟨hfatal, e, _, Step.bind_error (Session.inWorld_of_error (hfiles _))⟩

/-- A step of a session ends as another does that is a part of it. -/
structure Ends (x : Action Session Finding) (s : Session) (r : EStateM.Result Fault Session Finding)
    (Q : Finding → Session → Session → Prop) : Prop where
  ok : ∀ a t, x s = .ok a t → ∃ t', r = .ok a t' ∧ Q a t t'
  error : ∀ e t, x s = .error e t → ∃ e' t', r = .error e' t'

/-- A case is its examination, between the making and the removal of its workspace. -/
theorem tryCase_ends {u : World} (number : Nat) (source : Path)
    (henter : Workspace.enter Workspace.defaultStem s.world = .ok dir u)
    (hnul : dir.holdsNul = false) :
    Ends (q.examine number source dir) { s with world := u } (q.tryCase number source s)
      fun r t t' => t.world.Stays t'.world
        ∧ t'.world.disk = endState (Disk.removeTree t.world.cwd dir t.world.disk)
        ∧ t'.tally = t.tally.add r := by
  have hcase := tryCase_of_enter q number source henter
  constructor
  · intro r t hexamine
    rw [hexamine] at hcase
    obtain ⟨v, stderr, hleft, hcase⟩ := hcase
    obtain ⟨_, _, hleave⟩ := leave_apply hnul t.world
    rw [hleave] at hleft
    cases hleft
    exact ⟨_, hcase, ⟨rfl, rfl, rfl, rfl, rfl, rfl⟩, rfl, rfl⟩
  · intro e t hexamine
    rw [hexamine] at hcase
    obtain ⟨v, -, hcase⟩ := hcase
    exact ⟨e, _, hcase⟩

/-- Before and after a case there is only printing. -/
theorem step_ends (hooks : q.PrintingHooks) (number : Nat) (source : Path) (s : Session) :
    ∃ stdout stderr, Ends (q.tryCase number source)
      ⟨{ s.world with stdout := stdout, stderr := stderr }, s.tally,
        s.journal ++ [.started source]⟩
      (q.step number source s)
      fun _ t t' => t.world.Stays t'.world ∧ t'.world.disk = t.world.disk ∧ t'.tally = t.tally := by
  obtain ⟨_, stdout, stderr, hstart⟩ := hooks.onStart source s.world
  have hnote : Session.note (.started source) s = .ok () (s.noted (.started source)) := rfl
  have hstart' : Session.inWorld (q.onStart source) (s.noted (.started source))
      = .ok () ⟨{ s.world with stdout := stdout, stderr := stderr }, s.tally,
        s.journal ++ [.started source]⟩ :=
    Session.inWorld_of_ok (s := s.noted (.started source)) hstart
  -- the hooks print before the case and after it; both ends of the case are carried over them
  refine ⟨stdout, stderr, ?_, ?_⟩
  · intro r t hcase
    obtain ⟨_, stdout', stderr', hresult⟩ := hooks.onResult r t.world
    refine ⟨⟨{ t.world with stdout := stdout', stderr := stderr' }, t.tally,
      t.journal ++ [.finished r t.tally]⟩, ?_, ⟨rfl, rfl, rfl, rfl, rfl, rfl⟩, rfl, rfl⟩
    have hnote' : Session.note (.finished r t.tally) t
        = .ok () (t.noted (.finished r t.tally)) := rfl
    unfold step
    rw [Step.bind_ok hnote, Step.bind_ok hstart', Step.bind_ok hcase,
      Step.bind_ok (Step.get_apply t), Step.bind_ok hnote',
      Step.bind_ok (Session.inWorld_of_ok (s := t.noted (.finished r t.tally)) hresult)]
    rfl
  · intro e t hcase
    unfold step
    rw [Step.bind_ok hnote, Step.bind_ok hstart']
    exact ⟨e, t, Step.bind_error hcase⟩

/-- The world of a case whose workspace has just been made. -/
structure Entered (w₀ : World) (s : Session) (dir : Path) (count : Nat) (place : Place)
    (u : World) : Prop where
  room : Room w₀ dir place
  tidy : Tidy w₀.disk place .nothing u.disk
  count_eq : u.workspaceCount = count
  cwd_eq : u.cwd = s.world.cwd
  tempDir_eq : u.tempDir = s.world.tempDir
  script_eq : u.script = s.world.script
  spawns_eq : u.spawns = s.world.spawns
  clock_eq : u.clock = s.world.clock

/-- From the end of a verification in a workspace to the end of its case, nothing is done
    but to remove the workspace, to count and to print. -/
structure Closes (b : Block) (s : Session) (dir : Path) (r : Finding) (v : World) (s' : Session) :
    Prop where
  stays : v.Stays s'.world
  disk_eq : s'.world.disk = endState (Disk.removeTree v.cwd dir v.disk)
  sources_eq : s'.tally.sources = s.tally.sources + b.splitting.growth

/-- **What is done for a block** is its verification, in a room of its own. -/
theorem step_apply (hooks : q.PrintingHooks) (hgives : q.Gives number b)
    (hsight : Sight w₀ count s.world) (hw : w₀.Settled)
    (made : Workspace.create Workspace.defaultStem Workspace.nameTries
      { w₀ with workspaceCount := count } = .ok dir w')
    (short : ∀ a : Artifact, (a.path dir).text.utf8ByteSize ≤ Disk.textLimit) :
    (b.splitting.isFatal = true ∧ ∃ e s', q.step number b.source s = .error e s')
      ∨ b.splitting.isFatal = false ∧ ∃ place u, Entered w₀ s dir w'.workspaceCount place u
        ∧ (∀ r v, Verification.verify b.case q.compiler q.comparator dir u = .ok r v →
          ∃ s', q.step number b.source s = .ok r s' ∧ Closes b s dir r v s')
        ∧ ∀ e v, Verification.verify b.case q.compiler q.comparator dir u = .error e v →
          ∃ e' s', q.step number b.source s = .error e' s' := by
  obtain ⟨stdout, stderr, hstep⟩ := step_ends hooks number b.source s
  have hsight' : Sight w₀ count { s.world with stdout := stdout, stderr := stderr } :=
    ⟨hsight.cwd_eq, hsight.tempDir_eq, hsight.count_eq, hsight.disk_eq⟩
  obtain ⟨place, stderr₁, hroom, htidy, henter⟩ := hsight'.enter hw made short
  have hcase := tryCase_ends (q := q) (s := ⟨{ s.world with
    stdout := stdout
    stderr := stderr }, s.tally, s.journal ++ [.started b.source]⟩) number b.source henter
      hroom.site.noNul
  obtain ⟨hfatal, stderr₂, hexamine⟩ | ⟨hfatal, e, s', hexamine⟩ := examine_apply hgives dir
    ⟨{ s.world with
        disk := s.world.disk.put place .dir
        workspaceCount := w'.workspaceCount
        stdout := stdout
        stderr := stderr₁ }, s.tally, s.journal ++ [.started b.source]⟩
  -- an answer that can be used: the verification starts in the world as it stands then
  · refine Or.inr ⟨hfatal, place, { s.world with
        disk := s.world.disk.put place .dir
        workspaceCount := w'.workspaceCount
        stdout := stdout
        stderr := stderr₂ }, ⟨hroom, htidy, rfl, rfl, rfl, rfl, rfl, rfl⟩, ?_, ?_⟩
    · intro r v hverify
      obtain ⟨t, htry, hstays, hdisk, htally⟩ :=
        hcase.ok _ _ (hexamine.trans (Session.inWorld_of_ok hverify))
      obtain ⟨s', hs', hstays', hdisk', htally'⟩ := hstep.ok _ _ htry
      refine ⟨s', hs', ?_, hdisk'.trans hdisk, ?_⟩
      · exact hstays.trans hstays'
      · rw [htally', htally]
        rfl
    · intro e v hverify
      obtain ⟨e', t, htry⟩ := hcase.error _ _ (hexamine.trans (Session.inWorld_of_error hverify))
      exact hstep.error _ _ htry
  · obtain ⟨e', t, htry⟩ := hcase.error _ _ hexamine
    exact Or.inl ⟨hfatal, hstep.error _ _ htry⟩

/-! ## A case among others -/

/-- A room can be made for the next case. -/
theorem next_of_roomy {cases : Nat} (h : Workspace.Roomy w₀ (cases + 1) count) :
    ∃ dir w', Workspace.create Workspace.defaultStem Workspace.nameTries
        { w₀ with workspaceCount := count } = .ok dir w'
      ∧ (∀ a : Artifact, (a.path dir).text.utf8ByteSize ≤ Disk.textLimit)
      ∧ Workspace.Roomy w₀ cases w'.workspaceCount := by
  cases h with
  | another made short rest => exact ⟨_, _, made, short, rest⟩

variable {p : Plan}

/-- A run over one source is the case of that source. -/
theorem step_of_runFrom_single {source : Path} {s' : Session} (hstop : q.stopOnFailure = false)
    (h : q.runFrom number [source] s = .ok () s') : ∃ r, q.step number source s = .ok r s' := by
  rw [runFrom] at h
  obtain ⟨r, s₁, hstep, hrest⟩ := Step.bind_eq_ok_iff.mp h
  rw [hstop, if_neg (by simp), runFrom] at hrest
  cases hrest
  exact ⟨r, hstep⟩

/-- What a complete block comes to by itself: a verification that uses up its processes. -/
theorem verify_alone (hooks : p.PrintingHooks) (hstop : p.stopOnFailure = false)
    (hw : w₀.Settled) (hcomplete : b.Complete p w₀)
    (made : Workspace.create Workspace.defaultStem Workspace.nameTries
      { w₀ with workspaceCount := w₀.workspaceCount } = .ok dir w')
    (short : ∀ a : Artifact, (a.path dir).text.utf8ByteSize ≤ Disk.textLimit) :
    b.splitting.isFatal = false ∧ ∃ place u r v, Entered w₀
        (Session.start { w₀ with script := b.script } (.start 1 false)) dir w'.workspaceCount place
        u
      ∧ Verification.verify b.case p.compiler p.comparator dir u = .ok r v
      ∧ v.spawns.length = w₀.spawns.length + b.script.length
      ∧ b.verdict? p w₀ = some r.verdict := by
  let s₀ := Session.start { w₀ with script := b.script } (.start 1 false)
  have halone : b.alone p w₀ = (p.handing [b.splitting]).runFrom 0 [b.source] s₀ := by
    show (p.handing [b.splitting]).runFrom 0 [b.source]
      (Session.start { w₀ with script := b.script ++ [] } (.start 1 false)) = _
    rw [List.append_nil]
  obtain ⟨s, hend, hspawns⟩ := hcomplete.ends
  have hstop' : (p.handing [b.splitting]).stopOnFailure = false := hstop
  obtain ⟨r, hstep⟩ := step_of_runFrom_single hstop' (halone.symm.trans hend)
  have hfindings : s.findings = [r] := findings_step hstep
  have hooks' : (p.handing [b.splitting]).PrintingHooks := ⟨hooks.onStart, hooks.onResult⟩
  have hgives : (p.handing [b.splitting]).Gives 0 b := fun _ => rfl
  have hsight : Sight w₀ w₀.workspaceCount s₀.world := ⟨rfl, rfl, rfl, fun _ => rfl⟩
  -- the case alone came to a good end, so neither its answer nor its verification was at fault
  obtain ⟨-, e, s', herror⟩ | ⟨hfatal, place, u, hentered, hok, herror⟩ :=
    step_apply hooks' hgives hsight hw made short
  · rw [hstep] at herror
    cases herror
  cases hverify : Verification.verify b.case p.compiler p.comparator dir u with
  | error e v =>
      obtain ⟨e', s', herror⟩ := herror e v hverify
      rw [hstep] at herror
      cases herror
  | ok r' v =>
      obtain ⟨s', hstep', hcloses⟩ := hok r' v hverify
      rw [hstep] at hstep'
      cases hstep'
      refine ⟨hfatal, place, u, r, v, hentered, hverify, ?_, ?_⟩
      · rw [← hcloses.stays.spawns_eq, hspawns]
      · unfold Block.verdict?
        rw [hend, show endState (EStateM.Result.ok () s) = s from rfl, hfindings]
        rfl

/-- A block comes to the same among others as by itself. -/
structure Isolated (p : Plan) (w₀ : World) (b : Block) (s s' : Session) (r : Finding) : Prop where
  source_eq : r.subject.source = b.source
  verdict_eq : b.verdict? p w₀ = some r.verdict
  findings_eq : s'.findings = s.findings ++ [r]
  sources_eq : s'.tally.sources = s.tally.sources + b.splitting.growth

/-- A world that is ready for so many more cases, with their processes and with as long as
    those are waited for. -/
structure Ready (w₀ : World) (cases : Nat) (script : List Process) (waits : List Number)
    (w : World) : Prop where
  sight : Sight w₀ w.workspaceCount w
  room : Workspace.Roomy w₀ cases w.workspaceCount
  script_eq : w.script = script
  steady : Clock.Steady w.clock waits

variable {outcomes : List Splitting} {cases m : Nat} {script : List Process} {waits : List Number}

/-- **What a block comes to by itself it comes to among others.**  It takes its own
    processes and no other, and leaves the disk to the next as it found it. -/
theorem step_isolated (hooks : p.PrintingHooks) (hstop : p.stopOnFailure = false) (hw : w₀.Settled)
    (hfirst : Workspace.Roomy w₀ (m + 1) w₀.workspaceCount) (hcomplete : b.Complete p w₀)
    (hfinds : b.Finds p w₀) (hgives : (p.handing outcomes).Gives number b)
    (hready : Ready w₀ (cases + 1) (b.script ++ script) (b.waits p ++ waits) s.world) :
    ∃ r s', (p.handing outcomes).step number b.source s = .ok r s' ∧ Isolated p w₀ b s s' r
      ∧ Ready w₀ cases script waits s'.world := by
  obtain ⟨dir₀, w₁, made₀, short₀, -⟩ := next_of_roomy hfirst
  obtain ⟨dir, w₂, made, short, hroom⟩ := next_of_roomy hready.room
  obtain ⟨hfatal₀, place₀, u₀, r₀, v₀, hentered₀, hverify₀, hspawns₀, hverdict⟩ :=
    verify_alone hooks hstop hw hcomplete made₀ short₀
  have hooks' : (p.handing outcomes).PrintingHooks := ⟨hooks.onStart, hooks.onResult⟩
  obtain ⟨hfatal, -⟩ | ⟨-, place, u, hentered, hok, -⟩ :=
    step_apply hooks' hgives hready.sight hw made short
  · rw [hfatal] at hfatal₀
    cases hfatal₀
  -- the run of the case alone and the run among the others are twins from their workspaces on
  let T : Twins :=
    { base := w₀, dir := dir₀, place := place₀, room := hentered₀.room, dir' := dir, place' := place
      room' := hentered.room, total := w₀.spawns.length + b.script.length, rest := script
      waits := waits, count := w₂.workspaceCount }
  have halong : T.Alongside (Twins.commandLimits p.compiler p.comparator)
      (Twins.callWords p.compiler b.case.inputs) .nothing u₀ u :=
    { cwd_eq := hentered₀.cwd_eq
      cwd_eq' := hentered.cwd_eq.trans hready.sight.cwd_eq
      tempDir_eq' := hentered.tempDir_eq.trans hready.sight.tempDir_eq
      count_eq' := hentered.count_eq
      tidy := hentered₀.tidy
      tidy' := hentered.tidy
      calm := fun q hq => hcomplete.calm q (by rwa [hentered₀.script_eq] at hq)
      script_eq' := by rw [hentered.script_eq, hready.script_eq, hentered₀.script_eq]; rfl
      found := by rw [hentered₀.script_eq]; exact hfinds
      steady' := by rw [hentered.clock_eq, hentered₀.script_eq]; exact hready.steady
      total_eq := by rw [hentered₀.spawns_eq, hentered₀.script_eq]; rfl }
  -- what the one verification comes to, the other does
  obtain ⟨r, v, hverify, hr, hleft⟩ := halong.mirrors_verify r₀ v₀ hverify₀ hspawns₀
  obtain ⟨s', hstep, hcloses⟩ := hok r v hverify
  obtain ⟨k, hholds⟩ := hleft.holds
  have hcount : s'.world.workspaceCount = w₂.workspaceCount :=
    hcloses.stays.count_eq.trans hleft.count_eq
  -- once the workspace is removed, the world is ready for the next case
  refine ⟨r, s', hstep, ⟨(step_eq_ok hstep).2.2.1, by rw [hr]; exact hverdict,
    findings_step hstep, hcloses.sources_eq⟩, ⟨?_, ?_, rfl, fun place' => ?_⟩, ?_, ?_, ?_⟩
  · exact hcloses.stays.cwd_eq.trans hleft.cwd_eq
  · exact hcloses.stays.tempDir_eq.trans hleft.tempDir_eq
  · rw [hcloses.disk_eq, hleft.cwd_eq]
    exact hentered.room.site.get?_removeTree hholds.confined place'
  · rw [hcount]
    exact hroom
  · exact hcloses.stays.script_eq.trans hleft.script_eq
  · rw [hcloses.stays.clock_eq]
    exact hleft.steady

/-- **Blocks among blocks.**  Each comes to what it comes to by itself. -/
theorem runFrom_isolated (hooks : p.PrintingHooks) (hstop : p.stopOnFailure = false)
    (hw : w₀.Settled) (hfirst : Workspace.Roomy w₀ m w₀.workspaceCount) {blocks : List Block}
    (hm : blocks.length ≤ m)
    (hblocks : ∀ b ∈ blocks, b.Complete p w₀ ∧ b.Finds p w₀)
    (hgives : ∀ i b, blocks[i]? = some b → (p.handing outcomes).Gives (number + i) b)
    (hready : Ready w₀ blocks.length (blocks.flatMap Block.script)
      (blocks.flatMap (·.waits p)) s.world) :
    ∃ s' rs, (p.handing outcomes).runFrom number (blocks.map Block.source) s = .ok () s'
      ∧ s'.findings = s.findings ++ rs
      ∧ rs.map (fun r => (r.subject.source, some r.verdict))
        = blocks.map (fun b => (b.source, b.verdict? p w₀))
      ∧ s'.tally.sources = s.tally.sources + Block.growth blocks := by
  induction blocks generalizing number s with
  | nil => exact ⟨s, [], rfl, (List.append_nil _).symm, rfl, (Int.add_zero _).symm⟩
  | cons b blocks ih =>
      obtain ⟨m, rfl⟩ := Nat.exists_eq_add_of_lt hm
      obtain ⟨hcomplete, hfinds⟩ := hblocks b List.mem_cons_self
      have hgives₀ : (p.handing outcomes).Gives number b := hgives 0 b rfl
      -- the later cases have the later numbers
      have hgives₁ : ∀ i b, blocks[i]? = some b →
          (p.handing outcomes).Gives (number + 1 + i) b := by
        intro i b hb
        rw [Nat.add_assoc, Nat.add_comm 1 i]
        exact hgives (i + 1) b hb
      obtain ⟨r, s₁, hstep, hisolated, hready₁⟩ :=
        step_isolated hooks hstop hw hfirst hcomplete hfinds hgives₀ hready
      obtain ⟨s', rs, hrun, hfindings, hverdicts, hsources⟩ := ih (Nat.le_of_succ_le hm)
        (fun b hb => hblocks b (List.mem_cons_of_mem _ hb)) hgives₁ hready₁
      refine ⟨s', r :: rs, ?_, ?_, ?_, ?_⟩
      · show (p.handing outcomes).runFrom number (b.source :: blocks.map Block.source) s = _
        have hgo : ((p.handing outcomes).stopOnFailure && r.failed) ≠ true := by
          rw [show (p.handing outcomes).stopOnFailure = false from hstop]
          exact Bool.false_ne_true
        rwa [runFrom_of_step hstep hgo]
      · rw [hfindings, hisolated.findings_eq, List.append_assoc]
        rfl
      · rw [List.map_cons, List.map_cons, hverdicts, hisolated.source_eq, hisolated.verdict_eq]
      · rw [hsources, hisolated.sources_eq, Int.add_assoc]
        rfl

/-- Blocks among each other come to what they come to by themselves, and so does the count
    of sources. -/
theorem runBlocks_isolated {blocks : List Block} (t : Tally) (hooks : p.PrintingHooks)
    (hstop : p.stopOnFailure = false) (hw : w₀.Settled)
    (hroom : Workspace.Roomy w₀ blocks.length w₀.workspaceCount)
    (hblocks : ∀ b ∈ blocks, b.Complete p w₀ ∧ b.Finds p w₀)
    (hclock : Clock.Steady w₀.clock (blocks.flatMap (·.waits p))) :
    ∃ s rs, p.runBlocks blocks w₀ t = .ok () s ∧ s.findings = rs ∧ t.Counted rs s.tally
      ∧ s.verdicts = blocks.map (fun b => (b.source, b.verdict? p w₀))
      ∧ s.tally.sources = t.sources + Block.growth blocks := by
  have hgives : ∀ i b, blocks[i]? = some b →
      (p.handing (blocks.map Block.splitting)).Gives (0 + i) b := by
    intro i b hb dir
    show (pure ((blocks.map Block.splitting).getD (0 + i) .unknown) : Action World Splitting) = _
    rw [Nat.zero_add, List.getD_eq_getElem?_getD, List.getElem?_map, hb]
    rfl
  -- at the start nothing has happened, so the first case finds what it asks for
  have hready : Ready w₀ blocks.length (blocks.flatMap Block.script)
      (blocks.flatMap (·.waits p))
      (Session.start { w₀ with script := blocks.flatMap Block.script } t).world :=
    ⟨⟨rfl, rfl, rfl, fun _ => rfl⟩, hroom, rfl, hclock⟩
  obtain ⟨s, rs, hrun, hfindings, hverdicts, hsources⟩ :=
    runFrom_isolated hooks hstop hw hroom le_rfl hblocks hgives hready
  have hfindings' : s.findings = rs := hfindings
  obtain ⟨rs', hrs', hcounted, -⟩ := runFrom_eq_ok hrun
  have hrs'' : s.findings = rs' := hrs'
  refine ⟨s, rs, hrun, hfindings', ?_, ?_, hsources⟩
  · rw [← hfindings', hrs'']
    exact hcounted
  · unfold Session.verdicts
    rw [hfindings']
    exact hverdicts

/-- How many of the findings have verdicts of a kind, counted by what they say of the
    sources. -/
theorem countP_verdicts (f : Verdict → Bool) (s : Session) :
    s.findings.countP (fun r => f r.verdict)
      = s.verdicts.countP (fun v => v.2.elim false f) := by
  unfold Session.verdicts
  rw [List.countP_map]
  rfl

/-- **Cases are kept apart.**  Take blocks that come to an end by themselves with exactly
    their own processes, all of which start and leave the disk alone, and let each process
    of the compiler that looks for files find the same in every workspace.  Then in whatever
    order the blocks are gone through, without a stop at a failure, each source gets the
    verdict that it gets by itself, and the counts at the end are the same. -/
theorem verdicts_in_any_order {blocks blocks' : List Block} (t : Tally) (hooks : p.PrintingHooks)
    (hstop : p.stopOnFailure = false) (hw : w₀.Settled)
    (hroom : Workspace.Roomy w₀ blocks.length w₀.workspaceCount)
    (hcomplete : ∀ b ∈ blocks, b.Complete p w₀) (hfinds : ∀ b ∈ blocks, b.Finds p w₀)
    (hperm : blocks.Perm blocks')
    (hclock : Clock.Steady w₀.clock (blocks.flatMap (·.waits p)))
    (hclock' : Clock.Steady w₀.clock (blocks'.flatMap (·.waits p))) :
    ∃ s s', p.runBlocks blocks w₀ t = .ok () s ∧ p.runBlocks blocks' w₀ t = .ok () s'
      ∧ s.verdicts = blocks.map (fun b => (b.source, b.verdict? p w₀))
      ∧ s'.verdicts = blocks'.map (fun b => (b.source, b.verdict? p w₀))
      ∧ s'.tally.tested = s.tally.tested ∧ s'.tally.failed = s.tally.failed
      ∧ s'.tally.uncompilable = s.tally.uncompilable ∧ s'.tally.passed = s.tally.passed
      ∧ s'.tally.sources = s.tally.sources := by
  obtain ⟨s, _, hrun, rfl, hcounted, hverdicts, hsources⟩ :=
    runBlocks_isolated t hooks hstop hw hroom (fun b hb => ⟨hcomplete b hb, hfinds b hb⟩) hclock
  obtain ⟨s', _, hrun', rfl, hcounted', hverdicts', hsources'⟩ :=
    runBlocks_isolated t hooks hstop hw (hperm.length_eq ▸ hroom)
      (fun b hb => ⟨hcomplete b (hperm.mem_iff.mpr hb), hfinds b (hperm.mem_iff.mpr hb)⟩) hclock'
  have hverdicts_perm : s'.verdicts.Perm s.verdicts := by
    rw [hverdicts, hverdicts']
    exact (hperm.map _).symm
  -- every number of the tally counts verdicts, and those are the same but for their order
  have hcount : ∀ f : Verdict → Bool, s'.findings.countP (fun r => f r.verdict)
      = s.findings.countP (fun r => f r.verdict) := by
    intro f
    rw [countP_verdicts, countP_verdicts, hverdicts_perm.countP_eq]
  have htested : s'.tally.tested = s.tally.tested := by
    rw [hcounted.tested, hcounted'.tested]
    exact congrArg (fun n : Nat => t.tested + n) (hcount Verdict.isTested)
  have hfailed : s'.tally.failed = s.tally.failed := by
    rw [hcounted.failed, hcounted'.failed]
    exact congrArg (fun n : Nat => t.failed + n) (hcount Verdict.isFailure)
  refine ⟨s, s', hrun, hrun', hverdicts, hverdicts', htested, hfailed, ?_, ?_, ?_⟩
  · rw [hcounted.uncompilable, hcounted'.uncompilable]
    exact congrArg (fun n : Nat => t.uncompilable + n) (hcount fun v => !v.isTested)
  · unfold Tally.passed
    rw [htested, hfailed]
  · rw [hsources, hsources', Block.growth_perm hperm]

namespace Trial

def root : Path := ⟨.root, []⟩

/-- A plan that shows nothing. -/
def plan : Plan where
  split := fun _ _ _ => pure .unknown
  splitter := none
  compiler := ⟨root / "solc", 4, none, false⟩
  comparator := ⟨"diff --unified", none⟩
  stopOnFailure := false
  onStart := fun _ => pure ()
  onResult := fun _ => pure ()

def disk : Disk where
  entries :=
    [(["tmp"], .dir), (["a.sol"], .file (Text.encode "contract A {}\n")),
      (["b.sol"], .file (Text.encode "x"))]

def world : World := { World.fresh disk root [] with tempDir := root / "tmp" }

/-- A source that comes back as it was: the import prints the document that it is given. -/
def passing : Block where
  source := root / "a.sol"
  splitting := .single (root / "a.sol")
  script :=
    [.idle, { Process.idle with stdout := Text.encode "{}\n" },
      { Process.idle with fileUse := some .print }, { Process.idle with fileUse := some .compare }]

/-- A source that does not compile. -/
def failing : Block where
  source := root / "b.sol"
  splitting := .single (root / "b.sol")
  script := [{ Process.idle with exitCode := 1 }]

/-- A source that is named by a detour through the first workspace, and probed by reading
    it. -/
def detour : Block where
  source := root / "a.sol"
  splitting := .into [root / "tmp" / "ast-import-0" / ".." / ".." / "a.sol"]
  script := [{ Process.idle with fileUse := some .print }, { Process.idle with exitCode := 1 }]

theorem hooks : plan.PrintingHooks := ⟨fun _ => prints_pure (), fun _ => prints_pure ()⟩

theorem settled : world.Settled where
  closed := Disk.Closed.of_places (by decide)
  cwd := by decide
  isAbsolute := by decide
  tempDir := by decide +kernel

theorem exists_of_check {r : EStateM.Result Fault Session Unit} {P : Session → Prop}
    [DecidablePred P] (h : Step.checks r (fun _ => P) = true) : ∃ s, r = .ok () s ∧ P s := by
  obtain ⟨_, s, hs⟩ := Step.exists_of_checks h
  exact ⟨s, hs⟩

/-- The passing case by itself takes four processes. -/
theorem alone_passing : ∃ s, passing.alone plan world = .ok () s
    ∧ s.world.spawns.length = 4 ∧ s.findings.map Finding.verdict = [.passed] :=
  exists_of_check (by decide +kernel)

/-- The failing one takes its probe only. -/
theorem alone_failing : ∃ s, failing.alone plan world = .ok () s
    ∧ s.world.spawns.length = 1 ∧ s.findings.map Finding.verdict = [.uncompilable] :=
  exists_of_check (by decide +kernel)

theorem alone_detour : ∃ s, detour.alone plan world = .ok () s ∧ s.world.spawns.length = 2 :=
  exists_of_check (by decide +kernel)

/-- The script of the passing case is complete: it is played to the end, and calmly. -/
theorem complete_passing : passing.Complete plan world where
  calm := by decide
  ends := alone_passing.imp fun _ h => ⟨h.1, h.2.1⟩

theorem complete_failing : failing.Complete plan world where
  calm := by decide
  ends := alone_failing.imp fun _ h => ⟨h.1, h.2.1⟩

theorem complete_detour : detour.Complete plan world where
  calm := by decide
  ends := alone_detour

/-- A case that was run alone has the verdict of its one result. -/
theorem verdict?_of_alone {b : Block} {v : Verdict} {s : Session}
    (h : b.alone plan world = .ok () s) (hs : s.findings.map Finding.verdict = [v]) :
    b.verdict? plan world = some v := by
  unfold Block.verdict?
  rw [h, ← List.head?_map, show endState (EStateM.Result.ok () s) = s from rfl, hs]
  rfl

theorem finds_passing : passing.Finds plan world := by
  intro call hcall word hword
  simp only [passing, Twins.callWords, List.zip_cons_cons, List.zip_nil_right, List.mem_cons,
    List.not_mem_nil, or_false] at hcall
  obtain rfl | rfl | rfl := hcall
  · simp [Process.lookups, Process.looksAt, Process.idle] at hword
  · simp [Process.lookups, Process.looksAt, Process.idle] at hword
  · obtain rfl : word = Artifact.expected.name := by
      simpa [Process.lookups, Process.looksAt] using hword
    exact foundAlike_artifact world .expected

theorem finds_failing : failing.Finds plan world := by
  intro call hcall word hword
  simp only [failing, Twins.callWords, List.zip_cons_cons, List.zip_nil_left, List.mem_cons,
    List.not_mem_nil, or_false] at hcall
  obtain rfl := hcall
  simp [Process.lookups, Process.looksAt, Process.idle] at hword

/-- Where the next name is free, there is room for one case more. -/
theorem roomy_next {cases count next : Nat} (hrest : Workspace.Roomy world cases next)
    (h : (match Workspace.create Workspace.defaultStem Workspace.nameTries
        { world with workspaceCount := count } with
      | .ok dir w => decide (w.workspaceCount = next
        ∧ ∀ a ∈ Artifact.all, (a.path dir).text.utf8ByteSize ≤ Disk.textLimit)
      | .error _ _ => false) = true) : Workspace.Roomy world (cases + 1) count := by
  cases hmade : Workspace.create Workspace.defaultStem Workspace.nameTries
      { world with workspaceCount := count } with
  | error e w =>
      rw [hmade] at h
      cases h
  | ok dir w =>
      rw [hmade] at h
      obtain ⟨rfl, hshort⟩ := of_decide_eq_true h
      exact .another hmade (fun a => hshort a a.mem_all) hrest

/-- The small world has room for two cases. -/
theorem roomy : Workspace.Roomy world 2 0 := by
  have hone : Workspace.Roomy world 1 1 := roomy_next (.none 2) (by decide +kernel)
  exact roomy_next hone (by decide +kernel)

end Trial

/-- A block that passes and one that does not compile, in both orders. -/
theorem two_orders :
    ∃ s s', Trial.plan.runBlocks [Trial.passing, Trial.failing] Trial.world (.start 2 false)
        = .ok () s
      ∧ Trial.plan.runBlocks [Trial.failing, Trial.passing] Trial.world (.start 2 false)
        = .ok () s'
      ∧ s.verdicts
        = [(Trial.passing.source, some .passed), (Trial.failing.source, some .uncompilable)]
      ∧ s'.verdicts
        = [(Trial.failing.source, some .uncompilable), (Trial.passing.source, some .passed)] := by
  -- the cases by themselves are complete; the rest is said by the theorem
  have hcomplete : ∀ b ∈ [Trial.passing, Trial.failing], b.Complete Trial.plan Trial.world := by
    simpa using ⟨Trial.complete_passing, Trial.complete_failing⟩
  have hfinds : ∀ b ∈ [Trial.passing, Trial.failing], b.Finds Trial.plan Trial.world := by
    simpa using ⟨Trial.finds_passing, Trial.finds_failing⟩
  have hroom : Workspace.Roomy Trial.world [Trial.passing, Trial.failing].length
      Trial.world.workspaceCount := Trial.roomy
  obtain ⟨s, s', hrun, hrun', hverdicts, hverdicts', -⟩ :=
    verdicts_in_any_order (.start 2 false) Trial.hooks rfl Trial.settled hroom hcomplete hfinds
      (List.Perm.swap Trial.failing Trial.passing [])
      (Clock.steady_of_instant (by decide)) (Clock.steady_of_instant (by decide))
  obtain ⟨_, hpassing, -, hpassed⟩ := Trial.alone_passing
  obtain ⟨_, hfailing, -, hfailed⟩ := Trial.alone_failing
  have hpassed' := Trial.verdict?_of_alone hpassing hpassed
  have hfailed' := Trial.verdict?_of_alone hfailing hfailed
  refine ⟨s, s', hrun, hrun', ?_, ?_⟩
  · rw [hverdicts, List.map_cons, List.map_cons, hpassed', hfailed']
    rfl
  · rw [hverdicts', List.map_cons, List.map_cons, hpassed', hfailed']
    rfl

/-- A name that leads through a workspace leads elsewhere from the next: the source compiles
    as the first case and does not as the second, although nothing else is missing that is
    asked of blocks. -/
theorem detour_depends_on_order :
    (∀ b ∈ [Trial.detour, Trial.failing], b.Complete Trial.plan Trial.world)
      ∧ Trial.world.Settled ∧ Workspace.Roomy Trial.world 2 Trial.world.workspaceCount
      ∧ Clock.Steady Trial.world.clock ([Trial.detour, Trial.failing].flatMap (·.waits Trial.plan))
      ∧ Clock.Steady Trial.world.clock ([Trial.failing, Trial.detour].flatMap (·.waits Trial.plan))
      ∧ ∃ s s', Trial.plan.runBlocks [Trial.detour, Trial.failing] Trial.world (.start 2 false)
          = .ok () s
        ∧ Trial.plan.runBlocks [Trial.failing, Trial.detour] Trial.world (.start 2 false)
          = .ok () s'
        ∧ s.verdicts
          = [(Trial.detour.source, some .exportFailed), (Trial.failing.source, some .uncompilable)]
        ∧ s'.verdicts
          = [(Trial.failing.source, some .uncompilable), (Trial.detour.source, some .uncompilable)]
        ∧ s'.tally.tested ≠ s.tally.tested := by
  obtain ⟨s, hrun, hverdicts, htested⟩ := Trial.exists_of_check
    (r := Trial.plan.runBlocks [Trial.detour, Trial.failing] Trial.world (.start 2 false))
    (P := fun s => s.verdicts = [(Trial.detour.source, some .exportFailed),
      (Trial.failing.source, some .uncompilable)] ∧ s.tally.tested = 1) (by decide +kernel)
  obtain ⟨s', hrun', hverdicts', htested'⟩ := Trial.exists_of_check
    (r := Trial.plan.runBlocks [Trial.failing, Trial.detour] Trial.world (.start 2 false))
    (P := fun s => s.verdicts = [(Trial.failing.source, some .uncompilable),
      (Trial.detour.source, some .uncompilable)] ∧ s.tally.tested = 0) (by decide +kernel)
  refine ⟨by simpa using ⟨Trial.complete_detour, Trial.complete_failing⟩, Trial.settled,
    Trial.roomy, Clock.steady_of_instant (by decide), Clock.steady_of_instant (by decide),
    s, s', hrun, hrun', hverdicts, hverdicts', ?_⟩
  rw [htested, htested']
  decide

end Plan

end RoundTrip
