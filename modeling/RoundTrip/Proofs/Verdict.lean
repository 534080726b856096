import RoundTrip.Proofs.Verification

/-! # Which processes are started, and the verdict

    Two readings of `follows_verify`.  **`verify_takes_its_course`** says which
    processes a verification starts, when it goes on to the next one, and that the
    last reply alone settles how it ends.  **`passed_iff_unchanged`** is about the
    documents: what the comparison reads is what export and reimport printed, so
    the verdict tells whether the two are the same.

    Both ask that the directory's path leads to it whatever it contains.  It is
    not enough that the directory is there: `dir/..` stops leading anywhere once
    a process has put a file in the place of `dir`. -/

namespace RoundTrip

/-- What a process in a script plays, given the contents of the files that its
    words name. -/
def Process.Plays (entry p : Process) : Prop :=
  ∃ contents, entry.withContents? contents = some p

namespace Verification

open Step (outcome endState)

/-- An absolute path leads to a directory that has neither links nor artifacts in
    it.  That much would not do: what is in the directory may change, and the path
    with it. -/
structure Present (d : Disk) (cwd dir : Path) (place : Place) : Prop where
  isAbsolute : dir.isAbsolute = true
  leads : d.find cwd .target dir = .ok place
  isDir : d.get? place = some .dir
  linkFree : d.LinkFree place
  empty : ∀ a : Artifact, d.get? (place ++ [a.name]) = none

/-! ## A small world -/

namespace Trial

/-- A disk with a directory for a case, in which something stands already. -/
def disk : Disk := ⟨[(["w"], .dir), (["w", "sub"], .dir)]⟩

def root : Path := ⟨.root, []⟩

def dir : Path := root / "w"

/-- The same directory, by a path that goes through what stands in it. -/
def detour : Path := dir / "sub" / ".."

def world (script : List Process) : World := .fresh disk root script

def subject : Case := ⟨root / "a.sol", [root / "a.sol"]⟩

def compiler : Compiler := ⟨root / "solc", 4, some (.int 5), false⟩

def diff : Comparator := ⟨"diff --unified", none⟩

theorem split_diff : Text.ShellWords.split diff.words = .ok ["diff", "--unified"] := rfl

/-- A process that puts a file in the place of what stands in the directory. -/
def replacing : Process :=
  { Process.idle with effects := [.remove ⟨.here, ["sub"]⟩, .write ⟨.here, ["sub"]⟩ []] }

/-- A process that prints a document. -/
def printing (document : String) : Process :=
  { Process.idle with stdout := Text.encode document }

/-- A process that tells its two files apart. -/
def comparing : Process := { Process.idle with fileUse := some .compare }

/-- The directory by its own path is vacant, as the theorems ask. -/
theorem vacant (script : List Process) :
    Vacant (world script).disk (world script).cwd dir ["w"] :=
  have hvacant : Vacant disk root dir (dir.absoluteNames root) :=
    .of_plain (by decide) ⟨by decide, by decide⟩ (by intro a; cases a <;> decide)
      (Disk.linkFree_of_linkCount rfl _) (by intro a; cases a <;> decide)
  hvacant

/-- The detour leads to the directory, as long as what it goes through is one. -/
theorem present_detour (script : List Process) :
    Present (world script).disk (world script).cwd detour ["w"] :=
  ⟨by decide, rfl, rfl, Disk.linkFree_of_linkCount rfl _, fun a => by cases a <;> rfl⟩

/-- The processes change nothing but what stands in the directory. -/
theorem staysIn {script : List Process}
    (hscript : ∀ p ∈ script, p.effects = [] ∨ p.effects = replacing.effects) :
    ∀ p ∈ (world script).script, ∀ e ∈ p.effects,
      e.StaysIn (world script).disk ((world script).cwd / dir) ["w"] := by
  have hplain : disk.Plain ["w"] := ⟨by decide, by decide⟩
  have hart : ∀ a : Artifact, "sub" ≠ a.name := by intro a; cases a <;> decide
  intro p hp e he
  obtain hnone | hreplacing := hscript p hp
  · rw [hnone] at he
    exact nomatch he
  · rw [hreplacing] at he
    obtain rfl | rfl : e = _ ∨ e = _ := by simpa [replacing] using he
    · exact .of_plain "sub" [] hplain rfl rfl (by decide) hart
    · exact .of_plain "sub" [] hplain rfl rfl (by decide) hart

end Trial

/-! ## The processes -/

variable {w : World} {dir : Path} {place : Place} {t : Comparator} {words : List String}

/-- The words of the four stages. -/
theorem argv_stages (c : Case) (compiler : Compiler) (t : Comparator) (words : List String)
    (dir : Path) :
    ((stages c compiler t words dir).map Stage.command).map Command.argv =
      [compiler.path.text :: "--bin" :: c.inputs.map Path.text,
        compiler.path.text :: (compiler.formatArgs ++ c.inputs.map Path.text),
        compiler.path.text :: "--import-ast" :: (compiler.formatArgs ++ ["expected.json"]),
        words ++ [(dir / "expected.json").text, (dir / "obtained.json").text]] := rfl

/-- What was started has the words of its calls. -/
theorem argv_started {started : List Spawn} {calls : List Call}
    (h : started.map Spawn.seen = calls.map Call.seen) :
    started.map Spawn.argv = (calls.map Call.command).map Command.argv := by
  have hfst := congrArg (List.map Prod.fst) h
  rw [List.map_map, List.map_map] at hfst
  rwa [List.map_map]

/-- **A verification takes its course.**  It starts the first processes of probe,
    export, reimport and comparison, all in the directory of the case; another one
    is started exactly if the one before was not killed and exited with 0; the
    reply to the last one settles how the verification ends; and no artifact is
    left. -/
theorem verify_takes_its_course (c : Case) (compiler : Compiler)
    (hv : Vacant w.disk w.cwd dir place)
    (hes : ∀ p ∈ w.script, ∀ e ∈ p.effects, e.StaysIn w.disk (w.cwd / dir) place)
    (hw : Text.ShellWords.split t.words = .ok words) :
    ∃ (started : List Spawn) (earlier : List Call) (last : Call),
      (endState (verify c compiler t dir w)).spawns = w.spawns ++ started
        ∧ course place (stages c compiler t words dir) .nothing w = earlier ++ [last]
        ∧ started.map Spawn.seen = (earlier ++ [last]).map Call.seen
        ∧ started.map Spawn.argv <+:
          [compiler.path.text :: "--bin" :: c.inputs.map Path.text,
            compiler.path.text :: (compiler.formatArgs ++ c.inputs.map Path.text),
            compiler.path.text :: "--import-ast" :: (compiler.formatArgs ++ ["expected.json"]),
            words ++ [(dir / "expected.json").text, (dir / "obtained.json").text]]
        ∧ (∀ s ∈ started, s.cwd = dir)
        ∧ (∀ m call, (earlier ++ [last])[m]? = some call →
          (∀ i, call.reply = .ok i → ∃ p ms,
            ((w.script.drop m).headD .idle).Plays p ∧ i = call.command.report p ms)
          ∧ (m < 3 → (m + 1 < started.length ↔ call.Succeeded)))
        ∧ outcome (verify c compiler t dir w) = settle c t earlier.length last.reply
        ∧ ∀ a : Artifact,
          (endState (verify c compiler t dir w)).disk.get? (place ++ [a.name]) = none := by
  have hin : InCase w.disk w.cwd dir place .nothing w := ⟨rfl, hes, hv.holds⟩
  obtain ⟨⟨started, hspawns, hseen⟩, ⟨earlier, last, hcalls, hsettled⟩, -⟩ :=
    follows_verify c compiler hv hin hw
  -- the calls are a beginning of the stages, and the starts are seen as the calls, one for one
  have hprefix := course_prefix place (stages c compiler t words dir) .nothing w
  have hlength := congrArg List.length hseen
  rw [hcalls] at hseen hprefix
  rw [Nat.zero_add] at hsettled
  refine ⟨started, earlier, last, hspawns, hcalls, hseen, ?_, ?_, ?_, hsettled, ?_⟩
  · rw [← argv_stages, argv_started hseen]
    exact hprefix.map _
  · intro s hs
    obtain ⟨call, hcall, heq⟩ := List.mem_map.mp (hseen ▸ List.mem_map_of_mem hs)
    have hmem := hprefix.subset (List.mem_map_of_mem hcall)
    obtain ⟨stage, hstage, hcommand⟩ := List.mem_map.mp hmem
    have hcwd : call.command.cwd = s.cwd := congrArg (fun x => x.2.1) heq
    rw [← hcwd, ← hcommand, cwd_stages stage hstage]
  · intro m call hm
    rw [← hcalls] at hm
    refine ⟨fun i hi => ?_, fun hlt => ?_⟩
    · obtain ⟨contents, p, ms, hp, hreport⟩ := course_reply place _ _ w hm hi
      exact ⟨p, ms, ⟨contents, hp⟩, hreport⟩
    · rw [List.length_map, List.length_map] at hlength
      rw [hlength]
      exact course_goes_on place hm (by show m + 1 < 4; omega)
  · intro a
    rw [(keeps_inCase_verify hv hw w hin).holds.kept a]
    rfl

/-- A reimport that is killed too late and exits with 0 is still out of time. -/
theorem killed_with_zero_is_timedOut :
    (outcome (verify Trial.subject Trial.compiler Trial.diff Trial.dir
      (Trial.world [.idle, Trial.replacing,
        { Process.idle with seconds := .int 9, kill := .gone }]))).map Finding.verdict
      = .ok .timedOut := by
  obtain ⟨-, earlier, last, -, hcalls, -, -, -, -, hsettled, -⟩ :=
    verify_takes_its_course Trial.subject Trial.compiler (Trial.vacant [.idle, Trial.replacing,
        { Process.idle with seconds := .int 9, kill := .gone }])
      (Trial.staysIn (by decide)) Trial.split_diff
  have hcourse : (earlier ++ [last]).length = 3
      ∧ (earlier ++ [last]).getLast?.map (fun call =>
          (settle Trial.subject Trial.diff 2 call.reply).map Finding.verdict)
        = some (.ok .timedOut) := by
    rw [← hcalls]
    exact ⟨rfl, rfl⟩
  rw [List.getLast?_concat] at hcourse
  have hlength : earlier.length = 2 := by simpa using hcourse.1
  rw [hsettled, hlength]
  exact Option.some.inj hcourse.2

/-- Where the path goes through an entry that is replaced, no reimport is started
    although the export exits with 0. -/
theorem detour_stops_after_export :
    let script :=
      [Trial.replacing, Trial.printing "{}\n", Trial.printing "{}\n", Trial.comparing]
    Present (Trial.world script).disk (Trial.world script).cwd Trial.detour ["w"]
      ∧ (∀ p ∈ script, p.startError = none ∧ p.exitCode = 0 ∧ p.seconds = .int 0
        ∧ ∀ e ∈ p.effects, e.makesLink = false
          ∧ e.path.normalNames (Trial.root / Trial.detour) = ["w", "sub"])
      ∧ (endState (verify Trial.subject Trial.compiler Trial.diff Trial.detour
          (Trial.world script))).spawns.length = 2 :=
  ⟨Trial.present_detour _, by decide, rfl⟩

/-! ## The documents -/

/-- The tool of a comparison says in time whether the two documents that have been
    kept are the same. -/
def Call.TellsApart (call : Call) : Prop :=
  ∃ i, call.reply = .ok i ∧ i.timedOut = false
    ∧ i.exitCode = if call.kept .expected = call.kept .obtained then 0 else 1

instance : DecidablePred Call.TellsApart := fun call =>
  match h : call.reply with
  | .ok i => decidable_of_iff (i.timedOut = false
      ∧ i.exitCode = if call.kept .expected = call.kept .obtained then 0 else 1) <| by
        simp [Call.TellsApart, h]
  | .error _ => isFalse <| by simp [Call.TellsApart, h]

/-- The last of the starts belongs to the last of the calls. -/
theorem seen_concat {started : List Spawn} {earlier : List Call} {last : Call}
    (h : started.map Spawn.seen = (earlier ++ [last]).map Call.seen) :
    ∃ before s, started = before ++ [s] ∧ before.length = earlier.length
      ∧ s.seen = last.seen := by
  rw [List.map_append] at h
  obtain ⟨before, final, rfl, hbefore, hfinal⟩ := List.map_eq_append_iff.mp h
  obtain ⟨s, rfl, hs⟩ := List.map_eq_singleton_iff.mp hfinal
  exact ⟨before, s, rfl, by simpa using congrArg List.length hbefore, hs⟩

/-- The call after some good ones is good, too, if so many are. -/
theorem succeeded_head (calls : List Call) {rest : List Call} (n : Nat)
    (h : ∀ call ∈ calls ++ rest.take (n + 1), call.Succeeded) :
    ∀ call, rest.head? = some call → call.Succeeded := by
  intro call hcall
  obtain ⟨rest, rfl⟩ := List.head?_eq_some_iff.mp hcall
  exact h call (by simp)

/-- What is kept after the reimport. -/
def documents (exported reimported : Invocation) : Kept :=
  ((Kept.nothing.set .expected (some exported.stdout)).set .obtained
    (some reimported.stdout)).set .messages (some reimported.stderr)

/-- Without a bad end there are four calls, and the last one meets the outputs of
    export and reimport. -/
theorem course_of_good {c : Case} {compiler : Compiler}
    (hgood : ∀ call ∈ (course place (stages c compiler t words dir) .nothing w).take 3,
      call.Succeeded) :
    ∃ probe exported reimported reply,
      course place (stages c compiler t words dir) .nothing w =
        [⟨compiler.probe c.inputs dir, .nothing, .ok probe⟩,
          ⟨compiler.exportDocument c.inputs dir, .nothing, .ok exported⟩,
          ⟨compiler.importDocument (Path.ofString Artifact.expected.name) dir,
            Kept.nothing.set .expected (some exported.stdout), .ok reimported⟩,
          ⟨comparison t words dir, documents exported reimported, reply⟩] := by
  -- call by call: each one that succeeded is followed by the next stage
  obtain ⟨probe, w₁, h₁⟩ := course_cons place (succeeded_head [] 2 hgood)
  rw [stages, h₁] at hgood
  obtain ⟨exported, w₂, h₂⟩ := course_cons place (succeeded_head [_] 1 hgood)
  rw [h₂] at hgood
  obtain ⟨reimported, w₃, h₃⟩ :=
    course_cons place (succeeded_head [_, _] 0 hgood)
  obtain ⟨reply, h₄⟩ := course_singleton place ⟨comparison t words dir, []⟩ _ _
  exact ⟨probe, exported, reimported, reply, by rw [stages, h₁, h₂, h₃, h₄]; rfl⟩

/-- A tool that tells the documents apart settles the verdict that says so. -/
theorem settle_tellsApart {c : Case} {call : Call} {a b : Bytes} (h : call.TellsApart)
    (ha : call.kept .expected = some a) (hb : call.kept .obtained = some b) :
    ∃ r, settle c t 3 call.reply = .ok r ∧ (r.verdict = .passed ↔ a = b)
      ∧ (r.verdict = .mismatched ↔ a ≠ b) := by
  obtain ⟨i, hi, ht, he⟩ := h
  rw [ha, hb] at he
  rw [hi]
  -- the exit code of the tool says which of the two it is
  by_cases hab : a = b
  · rw [if_pos (congrArg some hab)] at he
    exact ⟨⟨c, .passed, "", ""⟩, by simp [settle, ht, he], by simp [hab], by simp [hab]⟩
  · rw [if_neg (fun h => hab (Option.some.inj h))] at he
    refine ⟨⟨c, .mismatched, "AST reimport produced different JSON", Text.decode i.stdout⟩,
      ?_, ?_, ?_⟩
    · simp [settle, ht, he]
    · simp [hab]
    · simp [hab]

/-- **The verdict tells whether the document changed.**  Where probe, export and
    reimport come to a good end, the comparison finds the output of the export and
    both outputs of the reimport, byte for byte, under the names of the artifacts;
    so with a tool that tells files apart the case passes if the two documents are
    the same, and is a mismatch if they are not. -/
theorem passed_iff_unchanged (c : Case) (compiler : Compiler)
    (hv : Vacant w.disk w.cwd dir place)
    (hes : ∀ p ∈ w.script, ∀ e ∈ p.effects, e.StaysIn w.disk (w.cwd / dir) place)
    (hw : Text.ShellWords.split t.words = .ok words)
    (hgood : ∀ call ∈ (course place (stages c compiler t words dir) .nothing w).take 3,
      call.Succeeded) :
    ∃ (exporting reimporting : Process) (before : List Spawn) (comparing : Spawn) (last : Call),
      ((w.script.drop 1).headD .idle).Plays exporting
        ∧ ((w.script.drop 2).headD .idle).Plays reimporting
        ∧ (endState (verify c compiler t dir w)).spawns = w.spawns ++ before ++ [comparing]
        ∧ before.length = 3
        ∧ comparing.argv = words ++ [(dir / "expected.json").text, (dir / "obtained.json").text]
        ∧ comparing.cwd = dir
        ∧ comparing.artifacts =
          [(.expected, .file exporting.stdout), (.obtained, .file reimporting.stdout),
            (.messages, .file reimporting.stderr)]
        ∧ (course place (stages c compiler t words dir) .nothing w)[3]? = some last
        ∧ (last.TellsApart → ∃ r, outcome (verify c compiler t dir w) = .ok r
          ∧ (r.verdict = .passed ↔ exporting.stdout = reimporting.stdout)
          ∧ (r.verdict = .mismatched ↔ exporting.stdout ≠ reimporting.stdout)) := by
  have hin : InCase w.disk w.cwd dir place .nothing w := ⟨rfl, hes, hv.holds⟩
  obtain ⟨⟨started, hspawns, hseen⟩, ⟨earlier, last, hends, hsettled⟩, -⟩ :=
    follows_verify c compiler hv hin hw
  obtain ⟨probe, exported, reimported, reply, hcalls⟩ := course_of_good hgood
  obtain ⟨_, exporting, _, hexporting, hexported⟩ :=
    course_reply place _ _ w (m := 1) (by rw [hcalls]; rfl) rfl
  obtain ⟨_, reimporting, _, hreimporting, hreimported⟩ :=
    course_reply place _ _ w (m := 2) (by rw [hcalls]; rfl) rfl
  -- the comparison is the last call, and the last start is seen as it
  rw [hends] at hseen
  obtain ⟨before, comparing, rfl, hbefore, hcomparing⟩ := seen_concat hseen
  have hlists : [_, _, _] ++ [_] = earlier ++ [last] := hcalls.symm.trans hends
  obtain ⟨rfl, hlast⟩ := List.append_inj' hlists rfl
  cases hlast
  have hargv := congrArg Prod.fst hcomparing
  have hplace := congrArg Prod.snd hcomparing
  refine ⟨exporting, reimporting, before, comparing, _, ⟨_, hexporting⟩, ⟨_, hreimporting⟩,
    by rw [hspawns, List.append_assoc], hbefore, hargv, congrArg Prod.fst hplace, ?_,
    by rw [hcalls]; rfl, fun htells => ?_⟩
  · rw [show exporting.stdout = exported.stdout by rw [hexported]; rfl,
      show reimporting.stdout = reimported.stdout by rw [hreimported]; rfl,
      show reimporting.stderr = reimported.stderr by rw [hreimported]; rfl]
    exact congrArg Prod.snd hplace
  · rw [show exporting.stdout = exported.stdout by rw [hexported]; rfl,
      show reimporting.stdout = reimported.stdout by rw [hreimported]; rfl, hsettled]
    exact settle_tellsApart htells rfl rfl

/-- A document that differs by a blank is a mismatch. -/
theorem another_blank_is_mismatched :
    ∃ r, outcome (verify Trial.subject Trial.compiler Trial.diff Trial.dir
      (Trial.world [.idle, Trial.printing "{}\n", Trial.printing "{ }\n", Trial.comparing]))
        = .ok r ∧ r.verdict = .mismatched := by
  obtain ⟨_, _, -, -, last, ⟨_, hexporting⟩, ⟨_, hreimporting⟩, -, -, -, -, -, hlast, htells⟩ :=
    passed_iff_unchanged Trial.subject Trial.compiler
      (Trial.vacant [.idle, Trial.printing "{}\n", Trial.printing "{ }\n", Trial.comparing])
      (Trial.staysIn (by decide)) Trial.split_diff (by decide +kernel)
  have hcomparing : ∀ call ∈ (course ["w"]
      (stages Trial.subject Trial.compiler Trial.diff ["diff", "--unified"] Trial.dir) .nothing
      (Trial.world [.idle, Trial.printing "{}\n", Trial.printing "{ }\n", Trial.comparing]))[3]?,
      call.TellsApart := by decide +kernel
  obtain ⟨r, hr, -, hmismatched⟩ := htells (hcomparing last hlast)
  cases hexporting
  cases hreimporting
  exact ⟨r, hr, hmismatched.mpr (by decide)⟩

/-- Where the path goes through an entry that is replaced, there is no verdict on
    two documents that are the same. -/
theorem detour_gets_no_verdict :
    let exporting := { Trial.replacing with stdout := Text.encode "{}\n" }
    let script := [.idle, exporting, Trial.printing "{}\n", Trial.comparing]
    Present (Trial.world script).disk (Trial.world script).cwd Trial.detour ["w"]
      ∧ (∀ p ∈ script, p.startError = none ∧ p.exitCode = 0 ∧ p.seconds = .int 0
        ∧ ∀ e ∈ p.effects, e.makesLink = false
          ∧ e.path.normalNames (Trial.root / Trial.detour) = ["w", "sub"])
      ∧ outcome (verify Trial.subject Trial.compiler Trial.diff Trial.detour (Trial.world script))
        = .error (.path (.refused .notDirectory (Artifact.expected.path Trial.detour))) :=
  ⟨Trial.present_detour _, by decide, rfl⟩

end Verification

end RoundTrip
