import RoundTrip.Proofs.Agreement
import RoundTrip.Proofs.Calls
import RoundTrip.Proofs.Path

/-! # What is checked and what is called

    The files of the compiler and of the splitter are checked from the current
    directory of a run, and called from other directories: the version from the
    directory of the compiler, everything else from a workspace.  A call names the tool
    by the same text, so it runs the file that was checked exactly if the path is
    absolute, or the two directories agree as far up as the path climbs:
    **`Harness.calls_checked_file_iff`**. -/

namespace RoundTrip

open Step (endState)

/-! ## Paths of tools -/

namespace Configuration

namespace Checked

variable {α β : Type}

/-- A value that is accepted has a property. -/
def Delivers (Q : α → Prop) (x : Checked α) : Prop := ∀ a, x = .ok a → Q a

/-- A field that is checked after others does not undo what these deliver. -/
theorem delivers_seq {Q : β → Prop} {f : Checked (α → β)} {x : Checked α}
    (hf : f.Delivers fun g => ∀ a, Q (g a)) : (f <*> x).Delivers Q := by
  intro b h
  cases f with
  | refused rs => cases x <;> cases h
  | ok g =>
      cases x with
      | refused rs => cases h
      | ok a =>
          cases h
          exact hf g rfl a

theorem delivers_map {Q : β → Prop} {g : α → β} {x : Checked α}
    (hx : x.Delivers fun a => Q (g a)) : (g <$> x).Delivers Q := by
  intro b h
  cases x with
  | refused rs => cases h
  | ok a =>
      cases h
      exact hx a rfl

end Checked

variable {s : Configuration} {cwd : Path} {environment : List (String × String)}
  {overrides : List (String × Json)}

/-- The root is the current directory or was read from a text. -/
theorem delivers_repoRoot (hcwd : cwd.Canonical) (value? : Field → Option Json) :
    (single value? .repoRoot path cwd).Delivers Path.Canonical := by
  intro p h
  unfold single at h
  split at h
  · cases h
    exact hcwd
  · rename_i v _
    cases v with
    | str text =>
        cases h
        exact Path.canonical_ofString text
    | _ => cases h

/-- Settings that pass their checks have a canonical root. -/
theorem delivers_ofRaw (hcwd : cwd.Canonical) (value? : Field → Option Json) :
    (ofRaw cwd value?).Delivers fun s => s.repoRoot.Canonical := by
  unfold ofRaw
  -- the other nine fields come after the root
  iterate 9 apply Checked.delivers_seq
  apply Checked.delivers_map
  intro root hroot _ _ _ _ _ _ _ _ _
  exact delivers_repoRoot hcwd value? root hroot

theorem load_eq_ok (h : load environment overrides cwd = .ok s) :
    ofRaw cwd (raw environment overrides) = .ok s := by
  unfold load at h
  cases hdirs : fromEnvironment environment .testDirs with
  | error e =>
      rw [hdirs] at h
      cases h
  | ok dirs =>
      cases hexcluded : fromEnvironment environment .excludedNames with
      | error e =>
          rw [hdirs, hexcluded] at h
          cases h
      | ok excluded =>
          rw [hdirs, hexcluded] at h
          cases hraw : ofRaw cwd (raw environment overrides) with
          | refused rs =>
              simp only [hraw] at h
              cases h
          | ok s' =>
              simp only [hraw] at h
              cases h
              rfl

/-- A configuration that was read has a canonical root. -/
theorem canonical_repoRoot (h : load environment overrides cwd = .ok s) (hcwd : cwd.Canonical) :
    s.repoRoot.Canonical := delivers_ofRaw hcwd _ s (load_eq_ok h)

end Configuration

/-- The tools of a configuration are read from texts, below its root or anywhere. -/
theorem Tool.canonical_path {s : Configuration} (hroot : s.repoRoot.Canonical) (t : Tool) :
    (t.path s).Canonical := by
  cases t with
  | compiler =>
      show (s.buildPath / s.compilerRelPath).Canonical
      refine Path.Canonical.div ?_ _
      unfold Configuration.buildPath
      split
      · exact hroot.div _
      · exact Path.canonical_ofString _
  | splitter =>
      show s.splitter.Canonical
      unfold Configuration.splitter
      split
      · exact (hroot.div _).div _
      · exact Path.canonical_ofString _

/-- The word for a tool among the words of a call: the second if an interpreter is
    called to run it, and otherwise the first. -/
def Tool.word? (s : Configuration) : Tool → List String → Option String
  | .compiler, argv => argv[0]?
  | .splitter, argv => if s.splitter.suffix = ".py" then argv[1]? else argv[0]?

/-- A process runs the file of a tool that was checked: the word for it, read from the
    directory of the process, denotes what its path denotes in the current directory. -/
def Tool.RunBy (s : Configuration) (cwd : Path) (t : Tool) (k : Spawn) : Prop :=
  ∃ word, t.word? s k.argv = some word
    ∧ (Path.ofString word).normalNames (cwd / k.cwd) = (t.path s).normalNames cwd

namespace Harness

variable {s : Configuration} {o : Options} {temp cwd : Path} {t : Tool} {c : Command} {k : Spawn}

/-- A call names its tool by the text of its path. -/
theorem IsCall.word?_eq (h : IsCall s o temp (some t) c) :
    t.word? s c.argv = some (t.path s).text := by
  cases h with
  | version => rfl
  | split n source =>
      unfold Tool.word? Splitter.command Splitter.argv Tool.path
      by_cases hscript : s.splitter.suffix = ".py"
      · simp only [if_pos hscript, List.getElem?_cons_succ, List.getElem?_cons_zero]
      · simp only [if_neg hscript, List.getElem?_cons_zero]
  | probe n inputs => rfl
  | exportDocument n inputs => rfl
  | importDocument n => rfl

/-- A tool is run by a call exactly if its path is absolute, or leads to the same file from
    both directories. -/
theorem IsCall.runBy_iff (h : IsCall s o temp (some t) c) (hk : k.Of c)
    (hroot : s.repoRoot.Canonical) (cwd : Path) :
    t.RunBy s cwd k ↔ (t.path s).isAbsolute = true
      ∨ (cwd / k.cwd).plainNames.rdrop (Path.climb (t.path s).names)
        = cwd.plainNames.rdrop (Path.climb (t.path s).names) := by
  unfold Tool.RunBy
  rw [hk.argv_eq, h.word?_eq, ← Path.normalNames_eq_iff]
  constructor
  · rintro ⟨word, hword, hsame⟩
    cases hword
    rwa [Path.ofString_text (Tool.canonical_path hroot t)] at hsame
  · intro hsame
    refine ⟨_, rfl, ?_⟩
    rwa [Path.ofString_text (Tool.canonical_path hroot t)]

/-- **When the file that is called is the file that was checked.**  Whichever way a run
    ends, each process that it starts is a call of a tool that was found to be a file, or
    a comparison.  It runs that file if and only if its path is absolute, or the
    directory of the process and the current directory agree once as many last names are
    dropped as the path climbs.  The root of the configuration is such as reading it
    delivers (`Configuration.canonical_repoRoot`). -/
theorem calls_checked_file_iff (hroot : s.repoRoot.Canonical) (o : Options) (s₀ : Session) :
    ∃ started, (endState (run s o s₀)).world.spawns = s₀.world.spawns ++ started
      ∧ ∀ k ∈ started, ∃ t c, IsCall s o s₀.world.tempDir t c ∧ k.Of c
        ∧ ∀ tool ∈ t, Checked s o s₀.world tool
          ∧ (tool.RunBy s s₀.world.cwd k ↔ (tool.path s).isAbsolute = true
            ∨ (s₀.world.cwd / k.cwd).plainNames.rdrop (Path.climb (tool.path s).names)
              = s₀.world.cwd.plainNames.rdrop (Path.climb (tool.path s).names)) := by
  obtain ⟨-, -, started, hspawns, hcalls⟩ := calls_run s o s₀
  refine ⟨started, hspawns, ?_⟩
  intro k hk
  obtain ⟨c, ⟨t, hcall, hchecked⟩, hof⟩ := hcalls k hk
  refine ⟨t, c, hcall, hof, ?_⟩
  rintro tool rfl
  exact ⟨hchecked tool rfl, hcall.runBy_iff hof hroot _⟩

/-- A configuration with a relative root. -/
def Trial.relative : Configuration := { configuration with repoRoot := ⟨.here, []⟩, buildDir := "" }

/-- No other tool is called by the words of the version check. -/
theorem Trial.eq_compiler_of_argv {t : Option Tool}
    (h : IsCall Trial.relative Trial.options temp t c)
    (hargv : c.argv = ["build/solc", "--version"]) : t = some .compiler := by
  cases h with
  | version => rfl
  | split n source =>
      have hsplitter : Splitter.argv Trial.relative.splitter source = ["/split", source.text] := by
        unfold Splitter.argv
        rw [if_neg (by decide +kernel)]
        rfl
      rw [Splitter.argv_command, hsplitter] at hargv
      exact absurd (List.cons.inj hargv).1 (by decide)
  | probe n inputs => rfl
  | exportDocument n inputs => rfl
  | importDocument n => rfl
  | compare n words hwords =>
      have hdiff : Text.ShellWords.split Trial.relative.diffCommand = .ok ["diff"] := rfl
      rw [hdiff] at hwords
      cases hwords
      exact absurd (congrArg List.length hargv) (by simp [Verification.comparison])

/-- The compiler is found, and another file is run: its path is read from its own
    directory. -/
theorem relative_compiler_is_misread :
    ∃ k ∈ (endState (run Trial.relative Trial.options
        (Session.start Trial.world (.start 0 false)))).world.spawns,
      Checked Trial.relative Trial.options Trial.world .compiler
        ∧ ¬ Tool.compiler.RunBy Trial.relative Trial.world.cwd k := by
  obtain ⟨started, hspawns, hcalls⟩ := calls_checked_file_iff (s := Trial.relative) (by decide)
    Trial.options (Session.start Trial.world (.start 0 false))
  have hfirst : ((endState (run Trial.relative Trial.options
      (Session.start Trial.world (.start 0 false)))).world.spawns.head?.map
        fun k => (k.argv, k.cwd)) = some (["build/solc", "--version"], ⟨.here, ["build"]⟩) := by
    decide +kernel
  cases started with
  | nil =>
      rw [hspawns] at hfirst
      cases hfirst
  | cons k rest =>
      rw [hspawns] at hfirst ⊢
      obtain ⟨hargv, hcwd⟩ := Prod.mk.inj (Option.some.inj hfirst)
      obtain ⟨t, c, hcall, hof, htool⟩ := hcalls k List.mem_cons_self
      -- only a call of the compiler has these words
      have ht : t = some .compiler :=
        Trial.eq_compiler_of_argv hcall (hof.argv_eq.symm.trans hargv)
      obtain ⟨hchecked, hiff⟩ := htool .compiler ht
      refine ⟨k, List.mem_cons_self, hchecked, fun hrun => absurd (hiff.mp hrun) ?_⟩
      rw [hcwd]
      decide +kernel

end Harness

end RoundTrip
