import RoundTrip.Proofs.Calm
import RoundTrip.Proofs.Resolved
import RoundTrip.Proofs.Splitter
import RoundTrip.Proofs.Utf8

/-! # The list of names that a splitter prints

    A splitter prints the names of files in its directory.  The printed text is decoded and
    cut into words, and each word is resolved in the directory.  Nothing is lost on the way:
    the text is read back (`Text.decode_encode`), its words are the names
    (`Text.Layout.wordsOf_eq`), and a name that is no link is put behind the resolved
    directory (`Disk.resolve_div`).  So the files are those that the splitter means, in order
    and with repetitions: **`Splitter.names_are_read_back`**. -/

namespace RoundTrip

namespace Disk

variable {d : Disk} {cwd dir here q : Path} {n : String} {under : List Place}
  {parts : List String}

/-! ## A look-up with one more name -/

/-- Where a look-up meets too many links, it does so before its last name, or there is a link
    under that name. -/
theorem locateWith_concat (onTarget onEntry : Place → List String → Except Errno Place)
    (hlink : ∀ place names, onTarget place (names ++ [n]) = .error .tooManyLinks →
      onTarget place names = .error .tooManyLinks
        ∨ ∃ q target, onEntry place (names ++ [n]) = .ok q ∧ d.get? q = some (.link target))
    (hn : Path.isName n = true) (hup : n ≠ "..") {place : Place} {names : List String}
    (h : locateWith onTarget d .target place (names ++ [n]) = .error .tooManyLinks) :
    locateWith onTarget d .target place names = .error .tooManyLinks
      ∨ ∃ q target, locateWith onEntry d .entry place (names ++ [n]) = .ok q
        ∧ d.get? q = some (.link target) := by
  -- the two look-ups part at the last name only: up to there every rule that one applies is a
  -- rule of the other
  induction names generalizing place with
  | nil =>
      rw [List.nil_append] at h ⊢
      have hat := atName onTarget d .target place n []
      generalize locateWith onTarget d .target place [n] = r at hat h
      cases hat with
      | @follow target henter hget =>
          refine Or.inr ⟨place ++ [n], target, ?_, hget⟩
          rw [locateWith_link (henter.other (by decide)) hget, if_pos ⟨rfl, rfl⟩]
      | skip _ hskip =>
          rw [hn] at hskip
          cases hskip
      | up _ hdots => exact absurd hdots hup
      | nowhere | noDir | trailing | tooLong | missing | missingBefore | link | enter => cases h
  | cons m rest ih =>
      rw [List.cons_append] at h ⊢
      have hrest : rest ++ [n] ≠ [] := List.append_ne_nil_of_right_ne_nil _ (by simp)
      have hat := atName onTarget d .target place m (rest ++ [n])
      generalize locateWith onTarget d .target place (m :: (rest ++ [n])) = r at hat h
      cases hat with
      | skip isDir hm =>
          rw [locateWith_skip isDir hm, locateWith_skip isDir hm]
          exact ih h
      | up isDir hm =>
          subst hm
          rw [locateWith_up isDir, locateWith_up isDir]
          exact ih h
      | @follow target henter hget =>
          rw [← List.append_assoc] at h
          rw [locateWith_link (henter.other (by decide)) hget, if_neg (fun hf => nomatch hf.2),
            locateWith_link (henter.other (by decide)) hget, if_neg (fun hf => hrest hf.1),
            ← List.append_assoc]
          exact hlink _ _ h
      | enter henter hget hl =>
          rw [locateWith_enter (henter.other (by decide)) hget hl,
            locateWith_enter (henter.other (by decide)) hget hl]
          exact ih h
      | nowhere | noDir | trailing | tooLong | missing | missingBefore | link => cases h

theorem locate_concat {links : Nat} (hn : Path.isName n = true) (hup : n ≠ "..") {place : Place}
    {names : List String} (h : d.locate .target links place (names ++ [n]) = .error .tooManyLinks) :
    d.locate .target links place names = .error .tooManyLinks
      ∨ ∃ q target, d.locate .entry links place (names ++ [n]) = .ok q
        ∧ d.get? q = some (.link target) := by
  induction links generalizing place names with
  | zero =>
      exact locateWith_concat _ (fun _ _ => .error .tooManyLinks) (fun _ _ _ => Or.inl rfl) hn hup h
  | succ links ih =>
      exact locateWith_concat (d.locate .target links) (d.locate .entry links) (fun _ _ h => ih h)
        hn hup h

/-- Below a path that does not run into too many links, only a link can. -/
theorem find_child_ne (hn : Path.isName n = true) (hup : n ≠ "..")
    (hq : d.find cwd .target q ≠ .error .tooManyLinks)
    (hlink : ∀ place target, ¬ d.LinkAt cwd (child q n) place target) :
    d.find cwd .target (child q n) ≠ .error .tooManyLinks := by
  intro h
  have hne : n ≠ "" := by
    rintro rfl
    exact absurd hn (by decide)
  have hsize := q.text_le_concat hne
  unfold find at h hq
  by_cases hlong : textLimit < (child q n).text.utf8ByteSize
  · rw [if_pos hlong] at h
    cases h
  rw [if_neg hlong, Path.absoluteNames_concat] at h
  rw [if_neg (Nat.not_lt.mpr (Nat.le_trans hsize (Nat.le_of_not_lt hlong)))] at hq
  obtain hbefore | ⟨place, target, hplace, hstands⟩ := locate_concat hn hup h
  · exact hq hbefore
  · refine hlink place target ⟨?_, hstands⟩
    unfold find
    rw [if_neg hlong, Path.absoluteNames_concat]
    exact hplace

/-! ## A name in a resolved directory -/

/-- What names resolve to is taken one name further, unless that is a link. -/
theorem Resolves.concat (h : Resolves d cwd under here parts q) (hn : Path.isName n = true)
    (hup : n ≠ "..") (hnul : (child q n).holdsNul = false)
    (hlink : ∀ place target, ¬ d.LinkAt cwd (child q n) place target) :
    Resolves d cwd under here (parts ++ [n]) (child q n) := by
  induction h with
  | done => exact .keep hn hup hnul hlink (.done _ _)
  | skip hm _ ih => exact .skip hm (ih hnul hlink)
  | up _ ih => exact .up (ih hnul hlink)
  | keep hm hmup hmnul hmlink _ ih => exact .keep hm hmup hmnul hmlink (ih hnul hlink)
  | follow hm hmup hmnul hmlink hfresh inner _ _ ih =>
      exact .follow hm hmup hmnul hmlink hfresh inner (ih hnul hlink)

/-- There is no link with a name in a directory: not where the names of the directory come to,
    and not in its resolved form. -/
structure NoLinkIn (d : Disk) (cwd dir : Path) (n : String) : Prop where
  reached : ∀ r, Resolves d cwd [] (start dir) dir.names r →
    ∀ place target, ¬ d.LinkAt cwd (child r n) place target
  resolved : ∀ q, ResolvesTo d cwd dir q →
    ∀ place target, ¬ d.LinkAt cwd (child q n) place target

/-- **A name that is no link is put behind the resolved directory.** -/
theorem resolve_div (hloop : LoopFree d cwd dir) (hdir : dir.Canonical)
    (hcwd : cwd.holdsNul = false) (hn : Path.IsFileName n) (hnul : '\x00' ∉ n.toList)
    (hlink : NoLinkIn d cwd dir n) (hq : d.resolve cwd dir = .ok q) :
    d.resolve cwd (dir / n) = .ok (q / n) := by
  obtain ⟨q', hq', hresolves⟩ := hloop.resolve_eq hdir hcwd
  obtain rfl : q' = q := Except.ok.inj (hq'.symm.trans hq)
  obtain ⟨r, hr, hnormal⟩ := hresolves
  have hchild : Resolves d cwd [] (start (dir / n)) (dir / n).names (child r n) := by
    rw [dir.div_of_isFileName hn]
    refine hr.concat hn.isName hn.notUp ?_ (hlink.reached r hr)
    rw [Path.holdsNul_concat _ hnul]
    exact hr.noNul rfl
  have hto : ResolvesTo d cwd (dir / n) (q' / n) := by
    refine ⟨_, hchild, ?_⟩
    rw [Path.normalize_concat r hn.notUp, hnormal, Path.div_of_isFileName _ hn]
  have hfree : LoopFree d cwd (dir / n) := by
    refine ⟨q' / n, hto, ?_⟩
    rw [Path.div_of_isFileName _ hn]
    obtain ⟨q'', hq'', hfind⟩ := hloop
    obtain rfl : q'' = q' := hq''.unique ⟨r, hr, hnormal⟩
    exact find_child_ne hn.isName hn.notUp hfind (hlink.resolved _ hq'')
  obtain ⟨found, hfound, hfoundTo⟩ := hfree.resolve_eq (hdir.div n) hcwd
  rw [hfound, hfoundTo.unique hto]

end Disk

namespace Splitter

open Text (IsBlanks IsWord Layout)

variable {splitter source dir : Path} {limit : Option Number} {w w₁ : World} {p : Process}
  {names : List String} {text lead trail : String}

/-- A name that can be printed in a list: a name of a file, and a word. -/
structure Printable (n : String) : Prop where
  isFileName : Path.IsFileName n
  noNul : '\x00' ∉ n.toList
  noBlank : ∀ c ∈ n.toList, Text.isBlank c = false

instance : DecidablePred Printable := fun n =>
  have := List.decidableBAll (fun c => Text.isBlank c = false) n.toList
  decidable_of_iff (Path.IsFileName n ∧ '\x00' ∉ n.toList
      ∧ ∀ c ∈ n.toList, Text.isBlank c = false)
    ⟨fun ⟨hn, hnul, hblank⟩ => ⟨hn, hnul, hblank⟩, fun h => ⟨h.isFileName, h.noNul, h.noBlank⟩⟩

theorem Printable.isWord {n : String} (h : Printable n) : IsWord n where
  notEmpty := h.isFileName.ne_empty
  noBlank := h.noBlank

/-- **The names that a splitter prints are read back.**  It was started and exits with 0 in
    time, and its output lists names of files that are no links, with any blanks between them,
    before them and behind them.  Then the files are those in the resolved directory under
    these names, in order and with repetitions; the number of sources grows by one less than
    there are names, and the files are what is compiled. -/
theorem names_are_read_back (hstart : (command splitter source dir limit).start w = .ok p w₁)
    (hexit : p.exitCode = 0) (htime : p.timesOut limit = false) (htimed : p.Timed limit w.clock)
    (hstdout : p.stdout = Text.encode (lead ++ text ++ trail)) (hlayout : Layout names text)
    (hlead : IsBlanks lead) (htrail : IsBlanks trail) (hnames : ∀ n ∈ names, Printable n)
    (hlinks : ∀ n ∈ names, w₁.disk.NoLinkIn w₁.cwd dir n)
    (hloop : w₁.disk.LoopFree w₁.cwd dir) (hdir : dir.Canonical)
    (hcwd : w₁.cwd.holdsNul = false) :
    ∃ root files w₂, w₁.disk.resolve w₁.cwd dir = .ok root
      ∧ files = names.map (fun n : String => root / n)
      ∧ split splitter limit source dir w = .ok (.into files) w₂
      ∧ (Splitting.into files).growth = names.length - 1
      ∧ ∀ splitter' v, (Splitting.into files).inputs source splitter' v = .ok files v := by
  obtain ⟨root, hroot, -⟩ := hloop.resolve_eq hdir hcwd
  obtain ⟨x, milliseconds, stderr, -, hrun⟩ :=
    Command.run_of_start (two_le_argv splitter source) hstart htimed
  have hwords : Text.wordsOf (Text.decode p.stdout) = names := by
    rw [hstdout, Text.decode_encode]
    exact hlayout.wordsOf_eq (fun n hn => (hnames n hn).isWord) hlead htrail
  have hne : names ≠ [] := by
    cases hlayout <;> exact List.cons_ne_nil _ _
  -- each name leads to an entry of the directory that is no link, so it resolves to that entry
  have hresolved : resolveNames dir names w₁ = .ok (names.map fun n : String => root / n) := by
    refine mapM_eq_ok_iff.mpr (List.forall₂_map_right_iff.mpr (List.forall₂_same.mpr ?_))
    intro n hn
    exact Disk.resolve_div hloop hdir hcwd (hnames n hn).isFileName (hnames n hn).noNul
      (hlinks n hn) hroot
  have hstdout' : ((command splitter source dir limit).report p milliseconds).stdout = p.stdout :=
    rfl
  have hsplit : split splitter limit source dir w
      = .ok (.into (names.map fun n : String => root / n))
        { w₁ with clock := w.clock + x, stderr := stderr } := by
    rw [split_eq, Step.bind_ok hrun]
    refine outcome_of_files htime ?_ ?_ ?_
    · show (if p.timesOut limit then p.killedCode else p.exitCode) = 0
      rw [htime, if_neg Bool.false_ne_true, hexit]
    · rw [hstdout', hwords]
      exact hne
    · rw [hstdout', hwords]
      exact hresolved
  exact ⟨root, _, _, hroot, rfl, hsplit, by simp [Splitting.growth], fun _ _ => rfl⟩

/-- The world of a splitter that prints one name twice, and another in between. -/
def Trial.listing : World :=
  { Harness.Trial.world with
    script := [{ Process.idle with stdout := Text.encode " a.sol\nä.sol \ta.sol\n" }] }

/-- Three files are read back from a list of three names. -/
theorem three_names_are_read_back :
    ∃ w₂, split ⟨.root, ["split"]⟩ none ⟨.root, ["t", "a.sol"]⟩ ⟨.root, ["build"]⟩ Trial.listing
      = .ok (.into [⟨.root, ["build", "a.sol"]⟩, ⟨.root, ["build", "ä.sol"]⟩,
        ⟨.root, ["build", "a.sol"]⟩]) w₂ := by
  have hnone : ∀ p place target, ¬ Trial.listing.disk.LinkAt Trial.listing.cwd p place target := by
    intro p place target h
    have hmem := Disk.mem_linkPlaces h.stands
    rw [show Trial.listing.disk.linkPlaces = [] by decide +kernel] at hmem
    cases hmem
  have hresolves : Disk.Resolves Trial.listing.disk Trial.listing.cwd []
      (Disk.start ⟨.root, ["build"]⟩) ["build"] ⟨.root, ["build"]⟩ :=
    .keep (by decide) (by decide) (by decide) (hnone _) (.done _ _)
  have hloop : Trial.listing.disk.LoopFree Trial.listing.cwd ⟨.root, ["build"]⟩ :=
    ⟨⟨.root, ["build"]⟩, ⟨_, hresolves, by decide⟩, by decide +kernel⟩
  have hroot : (match Trial.listing.disk.resolve Trial.listing.cwd ⟨.root, ["build"]⟩ with
      | .ok root => decide (root = ⟨.root, ["build"]⟩)
      | .error _ => false) = true := by decide +kernel
  obtain ⟨w₁, hstart, hdisk, hcwd⟩ : ∃ w₁ : World,
      (command ⟨.root, ["split"]⟩ ⟨.root, ["t", "a.sol"]⟩ ⟨.root, ["build"]⟩ none).start
          Trial.listing
        = .ok { Process.idle with stdout := Text.encode " a.sol\nä.sol \ta.sol\n" } w₁
      ∧ w₁.disk = Trial.listing.disk ∧ w₁.cwd = Trial.listing.cwd := by
    obtain ⟨stderr, hstart⟩ := Command.start_calm (w := Trial.listing) ⟨rfl, rfl⟩ rfl
    exact ⟨_, hstart, rfl, rfl⟩
  have hlayout : Layout ["a.sol", "ä.sol", "a.sol"]
      ("a.sol" ++ "\n" ++ ("ä.sol" ++ " \t" ++ "a.sol")) :=
    .cons _ _ (by decide) (by decide) (.cons _ _ (by decide) (by decide) (.single _))
  have hlead : IsBlanks " " := by decide
  have htrail : IsBlanks "\n" := by decide
  obtain ⟨root, files, w₂, hfound, rfl, hsplit, -, -⟩ := names_are_read_back hstart rfl rfl
    (World.timely_of_instant (by decide +kernel) (by decide +kernel) none 0)
    (by decide +kernel) hlayout hlead htrail (by decide)
    (by rw [hdisk, hcwd]; exact fun n _ => ⟨fun r _ => hnone _, fun q _ => hnone _⟩)
    (by rw [hdisk, hcwd]; exact hloop) (by decide) (by rw [hcwd]; decide)
  rw [hdisk, hcwd] at hfound
  rw [hfound] at hroot
  obtain rfl := of_decide_eq_true hroot
  exact ⟨w₂, hsplit⟩

end Splitter

end RoundTrip
