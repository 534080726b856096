import Mathlib
import RoundTrip.Proofs.Splitter

/-! # The number of sources

    A tally counts each file of a split source as a source.  A step changes it in two moments:
    once the input files are known, and once the result is (`Plan.counting_step`).  The input
    files take the place of the source, so nothing is lost: after each result the number of
    sources is the first one, and what the finished cases have added.  It never gets smaller,
    and covers at every moment the cases that were gone through and the sources that are left:
    **`Plan.sources_conserved`**. -/

namespace RoundTrip

open Step (endState)
open Splitter (Replaces)

/-- How many files there are to compile for a case, beyond the first. -/
def Finding.growth (r : Finding) : Int := r.subject.inputs.length - 1

/-- The results that a session has come to, each with the tally after it. -/
def Session.results (s : Session) : List (Finding × Tally) :=
  s.journal.filterMap fun
    | .finished r t => some (r, t)
    | _ => none

theorem Splitter.Replaces.growth_nonneg {files : List Path} {growth : Int}
    (h : Replaces files growth) : 0 ≤ growth := by
  have hlength := List.length_pos_iff.mpr h.notEmpty
  rw [h.growth_eq]
  omega

theorem Tally.finished_add (t : Tally) (r : Finding) : (t.add r).finished = t.finished + 1 :=
  (Counted.add t r).finished_eq

namespace Plan

variable {p : Plan} {number : Nat} {source splitter : Path} {limit : Option Number}
  {s s' : Session} {t : Tally}

/-- The tally once the input files of a source are counted, if it comes to that. -/
def opened? (p : Plan) (number : Nat) (source : Path) (s : Session) : Option Tally :=
  match p.onStart source s.world with
  | .error _ _ => none
  | .ok _ w =>
      match Workspace.enter Workspace.defaultStem w with
      | .error _ _ => none
      | .ok dir w₁ =>
          match p.opening number source dir w₁ with
          | .error _ _ => none
          | .ok opened _ => some (s.tally.addSources opened.1.growth)

/-- The tallies that a run goes through: before each case, once its input files are counted,
    and after it, whichever way it ends. -/
def tallies (p : Plan) (number : Nat) : List Path → Session → List Tally
  | [], s => [s.tally]
  | source :: rest, s =>
      s.tally :: ((p.opened? number source s).toList ++
        match p.step number source s with
        | .error _ s₁ => [s₁.tally]
        | .ok r s₁ =>
            if p.stopOnFailure && r.failed then [s₁.tally] else tallies p (number + 1) rest s₁)

/-! ## A step -/

/-- What a step that ends in some way has counted: nothing; or the input files, and then the
    result, or not. -/
inductive Counting (source : Path) (s : Session) :
    Option Tally → EStateM.Result Fault Session Finding → Prop where
  | nothing {e : Fault} {s₁ : Session} (htally : s₁.tally = s.tally)
      (hresults : s₁.results = s.results) : Counting source s none (.error e s₁)
  | inputs {e : Fault} {s₁ : Session} {files : List Path} {growth : Int}
      (hfiles : Replaces files growth) (htally : s₁.tally = s.tally.addSources growth)
      (hresults : s₁.results = s.results) :
      Counting source s (some (s.tally.addSources growth)) (.error e s₁)
  | result {x : EStateM.Result Fault Session Finding} {r : Finding} {growth : Int}
      (hsource : r.subject.source = source) (hfiles : Replaces r.subject.inputs growth)
      (htally : (endState x).tally = (s.tally.addSources growth).add r)
      (hresults : (endState x).results = s.results ++ [(r, (endState x).tally)]) :
      Counting source s (some (s.tally.addSources growth)) x

/-- A case with a result has counted its input files, and then the result. -/
theorem counting_case (hsplit : ∀ n, p.split n = Splitter.split splitter limit) {w : World}
    {r : Finding} (hstart : p.onStart source s.world = .ok () w)
    (hcase : p.tryCase number source ⟨w, s.tally, s.journal ++ [.started source]⟩ = .ok r s') :
    ∃ growth, p.opened? number source s = some (s.tally.addSources growth)
      ∧ r.subject.source = source ∧ Replaces r.subject.inputs growth
      ∧ s'.tally = (s.tally.addSources growth).add r ∧ s'.results = s.results := by
  have hend := p.caseEnd number source ⟨w, s.tally, s.journal ++ [.started source]⟩
  rw [hcase] at hend
  cases hend with
  | verified stderr henter hopening hverify hleave =>
      have habout := Verification.delivers_verify _ _ _ _ _ _ _ hverify
      have hfiles := inputs_of_opening (hsplit number) hopening
      unfold opened?
      simp only [hstart, henter, hopening]
      refine ⟨_, rfl, ?_, ?_, rfl, ?_⟩
      · rw [habout.subject_eq]
      · rwa [habout.subject_eq]
      · simp [Session.results, List.filterMap_append]

theorem counting_step (hsplit : ∀ n, p.split n = Splitter.split splitter limit) (number : Nat)
    (source : Path) (s : Session) :
    Counting source s (p.opened? number source s) (p.step number source s) := by
  have hend := p.stepEnd number source s
  generalize p.step number source s = x at hend
  cases hend with
  | unstarted hstart =>
      unfold opened?
      rw [hstart]
      exact .nothing rfl (by simp [Session.results, List.filterMap_append])
  -- a case that broke off counts its inputs if it came that far, and no result
  | @brokenOff e w s₁ hstart hcase =>
      have hcaseEnd := p.caseEnd number source ⟨w, s.tally, s.journal ++ [.started source]⟩
      rw [hcase] at hcaseEnd
      unfold opened?
      rw [hstart]
      cases hcaseEnd with
      | noWorkspace henter =>
          simp only [henter]
          exact .nothing rfl (by simp [Session.results, List.filterMap_append])
      | unopened henter hopening hleave =>
          simp only [henter, hopening]
          exact .nothing rfl (by simp [Session.results, List.filterMap_append])
      | unverified henter hopening hverify hleave =>
          simp only [henter, hopening]
          exact .inputs (inputs_of_opening (hsplit number) hopening) rfl
            (by simp [Session.results, List.filterMap_append])
  | unannounced hstart hcase hresult =>
      obtain ⟨growth, hopened, hsource, hfiles, htally, hresults⟩ :=
        counting_case hsplit hstart hcase
      rw [hopened]
      exact .result hsource hfiles htally (by rw [← hresults]; simp [endState, Session.results])
  | finished hstart hcase hresult =>
      obtain ⟨growth, hopened, hsource, hfiles, htally, hresults⟩ :=
        counting_case hsplit hstart hcase
      rw [hopened]
      exact .result hsource hfiles htally (by rw [← hresults]; simp [endState, Session.results])

/-- From one session to another the result of one case was counted. -/
structure CountsOne (s s' : Session) (r : Finding) : Prop where
  notEmpty : r.subject.inputs ≠ []
  sources_eq : s'.tally.sources = s.tally.sources + r.growth
  finished_eq : s'.tally.finished = s.tally.finished + 1
  results_eq : s'.results = s.results ++ [(r, s'.tally)]

namespace Counting

variable {opened : Option Tally} {x : EStateM.Result Fault Session Finding} {r : Finding}

/-- A step has come to no result, or to one. -/
theorem results (h : Counting source s opened x) :
    (endState x).tally.finished = s.tally.finished ∧ (endState x).results = s.results
      ∨ ∃ r, CountsOne s (endState x) r := by
  cases h with
  | nothing htally hresults => exact Or.inl ⟨congrArg Tally.finished htally, hresults⟩
  | inputs hfiles htally hresults =>
      exact Or.inl ⟨(congrArg Tally.finished htally :), hresults⟩
  | @result _ r growth hsource hfiles htally hresults =>
      refine Or.inr ⟨r, hfiles.notEmpty, ?_, ?_, hresults⟩
      · rw [htally, Finding.growth, ← hfiles.growth_eq]
        rfl
      · rw [htally, Tally.finished_add]
        rfl

/-- A step that comes to its end has come to a result. -/
theorem of_ok (h : Counting source s opened (.ok r s')) : ∃ r', CountsOne s s' r' := by
  obtain ⟨-, hresults⟩ | hone := h.results
  · cases h with
    | @result _ r' growth hsource hfiles htally hresults' =>
        rw [hresults] at hresults'
        simp at hresults'
  · exact hone

/-- A step takes nothing from the number of sources, at no moment. -/
theorem mono (h : Counting source s opened x) :
    s.tally.sources ≤ (endState x).tally.sources
      ∧ ∀ t ∈ opened, s.tally.sources ≤ t.sources ∧ t.sources ≤ (endState x).tally.sources
        ∧ t.finished = s.tally.finished := by
  have hle : ∀ {files : List Path} {growth : Int}, Replaces files growth →
      s.tally.sources ≤ (s.tally.addSources growth).sources := by
    intro files growth hfiles
    have hgrowth := hfiles.growth_nonneg
    show s.tally.sources ≤ s.tally.sources + growth
    omega
  cases h with
  | nothing htally hresults =>
      exact ⟨Int.le_of_eq (congrArg Tally.sources htally).symm, fun t ht => nomatch ht⟩
  | inputs hfiles htally hresults =>
      have hend := Int.le_of_eq (congrArg Tally.sources htally).symm
      exact ⟨Int.le_trans (hle hfiles) hend, by rintro t ⟨⟩; exact ⟨hle hfiles, hend, rfl⟩⟩
  | result hsource hfiles htally hresults =>
      have hend := Int.le_of_eq (congrArg Tally.sources htally).symm
      exact ⟨Int.le_trans (hle hfiles) hend, by rintro t ⟨⟩; exact ⟨hle hfiles, hend, rfl⟩⟩

end Counting

/-! ## A run -/

variable {sources rest : List Path}

/-- What a run goes through after the opening of its first case: it ends with the case, or it
    goes on from there. -/
theorem tallies_cons (p : Plan) (number : Nat) (source : Path) (rest : List Path) (s : Session) :
    ∃ after, p.tallies number (source :: rest) s
        = s.tally :: ((p.opened? number source s).toList ++ after)
      ∧ (after = [(endState (p.step number source s)).tally]
          ∧ (endState (p.runFrom number (source :: rest) s)).tally
            = (endState (p.step number source s)).tally
          ∧ (endState (p.runFrom number (source :: rest) s)).results
            = (endState (p.step number source s)).results
        ∨ ∃ r s₁, p.step number source s = .ok r s₁ ∧ after = p.tallies (number + 1) rest s₁
          ∧ p.runFrom number (source :: rest) s = p.runFrom (number + 1) rest s₁) := by
  refine ⟨_, rfl, ?_⟩
  have hend := p.runEnd number source rest s
  generalize p.runFrom number (source :: rest) s = x at hend
  -- the first case ends the run, by a fault or by a failure, or the run goes on
  cases hend with
  | fault hstep =>
      rw [hstep]
      exact Or.inl ⟨rfl, rfl, rfl⟩
  | stopped stderr hstep hstop =>
      rw [hstep]
      simp only [if_pos hstop]
      exact Or.inl ⟨rfl, rfl, rfl⟩
  | @goesOn r s₁ hstep hgo =>
      rw [hstep]
      simp only [if_neg hgo]
      exact Or.inr ⟨r, s₁, rfl, rfl, rfl⟩

/-- The last of the tallies is the one at the end. -/
theorem getLast?_tallies (p : Plan) (number : Nat) (sources : List Path) (s : Session) :
    (p.tallies number sources s).getLast?
      = some (endState (p.runFrom number sources s)).tally := by
  induction sources generalizing number s with
  | nil => rfl
  | cons source rest ih =>
      obtain ⟨after, htallies, ⟨hafter, hend, -⟩ | ⟨r, s₁, -, hafter, hrun⟩⟩ :=
        p.tallies_cons number source rest s
      · rw [htallies, hend, hafter, ← List.cons_append, List.getLast?_concat]
      · rw [htallies, hrun, ← ih, hafter, ← List.cons_append, List.getLast?_append, ih]
        rfl

/-- **The number of sources never gets smaller** in the course of a run. -/
theorem tallies_mono (hsplit : ∀ n, p.split n = Splitter.split splitter limit) (number : Nat)
    (sources : List Path) (s : Session) :
    (p.tallies number sources s).Pairwise (fun t t' => t.sources ≤ t'.sources)
      ∧ ∀ t ∈ p.tallies number sources s, s.tally.sources ≤ t.sources := by
  induction sources generalizing number s with
  | nil => exact ⟨List.pairwise_singleton _ _, by simp [tallies]⟩
  | cons source rest ih =>
      obtain ⟨hend, hopened⟩ := (counting_step hsplit number source s).mono
      obtain ⟨after, htallies, hcases⟩ := p.tallies_cons number source rest s
      -- what follows the opening is ordered, and not below the tally after the step
      have hafter : after.Pairwise (fun t t' => t.sources ≤ t'.sources)
          ∧ ∀ t ∈ after, (endState (p.step number source s)).tally.sources ≤ t.sources := by
        obtain ⟨rfl, -, -⟩ | ⟨r, s₁, hstep, rfl, -⟩ := hcases
        · exact ⟨List.pairwise_singleton _ _, by simp⟩
        · rw [hstep]
          exact ih (number + 1) s₁
      have hrest : ∀ t ∈ (p.opened? number source s).toList ++ after,
          s.tally.sources ≤ t.sources := by
        intro t ht
        obtain ht | ht := List.mem_append.mp ht
        · exact (hopened t (Option.mem_toList.mp ht)).1
        · exact Int.le_trans hend (hafter.2 t ht)
      rw [htallies]
      refine ⟨List.pairwise_cons.mpr ⟨hrest, List.pairwise_append.mpr ⟨?_, hafter.1, ?_⟩⟩, ?_⟩
      · cases p.opened? number source s with
        | none => exact List.Pairwise.nil
        | some t => exact List.pairwise_singleton _ _
      · intro t ht t' ht'
        exact Int.le_trans (hopened t (Option.mem_toList.mp ht)).2.1 (hafter.2 t' ht')
      · exact List.forall_mem_cons.mpr ⟨Int.le_refl _, hrest⟩

/-- At every moment of a run some of its first sources are finished, and the others are
    left. -/
theorem finished_of_mem_tallies (hsplit : ∀ n, p.split n = Splitter.split splitter limit)
    (h : t ∈ p.tallies number sources s) :
    ∃ done left, done ++ left = sources ∧ t.finished = s.tally.finished + done.length := by
  induction sources generalizing number s with
  | nil =>
      obtain rfl := List.mem_singleton.mp h
      exact ⟨[], [], rfl, (Int.add_zero _).symm⟩
  | cons source rest ih =>
      have hcounting := counting_step hsplit number source s
      have hopened := hcounting.mono.2
      have hnone : ∀ t : Tally, t.finished = s.tally.finished →
          ∃ done left, done ++ left = source :: rest
            ∧ t.finished = s.tally.finished + done.length :=
        fun t ht => ⟨[], _, rfl, ht.trans (Int.add_zero _).symm⟩
      obtain ⟨after, htallies, hcases⟩ := p.tallies_cons number source rest s
      rw [htallies, List.mem_cons, List.mem_append] at h
      -- the tally before the case, the one after its inputs were counted, or a later one
      obtain rfl | h | h := h
      · exact hnone _ rfl
      · exact hnone _ (hopened t (Option.mem_toList.mp h)).2.2
      obtain ⟨rfl, -, -⟩ | ⟨r, s₁, hstep, rfl, -⟩ := hcases
      · obtain rfl := List.mem_singleton.mp h
        obtain ⟨hsame, -⟩ | ⟨r, hone⟩ := hcounting.results
        · exact hnone _ hsame
        · exact ⟨[source], rest, rfl, hone.finished_eq⟩
      · rw [hstep] at hcounting
        obtain ⟨r', hone⟩ := hcounting.of_ok
        obtain ⟨done, left, rfl, ht⟩ := ih h
        refine ⟨source :: done, left, rfl, ?_⟩
        rw [ht, hone.finished_eq, List.length_cons]
        omega

/-- The results of a run have input files, and the tally after each has counted those of all
    results so far. -/
theorem results_runFrom (hsplit : ∀ n, p.split n = Splitter.split splitter limit) (number : Nat)
    (sources : List Path) (s : Session) :
    ∃ cases, (endState (p.runFrom number sources s)).results = s.results ++ cases
      ∧ ∀ i r t, cases[i]? = some (r, t) → r.subject.inputs ≠ []
        ∧ t.sources = s.tally.sources + ((cases.take (i + 1)).map (·.1.growth)).sum := by
  induction sources generalizing number s with
  | nil => exact ⟨[], (List.append_nil _).symm, by simp⟩
  | cons source rest ih =>
      have hcounting := counting_step hsplit number source s
      obtain ⟨after, -, ⟨-, -, hend⟩ | ⟨r, s₁, hstep, -, hrun⟩⟩ :=
        p.tallies_cons number source rest s
      · rw [hend]
        -- the run ends with this case: it has a result or it has none
        obtain ⟨-, hnone⟩ | ⟨r, hone⟩ := hcounting.results
        · exact ⟨[], hnone.trans (List.append_nil _).symm, by simp⟩
        · refine ⟨[(r, _)], hone.results_eq, fun i r' t' h => ?_⟩
          obtain ⟨rfl, rfl, rfl⟩ : i = 0 ∧ r = r'
              ∧ (endState (p.step number source s)).tally = t' := by
            simpa [List.getElem?_singleton] using h
          exact ⟨hone.notEmpty, by simpa using hone.sources_eq⟩
      · rw [hstep] at hcounting
        obtain ⟨r, hone⟩ := hcounting.of_ok
        obtain ⟨cases, hresults, hcases⟩ := ih (number + 1) s₁
        refine ⟨(r, s₁.tally) :: cases, ?_, fun i r' t' h => ?_⟩
        · rw [hrun, hresults, hone.results_eq, List.append_assoc]
          rfl
        -- the first result is that of this case; the later ones are those of the run behind it
        cases i with
        | zero =>
            cases h
            exact ⟨hone.notEmpty, by simpa using hone.sources_eq⟩
        | succ i =>
            obtain ⟨hinputs, hsum⟩ := hcases i r' t' h
            refine ⟨hinputs, ?_⟩
            rw [hsum, hone.sources_eq, List.take_succ_cons, List.map_cons, List.sum_cons,
              Int.add_assoc]

/-- **The number of sources is conserved.**  Every case has input files, and after each result
    the number of sources is the first one, together with the files that the finished cases
    have beyond their sources.  So it never gets smaller.  In a run that starts with the
    number of its sources, it covers at every moment the cases that were gone through and the
    sources that are left; and the summary of a test, which is that of the tally at the end,
    never shows fewer sources than cases. -/
theorem sources_conserved (hsplit : ∀ n, p.split n = Splitter.split splitter limit)
    (sources : List Path) (w : World) (t : Tally) :
    (∀ number source dir u splitting inputs u',
        p.opening number source dir u = .ok (splitting, inputs) u' → inputs ≠ [])
      ∧ (∀ i r t', (endState (p.run sources (Session.start w t))).results[i]? = some (r, t') →
        r.subject.inputs ≠ []
          ∧ t'.sources = t.sources
            + (((endState (p.run sources (Session.start w t))).results.take (i + 1)).map
              (·.1.growth)).sum)
      ∧ (p.tallies 0 sources (Session.start w t)).Pairwise (fun t t' => t.sources ≤ t'.sources)
      ∧ (∀ keeps, t = .start sources.length keeps →
        ∀ t' ∈ p.tallies 0 sources (Session.start w t), ∃ done left, done ++ left = sources
          ∧ t'.finished = done.length ∧ t'.finished + left.length ≤ t'.sources)
      ∧ ∀ c o s₁, p = Harness.plan c o →
        Harness.goThrough c o (Session.start w t) = .ok () s₁ →
          Harness.run c o (Session.start w t)
              = (Session.inWorld (Harness.conclude c o s₁.tally) >>= fun _ =>
                pure (Harness.exitCode s₁.tally)) s₁
            ∧ s₁.tally.tested + s₁.tally.uncompilable ≤ s₁.tally.sources := by
  -- at every tally of a run the sources are those that are done and those that are left, so
  -- the sum law gives the bound
  have hcovers : ∀ (sources : List Path) (w : World) (keeps : Bool),
      ∀ t' ∈ p.tallies 0 sources (Session.start w (.start sources.length keeps)),
        ∃ done left, done ++ left = sources
          ∧ t'.finished = done.length ∧ t'.finished + left.length ≤ t'.sources := by
    intro sources w keeps t' ht'
    have hsources := (tallies_mono hsplit 0 sources _).2 t' ht'
    obtain ⟨done, left, rfl, hfinished⟩ := finished_of_mem_tallies hsplit ht'
    have hdone : t'.finished = done.length := hfinished.trans (Int.zero_add _)
    refine ⟨done, left, rfl, hdone, ?_⟩
    have hstart : (Session.start w (.start (done ++ left).length keeps)).tally.sources
        = ((done ++ left).length : Int) := rfl
    rw [hstart, List.length_append] at hsources
    omega
  refine ⟨?_, ?_, (tallies_mono hsplit 0 sources _).1, ?_, ?_⟩
  · intro number source dir u splitting inputs u' h
    exact (inputs_of_opening (hsplit number) h).notEmpty
  · obtain ⟨cases, hresults, hcases⟩ := results_runFrom hsplit 0 sources (Session.start w t)
    rw [show p.run sources (Session.start w t) = p.runFrom 0 sources (Session.start w t) from rfl,
      hresults]
    exact hcases
  · rintro keeps rfl
    exact hcovers sources w keeps
  · rintro c o s₁ rfl hgo
    refine ⟨?_, ?_⟩
    · rw [Harness.run_eq, Step.bind_ok hgo, Step.bind_ok (Step.get_apply s₁)]
    · unfold Harness.goThrough at hgo
      obtain ⟨found, s₂, h₂, hgo⟩ := Step.bind_eq_ok_iff.mp hgo
      obtain ⟨w₀, -, rfl⟩ := Session.inWorld_eq_ok h₂
      obtain ⟨_, s₃, h₃, hgo⟩ := Step.bind_eq_ok_iff.mp hgo
      cases h₃
      -- the tally that is handed on to the summary is the last of the run
      have hlast := getLast?_tallies (Harness.plan c o) 0 found
        (Session.start w₀ (.start found.length o.report.isSome))
      have hrun : (Harness.plan c o).runFrom 0 found
          (Session.start w₀ (.start found.length o.report.isSome)) = .ok () s₁ := hgo
      rw [hrun] at hlast
      obtain ⟨done, left, -, -, hle⟩ :=
        hcovers found w₀ o.report.isSome s₁.tally (List.mem_of_getLast? hlast)
      show s₁.tally.finished ≤ s₁.tally.sources
      omega

/-- The world of a run whose first source is split into two, and neither of whose sources
    compiles. -/
def Trial.parting : World :=
  { Harness.Trial.world with
    script :=
      [.idle, { Process.idle with stdout := Text.encode "a1 a2" },
        { Process.idle with exitCode := 1 }, { Process.idle with exitCode := 1 },
        { Process.idle with exitCode := 1 }] }

/-- A run over two sources, which has counted three. -/
theorem parted_source_is_conserved :
    ∃ s₁, Harness.goThrough Harness.Trial.configuration Harness.Trial.options
        (Session.start Trial.parting (.start 0 false)) = .ok () s₁
      ∧ s₁.tally.sources = 3 ∧ s₁.tally.finished = 2
      ∧ s₁.tally.tested + s₁.tally.uncompilable ≤ s₁.tally.sources := by
  obtain ⟨_, s₁, hgo, hsources, hfinished⟩ := Step.exists_of_checks
    (r := Harness.goThrough Harness.Trial.configuration Harness.Trial.options
      (Session.start Trial.parting (.start 0 false)))
    (P := fun _ s₁ => s₁.tally.sources = 3 ∧ s₁.tally.finished = 2) (by decide +kernel)
  obtain ⟨-, -, -, -, hsummary⟩ := sources_conserved
    (p := Harness.plan Harness.Trial.configuration Harness.Trial.options) (fun _ => rfl) []
    Trial.parting (.start 0 false)
  exact ⟨s₁, hgo, hsources, hfinished, (hsummary _ _ s₁ rfl hgo).2⟩

end Plan

end RoundTrip
