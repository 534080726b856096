import RoundTrip.Disk.Edit

/-! # Where a look-up leads

    `locate` recurses on names and, within that, on the links that may still be
    followed.  What can come of one name is said once, by `AtName`.  This file turns
    successful look-ups into derivations: `Leads` has one rule for each way on, and
    **`locate_eq_ok_iff`** says that the two agree.  A look-up of a target fails in one
    way that does not say that there is nothing: a name is too long
    (`saysAbsent_of_locate`).

    Everything else goes by induction on derivations:

    * `Leads.append_inv` cuts a look-up of `xs ++ ys` at the place where `xs`
      leads;
    * `Leads.unique` says that names lead to one place, however many links may
      be followed;
    * `Leads.transfer` carries a look-up to another disk that has the same
      directories and links, and possibly more;
    * `Leads.within` keeps a look-up below a directory without links. -/

namespace RoundTrip.Disk

/-- What must hold before a name is looked up in a directory. -/
structure Enterable (d : Disk) (aim : Aim) (here : Place) (n : String) (rest : List String) :
    Prop where
  isDir : d.get? here = some .dir
  isName : Path.isName n = true
  notUp : n ≠ ".."
  noTrailing : ¬(aim = .newFile ∧ rest ≠ [] ∧ rest.all (· == "") = true)
  short : n.utf8ByteSize ≤ nameLimit

/-- Only a file that is to be written asks what follows its name. -/
theorem Enterable.other {d : Disk} {aim aim' : Aim} {here : Place} {n : String}
    {rest rest' : List String} (h : Enterable d aim here n rest) (ha : aim' ≠ .newFile) :
    Enterable d aim' here n rest' :=
  ⟨h.isDir, h.isName, h.notUp, fun hf => ha hf.1, h.short⟩

/-- An entry can be looked up for anything if what follows its name does not end in
    an empty name. -/
theorem Enterable.ofEntry {d : Disk} {here : Place} {n : String} {rest : List String}
    (h : Enterable d .entry here n rest) (hlast : rest.getLast? ≠ some "") (aim : Aim) :
    Enterable d aim here n rest := by
  refine ⟨h.isDir, h.isName, h.notUp, ?_, h.short⟩
  rintro ⟨-, hne, hall⟩
  rw [List.getLast?_eq_some_getLast hne] at hlast
  exact hlast (congrArg some (eq_of_beq (List.all_eq_true.mp hall _ (List.getLast_mem hne))))

/-- Names lead from a place to a place, through at most so many links. -/
inductive Leads (d : Disk) (aim : Aim) : Nat → Place → List String → Place → Prop where
  | stop (links : Nat) (here : Place) : Leads d aim links here [] here
  /-- An empty name or `.` stays where it is. -/
  | skip {links : Nat} {here q : Place} {n : String} {rest : List String}
      (isDir : d.get? here = some .dir) (hn : Path.isName n = false)
      (tail : Leads d aim links here rest q) : Leads d aim links here (n :: rest) q
  | up {links : Nat} {here q : Place} {rest : List String}
      (isDir : d.get? here = some .dir)
      (tail : Leads d aim links here.dropLast rest q) : Leads d aim links here (".." :: rest) q
  /-- Only the last name may have nothing behind it. -/
  | missing {links : Nat} {here : Place} {n : String}
      (h : Enterable d aim here n []) (hn : d.get? (here ++ [n]) = none) :
      Leads d aim links here [n] (here ++ [n])
  /-- A link is looked up itself if it is the last name and the entry is aimed at. -/
  | link {links : Nat} {here : Place} {n target : String}
      (h : Enterable d aim here n []) (hn : d.get? (here ++ [n]) = some (.link target))
      (ha : aim = .entry) : Leads d aim links here [n] (here ++ [n])
  | follow {links : Nat} {here q : Place} {n target : String} {rest : List String}
      (h : Enterable d aim here n rest) (hn : d.get? (here ++ [n]) = some (.link target))
      (hf : ¬(rest = [] ∧ aim = .entry))
      (tail : Leads d aim links (targetStart here target) (Path.splitSlashes target ++ rest) q) :
      Leads d aim (links + 1) here (n :: rest) q
  | enter {links : Nat} {here q : Place} {n : String} {rest : List String} {node : Node}
      (h : Enterable d aim here n rest) (hn : d.get? (here ++ [n]) = some node)
      (hl : ∀ target, node ≠ .link target)
      (tail : Leads d aim links (here ++ [n]) rest q) : Leads d aim links here (n :: rest) q

/-! ## The equations of a look-up -/

section Equations

variable {onLink : Place → List String → Except Errno Place} {d : Disk} {aim : Aim}
  {here q : Place} {n : String} {rest : List String}

theorem locateWith_skip (hd : d.get? here = some .dir) (hn : Path.isName n = false) :
    locateWith onLink d aim here (n :: rest) = locateWith onLink d aim here rest := by
  rw [locateWith, hd]
  simp [hn]

/-- Two dots lead to the directory above, and from the root nowhere else. -/
theorem locateWith_up (hd : d.get? here = some .dir) :
    locateWith onLink d aim here (".." :: rest) = locateWith onLink d aim here.dropLast rest := by
  have hn : Path.isName ".." = true := by decide
  rw [locateWith, hd]
  simp [hn]

/-- A name that passed the tests is decided by what stands behind it. -/
theorem locateWith_enterable (h : Enterable d aim here n rest) :
    locateWith onLink d aim here (n :: rest)
      = match d.get? (here ++ [n]) with
        | none => if rest.isEmpty then .ok (here ++ [n]) else .error .noEntry
        | some (.link target) =>
            if rest.isEmpty && aim == .entry then .ok (here ++ [n])
            else onLink (targetStart here target) (Path.splitSlashes target ++ rest)
        | some _ => locateWith onLink d aim (here ++ [n]) rest := by
  have hname : ¬(!Path.isName n) = true := by simp [h.isName]
  have hshort : ¬nameLimit < n.utf8ByteSize := Nat.not_lt.mpr h.short
  rw [locateWith, h.isDir]
  exact (if_neg hname).trans <| (if_neg h.notUp).trans <| (if_neg h.noTrailing).trans <|
    if_neg hshort

/-- Where nothing stands under a name, the way ends there or fails. -/
theorem locateWith_missing (h : Enterable d aim here n rest) (hn : d.get? (here ++ [n]) = none) :
    locateWith onLink d aim here (n :: rest)
      = if rest = [] then .ok (here ++ [n]) else .error .noEntry := by
  rw [locateWith_enterable h, hn]
  simp

/-- A link is followed, unless the entry itself is asked for. -/
theorem locateWith_link {target : String} (h : Enterable d aim here n rest)
    (hn : d.get? (here ++ [n]) = some (.link target)) :
    locateWith onLink d aim here (n :: rest)
      = if rest = [] ∧ aim = .entry then .ok (here ++ [n])
        else onLink (targetStart here target) (Path.splitSlashes target ++ rest) := by
  rw [locateWith_enterable h, hn]
  simp

theorem locateWith_enter {node : Node} (h : Enterable d aim here n rest)
    (hn : d.get? (here ++ [n]) = some node) (hl : ∀ target, node ≠ .link target) :
    locateWith onLink d aim here (n :: rest) = locateWith onLink d aim (here ++ [n]) rest := by
  rw [locateWith_enterable h, hn]
  cases node with
  | link target => exact absurd rfl (hl target)
  | file content => rfl
  | dir => rfl

end Equations

/-! ## What a look-up comes to at a name -/

/-- At a name a look-up fails in a test, or is decided by what stands behind the name, or
    goes on with the names that are left. -/
inductive AtName (onLink : Place → List String → Except Errno Place) (d : Disk) (aim : Aim)
    (here : Place) (n : String) (rest : List String) : Except Errno Place → Prop where
  | nowhere (hhere : d.get? here = none) : AtName onLink d aim here n rest (.error .noEntry)
  | noDir (hhere : d.get? here ≠ some .dir) : AtName onLink d aim here n rest (.error .notDirectory)
  | skip (isDir : d.get? here = some .dir) (hn : Path.isName n = false) :
      AtName onLink d aim here n rest (locateWith onLink d aim here rest)
  | up (isDir : d.get? here = some .dir) (hn : n = "..") :
      AtName onLink d aim here n rest (locateWith onLink d aim here.dropLast rest)
  | trailing (ha : aim = .newFile) : AtName onLink d aim here n rest (.error .isDirectory)
  | tooLong (hn : nameLimit < n.utf8ByteSize) :
      AtName onLink d aim here n rest (.error .nameTooLong)
  | missing (h : Enterable d aim here n rest) (hn : d.get? (here ++ [n]) = none)
      (hrest : rest = []) : AtName onLink d aim here n rest (.ok (here ++ [n]))
  | missingBefore (h : Enterable d aim here n rest) (hn : d.get? (here ++ [n]) = none)
      (hrest : rest ≠ []) : AtName onLink d aim here n rest (.error .noEntry)
  | link {target : String} (h : Enterable d aim here n rest)
      (hn : d.get? (here ++ [n]) = some (.link target)) (hrest : rest = []) (ha : aim = .entry) :
      AtName onLink d aim here n rest (.ok (here ++ [n]))
  | follow {target : String} (h : Enterable d aim here n rest)
      (hn : d.get? (here ++ [n]) = some (.link target)) (hf : ¬(rest = [] ∧ aim = .entry)) :
      AtName onLink d aim here n rest
        (onLink (targetStart here target) (Path.splitSlashes target ++ rest))
  | enter {node : Node} (h : Enterable d aim here n rest) (hn : d.get? (here ++ [n]) = some node)
      (hl : ∀ target, node ≠ .link target) :
      AtName onLink d aim here n rest (locateWith onLink d aim (here ++ [n]) rest)

/-- What comes of a name that passed the tests. -/
theorem Enterable.atName {d : Disk} {aim : Aim} {here : Place} {n : String} {rest : List String}
    (h : Enterable d aim here n rest) (onLink : Place → List String → Except Errno Place) :
    AtName onLink d aim here n rest (locateWith onLink d aim here (n :: rest)) := by
  cases hn : d.get? (here ++ [n]) with
  | none =>
      rw [locateWith_missing h hn]
      split
      · exact .missing h hn ‹_›
      · exact .missingBefore h hn ‹_›
  | some node =>
      cases node with
      | link target =>
          rw [locateWith_link h hn]
          split
          · rename_i hf
            exact .link h hn hf.1 hf.2
          · exact .follow h hn ‹_›
      | file content =>
          rw [locateWith_enter h hn nofun]
          exact .enter h hn nofun
      | dir =>
          rw [locateWith_enter h hn nofun]
          exact .enter h hn nofun

/-- **Every look-up comes to one of these.** -/
theorem atName (onLink : Place → List String → Except Errno Place) (d : Disk) (aim : Aim)
    (here : Place) (n : String) (rest : List String) :
    AtName onLink d aim here n rest (locateWith onLink d aim here (n :: rest)) := by
  cases hd : d.get? here with
  | none =>
      rw [locateWith, hd]
      exact .nowhere hd
  | some node =>
      cases node with
      | file content =>
          rw [locateWith, hd]
          exact .noDir (by rw [hd]; exact nofun)
      | link target =>
          rw [locateWith, hd]
          exact .noDir (by rw [hd]; exact nofun)
      | dir =>
          cases hn : Path.isName n with
          | false =>
              rw [locateWith_skip hd hn]
              exact .skip hd hn
          | true =>
              -- the tests come in the order in which the system makes them
              by_cases hu : n = ".."
              · subst hu
                rw [locateWith_up hd]
                exact .up hd rfl
              by_cases ht : aim = .newFile ∧ rest ≠ [] ∧ rest.all (· == "") = true
              · rw [locateWith, hd]
                simp only [hn, Bool.not_true, Bool.false_eq_true, if_false, if_neg hu, if_pos ht]
                exact .trailing ht.1
              by_cases hs : nameLimit < n.utf8ByteSize
              · rw [locateWith, hd]
                simp only [hn, Bool.not_true, Bool.false_eq_true, if_false, if_neg hu, if_neg ht,
                  if_pos hs]
                exact .tooLong hs
              · exact Enterable.atName ⟨hd, hn, hu, ht, Nat.le_of_not_lt hs⟩ onLink

/-! ## Look-ups are derivations -/

/-- A successful look-up is a derivation, provided that the look-ups behind its
    links are. -/
theorem leads_of_locateWith {d : Disk} {aim : Aim} {links : Nat}
    {onLink : Place → List String → Except Errno Place}
    (hlink : ∀ here names q, onLink here names = .ok q →
      ∃ fewer, links = fewer + 1 ∧ Leads d aim fewer here names q) :
    ∀ (names : List String) (here q : Place),
      locateWith onLink d aim here names = .ok q → Leads d aim links here names q := by
  intro names
  induction names with
  | nil =>
      intro here q h
      rw [locateWith] at h
      cases h
      exact .stop links _
  | cons n rest ih =>
      intro here q h
      have hat := atName onLink d aim here n rest
      generalize locateWith onLink d aim here (n :: rest) = r at hat h
      cases hat with
      | skip isDir hn => exact .skip isDir hn (ih _ _ h)
      | up isDir hn =>
          subst hn
          exact .up isDir (ih _ _ h)
      | missing he hn hrest =>
          subst hrest
          cases h
          exact .missing he hn
      | link he hn hrest ha =>
          subst hrest
          cases h
          exact .link he hn ha
      -- a link takes one from the number of links that may be followed
      | follow he hn hf =>
          obtain ⟨fewer, rfl, tail⟩ := hlink _ _ _ h
          exact .follow he hn hf tail
      | enter he hn hl => exact .enter he hn hl (ih _ _ h)
      | nowhere | noDir | trailing | tooLong | missingBefore => cases h

/-- What a look-up delivers is where the names lead. -/
theorem leads_of_locate {d : Disk} {aim : Aim} {links : Nat} :
    ∀ {here q : Place} {names : List String},
      d.locate aim links here names = .ok q → Leads d aim links here names q := by
  induction links with
  | zero =>
      intro here q names h
      refine leads_of_locateWith ?_ names here q h
      intro _ _ _ hlink
      cases hlink
  | succ links ih =>
      intro here q names h
      exact leads_of_locateWith (fun _ _ _ h => ⟨links, rfl, ih h⟩) names here q h

/-- Where the names lead is what a look-up delivers. -/
theorem locate_of_leads {d : Disk} {aim : Aim} {links : Nat} {here q : Place}
    {names : List String} (h : Leads d aim links here names q) :
    d.locate aim links here names = .ok q := by
  -- a look-up is the same recursion on names whatever it does at links
  have unfold_locate : ∀ k, ∃ onLink, d.locate aim k = locateWith onLink d aim ∧
      ∀ fewer, k = fewer + 1 → onLink = d.locate aim fewer := by
    intro k
    cases k with
    | zero => exact ⟨_, rfl, fun _ hk => nomatch hk⟩
    | succ k => exact ⟨_, rfl, fun _ hk => by cases hk; rfl⟩
  induction h with
  | stop links here =>
      obtain ⟨onLink, hk, -⟩ := unfold_locate links
      rw [hk, locateWith]
  | @skip links here q n rest isDir hn tail ih =>
      obtain ⟨onLink, hk, -⟩ := unfold_locate links
      rw [hk] at ih ⊢
      rw [locateWith_skip isDir hn, ih]
  | @up links here q rest isDir tail ih =>
      obtain ⟨onLink, hk, -⟩ := unfold_locate links
      rw [hk] at ih ⊢
      rw [locateWith_up isDir, ih]
  | @missing links here n he hn =>
      obtain ⟨onLink, hk, -⟩ := unfold_locate links
      rw [hk, locateWith_missing he hn, if_pos rfl]
  | @link links here n target he hn ha =>
      obtain ⟨onLink, hk, -⟩ := unfold_locate links
      rw [hk, locateWith_link he hn, if_pos ⟨rfl, ha⟩]
  | @follow links here q n target rest he hn hf tail ih =>
      obtain ⟨onLink, hk, hlink⟩ := unfold_locate (links + 1)
      rw [hk, locateWith_link he hn, if_neg hf, hlink links rfl, ih]
  | @enter links here q n rest node he hn hl tail ih =>
      obtain ⟨onLink, hk, -⟩ := unfold_locate links
      rw [hk] at ih ⊢
      rw [locateWith_enter he hn hl, ih]

/-- **Look-ups are derivations.** -/
theorem locate_eq_ok_iff {d : Disk} {aim : Aim} {links : Nat} {here q : Place}
    {names : List String} :
    d.locate aim links here names = .ok q ↔ Leads d aim links here names q :=
  ⟨leads_of_locate, locate_of_leads⟩

/-! ## Why a look-up fails -/

/-- Except for a name that is too long, a look-up fails because there is nothing. -/
theorem saysAbsent_of_locateWith {onLink : Place → List String → Except Errno Place}
    (hlink : ∀ here names e, onLink here names = .error e → e = .nameTooLong ∨ e.saysAbsent = true)
    {d : Disk} {here : Place} {names : List String} {e : Errno}
    (h : locateWith onLink d .target here names = .error e) :
    e = .nameTooLong ∨ e.saysAbsent = true := by
  induction names generalizing here with
  | nil => cases h
  | cons n rest ih =>
      have hat := atName onLink d .target here n rest
      generalize locateWith onLink d .target here (n :: rest) = r at hat h
      cases hat with
      | tooLong =>
          cases h
          exact Or.inl rfl
      | nowhere | noDir | missingBefore =>
          cases h
          exact Or.inr rfl
      | skip | up | enter => exact ih h
      | follow => exact hlink _ _ _ h
      | trailing ha => cases ha
      | missing | link => cases h

theorem saysAbsent_of_locate {d : Disk} {links : Nat} {here : Place} {names : List String}
    {e : Errno}
    (h : d.locate .target links here names = .error e) :
    e = .nameTooLong ∨ e.saysAbsent = true := by
  induction links generalizing here names e with
  | zero =>
      refine saysAbsent_of_locateWith (fun _ _ e he => ?_) h
      cases he
      exact Or.inr rfl
  | succ links ih => exact saysAbsent_of_locateWith (fun _ _ _ he => ih he) h

namespace Leads

variable {d d' : Disk} {aim : Aim} {links : Nat} {here p q : Place} {n : String}
  {names xs ys : List String}

/-! ## Cutting a look-up -/

/-- A name that is looked up and is no `..` and no empty name leads to the entry
    of that name, unless it is a link that is followed. -/
theorem single_inv (h : Leads d aim links here [n] q) (hn : Path.isName n = true) (hu : n ≠ "..")
    (hl : ∀ target, d.get? (here ++ [n]) = some (.link target) → aim = .entry) :
    q = here ++ [n] ∧ d.get? here = some .dir := by
  cases h with
  | skip isDir hn' tail => rw [hn] at hn'; cases hn'
  | up isDir tail => exact absurd rfl hu
  | missing he hg => exact ⟨rfl, he.isDir⟩
  | link he hg ha => exact ⟨rfl, he.isDir⟩
  | follow he hg hf tail => exact absurd ⟨rfl, hl _ hg⟩ hf
  | enter he hg hl tail =>
      cases tail
      exact ⟨rfl, he.isDir⟩

/-- A look-up of `xs ++ ys` goes through the place where `xs` leads. -/
theorem append_inv (h : Leads d aim links here (xs ++ ys) q) (hys : ys ≠ []) :
    ∃ middle fewer,
      Leads d .target links here xs middle ∧ Leads d aim fewer middle ys q := by
  -- the induction is on the derivation, for every way to cut its names
  generalize hz : xs ++ ys = names at h
  induction h generalizing xs with
  | stop links here =>
      obtain ⟨-, rfl⟩ := List.append_eq_nil_iff.mp hz
      exact absurd rfl hys
  | @skip links here q n rest isDir hn tail ih =>
      rcases List.append_eq_cons_iff.mp hz with ⟨rfl, rfl⟩ | ⟨xs', rfl, rfl⟩
      · exact ⟨here, links, .stop _ _, .skip isDir hn tail⟩
      · obtain ⟨middle, fewer, hx, hy⟩ := ih rfl
        exact ⟨middle, fewer, .skip isDir hn hx, hy⟩
  | @up links here q rest isDir tail ih =>
      rcases List.append_eq_cons_iff.mp hz with ⟨rfl, rfl⟩ | ⟨xs', rfl, rfl⟩
      · exact ⟨here, links, .stop _ _, .up isDir tail⟩
      · obtain ⟨middle, fewer, hx, hy⟩ := ih rfl
        exact ⟨middle, fewer, .up isDir hx, hy⟩
  | @missing links here n he hn =>
      rcases List.append_eq_cons_iff.mp hz with ⟨rfl, rfl⟩ | ⟨xs', rfl, hr⟩
      · exact ⟨here, links, .stop _ _, .missing he hn⟩
      · exact absurd (List.append_eq_nil_iff.mp hr.symm).2 hys
  | @link links here n target he hn ha =>
      rcases List.append_eq_cons_iff.mp hz with ⟨rfl, rfl⟩ | ⟨xs', rfl, hr⟩
      · exact ⟨here, links, .stop _ _, .link he hn ha⟩
      · exact absurd (List.append_eq_nil_iff.mp hr.symm).2 hys
  | @follow links here q n target rest he hn hf tail ih =>
      rcases List.append_eq_cons_iff.mp hz with ⟨rfl, rfl⟩ | ⟨xs', rfl, rfl⟩
      · exact ⟨here, links + 1, .stop _ _, .follow he hn hf tail⟩
      · obtain ⟨middle, fewer, hx, hy⟩ := ih (List.append_assoc _ _ _)
        exact ⟨middle, fewer, .follow (he.other (by simp)) hn (by simp) hx, hy⟩
  | @enter links here q n rest node he hn hl tail ih =>
      rcases List.append_eq_cons_iff.mp hz with ⟨rfl, rfl⟩ | ⟨xs', rfl, rfl⟩
      · exact ⟨here, links, .stop _ _, .enter he hn hl tail⟩
      · obtain ⟨middle, fewer, hx, hy⟩ := ih rfl
        exact ⟨middle, fewer, .enter (he.other (by simp)) hn hl hx, hy⟩

/-- Where a name stays where it is, the names around it lead to the same place without it. -/
theorem without_skip (h : Leads d .target links here (xs ++ n :: ys) q)
    (hskip : Path.isName n = false) : Leads d .target links here (xs ++ ys) q := by
  -- the induction is on the derivation, for every way to cut its names
  generalize hz : xs ++ n :: ys = names at h
  induction h generalizing xs with
  | stop => exact absurd (List.append_eq_nil_iff.mp hz).2 (List.cons_ne_nil _ _)
  | skip isDir hn tail ih =>
      rcases List.append_eq_cons_iff.mp hz with ⟨rfl, hy⟩ | ⟨xs', rfl, rfl⟩
      · cases hy
        exact tail
      · exact .skip isDir hn (ih rfl)
  | up isDir tail ih =>
      rcases List.append_eq_cons_iff.mp hz with ⟨rfl, hy⟩ | ⟨xs', rfl, rfl⟩
      · cases hy
        cases hskip
      · exact .up isDir (ih rfl)
  | missing he hn =>
      rcases List.append_eq_cons_iff.mp hz with ⟨rfl, hy⟩ | ⟨xs', rfl, hr⟩
      · cases hy
        cases he.isName.symm.trans hskip
      · exact absurd (List.append_eq_nil_iff.mp hr.symm).2 (List.cons_ne_nil _ _)
  | link he hn ha => cases ha
  | follow he hn hf tail ih =>
      rcases List.append_eq_cons_iff.mp hz with ⟨rfl, hy⟩ | ⟨xs', rfl, rfl⟩
      · cases hy
        cases he.isName.symm.trans hskip
      · refine .follow (he.other (by simp)) hn (fun hentry => nomatch hentry.2) ?_
        have htail := ih (List.append_assoc _ _ _)
        rwa [List.append_assoc] at htail
  | enter he hn hl tail ih =>
      rcases List.append_eq_cons_iff.mp hz with ⟨rfl, hy⟩ | ⟨xs', rfl, rfl⟩
      · cases hy
        cases he.isName.symm.trans hskip
      · exact .enter (he.other (by simp)) hn hl (ih rfl)

/-! ## One place, whatever the budget -/

/-- Names lead to at most one place. -/
theorem unique {fewer : Nat} (hp : Leads d aim links here names p)
    (hq : Leads d aim fewer here names q) : p = q := by
  -- the induction is on one of the two ways; at each name only the rule that was applied there
  -- fits the other
  induction hp generalizing fewer with
  | stop links here =>
      cases hq
      rfl
  | @skip links here p n rest isDir hn tail ih =>
      cases hq with
      | skip _ _ tail' => exact ih tail'
      | up _ tail' => exact absurd hn (by decide)
      | missing he => exact absurd he.isName (by simp [hn])
      | link he => exact absurd he.isName (by simp [hn])
      | follow he => exact absurd he.isName (by simp [hn])
      | enter he => exact absurd he.isName (by simp [hn])
  | @up links here p rest isDir tail ih =>
      cases hq with
      | skip _ hn tail' => exact absurd hn (by decide)
      | up _ tail' => exact ih tail'
      | missing he => exact absurd rfl he.notUp
      | link he => exact absurd rfl he.notUp
      | follow he => exact absurd rfl he.notUp
      | enter he => exact absurd rfl he.notUp
  | @missing links here n he hn =>
      exact (single_inv hq he.isName he.notUp (by simp [hn])).1.symm
  | @link links here n target he hn ha =>
      exact (single_inv hq he.isName he.notUp (fun _ _ => ha)).1.symm
  | @follow links here p n target rest he hn hf tail ih =>
      cases hq with
      | skip _ hn' => exact absurd he.isName (by simp [hn'])
      | up => exact absurd rfl he.notUp
      | missing _ hn' => exact absurd (hn.symm.trans hn') (by simp)
      | link _ hn' ha => exact absurd ⟨rfl, ha⟩ hf
      | follow _ hn' _ tail' =>
          cases hn.symm.trans hn'
          exact ih tail'
      | enter _ hn' hl => exact absurd (Option.some.inj (hn'.symm.trans hn)) (hl _)
  | @enter links here p n rest node he hn hl tail ih =>
      cases hq with
      | skip _ hn' => exact absurd he.isName (by simp [hn'])
      | up => exact absurd rfl he.notUp
      | missing _ hn' => exact absurd (hn.symm.trans hn') (by simp)
      | link _ hn' => exact absurd (Option.some.inj (hn.symm.trans hn')) (hl _)
      | follow _ hn' => exact absurd (Option.some.inj (hn.symm.trans hn')) (hl _)
      | enter _ _ _ tail' => exact ih tail'

/-- What is written is looked up like a target. -/
theorem target_of_newFile (h : Leads d .newFile links here names q) :
    Leads d .target links here names q := by
  induction h with
  | stop links here => exact .stop _ _
  | skip isDir hn tail ih => exact .skip isDir hn ih
  | up isDir tail ih => exact .up isDir ih
  | missing he hn => exact .missing (he.other (by simp)) hn
  | link he hn ha => cases ha
  | follow he hn hf tail ih => exact .follow (he.other (by simp)) hn (fun hf => nomatch hf.2) ih
  | enter he hn hl tail ih => exact .enter (he.other (by simp)) hn hl ih

theorem getLast?_tail_ne {n x : String} {rest : List String}
    (h : (n :: rest).getLast? ≠ some x) : rest.getLast? ≠ some x := by
  cases rest with
  | nil => simp
  | cons m rest => rwa [List.getLast?_cons_cons] at h

/-- Where the last name is not empty and leads to no link, it does not matter what
    the look-up is for. -/
theorem of_entry (h : Leads d .entry links here names q) (hlast : names.getLast? ≠ some "")
    (hq : ∀ target, d.get? q ≠ some (.link target)) (aim : Aim) :
    Leads d aim links here names q := by
  induction h with
  | stop links here => exact .stop _ _
  | skip isDir hn tail ih => exact .skip isDir hn (ih (getLast?_tail_ne hlast) hq)
  | up isDir tail ih => exact .up isDir (ih (getLast?_tail_ne hlast) hq)
  | missing he hn => exact .missing (he.ofEntry (by simp) aim) hn
  | link he hn ha => exact absurd hn (hq _)
  | @follow links here q n target rest he hn hf tail ih =>
      have hr : rest ≠ [] := fun hr => hf ⟨hr, rfl⟩
      have hlast' := getLast?_tail_ne hlast
      refine .follow (he.ofEntry hlast' aim) hn (fun h => hr h.1) (ih ?_ hq)
      rw [List.getLast?_append, List.getLast?_eq_some_getLast hr]
      rwa [List.getLast?_eq_some_getLast hr] at hlast'
  | enter he hn hl tail ih =>
      have hlast' := getLast?_tail_ne hlast
      exact .enter (he.ofEntry hlast' aim) hn hl (ih hlast' hq)

/-- Where a target is, there is an entry. -/
theorem exists_entry (h : Leads d .target links here names q) (hq : (d.get? q).isSome) :
    ∃ p, Leads d .entry links here names p ∧ (d.get? p).isSome := by
  induction h with
  | stop links here => exact ⟨here, .stop _ _, hq⟩
  | skip isDir hn tail ih =>
      obtain ⟨p, hp, hs⟩ := ih hq
      exact ⟨p, .skip isDir hn hp, hs⟩
  | up isDir tail ih =>
      obtain ⟨p, hp, hs⟩ := ih hq
      exact ⟨p, .up isDir hp, hs⟩
  | missing he hn => simp [hn] at hq
  | link he hn ha => cases ha
  | @follow links here q n target rest he hn hf tail ih =>
      by_cases hr : rest = []
      · subst hr
        exact ⟨here ++ [n], .link (he.other (by simp)) hn rfl, by simp [hn]⟩
      · obtain ⟨p, hp, hs⟩ := ih hq
        exact ⟨p, .follow (he.other (by simp)) hn (fun hf => hr hf.1) hp, hs⟩
  | @enter links here q n rest node he hn hl tail ih =>
      obtain ⟨p, hp, hs⟩ := ih hq
      exact ⟨p, .enter (he.other (by simp)) hn hl hp, hs⟩

/-- A look-up that follows the last link leads to no link, if it starts where
    neither the place nor one above it is a link. -/
theorem noLink (h : Leads d aim links here names q) (ha : aim ≠ .entry)
    (hhere : ∀ p, p <+: here → ∀ target, d.get? p ≠ some (.link target)) :
    ∀ target, d.get? q ≠ some (.link target) := by
  induction h with
  | stop links here => exact hhere here (List.prefix_refl _)
  | skip isDir hn tail ih => exact ih hhere
  | up isDir tail ih => exact ih fun p hp => hhere p (hp.trans (List.dropLast_prefix _))
  | missing he hn => simp [hn]
  | link he hn hentry => exact absurd hentry ha
  | @follow links here q n target rest he hn hf tail ih =>
      refine ih ?_
      unfold targetStart
      split
      · exact hhere
      · intro p hp
        rw [List.prefix_nil.mp hp]
        exact fun _ hlink => nomatch hlink
  | @enter links here q n rest node he hn hl tail ih =>
      refine ih fun p hp target hlink => ?_
      rcases List.prefix_concat_iff.mp hp with rfl | hp
      · exact hl target (Option.some.inj (hn.symm.trans hlink))
      · exact hhere p hp target hlink

/-- A name is looked up in a directory. -/
theorem head_isDir (h : Leads d aim links here (n :: names) q) : d.get? here = some .dir := by
  cases h with
  | skip isDir => exact isDir
  | up isDir => exact isDir
  | missing he => exact he.isDir
  | link he => exact he.isDir
  | follow he => exact he.isDir
  | enter he => exact he.isDir

/-- Along a path that leads to something there is an entry at every name. -/
theorem isSome_along {fewer : Nat} (h : Leads d .target links here names p)
    (hp : (d.get? p).isSome) (hx : xs <+: names) (hq : Leads d .entry fewer here xs q) :
    (d.get? q).isSome := by
  obtain ⟨ys, rfl⟩ := hx
  have htarget : ∃ middle, Leads d .target links here xs middle ∧ (d.get? middle).isSome := by
    cases ys with
    | nil => exact ⟨p, by simpa using h, hp⟩
    | cons y ys =>
        obtain ⟨middle, fewer, hm, htail⟩ := h.append_inv (List.cons_ne_nil _ _)
        exact ⟨middle, hm, by simp [htail.head_isDir]⟩
  obtain ⟨middle, hm, hs⟩ := htarget
  obtain ⟨entry, he, hsome⟩ := hm.exists_entry hs
  cases hq.unique he
  exact hsome

/-! ## Look-ups on other disks -/

/-- A look-up depends on directories and links alone.  It leads to the same place
    on a disk that has them too, unless that place has become a link. -/
theorem transfer (h : Leads d aim links here names q)
    (hdir : ∀ p, d.get? p = some .dir → d'.get? p = some .dir)
    (hlink : ∀ p target, d.get? p = some (.link target) → d'.get? p = some (.link target))
    (hq : ∀ target, d'.get? q = some (.link target) → aim = .entry) :
    Leads d' aim links here names q := by
  have enterable : ∀ {here : Place} {n : String} {rest : List String},
      Enterable d aim here n rest → Enterable d' aim here n rest :=
    fun he => ⟨hdir _ he.isDir, he.isName, he.notUp, he.noTrailing, he.short⟩
  -- the last name may have got another node than it had
  have last : ∀ {links : Nat} {here : Place} {n : String}, Enterable d aim here n [] →
      (∀ target, d'.get? (here ++ [n]) = some (.link target) → aim = .entry) →
      Leads d' aim links here [n] (here ++ [n]) := by
    intro links here n he hq
    cases hg : d'.get? (here ++ [n]) with
    | none => exact .missing (enterable he) hg
    | some node =>
        by_cases hl : ∃ target, node = .link target
        · obtain ⟨target, rfl⟩ := hl
          exact .link (enterable he) hg (hq _ hg)
        · exact .enter (enterable he) hg (fun t ht => hl ⟨t, ht⟩) (.stop _ _)
  induction h with
  | stop links here => exact .stop _ _
  | skip isDir hn tail ih => exact .skip (hdir _ isDir) hn (ih hq)
  | up isDir tail ih => exact .up (hdir _ isDir) (ih hq)
  | missing he hn => exact last he hq
  | link he hn ha => exact last he hq
  | follow he hn hf tail ih => exact .follow (enterable he) (hlink _ _ hn) hf (ih hq)
  | @enter links here q n rest node he hn hl tail ih =>
      cases node with
      | link target => exact absurd rfl (hl target)
      | dir => exact .enter (enterable he) (hdir _ hn) hl (ih hq)
      | file content =>
          -- behind a file nothing is looked up any more
          cases tail with
          | stop => exact last he hq
          | skip isDir => rw [hn] at isDir; cases isDir
          | up isDir => rw [hn] at isDir; cases isDir
          | missing he' => exact absurd he'.isDir (by simp [hn])
          | link he' => exact absurd he'.isDir (by simp [hn])
          | follow he' => exact absurd he'.isDir (by simp [hn])
          | enter he' => exact absurd he'.isDir (by simp [hn])

/-! ## Look-ups below a directory without links -/

/-- Where no links are and no name goes up, a look-up stays below the places it
    goes through. -/
theorem within (h : Leads d aim links here names q)
    (hlink : ∀ rest target, d.get? (here ++ rest) ≠ some (.link target))
    (hup : ".." ∉ names) : here <+: q := by
  induction h with
  | stop links here => exact List.prefix_refl _
  | skip isDir hn tail ih => exact ih hlink (fun hm => hup (List.mem_cons_of_mem _ hm))
  | up isDir tail ih => exact absurd List.mem_cons_self hup
  | missing he hn => exact List.prefix_append _ _
  | link he hn ha => exact List.prefix_append _ _
  | follow he hn hf tail ih => exact absurd hn (hlink _ _)
  | @enter links here q n rest node he hn hl tail ih =>
      have hle : here ++ [n] <+: q :=
        ih (fun rest target => by rw [List.append_assoc]; exact hlink _ _)
          (fun hm => hup (List.mem_cons_of_mem _ hm))
      exact (List.prefix_append _ _).trans hle

/-- The same for a look-up that starts with the name of an entry: it stays below
    that entry. -/
theorem within_cons (h : Leads d aim links here (n :: names) q) (hn : Path.isName n = true)
    (hlink : ∀ rest target, d.get? (here ++ rest) ≠ some (.link target))
    (hup : ".." ∉ n :: names) : here ++ [n] <+: q := by
  cases h with
  | skip isDir hn' tail => rw [hn] at hn'; cases hn'
  | up isDir tail => exact absurd List.mem_cons_self hup
  | missing he hg => exact List.prefix_refl _
  | link he hg ha => exact List.prefix_refl _
  | follow he hg hf tail => exact absurd hg (hlink _ _)
  | enter he hg hl tail =>
      refine within tail (fun rest target => ?_) (fun hm => hup (List.mem_cons_of_mem _ hm))
      rw [List.append_assoc]
      exact hlink _ _

end Leads

end RoundTrip.Disk
