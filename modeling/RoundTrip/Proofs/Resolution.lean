import RoundTrip.Disk.Resolve
import RoundTrip.Proofs.Edit

/-! # The name of a resolved path

    Resolution goes through the parts of a text.  Whatever it does on the way,
    the last part becomes the last name of the path reached, unless a link of that
    name is met: `name_resolveWith`.  Normalisation keeps a last name that is no
    `..`, so **`name_resolve`**: a resolved path has the name of the path, or a
    link of that name stands on the disk. -/

namespace RoundTrip

namespace Text

/-- A stretch without a cut is one field. -/
theorem fields_eq_singleton {α : Type} {p : α → Bool} {t : List α} (ht : ∀ x ∈ t, p x = false) :
    fields p t = [t] := by
  induction t with
  | nil => rfl
  | cons x t ih =>
      rw [fields, if_neg (by simp [ht x]), ih fun y hy => ht y (List.mem_cons_of_mem _ hy)]
      rfl

/-- A cut parts the fields before it from those after it. -/
theorem fields_append_cons {α : Type} {p : α → Bool} {c : α} (s t : List α) (hc : p c = true) :
    fields p (s ++ c :: t) = fields p s ++ fields p t := by
  induction s with
  | nil =>
      show fields p (c :: t) = [[]] ++ fields p t
      rw [fields, if_pos hc]
      rfl
  | cons x s ih =>
      rw [List.cons_append, fields, fields, ih]
      split
      · rfl
      · cases h : fields p s with
        | nil => exact absurd h (fields_ne_nil p s)
        | cons f fs => rfl

/-- A cut in front of such a stretch leaves it as the last field. -/
theorem fields_append {α : Type} {p : α → Bool} {c : α} (s : List α) {t : List α} (hc : p c = true)
    (ht : ∀ x ∈ t, p x = false) : fields p (s ++ c :: t) = fields p s ++ [t] := by
  rw [fields_append_cons s t hc, fields_eq_singleton ht]

end Text

namespace Path

/-! ## The last part of a text -/

/-- A name without a slash has no character that is one. -/
theorem isSlash_eq_false {n : String} (hn : '/' ∉ n.toList) :
    ∀ x ∈ n.toList, isSlash x = false := by
  intro x hx
  have hne : x ≠ '/' := fun h => hn (h ▸ hx)
  simpa [isSlash] using hne

/-- A name that an entry of a directory can have. -/
structure IsFileName (n : String) : Prop where
  isName : isName n = true
  notUp : n ≠ ".."
  noSlash : '/' ∉ n.toList

instance : DecidablePred IsFileName := fun n =>
  decidable_of_iff (Path.isName n = true ∧ n ≠ ".." ∧ '/' ∉ n.toList)
    ⟨fun ⟨hn, hup, hslash⟩ => ⟨hn, hup, hslash⟩, fun h => ⟨h.isName, h.notUp, h.noSlash⟩⟩

/-- A text ends in a name, which is all of it or stands behind a slash. -/
def EndsIn (s n : String) : Prop := s = n ∨ ∃ t, s = t ++ "/" ++ n

variable {n : String} {names : List String}

/-- A file name is not empty. -/
theorem IsFileName.ne_empty (hn : IsFileName n) : n ≠ "" := by
  rintro rfl
  exact absurd hn.isName (by decide)

theorem IsFileName.isSlash_eq (hn : IsFileName n) : ∀ x ∈ n.toList, isSlash x = false :=
  isSlash_eq_false hn.noSlash

/-- The name that a text ends in is the last part between slashes. -/
theorem EndsIn.splitSlashes {s : String} (h : EndsIn s n) (hn : IsFileName n) :
    ∃ parts, splitSlashes s = parts ++ [n] := by
  unfold Path.splitSlashes
  obtain rfl | ⟨t, rfl⟩ := h
  · rw [Text.fields_eq_singleton hn.isSlash_eq]
    exact ⟨[], by simp⟩
  · have htoList : (t ++ "/" ++ n).toList = t.toList ++ '/' :: n.toList := by
      simp [String.toList_append]
    rw [htoList, Text.fields_append _ rfl hn.isSlash_eq, List.map_append]
    exact ⟨(Text.fields isSlash t.toList).map String.ofList, by simp⟩

theorem joinNames_cons (n m : String) (names : List String) :
    joinNames (n :: m :: names) = n ++ "/" ++ joinNames (m :: names) := by
  unfold joinNames
  rw [List.map_cons, List.map_cons, List.intercalate_cons_cons, String.ofList_append,
    String.ofList_append, String.ofList_toList]

/-- Names that are joined end in the last of them. -/
theorem endsIn_joinNames (names : List String) (n : String) :
    EndsIn (joinNames (names ++ [n])) n := by
  induction names with
  | nil => exact Or.inl (by simp [joinNames])
  | cons m names ih =>
      obtain ⟨x, xs, hx⟩ := List.exists_cons_of_ne_nil (List.append_ne_nil_of_right_ne_nil names
        (List.cons_ne_nil n []))
      rw [hx] at ih
      right
      rw [List.cons_append, hx, joinNames_cons]
      obtain h | ⟨t, h⟩ := ih
      · exact ⟨m, by rw [h]⟩
      · exact ⟨m ++ "/" ++ t, by rw [h]; simp only [String.append_assoc]⟩

/-- So does the text of a path. -/
theorem endsIn_text {p : Path} (hp : p.names = names ++ [n]) : EndsIn p.text n := by
  have hjoin := endsIn_joinNames names n
  unfold text
  rw [if_neg (by simp [hp]), hp]
  obtain h | ⟨t, h⟩ := hjoin
  · rw [h]
    cases p.anchor with
    | here => exact Or.inl (by simp [Anchor.text])
    | root => exact Or.inr ⟨"", by simp [Anchor.text]⟩
    | doubleRoot => exact Or.inr ⟨"/", rfl⟩
  · rw [h]
    exact Or.inr ⟨p.anchor.text ++ t, by simp only [String.append_assoc]⟩

/-- The name of a path is the last of its names. -/
theorem name_of_names {p : Path} (hp : p.names = names ++ [n]) : p.name = n := by
  unfold name
  rw [hp, List.getLast?_concat]
  rfl

/-- A text that ends in a name gives it to the path that it is put behind. -/
theorem names_div {s : String} (h : EndsIn s n) (hn : IsFileName n) (p : Path) :
    ∃ above, (p / s).names = above ++ [n] := by
  obtain ⟨parts, hparts⟩ := h.splitSlashes hn
  have hnames : (ofString s).names = parts.filter isName ++ [n] := by
    show (splitSlashes s).filter isName = _
    rw [hparts, List.filter_append, List.filter_cons_of_pos hn.isName]
    rfl
  show ∃ above, (p.append (ofString s)).names = above ++ [n]
  unfold append
  split
  · exact ⟨_, hnames⟩
  · exact ⟨p.names ++ parts.filter isName, by simp [hnames]⟩

/-- A last name that is not two dots stays when two dots are dropped. -/
theorem dropDotDots_concat (names done : List String) (hn : n ≠ "..") :
    dropDotDots done (names ++ [n]) = dropDotDots done names ++ [n] := by
  induction names generalizing done with
  | nil => simp [dropDotDots, hn]
  | cons m names ih =>
      rw [List.cons_append, dropDotDots, dropDotDots]
      split
      · exact ih _
      · exact ih _

/-- An absolute path ends in the same name. -/
theorem absoluteNames_of_getLast? {p : Path} (hp : p.names.getLast? = some n) (cwd : Path) :
    ∃ above, p.absoluteNames cwd = above ++ [n] := by
  obtain ⟨names, hnames⟩ := List.getLast?_eq_some_iff.mp hp
  show ∃ above, (cwd.append p).names = _
  unfold append
  split
  · exact ⟨names, hnames⟩
  · exact ⟨cwd.names ++ names, by simp [hnames]⟩

/-! ## One more name -/

/-- To join a file name to a path is to put it behind. -/
theorem div_of_isFileName (p : Path) (hn : IsFileName n) : p / n = ⟨p.anchor, p.names ++ [n]⟩ := by
  have hread : ofString n = ⟨.here, [n]⟩ := by
    unfold ofString splitSlashes anchorOf
    rw [Text.fields_eq_singleton hn.isSlash_eq, List.map_singleton, String.ofList_toList,
      List.filter_cons_of_pos hn.isName, List.filter_nil]
    have hslash := hn.noSlash
    cases hchars : n.toList with
    | nil => rfl
    | cons c rest =>
        rw [hchars] at hslash
        have hc : c ≠ '/' := fun h => hslash (List.mem_cons.mpr (Or.inl h.symm))
        simp [hc]
  show p.append (ofString n) = _
  rw [hread]
  rfl

theorem absoluteNames_concat (p : Path) (n : String) (cwd : Path) :
    (⟨p.anchor, p.names ++ [n]⟩ : Path).absoluteNames cwd = p.absoluteNames cwd ++ [n] := by
  show (cwd.append _).names = (cwd.append p).names ++ [n]
  cases ha : p.anchor <;> simp [append, isAbsolute, ha]

/-- A name without a zero octet brings none into the path. -/
theorem holdsNul_concat (p : Path) {n : String} (hn : '\x00' ∉ n.toList) :
    (⟨p.anchor, p.names ++ [n]⟩ : Path).holdsNul = p.holdsNul := by
  simp [holdsNul, List.any_append, hn]

theorem intercalate_concat (xs : List (List Char)) (y : List Char) :
    ∃ tail, ['/'].intercalate (xs ++ [y]) = ['/'].intercalate xs ++ tail := by
  induction xs with
  | nil => exact ⟨_, rfl⟩
  | cons x xs ih =>
      obtain ⟨tail, ht⟩ := ih
      cases xs with
      | nil => exact ⟨'/' :: y, by simp [List.intercalate_cons_cons]⟩
      | cons x' xs =>
          refine ⟨tail, ?_⟩
          rw [List.cons_append, List.cons_append, List.intercalate_cons_cons,
            List.intercalate_cons_cons, ← List.cons_append, ht]
          simp

/-- A path is no longer than a path below it. -/
theorem text_le_concat (p : Path) (hn : n ≠ "") :
    p.text.utf8ByteSize ≤ (⟨p.anchor, p.names ++ [n]⟩ : Path).text.utf8ByteSize := by
  have hne : ¬(p.anchor = .here ∧ p.names ++ [n] = []) := by simp
  unfold text
  rw [if_neg hne]
  by_cases h : p.anchor = .here ∧ p.names = []
  · have hjoin : joinNames [n] = n := by simp [joinNames]
    rw [if_pos h, h.1, h.2, List.nil_append, hjoin, show Anchor.text .here = "" from rfl,
      String.empty_append]
    exact Nat.pos_of_ne_zero fun hzero => hn (String.utf8ByteSize_eq_zero_iff.mp hzero)
  · obtain ⟨tail, ht⟩ := intercalate_concat (p.names.map String.toList) n.toList
    rw [if_neg h, joinNames, joinNames, List.map_append, List.map_singleton, ht,
      String.ofList_append]
    simp only [String.utf8ByteSize_append]
    omega

/-- A last name that is not two dots stays when the path is normalized. -/
theorem normalize_concat (p : Path) (hn : n ≠ "..") (cwd : Path) :
    (⟨p.anchor, p.names ++ [n]⟩ : Path).normalize cwd
      = ⟨(p.normalize cwd).anchor, (p.normalize cwd).names ++ [n]⟩ := by
  have hanchor : (cwd / (⟨p.anchor, p.names ++ [n]⟩ : Path)).anchor = (cwd / p).anchor := by
    show (cwd.append _).anchor = (cwd.append p).anchor
    cases ha : p.anchor <;> simp [append, isAbsolute, ha]
  have hnames : (⟨p.anchor, p.names ++ [n]⟩ : Path).normalNames cwd = p.normalNames cwd ++ [n] := by
    unfold normalNames
    rw [absoluteNames_concat]
    exact dropDotDots_concat _ [] hn
  unfold normalize
  rw [hanchor, hnames]

/-- A path that is taken from an absolute one is absolute. -/
theorem isAbsolute_div {p : Path} (hp : p.isAbsolute = true) (q : Path) :
    (p / q).isAbsolute = true := by
  show (p.append q).isAbsolute = true
  unfold append
  by_cases hq : q.isAbsolute = true
  · rw [if_pos hq]
    exact hq
  · rw [if_neg hq]
    exact hp

/-- Normalisation keeps a last name that is no `..`. -/
theorem name_normalize {p : Path} (hp : p.names = names ++ [n]) (hn : n ≠ "..") (cwd : Path) :
    (p.normalize cwd).name = n := by
  obtain ⟨above, habove⟩ := absoluteNames_of_getLast? (by rw [hp, List.getLast?_concat]) cwd
  have hnormal : (p.normalize cwd).names = dropDotDots [] above ++ [n] := by
    show dropDotDots [] (p.absoluteNames cwd) = _
    rw [habove, dropDotDots_concat above [] hn]
  exact name_of_names hnormal

end Path

namespace Disk

/-- Every entry of the disk has a name that an entry can have, and so have the
    directories above it. -/
def WellNamed (d : Disk) : Prop := ∀ p ∈ d.places, ∀ n ∈ p, Path.IsFileName n

instance (d : Disk) : Decidable d.WellNamed :=
  inferInstanceAs (Decidable (∀ p ∈ d.places, ∀ n ∈ p, Path.IsFileName n))

/-! ## Resolution -/

variable {d : Disk} {cwd p q : Path} {n : String}

/-- What resolution makes of a last part: it becomes the last name, unless a link
    of that name is met or a name that no file can have. -/
def KeepsName (d : Disk) (cwd : Path) (n : String) (r : Progress) : Prop :=
  (∃ above, r.path.names = above ++ [n]) ∨ r.ending = .nul
    ∨ ∃ link target, link.names.getLast? = some n ∧ d.linkAt? cwd link = some target

/-- What a text ends in is what its resolution ends in, unless a link stands there or a loop
    stops it before. -/
theorem keepsName_resolveWith (hn : Path.IsFileName n) (onLink : Seen → Path → String → Progress)
    (seen : Seen) (here : Path) (parts : List String) :
    d.KeepsName cwd n (resolveWith onLink d cwd seen here (parts ++ [n])) := by
  induction parts generalizing seen here with
  | nil =>
      rw [List.nil_append, resolveWith, if_neg (by simp [hn.isName]), if_neg hn.notUp]
      dsimp only
      split
      · exact Or.inr (Or.inl rfl)
      · cases hlink : d.linkAt? cwd ⟨here.anchor, here.names ++ [n]⟩ with
        | none => exact Or.inl ⟨here.names, rfl⟩
        | some target => exact Or.inr (Or.inr ⟨_, target, List.getLast?_concat, hlink⟩)
  | cons m parts ih =>
      -- what is left of the text ends in the name, so it may be put behind any path
      have hrest : ∀ (seen : Seen) (p : Path) (ending : Ending),
          d.KeepsName cwd n ⟨seen, p / Path.joinNames (parts ++ [n]), ending⟩ :=
        fun _ p _ => Or.inl (Path.names_div (Path.endsIn_joinNames parts n) hn p)
      rw [List.cons_append, resolveWith]
      split
      · exact ih _ _
      split
      · exact ih _ _
      dsimp only
      split
      · exact Or.inr (Or.inl rfl)
      split
      · exact ih _ _
      split
      · exact ih _ _
      · exact hrest _ _ _
      · split
        · exact ih _ _
        · exact hrest _ _ _

/-- A link that is met stands on the disk under its name. -/
theorem exists_link (hn : Path.IsFileName n) {link : Path} {target : String}
    (hlast : link.names.getLast? = some n) (h : d.linkAt? cwd link = some target) :
    ∃ place, d.get? (place ++ [n]) = some (.link target) := by
  have hstatus : d.status cwd .entry link = .ok (.link target) := by
    unfold linkAt? at h
    split at h
    · rename_i t ht
      cases h
      exact ht
    · cases h
  cases hfind : d.find cwd .entry link with
  | error e =>
      unfold status at hstatus
      rw [hfind] at hstatus
      cases hstatus
  | ok q =>
      obtain ⟨above, habove⟩ := Path.absoluteNames_of_getLast? hlast cwd
      rw [status_of_find hfind] at hstatus
      obtain ⟨-, hlead⟩ := find_eq_ok_iff.mp hfind
      rw [habove] at hlead
      -- a look-up of the entry itself does not follow a link at its last name
      obtain ⟨place, fewer, -, htail⟩ := hlead.append_inv (List.cons_ne_nil _ _)
      obtain ⟨rfl, -⟩ := htail.single_inv hn.isName hn.notUp (fun _ _ => rfl)
      refine ⟨place, ?_⟩
      cases hq : d.get? (place ++ [n]) with
      | none => rw [hq] at hstatus; cases hstatus
      | some node => rw [hq] at hstatus; cases hstatus; rfl

/-- A resolved path is the one that resolution has reached, normalised. -/
theorem resolve_eq_ok (h : d.resolve cwd p = .ok q) :
    ∃ r, r = d.resolveText cwd (d.chainLimit cwd + 1) [] ⟨.here, []⟩ p.text
      ∧ r.ending ≠ .nul ∧ q = r.path.normalize cwd := by
  refine ⟨_, rfl, ?_⟩
  unfold resolve at h
  generalize d.resolveText cwd (d.chainLimit cwd + 1) [] ⟨.here, []⟩ p.text = r at h
  by_cases hnul : r.ending = .nul
  · rw [if_pos hnul] at h
    cases h
  · rw [if_neg hnul] at h
    refine ⟨hnul, ?_⟩
    cases hcheck : checkNul (r.path.normalize cwd) with
    | error e =>
        simp only [hcheck] at h
        cases h
    | ok _ =>
        simp only [hcheck, bind, Except.bind] at h
        split at h
        · cases h
        · cases h
          rfl

/-- A resolved path is absolute. -/
theorem isAbsolute_resolve (hcwd : cwd.isAbsolute = true) (h : d.resolve cwd p = .ok q) :
    q.isAbsolute = true := by
  obtain ⟨r, -, -, rfl⟩ := resolve_eq_ok h
  exact Path.isAbsolute_div hcwd r.path

/-- **A resolved path has the name of the path, or a link of that name stands on
    the disk.** -/
theorem name_resolve (hn : Path.IsFileName n) (hp : p.names.getLast? = some n)
    (h : d.resolve cwd p = .ok q) :
    q.name = n ∨ ∃ place target, d.get? (place ++ [n]) = some (.link target) := by
  obtain ⟨above, habove⟩ := List.getLast?_eq_some_iff.mp hp
  obtain ⟨parts, hparts⟩ := (Path.endsIn_text habove).splitSlashes hn
  obtain ⟨r, hr, hnul, rfl⟩ := resolve_eq_ok h
  have hkeeps : d.KeepsName cwd n (resolveWith _ d cwd [] _ (parts ++ [n])) :=
    keepsName_resolveWith hn (resolveText d cwd (d.chainLimit cwd)) []
      (startOf ⟨.here, []⟩ p.text) parts
  rw [resolveText, hparts] at hr
  rw [← hr] at hkeeps
  obtain ⟨reached, hreached⟩ | hnul' | ⟨link, target, hlast, hlink⟩ := hkeeps
  · exact Or.inl (Path.name_normalize hreached hn.notUp cwd)
  · exact absurd hnul' hnul
  · obtain ⟨place, hplace⟩ := exists_link hn hlast hlink
    exact Or.inr ⟨place, target, hplace⟩

end Disk

end RoundTrip
