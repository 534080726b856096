import Mathlib.Data.List.DropRight
import RoundTrip.Proofs.Resolution

/-! # Paths and their texts

    A path is handed to a process as its text and read again from another
    directory.  Reading gives the path back, if its names are such as reading
    delivers: **`Path.ofString_text`**.

    What the path then denotes depends on the directory.  The names of a relative
    path first *climb* out of the directory and then *descend* from where they have
    come to (`Path.dropDotDots_eq`), so two directories give it one meaning exactly
    if they agree where it has climbed to: **`Path.normalNames_eq_iff`**. -/

namespace RoundTrip

/-- The first field of a text ends at its first cut. -/
theorem Text.fields_append_of_forall {α : Type} {p : α → Bool} {c : α} {s : List α} (t : List α)
    (hs : ∀ x ∈ s, p x = false) (hc : p c = true) :
    Text.fields p (s ++ c :: t) = s :: Text.fields p t := by
  rw [fields_append_cons s t hc, fields_eq_singleton hs]
  rfl

/-- No field holds a cut. -/
theorem Text.not_of_mem_fields {α : Type} {p : α → Bool} {s f : List α}
    (hf : f ∈ Text.fields p s) : ∀ x ∈ f, p x = false := by
  induction s generalizing f with
  | nil =>
      rw [Text.fields, List.mem_singleton] at hf
      subst hf
      exact fun x hx => absurd hx List.not_mem_nil
  | cons c s ih =>
      rw [Text.fields] at hf
      by_cases hc : p c = true
      · rw [if_pos hc] at hf
        obtain rfl | hf := List.mem_cons.mp hf
        · exact fun x hx => absurd hx List.not_mem_nil
        · exact ih hf
      · rw [if_neg hc] at hf
        cases hfields : Text.fields p s with
        | nil => exact absurd hfields (Text.fields_ne_nil p s)
        | cons g gs =>
            rw [hfields, List.modifyHead_cons] at hf
            obtain rfl | hf := List.mem_cons.mp hf
            -- the first field has got one character more, which is no separator
            · refine List.forall_mem_cons.mpr ⟨by simpa using hc, ih ?_⟩
              rw [hfields]
              exact List.mem_cons_self
            · refine ih ?_
              rw [hfields]
              exact List.mem_cons_of_mem _ hf

namespace Path

/-! ## Reading a text back -/

/-- The names of a path are such as reading a text delivers. -/
def Canonical (p : Path) : Prop := ∀ n ∈ p.names, isName n = true ∧ '/' ∉ n.toList

instance (p : Path) : Decidable p.Canonical :=
  inferInstanceAs (Decidable (∀ n ∈ p.names, isName n = true ∧ '/' ∉ n.toList))

/-- A path that was read from a text is canonical. -/
theorem canonical_ofString (s : String) : (ofString s).Canonical := by
  intro n hn
  obtain ⟨hsplit, hname⟩ := List.mem_filter.mp hn
  obtain ⟨f, hf, rfl⟩ := List.mem_map.mp hsplit
  refine ⟨hname, fun hslash => ?_⟩
  rw [String.toList_ofList] at hslash
  exact absurd (Text.not_of_mem_fields hf _ hslash) (by decide)

/-- A canonical path stays canonical when a text is added. -/
theorem Canonical.div {p : Path} (hp : p.Canonical) (s : String) : (p / s).Canonical := by
  show (p.append (ofString s)).Canonical
  unfold append
  split
  · exact canonical_ofString s
  · intro n hn
    obtain hn | hn := List.mem_append.mp hn
    · exact hp n hn
    · exact canonical_ofString s n hn

/-- Between the slashes of joined names are the names. -/
theorem splitSlashes_joinNames {names : List String} (hne : names ≠ [])
    (h : ∀ n ∈ names, '/' ∉ n.toList) : splitSlashes (joinNames names) = names := by
  induction names with
  | nil => exact absurd rfl hne
  | cons n names ih =>
      have hn := isSlash_eq_false (h n List.mem_cons_self)
      cases names with
      | nil =>
          unfold splitSlashes joinNames
          simp [Text.fields_eq_singleton hn]
      | cons m names =>
          have hrest := ih (List.cons_ne_nil _ _) fun x hx => h x (List.mem_cons_of_mem _ hx)
          have htoList : (n ++ "/" ++ joinNames (m :: names)).toList
              = n.toList ++ '/' :: (joinNames (m :: names)).toList := by
            simp [String.toList_append]
          rw [joinNames_cons]
          unfold splitSlashes at hrest ⊢
          rw [htoList, Text.fields_append_of_forall _ hn rfl, List.map_cons, hrest,
            String.ofList_toList]

/-- A slash in front of a text is an empty part. -/
theorem splitSlashes_slash (s : String) : splitSlashes ("/" ++ s) = "" :: splitSlashes s := by
  unfold splitSlashes
  rw [String.toList_append]
  rfl

/-- Joined names start with a character that is no slash. -/
theorem joinNames_head {n : String} (names : List String) (hn : isName n = true)
    (hslash : '/' ∉ n.toList) :
    ∃ c rest, (joinNames (n :: names)).toList = c :: rest ∧ c ≠ '/' := by
  have hne : n.toList ≠ [] := by
    intro h
    rw [String.toList_eq_nil_iff] at h
    subst h
    exact absurd hn (by decide)
  obtain ⟨c, rest, hc⟩ := List.exists_cons_of_ne_nil hne
  have hc' : c ≠ '/' := fun h => hslash (by rw [hc, h]; exact List.mem_cons_self)
  cases names with
  | nil => exact ⟨c, rest, by simp [joinNames, hc], hc'⟩
  | cons m names =>
      refine ⟨c, rest ++ '/' :: (joinNames (m :: names)).toList, ?_, hc'⟩
      rw [joinNames_cons]
      simp [String.toList_append, hc]

/-- **The text of a canonical path reads as the path.** -/
theorem ofString_text {p : Path} (hp : p.Canonical) : ofString p.text = p := by
  obtain ⟨anchor, names⟩ := p
  cases names with
  | nil => cases anchor <;> rfl
  | cons n names =>
      -- the names are told apart by their slashes; what is in front of them tells the anchor
      have hsplit : splitSlashes (joinNames (n :: names)) = n :: names :=
        splitSlashes_joinNames (List.cons_ne_nil _ _) fun m hm => (hp m hm).2
      have hfilter : (n :: names).filter isName = n :: names :=
        List.filter_eq_self.mpr fun m hm => (hp m hm).1
      obtain ⟨hn, hslash⟩ := hp n List.mem_cons_self
      obtain ⟨c, rest, hhead, hc⟩ := joinNames_head names hn hslash
      have htext : (⟨anchor, n :: names⟩ : Path).text
          = anchor.text ++ joinNames (n :: names) := by
        unfold text
        rw [if_neg (by simp)]
      have hdouble : "//" ++ joinNames (n :: names) = "/" ++ ("/" ++ joinNames (n :: names)) := by
        rw [← String.append_assoc]
        rfl
      unfold ofString anchorOf
      rw [htext]
      cases anchor with
      | here =>
          rw [show Anchor.text .here = "" from rfl, String.empty_append, hsplit, hfilter, hhead]
          simp [hc]
      | root =>
          rw [show Anchor.text .root = "/" from rfl, splitSlashes_slash, hsplit,
            String.toList_append, hhead]
          simp [hc, hfilter, isName]
      | doubleRoot =>
          rw [show Anchor.text .doubleRoot = "//" from rfl, hdouble, splitSlashes_slash,
            splitSlashes_slash, hsplit, String.toList_append, String.toList_append, hhead]
          simp [hc, hfilter, isName]

/-! ## Absolute paths -/

/-- The text of an absolute path starts with a slash. -/
theorem head?_text {p : Path} (h : p.isAbsolute = true) : p.text.toList.head? = some '/' := by
  have hhere : ¬ (p.anchor = .here ∧ p.names = []) := by
    rintro ⟨hanchor, -⟩
    simp [isAbsolute, hanchor] at h
  rw [text, if_neg hhere, String.toList_append]
  cases hanchor : p.anchor with
  | here => simp [isAbsolute, hanchor] at h
  | root => rfl
  | doubleRoot => rfl

/-- A text that starts with a slash is taken from the root. -/
theorem isAbsolute_ofString {s : String} (h : s.toList.head? = some '/') :
    (ofString s).isAbsolute = true := by
  obtain ⟨cs, h⟩ := List.head?_eq_some_iff.mp h
  show (anchorOf s != .here) = true
  unfold anchorOf
  rw [h]
  split <;> first | rfl | simp_all

/-! ## Climbing and descending -/

/-- Names without `..` are kept as they are. -/
theorem dropDotDots_of_not_mem {names : List String} (done : List String) (h : ".." ∉ names) :
    dropDotDots done names = done.reverse ++ names := by
  induction names generalizing done with
  | nil => simp [dropDotDots]
  | cons n names ih =>
      rw [dropDotDots, if_neg (fun hn => h (List.mem_cons.mpr (Or.inl hn.symm))),
        ih _ fun hm => h (List.mem_cons_of_mem _ hm)]
      simp

/-- Two dots are dropped from names as they come, so in two stretches as in one. -/
theorem dropDotDots_append_names (done xs ys : List String) :
    dropDotDots done (xs ++ ys) = dropDotDots (dropDotDots done xs).reverse ys := by
  induction xs generalizing done with
  | nil => simp [dropDotDots]
  | cons n xs ih =>
      rw [List.cons_append, dropDotDots, dropDotDots]
      split
      · exact ih _
      · exact ih _

/-- How many names further up a path has come, and the names from there, last first. -/
def stride : (ups : Nat) → (reversed : List String) → List String → Nat × List String
  | ups, done, [] => (ups, done)
  | ups, done, n :: rest =>
      if n ≠ ".." then stride ups (n :: done) rest
      else if done = [] then stride (ups + 1) [] rest
      else stride ups done.tail rest

/-- How many names of a directory are dropped by names that are taken from it. -/
def climb (names : List String) : Nat := (stride 0 [] names).1

/-- The names that are left when the climbing is over. -/
def descent (names : List String) : List String := (stride 0 [] names).2.reverse

theorem dropDotDots_stride (base : List String) (ups : Nat) (done names : List String) :
    dropDotDots (done ++ base.drop ups) names
      = (base.drop (stride ups done names).1).reverse ++ (stride ups done names).2.reverse := by
  induction names generalizing ups done with
  | nil => simp [dropDotDots, stride]
  | cons n names ih =>
      rw [dropDotDots, stride]
      by_cases hn : n = ".."
      · rw [if_pos hn, if_neg (not_not.mpr hn)]
        cases done with
        | nil =>
            have htail : ([] ++ base.drop ups).tail = [] ++ base.drop (ups + 1) := by
              rw [List.nil_append, List.nil_append, List.tail_drop]
            rw [if_pos rfl, htail]
            exact ih (ups + 1) []
        | cons m done =>
            rw [if_neg (List.cons_ne_nil _ _)]
            exact ih ups done
      · rw [if_neg hn, if_pos hn]
        exact ih ups (n :: done)

/-- Names climb out of what is before them, and then descend. -/
theorem dropDotDots_eq (base names : List String) :
    dropDotDots base names = (base.drop (climb names)).reverse ++ descent names :=
  dropDotDots_stride base 0 [] names

/-- The absolute names of a directory after lexical normalisation. -/
def plainNames (dir : Path) : List String := dropDotDots [] dir.names

theorem normalNames_of_isAbsolute {p : Path} (hp : p.isAbsolute = true) (cwd : Path) :
    p.normalNames cwd = p.plainNames := by
  show dropDotDots [] (cwd.append p).names = _
  rw [append, if_pos hp]
  rfl

/-- What a relative path denotes: its directory without as many last names as the
    path climbs, and then the names into which it descends. -/
theorem normalNames_of_relative {p : Path} (hp : p.isAbsolute = false) (cwd : Path) :
    p.normalNames cwd = cwd.plainNames.rdrop (climb p.names) ++ descent p.names := by
  show dropDotDots [] (cwd.append p).names = _
  rw [append, if_neg (by simp [hp]), dropDotDots_append_names, dropDotDots_eq,
    List.rdrop_eq_reverse_drop_reverse]
  rfl

/-- **Two directories give a path one meaning** exactly if it is absolute, or the
    directories agree once as many last names are dropped as the path climbs. -/
theorem normalNames_eq_iff (p cwd cwd' : Path) :
    p.normalNames cwd = p.normalNames cwd'
      ↔ p.isAbsolute = true
        ∨ cwd.plainNames.rdrop (climb p.names) = cwd'.plainNames.rdrop (climb p.names) := by
  cases hp : p.isAbsolute with
  | true => simp [normalNames_of_isAbsolute hp]
  | false => simp [normalNames_of_relative hp]

end Path

end RoundTrip
