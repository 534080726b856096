import RoundTrip.Report
import RoundTrip.Proofs.Command
import RoundTrip.Proofs.Edit
import RoundTrip.Proofs.Grammar
import RoundTrip.Proofs.Utf8

/-! # Documents are read back

    What is printed of a value spells it: the escapes of a character are undone by the
    rules of string literals (`Letters.escapeChar`), the digits of a whole number by those
    of numerals, and a container is put together from its parts
    (`Whole.value_render`).  A value is followed by a comma, by a line end or by nothing,
    so that no numeral runs on (`Stops`).  A number with a fraction may be printed with
    other digits than it was written with, so the statements are about documents without
    one (`Json.Whole`), and a report is such a document (`Report.whole_document`).

    Since a text spells one value only, **a report holds its document and nothing else**:
    `Report.reads_back` -/

namespace RoundTrip

namespace Json

/-- Every number of a document is a whole one. -/
inductive Whole : Json → Prop where
  | null : Whole .null
  | bool (b : Bool) : Whole (.bool b)
  | int (n : Int) : Whole (.num (.int n))
  | str (s : String) : Whole (.str s)
  | arr {vs : List Json} (h : ∀ v ∈ vs, Whole v) : Whole (.arr vs)
  | obj {fs : List (String × Json)} (h : ∀ f ∈ fs, Whole f.2) : Whole (.obj fs)

namespace Grammar

variable {c : Char} {s r cs : List Char} {v : Json} {vs : List Json}
  {fs : List (String × Json)} {level below : Nat}

/-! ## Characters -/

/-- A hexadecimal digit is read as the number that it was printed for. -/
theorem hexValue_digitChar : ∀ d < 16, hexValue? (Nat.digitChar d) = some d := by decide

/-- Four hexadecimal digits are read back. -/
theorem hex4_hexDigits {n : Nat} (hn : n < 0x10000) (s : List Char) :
    hex4? (Text.hexDigits 4 n ++ s) = some (n, s) := by
  have hdigit : ∀ m, hexValue? (Nat.digitChar (m % 16)) = some (m % 16) :=
    fun m => hexValue_digitChar _ (Nat.mod_lt m (by decide))
  have hvalue : ((n / 16 / 16 / 16 % 16 * 16 + n / 16 / 16 % 16) * 16 + n / 16 % 16) * 16 + n % 16
      = n := by omega
  show hex4? (Nat.digitChar (n / 16 / 16 / 16 % 16) :: Nat.digitChar (n / 16 / 16 % 16)
    :: Nat.digitChar (n / 16 % 16) :: Nat.digitChar (n % 16) :: s) = some (n, s)
  unfold hex4?
  simp only [hdigit, hvalue, Option.bind_eq_bind, Option.bind_some]

/-- What a character is written as is read as that character. -/
theorem Letters.escapeChar (c : Char) (h : Letters s cs r) :
    Letters (escapeChar c ++ s) (c :: cs) r := by
  unfold Json.escapeChar
  by_cases hshort : c ∈ ['"', '\\', '\n', '\r', '\t', '\x08', '\x0c']
  · simp only [List.mem_cons, List.not_mem_nil, or_false] at hshort
    obtain rfl | rfl | rfl | rfl | rfl | rfl | rfl := hshort <;> exact .short rfl h
  -- of the others, the control characters are written as their code units
  · simp only [List.mem_cons, List.not_mem_nil, or_false, not_or] at hshort
    obtain ⟨hquote, hescape, hn, hr, ht, hb, hf⟩ := hshort
    rw [if_neg hquote, if_neg hescape, if_neg hn, if_neg hr, if_neg ht, if_neg hb, if_neg hf]
    by_cases hcontrol : c.toNat < 0x20
    · rw [if_pos hcontrol]
      have hunit : Letters ('\\' :: 'u' :: (Text.hexDigits 4 c.toNat ++ s))
          (Char.ofNat c.toNat :: cs) r :=
        .unit (hex4_hexDigits (by omega) s) (Or.inl (by omega)) h
      rwa [Char.ofNat_toNat] at hunit
    · rw [if_neg hcontrol]
      exact .plain hquote hescape (Nat.le_of_not_lt hcontrol) h

/-- A literal is read back, whatever follows it. -/
theorem letters_literal (cs r : List Char) :
    Letters (cs.flatMap Json.escapeChar ++ '"' :: r) cs r := by
  induction cs with
  | nil => exact .close r
  | cons c cs ih =>
      rw [List.flatMap_cons, List.append_assoc]
      exact ih.escapeChar c

theorem literal_append (key : String) (r : List Char) :
    literal key ++ r = '"' :: (key.toList.flatMap Json.escapeChar ++ '"' :: r) := by
  unfold literal
  rw [List.cons_append, List.append_assoc, List.singleton_append]

/-- A text between quotes is read as that text. -/
theorem value_literal (key : String) (r : List Char) : Value (literal key ++ r) (.str key) r := by
  have h : Value _ (.str (String.ofList key.toList)) r := .string (letters_literal key.toList r)
  rwa [String.ofList_toList, ← literal_append] at h

/-! ## Numbers -/

/-- What may follow a value: a comma, a line end or nothing. -/
def Stops (r : List Char) : Prop := ∀ c ∈ r.head?, c = ',' ∨ c = '\n'

theorem stops_nil : Stops [] := fun _ h => nomatch h

theorem stops_newline (level : Nat) (r : List Char) : Stops (newline level ++ r) :=
  fun _ h => Or.inr (Option.some.inj h).symm

theorem stops_comma (r : List Char) : Stops (',' :: r) :=
  fun _ h => Or.inl (Option.some.inj h).symm

/-- Only zero is written with a zero in front. -/
theorem toDigits_head_ne {m : Nat} (hm : 0 < m) : (Nat.toDigits 10 m).head? ≠ some '0' := by
  induction m using Nat.strongRecOn with
  | ind m ih =>
      rw [Nat.toDigits_eq_if (by decide)]
      split
      · next hlt =>
          have hdigit : ∀ d < 10, 0 < d → Nat.digitChar d ≠ '0' := by decide
          exact fun h => hdigit m hlt hm (Option.some.inj h)
      · next hle =>
          have hup := ih (m / 10) (by omega) (by omega)
          cases hds : Nat.toDigits 10 (m / 10) with
          | nil => exact absurd hds Nat.toDigits_ne_nil
          | cons c ds =>
              rw [hds] at hup
              exact hup

/-- The digits in front of what stops them. -/
theorem digitRun_append {ds : List Char} (hds : ∀ c ∈ ds, c.isDigit = true) (hr : Stops r) :
    Number.digitRun (ds ++ r) = (ds, r) := by
  have hstop : ∀ c ∈ r.head?, c.isDigit = false := by
    intro c hc
    obtain rfl | rfl := hr c hc <;> decide
  unfold Number.digitRun
  rw [List.takeWhile_append_of_pos hds, List.dropWhile_append_of_pos hds]
  cases r with
  | nil => rw [List.takeWhile_nil, List.dropWhile_nil, List.append_nil]
  | cons c r =>
      have hc : ¬c.isDigit = true := by
        rw [hstop c rfl]
        exact Bool.false_ne_true
      rw [List.takeWhile_cons_of_neg hc, List.dropWhile_cons_of_neg hc, List.append_nil]

/-- The digits of a number are read up to what follows them. -/
theorem wholeDigits_toDigits (m : Nat) (hr : Stops r) :
    wholeDigits (Nat.toDigits 10 m ++ r) = some (Nat.toDigits 10 m, r) := by
  have hdigits : ∀ c ∈ Nat.toDigits 10 m, c.isDigit = true :=
    fun _ hc => Nat.isDigit_of_mem_toDigits (by decide) (by decide) hc
  have hrun := digitRun_append hdigits hr
  obtain rfl | hm := Nat.eq_zero_or_pos m
  · rw [Nat.toDigits_zero] at hrun ⊢
    unfold wholeDigits
    rw [hrun]
    rfl
  · have hhead := toDigits_head_ne hm
    have hne : Nat.toDigits 10 m ≠ [] := Nat.toDigits_ne_nil
    unfold wholeDigits
    rw [hrun]
    split
    · next h => exact absurd (congrArg Prod.fst h) hne
    · next h =>
        rw [(Prod.mk.inj h).1] at hhead
        exact absurd rfl hhead
    · next h => rw [(Prod.mk.inj h).1, (Prod.mk.inj h).2]

/-- They are read as the number. -/
theorem digitsValue_toDigits (m : Nat) : Number.digitsValue (Nat.toDigits 10 m) = m := by
  unfold Number.digitsValue
  rw [← Nat.ofDigitChars_eq_foldl, Nat.ofDigitChars_ten_toDigits]

/-- The digits of a number are read as that number. -/
theorem numeral_toDigits (negative : Bool) (m : Nat) (hr : Stops r) :
    Numeral negative (Nat.toDigits 10 m ++ r) (.int (if negative then -(m : Int) else m)) r := by
  -- what stops the digits is neither a point nor the mark of an exponent
  have hend : fractionDigits r = ([], r) ∧ exponentPart r = (none, r) := by
    cases r with
    | nil => exact ⟨rfl, rfl⟩
    | cons c r => obtain rfl | rfl := hr c rfl <;> exact ⟨rfl, rfl⟩
  have h : Numeral negative _ _ r := .whole (wholeDigits_toDigits m hr) hend.1 hend.2
  rwa [digitsValue_toDigits] at h

/-- A whole number is read back. -/
theorem value_int (n : Int) (hr : Stops r) :
    Value ((Number.documentLayout.text (.int n)).toList ++ r) (.num (.int n)) r := by
  cases n with
  | ofNat m =>
      have htext : (Number.documentLayout.text (.int (.ofNat m))).toList = Nat.toDigits 10 m :=
        Nat.toList_repr
      rw [htext]
      exact .number (numeral_toDigits false m hr)
  | negSucc m =>
      have htext : (Number.documentLayout.text (.int (.negSucc m))).toList
          = '-' :: Nat.toDigits 10 (m + 1) := by
        show ("-" ++ (m + 1).repr).toList = _
        rw [String.toList_append, Nat.toList_repr]
        rfl
      rw [htext, List.cons_append]
      exact .negative (numeral_toDigits true (m + 1) hr)

/-! ## Containers -/

/-- The space at the start of a line is skipped. -/
theorem skipSpace_newline (level : Nat) (s : List Char) :
    skipSpace (newline level ++ s) = skipSpace s := by
  have hspace : ∀ c ∈ newline level, isSpace c = true := by
    intro c hc
    obtain rfl | hc := List.mem_cons.mp hc
    · rfl
    · rw [(List.mem_replicate.mp hc).2]
      rfl
  exact List.dropWhile_append_of_pos hspace

/-- Items that are read back are read back together. -/
theorem items_render (hvs : ∀ v ∈ vs, ∀ r, Stops r → Value (render level v ++ r) v r)
    (hv : ∀ r, Stops r → Value (render level v ++ r) v r) (below : Nat) (r : List Char) :
    Items (render level v ++ (renderItems level vs ++ (newline below ++ ']' :: r))) (v :: vs)
      r := by
  induction vs generalizing v with
  | nil =>
      rw [renderItems, List.nil_append]
      refine .last (hv _ (stops_newline below _)) ?_
      rw [skipSpace_newline]
      rfl
  | cons u us ih =>
      obtain ⟨hu, hus⟩ := List.forall_mem_cons.mp hvs
      have htail := ih hus hu
      rw [renderItems, List.cons_append, List.append_assoc, List.append_assoc]
      refine .more (hv _ (stops_comma _)) rfl ?_
      rwa [skipSpace_newline, htail.skipSpace_eq]

/-- A field whose value is read back is read back. -/
theorem field_render (hv : ∀ r, Stops r → Value (render level v ++ r) v r) (key : String)
    (hr : Stops r) : Field (literal key ++ (':' :: ' ' :: (render level v ++ r))) (key, v) r := by
  have hvalue := hv r hr
  have hskip : skipSpace (' ' :: (render level v ++ r)) = render level v ++ r :=
    hvalue.skipSpace_eq
  have hcolon : skipSpace (':' :: ' ' :: (render level v ++ r)) = _ := rfl
  have h : Field _ (String.ofList key.toList, v) r :=
    .mk (letters_literal key.toList _) hcolon (hskip.symm ▸ hvalue)
  rwa [String.ofList_toList, ← literal_append] at h

/-- Fields that are read back are read back together. -/
theorem fields_render {f : String × Json}
    (hfs : ∀ f ∈ fs, ∀ r, Stops r → Value (render level f.2 ++ r) f.2 r)
    (hf : ∀ r, Stops r → Value (render level f.2 ++ r) f.2 r) (below : Nat) (r : List Char) :
    Fields (literal f.1 ++ (':' :: ' ' :: (render level f.2
      ++ (renderFields level fs ++ (newline below ++ '\x7d' :: r))))) (f :: fs) r := by
  induction fs generalizing f with
  | nil =>
      rw [renderFields, List.nil_append]
      refine .last (field_render hf f.1 (stops_newline below _)) ?_
      rw [skipSpace_newline]
      rfl
  | cons g gs ih =>
      obtain ⟨hg, hgs⟩ := List.forall_mem_cons.mp hfs
      have htail := ih hgs hg
      obtain ⟨key, u⟩ := g
      rw [renderFields, List.cons_append, List.append_assoc, List.append_assoc, List.append_assoc,
        List.append_assoc]
      refine .more (field_render hf f.1 (stops_comma _)) rfl ?_
      rw [skipSpace_newline]
      rwa [literal_append] at htail ⊢

end Grammar

open Grammar

/-- A document is read back from what is printed of it, at any level. -/
theorem Whole.value_render {v : Json} (h : v.Whole) (level : Nat) {r : List Char} (hr : Stops r) :
    Value (render level v ++ r) v r := by
  induction h generalizing level r with
  | null => exact .null r
  | bool b =>
      cases b with
      | true => exact .yes r
      | false => exact .no r
  | int n => exact value_int n hr
  | str s => exact value_literal s r
  | @arr vs _ ih =>
      -- a list with nothing in it is printed without lines
      cases vs with
      | nil => exact .noItems rfl
      | cons v vs =>
          obtain ⟨hv, hvs⟩ := List.forall_mem_cons.mp ih
          have hitems := items_render (fun u hu r => hvs u hu (level + 1))
            (fun r => hv (level + 1)) level r
          rw [render]
          simp only [List.cons_append, List.append_assoc, List.nil_append]
          refine .items ?_
          rwa [skipSpace_newline, hitems.skipSpace_eq]
  | @obj fs _ ih =>
      cases fs with
      | nil => exact .noFields rfl
      | cons f fs =>
          obtain ⟨hf, hfs⟩ := List.forall_mem_cons.mp ih
          have hfields := fields_render (fun g hg r => hfs g hg (level + 1))
            (fun r => hf (level + 1)) level r
          obtain ⟨key, v⟩ := f
          rw [render]
          simp only [List.cons_append, List.append_assoc, List.nil_append]
          refine .fields ?_
          rw [skipSpace_newline]
          rwa [literal_append] at hfields ⊢

/-- What is printed of a document spells it, and nothing else. -/
theorem Whole.spells_print_iff {u v : Json} (h : v.Whole) : Spells v.print u ↔ u = v := by
  have hspells : Spells v.print v := by
    have hvalue := h.value_render 0 stops_nil
    rw [List.append_nil] at hvalue
    refine ⟨[], ?_, rfl⟩
    unfold print
    rwa [String.toList_ofList, hvalue.skipSpace_eq]
  constructor
  · exact fun hu => hu.unique hspells
  · rintro rfl
    exact hspells

end Json

namespace Report

variable {path compiler : Path} {t : Tally} {mode : String} {w w' : World}

theorem whole_ofText (s : Option String) : (Json.ofText? s).Whole := by
  cases s with
  | none => exact .null
  | some s => exact .str s

/-- The entry of a case is made of texts and of a null. -/
theorem whole_caseEntry (r : Finding) : (caseEntry r).Whole := by
  have hinputs : (Json.arr (r.subject.inputs.map fun p => .str p.text)).Whole := by
    refine .arr fun v hv => ?_
    obtain ⟨p, -, rfl⟩ := List.mem_map.mp hv
    exact .str p.text
  exact .obj (by simp [hinputs, Json.Whole.str])

/-- The summary is made of texts and of whole numbers. -/
theorem whole_summaryEntry (t : Tally) : (summaryEntry t).Whole :=
  .obj (by simp [whole_ofText, Json.int, Json.Whole.int])

/-- A report counts in whole numbers. -/
theorem whole_document (t : Tally) (mode : String) (compiler : Path) :
    (document t mode compiler).Whole := by
  have hcases : (Json.arr (t.results.map caseEntry)).Whole := by
    refine .arr fun v hv => ?_
    obtain ⟨r, -, rfl⟩ := List.mem_map.mp hv
    exact whole_caseEntry r
  exact .obj (by simp [hcases, whole_summaryEntry, Json.Whole.str])

/-- The octets of a report. -/
def octets (t : Tally) (mode : String) (compiler : Path) : Bytes :=
  Text.encode ((document t mode compiler).print ++ "\n")

/-- A report is written as a file is, and nothing else happens. -/
theorem write_cases (path : Path) (t : Tally) (mode : String) (compiler : Path) (w : World) :
    (∃ d, Disk.writeWithParents w.cwd path (octets t mode compiler) w.disk = .ok () d
        ∧ write path t mode compiler w = .ok () { w with disk := d })
      ∨ ∃ e d, Disk.writeWithParents w.cwd path (octets t mode compiler) w.disk = .error e d
        ∧ write path t mode compiler w = .error (.path e) { w with disk := d } := by
  unfold write Workspace.storeDocument World.edit Step.within octets
  cases hwrite : Disk.writeWithParents w.cwd path
      (Text.encode ((document t mode compiler).print ++ "\n")) w.disk with
  | ok u d => exact Or.inl ⟨d, rfl, by simp only [hwrite]⟩
  | error e d => exact Or.inr ⟨e, d, rfl, by simp only [hwrite]⟩

/-- **A report is read back.**  Where it is written, the file holds well-formed UTF-8: a text
    and a line end.  The text spells the document of the run and no other value, whatever
    is in the results that were kept, in the mode and in the path of the compiler. -/
theorem reads_back (h : write path t mode compiler w = .ok () w') :
    ∃ (bytes : Bytes) (text : String), w'.disk.contentOf w'.cwd path = .ok bytes
      ∧ Text.decode? bytes = some (text ++ "\n")
      ∧ ∀ v, Json.Spells text v ↔ v = document t mode compiler := by
  obtain ⟨d, hwrite, hok⟩ | ⟨e, d, -, herror⟩ := write_cases path t mode compiler w
  · rw [hok] at h
    cases h
    refine ⟨_, (document t mode compiler).print, Disk.contentOf_of_writeWithParents hwrite, ?_,
      fun v => (whole_document t mode compiler).spells_print_iff⟩
    have hdecode := Text.decode_encode ((document t mode compiler).print ++ "\n")
    unfold Text.decode? octets
    rw [hdecode]
    exact if_pos rfl
  · rw [herror] at h
    cases h

namespace Trial

/-- A failed case with texts that have to be escaped. -/
def awkward : Finding where
  subject := ⟨⟨.root, ["t", "a \"b\"\\.sol"]⟩, [⟨.here, ["é.sol"]⟩, ⟨.here, ["\x7f"]⟩]⟩
  verdict := .mismatched
  message := "\x00\t\n\r\x1f"
  diagnostic := "\\u0041 \"é\" 😀 \u2028"

def tally : Tally := (Tally.start 2 true).add awkward

/-- A disk with nothing on it. -/
def world : World := .fresh ⟨[]⟩ ⟨.root, []⟩ []

end Trial

/-- A report with escapes, written into a directory that has to be made. -/
theorem awkward_report_reads_back : ∃ (w' : World) (bytes : Bytes) (text : String),
    write ⟨.root, ["out", "report.json"]⟩ Trial.tally "ast" ⟨.root, ["sol c"]⟩ Trial.world
        = .ok () w'
      ∧ w'.disk.contentOf w'.cwd ⟨.root, ["out", "report.json"]⟩ = .ok bytes
      ∧ Text.decode? bytes = some (text ++ "\n")
      ∧ ∀ v, Json.Spells text v ↔ v = document Trial.tally "ast" ⟨.root, ["sol c"]⟩ := by
  have hwritten : (Step.result? (write ⟨.root, ["out", "report.json"]⟩ Trial.tally "ast"
      ⟨.root, ["sol c"]⟩ Trial.world)).isSome = true := by decide +kernel
  obtain ⟨_, hresult⟩ := Option.isSome_iff_exists.mp hwritten
  obtain ⟨w', hwrite⟩ := Step.exists_eq_ok hresult
  obtain ⟨bytes, text, hcontent, htext, hspells⟩ := reads_back hwrite
  exact ⟨w', bytes, text, hwrite, hcontent, htext, hspells⟩

end Report

end RoundTrip
