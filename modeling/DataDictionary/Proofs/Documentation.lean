import DataDictionary.Proofs.FieldReadings
import DataDictionary.Proofs.HeaderReadings

/-!
# Documentation

The directives `memo` and `note` add to the documentation of an object, and behind a field marker
`note` adds to that of the field, one line for each directive. A line feed goes in front of a line
unless the text is empty. That is not the same as being the first line: a text that has got nothing
but empty lines so far is empty, too. So empty lines are kept wherever they stand but at the
beginning, where they leave nothing behind (`foldl_addLine`).

The documentation therefore has one line per directive if and only if the first of several
directives is not empty (`intercalate_dropWhile_eq_iff`).
-/

namespace DataDictionary

/-! ## Adding lines -/

theorem addLine_ne_empty {text : String} (h : text ≠ "") (line : String) :
    addLine text line ≠ "" := by
  rw [addLine, if_neg h]
  intro hempty
  have hlength := congrArg String.length hempty
  have hfeed : "\n".length = 1 := rfl
  rw [String.length_append, String.length_append, hfeed, String.length_empty] at hlength
  omega

/-- Lines that are added to a text that is not empty go behind it, each on a line of its own. -/
theorem foldl_addLine_of_ne_empty {text : String} (h : text ≠ "") (lines : List String) :
    lines.foldl addLine text = "\n".intercalate (text :: lines) := by
  induction lines generalizing text with
  | nil => rw [List.foldl_nil, String.intercalate_singleton]
  | cons line lines ih =>
    have hline : addLine text line = text ++ "\n" ++ line := if_neg h
    rw [List.foldl_cons, ih (addLine_ne_empty h line), hline, String.intercalate_cons_append,
      String.intercalate_cons_cons]

/-- **What lines make of an empty text.** Those that are empty are lost up to the first one that is
not. -/
theorem foldl_addLine (lines : List String) :
    lines.foldl addLine "" = "\n".intercalate (lines.dropWhile (· = "")) := by
  induction lines with
  | nil => rfl
  | cons line lines ih =>
    have hline : addLine "" line = line := if_pos rfl
    rw [List.foldl_cons, hline]
    by_cases hempty : line = ""
    · rw [List.dropWhile_cons_of_pos (by simp [hempty]), hempty]
      exact ih
    · rw [List.dropWhile_cons_of_neg (by simp [hempty])]
      exact foldl_addLine_of_ne_empty hempty lines

theorem length_intercalate_dropWhile_le (lines : List String) :
    ("\n".intercalate (lines.dropWhile (· = ""))).length ≤ ("\n".intercalate lines).length := by
  induction lines with
  | nil => exact Nat.le_refl _
  | cons line lines ih =>
    by_cases hempty : line = ""
    · rw [List.dropWhile_cons_of_pos (by simp [hempty])]
      refine Nat.le_trans ih ?_
      cases lines with
      | nil => exact Nat.zero_le _
      | cons next lines =>
        rw [String.intercalate_cons_cons, String.length_append]
        omega
    · have hkept : (line :: lines).dropWhile (· = "") = line :: lines :=
        List.dropWhile_cons_of_neg (by simp [hempty])
      exact Nat.le_of_eq (congrArg _ (congrArg _ hkept))

/-- Nothing is lost if the first line is not empty, or if it is the only one. -/
theorem intercalate_dropWhile_eq_iff (lines : List String) :
    "\n".intercalate (lines.dropWhile (· = "")) = "\n".intercalate lines ↔
      lines.head? ≠ some "" ∨ lines = [""] := by
  cases lines with
  | nil => exact iff_of_true rfl (.inl (by simp))
  | cons line lines =>
    by_cases hempty : line = ""
    · subst hempty
      cases lines with
      | nil => exact iff_of_true rfl (.inr rfl)
      | cons next lines =>
        -- the line feed behind the first line is missing
        refine iff_of_false (fun hsame => ?_) (by simp)
        have hle := length_intercalate_dropWhile_le (next :: lines)
        have hfeed : "\n".length = 1 := rfl
        rw [List.dropWhile_cons_of_pos (by simp), String.intercalate_cons_cons] at hsame
        have hlength := congrArg String.length hsame
        rw [String.length_append, String.length_append, hfeed] at hlength
        omega
    · rw [List.dropWhile_cons_of_neg (by simp [hempty])]
      exact iff_of_true rfl (.inl (by simpa using hempty))

/-- A text documents lines: it has them from the first one on that is not empty, and it has all of
them unless the first of several is empty. -/
structure Documents (text : String) (lines : List String) : Prop where
  eq : text = "\n".intercalate (lines.dropWhile (· = ""))
  eq_all_iff : text = "\n".intercalate lines ↔ lines.head? ≠ some "" ∨ lines = [""]

theorem documents_foldl_addLine (lines : List String) :
    Documents (lines.foldl addLine "") lines := by
  rw [foldl_addLine]
  exact ⟨rfl, intercalate_dropWhile_eq_iff lines⟩

/-! ## Objects -/

/-- Whether a directive of the header adds a line to the documentation. -/
def ObjectKeyword.documents : ObjectKeyword → Bool
  | .memo | .note => true
  | _ => false

/-- The lines that directives of the header add to the documentation. -/
def HeaderDirective.lines (ds : List HeaderDirective) : List String :=
  (ds.filter (·.keyword.documents)).map (·.argument)

namespace OpenObject

theorem memo_apply (o : OpenObject) (k : ObjectKeyword) (argument : String) :
    (o.apply k argument).1.object.memo =
      if k.documents then addLine o.object.memo argument else o.object.memo := by
  cases k <;> rfl

theorem memo_obeyAll (o : OpenObject) (ds : List HeaderDirective) :
    (o.obeyAll ds).object.memo = (HeaderDirective.lines ds).foldl addLine o.object.memo := by
  induction ds generalizing o with
  | nil => rfl
  | cons d ds ih =>
    have hstep := ih (o.apply d.keyword d.argument).1
    rw [memo_apply] at hstep
    rw [HeaderDirective.lines, List.filter_cons]
    by_cases hdocuments : d.keyword.documents = true
    · rw [if_pos hdocuments] at hstep ⊢
      exact hstep
    · rw [if_neg hdocuments] at hstep ⊢
      exact hstep

end OpenObject

/-- The lines that the header of a declaration adds to the documentation. -/
def Declaration.memoLines (d : Declaration) : List String :=
  HeaderDirective.lines d.headerDirectives

theorem Declaration.documents_memo (d : Declaration) :
    Documents d.object.memo d.memoLines := by
  have hmemo : d.object.memo = d.memoLines.foldl addLine "" := by
    have hheader := congrArg Object.memo d.header_object
    exact hheader.trans (OpenObject.memo_obeyAll _ _)
  rw [hmemo]
  exact documents_foldl_addLine d.memoLines

/-! ## Fields -/

/-- The lines that directives of a field add to its note. -/
def FieldDirective.lines (ds : List FieldDirective) : List String :=
  (ds.filter (·.keyword = .note)).map (·.argument)

namespace OpenField

variable {f f' : OpenField} {problems : List Problem}

theorem note_of_setBound {side : Side} {form : BoundForm} {text : String}
    (h : f.setBound side form text = .ok (f', problems)) : f'.field.note = f.field.note := by
  unfold setBound at h
  split at h
  · cases h
  · cases hnumber : Number.ofText? text with
    | none =>
      rw [hnumber] at h
      cases h
      cases side <;> rfl
    | some value =>
      rw [hnumber] at h
      cases h
      cases side <;> rfl

theorem note_of_apply {k : FieldKeyword} {argument : String}
    (h : f.apply k argument = .ok (f', problems)) :
    f'.field.note = if k = .note then addLine f.field.note argument else f.field.note := by
  cases k with
  | minimumExclusive | minimumInclusive | maximumExclusive | maximumInclusive =>
    exact note_of_setBound h
  | key =>
    rw [apply_key] at h
    have hadded : f' = _ := congrArg Prod.fst (Except.ok.inj h).symm
    rw [hadded]
    split <;> rfl
  | _ =>
    cases h
    rfl

theorem note_obey (f : OpenField) (d : FieldDirective) :
    (f.obey d).1.field.note =
      if d.keyword = .note then addLine f.field.note d.argument else f.field.note := by
  unfold obey
  cases happly : f.apply d.keyword d.argument with
  | ok applied => exact note_of_apply happly
  | error problem =>
    -- a note is never refused
    have hkeyword : d.keyword ≠ .note := by
      intro hnote
      rw [hnote] at happly
      cases happly
    rw [if_neg hkeyword]

theorem note_obeyAll (f : OpenField) (ds : List FieldDirective) :
    (f.obeyAll ds).1.field.note = (FieldDirective.lines ds).foldl addLine f.field.note := by
  induction ds generalizing f with
  | nil => rfl
  | cons d ds ih =>
    have hstep := ih (f.obey d).1
    rw [note_obey] at hstep
    rw [obeyAll, FieldDirective.lines, List.filter_cons]
    by_cases hnote : d.keyword = .note
    · rw [if_pos hnote] at hstep
      rw [if_pos (decide_eq_true hnote)]
      exact hstep
    · rw [if_neg hnote] at hstep
      rw [if_neg (by simp [hnote])]
      exact hstep

end OpenField

namespace FieldDeclaration

/-- The lines that are added to the note of a field. -/
def noteLines (s : FieldDeclaration) : List String := FieldDirective.lines s.allDirectives

/-- The reading of a field has the lines of its directives for a note. -/
theorem Reads.note {s : FieldDeclaration} {r : OpenField × List Finding} (h : s.Reads r) :
    r.1.field.id = s.id ∧ Documents r.1.field.note s.noteLines := by
  obtain ⟨line, ahead, rfl⟩ := h
  refine ⟨OpenField.id_obeyAll _ _, ?_⟩
  rw [OpenField.note_obeyAll]
  exact documents_foldl_addLine s.noteLines

end FieldDeclaration

theorem Declaration.documents_notes (d : Declaration) :
    List.Forall₂ (fun s f => f.id = s.id ∧ Documents f.note s.noteLines) d.fieldDeclarations
      d.object.fields :=
  d.forall₂_fields fun _ _ hr _ => hr.note

/-! ## Sources -/

/-- **The documentation of a source.** An object that is kept is what its declaration makes of it.
Its documentation has the arguments of the directives `memo` and `note` in its header, in their
order, one line for each from the first one on that is not empty; and so has the note of each of its
fields for the directives `note` of the field. There is a line for every directive if and only if
the first one is not empty or the only one. -/
theorem Source.documentation_exact (text : String) :
    let source := Source.ofText text
    let ds := Declaration.ofText text
    source.items.filterMap Item.placed? =
        (Declaration.keptOf ds).map (fun d => (d.object, d.opening.line)) ∧
      ∀ d ∈ Declaration.keptOf ds,
        Documents d.object.memo d.memoLines ∧
        List.Forall₂ (fun s f => f.id = s.id ∧ Documents f.note s.noteLines) d.fieldDeclarations
          d.object.fields := by
  intro source ds
  exact ⟨(Source.readings text).1, fun d _ => ⟨d.documents_memo, d.documents_notes⟩⟩

/-- A directive without an argument in front of the others leaves no line. -/
theorem Source.leading_lines_lost :
    let text := "Zone,\n\\memo\n\\memo Thermal zone\nA1; \\note\n \\note Name\n"
    let ds := Declaration.keptOf (Declaration.ofText text)
    ds.map (·.memoLines) = [["", "Thermal zone"]] ∧
      ds.map (·.fieldDeclarations.map (·.noteLines)) = [[["", "Name"]]] ∧
      (Source.ofText text).findings = [] ∧
      (Source.ofText text).objects.map (·.memo) = ["Thermal zone"] ∧
      (Source.ofText text).objects.map (·.fields.map (·.note)) = [["Name"]] ∧
      "Thermal zone" ≠ "\n".intercalate ["", "Thermal zone"] ∧
      "Name" ≠ "\n".intercalate ["", "Name"] := by
  decide +kernel

end DataDictionary
