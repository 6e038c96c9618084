import DataDictionary.Proofs.Layout

/-!
# Unknown directives are harmless

A dictionary may use directives that this reader has never heard of. One that no table knows, on a
line of its own, leaves the reader in the state it was in, whatever that was: all it does is to be
reported. So a blank line may be replaced by it, and of what is read from the source nothing changes
but that one info is inserted (`ofText_unknown_directive`).

A token carries its directive without the blanks around it. That does not make an unknown directive
known, since a pattern that fits a text fits whatever begins with that text
(`Pattern.isSome_match?_append`).
-/

namespace DataDictionary

open Text

/-! ## Patterns and what follows -/

theorem afterCapitals?_append {word cs rest : List Char} (h : afterCapitals? word cs = some rest)
    (ds : List Char) : afterCapitals? word (cs ++ ds) = some (rest ++ ds) := by
  induction word generalizing cs with
  | nil =>
    cases h
    rfl
  | cons w word ih =>
    cases cs with
    | nil => cases h
    | cons c cs =>
      simp only [afterCapitals?, Option.ite_none_right_eq_some] at h
      rw [List.cons_append, afterCapitals?, if_pos h.1]
      exact ih h.2

theorem afterWord?_append {word cs rest : List Char} (h : afterWord? word cs = some rest)
    (ds : List Char) : afterWord? word (cs ++ ds) = some (rest ++ ds) := by
  induction word generalizing cs with
  | nil =>
    cases h
    rfl
  | cons w word ih =>
    cases cs with
    | nil => cases h
    | cons c cs =>
      simp only [afterWord?, Option.ite_none_right_eq_some] at h
      rw [List.cons_append, afterWord?, if_pos h.1]
      exact ih h.2

theorem Spelling.after?_append {spelling : Spelling} {cs rest : List Char}
    (h : spelling.after? cs = some rest) (ds : List Char) :
    spelling.after? (cs ++ ds) = some (rest ++ ds) := by
  cases spelling with
  | capitals word => exact afterCapitals?_append h ds
  | anyCase word => exact afterWord?_append h ds

theorem Text.trimStart_append {c : Char} {cs rest : List Char} (h : trimStart cs = c :: rest)
    (ds : List Char) : trimStart (cs ++ ds) = c :: (rest ++ ds) := by
  unfold trimStart at h ⊢
  rw [List.dropWhile_append, h]
  rfl

theorem afterMark?_append {mark : Char} {cs rest : List Char} (h : afterMark? mark cs = some rest)
    (ds : List Char) : afterMark? mark (cs ++ ds) = some (rest ++ ds) := by
  unfold afterMark? at h ⊢
  split at h
  · next c cs' hcs =>
    obtain ⟨hc, hrest⟩ := Option.ite_none_right_eq_some.mp h
    cases hrest
    rw [trimStart_append hcs]
    exact if_pos hc
  · cases h

/-- More text may make the digits go on, but they begin as before. -/
theorem leadingDigits?_append {cs digits : List Char}
    (h : leadingDigits? (trimStart cs) = some digits) (ds : List Char) :
    ∃ more, leadingDigits? (trimStart (cs ++ ds)) = some more ∧ more.head? = digits.head? := by
  cases hcs : trimStart cs with
  | nil =>
    rw [hcs] at h
    cases h
  | cons c rest =>
    rw [hcs] at h
    rw [trimStart_append hcs]
    unfold leadingDigits? at h ⊢
    cases hc : c.isDigit with
    | false =>
      rw [List.takeWhile_cons_of_neg (by simp [hc])] at h
      cases h
    | true =>
      rw [List.takeWhile_cons_of_pos hc] at h ⊢
      cases h
      exact ⟨_, rfl, rfl⟩

/-- The keyword of a field kind is found where one stands, whatever comes behind it. -/
theorem isSome_leadingKind?_append {cs : List Char} (h : (leadingKind? (trimStart cs)).isSome)
    (ds : List Char) : (leadingKind? (trimStart (cs ++ ds))).isSome := by
  unfold leadingKind? at h ⊢
  rw [List.findSome?_isSome_iff] at h ⊢
  obtain ⟨kind, hkind, hword⟩ := h
  refine ⟨kind, hkind, ?_⟩
  rw [Option.isSome_map] at hword ⊢
  obtain ⟨rest, hrest⟩ := Option.isSome_iff_exists.mp hword
  cases hcs : trimStart cs with
  | nil =>
    -- no keyword is empty
    rw [hcs] at hrest
    cases kind <;> cases hrest
  | cons c cs' =>
    rw [hcs] at hrest
    rw [trimStart_append hcs, ← List.cons_append, afterWord?_append hrest]
    rfl

/-- Text that follows an argument does not take it away. -/
theorem ArgumentForm.isSome_read?_append {form : ArgumentForm} {cs : List Char}
    (h : (form.read? cs).isSome) (ds : List Char) : (form.read? (cs ++ ds)).isSome := by
  cases form with
  | flag | restOfLine | untilComment | beforeMark mark => rfl
  | afterMark mark =>
    rw [read?, Option.isSome_map] at h ⊢
    obtain ⟨rest, hrest⟩ := Option.isSome_iff_exists.mp h
    rw [afterMark?_append hrest]
    rfl
  | count =>
    obtain ⟨digits, hdigits⟩ := Option.isSome_iff_exists.mp h
    obtain ⟨more, hmore, -⟩ := leadingDigits?_append hdigits ds
    exact Option.isSome_iff_exists.mpr ⟨more, hmore⟩
  | groupSize =>
    simp only [read?, Option.bind_eq_bind, Option.isSome_iff_exists, Option.bind_eq_some_iff] at h ⊢
    obtain ⟨_, rest, hrest, digits, hdigits, hzero⟩ := h
    obtain ⟨more, hmore, hhead⟩ := leadingDigits?_append hdigits ds
    rw [Option.ite_none_left_eq_some] at hzero
    exact ⟨more, _, afterMark?_append hrest ds, more, hmore, by rw [hhead, if_neg hzero.1]⟩
  | fieldKind => exact isSome_leadingKind?_append h ds

/-- **What fits a text fits every text that begins with it.** -/
theorem Pattern.isSome_match?_append {p : Pattern} {cs : List Char} (h : (p.match? cs).isSome)
    (ds : List Char) : (p.match? (cs ++ ds)).isSome := by
  simp only [Pattern.match?, Option.bind_eq_bind, Option.isSome_iff_exists,
    Option.bind_eq_some_iff] at h ⊢
  obtain ⟨_, rest, hrest, argument, hargument, -⟩ := h
  obtain ⟨longer, hlonger⟩ := Option.isSome_iff_exists.mp
    (ArgumentForm.isSome_read?_append (Option.isSome_iff_exists.mpr ⟨argument, hargument⟩) ds)
  exact ⟨_, rest ++ ds, Spelling.after?_append hrest ds, longer, hlonger, rfl⟩

/-! ## Directives that no table knows -/

namespace Directive

/-- Whether no table has a rule for a directive. -/
def IsUnknown (text : String) : Prop := ∀ scope, classify? scope text = none

theorem classify?_eq_none_iff {scope : Scope} {text : String} :
    classify? scope text = none ↔
      ∀ r ∈ scope.rules, r.argument? (trimStart text.toList) = none := by
  simp only [classify?, List.findSome?_eq_none_iff, Option.map_eq_none_iff]

/-- Trimming makes no directive known. -/
theorem IsUnknown.strip {text : String} (h : IsUnknown text) : IsUnknown (strip text) := by
  intro scope
  have hunknown := classify?_eq_none_iff.mp (h scope)
  refine classify?_eq_none_iff.mpr fun r hr => ?_
  -- what is trimmed at the end would follow the argument
  obtain ⟨blanks, hblanks⟩ := trim_isPrefix text.toList
  rw [Text.strip, String.toList_ofList, trimStart_trim]
  by_contra hfits
  have hlonger := Pattern.isSome_match?_append (Option.isSome_iff_ne_none.mpr hfits) blanks
  rw [hblanks] at hlonger
  exact Option.isSome_iff_ne_none.mp hlonger (hunknown r hr)

theorem IsUnknown.isKnown_eq_false {text : String} (h : IsUnknown text) : isKnown text = false := by
  refine List.any_eq_false.mpr fun r hr => ?_
  have hnone : r.argument? (trimStart text.toList) = none := by
    rcases List.mem_append.mp hr with hr | hr
    · exact classify?_eq_none_iff.mp (h .object) r (List.mem_append_right _ hr)
    · exact classify?_eq_none_iff.mp (h .field) r (List.mem_append_right _ hr)
  rw [hnone]
  exact Bool.false_ne_true

end Directive

/-! ## What the reader makes of one -/

namespace State

theorem closeIf_none (s : State) : s.closeIf none = s := by
  cases h : s.current with
  | none => exact closeIf_of_none h none
  | some o =>
    have ho : o.closeIf none = o := by
      rw [OpenObject.closeIf]
      exact congrArg (fun closed => { o with closed }) (Bool.or_false _)
    rw [closeIf_of_some h, ho, ← h]

/-- **In any state, an unknown directive is reported and nothing else.** -/
theorem step_unknown {text : String} (h : Directive.IsUnknown text) (line : Nat)
    (comment : Option String) (s : State) :
    s.step ⟨.directive text none, line, comment⟩ = (s, [⟨line, .unrecognized text⟩]) := by
  have hstrange : s.strange text = .unrecognized text := by
    rw [strange, h.isKnown_eq_false, Bool.and_false]
    rfl
  rw [step_of_directive rfl, onDirective_of_none (h s.scope), closeIf_none, hstrange]

end State

/-- Among other tokens an unknown directive adds its own finding to theirs. -/
theorem readTokens_insert_unknown {text : String} (h : Directive.IsUnknown text) (line : Nat)
    (ts us : List Token) :
    ∃ earlier later, (readTokens (ts ++ us)).2 = earlier ++ later ∧
      readTokens (ts ++ ⟨.directive text none, line, none⟩ :: us) =
        ((readTokens (ts ++ us)).1, earlier ++ ⟨line, .unrecognized text⟩ :: later) := by
  let s := (State.run {} ts).1
  refine ⟨(State.run {} ts).2, (s.run us).2 ++ (s.run us).1.endObject.2, ?_, ?_⟩
  · rw [snd_readTokens, State.run_append, List.append_assoc]
  · unfold readTokens
    rw [State.run_append, State.run_append, State.run_cons, State.step_unknown h]
    simp [s]

/-! ## The two lines -/

namespace Text

theorem trimStart_of_blank {cs : List Char} (h : ∀ c ∈ cs, isBlank c = true) : trimStart cs = [] :=
  List.dropWhile_eq_nil_iff.mpr h

/-- There is no line feed in a line. -/
theorem lf_not_mem_of_mem_lines {cs l : List Char} (h : l ∈ lines cs) : '\n' ∉ l := by
  induction cs using linesInduction generalizing l with
  | nil => cases h
  | crlf cs ih =>
    rw [lines_crlf] at h
    rcases List.mem_cons.mp h with rfl | h
    · exact List.not_mem_nil
    · exact ih h
  | lf cs ih =>
    rw [lines_lf] at h
    rcases List.mem_cons.mp h with rfl | h
    · exact List.not_mem_nil
    · exact ih h
  | char c cs hlf hcrlf ih =>
    rw [lines_cons hlf hcrlf] at h
    cases hls : lines cs with
    | nil =>
      rw [hls] at h
      rw [List.mem_singleton.mp h]
      simpa using hlf.symm
    | cons m ms =>
      rw [hls] at h ih
      rcases List.mem_cons.mp h with rfl | h
      · exact List.not_mem_cons_of_ne_of_not_mem hlf.symm (ih List.mem_cons_self)
      · exact ih (List.mem_cons_of_mem _ h)

/-- With a carriage return at its end, whatever ends a line does not run into it. -/
theorem lines_append_crlf {l : List Char} (h : '\n' ∉ l) (cs : List Char) :
    lines (l ++ '\r' :: '\n' :: cs) = l :: lines cs := by
  induction l with
  | nil => exact lines_crlf cs
  | cons c l ih =>
    have hl : '\n' ∉ l := List.not_mem_of_not_mem_cons h
    have hhead : (l ++ '\r' :: '\n' :: cs).head? ≠ some '\n' := by
      cases l with
      | nil => simp
      | cons d l => simpa using (List.ne_of_not_mem_cons hl).symm
    rw [List.cons_append, lines_cons (List.ne_of_not_mem_cons h).symm fun _ => hhead, ih hl]
    rfl

/-- Any lines are the lines of a text. -/
theorem exists_lines {ls : List (List Char)} (h : ∀ l ∈ ls, '\n' ∉ l) :
    ∃ text : String, lines text.toList = ls := by
  induction ls with
  | nil => exact ⟨"", rfl⟩
  | cons l ls ih =>
    obtain ⟨text, htext⟩ := ih fun m hm => h m (List.mem_cons_of_mem _ hm)
    refine ⟨String.ofList (l ++ '\r' :: '\n' :: text.toList), ?_⟩
    rw [String.toList_ofList, lines_append_crlf (h l List.mem_cons_self), htext]

end Text

namespace Token

theorem seen_ofLine_blank {blank : List Char} (h : ∀ c ∈ blank, isBlank c = true) (n : Nat) :
    seen (ofLine blank n) = [] := by
  have hcode : ∀ c ∈ codeOf blank, isBlank c = true :=
    fun c hc => h c ((List.takeWhile_sublist _).subset hc)
  have hcore : coreOf blank = [] := by
    rw [coreOf, trim, trimStart_of_blank hcode]
    rfl
  rw [seen_ofLine_core, hcore]
  rfl

theorem seen_ofLine_directive {d : String} (hsome : strip d ≠ "")
    (hplain : ∀ c ∈ d.toList, c ≠ '\\' ∧ c ≠ '!') (n : Nat) :
    seen (ofLine ('\\' :: d.toList) n) = [⟨.directive (strip d) none, n, none⟩] := by
  have hcode : codeOf ('\\' :: d.toList) = '\\' :: d.toList := by
    refine List.takeWhile_eq_self_iff.mpr fun c hc => ?_
    rcases List.mem_cons.mp hc with rfl | hc
    · decide
    · exact decide_eq_true (hplain c hc).2
  have hpieces : cutAt '\\' d.toList = [d.toList] :=
    cutAt_of_not_mem fun hmem => (hplain _ hmem).1 rfl
  have hvoid : Segment.isVoid ⟨d.toList, none⟩ = false := by
    have htrim : trim d.toList ≠ [] := fun hnil => hsome (by rw [strip, hnil])
    simp [Segment.isVoid, htrim]
  have hbodies : bodiesOfCode ('\\' :: d.toList) = [.directive (strip d) none] := by
    show directives false d.toList = _
    rw [directives, hpieces]
    simp [bodies, hvoid, strip]
  rw [seen_ofLine, hcode, hbodies]
  rfl

theorem ofLines_append_cons (n : Nat) (pre post : List (List Char)) (l : List Char) :
    ofLines n (pre ++ l :: post) =
      ofLines n pre ++ (ofLine l (n + pre.length) ++ ofLines (n + pre.length + 1) post) := by
  rw [ofLines_append, ofLines]

end Token

namespace Header

/-- A line that ends the header may be exchanged for another such line. -/
theorem ofText_congr_line {a b : String} {pre post : List (List Char)} {l m : List Char}
    (ha : lines a.toList = pre ++ l :: post) (hb : lines b.toList = pre ++ m :: post)
    (hl : isCommentLine l = false) (hm : isCommentLine m = false) : ofText a = ofText b := by
  have hlines : linesOf a = linesOf b := by
    rw [linesOf, linesOf, ha, hb, List.takeWhile_append, List.takeWhile_append,
      List.takeWhile_cons_of_neg (by simp [hl]), List.takeWhile_cons_of_neg (by simp [hm])]
  rw [ofText, ofText, hlines]

theorem isCommentLine_blank {blank : List Char} (h : ∀ c ∈ blank, isBlank c = true) :
    isCommentLine blank = false := by
  rw [isCommentLine, trimStart_of_blank h]
  rfl

theorem isCommentLine_directive (cs : List Char) : isCommentLine ('\\' :: cs) = false := by
  rw [isCommentLine, trimStart_eq_self (by decide)]
  rfl

end Header

/-! ## A source with an unknown directive -/

/-- **An unknown directive is harmless.** Wherever a blank line of a source stands, a directive that
no table knows can be put in its place, and whatever text then has these lines is read as before,
but for one info at that line. -/
theorem Source.ofText_unknown_directive {text d : String} {pre post : List (List Char)}
    {blank : List Char} (hlines : lines text.toList = pre ++ blank :: post)
    (hblank : ∀ c ∈ blank, isBlank c = true) (hsome : strip d ≠ "")
    (hplain : ∀ c ∈ d.toList, c ≠ '\\' ∧ c ≠ '!' ∧ c ≠ '\n') (hunknown : Directive.IsUnknown d) :
    let finding : Finding := ⟨pre.length + 1, .unrecognized (strip d)⟩
    finding.problem.severity = .info ∧ finding.problem.kind = .unrecognizedDirective ∧
    (∃ text' : String, lines text'.toList = pre ++ ('\\' :: d.toList) :: post) ∧
    ∀ text' : String, lines text'.toList = pre ++ ('\\' :: d.toList) :: post →
      ∃ earlier later, (ofText text).findings = earlier ++ later ∧
        ofText text' = { ofText text with findings := earlier ++ finding :: later } := by
  intro finding
  refine ⟨rfl, rfl, exists_lines fun l hl => ?_, fun text' hlines' => ?_⟩
  · -- the lines that stay were lines already
    have hold : ∀ l ∈ pre ++ blank :: post, '\n' ∉ l :=
      fun l hl => lf_not_mem_of_mem_lines (hlines ▸ hl)
    rcases List.mem_append.mp hl with hl | hl
    · exact hold l (List.mem_append_left _ hl)
    · rcases List.mem_cons.mp hl with rfl | hl
      · exact List.not_mem_cons_of_ne_of_not_mem (by decide) fun hmem => (hplain _ hmem).2.2 rfl
      · exact hold l (List.mem_append_right _ (List.mem_cons_of_mem _ hl))
  · let ts := Token.seen (Token.ofLines 1 pre)
    let us := Token.seen (Token.ofLines (pre.length + 1 + 1) post)
    let t : Token := ⟨.directive (strip d) none, pre.length + 1, none⟩
    have hseen : Token.seen (Token.ofText text) = ts ++ us := by
      rw [Token.ofText, hlines, Token.ofLines_append_cons, Token.seen_append, Token.seen_append,
        Token.seen_ofLine_blank hblank, Nat.add_comm 1]
      rfl
    have hseen' : Token.seen (Token.ofText text') = ts ++ t :: us := by
      rw [Token.ofText, hlines', Token.ofLines_append_cons, Token.seen_append, Token.seen_append,
        Token.seen_ofLine_directive hsome fun c hc => ⟨(hplain c hc).1, (hplain c hc).2.1⟩,
        Nat.add_comm 1]
      rfl
    have hheader : Header.ofText text' = Header.ofText text :=
      Header.ofText_congr_line hlines' hlines (Header.isCommentLine_directive _)
        (Header.isCommentLine_blank hblank)
    obtain ⟨earlier, later, hfindings, hread⟩ :=
      readTokens_insert_unknown hunknown.strip (pre.length + 1) ts us
    rw [← hseen, readTokens_seen] at hfindings hread
    rw [← hseen', readTokens_seen] at hread
    refine ⟨earlier, later, hfindings, ?_⟩
    rw [ofText, ofText, hread, hheader]

/-- Between an inclusion and what is removed from it, with an object behind them that is never
closed: the semicolon of the unknown directive closes nothing. -/
theorem Source.ofText_colour_red :
    let text := "!IDD_Version 1.2\n\\include-file walls.idd\n \t\n\\remove-object Wall\nZone,\n"
    let pre := ["!IDD_Version 1.2".toList, "\\include-file walls.idd".toList]
    let post := ["\\remove-object Wall".toList, "Zone,".toList]
    lines text.toList = pre ++ " \t".toList :: post ∧
    (∀ c ∈ " \t".toList, isBlank c = true) ∧ strip " colour red; " = "colour red;" ∧
    Directive.IsUnknown " colour red; " ∧
    (ofText text).findings = [⟨5, .unterminated "Zone"⟩] ∧
    ∃ text' : String, lines text'.toList = pre ++ "\\ colour red; ".toList :: post ∧
      ∃ earlier later, (ofText text).findings = earlier ++ later ∧
        ofText text' = { ofText text with
          findings := earlier ++ ⟨3, .unrecognized "colour red;"⟩ :: later } := by
  intro text pre post
  have hlines : lines text.toList = pre ++ " \t".toList :: post := by decide +kernel
  have hunknown : Directive.IsUnknown " colour red; " := fun scope => by
    cases scope <;> decide +kernel
  have hblank : ∀ c ∈ " \t".toList, isBlank c = true := List.all_eq_true.mp (by decide +kernel)
  have hplain : ∀ c ∈ " colour red; ".toList, c ≠ '\\' ∧ c ≠ '!' ∧ c ≠ '\n' := by
    simpa only [List.all_eq_true, decide_eq_true_eq] using
      (by decide +kernel : " colour red; ".toList.all (fun c => c ≠ '\\' ∧ c ≠ '!' ∧ c ≠ '\n'))
  obtain ⟨-, -, ⟨text', hlines'⟩, h⟩ := ofText_unknown_directive hlines hblank
    (by decide +kernel) hplain hunknown
  exact ⟨hlines, hblank, by decide +kernel, hunknown, by decide +kernel, text', hlines',
    h text' hlines'⟩

end DataDictionary
