import DataDictionary.Header
import DataDictionary.Proofs.LosslessTokens

/-!
# Lines that hold nothing but a comment

Such lines are recognized twice, by the header and by the reader. The header wants the comment to
stand first on its line, blanks aside. For the reader it is enough that nothing in front of it makes
a token, and backslashes without any text make none either (`Token.bodiesOfCode_eq_nil_iff`). So the
header is the run of lines that are only comments to the reader as well, up to the first of them
with a backslash in front of its comment (`Header.ofText_commentLines`): such a line ends the header
although the reader finds nothing but a comment on it (`Header.backslash_ends_header`). If blanks
are all that may stand in front of the comment on such lines, it is the reader that departs from
that, and if the lines are those that only make a comment, it is the header.
-/

namespace DataDictionary

open Text

namespace Token

/-! ## Code without tokens -/

theorem trim_eq_nil_of_ink {cs : List Char} (h : ink cs = []) : trim cs = [] := by
  have hblank : ∀ c ∈ cs, isBlank c = true := by simpa [ink] using h
  rw [trim, trimStart, List.dropWhile_eq_nil_iff.mpr hblank, trimEnd_nil]

/-- Every body that is made from a segment shows something. -/
theorem ink_written_of_mem_bodies {make : String → Option Separator → TokenBody}
    (hmake : ∀ text ending,
      (make text ending).written = text.toList ++ (ending.map Separator.char).toList)
    {segments : List Segment} {body : TokenBody} (h : body ∈ bodies make segments) :
    ink body.written ≠ [] := by
  obtain ⟨s, hs, rfl⟩ := List.mem_map.mp h
  obtain ⟨-, hvoid⟩ := List.mem_filter.mp hs
  intro hink
  rw [hmake, String.toList_ofList, ink_append, ink_trim, List.append_eq_nil_iff] at hink
  have hending : s.ending = none := by
    cases he : s.ending with
    | none => rfl
    | some e =>
      -- no separator is blank
      rw [he] at hink
      cases e <;> exact absurd hink.2 (by decide)
  simp [Segment.isVoid, hending, trim_eq_nil_of_ink hink.1] at hvoid

theorem ink_written_of_mem_bodiesOfCode {code : List Char} {body : TokenBody}
    (h : body ∈ bodiesOfCode code) : ink body.written ≠ [] := by
  rcases bodiesOfCode_cases code with ⟨-, hbodies⟩ | ⟨content, run, -, -, hbodies⟩
  · exact ink_written_of_mem_bodies (fun _ _ => rfl) (hbodies ▸ h)
  · rw [hbodies] at h
    rcases List.mem_append.mp h with h | h
    · exact ink_written_of_mem_bodies (fun _ _ => rfl) h
    · exact ink_written_of_mem_bodies (fun _ _ => rfl) h

/-- **Code makes no tokens exactly if it is all blanks and backslashes.** -/
theorem bodiesOfCode_eq_nil_iff (code : List Char) :
    bodiesOfCode code = [] ↔ ∀ c ∈ code, isBlank c = true ∨ c = '\\' := by
  have hink := ink_flatMap_written_bodiesOfCode code
  have hnothing : (ink code).filter (· ≠ '\\') = [] ↔
      ∀ c ∈ code, isBlank c = true ∨ c = '\\' := by
    simp [ink, or_iff_not_imp_right]
  rw [← hnothing, ← hink]
  constructor
  · intro hnil
    rw [hnil, List.flatMap_nil, ink_nil]
  · -- a single token would already show something
    intro hnone
    refine List.eq_nil_iff_forall_not_mem.mpr fun body hbody => ?_
    obtain ⟨before, after, hsplit⟩ := List.append_of_mem hbody
    rw [hsplit, List.flatMap_append, List.flatMap_cons, ink_append, ink_append,
      List.append_eq_nil_iff, List.append_eq_nil_iff] at hnone
    exact ink_written_of_mem_bodiesOfCode hbody hnone.2.1

/-! ## Lines without code -/

/-- Whether the only token of a line is its comment. -/
def isLoneComment (line : List Char) : Bool :=
  match ofLine line 1 with
  | [t] => t.isComment
  | _ => false

theorem mem_iff_commentOf? (line : List Char) : '!' ∈ line ↔ (commentOf? line).isSome = true := by
  have hline := codeOf_append_marked line
  constructor
  · intro hmem
    rw [hline] at hmem
    rcases List.mem_append.mp hmem with hcode | hcomment
    · exact absurd hcode (not_mem_takeWhile_ne '!' line)
    · cases h : commentOf? line with
      | none => simp [h, marked] at hcomment
      | some text => rfl
  · intro hsome
    obtain ⟨text, htext⟩ := Option.isSome_iff_exists.mp hsome
    rw [hline, htext]
    simp [marked]

/-- **Which lines are only a comment to the reader.** -/
theorem ofLine_eq_comment_iff (line : List Char) (n : Nat) :
    (∃ text, ofLine line n = [⟨.comment text, n, none⟩]) ↔
      '!' ∈ line ∧ ∀ c ∈ codeOf line, isBlank c = true ∨ c = '\\' := by
  rw [← bodiesOfCode_eq_nil_iff, mem_iff_commentOf?]
  rcases ofLine_cases line n with ⟨hnil, hline⟩ | ⟨before, last, hbodies, hline⟩
  · rw [hline, hnil]
    cases commentOf? line <;> simp
  · -- the last token is one of code
    have hcode : TextOf (codeOf line) last := textOf_of_mem_bodiesOfCode (by simp [hbodies])
    rw [hline, hbodies]
    constructor
    · rintro ⟨text, heq⟩
      obtain ⟨-, hlast⟩ := List.append_inj' (heq.trans (List.nil_append _).symm) rfl
      have hcomment : last = .comment text := congrArg Token.body (List.cons.inj hlast).1
      rw [hcomment] at hcode
      cases hcode
    · rintro ⟨-, hnil⟩
      simp at hnil

theorem isLoneComment_iff (line : List Char) :
    isLoneComment line = true ↔ '!' ∈ line ∧ ∀ c ∈ codeOf line, isBlank c = true ∨ c = '\\' := by
  rw [← ofLine_eq_comment_iff line 1]
  unfold isLoneComment
  constructor
  · intro h
    split at h
    · next t hline =>
      have hmem : t ∈ ofLine line 1 := hline ▸ List.mem_singleton_self t
      rcases (ofLine_mem_cases hmem).2 with htext | ⟨text, ht, -⟩
      · obtain ⟨body, line, comment⟩ := t
        cases htext <;> cases h
      · exact ⟨text, ht ▸ hline⟩
    · cases h
  · rintro ⟨text, hline⟩
    rw [hline]
    rfl

end Token

/-! ## The header -/

namespace Header

open Token

/-- **Which lines are only a comment to the header.** -/
theorem isCommentLine_iff (line : List Char) :
    isCommentLine line = true ↔ '!' ∈ line ∧ ∀ c ∈ codeOf line, isBlank c = true := by
  induction line with
  | nil => simp [isCommentLine]
  | cons c cs ih =>
    by_cases hmark : c = '!'
    · subst hmark
      have hstart : trimStart ('!' :: cs) = '!' :: cs := trimStart_eq_self (by decide)
      simp [isCommentLine, codeOf, hstart]
    · -- blanks in front of the mark are skipped one by one, anything else ends the search
      have hcode : codeOf (c :: cs) = c :: codeOf cs :=
        List.takeWhile_cons_of_pos (decide_eq_true hmark)
      rw [hcode, List.forall_mem_cons, List.mem_cons, isCommentLine, trimStart_cons]
      cases hblank : isBlank c with
      | true =>
        rw [if_pos rfl, ← isCommentLine, ih]
        simp [Ne.symm hmark]
      | false => simp [hmark]

/-- The header asks for more: there may be no backslash in front of the comment either. -/
theorem isCommentLine_eq (line : List Char) :
    isCommentLine line = (isLoneComment line && decide ('\\' ∉ codeOf line)) := by
  rw [Bool.eq_iff_iff, isCommentLine_iff, Bool.and_eq_true, isLoneComment_iff, decide_eq_true_eq]
  constructor
  · rintro ⟨hmark, hblank⟩
    exact ⟨⟨hmark, fun c hc => .inl (hblank c hc)⟩, fun hmem => absurd (hblank _ hmem) (by decide)⟩
  · rintro ⟨⟨hmark, hall⟩, hnone⟩
    exact ⟨hmark, fun c hc => (hall c hc).resolve_right (ne_of_mem_of_not_mem hc hnone)⟩

/-- A line states a value behind a fixed beginning: as many characters of one class as there are. -/
def States (beginning : String) (isPart : Char → Bool) (line : List Char) (value : String) : Prop :=
  ∃ rest, line = beginning.toList ++ (value.toList ++ rest) ∧ value ≠ "" ∧
    (∀ c ∈ value.toList, isPart c = true) ∧ ∀ c ∈ rest.head?, isPart c = false

theorem valueAfter?_eq_some_iff {beginning : String} {isPart : Char → Bool} {line : List Char}
    {value : String} :
    valueAfter? beginning isPart line = some value ↔ States beginning isPart line value := by
  have hlength : beginning.length = beginning.toList.length := String.length_toList.symm
  unfold valueAfter?
  constructor
  · intro h
    obtain ⟨hbeginning, h⟩ := Option.ite_none_right_eq_some.mp h
    obtain ⟨t, rfl⟩ := List.isPrefixOf_iff_prefix.mp hbeginning
    rw [hlength, List.drop_left] at h
    split at h
    · cases h
    · next hne =>
      cases h
      refine ⟨t.dropWhile isPart, ?_, fun hempty => hne ?_, fun c hc => ?_, fun c hc => ?_⟩
      · rw [String.toList_ofList, List.takeWhile_append_dropWhile]
      · rwa [String.ofList_eq_empty_iff] at hempty
      · rw [String.toList_ofList] at hc
        exact List.mem_takeWhile_imp hc
      · have hhead := List.head?_dropWhile_not isPart t
        rw [Option.mem_def.mp hc] at hhead
        exact hhead
  · rintro ⟨rest, rfl, hne, hpart, hrest⟩
    have hend : rest.takeWhile isPart = [] := by
      cases rest with
      | nil => rfl
      | cons c rest => exact List.takeWhile_cons_of_neg (by simp [hrest c rfl])
    rw [if_pos (List.isPrefixOf_iff_prefix.mpr (List.prefix_append _ _)), hlength, List.drop_left,
      List.takeWhile_append_of_pos hpart, hend, List.append_nil]
    split
    · next hnil => exact absurd (String.toList_eq_nil_iff.mp hnil) hne
    · rw [String.ofList_toList]

/-- Of the lines that state something, blanks in front aside, the first one states this. -/
def FirstStates (beginning : String) (isPart : Char → Bool) (ls : List (List Char))
    (value : String) : Prop :=
  ∃ before line after, ls = before ++ line :: after ∧
    States beginning isPart (trimStart line) value ∧
    ∀ l ∈ before, ∀ other, ¬States beginning isPart (trimStart l) other

theorem findSome?_valueAfter?_iff {beginning : String} {isPart : Char → Bool}
    {ls : List (List Char)} {value : String} :
    ls.findSome? (fun line => valueAfter? beginning isPart (trimStart line)) = some value ↔
      FirstStates beginning isPart ls value := by
  rw [List.findSome?_eq_some_iff]
  refine exists₃_congr fun before line after => and_congr_right fun _ => ?_
  rw [valueAfter?_eq_some_iff]
  refine and_congr_right fun _ => forall₂_congr fun l _ => ?_
  rw [Option.eq_none_iff_forall_ne_some]
  exact forall_congr' fun other => not_congr valueAfter?_eq_some_iff

/-- **What the header is.** Its lines are those that are only a comment to the reader, from the
first line on and up to the first with a backslash in front of its comment. The first of them that
states a version, or a build, gives that of the dictionary. -/
theorem ofText_commentLines (text : String) :
    let run := (lines text.toList).takeWhile isLoneComment
    (∀ line n, isLoneComment line = true ↔
      ∃ comment, ofLine line n = [⟨.comment comment, n, none⟩]) ∧
    linesOf text = run.takeWhile (fun line => '\\' ∉ codeOf line) ∧
    (linesOf text = run ↔ ∀ line ∈ run, '\\' ∉ codeOf line) ∧
    (ofText text).text = "\n".intercalate ((linesOf text).map String.ofList) ∧
    (∀ value, (ofText text).version = some value ↔
      FirstStates "!IDD_Version " (fun c => c.isDigit || c == '.') (linesOf text) value) ∧
    ∀ value, (ofText text).build = some value ↔
      FirstStates "!IDD_BUILD " (!isBlank ·) (linesOf text) value := by
  intro run
  have hlines : linesOf text = run.takeWhile (fun line => '\\' ∉ codeOf line) := by
    rw [List.takeWhile_takeWhile, linesOf]
    congr 1
    funext line
    rw [isCommentLine_eq]
    simp [Bool.and_comm]
  refine ⟨fun line n => ?_, hlines, ?_, rfl, fun _ => findSome?_valueAfter?_iff,
    fun _ => findSome?_valueAfter?_iff⟩
  · rw [isLoneComment_iff, ofLine_eq_comment_iff]
  · rw [hlines, List.takeWhile_eq_self_iff]
    simp only [decide_eq_true_eq]

/-- A backslash in front of its comment keeps a line, and all below it, out of the header. -/
theorem backslash_ends_header :
    let text := "\\! x\n!IDD_Version 1.0\n"
    (lines text.toList).takeWhile isLoneComment = lines text.toList ∧
      ofText text = { text := "", version := none, build := none } ∧
      ¬∀ text, linesOf text = (lines text.toList).takeWhile isLoneComment := by
  intro text
  have hrun : (lines text.toList).takeWhile isLoneComment = lines text.toList := by decide +kernel
  refine ⟨hrun, by decide +kernel, fun hall => ?_⟩
  have hlines : linesOf text = lines text.toList := (hall text).trans hrun
  exact absurd hlines (by decide +kernel)

end Header

end DataDictionary
