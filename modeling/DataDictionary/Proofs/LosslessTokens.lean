import DataDictionary.Proofs.Declarations
import DataDictionary.Proofs.Pieces

/-!
# Nothing of a line is lost

A line is its code and its comment. Every step in which the code is taken apart keeps all of its
characters in their order, up to blanks and the backslashes themselves: the cuts at backslashes and
separators (`flatten_cutAt`, `Segment.flatMap_chars_ofText`), taking a separator off the end of a
directive, and trimming. What is dropped for being void has nothing but blanks in it. So the tokens
of a line, written out again, are its code without blanks and backslashes; and its comment goes to
the last of them, or makes a token of its own (`Token.ofText_isLossless`).
-/

namespace DataDictionary

namespace Text

/-- A text without its blanks. -/
def ink (cs : List Char) : List Char := cs.filter (!isBlank ·)

@[simp] theorem ink_nil : ink [] = [] := rfl

@[simp] theorem ink_append (cs ds : List Char) : ink (cs ++ ds) = ink cs ++ ink ds :=
  List.filter_append ..

theorem ink_trimStart (cs : List Char) : ink (trimStart cs) = ink cs := by
  induction cs with
  | nil => rfl
  | cons c cs ih =>
    rw [trimStart_cons]
    split
    · next h => rw [ih, ink, ink, List.filter_cons_of_neg (by simp [h])]
    · rfl

/-- Only blanks are trimmed. -/
@[simp] theorem ink_trim (cs : List Char) : ink (trim cs) = ink cs := by
  have hreverse : ∀ ds : List Char, ink ds.reverse = (ink ds).reverse := fun ds =>
    List.filter_reverse ..
  have hend : ink (trimEnd (trimStart cs)) = ink (trimStart cs) := by
    rw [trimEnd, hreverse, ← trimStart, ink_trimStart, hreverse, List.reverse_reverse]
  rw [trim, hend, ink_trimStart]

end Text

open Text

/-! ## Segments -/

namespace Segment

theorem ink_chars_ofEnding (cs : List Char) : ink (ofEnding cs).chars = ink cs := by
  rcases ofEnding_cases cs with htrim | hself
  · rw [← htrim, ink_trim]
  · rw [hself, chars, Option.map_none, Option.toList_none, List.append_nil]

/-- There is nothing to see of a void segment. -/
theorem ink_chars_of_isVoid {s : Segment} (h : s.isVoid = true) : ink s.chars = [] := by
  rw [isVoid, Bool.and_eq_true, beq_iff_eq, Option.isNone_iff_eq_none] at h
  rw [chars, h.2, Option.map_none, Option.toList_none, List.append_nil, ← ink_trim, h.1, ink_nil]

end Segment

/-! ## Token bodies -/

/-- What a token writes of the code of its line: its text and the separator behind it. -/
def TokenBody.written : TokenBody → List Char
  | .content text ending | .directive text ending =>
    text.toList ++ (ending.map Separator.char).toList
  | .comment _ => []

namespace Token

/-- **Bodies show what their segments show.** -/
theorem ink_flatMap_written_bodies {make : String → Option Separator → TokenBody}
    (hmake : ∀ text ending,
      (make text ending).written = text.toList ++ (ending.map Separator.char).toList)
    (segments : List Segment) :
    ink ((bodies make segments).flatMap TokenBody.written) =
      ink (segments.flatMap Segment.chars) := by
  induction segments with
  | nil => rfl
  | cons s rest ih =>
    unfold bodies at ih ⊢
    rw [List.flatMap_cons, ink_append]
    cases hvoid : s.isVoid with
    | true =>
      rw [List.filter_cons_of_neg (by simp [hvoid]), ih, Segment.ink_chars_of_isVoid hvoid,
        List.nil_append]
    | false =>
      -- its text was trimmed, which takes blanks only
      rw [List.filter_cons_of_pos (by simp [hvoid]), List.map_cons, List.flatMap_cons, ink_append,
        ih, hmake, String.toList_ofList, ink_append, ink_trim, ← ink_append]
      rfl

theorem ink_flatMap_written_directives (afterContent : Bool) (run : List Char) :
    ink ((directives afterContent run).flatMap TokenBody.written) =
      (ink run).filter (· ≠ '\\') := by
  have hpiece : ∀ piece : List Char,
      ink (if afterContent then Segment.ofEnding piece else ⟨piece, none⟩ : Segment).chars =
        ink piece := by
    intro piece
    split
    · exact Segment.ink_chars_ofEnding piece
    · rw [Segment.chars, Option.map_none, Option.toList_none, List.append_nil]
  have hpieces : ∀ pieces : List (List Char),
      ink ((pieces.map fun piece =>
        if afterContent then Segment.ofEnding piece else ⟨piece, none⟩).flatMap Segment.chars) =
        ink pieces.flatten := by
    intro pieces
    induction pieces with
    | nil => rfl
    | cons piece rest ih =>
      rw [List.map_cons, List.flatMap_cons, ink_append, hpiece, ih, List.flatten_cons, ink_append]
  rw [directives, ink_flatMap_written_bodies (fun _ _ => rfl), hpieces, flatten_cutAt, ink, ink,
    List.filter_filter, List.filter_filter]
  exact List.filter_congr fun c _ => Bool.and_comm ..

theorem ink_flatMap_written_content {cs : List Char} (h : '\\' ∉ cs) :
    ink ((bodies .content (Segment.ofText cs)).flatMap TokenBody.written) =
      (ink cs).filter (· ≠ '\\') := by
  have hplain : ∀ c ∈ ink cs, decide (c ≠ '\\') = true := fun c hc =>
    decide_eq_true fun hmark => h (hmark ▸ List.mem_of_mem_filter hc)
  rw [ink_flatMap_written_bodies (fun _ _ => rfl), Segment.flatMap_chars_ofText,
    List.filter_eq_self.mpr hplain]

/-- The bodies of a line show its code, up to the backslashes. -/
theorem ink_flatMap_written_bodiesOfCode (code : List Char) :
    ink ((bodiesOfCode code).flatMap TokenBody.written) = (ink code).filter (· ≠ '\\') := by
  rcases bodiesOfCode_cases code with ⟨hplain, hbodies⟩ | ⟨content, run, hplain, rfl, hbodies⟩
  · rw [hbodies, ink_flatMap_written_content hplain]
  · -- the backslash between the two parts is dropped on either side
    rw [hbodies, List.flatMap_append, ink_append, ink_flatMap_written_content hplain,
      ink_flatMap_written_directives, ink_append, List.filter_append]
    rfl

/-! ## Tokens -/

/-- The comments that a token carries. -/
def comments (t : Token) : List String :=
  match t.body with
  | .comment text => text :: t.comment.toList
  | _ => t.comment.toList

/-- The comment of a line with its mark. -/
def marked (comment : Option String) : List Char :=
  (comment.map fun text => '!' :: text.toList).getD []

/-- Code and comment make up the line. -/
theorem codeOf_append_marked (line : List Char) :
    line = codeOf line ++ marked (commentOf? line) := by
  unfold codeOf commentOf? marked
  rcases dropWhile_ne_cases '!' line with ⟨hdrop, htake⟩ | ⟨comment, hdrop, hline⟩
  · rw [hdrop, htake]
    exact (List.append_nil line).symm
  · rw [hdrop]
    dsimp only
    rwa [Option.map_some, Option.getD_some, String.toList_ofList]

/-- The tokens `ts` hold all of a line and nothing else. -/
structure IsLossless (line : List Char) (number : Nat) (ts : List Token) : Prop where
  /-- Code and comment make up the line. -/
  parts : '!' ∉ codeOf line ∧ line = codeOf line ++ marked (commentOf? line)
  /-- The tokens written out are the code without blanks and backslashes. -/
  code : (ts.flatMap (·.body.written)).filter (!isBlank ·) =
    (codeOf line).filter fun c => !isBlank c && c ≠ '\\'
  /-- The comment is with the last token and with no other. -/
  comment : ∀ before t after, ts = before ++ t :: after →
    t.comments = if after = [] then (commentOf? line).toList else []
  /-- A comment always has a token to go with. -/
  nonempty : (commentOf? line).isSome → ts ≠ []
  /-- It is a token of its own only if there is no other. -/
  lone : ∀ t ∈ ts, t.isComment = true → ts = [t]
  content : ∀ t ∈ ts, ∀ text ending, t.body = .content text ending →
    IsTrimmed text ∧ ∀ c ∈ [',', ';', '\\', '!'], c ∉ text.toList
  directive : ∀ t ∈ ts, ∀ text ending, t.body = .directive text ending →
    IsTrimmed text ∧ ∀ c ∈ ['\\', '!'], c ∉ text.toList
  line : ∀ t ∈ ts, t.line = number

theorem flatMap_written_ofLine (line : List Char) (n : Nat) :
    (ofLine line n).flatMap (·.body.written) =
      (bodiesOfCode (codeOf line)).flatMap TokenBody.written := by
  rcases ofLine_cases line n with ⟨hbodies, hline⟩ | ⟨before, last, hbodies, hline⟩
  · rw [hbodies, hline]
    cases commentOf? line <;> rfl
  · rw [hbodies, hline, List.flatMap_append, List.flatMap_append, List.flatMap_map]
    rfl

/-- A token of code carries no comment but the one it was given. -/
theorem comments_of_mem_bodiesOfCode {code : List Char} {body : TokenBody}
    (h : body ∈ bodiesOfCode code) (n : Nat) (comment : Option String) :
    comments ⟨body, n, comment⟩ = comment.toList := by
  cases textOf_of_mem_bodiesOfCode h <;> rfl

theorem comments_ofLine {line : List Char} {n : Nat} {t : Token} {before after : List Token}
    (h : ofLine line n = before ++ t :: after) :
    t.comments = if after = [] then (commentOf? line).toList else [] := by
  rcases ofLine_cases line n with ⟨-, hline⟩ | ⟨bodies, last, hbodies, hline⟩
  · -- the only token there may be is the comment itself
    rw [h] at hline
    cases hcomment : commentOf? line with
    | none => simp [hcomment] at hline
    | some text =>
      rw [hcomment, Option.map_some, Option.toList_some, List.append_eq_singleton_iff] at hline
      rcases hline with ⟨-, hline⟩ | ⟨-, hline⟩
      · obtain ⟨rfl, rfl⟩ := List.cons.inj hline
        rfl
      · cases hline
  · have hcarries : ∀ {body : TokenBody}, body ∈ bodies ++ [last] → ∀ comment,
        comments ⟨body, n, comment⟩ = comment.toList := fun hbody =>
      comments_of_mem_bodiesOfCode (hbodies ▸ hbody) n
    rw [h] at hline
    rcases List.eq_nil_or_concat' after with rfl | ⟨init, z, rfl⟩
    · obtain ⟨-, hlast⟩ := List.append_inj' hline rfl
      rw [(List.cons.inj hlast).1, if_pos rfl, hcarries (by simp)]
    · -- another token is the last one, and `t` is one of those in front of it
      rw [← List.cons_append, ← List.append_assoc] at hline
      obtain ⟨hinit, -⟩ := List.append_inj' hline rfl
      have hmem : t ∈ bodies.map fun body => (⟨body, n, none⟩ : Token) := by
        rw [← hinit]
        simp
      obtain ⟨body, hbody, rfl⟩ := List.mem_map.mp hmem
      rw [if_neg (by simp), hcarries (List.mem_append_left _ hbody), Option.toList_none]

/-- **Nothing of a line is lost, repeated or moved.** -/
theorem isLossless_ofLine (line : List Char) (number : Nat) :
    IsLossless line number (ofLine line number) where
  parts := ⟨not_mem_takeWhile_ne '!' line, codeOf_append_marked line⟩
  code := by
    have hink := ink_flatMap_written_bodiesOfCode (codeOf line)
    rw [← flatMap_written_ofLine line number, ink, ink, List.filter_filter] at hink
    rw [hink]
    exact List.filter_congr fun c _ => Bool.and_comm ..
  comment := fun _ _ _ h => comments_ofLine h
  nonempty := by
    intro hcomment hnil
    rcases ofLine_cases line number with ⟨-, hline⟩ | ⟨before, last, -, hline⟩
    · rw [hnil] at hline
      cases hsome : commentOf? line <;> simp [hsome] at hcomment hline
    · simp [hnil] at hline
  lone := by
    intro t ht hcomment
    rcases (ofLine_mem_cases ht).2 with htext | ⟨_, -, honly⟩
    · obtain ⟨body, line, comment⟩ := t
      cases htext <;> cases hcomment
    · exact honly
  content := by
    intro t ht text ending hbody
    rcases (ofLine_mem_cases ht).2 with htext | ⟨_, rfl, -⟩
    · rw [hbody] at htext
      cases htext with
      | content _ htrim hmem =>
        refine ⟨htrim, fun c hc hin => ?_⟩
        obtain ⟨hcode, hbackslash, hseparator⟩ := hmem c hin
        have hmark : c ≠ '!' := ne_of_mem_of_not_mem hcode (not_mem_takeWhile_ne '!' line)
        simp only [List.mem_cons, List.not_mem_nil, or_false] at hc
        rcases hc with rfl | rfl | rfl | rfl
        · cases hseparator
        · cases hseparator
        · exact hbackslash rfl
        · exact hmark rfl
    · cases hbody
  directive := by
    intro t ht text ending hbody
    rcases (ofLine_mem_cases ht).2 with htext | ⟨_, rfl, -⟩
    · rw [hbody] at htext
      cases htext with
      | directive _ htrim hmem =>
        refine ⟨htrim, fun c hc hin => ?_⟩
        obtain ⟨hcode, hbackslash⟩ := hmem c hin
        have hmark : c ≠ '!' := ne_of_mem_of_not_mem hcode (not_mem_takeWhile_ne '!' line)
        simp only [List.mem_cons, List.not_mem_nil, or_false] at hc
        rcases hc with rfl | rfl
        · exact hbackslash rfl
        · exact hmark rfl
    · cases hbody
  line := fun t ht => (ofLine_mem_cases ht).1

theorem ofLines_eq_flatMap (n : Nat) (ls : List (List Char)) :
    ofLines n ls = (ls.zipIdx n).flatMap fun l => ofLine l.1 l.2 := by
  induction ls generalizing n with
  | nil => rfl
  | cons l ls ih => rw [ofLines, ih, List.zipIdx_cons, List.flatMap_cons]

/-- **The tokens of a text are those of its lines, counted from one, and hold all of them.** -/
theorem ofText_isLossless (text : String) :
    ofText text = ((lines text.toList).zipIdx 1).flatMap (fun l => ofLine l.1 l.2) ∧
      ∀ (line : List Char) (number : Nat), IsLossless line number (ofLine line number) :=
  ⟨ofLines_eq_flatMap 1 _, isLossless_ofLine⟩

end Token

end DataDictionary
