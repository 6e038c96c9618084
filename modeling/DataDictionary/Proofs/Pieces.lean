import DataDictionary.Proofs.Trimming

/-!
# What a line is cut into

The code of a line is cut at its first backslash, its content at separators, and the rest at every
further backslash. A cut loses no character but the marks at which it is made. The text of a token
is such a piece without the blanks at its ends, so it holds nothing that would have divided it
(`Token.textOf_of_mem_bodiesOfCode`). Every token of a line but a lone comment stands for such a
piece, and the comment goes with the last of them.
-/

namespace DataDictionary

namespace Text

theorem not_mem_takeWhile_ne (mark : Char) (cs : List Char) : mark ∉ cs.takeWhile (· ≠ mark) := by
  intro hmem
  have hne := List.mem_takeWhile_imp hmem
  simp at hne

/-- A text goes on at its first mark, if there is one. -/
theorem dropWhile_ne_cases (mark : Char) (cs : List Char) :
    (cs.dropWhile (· ≠ mark) = [] ∧ cs.takeWhile (· ≠ mark) = cs) ∨
    ∃ rest, cs.dropWhile (· ≠ mark) = mark :: rest ∧
      cs = cs.takeWhile (· ≠ mark) ++ mark :: rest := by
  have hcs := List.takeWhile_append_dropWhile (p := (· ≠ mark)) (l := cs)
  cases hdrop : cs.dropWhile (· ≠ mark) with
  | nil =>
    rw [hdrop, List.append_nil] at hcs
    exact .inl ⟨rfl, hcs⟩
  | cons c rest =>
    -- nothing but the mark can have stopped the run
    have hc := List.head?_dropWhile_not (· ≠ mark) cs
    rw [hdrop] at hc hcs
    have hmark : c = mark := by simpa using hc
    rw [hmark] at hcs ⊢
    exact .inr ⟨rest, rfl, hcs.symm⟩

/-- A cut takes nothing out of a text but the marks. -/
theorem flatten_cutAt (mark : Char) (cs : List Char) :
    (cutAt mark cs).flatten = cs.filter (· ≠ mark) := by
  induction cs with
  | nil => rfl
  | cons c cs ih =>
    rw [cutAt]
    split
    · next h => rw [List.filter_cons_of_neg (by simp [h]), ← ih, List.flatten_cons, List.nil_append]
    · next h =>
      rw [List.filter_cons_of_pos (by simp [h]), ← ih]
      cases hcut : cutAt mark cs with
      | nil => exact absurd hcut (cutAt_ne_nil mark cs)
      | cons p ps => rfl

theorem mem_of_mem_cutAt {mark c : Char} {cs piece : List Char} (h : piece ∈ cutAt mark cs)
    (hc : c ∈ piece) : c ∈ cs ∧ c ≠ mark := by
  have hmem : c ∈ cs.filter (· ≠ mark) := flatten_cutAt mark cs ▸ List.mem_flatten_of_mem h hc
  exact (List.mem_filter.mp hmem).imp_right of_decide_eq_true

end Text

open Text

namespace Separator

theorem eq_char_of_ofChar? {c : Char} {e : Separator} (h : ofChar? c = some e) : c = e.char := by
  unfold ofChar? at h
  split at h
  · cases h
    rfl
  · cases h
    rfl
  · cases h

end Separator

/-! ## Segments -/

namespace Segment

/-- The characters of a segment, its separator included. -/
def chars (s : Segment) : List Char := s.text ++ (s.ending.map Separator.char).toList

/-- **The segments of a text make up the text.** -/
theorem flatMap_chars_ofText (cs : List Char) : (ofText cs).flatMap chars = cs := by
  induction cs with
  | nil => rfl
  | cons c cs ih =>
    rw [ofText]
    cases hc : Separator.ofChar? c with
    | some e =>
      rw [List.flatMap_cons, ih, Separator.eq_char_of_ofChar? hc]
      rfl
    | none =>
      cases hcs : ofText cs with
      | nil =>
        rw [hcs, List.flatMap_nil] at ih
        rw [← ih]
        rfl
      | cons s rest =>
        rw [hcs, List.flatMap_cons] at ih
        rw [← ih]
        rfl

/-- There are no separators inside of a segment. -/
theorem ofChar?_of_mem_ofText {c : Char} {cs : List Char} {s : Segment} (h : s ∈ ofText cs)
    (hc : c ∈ s.text) : Separator.ofChar? c = none := by
  induction cs generalizing s with
  | nil =>
    rw [List.mem_singleton.mp h] at hc
    cases hc
  | cons d cs ih =>
    rw [ofText] at h
    cases hd : Separator.ofChar? d with
    | some e =>
      rw [hd] at h
      rcases List.mem_cons.mp h with rfl | h
      · cases hc
      · exact ih h hc
    | none =>
      rw [hd] at h
      cases hcs : ofText cs with
      | nil =>
        rw [hcs] at h
        rw [List.mem_singleton.mp h] at hc
        rwa [List.mem_singleton.mp hc]
      | cons first rest =>
        -- `d` goes to the front of the first segment
        rw [hcs] at h ih
        rcases List.mem_cons.mp h with rfl | h
        · rcases List.mem_cons.mp hc with rfl | hc
          · exact hd
          · exact ih List.mem_cons_self hc
        · exact ih (List.mem_cons_of_mem _ h) hc

/-- A segment has no other characters than the text it was cut from. -/
theorem mem_of_mem_ofText {c : Char} {cs : List Char} {s : Segment} (h : s ∈ ofText cs)
    (hc : c ∈ s.text) : c ∈ cs := by
  rw [← flatMap_chars_ofText cs]
  exact List.mem_flatMap.mpr ⟨s, h, List.mem_append_left _ hc⟩

/-- Whether its separator is set apart or not, a text keeps its characters. -/
theorem ofEnding_cases (cs : List Char) :
    trim cs = (ofEnding cs).chars ∨ ofEnding cs = ⟨cs, none⟩ := by
  unfold ofEnding
  split
  · next hnil => exact .inl (List.reverse_eq_nil_iff.mp hnil)
  · next c rest hlast =>
    split
    · next e he =>
      rw [List.reverse_eq_cons_iff, Separator.eq_char_of_ofChar? he] at hlast
      exact .inl hlast
    · exact .inr rfl

theorem mem_of_mem_ofEnding {c : Char} {cs : List Char} (h : c ∈ (ofEnding cs).text) : c ∈ cs := by
  rcases ofEnding_cases cs with htrim | hself
  · exact mem_of_mem_trim (htrim ▸ List.mem_append_left _ h)
  · rwa [hself] at h

end Segment

/-! ## Token bodies -/

namespace Token

/-- **Code is content up to the first backslash and directives behind it.** -/
theorem bodiesOfCode_cases (code : List Char) :
    ('\\' ∉ code ∧ bodiesOfCode code = bodies .content (Segment.ofText code)) ∨
    ∃ content run, '\\' ∉ content ∧ code = content ++ '\\' :: run ∧
      bodiesOfCode code = bodies .content (Segment.ofText content) ++
        directives (bodies .content (Segment.ofText content) ≠ []) run := by
  have hplain := not_mem_takeWhile_ne '\\' code
  unfold bodiesOfCode
  rcases dropWhile_ne_cases '\\' code with ⟨hdrop, htake⟩ | ⟨run, hdrop, hcode⟩
  · rw [hdrop]
    rw [htake] at hplain ⊢
    exact .inl ⟨hplain, rfl⟩
  · rw [hdrop]
    exact .inr ⟨_, run, hplain, hcode, rfl⟩

/-- What a token of code is like: its text is trimmed and has no other characters than the code, and
none that would have divided it. -/
inductive TextOf (code : List Char) : TokenBody → Prop where
  | content {text : String} (ending : Option Separator) : IsTrimmed text →
      (∀ c ∈ text.toList, c ∈ code ∧ c ≠ '\\' ∧ Separator.ofChar? c = none) →
      TextOf code (.content text ending)
  | directive {text : String} (ending : Option Separator) : IsTrimmed text →
      (∀ c ∈ text.toList, c ∈ code ∧ c ≠ '\\') → TextOf code (.directive text ending)

theorem exists_segment_of_mem_bodies {make : String → Option Separator → TokenBody}
    {segments : List Segment} {body : TokenBody} (h : body ∈ bodies make segments) :
    ∃ s ∈ segments, ∃ text, body = make text s.ending ∧ IsTrimmed text ∧
      ∀ c ∈ text.toList, c ∈ s.text := by
  obtain ⟨s, hs, rfl⟩ := List.mem_map.mp h
  refine ⟨s, List.mem_of_mem_filter hs, _, rfl, isTrimmed_ofList_trim s.text, fun c hc => ?_⟩
  rw [String.toList_ofList] at hc
  exact mem_of_mem_trim hc

theorem textOf_content {cs : List Char} (h : '\\' ∉ cs) {body : TokenBody}
    (hbody : body ∈ bodies .content (Segment.ofText cs)) : TextOf cs body := by
  obtain ⟨s, hs, text, rfl, htrim, hmem⟩ := exists_segment_of_mem_bodies hbody
  refine .content _ htrim fun c hc => ?_
  have hcs := Segment.mem_of_mem_ofText hs (hmem c hc)
  exact ⟨hcs, ne_of_mem_of_not_mem hcs h, Segment.ofChar?_of_mem_ofText hs (hmem c hc)⟩

theorem textOf_directives {afterContent : Bool} {run : List Char} {body : TokenBody}
    (hbody : body ∈ directives afterContent run) : TextOf run body := by
  obtain ⟨s, hs, text, rfl, htrim, hmem⟩ := exists_segment_of_mem_bodies hbody
  obtain ⟨piece, hpiece, rfl⟩ := List.mem_map.mp hs
  refine .directive _ htrim fun c hc => mem_of_mem_cutAt hpiece ?_
  have hsegment := hmem c hc
  split at hsegment
  · exact Segment.mem_of_mem_ofEnding hsegment
  · exact hsegment

theorem TextOf.mono {code code' : List Char} {body : TokenBody} (h : TextOf code body)
    (hsub : code ⊆ code') : TextOf code' body := by
  cases h with
  | content ending htrim hmem =>
    exact .content ending htrim fun c hc => (hmem c hc).imp_left (hsub ·)
  | directive ending htrim hmem =>
    exact .directive ending htrim fun c hc => (hmem c hc).imp_left (hsub ·)

theorem textOf_of_mem_bodiesOfCode {code : List Char} {body : TokenBody}
    (h : body ∈ bodiesOfCode code) : TextOf code body := by
  rcases bodiesOfCode_cases code with ⟨hplain, hbodies⟩ | ⟨content, run, hplain, rfl, hbodies⟩
  · exact textOf_content hplain (hbodies ▸ h)
  · rw [hbodies] at h
    rcases List.mem_append.mp h with h | h
    · exact (textOf_content hplain h).mono (List.subset_append_left _ _)
    · exact (textOf_directives h).mono
        (List.subset_append_of_subset_right _ (List.subset_cons_self _ _))

/-! ## Tokens -/

/-- The comment goes with the last token. -/
theorem place_concat (n : Nat) (comment : Option String) (before : List TokenBody)
    (last : TokenBody) :
    place n comment (before ++ [last]) =
      before.map (fun body => ⟨body, n, none⟩) ++ [⟨last, n, comment⟩] := by
  induction before with
  | nil => rfl
  | cons body rest ih =>
    rw [List.map_cons, List.cons_append, List.cons_append, ← ih]
    cases rest <;> rfl

/-- **What the tokens of a line look like.** -/
theorem ofLine_cases (line : List Char) (n : Nat) :
    (bodiesOfCode (codeOf line) = [] ∧
      ofLine line n = ((commentOf? line).map fun text => ⟨.comment text, n, none⟩).toList) ∨
    ∃ before last, bodiesOfCode (codeOf line) = before ++ [last] ∧
      ofLine line n = before.map (fun body => ⟨body, n, none⟩) ++ [⟨last, n, commentOf? line⟩] := by
  rw [ofLine]
  rcases List.eq_nil_or_concat' (bodiesOfCode (codeOf line)) with hnil | ⟨before, last, hconcat⟩
  · rw [hnil]
    exact .inl ⟨rfl, rfl⟩
  · rw [hconcat]
    exact .inr ⟨before, last, rfl, place_concat _ _ _ _⟩

/-- A token of a line is made of its code, unless it is all that the line has. -/
theorem ofLine_mem_cases {line : List Char} {n : Nat} {t : Token} (h : t ∈ ofLine line n) :
    t.line = n ∧
      (TextOf (codeOf line) t.body ∨
        ∃ text, t = ⟨.comment text, n, none⟩ ∧ ofLine line n = [t]) := by
  rcases ofLine_cases line n with ⟨-, hline⟩ | ⟨before, last, hbodies, hline⟩
  · rw [hline] at h ⊢
    obtain ⟨text, hcomment, rfl⟩ := Option.map_eq_some_iff.mp (Option.mem_toList.mp h)
    exact ⟨rfl, .inr ⟨text, rfl, by rw [hcomment, Option.map_some, Option.toList_some]⟩⟩
  · have htext : ∀ body ∈ before ++ [last], TextOf (codeOf line) body := fun body hbody =>
      textOf_of_mem_bodiesOfCode (hbodies ▸ hbody)
    rw [hline] at h
    rcases List.mem_append.mp h with h | h
    · obtain ⟨body, hbody, rfl⟩ := List.mem_map.mp h
      exact ⟨rfl, .inl (htext body (List.mem_append_left _ hbody))⟩
    · rw [List.mem_singleton.mp h]
      exact ⟨rfl, .inl (htext last (by simp))⟩

/-- Every token of a text stands on one of its lines. -/
theorem mem_ofLines {number : Nat} {ls : List (List Char)} {t : Token}
    (h : t ∈ ofLines number ls) : ∃ l ∈ ls, ∃ n, t ∈ ofLine l n := by
  induction ls generalizing number with
  | nil => simp [ofLines] at h
  | cons l ls ih =>
    rw [ofLines] at h
    rcases List.mem_append.mp h with h | h
    · exact ⟨l, by simp, number, h⟩
    · obtain ⟨l', hl', hn⟩ := ih h
      exact ⟨l', List.mem_cons_of_mem _ hl', hn⟩

/-- Whether the content of a token is trimmed. -/
def HasTrimmedText (t : Token) : Prop :=
  ∀ text ending, t.body = .content text ending → IsTrimmed text

theorem hasTrimmedText_of_mem_ofText {text : String} {t : Token} (h : t ∈ ofText text) :
    t.HasTrimmedText := by
  intro name ending hbody
  obtain ⟨l, -, n, hline⟩ := mem_ofLines h
  rcases (ofLine_mem_cases hline).2 with htext | ⟨_, rfl, -⟩
  · rw [hbody] at htext
    cases htext with
    | content _ htrim _ => exact htrim
  · cases hbody

end Token

end DataDictionary
