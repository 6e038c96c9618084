import DataDictionary.Proofs.Pieces
import DataDictionary.Proofs.Segmentation

/-!
# One text below another

Two texts with a line feed between them have the lines of the first followed by the lines of the
second. Only the last line of the first text can come out differently than it does at the end of
the text: where it ends with a carriage return, this now belongs to the line end, and where it is
empty, it is a line now. Neither makes a difference to what the reader sees, because a carriage
return is blank and blanks at the end of a line are trimmed wherever they end up.

So the tokens of the joined text are those of the first and those of the second further down,
except for comments, which may lose a carriage return and which the reader does not look at.
-/

namespace DataDictionary

namespace Text

/-! ## Lines -/

/-- Puts a character in front of the first line. -/
def prepend (c : Char) : List (List Char) → List (List Char)
  | [] => [[c]]
  | l :: ls => (c :: l) :: ls

theorem prepend_ne_nil (c : Char) (ls : List (List Char)) : prepend c ls ≠ [] := by
  cases ls <;> exact List.cons_ne_nil _ _

theorem prepend_append {ls : List (List Char)} (h : ls ≠ []) (c : Char) (ms : List (List Char)) :
    prepend c (ls ++ ms) = prepend c ls ++ ms := by
  cases ls with
  | nil => exact absurd rfl h
  | cons l ls => rfl

theorem length_prepend {ls : List (List Char)} (h : ls ≠ []) (c : Char) :
    (prepend c ls).length = ls.length := by
  cases ls with
  | nil => exact absurd rfl h
  | cons l ls => rfl

theorem lines_crlf (cs : List Char) : lines ('\r' :: '\n' :: cs) = [] :: lines cs := by
  rw [lines]

theorem lines_lf (cs : List Char) : lines ('\n' :: cs) = [] :: lines cs := by
  rw [lines, if_pos rfl]
  simp

/-- Any character that does not begin a line end belongs to the first line. -/
theorem lines_cons {c : Char} {cs : List Char} (hlf : c ≠ '\n')
    (hcrlf : c = '\r' → cs.head? ≠ some '\n') : lines (c :: cs) = prepend c (lines cs) := by
  rw [lines, if_neg hlf]
  · rfl
  · rintro ds rfl rfl
    exact hcrlf rfl rfl

/-- Induction along the line ends of a text. -/
@[elab_as_elim]
theorem linesInduction {motive : List Char → Prop} (nil : motive [])
    (crlf : ∀ cs, motive cs → motive ('\r' :: '\n' :: cs))
    (lf : ∀ cs, motive cs → motive ('\n' :: cs))
    (char : ∀ c cs, c ≠ '\n' → (c = '\r' → cs.head? ≠ some '\n') → motive cs → motive (c :: cs))
    (cs : List Char) : motive cs := by
  induction cs using lines.induct with
  | case1 => exact nil
  | case2 cs ih => exact crlf cs ih
  | case3 cs _ ih => exact lf cs ih
  | case4 c cs hcrlf hlf _ ih | case5 c cs hcrlf hlf _ _ _ ih =>
    refine char c cs hlf (fun hc hhead => ?_) ih
    obtain ⟨ds, rfl⟩ := List.head?_eq_some_iff.mp hhead
    exact hcrlf ds hc rfl

theorem lines_ne_nil {cs : List Char} (h : cs ≠ []) : lines cs ≠ [] := by
  induction cs using linesInduction with
  | nil => exact absurd rfl h
  | crlf cs _ => simp [lines_crlf]
  | lf cs _ => simp [lines_lf]
  | char c cs hlf hcrlf _ =>
    rw [lines_cons hlf hcrlf]
    exact prepend_ne_nil c _

/-- What comes below a text decides about its last character only if this is a carriage return. -/
theorem lines_cons_append {c : Char} {cs : List Char} (hlf : c ≠ '\n')
    (hcrlf : c = '\r' → cs.head? ≠ some '\n') (hlast : ¬ (c = '\r' ∧ cs = [])) (ds : List Char) :
    lines (c :: (cs ++ ds)) = prepend c (lines (cs ++ ds)) := by
  refine lines_cons hlf fun hc => ?_
  cases cs with
  | nil => exact absurd ⟨hc, rfl⟩ hlast
  | cons d cs => exact hcrlf hc

/-- **A line feed ends the lines of the text above it.** -/
theorem lines_append_lf (cs ds : List Char) :
    lines (cs ++ '\n' :: ds) = lines (cs ++ ['\n']) ++ lines ds := by
  induction cs using linesInduction with
  | nil => simp [lines_lf, lines]
  | crlf cs ih => simp [lines_crlf, ih]
  | lf cs ih => simp [lines_lf, ih]
  | char c cs hlf hcrlf ih =>
    -- a carriage return at the end goes with the line feed, and then the last line is empty
    by_cases hlast : c = '\r' ∧ cs = []
    · obtain ⟨rfl, rfl⟩ := hlast
      simp [lines_crlf, lines]
    · rw [List.cons_append, List.cons_append, lines_cons_append hlf hcrlf hlast,
        lines_cons_append hlf hcrlf hlast, ih, prepend_append (lines_ne_nil (by simp))]

theorem length_lines_lf (cs : List Char) :
    (lines (cs ++ ['\n'])).length = cs.count '\n' + 1 := by
  induction cs using linesInduction with
  | nil => rfl
  | crlf cs ih => simp [lines_crlf, ih]
  | lf cs ih => simp [lines_lf, ih]
  | char c cs hlf hcrlf ih =>
    rw [List.count_cons_of_ne hlf]
    by_cases hlast : c = '\r' ∧ cs = []
    · obtain ⟨rfl, rfl⟩ := hlast
      rfl
    · rw [List.cons_append, lines_cons_append hlf hcrlf hlast,
        length_prepend (lines_ne_nil (by simp)), ih]

/-- What a line feed at the end of a text does to its lines. -/
inductive Ended : List (List Char) → List (List Char) → Prop where
  /-- It ends a line that is there anyhow. -/
  | same (ls : List (List Char)) : Ended ls ls
  /-- It makes a line of nothing. -/
  | empty (ls : List (List Char)) : Ended ls (ls ++ [[]])
  /-- It takes a carriage return with it. -/
  | carriage (ls : List (List Char)) (l : List Char) : Ended (ls ++ [l ++ ['\r']]) (ls ++ [l])

theorem Ended.cons {ls ms : List (List Char)} (h : Ended ls ms) (l : List Char) :
    Ended (l :: ls) (l :: ms) := by
  cases h with
  | same => exact .same _
  | empty => exact .empty (l :: ls)
  | carriage ls last => exact .carriage (l :: ls) last

theorem Ended.prepend {ls ms : List (List Char)} (h : Ended ls ms) (c : Char) :
    Ended (prepend c ls) (prepend c ms) := by
  cases h with
  | same => exact .same _
  | empty =>
    cases ls with
    | nil => exact .same [[c]]
    | cons l ls => exact .empty ((c :: l) :: ls)
  | carriage ls last =>
    cases ls with
    | nil => exact .carriage [] (c :: last)
    | cons l ls => exact .carriage ((c :: l) :: ls) last

theorem lines_ended (cs : List Char) : Ended (lines cs) (lines (cs ++ ['\n'])) := by
  induction cs using linesInduction with
  | nil => exact .empty []
  | crlf cs ih =>
    rw [List.cons_append, List.cons_append, lines_crlf, lines_crlf]
    exact ih.cons []
  | lf cs ih =>
    rw [List.cons_append, lines_lf, lines_lf]
    exact ih.cons []
  | char c cs hlf hcrlf ih =>
    by_cases hlast : c = '\r' ∧ cs = []
    · obtain ⟨rfl, rfl⟩ := hlast
      exact .carriage [] []
    · rw [List.cons_append, lines_cons_append hlf hcrlf hlast, lines_cons hlf hcrlf]
      exact ih.prepend c

/-! ## Blanks at the end -/

/-- A blank at the end is trimmed. -/
theorem trim_concat {b : Char} (h : isBlank b = true) (cs : List Char) :
    trim (cs ++ [b]) = trim cs := by
  unfold trim trimStart
  rw [List.dropWhile_append]
  split
  · next hnil =>
    rw [List.isEmpty_iff.mp hnil, List.dropWhile_cons_of_pos h]
    rfl
  · exact List.rdropWhile_concat_pos _ _ _ h

/-- If a run of characters of one class goes on up to the end, so it does with another of them. -/
theorem span_concat {p : Char → Bool} {b : Char} (h : p b = true) (cs : List Char) :
    (cs.takeWhile p = cs ∧ cs.dropWhile p = [] ∧
      (cs ++ [b]).takeWhile p = cs ++ [b] ∧ (cs ++ [b]).dropWhile p = []) ∨
    ∃ c rest, cs.dropWhile p = c :: rest ∧
      (cs ++ [b]).takeWhile p = cs.takeWhile p ∧ (cs ++ [b]).dropWhile p = c :: (rest ++ [b]) := by
  have hall := List.takeWhile_append_dropWhile (p := p) (l := cs)
  cases hdrop : cs.dropWhile p with
  | nil =>
    rw [hdrop, List.append_nil] at hall
    refine .inl ⟨hall, rfl, ?_, ?_⟩
    · rw [List.takeWhile_append, if_pos (by rw [hall]), List.takeWhile_cons_of_pos h]
      rfl
    · rw [List.dropWhile_append, hdrop, List.isEmpty_nil, if_pos rfl,
        List.dropWhile_cons_of_pos h]
      rfl
  | cons c rest =>
    have hshort : (cs.takeWhile p).length ≠ cs.length := by
      intro hlen
      have hsum := congrArg List.length hall
      rw [hdrop, List.length_append, List.length_cons] at hsum
      omega
    refine .inr ⟨c, rest, rfl, ?_, ?_⟩
    · rw [List.takeWhile_append, if_neg hshort]
    · rw [List.dropWhile_append, hdrop]
      rfl

/-- A character at the end that is no mark goes to the last piece. -/
theorem cutAt_concat {mark b : Char} (h : b ≠ mark) (cs : List Char) :
    ∃ pieces last, cutAt mark cs = pieces ++ [last] ∧
      cutAt mark (cs ++ [b]) = pieces ++ [last ++ [b]] := by
  induction cs with
  | nil => exact ⟨[], [], rfl, by simp [cutAt, h]⟩
  | cons c cs ih =>
    obtain ⟨pieces, last, hcs, hcsb⟩ := ih
    rw [List.cons_append, cutAt, cutAt, hcs, hcsb]
    by_cases hc : c = mark
    · exact ⟨[] :: pieces, last, by simp [hc], by simp [hc]⟩
    · cases pieces with
      | nil => exact ⟨[], c :: last, by simp [hc], by simp [hc]⟩
      | cons p pieces => exact ⟨(c :: p) :: pieces, last, by simp [hc], by simp [hc]⟩

end Text

open Text

/-! ## Pieces of a line -/

namespace Segment

/-- What of a segment ends up in a token. -/
def view (s : Segment) : List Char × Option Separator := (trim s.text, s.ending)

theorem view_concat {b : Char} (h : isBlank b = true) (cs : List Char)
    (ending : Option Separator) : view ⟨cs ++ [b], ending⟩ = view ⟨cs, ending⟩ := by
  rw [view, view, trim_concat h]

/-- A character at the end that is no separator goes to the last segment. -/
theorem ofText_concat {b : Char} (h : Separator.ofChar? b = none) (cs : List Char) :
    ∃ segments last, ofText cs = segments ++ [⟨last, none⟩] ∧
      ofText (cs ++ [b]) = segments ++ [⟨last ++ [b], none⟩] := by
  induction cs with
  | nil => exact ⟨[], [], rfl, by simp [ofText, h]⟩
  | cons c cs ih =>
    obtain ⟨segments, last, hcs, hcsb⟩ := ih
    rw [List.cons_append, ofText, ofText, hcs, hcsb]
    cases hc : Separator.ofChar? c with
    | some e => exact ⟨⟨[], some e⟩ :: segments, last, rfl, rfl⟩
    | none =>
      cases segments with
      | nil => exact ⟨[], c :: last, rfl, rfl⟩
      | cons s segments => exact ⟨⟨c :: s.text, s.ending⟩ :: segments, last, rfl, rfl⟩

theorem view_ofEnding_concat {b : Char} (h : isBlank b = true) (cs : List Char) :
    (ofEnding (cs ++ [b])).view = (ofEnding cs).view := by
  unfold ofEnding
  rw [trim_concat h]
  split
  · rfl
  · split
    · rfl
    · exact view_concat h cs none

end Segment

namespace Token

/-- Only what shows of the segments counts. -/
theorem bodies_congr {segments segments' : List Segment}
    (h : segments.map Segment.view = segments'.map Segment.view)
    (make : String → Option Separator → TokenBody) :
    bodies make segments = bodies make segments' := by
  have hview : ∀ segments : List Segment, bodies make segments =
      ((segments.map Segment.view).filter fun v => !(v.1 == [] && v.2.isNone)).map
        fun v => make (String.ofList v.1) v.2 := by
    intro segments
    rw [List.filter_map, List.map_map]
    rfl
  rw [hview, hview, h]

theorem bodies_ofText_concat {b : Char} (h : isBlank b = true) (hsep : Separator.ofChar? b = none)
    (make : String → Option Separator → TokenBody) (cs : List Char) :
    bodies make (Segment.ofText (cs ++ [b])) = bodies make (Segment.ofText cs) := by
  obtain ⟨segments, last, hcs, hcsb⟩ := Segment.ofText_concat hsep cs
  refine bodies_congr ?_ make
  rw [hcs, hcsb, List.map_append, List.map_append, List.map_singleton, List.map_singleton,
    Segment.view_concat h]

theorem directives_concat {b : Char} (h : isBlank b = true) (hmark : b ≠ '\\')
    (afterContent : Bool) (cs : List Char) :
    directives afterContent (cs ++ [b]) = directives afterContent cs := by
  obtain ⟨pieces, last, hcs, hcsb⟩ := cutAt_concat hmark cs
  refine bodies_congr ?_ .directive
  rw [hcs, hcsb]
  simp only [List.map_append, List.map_singleton]
  cases afterContent with
  | false => rw [if_neg Bool.false_ne_true, if_neg Bool.false_ne_true, Segment.view_concat h]
  | true => rw [if_pos rfl, if_pos rfl, Segment.view_ofEnding_concat h]

theorem bodiesOfCode_concat {b : Char} (h : isBlank b = true) (hsep : Separator.ofChar? b = none)
    (hmark : b ≠ '\\') (code : List Char) :
    bodiesOfCode (code ++ [b]) = bodiesOfCode code := by
  unfold bodiesOfCode
  rcases span_concat (p := (· ≠ '\\')) (by simpa using hmark) code with
    ⟨htake, hdrop, htake', hdrop'⟩ | ⟨c, run, hdrop, htake, hdrop'⟩
  · -- without a directive the blank ends the content, otherwise it ends the last directive
    rw [htake, hdrop, htake', hdrop']
    exact bodies_ofText_concat h hsep .content code
  · rw [htake, hdrop, hdrop']
    dsimp only
    rw [directives_concat h hmark]

/-- **A carriage return at the end of a line does not show.** It goes to the comment, or else it is
trimmed. -/
theorem bodiesOfCode_codeOf_cr (l : List Char) :
    bodiesOfCode (codeOf (l ++ ['\r'])) = bodiesOfCode (codeOf l) := by
  unfold codeOf
  rcases span_concat (p := (· ≠ '!')) (b := '\r') (by decide) l with
    ⟨htake, -, htake', -⟩ | ⟨c, rest, -, htake, -⟩
  · -- there is no comment, so the carriage return is part of the code
    rw [htake, htake']
    exact bodiesOfCode_concat (by decide) rfl (by decide) l
  · rw [htake]

/-! ## Tokens of a joined text -/

/-- The token on a line further down. -/
def shift (k : Nat) (t : Token) : Token := { t with line := t.line + k }

/-- What the reader sees of tokens: not the comments. -/
def seen (ts : List Token) : List Token :=
  (ts.filter (!·.isComment)).map fun t => { t with comment := none }

theorem seen_append (ts us : List Token) : seen (ts ++ us) = seen ts ++ seen us := by
  rw [seen, List.filter_append, List.map_append, seen, seen]

theorem seen_map_shift (k : Nat) (ts : List Token) :
    seen (ts.map (shift k)) = (seen ts).map (shift k) := by
  unfold seen
  rw [List.filter_map, List.map_map, List.map_map]
  rfl

/-- There is no comment in the code of a line. -/
theorem isComment_of_mem_bodiesOfCode {code : List Char} {body : TokenBody}
    (h : body ∈ bodiesOfCode code) (n : Nat) (comment : Option String) :
    isComment ⟨body, n, comment⟩ = false := by
  cases textOf_of_mem_bodiesOfCode h <;> rfl

theorem seen_place {bodies : List TokenBody}
    (h : ∀ body ∈ bodies, ∀ n comment, isComment ⟨body, n, comment⟩ = false) (n : Nat)
    (comment : Option String) :
    seen (place n comment bodies) = bodies.map fun body => ⟨body, n, none⟩ := by
  rcases List.eq_nil_or_concat' bodies with rfl | ⟨before, last, rfl⟩
  · cases comment <;> rfl
  · have hlast : seen [⟨last, n, comment⟩] = [⟨last, n, none⟩] := by
      simp [seen, h last (by simp)]
    have hbefore : seen (before.map fun body => ⟨body, n, none⟩) =
        before.map fun body => ⟨body, n, none⟩ := by
      rw [seen, List.filter_eq_self.mpr]
      · rw [List.map_map]
        rfl
      · intro t ht
        obtain ⟨body, hbody, rfl⟩ := List.mem_map.mp ht
        simp [h body (List.mem_append_left _ hbody)]
    rw [place_concat, seen_append, hbefore, hlast, List.map_append, List.map_singleton]

theorem seen_ofLine (l : List Char) (n : Nat) :
    seen (ofLine l n) = (bodiesOfCode (codeOf l)).map fun body => ⟨body, n, none⟩ :=
  seen_place (fun _ hbody => isComment_of_mem_bodiesOfCode hbody) n (commentOf? l)

theorem ofLines_singleton (n : Nat) (l : List Char) : ofLines n [l] = ofLine l n :=
  List.append_nil _

theorem ofLines_append (n : Nat) (ls ms : List (List Char)) :
    ofLines n (ls ++ ms) = ofLines n ls ++ ofLines (n + ls.length) ms := by
  induction ls generalizing n with
  | nil => rfl
  | cons l ls ih =>
    rw [List.cons_append, ofLines, ofLines, ih, List.append_assoc, List.length_cons,
      Nat.add_assoc, Nat.add_comm 1]

theorem place_add (n k : Nat) (comment : Option String) (bodies : List TokenBody) :
    place (n + k) comment bodies = (place n comment bodies).map (shift k) := by
  rcases List.eq_nil_or_concat' bodies with rfl | ⟨before, last, rfl⟩
  · cases comment <;> rfl
  · rw [place_concat, place_concat, List.map_append, List.map_map]
    rfl

theorem ofLines_add (n k : Nat) (ls : List (List Char)) :
    ofLines (n + k) ls = (ofLines n ls).map (shift k) := by
  induction ls generalizing n with
  | nil => rfl
  | cons l ls ih =>
    rw [ofLines, ofLines, List.map_append, ← ih, Nat.add_right_comm, ofLine, place_add]
    rfl

/-- A line feed at the end of a text does not show. -/
theorem seen_ofLines_ended {ls ms : List (List Char)} (h : Ended ls ms) (n : Nat) :
    seen (ofLines n ms) = seen (ofLines n ls) := by
  cases h with
  | same => rfl
  | empty =>
    rw [ofLines_append, seen_append]
    exact List.append_nil _
  | carriage ls l =>
    rw [ofLines_append, ofLines_append, seen_append, seen_append, ofLines_singleton,
      ofLines_singleton, seen_ofLine, seen_ofLine, bodiesOfCode_codeOf_cr]

/-- **What the reader sees of one text below another.** -/
theorem seen_ofText_append (a b : String) :
    seen (ofText (a ++ "\n" ++ b)) =
      seen (ofText a) ++ (seen (ofText b)).map (shift (1 + a.toList.count '\n')) := by
  have hlines : lines (a ++ "\n" ++ b).toList = lines (a.toList ++ ['\n']) ++ lines b.toList := by
    rw [String.toList_append, String.toList_append, List.append_assoc]
    exact lines_append_lf a.toList b.toList
  have hbelow : 1 + (lines (a.toList ++ ['\n'])).length = 1 + (1 + a.toList.count '\n') := by
    rw [length_lines_lf, Nat.add_comm _ 1]
  unfold ofText
  rw [hlines, ofLines_append, seen_append, seen_ofLines_ended (lines_ended a.toList), hbelow,
    ofLines_add, seen_map_shift]

end Token

/-- The reader does not look at comments. -/
theorem State.run_seen (s : State) (ts : List Token) : s.run (Token.seen ts) = s.run ts := by
  rw [← State.run_filter_comments s ts, Token.seen]
  generalize ts.filter (!·.isComment) = us
  induction us generalizing s with
  | nil => rfl
  | cons t us ih =>
    rw [List.map_cons, run_cons, run_cons, ih]
    rfl

theorem readTokens_seen (ts : List Token) : readTokens (Token.seen ts) = readTokens ts := by
  unfold readTokens
  rw [State.run_seen]

end DataDictionary
