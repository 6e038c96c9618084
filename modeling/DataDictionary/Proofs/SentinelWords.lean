import DataDictionary.Field.Sentinel
import DataDictionary.Proofs.Spellings
import DataDictionary.Text.Lines

/-!
# Sentinels in a default

A default declares a sentinel if the word of one occurs in it, in any case, and if there are several
the last one counts. An occurrence is given by what stands in front of it (`Occurrence`), and the
search looks at the occurrences from the last to the first (`last?_cases`): the two words part at
their fifth letter, so at any place there is one of them at most.

Which of the two words was found is decided once more, and that time a long s does not pass for an
s. So `autoſize` is found, but taken for the other word (`longS_not_autosize`). No other spelling is
mistaken.
-/

namespace DataDictionary.Sentinel

open Text

/-- A place where the word of a sentinel stands in a text, in some case. -/
structure Occurrence (cs : List Char) where
  which : Sentinel
  before : List Char
  /-- The word as it is written there. -/
  found : List Char
  after : List Char
  text_eq : cs = before ++ (found ++ after)
  spelled : found.map foldLatin = which.word.toList

namespace Occurrence

variable {c : Char} {cs : List Char}

/-- Whether no occurrence begins behind this one. -/
def IsLast (p : Occurrence cs) : Prop := ∀ q : Occurrence cs, q.before.length ≤ p.before.length

/-- The same place in a text with one more character in front. -/
def cons (c : Char) (p : Occurrence cs) : Occurrence (c :: cs) :=
  { p with before := c :: p.before, text_eq := congrArg (c :: ·) p.text_eq }

/-- An occurrence is at the front of a text or in what follows the first character. -/
theorem cons_cases (p : Occurrence (c :: cs)) :
    p.before = [] ∨ ∃ q : Occurrence cs, p = q.cons c := by
  obtain ⟨which, before, found, after, htext, hspelled⟩ := p
  cases before with
  | nil => exact .inl rfl
  | cons d before =>
    obtain ⟨rfl, hcs⟩ := List.cons.inj htext
    exact .inr ⟨⟨which, before, found, after, hcs, hspelled⟩, rfl⟩

/-- Both words have eight letters at least. -/
theorem length_before_le (p : Occurrence cs) : p.before.length + 8 ≤ cs.length := by
  have hword : 8 ≤ p.which.word.toList.length := by cases p.which <;> decide
  have hfound : p.found.length = p.which.word.toList.length := by
    rw [← p.spelled, List.length_map]
  have htext := congrArg List.length p.text_eq
  rw [List.length_append, List.length_append] at htext
  omega

/-- Only the word `autosize` can be written with a long s. -/
theorem which_of_longS (p : Occurrence cs) (h : 'ſ' ∈ p.found) : p.which = .autosize := by
  have hmem : foldLatin 'ſ' ∈ p.which.word.toList := p.spelled ▸ List.mem_map_of_mem h
  cases hwhich : p.which with
  | autosize => rfl
  | autocalculate =>
    rw [hwhich] at hmem
    exact absurd hmem (by decide)

/-- The sentinel that an occurrence is taken for. -/
def takenFor (p : Occurrence cs) : Sentinel := if 'ſ' ∈ p.found then .autocalculate else p.which

end Occurrence

variable {cs : List Char}

/-- Neither word is the beginning of the other one. -/
theorem eq_of_word_isPrefix {a b : Sentinel} (h : a.word.toList <+: b.word.toList) : a = b := by
  have hwords : ∀ a b : Sentinel, a.word.toList <+: b.word.toList → a = b := by
    intro a b
    cases a <;> cases b <;> decide
  exact hwords a b h

/-- At the front of a text there is one word at most. -/
theorem eq_of_afterWord? {a b : Sentinel} {found after : List Char}
    (h : (afterWord? a.word.toList (found ++ after)).isSome)
    (hspelled : found.map foldLatin = b.word.toList) : a = b := by
  obtain ⟨rest, hrest⟩ := Option.isSome_iff_exists.mp h
  obtain ⟨found', htext, hspelled'⟩ := afterWord?_eq_some_iff.mp hrest
  rcases isPrefix_or_isPrefix_of_spelled htext hspelled hspelled' with hba | hab
  · exact (eq_of_word_isPrefix hba).symm
  · exact eq_of_word_isPrefix hab

/-- **Where a word stands it is found, and taken for what it is unless it has a long s.** -/
theorem atStart?_found (p : Occurrence cs) :
    atStart? (p.found ++ p.after) = some p.takenFor := by
  have hhere : (afterWord? p.which.word.toList (p.found ++ p.after)).isSome := by
    rw [afterWord?_eq_some_iff.mpr ⟨p.found, rfl, p.spelled⟩]
    rfl
  rw [Occurrence.takenFor]
  cases hwhich : p.which with
  | autocalculate =>
    rw [hwhich] at hhere
    rw [atStart?, if_pos hhere, ite_self]
  | autosize =>
    rw [hwhich] at hhere
    have hspelled : p.found.map foldLatin = autosize.word.toList := hwhich ▸ p.spelled
    have hother : ¬(afterWord? autocalculate.word.toList (p.found ++ p.after)).isSome :=
      fun hword => by cases eq_of_afterWord? hword hspelled
    have htake : (p.found ++ p.after).take autosize.word.length = p.found := by
      have hlength : p.found.length = autosize.word.length := by
        rw [← List.length_map (f := foldLatin), hspelled]
        rfl
      rw [← hlength, List.take_left]
    have hsame : sameWord (String.ofList p.found) autosize.word = true ↔ 'ſ' ∉ p.found := by
      rw [sameWord_iff, String.toList_ofList, ← map_toLower_eq_iff hspelled (by decide)]
      exact Iff.of_eq (congrArg _ (by decide))
    rw [atStart?, if_neg hother, if_pos hhere, htake]
    by_cases hlong : 'ſ' ∈ p.found
    · rw [if_pos hlong, if_neg fun h => hsame.mp h hlong]
    · rw [if_neg hlong, if_pos (hsame.mpr hlong)]

/-- Nothing is found at the front of a text where no word stands. -/
theorem atStart?_eq_none (h : ∀ p : Occurrence cs, p.before ≠ []) : atStart? cs = none := by
  have hno : ∀ s : Sentinel, ¬(afterWord? s.word.toList cs).isSome := by
    intro s hs
    obtain ⟨rest, hrest⟩ := Option.isSome_iff_exists.mp hs
    obtain ⟨found, htext, hspelled⟩ := afterWord?_eq_some_iff.mp hrest
    exact h ⟨s, [], found, rest, htext, hspelled⟩ rfl
  rw [atStart?, if_neg (hno _), if_neg (hno _)]

/-- **The search finds the last occurrence.** -/
theorem last?_cases (cs : List Char) :
    (IsEmpty (Occurrence cs) ∧ last? cs = none) ∨
      ∃ p : Occurrence cs, p.IsLast ∧ last? cs = some p.takenFor := by
  induction cs with
  | nil =>
    refine .inl ⟨⟨fun p => ?_⟩, rfl⟩
    have hlength := p.length_before_le
    rw [List.length_nil] at hlength
    omega
  | cons c cs ih =>
    rcases ih with ⟨hnone, hlast⟩ | ⟨q, hq, hlast⟩
    · -- whatever there is stands at the front
      have hfront : ∀ p : Occurrence (c :: cs), p.before = [] := fun p =>
        p.cons_cases.resolve_right fun ⟨q, _⟩ => hnone.false q
      by_cases hsome : Nonempty (Occurrence (c :: cs))
      · obtain ⟨p⟩ := hsome
        refine .inr ⟨p, fun q => by rw [hfront q, hfront p], ?_⟩
        have hcs : c :: cs = p.found ++ p.after := by
          have htext := p.text_eq
          rwa [hfront p, List.nil_append] at htext
        rw [last?, hlast, Option.none_or, congrArg atStart? hcs, atStart?_found]
      · refine .inl ⟨⟨fun p => hsome ⟨p⟩⟩, ?_⟩
        rw [last?, hlast, Option.none_or, atStart?_eq_none fun p _ => hsome ⟨p⟩]
    · refine .inr ⟨q.cons c, fun p => ?_, by rw [last?, hlast]; rfl⟩
      rcases p.cons_cases with hfront | ⟨p', rfl⟩
      · rw [hfront]
        exact Nat.zero_le _
      · exact Nat.succ_le_succ (hq p')

/-- Two last occurrences are at the same place, and the same word stands there. -/
theorem Occurrence.IsLast.takenFor_eq {p q : Occurrence cs} (hp : p.IsLast) (hq : q.IsLast) :
    p.takenFor = q.takenFor := by
  have hlength : p.before.length = q.before.length := Nat.le_antisymm (hq p) (hp q)
  have htail : p.found ++ p.after = q.found ++ q.after :=
    (List.append_inj (p.text_eq.symm.trans q.text_eq) hlength).2
  have hread := atStart?_found p
  rw [htail, atStart?_found q] at hread
  exact (Option.some.inj hread).symm

/-- **Which sentinel a default declares.** On one line, it declares none exactly if neither word
occurs. Otherwise one occurrence is the last, and the sentinel is the one whose word stands there,
except that `autosize` is not recognized where it is written with a long s. -/
theorem inDefault?_exact {text : String} (hline : '\n' ∉ text.toList) :
    (inDefault? text = none ↔ IsEmpty (Occurrence text.toList)) ∧
    (Nonempty (Occurrence text.toList) → ∃ p : Occurrence text.toList, p.IsLast) ∧
    ∀ p : Occurrence text.toList, p.IsLast →
      ('ſ' ∉ p.found → inDefault? text = some p.which) ∧
      ('ſ' ∈ p.found → p.which = .autosize ∧ inDefault? text = some .autocalculate) := by
  have hsearch : inDefault? text = last? text.toList := by
    rw [inDefault?, cutAt_of_not_mem hline, List.findSome?_cons]
    cases last? text.toList <;> rfl
  rw [hsearch]
  rcases last?_cases text.toList with ⟨hempty, hlast⟩ | ⟨p, hp, hlast⟩
  · rw [hlast]
    exact ⟨iff_of_true rfl hempty, fun ⟨p⟩ => (hempty.false p).elim,
      fun p => (hempty.false p).elim⟩
  · refine ⟨?_, fun _ => ⟨p, hp⟩, fun q hq => ?_⟩
    · rw [hlast]
      exact iff_of_false (by simp) fun hempty => hempty.false p
    · rw [hlast, hp.takenFor_eq hq, Occurrence.takenFor]
      refine ⟨fun hlong => by rw [if_neg hlong], fun hlong => ⟨q.which_of_longS hlong, ?_⟩⟩
      rw [if_pos hlong]

/-- The second word is the last one, whatever the letters of either. -/
theorem autosize_after_autocalculate :
    '\n' ∉ "Autocalculate or AutoSize".toList ∧
      inDefault? "Autocalculate or AutoSize" = some .autosize := by
  have hline : '\n' ∉ "Autocalculate or AutoSize".toList := by decide +kernel
  let p : Occurrence "Autocalculate or AutoSize".toList :=
    ⟨.autosize, "Autocalculate or ".toList, "AutoSize".toList, [], by decide +kernel,
      by decide +kernel⟩
  have hlast : p.IsLast := fun q => by
    have hle := q.length_before_le
    rw [show "Autocalculate or AutoSize".toList.length = 17 + 8 by decide +kernel] at hle
    exact Nat.le_of_add_le_add_right hle
  exact ⟨hline, ((inDefault?_exact hline).2.2 p hlast).1 (by decide +kernel)⟩

/-- With a long s the word `autosize` is found, and taken for `autocalculate`. -/
theorem longS_not_autosize :
    inDefault? "autoſize" = some .autocalculate ∧
      ¬∀ text : String, '\n' ∉ text.toList →
        ∀ p : Occurrence text.toList, p.IsLast → inDefault? text = some p.which := by
  have hread : inDefault? "autoſize" = some .autocalculate := by decide +kernel
  refine ⟨hread, fun hall => ?_⟩
  let p : Occurrence "autoſize".toList :=
    ⟨.autosize, [], "autoſize".toList, [], by decide +kernel, by decide +kernel⟩
  have hlast : p.IsLast := fun q => by
    have hle := q.length_before_le
    rw [show "autoſize".toList.length = 0 + 8 by decide +kernel] at hle
    exact Nat.le_of_add_le_add_right hle
  have hclaim := hall "autoſize" (by decide +kernel) p hlast
  rw [hread] at hclaim
  cases hclaim

end DataDictionary.Sentinel
