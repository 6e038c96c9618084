import DataDictionary.Proofs.Joining
import DataDictionary.Proofs.Outcomes

/-!
# Layout and comments do not matter

The blanks around the code of a line end up at the outer ends of its first and its last piece, where
they are trimmed, so a line has the tokens of its code without them (`bodiesOfCode_trim`). What is
behind the first `!` only ever becomes a comment. Two texts that agree line by line up to that,
`SameCode`, therefore look the same to the reader: they declare the same items and the same is found
wrong with them. Only their headers may differ, and these go into nothing but the version, the build
and the header of the dictionary.
-/

namespace DataDictionary

open Text

/-! ## Blanks around the code of a line -/

namespace Text

theorem trim_cons {b : Char} (h : isBlank b = true) (cs : List Char) :
    trim (b :: cs) = trim cs := by
  rw [trim, trim, trimStart_cons, if_pos h]

/-- Nothing that divides a line is blank. -/
theorem plain_of_isBlank {b : Char} (h : isBlank b = true) :
    Separator.ofChar? b = none ∧ b ≠ '\\' := by
  refine ⟨?_, fun hb => ?_⟩
  · unfold Separator.ofChar?
    split
    · exact absurd h (by decide)
    · exact absurd h (by decide)
    · rfl
  · rw [hb] at h
    exact absurd h (by decide)

end Text

namespace Token

/-- A blank in front goes to the first segment. -/
theorem bodies_ofText_cons {b : Char} (h : isBlank b = true)
    (make : String → Option Separator → TokenBody) (cs : List Char) :
    bodies make (Segment.ofText (b :: cs)) = bodies make (Segment.ofText cs) := by
  refine bodies_congr ?_ make
  rw [Segment.ofText, (plain_of_isBlank h).1]
  dsimp only
  cases hcs : Segment.ofText cs with
  | nil =>
    -- there is always a segment
    cases cs with
    | nil => cases hcs
    | cons c cs =>
      rw [Segment.ofText] at hcs
      split at hcs
      · cases hcs
      · split at hcs <;> cases hcs
  | cons s rest =>
    rw [List.map_cons, List.map_cons, Segment.view, Segment.view, trim_cons h]

theorem bodiesOfCode_cons {b : Char} (h : isBlank b = true) (code : List Char) :
    bodiesOfCode (b :: code) = bodiesOfCode code := by
  have hmark : decide (b ≠ '\\') = true := decide_eq_true (plain_of_isBlank h).2
  unfold bodiesOfCode
  rw [List.takeWhile_cons_of_pos (p := (· ≠ '\\')) hmark,
    List.dropWhile_cons_of_pos (p := (· ≠ '\\')) hmark, bodies_ofText_cons h]

theorem bodiesOfCode_trimStart (code : List Char) :
    bodiesOfCode (trimStart code) = bodiesOfCode code := by
  induction code with
  | nil => rfl
  | cons c code ih =>
    rw [trimStart_cons]
    split
    · next h => rw [ih, bodiesOfCode_cons h]
    · rfl

theorem bodiesOfCode_trimEnd (code : List Char) :
    bodiesOfCode (trimEnd code) = bodiesOfCode code := by
  have htrim : ∀ cs, trimEnd cs = cs.rdropWhile isBlank := fun _ => rfl
  induction code using List.reverseRecOn with
  | nil => rfl
  | append_singleton code c ih =>
    cases h : isBlank c with
    | false => rw [htrim, List.rdropWhile_concat_neg _ _ _ (by simp [h])]
    | true =>
      obtain ⟨hsep, hmark⟩ := plain_of_isBlank h
      rw [htrim, List.rdropWhile_concat_pos _ _ _ h, ← htrim, ih,
        bodiesOfCode_concat h hsep hmark]

/-- **The blanks around the code of a line do not show.** -/
theorem bodiesOfCode_trim (code : List Char) : bodiesOfCode (trim code) = bodiesOfCode code := by
  rw [trim, bodiesOfCode_trimEnd, bodiesOfCode_trimStart]

/-! ## Lines that say the same -/

/-- What a line says: its code without the blanks around it. -/
def coreOf (line : List Char) : List Char := trim (codeOf line)

/-- What the reader sees of a line depends on what it says and where it stands. -/
theorem seen_ofLine_core (l : List Char) (n : Nat) :
    seen (ofLine l n) = (bodiesOfCode (coreOf l)).map fun body => ⟨body, n, none⟩ := by
  rw [seen_ofLine, coreOf, bodiesOfCode_trim]

theorem seen_ofLines_congr {ls ms : List (List Char)} (h : ls.map coreOf = ms.map coreOf)
    (n : Nat) : seen (ofLines n ls) = seen (ofLines n ms) := by
  induction ls generalizing ms n with
  | nil =>
    cases ms with
    | nil => rfl
    | cons m ms => cases h
  | cons l ls ih =>
    cases ms with
    | nil => cases h
    | cons m ms =>
      obtain ⟨hcore, hrest⟩ := List.cons.inj h
      rw [ofLines, ofLines, seen_append, seen_append, seen_ofLine_core, seen_ofLine_core, hcore,
        ih hrest]

end Token

/-- Whether two texts have as many lines and these say the same one by one: they are equal once the
comments are cut off and the blanks around the rest are trimmed. -/
def SameCode (a b : String) : Prop :=
  (lines a.toList).map Token.coreOf = (lines b.toList).map Token.coreOf

instance (a b : String) : Decidable (SameCode a b) := inferInstanceAs (Decidable (_ = _))

/-- **The reader sees the same in texts that say the same.** -/
theorem Source.reads_same_code {a b : String} (h : SameCode a b) :
    (ofText a).items = (ofText b).items ∧ (ofText a).findings = (ofText b).findings := by
  have hseen : Token.seen (Token.ofText a) = Token.seen (Token.ofText b) :=
    Token.seen_ofLines_congr h 1
  have hread : readTokens (Token.ofText a) = readTokens (Token.ofText b) := by
    rw [← readTokens_seen, hseen, readTokens_seen]
  exact ⟨congrArg Prod.fst hread, congrArg Prod.snd hread⟩

/-- The header of a source plays no part in merging it. -/
theorem Resolver.expand_congr {s t : Source} (hitems : s.items = t.items)
    (hfindings : s.findings = t.findings) (r : Resolver) (label : Option String)
    (chain : List String) : r.expand label chain s = r.expand label chain t := by
  have hobjects : s.objects = t.objects := by rw [Source.objects, hitems, Source.objects]
  rw [expand_eq, expand_eq, mergeSource, mergeSource, hobjects, hitems, hfindings]

namespace Outcome

/-- **Layout and comments do not matter.** Texts that say the same line by line give the same
objects, the same groups and the same diagnostics, whatever they include. -/
theorem ofText_congr_code {a b : String} (h : SameCode a b) (settings : Settings)
    (loader : Option Loader) :
    (ofText settings loader a).dictionary.objects = (ofText settings loader b).dictionary.objects ∧
    (ofText settings loader a).dictionary.groups = (ofText settings loader b).dictionary.groups ∧
    (ofText settings loader a).diagnostics = (ofText settings loader b).diagnostics := by
  have hmerged : merged settings loader a = merged settings loader b := by
    obtain ⟨hitems, hfindings⟩ := Source.reads_same_code h
    exact Resolver.expand_congr hitems hfindings _ _ _
  refine ⟨?_, ?_, ?_⟩
  · rw [objects_ofText, objects_ofText, hmerged]
  · rw [groups_ofText, groups_ofText, hmerged]
  · rw [diagnostics_ofText, diagnostics_ofText, hmerged]

/-- Line ends, indentation, blanks before a separator at the end of a line and comments, one of them
on a line of its own, make no difference; the version is only stated by one of the texts. -/
theorem plain_and_laid_out_zone :
    let plain := "!IDD_Version 1.2\n\\group Rooms\nZone,\\memo a zone;\n\n" ++
      "A1; \\field Name\n\\colour red"
    let laidOut := "! rooms\r\n \\group Rooms\t! group\r\n\tZone,\\memo a zone; ! !\r\n!\r\n" ++
      "  A1; \\field Name   \r\n\\colour red\u2003\n"
    SameCode plain laidOut ∧
    (ofText {} none plain).dictionary.version = some "1.2" ∧
    (ofText {} none laidOut).dictionary.version = none ∧
    (ofText {} none laidOut).dictionary.objects.map (fun o => (o.name, o.fields.map (·.name))) =
      [("Zone", ["Name"])] ∧
    (ofText {} none plain).dictionary.objects = (ofText {} none laidOut).dictionary.objects ∧
    (ofText {} none plain).dictionary.groups = (ofText {} none laidOut).dictionary.groups ∧
    (ofText {} none plain).diagnostics = (ofText {} none laidOut).diagnostics := by
  intro plain laidOut
  have hsame : SameCode plain laidOut := by decide +kernel
  exact ⟨hsame, by decide +kernel, by decide +kernel, by decide +kernel,
    ofText_congr_code hsame {} none⟩

end Outcome

end DataDictionary
