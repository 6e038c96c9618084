import DataDictionary.Proofs.Precedence
import DataDictionary.Proofs.Trimming
import DataDictionary.Source.Reader

/-!
# Directives for the kind of a field

A directive for the kind of a field is the word `type` and the keyword of a kind, with nothing but
blanks between them. The pattern takes both words in any case (`Directive.DeclaresKind`), and since
no keyword is the beginning of another one, it is clear which kind is meant.

The keyword is read a second time when the directive is applied to the field. That reading makes
the letters `A` to `Z` small and no others. So a keyword with a long s fits the pattern, and then
the field keeps the kind that it had, without a word about it (`list_with_longS_ignored`). Every
other spelling is understood.
-/

namespace DataDictionary

namespace Text

theorem isBlank_foldLatin {c : Char} (h : isBlank c = true) : isBlank (foldLatin c) = true := by
  have hs : c ≠ 'ſ' := by
    rintro rfl
    exact absurd h (by decide)
  have hk : c ≠ '\u212A' := by
    rintro rfl
    exact absurd h (by decide)
  rw [foldLatin, if_neg hs, if_neg hk]
  rcases toLower_cases c with hself | ⟨n, hn, rfl⟩
  · rwa [hself]
  · have hcapital : ∀ n < 26, isBlank (Char.ofNat (65 + n)) = false := by decide
    rw [hcapital n hn] at h
    cases h

/-- A spelling of a word without blanks has none either. -/
theorem not_isBlank_of_spelled {found word : List Char} (h : found.map foldLatin = word)
    (hword : ∀ c ∈ word, isBlank c = false) : ∀ c ∈ found, isBlank c = false := by
  intro c hc
  by_contra hblank
  have hmem : foldLatin c ∈ word := h ▸ List.mem_map_of_mem hc
  rw [Bool.not_eq_false] at hblank
  have hfold := isBlank_foldLatin hblank
  rw [hword _ hmem] at hfold
  cases hfold

/-- What is left of the front blanks, with the blanks that were there. -/
theorem trimStart_eq_iff {cs rest : List Char} {c : Char} (h : isBlank c = false) :
    trimStart cs = c :: rest ↔
      ∃ blanks, cs = blanks ++ c :: rest ∧ ∀ b ∈ blanks, isBlank b = true := by
  constructor
  · intro htrim
    refine ⟨cs.takeWhile isBlank, ?_, fun b hb => List.mem_takeWhile_imp hb⟩
    rw [← htrim]
    exact List.takeWhile_append_dropWhile.symm
  · rintro ⟨blanks, rfl, hblanks⟩
    rw [trimStart, List.dropWhile_append_of_pos hblanks]
    exact trimStart_eq_self h

end Text

open Text

/-! ## The keyword of a kind -/

namespace FieldKind

/-- The letters of the keywords leave no doubt. -/
theorem keyword_letters (kind : FieldKind) :
    kind.keyword.toList ≠ [] ∧ 'k' ∉ kind.keyword.toList ∧ 'ſ' ∉ kind.keyword.toList ∧
      ∀ c ∈ kind.keyword.toList, isBlank c = false := by
  have hletters : kind.keyword.toList ≠ [] ∧ 'k' ∉ kind.keyword.toList ∧
      'ſ' ∉ kind.keyword.toList ∧ kind.keyword.toList.all (!isBlank ·) = true := by
    cases kind <;> decide +kernel
  obtain ⟨hne, hk, hs, hblanks⟩ := hletters
  refine ⟨hne, hk, hs, fun c hc => ?_⟩
  simpa using List.all_eq_true.mp hblanks c hc

/-- No keyword is the beginning of another one. -/
theorem eq_of_keyword_isPrefix {a b : FieldKind} (h : a.keyword.toList <+: b.keyword.toList) :
    a = b := by
  have hall : ∀ a ∈ all, ∀ b ∈ all, a.keyword.toList <+: b.keyword.toList → a = b := by
    decide +kernel
  exact hall a (mem_all a) b (mem_all b) h

variable {kind : FieldKind} {cs found : List Char}

/-- **A keyword in any case is read as its kind, unless it has a long s.** -/
theorem parse?_of_spelled (h : found.map foldLatin = kind.keyword.toList) :
    parse? (String.ofList found) = if 'ſ' ∈ found then none else some kind := by
  obtain ⟨-, hk, -, hblanks⟩ := kind.keyword_letters
  have hword : lowerLatin (strip (String.ofList found)) =
      String.ofList (found.map Char.toLower) := by
    rw [strip, String.toList_ofList, trim_eq_self (not_isBlank_of_spelled h hblanks), lowerLatin,
      String.toList_ofList]
  by_cases hlong : 'ſ' ∈ found
  · rw [if_pos hlong, parse?, hword, List.find?_eq_none]
    intro other _ heq
    have hletters : other.keyword.toList = found.map Char.toLower := by
      rw [eq_of_beq heq, String.toList_ofList]
    have hmem : Char.toLower 'ſ' ∈ found.map Char.toLower := List.mem_map_of_mem hlong
    rw [← hletters] at hmem
    exact other.keyword_letters.2.2.1 hmem
  · have hlower : found.map Char.toLower = kind.keyword.toList :=
      (map_toLower_eq_iff h hk).mpr hlong
    have hself : lowerLatin (strip kind.keyword) = kind.keyword := by
      cases kind <;> decide +kernel
    rw [if_neg hlong, ← parse?_keyword kind, parse?, parse?, hword, hlower, String.ofList_toList,
      hself]

end FieldKind

/-- **The pattern finds the keyword that a text begins with.** -/
theorem leadingKind?_eq_some_iff {cs found : List Char} :
    leadingKind? cs = some found ↔
      ∃ (kind : FieldKind) (rest : List Char),
        cs = found ++ rest ∧ found.map foldLatin = kind.keyword.toList := by
  have hsound : ∀ {found : List Char}, leadingKind? cs = some found →
      ∃ (kind : FieldKind) (rest : List Char),
        cs = found ++ rest ∧ found.map foldLatin = kind.keyword.toList := by
    intro found h
    obtain ⟨kind, -, hkind⟩ := List.exists_of_findSome?_eq_some h
    obtain ⟨rest, hrest, htake⟩ := Option.map_eq_some_iff.mp hkind
    obtain ⟨found', rfl, hspelled⟩ := afterWord?_eq_some_iff.mp hrest
    rw [← hspelled, List.length_map, List.take_left] at htake
    exact ⟨kind, rest, by rw [htake], by rw [← htake, hspelled]⟩
  refine ⟨hsound, ?_⟩
  rintro ⟨kind, rest, hcs, hspelled⟩
  have hsome : (leadingKind? cs).isSome := by
    rw [leadingKind?, List.findSome?_isSome_iff]
    refine ⟨kind, kind.mem_all, ?_⟩
    rw [Option.isSome_map, afterWord?_eq_some_iff.mpr ⟨found, hcs, hspelled⟩]
    rfl
  obtain ⟨found', hfound'⟩ := Option.isSome_iff_exists.mp hsome
  obtain ⟨kind', rest', hcs', hspelled'⟩ := hsound hfound'
  have htext : found ++ rest = found' ++ rest' := hcs.symm.trans hcs'
  have hkind : kind = kind' := by
    rcases isPrefix_or_isPrefix_of_spelled htext hspelled hspelled' with h | h
    · exact FieldKind.eq_of_keyword_isPrefix h
    · exact (FieldKind.eq_of_keyword_isPrefix h).symm
  have hlength : found.length = found'.length := by
    have hletters : found.map foldLatin = found'.map foldLatin := by
      rw [hspelled, hkind, hspelled']
    simpa using congrArg List.length hletters
  rw [hfound', (List.append_inj htext hlength).1]

/-! ## The directive -/

namespace Directive

/-- A text begins with the word `type` and the keyword of a kind, each in some case, and there is
nothing but blanks between them. -/
def DeclaresKind (text : String) (kind : FieldKind) (argument : String) : Prop :=
  ∃ word blanks rest, trimStart text.toList = word ++ (blanks ++ (argument.toList ++ rest)) ∧
    word.map foldLatin = "type".toList ∧ (∀ b ∈ blanks, isBlank b = true) ∧
    argument.toList.map foldLatin = kind.keyword.toList

/-- The rule for the kind of a field. -/
def kindRule : Rule := ⟨.field .kind, .anyCase "type", .fieldKind⟩

theorem kindRule_mem : kindRule ∈ Scope.field.rules := by decide

theorem eq_kindRule {r : Rule} (h : r ∈ Scope.field.rules) (hkeyword : r.keyword = .field .kind) :
    r = kindRule := by
  revert r
  decide

/-- Behind the word `type`, blanks are passed over. -/
theorem read?_fieldKind_eq_some_iff {cs found : List Char} :
    ArgumentForm.fieldKind.read? cs = some found ↔
      ∃ (kind : FieldKind) (blanks rest : List Char), cs = blanks ++ (found ++ rest) ∧
        (∀ b ∈ blanks, isBlank b = true) ∧ found.map foldLatin = kind.keyword.toList := by
  have hbegins : ∀ {kind : FieldKind} {found : List Char},
      found.map foldLatin = kind.keyword.toList →
      ∃ c found', found = c :: found' ∧ isBlank c = false := by
    intro kind found h
    obtain ⟨hne, -, -, hblanks⟩ := kind.keyword_letters
    cases found with
    | nil => exact absurd h.symm hne
    | cons c found' =>
      exact ⟨c, found', rfl, not_isBlank_of_spelled h hblanks c List.mem_cons_self⟩
  rw [ArgumentForm.read?, leadingKind?_eq_some_iff]
  constructor
  · rintro ⟨kind, rest, htrim, hspelled⟩
    obtain ⟨c, found', rfl, hc⟩ := hbegins hspelled
    obtain ⟨blanks, hcs, hblanks⟩ := (trimStart_eq_iff hc).mp htrim
    exact ⟨kind, blanks, rest, hcs, hblanks, hspelled⟩
  · rintro ⟨kind, blanks, rest, hcs, hblanks, hspelled⟩
    obtain ⟨c, found', rfl, hc⟩ := hbegins hspelled
    exact ⟨kind, rest, (trimStart_eq_iff hc).mpr ⟨blanks, hcs, hblanks⟩, hspelled⟩

/-- **The rule fits the texts that declare a kind.** -/
theorem kindRule_argument?_eq_some_iff {text argument : String} :
    kindRule.argument? (trimStart text.toList) = some argument ↔
      ∃ kind, DeclaresKind text kind argument := by
  simp only [kindRule, Rule.argument?, Pattern.match?, Spelling.after?, Option.bind_eq_bind,
    Option.bind_eq_some_iff, Option.some.injEq, afterWord?_eq_some_iff,
    read?_fieldKind_eq_some_iff]
  constructor
  · rintro ⟨_, ⟨word, htext, hword⟩, found, ⟨kind, blanks, rest, rfl, hblanks, hspelled⟩, rfl⟩
    have htrim : trim found = found :=
      trim_eq_self (not_isBlank_of_spelled hspelled kind.keyword_letters.2.2.2)
    rw [htrim]
    refine ⟨kind, word, blanks, rest, ?_, hword, hblanks, ?_⟩
    · rw [htext, String.toList_ofList]
    · rw [String.toList_ofList, hspelled]
  · rintro ⟨kind, word, blanks, rest, htext, hword, hblanks, hspelled⟩
    have htrim : trim argument.toList = argument.toList :=
      trim_eq_self (not_isBlank_of_spelled hspelled kind.keyword_letters.2.2.2)
    exact ⟨_, ⟨word, htext, hword⟩, argument.toList, ⟨kind, blanks, rest, rfl, hblanks, hspelled⟩,
      by rw [htrim, String.ofList_toList]⟩

/-- **A text is read as a directive for the kind exactly if it declares one.** -/
theorem classify?_kind_iff {text argument : String} :
    classify? .field text = some ⟨.field .kind, argument⟩ ↔
      ∃ kind, DeclaresKind text kind argument := by
  rw [← kindRule_argument?_eq_some_iff]
  constructor
  · intro h
    obtain ⟨r, hmem, hkeyword, hargument⟩ := exists_rule_of_classify? h
    rwa [eq_kindRule hmem hkeyword] at hargument
  · intro h
    have hfits : kindRule.Fits text := Option.isSome_iff_exists.mpr ⟨argument, h⟩
    have hno : ∀ r ∈ Scope.field.rules, r.Fits text → ¬r.Outranks kindRule := by
      have htable : ∀ r ∈ Scope.field.rules, ¬r.Outranks kindRule := by decide
      exact fun r hr _ => htable r hr
    rw [classify?_of_isDecisive (.of_not_outranked kindRule_mem hfits hno), h]
    rfl

/-- **What comes of a directive for the kind of a field.** It is recognized exactly if it declares a
kind. Then the field gets that kind, unless the keyword is written with a long s; in that case the
keyword cannot be read, and the field stays as it is. Either way nothing is reported. -/
theorem kind_directives (text argument : String) :
    (classify? .field text = some ⟨.field .kind, argument⟩ ↔
      ∃ kind, DeclaresKind text kind argument) ∧
    ∀ kind, DeclaresKind text kind argument →
      FieldKind.parse? argument = (if 'ſ' ∈ argument.toList then none else some kind) ∧
      ∀ f : OpenField, f.apply .kind argument = .ok
        (if 'ſ' ∈ argument.toList then f else { f with field := { f.field with kind } }, []) := by
  refine ⟨classify?_kind_iff, ?_⟩
  rintro kind ⟨-, -, -, -, -, -, hspelled⟩
  have hparse : FieldKind.parse? argument = if 'ſ' ∈ argument.toList then none else some kind := by
    have h := FieldKind.parse?_of_spelled hspelled
    rwa [String.ofList_toList] at h
  refine ⟨hparse, fun f => ?_⟩
  rw [OpenField.apply, OpenField.change, hparse]
  split <;> rfl

/-- Case and blanks do not matter, and neither does what stands behind the keyword. -/
theorem list_in_capitals_read :
    DeclaresKind " TYPE  Object-List!" .objectList "Object-List" ∧
      classify? .field " TYPE  Object-List!" = some ⟨.field .kind, "Object-List"⟩ ∧
      ∀ f : OpenField, f.apply .kind "Object-List" =
        .ok ({ f with field := { f.field with kind := .objectList } }, []) := by
  have hdeclares : DeclaresKind " TYPE  Object-List!" .objectList "Object-List" :=
    ⟨"TYPE".toList, "  ".toList, "!".toList, by decide +kernel, by decide +kernel,
      List.all_eq_true.mp (by decide +kernel), by decide +kernel⟩
  have hlong : 'ſ' ∉ "Object-List".toList := by decide +kernel
  obtain ⟨hread, heffect⟩ := kind_directives " TYPE  Object-List!" "Object-List"
  refine ⟨hdeclares, hread.mpr ⟨_, hdeclares⟩, fun f => ?_⟩
  have happly := (heffect .objectList hdeclares).2 f
  rwa [if_neg hlong] at happly

/-- A list whose keyword is written with a long s is recognized, and the field stays what it was. -/
theorem list_with_longS_ignored :
    classify? .field "type object-liſt" = some ⟨.field .kind, "object-liſt"⟩ ∧
      FieldKind.parse? "object-liſt" = none ∧
      (let source := Source.ofText "Zone,\nA1; \\type object-liſt\n"
      source.findings = [] ∧ source.objects.map (·.fields.map (·.kind)) = [[.alpha]]) ∧
      ¬∀ text argument, classify? .field text = some ⟨.field .kind, argument⟩ →
        (FieldKind.parse? argument).isSome := by
  have hread : classify? .field "type object-liſt" = some ⟨.field .kind, "object-liſt"⟩ := by
    decide +kernel
  have hparse : FieldKind.parse? "object-liſt" = none := by decide +kernel
  refine ⟨hread, hparse, by decide +kernel, fun hall => ?_⟩
  have hsome := hall _ _ hread
  rw [hparse] at hsome
  cases hsome

end Directive

end DataDictionary
