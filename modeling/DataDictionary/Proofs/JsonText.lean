import DataDictionary.Proofs.JsonLexemes

/-!
# Reading what was written

A JSON value that is written can be read back, provided that it has a text form at all: its numbers
are well formed, and its strings are texts (`Regular`). What comes behind a number in a value never
goes on with it, since only a comma or a closing bracket comes there.

The fuel that is granted to the reader is twice the length of the text. Going into an array or an
object takes two units, and uses up at least the opening bracket; going on to the next item takes
one, and uses up at least the comma.
-/

namespace DataDictionary

namespace Json

/-! ## Values -/

/-- A value that has a text form: its numbers are well formed, and its strings are texts. -/
inductive Regular : Json → Prop where
  | null : Regular null
  | bool (b : Bool) : Regular (bool b)
  | number {n : Numeral} : n.IsProper → Regular (number n)
  | text (s : String) : Regular (text s)
  | array {items : List Json} : (∀ j ∈ items, Regular j) → Regular (array items)
  | object {members : List (Option String × Json)} : (∀ m ∈ members, ∃ key, m.1 = some key) →
      (∀ m ∈ members, Regular m.2) → Regular (object members)

theorem skipBlanks_cons {c : Char} (h : isBlank c = false) (cs : List Char) :
    skipBlanks (c :: cs) = c :: cs := List.dropWhile_cons_of_neg (by simp [h])

/-- A number begins with a digit or its sign. -/
theorem exists_render_head {n : Numeral} (h : n.IsProper) :
    ∃ c cs, n.render = c :: cs ∧ (c.isDigit = true ∨ c = '-') := by
  obtain ⟨c, cs, hwhole, hc⟩ := h.whole.head_isDigit
  rw [render_eq, hwhole]
  cases n.negative with
  | true => exact ⟨'-', _, rfl, .inr rfl⟩
  | false => exact ⟨c, _, rfl, .inl hc⟩

theorem isBlank_of_number {c : Char} (h : c.isDigit = true ∨ c = '-') : isBlank c = false := by
  rw [Bool.eq_false_iff]
  intro hblank
  simp only [isBlank, Bool.or_eq_true, beq_iff_eq] at hblank
  rcases hblank with ((rfl | rfl) | rfl) | rfl <;> exact absurd h (by decide)

/-- A value begins neither with a blank nor with the end of an array. -/
theorem Regular.exists_head {j : Json} (h : j.Regular) :
    ∃ c cs, j.print = c :: cs ∧ isBlank c = false ∧ c ≠ ']' := by
  cases h with
  | null => exact ⟨'n', ['u', 'l', 'l'], rfl, rfl, by decide⟩
  | bool b =>
    cases b with
    | true => exact ⟨'t', ['r', 'u', 'e'], rfl, rfl, by decide⟩
    | false => exact ⟨'f', ['a', 'l', 's', 'e'], rfl, rfl, by decide⟩
  | number hn =>
    obtain ⟨c, cs, hrender, hc⟩ := exists_render_head hn
    refine ⟨c, cs, hrender, isBlank_of_number hc, ?_⟩
    rintro rfl
    exact absurd hc (by decide)
  | text s => exact ⟨'"', _, rfl, rfl, by decide⟩
  | array _ =>
    next items _ =>
    cases items <;> exact ⟨'[', _, rfl, rfl, by decide⟩
  | object _ _ =>
    next members _ _ =>
    cases members <;> exact ⟨'\x7b', _, rfl, rfl, by decide⟩

theorem readValue?_number {c : Char} (h : c.isDigit = true ∨ c = '-') (fuel : Nat)
    (cs : List Char) :
    readValue? (fuel + 1) (c :: cs) =
      (readNumber? (c :: cs)).map fun r => (.number r.1, r.2) := by
  rw [readValue?, skipBlanks_cons (isBlank_of_number h)]
  split
  all_goals first
    | rfl
    | next heq => cases heq; exact absurd h (by decide)

theorem readValue?_array {c : Char} (hblank : isBlank c = false) (hend : c ≠ ']') (fuel : Nat)
    (cs : List Char) :
    readValue? (fuel + 1) ('[' :: c :: cs) =
      (readItems? fuel (c :: cs)).map fun r => (.array r.1, r.2) := by
  rw [readValue?, skipBlanks_cons (c := '[') rfl]
  split
  case h_5 rest heq =>
    cases heq
    rw [skipBlanks_cons hblank]
    split
    · next heq =>
      cases heq
      exact absurd rfl hend
    · rfl
  case h_7 hopen _ => exact (hopen _ rfl).elim
  all_goals next heq => cases heq

theorem readValue?_object (fuel : Nat) (cs : List Char) :
    readValue? (fuel + 1) ('\x7b' :: '"' :: cs) =
      (readMembers? fuel ('"' :: cs)).map fun r => (.object r.1, r.2) := by
  rw [readValue?]
  rfl

/-- Whether a value is read back wherever it stands, given fuel for twice its length. -/
def IsReadBack (j : Json) : Prop :=
  ∀ fuel rest, 2 * j.print.length ≤ fuel → EndsNumber rest →
    readValue? fuel (j.print ++ rest) = some (j, rest)

theorem readItems?_last {item : Json} {fuel : Nat} {cs rest : List Char}
    (h : readValue? fuel cs = some (item, ']' :: rest)) :
    readItems? (fuel + 1) cs = some ([item], rest) := by
  rw [readItems?, h]
  rfl

theorem readItems?_next {item : Json} {fuel : Nat} {cs rest : List Char}
    (h : readValue? fuel cs = some (item, ',' :: rest)) :
    readItems? (fuel + 1) cs = (readItems? fuel rest).map fun r => (item :: r.1, r.2) := by
  rw [readItems?, h]
  show (readItems? fuel rest).bind _ = _
  cases readItems? fuel rest <;> rfl

/-- Items that are read back one by one are read back together. -/
theorem readItems?_append {item : Json} {items : List Json}
    (h : ∀ j ∈ item :: items, IsReadBack j) {fuel : Nat}
    (hfuel : 2 * (item.print ++ printItems items).length ≤ fuel + 1) (rest : List Char) :
    readItems? fuel (item.print ++ (printItems items ++ rest)) = some (item :: items, rest) := by
  induction items generalizing item fuel with
  | nil =>
    rw [List.length_append, printItems, List.length_singleton] at hfuel
    obtain ⟨fuel, rfl⟩ : ∃ f, fuel = f + 1 := ⟨fuel - 1, by omega⟩
    have hread : readValue? fuel (item.print ++ ']' :: rest) = some (item, ']' :: rest) :=
      h item (by simp) fuel _ (by omega) (endsNumber_cons rfl rest)
    rw [printItems, List.singleton_append]
    exact readItems?_last hread
  | cons next items ih =>
    rw [List.length_append, printItems, List.cons_append, List.length_cons] at hfuel
    -- one unit goes into this item, and the comma behind it is worth two
    obtain ⟨fuel, rfl⟩ : ∃ f, fuel = f + 1 := ⟨fuel - 1, by omega⟩
    have hread : readValue? fuel (item.print ++ ',' :: (next.print ++ (printItems items ++ rest))) =
        some (item, ',' :: (next.print ++ (printItems items ++ rest))) :=
      h item (by simp) fuel _ (by omega) (endsNumber_cons rfl _)
    have hitems : readItems? fuel (next.print ++ (printItems items ++ rest)) =
        some (next :: items, rest) :=
      ih (fun j hj => h j (List.mem_cons_of_mem _ hj)) (by omega)
    rw [printItems, List.cons_append, List.cons_append, List.append_assoc, readItems?_next hread,
      hitems]
    rfl

theorem printString_some (s : String) :
    printString (some s) = '"' :: (s.toList.flatMap escape ++ ['"']) := rfl

theorem printMember_append (key : String) (value : Json) (rest : List Char) :
    printMember (some key, value) ++ rest =
      '"' :: (key.toList.flatMap escape ++ '"' :: ':' :: (value.print ++ rest)) := by
  rw [printMember, printString_some]
  simp only [List.append_assoc, List.cons_append, List.nil_append]

theorem length_print_le_printMember (key : Option String) (value : Json) :
    value.print.length ≤ (printMember (key, value)).length := by
  simp only [printMember, List.length_append, List.length_cons]
  omega

theorem readMembers?_last {key : String} {value : Json} {fuel : Nat} {cs rest : List Char}
    (h : readValue? fuel cs = some (value, '\x7d' :: rest)) :
    readMembers? (fuel + 1) ('"' :: (key.toList.flatMap escape ++ '"' :: ':' :: cs)) =
      some ([(some key, value)], rest) := by
  rw [readMembers?]
  show (readString? (key.toList.flatMap escape ++ '"' :: ':' :: cs)).bind _ = _
  rw [readString?_append]
  show (readValue? fuel cs).bind _ = _
  rw [h]
  rfl

theorem readMembers?_next {key : String} {value : Json} {fuel : Nat} {cs rest : List Char}
    (h : readValue? fuel cs = some (value, ',' :: rest)) :
    readMembers? (fuel + 1) ('"' :: (key.toList.flatMap escape ++ '"' :: ':' :: cs)) =
      (readMembers? fuel rest).map fun r => ((some key, value) :: r.1, r.2) := by
  rw [readMembers?]
  show (readString? (key.toList.flatMap escape ++ '"' :: ':' :: cs)).bind _ = _
  rw [readString?_append]
  show (readValue? fuel cs).bind _ = _
  rw [h]
  show (readMembers? fuel rest).bind _ = _
  cases readMembers? fuel rest <;> rfl

/-- Members whose values are read back one by one are read back together. -/
theorem readMembers?_append {member : Option String × Json} {members : List (Option String × Json)}
    (hkeys : ∀ m ∈ member :: members, ∃ key, m.1 = some key)
    (h : ∀ m ∈ member :: members, IsReadBack m.2) {fuel : Nat}
    (hfuel : 2 * (printMember member ++ printMembers members).length ≤ fuel + 1)
    (rest : List Char) :
    readMembers? fuel (printMember member ++ (printMembers members ++ rest)) =
      some (member :: members, rest) := by
  induction members generalizing member fuel with
  | nil =>
    obtain ⟨key, value⟩ := member
    obtain ⟨key, rfl⟩ := hkeys _ List.mem_cons_self
    have hlength := length_print_le_printMember (some key) value
    rw [List.length_append, printMembers, List.length_singleton] at hfuel
    obtain ⟨fuel, rfl⟩ : ∃ f, fuel = f + 1 := ⟨fuel - 1, by omega⟩
    have hread : readValue? fuel (value.print ++ '\x7d' :: rest) = some (value, '\x7d' :: rest) :=
      h _ List.mem_cons_self fuel _ (by dsimp only; omega) (endsNumber_cons rfl rest)
    rw [printMembers, List.singleton_append, printMember_append]
    exact readMembers?_last hread
  | cons next members ih =>
    obtain ⟨key, value⟩ := member
    obtain ⟨key, rfl⟩ := hkeys _ List.mem_cons_self
    have hlength := length_print_le_printMember (some key) value
    rw [List.length_append, printMembers, List.cons_append, List.length_cons] at hfuel
    obtain ⟨fuel, rfl⟩ : ∃ f, fuel = f + 1 := ⟨fuel - 1, by omega⟩
    have hread : readValue? fuel
        (value.print ++ ',' :: (printMember next ++ (printMembers members ++ rest))) =
        some (value, ',' :: (printMember next ++ (printMembers members ++ rest))) :=
      h _ List.mem_cons_self fuel _ (by dsimp only; omega) (endsNumber_cons rfl _)
    have hmembers : readMembers? fuel (printMember next ++ (printMembers members ++ rest)) =
        some (next :: members, rest) :=
      ih (fun m hm => hkeys m (List.mem_cons_of_mem _ hm))
        (fun m hm => h m (List.mem_cons_of_mem _ hm)) (by omega)
    rw [printMembers, List.cons_append, List.cons_append, List.append_assoc, printMember_append,
      readMembers?_next hread, hmembers]
    rfl

theorem Regular.isReadBack_of_succ {j : Json} (h : j.Regular)
    (hread : ∀ fuel rest, 2 * j.print.length ≤ fuel + 1 → EndsNumber rest →
      readValue? (fuel + 1) (j.print ++ rest) = some (j, rest)) : IsReadBack j := by
  intro fuel rest hfuel hrest
  obtain ⟨c, cs, hprint, -⟩ := h.exists_head
  have hlength : 0 < j.print.length := by
    rw [hprint]
    exact Nat.succ_pos _
  obtain ⟨fuel, rfl⟩ : ∃ f, fuel = f + 1 := ⟨fuel - 1, by omega⟩
  exact hread fuel rest hfuel hrest

theorem readValue?_items {item : Json} {items : List Json}
    (hregular : ∀ j ∈ item :: items, j.Regular) (h : ∀ j ∈ item :: items, IsReadBack j)
    {fuel : Nat} (hfuel : 2 * (array (item :: items)).print.length ≤ fuel + 1) (rest : List Char) :
    readValue? (fuel + 1) ((array (item :: items)).print ++ rest) =
      some (array (item :: items), rest) := by
  obtain ⟨c, cs, hprint, hblank, hend⟩ := (hregular item List.mem_cons_self).exists_head
  have htext : (array (item :: items)).print ++ rest =
      '[' :: c :: (cs ++ (printItems items ++ rest)) := by
    rw [print, hprint]
    simp only [List.cons_append, List.append_assoc]
  have hitems : readItems? fuel (item.print ++ (printItems items ++ rest)) =
      some (item :: items, rest) := by
    refine readItems?_append h ?_ rest
    rw [print, List.cons_append, List.length_cons] at hfuel
    omega
  rw [hprint, List.cons_append] at hitems
  rw [htext, readValue?_array hblank hend, hitems]
  rfl

theorem readValue?_members {member : Option String × Json} {members : List (Option String × Json)}
    (hkeys : ∀ m ∈ member :: members, ∃ key, m.1 = some key)
    (h : ∀ m ∈ member :: members, IsReadBack m.2) {fuel : Nat}
    (hfuel : 2 * (object (member :: members)).print.length ≤ fuel + 1) (rest : List Char) :
    readValue? (fuel + 1) ((object (member :: members)).print ++ rest) =
      some (object (member :: members), rest) := by
  have hmembers : readMembers? fuel (printMember member ++ (printMembers members ++ rest)) =
      some (member :: members, rest) := by
    refine readMembers?_append hkeys h ?_ rest
    rw [print, List.cons_append, List.length_cons] at hfuel
    omega
  obtain ⟨key, value⟩ := member
  obtain ⟨key, rfl⟩ := hkeys _ List.mem_cons_self
  rw [printMember_append] at hmembers
  rw [print, List.cons_append, List.cons_append, List.append_assoc, printMember_append,
    readValue?_object, hmembers]
  rfl

/-- **A value that has a text form is read back.** -/
theorem Regular.isReadBack {j : Json} (h : j.Regular) : IsReadBack j := by
  induction h with
  | null =>
    refine Regular.null.isReadBack_of_succ fun fuel rest _ _ => ?_
    rw [readValue?]
    rfl
  | bool b =>
    refine (Regular.bool b).isReadBack_of_succ fun fuel rest _ _ => ?_
    cases b with
    | true =>
      rw [readValue?]
      rfl
    | false =>
      rw [readValue?]
      rfl
  | number hn =>
    refine (Regular.number hn).isReadBack_of_succ fun fuel rest _ hrest => ?_
    -- the only value whose reading depends on what comes next
    obtain ⟨c, cs, hrender, hc⟩ := exists_render_head hn
    have hnumber := readNumber?_render hn hrest
    rw [hrender, List.cons_append] at hnumber
    rw [print, hrender, List.cons_append, readValue?_number hc, hnumber]
    rfl
  | text s =>
    refine (Regular.text s).isReadBack_of_succ fun fuel rest _ _ => ?_
    have hprint : (Json.text s).print ++ rest =
        '"' :: (s.toList.flatMap escape ++ '"' :: rest) := by
      rw [Json.text, print, printString_some]
      simp only [List.cons_append, List.append_assoc, List.nil_append]
    rw [hprint, readValue?]
    show (readString? (s.toList.flatMap escape ++ '"' :: rest)).map _ = _
    rw [readString?_append]
    rfl
  | @array items hitems ih =>
    refine (Regular.array hitems).isReadBack_of_succ fun fuel rest hfuel _ => ?_
    cases items with
    | nil =>
      rw [readValue?]
      rfl
    | cons item items => exact readValue?_items hitems ih hfuel rest
  | @object members hkeys hvalues ih =>
    refine (Regular.object hkeys hvalues).isReadBack_of_succ fun fuel rest hfuel _ => ?_
    cases members with
    | nil =>
      rw [readValue?]
      rfl
    | cons member members => exact readValue?_members hkeys ih hfuel rest

/-- **Every value that has a text form is the value of its text.** -/
theorem parse?_render {j : Json} (h : j.Regular) : parse? j.render = some j := by
  have hread := h.isReadBack (2 * j.print.length + 2) [] (by omega) endsNumber_nil
  rw [List.append_nil] at hread
  rw [parse?, render, String.toList_ofList]
  show (readValue? _ _).bind _ = _
  rw [hread]
  rfl

end Json

end DataDictionary
