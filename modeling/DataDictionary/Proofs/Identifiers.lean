import DataDictionary.Proofs.IdentifierSearch
import Mathlib.Data.List.Induction

/-!
# Which identifiers are distinct

The objects of a dictionary get identifiers that are pairwise distinct. What is in use when the turn
of an object comes is what the objects before it were given (`getElem?_objectIdents?`), whether that
was an identifier of their own or a numbered one. So the number that an object gets is at most its
position in the dictionary, counted from one (`objectIdents?_searched`). A dictionary is without
identifiers if and only if all candidates for some object are given away when its turn comes
(`objectIdents?_eq_none_iff`). So it has more objects than there are candidates for a name, and if
all its objects go by one name, that is enough (`isSome_objectIdents?_iff`).

The fields of an enumeration are treated less carefully. A field whose identifier is in use gets
its number added *once*, and whether the result is in use as well is not looked at. So there may be
two fields of one identifier, and there are if and only if some field finds both of its candidates
taken in front of it (`nodup_fieldIdents_iff`). Since an identifier shows which number was added to
it (`FieldId.eq_of_append_render`), that takes two fields of one number or a name that looks like
another one with a number added (`nodup_fieldIdents`).
-/

namespace DataDictionary

namespace FieldId

/-- Read from its end, a text that a field identifier was added to begins with the digits of the
number, and what stops them is the letter of the track. -/
theorem split_append_render (base : String) (id : FieldId) :
    (base ++ id.render).toList.reverse.takeWhile Char.isDigit =
        (Text.digits id.number.toNat).reverse ∧
      (base ++ id.render).toList.reverse.dropWhile Char.isDigit =
        id.track.letter :: base.toList.reverse := by
  have hreverse : (base ++ id.render).toList.reverse =
      (Text.digits id.number.toNat).reverse ++ id.track.letter :: base.toList.reverse := by
    simp [render]
  have hdigits : ∀ c ∈ (Text.digits id.number.toNat).reverse, c.isDigit = true :=
    fun c hc => Text.isDigit_of_mem_digits (List.mem_reverse.mp hc)
  have hletter : ¬ id.track.letter.isDigit = true := by
    cases id.track with
    | alpha => decide
    | numeric => decide
  rw [hreverse, List.takeWhile_append_of_pos hdigits, List.dropWhile_append_of_pos hdigits,
    List.takeWhile_cons_of_neg hletter, List.dropWhile_cons_of_neg hletter, List.append_nil]
  exact ⟨rfl, rfl⟩

/-- The field identifier that was added to a text can be told from the result. -/
theorem eq_of_append_render {base base' : String} {id id' : FieldId}
    (h : base ++ id.render = base' ++ id'.render) : id = id' := by
  obtain ⟨hdigits, hrest⟩ := split_append_render base id
  obtain ⟨hdigits', hrest'⟩ := split_append_render base' id'
  rw [h] at hdigits hrest
  have hnumber : id.number.toNat = id'.number.toNat := by
    have hsame := List.reverse_inj.mp (hdigits.symm.trans hdigits')
    rw [← Text.numeral_digits id.number.toNat, hsame, Text.numeral_digits]
  have htrack : some id.track = some id'.track := by
    have hletter := (List.cons.inj (hrest.symm.trans hrest')).1
    rw [← Track.ofLetter?_letter id.track, hletter, Track.ofLetter?_letter]
  obtain ⟨track, number⟩ := id
  obtain ⟨track', number'⟩ := id'
  exact congr (congrArg FieldId.mk (Option.some.inj htrack)) (UInt32.toNat_inj.mp hnumber)

end FieldId

namespace Bindings

/-! ## Objects -/

variable {used bases idents : List String} {base ident : String} {d : Dictionary}

theorem freshAll?_cons (used : List String) (base : String) (rest : List String) :
    freshAll? used (base :: rest) =
      (fresh? used base).bind fun ident => (freshAll? (ident :: used) rest).map (ident :: ·) := by
  simp only [Option.map_eq_bind]
  rfl

theorem freshAll?_cons_eq_some_iff {rest : List String} :
    freshAll? used (base :: rest) = some idents ↔
      ∃ ident given, fresh? used base = some ident ∧
        freshAll? (ident :: used) rest = some given ∧ idents = ident :: given := by
  rw [freshAll?_cons, Option.bind_eq_some_iff]
  refine exists_congr fun ident => ?_
  rw [Option.map_eq_some_iff, ← exists_and_left]
  exact exists_congr fun given => and_congr_right fun _ => and_congr_right fun _ => eq_comm

theorem length_freshAll? (h : freshAll? used bases = some idents) :
    idents.length = bases.length := by
  induction bases generalizing used idents with
  | nil => rw [← Option.some.inj h]
  | cons base rest ih =>
    obtain ⟨ident, given, -, hgiven, rfl⟩ := freshAll?_cons_eq_some_iff.mp h
    exact congrArg (· + 1) (ih hgiven)

theorem notMem_of_mem_freshAll? (h : freshAll? used bases = some idents)
    (hident : ident ∈ idents) : ident ∉ used := by
  induction bases generalizing used idents with
  | nil =>
    rw [← Option.some.inj h] at hident
    cases hident
  | cons base rest ih =>
    obtain ⟨first, given, hfirst, hgiven, rfl⟩ := freshAll?_cons_eq_some_iff.mp h
    rcases List.mem_cons.mp hident with rfl | hident
    · exact notMem_of_fresh? hfirst
    · exact fun hused => ih hgiven hident (List.mem_cons_of_mem _ hused)

theorem nodup_freshAll? (h : freshAll? used bases = some idents) : idents.Nodup := by
  induction bases generalizing used idents with
  | nil =>
    rw [← Option.some.inj h]
    exact List.nodup_nil
  | cons base rest ih =>
    obtain ⟨ident, given, -, hgiven, rfl⟩ := freshAll?_cons_eq_some_iff.mp h
    refine List.nodup_cons.mpr ⟨fun hmem => ?_, ih hgiven⟩
    exact notMem_of_mem_freshAll? hgiven hmem List.mem_cons_self

/-- When the turn of one comes, what is in use is what has been given so far. -/
theorem getElem?_freshAll? (h : freshAll? used bases = some idents) {i : Nat}
    (hbase : bases[i]? = some base) :
    ∃ ident, idents[i]? = some ident ∧
      fresh? ((idents.take i).reverse ++ used) base = some ident := by
  induction bases generalizing used idents i with
  | nil => cases hbase
  | cons first rest ih =>
    obtain ⟨ident, given, hident, hgiven, rfl⟩ := freshAll?_cons_eq_some_iff.mp h
    cases i with
    | zero =>
      obtain rfl := Option.some.inj hbase
      exact ⟨ident, rfl, hident⟩
    | succ i =>
      obtain ⟨later, hlater, hfresh⟩ := ih hgiven hbase
      have hused : ((ident :: given).take (i + 1)).reverse ++ used =
          (given.take i).reverse ++ ident :: used := by
        rw [List.take_succ_cons, List.reverse_cons, ← List.append_cons]
      exact ⟨later, hlater, hused ▸ hfresh⟩

/-- **Where new identifiers run out.** That is at the first one for which there is none besides what
has been given so far. -/
theorem freshAll?_eq_none_iff :
    freshAll? used bases = none ↔
      ∃ before base rest given, bases = before ++ base :: rest ∧
        freshAll? used before = some given ∧ fresh? (given.reverse ++ used) base = none := by
  induction bases generalizing used with
  | nil =>
    refine iff_of_false (fun h => by cases h) ?_
    rintro ⟨before, base, rest, given, hbases, -⟩
    exact List.append_ne_nil_of_right_ne_nil _ (List.cons_ne_nil _ _) hbases.symm
  | cons first others ih =>
    cases hfirst : fresh? used first with
    | none =>
      refine iff_of_true ?_ ⟨[], first, others, [], rfl, rfl, hfirst⟩
      rw [freshAll?_cons, hfirst, Option.bind_none]
    | some ident =>
      rw [freshAll?_cons, hfirst, Option.bind_some, Option.map_eq_none_iff, ih]
      constructor
      · rintro ⟨before, base, rest, given, rfl, hgiven, hnone⟩
        refine ⟨first :: before, base, rest, ident :: given, rfl,
          freshAll?_cons_eq_some_iff.mpr ⟨ident, given, hfirst, hgiven, rfl⟩, ?_⟩
        rwa [List.reverse_cons, ← List.append_cons]
      · rintro ⟨before, base, rest, given, hbases, hgiven, hnone⟩
        cases before with
        | nil =>
          -- the first one has been given an identifier
          obtain ⟨rfl, -⟩ := List.cons.inj hbases
          obtain rfl := Option.some.inj hgiven
          cases hfirst.symm.trans hnone
        | cons b before =>
          obtain ⟨rfl, rfl⟩ := List.cons.inj hbases
          obtain ⟨_, later, hident, hlater, rfl⟩ := freshAll?_cons_eq_some_iff.mp hgiven
          obtain rfl := Option.some.inj (hfirst.symm.trans hident)
          rw [List.reverse_cons, ← List.append_cons] at hnone
          exact ⟨before, base, rest, later, rfl, hlater, hnone⟩

theorem length_objectIdents? (h : objectIdents? d = some idents) :
    idents.length = d.objects.length := by
  rw [length_freshAll? h, List.length_map]

/-- **The identifiers of the objects of a dictionary are pairwise distinct.** -/
theorem nodup_objectIdents? (h : objectIdents? d = some idents) : idents.Nodup :=
  nodup_freshAll? h

/-- Every object gets the first candidate for its name that none of the objects before it was given.
-/
theorem getElem?_objectIdents? (h : objectIdents? d = some idents) {i : Nat} {o : Object}
    (ho : d.objects[i]? = some o) :
    ∃ k < candidateCount, idents[i]? = some (candidate (objectIdent o.name) k) ∧
      candidate (objectIdent o.name) k ∉ idents.take i ∧
      ∀ j < k, candidate (objectIdent o.name) j ∈ idents.take i := by
  have hbase : (d.objects.map fun o => objectIdent o.name)[i]? = some (objectIdent o.name) := by
    rw [List.getElem?_map, ho]
    rfl
  obtain ⟨ident, hident, hfresh⟩ := getElem?_freshAll? h hbase
  rw [List.append_nil, fresh?_eq_some_iff] at hfresh
  obtain ⟨k, hk, rfl, hfree, htaken⟩ := hfresh
  refine ⟨k, hk, hident, mt List.mem_reverse.mpr hfree, fun j hj => ?_⟩
  exact List.mem_reverse.mp (htaken j hj)

/-- **When a dictionary has no identifiers.** That is if all candidates for the name of some object
have been given to the objects before it. -/
theorem objectIdents?_eq_none_iff :
    objectIdents? d = none ↔
      ∃ before o rest given, d.objects = before ++ o :: rest ∧
        freshAll? [] (before.map fun o => objectIdent o.name) = some given ∧
        ∀ k < candidateCount, candidate (objectIdent o.name) k ∈ given := by
  have hrun_out : ∀ {given : List String} {base : String},
      fresh? (given.reverse ++ []) base = none ↔
        ∀ k < candidateCount, candidate base k ∈ given := by
    intro given base
    simp only [List.append_nil, fresh?_eq_none_iff, List.mem_reverse]
  rw [objectIdents?, freshAll?_eq_none_iff]
  constructor
  · rintro ⟨before, base, rest, given, hbases, hgiven, hnone⟩
    obtain ⟨before', after, hobjects, rfl, hafter⟩ := List.map_eq_append_iff.mp hbases
    obtain ⟨o, rest', rfl, rfl, -⟩ := List.map_eq_cons_iff.mp hafter
    exact ⟨before', o, rest', given, hobjects, hgiven, hrun_out.mp hnone⟩
  · rintro ⟨before, o, rest, given, hobjects, hgiven, hall⟩
    refine ⟨_, objectIdent o.name, rest.map fun o => objectIdent o.name, given, ?_, hgiven,
      hrun_out.mpr hall⟩
    rw [hobjects, List.map_append, List.map_cons]

/-- A dictionary with no more objects than there are candidates for a name has identifiers. -/
theorem exists_objectIdents? (h : d.objects.length ≤ candidateCount) :
    ∃ idents, objectIdents? d = some idents := by
  refine Option.ne_none_iff_exists'.mp fun hnone => ?_
  obtain ⟨before, o, rest, given, hobjects, hgiven, hall⟩ := objectIdents?_eq_none_iff.mp hnone
  have hcandidates := length_le_of_forall_mem hall
  rw [length_freshAll? hgiven, List.length_map] at hcandidates
  rw [hobjects, List.length_append, List.length_cons] at h
  omega

/-- **Identifiers of objects.** If there are fewer objects than the counter of numbers can hold,
there is one for each of them, in order, and all are different. That of an object is the first
candidate for its name that none of the objects before it was given, and so it comes after at most
as many others as there are such objects. It is the identifier of its name if none of the objects
before it was given that. -/
theorem objectIdents?_searched (d : Dictionary) (h : d.objects.length < 2 ^ 31 - 1) :
    ∃ idents, objectIdents? d = some idents ∧
      idents.length = d.objects.length ∧ idents.Nodup ∧
      ∀ (i : Nat) (o : Object), d.objects[i]? = some o →
        (∃ turns ≤ i, idents[i]? = some (candidate (objectIdent o.name) turns) ∧
          candidate (objectIdent o.name) turns ∉ idents.take i ∧
          ∀ j < turns, candidate (objectIdent o.name) j ∈ idents.take i) ∧
        (objectIdent o.name ∉ idents.take i → idents[i]? = some (objectIdent o.name)) := by
  have hroom : d.objects.length ≤ candidateCount := by
    unfold candidateCount
    omega
  obtain ⟨idents, hidents⟩ := exists_objectIdents? hroom
  refine ⟨idents, hidents, length_objectIdents? hidents, nodup_objectIdents? hidents,
    fun i o ho => ?_⟩
  obtain ⟨turns, -, hident, hfree, htaken⟩ := getElem?_objectIdents? hidents ho
  have hturns := length_le_of_forall_mem htaken
  rw [List.length_take] at hturns
  refine ⟨⟨turns, by omega, hident, hfree, htaken⟩, fun hown => ?_⟩
  cases turns with
  | zero => rwa [candidate_zero] at hident
  | succ turns =>
    have hbase := htaken 0 (Nat.succ_pos turns)
    rw [candidate_zero] at hbase
    exact absurd hbase hown

/-- Four names that give two identifiers, one of which is the other with a number added. -/
theorem ab_searched :
    let d : Dictionary :=
      { version := none, build := none, header := "", groups := []
        objects := [{ name := "A B" }, { name := "A:B" }, { name := "A_B_2" }, { name := "A-B" }] }
    d.objects.length < 2 ^ 31 - 1 ∧
      ∃ idents, objectIdents? d = some idents ∧
        idents = ["A_B", "A_B_2", "A_B_2_2", "A_B_3"] ∧ idents.Nodup := by
  intro d
  have hlength : d.objects.length < 2 ^ 31 - 1 := by decide
  have hfound : objectIdents? d = some ["A_B", "A_B_2", "A_B_2_2", "A_B_3"] := by decide +kernel
  obtain ⟨idents, hidents, -, hnodup, -⟩ := objectIdents?_searched d hlength
  exact ⟨hlength, idents, hidents, Option.some.inj (hidents.symm.trans hfound), hnodup⟩

/-- **When the numbers run out.** Objects that all want the same identifier get one each if and only
if there are no more of them than candidates. -/
theorem isSome_objectIdents?_iff (h : ∀ o ∈ d.objects, objectIdent o.name = base) :
    (objectIdents? d).isSome = true ↔ d.objects.length ≤ candidateCount := by
  constructor
  · intro hsome
    obtain ⟨idents, hidents⟩ := Option.isSome_iff_exists.mp hsome
    have hcandidates : idents ⊆ (List.range candidateCount).map (candidate base) := by
      intro ident hident
      obtain ⟨i, hi⟩ := List.mem_iff_getElem?.mp hident
      obtain ⟨hlt, -⟩ := List.getElem?_eq_some_iff.mp hi
      rw [length_objectIdents? hidents] at hlt
      have ho := List.getElem?_eq_getElem hlt
      obtain ⟨k, hk, hcandidate, -⟩ := getElem?_objectIdents? hidents ho
      rw [h _ (List.getElem_mem hlt)] at hcandidate
      rw [Option.some.inj (hi.symm.trans hcandidate)]
      exact List.mem_map_of_mem (List.mem_range.mpr hk)
    have hlength := (List.subperm_of_subset (nodup_objectIdents? hidents) hcandidates).length_le
    rwa [length_objectIdents? hidents, List.length_map, List.length_range] at hlength
  · exact fun hlength => Option.isSome_iff_exists.mpr (exists_objectIdents? hlength)

/-- One object more of a name than there are candidates for it, and the dictionary has none of the
identifiers, although the objects are fewer than `2 ^ 31`. -/
theorem crowd_without_idents :
    let d : Dictionary :=
      { version := none, build := none, header := "", groups := []
        objects := List.replicate (candidateCount + 1) { name := "Zone" } }
    d.objects.length < 2 ^ 31 ∧ objectIdents? d = none ∧
      ¬ ∀ d : Dictionary, d.objects.length < 2 ^ 31 → ∃ idents, objectIdents? d = some idents := by
  intro d
  have hlength : d.objects.length = candidateCount + 1 := List.length_replicate
  have hlt : d.objects.length < 2 ^ 31 := by
    rw [hlength]
    unfold candidateCount
    omega
  have hnames : ∀ o ∈ d.objects, objectIdent o.name = objectIdent "Zone" := by
    intro o ho
    rw [List.eq_of_mem_replicate ho]
  have hnone : objectIdents? d = none := by
    rw [← Option.not_isSome_iff_eq_none, isSome_objectIdents?_iff hnames, hlength]
    omega
  refine ⟨hlt, hnone, fun hall => ?_⟩
  obtain ⟨idents, hidents⟩ := hall d hlt
  cases hnone.symm.trans hidents

/-! ## Fields -/

theorem length_fieldIdentsFrom (used : List String) (fields : List Field) :
    (fieldIdentsFrom used fields).length = fields.length := by
  induction fields generalizing used with
  | nil => rfl
  | cons f rest ih => exact congrArg (· + 1) (ih _)

theorem length_fieldIdents (fields : List Field) : (fieldIdents fields).length = fields.length :=
  length_fieldIdentsFrom [] fields

/-- The identifier that a field gets behind those in use. -/
def identBehind (used : List String) (f : Field) : String :=
  if used.contains (fieldIdent f) then fieldIdent f ++ f.id.render else fieldIdent f

theorem fieldIdentsFrom_concat (used : List String) (fields : List Field) (f : Field) :
    fieldIdentsFrom used (fields ++ [f]) = fieldIdentsFrom used fields ++
      [identBehind (fieldIdentsFrom used fields ++ used) f] := by
  induction fields generalizing used with
  | nil => rfl
  | cons g rest ih =>
    let ident := identBehind used g
    let idents := fieldIdentsFrom (ident :: used) rest
    have hrest := ih (ident :: used)
    -- what is in use is the same, only in another order
    have hperm : (idents ++ ident :: used).Perm (ident :: idents ++ used) := List.perm_middle
    have hbehind : identBehind (idents ++ ident :: used) f =
        identBehind (ident :: idents ++ used) f := by
      rw [identBehind, identBehind, hperm.contains_eq]
    rw [hbehind] at hrest
    exact congrArg (ident :: ·) hrest

theorem fieldIdents_concat (fields : List Field) (f : Field) :
    fieldIdents (fields ++ [f]) = fieldIdents fields ++ [identBehind (fieldIdents fields) f] := by
  have hconcat := fieldIdentsFrom_concat [] fields f
  rwa [List.append_nil] at hconcat

/-- A field whose own identifier and the one with its number added are both in use in front of it.
-/
def FindsBothTaken (before : List Field) (f : Field) : Prop :=
  fieldIdent f ∈ fieldIdents before ∧ fieldIdent f ++ f.id.render ∈ fieldIdents before

theorem identBehind_mem_iff {before : List Field} {f : Field} :
    identBehind (fieldIdents before) f ∈ fieldIdents before ↔ FindsBothTaken before f := by
  unfold identBehind FindsBothTaken
  split
  next htaken => exact ⟨fun h => ⟨List.contains_iff_mem.mp htaken, h⟩, fun h => h.2⟩
  next hfree =>
    have hfree : fieldIdent f ∉ fieldIdents before :=
      fun h => hfree (List.contains_iff_mem.mpr h)
    exact ⟨fun h => absurd h hfree, fun h => absurd h.1 hfree⟩

/-- **The identifiers of fields are distinct unless a field finds both of its candidates taken.** -/
theorem nodup_fieldIdents_iff (fields : List Field) :
    (fieldIdents fields).Nodup ↔
      ∀ before f, before ++ [f] <+: fields → ¬ FindsBothTaken before f := by
  induction fields using List.reverseRecOn with
  | nil =>
    refine ⟨fun _ before f h => ?_, fun _ => List.nodup_nil⟩
    exact absurd (List.prefix_nil.mp h) (by simp)
  | append_singleton fields f ih =>
    rw [fieldIdents_concat, ← List.concat_eq_append, List.nodup_concat, identBehind_mem_iff, ih]
    refine ⟨fun ⟨hlast, hrest⟩ before g h => ?_, fun h => ⟨?_, fun before g hg => ?_⟩⟩
    · rcases List.prefix_concat_iff.mp h with h | h
      · obtain ⟨rfl, hg⟩ := List.append_inj' h rfl
        rw [List.cons.inj hg |>.1]
        exact hlast
      · exact hrest before g h
    · exact h fields f (List.prefix_refl _)
    · exact h before g (hg.trans (List.prefix_append _ _))

/-- An identifier of a field is its own or has its number added. -/
theorem exists_of_mem_fieldIdents {fields : List Field} {ident : String}
    (h : ident ∈ fieldIdents fields) :
    ∃ f ∈ fields, ident = fieldIdent f ∨ ident = fieldIdent f ++ f.id.render := by
  induction fields using List.reverseRecOn with
  | nil => cases h
  | append_singleton fields f ih =>
    rw [fieldIdents_concat] at h
    rcases List.mem_append.mp h with h | h
    · obtain ⟨g, hg, hident⟩ := ih h
      exact ⟨g, List.mem_append_left _ hg, hident⟩
    · refine ⟨f, List.mem_append_right _ List.mem_cons_self, ?_⟩
      rw [List.mem_singleton.mp h, identBehind]
      split
      · exact .inr rfl
      · exact .inl rfl

/-- Fields of different numbers whose names do not look like one another's with a number added have
distinct identifiers. -/
theorem nodup_fieldIdents {fields : List Field} (hids : (fields.map (·.id)).Nodup)
    (hnames : ∀ f ∈ fields, ∀ g ∈ fields, fieldIdent g ≠ fieldIdent f ++ f.id.render) :
    (fieldIdents fields).Nodup := by
  refine (nodup_fieldIdents_iff fields).mpr fun before f hstands ⟨_, hnumbered⟩ => ?_
  have hf : f ∈ fields := hstands.subset (List.mem_append_right _ List.mem_cons_self)
  obtain ⟨g, hg, hident⟩ := exists_of_mem_fieldIdents hnumbered
  rcases hident with hident | hident
  · exact hnames f hf g (hstands.subset (List.mem_append_left _ hg)) hident.symm
  · -- the number that was added is that of the field, which stands behind the other one
    have hsame : f.id = g.id := FieldId.eq_of_append_render hident
    have hdistinct := (hstands.map (·.id)).sublist.nodup hids
    rw [List.map_append, List.map_singleton, List.nodup_append] at hdistinct
    exact hdistinct.2.2 g.id (List.mem_map_of_mem hg) f.id (List.mem_singleton.mpr rfl) hsame.symm

end Bindings

end DataDictionary
