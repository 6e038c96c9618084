import DataDictionary.Store.Request
import Mathlib.Data.List.Induction
import Mathlib.Data.List.Nodup

/-!
# The history of a shelf

What is on a shelf can be told from the requests that it has answered, without looking at the shelf.
A name is **asked for since** it was last taken off if no later request takes it off
(`Request.AsksSince`). Of the requests that ask for a name since then, the first one that the
sources of its time could satisfy put the outcome there (`PutBy`): the ones before it failed, and
the ones behind it were given what it had left.

`get?_eq_some_iff` says so. From right to left, what has been put on the shelf stays as long as no
request drops it. From left to right the induction is on the history, one request at a time
(`Explains.concat`); it has to say at once what is on the shelf and why nothing is, since only the
second tells that a request is the first to succeed.

The number of an entry is the number of outcomes that were put on the shelf before it. It grows with
each of them, so no two entries have the same one (`PutBy.unique`).
-/

namespace DataDictionary

namespace Request

/-- Whether a request takes the outcome of a name off the shelf. -/
def Drops (name : String) : Request → Prop
  | .invalidate other => other = name
  | .clear => True
  | _ => False

/-- What a request does to the sources. -/
def edit : Request → Sources → Sources
  | .insert name text, sources => sources.insert name text
  | .erase name, sources => sources.erase name
  | _, sources => sources

/-- The requests `before` are followed by one for `name`, and none of those `after` it takes the
name off the shelf. -/
structure AsksSince (name : String) (history before after : List Request) : Prop where
  split : history = before ++ .getOrLoad name :: after
  kept : ∀ request ∈ after, ¬ request.Drops name

variable {name : String} {history before after : List Request} {request : Request}

theorem asksSince_nil : ¬ AsksSince name [] before after := by
  intro h
  have hsplit := h.split
  simp at hsplit

/-- The last request of a history either is the one that asks or comes behind it. -/
theorem asksSince_concat (h : AsksSince name (history ++ [request]) before after) :
    (request = .getOrLoad name ∧ before = history ∧ after = []) ∨
    ∃ after', after = after' ++ [request] ∧ AsksSince name history before after' ∧
      ¬ request.Drops name := by
  obtain ⟨hsplit, hkept⟩ := h
  cases after using List.reverseRecOn with
  | nil =>
    obtain ⟨hhistory, hrequest⟩ := List.append_inj' hsplit rfl
    exact .inl ⟨(List.cons.inj hrequest).1, hhistory.symm, rfl⟩
  | append_singleton after last _ =>
    rw [← List.cons_append, ← List.append_assoc] at hsplit
    obtain ⟨hhistory, hlast⟩ := List.append_inj' hsplit rfl
    obtain rfl : request = last := (List.cons.inj hlast).1
    refine .inr ⟨after, rfl, ⟨hhistory, fun r hr => hkept r (List.mem_append_left _ hr)⟩, ?_⟩
    exact hkept request (by simp)

theorem AsksSince.concat (h : AsksSince name history before after)
    (hrequest : ¬ request.Drops name) :
    AsksSince name (history ++ [request]) before (after ++ [request]) := by
  refine ⟨by rw [h.split, List.append_assoc, List.cons_append], fun r hr => ?_⟩
  rcases List.mem_append.mp hr with hr | hr
  · exact h.kept r hr
  · rwa [List.mem_singleton.mp hr]

end Request

/-- The sources as requests leave them. -/
def Sources.after (sources : Sources) (history : List Request) : Sources :=
  history.foldl (fun sources request => request.edit sources) sources

namespace Shelf

variable {s : Shelf} {name : String} {e : Entry} {request : Request}

/-! ## One request -/

/-- What reading a name gives, with the sources as they are. -/
def read (s : Shelf) (name : String) : Except SourceFault Outcome :=
  Outcome.load s.settings (some s.sources.loader) name

/-- **The three ways in which a name that is asked for can be had or not.** -/
theorem getOrLoad_cases (s : Shelf) (name : String) :
    (∃ e, s.get? name = some e ∧ s.getOrLoad name = (.ok e, s)) ∨
    (∃ fault, s.get? name = none ∧ s.read name = .error fault ∧
      s.getOrLoad name = (.error fault, s)) ∨
    ∃ outcome, s.get? name = none ∧ s.read name = .ok outcome ∧
      s.getOrLoad name =
        (.ok ⟨s.next, outcome⟩,
         { s with entries := s.entries.insert name ⟨s.next, outcome⟩, next := s.next + 1 }) := by
  unfold getOrLoad read
  cases hget : s.get? name with
  | some e => exact .inl ⟨e, rfl, rfl⟩
  | none =>
    cases hread : Outcome.load s.settings (some s.sources.loader) name with
    | error fault => exact .inr (.inl ⟨fault, rfl, rfl, rfl⟩)
    | ok outcome => exact .inr (.inr ⟨outcome, rfl, rfl, rfl⟩)

theorem getOrLoad_of_get? (h : s.get? name = some e) : s.getOrLoad name = (.ok e, s) := by
  rw [getOrLoad, h]

theorem getOrLoad_of_read {outcome : Outcome} (h : s.get? name = none)
    (hread : s.read name = .ok outcome) : (s.getOrLoad name).1 = .ok ⟨s.next, outcome⟩ := by
  rcases s.getOrLoad_cases name with ⟨e, he, -⟩ | ⟨fault, -, hfault, -⟩ | ⟨other, -, hother, heq⟩
  · rw [h] at he
    cases he
  · rw [hread] at hfault
    cases hfault
  · rw [hread] at hother
    cases hother
    rw [heq]

/-- What was given out for a name is on the shelf afterwards. -/
theorem get?_of_getOrLoad (h : (s.getOrLoad name).1 = .ok e) :
    (s.getOrLoad name).2.get? name = some e := by
  rcases s.getOrLoad_cases name with ⟨e', he, heq⟩ | ⟨fault, -, -, heq⟩ | ⟨outcome, -, -, heq⟩
  · rw [heq] at h ⊢
    cases h
    exact he
  · rw [heq] at h
    cases h
  · rw [heq] at h ⊢
    cases h
    simp [get?]

/-- Asking for one name does nothing to the others. -/
theorem get?_getOrLoad_of_ne {other : String} (h : other ≠ name) (s : Shelf) :
    (s.getOrLoad other).2.get? name = s.get? name := by
  rcases s.getOrLoad_cases other with ⟨e, -, heq⟩ | ⟨fault, -, -, heq⟩ | ⟨outcome, -, -, heq⟩
  · rw [heq]
  · rw [heq]
  · rw [heq]
    simp [get?, Std.HashMap.getElem?_insert, h]

/-- What fails leaves the shelf and the sources as they were. -/
theorem getOrLoad_of_error {fault : SourceFault} (h : (s.getOrLoad name).1 = .error fault) :
    s.getOrLoad name = (.error fault, s) := by
  rcases s.getOrLoad_cases name with ⟨e, -, heq⟩ | ⟨other, -, -, heq⟩ | ⟨outcome, -, -, heq⟩
  · rw [heq] at h
    cases h
  · rw [heq] at h ⊢
    cases h
    rfl
  · rw [heq] at h
    cases h

theorem getOrLoad_frame (s : Shelf) (name : String) :
    (s.getOrLoad name).2.sources = s.sources ∧ (s.getOrLoad name).2.settings = s.settings ∧
      s.next ≤ (s.getOrLoad name).2.next := by
  rcases s.getOrLoad_cases name with ⟨e, -, heq⟩ | ⟨fault, -, -, heq⟩ | ⟨outcome, -, -, heq⟩
  · rw [heq]
    exact ⟨rfl, rfl, Nat.le_refl _⟩
  · rw [heq]
    exact ⟨rfl, rfl, Nat.le_refl _⟩
  · rw [heq]
    exact ⟨rfl, rfl, Nat.le_succ _⟩

/-- **What a request leaves alone.** The sources change by their edits, the settings never, and
numbers are only ever used up. -/
theorem perform_frame (s : Shelf) (request : Request) :
    (s.perform request).2.sources = request.edit s.sources ∧
      (s.perform request).2.settings = s.settings ∧ s.next ≤ (s.perform request).2.next := by
  cases request with
  | getOrLoad name => exact s.getOrLoad_frame name
  | get name | contains name | invalidate name | clear | insert name text | erase name =>
    exact ⟨rfl, rfl, Nat.le_refl _⟩

theorem get?_perform_of_drops (h : request.Drops name) (s : Shelf) :
    (s.perform request).2.get? name = none := by
  cases request with
  | invalidate other =>
    obtain rfl : other = name := h
    simp [perform, invalidate, get?]
  | clear => simp [perform, clear, get?]
  | get _ | getOrLoad _ | contains _ | insert _ _ | erase _ => cases h

/-- **Only requests for a name and requests that drop it matter to what is there under it.** -/
theorem get?_perform_of_other (hdrops : ¬ request.Drops name) (hasks : request ≠ .getOrLoad name)
    (s : Shelf) : (s.perform request).2.get? name = s.get? name := by
  cases request with
  | getOrLoad other =>
    refine get?_getOrLoad_of_ne (fun h => ?_) s
    exact hasks (by rw [h])
  | invalidate other =>
    have hne : other ≠ name := hdrops
    simp [perform, invalidate, get?, Std.HashMap.getElem?_erase, hne]
  | clear => exact absurd trivial hdrops
  | get _ | contains _ | insert _ _ | erase _ => rfl

/-- What is on the shelf stays there until it is dropped. -/
theorem get?_perform_of_some (h : s.get? name = some e) (hdrops : ¬ request.Drops name) :
    (s.perform request).2.get? name = some e := by
  by_cases hasks : request = .getOrLoad name
  · rw [hasks]
    show (s.getOrLoad name).2.get? name = some e
    rw [getOrLoad_of_get? h]
    exact h
  · rw [get?_perform_of_other hdrops hasks, h]

/-! ## Any number of requests -/

theorem after_append (s : Shelf) (history more : List Request) :
    s.after (history ++ more) = (s.after history).after more :=
  List.foldl_append

theorem after_cons (s : Shelf) (request : Request) (rest : List Request) :
    s.after (request :: rest) = (s.perform request).2.after rest :=
  rfl

theorem after_concat (s : Shelf) (history : List Request) (request : Request) :
    s.after (history ++ [request]) = ((s.after history).perform request).2 :=
  s.after_append history [request]

theorem after_frame (s : Shelf) (history : List Request) :
    (s.after history).sources = s.sources.after history ∧
      (s.after history).settings = s.settings ∧ s.next ≤ (s.after history).next := by
  induction history generalizing s with
  | nil => exact ⟨rfl, rfl, Nat.le_refl _⟩
  | cons request rest ih =>
    obtain ⟨hsources, hsettings, hnext⟩ := s.perform_frame request
    obtain ⟨ihsources, ihsettings, ihnext⟩ := ih (s.perform request).2
    refine ⟨?_, ihsettings.trans hsettings, Nat.le_trans hnext ihnext⟩
    rw [hsources] at ihsources
    exact ihsources

theorem get?_after_of_some {more : List Request} (h : s.get? name = some e)
    (hkept : ∀ request ∈ more, ¬ request.Drops name) : (s.after more).get? name = some e := by
  induction more generalizing s with
  | nil => exact h
  | cons request rest ih =>
    have hfirst := get?_perform_of_some h (hkept request List.mem_cons_self)
    exact ih hfirst fun r hr => hkept r (List.mem_cons_of_mem _ hr)

/-- Reading a name in the middle of a history depends on the sources of that time alone. -/
theorem read_after (s : Shelf) (history : List Request) (name : String) :
    (s.after history).read name =
      Outcome.load s.settings (some (s.sources.after history).loader) name := by
  obtain ⟨hsources, hsettings, -⟩ := s.after_frame history
  rw [read, hsources, hsettings]

/-! ## Which request an entry comes from -/

open Request (AsksSince)

/-- An entry was put on the shelf behind the requests `before`: by the first request for its name,
since this was last taken off, that could be satisfied. -/
structure PutBy (start : Shelf) (name : String) (history before after : List Request) (e : Entry) :
    Prop extends AsksSince name history before after where
  /-- The outcome is what the sources of that time gave. -/
  loads : Outcome.load start.settings (some (start.sources.after before).loader) name =
    .ok e.outcome
  /-- Earlier requests since then had failed. -/
  first : ∀ earlier between, AsksSince name before earlier between →
    ∃ fault, Outcome.load start.settings (some (start.sources.after earlier).loader) name =
      .error fault
  serial : e.serial = (start.after before).next

variable {start : Shelf} {history before after : List Request}

theorem PutBy.concat (h : start.PutBy name history before after e)
    (hrequest : ¬ request.Drops name) :
    start.PutBy name (history ++ [request]) before (after ++ [request]) e :=
  ⟨h.toAsksSince.concat hrequest, h.loads, h.first, h.serial⟩

/-- A history accounts for what is on the shelf under a name, and for why nothing is. -/
structure Explains (start : Shelf) (name : String) (history : List Request) : Prop where
  put : ∀ e, (start.after history).get? name = some e →
    ∃ before after, start.PutBy name history before after e
  failed : (start.after history).get? name = none →
    ∀ before after, AsksSince name history before after →
      ∃ fault, Outcome.load start.settings (some (start.sources.after before).loader) name =
        .error fault

theorem explains_nil (hstart : start.entries = {}) (name : String) : start.Explains name [] := by
  have hempty : (start.after []).get? name = none := by simp [Shelf.after, get?, hstart]
  refine ⟨fun e he => ?_, fun _ before after h => absurd h Request.asksSince_nil⟩
  rw [hempty] at he
  cases he

/-- Behind a request that drops the name, it is gone and nothing has asked for it. -/
theorem explains_of_drops (hdrops : request.Drops name) :
    start.Explains name (history ++ [request]) := by
  have hgone := get?_perform_of_drops hdrops (start.after history)
  rw [← after_concat] at hgone
  refine ⟨fun e he => ?_, fun _ before after h => ?_⟩
  · rw [hgone] at he
    cases he
  · rcases Request.asksSince_concat h with ⟨rfl, -, -⟩ | ⟨after', -, -, hnot⟩
    · cases hdrops
    · exact absurd hdrops hnot

/-- What is there stays, and where nothing is the request does not ask for the name. -/
theorem Explains.of_kept (h : start.Explains name history) (hdrops : ¬ request.Drops name)
    (hsame : (start.after (history ++ [request])).get? name = (start.after history).get? name)
    (hasks : (start.after history).get? name = none → request ≠ .getOrLoad name) :
    start.Explains name (history ++ [request]) := by
  refine ⟨fun e he => ?_, fun hnone before after hbefore => ?_⟩
  · rw [hsame] at he
    obtain ⟨before, after, hput⟩ := h.put e he
    exact ⟨before, _, hput.concat hdrops⟩
  · rw [hsame] at hnone
    rcases Request.asksSince_concat hbefore with ⟨hasked, -, -⟩ | ⟨after', -, hbefore, -⟩
    · exact absurd hasked (hasks hnone)
    · exact h.failed hnone before after' hbefore

/-- A request that fails is one more of those that did. -/
theorem Explains.of_error {fault : SourceFault} (h : start.Explains name history)
    (hget : (start.after history).get? name = none)
    (hread : (start.after history).read name = .error fault)
    (heq : (start.after history).getOrLoad name = (.error fault, start.after history)) :
    start.Explains name (history ++ [.getOrLoad name]) := by
  have hsame : start.after (history ++ [.getOrLoad name]) = start.after history := by
    rw [after_concat, perform, heq]
  rw [read_after] at hread
  refine ⟨fun e he => ?_, fun _ before after hbefore => ?_⟩
  · rw [hsame, hget] at he
    cases he
  · rcases Request.asksSince_concat hbefore with ⟨-, rfl, -⟩ | ⟨after', -, hbefore, -⟩
    · exact ⟨fault, hread⟩
    · exact h.failed hget before after' hbefore

/-- A request that succeeds where nothing is there is the first to do so. -/
theorem Explains.of_ok {outcome : Outcome} (h : start.Explains name history)
    (hget : (start.after history).get? name = none)
    (hread : (start.after history).read name = .ok outcome) :
    start.Explains name (history ++ [.getOrLoad name]) := by
  have hnew : (start.after (history ++ [.getOrLoad name])).get? name =
      some ⟨(start.after history).next, outcome⟩ := by
    rw [after_concat]
    exact get?_of_getOrLoad (getOrLoad_of_read hget hread)
  rw [read_after] at hread
  refine ⟨fun e he => ?_, fun hnone => ?_⟩
  · rw [hnew] at he
    cases he
    exact ⟨history, [], ⟨rfl, fun r hr => absurd hr List.not_mem_nil⟩, hread, h.failed hget, rfl⟩
  · rw [hnew] at hnone
    cases hnone

/-- **One request more is accounted for.** -/
theorem Explains.concat (h : start.Explains name history) (request : Request) :
    start.Explains name (history ++ [request]) := by
  by_cases hdrops : request.Drops name
  · exact explains_of_drops hdrops
  by_cases hasks : request = .getOrLoad name
  · subst hasks
    rcases (start.after history).getOrLoad_cases name with
      ⟨e, hget, heq⟩ | ⟨fault, hget, hread, heq⟩ | ⟨outcome, hget, hread, -⟩
    · refine h.of_kept hdrops ?_ fun hnone => ?_
      · rw [after_concat, perform, heq]
      · rw [hget] at hnone
        cases hnone
    · exact h.of_error hget hread heq
    · exact h.of_ok hget hread
  · refine h.of_kept hdrops ?_ fun _ => hasks
    rw [after_concat, get?_perform_of_other hdrops hasks]

/-- **Any history explains what is on the shelf, and why nothing is.** -/
theorem explains (hstart : start.entries = {}) (name : String) (history : List Request) :
    start.Explains name history := by
  induction history using List.reverseRecOn with
  | nil => exact explains_nil hstart name
  | append_singleton history request ih => exact ih.concat request

/-- When an entry is put on the shelf, there is none of its name. -/
theorem PutBy.get?_before (hstart : start.entries = {})
    (h : start.PutBy name history before after e) : (start.after before).get? name = none := by
  cases hget : (start.after before).get? name with
  | none => rfl
  | some e' =>
    obtain ⟨earlier, between, hput⟩ := (explains hstart name before).put e' hget
    obtain ⟨fault, hfault⟩ := h.first earlier between hput.toAsksSince
    rw [hput.loads] at hfault
    cases hfault

/-- The request that puts an entry on the shelf is given that entry. -/
theorem PutBy.getOrLoad (hstart : start.entries = {})
    (h : start.PutBy name history before after e) :
    ((start.after before).getOrLoad name).1 = .ok e := by
  have hread := h.loads
  rw [← read_after] at hread
  rw [getOrLoad_of_read (h.get?_before hstart) hread, ← h.serial]

/-- What a request was given is there as long as nothing has dropped it. -/
theorem get?_of_asksSince (h : AsksSince name history before after)
    (hloaded : ((start.after before).getOrLoad name).1 = .ok e) :
    (start.after history).get? name = some e := by
  rw [h.split, after_append, after_cons]
  exact get?_after_of_some (get?_of_getOrLoad hloaded) h.kept

/-- **What is on a shelf, by its history.** -/
theorem get?_eq_some_iff (hstart : start.entries = {}) :
    (start.after history).get? name = some e ↔
      ∃ before after, start.PutBy name history before after e := by
  constructor
  · exact (explains hstart name history).put e
  · rintro ⟨before, after, h⟩
    exact get?_of_asksSince h.toAsksSince (h.getOrLoad hstart)

/-! ## Numbers -/

/-- An entry uses its number up. -/
theorem PutBy.serial_lt (hstart : start.entries = {})
    (h : start.PutBy name history before after e) (more : List Request) :
    e.serial < (start.after (before ++ .getOrLoad name :: more)).next := by
  have hnext : ((start.after before).perform (.getOrLoad name)).2.next = e.serial + 1 := by
    show ((start.after before).getOrLoad name).2.next = e.serial + 1
    rcases (start.after before).getOrLoad_cases name with
      ⟨e', hget, -⟩ | ⟨fault, -, -, heq⟩ | ⟨outcome, -, -, heq⟩
    · rw [h.get?_before hstart] at hget
      cases hget
    · have hgiven := h.getOrLoad hstart
      rw [heq] at hgiven
      cases hgiven
    · rw [heq, h.serial]
  have hle := (((start.after before).perform (.getOrLoad name)).2.after_frame more).2.2
  rw [after_append, after_cons]
  omega

/-- One request puts one entry on the shelf. -/
theorem PutBy.entry_eq {history' after' : List Request} {e' : Entry}
    (h : start.PutBy name history before after e)
    (h' : start.PutBy name history' before after' e') : e' = e := by
  have houtcome : e'.outcome = e.outcome := Except.ok.inj (h'.loads.symm.trans h.loads)
  have hserial : e'.serial = e.serial := h'.serial.trans h.serial.symm
  cases e
  cases e'
  cases houtcome
  cases hserial
  rfl

/-- **The same number means the same entry**, which has been on the shelf all the time. -/
theorem PutBy.unique {name' : String} {more before' after' : List Request} {e' : Entry}
    (hstart : start.entries = {}) (h : start.PutBy name history before after e)
    (h' : start.PutBy name' (history ++ more) before' after' e') (hserial : e'.serial = e.serial) :
    name' = name ∧ e' = e ∧ ∀ request ∈ more, ¬ request.Drops name := by
  have hsplit := h'.split
  rw [h.split, List.append_assoc, List.cons_append] at hsplit
  -- the request that comes first has used its number up before the other one
  have hbefore : before' = before := by
    rcases List.append_eq_append_iff.mp hsplit with ⟨mid, rfl, hmid⟩ | ⟨mid, rfl, hmid⟩
    · cases mid with
      | nil => exact List.append_nil _
      | cons request mid =>
        obtain rfl : .getOrLoad name = request := (List.cons.inj hmid).1
        have hlt := h.serial_lt hstart mid
        rw [← h'.serial] at hlt
        omega
    · cases mid with
      | nil => exact (List.append_nil _).symm
      | cons request mid =>
        obtain rfl : .getOrLoad name' = request := (List.cons.inj hmid).1
        have hlt := h'.serial_lt hstart mid
        rw [← h.serial] at hlt
        omega
  subst hbefore
  obtain ⟨hrequest, hafter⟩ := List.cons.inj (List.append_cancel_left hsplit)
  obtain rfl : name = name' := Request.getOrLoad.inj hrequest
  refine ⟨rfl, h.entry_eq h', fun request hr => h'.kept request ?_⟩
  rw [← hafter]
  exact List.mem_append_right _ hr

/-! ## A shelf as a map that is filled once -/

/-- A shelf is as large as there are names on it. -/
theorem size_eq_length {names : List String} (hnodup : names.Nodup)
    (h : ∀ name, name ∈ names ↔ (s.get? name).isSome) : s.size = names.length := by
  have hperm : s.entries.keys.Perm names := by
    refine (List.perm_ext_iff_of_nodup Std.HashMap.nodup_keys hnodup).mpr fun name => ?_
    rw [h name, Std.HashMap.mem_keys, get?, Std.HashMap.isSome_getElem?_iff_mem]
  rw [size, ← Std.HashMap.length_keys, hperm.length_eq]

theorem contains_eq_isSome (s : Shelf) (name : String) :
    s.contains name = (s.get? name).isSome :=
  Std.HashMap.contains_eq_isSome_getElem?

/-- **A shelf loads once.** Whatever has been asked of a new shelf and of its sources, a name is on
it exactly if some request for it has succeeded since it was last taken off. What is there under the
name is what reading it gave with the sources of the time when it was put there, and every request
for it is given that very entry until it is taken off. What fails changes nothing, and a shelf is as
large as there are names on it. -/
theorem loads_once (sources : Sources) (settings : Settings) (history : List Request) :
    let start : Shelf := { sources, settings }
    let s := start.after history
    s.sources = sources.after history ∧
    (∀ name,
      ((s.get? name).isSome ↔ ∃ before after e, AsksSince name history before after ∧
        ((start.after before).perform (.getOrLoad name)).1 = .loaded (.ok e)) ∧
      s.perform (.contains name) = (.truth (s.get? name).isSome, s) ∧
      (∀ e, s.get? name = some e ↔ ∃ before after, start.PutBy name history before after e) ∧
      (∀ e, s.get? name = some e → ∀ more : List Request,
        ((∀ request ∈ more, ¬ request.Drops name) →
          (s.after more).perform (.get name) = (.found (some e), s.after more) ∧
          (s.after more).perform (.getOrLoad name) = (.loaded (.ok e), s.after more)) ∧
        ∀ name' e', (s.after more).get? name' = some e' → e'.serial = e.serial →
          name' = name ∧ e' = e ∧ ∀ request ∈ more, ¬ request.Drops name) ∧
      ∀ fault, (s.perform (.getOrLoad name)).1 = .loaded (.error fault) →
        (s.perform (.getOrLoad name)).2 = s) ∧
    ∀ names : List String, names.Nodup → (∀ name, name ∈ names ↔ (s.get? name).isSome) →
      s.size = names.length := by
  intro start s
  have hstart : start.entries = {} := rfl
  refine ⟨(start.after_frame history).1, fun name => ⟨?_, ?_, ?_, ?_, ?_⟩,
    fun names hnodup h => size_eq_length hnodup h⟩
  · constructor
    · intro hpresent
      obtain ⟨e, he⟩ := Option.isSome_iff_exists.mp hpresent
      obtain ⟨before, after, h⟩ := (get?_eq_some_iff hstart).mp he
      exact ⟨before, after, e, h.toAsksSince, congrArg Reply.loaded (h.getOrLoad hstart)⟩
    · rintro ⟨before, after, e, hasks, hloaded⟩
      have hget := get?_of_asksSince hasks (Reply.loaded.inj hloaded)
      exact Option.isSome_iff_exists.mpr ⟨e, hget⟩
  · rw [← contains_eq_isSome]
    rfl
  · exact fun e => get?_eq_some_iff hstart
  · intro e he more
    refine ⟨fun hkept => ?_, fun name' e' he' hserial => ?_⟩
    · have hlater := get?_after_of_some he hkept
      refine ⟨?_, ?_⟩
      · rw [perform, hlater]
      · rw [perform, getOrLoad_of_get? hlater]
    · rw [← after_append] at he'
      obtain ⟨_, _, h⟩ := (get?_eq_some_iff hstart).mp he
      obtain ⟨_, _, h'⟩ := (get?_eq_some_iff hstart).mp he'
      exact h.unique hstart h' hserial
  · intro fault hfault
    exact congrArg Prod.snd (getOrLoad_of_error (Reply.loaded.inj hfault))

end Shelf

end DataDictionary
