import DataDictionary.Store.Shelf

/-!
# Requests

Everything that is done with a shelf and with the sources behind it is a request, and every request
gets a reply. So the life of a shelf is the list of the requests that it has answered, and what it
is like at any time is what they have made of it.
-/

namespace DataDictionary

/-- A request to a shelf or to the sources behind it. -/
inductive Request where
  /-- For the outcome of a name, if it is on the shelf. -/
  | get (name : String)
  /-- For the outcome of a name, which is read if it is not on the shelf. -/
  | getOrLoad (name : String)
  | contains (name : String)
  /-- To take the outcome of a name off the shelf. -/
  | invalidate (name : String)
  /-- To take everything off the shelf. -/
  | clear
  /-- To give a source its text. -/
  | insert (name text : String)
  /-- To take a source away. -/
  | erase (name : String)

/-- What is said to a request. -/
inductive Reply where
  | done
  | truth (b : Bool)
  /-- The text that a source had. -/
  | text (found : Option String)
  | found (entry : Option Shelf.Entry)
  | loaded (entry : Except SourceFault Shelf.Entry)

namespace Shelf

/-- Answers a request. -/
def perform (s : Shelf) : Request → Reply × Shelf
  | .get name => (.found (s.get? name), s)
  | .getOrLoad name =>
    let (entry, s) := s.getOrLoad name
    (.loaded entry, s)
  | .contains name => (.truth (s.contains name), s)
  | .invalidate name => (.truth (s.contains name), s.invalidate name)
  | .clear => (.done, s.clear)
  | .insert name text => (.done, s.withSources (s.sources.insert name text))
  | .erase name => (.text (s.sources.get? name), s.withSources (s.sources.erase name))

/-- What requests make of a shelf, one after the other. -/
def after (s : Shelf) (history : List Request) : Shelf :=
  history.foldl (fun s request => (s.perform request).2) s

end Shelf

end DataDictionary
