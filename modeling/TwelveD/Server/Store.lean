/-!
# Documents

The store holds the current text of every document under the name that the client gave it.
-/

namespace TwelveD

/-- A document. -/
structure Document where
  text : String
  /-- The client's number for this state of the document. -/
  version : Int
  deriving DecidableEq, Repr

/-- Documents by name. -/
structure Store where
  entries : List (String × Document)
  deriving DecidableEq, Repr

namespace Store

/-- The store without documents. -/
def empty : Store := ⟨[]⟩

/-- Whether there is no document. -/
def isEmpty (s : Store) : Bool := s.entries.isEmpty

/-- The document with a given name. -/
def get? (s : Store) (uri : String) : Option Document :=
  (s.entries.find? fun entry => entry.1 == uri).map Prod.snd

/-- Puts a document into a list of documents, in place of one with the same name. -/
def putEntry (uri : String) (d : Document) : List (String × Document) → List (String × Document)
  | [] => [(uri, d)]
  | (u, e) :: rest => if uri = u then (uri, d) :: rest else (u, e) :: putEntry uri d rest

/-- Puts a document into the store, in place of one with the same name. -/
def put (s : Store) (uri : String) (d : Document) : Store := ⟨putEntry uri d s.entries⟩

/-- A name leads to what was put last under it. -/
theorem get?_put (s : Store) (uri u : String) (d : Document) :
    (s.put uri d).get? u = if u = uri then some d else s.get? u := by
  unfold get? put
  induction s.entries with
  | nil => by_cases h : u = uri <;> simp [putEntry, h, Ne.symm]
  | cons entry rest ih =>
    obtain ⟨v, e⟩ := entry
    simp only at ih
    by_cases hv : uri = v
    · by_cases h : u = v
      · simp [putEntry, hv, h]
      · simp [putEntry, hv, h, Ne.symm h]
    · by_cases h : v = u
      · subst h
        simp [putEntry, hv, Ne.symm hv]
      · simpa [putEntry, List.find?_cons, hv, h] using ih

end Store

end TwelveD
