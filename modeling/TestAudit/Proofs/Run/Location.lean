import TestAudit.Run.Results

namespace TestAudit.Results

/-!
# Locations as paths

A location leads from a document to a value, step by step. Its text can be read back as
long as no name in it has a character that separates steps, so the text alone is enough to
find the value again.
-/

/-- The value that a step leads to. -/
def Step.follow? : Step → Json.Value → Option Json.Value
  | .member name, .object members => members.lookup name
  | .item index, .array items => items[index]?
  | _, _ => none

/-- A member that is not null stands in its object. -/
theorem Step.follow?_member
    {value : Json.Value}
    {name : Text}
    (present : value.member name ≠ .null) :
    (Step.member name).follow? value = some (value.member name) := by
  cases value with
  | object members =>
      rw [Json.Value.member] at present ⊢
      cases found : members.lookup name with
      | none => simp [found] at present
      | some value => simp [Step.follow?, found]
  | _ => exact (present rfl).elim

namespace Location

/-- The value that a location leads to in a document. -/
def follow? (document : Json.Value) : Location → Option Json.Value
  | [] => some document
  | step :: outer => (follow? document outer).bind step.follow?

/-! ## Reading the text of a location -/

/-- Whether a character may stand in a name on a path. -/
def isNameChar (c : Char) : Bool :=
  c != '.' && c != '['

/-- What a path is read up to: a name, an index in brackets, or a bracket that closed one. -/
inductive Reading where
  /-- In a name, whose last character so far is the first one. -/
  | name (soFar : Text)
  /-- In an index, whose last digit so far is the first one. -/
  | index (soFar : Text)
  | closed
  deriving Repr, DecidableEq

/-- The location that the rest of a path leads to, behind the steps already read. -/
def readFrom (outer : Location) : Reading → Text → Option Location
  | .name soFar, [] => some (outer.member soFar.reverse)
  | .index _, [] => none
  | .closed, [] => some outer
  | .name soFar, '.' :: rest => readFrom (outer.member soFar.reverse) (.name []) rest
  | .name soFar, '[' :: rest => readFrom (outer.member soFar.reverse) (.index []) rest
  | .name soFar, c :: rest => readFrom outer (.name (c :: soFar)) rest
  | .index soFar, ']' :: rest =>
      readFrom (outer.item (Nat.ofDigitChars 10 soFar.reverse 0)) .closed rest
  | .index soFar, c :: rest =>
      if c.isDigit then readFrom outer (.index (c :: soFar)) rest else none
  | .closed, '.' :: rest => readFrom outer (.name []) rest
  | .closed, '[' :: rest => readFrom outer (.index []) rest
  | .closed, _ :: _ => none

/-- The location that a text describes as a path, if it does. -/
def ofText? (text : Text) : Option Location :=
  readFrom [] (.name []) text

/-- A location that begins with a member, and whose names can stand on a path. -/
def IsPath : Location → Prop
  | [] => False
  | [.member name] => name.all isNameChar = true
  | .member name :: outer => name.all isNameChar = true ∧ IsPath outer
  | .item _ :: outer => IsPath outer

theorem IsPath.item
    {location : Location}
    (isPath : location.IsPath)
    (index : Nat) :
    (location.item index).IsPath := by
  rwa [Location.item, IsPath]

theorem IsPath.member
    {location : Location}
    {name : Text}
    (isPath : location.IsPath)
    (plain : name.all isNameChar = true) :
    (location.member name).IsPath := by
  cases location with
  | nil => exact isPath.elim
  | cons step outer => exact ⟨plain, isPath⟩

theorem readFrom_name
    {outer : Location}
    {soFar name rest : Text}
    (plain : name.all isNameChar = true) :
    readFrom outer (.name soFar) (name ++ rest) =
      readFrom outer (.name (name.reverse ++ soFar)) rest := by
  induction name generalizing soFar with
  | nil => rfl
  | cons c others inductionHypothesis =>
      rw [List.all_cons, Bool.and_eq_true] at plain
      have notDot : c ≠ '.' := by
        rintro rfl
        exact absurd plain.1 (by decide)
      have notBracket : c ≠ '[' := by
        rintro rfl
        exact absurd plain.1 (by decide)
      rw [List.cons_append, readFrom, inductionHypothesis plain.2]
      · simp
      · exact notDot
      · exact notBracket

theorem readFrom_index
    {outer : Location}
    {soFar digits rest : Text}
    (areDigits : ∀ c ∈ digits, c.isDigit = true) :
    readFrom outer (.index soFar) (digits ++ rest) =
      readFrom outer (.index (digits.reverse ++ soFar)) rest := by
  induction digits generalizing soFar with
  | nil => rfl
  | cons c others inductionHypothesis =>
      rw [List.forall_mem_cons] at areDigits
      have notBracket : c ≠ ']' := by
        rintro rfl
        exact absurd areDigits.1 (by decide)
      rw [List.cons_append, readFrom, if_pos areDigits.1, inductionHypothesis areDigits.2]
      · simp
      · exact notBracket

/-- What has been read at the end of the text of a location. -/
def readingOf : Location → Location × Reading
  | .member name :: outer => (outer, .name name.reverse)
  | location => (location, .closed)

/-- The rest of a text, read behind the text of a location. -/
def readBehind (location : Location) (rest : Text) : Option Location :=
  readFrom location.readingOf.1 location.readingOf.2 rest

theorem readBehind_nil
    (location : Location) :
    location.readBehind [] = some location := by
  rcases location with _ | ⟨_ | _, outer⟩ <;> simp [readBehind, readingOf, readFrom, member]

theorem readBehind_dot
    (location : Location)
    (rest : Text) :
    location.readBehind ('.' :: rest) = readFrom location (.name []) rest := by
  rcases location with _ | ⟨_ | _, outer⟩ <;> simp [readBehind, readingOf, readFrom, member]

theorem readBehind_bracket
    (location : Location)
    (rest : Text) :
    location.readBehind ('[' :: rest) = readFrom location (.index []) rest := by
  rcases location with _ | ⟨_ | _, outer⟩ <;> simp [readBehind, readingOf, readFrom, member]

/-- Reading goes over the text of a location, whatever stands behind it. -/
theorem readFrom_toText
    {location : Location}
    (isPath : location.IsPath)
    (rest : Text) :
    readFrom [] (.name []) (location.toText ++ rest) = location.readBehind rest := by
  induction location generalizing rest with
  | nil => exact isPath.elim
  | cons step outer inductionHypothesis =>
      cases step with
      | item index =>
          have isDigit : ∀ c ∈ Text.ofNat index, c.isDigit = true :=
            fun c member => Nat.isDigit_of_mem_toDigits (by decide) (by decide) member
          have number : Nat.ofDigitChars 10 (Text.ofNat index) 0 = index :=
            Nat.ofDigitChars_toDigits (by decide) (by decide)
          calc
            readFrom [] (.name []) (toText (.item index :: outer) ++ rest)
            _ = readFrom [] (.name [])
                  (toText outer ++ '[' :: (Text.ofNat index ++ ']' :: rest)) := by
                rw [toText]
                simp only [List.append_assoc, List.cons_append, List.nil_append]
            _ = readFrom outer (.index []) (Text.ofNat index ++ ']' :: rest) := by
                rw [inductionHypothesis isPath, readBehind_bracket]
            _ = readFrom (item outer index) .closed rest := by
                rw [readFrom_index isDigit, List.append_nil, readFrom, List.reverse_reverse,
                  number]
      | member name =>
          cases outer with
          | nil =>
              rw [toText, readFrom_name isPath, List.append_nil]
              rfl
          | cons next others =>
              calc
                readFrom [] (.name []) (toText (.member name :: next :: others) ++ rest)
                _ = readFrom [] (.name []) (toText (next :: others) ++ '.' :: (name ++ rest)) := by
                    rw [toText]
                    · simp only [List.append_assoc, List.cons_append]
                    · exact nofun
                _ = readFrom (next :: others) (.name []) (name ++ rest) := by
                    rw [inductionHypothesis isPath.2, readBehind_dot]
                _ = readFrom (next :: others) (.name name.reverse) rest := by
                    rw [readFrom_name isPath.1, List.append_nil]

/-- The text of a location describes the location. -/
theorem ofText?_toText
    {location : Location}
    (isPath : location.IsPath) :
    ofText? location.toText = some location := by
  have read := readFrom_toText isPath []
  rwa [List.append_nil, readBehind_nil] at read

end Location

/-- The value that a path leads to in a document. -/
def valueAt? (document : Json.Value) (path : Text) : Option Json.Value :=
  (Location.ofText? path).bind (·.follow? document)

/-! ## Locations that lead to a value -/

/-- A location leads to a value of a document, and its text describes it. -/
structure Leads (document : Json.Value) (location : Location) (value : Json.Value) : Prop where
  isPath : location.IsPath
  follows : location.follow? document = some value

namespace Leads

variable {document value : Json.Value} {location : Location}

theorem valueAt?
    (leads : Leads document location value) :
    valueAt? document location.toText = some value := by
  rw [Results.valueAt?, Location.ofText?_toText leads.isPath]
  exact leads.follows

theorem item
    {items : List Json.Value}
    {index : Nat}
    (leads : Leads document location (.array items))
    (here : items[index]? = some value) :
    Leads document (location.item index) value where
  isPath := leads.isPath.item index
  follows := by
    rw [Location.item, Location.follow?, leads.follows]
    exact here

theorem lookup
    {name : Text}
    {members : List (Text × Json.Value)}
    (leads : Leads document location (.object members))
    (plain : name.all Location.isNameChar = true)
    (here : members.lookup name = some value) :
    Leads document (location.member name) value where
  isPath := leads.isPath.member plain
  follows := by
    rw [Location.member, Location.follow?, leads.follows]
    exact here

theorem member
    {name : Text}
    (leads : Leads document location value)
    (plain : name.all Location.isNameChar = true)
    (present : value.member name ≠ .null) :
    Leads document (location.member name) (value.member name) where
  isPath := leads.isPath.member plain
  follows := by
    rw [Location.member, Location.follow?, leads.follows]
    exact Step.follow?_member present

end Leads

theorem leads_member
    {document : Json.Value}
    {name : Text}
    (plain : name.all Location.isNameChar = true)
    (present : document.member name ≠ .null) :
    Leads document (Location.member [] name) (document.member name) where
  isPath := plain
  follows := Step.follow?_member present

end TestAudit.Results
